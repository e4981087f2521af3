import HaikuAgent.Analysis.SessionPasses

/-!
# Input in order

The messages that a session takes are its handshake response and then the input after it, one
sequence number after the other. The bytes written to the pty are the keystrokes among them, if
the pty takes what it is given.
-/

set_option autoImplicit false

namespace HaikuAgent.Analysis.OrderedInput

open HaikuAgent.Foundation
open HaikuAgent.Model
open HaikuAgent.Model.Mgs
open HaikuAgent.Model.Sessions
open HaikuAgent.Analysis.AckedInput
open HaikuAgent.Analysis.SessionPasses

/-! ## What is taken and what is written -/

def takenOf : Action → Option AgentMessage
  | .accept m => some m
  | _ => none

def writtenOf : Action → Bytes
  | .write bytes => bytes
  | _ => []

/-- The handshake response and the input that was applied, in order. -/
def accepted (s : Session) : List AgentMessage := s.log.filterMap takenOf

/-- What the pty was given. -/
def written (s : Session) : Bytes := s.log.flatMap writtenOf

/-- The bytes that a message types. -/
def keystrokes (m : AgentMessage) : Bytes := if m.payloadType = kPayloadOutput then m.payload else []

/-- The input after the response has the sequence numbers after that of the response. -/
def InSequence (s : Session) : Prop :=
  match accepted s with
  | [] => True
  | response :: applied =>
    (∀ m ∈ applied, IsInput m) ∧
      applied.map (fun m => m.sequence.toInt) =
        (List.range applied.length).map fun i : ℕ => response.sequence.toInt + 1 + i

/-- What was written is what that input types. -/
def Typed (s : Session) : Prop := written s = (accepted s).tail.flatMap keystrokes

/-- The input that a pass applies. -/
def applied (env : Env) (s : Session) (p : Pass) : Option AgentMessage :=
  if s.phase = .main then
    (handles env s p).filter fun m =>
      m.messageType = kMsgInputStreamData ∧ m.sequence.toInt = s.nextExpected
  else none

/-- The results of `write` take every byte. -/
def TakesAll : List PtyWrite → Bytes → Prop
  | _, [] => True
  | .count n :: writes, b :: keys => 0 < n ∧ TakesAll writes ((b :: keys).drop n)
  | .again :: writes, b :: keys => TakesAll writes (b :: keys)
  | _, _ :: _ => False

/-- The pty takes the keystrokes of the pass. -/
def WritesLand (env : Env) (s : Session) (p : Pass) : Prop :=
  ∀ m, applied env s p = some m → TakesAll p.writes (keystrokes m)

/-! ## Bytes written -/

/-- The accepted messages are those of the input actions that were accepted. -/
theorem accepted_eq_inputs (s : Session) : accepted s = (inputs s).filterMap takenOf := by
  unfold accepted inputs
  rw [List.filterMap_filter]
  congr 1
  funext a
  cases a <;> simp [takenOf, concernsInput]

/-- An action adds the bytes it writes to the shell's input. -/
theorem written_record (s : Session) (a : Action) : written (s.record a) = written s ++ writtenOf a := by
  simp [written, Session.record]

variable (env : Env) (sr : StartRequest)

/-- Nothing is written outside the keystroke loop. -/
theorem closed_written : Closed env fun s t => written t = written s where
  refl := fun _ => rfl
  trans := fun h h' => h'.trans h
  sendStream := by
    intro s payloadType data
    show written (s.record _) = _
    rw [written_record]
    exact List.append_nil _
  sendControl := by
    intro s messageType payload
    show written (s.record _) = _
    rw [written_record]
    exact List.append_nil _
  pump := by
    intro s nowMs
    unfold Session.pumpOutbox
    split
    split_ifs
    · rfl
    · split
      · show written (s.record _) = _
        rw [written_record]
        exact List.append_nil _
      · rfl
  setPhase := fun _ _ => rfl

/-- Sending an acknowledgement writes nothing to the shell. -/
theorem written_sendAck (s : Session) (m : AgentMessage) : written (s.sendAck env m) = written s := by
  unfold Session.sendAck
  rw [(closed_written env).sendControl, written_record]
  exact List.append_nil _

/-- Taking an acknowledgement writes nothing to the shell. -/
theorem written_handleAck (s : Session) (m : AgentMessage) : written (s.handleAck env m) = written s := by
  unfold Session.handleAck
  split
  split_ifs
  · rfl
  · rfl

/-- Starting the shell writes nothing to it. -/
theorem written_startShell (s : Session) (p : Pass) : written (s.startShell env sr p) = written s := by
  have hclosed := closed_written env
  unfold Session.startShell
  dsimp only
  have hspawn : written ((s.sendStream env kPayloadHandshakeComplete handshakeComplete).2.record
      (.spawn sr.shellCommands sr.runAsEnabled sr.runAsUser)) = written s := by
    rw [written_record, hclosed.sendStream]
    exact List.append_nil _
  cases p.spawnError with
  | some err => exact (hclosed.sendStream _ _ _).trans hspawn
  | none => exact hspawn

/-- The handshake writes nothing to the shell. -/
theorem written_handleHandshake (s : Session) (p : Pass) (m : AgentMessage) :
    written (s.handleHandshake env sr p m) = written s := by
  unfold Session.handleHandshake
  split_ifs
  · exact written_handleAck env s m
  · dsimp only
    split
    · exact written_sendAck env s m
    · rw [written_startShell]
      show written ((s.sendAck env m).record (.accept m)) = _
      rw [written_record, written_sendAck]
      exact List.append_nil _
  · rfl
  · exact written_sendAck env s m

/-- A shell that takes the keys gets all of them. -/
theorem written_writeKeys (writes : List PtyWrite) (s : Session) (keys : Bytes) (h : TakesAll writes keys) :
    (s.writeKeys keys writes).1 = some true ∧ written (s.writeKeys keys writes).2 = written s ++ keys := by
  induction writes generalizing s keys with
  | nil =>
    cases keys with
    | nil => exact ⟨rfl, (List.append_nil _).symm⟩
    | cons b keys => exact h.elim
  | cons w writes ih =>
    cases keys with
    | nil => exact ⟨rfl, (List.append_nil _).symm⟩
    | cons b keys =>
      cases w with
      | count n =>
        obtain ⟨hpos, hrest⟩ := h
        obtain ⟨n, rfl⟩ := Nat.exists_eq_add_one_of_ne_zero (Nat.ne_of_gt hpos)
        obtain ⟨hrunning, hwritten⟩ := ih (s.record (.write ((b :: keys).take (n + 1)))) _ hrest
        refine ⟨hrunning, ?_⟩
        show written (((s.record _).writeKeys _ writes).2) = _
        rw [hwritten, written_record, List.append_assoc]
        exact congrArg (written s ++ ·) (List.take_append_drop _ _)
      | again => exact ih s (b :: keys) h
      | failed => exact h.elim

/-- Applying an input message writes its keystrokes when the shell takes them. -/
theorem written_applyInput (s : Session) (p : Pass) (m : AgentMessage) (h : TakesAll p.writes (keystrokes m)) :
    written (s.applyInput env sr p m) = written s ++ keystrokes m := by
  unfold keystrokes at h ⊢
  unfold Session.applyInput
  by_cases hsize : m.payloadType = kPayloadSize
  · have hnot : m.payloadType ≠ kPayloadOutput := by
      rw [hsize]
      decide
    rw [if_pos hsize, if_neg hnot, List.append_nil]
    split
    split_ifs
    · exact (written_record _ _).trans (List.append_nil _)
    · rfl
  · rw [if_neg hsize]
    by_cases hout : m.payloadType = kPayloadOutput
    · rw [if_pos hout] at h ⊢
      rw [if_pos hout]
      obtain ⟨hrunning, hwritten⟩ := written_writeKeys p.writes s m.payload h
      split
      next t heq =>
        rw [heq] at hwritten
        exact hwritten
      next t heq =>
        rw [heq] at hrunning
        cases hrunning
      next t heq =>
        rw [heq] at hrunning
        cases hrunning
    · rw [if_neg hout, if_neg hout, List.append_nil]

/-- What a message of the main loop adds to what was written. -/
theorem written_handleMain (s : Session) (p : Pass) (m : AgentMessage) :
    (¬(IsInput m ∧ m.sequence.toInt = s.nextExpected) → written (s.handleMain env sr p m) = written s) ∧
      (IsInput m → m.sequence.toInt = s.nextExpected → TakesAll p.writes (keystrokes m) →
        written (s.handleMain env sr p m) = written s ++ keystrokes m) := by
  let active : Session := { s with lastClientActivity := p.activity }
  have hack : written (active.sendAck env m) = written s := written_sendAck env active m
  constructor
  · intro hnot
    unfold Session.handleMain
    dsimp only
    split_ifs with hclosed hacknowledge hother hseq
    · exact (closed_written env).teardown sr active p
    · exact written_handleAck env active m
    · exact hack
    · exact hack
    · exact absurd ⟨not_not.mp hother, not_not.mp hseq⟩ hnot
  · intro hinput hseq htakes
    have htaking : written (taking env s p m) = written s := by
      show written ((active.sendAck env m).record (.accept m)) = _
      rw [written_record, hack]
      exact List.append_nil _
    rw [handleMain_next env sr s p m hinput hseq, written_applyInput env sr _ p m htakes, htaking]

/-! ## One pass -/

/-- No input is applied outside the main loop. -/
theorem applied_of_not_main (s : Session) (p : Pass) (h : s.phase ≠ .main) : applied env s p = none := if_neg h

/-- What is applied in a pass: the input message it handles, when its number is the expected one. -/
theorem applied_eq_some (s : Session) (p : Pass) (m : AgentMessage) :
    applied env s p = some m ↔
      s.phase = .main ∧ handles env s p = some m ∧ IsInput m ∧ m.sequence.toInt = s.nextExpected := by
  unfold applied IsInput
  split_ifs with hmain
  · rw [Option.filter_eq_some_iff]
    simp [hmain]
  · simp [hmain]

/-- What a pass adds to what was written. -/
theorem written_step (s : Session) (p : Pass) :
    (applied env s p = none → written (s.step env sr p) = written s) ∧
      ∀ m, applied env s p = some m → TakesAll p.writes (keystrokes m) →
        written (s.step env sr p) = written s ++ keystrokes m := by
  cases hhandles : handles env s p with
  | none =>
    have hstep := step_of_handles_none sr s p (closed_written env) hhandles
    refine ⟨fun _ => hstep, ?_⟩
    intro m hm
    rw [applied_eq_some, hhandles] at hm
    cases hm.2.1
  | some m =>
    obtain ⟨hwritten, hsilent, -, hstep⟩ := step_of_handles sr s p (closed_written env) m hhandles
    cases hstep with
    | inl h =>
      rw [h.2, written_handleHandshake, hwritten]
      refine ⟨fun _ => rfl, ?_⟩
      intro m' hm'
      rw [applied_eq_some, h.1] at hm'
      cases hm'.1
    | inr h =>
      obtain ⟨hother, hnext⟩ := written_handleMain env sr (arrival env s p) p m
      rw [hsilent.nextExpected] at hother hnext
      rw [h.2, ← hwritten]
      constructor
      · intro hnone
        apply hother
        intro hinput
        rw [(applied_eq_some env s p m).mpr ⟨h.1, hhandles, hinput⟩] at hnone
        cases hnone
      · intro m' hm' htakes
        obtain ⟨-, hsame, hinput, hseq⟩ := (applied_eq_some env s p m').mp hm'
        cases hhandles.symm.trans hsame
        exact hnext hinput hseq htakes

section Appended

variable {s s' : Session} {m : AgentMessage}

/-- A silent move accepts nothing. -/
theorem Silent.accepted (h : Silent s s') : OrderedInput.accepted s' = OrderedInput.accepted s := by
  rw [accepted_eq_inputs, accepted_eq_inputs, h.inputs]

/-- An acknowledgement alone accepts nothing. -/
theorem accepted_of_acknowledged (h : inputs s' = inputs s ++ [.acknowledge m]) : accepted s' = accepted s := by
  rw [accepted_eq_inputs, accepted_eq_inputs, h, List.filterMap_append]
  exact List.append_nil _

/-- An acknowledgement followed by the accepted message adds that message. -/
theorem accepted_of_accepted (h : inputs s' = inputs s ++ [.acknowledge m, .accept m]) :
    accepted s' = accepted s ++ [m] := by
  rw [accepted_eq_inputs, accepted_eq_inputs, h, List.filterMap_append]
  rfl

end Appended

/-! ## The invariant along a run -/

/-- Nothing is taken before the response, and the next number is the one after what was applied. -/
structure Ordered (s : Session) : Prop where
  inSequence : InSequence s
  early : s.phase = .handshake → accepted s = []
  expected : s.phase = .main → ∃ response rest, accepted s = response :: rest ∧
    s.nextExpected = response.sequence.toInt + 1 + rest.length

/-- A move that accepts nothing keeps the accepted messages in sequence. -/
theorem inSequence_of_eq {s s' : Session} (h : accepted s' = accepted s) (hs : InSequence s) : InSequence s' := by
  unfold InSequence at hs ⊢
  rw [h]
  exact hs

/-- A pass that takes nothing. -/
theorem Ordered.keep {s s' : Session} (h : Ordered s) (haccepted : accepted s' = accepted s)
    (hnext : s'.phase = .main → s'.nextExpected = s.nextExpected) (hphase : s'.phase = s.phase ∨ Over s'.phase) :
    Ordered s' := by
  have hsame {phase : Phase} (hs' : s'.phase = phase) (hnot : ¬Over phase) : s.phase = phase := by
    cases hphase with
    | inl heq => exact heq.symm.trans hs'
    | inr hover => exact absurd (hs' ▸ hover) hnot
  refine ⟨inSequence_of_eq haccepted h.inSequence, ?_, ?_⟩
  · intro hstart
    rw [haccepted]
    exact h.early (hsame hstart (by simp [Over]))
  · intro hmain
    rw [haccepted, hnext hmain]
    exact h.expected (hsame hmain (by simp [Over]))

/-- Accepting the message with the next number keeps the accepted messages in sequence. -/
theorem inSequence_append {s s' : Session} {m response : AgentMessage} {rest : List AgentMessage}
    (hs : InSequence s) (haccepted : accepted s = response :: rest) (haccepted' : accepted s' = accepted s ++ [m])
    (hm : IsInput m) (hseq : m.sequence.toInt = response.sequence.toInt + 1 + rest.length) : InSequence s' := by
  unfold InSequence at hs ⊢
  rw [haccepted] at hs haccepted'
  rw [haccepted', List.cons_append]
  obtain ⟨hinput, hnumbers⟩ := hs
  constructor
  · intro m' hm'
    rcases List.mem_append.mp hm' with hold | hnew
    · exact hinput m' hold
    · exact (List.mem_singleton.mp hnew) ▸ hm
  · rw [List.map_append, hnumbers, List.length_append, List.length_singleton, List.range_succ, List.map_append,
      List.map_singleton, List.map_singleton, hseq]

/-- One pass keeps the order, whatever it handles. -/
theorem step_ordered (s : Session) (p : Pass) (h : Ordered s) : Ordered (s.step env sr p) := by
  have hover {phase : Phase} (hphase : Over phase) : phase ≠ .handshake ∧ phase ≠ .main := by
    rcases hphase with rfl | rfl | rfl
    · decide
    · decide
    · decide
  cases step_cases env sr s p with
  | silent hhandles hsilent hphase => exact h.keep (Silent.accepted hsilent) (fun _ => hsilent.nextExpected) hphase
  | early m hhandles hm hstart hnot hinputs hphase =>
    refine h.keep (accepted_of_acknowledged hinputs) ?_ (by rwa [hstart])
    intro hmain
    rcases hphase with hsame | hended
    · rw [hsame] at hmain
      cases hmain
    · exact absurd hmain (hover hended).2
  | response m hhandles hm hstart htype hok hinputs hphase =>
    have haccepted : accepted (s.step env sr p) = [m] := by
      rw [accepted_of_accepted hinputs, h.early hstart]
      rfl
    refine ⟨?_, ?_, ?_⟩
    · unfold InSequence
      rw [haccepted]
      exact ⟨(List.forall_mem_nil _), rfl⟩
    · intro hhandshake
      rcases hphase with hended | hmain
      · exact absurd hhandshake (hover hended).1
      · rw [hmain.1] at hhandshake
        cases hhandshake
    · intro hmain
      rcases hphase with hended | hrunning
      · exact absurd hmain (hover hended).2
      · refine ⟨m, [], haccepted, ?_⟩
        rw [hrunning.2.2]
        exact (add_zero _).symm
  | skipped m hhandles hm hstart hseq hinputs hwindow hphase =>
    exact h.keep (accepted_of_acknowledged hinputs) (fun _ => hwindow.2) (Or.inl (hphase.trans hstart.symm))
  | next m hhandles hm hstart hseq hinputs hwindow hphase =>
    obtain ⟨response, rest, haccepted, hexpected⟩ := h.expected hstart
    have haccepted' := accepted_of_accepted hinputs
    refine ⟨inSequence_append h.inSequence haccepted haccepted' hm (hseq.trans hexpected), ?_, ?_⟩
    · intro hhandshake
      rcases hphase with hmain | hended
      · rw [hmain] at hhandshake
        cases hhandshake
      · exact absurd hhandshake (hover hended).1
    · intro _
      refine ⟨response, rest ++ [m], by rw [haccepted', haccepted]; rfl, ?_⟩
      rw [hwindow.2, hexpected, List.length_append, List.length_singleton]
      push_cast
      ring

/-- What a pass takes, it types. -/
theorem step_typed (s : Session) (p : Pass) (h : Ordered s) (htyped : Typed s) (hwrites : WritesLand env s p) :
    Typed (s.step env sr p) := by
  obtain ⟨hnone, hsome⟩ := written_step env sr s p
  have hkeep (happlied : applied env s p = none)
      (htail : (accepted (s.step env sr p)).tail = (accepted s).tail) : Typed (s.step env sr p) := by
    unfold Typed
    rw [hnone happlied, htail]
    exact htyped
  have hnotMain (hstart : s.phase = .handshake) : applied env s p = none :=
    applied_of_not_main env s p (by rw [hstart]; decide)
  cases step_cases env sr s p with
  | silent hhandles hsilent hphase =>
    refine hkeep (Option.eq_none_iff_forall_ne_some.mpr fun m hm => ?_) (by rw [Silent.accepted hsilent])
    obtain ⟨-, hhandled, hinput, -⟩ := (applied_eq_some env s p m).mp hm
    exact hhandles m hhandled hinput
  | early m hhandles hm hstart hnot hinputs hphase =>
    exact hkeep (hnotMain hstart) (by rw [accepted_of_acknowledged hinputs])
  | response m hhandles hm hstart htype hok hinputs hphase =>
    exact hkeep (hnotMain hstart) (by rw [accepted_of_accepted hinputs, h.early hstart]; rfl)
  | skipped m hhandles hm hstart hseq hinputs hwindow hphase =>
    refine hkeep (Option.eq_none_iff_forall_ne_some.mpr fun m' hm' => ?_) (by rw [accepted_of_acknowledged hinputs])
    obtain ⟨-, hhandled, -, hnext⟩ := (applied_eq_some env s p m').mp hm'
    cases hhandles.symm.trans hhandled
    exact hseq hnext
  | next m hhandles hm hstart hseq hinputs hwindow hphase =>
    obtain ⟨response, rest, haccepted, -⟩ := h.expected hstart
    have happlied := (applied_eq_some env s p m).mpr ⟨hstart, hhandles, hm, hseq⟩
    unfold Typed at htyped ⊢
    rw [hsome m happlied (hwrites m happlied), htyped, accepted_of_accepted hinputs, haccepted]
    simp [keystrokes]

/-- A session begins ordered and with nothing accepted. -/
theorem ordered_start (opened : Bool) (now : ℤ) :
    Ordered (Session.start env sr opened now) ∧ accepted (Session.start env sr opened now) = [] := by
  obtain ⟨hinputs, hphase⟩ := start_spec env sr opened now
  have haccepted : accepted (Session.start env sr opened now) = [] := by
    rw [accepted_eq_inputs, hinputs]
    rfl
  refine ⟨⟨?_, fun _ => haccepted, ?_⟩, haccepted⟩
  · unfold InSequence
    rw [haccepted]
    trivial
  · intro hmain
    rcases hphase with h | h
    · rw [h] at hmain
      cases hmain
    · rw [h] at hmain
      cases hmain

/-- A session begins with nothing written to the shell. -/
theorem written_start (opened : Bool) (now : ℤ) : written (Session.start env sr opened now) = [] := by
  have hclosed := closed_written env
  unfold Session.start
  cases opened with
  | false => rfl
  | true =>
    simp only [Bool.not_true, Bool.false_eq_true, if_false]
    generalize Json.dump _ = state
    generalize buildHandshakeRequest _ _ _ = request
    have hsent : written ((Session.init.sendControl env kMsgAgentSessionState state).sendStream env
        kPayloadHandshakeRequest request).2 = [] := by
      rw [hclosed.sendStream, hclosed.sendControl]
      rfl
    generalize Session.sendStream env _ kPayloadHandshakeRequest request = sent at hsent ⊢
    obtain ⟨ok, s⟩ := sent
    cases ok with
    | false => exact hsent
    | true => exact hsent

/-- **Input is applied in order and once.** In every run of a session the messages applied have
the numbers after that of the handshake response, in order, and if the pty takes the keystrokes
it is given, it is given those of these messages.
SRC: session.cpp:269-320, 342-450 -/
theorem input_in_order (opened : Bool) (now : ℤ) (passes : List Pass) :
    let s₀ := Session.start env sr opened now
    let s := runFrom (fun s p => s.step env sr p) s₀ passes
    InSequence s ∧ (AllSteps (fun s p => s.step env sr p) (WritesLand env) s₀ passes → Typed s) := by
  intro s₀ s
  obtain ⟨hstart, haccepted⟩ := ordered_start env sr opened now
  constructor
  · exact (runFrom_invariant (fun s p => s.step env sr p) Ordered (fun s p h => step_ordered env sr s p h) s₀ hstart
      passes).inSequence
  · intro hwrites
    have htyped : Typed s₀ := by
      unfold Typed
      rw [haccepted, written_start]
      rfl
    exact (runFrom_of_allSteps (fun s p => s.step env sr p) (fun s => Ordered s ∧ Typed s) (WritesLand env)
      (fun s p h hlands => ⟨step_ordered env sr s p h.1, step_typed env sr s p h.1 h.2 hlands⟩) s₀ ⟨hstart, htyped⟩
      passes hwrites).2

end HaikuAgent.Analysis.OrderedInput
