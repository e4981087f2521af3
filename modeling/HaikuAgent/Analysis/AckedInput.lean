import HaikuAgent.Foundation.Runs
import HaikuAgent.Model.Sessions

/-!
# Acknowledged input

`run_session` acknowledges every input message it handles, and keeps none for later: one
that it does not take at once is lost, since the peer will not send it again.
`PassCases` lists what a pass can do with its input; everything else a pass does is
`Silent`. So acknowledged input is kept in every state of a run exactly when each input
message is the accepted handshake response, the next one in order, or one taken before
(`inputKept_iff`).
-/

set_option autoImplicit false

namespace HaikuAgent.Analysis.AckedInput

open HaikuAgent.Foundation
open HaikuAgent.Model
open HaikuAgent.Model.Json
open HaikuAgent.Model.Mgs
open HaikuAgent.Model.Sessions

/-! ## What is acknowledged and what is taken -/

def IsInput (m : AgentMessage) : Prop := m.messageType = kMsgInputStreamData

/-- The message with this sequence number was taken: it was the accepted handshake response, or
input in order. -/
def Taken (s : Session) (seq : ℤ) : Prop := ∃ m, .accept m ∈ s.log ∧ m.sequence.toInt = seq

/-- Every acknowledged input message was taken. The session has no member that could hold
it for later.
SRC: session.cpp:422-426 -/
def InputKept (s : Session) : Prop :=
  ∀ m, .acknowledge m ∈ s.log → IsInput m → Taken s m.sequence.toInt

/-- The actions that acknowledge or take input. -/
def concernsInput : Action → Bool
  | .acknowledge m => m.messageType = kMsgInputStreamData
  | .accept _ => true
  | _ => false

def inputs (s : Session) : List Action := s.log.filter concernsInput

/-- A number is taken where an accepted message has it. -/
theorem taken_iff (s : Session) (seq : ℤ) :
    Taken s seq ↔ ∃ m, .accept m ∈ inputs s ∧ m.sequence.toInt = seq := by
  unfold Taken inputs
  simp [concernsInput]

/-- Whether acknowledged input is kept depends on what concerns the input only. -/
theorem inputKept_iff_inputs (s : Session) :
    InputKept s ↔ ∀ m, .acknowledge m ∈ inputs s → Taken s m.sequence.toInt := by
  unfold InputKept inputs IsInput
  simp only [List.mem_filter, concernsInput, decide_eq_true_eq, and_imp]

/-! ## What does not concern input -/

/-- The session's account of its input is the same. -/
structure Silent (s s' : Session) : Prop where
  inputs : inputs s' = inputs s
  handshakeSeq : s'.handshakeSeq = s.handshakeSeq
  nextExpected : s'.nextExpected = s.nextExpected

namespace Silent

/-- A session is in silence with itself. -/
theorem rfl' (s : Session) : Silent s s := ⟨rfl, rfl, rfl⟩

/-- Two silent moves are one. -/
theorem trans {s t u : Session} (h : Silent s t) (h' : Silent t u) : Silent s u :=
  ⟨h'.inputs.trans h.inputs, h'.handshakeSeq.trans h.handshakeSeq,
    h'.nextExpected.trans h.nextExpected⟩

/-- An action that does not concern the input is silent. -/
theorem record (s : Session) (a : Action) (ha : concernsInput a = false) : Silent s (s.record a) := by
  refine ⟨?_, rfl, rfl⟩
  simp [AckedInput.inputs, Session.record, ha]

/-- The phase does not concern the input. -/
theorem setPhase (s : Session) (phase : Phase) : Silent s { s with phase } := ⟨rfl, rfl, rfl⟩

end Silent

variable (env : Env) (sr : StartRequest)

/-- Sending stream data is silent. -/
theorem sendStream_silent (s : Session) (payloadType : UInt32) (data : Bytes) :
    Silent s (s.sendStream env payloadType data).2 ∧
      (s.sendStream env payloadType data).2.phase = s.phase := by
  refine ⟨⟨?_, rfl, rfl⟩, rfl⟩
  simp [inputs, Session.sendStream, Session.record, concernsInput]

/-- Sending a control message is silent. -/
theorem sendControl_silent (s : Session) (messageType payload : Bytes) :
    Silent s (s.sendControl env messageType payload) ∧
      (s.sendControl env messageType payload).phase = s.phase := by
  refine ⟨⟨?_, rfl, rfl⟩, rfl⟩
  simp [inputs, Session.sendControl, Session.record, concernsInput]

/-- Sending again what is due is silent. -/
theorem pumpOutbox_silent (s : Session) (nowMs : ℤ) :
    Silent s (s.pumpOutbox nowMs).2 ∧ (s.pumpOutbox nowMs).2.phase = s.phase := by
  unfold Session.pumpOutbox
  rcases s.outbox.dueResend nowMs with ⟨frame, dead, outbox⟩
  simp only
  cases dead with
  | true => exact ⟨⟨rfl, rfl, rfl⟩, rfl⟩
  | false =>
    cases frame with
    | none => exact ⟨⟨rfl, rfl, rfl⟩, rfl⟩
    | some frame =>
      have hrecord := Silent.record s (.resend frame) rfl
      exact ⟨⟨hrecord.inputs, rfl, rfl⟩, rfl⟩

/-- Handling an acknowledge is silent. -/
theorem handleAck_silent (s : Session) (m : AgentMessage) :
    Silent s (s.handleAck env m) ∧ (s.handleAck env m).phase = s.phase := by
  unfold Session.handleAck
  rcases parse env.strtod m.payload with ⟨v, jerr⟩
  simp only
  split_ifs
  · exact ⟨⟨rfl, rfl, rfl⟩, rfl⟩
  · exact ⟨.rfl' s, rfl⟩

/-- An acknowledge concerns input if the message does. -/
theorem sendAck_inputs (s : Session) (m : AgentMessage) :
    inputs (s.sendAck env m) = inputs s ++ [Action.acknowledge m].filter concernsInput ∧
      (s.sendAck env m).handshakeSeq = s.handshakeSeq ∧
      (s.sendAck env m).nextExpected = s.nextExpected ∧ (s.sendAck env m).phase = s.phase := by
  refine ⟨?_, rfl, rfl, rfl⟩
  unfold Session.sendAck
  rw [(sendControl_silent env _ _ _).1.inputs]
  simp [inputs, Session.record]

/-- Acknowledging what is no input is silent. -/
theorem sendAck_silent (s : Session) (m : AgentMessage) (hm : ¬IsInput m) :
    Silent s (s.sendAck env m) ∧ (s.sendAck env m).phase = s.phase := by
  obtain ⟨hinputs, hseq, hnext, hphase⟩ := sendAck_inputs env s m
  refine ⟨⟨?_, hseq, hnext⟩, hphase⟩
  have hnone : concernsInput (.acknowledge m) = false := by
    simpa [concernsInput, IsInput] using hm
  rw [hinputs, List.filter_cons_of_neg (by simp [hnone]), List.filter_nil, List.append_nil]

/-- An input message is acknowledged once. -/
theorem sendAck_input (s : Session) (m : AgentMessage) (hm : IsInput m) :
    inputs (s.sendAck env m) = inputs s ++ [.acknowledge m] := by
  have hinput : concernsInput (.acknowledge m) = true := by
    simpa [concernsInput, IsInput] using hm
  rw [(sendAck_inputs env s m).1, List.filter_cons_of_pos hinput, List.filter_nil]

/-- Draining the pty is silent. -/
theorem drain_silent (reads : List PtyRead) (s : Session) (running : Bool) :
    Silent s (s.drain env running reads).2 ∧ (s.drain env running reads).2.phase = s.phase := by
  induction reads generalizing s running with
  | nil => exact ⟨.rfl' s, rfl⟩
  | cons r reads ih =>
    cases r with
    | data first rest =>
      obtain ⟨hsend, hphase⟩ := sendStream_silent env s kPayloadOutput (first :: rest)
      obtain ⟨hrest, hphase'⟩ := ih (s.sendStream env kPayloadOutput (first :: rest)).2
        (running && (s.sendStream env kPayloadOutput (first :: rest)).1)
      exact ⟨hsend.trans hrest, hphase'.trans hphase⟩
    | eof => exact ⟨.rfl' s, rfl⟩
    | again => exact ⟨.rfl' s, rfl⟩
    | failed => exact ⟨.rfl' s, rfl⟩

/-- Writing keystrokes is silent. -/
theorem writeKeys_silent (writes : List PtyWrite) (s : Session) (keys : Bytes) :
    Silent s (s.writeKeys keys writes).2 ∧ (s.writeKeys keys writes).2.phase = s.phase := by
  induction writes generalizing s keys with
  | nil => exact ⟨.rfl' s, rfl⟩
  | cons w writes ih =>
    rw [Session.writeKeys.eq_def]
    simp only
    split_ifs with hkeys
    · exact ⟨.rfl' s, rfl⟩
    · cases w with
      | count n =>
        cases n with
        | zero => exact ⟨.rfl' s, rfl⟩
        | succ n =>
          obtain ⟨hrest, hphase⟩ := ih (s.record (.write (keys.take (n + 1)))) (keys.drop (n + 1))
          exact ⟨(Silent.record s _ rfl).trans hrest, hphase⟩
      | again => exact ih s keys
      | failed => exact ⟨.rfl' s, rfl⟩

/-- The end of a session is silent. -/
theorem teardown_silent (s : Session) (p : Pass) :
    Silent s (s.teardown env sr p) ∧ (s.teardown env sr p).phase = .ended := by
  have hexit := (sendStream_silent env s kPayloadExitCode (toStringInt (p.exitStatus.getD 1))).1
  refine ⟨(hexit.trans (sendControl_silent env _ _ _).1).trans (.setPhase _ .ended), rfl⟩

/-- Input in order has its effect without being counted again. -/
theorem applyInput_silent (s : Session) (p : Pass) (m : AgentMessage) :
    Silent s (s.applyInput env sr p m) ∧
      ((s.applyInput env sr p m).phase = s.phase ∨ (s.applyInput env sr p m).phase = .ended ∨
        (s.applyInput env sr p m).phase = .stuck) := by
  unfold Session.applyInput
  split_ifs with hsize houtput
  · rcases parse env.strtod m.payload with ⟨sz, jerr⟩
    simp only
    split_ifs
    · exact ⟨.record s _ rfl, Or.inl rfl⟩
    · exact ⟨.rfl' s, Or.inl rfl⟩
  · obtain ⟨hsilent, hphase⟩ := writeKeys_silent p.writes s m.payload
    generalize s.writeKeys m.payload p.writes = written at hsilent hphase ⊢
    obtain ⟨running, s'⟩ := written
    cases running with
    | none => exact ⟨hsilent.trans (.setPhase s' .stuck), Or.inr (Or.inr rfl)⟩
    | some running =>
      cases running with
      | true => exact ⟨hsilent, Or.inl hphase⟩
      | false =>
        obtain ⟨hteardown, hended⟩ := teardown_silent env sr s' p
        exact ⟨hsilent.trans hteardown, Or.inr (Or.inl hended)⟩
  · exact ⟨.rfl' s, Or.inl rfl⟩

/-- The shell is started, or the session ends. -/
theorem startShell_spec (s : Session) (p : Pass) :
    inputs (s.startShell env sr p) = inputs s ∧
      (s.startShell env sr p).handshakeSeq = s.handshakeSeq ∧
      ((s.startShell env sr p).phase = .ended ∨
        (s.startShell env sr p).phase = .main ∧
          (s.startShell env sr p).nextExpected = s.handshakeSeq + 1) := by
  have hspawn := (sendStream_silent env s kPayloadHandshakeComplete handshakeComplete).1.trans
    (.record _ (.spawn sr.shellCommands sr.runAsEnabled sr.runAsUser) rfl)
  unfold Session.startShell
  simp only
  cases p.spawnError with
  | some err =>
    have hsilent := hspawn.trans (sendStream_silent env _ kPayloadStdErr
      (lit "Failed to start shell: " ++ err ++ lit "\r\n")).1
    exact ⟨hsilent.inputs, hsilent.handshakeSeq, Or.inl rfl⟩
  | none => exact ⟨hspawn.inputs, hspawn.handshakeSeq, Or.inr ⟨rfl, rfl⟩⟩

/-! ## One pass -/

/-- The message that a pass handles, if it comes to one. -/
def handles (s : Session) (p : Pass) : Option AgentMessage :=
  match s.phase with
  | .handshake =>
    if p.stop ∨ s.hsDeadline < p.now ∨ (s.pumpOutbox p.pumpMs).1 = false then none
    else
      match inbound p.recv with
      | .message m => some m
      | _ => none
  | .main =>
    let pumped := s.pumpOutbox p.pumpMs
    if p.stop ∨ pumped.1 = false ∨ kIdleTimeoutSeconds < p.now - pumped.2.lastClientActivity ∨
        (pumped.2.drain env true p.reads).1 ≠ some true then none
    else
      match inbound p.recv with
      | .message m => some m
      | _ => none
  | _ => none

/-- What a pass of the handshake loop handles: the message that it receives, if it comes to receive. -/
theorem handles_handshake (s : Session) (p : Pass) (hstart : s.phase = .handshake) :
    handles env s p =
      if p.stop ∨ s.hsDeadline < p.now ∨ (s.pumpOutbox p.pumpMs).1 = false then none
      else
        match inbound p.recv with
        | .message m => some m
        | _ => none := by
  rw [handles, hstart]

/-- What a pass of the main loop handles: the message that it receives, if it comes to receive. -/
theorem handles_main (s : Session) (p : Pass) (hstart : s.phase = .main) :
    handles env s p =
      if p.stop ∨ (s.pumpOutbox p.pumpMs).1 = false ∨
          kIdleTimeoutSeconds < p.now - (s.pumpOutbox p.pumpMs).2.lastClientActivity ∨
          ((s.pumpOutbox p.pumpMs).2.drain env true p.reads).1 ≠ some true then none
      else
        match inbound p.recv with
        | .message m => some m
        | _ => none := by
  rw [handles, hstart]

/-- A phase that a loop of `run_session` does not go on in. -/
def Over (phase : Phase) : Prop := phase = .ended ∨ phase = .stuck ∨ phase = .thrown

/-- What a pass does with input. -/
inductive PassCases (s : Session) (p : Pass) (s' : Session) : Prop where
  /-- it handles no input message -/
  | silent (hhandles : ∀ m, handles env s p = some m → ¬IsInput m) (hsilent : Silent s s')
      (hphase : s'.phase = s.phase ∨ Over s'.phase)
  /-- input before the handshake response, or a response that is rejected -/
  | early (m : AgentMessage) (hhandles : handles env s p = some m) (hm : IsInput m)
      (hstart : s.phase = .handshake)
      (hnot : ¬(m.payloadType = kPayloadHandshakeResponse ∧
        (handshakeResponseOk env.strtod m.payload).toBool = true))
      (hinputs : inputs s' = inputs s ++ [.acknowledge m])
      (hphase : s'.phase = .handshake ∨ Over s'.phase)
  /-- the handshake response -/
  | response (m : AgentMessage) (hhandles : handles env s p = some m) (hm : IsInput m)
      (hstart : s.phase = .handshake) (htype : m.payloadType = kPayloadHandshakeResponse)
      (hok : (handshakeResponseOk env.strtod m.payload).toBool = true)
      (hinputs : inputs s' = inputs s ++ [.acknowledge m, .accept m])
      (hphase : Over s'.phase ∨ s'.phase = .main ∧ s'.handshakeSeq = m.sequence.toInt ∧
        s'.nextExpected = m.sequence.toInt + 1)
  /-- input out of order -/
  | skipped (m : AgentMessage) (hhandles : handles env s p = some m) (hm : IsInput m)
      (hstart : s.phase = .main) (hseq : m.sequence.toInt ≠ s.nextExpected)
      (hinputs : inputs s' = inputs s ++ [.acknowledge m])
      (hwindow : s'.handshakeSeq = s.handshakeSeq ∧ s'.nextExpected = s.nextExpected)
      (hphase : s'.phase = .main)
  /-- the next input in order -/
  | next (m : AgentMessage) (hhandles : handles env s p = some m) (hm : IsInput m)
      (hstart : s.phase = .main) (hseq : m.sequence.toInt = s.nextExpected)
      (hinputs : inputs s' = inputs s ++ [.acknowledge m, .accept m])
      (hwindow : s'.handshakeSeq = s.handshakeSeq ∧ s'.nextExpected = s.nextExpected + 1)
      (hphase : s'.phase = .main ∨ Over s'.phase)

/-- What the handshake loop does with a message. -/
theorem handleHandshake_spec (s : Session) (p : Pass) (m : AgentMessage)
    (hstart : s.phase = .handshake) :
    let s' := s.handleHandshake env sr p m
    let accepted := m.payloadType = kPayloadHandshakeResponse ∧
      (handshakeResponseOk env.strtod m.payload).toBool = true
    (¬IsInput m → Silent s s' ∧ (s'.phase = .handshake ∨ Over s'.phase)) ∧
    (IsInput m → ¬accepted →
      inputs s' = inputs s ++ [.acknowledge m] ∧ (s'.phase = .handshake ∨ Over s'.phase)) ∧
    (IsInput m → accepted →
      inputs s' = inputs s ++ [.acknowledge m, .accept m] ∧
        (Over s'.phase ∨ s'.phase = .main ∧ s'.handshakeSeq = m.sequence.toInt ∧
          s'.nextExpected = m.sequence.toInt + 1)) := by
  intro s' accepted
  have hended : Over .ended := Or.inl rfl
  by_cases hinput : IsInput m
  · have hnotAck : m.messageType ≠ kMsgAcknowledge := by
      rw [hinput]
      decide
    refine ⟨fun h => absurd hinput h, ?_, ?_⟩
    · intro _ hnot
      by_cases htype : m.payloadType = kPayloadHandshakeResponse
      · -- a response that is rejected
        have hs' : s' = { s.sendAck env m with phase := .ended } := by
          change s.handleHandshake env sr p m = _
          unfold Session.handleHandshake
          rw [if_neg hnotAck, if_pos ⟨hinput, htype⟩]
          cases hok : handshakeResponseOk env.strtod m.payload with
          | error err => rfl
          | ok version =>
            refine absurd ⟨htype, ?_⟩ hnot
            rw [hok]
            rfl
        rw [hs']
        exact ⟨sendAck_input env s m hinput, Or.inr hended⟩
      · have hs' : s' = s.sendAck env m := by
          change s.handleHandshake env sr p m = _
          unfold Session.handleHandshake
          rw [if_neg hnotAck, if_neg (fun h => htype h.2), if_neg]
          rw [hinput]
          decide
        rw [hs']
        exact ⟨sendAck_input env s m hinput, Or.inl hstart⟩
    · rintro _ ⟨htype, hok⟩
      let taken : Session :=
        { (s.sendAck env m).record (.accept m) with handshakeSeq := m.sequence.toInt }
      have hs' : s' = taken.startShell env sr p := by
        change s.handleHandshake env sr p m = _
        unfold Session.handleHandshake
        rw [if_neg hnotAck, if_pos ⟨hinput, htype⟩]
        cases hresponse : handshakeResponseOk env.strtod m.payload with
        | error err =>
          rw [hresponse] at hok
          cases hok
        | ok version => rfl
      have htaken : inputs taken = inputs s ++ [.acknowledge m, .accept m] := by
        have hack := sendAck_input env s m hinput
        simp only [inputs] at hack ⊢
        simp [taken, Session.record, hack, concernsInput]
      obtain ⟨hinputs, hseq, hphase⟩ := startShell_spec env sr taken p
      rw [hs', hinputs, htaken]
      refine ⟨rfl, ?_⟩
      rcases hphase with hover | ⟨hmain, hnext⟩
      · exact Or.inl (Or.inl hover)
      · exact Or.inr ⟨hmain, hseq, hnext⟩
  · refine ⟨fun _ => ?_, fun h => absurd h hinput, fun h => absurd h hinput⟩
    change Silent s (s.handleHandshake env sr p m) ∧
      ((s.handleHandshake env sr p m).phase = .handshake ∨ Over (s.handleHandshake env sr p m).phase)
    unfold Session.handleHandshake
    have hnot : ¬(m.messageType = kMsgInputStreamData ∧ m.payloadType = kPayloadHandshakeResponse) :=
      fun h => hinput h.1
    rw [if_neg hnot]
    split_ifs
    · obtain ⟨hsilent, hphase⟩ := handleAck_silent env s m
      exact ⟨hsilent, Or.inl (hphase.trans hstart)⟩
    · exact ⟨.setPhase s .ended, Or.inr hended⟩
    · obtain ⟨hsilent, hphase⟩ := sendAck_silent env s m hinput
      exact ⟨hsilent, Or.inl (hphase.trans hstart)⟩

/-- What a pass of the handshake loop can do with its input. -/
theorem handshakePass_cases (s : Session) (p : Pass) (hstart : s.phase = .handshake) :
    PassCases env s p (s.handshakePass env sr p) := by
  have hleave (s' : Session) (hsilent : Silent s s') (phase : Phase) (hover : Over phase)
      (hnone : handles env s p = none) : PassCases env s p { s' with phase } := by
    refine .silent ?_ (hsilent.trans (.setPhase s' phase)) (Or.inr hover)
    intro m hm
    rw [hnone] at hm
    cases hm
  have hended : Over .ended := Or.inl rfl
  obtain ⟨hpump, hpumpPhase⟩ := pumpOutbox_silent s p.pumpMs
  have hhandles := handles_handshake env s p hstart
  unfold Session.handshakePass
  by_cases hstop : p.stop = true
  · rw [if_pos hstop]
    exact hleave s (.rfl' s) .ended hended (by rw [hhandles, if_pos (Or.inl hstop)])
  rw [if_neg hstop]
  by_cases hlate : s.hsDeadline < p.now
  · rw [if_pos hlate]
    exact hleave s (.rfl' s) .ended hended (by rw [hhandles, if_pos (Or.inr (Or.inl hlate))])
  rw [if_neg hlate]
  generalize s.pumpOutbox p.pumpMs = pumped at hpump hpumpPhase hhandles ⊢
  obtain ⟨alive, s₁⟩ := pumped
  cases alive with
  | false => exact hleave s₁ hpump .ended hended (by rw [hhandles, if_pos (Or.inr (Or.inr rfl))])
  | true =>
    rw [if_neg (by simp [hstop, hlate])] at hhandles
    simp only
    cases hin : inbound p.recv with
    | closed => exact hleave s₁ hpump .ended hended (by rw [hhandles, hin])
    | thrown => exact hleave s₁ hpump .thrown (Or.inr (Or.inr rfl)) (by rw [hhandles, hin])
    | nothing =>
      refine .silent ?_ hpump (Or.inl hpumpPhase)
      intro m hm
      rw [hhandles, hin] at hm
      cases hm
    | message m =>
      rw [hin] at hhandles
      obtain ⟨hother, hearly, hresponse⟩ :=
        handleHandshake_spec env sr s₁ p m (hpumpPhase.trans hstart)
      by_cases hinput : IsInput m
      · by_cases haccepted : m.payloadType = kPayloadHandshakeResponse ∧
            (handshakeResponseOk env.strtod m.payload).toBool = true
        · obtain ⟨hinputs, hphase⟩ := hresponse hinput haccepted
          rw [hpump.inputs] at hinputs
          exact .response m hhandles hinput hstart haccepted.1 haccepted.2 hinputs hphase
        · obtain ⟨hinputs, hphase⟩ := hearly hinput haccepted
          rw [hpump.inputs] at hinputs
          exact .early m hhandles hinput hstart haccepted hinputs hphase
      · obtain ⟨hsilent, hphase⟩ := hother hinput
        refine .silent ?_ (hpump.trans hsilent) (by rwa [hstart])
        intro m' hm'
        rw [hhandles] at hm'
        cases hm'
        exact hinput

/-- The session with the next input acknowledged and taken. -/
def taking (s : Session) (p : Pass) (m : AgentMessage) : Session :=
  { (({ s with lastClientActivity := p.activity } : Session).sendAck env m).record (.accept m) with
    nextExpected := s.nextExpected + 1 }

/-- The next input in order is taken. -/
theorem handleMain_next (s : Session) (p : Pass) (m : AgentMessage) (hinput : IsInput m)
    (hseq : m.sequence.toInt = s.nextExpected) :
    s.handleMain env sr p m = (taking env s p m).applyInput env sr p m := by
  have hnotClosed : m.messageType ≠ kMsgChannelClosed := by
    rw [hinput]
    decide
  have hnotAck : m.messageType ≠ kMsgAcknowledge := by
    rw [hinput]
    decide
  have hinput' : ¬m.messageType ≠ kMsgInputStreamData := not_not.mpr hinput
  unfold Session.handleMain
  rw [if_neg hnotClosed, if_neg hnotAck, if_neg hinput']
  exact if_neg (not_not.mpr hseq)

/-- What the main loop does with a message. -/
theorem handleMain_spec (s : Session) (p : Pass) (m : AgentMessage) (hstart : s.phase = .main) :
    let s' := s.handleMain env sr p m
    (¬IsInput m → Silent s s' ∧ (s'.phase = .main ∨ Over s'.phase)) ∧
    (IsInput m → m.sequence.toInt ≠ s.nextExpected →
      inputs s' = inputs s ++ [.acknowledge m] ∧ s'.handshakeSeq = s.handshakeSeq ∧
        s'.nextExpected = s.nextExpected ∧ s'.phase = .main) ∧
    (IsInput m → m.sequence.toInt = s.nextExpected →
      inputs s' = inputs s ++ [.acknowledge m, .accept m] ∧ s'.handshakeSeq = s.handshakeSeq ∧
        s'.nextExpected = s.nextExpected + 1 ∧ (s'.phase = .main ∨ Over s'.phase)) := by
  intro s'
  let active : Session := { s with lastClientActivity := p.activity }
  have hactive : Silent s active := ⟨rfl, rfl, rfl⟩
  by_cases hinput : IsInput m
  · have hnotClosed : m.messageType ≠ kMsgChannelClosed := by
      rw [hinput]
      decide
    have hnotAck : m.messageType ≠ kMsgAcknowledge := by
      rw [hinput]
      decide
    have hinput' : ¬m.messageType ≠ kMsgInputStreamData := not_not.mpr hinput
    have hack := sendAck_input env active m hinput
    rw [hactive.inputs] at hack
    refine ⟨fun h => absurd hinput h, ?_, ?_⟩
    · intro _ hseq
      have hs' : s' = active.sendAck env m := by
        change s.handleMain env sr p m = _
        unfold Session.handleMain
        rw [if_neg hnotClosed, if_neg hnotAck, if_neg hinput']
        exact if_pos hseq
      rw [hs']
      exact ⟨hack, rfl, rfl, hstart⟩
    · intro _ hseq
      let taken := taking env s p m
      have hs' : s' = taken.applyInput env sr p m := handleMain_next env sr s p m hinput hseq
      have htaken : inputs taken = inputs s ++ [.acknowledge m, .accept m] := by
        simp only [inputs] at hack ⊢
        simp [taken, taking, Session.record, hack, concernsInput, active]
      obtain ⟨hsilent, hphase⟩ := applyInput_silent env sr taken p m
      rw [hs', hsilent.inputs, htaken]
      refine ⟨rfl, hsilent.handshakeSeq, hsilent.nextExpected, ?_⟩
      rcases hphase with hsame | hended | hstuck
      · exact Or.inl (hsame.trans hstart)
      · exact Or.inr (Or.inl hended)
      · exact Or.inr (Or.inr (Or.inl hstuck))
  · refine ⟨fun _ => ?_, fun h => absurd h hinput, fun h => absurd h hinput⟩
    change Silent s (s.handleMain env sr p m) ∧
      ((s.handleMain env sr p m).phase = .main ∨ Over (s.handleMain env sr p m).phase)
    unfold Session.handleMain
    have hinput' : m.messageType ≠ kMsgInputStreamData := hinput
    simp only
    split_ifs
    · obtain ⟨hsilent, hphase⟩ := teardown_silent env sr active p
      exact ⟨hactive.trans hsilent, Or.inr (Or.inl hphase)⟩
    · obtain ⟨hsilent, hphase⟩ := handleAck_silent env active m
      exact ⟨hactive.trans hsilent, Or.inl (hphase.trans hstart)⟩
    · obtain ⟨hsilent, hphase⟩ := sendAck_silent env active m hinput
      exact ⟨hactive.trans hsilent, Or.inl (hphase.trans hstart)⟩

/-- What a pass of the main loop can do with its input. -/
theorem mainPass_cases (s : Session) (p : Pass) (hstart : s.phase = .main) :
    PassCases env s p (s.mainPass env sr p) := by
  have hleave (s' : Session) (hsilent : Silent s s') (hnone : handles env s p = none) :
      PassCases env s p (s'.teardown env sr p) := by
    obtain ⟨hteardown, hended⟩ := teardown_silent env sr s' p
    refine .silent ?_ (hsilent.trans hteardown) (Or.inr (Or.inl hended))
    intro m hm
    rw [hnone] at hm
    cases hm
  obtain ⟨hpump, hpumpPhase⟩ := pumpOutbox_silent s p.pumpMs
  have hhandles := handles_main env s p hstart
  unfold Session.mainPass
  by_cases hstop : p.stop = true
  · rw [if_pos hstop]
    exact hleave s (.rfl' s) (by rw [hhandles, if_pos (Or.inl hstop)])
  rw [if_neg hstop]
  generalize s.pumpOutbox p.pumpMs = pumped at hpump hpumpPhase hhandles ⊢
  obtain ⟨alive, s₁⟩ := pumped
  cases alive with
  | false => exact hleave s₁ hpump (by rw [hhandles, if_pos (Or.inr (Or.inl rfl))])
  | true =>
    simp only at hhandles ⊢
    by_cases hidle : kIdleTimeoutSeconds < p.now - s₁.lastClientActivity
    · rw [if_pos hidle]
      exact hleave s₁ hpump (by rw [hhandles, if_pos (Or.inr (Or.inr (Or.inl hidle)))])
    rw [if_neg hidle]
    obtain ⟨hdrain, hdrainPhase⟩ := drain_silent env p.reads s₁ true
    generalize s₁.drain env true p.reads = drained at hdrain hdrainPhase hhandles ⊢
    obtain ⟨running, s₂⟩ := drained
    have hsilent := hpump.trans hdrain
    have hmain : s₂.phase = .main := hdrainPhase.trans (hpumpPhase.trans hstart)
    cases running with
    | none =>
      refine .silent ?_ (hsilent.trans (.setPhase s₂ .stuck)) (Or.inr (Or.inr (Or.inl rfl)))
      intro m hm
      rw [hhandles, if_pos (Or.inr (Or.inr (Or.inr (by simp))))] at hm
      cases hm
    | some running =>
      cases running with
      | false =>
        exact hleave s₂ hsilent (by rw [hhandles, if_pos (Or.inr (Or.inr (Or.inr (by simp))))])
      | true =>
        rw [if_neg (by simp [hstop, hidle])] at hhandles
        simp only
        cases hin : inbound p.recv with
        | closed => exact hleave s₂ hsilent (by rw [hhandles, hin])
        | thrown =>
          refine .silent ?_ (hsilent.trans (.setPhase s₂ .thrown)) (Or.inr (Or.inr (Or.inr rfl)))
          intro m hm
          rw [hhandles, hin] at hm
          cases hm
        | nothing =>
          refine .silent ?_ hsilent (Or.inl (hmain.trans hstart.symm))
          intro m hm
          rw [hhandles, hin] at hm
          cases hm
        | message m =>
          rw [hin] at hhandles
          obtain ⟨hother, hskipped, hnext⟩ := handleMain_spec env sr s₂ p m hmain
          rw [hsilent.nextExpected, hsilent.handshakeSeq, hsilent.inputs] at hskipped hnext
          by_cases hinput : IsInput m
          · by_cases hseq : m.sequence.toInt = s.nextExpected
            · obtain ⟨hinputs, hfirst, hlast, hphase⟩ := hnext hinput hseq
              exact .next m hhandles hinput hstart hseq hinputs ⟨hfirst, hlast⟩ hphase
            · obtain ⟨hinputs, hfirst, hlast, hphase⟩ := hskipped hinput hseq
              exact .skipped m hhandles hinput hstart hseq hinputs ⟨hfirst, hlast⟩ hphase
          · obtain ⟨hrest, hphase⟩ := hother hinput
            refine .silent ?_ (hsilent.trans hrest) (by rwa [hstart])
            intro m' hm'
            rw [hhandles] at hm'
            cases hm'
            exact hinput

/-- Every pass is one of the cases. -/
theorem step_cases (s : Session) (p : Pass) : PassCases env s p (s.step env sr p) := by
  have hidle (hphase : ∀ m, handles env s p ≠ some m) (hsame : s.step env sr p = s) :
      PassCases env s p (s.step env sr p) := by
    rw [hsame]
    exact .silent (fun m hm => absurd hm (hphase m)) (.rfl' s) (Or.inl rfl)
  cases hstart : s.phase with
  | handshake =>
    have hstep : s.step env sr p = s.handshakePass env sr p := by rw [Session.step, hstart]
    rw [hstep]
    exact handshakePass_cases env sr s p hstart
  | main =>
    have hstep : s.step env sr p = s.mainPass env sr p := by rw [Session.step, hstart]
    rw [hstep]
    exact mainPass_cases env sr s p hstart
  | ended => exact hidle (by simp [handles, hstart]) (by rw [Session.step, hstart])
  | stuck => exact hidle (by simp [handles, hstart]) (by rw [Session.step, hstart])
  | thrown => exact hidle (by simp [handles, hstart]) (by rw [Session.step, hstart])

/-! ## The invariant along a run -/

/-- What is taken stays so in silence. -/
theorem Silent.taken {s s' : Session} (h : Silent s s') (seq : ℤ) : Taken s' seq ↔ Taken s seq := by
  rw [taken_iff, taken_iff, h.inputs]

/-- What is kept stays so in silence. -/
theorem Silent.kept {s s' : Session} (h : Silent s s') : InputKept s' ↔ InputKept s := by
  rw [inputKept_iff_inputs, inputKept_iff_inputs, h.inputs]
  simp only [h.taken]

section Appended

variable {s s' : Session} {m : AgentMessage}

/-- An acknowledge takes nothing. -/
theorem taken_of_acknowledged (h : inputs s' = inputs s ++ [.acknowledge m]) (seq : ℤ) :
    Taken s' seq ↔ Taken s seq := by
  rw [taken_iff, taken_iff, h]
  simp

/-- A message that is only acknowledged is kept if it was taken before. -/
theorem kept_of_acknowledged (h : inputs s' = inputs s ++ [.acknowledge m]) :
    InputKept s' ↔ InputKept s ∧ Taken s m.sequence.toInt := by
  rw [inputKept_iff_inputs, inputKept_iff_inputs, h]
  simp only [taken_of_acknowledged h, List.mem_append, List.mem_singleton, Action.acknowledge.injEq]
  constructor
  · intro hkept
    exact ⟨fun x hx => hkept x (Or.inl hx), hkept m (Or.inr rfl)⟩
  · rintro ⟨hkept, htaken⟩ x (hx | rfl)
    · exact hkept x hx
    · exact htaken

/-- An accepted message takes its number. -/
theorem taken_of_accepted (h : inputs s' = inputs s ++ [.acknowledge m, .accept m]) (seq : ℤ) :
    Taken s' seq ↔ Taken s seq ∨ seq = m.sequence.toInt := by
  rw [taken_iff, taken_iff, h]
  constructor
  · rintro ⟨x, hx, hseq⟩
    rcases List.mem_append.mp hx with hold | hnew
    · exact Or.inl ⟨x, hold, hseq⟩
    · simp only [List.mem_cons, reduceCtorEq, Action.accept.injEq, List.not_mem_nil, or_false,
        false_or] at hnew
      exact Or.inr (by rw [← hseq, hnew])
  · rintro (⟨x, hx, hseq⟩ | rfl)
    · exact ⟨x, List.mem_append_left _ hx, hseq⟩
    · exact ⟨m, by simp, rfl⟩

/-- Input that is acknowledged and accepted is kept. -/
theorem kept_of_accepted (h : inputs s' = inputs s ++ [.acknowledge m, .accept m])
    (hkept : InputKept s) : InputKept s' := by
  rw [inputKept_iff_inputs] at hkept ⊢
  intro x hx
  rw [taken_of_accepted h]
  rw [h] at hx
  rcases List.mem_append.mp hx with hold | hnew
  · exact Or.inl (hkept x hold)
  · simp only [List.mem_cons, reduceCtorEq, Action.acknowledge.injEq, List.not_mem_nil, or_false] at hnew
    exact Or.inr (by rw [hnew])

end Appended

/-- Input is kept, and what was taken is what the sequence numbers of the session say. -/
structure Sound (s : Session) : Prop where
  kept : InputKept s
  untaken : s.phase = .handshake → ∀ seq, ¬Taken s seq
  window : s.phase = .main → ∀ seq, Taken s seq ↔ s.handshakeSeq ≤ seq ∧ seq < s.nextExpected
  order : s.phase = .main → s.handshakeSeq < s.nextExpected

/-- An input message that the pass handles is the accepted handshake response, or, once the
shell runs, at most the next one expected and not before the handshake response. -/
def InputLands (s : Session) (p : Pass) : Prop :=
  ∀ m, handles env s p = some m → IsInput m →
    (s.phase = .handshake → m.payloadType = kPayloadHandshakeResponse ∧
      (handshakeResponseOk env.strtod m.payload).toBool = true) ∧
    (s.phase = .main → s.handshakeSeq ≤ m.sequence.toInt ∧ m.sequence.toInt ≤ s.nextExpected)

/-- A session begins without input, in the handshake or at its end. -/
theorem start_spec (opened : Bool) (now : ℤ) :
    inputs (Session.start env sr opened now) = [] ∧
      ((Session.start env sr opened now).phase = .handshake ∨
        (Session.start env sr opened now).phase = .ended) := by
  unfold Session.start
  cases opened with
  | false => exact ⟨rfl, Or.inr rfl⟩
  | true =>
    simp only [Bool.not_true, Bool.false_eq_true, if_false]
    generalize dump _ = state
    generalize buildHandshakeRequest _ _ _ = request
    have hconnected := (sendControl_silent env Session.init kMsgAgentSessionState state).1
    obtain ⟨hrequest, hphase⟩ := sendStream_silent env
      (Session.init.sendControl env kMsgAgentSessionState state) kPayloadHandshakeRequest request
    have hsilent := hconnected.trans hrequest
    generalize Session.sendStream env _ kPayloadHandshakeRequest request = sent at hsilent hphase ⊢
    obtain ⟨ok, s⟩ := sent
    cases ok with
    | false => exact ⟨hsilent.inputs, Or.inr rfl⟩
    | true => exact ⟨hsilent.inputs, Or.inl hphase⟩

/-- The beginning of a session is sound. -/
theorem sound_start (opened : Bool) (now : ℤ) : Sound (Session.start env sr opened now) := by
  obtain ⟨hinputs, hphase⟩ := start_spec env sr opened now
  have hnotMain : (Session.start env sr opened now).phase ≠ .main := by
    rcases hphase with h | h
    · rw [h]
      decide
    · rw [h]
      decide
  refine ⟨?_, ?_, fun hmain => absurd hmain hnotMain, fun hmain => absurd hmain hnotMain⟩
  · rw [inputKept_iff_inputs, hinputs]
    intro m hm
    cases hm
  · intro _ seq
    rw [taken_iff, hinputs]
    rintro ⟨m, hm, -⟩
    cases hm

/-- A pass whose input lands keeps the invariant. -/
theorem step_sound (s : Session) (p : Pass) (h : Sound s) (hlands : InputLands env s p) :
    Sound (s.step env sr p) := by
  have hover {phase : Phase} (hphase : Over phase) : phase ≠ .handshake ∧ phase ≠ .main := by
    rcases hphase with rfl | rfl | rfl
    · decide
    · decide
    · decide
  cases step_cases env sr s p with
  | silent hhandles hsilent hphase =>
    refine ⟨hsilent.kept.mpr h.kept, ?_, ?_, ?_⟩
    · intro hhandshake seq
      rw [hsilent.taken]
      rcases hphase with hsame | hended
      · exact h.untaken (hsame.symm.trans hhandshake) seq
      · exact absurd hhandshake (hover hended).1
    · intro hmain seq
      rw [hsilent.taken, hsilent.handshakeSeq, hsilent.nextExpected]
      rcases hphase with hsame | hended
      · exact h.window (hsame.symm.trans hmain) seq
      · exact absurd hmain (hover hended).2
    · intro hmain
      rw [hsilent.handshakeSeq, hsilent.nextExpected]
      rcases hphase with hsame | hended
      · exact h.order (hsame.symm.trans hmain)
      · exact absurd hmain (hover hended).2
  | early m hhandles hm hstart hnot hinputs hphase =>
    exact absurd ((hlands m hhandles hm).1 hstart) hnot
  | response m hhandles hm hstart htype hok hinputs hphase =>
    refine ⟨kept_of_accepted hinputs h.kept, ?_, ?_, ?_⟩
    · intro hhandshake
      rcases hphase with hended | ⟨hmain, -⟩
      · exact absurd hhandshake (hover hended).1
      · rw [hmain] at hhandshake
        cases hhandshake
    · intro hmain seq
      rcases hphase with hended | ⟨-, hfirst, hnext⟩
      · exact absurd hmain (hover hended).2
      · have huntaken := h.untaken hstart seq
        rw [taken_of_accepted hinputs, hfirst, hnext]
        constructor
        · rintro (htaken | rfl)
          · exact absurd htaken huntaken
          · omega
        · rintro ⟨hle, hlt⟩
          exact Or.inr (by omega)
    · intro hmain
      rcases hphase with hended | ⟨-, hfirst, hnext⟩
      · exact absurd hmain (hover hended).2
      · rw [hfirst, hnext]
        exact Int.lt_succ _
  | skipped m hhandles hm hstart hseq hinputs hwindow hphase =>
    obtain ⟨hfirst, hlast⟩ := (hlands m hhandles hm).2 hstart
    have htaken : Taken s m.sequence.toInt := by
      rw [h.window hstart]
      omega
    refine ⟨(kept_of_acknowledged hinputs).mpr ⟨h.kept, htaken⟩, ?_, ?_, ?_⟩
    · intro hhandshake
      rw [hphase] at hhandshake
      cases hhandshake
    · intro _ seq
      rw [taken_of_acknowledged hinputs, hwindow.1, hwindow.2]
      exact h.window hstart seq
    · intro _
      rw [hwindow.1, hwindow.2]
      exact h.order hstart
  | next m hhandles hm hstart hseq hinputs hwindow hphase =>
    have hfirst := ((hlands m hhandles hm).2 hstart).1
    refine ⟨kept_of_accepted hinputs h.kept, ?_, ?_, ?_⟩
    · intro hhandshake
      rcases hphase with hmain | hended
      · rw [hmain] at hhandshake
        cases hhandshake
      · exact absurd hhandshake (hover hended).1
    · intro _ seq
      rw [taken_of_accepted hinputs, h.window hstart, hwindow.1, hwindow.2]
      constructor
      · rintro (hold | rfl)
        · omega
        · omega
      · rintro ⟨hle, hlt⟩
        by_cases hnew : seq = m.sequence.toInt
        · exact Or.inr hnew
        · exact Or.inl (by omega)
    · intro _
      have horder := h.order hstart
      rw [hwindow.1, hwindow.2]
      omega

/-- A pass whose input does not land acknowledges a message and drops it. -/
theorem not_kept_of_not_lands (s : Session) (p : Pass) (h : Sound s)
    (hlost : ¬InputLands env s p) : ¬InputKept (s.step env sr p) := by
  unfold InputLands at hlost
  push Not at hlost
  obtain ⟨m, hhandles, hm, hlost⟩ := hlost
  intro hkept
  have hsame {m' : AgentMessage} (hhandles' : handles env s p = some m') : m' = m := by
    rw [hhandles] at hhandles'
    exact (Option.some.inj hhandles').symm
  cases step_cases env sr s p with
  | silent hnone hsilent hphase => exact hnone m hhandles hm
  | early m' hhandles' hm' hstart hnot hinputs hphase =>
    -- acknowledged before anything was taken
    exact h.untaken hstart _ ((kept_of_acknowledged hinputs).mp hkept).2
  | response m' hhandles' hm' hstart htype hok hinputs hphase =>
    cases hsame hhandles'
    have hphase' := hlost fun _ => ⟨htype, hok⟩
    rw [hstart] at hphase'
    cases hphase'.1
  | skipped m' hhandles' hm' hstart hseq hinputs hwindow hphase =>
    cases hsame hhandles'
    have htaken := ((kept_of_acknowledged hinputs).mp hkept).2
    rw [h.window hstart] at htaken
    have hbeyond := (hlost fun hhandshake => by rw [hstart] at hhandshake; cases hhandshake).2
      htaken.1
    omega
  | next m' hhandles' hm' hstart hseq hinputs hwindow hphase =>
    cases hsame hhandles'
    have horder := h.order hstart
    have hbeyond := (hlost fun hhandshake => by rw [hstart] at hhandshake; cases hhandshake).2
      (by omega)
    omega

/-- **When acknowledged input is kept**: in all states of a run of a session, exactly when
every input message that it handles lands.
SRC: session.cpp:106-114, 269-320, 404-449 -/
theorem inputKept_iff (opened : Bool) (now : ℤ) (passes : List Pass) :
    AllStates (fun s p => s.step env sr p) InputKept (Session.start env sr opened now) passes ↔
      AllSteps (fun s p => s.step env sr p) (InputLands env) (Session.start env sr opened now)
        passes :=
  allStates_iff_allSteps (fun s p => s.step env sr p) Sound InputKept (InputLands env)
    (fun _ h => h.kept)
    (fun s p h hlands => step_sound env sr s p h hlands)
    (fun s p h hlost => not_kept_of_not_lands env sr s p h hlost)
    (Session.start env sr opened now) (sound_start env sr opened now) passes

/-! ## A gap -/

def responsePayload : Bytes :=
  lit "\x7b\"ClientVersion\":\"1.0\",\"ProcessedClientActions\":" ++
    lit "[\x7b\"ActionType\":\"SessionType\",\"ActionStatus\":\"Success\"\x7d]\x7d"

/-- The digests of the two payloads below. -/
def exampleSha256 (payload : Bytes) : Vector UInt8 32 :=
  if payload = responsePayload then
    #v[0x58, 0x65, 0x73, 0x2A, 0x0C, 0xFF, 0xD5, 0x73, 0x00, 0x9A, 0xC6, 0x8E, 0x9A, 0xED, 0xF0, 0xB1,
      0x63, 0x7B, 0xB1, 0x13, 0x35, 0x00, 0xF9, 0xEF, 0xCA, 0xF1, 0x91, 0xE9, 0xAE, 0xF4, 0x89, 0xF4]
  else
    #v[0x3E, 0x23, 0xE8, 0x16, 0x00, 0x39, 0x59, 0x4A, 0x33, 0x89, 0x4F, 0x65, 0x64, 0xE1, 0xB1, 0x34,
      0x8B, 0xBD, 0x7A, 0x00, 0x88, 0xD4, 0x2C, 0x4A, 0xCB, 0x73, 0xEE, 0xAE, 0xD5, 0x9C, 0x00, 0x9D]

def exampleEnv : Env :=
  { strtod := fun _ => (.finite 0, 0)
    sha256Raw := exampleSha256
    agentVersion := lit "3.0"
    createdMs := fun _ => 0
    bufferedMs := fun _ => 0
    uuid := fun _ => lit "00000000-0000-4000-8000-000000000000"
    sendOk := fun _ => true }

def exampleRequest : StartRequest := ⟨lit "s-1", lit "Standard_Stream", false, [], []⟩

/-- An input message of a client. -/
def inputMessage (sequence : Int64) (payloadType : UInt32) (payload : Bytes) : AgentMessage :=
  { messageType := kMsgInputStreamData
    schemaVersion := 1
    createdMs := 0
    sequence
    flags := 0
    messageId := lit "00000000-0000-4000-8000-000000000001"
    payloadType
    payload }

def handshakeResponse : AgentMessage := inputMessage 0 kPayloadHandshakeResponse responsePayload

/-- The second keystroke of the client; the first one, with sequence number 1, is late. -/
def secondKey : AgentMessage := inputMessage 2 kPayloadOutput (lit "b")

/-- A pass that meets nothing but one message. -/
def receiving (m : AgentMessage) : Pass :=
  { stop := false
    now := 0
    pumpMs := 0
    reads := [.again]
    recv := .frame ⟨WebSocket.kOpBinary, serialize exampleSha256 m⟩
    activity := 0
    spawnError := none
    writes := []
    exitStatus := none }

/-- The keystroke that overtakes another is acknowledged and dropped. -/
theorem gap_not_kept :
    ¬AllStates (fun s p => s.step exampleEnv exampleRequest p) InputKept
      (Session.start exampleEnv exampleRequest true 0)
      [receiving handshakeResponse, receiving secondKey] := by
  rw [allStates_cons, allStates_cons, allStates_nil]
  rintro ⟨-, -, hkept⟩
  let opened := Session.start exampleEnv exampleRequest true 0
  let running := opened.step exampleEnv exampleRequest (receiving handshakeResponse)
  have hlands : InputLands exampleEnv opened (receiving handshakeResponse) := by
    have hhandles : handles exampleEnv opened (receiving handshakeResponse) =
        some handshakeResponse := by decide +kernel
    intro m hm _
    rw [hhandles] at hm
    cases hm
    refine ⟨fun _ => ⟨rfl, by decide +kernel⟩, ?_⟩
    intro hmain
    have hphase : opened.phase = .handshake := by decide +kernel
    rw [hphase] at hmain
    cases hmain
  have hsound : Sound running :=
    step_sound exampleEnv exampleRequest opened _ (sound_start _ _ _ _) hlands
  have hlost : ¬InputLands exampleEnv running (receiving secondKey) := by
    intro hlands'
    obtain ⟨hhandles, hmain, hexpected⟩ :
        handles exampleEnv running (receiving secondKey) = some secondKey ∧
          running.phase = .main ∧ running.nextExpected = 1 := by decide +kernel
    have hle := ((hlands' secondKey hhandles rfl).2 hmain).2
    rw [hexpected] at hle
    exact absurd hle (by decide)
  exact not_kept_of_not_lands exampleEnv exampleRequest running _ hsound hlost hkept

end HaikuAgent.Analysis.AckedInput
