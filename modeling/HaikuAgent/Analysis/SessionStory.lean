import HaikuAgent.Analysis.OutputDelivery

/-!
# The story of a session

What a session does from its start to its end, as a grammar over its log: it opens, listens, may
start the one shell, bridges, and says goodbye (`Story`). The log of every run is a story
(`session_story`), and the phase says how far it has come. A frame that is sent again is that of an
earlier message of the log (`Repeats`).
-/

set_option autoImplicit false

namespace HaikuAgent.Analysis.SessionStory

open HaikuAgent.Foundation
open HaikuAgent.Model
open HaikuAgent.Model.Json
open HaikuAgent.Model.Mgs
open HaikuAgent.Model.Sessions
open HaikuAgent.Analysis.SessionMoves
open HaikuAgent.Analysis.OutputDelivery

/-! ## The grammar -/

/-- While it listens, a session acknowledges and sends again. -/
def Heard : Action → Prop
  | .acknowledge _ => True
  | .control m => m.messageType = kMsgAcknowledge
  | .resend _ => True
  | _ => False

/-- While the shell runs, it also takes input and sends output. -/
def Bridged : Action → Prop
  | .stream m => m.messageType = kMsgOutputStreamData ∧ m.payloadType = kPayloadOutput
  | .accept _ => True
  | .resize _ _ => True
  | .write _ => True
  | a => Heard a

/-- The payload that reports a state of the session. -/
def statePayload (sr : StartRequest) (state : String) : Bytes :=
  dump (objOf
    [(lit "SchemaVersion", intNumber 1), (lit "SessionState", .string (lit state)),
     (lit "SessionId", .string sr.sessionId)])

/-- What `run_session` sends before its loops. -/
def opening (env : Env) (sr : StartRequest) : List Action :=
  [.control (env.message 0 kMsgAgentSessionState 0 3 0 (statePayload sr "Connected")),
   .stream (env.message 1 kMsgOutputStreamData 0 1 kPayloadHandshakeRequest
     (buildHandshakeRequest env.agentVersion sr.sessionType (.obj [])))]

/-- The client's response is taken, and the shell started. -/
def Starts (env : Env) (sr : StartRequest) (actions : List Action) : Prop :=
  ∃ m complete : AgentMessage, m.messageType = kMsgInputStreamData ∧ m.payloadType = kPayloadHandshakeResponse ∧
    (handshakeResponseOk env.strtod m.payload).toBool = true ∧
    complete.payloadType = kPayloadHandshakeComplete ∧ complete.payload = handshakeComplete ∧
    actions = [.accept m, .stream complete, .spawn sr.shellCommands sr.runAsEnabled sr.runAsUser]

/-- The exit code is sent, and that the session terminates. -/
def SaysGoodbye (sr : StartRequest) (actions : List Action) : Prop :=
  ∃ exit state : AgentMessage, ∃ status : ℤ, exit.payloadType = kPayloadExitCode ∧ exit.payload = toStringInt status ∧
    state.messageType = kMsgAgentSessionState ∧ state.payload = statePayload sr "Terminating" ∧
    actions = [.stream exit, .control state]

/-- The logs a session can have, and the phases it can have them in. -/
inductive Story (env : Env) (sr : StartRequest) : List Action → Phase → Prop
  /-- the data channel did not open -/
  | unopened : Story env sr [] .ended
  /-- no response of the client was accepted -/
  | waiting (heard : List Action) (phase : Phase) (hheard : ∀ a ∈ heard, Heard a) (hphase : phase ≠ .main) :
      Story env sr (opening env sr ++ heard) phase
  | unspawned (heard start : List Action) (error : AgentMessage) (hheard : ∀ a ∈ heard, Heard a)
      (hstart : Starts env sr start) (herror : error.payloadType = kPayloadStdErr) :
      Story env sr (opening env sr ++ heard ++ start ++ [.stream error]) .ended
  | bridging (heard start bridged : List Action) (phase : Phase) (hheard : ∀ a ∈ heard, Heard a)
      (hstart : Starts env sr start) (hbridged : ∀ a ∈ bridged, Bridged a) (hwaits : phase ≠ .handshake)
      (hends : phase ≠ .ended) : Story env sr (opening env sr ++ heard ++ start ++ bridged) phase
  | finished (heard start bridged goodbye : List Action) (hheard : ∀ a ∈ heard, Heard a) (hstart : Starts env sr start)
      (hbridged : ∀ a ∈ bridged, Bridged a) (hgoodbye : SaysGoodbye sr goodbye) :
      Story env sr (opening env sr ++ heard ++ start ++ bridged ++ goodbye) .ended

/-- Every frame that is sent again is that of a stream message before it. -/
def Repeats (env : Env) (log : List Action) : Prop :=
  ∀ before frame later, log = before ++ .resend frame :: later →
    ∃ m, .stream m ∈ before ∧ frame = serialize env.sha256Raw m

section Story

variable {env : Env} {sr : StartRequest} {log : List Action} {phase : Phase}

/-- In the handshake the log is the opening and what was heard since. -/
theorem Story.of_handshake (h : Story env sr log phase) (hphase : phase = .handshake) :
    ∃ heard, (∀ a ∈ heard, Heard a) ∧ log = opening env sr ++ heard := by
  cases h with
  | unopened => cases hphase
  | waiting heard phase hheard => exact ⟨heard, hheard, rfl⟩
  | unspawned => cases hphase
  | bridging _ _ _ _ _ _ _ hwaits => exact absurd hphase hwaits
  | finished => cases hphase

/-- In the main loop the log goes on with the start of the shell and what was bridged. -/
theorem Story.of_main (h : Story env sr log phase) (hphase : phase = .main) :
    ∃ heard start bridged, (∀ a ∈ heard, Heard a) ∧ Starts env sr start ∧ (∀ a ∈ bridged, Bridged a) ∧
      log = opening env sr ++ heard ++ start ++ bridged := by
  cases h with
  | unopened => cases hphase
  | waiting _ _ _ hwaits => exact absurd hphase hwaits
  | unspawned => cases hphase
  | bridging heard start bridged _ hheard hstart hbridged =>
    exact ⟨heard, start, bridged, hheard, hstart, hbridged, rfl⟩
  | finished => cases hphase

end Story

/-! ## What acts add to the log -/

/-- The log of `t` goes on from that of `s` with what is `Q`. -/
def Adds (Q : Action → Prop) (s t : Session) : Prop := ∃ added, (∀ a ∈ added, Q a) ∧ t.log = s.log ++ added

/-- An unchanged log adds nothing. -/
theorem Adds.none {Q : Action → Prop} {s t : Session} (h : t.log = s.log) : Adds Q s t :=
  ⟨[], fun _ ha => absurd ha List.not_mem_nil, h.trans (List.append_nil _).symm⟩

/-- One entry added to the log. -/
theorem Adds.one {Q : Action → Prop} {s t : Session} {a : Action} (ha : Q a) (h : t.log = s.log ++ [a]) : Adds Q s t :=
  ⟨[a], fun _ hb => List.mem_singleton.mp hb ▸ ha, h⟩

/-- What is added in two parts is added. -/
theorem Adds.trans {Q : Action → Prop} {s t u : Session} (h : Adds Q s t) (h' : Adds Q t u) : Adds Q s u := by
  obtain ⟨l, hl, ht⟩ := h
  obtain ⟨l', hl', hu⟩ := h'
  refine ⟨l ++ l', ?_, ?_⟩
  · intro a ha
    obtain ha | ha := List.mem_append.mp ha
    · exact hl a ha
    · exact hl' a ha
  · rw [hu, ht, List.append_assoc]

/-- A resend adds resends only. -/
theorem adds_pump {Q : Action → Prop} (hresend : ∀ frame, Q (.resend frame)) (s : Session) (nowMs : ℤ) :
    Adds Q s (s.pumpOutbox nowMs).2 := by
  unfold Session.pumpOutbox
  split
  split_ifs
  · exact Adds.none rfl
  · split
    · exact Adds.one (hresend _) rfl
    · exact Adds.none rfl

variable (env : Env) (sr : StartRequest)

/-- Listening adds what is heard. -/
theorem adds_of_listens (s : Session) (act : Act) (h : Listens act) : Adds Heard s (perform env s act) := by
  cases act with
  | stream payloadType data => exact h.elim
  | control messageType payload => exact Adds.one (a := .control (env.message s.sends messageType 0 3 0 payload)) h rfl
  | pump nowMs => exact adds_pump (fun _ => trivial) s nowMs
  | release seq => exact Adds.none rfl
  | note a =>
    obtain ⟨m, rfl⟩ := h
    exact Adds.one (a := .acknowledge m) trivial rfl
  | locals phase handshakeSeq nextExpected lastClientActivity => exact h.elim

/-- Bridging adds what is bridged. -/
theorem adds_of_bridges (s : Session) (act : Act) (h : Bridges act) : Adds Bridged s (perform env s act) := by
  cases act with
  | stream payloadType data =>
    have hsent : Bridged (.stream (env.message s.sends kMsgOutputStreamData s.outSeq (if s.outSeq = 0 then 1 else 0)
      payloadType data)) := ⟨rfl, h⟩
    exact Adds.one hsent rfl
  | control messageType payload => exact Adds.one (a := .control (env.message s.sends messageType 0 3 0 payload)) h rfl
  | pump nowMs => exact adds_pump (fun _ => trivial) s nowMs
  | release seq => exact Adds.none rfl
  | note a =>
    obtain ⟨m, rfl⟩ | ⟨m, rfl⟩ | ⟨cols, rows, rfl⟩ | ⟨bytes, rfl⟩ := h
    · exact Adds.one (a := .acknowledge m) trivial rfl
    · exact Adds.one (a := .accept m) trivial rfl
    · exact Adds.one (a := .resize cols rows) trivial rfl
    · exact Adds.one (a := .write bytes) trivial rfl
  | locals phase handshakeSeq nextExpected lastClientActivity => exact Adds.none rfl

/-- Moves of one kind add entries of one kind, by induction on the moves. -/
theorem adds_does {P : Act → Prop} {Q : Action → Prop} {s t : Session} {output : List Bytes}
    (h : Does env P s output t) (hadds : ∀ s act, P act → Adds Q s (perform env s act)) : Adds Q s t :=
  h.invariant (I := fun u => Adds Q s u) (fun u act hact hu => hu.trans (hadds u act hact)) (Adds.none rfl)

/-! ## Runs -/

/-- A session begins with its opening. -/
theorem start_story (opened : Bool) (now : ℤ) :
    Story env sr (Session.start env sr opened now).log (Session.start env sr opened now).phase := by
  have hnone : ∀ a ∈ ([] : List Action), Heard a := fun a ha => absurd ha List.not_mem_nil
  unfold Session.start
  cases opened with
  | false => exact .unopened
  | true =>
    have hopening : opening env sr ++ [] = opening env sr := List.append_nil _
    simp only [Bool.not_true, Bool.false_eq_true, if_false, Session.sendStream]
    cases env.sendOk (Session.init.sendControl env kMsgAgentSessionState _).sends with
    | false =>
      have hwaiting : Story env sr (opening env sr ++ []) .ended := .waiting [] .ended hnone (by decide)
      rw [hopening] at hwaiting
      exact hwaiting
    | true =>
      have hwaiting : Story env sr (opening env sr ++ []) .handshake := .waiting [] .handshake hnone (by decide)
      rw [hopening] at hwaiting
      exact hwaiting

/-- What is logged when the shell is started. -/
theorem startShell_log (s : Session) (p : Pass) :
    ∃ complete : AgentMessage, complete.payloadType = kPayloadHandshakeComplete ∧ complete.payload = handshakeComplete ∧
      ((s.startShell env sr p).phase = .main ∧ (s.startShell env sr p).log =
          s.log ++ [.stream complete, .spawn sr.shellCommands sr.runAsEnabled sr.runAsUser] ∨
        (s.startShell env sr p).phase = .ended ∧ ∃ error : AgentMessage, error.payloadType = kPayloadStdErr ∧
          (s.startShell env sr p).log =
            s.log ++ [.stream complete, .spawn sr.shellCommands sr.runAsEnabled sr.runAsUser] ++ [.stream error]) := by
  refine ⟨env.message s.sends kMsgOutputStreamData s.outSeq (if s.outSeq = 0 then 1 else 0) kPayloadHandshakeComplete
    handshakeComplete, rfl, rfl, ?_⟩
  unfold Session.startShell
  generalize handshakeComplete = complete
  cases p.spawnError with
  | none => exact .inl ⟨rfl, List.append_assoc _ _ _⟩
  | some err =>
    have herror := List.append_assoc s.log
      [.stream (env.message s.sends kMsgOutputStreamData s.outSeq (if s.outSeq = 0 then 1 else 0)
        kPayloadHandshakeComplete complete)] [.spawn sr.shellCommands sr.runAsEnabled sr.runAsUser]
    exact .inr ⟨rfl, env.message (s.sends + 1) kMsgOutputStreamData (s.outSeq + 1) (if s.outSeq + 1 = 0 then 1 else 0)
      kPayloadStdErr (lit "Failed to start shell: " ++ err ++ lit "\r\n"), rfl, congrArg (· ++ [_]) herror⟩

/-- A session ends with its goodbye. -/
theorem teardown_log (s : Session) (p : Pass) :
    (s.teardown env sr p).phase = .ended ∧
      ∃ goodbye, SaysGoodbye sr goodbye ∧ (s.teardown env sr p).log = s.log ++ goodbye := by
  refine ⟨rfl, _, ⟨_, _, p.exitStatus.getD 1, ?_, ?_, ?_, ?_, rfl⟩, List.append_assoc _ _ _⟩
  all_goals rfl

/-- **The step**: a pass goes on with the story. -/
theorem step_story (s : Session) (p : Pass) (h : Story env sr s.log s.phase) :
    Story env sr (s.step env sr p).log (s.step env sr p).phase := by
  cases hphase : s.phase with
  | handshake =>
    obtain ⟨heard, hheard, hlog⟩ := h.of_handshake hphase
    rw [Session.step, hphase]
    obtain ⟨t, hdoes, hcases⟩ := handshakePass_moves env sr s p
    obtain ⟨more, hmore, ht⟩ := adds_does env hdoes (adds_of_listens env)
    have htphase := (listens_phase env hdoes).trans hphase
    have hall : ∀ a ∈ heard ++ more, Heard a := by
      intro a ha
      obtain ha | ha := List.mem_append.mp ha
      · exact hheard a ha
      · exact hmore a ha
    rw [hlog, List.append_assoc] at ht
    obtain hgoes | ⟨phase, -, hphase', hleaves⟩ | ⟨m, htype, hpayload, hok, hstarts⟩ := hcases
    · rw [hgoes, ht, htphase]
      exact .waiting _ _ hall (by decide)
    · rw [hleaves]
      dsimp only
      rw [ht]
      exact .waiting _ _ hall hphase'
    · rw [hstarts]
      obtain ⟨complete, hcomplete, hsent, hshell⟩ := startShell_log env sr (responded t m) p
      have hstart : Starts env sr
          [.accept m, .stream complete, .spawn sr.shellCommands sr.runAsEnabled sr.runAsUser] :=
        ⟨m, complete, htype, hpayload, hok, hcomplete, hsent, rfl⟩
      have hresponded : (responded t m).log = opening env sr ++ (heard ++ more) ++ [.accept m] :=
        congrArg (· ++ [_]) ht
      rw [hresponded, List.append_assoc _ [_]] at hshell
      obtain ⟨hmain, hrun⟩ | ⟨hended, error, herror, hrun⟩ := hshell
      · rw [hmain, hrun, ← List.append_nil (_ ++ _ ++ _)]
        exact .bridging _ _ [] _ hall hstart (fun a ha => absurd ha List.not_mem_nil) (by decide) (by decide)
      · rw [hended, hrun]
        exact .unspawned _ _ error hall hstart herror
  | main =>
    obtain ⟨heard, start, bridged, hheard, hstart, hbridged, hlog⟩ := h.of_main hphase
    rw [Session.step, hphase]
    obtain ⟨t, hdoes, hleaves⟩ := mainPass_moves env sr s p hphase
    obtain ⟨more, hmore, ht⟩ := adds_does env hdoes (adds_of_bridges env)
    have htphase := bridges_phase env hdoes hphase
    have hall : ∀ a ∈ bridged ++ more, Bridged a := by
      intro a ha
      obtain ha | ha := List.mem_append.mp ha
      · exact hbridged a ha
      · exact hmore a ha
    rw [hlog, List.append_assoc _ bridged] at ht
    obtain heq | heq | ⟨phase, hhandshake, -, hended, heq⟩ := hleaves
    · rw [heq, ht, htphase]
      exact .bridging _ _ _ _ hheard hstart hall (by decide) (by decide)
    · obtain ⟨hended, goodbye, hgoodbye, htorn⟩ := teardown_log env sr t p
      rw [heq, hended, htorn, ht]
      exact .finished _ _ _ _ hheard hstart hall hgoodbye
    · rw [heq]
      dsimp only
      rw [ht]
      exact .bridging _ _ _ _ hheard hstart hall hhandshake hended
  | ended =>
    have hsame : s.step env sr p = s := by rw [Session.step, hphase]
    rw [hsame]
    exact h
  | stuck =>
    have hsame : s.step env sr p = s := by rw [Session.step, hphase]
    rw [hsame]
    exact h
  | thrown =>
    have hsame : s.step env sr p = s := by rw [Session.step, hphase]
    rw [hsame]
    exact h

/-! ## What is sent again -/

/-- One more entry keeps every resend a repetition, when it is no resend or repeats a message of the log. -/
theorem Repeats.concat {log : List Action} (h : Repeats env log) {a : Action}
    (ha : ∀ frame, a = .resend frame → ∃ m, .stream m ∈ log ∧ frame = serialize env.sha256Raw m) :
    Repeats env (log ++ [a]) := by
  intro before frame later hlog
  obtain rfl | ⟨later, last, rfl⟩ := List.eq_nil_or_concat later
  · obtain ⟨rfl, hlast⟩ := List.append_inj' hlog rfl
    exact ha frame (List.cons.inj hlast).1
  · rw [List.concat_eq_append, ← List.cons_append, ← List.append_assoc] at hlog
    exact h before frame later (List.append_inj' hlog rfl).1

/-- A stream message that was sent is in the log. -/
theorem mem_log_of_streams {s : Session} {m : AgentMessage} (h : m ∈ streams s) : .stream m ∈ s.log := by
  obtain ⟨a, ha, hstreamed⟩ := List.mem_filterMap.mp h
  cases a with
  | stream m' =>
    cases hstreamed
    exact ha
  | _ => cases hstreamed

/-- What is pumped out of the outbox was put there for a stream message. -/
theorem repeats_pump {s : Session} (hnumbered : Numbered env s) (h : Repeats env s.log) (nowMs : ℤ) :
    Repeats env (s.pumpOutbox nowMs).2.log := by
  obtain ⟨hresent, -⟩ := dueResend_frames s.outbox nowMs
  unfold Session.pumpOutbox
  generalize s.outbox.dueResend nowMs = result at hresent ⊢
  obtain ⟨due, dead, outbox⟩ := result
  dsimp only at hresent ⊢
  split_ifs
  · exact h
  cases due with
  | none => exact h
  | some due =>
    refine h.concat env ?_
    intro frame hframe
    cases hframe
    obtain ⟨e, he, rfl⟩ := hresent due rfl
    obtain ⟨m, hm, hframe⟩ := hnumbered.buffered e he
    exact ⟨m, mem_log_of_streams hm, hframe⟩

/-- Every act keeps it so. -/
theorem repeats_perform {s : Session} {act : Act} (hact : Works act) (hnumbered : Numbered env s) (h : Repeats env s.log) :
    Repeats env (perform env s act).log := by
  cases act with
  | stream payloadType data => exact h.concat env fun frame hframe => by cases hframe
  | control messageType payload => exact h.concat env fun frame hframe => by cases hframe
  | pump nowMs => exact repeats_pump env hnumbered h nowMs
  | release seq => exact h
  | note a =>
    refine h.concat env ?_
    obtain ⟨m, rfl⟩ | ⟨m, rfl⟩ | ⟨cols, rows, rfl⟩ | ⟨bytes, rfl⟩ | ⟨commands, runAs, user, rfl⟩ := hact
    all_goals exact fun frame hframe => by cases hframe
  | locals phase handshakeSeq nextExpected lastClientActivity => exact h

/-- No run sends again what it has not sent. -/
theorem repeats_after (opened : Bool) (now : ℤ) (passes : List Pass) :
    Repeats env (after env sr opened now passes).log := by
  obtain ⟨deadline, hdoes⟩ := after_does env sr opened now passes
  have hstart : Numbered env { Session.init with hsDeadline := deadline } := numbered_does (.refl _)
  refine (hdoes.invariant (I := fun s => Numbered env s ∧ Repeats env s.log) ?_ ⟨hstart, ?_⟩).2
  · exact fun s act hact hs => ⟨hs.1.perform hact, repeats_perform env hact hs.1 hs.2⟩
  · intro before frame later hlog
    exact absurd hlog.symm (List.append_ne_nil_of_right_ne_nil _ (List.cons_ne_nil _ _))

/-- **Every session is a story**: over any passes it opens, listens, starts at most one shell and
that only after a response it accepted, and then reports that this failed, or bridges and says goodbye
when it ends after that. It sends nothing again that it has not sent before.
SRC: session.cpp:49-114, 200-467 -/
theorem session_story (opened : Bool) (now : ℤ) (passes : List Pass) :
    let s := runFrom (Session.step env sr) (Session.start env sr opened now) passes
    Story env sr s.log s.phase ∧ Repeats env s.log :=
  ⟨runFrom_invariant (Session.step env sr) (fun s => Story env sr s.log s.phase)
    (fun s p hs => step_story env sr s p hs) _ (start_story env sr opened now) passes,
   repeats_after env sr opened now passes⟩

end HaikuAgent.Analysis.SessionStory
