import HaikuAgent.Foundation.Runs
import HaikuAgent.Model.Sessions

/-!
# What a pass of a session consists of

A pass does one small thing after the other: an `Act`. `Does` says that a session comes from
another one by acts of a kind, with the output of the shell that they send. Before the shell runs
a pass listens, and may start it (`handshakePass_moves`); then it bridges, and may end the session
(`mainPass_moves`). What every act preserves is so preserved by every pass.
-/

set_option autoImplicit false

namespace HaikuAgent.Analysis.SessionMoves

open HaikuAgent.Foundation
open HaikuAgent.Model
open HaikuAgent.Model.Json
open HaikuAgent.Model.Mgs
open HaikuAgent.Model.Sessions

/-- What a session does in one go. -/
inductive Act where
  /-- a message of stream data is sent and buffered -/
  | stream (payloadType : UInt32) (data : Bytes)
  | control (messageType payload : Bytes)
  | pump (nowMs : ℤ)
  /-- buffered frames are dropped -/
  | release (seq : ℤ)
  /-- something that sends nothing -/
  | note (a : Action)
  /-- the locals that are not about what is sent -/
  | locals (phase : Phase) (handshakeSeq nextExpected lastClientActivity : ℤ)

def perform (env : Env) (s : Session) : Act → Session
  | .stream payloadType data => (s.sendStream env payloadType data).2
  | .control messageType payload => s.sendControl env messageType payload
  | .pump nowMs => (s.pumpOutbox nowMs).2
  | .release seq => { s with outbox := s.outbox.ack seq }
  | .note a => s.record a
  | .locals phase handshakeSeq nextExpected lastClientActivity =>
    { s with phase, handshakeSeq, nextExpected, lastClientActivity }

/-- The output of the shell that an act sends. -/
def outputOf : Act → List Bytes
  | .stream payloadType data => if payloadType = kPayloadOutput then [data] else []
  | _ => []

/-- `t` comes from `s` by acts that are all `P`, and which send this output. -/
def Does (env : Env) (P : Act → Prop) (s : Session) (output : List Bytes) (t : Session) : Prop :=
  ∃ acts, (∀ act ∈ acts, P act) ∧ acts.flatMap outputOf = output ∧ t = runFrom (perform env) s acts

section Does

variable {env : Env} {P Q : Act → Prop} {s t u : Session} {output output' : List Bytes}

/-- Doing nothing is no move and gives no output. -/
theorem Does.refl (s : Session) : Does env P s [] s := ⟨[], fun _ h => absurd h List.not_mem_nil, rfl, rfl⟩

/-- One move gives its own output. -/
theorem Does.one (s : Session) {a : Act} (h : P a) : Does env P s (outputOf a) (perform env s a) :=
  ⟨[a], fun _ ha => List.mem_singleton.mp ha ▸ h, List.append_nil _, rfl⟩

/-- Moves in two parts give their outputs in order. -/
theorem Does.trans (h : Does env P s output t) (h' : Does env P t output' u) : Does env P s (output ++ output') u := by
  obtain ⟨acts, hacts, rfl, rfl⟩ := h
  obtain ⟨more, hmore, rfl, rfl⟩ := h'
  refine ⟨acts ++ more, ?_, List.flatMap_append, (runFrom_append _ _ _ _).symm⟩
  intro act hact
  obtain hact | hact := List.mem_append.mp hact
  · exact hacts act hact
  · exact hmore act hact

/-- Acts that send no output of the shell. -/
theorem Does.step (h : Does env P s output t) {a : Act} (ha : P a) (hquiet : outputOf a = []) :
    Does env P s output (perform env t a) := by
  have hstep := h.trans (Does.one t ha)
  rw [hquiet, List.append_nil] at hstep
  exact hstep

/-- Moves of one kind are moves of a wider kind. -/
theorem Does.mono (h : Does env P s output t) (hPQ : ∀ act, P act → Q act) : Does env Q s output t := by
  obtain ⟨acts, hacts, houtput, ht⟩ := h
  exact ⟨acts, fun act hact => hPQ act (hacts act hact), houtput, ht⟩

/-- **The invariant rule**: what every act preserves. -/
theorem Does.invariant {I : Session → Prop} (h : Does env P s output t)
    (hstep : ∀ s act, P act → I s → I (perform env s act)) (hs : I s) : I t := by
  obtain ⟨acts, hacts, -, rfl⟩ := h
  induction acts generalizing s with
  | nil => exact hs
  | cons act acts ih =>
    exact ih (hstep s act (hacts act List.mem_cons_self) hs) fun a ha => hacts a (List.mem_cons_of_mem _ ha)

end Does

/-! ## The kinds of acts -/

/-- What concerns no shell. -/
def Listens : Act → Prop
  | .stream _ _ => False
  | .control messageType _ => messageType = kMsgAcknowledge
  | .pump _ => True
  | .release _ => True
  | .note a => ∃ m, a = .acknowledge m
  | .locals _ _ _ _ => False

/-- What concerns a shell that runs. -/
def Bridges : Act → Prop
  | .stream payloadType _ => payloadType = kPayloadOutput
  | .locals phase _ _ _ => phase = .main
  | .note a => (∃ m, a = .acknowledge m) ∨ (∃ m, a = .accept m) ∨ (∃ cols rows, a = .resize cols rows) ∨
      ∃ bytes, a = .write bytes
  | act => Listens act

/-- Whatever a waiting session does, a bridging one may do. -/
theorem bridges_of_listens (act : Act) (h : Listens act) : Bridges act := by
  cases act with
  | stream payloadType data => exact h.elim
  | note a => exact .inl h
  | control messageType payload => exact h
  | pump nowMs => exact h
  | release seq => exact h
  | locals phase handshakeSeq nextExpected lastClientActivity => exact h.elim

variable (env : Env) (sr : StartRequest)

/-- Only a few locals change. -/
theorem does_locals {P : Act → Prop} (s : Session) (phase : Phase) (handshakeSeq nextExpected lastClientActivity : ℤ)
    (h : P (.locals phase handshakeSeq nextExpected lastClientActivity)) :
    Does env P s [] { s with phase, handshakeSeq, nextExpected, lastClientActivity } := Does.one s h

/-- Sending an acknowledgement is listening. -/
theorem sendAck_does (s : Session) (m : AgentMessage) : Does env Listens s [] (s.sendAck env m) := by
  have hnote : Does env Listens s [] (s.record (.acknowledge m)) := Does.one (a := .note _) s ⟨m, rfl⟩
  exact hnote.step (a := .control kMsgAcknowledge (Session.ackPayload m)) rfl rfl

/-- Taking an acknowledgement is listening. -/
theorem handleAck_does (s : Session) (m : AgentMessage) : Does env Listens s [] (s.handleAck env m) := by
  unfold Session.handleAck
  split
  split_ifs
  · exact Does.one (a := .release _) s trivial
  · exact Does.refl s

/-- Resending from the outbox is listening. -/
theorem pump_does (s : Session) (nowMs : ℤ) : Does env Listens s [] (s.pumpOutbox nowMs).2 :=
  Does.one (a := .pump nowMs) s trivial

/-- Resending leaves the phase alone. -/
theorem pump_phase (s : Session) (nowMs : ℤ) : (s.pumpOutbox nowMs).2.phase = s.phase := by
  unfold Session.pumpOutbox
  split
  split_ifs
  · rfl
  · split
    · rfl
    · rfl

/-- Listening leaves the phase alone. -/
theorem listens_phase {s t : Session} {output : List Bytes} (h : Does env Listens s output t) : t.phase = s.phase := by
  refine h.invariant (I := fun u => u.phase = s.phase) ?_ rfl
  intro u act hact hu
  cases act with
  | stream payloadType data => exact hact.elim
  | control messageType payload => exact hu
  | pump nowMs => exact (pump_phase u nowMs).trans hu
  | release seq => exact hu
  | note a => exact hu
  | locals phase handshakeSeq nextExpected lastClientActivity => exact hact.elim

/-- Bridging stays in the main loop. -/
theorem bridges_phase {s t : Session} {output : List Bytes} (h : Does env Bridges s output t)
    (hmain : s.phase = .main) : t.phase = .main := by
  refine h.invariant (I := fun u => u.phase = .main) ?_ hmain
  intro u act hact hu
  cases act with
  | stream payloadType data => exact hu
  | control messageType payload => exact hu
  | pump nowMs => exact (pump_phase u nowMs).trans hu
  | release seq => exact hu
  | note a => exact hu
  | locals phase handshakeSeq nextExpected lastClientActivity => exact hact

/-! ## The handshake -/

/-- The session that has taken the handshake response. -/
def responded (s : Session) (m : AgentMessage) : Session := { s.record (.accept m) with handshakeSeq := m.sequence.toInt }

/-- What the handshake loop makes of a message. -/
theorem handleHandshake_moves (s : Session) (p : Pass) (m : AgentMessage) :
    ∃ t, Does env Listens s [] t ∧
      (s.handleHandshake env sr p m = t ∨ s.handleHandshake env sr p m = { t with phase := .ended } ∨
        m.messageType = kMsgInputStreamData ∧ m.payloadType = kPayloadHandshakeResponse ∧
          (handshakeResponseOk env.strtod m.payload).toBool = true ∧
          s.handleHandshake env sr p m = (responded t m).startShell env sr p) := by
  unfold Session.handleHandshake
  split_ifs with hack hresponse hclosed
  · exact ⟨_, handleAck_does env s m, .inl rfl⟩
  · refine ⟨_, sendAck_does env s m, ?_⟩
    dsimp only
    cases hok : handshakeResponseOk env.strtod m.payload with
    | error err => exact .inr (.inl rfl)
    | ok version => exact .inr (.inr ⟨hresponse.1, hresponse.2, rfl, rfl⟩)
  · exact ⟨s, Does.refl s, .inr (.inl rfl)⟩
  · exact ⟨_, sendAck_does env s m, .inl rfl⟩

/-- **A pass of the handshake loop** listens; then it goes on, or leaves `run_session`, or starts
the shell. -/
theorem handshakePass_moves (s : Session) (p : Pass) :
    ∃ t, Does env Listens s [] t ∧
      (s.handshakePass env sr p = t ∨
        (∃ phase, phase ≠ .handshake ∧ phase ≠ .main ∧ s.handshakePass env sr p = { t with phase }) ∨
        ∃ m : AgentMessage, m.messageType = kMsgInputStreamData ∧ m.payloadType = kPayloadHandshakeResponse ∧
          (handshakeResponseOk env.strtod m.payload).toBool = true ∧
          s.handshakePass env sr p = (responded t m).startShell env sr p) := by
  have hended : Phase.ended ≠ .handshake ∧ Phase.ended ≠ .main := by decide
  have hthrown : Phase.thrown ≠ .handshake ∧ Phase.thrown ≠ .main := by decide
  unfold Session.handshakePass
  split_ifs with hstop hlate
  · exact ⟨s, Does.refl s, .inr (.inl ⟨_, hended.1, hended.2, rfl⟩)⟩
  · exact ⟨s, Does.refl s, .inr (.inl ⟨_, hended.1, hended.2, rfl⟩)⟩
  have hpump := pump_does env s p.pumpMs
  generalize s.pumpOutbox p.pumpMs = pumped at hpump ⊢
  obtain ⟨alive, t⟩ := pumped
  cases alive with
  | false => exact ⟨t, hpump, .inr (.inl ⟨_, hended.1, hended.2, rfl⟩)⟩
  | true =>
    dsimp only at hpump ⊢
    cases inbound p.recv with
    | closed => exact ⟨t, hpump, .inr (.inl ⟨_, hended.1, hended.2, rfl⟩)⟩
    | nothing => exact ⟨t, hpump, .inl rfl⟩
    | thrown => exact ⟨t, hpump, .inr (.inl ⟨_, hthrown.1, hthrown.2, rfl⟩)⟩
    | message m =>
      obtain ⟨u, hdoes, hcases⟩ := handleHandshake_moves env sr t p m
      refine ⟨u, hpump.trans hdoes, ?_⟩
      obtain hgoes | hends | ⟨htype, hpayload, hok, hstarts⟩ := hcases
      · exact .inl hgoes
      · exact .inr (.inl ⟨_, hended.1, hended.2, hends⟩)
      · exact .inr (.inr ⟨m, htype, hpayload, hok, hstarts⟩)

/-! ## The shell -/

/-- The bytes of the reads up to the first that gives none. -/
def chunks : List PtyRead → List Bytes
  | .data first rest :: reads => (first :: rest) :: chunks reads
  | _ => []

/-- The drain of the terminal streams the chunks it reads. -/
theorem drain_does (s : Session) (running : Bool) (reads : List PtyRead) :
    Does env Bridges s (chunks reads) (s.drain env running reads).2 := by
  induction reads generalizing s running with
  | nil => exact Does.refl s
  | cons read reads ih =>
    cases read with
    | data first rest =>
      have hsend : Does env Bridges s [first :: rest] (s.sendStream env kPayloadOutput (first :: rest)).2 :=
        Does.one (a := .stream kPayloadOutput _) s rfl
      exact hsend.trans (ih _ _)
    | eof => exact Does.refl s
    | again => exact Does.refl s
    | failed => exact Does.refl s

/-- Writing keystrokes is bridging and gives no output. -/
theorem writeKeys_does (s : Session) (keys : Bytes) (writes : List PtyWrite) :
    Does env Bridges s [] (s.writeKeys keys writes).2 := by
  induction writes generalizing s keys with
  | nil => exact Does.refl s
  | cons w writes ih =>
    unfold Session.writeKeys
    split_ifs
    · exact Does.refl s
    · cases w with
      | count n =>
        cases n with
        | zero => exact Does.refl s
        | succ n =>
          have hnote : Does env Bridges s [] (s.record (.write (keys.take (n + 1)))) :=
            Does.one (a := .note _) s (.inr (.inr (.inr ⟨_, rfl⟩)))
          exact hnote.trans (ih _ _)
      | again => exact ih s keys
      | failed => exact Does.refl s

/-- How a pass of the main loop ends: the session goes on, is torn down, or is left as it is. -/
def Leaves (p : Pass) (t t' : Session) : Prop :=
  t' = t ∨ t' = t.teardown env sr p ∨ ∃ phase, phase ≠ .handshake ∧ phase ≠ .main ∧ phase ≠ .ended ∧ t' = { t with phase }

/-- Applying an input bridges, and then stays or leaves the main loop. -/
theorem applyInput_moves (s : Session) (p : Pass) (m : AgentMessage) :
    ∃ t, Does env Bridges s [] t ∧ Leaves env sr p t (s.applyInput env sr p m) := by
  unfold Session.applyInput
  split_ifs with hsize houtput
  · split
    dsimp only
    split_ifs
    · exact ⟨_, Does.one (a := .note _) s (.inr (.inr (.inl ⟨_, _, rfl⟩))), .inl rfl⟩
    · exact ⟨s, Does.refl s, .inl rfl⟩
  · have hwrite := writeKeys_does env s m.payload p.writes
    generalize s.writeKeys m.payload p.writes = result at hwrite ⊢
    obtain ⟨running, t⟩ := result
    refine ⟨t, hwrite, ?_⟩
    cases running with
    | none => exact .inr (.inr ⟨.stuck, by decide, by decide, by decide, rfl⟩)
    | some running =>
      cases running with
      | true => exact .inl rfl
      | false => exact .inr (.inl rfl)
  · exact ⟨s, Does.refl s, .inl rfl⟩

/-- Handling a message bridges, and then stays or leaves the main loop. -/
theorem handleMain_moves (s : Session) (p : Pass) (m : AgentMessage) (hmain : s.phase = .main) :
    ∃ t, Does env Bridges s [] t ∧ Leaves env sr p t (s.handleMain env sr p m) := by
  unfold Session.handleMain
  have hactive : Does env Bridges s [] { s with lastClientActivity := p.activity } :=
    does_locals env s s.phase s.handshakeSeq s.nextExpected p.activity hmain
  generalize ({ s with lastClientActivity := p.activity } : Session) = active at hactive ⊢
  have hanswer := hactive.trans ((sendAck_does env active m).mono bridges_of_listens)
  dsimp only
  split_ifs with hclosed hack hinput hseq
  · exact ⟨active, hactive, .inr (.inl rfl)⟩
  · exact ⟨_, hactive.trans ((handleAck_does env active m).mono bridges_of_listens), .inl rfl⟩
  · exact ⟨_, hanswer, .inl rfl⟩
  · exact ⟨_, hanswer, .inl rfl⟩
  · generalize active.sendAck env m = answered at hanswer ⊢
    have htaken : Does env Bridges s [] (answered.record (.accept m)) :=
      hanswer.step (a := .note (.accept m)) (.inr (.inl ⟨m, rfl⟩)) rfl
    have hnext := htaken.step (P := Bridges) (a := .locals (answered.record (.accept m)).phase
      (answered.record (.accept m)).handshakeSeq (answered.nextExpected + 1)
      (answered.record (.accept m)).lastClientActivity) (bridges_phase env htaken hmain) rfl
    obtain ⟨t, hdoes, hleaves⟩ :=
      applyInput_moves env sr { answered.record (.accept m) with nextExpected := answered.nextExpected + 1 } p m
    exact ⟨t, hnext.trans hdoes, hleaves⟩

/-- The pass comes to the loop that drains the pty. -/
def Drains (s : Session) (p : Pass) : Prop :=
  s.phase = .main ∧ p.stop = false ∧ (s.pumpOutbox p.pumpMs).1 = true ∧ p.now - s.lastClientActivity ≤ kIdleTimeoutSeconds

instance decidableDrains (s : Session) (p : Pass) : Decidable (Drains s p) := inferInstanceAs (Decidable (_ ∧ _))

/-- What a pass reads from the pty. -/
def shellOutput (s : Session) (p : Pass) : List Bytes := if Drains s p then chunks p.reads else []

/-- Resending does not count as activity of the client. -/
theorem pump_activity (s : Session) (nowMs : ℤ) : (s.pumpOutbox nowMs).2.lastClientActivity = s.lastClientActivity := by
  unfold Session.pumpOutbox
  split
  split_ifs
  · rfl
  · split
    · rfl
    · rfl

/-- **A pass of the main loop** bridges what it reads, and then goes on, tears the session down, or
does not come to its end. -/
theorem mainPass_moves (s : Session) (p : Pass) (hmain : s.phase = .main) :
    ∃ t, Does env Bridges s (shellOutput s p) t ∧ Leaves env sr p t (s.mainPass env sr p) := by
  unfold Session.mainPass
  by_cases hstop : p.stop = true
  · have hnone : shellOutput s p = [] := if_neg fun h => absurd (hstop.symm.trans h.2.1) (by decide)
    rw [if_pos hstop, hnone]
    exact ⟨s, Does.refl s, .inr (.inl rfl)⟩
  rw [if_neg hstop]
  have hpump := (pump_does env s p.pumpMs).mono bridges_of_listens
  have hactivity := pump_activity s p.pumpMs
  have hdrains : Drains s p ↔
      (s.pumpOutbox p.pumpMs).1 = true ∧ p.now - s.lastClientActivity ≤ kIdleTimeoutSeconds :=
    ⟨fun h => h.2.2, fun h => ⟨hmain, Bool.eq_false_iff.mpr hstop, h⟩⟩
  unfold shellOutput
  generalize s.pumpOutbox p.pumpMs = pumped at hpump hactivity hdrains ⊢
  obtain ⟨alive, t⟩ := pumped
  cases alive with
  | false =>
    rw [if_neg fun h => Bool.false_ne_true (hdrains.mp h).1]
    exact ⟨t, hpump, .inr (.inl rfl)⟩
  | true =>
    dsimp only at hpump hactivity hdrains ⊢
    rw [hactivity]
    by_cases hidle : kIdleTimeoutSeconds < p.now - s.lastClientActivity
    · rw [if_pos hidle, if_neg fun h => absurd hidle (not_lt.mpr (hdrains.mp h).2)]
      exact ⟨t, hpump, .inr (.inl rfl)⟩
    · rw [if_neg hidle, if_pos (hdrains.mpr ⟨rfl, not_lt.mp hidle⟩)]
      have hdrain := hpump.trans (drain_does env t true p.reads)
      rw [List.nil_append] at hdrain
      generalize t.drain env true p.reads = drained at hdrain ⊢
      obtain ⟨running, u⟩ := drained
      dsimp only at hdrain ⊢
      cases running with
      | none => exact ⟨u, hdrain, .inr (.inr ⟨.stuck, by decide, by decide, by decide, rfl⟩)⟩
      | some running =>
        cases running with
        | false => exact ⟨u, hdrain, .inr (.inl rfl)⟩
        | true =>
          dsimp only
          cases inbound p.recv with
          | closed => exact ⟨u, hdrain, .inr (.inl rfl)⟩
          | nothing => exact ⟨u, hdrain, .inl rfl⟩
          | thrown => exact ⟨u, hdrain, .inr (.inr ⟨.thrown, by decide, by decide, by decide, rfl⟩)⟩
          | message m =>
            obtain ⟨v, hdoes, hleaves⟩ := handleMain_moves env sr u p m (bridges_phase env hdrain hmain)
            have hall := hdrain.trans hdoes
            rw [List.append_nil] at hall
            exact ⟨v, hall, hleaves⟩

/-! ## All of a session -/

/-- What any pass does: it sends control messages of two types, and notes what sends nothing. -/
def Works : Act → Prop
  | .control messageType _ => messageType = kMsgAcknowledge ∨ messageType = kMsgAgentSessionState
  | .note a => (∃ m, a = .acknowledge m) ∨ (∃ m, a = .accept m) ∨ (∃ cols rows, a = .resize cols rows) ∨
      (∃ bytes, a = .write bytes) ∨ ∃ commands runAs user, a = .spawn commands runAs user
  | _ => True

/-- Bridging is among the works of a session. -/
theorem works_of_bridges (act : Act) (h : Bridges act) : Works act := by
  cases act with
  | stream payloadType data => trivial
  | control messageType payload => exact .inl h
  | pump nowMs => trivial
  | release seq => trivial
  | note a =>
    obtain h | h | h | h := h
    · exact .inl h
    · exact .inr (.inl h)
    · exact .inr (.inr (.inl h))
    · exact .inr (.inr (.inr (.inl h)))
  | locals phase handshakeSeq nextExpected lastClientActivity => trivial

/-- Listening is among the works of a session. -/
theorem works_of_listens (act : Act) (h : Listens act) : Works act := works_of_bridges act (bridges_of_listens act h)

/-- Leaving `run_session`, or staying in it. -/
theorem setPhase_does (s : Session) (phase : Phase) : Does env Works s [] { s with phase } :=
  does_locals env s phase s.handshakeSeq s.nextExpected s.lastClientActivity trivial

/-- A stream message that is not output adds none. -/
theorem quiet_stream_does (s : Session) (payloadType : UInt32) (data : Bytes) (h : payloadType ≠ kPayloadOutput) :
    Does env Works s [] (s.sendStream env payloadType data).2 := by
  have hsend : Does env Works s (outputOf (.stream payloadType data)) (s.sendStream env payloadType data).2 :=
    Does.one s trivial
  rw [outputOf, if_neg h] at hsend
  exact hsend

/-- The end of a session adds no output. -/
theorem teardown_does (s : Session) (p : Pass) : Does env Works s [] (s.teardown env sr p) := by
  unfold Session.teardown
  dsimp only
  generalize toStringInt _ = code
  generalize dump _ = state
  have hcode := quiet_stream_does env s kPayloadExitCode code (by decide)
  have hstate := hcode.step (a := .control kMsgAgentSessionState state) (.inr rfl) rfl
  exact hstate.trans (setPhase_does env _ .ended)

/-- Starting the shell adds no output. -/
theorem startShell_does (s : Session) (p : Pass) : Does env Works s [] (s.startShell env sr p) := by
  unfold Session.startShell
  generalize handshakeComplete = complete
  have hcomplete := quiet_stream_does env s kPayloadHandshakeComplete complete (by decide)
  have hspawn := hcomplete.step (a := .note (.spawn sr.shellCommands sr.runAsEnabled sr.runAsUser))
    (.inr (.inr (.inr (.inr ⟨_, _, _, rfl⟩)))) rfl
  dsimp only
  cases p.spawnError with
  | none => exact hspawn.step (a := .locals .main _ _ p.activity) trivial rfl
  | some err =>
    have herror := hspawn.trans (quiet_stream_does env _ kPayloadStdErr
      (lit "Failed to start shell: " ++ err ++ lit "\r\n") (by decide))
    exact herror.trans (setPhase_does env _ .ended)

/-- **A pass** is a list of acts, and it sends the output that it reads from the pty. -/
theorem step_does (s : Session) (p : Pass) : Does env Works s (shellOutput s p) (s.step env sr p) := by
  have hquiet (hphase : s.phase ≠ .main) : shellOutput s p = [] := if_neg fun h => hphase h.1
  cases hphase : s.phase with
  | handshake =>
    rw [hquiet (by rw [hphase]; decide), Session.step, hphase]
    obtain ⟨t, hdoes, hgoes | ⟨phase, -, -, hleaves⟩ | ⟨m, -, -, -, hstarts⟩⟩ := handshakePass_moves env sr s p
    · rw [hgoes]
      exact hdoes.mono works_of_listens
    · rw [hleaves]
      exact (hdoes.mono works_of_listens).trans (setPhase_does env t phase)
    · rw [hstarts]
      have htaken := (hdoes.mono works_of_listens).step (a := .note (.accept m)) (.inr (.inl ⟨m, rfl⟩)) rfl
      have hresponded := htaken.step (a := .locals t.phase m.sequence.toInt t.nextExpected t.lastClientActivity)
        trivial rfl
      exact hresponded.trans (startShell_does env sr _ p)
  | main =>
    rw [Session.step, hphase]
    obtain ⟨t, hdoes, hleaves⟩ := mainPass_moves env sr s p hphase
    have hbefore := hdoes.mono works_of_bridges
    have hall {u : Session} (h : Does env Works t [] u) : Does env Works s (shellOutput s p) u := by
      have htrans := hbefore.trans h
      rw [List.append_nil] at htrans
      exact htrans
    obtain heq | heq | ⟨phase, -, -, -, heq⟩ := hleaves
    · rw [heq]
      exact hbefore
    · rw [heq]
      exact hall (teardown_does env sr t p)
    · rw [heq]
      exact hall (setPhase_does env t phase)
  | ended =>
    rw [hquiet (by rw [hphase]; decide), Session.step, hphase]
    exact Does.refl s
  | stuck =>
    rw [hquiet (by rw [hphase]; decide), Session.step, hphase]
    exact Does.refl s
  | thrown =>
    rw [hquiet (by rw [hphase]; decide), Session.step, hphase]
    exact Does.refl s

/-- What the passes of a run read from the pty. -/
def readOver : Session → List Pass → List Bytes
  | _, [] => []
  | s, p :: passes => shellOutput s p ++ readOver (s.step env sr p) passes

/-- A whole run is works, and its output is what was read from the terminal. -/
theorem run_does (s : Session) (passes : List Pass) :
    Does env Works s (readOver env sr s passes) (runFrom (Session.step env sr) s passes) := by
  induction passes generalizing s with
  | nil => exact Does.refl s
  | cons p passes ih => exact (step_does env sr s p).trans (ih (s.step env sr p))

/-- What `run_session` does before its loops. -/
theorem start_does (opened : Bool) (now : ℤ) :
    ∃ deadline, Does env Works { Session.init with hsDeadline := deadline } [] (Session.start env sr opened now) := by
  unfold Session.start
  cases opened with
  | false => exact ⟨0, setPhase_does env Session.init .ended⟩
  | true =>
    simp only [Bool.not_true, Bool.false_eq_true, if_false]
    generalize dump _ = state
    generalize buildHandshakeRequest _ _ _ = request
    have hsent (s : Session) : Does env Works s []
        ((s.sendControl env kMsgAgentSessionState state).sendStream env kPayloadHandshakeRequest request).2 := by
      have hcontrol : Does env Works s [] (s.sendControl env kMsgAgentSessionState state) :=
        Does.one (a := .control kMsgAgentSessionState state) s (.inr rfl)
      exact hcontrol.trans (quiet_stream_does env _ _ request (by decide))
    cases hok : env.sendOk (Session.init.sendControl env kMsgAgentSessionState state).sends with
    | false =>
      refine ⟨0, ?_⟩
      have hresult := (hsent Session.init).trans (setPhase_does env _ .ended)
      simp only [Session.sendStream, hok]
      exact hresult
    | true =>
      refine ⟨now + kHandshakeTimeoutSeconds, ?_⟩
      have hresult := hsent { Session.init with hsDeadline := now + kHandshakeTimeoutSeconds }
      simp only [Session.sendStream, hok]
      exact hresult

end HaikuAgent.Analysis.SessionMoves
