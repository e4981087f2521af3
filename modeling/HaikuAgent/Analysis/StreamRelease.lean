import HaikuAgent.Analysis.OutboxWindow
import HaikuAgent.Analysis.SessionPasses
import HaikuAgent.Analysis.StartRefusals
import HaikuAgent.Foundation.SendWindow

/-!
# What releases stream data

Control messages and stream data are numbered apart, and an acknowledge says which kind it
answers; `handle_ack` reads the number only. A run is followed here with the greatest sequence
number that an acknowledge of stream data has released. The frames above it stay buffered as long
as no acknowledge of another kind names a buffered number.
-/

set_option autoImplicit false

namespace HaikuAgent.Analysis.StreamRelease

open HaikuAgent.Foundation
open HaikuAgent.Model
open HaikuAgent.Model.Json
open HaikuAgent.Model.Mgs
open HaikuAgent.Model.Sessions
open HaikuAgent.Analysis.AckedInput
open HaikuAgent.Analysis.SessionPasses

/-! ## Acknowledges -/

variable (env : Env)

/-- The number that `handle_ack` reads. -/
def ackNumber (m : AgentMessage) : Option ℤ :=
  let (v, jerr) := parse env.strtod m.payload
  if jerr = [] ∧ v.isObj then
    some ((v.numAt env.strtod (lit "AcknowledgedMessageSequenceNumber") (.finite (-1))).toIntBounded
      (-2 ^ 63) (2 ^ 63 - 1))
  else none

/-- The kind of message that an acknowledge answers. -/
def ackedType (m : AgentMessage) : Bytes :=
  (parse env.strtod m.payload).1.strAt (lit "AcknowledgedMessageType") []

def AcksStream (m : AgentMessage) : Prop := m.messageType = kMsgAcknowledge ∧ ackedType env m = kMsgOutputStreamData

instance decidableAcksStream (m : AgentMessage) : Decidable (AcksStream env m) := inferInstanceAs (Decidable (_ ∧ _))

/-- An acknowledge that answers something else. -/
def AcksOther (m : AgentMessage) : Prop := m.messageType = kMsgAcknowledge ∧ ackedType env m ≠ kMsgOutputStreamData

/-- What is released when the pass has handled its message: frames that were sent. -/
def released (s : Session) (p : Pass) (r : ℤ) : ℤ :=
  match handles env s p with
  | some m =>
    if AcksStream env m then
      match ackNumber env m with
      | some a => max r (min a ((arrival env s p).outSeq - 1))
      | none => r
    else r
  | none => r

/-- A pass, and what is released after it. -/
def trackedStep (sr : StartRequest) (state : Session × ℤ) (p : Pass) : Session × ℤ :=
  (state.1.step env sr p, released env state.1 p state.2)

/-- The sequence numbers that are buffered. -/
def seqs (s : Session) : List ℤ := s.outbox.buf.map Entry.seq

/-- Every frame that was sent is buffered unless it is released or among the older ones. -/
def Kept (state : Session × ℤ) : Prop :=
  ∀ n, 0 ≤ n → n < state.1.outSeq → state.2 < n → state.1.outSeq - kMaxBuffered ≤ n → n ∈ seqs state.1

/-- An acknowledge of another kind leaves the outbox as it is. -/
def OthersIgnored (state : Session × ℤ) (p : Pass) : Prop :=
  ∀ m, handles env state.1 p = some m → AcksOther env m →
    ((arrival env state.1 p).handleAck env m).outbox = (arrival env state.1 p).outbox

/-- An acknowledge of another kind names a number below all that are buffered, or none. -/
def OthersBelow (state : Session × ℤ) (p : Pass) : Prop :=
  ∀ m a, handles env state.1 p = some m → AcksOther env m → ackNumber env m = some a →
    ∀ e ∈ (arrival env state.1 p).outbox.buf.head?, a < e.seq

/-- An acknowledgement is a release up to its number, if it has one. -/
theorem handleAck_eq (s : Session) (m : AgentMessage) :
    s.handleAck env m =
      match ackNumber env m with
      | some a => { s with outbox := s.outbox.ack a }
      | none => s := by
  unfold Session.handleAck ackNumber
  generalize parse env.strtod m.payload = parsed
  obtain ⟨v, jerr⟩ := parsed
  dsimp only
  by_cases h : jerr = [] ∧ v.isObj
  · rw [if_pos h, if_pos h]
  · rw [if_neg h, if_neg h]

/-- A release drops the numbers up to the one given. -/
theorem seqs_ack (s : Session) (a : ℤ) :
    seqs { s with outbox := s.outbox.ack a } = (seqs s).dropWhile fun n => n ≤ a := by
  unfold seqs Outbox.ack
  rw [List.dropWhile_map]
  rfl

/-- The outbox is left as it is by a number below its front. -/
theorem ack_eq_self_iff (o : Outbox) (a : ℤ) : o.ack a = o ↔ ∀ e ∈ o.buf.head?, a < e.seq := by
  have hbuf : o.ack a = o ↔ o.buf.dropWhile (fun e => e.seq ≤ a) = o.buf := by
    constructor
    · intro h
      exact congrArg Outbox.buf h
    · intro h
      unfold Outbox.ack
      rw [h]
  rw [hbuf]
  cases o.buf with
  | nil => simp
  | cons front rest =>
    rw [List.dropWhile_eq_self_iff]
    simp

/-- The other messages are ignored exactly when their numbers are below what is held. -/
theorem othersIgnored_iff (state : Session × ℤ) (p : Pass) : OthersIgnored env state p ↔ OthersBelow env state p := by
  constructor
  · intro h m a hm hother ha
    have hsame := h m hm hother
    rw [handleAck_eq, ha] at hsame
    exact (ack_eq_self_iff _ a).mp hsame
  · intro h m hm hother
    rw [handleAck_eq]
    cases ha : ackNumber env m with
    | none => rfl
    | some a => exact (ack_eq_self_iff _ a).mpr (h m a hm hother ha)

/-! ## The window -/

/-- The buffer holds what is sent and neither released nor pushed out. -/
structure Windowed (r : ℤ) (s : Session) : Prop where
  seqs : seqs s = SendWindow.window kMaxBuffered r s.outSeq
  nonneg : -1 ≤ r
  sent : r < s.outSeq

/-- A step that touches neither the outbox nor the counter keeps the window. -/
theorem Windowed.of_eq {r : ℤ} {s t : Session} (h : Windowed r s) (hseqs : StreamRelease.seqs t = StreamRelease.seqs s)
    (hout : t.outSeq = s.outSeq) : Windowed r t where
  seqs := by rw [hseqs, hout, h.seqs]
  nonneg := h.nonneg
  sent := by rw [hout]; exact h.sent

/-- Entering a frame is a push onto the window of numbers. -/
theorem seqs_add (o : Outbox) (seq : ℤ) (frame : Bytes) (nowMs : ℤ) :
    (o.add seq frame nowMs).buf.map Entry.seq = SendWindow.push kMaxBuffered (o.buf.map Entry.seq) seq := by
  unfold Outbox.add SendWindow.push
  rw [List.length_map]
  dsimp only
  split_ifs
  · rw [List.map_append, List.map_tail]
    rfl
  · rw [List.map_append]
    rfl

/-- A resend leaves the numbers as they were. -/
theorem seqs_due (o : Outbox) (nowMs : ℤ) : (o.dueResend nowMs).2.2.buf.map Entry.seq = o.buf.map Entry.seq := by
  have hkey := congrArg (List.map Prod.fst) (OutboxWindow.dueResend_frame o nowMs).1
  rwa [List.map_map, List.map_map] at hkey

/-- A resend takes no number of its own. -/
theorem outSeq_pump (s : Session) (nowMs : ℤ) :
    (s.pumpOutbox nowMs).2.outSeq = s.outSeq ∧ (s.pumpOutbox nowMs).2.outbox = (s.outbox.dueResend nowMs).2.2 := by
  unfold Session.pumpOutbox
  split
  next frame dead outbox heq =>
    rw [heq]
    split_ifs
    · exact ⟨rfl, rfl⟩
    · cases frame with
      | some frame => exact ⟨rfl, rfl⟩
      | none => exact ⟨rfl, rfl⟩

/-- What a session sends stays in the window. -/
theorem closed_windowed (r : ℤ) : Closed env fun s t => Windowed r s → Windowed r t where
  refl := fun _ => id
  trans := fun h h' hs => h' (h hs)
  sendStream := by
    intro s payloadType data h
    refine ⟨?_, h.nonneg, Int.lt_add_one_of_le h.sent.le⟩
    show ((s.outbox.add s.outSeq _ _).buf).map Entry.seq = _
    rw [seqs_add]
    show SendWindow.push kMaxBuffered (StreamRelease.seqs s) s.outSeq = _
    rw [h.seqs]
    exact SendWindow.push_window kMaxBuffered r s.outSeq h.sent (by decide)
  sendControl := fun _ _ _ h => h.of_eq rfl rfl
  pump := by
    intro s nowMs h
    obtain ⟨hout, houtbox⟩ := outSeq_pump s nowMs
    refine h.of_eq ?_ hout
    unfold StreamRelease.seqs
    rw [houtbox, seqs_due]
  setPhase := fun _ _ h => h.of_eq rfl rfl

/-- A release of what is buffered moves the window. -/
theorem Windowed.ack {r : ℤ} {s : Session} (h : Windowed r s) (a : ℤ) :
    Windowed (max r (min a (s.outSeq - 1))) { s with outbox := s.outbox.ack a } where
  seqs := by
    rw [seqs_ack, h.seqs]
    exact SendWindow.release_window kMaxBuffered r s.outSeq a h.sent
  nonneg := le_max_of_le_left h.nonneg
  sent := by
    have hsent := h.sent
    show max r (min a (s.outSeq - 1)) < s.outSeq
    omega

/-- What the window keeps is what was not released. -/
theorem Windowed.kept {r : ℤ} {s : Session} (h : Windowed r s) : Kept (s, r) := by
  intro n _ hlt hreleased hrecent
  rw [h.seqs]
  exact SendWindow.mem_window.mpr ⟨hreleased, hrecent, hlt⟩

/-! ## Messages that are no acknowledges -/

section Messages

variable (sr : StartRequest) (r : ℤ) (s : Session) (p : Pass) (m : AgentMessage)

/-- Sending an acknowledgement keeps the window. -/
theorem windowed_sendAck (h : Windowed r s) : Windowed r (s.sendAck env m) := h.of_eq rfl rfl

/-- Starting the shell keeps the window. -/
theorem windowed_startShell (h : Windowed r s) : Windowed r (s.startShell env sr p) := by
  have hclosed := closed_windowed env r
  unfold Session.startShell
  dsimp only
  have hspawn : Windowed r ((s.sendStream env kPayloadHandshakeComplete handshakeComplete).2.record
      (.spawn sr.shellCommands sr.runAsEnabled sr.runAsUser)) :=
    (hclosed.sendStream _ _ _ h).of_eq rfl rfl
  cases p.spawnError with
  | some err => exact hclosed.setPhase _ _ (hclosed.sendStream _ _ _ hspawn)
  | none => exact hspawn.of_eq rfl rfl

/-- A message of the handshake that is no acknowledgement keeps the window. -/
theorem windowed_handleHandshake (h : Windowed r s) (hnot : m.messageType ≠ kMsgAcknowledge) :
    Windowed r (s.handleHandshake env sr p m) := by
  unfold Session.handleHandshake
  rw [if_neg hnot]
  split_ifs
  · dsimp only
    split
    · exact h.of_eq rfl rfl
    · exact windowed_startShell env sr r _ p (h.of_eq rfl rfl)
  · exact h.of_eq rfl rfl
  · exact windowed_sendAck env r s m h

/-- Writing keystrokes keeps the window. -/
theorem windowed_writeKeys (writes : List PtyWrite) (keys : Bytes) (h : Windowed r s) :
    Windowed r (s.writeKeys keys writes).2 := by
  induction writes generalizing s keys with
  | nil => exact h
  | cons w writes ih =>
    cases keys with
    | nil => exact h
    | cons b keys =>
      cases w with
      | count n =>
        cases n with
        | zero => exact h
        | succ n => exact ih (s.record _) _ (h.of_eq rfl rfl)
      | again => exact ih s _ h
      | failed => exact h

/-- Applying an input keeps the window. -/
theorem windowed_applyInput (h : Windowed r s) : Windowed r (s.applyInput env sr p m) := by
  have hkeys := windowed_writeKeys r s p.writes m.payload h
  unfold Session.applyInput
  split_ifs
  · split
    split_ifs
    · exact h.of_eq rfl rfl
    · exact h
  · generalize s.writeKeys m.payload p.writes = result at hkeys ⊢
    obtain ⟨running, t⟩ := result
    cases running with
    | none => exact hkeys.of_eq rfl rfl
    | some running =>
      cases running with
      | true => exact hkeys
      | false => exact (closed_windowed env r).teardown sr t p hkeys
  · exact h

/-- A message of the main loop that is no acknowledgement keeps the window. -/
theorem windowed_handleMain (h : Windowed r s) (hnot : m.messageType ≠ kMsgAcknowledge) :
    Windowed r (s.handleMain env sr p m) := by
  unfold Session.handleMain
  dsimp only
  rw [if_neg hnot]
  split_ifs
  · exact (closed_windowed env r).teardown sr _ p (h.of_eq rfl rfl)
  · exact h.of_eq rfl rfl
  · exact h.of_eq rfl rfl
  · exact windowed_applyInput env sr r _ p m (h.of_eq rfl rfl)

end Messages

/-! ## One pass -/

section Pass

variable (sr : StartRequest) (s : Session) (p : Pass) (r : ℤ)

/-- Without a stream acknowledgement nothing more is released. -/
theorem released_of_not_stream (h : ∀ m, handles env s p = some m → ¬AcksStream env m) : released env s p r = r := by
  unfold released
  cases hhandles : handles env s p with
  | none => rfl
  | some m => exact if_neg (h m hhandles)

/-- The outbox and the numbering after a pass that handles an acknowledge. -/
theorem step_of_ack (m : AgentMessage) (hm : handles env s p = some m) (hack : m.messageType = kMsgAcknowledge) :
    (s.step env sr p).outbox = ((arrival env s p).handleAck env m).outbox ∧
      (s.step env sr p).outSeq = (arrival env s p).outSeq := by
  have hnotClosed : m.messageType ≠ kMsgChannelClosed := by
    rw [hack]
    decide
  have hcases := (step_of_handles sr s p (closed_windowed env (-1)) m hm).2.2.2
  have hack' (t : Session) : (t.handleAck env m).outSeq = t.outSeq := by
    rw [handleAck_eq]
    cases ackNumber env m <;> rfl
  cases hcases with
  | inl h =>
    rw [h.2]
    unfold Session.handleHandshake
    rw [if_pos hack]
    exact ⟨rfl, hack' _⟩
  | inr h =>
    rw [h.2]
    unfold Session.handleMain
    dsimp only
    rw [if_neg hnotClosed, if_pos hack, handleAck_eq, handleAck_eq]
    cases ackNumber env m with
    | none => exact ⟨rfl, rfl⟩
    | some a => exact ⟨rfl, rfl⟩

/-- A pass keeps the window if no other acknowledge reaches into it. -/
theorem step_windowed (h : Windowed r s) (hbelow : OthersBelow env (s, r) p) :
    Windowed (released env s p r) (s.step env sr p) := by
  have hclosed := closed_windowed env r
  cases hhandles : handles env s p with
  | none =>
    rw [released_of_not_stream env s p r fun m hm => by rw [hhandles] at hm; cases hm]
    exact step_of_handles_none sr s p hclosed hhandles h
  | some m =>
    obtain ⟨harrival, -, -, hcases⟩ := step_of_handles sr s p hclosed m hhandles
    have ht := harrival h
    by_cases hack : m.messageType = kMsgAcknowledge
    · obtain ⟨hbox, hout⟩ := step_of_ack env sr s p m hhandles hack
      have hseqs : seqs (s.step env sr p) = seqs ((arrival env s p).handleAck env m) := by
        unfold seqs
        rw [hbox]
      by_cases hstream : AcksStream env m
      · unfold released
        rw [hhandles]
        dsimp only
        rw [if_pos hstream]
        rw [handleAck_eq] at hseqs
        cases ha : ackNumber env m with
        | none =>
          rw [ha] at hseqs
          exact ht.of_eq hseqs hout
        | some a =>
          rw [ha] at hseqs
          exact (ht.ack a).of_eq hseqs hout
      · have hother : AcksOther env m := ⟨hack, fun htype => hstream ⟨hack, htype⟩⟩
        have hsame := (othersIgnored_iff env (s, r) p).mpr hbelow m hhandles hother
        rw [released_of_not_stream env s p r fun m' hm' => by cases hhandles.symm.trans hm'; exact hstream]
        refine ht.of_eq ?_ hout
        rw [hseqs]
        unfold seqs
        rw [hsame]
    · rw [released_of_not_stream env s p r fun m' hm' => by
        cases hhandles.symm.trans hm'; exact fun hstream => hack hstream.1]
      cases hcases with
      | inl hstep =>
        rw [hstep.2]
        exact windowed_handleHandshake env sr r _ p m ht hack
      | inr hstep =>
        rw [hstep.2]
        exact windowed_handleMain env sr r _ p m ht hack

/-- An acknowledge that reaches into the window takes the oldest frame away. -/
theorem not_kept_of_not_below (h : Windowed r s) (hnot : ¬OthersBelow env (s, r) p) :
    ¬Kept (trackedStep env sr (s, r) p) := by
  unfold OthersBelow at hnot
  push Not at hnot
  obtain ⟨m, a, hhandles, hother, ha, front, hfront, hle⟩ := hnot
  have ht := (step_of_handles sr s p (closed_windowed env r) m hhandles).1 h
  obtain ⟨hbox, hout⟩ := step_of_ack env sr s p m hhandles hother.1
  have hreleased : released env s p r = r :=
    released_of_not_stream env s p r fun m' hm' => by
      cases hhandles.symm.trans hm'
      exact fun hstream => hother.2 hstream.2
  let t := arrival env s p
  have hmem : front.seq ∈ SendWindow.window kMaxBuffered r t.outSeq := by
    rw [← ht.seqs]
    exact List.mem_map_of_mem (List.mem_of_mem_head? hfront)
  obtain ⟨hlo, hrecent, hhi⟩ := SendWindow.mem_window.mp hmem
  have hleft : seqs (s.step env sr p) =
      SendWindow.window kMaxBuffered (max r (min a (t.outSeq - 1))) t.outSeq := by
    have hseqs : seqs (s.step env sr p) = seqs ((arrival env s p).handleAck env m) := by
      unfold seqs
      rw [hbox]
    rw [handleAck_eq, ha] at hseqs
    rw [hseqs]
    exact (ht.ack a).seqs
  intro hkept
  have hnonneg := h.nonneg
  have hin := hkept front.seq (by omega) (by rw [trackedStep, hout]; exact hhi)
    (by rw [trackedStep, hreleased]; exact hlo) (by rw [trackedStep, hout]; exact hrecent)
  have hin' : front.seq ∈ seqs (s.step env sr p) := hin
  rw [hleft, SendWindow.mem_window] at hin'
  omega

end Pass

/-- A session begins with an empty window. -/
theorem windowed_start (sr : StartRequest) (opened : Bool) (now : ℤ) :
    Windowed (-1) (Session.start env sr opened now) := by
  have hinit : Windowed (-1) Session.init := ⟨by decide, le_refl _, by decide⟩
  have hclosed := closed_windowed env (-1)
  unfold Session.start
  cases opened with
  | false => exact hinit.of_eq rfl rfl
  | true =>
    simp only [Bool.not_true, Bool.false_eq_true, if_false]
    generalize dump _ = state
    generalize buildHandshakeRequest _ _ _ = request
    have hsent := hclosed.sendStream (Session.init.sendControl env kMsgAgentSessionState state)
      kPayloadHandshakeRequest request (hinit.of_eq rfl rfl)
    generalize Session.sendStream env _ kPayloadHandshakeRequest request = sent at hsent ⊢
    obtain ⟨ok, s⟩ := sent
    cases ok with
    | false => exact hsent.of_eq rfl rfl
    | true => exact hsent.of_eq rfl rfl

/-- **When only acknowledges of stream data release stream data**: in every run, exactly when each
acknowledge of another kind names a number below all that are buffered. Then it leaves the outbox
as it is, and a frame stays until an acknowledge of stream data covers it or the cap pushes it out.
SRC: session.cpp:47-114, 248-320, 404-420 -/
theorem onlyStreamAcks_iff (sr : StartRequest) (opened : Bool) (now : ℤ) (passes : List Pass) :
    AllSteps (trackedStep env sr) (OthersIgnored env) (Session.start env sr opened now, -1) passes ∧
        AllStates (trackedStep env sr) Kept (Session.start env sr opened now, -1) passes ↔
      AllSteps (trackedStep env sr) (OthersBelow env) (Session.start env sr opened now, -1) passes := by
  have hrun := allStates_iff_allSteps (trackedStep env sr) (fun state => Windowed state.2 state.1) Kept
    (OthersBelow env) (fun _ h => h.kept) (fun state p h hbelow => step_windowed env sr state.1 p state.2 h hbelow)
    (fun state p h hnot => not_kept_of_not_below env sr state.1 p state.2 h hnot)
    (Session.start env sr opened now, -1) (windowed_start env sr opened now) passes
  constructor
  · exact fun h => hrun.mp h.2
  · intro h
    refine ⟨?_, hrun.mpr h⟩
    intro l p hl
    exact (othersIgnored_iff env _ p).mpr (h l p hl)

/-! ## The acknowledge of a control message -/

def controlAckValue : Value :=
  .obj [(lit "AcknowledgedMessageSequenceNumber", .number (.finite 0) true),
    (lit "AcknowledgedMessageType", .string kMsgAgentSessionState)]

/-- The client's answer to the message that says the session is connected. -/
def controlAck : AgentMessage :=
  { messageType := kMsgAcknowledge
    schemaVersion := 1
    createdMs := 0
    sequence := 0
    flags := 3
    messageId := lit "00000000-0000-4000-8000-000000000001"
    payloadType := 0
    payload := dump controlAckValue }

/-- The example's payload is read as its value. -/
theorem parse_controlAck : parse decimalEnv.strtod controlAck.payload = (controlAckValue, []) := by
  have hkeys : [lit "AcknowledgedMessageSequenceNumber", lit "AcknowledgedMessageType"].Pairwise (· < ·) := by decide
  have hlossless : JsonRoundTrip.Lossless controlAckValue := by
    simp only [controlAckValue, JsonRoundTrip.Lossless, JsonRoundTrip.LosslessEntries, List.map_cons, List.map_nil,
      and_true, true_and]
    exact ⟨hkeys, 0, rfl, by decide⟩
  exact JsonRoundTrip.parse_dump _ JsonRoundTrip.decimalStrtod_reads _ hlossless

/-- The example session handles the example message. -/
theorem handles_controlAck :
    handles decimalEnv (Session.start decimalEnv exampleRequest true 0) (receiving controlAck) = some controlAck := by
  have hinbound := inbound_receiving controlAck 101 (by decide) (by decide) (by decide) (by decide)
  rw [handles_handshake _ _ _ rfl, if_neg, hinbound]
  rintro (h | h | h)
  · cases h
  · revert h
    decide
  · cases h

/-- It takes the handshake request out of the outbox. -/
theorem controlAck_releases :
    ¬(AllSteps (trackedStep decimalEnv exampleRequest) (OthersIgnored decimalEnv)
        (Session.start decimalEnv exampleRequest true 0, -1) [receiving controlAck] ∧
      AllStates (trackedStep decimalEnv exampleRequest) Kept (Session.start decimalEnv exampleRequest true 0, -1)
        [receiving controlAck]) := by
  rw [onlyStreamAcks_iff]
  intro hbelow
  have hother : AcksOther decimalEnv controlAck := by
    refine ⟨rfl, ?_⟩
    unfold ackedType
    rw [parse_controlAck]
    decide
  have hnumber : ackNumber decimalEnv controlAck = some 0 := by
    unfold ackNumber
    rw [parse_controlAck]
    decide
  obtain ⟨frame, hfront⟩ : ∃ frame,
      (arrival decimalEnv (Session.start decimalEnv exampleRequest true 0) (receiving controlAck)).outbox.buf.head? =
        some ⟨0, frame, 0, 0⟩ := ⟨_, rfl⟩
  have hlt := hbelow [] (receiving controlAck) (List.prefix_refl _) controlAck 0 handles_controlAck hother hnumber
    ⟨0, frame, 0, 0⟩ hfront
  exact absurd hlt (lt_irrefl 0)

end HaikuAgent.Analysis.StreamRelease
