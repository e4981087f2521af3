import Mathlib.Tactic.IntervalCases
import HaikuAgent.Foundation.Reassembly
import HaikuAgent.Model.SessionChannel
import HaikuAgent.Model.Uuid
import HaikuAgent.Analysis.AckedInput
import HaikuAgent.Analysis.MgsFraming
import HaikuAgent.Analysis.SessionMoves

/-!
# The client's end of a session

The session numbers its stream messages from 0, sends each once and sends some of them again
(`Numbered`). A client that reads the frames as `deserialize` does, and puts the stream messages
together by their numbers, has the messages before the first whose frame it lacks, whatever is
lost, repeated or overtaken on the way, and so a first part of what the shell printed
(`output_delivered`).
-/

set_option autoImplicit false

namespace HaikuAgent.Analysis.OutputDelivery

open HaikuAgent.Foundation
open HaikuAgent.Model
open HaikuAgent.Model.Mgs
open HaikuAgent.Model.SessionChannel (frameOf frames)
open HaikuAgent.Model.Sessions
open HaikuAgent.Analysis.AckedInput (exampleEnv exampleRequest handshakeResponse receiving)
open HaikuAgent.Analysis.MgsFields
open HaikuAgent.Analysis.SessionMoves

/-! ## Message ids -/

/-- A byte is written as two lower-case hex digits. -/
theorem lowerHex_hexPair (b : UInt8) : ∃ c d, hexPair b = [c, d] ∧ LowerHex c ∧ LowerHex d := by
  have key : ∀ n : Fin 16, LowerHex (digits.getD n 0) := by decide
  have hdigit (n : UInt8) (hn : n.toNat < 16) : LowerHex (digits.getD n.toNat 0) := key ⟨n.toNat, hn⟩
  refine ⟨_, _, rfl, hdigit _ ?_, hdigit _ ?_⟩
  · rw [UInt8.toNat_shiftRight, Nat.shiftRight_eq_div_pow]
    have hlt := b.toNat_lt
    change b.toNat / 16 < 16
    omega
  · rw [UInt8.toNat_and]
    exact Nat.lt_of_le_of_lt Nat.and_le_right (by decide)

/-- An id read from the wire is a canonical one. -/
theorem canonical_uuidFromWire (wire : Vector UInt8 16) : CanonicalUuid (uuidFromWire wire) := by
  obtain ⟨b0, b1, b2, b3, b4, b5, b6, b7, b8, b9, b10, b11, b12, b13, b14, b15, rfl⟩ := wire_cases wire
  obtain ⟨c0, d0, h0, hc0, hd0⟩ := lowerHex_hexPair b0
  obtain ⟨c1, d1, h1, hc1, hd1⟩ := lowerHex_hexPair b1
  obtain ⟨c2, d2, h2, hc2, hd2⟩ := lowerHex_hexPair b2
  obtain ⟨c3, d3, h3, hc3, hd3⟩ := lowerHex_hexPair b3
  obtain ⟨c4, d4, h4, hc4, hd4⟩ := lowerHex_hexPair b4
  obtain ⟨c5, d5, h5, hc5, hd5⟩ := lowerHex_hexPair b5
  obtain ⟨c6, d6, h6, hc6, hd6⟩ := lowerHex_hexPair b6
  obtain ⟨c7, d7, h7, hc7, hd7⟩ := lowerHex_hexPair b7
  obtain ⟨c8, d8, h8, hc8, hd8⟩ := lowerHex_hexPair b8
  obtain ⟨c9, d9, h9, hc9, hd9⟩ := lowerHex_hexPair b9
  obtain ⟨c10, d10, h10, hc10, hd10⟩ := lowerHex_hexPair b10
  obtain ⟨c11, d11, h11, hc11, hd11⟩ := lowerHex_hexPair b11
  obtain ⟨c12, d12, h12, hc12, hd12⟩ := lowerHex_hexPair b12
  obtain ⟨c13, d13, h13, hc13, hd13⟩ := lowerHex_hexPair b13
  obtain ⟨c14, d14, h14, hc14, hd14⟩ := lowerHex_hexPair b14
  obtain ⟨c15, d15, h15, hc15, hd15⟩ := lowerHex_hexPair b15
  rw [uuidFromWire_mk]
  simp only [List.flatMap_cons, List.flatMap_nil, h0, h1, h2, h3, h4, h5, h6, h7, h8, h9, h10, h11, h12, h13, h14,
    h15, List.cons_append, List.nil_append, List.append_nil]
  refine ⟨rfl, ?_⟩
  intro i hi
  interval_cases i <;> first | rfl | assumption

/-- `uuid4` prints canonical text, wherever its bytes come from.
SRC: util.cpp:219-235 -/
theorem canonical_uuid4 (urandom : Option (Vector UInt8 16)) (nowMs : ℤ) : CanonicalUuid (uuid4 urandom nowMs) := by
  unfold uuid4
  dsimp only
  generalize ((urandom.getD (timeSeeded nowMs)).set 6 _ _).set 8 _ _ = b
  have hwire := canonical_uuidFromWire
    ⟨#[b[8], b[9], b[10], b[11], b[12], b[13], b[14], b[15], b[0], b[1], b[2], b[3], b[4], b[5], b[6], b[7]], rfl⟩
  rw [uuidFromWire_mk, List.append_nil] at hwire
  simpa only [List.append_assoc, List.cons_append, List.nil_append] using hwire

/-! ## What the session hands to the channel -/

def streamed : Action → Option AgentMessage
  | .stream m => some m
  | _ => none

/-- The stream messages of a session, in the order of their numbers. -/
def streams (s : Session) : List AgentMessage := s.log.filterMap streamed

/-- What the stream messages say of the shell's output. -/
def printed (messages : List AgentMessage) : List Bytes :=
  (messages.filter fun m => m.payloadType = kPayloadOutput).map AgentMessage.payload

/-- A control message of the session. -/
def Quiet (env : Env) (m : AgentMessage) : Prop :=
  (m.messageType = kMsgAcknowledge ∨ m.messageType = kMsgAgentSessionState) ∧ ∃ n, m.messageId = env.uuid n

/-- The stream message of number `i`. -/
def Stamped (env : Env) (i : ℕ) (m : AgentMessage) : Prop :=
  m.messageType = kMsgOutputStreamData ∧ m.sequence = Int64.ofInt i ∧ ∃ n, m.messageId = env.uuid n

/-- The session numbers its stream messages, and every frame is one of theirs or a control message's. -/
structure Numbered (env : Env) (s : Session) : Prop where
  outSeq_eq : s.outSeq = (streams s).length
  stamped : ∀ i m, (streams s)[i]? = some m → Stamped env i m
  buffered : ∀ e ∈ s.outbox.buf, ∃ m ∈ streams s, e.frame = serialize env.sha256Raw m
  framed : ∀ f ∈ frames env s, ∃ m, f = serialize env.sha256Raw m ∧ (m ∈ streams s ∨ Quiet env m)

/-- An action adds its stream message, if it is one, to those sent. -/
theorem streams_record (s : Session) (a : Action) : streams (s.record a) = streams s ++ (streamed a).toList := by
  unfold streams Session.record
  rw [List.filterMap_append]
  cases h : streamed a with
  | none => simp [h]
  | some m => simp [h]

/-- An action adds its frame, if it sends one, to those sent. -/
theorem frames_record (env : Env) (s : Session) (a : Action) :
    frames env (s.record a) = frames env s ++ (frameOf env a).toList := by
  unfold frames Session.record
  rw [List.filterMap_append]
  cases h : frameOf env a with
  | none => simp [h]
  | some f => simp [h]

/-- Sessions that have sent the same and hold no other frames. -/
theorem Numbered.of_same {env : Env} {s t : Session} (h : Numbered env s) (hseq : t.outSeq = s.outSeq)
    (hlog : t.log = s.log) (hbuf : ∀ e ∈ t.outbox.buf, ∃ e' ∈ s.outbox.buf, e.frame = e'.frame) :
    Numbered env t := by
  have hstreams : streams t = streams s := congrArg (List.filterMap streamed) hlog
  have hframes : frames env t = frames env s := congrArg (List.filterMap (frameOf env)) hlog
  refine ⟨?_, ?_, ?_, ?_⟩
  · rw [hseq, hstreams]
    exact h.outSeq_eq
  · rw [hstreams]
    exact h.stamped
  · intro e he
    obtain ⟨e', he', hframe⟩ := hbuf e he
    rw [hstreams, hframe]
    exact h.buffered e' he'
  · rw [hframes, hstreams]
    exact h.framed

/-- What sends no frame. -/
theorem Numbered.note {env : Env} {s : Session} (h : Numbered env s) {a : Action} (hstream : streamed a = none)
    (hframe : frameOf env a = none) : Numbered env (s.record a) := by
  have hstreams : streams (s.record a) = streams s := by rw [streams_record, hstream, Option.toList_none, List.append_nil]
  have hframes : frames env (s.record a) = frames env s := by
    rw [frames_record, hframe, Option.toList_none, List.append_nil]
  refine ⟨?_, ?_, ?_, ?_⟩
  · rw [hstreams]
    exact h.outSeq_eq
  · rw [hstreams]
    exact h.stamped
  · rw [hstreams]
    exact h.buffered
  · rw [hframes, hstreams]
    exact h.framed

/-- A frame that a stream message or a control message gives. -/
theorem Numbered.frame {env : Env} {s : Session} (h : Numbered env s) {a : Action} {m : AgentMessage}
    (hstream : streamed a = none) (hframe : frameOf env a = some (serialize env.sha256Raw m))
    (hm : m ∈ streams s ∨ Quiet env m) : Numbered env (s.record a) := by
  have hstreams : streams (s.record a) = streams s := by rw [streams_record, hstream, Option.toList_none, List.append_nil]
  refine ⟨?_, ?_, ?_, ?_⟩
  · rw [hstreams]
    exact h.outSeq_eq
  · rw [hstreams]
    exact h.stamped
  · rw [hstreams]
    exact h.buffered
  · rw [frames_record, hframe, hstreams]
    intro f hf
    obtain hf | hf := List.mem_append.mp hf
    · exact h.framed f hf
    · exact ⟨m, List.mem_singleton.mp hf, hm⟩

/-- A stream message takes the next number. -/
theorem Numbered.stream {env : Env} {s : Session} (h : Numbered env s) (payloadType : UInt32) (data : Bytes) :
    Numbered env (s.sendStream env payloadType data).2 := by
  obtain ⟨m, hm⟩ : ∃ m, m = env.message s.sends kMsgOutputStreamData s.outSeq (if s.outSeq = 0 then 1 else 0)
      payloadType data := ⟨_, rfl⟩
  have hstreams : streams (s.sendStream env payloadType data).2 = streams s ++ [m] := by
    rw [hm]
    exact streams_record s (.stream _)
  have hframes : frames env (s.sendStream env payloadType data).2 = frames env s ++ [serialize env.sha256Raw m] := by
    rw [hm]
    exact frames_record env s (.stream _)
  refine ⟨?_, ?_, ?_, ?_⟩
  · change s.outSeq + 1 = _
    rw [hstreams, List.length_append, List.length_singleton, h.outSeq_eq]
    exact (Nat.cast_succ _).symm
  · rw [hstreams]
    intro i m' hget
    obtain hlt | hge := lt_or_ge i (streams s).length
    · rw [List.getElem?_append_left hlt] at hget
      exact h.stamped i m' hget
    · rw [List.getElem?_append_right hge, List.getElem?_singleton] at hget
      split_ifs at hget with hzero
      cases hget
      have hi : i = (streams s).length := by omega
      have hsequence : m.sequence = Int64.ofInt i := by
        rw [hm, hi, ← h.outSeq_eq]
        rfl
      exact ⟨by rw [hm]; rfl, hsequence, _, by rw [hm]; rfl⟩
  · rw [hstreams]
    intro e he
    change e ∈ (s.outbox.add s.outSeq (serialize env.sha256Raw _) _).buf at he
    rw [← hm] at he
    unfold Outbox.add at he
    obtain he | he := List.mem_append.mp he
    · have hold : e ∈ s.outbox.buf := by
        split_ifs at he
        · exact List.mem_of_mem_tail he
        · exact he
      obtain ⟨m', hm', hframe⟩ := h.buffered e hold
      exact ⟨m', List.mem_append_left _ hm', hframe⟩
    · rw [List.mem_singleton.mp he]
      exact ⟨m, List.mem_append_right _ (List.mem_singleton_self m), rfl⟩
  · rw [hframes, hstreams]
    intro f hf
    obtain hf | hf := List.mem_append.mp hf
    · obtain ⟨m', hframe, hm'⟩ := h.framed f hf
      exact ⟨m', hframe, hm'.imp_left (List.mem_append_left _)⟩
    · exact ⟨m, List.mem_singleton.mp hf, .inl (List.mem_append_right _ (List.mem_singleton_self m))⟩

/-- The outbox resends what it holds, and holds it still. -/
theorem dueResend_frames (o : Outbox) (nowMs : ℤ) :
    (∀ f ∈ (o.dueResend nowMs).1, ∃ e ∈ o.buf, f = e.frame) ∧
      ∀ e ∈ (o.dueResend nowMs).2.2.buf, ∃ e' ∈ o.buf, e.frame = e'.frame := by
  have hsame : (∀ f ∈ (none : Option Bytes), ∃ e ∈ o.buf, f = e.frame) ∧ ∀ e ∈ o.buf, ∃ e' ∈ o.buf, e.frame = e'.frame :=
    ⟨nofun, fun e he => ⟨e, he, rfl⟩⟩
  unfold Outbox.dueResend
  cases hbuf : o.buf with
  | nil =>
    rw [hbuf] at hsame
    simpa only [hbuf] using hsame
  | cons front rest =>
    rw [hbuf] at hsame
    dsimp only
    split_ifs
    · simpa only [hbuf] using hsame
    · simpa only [hbuf] using hsame
    · refine ⟨?_, ?_⟩
      · intro f hf
        exact ⟨front, List.mem_cons_self, (Option.some.inj hf).symm⟩
      · intro e he
        obtain rfl | he := List.mem_cons.mp he
        · exact ⟨front, List.mem_cons_self, rfl⟩
        · exact ⟨e, List.mem_cons_of_mem _ he, rfl⟩

/-- A resend takes no number. -/
theorem Numbered.pump {env : Env} {s : Session} (h : Numbered env s) (nowMs : ℤ) :
    Numbered env (s.pumpOutbox nowMs).2 := by
  unfold Session.pumpOutbox
  obtain ⟨hresent, hheld⟩ := dueResend_frames s.outbox nowMs
  generalize s.outbox.dueResend nowMs = result at hresent hheld ⊢
  obtain ⟨frame, dead, outbox⟩ := result
  dsimp only at hresent hheld ⊢
  split_ifs
  · exact h.of_same rfl rfl hheld
  cases frame with
  | none => exact h.of_same rfl rfl hheld
  | some frame =>
    obtain ⟨e, he, rfl⟩ := hresent frame rfl
    obtain ⟨m, hm, hframe⟩ := h.buffered e he
    have hsent : Numbered env (s.record (.resend e.frame)) := h.frame rfl (congrArg some hframe) (.inl hm)
    exact hsent.of_same rfl rfl hheld

/-- **The step**: every act keeps the numbers. -/
theorem Numbered.perform {env : Env} {s : Session} {act : Act} (hact : Works act) (h : Numbered env s) :
    Numbered env (perform env s act) := by
  cases act with
  | stream payloadType data => exact h.stream payloadType data
  | control messageType payload =>
    have hsent : Numbered env (s.record (.control (env.message s.sends messageType 0 3 0 payload))) :=
      h.frame rfl rfl (.inr ⟨hact, _, rfl⟩)
    exact hsent.of_same rfl rfl fun e he => ⟨e, he, rfl⟩
  | pump nowMs => exact h.pump nowMs
  | release seq =>
    exact h.of_same rfl rfl fun e he => ⟨e, (List.dropWhile_sublist _).mem he, rfl⟩
  | note a =>
    obtain ⟨m, rfl⟩ | ⟨m, rfl⟩ | ⟨cols, rows, rfl⟩ | ⟨bytes, rfl⟩ | ⟨commands, runAs, user, rfl⟩ := hact
    all_goals exact h.note rfl rfl
  | locals phase handshakeSeq nextExpected lastClientActivity =>
    exact h.of_same rfl rfl fun e he => ⟨e, he, rfl⟩

/-- What is printed by two runs of messages is what each prints, in order. -/
theorem printed_append (l l' : List AgentMessage) : printed (l ++ l') = printed l ++ printed l' := by
  unfold printed
  rw [List.filter_append, List.map_append]

/-- An act prints the output that it sends. -/
theorem printed_perform {env : Env} {s : Session} {act : Act} (hact : Works act) :
    printed (streams (perform env s act)) = printed (streams s) ++ outputOf act := by
  have hsame {t : Session} (hlog : t.log = s.log) : printed (streams t) = printed (streams s) ++ [] := by
    rw [List.append_nil]
    exact congrArg (fun log => printed (log.filterMap streamed)) hlog
  have hnote {a : Action} (hstream : streamed a = none) :
      printed (streams (s.record a)) = printed (streams s) ++ [] := by
    rw [streams_record, hstream, Option.toList_none, List.append_nil, List.append_nil]
  cases act with
  | stream payloadType data =>
    have hstreams : streams (s.sendStream env payloadType data).2 = streams s ++ [_] := streams_record s (.stream _)
    unfold SessionMoves.perform outputOf
    dsimp only
    rw [hstreams, printed_append]
    unfold printed Env.message
    by_cases htype : payloadType = kPayloadOutput
    · simp [htype]
    · simp [htype]
  | control messageType payload => exact hnote (a := .control _) rfl
  | pump nowMs =>
    unfold SessionMoves.perform Session.pumpOutbox
    dsimp only
    split_ifs
    · exact hsame rfl
    · cases (s.outbox.dueResend nowMs).1 with
      | none => exact hsame rfl
      | some frame => exact hnote (a := .resend frame) rfl
  | release seq => exact hsame rfl
  | note a =>
    obtain ⟨m, rfl⟩ | ⟨m, rfl⟩ | ⟨cols, rows, rfl⟩ | ⟨bytes, rfl⟩ | ⟨commands, runAs, user, rfl⟩ := hact
    all_goals exact hnote rfl
  | locals phase handshakeSeq nextExpected lastClientActivity => exact hsame rfl

/-- What acts print is what they send of the output. -/
theorem printed_does {env : Env} {s t : Session} {output : List Bytes} (h : Does env Works s output t) :
    printed (streams t) = printed (streams s) ++ output := by
  obtain ⟨acts, hacts, rfl, rfl⟩ := h
  induction acts generalizing s with
  | nil => exact (List.append_nil _).symm
  | cons act acts ih =>
    rw [runFrom_cons, ih fun a ha => hacts a (List.mem_cons_of_mem _ ha), printed_perform (hacts act List.mem_cons_self),
      List.flatMap_cons, List.append_assoc]

/-! ## Runs -/

/-- The session after these passes. -/
def after (env : Env) (sr : StartRequest) (opened : Bool) (now : ℤ) (passes : List Pass) : Session :=
  runFrom (Session.step env sr) (Session.start env sr opened now) passes

/-- A session's run is a sequence of the agent's moves from its initial state. -/
theorem after_does (env : Env) (sr : StartRequest) (opened : Bool) (now : ℤ) (passes : List Pass) :
    ∃ deadline, Does env Works { Session.init with hsDeadline := deadline }
      (readOver env sr (Session.start env sr opened now) passes) (after env sr opened now passes) := by
  obtain ⟨deadline, hstart⟩ := start_does env sr opened now
  exact ⟨deadline, hstart.trans (run_does env sr _ passes)⟩

/-- What a session does from its beginning on is numbered. -/
theorem numbered_does {env : Env} {s : Session} {deadline : ℤ} {output : List Bytes}
    (h : Does env Works { Session.init with hsDeadline := deadline } output s) : Numbered env s := by
  refine h.invariant (fun s act hact hs => hs.perform hact) ⟨rfl, ?_, ?_, ?_⟩
  · intro i m hget
    cases hget
  · intro e he
    cases he
  · intro f hf
    cases hf

/-- The stream messages of every run are numbered from zero without a gap. -/
theorem numbered_after (env : Env) (sr : StartRequest) (opened : Bool) (now : ℤ) (passes : List Pass) :
    Numbered env (after env sr opened now passes) := by
  obtain ⟨deadline, hdoes⟩ := after_does env sr opened now passes
  exact numbered_does hdoes

/-- The stream messages carry what was read from the pty. -/
theorem printed_after (env : Env) (sr : StartRequest) (opened : Bool) (now : ℤ) (passes : List Pass) :
    printed (streams (after env sr opened now passes)) =
      readOver env sr (Session.start env sr opened now) passes := by
  obtain ⟨deadline, hdoes⟩ := after_does env sr opened now passes
  exact printed_does hdoes

/-! ## The client -/

/-- What the client makes of a frame: the number of a stream message, and the message. -/
def packetOf (frame : Bytes) : Option (ℕ × AgentMessage) :=
  match deserialize frame blankMessage [] with
  | .ok (true, m, _) => if m.messageType = kMsgOutputStreamData then some (m.sequence.toInt.toNat, m) else none
  | _ => none

/-- The messages that the client has put together. -/
def client (delivered : List Bytes) : List AgentMessage := (Reassembly.run (delivered.filterMap packetOf)).taken

section Client

variable {env : Env} {s : Session} (hids : ∀ n, CanonicalUuid (env.uuid n)) (hcount : (streams s).length ≤ 2 ^ 63)

include hids in
/-- Messages that are not output yield no packet. -/
theorem packetOf_quiet {m : AgentMessage} (h : Quiet env m) : packetOf (serialize env.sha256Raw m) = none := by
  obtain ⟨htype, n, hid⟩ := h
  have hfits : m.messageType.length ≤ 32 ∧ (∀ c ∈ m.messageType.getLast?, c ≠ 32 ∧ c ≠ 0) ∧
      m.messageType ≠ kMsgOutputStreamData := by
    obtain htype | htype := htype
    · rw [htype]
      decide +kernel
    · rw [htype]
      decide +kernel
  unfold packetOf
  rw [MgsFraming.deserialize_serialize _ m blankMessage [] hfits.1 hfits.2.1 (hid ▸ hids n)]
  exact if_neg hfits.2.2

include hids in
/-- A stream message with its number reads back as the packet of that number. -/
theorem packetOf_stamped {i : ℕ} {m : AgentMessage} (h : Stamped env i m) (hi : i < 2 ^ 63) :
    packetOf (serialize env.sha256Raw m) = some (i, m) := by
  obtain ⟨htype, hsequence, n, hid⟩ := h
  have hfits : kMsgOutputStreamData.length ≤ 32 ∧ ∀ c ∈ kMsgOutputStreamData.getLast?, c ≠ 32 ∧ c ≠ 0 := by
    decide +kernel
  rw [← htype] at hfits
  have hnumber : m.sequence.toInt = i := by
    rw [hsequence]
    exact Int64.toInt_ofInt_of_le (by omega) (by omega)
  unfold packetOf
  rw [MgsFraming.deserialize_serialize _ m blankMessage [] hfits.1 hfits.2 (hid ▸ hids n)]
  dsimp only
  rw [if_pos htype, hnumber, Int.toNat_natCast]

include hids hcount in
/-- What the client reads from frames of the session. -/
theorem packets_genuine (h : Numbered env s) {delivered : List Bytes} (hsent : ∀ f ∈ delivered, f ∈ frames env s) :
    Reassembly.Genuine (streams s) (delivered.filterMap packetOf) := by
  intro p hp
  obtain ⟨f, hf, hpacket⟩ := List.mem_filterMap.mp hp
  obtain ⟨m, hframe, hstream | hquiet⟩ := h.framed f (hsent f hf)
  · obtain ⟨i, hget⟩ := List.mem_iff_getElem?.mp hstream
    have hi : i < 2 ^ 63 := lt_of_lt_of_le (List.getElem?_eq_some_iff.mp hget).1 hcount
    rw [hframe, packetOf_stamped hids (h.stamped i m hget) hi] at hpacket
    rw [← Option.some.inj hpacket]
    exact hget
  · rw [hframe, packetOf_quiet hids hquiet] at hpacket
    exact absurd hpacket (Option.some_ne_none p).symm

include hids hcount in
/-- Where every stream message was delivered, every number has arrived. -/
theorem packets_all (h : Numbered env s) {delivered : List Bytes}
    (hall : ∀ m ∈ streams s, serialize env.sha256Raw m ∈ delivered) (i : ℕ) (hi : i < (streams s).length) :
    i ∈ (delivered.filterMap packetOf).map Prod.fst := by
  have hget? : (streams s)[i]? = some (streams s)[i] := List.getElem?_eq_getElem hi
  have hpacket := packetOf_stamped hids (h.stamped i _ hget?) (by omega)
  exact List.mem_map.mpr ⟨_, List.mem_filterMap.mpr ⟨_, hall _ (List.getElem_mem hi), hpacket⟩, rfl⟩

end Client

/-- What fewer messages print begins what more of them print. -/
theorem printed_initial {l l' : List AgentMessage} (h : l <+: l') : printed l <+: printed l' :=
  (h.filter _).map _

/-- What a client has of the frames of a session. -/
theorem client_of_numbered {env : Env} {s : Session} (h : Numbered env s) {urandom : ℕ → Option (Vector UInt8 16)}
    {clock : ℕ → ℤ} (hids : ∀ n, env.uuid n = uuid4 (urandom n) (clock n)) (hcount : (streams s).length ≤ 2 ^ 63)
    {delivered : List Bytes} (hsent : ∀ f ∈ delivered, f ∈ frames env s) :
    (∀ n, Reassembly.FirstMissing (delivered.filterMap packetOf) n → client delivered = (streams s).take n) ∧
    printed (client delivered) <+: printed (streams s) ∧
    ((∀ m ∈ streams s, serialize env.sha256Raw m ∈ delivered) → client delivered = streams s) := by
  have hcanonical (n : ℕ) : CanonicalUuid (env.uuid n) := hids n ▸ canonical_uuid4 _ _
  have hgenuine := packets_genuine hcanonical hcount h hsent
  refine ⟨?_, printed_initial (Reassembly.run_taken_initial hgenuine), ?_⟩
  · intro n hmissing
    exact (Reassembly.run_taken hgenuine hmissing).1
  · intro hall
    exact Reassembly.run_taken_all hgenuine (packets_all hcanonical hcount h hall)

/-- **What reaches the client.** Of a session's frames any may be lost, repeated or overtaken: the
client has the messages before the first whose frame is missing, and the output in them is a first
part of what the passes read from the pty; with every stream message delivered it is all of it.
SRC: session.cpp:49-104,353-467,472-493 -/
theorem output_delivered (env : Env) (sr : StartRequest) (opened : Bool) (now : ℤ) (passes : List Pass)
    (urandom : ℕ → Option (Vector UInt8 16)) (clock : ℕ → ℤ) (hids : ∀ n, env.uuid n = uuid4 (urandom n) (clock n))
    (hcount : (streams (after env sr opened now passes)).length ≤ 2 ^ 63) (delivered : List Bytes)
    (hsent : ∀ f ∈ delivered, f ∈ frames env (after env sr opened now passes)) :
    (∀ n, Reassembly.FirstMissing (delivered.filterMap packetOf) n →
      client delivered = (streams (after env sr opened now passes)).take n) ∧
    printed (client delivered) <+: readOver env sr (Session.start env sr opened now) passes ∧
    ((∀ m ∈ streams (after env sr opened now passes), serialize env.sha256Raw m ∈ delivered) →
      client delivered = streams (after env sr opened now passes) ∧
        printed (client delivered) = readOver env sr (Session.start env sr opened now) passes) := by
  obtain ⟨hmissing, hinitial, hwhole⟩ :=
    client_of_numbered (numbered_after env sr opened now passes) hids hcount hsent
  rw [← printed_after]
  exact ⟨hmissing, hinitial, fun hall => ⟨hwhole hall, congrArg printed (hwhole hall)⟩⟩

/-! ## A frame that is sent again -/

/-- An agent whose ids count up. -/
def countingEnv : Env := { exampleEnv with uuid := fun n => uuid4 (some (Vector.replicate 16 (UInt8.ofNat n))) 0 }

/-- A pass without a message, in which the shell has printed this. -/
def printing (b : UInt8) (bs : Bytes) : Pass :=
  { receiving handshakeResponse with
    reads := [.data b bs, .again]
    recv := .nothing }

/-- A pass in which what has been sent has been waiting for a second. -/
def late : Pass :=
  { receiving handshakeResponse with
    pumpMs := 1000
    recv := .nothing }

/-- The shell starts and prints, with a frame that is sent again in between. -/
def talking : List Pass := [receiving handshakeResponse, printing 104 (lit "i "), late, printing 121 (lit "ou")]

/-- The frames arrive in reverse, one of them twice. -/
theorem resent_delivered :
    let s := after countingEnv exampleRequest true 0 talking
    (frames countingEnv s).length = (streams s).length + 3 ∧
      client (frames countingEnv s).reverse = streams s ∧
      printed (client (frames countingEnv s).reverse) = [lit "hi ", lit "you"] := by
  have hdelivered := output_delivered countingEnv exampleRequest true 0 talking
    (fun n => some (Vector.replicate 16 (UInt8.ofNat n))) (fun _ => 0) (fun _ => rfl) (by decide +kernel)
    (frames countingEnv (after countingEnv exampleRequest true 0 talking)).reverse fun f hf => List.mem_reverse.mp hf
  obtain ⟨hwhole, hprinted⟩ := hdelivered.2.2 (by decide +kernel)
  have hread : readOver countingEnv exampleRequest (Session.start countingEnv exampleRequest true 0) talking =
    [lit "hi ", lit "you"] := by decide +kernel
  exact ⟨by decide +kernel, hwhole, hprinted.trans hread⟩

end HaikuAgent.Analysis.OutputDelivery
