import HaikuAgent.Analysis.OrderedInput
import HaikuAgent.Analysis.WrittenFrames
import HaikuAgent.Model.SessionChannel

/-!
# From the channel to the shell

A session with its client, on a stream of frames that is cut in any way and may break off anywhere,
with writes that may fail. What the session handles of the messages in it is a first part of them,
in order (`Hears`), and what it takes and types is a function of that part alone (`taken`).
-/

set_option autoImplicit false

namespace HaikuAgent.Analysis.ChannelInput

open HaikuAgent.Foundation
open HaikuAgent.Model
open HaikuAgent.Model.Json
open HaikuAgent.Model.Mgs
open HaikuAgent.Model.Sessions
open HaikuAgent.Model.SessionChannel
open HaikuAgent.Model.WebSocket
open HaikuAgent.Interface.ServerFrames
open HaikuAgent.Analysis.AckedInput
open HaikuAgent.Analysis.OrderedInput
open HaikuAgent.Analysis.SessionPasses
open HaikuAgent.Analysis.WebSocketFrames
open HaikuAgent.Analysis.WebSocketReception (reassemble bytesOf drain_incomplete drain_complete readOf exampleHead
  exampleLink exampleSha1)

/-! ## The client -/

/-- The messages that the frames hold up to a close frame, for a client that may be inside one. -/
def toCome (c : Client) (frames : List ServerFrame) : List Frame :=
  reassemble c.fragOpcode c.fragPayload (frames.takeWhile fun f => f.opcode ≠ kOpClose)

/-- The frames are what the client has in its buffer and what the socket will give, of which `lost` does
not come. -/
def Coming (c : Client) (script : List ReadResult) (lost : Bytes) (frames : List ServerFrame) : Prop :=
  c.readBuf ++ (bytesOf script ++ lost) = frames.flatMap ServerFrame.encode

/-- Where everything is read, no frame is left. -/
theorem Coming.nil {c : Client} {script : List ReadResult} {lost : Bytes} {frames : List ServerFrame}
    (h : Coming c script lost frames) (hread : c.readBuf ++ (bytesOf script ++ lost) = []) : frames = [] := by
  rw [Coming, hread] at h
  cases frames with
  | nil => rfl
  | cons f frames =>
    rw [List.flatMap_cons] at h
    exact absurd (List.append_eq_nil_iff.mp h.symm).1 (List.cons_ne_nil _ _)

/-- A frame that is to come is put together with those behind it. -/
theorem toCome_cons {c : Client} {f : ServerFrame} (frames : List ServerFrame) (h : f.opcode ≠ kOpClose) :
    toCome c (f :: frames) =
      reassemble c.fragOpcode c.fragPayload (f :: frames.takeWhile fun f => f.opcode ≠ kOpClose) := by
  unfold toCome
  rw [List.takeWhile_cons, if_pos (decide_eq_true h)]

/-- What a client has of a message is left alone by its sending. -/
theorem send_keeps (link : Link) (c : Client) (opcode : UInt8) (payload : Bytes) :
    (c.send link opcode payload).2.readBuf = c.readBuf ∧ (c.send link opcode payload).2.fragOpcode = c.fragOpcode ∧
      (c.send link opcode payload).2.fragPayload = c.fragPayload := by
  unfold Client.send
  split_ifs
  · exact ⟨rfl, rfl, rfl⟩
  · dsimp only [Client.write]
    cases link.writeError c.writes.length with
    | some err => exact ⟨rfl, rfl, rfl⟩
    | none => exact ⟨rfl, rfl, rfl⟩

/-- Sending does not change what is to come. -/
theorem toCome_send (link : Link) (c : Client) (opcode : UInt8) (payload : Bytes) (frames : List ServerFrame) :
    toCome (c.send link opcode payload).2 frames = toCome c frames := by
  obtain ⟨-, hopcode, hpayload⟩ := send_keeps link c opcode payload
  unfold toCome
  rw [hopcode, hpayload]

/-- One frame is passed over, completes a message, or ends the stream. -/
theorem handleFrame_cases (link : Link) (c : Client) (f : ServerFrame) :
    (∃ c', c.handleFrame link (view f) = .next c' ∧ c'.readBuf = c.readBuf ∧
      ∀ frames, toCome c (f :: frames) = toCome c' frames) ∨
    (∃ m c', c.handleFrame link (view f) = .message m c' ∧ c'.readBuf = c.readBuf ∧
      ∀ frames, toCome c (f :: frames) = m :: toCome c' frames) ∨
    ∃ err c', c.handleFrame link (view f) = .failed err c' ∧ c'.readBuf = c.readBuf := by
  have hopcode : (view f).opcode = f.opcode := rfl
  have hfin : (view f).fin = f.fin := rfl
  have hpayload : (view f).payload = f.payload := rfl
  unfold Client.handleFrame
  rw [hopcode, hfin, hpayload]
  by_cases hping : f.opcode = kOpPing
  · have hgoes : f.opcode ≠ kOpClose := by
      rw [hping]
      decide
    refine .inl ⟨_, if_pos hping, (send_keeps link c _ _).1, ?_⟩
    intro frames
    rw [toCome_send, toCome_cons frames hgoes, reassemble, if_pos (.inl hping)]
    rfl
  rw [if_neg hping]
  by_cases hpong : f.opcode = kOpPong
  · have hgoes : f.opcode ≠ kOpClose := by
      rw [hpong]
      decide
    refine .inl ⟨_, if_pos hpong, rfl, ?_⟩
    intro frames
    rw [toCome_cons frames hgoes, reassemble, if_pos (.inr hpong)]
    rfl
  rw [if_neg hpong]
  by_cases hclose : f.opcode = kOpClose
  · rw [if_pos hclose]
    exact .inr (.inr ⟨_, _, rfl, (send_keeps link c _ _).1⟩)
  rw [if_neg hclose]
  have hdata : ¬(f.opcode = kOpPing ∨ f.opcode = kOpPong) := not_or.mpr ⟨hping, hpong⟩
  by_cases hcontinuation : f.opcode = 0
  · rw [if_pos hcontinuation]
    cases hf : f.fin with
    | true =>
      refine .inr (.inl ⟨_, _, if_pos rfl, rfl, ?_⟩)
      intro frames
      rw [toCome_cons frames hclose, reassemble, if_neg hdata, if_pos hcontinuation, if_pos hf]
      rfl
    | false =>
      refine .inl ⟨_, if_neg Bool.false_ne_true, rfl, ?_⟩
      intro frames
      rw [toCome_cons frames hclose, reassemble, if_neg hdata, if_pos hcontinuation, if_neg (by simp [hf])]
      rfl
  · rw [if_neg hcontinuation]
    cases hf : f.fin with
    | true =>
      refine .inr (.inl ⟨_, _, if_neg (by simp), rfl, ?_⟩)
      intro frames
      rw [toCome_cons frames hclose, reassemble, if_neg hdata, if_neg hcontinuation, if_pos hf]
      rfl
    | false =>
      refine .inl ⟨_, if_pos (by simp), rfl, ?_⟩
      intro frames
      rw [toCome_cons frames hclose, reassemble, if_neg hdata, if_neg hcontinuation, if_neg (by simp [hf])]
      rfl

/-- What the frames in the buffer come to. -/
theorem drain_cases (link : Link) (later : Bytes) (frames : List ServerFrame) (c : Client)
    (h : c.readBuf ++ later = frames.flatMap ServerFrame.encode) :
    (∃ c' rest, c.drain link = .starved c' ∧ c'.readBuf ++ later = rest.flatMap ServerFrame.encode ∧
      toCome c frames = toCome c' rest) ∨
    (∃ m c' rest, c.drain link = .message m c' ∧ c'.readBuf ++ later = rest.flatMap ServerFrame.encode ∧
      toCome c frames = m :: toCome c' rest) ∨
    ∃ err c', c.drain link = .failed err c' := by
  induction frames generalizing c with
  | nil =>
    have hempty : c.readBuf = [] := (List.append_eq_nil_iff.mp h).1
    have hparse : parseFrame c.readBuf = .incomplete := by
      rw [hempty]
      rfl
    exact .inl ⟨c, [], drain_incomplete link c hparse, h, rfl⟩
  | cons f frames ih =>
    have hfront := h
    rw [List.flatMap_cons] at hfront
    obtain ⟨rest, hparse, hrest⟩ | ⟨hparse, -⟩ := parseFrame_delimits.scan_front f c.readBuf later _ hfront
    · rw [drain_complete link c (view f) rest hparse]
      have hread : toCome c (f :: frames) = toCome { c with readBuf := rest } (f :: frames) := rfl
      rw [hread]
      obtain ⟨c', hhandle, hbuf, hmeans⟩ | ⟨m, c', hhandle, hbuf, hmeans⟩ | ⟨err, c', hhandle, -⟩ :=
        handleFrame_cases link { c with readBuf := rest } f
      · rw [hhandle, hmeans]
        exact ih c' (by rw [hbuf]; exact hrest)
      · rw [hhandle, hmeans]
        exact .inr (.inl ⟨m, c', frames, rfl, by rw [hbuf]; exact hrest, rfl⟩)
      · rw [hhandle]
        exact .inr (.inr ⟨err, c', rfl⟩)
    · exact .inl ⟨c, f :: frames, drain_incomplete link c hparse, h, rfl⟩

/-- **A call of `recv`** gives the next message of the stream, or nothing of it, or it fails. -/
theorem recv_cases (link : Link) (lost : Bytes) (script : List ReadResult) (frames : List ServerFrame) (c : Client)
    (h : Coming c script lost frames) :
    (∃ m c' script' rest, c.recv link script = (.message m, c', script') ∧ Coming c' script' lost rest ∧
      toCome c frames = m :: toCome c' rest) ∨
    (∃ c' script' rest, (c.recv link script = (.timeout, c', script') ∨ c.recv link script = (.waiting, c', script')) ∧
      Coming c' script' lost rest ∧ toCome c frames = toCome c' rest) ∨
    ∃ err c' script', c.recv link script = (.failed err, c', script') := by
  unfold Client.recv
  split_ifs with hshut
  · exact .inr (.inr ⟨_, _, _, rfl⟩)
  clear hshut
  induction script generalizing c frames with
  | nil =>
    unfold Client.recvLoop
    obtain ⟨c', rest, hdrain, hcoming, hmeans⟩ | ⟨m, c', rest, hdrain, hcoming, hmeans⟩ | ⟨err, c', hdrain⟩ :=
      drain_cases link _ frames c h
    · rw [hdrain]
      exact .inr (.inl ⟨c', [], rest, .inr rfl, hcoming, hmeans⟩)
    · rw [hdrain]
      exact .inl ⟨m, c', [], rest, rfl, hcoming, hmeans⟩
    · rw [hdrain]
      exact .inr (.inr ⟨err, c', [], rfl⟩)
  | cons r script ih =>
    unfold Client.recvLoop
    obtain ⟨c', rest, hdrain, hcoming, hmeans⟩ | ⟨m, c', rest, hdrain, hcoming, hmeans⟩ | ⟨err, c', hdrain⟩ :=
      drain_cases link _ frames c h
    · rw [hdrain, hmeans]
      cases r with
      | timeout => exact .inr (.inl ⟨c', script, rest, .inl rfl, hcoming, rfl⟩)
      | closed => exact .inr (.inr ⟨_, _, script, rfl⟩)
      | failed err => exact .inr (.inr ⟨_, _, script, rfl⟩)
      | data first more =>
        refine ih rest { c' with readBuf := c'.readBuf ++ first :: more } ?_
        unfold Coming
        rw [← hcoming]
        simp only [bytesOf, List.append_assoc, List.cons_append]
    · rw [hdrain, hmeans]
      exact .inl ⟨m, c', r :: script, rest, rfl, hcoming, rfl⟩
    · rw [hdrain]
      exact .inr (.inr ⟨err, c', r :: script, rfl⟩)

/-- Nor does sending many frames: it leaves the buffer and the fragments as they are. -/
theorem sendEach_keeps (link : Link) (frames : List Bytes) (c : Client) :
    (sendEach link c frames).readBuf = c.readBuf ∧ (sendEach link c frames).fragOpcode = c.fragOpcode ∧
      (sendEach link c frames).fragPayload = c.fragPayload := by
  induction frames generalizing c with
  | nil => exact ⟨rfl, rfl, rfl⟩
  | cons frame frames ih =>
    obtain ⟨hbuf, hopcode, hpayload⟩ := ih (c.send link kOpBinary frame).2
    obtain ⟨hbuf', hopcode', hpayload'⟩ := send_keeps link c kOpBinary frame
    exact ⟨hbuf.trans hbuf', hopcode.trans hopcode', hpayload.trans hpayload'⟩

/-- So what is to come stays so. -/
theorem coming_sendEach (link : Link) (frames : List Bytes) {c : Client} {script : List ReadResult} {lost : Bytes}
    {stream : List ServerFrame} (h : Coming c script lost stream) :
    Coming (sendEach link c frames) script lost stream ∧ toCome (sendEach link c frames) stream = toCome c stream := by
  obtain ⟨hbuf, hopcode, hpayload⟩ := sendEach_keeps link frames c
  unfold Coming toCome
  rw [hbuf, hopcode, hpayload]
  exact ⟨h, rfl⟩

/-! ## What a session takes of what it hears -/

/-- A handshake response that is accepted. -/
def IsResponse (strtod : Bytes → Double × ℕ) (m : AgentMessage) : Prop :=
  IsInput m ∧ m.payloadType = kPayloadHandshakeResponse ∧ (handshakeResponseOk strtod m.payload).toBool = true

instance decidableIsInput (m : AgentMessage) : Decidable (IsInput m) := inferInstanceAs (Decidable (_ = _))

instance decidableIsResponse (strtod : Bytes → Double × ℕ) (m : AgentMessage) : Decidable (IsResponse strtod m) :=
  inferInstanceAs (Decidable (_ ∧ _))

/-- The input that has one number after the other, from `next` on. -/
def inOrder (next : ℤ) : List AgentMessage → List AgentMessage
  | [] => []
  | m :: ms => if IsInput m ∧ m.sequence.toInt = next then m :: inOrder (next + 1) ms else inOrder next ms

/-- The first handshake response that is accepted, and the input in order after it. -/
def taken (strtod : Bytes → Double × ℕ) : List AgentMessage → List AgentMessage
  | [] => []
  | m :: ms => if IsResponse strtod m then m :: inOrder (m.sequence.toInt + 1) ms else taken strtod ms

/-- A further message is in order if it is input with the next number. -/
theorem inOrder_concat (next : ℤ) (ms : List AgentMessage) (m : AgentMessage) :
    inOrder next (ms ++ [m]) = inOrder next ms ++
      if IsInput m ∧ m.sequence.toInt = next + (inOrder next ms).length then [m] else [] := by
  induction ms generalizing next with
  | nil =>
    unfold inOrder
    rw [List.length_nil, Int.ofNat_zero, add_zero]
    rfl
  | cons m' ms ih =>
    rw [List.cons_append, inOrder, inOrder]
    by_cases hnext : IsInput m' ∧ m'.sequence.toInt = next
    · rw [if_pos hnext, if_pos hnext, ih, List.cons_append, List.length_cons, Int.natCast_succ, add_assoc, add_comm 1]
    · rw [if_neg hnext, if_neg hnext, ih]

section Concat

variable {strtod : Bytes → Double × ℕ} {ms : List AgentMessage}

/-- Before the response. -/
theorem taken_concat_early (h : taken strtod ms = []) (m : AgentMessage) :
    taken strtod (ms ++ [m]) = if IsResponse strtod m then [m] else [] := by
  induction ms with
  | nil => rfl
  | cons m' ms ih =>
    rw [taken] at h
    split_ifs at h with hresponse
    rw [List.cons_append, taken, if_neg hresponse]
    exact ih h

/-- After the response. -/
theorem taken_concat_late {response : AgentMessage} {rest : List AgentMessage} (h : taken strtod ms = response :: rest)
    (m : AgentMessage) :
    taken strtod (ms ++ [m]) = taken strtod ms ++
      if IsInput m ∧ m.sequence.toInt = response.sequence.toInt + 1 + rest.length then [m] else [] := by
  induction ms with
  | nil => cases h
  | cons m' ms ih =>
    rw [taken] at h
    rw [List.cons_append, taken, taken]
    by_cases hresponse : IsResponse strtod m'
    · rw [if_pos hresponse] at h ⊢
      obtain ⟨rfl, rfl⟩ := List.cons.inj h
      rw [if_pos hresponse, inOrder_concat, List.cons_append]
    · rw [if_neg hresponse] at h ⊢
      rw [if_neg hresponse, ih h]

/-- What is no input is not taken. -/
theorem taken_concat_other {m : AgentMessage} (hm : ¬IsInput m) : taken strtod (ms ++ [m]) = taken strtod ms := by
  cases h : taken strtod ms with
  | nil => rw [taken_concat_early h, if_neg fun hresponse => hm hresponse.1]
  | cons response rest => rw [taken_concat_late h, if_neg fun hnext => hm hnext.1, List.append_nil, h]

end Concat

variable {env : Env} (sr : StartRequest)

/-- A pass that handles no message takes none. -/
theorem accepted_of_none {s : Session} {p : Pass} (h : handles env s p = none) : accepted (s.step env sr p) = accepted s := by
  cases step_cases env sr s p with
  | silent hhandles hsilent hphase => exact Silent.accepted hsilent
  | early m hhandles => cases h.symm.trans hhandles
  | response m hhandles => cases h.symm.trans hhandles
  | skipped m hhandles => cases h.symm.trans hhandles
  | next m hhandles => cases h.symm.trans hhandles

/-- A pass that handles a message takes what the messages heard so far, with this one, come to. -/
theorem accepted_of_handles {s : Session} {p : Pass} {m : AgentMessage} (hm : handles env s p = some m)
    (hordered : Ordered s) {heard : List AgentMessage} (h : accepted s = taken env.strtod heard) :
    accepted (s.step env sr p) = taken env.strtod (heard ++ [m]) := by
  cases step_cases env sr s p with
  | silent hhandles hsilent hphase => rw [Silent.accepted hsilent, taken_concat_other (hhandles m hm), h]
  | early m' hhandles hinput hstart hnot hinputs =>
    obtain rfl := Option.some.inj (hhandles.symm.trans hm)
    have hnone := hordered.early hstart
    rw [accepted_of_acknowledged hinputs, hnone, taken_concat_early (h.symm.trans hnone),
      if_neg fun hresponse => hnot hresponse.2]
  | response m' hhandles hinput hstart htype hok hinputs =>
    obtain rfl := Option.some.inj (hhandles.symm.trans hm)
    have hnone := hordered.early hstart
    rw [accepted_of_accepted hinputs, hnone, taken_concat_early (h.symm.trans hnone), if_pos ⟨hinput, htype, hok⟩]
    rfl
  | skipped m' hhandles hinput hstart hseq hinputs =>
    obtain rfl := Option.some.inj (hhandles.symm.trans hm)
    obtain ⟨response, rest, haccepted, hexpected⟩ := hordered.expected hstart
    rw [accepted_of_acknowledged hinputs, taken_concat_late (h.symm.trans haccepted),
      if_neg fun hnext => hseq (hnext.2.trans hexpected.symm), List.append_nil, h]
  | next m' hhandles hinput hstart hseq hinputs =>
    obtain rfl := Option.some.inj (hhandles.symm.trans hm)
    obtain ⟨response, rest, haccepted, hexpected⟩ := hordered.expected hstart
    rw [accepted_of_accepted hinputs, taken_concat_late (h.symm.trans haccepted),
      if_pos ⟨hinput, hseq.trans hexpected⟩, h]

/-! ## What is typed -/

/-- A first part of what the input types was written; all of it while the session goes on. -/
structure Keyed (s : Session) : Prop where
  front : written s <+: (accepted s).tail.flatMap keystrokes
  whole : Goes s.phase → Typed s

/-- Nothing is written; this is all if there was nothing to write. -/
theorem nothing_front (s : Session) (keys : Bytes) {running : Option Bool} (h : running = some true → keys = []) :
    ∃ front, front <+: keys ∧ written s = written s ++ front ∧ (running = some true → front = keys) :=
  ⟨[], List.nil_prefix, (List.append_nil _).symm, fun hrunning => (h hrunning).symm⟩

/-- Nothing is written, and the session stops. -/
theorem stopped_front (s : Session) (keys : Bytes) :
    ∃ front, front <+: keys ∧ written s = written s ++ front ∧ (some false = some true → front = keys) := by
  refine nothing_front s keys ?_
  intro hrunning
  cases hrunning

/-- What is written of some keys is a first part of them, and all where the writing goes on. -/
theorem writeKeys_front (writes : List PtyWrite) (s : Session) (keys : Bytes) :
    ∃ front, front <+: keys ∧ written (s.writeKeys keys writes).2 = written s ++ front ∧
      ((s.writeKeys keys writes).1 = some true → front = keys) := by
  induction writes generalizing s keys with
  | nil =>
    unfold Session.writeKeys
    refine nothing_front s keys ?_
    intro hrunning
    by_contra hkeys
    rw [if_neg hkeys] at hrunning
    cases hrunning
  | cons w writes ih =>
    unfold Session.writeKeys
    split_ifs with hkeys
    · exact nothing_front s keys fun _ => hkeys
    · cases w with
      | count n =>
        cases n with
        | zero => exact stopped_front s keys
        | succ n =>
          obtain ⟨front, hfront, hwritten, hwhole⟩ := ih (s.record (.write (keys.take (n + 1)))) (keys.drop (n + 1))
          refine ⟨keys.take (n + 1) ++ front, ?_, ?_, ?_⟩
          · conv_rhs => rw [← List.take_append_drop (n + 1) keys]
            exact (List.prefix_append_right_inj _).mpr hfront
          · refine hwritten.trans ?_
            rw [written_record, List.append_assoc]
            rfl
          · intro hrunning
            rw [hwhole hrunning, List.take_append_drop]
      | again => exact ih s keys
      | failed => exact stopped_front s keys

/-- A session that has ended does not go on. -/
theorem not_goes_ended : ¬Goes .ended := by decide

/-- Nor does one that is stuck. -/
theorem not_goes_stuck : ¬Goes .stuck := by decide

/-- Nor does one that is over. -/
theorem not_goes_of_over {phase : Phase} (h : Over phase) : ¬Goes phase := by
  obtain rfl | rfl | rfl := h
  · decide
  · decide
  · decide

/-- An input message writes a first part of its keystrokes, and all if the session goes on. -/
theorem applyInput_front (env : Env) (s : Session) (p : Pass) (m : AgentMessage) :
    ∃ front, front <+: keystrokes m ∧ written (s.applyInput env sr p m) = written s ++ front ∧
      (Goes (s.applyInput env sr p m).phase → front = keystrokes m) := by
  unfold Session.applyInput keystrokes
  by_cases hsize : m.payloadType = kPayloadSize
  · have hnot : m.payloadType ≠ kPayloadOutput := by
      rw [hsize]
      decide
    rw [if_pos hsize, if_neg hnot]
    refine ⟨[], List.nil_prefix, ?_, fun _ => rfl⟩
    split
    split_ifs
    · exact written_record _ _
    · exact (List.append_nil _).symm
  rw [if_neg hsize]
  by_cases hout : m.payloadType = kPayloadOutput
  · rw [if_pos hout, if_pos hout]
    obtain ⟨front, hfront, hwritten, hwhole⟩ := writeKeys_front p.writes s m.payload
    refine ⟨front, hfront, ?_⟩
    generalize s.writeKeys m.payload p.writes = result at hwritten hwhole ⊢
    obtain ⟨running, t⟩ := result
    cases running with
    | none => exact ⟨hwritten, fun h => absurd h not_goes_stuck⟩
    | some running =>
      cases running with
      | true => exact ⟨hwritten, fun _ => hwhole rfl⟩
      | false => exact ⟨((closed_written env).teardown sr t p).trans hwritten, fun h => absurd h not_goes_ended⟩
  · rw [if_neg hout, if_neg hout]
    exact ⟨[], List.nil_prefix, (List.append_nil _).symm, fun _ => rfl⟩

/-- A pass writes a first part of what its message types; all of it if the session goes on. -/
theorem keyed_step {s : Session} {p : Pass} (hordered : Ordered s) (h : Keyed s) : Keyed (s.step env sr p) := by
  obtain ⟨hnone, -⟩ := written_step env sr s p
  have hkeep (happlied : applied env s p = none)
      (htail : (accepted (s.step env sr p)).tail = (accepted s).tail)
      (hphase : Goes (s.step env sr p).phase → Goes s.phase) : Keyed (s.step env sr p) := by
    refine ⟨?_, ?_⟩
    · rw [hnone happlied, htail]
      exact h.front
    · intro hgoes
      unfold Typed
      rw [hnone happlied, htail]
      exact h.whole (hphase hgoes)
  have hnotMain (hstart : s.phase = .handshake) : applied env s p = none :=
    applied_of_not_main env s p (by rw [hstart]; decide)
  cases step_cases env sr s p with
  | silent hhandles hsilent hphase =>
    refine hkeep (Option.eq_none_iff_forall_ne_some.mpr fun m hm => ?_) (by rw [Silent.accepted hsilent]) ?_
    · obtain ⟨-, hhandled, hinput, -⟩ := (applied_eq_some env s p m).mp hm
      exact hhandles m hhandled hinput
    · intro hgoes
      obtain hsame | hover := hphase
      · rwa [hsame] at hgoes
      · exact absurd hgoes (not_goes_of_over hover)
  | early m hhandles hm hstart hnot hinputs hphase =>
    exact hkeep (hnotMain hstart) (by rw [accepted_of_acknowledged hinputs]) fun _ => .inl hstart
  | response m hhandles hm hstart htype hok hinputs hphase =>
    exact hkeep (hnotMain hstart) (by rw [accepted_of_accepted hinputs, hordered.early hstart]; rfl) fun _ => .inl hstart
  | skipped m hhandles hm hstart hseq hinputs hwindow hphase =>
    refine hkeep (Option.eq_none_iff_forall_ne_some.mpr fun m' hm' => ?_) (by rw [accepted_of_acknowledged hinputs])
      fun _ => .inr hstart
    obtain ⟨-, hhandled, -, hnext⟩ := (applied_eq_some env s p m').mp hm'
    cases hhandles.symm.trans hhandled
    exact hseq hnext
  | next m hhandles hm hstart hseq hinputs hwindow hphase =>
    obtain ⟨response, rest, haccepted, -⟩ := hordered.expected hstart
    have htyped : written s = (accepted s).tail.flatMap keystrokes := h.whole (.inr hstart)
    have htail : (accepted (s.step env sr p)).tail.flatMap keystrokes = written s ++ keystrokes m := by
      rw [htyped, accepted_of_accepted hinputs, haccepted]
      simp
    obtain ⟨hwritten, hsilent, -, hstep⟩ := step_of_handles sr s p (closed_written env) m hhandles
    obtain ⟨hearly, -⟩ | ⟨-, hstep⟩ := hstep
    · rw [hstart] at hearly
      cases hearly
    rw [← hsilent.nextExpected] at hseq
    obtain ⟨front, hfront, hwrites, hwhole⟩ := applyInput_front sr env (taking env (arrival env s p) p m) p m
    rw [← handleMain_next env sr _ p m hm hseq, ← hstep] at hwrites hwhole
    have htaking : written (taking env (arrival env s p) p m) = written s := by
      rw [← hwritten, ← written_sendAck env (arrival env s p) m]
      exact (written_record _ (.accept m)).trans (List.append_nil _)
    rw [htaking] at hwrites
    refine ⟨?_, ?_⟩
    · rw [htail, hwrites]
      exact (List.prefix_append_right_inj _).mpr hfront
    · intro hgoes
      unfold Typed
      rw [htail, hwrites, hwhole hgoes]

/-! ## One pass on the channel -/

/-- A pass that receives nothing handles nothing. -/
theorem handles_nothing (env : Env) (s : Session) (p : Pass) : handles env s (given p .nothing) = none := by
  unfold handles given
  cases s.phase <;> dsimp only [inbound] <;> split_ifs <;> rfl

section Comes

variable {s : Session} {p : Pass}

/-- What a pass of the handshake loop does with what it is given. -/
def handshakeRest (env : Env) (sr : StartRequest) (s : Session) (p : Pass) : Inbound → Session
  | .closed => { s with phase := .ended }
  | .nothing => s
  | .thrown => { s with phase := .thrown }
  | .message m => s.handleHandshake env sr p m

/-- What a pass of the main loop does with what it is given. -/
def mainRest (env : Env) (sr : StartRequest) (s : Session) (p : Pass) : Inbound → Session
  | .closed => s.teardown env sr p
  | .nothing => s
  | .thrown => { s with phase := .thrown }
  | .message m => s.handleMain env sr p m

/-- A pass of the handshake loop that stays in it comes to its message. -/
theorem comes_handshake (hstart : s.phase = .handshake)
    (hstays : (s.handshakePass env sr (given p .nothing)).phase = .handshake) (recv : Recv) :
    (∀ m, inbound recv = .message m → handles env s (given p recv) = some m) ∧
      s.handshakePass env sr (given p recv) =
        handshakeRest env sr (s.handshakePass env sr (given p .nothing)) (given p recv) (inbound recv) := by
  rw [handles_handshake env s _ hstart]
  unfold Session.handshakePass given at hstays ⊢
  dsimp only at hstays ⊢
  by_cases hstop : p.stop = true
  · rw [if_pos hstop] at hstays
    cases hstays
  rw [if_neg hstop] at hstays ⊢
  by_cases hlate : s.hsDeadline < p.now
  · rw [if_pos hlate] at hstays
    cases hstays
  rw [if_neg hlate] at hstays ⊢
  generalize s.pumpOutbox p.pumpMs = pumped at hstays ⊢
  obtain ⟨alive, t⟩ := pumped
  cases alive with
  | false => cases hstays
  | true =>
    rw [if_neg (by simp [hstop, hlate])]
    constructor
    · intro m hm
      rw [hm]
    · cases inbound recv <;> simp [handshakeRest, hstop, hlate, inbound]

/-- A pass of the main loop that stays in it comes to its message. -/
theorem comes_main (hstart : s.phase = .main) (hstays : (s.mainPass env sr (given p .nothing)).phase = .main)
    (recv : Recv) :
    (∀ m, inbound recv = .message m → handles env s (given p recv) = some m) ∧
      s.mainPass env sr (given p recv) =
        mainRest env sr (s.mainPass env sr (given p .nothing)) (given p recv) (inbound recv) := by
  rw [handles_main env s _ hstart]
  unfold Session.mainPass given at hstays ⊢
  dsimp only at hstays ⊢
  by_cases hstop : p.stop = true
  · rw [if_pos hstop] at hstays
    cases hstays
  rw [if_neg hstop] at hstays ⊢
  generalize s.pumpOutbox p.pumpMs = pumped at hstays ⊢
  obtain ⟨alive, t⟩ := pumped
  cases alive with
  | false => cases hstays
  | true =>
    dsimp only at hstays ⊢
    by_cases hidle : kIdleTimeoutSeconds < p.now - t.lastClientActivity
    · rw [if_pos hidle] at hstays
      cases hstays
    rw [if_neg hidle] at hstays ⊢
    generalize t.drain env true p.reads = drained at hstays ⊢
    obtain ⟨running, u⟩ := drained
    cases running with
    | none => cases hstays
    | some running =>
      cases running with
      | false => cases hstays
      | true =>
        rw [if_neg (by simp [hstop, hidle])]
        constructor
        · intro m hm
          rw [hm]
        · cases inbound recv <;> simp [mainRest, hstop, hidle, inbound]

/-- A pass that would stay in its loop comes to its `recv`, and does the rest from there. -/
theorem comes (hgoes : Goes s.phase) (hstays : (s.step env sr (given p .nothing)).phase = s.phase) (recv : Recv) :
    (∀ m, inbound recv = .message m → handles env s (given p recv) = some m) ∧
      (s.phase = .handshake ∧ s.step env sr (given p recv) =
          handshakeRest env sr (s.step env sr (given p .nothing)) (given p recv) (inbound recv) ∨
        s.phase = .main ∧ s.step env sr (given p recv) =
          mainRest env sr (s.step env sr (given p .nothing)) (given p recv) (inbound recv)) := by
  obtain hstart | hstart := hgoes
  · have hstep (recv : Recv) : s.step env sr (given p recv) = s.handshakePass env sr (given p recv) := by
      rw [Session.step, hstart]
    rw [hstep, hstart] at hstays
    rw [hstep, hstep]
    obtain ⟨hhandles, hrest⟩ := comes_handshake sr hstart hstays recv
    exact ⟨hhandles, .inl ⟨hstart, hrest⟩⟩
  · have hstep (recv : Recv) : s.step env sr (given p recv) = s.mainPass env sr (given p recv) := by
      rw [Session.step, hstart]
    rw [hstep, hstart] at hstays
    rw [hstep, hstep]
    obtain ⟨hhandles, hrest⟩ := comes_main sr hstart hstays recv
    exact ⟨hhandles, .inr ⟨hstart, hrest⟩⟩

/-- A channel that is closed ends the session. -/
theorem ended_of_closed (hgoes : Goes s.phase) (hstays : (s.step env sr (given p .nothing)).phase = s.phase) :
    (s.step env sr (given p .closed)).phase = .ended := by
  obtain ⟨-, ⟨-, hrest⟩ | ⟨-, hrest⟩⟩ := comes sr hgoes hstays .closed
  · rw [hrest]
    rfl
  · rw [hrest]
    rfl

end Comes

/-- A pass that finds the channel closed handles nothing. -/
theorem handles_closed {s : Session} {p : Pass} : handles env s (given p .closed) = none := by
  unfold handles given
  cases s.phase <;> dsimp only [inbound] <;> split_ifs <;> rfl

/-! ## A run on the channel -/

/-- A message that its frame carries as it is. -/
structure Carried (m : AgentMessage) : Prop where
  fits : m.messageType.length ≤ 32
  unpadded : ∀ c ∈ m.messageType.getLast?, c ≠ 32 ∧ c ≠ 0
  canonical : MgsFields.CanonicalUuid m.messageId

/-- Of the messages that were sent the session has heard the first; the others are still to come. -/
structure Hears (env : Env) (sha256Raw : Bytes → Vector UInt8 32) (lost : Bytes) (w : DataChannel)
    (heard later : List AgentMessage) : Prop where
  accepted_eq : accepted w.session = taken env.strtod heard
  ordered : Ordered w.session
  keyed : Keyed w.session
  coming : Goes w.session.phase → ∃ stream, Coming w.client w.script lost stream ∧
    (toCome w.client stream).map Frame.payload = later.map (serialize sha256Raw)

section Run

variable {sha256Raw : Bytes → Vector UInt8 32} {lost : Bytes} (link : Link)

/-- What a session that has heard as much as `w` makes of it. -/
theorem Hears.of_step {w : DataChannel} {heard later now rest : List AgentMessage} {p : Pass}
    (h : Hears env sha256Raw lost w heard later) {c : Client} {script : List ReadResult}
    (haccepted : accepted (w.session.step env sr p) = taken env.strtod (heard ++ now))
    (hcoming : Goes (w.session.step env sr p).phase → ∃ stream, Coming c script lost stream ∧
      (toCome c stream).map Frame.payload = rest.map (serialize sha256Raw)) :
    Hears env sha256Raw lost ⟨w.session.step env sr p, c, script⟩ (heard ++ now) rest :=
  ⟨haccepted, step_ordered env sr w.session p h.ordered, keyed_step sr h.ordered h.keyed, hcoming⟩

/-- A pass that is given nothing stays in its loop or leaves it for good. -/
theorem quiet_phase (w : DataChannel) (p : Pass) :
    (w.quiet env sr p).phase = w.session.phase ∨ Over (w.quiet env sr p).phase := by
  have hnothing := handles_nothing env w.session p
  unfold DataChannel.quiet
  cases step_cases env sr w.session (given p .nothing) with
  | silent hhandles hsilent hphase => exact hphase
  | early m hhandles => cases hhandles.symm.trans hnothing
  | response m hhandles => cases hhandles.symm.trans hnothing
  | skipped m hhandles => cases hhandles.symm.trans hnothing
  | next m hhandles => cases hhandles.symm.trans hnothing

/-- A session that waits for ever. -/
theorem Hears.stuck {s : Session} {c : Client} {script : List ReadResult} {heard later : List AgentMessage}
    (h : Hears env sha256Raw lost ⟨s, c, script⟩ heard later) (c' : Client) (script' : List ReadResult) :
    Hears env sha256Raw lost ⟨{ s with phase := .stuck }, c', script'⟩ heard later := by
  refine ⟨h.accepted_eq, ?_, ⟨h.keyed.front, fun hgoes => absurd hgoes not_goes_stuck⟩, fun hgoes => absurd hgoes not_goes_stuck⟩
  exact h.ordered.keep rfl (fun hmain => absurd (.inr hmain) not_goes_stuck) (.inr (.inr (.inl rfl)))

/-- A frame that carries a message is received as this message. -/
theorem inbound_carried {m : AgentMessage} (h : Carried m) {f : Frame} (hf : f.payload = serialize sha256Raw m) :
    inbound (.frame f) = .message m := by
  unfold inbound
  dsimp only
  rw [hf, MgsFraming.deserialize_serialize sha256Raw m blankMessage [] h.fits h.unpadded h.canonical]

/-- **The step**: a pass hears the next message, or none. -/
theorem hears_step {w : DataChannel} {heard later : List AgentMessage}
    (hcarried : ∀ m ∈ later, Carried m) (h : Hears env sha256Raw lost w heard later) (p : Pass) :
    ∃ now rest, later = now ++ rest ∧ Hears env sha256Raw lost (w.step link env sr p) (heard ++ now) rest := by
  have hnone {recv : Recv} (hhandles : handles env w.session (given p recv) = none) :
      accepted (w.session.step env sr (given p recv)) = taken env.strtod (heard ++ []) := by
    rw [List.append_nil, ← h.accepted_eq]
    exact accepted_of_none sr hhandles
  have hquiet := hnone (handles_nothing env w.session p)
  unfold DataChannel.step
  dsimp only
  split_ifs with hcomes
  · obtain ⟨hgoes, hstays⟩ := hcomes
    obtain ⟨stream, hcoming, hmeans⟩ := h.coming hgoes
    obtain ⟨hsending, hkeeps⟩ := coming_sendEach link (framesSince env w.session (w.quiet env sr p)) hcoming
    rw [← hkeeps] at hmeans
    obtain ⟨f, c, script, rest, hrecv, hcoming', hnext⟩ | ⟨c, script, rest, hrecv, hcoming', hsame⟩ |
      ⟨err, c, script, hrecv⟩ := recv_cases link lost w.script stream _ hsending
    · rw [DataChannel.sending, hrecv]
      rw [hnext, List.map_cons] at hmeans
      cases later with
      | nil => cases hmeans
      | cons m later =>
        obtain ⟨hpayload, hrest⟩ := List.cons.inj hmeans
        obtain ⟨hhandles, -⟩ := comes sr hgoes hstays (.frame f)
        have hhears := hhandles m (inbound_carried (hcarried m List.mem_cons_self) hpayload)
        refine ⟨[m], later, rfl, h.of_step sr (accepted_of_handles sr hhears h.ordered h.accepted_eq) fun _ => ?_⟩
        obtain ⟨hafter, hkeeps'⟩ := coming_sendEach link _ hcoming'
        exact ⟨rest, hafter, by rw [hkeeps', hrest]⟩
    · rw [hsame] at hmeans
      obtain hrecv | hrecv := hrecv
      · rw [DataChannel.sending, hrecv]
        refine ⟨[], later, rfl, h.of_step sr hquiet fun _ => ?_⟩
        obtain ⟨hafter, hkeeps'⟩ := coming_sendEach link _ hcoming'
        exact ⟨rest, hafter, by rw [hkeeps', hmeans]⟩
      · rw [DataChannel.sending, hrecv]
        have hstay : Hears env sha256Raw lost ⟨w.quiet env sr p, c, script⟩ (heard ++ []) later :=
          h.of_step sr hquiet fun _ => ⟨rest, hcoming', hmeans⟩
        exact ⟨[], later, rfl, hstay.stuck c script⟩
    · rw [DataChannel.sending, hrecv]
      have hends := ended_of_closed sr hgoes hstays
      refine ⟨[], later, rfl, h.of_step sr (hnone handles_closed) fun hgoes' => ?_⟩
      rw [hends] at hgoes'
      exact absurd hgoes' not_goes_ended
  · refine ⟨[], later, rfl, h.of_step sr hquiet fun hgoes => ?_⟩
    obtain hsame | hover := quiet_phase sr w p
    · exact absurd ⟨hsame ▸ hgoes, hsame⟩ hcomes
    · exact absurd hgoes (not_goes_of_over hover)

/-- **The run**: the passes together hear a first part of the messages. -/
theorem hears_run (passes : List Pass) {w : DataChannel} {heard later : List AgentMessage}
    (hcarried : ∀ m ∈ later, Carried m) (h : Hears env sha256Raw lost w heard later) :
    ∃ now rest, later = now ++ rest ∧
      Hears env sha256Raw lost (runFrom (DataChannel.step link env sr) w passes) (heard ++ now) rest := by
  induction passes generalizing w heard later with
  | nil => exact ⟨[], later, rfl, by rw [List.append_nil]; exact h⟩
  | cons p passes ih =>
    obtain ⟨now, rest, rfl, hstep⟩ := hears_step sr link hcarried h p
    obtain ⟨more, rest', rfl, hrun⟩ := ih (fun m hm => hcarried m (List.mem_append_right _ hm)) hstep
    exact ⟨now ++ more, rest', (List.append_assoc _ _ _).symm, by rw [← List.append_assoc]; exact hrun⟩

/-- A session that begins has heard nothing. -/
theorem hears_start (o : Opening) (now : ℤ) {c : Client} {script : List ReadResult} {stream : List ServerFrame}
    (hcoming : Coming c script lost stream) {later : List AgentMessage}
    (hmeans : (toCome c stream).map Frame.payload = later.map (serialize sha256Raw)) :
    Hears env sha256Raw lost (DataChannel.start link env sr o now c script) [] later := by
  have hstart (opened : Bool) (c' : Client) (hc : Goes (Session.start env sr opened now).phase →
      ∃ stream, Coming c' script lost stream ∧ (toCome c' stream).map Frame.payload = later.map (serialize sha256Raw)) :
      Hears env sha256Raw lost ⟨Session.start env sr opened now, c', script⟩ [] later := by
    obtain ⟨hordered, haccepted⟩ := ordered_start env sr opened now
    refine ⟨haccepted, hordered, ⟨?_, fun _ => ?_⟩, hc⟩
    · rw [written_start]
      exact List.nil_prefix
    · unfold Typed
      rw [written_start, haccepted]
      rfl
  obtain ⟨hbuf, -, -⟩ := send_keeps link c kOpText o.text
  have hkeeps := toCome_send link c kOpText o.text stream
  unfold DataChannel.start
  generalize c.send link kOpText o.text = result at hbuf hkeeps ⊢
  obtain ⟨err, c'⟩ := result
  cases err with
  | some err => exact hstart false c' fun hgoes => absurd hgoes not_goes_ended
  | none =>
    refine hstart true _ fun _ => ?_
    have hcoming' : Coming c' script lost stream := by
      unfold Coming
      rw [hbuf]
      exact hcoming
    obtain ⟨hafter, hkeeps'⟩ := coming_sendEach link _ hcoming'
    exact ⟨stream, hafter, by rw [hkeeps', hkeeps, hmeans]⟩

end Run

/-- What a client that has connected is to receive of a transmission that may end with a close frame. -/
theorem toCome_transmission {c : Client} (hfrag : c.fragPayload = []) (t : Transmission) {closing : List ServerFrame}
    (hclosing : ∀ f ∈ closing.head?, f.opcode = kOpClose) :
    (toCome c (t.frames ++ closing)).map Frame.payload = t.messages.map fun m => m.2.payload := by
  have hgoes : ∀ f ∈ t.frames, decide (f.opcode ≠ kOpClose) = true := fun f hf =>
    decide_eq_true (WebSocketReception.opcode_ne_close t f hf)
  have hclose : closing.takeWhile (fun f => f.opcode ≠ kOpClose) = [] := by
    cases closing with
    | nil => rfl
    | cons f rest =>
      rw [List.takeWhile_cons, if_neg]
      simp [hclosing f rfl]
  unfold toCome
  rw [List.takeWhile_append_of_pos hgoes, hclose, List.append_nil, hfrag,
    WebSocketReception.reassemble_transmission, List.map_map]
  rfl

/-- **What is typed arrives.** A service sends messages on a data channel, as frames that are cut in any
way, masked or not and with pings between them, up to a close frame or a point where the stream breaks
off; any write may fail. The session hears a first part of the messages: of these it takes the first
handshake response that it accepts and the input in order after it, and it writes what they type. While
it goes on it has written all of that, and once the stream is read up it has heard every message.
SRC: websocket.cpp:48-91, 178-242, mgs.cpp:128-164, session.cpp:231-450 -/
theorem input_over_channel (env : Env) (sr : StartRequest) {sha1Raw : Bytes → Bytes}
    {sha256Raw : Bytes → Vector UInt8 32} {link : Link} {c : Client} {host path err : Bytes}
    {extraHeaders : List (Bytes × Bytes)} {script script' : List ReadResult}
    (hconnect : Client.init.connect sha1Raw link host path extraHeaders err script = (.done, c, script'))
    {head lost : Bytes} (hhead : find (head ++ headEnd) headEnd 0 = some head.length) {t : Transmission}
    {closing : List ServerFrame} (hclosing : ∀ f ∈ closing.head?, f.opcode = kOpClose)
    (hstream : bytesOf script ++ lost = head ++ headEnd ++ (t.frames ++ closing).flatMap ServerFrame.encode)
    {messages : List AgentMessage} (hcarried : ∀ m ∈ messages, Carried m)
    (hmessages : (t.messages.map fun m => m.2.payload) = messages.map (serialize sha256Raw)) (o : Opening) (now : ℤ)
    (passes : List Pass) :
    let w := runFrom (DataChannel.step link env sr) (DataChannel.start link env sr o now c script') passes
    ∃ heard later, messages = heard ++ later ∧
      accepted w.session = taken env.strtod heard ∧
      written w.session <+: (taken env.strtod heard).tail.flatMap keystrokes ∧
      (Goes w.session.phase →
        written w.session = (taken env.strtod heard).tail.flatMap keystrokes ∧
        (w.client.readBuf ++ (bytesOf w.script ++ lost) = [] → later = [])) := by
  intro w
  obtain ⟨-, -, -, -, -, hfrag, -⟩ := WebSocketReception.connect_done link sha1Raw Client.init c host path extraHeaders
    err script script' hconnect
  have hcoming : Coming c script' lost (t.frames ++ closing) := WrittenFrames.connect_stream link hconnect hhead hstream
  have hmeans := (toCome_transmission hfrag t hclosing).trans hmessages
  obtain ⟨heard, later, hsplit, hhears⟩ := hears_run sr link passes hcarried (hears_start sr link o now hcoming hmeans)
  rw [List.nil_append] at hhears
  refine ⟨heard, later, hsplit, hhears.accepted_eq, ?_, ?_⟩
  · rw [← hhears.accepted_eq]
    exact hhears.keyed.front
  · intro hgoes
    refine ⟨?_, ?_⟩
    · rw [← hhears.accepted_eq]
      exact hhears.keyed.whole hgoes
    · intro hread
      obtain ⟨stream, hstill, hlater⟩ := hhears.coming hgoes
      rw [hstill.nil hread] at hlater
      exact List.map_eq_nil_iff.mp hlater.symm

/-! ## One key -/

/-- The first keystroke of the client. -/
def firstKey : AgentMessage := inputMessage 1 kPayloadOutput (lit "a")

def exampleFrame (m : AgentMessage) : Bytes := serialize exampleSha256 m

/-- The response is one frame; the key is split, with a ping in between. -/
def exampleTransmission : Transmission :=
  { messages :=
      [([], { type := .binary
              start := ⟨none, exampleFrame handshakeResponse, by decide +kernel⟩
              fragments := [] }),
       ([], { type := .binary
              start := ⟨none, (exampleFrame firstKey).take 60, by decide +kernel⟩
              fragments := [⟨[.ping ⟨none, [], by decide⟩], ⟨none, (exampleFrame firstKey).drop 60, by decide +kernel⟩⟩] })]
    trailing := [] }

def exampleStream : Bytes := exampleHead ++ headEnd ++ exampleTransmission.wire

/-- The stream breaks off inside the last frame. -/
def exampleScript : List ReadResult := [readOf (exampleStream.take 300), .timeout, readOf ((exampleStream.drop 300).take 100)]

def exampleConnect : Connected × Client × List ReadResult :=
  Client.init.connect exampleSha1 exampleLink (lit "host") (lit "/") [] [] exampleScript

/-- The example client connects. -/
theorem exampleConnect_done : exampleConnect = (.done, exampleConnect.2.1, exampleConnect.2.2) := by
  have hdone : exampleConnect.1 = .done := by decide +kernel
  generalize exampleConnect = connected at hdone ⊢
  obtain ⟨outcome, c, script⟩ := connected
  cases hdone
  rfl

def exampleOpening : Opening := ⟨lit "r", lit "token", lit "i-1", lit "c"⟩

/-- The pty takes one byte. -/
def typing : Pass := { receiving firstKey with writes := [.count 1] }

/-- Whatever has arrived, no more than the one key is typed. -/
theorem exampleInput_typed :
    written (runFrom (DataChannel.step exampleLink exampleEnv exampleRequest)
      (DataChannel.start exampleLink exampleEnv exampleRequest exampleOpening 0 exampleConnect.2.1 exampleConnect.2.2)
      [typing, typing, typing, typing]).session <+: lit "a" := by
  have hcarried : ∀ m ∈ [handshakeResponse, firstKey], Carried m := by
    intro m hm
    obtain rfl | rfl := List.mem_pair.mp hm
    · exact ⟨by decide +kernel, by decide +kernel, by decide +kernel⟩
    · exact ⟨by decide +kernel, by decide +kernel, by decide +kernel⟩
  have hclosing : ∀ f ∈ ([] : List ServerFrame).head?, f.opcode = kOpClose := nofun
  have hstream : bytesOf exampleScript ++ exampleStream.drop 400 =
      exampleHead ++ headEnd ++ (exampleTransmission.frames ++ []).flatMap ServerFrame.encode := by decide +kernel
  have hmessages : (exampleTransmission.messages.map fun m => m.2.payload) =
      [handshakeResponse, firstKey].map (serialize exampleSha256) := by decide +kernel
  obtain ⟨heard, later, hsplit, -, hwritten, -⟩ := input_over_channel exampleEnv exampleRequest
    exampleConnect_done (by decide +kernel) hclosing hstream hcarried hmessages exampleOpening 0
    [typing, typing, typing, typing]
  refine hwritten.trans ?_
  rcases heard with - | ⟨first, - | ⟨second, more⟩⟩
  · exact List.nil_prefix
  · obtain ⟨rfl, -⟩ := List.cons.inj hsplit
    decide +kernel
  · obtain ⟨rfl, htail⟩ := List.cons.inj hsplit
    obtain ⟨rfl, hnil⟩ := List.cons.inj htail
    obtain ⟨rfl, -⟩ := List.append_eq_nil_iff.mp hnil.symm
    decide +kernel

end HaikuAgent.Analysis.ChannelInput
