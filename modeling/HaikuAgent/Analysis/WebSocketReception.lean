import HaikuAgent.Analysis.WebSocketFrames

/-!
# `recv` does not depend on how the stream is cut

`reassemble` is what the frames of a stream mean as messages. `Awaits` is the state of
a client in the middle of a stream: its buffer and what the socket has yet to give
spell the frames that remain. A call of `recv` keeps it and takes at most one message
off (`recv_awaits`), so the calls together return the messages of the stream, however
the reads cut it and however often they time out (`recvCalls_awaits`).

`connect` leaves the client in such a state, with the bytes that came along with the
response head in its buffer (`connect_awaits`).
-/

set_option autoImplicit false

namespace HaikuAgent.Analysis.WebSocketReception

open HaikuAgent.Foundation
open HaikuAgent.Model
open HaikuAgent.Model.WebSocket
open HaikuAgent.Interface.ServerFrames
open HaikuAgent.Analysis.WebSocketFrames

/-! ## Frames as messages -/

/-- The messages of a list of frames, inside a message of which `opcode` and `payload` are
known. -/
def reassemble (opcode : UInt8) (payload : Bytes) : List ServerFrame → List Frame
  | [] => []
  | f :: frames =>
    if f.opcode = kOpPing ∨ f.opcode = kOpPong then reassemble opcode payload frames
    else if f.opcode = 0 then
      if f.fin then ⟨opcode, payload ++ f.payload⟩ :: reassemble 0 [] frames
      else reassemble opcode (payload ++ f.payload) frames
    else if f.fin then ⟨f.opcode, f.payload⟩ :: reassemble opcode payload frames
    else reassemble f.opcode f.payload frames

/-- Control frames do not take part in reassembly. -/
theorem reassemble_controls (opcode : UInt8) (payload : Bytes) (controls : List ControlFrame)
    (frames : List ServerFrame) :
    reassemble opcode payload (controls.map ControlFrame.frame ++ frames) =
      reassemble opcode payload frames := by
  induction controls with
  | nil => rfl
  | cons control controls ih =>
    have hcontrol : control.frame.opcode = kOpPing ∨ control.frame.opcode = kOpPong := by
      cases control with
      | ping p => exact Or.inl rfl
      | pong p => exact Or.inr rfl
    rw [List.map_cons, List.cons_append, reassemble, if_pos hcontrol]
    exact ih

/-- The continuations of a message complete it. -/
theorem reassemble_continuations (opcode : UInt8) (payload : Bytes) (fragments : List Fragment)
    (hfragments : fragments ≠ []) (frames : List ServerFrame) :
    reassemble opcode payload (continuationFrames fragments ++ frames) =
      ⟨opcode, payload ++ fragments.flatMap fun fragment => fragment.piece.payload⟩ ::
        reassemble 0 [] frames := by
  induction fragments generalizing payload with
  | nil => exact absurd rfl hfragments
  | cons fragment rest ih =>
    have hopcode : (fragment.piece.frame rest.isEmpty 0 (by decide)).opcode = 0 := rfl
    have hpayload : (fragment.piece.frame rest.isEmpty 0 (by decide)).payload =
        fragment.piece.payload := rfl
    rw [continuationFrames, List.append_assoc, reassemble_controls, List.cons_append, reassemble,
      hopcode, hpayload, if_neg (by decide), if_pos rfl]
    change (if rest.isEmpty = true then _ else _) = _
    cases rest with
    | nil =>
      rw [if_pos List.isEmpty_nil]
      simp [continuationFrames]
    | cons next rest =>
      rw [if_neg (by simp), ih _ (List.cons_ne_nil _ _), List.append_assoc]
      rfl

/-- The message as `recv` delivers it. -/
def delivered (m : Message) : Frame := ⟨m.type.opcode, m.payload⟩

/-- The frames of a message are put together to that message. -/
theorem reassemble_message (opcode : UInt8) (m : Message) (frames : List ServerFrame) :
    ∃ opcode', reassemble opcode [] (m.frames ++ frames) =
      delivered m :: reassemble opcode' [] frames := by
  have hnotControl : ¬(m.type.opcode = kOpPing ∨ m.type.opcode = kOpPong) := by
    cases m.type with
    | text => decide
    | binary => decide
  have hnotContinuation : m.type.opcode ≠ 0 := by
    cases m.type with
    | text => decide
    | binary => decide
  have hstart : reassemble opcode [] (m.frames ++ frames) =
      if m.fragments.isEmpty then
        ⟨m.type.opcode, m.start.payload⟩ ::
          reassemble opcode [] (continuationFrames m.fragments ++ frames)
      else reassemble m.type.opcode m.start.payload (continuationFrames m.fragments ++ frames) := by
    have hopcode : (m.start.frame m.fragments.isEmpty m.type.opcode
        (by cases m.type <;> decide)).opcode = m.type.opcode := rfl
    rw [Message.frames, List.cons_append, reassemble, hopcode, if_neg hnotControl,
      if_neg hnotContinuation]
    rfl
  rw [hstart]
  cases hfragments : m.fragments with
  | nil =>
    refine ⟨opcode, ?_⟩
    simp [continuationFrames, delivered, Message.payload, hfragments]
  | cons fragment rest =>
    refine ⟨0, ?_⟩
    rw [if_neg (by simp), reassemble_continuations _ _ _ (List.cons_ne_nil _ _), delivered,
      Message.payload, hfragments]

/-- The frames of a transmission are its messages. -/
theorem reassemble_transmission (t : Transmission) (opcode : UInt8) :
    reassemble opcode [] t.frames = t.messages.map fun m => delivered m.2 := by
  obtain ⟨messages, trailing⟩ := t
  rw [Transmission.frames]
  induction messages generalizing opcode with
  | nil =>
    have htrailing := reassemble_controls opcode [] trailing []
    rw [List.append_nil] at htrailing
    exact htrailing
  | cons m messages ih =>
    obtain ⟨opcode', hmessage⟩ := reassemble_message opcode m.2
      (messages.flatMap (fun m => m.1.map ControlFrame.frame ++ m.2.frames) ++
        trailing.map ControlFrame.frame)
    rw [List.flatMap_cons, List.append_assoc, List.append_assoc, reassemble_controls, hmessage,
      ih opcode', List.map_cons]

/-- A server's frames are data and ping or pong frames. -/
theorem opcode_ne_close (t : Transmission) (f : ServerFrame) (hf : f ∈ t.frames) :
    f.opcode ≠ kOpClose := by
  have hcontrols (controls : List ControlFrame) (h : f ∈ controls.map ControlFrame.frame) :
      f.opcode ≠ kOpClose := by
    obtain ⟨control, -, rfl⟩ := List.mem_map.mp h
    cases control with
    | ping p =>
      change kOpPing ≠ kOpClose
      decide
    | pong p =>
      change kOpPong ≠ kOpClose
      decide
  have hcontinuations (fragments : List Fragment) (h : f ∈ continuationFrames fragments) :
      f.opcode ≠ kOpClose := by
    induction fragments with
    | nil => cases h
    | cons fragment rest ih =>
      rw [continuationFrames, List.mem_append, List.mem_cons] at h
      rcases h with h | rfl | h
      · exact hcontrols fragment.controls h
      · change (0 : UInt8) ≠ kOpClose
        decide
      · exact ih h
  rw [Transmission.frames, List.mem_append, List.mem_flatMap] at hf
  rcases hf with ⟨⟨controls, m⟩, -, hf⟩ | hf
  · rw [Message.frames, List.mem_append, List.mem_cons] at hf
    rcases hf with hf | rfl | hf
    · exact hcontrols controls hf
    · change m.type.opcode ≠ kOpClose
      cases m.type with
      | text => decide
      | binary => decide
    · exact hcontinuations m.fragments hf
  · exact hcontrols t.trailing hf

/-! ## One call -/

variable (link : Link)

/-- What the rest of a stream means for a client. -/
def pending (c : Client) (frames : List ServerFrame) : List Frame :=
  reassemble c.fragOpcode c.fragPayload frames

/-- The client is open, and its buffer and what the socket has yet to give are these frames. -/
structure Awaits (c : Client) (more : Bytes) (frames : List ServerFrame) : Prop where
  isOpen : c.isOpen = true
  stream : c.readBuf ++ more = frames.flatMap ServerFrame.encode
  noClose : ∀ f ∈ frames, f.opcode ≠ kOpClose

/-- An open client sends while its link works. -/
theorem send_ok (hwrites : ∀ n, link.writeError n = none) (c : Client) (hopen : c.isOpen = true)
    (opcode : UInt8) (payload : Bytes) :
    ∃ bytes, c.send link opcode payload = (none, { c with writes := c.writes ++ [bytes] }) := by
  let mask := link.mask c.writes.length
  refine ⟨makeFrame opcode payload (if mask.length ≠ 4 then List.replicate 4 0x5A else mask), ?_⟩
  simp [Client.send, hopen, Client.write, hwrites, mask]

/-- One frame is passed over or completes a message. -/
theorem handleFrame_pending (hwrites : ∀ n, link.writeError n = none) (c : Client)
    (hopen : c.isOpen = true) (f : ServerFrame) (hclose : f.opcode ≠ kOpClose) :
    (∃ c', c.handleFrame link (view f) = .next c' ∧ c'.isOpen = true ∧ c'.readBuf = c.readBuf ∧
      ∀ frames, pending c (f :: frames) = pending c' frames) ∨
    (∃ m c', c.handleFrame link (view f) = .message m c' ∧ c'.isOpen = true ∧
      c'.readBuf = c.readBuf ∧ ∀ frames, pending c (f :: frames) = m :: pending c' frames) := by
  have hopcode : (view f).opcode = f.opcode := rfl
  have hfin : (view f).fin = f.fin := rfl
  have hpayload : (view f).payload = f.payload := rfl
  unfold Client.handleFrame pending
  rw [hopcode, hfin, hpayload]
  by_cases hping : f.opcode = kOpPing
  · obtain ⟨bytes, hsend⟩ := send_ok link hwrites c hopen kOpPong f.payload
    refine Or.inl ⟨_, if_pos hping, ?_, ?_, ?_⟩
    · rw [hsend]
      exact hopen
    · rw [hsend]
    · intro frames
      rw [hsend, reassemble, if_pos (Or.inl hping)]
  rw [if_neg hping]
  by_cases hpong : f.opcode = kOpPong
  · refine Or.inl ⟨_, if_pos hpong, hopen, rfl, ?_⟩
    intro frames
    rw [reassemble, if_pos (Or.inr hpong)]
  rw [if_neg hpong, if_neg hclose]
  have hdata : ¬(f.opcode = kOpPing ∨ f.opcode = kOpPong) := not_or.mpr ⟨hping, hpong⟩
  by_cases hcontinuation : f.opcode = 0
  · rw [if_pos hcontinuation]
    cases hf : f.fin with
    | true =>
      refine Or.inr ⟨_, _, if_pos rfl, hopen, rfl, ?_⟩
      intro frames
      rw [reassemble, if_neg hdata, if_pos hcontinuation, if_pos hf]
    | false =>
      refine Or.inl ⟨_, if_neg Bool.false_ne_true, hopen, rfl, ?_⟩
      intro frames
      rw [reassemble, if_neg hdata, if_pos hcontinuation, if_neg (by simp [hf])]
  · rw [if_neg hcontinuation]
    cases hf : f.fin with
    | true =>
      refine Or.inr ⟨_, _, if_neg (by simp), hopen, rfl, ?_⟩
      intro frames
      rw [reassemble, if_neg hdata, if_neg hcontinuation, if_pos hf]
    | false =>
      refine Or.inl ⟨_, if_pos (by simp), hopen, rfl, ?_⟩
      intro frames
      rw [reassemble, if_neg hdata, if_neg hcontinuation, if_neg (by simp [hf])]

/-- A buffer without a whole frame starves the drain. -/
theorem drain_incomplete (c : Client) (hparse : parseFrame c.readBuf = .incomplete) :
    c.drain link = .starved c := by
  rw [Client.drain]
  split
  next => rfl
  next err herr =>
    rw [hparse] at herr
    cases herr
  next f rest hcomplete =>
    rw [hparse] at hcomplete
    cases hcomplete

/-- A whole frame at the front of the buffer is handled. -/
theorem drain_complete (c : Client) (f : ParsedFrame) (rest : Bytes)
    (hparse : parseFrame c.readBuf = .complete f rest) :
    c.drain link =
      match { c with readBuf := rest }.handleFrame link f with
      | .next c' => c'.drain link
      | .message f c' => .message f c'
      | .failed err c' => .failed err c' := by
  rw [Client.drain]
  split
  next hincomplete =>
    rw [hparse] at hincomplete
    cases hincomplete
  next err herr =>
    rw [hparse] at herr
    cases herr
  next f' rest' hcomplete =>
    rw [hparse] at hcomplete
    cases hcomplete
    split <;> rename_i h <;> rw [h]

/-- The frames in the buffer complete a message, or leave it waiting for more bytes. -/
theorem drain_awaits (hwrites : ∀ n, link.writeError n = none) (c : Client) (more : Bytes)
    (frames : List ServerFrame) (h : Awaits c more frames) :
    (∃ c' frames', c.drain link = .starved c' ∧ Awaits c' more frames' ∧
      pending c frames = pending c' frames' ∧ (more = [] → frames' = [])) ∨
    (∃ m c' frames', c.drain link = .message m c' ∧ Awaits c' more frames' ∧
      pending c frames = m :: pending c' frames') := by
  induction frames generalizing c with
  | nil =>
    have hempty : c.readBuf = [] := (List.append_eq_nil_iff.mp h.stream).1
    have hparse : parseFrame c.readBuf = .incomplete := by
      rw [hempty]
      rfl
    exact Or.inl ⟨c, [], drain_incomplete link c hparse, h, rfl, fun _ => rfl⟩
  | cons f frames ih =>
    have hstream := h.stream
    rw [List.flatMap_cons] at hstream
    rcases parseFrame_delimits.scan_front f c.readBuf more _ hstream with
      ⟨rest, hparse, hrest⟩ | ⟨hparse, hmore⟩
    · have hclose := h.noClose f List.mem_cons_self
      have hothers : ∀ g ∈ frames, g.opcode ≠ kOpClose :=
        fun g hg => h.noClose g (List.mem_cons_of_mem f hg)
      rw [drain_complete link c (view f) rest hparse]
      have hpending : pending c (f :: frames) = pending { c with readBuf := rest } (f :: frames) := rfl
      rw [hpending]
      rcases handleFrame_pending link hwrites { c with readBuf := rest } h.isOpen f hclose with
        ⟨c', hhandle, hopen, hbuf, hmeans⟩ | ⟨m, c', hhandle, hopen, hbuf, hmeans⟩
      · rw [hhandle, hmeans]
        refine ih c' ⟨hopen, ?_, hothers⟩
        rw [hbuf]
        exact hrest
      · rw [hhandle, hmeans]
        refine Or.inr ⟨m, c', frames, rfl, ⟨hopen, ?_, hothers⟩, rfl⟩
        rw [hbuf]
        exact hrest
    · refine Or.inl ⟨c, f :: frames, drain_incomplete link c hparse, h, rfl, ?_⟩
      intro hnil
      exact absurd hnil hmore

/-! ## Successive calls -/

/-- The bytes the reads of a script give. -/
def bytesOf : List ReadResult → Bytes
  | [] => []
  | .data first rest :: script => first :: (rest ++ bytesOf script)
  | _ :: script => bytesOf script

/-- How many reads of a script time out. -/
def timeoutsOf (script : List ReadResult) : ℕ := script.count .timeout

/-- The connection stays: reads give bytes or time out. -/
def Alive (script : List ReadResult) : Prop :=
  ∀ r ∈ script, r = .timeout ∨ ∃ first rest, r = .data first rest

/-- One call of `recv` in the middle of a stream: the next message, or nothing after a
timeout, and the rest of the stream still to come; or it waits and no message is left. -/
theorem recv_awaits (hwrites : ∀ n, link.writeError n = none) (script : List ReadResult)
    (halive : Alive script) (c : Client) (frames : List ServerFrame)
    (h : Awaits c (bytesOf script) frames) :
    ∃ c' script' frames', Awaits c' (bytesOf script') frames' ∧ Alive script' ∧
      ((∃ m, c.recv link script = (.message m, c', script') ∧
          pending c frames = m :: pending c' frames' ∧ timeoutsOf script = timeoutsOf script') ∨
        (c.recv link script = (.timeout, c', script') ∧ pending c frames = pending c' frames' ∧
          timeoutsOf script = timeoutsOf script' + 1) ∨
        (c.recv link script = (.waiting, c', script') ∧ pending c frames = [] ∧
          timeoutsOf script = 0)) := by
  have hopen : c.recv link script = c.recvLoop link script := by
    rw [Client.recv, h.isOpen]
    rfl
  rw [hopen]
  induction script generalizing c frames with
  | nil =>
    rw [Client.recvLoop]
    rcases drain_awaits link hwrites c [] frames h with
      ⟨c', frames', hdrain, hawaits, hmeans, hnil⟩ | ⟨m, c', frames', hdrain, hawaits, hmeans⟩
    · rw [hdrain]
      refine ⟨c', [], frames', hawaits, halive, Or.inr (Or.inr ⟨rfl, ?_, rfl⟩)⟩
      rw [hmeans, hnil rfl]
      rfl
    · rw [hdrain]
      exact ⟨c', [], frames', hawaits, halive, Or.inl ⟨m, rfl, hmeans, rfl⟩⟩
  | cons r script ih =>
    have halive' : Alive script := fun x hx => halive x (List.mem_cons_of_mem r hx)
    rw [Client.recvLoop]
    rcases drain_awaits link hwrites c (bytesOf (r :: script)) frames h with
      ⟨c', frames', hdrain, hawaits, hmeans, -⟩ | ⟨m, c', frames', hdrain, hawaits, hmeans⟩
    · rw [hdrain, hmeans]
      rcases halive r List.mem_cons_self with rfl | ⟨first, rest, rfl⟩
      · refine ⟨c', script, frames', hawaits, halive', Or.inr (Or.inl ⟨rfl, rfl, ?_⟩)⟩
        rw [timeoutsOf, List.count_cons_self, timeoutsOf]
      · -- the bytes read move from the socket into the buffer
        have hmoved : Awaits { c' with readBuf := c'.readBuf ++ first :: rest } (bytesOf script)
            frames' := by
          refine ⟨hawaits.isOpen, ?_, hawaits.noClose⟩
          rw [← hawaits.stream, bytesOf, List.append_assoc]
          rfl
        have htimeouts : timeoutsOf (.data first rest :: script) = timeoutsOf script := by
          rw [timeoutsOf, List.count_cons_of_ne (by simp), timeoutsOf]
        rw [htimeouts]
        refine ih halive' _ frames' hmoved ?_
        rw [Client.recv, hmoved.isOpen]
        rfl
    · rw [hdrain]
      exact ⟨c', r :: script, frames', hawaits, halive, Or.inl ⟨m, rfl, hmeans, rfl⟩⟩

/-- What successive calls of `recv` return. -/
def recvCalls : ℕ → Client → List ReadResult → List Received × Client × List ReadResult
  | 0, c, script => ([], c, script)
  | n + 1, c, script =>
    let (r, c, script) := c.recv link script
    let (rs, c, script) := recvCalls n c script
    (r :: rs, c, script)

def messageOf : Received → Option Frame
  | .message f => some f
  | _ => none

/-- Enough calls return the messages of the stream and a nothing for every timeout; the call
after them waits. -/
theorem recvCalls_awaits (hwrites : ∀ n, link.writeError n = none) (n : ℕ) (c : Client)
    (script : List ReadResult) (frames : List ServerFrame) (halive : Alive script)
    (h : Awaits c (bytesOf script) frames)
    (hn : n = (pending c frames).length + timeoutsOf script) :
    ∃ results c' script', recvCalls link n c script = (results, c', script') ∧
      results.filterMap messageOf = pending c frames ∧
      results.count .timeout = timeoutsOf script ∧
      (∀ r ∈ results, r = .timeout ∨ ∃ m, r = .message m) ∧
      (c'.recv link script').1 = .waiting := by
  induction n generalizing c script frames with
  | zero =>
    obtain ⟨c', script', frames', -, -, hcall⟩ := recv_awaits link hwrites script halive c frames h
    have hnone : pending c frames = [] := List.length_eq_zero_iff.mp (by omega)
    have hquiet : timeoutsOf script = 0 := by omega
    refine ⟨[], c, script, rfl, hnone.symm, hquiet.symm, ?_, ?_⟩
    · intro r hr
      cases hr
    · rcases hcall with ⟨m, -, hmeans, -⟩ | ⟨-, -, htimeouts⟩ | ⟨hwaits, -, -⟩
      · rw [hnone] at hmeans
        cases hmeans
      · omega
      · rw [hwaits]
  | succ n ih =>
    obtain ⟨c', script', frames', hawaits, halive', hcall⟩ :=
      recv_awaits link hwrites script halive c frames h
    rcases hcall with ⟨m, hrecv, hmeans, htimeouts⟩ | ⟨hrecv, hmeans, htimeouts⟩ |
      ⟨-, hnone, hquiet⟩
    · rw [hmeans, List.length_cons] at hn
      obtain ⟨results, c'', script'', hcalls, hmessages, hcount, hkinds, hwaits⟩ :=
        ih c' script' frames' halive' hawaits (by omega)
      refine ⟨.message m :: results, c'', script'', ?_, ?_, ?_, ?_, hwaits⟩
      · simp only [recvCalls, hrecv, hcalls]
      · rw [hmeans, ← hmessages]
        rfl
      · rw [List.count_cons_of_ne (by simp), hcount, htimeouts]
      · intro r hr
        rcases List.mem_cons.mp hr with rfl | hr
        · exact Or.inr ⟨m, rfl⟩
        · exact hkinds r hr
    · rw [hmeans] at hn
      obtain ⟨results, c'', script'', hcalls, hmessages, hcount, hkinds, hwaits⟩ :=
        ih c' script' frames' halive' hawaits (by omega)
      refine ⟨.timeout :: results, c'', script'', ?_, ?_, ?_, ?_, hwaits⟩
      · simp only [recvCalls, hrecv, hcalls]
      · rw [hmeans, ← hmessages]
        rfl
      · rw [List.count_cons_self, hcount, htimeouts]
      · intro r hr
        rcases List.mem_cons.mp hr with rfl | hr
        · exact Or.inl rfl
        · exact hkinds r hr
    · rw [hnone, hquiet] at hn
      cases hn

/-! ## The bytes after the response head -/

/-- The loop of `connect` reads bytes in order, until the head is complete. -/
theorem readHead_done (err head head' : Bytes) (script script' : List ReadResult)
    (h : readHead err head script = (.done, head', script')) :
    head' ++ bytesOf script' = head ++ bytesOf script ∧ (∃ i, find head' headEnd 0 = some i) ∧
      (Alive script → Alive script') := by
  induction script generalizing head with
  | nil =>
    unfold readHead at h
    cases hfind : find head headEnd 0 with
    | some i =>
      rw [hfind] at h
      cases h
      exact ⟨rfl, ⟨i, hfind⟩, id⟩
    | none =>
      rw [hfind] at h
      cases h
  | cons r script ih =>
    unfold readHead at h
    cases hfind : find head headEnd 0 with
    | some i =>
      rw [hfind] at h
      cases h
      exact ⟨rfl, ⟨i, hfind⟩, id⟩
    | none =>
      rw [hfind] at h
      cases r with
      | data first rest =>
        simp only at h
        by_cases hoversized : 64 * 1024 < (head ++ first :: rest).length
        · rw [if_pos hoversized] at h
          cases h
        rw [if_neg hoversized] at h
        obtain ⟨hbytes, hfound, halive⟩ := ih (head ++ first :: rest) h
        refine ⟨?_, hfound, ?_⟩
        · rw [hbytes, bytesOf, List.append_assoc]
          rfl
        · intro hscript
          exact halive fun x hx => hscript x (List.mem_cons_of_mem _ hx)
      | timeout => cases h
      | closed => cases h
      | failed readErr => cases h

/-- The end of a head is found where it is, and lies in what was read. -/
theorem headEnd_found (head read more tail : Bytes) (i : ℕ)
    (hhead : find (head ++ headEnd) headEnd 0 = some head.length)
    (hstream : read ++ more = head ++ headEnd ++ tail) (hfind : find read headEnd 0 = some i) :
    i = head.length ∧ i + 4 ≤ read.length := by
  constructor
  · have hread := find_append read headEnd more 0 i hfind
    have hsent := find_append (head ++ headEnd) headEnd tail 0 head.length hhead
    rw [hstream, hsent] at hread
    exact (Option.some.inj hread).symm
  · obtain ⟨-, hlength, hpat, -⟩ := (find_eq_some read headEnd 0 i).mp hfind
    have hle := hpat.length_le
    rw [List.length_drop] at hle
    change 4 ≤ _ at hle
    omega

/-- What `connect` has done when it returns `true`. -/
theorem connect_done (sha1Raw : Bytes → Bytes) (c₀ c : Client) (host path : Bytes)
    (extraHeaders : List (Bytes × Bytes)) (err : Bytes) (script script' : List ReadResult)
    (hconnect : c₀.connect sha1Raw link host path extraHeaders err script = (.done, c, script')) :
    ∃ head i, readHead err [] script = (.done, head, script') ∧ find head headEnd 0 = some i ∧
      c.readBuf = head.drop (i + 4) ∧ c.fragPayload = [] ∧ c.isOpen = true := by
  unfold Client.connect at hconnect
  cases hsocket : link.connectError with
  | some socketErr =>
    rw [hsocket] at hconnect
    cases hconnect
  | none =>
    rw [hsocket] at hconnect
    simp only [Client.write] at hconnect
    by_cases hkey : link.keyRaw.length ≠ 16
    · rw [if_pos hkey] at hconnect
      cases hconnect
    rw [if_neg hkey] at hconnect
    cases hwrite : link.writeError (c₀.close link).writes.length with
    | some writeErr =>
      rw [hwrite] at hconnect
      cases hconnect
    | none =>
      rw [hwrite] at hconnect
      simp only at hconnect
      rcases hread : readHead err [] script with ⟨outcome, head, rest⟩
      rw [hread] at hconnect
      cases outcome with
      | failed readErr => cases hconnect
      | waiting => cases hconnect
      | done =>
        obtain ⟨-, ⟨i, hfind⟩, -⟩ := readHead_done err [] head script rest hread
        simp only [Client.upgrade, hfind, Option.getD_some] at hconnect
        cases hcheck : checkHead sha1Raw (base64Encode link.keyRaw) (head.take i) with
        | some checkErr =>
          rw [hcheck] at hconnect
          cases hconnect
        | none =>
          rw [hcheck] at hconnect
          cases hconnect
          exact ⟨head, i, rfl, hfind, rfl, rfl, rfl⟩

/-- A client that has connected awaits what the server sends after its response head. -/
theorem connect_awaits (sha1Raw : Bytes → Bytes) (c₀ c : Client) (host path : Bytes)
    (extraHeaders : List (Bytes × Bytes)) (err : Bytes) (script script' : List ReadResult)
    (hconnect : c₀.connect sha1Raw link host path extraHeaders err script = (.done, c, script'))
    (halive : Alive script) (head : Bytes) (t : Transmission)
    (hhead : find (head ++ headEnd) headEnd 0 = some head.length)
    (hstream : bytesOf script = head ++ headEnd ++ t.wire) :
    Awaits c (bytesOf script') t.frames ∧ c.fragPayload = [] ∧ Alive script' := by
  obtain ⟨read, i, hread, hfind, hbuf, hfrag, hopen⟩ :=
    connect_done link sha1Raw c₀ c host path extraHeaders err script script' hconnect
  obtain ⟨hbytes, -, halive'⟩ := readHead_done err [] read script script' hread
  rw [List.nil_append, hstream] at hbytes
  obtain ⟨hi, hfits⟩ := headEnd_found head read (bytesOf script') t.wire i hhead hbytes hfind
  refine ⟨⟨hopen, ?_, opcode_ne_close t⟩, hfrag, halive' halive⟩
  have hrest := congrArg (List.drop (i + 4)) hbytes
  rw [List.drop_append_of_le_length hfits, hi, List.append_assoc,
    ← List.append_assoc, List.drop_left' (by simp [headEnd])] at hrest
  rw [hbuf, hi]
  exact hrest

/-! ## Reception -/

/-- **Reception does not depend on the cuts.** A client that has connected on a stream of
bytes, cut into reads in any way and with any timeouts between them, returns exactly the
messages the server sent after its response head, in order, and a nothing for each timeout.
SRC: websocket.cpp:48-91, 116-134, 178-242 -/
theorem reception_independent_of_cuts (sha1Raw : Bytes → Bytes) (link : Link)
    (hwrites : ∀ n, link.writeError n = none) (c₀ c : Client) (host path : Bytes)
    (extraHeaders : List (Bytes × Bytes)) (err : Bytes) (script script' : List ReadResult)
    (halive : Alive script) (head : Bytes) (t : Transmission)
    (hhead : find (head ++ headEnd) headEnd 0 = some head.length)
    (hstream : bytesOf script = head ++ headEnd ++ t.wire)
    (hconnect : c₀.connect sha1Raw link host path extraHeaders err script = (.done, c, script')) :
    ∃ results c' script'',
      recvCalls link (t.messages.length + timeoutsOf script') c script' = (results, c', script'') ∧
        results.filterMap messageOf = t.messages.map (fun m => delivered m.2) ∧
        results.count .timeout = timeoutsOf script' ∧
        (∀ r ∈ results, r = .timeout ∨ ∃ m, r = .message m) ∧
        (c'.recv link script'').1 = .waiting := by
  obtain ⟨hawaits, hfrag, halive'⟩ := connect_awaits link sha1Raw c₀ c host path extraHeaders err
    script script' hconnect halive head t hhead hstream
  have hmeans : pending c t.frames = t.messages.map fun m => delivered m.2 := by
    rw [pending, hfrag]
    exact reassemble_transmission t c.fragOpcode
  rw [← hmeans]
  refine recvCalls_awaits link hwrites _ c script' t.frames halive' hawaits ?_
  rw [hmeans, List.length_map]

/-! ## A split message -/

/-- A text message in two frames, with a masked ping between them. -/
def exampleTransmission : Transmission :=
  { messages :=
      [([], { type := .text
              start := ⟨none, lit "H", by decide⟩
              fragments := [⟨[.ping ⟨some #v[1, 2, 3, 4], lit "p", by decide⟩], ⟨none, lit "i", by decide⟩⟩] })]
    trailing := [] }

def exampleHead : Bytes :=
  lit "HTTP/1.1 101 Switching Protocols\r\nSec-WebSocket-Accept: s3pPLMBiTxaQ9kYGzzhZRbK+xOo="

/-- The digest of the key sent for `keyRaw` below. -/
def exampleSha1 : Bytes → Bytes := fun _ =>
  [0xB3, 0x7A, 0x4F, 0x2C, 0xC0, 0x62, 0x4F, 0x16, 0x90, 0xF6, 0x46, 0x06, 0xCF, 0x38, 0x59, 0x45,
    0xB2, 0xBE, 0xC4, 0xEA]

def exampleLink : Link :=
  { connectError := none
    keyRaw := lit "the sample nonce"
    mask := fun _ => [9, 9, 9, 9]
    writeError := fun _ => none }

def readOf : Bytes → ReadResult
  | [] => .timeout
  | first :: rest => .data first rest

/-- The head comes with the first byte of a frame; the ping is cut inside its mask. -/
def exampleScript : List ReadResult :=
  let stream := exampleHead ++ headEnd ++ exampleTransmission.wire
  let cut := exampleHead.length + 5
  [readOf (stream.take cut), .timeout, readOf (slice stream cut 5), .timeout,
    readOf (stream.drop (cut + 5))]

def exampleConnect : Connected × Client × List ReadResult :=
  Client.init.connect exampleSha1 exampleLink (lit "host") (lit "/") [] [] exampleScript

/-- Bytes that arrive are data; none are a timeout. -/
theorem readOf_alive (bytes : Bytes) :
    readOf bytes = .timeout ∨ ∃ first rest, readOf bytes = .data first rest := by
  cases bytes with
  | nil => exact Or.inl rfl
  | cons first rest => exact Or.inr ⟨first, rest, rfl⟩

/-- The example's opening handshake is done. -/
theorem exampleConnect_done : exampleConnect.1 = .done := by decide +kernel

/-- The split message is received whole. -/
theorem exampleScript_received :
    ∃ results c' script'',
      recvCalls exampleLink (exampleTransmission.messages.length + timeoutsOf exampleConnect.2.2)
          exampleConnect.2.1 exampleConnect.2.2 = (results, c', script'') ∧
        results.filterMap messageOf = exampleTransmission.messages.map (fun m => delivered m.2) ∧
        results.count .timeout = timeoutsOf exampleConnect.2.2 ∧
        (∀ r ∈ results, r = .timeout ∨ ∃ m, r = .message m) ∧
        (c'.recv exampleLink script'').1 = .waiting := by
  refine reception_independent_of_cuts exampleSha1 exampleLink (fun _ => rfl) Client.init
    exampleConnect.2.1 (lit "host") (lit "/") [] [] exampleScript exampleConnect.2.2 ?_ exampleHead
    exampleTransmission ?_ ?_ ?_
  · intro r hr
    simp only [exampleScript, List.mem_cons, List.not_mem_nil, or_false] at hr
    rcases hr with rfl | rfl | rfl | rfl | rfl
    · exact readOf_alive _
    · exact Or.inl rfl
    · exact readOf_alive _
    · exact Or.inl rfl
    · exact readOf_alive _
  · decide +kernel
  · decide +kernel
  · exact Prod.ext exampleConnect_done rfl

end HaikuAgent.Analysis.WebSocketReception
