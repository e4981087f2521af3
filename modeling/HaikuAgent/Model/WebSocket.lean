import Mathlib.Data.UInt
import HaikuAgent.Foundation.SelfDelimiting
import HaikuAgent.Model.Util

/-!
# The WebSocket client (`websocket.cpp`)

The socket is a script: what the successive calls of `stream_.read` return. A call on
an empty script is one that has not returned yet. A `Link` holds what else the client
meets (random bytes, the results of its writes), and the client records the bytes it
hands to `stream_.write`. `mbedtls_sha1` is a parameter.
-/

set_option autoImplicit false

namespace HaikuAgent.Model.WebSocket

open HaikuAgent.Foundation

/-- SRC: websocket.h:19-23 -/
def kOpText : UInt8 := 0x1
def kOpBinary : UInt8 := 0x2
def kOpClose : UInt8 := 0x8
def kOpPing : UInt8 := 0x9
def kOpPong : UInt8 := 0xA

/-- SRC: websocket.h:25-28 -/
structure Frame where
  opcode : UInt8
  payload : Bytes
  deriving DecidableEq

/-- SRC: websocket.cpp:12 -/
def kWsGuid : Bytes := lit "258EAFA5-E914-47DA-95CA-C5AB0DC85B11"

/-- SRC: websocket.cpp:16 -/
def kMaxFrameSize : ℕ := 1024 * 1024

/-- `Sec-WebSocket-Accept` for a key.
SRC: websocket.cpp:20-22 -/
def acceptKeyFor (sha1Raw : Bytes → Bytes) (secWebsocketKey : Bytes) : Bytes :=
  base64Encode (sha1Raw (secWebsocketKey ++ kWsGuid))

/-! ## Frames -/

/-- The loop that masks and unmasks.
SRC: websocket.cpp:43-44, 86-88 -/
def xorMask (mask payload : Bytes) : Bytes :=
  payload.mapIdx fun i b => b ^^^ mask.getD (i % 4) 0

/-- The length bytes of a client frame, the MASK bit set.
SRC: websocket.cpp:28-38 -/
def frameLength (len : UInt64) : Bytes :=
  if len < 126 then [0x80 ||| len.toUInt8]
  else if len ≤ 0xFFFF then
    [0x80 ||| 126, ((len >>> 8) &&& 0xFF).toUInt8, (len &&& 0xFF).toUInt8]
  else
    (0x80 ||| 127) ::
      (([56, 48, 40, 32, 24, 16, 8, 0] : List UInt64).map fun shift => ((len >>> shift) &&& 0xFF).toUInt8)

/-- SRC: websocket.cpp:24-46 -/
def makeFrame (opcode : UInt8) (payload mask : Bytes) : Bytes :=
  (0x80 ||| (opcode &&& 0x0F)) :: (frameLength (UInt64.ofNat payload.length) ++ mask ++
    xorMask mask payload)

/-- What `parse_frame` returns through its parameters. -/
structure ParsedFrame where
  fin : Bool
  opcode : UInt8
  payload : Bytes
  deriving DecidableEq

/-- The payload length and the position after it; `none` when its bytes are not all there.
SRC: websocket.cpp:60-73 -/
def parseLength (buf : Bytes) (b1 : UInt8) : Option (UInt64 × ℕ) :=
  let len := (b1 &&& 0x7F).toUInt64
  if len = 126 then
    if buf.length < 4 then none
    else some (((buf.getD 2 0).toUInt64 <<< 8) ||| (buf.getD 3 0).toUInt64, 4)
  else if len = 127 then
    if buf.length < 10 then none
    else some ((List.range 8).foldl (fun len i => (len <<< 8) ||| (buf.getD (2 + i) 0).toUInt64) 0, 10)
  else some (len, 2)

/-- The mask and the payload from position `pos` on.
SRC: websocket.cpp:74-90 -/
def parsePayload (buf : Bytes) (fin : Bool) (opcode : UInt8) (masked : Bool) (len : UInt64)
    (pos : ℕ) : Scan ParsedFrame UInt8 Bytes :=
  if kMaxFrameSize < len.toNat then
    .failed (lit "frame too large: " ++ toStringNat len.toNat)
  else if masked ∧ buf.length < pos + 4 then .incomplete
  else
    let mask := if masked then slice buf pos 4 else [0, 0, 0, 0]
    let pos := if masked then pos + 4 else pos
    if buf.length < pos + len.toNat then .incomplete
    else
      let payload := slice buf pos len.toNat
      let payload := if masked then xorMask mask payload else payload
      .complete ⟨fin, opcode, payload⟩ (buf.drop (pos + len.toNat))

/-- `parse_frame`; on success the rest is what is left in the buffer, otherwise the buffer is
as it was.
SRC: websocket.cpp:48-91 -/
def parseFrame (buf : Bytes) : Scan ParsedFrame UInt8 Bytes :=
  if buf.length < 2 then .incomplete
  else
    let b0 := buf.getD 0 0
    let b1 := buf.getD 1 0
    if b0 &&& 0x70 ≠ 0 then .failed (lit "reserved bits set (no extensions negotiated)")
    else
      match parseLength buf b1 with
      | none => .incomplete
      | some (len, pos) =>
        parsePayload buf (b0 &&& 0x80 != 0) (b0 &&& 0x0F) (b1 &&& 0x80 != 0) len pos

/-- The parameters of `parse_frame`. -/
structure FrameVars where
  buf : Bytes
  fin : Bool
  opcode : UInt8
  payload : Bytes
  err : Bytes

/-- `n` bytes from position `pos` on; `none` where this is past the end. -/
def sliceChecked (s : Bytes) (pos n : ℕ) : Option Bytes :=
  if pos + n ≤ s.length then some (slice s pos n) else none

/-- `parseLength` with its accesses checked: `none` where one of them is past the end.
SRC: websocket.cpp:60-73 -/
def lengthChecked (buf : Bytes) (b1 : UInt8) : Option (Option (UInt64 × ℕ)) :=
  let len := (b1 &&& 0x7F).toUInt64
  if len = 126 then
    if buf.length < 4 then some none
    else do
      let b2 ← buf[2]?
      let b3 ← buf[3]?
      return some ((b2.toUInt64 <<< 8) ||| b3.toUInt64, 4)
  else if len = 127 then
    if buf.length < 10 then some none
    else do
      let len ← (List.range 8).foldlM (fun (len : UInt64) i => (buf[2 + i]?).map fun b => (len <<< 8) ||| b.toUInt64) 0
      return some (len, 10)
  else some (some (len, 2))

/-- SRC: websocket.cpp:78-83 -/
def maskChecked (buf : Bytes) (masked : Bool) (pos : ℕ) : Option Bytes :=
  if masked then sliceChecked buf pos 4 else some [0, 0, 0, 0]

/-- `parsePayload`, likewise.
SRC: websocket.cpp:74-90 -/
def payloadChecked (v : FrameVars) (masked : Bool) (len : UInt64) (pos : ℕ) : Option (ℤ × FrameVars) :=
  if kMaxFrameSize < len.toNat then
    some (-1, { v with err := lit "frame too large: " ++ toStringNat len.toNat })
  else if masked ∧ v.buf.length < pos + 4 then some (0, v)
  else do
    let mask ← maskChecked v.buf masked pos
    let pos := if masked then pos + 4 else pos
    if v.buf.length < pos + len.toNat then return (0, v)
    else do
      let payload ← sliceChecked v.buf pos len.toNat
      return (1,
        { v with
          payload := if masked then xorMask mask payload else payload
          buf := v.buf.drop (pos + len.toNat) })

/-- `parse_frame` with all its parameters and every access to the buffer checked: what it
returns, and what it leaves in its parameters.
SRC: websocket.cpp:48-91 -/
def parseFrameChecked (v : FrameVars) : Option (ℤ × FrameVars) :=
  if v.buf.length < 2 then some (0, v)
  else do
    let b0 : UInt8 ← v.buf[0]?
    let b1 : UInt8 ← v.buf[1]?
    let v := { v with fin := b0 &&& 0x80 != 0 }
    if b0 &&& 0x70 ≠ 0 then return (-1, { v with err := lit "reserved bits set (no extensions negotiated)" })
    else do
      let v := { v with opcode := b0 &&& 0x0F }
      match ← lengthChecked v.buf b1 with
      | none => return (0, v)
      | some (len, pos) => payloadChecked v (b1 &&& 0x80 != 0) len pos

/-! ## The socket and the client -/

/-- What one call of `stream_.read` returns: bytes, `-2`, `0`, or `-1` with an error. -/
inductive ReadResult where
  | data (first : UInt8) (rest : Bytes)
  | timeout
  | closed
  | failed (err : Bytes)
  deriving DecidableEq

structure Link where
  /-- the error of `stream_.connect`, if it fails -/
  connectError : Option Bytes
  /-- what `random_bytes(16)` returns -/
  keyRaw : Bytes
  /-- what `random_bytes(4)` returns before the write of a given number -/
  mask : ℕ → Bytes
  /-- the error of the write of a given number, if it fails -/
  writeError : ℕ → Option Bytes

/-- The members of `Client`, and the bytes handed to `stream_.write` so far.
SRC: websocket.h:71-78 -/
structure Client where
  readBuf : Bytes
  fragOpcode : UInt8
  fragPayload : Bytes
  isOpen : Bool
  writes : List Bytes
  deriving DecidableEq

/-- The member initialisers of `Client`. -/
def Client.init : Client := ⟨[], 0, [], false, []⟩

/-- `stream_.write`: the error, if there is one. -/
def Client.write (link : Link) (c : Client) (bytes : Bytes) : Option Bytes × Client :=
  (link.writeError c.writes.length, { c with writes := c.writes ++ [bytes] })

/-- `Client::send`: the error, if it returns `false`.
SRC: websocket.cpp:161-176 -/
def Client.send (link : Link) (c : Client) (opcode : UInt8) (payload : Bytes) :
    Option Bytes × Client :=
  if !c.isOpen then (some (lit "websocket not open"), c)
  else
    let mask := link.mask c.writes.length
    let mask := if mask.length ≠ 4 then List.replicate 4 0x5A else mask
    match c.write link (makeFrame opcode payload mask) with
    | (some err, c) => (some err, { c with isOpen := false })
    | (none, c) => (none, c)

/-- SRC: websocket.cpp:244-253 -/
def Client.close (link : Link) (c : Client) : Client :=
  let c := if c.isOpen then (c.send link kOpClose [0x03, 0xE8]).2 else c
  { c with
    isOpen := false
    readBuf := []
    fragPayload := [] }

/-! ## Receiving -/

/-- What the `switch` of `recv` does with one frame. -/
inductive Handled where
  | next (c : Client)
  | message (f : Frame) (c : Client)
  | failed (err : Bytes) (c : Client)

/-- SRC: websocket.cpp:206-240 -/
def Client.handleFrame (link : Link) (c : Client) (f : ParsedFrame) : Handled :=
  if f.opcode = kOpPing then
    -- the result of the pong is not looked at
    .next (c.send link kOpPong f.payload).2
  else if f.opcode = kOpPong then .next c
  else if f.opcode = kOpClose then
    let c := (c.send link kOpClose f.payload).2
    .failed (lit "close frame received") { c with isOpen := false }
  else if f.opcode = 0 then
    let payload := c.fragPayload ++ f.payload
    if f.fin then
      .message ⟨c.fragOpcode, payload⟩ { c with fragPayload := [], fragOpcode := 0 }
    else .next { c with fragPayload := payload }
  else if !f.fin then .next { c with fragOpcode := f.opcode, fragPayload := f.payload }
  else .message ⟨f.opcode, f.payload⟩ c

/-- A length is read from a byte at least. -/
theorem pos_of_parseLength (buf : Bytes) (b1 : UInt8) (len : UInt64) (pos : ℕ)
    (h : parseLength buf b1 = some (len, pos)) : 0 < pos := by
  unfold parseLength at h
  simp only at h
  split_ifs at h
  · cases h
    decide
  · cases h
    decide
  · cases h
    decide

/-- A frame that is read shortens the buffer. -/
theorem length_of_parseFrame (buf : Bytes) (f : ParsedFrame) (rest : Bytes)
    (h : parseFrame buf = .complete f rest) : rest.length < buf.length := by
  unfold parseFrame at h
  split_ifs at h with hshort
  simp only at h
  split_ifs at h with hreserved
  cases hlength : parseLength buf (buf.getD 1 0) with
  | none =>
    rw [hlength] at h
    cases h
  | some parsed =>
    obtain ⟨len, pos⟩ := parsed
    have hpos := pos_of_parseLength buf _ len pos hlength
    rw [hlength] at h
    simp only [parsePayload] at h
    split_ifs at h with _ _ hmasked
    · cases h
      rw [List.length_drop]
      omega
    · cases h
      rw [List.length_drop]
      omega

/-- Sending reads nothing. -/
@[simp] theorem Client.readBuf_send (link : Link) (c : Client) (opcode : UInt8) (payload : Bytes) :
    (c.send link opcode payload).2.readBuf = c.readBuf := by
  unfold Client.send
  split_ifs
  · rfl
  · simp only [Client.write]
    cases link.writeError c.writes.length with
    | some err => rfl
    | none => rfl

/-- A frame that `recv` passes over leaves the buffer as it is. -/
theorem Client.readBuf_of_handleFrame (link : Link) (c : Client) (f : ParsedFrame) (c' : Client)
    (h : c.handleFrame link f = .next c') : c'.readBuf = c.readBuf := by
  unfold Client.handleFrame at h
  simp only at h
  split_ifs at h
  · cases h
    exact c.readBuf_send link kOpPong f.payload
  · cases h
    rfl
  · cases h
    rfl
  · cases h
    rfl

/-- How the frames in the buffer leave `recv`. -/
inductive Drained where
  | starved (c : Client)
  | message (f : Frame) (c : Client)
  | failed (err : Bytes) (c : Client)

/-- The loop of `recv` between two reads.
SRC: websocket.cpp:183-241 -/
def Client.drain (link : Link) (c : Client) : Drained :=
  match _hparse : parseFrame c.readBuf with
  | .incomplete => .starved c
  | .failed err => .failed err { c with isOpen := false }
  | .complete f rest =>
    match _hnext : { c with readBuf := rest }.handleFrame link f with
    | .next c' => c'.drain link
    | .message f c' => .message f c'
    | .failed err c' => .failed err c'
termination_by c.readBuf.length
decreasing_by
  rw [Client.readBuf_of_handleFrame link _ f c' _hnext]
  exact length_of_parseFrame c.readBuf f rest _hparse

/-- What `recv` returns: `1` with a frame, `0`, or `-1` with an error; `waiting` when its read
has not returned. -/
inductive Received where
  | message (f : Frame)
  | timeout
  | failed (err : Bytes)
  | waiting
  deriving DecidableEq

/-- The loop of `recv`.
SRC: websocket.cpp:183-241 -/
def Client.recvLoop (link : Link) (c : Client) (script : List ReadResult) :
    Received × Client × List ReadResult :=
  match c.drain link with
  | .message f c => (.message f, c, script)
  | .failed err c => (.failed err, c, script)
  | .starved c =>
    match script with
    | [] => (.waiting, c, [])
    | .timeout :: script => (.timeout, c, script)
    | .closed :: script => (.failed (lit "connection closed"), { c with isOpen := false }, script)
    | .failed err :: script =>
      (.failed (if err = [] then lit "connection closed" else err), { c with isOpen := false }, script)
    | .data first rest :: script =>
      { c with readBuf := c.readBuf ++ first :: rest }.recvLoop link script

/-- `Client::recv`.
SRC: websocket.cpp:178-242 -/
def Client.recv (link : Link) (c : Client) (script : List ReadResult) :
    Received × Client × List ReadResult :=
  if !c.isOpen then (.failed (lit "websocket not open"), c, script)
  else c.recvLoop link script

/-! ## Connecting -/

def crlf : Bytes := [13, 10]

/-- The end of a response head. -/
def headEnd : Bytes := [13, 10, 13, 10]

/-- SRC: websocket.cpp:106-113 -/
def upgradeRequest (host path key : Bytes) (extraHeaders : List (Bytes × Bytes)) : Bytes :=
  lit "GET " ++ path ++ lit " HTTP/1.1" ++ crlf ++
    lit "Host: " ++ host ++ crlf ++
    lit "Upgrade: websocket" ++ crlf ++
    lit "Connection: Upgrade" ++ crlf ++
    lit "Sec-WebSocket-Key: " ++ key ++ crlf ++
    lit "Sec-WebSocket-Version: 13" ++ crlf ++
    (extraHeaders.flatMap fun h => h.1 ++ lit ": " ++ h.2 ++ crlf) ++ crlf

/-- What `connect` returns; `waiting` when its read has not returned. -/
inductive Connected where
  | done
  | failed (err : Bytes)
  | waiting
  deriving DecidableEq

/-- The loop that reads the response head, with the head so far; `err` is the error text
the caller passed in.
SRC: websocket.cpp:116-131 -/
def readHead (err : Bytes) (head : Bytes) (script : List ReadResult) :
    Connected × Bytes × List ReadResult :=
  match find head headEnd 0 with
  | some _ => (.done, head, script)
  | none =>
    match script with
    | [] => (.waiting, head, [])
    | .timeout :: script => (.failed (if err = [] then lit "upgrade timed out" else err), head, script)
    | .closed :: script =>
      (.failed (if err = [] then lit "connection closed during upgrade" else err), head, script)
    | .failed readErr :: script =>
      (.failed (if readErr = [] then lit "connection closed during upgrade" else readErr), head, script)
    | .data first rest :: script =>
      let head := head ++ first :: rest
      if 64 * 1024 < head.length then (.failed (lit "oversized upgrade response"), head, script)
      else readHead err head script

/-- The checks on the response head: the error, if it is refused.
SRC: websocket.cpp:136-155 -/
def checkHead (sha1Raw : Bytes → Bytes) (key head : Bytes) : Option Bytes :=
  let status : ℤ := match find head [32] 0 with
    | none => 0
    | some sp => atoi (head.drop (sp + 1))
  if status ≠ 101 then some (lit "upgrade refused: " ++ clip head 400 (lit "..."))
  else
    match find (lower head) (lit "sec-websocket-accept:") 0 with
    | none => some (lit "upgrade response missing Sec-WebSocket-Accept")
    | some pos =>
      let got := match find head crlf pos with
        | some eol => trim (slice head (pos + 21) (sizeSub (sizeSub eol pos) 21))
        | none => trim (head.drop (pos + 21))
      if got ≠ acceptKeyFor sha1Raw key then some (lit "Sec-WebSocket-Accept mismatch") else none

/-- The end of `connect`, with the bytes read up to then.
SRC: websocket.cpp:132-158 -/
def Client.upgrade (sha1Raw : Bytes → Bytes) (c : Client) (key head : Bytes) : Connected × Client :=
  let stop := (find head headEnd 0).getD 0
  let c := { c with readBuf := head.drop (stop + 4) }
  match checkHead sha1Raw key (head.take stop) with
  | some err => (.failed err, c)
  | none => (.done, { c with isOpen := true })

/-- `Client::connect`; `err` is the error text the caller passed in.
SRC: websocket.cpp:93-159 -/
def Client.connect (sha1Raw : Bytes → Bytes) (link : Link) (c : Client) (host path : Bytes)
    (extraHeaders : List (Bytes × Bytes)) (err : Bytes) (script : List ReadResult) :
    Connected × Client × List ReadResult :=
  let c := c.close link
  match link.connectError with
  | some err => (.failed err, c, script)
  | none =>
    if link.keyRaw.length ≠ 16 then (.failed (lit "no entropy for Sec-WebSocket-Key"), c, script)
    else
      let key := base64Encode link.keyRaw
      match c.write link (upgradeRequest host path key extraHeaders) with
      | (some err, c) => (.failed err, c, script)
      | (none, c) =>
        match readHead err [] script with
        | (.done, head, script) =>
          let (outcome, c) := c.upgrade sha1Raw key head
          (outcome, c, script)
        | (outcome, _, script) => (outcome, c, script)

end HaikuAgent.Model.WebSocket
