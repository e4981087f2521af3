import HaikuAgent.Foundation.Bytes

/-!
# What a WebSocket server sends

The frames of RFC 6455 as bytes, and the messages a server sends as frames: a text or
binary message is one frame or a start frame and its continuations, and pings and
pongs may stand before any of them. The bounds a server keeps are fields, so that
every value here is one that may be sent.
-/

set_option autoImplicit false

namespace HaikuAgent.Interface.ServerFrames

open HaikuAgent.Foundation

/-- The largest payload of one frame that is considered. -/
def maxPayload : ℕ := 2 ^ 20

/-! ## Frames -/

structure ServerFrame where
  fin : Bool
  opcode : UInt8
  mask : Option (Vector UInt8 4)
  payload : Bytes
  opcode_lt : opcode < 16
  size : payload.length ≤ maxPayload

/-- The seven length bits. -/
def lengthCode (n : ℕ) : UInt8 :=
  if n < 126 then UInt8.ofNat n else if n < 2 ^ 16 then 126 else 127

/-- The extended length. -/
def lengthBytes (n : ℕ) : Bytes :=
  if n < 126 then [] else if n < 2 ^ 16 then bigEndian 2 n else bigEndian 8 n

/-- Octet `i` is combined with octet `i` modulo 4 of the key. -/
def applyMask (key : Vector UInt8 4) (payload : Bytes) : Bytes :=
  payload.mapIdx fun i b => b ^^^ key[i % 4]

namespace ServerFrame

def flags (f : ServerFrame) : UInt8 := (if f.fin then 0x80 else 0) ||| f.opcode

def lengthByte (f : ServerFrame) : UInt8 :=
  (if f.mask.isSome then 0x80 else 0) ||| lengthCode f.payload.length

def maskBytes (f : ServerFrame) : Bytes :=
  match f.mask with
  | none => []
  | some key => key.toList

def body (f : ServerFrame) : Bytes :=
  match f.mask with
  | none => f.payload
  | some key => applyMask key f.payload

/-- The frame on the wire. -/
def encode (f : ServerFrame) : Bytes :=
  f.flags :: f.lengthByte :: (lengthBytes f.payload.length ++ (f.maskBytes ++ f.body))

/-- Masking does not change the length. -/
@[simp] theorem length_body (f : ServerFrame) : f.body.length = f.payload.length := by
  unfold body
  cases f.mask with
  | none => rfl
  | some key => exact List.length_mapIdx

/-- A mask is four bytes. -/
theorem length_maskBytes (f : ServerFrame) :
    f.maskBytes.length = if f.mask.isSome then 4 else 0 := by
  unfold maskBytes
  cases f.mask with
  | none => rfl
  | some key => simp

end ServerFrame

/-! ## Messages -/

inductive DataType where
  | text
  | binary

def DataType.opcode : DataType → UInt8
  | .text => 0x1
  | .binary => 0x2

/-- The payload of one frame, and how it is masked. -/
structure Piece where
  mask : Option (Vector UInt8 4)
  payload : Bytes
  size : payload.length ≤ maxPayload

/-- A piece as a frame. -/
def Piece.frame (p : Piece) (fin : Bool) (opcode : UInt8) (hopcode : opcode < 16) : ServerFrame :=
  ⟨fin, opcode, p.mask, p.payload, hopcode, p.size⟩

inductive ControlFrame where
  | ping (p : Piece)
  | pong (p : Piece)

def ControlFrame.frame : ControlFrame → ServerFrame
  | .ping p => p.frame true 0x9 (by decide)
  | .pong p => p.frame true 0xA (by decide)

/-- A continuation, and the control frames before it. -/
structure Fragment where
  controls : List ControlFrame
  piece : Piece

/-- A message: its start frame, and its continuations if it is split. -/
structure Message where
  type : DataType
  start : Piece
  fragments : List Fragment

def continuationFrames : List Fragment → List ServerFrame
  | [] => []
  | fragment :: rest =>
    fragment.controls.map ControlFrame.frame ++
      fragment.piece.frame rest.isEmpty 0x0 (by decide) :: continuationFrames rest

namespace Message

def payload (m : Message) : Bytes :=
  m.start.payload ++ m.fragments.flatMap fun fragment => fragment.piece.payload

def frames (m : Message) : List ServerFrame :=
  m.start.frame m.fragments.isEmpty m.type.opcode (by cases m.type <;> decide) ::
    continuationFrames m.fragments

end Message

/-- What a server sends: messages, each with the control frames before it, and the control
frames after the last. -/
structure Transmission where
  messages : List (List ControlFrame × Message)
  trailing : List ControlFrame

namespace Transmission

def frames (t : Transmission) : List ServerFrame :=
  t.messages.flatMap (fun m => m.1.map ControlFrame.frame ++ m.2.frames) ++
    t.trailing.map ControlFrame.frame

/-- The bytes of the transmission. -/
def wire (t : Transmission) : Bytes := t.frames.flatMap ServerFrame.encode

end Transmission

end HaikuAgent.Interface.ServerFrames
