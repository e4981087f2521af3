import HaikuAgent.Model.Util

/-!
# The MGS `AgentMessage` frame (`mgs.cpp`)

The binary frame exchanged over the control and data channels: a 116-byte header
of fixed offsets, a 4-byte payload length, the payload. Integers are fixed-width
as in the source, so the header-length check adds in 32 bits. `sha256_raw` is a
parameter that returns 32 bytes; nothing here depends on which ones.
-/

set_option autoImplicit false

namespace HaikuAgent.Model.Mgs

open HaikuAgent.Foundation

/-- SRC: mgs.h:48-57 -/
structure AgentMessage where
  messageType : Bytes
  schemaVersion : UInt32
  createdMs : UInt64
  sequence : Int64
  flags : UInt64
  messageId : Bytes
  payloadType : UInt32
  payload : Bytes
  deriving DecidableEq

/-! ## Message and payload types -/

def kMsgInteractiveShell : Bytes := lit "interactive_shell"
def kMsgChannelClosed : Bytes := lit "channel_closed"
def kMsgAcknowledge : Bytes := lit "acknowledge"
def kMsgAgentSessionState : Bytes := lit "agent_session_state"
def kMsgInputStreamData : Bytes := lit "input_stream_data"
def kMsgOutputStreamData : Bytes := lit "output_stream_data"

def kPayloadOutput : UInt32 := 1
def kPayloadSize : UInt32 := 3
def kPayloadHandshakeRequest : UInt32 := 5
def kPayloadHandshakeResponse : UInt32 := 6
def kPayloadHandshakeComplete : UInt32 := 7
def kPayloadStdErr : UInt32 := 11
def kPayloadExitCode : UInt32 := 12

/-! ## Layout -/

def kHeaderLength : ℕ := 116
def kTypeOffset : ℕ := 4
def kTypeLength : ℕ := 32
def kSchemaOffset : ℕ := 36
def kCreatedOffset : ℕ := 40
def kSequenceOffset : ℕ := 48
def kFlagsOffset : ℕ := 56
def kUuidOffset : ℕ := 64
def kDigestOffset : ℕ := 80
def kPayloadTypeOffset : ℕ := 112
def kPayloadLenOffset : ℕ := 116
def kPayloadOffset : ℕ := 120

/-- `put_u32`: the byte at `pos + i` becomes bits `24 - 8i` and up of `v`.
SRC: mgs.cpp:42-44 -/
def putU32 (b : Bytes) (pos : ℕ) (v : UInt32) : Bytes :=
  (List.range 4).foldl
    (fun b i => b.set (pos + i) ((v >>> UInt32.ofNat (24 - 8 * i)) &&& 0xFF).toUInt8) b

/-- SRC: mgs.cpp:46-48 -/
def putU64 (b : Bytes) (pos : ℕ) (v : UInt64) : Bytes :=
  (List.range 8).foldl
    (fun b i => b.set (pos + i) ((v >>> UInt64.ofNat (56 - 8 * i)) &&& 0xFF).toUInt8) b

/-- SRC: mgs.cpp:50-54 -/
def getU32 (b : Bytes) (pos : ℕ) : UInt32 :=
  (List.range 4).foldl (fun v i => (v <<< 8) ||| (b.getD (pos + i) 0).toUInt32) 0

/-- SRC: mgs.cpp:56-60 -/
def getU64 (b : Bytes) (pos : ℕ) : UInt64 :=
  (List.range 8).foldl (fun v i => (v <<< 8) ||| (b.getD (pos + i) 0).toUInt64) 0

/-- `hex_nibble`; `none` is the source's `-1`.
SRC: mgs.cpp:62-67 -/
def hexNibble (c : UInt8) : Option UInt8 :=
  if 48 ≤ c ∧ c ≤ 57 then some (c - 48)
  else if 97 ≤ c ∧ c ≤ 102 then some (c - 97 + 10)
  else if 65 ≤ c ∧ c ≤ 70 then some (c - 65 + 10)
  else none

/-- The loop of `uuid_to_wire`: the text from index `i` on, and the bytes read so far.
SRC: mgs.cpp:74-81 -/
def uuidToWireLoop : Bytes → List UInt8 → Option (List UInt8)
  | c :: d :: rest, bytes =>
    if bytes.length < 16 then
      if c = 45 then uuidToWireLoop (d :: rest) bytes
      else
        match hexNibble c, hexNibble d with
        | some hi, some lo => uuidToWireLoop rest (bytes ++ [(hi <<< 4) ||| lo])
        | _, _ => none
    else some bytes
  | _, bytes => some bytes

/-- `uuid_to_wire`; `none` is the source's `false`.
SRC: mgs.cpp:71-87 -/
def uuidToWire (uuidText : Bytes) : Option (Vector UInt8 16) :=
  match uuidToWireLoop uuidText [] with
  | some bytes =>
    if h : bytes.length = 16 then
      some ⟨(bytes.drop 8 ++ bytes.take 8).toArray, by simp; omega⟩
    else none
  | none => none

/-- SRC: mgs.cpp:93 -/
def digits : Bytes := lit "0123456789abcdef"

/-- The two digits of one byte.
SRC: mgs.cpp:98-99 -/
def hexPair (b : UInt8) : Bytes :=
  [digits.getD (b >>> 4).toNat 0, digits.getD (b &&& 0x0F).toNat 0]

/-- `uuid_from_wire`: the most significant half was stored second.
SRC: mgs.cpp:89-102 -/
def uuidFromWire (wire : Vector UInt8 16) : Bytes :=
  let bytes := wire.toList.drop 8 ++ wire.toList.take 8
  (List.range 16).foldl
    (fun out i =>
      (if i = 4 ∨ i = 6 ∨ i = 8 ∨ i = 10 then out ++ [45] else out) ++ hexPair (bytes.getD i 0)) []

/-- `serialize`.
SRC: mgs.cpp:104-123 -/
def serialize (sha256Raw : Bytes → Vector UInt8 32) (m : AgentMessage) : Bytes :=
  let out := List.replicate (kPayloadOffset + m.payload.length) (0 : UInt8)
  let out := putU32 out 0 (UInt32.ofNat kHeaderLength)
  -- the type is space-padded to its field
  let out := (List.range kTypeLength).foldl
    (fun b i => b.set (kTypeOffset + i)
      (if i < m.messageType.length then m.messageType.getD i 0 else 32)) out
  let out := putU32 out kSchemaOffset m.schemaVersion
  let out := putU64 out kCreatedOffset m.createdMs
  let out := putU64 out kSequenceOffset m.sequence.toUInt64
  let out := putU64 out kFlagsOffset m.flags
  let uuidBytes := (uuidToWire m.messageId).getD (Vector.replicate 16 0)
  let out := overwrite out kUuidOffset uuidBytes.toList
  let out := overwrite out kDigestOffset (sha256Raw m.payload).toList
  let out := putU32 out kPayloadTypeOffset m.payloadType
  let out := putU32 out kPayloadLenOffset (UInt32.ofNat m.payload.length)
  overwrite out kPayloadOffset m.payload

/-- `deserialize`: the boolean it returns, `out` and `err` afterwards.
SRC: mgs.cpp:125-164 -/
def deserialize (raw : Bytes) (out : AgentMessage) (err : Bytes) :
    Except Thrown (Bool × AgentMessage × Bytes) :=
  if raw.length < kPayloadOffset then
    .ok (false, out, lit "message too short: " ++ toStringNat raw.length ++ lit " bytes")
  else
    let headerLen := getU32 raw 0
    -- `header_len + 4` is a `uint32_t` sum: it wraps before `raw.size()` is compared
    if headerLen.toNat ≠ kHeaderLength ∧
        (headerLen.toNat < kHeaderLength ∨ raw.length < (headerLen + 4).toNat) then
      .ok (false, out, lit "unexpected header length " ++ toStringNat headerLen.toNat)
    else
      let type := (slice raw kTypeOffset kTypeLength).rdropWhile fun c => c == 32 || c == 0
      match substr raw (headerLen.toNat + 4) with
      | .error e => .error e
      | .ok payload =>
        .ok (true,
          { messageType := type
            schemaVersion := getU32 raw kSchemaOffset
            createdMs := getU64 raw kCreatedOffset
            sequence := (getU64 raw kSequenceOffset).toInt64
            flags := getU64 raw kFlagsOffset
            messageId := uuidFromWire (Vector.ofFn fun i => raw.getD (kUuidOffset + i) 0)
            payloadType := getU32 raw kPayloadTypeOffset
            payload := payload }, err)

end HaikuAgent.Model.Mgs
