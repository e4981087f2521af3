import Mathlib.Data.List.Flatten
import HaikuAgent.Foundation.Bytes

/-!
# HTTP/1.1 responses on the wire

The grammar of RFC 9110 and RFC 9112 for a response, as far as a client that asked for one
response has to know it: a status line, field lines, and a body delimited by a length, by
the chunked coding or by the end of the connection. As in `Interface.JsonText`, what the
grammar demands is in the types.
-/

set_option autoImplicit false

namespace HaikuAgent.Interface.HttpMessage

open HaikuAgent.Foundation

/-! ## Characters -/

/-- `tchar` -/
def isTchar (c : UInt8) : Bool :=
  (48 ≤ c && c ≤ 57) || (65 ≤ c && c ≤ 90) || (97 ≤ c && c ≤ 122) ||
    ([33, 35, 36, 37, 38, 39, 42, 43, 45, 46, 94, 95, 96, 124, 126] : Bytes).contains c

/-- `HTAB / SP / VCHAR / obs-text` -/
def isFieldChar (c : UInt8) : Bool := c == 9 || (32 ≤ c && c ≠ 127)

def isBlankChar (c : UInt8) : Bool := c == 32 || c == 9

/-- A letter's lower case. -/
def lowerChar (c : UInt8) : UInt8 := if 65 ≤ c ∧ c ≤ 90 then c + 32 else c

def lowerCase (s : Bytes) : Bytes := s.map lowerChar

/-- `token = 1*tchar` -/
structure Token where
  bytes : Bytes
  ne_nil : bytes ≠ []
  chars : ∀ c ∈ bytes, isTchar c

/-- `OWS`, `BWS` -/
structure Blanks where
  bytes : Bytes
  chars : ∀ c ∈ bytes, isBlankChar c

/-! ## Numbers -/

def decimalByte (d : Fin 10) : UInt8 := UInt8.ofNat (48 + d)

/-- The number decimal digits spell. -/
def decimalValue (ds : List (Fin 10)) : ℕ := ds.foldl (fun n d => 10 * n + d.val) 0

/-- `HEXDIG`, in either case -/
structure HexDigit where
  value : Fin 16
  upper : Bool

def HexDigit.byte (d : HexDigit) : UInt8 :=
  UInt8.ofNat (if d.value < 10 then 48 + d.value else if d.upper then 55 + d.value else 87 + d.value)

/-- The number hexadecimal digits spell. -/
def hexValue (ds : List HexDigit) : ℕ := ds.foldl (fun n d => 16 * n + d.value.val) 0

/-! ## The chunked coding -/

/-- `qdtext / quoted-pair` -/
inductive QuotedItem where
  | text (c : UInt8) (h : isFieldChar c ∧ c ≠ 34 ∧ c ≠ 92)
  | pair (c : UInt8) (h : isFieldChar c)

def QuotedItem.bytes : QuotedItem → Bytes
  | text c _ => [c]
  | pair c _ => [92, c]

/-- `chunk-ext-val = token / quoted-string` -/
inductive ExtValue where
  | token (t : Token)
  | quoted (items : List QuotedItem)

def ExtValue.text : ExtValue → Bytes
  | token t => t.bytes
  | quoted items => 34 :: (items.flatMap QuotedItem.bytes ++ [34])

/-- `BWS ";" BWS chunk-ext-name [ BWS "=" BWS chunk-ext-val ]` -/
structure ChunkExt where
  before : Blanks
  after : Blanks
  name : Token
  value : Option (Blanks × Blanks × ExtValue)

def ChunkExt.text (e : ChunkExt) : Bytes :=
  e.before.bytes ++ 59 :: (e.after.bytes ++ (e.name.bytes ++
    match e.value with
    | none => []
    | some (before, after, v) => before.bytes ++ 61 :: (after.bytes ++ v.text)))

/-- `chunk-size [ chunk-ext ]`, for a size of 64 bits at most -/
structure SizeLine where
  digits : List HexDigit
  exts : List ChunkExt
  ne_nil : digits ≠ []
  size_lt : hexValue digits < 2 ^ 64

def SizeLine.text (l : SizeLine) : Bytes :=
  l.digits.map HexDigit.byte ++ l.exts.flatMap ChunkExt.text

def SizeLine.size (l : SizeLine) : ℕ := hexValue l.digits

def lineEnd : Bytes := [13, 10]

/-- `chunk = chunk-size [ chunk-ext ] CRLF chunk-data CRLF` -/
structure Chunk where
  line : SizeLine
  data : Bytes
  size : line.size = data.length
  data_ne_nil : data ≠ []

def Chunk.text (c : Chunk) : Bytes := c.line.text ++ (lineEnd ++ (c.data ++ lineEnd))

/-- A `chunked-body` up to its `last-chunk`. -/
structure Coding where
  chunks : List Chunk
  last : SizeLine
  last_size : last.size = 0

namespace Coding

def text (c : Coding) : Bytes := c.chunks.flatMap Chunk.text ++ (c.last.text ++ lineEnd)

def body (c : Coding) : Bytes := c.chunks.flatMap Chunk.data

end Coding

/-! ## Responses -/

/-- `field-line`; the value has no blanks at its ends. -/
structure Field where
  name : Token
  before : Blanks
  value : Bytes
  after : Blanks
  chars : ∀ c ∈ value, c ≠ 13 ∧ c ≠ 10
  head : ∀ c ∈ value.head?, ¬isBlankChar c
  last : ∀ c ∈ value.getLast?, ¬isBlankChar c

namespace Field

def text (f : Field) : Bytes :=
  f.name.bytes ++ 58 :: (f.before.bytes ++ (f.value ++ f.after.bytes))

/-- The name, which is the same in either case. -/
def key (f : Field) : Bytes := lowerCase f.name.bytes

end Field

def contentLength : Bytes := lit "content-length"

def transferEncoding : Bytes := lit "transfer-encoding"

/-- The body, as one of the three ways of RFC 9112, section 6 delimits it. -/
inductive Payload where
  /-- by `Content-Length`, written with these digits -/
  | sized (digits : List (Fin 10)) (body : Bytes) (ne_nil : digits ≠ [])
      (size : decimalValue digits = body.length) (size_lt : body.length < 2 ^ 64)
  /-- by the chunked coding, with a trailer section behind it -/
  | chunked (coding : Coding) (trailer : Bytes)
  /-- by the end of the connection -/
  | toEnd (body : Bytes)

namespace Payload

def text : Payload → Bytes
  | sized _ body _ _ _ => body
  | chunked coding trailer => coding.text ++ trailer
  | toEnd body => body

def body : Payload → Bytes
  | sized _ body _ _ _ => body
  | chunked coding _ => coding.body
  | toEnd body => body

/-- The framing header the payload needs is there, and no other one. -/
def FramedBy (fields : List Field) : Payload → Prop
  | sized digits _ _ _ _ =>
    (∃ f ∈ fields, f.key = contentLength ∧ f.value = digits.map decimalByte) ∧
      ∀ f ∈ fields, f.key ≠ transferEncoding
  | chunked _ _ =>
    -- `chunked` is the last of the codings applied
    (∃ f ∈ fields, f.key = transferEncoding ∧ lit "chunked" <:+ lowerCase f.value) ∧
      ∀ f ∈ fields, f.key ≠ contentLength
  | toEnd _ => ∀ f ∈ fields, f.key ≠ contentLength ∧ f.key ≠ transferEncoding

end Payload

/-- A response; its status is a number of three digits. -/
structure Message where
  status : ℕ
  reason : Bytes
  fields : List Field
  payload : Payload
  status_lt : status < 1000
  reason_chars : ∀ c ∈ reason, c ≠ 13 ∧ c ≠ 10
  distinct : (fields.map Field.key).Nodup
  framed : payload.FramedBy fields

namespace Message

def statusLine (m : Message) : Bytes :=
  lit "HTTP/1.1 " ++ ([m.status / 100, m.status / 10 % 10, m.status % 10].map fun d =>
    UInt8.ofNat (48 + d)) ++ 32 :: m.reason

/-- The lines of the header block. -/
def lines (m : Message) : List Bytes := m.statusLine :: m.fields.map Field.text

/-- The header block, with the blank line that ends it. -/
def headerBlock (m : Message) : Bytes := (m.lines.flatMap fun l => l ++ lineEnd) ++ lineEnd

def encode (m : Message) : Bytes := m.headerBlock ++ m.payload.text

/-- The value of the field with a name in lower case. -/
def field (m : Message) (key : Bytes) : Option Bytes :=
  (m.fields.find? fun f => f.key == key).map Field.value

end Message

end HaikuAgent.Interface.HttpMessage
