import HaikuAgent.Model.Json

/-!
# JSON texts

The grammar of RFC 8259 as derivation trees: every tree is one derivation, `text` is the
text it derives and `denote` the value the text stands for. What the grammar demands is
in the types, so that every tree is a valid text: a number has no leading zero, a fraction
or an exponent has a digit, and a `\u` escape is that of a character, alone or as its two
surrogates.

The grammar's `unescaped` characters stand here as the bytes of their UTF-8 forms, taken
one by one: each such byte is an item, whether or not the bytes around it form a character.
-/

set_option autoImplicit false

namespace HaikuAgent.Interface.JsonText

open HaikuAgent.Foundation
open HaikuAgent.Model.Json

/-! ## Whitespace -/

inductive Blank where
  | space
  | tab
  | lineFeed
  | carriageReturn

def Blank.byte : Blank → UInt8
  | space => 0x20
  | tab => 0x09
  | lineFeed => 0x0A
  | carriageReturn => 0x0D

/-- `ws` -/
abbrev Ws := List Blank

def wsText (ws : Ws) : Bytes := ws.map Blank.byte

/-! ## Numbers -/

def digitByte (d : Fin 10) : UInt8 := UInt8.ofNat (48 + d)

def digitsText (ds : List (Fin 10)) : Bytes := ds.map digitByte

/-- One digit or more. -/
structure Digits where
  first : Fin 10
  rest : List (Fin 10)

def Digits.text (ds : Digits) : Bytes := digitsText (ds.first :: ds.rest)

/-- `int = zero / ( digit1-9 *DIGIT )` -/
inductive IntPart where
  | zero
  | positive (first : Fin 10) (rest : List (Fin 10)) (hfirst : first ≠ 0)

def IntPart.digits : IntPart → List (Fin 10)
  | zero => [0]
  | positive first rest _ => first :: rest

/-- `exp = e [ minus / plus ] 1*DIGIT` -/
structure Exponent where
  upper : Bool
  /-- whether the sign, if there is one, is a minus -/
  sign : Option Bool
  digits : Digits

def signText : Option Bool → Bytes
  | none => []
  | some true => [0x2D]
  | some false => [0x2B]

def Exponent.text (e : Exponent) : Bytes :=
  (if e.upper then 0x45 else 0x65) :: (signText e.sign ++ e.digits.text)

/-- `number = [ minus ] int [ frac ] [ exp ]` -/
structure NumberText where
  minus : Bool
  int : IntPart
  frac : Option Digits
  exp : Option Exponent

namespace NumberText

def fracText (n : NumberText) : Bytes :=
  match n.frac with
  | none => []
  | some ds => 0x2E :: ds.text

def expText (n : NumberText) : Bytes :=
  match n.exp with
  | none => []
  | some e => e.text

def text (n : NumberText) : Bytes :=
  (if n.minus then [0x2D] else []) ++ (digitsText n.int.digits ++ (n.fracText ++ n.expText))

/-- The token has neither a fraction nor an exponent. -/
def integral (n : NumberText) : Bool := n.frac.isNone && n.exp.isNone

end NumberText

/-! ## Strings -/

/-- The escapes of one character. -/
inductive Escape where
  | quote
  | backslash
  | slash
  | backspace
  | formFeed
  | lineFeed
  | carriageReturn
  | tab

/-- What stands behind the backslash. -/
def Escape.letter : Escape → UInt8
  | quote => 0x22
  | backslash => 0x5C
  | slash => 0x2F
  | backspace => 0x62
  | formFeed => 0x66
  | lineFeed => 0x6E
  | carriageReturn => 0x72
  | tab => 0x74

def Escape.meaning : Escape → UInt8
  | quote => 0x22
  | backslash => 0x5C
  | slash => 0x2F
  | backspace => 0x08
  | formFeed => 0x0C
  | lineFeed => 0x0A
  | carriageReturn => 0x0D
  | tab => 0x09

/-- A hexadecimal digit in either case. -/
def hexByte (d : Fin 16) (upper : Bool) : UInt8 :=
  UInt8.ofNat (if d.val < 10 then 48 + d else if upper then 55 + d else 87 + d)

/-- The four digits of a `\u` escape, each in its own case. -/
def hex4Text (n : ℕ) (upper : Fin 4 → Bool) : Bytes :=
  [hexByte (.ofNat 16 (n / 4096)) (upper 0), hexByte (.ofNat 16 (n / 256)) (upper 1),
    hexByte (.ofNat 16 (n / 16)) (upper 2), hexByte (.ofNat 16 n) (upper 3)]

/-- A byte that may stand in a string as it is. -/
def Unescaped (b : UInt8) : Prop := 0x20 ≤ b ∧ b ≠ 0x22 ∧ b ≠ 0x5C

instance (b : UInt8) : Decidable (Unescaped b) := inferInstanceAs (Decidable (_ ∧ _ ∧ _))

inductive StringItem where
  | byte (b : UInt8) (h : Unescaped b)
  | escape (e : Escape)
  /-- `\u` with the code of a character of the basic plane -/
  | unicode (c : Char) (h : c.toNat < 0x10000) (upper : Fin 4 → Bool)
  /-- a character beyond it, as its two surrogates -/
  | pair (c : Char) (h : 0x10000 ≤ c.toNat) (upper upper' : Fin 4 → Bool)

def highSurrogate (c : Char) : ℕ := 0xD800 + (c.toNat - 0x10000) / 1024

def lowSurrogate (c : Char) : ℕ := 0xDC00 + (c.toNat - 0x10000) % 1024

namespace StringItem

def text : StringItem → Bytes
  | byte b _ => [b]
  | escape e => [0x5C, e.letter]
  | unicode c _ upper => 0x5C :: 0x75 :: hex4Text c.toNat upper
  | pair c _ upper upper' =>
    0x5C :: 0x75 :: (hex4Text (highSurrogate c) upper ++
      0x5C :: 0x75 :: hex4Text (lowSurrogate c) upper')

/-- A character stands for its UTF-8 form. -/
def denote : StringItem → Bytes
  | byte b _ => [b]
  | escape e => [e.meaning]
  | unicode c _ _ => String.utf8EncodeChar c
  | pair c _ _ _ => String.utf8EncodeChar c

end StringItem

/-- What stands between the quotes. -/
abbrev StringText := List StringItem

namespace StringText

def body (s : StringText) : Bytes := s.flatMap StringItem.text

def text (s : StringText) : Bytes := 0x22 :: (body s ++ [0x22])

def denote (s : StringText) : Bytes := s.flatMap StringItem.denote

end StringText

/-! ## Values -/

mutual

/-- `value`; the whitespace around an element or a member is its list's. -/
inductive Json where
  | null
  | bool (b : Bool)
  | number (n : NumberText)
  | string (s : StringText)
  | emptyArray (ws : Ws)
  | array (elems : Elements)
  | emptyObject (ws : Ws)
  | object (members : Members)

/-- `value *( value-separator value )` -/
inductive Elements where
  | last (before : Ws) (v : Json) (after : Ws)
  | more (before : Ws) (v : Json) (after : Ws) (rest : Elements)

/-- `member *( value-separator member )` -/
inductive Members where
  | last (before : Ws) (key : StringText) (afterKey beforeValue : Ws) (v : Json) (after : Ws)
  | more (before : Ws) (key : StringText) (afterKey beforeValue : Ws) (v : Json) (after : Ws)
      (rest : Members)

end

mutual

def Json.text : Json → Bytes
  | .null => [0x6E, 0x75, 0x6C, 0x6C]
  | .bool true => [0x74, 0x72, 0x75, 0x65]
  | .bool false => [0x66, 0x61, 0x6C, 0x73, 0x65]
  | .number n => n.text
  | .string s => StringText.text s
  | .emptyArray ws => 0x5B :: (wsText ws ++ [0x5D])
  | .array elems => 0x5B :: (elems.text ++ [0x5D])
  | .emptyObject ws => 0x7B :: (wsText ws ++ [0x7D])
  | .object members => 0x7B :: (members.text ++ [0x7D])

def Elements.text : Elements → Bytes
  | .last before v after => wsText before ++ (v.text ++ wsText after)
  | .more before v after rest => wsText before ++ (v.text ++ (wsText after ++ 0x2C :: rest.text))

def Members.text : Members → Bytes
  | .last before key afterKey beforeValue v after =>
    wsText before ++ (StringText.text key ++ (wsText afterKey ++ 0x3A :: (wsText beforeValue ++
      (v.text ++ wsText after))))
  | .more before key afterKey beforeValue v after rest =>
    wsText before ++ (StringText.text key ++ (wsText afterKey ++ 0x3A :: (wsText beforeValue ++
      (v.text ++ (wsText after ++ 0x2C :: rest.text)))))

end

section Denotation

variable (strtod : Bytes → Double × ℕ)

mutual

/-- A number stands for what `strtod` makes of its token. -/
def Json.denote : Json → Value
  | .null => .null
  | .bool b => .bool b
  | .number n => .number (strtod n.text).1 n.integral
  | .string s => .string (StringText.denote s)
  | .emptyArray _ => .arr []
  | .array elems => .arr elems.denote
  | .emptyObject _ => .obj []
  | .object members => objOf members.denote

def Elements.denote : Elements → List Value
  | .last _ v _ => [v.denote]
  | .more _ v _ rest => v.denote :: rest.denote

def Members.denote : Members → List (Bytes × Value)
  | .last _ key _ _ v _ => [(StringText.denote key, v.denote)]
  | .more _ key _ _ v _ rest => (StringText.denote key, v.denote) :: rest.denote

end

end Denotation

/-- `JSON-text = ws value ws` -/
structure Document where
  before : Ws
  value : Json
  after : Ws

def Document.text (d : Document) : Bytes := wsText d.before ++ (d.value.text ++ wsText d.after)

/-- The text is JSON for the value. -/
def Means (strtod : Bytes → Double × ℕ) (text : Bytes) (v : Value) : Prop :=
  ∃ d : Document, d.text = text ∧ d.value.denote strtod = v

/-! ## Fields -/

/-- The field holds the text; without the field the text is empty. -/
def TextField (v : Value) (key s : Bytes) : Prop := v.find key = some (.string s) ∨ v.find key = none ∧ s = []

/-- The field is an object with the property; without the field an empty object has it. -/
def ObjectField (v : Value) (key : Bytes) (P : Value → Prop) : Prop :=
  ∃ entries, P (.obj entries) ∧ (v.find key = some (.obj entries) ∨ v.find key = none ∧ entries = [])

/-- A text field is read as its text. -/
theorem TextField.strAt {v : Value} {key s : Bytes} (h : TextField v key s) : v.strAt key [] = s := by
  unfold Value.strAt
  obtain h | ⟨h, rfl⟩ := h
  · rw [h]
    rfl
  · rw [h]

/-- An object without fields holds the empty text only. -/
theorem TextField.empty {key s : Bytes} (h : TextField (.obj []) key s) : s = [] := by
  obtain h | ⟨-, h⟩ := h
  · cases h
  · exact h

/-- An object without fields stands for one without fields in each of them. -/
theorem ObjectField.empty {key : Bytes} {P : Value → Prop} (h : ObjectField (.obj []) key P) : P (.obj []) := by
  obtain ⟨entries, hP, h | ⟨-, rfl⟩⟩ := h
  · cases h
  · exact hP

end HaikuAgent.Interface.JsonText
