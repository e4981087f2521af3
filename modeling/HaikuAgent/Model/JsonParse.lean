import HaikuAgent.Model.Json

/-!
# The JSON parser (`json.cpp`)

A parser function takes what is left of the text and returns its result with what
it leaves, or the error text; `size` is the length of the whole text, so that the
offset an error names is `size` less what is left. The loops take fuel, and every
call spends one unit: `parse` gives two units for each byte, which no text can use up.
-/

set_option autoImplicit false

namespace HaikuAgent.Model.Json

open HaikuAgent.Foundation

/-- SRC: json.cpp:94-96 -/
def skipBlanks (s : Bytes) : Bytes :=
  s.dropWhile fun c => c == 32 || c == 9 || c == 10 || c == 13

/-- `fail` with `rest` left of a text of `size` bytes.
SRC: json.cpp:98-105 -/
def failAt {α : Type} (size : ℕ) (msg : String) (rest : Bytes) : Except Bytes α :=
  .error (lit msg ++ lit " at offset " ++ toStringNat (size - rest.length))

/-- SRC: json.cpp:109-125 -/
def utf8 (cp : ℕ) : Bytes :=
  let tail (n : ℕ) : UInt8 := UInt8.ofNat (0x80 + n % 64)
  if cp < 0x80 then [UInt8.ofNat cp]
  else if cp < 0x800 then [UInt8.ofNat (0xC0 + cp / 64), tail cp]
  else if cp < 0x10000 then [UInt8.ofNat (0xE0 + cp / 4096), tail (cp / 64), tail cp]
  else [UInt8.ofNat (0xF0 + cp / 262144), tail (cp / 4096), tail (cp / 64), tail cp]

def hexDigit (c : UInt8) : Option ℕ :=
  if 48 ≤ c ∧ c ≤ 57 then some (c.toNat - 48)
  else if 97 ≤ c ∧ c ≤ 102 then some (c.toNat - 97 + 10)
  else if 65 ≤ c ∧ c ≤ 70 then some (c.toNat - 65 + 10)
  else none

/-- The loop of `hex4`, which stops behind the first bad digit. -/
def hexDigits (size : ℕ) : ℕ → ℕ → Bytes → Except Bytes (ℕ × Bytes)
  | 0, n, rest => .ok (n, rest)
  | k + 1, n, rest =>
    match rest with
    | [] => .ok (n, [])
    | c :: rest =>
      match hexDigit c with
      | some d => hexDigits size k (n * 16 + d) rest
      | none => failAt size "bad hex digit in \\u escape" rest

/-- SRC: json.cpp:127-139 -/
def hex4 (size : ℕ) (rest : Bytes) : Except Bytes (ℕ × Bytes) :=
  if rest.length < 4 then failAt size "truncated \\u escape" rest else hexDigits size 4 0 rest

/-- The bytes of a `\u` escape whose first code unit is `cp`, a surrogate pair read whole.
SRC: json.cpp:166-176 -/
def unicodeEscape (size cp : ℕ) (rest : Bytes) : Except Bytes (Bytes × Bytes) :=
  if 0xD800 ≤ cp ∧ cp ≤ 0xDBFF ∧ startsWith rest (lit "\\u") then do
    let (lo, rest) ← hex4 size (rest.drop 2)
    if 0xDC00 ≤ lo ∧ lo ≤ 0xDFFF then
      .ok (utf8 (0x10000 + (cp - 0xD800) * 1024 + (lo - 0xDC00)), rest)
    else .ok (utf8 lo ++ utf8 cp, rest)
  else .ok (utf8 cp, rest)

/-- What a one-character escape stands for.
SRC: json.cpp:153-160 -/
def simpleEscape (e : UInt8) : Option UInt8 :=
  if e = 34 then some 34
  else if e = 92 then some 92
  else if e = 47 then some 47
  else if e = 98 then some 8
  else if e = 102 then some 12
  else if e = 110 then some 10
  else if e = 114 then some 13
  else if e = 116 then some 9
  else none

/-- The loop of `string_`, behind the opening quote.
SRC: json.cpp:144-181 -/
def stringBody (size : ℕ) : ℕ → Bytes → Bytes → Except Bytes (Bytes × Bytes)
  | 0, _, rest => failAt size "unterminated string" rest
  | _ + 1, _, [] => failAt size "unterminated string" []
  | fuel + 1, out, c :: rest =>
    if c = 34 then .ok (out, rest)
    else if c ≠ 92 then stringBody size fuel (out ++ [c]) rest
    else
      match rest with
      | [] => failAt size "unterminated escape" []
      | e :: rest =>
        match simpleEscape e with
        | some b => stringBody size fuel (out ++ [b]) rest
        | none =>
          if e = 117 then do
            let (cp, rest) ← hex4 size rest
            let (bytes, rest) ← unicodeEscape size cp rest
            stringBody size fuel (out ++ bytes) rest
          else failAt size "unknown escape" rest

/-- `string_`.
SRC: json.cpp:141-182 -/
def stringToken (size : ℕ) (rest : Bytes) : Except Bytes (Bytes × Bytes) :=
  if rest.head? = some 34 then stringBody size rest.length [] rest.tail
  else failAt size "expected string" rest

def isDigit (c : UInt8) : Bool := 48 ≤ c && c ≤ 57

/-- Past a `-` or `+`, if there is one. -/
def skipSign (s : Bytes) : Bytes :=
  if s.head? = some 45 ∨ s.head? = some 43 then s.tail else s

/-- The number branch of `value`.
SRC: json.cpp:236-249 -/
def numberToken (strtod : Bytes → Double × ℕ) (size : ℕ) (start : Bytes) :
    Except Bytes (Value × Bytes) :=
  let whole := skipSign start
  let rest := whole.dropWhile isDigit
  let fraction := rest.head? = some 46
  let rest := if fraction then rest.tail.dropWhile isDigit else rest
  let exponent := rest.head? = some 101 ∨ rest.head? = some 69
  let rest := if exponent then (skipSign rest.tail).dropWhile isDigit else rest
  if whole.takeWhile isDigit ≠ [] then
    .ok (.number (strtod (start.take (start.length - rest.length))).1 (¬fraction ∧ ¬exponent), rest)
  else failAt size "invalid value" rest

mutual

/-- `value`.
SRC: json.cpp:184-251 -/
def value (strtod : Bytes → Double × ℕ) (size : ℕ) : ℕ → Bytes → Except Bytes (Value × Bytes)
  | 0, rest => failAt size "unexpected end of input" rest
  | fuel + 1, rest =>
    let rest := skipBlanks rest
    match rest.head? with
    | none => failAt size "unexpected end of input" []
    | some c =>
      if c = 123 then
        let rest := skipBlanks rest.tail
        if rest.head? = some 125 then .ok (.obj [], rest.tail)
        else members strtod size fuel [] rest
      else if c = 91 then
        let rest := skipBlanks rest.tail
        if rest.head? = some 93 then .ok (.arr [], rest.tail)
        else elements strtod size fuel [] rest
      else if c = 34 then
        match stringToken size rest with
        | .error err => .error err
        | .ok (s, rest) => .ok (.string s, rest)
      else if startsWith rest (lit "true") then .ok (.bool true, rest.drop 4)
      else if startsWith rest (lit "false") then .ok (.bool false, rest.drop 5)
      else if startsWith rest (lit "null") then .ok (.null, rest.drop 4)
      else numberToken strtod size rest

/-- The loop over an object's members.
SRC: json.cpp:194-208 -/
def members (strtod : Bytes → Double × ℕ) (size : ℕ) :
    ℕ → List (Bytes × Value) → Bytes → Except Bytes (Value × Bytes)
  | 0, _, rest => failAt size "unexpected end of input" rest
  | fuel + 1, entries, rest =>
    match stringToken size (skipBlanks rest) with
    | .error err => .error err
    | .ok (key, rest) =>
      let rest := skipBlanks rest
      if rest.head? ≠ some 58 then failAt size "expected ':'" rest
      else
        match value strtod size fuel rest.tail with
        | .error err => .error err
        | .ok (v, rest) =>
          let entries := setEntry entries key v
          let rest := skipBlanks rest
          if rest.head? = some 44 then members strtod size fuel entries rest.tail
          else if rest.head? = some 125 then .ok (.obj entries, rest.tail)
          else failAt size "expected ',' or '\x7d'" rest

/-- The loop over an array's elements.
SRC: json.cpp:215-223 -/
def elements (strtod : Bytes → Double × ℕ) (size : ℕ) :
    ℕ → List Value → Bytes → Except Bytes (Value × Bytes)
  | 0, _, rest => failAt size "unexpected end of input" rest
  | fuel + 1, elems, rest =>
    match value strtod size fuel rest with
    | .error err => .error err
    | .ok (v, rest) =>
      let rest := skipBlanks rest
      if rest.head? = some 44 then elements strtod size fuel (elems ++ [v]) rest.tail
      else if rest.head? = some 93 then .ok (.arr (elems ++ [v]), rest.tail)
      else failAt size "expected ',' or ']'" rest

end

/-- `parse`: the value, and the text left in `*err`.
SRC: json.cpp:254-269 -/
def parse (strtod : Bytes → Double × ℕ) (text : Bytes) : Value × Bytes :=
  match value strtod text.length (2 * text.length + 2) text with
  | .error err => (.null, err)
  | .ok (v, rest) =>
    if skipBlanks rest = [] then (v, []) else (.null, lit "trailing data after JSON value")

end HaikuAgent.Model.Json
