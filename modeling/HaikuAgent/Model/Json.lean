import Mathlib.Data.Nat.Log
import Mathlib.Data.Rat.Floor
import HaikuAgent.Model.Util

/-!
# JSON values and the serializer (`json.h`, `json.cpp`)

`Value` is the source's tagged record as a sum type: each constructor holds the
members its tag makes meaningful. An object is the list of its `std::map`
entries in key order; `setEntry` is `object[key] = value`. A `double` is
represented by the number it stands for, so the two zeros are one value.

`strtod` is the C library's: a parameter returning the number and how many bytes
it consumed.
-/

set_option autoImplicit false

namespace HaikuAgent.Model.Json

open HaikuAgent.Foundation

/-- A `double`, by its value. -/
inductive Double where
  | finite (q : ℚ)
  | inf (negative : Bool)
  | nan
  deriving DecidableEq

/-- `static_cast<int>` / `static_cast<int64_t>` of a `double` on the agent's target
(arm64), where the conversion truncates and saturates at the type's bounds. -/
def Double.toIntBounded (lo hi : ℤ) : Double → ℤ
  | .finite q => max lo (min hi (if 0 ≤ q then ⌊q⌋ else ⌈q⌉))
  | .inf negative => if negative then lo else hi
  | .nan => 0

/-- SRC: json.h:20-31 -/
inductive Value where
  | null
  | bool (b : Bool)
  | number (n : Double) (integral : Bool)
  | string (s : Bytes)
  | obj (entries : List (Bytes × Value))
  | arr (elems : List Value)

/-- `object[key] = value`: entries stay in key order, an equal key is replaced. -/
def setEntry {α : Type} : List (Bytes × α) → Bytes → α → List (Bytes × α)
  | [], key, value => [(key, value)]
  | (k, v) :: rest, key, value =>
    if key = k then (key, value) :: rest
    else if key < k then (key, value) :: (k, v) :: rest
    else (k, v) :: setEntry rest key value

/-- A lookup compares with the first key and goes on. -/
theorem lookup_cons_eq {α : Type} (k key : Bytes) (v : α) (table : List (Bytes × α)) :
    ((k, v) :: table).lookup key = if key = k then some v else table.lookup key := by
  rw [List.lookup_cons]
  by_cases h : key = k
  · rw [if_pos h, beq_iff_eq.mpr h]
  · rw [if_neg h, beq_eq_false_iff_ne.mpr h]

/-- After `setEntry` the key has the value, and the others have theirs. -/
theorem lookup_setEntry {α : Type} (table : List (Bytes × α)) (k : Bytes) (v : α) (key : Bytes) :
    (setEntry table k v).lookup key = if key = k then some v else table.lookup key := by
  induction table with
  | nil =>
    unfold setEntry
    exact lookup_cons_eq k key v []
  | cons entry table ih =>
    obtain ⟨k', v'⟩ := entry
    unfold setEntry
    by_cases heq : k = k'
    · rw [if_pos heq, lookup_cons_eq, lookup_cons_eq, ← heq]
      by_cases h : key = k
      · rw [if_pos h, if_pos h]
      · rw [if_neg h, if_neg h, if_neg h]
    rw [if_neg heq]
    by_cases hlt : k < k'
    · rw [if_pos hlt, lookup_cons_eq]
    · rw [if_neg hlt, lookup_cons_eq, lookup_cons_eq, ih]
      by_cases h : key = k
      · have hne : ¬key = k' := h ▸ heq
        rw [if_neg hne, if_pos h, if_pos h]
      · rw [if_neg h, if_neg h]

/-- `object.find(key)`. -/
def findEntry {α : Type} (entries : List (Bytes × α)) (key : Bytes) : Option α :=
  entries.lookup key

namespace Value

/-- SRC: json.cpp:9-13 -/
def find : Value → Bytes → Option Value
  | obj entries, key => findEntry entries key
  | _, _ => none

/-- SRC: json.cpp:15-17 -/
def str (fallback : Bytes) : Value → Bytes
  | string s => s
  | _ => fallback

/-- `Value::num`; a string counts when `strtod` reads up to its first NUL or its end.
SRC: json.cpp:19-28 -/
def num (strtod : Bytes → Double × ℕ) (fallback : Double) : Value → Double
  | number n _ => n
  | string s =>
    if s ≠ [] ∧ (strtod s).2 = (s.takeWhile fun c => c != 0).length then (strtod s).1
    else fallback
  | _ => fallback

/-- SRC: json.cpp:30-37 -/
def bl (fallback : Bool) : Value → Bool
  | bool b => b
  | string s => if s = lit "true" then true else if s = lit "false" then false else fallback
  | _ => fallback

/-- SRC: json.cpp:39-42 -/
def strAt (v : Value) (key fallback : Bytes) : Bytes :=
  match v.find key with
  | some w => w.str fallback
  | none => fallback

/-- SRC: json.cpp:44-47 -/
def numAt (strtod : Bytes → Double × ℕ) (v : Value) (key : Bytes) (fallback : Double) : Double :=
  match v.find key with
  | some w => w.num strtod fallback
  | none => fallback

def isObj : Value → Bool
  | obj _ => true
  | _ => false

def isArr : Value → Bool
  | arr _ => true
  | _ => false

def isStr : Value → Bool
  | string _ => true
  | _ => false

def isNumber : Value → Bool
  | number _ _ => true
  | _ => false

end Value

/-- An object built by a sequence of `object[key] = value`. -/
def objOf (entries : List (Bytes × Value)) : Value :=
  .obj (entries.foldl (fun table kv => setEntry table kv.1 kv.2) [])

/-- Entries written into a table: the last one of a key counts. -/
theorem lookup_foldl_setEntry {α : Type} (entries table : List (Bytes × α)) (key : Bytes) :
    (entries.foldl (fun table kv => setEntry table kv.1 kv.2) table).lookup key =
      (entries.reverse ++ table).lookup key := by
  induction entries generalizing table with
  | nil => rfl
  | cons entry entries ih =>
    rw [List.foldl_cons, ih, List.reverse_cons, List.append_assoc, List.lookup_append,
      List.lookup_append, lookup_setEntry, List.singleton_append, lookup_cons_eq]

/-- Of the entries that an object is made of, the last with a key counts. -/
theorem find_objOf (entries : List (Bytes × Value)) (key : Bytes) :
    (objOf entries).find key = entries.reverse.lookup key := by
  have h := lookup_foldl_setEntry entries [] key
  rw [List.append_nil] at h
  exact h

def intNumber (n : ℤ) : Value := .number (.finite n) true

/-! ## Serializer -/

/-- The two lower-case hexadecimal digits of `snprintf("%04x")` that a control character needs. -/
def hexLow (c : UInt8) : Bytes :=
  let digit (n : ℕ) : UInt8 := UInt8.ofNat (if n < 10 then 48 + n else 87 + n)
  [digit (c.toNat / 16), digit (c.toNat % 16)]

/-- One character of `escape`.
SRC: json.cpp:278-295 -/
def escapeChar (c : UInt8) : Bytes :=
  if c = 34 then [92, 34]
  else if c = 92 then [92, 92]
  else if c = 8 then [92, 98]
  else if c = 12 then [92, 102]
  else if c = 10 then [92, 110]
  else if c = 13 then [92, 114]
  else if c = 9 then [92, 116]
  else if c < 0x20 then [92, 117, 48, 48] ++ hexLow c
  else [c]

/-- SRC: json.cpp:275-298 -/
def escape (s : Bytes) : Bytes := [34] ++ s.flatMap escapeChar ++ [34]

/-- Rounding to the nearest integer, ties to even. -/
def roundHalfEven (q : ℚ) : ℤ :=
  let f := ⌊q⌋
  if q - f < 1 / 2 then f
  else if 1 / 2 < q - f then f + 1
  else if f % 2 = 0 then f else f + 1

/-- The decimal exponent of a positive rational: `10 ^ e ≤ q < 10 ^ (e + 1)`. -/
def decimalExponent (q : ℚ) : ℤ :=
  let e : ℤ := Nat.log 10 q.num.natAbs - Nat.log 10 q.den
  if (10 : ℚ) ^ e ≤ q then e else e - 1

/-- `printf("%.17g")` of a finite number: 17 significant digits, scientific notation
outside the exponents -4 to 16, trailing zeros removed. -/
def formatG17 (q : ℚ) : Bytes :=
  if q = 0 then lit "0"
  else
    let sign := if q < 0 then lit "-" else []
    let e := decimalExponent |q|
    let m := (roundHalfEven (|q| * (10 : ℚ) ^ (16 - e))).toNat
    let (m, e) := if m = 10 ^ 17 then (10 ^ 16, e + 1) else (m, e)
    let ds := toStringNat m
    let strip (s : Bytes) := s.rdropWhile fun c => c == 48
    let withPoint (whole frac : Bytes) := if frac = [] then whole else whole ++ lit "." ++ frac
    if e < -4 ∨ 17 ≤ e then
      let es := toStringNat e.natAbs
      sign ++ withPoint (ds.take 1) (strip (ds.drop 1)) ++ lit "e" ++
        (if e < 0 then lit "-" else lit "+") ++ (if es.length < 2 then lit "0" ++ es else es)
    else if 0 ≤ e then
      sign ++ withPoint (ds.take (e.toNat + 1)) (strip (ds.drop (e.toNat + 1)))
    else
      sign ++ withPoint (lit "0") (strip (List.replicate (e.natAbs - 1) 48 ++ ds))

/-- The number branch of `dump_to`.
SRC: json.cpp:304-311 -/
def dumpNumber (n : Double) (integral : Bool) : Bytes :=
  match n with
  | .finite q =>
    if integral ∧ |q| < 10 ^ 15 ∧ q = ⌊q⌋ then
      (if q < 0 then lit "-" else []) ++ toStringNat q.num.natAbs
    else formatG17 q
  | .inf negative => if negative then lit "-inf" else lit "inf"
  | .nan => lit "nan"

mutual

/-- `dump_to` / `dump`.
SRC: json.cpp:300-345 -/
def dump : Value → Bytes
  | .null => lit "null"
  | .bool b => if b then lit "true" else lit "false"
  | .number n integral => dumpNumber n integral
  | .string s => escape s
  | .obj entries => [123] ++ dumpEntries entries ++ [125]
  | .arr elems => [91] ++ dumpElems elems ++ [93]

def dumpEntries : List (Bytes × Value) → Bytes
  | [] => []
  | (key, v) :: rest =>
    escape key ++ [58] ++ dump v ++ (if rest.isEmpty then [] else [44]) ++ dumpEntries rest

def dumpElems : List Value → Bytes
  | [] => []
  | v :: rest => dump v ++ (if rest.isEmpty then [] else [44]) ++ dumpElems rest

end

example : dump (.obj [(lit "code", .number (.finite 0) true), (lit "x", .arr [.string [10], .null])]) =
    lit "\x7b\"code\":0,\"x\":[\"\\n\",null]\x7d" := by decide +kernel

end HaikuAgent.Model.Json
