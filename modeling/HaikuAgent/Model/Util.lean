import Mathlib.Data.List.DropRight
import HaikuAgent.Foundation.Bytes

/-!
# String helpers (`util.cpp`) and the `std::string` calls the agent makes

A `std::string` is a `Bytes`; `std::string::npos` is `none`. `substr` follows the
standard: a start past the end throws `std::out_of_range`, which nothing in the
agent catches, so it is an error value of its own (`Thrown`) and not a result.
-/

set_option autoImplicit false

namespace HaikuAgent.Model

open HaikuAgent.Foundation

/-- The exceptions of the standard library the modelled code can raise. -/
inductive Thrown where
  | outOfRange
  deriving DecidableEq, Repr

/-- `s.substr(pos)`.
SRC: the standard library -/
def substr (s : Bytes) (pos : ℕ) : Except Thrown Bytes :=
  if s.length < pos then .error .outOfRange else .ok (s.drop pos)

/-- `s.find(pat, start)`: the first position from `start` on where `pat` occurs.
SRC: the standard library -/
def find (s pat : Bytes) (start : ℕ) : Option ℕ :=
  (List.range' start (s.length + 1 - start)).find? fun i => pat.isPrefixOf (s.drop i)

/-- `find` gives the first place from `start` on where the pattern stands. -/
theorem find_eq_some (s pat : Bytes) (start i : ℕ) :
    find s pat start = some i ↔
      start ≤ i ∧ i ≤ s.length ∧ pat <+: s.drop i ∧ ∀ j, start ≤ j → j < i → ¬pat <+: s.drop j := by
  rw [find, List.find?_range'_eq_some, List.mem_range'_1, List.isPrefixOf_iff_prefix]
  simp only [Bool.not_eq_true', ← Bool.not_eq_true, List.isPrefixOf_iff_prefix]
  constructor
  · rintro ⟨hpat, ⟨hstart, hlength⟩, hfirst⟩
    exact ⟨hstart, by omega, hpat, hfirst⟩
  · rintro ⟨hstart, hlength, hpat, hfirst⟩
    exact ⟨hpat, ⟨hstart, by omega⟩, hfirst⟩

/-- `find` gives nothing where the pattern stands at no place from `start` on. -/
theorem find_eq_none (s pat : Bytes) (start : ℕ) :
    find s pat start = none ↔ ∀ i, start ≤ i → i ≤ s.length → ¬pat <+: s.drop i := by
  rw [find, List.find?_range'_eq_none]
  simp only [Bool.not_eq_true', ← Bool.not_eq_true, List.isPrefixOf_iff_prefix]
  constructor
  · intro h i hstart hlength
    exact h i hstart (by omega)
  · intro h i hstart hlength
    exact h i hstart (by omega)

/-- A pattern at the front is found there. -/
theorem find_zero (s pat : Bytes) (h : pat <+: s) : find s pat 0 = some 0 := by
  rw [find_eq_some]
  exact ⟨le_rfl, Nat.zero_le _, h, fun j _ hj => absurd hj (Nat.not_lt_zero j)⟩

/-- Where the pattern does not begin, the search goes on behind the first byte. -/
theorem find_cons (c : UInt8) (s pat : Bytes) (h : ¬pat <+: c :: s) :
    find (c :: s) pat 0 = (find s pat 0).map (· + 1) := by
  cases hs : find s pat 0 with
  | none =>
    rw [find_eq_none] at hs
    rw [Option.map_none, find_eq_none]
    intro i _ hi
    cases i with
    | zero => exact h
    | succ i => exact hs i (Nat.zero_le i) (Nat.le_of_succ_le_succ hi)
  | some i =>
    rw [find_eq_some] at hs
    obtain ⟨-, hi, hpat, hfirst⟩ := hs
    rw [Option.map_some, find_eq_some]
    refine ⟨Nat.zero_le _, Nat.succ_le_succ hi, hpat, ?_⟩
    intro j _ hj
    cases j with
    | zero => exact h
    | succ j => exact hfirst j (Nat.zero_le j) (Nat.lt_of_succ_lt_succ hj)

/-- Bytes other than the pattern's first are passed over. -/
theorem find_skip (line s : Bytes) (first : UInt8) (pat : Bytes) (h : first ∉ line) :
    find (line ++ s) (first :: pat) 0 = (find s (first :: pat) 0).map (· + line.length) := by
  induction line with
  | nil =>
    rw [List.nil_append]
    cases find s (first :: pat) 0 with
    | none => rfl
    | some i => rfl
  | cons c line ih =>
    rw [List.mem_cons, not_or] at h
    have hhere : ¬first :: pat <+: c :: (line ++ s) :=
      fun hp => h.1 (List.cons_prefix_cons.mp hp).1
    rw [List.cons_append, find_cons c _ _ hhere, ih h.2, Option.map_map]
    rfl

/-- An occurrence that is found stays the first when more is appended. -/
theorem find_append (s pat more : Bytes) (start i : ℕ) (h : find s pat start = some i) :
    find (s ++ more) pat start = some i := by
  rw [find_eq_some] at h ⊢
  obtain ⟨hstart, hlength, hpat, hfirst⟩ := h
  have hfits := hpat.length_le
  rw [List.length_drop] at hfits
  refine ⟨hstart, by rw [List.length_append]; omega, ?_, ?_⟩
  · rw [List.drop_append_of_le_length hlength]
    exact hpat.trans (List.prefix_append _ _)
  · intro j hj hji hearlier
    rw [List.drop_append_of_le_length (by omega)] at hearlier
    refine hfirst j hj hji (List.prefix_of_prefix_length_le hearlier (List.prefix_append _ _) ?_)
    rw [List.length_drop]
    omega

/-- An occurrence that ends before what was appended was there already. -/
theorem find_of_append (s pat more : Bytes) (i : ℕ) (h : find (s ++ more) pat 0 = some i)
    (hfits : i + pat.length ≤ s.length) : find s pat 0 = some i := by
  rw [find_eq_some] at h ⊢
  obtain ⟨-, -, hpat, hfirst⟩ := h
  refine ⟨Nat.zero_le _, by omega, ?_, ?_⟩
  · rw [List.drop_append_of_le_length (by omega)] at hpat
    refine List.prefix_of_prefix_length_le hpat (List.prefix_append _ _) ?_
    rw [List.length_drop]
    omega
  · intro j hj hji hearlier
    refine hfirst j hj hji ?_
    rw [List.drop_append_of_le_length (by omega)]
    exact hearlier.trans (List.prefix_append _ _)

/-- `s.rfind(pat)`: the last position where `pat` occurs.
SRC: the standard library -/
def rfind (s pat : Bytes) : Option ℕ :=
  (List.range (s.length + 1)).reverse.find? fun i => pat.isPrefixOf (s.drop i)

/-- `std::to_string` of a natural number. -/
def toStringNat (n : ℕ) : Bytes := lit (toString n)

/-- `std::to_string` of an integer. -/
def toStringInt (n : ℤ) : Bytes := lit (toString n)

/-- `std::atoi`: `strtol` in base 10, brought into `int`.
SRC: the standard library -/
def atoi (s : Bytes) : ℤ :=
  let s := s.dropWhile fun c => c == 32 || (9 ≤ c && c ≤ 13)
  let (negative, s) := match s with
    | 45 :: rest => (true, rest)
    | 43 :: rest => (false, rest)
    | _ => (false, s)
  let magnitude : ℤ := (s.takeWhile fun c => 48 ≤ c && c ≤ 57).foldl
    (fun n c => 10 * n + (c.toNat - 48 : ℤ)) 0
  let long := max (-2 ^ 63) (min (2 ^ 63 - 1) (if negative then -magnitude else magnitude))
  (long + 2 ^ 31) % 2 ^ 32 - 2 ^ 31

/-- The value of a digit, where the base has one.
SRC: the standard library -/
def digitValue (base : ℕ) (c : UInt8) : Option ℕ :=
  let value :=
    if 48 ≤ c ∧ c ≤ 57 then c.toNat - 48
    else if 97 ≤ c ∧ c ≤ 122 then c.toNat - 87
    else if 65 ≤ c ∧ c ≤ 90 then c.toNat - 55
    else base
  if value < base then some value else none

/-- The number digits spell. -/
def digitsValue (base : ℕ) (ds : Bytes) : ℕ :=
  ds.foldl (fun n c => base * n + (digitValue base c).getD 0) 0

/-- The `0x` in front of a hexadecimal number, dropped when a digit follows. -/
def skipHexPrefix : Bytes → Bytes
  | 48 :: x :: d :: rest =>
    if (x = 120 ∨ x = 88) ∧ (digitValue 16 d).isSome then d :: rest else 48 :: x :: d :: rest
  | s => s

/-- Whether there is a minus sign, and what follows the sign. -/
def splitSign : Bytes → Bool × Bytes
  | 45 :: rest => (true, rest)
  | 43 :: rest => (false, rest)
  | s => (false, s)

/-- `std::strtoul`, for an `unsigned long` of 64 bits; `0` where there is no number.
SRC: the standard library -/
def strtoul (base : ℕ) (s : Bytes) : ℕ :=
  let (negative, s) := splitSign (s.dropWhile fun c => c == 32 || (9 ≤ c && c ≤ 13))
  let s := if base = 16 then skipHexPrefix s else s
  let magnitude := digitsValue base (s.takeWhile fun c => (digitValue base c).isSome)
  if 2 ^ 64 ≤ magnitude then 2 ^ 64 - 1
  else if negative then (2 ^ 64 - magnitude) % 2 ^ 64
  else magnitude

/-- The blanks of `util::trim`: space, tab, carriage return, line feed. -/
def isBlank (c : UInt8) : Bool := c == 32 || c == 9 || c == 13 || c == 10

/-- `util::trim`.
SRC: util.cpp:240-245 -/
def trim (s : Bytes) : Bytes := (s.dropWhile isBlank).rdropWhile isBlank

/-- `util::starts_with`.
SRC: util.cpp:247-249 -/
def startsWith (s pre : Bytes) : Bool := pre.isPrefixOf s

/-- `util::split`.
SRC: util.cpp:251-263 -/
def split (s : Bytes) (sep : UInt8) : List Bytes := s.splitOn sep

/-- `util::join`.
SRC: util.cpp:265-272 -/
def join (parts : List Bytes) (sep : Bytes) : Bytes := sep.intercalate parts

/-- `util::lower`.
SRC: util.cpp:274-278 -/
def lower (s : Bytes) : Bytes :=
  s.map fun c => if 65 ≤ c ∧ c ≤ 90 then c - 65 + 97 else c

/-- SRC: util.cpp:54-55 -/
def alphabet : Bytes := lit "ABCDEFGHIJKLMNOPQRSTUVWXYZabcdefghijklmnopqrstuvwxyz0123456789+/"

/-- The base64 digit of the six bits of `v` from bit `shift` on. -/
def base64Digit (v shift : UInt32) : UInt8 := alphabet.getD ((v >>> shift) &&& 63).toNat 0

/-- `util::base64_encode`.
SRC: util.cpp:53-83 -/
def base64Encode : Bytes → Bytes
  | a :: b :: c :: rest =>
    let v := (a.toUInt32 <<< 16) ||| (b.toUInt32 <<< 8) ||| c.toUInt32
    base64Digit v 18 :: base64Digit v 12 :: base64Digit v 6 :: base64Digit v 0 :: base64Encode rest
  | [a] =>
    let v := a.toUInt32 <<< 16
    [base64Digit v 18, base64Digit v 12] ++ lit "=="
  | [a, b] =>
    let v := (a.toUInt32 <<< 16) ||| (b.toUInt32 <<< 8)
    [base64Digit v 18, base64Digit v 12, base64Digit v 6] ++ lit "="
  | [] => []

/-- Subtraction of two `size_t`.
SRC: the language -/
def sizeSub (a b : ℕ) : ℕ := if b ≤ a then a - b else a + 2 ^ 64 - b

/-- `util::clip`.
SRC: util.cpp:280-284 -/
def clip (s : Bytes) (max : ℕ) (suffix : Bytes) : Bytes :=
  if s.length ≤ max then s
  else if max ≤ suffix.length then s.take max
  else s.take (max - suffix.length) ++ suffix

end HaikuAgent.Model
