import Mathlib.Data.List.Induction
import Mathlib.Tactic.Ring
import Mathlib.Tactic.NormNum

/-!
# Byte strings: slices, overwrites and big-endian numbers

The vocabulary every wire format is built from. `slice s pos n` is the run of at
most `n` elements from position `pos`; `overwrite s pos xs` is `s` with the
elements from `pos` on replaced by `xs`. A buffer that is filled from its front is the
overwrites in a row (`overwrite_fill`), and a loop that assigns position by position is one
of them (`foldl_set_eq_overwrite`).

`bigEndianValue` reads a byte string as a big-endian number and `bigEndian w n` is the
`w`-byte big-endian form of `n`; they are inverse up to `256 ^ w`.
-/

set_option autoImplicit false

namespace HaikuAgent.Foundation

/-- A string of bytes. -/
abbrev Bytes := List UInt8

/-- The bytes of an ASCII literal. -/
def lit (s : String) : Bytes := s.toList.map fun c => UInt8.ofNat c.toNat

/-- The bases whose digits are written as `Fin 10` and `Fin 16`. -/
instance neZero_ten : NeZero 10 := ⟨Nat.succ_ne_zero 9⟩

instance neZero_sixteen : NeZero 16 := ⟨Nat.succ_ne_zero 15⟩

section Slices

variable {α : Type}

/-- At most `n` elements of `s` from position `pos` on. -/
def slice (s : List α) (pos n : ℕ) : List α := (s.drop pos).take n

/-- `s` with the elements from position `pos` on replaced by those of `xs`. -/
def overwrite (s : List α) (pos : ℕ) (xs : List α) : List α :=
  s.take pos ++ xs ++ s.drop (pos + xs.length)

/-- A slice that runs over the end of the list is as long as what is there. -/
@[simp] theorem length_slice (s : List α) (pos n : ℕ) :
    (slice s pos n).length = min n (s.length - pos) := by
  simp [slice]

/-- Filling the next positions of a blank buffer extends its written part. -/
theorem overwrite_fill (pre : List α) (k pos : ℕ) (z : α) (xs : List α) (hp : pre.length = pos) :
    overwrite (pre ++ List.replicate k z) pos xs =
      (pre ++ xs) ++ List.replicate (k - xs.length) z := by
  subst hp
  simp [overwrite, List.drop_append]

/-- A run that starts past the first part of a string is a run of the rest. -/
theorem slice_append_right (pre s : List α) (pos n : ℕ) (h : pre.length ≤ pos) :
    slice (pre ++ s) pos n = slice s (pos - pre.length) n := by
  simp [slice, List.drop_append, List.drop_of_length_le h]

/-- The first part of a string is read back. -/
theorem slice_append_left (xs s : List α) (n : ℕ) (h : xs.length = n) :
    slice (xs ++ s) 0 n = xs := by
  subst h
  simp [slice]

/-- A loop that assigns consecutive positions is one overwrite. -/
theorem foldl_set_eq_overwrite (s : List α) (pos n : ℕ) (f : ℕ → α) (h : pos + n ≤ s.length) :
    (List.range n).foldl (fun b i => b.set (pos + i) (f i)) s =
      overwrite s pos ((List.range n).map f) := by
  induction n with
  | zero => simp [overwrite]
  | succ n ih =>
    rw [List.range_succ, List.foldl_append, ih (by omega), List.map_append]
    have hpre : (s.take pos ++ (List.range n).map f).length = pos + n := by simp; omega
    have htail : s.drop (pos + n) = s[pos + n] :: s.drop (pos + n + 1) :=
      List.drop_eq_getElem_cons (by omega)
    simp only [List.foldl_cons, List.foldl_nil, overwrite, List.length_append, List.length_map,
      List.length_range, List.map_cons, List.map_nil, List.length_singleton]
    rw [List.set_append_right _ _ hpre.le, hpre, Nat.sub_self, htail, List.set_cons_zero]
    simp [Nat.add_assoc]

end Slices

section BigEndian

/-- The number a byte string spells, most significant byte first. -/
def bigEndianValue : Bytes → ℕ := List.foldl (fun v b => v * 256 + b.toNat) 0

/-- The `w` big-endian bytes of `n`; what exceeds `256 ^ w` is dropped. -/
def bigEndian : ℕ → ℕ → Bytes
  | 0, _ => []
  | w + 1, n => bigEndian w (n / 256) ++ [UInt8.ofNat (n % 256)]

/-- No bytes stand for 0. -/
@[simp] theorem bigEndianValue_nil : bigEndianValue [] = 0 := rfl

/-- A further byte moves the others up by eight bits. -/
@[simp] theorem bigEndianValue_concat (s : Bytes) (b : UInt8) :
    bigEndianValue (s ++ [b]) = bigEndianValue s * 256 + b.toNat := by
  simp [bigEndianValue]

/-- A number is written in as many bytes as are asked for. -/
@[simp] theorem length_bigEndian (w n : ℕ) : (bigEndian w n).length = w := by
  induction w generalizing n with
  | zero => rfl
  | succ w ih => simp [bigEndian, ih]

/-- Reading the bytes of `n` back gives `n` modulo the field's capacity. -/
theorem bigEndianValue_bigEndian (w n : ℕ) : bigEndianValue (bigEndian w n) = n % 256 ^ w := by
  induction w generalizing n with
  | zero => simp [bigEndian, Nat.mod_one]
  | succ w ih =>
    have hb : (UInt8.ofNat (n % 256)).toNat = n % 256 := by
      rw [UInt8.toNat_ofNat']
      omega
    rw [bigEndian, bigEndianValue_concat, ih, hb, pow_succ', Nat.mod_mul]
    ring

/-- The value of some bytes has room in them. -/
theorem bigEndianValue_lt (s : Bytes) : bigEndianValue s < 256 ^ s.length := by
  induction s using List.reverseRecOn with
  | nil => simp
  | append_singleton s b ih =>
    have hb : b.toNat < 256 := b.toNat_lt
    rw [bigEndianValue_concat, List.length_append, List.length_singleton, pow_succ]
    omega

end BigEndian

end HaikuAgent.Foundation
