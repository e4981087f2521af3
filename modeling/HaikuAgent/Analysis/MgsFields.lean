import Mathlib.Data.List.GetD
import Mathlib.Tactic.IntervalCases
import HaikuAgent.Model.Mgs

/-!
# The fixed-width fields of an MGS frame

`putU32`/`putU64` write the big-endian bytes of a value over its field and
`getU32`/`getU64` read the big-endian value of the field, so a field that no
later write touches is read back unchanged. `uuidFromWire` prints 16 bytes as
canonical text and `uuidToWire` inverts it in both directions.
-/

set_option autoImplicit false

namespace HaikuAgent.Analysis.MgsFields

open HaikuAgent.Foundation
open HaikuAgent.Model
open HaikuAgent.Model.Mgs

/-! ## Integers -/

/-- A run inside a string is the list of its bytes, position by position. -/
theorem slice_eq_map_getD (b : Bytes) (pos n : ℕ) (h : pos + n ≤ b.length) :
    slice b pos n = (List.range n).map fun i => b.getD (pos + i) 0 := by
  apply List.ext_getElem
  · simp only [length_slice, List.length_map, List.length_range]
    omega
  · intro i h1 h2
    simp only [List.length_map, List.length_range] at h2
    simp only [slice, List.getElem_take, List.getElem_drop, List.getElem_map, List.getElem_range]
    rw [List.getD_eq_getElem _ _ (by omega)]

/-- One round of the `get_u32` loop, in arithmetic. -/
theorem shl_or_toNat32 (v : UInt32) (c : UInt8) :
    ((v <<< 8) ||| c.toUInt32).toNat = (v.toNat * 256 + c.toNat) % 2 ^ 32 := by
  have hc : c.toNat < 2 ^ 8 := c.toNat_lt
  have hv : v.toNat * 2 ^ 8 % 2 ^ 32 = 2 ^ 8 * (v.toNat % 2 ^ 24) := by omega
  rw [UInt32.toNat_or, UInt32.toNat_shiftLeft, UInt8.toNat_toUInt32, Nat.shiftLeft_eq]
  change v.toNat * 2 ^ 8 % 2 ^ 32 ||| c.toNat = _
  rw [hv, ← Nat.two_pow_add_eq_or_of_lt hc]
  omega

/-- One round of the `get_u64` loop, in arithmetic. -/
theorem shl_or_toNat64 (v : UInt64) (c : UInt8) :
    ((v <<< 8) ||| c.toUInt64).toNat = (v.toNat * 256 + c.toNat) % 2 ^ 64 := by
  have hc : c.toNat < 2 ^ 8 := c.toNat_lt
  have hv : v.toNat * 2 ^ 8 % 2 ^ 64 = 2 ^ 8 * (v.toNat % 2 ^ 56) := by omega
  rw [UInt64.toNat_or, UInt64.toNat_shiftLeft, UInt8.toNat_toUInt64, Nat.shiftLeft_eq]
  change v.toNat * 2 ^ 8 % 2 ^ 64 ||| c.toNat = _
  rw [hv, ← Nat.two_pow_add_eq_or_of_lt hc]
  omega

/-- The read loops accumulate the big-endian value modulo their word size. -/
theorem foldl_word_toNat {ω : Type} (toNat : ω → ℕ) (M : ℕ) (step : ω → UInt8 → ω)
    (hstep : ∀ v c, toNat (step v c) = (toNat v * 256 + c.toNat) % M)
    (l : Bytes) (v : ω) (n : ℕ) (h : toNat v = n % M) :
    toNat (l.foldl step v) = l.foldl (fun k c => k * 256 + c.toNat) n % M := by
  induction l generalizing v n with
  | nil => exact h
  | cons c l ih =>
    simp only [List.foldl_cons]
    apply ih
    rw [hstep, h, Nat.add_mod, Nat.mul_mod, Nat.mod_mod, ← Nat.mul_mod, ← Nat.add_mod]

/-- `get_u32` is the big-endian value of its four bytes.
SRC: mgs.cpp:50-54 -/
theorem getU32_toNat (b : Bytes) (pos : ℕ) (h : pos + 4 ≤ b.length) :
    (getU32 b pos).toNat = bigEndianValue (slice b pos 4) := by
  have hlt := bigEndianValue_lt (slice b pos 4)
  have hlen : (slice b pos 4).length = 4 := by simp only [length_slice]; omega
  have hfold := foldl_word_toNat UInt32.toNat (2 ^ 32) (fun v c => (v <<< 8) ||| c.toUInt32)
    shl_or_toNat32 (slice b pos 4) 0 0 rfl
  have hget : getU32 b pos =
      (slice b pos 4).foldl (fun (v : UInt32) c => (v <<< 8) ||| c.toUInt32) 0 := by
    rw [slice_eq_map_getD b pos 4 h, List.foldl_map]
    rfl
  rw [hget, hfold]
  rw [hlen] at hlt
  exact Nat.mod_eq_of_lt hlt

/-- `get_u64` is the big-endian value of its eight bytes.
SRC: mgs.cpp:56-60 -/
theorem getU64_toNat (b : Bytes) (pos : ℕ) (h : pos + 8 ≤ b.length) :
    (getU64 b pos).toNat = bigEndianValue (slice b pos 8) := by
  have hlt := bigEndianValue_lt (slice b pos 8)
  have hlen : (slice b pos 8).length = 8 := by simp only [length_slice]; omega
  have hfold := foldl_word_toNat UInt64.toNat (2 ^ 64) (fun v c => (v <<< 8) ||| c.toUInt64)
    shl_or_toNat64 (slice b pos 8) 0 0 rfl
  have hget : getU64 b pos =
      (slice b pos 8).foldl (fun (v : UInt64) c => (v <<< 8) ||| c.toUInt64) 0 := by
    rw [slice_eq_map_getD b pos 8 h, List.foldl_map]
    rfl
  rw [hget, hfold]
  rw [hlen] at hlt
  exact Nat.mod_eq_of_lt hlt

/-- The byte `put_u32` stores for shift `k`. -/
theorem byteAt32 (v : UInt32) (k : ℕ) (hk : k < 32) :
    ((v >>> UInt32.ofNat k) &&& 0xFF).toUInt8 = UInt8.ofNat (v.toNat / 2 ^ k % 256) := by
  apply UInt8.toNat_inj.mp
  have hk' : k % 2 ^ 32 % 32 = k := by omega
  have hmask : (0xFF : UInt32).toNat = 2 ^ 8 - 1 := rfl
  rw [UInt32.toNat_toUInt8, UInt32.toNat_and, UInt32.toNat_shiftRight, UInt32.toNat_ofNat', hk',
    Nat.shiftRight_eq_div_pow, hmask, Nat.and_two_pow_sub_one_eq_mod, UInt8.toNat_ofNat']

/-- The byte `put_u64` stores for shift `k`. -/
theorem byteAt64 (v : UInt64) (k : ℕ) (hk : k < 64) :
    ((v >>> UInt64.ofNat k) &&& 0xFF).toUInt8 = UInt8.ofNat (v.toNat / 2 ^ k % 256) := by
  apply UInt8.toNat_inj.mp
  have hk' : k % 2 ^ 64 % 64 = k := by omega
  have hmask : (0xFF : UInt64).toNat = 2 ^ 8 - 1 := rfl
  rw [UInt64.toNat_toUInt8, UInt64.toNat_and, UInt64.toNat_shiftRight, UInt64.toNat_ofNat', hk',
    Nat.shiftRight_eq_div_pow, hmask, Nat.and_two_pow_sub_one_eq_mod, UInt8.toNat_ofNat']

/-- `put_u32` overwrites its field with the big-endian bytes.
SRC: mgs.cpp:42-44 -/
theorem putU32_eq_overwrite (b : Bytes) (pos : ℕ) (v : UInt32) (h : pos + 4 ≤ b.length) :
    putU32 b pos v = overwrite b pos (bigEndian 4 v.toNat) := by
  unfold putU32
  rw [foldl_set_eq_overwrite b pos 4 _ h]
  congr 1
  simp only [List.range_succ, List.range_zero, List.nil_append, List.map_append, List.map_cons,
    List.map_nil, bigEndian]
  rw [byteAt32 v _ (by omega), byteAt32 v _ (by omega), byteAt32 v _ (by omega),
    byteAt32 v _ (by omega)]
  simp only [Nat.div_div_eq_div_mul]
  norm_num

/-- `put_u64` overwrites its field with the big-endian bytes.
SRC: mgs.cpp:46-48 -/
theorem putU64_eq_overwrite (b : Bytes) (pos : ℕ) (v : UInt64) (h : pos + 8 ≤ b.length) :
    putU64 b pos v = overwrite b pos (bigEndian 8 v.toNat) := by
  unfold putU64
  rw [foldl_set_eq_overwrite b pos 8 _ h]
  congr 1
  simp only [List.range_succ, List.range_zero, List.nil_append, List.map_append, List.map_cons,
    List.map_nil, bigEndian]
  rw [byteAt64 v _ (by omega), byteAt64 v _ (by omega), byteAt64 v _ (by omega),
    byteAt64 v _ (by omega), byteAt64 v _ (by omega), byteAt64 v _ (by omega),
    byteAt64 v _ (by omega), byteAt64 v _ (by omega)]
  simp only [Nat.div_div_eq_div_mul]
  norm_num

/-- A field holding the big-endian bytes of `v` is read as `v`. -/
theorem getU32_of_slice (b : Bytes) (pos : ℕ) (v : UInt32) (h : pos + 4 ≤ b.length)
    (hs : slice b pos 4 = bigEndian 4 v.toNat) : getU32 b pos = v := by
  apply UInt32.toNat_inj.mp
  rw [getU32_toNat b pos h, hs, bigEndianValue_bigEndian]
  exact Nat.mod_eq_of_lt v.toNat_lt

/-- A field holding the big-endian bytes of `v` is read as `v`. -/
theorem getU64_of_slice (b : Bytes) (pos : ℕ) (v : UInt64) (h : pos + 8 ≤ b.length)
    (hs : slice b pos 8 = bigEndian 8 v.toNat) : getU64 b pos = v := by
  apply UInt64.toNat_inj.mp
  rw [getU64_toNat b pos h, hs, bigEndianValue_bigEndian]
  exact Nat.mod_eq_of_lt v.toNat_lt

/-! ## UUIDs -/

/-- Sixteen bytes copied out of a string are the run at that position. -/
theorem ofFn_of_slice (raw : Bytes) (pos : ℕ) (wire : Vector UInt8 16)
    (h : pos + 16 ≤ raw.length) (hs : slice raw pos 16 = wire.toList) :
    Vector.ofFn (fun i : Fin 16 => raw.getD (pos + i) 0) = wire := by
  rw [slice_eq_map_getD raw pos 16 h] at hs
  apply Vector.ext
  intro i hi
  have hget := congrArg (fun l => l.getD i 0) hs
  simpa [List.getD_eq_getElem, hi] using hget

/-- A printed nibble is read back.
SRC: mgs.cpp:62-67,93 -/
theorem hexNibble_digits : ∀ n : Fin 16, hexNibble (digits.getD n 0) = some (UInt8.ofNat n) := by
  decide

/-- No digit is a hyphen. -/
theorem digits_ne_hyphen : ∀ n : Fin 16, digits.getD n 0 ≠ 45 := by
  decide

/-- The two nibbles of a byte make the byte.
SRC: mgs.cpp:79 -/
theorem nibbles_join (b : UInt8) :
    (UInt8.ofNat (b >>> 4).toNat <<< 4) ||| UInt8.ofNat (b &&& 0x0F).toNat = b := by
  apply UInt8.toNat_inj.mp
  have hb : b.toNat < 256 := b.toNat_lt
  have hhi : (b >>> 4).toNat = b.toNat / 2 ^ 4 := by
    rw [UInt8.toNat_shiftRight, Nat.shiftRight_eq_div_pow]; rfl
  have hlo : (b &&& 0x0F).toNat = b.toNat % 2 ^ 4 := by
    rw [UInt8.toNat_and]
    exact Nat.and_two_pow_sub_one_eq_mod b.toNat 4
  have hmod : b.toNat / 2 ^ 4 * 2 ^ 4 % 2 ^ 8 = 2 ^ 4 * (b.toNat / 2 ^ 4) := by omega
  rw [UInt8.ofNat_toNat, UInt8.ofNat_toNat, UInt8.toNat_or, UInt8.toNat_shiftLeft,
    Nat.shiftLeft_eq, hhi, hlo]
  change b.toNat / 2 ^ 4 * 2 ^ 4 % 2 ^ 8 ||| b.toNat % 2 ^ 4 = b.toNat
  rw [hmod, ← Nat.two_pow_add_eq_or_of_lt (Nat.mod_lt _ (by norm_num))]
  omega

/-- The loop of `uuid_to_wire` reads one printed byte.
SRC: mgs.cpp:74-81 -/
theorem uuidToWireLoop_hexPair (b : UInt8) (rest : Bytes) (bytes : List UInt8)
    (h : bytes.length < 16) :
    uuidToWireLoop (hexPair b ++ rest) bytes = uuidToWireLoop rest (bytes ++ [b]) := by
  have hhi : (b >>> 4).toNat < 16 := by
    rw [UInt8.toNat_shiftRight, Nat.shiftRight_eq_div_pow]
    have := b.toNat_lt
    change b.toNat / 2 ^ 4 < 16
    omega
  have hlo : (b &&& 0x0F).toNat < 16 := by
    rw [UInt8.toNat_and]
    have := Nat.and_two_pow_sub_one_eq_mod b.toNat 4
    change b.toNat &&& 2 ^ 4 - 1 < 16
    omega
  have h1 := hexNibble_digits ⟨_, hhi⟩
  have h2 := hexNibble_digits ⟨_, hlo⟩
  have h3 := digits_ne_hyphen ⟨_, hhi⟩
  simp only [hexPair, List.cons_append, List.nil_append, uuidToWireLoop, if_pos h, if_neg h3, h1, h2,
    nibbles_join]

/-- The loop of `uuid_to_wire` reads a run of printed bytes. -/
theorem uuidToWireLoop_flatMap (l : List UInt8) (rest : Bytes) (bytes : List UInt8)
    (h : bytes.length + l.length ≤ 16) :
    uuidToWireLoop (l.flatMap hexPair ++ rest) bytes = uuidToWireLoop rest (bytes ++ l) := by
  induction l generalizing bytes with
  | nil => simp
  | cons b l ih =>
    simp only [List.length_cons] at h
    rw [List.flatMap_cons, List.append_assoc, uuidToWireLoop_hexPair b _ _ (by omega),
      ih _ (by simp only [List.length_append, List.length_singleton]; omega)]
    simp

/-- The loop of `uuid_to_wire` skips a hyphen that is not the last character. -/
theorem uuidToWireLoop_hyphen (b : UInt8) (l : List UInt8) (rest : Bytes) (bytes : List UInt8)
    (h : bytes.length < 16) :
    uuidToWireLoop (45 :: ((b :: l).flatMap hexPair ++ rest)) bytes =
      uuidToWireLoop ((b :: l).flatMap hexPair ++ rest) bytes := by
  simp only [List.flatMap_cons, hexPair, List.cons_append, List.nil_append]
  rw [uuidToWireLoop, if_pos h, if_pos rfl]

/-- The text of sixteen bytes, grouped 8-4-4-4-12.
SRC: mgs.cpp:96-100 -/
theorem uuidFromWire_mk (b0 b1 b2 b3 b4 b5 b6 b7 b8 b9 b10 b11 b12 b13 b14 b15 : UInt8) :
    uuidFromWire ⟨#[b8, b9, b10, b11, b12, b13, b14, b15, b0, b1, b2, b3, b4, b5, b6, b7], rfl⟩ =
      [b0, b1, b2, b3].flatMap hexPair ++ 45 :: ([b4, b5].flatMap hexPair ++
        45 :: ([b6, b7].flatMap hexPair ++ 45 :: ([b8, b9].flatMap hexPair ++
          45 :: ([b10, b11, b12, b13, b14, b15].flatMap hexPair ++ [])))) := by
  simp [uuidFromWire, List.range_succ]

/-- Every sixteen bytes are listed. -/
theorem wire_cases (wire : Vector UInt8 16) :
    ∃ b0 b1 b2 b3 b4 b5 b6 b7 b8 b9 b10 b11 b12 b13 b14 b15 : UInt8,
      wire = ⟨#[b8, b9, b10, b11, b12, b13, b14, b15, b0, b1, b2, b3, b4, b5, b6, b7], rfl⟩ := by
  refine ⟨wire[8], wire[9], wire[10], wire[11], wire[12], wire[13], wire[14], wire[15],
    wire[0], wire[1], wire[2], wire[3], wire[4], wire[5], wire[6], wire[7], ?_⟩
  apply Vector.ext
  intro i hi
  interval_cases i <;> rfl

/-- `uuid_to_wire` inverts `uuid_from_wire`.
SRC: mgs.cpp:71-102 -/
theorem uuidToWire_uuidFromWire (wire : Vector UInt8 16) :
    uuidToWire (uuidFromWire wire) = some wire := by
  obtain ⟨b0, b1, b2, b3, b4, b5, b6, b7, b8, b9, b10, b11, b12, b13, b14, b15, rfl⟩ :=
    wire_cases wire
  have hloop : uuidToWireLoop (uuidFromWire
      ⟨#[b8, b9, b10, b11, b12, b13, b14, b15, b0, b1, b2, b3, b4, b5, b6, b7], rfl⟩) [] =
      some [b0, b1, b2, b3, b4, b5, b6, b7, b8, b9, b10, b11, b12, b13, b14, b15] := by
    rw [uuidFromWire_mk, uuidToWireLoop_flatMap _ _ _ (by simp),
      uuidToWireLoop_hyphen _ _ _ _ (by simp), uuidToWireLoop_flatMap _ _ _ (by simp),
      uuidToWireLoop_hyphen _ _ _ _ (by simp), uuidToWireLoop_flatMap _ _ _ (by simp),
      uuidToWireLoop_hyphen _ _ _ _ (by simp), uuidToWireLoop_flatMap _ _ _ (by simp),
      uuidToWireLoop_hyphen _ _ _ _ (by simp), uuidToWireLoop_flatMap _ _ _ (by simp)]
    rfl
  unfold uuidToWire
  rw [hloop]
  rfl

/-- A lower-case hexadecimal digit. -/
def LowerHex (c : UInt8) : Prop := (48 ≤ c ∧ c ≤ 57) ∨ (97 ≤ c ∧ c ≤ 102)

instance (c : UInt8) : Decidable (LowerHex c) := inferInstanceAs (Decidable (_ ∨ _))

/-- Canonical UUID text: 36 characters, hyphens at 8, 13, 18 and 23, lower-case
hexadecimal digits everywhere else. -/
def CanonicalUuid (t : Bytes) : Prop :=
  t.length = 36 ∧ ∀ i < 36,
    if i = 8 ∨ i = 13 ∨ i = 18 ∨ i = 23 then t.getD i 0 = 45 else LowerHex (t.getD i 0)

instance (t : Bytes) : Decidable (CanonicalUuid t) := inferInstanceAs (Decidable (_ ∧ _))

/-- Every lower-case digit is printed for some nibble. -/
theorem lowerHex_digit (c : UInt8) (h : LowerHex c) : ∃ n : Fin 16, digits.getD n 0 = c := by
  have key : ∀ k : Fin 256, LowerHex (UInt8.ofNat k) → ∃ n : Fin 16,
      digits.getD n 0 = UInt8.ofNat k := by decide +kernel
  have hc := key ⟨c.toNat, c.toNat_lt⟩
  simp only [UInt8.ofNat_toNat] at hc
  exact hc h

/-- Every two lower-case digits are the print of one byte. -/
theorem hexPair_of_lowerHex (c d : UInt8) (hc : LowerHex c) (hd : LowerHex d) :
    ∃ b, hexPair b = [c, d] := by
  have key : ∀ n m : Fin 16, hexPair (UInt8.ofNat (n * 16 + m)) =
      [digits.getD n 0, digits.getD m 0] := by decide
  obtain ⟨n, rfl⟩ := lowerHex_digit c hc
  obtain ⟨m, rfl⟩ := lowerHex_digit d hd
  exact ⟨_, key n m⟩

/-- Canonical text is the print of some sixteen bytes.
SRC: mgs.cpp:89-102 -/
theorem canonical_eq_uuidFromWire (t : Bytes) (h : CanonicalUuid t) :
    ∃ wire, uuidFromWire wire = t := by
  obtain ⟨hlen, hpos⟩ := h
  have hex (i : ℕ) (hi : i + 1 < 36) (h1 : ¬(i = 8 ∨ i = 13 ∨ i = 18 ∨ i = 23))
      (h2 : ¬(i + 1 = 8 ∨ i + 1 = 13 ∨ i + 1 = 18 ∨ i + 1 = 23)) :
      ∃ b, hexPair b = [t.getD i 0, t.getD (i + 1) 0] := by
    have hc := hpos i (by omega)
    have hd := hpos (i + 1) hi
    rw [if_neg h1] at hc
    rw [if_neg h2] at hd
    exact hexPair_of_lowerHex _ _ hc hd
  have hyp (i : ℕ) (hi : i < 36) (h1 : i = 8 ∨ i = 13 ∨ i = 18 ∨ i = 23) : t.getD i 0 = 45 := by
    have hc := hpos i hi
    rwa [if_pos h1] at hc
  obtain ⟨b0, h0⟩ := hex 0 (by omega) (by omega) (by omega)
  obtain ⟨b1, h1⟩ := hex 2 (by omega) (by omega) (by omega)
  obtain ⟨b2, h2⟩ := hex 4 (by omega) (by omega) (by omega)
  obtain ⟨b3, h3⟩ := hex 6 (by omega) (by omega) (by omega)
  obtain ⟨b4, h4⟩ := hex 9 (by omega) (by omega) (by omega)
  obtain ⟨b5, h5⟩ := hex 11 (by omega) (by omega) (by omega)
  obtain ⟨b6, h6⟩ := hex 14 (by omega) (by omega) (by omega)
  obtain ⟨b7, h7⟩ := hex 16 (by omega) (by omega) (by omega)
  obtain ⟨b8, h8⟩ := hex 19 (by omega) (by omega) (by omega)
  obtain ⟨b9, h9⟩ := hex 21 (by omega) (by omega) (by omega)
  obtain ⟨b10, h10⟩ := hex 24 (by omega) (by omega) (by omega)
  obtain ⟨b11, h11⟩ := hex 26 (by omega) (by omega) (by omega)
  obtain ⟨b12, h12⟩ := hex 28 (by omega) (by omega) (by omega)
  obtain ⟨b13, h13⟩ := hex 30 (by omega) (by omega) (by omega)
  obtain ⟨b14, h14⟩ := hex 32 (by omega) (by omega) (by omega)
  obtain ⟨b15, h15⟩ := hex 34 (by omega) (by omega) (by omega)
  have ht : (List.range 36).map (fun i => t.getD i 0) = t := by
    have := slice_eq_map_getD t 0 36 (by omega)
    simpa [slice, List.take_of_length_le hlen.le] using this.symm
  refine ⟨⟨#[b8, b9, b10, b11, b12, b13, b14, b15, b0, b1, b2, b3, b4, b5, b6, b7], rfl⟩, ?_⟩
  rw [uuidFromWire_mk, ← ht]
  simp only [List.flatMap_cons, List.flatMap_nil, h0, h1, h2, h3, h4, h5, h6, h7, h8, h9, h10, h11,
    h12, h13, h14, h15, List.range_succ, List.range_zero, List.map_cons, List.map_nil, List.cons_append,
    List.nil_append, List.append_nil, hyp 8 (by omega) (by omega), hyp 13 (by omega) (by omega),
    hyp 18 (by omega) (by omega), hyp 23 (by omega) (by omega)]

end HaikuAgent.Analysis.MgsFields
