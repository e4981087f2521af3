import Mathlib.Data.UInt
import HaikuAgent.Foundation.Bytes

/-!
# Percent-encoding

RFC 3986: a byte that may not stand in a text for itself is written as a percent sign and two
hexadecimal digits. What is kept is a parameter. Decoding undoes the encoding, and a text that
decodes to itself has no escapes in it.
-/

set_option autoImplicit false

namespace HaikuAgent.Foundation.PercentEncoding

/-- The unreserved characters. -/
def isUnreserved (b : UInt8) : Bool :=
  (65 ≤ b && b ≤ 90) || (97 ≤ b && b ≤ 122) || (48 ≤ b && b ≤ 57) || b == 45 || b == 95 || b == 46 || b == 126

/-- A path keeps its slashes. -/
def isPathByte (b : UInt8) : Bool := isUnreserved b || b == 47

/-- A hexadecimal digit, in upper case. -/
def hexDigit (n : ℕ) : UInt8 := UInt8.ofNat (if n < 10 then 48 + n else 55 + n)

/-- The value of a hexadecimal digit, in either case. -/
def hexValue (b : UInt8) : Option ℕ :=
  if 48 ≤ b ∧ b ≤ 57 then some (b.toNat - 48)
  else if 65 ≤ b ∧ b ≤ 70 then some (b.toNat - 55)
  else if 97 ≤ b ∧ b ≤ 102 then some (b.toNat - 87)
  else none

def escape (b : UInt8) : Bytes := [37, hexDigit (b.toNat / 16), hexDigit (b.toNat % 16)]

variable (keep : UInt8 → Bool)

def encode (s : Bytes) : Bytes := s.flatMap fun b => if keep b then [b] else escape b

def decode : Bytes → Bytes
  | [] => []
  | b :: rest =>
    match b, rest with
    | 37, hi :: lo :: rest =>
      match hexValue hi, hexValue lo with
      | some h, some l => UInt8.ofNat (16 * h + l) :: decode rest
      | _, _ => 37 :: decode (hi :: lo :: rest)
    | b, rest => b :: decode rest

/-- The text consists of kept bytes and escapes. -/
def IsEncoded : Bytes → Prop
  | [] => True
  | b :: rest =>
    match b, rest with
    | 37, hi :: lo :: rest => (hexValue hi).isSome ∧ (hexValue lo).isSome ∧ IsEncoded rest
    | b, rest => keep b ∧ IsEncoded rest

/-- A hexadecimal digit is read as the number it was written for. -/
theorem hexValue_hexDigit (n : ℕ) (h : n < 16) : hexValue (hexDigit n) = some n := by
  have hall : ∀ n : Fin 16, hexValue (hexDigit n) = some n := by decide
  exact hall ⟨n, h⟩

/-- An escaped byte is decoded to itself. -/
theorem decode_escape (b : UInt8) (rest : Bytes) : decode (escape b ++ rest) = b :: decode rest := by
  have hhi : b.toNat / 16 < 16 := Nat.div_lt_of_lt_mul b.toNat_lt
  have hlo : b.toNat % 16 < 16 := Nat.mod_lt _ (by decide)
  show decode (37 :: hexDigit _ :: hexDigit _ :: rest) = _
  rw [decode]
  simp only [hexValue_hexDigit _ hhi, hexValue_hexDigit _ hlo]
  rw [Nat.div_add_mod, UInt8.ofNat_toNat]

/-- A byte other than the percent sign stands for itself. -/
theorem decode_cons_ne (b : UInt8) (rest : Bytes) (h : b ≠ 37) : decode (b :: rest) = b :: decode rest := by
  rw [decode]
  intro hi lo tail hb
  exact absurd hb h

variable {keep}

/-- What an encoded text is made of. -/
theorem mem_encode (s : Bytes) (b : UInt8) (h : b ∈ encode keep s) :
    keep b = true ∨ b = 37 ∨ ∃ n : Fin 16, b = hexDigit n := by
  obtain ⟨c, -, hc⟩ := List.mem_flatMap.mp h
  cases hkeep : keep c with
  | true =>
    rw [hkeep, if_pos rfl] at hc
    exact Or.inl ((List.mem_singleton.mp hc).symm ▸ hkeep)
  | false =>
    rw [hkeep, if_neg Bool.false_ne_true] at hc
    simp only [escape, List.mem_cons, List.not_mem_nil, or_false] at hc
    rcases hc with hpercent | hhi | hlo
    · exact Or.inr (Or.inl hpercent)
    · exact Or.inr (Or.inr ⟨⟨c.toNat / 16, Nat.div_lt_of_lt_mul c.toNat_lt⟩, hhi⟩)
    · exact Or.inr (Or.inr ⟨⟨c.toNat % 16, Nat.mod_lt _ (Nat.succ_pos 15)⟩, hlo⟩)

/-- What is encoded is decoded again. -/
theorem decode_encode (hpercent : keep 37 = false) (s : Bytes) : decode (encode keep s) = s := by
  induction s with
  | nil => rfl
  | cons b s ih =>
    rw [encode, List.flatMap_cons]
    cases hkeep : keep b with
    | true =>
      have hb : b ≠ 37 := fun h => Bool.false_ne_true (hpercent.symm.trans (h ▸ hkeep))
      show decode (b :: encode keep s) = _
      rw [decode_cons_ne b _ hb, ih]
    | false =>
      show decode (escape b ++ encode keep s) = _
      rw [decode_escape, ih]

/-- A byte without an escape has to be one that is kept. -/
theorem isEncoded_cons (b : UInt8) (rest : Bytes) (hb : b ≠ 37) :
    IsEncoded keep (b :: rest) ↔ keep b ∧ IsEncoded keep rest := by
  rw [IsEncoded]
  intro hi lo tail h
  exact absurd h hb

/-- Bytes that are all kept are an encoding of themselves. -/
theorem isEncoded_of_keep (hpercent : keep 37 = false) (s : Bytes) (h : ∀ b ∈ s, keep b = true) :
    IsEncoded keep s ∧ decode s = s := by
  induction s with
  | nil => exact ⟨trivial, rfl⟩
  | cons b s ih =>
    obtain ⟨hkeep, hs⟩ := List.forall_mem_cons.mp h
    have hb : b ≠ 37 := fun heq => Bool.false_ne_true (hpercent.symm.trans (heq ▸ hkeep))
    obtain ⟨hencoded, hdecode⟩ := ih hs
    rw [isEncoded_cons b s hb, decode_cons_ne b s hb, hdecode]
    exact ⟨⟨hkeep, hencoded⟩, rfl⟩

/-- Nothing is done to bytes that are all kept. -/
theorem encode_of_keep (s : Bytes) (h : ∀ b ∈ s, keep b = true) : encode keep s = s := by
  induction s with
  | nil => rfl
  | cons b s ih =>
    obtain ⟨hkeep, hs⟩ := List.forall_mem_cons.mp h
    rw [encode, List.flatMap_cons, if_pos hkeep]
    exact congrArg (b :: ·) (ih hs)

/-- Decoding makes no text longer. -/
theorem length_decode (s : Bytes) : (decode s).length ≤ s.length := by
  induction s using decode.induct with
  | case1 => exact Nat.le_refl 0
  | case2 hi lo rest h l hh hl ih =>
    rw [decode]
    simp only [hh, hl, List.length_cons]
    omega
  | case3 hi lo rest hnone ih =>
    rw [decode]
    split
    next h l hh hl => exact (hnone h l hh hl).elim
    next =>
      simp only [List.length_cons] at ih ⊢
      omega
  | case4 b rest hne ih =>
    rw [decode]
    · simp only [List.length_cons]
      omega
    · exact hne

/-- An escape is lost in decoding. -/
theorem keep_of_decode_eq (s : Bytes) (hencoded : IsEncoded keep s) (hdecode : decode s = s) :
    ∀ b ∈ s, keep b = true := by
  induction s using decode.induct with
  | case1 => exact fun _ h => nomatch h
  | case2 hi lo rest h l hh hl ih =>
    have hlength := congrArg List.length hdecode
    rw [decode] at hlength
    simp only [hh, hl, List.length_cons] at hlength
    have hle := length_decode rest
    omega
  | case3 hi lo rest hnone ih =>
    rw [IsEncoded] at hencoded
    obtain ⟨hhi, hlo, -⟩ := hencoded
    obtain ⟨h, hh⟩ := Option.isSome_iff_exists.mp hhi
    obtain ⟨l, hl⟩ := Option.isSome_iff_exists.mp hlo
    exact (hnone h l hh hl).elim
  | case4 b rest hne ih =>
    rw [IsEncoded] at hencoded
    · rw [decode] at hdecode
      · exact List.forall_mem_cons.mpr ⟨hencoded.1, ih hencoded.2 (List.cons.inj hdecode).2⟩
      · exact hne
    · exact hne

end HaikuAgent.Foundation.PercentEncoding
