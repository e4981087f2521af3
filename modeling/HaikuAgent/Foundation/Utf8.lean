import HaikuAgent.Foundation.Bytes
import HaikuAgent.Foundation.SelfSynchronizing

/-!
# UTF-8

A byte string is `Utf8` when it is the encoding of some characters. A byte from `0x80` to
`0xBF` continues a character; every other byte of such a string begins one.
-/

set_option autoImplicit false

namespace HaikuAgent.Foundation

/-- The string is the encoding of characters. -/
def Utf8 (s : Bytes) : Prop := Spelled String.utf8EncodeChar s

/-- The byte continues a character. -/
def isContinuation (b : UInt8) : Bool := 0x80 ≤ b && b < 0xC0

/-- The length of a character's encoding, from its first byte. -/
def encodedSize (b : UInt8) : ℕ := if b < 0x80 then 1 else if b < 0xE0 then 2 else if b < 0xF0 then 3 else 4

/-- A number below 256 is the value of its byte. -/
theorem toNat_byte (n : ℕ) (h : n < 256) : (UInt8.ofNat n).toNat = n := by
  rw [UInt8.toNat_ofNat']
  omega

/-- The bytes from 128 to 191 are the continuation bytes. -/
theorem isContinuation_byte (n : ℕ) (h : n < 256) :
    isContinuation (UInt8.ofNat n) = (decide (0x80 ≤ n) && decide (n < 0xC0)) := by
  unfold isContinuation
  rw [Bool.eq_iff_iff]
  simp only [Bool.and_eq_true, decide_eq_true_eq, UInt8.le_iff_toNat_le, UInt8.lt_iff_toNat_lt,
    toNat_byte n h]
  exact Iff.rfl

/-- Six bits behind the mark `10` are a continuation byte. -/
theorem continuation_byte (n : ℕ) : isContinuation (UInt8.ofNat (n % 0x40 + 0x80)) = true := by
  rw [isContinuation_byte _ (by omega), Bool.and_eq_true, decide_eq_true_eq, decide_eq_true_eq]
  omega

/-- The first byte of a character tells how many bytes it has. -/
theorem encodedSize_byte (n : ℕ) (h : n < 256) :
    encodedSize (UInt8.ofNat n) = if n < 0x80 then 1 else if n < 0xE0 then 2 else if n < 0xF0 then 3 else 4 := by
  unfold encodedSize
  simp only [UInt8.lt_iff_toNat_lt, toNat_byte n h]
  rfl

/-- A first byte of a given range, and the continuation bytes behind it. -/
theorem word_of_bytes (n : ℕ) (bs : Bytes) (hn : n < 0x80 ∨ (0xC0 ≤ n ∧ n < 256))
    (hbs : ∀ c ∈ bs, isContinuation c = true)
    (hsize : bs.length + 1 = if n < 0x80 then 1 else if n < 0xE0 then 2 else if n < 0xF0 then 3 else 4) :
    ∃ b cs, UInt8.ofNat n :: bs = b :: cs ∧ (!isContinuation b) = true ∧
      (∀ c ∈ cs, (!isContinuation c) = false) ∧ (UInt8.ofNat n :: bs).length = encodedSize b := by
  refine ⟨UInt8.ofNat n, bs, rfl, ?_, ?_, ?_⟩
  · rw [isContinuation_byte n (by omega), Bool.not_eq_true', Bool.and_eq_false_iff,
      decide_eq_false_iff_not, decide_eq_false_iff_not]
    omega
  · intro c hc
    rw [hbs c hc]
    rfl
  · rw [encodedSize_byte n (by omega), List.length_cons, hsize]

/-- UTF-8 is self-synchronizing: a character begins where the byte is no continuation. -/
theorem utf8_synchronizing :
    SelfSynchronizing String.utf8EncodeChar (fun b => !isContinuation b) encodedSize where
  word c := by
    have hlt : c.val.toNat < 0x110000 := by
      have hvalid := c.valid
      simp only [UInt32.isValidChar, Nat.isValidChar] at hvalid
      omega
    unfold String.utf8EncodeChar
    generalize c.val.toNat = v at hlt ⊢
    dsimp only
    split_ifs with h1 h2 h3
    · apply word_of_bytes
      · omega
      · intro c hc
        cases hc
      · rw [if_pos (by omega)]
        rfl
    · apply word_of_bytes
      · omega
      · simp only [List.mem_cons, List.not_mem_nil, or_false]
        rintro c rfl
        exact continuation_byte v
      · rw [if_neg (by omega), if_pos (by omega)]
        rfl
    · apply word_of_bytes
      · omega
      · simp only [List.mem_cons, List.not_mem_nil, or_false]
        rintro c (rfl | rfl)
        · exact continuation_byte (v / 64)
        · exact continuation_byte v
      · rw [if_neg (by omega), if_neg (by omega), if_pos (by omega)]
        rfl
    · apply word_of_bytes
      · omega
      · simp only [List.mem_cons, List.not_mem_nil, or_false]
        rintro c (rfl | rfl | rfl)
        · exact continuation_byte (v / 4096)
        · exact continuation_byte (v / 64)
        · exact continuation_byte v
      · rw [if_neg (by omega), if_neg (by omega), if_neg (by omega)]
        rfl

/-- The empty text is UTF-8. -/
theorem utf8_nil : Utf8 [] := spelled_nil

/-- An ASCII byte is a character. -/
theorem encode_ascii (b : UInt8) (h : b < 0x80) : ∃ c, String.utf8EncodeChar c = [b] := by
  have hlt : b.toNat < 0x80 := UInt8.lt_iff_toNat_lt.mp h
  refine ⟨⟨b.toUInt32, Or.inl (by rw [UInt8.toNat_toUInt32]; omega)⟩, ?_⟩
  unfold String.utf8EncodeChar
  rw [UInt8.toNat_toUInt32]
  dsimp only
  rw [if_pos (by omega), UInt8.ofNat_toNat]

/-- ASCII text. -/
def Ascii (s : Bytes) : Prop := ∀ b ∈ s, b < 0x80

instance (s : Bytes) : Decidable (Ascii s) := List.decidableBAll (fun b : UInt8 => b < 0x80) s

/-- The empty text is ASCII. -/
theorem ascii_nil : Ascii [] := fun _ hb => absurd hb List.not_mem_nil

/-- Two ASCII texts are one together. -/
theorem Ascii.append {s t : Bytes} (hs : Ascii s) (ht : Ascii t) : Ascii (s ++ t) := by
  intro b hb
  rcases List.mem_append.mp hb with h | h
  · exact hs b h
  · exact ht b h

/-- So is an ASCII text with bytes left out. -/
theorem Ascii.sublist {s t : Bytes} (hs : Ascii s) (h : t.Sublist s) : Ascii t :=
  fun b hb => hs b (h.subset hb)

/-- ASCII text is UTF-8. -/
theorem utf8_ascii (s : Bytes) (h : Ascii s) : Utf8 s := by
  induction s with
  | nil => exact utf8_nil
  | cons b s ih =>
    obtain ⟨c, hc⟩ := encode_ascii b (h b List.mem_cons_self)
    have hb : Utf8 [b] := hc ▸ spelled_word c
    exact hb.append (ih fun c hc => h c (List.mem_cons_of_mem _ hc))

/-- An ASCII byte separates. -/
theorem utf8_separated (b : UInt8) (h : b < 0x80) (s t : Bytes) :
    Utf8 (s ++ b :: t) ↔ Utf8 s ∧ Utf8 t := by
  obtain ⟨c, hc⟩ := encode_ascii b h
  exact utf8_synchronizing.spelled_separated c b hc s t

/-- So does ASCII text that is not empty. -/
theorem utf8_separated_text (a : Bytes) (hne : a ≠ []) (h : Ascii a) (s t : Bytes) :
    Utf8 (s ++ (a ++ t)) ↔ Utf8 s ∧ Utf8 t := by
  obtain ⟨b, a, rfl⟩ := List.exists_cons_of_ne_nil hne
  rw [List.cons_append, utf8_separated b (h b List.mem_cons_self)]
  refine and_congr_right fun _ => ?_
  have ha := utf8_ascii a fun c hc => h c (List.mem_cons_of_mem _ hc)
  exact ⟨utf8_synchronizing.spelled_rest a t ha, ha.append⟩

/-- Text may be cut at its end and before every byte that continues no character. -/
theorem utf8_take_iff (s : Bytes) (hs : Utf8 s) (n : ℕ) :
    Utf8 (s.take n) ↔ ∀ b, s[n]? = some b → isContinuation b = false := by
  rw [Utf8, utf8_synchronizing.spelled_take_iff s hs n]
  simp only [Bool.not_eq_true']

/-- Parts are text together where each is, unless the second begins inside a character. -/
theorem utf8_append_iff (s t : Bytes) (h : ∀ b, t.head? = some b → isContinuation b = false) :
    Utf8 (s ++ t) ↔ Utf8 s ∧ Utf8 t := by
  constructor
  · intro hall
    have hs : Utf8 s := by
      have htake := (utf8_take_iff (s ++ t) hall s.length).mpr fun b hb => by
        rw [List.getElem?_append_right (Nat.le_refl _), Nat.sub_self, ← List.head?_eq_getElem?] at hb
        exact h b hb
      rwa [List.take_left] at htake
    exact ⟨hs, utf8_synchronizing.spelled_rest s t hs hall⟩
  · rintro ⟨hs, ht⟩
    exact hs.append ht

/-- An ASCII byte continues no character. -/
theorem not_continuation_ascii (b : UInt8) (h : b < 0x80) : isContinuation b = false := by
  rw [isContinuation, Bool.and_eq_false_iff, decide_eq_false_iff_not]
  exact Or.inl (UInt8.not_le.mpr h)

end HaikuAgent.Foundation
