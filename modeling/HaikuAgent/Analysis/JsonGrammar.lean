import HaikuAgent.Interface.JsonText
import HaikuAgent.Model.JsonParse

/-!
# The parser accepts JSON

`json::parse` on the texts of the grammar: each scanner takes exactly its own piece off the
front of what is left (`stringBody_text`, `numberToken_text`), and `value`, `members` and
`elements` follow the derivation tree (`value_text`), as long as two units of fuel are
left for each byte of the text, which is what `parse` gives them.
-/

set_option autoImplicit false

namespace HaikuAgent.Analysis.JsonGrammar

open HaikuAgent.Foundation
open HaikuAgent.Model
open HaikuAgent.Model.Json
open HaikuAgent.Interface.JsonText

/-! ## Whitespace -/

def isBlank (c : UInt8) : Bool := c == 32 || c == 9 || c == 10 || c == 13

/-- What is left does not begin with whitespace. -/
def Solid (rest : Bytes) : Prop := ∀ c ∈ rest.head?, isBlank c = false

/-- Skipping blanks is dropping the leading blank bytes. -/
theorem skipBlanks_eq (rest : Bytes) : skipBlanks rest = rest.dropWhile isBlank := rfl

/-- Nothing is skipped before a byte that is not blank. -/
theorem skipBlanks_of_solid {rest : Bytes} (h : Solid rest) : skipBlanks rest = rest := by
  cases rest with
  | nil => rfl
  | cons c rest =>
    rw [skipBlanks_eq, List.dropWhile_cons_of_neg]
    rw [h c rfl]
    exact Bool.false_ne_true

/-- What is left after the blanks does not begin with a blank. -/
theorem solid_skipBlanks (rest : Bytes) : Solid (skipBlanks rest) := by
  intro c hc
  rw [skipBlanks_eq] at hc
  have hhead := List.head?_dropWhile_not isBlank rest
  rw [Option.mem_def.mp hc] at hhead
  simpa using hhead

/-- Skipping blanks twice is skipping them once. -/
theorem skipBlanks_idem (rest : Bytes) : skipBlanks (skipBlanks rest) = skipBlanks rest :=
  skipBlanks_of_solid (solid_skipBlanks rest)

/-- The bytes of the grammar's blanks are blanks for the parser. -/
theorem isBlank_byte (b : Blank) : isBlank b.byte = true := by
  cases b <;> rfl

/-- Blanks written before a text make no difference once blanks are skipped. -/
theorem skipBlanks_wsText (ws : Ws) (rest : Bytes) :
    skipBlanks (wsText ws ++ rest) = skipBlanks rest := by
  induction ws with
  | nil => rfl
  | cons b ws ih =>
    show skipBlanks (b.byte :: (wsText ws ++ rest)) = _
    rw [skipBlanks_eq, List.dropWhile_cons_of_pos (isBlank_byte b)]
    exact ih

/-! ## Characters and escapes -/

/-- A hex digit in either case reads back as its value. -/
theorem hexDigit_hexByte : ∀ (d : Fin 16) (upper : Bool), hexDigit (hexByte d upper) = some d.val := by
  decide

/-- Four hex digits read back as the number they write. -/
theorem hex4_text (size n : ℕ) (hn : n < 0x10000) (upper : Fin 4 → Bool) (rest : Bytes) :
    hex4 size (hex4Text n upper ++ rest) = .ok (n, rest) := by
  unfold hex4
  rw [if_neg (by simp [hex4Text])]
  simp only [hex4Text, List.cons_append, List.nil_append, hexDigits, hexDigit_hexByte, Fin.ofNat]
  congr 2
  omega

/-- A character is below the end of the Unicode range. -/
theorem char_lt (c : Char) : c.toNat < 0x110000 := by
  have hvalid := c.valid
  simp only [UInt32.isValidChar, Nat.isValidChar] at hvalid
  simp only [Char.toNat]
  omega

/-- The parser's UTF-8 form of a character is the right one. -/
theorem utf8_char (c : Char) : utf8 c.toNat = String.utf8EncodeChar c := by
  have hlt := char_lt c
  have hbyte {m n : ℕ} (h : m = n) : UInt8.ofNat m = UInt8.ofNat n := congrArg UInt8.ofNat h
  unfold utf8 String.utf8EncodeChar
  simp only [Char.toNat] at hlt ⊢
  generalize c.val.toNat = v at hlt ⊢
  by_cases h1 : v < 0x80
  · rw [if_pos h1, if_pos (by omega)]
  by_cases h2 : v < 0x800
  · rw [if_neg h1, if_pos h2, if_neg (by omega), if_pos (by omega),
      hbyte (m := 0xC0 + v / 64) (n := v / 64 % 0x20 + 0xC0) (by omega), hbyte (Nat.add_comm 0x80 (v % 64))]
  by_cases h3 : v < 0x10000
  · rw [if_neg h1, if_neg h2, if_pos h3, if_neg (by omega), if_neg (by omega), if_pos (by omega),
      hbyte (m := 0xE0 + v / 4096) (n := v / 4096 % 0x10 + 0xE0) (by omega),
      hbyte (Nat.add_comm 0x80 (v % 64)), hbyte (Nat.add_comm 0x80 (v / 64 % 64))]
  · rw [if_neg h1, if_neg h2, if_neg h3, if_neg (by omega), if_neg (by omega), if_neg (by omega),
      hbyte (m := 0xF0 + v / 262144) (n := v / 262144 % 0x08 + 0xF0) (by omega),
      hbyte (Nat.add_comm 0x80 (v % 64)), hbyte (Nat.add_comm 0x80 (v / 64 % 64)),
      hbyte (Nat.add_comm 0x80 (v / 4096 % 64))]

/-- No character is a high surrogate. -/
theorem not_surrogate (c : Char) : ¬(0xD800 ≤ c.toNat ∧ c.toNat ≤ 0xDBFF) := by
  have hvalid := c.valid
  simp only [UInt32.isValidChar, Nat.isValidChar] at hvalid
  simp only [Char.toNat]
  omega

/-- The escape of a character outside the surrogate range stands for its UTF-8 bytes. -/
theorem unicodeEscape_char (size : ℕ) (c : Char) (rest : Bytes) :
    unicodeEscape size c.toNat rest = .ok (String.utf8EncodeChar c, rest) := by
  unfold unicodeEscape
  rw [if_neg, utf8_char]
  rintro ⟨hlo, hhi, -⟩
  exact not_surrogate c ⟨hlo, hhi⟩

/-- The parser recognises the start of a second escape. -/
theorem startsWith_escape (rest : Bytes) : startsWith (0x5C :: 0x75 :: rest) (lit "\\u") = true := by
  have hlit : lit "\\u" = [0x5C, 0x75] := by decide
  rw [hlit]
  simp [startsWith]

/-- Two escaped surrogates in the right order stand for the character they encode together. -/
theorem unicodeEscape_surrogates (size high low : ℕ) (hhigh : 0xD800 ≤ high ∧ high ≤ 0xDBFF)
    (hlow : 0xDC00 ≤ low ∧ low ≤ 0xDFFF) (upper : Fin 4 → Bool) (rest : Bytes) :
    unicodeEscape size high (0x5C :: 0x75 :: (hex4Text low upper ++ rest)) =
      .ok (utf8 (0x10000 + (high - 0xD800) * 1024 + (low - 0xDC00)), rest) := by
  unfold unicodeEscape
  rw [if_pos ⟨hhigh.1, hhigh.2, startsWith_escape _⟩, List.drop_succ_cons, List.drop_succ_cons,
    List.drop_zero, hex4_text size low (by omega)]
  simp only [bind, Except.bind]
  rw [if_pos hlow]

/-- A character above the basic plane is read from its pair of surrogates. -/
theorem unicodeEscape_pair (size : ℕ) (c : Char) (hc : 0x10000 ≤ c.toNat) (upper : Fin 4 → Bool)
    (rest : Bytes) :
    unicodeEscape size (highSurrogate c) (0x5C :: 0x75 :: (hex4Text (lowSurrogate c) upper ++ rest)) =
      .ok (String.utf8EncodeChar c, rest) := by
  have hlt := char_lt c
  have hcode : 0x10000 + (highSurrogate c - 0xD800) * 1024 + (lowSurrogate c - 0xDC00) = c.toNat := by
    unfold highSurrogate lowSurrogate
    omega
  rw [unicodeEscape_surrogates, hcode, utf8_char]
  · unfold highSurrogate
    omega
  · unfold lowSurrogate
    omega

/-! ## Strings -/

/-- Each escape letter stands for its byte. -/
theorem simpleEscape_letter (e : Escape) : simpleEscape e.letter = some e.meaning := by
  cases e <;> rfl

/-- A `\u` escape is one round of the loop. -/
theorem stringBody_unicode (size fuel n : ℕ) (hn : n < 0x10000) (upper : Fin 4 → Bool)
    (out rest bytes more : Bytes) (h : unicodeEscape size n rest = .ok (bytes, more)) :
    stringBody size (fuel + 1) out (92 :: 117 :: (hex4Text n upper ++ rest)) =
      stringBody size fuel (out ++ bytes) more := by
  have hnone : simpleEscape 117 = none := by decide
  rw [stringBody, if_neg (by decide), if_neg (by decide)]
  simp only [hnone, if_true, hex4_text size n hn, bind, Except.bind, h]

/-- One item of a string is one round of the loop. -/
theorem stringBody_item (size fuel : ℕ) (out rest : Bytes) (item : StringItem) :
    stringBody size (fuel + 1) out (item.text ++ rest) =
      stringBody size fuel (out ++ item.denote) rest := by
  cases item with
  | byte b h =>
    obtain ⟨-, hquote, hbackslash⟩ := h
    show (if b = 34 then _ else _) = _
    rw [if_neg hquote, if_pos hbackslash]
    rfl
  | escape e =>
    show stringBody size (fuel + 1) out (92 :: e.letter :: rest) = _
    rw [stringBody, if_neg (by decide), if_neg (by decide)]
    simp only [simpleEscape_letter]
    rfl
  | unicode c h upper =>
    exact stringBody_unicode size fuel _ h upper out rest _ _ (unicodeEscape_char size c rest)
  | pair c h upper upper' =>
    have hlt := char_lt c
    have htext : (StringItem.pair c h upper upper').text ++ rest =
        92 :: 117 :: (hex4Text (highSurrogate c) upper ++
          (0x5C :: 0x75 :: (hex4Text (lowSurrogate c) upper' ++ rest))) := by
      simp [StringItem.text]
    rw [htext]
    refine stringBody_unicode size fuel _ ?_ upper out _ _ _ (unicodeEscape_pair size c h upper' rest)
    unfold highSurrogate
    omega

/-- The body of a string, up to its closing quote, is read as the bytes it denotes. -/
theorem stringBody_text (size : ℕ) (s : StringText) (out rest : Bytes) (fuel : ℕ)
    (hfuel : s.length < fuel) :
    stringBody size fuel out (StringText.body s ++ 34 :: rest) = .ok (out ++ StringText.denote s, rest) := by
  induction s generalizing out fuel with
  | nil =>
    obtain ⟨fuel, rfl⟩ : ∃ k, fuel = k + 1 := ⟨fuel - 1, by omega⟩
    show (if (34 : UInt8) = 34 then .ok (out, rest) else _) = Except.ok (out ++ [], rest)
    rw [if_pos rfl, List.append_nil]
  | cons item s ih =>
    rw [List.length_cons] at hfuel
    obtain ⟨fuel, rfl⟩ : ∃ k, fuel = k + 1 := ⟨fuel - 1, by omega⟩
    have htext : StringText.body (item :: s) ++ 34 :: rest =
        item.text ++ (StringText.body s ++ 34 :: rest) := by
      simp [StringText.body]
    rw [htext, stringBody_item, ih _ fuel (by omega)]
    simp [StringText.denote]

/-- A string's text is at least as long as its number of items. -/
theorem length_le_body (s : StringText) : s.length ≤ (StringText.body s).length := by
  induction s with
  | nil => exact Nat.zero_le _
  | cons item s ih =>
    have hpos : 1 ≤ item.text.length := by
      cases item <;> simp [StringItem.text]
    show s.length + 1 ≤ (item.text ++ StringText.body s).length
    rw [List.length_append]
    omega

/-- A quoted string is read as the bytes it denotes. -/
theorem stringToken_text (size : ℕ) (s : StringText) (rest : Bytes) :
    stringToken size (StringText.text s ++ rest) = .ok (StringText.denote s, rest) := by
  have htext : StringText.text s ++ rest = 34 :: (StringText.body s ++ 34 :: rest) := by
    simp [StringText.text]
  have hlen := length_le_body s
  unfold stringToken
  rw [htext, List.head?_cons, if_pos rfl, List.tail_cons, stringBody_text]
  · rfl
  · simp only [List.length_cons, List.length_append]
    omega

/-! ## Numbers -/

/-- What is left cannot carry a number on. -/
def EndsNumber (rest : Bytes) : Prop :=
  ∀ c ∈ rest.head?, isDigit c = false ∧ c ≠ 46 ∧ c ≠ 101 ∧ c ≠ 69

/-- The byte of a digit is a digit for the parser. -/
theorem isDigit_digitByte : ∀ d : Fin 10, isDigit (digitByte d) = true := by decide

/-- A run of digits is taken whole. -/
theorem dropWhile_digits (ds : List (Fin 10)) (rest : Bytes) (h : ∀ c ∈ rest.head?, isDigit c = false) :
    (digitsText ds ++ rest).dropWhile isDigit = rest ∧
      (digitsText ds ++ rest).takeWhile isDigit = digitsText ds := by
  induction ds with
  | nil =>
    cases rest with
    | nil => exact ⟨rfl, rfl⟩
    | cons c rest =>
      have hc := h c rfl
      refine ⟨List.dropWhile_cons_of_neg ?_, List.takeWhile_cons_of_neg ?_⟩
      · rw [hc]
        exact Bool.false_ne_true
      · rw [hc]
        exact Bool.false_ne_true
  | cons d ds ih =>
    have hd := isDigit_digitByte d
    show ((digitByte d) :: (digitsText ds ++ rest)).dropWhile isDigit = rest ∧
      ((digitByte d) :: (digitsText ds ++ rest)).takeWhile isDigit = digitByte d :: digitsText ds
    rw [List.dropWhile_cons_of_pos hd, List.takeWhile_cons_of_pos hd, ih.1, ih.2]
    exact ⟨rfl, rfl⟩

/-- The digits of a number are skipped up to the first byte that is no digit. -/
theorem dropWhile_digits_text (ds : Digits) (rest : Bytes) (h : ∀ c ∈ rest.head?, isDigit c = false) :
    (ds.text ++ rest).dropWhile isDigit = rest := (dropWhile_digits (ds.first :: ds.rest) rest h).1

/-- A byte that is a digit is no sign. -/
theorem skipSign_of_digit {s : Bytes} (h : ∀ c ∈ s.head?, isDigit c = true) : skipSign s = s := by
  unfold skipSign
  refine if_neg ?_
  rintro (hc | hc)
  · exact absurd (h 45 hc) (by decide)
  · exact absurd (h 43 hc) (by decide)

/-- Digits begin with a digit. -/
theorem head_digits (ds : Digits) (rest : Bytes) : ∀ c ∈ (ds.text ++ rest).head?, isDigit c = true := by
  intro c hc
  cases hc
  exact isDigit_digitByte ds.first

/-- An optional sign is skipped before digits. -/
theorem skipSign_signText (sign : Option Bool) (ds : Digits) (rest : Bytes) :
    skipSign (signText sign ++ (ds.text ++ rest)) = ds.text ++ rest := by
  cases sign with
  | none => exact skipSign_of_digit (head_digits ds rest)
  | some minus =>
    cases minus with
    | true => rfl
    | false => rfl

/-- The integer part of a number is a nonempty run of digits. -/
theorem intPart_digits (i : IntPart) : ∃ ds : Digits, digitsText i.digits = ds.text := by
  cases i with
  | zero => exact ⟨⟨0, []⟩, rfl⟩
  | positive first rest hfirst => exact ⟨⟨first, rest⟩, rfl⟩

/-- What the exponent's branch leaves of an exponent and what follows it. -/
theorem exponent_text (n : NumberText) (rest : Bytes) (hrest : EndsNumber rest) :
    let s := n.expText ++ rest
    (∀ c ∈ s.head?, isDigit c = false ∧ c ≠ 46) ∧
      ((s.head? = some 101 ∨ s.head? = some 69) ↔ n.exp.isSome) ∧
      (if s.head? = some 101 ∨ s.head? = some 69 then (skipSign s.tail).dropWhile isDigit else s) =
        rest := by
  unfold NumberText.expText
  cases n.exp with
  | none =>
    have hnone : ¬(rest.head? = some 101 ∨ rest.head? = some 69) := by
      rintro (h | h)
      · exact (hrest 101 h).2.2.1 rfl
      · exact (hrest 69 h).2.2.2 rfl
    refine ⟨fun c hc => ⟨(hrest c hc).1, (hrest c hc).2.1⟩, iff_of_false hnone (by simp), ?_⟩
    exact if_neg hnone
  | some e =>
    obtain ⟨upper, sign, ds⟩ := e
    have hhead : ((Exponent.text ⟨upper, sign, ds⟩) ++ rest).head? = some 101 ∨
        ((Exponent.text ⟨upper, sign, ds⟩) ++ rest).head? = some 69 := by
      cases upper with
      | true => exact Or.inr rfl
      | false => exact Or.inl rfl
    refine ⟨?_, iff_of_true hhead rfl, ?_⟩
    · intro c hc
      cases upper with
      | true =>
        cases hc
        exact ⟨rfl, show (69 : UInt8) ≠ 46 by decide⟩
      | false =>
        cases hc
        exact ⟨rfl, show (101 : UInt8) ≠ 46 by decide⟩
    · have htail : ((Exponent.text ⟨upper, sign, ds⟩) ++ rest).tail =
          signText sign ++ (ds.text ++ rest) := by
        simp [Exponent.text]
      simp only
      rw [if_pos hhead, htail, skipSign_signText]
      exact dropWhile_digits_text ds rest fun c hc => (hrest c hc).1

/-- What the fraction's branch leaves of a fraction and what follows it. -/
theorem fraction_text (n : NumberText) (s : Bytes) (hs : ∀ c ∈ s.head?, isDigit c = false ∧ c ≠ 46) :
    (∀ c ∈ (n.fracText ++ s).head?, isDigit c = false) ∧
      ((n.fracText ++ s).head? = some 46 ↔ n.frac.isSome) ∧
      (if (n.fracText ++ s).head? = some 46 then (n.fracText ++ s).tail.dropWhile isDigit
        else n.fracText ++ s) = s := by
  unfold NumberText.fracText
  cases n.frac with
  | none =>
    have hnone : ¬s.head? = some 46 := fun h => (hs 46 h).2 rfl
    exact ⟨fun c hc => (hs c hc).1, iff_of_false hnone (by simp), if_neg hnone⟩
  | some ds =>
    refine ⟨?_, iff_of_true rfl rfl, ?_⟩
    · intro c hc
      cases hc
      rfl
    · rw [List.cons_append, List.head?_cons, if_pos rfl, List.tail_cons]
      exact dropWhile_digits_text ds s fun c hc => (hs c hc).1

variable (strtod : Bytes → Double × ℕ)

/-- A number's text is read whole, and its value is what `strtod` makes of that text. -/
theorem numberToken_text (size : ℕ) (n : NumberText) (rest : Bytes) (hrest : EndsNumber rest) :
    numberToken strtod size (n.text ++ rest) = .ok (.number (strtod n.text).1 n.integral, rest) := by
  obtain ⟨hexpHead, hexp, hexpRest⟩ := exponent_text n rest hrest
  obtain ⟨hfracHead, hfrac, hfracRest⟩ := fraction_text n _ hexpHead
  obtain ⟨ds, hds⟩ := intPart_digits n.int
  have hwhole : skipSign (n.text ++ rest) =
      digitsText n.int.digits ++ (n.fracText ++ (n.expText ++ rest)) := by
    have htext : n.text ++ rest = (if n.minus then [0x2D] else []) ++
        (digitsText n.int.digits ++ (n.fracText ++ (n.expText ++ rest))) := by
      simp [NumberText.text]
    rw [htext, hds]
    cases n.minus with
    | true => rfl
    | false => exact skipSign_of_digit (head_digits ds _)
  have hdrop := (dropWhile_digits n.int.digits _ hfracHead).1
  have htake := (dropWhile_digits n.int.digits _ hfracHead).2
  have hsome : digitsText n.int.digits ≠ [] := by
    rw [hds]
    exact List.cons_ne_nil _ _
  have htoken : (n.text ++ rest).take ((n.text ++ rest).length - rest.length) = n.text := by
    rw [List.length_append, Nat.add_sub_cancel, List.take_left]
  have hintegral : decide (¬(n.fracText ++ (n.expText ++ rest)).head? = some 46 ∧
      ¬((n.expText ++ rest).head? = some 101 ∨ (n.expText ++ rest).head? = some 69)) = n.integral := by
    rw [Bool.eq_iff_iff, decide_eq_true_iff, hfrac, hexp]
    simp [NumberText.integral]
  unfold numberToken
  simp only [hwhole, hdrop, htake, hfracRest, hexpRest, htoken]
  rw [if_pos hsome, hintegral]

/-! ## Values -/

/-- What stands behind a value in a text: a blank, a separator, a bracket, or nothing. -/
def EndsValue (rest : Bytes) : Prop :=
  ∀ c ∈ rest.head?, isBlank c = true ∨ c = 44 ∨ c = 93 ∨ c = 125

/-- What may follow a value may follow a number. -/
theorem EndsValue.endsNumber {rest : Bytes} (h : EndsValue rest) : EndsNumber rest := by
  intro c hc
  rcases h c hc with hblank | rfl | rfl | rfl
  · unfold isBlank at hblank
    simp only [Bool.or_eq_true, beq_iff_eq] at hblank
    rcases hblank with ((rfl | rfl) | rfl) | rfl
    · decide
    · decide
    · decide
    · decide
  · decide
  · decide
  · decide

/-- Blanks may stand between a value and what follows it. -/
theorem endsValue_ws (ws : Ws) {rest : Bytes} (h : EndsValue rest) : EndsValue (wsText ws ++ rest) := by
  cases ws with
  | nil => exact h
  | cons b ws =>
    intro c hc
    cases hc
    exact Or.inl (isBlank_byte b)

/-- A comma or a closing bracket may follow a value. -/
theorem endsValue_cons {c : UInt8} (rest : Bytes) (h : c = 44 ∨ c = 93 ∨ c = 125) :
    EndsValue (c :: rest) := by
  intro c' hc'
  cases hc'
  exact Or.inr h

/-- The first byte of a number. -/
def BeginsNumber (c : UInt8) : Prop := c = 45 ∨ isDigit c = true

/-- A number begins with a minus or a digit and with nothing else. -/
theorem BeginsNumber.ne {c : UInt8} (h : BeginsNumber c) {d : UInt8} (hminus : d ≠ 45)
    (hd : isDigit d = false) : c ≠ d := by
  rintro rfl
  rcases h with rfl | hdigit
  · exact hminus rfl
  · rw [hd] at hdigit
    cases hdigit

/-- A number does not begin with a blank. -/
theorem BeginsNumber.not_blank {c : UInt8} (h : BeginsNumber c) : isBlank c = false := by
  simp [isBlank, h.ne (d := 32) (by decide) rfl, h.ne (d := 9) (by decide) rfl,
    h.ne (d := 10) (by decide) rfl, h.ne (d := 13) (by decide) rfl]

/-- Every number's text begins as a number must. -/
theorem beginsNumber_text (n : NumberText) (rest : Bytes) :
    ∃ c tail, n.text ++ rest = c :: tail ∧ BeginsNumber c := by
  obtain ⟨ds, hds⟩ := intPart_digits n.int
  unfold NumberText.text
  cases n.minus with
  | true => exact ⟨45, _, rfl, Or.inl rfl⟩
  | false =>
    rw [hds]
    exact ⟨digitByte ds.first, _, rfl, Or.inr (isDigit_digitByte _)⟩

/-- A word is not recognised when the first byte already differs. -/
theorem startsWith_of_head_ne {c d : UInt8} (hne : c ≠ d) (rest word : Bytes) :
    startsWith (c :: rest) (d :: word) = false := by
  have hne' : (d == c) = false := beq_eq_false_iff_ne.mpr hne.symm
  simp [startsWith, List.isPrefixOf, hne']

/-- The three words as bytes, so that a value's first byte tells them apart. -/
theorem lit_words :
    lit "true" = [116, 114, 117, 101] ∧ lit "false" = [102, 97, 108, 115, 101] ∧
      lit "null" = [110, 117, 108, 108] := by decide

/-- A byte that begins a number begins nothing else. -/
theorem value_number (size fuel : ℕ) (c : UInt8) (tail : Bytes) (hc : BeginsNumber c) :
    value strtod size (fuel + 1) (c :: tail) = numberToken strtod size (c :: tail) := by
  have hne {d : UInt8} (hminus : d ≠ 45) (hd : isDigit d = false) : c ≠ d := hc.ne hminus hd
  have hsolid : Solid (c :: tail) := by
    intro c' hc'
    cases hc'
    exact hc.not_blank
  obtain ⟨hlitTrue, hlitFalse, hlitNull⟩ := lit_words
  unfold value
  simp only [skipBlanks_of_solid hsolid, List.head?_cons]
  rw [if_neg (hne (by decide) rfl), if_neg (hne (by decide) rfl), if_neg (hne (by decide) rfl),
    hlitTrue, hlitFalse, hlitNull, startsWith_of_head_ne (hne (by decide) rfl),
    startsWith_of_head_ne (hne (by decide) rfl), startsWith_of_head_ne (hne (by decide) rfl)]
  simp only [Bool.false_eq_true, if_false]

/-- Blanks in front of a value do not matter. -/
theorem value_skipBlanks (size fuel : ℕ) (rest : Bytes) :
    value strtod size (fuel + 1) (skipBlanks rest) = value strtod size (fuel + 1) rest := by
  unfold value
  rw [skipBlanks_idem]

/-- Blanks before an array's element are skipped. -/
theorem elements_skipBlanks (size fuel : ℕ) (elems : List Value) (rest : Bytes) :
    elements strtod size (fuel + 2) elems (skipBlanks rest) =
      elements strtod size (fuel + 2) elems rest := by
  unfold elements
  rw [value_skipBlanks]

/-- Blanks before an object's member are skipped. -/
theorem members_skipBlanks (size fuel : ℕ) (entries : List (Bytes × Value)) (rest : Bytes) :
    members strtod size (fuel + 1) entries (skipBlanks rest) =
      members strtod size (fuel + 1) entries rest := by
  unfold members
  rw [skipBlanks_idem]

/-- `value` reads the texts that `j` derives. -/
def ReadsValue (j : Json) : Prop :=
  ∀ size fuel rest (before : Ws), 2 * j.text.length ≤ fuel → EndsValue rest →
    value strtod size fuel (wsText before ++ (j.text ++ rest)) = .ok (j.denote strtod, rest)

def ReadsElements (es : Elements) : Prop :=
  ∀ size fuel rest elems, 2 * es.text.length + 1 ≤ fuel →
    elements strtod size fuel elems (es.text ++ 93 :: rest) =
      .ok (.arr (elems ++ es.denote strtod), rest)

def ReadsMembers (ms : Members) : Prop :=
  ∀ size fuel rest entries, 2 * ms.text.length + 1 ≤ fuel →
    members strtod size fuel entries (ms.text ++ 125 :: rest) =
      .ok (.obj ((ms.denote strtod).foldl (fun table kv => setEntry table kv.1 kv.2) entries), rest)

/-- A value that is at hand without the blanks in front of it. -/
theorem readsValue_of_solid (j : Json) (hpos : 1 ≤ j.text.length)
    (h : ∀ size fuel rest, 2 * j.text.length ≤ fuel + 1 → EndsValue rest →
      Solid (j.text ++ rest) ∧
        value strtod size (fuel + 1) (j.text ++ rest) = .ok (j.denote strtod, rest)) :
    ReadsValue strtod j := by
  intro size fuel rest before hfuel hrest
  obtain ⟨fuel, rfl⟩ : ∃ k, fuel = k + 1 := ⟨fuel - 1, by omega⟩
  obtain ⟨hsolid, hvalue⟩ := h size fuel rest hfuel hrest
  rw [← value_skipBlanks, skipBlanks_wsText, skipBlanks_of_solid hsolid]
  exact hvalue

/-- A text whose first byte is not blank has no blanks to skip. -/
theorem solid_cons {c : UInt8} (hc : isBlank c = false) (rest : Bytes) : Solid (c :: rest) := by
  intro c' hc'
  cases hc'
  exact hc

/-- `null` is read as null. -/
theorem readsValue_null : ReadsValue strtod .null := by
  apply readsValue_of_solid strtod _ (by simp [Json.text])
  intro size fuel rest hfuel hrest
  have hsolid : Solid (Json.null.text ++ rest) := solid_cons rfl _
  refine ⟨hsolid, ?_⟩
  obtain ⟨hlitTrue, hlitFalse, hlitNull⟩ := lit_words
  unfold value
  rw [skipBlanks_of_solid hsolid]
  simp [Json.text, hlitTrue, hlitFalse, hlitNull, startsWith, Json.denote]

/-- `true` and `false` are read as booleans. -/
theorem readsValue_bool (b : Bool) : ReadsValue strtod (.bool b) := by
  obtain ⟨hlitTrue, hlitFalse, -⟩ := lit_words
  cases b with
  | true =>
    apply readsValue_of_solid strtod _ (by simp [Json.text])
    intro size fuel rest hfuel hrest
    have hsolid : Solid ((Json.bool true).text ++ rest) := solid_cons rfl _
    refine ⟨hsolid, ?_⟩
    unfold value
    rw [skipBlanks_of_solid hsolid]
    simp [Json.text, hlitTrue, startsWith, Json.denote]
  | false =>
    apply readsValue_of_solid strtod _ (by simp [Json.text])
    intro size fuel rest hfuel hrest
    have hsolid : Solid ((Json.bool false).text ++ rest) := solid_cons rfl _
    refine ⟨hsolid, ?_⟩
    unfold value
    rw [skipBlanks_of_solid hsolid]
    simp [Json.text, hlitTrue, hlitFalse, startsWith, Json.denote]

/-- A number of the grammar is read as its value. -/
theorem readsValue_number (n : NumberText) : ReadsValue strtod (.number n) := by
  have hpos : 1 ≤ n.text.length := by
    obtain ⟨c, tail, heq, -⟩ := beginsNumber_text n []
    rw [List.append_nil] at heq
    simp [heq]
  apply readsValue_of_solid strtod (.number n) hpos
  intro size fuel rest hfuel hrest
  obtain ⟨c, tail, heq, hc⟩ := beginsNumber_text n rest
  have hread := numberToken_text strtod size n rest hrest.endsNumber
  show Solid (n.text ++ rest) ∧ value strtod size (fuel + 1) (n.text ++ rest) = _
  rw [heq] at hread ⊢
  refine ⟨solid_cons hc.not_blank tail, ?_⟩
  rw [value_number strtod size fuel c tail hc]
  exact hread

/-- A string of the grammar is read as its value. -/
theorem readsValue_string (s : StringText) : ReadsValue strtod (.string s) := by
  apply readsValue_of_solid strtod _ (by simp [Json.text, StringText.text])
  intro size fuel rest hfuel hrest
  have hsolid : Solid ((Json.string s).text ++ rest) := solid_cons rfl _
  refine ⟨hsolid, ?_⟩
  have htoken : stringToken size ((Json.string s).text ++ rest) = .ok (StringText.denote s, rest) :=
    stringToken_text size s rest
  have hhead : ((Json.string s).text ++ rest).head? = some 34 := rfl
  unfold value
  rw [skipBlanks_of_solid hsolid]
  simp only [hhead, htoken]
  rw [if_neg (by decide), if_neg (by decide), if_pos trivial]
  rfl

/-- Brackets with only blanks between them are read as the empty array. -/
theorem readsValue_emptyArray (ws : Ws) : ReadsValue strtod (.emptyArray ws) := by
  apply readsValue_of_solid strtod _ (by simp [Json.text])
  intro size fuel rest hfuel hrest
  have htext : (Json.emptyArray ws).text ++ rest = 91 :: (wsText ws ++ 93 :: rest) := by
    simp [Json.text]
  have hclose : skipBlanks (wsText ws ++ 93 :: rest) = 93 :: rest := by
    rw [skipBlanks_wsText, skipBlanks_of_solid (solid_cons rfl _)]
  rw [htext]
  refine ⟨solid_cons rfl _, ?_⟩
  unfold value
  rw [skipBlanks_of_solid (solid_cons rfl _)]
  simp [hclose, Json.denote]

/-- Braces with only blanks between them are read as the empty object. -/
theorem readsValue_emptyObject (ws : Ws) : ReadsValue strtod (.emptyObject ws) := by
  apply readsValue_of_solid strtod _ (by simp [Json.text])
  intro size fuel rest hfuel hrest
  have htext : (Json.emptyObject ws).text ++ rest = 123 :: (wsText ws ++ 125 :: rest) := by
    simp [Json.text]
  have hclose : skipBlanks (wsText ws ++ 125 :: rest) = 125 :: rest := by
    rw [skipBlanks_wsText, skipBlanks_of_solid (solid_cons rfl _)]
  rw [htext]
  refine ⟨solid_cons rfl _, ?_⟩
  unfold value
  rw [skipBlanks_of_solid (solid_cons rfl _)]
  simp [hclose, Json.denote]

/-! ## Arrays -/

/-- An element before the closing bracket ends the array. -/
theorem elements_last {size fuel : ℕ} {s rest : Bytes} {v : Value} (elems : List Value) (after : Ws)
    (h : value strtod size fuel s = .ok (v, wsText after ++ 93 :: rest)) :
    elements strtod size (fuel + 1) elems s = .ok (.arr (elems ++ [v]), rest) := by
  unfold elements
  simp only [h, skipBlanks_wsText, skipBlanks_of_solid (solid_cons (c := 93) rfl rest), List.head?_cons]
  rw [if_neg (by decide), if_pos trivial, List.tail_cons]

/-- An element before a comma is kept, and reading goes on after the comma. -/
theorem elements_more {size fuel : ℕ} {s more : Bytes} {v : Value} (elems : List Value) (after : Ws)
    (h : value strtod size fuel s = .ok (v, wsText after ++ 44 :: more)) :
    elements strtod size (fuel + 1) elems s = elements strtod size fuel (elems ++ [v]) more := by
  rw [elements]
  simp only [h, skipBlanks_wsText, skipBlanks_of_solid (solid_cons (c := 44) rfl more), List.head?_cons]
  rw [if_pos trivial, List.tail_cons]

/-- The first byte of a value. -/
theorem text_head (j : Json) : ∃ c tail, j.text = c :: tail ∧ isBlank c = false ∧ c ≠ 93 := by
  cases j with
  | null => exact ⟨_, _, rfl, by decide⟩
  | bool b =>
    cases b with
    | true => exact ⟨_, _, rfl, by decide⟩
    | false => exact ⟨_, _, rfl, by decide⟩
  | number n =>
    obtain ⟨c, tail, heq, hc⟩ := beginsNumber_text n []
    rw [List.append_nil] at heq
    exact ⟨c, tail, heq, hc.not_blank, hc.ne (by decide) rfl⟩
  | string s => exact ⟨_, _, rfl, by decide⟩
  | emptyArray ws => exact ⟨_, _, rfl, by decide⟩
  | array elems => exact ⟨_, _, rfl, by decide⟩
  | emptyObject ws => exact ⟨_, _, rfl, by decide⟩
  | object members => exact ⟨_, _, rfl, by decide⟩

/-- An array with elements does not close at once. -/
theorem elements_open (es : Elements) (rest : Bytes) :
    (skipBlanks (es.text ++ rest)).head? ≠ some 93 := by
  have hopen (before : Ws) (v : Json) (more : Bytes) :
      (skipBlanks (wsText before ++ (v.text ++ more))).head? ≠ some 93 := by
    obtain ⟨c, tail, heq, hblank, hc⟩ := text_head v
    rw [skipBlanks_wsText, heq, List.cons_append, skipBlanks_of_solid (solid_cons hblank _),
      List.head?_cons]
    exact fun h => hc (Option.some_inj.mp h)
  cases es with
  | last before v after =>
    rw [Elements.text, List.append_assoc, List.append_assoc]
    exact hopen before v _
  | more before v after es =>
    rw [Elements.text, List.append_assoc, List.append_assoc]
    exact hopen before v _

/-- An array whose elements are read is itself read. -/
theorem readsValue_array (es : Elements) (h : ReadsElements strtod es) :
    ReadsValue strtod (.array es) := by
  apply readsValue_of_solid strtod _ (by simp [Json.text])
  intro size fuel rest hfuel hrest
  have htext : (Json.array es).text ++ rest = 91 :: (es.text ++ 93 :: rest) := by
    simp [Json.text]
  have hlen : (Json.array es).text.length = es.text.length + 2 := by
    simp [Json.text]
  rw [htext]
  refine ⟨solid_cons rfl _, ?_⟩
  obtain ⟨fuel, rfl⟩ : ∃ k, fuel = k + 2 := ⟨fuel - 2, by omega⟩
  have helements := h size (fuel + 2) rest [] (by omega)
  have hopen := elements_open es (93 :: rest)
  rw [← elements_skipBlanks] at helements
  unfold value
  rw [skipBlanks_of_solid (solid_cons rfl _)]
  simp [hopen, helements, Json.denote]

/-- The last element of an array is read when its value is. -/
theorem readsElements_last (before : Ws) (v : Json) (after : Ws) (h : ReadsValue strtod v) :
    ReadsElements strtod (.last before v after) := by
  intro size fuel rest elems hfuel
  rw [Elements.text, List.length_append, List.length_append] at hfuel
  obtain ⟨fuel, rfl⟩ : ∃ k, fuel = k + 1 := ⟨fuel - 1, by omega⟩
  rw [Elements.text, List.append_assoc, List.append_assoc]
  apply elements_last strtod elems after
  apply h size fuel _ before (by omega)
  exact endsValue_ws after (endsValue_cons rest (by decide))

/-- An element and those after it are read when each of them is. -/
theorem readsElements_more (before : Ws) (v : Json) (after : Ws) (es : Elements)
    (h : ReadsValue strtod v) (hes : ReadsElements strtod es) :
    ReadsElements strtod (.more before v after es) := by
  intro size fuel rest elems hfuel
  simp only [Elements.text, List.length_append, List.length_cons] at hfuel
  obtain ⟨fuel, rfl⟩ : ∃ k, fuel = k + 1 := ⟨fuel - 1, by omega⟩
  have htext : (Elements.more before v after es).text ++ 93 :: rest =
      wsText before ++ (v.text ++ (wsText after ++ 44 :: (es.text ++ 93 :: rest))) := by
    simp [Elements.text]
  have hvalue := h size fuel (wsText after ++ 44 :: (es.text ++ 93 :: rest)) before (by omega)
    (endsValue_ws after (endsValue_cons _ (by decide)))
  rw [htext, elements_more strtod elems after hvalue, hes size fuel rest _ (by omega)]
  simp [Elements.denote]

/-! ## Objects -/

/-- A member before the closing brace ends the object. -/
theorem members_last {size fuel : ℕ} {s colon value' rest key : Bytes} {v : Value}
    (entries : List (Bytes × Value)) (after : Ws)
    (hkey : stringToken size (skipBlanks s) = .ok (key, colon)) (hcolon : skipBlanks colon = 58 :: value')
    (h : value strtod size fuel value' = .ok (v, wsText after ++ 125 :: rest)) :
    members strtod size (fuel + 1) entries s = .ok (.obj (setEntry entries key v), rest) := by
  unfold members
  simp only [hkey, hcolon, List.head?_cons, List.tail_cons, h, skipBlanks_wsText,
    skipBlanks_of_solid (solid_cons (c := 125) rfl rest)]
  rw [if_neg (by decide), if_neg (by decide), if_pos trivial]

/-- A member before a comma is entered, and reading goes on after the comma. -/
theorem members_more {size fuel : ℕ} {s colon value' more key : Bytes} {v : Value}
    (entries : List (Bytes × Value)) (after : Ws)
    (hkey : stringToken size (skipBlanks s) = .ok (key, colon)) (hcolon : skipBlanks colon = 58 :: value')
    (h : value strtod size fuel value' = .ok (v, wsText after ++ 44 :: more)) :
    members strtod size (fuel + 1) entries s =
      members strtod size fuel (setEntry entries key v) more := by
  rw [members]
  simp only [hkey, hcolon, List.head?_cons, List.tail_cons, h, skipBlanks_wsText,
    skipBlanks_of_solid (solid_cons (c := 44) rfl more)]
  rw [if_neg (by decide), if_pos trivial]

/-- A member's key is read as the bytes it denotes. -/
theorem stringToken_key (size : ℕ) (before : Ws) (key : StringText) (rest : Bytes) :
    stringToken size (skipBlanks (wsText before ++ (StringText.text key ++ rest))) =
      .ok (StringText.denote key, rest) := by
  have hsolid : Solid (StringText.text key ++ rest) := solid_cons rfl _
  rw [skipBlanks_wsText, skipBlanks_of_solid hsolid, stringToken_text]

/-- An object with members does not close at once. -/
theorem members_open (ms : Members) (rest : Bytes) :
    (skipBlanks (ms.text ++ rest)).head? ≠ some 125 := by
  have hopen (before : Ws) (key : StringText) (more : Bytes) :
      (skipBlanks (wsText before ++ (StringText.text key ++ more))).head? ≠ some 125 := by
    have hsolid : Solid (StringText.text key ++ more) := solid_cons rfl _
    rw [skipBlanks_wsText, skipBlanks_of_solid hsolid]
    exact fun h => absurd (Option.some_inj.mp h) (by decide)
  cases ms with
  | last before key afterKey beforeValue v after =>
    rw [Members.text, List.append_assoc, List.append_assoc]
    exact hopen before key _
  | more before key afterKey beforeValue v after ms =>
    rw [Members.text, List.append_assoc, List.append_assoc]
    exact hopen before key _

/-- An object whose members are read is itself read. -/
theorem readsValue_object (ms : Members) (h : ReadsMembers strtod ms) :
    ReadsValue strtod (.object ms) := by
  apply readsValue_of_solid strtod _ (by simp [Json.text])
  intro size fuel rest hfuel hrest
  have htext : (Json.object ms).text ++ rest = 123 :: (ms.text ++ 125 :: rest) := by
    simp [Json.text]
  have hlen : (Json.object ms).text.length = ms.text.length + 2 := by
    simp [Json.text]
  rw [htext]
  refine ⟨solid_cons rfl _, ?_⟩
  obtain ⟨fuel, rfl⟩ : ∃ k, fuel = k + 1 := ⟨fuel - 1, by omega⟩
  have hmembers := h size (fuel + 1) rest [] (by omega)
  have hopen := members_open ms (125 :: rest)
  rw [← members_skipBlanks] at hmembers
  unfold value
  rw [skipBlanks_of_solid (solid_cons rfl _)]
  simp [hopen, hmembers, Json.denote, objOf]

/-- The last member of an object is read when its value is. -/
theorem readsMembers_last (before : Ws) (key : StringText) (afterKey beforeValue : Ws) (v : Json)
    (after : Ws) (h : ReadsValue strtod v) :
    ReadsMembers strtod (.last before key afterKey beforeValue v after) := by
  intro size fuel rest entries hfuel
  simp only [Members.text, List.length_append, List.length_cons] at hfuel
  obtain ⟨fuel, rfl⟩ : ∃ k, fuel = k + 1 := ⟨fuel - 1, by omega⟩
  have htext : (Members.last before key afterKey beforeValue v after).text ++ 125 :: rest =
      wsText before ++ (StringText.text key ++ (wsText afterKey ++ 58 :: (wsText beforeValue ++
        (v.text ++ (wsText after ++ 125 :: rest))))) := by
    simp [Members.text]
  have hcolon (more : Bytes) : skipBlanks (wsText afterKey ++ 58 :: more) = 58 :: more := by
    rw [skipBlanks_wsText, skipBlanks_of_solid (solid_cons rfl _)]
  have hvalue := h size fuel (wsText after ++ 125 :: rest) beforeValue (by omega)
    (endsValue_ws after (endsValue_cons _ (by decide)))
  rw [htext, members_last strtod entries after (stringToken_key size before key _) (hcolon _) hvalue]
  simp [Members.denote]

/-- A member and those after it are read when each of them is. -/
theorem readsMembers_more (before : Ws) (key : StringText) (afterKey beforeValue : Ws) (v : Json)
    (after : Ws) (ms : Members) (h : ReadsValue strtod v) (hms : ReadsMembers strtod ms) :
    ReadsMembers strtod (.more before key afterKey beforeValue v after ms) := by
  intro size fuel rest entries hfuel
  simp only [Members.text, List.length_append, List.length_cons] at hfuel
  obtain ⟨fuel, rfl⟩ : ∃ k, fuel = k + 1 := ⟨fuel - 1, by omega⟩
  have htext : (Members.more before key afterKey beforeValue v after ms).text ++ 125 :: rest =
      wsText before ++ (StringText.text key ++ (wsText afterKey ++ 58 :: (wsText beforeValue ++
        (v.text ++ (wsText after ++ 44 :: (ms.text ++ 125 :: rest)))))) := by
    simp [Members.text]
  have hcolon (more : Bytes) : skipBlanks (wsText afterKey ++ 58 :: more) = 58 :: more := by
    rw [skipBlanks_wsText, skipBlanks_of_solid (solid_cons rfl _)]
  have hvalue := h size fuel (wsText after ++ 44 :: (ms.text ++ 125 :: rest)) beforeValue (by omega)
    (endsValue_ws after (endsValue_cons _ (by decide)))
  rw [htext, members_more strtod entries after (stringToken_key size before key _) (hcolon _) hvalue,
    hms size fuel rest _ (by omega)]
  simp [Members.denote]

/-! ## Texts -/

mutual

/-- The parser follows the derivation. -/
theorem value_text (j : Json) : ReadsValue strtod j :=
  match j with
  | .null => readsValue_null strtod
  | .bool b => readsValue_bool strtod b
  | .number n => readsValue_number strtod n
  | .string s => readsValue_string strtod s
  | .emptyArray ws => readsValue_emptyArray strtod ws
  | .array es => readsValue_array strtod es (elements_text es)
  | .emptyObject ws => readsValue_emptyObject strtod ws
  | .object ms => readsValue_object strtod ms (members_text ms)

/-- The elements of every array of the grammar are read, by induction on their text. -/
theorem elements_text (es : Elements) : ReadsElements strtod es :=
  match es with
  | .last before v after => readsElements_last strtod before v after (value_text v)
  | .more before v after es =>
    readsElements_more strtod before v after es (value_text v) (elements_text es)

/-- The members of every object of the grammar are read, by induction on their text. -/
theorem members_text (ms : Members) : ReadsMembers strtod ms :=
  match ms with
  | .last before key afterKey beforeValue v after =>
    readsMembers_last strtod before key afterKey beforeValue v after (value_text v)
  | .more before key afterKey beforeValue v after ms =>
    readsMembers_more strtod before key afterKey beforeValue v after ms (value_text v) (members_text ms)

end

/-- A text of blanks is skipped whole. -/
theorem skipBlanks_ws (ws : Ws) : skipBlanks (wsText ws) = [] := by
  have h := skipBlanks_wsText ws []
  rwa [List.append_nil] at h

/-- The fuel that `parse` gives is enough. -/
theorem value_document (d : Document) :
    value strtod d.text.length (2 * d.text.length + 2) d.text =
      .ok (d.value.denote strtod, wsText d.after) := by
  obtain ⟨before, j, after⟩ := d
  have hend : EndsValue (wsText after) := by
    have hnil : EndsValue [] := fun c hc => by cases hc
    have h := endsValue_ws after hnil
    rwa [List.append_nil] at h
  apply value_text strtod j _ _ (wsText after) before ?_ hend
  simp only [Document.text, List.length_append]
  omega

/-- A text that is JSON for a value is parsed as it. -/
theorem parse_of_means {text : Bytes} {v : Value} (h : Means strtod text v) : parse strtod text = (v, []) := by
  obtain ⟨d, rfl, rfl⟩ := h
  unfold parse
  rw [value_document]
  simp only [skipBlanks_ws, if_true]

/-- **The parser accepts JSON.** `parse` reports no error on a text of the grammar and returns
the value that the grammar denotes.
SRC: json.cpp:254-269 -/
theorem parse_text (d : Document) : parse strtod d.text = (d.value.denote strtod, []) :=
  parse_of_means strtod ⟨d, rfl, rfl⟩

end HaikuAgent.Analysis.JsonGrammar
