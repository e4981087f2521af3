import HaikuAgent.Analysis.JsonPrefixes

/-!
# The order of string escapes

A string literal is a sequence of tokens: bytes, short escapes and code units. Its elements are
its tokens, but for a high surrogate and the low one behind it, which are one element. The
parser looks at two code units whenever the first is a high surrogate, and where the second is
no low one it writes them in the wrong order and does not look at what follows the second.
`decodes_iff` says for which literals it still decodes the elements, and the parts of the
literal, in their order.
-/

set_option autoImplicit false

namespace HaikuAgent.Analysis.EscapeOrder

open HaikuAgent.Foundation
open HaikuAgent.Model
open HaikuAgent.Model.Json
open HaikuAgent.Analysis.JsonGrammar (startsWith_of_head_ne startsWith_escape)
open HaikuAgent.Analysis.JsonPrefixes (bind_eq_ok stringBody_rest)

/-! ## Literals -/

/-- Four hexadecimal digits. -/
structure CodeUnit where
  digits : Bytes
  four : digits.length = 4
  hex : ∀ c ∈ digits, (hexDigit c).isSome = true

/-- The number that digits spell, behind those of `n`. -/
def hexValue (n : ℕ) (digits : Bytes) : ℕ := digits.foldl (fun n c => n * 16 + (hexDigit c).getD 0) n

def CodeUnit.value (u : CodeUnit) : ℕ := hexValue 0 u.digits

/-- What stands between the quotes. -/
inductive Token where
  | byte (b : UInt8) (h : b ≠ 34 ∧ b ≠ 92)
  | simple (letter b : UInt8) (h : simpleEscape letter = some b)
  | unit (u : CodeUnit)

def Token.text : Token → Bytes
  | .byte b _ => [b]
  | .simple letter _ _ => [92, letter]
  | .unit u => 92 :: 117 :: u.digits

def Token.meaning : Token → Bytes
  | .byte b _ => [b]
  | .simple _ b _ => [b]
  | .unit u => utf8 u.value

def text (tokens : List Token) : Bytes := tokens.flatMap Token.text

/-- A string literal. -/
def literal (tokens : List Token) : Bytes := 34 :: (text tokens ++ [34])

def High (n : ℕ) : Prop := 0xD800 ≤ n ∧ n ≤ 0xDBFF

def Low (n : ℕ) : Prop := 0xDC00 ≤ n ∧ n ≤ 0xDFFF

instance decidableHigh (n : ℕ) : Decidable (High n) := inferInstanceAs (Decidable (_ ∧ _))

instance decidableLow (n : ℕ) : Decidable (Low n) := inferInstanceAs (Decidable (_ ∧ _))

/-- The code point of a surrogate pair. -/
def codePoint (high low : ℕ) : ℕ := 0x10000 + (high - 0xD800) * 1024 + (low - 0xDC00)

inductive Element where
  | single (t : Token)
  | pair (high low : CodeUnit)

def Element.meaning : Element → Bytes
  | .single t => t.meaning
  | .pair high low => utf8 (codePoint high.value low.value)

/-- The elements of a literal: a high surrogate and the low one behind it are one. -/
def elements : List Token → List Element
  | [] => []
  | .unit u :: .unit l :: after =>
    if High u.value ∧ Low l.value then .pair u l :: elements after
    else .single (.unit u) :: elements (.unit l :: after)
  | t :: rest => .single t :: elements rest

/-- The bytes of a literal, element by element. -/
def denoted (tokens : List Token) : Bytes := (elements tokens).flatMap Element.meaning

/-- What the parser makes of them: behind a high surrogate it takes the next code unit as well.
SRC: json.cpp:144-181 -/
def decoded : List Token → Bytes
  | [] => []
  | .unit u :: .unit l :: after =>
    if High u.value then
      (if Low l.value then utf8 (codePoint u.value l.value) else utf8 l.value ++ utf8 u.value) ++
        decoded after
    else utf8 u.value ++ decoded (.unit l :: after)
  | t :: rest => t.meaning ++ decoded rest

/-- A low surrogate comes first. -/
def BeginsLow : List Token → Prop
  | .unit l :: _ => Low l.value
  | _ => False

/-- Each code unit that the parser takes together with a high surrogate is a low one, or the
same high one again with no low one behind it. -/
def Orderly : List Token → Prop
  | [] => True
  | .unit u :: .unit l :: after =>
    if High u.value then (Low l.value ∨ l.value = u.value ∧ ¬BeginsLow after) ∧ Orderly after
    else Orderly (.unit l :: after)
  | _ :: rest => Orderly rest

/-! ## Code units -/

/-- Hexadecimal digits are read to their end. -/
theorem hexDigits_append (size n : ℕ) (digits rest : Bytes) (hhex : ∀ c ∈ digits, (hexDigit c).isSome = true) :
    hexDigits size digits.length n (digits ++ rest) = .ok (hexValue n digits, rest) := by
  induction digits generalizing n with
  | nil => rfl
  | cons c digits ih =>
    obtain ⟨hc, hdigits⟩ := List.forall_mem_cons.mp hhex
    obtain ⟨d, hd⟩ := Option.isSome_iff_exists.mp hc
    rw [List.length_cons, List.cons_append, hexDigits]
    simp only [hd]
    rw [ih (n * 16 + d) hdigits]
    simp [hexValue, hd]

/-- What is read is the value of that many digits. -/
theorem digits_of_hexDigits (size k n m : ℕ) (s rest : Bytes) (hk : k ≤ s.length)
    (h : hexDigits size k n s = .ok (m, rest)) :
    ∃ digits, s = digits ++ rest ∧ digits.length = k ∧ (∀ c ∈ digits, (hexDigit c).isSome = true) ∧
      m = hexValue n digits := by
  induction k generalizing n s with
  | zero =>
    cases h
    exact ⟨[], rfl, rfl, List.forall_mem_nil _, rfl⟩
  | succ k ih =>
    cases s with
    | nil => simp at hk
    | cons c s =>
      rw [hexDigits] at h
      cases hd : hexDigit c with
      | none => simp [hd, failAt] at h
      | some d =>
        simp only [hd] at h
        obtain ⟨digits, hs, hlength, hhex, hm⟩ := ih _ s (by simpa using hk) h
        refine ⟨c :: digits, by rw [hs, List.cons_append], by rw [List.length_cons, hlength], ?_, ?_⟩
        · exact List.forall_mem_cons.mpr ⟨by rw [hd]; rfl, hhex⟩
        · rw [hm]
          simp [hexValue, hd]

/-- The four digits of a code unit are read as its value. -/
theorem hex4_unit (size : ℕ) (u : CodeUnit) (rest : Bytes) : hex4 size (u.digits ++ rest) = .ok (u.value, rest) := by
  have hlength := u.four
  unfold hex4
  rw [if_neg (by rw [List.length_append]; omega), ← hlength]
  exact hexDigits_append size 0 u.digits rest u.hex

/-- Four digits that are read are those of a code unit. -/
theorem unit_of_hex4 (size m : ℕ) (s rest : Bytes) (h : hex4 size s = .ok (m, rest)) :
    ∃ u : CodeUnit, s = u.digits ++ rest ∧ m = u.value := by
  unfold hex4 at h
  split_ifs at h with hshort
  · cases h
  · obtain ⟨digits, hs, hlength, hhex, hm⟩ := digits_of_hexDigits size 4 0 m s rest (by omega) h
    exact ⟨⟨digits, hlength, hhex⟩, hs, hm⟩

/-- A hexadecimal digit is less than 16. -/
theorem hexDigit_lt {c : UInt8} {d : ℕ} (h : hexDigit c = some d) : d < 16 := by
  unfold hexDigit at h
  simp only [UInt8.le_iff_toNat_le, UInt8.reduceToNat] at h
  split_ifs at h
  all_goals
    cases h
    omega

/-- Digits have a value that fits into them. -/
theorem hexValue_lt (n : ℕ) (digits : Bytes) (hhex : ∀ c ∈ digits, (hexDigit c).isSome = true) :
    hexValue n digits < (n + 1) * 16 ^ digits.length := by
  induction digits generalizing n with
  | nil => simp [hexValue]
  | cons c digits ih =>
    obtain ⟨hc, hdigits⟩ := List.forall_mem_cons.mp hhex
    obtain ⟨d, hd⟩ := Option.isSome_iff_exists.mp hc
    have hlt := hexDigit_lt hd
    have hstep : hexValue n (c :: digits) = hexValue (n * 16 + d) digits := by
      simp [hexValue, hd]
    calc hexValue n (c :: digits)
        = hexValue (n * 16 + d) digits := hstep
      _ < (n * 16 + d + 1) * 16 ^ digits.length := ih _ hdigits
      _ ≤ ((n + 1) * 16) * 16 ^ digits.length := Nat.mul_le_mul_right _ (by omega)
      _ = (n + 1) * 16 ^ (c :: digits).length := by rw [List.length_cons, pow_succ]; ring

/-- A code unit is a number of 16 bits. -/
theorem CodeUnit.value_lt (u : CodeUnit) : u.value < 0x10000 := by
  have h := hexValue_lt 0 u.digits u.hex
  rw [u.four] at h
  exact h

/-! ## The bytes of surrogates -/

/-- A high surrogate is encoded in three bytes, the first of them 237. -/
theorem utf8_high {n : ℕ} (h : High n) :
    utf8 n = [237, UInt8.ofNat (0x80 + n / 64 % 64), UInt8.ofNat (0x80 + n % 64)] := by
  obtain ⟨hlo, hhi⟩ := h
  have hfirst : 0xE0 + n / 4096 = 237 := by omega
  unfold utf8
  rw [if_neg (by omega), if_neg (by omega), if_pos (by omega), hfirst]
  rfl

/-- Numbers below 256 are bytes of their own. -/
theorem ofNat_eq_iff {m n : ℕ} (hm : m < 256) (hn : n < 256) : UInt8.ofNat m = UInt8.ofNat n ↔ m = n := by
  constructor
  · intro h
    have hnat := congrArg UInt8.toNat h
    rw [UInt8.toNat_ofNat', UInt8.toNat_ofNat', Nat.mod_eq_of_lt hm, Nat.mod_eq_of_lt hn] at hnat
    exact hnat
  · intro h
    rw [h]

/-- The bytes of a high surrogate begin the bytes of no other code point. -/
theorem utf8_eq_of_high {n high : ℕ} {x y : Bytes} (hhigh : High high) (hn : n < 0x110000)
    (h : utf8 n ++ x = utf8 high ++ y) : n = high := by
  rw [utf8_high hhigh] at h
  obtain ⟨hlo, hhi⟩ := hhigh
  have hfirst : (237 : UInt8) = UInt8.ofNat 237 := rfl
  unfold utf8 at h
  rw [hfirst] at h
  split_ifs at h with hone htwo hthree
  · have hhead := (List.cons.inj h).1
    rw [ofNat_eq_iff (by omega) (by omega)] at hhead
    omega
  · have hhead := (List.cons.inj h).1
    rw [ofNat_eq_iff (by omega) (by omega)] at hhead
    omega
  · obtain ⟨hhead, htail⟩ := List.cons.inj h
    obtain ⟨hsecond, htail⟩ := List.cons.inj htail
    have hthird := (List.cons.inj htail).1
    rw [ofNat_eq_iff (by omega) (by omega)] at hhead hsecond hthird
    omega
  · have hhead := (List.cons.inj h).1
    rw [ofNat_eq_iff (by omega) (by omega)] at hhead
    omega

/-! ## Decoding in order -/

/-- A pair of surrogates denotes one character. -/
theorem denoted_pair (u l : CodeUnit) (after : List Token) (h : High u.value ∧ Low l.value) :
    denoted (.unit u :: .unit l :: after) = utf8 (codePoint u.value l.value) ++ denoted after := by
  simp [denoted, elements, h, Element.meaning]

/-- A token that begins no pair is an element by itself. -/
theorem denoted_single (t : Token) (rest : List Token)
    (h : ∀ u, t = .unit u → ¬(High u.value ∧ BeginsLow rest)) :
    denoted (t :: rest) = t.meaning ++ denoted rest := by
  unfold denoted
  cases t with
  | byte b hb => simp [elements, Element.meaning]
  | simple letter b hb => simp [elements, Element.meaning]
  | unit u =>
    cases rest with
    | nil => simp [elements, Element.meaning]
    | cons t rest =>
      cases t with
      | byte b hb => simp [elements, Element.meaning]
      | simple letter b hb => simp [elements, Element.meaning]
      | unit l =>
        have hpair : ¬(High u.value ∧ Low l.value) := h u rfl
        rw [elements, if_neg hpair]
        simp [Element.meaning]

/-- What begins with a low surrogate has one in front. -/
theorem exists_of_beginsLow {tokens : List Token} (h : BeginsLow tokens) :
    ∃ l after, tokens = .unit l :: after ∧ Low l.value := by
  unfold BeginsLow at h
  split at h
  · exact ⟨_, _, rfl, h⟩
  · exact absurd h id

/-- The code point of a pair has four bytes. -/
theorem codePoint_range {high low : ℕ} (hhigh : High high) (hlow : Low low) :
    0x10000 ≤ codePoint high low ∧ codePoint high low < 0x110000 := by
  obtain ⟨hlo, hhi⟩ := hhigh
  obtain ⟨hlo', hhi'⟩ := hlow
  unfold codePoint
  omega

/-- What follows a high surrogate that is met alone. -/
theorem denoted_high_iff (high : ℕ) (x : Bytes) (u : CodeUnit) (after : List Token) (hhigh : High high) :
    utf8 u.value ++ utf8 high ++ x = utf8 high ++ denoted (.unit u :: after) ↔
      (u.value = high ∧ ¬BeginsLow after) ∧ x = denoted after := by
  have hunit : u.value < 0x110000 := u.value_lt.trans (by decide)
  constructor
  · intro h
    rw [List.append_assoc] at h
    have hsame : u.value = high := utf8_eq_of_high hhigh hunit h
    rw [hsame] at h
    have hrest := List.append_cancel_left h
    have hbegins : ¬BeginsLow after := by
      intro hbegins
      obtain ⟨m, rest, rfl, hm⟩ := exists_of_beginsLow hbegins
      have hu : High u.value := hsame.symm ▸ hhigh
      obtain ⟨hlarge, hbound⟩ := codePoint_range hu hm
      rw [denoted_pair u m rest ⟨hu, hm⟩] at hrest
      have hcode := utf8_eq_of_high hhigh hbound hrest.symm
      obtain ⟨-, hhi⟩ := hhigh
      omega
    rw [denoted_single (.unit u) after (fun _ _ hpair => hbegins hpair.2), Token.meaning, hsame] at hrest
    exact ⟨⟨hsame, hbegins⟩, List.append_cancel_left hrest⟩
  · rintro ⟨⟨hsame, hbegins⟩, rfl⟩
    rw [denoted_single (.unit u) after (fun _ _ hpair => hbegins hpair.2), Token.meaning, hsame,
      List.append_assoc]

/-- **The code units are decoded in order** exactly when the literal is orderly. -/
theorem decoded_eq_denoted_iff (tokens : List Token) : decoded tokens = denoted tokens ↔ Orderly tokens := by
  induction tokens using decoded.induct with
  | case1 => simp [decoded, denoted, elements, Orderly]
  | case2 u l after hhigh ih =>
    rw [decoded, if_pos hhigh, Orderly, if_pos hhigh, ← ih]
    by_cases hlow : Low l.value
    · rw [if_pos hlow, denoted_pair u l after ⟨hhigh, hlow⟩, List.append_cancel_left_eq]
      simp [hlow]
    · have hsingle : denoted (.unit u :: .unit l :: after) = utf8 u.value ++ denoted (.unit l :: after) := by
        apply denoted_single
        intro _ _ hpair
        exact hlow hpair.2
      rw [if_neg hlow, hsingle, denoted_high_iff u.value _ l after hhigh]
      simp [hlow]
  | case3 u l after hhigh ih =>
    have hsingle : denoted (.unit u :: .unit l :: after) = utf8 u.value ++ denoted (.unit l :: after) := by
      apply denoted_single
      intro u' hu hpair
      cases hu
      exact hhigh hpair.1
    rw [decoded, if_neg hhigh, Orderly, if_neg hhigh, hsingle, List.append_cancel_left_eq]
    exact ih
  | case4 t rest hnot ih =>
    have hsingle : denoted (t :: rest) = t.meaning ++ denoted rest := by
      apply denoted_single
      intro u hu hpair
      obtain ⟨l, after, hrest, -⟩ := exists_of_beginsLow hpair.2
      exact hnot u l after hu hrest
    rw [decoded, Orderly, hsingle, List.append_cancel_left_eq]
    · exact ih
    · exact hnot
    · exact hnot

/-! ## What the parser reads -/

/-- The text of some tokens is the text of the first and then of the others. -/
theorem text_cons (t : Token) (rest : List Token) : text (t :: rest) = t.text ++ text rest := List.flatMap_cons

/-- An escape of a code unit begins with a backslash and a `u`. -/
theorem startsWith_two (a b : UInt8) (s : Bytes) :
    startsWith (a :: b :: s) (lit "\\u") = true ↔ a = 92 ∧ b = 117 := by
  have hlit : lit "\\u" = [92, 117] := by decide
  rw [hlit]
  simp only [startsWith, List.isPrefixOf, Bool.and_true, Bool.and_eq_true, beq_iff_eq]
  exact and_congr eq_comm eq_comm

/-- Only a code unit looks like one. -/
theorem unit_of_startsWith {tokens : List Token} {rest : Bytes}
    (h : startsWith (text tokens ++ 34 :: rest) (lit "\\u") = true) : ∃ l after, tokens = .unit l :: after := by
  cases tokens with
  | nil =>
    have hlit : lit "\\u" = [92, 117] := by decide
    rw [hlit, text, List.flatMap_nil, List.nil_append, startsWith_of_head_ne (by decide)] at h
    cases h
  | cons t tokens =>
    cases t with
    | byte b hb =>
      have hlit : lit "\\u" = [92, 117] := by decide
      rw [hlit, text_cons, Token.text, List.singleton_append, List.cons_append,
        startsWith_of_head_ne hb.2] at h
      cases h
    | simple letter b hb =>
      rw [text_cons, Token.text, List.cons_append, List.cons_append, List.cons_append,
        List.cons_append, startsWith_two] at h
      rw [h.2] at hb
      cases hb
    | unit l => exact ⟨l, tokens, rfl⟩

/-- A high surrogate before another escape: the two are one character, or are written the other way round. -/
theorem unicodeEscape_unit (size : ℕ) (u l : CodeUnit) (s : Bytes) (h : High u.value) :
    unicodeEscape size u.value (92 :: 117 :: (l.digits ++ s)) =
      .ok (if Low l.value then utf8 (codePoint u.value l.value) else utf8 l.value ++ utf8 u.value, s) := by
  unfold unicodeEscape
  rw [if_pos ⟨h.1, h.2, startsWith_escape _⟩, List.drop_succ_cons, List.drop_succ_cons, List.drop_zero,
    hex4_unit]
  simp only [bind, Except.bind]
  by_cases hlow : Low l.value
  · rw [if_pos hlow]
    exact if_pos hlow
  · rw [if_neg hlow]
    exact if_neg hlow

/-- Any other escape is written where it stands. -/
theorem unicodeEscape_single (size cp : ℕ) (s : Bytes)
    (h : ¬(High cp ∧ startsWith s (lit "\\u") = true)) : unicodeEscape size cp s = .ok (utf8 cp, s) := by
  unfold unicodeEscape
  rw [if_neg]
  rintro ⟨hlo, hhi, hstart⟩
  exact h ⟨⟨hlo, hhi⟩, hstart⟩

/-- A plain byte is copied. -/
theorem stringBody_byte (size fuel : ℕ) (out s : Bytes) (b : UInt8) (h : b ≠ 34 ∧ b ≠ 92) :
    stringBody size (fuel + 1) out (b :: s) = stringBody size fuel (out ++ [b]) s := by
  conv_lhs => unfold stringBody
  rw [if_neg h.1, if_pos h.2]

/-- A simple escape is copied as the byte that it stands for. -/
theorem stringBody_simple (size fuel : ℕ) (out s : Bytes) (letter b : UInt8)
    (h : simpleEscape letter = some b) :
    stringBody size (fuel + 1) out (92 :: letter :: s) = stringBody size fuel (out ++ [b]) s := by
  conv_lhs => unfold stringBody
  rw [if_neg (by decide), if_neg (by decide)]
  simp only [h]

/-- An escape of a code unit is copied as its bytes. -/
theorem stringBody_unit (size fuel : ℕ) (u : CodeUnit) (out bytes s rest : Bytes)
    (h : unicodeEscape size u.value s = .ok (bytes, rest)) :
    stringBody size (fuel + 1) out (92 :: 117 :: (u.digits ++ s)) =
      stringBody size fuel (out ++ bytes) rest := by
  have hsimple : simpleEscape 117 = none := by decide
  conv_lhs => unfold stringBody
  rw [if_neg (by decide), if_neg (by decide)]
  simp only [hsimple]
  rw [if_pos trivial, hex4_unit]
  simp only [bind, Except.bind]
  rw [h]

/-- The loop of the parser, token by token. -/
theorem stringBody_text (size fuel : ℕ) (tokens : List Token) (out rest : Bytes)
    (hfuel : (text tokens).length < fuel) :
    stringBody size fuel out (text tokens ++ 34 :: rest) = .ok (out ++ decoded tokens, rest) := by
  induction tokens using decoded.induct generalizing fuel out with
  | case1 =>
    obtain ⟨fuel, rfl⟩ : ∃ k, fuel = k + 1 := ⟨fuel - 1, by omega⟩
    simp [text, decoded, stringBody]
  | case2 u l after hhigh ih =>
    obtain ⟨fuel, rfl⟩ : ∃ k, fuel = k + 1 := ⟨fuel - 1, by omega⟩
    simp only [text_cons, Token.text, List.length_append, List.length_cons] at hfuel
    simp only [text_cons, Token.text, List.cons_append, List.append_assoc]
    rw [stringBody_unit size fuel u out _ _ _ (unicodeEscape_unit size u l _ hhigh),
      ih fuel _ (by omega), decoded, if_pos hhigh, List.append_assoc]
  | case3 u l after hhigh ih =>
    obtain ⟨fuel, rfl⟩ : ∃ k, fuel = k + 1 := ⟨fuel - 1, by omega⟩
    rw [text_cons, Token.text, List.length_append, List.length_cons] at hfuel
    rw [text_cons, Token.text, List.cons_append, List.cons_append, List.cons_append, List.cons_append,
      List.append_assoc, stringBody_unit size fuel u out _ _ _
        (unicodeEscape_single size _ _ (fun hpair => hhigh hpair.1)),
      ih fuel _ (by omega), decoded, if_neg hhigh, List.append_assoc]
  | case4 t tokens hnot ih =>
    obtain ⟨fuel, rfl⟩ : ∃ k, fuel = k + 1 := ⟨fuel - 1, by omega⟩
    have hdecoded : decoded (t :: tokens) = t.meaning ++ decoded tokens := by
      rw [decoded]
      exact hnot
    rw [text_cons, List.length_append] at hfuel
    rw [text_cons, hdecoded]
    cases t with
    | byte b hb =>
      rw [Token.text, List.length_singleton] at hfuel
      rw [Token.text, List.singleton_append, List.cons_append, stringBody_byte size fuel out _ b hb,
        ih fuel _ (by omega), Token.meaning, List.append_assoc]
    | simple letter b hb =>
      rw [Token.text, List.length_cons, List.length_singleton] at hfuel
      rw [Token.text, List.cons_append, List.cons_append, List.cons_append, List.cons_append,
        List.nil_append, stringBody_simple size fuel out _ letter b hb, ih fuel _ (by omega),
        Token.meaning, List.append_assoc]
    | unit u =>
      have halone : ¬(High u.value ∧ startsWith (text tokens ++ 34 :: rest) (lit "\\u") = true) := by
        rintro ⟨-, hstart⟩
        obtain ⟨l, after, hunit⟩ := unit_of_startsWith hstart
        exact hnot u l after rfl hunit
      rw [Token.text, List.length_cons, List.length_cons] at hfuel
      rw [Token.text, List.cons_append, List.cons_append, List.cons_append, List.cons_append,
        List.append_assoc, stringBody_unit size fuel u out _ _ _ (unicodeEscape_single size _ _ halone),
        ih fuel _ (by omega), Token.meaning, List.append_assoc]

/-- The parser reads a literal as its tokens are decoded. -/
theorem stringToken_literal (size : ℕ) (tokens : List Token) (rest : Bytes) :
    stringToken size (literal tokens ++ rest) = .ok (decoded tokens, rest) := by
  have hs : literal tokens ++ rest = 34 :: (text tokens ++ 34 :: rest) := by
    simp [literal]
  unfold stringToken
  rw [hs, List.head?_cons, if_pos rfl, List.tail_cons, stringBody_text, List.nil_append]
  simp only [List.length_cons, List.length_append]
  omega

/-- An escape that is accepted is the text of some tokens. -/
theorem text_of_unicodeEscape {size cp : ℕ} {s bytes rest : Bytes}
    (h : unicodeEscape size cp s = .ok (bytes, rest)) : ∃ tokens, s = text tokens ++ rest := by
  unfold unicodeEscape at h
  split_ifs at h with hpair
  · obtain ⟨⟨lo, after⟩, hhex, h⟩ := bind_eq_ok h
    have hafter : after = rest := by
      dsimp only at h
      split_ifs at h
      all_goals exact (Prod.mk.inj (Except.ok.inj h)).2
    obtain ⟨l, hs, -⟩ := unit_of_hex4 size lo _ after hhex
    have hlit : lit "\\u" = [92, 117] := by decide
    have hprefix := List.isPrefixOf_iff_prefix.mp hpair.2.2
    rw [hlit] at hprefix
    obtain ⟨s, rfl⟩ := hprefix
    refine ⟨[.unit l], ?_⟩
    rw [List.cons_append, List.cons_append, List.drop_succ_cons, List.drop_succ_cons, List.drop_zero,
      List.nil_append] at hs
    rw [hs, hafter]
    simp [text, Token.text]
  · cases h
    exact ⟨[], rfl⟩

/-- The loop of the parser accepts nothing but tokens and a quote. -/
theorem text_of_stringBody {size fuel : ℕ} {out s r rest : Bytes}
    (h : stringBody size fuel out s = .ok (r, rest)) : ∃ tokens, s = text tokens ++ 34 :: rest := by
  induction fuel generalizing out s with
  | zero => cases h
  | succ fuel ih =>
    cases s with
    | nil => cases h
    | cons c s =>
      unfold stringBody at h
      split_ifs at h with hquote hplain
      · cases h
        exact ⟨[], by rw [hquote]; rfl⟩
      · obtain ⟨tokens, htokens⟩ := ih h
        exact ⟨.byte c ⟨hquote, hplain⟩ :: tokens, by rw [htokens]; rfl⟩
      · have hc : c = 92 := not_not.mp hplain
        cases s with
        | nil => cases h
        | cons e s =>
          dsimp only at h
          cases hescape : simpleEscape e with
          | some b =>
            simp only [hescape] at h
            obtain ⟨tokens, htokens⟩ := ih h
            exact ⟨.simple e b hescape :: tokens, by rw [htokens, hc]; rfl⟩
          | none =>
            simp only [hescape] at h
            split_ifs at h with hu
            · obtain ⟨⟨cp, s₁⟩, hhex, h⟩ := bind_eq_ok h
              obtain ⟨⟨bytes, s₂⟩, hunicode, h⟩ := bind_eq_ok h
              obtain ⟨u, hs, -⟩ := unit_of_hex4 size cp s s₁ hhex
              obtain ⟨second, hsecond⟩ := text_of_unicodeEscape hunicode
              obtain ⟨tokens, htokens⟩ := ih h
              refine ⟨.unit u :: (second ++ tokens), ?_⟩
              dsimp only at hsecond htokens
              rw [hs, hsecond, htokens, hc, hu]
              simp [text, Token.text]
            · cases h

/-- A string that is accepted is a literal. -/
theorem literal_of_stringToken {size : ℕ} {s out rest : Bytes} (h : stringToken size s = .ok (out, rest)) :
    ∃ tokens, s = literal tokens ++ rest := by
  unfold stringToken at h
  split_ifs at h with hquote
  · obtain ⟨tokens, htokens⟩ := text_of_stringBody h
    refine ⟨tokens, ?_⟩
    cases s with
    | nil => cases hquote
    | cons c s =>
      cases hquote
      rw [List.tail_cons] at htokens
      rw [htokens, literal, List.cons_append, List.append_assoc, List.singleton_append]
  · cases h

/-! ## The parts of a literal -/

/-- Wherever a high surrogate has a code unit behind it, this is a low one, or the same high
one again with no low one behind it. -/
def Paired (tokens : List Token) : Prop :=
  ∀ front (u l : CodeUnit) after, tokens = front ++ .unit u :: .unit l :: after → High u.value →
    Low l.value ∨ l.value = u.value ∧ ¬BeginsLow after

/-- `out` has the elements of a literal in their order, and what the parser makes of the two
parts of the literal wherever it is split between elements. -/
def InOrder (tokens : List Token) (out : Bytes) : Prop :=
  out = denoted tokens ∧
    ∀ front back, tokens = front ++ back → elements tokens = elements front ++ elements back →
      ∃ before behind, stringToken (literal front).length (literal front) = .ok (before, []) ∧
        stringToken (literal back).length (literal back) = .ok (behind, []) ∧ out = before ++ behind

/-- A code point takes a byte at least. -/
theorem utf8_length_pos (n : ℕ) : 1 ≤ (utf8 n).length := by
  unfold utf8
  split_ifs <;> simp

/-- A code point takes four bytes at most. -/
theorem utf8_length_le (n : ℕ) : (utf8 n).length ≤ 4 := by
  unfold utf8
  split_ifs <;> simp

/-- A high surrogate is no low one. -/
theorem not_low_of_high {n : ℕ} (h : High n) : ¬Low n := by
  rintro ⟨hlo, -⟩
  obtain ⟨-, hhi⟩ := h
  omega

/-- A low surrogate is no high one. -/
theorem not_high_of_low {n : ℕ} (h : Low n) : ¬High n := fun hhigh => not_low_of_high hhigh h

/-- Tokens are grouped apart where no pair is cut. -/
theorem elements_append (front back : List Token) (h : ¬BeginsLow back) :
    elements (front ++ back) = elements front ++ elements back := by
  induction front using elements.induct with
  | case1 => rfl
  | case2 u l after hpair ih =>
    rw [List.cons_append, List.cons_append, elements, if_pos hpair, elements, if_pos hpair, ih,
      List.cons_append]
  | case3 u l after hpair ih =>
    rw [List.cons_append] at ih
    rw [List.cons_append, List.cons_append, elements, if_neg hpair, elements, if_neg hpair, ih,
      List.cons_append]
  | case4 t tokens hnot ih =>
    have hfront : elements (t :: tokens) = .single t :: elements tokens := by
      rw [elements]
      exact hnot
    rw [hfront, List.cons_append, List.cons_append, ← ih]
    cases tokens with
    | nil =>
      rw [List.nil_append]
      cases t with
      | byte b hb => simp [elements]
      | simple letter b hb => simp [elements]
      | unit u =>
        cases back with
        | nil => simp [elements]
        | cons t back =>
          cases t with
          | byte b hb => simp [elements]
          | simple letter b hb => simp [elements]
          | unit l => rw [elements, if_neg (fun hpair => h hpair.2)]
    | cons t' tokens =>
      rw [List.cons_append, elements]
      rintro u l after ht htail
      cases htail
      exact hnot u l tokens ht rfl

/-- Where they are grouped apart they denote apart. -/
theorem denoted_append {front back : List Token} (h : elements (front ++ back) = elements front ++ elements back) :
    denoted (front ++ back) = denoted front ++ denoted back := by
  unfold denoted
  rw [h, List.flatMap_append]

/-- A token adds at most its own bytes. -/
theorem denoted_cons_length_le (t : Token) (rest : List Token) :
    (denoted (t :: rest)).length ≤ t.meaning.length + (denoted rest).length := by
  by_cases hpair : ∃ u, t = .unit u ∧ High u.value ∧ BeginsLow rest
  · obtain ⟨u, rfl, hhigh, hbegins⟩ := hpair
    obtain ⟨l, after, rfl, hlow⟩ := exists_of_beginsLow hbegins
    have hsingle : denoted (.unit l :: after) = utf8 l.value ++ denoted after := by
      apply denoted_single
      intro l' hl hpair
      cases hl
      exact not_high_of_low hlow hpair.1
    rw [denoted_pair u l after ⟨hhigh, hlow⟩, hsingle, Token.meaning, utf8_high hhigh]
    simp only [List.length_append, List.length_cons, List.length_nil]
    have hfour := utf8_length_le (codePoint u.value l.value)
    have hone := utf8_length_pos l.value
    omega
  · rw [denoted_single t rest (fun u hu h => hpair ⟨u, hu, h⟩), List.length_append]

/-- What the parser decodes is never shorter. -/
theorem denoted_length_le (tokens : List Token) : (denoted tokens).length ≤ (decoded tokens).length := by
  induction tokens using decoded.induct with
  | case1 => simp [decoded, denoted, elements]
  | case2 u l after hhigh ih =>
    rw [decoded, if_pos hhigh, List.length_append]
    by_cases hlow : Low l.value
    · rw [if_pos hlow, denoted_pair u l after ⟨hhigh, hlow⟩, List.length_append]
      omega
    · have hfirst := denoted_cons_length_le (.unit u) (.unit l :: after)
      have hsecond := denoted_cons_length_le (.unit l) after
      rw [if_neg hlow, List.length_append]
      simp only [Token.meaning] at hfirst hsecond
      omega
  | case3 u l after hhigh ih =>
    have hfirst := denoted_cons_length_le (.unit u) (.unit l :: after)
    rw [decoded, if_neg hhigh, List.length_append]
    simp only [Token.meaning] at hfirst
    omega
  | case4 t tokens hnot ih =>
    have hfirst := denoted_cons_length_le t tokens
    rw [decoded, List.length_append]
    · omega
    · exact hnot

/-- Where every surrogate is one of a pair, all is in order. -/
theorem Paired.orderly {tokens : List Token} (h : Paired tokens) : Orderly tokens := by
  induction tokens using decoded.induct with
  | case1 => simp [Orderly]
  | case2 u l after hhigh ih =>
    rw [Orderly, if_pos hhigh]
    refine ⟨h [] u l after rfl hhigh, ih ?_⟩
    intro front u' l' after' hafter
    exact h (.unit u :: .unit l :: front) u' l' after' (by rw [hafter]; rfl)
  | case3 u l after hhigh ih =>
    rw [Orderly, if_neg hhigh]
    apply ih
    intro front u' l' after' hafter
    exact h (.unit u :: front) u' l' after' (by rw [hafter]; rfl)
  | case4 t tokens hnot ih =>
    rw [Orderly]
    · apply ih
      intro front u' l' after' hafter
      exact h (t :: front) u' l' after' (by rw [hafter]; rfl)
    · exact hnot

/-- What begins with a low surrogate begins with it whatever follows. -/
theorem beginsLow_append {tokens : List Token} (more : List Token) (h : BeginsLow tokens) :
    BeginsLow (tokens ++ more) := by
  obtain ⟨l, after, rfl, hlow⟩ := exists_of_beginsLow h
  exact hlow

/-- A first part of paired tokens is paired. -/
theorem Paired.left {front back : List Token} (h : Paired (front ++ back)) : Paired front := by
  intro before u l after hfront hhigh
  have hwhole : front ++ back = before ++ .unit u :: .unit l :: (after ++ back) := by
    rw [hfront, List.append_assoc, List.cons_append, List.cons_append]
  obtain hlow | ⟨hsame, hbegins⟩ := h before u l (after ++ back) hwhole hhigh
  · exact .inl hlow
  · exact .inr ⟨hsame, fun hafter => hbegins (beginsLow_append back hafter)⟩

/-- A last part of paired tokens is paired. -/
theorem Paired.right {front back : List Token} (h : Paired (front ++ back)) : Paired back := by
  intro before u l after hback hhigh
  have hwhole : front ++ back = (front ++ before) ++ .unit u :: .unit l :: after := by
    rw [hback, List.append_assoc]
  exact h (front ++ before) u l after hwhole hhigh

/-- The parser reads a literal to its end. -/
theorem stringToken_whole (tokens : List Token) :
    stringToken (literal tokens).length (literal tokens) = .ok (decoded tokens, []) := by
  have h := stringToken_literal (literal tokens).length tokens []
  rw [List.append_nil] at h
  exact h

/-- Of two parts that decode together as they should, each does. -/
theorem decoded_right_of_append {front back : List Token}
    (h : decoded front ++ decoded back = denoted front ++ denoted back) : decoded back = denoted back := by
  have hlengths := congrArg List.length h
  rw [List.length_append, List.length_append] at hlengths
  have hfront := denoted_length_le front
  have hback := denoted_length_le back
  exact List.append_inj_right h (by omega)

/-- The characters come in order exactly where every surrogate is one of a pair. -/
theorem inOrder_iff (tokens : List Token) : InOrder tokens (decoded tokens) ↔ Paired tokens := by
  constructor
  · rintro ⟨hwhole, hsplit⟩ front u l after rfl hhigh
    have hbegins : ¬BeginsLow (.unit u :: .unit l :: after) := not_low_of_high hhigh
    have helements := elements_append front _ hbegins
    obtain ⟨before, behind, hbefore, hbehind, hparts⟩ := hsplit front _ rfl helements
    rw [stringToken_whole] at hbefore hbehind
    cases hbefore
    cases hbehind
    rw [hwhole, denoted_append helements] at hparts
    have horderly := (decoded_eq_denoted_iff _).mp (decoded_right_of_append hparts.symm)
    rw [Orderly, if_pos hhigh] at horderly
    exact horderly.1
  · intro hpaired
    have hdecoded {part : List Token} (hpart : Paired part) : decoded part = denoted part :=
      (decoded_eq_denoted_iff part).mpr hpart.orderly
    refine ⟨hdecoded hpaired, ?_⟩
    rintro front back rfl helements
    refine ⟨_, _, stringToken_whole front, stringToken_whole back, ?_⟩
    rw [hdecoded hpaired, hdecoded hpaired.left, hdecoded hpaired.right, denoted_append helements]

/-- **Escapes decode in source order** in a literal that the parser accepts exactly when every
high surrogate with a code unit behind it is followed by a low one, or by itself with no low
one behind it. -/
theorem decodes_iff (size : ℕ) (s out rest : Bytes) (h : stringToken size s = .ok (out, rest)) :
    (∃ tokens, s = literal tokens ++ rest) ∧
      ∀ tokens, s = literal tokens ++ rest → (InOrder tokens out ↔ Paired tokens) := by
  refine ⟨literal_of_stringToken h, ?_⟩
  rintro tokens rfl
  rw [stringToken_literal] at h
  cases h
  exact inOrder_iff tokens

def unitD83D : CodeUnit := ⟨[100, 56, 51, 100], rfl, by simp [hexDigit]⟩

def unitDE00 : CodeUnit := ⟨[100, 101, 48, 48], rfl, by simp [hexDigit]⟩

def unit0041 : CodeUnit := ⟨[48, 48, 52, 49], rfl, by simp [hexDigit]⟩

/-- A pair of surrogates is decoded as one character. -/
theorem decodes_pair :
    stringToken 14 (literal [.unit unitD83D, .unit unitDE00]) = .ok ([240, 159, 152, 128], []) ∧
      (InOrder [.unit unitD83D, .unit unitDE00] [240, 159, 152, 128] ↔
        Paired [.unit unitD83D, .unit unitDE00]) := by
  have hread : stringToken 14 (literal [.unit unitD83D, .unit unitDE00]) = .ok ([240, 159, 152, 128], []) := by
    decide +kernel
  have hliteral : literal [.unit unitD83D, .unit unitDE00] = literal [.unit unitD83D, .unit unitDE00] ++ [] :=
    (List.append_nil _).symm
  exact ⟨hread, (decodes_iff 14 _ _ [] hread).2 _ hliteral⟩

/-- A letter behind a lone high surrogate is decoded in front of it, and behind two of them a
low one is not combined with the second. -/
theorem escapes_reordered :
    (stringToken 14 (literal [.unit unitD83D, .unit unit0041]) = .ok ([65, 237, 160, 189], []) ∧
      denoted [.unit unitD83D, .unit unit0041] = [237, 160, 189, 65] ∧
      ¬InOrder [.unit unitD83D, .unit unit0041] [65, 237, 160, 189]) ∧
    stringToken 20 (literal [.unit unitD83D, .unit unitD83D, .unit unitDE00]) =
        .ok ([237, 160, 189, 237, 160, 189, 237, 184, 128], []) ∧
      denoted [.unit unitD83D, .unit unitD83D, .unit unitDE00] = [237, 160, 189, 240, 159, 152, 128] := by
  have hdenoted : denoted [.unit unitD83D, .unit unit0041] = [237, 160, 189, 65] := by decide
  refine ⟨⟨by decide, hdenoted, ?_⟩, by decide, by decide⟩
  intro h
  have hout := h.1
  rw [hdenoted] at hout
  exact absurd hout (by decide)

end HaikuAgent.Analysis.EscapeOrder
