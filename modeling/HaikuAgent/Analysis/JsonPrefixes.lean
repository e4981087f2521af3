import HaikuAgent.Analysis.JsonGrammar

/-!
# Prefixes of JSON texts

What the parser reads of a string, an array or an object does not depend on what follows it:
each function that succeeded returns the same, with the longer rest, when bytes are appended
(`extends_all`). For a number this holds where it did not end with the text. So a text that
begins with a bracket or a quote has no accepted extension but by blanks (`parse_prefix`).
-/

set_option autoImplicit false

namespace HaikuAgent.Analysis.JsonPrefixes

open HaikuAgent.Foundation
open HaikuAgent.Model
open HaikuAgent.Model.Json
open HaikuAgent.Analysis.JsonGrammar

/-! ## Scans that stopped before the end -/

/-- Text added at the end is untouched by dropping a prefix that ends before it. -/
theorem dropWhile_append {p : UInt8 → Bool} {s : Bytes} (more : Bytes) (h : s.dropWhile p ≠ []) :
    (s ++ more).dropWhile p = s.dropWhile p ++ more := by
  rw [List.dropWhile_append, if_neg (by simpa using h)]

/-- Blanks are skipped alike in a longer text, as long as something followed them. -/
theorem skipBlanks_append {s : Bytes} (more : Bytes) (h : skipBlanks s ≠ []) :
    skipBlanks (s ++ more) = skipBlanks s ++ more := dropWhile_append more h

/-- The first byte of a text does not change when the text grows. -/
theorem head?_append {s : Bytes} (more : Bytes) (h : s ≠ []) : (s ++ more).head? = s.head? := by
  cases s with
  | nil => exact absurd rfl h
  | cons c s => rfl

/-- A sign is skipped alike in a longer text. -/
theorem skipSign_append {s : Bytes} (more : Bytes) (h : s ≠ []) :
    skipSign (s ++ more) = skipSign s ++ more := by
  unfold skipSign
  rw [head?_append more h, List.tail_append_of_ne_nil h]
  split_ifs <;> rfl

/-- A computation in two steps that succeeded. -/
theorem bind_eq_ok {α β : Type} {x : Except Bytes α} {f : α → Except Bytes β} {r : β}
    (h : x >>= f = .ok r) : ∃ a, x = .ok a ∧ f a = .ok r := by
  cases x with
  | error err => cases h
  | ok a => exact ⟨a, rfl, h⟩

/-! ## Strings -/

/-- Hex digits that were read are read alike in a longer text. -/
theorem hexDigits_append (size size' k n m : ℕ) (s rest more : Bytes) (hk : k ≤ s.length)
    (h : hexDigits size k n s = .ok (m, rest)) :
    hexDigits size' k n (s ++ more) = .ok (m, rest ++ more) := by
  induction k generalizing n s with
  | zero =>
    cases h
    rfl
  | succ k ih =>
    cases s with
    | nil => simp at hk
    | cons c s =>
      rw [hexDigits] at h
      rw [List.cons_append, hexDigits]
      cases hdigit : hexDigit c with
      | none => simp [hdigit, failAt] at h
      | some d =>
        simp only [hdigit] at h ⊢
        exact ih _ s (by simpa using hk) h

/-- A four-digit escape that was read is read alike in a longer text. -/
theorem hex4_append (size size' m : ℕ) (s rest more : Bytes) (h : hex4 size s = .ok (m, rest)) :
    hex4 size' (s ++ more) = .ok (m, rest ++ more) := by
  unfold hex4 at h ⊢
  by_cases hshort : s.length < 4
  · simp [hshort, failAt] at h
  · rw [if_neg hshort] at h
    rw [if_neg (by rw [List.length_append]; omega)]
    exact hexDigits_append size size' 4 0 m s rest more (by omega) h

/-- Whether a second escape follows is known once there are two bytes, or a byte that is no
backslash. -/
theorem startsWith_escape_append {s : Bytes} (more : Bytes) (hnil : s ≠ []) (hslash : s ≠ [92]) :
    startsWith (s ++ more) (lit "\\u") = startsWith s (lit "\\u") := by
  have hlit : lit "\\u" = [92, 117] := by decide
  rw [hlit]
  match s with
  | [] => exact absurd rfl hnil
  | [c] =>
    have hc : c ≠ 92 := fun hc => hslash (by rw [hc])
    rw [List.singleton_append, startsWith_of_head_ne hc, startsWith_of_head_ne hc]
  | c :: d :: s => simp [startsWith, List.isPrefixOf]

/-- An escape is read alike in a longer text unless the shorter one ended where a second escape
could begin. -/
theorem unicodeEscape_append (size size' cp : ℕ) (s rest out more : Bytes)
    (h : unicodeEscape size cp s = .ok (out, rest)) (hnil : rest ≠ []) (hslash : rest ≠ [92]) :
    unicodeEscape size' cp (s ++ more) = .ok (out, rest ++ more) := by
  unfold unicodeEscape at h ⊢
  by_cases hpair : 0xD800 ≤ cp ∧ cp ≤ 0xDBFF ∧ startsWith s (lit "\\u") = true
  · have hpair' : startsWith (s ++ more) (lit "\\u") = true := by
      unfold startsWith at hpair ⊢
      rw [List.isPrefixOf_iff_prefix] at hpair ⊢
      exact hpair.2.2.trans (List.prefix_append _ _)
    have hlength : 2 ≤ s.length := by
      have hpre := List.isPrefixOf_iff_prefix.mp hpair.2.2
      exact hpre.length_le
    rw [if_pos hpair] at h
    rw [if_pos ⟨hpair.1, hpair.2.1, hpair'⟩, List.drop_append_of_le_length hlength]
    obtain ⟨⟨lo, after⟩, hhex, h⟩ := bind_eq_ok h
    rw [hex4_append size size' lo _ after more hhex]
    simp only [bind, Except.bind] at h ⊢
    split_ifs at h ⊢
    all_goals
      obtain ⟨rfl, rfl⟩ := Prod.mk.inj (Except.ok.inj h)
      rfl
  · rw [if_neg hpair] at h
    obtain ⟨rfl, rfl⟩ := Prod.mk.inj (Except.ok.inj h)
    rw [if_neg]
    rintro ⟨hlo, hhi, hstart⟩
    rw [startsWith_escape_append more hnil hslash] at hstart
    exact hpair ⟨hlo, hhi, hstart⟩

/-- A string does not end with a backslash. -/
theorem stringBody_rest {size fuel : ℕ} {out s r rest : Bytes} (h : stringBody size fuel out s = .ok (r, rest)) :
    s ≠ [] ∧ s ≠ [92] := by
  cases fuel with
  | zero => cases h
  | succ fuel =>
    constructor
    · rintro rfl
      cases h
    · rintro rfl
      cases h

/-- A string's body that was closed is read alike in a longer text. -/
theorem stringBody_append (size size' fuel fuel' : ℕ) (hfuel : fuel ≤ fuel') (out s r rest more : Bytes)
    (h : stringBody size fuel out s = .ok (r, rest)) :
    stringBody size' fuel' out (s ++ more) = .ok (r, rest ++ more) := by
  induction fuel generalizing fuel' out s with
  | zero => cases h
  | succ fuel ih =>
    obtain ⟨fuel', rfl⟩ : ∃ k, fuel' = k + 1 := ⟨fuel' - 1, by omega⟩
    have hle : fuel ≤ fuel' := by omega
    cases s with
    | nil => cases h
    | cons c s =>
      rw [List.cons_append]
      unfold stringBody at h ⊢
      split_ifs at h ⊢ with hquote hplain
      · cases h
        rfl
      · exact ih fuel' hle _ s h
      · cases s with
        | nil => cases h
        | cons e s =>
          rw [List.cons_append]
          dsimp only at h ⊢
          cases hescape : simpleEscape e with
          | some b =>
            simp only [hescape] at h ⊢
            exact ih fuel' hle _ s h
          | none =>
            simp only [hescape] at h ⊢
            split_ifs at h ⊢ with hu
            · obtain ⟨⟨cp, s₁⟩, hhex, h⟩ := bind_eq_ok h
              obtain ⟨⟨bytes, s₂⟩, hunicode, h⟩ := bind_eq_ok h
              obtain ⟨hnil, hslash⟩ := stringBody_rest h
              rw [hex4_append size size' cp _ s₁ more hhex]
              simp only [bind, Except.bind]
              rw [unicodeEscape_append size size' cp s₁ s₂ bytes more hunicode hnil hslash]
              exact ih fuel' hle _ s₂ h
            · cases h

/-- A string that was read is read alike in a longer text. -/
theorem stringToken_append (size size' : ℕ) (s r rest more : Bytes) (h : stringToken size s = .ok (r, rest)) :
    stringToken size' (s ++ more) = .ok (r, rest ++ more) := by
  unfold stringToken at h ⊢
  by_cases hquote : s.head? = some 34
  · have hnil : s ≠ [] := by
      rintro rfl
      cases hquote
    rw [if_pos hquote] at h
    rw [if_pos (by rw [head?_append more hnil, hquote]), List.tail_append_of_ne_nil hnil]
    exact stringBody_append size size' _ _ (by simp) _ _ r rest more h
  · rw [if_neg hquote] at h
    cases h

/-! ## Numbers -/

/-- Past the fraction, if there is one. -/
def pastFraction (s : Bytes) : Bytes := if s.head? = some 46 then s.tail.dropWhile isDigit else s

/-- Past the exponent, if there is one. -/
def pastExponent (s : Bytes) : Bytes :=
  if s.head? = some 101 ∨ s.head? = some 69 then (skipSign s.tail).dropWhile isDigit else s

/-- What `numberToken` leaves. -/
def pastNumber (s : Bytes) : Bytes := pastExponent (pastFraction ((skipSign s).dropWhile isDigit))

/-- Reading a number, in terms of the text that is left after its three parts. -/
theorem numberToken_eq (strtod : Bytes → Double × ℕ) (size : ℕ) (s : Bytes) :
    numberToken strtod size s =
      let digits := (skipSign s).dropWhile isDigit
      if (skipSign s).takeWhile isDigit ≠ [] then
        .ok (.number (strtod (s.take (s.length - (pastNumber s).length))).1
          (¬digits.head? = some 46 ∧
            ¬((pastFraction digits).head? = some 101 ∨ (pastFraction digits).head? = some 69)), pastNumber s)
      else failAt size "invalid value" (pastNumber s) := rfl

/-- The fraction ends at the same byte in a longer text. -/
theorem pastFraction_append {s : Bytes} (more : Bytes) (h : pastFraction s ≠ []) :
    s ≠ [] ∧ pastFraction (s ++ more) = pastFraction s ++ more := by
  have hnil : s ≠ [] := by
    rintro rfl
    exact h rfl
  refine ⟨hnil, ?_⟩
  unfold pastFraction at h ⊢
  rw [head?_append more hnil, List.tail_append_of_ne_nil hnil]
  split_ifs at h ⊢
  · exact dropWhile_append more h
  · rfl

/-- The exponent ends at the same byte in a longer text. -/
theorem pastExponent_append {s : Bytes} (more : Bytes) (h : pastExponent s ≠ []) :
    s ≠ [] ∧ pastExponent (s ++ more) = pastExponent s ++ more := by
  have hnil : s ≠ [] := by
    rintro rfl
    exact h rfl
  refine ⟨hnil, ?_⟩
  unfold pastExponent at h ⊢
  rw [head?_append more hnil, List.tail_append_of_ne_nil hnil]
  split_ifs at h ⊢
  · have htail : s.tail ≠ [] := by
      intro htail
      rw [htail] at h
      exact h rfl
    rw [skipSign_append more htail]
    exact dropWhile_append more h
  · rfl

/-- The parts of a number that is not at the end of the text stay what they are. -/
theorem pastNumber_append {s : Bytes} (more : Bytes) (h : pastNumber s ≠ []) :
    pastNumber (s ++ more) = pastNumber s ++ more ∧ skipSign (s ++ more) = skipSign s ++ more ∧
      (skipSign s).dropWhile isDigit ≠ [] ∧ pastFraction ((skipSign s).dropWhile isDigit) ≠ [] := by
  unfold pastNumber at h ⊢
  obtain ⟨hfraction, hexponent⟩ := pastExponent_append more h
  obtain ⟨hdigits, hpast⟩ := pastFraction_append more hfraction
  have hnil : s ≠ [] := by
    rintro rfl
    exact hdigits rfl
  refine ⟨?_, skipSign_append more hnil, hdigits, hfraction⟩
  rw [skipSign_append more hnil, dropWhile_append more hdigits, hpast, hexponent]

/-- The bytes taken are the same in a longer text. -/
theorem takeWhile_append {p : UInt8 → Bool} {s : Bytes} (more : Bytes) (h : s.dropWhile p ≠ []) :
    (s ++ more).takeWhile p = s.takeWhile p := by
  rw [List.takeWhile_append, if_neg]
  intro hlength
  have hsplit := congrArg List.length (List.takeWhile_append_dropWhile (p := p) (l := s))
  rw [List.length_append, hlength] at hsplit
  exact h (List.length_eq_zero_iff.mp (by omega))

/-- A number that ended before the text did is read alike in a longer text. -/
theorem numberToken_append (strtod : Bytes → Double × ℕ) (size size' : ℕ) (s rest more : Bytes) (v : Value)
    (h : numberToken strtod size s = .ok (v, rest)) (hrest : rest ≠ []) :
    numberToken strtod size' (s ++ more) = .ok (v, rest ++ more) := by
  rw [numberToken_eq] at h ⊢
  dsimp only at h ⊢
  have hdigits : (skipSign s).takeWhile isDigit ≠ [] := by
    intro hnone
    rw [if_neg (not_not.mpr hnone)] at h
    cases h
  rw [if_pos hdigits] at h
  obtain ⟨rfl, rfl⟩ := Prod.mk.inj (Except.ok.inj h)
  obtain ⟨hnumber, hsign, hwhole, hfraction⟩ := pastNumber_append more hrest
  have htext : (s ++ more).take ((s ++ more).length - (pastNumber s ++ more).length) =
      s.take (s.length - (pastNumber s).length) := by
    rw [List.length_append, List.length_append, Nat.add_sub_add_right,
      List.take_append_of_le_length (Nat.sub_le _ _)]
  have hpoint := (pastFraction_append more hfraction).2
  rw [hnumber, htext, hsign, takeWhile_append more hwhole, if_pos hdigits, dropWhile_append more hwhole,
    head?_append more hwhole, hpoint, head?_append more hfraction]

/-! ## Values -/

section Value

variable (strtod : Bytes → Double × ℕ)

/-- The text begins with a bracket or a quote. -/
def Bracketed (s : Bytes) : Prop :=
  (skipBlanks s).head? = some 123 ∨ (skipBlanks s).head? = some 91 ∨ (skipBlanks s).head? = some 34

/-- `value` reads the same when bytes are appended, a number at the end of the text apart. -/
def ValueExtends (fuel : ℕ) : Prop :=
  ∀ (size size' fuel' : ℕ) (s rest more : Bytes) (v : Value), fuel ≤ fuel' →
    value strtod size fuel s = .ok (v, rest) → rest ≠ [] ∨ Bracketed s →
    value strtod size' fuel' (s ++ more) = .ok (v, rest ++ more)

def MembersExtend (fuel : ℕ) : Prop :=
  ∀ (size size' fuel' : ℕ) (entries : List (Bytes × Value)) (s rest more : Bytes) (v : Value), fuel ≤ fuel' →
    members strtod size fuel entries s = .ok (v, rest) →
    members strtod size' fuel' entries (s ++ more) = .ok (v, rest ++ more)

def ElementsExtend (fuel : ℕ) : Prop :=
  ∀ (size size' fuel' : ℕ) (elems : List Value) (s rest more : Bytes) (v : Value), fuel ≤ fuel' →
    elements strtod size fuel elems s = .ok (v, rest) →
    elements strtod size' fuel' elems (s ++ more) = .ok (v, rest ++ more)

/-- A value is only read where something follows the blanks. -/
theorem value_ne_nil {size fuel : ℕ} {s : Bytes} {r : Value × Bytes}
    (h : value strtod size fuel s = .ok r) : skipBlanks s ≠ [] := by
  intro hnil
  cases fuel with
  | zero => cases h
  | succ fuel =>
    unfold value at h
    rw [hnil] at h
    cases h

/-- A member is only read where something follows the blanks. -/
theorem members_ne_nil {size fuel : ℕ} {entries : List (Bytes × Value)} {s : Bytes} {r : Value × Bytes}
    (h : members strtod size fuel entries s = .ok r) : skipBlanks s ≠ [] := by
  intro hnil
  cases fuel with
  | zero => cases h
  | succ fuel =>
    unfold members at h
    rw [hnil] at h
    cases h

/-- An element is only read where something follows the blanks. -/
theorem elements_ne_nil {size fuel : ℕ} {elems : List Value} {s : Bytes} {r : Value × Bytes}
    (h : elements strtod size fuel elems s = .ok r) : skipBlanks s ≠ [] := by
  cases fuel with
  | zero => cases h
  | succ fuel =>
    unfold elements at h
    cases hvalue : value strtod size fuel s with
    | error err =>
      rw [hvalue] at h
      cases h
    | ok r => exact value_ne_nil strtod hvalue

/-- A text with something after its blanks is not empty. -/
theorem skipBlanks_nil_of_nil {s : Bytes} (h : skipBlanks s ≠ []) : s ≠ [] := by
  rintro rfl
  exact h rfl

/-- One more unit of fuel for the elements: they extend when values and elements do with one less. -/
theorem elements_step (fuel : ℕ) (hvalue : ValueExtends strtod fuel) (helements : ElementsExtend strtod fuel) :
    ElementsExtend strtod (fuel + 1) := by
  intro size size' fuel' elems s rest more v hfuel h
  obtain ⟨fuel', rfl⟩ : ∃ k, fuel' = k + 1 := ⟨fuel' - 1, by omega⟩
  have hle : fuel ≤ fuel' := by omega
  unfold elements at h ⊢
  cases hread : value strtod size fuel s with
  | error err =>
    rw [hread] at h
    cases h
  | ok r =>
    obtain ⟨w, s₁⟩ := r
    rw [hread] at h
    dsimp only at h
    have hnil : skipBlanks s₁ ≠ [] := by
      intro hnil
      rw [hnil] at h
      cases h
    rw [hvalue size size' fuel' s s₁ more w hle hread (Or.inl (skipBlanks_nil_of_nil hnil))]
    dsimp only
    rw [skipBlanks_append more hnil, head?_append more hnil, List.tail_append_of_ne_nil hnil]
    split_ifs at h ⊢
    · exact helements size size' fuel' _ _ rest more v hle h
    · obtain ⟨rfl, rfl⟩ := Prod.mk.inj (Except.ok.inj h)
      rfl
    · cases h

/-- One more unit of fuel for the members, in the same way. -/
theorem members_step (fuel : ℕ) (hvalue : ValueExtends strtod fuel) (hmembers : MembersExtend strtod fuel) :
    MembersExtend strtod (fuel + 1) := by
  intro size size' fuel' entries s rest more v hfuel h
  obtain ⟨fuel', rfl⟩ : ∃ k, fuel' = k + 1 := ⟨fuel' - 1, by omega⟩
  have hle : fuel ≤ fuel' := by omega
  have hstart := members_ne_nil strtod h
  unfold members at h ⊢
  rw [skipBlanks_append more hstart]
  cases hkey : stringToken size (skipBlanks s) with
  | error err =>
    rw [hkey] at h
    cases h
  | ok r =>
    obtain ⟨key, s₁⟩ := r
    rw [hkey] at h
    rw [stringToken_append size size' _ key s₁ more hkey]
    dsimp only at h ⊢
    by_cases hcolon : (skipBlanks s₁).head? = some 58
    · have hnil : skipBlanks s₁ ≠ [] := by
        intro hnil
        rw [hnil] at hcolon
        cases hcolon
      rw [if_neg (not_not.mpr hcolon)] at h
      rw [skipBlanks_append more hnil, head?_append more hnil, List.tail_append_of_ne_nil hnil,
        if_neg (not_not.mpr hcolon)]
      cases hread : value strtod size fuel (skipBlanks s₁).tail with
      | error err =>
        rw [hread] at h
        cases h
      | ok r =>
        obtain ⟨w, s₂⟩ := r
        rw [hread] at h
        dsimp only at h
        have hnil₂ : skipBlanks s₂ ≠ [] := by
          intro hnil
          rw [hnil] at h
          cases h
        rw [hvalue size size' fuel' _ s₂ more w hle hread (Or.inl (skipBlanks_nil_of_nil hnil₂))]
        dsimp only
        rw [skipBlanks_append more hnil₂, head?_append more hnil₂, List.tail_append_of_ne_nil hnil₂]
        split_ifs at h ⊢
        · exact hmembers size size' fuel' _ _ rest more v hle h
        · obtain ⟨rfl, rfl⟩ := Prod.mk.inj (Except.ok.inj h)
          rfl
        · cases h
    · rw [if_pos hcolon] at h
      cases h

/-- A word at the front of the text stays there, and what follows it grows. -/
theorem startsWith_append_of {s word : Bytes} (more : Bytes) (h : startsWith s word = true) :
    startsWith (s ++ more) word = true ∧ (s ++ more).drop word.length = s.drop word.length ++ more := by
  unfold startsWith at h ⊢
  rw [List.isPrefixOf_iff_prefix] at h ⊢
  exact ⟨h.trans (List.prefix_append _ _), List.drop_append_of_le_length h.length_le⟩

/-- A number begins with no letter. -/
theorem numberToken_head {size : ℕ} {c : UInt8} {s : Bytes} {r : Value × Bytes}
    (h : numberToken strtod size (c :: s) = .ok r) (hsign : c ≠ 45 ∧ c ≠ 43) : isDigit c = true := by
  by_contra hdigit
  have hskip : skipSign (c :: s) = c :: s := by simp [skipSign, hsign]
  rw [numberToken_eq] at h
  dsimp only at h
  rw [hskip, List.takeWhile_cons_of_neg hdigit, if_neg (by simp)] at h
  cases h

/-- Behind the brace of an object. -/
def objectFrom (size fuel : ℕ) (s : Bytes) : Except Bytes (Value × Bytes) :=
  if (skipBlanks s).head? = some 125 then .ok (.obj [], (skipBlanks s).tail)
  else members strtod size fuel [] (skipBlanks s)

/-- Behind the bracket of an array. -/
def arrayFrom (size fuel : ℕ) (s : Bytes) : Except Bytes (Value × Bytes) :=
  if (skipBlanks s).head? = some 93 then .ok (.arr [], (skipBlanks s).tail)
  else elements strtod size fuel [] (skipBlanks s)

/-- A string, as a value. -/
def stringFrom (size : ℕ) (s : Bytes) : Except Bytes (Value × Bytes) :=
  match stringToken size s with
  | .error err => .error err
  | .ok (s, rest) => .ok (.string s, rest)

/-- A word or a number. -/
def wordFrom (size : ℕ) (s : Bytes) : Except Bytes (Value × Bytes) :=
  if startsWith s (lit "true") then .ok (.bool true, s.drop 4)
  else if startsWith s (lit "false") then .ok (.bool false, s.drop 5)
  else if startsWith s (lit "null") then .ok (.null, s.drop 4)
  else numberToken strtod size s

/-- Reading a value by its first byte: an object, an array, a string or one of the rest. -/
theorem value_cons {s t : Bytes} {c : UInt8} (hs : skipBlanks s = c :: t) (size fuel : ℕ) :
    value strtod size (fuel + 1) s =
      if c = 123 then objectFrom strtod size fuel t
      else if c = 91 then arrayFrom strtod size fuel t
      else if c = 34 then stringFrom size (c :: t)
      else wordFrom strtod size (c :: t) := by
  unfold value
  rw [hs]
  rfl

/-- An object is read alike in a longer text when its members are. -/
theorem objectFrom_append {fuel : ℕ} (hmembers : MembersExtend strtod fuel) (size size' fuel' : ℕ)
    (s rest more : Bytes) (v : Value) (hle : fuel ≤ fuel') (h : objectFrom strtod size fuel s = .ok (v, rest)) :
    objectFrom strtod size' fuel' (s ++ more) = .ok (v, rest ++ more) := by
  unfold objectFrom at h ⊢
  have hnil : skipBlanks s ≠ [] := by
    intro hnil
    rw [hnil] at h
    exact members_ne_nil strtod h rfl
  rw [skipBlanks_append more hnil, head?_append more hnil, List.tail_append_of_ne_nil hnil]
  split_ifs at h ⊢
  · obtain ⟨rfl, rfl⟩ := Prod.mk.inj (Except.ok.inj h)
    rfl
  · exact hmembers size size' fuel' [] _ rest more v hle h

/-- An array is read alike in a longer text when its elements are. -/
theorem arrayFrom_append {fuel : ℕ} (helements : ElementsExtend strtod fuel) (size size' fuel' : ℕ)
    (s rest more : Bytes) (v : Value) (hle : fuel ≤ fuel') (h : arrayFrom strtod size fuel s = .ok (v, rest)) :
    arrayFrom strtod size' fuel' (s ++ more) = .ok (v, rest ++ more) := by
  unfold arrayFrom at h ⊢
  have hnil : skipBlanks s ≠ [] := by
    intro hnil
    rw [hnil] at h
    exact elements_ne_nil strtod h rfl
  rw [skipBlanks_append more hnil, head?_append more hnil, List.tail_append_of_ne_nil hnil]
  split_ifs at h ⊢
  · obtain ⟨rfl, rfl⟩ := Prod.mk.inj (Except.ok.inj h)
    rfl
  · exact helements size size' fuel' [] _ rest more v hle h

/-- A string as a value is read alike in a longer text. -/
theorem stringFrom_append (size size' : ℕ) (s rest more : Bytes) (v : Value)
    (h : stringFrom size s = .ok (v, rest)) : stringFrom size' (s ++ more) = .ok (v, rest ++ more) := by
  unfold stringFrom at h ⊢
  cases htoken : stringToken size s with
  | error err =>
    rw [htoken] at h
    cases h
  | ok r =>
    obtain ⟨r, s₁⟩ := r
    rw [htoken] at h
    obtain ⟨rfl, rfl⟩ := Prod.mk.inj (Except.ok.inj h)
    rw [stringToken_append size size' s r s₁ more htoken]

/-- A word or a number is read alike in a longer text when the shorter text went on after it. -/
theorem wordFrom_append (size size' : ℕ) (c : UInt8) (s rest more : Bytes) (v : Value) (hrest : rest ≠ [])
    (h : wordFrom strtod size (c :: s) = .ok (v, rest)) :
    wordFrom strtod size' (c :: s ++ more) = .ok (v, rest ++ more) := by
  obtain ⟨hlitTrue, hlitFalse, hlitNull⟩ := lit_words
  have hne {d : UInt8} (hcd : c ≠ d) (word : Bytes) : ¬startsWith (c :: s ++ more) (d :: word) = true := by
    simp [startsWith_of_head_ne hcd]
  have heq {d : UInt8} {word : Bytes} (hword : startsWith (c :: s) (d :: word) = true) : c = d := by
    by_contra hcd
    rw [startsWith_of_head_ne hcd] at hword
    cases hword
  unfold wordFrom at h ⊢
  rw [hlitTrue, hlitFalse, hlitNull] at h ⊢
  by_cases htrue : startsWith (c :: s) [116, 114, 117, 101] = true
  · obtain ⟨hstart, hdrop⟩ := startsWith_append_of more htrue
    rw [if_pos htrue] at h
    obtain ⟨rfl, rfl⟩ := Prod.mk.inj (Except.ok.inj h)
    rw [if_pos hstart]
    exact congrArg (fun rest => Except.ok (Value.bool true, rest)) hdrop
  rw [if_neg htrue] at h
  by_cases hfalse : startsWith (c :: s) [102, 97, 108, 115, 101] = true
  · obtain ⟨hstart, hdrop⟩ := startsWith_append_of more hfalse
    rw [if_pos hfalse] at h
    obtain ⟨rfl, rfl⟩ := Prod.mk.inj (Except.ok.inj h)
    rw [if_neg (hne (by rw [heq hfalse]; decide) _), if_pos hstart]
    exact congrArg (fun rest => Except.ok (Value.bool false, rest)) hdrop
  rw [if_neg hfalse] at h
  by_cases hnull : startsWith (c :: s) [110, 117, 108, 108] = true
  · obtain ⟨hstart, hdrop⟩ := startsWith_append_of more hnull
    rw [if_pos hnull] at h
    obtain ⟨rfl, rfl⟩ := Prod.mk.inj (Except.ok.inj h)
    rw [if_neg (hne (by rw [heq hnull]; decide) _), if_neg (hne (by rw [heq hnull]; decide) _), if_pos hstart]
    exact congrArg (fun rest => Except.ok (Value.null, rest)) hdrop
  rw [if_neg hnull] at h
  -- a number, which begins with no letter
  have hletter {d : UInt8} (hsign : d ≠ 45 ∧ d ≠ 43) (hd : isDigit d = false) : c ≠ d := by
    rintro rfl
    rw [numberToken_head strtod h hsign] at hd
    cases hd
  rw [if_neg (hne (hletter (by decide) rfl) _), if_neg (hne (hletter (by decide) rfl) _),
    if_neg (hne (hletter (by decide) rfl) _)]
  exact numberToken_append strtod size size' (c :: s) rest more v h hrest

/-- One more unit of fuel for a value: it extends when members and elements do with one less. -/
theorem value_step (fuel : ℕ) (hmembers : MembersExtend strtod fuel) (helements : ElementsExtend strtod fuel) :
    ValueExtends strtod (fuel + 1) := by
  intro size size' fuel' s rest more v hfuel h hend
  obtain ⟨fuel', rfl⟩ : ∃ k, fuel' = k + 1 := ⟨fuel' - 1, by omega⟩
  have hle : fuel ≤ fuel' := by omega
  have hstart := value_ne_nil strtod h
  obtain ⟨c, t, hs⟩ := List.exists_cons_of_ne_nil hstart
  have hs' : skipBlanks (s ++ more) = c :: (t ++ more) := by
    rw [skipBlanks_append more hstart, hs, List.cons_append]
  unfold Bracketed at hend
  rw [hs] at hend
  rw [value_cons strtod hs] at h
  rw [value_cons strtod hs']
  split_ifs at h ⊢ with hobj harr hstr
  · exact objectFrom_append strtod hmembers size size' fuel' t rest more v hle h
  · exact arrayFrom_append strtod helements size size' fuel' t rest more v hle h
  · exact stringFrom_append size size' (c :: t) rest more v h
  · have hrest : rest ≠ [] := by
      apply hend.resolve_right
      simp [hobj, harr, hstr]
    exact wordFrom_append strtod size size' c t rest more v hrest h

/-- Values, members and elements extend at every fuel. -/
theorem extends_all (fuel : ℕ) :
    ValueExtends strtod fuel ∧ MembersExtend strtod fuel ∧ ElementsExtend strtod fuel := by
  induction fuel with
  | zero =>
    refine ⟨?_, ?_, ?_⟩
    · intro size size' fuel' s rest more v _ h _
      cases h
    · intro size size' fuel' entries s rest more v _ h
      cases h
    · intro size size' fuel' elems s rest more v _ h
      cases h
  | succ fuel ih =>
    obtain ⟨hvalue, hmembers, helements⟩ := ih
    exact ⟨value_step strtod fuel hmembers helements, members_step strtod fuel hvalue hmembers,
      elements_step strtod fuel hvalue helements⟩

end Value

/-! ## Error texts -/

/-- A failure has an error text. -/
def Explained {α : Type} (x : Except Bytes α) : Prop := ∀ err, x = .error err → err ≠ []

/-- A success needs no message. -/
theorem explained_ok {α : Type} (a : α) : Explained (Except.ok a : Except Bytes α) := by
  intro err h
  cases h

/-- The parser's own failures carry a message. -/
theorem explained_failAt {α : Type} (size : ℕ) (msg : String) (rest : Bytes) :
    Explained (failAt size msg rest : Except Bytes α) := by
  intro err h
  cases h
  simp [lit]

/-- An error that is passed on. -/
theorem Explained.pass {α β : Type} {x : Except Bytes α} {err : Bytes} (hx : Explained x)
    (h : x = .error err) : Explained (Except.error err : Except Bytes β) := by
  intro err' h'
  cases h'
  exact hx err h

/-- A choice between explained results is explained. -/
theorem explained_ite {α : Type} {p : Prop} [Decidable p] {x y : Except Bytes α} (hx : Explained x)
    (hy : Explained y) : Explained (if p then x else y) := by
  split_ifs
  · exact hx
  · exact hy

/-- A sequence of explained steps is explained. -/
theorem explained_bind {α β : Type} {x : Except Bytes α} {f : α → Except Bytes β} (hx : Explained x)
    (hf : ∀ a, Explained (f a)) : Explained (x >>= f) := by
  cases x with
  | error err => exact hx.pass rfl
  | ok a => exact hf a

/-- Bad hex digits are refused with a message. -/
theorem explained_hexDigits (size k n : ℕ) (s : Bytes) : Explained (hexDigits size k n s) := by
  induction k generalizing n s with
  | zero => exact explained_ok _
  | succ k ih =>
    cases s with
    | nil => exact explained_ok _
    | cons c s =>
      rw [hexDigits]
      cases hexDigit c with
      | none => exact explained_failAt _ _ _
      | some d => exact ih _ s

/-- A bad four-digit escape is refused with a message. -/
theorem explained_hex4 (size : ℕ) (s : Bytes) : Explained (hex4 size s) :=
  explained_ite (explained_failAt _ _ _) (explained_hexDigits _ _ _ _)

/-- A bad Unicode escape is refused with a message. -/
theorem explained_unicodeEscape (size cp : ℕ) (s : Bytes) : Explained (unicodeEscape size cp s) := by
  apply explained_ite
  · apply explained_bind (explained_hex4 _ _)
    intro pair
    exact explained_ite (explained_ok _) (explained_ok _)
  · exact explained_ok _

/-- A bad string body is refused with a message. -/
theorem explained_stringBody (size fuel : ℕ) (out s : Bytes) : Explained (stringBody size fuel out s) := by
  induction fuel generalizing out s with
  | zero => exact explained_failAt _ _ _
  | succ fuel ih =>
    cases s with
    | nil => exact explained_failAt _ _ _
    | cons c s =>
      unfold stringBody
      apply explained_ite (explained_ok _)
      apply explained_ite (ih _ s)
      cases s with
      | nil => exact explained_failAt _ _ _
      | cons e s =>
        dsimp only
        cases simpleEscape e with
        | some b => exact ih _ s
        | none =>
          apply explained_ite _ (explained_failAt _ _ _)
          apply explained_bind (explained_hex4 _ _)
          intro pair
          apply explained_bind (explained_unicodeEscape _ _ _)
          intro pair
          exact ih _ _

/-- A bad string is refused with a message. -/
theorem explained_stringToken (size : ℕ) (s : Bytes) : Explained (stringToken size s) :=
  explained_ite (explained_stringBody _ _ _ _) (explained_failAt _ _ _)

section Value

variable (strtod : Bytes → Double × ℕ)

/-- A bad value, member or element is refused with a message. -/
theorem explained_value (size fuel : ℕ) :
    (∀ s, Explained (value strtod size fuel s)) ∧
      (∀ entries s, Explained (members strtod size fuel entries s)) ∧
      ∀ elems s, Explained (elements strtod size fuel elems s) := by
  induction fuel with
  | zero => exact ⟨fun _ => explained_failAt _ _ _, fun _ _ => explained_failAt _ _ _,
      fun _ _ => explained_failAt _ _ _⟩
  | succ fuel ih =>
    obtain ⟨hvalue, hmembers, helements⟩ := ih
    refine ⟨?_, ?_, ?_⟩
    · intro s
      cases hs : skipBlanks s with
      | nil =>
        unfold value
        rw [hs]
        exact explained_failAt _ _ _
      | cons c t =>
        rw [value_cons strtod hs]
        apply explained_ite
        · exact explained_ite (explained_ok _) (hmembers _ _)
        apply explained_ite
        · exact explained_ite (explained_ok _) (helements _ _)
        apply explained_ite
        · unfold stringFrom
          cases htoken : stringToken size (c :: t) with
          | error err => exact (explained_stringToken _ _).pass htoken
          | ok r => exact explained_ok _
        · apply explained_ite (explained_ok _)
          apply explained_ite (explained_ok _)
          apply explained_ite (explained_ok _)
          exact explained_ite (explained_ok _) (explained_failAt _ _ _)
    · intro entries s
      unfold members
      cases hkey : stringToken size (skipBlanks s) with
      | error err => exact (explained_stringToken _ _).pass hkey
      | ok r =>
        apply explained_ite (explained_failAt _ _ _)
        cases hread : value strtod size fuel (skipBlanks r.2).tail with
        | error err => exact (hvalue _).pass hread
        | ok r =>
          apply explained_ite (hmembers _ _)
          exact explained_ite (explained_ok _) (explained_failAt _ _ _)
    · intro elems s
      unfold elements
      cases hread : value strtod size fuel s with
      | error err => exact (hvalue _).pass hread
      | ok r =>
        apply explained_ite (helements _ _)
        exact explained_ite (explained_ok _) (explained_failAt _ _ _)

end Value

/-! ## Texts -/

/-- The text is accepted: `parse` leaves no error. -/
def Accepted (strtod : Bytes → Double × ℕ) (text : Bytes) : Prop := (parse strtod text).2 = []

/-- A text is accepted exactly when a value is read from it and only blanks are left. -/
theorem accepted_iff (strtod : Bytes → Double × ℕ) (text : Bytes) :
    Accepted strtod text ↔ ∃ v rest,
      value strtod text.length (2 * text.length + 2) text = .ok (v, rest) ∧ skipBlanks rest = [] := by
  unfold Accepted parse
  cases hvalue : value strtod text.length (2 * text.length + 2) text with
  | error err =>
    have herr := (explained_value strtod _ _).1 text err hvalue
    simp [herr]
  | ok r =>
    obtain ⟨v, rest⟩ := r
    dsimp only
    split_ifs with hrest
    · simp [hrest]
    · simp [hrest, lit]

/-- **An accepted text that begins with a bracket or a quote is cut by no prefix** but one that
leaves blanks.
SRC: json.cpp:87-269 -/
theorem parse_prefix (strtod : Bytes → Double × ℕ) (t₁ t₂ : Bytes) (h₁ : Accepted strtod t₁)
    (h₂ : Accepted strtod t₂) (hstart : Bracketed t₁) (hextends : t₁ <+: t₂) :
    ∀ c ∈ t₂.drop t₁.length, JsonGrammar.isBlank c = true := by
  obtain ⟨more, rfl⟩ := hextends
  obtain ⟨v, rest, hvalue, hrest⟩ := (accepted_iff strtod t₁).mp h₁
  obtain ⟨v', rest', hvalue', hrest'⟩ := (accepted_iff strtod (t₁ ++ more)).mp h₂
  have hlonger := (extends_all strtod _).1 _ (t₁ ++ more).length (2 * (t₁ ++ more).length + 2) t₁ rest more v
    (by rw [List.length_append]; omega) hvalue (Or.inr hstart)
  rw [hlonger] at hvalue'
  obtain ⟨rfl, rfl⟩ := Prod.mk.inj (Except.ok.inj hvalue')
  rw [skipBlanks_eq, List.dropWhile_eq_nil_iff] at hrest'
  rw [List.drop_left]
  intro c hc
  exact hrest' c (List.mem_append_right _ hc)

/-- A closed array, and the same array with a line break behind it. -/
theorem parse_prefix_array :
    lit "[\"a\"]" <+: lit "[\"a\"]\n" ∧
      ∀ c ∈ (lit "[\"a\"]\n").drop (lit "[\"a\"]").length, JsonGrammar.isBlank c = true := by
  have hextends : lit "[\"a\"]" <+: lit "[\"a\"]\n" := ⟨lit "\n", rfl⟩
  refine ⟨hextends, ?_⟩
  exact parse_prefix (fun _ => (.nan, 0)) (lit "[\"a\"]") (lit "[\"a\"]\n") rfl rfl (Or.inr (Or.inl rfl)) hextends

end HaikuAgent.Analysis.JsonPrefixes
