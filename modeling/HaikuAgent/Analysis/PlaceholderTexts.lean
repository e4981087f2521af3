import HaikuAgent.Analysis.Placeholders

/-!
# The texts of parameters

Inside a string a placeholder is replaced by a text of the value it names. `keepsParameters_iff`
says for which values that text is one that tells the value: strings, numbers and lists of
strings. Booleans, objects and `null` are erased, and so is what a list holds of them.
-/

set_option autoImplicit false

namespace HaikuAgent.Analysis.PlaceholderTexts

open HaikuAgent.Foundation
open HaikuAgent.Model
open HaikuAgent.Model.Json
open HaikuAgent.Model.Runner
open HaikuAgent.Analysis.Placeholders

mutual

/-- A text that tells the value. -/
def valueText : Value → Bytes
  | .string s => s
  | .bool b => dump (.bool b)
  | .number n integral => dump (.number n integral)
  | .arr elems => join (valueTexts elems) (lit "\n")
  | .obj entries => dump (.obj entries)
  | .null => dump .null

def valueTexts : List Value → List Bytes
  | [] => []
  | v :: rest => valueText v :: valueTexts rest

end

/-- A list without any text in it. -/
inductive Hollow : Value → Prop where
  | nil : Hollow (.arr [])
  | string : Hollow (.arr [.string []])
  | nested (v : Value) (h : Hollow v) : Hollow (.arr [v])

/-- The text tells the value; only an empty string or an empty list has an empty one. -/
structure Kept (text : Bytes) (v : Value) : Prop where
  told : text = valueText v
  nonempty : text = [] → v = .string [] ∨ v = .arr []

/-- The values that `substitute_scalar` keeps. -/
def Survives : Value → Prop
  | .string _ => True
  | .number _ _ => True
  | .arr elems => (∀ e ∈ elems, e.isStr = true ∨ Hollow e) ∧ (Hollow (.arr elems) → elems = [])
  | .obj _ => False
  | .bool _ => False
  | .null => False

/-! ## Joined texts -/

section Join

variable {α β : Type} (sep : List α) (f g : β → List α)

/-- Joining shorter texts gives no longer a text. -/
theorem length_intercalate_le (l : List β) (h : ∀ b ∈ l, f b = g b ∨ f b = []) :
    (sep.intercalate (l.map f)).length ≤ (sep.intercalate (l.map g)).length := by
  induction l with
  | nil => simp
  | cons b rest ih =>
    obtain ⟨hb, hrest⟩ := List.forall_mem_cons.mp h
    have hle : (f b).length ≤ (g b).length := by
      rcases hb with heq | hnil
      · rw [heq]
      · simp [hnil]
    cases rest with
    | nil => simpa using hle
    | cons c rest =>
      have hlengths := ih hrest
      simp only [List.map_cons, List.intercalate_cons_cons, List.length_append] at hlengths ⊢
      omega

/-- Where parts are left empty, the whole is the same only if no part differs. -/
theorem intercalate_eq_iff (l : List β) (h : ∀ b ∈ l, f b = g b ∨ f b = []) :
    sep.intercalate (l.map f) = sep.intercalate (l.map g) ↔ ∀ b ∈ l, f b = g b := by
  constructor
  · intro heq
    induction l with
    | nil => simp
    | cons b rest ih =>
      obtain ⟨hb, hrest⟩ := List.forall_mem_cons.mp h
      cases rest with
      | nil => simpa using heq
      | cons c rest =>
        simp only [List.map_cons, List.intercalate_cons_cons, List.append_assoc] at heq
        have hle := length_intercalate_le sep f g (c :: rest) hrest
        have hlength := congrArg List.length heq
        simp only [List.map_cons, List.length_append] at hle hlength
        have hsame : f b = g b := by
          apply hb.elim id
          intro hnil
          rw [hnil, List.length_nil] at hlength
          rw [hnil, List.length_eq_zero_iff.mp (by omega : (g b).length = 0)]
        rw [hsame] at heq
        have htail := List.append_cancel_left (List.append_cancel_left heq)
        exact List.forall_mem_cons.mpr ⟨hsame, ih hrest htail⟩
  · intro hall
    rw [List.map_congr_left hall]

end Join

/-! ## Empty texts -/

/-- The texts of a list of values are those of its elements. -/
theorem valueTexts_eq (elems : List Value) : valueTexts elems = elems.map valueText := by
  induction elems with
  | nil => rfl
  | cons v rest ih => rw [valueTexts, ih, List.map_cons]

/-- A natural number is never written as the empty text. -/
theorem toStringNat_ne_nil (n : ℕ) : toStringNat n ≠ [] := by
  simp [toStringNat, lit, toString, Nat.repr]

/-- A printed fraction is never empty. -/
theorem formatG17_ne_nil (q : ℚ) : formatG17 q ≠ [] := by
  unfold formatG17
  by_cases hq : q = 0
  · simp [hq, lit]
  rw [if_neg hq]
  dsimp only
  generalize (if (roundHalfEven (|q| * (10 : ℚ) ^ (16 - decimalExponent |q|))).toNat = 10 ^ 17 then
    (10 ^ 16, decimalExponent |q| + 1) else _) = digits
  obtain ⟨m, e⟩ := digits
  -- the part before the point has a digit in each notation
  have htake : ∀ n, (toStringNat m).take (n + 1) ≠ [] := by
    intro n
    simp [List.take_eq_nil_iff, toStringNat_ne_nil]
  dsimp only
  split_ifs
  all_goals simp [lit, htake]

/-- A printed number is never empty. -/
theorem dump_number_ne_nil (n : Double) (integral : Bool) : dump (.number n integral) ≠ [] := by
  unfold dump dumpNumber
  cases n with
  | finite q =>
    dsimp only
    split_ifs
    all_goals simp [toStringNat_ne_nil, formatG17_ne_nil]
  | inf negative => cases negative <;> simp [lit]
  | nan => simp [lit]

/-- Only lists are hollow. -/
theorem Hollow.isArr {v : Value} (h : Hollow v) : v.isArr = true := by
  cases h <;> rfl

/-- A list of two or more elements is not hollow: its separator is text. -/
theorem not_hollow_two (e e' : Value) (rest : List Value) : ¬Hollow (.arr (e :: e' :: rest)) := by
  intro h
  cases h

/-- A list of one element is hollow when that element is empty or hollow. -/
theorem hollow_one (e : Value) : Hollow (.arr [e]) ↔ e = .string [] ∨ Hollow e := by
  constructor
  · intro h
    cases h with
    | string => exact Or.inl rfl
    | nested _ h => exact Or.inr h
  · intro h
    apply h.elim
    · rintro rfl
      exact .string
    · exact .nested e

/-- The values with an empty text. -/
theorem valueText_eq_nil_iff (v : Value) : valueText v = [] ↔ v = .string [] ∨ Hollow v := by
  match v with
  | .arr [] => simp [valueText, valueTexts, join, Hollow.nil]
  | .arr [e] =>
    have ih := valueText_eq_nil_iff e
    simp [valueText, valueTexts, join, ih, hollow_one]
  | .arr (e :: e' :: rest) =>
    simp [valueText, valueTexts, join, List.intercalate_cons_cons, lit, not_hollow_two]
  | .string s =>
    have hnot : ¬Hollow (.string s) := fun h => Bool.false_ne_true h.isArr
    simp [valueText, hnot]
  | .bool b =>
    have hnot : ¬Hollow (.bool b) := fun h => Bool.false_ne_true h.isArr
    cases b <;> simp [valueText, dump, lit, hnot]
  | .number n integral =>
    have hnot : ¬Hollow (.number n integral) := fun h => Bool.false_ne_true h.isArr
    simp [valueText, dump_number_ne_nil, hnot]
  | .obj entries =>
    have hnot : ¬Hollow (.obj entries) := fun h => Bool.false_ne_true h.isArr
    simp [valueText, dump, hnot]
  | .null =>
    have hnot : ¬Hollow .null := fun h => Bool.false_ne_true h.isArr
    simp [valueText, dump, lit, hnot]

/-! ## What is kept -/

/-- A string is its own text; another element of a list has none. -/
theorem str_eq_or_nil (e : Value) : e.str [] = valueText e ∨ e.str [] = [] := by
  cases e <;> simp [Value.str, valueText]

/-- An element's string is its text for strings and for hollow lists only. -/
theorem str_eq_valueText_iff (e : Value) : e.str [] = valueText e ↔ e.isStr = true ∨ Hollow e := by
  cases e with
  | string s => simp [Value.str, valueText, Value.isStr]
  | _ =>
    simp only [Value.str, Value.isStr, Bool.false_eq_true, false_or]
    rw [eq_comm, valueText_eq_nil_iff]
    simp

/-- The texts of a list are those of its elements, if each of these has its own. -/
theorem scalarText_arr_iff (elems : List Value) :
    scalarText (.arr elems) = valueText (.arr elems) ↔ ∀ e ∈ elems, e.isStr = true ∨ Hollow e := by
  have hparts := intercalate_eq_iff (lit "\n") (Value.str []) valueText elems fun e _ => str_eq_or_nil e
  rw [scalarText, valueText, valueTexts_eq, join, join, hparts]
  apply forall₂_congr
  intro e _
  exact str_eq_valueText_iff e

/-- `scalarText` keeps exactly the values that survive. -/
theorem kept_iff (v : Value) : Kept (scalarText v) v ↔ Survives v := by
  cases v with
  | string s =>
    apply iff_of_true _ trivial
    refine ⟨rfl, ?_⟩
    intro hs
    exact Or.inl (congrArg Value.string hs)
  | number n integral =>
    apply iff_of_true _ trivial
    refine ⟨rfl, ?_⟩
    intro hdump
    exact absurd hdump (dump_number_ne_nil n integral)
  | arr elems =>
    rw [Survives, ← scalarText_arr_iff]
    constructor
    · intro h
      refine ⟨h.told, ?_⟩
      intro hhollow
      have hnil := h.told.trans ((valueText_eq_nil_iff _).mpr (Or.inr hhollow))
      simpa using h.nonempty hnil
    · rintro ⟨htold, hhollow⟩
      refine ⟨htold, ?_⟩
      intro hnil
      rw [htold, valueText_eq_nil_iff] at hnil
      simpa using hnil.imp_right hhollow
  | obj entries =>
    apply iff_of_false _ id
    intro h
    have htold := h.told
    simp [scalarText, valueText, Value.str, Value.isNumber, dump] at htold
  | bool b =>
    apply iff_of_false _ id
    intro h
    have htold := h.told
    cases b <;> simp [scalarText, valueText, Value.str, Value.isNumber, dump, lit] at htold
  | null =>
    apply iff_of_false _ id
    intro h
    have htold := h.told
    simp [scalarText, valueText, Value.str, Value.isNumber, dump, lit] at htold

/-- A placeholder of the input, and the value that it names. -/
def Names (input : Bytes) (table : List (Bytes × Value)) (inner : Bytes) (v : Value) : Prop :=
  .hole inner ∈ braces.cut input ∧ findEntry table (trim inner) = some v

/-- **No parameter inside a string is erased** exactly when each one is a string, a number or a
list of strings.
SRC: runner.cpp:24-57, json.cpp:15-17 -/
theorem keepsParameters_iff (input : Bytes) (table : List (Bytes × Value)) :
    let filled := fill scalarText (findEntry table)
    substituteScalar input table = (braces.cut input).flatMap filled ∧
      ((∀ inner v, Names input table inner v → Kept (filled (.hole inner)) v) ↔
        ∀ inner v, Names input table inner v → Survives v) := by
  refine ⟨substituteScalar_eq input table, ?_⟩
  apply forall₃_congr
  intro inner v hnames
  have hfilled : fill scalarText (findEntry table) (.hole inner) = scalarText v := by
    simp [fill, hnames.2]
  rw [hfilled, kept_iff]

/-- A boolean is erased. -/
theorem flag_not_kept :
    ¬∀ inner v, Names (lit "ls \x7b\x7b all \x7d\x7d") [(lit "all", .bool true)] inner v →
      Kept (fill scalarText (findEntry [(lit "all", .bool true)]) (.hole inner)) v := by
  intro h
  have hnames : Names (lit "ls \x7b\x7b all \x7d\x7d") [(lit "all", .bool true)] (lit " all ") (.bool true) := by
    refine ⟨?_, rfl⟩
    have hfirst := firstHole_of_noBraces (lit "ls ") (lit " all ") [] ⟨by decide, by decide⟩
      ⟨by decide, by decide⟩
    have hinput : lit "ls \x7b\x7b all \x7d\x7d" =
        lit "ls " ++ (braces.source (.hole (lit " all ")) ++ []) := rfl
    rw [hinput, braces.cut_hole hfirst]
    exact List.mem_cons_of_mem _ List.mem_cons_self
  have hkept := h _ _ hnames
  exact (kept_iff (.bool true)).mp hkept

end HaikuAgent.Analysis.PlaceholderTexts
