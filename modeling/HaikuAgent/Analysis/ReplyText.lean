import HaikuAgent.Analysis.JsonRoundTrip
import HaikuAgent.Foundation.Utf8

/-!
# The text of a JSON value

When `dump` writes UTF-8: exactly when every string of the value and every key is UTF-8
(`utf8_dump_iff`). Everything else that is written is ASCII, and `escape` leaves the bytes
from `0x80` on as they are.
-/

set_option autoImplicit false

namespace HaikuAgent.Analysis.ReplyText

open HaikuAgent.Foundation
open HaikuAgent.Model
open HaikuAgent.Model.Json
open HaikuAgent.Interface.JsonText

/-! ## Strings -/

/-- A byte above ASCII is written as it is. -/
theorem escapeChar_high (b : UInt8) (h : ¬b < 0x80) : escapeChar b = [b] := by
  have hne : ∀ n : UInt8, n < 0x80 → b ≠ n := fun n hn heq => h (heq ▸ hn)
  unfold escapeChar
  rw [if_neg (hne 34 (by decide)), if_neg (hne 92 (by decide)), if_neg (hne 8 (by decide)),
    if_neg (hne 12 (by decide)), if_neg (hne 10 (by decide)), if_neg (hne 13 (by decide)),
    if_neg (hne 9 (by decide)), if_neg]
  intro hcontrol
  exact h (UInt8.lt_trans hcontrol (by decide))

/-- An ASCII byte is written as ASCII, escaped or not. -/
theorem escapeChar_ascii (b : UInt8) (h : b < 0x80) : escapeChar b ≠ [] ∧ Ascii (escapeChar b) := by
  have hall : ∀ n : Fin 128, escapeChar (UInt8.ofNat n) ≠ [] ∧ Ascii (escapeChar (UInt8.ofNat n)) := by
    decide
  have hb := hall ⟨b.toNat, UInt8.lt_iff_toNat_lt.mp h⟩
  rwa [UInt8.ofNat_toNat] at hb

/-- Escaping neither makes nor breaks text. -/
theorem utf8_flatMap_escapeChar (front s : Bytes) :
    Utf8 (front ++ s.flatMap escapeChar) ↔ Utf8 (front ++ s) := by
  induction s generalizing front with
  | nil => rfl
  | cons b s ih =>
    rw [List.flatMap_cons]
    by_cases hb : b < 0x80
    · obtain ⟨hne, hascii⟩ := escapeChar_ascii b hb
      have hrest := ih []
      rw [utf8_separated_text _ hne hascii, utf8_separated b hb]
      exact and_congr_right fun _ => hrest
    · have hrest := ih (front ++ [b])
      rw [List.append_assoc, List.append_assoc] at hrest
      rw [escapeChar_high b hb]
      exact hrest

/-- Text between two ASCII bytes. -/
theorem utf8_between (b c : UInt8) (hb : b < 0x80) (hc : c < 0x80) (s : Bytes) :
    Utf8 ([b] ++ s ++ [c]) ↔ Utf8 s := by
  rw [utf8_separated c hc ([b] ++ s) []]
  have hfirst := utf8_separated b hb [] s
  rw [List.nil_append] at hfirst
  show Utf8 (b :: s) ∧ Utf8 [] ↔ Utf8 s
  rw [hfirst]
  exact ⟨fun h => h.1.2, fun h => ⟨⟨utf8_nil, h⟩, utf8_nil⟩⟩

/-- Escaping keeps UTF-8 and makes none. -/
theorem utf8_escape_iff (s : Bytes) : Utf8 (escape s) ↔ Utf8 s := by
  unfold escape
  rw [utf8_between 34 34 (by decide) (by decide)]
  exact utf8_flatMap_escapeChar [] s

/-! ## Numbers -/

/-- A natural number is written in ASCII. -/
theorem ascii_toStringNat (n : ℕ) : Ascii (toStringNat n) := by
  obtain ⟨ds, hds⟩ := JsonRoundTrip.toStringNat_digits n
  have hdigit : ∀ d : Fin 10, digitByte d < 0x80 := by decide
  rw [hds]
  intro b hb
  obtain ⟨d, -, rfl⟩ := List.mem_map.mp hb
  exact hdigit d

/-- A repeated ASCII byte is ASCII. -/
theorem ascii_replicate (n : ℕ) (b : UInt8) (h : b < 0x80) : Ascii (List.replicate n b) := by
  intro c hc
  rw [List.eq_of_mem_replicate hc]
  exact h

/-- A choice between ASCII texts is ASCII. -/
theorem ascii_ite (p : Prop) [Decidable p] {s t : Bytes} (hs : Ascii s) (ht : Ascii t) :
    Ascii (if p then s else t) := by
  split_ifs
  · exact hs
  · exact ht

/-- A number with its point is ASCII. -/
theorem ascii_withPoint (whole frac : Bytes) (hwhole : Ascii whole) (hfrac : Ascii frac) :
    Ascii (if frac = [] then whole else whole ++ lit "." ++ frac) :=
  ascii_ite _ hwhole ((hwhole.append (by decide)).append hfrac)

/-- A number without its trailing zeros is ASCII. -/
theorem ascii_strip (s : Bytes) (h : Ascii s) : Ascii (s.rdropWhile fun c => c == 48) :=
  h.sublist (List.rdropWhile_prefix _ s).sublist

/-- A sign is ASCII. -/
theorem ascii_sign (p : Prop) [Decidable p] : Ascii (if p then lit "-" else []) :=
  ascii_ite p (by decide) ascii_nil

/-- A printed fraction is ASCII. -/
theorem ascii_formatG17 (q : ℚ) : Ascii (formatG17 q) := by
  unfold formatG17
  apply ascii_ite
  · decide
  dsimp only
  generalize (if _ = 10 ^ 17 then _ else _ : ℕ × ℤ) = me
  have hdigits := ascii_toStringNat me.1
  have hexponent := ascii_toStringNat me.2.natAbs
  have htake (n : ℕ) := hdigits.sublist (List.take_sublist n _)
  have hdrop (n : ℕ) := ascii_strip _ (hdigits.sublist (List.drop_sublist n _))
  have hzeros := (ascii_replicate (me.2.natAbs - 1) 48 (by decide)).append hdigits
  apply ascii_ite
  · have hmantissa := (ascii_sign (q < 0)).append (ascii_withPoint _ _ (htake 1) (hdrop 1))
    have hpower := @ascii_ite (me.2 < 0) _ (lit "-") (lit "+") (by decide) (by decide)
    have hwide := ascii_ite ((toStringNat me.2.natAbs).length < 2)
      (Ascii.append (s := lit "0") (by decide) hexponent) hexponent
    exact ((hmantissa.append (by decide)).append hpower).append hwide
  apply ascii_ite
  · exact (ascii_sign _).append (ascii_withPoint _ _ (htake _) (hdrop _))
  · exact (ascii_sign _).append (ascii_withPoint _ _ (by decide) (ascii_strip _ hzeros))

/-- A printed number is ASCII. -/
theorem ascii_dumpNumber (n : Double) (integral : Bool) : Ascii (dumpNumber n integral) := by
  cases n with
  | finite q =>
    exact ascii_ite _ ((ascii_sign _).append (ascii_toStringNat _)) (ascii_formatG17 q)
  | inf negative => exact ascii_ite _ (by decide) (by decide)
  | nan =>
    show Ascii (lit "nan")
    decide

/-! ## Values -/

mutual

/-- Every string of the value and every key is UTF-8. -/
def Clean : Value → Prop
  | .string s => Utf8 s
  | .obj entries => CleanEntries entries
  | .arr elems => CleanElems elems
  | .null => True
  | .bool _ => True
  | .number _ _ => True

def CleanEntries : List (Bytes × Value) → Prop
  | [] => True
  | (key, v) :: rest => (Utf8 key ∧ Clean v) ∧ CleanEntries rest

def CleanElems : List Value → Prop
  | [] => True
  | v :: rest => Clean v ∧ CleanElems rest

end

/-- The entries of an object are clean when each of them is. -/
theorem cleanEntries_iff (entries : List (Bytes × Value)) :
    CleanEntries entries ↔ ∀ entry ∈ entries, Utf8 entry.1 ∧ Clean entry.2 := by
  induction entries with
  | nil => exact ⟨fun _ _ h => absurd h List.not_mem_nil, fun _ => trivial⟩
  | cons entry entries ih =>
    rw [List.forall_mem_cons, ← ih]
    exact Iff.rfl

/-- What follows a part is a comma and text, or nothing. -/
theorem utf8_listed (front rest : Bytes) (last : Bool) (h : last = true → rest = []) :
    Utf8 (front ++ (if last then [] else [44]) ++ rest) ↔ Utf8 front ∧ Utf8 rest := by
  cases last with
  | true =>
    rw [h rfl, if_pos rfl, List.append_nil, List.append_nil]
    exact ⟨fun hfront => ⟨hfront, utf8_nil⟩, And.left⟩
  | false =>
    rw [List.append_assoc]
    exact utf8_separated 44 (by decide) front rest

mutual

/-- `dump` writes UTF-8 exactly for the values whose strings and keys are UTF-8. -/
theorem utf8_dump_iff (v : Value) : Utf8 (dump v) ↔ Clean v := by
  cases v with
  | null =>
    unfold dump Clean
    exact iff_of_true (utf8_ascii _ (by decide)) trivial
  | bool b =>
    unfold dump Clean
    exact iff_of_true (utf8_ascii _ (ascii_ite _ (by decide) (by decide))) trivial
  | number n integral =>
    unfold dump Clean
    exact iff_of_true (utf8_ascii _ (ascii_dumpNumber n integral)) trivial
  | string s =>
    unfold dump Clean
    exact utf8_escape_iff s
  | obj entries =>
    unfold dump Clean
    rw [utf8_between 123 125 (by decide) (by decide)]
    exact utf8_dumpEntries_iff entries
  | arr elems =>
    unfold dump Clean
    rw [utf8_between 91 93 (by decide) (by decide)]
    exact utf8_dumpElems_iff elems

/-- An object prints to UTF-8 exactly when its entries are clean. -/
theorem utf8_dumpEntries_iff (entries : List (Bytes × Value)) :
    Utf8 (dumpEntries entries) ↔ CleanEntries entries := by
  cases entries with
  | nil =>
    unfold dumpEntries CleanEntries
    exact iff_of_true utf8_nil trivial
  | cons entry rest =>
    obtain ⟨key, v⟩ := entry
    unfold dumpEntries CleanEntries
    rw [utf8_listed _ _ _ fun h => by rw [List.isEmpty_iff.mp h, dumpEntries],
      utf8_dumpEntries_iff rest, List.append_assoc]
    have hsplit : Utf8 (escape key ++ ([58] ++ dump v)) ↔ Utf8 (escape key) ∧ Utf8 (dump v) :=
      utf8_separated 58 (by decide) (escape key) (dump v)
    rw [hsplit, utf8_escape_iff, utf8_dump_iff v]

/-- A list prints to UTF-8 exactly when its elements are clean. -/
theorem utf8_dumpElems_iff (elems : List Value) : Utf8 (dumpElems elems) ↔ CleanElems elems := by
  cases elems with
  | nil =>
    unfold dumpElems CleanElems
    exact iff_of_true utf8_nil trivial
  | cons v rest =>
    unfold dumpElems CleanElems
    rw [utf8_listed _ _ _ fun h => by rw [List.isEmpty_iff.mp h, dumpElems],
      utf8_dumpElems_iff rest, utf8_dump_iff v]

end

/-! ## Objects built by assignment -/

/-- The entries come in the order of their keys. -/
def InOrder (table : List (Bytes × Value)) : Prop := table.Pairwise fun a b => a.1 < b.1

/-- Keys are ordered one way or the other. -/
theorem key_lt_of_not {key k : Bytes} (hne : ¬key = k) (hlt : ¬key < k) : k < key :=
  Std.lt_of_le_of_ne (List.not_lt.mp hlt) (Ne.symm hne)

/-- A table after an entry was set: the entry, and those of the other keys. -/
theorem mem_setEntry (table : List (Bytes × Value)) (h : InOrder table) (key : Bytes) (v : Value)
    (entry : Bytes × Value) :
    entry ∈ setEntry table key v ↔ entry = (key, v) ∨ (entry ∈ table ∧ entry.1 ≠ key) := by
  induction table with
  | nil =>
    unfold setEntry
    rw [List.mem_singleton]
    exact ⟨Or.inl, fun h => h.resolve_right fun hmem => List.not_mem_nil hmem.1⟩
  | cons first rest ih =>
    obtain ⟨k, w⟩ := first
    obtain ⟨hfirst, hrest⟩ := List.pairwise_cons.mp h
    have hafter {a b : Bytes} (hab : a < b) : b ≠ a := fun heq => List.lt_irrefl _ (heq ▸ hab)
    unfold setEntry
    by_cases heq : key = k
    · subst heq
      rw [if_pos rfl, List.mem_cons, List.mem_cons]
      constructor
      · rintro (hnew | hmem)
        · exact Or.inl hnew
        · exact Or.inr ⟨Or.inr hmem, hafter (hfirst entry hmem)⟩
      · rintro (hnew | ⟨hold | hmem, hne⟩)
        · exact Or.inl hnew
        · exact absurd (congrArg Prod.fst hold) hne
        · exact Or.inr hmem
    rw [if_neg heq]
    by_cases hlt : key < k
    · rw [if_pos hlt, List.mem_cons]
      refine or_congr_right ⟨fun hmem => ⟨hmem, ?_⟩, And.left⟩
      rcases List.mem_cons.mp hmem with rfl | hlater
      · exact hafter hlt
      · exact hafter (List.lt_trans hlt (hfirst entry hlater))
    · rw [if_neg hlt, List.mem_cons, List.mem_cons, ih hrest]
      constructor
      · rintro (rfl | hnew | ⟨hmem, hne⟩)
        · exact Or.inr ⟨Or.inl rfl, Ne.symm heq⟩
        · exact Or.inl hnew
        · exact Or.inr ⟨Or.inr hmem, hne⟩
      · rintro (hnew | ⟨hold | hmem, hne⟩)
        · exact Or.inr (Or.inl hnew)
        · exact Or.inl hold
        · exact Or.inr (Or.inr ⟨hmem, hne⟩)

/-- Setting an entry keeps a table in order. -/
theorem inOrder_setEntry (table : List (Bytes × Value)) (h : InOrder table) (key : Bytes) (v : Value) :
    InOrder (setEntry table key v) := by
  induction table with
  | nil => exact List.pairwise_singleton _ _
  | cons first rest ih =>
    obtain ⟨k, w⟩ := first
    obtain ⟨hfirst, hrest⟩ := List.pairwise_cons.mp h
    unfold setEntry
    by_cases heq : key = k
    · subst heq
      rw [if_pos rfl]
      exact List.pairwise_cons.mpr ⟨hfirst, hrest⟩
    rw [if_neg heq]
    by_cases hlt : key < k
    · rw [if_pos hlt]
      refine List.pairwise_cons.mpr ⟨fun entry hmem => ?_, h⟩
      rcases List.mem_cons.mp hmem with rfl | hlater
      · exact hlt
      · exact List.lt_trans hlt (hfirst entry hlater)
    · rw [if_neg hlt]
      refine List.pairwise_cons.mpr ⟨fun entry hmem => ?_, ih hrest⟩
      rcases (mem_setEntry rest hrest key v entry).mp hmem with rfl | ⟨hlater, -⟩
      · exact key_lt_of_not heq hlt
      · exact hfirst entry hlater

section Latest

variable {α κ : Type}

/-- An element of the list after which no other has its key. -/
def Latest (key : α → κ) (l : List α) (a : α) : Prop :=
  ∃ front back, l = front ++ a :: back ∧ ∀ later ∈ back, key later ≠ key a

/-- Nothing is latest in an empty list. -/
theorem latest_nil (key : α → κ) (a : α) : ¬Latest key [] a := by
  rintro ⟨front, back, heq, -⟩
  exact absurd heq.symm (List.append_ne_nil_of_right_ne_nil _ (List.cons_ne_nil _ _))

/-- The latest of a key is the first entry when no later one has the key, or the latest of the rest. -/
theorem latest_cons (key : α → κ) (first a : α) (l : List α) :
    Latest key (first :: l) a ↔ (a = first ∧ ∀ later ∈ l, key later ≠ key first) ∨ Latest key l a := by
  constructor
  · rintro ⟨front, back, heq, hlater⟩
    cases front with
    | nil =>
      obtain ⟨rfl, rfl⟩ := List.cons.inj heq
      exact Or.inl ⟨rfl, hlater⟩
    | cons b front =>
      obtain ⟨-, rfl⟩ := List.cons.inj heq
      exact Or.inr ⟨front, back, rfl, hlater⟩
  · rintro (⟨rfl, hlater⟩ | ⟨front, back, rfl, hlater⟩)
    · exact ⟨[], l, rfl, hlater⟩
    · exact ⟨first :: front, back, rfl, hlater⟩

/-- The last entry is the latest of its key; others are when their key differs. -/
theorem latest_concat (key : α → κ) (l : List α) (last a : α) :
    Latest key (l ++ [last]) a ↔ a = last ∨ (Latest key l a ∧ key a ≠ key last) := by
  constructor
  · rintro ⟨front, back, heq, hlater⟩
    induction back using List.reverseRecOn with
    | nil => exact Or.inl (List.singleton_inj.mp (List.append_inj_right' heq rfl)).symm
    | append_singleton back last' ih =>
      rw [← List.cons_append, ← List.append_assoc] at heq
      obtain ⟨hl, hlast⟩ := List.append_inj' heq rfl
      rw [List.singleton_inj.mp hlast]
      refine Or.inr ⟨⟨front, back, hl, fun later h => hlater later ?_⟩, ?_⟩
      · exact List.mem_append_left _ h
      · exact Ne.symm (hlater last' (List.mem_append_right _ (List.mem_singleton_self _)))
  · rintro (rfl | ⟨⟨front, back, rfl, hlater⟩, hne⟩)
    · exact ⟨l, [], rfl, fun _ h => absurd h List.not_mem_nil⟩
    · refine ⟨front, back ++ [last], by rw [List.append_assoc, List.cons_append], fun later h => ?_⟩
      rcases List.mem_append.mp h with hback | hlast
      · exact hlater later hback
      · rw [List.mem_singleton.mp hlast]
        exact Ne.symm hne

/-- Lists with the same keys, element by element: a property of the latest of each key may be
told from either. -/
theorem forall_latest_iff {β : Type} (key : α → κ) (key' : β → κ) (P : α → Prop) (Q : β → Prop)
    (l : List α) (l' : List β)
    (h : List.Forall₂ (fun a b => key a = key' b ∧ (P a ↔ Q b)) l l') :
    (∀ a, Latest key l a → P a) ↔ ∀ b, Latest key' l' b → Q b := by
  induction h with
  | nil =>
    exact iff_of_true (fun a ha => absurd ha (latest_nil key a)) fun b hb => absurd hb (latest_nil key' b)
  | @cons a b l l' hab hrest ih =>
    have hkeys : (∀ later ∈ l, key later ≠ key a) ↔ ∀ later ∈ l', key' later ≠ key' b := by
      have hmap : l.map key = l'.map key' :=
        List.forall₂_eq_eq_eq ▸ List.forall₂_map_left_iff.mpr
          (List.forall₂_map_right_iff.mpr (hrest.imp fun _ _ h => h.1))
      have hall {γ : Type} (f : γ → κ) (k : κ) (l : List γ) :
          (∀ later ∈ l, f later ≠ k) ↔ k ∉ l.map f := by
        rw [List.mem_map, not_exists]
        exact forall_congr' fun later => not_and.symm
      rw [hall, hall, hmap, hab.1]
    simp only [latest_cons, or_imp, forall_and, and_imp, forall_eq]
    rw [hkeys, hab.2, ih]

end Latest

/-- What an object built by assignments holds. -/
theorem objOf_entries (entries : List (Bytes × Value)) : ∃ table, objOf entries = .obj table ∧
    InOrder table ∧ ∀ entry, entry ∈ table ↔ Latest Prod.fst entries entry := by
  refine ⟨_, rfl, ?_⟩
  induction entries using List.reverseRecOn with
  | nil =>
    refine ⟨List.Pairwise.nil, fun entry => ?_⟩
    exact iff_of_false List.not_mem_nil (latest_nil _ entry)
  | append_singleton entries last ih =>
    obtain ⟨horder, hmem⟩ := ih
    rw [List.foldl_append, List.foldl_cons, List.foldl_nil]
    refine ⟨inOrder_setEntry _ horder last.1 last.2, fun entry => ?_⟩
    rw [mem_setEntry _ horder, hmem, latest_concat]

/-- An object built from entries is clean exactly when the latest entry of every key is. -/
theorem clean_objOf_iff (entries : List (Bytes × Value)) :
    Clean (objOf entries) ↔ ∀ entry, Latest Prod.fst entries entry → Utf8 entry.1 ∧ Clean entry.2 := by
  obtain ⟨table, htable, -, hmem⟩ := objOf_entries entries
  have hclean : Clean (.obj table) ↔ CleanEntries table := by rw [Clean]
  rw [htable, hclean, cleanEntries_iff]
  exact forall_congr' fun entry => imp_congr_left (hmem entry)

/-- Where no key is assigned to twice. -/
theorem clean_objOf_nodup (entries : List (Bytes × Value)) (h : (entries.map Prod.fst).Nodup) :
    Clean (objOf entries) ↔ ∀ entry ∈ entries, Utf8 entry.1 ∧ Clean entry.2 := by
  rw [clean_objOf_iff]
  refine forall_congr' fun entry => imp_congr_left ⟨?_, fun hmem => ?_⟩
  · rintro ⟨front, back, rfl, -⟩
    exact List.mem_append_right _ List.mem_cons_self
  · obtain ⟨front, back, rfl⟩ := List.append_of_mem hmem
    refine ⟨front, back, rfl, fun later hlater heq => ?_⟩
    rw [List.map_append, List.map_cons, List.nodup_append, List.nodup_cons] at h
    exact h.2.1.1 (heq ▸ List.mem_map_of_mem hlater)

/-- A record: its keys are constants. -/
theorem clean_record (entries : List (Bytes × Value)) (keys : List Bytes)
    (h : entries.map Prod.fst = keys) (hkeys : keys.Nodup ∧ ∀ key ∈ keys, Ascii key) :
    Clean (objOf entries) ↔ ∀ v ∈ entries.map Prod.snd, Clean v := by
  rw [clean_objOf_nodup entries (h ▸ hkeys.1), List.forall_mem_map]
  refine forall₂_congr fun entry hmem => and_iff_right (utf8_ascii _ ?_)
  exact hkeys.2 _ (h ▸ List.mem_map_of_mem hmem)

/-- A string is clean when it is UTF-8. -/
theorem clean_string (s : Bytes) : Clean (.string s) ↔ Utf8 s := by rw [Clean]

/-- Numbers are clean. -/
theorem clean_number (n : Double) (integral : Bool) : Clean (.number n integral) := by
  rw [Clean]
  trivial

end HaikuAgent.Analysis.ReplyText
