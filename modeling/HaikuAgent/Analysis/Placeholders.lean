import Mathlib.Data.List.Nodup
import HaikuAgent.Foundation.Delimited
import HaikuAgent.Model.Runner

/-!
# Placeholder substitution

`substitute_scalar` cuts its input at the placeholders and replaces those that name an entry
of the table (`substituteScalar_eq`), in one pass: the pieces do not depend on the table.

`resolve` maps the strings of a node. A string that is one placeholder naming a list becomes
the list, but for `\x7b\x7b\x7d\x7d` (`resolve_iff`).
-/

set_option autoImplicit false

namespace HaikuAgent.Analysis.Placeholders

open HaikuAgent.Foundation
open HaikuAgent.Model
open HaikuAgent.Model.Json
open HaikuAgent.Model.Runner

/-- The delimiters of a placeholder. -/
def braces : Delimiters UInt8 where
  opening := [123, 123]
  closing := [125, 125]
  opening_ne_nil := List.cons_ne_nil _ _
  closing_ne_nil := List.cons_ne_nil _ _

/-- A piece, as it stands in the result: a hole naming a value is filled with a text of it. -/
def fill (text : Value → Bytes) (lookup : Bytes → Option Value) : Piece UInt8 → Bytes
  | .text s => s
  | .hole inner =>
    match lookup (trim inner) with
    | none => braces.source (.hole inner)
    | some v => text v

/-! ## The scan -/

/-- Searching for a pattern is splitting the text at its first occurrence. -/
theorem find_eq_splitFirst (s pat : Bytes) (hpat : pat ≠ []) (start : ℕ) (hstart : start ≤ s.length) :
    find s pat start = (splitFirst pat (s.drop start)).map fun split => start + split.1.length := by
  cases hsplit : splitFirst pat (s.drop start) with
  | none =>
    have habsent := (splitFirst_eq_none hpat _).mp hsplit
    rw [Option.map_none, find_eq_none]
    intro i hi _ hpre
    apply habsent
    have hdrop : s.drop i = (s.drop start).drop (i - start) := by
      rw [List.drop_drop, Nat.add_sub_cancel' hi]
    rw [hdrop] at hpre
    exact hpre.isInfix.trans (List.drop_suffix _ _).isInfix
  | some split =>
    obtain ⟨front, back⟩ := split
    obtain ⟨hs, habsent⟩ := (splitFirst_eq_some hpat _ _ _).mp hsplit
    have hlength := congrArg List.length hs
    simp only [List.length_drop, List.length_append] at hlength
    simp only [Option.map_some]
    rw [find_eq_some]
    refine ⟨Nat.le_add_right _ _, by omega, ?_, ?_⟩
    · rw [← List.drop_drop, hs, List.append_assoc, List.drop_left]
      exact List.prefix_append _ _
    · intro j hj hlt
      have hbefore := habsent (j - start) (by omega)
      rw [List.drop_drop, Nat.add_sub_cancel' hj] at hbefore
      exact hbefore

/-- The search for the closing braces may begin at the opening ones. -/
theorem splitFirst_closing (rest : Bytes) :
    splitFirst braces.closing (braces.opening ++ rest) =
      (splitFirst braces.closing rest).map fun split => (braces.opening ++ split.1, split.2) := by
  have hne (c : Bytes) : ¬[(125 : UInt8), 125] <+: 123 :: c := by
    intro h
    exact absurd (List.cons_prefix_cons.mp h).1 (by decide)
  simp [braces, splitFirst, hne, Function.comp_def]

/-- An empty text is cut into one empty piece. -/
theorem cut_nil : braces.cut [] = [.text []] := by
  apply braces.cut_last
  intro before inner after hfirst
  have hopening := braces.opening_ne_nil
  have hsource := hfirst.source
  simp_all

/-- The opening braces that the search from `i` on finds, and what follows them. -/
theorem drop_opening {input before rest : Bytes} {i : ℕ}
    (hopen : splitFirst braces.opening (input.drop i) = some (before, rest)) :
    i + before.length ≤ input.length ∧ input.drop (i + before.length) = braces.opening ++ rest := by
  have hinput := ((splitFirst_eq_some braces.opening_ne_nil _ _ _).mp hopen).1
  constructor
  · have hlength := congrArg List.length hinput
    simp only [List.length_drop, List.length_append, braces, List.length_cons] at hlength
    omega
  · rw [← List.drop_drop, hinput, List.append_assoc, List.drop_left]

/-- Where the two searches from `i` on find a placeholder. -/
theorem find_firstHole (input : Bytes) (i : ℕ) (before inner after : Bytes) (hi : i ≤ input.length)
    (h : braces.FirstHole (input.drop i) before inner after) :
    find input braces.opening i = some (i + before.length) ∧
      find input braces.closing (i + before.length) = some (i + before.length + 2 + inner.length) := by
  obtain ⟨rest, hopen, hclose⟩ := (braces.firstHole_iff _ _ _ _).mp h
  obtain ⟨hbefore, hat⟩ := drop_opening hopen
  constructor
  · rw [find_eq_splitFirst _ _ braces.opening_ne_nil _ hi, hopen, Option.map_some]
  · rw [find_eq_splitFirst _ _ braces.closing_ne_nil _ hbefore, hat, splitFirst_closing, hclose]
    simp [braces]
    omega

/-- Where there is none, one of them fails. -/
theorem find_no_hole (input : Bytes) (i : ℕ) (hi : i ≤ input.length)
    (h : ∀ before inner after, ¬braces.FirstHole (input.drop i) before inner after) :
    ∀ openAt, find input braces.opening i = some openAt → find input braces.closing openAt = none := by
  intro openAt hopenAt
  rw [find_eq_splitFirst _ _ braces.opening_ne_nil _ hi, Option.map_eq_some_iff] at hopenAt
  obtain ⟨⟨before, rest⟩, hopen, rfl⟩ := hopenAt
  obtain ⟨hbefore, hat⟩ := drop_opening hopen
  rw [find_eq_splitFirst _ _ braces.closing_ne_nil _ hbefore, hat, splitFirst_closing]
  cases hclose : splitFirst braces.closing rest with
  | none => rfl
  | some split =>
    obtain ⟨inner, after⟩ := split
    exact absurd ((braces.firstHole_iff _ _ _ _).mpr ⟨rest, hopen, hclose⟩) (h before inner after)

/-- What the loop appends from position `i` on. -/
theorem substituteFrom_eq (input : Bytes) (table : List (Bytes × Value)) (rounds i : ℕ)
    (hi : i ≤ input.length) (hrounds : input.length ≤ rounds + i) :
    substituteFrom input table rounds i =
      (braces.cut (input.drop i)).flatMap (fill scalarText (findEntry table)) := by
  induction rounds generalizing i with
  | zero =>
    have hdrop : input.drop i = [] := List.drop_eq_nil_iff.mpr (by omega)
    simp [substituteFrom, hdrop, cut_nil, fill]
  | succ rounds ih =>
    have hopening : lit "\x7b\x7b" = braces.opening := rfl
    have hclosing : lit "\x7d\x7d" = braces.closing := rfl
    rw [substituteFrom, hopening, hclosing]
    split_ifs with hlt
    · rcases braces.firstHole_cases (input.drop i) with ⟨before, inner, after, hfirst, -⟩ | hnone
      · obtain ⟨hopenAt, hcloseAt⟩ := find_firstHole input i before inner after hi hfirst
        have hinput := hfirst.source
        have hlength := congrArg List.length hinput
        simp only [List.length_drop, List.length_append, braces, List.length_cons, List.length_nil] at hlength
        have hbefore : slice input i before.length = before := by
          rw [slice, hinput, List.append_assoc, List.take_left]
        have hat : input.drop (i + before.length) = braces.source (.hole inner) ++ after := by
          rw [← List.drop_drop, hinput, List.append_assoc, List.drop_left]
          rfl
        have hhole : slice input (i + before.length) (2 + inner.length + 2) = braces.source (.hole inner) := by
          rw [slice, hat]
          simp [braces, Delimiters.source, List.take_append, Nat.add_comm 2]
        have hinner : slice input (i + before.length + 2) inner.length = inner := by
          rw [slice, ← List.drop_drop, hat]
          simp [braces, Delimiters.source]
        have hafter : input.drop (i + before.length + 2 + inner.length + 2) = after := by
          rw [← List.drop_drop, ← List.drop_drop, ← List.drop_drop, hat]
          simp [braces, Delimiters.source]
        have hwidth : i + before.length + 2 + inner.length + 2 - (i + before.length) =
            2 + inner.length + 2 := by omega
        have hname : i + before.length + 2 + inner.length - (i + before.length) - 2 = inner.length := by
          omega
        simp only [hopenAt, hcloseAt]
        rw [ih _ (by omega) (by omega), hafter, Nat.add_sub_cancel_left, hbefore, hwidth, hname, hhole,
          hinner, braces.cut_hole hfirst, List.flatMap_cons, List.flatMap_cons, List.append_assoc]
        rfl
      · rw [braces.cut_last hnone]
        cases hopenAt : find input braces.opening i with
        | none => simp [fill]
        | some openAt => simp [find_no_hole input i hi hnone openAt hopenAt, fill]
    · have hdrop : input.drop i = [] := List.drop_eq_nil_iff.mpr (by omega)
      simp [hdrop, cut_nil, fill]

/-- **`substitute_scalar` is one pass over the pieces of its input.**
SRC: runner.cpp:24-57 -/
theorem substituteScalar_eq (input : Bytes) (table : List (Bytes × Value)) :
    substituteScalar input table = (braces.cut input).flatMap (fill scalarText (findEntry table)) := by
  rw [substituteScalar, substituteFrom_eq input table input.length 0 (Nat.zero_le _) le_rfl, List.drop_zero]

/-! ## The strings of a node -/

mutual

/-- A node with its strings replaced. -/
def mapStrings (f : Bytes → Value) : Value → Value
  | .string s => f s
  | .arr elems => .arr (mapElems f elems)
  | .obj entries => .obj (mapEntries f entries)
  | .null => .null
  | .bool b => .bool b
  | .number n integral => .number n integral

def mapElems (f : Bytes → Value) : List Value → List Value
  | [] => []
  | v :: rest => mapStrings f v :: mapElems f rest

def mapEntries (f : Bytes → Value) : List (Bytes × Value) → List (Bytes × Value)
  | [] => []
  | (key, v) :: rest => (key, mapStrings f v) :: mapEntries f rest

end

mutual

/-- The strings of a node, its keys apart. -/
def strings : Value → List Bytes
  | .string s => [s]
  | .arr elems => elemStrings elems
  | .obj entries => entryStrings entries
  | .null => []
  | .bool _ => []
  | .number _ _ => []

def elemStrings : List Value → List Bytes
  | [] => []
  | v :: rest => strings v ++ elemStrings rest

def entryStrings : List (Bytes × Value) → List Bytes
  | [] => []
  | (_, v) :: rest => strings v ++ entryStrings rest

end

mutual

/-- Two maps agree on a node exactly when they agree on its strings. -/
theorem mapStrings_congr (f g : Bytes → Value) (node : Value) :
    mapStrings f node = mapStrings g node ↔ ∀ s ∈ strings node, f s = g s := by
  cases node with
  | string s => simp [mapStrings, strings]
  | arr elems => simp [mapStrings, strings, mapElems_congr f g elems]
  | obj entries => simp [mapStrings, strings, mapEntries_congr f g entries]
  | null => simp [mapStrings, strings]
  | bool b => simp [mapStrings, strings]
  | number n integral => simp [mapStrings, strings]

/-- Two maps agree on a list exactly when they agree on the strings in it. -/
theorem mapElems_congr (f g : Bytes → Value) (elems : List Value) :
    mapElems f elems = mapElems g elems ↔ ∀ s ∈ elemStrings elems, f s = g s := by
  cases elems with
  | nil => simp [mapElems, elemStrings]
  | cons v rest =>
    simp [mapElems, elemStrings, mapStrings_congr f g v, mapElems_congr f g rest, or_imp, forall_and]

/-- Two maps agree on an object exactly when they agree on the strings in it. -/
theorem mapEntries_congr (f g : Bytes → Value) (entries : List (Bytes × Value)) :
    mapEntries f entries = mapEntries g entries ↔ ∀ s ∈ entryStrings entries, f s = g s := by
  cases entries with
  | nil => simp [mapEntries, entryStrings]
  | cons entry rest =>
    simp [mapEntries, entryStrings, mapStrings_congr f g entry.2, mapEntries_congr f g rest, or_imp,
      forall_and]

end

mutual

/-- Mapping strings to themselves changes no value. -/
theorem mapStrings_string (node : Value) : mapStrings .string node = node := by
  cases node with
  | arr elems => simp [mapStrings, mapElems_string elems]
  | obj entries => simp [mapStrings, mapEntries_string entries]
  | string s => rfl
  | null => rfl
  | bool b => rfl
  | number n integral => rfl

/-- Mapping strings to themselves changes no list. -/
theorem mapElems_string (elems : List Value) : mapElems .string elems = elems := by
  cases elems with
  | nil => rfl
  | cons v rest => simp [mapElems, mapStrings_string v, mapElems_string rest]

/-- Mapping strings to themselves changes no object. -/
theorem mapEntries_string (entries : List (Bytes × Value)) : mapEntries .string entries = entries := by
  cases entries with
  | nil => rfl
  | cons entry rest => simp [mapEntries, mapStrings_string entry.2, mapEntries_string rest]

end

/-- What `resolve` makes of a string.
SRC: runner.cpp:172-180 -/
def walkString (table : List (Bytes × Value)) (s : Bytes) : Value :=
  match wholeList table s with
  | some elems => .arr elems
  | none => .string (substituteScalar s table)

mutual

/-- The walk replaces every string of a value and nothing else. -/
theorem walk_eq (table : List (Bytes × Value)) (node : Value) :
    walk table node = mapStrings (walkString table) node := by
  cases node with
  | arr elems => simp [walk, mapStrings, walkElems_eq table elems]
  | obj entries => simp [walk, mapStrings, walkEntries_eq table entries]
  | string s => rfl
  | null => rfl
  | bool b => rfl
  | number n integral => rfl

/-- The walk over a list replaces its strings and nothing else. -/
theorem walkElems_eq (table : List (Bytes × Value)) (elems : List Value) :
    walkElems table elems = mapElems (walkString table) elems := by
  cases elems with
  | nil => rfl
  | cons v rest => simp [walkElems, mapElems, walk_eq table v, walkElems_eq table rest]

/-- The walk over an object replaces the strings among its values and nothing else. -/
theorem walkEntries_eq (table : List (Bytes × Value)) (entries : List (Bytes × Value)) :
    walkEntries table entries = mapEntries (walkString table) entries := by
  cases entries with
  | nil => rfl
  | cons entry rest => simp [walkEntries, mapEntries, walk_eq table entry.2, walkEntries_eq table rest]

end

/-! ## The table -/

/-- The keys of an object are distinct, those of a `std::map`. -/
def UniqueKeys : Value → Prop
  | .obj entries => (entries.map Prod.fst).Nodup
  | _ => True

/-- The value of a parameter: an explicit one, or the declared default. -/
def parameter (parameters docParameters : Value) (key : Bytes) : Option Value :=
  (parameters.find key).or ((docParameters.find key).bind fun declared => declared.find (lit "default"))

/-- Looking a key up in a table with distinct keys finds its entry. -/
theorem lookup_eq_some {α : Type} (entries : List (Bytes × α)) (h : (entries.map Prod.fst).Nodup)
    (key : Bytes) (v : α) : entries.lookup key = some v ↔ (key, v) ∈ entries := by
  induction entries with
  | nil => simp
  | cons entry entries ih =>
    obtain ⟨k, w⟩ := entry
    rw [List.map_cons, List.nodup_cons] at h
    rw [lookup_cons_eq, List.mem_cons, Prod.mk.injEq]
    split_ifs with hkey
    · have hnot : (key, v) ∉ entries := by
        intro hmem
        exact h.1 (List.mem_map.mpr ⟨_, hmem, hkey⟩)
      rw [hkey] at hnot
      simp [hkey, hnot, eq_comm]
    · simp [hkey, ih h.2]

/-- With distinct keys the order of the entries does not matter. -/
theorem lookup_reverse {α : Type} (entries : List (Bytes × α)) (h : (entries.map Prod.fst).Nodup)
    (key : Bytes) : entries.reverse.lookup key = entries.lookup key := by
  have hrev : (entries.reverse.map Prod.fst).Nodup := by
    rw [List.map_reverse, List.nodup_reverse]
    exact h
  apply Option.ext
  intro v
  rw [lookup_eq_some _ h, lookup_eq_some _ hrev, List.mem_reverse]

/-- The declared defaults. -/
def defaults (entries : List (Bytes × Value)) : List (Bytes × Value) :=
  entries.filterMap fun entry => (entry.2.find (lit "default")).map fun v => (entry.1, v)

/-- A declared parameter adds its default, if it has one. -/
theorem defaults_cons (k : Bytes) (declared : Value) (entries : List (Bytes × Value)) :
    defaults ((k, declared) :: entries) =
      ((declared.find (lit "default")).map fun v => (k, v)).toList ++ defaults entries := by
  rw [defaults, List.filterMap_cons]
  cases declared.find (lit "default") <;> rfl

/-- The table of defaults is filled in the order of the declarations. -/
theorem foldl_defaults (entries table : List (Bytes × Value)) :
    entries.foldl (fun table kv =>
        match kv.2.find (lit "default") with
        | some d => setEntry table kv.1 d
        | none => table) table =
      (defaults entries).foldl (fun table kv => setEntry table kv.1 kv.2) table := by
  induction entries generalizing table with
  | nil => rfl
  | cons entry entries ih =>
    rw [List.foldl_cons, ih, defaults_cons]
    cases entry.2.find (lit "default") <;> rfl

/-- The keys with a default are among the declared ones, in their order. -/
theorem keys_defaults (entries : List (Bytes × Value)) :
    ((defaults entries).map Prod.fst).Sublist (entries.map Prod.fst) := by
  induction entries with
  | nil => exact List.Sublist.slnil
  | cons entry entries ih =>
    rw [defaults_cons]
    cases entry.2.find (lit "default") with
    | none => exact ih.cons _
    | some d => exact ih.cons_cons _

/-- The default of a key is that of its declaration. -/
theorem lookup_defaults (entries : List (Bytes × Value)) (h : (entries.map Prod.fst).Nodup) (key : Bytes) :
    (defaults entries).lookup key =
      (entries.lookup key).bind fun declared => declared.find (lit "default") := by
  induction entries with
  | nil => rfl
  | cons entry entries ih =>
    obtain ⟨k, declared⟩ := entry
    rw [List.map_cons, List.nodup_cons] at h
    rw [defaults_cons, lookup_cons_eq, List.lookup_append, ih h.2]
    split_ifs with hkey
    · have hnone : entries.lookup key = none := by
        apply Option.eq_none_iff_forall_ne_some.mpr
        intro v hv
        exact h.1 (List.mem_map.mpr ⟨_, (lookup_eq_some _ h.2 key v).mp hv, hkey⟩)
      rw [hnone, hkey]
      simp only [Option.bind_some, Option.bind_none]
      cases declared.find (lit "default") <;> simp
    · cases declared.find (lit "default") <;> simp [lookup_cons_eq, hkey]

/-- The defaults' part of the table. -/
def defaultsTable (docParameters : Value) : List (Bytes × Value) :=
  match docParameters with
  | .obj entries => entries.foldl (fun table kv =>
      match kv.2.find (lit "default") with
      | some d => setEntry table kv.1 d
      | none => table) []
  | _ => []

/-- The table of defaults holds the default of every declared parameter. -/
theorem lookup_defaultsTable (docParameters : Value) (h : UniqueKeys docParameters) (key : Bytes) :
    (defaultsTable docParameters).lookup key =
      (docParameters.find key).bind fun declared => declared.find (lit "default") := by
  cases docParameters with
  | obj entries =>
    have hkeys := (keys_defaults entries).nodup h
    rw [defaultsTable, foldl_defaults, lookup_foldl_setEntry, List.append_nil, lookup_reverse _ hkeys,
      lookup_defaults _ h]
    rfl
  | _ => rfl

/-- The table holds the parameters.
SRC: runner.cpp:60-72 -/
theorem findEntry_parameterTable (parameters docParameters : Value) (hparameters : UniqueKeys parameters)
    (hdoc : UniqueKeys docParameters) (key : Bytes) :
    findEntry (parameterTable parameters docParameters) key = parameter parameters docParameters key := by
  have hdefaults := lookup_defaultsTable docParameters hdoc key
  unfold parameter
  rw [← hdefaults]
  cases parameters with
  | obj entries =>
    have htable : parameterTable (.obj entries) docParameters =
        entries.foldl (fun table kv => setEntry table kv.1 kv.2) (defaultsTable docParameters) := rfl
    rw [findEntry, htable, lookup_foldl_setEntry, List.lookup_append, lookup_reverse _ hparameters]
    rfl
  | _ => rfl

/-! ## One placeholder -/

/-- A pattern found from the right stands where it was found. -/
theorem prefix_of_rfind (s pat : Bytes) (i : ℕ) (h : rfind s pat = some i) : pat <+: s.drop i := by
  have hfound := List.find?_some h
  exact List.isPrefixOf_iff_prefix.mp hfound

/-- A pattern at the end of the string is the last one. -/
theorem rfind_append (front pat : Bytes) :
    rfind (front ++ pat) pat = some front.length := by
  unfold rfind
  rw [List.find?_eq_some_iff_append]
  refine ⟨by simp, (List.range' (front.length + 1) pat.length).reverse, (List.range front.length).reverse,
    ?_, ?_⟩
  · have hsplit : List.range ((front ++ pat).length + 1) =
        List.range front.length ++ front.length :: List.range' (front.length + 1) pat.length := by
      rw [List.length_append, Nat.add_assoc, List.range_add, List.range'_eq_map_range, List.range_succ_eq_map]
      simp [Function.comp_def, Nat.add_comm, Nat.add_left_comm]
    rw [hsplit]
    simp
  · intro i hi
    rw [List.mem_reverse, List.mem_range'_1] at hi
    rw [Bool.not_eq_true', ← Bool.not_eq_true, List.isPrefixOf_iff_prefix]
    intro hpre
    have hlength := hpre.length_le
    rw [List.length_drop, List.length_append] at hlength
    omega

/-- A string that is one placeholder, as `resolve` looks for it. -/
theorem wholeList_eq_some (table : List (Bytes × Value)) (s : Bytes) (elems : List Value) :
    wholeList table s = some elems ↔ ∃ inner, inner ≠ [] ∧ trim s = braces.source (.hole inner) ∧
      findEntry table (trim inner) = some (.arr elems) := by
  have hopening : lit "\x7b\x7b" = braces.opening := rfl
  have hclosing : lit "\x7d\x7d" = braces.closing := rfl
  unfold wholeList startsWith
  rw [hopening, hclosing]
  simp only [List.isPrefixOf_iff_prefix]
  generalize trim s = t
  constructor
  · intro h
    split_ifs at h with hshape
    obtain ⟨hlong, ⟨rest, rfl⟩, hend⟩ := hshape
    have hlength : (braces.opening ++ rest).length = rest.length + 2 := by
      simp [braces]
    rw [hlength] at hlong
    have hlast : rest.drop (rest.length - 2) = braces.closing := by
      have hpre := prefix_of_rfind _ _ _ hend
      have hat : (braces.opening ++ rest).length - 2 = braces.opening.length + (rest.length - 2) := by
        simp [braces]
        omega
      rw [hat, ← List.drop_drop, List.drop_left] at hpre
      symm
      apply hpre.eq_of_length
      simp [braces]
      omega
    have hinner : slice (braces.opening ++ rest) 2 ((braces.opening ++ rest).length - 4) =
        rest.take (rest.length - 2) := by
      rw [hlength]
      simp [slice, braces]
    rw [hinner] at h
    refine ⟨rest.take (rest.length - 2), ?_, ?_, ?_⟩
    · intro hnil
      have hempty := congrArg List.length hnil
      rw [List.length_take, List.length_nil] at hempty
      omega
    · rw [Delimiters.source, List.append_assoc, ← hlast, List.take_append_drop]
    · split at h
      · cases h
        assumption
      · cases h
  · rintro ⟨inner, hinner, rfl, hfound⟩
    have hpos := List.length_pos_iff.mpr hinner
    have hlength : (braces.source (.hole inner)).length = inner.length + 4 := by
      simp [braces, Delimiters.source]
    have hend : rfind (braces.source (.hole inner)) braces.closing = some (inner.length + 2) := by
      rw [Delimiters.source, rfind_append]
      simp [braces]
    have hname : slice (braces.source (.hole inner)) 2 inner.length = inner := by
      simp [slice, braces, Delimiters.source]
    have hstart : braces.opening <+: braces.source (.hole inner) :=
      ⟨inner ++ braces.closing, (List.append_assoc _ _ _).symm⟩
    rw [if_pos ⟨by omega, hstart, by rw [hend, hlength]; rfl⟩, hlength, Nat.add_sub_cancel, hname, hfound]

/-! ## What a string stands for -/

/-- The inside of a string that is exactly one placeholder, blanks around it apart. -/
def onePlaceholder (s : Bytes) : Option Bytes :=
  match braces.cut (trim s) with
  | [.text [], .hole inner, .text []] => some inner
  | _ => none

/-- What a string of a node is to be replaced by: the list that it names, or its text with the
placeholders filled in. -/
def expectedString (lookup : Bytes → Option Value) (s : Bytes) : Value :=
  match (onePlaceholder s).bind fun inner => lookup (trim inner) with
  | some (.arr elems) => .arr elems
  | _ => .string ((braces.cut s).flatMap (fill scalarText lookup))

def NoBraces (s : Bytes) : Prop := 123 ∉ s ∧ 125 ∉ s

/-- A byte that is not blank is not dropped with the leading blanks. -/
theorem mem_dropWhile {c : UInt8} {s : Bytes} (hc : c ∈ s) (hblank : isBlank c = false) :
    c ∈ s.dropWhile isBlank := by
  rw [← List.takeWhile_append_dropWhile (p := isBlank) (l := s), List.mem_append] at hc
  apply hc.resolve_left
  intro htaken
  rw [List.mem_takeWhile_imp htaken] at hblank
  cases hblank

/-- A byte that is not blank is not trimmed. -/
theorem mem_trim {c : UInt8} {s : Bytes} (hc : c ∈ s) (hblank : isBlank c = false) : c ∈ trim s := by
  have hleft := mem_dropWhile hc hblank
  unfold trim List.rdropWhile
  rw [List.mem_reverse]
  exact mem_dropWhile (List.mem_reverse.mpr hleft) hblank

/-- Braces survive the trimming. -/
theorem noBraces_of_trim {s : Bytes} (h : NoBraces (trim s)) : NoBraces s :=
  ⟨fun hc => h.1 (mem_trim hc rfl), fun hc => h.2 (mem_trim hc rfl)⟩

/-- A placeholder without other braces around it is the first hole. -/
theorem firstHole_of_noBraces (before inner after : Bytes) (hbefore : NoBraces before) (hinner : NoBraces inner) :
    braces.FirstHole (before ++ (braces.source (.hole inner) ++ after)) before inner after := by
  refine ⟨by simp [Delimiters.source], ?_, ?_⟩
  · exact absentBefore_append 123 [123] before _ hbefore.1
  · rw [List.append_assoc]
    exact absentBefore_append 125 [125] inner _ hinner.2

/-- A text taken for one placeholder is that placeholder between blanks. -/
theorem onePlaceholder_eq_some {s inner : Bytes} (h : onePlaceholder s = some inner) :
    trim s = braces.source (.hole inner) := by
  unfold onePlaceholder at h
  split at h
  · rename_i inner' hcut
    cases h
    have hsource := braces.source_cut (trim s)
    rw [hcut] at hsource
    simpa [Delimiters.source] using hsource.symm
  · cases h

/-- A single placeholder without braces in its name is taken for one. -/
theorem onePlaceholder_of_noBraces {s inner : Bytes} (h : trim s = braces.source (.hole inner))
    (hinner : NoBraces inner) : onePlaceholder s = some inner := by
  have hfirst := firstHole_of_noBraces [] inner [] ⟨List.not_mem_nil, List.not_mem_nil⟩ hinner
  rw [List.nil_append, List.append_nil] at hfirst
  unfold onePlaceholder
  rw [h, braces.cut_hole hfirst, cut_nil]

/-- What `trim` takes away. -/
theorem trim_within (s : Bytes) : ∃ before after, s = before ++ (trim s ++ after) ∧ NoBraces before := by
  obtain ⟨after, hafter⟩ := List.rdropWhile_prefix isBlank (s.dropWhile isBlank)
  refine ⟨s.takeWhile isBlank, after, ?_, ?_⟩
  · unfold trim
    rw [hafter, List.takeWhile_append_dropWhile]
  · constructor
    · intro hc
      cases List.mem_takeWhile_imp hc
    · intro hc
      cases List.mem_takeWhile_imp hc

/-- A single placeholder is a hole of the text it stands in. -/
theorem hole_mem_cut {s inner : Bytes} (h : trim s = braces.source (.hole inner)) (hinner : NoBraces inner) :
    .hole inner ∈ braces.cut s := by
  obtain ⟨before, after, hs, hbefore⟩ := trim_within s
  have hfirst := firstHole_of_noBraces _ _ after hbefore hinner
  rw [← h, ← hs] at hfirst
  rw [braces.cut_hole hfirst]
  exact List.mem_cons_of_mem _ List.mem_cons_self

section Node

variable (parameters docParameters : Value) (hparameters : UniqueKeys parameters)
  (hdoc : UniqueKeys docParameters)
  (hkeys : ∀ key v, parameter parameters docParameters key = some v → NoBraces key)

include hparameters hdoc hkeys

/-- The two views of a string differ on empty braces only. -/
theorem walkString_iff (s : Bytes) :
    walkString (parameterTable parameters docParameters) s =
        expectedString (parameter parameters docParameters) s ↔
      ¬(trim s = braces.source (.hole []) ∧
        ∃ elems, parameter parameters docParameters [] = some (.arr elems)) := by
  have hlookup : findEntry (parameterTable parameters docParameters) = parameter parameters docParameters :=
    funext (findEntry_parameterTable parameters docParameters hparameters hdoc)
  unfold walkString expectedString
  rw [substituteScalar_eq, hlookup]
  by_cases hone : ∃ inner elems, trim s = braces.source (.hole inner) ∧
      parameter parameters docParameters (trim inner) = some (.arr elems)
  · obtain ⟨inner, elems, hs, hfound⟩ := hone
    have hinner : NoBraces inner := noBraces_of_trim (hkeys _ _ hfound)
    rw [onePlaceholder_of_noBraces hs hinner, Option.bind_some, hfound]
    by_cases hempty : inner = []
    · subst hempty
      have hnone : wholeList (parameterTable parameters docParameters) s = none := by
        apply Option.eq_none_iff_forall_ne_some.mpr
        intro elems' hlist
        obtain ⟨inner', hne, hs', -⟩ := (wholeList_eq_some _ _ _).mp hlist
        rw [hs] at hs'
        exact hne (by simpa [Delimiters.source, braces] using hs'.symm)
      rw [hnone]
      have hcond : trim s = braces.source (.hole []) ∧
          ∃ elems, parameter parameters docParameters [] = some (.arr elems) := ⟨hs, elems, hfound⟩
      simp [hcond]
    · have hlist : wholeList (parameterTable parameters docParameters) s = some elems :=
        (wholeList_eq_some _ _ _).mpr ⟨inner, hempty, hs, hlookup ▸ hfound⟩
      have hcond : ¬trim s = braces.source (.hole []) := by
        intro hs'
        rw [hs] at hs'
        exact hempty (by simpa [Delimiters.source, braces] using hs')
      simp [hlist, hcond]
  · have hnone : wholeList (parameterTable parameters docParameters) s = none := by
      apply Option.eq_none_iff_forall_ne_some.mpr
      intro elems hlist
      obtain ⟨inner, -, hs, hfound⟩ := (wholeList_eq_some _ _ _).mp hlist
      exact hone ⟨inner, elems, hs, hlookup ▸ hfound⟩
    have hcond : ¬(trim s = braces.source (.hole []) ∧
        ∃ elems, parameter parameters docParameters [] = some (.arr elems)) := by
      rintro ⟨hs, elems, hfound⟩
      exact hone ⟨[], elems, hs, hfound⟩
    rw [hnone]
    dsimp only
    split
    · rename_i elems hbind
      obtain ⟨inner, hinner, hfound⟩ := Option.bind_eq_some_iff.mp hbind
      exact absurd ⟨inner, elems, onePlaceholder_eq_some hinner, hfound⟩ hone
    · simp [hcond]

/-- A string without a placeholder that names a value is left as it is. -/
theorem walkString_unnamed (s : Bytes)
    (hnames : ∀ inner, .hole inner ∈ braces.cut s → parameter parameters docParameters (trim inner) = none) :
    walkString (parameterTable parameters docParameters) s = .string s := by
  have hlookup : findEntry (parameterTable parameters docParameters) = parameter parameters docParameters :=
    funext (findEntry_parameterTable parameters docParameters hparameters hdoc)
  have hnone : wholeList (parameterTable parameters docParameters) s = none := by
    apply Option.eq_none_iff_forall_ne_some.mpr
    intro elems hlist
    obtain ⟨inner, -, hs, hfound⟩ := (wholeList_eq_some _ _ _).mp hlist
    rw [hlookup] at hfound
    have hmem := hole_mem_cut hs (noBraces_of_trim (hkeys _ _ hfound))
    rw [hnames inner hmem] at hfound
    cases hfound
  have hfill : ∀ piece ∈ braces.cut s,
      fill scalarText (parameter parameters docParameters) piece = braces.source piece := by
    intro piece hpiece
    cases piece with
    | text t => rfl
    | hole inner => simp [fill, hnames inner hpiece]
  unfold walkString
  rw [hnone, substituteScalar_eq, hlookup, List.flatMap_congr hfill, braces.source_cut]

end Node

/-- **Placeholders are substituted in one pass**, over the pieces of each string, whatever values
the table gives them; `resolve` replaces the strings of a node and nothing else. A string that
names a list becomes the list unless the name is empty and no blank is between the braces.
SRC: runner.cpp:24-72, 165-197 -/
theorem resolve_iff (node parameters docParameters : Value) (hparameters : UniqueKeys parameters)
    (hdoc : UniqueKeys docParameters)
    (hkeys : ∀ key v, parameter parameters docParameters key = some v → NoBraces key) :
    let lookup := parameter parameters docParameters
    (∀ s pieces, braces.Cuts s pieces →
      substituteScalar s (parameterTable parameters docParameters) = pieces.flatMap (fill scalarText lookup)) ∧
    (resolve node parameters docParameters = mapStrings (expectedString lookup) node ↔
      ∀ s ∈ strings node, ¬(trim s = braces.source (.hole []) ∧ ∃ elems, lookup [] = some (.arr elems))) ∧
    ((∀ s ∈ strings node, ∀ inner, .hole inner ∈ braces.cut s → lookup (trim inner) = none) →
      resolve node parameters docParameters = node) := by
  refine ⟨?_, ?_, ?_⟩
  · intro s pieces hcuts
    have hlookup := funext (findEntry_parameterTable parameters docParameters hparameters hdoc)
    rw [(braces.cuts_iff s pieces).mp hcuts, substituteScalar_eq, hlookup]
  · unfold resolve
    rw [walk_eq, mapStrings_congr]
    apply forall₂_congr
    intro s _
    exact walkString_iff parameters docParameters hparameters hdoc hkeys s
  · intro hnames
    have hsame : mapStrings (walkString (parameterTable parameters docParameters)) node =
        mapStrings .string node := by
      rw [mapStrings_congr]
      intro s hs
      exact walkString_unnamed parameters docParameters hparameters hdoc hkeys s (hnames s hs)
    unfold resolve
    rw [walk_eq, hsame, mapStrings_string]

/-- One parameter. -/
def oneParameter (name : Bytes) (v : Value) : Value := .obj [(name, v)]

/-- A document without parameters has distinct keys. -/
theorem uniqueKeys_null : UniqueKeys .null := trivial

/-- One parameter has distinct keys. -/
theorem uniqueKeys_oneParameter (name : Bytes) (v : Value) : UniqueKeys (oneParameter name v) :=
  List.nodup_singleton name

/-- The only parameter there is resolves by its own name. -/
theorem parameter_oneParameter (name : Bytes) (v : Value) (key : Bytes) :
    parameter (oneParameter name v) .null key = if key = name then some v else none := by
  have hfind : (oneParameter name v).find key = if key = name then some v else none :=
    lookup_cons_eq name key v []
  rw [parameter, hfind]
  split_ifs <;> rfl

/-- The only parameter's name has no braces when it is a plain name. -/
theorem noBraces_oneParameter (name : Bytes) (v : Value) (hname : NoBraces name) :
    ∀ key w, parameter (oneParameter name v) .null key = some w → NoBraces key := by
  intro key w h
  rw [parameter_oneParameter] at h
  split_ifs at h with hkey
  rw [hkey]
  exact hname

/-- A parameter whose text is a placeholder is not scanned again. -/
theorem resolve_nested :
    resolve (.string (lit "run \x7b\x7b a \x7d\x7d")) (oneParameter (lit "a") (.string (lit "\x7b\x7b a \x7d\x7d")))
        .null =
      mapStrings (expectedString (parameter (oneParameter (lit "a") (.string (lit "\x7b\x7b a \x7d\x7d"))) .null))
        (.string (lit "run \x7b\x7b a \x7d\x7d")) := by
  apply (resolve_iff _ _ _ (uniqueKeys_oneParameter _ _) uniqueKeys_null (noBraces_oneParameter _ _ ⟨?_, ?_⟩)).2.1.mpr
  · rintro s - ⟨-, elems, hlist⟩
    rw [parameter_oneParameter] at hlist
    cases hlist
  · decide
  · decide

/-- The list under the empty name is not expanded where the braces touch. -/
theorem resolve_emptyName :
    ¬resolve (.string (lit "\x7b\x7b\x7d\x7d")) (oneParameter [] (.arr [.string (lit "ls")])) .null =
      mapStrings (expectedString (parameter (oneParameter [] (.arr [.string (lit "ls")])) .null))
        (.string (lit "\x7b\x7b\x7d\x7d")) := by
  intro h
  have hcond := (walkString_iff _ _ (uniqueKeys_oneParameter _ _) uniqueKeys_null
    (noBraces_oneParameter _ _ ⟨List.not_mem_nil, List.not_mem_nil⟩) (lit "\x7b\x7b\x7d\x7d")).mp h
  apply hcond
  refine ⟨rfl, [.string (lit "ls")], ?_⟩
  rw [parameter_oneParameter, if_pos rfl]

end HaikuAgent.Analysis.Placeholders
