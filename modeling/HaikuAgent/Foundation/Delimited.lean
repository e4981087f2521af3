import Mathlib.Data.List.Basic
import Mathlib.Data.List.Infix

/-!
# Text with delimited holes

A text is cut at the leftmost, shortest stretches that an opening and a closing delimiter
enclose; what stands between the two is a hole. `cut` computes the pieces, `cuts_iff` says
that they are the only ones, and `Piece.source` spells them out again.
-/

set_option autoImplicit false

namespace HaikuAgent.Foundation

variable {α : Type} [DecidableEq α]

/-- The text before and after the first occurrence of a pattern. -/
def splitFirst (pat : List α) : List α → Option (List α × List α)
  | [] => none
  | c :: rest =>
    if pat <+: c :: rest then some ([], (c :: rest).drop pat.length)
    else (splitFirst pat rest).map fun split => (c :: split.1, split.2)

/-- The pattern is not there before position `n`. -/
def AbsentBefore (pat s : List α) (n : ℕ) : Prop := ∀ j < n, ¬pat <+: s.drop j

omit [DecidableEq α] in
/-- A pattern that is absent at the front is looked for behind it. -/
theorem absentBefore_cons (pat : List α) (c : α) (s : List α) (n : ℕ) :
    AbsentBefore pat (c :: s) (n + 1) ↔ ¬pat <+: c :: s ∧ AbsentBefore pat s n := by
  constructor
  · intro h
    refine ⟨h 0 (Nat.succ_pos n), ?_⟩
    intro j hj
    exact h (j + 1) (Nat.succ_lt_succ hj)
  · rintro ⟨hfirst, hrest⟩ j hj
    cases j with
    | zero => exact hfirst
    | succ j => exact hrest j (Nat.lt_of_succ_lt_succ hj)

omit [DecidableEq α] in
/-- A pattern does not begin where its first element is not. -/
theorem absentBefore_append (c : α) (pat front back : List α) (h : c ∉ front) :
    AbsentBefore (c :: pat) (front ++ back) front.length := by
  induction front with
  | nil => simp [AbsentBefore]
  | cons b front ih =>
    rw [List.mem_cons, not_or] at h
    rw [List.cons_append, List.length_cons, absentBefore_cons]
    refine ⟨?_, ih h.2⟩
    intro hpre
    exact h.1 (List.cons_prefix_cons.mp hpre).1

/-- Nothing is split off where the pattern does not occur. -/
theorem splitFirst_eq_none {pat : List α} (hpat : pat ≠ []) (s : List α) :
    splitFirst pat s = none ↔ ¬pat <:+: s := by
  induction s with
  | nil => simp [splitFirst, hpat]
  | cons c s ih =>
    rw [splitFirst, List.infix_cons_iff]
    split_ifs with h
    · simp [h]
    · simp [h, ih]

/-- The text is split at the first occurrence of the pattern. -/
theorem splitFirst_eq_some {pat : List α} (hpat : pat ≠ []) (s front back : List α) :
    splitFirst pat s = some (front, back) ↔
      s = front ++ pat ++ back ∧ AbsentBefore pat s front.length := by
  induction s generalizing front with
  | nil =>
    constructor
    · intro h
      cases h
    · rintro ⟨heq, -⟩
      simp [hpat] at heq
  | cons c s ih =>
    rw [splitFirst]
    split_ifs with h
    · obtain ⟨after, hafter⟩ := h
      rw [← hafter, List.drop_left]
      constructor
      · intro heq
        obtain ⟨rfl, rfl⟩ : [] = front ∧ after = back := by simpa using heq
        simp [AbsentBefore]
      · rintro ⟨heq, habsent⟩
        cases front with
        | nil => simpa using heq
        | cons b front => exact absurd ⟨after, rfl⟩ (habsent 0 (Nat.succ_pos _))
    · cases front with
      | nil =>
        constructor
        · intro hsplit
          simp at hsplit
        · rintro ⟨heq, -⟩
          exact absurd ⟨back, heq.symm⟩ h
      | cons b front =>
        have hrec := ih front
        rw [List.length_cons, absentBefore_cons]
        simp only [Option.map_eq_some_iff, Prod.exists, Prod.mk.injEq, List.cons_append,
          List.cons.injEq, h, not_false_iff, true_and]
        constructor
        · rintro ⟨front', back', hsplit, ⟨rfl, rfl⟩, rfl⟩
          obtain ⟨heq, habsent⟩ := hrec.mp hsplit
          exact ⟨⟨rfl, heq⟩, habsent⟩
        · rintro ⟨⟨rfl, heq⟩, habsent⟩
          exact ⟨front, back, hrec.mpr ⟨heq, habsent⟩, ⟨rfl, rfl⟩, rfl⟩

/-- What is behind the pattern is shorter than the text. -/
theorem splitFirst_length {pat s front back : List α} (hpat : pat ≠ [])
    (h : splitFirst pat s = some (front, back)) : back.length < s.length := by
  have hpos := List.length_pos_iff.mpr hpat
  rw [((splitFirst_eq_some hpat s front back).mp h).1]
  simp
  omega

/-- An opening and a closing delimiter. -/
structure Delimiters (α : Type) where
  opening : List α
  closing : List α
  opening_ne_nil : opening ≠ []
  closing_ne_nil : closing ≠ []

/-- A piece of a text. -/
inductive Piece (α : Type) where
  | text (s : List α)
  | hole (inner : List α)
  deriving DecidableEq

namespace Delimiters

variable (d : Delimiters α)

/-- The pieces of a text: up to the first hole, the hole, and the pieces of the rest. -/
def cut (s : List α) : List (Piece α) :=
  match _hopen : splitFirst d.opening s with
  | none => [.text s]
  | some (before, rest) =>
    match _hclose : splitFirst d.closing rest with
    | none => [.text s]
    | some (inner, after) => .text before :: .hole inner :: cut after
  termination_by s.length
  decreasing_by
    exact (splitFirst_length d.closing_ne_nil ‹_›).trans (splitFirst_length d.opening_ne_nil ‹_›)

omit [DecidableEq α] in
/-- A piece, as it stood in the text. -/
def source : Piece α → List α
  | .text s => s
  | .hole inner => d.opening ++ inner ++ d.closing

/-- `s` starts with the text `before` and the hole `inner`, the leftmost and shortest one;
`after` follows it. -/
structure FirstHole (s before inner after : List α) : Prop where
  source : s = before ++ (d.opening ++ inner ++ d.closing) ++ after
  leftmost : AbsentBefore d.opening s before.length
  shortest : AbsentBefore d.closing (inner ++ d.closing ++ after) inner.length

/-- The pieces of a text, as a relation. -/
inductive Cuts : List α → List (Piece α) → Prop where
  | last (s : List α) (hnone : ∀ before inner after, ¬d.FirstHole s before inner after) :
    Cuts s [.text s]
  | hole (s before inner after : List α) (pieces : List (Piece α))
      (hfirst : d.FirstHole s before inner after) (hrest : Cuts after pieces) :
    Cuts s (.text before :: .hole inner :: pieces)

/-- The first hole is found by looking for the opening and, behind it, for the closing. -/
theorem firstHole_iff (s before inner after : List α) :
    d.FirstHole s before inner after ↔
      ∃ rest, splitFirst d.opening s = some (before, rest) ∧
        splitFirst d.closing rest = some (inner, after) := by
  constructor
  · rintro ⟨hsource, hleftmost, hshortest⟩
    refine ⟨inner ++ d.closing ++ after, ?_, ?_⟩
    · rw [splitFirst_eq_some d.opening_ne_nil]
      exact ⟨by simp [hsource], hleftmost⟩
    · rw [splitFirst_eq_some d.closing_ne_nil]
      exact ⟨rfl, hshortest⟩
  · rintro ⟨rest, hopen, hclose⟩
    obtain ⟨hs, hleftmost⟩ := (splitFirst_eq_some d.opening_ne_nil _ _ _).mp hopen
    obtain ⟨rfl, hshortest⟩ := (splitFirst_eq_some d.closing_ne_nil _ _ _).mp hclose
    exact ⟨by simp [hs], hleftmost, hshortest⟩

/-- A text without a hole is one piece. -/
theorem cut_last {s : List α} (h : ∀ before inner after, ¬d.FirstHole s before inner after) :
    d.cut s = [.text s] := by
  rw [cut]
  split
  · rfl
  · rename_i before rest hopen
    split
    · rfl
    · rename_i inner after hclose
      exact absurd ((d.firstHole_iff s before inner after).mpr ⟨rest, hopen, hclose⟩) (h _ _ _)

/-- A text with a hole is cut before and behind it. -/
theorem cut_hole {s before inner after : List α} (h : d.FirstHole s before inner after) :
    d.cut s = .text before :: .hole inner :: d.cut after := by
  obtain ⟨rest, hopen, hclose⟩ := (d.firstHole_iff s before inner after).mp h
  rw [cut]
  split
  · rename_i hnone
    rw [hopen] at hnone
    cases hnone
  · rename_i before' rest' hsome
    rw [hopen] at hsome
    cases hsome
    split
    · rename_i hnone
      rw [hclose] at hnone
      cases hnone
    · rename_i inner' after' hsome
      rw [hclose] at hsome
      cases hsome
      rfl

omit [DecidableEq α] in
/-- A text has a first hole, or is one piece. -/
theorem firstHole_cases (s : List α) :
    (∃ before inner after, d.FirstHole s before inner after ∧ after.length < s.length) ∨
      ∀ before inner after, ¬d.FirstHole s before inner after := by
  by_cases h : ∃ before inner after, d.FirstHole s before inner after
  · obtain ⟨before, inner, after, hfirst⟩ := h
    have hpos := List.length_pos_iff.mpr d.opening_ne_nil
    have hlength := congrArg List.length hfirst.source
    simp at hlength
    exact Or.inl ⟨before, inner, after, hfirst, by omega⟩
  · push Not at h
    exact Or.inr h

omit [DecidableEq α] in
/-- Induction on the pieces of a text. -/
theorem cut_induction {P : List α → Prop}
    (last : ∀ s, (∀ before inner after, ¬d.FirstHole s before inner after) → P s)
    (hole : ∀ s before inner after, d.FirstHole s before inner after → P after → P s) (s : List α) :
    P s := by
  induction hn : s.length using Nat.strong_induction_on generalizing s with
  | _ n ih =>
    rcases d.firstHole_cases s with ⟨before, inner, after, hfirst, hlt⟩ | hnone
    · exact hole s before inner after hfirst (ih _ (hn ▸ hlt) after rfl)
    · exact last s hnone

/-- The pieces spell the text. -/
theorem source_cut (s : List α) : (d.cut s).flatMap d.source = s := by
  induction s using d.cut_induction with
  | last s hnone => simp [d.cut_last hnone, source]
  | hole s before inner after hfirst ih =>
    rw [d.cut_hole hfirst, List.flatMap_cons, List.flatMap_cons, ih, hfirst.source]
    simp [source]

/-- `cut` gives the pieces, and no other list is one. -/
theorem cuts_iff (s : List α) (pieces : List (Piece α)) : d.Cuts s pieces ↔ pieces = d.cut s := by
  constructor
  · intro h
    induction h with
    | last s hnone => rw [d.cut_last hnone]
    | hole s before inner after pieces hfirst hrest ih => rw [d.cut_hole hfirst, ih]
  · rintro rfl
    induction s using d.cut_induction with
    | last s hnone =>
      rw [d.cut_last hnone]
      exact .last s hnone
    | hole s before inner after hfirst ih =>
      rw [d.cut_hole hfirst]
      exact .hole s before inner after _ hfirst ih

end Delimiters

end HaikuAgent.Foundation
