import Mathlib.Data.List.DropRight

/-!
# Pieces between separators

`List.splitOn` of a list that goes on: the pieces that a separator has ended stay as they are,
and only the last one grows (`splitOn_append`). So what a prefix of a text says of the whole
text is all of its pieces but the last. A text that ends each of its pieces is split into them
(`splitOn_flatMap`), and stripping a piece takes off what was put around it (`strip_surrounded`).
-/

set_option autoImplicit false

namespace HaikuAgent.Foundation

variable {α : Type} [DecidableEq α] (sep : α)

/-- The pieces of `s` with a separator behind them. -/
def endedPieces (s : List α) : List (List α) := (s.splitOn sep).dropLast

/-- What stands behind the last separator. -/
def lastPiece (s : List α) : List α := s.rtakeWhile fun x => decide (x ≠ sep)

/-- The last piece goes on to the end, so no separator is in it. -/
theorem not_mem_lastPiece (s : List α) : sep ∉ lastPiece sep s := by
  intro hmem
  have h := List.mem_rtakeWhile_imp hmem
  simp at h

/-- Behind a separator at the end there is an empty piece. -/
theorem lastPiece_concat (s : List α) : lastPiece sep (s ++ [sep]) = [] := by
  apply List.rtakeWhile_concat_neg
  simp

/-- With one separator more, all pieces before it have ended. -/
theorem endedPieces_append_cons (s t : List α) (h : sep ∉ t) :
    endedPieces sep (s ++ sep :: t) = s.splitOn sep := by
  unfold endedPieces
  rw [List.splitOn_append_cons_self, List.splitOn_eq_singleton h, List.dropLast_concat]

/-- A list is its last piece, or has a separator in front of it. -/
theorem lastPiece_cases (s : List α) :
    lastPiece sep s = s ∨ ∃ before, s = before ++ sep :: lastPiece sep s := by
  have hs : (s.rdropWhile fun x => decide (x ≠ sep)) ++ lastPiece sep s = s :=
    List.rdropWhile_append_rtakeWhile
  by_cases hnone : s.rdropWhile (fun x => decide (x ≠ sep)) = []
  · rw [hnone, List.nil_append] at hs
    exact .inl hs
  · have hlast := List.rdropWhile_last_not _ _ hnone
    have hsep : (s.rdropWhile fun x => decide (x ≠ sep)).getLast hnone = sep := by
      simpa using hlast
    have hends := List.dropLast_append_getLast hnone
    rw [hsep] at hends
    refine .inr ⟨(s.rdropWhile fun x => decide (x ≠ sep)).dropLast, ?_⟩
    rw [List.append_cons, hends]
    exact hs.symm

/-- **Only the last piece grows** when something is appended. -/
theorem splitOn_append (s t : List α) :
    (s ++ t).splitOn sep = endedPieces sep s ++ (lastPiece sep s ++ t).splitOn sep := by
  obtain hwhole | ⟨before, hbefore⟩ := lastPiece_cases sep s
  · have hs : sep ∉ s := hwhole ▸ not_mem_lastPiece sep s
    unfold endedPieces
    rw [hwhole, List.splitOn_eq_singleton hs]
    rfl
  · have hended : endedPieces sep s = before.splitOn sep := by
      rw [hbefore]
      exact endedPieces_append_cons sep before _ (not_mem_lastPiece sep s)
    calc (s ++ t).splitOn sep
        = (before ++ sep :: (lastPiece sep s ++ t)).splitOn sep := by
          conv_lhs => rw [hbefore]
          rw [List.append_assoc, List.cons_append]
      _ = before.splitOn sep ++ (lastPiece sep s ++ t).splitOn sep := List.splitOn_append_cons_self _ _
      _ = endedPieces sep s ++ (lastPiece sep s ++ t).splitOn sep := by rw [hended]

/-- The pieces of a list are those that have ended and the last one. -/
theorem splitOn_eq (s : List α) : s.splitOn sep = endedPieces sep s ++ [lastPiece sep s] := by
  have h := splitOn_append sep s []
  rw [List.append_nil, List.append_nil, List.splitOn_eq_singleton (not_mem_lastPiece sep s)] at h
  exact h

/-- **Ended pieces** are split where they end. -/
theorem splitOn_flatMap {β : Type} (text : β → List α) (pieces : List β) (h : ∀ p ∈ pieces, sep ∉ text p) :
    (pieces.flatMap fun p => text p ++ [sep]).splitOn sep = pieces.map text ++ [[]] := by
  induction pieces with
  | nil => exact List.splitOn_nil sep
  | cons p pieces ih =>
    have hp : sep ∉ text p := h p List.mem_cons_self
    have hrest := ih fun q hq => h q (List.mem_cons_of_mem p hq)
    rw [List.flatMap_cons, List.append_assoc, List.singleton_append, List.splitOn_append_cons_self,
      List.splitOn_eq_singleton hp, hrest]
    rfl

section Strip

variable {α : Type} (p : α → Bool)

/-- A list without the elements at its ends that satisfy `p`. -/
def strip (s : List α) : List α := (s.dropWhile p).rdropWhile p

variable {p}

/-- Nothing is dropped where the first element does not ask for it. -/
theorem dropWhile_of_head {s : List α} (h : ∀ c ∈ s.head?, p c = false) : s.dropWhile p = s := by
  cases s with
  | nil => rfl
  | cons c s =>
    apply List.dropWhile_cons_of_neg
    rw [h c rfl]
    exact Bool.false_ne_true

/-- What is dropped from the end does not depend on what was to be dropped behind it. -/
theorem rdropWhile_append_of_pos {s after : List α} (h : ∀ c ∈ after, p c = true) :
    (s ++ after).rdropWhile p = s.rdropWhile p := by
  unfold List.rdropWhile
  rw [List.reverse_append, List.dropWhile_append_of_pos fun c hc => h c (List.mem_reverse.mp hc)]

/-- Stripping does not see what is stripped off behind. -/
theorem strip_append_of_pos {s after : List α} (h : ∀ c ∈ after, p c = true) : strip p (s ++ after) = strip p s := by
  unfold strip
  rw [List.dropWhile_append]
  split
  · next hnil =>
    rw [List.dropWhile_eq_nil_iff.mpr h, List.isEmpty_iff.mp hnil]
  · exact rdropWhile_append_of_pos h

/-- A list whose ends stay is not stripped. -/
theorem strip_of_ends {s : List α} (hhead : ∀ c ∈ s.head?, p c = false) (hlast : ∀ c ∈ s.getLast?, p c = false) :
    strip p s = s := by
  unfold strip
  rw [dropWhile_of_head hhead, List.rdropWhile_eq_self_iff]
  intro hne hp
  rw [hlast _ (List.getLast?_eq_some_getLast hne)] at hp
  exact Bool.false_ne_true hp

/-- **What was put around a list is taken off.** -/
theorem strip_surrounded {before after : List α} (s : List α) (hbefore : ∀ c ∈ before, p c = true)
    (hafter : ∀ c ∈ after, p c = true) : strip p (before ++ (s ++ after)) = strip p s := by
  have hfront : strip p (before ++ (s ++ after)) = strip p (s ++ after) := by
    unfold strip
    rw [List.dropWhile_append_of_pos hbefore]
  rw [hfront]
  exact strip_append_of_pos hafter

/-- What is left of a list begins what its end alone is taken off. -/
theorem strip_prefix_dropWhile (s : List α) : strip p s <+: s.dropWhile p :=
  List.rdropWhile_prefix p _

end Strip

end HaikuAgent.Foundation
