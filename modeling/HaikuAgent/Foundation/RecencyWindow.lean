import Mathlib.Data.Finset.Basic
import Mathlib.Data.Finset.Card
import Mathlib.Data.List.Nodup

/-!
# Recency windows

A bounded history that forgets its oldest element keeps the last `cap` elements
of everything ever inserted (`lastN`). When an element is inserted only while it
is not remembered, equal insertions lie far apart (`Spaced`): the window never
holds an element twice, and between two insertions of one element at least `cap`
others were inserted, all different (`Spaced.between`).
-/

set_option autoImplicit false

namespace HaikuAgent.Foundation

variable {α : Type}

/-- The last `cap` elements of a list. -/
def lastN (cap : ℕ) (l : List α) : List α := l.drop (l.length - cap)

/-- The window is full once there have been enough elements. -/
theorem length_lastN (cap : ℕ) (l : List α) : (lastN cap l).length = min cap l.length := by
  simp only [lastN, List.length_drop]
  omega

/-- The window is the end of the list. -/
theorem lastN_suffix (cap : ℕ) (l : List α) : lastN cap l <:+ l := List.drop_suffix _ _

/-- Appending to a window and appending to the whole history give the same window. -/
theorem lastN_lastN_append (cap : ℕ) (l : List α) (a : α) :
    lastN cap (lastN cap l ++ [a]) = lastN cap (l ++ [a]) := by
  simp only [lastN, List.length_append, List.length_drop, List.length_singleton]
  rw [List.drop_append, List.drop_append, List.drop_drop, List.length_drop]
  congr 2
  · omega
  · omega

/-- A short enough suffix lies in the window. -/
theorem suffix_lastN {cap : ℕ} {l m : List α} (h : m <:+ l) (hlen : m.length ≤ cap) :
    m <:+ lastN cap l := by
  obtain ⟨old, rfl⟩ := h
  unfold lastN
  rw [List.length_append, List.drop_append]
  have hdrop : old.length + m.length - cap - old.length = 0 := by omega
  rw [hdrop, List.drop_zero]
  exact List.suffix_append _ _

/-- A suffix of full length is the window. -/
theorem eq_lastN {cap : ℕ} {l m : List α} (h : m <:+ l) (hlen : m.length = cap) :
    m = lastN cap l := by
  refine (suffix_lastN h hlen.le).eq_of_length_le ?_
  rw [length_lastN, hlen]
  exact Nat.min_le_left _ _

/-- What is in the window after one more element is that element, or was in it. -/
theorem mem_lastN_concat {cap : ℕ} {l : List α} {a x : α} (h : x ∈ lastN cap (l ++ [a])) :
    x = a ∨ x ∈ lastN cap l := by
  rw [← lastN_lastN_append] at h
  have h := (lastN_suffix cap _).subset h
  rcases List.mem_append.mp h with h | h
  · exact Or.inr h
  · exact Or.inl (List.mem_singleton.mp h)

/-- The oldest element of a full window leaves it with the next one. -/
theorem head_notMem_lastN {cap : ℕ} {l rest : List α} {a x : α} (hfull : x :: rest <:+ l)
    (hlen : (x :: rest).length = cap) (hnodup : (l ++ [a]).Nodup) : x ∉ lastN cap (l ++ [a]) := by
  have hwindow : lastN cap (l ++ [a]) = rest ++ [a] := by
    rw [← lastN_lastN_append, ← eq_lastN hfull hlen, lastN]
    have hone : (x :: rest ++ [a]).length - cap = 1 := by
      rw [List.length_append, hlen, List.length_singleton]
      omega
    rw [hone]
    rfl
  obtain ⟨old, rfl⟩ := hfull
  rw [hwindow]
  rw [List.append_assoc] at hnodup
  exact (List.nodup_cons.mp (List.nodup_append.mp hnodup).2.1).1

/-- Equal elements of the history are more than `cap` positions apart. -/
def Spaced (cap : ℕ) (l : List α) : Prop :=
  ∀ i j, i < j → j < l.length → l[i]? = l[j]? → i + cap < j

/-- Inserting an element the window does not hold keeps the history spaced. -/
theorem Spaced.concat {cap : ℕ} {l : List α} (h : Spaced cap l) {a : α} (ha : a ∉ lastN cap l) :
    Spaced cap (l ++ [a]) := by
  intro i j hij hj he
  simp only [List.length_append, List.length_singleton] at hj
  by_cases hlast : j < l.length
  · rw [List.getElem?_append_left (by omega), List.getElem?_append_left hlast] at he
    exact h i j hij hlast he
  · obtain rfl : j = l.length := by omega
    rw [List.getElem?_append_left hij, List.getElem?_concat_length] at he
    by_contra hnear
    apply ha
    rw [lastN, List.mem_iff_getElem?]
    refine ⟨i - (l.length - cap), ?_⟩
    rw [List.getElem?_drop, ← he]
    congr 1
    omega

/-- A window of a spaced history holds no element twice. -/
theorem Spaced.nodup_lastN {cap : ℕ} {l : List α} (h : Spaced cap l) : (lastN cap l).Nodup := by
  rw [List.nodup_iff_getElem?_ne_getElem?]
  intro i j hij hj he
  rw [length_lastN] at hj
  simp only [lastN, List.getElem?_drop] at he
  have := h (l.length - cap + i) (l.length - cap + j) (by omega) (by omega) he
  omega

/-- **Between two insertions of one element**, at least `cap` different others were inserted. -/
theorem Spaced.between [DecidableEq α] {cap : ℕ} {p m s : List α} {a : α}
    (h : Spaced cap (p ++ a :: (m ++ a :: s))) :
    ∃ S : Finset α, cap ≤ S.card ∧ a ∉ S ∧ ∀ x ∈ S, x ∈ m := by
  have hget (k : ℕ) (hk : k < m.length) :
      (p ++ a :: (m ++ a :: s))[p.length + 1 + k]? = m[k]? := by
    rw [List.getElem?_append_right (by omega),
      show p.length + 1 + k - p.length = k + 1 by omega, List.getElem?_cons_succ,
      List.getElem?_append_left hk]
  have hfirst : (p ++ a :: (m ++ a :: s))[p.length]? = some a := by simp
  have hsecond : (p ++ a :: (m ++ a :: s))[p.length + 1 + m.length]? = some a := by
    rw [List.getElem?_append_right (by omega),
      show p.length + 1 + m.length - p.length = m.length + 1 by omega, List.getElem?_cons_succ]
    simp
  have hlen : p.length + 1 + m.length < (p ++ a :: (m ++ a :: s)).length := by
    simp; omega
  have hcap : cap ≤ m.length := by
    have := h p.length (p.length + 1 + m.length) (by omega) hlen (by rw [hfirst, hsecond])
    omega
  -- the `cap` insertions right after the first one are different from it and from each other
  have hnodup : (m.take cap).Nodup := by
    rw [List.nodup_iff_getElem?_ne_getElem?]
    intro i j hij hj he
    simp only [List.length_take] at hj
    rw [List.getElem?_take_of_lt (by omega), List.getElem?_take_of_lt (by omega)] at he
    have := h (p.length + 1 + i) (p.length + 1 + j) (by omega) (by omega)
      (by rw [hget i (by omega), hget j (by omega), he])
    omega
  refine ⟨(m.take cap).toFinset, ?_, ?_, ?_⟩
  · rw [List.toFinset_card_of_nodup hnodup, List.length_take]
    omega
  · intro ha
    obtain ⟨k, hk⟩ := List.mem_iff_getElem?.mp (List.mem_toFinset.mp ha)
    obtain ⟨hklen, -⟩ := List.getElem?_eq_some_iff.mp hk
    simp only [List.length_take] at hklen
    rw [List.getElem?_take_of_lt (by omega)] at hk
    have := h p.length (p.length + 1 + k) (by omega) (by omega)
      (by rw [hfirst, hget k (by omega), hk])
    omega
  · intro x hx
    exact List.mem_of_mem_take (List.mem_toFinset.mp hx)

end HaikuAgent.Foundation
