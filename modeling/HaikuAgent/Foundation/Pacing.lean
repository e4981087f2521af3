import Mathlib.Algebra.Order.Ring.Int
import Mathlib.Data.List.Basic

/-!
# Paced instants

A timer that may fire again only `d` after it last fired. `Paced` says it of a list of
instants, and `Reaches` that a list of instants holds `k` paced ones. Over instants in
order it does not matter which ones are picked: to fire as soon as one may is never worse
(`reaches_cons_due`).
-/

set_option autoImplicit false

namespace HaikuAgent.Foundation

/-- Each instant is at least `d` after the one before it, and the first after `last`. -/
def Paced (d : ℤ) : ℤ → List ℤ → Prop
  | _, [] => True
  | last, t :: ts => last + d ≤ t ∧ Paced d t ts

/-- There are `k` paced instants among `times`. -/
def Reaches (d last : ℤ) (k : ℕ) (times : List ℤ) : Prop :=
  ∃ ts, ts.Sublist times ∧ Paced d last ts ∧ ts.length = k

variable {d last t : ℤ} {k : ℕ} {times : List ℤ}

/-- An earlier start leaves the times as far apart. -/
theorem Paced.of_le {last' : ℤ} (hle : last' ≤ last) (h : Paced d last times) :
    Paced d last' times := by
  cases times with
  | nil => exact trivial
  | cons t times =>
    refine ⟨?_, h.2⟩
    have := h.1
    omega

/-- A first part of paced times is paced. -/
theorem Paced.take (n : ℕ) (h : Paced d last times) : Paced d last (times.take n) := by
  induction times generalizing n last with
  | nil =>
    rw [List.take_nil]
    exact trivial
  | cons t times ih =>
    cases n with
    | zero => exact trivial
    | succ n => exact ⟨h.1, ih n h.2⟩

/-- Who can take many paced times can take fewer. -/
theorem Reaches.of_le {j : ℕ} (hle : j ≤ k) (h : Reaches d last k times) : Reaches d last j times := by
  obtain ⟨ts, hsub, hpaced, hlen⟩ := h
  refine ⟨ts.take j, (List.take_sublist j ts).trans hsub, hpaced.take j, ?_⟩
  rw [List.length_take, hlen]
  exact Nat.min_eq_left hle

/-- One time is enough for a single step, if it is late enough. -/
theorem reaches_one_of_mem (hmem : t ∈ times) (hdue : last + d ≤ t) : Reaches d last 1 times :=
  ⟨[t], List.singleton_sublist.mpr hmem, ⟨hdue, trivial⟩, rfl⟩

/-- One instant is enough only for one. -/
theorem reaches_singleton_iff : Reaches d last (k + 1) [t] ↔ k = 0 ∧ last + d ≤ t := by
  constructor
  · rintro ⟨ts, hsub, hpaced, hlen⟩
    cases ts with
    | nil => cases hlen
    | cons u ts =>
      have hle := hsub.length_le
      have hu : u = t := by
        have := hsub.subset (List.mem_cons_self)
        exact List.mem_singleton.mp this
      rw [hlen, List.length_singleton] at hle
      refine ⟨by omega, ?_⟩
      rw [← hu]
      exact hpaced.1
  · rintro ⟨rfl, hdue⟩
    exact reaches_one_of_mem (List.mem_singleton_self t) hdue

/-- An instant that comes too early can be left out. -/
theorem reaches_cons_early (hearly : t < last + d) :
    Reaches d last k (t :: times) ↔ Reaches d last k times := by
  constructor
  · rintro ⟨ts, hsub, hpaced, hlen⟩
    cases hsub with
    | cons _ hsub => exact ⟨ts, hsub, hpaced, hlen⟩
    | cons_cons _ hsub => exact absurd hpaced.1 (not_le.mpr hearly)
  · rintro ⟨ts, hsub, hpaced, hlen⟩
    exact ⟨ts, hsub.cons t, hpaced, hlen⟩

/-- An instant that may be taken should be. -/
theorem reaches_cons_due (hdue : last + d ≤ t) (hfirst : ∀ u ∈ times, t ≤ u) :
    Reaches d last (k + 1) (t :: times) ↔ Reaches d t k times := by
  constructor
  · rintro ⟨ts, hsub, hpaced, hlen⟩
    cases ts with
    | nil => cases hlen
    | cons u ts =>
      have hlen' : ts.length = k := by simpa using hlen
      cases hsub with
      | cons _ hsub =>
        have hle : t ≤ u := hfirst u (hsub.subset List.mem_cons_self)
        exact ⟨ts, (List.sublist_cons_self u ts).trans hsub, hpaced.2.of_le hle, hlen'⟩
      | cons_cons _ hsub => exact ⟨ts, hsub, hpaced.2, hlen'⟩
  · rintro ⟨ts, hsub, hpaced, rfl⟩
    exact ⟨t :: ts, hsub.cons_cons t, ⟨hdue, hpaced⟩, rfl⟩

end HaikuAgent.Foundation
