import Mathlib.Data.Int.Range
import Mathlib.Tactic.Ring

/-!
# Send windows

A sender numbers what it sends with consecutive integers and keeps the last `cap` of them until
they are released from the front. What it keeps is an interval (`window`), whatever the order
of sends and releases.
-/

set_option autoImplicit false

namespace HaikuAgent.Foundation.SendWindow

/-- There is nothing in a range that ends where it begins. -/
theorem range_of_le {lo hi : ℤ} (h : hi ≤ lo) : Int.range lo hi = [] := by
  unfold Int.range
  rw [Int.toNat_of_nonpos (sub_nonpos.mpr h)]
  rfl

/-- A range has as many numbers as its ends are apart. -/
theorem length_range (lo hi : ℤ) : (Int.range lo hi).length = (hi - lo).toNat := by simp [Int.range]

/-- A range begins with its lower end. -/
theorem range_cons {lo hi : ℤ} (h : lo < hi) : Int.range lo hi = lo :: Int.range (lo + 1) hi := by
  have hlength : (hi - lo).toNat = (hi - (lo + 1)).toNat + 1 := by omega
  unfold Int.range
  rw [hlength, List.range_succ_eq_map, List.map_cons, List.map_map]
  congr 1
  · exact add_zero lo
  · apply List.map_congr_left
    intro i _
    show lo + ((i + 1 : ℕ) : ℤ) = lo + 1 + i
    push_cast
    ring

/-- A range that ends one later has one number more. -/
theorem range_concat {lo hi : ℤ} (h : lo ≤ hi) : Int.range lo (hi + 1) = Int.range lo hi ++ [hi] := by
  have hlength : (hi + 1 - lo).toNat = (hi - lo).toNat + 1 := by omega
  unfold Int.range
  rw [hlength, List.range_succ, List.map_append, List.map_singleton]
  congr 2
  omega

/-- What is left of an interval when its numbers up to `a` are dropped. -/
theorem dropWhile_range (lo hi a : ℤ) :
    (Int.range lo hi).dropWhile (fun n => n ≤ a) = Int.range (max lo (min (a + 1) hi)) hi := by
  induction hn : (hi - lo).toNat generalizing lo with
  | zero =>
    rw [range_of_le (by omega), range_of_le (by omega)]
    rfl
  | succ n ih =>
    rw [range_cons (by omega), List.dropWhile_cons]
    by_cases hle : lo ≤ a
    · rw [if_pos (decide_eq_true hle), ih (lo + 1) (by omega)]
      congr 1
      omega
    · rw [if_neg (by simpa using hle), ← range_cons (by omega)]
      congr 1
      omega

/-- A bounded buffer forgets its front for the next number. -/
def push (cap : ℕ) (l : List ℤ) (n : ℤ) : List ℤ := (if cap ≤ l.length then l.tail else l) ++ [n]

/-- The numbers below `hi` that are not released, up to `released`, and not pushed out. -/
def window (cap : ℕ) (released hi : ℤ) : List ℤ := Int.range (max (released + 1) (hi - cap)) hi

/-- A number is in the window if it is not released, not pushed out and not yet to come. -/
theorem mem_window {cap : ℕ} {released hi n : ℤ} :
    n ∈ window cap released hi ↔ released < n ∧ hi - cap ≤ n ∧ n < hi := by
  unfold window
  rw [Int.mem_range_iff]
  omega

/-- Pushing the next number moves the window on by one. -/
theorem push_window (cap : ℕ) (released hi : ℤ) (h : released < hi) (hcap : 0 < cap) :
    push cap (window cap released hi) hi = window cap released (hi + 1) := by
  unfold push window
  rw [length_range]
  by_cases hfull : cap ≤ (hi - max (released + 1) (hi - cap)).toNat
  · have hlo : max (released + 1) (hi - cap) = hi - cap := by omega
    have hlo' : max (released + 1) (hi + 1 - cap) = hi - cap + 1 := by omega
    rw [if_pos hfull, hlo, hlo', range_cons (show hi - cap < hi by omega), List.tail_cons,
      ← range_concat (by omega)]
  · have hlo : max (released + 1) (hi + 1 - cap) = max (released + 1) (hi - cap) := by omega
    rw [if_neg hfull, hlo, ← range_concat (by omega)]

/-- A release from the front counts as far as there is something to release. -/
theorem release_window (cap : ℕ) (released hi a : ℤ) (h : released < hi) :
    (window cap released hi).dropWhile (fun n => n ≤ a) = window cap (max released (min a (hi - 1))) hi := by
  unfold window
  rw [dropWhile_range]
  congr 1
  omega

end HaikuAgent.Foundation.SendWindow
