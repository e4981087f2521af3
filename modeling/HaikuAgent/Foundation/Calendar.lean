import Mathlib.Logic.Function.Iterate
import Mathlib.Tactic.IntervalCases

/-!
# The Gregorian calendar

Dates of the proleptic Gregorian calendar, the day after a date, and the number of days from
1 January 1970, which is what `IsDay` counts by going from day to day. A function on dates that
is 0 on that day, grows by one from each day to the next and tells dates apart is this number
(`Counts.isDay_iff`); `serial` is one in closed form, with the years counted from March.
-/

set_option autoImplicit false

namespace HaikuAgent.Foundation

/-- A year of 366 days. -/
def IsLeap (year : ℤ) : Prop := year % 4 = 0 ∧ (year % 100 = 0 → year % 400 = 0)

instance decidableIsLeap (year : ℤ) : Decidable (IsLeap year) :=
  inferInstanceAs (Decidable (year % 4 = 0 ∧ (year % 100 = 0 → year % 400 = 0)))

def monthLength (year month : ℤ) : ℤ :=
  if month = 2 then (if IsLeap year then 29 else 28)
  else if month = 4 ∨ month = 6 ∨ month = 9 ∨ month = 11 then 30
  else 31

/-- Every month has a day. -/
theorem monthLength_pos (year month : ℤ) : 1 ≤ monthLength year month := by
  unfold monthLength
  split_ifs
  all_goals decide

/-- No month has more than 31 days. -/
theorem monthLength_le (year month : ℤ) : monthLength year month ≤ 31 := by
  unfold monthLength
  split_ifs
  all_goals decide

@[ext]
structure Date where
  year : ℤ
  month : ℤ
  day : ℤ
  month_pos : 1 ≤ month
  month_le : month ≤ 12
  day_pos : 1 ≤ day
  day_le : day ≤ monthLength year month

namespace Date

def first (year month : ℤ) (hpos : 1 ≤ month) (hle : month ≤ 12) : Date :=
  ⟨year, month, 1, hpos, hle, le_rfl, monthLength_pos year month⟩

def last (year month : ℤ) (hpos : 1 ≤ month) (hle : month ≤ 12) : Date :=
  ⟨year, month, monthLength year month, hpos, hle, monthLength_pos year month, le_rfl⟩

/-- 1 January 1970. -/
def epoch : Date := first 1970 1 le_rfl (by decide)

/-- The day after. -/
def next (d : Date) : Date :=
  if hday : d.day < monthLength d.year d.month then
    ⟨d.year, d.month, d.day + 1, d.month_pos, d.month_le, by have hpos := d.day_pos; omega, by omega⟩
  else if hmonth : d.month < 12 then
    first d.year (d.month + 1) (by have hpos := d.month_pos; omega) (by omega)
  else first (d.year + 1) 1 le_rfl (by decide)

/-- The day before. -/
def previous (d : Date) : Date :=
  if hday : 1 < d.day then
    ⟨d.year, d.month, d.day - 1, d.month_pos, d.month_le, by omega, by have hle := d.day_le; omega⟩
  else if hmonth : 1 < d.month then
    last d.year (d.month - 1) (by omega) (by have hle := d.month_le; omega)
  else last (d.year - 1) 12 (by decide) le_rfl

/-- The day after the day before a date is the date. -/
theorem next_previous (d : Date) : d.previous.next = d := by
  have hpos := d.day_pos
  have hmonthPos := d.month_pos
  unfold previous
  split_ifs with hday hmonth
  · have hle := d.day_le
    unfold next
    rw [dif_pos (show d.day - 1 < monthLength d.year d.month by omega)]
    ext
    · rfl
    · rfl
    · show d.day - 1 + 1 = d.day
      omega
  · have hmonthLe := d.month_le
    unfold next last
    rw [dif_neg (lt_irrefl _), dif_pos (show d.month - 1 < 12 by omega)]
    ext
    · rfl
    · show d.month - 1 + 1 = d.month
      omega
    · show 1 = d.day
      omega
  · unfold next last
    rw [dif_neg (lt_irrefl _), dif_neg (lt_irrefl _)]
    ext
    · show d.year - 1 + 1 = d.year
      omega
    · show 1 = d.month
      omega
    · show 1 = d.day
      omega

/-- The date is `n` days after 1 January 1970, or `-n` days before it. -/
def IsDay (d : Date) (n : ℤ) : Prop := next^[n.toNat] epoch = next^[(-n).toNat] d

/-! ## Counting days -/

/-- The function counts the days from 1 January 1970 on. -/
structure Counts (f : Date → ℤ) : Prop where
  epoch : f Date.epoch = 0
  next : ∀ d : Date, f d.next = f d + 1

section Count

variable {f : Date → ℤ}

/-- Going on by `n` days adds `n` to a function that counts days. -/
theorem Counts.iterate (h : Counts f) (d : Date) (n : ℕ) : f (Date.next^[n] d) = f d + n := by
  induction n with
  | zero => exact (add_zero _).symm
  | succ n ih =>
    rw [Function.iterate_succ_apply', h.next, ih]
    omega

/-- No date is a day twice. -/
theorem Counts.eq_of_isDay (h : Counts f) {d : Date} {n : ℤ} (hday : d.IsDay n) : f d = n := by
  have hcount := congrArg f hday
  rw [h.iterate, h.iterate, h.epoch] at hcount
  omega

/-- **What counts the days and tells dates apart** is the number of days. -/
theorem Counts.isDay_iff (h : Counts f) (hinj : Function.Injective f) (d : Date) (n : ℤ) : d.IsDay n ↔ f d = n := by
  constructor
  · exact h.eq_of_isDay
  · intro hcount
    apply hinj
    rw [h.iterate, h.iterate, h.epoch]
    omega

/-- Going back by a day takes one from it. -/
theorem Counts.previous (h : Counts f) (d : Date) : f d.previous = f d - 1 := by
  have hnext := h.next d.previous
  rw [next_previous] at hnext
  omega

/-- Every day has a date. -/
theorem Counts.surjective (h : Counts f) : Function.Surjective f := by
  have hbefore (n : ℕ) : f (Date.previous^[n] Date.epoch) = -n := by
    induction n with
    | zero => exact h.epoch
    | succ n ih =>
      rw [Function.iterate_succ_apply', h.previous, ih]
      omega
  intro n
  obtain hpos | hneg := le_total 0 n
  · refine ⟨Date.next^[n.toNat] Date.epoch, ?_⟩
    rw [h.iterate, h.epoch]
    omega
  · refine ⟨Date.previous^[(-n).toNat] Date.epoch, ?_⟩
    rw [hbefore]
    omega

end Count

/-! ## The closed form -/

/-- The year that began on the last 1 March. -/
def marchYear (d : Date) : ℤ := if d.month ≤ 2 then d.year - 1 else d.year

/-- The months since March. -/
def marchMonth (d : Date) : ℤ := if d.month ≤ 2 then d.month + 9 else d.month - 3

/-- The days since that 1 March. -/
def marchDay (d : Date) : ℤ := (153 * d.marchMonth + 2) / 5 + d.day - 1

/-- Leap days end the years that are counted from March, so that the day in the year does not
depend on them. -/
def serial (d : Date) : ℤ :=
  365 * d.marchYear + d.marchYear / 4 - d.marchYear / 100 + d.marchYear / 400 + d.marchDay - 719468

/-- Days of a year that begins in March are counted from 0. -/
theorem marchDay_nonneg (d : Date) : 0 ≤ d.marchDay := by
  have hmonth := d.month_pos
  have hday := d.day_pos
  unfold marchDay marchMonth
  split_ifs
  · omega
  · omega

/-- The last day of such a year is 29 February. -/
theorem marchDay_le (d : Date) : d.marchDay ≤ 364 ∨ d.marchDay = 365 ∧ IsLeap (d.marchYear + 1) := by
  obtain ⟨year, month, day, hpos, hle, hdayPos, hdayLe⟩ := d
  unfold marchDay marchMonth marchYear
  dsimp only
  unfold monthLength at hdayLe
  obtain rfl | hother := eq_or_ne month 2
  · rw [if_pos rfl] at hdayLe
    rw [if_pos le_rfl, if_pos le_rfl, sub_add_cancel]
    by_cases hleap : IsLeap year
    · rw [if_pos hleap] at hdayLe
      obtain hlt | heq := hdayLe.lt_or_eq
      · exact .inl (by omega)
      · exact .inr ⟨by omega, hleap⟩
    · rw [if_neg hleap] at hdayLe
      exact .inl (by omega)
  · refine .inl ?_
    rw [if_neg hother] at hdayLe
    split_ifs at hdayLe ⊢
    all_goals omega

/-- The closed form counts days: it is 0 on 1 January 1970, and one more on each next day. -/
theorem counts_serial : Counts serial where
  epoch := by decide
  next d := by
    obtain ⟨year, month, day, hpos, hle, hdayPos, hdayLe⟩ := d
    unfold next
    split_ifs with hday hmonth
    · unfold serial marchDay marchMonth marchYear
      dsimp only
      omega
    · -- the length of the month is what the multiples of 153 grow by
      have hlast : day = monthLength year month := le_antisymm hdayLe (not_lt.mp hday)
      unfold monthLength IsLeap at hlast
      unfold serial marchDay marchMonth marchYear first
      dsimp only at hlast ⊢
      dsimp only at hmonth
      interval_cases month
      all_goals
        simp only [Int.reduceEq, if_true, if_false, Int.reduceLE, Int.reduceAdd, Int.reduceSub, Int.reduceMul,
          or_true, or_false] at hlast ⊢
      all_goals omega
    · have hlast : day = monthLength year month := le_antisymm hdayLe (not_lt.mp hday)
      have hdecember : month = 12 := le_antisymm hle (not_lt.mp hmonth)
      subst hdecember
      have hlength : monthLength year 12 = 31 := rfl
      rw [hlength] at hlast
      unfold serial marchDay marchMonth marchYear first
      dsimp only
      simp only [Int.reduceLE, if_true, if_false, Int.reduceAdd, Int.reduceSub, Int.reduceMul]
      omega

end Date

end HaikuAgent.Foundation
