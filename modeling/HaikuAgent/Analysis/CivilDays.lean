import HaikuAgent.Foundation.Calendar
import HaikuAgent.Model.Time

/-!
# Days and dates

`gmt` gives the date of a day (`gmt_eq`) and `days_from_civil` the day of a date
(`daysFromCivil_eq`), both in the calendar of `Foundation.Calendar`.
-/

set_option autoImplicit false

namespace HaikuAgent.Analysis.CivilDays

open HaikuAgent.Foundation
open HaikuAgent.Model
open HaikuAgent.Model.Time

/-! ## The day of a date -/

/-- A number of 32 bits survives the conversion. -/
theorem toNat_ofInt {x : ℤ} (hlo : 0 ≤ x) (hhi : x < 2 ^ 32) : ((UInt32.ofInt x).toNat : ℤ) = x := by
  unfold UInt32.ofInt
  rw [UInt32.toNat_ofNat']
  omega

/-- The days before a month, in the arithmetic of `unsigned`: the difference that wraps around is
brought back by the sum. -/
theorem monthStart_eq (month : ℤ) (hpos : 1 ≤ month) (hle : month ≤ 12) :
    (153 * (UInt32.ofInt month + (if 2 < UInt32.ofInt month then -3 else 9)) + 2) / 5 =
      UInt32.ofInt ((153 * (if month ≤ 2 then month + 9 else month - 3) + 2) / 5) := by
  interval_cases month
  all_goals decide

/-- The day of the year. -/
theorem toNat_doy (d : Date) :
    (((153 * (UInt32.ofInt d.month + (if 2 < UInt32.ofInt d.month then -3 else 9)) + 2) / 5 +
      UInt32.ofInt d.day - 1 : UInt32).toNat : ℤ) = d.marchDay := by
  have hlo := d.day_pos
  have hhi := d.day_le.trans (monthLength_le d.year d.month)
  have hrange : 0 ≤ (153 * d.marchMonth + 2) / 5 ∧ (153 * d.marchMonth + 2) / 5 ≤ 337 := by
    have hpos := d.month_pos
    have hle := d.month_le
    unfold Date.marchMonth
    split_ifs
    · omega
    · omega
  have hmonth := toNat_ofInt hrange.1 (by omega)
  have hday := toNat_ofInt (x := d.day) (by omega) (by omega)
  have hstart : (153 * (UInt32.ofInt d.month + (if 2 < UInt32.ofInt d.month then -3 else 9)) + 2) / 5 =
      UInt32.ofInt ((153 * d.marchMonth + 2) / 5) := monthStart_eq d.month d.month_pos d.month_le
  unfold Date.marchDay
  rw [hstart, UInt32.toNat_sub, UInt32.toNat_add, UInt32.toNat_one]
  omega

/-- The day of the era, likewise: no intermediate value wraps around. -/
theorem toNat_doe (yoe doy : UInt32) (hyoe : yoe.toNat ≤ 399) (hdoy : doy.toNat ≤ 365) :
    (yoe * 365 + yoe / 4 - yoe / 100 + doy).toNat =
      365 * yoe.toNat + yoe.toNat / 4 - yoe.toNat / 100 + doy.toNat := by
  have h365 : (365 : UInt32).toNat = 365 := rfl
  have h4 : (4 : UInt32).toNat = 4 := rfl
  have h100 : (100 : UInt32).toNat = 100 := rfl
  rw [UInt32.toNat_add, UInt32.toNat_sub, UInt32.toNat_add, UInt32.toNat_mul, UInt32.toNat_div, UInt32.toNat_div,
    h365, h4, h100]
  omega

/-- Before March, the year that `days_from_civil` counts is the one before. -/
theorem marchYear_eq (d : Date) : (if UInt32.ofInt d.month ≤ 2 then d.year - 1 else d.year) = d.marchYear := by
  have hmonth := toNat_ofInt (x := d.month) (by have hpos := d.month_pos; omega) (by have hle := d.month_le; omega)
  have hiff : UInt32.ofInt d.month ≤ 2 ↔ d.month ≤ 2 := by
    rw [UInt32.le_iff_toNat_le]
    show (UInt32.ofInt d.month).toNat ≤ 2 ↔ _
    omega
  unfold Date.marchYear
  simp only [hiff]

/-- **`days_from_civil` is the number of the day.**
SRC: util.cpp:180-187 -/
theorem daysFromCivil_eq (d : Date) : daysFromCivil d.year (UInt32.ofInt d.month) (UInt32.ofInt d.day) = d.serial := by
  have hdoy := toNat_doy d
  have hnonneg := d.marchDay_nonneg
  have hle := d.marchDay_le
  unfold daysFromCivil
  rw [marchYear_eq]
  dsimp only
  generalize hdoyEq : ((153 * (UInt32.ofInt d.month + (if 2 < UInt32.ofInt d.month then -3 else 9)) + 2) / 5 +
      UInt32.ofInt d.day - 1 : UInt32) = doy at hdoy ⊢
  have hera : (if 0 ≤ d.marchYear then d.marchYear else d.marchYear - 399).tdiv 400 = d.marchYear / 400 := by
    split_ifs with hsign
    · exact Int.tdiv_eq_ediv_of_nonneg hsign
    · have hnegative : (d.marchYear - 399).tdiv 400 = -((399 - d.marchYear) / 400) := by
        rw [← neg_sub, Int.neg_tdiv, Int.tdiv_eq_ediv_of_nonneg (by omega)]
      omega
  have hyoe := toNat_ofInt (x := d.marchYear - d.marchYear / 400 * 400) (by omega) (by omega)
  rw [hera]
  generalize UInt32.ofInt (d.marchYear - d.marchYear / 400 * 400) = yoe at hyoe
  have hdoe := toNat_doe yoe doy (by omega) (by omega)
  rw [hdoe]
  unfold Date.serial
  omega

/-! ## The date of a day -/

/-- The broken-down time of a second of this day. -/
def tmOf (d : Date) (second : ℤ) : Tm :=
  { year := d.year
    month := d.month
    day := d.day
    hour := second / 3600
    min := second % 3600 / 60
    sec := second % 60 }

/-- The year of the era is found from the day of the era. The years are counted in centuries, in
spans of four years and in years. -/
theorem yearOfEra_eq {c q r doy : ℤ} (hc : 0 ≤ c) (hc' : c ≤ 3) (hq : 0 ≤ q) (hq' : q ≤ 24) (hr : 0 ≤ r) (hr' : r ≤ 3)
    (hdoy : 0 ≤ doy) (hdoy' : doy ≤ 364 ∨ doy = 365 ∧ r = 3 ∧ (q ≠ 24 ∨ c = 3)) {doe : ℤ}
    (hdoe : doe = 36524 * c + 1461 * q + 365 * r + doy) :
    (doe - doe / 1460 + doe / 36524 - doe / 146096) / 365 = 100 * c + 4 * q + r := by
  obtain hcentury | hlast : doe / 36524 = c ∨ doe = 146096 := by omega
  · have hnone : doe / 146096 = 0 := by omega
    have hspans : doe / 1460 = 25 * c + q ∨ doe / 1460 = 25 * c + q + 1 := by omega
    rw [hcentury, hnone]
    omega
  · -- the last day of the era
    subst hlast
    omega

/-- The month is found from the day of the year. -/
theorem monthOfYear_eq (d : Date) : (5 * d.marchDay + 2) / 153 = d.marchMonth := by
  obtain ⟨year, month, day, hpos, hle, hdayPos, hdayLe⟩ := d
  unfold Date.marchDay Date.marchMonth
  dsimp only
  interval_cases month
  all_goals
    unfold monthLength at hdayLe
    simp only [Int.reduceEq, if_true, if_false, Int.reduceLE, Int.reduceAdd, Int.reduceSub, Int.reduceMul,
      or_true, or_false] at hdayLe ⊢
  all_goals omega

/-- A year in eras, centuries, spans of four years and years. -/
structure InEras (year e c q r : ℤ) : Prop where
  year_eq : year = 400 * e + 100 * c + 4 * q + r
  c_nonneg : 0 ≤ c
  c_le : c ≤ 3
  q_nonneg : 0 ≤ q
  q_le : q ≤ 24
  r_nonneg : 0 ≤ r
  r_le : r ≤ 3

/-- Every year is in one of its eras. -/
theorem exists_inEras (year : ℤ) : ∃ e c q r, InEras year e c q r :=
  ⟨year / 400, year % 400 / 100, year % 100 / 4, year % 4,
    ⟨by omega, by omega, by omega, by omega, by omega, by omega, by omega⟩⟩

section Eras

variable {year e c q r : ℤ}

/-- The leap years of four up to a year. -/
theorem InEras.div_four (h : InEras year e c q r) : year / 4 = 100 * e + 25 * c + q := by
  obtain ⟨rfl, -, -, -, -, hr, hr'⟩ := h
  omega

/-- The centuries up to a year. -/
theorem InEras.div_hundred (h : InEras year e c q r) : year / 100 = 4 * e + c := by
  obtain ⟨rfl, -, -, hq, hq', hr, hr'⟩ := h
  omega

/-- The eras up to a year. -/
theorem InEras.div_era (h : InEras year e c q r) : year / 400 = e := by
  obtain ⟨rfl, hc, hc', hq, hq', hr, hr'⟩ := h
  omega

/-- The year before a leap year. -/
theorem InEras.leap_next (h : InEras year e c q r) (hleap : IsLeap (year + 1)) : r = 3 ∧ (q ≠ 24 ∨ c = 3) := by
  obtain ⟨rfl, hc, hc', hq, hq', hr, hr'⟩ := h
  obtain ⟨hfour, hhundred⟩ := hleap
  have hlast : r = 3 := by omega
  refine ⟨hlast, ?_⟩
  by_contra hno
  rw [not_or, not_not] at hno
  have hcentury := hhundred (by omega)
  omega

/-- The era of a day, and the day of the era. -/
theorem InEras.day_split (h : InEras year e c q r) {doy z : ℤ} (hdoy : 0 ≤ doy)
    (hdoy' : doy ≤ 364 ∨ doy = 365 ∧ r = 3 ∧ (q ≠ 24 ∨ c = 3))
    (hz : z = 146097 * e + (36524 * c + 1461 * q + 365 * r + doy)) :
    z / 146097 = e ∧ z % 146097 = 36524 * c + 1461 * q + 365 * r + doy := by
  obtain ⟨-, hc, hc', hq, hq', hr, hr'⟩ := h
  have hlt : 36524 * c + 1461 * q + 365 * r + doy < 146097 := by omega
  have hnonneg : 0 ≤ 36524 * c + 1461 * q + 365 * r + doy := by omega
  generalize 36524 * c + 1461 * q + 365 * r + doy = doe at hz hlt hnonneg
  omega

/-- The day of the year is what is left of the day of the era. -/
theorem InEras.day_rest (h : InEras year e c q r) {doe doy : ℤ}
    (hdoe : doe = 36524 * c + 1461 * q + 365 * r + doy) :
    doe - (365 * (100 * c + 4 * q + r) + (100 * c + 4 * q + r) / 4 - (100 * c + 4 * q + r) / 100) = doy := by
  obtain ⟨-, -, -, hq, hq', hr, hr'⟩ := h
  have hfour : (100 * c + 4 * q + r) / 4 = 25 * c + q := by omega
  have hhundred : (100 * c + 4 * q + r) / 100 = c := by omega
  rw [hfour, hhundred]
  omega

end Eras

/-- **`gmtime_r` gives the date of the day.** -/
theorem gmt_eq (d : Date) (t : ℤ) (hday : d.serial = t / 86400) : gmt t = tmOf d (t % 86400) := by
  have hdoy := d.marchDay_nonneg
  have hmonth := monthOfYear_eq d
  obtain ⟨e, c, q, r, hyear⟩ := exists_inEras d.marchYear
  have hleap : d.marchDay ≤ 364 ∨ d.marchDay = 365 ∧ r = 3 ∧ (q ≠ 24 ∨ c = 3) :=
    d.marchDay_le.imp_right fun h => ⟨h.1, hyear.leap_next h.2⟩
  have hdays : t / 86400 + 719468 = 146097 * e + (36524 * c + 1461 * q + 365 * r + d.marchDay) := by
    have heq := hyear.year_eq
    rw [← hday, Date.serial, hyear.div_four, hyear.div_hundred, hyear.div_era]
    omega
  obtain ⟨hera, hdoe⟩ := hyear.day_split hdoy hleap hdays
  have hyoe := yearOfEra_eq hyear.c_nonneg hyear.c_le hyear.q_nonneg hyear.q_le hyear.r_nonneg hyear.r_le hdoy hleap hdoe
  have hrest := hyear.day_rest hdoe
  have hback : (if d.marchMonth < 10 then d.marchMonth + 3 else d.marchMonth - 9) = d.month := by
    have hpos := d.month_pos
    have hle := d.month_le
    unfold Date.marchMonth
    split_ifs
    all_goals omega
  have hyearEq : 100 * c + 4 * q + r + e * 400 + (if d.month ≤ 2 then 1 else 0) = d.year := by
    have heq := hyear.year_eq
    unfold Date.marchYear at heq
    split_ifs at heq ⊢
    all_goals omega
  have hdayEq : d.marchDay - (153 * d.marchMonth + 2) / 5 + 1 = d.day := by
    unfold Date.marchDay
    omega
  unfold gmt tmOf
  dsimp only
  rw [hyoe, hrest, hmonth, hera, hback, hyearEq, hdayEq]

/-- The time of day and the date of a time give the time again. -/
theorem epochOf_tmOf (d : Date) (t : ℤ) (hday : d.serial = t / 86400) : epochOf (tmOf d (t % 86400)) = t := by
  have hdays := daysFromCivil_eq d
  unfold epochOf tmOf
  dsimp only
  rw [hdays, hday]
  omega

/-- The serial number tells dates apart, since the date is found from it. -/
theorem serial_injective : Function.Injective Date.serial := by
  intro d e hsame
  have hd := gmt_eq d (d.serial * 86400) (by omega)
  have he := gmt_eq e (d.serial * 86400) (by omega)
  have heq := hd.symm.trans he
  exact Date.ext (congrArg Tm.year heq) (congrArg Tm.month heq) (congrArg Tm.day heq)

/-- A date is the `n`-th day exactly when its closed form says so. -/
theorem isDay_iff_serial (d : Date) (n : ℤ) : d.IsDay n ↔ d.serial = n :=
  Date.counts_serial.isDay_iff serial_injective d n

end HaikuAgent.Analysis.CivilDays
