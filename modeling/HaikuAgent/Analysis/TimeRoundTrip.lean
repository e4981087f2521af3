import HaikuAgent.Analysis.CivilDays
import HaikuAgent.Analysis.SignedRequests
import Mathlib.Data.List.GetD

/-!
# Timestamps are read back

What `iso8601`, `iso8601_seconds` and the date field of HTTP say of a second is read back as this
second (`timestamps_convert_back`): each field has its width or ends at a character that is no
digit, and the date is that of the day.
-/

set_option autoImplicit false

namespace HaikuAgent.Analysis.TimeRoundTrip

open HaikuAgent.Foundation
open HaikuAgent.Model
open HaikuAgent.Model.Json (isDigit)
open HaikuAgent.Model.Time
open HaikuAgent.Analysis.CivilDays

/-! ## Numbers are read back -/

/-- Digits, and the number they spell. -/
structure Spells (s : Bytes) (n : ℕ) : Prop where
  ne_nil : s ≠ []
  digits : ∀ b ∈ s, isDigit b = true
  value : s.foldl (fun n c => 10 * n + (c.toNat - 48)) 0 = n

/-- The decimal text of a number spells it. -/
theorem toStringNat_spells (n : ℕ) : Spells (toStringNat n) n where
  ne_nil := by
    obtain ⟨ds, hds⟩ := JsonRoundTrip.toStringNat_digits n
    rw [hds]
    exact List.cons_ne_nil _ _
  digits b hb := by
    obtain ⟨hlo, hhi⟩ := SignedRequests.digit_toStringNat n b hb
    simp [isDigit, hlo, hhi]
  value := JsonRoundTrip.foldl_toStringNat n

/-- Zeros in front spell the same number. -/
theorem Spells.zeros {s : Bytes} {n : ℕ} (h : Spells s n) (k : ℕ) : Spells (List.replicate k 48 ++ s) n where
  ne_nil := List.append_ne_nil_of_right_ne_nil _ h.ne_nil
  digits b hb := by
    obtain hb | hb := List.mem_append.mp hb
    · rw [List.eq_of_mem_replicate hb]
      rfl
    · exact h.digits b hb
  value := by
    have hzeros : (List.replicate k (48 : UInt8)).foldl (fun n c => 10 * n + (c.toNat - 48)) 0 = 0 := by
      induction k with
      | zero => rfl
      | succ k ih =>
        rw [List.replicate_succ, List.foldl_cons]
        exact ih
    rw [List.foldl_append, hzeros]
    exact h.value

/-- A number below a power of ten has no more digits than that power. -/
theorem length_toStringNat_le {n width : ℕ} (hwidth : 0 < width) (h : n < 10 ^ width) :
    (toStringNat n).length ≤ width := by
  unfold toStringNat lit
  rw [List.length_map, Nat.toString_eq_repr, Nat.toList_repr]
  exact (Nat.length_toDigits_le_iff (by decide) hwidth).mpr h

/-- A number that fits is printed in the width. -/
theorem padded_spells {width : ℕ} {n : ℤ} (hwidth : 0 < width) (hlo : 0 ≤ n) (hhi : n < 10 ^ width) :
    Spells (padded width n) n.toNat ∧ (padded width n).length = width := by
  have habs : n.natAbs = n.toNat := by omega
  have hlength : (toStringNat n.toNat).length ≤ width := by
    apply length_toStringNat_le hwidth
    zify
    rw [Int.toNat_of_nonneg hlo]
    exact hhi
  have heq : padded width n = List.replicate (width - (toStringNat n.toNat).length) 48 ++ toStringNat n.toNat := by
    unfold padded
    rw [if_neg (not_lt.mpr hlo), habs]
    rfl
  rw [heq]
  refine ⟨(toStringNat_spells n.toNat).zeros _, ?_⟩
  rw [List.length_append, List.length_replicate]
  omega

/-- Digits are no spaces. -/
theorem not_space_of_digit {b : UInt8} (h : isDigit b = true) : isSpace b = false := by
  have hlo : 48 ≤ b := of_decide_eq_true (Bool.and_eq_true_iff.mp h).1
  have hspace : b ≠ 32 := fun heq => absurd (heq ▸ hlo) (by decide)
  have hcontrol : ¬b ≤ 13 := fun hle => absurd (UInt8.le_trans hlo hle) (by decide)
  unfold isSpace
  rw [Bool.or_eq_false_iff, beq_eq_false_iff_ne, Bool.and_eq_false_iff]
  exact ⟨hspace, .inr (decide_eq_false hcontrol)⟩

/-- Digits have no sign in front. -/
theorem splitSign_of_digit {b : UInt8} (h : isDigit b = true) (s : Bytes) : splitSign (b :: s) = (false, b :: s) := by
  unfold splitSign
  split
  · next heq =>
    cases heq
    cases h
  · next heq =>
    cases heq
    cases h
  · rfl

/-- Digits are read back where the width or a character that is no digit ends them. -/
theorem scanInt_digits {s rest : Bytes} {n width : ℕ} (h : Spells s n) (hfits : s.length ≤ width)
    (hend : s.length = width ∨ ∀ b ∈ rest.head?, isDigit b = false) :
    scanInt width (s ++ rest) = some ((n : ℤ), rest) := by
  have hnumber : ((s ++ rest).take width).takeWhile isDigit = s := by
    rw [List.take_append, List.take_of_length_le hfits, List.takeWhile_append_of_pos h.digits]
    obtain hwidth | hhead := hend
    · rw [hwidth, Nat.sub_self, List.take_zero, List.takeWhile_nil, List.append_nil]
    · have hnone : (rest.take (width - s.length)).takeWhile isDigit = [] := by
        cases rest with
        | nil => rw [List.take_nil, List.takeWhile_nil]
        | cons b rest =>
          cases width - s.length with
          | zero => rfl
          | succ k =>
            rw [List.take_succ_cons, List.takeWhile_cons_of_neg]
            rw [hhead b rfl]
            exact Bool.false_ne_true
      rw [hnone, List.append_nil]
  have hne := h.ne_nil
  have hvalue := h.value
  obtain ⟨b, hb⟩ : ∃ b, s.head? = some b := Option.ne_none_iff_exists'.mp fun hnil => hne (List.head?_eq_none_iff.mp hnil)
  obtain ⟨more, hmore⟩ : ∃ more, s ++ rest = b :: more := by
    obtain ⟨tail, rfl⟩ := List.head?_eq_some_iff.mp hb
    exact ⟨tail ++ rest, rfl⟩
  have hdigit := h.digits b (List.mem_of_mem_head? hb)
  have hspace : (s ++ rest).dropWhile isSpace = s ++ rest := by
    rw [hmore]
    apply List.dropWhile_cons_of_neg
    rw [not_space_of_digit hdigit]
    exact Bool.false_ne_true
  have hsign : splitSign (s ++ rest) = (false, s ++ rest) := by
    rw [hmore]
    exact splitSign_of_digit hdigit more
  have hread : (fun c : UInt8 => decide (48 ≤ c) && decide (c ≤ 57)) = isDigit := rfl
  unfold scanInt
  dsimp only
  rw [hspace, hsign]
  dsimp only
  rw [Nat.sub_self, Nat.sub_zero, hread, hnumber, if_neg hne, hvalue, List.drop_left]
  rfl

/-- Blanks before a number are passed over. -/
theorem scanInt_space (width : ℕ) (s : Bytes) : scanInt width (32 :: s) = scanInt width s := rfl

/-- A number in its width is read back. -/
theorem scanInt_padded {width : ℕ} {n : ℤ} (hwidth : 0 < width) (hlo : 0 ≤ n) (hhi : n < 10 ^ width) (rest : Bytes) :
    scanInt width (padded width n ++ rest) = some (n, rest) := by
  obtain ⟨hspells, hlength⟩ := padded_spells hwidth hlo hhi
  rw [scanInt_digits hspells hlength.le (.inl hlength), Int.toNat_of_nonneg hlo]

/-- So it is without a width, up to a character that is no digit. -/
theorem scanInt_ended {width room : ℕ} {n : ℤ} (hwidth : 0 < width) (hlo : 0 ≤ n) (hhi : n < 10 ^ width)
    (hroom : width ≤ room) {rest : Bytes} (hend : ∀ b ∈ rest.head?, isDigit b = false) :
    scanInt room (padded width n ++ rest) = some (n, rest) := by
  obtain ⟨hspells, hlength⟩ := padded_spells hwidth hlo hhi
  rw [scanInt_digits hspells (hlength.le.trans hroom) (.inr hend), Int.toNat_of_nonneg hlo]

/-- A character that stands there is scanned. -/
theorem scanChar_cons (c : UInt8) (s : Bytes) : scanChar c (c :: s) = some s := if_pos rfl

/-! ## Times of day -/

/-- The fields of a time of day are in their ranges. -/
structure InDay (tm : Tm) : Prop where
  hour_nonneg : 0 ≤ tm.hour
  hour_lt : tm.hour < 10 ^ 2
  min_nonneg : 0 ≤ tm.min
  min_lt : tm.min < 10 ^ 2
  sec_nonneg : 0 ≤ tm.sec
  sec_lt : tm.sec < 10 ^ 2

/-- The time of day is in its day. -/
theorem inDay_tmOf (d : Date) (t : ℤ) : InDay (tmOf d (t % 86400)) := by
  unfold tmOf
  constructor
  all_goals
    dsimp only
    omega

/-- The time of day as its three fields, with what follows. -/
theorem isoTime_eq (tm : Tm) (rest : Bytes) :
    isoTime (lit ":") tm ++ rest =
      padded 2 tm.hour ++ 58 :: (padded 2 tm.min ++ 58 :: (padded 2 tm.sec ++ rest)) := by
  unfold isoTime
  simp only [List.append_assoc]
  rfl

/-- With these widths a number of two digits is read back, behind `pre` and up to what is no digit. -/
def ReadsTwo (width : Bytes → ℕ) (pre : Bytes) : Prop :=
  ∀ n rest, 0 ≤ n → n < 10 ^ 2 → (∀ b ∈ List.head? rest, isDigit b = false) →
    scanInt (width (pre ++ (padded 2 n ++ rest))) (pre ++ (padded 2 n ++ rest)) = some (n, rest)

/-- A field of two digits is read by its width. -/
theorem readsTwo_fixed : ReadsTwo (fun _ => 2) [] :=
  fun _ rest hlo hhi _ => scanInt_padded (by decide) hlo hhi rest

/-- A field of two digits is read as far as the digits go. -/
theorem readsTwo_length : ReadsTwo List.length [] := by
  intro n rest hlo hhi hend
  have hlength := (padded_spells (by decide) hlo hhi).2
  apply scanInt_ended (by decide) hlo hhi _ hend
  rw [List.nil_append, List.length_append, hlength]
  omega

/-- A field of two digits is read after a blank. -/
theorem readsTwo_space : ReadsTwo List.length [32] := by
  intro n rest hlo hhi hend
  have hlength := (padded_spells (by decide) hlo hhi).2
  rw [List.singleton_append, scanInt_space]
  apply scanInt_ended (by decide) hlo hhi _ hend
  rw [List.length_cons, List.length_append, hlength]
  omega

/-- A colon ends a number. -/
theorem colon_ends (s : Bytes) : ∀ b ∈ (58 :: s : Bytes).head?, isDigit b = false := by
  intro b hb
  cases hb
  rfl

/-- The written time of day is scanned as it was. -/
theorem scanTime_eq {width : Bytes → ℕ} {pre rest : Bytes} {tm : Tm} (h : InDay tm) (hfirst : ReadsTwo width pre)
    (hnext : ReadsTwo width []) (hend : ∀ b ∈ rest.head?, isDigit b = false) :
    scanTime width (pre ++ (isoTime (lit ":") tm ++ rest)) = some (tm.hour, tm.min, tm.sec, rest) := by
  have hhour := hfirst tm.hour _ h.hour_nonneg h.hour_lt (colon_ends (padded 2 tm.min ++ 58 :: (padded 2 tm.sec ++ rest)))
  have hmin := hnext tm.min _ h.min_nonneg h.min_lt (colon_ends (padded 2 tm.sec ++ rest))
  have hsec := hnext tm.sec rest h.sec_nonneg h.sec_lt hend
  rw [List.nil_append] at hmin hsec
  rw [isoTime_eq]
  unfold scanTime
  rw [hhour]
  dsimp only [Option.bind_eq_bind, Option.bind_some]
  rw [scanChar_cons, Option.bind_some, hmin]
  dsimp only [Option.bind_some]
  rw [scanChar_cons, Option.bind_some, hsec]
  rfl

/-! ## ISO 8601 -/

/-- A date of four digits of year. -/
structure InEra (tm : Tm) : Prop extends InDay tm where
  year_nonneg : 0 ≤ tm.year
  year_lt : tm.year < 10 ^ 4
  month_pos : 1 ≤ tm.month
  month_le : tm.month ≤ 12
  day_nonneg : 0 ≤ tm.day
  day_lt : tm.day < 10 ^ 2

/-- The date as its three fields, with what follows. -/
theorem isoDate_eq (tm : Tm) (rest : Bytes) :
    isoDate tm ++ rest = padded 4 tm.year ++ 45 :: (padded 2 tm.month ++ 45 :: (padded 2 tm.day ++ rest)) := by
  unfold isoDate
  simp only [List.append_assoc]
  rfl

/-- The written date and time are scanned as they were. -/
theorem scanIso8601_eq {tm : Tm} (h : InEra tm) {rest : Bytes} (hend : ∀ b ∈ rest.head?, isDigit b = false) :
    scanIso8601 (isoDate tm ++ 84 :: (isoTime (lit ":") tm ++ rest)) = some tm := by
  have htime := scanTime_eq h.toInDay readsTwo_fixed readsTwo_fixed hend
  rw [List.nil_append] at htime
  have hpos := h.month_pos
  have hle := h.month_le
  rw [isoDate_eq]
  unfold scanIso8601
  rw [scanInt_padded (by decide) h.year_nonneg h.year_lt]
  dsimp only [Option.bind_eq_bind, Option.bind_some]
  rw [scanChar_cons, Option.bind_some, scanInt_padded (by decide) (by omega) (by omega)]
  dsimp only [Option.bind_some]
  rw [scanChar_cons, Option.bind_some, scanInt_padded (by decide) h.day_nonneg h.day_lt]
  dsimp only [Option.bind_some]
  rw [scanChar_cons, Option.bind_some, htime]
  rfl

/-- Text with no null byte. -/
def Plain (s : Bytes) : Prop := ∀ b ∈ s, b ≠ 0

instance decidablePlain (s : Bytes) : Decidable (Plain s) := inferInstanceAs (Decidable (∀ b ∈ s, b ≠ 0))

/-- The C library reads all of it. -/
theorem Plain.cStr_eq {s : Bytes} (h : Plain s) : cStr s = s :=
  List.takeWhile_eq_self_iff.mpr fun b hb => decide_eq_true (h b hb)

/-- Two texts without zero bytes make one. -/
theorem Plain.append {s t : Bytes} (hs : Plain s) (ht : Plain t) : Plain (s ++ t) := by
  intro b hb
  obtain hb | hb := List.mem_append.mp hb
  · exact hs b hb
  · exact ht b hb

/-- A byte other than zero goes in front of a text without zero bytes. -/
theorem Plain.cons {c : UInt8} (hc : c ≠ 0) {s : Bytes} (hs : Plain s) : Plain (c :: s) := by
  intro b hb
  obtain rfl | hb := List.mem_cons.mp hb
  · exact hc
  · exact hs b hb

/-- A padded number has no zero byte. -/
theorem plain_padded (width : ℕ) (n : ℤ) : Plain (padded width n) := by
  intro b hb heq
  have hlo := (SignedRequests.numeral_padded width n b hb).1
  rw [heq] at hlo
  exact absurd hlo (by decide)

/-- A time of day has no zero byte. -/
theorem plain_time (tm : Tm) {rest : Bytes} (h : Plain rest) : Plain (isoTime (lit ":") tm ++ rest) := by
  have hcolon : (58 : UInt8) ≠ 0 := by decide
  rw [isoTime_eq]
  exact (plain_padded 2 tm.hour).append (.cons hcolon ((plain_padded 2 tm.min).append
    (.cons hcolon ((plain_padded 2 tm.sec).append h))))

/-- A date has no zero byte. -/
theorem plain_isoDate (tm : Tm) {rest : Bytes} (h : Plain rest) : Plain (isoDate tm ++ rest) := by
  have hdash : (45 : UInt8) ≠ 0 := by decide
  rw [isoDate_eq]
  exact (plain_padded 4 tm.year).append (.cons hdash ((plain_padded 2 tm.month).append
    (.cons hdash ((plain_padded 2 tm.day).append h))))

/-- The ISO text of a date and time is parsed as its epoch second. -/
theorem parseIso8601_eq {tm : Tm} (h : InEra tm) {rest : Bytes} (hplain : Plain rest)
    (hend : ∀ b ∈ rest.head?, isDigit b = false) :
    parseIso8601 (isoDate tm ++ 84 :: (isoTime (lit ":") tm ++ rest)) = epochOf tm := by
  have hletter : (84 : UInt8) ≠ 0 := by decide
  unfold parseIso8601
  rw [(plain_isoDate tm (.cons hletter (plain_time tm hplain))).cStr_eq, scanIso8601_eq h hend]

/-! ## Dates of HTTP -/

def weekdays : List Bytes := [lit "Thu", lit "Fri", lit "Sat", lit "Sun", lit "Mon", lit "Tue", lit "Wed"]

def weekday (t : ℤ) : Bytes := weekdays.getD (t / 86400 % 7).toNat []

def monthName (month : ℤ) : Bytes := months.getD (month - 1).toNat []

/-- The date field of RFC 1123; the first day of 1970 was a Thursday. -/
def rfc1123 (t : ℤ) : Bytes :=
  let tm := gmt t
  weekday t ++ lit ", " ++ padded 2 tm.day ++ lit " " ++ monthName tm.month ++ lit " " ++ padded 4 tm.year ++
    lit " " ++ isoTime (lit ":") tm ++ lit " GMT"

example : rfc1123 1787274535 = lit "Fri, 21 Aug 2026 01:08:55 GMT" := by decide +kernel

/-- The date field behind the comma. -/
def httpFields (tm : Tm) : Bytes :=
  32 :: (padded 2 tm.day ++ 32 :: (monthName tm.month ++ 32 :: (padded 4 tm.year ++
    32 :: (isoTime (lit ":") tm ++ 32 :: lit "GMT"))))

/-- An HTTP date is a weekday, a comma and the fields. -/
theorem rfc1123_eq (t : ℤ) : rfc1123 t = weekday t ++ 44 :: httpFields (gmt t) := by
  unfold rfc1123 httpFields
  simp only [List.append_assoc]
  rfl

/-- Three characters of a name. -/
def Name (s : Bytes) : Prop := s.length = 3 ∧ ∀ b ∈ s, b ≠ 0 ∧ b ≠ 44 ∧ isSpace b = false

instance decidableName (s : Bytes) : Decidable (Name s) :=
  inferInstanceAs (Decidable (s.length = 3 ∧ ∀ b ∈ s, b ≠ 0 ∧ b ≠ 44 ∧ isSpace b = false))

/-- A weekday is one of the names. -/
theorem name_weekday (t : ℤ) : Name (weekday t) := by
  have hnames : ∀ s ∈ weekdays, Name s := by decide +kernel
  have hlength : weekdays.length = 7 := rfl
  have hindex : (t / 86400 % 7).toNat < weekdays.length := by omega
  apply hnames
  unfold weekday
  rw [List.getD_eq_getElem _ _ hindex]
  exact List.getElem_mem hindex

section Month

variable {month : ℤ} (hpos : 1 ≤ month) (hle : month ≤ 12)

include hpos hle

/-- A month's name stands at the month's place. -/
theorem monthName_eq : ∃ i : ℕ, ∃ h : i < months.length, monthName month = months[i] ∧ (i : ℤ) + 1 = month := by
  have hlength : months.length = 12 := rfl
  have hindex : (month - 1).toNat < months.length := by omega
  refine ⟨(month - 1).toNat, hindex, ?_, by omega⟩
  unfold monthName
  exact List.getD_eq_getElem _ _ hindex

/-- A month's name is one of the names. -/
theorem name_month : Name (monthName month) := by
  have hnames : ∀ s ∈ months, Name s := by decide +kernel
  obtain ⟨i, hi, hname, -⟩ := monthName_eq hpos hle
  rw [hname]
  exact hnames _ (List.getElem_mem hi)

/-- The place of a month in the table is its number. -/
theorem findIdx_month : ∃ i : ℕ, months.findIdx? (· = monthName month) = some i ∧ (i : ℤ) + 1 = month := by
  have hnodup : months.Nodup := by decide +kernel
  obtain ⟨i, hi, hname, hmonth⟩ := monthName_eq hpos hle
  refine ⟨i, ?_, hmonth⟩
  rw [hname, List.findIdx?_eq_some_iff_getElem]
  refine ⟨hi, decide_eq_true rfl, ?_⟩
  intro j hj hsame
  have heq := hnodup.getElem_inj_iff.mp (of_decide_eq_true hsame)
  omega

end Month

/-- A name between blanks is scanned. -/
theorem scanWord_name {name : Bytes} (h : Name name) (rest : Bytes) :
    scanWord 3 (32 :: (name ++ 32 :: rest)) = some (name, 32 :: rest) := by
  obtain ⟨hlength, hall⟩ := h
  have hne : name ≠ [] := List.ne_nil_of_length_eq_add_one hlength
  have hskip : (32 :: (name ++ 32 :: rest)).dropWhile isSpace = name ++ 32 :: rest := by
    obtain ⟨c, more, rfl⟩ := List.exists_cons_of_ne_nil hne
    have hc := (hall c List.mem_cons_self).2.2
    rw [List.dropWhile_cons_of_pos rfl, List.cons_append, List.dropWhile_cons_of_neg]
    rw [hc]
    exact Bool.false_ne_true
  have htake : (name ++ 32 :: rest).take 3 = name := by
    rw [← hlength]
    exact List.take_left
  have hword : name.takeWhile (fun c => !isSpace c) = name := by
    apply List.takeWhile_eq_self_iff.mpr
    intro c hc
    rw [(hall c hc).2.2]
    rfl
  unfold scanWord
  dsimp only
  rw [hskip, htake, hword, if_neg hne, List.drop_left]

/-- A blank ends a number. -/
theorem space_ends (s : Bytes) : ∀ b ∈ (32 :: s : Bytes).head?, isDigit b = false := by
  intro b hb
  cases hb
  rfl

/-- A number is read back between blanks. -/
theorem scanInt_blanks {width : ℕ} {n : ℤ} (hwidth : 0 < width) (hlo : 0 ≤ n) (hhi : n < 10 ^ width) (rest : Bytes) :
    scanInt (32 :: (padded width n ++ 32 :: rest)).length (32 :: (padded width n ++ 32 :: rest)) =
      some (n, 32 :: rest) := by
  have hlength := (padded_spells hwidth hlo hhi).2
  rw [scanInt_space]
  apply scanInt_ended hwidth hlo hhi _ (space_ends rest)
  rw [List.length_cons, List.length_append, hlength]
  omega

/-- The fields of an HTTP date are scanned as they were. -/
theorem scanHttpDate_eq {tm : Tm} (h : InEra tm) : scanHttpDate (httpFields tm) = some tm := by
  obtain ⟨i, hmonth, hnumber⟩ := findIdx_month h.month_pos h.month_le
  have htime := scanTime_eq h.toInDay readsTwo_space readsTwo_length (space_ends (lit "GMT"))
  have hyear := scanInt_blanks (by decide) h.year_nonneg h.year_lt (isoTime (lit ":") tm ++ 32 :: lit "GMT")
  have hname := scanWord_name (name_month h.month_pos h.month_le)
    (padded 4 tm.year ++ 32 :: (isoTime (lit ":") tm ++ 32 :: lit "GMT"))
  have hday := scanInt_blanks (by decide) h.day_nonneg h.day_lt
    (monthName tm.month ++ 32 :: (padded 4 tm.year ++ 32 :: (isoTime (lit ":") tm ++ 32 :: lit "GMT")))
  rw [List.singleton_append] at htime
  unfold scanHttpDate httpFields
  rw [hday]
  dsimp only [Option.bind_eq_bind, Option.bind_some]
  rw [hname]
  dsimp only [Option.bind_some]
  rw [hyear]
  dsimp only [Option.bind_some]
  rw [htime]
  dsimp only [Option.bind_some]
  rw [hmonth, Option.bind_some, hnumber]
  rfl

/-- What follows the comma of an HTTP date is its fields. -/
theorem afterComma_rfc1123 (t : ℤ) : afterComma (rfc1123 t) = httpFields (gmt t) := by
  have hword : (rfc1123 t).dropWhile (· ≠ 44) = 44 :: httpFields (gmt t) := by
    rw [rfc1123_eq, List.dropWhile_append_of_pos, List.dropWhile_cons_of_neg]
    · simp
    · intro b hb
      exact decide_eq_true ((name_weekday t).2 b hb).2.1
  unfold afterComma
  rw [hword]

/-- An HTTP date has no zero byte. -/
theorem plain_rfc1123 {t : ℤ} (h : InEra (gmt t)) : Plain (rfc1123 t) := by
  have hspace : (32 : UInt8) ≠ 0 := by decide
  have hgmt : Plain (lit " GMT") := by decide +kernel
  have hname {s : Bytes} (h : Name s) : Plain s := fun b hb => (h.2 b hb).1
  rw [rfc1123_eq]
  exact (hname (name_weekday t)).append (.cons (by decide) (.cons hspace ((plain_padded 2 _).append (.cons hspace
    ((hname (name_month h.month_pos h.month_le)).append (.cons hspace ((plain_padded 4 _).append
      (.cons hspace (plain_time _ hgmt)))))))))

/-- An HTTP date is parsed as its epoch second. -/
theorem parseHttpDate_eq {t : ℤ} (h : InEra (gmt t)) : parseHttpDate (rfc1123 t) = epochOf (gmt t) := by
  unfold parseHttpDate
  rw [(plain_rfc1123 h).cStr_eq, afterComma_rfc1123, scanHttpDate_eq h]

/-! ## Seconds -/

/-- 9999-12-31T23:59:59. -/
def lastSecond : ℤ := 253402300799

example : iso8601Seconds lastSecond = lit "9999-12-31T23:59:59Z" := by decide +kernel

/-- The years of the days up to the last. January and February are in the March year before. -/
theorem year_of_serial (d : Date) (hlo : 0 ≤ d.serial) (hhi : d.serial ≤ lastSecond / 86400) :
    0 ≤ d.year ∧ d.year < 10 ^ 4 := by
  have hnonneg := d.marchDay_nonneg
  have hdays : d.marchDay ≤ 365 := d.marchDay_le.elim (fun h => h.trans (by decide)) fun h => h.1.le
  have hlast : lastSecond / 86400 = 2932896 := by decide
  rw [hlast] at hhi
  unfold Date.serial at hlo hhi
  have hmarch : 1969 ≤ d.marchYear ∧ d.marchYear ≤ 9999 := by omega
  have hwinter : d.month ≤ 2 → 306 ≤ d.marchDay := by
    intro hmonth
    have hpos := d.month_pos
    have hday := d.day_pos
    unfold Date.marchDay Date.marchMonth
    rw [if_pos hmonth]
    omega
  obtain hmonth | hmonth := le_or_gt d.month 2
  · have hyear : d.marchYear = d.year - 1 := if_pos hmonth
    have hday := hwinter hmonth
    omega
  · have hyear : d.marchYear = d.year := if_neg (not_le.mpr hmonth)
    omega

/-- A time in the range is that of a date in the era. -/
theorem gmt_inEra {t : ℤ} (hlo : 0 ≤ t) (hhi : t ≤ lastSecond) : InEra (gmt t) ∧ epochOf (gmt t) = t := by
  obtain ⟨d, hday⟩ := Date.counts_serial.surjective (t / 86400)
  have hyear := year_of_serial d (by omega) (by omega)
  have hlength := monthLength_le d.year d.month
  have hdayLe := d.day_le
  have hdayPos := d.day_pos
  rw [gmt_eq d t hday]
  refine ⟨?_, epochOf_tmOf d t hday⟩
  exact
    { inDay_tmOf d t with
      year_nonneg := hyear.1
      year_lt := hyear.2
      month_pos := d.month_pos
      month_le := d.month_le
      day_nonneg := by
        show 0 ≤ d.day
        omega
      day_lt := by
        show d.day < 10 ^ 2
        omega }

/-- ISO text without fraction reads back. -/
theorem parse_iso8601Seconds {t : ℤ} (hlo : 0 ≤ t) (hhi : t ≤ lastSecond) : parseIso8601 (iso8601Seconds t) = t := by
  obtain ⟨hera, hback⟩ := gmt_inEra hlo hhi
  have htext : iso8601Seconds t = isoDate (gmt t) ++ 84 :: (isoTime (lit ":") (gmt t) ++ lit "Z") := by
    unfold iso8601Seconds
    simp only [List.append_assoc]
    rfl
  have hplain : Plain (lit "Z") := by decide +kernel
  rw [htext, parseIso8601_eq hera hplain (by decide +kernel), hback]

/-- ISO text with milliseconds reads back to the second. -/
theorem parse_iso8601 {t ms : ℤ} (hlo : 0 ≤ t) (hhi : t ≤ lastSecond) (hms : 0 ≤ ms) (hms' : ms ≤ 999) :
    parseIso8601 (iso8601 (1000 * t + ms)) = t := by
  obtain ⟨hera, hback⟩ := gmt_inEra hlo hhi
  have hsecond : (1000 * t + ms).tdiv 1000 = t := by
    rw [Int.tdiv_eq_ediv_of_nonneg (by omega)]
    omega
  have hrest : (1000 * t + ms).tmod 1000 = ms := by
    rw [Int.tmod_eq_emod_of_nonneg (by omega)]
    omega
  have htext : iso8601 (1000 * t + ms) =
      isoDate (gmt t) ++ 84 :: (isoTime (lit ":") (gmt t) ++ 46 :: (padded 3 ms ++ lit "Z")) := by
    unfold iso8601
    rw [hsecond, hrest]
    simp only [List.append_assoc]
    rfl
  have hplain : Plain (lit "Z") := by decide +kernel
  have hdot : ∀ b ∈ (46 :: (padded 3 ms ++ lit "Z")).head?, isDigit b = false := by
    intro b hb
    cases hb
    rfl
  rw [htext, parseIso8601_eq hera (.cons (by decide) ((plain_padded 3 ms).append hplain)) hdot, hback]

/-- An HTTP date reads back. -/
theorem parse_rfc1123 {t : ℤ} (hlo : 0 ≤ t) (hhi : t ≤ lastSecond) : parseHttpDate (rfc1123 t) = t := by
  obtain ⟨hera, hback⟩ := gmt_inEra hlo hhi
  rw [parseHttpDate_eq hera, hback]

/-- **Timestamps convert back.** Up to the end of the year 9999 each of the three renderings of a
second is read as this second. The date in it is that of the day, and `days_from_civil` gives for
each date, in the arithmetic of `unsigned`, the number of days from 1970-01-01.
SRC: util.cpp:141-215 -/
theorem timestamps_convert_back :
    (∀ t, 0 ≤ t → t ≤ lastSecond →
      parseIso8601 (iso8601Seconds t) = t ∧
      (∀ ms, 0 ≤ ms → ms ≤ 999 → parseIso8601 (iso8601 (1000 * t + ms)) = t) ∧
      parseHttpDate (rfc1123 t) = t) ∧
    (∀ t, ∃ d : Date, d.IsDay (t / 86400) ∧ gmt t = tmOf d (t % 86400)) ∧
    ∀ (d : Date) (n : ℤ), d.IsDay n ↔ daysFromCivil d.year (UInt32.ofInt d.month) (UInt32.ofInt d.day) = n := by
  refine ⟨?_, ?_, ?_⟩
  · intro t hlo hhi
    exact ⟨parse_iso8601Seconds hlo hhi, fun ms hms hms' => parse_iso8601 hlo hhi hms hms', parse_rfc1123 hlo hhi⟩
  · intro t
    obtain ⟨d, hday⟩ := Date.counts_serial.surjective (t / 86400)
    exact ⟨d, (isDay_iff_serial d _).mpr hday, gmt_eq d t hday⟩
  · intro d n
    rw [daysFromCivil_eq]
    exact isDay_iff_serial d n

end HaikuAgent.Analysis.TimeRoundTrip
