import HaikuAgent.Model.Util

/-!
# Timestamps (`util.cpp`)

The renderings the agent puts in its replies and reports, and the two that it reads. `gmtime_r`
is the proleptic Gregorian calendar in UTC, for every second count, before 1970 too.
-/

set_option autoImplicit false

namespace HaikuAgent.Model.Time

open HaikuAgent.Foundation

/-- The members of `struct tm` that are printed, with the month and year offsets undone. -/
structure Tm where
  year : ℤ
  month : ℤ
  day : ℤ
  hour : ℤ
  min : ℤ
  sec : ℤ
  deriving DecidableEq

/-- `gmtime_r`. Days are counted from 1 March of year 0, in eras of 400 years.
SRC: util.cpp:118-123 -/
def gmt (epoch : ℤ) : Tm :=
  let z := epoch / 86400 + 719468
  let secs := epoch % 86400
  let era := z / 146097
  let doe := z % 146097
  let yoe := (doe - doe / 1460 + doe / 36524 - doe / 146096) / 365
  let doy := doe - (365 * yoe + yoe / 4 - yoe / 100)
  let mp := (5 * doy + 2) / 153
  let month := if mp < 10 then mp + 3 else mp - 9
  { year := yoe + era * 400 + (if month ≤ 2 then 1 else 0)
    month
    day := doy - (153 * mp + 2) / 5 + 1
    hour := secs / 3600
    min := secs % 3600 / 60
    sec := secs % 60 }

/-- `printf("%0*d", width, n)`. -/
def padded (width : ℕ) (n : ℤ) : Bytes :=
  let sign := if n < 0 then lit "-" else []
  let digits := toStringNat n.natAbs
  sign ++ List.replicate (width - sign.length - digits.length) 48 ++ digits

/-- `YYYY-MM-DD`. -/
def isoDate (tm : Tm) : Bytes :=
  padded 4 tm.year ++ lit "-" ++ padded 2 tm.month ++ lit "-" ++ padded 2 tm.day

def isoTime (sep : Bytes) (tm : Tm) : Bytes :=
  padded 2 tm.hour ++ sep ++ padded 2 tm.min ++ sep ++ padded 2 tm.sec

/-- SRC: util.cpp:141-148 -/
def iso8601 (epochMs : ℤ) : Bytes :=
  let tm := gmt (epochMs.tdiv 1000)
  isoDate tm ++ lit "T" ++ isoTime (lit ":") tm ++ lit "." ++ padded 3 (epochMs.tmod 1000) ++ lit "Z"

/-- SRC: util.cpp:150-156 -/
def iso8601Seconds (epoch : ℤ) : Bytes :=
  let tm := gmt epoch
  isoDate tm ++ lit "T" ++ isoTime (lit ":") tm ++ lit "Z"

/-- SRC: util.cpp:158-165 -/
def isoDash (epochMs : ℤ) : Bytes :=
  let tm := gmt (epochMs.tdiv 1000)
  isoDate tm ++ lit "T" ++ isoTime (lit "-") tm ++ lit "." ++ padded 3 (epochMs.tmod 1000) ++ lit "Z"

example : iso8601 1787274535123 = lit "2026-08-21T01:08:55.123Z" := by decide +kernel

/-! ## Reading -/

/-- An `unsigned` is a `UInt32`; `y` stays in the range of `int` where `y - 399` does.
SRC: util.cpp:180-187 -/
def daysFromCivil (y : ℤ) (m d : UInt32) : ℤ :=
  let y := if m ≤ 2 then y - 1 else y
  let era := (if 0 ≤ y then y else y - 399).tdiv 400
  let yoe := UInt32.ofInt (y - era * 400)
  let doy := (153 * (m + (if 2 < m then -3 else 9)) + 2) / 5 + d - 1
  let doe := yoe * 365 + yoe / 4 - yoe / 100 + doy
  era * 146097 + (doe.toNat : ℤ) - 719468

/-- `s.c_str()` as the C library reads it. -/
def cStr (s : Bytes) : Bytes := s.takeWhile (· ≠ 0)

/-- `std::isspace` -/
def isSpace (c : UInt8) : Bool := c == 32 || (9 ≤ c && c ≤ 13)

/-- `%d` of `std::sscanf` with a field width. A number that does not fit into an `int` is
undefined there and stays what it is here.
SRC: the standard library -/
def scanInt (width : ℕ) (s : Bytes) : Option (ℤ × Bytes) :=
  let s := s.dropWhile isSpace
  let (negative, digits) := splitSign s
  let number := (digits.take (width - (s.length - digits.length))).takeWhile fun c => 48 ≤ c && c ≤ 57
  let magnitude : ℕ := number.foldl (fun n c => 10 * n + (c.toNat - 48)) 0
  if number = [] then none
  else some (if negative then -(magnitude : ℤ) else magnitude, digits.drop number.length)

/-- `%s` with a field width.
SRC: the standard library -/
def scanWord (width : ℕ) (s : Bytes) : Option (Bytes × Bytes) :=
  let s := s.dropWhile isSpace
  let word := (s.take width).takeWhile fun c => !isSpace c
  if word = [] then none else some (word, s.drop word.length)

/-- A character of the format. -/
def scanChar (c : UInt8) (s : Bytes) : Option Bytes := if s.head? = some c then some s.tail else none

/-- `%2d:%2d:%2d`, or the same without widths. -/
def scanTime (width : Bytes → ℕ) (s : Bytes) : Option (ℤ × ℤ × ℤ × Bytes) := do
  let (hour, s) ← scanInt (width s) s
  let s ← scanChar 58 s
  let (min, s) ← scanInt (width s) s
  let s ← scanChar 58 s
  let (sec, s) ← scanInt (width s) s
  return (hour, min, sec, s)

/-- `%4d-%2d-%2dT%2d:%2d:%2d` -/
def scanIso8601 (s : Bytes) : Option Tm := do
  let (year, s) ← scanInt 4 s
  let s ← scanChar 45 s
  let (month, s) ← scanInt 2 s
  let s ← scanChar 45 s
  let (day, s) ← scanInt 2 s
  let s ← scanChar 84 s
  let (hour, min, sec, _) ← scanTime (fun _ => 2) s
  return { year, month, day, hour, min, sec }

/-- The seconds since 1970. -/
def epochOf (tm : Tm) : ℤ :=
  daysFromCivil tm.year (UInt32.ofInt tm.month) (UInt32.ofInt tm.day) * 86400 + tm.hour * 3600 + tm.min * 60 + tm.sec

/-- SRC: util.cpp:191-197 -/
def parseIso8601 (s : Bytes) : ℤ :=
  match scanIso8601 (cStr s) with
  | none => 0
  | some tm => epochOf tm

/-- SRC: util.cpp:201-202 -/
def months : List Bytes :=
  [lit "Jan", lit "Feb", lit "Mar", lit "Apr", lit "May", lit "Jun",
   lit "Jul", lit "Aug", lit "Sep", lit "Oct", lit "Nov", lit "Dec"]

/-- ` %d %3s %d %d:%d:%d`; the month is the place of its name in the table.
SRC: util.cpp:207-212 -/
def scanHttpDate (s : Bytes) : Option Tm := do
  let (day, s) ← scanInt s.length s
  let (monName, s) ← scanWord 3 s
  let (year, s) ← scanInt s.length s
  let (hour, min, sec, _) ← scanTime List.length s
  let i ← months.findIdx? (· = monName)
  return { year, month := i + 1, day, hour, min, sec }

/-- What follows the first comma, or all of it. -/
def afterComma (s : Bytes) : Bytes :=
  match s.dropWhile (· ≠ 44) with
  | [] => s
  | _ :: rest => rest

/-- SRC: util.cpp:199-215 -/
def parseHttpDate (s : Bytes) : ℤ :=
  match scanHttpDate (afterComma (cStr s)) with
  | none => 0
  | some tm => epochOf tm

example : parseHttpDate (lit "Fri, 21 Aug 2026 01:08:55 GMT") = 1787274535 := by decide +kernel

end HaikuAgent.Model.Time
