/-!
# Dates and times

Times are counted in milliseconds from the start of 1970, in universal time and without leap seconds.

* `Date.days` : the number of a day;
* `millis?` : the time of a date and a clock reading, if they exist;
* `ofDos?` : the time of the two words in which zip files keep it;
* `Date.ofDays` : the date of a day, for the names of files.
-/

namespace JarSurvey.Calendar

/-- Whether a year has a leap day. -/
def isLeap (year : Nat) : Bool :=
  year % 4 = 0 && (year % 100 ≠ 0 || year % 400 = 0)

/-- The number of days of a month. -/
def monthLength (year month : Nat) : Nat :=
  if month = 2 then (if isLeap year then 29 else 28)
  else if month = 4 ∨ month = 6 ∨ month = 9 ∨ month = 11 then 30
  else 31

/-- The number of days of a year. -/
def yearLength (year : Nat) : Nat :=
  if isLeap year then 366 else 365

/-- A day of the Gregorian calendar. -/
structure Date where
  year : Nat
  month : Nat
  day : Nat
  deriving DecidableEq, Repr

/-- The days before a year, from the start of year zero. -/
def daysBeforeYear (year : Nat) : Nat :=
  if year = 0 then 0
  else year * 365 + (year - 1) / 4 + 1 - (year - 1) / 100 + (year - 1) / 400

/-- The days of a year before a month. -/
def daysBeforeMonth (year month : Nat) : Nat :=
  ((List.range month).drop 1).foldl (fun days m => days + monthLength year m) 0

/-- Whether a date exists. -/
def Date.isValid (date : Date) : Bool :=
  1 ≤ date.month && date.month ≤ 12 && 1 ≤ date.day &&
    date.day ≤ monthLength date.year date.month

/-- The number of a day, from the start of 1970. -/
def Date.days (date : Date) : Int :=
  (daysBeforeYear date.year + daysBeforeMonth date.year date.month + (date.day - 1) : Nat) -
    (daysBeforeYear 1970 : Nat)

/-- The milliseconds of a date and a clock reading, if both exist. -/
def millis? (date : Date) (hour minute second : Nat) : Option Int :=
  if date.isValid && hour < 24 && minute < 60 && second < 60 then
    some ((date.days * 86400 + (hour * 3600 + minute * 60 + second : Nat)) * 1000)
  else none

/-- The time of the two words of a zip entry: seven bits for the years from 1980, four for the month,
five for the day; five for the hour, six for the minute, five for half the seconds. -/
def ofDos? (date time : Nat) : Option Int :=
  millis? ⟨1980 + date / 512 % 128, date / 32 % 16, date % 32⟩
    (time / 2048 % 32) (time / 32 % 64) (time % 32 * 2)

/-- The milliseconds of a time in nanoseconds; a fraction counts down. -/
def millisOfNanos (nanos : Int) : Int :=
  nanos.fdiv 1000000

/-- The year that a day falls in and its place there, looking from `year` on through at most `bound`
years. -/
def splitYear (year : Nat) : Nat → Nat → Nat × Nat
  | 0, days => (year, days)
  | bound + 1, days =>
    if days < yearLength year then (year, days)
    else splitYear (year + 1) bound (days - yearLength year)

/-- The month that a day of a year falls in and its place there, looking from `month` on through at
most `bound` months. -/
def splitMonth (year month : Nat) : Nat → Nat → Nat × Nat
  | 0, days => (month, days)
  | bound + 1, days =>
    if days < monthLength year month then (month, days)
    else splitMonth year (month + 1) bound (days - monthLength year month)

/-- The date of a day, by its number from the start of 1970. -/
def Date.ofDays (days : Nat) : Date :=
  let (year, inYear) := splitYear 1970 (days / 365 + 1) days
  let (month, inMonth) := splitMonth year 1 12 inYear
  ⟨year, month, inMonth + 1⟩

/-- The last `width` decimal digits of `n`. -/
def decimalDigits : Nat → Nat → List Char
  | 0, _ => []
  | width + 1, n => decimalDigits width (n / 10) ++ [Char.ofNat ('0'.toNat + n % 10)]

/-- A date as `YYYY-MM-DD`. -/
def Date.text (date : Date) : String :=
  String.ofList (decimalDigits 4 date.year ++ '-' :: decimalDigits 2 date.month ++
    '-' :: decimalDigits 2 date.day)

end JarSurvey.Calendar
