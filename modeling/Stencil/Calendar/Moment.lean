import Stencil.Number.Text

/-!
# Dates and times of day

The Gregorian calendar, extended to all years in both directions; the year
before year one is year zero.  A time of day may be a leap second, which is kept
as second fifty-nine with a billion nanoseconds or more.  The range of the years
and the kept leap second are those of the dates of chrono 0.4.
-/

namespace Stencil

/-- A day of the calendar. -/
structure CalendarDate where
  year : Int
  month : Nat
  day : Nat
  deriving DecidableEq, Repr, Inhabited

/-- A time of day. -/
structure ClockTime where
  hour : Nat
  minute : Nat
  second : Nat
  nanosecond : Nat
  deriving DecidableEq, Repr, Inhabited

/-- A time of day on a day of the calendar. -/
structure Moment where
  date : CalendarDate
  time : ClockTime
  deriving DecidableEq, Repr, Inhabited

namespace CalendarDate

def firstYear : Int := -262143

def lastYear : Int := 262142

def isLeapYear (year : Int) : Bool :=
  year % 4 == 0 && (year % 100 != 0 || year % 400 == 0)

def monthLengths (year : Int) : List Nat :=
  [31, if isLeapYear year then 29 else 28, 31, 30, 31, 30, 31, 31, 30, 31, 30, 31]

def yearLength (year : Int) : Nat :=
  if isLeapYear year then 366 else 365

def isYearInRange (year : Int) : Bool :=
  firstYear ≤ year && year ≤ lastYear

def ofMonthDay? (year : Int) (month day : Nat) : Option CalendarDate :=
  if isYearInRange year && 1 ≤ month && 1 ≤ day &&
      (monthLengths year)[month - 1]?.any (day ≤ ·) then
    some ⟨year, month, day⟩
  else
    none

/-- Find the month and day of a day counted from the beginning of the months in
the list, the first of which is `month`. -/
def splitDayOfYear (month dayOfYear : Nat) : List Nat → Nat × Nat
  | [] => (month, dayOfYear)
  | length :: lengths =>
      if dayOfYear ≤ length then
        (month, dayOfYear)
      else
        splitDayOfYear (month + 1) (dayOfYear - length) lengths

def ofDayOfYear? (year : Int) (dayOfYear : Nat) : Option CalendarDate :=
  if isYearInRange year && 1 ≤ dayOfYear && dayOfYear ≤ yearLength year then
    let (month, day) := splitDayOfYear 1 dayOfYear (monthLengths year)
    some ⟨year, month, day⟩
  else
    none

def dayOfYear (date : CalendarDate) : Nat :=
  ((monthLengths date.year).take (date.month - 1)).foldl (· + ·) 0 + date.day

/-- The number of days before a year, counted from the beginning of year one. -/
def daysBeforeYear (year : Int) : Int :=
  let past := year - 1
  365 * past + past / 4 - past / 100 + past / 400

/-- The number of a day; the first day of year one has number one. -/
def dayNumber (date : CalendarDate) : Int :=
  daysBeforeYear date.year + date.dayOfYear

/-- The date with a given day number, if it is in range.  The year is estimated
from the mean length of a year and may be one too small. -/
def ofDayNumber? (number : Int) : Option CalendarDate :=
  let estimate := 400 * (number - 1) / 146097
  let candidates := [estimate, estimate + 1, estimate + 2]
  (candidates.find? fun year => number ≤ daysBeforeYear (year + 1)).bind fun year =>
    ofDayOfYear? year (number - daysBeforeYear year).toNat

/-- The day of the week of a day number, counted from Monday as zero. -/
def weekdayOfNumber (number : Int) : Nat :=
  ((number - 1) % 7).toNat

/-- The day of the week of a date, counted from Monday as zero. -/
def weekday (date : CalendarDate) : Nat :=
  weekdayOfNumber date.dayNumber

def firstWeekday (year : Int) : Nat :=
  weekdayOfNumber (daysBeforeYear year + 1)

def daysSinceWeekday (weekday target : Nat) : Nat :=
  (weekday + 7 - target) % 7

/-- The week of its year in which a date is, when weeks begin on `start` and the
days before the first such day are week zero. -/
def weekFrom (start : Nat) (date : CalendarDate) : Nat :=
  (date.dayOfYear + 6 - daysSinceWeekday date.weekday start) / 7

/-- The number of weeks that belong to a year when a week belongs to the year in
which its Thursday is. -/
def isoWeekCount (year : Int) : Nat :=
  if firstWeekday year = 3 ∨ (isLeapYear year ∧ firstWeekday year = 2) then 53
  else 52

/-- The year to which the week of a date belongs, and the number of the week. -/
def isoWeek (date : CalendarDate) : Int × Nat :=
  let rawWeek := (date.dayOfYear + 9 - date.weekday) / 7
  if rawWeek = 0 then
    (date.year - 1, isoWeekCount (date.year - 1))
  else if isoWeekCount date.year < rawWeek then
    (date.year + 1, 1)
  else
    (date.year, rawWeek)

def ofIsoWeek? (year : Int) (week weekday : Nat) : Option CalendarDate :=
  if isYearInRange year && 1 ≤ week && week ≤ isoWeekCount year then
    let january4 := daysBeforeYear year + 4
    let firstMonday := january4 - weekdayOfNumber january4
    ofDayNumber? (firstMonday + 7 * (week - 1) + weekday)
  else
    none

def quarter (date : CalendarDate) : Nat :=
  (date.month - 1) / 3 + 1

end CalendarDate

namespace Moment

/-- The number of the day from which timestamps count seconds. -/
def epochDayNumber : Int := 719163

/-- The seconds from the beginning of 1970 to a moment; a leap second counts like
the second before it. -/
def timestamp (moment : Moment) : Int :=
  let time := moment.time
  (moment.date.dayNumber - epochDayNumber) * 86400 +
    (time.hour * 3600 + time.minute * 60 + time.second : Nat)

/-- The moment of a timestamp, if its date is in range. -/
def ofTimestamp? (timestamp : Int) : Option Moment :=
  let second := (timestamp % 86400).toNat
  (CalendarDate.ofDayNumber? (timestamp / 86400 + epochDayNumber)).map fun date =>
    ⟨date, ⟨second / 3600, second / 60 % 60, second % 60, 0⟩⟩

/-- A number with zeros in front of it to at least `width` digits. -/
def padded (width number : Nat) : String :=
  let digits := decimalDigits number
  String.ofList (List.replicate (width - digits.length) '0' ++ digits)

/-- The text of a year: four digits, and a sign in front of them if the year is
negative or has more digits. -/
def yearText (year : Int) : String :=
  if 0 ≤ year ∧ year ≤ 9999 then
    padded 4 year.toNat
  else
    (if year < 0 then "-" else "+") ++ padded 4 year.natAbs

/-- The text of a moment: year, month and day, the letter T, and the time to the
second.  A leap second is second sixty. -/
def text (moment : Moment) : String :=
  let date := moment.date
  let time := moment.time
  yearText date.year ++ "-" ++ padded 2 date.month ++ "-" ++ padded 2 date.day ++
    "T" ++ padded 2 time.hour ++ ":" ++ padded 2 time.minute ++ ":" ++
    padded 2 (time.second + time.nanosecond / 1000000000)

end Moment

end Stencil
