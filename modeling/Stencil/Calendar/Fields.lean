import Stencil.Calendar.Moment
import Stencil.Calendar.Pattern

/-!
# What is known about a date

While a text is matched against a pattern, what each item says is collected.
Saying the same thing twice is allowed, saying two different things is not.  In
the end a date and a time of day are worked out from what is known, by the rules
that chrono 0.4 documents for the fields of a parsed date.
-/

namespace Stencil

/-- What a text says about a date and a time of day. -/
structure DateFields where
  year : Option Int := none
  century : Option Int := none
  yearOfCentury : Option Int := none
  isoYear : Option Int := none
  isoYearOfCentury : Option Int := none
  quarter : Option Nat := none
  month : Option Nat := none
  day : Option Nat := none
  weekFromSunday : Option Nat := none
  weekFromMonday : Option Nat := none
  isoWeek : Option Nat := none
  /-- The day of the week, counted from Monday as zero. -/
  weekday : Option Nat := none
  dayOfYear : Option Nat := none
  dayHalf : Option Nat := none
  hourOfHalf : Option Nat := none
  minute : Option Nat := none
  second : Option Nat := none
  nanosecond : Option Nat := none
  timestamp : Option Int := none
  /-- The offset from universal time in seconds. -/
  offset : Option Int := none
  deriving DecidableEq, Repr, Inhabited

/-- Add a fact to what is known; a contradiction has no outcome. -/
def agree? {α : Type} [DecidableEq α] (known : Option α) (fact : α) :
    Option (Option α) :=
  match known with
  | none => some (some fact)
  | some old => if old = fact then some (some old) else none

/-- Whether a number lies between two bounds, both included. -/
def isBetween (low high number : Int) : Bool :=
  low ≤ number && number ≤ high

namespace DateFields

def setHour? (fields : DateFields) (hour : Nat) : Option DateFields :=
  if hour < 24 then do
    let dayHalf ← agree? fields.dayHalf (hour / 12)
    let hourOfHalf ← agree? fields.hourOfHalf (hour % 12)
    some { fields with dayHalf, hourOfHalf }
  else
    none

def setNanosecond? (fields : DateFields) (nanosecond : Nat) : Option DateFields := do
  let nanosecond ← agree? fields.nanosecond nanosecond
  some { fields with nanosecond }

def setMonth? (fields : DateFields) (month : Nat) : Option DateFields := do
  let month ← agree? fields.month month
  some { fields with month }

/-- Add the day of the week, counted from Monday as zero. -/
def setWeekday? (fields : DateFields) (weekday : Nat) : Option DateFields := do
  let weekday ← agree? fields.weekday weekday
  some { fields with weekday }

def setDayHalf? (fields : DateFields) (dayHalf : Nat) : Option DateFields := do
  let dayHalf ← agree? fields.dayHalf dayHalf
  some { fields with dayHalf }

/-- Add the offset from universal time. -/
def setOffset? (fields : DateFields) (offset : Int) : Option DateFields := do
  let offset ← agree? fields.offset offset
  some { fields with offset }

/-- Add a number, which has to be in the range of what it says. -/
def setNumber? (fields : DateFields) (kind : DateNumber) (number : Int) :
    Option DateFields :=
  let natural := number.toNat
  match kind with
  | .year =>
      if fitsWord 32 number then do
        let year ← agree? fields.year number
        some { fields with year }
      else none
  | .century =>
      if isBetween 0 (Nat.pow 2 31 - 1) number then do
        let century ← agree? fields.century number
        some { fields with century }
      else none
  | .yearOfCentury =>
      if isBetween 0 99 number then do
        let yearOfCentury ← agree? fields.yearOfCentury number
        some { fields with yearOfCentury }
      else none
  | .isoYear =>
      if fitsWord 32 number then do
        let isoYear ← agree? fields.isoYear number
        some { fields with isoYear }
      else none
  | .isoYearOfCentury =>
      if isBetween 0 99 number then do
        let isoYearOfCentury ← agree? fields.isoYearOfCentury number
        some { fields with isoYearOfCentury }
      else none
  | .quarter =>
      if isBetween 1 4 number then do
        let quarter ← agree? fields.quarter natural
        some { fields with quarter }
      else none
  | .month =>
      if isBetween 1 12 number then fields.setMonth? natural else none
  | .day =>
      if isBetween 1 31 number then do
        let day ← agree? fields.day natural
        some { fields with day }
      else none
  | .weekFromSunday =>
      if isBetween 0 53 number then do
        let weekFromSunday ← agree? fields.weekFromSunday natural
        some { fields with weekFromSunday }
      else none
  | .weekFromMonday =>
      if isBetween 0 53 number then do
        let weekFromMonday ← agree? fields.weekFromMonday natural
        some { fields with weekFromMonday }
      else none
  | .isoWeek =>
      if isBetween 1 53 number then do
        let isoWeek ← agree? fields.isoWeek natural
        some { fields with isoWeek }
      else none
  | .weekdayFromSunday =>
      if isBetween 0 6 number then fields.setWeekday? ((natural + 6) % 7) else none
  | .weekdayFromMonday =>
      if isBetween 1 7 number then fields.setWeekday? (natural - 1) else none
  | .dayOfYear =>
      if isBetween 1 366 number then do
        let dayOfYear ← agree? fields.dayOfYear natural
        some { fields with dayOfYear }
      else none
  | .hour => if isBetween 0 23 number then fields.setHour? natural else none
  | .hourOfHalf =>
      if isBetween 1 12 number then do
        let hourOfHalf ← agree? fields.hourOfHalf (natural % 12)
        some { fields with hourOfHalf }
      else none
  | .minute =>
      if isBetween 0 59 number then do
        let minute ← agree? fields.minute natural
        some { fields with minute }
      else none
  | .second =>
      if isBetween 0 60 number then do
        let second ← agree? fields.second natural
        some { fields with second }
      else none
  | .nanosecond =>
      if isBetween 0 999999999 number then fields.setNanosecond? natural else none
  | .timestamp => do
      let timestamp ← agree? fields.timestamp number
      some { fields with timestamp }

end DateFields

/-- Why no date or time follows from what is known. -/
inductive Undetermined where
  /-- Something is missing. -/
  | incomplete
  /-- What is known cannot be, or contradicts itself. -/
  | contradictory
  deriving DecidableEq, Repr, Inhabited

/-- Whether a known fact, if there is one, agrees with what was worked out. -/
def confirms {α : Type} [DecidableEq α] (known : Option α) (actual : α) : Bool :=
  known.all fun fact => fact = actual

/-- A result, or the finding that what is known cannot be. -/
def orContradictory {α : Type} : Option α → Except Undetermined α
  | some value => .ok value
  | none => .error .contradictory

/-- Work out a year from the year itself, its century and its two last digits.
Two digits alone mean a year from 1970 to 2069. -/
def resolveYear (year century yearOfCentury : Option Int) :
    Except Undetermined (Option Int) :=
  match year, century, yearOfCentury with
  | year, none, none => .ok year
  | some year, century, yearOfCentury =>
      if 0 ≤ year && confirms century (year / 100) &&
          confirms yearOfCentury (year % 100) then
        .ok (some year)
      else
        .error .contradictory
  | none, some century, some rest =>
      let year := century * 100 + rest
      if fitsWord 32 year then .ok (some year) else .error .contradictory
  | none, none, some rest =>
      .ok (some (if rest < 70 then rest + 2000 else rest + 1900))
  | none, some _, none => .error .incomplete

/-- The date with a given weekday in a given week of a year, when weeks begin on
`start` and the days before the first such day are week zero. -/
def resolveWeek (year : Int) (week weekday start : Nat) :
    Except Undetermined CalendarDate :=
  if CalendarDate.isYearInRange year then
    let weekOne :=
      1 + CalendarDate.daysSinceWeekday start (CalendarDate.firstWeekday year)
    let dayOfYear : Int :=
      weekOne + ((week : Int) - 1) * 7 + CalendarDate.daysSinceWeekday weekday start
    if 0 < dayOfYear then
      orContradictory (CalendarDate.ofDayOfYear? year dayOfYear.toNat)
    else
      .error .contradictory
  else
    .error .contradictory

namespace DateFields

/-- Whether a date agrees with the known year, month and day. -/
def confirmsMonthDay (fields : DateFields) (date : CalendarDate) : Bool :=
  confirms fields.year date.year &&
    (if 0 ≤ date.year then
      confirms fields.century (date.year / 100) &&
        confirms fields.yearOfCentury (date.year % 100)
    else
      fields.century.isNone && fields.yearOfCentury.isNone) &&
    confirms fields.month date.month && confirms fields.day date.day

/-- Whether a date agrees with the known week, its year and the weekday. -/
def confirmsIsoWeek (fields : DateFields) (date : CalendarDate) : Bool :=
  let (isoYear, isoWeek) := date.isoWeek
  confirms fields.isoYear isoYear &&
    (if 0 ≤ isoYear then
      confirms fields.isoYearOfCentury (isoYear % 100)
    else
      fields.isoYearOfCentury.isNone) &&
    confirms fields.isoWeek isoWeek && confirms fields.weekday date.weekday

/-- Whether a date agrees with the known day and week of the year. -/
def confirmsDayOfYear (fields : DateFields) (date : CalendarDate) : Bool :=
  confirms fields.dayOfYear date.dayOfYear &&
    confirms fields.weekFromSunday (date.weekFrom 6) &&
    confirms fields.weekFromMonday (date.weekFrom 0)

/-- A date that has to pass a check against everything else that is known. -/
def verified (fields : DateFields) (agrees : Bool) (date : CalendarDate) :
    Except Undetermined CalendarDate :=
  if agrees && confirms fields.quarter date.quarter then
    .ok date
  else
    .error .contradictory

/-- Work out the date, from the first of these that is known: year, month and
day; year and day of the year; year, week from Sunday and weekday; year, week
from Monday and weekday; year of the week, week and weekday. -/
def resolveDate (fields : DateFields) : Except Undetermined CalendarDate := do
  let year? ← resolveYear fields.year fields.century fields.yearOfCentury
  let isoYear? ← resolveYear fields.isoYear none fields.isoYearOfCentury
  let agrees (date : CalendarDate) : Bool :=
    fields.confirmsMonthDay date && fields.confirmsIsoWeek date &&
      fields.confirmsDayOfYear date
  match year?, fields.month, fields.day with
  | some year, some month, some day =>
      let date ← orContradictory (CalendarDate.ofMonthDay? year month day)
      fields.verified
        (fields.confirmsIsoWeek date && fields.confirmsDayOfYear date) date
  | _, _, _ =>
      match year?, fields.dayOfYear with
      | some year, some dayOfYear =>
          let date ← orContradictory (CalendarDate.ofDayOfYear? year dayOfYear)
          fields.verified (agrees date) date
      | _, _ =>
          match year?, fields.weekFromSunday, fields.weekFromMonday,
              fields.weekday with
          | some year, some week, _, some weekday =>
              let date ← resolveWeek year week weekday 6
              fields.verified (agrees date) date
          | some year, none, some week, some weekday =>
              let date ← resolveWeek year week weekday 0
              fields.verified (agrees date) date
          | _, _, _, _ =>
              match isoYear?, fields.isoWeek, fields.weekday with
              | some isoYear, some week, some weekday =>
                  let date ←
                    orContradictory (CalendarDate.ofIsoWeek? isoYear week weekday)
                  fields.verified
                    (fields.confirmsMonthDay date && fields.confirmsDayOfYear date)
                    date
              | _, _, _ => .error .incomplete

/-- Work out the time of day.  Hour and minute have to be known; second sixty is
a leap second. -/
def resolveTime (fields : DateFields) : Except Undetermined ClockTime :=
  match fields.dayHalf, fields.hourOfHalf, fields.minute with
  | some dayHalf, some hourOfHalf, some minute =>
      let hour := dayHalf * 12 + hourOfHalf
      match fields.second, fields.nanosecond with
      | none, some _ => .error .incomplete
      | none, none => .ok ⟨hour, minute, 0, 0⟩
      | some second, nanosecond =>
          let nanosecond := nanosecond.getD 0
          if second = 60 then
            .ok ⟨hour, minute, 59, 1000000000 + nanosecond⟩
          else
            .ok ⟨hour, minute, second, nanosecond⟩
  | _, _, _ => .error .incomplete

/-- Add what a timestamp says about year, day of the year and time of day.  A
known leap second belongs to the second before it. -/
def withTimestamp? (fields : DateFields) (timestamp : Int) : Option DateFields := do
  let moment ← Moment.ofTimestamp? timestamp
  let (fields, moment) ←
    if fields.second = some 60 then
      if moment.time.second = 59 then
        some (fields, moment)
      else if moment.time.second = 0 then
        (Moment.ofTimestamp? (timestamp - 1)).map fun earlier => (fields, earlier)
      else
        none
    else
      (fields.setNumber? .second moment.time.second).map fun fields =>
        (fields, moment)
  let fields ← fields.setNumber? .year moment.date.year
  let fields ← fields.setNumber? .dayOfYear moment.date.dayOfYear
  let fields ← fields.setHour? moment.time.hour
  fields.setNumber? .minute moment.time.minute

/-- Whether a timestamp, if one is known, belongs to a moment.  A leap second may
have its own or that of the second before it. -/
def confirmsTimestamp (fields : DateFields) (moment : Moment) : Bool :=
  fields.timestamp.all fun given =>
    given = moment.timestamp ||
      (1000000000 ≤ moment.time.nanosecond && given = moment.timestamp + 1)

/-- Work out a date with a time of day.  Where they do not follow from the other
facts but contradict none, a timestamp helps. -/
def resolveMoment? (fields : DateFields) : Option Moment :=
  match fields.resolveDate, fields.resolveTime, fields.timestamp with
  | .ok date, .ok time, _ =>
      let moment : Moment := ⟨date, time⟩
      if fields.confirmsTimestamp moment then some moment else none
  | .error .contradictory, _, _ => none
  | _, .error .contradictory, _ => none
  | _, _, none => none
  | _, _, some timestamp => do
      let filled ← fields.withTimestamp? timestamp
      let date ← filled.resolveDate.toOption
      let time ← filled.resolveTime.toOption
      some ⟨date, time⟩

end DateFields

end Stencil
