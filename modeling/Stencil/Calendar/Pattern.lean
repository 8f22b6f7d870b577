import Stencil.Text.Blank

/-!
# Date patterns

A pattern is literal text with specifiers: a percent sign and a letter, for a
number, a name or an offset.  Some specifiers stand for several items at once,
and a flag between sign and letter is allowed where the letter stands for one
number.  The specifiers and their flags are those that chrono 0.4 documents for
format strings.
-/

namespace Stencil

/-- The numbers that can be read from a date. -/
inductive DateNumber where
  | year
  | century
  | yearOfCentury
  | isoYear
  | isoYearOfCentury
  | quarter
  | month
  | day
  | weekFromSunday
  | weekFromMonday
  | isoWeek
  /-- A weekday counted from Sunday as zero. -/
  | weekdayFromSunday
  /-- A weekday counted from Monday as one. -/
  | weekdayFromMonday
  | dayOfYear
  | hour
  | hourOfHalf
  | minute
  | second
  | nanosecond
  | timestamp
  deriving DecidableEq, Repr, Inhabited

/-- One item of a date pattern. -/
inductive PatternItem where
  /-- A character that has to be there. -/
  | literal (character : Char)
  /-- Any amount of white space, or none. -/
  | blanks
  | number (kind : DateNumber)
  | shortMonth
  | longMonth
  | shortWeekday
  | longWeekday
  /-- The half of the day. -/
  | dayHalf
  /-- A point and any number of decimal places of a second, or nothing. -/
  | fraction
  /-- A point and a fixed number of decimal places, or nothing. -/
  | fixedFraction (places : Nat)
  /-- A fixed number of decimal places without a point. -/
  | bareFraction (places : Nat)
  /-- The name of a time zone, which is ignored. -/
  | zoneName
  /-- The offset of a time zone. -/
  | zoneOffset
  /-- The offset of a time zone, for which a letter may stand, and of which the
  minutes may be missing. -/
  | looseZoneOffset
  /-- A full date with time and offset. -/
  | internetTimestamp
  deriving DecidableEq, Repr, Inhabited

namespace PatternItem

def numberOfLetter? (letter : Char) : Option DateNumber :=
  match letter with
  | 'C' => some .century
  | 'G' => some .isoYear
  | 'H' => some .hour
  | 'I' => some .hourOfHalf
  | 'M' => some .minute
  | 'S' => some .second
  | 'U' => some .weekFromSunday
  | 'V' => some .isoWeek
  | 'W' => some .weekFromMonday
  | 'Y' => some .year
  | 'd' => some .day
  | 'e' => some .day
  | 'f' => some .nanosecond
  | 'g' => some .isoYearOfCentury
  | 'j' => some .dayOfYear
  | 'k' => some .hour
  | 'l' => some .hourOfHalf
  | 'm' => some .month
  | 'q' => some .quarter
  | 's' => some .timestamp
  | 'u' => some .weekdayFromMonday
  | 'w' => some .weekdayFromSunday
  | 'y' => some .yearOfCentury
  | _ => none

/-- Several numbers with one character between neighbours. -/
def separated (separator : Char) (kinds : List DateNumber) : List PatternItem :=
  (kinds.map PatternItem.number).intersperse (.literal separator)

/-- Month, day and year of the century. -/
def slashedDate : List PatternItem :=
  separated '/' [.month, .day, .yearOfCentury]

/-- Hour, minute and second. -/
def clock : List PatternItem :=
  separated ':' [.hour, .minute, .second]

def itemsOfLetter? (letter : Char) : Option (List PatternItem) :=
  match letter with
  | 'A' => some [.longWeekday]
  | 'B' => some [.longMonth]
  | 'D' => some slashedDate
  | 'F' => some (separated '-' [.year, .month, .day])
  | 'P' => some [.dayHalf]
  | 'R' => some (separated ':' [.hour, .minute])
  | 'T' => some clock
  | 'X' => some clock
  | 'Z' => some [.zoneName]
  | 'a' => some [.shortWeekday]
  | 'b' => some [.shortMonth]
  | 'h' => some [.shortMonth]
  | 'c' =>
      some ([.shortWeekday, .blanks, .shortMonth, .blanks, .number .day, .blanks] ++
        clock ++ [.blanks, .number .year])
  | 'n' => some [.blanks]
  | 'p' => some [.dayHalf]
  | 'r' =>
      some (separated ':' [.hourOfHalf, .minute, .second] ++ [.blanks, .dayHalf])
  | 't' => some [.blanks]
  | 'v' =>
      some [.number .day, .literal '-', .shortMonth, .literal '-', .number .year]
  | 'x' => some slashedDate
  | 'z' => some [.zoneOffset]
  | '+' => some [.internetTimestamp]
  | '%' => some [.literal '%']
  | _ => (numberOfLetter? letter).map fun kind => [.number kind]

def isNumberFlag (character : Char) : Bool :=
  character == '-' || character == '0' || character == '_'

end PatternItem

/-- Read a date pattern.  An unknown or incomplete specifier makes it invalid. -/
def readPattern? : List Char → Option (List PatternItem)
  | [] => some []
  | '%' :: ':' :: ':' :: ':' :: 'z' :: rest =>
      (readPattern? rest).map (.zoneOffset :: ·)
  | '%' :: ':' :: ':' :: 'z' :: rest =>
      (readPattern? rest).map (.zoneOffset :: ·)
  | '%' :: ':' :: 'z' :: rest =>
      (readPattern? rest).map (.zoneOffset :: ·)
  | '%' :: '#' :: 'z' :: rest =>
      (readPattern? rest).map (.looseZoneOffset :: ·)
  | '%' :: '.' :: 'f' :: rest =>
      (readPattern? rest).map (.fraction :: ·)
  | '%' :: '.' :: '3' :: 'f' :: rest =>
      (readPattern? rest).map (.fixedFraction 3 :: ·)
  | '%' :: '.' :: '6' :: 'f' :: rest =>
      (readPattern? rest).map (.fixedFraction 6 :: ·)
  | '%' :: '.' :: '9' :: 'f' :: rest =>
      (readPattern? rest).map (.fixedFraction 9 :: ·)
  | '%' :: '3' :: 'f' :: rest =>
      (readPattern? rest).map (.bareFraction 3 :: ·)
  | '%' :: '6' :: 'f' :: rest =>
      (readPattern? rest).map (.bareFraction 6 :: ·)
  | '%' :: '9' :: 'f' :: rest =>
      (readPattern? rest).map (.bareFraction 9 :: ·)
  | ['%'] => none
  | ['%', letter] => PatternItem.itemsOfLetter? letter
  | '%' :: flag :: letter :: rest =>
      if PatternItem.isNumberFlag flag then
        match PatternItem.numberOfLetter? letter with
        | some kind => (readPattern? rest).map (.number kind :: ·)
        | none => none
      else
        match PatternItem.itemsOfLetter? flag with
        | some items => (readPattern? (letter :: rest)).map (items ++ ·)
        | none => none
  | character :: rest =>
      (readPattern? rest).map
        ((if isWhiteSpace character then .blanks else .literal character) :: ·)

end Stencil
