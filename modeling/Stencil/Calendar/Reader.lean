import Stencil.Calendar.Fields

/-!
# Reading dates

A text is matched against the items of a pattern from left to right.  Numbers
take as many digits as they can up to their width and may have white space in
front of them; names are read in either case.  What each item accepts is what
chrono 0.4 documents for it.
-/

namespace Stencil

/-- What is known after matching the front of a text, and the text that is
left. -/
abbrev DateMatch := Option (DateFields × List Char)

/-- Read at least one digit, and at most `width` of them if there is a width. -/
def readDigits? (width : Option Nat) (text : List Char) :
    Option (List Char × List Char) :=
  let run := text.takeWhile Char.isDigit
  let digits :=
    match width with
    | some width => run.take width
    | none => run
  if digits = [] then none else some (digits, text.drop digits.length)

/-- Read a number that fits into sixty-four bits. -/
def readNumber? (width : Option Nat) (text : List Char) :
    Option (Int × List Char) :=
  (readDigits? width text).bind fun (digits, rest) =>
    let number : Int := decimalValue digits
    if fitsWord 64 number then some (number, rest) else none

/-- Whether two texts are equal apart from the case of ASCII letters. -/
def equalIgnoringCase (left right : List Char) : Bool :=
  left.map Char.toLower == right.map Char.toLower

/-- Take a word off the front of a text, in either case. -/
def takeWord? (word : List Char) (text : List Char) : Option (List Char) :=
  if equalIgnoringCase (text.take word.length) word then
    some (text.drop word.length)
  else
    none

namespace DateNumber

/-- How many digits a number takes at most when it has no sign; a timestamp takes
all there are. -/
def width? : DateNumber → Option Nat
  | .year | .isoYear => some 4
  | .quarter | .weekdayFromSunday | .weekdayFromMonday => some 1
  | .dayOfYear => some 3
  | .nanosecond => some 9
  | .timestamp => none
  | _ => some 2

/-- Whether a number may have a sign, after which its width does not matter. -/
def maySigned : DateNumber → Bool
  | .year | .isoYear => true
  | _ => false

def read? (kind : DateNumber) (text : List Char) : Option (Int × List Char) :=
  match kind.maySigned, dropWhiteSpace text with
  | true, '-' :: rest =>
      (readNumber? none rest).map fun (number, rest) => (-number, rest)
  | true, '+' :: rest => readNumber? none rest
  | _, text => readNumber? kind.width? text

end DateNumber

/-- The names of the months: the first three letters, and the others. -/
def monthNames : List (String × String) :=
  [("jan", "uary"), ("feb", "ruary"), ("mar", "ch"), ("apr", "il"), ("may", ""),
    ("jun", "e"), ("jul", "y"), ("aug", "ust"), ("sep", "tember"),
    ("oct", "ober"), ("nov", "ember"), ("dec", "ember")]

/-- The names of the days of the week from Monday on: the first three letters,
and the others. -/
def weekdayNames : List (String × String) :=
  [("mon", "day"), ("tue", "sday"), ("wed", "nesday"), ("thu", "rsday"),
    ("fri", "day"), ("sat", "urday"), ("sun", "day")]

/-- Read one of several names by its first three letters, and by all of them if
`long` names are allowed and the others follow.  The outcome is its place among
the names. -/
def readNameFrom? (long : Bool) (place : Nat) (text : List Char) :
    List (String × String) → Option (Nat × List Char)
  | [] => none
  | (short, others) :: names =>
      match takeWord? short.toList text with
      | some rest =>
          let afterLong := if long then takeWord? others.toList rest else none
          some (place, afterLong.getD rest)
      | none => readNameFrom? long (place + 1) text names

/-- Read the half of the day: zero before noon, one after it. -/
def readDayHalf? (text : List Char) : Option (Nat × List Char) :=
  match takeWord? ['a', 'm'] text with
  | some rest => some (0, rest)
  | none => (takeWord? ['p', 'm'] text).map fun rest => (1, rest)

/-- The nanoseconds for which decimal places stand. -/
def nanosecondsOf (digits : List Char) : Nat :=
  decimalValue digits * Nat.pow 10 (9 - digits.length)

/-- Read the decimal places of a second; those after the ninth are ignored. -/
def readFraction? (text : List Char) : Option (Nat × List Char) :=
  (readDigits? (some 9) text).map fun (digits, rest) =>
    (nanosecondsOf digits, rest.dropWhile Char.isDigit)

/-- Read a fixed number of decimal places of a second. -/
def readPlaces? (places : Nat) (text : List Char) : Option (Nat × List Char) :=
  (readDigits? (some places) text).bind fun (digits, rest) =>
    if digits.length = places then some (nanosecondsOf digits, rest) else none

/-- Read the sign of an offset: a plus sign, a hyphen or a minus sign. -/
def readOffsetSign? : List Char → Option (Bool × List Char)
  | '+' :: rest => some (false, rest)
  | '-' :: rest => some (true, rest)
  | '\u2212' :: rest => some (true, rest)
  | _ => none

def readTwoDigits? (text : List Char) : Option (Nat × List Char) :=
  match text with
  | tens :: ones :: rest =>
      if tens.isDigit && ones.isDigit then
        some (decimalValue [tens, ones], rest)
      else
        none
  | _ => none

/-- A text without the colons and the white space at its front. -/
def dropColons (text : List Char) : List Char :=
  text.dropWhile fun character => character == ':' || isWhiteSpace character

/-- Read an offset in hours and minutes.  If `loose`, the minutes may be missing
at the end of the text. -/
def readSignedOffset? (loose : Bool) (text : List Char) :
    Option (Int × List Char) := do
  let (negative, text) ← readOffsetSign? text
  let (hours, text) ← readTwoDigits? text
  let text := dropColons text
  let (minutes, text) ←
    if loose && text.isEmpty then
      some (0, text)
    else
      readTwoDigits? text
  if minutes < 60 then
    let seconds : Int := (hours * 3600 + minutes * 60 : Nat)
    some (if negative then -seconds else seconds, text)
  else
    none

/-- Read an offset, for which the letter Z may stand if `letter` is set. -/
def readOffset? (letter loose : Bool) (text : List Char) :
    Option (Int × List Char) :=
  match letter, text with
  | true, 'Z' :: rest => some (0, rest)
  | true, 'z' :: rest => some (0, rest)
  | _, _ => readSignedOffset? loose text

namespace DateFields

def matchNumber? (fields : DateFields) (kind : DateNumber) (text : List Char) :
    DateMatch := do
  let (number, rest) ← kind.read? text
  let fields ← fields.setNumber? kind number
  some (fields, rest)

def matchMonth? (fields : DateFields) (long : Bool) (text : List Char) :
    DateMatch := do
  let (month, rest) ← readNameFrom? long 1 text monthNames
  let fields ← fields.setMonth? month
  some (fields, rest)

def matchWeekday? (fields : DateFields) (long : Bool) (text : List Char) :
    DateMatch := do
  let (weekday, rest) ← readNameFrom? long 0 text weekdayNames
  let fields ← fields.setWeekday? weekday
  some (fields, rest)

/-- Match decimal places that a reader takes, if a point stands in front of
them. -/
def matchFraction? (fields : DateFields)
    (places? : List Char → Option (Nat × List Char)) (text : List Char) :
    DateMatch :=
  match text with
  | '.' :: rest => do
      let (nanosecond, rest) ← places? rest
      let fields ← fields.setNanosecond? nanosecond
      some (fields, rest)
  | _ => some (fields, text)

def matchOffset? (fields : DateFields) (letter loose : Bool)
    (text : List Char) : DateMatch := do
  let (offset, rest) ← readOffset? letter loose (dropWhiteSpace text)
  let fields ← fields.setOffset? offset
  some (fields, rest)

def matchLiteral? (fields : DateFields) (character : Char)
    (text : List Char) : DateMatch :=
  match text with
  | first :: rest => if first = character then some (fields, rest) else none
  | [] => none

/-- Match numbers with one character between neighbours; white space may precede
the character. -/
def matchSeparated? (fields : DateFields) (separator : Char)
    (kinds : List DateNumber) (text : List Char) : DateMatch :=
  match kinds with
  | [] => some (fields, text)
  | [kind] => fields.matchNumber? kind text
  | kind :: kinds => do
      let (fields, rest) ← fields.matchNumber? kind text
      let (fields, rest) ←
        fields.matchLiteral? separator (dropWhiteSpace rest)
      fields.matchSeparated? separator kinds rest

/-- Match a full date, the letter T or a space, a full time with an optional
fraction, and an offset or the name of universal time. -/
def matchInternet? (fields : DateFields) (text : List Char) : DateMatch := do
  let (fields, rest) ← fields.matchSeparated? '-' [.year, .month, .day] text
  let rest ←
    match rest with
    | first :: rest =>
        if first = 'T' ∨ first = 't' ∨ first = ' ' then some rest else none
    | [] => none
  let (fields, rest) ← fields.matchSeparated? ':' [.hour, .minute, .second] rest
  let (fields, rest) ← fields.matchFraction? readFraction? rest
  let rest := dropWhiteSpace rest
  match takeWord? ['u', 't', 'c'] rest with
  | some rest => do
      let fields ← fields.setOffset? 0
      some (fields, rest)
  | none => fields.matchOffset? true false rest

def matchItem? (fields : DateFields) (item : PatternItem) (text : List Char) :
    DateMatch :=
  match item with
  | .literal character => fields.matchLiteral? character text
  | .blanks => some (fields, dropWhiteSpace text)
  | .number kind => fields.matchNumber? kind text
  | .shortMonth => fields.matchMonth? false text
  | .longMonth => fields.matchMonth? true text
  | .shortWeekday => fields.matchWeekday? false text
  | .longWeekday => fields.matchWeekday? true text
  | .dayHalf => do
      let (half, rest) ← readDayHalf? text
      let fields ← fields.setDayHalf? half
      some (fields, rest)
  | .fraction => fields.matchFraction? readFraction? text
  | .fixedFraction places => fields.matchFraction? (readPlaces? places) text
  | .bareFraction places => do
      let (nanosecond, rest) ← readPlaces? places text
      let fields ← fields.setNanosecond? nanosecond
      some (fields, rest)
  | .zoneName =>
      some (fields, text.dropWhile fun character => !isWhiteSpace character)
  | .zoneOffset => fields.matchOffset? false false text
  | .looseZoneOffset => fields.matchOffset? true true text
  | .internetTimestamp => fields.matchInternet? text

def matchItems? (fields : DateFields) (items : List PatternItem)
    (text : List Char) : DateMatch :=
  match items with
  | [] => some (fields, text)
  | item :: items =>
      (fields.matchItem? item text).bind fun (fields, rest) =>
        fields.matchItems? items rest

end DateFields

/-- What a whole text says when it is matched against a pattern. -/
def readDateFields? (items : List PatternItem) (text : List Char) :
    Option DateFields :=
  match (default : DateFields).matchItems? items text with
  | some (fields, []) => some fields
  | _ => none

def midnight : ClockTime := ⟨0, 0, 0, 0⟩

/-- Read a date with a time of day, or a date alone, which means midnight. -/
def readMoment? (items : List PatternItem) (text : String) : Option Moment :=
  (readDateFields? items text.toList).bind fun fields =>
    match fields.resolveMoment? with
    | some moment => some moment
    | none => fields.resolveDate.toOption.map fun date => ⟨date, midnight⟩

end Stencil
