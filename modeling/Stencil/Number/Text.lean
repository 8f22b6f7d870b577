import Stencil.Number.Shortest

/-!
# Number texts

How integers and floating-point numbers are written and read.  Numbers are
always written in positional notation, never with an exponent; reading also
accepts exponents.
-/

namespace Stencil

def digitValue (digit : Char) : Nat :=
  digit.toNat - '0'.toNat

def decimalValue (digits : List Char) : Nat :=
  digits.foldl (fun value digit => 10 * value + digitValue digit) 0

def decimalDigits (number : Nat) : List Char :=
  Nat.toDigits 10 number

def hexDigit? (digit : Char) : Option Nat :=
  if digit.isDigit then some (digit.toNat - '0'.toNat)
  else if 'a' ≤ digit ∧ digit ≤ 'f' then some (digit.toNat - 'a'.toNat + 10)
  else if 'A' ≤ digit ∧ digit ≤ 'F' then some (digit.toNat - 'A'.toNat + 10)
  else none

/-- The number that hexadecimal digits stand for. -/
def hexValue? (digits : List Char) : Option Nat :=
  digits.foldlM (fun value digit => (hexDigit? digit).map (16 * value + ·)) 0

/-- The text of a number with its sign in front. -/
def signed (negative : Bool) (magnitude : String) : String :=
  if negative then "-" ++ magnitude else magnitude

def integerText (integer : Int) : String :=
  signed (integer < 0) (String.ofList (decimalDigits integer.natAbs))

/-- Whether a text begins with a minus sign, and what follows its sign, if it has
one. -/
def splitSign : List Char → Bool × List Char
  | '-' :: rest => (true, rest)
  | '+' :: rest => (false, rest)
  | characters => (false, characters)

theorem length_splitSign_le (characters : List Char) :
    (splitSign characters).2.length ≤ characters.length := by
  fun_cases splitSign characters <;> simp

def signedInteger (negative : Bool) (magnitude : Nat) : Int :=
  if negative then -magnitude else magnitude

/-- Read an optional sign and at least one decimal digit. -/
def readInteger? (characters : List Char) : Option Int :=
  let (negative, digits) := splitSign characters
  if digits ≠ [] ∧ digits.all Char.isDigit then
    some (signedInteger negative (decimalValue digits))
  else
    none

/-- Whether an integer fits into a two's complement word of `width` bits. -/
def fitsWord (width : Nat) (integer : Int) : Bool :=
  -(Nat.pow 2 (width - 1) : Int) ≤ integer && integer < (Nat.pow 2 (width - 1) : Int)

/-- Read an integer that fits into a word of `width` bits. -/
def readWord? (width : Nat) (characters : List Char) : Option Int64 :=
  (readInteger? characters).bind fun integer =>
    if fitsWord width integer then some (Int64.ofInt integer) else none

namespace Decimal

/-- Positional notation: digits, zeros up to the point if the number is large,
and a point with leading zeros if it has a fractional part. -/
def positional (decimal : Decimal) : String :=
  let digits := decimalDigits decimal.digits
  if 0 ≤ decimal.exponent then
    String.ofList (digits ++ List.replicate decimal.exponent.toNat '0')
  else
    let places := (-decimal.exponent).toNat
    let padded := List.replicate (places + 1 - digits.length) '0' ++ digits
    let whole := padded.take (padded.length - places)
    let fraction := padded.drop (padded.length - places)
    String.ofList (whole ++ '.' :: fraction)

end Decimal

namespace Binary64

/-- The shortest text that reads back as the number; an integral number has no
point. -/
def shortestText (number : Binary64) : String :=
  if number.isUndefined then
    "NaN"
  else if !number.isFinite then
    signed number.isNegative "inf"
  else if number.isZero then
    signed number.isNegative "0"
  else
    signed number.isNegative number.shortestDecimal.positional

/-- The exact integer part of the magnitude of a finite number. -/
def wholePart (number : Binary64) : Nat :=
  if 0 ≤ number.scale then
    number.significand * Nat.pow 2 number.scale.toNat
  else
    number.significand / Nat.pow 2 (-number.scale).toNat

/-- The text of a number as a value: an integral number in full with one place
after the point, any other by the shortest text that reads back. -/
def valueText (number : Binary64) : String :=
  if number.isFinite && number.isIntegral then
    signed number.isNegative
      (String.ofList (decimalDigits number.wholePart) ++ ".0")
  else
    number.shortestText

end Binary64

/-- The parts of a written decimal number. -/
structure DecimalLiteral where
  negative : Bool
  whole : List Char
  fraction : List Char
  exponent : Int
  deriving DecidableEq, Repr, Inhabited

namespace DecimalLiteral

/-- The floating-point number nearest to a literal. -/
def toBinary64 (literal : DecimalLiteral) : Binary64 :=
  Binary64.ofDecimal literal.negative
    (decimalValue (literal.whole ++ literal.fraction))
    (literal.exponent - literal.fraction.length)

/-- Read what follows the digits: nothing, or an exponent mark with an optional
sign and at least one digit. -/
def readExponent? : List Char → Option Int
  | [] => some 0
  | mark :: rest =>
      if mark = 'e' ∨ mark = 'E' then readInteger? rest else none

/-- Read digits, an optional point with optional digits, and an optional
exponent.  There is at least one digit beside the point. -/
def readMagnitude? (negative : Bool) (characters : List Char) :
    Option DecimalLiteral :=
  let whole := characters.takeWhile Char.isDigit
  let afterWhole := characters.dropWhile Char.isDigit
  let (fraction, rest) :=
    match afterWhole with
    | '.' :: tail => (tail.takeWhile Char.isDigit, tail.dropWhile Char.isDigit)
    | _ => ([], afterWhole)
  if whole = [] ∧ fraction = [] then
    none
  else
    (readExponent? rest).map fun exponent =>
      ⟨negative, whole, fraction, exponent⟩

end DecimalLiteral

/-- Read a decimal number with an optional sign.  The words for infinity and for
undefined numbers are not numbers here. -/
def readDecimal? (characters : List Char) : Option Binary64 :=
  let (negative, magnitude) := splitSign characters
  (DecimalLiteral.readMagnitude? negative magnitude).map DecimalLiteral.toBinary64

/-- Read a decimal number that is finite after rounding. -/
def readFinite? (characters : List Char) : Option Binary64 :=
  (readDecimal? characters).filter Binary64.isFinite

end Stencil
