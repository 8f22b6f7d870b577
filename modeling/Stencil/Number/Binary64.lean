/-!
# Binary floating-point numbers

A 64-bit floating-point number is kept as its bits, and everything about it is
computed exactly on natural numbers: its fields, the value it denotes, rounding
of a fraction to the nearest number, and numeric equality.
-/

namespace Stencil

/-- A 64-bit binary floating-point number, given by its bits: a sign, eleven
exponent bits and fifty-two fraction bits. -/
structure Binary64 where
  bits : UInt64
  deriving DecidableEq, Repr, Inhabited

namespace Binary64

/-- The weight of the lowest exponent bit. -/
def fractionLimit : Nat := Nat.pow 2 52

/-- The exponent field of infinities and of numbers that are not numbers. -/
def specialExponent : Nat := 2047

/-- The power of two that the last place of the smallest numbers stands for. -/
def smallestScale : Int := -1074

/-- Whether the sign bit is set. -/
def isNegative (number : Binary64) : Bool :=
  Nat.pow 2 63 ≤ number.bits.toNat

def exponentField (number : Binary64) : Nat :=
  number.bits.toNat / fractionLimit % Nat.pow 2 11

def fractionField (number : Binary64) : Nat :=
  number.bits.toNat % fractionLimit

/-- Whether the number is neither infinite nor undefined. -/
def isFinite (number : Binary64) : Bool :=
  number.exponentField != specialExponent

def isUndefined (number : Binary64) : Bool :=
  number.exponentField == specialExponent && number.fractionField != 0

/-- The integer that, times a power of two, gives the magnitude of a finite
number. -/
def significand (number : Binary64) : Nat :=
  if number.exponentField = 0 then
    number.fractionField
  else
    fractionLimit + number.fractionField

/-- The power of two that the last place of the significand stands for. -/
def scale (number : Binary64) : Int :=
  if number.exponentField = 0 then
    smallestScale
  else
    (number.exponentField : Int) - 1075

def isZero (number : Binary64) : Bool :=
  number.exponentField == 0 && number.fractionField == 0

def isIntegral (number : Binary64) : Bool :=
  if 0 ≤ number.scale then
    true
  else
    number.significand % Nat.pow 2 (-number.scale).toNat == 0

def ofFields (negative : Bool) (lowerBits : Nat) : Binary64 :=
  ⟨UInt64.ofNat (lowerBits + if negative then Nat.pow 2 63 else 0)⟩

def zero (negative : Bool) : Binary64 :=
  ofFields negative 0

def infinity (negative : Bool) : Binary64 :=
  ofFields negative (specialExponent * fractionLimit)

/-- The quotient of two natural numbers rounded to an integer; a quotient half
way between two integers goes to the even one. -/
def roundQuotient (numerator denominator : Nat) : Nat :=
  let quotient := numerator / denominator
  let doubledRest := 2 * (numerator % denominator)
  if doubledRest < denominator then
    quotient
  else if denominator < doubledRest then
    quotient + 1
  else
    quotient + quotient % 2

/-- The fraction `numerator / denominator` divided by a power of two, as a new
numerator and denominator. -/
def dividedByPower (numerator denominator : Nat) (power : Int) : Nat × Nat :=
  if 0 ≤ power then
    (numerator, denominator * Nat.pow 2 power.toNat)
  else
    (numerator * Nat.pow 2 (-power).toNat, denominator)

/-- The power of two for the last place of the number nearest to a positive
fraction: the quotient by it lies between two to the fifty-second and two to
the fifty-third, unless the fraction is among the smallest numbers. -/
def scaleOfFraction (numerator denominator : Nat) : Int :=
  let estimate : Int := (numerator.log2 : Int) - denominator.log2 - 52
  let scaled := dividedByPower numerator denominator estimate
  let exact :=
    if scaled.1 < scaled.2 * fractionLimit then estimate - 1 else estimate
  max exact smallestScale

/-- The number nearest to a fraction, with ties to the even significand; a
fraction too large for every finite number becomes infinity. -/
def ofFraction (negative : Bool) (numerator denominator : Nat) : Binary64 :=
  if numerator = 0 then
    zero negative
  else
    let scale := scaleOfFraction numerator denominator
    let scaled := dividedByPower numerator denominator scale
    let significand := roundQuotient scaled.1 scaled.2
    let steps := (scale - smallestScale).toNat
    let lowerBits := steps * fractionLimit + significand
    if lowerBits < specialExponent * fractionLimit then
      ofFields negative lowerBits
    else
      infinity negative

def ofInt (integer : Int) : Binary64 :=
  ofFraction (integer < 0) integer.natAbs 1

/-- The number nearest to `digits` times ten to the power `exponent`.  Powers
far outside the range of the format are not computed: the outcome is already
known to be infinity or zero. -/
def ofDecimal (negative : Bool) (digits : Nat) (exponent : Int) : Binary64 :=
  let magnitude : Int := exponent + (Nat.toDigits 10 digits).length
  if digits = 0 then
    zero negative
  else if 400 < magnitude then
    infinity negative
  else if magnitude < -400 then
    zero negative
  else if 0 ≤ exponent then
    ofFraction negative (digits * Nat.pow 10 exponent.toNat) 1
  else
    ofFraction negative digits (Nat.pow 10 (-exponent).toNat)

/-- The magnitude of a finite number as a numerator and a denominator. -/
def magnitudeFraction (number : Binary64) : Nat × Nat :=
  if 0 ≤ number.scale then
    (number.significand * Nat.pow 2 number.scale.toNat, 1)
  else
    (number.significand, Nat.pow 2 (-number.scale).toNat)

/-- The product of two finite numbers, rounded to the nearest number. -/
def times (left right : Binary64) : Binary64 :=
  let leftFraction := left.magnitudeFraction
  let rightFraction := right.magnitudeFraction
  ofFraction (left.isNegative != right.isNegative)
    (leftFraction.1 * rightFraction.1) (leftFraction.2 * rightFraction.2)

/-- The quotient of two finite numbers, rounded to the nearest number; the
divisor must not be zero. -/
def dividedBy (left right : Binary64) : Binary64 :=
  let leftFraction := left.magnitudeFraction
  let rightFraction := right.magnitudeFraction
  ofFraction (left.isNegative != right.isNegative)
    (leftFraction.1 * rightFraction.2) (leftFraction.2 * rightFraction.1)

def negate (number : Binary64) : Binary64 :=
  ofFields (!number.isNegative) (number.bits.toNat % Nat.pow 2 63)

/-- Numeric equality: an undefined number equals nothing, and the two zeros are
equal. -/
def equals (left right : Binary64) : Bool :=
  !left.isUndefined && !right.isUndefined &&
    (left == right || (left.isZero && right.isZero))

end Binary64

end Stencil
