import Stencil.Number.Binary64

/-!
# The shortest decimal that reads back

Among the decimals that round to a given floating-point number, the ones with
the fewest digits are found, and of those the nearest to the number.  The
search looks at the two neighbours of the number on ever finer decimal grids,
in exact arithmetic.
-/

namespace Stencil

/-- A positive decimal number: the integer `digits` times ten to the power
`exponent`. -/
structure Decimal where
  digits : Nat
  exponent : Int
  deriving DecidableEq, Repr, Inhabited

namespace Decimal

/-- Move zeros at the end of the digits into the exponent.  The bound is the
number of digits, since each step removes one. -/
def withoutTrailingZeros (bound : Nat) (decimal : Decimal) : Decimal :=
  match bound with
  | 0 => decimal
  | bound + 1 =>
      if decimal.digits ≠ 0 ∧ decimal.digits % 10 = 0 then
        withoutTrailingZeros bound
          ⟨decimal.digits / 10, decimal.exponent + 1⟩
      else
        decimal

end Decimal

/-- The numbers that round to one floating-point number, as integers over a
common denominator: the number itself between its lower and upper end. -/
structure RoundingInterval where
  lower : Nat
  value : Nat
  upper : Nat
  denominator : Nat
  closed : Bool
  deriving DecidableEq, Repr, Inhabited

namespace RoundingInterval

/-- The interval of a finite number.  It reaches half way to each neighbour;
below a power of two the lower neighbour is half as far away.  Its ends belong
to it when the significand is even. -/
def ofBinary64 (number : Binary64) : RoundingInterval :=
  let significand := number.significand
  let gapBelow :=
    if number.fractionField = 0 ∧ 1 < number.exponentField then 1 else 2
  let power : Int := number.scale - 2
  let factor : Nat := if 0 ≤ power then Nat.pow 2 power.toNat else 1
  { lower := (4 * significand - gapBelow) * factor
    value := 4 * significand * factor
    upper := (4 * significand + 2) * factor
    denominator := if 0 ≤ power then 1 else Nat.pow 2 (-power).toNat
    closed := significand % 2 == 0 }

def contains (interval : RoundingInterval) (numerator denominator : Nat) : Bool :=
  let point := numerator * interval.denominator
  let low := interval.lower * denominator
  let high := interval.upper * denominator
  if interval.closed then
    low ≤ point && point ≤ high
  else
    low < point && point < high

def fractionOf (decimal : Decimal) : Nat × Nat :=
  if 0 ≤ decimal.exponent then
    (decimal.digits * Nat.pow 10 decimal.exponent.toNat, 1)
  else
    (decimal.digits, Nat.pow 10 (-decimal.exponent).toNat)

def containsDecimal (interval : RoundingInterval) (decimal : Decimal) : Bool :=
  let fraction := fractionOf decimal
  interval.contains fraction.1 fraction.2

/-- The power of ten with which the number has one digit before the point:
an estimate from the lengths of numerator and denominator, corrected once. -/
def magnitude (interval : RoundingInterval) : Int :=
  let estimate : Int :=
    ((Nat.toDigits 10 interval.value).length : Int) -
      (Nat.toDigits 10 interval.denominator).length
  let power := fractionOf ⟨1, estimate⟩
  if interval.value * power.2 < power.1 * interval.denominator then
    estimate - 1
  else
    estimate

/-- The neighbour below the number on the grid of multiples of ten to the power
`exponent`. -/
def below (interval : RoundingInterval) (exponent : Int) : Decimal :=
  let unit := fractionOf ⟨1, exponent⟩
  ⟨interval.value * unit.2 / (interval.denominator * unit.1), exponent⟩

/-- Of the two neighbours on a grid, the nearer one inside the interval; the
upper one when both are equally near. -/
def neighbour? (interval : RoundingInterval) (exponent : Int) : Option Decimal :=
  let low := interval.below exponent
  let high : Decimal := ⟨low.digits + 1, exponent⟩
  let middle := fractionOf ⟨2 * low.digits + 1, exponent⟩
  let nearerLow :=
    2 * interval.value * middle.2 < middle.1 * interval.denominator
  match interval.containsDecimal low, interval.containsDecimal high with
  | true, true => some (if nearerLow then low else high)
  | true, false => some low
  | false, true => some high
  | false, false => none

/-- Search the grids for one digit, two digits and so on, `bound` more of them.
Seventeen digits always suffice. -/
def search (interval : RoundingInterval) (exponent : Int) (bound : Nat) : Decimal :=
  match bound with
  | 0 => interval.below exponent
  | bound + 1 =>
      match interval.neighbour? exponent with
      | some decimal => decimal
      | none => interval.search (exponent - 1) bound

end RoundingInterval

/-- The decimal with the fewest digits that rounds to a finite number other than
zero, without zeros at its end. -/
def Binary64.shortestDecimal (number : Binary64) : Decimal :=
  let interval := RoundingInterval.ofBinary64 number
  (interval.search interval.magnitude 17).withoutTrailingZeros 20

end Stencil
