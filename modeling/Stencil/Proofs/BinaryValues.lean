import Mathlib.Algebra.Order.Field.Power
import Mathlib.Algebra.Order.Ring.Rat
import Mathlib.Tactic.Linarith
import Mathlib.Tactic.NormNum
import Mathlib.Tactic.Positivity
import Mathlib.Tactic.Ring
import Stencil.Number.Binary64

/-!
# Values of floating-point numbers

The rational number that the bits of a finite floating-point number denote.  The significand and
the scale are determined by the magnitude, so numeric equality of finite numbers is equality of
what they denote: no number but zero is written in two ways.
-/

namespace Stencil.Binary64

theorem fractionField_lt (number : Binary64) : number.fractionField < 2 ^ 52 :=
  Nat.mod_lt _ (by norm_num [fractionLimit])

/-- A number is put together from its sign, its exponent field and its fraction field. -/
theorem toNat_bits (number : Binary64) : number.bits.toNat =
    number.exponentField * 2 ^ 52 + number.fractionField +
      if number.isNegative then 2 ^ 63 else 0 := by
  have below : number.bits.toNat < 2 ^ 64 := number.bits.toNat_lt
  have sign : number.isNegative ↔ 2 ^ 63 ≤ number.bits.toNat := decide_eq_true_iff
  have exponent : number.exponentField = number.bits.toNat / 4503599627370496 % 2048 := rfl
  have fraction : number.fractionField = number.bits.toNat % 4503599627370496 := rfl
  by_cases isSet : number.isNegative
  · have := sign.mp isSet
    rw [if_pos isSet]
    omega
  · have := mt sign.mpr isSet
    rw [if_neg isSet]
    omega

section Fields

variable {negative : Bool} {lowerBits : Nat}

theorem toNat_bits_ofFields (small : lowerBits < 2 ^ 63) :
    (ofFields negative lowerBits).bits.toNat = lowerBits + if negative then 2 ^ 63 else 0 := by
  have power : Nat.pow 2 63 = 2 ^ 63 := rfl
  rw [ofFields, UInt64.toNat_ofNat', power]
  exact Nat.mod_eq_of_lt (by split <;> omega)

theorem isNegative_ofFields (small : lowerBits < 2 ^ 63) :
    (ofFields negative lowerBits).isNegative = negative := by
  have sign : (ofFields negative lowerBits).isNegative ↔
      2 ^ 63 ≤ (ofFields negative lowerBits).bits.toNat := decide_eq_true_iff
  rw [toNat_bits_ofFields small] at sign
  cases negative with
  | false =>
      refine Bool.eq_false_iff.mpr fun isSet => ?_
      have := sign.mp isSet
      simp only [Bool.false_eq_true, if_false] at this
      omega
  | true => exact sign.mpr (by simp)

theorem exponentField_ofFields (small : lowerBits < 2 ^ 63) :
    (ofFields negative lowerBits).exponentField = lowerBits / 2 ^ 52 := by
  have exponent : (ofFields negative lowerBits).exponentField =
    (ofFields negative lowerBits).bits.toNat / 2 ^ 52 % 2 ^ 11 := rfl
  rw [exponent, toNat_bits_ofFields small]
  split <;> omega

theorem fractionField_ofFields (small : lowerBits < 2 ^ 63) :
    (ofFields negative lowerBits).fractionField = lowerBits % 2 ^ 52 := by
  have fraction : (ofFields negative lowerBits).fractionField =
    (ofFields negative lowerBits).bits.toNat % 2 ^ 52 := rfl
  rw [fraction, toNat_bits_ofFields small]
  split <;> omega

end Fields

theorem significand_lt (number : Binary64) : number.significand < 2 ^ 53 := by
  have below := number.fractionField_lt
  have limit : fractionLimit = 2 ^ 52 := rfl
  unfold significand
  split <;> omega

theorem smallestScale_le_scale (number : Binary64) : smallestScale ≤ number.scale := by
  unfold scale smallestScale
  split <;> omega

/-- Only the smallest numbers have a short significand. -/
theorem scale_eq_or_le_significand (number : Binary64) :
    number.scale = smallestScale ∨ 2 ^ 52 ≤ number.significand := by
  unfold scale significand
  split
  · exact .inl rfl
  · exact .inr (Nat.le_add_right _ _)

/-- The significand and the scale say what the fields are. -/
theorem fields_eq_of_significand_of_scale {left right : Binary64}
    (significand : left.significand = right.significand) (scale : left.scale = right.scale) :
    left.exponentField = right.exponentField ∧ left.fractionField = right.fractionField := by
  have leftBelow := left.fractionField_lt
  have rightBelow := right.fractionField_lt
  have limit : fractionLimit = 2 ^ 52 := rfl
  unfold Binary64.significand at significand
  unfold Binary64.scale smallestScale at scale
  split at significand <;> split at significand <;> simp_all
  all_goals omega

theorem eq_of_fields {left right : Binary64} (sign : left.isNegative = right.isNegative)
    (exponent : left.exponentField = right.exponentField)
    (fraction : left.fractionField = right.fractionField) : left = right := by
  have bits : left.bits.toNat = right.bits.toNat := by
    rw [toNat_bits, toNat_bits, sign, exponent, fraction]
  cases left
  cases right
  exact congrArg mk (UInt64.toNat_inj.mp bits)

/-- The absolute value of a finite number. -/
def magnitude (number : Binary64) : ℚ :=
  number.significand * 2 ^ number.scale

/-- A magnitude with its sign. -/
def withSign (negative : Bool) (magnitude : ℚ) : ℚ :=
  if negative then -magnitude else magnitude

/-- The rational number that a finite number denotes. -/
def toRat (number : Binary64) : ℚ :=
  withSign number.isNegative number.magnitude

theorem magnitude_nonneg (number : Binary64) : 0 ≤ number.magnitude := by
  unfold magnitude
  positivity

theorem abs_withSign (negative : Bool) (magnitude : ℚ) :
    |withSign negative magnitude| = |magnitude| := by
  cases negative with
  | false => rfl
  | true => exact abs_neg magnitude

theorem abs_toRat (number : Binary64) : |number.toRat| = number.magnitude := by
  rw [toRat, abs_withSign, abs_of_nonneg number.magnitude_nonneg]

theorem magnitude_eq_zero_iff (number : Binary64) : number.magnitude = 0 ↔ number.isZero := by
  have power : (2 : ℚ) ^ number.scale ≠ 0 := zpow_ne_zero _ two_ne_zero
  have limit : fractionLimit = 2 ^ 52 := rfl
  simp only [magnitude, mul_eq_zero, power, or_false, Nat.cast_eq_zero, isZero, significand,
    Bool.and_eq_true, beq_iff_eq]
  split <;> simp_all

/-- A number with a greater scale is a multiple of the power of two that stands for a smaller
one. -/
theorem magnitude_eq_of_le_scale {number : Binary64} {scale : Int} (le : scale ≤ number.scale) :
    number.magnitude =
      (number.significand * 2 ^ (number.scale - scale).toNat : Nat) * (2 : ℚ) ^ scale := by
  have parts : (2 : ℚ) ^ number.scale = 2 ^ (number.scale - scale).toNat * 2 ^ scale := by
    rw [← zpow_natCast, ← zpow_add₀ two_ne_zero]
    exact congrArg _ (by omega)
  rw [magnitude, parts, ← mul_assoc]
  push_cast
  rfl

/-- The magnitude says what the significand and the scale are. -/
theorem significand_scale_of_magnitude {left right : Binary64}
    (magnitude : left.magnitude = right.magnitude) :
    left.significand = right.significand ∧ left.scale = right.scale := by
  wlog order : left.scale ≤ right.scale generalizing left right
  · obtain ⟨significand, scale⟩ := this magnitude.symm (Int.le_of_lt (Int.not_le.mp order))
    exact ⟨significand.symm, scale.symm⟩
  have power : (2 : ℚ) ^ left.scale ≠ 0 := zpow_ne_zero _ two_ne_zero
  have multiple : left.significand =
      right.significand * 2 ^ (right.scale - left.scale).toNat := by
    rw [magnitude_eq_of_le_scale order] at magnitude
    exact_mod_cast mul_right_cancel₀ power magnitude
  rcases Nat.eq_zero_or_pos (right.scale - left.scale).toNat with none | some
  · rw [none] at multiple
    exact ⟨by omega, by omega⟩
  · have long : 2 ^ 52 ≤ right.significand :=
      right.scale_eq_or_le_significand.resolve_left fun isSmallest => by
        have := left.smallestScale_le_scale
        omega
    have doubled : 2 ^ 1 ≤ 2 ^ (right.scale - left.scale).toNat :=
      Nat.pow_le_pow_right two_pos some
    have := Nat.mul_le_mul long doubled
    have := left.significand_lt
    omega

theorem isUndefined_of_isFinite {number : Binary64} (finite : number.isFinite) :
    number.isUndefined = false := by
  have exponent : number.exponentField ≠ specialExponent := by simpa [isFinite] using finite
  simp [isUndefined, exponent]

theorem toRat_eq_zero_iff (number : Binary64) : number.toRat = 0 ↔ number.isZero := by
  rw [← abs_eq_zero, abs_toRat, magnitude_eq_zero_iff]

/-- Finite numbers that denote the same are equal up to the sign of zero. -/
theorem eq_or_isZero_of_toRat {left right : Binary64} (same : left.toRat = right.toRat) :
    left = right ∨ (left.isZero ∧ right.isZero) := by
  have magnitude : left.magnitude = right.magnitude := by
    rw [← abs_toRat, ← abs_toRat, same]
  by_cases isZero : left.isZero
  · exact .inr ⟨isZero, (toRat_eq_zero_iff right).mp (same ▸ (toRat_eq_zero_iff left).mpr isZero)⟩
  have positive : left.magnitude ≠ 0 := fun none => isZero ((magnitude_eq_zero_iff left).mp none)
  obtain ⟨significand, scale⟩ := significand_scale_of_magnitude magnitude
  obtain ⟨exponent, fraction⟩ := fields_eq_of_significand_of_scale significand scale
  refine .inl (eq_of_fields ?_ exponent fraction)
  rw [toRat, toRat, ← magnitude] at same
  cases leftSign : left.isNegative <;> cases rightSign : right.isNegative <;>
    simp_all [withSign, self_eq_neg, neg_eq_self]

/-- Finite numbers are equal if they denote the same. -/
theorem equals_iff {left right : Binary64} (leftFinite : left.isFinite)
    (rightFinite : right.isFinite) : left.equals right ↔ left.toRat = right.toRat := by
  simp only [equals, isUndefined_of_isFinite leftFinite, isUndefined_of_isFinite rightFinite,
    Bool.not_false, Bool.true_and, Bool.or_eq_true, beq_iff_eq, Bool.and_eq_true]
  constructor
  · rintro (rfl | ⟨leftZero, rightZero⟩)
    · rfl
    · rw [(toRat_eq_zero_iff left).mpr leftZero, (toRat_eq_zero_iff right).mpr rightZero]
  · exact eq_or_isZero_of_toRat

end Stencil.Binary64
