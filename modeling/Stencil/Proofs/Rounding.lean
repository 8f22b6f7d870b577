import Mathlib.Algebra.Order.Group.Unbundled.Int
import Mathlib.Tactic.FieldSimp
import Stencil.Proofs.BinaryValues

/-!
# Rounding to floating-point numbers

A fraction becomes the floating-point number nearest to it, with ties to the even significand,
and infinity from the point on that lies half way between the greatest finite number and the
next power of two.  Numbers with the scale of the result, or a greater one, are integers in its
last place, so that rounding to an integer decides between them; numbers with a smaller scale
all lie below the fraction and further away.
-/

namespace Stencil.Binary64

/-- The natural number nearest to a quotient, the even one if two of them are. -/
structure IsRounded (quotient : ℚ) (rounded : Nat) : Prop where
  near : |quotient - rounded| ≤ 1 / 2
  even : |quotient - rounded| = 1 / 2 → Even rounded

namespace IsRounded

variable {quotient : ℚ} {rounded : Nat}

theorem half_le (isRounded : IsRounded quotient rounded) {other : Nat} (ne : other ≠ rounded) :
    1 / 2 ≤ |quotient - other| := by
  have apart : (1 : ℚ) ≤ |(rounded : ℚ) - other| := by
    have : (1 : Int) ≤ |(rounded : Int) - other| := Int.one_le_abs (by omega)
    exact_mod_cast this
  have triangle := abs_sub_le (rounded : ℚ) quotient other
  have near := isRounded.near
  rw [abs_sub_comm] at near
  linarith

theorem nearest (isRounded : IsRounded quotient rounded) (other : Nat) :
    |quotient - rounded| ≤ |quotient - other| := by
  by_cases same : other = rounded
  · rw [same]
  · exact isRounded.near.trans (isRounded.half_le same)

/-- Of two natural numbers that are equally near, the even one was taken. -/
theorem even_odd_of_tie (isRounded : IsRounded quotient rounded) {other : Nat}
    (ne : other ≠ rounded) (tie : |quotient - other| = |quotient - rounded|) :
    Even rounded ∧ Odd other := by
  have half : |quotient - rounded| = 1 / 2 :=
    le_antisymm isRounded.near (tie ▸ isRounded.half_le ne)
  have even := isRounded.even half
  have close : |(rounded : ℚ) - other| ≤ 1 := by
    have triangle := abs_sub_le (rounded : ℚ) quotient other
    rw [abs_sub_comm (rounded : ℚ) quotient, tie, half] at triangle
    linarith
  have close : |(rounded : Int) - other| ≤ 1 := by exact_mod_cast close
  refine ⟨even, Nat.not_even_iff_odd.mp fun otherEven => ?_⟩
  obtain ⟨⟨half, rfl⟩, ⟨otherHalf, rfl⟩⟩ := And.intro even otherEven
  rw [abs_le] at close
  omega

theorem le_of_le (isRounded : IsRounded quotient rounded) {bound : Nat} (le : bound ≤ quotient) :
    bound ≤ rounded := by
  by_contra less
  have : (rounded : ℚ) + 1 ≤ bound := by exact_mod_cast Nat.not_le.mp less
  have := (abs_le.mp isRounded.near).2
  linarith

theorem le_of_le' (isRounded : IsRounded quotient rounded) {bound : Nat} (le : quotient ≤ bound) :
    rounded ≤ bound := by
  by_contra less
  have : (bound : ℚ) + 1 ≤ rounded := by exact_mod_cast Nat.not_le.mp less
  have := (abs_le.mp isRounded.near).1
  linarith

theorem of_lt_half {whole : Nat} {rest : ℚ} (nonneg : 0 ≤ rest) (below : rest < 1 / 2) :
    IsRounded (whole + rest) whole := by
  have distance : |(whole + rest : ℚ) - whole| = rest := by
    rw [add_sub_cancel_left, abs_of_nonneg nonneg]
  exact ⟨distance.trans_le below.le, fun half => absurd (distance.symm.trans half) below.ne⟩

theorem of_half_lt {whole : Nat} {rest : ℚ} (above : 1 / 2 < rest) (less : rest < 1) :
    IsRounded (whole + rest) (whole + 1) := by
  have distance : |(whole + rest : ℚ) - (whole + 1 : Nat)| = 1 - rest := by
    rw [Nat.cast_add, Nat.cast_one, add_sub_add_left_eq_sub, abs_sub_comm,
      abs_of_pos (sub_pos.mpr less)]
  refine ⟨by linarith, fun half => ?_⟩
  linarith

theorem of_half (whole : Nat) : IsRounded (whole + 1 / 2) (whole + whole % 2) := by
  rcases Nat.even_or_odd whole with even | odd
  · have distance : |(whole + 1 / 2 : ℚ) - whole| = 1 / 2 := by
      rw [add_sub_cancel_left]
      norm_num
    rw [Nat.even_iff.mp even]
    exact ⟨distance.le, fun _ => even⟩
  · have distance : |(whole + 1 / 2 : ℚ) - (whole + 1 : Nat)| = 1 / 2 := by
      rw [Nat.cast_add, Nat.cast_one, add_sub_add_left_eq_sub]
      norm_num
    rw [Nat.odd_iff.mp odd]
    exact ⟨distance.le, fun _ => odd.add_one⟩

end IsRounded

/-- The fraction `numerator / denominator` is a natural number and a rest below one. -/
theorem cast_div_eq (numerator : Nat) {denominator : Nat} (positive : 0 < denominator) :
    (numerator / denominator : ℚ) =
      (numerator / denominator : Nat) + (numerator % denominator : Nat) / denominator := by
  have nonzero : (denominator : ℚ) ≠ 0 := by exact_mod_cast positive.ne'
  have whole : (numerator : ℚ) =
      denominator * (numerator / denominator : Nat) + (numerator % denominator : Nat) := by
    exact_mod_cast (Nat.div_add_mod numerator denominator).symm
  rw [div_eq_iff nonzero, add_mul, div_mul_cancel₀ _ nonzero, mul_comm, ← whole]

theorem roundQuotient_isRounded (numerator : Nat) {denominator : Nat} (positive : 0 < denominator) :
    IsRounded (numerator / denominator) (roundQuotient numerator denominator) := by
  have positive' : (0 : ℚ) < denominator := by exact_mod_cast positive
  have less := Nat.mod_lt numerator positive
  rw [cast_div_eq numerator positive]
  unfold roundQuotient
  dsimp only
  generalize numerator / denominator = whole
  generalize numerator % denominator = rest at less
  have cast_lt {left right : Nat} (lt : left < right) : (left : ℚ) < right := by exact_mod_cast lt
  split
  · rename_i below
    have below : (rest / denominator : ℚ) < 1 / 2 := by
      have := cast_lt below
      rw [div_lt_iff₀ positive']
      push_cast at this
      linarith
    exact .of_lt_half (by positivity) below
  · split
    · rename_i above
      have above : (1 / 2 : ℚ) < rest / denominator := by
        have := cast_lt above
        rw [lt_div_iff₀ positive']
        push_cast at this
        linarith
      exact .of_half_lt above ((div_lt_one positive').mpr (cast_lt less))
    · have half : (rest / denominator : ℚ) = 1 / 2 := by
        have : denominator = 2 * rest := by omega
        rw [this]
        have : (rest : ℚ) ≠ 0 := by
          rintro zero
          simp_all
        push_cast
        field_simp
      rw [half]
      exact .of_half whole

section Scale

variable {numerator denominator : Nat}

theorem dividedByPower_pos (positive : 0 < denominator) (power : Int) :
    0 < (dividedByPower numerator denominator power).2 := by
  unfold dividedByPower
  split
  · exact Nat.mul_pos positive (Nat.pow_pos two_pos)
  · exact positive

theorem dividedByPower_div (numerator denominator : Nat) (power : Int) :
    ((dividedByPower numerator denominator power).1 : ℚ) /
        (dividedByPower numerator denominator power).2 =
      numerator / denominator / 2 ^ power := by
  unfold dividedByPower
  split
  · rename_i nonneg
    obtain ⟨exponent, rfl⟩ := Int.eq_ofNat_of_zero_le nonneg
    simp [div_mul_eq_div_div]
  · rename_i negative
    obtain ⟨exponent, isExponent⟩ := Int.eq_ofNat_of_zero_le (show 0 ≤ -power by omega)
    obtain rfl : power = -exponent := by omega
    simp [mul_div_right_comm]

theorem two_pow_log2_le (positive : 0 < numerator) :
    (2 : ℚ) ^ (numerator.log2 : Int) ≤ numerator := by
  rw [zpow_natCast]
  exact_mod_cast Nat.log2_self_le positive.ne'

theorem lt_two_pow_log2 (number : Nat) : (number : ℚ) < 2 ^ (number.log2 + 1 : Int) := by
  rw [← Nat.cast_succ, zpow_natCast]
  exact_mod_cast Nat.lt_log2_self

/-- The logarithms of its parts give a fraction up to a factor of two. -/
theorem fraction_bounds (positive : 0 < numerator) (positive' : 0 < denominator) :
    (2 : ℚ) ^ ((numerator.log2 : Int) - denominator.log2 - 1) < numerator / denominator ∧
      (numerator / denominator : ℚ) < 2 ^ ((numerator.log2 : Int) - denominator.log2 + 1) := by
  have cast_pos : (0 : ℚ) < denominator := by exact_mod_cast positive'
  have low : (0 : ℚ) < 2 ^ (denominator.log2 : Int) := by positivity
  constructor
  · rw [sub_sub, zpow_sub₀ two_ne_zero, div_lt_div_iff₀ (by positivity) cast_pos]
    exact mul_lt_mul_of_le_of_lt_of_pos_of_nonneg (two_pow_log2_le positive)
      (lt_two_pow_log2 denominator) (by positivity) (by positivity)
  · rw [← add_sub_right_comm, zpow_sub₀ two_ne_zero, div_lt_div_iff₀ cast_pos low]
    exact mul_lt_mul_of_lt_of_le_of_nonneg_of_pos (lt_two_pow_log2 numerator)
      (two_pow_log2_le positive') (by positivity) (by positivity)

/-- Divided by the power of two that the scale stands for, a fraction lies between two to the
fifty-second and two to the fifty-third, unless the scale is the smallest one. -/
theorem scaleOfFraction_spec (positive : 0 < numerator) (positive' : 0 < denominator) :
    smallestScale ≤ scaleOfFraction numerator denominator ∧
      (numerator / denominator : ℚ) < 2 ^ (scaleOfFraction numerator denominator + 53) ∧
      (scaleOfFraction numerator denominator = smallestScale ∨
        (2 : ℚ) ^ (scaleOfFraction numerator denominator + 52) ≤ numerator / denominator) := by
  obtain ⟨above, below⟩ := fraction_bounds positive positive'
  set estimate : Int := (numerator.log2 : Int) - denominator.log2 - 52 with isEstimate
  set scaled := dividedByPower numerator denominator estimate with isScaled
  have scaledPositive : (0 : ℚ) < scaled.2 := by
    exact_mod_cast dividedByPower_pos positive' estimate
  have short : scaled.1 < scaled.2 * fractionLimit ↔
      (numerator / denominator : ℚ) < 2 ^ (estimate + 52) := by
    have limit : (fractionLimit : ℚ) = 2 ^ (52 : Int) := by norm_num [fractionLimit]
    rw [← @Nat.cast_lt ℚ, Nat.cast_mul, limit, ← div_lt_iff₀' scaledPositive, isScaled,
      dividedByPower_div, div_lt_iff₀ (by positivity), ← zpow_add₀ two_ne_zero, add_comm]
  have scale : scaleOfFraction numerator denominator =
      max (if scaled.1 < scaled.2 * fractionLimit then estimate - 1 else estimate)
        smallestScale := rfl
  have exact : ∃ exact : Int, scaleOfFraction numerator denominator = max exact smallestScale ∧
      (2 : ℚ) ^ (exact + 52) ≤ numerator / denominator ∧
      (numerator / denominator : ℚ) < 2 ^ (exact + 53) := by
    by_cases isShort : scaled.1 < scaled.2 * fractionLimit
    · rw [if_pos isShort] at scale
      refine ⟨estimate - 1, scale, ?_, ?_⟩
      · rw [show estimate - 1 + 52 = (numerator.log2 : Int) - denominator.log2 - 1 by omega]
        exact above.le
      · rw [show estimate - 1 + 53 = estimate + 52 by omega]
        exact short.mp isShort
    · rw [if_neg isShort] at scale
      refine ⟨estimate, scale, not_lt.mp (mt short.mpr isShort), ?_⟩
      rw [show estimate + 53 = (numerator.log2 : Int) - denominator.log2 + 1 by omega]
      exact below
  obtain ⟨exact, isScale, atLeast, less⟩ := exact
  rw [isScale]
  refine ⟨le_max_right _ _, less.trans_le ?_, ?_⟩
  · exact zpow_le_zpow_right₀ one_le_two (by omega)
  · rcases le_total exact smallestScale with isSmall | isLarge
    · exact .inl (max_eq_right isSmall)
    · rw [max_eq_left isLarge]
      exact .inr atLeast

end Scale

/-- A number of the wanted magnitude.  A significand that was rounded up to two to the
fifty-third carries into the exponent. -/
theorem ofFields_spec {negative : Bool} {scale : Int} {significand : Nat} {number : Binary64}
    (smallest : smallestScale ≤ scale) (atMost : significand ≤ 2 ^ 53)
    (long : scale = smallestScale ∨ 2 ^ 52 ≤ significand)
    (inRange : (scale - smallestScale).toNat * 2 ^ 52 + significand < 2047 * 2 ^ 52)
    (isNumber : number =
      ofFields negative ((scale - smallestScale).toNat * 2 ^ 52 + significand)) :
    number.isFinite ∧ number.isNegative = negative ∧
      number.magnitude = significand * 2 ^ scale ∧
      (Even number.significand ↔ Even significand) := by
  have small : (scale - smallestScale).toNat * 2 ^ 52 + significand < 2 ^ 63 := by omega
  have sign : number.isNegative = negative := isNumber ▸ isNegative_ofFields small
  have exponent : number.exponentField = _ := isNumber ▸ exponentField_ofFields small
  have fraction : number.fractionField = _ := isNumber ▸ fractionField_ofFields small
  have limit : fractionLimit = 2 ^ 52 := rfl
  have first : smallestScale = -1074 := rfl
  have finite : number.isFinite := by
    rw [isFinite, bne_iff_ne, specialExponent]
    omega
  have cases : (number.significand = significand ∧ number.scale = scale) ∨
      (significand = 2 ^ 53 ∧ number.significand = 2 ^ 52 ∧ number.scale = scale + 1) := by
    unfold Binary64.significand Binary64.scale
    split <;> omega
  refine ⟨finite, sign, ?_⟩
  rcases cases with ⟨isSignificand, isScale⟩ | ⟨carried, isSignificand, isScale⟩
  · rw [magnitude, isSignificand, isScale]
    exact ⟨rfl, Iff.rfl⟩
  · rw [magnitude, isSignificand, isScale, carried, zpow_add₀ two_ne_zero]
    refine ⟨by push_cast; ring, ?_⟩
    decide

/-- A finite number is the nearest one to a value; among two that are equally near it has the
even significand and the other one an odd one. -/
structure RoundsTo (value : ℚ) (number : Binary64) : Prop where
  finite : number.isFinite
  nearest : ∀ other : Binary64, other.isFinite →
    |value - number.toRat| ≤ |value - other.toRat|
  tie : ∀ other : Binary64, other.isFinite →
    |value - other.toRat| = |value - number.toRat| →
      other.toRat = number.toRat ∨ (Even number.significand ∧ Odd other.significand)

theorem abs_withSign_sub (negative : Bool) (left right : ℚ) :
    |withSign negative left - withSign negative right| = |left - right| := by
  cases negative with
  | false => rfl
  | true => rw [withSign, withSign, if_pos rfl, if_pos rfl, neg_sub_neg, abs_sub_comm]

/-- A value is no further from the magnitude of a number than from the number. -/
theorem abs_sub_magnitude_le {magnitude : ℚ} (nonneg : 0 ≤ magnitude) (negative : Bool)
    (other : Binary64) :
    |magnitude - other.magnitude| ≤ |withSign negative magnitude - other.toRat| := by
  have := abs_abs_sub_abs_le (withSign negative magnitude) other.toRat
  rwa [abs_withSign, abs_toRat, abs_of_nonneg nonneg] at this

/-- A number on the other side of zero is as far away as its magnitude only if one of both is
zero. -/
theorem toRat_eq_of_magnitude {magnitude : ℚ} {negative : Bool} {number other : Binary64}
    (positive : 0 < magnitude) (sign : number.isNegative = negative)
    (same : other.magnitude = number.magnitude)
    (near : |withSign negative magnitude - other.toRat| = |magnitude - other.magnitude|) :
    other.toRat = number.toRat := by
  have nonneg := other.magnitude_nonneg
  by_cases sameSign : other.isNegative = negative
  · rw [toRat, toRat, sign, sameSign, same]
  · have opposite : |withSign negative magnitude - other.toRat| = magnitude + other.magnitude := by
      have isOpposite : other.isNegative = !negative := by
        cases negative <;> simpa using sameSign
      rw [toRat, isOpposite]
      cases negative with
      | false =>
          simp only [withSign, Bool.not_false, if_true, Bool.false_eq_true, if_false,
            sub_neg_eq_add]
          exact abs_of_nonneg (by linarith)
      | true =>
          simp only [withSign, Bool.not_true, if_true, Bool.false_eq_true, if_false]
          rw [← neg_add', abs_neg, abs_of_nonneg (by linarith)]
    have none : other.magnitude = 0 := by
      rw [opposite] at near
      rcases abs_cases (magnitude - other.magnitude) with ⟨isAbs, -⟩ | ⟨isAbs, -⟩ <;> linarith
    rw [(toRat_eq_zero_iff other).mpr ((magnitude_eq_zero_iff other).mp none),
      (toRat_eq_zero_iff number).mpr ((magnitude_eq_zero_iff number).mp (same ▸ none))]

/-- No magnitude is nearer to a value than the one whose significand is the rounded quotient by
the power of two that the scale stands for. -/
theorem abs_sub_le_magnitude {magnitude : ℚ} {scale : Int} {significand : Nat}
    (isRounded : IsRounded (magnitude / 2 ^ scale) significand)
    (long : scale = smallestScale ∨ (2 : ℚ) ^ (scale + 52) ≤ magnitude) (other : Binary64) :
    |magnitude - significand * 2 ^ scale| ≤ |magnitude - other.magnitude| ∧
      (|magnitude - other.magnitude| = |magnitude - significand * 2 ^ scale| →
        other.magnitude = significand * 2 ^ scale ∨
          (Even significand ∧ Odd other.significand)) := by
  have power : (0 : ℚ) < 2 ^ scale := by positivity
  have scaled (left : ℚ) :
      |magnitude - left * 2 ^ scale| = |magnitude / 2 ^ scale - left| * 2 ^ scale := by
    rw [← abs_of_pos power, ← abs_mul, sub_mul, abs_of_pos power, div_mul_cancel₀ _ power.ne']
  rcases le_or_gt scale other.scale with inPlaces | below
  · rw [magnitude_eq_of_le_scale inPlaces, scaled, scaled]
    set places := other.significand * 2 ^ (other.scale - scale).toNat with isPlaces
    refine ⟨mul_le_mul_of_nonneg_right (isRounded.nearest places) power.le, fun tie => ?_⟩
    have tie := mul_right_cancel₀ power.ne' tie
    by_cases same : places = significand
    · exact .inl (by rw [same])
    · obtain ⟨even, odd⟩ := isRounded.even_odd_of_tie same tie
      exact .inr ⟨even, (Nat.odd_mul.mp odd).1⟩
  · have large : (2 : ℚ) ^ (scale + 52) ≤ magnitude := long.resolve_left fun isSmallest => by
      have := other.smallestScale_le_scale
      omega
    have less : other.magnitude < 2 ^ (scale + 52) := by
      have short : (other.significand : ℚ) < 2 ^ (53 : Int) := by
        exact_mod_cast other.significand_lt
      calc other.magnitude < 2 ^ (53 : Int) * 2 ^ other.scale :=
            mul_lt_mul_of_pos_right short (by positivity)
        _ = 2 ^ (53 + other.scale) := (zpow_add₀ two_ne_zero _ _).symm
        _ ≤ 2 ^ (scale + 52) := zpow_le_zpow_right₀ one_le_two (by omega)
    have whole : (2 : ℚ) ^ (scale + 52) = (2 ^ 52 : Nat) * 2 ^ scale := by
      rw [zpow_add₀ two_ne_zero, mul_comm]
      norm_num
    have strict : |magnitude - significand * 2 ^ scale| < |magnitude - other.magnitude| :=
      calc |magnitude - significand * 2 ^ scale| ≤ |magnitude - 2 ^ (scale + 52)| := by
            rw [whole, scaled, scaled]
            exact mul_le_mul_of_nonneg_right (isRounded.nearest _) power.le
        _ = magnitude - 2 ^ (scale + 52) := abs_of_nonneg (by linarith)
        _ < magnitude - other.magnitude := by linarith
        _ = |magnitude - other.magnitude| := (abs_of_pos (by linarith)).symm
    exact ⟨strict.le, fun tie => absurd tie strict.ne'⟩

theorem RoundsTo.of_isRounded {magnitude : ℚ} {scale : Int} {significand : Nat} {number : Binary64}
    (positive : 0 < magnitude) (finite : number.isFinite)
    (isMagnitude : number.magnitude = significand * 2 ^ scale)
    (parity : Even number.significand ↔ Even significand)
    (isRounded : IsRounded (magnitude / 2 ^ scale) significand)
    (long : scale = smallestScale ∨ (2 : ℚ) ^ (scale + 52) ≤ magnitude) :
    RoundsTo (withSign number.isNegative magnitude) number := by
  have own : |withSign number.isNegative magnitude - number.toRat| =
      |magnitude - significand * 2 ^ scale| := by
    rw [toRat, abs_withSign_sub, isMagnitude]
  refine ⟨finite, fun other _ => ?_, fun other _ tie => ?_⟩
  · rw [own]
    exact (abs_sub_le_magnitude isRounded long other).1.trans
      (abs_sub_magnitude_le positive.le _ other)
  · obtain ⟨nearest, ties⟩ := abs_sub_le_magnitude isRounded long other
    have atMost := abs_sub_magnitude_le positive.le number.isNegative other
    have same : |magnitude - other.magnitude| = |magnitude - significand * 2 ^ scale| :=
      le_antisymm (atMost.trans (tie.trans own).le) nearest
    refine (ties same).imp (fun sameMagnitude => ?_) (And.imp_left parity.mpr)
    exact toRat_eq_of_magnitude positive rfl (sameMagnitude.trans isMagnitude.symm)
      (tie.trans (own.trans same.symm))

/-- From here on a magnitude is rounded to infinity: half way between the greatest finite number
and the next power of two. -/
def overflowThreshold : ℚ :=
  2 ^ 1024 - 2 ^ 970

/-- The threshold lies half a place above the greatest significand. -/
theorem overflowThreshold_eq : overflowThreshold = (2 ^ 53 - 1 / 2) * 2 ^ (971 : Int) := by
  have greatest : (2 : ℚ) ^ 1024 = 2 ^ 53 * 2 ^ 971 := pow_add 2 53 971
  have half : (2 : ℚ) ^ 971 = 2 ^ 970 * 2 := pow_succ 2 970
  rw [overflowThreshold, greatest, zpow_ofNat, half]
  generalize (2 : ℚ) ^ 970 = place
  ring

theorem two_pow_le_overflowThreshold : (2 : ℚ) ^ (1023 : Int) ≤ overflowThreshold :=
  calc (2 : ℚ) ^ (52 + 971 : Int) = 2 ^ (52 : Int) * 2 ^ (971 : Int) := zpow_add₀ two_ne_zero _ _
    _ ≤ overflowThreshold := by
      rw [overflowThreshold_eq]
      exact mul_le_mul_of_nonneg_right (by norm_num) (by positivity)

theorem overflowThreshold_le_two_pow : overflowThreshold ≤ (2 : ℚ) ^ (1024 : Int) :=
  calc overflowThreshold ≤ 2 ^ (53 : Int) * 2 ^ (971 : Int) := by
        rw [overflowThreshold_eq]
        exact mul_le_mul_of_nonneg_right (by norm_num) (by positivity)
    _ = 2 ^ (53 + 971 : Int) := (zpow_add₀ two_ne_zero _ _).symm

/-- The bits of a rounded fraction stay below those of infinity as long as the fraction is below
the threshold. -/
theorem lowerBits_lt_iff {magnitude : ℚ} {scale : Int} {significand : Nat}
    (smallest : smallestScale ≤ scale) (below : magnitude < 2 ^ (scale + 53))
    (long : scale = smallestScale ∨ (2 : ℚ) ^ (scale + 52) ≤ magnitude)
    (isRounded : IsRounded (magnitude / 2 ^ scale) significand)
    (atMost : significand ≤ 2 ^ 53) (atLeast : scale = smallestScale ∨ 2 ^ 52 ≤ significand) :
    (scale - smallestScale).toNat * 2 ^ 52 + significand < 2047 * 2 ^ 52 ↔
      magnitude < overflowThreshold := by
  have first : smallestScale = -1074 := rfl
  have power : (0 : ℚ) < 2 ^ (971 : Int) := by positivity
  rcases lt_trichotomy scale 971 with low | rfl | high
  · have inRange : magnitude < overflowThreshold :=
      calc magnitude < 2 ^ (scale + 53) := below
        _ ≤ 2 ^ (1023 : Int) := zpow_le_zpow_right₀ one_le_two (by omega)
        _ ≤ overflowThreshold := two_pow_le_overflowThreshold
    exact iff_of_true (by omega) inRange
  · rw [overflowThreshold_eq, ← div_lt_iff₀ power]
    constructor
    · intro inRange
      have less : significand + 1 ≤ 2 ^ 53 := by omega
      have less : (significand : ℚ) + 1 ≤ 2 ^ 53 := by exact_mod_cast less
      have near := (abs_le.mp isRounded.near).2
      refine lt_of_le_of_ne (by linarith) fun isHalf => ?_
      -- a tie at the greatest significand, which is odd, goes up
      have isGreatest : (significand : ℚ) + 1 = 2 ^ 53 := by linarith
      have even := isRounded.even (by rw [isHalf, abs_of_nonneg] <;> linarith)
      have isGreatest : significand + 1 = 2 ^ 53 := by exact_mod_cast isGreatest
      rw [Nat.even_iff] at even
      omega
    · intro less
      have := (abs_le.mp isRounded.near).1
      have : (significand : ℚ) < (2 ^ 53 : Nat) := by
        push_cast
        linarith
      have : significand < 2 ^ 53 := by exact_mod_cast this
      omega
  · have large : overflowThreshold ≤ magnitude :=
      calc overflowThreshold ≤ 2 ^ (1024 : Int) := overflowThreshold_le_two_pow
        _ ≤ 2 ^ (scale + 52) := zpow_le_zpow_right₀ one_le_two (by omega)
        _ ≤ magnitude := long.resolve_left (by omega)
    exact iff_of_false (by omega) large.not_gt

theorem isNegative_zero (negative : Bool) : (zero negative).isNegative = negative :=
  isNegative_ofFields (by norm_num)

/-- What is less than half of the smallest positive number is rounded to zero. -/
theorem RoundsTo.zero {magnitude : ℚ} (nonneg : 0 ≤ magnitude)
    (below : 2 * magnitude < 2 ^ smallestScale) (negative : Bool) :
    RoundsTo (withSign negative magnitude) (Binary64.zero negative) := by
  have isZero : (Binary64.zero negative).toRat = 0 := by
    rw [toRat_eq_zero_iff]
    cases negative <;> rfl
  have strict (other : Binary64) : other.toRat = 0 ∨
      |withSign negative magnitude| < |withSign negative magnitude - other.toRat| := by
    by_cases same : other.toRat = 0
    · exact .inl same
    have positive : 1 ≤ other.significand := by
      rw [toRat_eq_zero_iff, ← magnitude_eq_zero_iff, Binary64.magnitude] at same
      exact Nat.pos_of_ne_zero fun none => same (by simp [none])
    have large : (2 : ℚ) ^ smallestScale ≤ other.magnitude :=
      calc (2 : ℚ) ^ smallestScale ≤ 2 ^ other.scale :=
            zpow_le_zpow_right₀ one_le_two other.smallestScale_le_scale
        _ ≤ other.significand * 2 ^ other.scale :=
            le_mul_of_one_le_left (by positivity) (by exact_mod_cast positive)
    right
    calc |withSign negative magnitude| = magnitude := by rw [abs_withSign, abs_of_nonneg nonneg]
      _ < |magnitude - other.magnitude| := lt_abs.mpr (.inr (by linarith))
      _ ≤ |withSign negative magnitude - other.toRat| := abs_sub_magnitude_le nonneg negative other
  refine ⟨by cases negative <;> rfl, fun other _ => ?_, fun other _ tie => ?_⟩
  · rw [isZero, sub_zero]
    rcases strict other with same | further
    · rw [same, sub_zero]
    · exact further.le
  · rw [isZero, sub_zero] at tie
    exact .inl (((strict other).resolve_right tie.not_gt).trans isZero.symm)

/-- The outcome of rounding a signed magnitude: below the threshold the nearest number, with the
same sign, and infinity otherwise. -/
structure RoundedWithSign (negative : Bool) (magnitude : ℚ) (number : Binary64) : Prop where
  sign : number.isNegative = negative
  roundsTo : magnitude < overflowThreshold → RoundsTo (withSign negative magnitude) number
  overflow : overflowThreshold ≤ magnitude → number = infinity negative

theorem RoundedWithSign.zero {magnitude : ℚ} (nonneg : 0 ≤ magnitude)
    (below : 2 * magnitude < 2 ^ smallestScale) (negative : Bool) :
    RoundedWithSign negative magnitude (Binary64.zero negative) := by
  refine ⟨isNegative_zero negative, fun _ => .zero nonneg below negative, fun above => ?_⟩
  have tiny : (2 : ℚ) ^ smallestScale ≤ 2 ^ (1023 : Int) :=
    zpow_le_zpow_right₀ one_le_two (by decide)
  have := below.trans_le (tiny.trans (two_pow_le_overflowThreshold.trans above))
  linarith only [this, nonneg]

theorem RoundedWithSign.infinity {magnitude : ℚ} (above : overflowThreshold ≤ magnitude)
    (negative : Bool) : RoundedWithSign negative magnitude (Binary64.infinity negative) :=
  ⟨isNegative_ofFields (by decide), fun below => absurd below above.not_gt, fun _ => rfl⟩

/-- A fraction is rounded to the nearest number. -/
theorem ofFraction_rounded (negative : Bool) (numerator : Nat) {denominator : Nat}
    (positive : 0 < denominator) :
    RoundedWithSign negative (numerator / denominator)
      (ofFraction negative numerator denominator) := by
  rcases Nat.eq_zero_or_pos numerator with rfl | positive'
  · rw [Nat.cast_zero, zero_div]
    exact .zero le_rfl (by rw [mul_zero]; positivity) negative
  obtain ⟨smallest, below, long⟩ := scaleOfFraction_spec positive' positive
  rw [ofFraction, if_neg positive'.ne']
  dsimp only
  generalize scaleOfFraction numerator denominator = scale at smallest below long
  have power : (0 : ℚ) < 2 ^ scale := by positivity
  have isRounded : IsRounded (numerator / denominator / 2 ^ scale)
      (roundQuotient (dividedByPower numerator denominator scale).1
        (dividedByPower numerator denominator scale).2) :=
    dividedByPower_div numerator denominator scale ▸
      roundQuotient_isRounded _ (dividedByPower_pos positive scale)
  generalize roundQuotient (dividedByPower numerator denominator scale).1
    (dividedByPower numerator denominator scale).2 = significand at isRounded
  have atMost : significand ≤ 2 ^ 53 := by
    refine isRounded.le_of_le' ((div_le_iff₀ power).mpr (below.le.trans_eq ?_))
    rw [add_comm, zpow_add₀ two_ne_zero]
    norm_num
  have atLeast : scale = smallestScale ∨ 2 ^ 52 ≤ significand := by
    refine long.imp_right fun large => isRounded.le_of_le ((le_div_iff₀ power).mpr ?_)
    refine Eq.trans_le ?_ large
    rw [add_comm scale, zpow_add₀ two_ne_zero]
    norm_num
  have inRange := lowerBits_lt_iff smallest below long isRounded atMost atLeast
  have limits : specialExponent * fractionLimit = 2047 * 2 ^ 52 := rfl
  rw [limits, show fractionLimit = 2 ^ 52 from rfl]
  split
  · rename_i isSmall
    obtain ⟨finite, sign, isMagnitude, parity⟩ :=
      ofFields_spec smallest atMost atLeast isSmall (Eq.refl (ofFields negative _))
    have positive : (0 : ℚ) < numerator / denominator := by positivity
    have rounds := RoundsTo.of_isRounded positive finite isMagnitude parity isRounded long
    rw [sign] at rounds
    exact ⟨sign, fun _ => rounds, fun above => absurd (inRange.mp isSmall) above.not_gt⟩
  · rename_i isLarge
    exact .infinity (not_lt.mp (mt inRange.mpr isLarge)) negative

theorem withSign_natAbs (integer : Int) :
    withSign (integer < 0) integer.natAbs = (integer : ℚ) := by
  rw [Nat.cast_natAbs]
  rcases lt_or_ge integer 0 with isNegative | nonneg
  · simp [withSign, isNegative, abs_of_neg]
  · simp [withSign, nonneg.not_gt, abs_of_nonneg nonneg]

/-- An integer of sixty-four bits becomes the number nearest to it. -/
theorem ofInt_roundsTo {integer : Int} (inRange : integer.natAbs < 2 ^ 64) :
    RoundsTo integer (ofInt integer) := by
  have rounded := ofFraction_rounded (integer < 0) integer.natAbs Nat.one_pos
  rw [Nat.cast_one, div_one] at rounded
  have below : (integer.natAbs : ℚ) < overflowThreshold :=
    calc (integer.natAbs : ℚ) < 2 ^ (64 : Int) := by exact_mod_cast inRange
      _ ≤ 2 ^ (1023 : Int) := zpow_le_zpow_right₀ one_le_two (by decide)
      _ ≤ overflowThreshold := two_pow_le_overflowThreshold
  have roundsTo := rounded.roundsTo below
  rwa [withSign_natAbs] at roundsTo

/-- How many digits a number has says how great it is. -/
theorem digits_bounds {digits : Nat} (positive : 0 < digits) :
    (10 : ℚ) ^ (((Nat.toDigits 10 digits).length : Int) - 1) ≤ digits ∧
      (digits : ℚ) < 10 ^ ((Nat.toDigits 10 digits).length : Int) := by
  have some : 0 < (Nat.toDigits 10 digits).length := Nat.length_toDigits_pos
  have less : digits < 10 ^ (Nat.toDigits 10 digits).length :=
    (Nat.length_toDigits_le_iff (by decide) some).mp le_rfl
  refine ⟨?_, by exact_mod_cast less⟩
  obtain ⟨count, isCount⟩ := Nat.exists_eq_add_one_of_ne_zero some.ne'
  rw [isCount, Nat.cast_add_one, add_sub_cancel_right, zpow_natCast]
  rcases Nat.eq_zero_or_pos count with rfl | more
  · rw [pow_zero]
    exact_mod_cast positive
  · have : ¬ (Nat.toDigits 10 digits).length ≤ count := by omega
    have := mt (Nat.length_toDigits_le_iff (by decide) more).mpr this
    exact_mod_cast Nat.not_lt.mp this

theorem two_zpow_le_ten_zpow (exponent : Nat) :
    (2 : ℚ) ^ (3 * exponent : Int) ≤ 10 ^ (exponent : Int) := by
  rw [zpow_mul, zpow_natCast, zpow_natCast]
  exact pow_le_pow_left₀ (by norm_num) (by norm_num) exponent

section Decimal

variable {digits : Nat} {exponent : Int}

theorem overflowThreshold_le_of_digits (positive : 0 < digits)
    (large : 400 < exponent + (Nat.toDigits 10 digits).length) :
    overflowThreshold ≤ digits * 10 ^ exponent := by
  obtain ⟨above, -⟩ := digits_bounds positive
  calc overflowThreshold ≤ 2 ^ (1024 : Int) := overflowThreshold_le_two_pow
    _ ≤ 2 ^ (3 * (400 : Nat) : Int) := zpow_le_zpow_right₀ one_le_two (by decide)
    _ ≤ 10 ^ ((400 : Nat) : Int) := two_zpow_le_ten_zpow 400
    _ ≤ 10 ^ (((Nat.toDigits 10 digits).length : Int) - 1 + exponent) :=
      zpow_le_zpow_right₀ (by norm_num) (by push_cast; omega)
    _ = 10 ^ (((Nat.toDigits 10 digits).length : Int) - 1) * 10 ^ exponent :=
      zpow_add₀ (by norm_num) _ _
    _ ≤ digits * 10 ^ exponent := mul_le_mul_of_nonneg_right above (by positivity)

theorem lt_smallest_of_digits (positive : 0 < digits)
    (small : exponent + (Nat.toDigits 10 digits).length < -400) :
    2 * (digits * 10 ^ exponent : ℚ) < 2 ^ smallestScale := by
  obtain ⟨-, below⟩ := digits_bounds positive
  have less : (digits * 10 ^ exponent : ℚ) < 10 ^ (-((401 : Nat) : Int)) :=
    calc (digits * 10 ^ exponent : ℚ)
        < 10 ^ ((Nat.toDigits 10 digits).length : Int) * 10 ^ exponent :=
          mul_lt_mul_of_pos_right below (by positivity)
      _ = 10 ^ (((Nat.toDigits 10 digits).length : Int) + exponent) :=
        (zpow_add₀ (by norm_num) _ _).symm
      _ ≤ 10 ^ (-((401 : Nat) : Int)) := zpow_le_zpow_right₀ (by norm_num) (by push_cast; omega)
  calc 2 * (digits * 10 ^ exponent : ℚ) < 2 * 10 ^ (-((401 : Nat) : Int)) := by linarith
    _ ≤ 2 * 2 ^ (-(3 * (401 : Nat)) : Int) := by
      rw [zpow_neg, zpow_neg]
      exact mul_le_mul_of_nonneg_left
        (inv_anti₀ (by positivity) (two_zpow_le_ten_zpow 401)) zero_le_two
    _ = 2 ^ (1 + -(3 * (401 : Nat)) : Int) := by rw [zpow_add₀ two_ne_zero, zpow_one]
    _ ≤ 2 ^ smallestScale := zpow_le_zpow_right₀ one_le_two (by decide)

end Decimal

/-- A decimal number is rounded to the nearest number.  What is decided by the number of digits
alone is far from the limits. -/
theorem ofDecimal_rounded (negative : Bool) (digits : Nat) (exponent : Int) :
    RoundedWithSign negative (digits * 10 ^ exponent) (ofDecimal negative digits exponent) := by
  unfold ofDecimal
  dsimp only
  split
  · rename_i none
    rw [none, Nat.cast_zero, zero_mul]
    exact .zero le_rfl (by rw [mul_zero]; positivity) negative
  rename_i some
  have positive := Nat.pos_of_ne_zero some
  split
  · exact .infinity (overflowThreshold_le_of_digits positive ‹_›) negative
  split
  · exact .zero (by positivity) (lt_smallest_of_digits positive ‹_›) negative
  split
  · rename_i nonneg
    obtain ⟨power, rfl⟩ := Int.eq_ofNat_of_zero_le nonneg
    have rounded := ofFraction_rounded negative (digits * 10 ^ power) Nat.one_pos
    rw [Nat.cast_one, div_one, Nat.cast_mul, Nat.cast_pow, Nat.cast_ofNat] at rounded
    rw [zpow_natCast]
    exact rounded
  · rename_i negativeExponent
    obtain ⟨power, isPower⟩ := Int.eq_ofNat_of_zero_le (show 0 ≤ -exponent by omega)
    obtain rfl : exponent = -power := by omega
    have rounded := ofFraction_rounded negative digits
      (Nat.pow_pos (n := power) (show 0 < 10 by decide))
    rw [Nat.cast_pow, Nat.cast_ofNat, div_eq_mul_inv] at rounded
    rw [neg_neg, zpow_neg, zpow_natCast]
    exact rounded

namespace RoundsTo

variable {value : ℚ} {number other : Binary64}

/-- No two numbers that denote something different are both nearest. -/
theorem toRat_eq (roundsTo : RoundsTo value number) (also : RoundsTo value other) :
    number.toRat = other.toRat := by
  have distance : |value - other.toRat| = |value - number.toRat| :=
    le_antisymm (also.nearest number roundsTo.finite) (roundsTo.nearest other also.finite)
  rcases roundsTo.tie other also.finite distance with same | ⟨even, -⟩
  · exact same.symm
  · exact (also.tie number roundsTo.finite distance.symm).resolve_right fun ⟨_, odd⟩ =>
      Nat.not_even_iff_odd.mpr odd even

theorem of_toRat_eq (roundsTo : RoundsTo value number) (finite : other.isFinite)
    (same : number.toRat = other.toRat) : RoundsTo value other := by
  have significand : number.significand = other.significand :=
    (significand_scale_of_magnitude (by rw [← abs_toRat, ← abs_toRat, same])).1
  refine ⟨finite, ?_, ?_⟩
  · rw [← same]
    exact roundsTo.nearest
  · rw [← same, ← significand]
    exact roundsTo.tie

/-- What a finite number denotes is rounded to nothing else. -/
theorem of_finite (finite : number.isFinite) : RoundsTo number.toRat number := by
  refine ⟨finite, fun other _ => ?_, fun other _ tie => .inl ?_⟩
  · rw [sub_self, abs_zero]
    exact abs_nonneg _
  · rw [sub_self, abs_zero, abs_eq_zero] at tie
    exact (sub_eq_zero.mp tie).symm

end RoundsTo

end Stencil.Binary64
