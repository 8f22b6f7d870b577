import Stencil.Macro.Builtin
import Stencil.Proofs.Rounding

/-!
# Integers and floating-point numbers

An integer is compared with a floating-point number after it has been rounded to one.  So a
floating-point number is equal to every integer that is rounded to it, and the comparison says
whether both denote the same as long as the integers are exact, up to two to the fifty-third.
-/

namespace Stencil

namespace Binary64

/-- Small natural numbers are denoted exactly. -/
theorem exists_toRat_eq (negative : Bool) {magnitude : Nat} (small : magnitude ≤ 2 ^ 53) :
    ∃ number : Binary64, number.isFinite ∧ number.toRat = withSign negative magnitude := by
  rcases Nat.eq_zero_or_pos magnitude with rfl | positive
  · refine ⟨zero negative, by cases negative <;> rfl, ?_⟩
    rw [(toRat_eq_zero_iff _).mpr (by cases negative <;> rfl)]
    cases negative <;> simp [withSign]
  rcases Nat.lt_or_eq_of_le small with less | rfl
  · -- shift the highest bit to the highest place of the significand
    have low := Nat.log2_self_le positive.ne'
    have high := magnitude.lt_log2_self
    have short : magnitude.log2 < 53 := (Nat.log2_lt positive.ne').mpr less
    obtain ⟨places, isPlaces⟩ := Nat.exists_eq_add_of_le (Nat.le_of_lt_succ short)
    have atLeast : 2 ^ 52 ≤ magnitude * 2 ^ places := by
      calc 2 ^ 52 = 2 ^ magnitude.log2 * 2 ^ places := by rw [← pow_add, isPlaces]
        _ ≤ magnitude * 2 ^ places := Nat.mul_le_mul_right _ low
    have atMost : magnitude * 2 ^ places ≤ 2 ^ 53 := by
      calc magnitude * 2 ^ places ≤ 2 ^ (magnitude.log2 + 1) * 2 ^ places :=
            Nat.mul_le_mul_right _ high.le
        _ = 2 ^ 53 := by rw [← pow_add, add_right_comm, ← isPlaces]
    have smallest : smallestScale ≤ -(places : Int) := by
      rw [smallestScale]
      omega
    have steps : (-(places : Int) - smallestScale).toNat ≤ 1074 := by
      rw [smallestScale]
      omega
    obtain ⟨finite, sign, isMagnitude, -⟩ := ofFields_spec smallest atMost (.inr atLeast)
      (by omega) (Eq.refl (ofFields negative _))
    refine ⟨_, finite, ?_⟩
    rw [toRat, sign, isMagnitude]
    congr 1
    push_cast
    rw [zpow_neg, zpow_natCast, mul_inv_cancel_right₀ (by positivity)]
  · obtain ⟨finite, sign, isMagnitude, -⟩ := ofFields_spec (show smallestScale ≤ 0 by decide) le_rfl
      (.inr (by norm_num)) (by decide) (Eq.refl (ofFields negative _))
    refine ⟨_, finite, ?_⟩
    rw [toRat, sign, isMagnitude]
    simp

/-- An integer of sixty-four bits is equal to the numbers to which it is rounded. -/
theorem equals_ofInt_iff {integer : Int} (inRange : integer.natAbs < 2 ^ 64) {number : Binary64}
    (finite : number.isFinite) :
    (ofInt integer).equals number ↔ RoundsTo integer number := by
  have roundsTo := ofInt_roundsTo inRange
  rw [equals_iff roundsTo.finite finite]
  exact ⟨roundsTo.of_toRat_eq finite, roundsTo.toRat_eq⟩

theorem equals_comm {left right : Binary64} (leftFinite : left.isFinite)
    (rightFinite : right.isFinite) : left.equals right = right.equals left := by
  rw [Bool.eq_iff_iff, equals_iff leftFinite rightFinite, equals_iff rightFinite leftFinite]
  exact eq_comm

end Binary64

theorem Builtin.apply_equals (left right : Value) :
    Builtin.equals.toMacro.apply [left, right] = .ok (.boolean (left.equals right)) := rfl

namespace Value

/-- Whichever stands first, an integer equals a finite number exactly if that is the number
nearest to it, with ties to the even significand.  A number that denotes the integer always is,
and up to two to the fifty-third no other one. -/
theorem mixed_equality_rounds (integer : Int64) (number : Binary64) (finite : number.isFinite) :
    ∃ equal : Bool,
      Builtin.equals.toMacro.apply [.integer integer, .float number] = .ok (.boolean equal) ∧
      Builtin.equals.toMacro.apply [.float number, .integer integer] = .ok (.boolean equal) ∧
      (equal ↔ Binary64.RoundsTo integer.toInt number) ∧
      (number.toRat = integer.toInt → equal) ∧
      (integer.toInt.natAbs ≤ 2 ^ 53 → (equal ↔ number.toRat = integer.toInt)) := by
  have inRange : integer.toInt.natAbs < 2 ^ 64 := by
    have := integer.le_toInt
    have := integer.toInt_lt
    omega
  have rounds := Binary64.equals_ofInt_iff inRange finite
  have exact : number.toRat = integer.toInt → Binary64.RoundsTo integer.toInt number :=
    fun same => same ▸ .of_finite finite
  refine ⟨(Binary64.ofInt integer.toInt).equals number, rfl, ?_, rounds,
    fun same => rounds.mpr (exact same), fun small => rounds.trans ⟨fun roundsTo => ?_, exact⟩⟩
  · rw [Builtin.apply_equals, Value.equals,
      Binary64.equals_comm finite (Binary64.ofInt_roundsTo inRange).finite]
  · obtain ⟨own, ownFinite, isOwn⟩ :=
      Binary64.exists_toRat_eq (integer.toInt < 0) small
    rw [Binary64.withSign_natAbs] at isOwn
    have ownRounds : Binary64.RoundsTo integer.toInt own := isOwn ▸ .of_finite ownFinite
    exact (roundsTo.toRat_eq ownRounds).trans isOwn

/-- Three equals its floating-point number. -/
theorem mixed_equality_rounds_three : (⟨0x4008000000000000⟩ : Binary64).isFinite ∧
    ∃ equal : Bool,
      Builtin.equals.toMacro.apply [.integer 3, .float ⟨0x4008000000000000⟩] =
        .ok (.boolean equal) ∧
      (equal ↔ (⟨0x4008000000000000⟩ : Binary64).toRat = 3) := by
  have finite : (⟨0x4008000000000000⟩ : Binary64).isFinite := by decide
  obtain ⟨equal, applied, -, -, -, exact⟩ := mixed_equality_rounds 3 ⟨0x4008000000000000⟩ finite
  exact ⟨finite, equal, applied, by simpa using exact (by decide)⟩

/-- Two to the fifty-third equals the next integer too. -/
theorem mixed_equality_inexact :
    (⟨0x4340000000000000⟩ : Binary64).isFinite ∧
    (⟨0x4340000000000000⟩ : Binary64).toRat = 9007199254740992 ∧
    Builtin.equals.toMacro.apply [.integer 9007199254740992, .float ⟨0x4340000000000000⟩] =
      .ok (.boolean true) ∧
    Builtin.equals.toMacro.apply [.integer 9007199254740993, .float ⟨0x4340000000000000⟩] =
      .ok (.boolean true) := by
  have equal : (integer 9007199254740992).equals (.float ⟨0x4340000000000000⟩) = true := by
    decide +kernel
  have nextEqual : (integer 9007199254740993).equals (.float ⟨0x4340000000000000⟩) = true := by
    decide +kernel
  refine ⟨by decide, ?_, by rw [Builtin.apply_equals, equal],
    by rw [Builtin.apply_equals, nextEqual]⟩
  have sign : (⟨0x4340000000000000⟩ : Binary64).isNegative = false := by decide
  have significand : (⟨0x4340000000000000⟩ : Binary64).significand = 4503599627370496 := by decide
  have scale : (⟨0x4340000000000000⟩ : Binary64).scale = 1 := by decide
  rw [Binary64.toRat, Binary64.magnitude, sign, significand, scale]
  norm_num [Binary64.withSign]

end Value
end Stencil
