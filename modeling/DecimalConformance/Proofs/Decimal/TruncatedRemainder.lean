import DecimalConformance.Proofs.Decimal.CorrectRounding
import DecimalConformance.Proofs.Except
import Mathlib.Data.Rat.Floor

/-! The remainder of a truncating division.
It is what the integral part of the quotient leaves of the dividend, and is refused exactly where that
part has too many digits.  The places of the leading digits alone refuse some of those quotients before
anything is aligned, and no other quotient. -/
namespace DecimalConformance

/-- What is left of a number when the digits behind its point are cut off. -/
def integralPart (x : ℚ) : Int := if x < 0 then ⌈x⌉ else ⌊x⌋

theorem integralPart_neg (x : ℚ) : integralPart (-x) = -integralPart x := by
  rcases lt_trichotomy x 0 with negative | rfl | positive
  · rw [integralPart, integralPart, if_pos negative, if_neg (by linarith), Int.floor_neg]
  · simp [integralPart]
  · rw [integralPart, integralPart, if_neg positive.not_gt, if_pos (by linarith), Int.ceil_neg]

private theorem integralPart_natCast_div (m n : Nat) : integralPart ((m : ℚ) / n) = (m / n : Nat) := by
  have least : (0 : ℚ) ≤ (m : ℚ) / n := by positivity
  rw [integralPart, if_neg least.not_gt]
  exact Rat.floor_natCast_div_natCast m n

/-- Of a quotient of integers the truncating division takes the integral part. -/
theorem integralPart_div (x y : Int) : integralPart ((x : ℚ) / y) = x.tdiv y := by
  obtain ⟨m, rfl | rfl⟩ := x.eq_nat_or_neg <;> obtain ⟨n, rfl | rfl⟩ := y.eq_nat_or_neg <;>
    simp only [Int.cast_neg, Int.cast_natCast, neg_div, div_neg, neg_neg, integralPart_neg,
      integralPart_natCast_div, Int.neg_tdiv, Int.tdiv_neg] <;> rfl

namespace Decimal

variable {a b : Decimal} {precision : Nat}

/-- What the integral part of the quotient leaves of the dividend. -/
def leftOver (a b : Decimal) : Decimal :=
  ⟨(a.shifted (min a.exponent b.exponent)).tmod (b.shifted (min a.exponent b.exponent)),
    min a.exponent b.exponent⟩

theorem integralPart_quotient (a b : Decimal) :
    integralPart (a.value / b.value) =
      (a.shifted (min a.exponent b.exponent)).tdiv (b.shifted (min a.exponent b.exponent)) := by
  have unit : (10 : ℚ) ^ min a.exponent b.exponent ≠ 0 := zpow_ne_zero _ (by norm_num)
  rw [value_eq_shifted (Int.min_le_left a.exponent b.exponent),
    value_eq_shifted (Int.min_le_right a.exponent b.exponent), mul_div_mul_right _ _ unit,
    integralPart_div]

theorem value_leftOver (a b : Decimal) :
    (leftOver a b).value = a.value - integralPart (a.value / b.value) * b.value := by
  rw [integralPart_quotient, value_eq_shifted (Int.min_le_left a.exponent b.exponent),
    value_eq_shifted (Int.min_le_right a.exponent b.exponent), leftOver, value, Int.tmod_def]
  push_cast
  ring

theorem sign_shifted (d : Decimal) (low : Int) : (d.shifted low).sign = d.coefficient.sign := by
  have unit : (0 : Int) < 10 ^ (d.exponent - low).toNat := by positivity
  rw [shifted, Int.sign_mul, Int.sign_eq_one_of_pos unit, Int.mul_one]

theorem sign_leftOver (a b : Decimal) :
    (leftOver a b).coefficient = 0 ∨ (leftOver a b).coefficient.sign = a.coefficient.sign := by
  have sign : (leftOver a b).coefficient.sign = _ := Int.sign_tmod _ _
  rw [sign_shifted] at sign
  split_ifs at sign
  · exact .inl (Int.sign_eq_zero_iff_zero.mp sign)
  · exact .inr sign

theorem abs_value_leftOver_lt (divisor : b.coefficient ≠ 0) : |(leftOver a b).value| < |b.value| := by
  have unit : (0 : ℚ) < 10 ^ min a.exponent b.exponent := by positivity
  have positive : 0 < (b.shifted (min a.exponent b.exponent)).natAbs :=
    Int.natAbs_pos.mpr (shifted_eq_zero_iff.not.mpr divisor)
  rw [abs_value, abs_value_eq_shifted (Int.min_le_right a.exponent b.exponent), ← natAbs_shifted, leftOver,
    Int.natAbs_tmod]
  exact mul_lt_mul_of_pos_right (by exact_mod_cast Nat.mod_lt _ positive) unit

/-- Leading digits more than the precision apart leave an integral part that is too long. -/
theorem lt_digits_of_lt_adjusted (dividend : a.coefficient ≠ 0) (divisor : b.coefficient ≠ 0)
    (positive : 0 < precision) (apart : precision < saturate (a.adjusted - b.adjusted)) :
    precision < digitCount (integralPart (a.value / b.value)).natAbs := by
  obtain ⟨low, same⟩ : ∃ low, low = min a.exponent b.exponent := ⟨_, rfl⟩
  have one := a.digits_pos
  have gap : precision + (b.digits + (b.exponent - low).toNat) ≤
      a.digits + (a.exponent - low).toNat - 1 := by
    simp only [adjusted, saturate, exponentMin, exponentMax] at apart
    omega
  rw [lt_digitCount_iff positive, integralPart_quotient, Int.natAbs_tdiv, ← same]
  refine (Nat.le_div_iff_mul_le (Int.natAbs_pos.mpr (shifted_eq_zero_iff.not.mpr divisor))).mpr ?_
  calc 10 ^ precision * (b.shifted low).natAbs
      ≤ 10 ^ precision * 10 ^ (b.digits + (b.exponent - low).toNat) :=
        Nat.mul_le_mul_left _ (natAbs_shifted_lt b low).le
    _ = 10 ^ (precision + (b.digits + (b.exponent - low).toNat)) := (Nat.pow_add ..).symm
    _ ≤ 10 ^ (a.digits + (a.exponent - low).toNat - 1) := Nat.pow_le_pow_right (by omega) gap
    _ ≤ (a.shifted low).natAbs := pow_le_natAbs_shifted dividend low

theorem remainder_of_divisor_eq_zero (a : Decimal) (precision : Nat) (zero : b.coefficient = 0) :
    a.remainder b precision = .error (.invalidOperation "remainder by zero") := by
  rw [remainder, remainderBy, if_pos (by simp [isZero, zero]), throw_eq_error]

theorem remainder_eq_ite (divisor : b.coefficient ≠ 0)
    (near : (a.exponent - b.exponent).natAbs ≤ maxShift) :
    a.remainder b precision =
      if 0 < precision ∧ precision < digitCount (integralPart (a.value / b.value)).natAbs then
        .error .divisionImpossible
      else .ok (leftOver a b) := by
  have left : (a.exponent - min a.exponent b.exponent).toNat ≤ maxShift := by omega
  have right : (b.exponent - min a.exponent b.exponent).toNat ≤ maxShift := by omega
  unfold remainder remainderBy
  rw [if_neg (by simp [isZero, divisor]), ofExcept_self, ofExcept_self, coefficientAt_eq left,
    coefficientAt_eq right]
  simp only [bind, Except.bind, pure, Except.pure, ← integralPart_quotient]
  by_cases zero : a.coefficient = 0
  · have whole : integralPart (a.value / b.value) = 0 := by
      rw [value_eq_zero_iff.mpr zero, zero_div]
      simp [integralPart]
    have one : digitCount (0 : Int).natAbs = 1 := by decide
    have nothing : leftOver a b = ⟨0, min a.exponent b.exponent⟩ := by simp [leftOver, shifted, zero]
    rw [if_pos (by simp [isZero, zero]), whole, one, if_neg (by omega), nothing]
  · rw [if_neg (by simp [isZero, zero])]
    split_ifs with refused long long
    · rfl
    · exact absurd ⟨refused.1, lt_digits_of_lt_adjusted zero divisor refused.1 refused.2⟩ long
    · rfl
    · rfl

/-- Unless the exponents lie too far apart to be aligned, a remainder is refused exactly where the
integral part of the quotient is longer than the precision.  Any other is the dividend less that many
divisors, at the smaller exponent, nearer to zero than the divisor and on the side of the dividend.
Nothing is left by a division by zero. -/
theorem remainder_truncates (a b : Decimal) (precision : Nat) :
    (b.coefficient = 0 →
      a.remainder b precision = .error (.invalidOperation "remainder by zero")) ∧
    (b.coefficient ≠ 0 → (a.exponent - b.exponent).natAbs ≤ maxShift →
      let n := integralPart (a.value / b.value)
      (a.remainder b precision = .error .divisionImpossible ↔
        0 < precision ∧ precision < digitCount n.natAbs) ∧
      (¬ (0 < precision ∧ precision < digitCount n.natAbs) →
        ∃ rest, a.remainder b precision = .ok rest ∧
          rest.value = a.value - n * b.value ∧ rest.exponent = min a.exponent b.exponent ∧
          (rest.coefficient = 0 ∨ rest.coefficient.sign = a.coefficient.sign) ∧
          |rest.value| < |b.value|)) := by
  refine ⟨fun zero => ?_, fun divisor near => ?_⟩
  · exact remainder_of_divisor_eq_zero a precision zero
  · dsimp only
    rw [remainder_eq_ite divisor near]
    constructor
    · split_ifs with long
      · exact iff_of_true rfl long
      · exact iff_of_false not_false long
    · intro short
      rw [if_neg short]
      exact ⟨leftOver a b, rfl, value_leftOver a b, rfl, sign_leftOver a b,
        abs_value_leftOver_lt divisor⟩

/-- A hundred leads both divisors by one place, and only the second quotient has two digits. -/
theorem remainder_truncates_borderline :
    (⟨11, 0⟩ : Decimal).coefficient ≠ 0 ∧ (⟨10, 0⟩ : Decimal).coefficient ≠ 0 ∧
      ((0 : Int) - 0).natAbs ≤ maxShift ∧
      (⟨-100, 0⟩ : Decimal).remainder ⟨11, 0⟩ 1 = .ok ⟨-1, 0⟩ ∧
      ¬ 1 < digitCount
        (integralPart ((⟨-100, 0⟩ : Decimal).value / (⟨11, 0⟩ : Decimal).value)).natAbs ∧
      |(⟨-1, 0⟩ : Decimal).value| < |(⟨11, 0⟩ : Decimal).value| ∧
      (⟨-100, 0⟩ : Decimal).remainder ⟨10, 0⟩ 1 = .error .divisionImpossible ∧
      1 < digitCount
        (integralPart ((⟨-100, 0⟩ : Decimal).value / (⟨10, 0⟩ : Decimal).value)).natAbs := by
  have near : ((0 : Int) - 0).natAbs ≤ maxShift := by decide
  have left : (⟨-100, 0⟩ : Decimal).remainder ⟨11, 0⟩ 1 = .ok ⟨-1, 0⟩ := by decide
  have refused : (⟨-100, 0⟩ : Decimal).remainder ⟨10, 0⟩ 1 = .error .divisionImpossible := by decide
  obtain ⟨-, eleven⟩ := remainder_truncates ⟨-100, 0⟩ ⟨11, 0⟩ 1
  obtain ⟨-, ten⟩ := remainder_truncates ⟨-100, 0⟩ ⟨10, 0⟩ 1
  obtain ⟨possible, remains⟩ := eleven (by decide) near
  have short := possible.not.mp (by rw [left]; exact ok_ne_error _ _)
  obtain ⟨rest, same, -, -, -, smaller⟩ := remains short
  obtain rfl := Except.ok.inj (left.symm.trans same)
  exact ⟨by decide, by decide, near, left, fun long => short ⟨by decide, long⟩, smaller, refused,
    ((ten (by decide) near).1.mp refused).2⟩

end Decimal
end DecimalConformance
