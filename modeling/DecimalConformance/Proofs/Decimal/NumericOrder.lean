import DecimalConformance.Proofs.Decimal.CorrectRounding

/-! The order of decimals.
A sign or the place of a leading digit may settle it, and coefficients are brought to one exponent
where neither does.  A place that the range of exponents cuts off never settles it wrongly: then both
are cut off, and the exponents lie as close together as the digits are long. -/
namespace DecimalConformance

namespace Decimal

variable {a b : Decimal}

theorem value_lt_zero_iff (d : Decimal) : d.value < 0 ↔ d.coefficient < 0 := by
  have unit : (0 : ℚ) < 10 ^ d.exponent := by positivity
  rw [value, ← not_le, mul_nonneg_iff_of_pos_right unit, Int.cast_nonneg_iff, not_le]

theorem zero_lt_value_iff (d : Decimal) : 0 < d.value ↔ 0 < d.coefficient := by
  have unit : (0 : ℚ) < 10 ^ d.exponent := by positivity
  rw [value, mul_pos_iff_of_pos_right unit, Int.cast_pos]

private theorem value_lt_of_sign_lt (less : a.coefficient.sign < b.coefficient.sign) :
    a.value < b.value := by
  rcases lt_or_ge a.coefficient 0 with negative | least
  · rw [Int.sign_eq_neg_one_of_neg negative] at less
    have least : 0 ≤ b.coefficient := Int.sign_nonneg_iff.mp (by omega)
    have least : 0 ≤ b.value := not_lt.mp ((value_lt_zero_iff b).not.mpr least.not_gt)
    exact ((value_lt_zero_iff a).mpr negative).trans_le least
  · have positive : 0 < b.coefficient := Int.sign_pos_iff.mp
      ((Int.sign_nonneg_iff.mpr least).trans_lt less)
    rw [Int.sign_eq_one_of_pos positive] at less
    have most : a.coefficient ≤ 0 := Int.sign_nonpos_iff.mp (by omega)
    have most : a.value ≤ 0 := not_lt.mp ((zero_lt_value_iff a).not.mpr most.not_gt)
    exact most.trans_lt ((zero_lt_value_iff b).mpr positive)

/-- Of two numbers, the one whose leading digit has the lower place is the smaller. -/
private theorem abs_value_lt_of_adjusted_lt (left : a.coefficient ≠ 0) (right : b.coefficient ≠ 0)
    (less : a.adjusted < b.adjusted) : |a.value| < |b.value| := by
  have places : (a.digits : Int) + a.exponent ≤ b.digits - 1 + b.exponent := by
    simp only [adjusted, saturate] at less
    omega
  calc |a.value| < 10 ^ (a.digits + a.exponent) := (abs_value_bounds left).2
    _ ≤ (10 : ℚ) ^ ((b.digits : Int) - 1 + b.exponent) := zpow_le_zpow_right₀ (by norm_num) places
    _ ≤ |b.value| := (abs_value_bounds right).1

theorem compareMagnitude_eq_cmp (left : a.coefficient ≠ 0) (right : b.coefficient ≠ 0) :
    a.compareMagnitude b = cmp |a.value| |b.value| := by
  have unit : (0 : ℚ) < 10 ^ min a.exponent b.exponent := by positivity
  rw [compareMagnitude, compareMagnitudeBy, pure_bind, pure_bind]
  cases order : Ord.compare a.adjusted b.adjusted with
  | lt =>
    have less := abs_value_lt_of_adjusted_lt left right (compare_lt_iff_lt.mp order)
    exact ((cmp_eq_lt_iff _ _).mpr less).symm
  | gt =>
    have less := abs_value_lt_of_adjusted_lt right left (compare_gt_iff_gt.mp order)
    exact ((cmp_eq_gt_iff _ _).mpr less).symm
  | eq =>
    rw [abs_value_eq_shifted (Int.min_le_left a.exponent b.exponent),
      abs_value_eq_shifted (Int.min_le_right a.exponent b.exponent), cmp_mul_pos_right unit,
      Nat.strictMono_cast.cmp_map_eq, cmp_eq_compare]
    rfl

/-- Comparison goes by the numbers that decimals denote. -/
theorem compare_eq_cmp (a b : Decimal) : a.compare b = cmp a.value b.value := by
  rw [compare, compareBy]
  cases order : Ord.compare a.coefficient.sign b.coefficient.sign with
  | lt => exact ((cmp_eq_lt_iff _ _).mpr (value_lt_of_sign_lt (compare_lt_iff_lt.mp order))).symm
  | gt => exact ((cmp_eq_gt_iff _ _).mpr (value_lt_of_sign_lt (compare_gt_iff_gt.mp order))).symm
  | eq =>
    have sign := compare_eq_iff_eq.mp order
    dsimp only
    rcases lt_trichotomy a.coefficient 0 with negative | zero | positive
    · have reversed : StrictAnti fun x : ℚ => -x := fun _ _ less => neg_lt_neg less
      rw [Int.sign_eq_neg_one_of_neg negative, eq_comm, Int.sign_eq_neg_one_iff_neg] at sign
      rw [if_neg negative.ne, if_pos negative, Id.run_bind, Id.run_pure, ← compareMagnitude,
        compareMagnitude_eq_cmp negative.ne sign.ne, cmp_swap,
        abs_of_neg ((value_lt_zero_iff a).mpr negative), abs_of_neg ((value_lt_zero_iff b).mpr sign),
        reversed.cmp_map_eq]
    · rw [zero, Int.sign_zero, eq_comm, Int.sign_eq_zero_iff_zero] at sign
      rw [if_pos zero, Id.run_pure, value_eq_zero_iff.mpr zero, value_eq_zero_iff.mpr sign, cmp_self_eq_eq]
    · rw [Int.sign_eq_one_of_pos positive, eq_comm, Int.sign_eq_one_iff_pos] at sign
      rw [if_neg positive.ne', if_neg positive.not_gt, ← compareMagnitude,
        compareMagnitude_eq_cmp positive.ne' sign.ne',
        abs_of_pos ((zero_lt_value_iff a).mpr positive), abs_of_pos ((zero_lt_value_iff b).mpr sign)]

/-- Comparison is a total preorder: decimals of one value are the same to it. -/
instance : Std.TransCmp compare where
  eq_swap := by
    intro a b
    rw [compare_eq_cmp, compare_eq_cmp, cmp_swap]
  isLE_trans := by
    intro a b c
    have order (a b : Decimal) : a.compare b = Ord.compare a.value b.value :=
      (compare_eq_cmp a b).trans (cmp_eq_compare _ _)
    rw [order, order, order]
    exact Std.TransCmp.isLE_trans

/-- Where two leading digits have one place, the exponents differ by a number of digits at most. -/
private theorem exponent_sub_le_of_adjusted_eq (most : a.exponent ≤ exponentMax)
    (left : exponentMin ≤ a.exponent) (right : exponentMin ≤ b.exponent)
    (same : a.adjusted = b.adjusted) : a.exponent - b.exponent ≤ b.digits := by
  have one := a.digits_pos
  have one' := b.digits_pos
  simp only [adjusted, saturate, exponentMin, exponentMax] at *
  omega

end Decimal

namespace Engine

open Decimal

/-- Decimals are compared as the numbers that they denote, whatever their exponents, and so by a total
preorder.  Where the leading digits have one place, or the range of exponents ends before it, no
coefficient is shifted by more digits than the longer one has. -/
theorem compare_is_numeric (internal : Nat) (context : Context) (a b : Decimal) :
    a.compare b = cmp a.value b.value ∧
    (standard internal).binary .compare a b context = .ok (orderValue (cmp a.value b.value)) ∧
    Std.TransCmp Decimal.compare ∧
    (ExponentFits a.exponent → ExponentFits b.exponent → a.adjusted = b.adjusted →
      let left := 10 ^ (a.exponent - min a.exponent b.exponent).toNat
      let right := 10 ^ (b.exponent - min a.exponent b.exponent).toNat
      a.compareMagnitude b =
          Ord.compare (a.coefficient.natAbs * left) (b.coefficient.natAbs * right) ∧
        left ≤ 10 ^ max a.digits b.digits ∧ right ≤ 10 ^ max a.digits b.digits) := by
  refine ⟨compare_eq_cmp a b, ?_, inferInstance, fun left right same => ?_⟩
  · rw [← compare_eq_cmp, standard_binary, calculateBinary_compare]
  · have above := exponent_sub_le_of_adjusted_eq left.2 left.1 right.1 same
    have below := exponent_sub_le_of_adjusted_eq right.2 right.1 left.1 same.symm
    refine ⟨?_, Nat.pow_le_pow_right (by omega) (by omega),
      Nat.pow_le_pow_right (by omega) (by omega)⟩
    simp only [compareMagnitude, compareMagnitudeBy, pure_bind, compare_eq_iff_eq.mpr same]
    rfl

/-- Both leading digits lie beyond the largest exponent, and the coefficients still tell the two
numbers apart. -/
theorem compare_is_numeric_beyond :
    ExponentFits 9223372036854775805 ∧ ExponentFits 9223372036854775807 ∧
      (⟨-123, 9223372036854775805⟩ : Decimal).adjusted =
        (⟨-12, 9223372036854775807⟩ : Decimal).adjusted ∧
      (⟨-12, 9223372036854775807⟩ : Decimal).value < (⟨-123, 9223372036854775805⟩ : Decimal).value ∧
      10 ^ 2 ≤ 10 ^ 3 := by
  obtain ⟨numeric, -, -, bounded⟩ := compare_is_numeric 34 ⟨9, .nearestEven⟩
    ⟨-123, 9223372036854775805⟩ ⟨-12, 9223372036854775807⟩
  have left : ExponentFits 9223372036854775805 := by decide
  have right : ExponentFits 9223372036854775807 := by decide
  have same : (⟨-123, 9223372036854775805⟩ : Decimal).adjusted =
      (⟨-12, 9223372036854775807⟩ : Decimal).adjusted := by decide
  refine ⟨left, right, same, ?_, (bounded left right same).2.2⟩
  exact (cmp_eq_gt_iff _ _).mp (numeric.symm.trans (by decide))

end Engine
end DecimalConformance
