import DecimalConformance.Proofs.Decimal.SumLaws
import DecimalConformance.Proofs.Decimal.TruncatedRemainder

/-! Exponents far apart.
The stand-in for a distant addend keeps sums from being aligned over any distance, and the places of
two leading digits do so for quotients that are too long.  Two cases get past both and are refused,
though an operand is the result: a sum with zero, and the remainder by a much higher divisor. -/
namespace DecimalConformance

namespace Decimal

variable {a b : Decimal} {precision : Nat}

/-- A decimal with so few digits that they alone never make a shift too long. -/
structure IsOrdinary (d : Decimal) : Prop where
  short : d.digits ≤ 100000
  fits : ExponentFits d.exponent

theorem IsOrdinary.neg (h : b.IsOrdinary) : b.neg.IsOrdinary :=
  ⟨by rw [digits_neg]; exact h.short, h.fits⟩

/-- Operands that would be brought to one exponent over too long a shift. -/
def Misaligned (operation : BinaryOp) (a b : Decimal) : Prop :=
  match operation with
  | .add | .subtract =>
    (a.coefficient = 0 ∨ b.coefficient = 0) ∧ maxShift < (a.exponent - b.exponent).natAbs
  | .remainder => a.coefficient ≠ 0 ∧ b.coefficient ≠ 0 ∧ maxShift < b.exponent - a.exponent
  | _ => False

theorem misaligned_neg_iff : Misaligned .add a b.neg ↔ Misaligned .subtract a b := by
  simp [Misaligned, neg]

/-! ## Sums -/

/-- Without a stand-in the digits of the lower addend reach up to those that count of the other. -/
private theorem near_of_not_distant (left : a.IsOrdinary) (right : b.IsOrdinary)
    (nonzero : a.coefficient ≠ 0) (nonzero' : b.coefficient ≠ 0) (positive : 0 < precision)
    (limited : precision ≤ 100000) (reached : ¬ Distant a b precision) :
    (a.exponent - b.exponent).natAbs ≤ maxShift := by
  obtain ⟨shortLeft, fitsLeft⟩ := left
  obtain ⟨shortRight, fitsRight⟩ := right
  have one := a.digits_pos
  have one' := b.digits_pos
  have reached : sumFloor (byPlace a b).1 precision ≤ (byPlace a b).2.adjusted := by
    by_contra below
    exact reached ⟨positive, nonzero, nonzero', not_le.mp below⟩
  unfold byPlace at reached
  split_ifs at reached with order <;>
    simp only [sumFloor, floorUnder, adjusted, saturate, ExponentFits, exponentMin, exponentMax, maxShift] at * <;>
    omega

/-- The stand-in lies as many places below as the precision asks for, and a few more. -/
private theorem near_standIn {big : Decimal} (small : Decimal) (ordinary : big.IsOrdinary)
    (limited : precision ≤ 100000) (above : sumFloor big precision < big.exponent) :
    (big.exponent - (standIn small (sumFloor big precision)).exponent).natAbs ≤ maxShift := by
  obtain ⟨short, fits⟩ := ordinary
  have one := big.digits_pos
  simp only [standIn, unitAt, sumFloor, floorUnder, adjusted, saturate, ExponentFits, exponentMin, exponentMax,
    maxShift] at *
  omega

/-- Only a zero keeps the stand-in from its place. -/
theorem exists_add_eq_ite (left : a.IsOrdinary) (right : b.IsOrdinary) (positive : 0 < precision)
    (limited : precision ≤ 100000) :
    ∃ result, a.add b precision =
      if (a.coefficient = 0 ∨ b.coefficient = 0) ∧ maxShift < (a.exponent - b.exponent).natAbs then
        .error .overflow
      else .ok result := by
  rw [add_eq]
  by_cases distant : Distant a b precision
  · have apart := apart_of_distant left.fits.1 right.fits.1 distant
    have ordinary : (byPlace a b).1.IsOrdinary := by
      rcases byPlace_eq_or a b with order | order <;> rw [order] <;> assumption
    have near := near_standIn (byPlace a b).2 ordinary limited apart.above
    have filled : ¬ ((a.coefficient = 0 ∨ b.coefficient = 0) ∧
        maxShift < (a.exponent - b.exponent).natAbs) := fun refused =>
      refused.1.elim distant.2.1 distant.2.2.1
    simp only [if_pos distant, addExact_eq_ite, if_neg (not_lt.mpr near), if_neg filled]
    exact ⟨_, rfl⟩
  · rw [if_neg distant, addExact_eq_ite]
    refine ⟨a.sum b, if_congr ?_ rfl rfl⟩
    refine ⟨fun far => ⟨?_, far⟩, And.right⟩
    by_contra filled
    obtain ⟨nonzero, nonzero'⟩ := not_or.mp filled
    exact absurd (near_of_not_distant left right nonzero nonzero' positive limited distant)
      (not_le.mpr far)

/-! ## Remainders -/

/-- A dividend high above the divisor is refused for its quotient, before it is aligned. -/
private theorem lt_adjusted_sub_of_far (left : a.IsOrdinary) (right : b.IsOrdinary)
    (limited : precision ≤ 100000) (far : maxShift < a.exponent - b.exponent) :
    precision < saturate (a.adjusted - b.adjusted) := by
  obtain ⟨shortLeft, fitsLeft⟩ := left
  obtain ⟨shortRight, fitsRight⟩ := right
  have one := a.digits_pos
  simp only [adjusted, saturate, ExponentFits, exponentMin, exponentMax, maxShift] at *
  omega

/-- A dividend that lies far below the divisor is aligned, whatever its digits. -/
private theorem remainder_of_far (left : a.IsOrdinary) (right : b.IsOrdinary)
    (dividend : a.coefficient ≠ 0) (divisor : b.coefficient ≠ 0)
    (far : maxShift < b.exponent - a.exponent) : a.remainder b precision = .error .overflow := by
  have low : min a.exponent b.exponent = a.exponent := by
    simp only [maxShift] at far
    omega
  have near : ¬ (0 < precision ∧ (precision : Int) < saturate (a.adjusted - b.adjusted)) := by
    obtain ⟨shortLeft, fitsLeft⟩ := left
    obtain ⟨shortRight, fitsRight⟩ := right
    have one := b.digits_pos
    simp only [adjusted, saturate, ExponentFits, exponentMin, exponentMax, maxShift] at *
    omega
  have refused : b.coefficientAt a.exponent = .error .overflow := by
    rw [coefficientAt, shiftFactor, if_pos (by omega)]
    rfl
  rw [remainder, remainderBy, if_neg (by simp [isZero, divisor]), if_neg (by simp [isZero, dividend]), pure_bind, pure_bind,
    if_neg near, low, ofExcept_self, ofExcept_self, refused, coefficientAt_eq (by simp)]
  rfl

theorem exists_remainder_eq_ite (left : a.IsOrdinary) (right : b.IsOrdinary)
    (positive : 0 < precision)
    (limited : precision ≤ 100000) (divisor : b.coefficient ≠ 0) :
    ∃ result, a.remainder b precision =
      if a.coefficient ≠ 0 ∧ maxShift < b.exponent - a.exponent then .error .overflow
      else if precision < digitCount (integralPart (a.value / b.value)).natAbs then
        .error .divisionImpossible
      else .ok result := by
  by_cases dividend : a.coefficient = 0
  · have whole : integralPart (a.value / b.value) = 0 := by
      rw [value_eq_zero_iff.mpr dividend, zero_div]
      simp [integralPart]
    have one : digitCount (0 : Int).natAbs = 1 := by decide
    refine ⟨⟨0, min a.exponent b.exponent⟩, ?_⟩
    rw [if_neg (fun refused => refused.1 dividend), whole, one, if_neg (by omega), remainder,
      remainderBy]
    simp [isZero, dividend, divisor]
  by_cases far : maxShift < b.exponent - a.exponent
  · exact ⟨one, by rw [if_pos ⟨dividend, far⟩, remainder_of_far left right dividend divisor far]⟩
  by_cases high : maxShift < a.exponent - b.exponent
  · have apart := lt_adjusted_sub_of_far left right limited high
    have long := lt_digits_of_lt_adjusted dividend divisor positive apart
    refine ⟨one, ?_⟩
    rw [if_neg (fun refused => far refused.2), if_pos long, remainder, remainderBy]
    simp [isZero, dividend, divisor, positive, apart]
  · refine ⟨leftOver a b, ?_⟩
    have near : ¬ (a.coefficient ≠ 0 ∧ (maxShift : Int) < b.exponent - a.exponent) :=
      fun refused => far refused.2
    rw [remainder_eq_ite divisor (by omega), if_neg near]
    simp [positive]

end Decimal

namespace Engine

open Decimal

variable {precision : Nat} {operation : BinaryOp} {a b : Decimal}

/-- At an ordinary precision a sum, a difference or a remainder of ordinary operands overflows exactly
where a zero is added over too long a shift, or where the divisor lies that far above the dividend.
Everything else has a value, but for the two reasons that a remainder is refused for. -/
theorem overflows_iff_misaligned (internal : Nat) (mode : RoundingMode)
    (listed : operation ∈ [.add, .subtract, .remainder]) (left : a.IsOrdinary)
    (right : b.IsOrdinary) (positive : 0 < precision) (limited : precision ≤ 100000) :
    let answer := (standard internal).binary operation a b ⟨precision, mode⟩
    (answer = .error .overflow ↔ Misaligned operation a b) ∧
      (¬ Misaligned operation a b → (∃ result, answer = .ok result) ∨
        operation = .remainder ∧
          (b.coefficient = 0 ∧ answer = .error (.invalidOperation "remainder by zero") ∨
            b.coefficient ≠ 0 ∧
              precision < digitCount (integralPart (a.value / b.value)).natAbs ∧
              answer = .error .divisionImpossible)) := by
  have added (addend : Decimal) (ordinary : addend.IsOrdinary) :
      ((a.add addend precision).map (finish · ⟨precision, mode⟩) = .error .overflow ↔
        Misaligned .add a addend) ∧
      (¬ Misaligned .add a addend →
        ∃ result, (a.add addend precision).map (finish · ⟨precision, mode⟩) = .ok result) := by
    obtain ⟨result, sum⟩ := exists_add_eq_ite left ordinary positive limited
    rw [sum, map_eq_error_iff, Misaligned]
    split_ifs with refused
    · exact ⟨iff_of_true rfl refused, fun near => absurd refused near⟩
    · exact ⟨iff_of_false not_false refused, fun _ => ⟨_, rfl⟩⟩
  dsimp only
  rw [standard_binary]
  cases operation with
  | add =>
    obtain ⟨overflows, otherwise⟩ := added b right
    exact ⟨overflows, fun near => .inl (otherwise near)⟩
  | subtract =>
    obtain ⟨overflows, otherwise⟩ := added b.neg right.neg
    rw [misaligned_neg_iff] at overflows otherwise
    exact ⟨overflows, fun near => .inl (otherwise near)⟩
  | remainder =>
    have answered : calculateBinary internal .remainder a b ⟨precision, mode⟩ =
        (a.remainder b precision).map (finish · ⟨precision, mode⟩) := rfl
    rw [answered, map_eq_error_iff, Misaligned]
    by_cases divisor : b.coefficient = 0
    · rw [remainder_of_divisor_eq_zero a precision divisor]
      exact ⟨iff_of_false (by simp) fun refused => refused.2.1 divisor,
        fun _ => .inr ⟨rfl, .inl ⟨divisor, rfl⟩⟩⟩
    · obtain ⟨result, remains⟩ := exists_remainder_eq_ite left right positive limited divisor
      rw [remains]
      split_ifs with refused long
      · exact ⟨iff_of_true rfl ⟨refused.1, divisor, refused.2⟩,
          fun near => absurd ⟨refused.1, divisor, refused.2⟩ near⟩
      · exact ⟨iff_of_false (by simp) fun far => refused ⟨far.1, far.2.2⟩,
          fun _ => .inr ⟨rfl, .inr ⟨divisor, long, rfl⟩⟩⟩
      · exact ⟨iff_of_false not_false fun far => refused ⟨far.1, far.2.2⟩,
          fun _ => .inl ⟨_, rfl⟩⟩
  | _ => simp at listed

/-- An addend that lies beyond every place that counts is no hindrance, and a zero is. -/
theorem overflows_iff_misaligned_apart :
    (⟨1, 0⟩ : Decimal).IsOrdinary ∧ (⟨1, 999999999⟩ : Decimal).IsOrdinary ∧
      (⟨0, 999999999⟩ : Decimal).IsOrdinary ∧ 0 < 9 ∧ 9 ≤ 100000 ∧
      (∃ result, (standard 34).binary .add ⟨1, 999999999⟩ ⟨1, 0⟩ ⟨9, .nearestEven⟩ = .ok result) ∧
      (standard 34).binary .subtract ⟨1, 0⟩ ⟨0, 999999999⟩ ⟨9, .nearestEven⟩ = .error .overflow := by
  have unit : (⟨1, 0⟩ : Decimal).IsOrdinary := ⟨by decide, by decide⟩
  have high : (⟨1, 999999999⟩ : Decimal).IsOrdinary := ⟨by decide, by decide⟩
  have zero : (⟨0, 999999999⟩ : Decimal).IsOrdinary := ⟨by decide, by decide⟩
  have positive : 0 < 9 := by decide
  have limited : 9 ≤ 100000 := by decide
  obtain ⟨-, otherwise⟩ := overflows_iff_misaligned 34 .nearestEven
    (by simp : BinaryOp.add ∈ _) high unit positive limited
  obtain ⟨overflows, -⟩ := overflows_iff_misaligned 34 .nearestEven
    (by simp : BinaryOp.subtract ∈ _) unit zero positive limited
  have near : ¬ Misaligned .add ⟨1, 999999999⟩ ⟨1, 0⟩ := by simp [Misaligned]
  have far : Misaligned .subtract ⟨1, 0⟩ ⟨0, 999999999⟩ := by simp [Misaligned, maxShift]
  exact ⟨unit, high, zero, positive, limited, (otherwise near).resolve_right (by simp),
    overflows.mpr far⟩

/-- One and zero overflow, and so does the remainder of one by a divisor that it does not reach. -/
theorem units_overflow :
    (standard 34).binary .add ⟨0, 1000001⟩ ⟨1, 0⟩ ⟨9, .nearestEven⟩ = .error .overflow ∧
      (standard 34).binary .remainder ⟨1, 0⟩ ⟨1, 1000001⟩ ⟨9, .nearestEven⟩ = .error .overflow := by
  decide

end Engine
end DecimalConformance
