import DecimalConformance.Proofs.Decimal.RoundedSum

/-! Laws of addition.
Rounding cannot tell a sum from the exact one, whatever stands in for a distant addend.  Addends may
be exchanged, refusals included, and a number less itself leaves nothing. -/
namespace DecimalConformance

namespace Decimal

variable {a b x : Decimal} {precision : Nat}

theorem addExact_comm (a b : Decimal) : addExact a b = addExact b a := by
  rw [addExact_eq_ite, addExact_eq_ite, sum_comm, ← Int.natAbs_neg (a.exponent - b.exponent),
    Int.neg_sub]

/-! ## Exchanged addends -/

theorem sumFloor_le_adjusted_self {big : Decimal} (precision : Nat)
    (least : exponentMin ≤ big.exponent) : sumFloor big precision ≤ big.adjusted := by
  have one := big.digits_pos
  simp only [sumFloor, floorUnder, adjusted, saturate, exponentMin, exponentMax] at *
  omega

/-- Addends whose leading digits have one place are both added as they are. -/
theorem not_distant_of_adjusted_eq (leastLeft : exponentMin ≤ a.exponent)
    (leastRight : exponentMin ≤ b.exponent) (same : a.adjusted = b.adjusted) :
    ¬ Distant a b precision := by
  rintro ⟨-, -, -, below⟩
  have left := sumFloor_le_adjusted_self precision leastLeft
  have right := sumFloor_le_adjusted_self precision leastRight
  rcases byPlace_eq_or a b with order | order <;> rw [order] at below <;> dsimp only at below <;>
    omega

theorem byPlace_comm (apart : a.adjusted ≠ b.adjusted) : byPlace a b = byPlace b a := by
  rcases lt_or_gt_of_ne apart with less | more
  · rw [byPlace, byPlace, if_neg (not_le.mpr less), if_pos less.le]
  · rw [byPlace, byPlace, if_pos more.le, if_neg (not_le.mpr more)]

protected theorem add_comm (leastLeft : exponentMin ≤ a.exponent)
    (leastRight : exponentMin ≤ b.exponent) (precision : Nat) :
    a.add b precision = b.add a precision := by
  rw [add_eq, add_eq]
  by_cases same : a.adjusted = b.adjusted
  · rw [if_neg (not_distant_of_adjusted_eq leastLeft leastRight same),
      if_neg (not_distant_of_adjusted_eq leastRight leastLeft same.symm), addExact_comm]
  · have order := byPlace_comm same
    have distant : Distant a b precision ↔ Distant b a precision := by
      simp only [Distant, order]
      tauto
    simp only [distant, order, addExact_comm a b]

/-- The stand-in lies no lower than the addend that it replaces. -/
theorem exists_add_of_near (leastLeft : exponentMin ≤ a.exponent)
    (leastRight : exponentMin ≤ b.exponent)
    (near : (a.exponent - b.exponent).natAbs ≤ maxShift) (precision : Nat) :
    ∃ result, a.add b precision = .ok result := by
  rw [add_eq]
  split_ifs with distant
  · obtain ⟨-, -, below, above, -⟩ := apart_of_distant leastLeft leastRight distant
    have one := (byPlace a b).2.digits_pos
    have gap : ((byPlace a b).1.exponent - (byPlace a b).2.exponent).natAbs =
        (a.exponent - b.exponent).natAbs := by
      rcases byPlace_eq_or a b with order | order <;> rw [order]
      rw [← Int.natAbs_neg, Int.neg_sub]
    rw [addExact_eq_ite, if_neg]
    · exact ⟨_, rfl⟩
    · simp only [standIn, unitAt]
      omega
  · rw [addExact_eq_ite, if_neg (not_lt.mpr near)]
    exact ⟨_, rfl⟩

/-! ## A number less itself -/

theorem sum_neg_self (x : Decimal) : x.sum x.neg = ⟨0, x.exponent⟩ := by
  simp [sum, shifted, neg]

theorem add_neg_self (least : exponentMin ≤ x.exponent) (precision : Nat) :
    x.add x.neg precision = .ok ⟨0, x.exponent⟩ := by
  have same : x.adjusted = x.neg.adjusted := by
    rw [adjusted, adjusted, digits_neg]
    rfl
  have near : ¬ maxShift < (x.exponent - x.neg.exponent).natAbs := by simp [neg]
  have noGap : ¬ Distant x x.neg precision := not_distant_of_adjusted_eq least least same
  rw [add_eq, if_neg noGap, addExact_eq_ite, if_neg near, sum_neg_self]

theorem isExactResult_sum (a b : Decimal) : IsExactResult .add a b (a.sum b) :=
  ⟨value_sum a b, rfl⟩

end Decimal

namespace Engine

open Decimal

variable {a b : Decimal}

/-- Rounding gives of a sum what it gives of the exact one, and without a limit that is the sum
itself; only exponents too far apart are refused.  So addends may be exchanged, and a number less
itself is zero. -/
theorem add_rounds_as_exact (leastLeft : exponentMin ≤ a.exponent)
    (leastRight : exponentMin ≤ b.exponent) :
    IsExactResult .add a b (a.sum b) ∧
    (∀ (precision : Nat) (result : Decimal), a.add b precision = .ok result →
      (∀ mode, result.round precision mode = (a.sum b).round precision mode) ∧
        (precision = 0 → result = a.sum b)) ∧
    (∀ precision, (a.exponent - b.exponent).natAbs ≤ maxShift →
      ∃ result, a.add b precision = .ok result) ∧
    (∀ (internal : Nat) (context : Context), (standard internal).binary .add a b context =
      (standard internal).binary .add b a context) ∧
    ∀ (internal : Nat) (context : Context), (standard internal).binary .subtract a a context =
      .ok (⟨0, a.exponent⟩ : Decimal).stored := by
  refine ⟨isExactResult_sum a b, fun precision result added => ?_, fun precision near => ?_,
    fun internal context => ?_, fun internal context => ?_⟩
  · rcases Nat.eq_zero_or_pos precision with rfl | positive
    · have unlimited : ¬ Distant a b 0 := fun distant => absurd distant.1 (lt_irrefl 0)
      rw [add_eq, if_neg unlimited] at added
      obtain rfl := eq_sum_of_addExact added
      exact ⟨fun mode => rfl, fun _ => rfl⟩
    · refine ⟨fun mode => ?_, fun none => absurd none positive.ne'⟩
      exact round_of_add mode leastLeft leastRight positive le_rfl added
  · exact exists_add_of_near leastLeft leastRight near precision
  · show (a.add b context.precision).map _ = (b.add a context.precision).map _
    rw [Decimal.add_comm leastLeft leastRight context.precision]
  · show (a.add a.neg context.precision).map _ = _
    rw [add_neg_self leastLeft]
    show Except.ok (finish ⟨0, a.exponent⟩ context) = _
    rw [finish, round_of_coefficient_eq_zero context.precision context.rounding rfl]

/-- A borrow shortens a power of ten, and the digits below it are rounded to the same ones. -/
theorem add_rounds_as_exact_borrow :
    exponentMin ≤ (⟨1, 0⟩ : Decimal).exponent ∧ exponentMin ≤ (⟨-7, -50⟩ : Decimal).exponent ∧
      (⟨1, 0⟩ : Decimal).add ⟨-7, -50⟩ 9 = .ok ⟨99999999999, -11⟩ ∧
      ((⟨1, 0⟩ : Decimal).sum ⟨-7, -50⟩).round 9 .towardZero = ⟨999999999, -9⟩ := by
  have leastLeft : exponentMin ≤ (⟨1, 0⟩ : Decimal).exponent := by decide
  have leastRight : exponentMin ≤ (⟨-7, -50⟩ : Decimal).exponent := by decide
  have added : (⟨1, 0⟩ : Decimal).add ⟨-7, -50⟩ 9 = .ok ⟨99999999999, -11⟩ := by decide
  obtain ⟨-, rounds, -⟩ := add_rounds_as_exact leastLeft leastRight
  obtain ⟨same, -⟩ := rounds 9 _ added
  refine ⟨leastLeft, leastRight, added, ?_⟩
  rw [← same .towardZero]
  decide

end Engine
end DecimalConformance
