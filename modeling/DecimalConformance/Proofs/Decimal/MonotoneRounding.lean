import DecimalConformance.Proofs.Decimal.CorrectRounding

/-! The order of rounded decimals.
Inside the range of exponents rounding sees the number alone, so zeros behind a coefficient do not
count, and a decimal that is shortened stays in order with one that is left as it is. -/
namespace DecimalConformance

namespace Decimal

variable {a b d : Decimal} {precision : Nat} {mode : RoundingMode}

/-- No exponent has to be held back while the decimal is rounded. -/
def RoundsInside (d : Decimal) (precision : Nat) (mode : RoundingMode) : Prop :=
  exponentMin ≤ d.exponent ∧ (d.roundFreely precision mode).exponent ≤ exponentMax

instance : Decidable (d.RoundsInside precision mode) :=
  inferInstanceAs (Decidable (_ ∧ _))

theorem round_eq_roundFreely (inside : d.RoundsInside precision mode) :
    d.round precision mode = d.roundFreely precision mode := by
  by_cases whole : precision = 0 ∨ d.digits ≤ precision
  · rw [round, roundFreely, if_pos whole, if_pos whole]
  · rw [round_eq_capped_of_lt mode (by omega) (by omega) inside.1, capped_eq_self inside.2]

theorem round_neg (d : Decimal) (precision : Nat) (mode : RoundingMode) :
    d.neg.round precision mode = (d.round precision mode).neg := by
  have size : d.neg.coefficient.natAbs = d.coefficient.natAbs := Int.natAbs_neg _
  have sign : d.neg.coefficient.sign = -d.coefficient.sign := Int.sign_neg _
  unfold round
  simp only [digits_neg, size, sign, Int.neg_mul]
  split_ifs <;> rfl

/-- Rounding keeps the order of values, takes the decimals of one value to one value, and does below zero
what it does above. -/
theorem round_is_monotone (left : a.RoundsInside precision mode)
    (right : b.RoundsInside precision mode) :
    (a.value ≤ b.value → (a.round precision mode).value ≤ (b.round precision mode).value) ∧
      (a.value = b.value → (a.round precision mode).value = (b.round precision mode).value) ∧
      a.neg.round precision mode = (a.round precision mode).neg := by
  have rounded := a.roundsTo_roundFreely precision mode
  have rounded' := b.roundsTo_roundFreely precision mode
  rw [round_eq_roundFreely left, round_eq_roundFreely right]
  refine ⟨rounded.mono rounded', fun same => ?_, ?_⟩
  · exact RoundsTo.unique (same ▸ rounded) rounded'
  · rw [round_neg, round_eq_roundFreely left]

/-- A tie carries as it does with one more zero behind it, to a value that is short enough already. -/
theorem round_is_monotone_carry :
    (⟨9995, -1⟩ : Decimal).RoundsInside 3 .nearestEven ∧
      (⟨99950, -2⟩ : Decimal).RoundsInside 3 .nearestEven ∧
      (⟨1, 3⟩ : Decimal).RoundsInside 3 .nearestEven ∧
      (⟨9995, -1⟩ : Decimal).value = (⟨99950, -2⟩ : Decimal).value ∧
      (⟨9995, -1⟩ : Decimal).round 3 .nearestEven = ⟨100, 1⟩ ∧
      ((⟨9995, -1⟩ : Decimal).round 3 .nearestEven).value =
        ((⟨99950, -2⟩ : Decimal).round 3 .nearestEven).value ∧
      (⟨9995, -1⟩ : Decimal).value ≤ (⟨1, 3⟩ : Decimal).value ∧
      ((⟨9995, -1⟩ : Decimal).round 3 .nearestEven).value ≤
        ((⟨1, 3⟩ : Decimal).round 3 .nearestEven).value ∧
      (⟨-9995, -1⟩ : Decimal).round 3 .nearestEven = ⟨-100, 1⟩ := by
  have tie : (⟨9995, -1⟩ : Decimal).RoundsInside 3 .nearestEven := by decide
  have longer : (⟨99950, -2⟩ : Decimal).RoundsInside 3 .nearestEven := by decide
  have short : (⟨1, 3⟩ : Decimal).RoundsInside 3 .nearestEven := by decide
  have carried : (⟨9995, -1⟩ : Decimal).round 3 .nearestEven = ⟨100, 1⟩ := by decide
  have same : (⟨9995, -1⟩ : Decimal).value = (⟨99950, -2⟩ : Decimal).value := by norm_num [value]
  have below : (⟨9995, -1⟩ : Decimal).value ≤ (⟨1, 3⟩ : Decimal).value := by norm_num [value]
  obtain ⟨-, blind, negated⟩ := round_is_monotone tie longer
  exact ⟨tie, longer, short, same, carried, blind same, below, (round_is_monotone tie short).1 below,
    negated.trans (by rw [carried]; rfl)⟩

end Decimal
end DecimalConformance
