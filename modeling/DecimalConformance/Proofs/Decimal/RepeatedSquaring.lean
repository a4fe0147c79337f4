import DecimalConformance.Proofs.Decimal.Exhaustion
import DecimalConformance.Proofs.Decimal.RepeatedRounding
import DecimalConformance.Proofs.Decimal.RoundedProduct
import DecimalConformance.Proofs.Decimal.ShortPowers

/-! Powers by repeated squaring.
Accumulator and base are products of the number to be raised, and what is true of products whichever way
they are worked out is true of the result: that it is exact as long as nothing is cut off, and how many
roundings it is away from the power.  Only powers so large that all exponents are positive pass the
largest one, and they do not come back. -/
namespace DecimalConformance.Decimal

variable {working total : Nat} {x r : Decimal}

/-- A turn: the accumulator takes the base if the last binary digit says so, and unless there are no
more digits the base is squared. -/
theorem turn_of_raise {acc base : Decimal} {n : Nat} (h : raise working acc base n = .ok r) :
    ∃ acc', (if n % 2 = 1 then roundedProduct acc base working = .ok acc' else acc' = acc) ∧
      if n / 2 = 0 then acc' = r
      else ∃ base', roundedProduct base base working = .ok base' ∧
        raise working acc' base' (n / 2) = .ok r := by
  have rest {acc' : Decimal}
      (h : (if n / 2 = 0 then pure acc'
        else do raise working acc' (← roundedProduct base base working) (n / 2)) = Except.ok r) :
      if n / 2 = 0 then acc' = r
      else ∃ base', roundedProduct base base working = .ok base' ∧
        raise working acc' base' (n / 2) = .ok r := by
    split_ifs at h ⊢
    · exact Except.ok.inj h
    · exact exists_of_bind_eq_ok h
  rw [raise] at h
  by_cases odd : n % 2 = 1
  · rw [if_pos odd] at h
    obtain ⟨acc', taken, h⟩ := exists_of_bind_eq_ok h
    exact ⟨acc', by rwa [if_pos odd], rest h⟩
  · rw [if_neg odd] at h
    exact ⟨acc, by rw [if_neg odd], rest h⟩

/-- What each turn keeps, counting the factors in accumulator and base, is true of the result.  The
accumulator has fewer of them. -/
theorem raise_induction {P Q : Nat → Decimal → Prop}
    (times : ∀ {i j : Nat} {acc base product : Decimal}, i < j → i + j ≤ total → P i acc → Q j base →
      roundedProduct acc base working = .ok product → P (i + j) product)
    (square : ∀ {j : Nat} {base product : Decimal}, j + j ≤ total → Q j base →
      roundedProduct base base working = .ok product → Q (j + j) product)
    {i j n : Nat} {acc base : Decimal} (positive : 0 < n) (fewer : i < j) (all : i + j * n = total)
    (start : P i acc) (start' : Q j base) (computed : raise working acc base n = .ok r) :
    P total r := by
  induction n using Nat.strongRecOn generalizing i j acc base with
  | ind n ih =>
    obtain ⟨acc', first, rest⟩ := turn_of_raise computed
    have halves := Nat.div_add_mod n 2
    -- The factors behind the update of the accumulator, and those that are left for the base.
    obtain ⟨i', more, all', kept⟩ : ∃ i', i' < j + j ∧ i' + (j + j) * (n / 2) = total ∧ P i' acc' := by
      rcases Nat.mod_two_eq_zero_or_one n with even | odd
      · rw [even, if_neg (by omega)] at first
        subst first
        refine ⟨i, by omega, ?_, start⟩
        rw [← all]
        conv_rhs => rw [← halves, even]
        ring
      · rw [odd, if_pos rfl] at first
        have whole : i + j + (j + j) * (n / 2) = total := by
          rw [← all]
          conv_rhs => rw [← halves, odd]
          ring
        have within : i + j ≤ total := by
          rw [← whole]
          exact Nat.le_add_right _ _
        exact ⟨i + j, by omega, whole, times fewer within start start' first⟩
    by_cases last : n / 2 = 0
    · rw [last, if_pos rfl] at rest
      rw [last, Nat.mul_zero, Nat.add_zero] at all'
      rwa [← rest, ← all']
    · rw [if_neg last] at rest
      obtain ⟨base', squared, rest⟩ := rest
      have within : j + j ≤ total := by
        rw [← all']
        exact (Nat.le_mul_of_pos_right _ (Nat.pos_of_ne_zero last)).trans (Nat.le_add_left _ _)
      exact ih (n / 2) (by omega) (Nat.pos_of_ne_zero last) more all' kept
        (square within start' squared) rest

/-- `d` is a product of so many factors `x`, worked out with so many roundings. -/
inductive IsRoundedPower (working : Nat) (x : Decimal) : (factors roundings : Nat) → Decimal → Prop
  | one : IsRoundedPower working x 0 0 one
  | base : IsRoundedPower working x 1 0 x
  | product {i j k l : Nat} {a b : Decimal} : IsRoundedPower working x i k a →
      IsRoundedPower working x j l b →
        IsRoundedPower working x (i + j) (k + l + 1) (freeProduct working a b)

namespace IsRoundedPower

variable {factors roundings : Nat} {d : Decimal}

theorem ne_zero (h : IsRoundedPower working x factors roundings d) (nonzero : x.coefficient ≠ 0) :
    d.coefficient ≠ 0 := by
  induction h with
  | one => decide
  | base => exact nonzero
  | product _ _ left right => exact roundFreely_ne_zero (product_ne_zero left right) _ _

/-- The roundings are all that keeps it away from the power. -/
theorem isNear (h : IsRoundedPower working x factors roundings d) (filled : 0 < working)
    (nonzero : x.coefficient ≠ 0) : IsNear working roundings (x.value ^ factors) d.value := by
  induction h with
  | one =>
    rw [value_one, pow_zero]
    exact .refl one_ne_zero
  | base =>
    rw [pow_one]
    exact .refl (value_eq_zero_iff.ne.mpr nonzero)
  | @product i j k l a b left right leftNear rightNear =>
    have both := leftNear.mul filled rightNear
    rw [← pow_add, ← value_product] at both
    have rounded := (a.product b).roundsTo_roundFreely working .nearestEven
    exact both.trans filled (.of_abs_sub_le filled both.ne_zero (rounded.abs_sub_le filled))

/-- Nothing is lost if the power is short. -/
theorem value_eq (h : IsRoundedPower working x factors roundings d)
    (nonzero : x.coefficient ≠ 0) (short : IsShort working (x.value ^ factors)) :
    d.value = x.value ^ factors := by
  induction h with
  | one => rw [value_one, pow_zero]
  | base => rw [pow_one]
  | @product i j k l a b left right leftEq rightEq =>
    have exact : (a.product b).value = x.value ^ (i + j) := by
      rw [value_product, leftEq (short.of_pow_le nonzero (Nat.le_add_right i j)),
        rightEq (short.of_pow_le nonzero (Nat.le_add_left j i)), pow_add]
    rw [← exact] at short
    exact (short.value_roundFreely .nearestEven).trans exact

/-! ## Exponents -/

/-- The leading digit rises with each factor, and hardly more with each rounding. -/
theorem lead_bounds (h : IsRoundedPower working x factors roundings d) (filled : 0 < working)
    (nonzero : x.coefficient ≠ 0) :
    factors * x.lead ≤ d.lead ∧ d.lead ≤ factors * x.lead + 2 * roundings := by
  induction h with
  | one =>
    have single : Decimal.one.lead = 0 := by decide
    simp [single]
  | base => simp
  | @product i j k l a b left right leftBounds rightBounds =>
    have bounds := lead_freeProduct filled (left.ne_zero nonzero) (right.ne_zero nonzero)
    push_cast
    rw [add_mul]
    omega

theorem eq_one (h : IsRoundedPower working x factors roundings d) (filled : 0 < working)
    (none : factors = 0) : d = Decimal.one := by
  induction h with
  | one => rfl
  | base => cases none
  | @product i j k l a b left right leftOne rightOne =>
    have square : Decimal.one.product Decimal.one = Decimal.one := by decide
    rw [leftOne (by omega), rightOne (by omega), freeProduct, square, roundFreely,
      if_pos (.inr (digits_one.trans_le filled))]

/-- A power beyond the largest exponent is one of a large number. -/
theorem large_of_above (h : IsRoundedPower working x factors roundings d) (filled : 0 < working)
    (nonzero : x.coefficient ≠ 0) (few : roundings ≤ factors) (small : factors ≤ maxIntegralPower)
    (above : exponentMax < d.exponent) : (precisionMax : Int) ≤ x.lead := by
  by_contra less
  have most := (h.lead_bounds filled nonzero).2
  have top := d.exponent_le_lead
  have product : (factors : Int) * x.lead ≤ factors * precisionMax :=
    Int.mul_le_mul_of_nonneg_left (by omega) (by omega)
  simp only [exponentMax, precisionMax, maxIntegralPower] at *
  omega

/-- Powers of a large number have exponents that are not negative. -/
theorem exponent_nonneg (h : IsRoundedPower working x factors roundings d) (filled : 0 < working)
    (nonzero : x.coefficient ≠ 0) (large : (precisionMax : Int) ≤ x.lead)
    (limited : working ≤ precisionMax) (short : d.digits ≤ working) : 0 ≤ d.exponent := by
  rcases Nat.eq_zero_or_pos factors with none | some
  · rw [h.eq_one filled none]
    decide
  · have least := (h.lead_bounds filled nonzero).1
    have product : 1 * x.lead ≤ factors * x.lead :=
      Int.mul_le_mul_of_nonneg_right (by omega) (by omega)
    have place : d.lead = d.exponent + d.digits - 1 := rfl
    omega

end IsRoundedPower

/-! ## The run -/

/-- What the accumulator is, but for an exponent that is held back. -/
def IsAccumulated (working : Nat) (x : Decimal) (factors : Nat) (acc : Decimal) : Prop :=
  ∃ d roundings, acc = d.capped ∧ IsRoundedPower working x factors roundings d ∧
    roundings ≤ factors ∧ d.digits ≤ working ∧ exponentMin ≤ acc.exponent

/-- What the base is: the number itself first, and short then. -/
def IsSquared (working : Nat) (x : Decimal) (factors : Nat) (base : Decimal) : Prop :=
  ∃ d roundings, base = d.capped ∧ IsRoundedPower working x factors roundings d ∧
    roundings < factors ∧ (d.digits ≤ working ∨ factors = 1 ∧ d = x)

section Run

variable (filled : 0 < working) (limited : working ≤ precisionMax) (nonzero : x.coefficient ≠ 0)
  (most : x.exponent ≤ exponentMax) (small : total ≤ maxIntegralPower)

include filled

private theorem isSquared_square {j : Nat} {base product : Decimal}
    (right : IsSquared working x j base) (computed : roundedProduct base base working = .ok product) :
    IsSquared working x (j + j) product := by
  obtain ⟨b, l, rfl, power, few, -⟩ := right
  obtain ⟨-, rfl⟩ := eq_capped_of_roundedProduct filled computed
  have top : 0 ≤ exponentMax := by decide
  exact ⟨freeProduct working b b, l + l + 1,
    capped_freeProduct working (by omega) (by omega),
    power.product power, by omega, .inl (digits_freeProduct_le filled b b)⟩

include limited nonzero small

private theorem isAccumulated_times {i j : Nat} {acc base product : Decimal} (fewer : i < j)
    (within : i + j ≤ total) (left : IsAccumulated working x i acc)
    (right : IsSquared working x j base) (computed : roundedProduct acc base working = .ok product) :
    IsAccumulated working x (i + j) product := by
  obtain ⟨a, k, rfl, power, few, short, -⟩ := left
  obtain ⟨b, l, rfl, power', few', short'⟩ := right
  have least := exponentMin_le_roundedProduct computed
  obtain ⟨-, rfl⟩ := eq_capped_of_roundedProduct filled computed
  refine ⟨freeProduct working a b, k + l + 1, capped_freeProduct working ?_ ?_, power.product power',
    by omega, digits_freeProduct_le filled a b, least⟩
  · intro above
    have large := power.large_of_above filled nonzero few (by omega) above
    rcases short' with short' | ⟨rfl, rfl⟩
    · exact power'.exponent_nonneg filled nonzero large limited short'
    · -- The first factor is taken into a product without any.
      rw [power.eq_one filled (by omega)] at above
      exact absurd above (by decide)
  · intro above
    have large := power'.large_of_above filled nonzero few'.le (by omega) above
    exact power.exponent_nonneg filled nonzero large limited short

include most

/-- Raising gives a power that was worked out with no more roundings than it has factors. -/
theorem isAccumulated_raise (positive : 0 < total)
    (computed : raise working one x total = .ok r) : IsAccumulated working x total r := by
  refine raise_induction
    (fun fewer within => isAccumulated_times filled limited nonzero small fewer within)
    (fun _ => isSquared_square filled) positive Nat.zero_lt_one (by omega)
    ⟨one, 0, (capped_eq_self (by decide)).symm, .one, le_rfl, digits_one.trans_le filled, by decide⟩
    ?_ computed
  exact ⟨x, 0, (capped_eq_self most).symm, .base, Nat.zero_lt_one, .inr ⟨rfl, rfl⟩⟩

end Run
end DecimalConformance.Decimal
