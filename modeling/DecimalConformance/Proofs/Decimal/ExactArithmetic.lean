import DecimalConformance.Engine.Standard
import DecimalConformance.Proofs.Decimal.DigitCount
import DecimalConformance.Proofs.Decimal.Storage
import Mathlib.Algebra.Field.Rat
import Mathlib.Tactic.NormNum
import Mathlib.Tactic.Ring

/-! Sums, differences and products that need no rounding.
Where the exact sum fits the precision, no addend lies so far below the other one that a stand-in
would take its place: the gap between them alone is longer than the precision. -/
namespace DecimalConformance.Decimal

/-- The number that a decimal denotes. -/
def value (d : Decimal) : ℚ := d.coefficient * 10 ^ d.exponent

theorem value_eq_zero_iff {d : Decimal} : d.value = 0 ↔ d.coefficient = 0 := by
  rw [value, mul_eq_zero_iff_right (zpow_ne_zero _ (by norm_num)), Int.cast_eq_zero]

theorem value_one : one.value = 1 := by
  simp [value, one]

def product (a b : Decimal) : Decimal := ⟨a.coefficient * b.coefficient, a.exponent + b.exponent⟩

theorem value_product (a b : Decimal) : (a.product b).value = a.value * b.value := by
  rw [value, value, value, product, zpow_add₀ (by norm_num)]
  push_cast
  ring

/-- The exact result of an operation, at the exponent that the operands determine. -/
def IsExactResult (operation : BinaryOp) (x y z : Decimal) : Prop :=
  match operation with
  | .add => z.value = x.value + y.value ∧ z.exponent = min x.exponent y.exponent
  | .subtract => z.value = x.value - y.value ∧ z.exponent = min x.exponent y.exponent
  | .multiply => z.value = x.value * y.value ∧ z.exponent = x.exponent + y.exponent
  | _ => False

/-- The coefficient of a decimal brought to a lower exponent. -/
def shifted (d : Decimal) (low : Int) : Int := d.coefficient * 10 ^ (d.exponent - low).toNat

theorem value_eq_shifted {d : Decimal} {low : Int} (h : low ≤ d.exponent) :
    d.value = d.shifted low * 10 ^ low := by
  have split : d.exponent = (d.exponent - low).toNat + low := by omega
  have power : (10 : ℚ) ^ d.exponent = 10 ^ (d.exponent - low).toNat * 10 ^ low := by
    conv_lhs => rw [split]
    rw [zpow_add₀ (by norm_num), zpow_natCast]
  rw [value, power, shifted]
  push_cast
  ring

theorem coefficient_eq_of_value_eq {z : Decimal} {coefficient : Int}
    (h : z.value = coefficient * 10 ^ z.exponent) : z.coefficient = coefficient := by
  have unit : (10 : ℚ) ^ z.exponent ≠ 0 := zpow_ne_zero _ (by norm_num)
  rw [value] at h
  exact_mod_cast mul_right_cancel₀ unit h

/-- The coefficient of an exact sum. -/
theorem coefficient_of_exact_add {x y z : Decimal} (h : IsExactResult .add x y z) :
    z.coefficient = x.shifted z.exponent + y.shifted z.exponent := by
  obtain ⟨sum, low⟩ := h
  refine coefficient_eq_of_value_eq ?_
  have left : z.exponent ≤ x.exponent := by omega
  have right : z.exponent ≤ y.exponent := by omega
  rw [sum, value_eq_shifted left, value_eq_shifted right]
  push_cast
  ring

theorem coefficient_of_exact_multiply {x y z : Decimal} (h : IsExactResult .multiply x y z) :
    z.coefficient = x.coefficient * y.coefficient := by
  obtain ⟨product, exponent⟩ := h
  refine coefficient_eq_of_value_eq ?_
  rw [product, exponent, zpow_add₀ (by norm_num), value, value]
  push_cast
  ring

/-- A difference is a sum with the negated subtrahend. -/
theorem isExactResult_add_neg {x y z : Decimal} (h : IsExactResult .subtract x y z) :
    IsExactResult .add x y.neg z := by
  obtain ⟨difference, exponent⟩ := h
  refine ⟨?_, exponent⟩
  rw [difference, value, value, value, neg]
  push_cast
  ring

@[simp] theorem digits_neg (d : Decimal) : d.neg.digits = d.digits := by
  rw [digits, neg, Int.natAbs_neg, digits]

/-- An exponent so far from the ends of the range that sums with a few others stay inside. -/
def IsModest (e : Int) : Prop := -1000000000000 ≤ e ∧ e ≤ 1000000000000

instance (e : Int) : Decidable (IsModest e) :=
  inferInstanceAs (Decidable (-1000000000000 ≤ e ∧ e ≤ 1000000000000))

/-- The place of the leading digit, where nothing saturates. -/
private theorem adjusted_eq {d : Decimal} (modest : IsModest d.exponent)
    (short : d.digits ≤ precisionMax) : d.adjusted = d.exponent + d.digits - 1 := by
  obtain ⟨lower, upper⟩ := modest
  simp only [adjusted, saturate, exponentMin, exponentMax, precisionMax] at *
  omega

theorem natAbs_shifted (d : Decimal) (low : Int) :
    (d.shifted low).natAbs = d.coefficient.natAbs * 10 ^ (d.exponent - low).toNat := by
  rw [shifted, Int.natAbs_mul, Int.natAbs_pow]
  rfl

@[simp] theorem shifted_eq_zero_iff {d : Decimal} {low : Int} :
    d.shifted low = 0 ↔ d.coefficient = 0 := by
  rw [shifted, mul_eq_zero_iff_right (pow_ne_zero _ (by norm_num))]

/-- A coefficient has so many more digits at a lower exponent. -/
theorem digitCount_shifted {d : Decimal} (nonzero : d.coefficient ≠ 0) (low : Int) :
    digitCount (d.shifted low).natAbs = d.digits + (d.exponent - low).toNat := by
  have count := digitCount_mul_pow_add (Int.natAbs_pos.mpr nonzero)
    (Nat.pow_pos (by omega) : 0 < 10 ^ (d.exponent - low).toNat)
  rwa [Nat.add_zero, ← natAbs_shifted] at count

theorem pow_le_natAbs_shifted {d : Decimal} (nonzero : d.coefficient ≠ 0) (low : Int) :
    10 ^ (d.digits + (d.exponent - low).toNat - 1) ≤ (d.shifted low).natAbs := by
  rw [← digitCount_shifted nonzero]
  exact pow_digitCount_sub_le (Int.natAbs_pos.mpr (shifted_eq_zero_iff.not.mpr nonzero))

theorem natAbs_shifted_lt (d : Decimal) (low : Int) :
    (d.shifted low).natAbs < 10 ^ (d.digits + (d.exponent - low).toNat) := by
  rw [natAbs_shifted, Nat.pow_add]
  exact Nat.mul_lt_mul_of_pos_right (lt_pow_digitCount _) (Nat.pow_pos (by omega))

/-- An addend that lies `width` places below the leading digit of the other one, and more, leaves
the sum with more than `width` digits. -/
private theorem lt_digitCount_add {big small : Int} {lead width : Nat}
    (hb : 10 ^ lead ≤ big.natAbs) (hs : small.natAbs < 10 ^ (lead - 1 - width))
    (gap : width < lead) (positive : 0 < width) : width < digitCount (big + small).natAbs := by
  rw [lt_digitCount_iff positive]
  obtain ⟨below, rfl⟩ : ∃ below, lead = below + 1 := ⟨lead - 1, by omega⟩
  have least : 10 ^ width ≤ 10 ^ below := Nat.pow_le_pow_right (by omega) (by omega)
  have most : 10 ^ (below + 1 - 1 - width) ≤ 10 ^ below :=
    Nat.pow_le_pow_right (by omega) (by omega)
  rw [Nat.pow_succ] at hb
  omega

/-- The place below which a rounded sum with `big` looks at nothing. -/
def sumFloor (big : Decimal) (precision : Nat) : Int := floorUnder big big.adjusted precision

/-- An addend of a sum that fits the precision is not replaced by a stand-in. -/
private theorem sumFloor_le_adjusted {big small : Decimal} {precision : Nat}
    (hb : big.coefficient ≠ 0) (modestBig : IsModest big.exponent)
    (modestSmall : IsModest small.exponent) (shortBig : big.digits ≤ precisionMax)
    (shortSmall : small.digits ≤ precisionMax) (positive : 0 < precision)
    (fits : digitCount (big.shifted (min big.exponent small.exponent) +
      small.shifted (min big.exponent small.exponent)).natAbs ≤ precision) :
    sumFloor big precision ≤ small.adjusted := by
  by_contra below
  have leadBig := adjusted_eq modestBig shortBig
  have leadSmall := adjusted_eq modestSmall shortSmall
  have oneBig := big.digits_pos
  have oneSmall := small.digits_pos
  obtain ⟨lowerBig, upperBig⟩ := modestBig
  obtain ⟨lowerSmall, upperSmall⟩ := modestSmall
  simp only [sumFloor, floorUnder, saturate, exponentMin, exponentMax, precisionMax] at *
  have low : min big.exponent small.exponent = small.exponent := by omega
  rw [low] at fits
  have top := pow_le_natAbs_shifted hb small.exponent
  have bottom : (small.shifted small.exponent).natAbs <
      10 ^ (big.digits + (big.exponent - small.exponent).toNat - 1 - 1 - precision) :=
    (natAbs_shifted_lt small small.exponent).trans_le (Nat.pow_le_pow_right (by omega) (by omega))
  have longer := lt_digitCount_add top bottom (by omega) positive
  omega

/-! ## The engine -/

private theorem shiftFactor_eq {n : Nat} (h : n ≤ maxShift) : shiftFactor n = .ok (Nat.pow 10 n) :=
  if_neg (by omega)

theorem coefficientAt_eq {d : Decimal} {low : Int} (h : (d.exponent - low).toNat ≤ maxShift) :
    d.coefficientAt low = .ok (d.shifted low) := by
  rw [coefficientAt, shiftFactor_eq h]
  exact congrArg (fun factor : Int => Except.ok (d.coefficient * factor)) (Int.natCast_pow ..)

/-- An exact result that fits a precision, of operands that fit it as well. -/
structure ExactCase (operation : BinaryOp) (x y z : Decimal) (precision : Nat) : Prop where
  result : IsExactResult operation x y z
  shortLeft : x.digits ≤ precision
  shortRight : y.digits ≤ precision
  short : z.digits ≤ precision
  near : (x.exponent - y.exponent).natAbs ≤ 1000000
  modestLeft : IsModest x.exponent
  modestRight : IsModest y.exponent

variable {operation : BinaryOp} {x y z : Decimal} {precision wide : Nat}

private theorem addExact_eq (sum : IsExactResult .add x y z)
    (near : (x.exponent - y.exponent).natAbs ≤ 1000000) : addExact x y = .ok z := by
  have low := sum.2
  have bound : maxShift = 1000000 := rfl
  rw [addExact, ← low, coefficientAt_eq (by omega), coefficientAt_eq (by omega)]
  have coefficient := coefficient_of_exact_add sum
  simp only [bind, Except.bind, pure, Except.pure, ← coefficient]

/-- A sum that fits the precision is exact: the shortcut for a distant addend is not taken. -/
private theorem add_of_exactCase (h : ExactCase .add x y z precision)
    (limited : precision ≤ precisionMax) (positive : 0 < wide) (le : precision ≤ wide) :
    x.add y wide = .ok z := by
  have exact := addExact_eq h.result h.near
  have shortLeft := h.shortLeft.trans limited
  have shortRight := h.shortRight.trans limited
  have coefficient := coefficient_of_exact_add h.result
  rw [h.result.2] at coefficient
  have fits := h.short.trans le
  rw [digits, coefficient] at fits
  simp only [add, addBy, pure_bind, ofExcept_self]
  split
  · next nonzero =>
    simp only [isZero, Bool.not_eq_true', beq_eq_false_iff_ne] at nonzero
    by_cases order : y.adjusted ≤ x.adjusted
    · have noGap := sumFloor_le_adjusted nonzero.2.1 h.modestLeft h.modestRight shortLeft shortRight
        positive fits
      simp only [if_pos order, exact]
      exact if_neg (not_lt.mpr noGap)
    · rw [Int.min_comm, Int.add_comm] at fits
      have noGap := sumFloor_le_adjusted nonzero.2.2 h.modestRight h.modestLeft shortRight shortLeft
        positive fits
      simp only [if_neg order, exact]
      exact if_neg (not_lt.mpr noGap)
  · exact exact

private theorem multiply_of_exactCase (h : ExactCase .multiply x y z precision) :
    x.multiply y = .ok z := by
  have exponent := h.result.2
  have coefficient := coefficient_of_exact_multiply h.result
  obtain ⟨lowerLeft, upperLeft⟩ := h.modestLeft
  obtain ⟨lowerRight, upperRight⟩ := h.modestRight
  have inside : ExponentFits (x.exponent + y.exponent) := by
    simp only [ExponentFits, exponentMin, exponentMax]
    omega
  rw [← exponent] at inside
  simp only [multiply, ← exponent, ← coefficient, if_pos inside]

/-- The exponent of an exact result is modest, too. -/
private theorem exponent_bounds (h : ExactCase operation x y z precision) :
    -2000000000000 ≤ z.exponent ∧ z.exponent ≤ 2000000000000 := by
  obtain ⟨lowerLeft, upperLeft⟩ := h.modestLeft
  obtain ⟨lowerRight, upperRight⟩ := h.modestRight
  have result := h.result
  cases operation with
  | add | subtract | multiply =>
    have := result.2
    omega
  | _ => exact result.elim

private theorem placesFit_of_short {d : Decimal} (short : d.digits ≤ precision)
    (limited : precision ≤ precisionMax) (lower : -2000000000000 ≤ d.exponent)
    (upper : d.exponent ≤ 2000000000000) : d.PlacesFit := by
  constructor <;> simp only [exponentMin, exponentMax, precisionMax] at * <;> omega

/-- Nothing saturates in an exact case. -/
theorem ExactCase.placesFit (h : ExactCase operation x y z precision)
    (limited : precision ≤ precisionMax) : x.PlacesFit ∧ y.PlacesFit ∧ z.PlacesFit := by
  obtain ⟨lower, upper⟩ := exponent_bounds h
  obtain ⟨lowerLeft, upperLeft⟩ := h.modestLeft
  obtain ⟨lowerRight, upperRight⟩ := h.modestRight
  exact ⟨placesFit_of_short h.shortLeft limited (by omega) (by omega),
    placesFit_of_short h.shortRight limited (by omega) (by omega),
    placesFit_of_short h.short limited lower upper⟩

end DecimalConformance.Decimal

namespace DecimalConformance.Engine

open Decimal

variable {operation : BinaryOp} {x y z : Decimal} {precision wide : Nat}

/-- Finishing changes nothing that is short enough. -/
theorem finish_eq_self {d : Decimal} {context : Context} (short : d.digits ≤ context.precision)
    (fits : d.PlacesFit) : finish d context = d := by
  rw [finish, round_of_digits_le _ short, stored_eq_of_placesFit fits]

/-- The engine gives an exact result that fits the precision, at that precision and at any other
above it. -/
theorem calculateBinary_eq (internal : Nat) (mode : RoundingMode)
    (h : ExactCase operation x y z precision) (positive : 0 < precision)
    (limited : precision ≤ precisionMax) (le : precision ≤ wide) :
    calculateBinary internal operation x y ⟨wide, mode⟩ = .ok z := by
  have kept : finish z ⟨wide, mode⟩ = z :=
    finish_eq_self (h.short.trans le) (h.placesFit limited).2.2
  have result := h.result
  cases operation with
  | add =>
    have sum := add_of_exactCase h limited (positive.trans_le le) le
    show (x.add y wide).map (finish · ⟨wide, mode⟩) = _
    simp only [sum, Except.map, kept]
  | subtract =>
    have negated : ExactCase .add x y.neg z precision :=
      ⟨isExactResult_add_neg h.result, h.shortLeft, by rw [digits_neg]; exact h.shortRight, h.short,
        h.near, h.modestLeft, h.modestRight⟩
    have sum := add_of_exactCase negated limited (positive.trans_le le) le
    show (x.add y.neg wide).map (finish · ⟨wide, mode⟩) = _
    simp only [sum, Except.map, kept]
  | multiply =>
    rw [calculateBinary_multiply, multiply_of_exactCase h]
    simp only [Except.map, kept]
  | _ => exact result.elim

end DecimalConformance.Engine
