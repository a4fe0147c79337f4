import DecimalConformance.Proofs.Decimal.Cell
import DecimalConformance.Proofs.Decimal.ExactArithmetic

/-! Sums as rounding sees them.
The unit that stands in for a distant addend leaves the sum in the cell of the exact one, so every
precision up to the one that the sum was made for rounds it like the exact one. -/
namespace DecimalConformance.Decimal

/-- The exact sum, at the smaller of the two exponents. -/
def sum (a b : Decimal) : Decimal :=
  ⟨a.shifted (min a.exponent b.exponent) + b.shifted (min a.exponent b.exponent),
    min a.exponent b.exponent⟩

theorem sum_comm (a b : Decimal) : a.sum b = b.sum a := by
  rw [sum, sum, Int.min_comm, Int.add_comm]

theorem value_sum (a b : Decimal) : (a.sum b).value = a.value + b.value := by
  rw [value_eq_shifted (Int.min_le_left a.exponent b.exponent),
    value_eq_shifted (Int.min_le_right a.exponent b.exponent), ← add_mul, ← Int.cast_add]
  rfl

/-- Next to a multiple of a power of ten a number lies in the cell above or below it, and has the
sign of the multiple. -/
private theorem inCell_mul_pow_add {big small : Int} {width : Nat} (nonzero : big ≠ 0)
    (inside : small ≠ 0) (below : small.natAbs < 10 ^ width) (low : Int) :
    (⟨big * 10 ^ width + small, low⟩ : Decimal).InCell
        (if 0 < big ↔ 0 < small then big.natAbs else big.natAbs - 1) (low + width) ∧
      (big * 10 ^ width + small).sign = big.sign := by
  have size : (big * 10 ^ width).natAbs = big.natAbs * 10 ^ width := by
    rw [Int.natAbs_mul, Int.natAbs_pow]
    rfl
  have reach : 1 * 10 ^ width ≤ big.natAbs * 10 ^ width :=
    Nat.mul_le_mul_right _ (Int.natAbs_pos.mpr nonzero)
  have unit : (0 : Int) < 10 ^ width := pow_pos (by norm_num) width
  have sign : 0 < big * 10 ^ width ↔ 0 < big := mul_pos_iff_of_pos_right unit
  have least : (big.natAbs - 1) * 10 ^ width = big.natAbs * 10 ^ width - 10 ^ width :=
    Nat.sub_one_mul _ _
  generalize big * 10 ^ width = multiple at *
  constructor
  · split_ifs with same
    · exact ⟨width, small.natAbs, rfl, by dsimp only; omega, by omega, below⟩
    · exact ⟨width, 10 ^ width - small.natAbs, rfl, by dsimp only; omega, by omega, by omega⟩
  · rcases Int.lt_or_lt_of_ne nonzero with negative | positive
    · rw [Int.sign_eq_neg_one_of_neg negative, Int.sign_eq_neg_one_of_neg (by omega)]
    · rw [Int.sign_eq_one_of_pos positive, Int.sign_eq_one_of_pos (by omega)]

/-! ## Aligned addends -/

private theorem coefficientAt_eq_ite (d : Decimal) (low : Int) :
    d.coefficientAt low =
      if maxShift < (d.exponent - low).toNat then .error .overflow else .ok (d.shifted low) := by
  split_ifs with far
  · rw [coefficientAt, shiftFactor, if_pos far]
    rfl
  · exact coefficientAt_eq (not_lt.mp far)

/-- An exact addition is refused where the exponents lie too far apart. -/
theorem addExact_eq_ite (a b : Decimal) :
    addExact a b =
      if maxShift < (a.exponent - b.exponent).natAbs then .error .overflow else .ok (a.sum b) := by
  rw [addExact, coefficientAt_eq_ite, coefficientAt_eq_ite]
  -- One of the two addends has the smaller exponent already.
  rcases le_total a.exponent b.exponent with le | le
  · have low : min a.exponent b.exponent = a.exponent := min_eq_left le
    have near : ¬ maxShift < (a.exponent - a.exponent).toNat := by simp
    have gap : (b.exponent - a.exponent).toNat = (a.exponent - b.exponent).natAbs := by omega
    rw [low, if_neg near, gap, sum, low]
    split_ifs <;> rfl
  · have low : min a.exponent b.exponent = b.exponent := min_eq_right le
    have near : ¬ maxShift < (b.exponent - b.exponent).toNat := by simp
    have gap : (a.exponent - b.exponent).toNat = (a.exponent - b.exponent).natAbs := by omega
    rw [low, if_neg near, gap, sum, low]
    split_ifs <;> rfl

theorem eq_sum_of_addExact {a b result : Decimal} (h : addExact a b = .ok result) :
    result = a.sum b := by
  rw [addExact_eq_ite] at h
  split_ifs at h
  exact (Except.ok.inj h).symm

/-! ## Distant addends -/

variable {big small other result : Decimal} {floor : Int} {precision p : Nat}

/-- A place that an addend stays below, and the other one reaches with many digits. -/
structure Apart (big small : Decimal) (floor : Int) (precision : Nat) : Prop where
  bigNonzero : big.coefficient ≠ 0
  smallNonzero : small.coefficient ≠ 0
  below : small.exponent + small.digits ≤ floor
  above : floor < big.exponent
  long : floor + precision + 2 ≤ big.exponent + big.digits

/-- A unit with the sign of `small`, below every place that counts. -/
def standIn (small : Decimal) (floor : Int) : Decimal := unitAt small (floor - 1)

/-- The stand-in is used only for an addend that lies apart. -/
private theorem apart_of_lt_sumFloor (bigNonzero : big.coefficient ≠ 0)
    (smallNonzero : small.coefficient ≠ 0) (least : exponentMin ≤ small.exponent)
    (h : small.adjusted < sumFloor big precision) :
    Apart big small (sumFloor big precision) precision := by
  have one := small.digits_pos
  have one' := big.digits_pos
  -- A floor at either end of the range would have no addend below it, so none saturates.
  refine ⟨bigNonzero, smallNonzero, ?_, ?_, ?_⟩ <;>
    simp only [adjusted, sumFloor, floorUnder, saturate, exponentMin, exponentMax] at * <;> omega

private theorem Apart.pow_le (h : Apart big small floor precision) :
    10 ^ (precision + 1) ≤ (big.shifted floor).natAbs := by
  have above := h.above
  have long := h.long
  exact (Nat.pow_le_pow_right (by omega) (by omega)).trans (pow_le_natAbs_shifted h.bigNonzero floor)

private theorem Apart.shifted_ne_zero (h : Apart big small floor precision) :
    big.shifted floor ≠ 0 :=
  shifted_eq_zero_iff.not.mpr h.bigNonzero

private theorem Apart.place (h : Apart big small floor precision) :
    small.exponent + ((floor - small.exponent).toNat : Int) = floor := by
  have below := h.below
  omega

private theorem Apart.natAbs_lt (h : Apart big small floor precision) :
    small.coefficient.natAbs < 10 ^ (floor - small.exponent).toNat := by
  have below := h.below
  exact (lt_pow_digitCount _).trans_le
    (Nat.pow_le_pow_right (by omega) (by simp only [digits] at below; omega))

private theorem shifted_of_le {d : Decimal} {low high : Int} (le : low ≤ high)
    (le' : high ≤ d.exponent) : d.shifted low = d.shifted high * 10 ^ (high - low).toNat := by
  have places : (d.exponent - low).toNat = (d.exponent - high).toNat + (high - low).toNat := by omega
  rw [shifted, shifted, places, pow_add, mul_assoc]

private theorem Apart.sum_eq (h : Apart big small floor precision) :
    big.sum small = ⟨big.shifted floor * 10 ^ (floor - small.exponent).toNat + small.coefficient,
      small.exponent⟩ := by
  obtain ⟨-, -, below, above, -⟩ := h
  have one := small.digits_pos
  have low : min big.exponent small.exponent = small.exponent := by omega
  rw [sum, low, shifted_of_le (by omega) above.le]
  simp [shifted]

/-- Addends that lie apart from one other and have one sign make sums that are rounded alike. -/
private theorem round_sum_of_apart (mode : RoundingMode)
    (h : Apart big small floor precision) (h' : Apart big other floor precision)
    (sign : 0 < small.coefficient ↔ 0 < other.coefficient) (positive : 0 < p) (le : p ≤ precision) :
    (big.sum small).round p mode = (big.sum other).round p mode := by
  obtain ⟨cell, signs⟩ :=
    inCell_mul_pow_add h.shifted_ne_zero h.smallNonzero h.natAbs_lt small.exponent
  obtain ⟨cell', signs'⟩ :=
    inCell_mul_pow_add h.shifted_ne_zero h'.smallNonzero h'.natAbs_lt other.exponent
  rw [h.place] at cell
  rw [h'.place] at cell'
  simp only [← sign] at cell'
  rw [h.sum_eq, h'.sum_eq]
  refine round_eq_of_inCell mode cell cell' (signs.trans signs'.symm) positive ?_
  -- Below the multiple the cell is one less, for which there is a digit to spare.
  have long := h.pow_le
  have most : 10 ^ p ≤ 10 ^ precision := Nat.pow_le_pow_right (by omega) le
  have step : 10 ^ (precision + 1) = 10 * 10 ^ precision := Nat.pow_succ'
  split_ifs <;> omega

private theorem apart_standIn (h : Apart big small floor precision) :
    Apart big (standIn small floor) floor precision := by
  obtain ⟨bigNonzero, -, -, above, long⟩ := h
  have unit : (standIn small floor).coefficient.natAbs = 1 := by
    unfold standIn unitAt
    split <;> rfl
  refine ⟨bigNonzero, by omega, ?_, above, long⟩
  rw [digits, unit]
  show floor - 1 + _ ≤ floor
  simp [show digitCount 1 = 1 by decide]

private theorem coefficient_standIn_pos_iff (nonzero : small.coefficient ≠ 0) :
    0 < (standIn small floor).coefficient ↔ 0 < small.coefficient := by
  unfold standIn unitAt isNegative
  split
  · next negative =>
    rw [decide_eq_true_eq] at negative
    dsimp only
    omega
  · next positive =>
    rw [decide_eq_true_eq] at positive
    dsimp only
    omega

/-- A sum of addends that lie apart is longer than the precision. -/
private theorem lt_digits_sum_of_apart (h : Apart big small floor precision)
    (positive : 0 < precision) : precision < (big.sum small).digits := by
  have long := h.pow_le
  have step : 10 ^ (precision + 1) = 10 * 10 ^ precision := Nat.pow_succ'
  obtain ⟨cell, -⟩ :=
    inCell_mul_pow_add h.shifted_ne_zero h.smallNonzero h.natAbs_lt small.exponent
  rw [h.sum_eq]
  refine cell.lt_digits positive ?_
  split_ifs <;> omega

/-! ## The sum of the engine -/

/-- Two addends, the one with the higher leading digit first. -/
def byPlace (a b : Decimal) : Decimal × Decimal :=
  if b.adjusted ≤ a.adjusted then (a, b) else (b, a)

theorem byPlace_eq_or (a b : Decimal) : byPlace a b = (a, b) ∨ byPlace a b = (b, a) := by
  unfold byPlace
  split
  · exact .inl rfl
  · exact .inr rfl

/-- One addend lies below every place of the other one that counts. -/
def Distant (a b : Decimal) (precision : Nat) : Prop :=
  0 < precision ∧ a.coefficient ≠ 0 ∧ b.coefficient ≠ 0 ∧
    (byPlace a b).2.adjusted < sumFloor (byPlace a b).1 precision

instance (a b : Decimal) (precision : Nat) : Decidable (Distant a b precision) :=
  inferInstanceAs (Decidable (_ ∧ _))

theorem add_eq (a b : Decimal) (precision : Nat) :
    a.add b precision =
      if Distant a b precision then
        addExact (byPlace a b).1 (standIn (byPlace a b).2 (sumFloor (byPlace a b).1 precision))
      else addExact a b := by
  by_cases nonzero : 0 < precision ∧ a.coefficient ≠ 0 ∧ b.coefficient ≠ 0
  · obtain ⟨positive, left, right⟩ := nonzero
    have limited : 0 < precision ∧ (!a.isZero) = true ∧ (!b.isZero) = true := by
      simp [isZero, positive, left, right]
    simp only [add, addBy, pure_bind, ofExcept_self]
    rw [if_pos limited]
    simp only [Distant, positive, ne_eq, left, right, not_false_eq_true, true_and]
    rfl
  · have unlimited : ¬ (0 < precision ∧ (!a.isZero) = true ∧ (!b.isZero) = true) := by
      simpa [isZero] using nonzero
    have near : ¬ Distant a b precision := fun distant =>
      nonzero ⟨distant.1, distant.2.1, distant.2.2.1⟩
    rw [add, addBy, if_neg unlimited, if_neg near, ofExcept_self]

theorem apart_of_distant {a b : Decimal} (leastLeft : exponentMin ≤ a.exponent)
    (leastRight : exponentMin ≤ b.exponent) (h : Distant a b precision) :
    Apart (byPlace a b).1 (byPlace a b).2 (sumFloor (byPlace a b).1 precision) precision := by
  obtain ⟨-, left, right, below⟩ := h
  rcases byPlace_eq_or a b with order | order <;> rw [order] at below ⊢
  · exact apart_of_lt_sumFloor left right leastRight below
  · exact apart_of_lt_sumFloor right left leastLeft below

private theorem sum_byPlace (a b : Decimal) : (byPlace a b).1.sum (byPlace a b).2 = a.sum b := by
  rcases byPlace_eq_or a b with order | order <;> rw [order]
  exact sum_comm b a

/-- A sum is rounded like the exact one, by every precision that it was made for. -/
theorem round_of_add {a b : Decimal} (mode : RoundingMode)
    (leastLeft : exponentMin ≤ a.exponent) (leastRight : exponentMin ≤ b.exponent)
    (positive : 0 < p) (le : p ≤ precision) (h : a.add b precision = .ok result) :
    result.round p mode = (a.sum b).round p mode := by
  rw [add_eq] at h
  split at h
  · next distant =>
    have apart := apart_of_distant leastLeft leastRight distant
    rw [eq_sum_of_addExact h, ← sum_byPlace a b]
    exact round_sum_of_apart mode (apart_standIn apart) apart
      (coefficient_standIn_pos_iff apart.smallNonzero) positive le
  · rw [eq_sum_of_addExact h]

/-- A sum for which an addend was replaced is longer than the precision. -/
theorem lt_digits_of_distant {a b : Decimal} (leastLeft : exponentMin ≤ a.exponent)
    (leastRight : exponentMin ≤ b.exponent) (distant : Distant a b precision)
    (h : a.add b precision = .ok result) : precision < result.digits := by
  have apart := apart_of_distant leastLeft leastRight distant
  rw [add_eq, if_pos distant] at h
  rw [eq_sum_of_addExact h]
  exact lt_digits_sum_of_apart (apart_standIn apart) distant.1

/-- An addend that no place of a wide precision reaches is not reached by a narrow one. -/
theorem Distant.of_le {a b : Decimal} (h : Distant a b precision) (positive : 0 < p)
    (le : p ≤ precision) : Distant a b p := by
  obtain ⟨-, left, right, below⟩ := h
  refine ⟨positive, left, right, below.trans_le ?_⟩
  simp only [sumFloor, floorUnder, saturate, exponentMin, exponentMax]
  omega

end DecimalConformance.Decimal
