import DecimalConformance.Proofs.Decimal.StagedRounding

/-! Arithmetic at a precision, and at any wider one.
A result with fewer digits than its precision was not rounded, and a wider precision gives it again.
Only a division may refuse: it lengthens its dividend by as many digits as it is asked for, even if
the quotient ends long before. -/
namespace DecimalConformance

namespace Decimal

variable {a b d result : Decimal} {p q : Nat} {mode : RoundingMode}

/-- What is shorter than the precision was not rounded to it, nor is it rounded to a wider one. -/
theorem round_of_digits_round_lt (positive : 0 < p) (le : p ≤ q)
    (short : (d.round p mode).digits < p) : d.round p mode = d ∧ d.round q mode = d := by
  have whole : d.digits ≤ p := by
    by_contra long
    rw [digits_round_of_lt mode positive (not_le.mp long)] at short
    exact absurd short (lt_irrefl p)
  exact ⟨round_of_digits_le mode whole, round_of_digits_le mode (whole.trans le)⟩

theorem add_of_digits_le (leastLeft : exponentMin ≤ a.exponent)
    (leastRight : exponentMin ≤ b.exponent) (positive : 0 < p) (le : p ≤ q)
    (added : a.add b p = .ok result) (short : result.digits ≤ p) : a.add b q = .ok result := by
  have near : ¬ Distant a b p := fun distant =>
    absurd (lt_digits_of_distant leastLeft leastRight distant added) (not_lt.mpr short)
  have near' : ¬ Distant a b q := fun distant => near (distant.of_le positive le)
  rw [add_eq, if_neg near] at added
  rw [add_eq, if_neg near', added]

/-- A division with a short result is exact, so that at a wider precision the dividend is only
lengthened in vain. -/
theorem divide_of_digits_lt (positive : 0 < p) (le : p ≤ q)
    (divided : a.divide b p mode = .ok result) (short : result.digits < p) :
    a.divide b q mode = if OutOfReach a b q then .error .overflow else .ok result := by
  obtain ⟨divisor, fits, -, rfl⟩ := eq_round_of_divide divided
  obtain ⟨unrounded, unrounded'⟩ := round_of_digits_round_lt positive le short
  rw [unrounded] at short
  obtain ⟨same, room⟩ := quotientAt_of_digits_le divisor positive le short.le
  rw [divide_eq mode divisor]
  by_cases refused : OutOfReach a b q
  · simp [refused]
  · simp [refused, fits, room, same, unrounded, unrounded']

end Decimal

namespace Engine

open Decimal

variable {internal p q : Nat} {operation : BinaryOp} {x y result : Decimal} {mode : RoundingMode}

private theorem finish_of_digits_lt {d : Decimal} (positive : 0 < p) (le : p ≤ q)
    (short : (finish d ⟨p, mode⟩).digits < p) :
    d.digits ≤ p ∧ finish d ⟨q, mode⟩ = finish d ⟨p, mode⟩ := by
  obtain ⟨unrounded, unrounded'⟩ := round_of_digits_round_lt positive le short
  constructor
  · have short : (d.round p mode).digits < p := short
    rw [unrounded] at short
    exact short.le
  · rw [finish, finish, unrounded, unrounded']

private theorem map_finish_add {a b : Decimal} (storedLeft : -exponentMax ≤ a.exponent)
    (storedRight : -exponentMax ≤ b.exponent) (positive : 0 < p) (le : p ≤ q)
    (computed : (a.add b p).map (finish · ⟨p, mode⟩) = .ok result) (short : result.digits < p) :
    (a.add b q).map (finish · ⟨q, mode⟩) = .ok result := by
  obtain ⟨sum, added, rfl⟩ := exists_of_map_eq_ok computed
  obtain ⟨whole, same⟩ := finish_of_digits_lt positive le short
  have range : exponentMin ≤ -exponentMax := by decide
  rw [add_of_digits_le (range.trans storedLeft) (range.trans storedRight) positive le added whole,
    Except.map, same]

/-- A result with fewer digits than its precision is the result at every wider precision, coefficient
and exponent, up to the widest of all; but a division is refused there if the dividend is out of
reach. -/
theorem binary_of_digits_lt (listed : operation ∈ [.add, .subtract, .multiply, .divide])
    (storedLeft : x.stored = x) (storedRight : y.stored = y) (positive : 0 < p) (le : p ≤ q)
    (computed : (standard internal).binary operation x y ⟨p, mode⟩ = .ok result)
    (short : result.digits < p) :
    (standard internal).binary operation x y ⟨q, mode⟩ =
      if operation = .divide ∧ OutOfReach x y q then .error .overflow else .ok result := by
  have left := exponent_of_stored storedLeft
  have right := exponent_of_stored storedRight
  rw [standard_binary] at computed ⊢
  cases operation with
  | add => exact map_finish_add left right positive le computed short
  | subtract => exact map_finish_add (b := y.neg) left right positive le computed short
  | multiply =>
    rw [calculateBinary_multiply] at computed ⊢
    obtain ⟨product, multiplied, rfl⟩ := exists_of_map_eq_ok computed
    obtain ⟨-, same⟩ := finish_of_digits_lt positive le short
    simp [multiplied, Except.map, same]
  | divide =>
    obtain ⟨quotient, divided, rfl⟩ := exists_of_map_eq_ok computed
    rw [inexactPrecision, if_pos positive] at divided
    show (x.divide y (inexactPrecision internal ⟨q, mode⟩) mode).map stored = _
    simp only [inexactPrecision, if_pos (positive.trans_le le),
      divide_of_digits_lt positive le divided short]
    by_cases refused : OutOfReach x y q <;> simp [refused, Except.map]
  | _ => simp at listed

/-- The longest dividend that a quarter is still taken of. -/
theorem binary_of_digits_lt_quarter :
    (standard 34).binary .divide ⟨1, 0⟩ ⟨4, 0⟩ ⟨9, .nearestEven⟩ = .ok ⟨25, -2⟩ ∧
      (⟨25, -2⟩ : Decimal).digits < 9 ∧
      (standard 34).binary .divide ⟨1, 0⟩ ⟨4, 0⟩ ⟨999999, .nearestEven⟩ = .ok ⟨25, -2⟩ := by
  have computed : (standard 34).binary .divide ⟨1, 0⟩ ⟨4, 0⟩ ⟨9, .nearestEven⟩ = .ok ⟨25, -2⟩ := by
    decide
  have short : (⟨25, -2⟩ : Decimal).digits < 9 := by decide
  have reached : ¬ (BinaryOp.divide = .divide ∧ OutOfReach ⟨1, 0⟩ ⟨4, 0⟩ 999999) := by decide
  have wide := binary_of_digits_lt (q := 999999) (by decide) (by decide) (by decide) (by decide)
    (by decide) computed short
  rw [if_neg reached] at wide
  exact ⟨computed, short, wide⟩

/-- A quarter has two digits, and the widest precision spoils it. -/
theorem quarter_refused_at_widest :
    (standard 34).binary .divide ⟨1, 0⟩ ⟨4, 0⟩ ⟨9, .nearestEven⟩ = .ok ⟨25, -2⟩ ∧
      (⟨25, -2⟩ : Decimal).digits < 9 ∧
      (standard 34).binary .divide ⟨1, 0⟩ ⟨4, 0⟩ ⟨precisionMax, .nearestEven⟩ =
        .error .overflow := by
  decide

end Engine
end DecimalConformance
