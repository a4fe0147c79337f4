import DecimalConformance.Decimal.SquareRoot
import DecimalConformance.Proofs.Decimal.GuardDigit
import Mathlib.Analysis.Real.Sqrt

/-! The square root is rounded once.
A coefficient at an even exponent is widened by an even number of places, so that its whole root has
more digits than the precision.  The real root is that root, or lies in the cell behind it. -/
namespace DecimalConformance.Decimal

variable {x : Decimal} {precision : Nat}

/-! ## Roots of natural numbers -/

private theorem descendToRoot_eq_iter (n guess : Nat) :
    descendToRoot n guess = Nat.sqrt.iter n guess := by
  fun_induction descendToRoot n guess with
  | case1 guess next less ih => rw [ih, Nat.sqrt.iter.eq_def n guess, dif_pos less]
  | case2 guess next last => rw [Nat.sqrt.iter, dif_neg last]

theorem floorRoot_eq_sqrt (n : Nat) : floorRoot n = Nat.sqrt n := by
  rw [floorRoot, Nat.sqrt]
  rcases Nat.lt_trichotomy n 1 with zero | rfl | more
  · rw [if_pos (by omega), if_pos (by omega)]
    omega
  · decide +kernel
  · rw [if_neg (by omega), if_neg (by omega), descendToRoot_eq_iter, Nat.one_shiftLeft]
    rfl

/-! ## The root of the engine -/

/-- The coefficient at the even exponent next below. -/
def evenCoefficient (x : Decimal) : Nat :=
  x.coefficient.natAbs * (if x.exponent % 2 = 0 then 1 else 10)

def radicandAt (x : Decimal) (precision : Nat) : Nat :=
  evenCoefficient x * 10 ^ (2 * rootScale (evenCoefficient x) precision)

def rootAt (x : Decimal) (precision : Nat) : Nat := Nat.sqrt (radicandAt x precision)

/-- The place of the last digit of the whole root. -/
def rootPlaceAt (x : Decimal) (precision : Nat) : Int :=
  x.exponent / 2 - rootScale (evenCoefficient x) precision

/-- What a square root to a precision rounds. -/
def unroundedRoot (x : Decimal) (precision : Nat) : Decimal :=
  let stripped := dropZeros (rootScale (evenCoefficient x) precision) (rootAt x precision)
  if rootAt x precision * rootAt x precision = radicandAt x precision then
    ⟨↑stripped.1, x.exponent / 2 - ↑stripped.2⟩
  else ⟨↑(rootAt x precision * 10 + 1), rootPlaceAt x precision - 1⟩

theorem evenExponentBy_pure {m : Type → Type} [Monad m] (e : Int) :
    (evenExponentBy pure e : m Int) = pure (2 * (e / 2)) := by
  rw [evenExponentBy]
  split <;> congr 1 <;> omega

theorem tdiv_evenExponent (e : Int) : (2 * (e / 2)).tdiv 2 = e / 2 :=
  Int.mul_tdiv_cancel_left _ (by decide)

theorem squareRoot_eq (mode : RoundingMode) (positive : 0 < x.coefficient) :
    x.squareRoot precision mode = .ok ((unroundedRoot x precision).round precision mode) := by
  have nonnegative : ¬ x.isNegative := by simp [isNegative, positive.le]
  have nonzero : ¬ x.isZero := by simp [isZero, positive.ne']
  have radicand : evenCoefficient x * Nat.pow 10 (2 * rootScale (evenCoefficient x) precision) =
      radicandAt x precision := rfl
  rw [squareRoot, squareRootBy, if_neg nonnegative]
  dsimp only
  rw [if_neg nonzero, evenExponentBy_pure, pure_bind, pure_bind, tdiv_evenExponent,
    ← evenCoefficient, radicand, floorRoot_eq_sqrt, ← rootAt, unroundedRoot]
  by_cases exact : rootAt x precision * rootAt x precision = radicandAt x precision
  · rw [if_pos exact, if_pos exact, stripBy_eq fun _ _ _ => rfl, pure_bind, Int.sub_add_cancel]
    rfl
  · rw [if_neg exact, if_neg exact, withGuardDigitBy, pure_bind, pure_bind]
    rfl

/-- An exact root has as many zeros dropped as there are, on the way to half the exponent. -/
private theorem unroundedRoot_of_exact
    (exact : rootAt x precision * rootAt x precision = radicandAt x precision) :
    ∃ rest left zeros : Nat,
      dropZeros (rootScale (evenCoefficient x) precision) (rootAt x precision) = (rest, left) ∧
      unroundedRoot x precision = ⟨↑rest, x.exponent / 2 - ↑left⟩ ∧
      rootAt x precision = rest * 10 ^ zeros ∧
      rootScale (evenCoefficient x) precision = left + zeros := by
  obtain ⟨zeros, split, room⟩ :=
    dropZeros_spec (rootScale (evenCoefficient x) precision) (rootAt x precision)
  exact ⟨_, _, zeros, rfl, if_pos exact, split, room⟩

private theorem unroundedRoot_of_inexact
    (inexact : rootAt x precision * rootAt x precision ≠ radicandAt x precision) :
    unroundedRoot x precision =
      ⟨↑(rootAt x precision * 10 + 1), rootPlaceAt x precision - 1⟩ := if_neg inexact

theorem evenCoefficient_pos (nonzero : x.coefficient ≠ 0) : 0 < evenCoefficient x := by
  have positive := Int.natAbs_pos.mpr nonzero
  rw [evenCoefficient]
  split_ifs <;> omega

/-- The whole root is longer than the precision. -/
theorem pow_le_rootAt (nonzero : x.coefficient ≠ 0) (precision : Nat) :
    10 ^ precision ≤ rootAt x precision := by
  rw [rootAt, Nat.le_sqrt, ← Nat.pow_add]
  calc 10 ^ (precision + precision) ≤ 10 ^ (digitCount (evenCoefficient x) - 1 +
        2 * rootScale (evenCoefficient x) precision) :=
        Nat.pow_le_pow_right (by omega) (by unfold rootScale; omega)
    _ = 10 ^ (digitCount (evenCoefficient x) - 1) *
        10 ^ (2 * rootScale (evenCoefficient x) precision) := Nat.pow_add ..
    _ ≤ radicandAt x precision :=
        Nat.mul_le_mul_right _ (pow_digitCount_sub_le (evenCoefficient_pos nonzero))

/-- The root of a coefficient has half its digits, and those it was widened by. -/
theorem digitCount_rootAt_le (x : Decimal) (precision : Nat) :
    digitCount (rootAt x precision) ≤
      (digitCount (evenCoefficient x) + 1) / 2 + rootScale (evenCoefficient x) precision := by
  have one := digitCount_pos (evenCoefficient x)
  rw [digitCount_le_iff (by omega), rootAt, Nat.sqrt_lt, ← Nat.pow_add]
  have below : evenCoefficient x < 10 ^ digitCount (evenCoefficient x) := lt_pow_digitCount _
  calc radicandAt x precision < 10 ^ digitCount (evenCoefficient x) *
        10 ^ (2 * rootScale (evenCoefficient x) precision) :=
        Nat.mul_lt_mul_of_pos_right below (Nat.pow_pos (by omega))
    _ = 10 ^ (digitCount (evenCoefficient x) + 2 * rootScale (evenCoefficient x) precision) :=
        (Nat.pow_add ..).symm
    _ ≤ _ := Nat.pow_le_pow_right (by omega) (by omega)

theorem rootAt_pos (nonzero : x.coefficient ≠ 0) (precision : Nat) : 0 < rootAt x precision :=
  (Nat.pow_pos (by omega)).trans_le (pow_le_rootAt nonzero precision)

/-- The first digit of an unrounded root has the place of that of the whole one, and the last at most
a guard digit behind it. -/
private theorem exponent_unroundedRoot (nonzero : x.coefficient ≠ 0) (precision : Nat) :
    rootPlaceAt x precision - 1 ≤ (unroundedRoot x precision).exponent ∧
      (unroundedRoot x precision).exponent + (unroundedRoot x precision).digits =
        rootPlaceAt x precision + digitCount (rootAt x precision) := by
  have positive := rootAt_pos nonzero precision
  by_cases exact : rootAt x precision * rootAt x precision = radicandAt x precision
  · obtain ⟨rest, left, zeros, -, root, split, room⟩ := unroundedRoot_of_exact exact
    have filled : 0 < rest := by
      rw [split] at positive
      exact Nat.pos_of_mul_pos_right positive
    have count := digitCount_mul_pow_add filled (Nat.pow_pos (by omega) : 0 < 10 ^ zeros)
    rw [Nat.add_zero, ← split] at count
    rw [root, digits, rootPlaceAt, Int.natAbs_natCast, count]
    dsimp only
    omega
  · have count := digitCount_mul_pow_add positive (by decide : 1 < 10 ^ 1)
    rw [Nat.pow_one] at count
    rw [unroundedRoot_of_inexact exact, digits, Int.natAbs_natCast, count]
    dsimp only
    omega

/-! ## The real root -/

private theorem value_eq_radicandAt (nonnegative : 0 ≤ x.coefficient) (precision : Nat) :
    x.value = radicandAt x precision * (10 ^ rootPlaceAt x precision) ^ 2 := by
  have ten : (10 : ℚ) ≠ 0 := by norm_num
  have size : (x.coefficient : ℚ) = x.coefficient.natAbs := by
    rw [Nat.cast_natAbs, abs_of_nonneg nonnegative]
  have even : x.value = evenCoefficient x * (10 ^ (x.exponent / 2)) ^ 2 := by
    rw [value, evenCoefficient, size, ← zpow_natCast, ← zpow_mul]
    split_ifs with parity
    · have exponent : x.exponent = x.exponent / 2 * (2 : Nat) := by omega
      conv_lhs => rw [exponent]
      rw [Nat.mul_one]
    · have exponent : x.exponent = 1 + x.exponent / 2 * (2 : Nat) := by omega
      conv_lhs => rw [exponent, zpow_add₀ ten, zpow_one]
      push_cast
      ring
  rw [even, radicandAt, rootPlaceAt, zpow_sub₀ ten, zpow_natCast, pow_mul']
  push_cast
  field_simp

private theorem sqrt_value (nonnegative : 0 ≤ x.coefficient) (precision : Nat) :
    √(x.value : ℝ) = √(radicandAt x precision) * 10 ^ rootPlaceAt x precision := by
  rw [value_eq_radicandAt nonnegative precision]
  push_cast
  rw [Real.sqrt_mul (Nat.cast_nonneg _), Real.sqrt_sq (by positivity)]

/-- A root that is no natural number lies behind the whole one. -/
private theorem between_sqrt (nonnegative : 0 ≤ x.coefficient)
    (inexact : rootAt x precision * rootAt x precision ≠ radicandAt x precision) :
    Between (rootAt x precision) (rootPlaceAt x precision) √(x.value : ℝ) := by
  have unit : (0 : ℝ) < 10 ^ rootPlaceAt x precision := by positivity
  constructor <;> rw [abs_of_nonneg (Real.sqrt_nonneg _), sqrt_value nonnegative precision]
  · refine mul_lt_mul_of_pos_right ((Real.lt_sqrt (Nat.cast_nonneg _)).mpr ?_) unit
    rw [sq]
    exact_mod_cast (Nat.sqrt_le (radicandAt x precision)).lt_of_ne inexact
  · exact mul_lt_mul_of_pos_right Real.real_sqrt_lt_nat_sqrt_succ unit

private theorem value_unroundedRoot (nonnegative : 0 ≤ x.coefficient)
    (exact : rootAt x precision * rootAt x precision = radicandAt x precision) :
    ((unroundedRoot x precision).value : ℝ) = √(x.value : ℝ) := by
  obtain ⟨rest, left, zeros, -, root, split, room⟩ := unroundedRoot_of_exact exact
  have whole : √(radicandAt x precision : ℝ) = rest * 10 ^ zeros := by
    rw [← exact, Nat.cast_mul, Real.sqrt_mul_self (Nat.cast_nonneg _), split]
    push_cast
    rfl
  have exponent : x.exponent / 2 - (left : Int) = zeros + rootPlaceAt x precision := by
    rw [rootPlaceAt]
    omega
  rw [sqrt_value nonnegative precision, whole, root, value, exponent, zpow_add₀ (by norm_num),
    zpow_natCast]
  push_cast
  ring

/-- What a square root rounds is as good as the root itself. -/
theorem correctlyRounded_unroundedRoot (mode : RoundingMode) (radicand : 0 < x.coefficient)
    (positive : 0 < precision) :
    CorrectlyRounded mode precision (x.exponent / 2) √(x.value : ℝ)
      ((unroundedRoot x precision).roundFreely precision mode) := by
  have long := pow_le_rootAt radicand.ne' precision
  by_cases exact : rootAt x precision * rootAt x precision = radicandAt x precision
  · obtain ⟨rest, left, zeros, stripped, root, -, -⟩ := unroundedRoot_of_exact exact
    have nonzero := (rootAt_pos radicand.ne' precision).ne'
    rw [← value_unroundedRoot radicand.le exact]
    exact (isIdealForm_of_dropZeros nonzero stripped (by rw [root, Int.natAbs_natCast])
      (by rw [root])).correctlyRounded mode positive
  · have guarded := unroundedRoot_of_inexact exact
    have cell : (unroundedRoot x precision).InCell (rootAt x precision) (rootPlaceAt x precision) := by
      rw [guarded]
      exact inCell_of_guardDigit (Int.natAbs_natCast _) rfl
    have sign : 0 < √(x.value : ℝ) * ((unroundedRoot x precision).value : ℝ) := by
      have size : (0 : ℚ) < x.coefficient := by exact_mod_cast radicand
      have left : 0 < x.value := mul_pos size (by positivity)
      have right : 0 < (unroundedRoot x precision).value := by
        rw [guarded, value]
        positivity
      exact mul_pos (Real.sqrt_pos.mpr (by exact_mod_cast left)) (by exact_mod_cast right)
    exact correctlyRounded_of_inCell mode _ cell (between_sqrt radicand.le exact) sign positive long

private theorem digitCount_evenCoefficient_le (nonzero : x.coefficient ≠ 0) :
    (digitCount (evenCoefficient x) : Int) ≤ x.digits + x.exponent % 2 := by
  have positive := Int.natAbs_pos.mpr nonzero
  unfold evenCoefficient
  split_ifs with parity
  · rw [Nat.mul_one, digits]
    omega
  · have count := digitCount_mul_pow_add positive (by decide : 0 < 10 ^ 1)
    rw [Nat.pow_one, Nat.add_zero] at count
    rw [count, digits]
    omega

/-- Halves of a word and of as many digits as there can be make no more than a word. -/
private theorem exponent_bounds_root (nonzero : x.coefficient ≠ 0) (limited : precision ≤ precisionMax)
    (fits : ExponentFits x.exponent) (short : (x.digits : Int) ≤ exponentMax) :
    exponentMin ≤ (unroundedRoot x precision).exponent ∧
      (unroundedRoot x precision).exponent + (unroundedRoot x precision).digits ≤ exponentMax := by
  obtain ⟨last, first⟩ := exponent_unroundedRoot nonzero precision
  have whole := digitCount_rootAt_le x precision
  have even := digitCount_evenCoefficient_le nonzero
  simp only [ExponentFits, exponentMin, exponentMax, precisionMax, rootPlaceAt, rootScale] at *
  omega

/-- The square root of a positive number is given, in its ideal form or with exactly as many digits as
the precision says.  Zero is its own root, and negative numbers have none.  The bounds are those of
words: no decimal has another exponent or more digits. -/
theorem squareRoot_rounds_root (x : Decimal) (mode : RoundingMode) (positive : 0 < precision)
    (limited : precision ≤ precisionMax) (fits : ExponentFits x.exponent)
    (short : (x.digits : Int) ≤ exponentMax) :
    (0 < x.coefficient → ∃ result, x.squareRoot precision mode = .ok result ∧
      CorrectlyRounded mode precision (x.exponent / 2) √(x.value : ℝ) result) ∧
    (x.coefficient = 0 → x.squareRoot precision mode = .ok ⟨0, x.exponent / 2⟩) ∧
    (x.coefficient < 0 → x.squareRoot precision mode =
      .error (.invalidOperation "square root of a negative number")) := by
  refine ⟨fun radicand => ?_, fun zero => ?_, fun negative => ?_⟩
  · obtain ⟨last, first⟩ := exponent_bounds_root radicand.ne' limited fits short
    have inside := exponent_roundFreely_le (unroundedRoot x precision) mode positive
    have whole : (unroundedRoot x precision).round precision mode =
        (unroundedRoot x precision).roundFreely precision mode := by
      rw [round_eq_capped mode positive ⟨last, by omega⟩, capped_eq_self (by omega)]
    refine ⟨_, squareRoot_eq mode radicand, ?_⟩
    rw [whole]
    exact correctlyRounded_unroundedRoot mode radicand positive
  · simp [squareRoot, squareRootBy, isNegative, isZero, zero]
  · simp [squareRoot, squareRootBy, isNegative, negative]

/-- Nine digits of the root of two. -/
theorem squareRoot_rounds_root_two :
    0 < 9 ∧ 9 ≤ precisionMax ∧ ExponentFits (⟨2, 0⟩ : Decimal).exponent ∧
      ((⟨2, 0⟩ : Decimal).digits : Int) ≤ exponentMax ∧
      (⟨2, 0⟩ : Decimal).squareRoot 9 .nearestEven = .ok ⟨141421356, -8⟩ ∧
      CorrectlyRounded .nearestEven 9 (0 / 2) √((⟨2, 0⟩ : Decimal).value : ℝ) ⟨141421356, -8⟩ := by
  have computed : (⟨2, 0⟩ : Decimal).squareRoot 9 .nearestEven = .ok ⟨141421356, -8⟩ := by
    decide +kernel
  refine ⟨by decide, by decide, by decide, by decide, computed, ?_⟩
  obtain ⟨root, -⟩ := squareRoot_rounds_root ⟨2, 0⟩ .nearestEven (by decide : 0 < 9) (by decide)
    (by decide) (by decide)
  obtain ⟨result, given, correct⟩ := root (by decide)
  obtain rfl := Except.ok.inj (given.symm.trans computed)
  exact correct

end DecimalConformance.Decimal
