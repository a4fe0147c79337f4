import DecimalConformance.Proofs.Decimal.AccurateExponential
import DecimalConformance.Proofs.Decimal.AccurateLogarithm
import DecimalConformance.Proofs.Decimal.RoundedProduct
import Mathlib.Analysis.SpecialFunctions.Pow.Real

/-! Fractional powers are accurate.
The logarithm is near in proportion, and so is its product with the exponent.  An exponential is given
only of products below a hundred thousand, so that the product is also near by a distance that is small
behind the digits asked for, and this distance is what the exponential turns back into a proportion. -/
namespace DecimalConformance.Decimal

variable {x y d r : Decimal} {precision : Nat} {mode : RoundingMode}

/-! ## The exponential of something near -/

/-- What an argument is off by, the exponential is off by in proportion. -/
private theorem abs_exp_sub_le {d t : ℝ} (near : |d - t| ≤ 1) :
    |Real.exp d - Real.exp t| ≤ 2 * |d - t| * Real.exp d := by
  have split : Real.exp d - Real.exp t = -(Real.exp (t - d) - 1) * Real.exp d := by
    rw [neg_sub, sub_mul, one_mul, ← Real.exp_add, sub_add_cancel]
  have grows := Real.abs_exp_sub_one_le (x := t - d) (by rwa [abs_sub_comm])
  rw [split, abs_mul, abs_neg, abs_of_pos (Real.exp_pos d), abs_sub_comm d t]
  exact mul_le_mul_of_nonneg_right grows (Real.exp_pos d).le

/-- What is near the exponential of something near a number is near that of the number. -/
private theorem sub_exp_le {exact d t units : ℝ} (whole : 1 ≤ units) (above : 0 < exact)
    (near : |d - t| * units ≤ 1 / 1000) (near' : |exact - Real.exp d| * units ≤ 1 / 1000 * exact) :
    |exact - Real.exp t| * units ≤ 1 / 100 * exact := by
  have close : |d - t| ≤ 1 :=
    ((le_mul_of_one_le_right (abs_nonneg _) whole).trans near).trans (by norm_num)
  have twice : Real.exp d ≤ 2 * exact := by
    have close' := (le_mul_of_one_le_right (abs_nonneg _) whole).trans near'
    linarith [(abs_le.mp close').1]
  have moved : |Real.exp d - Real.exp t| * units ≤ 2 * (1 / 1000) * (2 * exact) := by
    calc |Real.exp d - Real.exp t| * units ≤ 2 * |d - t| * Real.exp d * units :=
          mul_le_mul_of_nonneg_right (abs_exp_sub_le close) (by linarith)
      _ = 2 * (|d - t| * units) * Real.exp d := by ring
      _ ≤ 2 * (1 / 1000) * (2 * exact) := by gcongr
  calc |exact - Real.exp t| * units
      ≤ (|exact - Real.exp d| + |Real.exp d - Real.exp t|) * units :=
        mul_le_mul_of_nonneg_right (abs_sub_le _ _ _) (by linarith)
    _ ≤ 1 / 1000 * exact + 2 * (1 / 1000) * (2 * exact) := by
        rw [add_mul]
        exact add_le_add near' moved
    _ ≤ 1 / 100 * exact := by linarith

/-- One stands for the exponential of what is small behind the digits asked for. -/
private theorem one_isAccurate {t : ℝ} (mode : RoundingMode)
    (near : |t| * 10 ^ precision ≤ 1 / 1000) :
    one.IsAccurate (1 / 100) mode precision (Real.exp t) := by
  have units : (1 : ℝ) ≤ 10 ^ precision := one_le_pow₀ (by norm_num)
  have small : |t| ≤ 1 / 1000 :=
    (le_mul_of_one_le_right (abs_nonneg t) units).trans near
  have grows := Real.abs_exp_sub_one_le (small.trans (by norm_num))
  have leading : one.adjusted = 0 := by decide
  have reach : (1 / 2 : ℝ) ≤ mode.reach := by
    cases mode <;> norm_num [RoundingMode.reach]
  have place : (10 : ℝ) ^ (0 - precision + 1 : Int) = 10 * (1 / 10 ^ precision) := by
    rw [zero_sub, zpow_add₀ (by norm_num), zpow_neg, zpow_natCast, zpow_one, mul_comm, one_div]
  rw [IsAccurate, leading]
  push_cast
  rw [place, abs_sub_comm, value_one, Rat.cast_one]
  have unit : (0 : ℝ) < 1 / 10 ^ precision := by positivity
  have distance : |t| ≤ 1 / 1000 * (1 / 10 ^ precision) := by
    rw [mul_one_div]
    exact (le_div_iff₀ (by positivity)).mpr near
  generalize (1 / 10 ^ precision : ℝ) = u at *
  calc |Real.exp t - 1| ≤ 2 * |t| := grows
    _ < 1 / 2 * (10 * u) := by linarith
    _ ≤ (mode.reach + 1 / 100) * (10 * u) := mul_le_mul_of_nonneg_right (by linarith) (by linarith)

/-- The exponential of what is near a number is accurate for that number. -/
theorem exp_of_near {t : ℝ} (least : exponentMin ≤ d.exponent) (filled : 0 < precision)
    (limited : precision ≤ 400000) (near : |(d.value : ℝ) - t| * 10 ^ precision ≤ 1 / 1000)
    (computed : d.exp precision mode = .ok r) :
    0 < r.value ∧ r.IsAccurate (1 / 100) mode precision (Real.exp t) := by
  by_cases zero : d.coefficient = 0
  · have given : d.exp precision mode = .ok one := if_pos (by simpa [isZero] using zero)
    obtain rfl := Except.ok.inj (given.symm.trans computed)
    rw [value_eq_zero_iff.mpr zero, Rat.cast_zero, zero_sub, abs_neg] at near
    exact ⟨value_one ▸ one_pos, one_isAccurate mode near⟩
  have small := adjusted_le_of_exp zero computed
  have size := places_le_of_adjusted_le small
  obtain ⟨enough, most⟩ := le_guarded precision
  obtain ⟨above, off⟩ := unroundedExp_near zero least size enough most
  obtain ⟨low, high⟩ := places_unroundedExp zero least size enough most
  rw [exp_eq zero least small] at computed
  split_ifs at computed
  obtain rfl := Except.ok.inj computed
  generalize unroundedExp d (guarded precision) = exact at *
  refine ⟨?_, isAccurate_round mode filled (value_eq_zero_iff.not.mp above.ne') low high
    (by norm_num) ?_⟩
  · rw [round_eq_roundFreely (roundsInside_of_places precision mode low high)]
    exact pos_of_mul_pos_right
      ((exact.roundsTo_roundFreely precision mode).mul_pos above.ne' filled) above.le
  · have above : (0 : ℝ) < exact.value := by exact_mod_cast above
    have units : (1 : ℝ) ≤ 10 ^ precision := one_le_pow₀ (by norm_num)
    have series : |(exact.value : ℝ) - Real.exp d.value| * 10 ^ precision ≤ 1 / 1000 * exact.value := by
      calc |(exact.value : ℝ) - Real.exp d.value| * 10 ^ precision
          ≤ 24 / 10 ^ guarded precision * exact.value * 10 ^ precision :=
            mul_le_mul_of_nonneg_right off (by linarith)
        _ = 24 / 10 ^ 12 * exact.value := by
            rw [guarded_eq (by omega), pow_add]
            field_simp
        _ ≤ 1 / 1000 * exact.value := mul_le_mul_of_nonneg_right (by norm_num) above.le
    have close := sub_exp_le units above near series
    rw [abs_of_pos above]
    push_cast
    exact close

/-! ## The product with the logarithm -/

/-- A product of something near, rounded, is near by a distance if it is not too large. -/
private theorem product_sub_le {d y log exact units : ℝ} (enough : 1000 ≤ units)
    (rounded : |d - y * log| * units ≤ 5 * |y * log|) (near : |log - exact| * units ≤ 21 * |exact|)
    (most : |d| ≤ 10 ^ 5) : |d - y * exact| * units ≤ 10 ^ 7 := by
  have scaled : |y * log - y * exact| * units ≤ 21 * |y * exact| := by
    calc |y * log - y * exact| * units = |y| * (|log - exact| * units) := by
          rw [← mul_sub, abs_mul, mul_assoc]
      _ ≤ |y| * (21 * |exact|) := mul_le_mul_of_nonneg_left near (abs_nonneg y)
      _ = 21 * |y * exact| := by
          rw [abs_mul]
          ring
  have whole (a : ℝ) : |a| * 1000 ≤ |a| * units := mul_le_mul_of_nonneg_left enough (abs_nonneg a)
  have first : |y * log| ≤ 2 * |y * exact| := by
    have step := abs_sub_abs_le_abs_sub (y * log) (y * exact)
    linarith [whole (y * log - y * exact), abs_nonneg (y * exact)]
  have both : |d - y * exact| * units ≤ 31 * |y * exact| := by
    calc |d - y * exact| * units ≤ (|d - y * log| + |y * log - y * exact|) * units :=
          mul_le_mul_of_nonneg_right (abs_sub_le _ _ _) (by linarith)
      _ ≤ 5 * |y * log| + 21 * |y * exact| := by
          rw [add_mul]
          exact add_le_add rounded scaled
      _ ≤ 31 * |y * exact| := by linarith
  have second : |y * exact| ≤ 2 * |d| := by
    have step := abs_sub_abs_le_abs_sub (y * exact) d
    rw [abs_sub_comm] at step
    linarith [whole (d - y * exact), abs_nonneg d]
  linarith

section Product

variable {a b : Decimal} {working : Nat} (size : d.coefficient ≠ 0 → d.adjusted ≤ expMaxAdjusted)

include size

private theorem abs_value_le : |d.value| ≤ 10 ^ 5 := by
  by_cases zero : d.coefficient = 0
  · rw [value_eq_zero_iff.mpr zero, abs_zero]
    positivity
  · have places := places_le_of_adjusted_le (size zero)
    refine (abs_value_bounds zero).2.le.trans ?_
    exact zpow_le_zpow_right₀ (by norm_num : (1 : ℚ) ≤ 10) (by omega : _ ≤ ((5 : Nat) : Int))

/-- No exponent was held back for a product below a hundred thousand. -/
private theorem value_eq_freeProduct (filled : 0 < working)
    (computed : roundedProduct a b working = .ok d) : d.value = (freeProduct working a b).value := by
  obtain ⟨-, rfl⟩ := eq_capped_of_roundedProduct filled computed
  by_cases zero : (freeProduct working a b).coefficient = 0
  · have none : (freeProduct working a b).capped.value = 0 := value_eq_zero_iff.mpr zero
    rw [none, value_eq_zero_iff.mpr zero]
  · have places := places_le_of_adjusted_le (size zero)
    rw [capped_eq_self]
    simp only [capped, exponentMax] at *
    omega

end Product

/-- The product with the logarithm is near by a distance that is small behind the digits asked for. -/
theorem product_with_ln_near {log : Decimal} (positive : 0 < x.coefficient) (fits : x.PlacesFit)
    (filled : 0 < precision) (limited : precision ≤ 400000)
    (taken : x.ln (guarded precision) .nearestEven = .ok log)
    (multiplied : roundedProduct y log (guarded precision) = .ok d)
    (size : d.coefficient ≠ 0 → d.adjusted ≤ expMaxAdjusted) :
    |(d.value : ℝ) - y.value * Real.log x.value| * 10 ^ precision ≤ 1 / 1000 := by
  have working := guarded_eq (limited.trans (by decide))
  have rounded := ((y.product log).roundsTo_roundFreely (guarded precision) .nearestEven)
  rw [← freeProduct, ← value_eq_freeProduct size (guarded_pos precision) multiplied,
    value_product] at rounded
  have off := rounded.abs_sub_mul_pow_le (guarded_pos precision)
  have five : (10 : ℝ) * RoundingMode.nearestEven.reach = 5 := by
    norm_num [RoundingMode.reach]
  have near : |(log.value : ℝ) - Real.log x.value| * 10 ^ guarded precision ≤
      21 * |Real.log x.value| := by
    by_cases unit : x.value = 1
    · obtain rfl := Except.ok.inj ((ln_of_value_eq_one unit).symm.trans taken)
      rw [unit, value_eq_zero_iff.mpr rfl]
      simp
    · exact ln_near positive fits unit (guarded_pos precision) (by omega) taken
  have most : |(d.value : ℝ)| ≤ 10 ^ 5 := by exact_mod_cast abs_value_le size
  have enough : (1000 : ℝ) ≤ 10 ^ guarded precision := by
    calc (1000 : ℝ) = 10 ^ 3 := by norm_num
      _ ≤ 10 ^ guarded precision := pow_le_pow_right₀ (by norm_num) (by omega)
  rw [five, Rat.cast_mul] at off
  have close := product_sub_le enough off near most
  rw [working, pow_add] at close
  linarith

/-! ## The power -/

/-- A power with an exponent that is no small integer, of a positive number: if it is given, it is
positive, and off from the real one by hardly more than the rounding at the last digit. -/
theorem fractional_power_accurate (mode : RoundingMode) (above : 0 < x.value) (fits : x.PlacesFit)
    (fractional : y.integral? = none) (filled : 0 < precision) (limited : precision ≤ 100000)
    (computed : x.power y precision mode = .ok r) :
    0 < r.value ∧ r.IsAccurate (1 / 100) mode precision ((x.value : ℝ) ^ (y.value : ℝ)) := by
  have positive := (zero_lt_value_iff x).mp above
  rw [power_of_integral_none fractional positive] at computed
  obtain ⟨log, taken, computed⟩ := exists_of_bind_eq_ok computed
  obtain ⟨product, multiplied, computed⟩ := exists_of_bind_eq_ok computed
  have real : (x.value : ℝ) ^ (y.value : ℝ) = Real.exp (y.value * Real.log x.value) := by
    rw [Real.rpow_def_of_pos (by exact_mod_cast above), mul_comm]
  rw [real]
  refine exp_of_near (exponentMin_le_roundedProduct multiplied) filled (by omega) ?_ computed
  exact product_with_ln_near positive fits filled (by omega) taken multiplied fun nonzero =>
    adjusted_le_of_exp nonzero computed

/-- The square root of two. -/
theorem fractional_power_accurate_root :
    let x : Decimal := ⟨2, 0⟩
    let y : Decimal := ⟨5, -1⟩
    0 < x.value ∧ x.PlacesFit ∧ y.integral? = none ∧ 0 < 9 ∧ 9 ≤ 100000 ∧
      x.power y 9 .nearestEven = .ok ⟨141421356, -8⟩ ∧ 0 < (⟨141421356, -8⟩ : Decimal).value ∧
      (⟨141421356, -8⟩ : Decimal).IsAccurate (1 / 100) .nearestEven 9
        ((x.value : ℝ) ^ (y.value : ℝ)) := by
  have computed : (⟨2, 0⟩ : Decimal).power ⟨5, -1⟩ 9 .nearestEven = .ok ⟨141421356, -8⟩ := by
    decide +kernel
  have above : 0 < (⟨2, 0⟩ : Decimal).value := (zero_lt_value_iff _).mpr (by decide)
  have fits : (⟨2, 0⟩ : Decimal).PlacesFit := ⟨by decide, by decide⟩
  have fractional : (⟨5, -1⟩ : Decimal).integral? = none := by decide
  obtain ⟨positive, accurate⟩ := fractional_power_accurate .nearestEven above fits fractional
    (by decide) (by decide) computed
  exact ⟨above, fits, fractional, by decide, by decide, computed, positive, accurate⟩

end DecimalConformance.Decimal
