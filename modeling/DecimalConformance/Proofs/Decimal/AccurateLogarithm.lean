import DecimalConformance.Proofs.Decimal.Accuracy
import DecimalConformance.Proofs.Decimal.SeriesDegrees
import DecimalConformance.Proofs.Decimal.StagedRounding
import Mathlib.Analysis.Complex.ExponentialBounds

/-! The logarithm is accurate.
What the series loses counts in units of a fixed place, so the size of the logarithm decides.  Far
from one it grows with the decade.  Next to one it is that of the distance, and as many digits more
are taken as the distance has zeros in front. -/
namespace DecimalConformance.Decimal

variable {x : Decimal}

/-! ## The size of a logarithm -/

private theorem log_ten_bounds : 2 ≤ Real.log 10 ∧ Real.log 10 ≤ 3 := by
  have least := Real.log_nonneg (by norm_num : (1 : ℝ) ≤ 5 / 4)
  have most := Real.log_le_sub_one_of_pos (by norm_num : (0 : ℝ) < 5 / 4)
  rw [log_ten_eq]
  constructor <;> linarith [Real.log_two_gt_d9, Real.log_two_lt_d9]

private theorem log_mul_pos {v : ℝ} (above : 0 < v) (other : v ≠ 1) : 0 < Real.log v * (v - 1) := by
  rcases lt_or_gt_of_ne other with below | beyond
  · exact mul_pos_of_neg_of_neg (Real.log_neg above below) (by linarith)
  · exact mul_pos (Real.log_pos beyond) (by linarith)

private theorem log_ne_zero (positive : 0 < x.coefficient) (other : x.value ≠ 1) :
    Real.log x.value ≠ 0 := by
  have sign := log_mul_pos (v := x.value) (by exact_mod_cast (zero_lt_value_iff x).mpr positive)
    (by exact_mod_cast other)
  exact (mul_ne_zero_iff.mp sign.ne').1

/-- Next to one a logarithm is of the size of the distance. -/
private theorem abs_sub_one_le {v : ℝ} (above : 0 < v) (most : v ≤ 10) :
    |v - 1| ≤ 10 * |Real.log v| := by
  rcases le_or_gt 1 v with beyond | below
  · have bound := Real.one_sub_inv_le_log_of_pos above
    have part : v - 1 ≤ 10 * (1 - v⁻¹) := by
      have whole : v - 1 = v * (1 - v⁻¹) := by
        rw [mul_sub, mul_one, mul_inv_cancel₀ above.ne']
      have least : 0 ≤ 1 - v⁻¹ := sub_nonneg.mpr (inv_le_one_of_one_le₀ beyond)
      rw [whole]
      exact mul_le_mul_of_nonneg_right most least
    rw [abs_of_nonneg (by linarith), abs_of_nonneg (Real.log_nonneg beyond)]
    linarith
  · have bound := Real.log_le_sub_one_of_pos above
    rw [abs_of_neg (by linarith), abs_of_neg (by linarith)]
    linarith

private theorem log_fraction_bounds (positive : 0 < x.coefficient) :
    -Real.log 10 ≤ Real.log x.fraction ∧ Real.log x.fraction ≤ 0 := by
  obtain ⟨least, most⟩ := fraction_bounds (x := x) (by omega)
  have least : (1 / 10 : ℝ) ≤ x.fraction := by simpa using (Rat.cast_le (K := ℝ)).mpr least
  have most : (x.fraction : ℝ) ≤ 1 := by exact_mod_cast most.le
  have tenth := Real.log_le_log (by norm_num) least
  rw [one_div, Real.log_inv] at tenth
  exact ⟨tenth, Real.log_nonpos (by linarith) most⟩

section Size

variable (positive : 0 < x.coefficient) (fits : x.PlacesFit)

include positive fits

/-- A logarithm is no more than three times the decade, rounded up. -/
private theorem abs_log_le : |Real.log x.value| ≤ 3 * (|(x.decade : ℝ)| + 1) := by
  obtain ⟨low, high⟩ := log_fraction_bounds positive
  obtain ⟨two, three⟩ := log_ten_bounds
  have tens : |(x.decade : ℝ) * Real.log 10| ≤ |(x.decade : ℝ)| * 3 := by
    rw [abs_mul, abs_of_nonneg (by linarith : (0 : ℝ) ≤ Real.log 10)]
    exact mul_le_mul_of_nonneg_left three (abs_nonneg _)
  obtain ⟨below, above⟩ := abs_le.mp tens
  rw [log_value positive fits]
  exact abs_le.mpr ⟨by linarith, by linarith⟩

/-- Away from one the decade alone makes the size of a logarithm. -/
private theorem le_abs_log_of_far (far : ¬ (x.decade = 0 ∨ x.decade = 1)) :
    (|(x.decade : ℝ)| + 1) / 20 ≤ |Real.log x.value| := by
  obtain ⟨low, high⟩ := log_fraction_bounds positive
  obtain ⟨two, three⟩ := log_ten_bounds
  rw [log_value positive fits]
  rcases Int.lt_or_le x.decade 0 with below | above
  · have decade : (x.decade : ℝ) ≤ -1 := by exact_mod_cast (by omega : x.decade ≤ -1)
    have bound : (x.decade : ℝ) * Real.log 10 ≤ x.decade * 2 :=
      mul_le_mul_of_nonpos_left two (by linarith)
    rw [abs_of_neg (by linarith), abs_of_neg (by linarith)]
    linarith
  · have decade : (2 : ℝ) ≤ x.decade := by exact_mod_cast (by omega : 2 ≤ x.decade)
    have bound : ((x.decade : ℝ) - 1) * 2 ≤ (x.decade - 1) * Real.log 10 :=
      mul_le_mul_of_nonneg_left two (by linarith)
    rw [abs_of_pos (by linarith), abs_of_nonneg (by linarith)]
    linarith

/-- Next to one, as many digits are cancelled as the distance has zeros in front. -/
private theorem le_abs_log_of_near (near : x.decade = 0 ∨ x.decade = 1) (other : x.value ≠ 1)
    (short : x.exponent.natAbs ≤ maxShift) :
    (min (x.sum one.neg).adjusted 0).natAbs ≤ maxShift ∧
      1 ≤ 10 * (10 ^ (min (x.sum one.neg).adjusted 0).natAbs * |Real.log x.value|) := by
  have above : 0 < x.value := (zero_lt_value_iff x).mpr positive
  have decade_eq := decade_eq_of_placesFit fits
  have most : x.value < 10 := by
    have bound := (abs_value_bounds (d := x) (by omega)).2
    rw [abs_of_pos above] at bound
    calc x.value < 10 ^ ((x.digits : Int) + x.exponent) := bound
      _ ≤ 10 ^ (1 : Int) := zpow_le_zpow_right₀ (by norm_num) (by omega)
      _ = 10 := by norm_num
  have distance : (x.sum one.neg).value = x.value - 1 := by
    rw [value_sum, value_neg]
    simp [value, one, sub_eq_add_neg]
  have nonzero : (x.sum one.neg).coefficient ≠ 0 := by
    rw [← value_eq_zero_iff.ne, distance]
    exact sub_ne_zero.mpr other
  have exponent : (x.sum one.neg).exponent = min x.exponent 0 := rfl
  obtain ⟨lead, -⟩ := abs_value_bounds nonzero
  have order := places_le 1 nonzero (by rw [distance, abs_lt]; constructor <;> linarith)
  have single := (x.sum one.neg).digits_pos
  obtain ⟨zeros, count⟩ : ∃ zeros : Nat, (x.sum one.neg).adjusted = -(zeros : Int) := by
    refine Int.eq_ofNat_of_zero_le (a := -(x.sum one.neg).adjusted) ?_ |>.imp fun _ h => by omega
    simp only [adjusted, saturate, exponentMin, exponentMax, maxShift] at *
    omega
  have places : (x.sum one.neg).digits - 1 + (x.sum one.neg).exponent = -(zeros : Int) := by
    simp only [adjusted, saturate, exponentMin, exponentMax, maxShift] at *
    omega
  have few : (min (-(zeros : Int)) 0).natAbs = zeros := by omega
  rw [count, few]
  refine ⟨by omega, ?_⟩
  have reached : (10 : ℝ) ^ (-(zeros : Int)) ≤ |(x.value : ℝ) - 1| := by
    rw [places, distance] at lead
    simpa using (Rat.cast_le (K := ℝ)).mpr lead
  have size := reached.trans (abs_sub_one_le (by exact_mod_cast above) (by exact_mod_cast most.le))
  rw [zpow_neg, zpow_natCast, inv_le_iff_one_le_mul₀ (by positivity)] at size
  linarith

end Size

/-! ## The logarithm -/

private theorem lnScale_bounds (fits : x.PlacesFit) {precision cancelled : Nat}
    (limited : precision ≤ 1000000) (few : cancelled ≤ maxShift) :
    13 + precision + cancelled ≤ lnScale x precision cancelled ∧
      lnScale x precision cancelled ≤ 3000000 := by
  have working := guarded_eq limited
  have decade : digitCount x.decade.natAbs ≤ 20 := by
    rw [digitCount_le_iff (by omega), decade_eq_of_placesFit fits]
    obtain ⟨lowest, leading⟩ := fits
    have single := x.digits_pos
    simp only [exponentMin, exponentMax] at *
    omega
  have single := digitCount_pos x.decade.natAbs
  rw [lnScale, working]
  simp only [maxShift] at few
  omega

/-- A number that is near another in proportion has its sign and its size. -/
private theorem near_spec {d exact units : ℝ} (whole : 1 ≤ units) (nonzero : exact ≠ 0)
    (near : |d - exact| * (1000 * units) ≤ |exact|) :
    |exact| ≤ 2 * |d| ∧ |d| ≤ 2 * |exact| ∧ 0 < d * exact ∧
      |d - exact| * units ≤ (1 / 100 : ℚ) * |d| := by
  have close : |d - exact| * 1000 ≤ |exact| := by
    refine le_trans (mul_le_mul_of_nonneg_left ?_ (abs_nonneg _)) near
    linarith
  obtain ⟨low, high⟩ := abs_le.mp (by linarith : |d - exact| ≤ |exact| / 1000)
  push_cast
  rcases lt_or_gt_of_ne nonzero with below | above
  · rw [abs_of_neg below] at low high near ⊢
    have negative : d < 0 := by linarith
    rw [abs_of_neg negative]
    exact ⟨by linarith, by linarith, mul_pos_of_neg_of_neg negative below, by linarith⟩
  · rw [abs_of_pos above] at low high near ⊢
    have positive : 0 < d := by linarith
    rw [abs_of_pos positive]
    exact ⟨by linarith, by linarith, mul_pos positive above, by linarith⟩

section Unrounded

variable {precision cancelled : Nat} (positive : 0 < x.coefficient) (fits : x.PlacesFit)
  (other : x.value ≠ 1) (taken : x.cancelledDigits = .ok cancelled)

include positive fits other taken

/-- The digits that are taken more make up for those that are cancelled. -/
private theorem le_abs_log : cancelled ≤ maxShift ∧
    |(x.decade : ℝ)| + 1 ≤ 20 * (10 ^ cancelled * |Real.log x.value|) := by
  rw [cancelledDigits_eq] at taken
  split_ifs at taken with near far
  · obtain rfl := Except.ok.inj taken
    obtain ⟨few, size⟩ := le_abs_log_of_near positive fits near other (not_lt.mp far)
    have decade : |(x.decade : ℝ)| ≤ 1 := by
      rcases near with zero | one
      · simp [zero]
      · simp [one]
    exact ⟨few, by linarith⟩
  · obtain rfl := Except.ok.inj taken
    have size := le_abs_log_of_far positive fits near
    exact ⟨Nat.zero_le _, by rw [pow_zero, one_mul]; linarith⟩

/-- All that is lost is little in proportion, behind the digits that are kept. -/
private theorem lnLoss_le (limited : precision ≤ 1000000) :
    (4 * seriesLoss (lnScale x precision cancelled) + 10) * (|(x.decade : ℝ)| + 1) *
        (1000 * 10 ^ precision) ≤
      (10 ^ lnScale x precision cancelled : Nat) * |Real.log x.value| := by
  obtain ⟨few, size⟩ := le_abs_log positive fits other taken
  obtain ⟨long, short⟩ := lnScale_bounds fits limited few
  have loss : (4 * seriesLoss (lnScale x precision cancelled) + 10 : ℝ) ≤ 5 * 10 ^ 8 := by
    have loss : 4 * seriesLoss (lnScale x precision cancelled) + 10 ≤ 5 * 10 ^ 8 := by
      simp only [seriesLoss]
      omega
    exact_mod_cast loss
  have places : (10 : ℝ) ^ 13 * 10 ^ precision * 10 ^ cancelled ≤
      (10 ^ lnScale x precision cancelled : Nat) := by
    rw [← pow_add, ← pow_add]
    push_cast
    exact pow_le_pow_right₀ (by norm_num) long
  calc (4 * seriesLoss (lnScale x precision cancelled) + 10) * (|(x.decade : ℝ)| + 1) *
        (1000 * 10 ^ precision)
      ≤ 5 * 10 ^ 8 * (20 * (10 ^ cancelled * |Real.log x.value|)) * (1000 * 10 ^ precision) := by
        gcongr
    _ = 10 ^ 13 * 10 ^ precision * 10 ^ cancelled * |Real.log x.value| := by ring
    _ ≤ (10 ^ lnScale x precision cancelled : Nat) * |Real.log x.value| :=
        mul_le_mul_of_nonneg_right places (abs_nonneg _)

/-- What is rounded last is near the logarithm in proportion, and has its sign and its size. -/
private theorem unroundedLn_near (limited : precision ≤ 1000000) :
    let d := unroundedLn x (lnScale x precision cancelled)
    |Real.log x.value| ≤ 2 * |(d.value : ℝ)| ∧ |(d.value : ℝ)| ≤ 2 * |Real.log x.value| ∧
      0 < (d.value : ℝ) * Real.log x.value ∧
      |(d.value : ℝ) - Real.log x.value| * 10 ^ precision ≤ (1 / 100 : ℚ) * |(d.value : ℝ)| := by
  obtain ⟨few, -⟩ := le_abs_log positive fits other taken
  obtain ⟨long, -⟩ := lnScale_bounds fits limited few
  have lost := abs_lnFixed_sub_le positive fits (by omega : 0 < lnScale x precision cancelled)
  have small := lnLoss_le positive fits other taken limited
  have nonzero := log_ne_zero positive other
  generalize lnScale x precision cancelled = scale at *
  generalize (4 * (seriesLoss scale : ℝ) + 10) * (|(x.decade : ℝ)| + 1) = loss at *
  have unit : (0 : ℝ) < (10 ^ scale : Nat) := by positivity
  refine near_spec (one_le_pow₀ (by norm_num)) nonzero ?_
  have scaled : (x.lnFixed scale : ℝ) / (10 ^ scale : Nat) - Real.log x.value =
      (x.lnFixed scale - (10 ^ scale : Nat) * Real.log x.value) / (10 ^ scale : Nat) := by
    rw [sub_div, mul_div_cancel_left₀ _ unit.ne']
  rw [unroundedLn, value_fixed, scaled, abs_div, abs_of_pos unit, div_mul_eq_mul_div,
    div_le_iff₀ unit]
  exact (mul_le_mul_of_nonneg_right lost (by positivity)).trans (small.trans_eq (mul_comm _ _))

/-- It has digits to spare. -/
private theorem lt_digits_unroundedLn (filled : 0 < precision) (limited : precision ≤ 1000000) :
    precision < (unroundedLn x (lnScale x precision cancelled)).digits := by
  have small := lnLoss_le positive fits other taken limited
  obtain ⟨size, -⟩ := unroundedLn_near positive fits other taken limited
  have least : (10 : ℝ) ≤
      (4 * seriesLoss (lnScale x precision cancelled) + 10) * (|(x.decade : ℝ)| + 1) := by
    have count := (seriesLoss (lnScale x precision cancelled)).cast_nonneg (α := ℝ)
    nlinarith [abs_nonneg (x.decade : ℝ)]
  generalize lnScale x precision cancelled = scale at *
  have unit : (0 : ℝ) < (10 ^ scale : Nat) := by positivity
  have units : (1 : ℝ) ≤ 10 ^ precision := one_le_pow₀ (by norm_num)
  rw [unroundedLn, value_fixed, abs_div, abs_of_pos unit, ← mul_div_assoc, le_div_iff₀ unit] at size
  have reached : (10 ^ precision : ℝ) ≤ |(x.lnFixed scale : ℝ)| := by nlinarith
  rw [← Int.cast_abs, ← Nat.cast_natAbs] at reached
  exact (lt_digitCount_iff filled).mpr (by exact_mod_cast reached)

/-- All its digits have their places in the range. -/
private theorem places_unroundedLn (limited : precision ≤ 1000000) :
    let d := unroundedLn x (lnScale x precision cancelled)
    exponentMin ≤ d.exponent ∧ d.exponent + d.digits ≤ exponentMax := by
  obtain ⟨few, -⟩ := le_abs_log positive fits other taken
  obtain ⟨-, short⟩ := lnScale_bounds fits limited few
  obtain ⟨-, size, sign, -⟩ :=
    unroundedLn_near positive fits other taken limited
  have nonzero : (unroundedLn x (lnScale x precision cancelled)).coefficient ≠ 0 := by
    rw [← value_eq_zero_iff.ne]
    exact_mod_cast (mul_ne_zero_iff.mp sign.ne').1
  have decade : |x.decade| ≤ 10 ^ 20 := by
    rw [decade_eq_of_placesFit fits]
    obtain ⟨lowest, leading⟩ := fits
    simp only [exponentMin, exponentMax] at lowest leading
    exact abs_le.mpr ⟨by omega, by omega⟩
  have decade : |(x.decade : ℝ)| ≤ 10 ^ 20 := by exact_mod_cast decade
  have most := abs_log_le positive fits
  have bound : |((unroundedLn x (lnScale x precision cancelled)).value : ℝ)| < 10 ^ 21 := by
    linarith
  have order := places_le 21 nonzero (by exact_mod_cast bound)
  refine ⟨?_, by simp only [exponentMax]; omega⟩
  simp only [unroundedLn, exponentMin]
  omega

end Unrounded

/-- A logarithm that is given has its digits, its sign and its accuracy. -/
private theorem ln_spec {precision : Nat} {mode : RoundingMode} {r : Decimal}
    (positive : 0 < x.coefficient) (fits : x.PlacesFit) (other : x.value ≠ 1)
    (filled : 0 < precision) (limited : precision ≤ 1000000)
    (computed : x.ln precision mode = .ok r) :
    r.digits = precision ∧ 0 < r.value * (x.value - 1) ∧
      r.IsAccurate (1 / 100) mode precision (Real.log x.value) := by
  have side := log_mul_pos (v := x.value) (by exact_mod_cast (zero_lt_value_iff x).mpr positive)
    (by exact_mod_cast other)
  rw [ln_eq positive other (limited.trans (by decide))] at computed
  cases taken : x.cancelledDigits with
  | error condition =>
    rw [taken] at computed
    cases computed
  | ok cancelled =>
    rw [taken] at computed
    obtain rfl : (unroundedLn x (lnScale x precision cancelled)).round precision mode = r :=
      Except.ok.inj computed
    have long := lt_digits_unroundedLn positive fits other taken filled limited
    obtain ⟨least, most⟩ := places_unroundedLn positive fits other taken limited
    obtain ⟨-, -, sign, near⟩ := unroundedLn_near positive fits other taken limited
    generalize unroundedLn x (lnScale x precision cancelled) = d at *
    have nonzero : d.value ≠ 0 := by exact_mod_cast (mul_ne_zero_iff.mp sign.ne').1
    refine ⟨digits_round_of_lt mode filled long, ?_,
      isAccurate_round mode filled (value_eq_zero_iff.not.mp nonzero) least most (by norm_num) near⟩
    rw [round_eq_roundFreely (roundsInside_of_places precision mode least most)]
    have kept := (d.roundsTo_roundFreely precision mode).mul_pos nonzero filled
    generalize d.roundFreely precision mode = r at *
    have kept : 0 < (d.value : ℝ) * r.value := by exact_mod_cast kept
    have square : 0 < ((d.value : ℝ) * Real.log x.value) ^ 2 := pow_pos sign 2
    have product : 0 < ((d.value : ℝ) * Real.log x.value) ^ 2 * (r.value * (x.value - 1)) := by
      calc 0 < (d.value * r.value) * (d.value * Real.log x.value) *
            (Real.log x.value * (x.value - 1)) := mul_pos (mul_pos kept sign) side
        _ = ((d.value : ℝ) * Real.log x.value) ^ 2 * (r.value * (x.value - 1)) := by ring
    exact_mod_cast (mul_pos_iff_of_pos_left square).mp product

/-- A logarithm that is given is near the real one in proportion. -/
theorem ln_near {precision : Nat} {mode : RoundingMode} {r : Decimal}
    (positive : 0 < x.coefficient) (fits : x.PlacesFit) (other : x.value ≠ 1)
    (filled : 0 < precision) (limited : precision ≤ 1000000)
    (computed : x.ln precision mode = .ok r) :
    |(r.value : ℝ) - Real.log x.value| * 10 ^ precision ≤ 21 * |Real.log x.value| := by
  rw [ln_eq positive other (limited.trans (by decide))] at computed
  obtain ⟨cancelled, taken, rfl⟩ := exists_of_map_eq_ok computed
  obtain ⟨least, most⟩ := places_unroundedLn positive fits other taken limited
  obtain ⟨-, size, -, near⟩ := unroundedLn_near positive fits other taken limited
  generalize unroundedLn x (lnScale x precision cancelled) = d at *
  rw [round_eq_roundFreely (roundsInside_of_places precision mode least most)]
  have off := (d.roundsTo_roundFreely precision mode).abs_sub_mul_pow_le filled
  have reach : (mode.reach : ℝ) ≤ 1 := by exact_mod_cast mode.reach_le_one
  generalize (d.roundFreely precision mode).value = rounded at *
  have unit : (0 : ℝ) < 10 ^ precision := by positivity
  calc |(rounded : ℝ) - Real.log x.value| * 10 ^ precision
      ≤ (|(rounded : ℝ) - d.value| + |(d.value : ℝ) - Real.log x.value|) * 10 ^ precision :=
        mul_le_mul_of_nonneg_right (abs_sub_le _ _ _) unit.le
    _ ≤ 10 * mode.reach * |(d.value : ℝ)| + (1 / 100 : ℚ) * |(d.value : ℝ)| := by
        rw [add_mul]
        exact add_le_add off near
    _ ≤ 10 * 1 * |(d.value : ℝ)| + 1 / 100 * |(d.value : ℝ)| := by
        push_cast
        gcongr
    _ ≤ 21 * |Real.log x.value| := by linarith [abs_nonneg (Real.log x.value)]

theorem exists_ln_iff {precision : Nat} {mode : RoundingMode} (positive : 0 < x.coefficient)
    (other : x.value ≠ 1) (limited : precision ≤ 1000000) :
    (∃ r, x.ln precision mode = .ok r) ↔
      ¬ ((x.decade = 0 ∨ x.decade = 1) ∧ maxShift < x.exponent.natAbs) := by
  rw [ln_eq positive other (limited.trans (by decide)), cancelledDigits_eq]
  split_ifs with near far
  · refine iff_of_false ?_ fun given => given ⟨near, far⟩
    rintro ⟨r, refused⟩
    cases refused
  · exact iff_of_true ⟨_, rfl⟩ fun refused => far refused.2
  · exact iff_of_true ⟨_, rfl⟩ fun refused => near refused.1

/-- A logarithm has all the digits asked for and the right sign, and is off from the real one by
hardly more than the rounding at the last digit.  It is refused only near one, where the distance is
too long.  That of one is zero, and a number that is not positive has none. -/
theorem ln_accurate {precision : Nat} (mode : RoundingMode) (fits : x.PlacesFit)
    (filled : 0 < precision) (limited : precision ≤ 1000000) :
    (0 < x.value → x.value ≠ 1 →
      (∀ r, x.ln precision mode = .ok r →
        r.digits = precision ∧ 0 < r.value * (x.value - 1) ∧
          r.IsAccurate (1 / 100) mode precision (Real.log x.value)) ∧
      ((∃ r, x.ln precision mode = .ok r) ↔
        ¬ ((x.decade = 0 ∨ x.decade = 1) ∧ maxShift < x.exponent.natAbs))) ∧
    (x.value = 1 → x.ln precision mode = .ok ⟨0, 0⟩) ∧
    (x.value ≤ 0 →
      x.ln precision mode = .error (.invalidOperation "logarithm of a non-positive number")) := by
  refine ⟨fun above other => ⟨?_, ?_⟩, ln_of_value_eq_one, ?_⟩
  · intro r computed
    exact ln_spec ((zero_lt_value_iff x).mp above) fits other filled limited computed
  · exact exists_ln_iff ((zero_lt_value_iff x).mp above) other limited
  · intro below
    have negative : x.coefficient ≤ 0 := not_lt.mp (mt (zero_lt_value_iff x).mpr (not_lt.mpr below))
    rw [ln, lnBy, if_pos negative, throw_eq_error]

/-- Just below one, where ten digits are cancelled. -/
theorem ln_accurate_below_one :
    let x : Decimal := ⟨9999999999, -10⟩
    x.PlacesFit ∧ 0 < 5 ∧ 5 ≤ 1000000 ∧ 0 < x.value ∧ x.value ≠ 1 ∧
      x.ln 5 .nearestEven = .ok ⟨-10000, -14⟩ ∧
      (⟨-10000, -14⟩ : Decimal).IsAccurate (1 / 100) .nearestEven 5 (Real.log x.value) := by
  have computed : (⟨9999999999, -10⟩ : Decimal).ln 5 .nearestEven = .ok ⟨-10000, -14⟩ := by
    decide +kernel
  have fits : (⟨9999999999, -10⟩ : Decimal).PlacesFit := ⟨by decide, by decide⟩
  have above : 0 < (⟨9999999999, -10⟩ : Decimal).value := (zero_lt_value_iff _).mpr (by decide)
  have other : (⟨9999999999, -10⟩ : Decimal).value ≠ 1 := by norm_num [value]
  obtain ⟨given, -⟩ := ln_accurate .nearestEven fits (by decide : 0 < 5) (by decide)
  obtain ⟨accurate, -⟩ := given above other
  exact ⟨fits, by decide, by decide, above, other, computed, (accurate _ computed).2.2⟩

end DecimalConformance.Decimal
