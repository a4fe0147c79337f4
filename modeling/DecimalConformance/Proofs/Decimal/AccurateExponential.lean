import DecimalConformance.Proofs.Decimal.Accuracy
import DecimalConformance.Proofs.Decimal.CorrectQuotient
import DecimalConformance.Proofs.Decimal.Exhaustion
import DecimalConformance.Proofs.Decimal.ExponentialSeries
import DecimalConformance.Proofs.Decimal.NumericOrder

/-! The exponential is accurate.
It is worked out with twelve digits more than are asked for, by a series, by the reciprocal of one
or by nudging the unit.  Each of the three comes so near to the real exponential that the result is
off by hardly more than its own rounding. -/
namespace DecimalConformance.Decimal

variable {x : Decimal} {precision working : Nat} {mode : RoundingMode}

/-- The exponential of the magnitude of `x`, rounded to the working precision. -/
def grown (x : Decimal) (working : Nat) : Decimal :=
  (x.expFixed working).round working .nearestEven

/-- What the exponential of `x` is before its last rounding. -/
def unroundedExp (x : Decimal) (working : Nat) : Decimal :=
  if x.adjusted < -((working : Int) + 2) then nearOne x working
  else if x.coefficient < 0 then
    (quotientAt one (grown x working) working).round working .nearestEven
  else grown x working

/-! ## The exponential of the magnitude -/

/-- Some units behind the working precision make a small part. -/
private theorem part_le {units : ℝ} (few : units ≤ 50) (enough : 2 ≤ working) :
    units / 10 ^ working ≤ 1 / 2 := by
  have hundred : (10 : ℝ) ^ 2 ≤ 10 ^ working := pow_le_pow_right₀ (by norm_num) enough
  rw [div_le_div_iff₀ (by positivity) (by norm_num)]
  linarith

/-- What rounding to the working precision changes, in proportion. -/
private theorem reach_nearestEven (working : Nat) :
    ((RoundingMode.nearestEven.reach * 10 ^ (1 - working : Int) : ℚ) : ℝ) = 5 / 10 ^ working := by
  rw [RoundingMode.reach, zpow_sub₀ (by norm_num), zpow_natCast]
  push_cast
  ring

section Magnitude

variable (least : exponentMin ≤ x.exponent) (size : x.exponent + x.digits ≤ 5)

include least size

private theorem places_expFixed (limited : working ≤ precisionMax) :
    exponentMin ≤ (x.expFixed working).exponent ∧
      (x.expFixed working).exponent + (x.expFixed working).digits ≤ 10 ^ 18 - 1 := by
  have long := digits_expFixed_le least size working
  have exponent := exponent_expFixed least size working
  simp only [precisionMax, exponentMin] at *
  omega

private theorem half_le_value_expFixed (enough : 2 ≤ working) (limited : working ≤ precisionMax) :
    1 / 2 ≤ ((x.expFixed working).value : ℝ) := by
  have below := (expFixed_bounds least size limited).1
  have lost : (2 : ℝ) / 10 ^ working ≤ 1 / 2 := part_le (by norm_num) enough
  nlinarith [Real.one_le_exp (abs_nonneg (x.value : ℝ))]

theorem lt_digits_expFixed (enough : 2 ≤ working) (limited : working ≤ precisionMax) :
    working < (x.expFixed working).digits := by
  have half := half_le_value_expFixed least size enough limited
  have exponent := exponent_expFixed least size working
  have reached : (10 : ℚ) ^ (-1 : Int) ≤ |(x.expFixed working).value| := by
    have half : (1 / 2 : ℚ) ≤ (x.expFixed working).value := by
      have half : ((1 / 2 : ℚ) : ℝ) ≤ ((x.expFixed working).value : ℝ) := by simpa using half
      exact_mod_cast half
    rw [zpow_neg_one]
    exact le_trans (by linarith) (le_abs_self _)
  have leading := le_adjusted reached (by simp only [exponentMax]; omega)
  simp only [adjusted, saturate, exponentMin, exponentMax] at leading
  omega

theorem digits_grown (enough : 2 ≤ working) (limited : working ≤ precisionMax) :
    (grown x working).digits = working :=
  digits_round_of_lt .nearestEven (by omega) (lt_digits_expFixed least size enough limited)

private theorem exponent_grown (enough : 2 ≤ working) (limited : working ≤ precisionMax) :
    -((working : Int) + 17) ≤ (grown x working).exponent ∧
      (grown x working).exponent ≤ 10 ^ 18 := by
  have places := places_expFixed least size limited
  have exponent := exponent_expFixed least size working
  have raised := exponent_round_le working .nearestEven places.1
  have kept := exponent_lt_exponent_round .nearestEven (by omega)
    (lt_digits_expFixed least size enough limited) places.1 (by simp only [exponentMax]; omega)
  rw [← grown] at raised kept
  omega

theorem grown_near (enough : 2 ≤ working) (limited : working ≤ precisionMax) :
    |((grown x working).value : ℝ) - Real.exp (|(x.value : ℝ)|)| ≤
      7 / 10 ^ working * Real.exp |(x.value : ℝ)| := by
  obtain ⟨below, above⟩ := expFixed_bounds least size limited
  have half := half_le_value_expFixed least size enough limited
  have places := places_expFixed least size limited
  have inside : (x.expFixed working).RoundsInside working .nearestEven :=
    roundsInside_of_places working .nearestEven places.1 (by simp only [exponentMax]; omega)
  have rounded := ((x.expFixed working).roundsTo_roundFreely working .nearestEven).abs_sub_le
    (by omega)
  rw [grown, round_eq_roundFreely inside]
  generalize (x.expFixed working).roundFreely working .nearestEven = result at *
  have rounded : |((x.expFixed working).value : ℝ) - result.value| ≤
      5 / 10 ^ working * |((x.expFixed working).value : ℝ)| := by
    rw [← reach_nearestEven]
    exact_mod_cast rounded
  rw [abs_of_nonneg (by linarith : (0 : ℝ) ≤ (x.expFixed working).value)] at rounded
  generalize ((x.expFixed working).value : ℝ) = f at *
  generalize Real.exp |(x.value : ℝ)| = e at *
  generalize (result.value : ℝ) = g at *
  have unit : (0 : ℝ) < 10 ^ working := by positivity
  have scaled : 5 / 10 ^ working * f ≤ 5 / 10 ^ working * e :=
    mul_le_mul_of_nonneg_left above (by positivity)
  have parts : 7 / 10 ^ working * e = 5 / 10 ^ working * e + 2 / 10 ^ working * e := by ring
  rw [parts]
  obtain ⟨left, right⟩ := abs_le.mp rounded
  exact abs_le.mpr ⟨by linarith, by linarith⟩

/-- In proportion to what it is itself. -/
private theorem grown_bounds (enough : 2 ≤ working) (limited : working ≤ precisionMax) :
    1 / 2 ≤ ((grown x working).value : ℝ) ∧
      |((grown x working).value : ℝ) - Real.exp (|(x.value : ℝ)|)| ≤
        14 / 10 ^ working * (grown x working).value := by
  have near := grown_near least size enough limited
  have lead := Real.one_le_exp (abs_nonneg (x.value : ℝ))
  generalize ((grown x working).value : ℝ) = g at *
  generalize Real.exp (|(x.value : ℝ)|) = e at *
  have part : (7 : ℝ) / 10 ^ working ≤ 1 / 2 := part_le (by norm_num) enough
  have off : 7 / 10 ^ working * e ≤ 1 / 2 * e := mul_le_mul_of_nonneg_right part (by linarith)
  obtain ⟨left, right⟩ := abs_le.mp near
  refine ⟨by linarith, near.trans ?_⟩
  calc 7 / 10 ^ working * e ≤ 7 / 10 ^ working * (2 * g) :=
        mul_le_mul_of_nonneg_left (by linarith) (by positivity)
    _ = 14 / 10 ^ working * g := by ring

end Magnitude

/-- The digits of a number up to four stand behind the first place. -/
private theorem places_le_one {d : Decimal} (above : 0 < d.value) (most : d.value ≤ 4) :
    d.exponent + d.digits ≤ 1 := by
  have nonzero : d.coefficient ≠ 0 := value_eq_zero_iff.not.mp above.ne'
  refine places_le 1 nonzero ?_
  rw [abs_of_pos above]
  exact lt_of_le_of_lt most (by norm_num)

/-- A reciprocal is as near, in proportion, as what it is the reciprocal of. -/
private theorem inverse_sub_le {g e part : ℝ} (positive : 0 < g) (positive' : 0 < e)
    (near : |g - e| ≤ part * e) : |1 / g - 1 / e| ≤ part * (1 / g) := by
  have difference : 1 / g - 1 / e = -(g - e) * (1 / g * (1 / e)) := by
    field_simp
    ring
  have inner : 0 < 1 / g * (1 / e) := mul_pos (one_div_pos.mpr positive) (one_div_pos.mpr positive')
  rw [difference, abs_mul, abs_neg, abs_of_pos inner]
  calc |g - e| * (1 / g * (1 / e)) ≤ part * e * (1 / g * (1 / e)) :=
        mul_le_mul_of_nonneg_right near inner.le
    _ = part * (1 / g) := by field_simp

/-! ## The reciprocal -/

section Reciprocal

variable (least : exponentMin ≤ x.exponent) (size : x.exponent + x.digits ≤ 5)
  (enough : 2 ≤ working) (limited : working ≤ precisionMax)

include least size enough limited

theorem grown_ne_zero : (grown x working).coefficient ≠ 0 := by
  intro zero
  have half := (grown_bounds least size enough limited).1
  rw [value_eq_zero_iff.mpr zero, Rat.cast_zero] at half
  linarith

private theorem shift_reciprocal : divisionShift one (grown x working) working = 2 * working := by
  rw [divisionShift, digits_grown least size enough limited, digits_one]
  omega

/-- The reciprocal of an exponential has places for all its digits. -/
private theorem exponent_reciprocal :
    exponentMin ≤ placeAt one (grown x working) working - 1 ∧
      one.exponent - (grown x working).exponent ≤ 10 ^ 18 := by
  have exponent := exponent_grown least size enough limited
  have lowest : one.exponent = 0 := rfl
  rw [placeAt, shift_reciprocal least size enough limited, lowest]
  simp only [precisionMax, exponentMin] at *
  omega

/-- A reciprocal is refused only for the length of the shift. -/
private theorem reciprocal_eq :
    one.divide (grown x working) working .nearestEven =
      if maxShift < 2 * working then .error .overflow
      else .ok ((quotientAt one (grown x working) working).round working .nearestEven) := by
  have places := exponent_reciprocal least size enough limited
  have exponent := exponent_grown least size enough limited
  have fits : ExponentFits (one.exponent - (grown x working).exponent) := by
    simp only [ExponentFits, placeAt, exponentMin, exponentMax] at *
    omega
  have room : ¬ Exhausts one (grown x working) working := fun exhausted => by
    have lowest := exhausted.2.2
    omega
  have reached : OutOfReach one (grown x working) working ↔ maxShift < 2 * working := by
    have one_ne_zero : one.coefficient ≠ 0 := by decide
    have above : ¬ placeAt one (grown x working) working < exponentMin := by omega
    simp [OutOfReach, one_ne_zero, above, shift_reciprocal least size enough limited]
  have refused : ¬ ExponentFits (one.exponent - (grown x working).exponent) ∨
      OutOfReach one (grown x working) working ↔ maxShift < 2 * working := by
    rw [reached]
    exact or_iff_right (not_not.mpr fits)
  rw [divide_eq .nearestEven (grown_ne_zero least size enough limited), if_neg room]
  simp only [refused]

private theorem reciprocal_near :
    let result := (quotientAt one (grown x working) working).roundFreely working .nearestEven
    0 < result.value ∧ result.value ≤ 4 ∧
      |(result.value : ℝ) - Real.exp (-|(x.value : ℝ)|)| ≤ 24 / 10 ^ working * result.value := by
  dsimp only
  have half := (grown_bounds least size enough limited).1
  have near := grown_near least size enough limited
  have positive : 0 < working := by omega
  have correct := (correctlyRounded_quotientAt (a := one) .nearestEven
    (grown_ne_zero least size enough limited) positive).abs_sub_le positive
  generalize (quotientAt one (grown x working) working).roundFreely working .nearestEven =
    result at *
  have rounded : |1 / ((grown x working).value : ℝ) - result.value| ≤
      5 / 10 ^ working * |1 / ((grown x working).value : ℝ)| := by
    rw [← reach_nearestEven]
    rw [value_one] at correct
    exact_mod_cast correct
  rw [Real.exp_neg, ← one_div]
  have lead := Real.one_le_exp (abs_nonneg (x.value : ℝ))
  generalize Real.exp (|(x.value : ℝ)|) = e at *
  generalize ((grown x working).value : ℝ) = g at *
  have part : (5 : ℝ) / 10 ^ working ≤ 1 / 2 := part_le (by norm_num) enough
  have above : 0 < 1 / g := one_div_pos.mpr (by linarith)
  have most : 1 / g ≤ 2 := by
    rw [div_le_iff₀ (by linarith)]
    linarith
  rw [abs_of_pos above] at rounded
  have off : 5 / 10 ^ working * (1 / g) ≤ 1 / 2 * (1 / g) :=
    mul_le_mul_of_nonneg_right part above.le
  have turned := inverse_sub_le (by linarith) (by linarith) near
  obtain ⟨low, high⟩ := abs_le.mp rounded
  have reached : 1 / g ≤ 2 * (result.value : ℝ) := by linarith
  refine ⟨?_, ?_, ?_⟩
  · have positive : (0 : ℝ) < result.value := by linarith
    exact_mod_cast positive
  · have most : (result.value : ℝ) ≤ 4 := by linarith
    exact_mod_cast most
  · calc |(result.value : ℝ) - 1 / e| ≤ |(result.value : ℝ) - 1 / g| + |1 / g - 1 / e| :=
          abs_sub_le _ _ _
      _ ≤ 5 / 10 ^ working * (1 / g) + 7 / 10 ^ working * (1 / g) := by
          rw [abs_sub_comm]
          exact add_le_add rounded turned
      _ = 12 / 10 ^ working * (1 / g) := by ring
      _ ≤ 12 / 10 ^ working * (2 * result.value) :=
          mul_le_mul_of_nonneg_left reached (by positivity)
      _ = 24 / 10 ^ working * result.value := by ring

private theorem round_reciprocal :
    (quotientAt one (grown x working) working).round working .nearestEven =
      (quotientAt one (grown x working) working).roundFreely working .nearestEven := by
  obtain ⟨above, most, -⟩ := reciprocal_near least size enough limited
  have exponent := exponent_reciprocal least size enough limited
  have lowest := placeAt_sub_one_le one (grown x working) working
  refine round_eq_roundFreely ⟨by omega, ?_⟩
  have top := places_le_one above most
  simp only [exponentMax]
  omega

end Reciprocal

/-! ## The nudged unit -/

private theorem nearOne_near (nonzero : x.coefficient ≠ 0) (least : exponentMin ≤ x.exponent)
    (tiny : x.adjusted < -((working : Int) + 2)) :
    0 < (nearOne x working).value ∧ (nearOne x working).value ≤ 4 ∧
      |((nearOne x working).value : ℝ) - Real.exp x.value| ≤
        24 / 10 ^ working * (nearOne x working).value := by
  obtain ⟨nudge, size, value_eq⟩ : ∃ nudge : ℝ, |nudge| = 1 ∧
      ((nearOne x working).value : ℝ) = 1 + nudge * (1 / 10 ^ (working + 3)) := by
    obtain ⟨nudge, size, nudged⟩ : ∃ nudge : Int, |nudge| = 1 ∧
        nearOne x working = ⟨10 ^ (working + 3) + nudge, -((working + 3 : Nat) : Int)⟩ :=
      ⟨if x.isNegative then -1 else 1, by split <;> rfl, rfl⟩
    refine ⟨nudge, by exact_mod_cast size, ?_⟩
    rw [nudged, value_fixed]
    push_cast
    field_simp
  have close : |(x.value : ℝ)| ≤ 10 * (1 / 10 ^ (working + 3)) := by
    have places : (x.digits : Int) + x.exponent ≤ -((working : Int) + 2) := by
      simp only [adjusted, saturate, exponentMin, exponentMax] at *
      omega
    have below := (abs_value_bounds nonzero).2.le.trans
      (zpow_le_zpow_right₀ (by norm_num : (1 : ℚ) ≤ 10) places)
    have power : (10 : ℝ) ^ (-((working : Int) + 2)) = 10 * (1 / 10 ^ (working + 3)) := by
      rw [zpow_neg, inv_eq_one_div, ← mul_div_assoc, div_eq_div_iff (by positivity) (by positivity),
        one_mul]
      norm_cast
      rw [mul_one, ← pow_succ']
    rw [← power]
    simpa using (Rat.cast_le (K := ℝ)).mpr below
  have part : 24 / 10 ^ working = 24000 * (1 / 10 ^ (working + 3) : ℝ) := by
    rw [pow_add]
    field_simp
    norm_num
  have tiny : 1 / 10 ^ (working + 3) ≤ (1 / 1000 : ℝ) := by
    refine one_div_le_one_div_of_le (by norm_num) ?_
    calc (1000 : ℝ) = 10 ^ 3 := by norm_num
      _ ≤ 10 ^ (working + 3) := pow_le_pow_right₀ (by norm_num) (by omega)
  have unit : (0 : ℝ) < 1 / 10 ^ (working + 3) := by positivity
  rw [part]
  generalize (1 / 10 ^ (working + 3) : ℝ) = t at *
  have grows := Real.abs_exp_sub_one_le (close.trans (by linarith))
  obtain ⟨low, high⟩ := abs_le.mp grows
  have nudged : |nudge * t| = t := by rw [abs_mul, size, one_mul, abs_of_pos unit]
  obtain ⟨below, above⟩ := abs_le.mp nudged.le
  have least : 9 / 10 ≤ ((nearOne x working).value : ℝ) := by linarith
  refine ⟨?_, ?_, ?_⟩
  · have positive : (0 : ℝ) < (nearOne x working).value := by linarith
    exact_mod_cast positive
  · have most : ((nearOne x working).value : ℝ) ≤ 4 := by linarith
    exact_mod_cast most
  · have room : 21 * t ≤ 24000 * t * (nearOne x working).value := by nlinarith
    exact abs_le.mpr ⟨by linarith, by linarith⟩

/-! ## The exponential -/

section Unrounded

variable (nonzero : x.coefficient ≠ 0) (least : exponentMin ≤ x.exponent)
  (size : x.exponent + x.digits ≤ 5) (enough : 2 ≤ working) (limited : working ≤ precisionMax)

include nonzero least size enough limited

theorem unroundedExp_near :
    0 < (unroundedExp x working).value ∧
      |((unroundedExp x working).value : ℝ) - Real.exp x.value| ≤
        24 / 10 ^ working * (unroundedExp x working).value := by
  unfold unroundedExp
  split_ifs with tiny negative
  · obtain ⟨above, -, near⟩ := nearOne_near nonzero least tiny
    exact ⟨above, near⟩
  · rw [round_reciprocal least size enough limited]
    obtain ⟨above, -, near⟩ := reciprocal_near least size enough limited
    have below : (x.value : ℝ) < 0 := by exact_mod_cast (value_lt_zero_iff x).mpr negative
    rw [abs_of_neg below, neg_neg] at near
    exact ⟨above, near⟩
  · obtain ⟨half, near⟩ := grown_bounds least size enough limited
    have above : (0 : ℝ) < (grown x working).value := by linarith
    have positive : (0 : ℝ) ≤ x.value := by
      exact_mod_cast not_lt.mp ((value_lt_zero_iff x).not.mpr negative)
    rw [abs_of_nonneg positive] at near
    refine ⟨by exact_mod_cast above, near.trans ?_⟩
    exact mul_le_mul_of_nonneg_right
      (div_le_div_of_nonneg_right (by norm_num) (by positivity)) above.le

/-- Every digit of the exponential has its place in the range. -/
theorem places_unroundedExp :
    exponentMin ≤ (unroundedExp x working).exponent ∧
      (unroundedExp x working).exponent + (unroundedExp x working).digits ≤ exponentMax := by
  unfold unroundedExp
  split_ifs with tiny negative
  · obtain ⟨above, most, -⟩ := nearOne_near nonzero least tiny
    have top := places_le_one above most
    refine ⟨?_, by simp only [exponentMax]; omega⟩
    simp only [nearOne, precisionMax, exponentMin] at *
    omega
  · obtain ⟨above, most, -⟩ := reciprocal_near least size enough limited
    have exponent := exponent_reciprocal least size enough limited
    have lowest := placeAt_sub_one_le one (grown x working) working
    refine ⟨exponentMin_le_round working .nearestEven (by omega), ?_⟩
    rw [round_reciprocal least size enough limited]
    have top := places_le_one above most
    simp only [exponentMax]
    omega
  · have exponent := exponent_grown least size enough limited
    rw [digits_grown least size enough limited]
    simp only [precisionMax, exponentMin, exponentMax] at *
    omega

end Unrounded

theorem le_guarded (precision : Nat) :
    2 ≤ guarded precision ∧ guarded precision ≤ precisionMax := by
  simp only [guarded, guardDigits, precisionMax]
  omega

/-- An exponential is given of arguments below a hundred thousand alone. -/
theorem adjusted_le_of_exp {r : Decimal} (nonzero : x.coefficient ≠ 0)
    (computed : x.exp precision mode = .ok r) : x.adjusted ≤ expMaxAdjusted := by
  have filled : ¬ x.isZero := by simpa [isZero] using nonzero
  by_contra large
  rw [exp, expBy, if_neg filled, Steps.engine_exponent, pure_bind, if_pos (not_le.mp large)] at computed
  cases computed

/-- An exponential that is not too large is refused only where a reciprocal is. -/
theorem exp_eq (nonzero : x.coefficient ≠ 0) (least : exponentMin ≤ x.exponent)
    (small : x.adjusted ≤ expMaxAdjusted) :
    x.exp precision mode =
      if -((guarded precision : Int) + 2) ≤ x.adjusted ∧ x.coefficient < 0 ∧
          maxShift < 2 * guarded precision then .error .overflow
      else .ok ((unroundedExp x (guarded precision)).round precision mode) := by
  obtain ⟨enough, limited⟩ := le_guarded precision
  have filled : ¬ x.isZero := by simpa [isZero] using nonzero
  have series := expFixedBy_engine least (places_le_of_adjusted_le small) limited
  simp only [exp, expBy, Steps.engine_exponent, divideBy_engine, series, pure_bind, ok_bind,
    if_neg filled, if_neg (not_lt.mpr small), unroundedExp]
  by_cases tiny : x.adjusted < -((guarded precision : Int) + 2)
  · rw [if_pos tiny, if_pos tiny, if_neg (fun near => absurd tiny (not_lt.mpr near.1)),
      pure_eq_ok]
  · rw [if_neg tiny, if_neg tiny]
    by_cases negative : x.coefficient < 0
    · have sign : x.isNegative := by simpa [isNegative] using negative
      have reciprocal := reciprocal_eq least (places_le_of_adjusted_le small) enough limited
      rw [grown] at reciprocal
      rw [if_pos sign, if_pos negative, reciprocal, grown]
      simp only [negative, not_lt.mp tiny, true_and]
      split <;> rfl
    · have sign : ¬ x.isNegative := by simpa [isNegative] using negative
      rw [if_neg sign, if_neg negative, if_neg (fun near => negative near.2.1)]
      rfl

/-- The exponential of a number below a hundred thousand is positive, and off from the real one by
hardly more than the rounding at the last digit. -/
theorem exp_accurate (mode : RoundingMode) (nonzero : x.coefficient ≠ 0)
    (least : exponentMin ≤ x.exponent) (small : x.adjusted ≤ 4) (positive : 0 < precision)
    (limited : precision ≤ 400000) :
    ∃ r, x.exp precision mode = .ok r ∧ 0 < r.value ∧
      r.IsAccurate (1 / 100) mode precision (Real.exp x.value) := by
  obtain ⟨enough, most⟩ := le_guarded precision
  have size := places_le_of_adjusted_le small
  have working := guarded_eq (limited.trans (by decide))
  have near := unroundedExp_near nonzero least size enough most
  have places := places_unroundedExp nonzero least size enough most
  rw [exp_eq nonzero least small, if_neg (by simp only [maxShift]; omega)]
  generalize unroundedExp x (guarded precision) = exact at *
  refine ⟨_, rfl, ?_, ?_⟩
  · rw [round_eq_roundFreely (roundsInside_of_places precision mode places.1 places.2)]
    exact pos_of_mul_pos_right
      ((exact.roundsTo_roundFreely precision mode).mul_pos near.1.ne' positive) near.1.le
  · refine isAccurate_round mode positive (value_eq_zero_iff.not.mp near.1.ne') places.1 places.2
      (by norm_num) ?_
    have above : (0 : ℝ) < exact.value := by exact_mod_cast near.1
    have unit : (0 : ℝ) < 10 ^ precision := by positivity
    rw [abs_of_pos above]
    calc |(exact.value : ℝ) - Real.exp x.value| * 10 ^ precision
        ≤ 24 / 10 ^ guarded precision * exact.value * 10 ^ precision :=
          mul_le_mul_of_nonneg_right near.2 unit.le
      _ = 24 / 10 ^ 12 * exact.value := by
          rw [working, pow_add]
          field_simp
      _ ≤ (1 / 100 : ℚ) * exact.value := by
          refine mul_le_mul_of_nonneg_right ?_ above.le
          norm_num

/-- The largest argument below zero, at the longest precision. -/
theorem exp_accurate_largest :
    let x : Decimal := ⟨-99999, 0⟩
    x.coefficient ≠ 0 ∧ exponentMin ≤ x.exponent ∧ x.adjusted ≤ 4 ∧
      ∃ r, x.exp 400000 .towardZero = .ok r ∧ 0 < r.value ∧
        r.IsAccurate (1 / 100) .towardZero 400000 (Real.exp x.value) :=
  ⟨by decide, by decide, by decide,
    exp_accurate .towardZero (by decide) (by decide) (by decide) (by decide) (by decide)⟩

end DecimalConformance.Decimal
