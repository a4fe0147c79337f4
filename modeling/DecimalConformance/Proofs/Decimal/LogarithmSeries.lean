import DecimalConformance.Proofs.Decimal.HyperbolicSeries
import DecimalConformance.Proofs.Decimal.NumericOrder
import DecimalConformance.Proofs.Decimal.Storage

/-! The logarithm in fixed point.
Three logarithms come from one series: that of two, that of ten and that of the mantissa, which is
doubled up to one half first.  What they lose is counted together, once for every decade. -/
namespace DecimalConformance.Decimal

variable {x : Decimal} {scale : Nat}

/-! ## The mantissa -/

/-- The coefficient behind the point. -/
def fraction (x : Decimal) : ℚ := x.coefficient.natAbs / 10 ^ x.digits

theorem abs_value_eq_fraction (x : Decimal) :
    |x.value| = x.fraction * 10 ^ (x.exponent + x.digits) := by
  rw [abs_value, fraction, zpow_add₀ (by norm_num), zpow_natCast]
  field_simp

theorem fraction_bounds (nonzero : x.coefficient ≠ 0) : 1 / 10 ≤ x.fraction ∧ x.fraction < 1 := by
  have one := x.digits_pos
  have lead := pow_digitCount_sub_le (Int.natAbs_pos.mpr nonzero)
  have most := lt_pow_digitCount x.coefficient.natAbs
  rw [← digits] at lead most
  have unit : (0 : ℚ) < 10 ^ x.digits := by positivity
  constructor
  · rw [fraction, div_le_div_iff₀ (by norm_num) unit]
    have whole : 1 * 10 ^ x.digits ≤ x.coefficient.natAbs * 10 := by
      rw [Nat.one_mul, ← Nat.pow_pred_mul one]
      exact Nat.mul_le_mul_right 10 lead
    exact_mod_cast whole
  · rw [fraction, div_lt_one unit]
    exact_mod_cast most

theorem mantissa_eq_floor (x : Decimal) (scale : Nat) :
    x.mantissa scale = ⌊(10 ^ scale : Nat) * (x.fraction : ℝ)⌋₊ := by
  rw [mantissa, fraction]
  split_ifs with short
  · have whole : ((10 ^ scale : Nat) * ((x.coefficient.natAbs / 10 ^ x.digits : ℚ) : ℝ)) =
        (x.coefficient.natAbs * Nat.pow 10 (scale - x.digits) : Nat) := by
      obtain ⟨more, rfl⟩ := Nat.exists_eq_add_of_le short
      rw [Nat.add_sub_cancel_left, Nat.pow_eq, Nat.pow_add]
      push_cast
      field_simp
    rw [whole, Nat.floor_natCast]
  · have whole : ((10 ^ scale : Nat) * ((x.coefficient.natAbs / 10 ^ x.digits : ℚ) : ℝ)) =
        x.coefficient.natAbs / (Nat.pow 10 (x.digits - scale) : Nat) := by
      obtain ⟨more, digits⟩ := Nat.exists_eq_add_of_lt (not_le.mp short)
      have less : scale + more + 1 - scale = more + 1 := by omega
      rw [digits, Nat.pow_eq, less, Nat.add_assoc, pow_add]
      push_cast
      field_simp
    rw [whole, Nat.floor_div_eq_div]

theorem isCut_mantissa (x : Decimal) (scale : Nat) :
    IsCut ((10 ^ scale : Nat) * (x.fraction : ℝ)) 1 (x.mantissa scale) := by
  rw [mantissa_eq_floor]
  exact isCut_floor (mul_nonneg (by positivity) (by simp only [fraction]; positivity))

theorem mantissa_bounds (nonzero : x.coefficient ≠ 0) (positive : 0 < scale) :
    10 ^ scale ≤ 10 * x.mantissa scale ∧ x.mantissa scale < 10 ^ scale := by
  obtain ⟨least, most⟩ := fraction_bounds nonzero
  have unit : (0 : ℝ) < (10 ^ scale : Nat) := by positivity
  constructor
  · have reached : 10 ^ (scale - 1) ≤ x.mantissa scale := by
      rw [mantissa_eq_floor]
      apply Nat.le_floor
      have least : (1 / 10 : ℝ) ≤ x.fraction := by simpa using (Rat.cast_le (K := ℝ)).mpr least
      calc ((10 ^ (scale - 1) : Nat) : ℝ) = (10 ^ scale : Nat) * (1 / 10) := by
            rw [← Nat.pow_pred_mul positive]
            push_cast
            field_simp
        _ ≤ (10 ^ scale : Nat) * (x.fraction : ℝ) := mul_le_mul_of_nonneg_left least unit.le
    rw [← Nat.pow_pred_mul positive, Nat.mul_comm]
    exact Nat.mul_le_mul_left 10 reached
  · have below := (isCut_mantissa x scale).le
    have most : (x.fraction : ℝ) < 1 := by exact_mod_cast most
    have small : (x.mantissa scale : ℝ) < (10 ^ scale : Nat) := by nlinarith
    exact_mod_cast small

/-! ## Doubling -/

/-- A number below twice the bound is doubled into the range from the bound to its double. -/
theorem doubled_spec {bound n : Nat} (positive : 0 < n) (short : n < 2 * bound) :
    (doubled bound n).2 = 2 ^ (doubled bound n).1 * n ∧
      bound ≤ (doubled bound n).2 ∧ (doubled bound n).2 < 2 * bound := by
  induction gap : bound - n using Nat.strongRecOn generalizing n with
  | ind gap ih =>
    rw [doubled]
    split_ifs with below
    · obtain ⟨power, least, most⟩ := ih (bound - 2 * n) (by omega) (by omega) (by omega) rfl
      refine ⟨?_, least, most⟩
      dsimp only
      rw [power, Nat.pow_succ, Nat.mul_assoc]
    · refine ⟨by simp, ?_, short⟩
      dsimp only
      omega

theorem doubled_times_le {bound n k : Nat} (positive : 0 < n) (short : n < 2 * bound)
    (reach : bound ≤ 2 ^ k * n) : (doubled bound n).1 ≤ k := by
  obtain ⟨power, -, most⟩ := doubled_spec positive short
  have order : 2 ^ (doubled bound n).1 * n < 2 ^ (k + 1) * n := by
    rw [← power, Nat.pow_succ', Nat.mul_assoc]
    omega
  have less := (Nat.pow_lt_pow_iff_right (by omega)).mp (Nat.lt_of_mul_lt_mul_right order)
  omega

/-! ## The three logarithms -/

/-- Units that a logarithm from the series may be off by. -/
def seriesLoss (scale : Nat) : Nat := 20 * scale + 16

/-- Twice an inverse hyperbolic tangent is the logarithm of a quotient. -/
private theorem isCut_log {w quotient : ℝ} {z : Nat} (positive : 0 < scale) (least : 0 ≤ w)
    (most : w ≤ 1 / 3) (quotient_eq : (1 + w) / (1 - w) = quotient)
    (cut : IsCut ((10 ^ scale : Nat) * w) 1 z) :
    IsCut ((10 ^ scale : Nat) * Real.log quotient) (seriesLoss scale)
      (2 * atanh z (10 ^ scale)) := by
  have short : 10 ^ scale < 8 ^ (2 * scale) := by
    rw [Nat.pow_mul]
    exact Nat.pow_lt_pow_left (by norm_num) positive.ne'
  have series := (isCut_atanh (by positivity) most cut short).mul_left 2
  have whole : (2 : Nat) * ((10 ^ scale : Nat) * Real.artanh w) =
      (10 ^ scale : Nat) * Real.log quotient := by
    rw [Real.artanh_eq_half_log ⟨by linarith, by linarith⟩, quotient_eq]
    push_cast
    ring
  have loss : ((2 : Nat) : ℝ) * (5 * (2 * scale : Nat) + 8) = seriesLoss scale := by
    rw [seriesLoss]
    push_cast
    ring
  rwa [whole, loss] at series

private theorem isCut_unit_div (scale divisor : Nat) :
    IsCut ((10 ^ scale : Nat) * (1 / divisor : ℝ)) 1 (10 ^ scale / divisor) := by
  rw [mul_one_div]
  exact isCut_div _ _

private theorem isCut_log_two (positive : 0 < scale) :
    IsCut ((10 ^ scale : Nat) * Real.log 2) (seriesLoss scale)
      (2 * atanh (10 ^ scale / 3) (10 ^ scale)) :=
  isCut_log positive (by norm_num) le_rfl (by norm_num) (by exact_mod_cast isCut_unit_div scale 3)

theorem log_ten_eq : Real.log 10 = 3 * Real.log 2 + Real.log (5 / 4) := by
  have product : (10 : ℝ) = 2 ^ 3 * (5 / 4) := by norm_num
  rw [product, Real.log_mul (by norm_num) (by norm_num), Real.log_pow]
  push_cast
  ring

private theorem isCut_log_ten (positive : 0 < scale) :
    IsCut ((10 ^ scale : Nat) * Real.log 10) (4 * seriesLoss scale)
      (3 * (2 * atanh (10 ^ scale / 3) (10 ^ scale)) +
        2 * atanh (10 ^ scale / 9) (10 ^ scale)) := by
  have quarter : IsCut ((10 ^ scale : Nat) * Real.log (5 / 4)) (seriesLoss scale)
      (2 * atanh (10 ^ scale / 9) (10 ^ scale)) :=
    isCut_log (w := 1 / 9) positive (by norm_num) (by norm_num) (by norm_num)
      (by exact_mod_cast isCut_unit_div scale 9)
  have sum := ((isCut_log_two positive).mul_left 3).add quarter
  have whole : ((3 : Nat) : ℝ) * ((10 ^ scale : Nat) * Real.log 2) +
      (10 ^ scale : Nat) * Real.log (5 / 4) = (10 ^ scale : Nat) * Real.log 10 := by
    rw [log_ten_eq]
    push_cast
    ring
  rw [whole] at sum
  exact sum.mono (by push_cast; linarith)

/-- The logarithm of a number that has been doubled up to one half. -/
private theorem isCut_log_doubled {m : Nat} (positive : 0 < scale) (least : 10 ^ scale ≤ 2 * m)
    (most : m ≤ 10 ^ scale) :
    IsCut ((10 ^ scale : Nat) * Real.log ((10 ^ scale : Nat) / m)) (seriesLoss scale)
      (2 * atanh ((10 ^ scale - m) * 10 ^ scale / (m + 10 ^ scale)) (10 ^ scale)) := by
  have unit : (0 : ℝ) < (10 ^ scale : Nat) := by positivity
  have half : ((10 ^ scale : Nat) : ℝ) ≤ 2 * m := by exact_mod_cast least
  have whole : (m : ℝ) ≤ (10 ^ scale : Nat) := by exact_mod_cast most
  have argument := isCut_div ((10 ^ scale - m) * 10 ^ scale) (m + 10 ^ scale)
  rw [Nat.cast_mul, Nat.cast_sub most, Nat.cast_add] at argument
  refine isCut_log (w := ((10 ^ scale : Nat) - m) / (m + (10 ^ scale : Nat))) positive
    (div_nonneg (by linarith) (by linarith)) ?_ ?_ ?_
  · rw [div_le_iff₀ (by linarith)]
    linarith
  · have sum : (m : ℝ) + (10 ^ scale : Nat) ≠ 0 := by linarith
    have above : 1 + (((10 ^ scale : Nat) : ℝ) - m) / (m + (10 ^ scale : Nat)) =
        2 * (10 ^ scale : Nat) / (m + (10 ^ scale : Nat)) := by
      rw [eq_div_iff sum, add_mul, div_mul_cancel₀ _ sum]
      ring
    have below : 1 - (((10 ^ scale : Nat) : ℝ) - m) / (m + (10 ^ scale : Nat)) =
        2 * m / (m + (10 ^ scale : Nat)) := by
      rw [eq_div_iff sum, sub_mul, div_mul_cancel₀ _ sum]
      ring
    rw [above, below, div_div_div_cancel_right₀ sum, mul_div_mul_left _ _ two_ne_zero]
  · rw [← mul_div_assoc, mul_comm]
    exact argument

/-! ## The sum of the logarithms -/

/-- Cutting off the mantissa moves its logarithm by less than ten units. -/
private theorem log_fraction_sub_le (nonzero : x.coefficient ≠ 0) (positive : 0 < scale) :
    0 ≤ Real.log x.fraction - Real.log (x.mantissa scale / (10 ^ scale : Nat)) ∧
      (10 ^ scale : Nat) *
        (Real.log x.fraction - Real.log (x.mantissa scale / (10 ^ scale : Nat))) ≤ 10 := by
  have unit : (0 : ℝ) < (10 ^ scale : Nat) := by positivity
  obtain ⟨least, -⟩ := mantissa_bounds nonzero positive
  have cut := isCut_mantissa x scale
  have tenth : ((10 ^ scale : Nat) : ℝ) ≤ 10 * x.mantissa scale := by exact_mod_cast least
  have filled : (0 : ℝ) < x.fraction := by
    exact_mod_cast lt_of_lt_of_le (by norm_num) (fraction_bounds nonzero).1
  obtain ⟨below, above⟩ := cut
  generalize (x.mantissa scale : ℝ) = m at *
  generalize (x.fraction : ℝ) = f at *
  generalize ((10 ^ scale : Nat) : ℝ) = one at *
  have positive : 0 < m := by linarith
  have quotient : Real.log f - Real.log (m / one) = Real.log (one * f / m) := by
    rw [← Real.log_div filled.ne' (div_pos positive unit).ne', div_div_eq_mul_div, mul_comm f]
  have reached : 1 ≤ one * f / m := by
    rw [le_div_iff₀ positive]
    linarith
  have close : one * f / m - 1 ≤ 1 / m := by
    rw [sub_le_iff_le_add, div_le_iff₀ positive, add_mul, div_mul_cancel₀ _ positive.ne']
    linarith
  rw [quotient]
  refine ⟨Real.log_nonneg reached, ?_⟩
  calc one * Real.log (one * f / m) ≤ one * (1 / m) :=
        mul_le_mul_of_nonneg_left
          ((Real.log_le_sub_one_of_pos (by linarith)).trans close) unit.le
    _ ≤ 10 := by
        rw [mul_one_div, div_le_iff₀ positive]
        exact tenth

private theorem lnFixed_eq (x : Decimal) (scale : Nat) :
    x.lnFixed scale =
      ((3 * (2 * atanh (10 ^ scale / 3) (10 ^ scale)) + 2 * atanh (10 ^ scale / 9) (10 ^ scale) :
          Nat) : Int) * x.decade -
        (2 * atanh (10 ^ scale / 3) (10 ^ scale) : Nat) *
          ((doubled (10 ^ scale / 2) (x.mantissa scale)).1 : Nat) -
        (2 * atanh ((10 ^ scale - (doubled (10 ^ scale / 2) (x.mantissa scale)).2) * 10 ^ scale /
          ((doubled (10 ^ scale / 2) (x.mantissa scale)).2 + 10 ^ scale)) (10 ^ scale) : Nat) := by
  rfl

theorem decade_eq_of_placesFit (fits : x.PlacesFit) : x.decade = x.exponent + x.digits := by
  obtain ⟨lowest, leading⟩ := fits
  have one := x.digits_pos
  simp only [decade, saturate, exponentMin, exponentMax] at *
  omega

/-- A logarithm is that of the fraction, and the decade times that of ten. -/
theorem log_value (positive : 0 < x.coefficient) (fits : x.PlacesFit) :
    Real.log x.value = x.decade * Real.log 10 + Real.log x.fraction := by
  have nonzero : x.coefficient ≠ 0 := by omega
  have filled : (0 : ℝ) < x.fraction := by
    exact_mod_cast lt_of_lt_of_le (by norm_num) (fraction_bounds nonzero).1
  have parts : (x.value : ℝ) = x.fraction * 10 ^ x.decade := by
    have size := abs_value_eq_fraction x
    rw [abs_of_pos ((zero_lt_value_iff x).mpr positive), ← decade_eq_of_placesFit fits] at size
    rw [size]
    push_cast
    rfl
  rw [parts, Real.log_mul filled.ne' (by positivity), Real.log_zpow, add_comm]

/-- Three logarithms are put together, and what each of them loses. -/
private theorem abs_sum_sub_le {one two ten rest fraction : ℝ} {loss ln2 ln10 last times : Nat}
    {decade : Int} (cutTwo : IsCut (one * two) loss ln2)
    (cutTen : IsCut (one * ten) (4 * loss) ln10) (cutRest : IsCut (one * rest) loss last)
    (few : times ≤ 3)
    (least : 0 ≤ fraction - (-rest - times * two))
    (most : one * (fraction - (-rest - times * two)) ≤ 10) (unit : 0 < one) :
    |((ln10 * decade - ln2 * times - last : Int) : ℝ) - one * (decade * ten + fraction)| ≤
      (4 * loss + 10) * (|(decade : ℝ)| + 1) := by
  have few : (times : ℝ) ≤ 3 := by exact_mod_cast few
  obtain ⟨belowTwo, aboveTwo⟩ := cutTwo
  obtain ⟨belowTen, aboveTen⟩ := cutTen
  obtain ⟨belowRest, aboveRest⟩ := cutRest
  have moved := mul_nonneg unit.le least
  have tens : |(decade : ℝ) * (one * ten - ln10)| ≤ |(decade : ℝ)| * (4 * loss) := by
    rw [abs_mul, abs_of_nonneg (sub_nonneg.mpr belowTen)]
    exact mul_le_mul_of_nonneg_left (by linarith) (abs_nonneg _)
  have twos : times * (one * two - ln2) ≤ 3 * loss :=
    mul_le_mul few (by linarith) (sub_nonneg.mpr belowTwo) (by norm_num)
  have twos' : 0 ≤ times * (one * two - ln2) :=
    mul_nonneg times.cast_nonneg (sub_nonneg.mpr belowTwo)
  obtain ⟨low, high⟩ := abs_le.mp tens
  have size := abs_nonneg (decade : ℝ)
  have count := loss.cast_nonneg (α := ℝ)
  push_cast
  refine abs_le.mpr ⟨?_, ?_⟩ <;> nlinarith

/-- What the logarithm in fixed point is off by. -/
theorem abs_lnFixed_sub_le (positive : 0 < x.coefficient) (fits : x.PlacesFit)
    (filled : 0 < scale) :
    |(x.lnFixed scale : ℝ) - (10 ^ scale : Nat) * Real.log x.value| ≤
      (4 * seriesLoss scale + 10) * (|(x.decade : ℝ)| + 1) := by
  have nonzero : x.coefficient ≠ 0 := by omega
  obtain ⟨least, most⟩ := mantissa_bounds nonzero filled
  obtain ⟨lost, bounded⟩ := log_fraction_sub_le nonzero filled
  have half : 10 ^ scale / 2 * 2 = 10 ^ scale :=
    Nat.div_mul_cancel (dvd_pow (by norm_num) filled.ne')
  have some : 0 < x.mantissa scale := by omega
  have short : x.mantissa scale < 2 * (10 ^ scale / 2) := by omega
  have times := doubled_times_le (k := 3) some short (by omega)
  obtain ⟨power, reached, below⟩ := doubled_spec some short
  rw [lnFixed_eq]
  generalize doubled (10 ^ scale / 2) (x.mantissa scale) = result at *
  obtain ⟨t, m⟩ := result
  dsimp only at *
  have two := isCut_log_two filled
  have ten := isCut_log_ten filled
  have rest := isCut_log_doubled (m := m) filled (by omega) (by omega)
  have split : Real.log (x.mantissa scale / (10 ^ scale : Nat)) =
      -Real.log ((10 ^ scale : Nat) / m) - t * Real.log 2 := by
    have unit : (0 : ℝ) < (10 ^ scale : Nat) := by positivity
    have part : (0 : ℝ) < x.mantissa scale := by exact_mod_cast (by omega : 0 < x.mantissa scale)
    have doubling : (m : ℝ) = 2 ^ t * x.mantissa scale := by exact_mod_cast power
    rw [doubling, Real.log_div part.ne' unit.ne', Real.log_div unit.ne' (by positivity),
      Real.log_mul (by positivity) part.ne', Real.log_pow]
    ring
  rw [split] at lost bounded
  rw [log_value positive fits]
  exact abs_sum_sub_le two ten rest times lost bounded (by positivity)

end DecimalConformance.Decimal
