import DecimalConformance.Proofs.Decimal.CorrectQuotient
import DecimalConformance.Proofs.Decimal.RepeatedSquaring
import Mathlib.Data.Rat.Cast.CharZero

/-! Integral powers are accurate, and exact where they are short.
As many digits more are carried as there are digits in the exponent, and two.  Each factor costs no more
than one rounding and a reciprocal another one, so that all of them together stay a tenth of a unit behind
the digits asked for. -/
namespace DecimalConformance.Decimal

variable {x y r raised result : Decimal} {n : Int} {precision working total : Nat}
  {mode : RoundingMode}

/-! ## The steps of a power -/

/-- An exponent that is a small integer is recognised, however it is written. -/
theorem integral?_of_value_eq (whole : y.value = n) (small : n.natAbs ≤ maxIntegralPower) :
    y.integral? = some n := by
  by_cases zero : y.coefficient = 0
  · have none : n = 0 := by
      rw [value_eq_zero_iff.mpr zero] at whole
      exact_mod_cast whole.symm
    rw [integral?_def]
    exact none ▸ if_pos (by simpa [isZero] using zero)
  have nonzero : ¬ y.isZero := by simpa [isZero] using zero
  have kept : smallInteger n = some n := if_pos small
  obtain ⟨least, most⟩ := abs_value_lead zero
  have ten : (1 : ℚ) < 10 := by norm_num
  have single := y.digits_pos
  rw [integral?_def, if_neg nonzero, ← kept]
  rcases Int.lt_or_le y.exponent 0 with below | above
  · have scaled : y.coefficient = n * 10 ^ y.exponent.natAbs := by
      have place : y.exponent = -(y.exponent.natAbs : Int) := by omega
      rw [value, place, zpow_neg, zpow_natCast, ← div_eq_mul_inv, div_eq_iff (by positivity)] at whole
      exact_mod_cast whole
    -- An integer other than zero reaches one.
    have reached : (10 : ℚ) ^ (0 : Int) < 10 ^ (y.lead + 1) := by
      have integer : n ≠ 0 := by
        rintro rfl
        rw [zero_mul] at scaled
        exact zero scaled
      rw [zpow_zero]
      refine lt_of_le_of_lt ?_ most
      rw [whole]
      exact_mod_cast Int.one_le_abs integer
    have leading := (zpow_lt_zpow_iff_right₀ ten).mp reached
    rw [lead] at leading
    have power : ((Nat.pow 10 y.exponent.natAbs : Nat) : Int) = 10 ^ y.exponent.natAbs := Int.natCast_pow ..
    have unit : (10 : Int) ^ y.exponent.natAbs ≠ 0 := pow_ne_zero _ (by decide)
    rw [if_neg (by omega), if_neg (by omega), power, scaled, Int.mul_tmod_left, if_pos rfl,
      Int.mul_tdiv_cancel _ unit]
  · have scaled : y.coefficient * 10 ^ y.exponent.toNat = n := by
      rw [value_eq_shifted above, shifted, zpow_zero, mul_one, sub_zero] at whole
      exact_mod_cast whole
    have bounded : (10 : ℚ) ^ y.lead < 10 ^ (9 : Int) := by
      refine least.trans_lt ?_
      rw [whole, ← Int.cast_abs, ← Nat.cast_natAbs]
      have small : (n.natAbs : ℚ) ≤ 999999999 := by exact_mod_cast small
      exact small.trans_lt (by norm_num)
    have leading := (zpow_lt_zpow_iff_right₀ ten).mp bounded
    have near : ¬ 9 < y.adjusted := by
      simp only [adjusted, saturate, lead, exponentMin, exponentMax] at *
      omega
    have power : ((Nat.pow 10 y.exponent.toNat : Nat) : Int) = 10 ^ y.exponent.toNat := Int.natCast_pow ..
    rw [if_pos above, if_neg near, power, scaled]

/-- What is made of a raised power: its reciprocal where the exponent is negative. -/
def IsTurned (working : Nat) (n : Int) (raised result : Decimal) : Prop :=
  if n < 0 then one.divide raised working .nearestEven = .ok result else result = raised

/-- What is done for a power with a small integral exponent. -/
theorem steps_of_power (nonzero : x.coefficient ≠ 0) (whole : y.value = n) (proper : n ≠ 0)
    (small : n.natAbs ≤ maxIntegralPower) (computed : x.power y precision mode = .ok r) :
    ∃ raised, raise (powerPrecision n.natAbs precision) one x n.natAbs = .ok raised ∧
      ∃ result, IsTurned (powerPrecision n.natAbs precision) n raised result ∧
        r = result.round precision mode := by
  have base : ¬ (x.isZero ∧ n < 0) := fun undefined => by
    simp [isZero, nonzero] at undefined
  rw [power_of_integral (integral?_of_value_eq whole small), integralPower, integralPowerBy,
    if_neg proper, if_neg base] at computed
  dsimp only at computed
  rw [ofExcept_self] at computed
  obtain ⟨raised, given, computed⟩ := exists_of_bind_eq_ok computed
  refine ⟨raised, given, ?_⟩
  by_cases negative : n < 0
  · rw [if_pos negative] at computed
    obtain ⟨result, inverted, rounded⟩ := exists_of_bind_eq_ok computed
    exact ⟨result, by rwa [IsTurned, if_pos negative], (Except.ok.inj rounded).symm⟩
  · rw [if_neg negative] at computed
    exact ⟨raised, by rw [IsTurned, if_neg negative], (Except.ok.inj computed).symm⟩

/-- A reciprocal is given of nothing that reaches the largest exponent, so of nothing that was held
back there. -/
theorem reciprocal_spec {d : Decimal} (filled : 0 < working)
    (inverted : one.divide d working .nearestEven = .ok result) :
    d.exponent < exponentMax ∧ -d.exponent ≤ exponentMax ∧ exponentMin ≤ result.exponent ∧
      ∃ quotient : Decimal, result = quotient.capped ∧
        CorrectlyRounded .nearestEven working (-d.exponent) d.value⁻¹ quotient := by
  obtain ⟨divisor, fits, least, rounded⟩ := eq_round_of_divide inverted
  have ideal : one.exponent - d.exponent = -d.exponent := zero_sub _
  have correct := correctlyRounded_quotientAt (a := one) .nearestEven divisor filled
  rw [ideal, value_one, one_div] at correct
  rw [divide_eq .nearestEven divisor, ideal] at inverted
  rw [ideal] at fits
  split_ifs at inverted with refused
  refine ⟨?_, fits.2, ?_, _, ?_, correct⟩
  · have reached : exponentMin ≤ placeAt one d working := by
      by_contra low
      exact refused (.inr ⟨by decide, .inr (not_le.mp low)⟩)
    have single := d.digits_pos
    rw [placeAt, ideal, divisionShift, digits_one] at reached
    simp only [exponentMin, exponentMax] at *
    omega
  · rw [rounded]
    exact exponentMin_le_round working .nearestEven least
  · rw [rounded]
    exact round_eq_capped .nearestEven filled
      ⟨least, quotientAt_exponent_le.trans (ideal.trans_le fits.2)⟩

/-! ## Short powers of the coefficient -/

/-- Nothing is rounded where the power of the coefficient is short. -/
theorem raise_eq_powered (filled : 0 < working) (nonzero : x.coefficient ≠ 0) (positive : 0 < total)
    (short : (x.powered total).digits ≤ working) (computed : raise working one x total = .ok raised) :
    raised = x.powered total := by
  have exact {i j : Nat} {product : Decimal} (within : i + j ≤ total)
      (computed : roundedProduct (x.powered i) (x.powered j) working = .ok product) :
      product = x.powered (i + j) := by
    obtain ⟨fits, rfl⟩ := eq_capped_of_roundedProduct filled computed
    rw [← powered_add] at fits
    rw [freeProduct, ← powered_add, roundFreely,
      if_pos (.inr ((digits_powered_le nonzero within).trans short)), capped_eq_self fits.2]
  refine raise_induction (P := fun i acc => acc = x.powered i) (Q := fun j base => base = x.powered j)
    ?_ ?_ positive Nat.zero_lt_one (by omega) x.powered_zero.symm x.powered_one.symm computed
  · rintro i j acc base product - within rfl rfl multiplied
    exact exact within multiplied
  · rintro j base product within rfl squared
    exact exact within squared

/-- Only units have integral powers below zero. -/
theorem eq_inverse_of_zpow_neg {c b : Int} {m : Nat} (nonzero : b ≠ 0)
    (power : (c : ℚ) = (b : ℚ) ^ (-(m : Int))) : c * b ^ m = 1 ∧ c = b ^ m := by
  have unit : c * b ^ m = 1 := by
    have nonzero : (b : ℚ) ^ m ≠ 0 := pow_ne_zero _ (by exact_mod_cast nonzero)
    rw [zpow_neg, zpow_natCast, ← mul_eq_one_iff_eq_inv₀ nonzero] at power
    exact_mod_cast power
  exact ⟨unit, Int.eq_of_mul_eq_one unit⟩

/-- A unit is inverted without a rounding. -/
theorem divide_one_of_unit {c : Int} {exponent : Int} (filled : 0 < working) (unit : c * c = 1)
    (inverted : one.divide ⟨c, exponent⟩ working .nearestEven = .ok result) :
    result = ⟨c, -exponent⟩ := by
  obtain ⟨-, most, -, quotient, rfl, correct⟩ := reciprocal_spec filled inverted
  have inverse : (⟨c, -exponent⟩ : Decimal).value = (⟨c, exponent⟩ : Decimal).value⁻¹ := by
    have self : (c : ℚ)⁻¹ = c := inv_eq_of_mul_eq_one_right (by exact_mod_cast unit)
    rw [value, value, mul_inv, self, zpow_neg]
  have form : IsIdealForm (-exponent) (⟨c, exponent⟩ : Decimal).value⁻¹ ⟨c, -exponent⟩ := by
    rw [← inverse]
    exact isIdealForm_of_last (K := ℚ) (d := ⟨c, -exponent⟩) le_rfl (.inl rfl)
  have single : (⟨c, -exponent⟩ : Decimal).digits = 1 := by
    rw [digits, Int.isUnit_iff_natAbs_eq.mp (.of_mul_eq_one c unit)]
    decide
  rw [correct.exact _ form (single.trans_le filled)]
  exact capped_eq_self most

/-- A short power of the coefficient is given as it is. -/
theorem result_of_short (filled : 0 < working) (nonzero : x.coefficient ≠ 0) (proper : n ≠ 0)
    (raising : raise working one x n.natAbs = .ok raised)
    (turned : IsTurned working n raised result)
    {c : Int} (power : (c : ℚ) = (x.coefficient : ℚ) ^ n) (short : digitCount c.natAbs ≤ working) :
    result = ⟨c, n * x.exponent⟩ := by
  have raised_eq (same : x.coefficient ^ n.natAbs = c) : raised = ⟨c, n.natAbs * x.exponent⟩ := by
    subst same
    exact raise_eq_powered filled nonzero (Int.natAbs_pos.mpr proper) short raising
  rcases Int.lt_or_le n 0 with negative | positive
  · obtain ⟨m, rfl⟩ : ∃ m : Nat, n = -(m : Int) := ⟨n.natAbs, by omega⟩
    rw [Int.natAbs_neg, Int.natAbs_natCast] at raised_eq
    obtain ⟨unit, same⟩ := eq_inverse_of_zpow_neg nonzero power
    rw [IsTurned, if_pos negative, raised_eq same.symm] at turned
    rw [← same] at unit
    rw [divide_one_of_unit filled unit turned, neg_mul]
  · obtain ⟨m, rfl⟩ : ∃ m : Nat, n = m := ⟨n.natAbs, by omega⟩
    rw [Int.natAbs_natCast] at raised_eq
    rw [zpow_natCast] at power
    rw [IsTurned, if_neg (by omega)] at turned
    rw [turned, raised_eq (by exact_mod_cast power.symm)]

/-! ## All roundings together -/

private theorem powerPrecision_eq {m : Nat} (small : m ≤ maxIntegralPower)
    (limited : precision ≤ 1000000) : powerPrecision m precision = precision + digitCount m + 2 := by
  have few : digitCount m ≤ 9 := (digitCount_le_iff (by omega)).mpr (Nat.lt_succ_of_le small)
  simp only [powerPrecision, precisionMax]
  omega

/-- What is rounded last is near the power, and equal to it if that is short, but for an exponent that is
held back. -/
theorem near_of_steps (filled : 0 < working) (limited : working ≤ precisionMax)
    (nonzero : x.coefficient ≠ 0) (most : x.exponent ≤ exponentMax) (proper : n ≠ 0)
    (small : n.natAbs ≤ maxIntegralPower) (raising : raise working one x n.natAbs = .ok raised)
    (turned : IsTurned working n raised result) :
    ∃ d : Decimal, result = d.capped ∧ exponentMin ≤ result.exponent ∧
      IsNear working (n.natAbs + 1) (x.value ^ n) d.value ∧
      (0 < n → IsShort working (x.value ^ n) → d.value = x.value ^ n) := by
  obtain ⟨d, roundings, rfl, power, few, -, least⟩ :=
    isAccumulated_raise filled limited nonzero most small (Int.natAbs_pos.mpr proper) raising
  have near := power.isNear filled nonzero
  by_cases negative : n < 0
  · rw [IsTurned, if_pos negative] at turned
    obtain ⟨inside, -, least, quotient, rfl, correct⟩ := reciprocal_spec filled turned
    have whole : d.capped = d := by
      refine capped_eq_self ?_
      simp only [capped] at inside
      omega
    rw [whole] at correct
    have inverse : x.value ^ n = (x.value ^ n.natAbs)⁻¹ := by
      rw [← zpow_natCast, ← zpow_neg]
      congr 1
      omega
    have rounded : IsNear working 1 d.value⁻¹ quotient.value :=
      .of_abs_sub_le filled (inv_ne_zero near.ne_zero) (correct.abs_sub_le filled)
    refine ⟨quotient, rfl, least, ?_, fun positive => absurd positive (by omega)⟩
    rw [inverse]
    exact (near.inv.trans filled rounded).mono filled (by omega)
  · rw [IsTurned, if_neg negative] at turned
    subst turned
    have same : x.value ^ n = x.value ^ n.natAbs := by
      rw [← zpow_natCast]
      congr 1
      omega
    rw [same]
    exact ⟨d, rfl, least, near.mono filled (by omega), fun _ short => power.value_eq nonzero short⟩

/-- The digits that are carried more make up for one rounding with each factor and another one. -/
private theorem tenth_of_isNear {m : Nat} {v z : ℚ}
    (near : IsNear (precision + digitCount m + 2) (m + 1) v z) :
    |(z : ℝ) - (v : ℝ)| * 10 ^ precision ≤ (1 / 10 : ℚ) * |(z : ℝ)| := by
  have unit : (0 : ℚ) < 10 ^ precision := by positivity
  have all : ((m + 1 : Nat) : ℚ) * (5 / 10 ^ (precision + digitCount m + 2)) ≤
      1 / (20 * 10 ^ precision) := by
    have count : ((m + 1 : Nat) : ℚ) ≤ 10 ^ digitCount m := by exact_mod_cast lt_pow_digitCount m
    rw [pow_add, pow_add, mul_div_assoc', div_le_div_iff₀ (by positivity) (by positivity)]
    linarith [mul_le_mul_of_nonneg_left count unit.le]
  have little : 1 / (20 * 10 ^ precision) ≤ (1 / 2 : ℚ) := by
    have whole : (1 : ℚ) ≤ 10 ^ precision := one_le_pow₀ (by norm_num)
    rw [div_le_div_iff₀ (by positivity) (by norm_num)]
    linarith
  have off := mul_le_mul_of_nonneg_right (near.abs_sub_le (by omega) all little) unit.le
  have part : 2 * (1 / (20 * 10 ^ precision)) * |z| * 10 ^ precision = 1 / 10 * |z| := by
    field_simp
    ring
  rw [part] at off
  exact_mod_cast off

/-- Where the digits of a rounded decimal have places in the range, so had those before. -/
theorem places_of_round {d : Decimal} (filled : 0 < precision) (fits : ExponentFits d.exponent)
    (inside : (d.round precision mode).exponent + (d.round precision mode).digits ≤ exponentMax) :
    d.exponent + d.digits ≤ exponentMax := by
  rw [round_eq_capped mode filled fits, digits_capped] at inside
  have single := (d.roundFreely precision mode).digits_pos
  have leading := (lead_roundFreely d mode filled).1
  simp only [capped, lead] at *
  omega

/-- An integral power that is given, of anything but zero.  Where the power of the coefficient is short
enough, the result is that coefficient at the exponent to match.  A power that is short once its zeros at
the end are left out is exact, but for an exponent that is held back, if the integer is positive.  In any
case the result is off by hardly more than the rounding at the last digit.  Since exponents are held back
at the largest one alone, none was where all digits of the result have places in the range. -/
theorem integral_power_accurate (mode : RoundingMode) (nonzero : x.coefficient ≠ 0)
    (most : x.exponent ≤ exponentMax) (whole : y.value = n) (proper : n ≠ 0)
    (small : n.natAbs ≤ maxIntegralPower) (filled : 0 < precision) (limited : precision ≤ 1000000)
    (computed : x.power y precision mode = .ok r) :
    (∀ c : Int, (c : ℚ) = (x.coefficient : ℚ) ^ n → digitCount c.natAbs ≤ precision →
      r = ⟨c, n * x.exponent⟩) ∧
    (0 < n → IsShort precision (x.value ^ n) → ∃ d : Decimal, d.value = x.value ^ n ∧ r = d.capped) ∧
    (r.exponent + r.digits ≤ exponentMax →
      r.IsAccurate (1 / 10) mode precision (x.value ^ n : ℚ)) := by
  obtain ⟨raised, raising, result, turned, rfl⟩ :=
    steps_of_power nonzero whole proper small computed
  rw [powerPrecision_eq small limited] at raising turned
  have enough : 0 < precision + digitCount n.natAbs + 2 := by omega
  have wider : precision ≤ precision + digitCount n.natAbs + 2 := by omega
  refine ⟨?_, ?_⟩
  · intro c power short
    rw [result_of_short enough nonzero proper raising turned power (short.trans wider)]
    exact round_of_digits_le mode short
  · have limited' : precision + digitCount n.natAbs + 2 ≤ precisionMax := by
      rw [← powerPrecision_eq small limited]
      exact min_le_left _ _
    obtain ⟨d, rfl, least, near, exact⟩ :=
      near_of_steps enough limited' nonzero most proper small raising turned
    have fits : ExponentFits d.capped.exponent := ⟨least, min_le_left _ _⟩
    constructor
    · intro positive short
      have same := exact positive (short.mono wider)
      rw [← same] at short ⊢
      refine ⟨d.roundFreely precision mode, short.value_roundFreely mode, ?_⟩
      rw [round_eq_capped mode filled fits, capped_roundFreely_capped]
    · intro inside
      have places := places_of_round filled fits inside
      have free : d.capped = d := by
        have single := d.digits_pos
        refine capped_eq_self ?_
        rw [digits_capped] at places
        simp only [capped] at places
        omega
      rw [free] at least places ⊢
      exact isAccurate_round mode filled (value_eq_zero_iff.not.mp near.ne_zero) least places
        (by norm_num) (tenth_of_isNear near)

/-- One and a half to the power of minus three. -/
theorem integral_power_accurate_reciprocal :
    let x : Decimal := ⟨15, -1⟩
    let y : Decimal := ⟨-30, -1⟩
    x.coefficient ≠ 0 ∧ x.exponent ≤ exponentMax ∧ y.value = (-3 : Int) ∧ (-3 : Int) ≠ 0 ∧
      (-3 : Int).natAbs ≤ maxIntegralPower ∧ 0 < 5 ∧ 5 ≤ 1000000 ∧
      x.power y 5 .nearestEven = .ok ⟨29630, -5⟩ ∧
      (⟨29630, -5⟩ : Decimal).IsAccurate (1 / 10) .nearestEven 5 (x.value ^ (-3 : Int) : ℚ) := by
  have whole : (⟨-30, -1⟩ : Decimal).value = (-3 : Int) := by norm_num [value]
  have computed : (⟨15, -1⟩ : Decimal).power ⟨-30, -1⟩ 5 .nearestEven = .ok ⟨29630, -5⟩ := by
    decide +kernel
  obtain ⟨-, -, accurate⟩ := integral_power_accurate .nearestEven (by decide) (by decide) whole
    (by decide) (by decide) (by decide) (by decide) computed
  exact ⟨by decide, by decide, whole, by decide, by decide, by decide, by decide, computed,
    accurate (by decide)⟩

end DecimalConformance.Decimal
