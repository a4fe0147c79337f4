import DecimalConformance.Proofs.Decimal.AccurateExponential

/-! The length of exponentials.
All but one kind are worked out to more digits than are asked for, and rounding leaves just those.
A reciprocal that comes out exactly is moved towards its ideal exponent instead, as if the whole
exponential were exact, and then digits are missing. -/
namespace DecimalConformance.Decimal

variable {a b x r : Decimal} {precision working : Nat} {mode : RoundingMode}

/-- Rounding to no fewer digits than are counted does not change how the count comes out. -/
theorem digits_round_lt_iff (d : Decimal) (mode : RoundingMode) (le : precision ≤ working)
    (positive : 0 < working) :
    (d.round working mode).digits < precision ↔ d.digits < precision := by
  rcases Nat.lt_or_ge working d.digits with longer | short
  · rw [digits_round_of_lt mode positive longer]
    omega
  · rw [round_of_digits_le mode short]

theorem digits_round_eq_iff (d : Decimal) (mode : RoundingMode) (positive : 0 < precision) :
    (d.round precision mode).digits = precision ↔ precision ≤ d.digits := by
  have kept := digits_round_lt_iff d mode le_rfl positive
  have most := digits_round_le d mode positive
  omega

/-- Of the decimals that have one value, those with the higher exponent have the fewer digits. -/
private theorem digits_le_of_exponent_le {d w : Decimal} (nonzero : d.coefficient ≠ 0)
    (value : d.value = w.value) (le : w.exponent ≤ d.exponent) : d.digits ≤ w.digits := by
  have nonzero' : w.coefficient ≠ 0 := by
    rwa [← value_eq_zero_iff.ne, ← value, value_eq_zero_iff.ne]
  have most := (abs_value_bounds nonzero').2
  rw [← value] at most
  have places := places_le _ nonzero most
  omega

/-- Before it is rounded, a quotient has fewer digits than are kept only where a decimal that short
is the exact one. -/
theorem digits_quotientAt_lt_iff {count : Nat} (nonzero : a.coefficient ≠ 0)
    (divisor : b.coefficient ≠ 0) (positive : 0 < count) (le : count ≤ precision) :
    (quotientAt a b precision).digits < count ↔
      ∃ d : Decimal, d.exponent ≤ a.exponent - b.exponent ∧ d.digits < count ∧
        d.value * b.value = a.value := by
  have divisor' : b.value ≠ 0 := mt value_eq_zero_iff.mp divisor
  have long := pow_le_wholeAt nonzero divisor precision
  by_cases exact : dividendAt a b precision % b.coefficient.natAbs = 0
  · have product := value_quotientAt nonzero exact
    constructor
    · intro short
      exact ⟨_, quotientAt_exponent_le, short, product⟩
    · rintro ⟨d, low, short, same⟩
      have form := isIdealForm_quotientAt nonzero divisor exact
      have value : (quotientAt a b precision).value = d.value :=
        mul_right_cancel₀ divisor' (product.trans same.symm)
      have filled : (quotientAt a b precision).coefficient ≠ 0 := by
        intro zero
        rw [value_eq_zero_iff.mpr zero, zero_mul] at product
        exact nonzero (value_eq_zero_iff.mp product.symm)
      have highest := form.highest d (by rw [Rat.cast_id, eq_div_iff divisor', same]) low
      exact (digits_le_of_exponent_le filled value highest).trans_lt short
  · refine iff_of_false ?_ ?_
    · have cell := (inCell_quotientAt nonzero divisor exact).between (K := ℚ)
      have longer := lt_digits_of_between cell (by omega) long
      omega
    · rintro ⟨d, -, short, same⟩
      have cell := between_quotient divisor exact
      rw [← same, mul_div_cancel_right₀ _ divisor'] at cell
      have longer := lt_digits_of_between (K := ℚ) (w := d) cell (by omega) long
      omega

/-- The reciprocal of what was worked out is exact, and shorter than the precision. -/
def Shortened (x : Decimal) (precision : Nat) : Prop :=
  x.coefficient < 0 ∧ -((guarded precision : Int) + 2) ≤ x.adjusted ∧
    ∃ d : Decimal, d.digits < precision ∧ d.value * (grown x (guarded precision)).value = 1

/-- What is above the ideal exponent of a reciprocal is no reciprocal. -/
private theorem exponent_le_of_mul_eq_one {d w : Decimal} (inverse : d.value * w.value = 1) :
    d.exponent ≤ one.exponent - w.exponent := by
  by_contra above
  have lowest : one.exponent = 0 := rfl
  obtain ⟨places, shift⟩ := Int.eq_ofNat_of_zero_le (by omega : 0 ≤ d.exponent + w.exponent - 1)
  have size : d.exponent + w.exponent = (places + 1 : Nat) := by
    push_cast
    omega
  rw [← value_product, value, product, size, zpow_natCast] at inverse
  have whole : d.coefficient * w.coefficient * 10 ^ (places + 1) = 1 := by exact_mod_cast inverse
  have tens : (10 : Int) ∣ 1 := by
    rw [← whole]
    exact (dvd_pow_self 10 places.succ_ne_zero).mul_left _
  exact absurd tens (by decide)

private theorem lt_digits_nearOne (x : Decimal) (positive : 0 < working) :
    working < (nearOne x working).digits := by
  have power : Nat.pow 10 (working + 3) = 1000 * 10 ^ working := by
    rw [Nat.pow_eq, Nat.pow_add]
    omega
  have unit : 0 < 10 ^ working := by positivity
  rw [digits, lt_digitCount_iff positive, nearOne, power]
  dsimp only
  generalize 10 ^ working = n at *
  split <;> omega

/-- What is rounded last has fewer digits than the precision only as an exact reciprocal. -/
private theorem digits_unroundedExp_lt_iff (least : exponentMin ≤ x.exponent)
    (size : x.exponent + x.digits ≤ 5) (positive : 0 < precision)
    (limited : precision ≤ precisionMax) :
    (unroundedExp x (guarded precision)).digits < precision ↔ Shortened x precision := by
  obtain ⟨enough, most⟩ := le_guarded precision
  have more : precision ≤ guarded precision := by
    simp only [guarded]
    omega
  unfold unroundedExp Shortened
  split_ifs with tiny negative
  · have long := lt_digits_nearOne x (guarded_pos precision)
    exact iff_of_false (by omega) fun short => absurd short.2.1 (not_le.mpr tiny)
  · have divisor := grown_ne_zero least size enough most
    have one_ne_zero : one.coefficient ≠ 0 := by decide
    rw [and_iff_right negative, and_iff_right (not_lt.mp tiny)]
    rw [digits_round_lt_iff _ .nearestEven more (by omega),
      digits_quotientAt_lt_iff one_ne_zero divisor positive more, value_one]
    constructor
    · rintro ⟨d, -, short, inverse⟩
      exact ⟨d, short, inverse⟩
    · rintro ⟨d, short, inverse⟩
      exact ⟨d, exponent_le_of_mul_eq_one inverse, short, inverse⟩
  · rw [digits_grown least size enough most]
    exact iff_of_false (by omega) fun short => negative short.1

/-- The exponential of a number other than zero has exactly the digits asked for, unless it is the
reciprocal of a number whose reciprocal is shorter. -/
theorem digits_exp_iff (nonzero : x.coefficient ≠ 0) (least : exponentMin ≤ x.exponent)
    (positive : 0 < precision) (limited : precision ≤ precisionMax)
    (h : x.exp precision mode = .ok r) : r.digits = precision ↔ ¬ Shortened x precision := by
  have small := adjusted_le_of_exp nonzero h
  rw [exp_eq nonzero least small] at h
  split_ifs at h
  obtain rfl := Except.ok.inj h
  rw [digits_round_eq_iff _ mode positive,
    ← digits_unroundedExp_lt_iff least (places_le_of_adjusted_le small) positive limited, not_lt]

/-- An exponential just below one that comes out as one, with a single digit. -/
theorem exp_of_tiny_shortened :
    (⟨-1, -22⟩ : Decimal).exp 9 .nearestEven = .ok ⟨1, 0⟩ ∧ (⟨1, 0⟩ : Decimal).digits ≠ 9 := by
  decide +kernel

/-- The number next to it towards zero is nudged, and keeps nine digits. -/
theorem digits_exp_tinier :
    let x : Decimal := ⟨-1, -24⟩
    x.coefficient ≠ 0 ∧ exponentMin ≤ x.exponent ∧ 0 < 9 ∧ 9 ≤ precisionMax ∧
      x.exp 9 .nearestEven = .ok ⟨100000000, -8⟩ ∧
      ((⟨100000000, -8⟩ : Decimal).digits = 9 ↔ ¬ Shortened x 9) := by
  have computed : (⟨-1, -24⟩ : Decimal).exp 9 .nearestEven = .ok ⟨100000000, -8⟩ := by
    decide +kernel
  exact ⟨by decide, by decide, by decide, by decide, computed,
    digits_exp_iff (by decide) (by decide) (by decide) (by decide) computed⟩

end DecimalConformance.Decimal
