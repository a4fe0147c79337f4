import DecimalConformance.Proofs.Decimal.GuardDigit
import DecimalConformance.Proofs.Decimal.RoundedQuotient

/-! Division is rounded once.
The shifted dividend is long enough for a whole part with more digits than the precision, so a
quotient that is not exact lies in a cell which one more digit marks.  Only an exponent that grows
past the largest one spoils the result. -/
namespace DecimalConformance.Decimal

variable {a b : Decimal} {precision : Nat}

/-- The size of a quotient, in units of the last place of its whole part. -/
private theorem abs_quotient (a b : Decimal) (precision : Nat) :
    |a.value / b.value| =
      (dividendAt a b precision / b.coefficient.natAbs : ℚ) * 10 ^ placeAt a b precision := by
  have place : (10 : ℚ) ^ placeAt a b precision =
      10 ^ a.exponent / 10 ^ b.exponent / 10 ^ divisionShift a b precision := by
    rw [placeAt, zpow_sub₀ (by norm_num), zpow_sub₀ (by norm_num), zpow_natCast]
  rw [abs_div, abs_value, abs_value, place, dividendAt]
  push_cast
  field_simp

/-- A quotient that is not exact lies between two whole parts. -/
theorem between_quotient (divisor : b.coefficient ≠ 0)
    (inexact : dividendAt a b precision % b.coefficient.natAbs ≠ 0) :
    Between (wholeAt a b precision) (placeAt a b precision) (a.value / b.value) := by
  have unit : (0 : ℚ) < 10 ^ placeAt a b precision := by positivity
  have positive := Int.natAbs_pos.mpr divisor
  have positive' : (0 : ℚ) < b.coefficient.natAbs := by exact_mod_cast positive
  have split := Nat.div_add_mod' (dividendAt a b precision) b.coefficient.natAbs
  have below := Nat.mod_lt (dividendAt a b precision) positive
  rw [← wholeAt] at split
  constructor <;> rw [abs_quotient a b precision]
  · refine mul_lt_mul_of_pos_right ((lt_div_iff₀ positive').mpr ?_) unit
    exact_mod_cast (by omega :
      wholeAt a b precision * b.coefficient.natAbs < dividendAt a b precision)
  · refine mul_lt_mul_of_pos_right ((div_lt_iff₀ positive').mpr ?_) unit
    have next : dividendAt a b precision < (wholeAt a b precision + 1) * b.coefficient.natAbs := by
      rw [Nat.succ_mul]
      omega
    exact_mod_cast next

/-- The guard digit is on the same side of zero as the quotient. -/
private theorem quotient_mul_pos (nonzero : a.coefficient ≠ 0) (divisor : b.coefficient ≠ 0)
    (inexact : dividendAt a b precision % b.coefficient.natAbs ≠ 0) :
    0 < a.value / b.value * (quotientAt a b precision).value := by
  have divisor' : b.value ≠ 0 := mt value_eq_zero_iff.mp divisor
  have square : 0 < b.value * b.value := mul_self_pos.mpr divisor'
  have size : (0 : ℚ) < ((a.product b).product (quotientAt a b precision)).coefficient := by
    rw [quotientAt_of_inexact nonzero inexact, product, product]
    dsimp only
    rw [← Int.mul_assoc, Int.mul_sign_self]
    have filled := Int.natAbs_pos.mpr (Int.mul_ne_zero nonzero divisor)
    positivity
  calc 0 < ((a.product b).product (quotientAt a b precision)).value / (b.value * b.value) :=
        div_pos (mul_pos size (by positivity)) square
    _ = a.value / b.value * (quotientAt a b precision).value := by
        rw [value_product, value_product]
        field_simp

theorem quotientAt_exponent_le :
    (quotientAt a b precision).exponent ≤ a.exponent - b.exponent := by
  simp only [quotientAt]
  split_ifs <;> simp only [placeAt] <;> omega

/-- An exact quotient is in its ideal form before it is rounded. -/
theorem isIdealForm_quotientAt (nonzero : a.coefficient ≠ 0) (divisor : b.coefficient ≠ 0)
    (exact : dividendAt a b precision % b.coefficient.natAbs = 0) :
    IsIdealForm (a.exponent - b.exponent) (a.value / b.value) (quotientAt a b precision) := by
  rw [← eq_div_of_mul_eq (mt value_eq_zero_iff.mp divisor) (value_quotientAt nonzero exact)]
  obtain ⟨rest, left, zeros, stripped, quotient, -, -⟩ := quotientAt_of_exact nonzero exact
  exact isIdealForm_of_dropZeros (K := ℚ) (wholeAt_ne_zero nonzero divisor precision) stripped
    (by rw [quotient, natAbs_sign_mul (Int.mul_ne_zero nonzero divisor)]) (by rw [quotient])

/-- What a division rounds is as good as the quotient itself. -/
theorem correctlyRounded_quotientAt (mode : RoundingMode) (divisor : b.coefficient ≠ 0)
    (positive : 0 < precision) :
    CorrectlyRounded mode precision (a.exponent - b.exponent) (a.value / b.value)
      ((quotientAt a b precision).roundFreely precision mode) := by
  by_cases zero : a.coefficient = 0
  · have quotient : a.value / b.value = (⟨0, a.exponent - b.exponent⟩ : Decimal).value := by
      rw [value_eq_zero_iff.mpr zero, zero_div, value_eq_zero_iff.mpr rfl]
    rw [quotientAt_of_zero zero, quotient]
    exact (isIdealForm_of_last (K := ℚ) (d := ⟨0, _⟩) le_rfl (.inl rfl)).correctlyRounded mode positive
  · by_cases exact : dividendAt a b precision % b.coefficient.natAbs = 0
    · exact (isIdealForm_quotientAt zero divisor exact).correctlyRounded mode positive
    · exact correctlyRounded_of_inCell mode _ (inCell_quotientAt zero divisor exact)
        (between_quotient divisor exact) (quotient_mul_pos zero divisor exact) positive
        (pow_le_wholeAt zero divisor precision)

/-- A division either is refused or gives the correct quotient: its ideal form, or exactly as many
digits as the precision says, rounded by the mode.  The exponent of what is given is held at the
largest one, and only a quotient that needs a larger one is wrong.  Nothing can be divided by zero. -/
theorem divide_rounds_quotient (a b : Decimal) (mode : RoundingMode) (positive : 0 < precision) :
    (b.coefficient ≠ 0 →
      (∀ result, a.divide b precision mode = .ok result →
        ∃ correct : Decimal,
          CorrectlyRounded mode precision (a.exponent - b.exponent) (a.value / b.value) correct ∧
          result = correct.capped ∧
          (CorrectlyRounded mode precision (a.exponent - b.exponent) (a.value / b.value) result ↔
            correct.exponent ≤ exponentMax)) ∧
      ((∃ result, a.divide b precision mode = .ok result) ↔
        ExponentFits (a.exponent - b.exponent) ∧ ¬ OutOfReach a b precision ∧
          ¬ Exhausts a b precision)) ∧
    (b.coefficient = 0 →
      a.divide b precision mode =
        .error (if a.coefficient = 0 then .invalidOperation "division undefined"
          else .divisionByZero)) := by
  refine ⟨fun divisor => ⟨?_, ?_⟩, fun zero => ?_⟩
  · intro result divided
    obtain ⟨-, fits, least, rfl⟩ := eq_round_of_divide divided
    have correct := correctlyRounded_quotientAt (a := a) mode divisor positive
    have capped := round_eq_capped mode positive
      ⟨least, quotientAt_exponent_le.trans fits.2⟩
    exact ⟨_, correct, capped, by rw [capped, correct.capped_iff positive]⟩
  · rw [divide_eq mode divisor]
    split_ifs with refused exhausted
    · simp only [exists_false, false_iff]
      tauto
    · simp [exhausted]
    · obtain ⟨fits, reached⟩ := not_or.mp refused
      exact ⟨fun _ => ⟨not_not.mp fits, reached, exhausted⟩, fun _ => ⟨_, rfl⟩⟩
  · simp [divide, divideBy, isZero, zero]

/-- Two thirds below zero fill five digits. -/
theorem divide_rounds_quotient_thirds :
    (⟨3, 0⟩ : Decimal).coefficient ≠ 0 ∧ 0 < 5 ∧
      (⟨-2, 0⟩ : Decimal).divide ⟨3, 0⟩ 5 .nearestEven = .ok ⟨-66667, -5⟩ ∧
      CorrectlyRounded .nearestEven 5 (0 - 0)
        ((⟨-2, 0⟩ : Decimal).value / (⟨3, 0⟩ : Decimal).value) ⟨-66667, -5⟩ := by
  have divided : (⟨-2, 0⟩ : Decimal).divide ⟨3, 0⟩ 5 .nearestEven = .ok ⟨-66667, -5⟩ := by decide
  refine ⟨by decide, by decide, divided, ?_⟩
  obtain ⟨quotient, -⟩ := divide_rounds_quotient ⟨-2, 0⟩ ⟨3, 0⟩ .nearestEven (by decide : 0 < 5)
  obtain ⟨correct, -, capped, iff⟩ := (quotient (by decide)).1 _ divided
  have exponent : -5 = min exponentMax correct.exponent := congrArg Decimal.exponent capped
  rw [iff]
  simp only [exponentMax] at *
  omega

/-- The digit that is dropped takes the exponent past the largest one: what is given is a tenth of
the quotient. -/
theorem quotient_moved :
    (⟨15, 0⟩ : Decimal).divide ⟨1, -9223372036854775807⟩ 1 .nearestEven =
        .ok ⟨2, 9223372036854775807⟩ ∧
      ¬ CorrectlyRounded .nearestEven 1 (0 - -9223372036854775807)
        ((⟨15, 0⟩ : Decimal).value / (⟨1, -9223372036854775807⟩ : Decimal).value)
        ⟨2, 9223372036854775807⟩ := by
  refine ⟨by decide, fun moved => ?_⟩
  have correct := correctlyRounded_quotientAt (a := ⟨15, 0⟩) (b := ⟨1, -9223372036854775807⟩)
    .nearestEven (by decide) (by decide : 0 < 1)
  exact absurd (moved.unique (by decide) correct) (by decide)

end DecimalConformance.Decimal
