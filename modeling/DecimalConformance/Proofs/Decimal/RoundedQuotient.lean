import DecimalConformance.Proofs.Decimal.Cell
import DecimalConformance.Proofs.Decimal.IdealForm
import DecimalConformance.Proofs.Except

/-! Quotients as rounding sees them.
What a division rounds depends on the precision that it was asked for.  A longer quotient is the
same decimal where the shorter one is exact, and lies in the cell of the shorter one where not. -/
namespace DecimalConformance.Decimal

variable {a b : Decimal} {p q : Nat}

/-- The dividend as it is divided, its sign left out. -/
def dividendAt (a b : Decimal) (precision : Nat) : Nat :=
  a.coefficient.natAbs * 10 ^ divisionShift a b precision

def wholeAt (a b : Decimal) (precision : Nat) : Nat :=
  dividendAt a b precision / b.coefficient.natAbs

/-- The place of the last digit of the whole part. -/
def placeAt (a b : Decimal) (precision : Nat) : Int :=
  a.exponent - b.exponent - divisionShift a b precision

/-- What a division to a precision rounds. -/
def quotientAt (a b : Decimal) (precision : Nat) : Decimal :=
  let sign := a.coefficient.sign * b.coefficient.sign
  let stripped := dropZeros (divisionShift a b precision) (wholeAt a b precision)
  if a.coefficient = 0 then ⟨0, a.exponent - b.exponent⟩
  else if dividendAt a b precision % b.coefficient.natAbs = 0 then
    ⟨sign * ↑stripped.1, a.exponent - b.exponent - ↑stripped.2⟩
  else ⟨sign * ↑(wholeAt a b precision * 10 + 1), placeAt a b precision - 1⟩

/-! ## The division of the engine -/

theorem quotientAt_of_zero {precision : Nat} (zero : a.coefficient = 0) :
    quotientAt a b precision = ⟨0, a.exponent - b.exponent⟩ := if_pos zero

/-- An exact quotient has as many zeros dropped as there are, on the way to the ideal exponent. -/
theorem quotientAt_of_exact {precision : Nat} (nonzero : a.coefficient ≠ 0)
    (exact : dividendAt a b precision % b.coefficient.natAbs = 0) :
    ∃ rest left zeros : Nat,
      dropZeros (divisionShift a b precision) (wholeAt a b precision) = (rest, left) ∧
      quotientAt a b precision =
        ⟨(a.coefficient * b.coefficient).sign * ↑rest, a.exponent - b.exponent - ↑left⟩ ∧
      wholeAt a b precision = rest * 10 ^ zeros ∧ divisionShift a b precision = left + zeros := by
  obtain ⟨zeros, split, room⟩ := dropZeros_spec (divisionShift a b precision) (wholeAt a b precision)
  refine ⟨_, _, zeros, rfl, ?_, split, room⟩
  rw [quotientAt, if_neg nonzero, if_pos exact, Int.sign_mul]

theorem quotientAt_of_inexact {precision : Nat} (nonzero : a.coefficient ≠ 0)
    (inexact : dividendAt a b precision % b.coefficient.natAbs ≠ 0) :
    quotientAt a b precision =
      ⟨(a.coefficient * b.coefficient).sign * ↑(wholeAt a b precision * 10 + 1),
        placeAt a b precision - 1⟩ := by
  rw [quotientAt, if_neg nonzero, if_neg inexact, Int.sign_mul]

/-- The dividend is too long, or its last place too low, for a division to be carried out. -/
def OutOfReach (a b : Decimal) (precision : Nat) : Prop :=
  a.coefficient ≠ 0 ∧
    (maxShift < divisionShift a b precision ∨ placeAt a b precision < exponentMin)

instance (a b : Decimal) (precision : Nat) : Decidable (OutOfReach a b precision) :=
  inferInstanceAs (Decidable (_ ∧ _))

/-- A remainder is left at the lowest place of all, and there is none below for its digit. -/
def Exhausts (a b : Decimal) (precision : Nat) : Prop :=
  a.coefficient ≠ 0 ∧ dividendAt a b precision % b.coefficient.natAbs ≠ 0 ∧
    placeAt a b precision = exponentMin

instance (a b : Decimal) (precision : Nat) : Decidable (Exhausts a b precision) :=
  inferInstanceAs (Decidable (_ ∧ _))

private theorem divide_of_zero {precision : Nat} (mode : RoundingMode) (zero : a.coefficient = 0)
    (divisor : b.coefficient ≠ 0) (fits : ExponentFits (a.exponent - b.exponent)) :
    a.divide b precision mode = .ok ((quotientAt a b precision).round precision mode) := by
  have dividend : a.isZero := by simpa [isZero] using zero
  have divisor : ¬ b.isZero := by simpa [isZero] using divisor
  rw [quotientAt_of_zero zero, round_of_coefficient_eq_zero precision mode rfl, divide, divideBy,
    if_neg divisor]
  dsimp only
  rw [if_neg (not_not.mpr fits), if_pos dividend, pure_eq_ok]

/-- There is no place below the lowest one. -/
private theorem withGuardDigitBy_engine {coefficient : Nat} {e : Int} (h : ExponentFits e) :
    withGuardDigitBy Steps.engine.guardDigit coefficient e =
      if e = exponentMin then .error .exponentExhausted else .ok (coefficient * 10 + 1, e - 1) := by
  have fits : ¬ ExponentFits (e - 1) ↔ e = exponentMin := by
    simp only [ExponentFits] at *
    omega
  rw [withGuardDigitBy, Steps.engine_guardDigit]
  by_cases lowest : e = exponentMin
  · rw [if_pos lowest, if_neg (fits.mpr lowest)]
    rfl
  · rw [if_neg lowest, if_pos (not_not.mp (fits.not.mpr lowest))]
    rfl

private theorem divide_of_ne_zero {precision : Nat} (mode : RoundingMode)
    (nonzero : a.coefficient ≠ 0) (divisor : b.coefficient ≠ 0)
    (fits : ExponentFits (a.exponent - b.exponent)) :
    a.divide b precision mode =
      if maxShift < divisionShift a b precision ∨ placeAt a b precision < exponentMin then
        .error .overflow
      else if dividendAt a b precision % b.coefficient.natAbs = 0 then
        .ok ((quotientAt a b precision).round precision mode)
      else if placeAt a b precision = exponentMin then .error .exponentExhausted
      else .ok ((quotientAt a b precision).round precision mode) := by
  have dividend : ¬ a.isZero := by simpa [isZero] using nonzero
  have divisor : ¬ b.isZero := by simpa [isZero] using divisor
  rw [divide, divideBy, if_neg divisor]
  dsimp only
  rw [if_neg (not_not.mpr fits), if_neg dividend, quotientAt, if_neg nonzero, ofExcept_self,
    shiftFactor]
  by_cases long : maxShift < divisionShift a b precision
  · rw [if_pos long, if_pos (.inl long)]
    rfl
  · rw [if_neg long]
    show (if placeAt a b precision < exponentMin then _ else _) = _
    by_cases low : placeAt a b precision < exponentMin
    · rw [if_pos low, if_pos (.inr low)]
      rfl
    · have reached : ¬ (maxShift < divisionShift a b precision ∨
          placeAt a b precision < exponentMin) := fun refused => refused.elim long low
      rw [if_neg low, if_neg reached]
      by_cases exact : dividendAt a b precision % b.coefficient.natAbs = 0
      · rw [if_pos exact, if_pos exact]
        refine (if_pos exact).trans ?_
        rw [Steps.engine_exponent, stripBy_eq fun _ _ _ => rfl, pure_bind, Int.sub_add_cancel]
        rfl
      · have within : ExponentFits (placeAt a b precision) := by
          refine ⟨not_lt.mp low, ?_⟩
          have most := fits.2
          unfold placeAt
          omega
        rw [if_neg exact, if_neg exact]
        refine (if_neg exact).trans ?_
        rw [← placeAt, withGuardDigitBy_engine within]
        split <;> rfl

/-- A division by something else than zero: it is refused, or the quotient is rounded. -/
theorem divide_eq {precision : Nat} (mode : RoundingMode) (divisor : b.coefficient ≠ 0) :
    a.divide b precision mode =
      if ¬ ExponentFits (a.exponent - b.exponent) ∨ OutOfReach a b precision then .error .overflow
      else if Exhausts a b precision then .error .exponentExhausted
      else .ok ((quotientAt a b precision).round precision mode) := by
  by_cases fits : ExponentFits (a.exponent - b.exponent)
  · by_cases zero : a.coefficient = 0
    · simp [divide_of_zero mode zero divisor fits, fits, OutOfReach, Exhausts, zero]
    · rw [divide_of_ne_zero mode zero divisor fits]
      by_cases exact : dividendAt a b precision % b.coefficient.natAbs = 0 <;>
        simp [fits, OutOfReach, Exhausts, zero, exact]
  · have divisor' : ¬ b.isZero := by simpa [isZero] using divisor
    have refused : ¬ ExponentFits (a.exponent - b.exponent) ∨ OutOfReach a b precision := .inl fits
    rw [divide, divideBy, if_neg divisor', if_pos refused]
    exact if_pos fits

/-- Nothing of a quotient lies below its guard digit. -/
theorem placeAt_sub_one_le (a b : Decimal) (precision : Nat) :
    placeAt a b precision - 1 ≤ (quotientAt a b precision).exponent := by
  by_cases zero : a.coefficient = 0
  · rw [quotientAt_of_zero zero, placeAt]
    dsimp only
    omega
  · by_cases exact : dividendAt a b precision % b.coefficient.natAbs = 0
    · obtain ⟨rest, left, zeros, -, quotient, -, total⟩ := quotientAt_of_exact zero exact
      rw [quotient, placeAt]
      dsimp only
      omega
    · rw [quotientAt_of_inexact zero exact]

private theorem exponentMin_le_quotientAt {precision : Nat}
    (fits : ExponentFits (a.exponent - b.exponent)) (reached : ¬ OutOfReach a b precision)
    (room : ¬ Exhausts a b precision) : exponentMin ≤ (quotientAt a b precision).exponent := by
  by_cases zero : a.coefficient = 0
  · rw [quotientAt_of_zero zero]
    exact fits.1
  · have least : exponentMin ≤ placeAt a b precision := by
      by_contra low
      exact reached ⟨zero, .inr (not_le.mp low)⟩
    by_cases exact : dividendAt a b precision % b.coefficient.natAbs = 0
    · obtain ⟨rest, left, zeros, -, quotient, -, total⟩ := quotientAt_of_exact zero exact
      rw [quotient]
      simp only [placeAt] at least
      dsimp only
      omega
    · have above : placeAt a b precision ≠ exponentMin := fun lowest => room ⟨zero, exact, lowest⟩
      rw [quotientAt_of_inexact zero exact]
      dsimp only
      omega

/-- A division that succeeds rounds the quotient, and no exponent leaves the range before. -/
theorem eq_round_of_divide {result : Decimal} {precision : Nat} {mode : RoundingMode}
    (h : a.divide b precision mode = .ok result) :
    b.coefficient ≠ 0 ∧ ExponentFits (a.exponent - b.exponent) ∧
      exponentMin ≤ (quotientAt a b precision).exponent ∧
      result = (quotientAt a b precision).round precision mode := by
  have divisor : b.coefficient ≠ 0 := by
    intro zero
    have refused : b.isZero := by simpa [isZero] using zero
    rw [divide, divideBy, if_pos refused] at h
    cases h
  rw [divide_eq mode divisor] at h
  split_ifs at h with refused exhausted
  obtain rfl := Except.ok.inj h
  rw [not_or, not_not] at refused
  exact ⟨divisor, refused.1, exponentMin_le_quotientAt refused.1 refused.2 exhausted, rfl⟩

/-! ## Two precisions -/

private theorem exists_more (a b : Decimal) (le : p ≤ q) :
    ∃ more, divisionShift a b q = divisionShift a b p + more ∧
      dividendAt a b q = dividendAt a b p * 10 ^ more := by
  obtain ⟨more, shift⟩ : ∃ more, divisionShift a b q = divisionShift a b p + more := by
    refine ⟨divisionShift a b q - divisionShift a b p, ?_⟩
    unfold divisionShift
    omega
  refine ⟨more, shift, ?_⟩
  rw [dividendAt, dividendAt, shift, Nat.pow_add, Nat.mul_assoc]

/-- The whole part of a quotient is longer than the precision. -/
theorem pow_le_wholeAt (nonzero : a.coefficient ≠ 0) (divisor : b.coefficient ≠ 0)
    (precision : Nat) : 10 ^ precision ≤ wholeAt a b precision := by
  rw [wholeAt, Nat.le_div_iff_mul_le (Int.natAbs_pos.mpr divisor)]
  have one := a.digits_pos
  have lead := pow_digitCount_sub_le (Int.natAbs_pos.mpr nonzero)
  have most : b.coefficient.natAbs ≤ 10 ^ b.digits := (lt_pow_digitCount _).le
  calc 10 ^ precision * b.coefficient.natAbs ≤ 10 ^ precision * 10 ^ b.digits :=
        Nat.mul_le_mul_left _ most
    _ = 10 ^ (precision + b.digits) := (Nat.pow_add ..).symm
    _ ≤ 10 ^ (a.digits - 1 + divisionShift a b precision) :=
        Nat.pow_le_pow_right (by omega) (by unfold divisionShift; omega)
    _ = 10 ^ (a.digits - 1) * 10 ^ divisionShift a b precision := Nat.pow_add ..
    _ ≤ dividendAt a b precision := Nat.mul_le_mul_right _ lead

theorem wholeAt_ne_zero (nonzero : a.coefficient ≠ 0) (divisor : b.coefficient ≠ 0)
    (precision : Nat) : wholeAt a b precision ≠ 0 := by
  have long := pow_le_wholeAt nonzero divisor precision
  have unit : 0 < 10 ^ precision := Nat.pow_pos (by omega)
  omega

/-- Where the shorter quotient is exact, the longer one is the same decimal. -/
private theorem quotientAt_eq_of_exact (nonzero : a.coefficient ≠ 0) (divisor : b.coefficient ≠ 0)
    (le : p ≤ q) (exact : dividendAt a b p % b.coefficient.natAbs = 0) :
    quotientAt a b q = quotientAt a b p := by
  obtain ⟨more, shift, dividend⟩ := exists_more a b le
  have divides := Nat.dvd_of_mod_eq_zero exact
  have whole : wholeAt a b q = wholeAt a b p * 10 ^ more := by
    rw [wholeAt, wholeAt, dividend, Nat.div_mul_right_comm divides]
  have exact' : dividendAt a b q % b.coefficient.natAbs = 0 := by
    rw [dividend]
    exact Nat.mod_eq_zero_of_dvd (divides.mul_right _)
  have stripped := dropZeros_mul_pow (wholeAt_ne_zero nonzero divisor p) (divisionShift a b p) more
  rw [quotientAt, quotientAt, if_neg nonzero, if_neg nonzero, if_pos exact, if_pos exact', whole,
    shift, stripped]

private theorem sign_quotientAt (nonzero : a.coefficient ≠ 0) (divisor : b.coefficient ≠ 0)
    (precision : Nat) :
    (quotientAt a b precision).coefficient.sign = (a.coefficient * b.coefficient).sign := by
  by_cases exact : dividendAt a b precision % b.coefficient.natAbs = 0
  · obtain ⟨rest, left, zeros, -, quotient, split, -⟩ := quotientAt_of_exact nonzero exact
    rw [quotient]
    apply sign_sign_mul
    rintro rfl
    rw [Nat.zero_mul] at split
    exact wholeAt_ne_zero nonzero divisor precision split
  · rw [quotientAt_of_inexact nonzero exact]
    exact sign_sign_mul _ (by omega)

theorem inCell_quotientAt {precision : Nat} (nonzero : a.coefficient ≠ 0)
    (divisor : b.coefficient ≠ 0) (inexact : dividendAt a b precision % b.coefficient.natAbs ≠ 0) :
    (quotientAt a b precision).InCell (wholeAt a b precision) (placeAt a b precision) := by
  rw [quotientAt_of_inexact nonzero inexact]
  exact inCell_of_guardDigit (natAbs_sign_mul (Int.mul_ne_zero nonzero divisor) _) rfl

/-- Digits of a longer quotient that are not all zero, behind a shorter one that is not exact. -/
private theorem inCell_wholeAt {more : Nat} (shift : divisionShift a b q = divisionShift a b p + more)
    (dividend : dividendAt a b q = dividendAt a b p * 10 ^ more)
    (whole : wholeAt a b q / 10 ^ more = wholeAt a b p)
    (inexact : dividendAt a b p % b.coefficient.natAbs ≠ 0)
    (exact : dividendAt a b q % b.coefficient.natAbs = 0) :
    (⟨wholeAt a b q, placeAt a b q⟩ : Decimal).InCell (wholeAt a b p) (placeAt a b p) := by
  have unit : 0 < 10 ^ more := Nat.pow_pos (by omega)
  have split := Nat.div_add_mod (wholeAt a b q) (10 ^ more)
  rw [whole] at split
  -- Only zeros behind the shorter quotient would make it exact.
  have inside : 0 < wholeAt a b q % 10 ^ more := by
    by_contra none
    have product : wholeAt a b q * b.coefficient.natAbs = dividendAt a b q :=
      Nat.div_mul_cancel (Nat.dvd_of_mod_eq_zero exact)
    rw [Nat.eq_zero_of_not_pos none, Nat.add_zero] at split
    rw [← split, dividend, Nat.mul_assoc, Nat.mul_comm] at product
    have divides := Dvd.intro_left _ (Nat.eq_of_mul_eq_mul_right unit product)
    exact inexact (Nat.mod_eq_zero_of_dvd divides)
  refine ⟨more, _, ?_, ?_, inside, Nat.mod_lt _ unit⟩
  · simp only [placeAt, shift]
    omega
  · rw [Int.natAbs_natCast, Nat.mul_comm, split]

/-- A longer quotient lies in the cell of a shorter one that is not exact. -/
private theorem inCell_quotientAt_of_le (nonzero : a.coefficient ≠ 0) (divisor : b.coefficient ≠ 0)
    (le : p ≤ q) (inexact : dividendAt a b p % b.coefficient.natAbs ≠ 0) :
    (quotientAt a b q).InCell (wholeAt a b p) (placeAt a b p) := by
  obtain ⟨more, shift, dividend⟩ := exists_more a b le
  have whole : wholeAt a b q / 10 ^ more = wholeAt a b p := by
    rw [wholeAt, wholeAt, Nat.div_div_eq_div_mul, Nat.mul_comm, ← Nat.div_div_eq_div_mul, dividend,
      Nat.mul_div_cancel _ (Nat.pow_pos (by omega))]
  by_cases exact : dividendAt a b q % b.coefficient.natAbs = 0
  · obtain ⟨rest, left, zeros, -, quotient, split, room⟩ := quotientAt_of_exact nonzero exact
    have cell := inCell_wholeAt shift dividend whole inexact exact
    rw [quotient]
    apply cell.dropZeros split
    · exact natAbs_sign_mul (Int.mul_ne_zero nonzero divisor) _
    · simp only [placeAt]
      omega
  · have cell := (inCell_quotientAt nonzero divisor exact).coarser more
    have place : placeAt a b q + ↑more = placeAt a b p := by
      simp only [placeAt]
      omega
    rwa [whole, place] at cell

/-- A quotient that is not longer than its precision is exact, and a longer dividend gives it
again. -/
theorem quotientAt_of_digits_le (divisor : b.coefficient ≠ 0) (positive : 0 < p) (le : p ≤ q)
    (short : (quotientAt a b p).digits ≤ p) :
    quotientAt a b q = quotientAt a b p ∧ ¬ Exhausts a b q := by
  by_cases zero : a.coefficient = 0
  · rw [quotientAt_of_zero zero, quotientAt_of_zero zero]
    exact ⟨rfl, fun exhausted => exhausted.1 zero⟩
  · have exact : dividendAt a b p % b.coefficient.natAbs = 0 := by
      by_contra inexact
      have long := (inCell_quotientAt zero divisor inexact).lt_digits positive
        (pow_le_wholeAt zero divisor p)
      omega
    obtain ⟨more, -, dividend⟩ := exists_more a b le
    have exact' : dividendAt a b q % b.coefficient.natAbs = 0 := by
      rw [dividend]
      exact Nat.mod_eq_zero_of_dvd ((Nat.dvd_of_mod_eq_zero exact).mul_right _)
    exact ⟨quotientAt_eq_of_exact zero divisor le exact, fun exhausted => exhausted.2.1 exact'⟩

theorem round_quotientAt (mode : RoundingMode) (divisor : b.coefficient ≠ 0) (positive : 0 < p)
    (le : p ≤ q) : (quotientAt a b q).round p mode = (quotientAt a b p).round p mode := by
  by_cases zero : a.coefficient = 0
  · rw [quotientAt_of_zero zero, quotientAt_of_zero zero]
  · by_cases exact : dividendAt a b p % b.coefficient.natAbs = 0
    · rw [quotientAt_eq_of_exact zero divisor le exact]
    · have sign := (sign_quotientAt zero divisor q).trans (sign_quotientAt zero divisor p).symm
      exact round_eq_of_inCell mode (inCell_quotientAt_of_le zero divisor le exact)
        (inCell_quotientAt zero divisor exact) sign positive (pow_le_wholeAt zero divisor p)

/-! ## Exact quotients -/

private theorem value_mul_eq_iff {d : Decimal} {left right : Nat}
    (places : d.exponent + b.exponent + left = a.exponent + right) :
    d.value * b.value = a.value ↔
      d.coefficient * b.coefficient * 10 ^ right = a.coefficient * 10 ^ left := by
  have ten : (10 : ℚ) ≠ 0 := by norm_num
  have shift : (10 : ℚ) ^ left ≠ 0 := pow_ne_zero _ ten
  have unit : (10 : ℚ) ^ a.exponent ≠ 0 := zpow_ne_zero _ ten
  have product : d.value * b.value * 10 ^ left =
      (d.coefficient * b.coefficient * 10 ^ right : ℚ) * 10 ^ a.exponent := by
    have power : (10 : ℚ) ^ d.exponent * 10 ^ b.exponent * 10 ^ left =
        10 ^ right * 10 ^ a.exponent := by
      rw [← zpow_natCast, ← zpow_natCast, ← zpow_add₀ ten, ← zpow_add₀ ten, ← zpow_add₀ ten, places,
        add_comm]
    calc d.value * b.value * 10 ^ left =
          d.coefficient * b.coefficient * (10 ^ d.exponent * 10 ^ b.exponent * 10 ^ left) := by
            rw [value, value]
            ring
      _ = (d.coefficient * b.coefficient * 10 ^ right : ℚ) * 10 ^ a.exponent := by
            rw [power]
            ring
  have dividend : a.value * 10 ^ left = (a.coefficient * 10 ^ left : ℚ) * 10 ^ a.exponent := by
    rw [value]
    ring
  rw [← mul_left_inj' shift, product, dividend, mul_left_inj' unit]
  exact_mod_cast Iff.rfl

/-- Rounding a coefficient that is too long raises the exponent. -/
theorem exponent_lt_exponent_round {d : Decimal} {precision : Nat} (mode : RoundingMode)
    (positive : 0 < precision) (long : precision < d.digits) (least : exponentMin ≤ d.exponent)
    (most : d.exponent < exponentMax) : d.exponent < (d.round precision mode).exponent := by
  have limited : ¬ (precision = 0 ∨ d.digits ≤ precision) := by omega
  simp only [round, if_neg limited]
  split <;> simp only [saturate, exponentMin, exponentMax] at * <;> omega

/-- No rounding lowers an exponent below the smallest one. -/
theorem exponentMin_le_round {d : Decimal} (precision : Nat) (mode : RoundingMode)
    (least : exponentMin ≤ d.exponent) : exponentMin ≤ (d.round precision mode).exponent := by
  simp only [round]
  split
  · exact least
  · split <;> exact le_max_left exponentMin _

/-- A rounding raises the exponent by one for each digit it drops, and by one more for a carry. -/
theorem exponent_round_le {d : Decimal} (precision : Nat) (mode : RoundingMode)
    (least : exponentMin ≤ d.exponent) :
    (d.round precision mode).exponent ≤ d.exponent + d.digits + 1 := by
  simp only [round]
  split
  · omega
  · split <;> simp only [saturate, exponentMin, exponentMax] at * <;> omega

theorem value_quotientAt {precision : Nat} (nonzero : a.coefficient ≠ 0)
    (exact : dividendAt a b precision % b.coefficient.natAbs = 0) :
    (quotientAt a b precision).value * b.value = a.value := by
  obtain ⟨rest, left, zeros, -, quotient, split, room⟩ := quotientAt_of_exact nonzero exact
  have product : wholeAt a b precision * b.coefficient.natAbs = dividendAt a b precision :=
    Nat.div_mul_cancel (Nat.dvd_of_mod_eq_zero exact)
  have size : rest * b.coefficient.natAbs = a.coefficient.natAbs * 10 ^ left := by
    rw [split, dividendAt, room, Nat.pow_add, ← Nat.mul_assoc, Nat.mul_right_comm] at product
    exact Nat.eq_of_mul_eq_mul_right (Nat.pow_pos (by omega)) product
  have places : a.exponent - b.exponent - left + b.exponent + left = a.exponent + (0 : Nat) := by omega
  rw [quotient, Int.sign_mul]
  apply (value_mul_eq_iff places).mpr
  calc a.coefficient.sign * b.coefficient.sign * ↑rest * b.coefficient * 10 ^ 0 =
        a.coefficient.sign * (↑rest * (b.coefficient.sign * b.coefficient)) := by ring
    _ = a.coefficient.sign * ↑(rest * b.coefficient.natAbs) := by
        rw [Int.sign_mul_self_eq_natAbs, Int.natCast_mul]
    _ = a.coefficient.sign * ↑a.coefficient.natAbs * 10 ^ left := by
        rw [size]
        push_cast
        ring
    _ = a.coefficient * 10 ^ left := by rw [Int.sign_mul_natAbs]

/-- An inexact quotient is not made exact by rounding it: its last place would divide. -/
private theorem value_round_quotientAt_ne {mode : RoundingMode} (nonzero : a.coefficient ≠ 0)
    (divisor : b.coefficient ≠ 0) (fits : a.exponent - b.exponent ≤ exponentMax) (positive : 0 < q)
    (least : exponentMin ≤ (quotientAt a b q).exponent)
    (inexact : dividendAt a b q % b.coefficient.natAbs ≠ 0) :
    ((quotientAt a b q).round q mode).value * b.value ≠ a.value := by
  intro exact
  have long : q < (quotientAt a b q).digits :=
    (inCell_quotientAt nonzero divisor inexact).lt_digits positive
      (pow_le_wholeAt nonzero divisor q)
  have lowest : (quotientAt a b q).exponent =
      a.exponent - b.exponent - divisionShift a b q - 1 := by
    rw [quotientAt_of_inexact nonzero inexact, placeAt]
  have raised := exponent_lt_exponent_round mode positive long least (by omega)
  obtain ⟨more, places⟩ : ∃ more : Nat, ((quotientAt a b q).round q mode).exponent + b.exponent +
      (divisionShift a b q : Int) = a.exponent + (more : Int) :=
    ⟨(((quotientAt a b q).round q mode).exponent - (quotientAt a b q).exponent - 1).toNat, by omega⟩
  have sizes := congrArg Int.natAbs ((value_mul_eq_iff places).mp exact)
  rw [Int.natAbs_mul, Int.natAbs_mul, Int.natAbs_mul, Int.natAbs_pow, Int.natAbs_pow,
    Nat.mul_right_comm] at sizes
  exact inexact (Nat.mod_eq_zero_of_dvd (Dvd.intro_left _ sizes))

/-- A rounded quotient that is exact comes from an exact one. -/
theorem value_quotientAt_of_round {mode : RoundingMode} (divisor : b.coefficient ≠ 0)
    (fits : a.exponent - b.exponent ≤ exponentMax) (positive : 0 < q)
    (least : exponentMin ≤ (quotientAt a b q).exponent)
    (exact : ((quotientAt a b q).round q mode).value = a.value / b.value) :
    (quotientAt a b q).value = a.value / b.value := by
  have nonzero : b.value ≠ 0 := fun zero => divisor (value_eq_zero_iff.mp zero)
  rw [eq_div_iff nonzero] at exact ⊢
  by_cases zero : a.coefficient = 0
  · rw [value_eq_zero_iff.mpr zero, quotientAt_of_zero zero, mul_eq_zero]
    exact .inl (value_eq_zero_iff.mpr rfl)
  · by_cases divides : dividendAt a b q % b.coefficient.natAbs = 0
    · exact value_quotientAt zero divides
    · exact absurd exact (value_round_quotientAt_ne zero divisor fits positive least divides)

end DecimalConformance.Decimal
