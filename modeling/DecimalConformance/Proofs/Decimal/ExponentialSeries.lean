import DecimalConformance.Proofs.Decimal.Truncation
import Mathlib.Analysis.Complex.Exponential

/-! How far the exponential series is off.
Each term loses two units at most, and there are no more terms than the first has binary digits.  In
proportion, squaring doubles what was lost; the places that are added with the halvings make up for
that, so that the digits asked for are right. -/
namespace DecimalConformance.Decimal

variable {x : Decimal}

/-- Halving does not stop above the bound. -/
theorem halved_lt {bound : Nat} (positive : 0 < bound) (n : Nat) :
    n / 2 ^ halvings bound n < bound := by
  induction n using Nat.strongRecOn with
  | ind n ih =>
    rw [halvings]
    split
    · next reached =>
      rw [Nat.pow_succ', ← Nat.div_div_eq_div_mul]
      exact ih (n / 2) (by omega)
    · next short =>
      rw [Nat.pow_zero, Nat.div_one]
      omega

/-- What the exponential series adds from a degree on. -/
noncomputable def expTail (y : ℝ) (degree : Nat) : ℝ :=
  Real.exp y - ∑ i ∈ Finset.range degree, y ^ i / i.factorial

theorem expTail_eq (y : ℝ) (degree : Nat) :
    expTail y degree = y ^ degree / degree.factorial + expTail y (degree + 1) := by
  rw [expTail, expTail, Finset.sum_range_succ]
  ring

theorem expTail_nonneg {y : ℝ} (least : 0 ≤ y) (degree : Nat) : 0 ≤ expTail y degree :=
  sub_nonneg.mpr (Real.sum_le_exp_of_nonneg least degree)

/-- The terms from a degree on make no more than twice the first of them. -/
theorem expTail_le {y : ℝ} {degree : Nat} (least : 0 ≤ y) (most : y ≤ 1) (positive : 0 < degree) :
    expTail y degree ≤ 2 * (y ^ degree / degree.factorial) := by
  have bound := Real.exp_bound' least most positive
  have one : (1 : ℝ) ≤ degree := by exact_mod_cast positive
  have term : 0 ≤ y ^ degree / degree.factorial := by positivity
  have ratio : y ^ degree * (degree + 1) / (degree.factorial * degree) ≤
      2 * (y ^ degree / degree.factorial) := by
    calc y ^ degree * (degree + 1) / (degree.factorial * degree) =
          (degree + 1) / degree * (y ^ degree / degree.factorial) := by field_simp
      _ ≤ 2 * (y ^ degree / degree.factorial) := by
        refine mul_le_mul_of_nonneg_right ?_ term
        rw [div_le_iff₀ (by linarith)]
        linarith
  rw [expTail]
  linarith

variable {reduced one : Nat}

/-- A term loses no more than two units, as the one before it does. -/
private theorem isCut_term {k term : Nat} (positive : 0 < one) (small : 2 * reduced ≤ one)
    (cut : IsCut (one * ((reduced / one : ℝ) ^ k / k.factorial)) 2 term) :
    IsCut (one * ((reduced / one : ℝ) ^ (k + 1) / (k + 1).factorial)) 2
      (term * reduced / one / (k + 1)) := by
  have unit : (0 : ℝ) < one := by exact_mod_cast positive
  have next : reduced * (one * ((reduced / one : ℝ) ^ k / k.factorial)) / (one * (k + 1) : Nat) =
      one * ((reduced / one : ℝ) ^ (k + 1) / (k + 1).factorial) := by
    rw [Nat.factorial_succ, pow_succ]
    push_cast
    field_simp
  have halved : reduced * 2 / ((one * (k + 1) : Nat) : ℝ) ≤ 1 := by
    refine div_le_one_of_le₀ ?_ (Nat.cast_nonneg _)
    have below : reduced * 2 ≤ one * (k + 1) := by nlinarith
    exact_mod_cast below
  have divided := (cut.mul_left reduced).div (one * (k + 1))
  rw [next, Nat.mul_comm reduced, ← Nat.div_div_eq_div_mul] at divided
  exact divided.mono (by linarith)

/-- A term times its degree is no more than half of the term before it. -/
theorem two_mul_term_le {degree term : Nat} (positive : 0 < one) (small : 2 * reduced ≤ one) :
    2 * (degree * (term * reduced / one / degree)) ≤ term := by
  refine (Nat.mul_le_mul_left 2 (Nat.mul_div_le ..)).trans
    (Nat.le_of_mul_le_mul_right ?_ positive)
  calc 2 * (term * reduced / one) * one ≤ 2 * (term * reduced) := by
        rw [Nat.mul_assoc]
        exact Nat.mul_le_mul_left 2 (Nat.div_mul_le_self _ _)
    _ = term * (2 * reduced) := by ring
    _ ≤ term * one := Nat.mul_le_mul_left term small

/-- A term is no more than half of the one before it. -/
theorem half_term {k term : Nat} (positive : 0 < one) (small : 2 * reduced ≤ one) :
    2 * (term * reduced / one / (k + 1)) ≤ term :=
  (Nat.mul_le_mul_left 2 (Nat.le_mul_of_pos_left _ k.succ_pos)).trans
    (two_mul_term_le positive small)

theorem seriesTail_of_eq_zero {degree term : Nat} (zero : term * reduced / one / degree = 0) :
    seriesTail reduced one degree term = 0 := by
  rw [seriesTail_def]
  exact if_neg (by simp [zero])

/-- Where a term is cut off altogether, the rest of the series is next to nothing. -/
private theorem isCut_zero_of_term {y : ℝ} {k : Nat} (least : 0 ≤ y) (most : y ≤ 1)
    (cut : IsCut (one * (y ^ (k + 1) / (k + 1).factorial)) 2 0) :
    IsCut (one * expTail y (k + 1)) 4 0 := by
  have tail : one * expTail y (k + 1) ≤ 2 * (one * (y ^ (k + 1) / (k + 1).factorial)) := by
    rw [mul_left_comm]
    exact mul_le_mul_of_nonneg_left (expTail_le least most k.succ_pos) one.cast_nonneg
  have lost := cut.ge
  rw [Nat.cast_zero] at lost
  refine ⟨?_, ?_⟩
  · rw [Nat.cast_zero]
    exact mul_nonneg one.cast_nonneg (expTail_nonneg least _)
  · rw [Nat.cast_zero]
    linarith

/-- The number of terms bounds what the series loses. -/
theorem isCut_seriesTail (positive : 0 < one) (small : 2 * reduced ≤ one) {size k term : Nat}
    (short : term < 2 ^ size) (cut : IsCut (one * ((reduced / one : ℝ) ^ k / k.factorial)) 2 term) :
    IsCut (one * expTail (reduced / one) (k + 1)) (2 * size + 4)
      (seriesTail reduced one (k + 1) term) := by
  have least : 0 ≤ (reduced / one : ℝ) := by positivity
  have most : (reduced / one : ℝ) ≤ 1 :=
    div_le_one_of_le₀ (by exact_mod_cast (by omega : reduced ≤ one)) one.cast_nonneg
  -- By the binary digits of a term: each has one fewer than the term before it.
  induction size generalizing k term with
  | zero =>
    obtain rfl : term = 0 := by omega
    have next := isCut_term positive small cut
    have zero : 0 * reduced / one / (k + 1) = 0 := by simp
    rw [zero] at next
    rw [seriesTail_of_eq_zero zero]
    exact (isCut_zero_of_term least most next).mono (by simp)
  | succ size ih =>
    have next := isCut_term positive small cut
    have half : 2 * (term * reduced / one / (k + 1)) ≤ term := half_term positive small
    rcases Nat.eq_zero_or_pos (term * reduced / one / (k + 1)) with zero | falls
    · rw [seriesTail_of_eq_zero zero]
      rw [zero] at next
      refine (isCut_zero_of_term least most next).mono ?_
      push_cast
      linarith [size.cast_nonneg (α := ℝ)]
    · rw [seriesTail_def, if_pos ⟨falls, by omega⟩, expTail_eq, mul_add]
      rw [Nat.pow_succ] at short
      exact (next.add (ih (by omega) next)).mono (by push_cast; linarith)

/-- The whole series, from the term of degree zero. -/
theorem isCut_series (positive : 0 < one) (small : 2 * reduced ≤ one) {size : Nat}
    (short : one < 2 ^ size) :
    IsCut (one * Real.exp (reduced / one)) (2 * size + 4) (one + seriesTail reduced one 1 one) := by
  have first : IsCut (one * ((reduced / one : ℝ) ^ 0 / Nat.factorial 0)) 2 one := by
    constructor <;> simp
  have rest := isCut_seriesTail positive small short first
  have whole : (one : ℝ) * Real.exp (reduced / one) =
      one + one * expTail (reduced / one) 1 := by
    rw [expTail]
    simp
    ring
  rw [whole]
  exact ((isCut_self one).add rest).mono (by linarith)

/-- In proportion, squaring doubles what is lost, and loses another unit. -/
theorem isCut_squareUp {v loss : ℝ} {sum : Nat} (positive : 0 < one) (least : 1 ≤ v)
    (cut : IsCut (one * v) (one * v * loss) sum) (times : Nat) :
    IsCut (one * v ^ 2 ^ times) (one * v ^ 2 ^ times * (2 ^ times * (loss + 1 / one)))
      (squareUp one times sum) := by
  have unit : (0 : ℝ) < one := by exact_mod_cast positive
  -- The unit that a squaring loses counts as lost before it, so that it is doubled with the rest.
  induction times generalizing v loss sum with
  | zero =>
    have more : one * v * loss ≤ one * v * (loss + 1 / one) :=
      mul_le_mul_of_nonneg_left (by linarith [div_pos one_pos unit]) (by positivity)
    simpa [squareUp] using cut.mono more
  | succ times ih =>
    have square : IsCut (one * v ^ 2) (one * v ^ 2 * (2 * loss + 1 / one)) (sum * sum / one) := by
      have exact : one * v * (one * v) / one = one * v ^ 2 := by field_simp
      have divided := (cut.mul cut).div one
      rw [exact] at divided
      refine divided.mono ?_
      calc (one * v * loss * (one * v) + one * v * (one * v * loss)) / one + 1
          = one * v ^ 2 * (2 * loss) + 1 := by
            field_simp
            ring
        _ ≤ one * v ^ 2 * (2 * loss) + v ^ 2 := by linarith [one_le_pow₀ (n := 2) least]
        _ = one * v ^ 2 * (2 * loss + 1 / one) := by field_simp
    have rest := ih (one_le_pow₀ least) square
    have power : (v ^ 2) ^ 2 ^ times = v ^ 2 ^ (times + 1) := by
      rw [← pow_mul, ← pow_succ']
    have loses : (2 : ℝ) ^ times * (2 * loss + 1 / one + 1 / one) =
        2 ^ (times + 1) * (loss + 1 / one) := by
      rw [pow_succ]
      ring
    rw [power, loses] at rest
    exact rest

/-! ## The reduced argument -/

/-- Halving makes the argument so small that the series falls from the first term on. -/
private theorem abs_value_lt_halved (least : exponentMin ≤ x.exponent) {scale : Nat}
    (most : x.exponent + scale ≤ exponentMax) (positive : 0 < scale) :
    |(x.value : ℝ)| / 2 ^ halvings (Nat.pow 10 scale / 2) (x.toFixed scale) < 1 / 2 := by
  have half : (10 ^ scale / 2 : Nat) * 2 = 10 ^ scale :=
    Nat.div_mul_cancel (dvd_pow (by norm_num) positive.ne')
  have unit : (0 : ℝ) < 10 ^ scale := by positivity
  have bound : 0 < 10 ^ scale / 2 := by
    have whole : 0 < 10 ^ scale := by positivity
    omega
  have below := halved_lt bound (x.toFixed scale)
  rw [Nat.pow_eq]
  generalize halvings (10 ^ scale / 2) (x.toFixed scale) = steps at *
  rw [toFixed_eq_floor least most] at below
  have cast : (2 : ℝ) ^ steps = (2 ^ steps : Nat) := by push_cast; rfl
  rw [← Nat.floor_div_natCast, Nat.floor_lt (by positivity), ← cast] at below
  have half : ((10 ^ scale / 2 : Nat) : ℝ) = 10 ^ scale / 2 := by
    rw [eq_div_iff two_ne_zero]
    exact_mod_cast half
  rw [half, mul_div_right_comm] at below
  nlinarith

private theorem isCut_reduced (least : exponentMin ≤ x.exponent) {scale : Nat}
    (most : x.exponent + scale ≤ exponentMax) (steps : Nat) :
    IsCut ((10 ^ scale : Nat) * (|(x.value : ℝ)| / 2 ^ steps)) 1 (x.toFixed scale / 2 ^ steps) := by
  rw [toFixed_eq_floor least most, ← Nat.floor_div_natCast]
  have whole : |(x.value : ℝ)| * 10 ^ scale / (2 ^ steps : Nat) =
      (10 ^ scale : Nat) * (|(x.value : ℝ)| / 2 ^ steps) := by
    push_cast
    ring
  rw [whole]
  exact isCut_floor (by positivity)

/-- The reduced argument is one half at most, so that every term is half of the one before it. -/
theorem two_mul_reduced_le (least : exponentMin ≤ x.exponent) {probe scale : Nat}
    (probed : x.exponent + probe ≤ exponentMax) (most : x.exponent + scale ≤ exponentMax)
    (positive : 0 < probe) :
    2 * (x.toFixed scale / 2 ^ halvings (Nat.pow 10 probe / 2) (x.toFixed probe)) ≤ 10 ^ scale := by
  have small := abs_value_lt_halved least probed positive
  generalize halvings (Nat.pow 10 probe / 2) (x.toFixed probe) = steps at *
  have cut := isCut_reduced least most steps
  have unit : (0 : ℝ) < (10 ^ scale : Nat) := by positivity
  have half : (2 * (x.toFixed scale / 2 ^ steps : Nat) : ℝ) ≤ (10 ^ scale : Nat) := by
    nlinarith [cut.le]
  exact_mod_cast half

/-- A place is added for every three halvings, which together are less than a factor of ten. -/
private theorem two_pow_le (steps : Nat) : 2 ^ steps ≤ 4 * 10 ^ (steps / 3) := by
  have parts : steps = 3 * (steps / 3) + steps % 3 := (Nat.div_add_mod steps 3).symm
  have rest : 2 ^ (steps % 3) ≤ 2 ^ 2 := Nat.pow_le_pow_right two_pos (by omega)
  calc 2 ^ steps = (2 ^ 3) ^ (steps / 3) * 2 ^ (steps % 3) := by
        rw [← Nat.pow_mul, ← Nat.pow_add, ← parts]
    _ ≤ 10 ^ (steps / 3) * 2 ^ 2 :=
        Nat.mul_le_mul (Nat.pow_le_pow_left (by norm_num) _) rest
    _ = 4 * 10 ^ (steps / 3) := by ring

/-! ## The exponential -/

/-- Squaring raises the sum to what the halved argument stands for. -/
private theorem isCut_raised {y : ℝ} (positive : 0 < one) (small : 2 * reduced ≤ one) {size : Nat}
    (short : one < 2 ^ size) (cut : IsCut (one * y) 1 reduced) (steps : Nat) :
    IsCut (one * Real.exp (2 ^ steps * y))
      (one * Real.exp (2 ^ steps * y) * (2 ^ steps * (2 * size + 6) / one))
      (squareUp one steps (one + seriesTail reduced one 1 one)) := by
  have unit : (0 : ℝ) < one := by exact_mod_cast positive
  have least : 1 ≤ Real.exp (reduced / one) := Real.one_le_exp (by positivity)
  have series : IsCut (one * Real.exp (reduced / one))
      (one * Real.exp (reduced / one) * ((2 * size + 4) / one))
      (one + seriesTail reduced one 1 one) := by
    refine (isCut_series positive small short).mono ?_
    calc (2 * size + 4 : ℝ) ≤ Real.exp (reduced / one) * (2 * size + 4) :=
          le_mul_of_one_le_left (by positivity) least
      _ = one * Real.exp (reduced / one) * ((2 * size + 4) / one) := by field_simp
  have squared := isCut_squareUp positive least series steps
  have power : Real.exp (reduced / one) ^ 2 ^ steps = Real.exp (2 ^ steps * (reduced / one)) := by
    rw [← Real.exp_nat_mul]
    push_cast
    rfl
  rw [power] at squared
  have below : 2 ^ steps * (reduced / one : ℝ) ≤ 2 ^ steps * y := by
    refine mul_le_mul_of_nonneg_left ?_ (by positivity)
    rw [div_le_iff₀ unit]
    linarith [cut.le]
  have above : 2 ^ steps * y - 2 ^ steps / one ≤ 2 ^ steps * (reduced / one : ℝ) := by
    have lost : y - 1 / one ≤ reduced / one := by
      rw [le_div_iff₀ unit, sub_mul, div_mul_cancel₀ _ unit.ne']
      linarith [cut.ge]
    calc 2 ^ steps * y - 2 ^ steps / one = 2 ^ steps * (y - 1 / one) := by ring
      _ ≤ 2 ^ steps * (reduced / one) := mul_le_mul_of_nonneg_left lost (by positivity)
  have most : Real.exp (2 ^ steps * (reduced / one)) ≤ Real.exp (2 ^ steps * y) :=
    Real.exp_le_exp.mpr below
  have part : Real.exp (2 ^ steps * y) * (1 - 2 ^ steps / one) ≤
      Real.exp (2 ^ steps * (reduced / one)) := by
    calc Real.exp (2 ^ steps * y) * (1 - 2 ^ steps / one)
        ≤ Real.exp (2 ^ steps * y) * Real.exp (-(2 ^ steps / one)) := by
          refine mul_le_mul_of_nonneg_left ?_ (Real.exp_pos _).le
          linarith [Real.add_one_le_exp (-(2 ^ steps / one : ℝ))]
      _ = Real.exp (2 ^ steps * y - 2 ^ steps / one) := by rw [← Real.exp_add, sub_eq_add_neg]
      _ ≤ Real.exp (2 ^ steps * (reduced / one)) := Real.exp_le_exp.mpr above
  generalize Real.exp (2 ^ steps * (reduced / one)) = inner at *
  generalize Real.exp (2 ^ steps * y) = outer at *
  constructor
  · exact squared.le.trans (mul_le_mul_of_nonneg_left most unit.le)
  · have proportion : (2 : ℝ) ^ steps * (2 * size + 6) / one =
        2 ^ steps / one + 2 ^ steps * ((2 * size + 4) / one + 1 / one) := by
      field_simp
      ring
    have lost : one * inner * (2 ^ steps * ((2 * size + 4) / one + 1 / one)) ≤
        one * outer * (2 ^ steps * ((2 * size + 4) / one + 1 / one)) :=
      mul_le_mul_of_nonneg_right (mul_le_mul_of_nonneg_left most unit.le) (by positivity)
    have kept := mul_le_mul_of_nonneg_left part unit.le
    rw [proportion, mul_add]
    linarith [squared.ge]

/-- The places behind those asked for make up for all that is lost. -/
private theorem expLoss_le {digits steps : Nat} (most : steps ≤ 18)
    (limited : digits ≤ precisionMax) :
    (2 : ℝ) ^ steps * (2 * (4 * (digits + 10 + steps / 3 + 1) : Nat) + 6) /
      (10 ^ (digits + 10 + steps / 3 + 1) : Nat) ≤ 2 / 10 ^ digits := by
  have spare := two_pow_le steps
  have unit : 10 ^ (digits + 10 + steps / 3 + 1) = 10 ^ digits * 10 ^ 11 * 10 ^ (steps / 3) := by
    rw [← Nat.pow_add, ← Nat.pow_add]
    congr 1
    omega
  have few : 4 * (2 * (4 * (digits + 10 + steps / 3 + 1)) + 6) ≤ 2 * 10 ^ 11 := by
    simp only [precisionMax] at limited
    omega
  rw [div_le_div_iff₀ (by positivity) (by positivity), unit]
  have whole : 2 ^ steps * (2 * (4 * (digits + 10 + steps / 3 + 1)) + 6) * 10 ^ digits ≤
      2 * (10 ^ digits * 10 ^ 11 * 10 ^ (steps / 3)) := by
    calc 2 ^ steps * (2 * (4 * (digits + 10 + steps / 3 + 1)) + 6) * 10 ^ digits
        ≤ 4 * 10 ^ (steps / 3) * (2 * (4 * (digits + 10 + steps / 3 + 1)) + 6) * 10 ^ digits := by
          gcongr
      _ = 4 * (2 * (4 * (digits + 10 + steps / 3 + 1)) + 6) * (10 ^ (steps / 3) * 10 ^ digits) := by
          ring
      _ ≤ 2 * 10 ^ 11 * (10 ^ (steps / 3) * 10 ^ digits) := Nat.mul_le_mul_right _ few
      _ = 2 * (10 ^ digits * 10 ^ 11 * 10 ^ (steps / 3)) := by ring
  exact_mod_cast whole

/-- The digits asked for are right: what is missing is less than two units behind them. -/
theorem expFixed_bounds (least : exponentMin ≤ x.exponent) (size : x.exponent + x.digits ≤ 5)
    {digits : Nat} (limited : digits ≤ precisionMax) :
    (1 - 2 / 10 ^ digits) * Real.exp |(x.value : ℝ)| ≤ ((x.expFixed digits).value : ℝ) ∧
      ((x.expFixed digits).value : ℝ) ≤ Real.exp |(x.value : ℝ)| := by
  have halved := halvings_toFixed_le least size (digits + 2) (by omega)
  have lead := x.digits_pos
  simp only [precisionMax] at limited
  have probe : x.exponent + (digits + 2 : Nat) ≤ exponentMax := by
    simp only [exponentMax]
    omega
  have falls {scale : Nat} (top : x.exponent + scale ≤ exponentMax) :=
    two_mul_reduced_le least probe top (by omega)
  simp only [expFixed, expFixedBy, Id.run_bind, Id.run_pure, run_seriesTailBy]
  generalize halvings (Nat.pow 10 (digits + 2) / 2) (x.toFixed (digits + 2)) = steps at *
  have top : x.exponent + (digits + 10 + steps / 3 + 1 : Nat) ≤ exponentMax := by
    simp only [exponentMax]
    omega
  have cut := isCut_reduced least top steps
  have falls := falls top
  have spare := expLoss_le (by omega : steps ≤ 18) limited
  have places : digits + 10 + steps / 3 + 1 ≠ 0 := Nat.succ_ne_zero _
  generalize digits + 10 + steps / 3 + 1 = scale at *
  simp only [Nat.pow_eq] at *
  generalize x.toFixed scale / 2 ^ steps = reduced at *
  have unit : (0 : ℝ) < (10 ^ scale : Nat) := by positivity
  have short : 10 ^ scale < 2 ^ (4 * scale) := by
    rw [Nat.pow_mul]
    exact Nat.pow_lt_pow_left (by norm_num) places
  have raised := isCut_raised (by positivity) falls short cut steps
  rw [mul_div_cancel₀ _ (by positivity)] at raised
  generalize squareUp (10 ^ scale) steps _ = n at *
  rw [value_fixed, Int.cast_natCast]
  constructor
  · rw [le_div_iff₀ unit]
    have lost := mul_le_mul_of_nonneg_left spare
      (mul_nonneg unit.le (Real.exp_pos |(x.value : ℝ)|).le)
    linarith [raised.ge]
  · rw [div_le_iff₀ unit, mul_comm]
    exact raised.le

end DecimalConformance.Decimal
