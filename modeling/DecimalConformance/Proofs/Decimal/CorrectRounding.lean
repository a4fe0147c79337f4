import DecimalConformance.Proofs.Decimal.ExactArithmetic
import Mathlib.Algebra.Order.Field.Power
import Mathlib.Algebra.Order.Group.Int
import Mathlib.Tactic.FieldSimp
import Mathlib.Tactic.Positivity

/-! Correct rounding to some significant digits.
The size of a number determines the place of its last significant digit, and the mode selects one of
the multiples of that place next to it.  A larger number is not rounded to a smaller one, so there is one
way to round.  Nothing is said of exponents here: rounding a decimal is correct as long as its exponent
may grow. -/
namespace DecimalConformance

variable {K : Type} [Field K] [LinearOrder K] [IsStrictOrderedRing K]

namespace RoundingMode

/-- The natural number that the mode selects for a number that is not negative. -/
def Selects (mode : RoundingMode) (x : K) (n : Nat) : Prop :=
  match mode with
  | towardZero => n ≤ x ∧ x < n + 1
  | nearestAway => |x - n| < 1 / 2 ∨ n = x + 1 / 2
  | nearestEven => |x - n| < 1 / 2 ∨ |x - n| = 1 / 2 ∧ Even n

/-- At most half a unit lies between a number and one of its nearest. -/
theorem Selects.abs_sub_le_half {mode : RoundingMode} {x : K} {n : Nat} (h : mode.Selects x n)
    (nearest : mode ≠ .towardZero) : |x - n| ≤ 1 / 2 := by
  cases mode with
  | towardZero => exact absurd rfl nearest
  | nearestAway =>
    rcases h with near | tie
    · exact near.le
    · rw [tie, sub_add_cancel_left, abs_neg, abs_of_pos (by norm_num)]
  | nearestEven =>
    rcases h with near | ⟨tie, -⟩
    · exact near.le
    · exact tie.le

/-- A larger number is not taken to a smaller one. -/
theorem Selects.mono {mode : RoundingMode} {x y : K} {n m : Nat} (h : mode.Selects x n)
    (h' : mode.Selects y m) (le : x ≤ y) : n ≤ m := by
  by_contra less
  have apart : (m : K) + 1 ≤ n := by exact_mod_cast not_le.mp less
  by_cases toward : mode = .towardZero
  · subst toward
    exact absurd ((h.1.trans le).trans_lt h'.2) (not_lt.mpr apart)
  · -- Both numbers are the half between the two then, and one of the two is ruled out.
    have left := abs_le.mp (h'.abs_sub_le_half toward)
    have right := abs_le.mp (h.abs_sub_le_half toward)
    have next : (n : K) = m + 1 := by linarith
    have tie : y - m = 1 / 2 := by linarith
    have tie' : x - n = -(1 / 2) := by linarith
    cases mode with
    | towardZero => exact toward rfl
    | nearestAway =>
      rcases h' with near | up
      · rw [tie, abs_of_pos (by norm_num)] at near
        exact lt_irrefl _ near
      · linarith
    | nearestEven =>
      rcases h' with near | ⟨-, even⟩
      · rw [tie, abs_of_pos (by norm_num)] at near
        exact lt_irrefl _ near
      · rcases h with near | ⟨-, even'⟩
        · rw [tie', abs_neg, abs_of_pos (by norm_num)] at near
          exact lt_irrefl _ near
        · have next : n = m + 1 := by exact_mod_cast next
          rw [next] at even'
          exact (Nat.even_add_one.mp even') even

/-- A natural number is selected for itself. -/
theorem selects_natCast (mode : RoundingMode) (n : Nat) : mode.Selects (n : K) n := by
  cases mode <;> simp [Selects]

/-- The engine selects by the remainder of a division what the mode wants. -/
theorem selects_quotient (mode : RoundingMode) (n : Nat) {divisor : Nat} (positive : 0 < divisor) :
    mode.Selects ((n : K) / divisor) (mode.quotient n divisor) := by
  have unit : (0 : K) < divisor := by exact_mod_cast positive
  have below : ((n % divisor : Nat) : K) < divisor := by exact_mod_cast Nat.mod_lt n positive
  have split : (n : K) = divisor * (n / divisor : Nat) + (n % divisor : Nat) := by
    exact_mod_cast (Nat.div_add_mod n divisor).symm
  rw [quotient, split]
  generalize n / divisor = q at *
  generalize n % divisor = r at *
  have whole : ((divisor : K) * q + r) / divisor = q + r / divisor := by field_simp
  have least : 0 ≤ (r : K) / divisor := by positivity
  have most : (r : K) / divisor < 1 := (div_lt_one unit).mpr below
  have under (h : 2 * r < divisor) : (r : K) / divisor < 1 / 2 := by
    rw [div_lt_div_iff₀ unit two_pos]
    exact_mod_cast (by omega : r * 2 < 1 * divisor)
  have half (h : divisor = 2 * r) : (r : K) / divisor = 1 / 2 := by
    rw [div_eq_div_iff unit.ne' two_ne_zero]
    exact_mod_cast (by omega : r * 2 = 1 * divisor)
  have above (h : divisor < 2 * r) : 1 / 2 < (r : K) / divisor := by
    rw [div_lt_div_iff₀ two_pos unit]
    exact_mod_cast (by omega : 1 * divisor < r * 2)
  rw [whole]
  generalize (r : K) / divisor = t at *
  have up (h : 1 / 2 < t) : |(q : K) + t - (q + 1 : Nat)| < 1 / 2 := by
    rw [abs_lt]
    push_cast
    constructor <;> linarith
  have down (h : t < 1 / 2) : |(q : K) + t - q| < 1 / 2 := by
    rwa [add_sub_cancel_left, abs_of_nonneg least]
  -- What is decided is how the fraction compares with one half.
  cases mode with
  | towardZero =>
    rw [if_neg (by simp [movesAway])]
    exact ⟨by linarith, by linarith⟩
  | nearestAway =>
    rcases Nat.lt_trichotomy divisor (2 * r) with more | tie | less
    · rw [if_pos (by simp [movesAway, more.le])]
      exact .inl (up (above more))
    · rw [if_pos (by simp [movesAway, tie])]
      refine .inr ?_
      push_cast
      linarith [half tie]
    · rw [if_neg (by simp [movesAway, less])]
      exact .inl (down (under less))
  | nearestEven =>
    rcases Nat.lt_trichotomy divisor (2 * r) with more | tie | less
    · rw [if_pos (by simp [movesAway, more])]
      exact .inl (up (above more))
    · by_cases odd : q % 2 = 1
      · rw [if_pos (by simp [movesAway, tie, odd])]
        refine .inr ⟨?_, Nat.even_add_one.mpr (Nat.not_even_iff.mpr odd)⟩
        rw [half tie, abs_of_neg] <;> push_cast <;> linarith
      · rw [if_neg (by simp [movesAway, tie, odd])]
        refine .inr ⟨?_, Nat.even_iff.mpr (by omega)⟩
        rw [half tie, add_sub_cancel_left, abs_of_pos (by norm_num)]
    · rw [if_neg (by simp [movesAway, less.le, less.ne'])]
      exact .inl (down (under less))

end RoundingMode

/-- `z` is `x` rounded to some significant digits; without a limit it is `x` itself. -/
def RoundsTo (mode : RoundingMode) (precision : Nat) (x z : K) : Prop :=
  if precision = 0 ∨ x = 0 then z = x
  else ∃ (place : Int) (n : Nat),
    10 ^ (precision - 1) * 10 ^ place ≤ |x| ∧ |x| < 10 ^ precision * 10 ^ place ∧
      mode.Selects (|x| / 10 ^ place) n ∧ |z| = n * 10 ^ place ∧ 0 ≤ x * z

/-- All the digits at a place make no more than the leading one at a higher place. -/
theorem filled_le_lead {precision : Nat} {place place' : Int} (positive : 0 < precision)
    (lower : place < place') :
    (10 : K) ^ precision * 10 ^ place ≤ 10 ^ (precision - 1) * 10 ^ place' := by
  have step : (10 : K) ^ precision * 10 ^ place = 10 ^ (precision - 1) * 10 ^ (place + 1) := by
    obtain ⟨width, rfl⟩ : ∃ width, precision = width + 1 := ⟨precision - 1, by omega⟩
    rw [zpow_add_one₀ (by norm_num), Nat.add_sub_cancel, pow_succ]
    ring
  have coarser : (10 : K) ^ (place + 1) ≤ 10 ^ place' :=
    zpow_le_zpow_right₀ (by norm_num) lower
  rw [step]
  exact mul_le_mul_of_nonneg_left coarser (by positivity)

/-- The size of a number leaves one place for its last significant digit. -/
private theorem place_le {precision : Nat} {place place' : Int} {size : K} (positive : 0 < precision)
    (least : 10 ^ (precision - 1) * 10 ^ place' ≤ size) (most : size < 10 ^ precision * 10 ^ place) :
    place' ≤ place := by
  by_contra lower
  exact absurd ((filled_le_lead positive (not_le.mp lower)).trans least) (not_le.mpr most)

/-! ## Rounding keeps the order of numbers -/

namespace RoundsTo

variable {mode : RoundingMode} {precision : Nat} {x y z w : K}

omit [IsStrictOrderedRing K] in
theorem eq_zero_of_zero (h : RoundsTo mode precision 0 z) : z = 0 := by
  rwa [RoundsTo, if_pos (.inr rfl)] at h

omit [IsStrictOrderedRing K] in
theorem neg (h : RoundsTo mode precision x z) : RoundsTo mode precision (-x) (-z) := by
  unfold RoundsTo at h ⊢
  simpa only [neg_eq_zero, neg_inj, abs_neg, neg_mul_neg] using h

theorem nonneg (h : RoundsTo mode precision x z) (least : 0 ≤ x) : 0 ≤ z := by
  unfold RoundsTo at h
  split_ifs at h with unlimited
  · rwa [h]
  · obtain ⟨place, n, -, -, -, -, sign⟩ := h
    have positive := least.lt_of_ne' (not_or.mp unlimited).2
    exact (mul_nonneg_iff_of_pos_left positive).mp sign

/-- A number as large as another one is not rounded to a smaller size. -/
theorem abs_le_abs (h : RoundsTo mode precision x z) (h' : RoundsTo mode precision y w)
    (le : |x| ≤ |y|) : |z| ≤ |w| := by
  by_cases zero : x = 0
  · subst zero
    rw [h.eq_zero_of_zero, abs_zero]
    exact abs_nonneg w
  have zero' : y ≠ 0 := abs_pos.mp ((abs_pos.mpr zero).trans_le le)
  unfold RoundsTo at h h'
  simp only [zero, zero', or_false] at h h'
  split_ifs at h h' with unlimited
  · rwa [h, h']
  · obtain ⟨place, n, least, most, selects, size, -⟩ := h
    obtain ⟨place', m, least', most', selects', size', -⟩ := h'
    have positive := Nat.pos_of_ne_zero unlimited
    have unit : (0 : K) < 10 ^ place := by positivity
    have unit' : (0 : K) < 10 ^ place' := by positivity
    rw [size, size']
    rcases (place_le positive (least.trans le) most').eq_or_lt with rfl | lower
    · have order := selects.mono selects' (div_le_div_of_nonneg_right le unit.le)
      exact mul_le_mul_of_nonneg_right (by exact_mod_cast order) unit.le
    · -- The powers of ten that bound the two sizes are multiples of their places.
      have filled : n ≤ 10 ^ precision := by
        refine selects.mono (mode.selects_natCast _) ?_
        rw [Nat.cast_pow, Nat.cast_ofNat]
        exact (div_le_iff₀ unit).mpr most.le
      have lead : 10 ^ (precision - 1) ≤ m := by
        refine (mode.selects_natCast _).mono selects' ?_
        rw [Nat.cast_pow, Nat.cast_ofNat]
        exact (le_div_iff₀ unit').mpr least'
      calc (n : K) * 10 ^ place ≤ 10 ^ precision * 10 ^ place :=
            mul_le_mul_of_nonneg_right (by exact_mod_cast filled) unit.le
        _ ≤ 10 ^ (precision - 1) * 10 ^ place' := filled_le_lead positive lower
        _ ≤ m * 10 ^ place' := mul_le_mul_of_nonneg_right (by exact_mod_cast lead) unit'.le

/-- Numbers are rounded in their order. -/
theorem mono (h : RoundsTo mode precision x z) (h' : RoundsTo mode precision y w) (le : x ≤ y) :
    z ≤ w := by
  rcases le_total 0 x with least | most
  · have sizes := h.abs_le_abs h' (abs_le_abs_of_nonneg least le)
    rwa [abs_of_nonneg (h.nonneg least), abs_of_nonneg (h'.nonneg (least.trans le))] at sizes
  have negative : z ≤ 0 := neg_nonneg.mp (h.neg.nonneg (neg_nonneg.mpr most))
  rcases le_total 0 y with least' | most'
  · exact negative.trans (h'.nonneg least')
  · have negative' : w ≤ 0 := neg_nonneg.mp (h'.neg.nonneg (neg_nonneg.mpr most'))
    have sizes := h'.abs_le_abs h (abs_le_abs_of_nonpos most' le)
    rw [abs_of_nonpos negative', abs_of_nonpos negative] at sizes
    exact neg_le_neg_iff.mp sizes

/-- There is one way to round a number. -/
theorem unique {z' : K} (h : RoundsTo mode precision x z) (h' : RoundsTo mode precision x z') :
    z = z' :=
  (h.mono h' le_rfl).antisymm (h'.mono h le_rfl)

end RoundsTo

namespace Decimal

variable {d : Decimal} {precision : Nat}

/-- A decimal at some significant digits, whatever exponent that takes. -/
def roundFreely (d : Decimal) (precision : Nat) (mode : RoundingMode) : Decimal :=
  if precision = 0 ∨ d.digits ≤ precision then d
  else
    let dropped := d.digits - precision
    let kept := mode.quotient d.coefficient.natAbs (10 ^ dropped)
    if precision < digitCount kept then
      ⟨d.coefficient.sign * ↑(kept / 10), d.exponent + dropped + 1⟩
    else ⟨d.coefficient.sign * ↑kept, d.exponent + dropped⟩

/-- A carry leads to the next power of ten and no further. -/
theorem roundFreely_of_lt (mode : RoundingMode) (positive : 0 < precision)
    (long : precision < d.digits) :
    ∃ kept carry : Nat, kept = mode.quotient d.coefficient.natAbs (10 ^ (d.digits - precision)) ∧
      (carry = if kept = 10 ^ precision then 1 else 0) ∧ kept ≠ 0 ∧ 10 ^ carry ∣ kept ∧
      d.roundFreely precision mode =
        ⟨d.coefficient.sign * ↑(kept / 10 ^ carry),
          d.exponent + ↑(d.digits - precision) + carry⟩ := by
  obtain ⟨width, rfl⟩ : ∃ width, precision = width + 1 := ⟨precision - 1, by omega⟩
  obtain ⟨least, most⟩ := kept_bounds d.coefficient.natAbs width (d.digits - (width + 1)) mode
    (by simp only [digits] at *; omega) (by omega)
  have power : Nat.pow 10 (d.digits - (width + 1)) = 10 ^ (d.digits - (width + 1)) := rfl
  have unit : 0 < 10 ^ width := Nat.pow_pos (by omega)
  rw [power] at least most
  have unlimited : ¬ (width + 1 = 0 ∨ d.digits ≤ width + 1) := by omega
  rw [roundFreely, if_neg unlimited]
  dsimp only
  generalize mode.quotient d.coefficient.natAbs (10 ^ (d.digits - (width + 1))) = kept at *
  by_cases carried : width + 1 < digitCount kept
  · have full : kept = 10 ^ (width + 1) :=
      Nat.le_antisymm most ((lt_digitCount_iff positive).mp carried)
    refine ⟨kept, 1, rfl, by rw [if_pos full], by omega, ?_, by rw [if_pos carried]; rfl⟩
    rw [full]
    exact Nat.pow_dvd_pow 10 positive
  · have short := (digitCount_le_iff positive).mp (not_lt.mp carried)
    refine ⟨kept, 0, rfl, by rw [if_neg short.ne], by omega, one_dvd kept, ?_⟩
    rw [if_neg carried]
    simp

/-- The decimal with its exponent held at the largest one. -/
def capped (d : Decimal) : Decimal := ⟨d.coefficient, min exponentMax d.exponent⟩

theorem capped_eq_self (most : d.exponent ≤ exponentMax) : d.capped = d := by
  rw [capped, min_eq_right most]

theorem round_eq_capped_of_lt (mode : RoundingMode) (positive : 0 < precision)
    (long : precision < d.digits) (least : exponentMin ≤ d.exponent) :
    d.round precision mode = (d.roundFreely precision mode).capped := by
  have limited : ¬ (precision = 0 ∨ d.digits ≤ precision) := by omega
  have power : Nat.pow 10 (d.digits - precision) = 10 ^ (d.digits - precision) := rfl
  rw [round, roundFreely, if_neg limited, if_neg limited]
  dsimp only
  rw [power]
  split_ifs <;>
    simp only [capped, saturate, exponentMin, exponentMax, Decimal.mk.injEq, true_and] at * <;>
    omega

theorem round_eq_capped (mode : RoundingMode) (positive : 0 < precision)
    (fits : ExponentFits d.exponent) :
    d.round precision mode = (d.roundFreely precision mode).capped := by
  rcases Nat.lt_or_ge precision d.digits with long | short
  · exact round_eq_capped_of_lt mode positive long fits.1
  · rw [round_of_digits_le mode short, roundFreely, if_pos (.inr short), capped_eq_self fits.2]

@[simp] theorem stored_capped (d : Decimal) : d.capped.stored = d.stored := by
  simp [capped, stored]

/-- Rounding differs from rounding freely only by the range of exponents. -/
theorem stored_round (mode : RoundingMode) (least : exponentMin ≤ d.exponent) :
    (d.round precision mode).stored = (d.roundFreely precision mode).stored := by
  by_cases whole : precision = 0 ∨ d.digits ≤ precision
  · rw [round, roundFreely, if_pos whole, if_pos whole]
  · rw [round_eq_capped_of_lt mode (by omega) (by omega) least, stored_capped]

theorem digits_roundFreely_of_lt (mode : RoundingMode) (positive : 0 < precision)
    (long : precision < d.digits) : (d.roundFreely precision mode).digits = precision := by
  have coefficient :
      (d.roundFreely precision mode).coefficient = (d.round precision mode).coefficient := by
    have power : Nat.pow 10 (d.digits - precision) = 10 ^ (d.digits - precision) := rfl
    unfold round roundFreely
    dsimp only
    rw [power]
    split_ifs <;> rfl
  calc (d.roundFreely precision mode).digits = (d.round precision mode).digits := by
        rw [digits, coefficient, ← digits]
    _ = precision := digits_round_of_lt mode positive long

/-- The exponent rises by no more than the digits there are: one of them is kept. -/
theorem exponent_roundFreely_le (d : Decimal) (mode : RoundingMode) (positive : 0 < precision) :
    (d.roundFreely precision mode).exponent ≤ d.exponent + d.digits := by
  unfold roundFreely
  split_ifs
  · omega
  · dsimp only
    split_ifs <;> dsimp only <;> omega

/-! ## Rounding decimals is correct -/

theorem pow_mul_zpow (n : Nat) (e : Int) : (10 : ℚ) ^ n * 10 ^ e = 10 ^ (n + e) := by
  rw [← zpow_natCast, zpow_add₀ (by norm_num)]

theorem abs_value (d : Decimal) : |d.value| = d.coefficient.natAbs * 10 ^ d.exponent := by
  have unit : (0 : ℚ) < 10 ^ d.exponent := by positivity
  rw [value, abs_mul, abs_of_pos unit, Nat.cast_natAbs, Int.cast_abs]

theorem abs_value_eq_shifted {low : Int} (le : low ≤ d.exponent) :
    |d.value| = ↑(d.coefficient.natAbs * 10 ^ (d.exponent - low).toNat) * 10 ^ low := by
  have unit : (0 : ℚ) < 10 ^ low := by positivity
  rw [value_eq_shifted le, abs_mul, abs_of_pos unit, ← natAbs_shifted, Nat.cast_natAbs, Int.cast_abs]

/-- The digits of a decimal and its exponent give the size of its value. -/
theorem abs_value_bounds (nonzero : d.coefficient ≠ 0) :
    (10 : ℚ) ^ (d.digits - 1 + d.exponent) ≤ |d.value| ∧
      |d.value| < 10 ^ (d.digits + d.exponent) := by
  have unit : (0 : ℚ) < 10 ^ d.exponent := by positivity
  have lead := pow_digitCount_sub_le (Int.natAbs_pos.mpr nonzero)
  have most : d.coefficient.natAbs < 10 ^ digitCount d.coefficient.natAbs := lt_pow_digitCount _
  have one := d.digits_pos
  have least : ((d.digits : Int) - 1 + d.exponent) = ((d.digits - 1 : Nat) : Int) + d.exponent := by
    omega
  rw [abs_value, least, ← pow_mul_zpow, ← pow_mul_zpow]
  constructor
  · exact mul_le_mul_of_nonneg_right (by exact_mod_cast lead) unit.le
  · exact mul_lt_mul_of_pos_right (by exact_mod_cast most) unit

private theorem value_roundFreely (mode : RoundingMode) (positive : 0 < precision)
    (long : precision < d.digits) :
    (d.roundFreely precision mode).value =
      d.coefficient.sign * ↑(mode.quotient d.coefficient.natAbs (10 ^ (d.digits - precision))) *
        10 ^ (d.exponent + ↑(d.digits - precision)) := by
  obtain ⟨kept, carry, selected, -, -, divides, free⟩ := roundFreely_of_lt mode positive long
  have whole : ((kept / 10 ^ carry : Nat) : ℚ) * 10 ^ carry = kept := by
    exact_mod_cast Nat.div_mul_cancel divides
  rw [free, value, ← selected, ← whole, Int.cast_mul, Int.cast_natCast, zpow_add₀ (by norm_num),
    zpow_natCast]
  ring

/-- `z` is what the mode selects for `x` among the multiples of a place. -/
structure Selected (mode : RoundingMode) (place : Int) (x z : ℚ) (n : Nat) : Prop where
  selects : mode.Selects (|x| / 10 ^ place) n
  size : |z| = n * 10 ^ place
  sign : 0 ≤ x * z

private theorem selected_of_lt (mode : RoundingMode) (positive : 0 < precision)
    (long : precision < d.digits) :
    Selected mode (d.exponent + ↑(d.digits - precision)) d.value
      (d.roundFreely precision mode).value
      (mode.quotient d.coefficient.natAbs (10 ^ (d.digits - precision))) := by
  have nonzero : d.coefficient ≠ 0 := coefficient_ne_zero_of_digits (by omega)
  rw [value_roundFreely mode positive long]
  constructor
  case selects =>
    have quotient : |d.value| / 10 ^ (d.exponent + ↑(d.digits - precision)) =
        (d.coefficient.natAbs : ℚ) / (10 ^ (d.digits - precision) : Nat) := by
      rw [abs_value, zpow_add₀ (by norm_num), zpow_natCast]
      push_cast
      field_simp
    rw [quotient]
    exact mode.selects_quotient _ (Nat.pow_pos (by omega))
  case size =>
    have unit : |(d.coefficient.sign : ℚ)| = 1 := by
      exact_mod_cast Int.abs_sign_of_ne_zero nonzero
    rw [abs_mul, abs_mul, unit, one_mul, Nat.abs_cast, abs_of_pos (by positivity)]
  case sign =>
    have size : (d.coefficient : ℚ) * d.coefficient.sign = d.coefficient.natAbs := by
      rw [← Int.cast_mul, Int.mul_sign_self, Int.cast_natCast]
    generalize mode.quotient d.coefficient.natAbs (10 ^ (d.digits - precision)) = kept
    generalize d.exponent + ↑(d.digits - precision) = place
    have product : d.value * (d.coefficient.sign * kept * 10 ^ place) =
        d.coefficient.natAbs * kept * (10 ^ d.exponent * 10 ^ place) := by
      rw [← size, value]
      ring
    rw [product]
    positivity

/-- What is short enough is a multiple of its last place already. -/
private theorem selected_of_le (mode : RoundingMode) {place : Int} (more : Nat)
    (exponent : d.exponent = more + place) :
    Selected mode place d.value d.value (d.coefficient.natAbs * 10 ^ more) := by
  have whole : |d.value| = ↑(d.coefficient.natAbs * 10 ^ more) * 10 ^ place := by
    rw [abs_value, exponent, ← pow_mul_zpow]
    push_cast
    ring
  refine ⟨?_, whole, mul_self_nonneg _⟩
  rw [whole, mul_div_cancel_right₀ _ (zpow_ne_zero _ (by norm_num))]
  exact mode.selects_natCast _

/-- The engine rounds correctly, but for the range of exponents. -/
theorem roundsTo_roundFreely (d : Decimal) (precision : Nat) (mode : RoundingMode) :
    RoundsTo mode precision d.value (d.roundFreely precision mode).value := by
  unfold RoundsTo
  split_ifs with unlimited
  · have whole : precision = 0 ∨ d.digits ≤ precision := by
      rcases unlimited with none | zero
      · exact .inl none
      · have one : d.digits = 1 := by
          rw [digits, value_eq_zero_iff.mp zero]
          decide
        omega
    rw [roundFreely, if_pos whole]
  · obtain ⟨limited, nonzero⟩ := not_or.mp unlimited
    obtain ⟨least, most⟩ := abs_value_bounds (mt value_eq_zero_iff.mpr nonzero)
    obtain ⟨place, last⟩ : ∃ place : Int, d.digits + d.exponent = precision + place :=
      ⟨d.digits + d.exponent - precision, by omega⟩
    have first : d.digits - 1 + d.exponent = (precision - 1 : Nat) + place := by omega
    obtain ⟨n, selects, size, sign⟩ :
        ∃ n, Selected mode place d.value (d.roundFreely precision mode).value n := by
      rcases Nat.lt_or_ge precision d.digits with long | short
      · obtain rfl : place = d.exponent + ↑(d.digits - precision) := by omega
        exact ⟨_, selected_of_lt mode (Nat.pos_of_ne_zero limited) long⟩
      · rw [roundFreely, if_pos (.inr short)]
        exact ⟨_, selected_of_le mode (precision - d.digits) (by omega)⟩
    rw [first, ← pow_mul_zpow] at least
    rw [last, ← pow_mul_zpow] at most
    exact ⟨place, n, least, most, selects, size, sign⟩

end Decimal
end DecimalConformance
