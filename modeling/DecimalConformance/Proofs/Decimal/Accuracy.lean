import DecimalConformance.Proofs.Decimal.IdealForm
import DecimalConformance.Proofs.Decimal.MonotoneRounding
import DecimalConformance.Proofs.Decimal.NearestDecimal
import Mathlib.Data.Real.Basic

/-! Rounding what is near a number.
A rounded decimal is off by a part of the unit in its last place.  What it was rounded from may be
off as well: as long as that is little in proportion, beyond the digits that are kept, hardly more
than the one rounding shows. -/
namespace DecimalConformance

variable {mode : RoundingMode} {precision : Nat}

/-- The part of a unit that rounding may be off by. -/
def RoundingMode.reach : RoundingMode → ℚ
  | .towardZero => 1
  | .nearestAway | .nearestEven => 1 / 2

theorem RoundingMode.reach_pos (mode : RoundingMode) : 0 < mode.reach := by
  cases mode <;> norm_num [reach]

theorem RoundingMode.reach_le_one (mode : RoundingMode) : mode.reach ≤ 1 := by
  cases mode <;> norm_num [reach]

theorem RoundingMode.Selects.abs_sub_le_reach {x : ℚ} {n : Nat} (h : mode.Selects x n) :
    |x - n| ≤ mode.reach := by
  cases mode with
  | towardZero =>
    obtain ⟨below, above⟩ := h
    rw [abs_of_nonneg (sub_nonneg.mpr below)]
    exact (sub_lt_iff_lt_add'.mpr above).le
  | nearestAway | nearestEven => exact h.abs_sub_le_half (by simp)

namespace RoundsTo

variable {x z : ℚ}

/-- The place that a number is rounded at, by its size. -/
theorem exists_place (h : RoundsTo mode precision x z) (nonzero : x ≠ 0)
    (positive : 0 < precision) :
    ∃ place : Int, 10 ^ (precision - 1) * 10 ^ place ≤ |x| ∧ |x| < 10 ^ precision * 10 ^ place ∧
      10 ^ (precision - 1) * 10 ^ place ≤ |z| ∧ |x - z| ≤ mode.reach * 10 ^ place := by
  unfold RoundsTo at h
  rw [if_neg (by simp [positive.ne', nonzero])] at h
  obtain ⟨place, n, least, most, selects, size, sign⟩ := h
  have unit : (0 : ℚ) < 10 ^ place := by positivity
  have lead : 10 ^ (precision - 1) ≤ n := by
    refine (mode.selects_natCast _).mono selects ?_
    rw [Nat.cast_pow, Nat.cast_ofNat]
    exact (le_div_iff₀ unit).mpr least
  refine ⟨place, least, most, ?_, ?_⟩
  · rw [size]
    exact mul_le_mul_of_nonneg_right (by exact_mod_cast lead) unit.le
  · rw [Decimal.abs_sub_eq_of_multiple size sign]
    exact mul_le_mul_of_nonneg_right selects.abs_sub_le_reach unit.le

/-- What rounding changes, in proportion to the number. -/
theorem abs_sub_le (h : RoundsTo mode precision x z) (positive : 0 < precision) :
    |x - z| ≤ mode.reach * 10 ^ (1 - precision : Int) * |x| := by
  by_cases zero : x = 0
  · subst zero
    rw [h.eq_zero_of_zero]
    simp
  · obtain ⟨place, least, -, -, off⟩ := h.exists_place zero positive
    have unit : (10 : ℚ) ^ place =
        10 ^ (1 - precision : Int) * (10 ^ (precision - 1) * 10 ^ place) := by
      rw [← zpow_natCast, ← zpow_add₀ (by norm_num), ← zpow_add₀ (by norm_num)]
      congr 1
      omega
    calc |x - z| ≤ mode.reach * 10 ^ place := off
      _ = mode.reach * 10 ^ (1 - precision : Int) * (10 ^ (precision - 1) * 10 ^ place) := by
          rw [mul_assoc, ← unit]
      _ ≤ mode.reach * 10 ^ (1 - precision : Int) * |x| :=
          mul_le_mul_of_nonneg_left least (mul_nonneg mode.reach_pos.le (by positivity))

/-- What rounding changes, in units of the last digit that it keeps. -/
theorem abs_sub_mul_pow_le (h : RoundsTo mode precision x z) (positive : 0 < precision) :
    |(z : ℝ) - x| * 10 ^ precision ≤ 10 * mode.reach * |(x : ℝ)| := by
  have off := mul_le_mul_of_nonneg_right (h.abs_sub_le positive)
    (by positivity : (0 : ℚ) ≤ 10 ^ precision)
  have unit : mode.reach * 10 ^ (1 - precision : Int) * |x| * 10 ^ precision =
      10 * mode.reach * |x| := by
    rw [zpow_sub₀ (by norm_num), zpow_natCast]
    field_simp
  rw [unit, abs_sub_comm] at off
  exact_mod_cast off

/-- A number is rounded to one on the same side of zero. -/
theorem mul_pos (h : RoundsTo mode precision x z) (nonzero : x ≠ 0) (positive : 0 < precision) :
    0 < x * z := by
  obtain ⟨place, -, -, least, -⟩ := h.exists_place nonzero positive
  unfold RoundsTo at h
  rw [if_neg (by simp [positive.ne', nonzero])] at h
  obtain ⟨-, -, -, -, -, -, sign⟩ := h
  have nonzero' : z ≠ 0 := abs_pos.mp (lt_of_lt_of_le (by positivity) least)
  exact lt_of_le_of_ne sign (mul_ne_zero nonzero nonzero').symm

end RoundsTo

namespace Decimal

variable {d r : Decimal} {x : ℝ} {excess : ℚ}

theorem CorrectlyRounded.abs_sub_le {ideal : Int} {x : ℚ}
    (h : CorrectlyRounded mode precision ideal x r) (positive : 0 < precision) :
    |x - r.value| ≤ mode.reach * 10 ^ (1 - precision : Int) * |x| := by
  by_cases short : ∃ d, IsIdealForm ideal x d ∧ d.digits ≤ precision
  · obtain ⟨d, form, short⟩ := short
    have same : d.value = x := form.value_eq
    rw [h.exact d form short, same, sub_self, abs_zero]
    exact mul_nonneg (mul_nonneg mode.reach_pos.le (by positivity)) (abs_nonneg x)
  · push Not at short
    exact (h.rounded short).2.abs_sub_le positive

/-- A result is off by less than a rounding, and a part of a unit beyond. -/
def IsAccurate (excess : ℚ) (mode : RoundingMode) (precision : Nat) (x : ℝ) (r : Decimal) : Prop :=
  |(r.value : ℝ) - x| < ((mode.reach + excess) * 10 ^ (r.adjusted - precision + 1) : ℚ)

/-- The leading digit of a number that reaches a power of ten does not lie below it. -/
theorem le_adjusted {place : Int} (least : (10 : ℚ) ^ place ≤ |r.value|)
    (most : place < exponentMax) : place ≤ r.adjusted := by
  have nonzero : r.coefficient ≠ 0 := by
    intro zero
    rw [value_eq_zero_iff.mpr zero, abs_zero] at least
    exact absurd least (not_le.mpr (by positivity))
  have order := (zpow_lt_zpow_iff_right₀ (by norm_num : (1 : ℚ) < 10)).mp
    (least.trans_lt (abs_value_bounds nonzero).2)
  simp only [adjusted, saturate, exponentMin, exponentMax] at *
  omega

/-- The digits of a number below a power of ten have their places below it. -/
theorem places_le (place : Int) (nonzero : d.coefficient ≠ 0) (most : |d.value| < 10 ^ place) :
    d.exponent + d.digits ≤ place := by
  have order := (zpow_lt_zpow_iff_right₀ (by norm_num : (1 : ℚ) < 10)).mp
    ((abs_value_bounds nonzero).1.trans_lt most)
  omega

/-- Where all digits have places in the range, rounding holds no exponent back. -/
theorem roundsInside_of_places (precision : Nat) (mode : RoundingMode)
    (least : exponentMin ≤ d.exponent) (most : d.exponent + d.digits ≤ exponentMax) :
    d.RoundsInside precision mode := by
  refine ⟨least, ?_⟩
  rcases Nat.eq_zero_or_pos precision with rfl | positive
  · have unlimited : d.roundFreely 0 mode = d := if_pos (.inl rfl)
    rw [unlimited]
    omega
  · exact (exponent_roundFreely_le d mode positive).trans most

/-- Rounding a decimal that lies near a number is as accurate as rounding the number. -/
theorem isAccurate_round (mode : RoundingMode) (positive : 0 < precision)
    (nonzero : d.coefficient ≠ 0) (least : exponentMin ≤ d.exponent)
    (most : d.exponent + d.digits ≤ exponentMax) (allowed : 0 < excess)
    (near : |(d.value : ℝ) - x| * 10 ^ precision ≤ excess * |(d.value : ℝ)|) :
    (d.round precision mode).IsAccurate excess mode precision x := by
  rw [round_eq_roundFreely (roundsInside_of_places precision mode least most)]
  have rounded := d.roundsTo_roundFreely precision mode
  generalize d.roundFreely precision mode = r at *
  obtain ⟨place, lead, filled, reached, off⟩ :=
    rounded.exists_place (value_eq_zero_iff.not.mpr nonzero) positive
  -- The unit of the result is not finer than the one that was rounded at.
  have coarser : (10 : ℝ) ^ place ≤ 10 ^ (r.adjusted - precision + 1) := by
    have first : (10 : ℚ) ^ (precision - 1) * 10 ^ place = 10 ^ (precision - 1 + place : Int) := by
      rw [pow_mul_zpow]
      congr 1
      omega
    have top : precision - 1 + place < (d.digits : Int) + d.exponent := by
      rw [first] at lead
      exact (zpow_lt_zpow_iff_right₀ (by norm_num : (1 : ℚ) < 10)).mp
        (lead.trans_lt (abs_value_bounds nonzero).2)
    rw [first] at reached
    have leading := le_adjusted reached (by omega)
    exact zpow_le_zpow_right₀ (by norm_num) (by omega)
  have unit : (0 : ℝ) < 10 ^ place := by positivity
  have scale : (0 : ℝ) < 10 ^ precision := by positivity
  have off : |(r.value : ℝ) - d.value| ≤ mode.reach * 10 ^ place := by
    rw [abs_sub_comm]
    simpa using (Rat.cast_le (K := ℝ)).mpr off
  have filled : |(d.value : ℝ)| < 10 ^ precision * 10 ^ place := by
    simpa using (Rat.cast_lt (K := ℝ)).mpr filled
  have far : |(d.value : ℝ) - x| < excess * 10 ^ place := by
    have allowed : (0 : ℝ) < excess := by exact_mod_cast allowed
    refine lt_of_mul_lt_mul_right ?_ scale.le
    calc |(d.value : ℝ) - x| * 10 ^ precision ≤ excess * |(d.value : ℝ)| := near
      _ < excess * (10 ^ precision * 10 ^ place) := mul_lt_mul_of_pos_left filled allowed
      _ = excess * 10 ^ place * 10 ^ precision := by ring
  have both : (0 : ℝ) < (mode.reach + excess : ℚ) := by
    exact_mod_cast add_pos mode.reach_pos allowed
  calc |(r.value : ℝ) - x| ≤ |(r.value : ℝ) - d.value| + |(d.value : ℝ) - x| := abs_sub_le _ _ _
    _ < mode.reach * 10 ^ place + excess * 10 ^ place := add_lt_add_of_le_of_lt off far
    _ = (mode.reach + excess : ℚ) * 10 ^ place := by push_cast; ring
    _ ≤ ((mode.reach + excess) * 10 ^ (r.adjusted - precision + 1) : ℚ) := by
        rw [Rat.cast_mul, Rat.cast_zpow, Rat.cast_ofNat]
        exact mul_le_mul_of_nonneg_left coarser both.le

end Decimal
end DecimalConformance
