import DecimalConformance.Decimal.Logarithm
import DecimalConformance.Proofs.Decimal.Truncation
import Mathlib.Analysis.SpecialFunctions.Artanh
import Mathlib.Analysis.SpecialFunctions.Log.Deriv

/-! How far the series for the logarithms is off.
The powers are cut off again and again, but each is a ninth of the one before at most, so little
of its loss is left in the next.  A term loses two units at most, and there are no more terms than
the argument has octal digits. -/
namespace DecimalConformance.Decimal

/-- What the series of the inverse hyperbolic tangent adds behind the first terms. -/
noncomputable def artanhTail (y : ℝ) (terms : Nat) : ℝ :=
  Real.artanh y - ∑ i ∈ Finset.range terms, y ^ (2 * i + 1) / (2 * i + 1 : Nat)

section Tail

variable {y : ℝ} (least : 0 ≤ y) (most : y ≤ 1 / 3)

include least most

private theorem artanh_eq : Real.artanh y = 1 / 2 * Real.log ((1 + y) / (1 - y)) :=
  Real.artanh_eq_half_log ⟨by linarith, by linarith⟩

theorem artanhTail_nonneg (terms : Nat) : 0 ≤ artanhTail y terms := by
  rw [artanhTail, artanh_eq least most, sub_nonneg]
  exact_mod_cast Real.sum_range_le_log_div least (by linarith) terms

theorem artanhTail_le (terms : Nat) : artanhTail y terms ≤ 9 / 8 * y ^ (2 * terms + 1) := by
  have bound := Real.log_div_le_sum_range_add least (by linarith) terms
  have rest : y ^ (2 * terms + 1) / (1 - y ^ 2) ≤ 9 / 8 * y ^ (2 * terms + 1) := by
    have power : 0 ≤ y ^ (2 * terms + 1) := by positivity
    have part : 1 ≤ 9 / 8 * (1 - y ^ 2) := by nlinarith
    rw [div_le_iff₀ (by nlinarith), mul_right_comm]
    exact le_mul_of_one_le_left power part
  rw [artanhTail, artanh_eq least most]
  push_cast
  linarith

end Tail

theorem artanhTail_eq (y : ℝ) (terms : Nat) :
    artanhTail y terms =
      y ^ (2 * terms + 1) / (2 * terms + 1 : Nat) + artanhTail y (terms + 1) := by
  rw [artanhTail, artanhTail, Finset.sum_range_succ]
  ring

/-- An argument that is a little off moves the result by half as much again at most. -/
theorem artanh_sub_le {y w : ℝ} (least : 0 ≤ y) (le : y ≤ w) (most : w ≤ 1 / 3) :
    Real.artanh w - Real.artanh y ≤ 3 / 2 * (w - y) := by
  rw [artanh_eq least (le.trans most), artanh_eq (least.trans le) most]
  have above : 0 < (1 + y) / (1 - y) := div_pos (by linarith) (by linarith)
  have above' : 0 < (1 + w) / (1 - w) := div_pos (by linarith) (by linarith)
  have ratio := Real.log_le_sub_one_of_pos (div_pos above' above)
  rw [Real.log_div above'.ne' above.ne'] at ratio
  have part : (1 + w) / (1 - w) / ((1 + y) / (1 - y)) - 1 ≤ 3 * (w - y) := by
    have denominator : 0 < (1 - w) * (1 + y) := mul_pos (by linarith) (by linarith)
    have whole : (1 + w) / (1 - w) / ((1 + y) / (1 - y)) - 1 =
        2 * (w - y) / ((1 - w) * (1 + y)) := by
      field_simp [(by linarith : 1 - w ≠ 0), (by linarith : 1 - y ≠ 0), (by linarith : 1 + y ≠ 0)]
      ring
    rw [whole, div_le_iff₀ denominator]
    nlinarith [mul_nonneg (by linarith : (0 : ℝ) ≤ 1 / 3 - w) least]
  linarith

section Series

variable {square one power k : Nat} {y : ℝ}

/-- A power loses two units at most, as the one before it does. -/
private theorem isCut_power (positive : 0 < one) (least : 0 ≤ y) (most : y ≤ 1 / 3)
    (squared : IsCut (one * y ^ 2) 1 square) (cut : IsCut (one * y ^ (2 * k + 1)) 2 power) :
    IsCut (one * y ^ (2 * (k + 1) + 1)) 2 (power * square / one) := by
  have unit : (0 : ℝ) < one := by exact_mod_cast positive
  have next : one * y ^ (2 * k + 1) * (one * y ^ 2) / one = one * y ^ (2 * (k + 1) + 1) := by
    field_simp
    ring
  have ninth : y ^ 2 ≤ 1 / 9 := by nlinarith
  have third : y ^ (2 * k + 1) ≤ 1 / 3 := by
    calc y ^ (2 * k + 1) ≤ y ^ 1 := pow_le_pow_of_le_one least (by linarith) (by omega)
      _ ≤ 1 / 3 := by linarith
  have divided := (cut.mul squared).div one
  rw [next] at divided
  refine divided.mono ?_
  calc (2 * (one * y ^ 2) + one * y ^ (2 * k + 1) * 1) / one + 1
      = 2 * y ^ 2 + y ^ (2 * k + 1) + 1 := by field_simp
    _ ≤ 2 := by linarith

/-- So does a term. -/
private theorem isCut_artanhTerm (cut : IsCut (one * y ^ (2 * (k + 1) + 1)) 2 power) :
    IsCut (one * (y ^ (2 * (k + 1) + 1) / (2 * (k + 1) + 1 : Nat))) 2 (power / (2 * k + 3)) := by
  have divided := cut.div (2 * (k + 1) + 1)
  rw [mul_div_assoc] at divided
  refine divided.mono ?_
  have shrinks : 2 / ((2 * (k + 1) + 1 : Nat) : ℝ) ≤ 1 := by
    refine div_le_one_of_le₀ ?_ (Nat.cast_nonneg _)
    exact_mod_cast (by omega : 2 ≤ 2 * (k + 1) + 1)
  linarith

/-- Where a term is cut off altogether, the rest of the series is next to nothing. -/
private theorem isCut_artanhTail_zero (least : 0 ≤ y) (most : y ≤ 1 / 3)
    (cut : IsCut (one * y ^ (2 * (k + 1) + 1)) 2 power) (zero : power / (2 * k + 3) = 0) :
    IsCut (one * artanhTail y (k + 1)) (3 * k + 6) 0 := by
  have small : power ≤ 2 * k + 2 := by
    have below : power < 2 * k + 3 := (Nat.div_eq_zero_iff_lt (by omega)).mp zero
    omega
  have small : (power : ℝ) ≤ 2 * k + 2 := by exact_mod_cast small
  have tail : one * artanhTail y (k + 1) ≤ 9 / 8 * (one * y ^ (2 * (k + 1) + 1)) := by
    rw [mul_left_comm]
    exact mul_le_mul_of_nonneg_left (artanhTail_le least most (k + 1)) one.cast_nonneg
  have rest := mul_nonneg (one.cast_nonneg (α := ℝ)) (artanhTail_nonneg least most (k + 1))
  refine ⟨by rwa [Nat.cast_zero], ?_⟩
  rw [Nat.cast_zero]
  linarith [cut.ge, k.cast_nonneg (α := ℝ)]

/-- A power is no more than a ninth of the one before it. -/
theorem nine_mul_next_le (positive : 0 < one) (small : 9 * square ≤ one) :
    9 * (power * square / one) ≤ power := by
  refine Nat.le_of_mul_le_mul_right ?_ positive
  calc 9 * (power * square / one) * one ≤ 9 * (power * square) := by
        rw [Nat.mul_assoc]
        exact Nat.mul_le_mul_left 9 (Nat.div_mul_le_self ..)
    _ = power * (9 * square) := Nat.mul_left_comm ..
    _ ≤ power * one := Nat.mul_le_mul_left power small

theorem atanhTail_of_eq_zero {degree : Nat} (zero : power * square / one / (degree + 2) = 0) :
    atanhTail square one degree power = 0 := by
  rw [atanhTail_def]
  exact if_neg (by simp [zero])

/-- The number of octal digits bounds what the series loses. -/
theorem isCut_atanhTail (positive : 0 < one) (least : 0 ≤ y) (most : y ≤ 1 / 3)
    (squared : IsCut (one * y ^ 2) 1 square) {size : Nat} (short : power < 8 ^ size)
    (cut : IsCut (one * y ^ (2 * k + 1)) 2 power) :
    IsCut (one * artanhTail y (k + 1)) (3 * k + 5 * size + 6)
      (atanhTail square one (2 * k + 1) power) := by
  have small : 9 * square ≤ one := by
    have ninth : y ^ 2 ≤ 1 / 9 := by nlinarith
    have bound : (9 * square : ℝ) ≤ one := by
      nlinarith [squared.le, mul_le_mul_of_nonneg_left ninth (one.cast_nonneg (α := ℝ))]
    exact_mod_cast bound
  -- By the octal digits of a power: each has one fewer than the power before it.
  induction size generalizing k power with
  | zero =>
    obtain rfl : power = 0 := by omega
    have next := isCut_power positive least most squared cut
    have zero : 0 * square / one / (2 * k + 3) = 0 := by simp
    rw [atanhTail_of_eq_zero zero]
    exact (isCut_artanhTail_zero least most next zero).mono (by simp)
  | succ size ih =>
    have next := isCut_power positive least most squared cut
    rcases Nat.eq_zero_or_pos (power * square / one / (2 * k + 3)) with zero | falls
    · rw [atanhTail_of_eq_zero zero]
      refine (isCut_artanhTail_zero least most next zero).mono ?_
      linarith [(size + 1).cast_nonneg (α := ℝ)]
    · have ninth : 9 * (power * square / one) ≤ power := nine_mul_next_le positive small
      have filled : 0 < power * square / one := Nat.pos_of_div_pos falls
      have lower : power * square / one < power := by omega
      have shorter : power * square / one < 8 ^ size := by
        rw [Nat.pow_succ] at short
        omega
      rw [atanhTail_def, if_pos ⟨falls, lower⟩, artanhTail_eq, mul_add]
      have rest := ih shorter next
      refine ((isCut_artanhTerm next).add rest).mono ?_
      push_cast
      linarith

end Series

/-- The whole series, from an argument that is cut off itself. -/
theorem isCut_atanh {w : ℝ} {one z size : Nat} (positive : 0 < one) (most : w ≤ 1 / 3)
    (cut : IsCut (one * w) 1 z) (short : one < 8 ^ size) :
    IsCut (one * Real.artanh w) (5 * size + 8) (atanh z one) := by
  have unit : (0 : ℝ) < one := by exact_mod_cast positive
  have le : (z / one : ℝ) ≤ w := by
    rw [div_le_iff₀ unit, mul_comm]
    exact cut.le
  have whole : one * (z / one : ℝ) = z := by field_simp
  have argument : (0 : ℝ) ≤ z / one := by positivity
  have squared : IsCut (one * (z / one : ℝ) ^ 2) 1 (z * z / one) := by
    have divided := isCut_div (z * z) one
    have square : one * (z / one : ℝ) ^ 2 = (z * z : Nat) / one := by
      push_cast
      field_simp
    rwa [square]
  have first : IsCut (one * (z / one : ℝ) ^ (2 * 0 + 1)) 2 z := by
    rw [Nat.mul_zero, Nat.zero_add, pow_one, whole]
    exact (isCut_self z).mono (by norm_num)
  have small : z < 8 ^ size := by
    have bound : (z : ℝ) ≤ one := by nlinarith [cut.le]
    exact lt_of_le_of_lt (by exact_mod_cast bound) short
  have tail := isCut_atanhTail positive argument (le.trans most) squared small first
  have series : one * Real.artanh (z / one) = z + one * artanhTail (z / one) (0 + 1) := by
    have start := artanhTail_eq (z / one : ℝ) 0
    rw [artanhTail, Finset.sum_range_zero, sub_zero] at start
    rw [start, mul_add]
    simp only [pow_one, mul_zero, zero_add, Nat.cast_one, div_one, whole]
  have moved := artanh_sub_le argument le most
  have sum := (isCut_self z).add tail
  rw [← series] at sum
  have below : Real.artanh (z / one) ≤ Real.artanh w :=
    Real.artanh_le_artanh (by linarith) (by linarith) le
  constructor
  · exact sum.le.trans (mul_le_mul_of_nonneg_left below unit.le)
  · have scaled := mul_le_mul_of_nonneg_left moved unit.le
    have kept := sum.ge
    push_cast at kept
    have lost : one * (3 / 2 * (w - z / one)) ≤ 3 / 2 := by
      rw [mul_left_comm, mul_sub, whole]
      linarith [cut.ge]
    show _ ≤ ((z + atanhTail (z * z / one) one 1 z : Nat) : ℝ)
    push_cast
    linarith

end DecimalConformance.Decimal
