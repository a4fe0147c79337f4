import DecimalConformance.Proofs.Decimal.Accuracy
import Mathlib.Algebra.Order.Ring.Pow

/-! Rounding again and again.
A rounding to the nearest decimal keeps all of a number but a part of it, and is undone by as large a
part.  In a product the parts of both factors are lost, and a reciprocal loses what its divisor does, so
counting roundings is enough. -/
namespace DecimalConformance

variable {working k l : Nat} {x y z w : ℚ}

/-- What is sure to be kept by a rounding to the nearest. -/
def keptPart (working : Nat) : ℚ := 1 - 5 / 10 ^ working

theorem keptPart_bounds (filled : 0 < working) : 1 / 2 ≤ keptPart working ∧ keptPart working ≤ 1 := by
  have ten : (10 : ℚ) ^ 1 ≤ 10 ^ working := pow_le_pow_right₀ (by norm_num) filled
  have part : (5 : ℚ) / 10 ^ working ≤ 1 / 2 := by
    rw [div_le_div_iff₀ (by positivity) (by norm_num)]
    linarith
  have least : (0 : ℚ) ≤ 5 / 10 ^ working := by positivity
  rw [keptPart]
  constructor <;> linarith

/-- `z` is `x` up to what so many roundings to the nearest may change. -/
structure IsNear (working roundings : Nat) (x z : ℚ) : Prop where
  sign : 0 < x * z
  least : keptPart working ^ roundings * |x| ≤ |z|
  most : keptPart working ^ roundings * |z| ≤ |x|

namespace IsNear

theorem refl (nonzero : x ≠ 0) : IsNear working 0 x x :=
  ⟨mul_self_pos.mpr nonzero, by simp, by simp⟩

theorem ne_zero (h : IsNear working k x z) : z ≠ 0 := (mul_ne_zero_iff.mp h.sign.ne').2

/-- A rounding to the nearest is one. -/
theorem of_abs_sub_le (filled : 0 < working) (nonzero : x ≠ 0)
    (off : |x - z| ≤ RoundingMode.nearestEven.reach * 10 ^ (1 - working : Int) * |x|) :
    IsNear working 1 x z := by
  have unit : RoundingMode.nearestEven.reach * 10 ^ (1 - working : Int) = 1 - keptPart working := by
    rw [RoundingMode.reach, zpow_sub₀ (by norm_num), zpow_natCast, keptPart]
    ring
  obtain ⟨half, whole⟩ := keptPart_bounds filled
  have size := abs_pos.mpr nonzero
  rw [unit] at off
  have sign : 0 < x * z := by
    have square : 0 < keptPart working * (|x| * |x|) :=
      mul_pos (by linarith) (mul_pos size size)
    have product : x * (x - z) ≤ |x| * ((1 - keptPart working) * |x|) :=
      (le_abs_self _).trans ((abs_mul _ _).trans_le (mul_le_mul_of_nonneg_left off size.le))
    rw [mul_sub, ← abs_mul_abs_self x] at product
    linarith
  have below := abs_sub_abs_le_abs_sub x z
  have above := abs_sub_abs_le_abs_sub z x
  rw [abs_sub_comm] at above
  refine ⟨sign, ?_, ?_⟩
  · rw [pow_one]
    linarith
  · rw [pow_one]
    have most : |z| ≤ (2 - keptPart working) * |x| := by linarith
    have part := mul_le_mul_of_nonneg_left most (by linarith : 0 ≤ keptPart working)
    have square := mul_nonneg (sq_nonneg (1 - keptPart working)) size.le
    linarith

section Combined

variable (filled : 0 < working)

include filled

theorem mono (h : IsNear working k x z) (le : k ≤ l) : IsNear working l x z := by
  obtain ⟨half, whole⟩ := keptPart_bounds filled
  have power := pow_le_pow_of_le_one (by linarith) whole le
  exact ⟨h.sign, (mul_le_mul_of_nonneg_right power (abs_nonneg x)).trans h.least,
    (mul_le_mul_of_nonneg_right power (abs_nonneg z)).trans h.most⟩

theorem trans (h : IsNear working k x y) (h' : IsNear working l y z) : IsNear working (k + l) x z := by
  obtain ⟨half, -⟩ := keptPart_bounds filled
  have left : 0 ≤ keptPart working ^ k := pow_nonneg (by linarith) k
  have right : 0 ≤ keptPart working ^ l := pow_nonneg (by linarith) l
  refine ⟨?_, ?_, ?_⟩
  · have square : 0 < y * y := mul_self_pos.mpr h.ne_zero
    refine (mul_pos_iff_of_pos_left square).mp ?_
    calc 0 < x * y * (y * z) := mul_pos h.sign h'.sign
      _ = y * y * (x * z) := by ring
  · calc keptPart working ^ (k + l) * |x| = keptPart working ^ l * (keptPart working ^ k * |x|) := by
          rw [pow_add]
          ring
      _ ≤ keptPart working ^ l * |y| := mul_le_mul_of_nonneg_left h.least right
      _ ≤ |z| := h'.least
  · calc keptPart working ^ (k + l) * |z| = keptPart working ^ k * (keptPart working ^ l * |z|) := by
          rw [pow_add]
          ring
      _ ≤ keptPart working ^ k * |y| := mul_le_mul_of_nonneg_left h'.most left
      _ ≤ |x| := h.most

theorem mul (h : IsNear working k x z) (h' : IsNear working l y w) :
    IsNear working (k + l) (x * y) (z * w) := by
  obtain ⟨half, -⟩ := keptPart_bounds filled
  have power (n : Nat) : 0 ≤ keptPart working ^ n := pow_nonneg (by linarith) n
  refine ⟨?_, ?_, ?_⟩
  · rw [mul_mul_mul_comm]
    exact mul_pos h.sign h'.sign
  · rw [pow_add, abs_mul, abs_mul, mul_mul_mul_comm]
    exact mul_le_mul h.least h'.least (mul_nonneg (power l) (abs_nonneg y)) (abs_nonneg z)
  · rw [pow_add, abs_mul, abs_mul, mul_mul_mul_comm]
    exact mul_le_mul h.most h'.most (mul_nonneg (power l) (abs_nonneg w)) (abs_nonneg x)

end Combined

/-- The two sides of a quotient change places. -/
theorem inv (h : IsNear working k x z) : IsNear working k x⁻¹ z⁻¹ := by
  have left : 0 < |x| := abs_pos.mpr (mul_ne_zero_iff.mp h.sign.ne').1
  have right : 0 < |z| := abs_pos.mpr h.ne_zero
  refine ⟨?_, ?_, ?_⟩
  · rw [← mul_inv]
    exact inv_pos.mpr h.sign
  · rw [abs_inv, abs_inv, ← div_eq_mul_inv, div_le_iff₀ left, inv_mul_eq_div, le_div_iff₀ right]
    exact h.most
  · rw [abs_inv, abs_inv, ← div_eq_mul_inv, div_le_iff₀ right, inv_mul_eq_div, le_div_iff₀ left]
    exact h.least

/-- Few roundings change no more than twice the sum of what they change. -/
theorem abs_sub_le {part : ℚ} (filled : 0 < working) (h : IsNear working k x z)
    (all : k * (5 / 10 ^ working) ≤ part) (little : part ≤ 1 / 2) : |z - x| ≤ 2 * part * |z| := by
  obtain ⟨half, -⟩ := keptPart_bounds filled
  have kept : 1 - part ≤ keptPart working ^ k := by
    have bernoulli := one_add_mul_le_pow (by linarith : -2 ≤ keptPart working - 1) k
    rw [add_sub_cancel] at bernoulli
    have lost : (k : ℚ) * (keptPart working - 1) = -(k * (5 / 10 ^ working)) := by
      rw [keptPart]
      ring
    linarith
  have least := (mul_le_mul_of_nonneg_right kept (abs_nonneg x)).trans h.least
  have most := (mul_le_mul_of_nonneg_right kept (abs_nonneg z)).trans h.most
  have twice : |x| ≤ 2 * |z| := by
    linarith [mul_le_mul_of_nonneg_right little (abs_nonneg x)]
  have lost : 0 ≤ part := le_trans (by positivity) all
  have close : |(|z| - |x|)| ≤ 2 * part * |z| := by
    have left := mul_le_mul_of_nonneg_left twice lost
    have right := mul_nonneg lost (abs_nonneg z)
    rw [abs_le]
    constructor <;> linarith
  rwa [Decimal.abs_sub_of_mul_nonneg (by rw [mul_comm]; exact h.sign.le)]

end IsNear
end DecimalConformance
