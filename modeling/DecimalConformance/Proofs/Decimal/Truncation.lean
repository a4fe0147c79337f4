import DecimalConformance.Proofs.Decimal.CorrectRounding
import DecimalConformance.Proofs.Decimal.FixedPoint
import Mathlib.Algebra.Order.Floor.Semifield
import Mathlib.Algebra.Order.Archimedean.Real.Basic

/-! What fixed point cuts off.
Every fixed-point number stays below the real number it stands for, by a loss that is known and that
adds up along a computation. -/
namespace DecimalConformance.Decimal

variable {x : Decimal}

/-- `n` is what is left of a number when a part of `loss` at most is cut off. -/
structure IsCut (exact loss : ℝ) (n : Nat) : Prop where
  le : (n : ℝ) ≤ exact
  ge : exact - loss ≤ n

theorem isCut_self (n : Nat) : IsCut n 0 n := ⟨le_rfl, by linarith⟩

theorem isCut_floor {y : ℝ} (least : 0 ≤ y) : IsCut y 1 ⌊y⌋₊ :=
  ⟨Nat.floor_le least, by linarith [Nat.lt_floor_add_one y]⟩

theorem isCut_div (n divisor : Nat) : IsCut ((n : ℝ) / divisor) 1 (n / divisor) := by
  rw [← Nat.floor_div_eq_div (K := ℝ)]
  exact isCut_floor (by positivity)

namespace IsCut

variable {exact exact' loss loss' : ℝ} {n m : Nat}

theorem mono (h : IsCut exact loss n) (more : loss ≤ loss') : IsCut exact loss' n :=
  ⟨h.le, by linarith [h.ge]⟩

theorem add (h : IsCut exact loss n) (h' : IsCut exact' loss' m) :
    IsCut (exact + exact') (loss + loss') (n + m) := by
  constructor
  · push_cast
    linarith [h.le, h'.le]
  · push_cast
    linarith [h.ge, h'.ge]

/-- What one factor loses counts as often as the other is large. -/
theorem mul (h : IsCut exact loss n) (h' : IsCut exact' loss' m) :
    IsCut (exact * exact') (loss * exact' + exact * loss') (n * m) := by
  have least : 0 ≤ exact := n.cast_nonneg.trans h.le
  have least' : 0 ≤ exact' := m.cast_nonneg.trans h'.le
  constructor
  · push_cast
    exact mul_le_mul h.le h'.le m.cast_nonneg least
  · have first : (exact - n) * exact' ≤ loss * exact' :=
      mul_le_mul_of_nonneg_right (by linarith [h.ge]) least'
    have second : exact * (exact' - m) ≤ exact * loss' :=
      mul_le_mul_of_nonneg_left (by linarith [h'.ge]) least
    have both := mul_nonneg (sub_nonneg.mpr h.le) (sub_nonneg.mpr h'.le)
    push_cast
    linarith

theorem mul_left (h : IsCut exact loss n) (times : Nat) :
    IsCut (times * exact) (times * loss) (times * n) :=
  ((isCut_self times).mul h).mono (by simp)

/-- A division makes what was lost smaller, and loses a unit itself. -/
theorem div (h : IsCut exact loss n) (divisor : Nat) :
    IsCut (exact / divisor) (loss / divisor + 1) (n / divisor) := by
  have divided := isCut_div n divisor
  constructor
  · exact divided.le.trans (div_le_div_of_nonneg_right h.le divisor.cast_nonneg)
  · have kept := div_le_div_of_nonneg_right h.ge (divisor.cast_nonneg (α := ℝ))
    rw [sub_div] at kept
    linarith [divided.ge]

end IsCut

theorem value_fixed (n : Int) (scale : Nat) :
    ((⟨n, -(scale : Int)⟩ : Decimal).value : ℝ) = n / (10 ^ scale : Nat) := by
  rw [value, zpow_neg, zpow_natCast]
  push_cast
  rfl

/-- A number in fixed point is its magnitude, cut off behind the last place. -/
theorem toFixed_eq_floor {scale : Nat} (least : exponentMin ≤ x.exponent)
    (most : x.exponent + scale ≤ exponentMax) :
    x.toFixed scale = ⌊|(x.value : ℝ)| * 10 ^ scale⌋₊ := by
  have whole : saturate (x.exponent + scale) = x.exponent + scale := by
    simp only [saturate, exponentMin, exponentMax] at *
    omega
  have size : |(x.value : ℝ)| * 10 ^ scale = x.coefficient.natAbs * 10 ^ (x.exponent + scale) := by
    rw [← Rat.cast_abs, abs_value, zpow_add₀ (by norm_num), zpow_natCast]
    push_cast
    ring
  rw [toFixed, whole, size]
  split_ifs with up
  · obtain ⟨places, shift⟩ := Int.eq_ofNat_of_zero_le up
    have cast : (x.coefficient.natAbs : ℝ) * 10 ^ places =
        (x.coefficient.natAbs * Nat.pow 10 places : Nat) := by
      rw [Nat.cast_mul, Nat.pow_eq, Nat.cast_pow, Nat.cast_ofNat]
    rw [shift, Int.toNat_natCast, zpow_natCast, cast, Nat.floor_natCast]
  · obtain ⟨places, shift⟩ := Int.eq_ofNat_of_zero_le (by omega : 0 ≤ -(x.exponent + scale))
    have lower : x.exponent + scale = -(places : Int) := by omega
    have cast : (10 : ℝ) ^ places = (Nat.pow 10 places : Nat) := by
      rw [Nat.pow_eq, Nat.cast_pow, Nat.cast_ofNat]
    rw [shift, lower, Int.toNat_natCast, zpow_neg, zpow_natCast, ← div_eq_mul_inv, cast,
      Nat.floor_div_eq_div]

end DecimalConformance.Decimal
