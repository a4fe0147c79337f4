import DecimalConformance.Proofs.Decimal.IdealForm
import Mathlib.RingTheory.Multiplicity
import Mathlib.Data.Nat.Prime.Int
import Mathlib.Tactic.NormNum.Prime

/-! Powers with few digits.
Zeros at the end of a coefficient are worth nothing, and a power has some only if the number itself has.
So a number has no power that is longer than a higher one. -/
namespace DecimalConformance.Decimal

variable {d w x : Decimal} {precision wider : Nat}

/-- A decimal of this value has no more digits. -/
def IsShort (precision : Nat) (x : ℚ) : Prop := ∃ d : Decimal, d.value = x ∧ d.digits ≤ precision

theorem IsShort.mono {x : ℚ} (h : IsShort precision x) (le : precision ≤ wider) : IsShort wider x := by
  obtain ⟨d, value, short⟩ := h
  exact ⟨d, value, short.trans le⟩

/-- Short numbers are rounded to themselves. -/
theorem IsShort.value_roundFreely (h : IsShort precision d.value) (mode : RoundingMode) :
    (d.roundFreely precision mode).value = d.value := by
  obtain ⟨w, same, short⟩ := h
  have rounded := w.roundsTo_roundFreely precision mode
  rw [roundFreely, if_pos (.inr short), same] at rounded
  exact (d.roundsTo_roundFreely precision mode).unique rounded

/-! ## Zeros at the end -/

theorem exists_without_zeros (nonzero : d.coefficient ≠ 0) :
    ∃ w : Decimal, w.value = d.value ∧ ¬ 10 ∣ w.coefficient := by
  have finite : FiniteMultiplicity 10 d.coefficient :=
    Int.finiteMultiplicity_iff.mpr ⟨by decide, nonzero⟩
  obtain ⟨rest, split, last⟩ := finite.exists_eq_pow_mul_and_not_dvd
  refine ⟨⟨rest, multiplicity 10 d.coefficient + d.exponent⟩, ?_, last⟩
  rw [value, value, zpow_add₀ (by norm_num), zpow_natCast]
  conv_rhs => rw [split]
  push_cast
  ring

/-- A decimal without zeros at the end is the shortest of its value. -/
theorem digits_le_of_value_eq (last : ¬ 10 ∣ w.coefficient) (same : d.value = w.value) :
    w.digits ≤ d.digits := by
  have nonzero : w.coefficient ≠ 0 := by
    intro zero
    rw [zero] at last
    exact last (dvd_zero 10)
  have form : IsIdealForm (max d.exponent w.exponent) w.value w :=
    isIdealForm_of_last (K := ℚ) (le_max_right _ _) (.inr last)
  have lower := form.highest d same (le_max_left _ _)
  have longer : d.coefficient = w.shifted d.exponent :=
    coefficient_eq_of_value_eq (same.trans (value_eq_shifted lower))
  calc w.digits ≤ w.digits + (w.exponent - d.exponent).toNat := Nat.le_add_right _ _
    _ = digitCount (w.shifted d.exponent).natAbs := (digitCount_shifted nonzero _).symm
    _ = d.digits := by rw [digits, longer]

/-! ## Powers -/

/-- The exact power. -/
def powered (x : Decimal) (n : Nat) : Decimal := ⟨x.coefficient ^ n, n * x.exponent⟩

@[simp] theorem powered_zero (x : Decimal) : x.powered 0 = one := by
  simp [powered, one]

@[simp] theorem powered_one (x : Decimal) : x.powered 1 = x := by
  simp [powered]

theorem powered_add (x : Decimal) (m n : Nat) :
    x.powered (m + n) = (x.powered m).product (x.powered n) := by
  simp [powered, product, pow_add, add_mul]

theorem value_powered (x : Decimal) (n : Nat) : (x.powered n).value = x.value ^ n := by
  rw [value, value, powered, mul_pow, ← zpow_natCast (10 ^ x.exponent), ← zpow_mul, mul_comm x.exponent]
  push_cast
  rfl

theorem digits_powered_le (nonzero : x.coefficient ≠ 0) {m n : Nat} (le : m ≤ n) :
    (x.powered m).digits ≤ (x.powered n).digits := by
  have size : (x.coefficient ^ m).natAbs ≤ (x.coefficient ^ n).natAbs := by
    rw [Int.natAbs_pow, Int.natAbs_pow]
    exact Nat.pow_le_pow_right (Int.natAbs_pos.mpr nonzero) le
  refine (digitCount_le_iff (digits_pos _)).mpr (size.trans_lt ?_)
  exact lt_pow_digitCount _

/-- Ten divides a power only with the number. -/
theorem not_ten_dvd_pow {c : Int} (last : ¬ 10 ∣ c) (n : Nat) : ¬ 10 ∣ c ^ n := by
  intro divides
  have five : Prime (5 : Int) := by norm_num
  have two := Int.prime_two.dvd_of_dvd_pow (Dvd.dvd.trans (by decide) divides)
  have five := five.dvd_of_dvd_pow (Dvd.dvd.trans (by decide) divides)
  exact last (by omega)

/-- A lower power needs no more digits. -/
theorem IsShort.of_pow_le {m n : Nat} (h : IsShort precision (x.value ^ n))
    (nonzero : x.coefficient ≠ 0) (le : m ≤ n) : IsShort precision (x.value ^ m) := by
  obtain ⟨w, same, last⟩ := exists_without_zeros nonzero
  have nonzero' : w.coefficient ≠ 0 := by
    rwa [← value_eq_zero_iff.ne, same, value_eq_zero_iff.ne]
  rw [← same, ← value_powered] at h ⊢
  obtain ⟨d, value, short⟩ := h
  have least := digits_le_of_value_eq (not_ten_dvd_pow last n) value
  exact ⟨w.powered m, rfl, (digits_powered_le nonzero' le).trans (least.trans short)⟩

end DecimalConformance.Decimal
