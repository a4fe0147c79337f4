import DecimalConformance.Decimal.Digits
import DecimalConformance.Decimal.Rounding
import Mathlib.Tactic.Linarith

/-! How many digits decimals have, and how many rounding leaves of them.
A digit count is decided by powers of ten, and a carry does not make a rounded coefficient longer. -/
namespace DecimalConformance.Decimal

/-- A power whose exponent is estimated by a fraction below the logarithm of another base. -/
theorem pow_mul_div_le {a b p q : Nat} (base : 0 < a) (ratio : a ^ p ≤ b ^ q) (positive : 0 < q)
    (size : Nat) : a ^ (size * p / q) ≤ b ^ size := by
  refine (Nat.pow_le_pow_iff_left positive.ne').mp ?_
  calc (a ^ (size * p / q)) ^ q = a ^ (size * p / q * q) := (Nat.pow_mul ..).symm
    _ ≤ a ^ (p * size) := by
      rw [Nat.mul_comm p]
      exact Nat.pow_le_pow_right base (Nat.div_mul_le_self _ _)
    _ = (a ^ p) ^ size := Nat.pow_mul ..
    _ ≤ (b ^ q) ^ size := Nat.pow_le_pow_left ratio _
    _ = (b ^ size) ^ q := by rw [← Nat.pow_mul, Nat.mul_comm, Nat.pow_mul]

/-- A number fits into `width` digits exactly if it lies below that power of ten. -/
theorem digitCount_le_iff {n width : Nat} (h : 0 < width) :
    digitCount n ≤ width ↔ n < 10 ^ width := by
  have above : n < 10 ^ digitCount n := lt_pow_digitCount n
  constructor
  · intro le
    exact above.trans_le (Nat.pow_le_pow_right (by omega) le)
  · intro lt
    rcases pow_digitCount_le n with below | one
    · have below : 10 ^ (digitCount n - 1) ≤ n := below
      have := (Nat.pow_lt_pow_iff_right (by omega : 1 < 10)).mp (below.trans_lt lt)
      omega
    · omega

theorem lt_digitCount_iff {n width : Nat} (h : 0 < width) :
    width < digitCount n ↔ 10 ^ width ≤ n := by
  rw [← not_le, digitCount_le_iff h, not_lt]

/-- The count of digits, from the powers of ten on both sides. -/
theorem digitCount_eq {n width : Nat} (below : 10 ^ width ≤ n) (above : n < 10 ^ (width + 1)) :
    digitCount n = width + 1 := by
  have le := (digitCount_le_iff (Nat.succ_pos width)).mpr above
  rcases Nat.eq_zero_or_pos width with rfl | positive
  · have := digitCount_pos n
    omega
  · have := (lt_digitCount_iff positive).mpr below
    omega

theorem pow_digitCount_sub_le {n : Nat} (h : 0 < n) : 10 ^ (digitCount n - 1) ≤ n := by
  rcases pow_digitCount_le n with below | one
  · exact below
  · rw [one]
    exact h

/-- Digits that are written behind a number add to its count. -/
theorem digitCount_mul_pow_add {k r width : Nat} (positive : 0 < k) (below : r < 10 ^ width) :
    digitCount (k * 10 ^ width + r) = digitCount k + width := by
  obtain ⟨lead, count⟩ : ∃ lead, digitCount k = lead + 1 :=
    ⟨_, (Nat.sub_add_cancel (digitCount_pos k)).symm⟩
  have least : 10 ^ lead ≤ k := by
    have := pow_digitCount_sub_le positive
    rwa [count] at this
  have most : k + 1 ≤ 10 ^ (lead + 1) := by
    rw [← count]
    exact lt_pow_digitCount k
  rw [count, Nat.add_right_comm]
  apply digitCount_eq
  · calc 10 ^ (lead + width) = 10 ^ lead * 10 ^ width := Nat.pow_add ..
      _ ≤ k * 10 ^ width := Nat.mul_le_mul_right _ least
      _ ≤ k * 10 ^ width + r := Nat.le_add_right _ _
  · calc k * 10 ^ width + r < (k + 1) * 10 ^ width := by
          rw [Nat.succ_mul]
          omega
      _ ≤ 10 ^ (lead + 1) * 10 ^ width := Nat.mul_le_mul_right _ most
      _ = 10 ^ (lead + width + 1) := by
          rw [← Nat.pow_add]
          congr 1
          omega

theorem digits_pos (d : Decimal) : 0 < d.digits := digitCount_pos _

theorem digits_one : one.digits = 1 := by decide

/-- Zero is so short that no precision cuts it. -/
theorem round_of_coefficient_eq_zero {d : Decimal} (precision : Nat) (mode : RoundingMode)
    (zero : d.coefficient = 0) : d.round precision mode = d := by
  have one : d.digits = 1 := by
    rw [digits, zero]
    decide
  rw [round, if_pos (by omega)]

theorem coefficient_ne_zero_of_digits {d : Decimal} (long : 1 < d.digits) : d.coefficient ≠ 0 := by
  intro zero
  rw [digits, zero] at long
  exact absurd long (by decide)

theorem natAbs_sign_mul {c : Int} (h : c ≠ 0) (n : Nat) : (c.sign * n).natAbs = n := by
  rw [Int.natAbs_mul, Int.natAbs_sign_of_ne_zero h, Int.natAbs_natCast, Nat.one_mul]

theorem sign_sign_mul (c : Int) {n : Nat} (h : n ≠ 0) : (c.sign * n).sign = c.sign := by
  rw [Int.sign_mul, Int.sign_sign, Int.sign_natCast_of_ne_zero h, Int.mul_one]

/-- What rounding keeps of a coefficient longer than the precision: the carry goes no further than
to the next power of ten. -/
theorem kept_bounds (n width dropped : Nat) (mode : RoundingMode)
    (h : digitCount n = width + 1 + dropped) (positive : 0 < dropped) :
    10 ^ width ≤ mode.quotient n (Nat.pow 10 dropped) ∧
      mode.quotient n (Nat.pow 10 dropped) ≤ 10 ^ (width + 1) := by
  have unit : 0 < 10 ^ dropped := Nat.pow_pos (by omega)
  have below : 10 ^ width * 10 ^ dropped ≤ n := by
    rw [← Nat.pow_add]
    exact (lt_digitCount_iff (by omega)).mp (by omega)
  have above : n < 10 ^ (width + 1) * 10 ^ dropped := by
    rw [← Nat.pow_add]
    exact (digitCount_le_iff (by omega)).mp (by omega)
  obtain ⟨least, most⟩ := mode.quotient_bounds n (Nat.pow 10 dropped)
  have quotient_ge : 10 ^ width ≤ n / 10 ^ dropped := (Nat.le_div_iff_mul_le unit).mpr below
  have quotient_lt : n / 10 ^ dropped < 10 ^ (width + 1) := (Nat.div_lt_iff_lt_mul unit).mpr above
  exact ⟨quotient_ge.trans least, most.trans quotient_lt⟩

/-- Rounding leaves exactly as many digits as the precision says of a longer coefficient. -/
theorem digits_round_of_lt {d : Decimal} {precision : Nat} (mode : RoundingMode)
    (positive : 0 < precision) (h : precision < d.digits) :
    (d.round precision mode).digits = precision := by
  obtain ⟨width, rfl⟩ : ∃ width, precision = width + 1 := ⟨precision - 1, by omega⟩
  have nonzero := coefficient_ne_zero_of_digits (by omega : 1 < d.digits)
  obtain ⟨least, most⟩ := kept_bounds d.coefficient.natAbs width (d.digits - (width + 1)) mode
    (by simp only [digits] at *; omega) (by omega)
  have unlimited : ¬ (width + 1 = 0 ∨ d.digits ≤ width + 1) := by omega
  simp only [round, if_neg unlimited]
  split_ifs with carried
  · have full := (lt_digitCount_iff positive).mp carried
    have tenth := Nat.le_antisymm most full
    rw [digits, natAbs_sign_mul nonzero, tenth, Nat.pow_succ, Nat.mul_div_cancel _ (by omega)]
    exact digitCount_eq le_rfl (Nat.pow_lt_pow_right (by omega) (by omega))
  · rw [digits, natAbs_sign_mul nonzero]
    exact digitCount_eq least ((digitCount_le_iff positive).mp (not_lt.mp carried))

/-- A rounded decimal has no more digits than the precision says. -/
theorem digits_round_le (d : Decimal) {precision : Nat} (mode : RoundingMode)
    (positive : 0 < precision) : (d.round precision mode).digits ≤ precision := by
  rcases Nat.lt_or_ge precision d.digits with longer | short
  · exact (digits_round_of_lt mode positive longer).le
  · rwa [round_of_digits_le mode short]

end DecimalConformance.Decimal
