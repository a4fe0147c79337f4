import DecimalConformance.Proofs.Decimal.Cell
import DecimalConformance.Proofs.Decimal.ExactArithmetic

/-! Rounding to some digits, and then to fewer.
The second rounding gives what a single one would if the first only cut digits off, or dropped
nothing but zeros. -/
namespace DecimalConformance.Decimal

theorem saturate_saturate_add {e : Int} (least : exponentMin ≤ e) (a b : Nat) :
    saturate (saturate (e + a) + b) = saturate (e + a + b) := by
  simp only [saturate, exponentMin, exponentMax] at *
  omega

/-! ## Cutting off -/

/-- Towards zero the leading digits are kept, and nothing is carried. -/
theorem round_towardZero {d : Decimal} {precision : Nat} (positive : 0 < precision)
    (long : precision < d.digits) :
    d.round precision .towardZero =
      ⟨d.coefficient.sign * ↑(d.coefficient.natAbs / 10 ^ (d.digits - precision)),
        saturate (d.exponent + ↑(d.digits - precision))⟩ := by
  have nonzero := coefficient_ne_zero_of_digits (by omega : 1 < d.digits)
  have short : digitCount (d.coefficient.natAbs / 10 ^ (d.digits - precision)) ≤ precision := by
    rw [digitCount_le_iff positive, Nat.div_lt_iff_lt_mul (Nat.pow_pos (by omega)), ← Nat.pow_add,
      ← digitCount_le_iff (by omega)]
    show d.digits ≤ _
    omega
  have kept : RoundingMode.towardZero.quotient d.coefficient.natAbs
      (Nat.pow 10 (d.digits - precision)) =
        d.coefficient.natAbs / 10 ^ (d.digits - precision) := rfl
  rw [round, if_neg (by omega)]
  dsimp only
  rw [kept, if_neg (by omega)]

theorem round_round_towardZero {d : Decimal} {p q : Nat} (positive : 0 < p) (le : p ≤ q)
    (least : exponentMin ≤ d.exponent) :
    (d.round q .towardZero).round p .towardZero = d.round p .towardZero := by
  rcases Nat.lt_or_ge q d.digits with long | short
  · have count := digits_round_of_lt .towardZero (positive.trans_le le) long
    rcases Nat.eq_or_lt_of_le le with rfl | lt
    · exact round_of_digits_le .towardZero count.le
    · have nonzero := coefficient_ne_zero_of_digits (by omega : 1 < d.digits)
      have front : (d.round q .towardZero).coefficient.natAbs =
          d.coefficient.natAbs / 10 ^ (d.digits - q) := by
        rw [round_towardZero (by omega) long]
        exact natAbs_sign_mul nonzero _
      have size : d.coefficient.natAbs / 10 ^ (d.digits - q) ≠ 0 := by
        rw [← front, Int.natAbs_ne_zero]
        exact coefficient_ne_zero_of_digits (by omega)
      have sign : (d.round q .towardZero).coefficient.sign = d.coefficient.sign := by
        rw [round_towardZero (by omega) long]
        exact sign_sign_mul _ size
      have exponent : (d.round q .towardZero).exponent =
          saturate (d.exponent + ↑(d.digits - q)) := by
        rw [round_towardZero (by omega) long]
      have dropped : d.digits - q + (q - p) = d.digits - p := by omega
      have place : d.exponent + ↑(d.digits - q) + ↑(q - p) = d.exponent + ↑(d.digits - p) := by omega
      rw [round_towardZero positive (by omega), round_towardZero positive (by omega), count, front,
        sign, exponent, saturate_saturate_add least, place, Nat.div_div_eq_div_mul, ← Nat.pow_add,
        dropped]
  · rw [round_of_digits_le .towardZero short]

/-! ## Dropping zeros -/

theorem round_of_scaled {d wide : Decimal} {zeros precision : Nat} (mode : RoundingMode)
    (coefficient : wide.coefficient = d.coefficient * 10 ^ zeros)
    (exponent : d.exponent = wide.exponent + zeros) (positive : 0 < precision)
    (long : precision < d.digits) : wide.round precision mode = d.round precision mode := by
  have nonzero := coefficient_ne_zero_of_digits (by omega : 1 < d.digits)
  have size : wide.coefficient.natAbs = d.coefficient.natAbs * 10 ^ zeros := by
    rw [coefficient, Int.natAbs_mul, Int.natAbs_pow]
    rfl
  have count : wide.digits = d.digits + zeros := by
    have shifted := digitCount_mul_pow_add (Int.natAbs_pos.mpr nonzero)
      (Nat.pow_pos (by omega) : 0 < 10 ^ zeros)
    rw [Nat.add_zero, ← size] at shifted
    exact shifted
  have sign : wide.coefficient.sign = d.coefficient.sign := by
    have unit : (0 : Int) < 10 ^ zeros := pow_pos (by norm_num) zeros
    rw [coefficient, Int.sign_mul, Int.sign_eq_one_of_pos unit, Int.mul_one]
  have kept : mode.quotient wide.coefficient.natAbs (Nat.pow 10 (wide.digits - precision)) =
      mode.quotient d.coefficient.natAbs (Nat.pow 10 (d.digits - precision)) := by
    have more : Nat.pow 10 (wide.digits - precision) =
        Nat.pow 10 (d.digits - precision) * 10 ^ zeros := by
      show 10 ^ _ = 10 ^ _ * 10 ^ zeros
      rw [← Nat.pow_add]
      congr 1
      omega
    rw [size, more]
    exact mode.quotient_mul_right _ _ (Nat.pow_pos (by omega))
  have place : wide.exponent + ↑(wide.digits - precision) =
      d.exponent + ↑(d.digits - precision) := by
    omega
  have limited : ¬ (precision = 0 ∨ d.digits ≤ precision) := by omega
  have limited' : ¬ (precision = 0 ∨ wide.digits ≤ precision) := by omega
  simp only [round, if_neg limited, if_neg limited', kept, place, sign]

/-- Of two decimals of one value, the longer one has zeros behind the other. -/
theorem scaled_of_value_eq {d wide : Decimal} (same : wide.value = d.value)
    (nonzero : d.coefficient ≠ 0) (longer : d.digits ≤ wide.digits) :
    wide.coefficient = d.coefficient * 10 ^ (wide.digits - d.digits) ∧
      d.exponent = wide.exponent + ↑(wide.digits - d.digits) := by
  obtain ⟨low, least⟩ : ∃ low, low = min d.exponent wide.exponent := ⟨_, rfl⟩
  have unit : (10 : ℚ) ^ low ≠ 0 := zpow_ne_zero _ (by norm_num)
  rw [value_eq_shifted (by omega : low ≤ wide.exponent),
    value_eq_shifted (by omega : low ≤ d.exponent)] at same
  have aligned : wide.shifted low = d.shifted low := by
    exact_mod_cast mul_right_cancel₀ unit same
  have nonzero' : wide.coefficient ≠ 0 := by
    rwa [ne_eq, ← shifted_eq_zero_iff, aligned, shifted_eq_zero_iff]
  have counts : wide.digits + (wide.exponent - low).toNat =
      d.digits + (d.exponent - low).toNat := by
    rw [← digitCount_shifted nonzero, ← digitCount_shifted nonzero', aligned]
  have whole : (wide.exponent - low).toNat = 0 := by omega
  have zeros : (d.exponent - low).toNat = wide.digits - d.digits := by omega
  rw [shifted, shifted, whole, zeros, pow_zero, Int.mul_one] at aligned
  exact ⟨aligned, by omega⟩

theorem round_round_of_value_eq {d : Decimal} {p q : Nat} (mode : RoundingMode) (positive : 0 < p)
    (le : p ≤ q) (same : d.value = (d.round q mode).value) :
    (d.round q mode).round p mode = d.round p mode := by
  rcases Nat.lt_or_ge q d.digits with long | short
  · have count := digits_round_of_lt mode (positive.trans_le le) long
    rcases Nat.eq_or_lt_of_le le with rfl | lt
    · exact round_of_digits_le mode count.le
    · have nonzero := coefficient_ne_zero_of_digits (by omega : 1 < (d.round q mode).digits)
      obtain ⟨coefficient, exponent⟩ := scaled_of_value_eq same nonzero (by omega)
      exact (round_of_scaled mode coefficient exponent positive (by omega)).symm
  · rw [round_of_digits_le mode short]

/-- The second of two roundings is harmless where the first cut off, or was exact. -/
theorem round_round {d : Decimal} {p q : Nat} {mode : RoundingMode} (positive : 0 < p)
    (le : p ≤ q) (least : exponentMin ≤ d.exponent)
    (safe : mode = .towardZero ∨ d.value = (d.round q mode).value) :
    (d.round q mode).round p mode = d.round p mode := by
  rcases safe with rfl | same
  · exact round_round_towardZero positive le least
  · exact round_round_of_value_eq mode positive le same

end DecimalConformance.Decimal
