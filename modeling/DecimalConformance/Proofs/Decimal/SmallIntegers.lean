import DecimalConformance.Proofs.Decimal.IntegralPowers

/-! Exponents that are small integers.
An exponent is taken as an integer exactly if it denotes one of nine digits at most, whatever zeros it
is written with.  No power of ten above the ninth is needed for this, unless the exponent itself is
longer. -/
namespace DecimalConformance.Decimal

variable {y : Decimal} {n : Int}

/-! ## What is recognised -/

private theorem value_of_exponent_nonneg (up : 0 ≤ y.exponent) :
    y.value = (y.coefficient * Nat.pow 10 y.exponent.toNat : Int) := by
  obtain ⟨places, exponent⟩ := Int.eq_ofNat_of_zero_le up
  rw [value, exponent, Int.toNat_natCast, zpow_natCast, Nat.pow_eq]
  push_cast
  rfl

private theorem value_of_tmod_eq_zero (down : y.exponent < 0)
    (whole : y.coefficient.tmod (Nat.pow 10 y.exponent.natAbs : Nat) = 0) :
    y.value = (y.coefficient.tdiv (Nat.pow 10 y.exponent.natAbs : Nat) : Int) := by
  have place : y.exponent = -(y.exponent.natAbs : Int) := by omega
  have product := Int.tdiv_mul_cancel (Int.dvd_of_tmod_eq_zero whole)
  generalize y.coefficient.tdiv _ = quotient at *
  rw [value, ← product, place, zpow_neg, zpow_natCast, ← div_eq_mul_inv,
    div_eq_iff (by positivity), Int.natAbs_neg, Int.natAbs_natCast, Nat.pow_eq]
  push_cast
  rfl

private theorem smallInteger_eq_some_iff {k : Int} :
    smallInteger k = some n ↔ k = n ∧ n.natAbs ≤ maxIntegralPower := by
  rw [smallInteger, Option.ite_none_right_eq_some, Option.some.injEq, and_comm]
  exact and_congr_right fun same => by rw [same]

/-- What is taken as an integer denotes it. -/
theorem value_of_integral? (found : y.integral? = some n) :
    y.value = n ∧ n.natAbs ≤ maxIntegralPower := by
  rw [integral?_def] at found
  split_ifs at found with zero up large short whole
  · obtain rfl := Option.some.inj found
    have coefficient : y.coefficient = 0 := by simpa [isZero] using zero
    exact ⟨by simpa using value_eq_zero_iff.mpr coefficient, by decide⟩
  · obtain ⟨rfl, small⟩ := smallInteger_eq_some_iff.mp found
    exact ⟨value_of_exponent_nonneg up, small⟩
  · obtain ⟨rfl, small⟩ := smallInteger_eq_some_iff.mp found
    exact ⟨value_of_tmod_eq_zero (not_le.mp up) whole, small⟩

theorem integral?_eq_some_iff :
    y.integral? = some n ↔ y.value = n ∧ n.natAbs ≤ maxIntegralPower :=
  ⟨value_of_integral?, fun ⟨whole, small⟩ => integral?_of_value_eq whole small⟩

theorem integral?_eq_none_iff :
    y.integral? = none ↔ ∀ n : Int, y.value = n → maxIntegralPower < n.natAbs := by
  rw [Option.eq_none_iff_forall_ne_some]
  refine forall_congr' fun n => ?_
  rw [ne_eq, integral?_eq_some_iff, not_and, not_le]

/-! ## The powers of ten on the way -/

/-- Powers of ten up to a limit, and no others. -/
def powerWithin (limit n : Nat) : Option Nat := if n ≤ limit then some (Nat.pow 10 n) else none

/-- An exponent is taken as an integer exactly if it denotes one of nine digits at most, however it is
written.  The same program, run on powers of ten that are refused above the ninth and above the digits
of the exponent, gives the same answer. -/
theorem integral?_iff_small (y : Decimal) :
    (∀ n : Int, y.integral? = some n ↔ y.value = n ∧ n.natAbs ≤ 999999999) ∧
    (y.integral? = none ↔ ∀ n : Int, y.value = n → 999999999 < n.natAbs) ∧
    integralBy anyPower y = y.integral? ∧
    integralBy (powerWithin (max 9 y.digits)) y = some y.integral? :=
  ⟨fun _ => integral?_eq_some_iff, integral?_eq_none_iff, rfl,
    integralWith_eq rfl fun _ le => if_pos le⟩

end DecimalConformance.Decimal
