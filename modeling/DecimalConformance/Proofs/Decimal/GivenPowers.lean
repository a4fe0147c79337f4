import DecimalConformance.Decimal.Power
import DecimalConformance.Proofs.Decimal.DigitCount

/-! Small integers from powers of ten that are given.
Digits are counted by powers of ten, and an integer is recognised by one more.  All of them are found
among the powers up to the ninth and up to the count of the digits. -/
namespace DecimalConformance.Decimal

variable {m : Type → Type} [Monad m] {power : Nat → m Nat} {step : Int → m Int} {y : Decimal}

/-- A source of powers that has those up to a limit. -/
def Gives (power : Nat → m Nat) (limit : Nat) : Prop := ∀ n ≤ limit, power n = pure (Nat.pow 10 n)

private theorem le_widthFrom (n steps width : Nat) : width ≤ widthFrom n steps width := by
  induction steps generalizing width with
  | zero => exact le_rfl
  | succ steps ih =>
    rw [widthFrom_succ]
    split
    · exact le_rfl
    · exact (Nat.le_succ width).trans (ih (width + 1))

/-- The count of digits is not estimated too high. -/
private theorem estimate_le (n : Nat) : n.log2 * 643 / 2136 ≤ digitCount n := by
  rcases Nat.eq_zero_or_pos n with rfl | positive
  · exact Nat.zero_le _
  have power : 10 ^ (n.log2 * 643 / 2136) ≤ 2 ^ n.log2 :=
    pow_mul_div_le (by decide) (by decide +kernel) (by decide) n.log2
  have short := (power.trans (Nat.log2_self_le positive.ne')).trans_lt (lt_pow_digitCount n)
  exact ((Nat.pow_lt_pow_iff_right (by decide)).mp short).le

variable [LawfulMonad m]

theorem widthFromBy_eq {n steps width : Nat} (given : Gives power (widthFrom n steps width)) :
    widthFromBy power n steps width = pure (widthFrom n steps width) := by
  induction steps generalizing width with
  | zero => rfl
  | succ steps ih =>
    rw [widthFromBy, given width (le_widthFrom ..), pure_bind]
    rw [widthFrom_succ] at given ⊢
    split
    · rfl
    · next longer =>
      rw [if_neg longer] at given
      exact ih given

theorem digitCountBy_eq {n : Nat} (given : Gives power (digitCount n)) :
    digitCountBy power n = pure (digitCount n) := by
  rw [digitCountBy, given _ (estimate_le n), pure_bind]
  exact widthFromBy_eq given

/-- The powers up to the ninth, and up to the digits of the exponent, are enough. -/
theorem integralWith_eq (taken : step y.adjusted = pure y.adjusted)
    (given : Gives power (max 9 y.digits)) : integralWith step power y = pure y.integral? := by
  have counted : digitCountBy power y.coefficient.natAbs = pure y.digits :=
    digitCountBy_eq fun n le => given n (le.trans (le_max_right ..))
  have single := y.digits_pos
  rw [integralWith, counted, integral?_def]
  split
  · rfl
  · rw [pure_bind, ← adjusted, taken, pure_bind]
    split
    · split
      · rfl
      · next near =>
        have small : y.exponent.toNat ≤ max 9 y.digits := by
          simp only [adjusted, saturate, exponentMin, exponentMax] at near
          omega
        rw [given _ small, pure_bind]
    · split
      · rfl
      · next short =>
        have small : y.exponent.natAbs ≤ max 9 y.digits := by omega
        rw [given _ small, pure_bind]
        dsimp only
        split <;> rfl

theorem integralWith_pure (y : Decimal) :
    integralWith pure (fun n => (pure (Nat.pow 10 n) : m Nat)) y = pure y.integral? :=
  integralWith_eq rfl fun _ _ => rfl

end DecimalConformance.Decimal
