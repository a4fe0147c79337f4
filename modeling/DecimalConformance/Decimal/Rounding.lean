import DecimalConformance.Decimal.Basic

/-! Shortening a decimal to a number of significant digits.
One quotient by a power of ten decides: it is cut off, or moved to the neighbour away from zero. -/
namespace DecimalConformance

/-- What happens to the digits that do not fit. -/
inductive RoundingMode where
  | nearestEven
  | nearestAway
  | towardZero
  deriving DecidableEq, Repr, Inhabited

namespace RoundingMode

/-- The token that names the mode in scripts and reports. -/
def token : RoundingMode → String
  | nearestEven => "half_even"
  | nearestAway => "half_up"
  | towardZero => "down"

/-- Whether a quotient with this remainder moves away from zero; twice the remainder tells
the halves apart. -/
def movesAway (mode : RoundingMode) (quotient remainder divisor : Nat) : Bool :=
  match mode with
  | towardZero => false
  | nearestAway => divisor ≤ 2 * remainder
  | nearestEven => divisor < 2 * remainder || (divisor == 2 * remainder && quotient % 2 == 1)

/-- The integer next to `n / divisor` that the mode selects. -/
def quotient (mode : RoundingMode) (n divisor : Nat) : Nat :=
  if mode.movesAway (n / divisor) (n % divisor) divisor then n / divisor + 1 else n / divisor

/-- An integral quotient is left as it is. -/
theorem quotient_of_dvd (mode : RoundingMode) {n divisor : Nat} (h : divisor ∣ n)
    (hd : 0 < divisor) : mode.quotient n divisor = n / divisor := by
  have hr := Nat.mod_eq_zero_of_dvd h
  cases mode <;> simp [quotient, movesAway, hr] <;> omega

/-- The quotient is one of the two neighbours. -/
theorem quotient_bounds (mode : RoundingMode) (n divisor : Nat) :
    n / divisor ≤ mode.quotient n divisor ∧ mode.quotient n divisor ≤ n / divisor + 1 := by
  unfold quotient
  split <;> omega

end RoundingMode

namespace Decimal

/-- The decimal at `precision` digits.  A short coefficient is left as it is, never padded, and
precision zero means unlimited. -/
def round (d : Decimal) (precision : Nat) (mode : RoundingMode) : Decimal :=
  if precision = 0 ∨ d.digits ≤ precision then d
  else
    let dropped := d.digits - precision
    let kept := mode.quotient d.coefficient.natAbs (Nat.pow 10 dropped)
    let exponent := saturate (d.exponent + dropped)
    -- A carry such as 999 to 1000 leaves one digit too many.
    if precision < digitCount kept then
      ⟨d.coefficient.sign * ↑(kept / 10), saturate (exponent + 1)⟩
    else ⟨d.coefficient.sign * ↑kept, exponent⟩

/-- Precision zero rounds nothing. -/
@[simp] theorem round_zero (d : Decimal) (mode : RoundingMode) : d.round 0 mode = d := by
  simp [round]

/-- What is short enough is left as it is, trailing zeros included. -/
theorem round_of_digits_le {d : Decimal} {precision : Nat} (mode : RoundingMode)
    (h : d.digits ≤ precision) : d.round precision mode = d := by
  simp [round, h]

end Decimal
end DecimalConformance
