import DecimalConformance.Decimal.Exponential

/-! The natural logarithm in fixed point.
The argument is split into a mantissa in [1/2, 1), a power of two and a power of ten; the
three logarithms come from one series for the inverse hyperbolic tangent. -/
namespace DecimalConformance.Decimal

section Series

variable {m : Type → Type} [Monad m] (count : Nat → m Nat)

/-- The sum of the series behind the term of degree `degree`, whose power is `power`.
It ends where a term is zero; the powers fall strictly. -/
@[specialize] def atanhTailBy (square one degree power : Nat) : m Nat := do
  let next := power * square / one
  let degree ← count (degree + 2)
  let term := next / degree
  if 0 < term ∧ next < power then return term + (← atanhTailBy square one degree next)
  else return 0
termination_by power

/-- The inverse hyperbolic tangent of `z` in units of `one`. -/
def atanhBy (z one : Nat) : m Nat := do return z + (← atanhTailBy count (z * z / one) one 1 z)

end Series

/-- The sum where the counter holds every degree. -/
def atanhTail (square one degree power : Nat) : Nat :=
  (atanhTailBy pure square one degree power : Id Nat).run

def atanh (z one : Nat) : Nat := (atanhBy pure z one : Id Nat).run

theorem atanhTail_def (square one degree power : Nat) :
    let next := power * square / one
    let term := next / (degree + 2)
    atanhTail square one degree power =
      if 0 < term ∧ next < power then term + atanhTail square one (degree + 2) next else 0 := by
  dsimp only
  rw [atanhTail, atanhTailBy, pure_bind]
  dsimp only
  split <;> rfl

/-- How often `n` is doubled until it reaches `bound`, and what it is then. -/
def doubled (bound n : Nat) : Nat × Nat :=
  if 0 < n ∧ n < bound then
    let (times, m) := doubled bound (2 * n)
    (times + 1, m)
  else (0, n)
termination_by bound - n

/-- The coefficient read as a fraction below one, in units of `10 ^ -scale`. -/
def mantissa (x : Decimal) (scale : Nat) : Nat :=
  if x.digits ≤ scale then x.coefficient.natAbs * Nat.pow 10 (scale - x.digits)
  else x.coefficient.natAbs / Nat.pow 10 (x.digits - scale)

/-- The place just above the leading digit. -/
def decade (x : Decimal) : Int := saturate (x.exponent + x.digits)

section Logarithm

variable {m : Type → Type} [Monad m]

/-- Digits lost to cancellation next to one: the zeros that lead the distance to it. -/
def cancelledDigitsBy [MonadExcept Condition m] (step : Int → m Int) (x : Decimal) : m Nat :=
  if x.decade = 0 ∨ x.decade = 1 then do
    let distance ← addBy step x one.neg 0
    return (min (← step distance.adjusted) 0).natAbs
  else return 0

/-- The logarithm of `x` in units of `10 ^ -scale`. -/
def lnFixedBy (count : Nat → m Nat) (x : Decimal) (scale : Nat) : m Int := do
  let one := Nat.pow 10 scale
  let (doublings, mantissa) := doubled (one / 2) (x.mantissa scale)
  let fraction := 2 * (← atanhBy count ((one - mantissa) * one / (mantissa + one)) one)
  let ln2 := 2 * (← atanhBy count (one / 3) one)
  let ln10 := 3 * ln2 + 2 * (← atanhBy count (one / 9) one)
  return ln10 * x.decade - ln2 * doublings - fraction

/-- The natural logarithm of `x`. -/
def lnBy [MonadExcept Condition m] (steps : Steps m) (x : Decimal) (precision : Nat)
    (mode : RoundingMode) : m Decimal :=
  if x.coefficient ≤ 0 then throw (.invalidOperation "logarithm of a non-positive number")
  else do
    if (← compareBy steps.exponent x one) = .eq then return ⟨0, 0⟩
    else
      let cancelled ← cancelledDigitsBy steps.exponent x
      let scale := guarded precision + digitCount x.decade.natAbs + cancelled
      return round ⟨← lnFixedBy steps.degree x scale, -(scale : Int)⟩ precision mode

end Logarithm

def cancelledDigits (x : Decimal) : Except Condition Nat := cancelledDigitsBy pure x

def lnFixed (x : Decimal) (scale : Nat) : Int := (lnFixedBy pure x scale : Id Int).run

def ln (x : Decimal) (precision : Nat) (mode : RoundingMode) : Except Condition Decimal :=
  lnBy .engine x precision mode

theorem lnBy_engine (x : Decimal) (precision : Nat) (mode : RoundingMode) :
    lnBy .engine x precision mode = x.ln precision mode := rfl

end DecimalConformance.Decimal
