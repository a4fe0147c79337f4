import DecimalConformance.Decimal.Logarithm

/-! Powers: repeated squaring for small integral exponents, logarithm and exponential otherwise. -/
namespace DecimalConformance.Decimal

/-- The largest integral exponent that is raised by repeated multiplication. -/
def maxIntegralPower : Nat := 999999999

/-- The integer itself, if it is not too large. -/
def smallInteger (n : Int) : Option Int := if n.natAbs ≤ maxIntegralPower then some n else none

section Integers

variable {m : Type → Type} [Monad m]

/-- The integer that `y` equals, if it is small enough for repeated multiplication, with plain steps
and powers of ten as they are given.  No power of ten larger than the digits of `y` call for is built
on the way. -/
def integralWith (step : Int → m Int) (power : Nat → m Nat) (y : Decimal) : m (Option Int) := do
  if y.isZero then return some 0
  else
    let digits ← digitCountBy power y.coefficient.natAbs
    if 0 ≤ y.exponent then
      if 9 < (← step (saturate (y.exponent + digits) - 1)) then return none
      else return smallInteger (y.coefficient * (← power y.exponent.toNat))
    else if digits < y.exponent.natAbs then return none
    else
      let divisor : Int := (← power y.exponent.natAbs)
      if y.coefficient.tmod divisor = 0 then return smallInteger (y.coefficient.tdiv divisor)
      else return none

/-- The small integer that `y` equals, with powers of ten as they are given. -/
def integralBy (power : Nat → m Nat) (y : Decimal) : m (Option Int) := integralWith pure power y

end Integers

def integral? (y : Decimal) : Option Int := (integralBy anyPower y).run

theorem integral?_def (y : Decimal) :
    let divisor : Int := (Nat.pow 10 y.exponent.natAbs : Nat)
    y.integral? =
      if y.isZero then some 0
      else if 0 ≤ y.exponent then
        if 9 < y.adjusted then none
        else smallInteger (y.coefficient * (Nat.pow 10 y.exponent.toNat : Nat))
      else if y.digits < y.exponent.natAbs then none
      else if y.coefficient.tmod divisor = 0 then smallInteger (y.coefficient.tdiv divisor)
      else none := by
  simp only [integral?, integralBy, integralWith, apply_ite Id.run, Id.run_bind, Id.run_pure]
  rfl

/-- A product rounded to the nearest decimal at the working precision. -/
def roundedProduct (a b : Decimal) (working : Nat) : Except Condition Decimal := do
  return (← multiply a b).round working .nearestEven

/-- The accumulator times the `n`-th power of the base, by binary digits of `n`. -/
def raise (working : Nat) (acc base : Decimal) (n : Nat) : Except Condition Decimal := do
  let acc ← if n % 2 = 1 then roundedProduct acc base working else .ok acc
  if n / 2 = 0 then return acc
  else raise working acc (← roundedProduct base base working) (n / 2)
termination_by n

/-- Digits carried beyond the requested ones: the rounding errors of the squarings add up. -/
def powerPrecision (n precision : Nat) : Nat :=
  min precisionMax (min precisionMax (precision + digitCount n) + 2)

section Powers

variable {m : Type → Type} [Monad m] [MonadExcept Condition m] (steps : Steps m)

/-- The integral power `x ^ n`. -/
def integralPowerBy (x : Decimal) (n : Int) (precision : Nat) (mode : RoundingMode) : m Decimal :=
  if n = 0 then
    if x.isZero then throw (.invalidOperation "0 ** 0") else return one
  else if x.isZero ∧ n < 0 then throw .divisionByZero
  else do
    let working := powerPrecision n.natAbs precision
    let raised ← MonadExcept.ofExcept (raise working one x n.natAbs)
    let result ← if n < 0 then divideBy steps one raised working .nearestEven else pure raised
    return result.round precision mode

/-- The power `x ^ y`. -/
def powerBy (x y : Decimal) (precision : Nat) (mode : RoundingMode) : m Decimal := do
  match ← integralWith steps.exponent (fun n => pure (Nat.pow 10 n)) y with
  | some n => integralPowerBy steps x n precision mode
  | none =>
    if x.isNegative then throw (.invalidOperation "negative base with a non-integral exponent")
    else if x.isZero then if y.isNegative then throw .divisionByZero else return ⟨0, 0⟩
    else
      let working := guarded precision
      let log ← lnBy steps x working .nearestEven
      let product ← MonadExcept.ofExcept (roundedProduct y log working)
      expBy steps product precision mode

end Powers

def integralPower (x : Decimal) (n : Int) (precision : Nat) (mode : RoundingMode) :
    Except Condition Decimal :=
  integralPowerBy .engine x n precision mode

def power (x y : Decimal) (precision : Nat) (mode : RoundingMode) : Except Condition Decimal :=
  powerBy .engine x y precision mode

end DecimalConformance.Decimal
