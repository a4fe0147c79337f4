import DecimalConformance.Decimal.Rounding
import DecimalConformance.Decimal.Steps

/-! Order, sum, product, quotient, remainder and extrema of decimals.
Sums and products are exact as far as a later rounding can tell; quotients are rounded once. -/
namespace DecimalConformance.Decimal

variable {m : Type → Type} [Monad m]

/-- Longest shift that is carried out to bring two coefficients to one exponent. -/
def maxShift : Nat := 1000000

/-- A power of ten, refused beyond the longest shift. -/
def shiftFactor (n : Nat) : Except Condition Nat :=
  if maxShift < n then .error .overflow else .ok (Nat.pow 10 n)

/-- The coefficient that stands for `d` at an exponent not above its own. -/
def coefficientAt (d : Decimal) (exponent : Int) : Except Condition Int := do
  let factor ← shiftFactor (d.exponent - exponent).toNat
  return d.coefficient * factor

/-! ## Order -/

section Order

variable (step : Int → m Int)

/-- Order of two nonzero decimals by size, signs left out.  Where the leading digits have
the same place the shift is bounded by the digits. -/
def compareMagnitudeBy (a b : Decimal) : m Ordering := do
  match Ord.compare (← step a.adjusted) (← step b.adjusted) with
  | .eq =>
    let low := min a.exponent b.exponent
    return Ord.compare (a.coefficient.natAbs * Nat.pow 10 (a.exponent - low).toNat)
      (b.coefficient.natAbs * Nat.pow 10 (b.exponent - low).toNat)
  | order => return order

/-- Numeric order; decimals of one value are equal in it. -/
def compareBy (a b : Decimal) : m Ordering :=
  match Ord.compare a.coefficient.sign b.coefficient.sign with
  | .eq =>
    if a.coefficient = 0 then return .eq
    else if a.coefficient < 0 then return (← compareMagnitudeBy step a b).swap
    else compareMagnitudeBy step a b
  | order => return order

/-- Whether the first of two decimals is the greater; between decimals of one value
the larger exponent is, and the smaller one below zero. -/
def firstIsGreaterBy (a b : Decimal) : m Bool := do
  match ← compareBy step a b with
  | .gt => return true
  | .lt => return false
  | .eq => return if a.isNegative then a.exponent ≤ b.exponent else b.exponent ≤ a.exponent

def greaterBy (a b : Decimal) : m Decimal := do
  return if ← firstIsGreaterBy step a b then a else b

def lesserBy (a b : Decimal) : m Decimal := do
  return if ← firstIsGreaterBy step a b then b else a

end Order

def compareMagnitude (a b : Decimal) : Ordering := (compareMagnitudeBy pure a b : Id Ordering).run

def compare (a b : Decimal) : Ordering := (compareBy pure a b : Id Ordering).run

def firstIsGreater (a b : Decimal) : Bool := (firstIsGreaterBy pure a b : Id Bool).run

def greater (a b : Decimal) : Decimal := (greaterBy pure a b : Id Decimal).run

def lesser (a b : Decimal) : Decimal := (lesserBy pure a b : Id Decimal).run

section Taken

variable [LawfulMonad m] {step : Int → m Int} {a b : Decimal}
  (left : step a.adjusted = pure a.adjusted) (right : step b.adjusted = pure b.adjusted)

include left right

theorem compareMagnitudeBy_eq : compareMagnitudeBy step a b = pure (a.compareMagnitude b) := by
  simp only [compareMagnitude, compareMagnitudeBy, left, right, pure_bind]
  cases Ord.compare a.adjusted b.adjusted <;> rfl

theorem compareBy_eq : compareBy step a b = pure (a.compare b) := by
  rw [compare, compareBy, compareBy, compareMagnitudeBy_eq left right, pure_bind]
  cases Ord.compare a.coefficient.sign b.coefficient.sign with
  | eq =>
    dsimp only
    split
    · rfl
    · split <;> rfl
  | lt | gt => rfl

theorem firstIsGreaterBy_eq : firstIsGreaterBy step a b = pure (a.firstIsGreater b) := by
  rw [firstIsGreaterBy, compareBy_eq left right, pure_bind, firstIsGreater, firstIsGreaterBy,
    Id.run_bind, ← compare]
  cases a.compare b <;> rfl

theorem greaterBy_eq : greaterBy step a b = pure (a.greater b) := by
  rw [greaterBy, firstIsGreaterBy_eq left right, pure_bind]
  rfl

theorem lesserBy_eq : lesserBy step a b = pure (a.lesser b) := by
  rw [lesserBy, firstIsGreaterBy_eq left right, pure_bind]
  rfl

end Taken

/-! ## Sum and product -/

/-- The sum at the smaller of the two exponents. -/
def addExact (a b : Decimal) : Except Condition Decimal := do
  let low := min a.exponent b.exponent
  let x ← a.coefficientAt low
  let y ← b.coefficientAt low
  return ⟨x + y, low⟩

/-- No digit of a rounded sum, nor its rounding, looks below this place; `lead` is the place of the
leading digit of `big`. -/
def floorUnder (big : Decimal) (lead : Int) (precision : Nat) : Int :=
  saturate (min big.exponent (saturate (lead - precision)) - 1)

/-- A unit with the sign of `small`, at a place below all that count. -/
def unitAt (small : Decimal) (place : Int) : Decimal := ⟨if small.isNegative then -1 else 1, place⟩

/-- The sum, exact up to what rounding to `precision` can tell.  An addend below every place
that counts is replaced by a unit of its sign, so exponents far apart are never aligned. -/
def addBy [MonadExcept Condition m] (step : Int → m Int) (a b : Decimal) (precision : Nat) :
    m Decimal := do
  if 0 < precision ∧ !a.isZero ∧ !b.isZero then
    let (big, small) := if (← step b.adjusted) ≤ (← step a.adjusted) then (a, b) else (b, a)
    let floor := floorUnder big (← step big.adjusted) precision
    if (← step small.adjusted) < floor then
      MonadExcept.ofExcept (addExact big (unitAt small (← step (floor - 1))))
    else MonadExcept.ofExcept (addExact a b)
  else MonadExcept.ofExcept (addExact a b)

def add (a b : Decimal) (precision : Nat) : Except Condition Decimal := addBy pure a b precision

theorem addBy_pure (a b : Decimal) (precision : Nat) : addBy pure a b precision = a.add b precision :=
  rfl

/-- The exact product. -/
def multiply (a b : Decimal) : Except Condition Decimal :=
  let exponent := a.exponent + b.exponent
  if ExponentFits exponent then .ok ⟨a.coefficient * b.coefficient, exponent⟩
  else .error .overflow

/-! ## Quotient and remainder -/

/-- A coefficient moved up by dropping trailing zeros, at most `room` of them. -/
def stripBy (step : Int → m Int) : (room coefficient : Nat) → (exponent : Int) → m (Nat × Int)
  | 0, coefficient, exponent => return (coefficient, exponent)
  | room + 1, coefficient, exponent => do
    if coefficient ≠ 0 ∧ coefficient % 10 = 0 then
      stripBy step room (coefficient / 10) (← step (exponent + 1))
    else return (coefficient, exponent)

/-- Appends a digit that stands for everything below, so that rounding sees a little more. -/
def withGuardDigitBy (step : Int → m Int) (coefficient : Nat) (exponent : Int) : m (Nat × Int) := do
  return (coefficient * 10 + 1, ← step (exponent - 1))

/-- How far a dividend is shifted so that the quotient has more digits than it keeps. -/
def divisionShift (a b : Decimal) (precision : Nat) : Nat :=
  precision + b.digits + 1 - a.digits

/-- The quotient, rounded once.  An exact one moves towards the difference of the exponents. -/
def divideBy [MonadExcept Condition m] (steps : Steps m) (a b : Decimal) (precision : Nat)
    (mode : RoundingMode) : m Decimal :=
  if b.isZero then
    throw (if a.isZero then .invalidOperation "division undefined" else .divisionByZero)
  else
    let ideal := a.exponent - b.exponent
    if ¬ ExponentFits ideal then throw .overflow
    else if a.isZero then return ⟨0, ideal⟩
    else do
      let shift := divisionShift a b precision
      let dividend := a.coefficient.natAbs * (← MonadExcept.ofExcept (shiftFactor shift))
      let divisor := b.coefficient.natAbs
      let exponent := ideal - shift
      if exponent < exponentMin then throw .overflow
      else
        let sign := a.coefficient.sign * b.coefficient.sign
        let (coefficient, exponent) ←
          if dividend % divisor = 0 then
            stripBy steps.exponent shift (dividend / divisor) exponent
          else withGuardDigitBy steps.guardDigit (dividend / divisor) exponent
        return round ⟨sign * coefficient, exponent⟩ precision mode

def divide (a b : Decimal) (precision : Nat) (mode : RoundingMode) : Except Condition Decimal :=
  divideBy .engine a b precision mode

theorem divideBy_engine (a b : Decimal) (precision : Nat) (mode : RoundingMode) :
    divideBy .engine a b precision mode = a.divide b precision mode := rfl

/-- What is left of `a` after the integral part of the quotient, at the smaller exponent and
with the sign of `a`.  An integral part longer than `precision` is refused. -/
def remainderBy [MonadExcept Condition m] (step : Int → m Int) (a b : Decimal) (precision : Nat) :
    m Decimal :=
  let low := min a.exponent b.exponent
  if b.isZero then throw (.invalidOperation "remainder by zero")
  else if a.isZero then return ⟨0, low⟩
  else do
    if 0 < precision ∧ precision < saturate ((← step a.adjusted) - (← step b.adjusted)) then
      throw .divisionImpossible
    else
      let x ← MonadExcept.ofExcept (a.coefficientAt low)
      let y ← MonadExcept.ofExcept (b.coefficientAt low)
      if 0 < precision ∧ precision < digitCount (x.tdiv y).natAbs then throw .divisionImpossible
      else return ⟨x.tmod y, low⟩

def remainder (a b : Decimal) (precision : Nat) : Except Condition Decimal :=
  remainderBy pure a b precision

end DecimalConformance.Decimal
