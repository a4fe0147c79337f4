import DecimalConformance.Decimal.Arithmetic

/-! The correctly rounded square root.
The root of a natural number is found from above; an exact root moves towards half the exponent. -/
namespace DecimalConformance.Decimal

/-- Newton's step from above, repeated as long as it descends. -/
def descendToRoot (n guess : Nat) : Nat :=
  let next := (guess + n / guess) / 2
  if next < guess then descendToRoot n next else guess
termination_by guess

/-- The largest number whose square is at most `n`. -/
def floorRoot (n : Nat) : Nat :=
  if n = 0 then 0 else descendToRoot n (Nat.pow 2 (n.log2 / 2 + 1))

/-- Places added to each half of the radicand, so that the root has a digit to spare. -/
def rootScale (coefficient precision : Nat) : Nat :=
  (precision + 1 - (digitCount coefficient + 1) / 2) + 1

section Root

variable {m : Type → Type} [Monad m] (step : Int → m Int)

/-- The exponent itself if it is even, and the even one below it otherwise. -/
def evenExponentBy (e : Int) : m Int := if e % 2 = 0 then return e else step (e - 1)

/-- The square root, rounded once. -/
def squareRootBy [MonadExcept Condition m] (x : Decimal) (precision : Nat) (mode : RoundingMode) :
    m Decimal :=
  if x.isNegative then throw (.invalidOperation "square root of a negative number")
  else
    let ideal := x.exponent / 2
    if x.isZero then return ⟨0, ideal⟩
    else do
      let even ← evenExponentBy step x.exponent
      let coefficient := x.coefficient.natAbs * (if x.exponent % 2 = 0 then 1 else 10)
      let scale := rootScale coefficient precision
      let radicand := coefficient * Nat.pow 10 (2 * scale)
      let root := floorRoot radicand
      let exponent ← step (even.tdiv 2 - scale)
      let (root, exponent) ←
        if root * root = radicand then stripBy step scale root exponent
        else withGuardDigitBy step root exponent
      return round ⟨root, exponent⟩ precision mode

end Root

def squareRoot (x : Decimal) (precision : Nat) (mode : RoundingMode) : Except Condition Decimal :=
  squareRootBy pure x precision mode

end DecimalConformance.Decimal
