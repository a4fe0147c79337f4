import DecimalConformance.Decimal.Arithmetic

/-! The exponential function in fixed point.
The argument is halved until the series converges quickly, the sum is squared back, and the
guard digits are rounded away once. -/
namespace DecimalConformance.Decimal

/-- Digits carried beyond the requested ones. -/
def guardDigits : Nat := 12

/-- The precision of intermediate results. -/
def guarded (precision : Nat) : Nat := min precisionMax (precision + guardDigits)

/-- The magnitude of `x` in units of `10 ^ -scale`, cut off. -/
def toFixed (x : Decimal) (scale : Nat) : Nat :=
  let shift := saturate (x.exponent + scale)
  if 0 ≤ shift then x.coefficient.natAbs * Nat.pow 10 shift.toNat
  else x.coefficient.natAbs / Nat.pow 10 (-shift).toNat

/-- How often `n` is halved until it is below `bound`. -/
def halvings (bound n : Nat) : Nat :=
  if 0 < bound ∧ bound ≤ n then halvings bound (n / 2) + 1 else 0
termination_by n

section Series

variable {m : Type → Type} [Monad m] (count : Nat → m Nat)

/-- The sum of the series behind `term`, the term of degree `degree - 1`.  The terms fall
strictly, and the series ends where one is zero. -/
@[specialize] def seriesTailBy (reduced one degree term : Nat) : m Nat :=
  let next := term * reduced / one / degree
  if 0 < next ∧ next < term then do
    return next + (← seriesTailBy reduced one (← count (degree + 1)) next)
  else return 0
termination_by term

/-- Squares a fixed-point number `times` times. -/
def squareUp (one : Nat) : (times sum : Nat) → Nat
  | 0, sum => sum
  | times + 1, sum => squareUp one times (sum * sum / one)

/-- The exponential of the magnitude of `x`, with `digits` correct places behind the point. -/
def expFixedBy (x : Decimal) (digits : Nat) : m Decimal := do
  let probeScale := digits + 2
  let steps := halvings (Nat.pow 10 probeScale / 2) (x.toFixed probeScale)
  let scale := digits + 10 + steps / 3 + 1
  let one := Nat.pow 10 scale
  let reduced := x.toFixed scale / Nat.pow 2 steps
  return ⟨squareUp one steps (one + (← seriesTailBy count reduced one 1 one)), -(scale : Int)⟩

end Series

/-- The sum where the counter holds every degree. -/
def seriesTail (reduced one degree term : Nat) : Nat :=
  (seriesTailBy pure reduced one degree term : Id Nat).run

def expFixed (x : Decimal) (digits : Nat) : Decimal := (expFixedBy pure x digits : Id Decimal).run

@[simp] theorem run_seriesTailBy (reduced one degree term : Nat) :
    (seriesTailBy pure reduced one degree term : Id Nat).run = seriesTail reduced one degree term :=
  rfl

theorem seriesTail_def (reduced one degree term : Nat) :
    let next := term * reduced / one / degree
    seriesTail reduced one degree term =
      if 0 < next ∧ next < term then next + seriesTail reduced one (degree + 1) next else 0 := by
  dsimp only
  rw [seriesTail, seriesTailBy]
  split <;> rfl

/-- Leading digits beyond this place are refused. -/
def expMaxAdjusted : Int := 4

/-- One, nudged towards `x` far behind the working precision. -/
def nearOne (x : Decimal) (working : Nat) : Decimal :=
  let digits := working + 3
  ⟨Nat.pow 10 digits + (if x.isNegative then -1 else 1), -(digits : Int)⟩

/-- The exponential of `x`. -/
def expBy {m : Type → Type} [Monad m] [MonadExcept Condition m] (steps : Steps m) (x : Decimal)
    (precision : Nat) (mode : RoundingMode) : m Decimal :=
  if x.isZero then return one
  else do
    let lead ← steps.exponent x.adjusted
    if expMaxAdjusted < lead then throw .overflow
    else
      let working := guarded precision
      -- An argument this small is lost in one plus itself.
      if lead < -((working : Int) + 2) then return (nearOne x working).round precision mode
      else
        let grown := (← expFixedBy steps.degree x working).round working .nearestEven
        let result ←
          if x.isNegative then divideBy steps one grown working .nearestEven else pure grown
        return result.round precision mode

def exp (x : Decimal) (precision : Nat) (mode : RoundingMode) : Except Condition Decimal :=
  expBy .engine x precision mode

theorem expBy_engine (x : Decimal) (precision : Nat) (mode : RoundingMode) :
    expBy .engine x precision mode = x.exp precision mode := rfl

end DecimalConformance.Decimal
