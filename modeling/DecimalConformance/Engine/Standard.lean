import DecimalConformance.Decimal.Literal
import DecimalConformance.Decimal.Power
import DecimalConformance.Decimal.Scientific
import DecimalConformance.Decimal.SquareRoot
import DecimalConformance.Engine.Basic

/-! The bundled engine, on finite decimals of any length.
Operations with a finite exact result honour an unlimited context; the others fall back to the
internal precision. -/
namespace DecimalConformance.Engine

open Decimal

/-- The internal precision where none is set. -/
def defaultPrecision : Nat := 34

/-- The precision of operations whose result may not end. -/
def inexactPrecision (internal : Nat) (context : Context) : Nat :=
  if 0 < context.precision then context.precision
  else if 0 < internal then internal
  else defaultPrecision

/-- A result rounded to the context and stored. -/
def finish (d : Decimal) (context : Context) : Decimal :=
  (d.round context.precision context.rounding).stored

/-- Reads a literal, rounded half to even at the working precision. -/
def readLiteral (literal : String) (precision : Nat) : Except Condition Decimal :=
  match Decimal.ofLiteral literal with
  | .ok d => .ok (d.round precision .nearestEven).stored
  | .error flaw => .error (.unreadable literal flaw.reason)

/-- Minus one, zero or one. -/
def orderValue : Ordering → Decimal
  | .lt => ⟨-1, 0⟩
  | .eq => ⟨0, 0⟩
  | .gt => ⟨1, 0⟩

section Calculations

variable {m : Type → Type} [Monad m] [MonadExcept Condition m] (steps : Steps m) (internal : Nat)

def calculateUnaryBy (operation : UnaryOp) (x : Decimal) (context : Context) : m Decimal :=
  let precision := inexactPrecision internal context
  match operation with
  | .abs => return finish x.abs context
  | .exp => stored <$> expBy steps x precision context.rounding
  | .ln => stored <$> lnBy steps x precision context.rounding
  | .squareRoot => stored <$> squareRootBy steps.exponent x precision context.rounding

def calculateBinaryBy (operation : BinaryOp) (x y : Decimal) (context : Context) : m Decimal :=
  let precision := inexactPrecision internal context
  match operation with
  | .add => (finish · context) <$> addBy steps.exponent x y context.precision
  | .subtract => (finish · context) <$> addBy steps.exponent x y.neg context.precision
  | .multiply => (finish · context) <$> MonadExcept.ofExcept (x.multiply y)
  | .divide => stored <$> divideBy steps x y precision context.rounding
  | .power => stored <$> powerBy steps x y precision context.rounding
  | .remainder => (finish · context) <$> remainderBy steps.exponent x y context.precision
  | .max => (finish · context) <$> greaterBy steps.exponent x y
  | .min => (finish · context) <$> lesserBy steps.exponent x y
  | .compare => orderValue <$> compareBy steps.exponent x y

end Calculations

def calculateUnary (internal : Nat) (operation : UnaryOp) (x : Decimal) (context : Context) :
    Except Condition Decimal :=
  calculateUnaryBy .engine internal operation x context

def calculateBinary (internal : Nat) (operation : BinaryOp) (x y : Decimal) (context : Context) :
    Except Condition Decimal :=
  calculateBinaryBy .engine internal operation x y context

section

variable (internal : Nat) (x y : Decimal) (context : Context)

theorem calculateBinary_multiply :
    calculateBinary internal .multiply x y context = (x.multiply y).map (finish · context) := by
  rw [calculateBinary, calculateBinaryBy, ofExcept_self]
  rfl

theorem calculateBinary_max :
    calculateBinary internal .max x y context = .ok (finish (x.greater y) context) := by
  rw [calculateBinary, calculateBinaryBy, Steps.engine_exponent, greaterBy_eq rfl rfl]
  rfl

theorem calculateBinary_min :
    calculateBinary internal .min x y context = .ok (finish (x.lesser y) context) := by
  rw [calculateBinary, calculateBinaryBy, Steps.engine_exponent, lesserBy_eq rfl rfl]
  rfl

theorem calculateBinary_compare :
    calculateBinary internal .compare x y context = .ok (orderValue (x.compare y)) := by
  rw [calculateBinary, calculateBinaryBy, Steps.engine_exponent, compareBy_eq rfl rfl]
  rfl

end

/-- The bundled engine with the given internal precision. -/
def standard (internal : Nat) : Engine Decimal where
  parse := readLiteral
  round := finish
  render := Decimal.canonical
  unary := calculateUnary internal
  binary := calculateBinary internal

@[simp] theorem standard_parse (internal : Nat) : (standard internal).parse = readLiteral := rfl

@[simp] theorem standard_round (internal : Nat) : (standard internal).round = finish := rfl

@[simp] theorem standard_render (internal : Nat) :
    (standard internal).render = Decimal.canonical := rfl

@[simp] theorem standard_binary (internal : Nat) :
    (standard internal).binary = calculateBinary internal := rfl

end DecimalConformance.Engine
