import DecimalConformance.Decimal.Condition
import DecimalConformance.Decimal.Rounding

/-! The interface of an arithmetic engine under test.
The harness parses, rounds, calculates and renders through it alone, and never looks into a value. -/
namespace DecimalConformance

/-- Precision and rounding of an operation; precision zero means unlimited. -/
structure Context where
  precision : Nat
  rounding : RoundingMode
  deriving DecidableEq, Repr

/-- The operations on one operand. -/
inductive UnaryOp where
  | abs | exp | ln | squareRoot
  deriving DecidableEq, Repr

/-- The operations on two operands. -/
inductive BinaryOp where
  | add | subtract | multiply | divide | power | remainder | max | min | compare
  deriving DecidableEq, Repr

/-- An arithmetic engine on values of some kind. -/
structure Engine (Value : Type) where
  /-- Reads a literal at a working precision; zero reads it exactly. -/
  parse : (literal : String) → (precision : Nat) → Except Condition Value
  round : Value → Context → Value
  render : Value → String
  unary : UnaryOp → Value → Context → Except Condition Value
  binary : BinaryOp → Value → Value → Context → Except Condition Value

end DecimalConformance
