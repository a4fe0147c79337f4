import DecimalConformance.Decimal.Rounding
import DecimalConformance.Fault
import DecimalConformance.Text.Blank
import DecimalConformance.Text.Lowercase

/-! The two grammars of test scripts, and everything in which they differ. -/
namespace DecimalConformance

/-- Which grammar a script follows. -/
inductive Dialect where
  /-- Two operands on every test line; unknown operators are faults. -/
  | fixed
  /-- One or two operands, and an arrow before the expected value; unknown operators are skipped. -/
  | varying
  deriving DecidableEq, Repr

/-- What a rounding token means. -/
inductive RoundingDirective where
  | mode (mode : RoundingMode)
  /-- Part of the vocabulary, but beyond the engine. -/
  | unsupported
  deriving DecidableEq, Repr

/-- What to do with an operator that is not in the table. -/
inductive UnknownOperatorPolicy where
  | fatal
  | skip
  deriving DecidableEq, Repr

/-- Where the precision of the session applies. -/
inductive PrecisionPolicy where
  /-- Everything runs at the internal precision; the result is rounded. -/
  | roundResult
  /-- Literals are exact; the operands are rounded and the operation runs at session precision. -/
  | roundOperands
  deriving DecidableEq, Repr

/-- Every token that some dialect accepts in a rounding directive. -/
def roundingTokens : List String :=
  ["half_even", "half_up", "down", "zero", "half_down", "floor", "ceiling", "up"]

namespace Dialect

def name : Dialect → String
  | fixed => "fixed"
  | varying => "variable"

/-- The fewest fields of a test line. -/
def minFields : Dialect → Nat
  | fixed => 6
  | varying => 5

/-- The meaning of a rounding token; none for a token outside the vocabulary. -/
def rounding? (dialect : Dialect) (token : String) : Option RoundingDirective :=
  match token with
  | "half_even" => some (.mode .nearestEven)
  | "half_up" => some (.mode .nearestAway)
  | "zero" => some (.mode .towardZero)
  | "down" =>
    match dialect with
    | fixed => some (.mode .towardZero)
    | varying => some .unsupported
  | "half_down" | "floor" | "ceiling" | "up" => some .unsupported
  | _ => none

def unknownOperatorPolicy : Dialect → UnknownOperatorPolicy
  | fixed => .fatal
  | varying => .skip

def precisionPolicy : Dialect → PrecisionPolicy
  | fixed => .roundResult
  | varying => .roundOperands

/-- The precision at which literals are parsed; zero means exactly. -/
def parsePrecision (dialect : Dialect) (internal : Nat) : Nat :=
  match dialect.precisionPolicy with
  | .roundResult => internal
  | .roundOperands => 0

/-- The dialect of this name, whatever its case and the white space around it. -/
def ofName (name : String) : Except Fault Dialect :=
  match Text.lowercase (Text.trim name) with
  | "fixed" => .ok fixed
  | "variable" => .ok .varying
  | other => .error (.plain (.settings
      s!"unknown dialect '{other}' (expected 'fixed' or 'variable')"))

theorem ofName_name (dialect : Dialect) : ofName dialect.name = .ok dialect := by
  cases dialect <;> rfl

end Dialect
end DecimalConformance
