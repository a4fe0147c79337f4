/-! Faults: conditions that end a run.
A computed value that differs from the expected one is no fault but an outcome. -/
namespace DecimalConformance

/-- What went wrong, wherever it did. -/
inductive Cause where
  | sourceUnreadable (path reason : String)
  | readFailure (reason : String)
  | invalidPrecision (value : String)
  | invalidRounding (token : String)
  | malformedTest (line reason : String)
  | unparsableOperand (literal reason : String)
  | unknownOperator (operator : String)
  | arityMismatch (operator : String) (expected found : Nat)
  | noInputs
  | settings (reason : String)
  /-- The settings file is not in its format. -/
  | settingsSyntax (reason : String)
  | internal (message : String)
  deriving DecidableEq, Repr

/-- A cause, or a fault met in some context. -/
inductive Fault where
  | plain (cause : Cause)
  | within (context : String) (fault : Fault)
  deriving DecidableEq, Repr

/-- The text of a cause. -/
def Cause.message : Cause → String
  | .sourceUnreadable path reason => s!"Cannot read test file '{path}': {reason}"
  | .readFailure reason => s!"I/O error: {reason}"
  | .invalidPrecision value => s!"Invalid precision: '{value}'"
  | .invalidRounding token => s!"Invalid rounding mode: '{token}'"
  | .malformedTest line reason => s!"Invalid test line '{line}': {reason}"
  | .unparsableOperand literal reason => s!"Cannot parse operand '{literal}': {reason}"
  | .unknownOperator operator => s!"Unknown operator: '{operator}'"
  | .arityMismatch operator expected found =>
    s!"Operator '{operator}' takes {expected} operand(s), found {found}"
  | .noInputs => "No test files given"
  | .settings reason => s!"Configuration error: {reason}"
  | .settingsSyntax reason => s!"YAML error: {reason}"
  | .internal message => message

namespace Fault

/-- The cause below every context. -/
def cause : Fault → Cause
  | plain cause => cause
  | within _ fault => fault.cause

/-- The outermost context. -/
def location? : Fault → Option String
  | plain _ => none
  | within context _ => some context

@[simp] theorem cause_within (context : String) (fault : Fault) :
    (within context fault).cause = fault.cause := rfl

/-- The contexts from the outermost inwards, then the text of the cause. -/
def message : Fault → String
  | plain cause => cause.message
  | within context fault => s!"{context}: {fault.message}"

end Fault

/-- Whether a cause lies in the script itself. -/
def Cause.isScript : Cause → Bool
  | .invalidPrecision _ | .invalidRounding _ | .malformedTest _ _ | .unparsableOperand _ _
  | .unknownOperator _ | .arityMismatch _ _ _ => true
  | _ => false

end DecimalConformance
