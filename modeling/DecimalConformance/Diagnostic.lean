import DecimalConformance.Dialect
import DecimalConformance.Document
import DecimalConformance.Operation
import DecimalConformance.Text.EditDistance

/-! Diagnostics: faults with a stable code, a hint and structured context. -/
namespace DecimalConformance

/-- Stable names of causes. -/
inductive FaultCode where
  | sourceUnreadable | ioError
  | invalidPrecision | invalidRounding | malformedTest | unparsableOperand | unknownOperator
  | arityMismatch
  | configError | noInputs | configParseError
  | internalError
  deriving DecidableEq, Repr

namespace FaultCode

def name : FaultCode → String
  | sourceUnreadable => "SOURCE_UNREADABLE"
  | ioError => "IO_ERROR"
  | invalidPrecision => "INVALID_PRECISION"
  | invalidRounding => "INVALID_ROUNDING"
  | malformedTest => "MALFORMED_TEST"
  | unparsableOperand => "UNPARSABLE_OPERAND"
  | unknownOperator => "UNKNOWN_OPERATOR"
  | arityMismatch => "ARITY_MISMATCH"
  | configError => "CONFIG_ERROR"
  | noInputs => "NO_INPUTS"
  | configParseError => "CONFIG_PARSE_ERROR"
  | internalError => "INTERNAL_ERROR"

/-- The exit code of the program: sources 2, scripts 3, settings 4, all else 1. -/
def exitCode : FaultCode → Nat
  | sourceUnreadable | ioError => 2
  | invalidPrecision | invalidRounding | malformedTest | unparsableOperand | unknownOperator
  | arityMismatch => 3
  | configError | noInputs | configParseError => 4
  | internalError => 1

end FaultCode

namespace Cause

def code : Cause → FaultCode
  | .sourceUnreadable _ _ => .sourceUnreadable
  | .readFailure _ => .ioError
  | .invalidPrecision _ => .invalidPrecision
  | .invalidRounding _ => .invalidRounding
  | .malformedTest _ _ => .malformedTest
  | .unparsableOperand _ _ => .unparsableOperand
  | .unknownOperator _ => .unknownOperator
  | .arityMismatch _ _ _ => .arityMismatch
  | .noInputs => .noInputs
  | .settings _ => .configError
  | .settingsSyntax _ => .configParseError
  | .internal _ => .internalError

/-- General advice on a cause. -/
def suggestion? : Cause → Option String
  | .noInputs => some "Pass a file with -f FILE or as positional arguments"
  | .invalidRounding _ =>
    some "Valid modes: half_even, half_up, down, zero, half_down, floor, ceiling, up"
  | .malformedTest _ _ | .arityMismatch _ _ _ =>
    some "Check that --dialect matches the layout of the test file"
  | .unknownOperator _ => some "Use --dialect variable to skip operators the harness does not know"
  | .invalidPrecision _ => some "Precision must be a non-negative integer"
  | _ => none

/-- The nearest known name where one is near, general advice otherwise. -/
def hint? (cause : Cause) : Option String :=
  match cause with
  | .unknownOperator operator =>
    ((Text.nearest? operator Operation.names).map fun name => s!"Did you mean '{name}'?").or
      cause.suggestion?
  | .invalidRounding token =>
    ((Text.nearest? token roundingTokens).map fun name =>
      s!"Did you mean 'rounding: {name}'?").or cause.suggestion?
  | _ => cause.suggestion?

/-- What is known about a cause, field by field; some causes have nothing to add. -/
def details? : Cause → Option (List (String × Document))
  | .sourceUnreadable path _ => some [("path", .text path)]
  | .invalidPrecision value => some [("value", .text value)]
  | .invalidRounding token =>
    some [("provided", .text token), ("valid_values", .list (roundingTokens.map .text))]
  | .malformedTest line reason => some [("line", .text line), ("reason", .text reason)]
  | .unparsableOperand literal reason =>
    some [("literal", .text literal), ("reason", .text reason)]
  | .unknownOperator operator =>
    some [("provided", .text operator), ("valid_values", .list (Operation.names.map .text))]
  | .arityMismatch operator expected found =>
    some [("expected", .number expected), ("found", .number found), ("operator", .text operator)]
  | _ => none

end Cause

namespace Fault

/-- The details of the cause, and the outermost context as the location, by their names. -/
def details? (fault : Fault) : Option (List (String × Document)) :=
  match fault.location? with
  | none => fault.cause.details?
  | some location =>
    let details := fault.cause.details?.getD []
    let comesFirst := fun (detail : String × Document) => decide (detail.1 < "location")
    some (details.takeWhile comesFirst ++ ("location", .text location) ::
      details.dropWhile comesFirst)

def exitCode (fault : Fault) : Nat := fault.cause.code.exitCode

end Fault

/-- A fault as it is reported. -/
structure Diagnostic where
  code : FaultCode
  message : String
  hint? : Option String
  details? : Option (List (String × Document))

namespace Diagnostic

def ofFault (fault : Fault) : Diagnostic :=
  ⟨fault.cause.code, fault.message, fault.cause.hint?, fault.details?⟩

/-- The form that programs read. -/
def document (diagnostic : Diagnostic) : Document :=
  .object [("error", .object
    [("code", .text diagnostic.code.name),
     ("context", (diagnostic.details?.map Document.object).getD .null),
     ("hint", (diagnostic.hint?.map Document.text).getD .null),
     ("message", .text diagnostic.message)])]

/-- A label, in a colour of the terminal if asked. -/
def label (color : Bool) (paint word : String) : String :=
  if color then s!"\x1b[{paint}m{word}:\x1b[0m " else s!"{word}: "

/-- The form that people read. -/
def human (diagnostic : Diagnostic) (color : Bool) : String :=
  label color "31" "Error" ++ diagnostic.message ++
    match diagnostic.hint? with
    | some hint => "\n" ++ label color "33" "Hint" ++ hint
    | none => ""

end Diagnostic
end DecimalConformance
