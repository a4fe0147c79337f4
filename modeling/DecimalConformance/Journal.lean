import DecimalConformance.Evaluation

/-! Journal events: what a run tells about itself while it goes on, as data.
The outer layer decides which of them are written, and where. -/
namespace DecimalConformance.Journal

/-- How much an event matters, least first. -/
inductive Level where
  | trace | debug | info | warn | error
  deriving DecidableEq, Repr

namespace Level

def rank : Level → Nat
  | trace => 0
  | debug => 1
  | info => 2
  | warn => 3
  | error => 4

/-- The name in the journal. -/
def label : Level → String
  | trace => "TRACE"
  | debug => "DEBUG"
  | info => "INFO"
  | warn => "WARN"
  | error => "ERROR"

end Level

/-- The part of the program that an event comes from. -/
inductive Origin where
  | program | settings | run | evaluation
  deriving DecidableEq, Repr

/-- The path that names a part in the journal. -/
def Origin.path : Origin → String
  | .program => "dectest"
  | .settings => "dectest::config"
  | .run => "dectest::runner"
  | .evaluation => "dectest::evaluator"

inductive Value where
  | text (text : String)
  | number (number : Nat)
  deriving DecidableEq, Repr

structure Event where
  level : Level
  origin : Origin
  message : String
  fields : List (String × Value)
  deriving DecidableEq, Repr

/-- The spelling of a mode in the journal. -/
def modeText : RoundingMode → String
  | .nearestEven => "NearestEven"
  | .nearestAway => "NearestAwayFromZero"
  | .towardZero => "TowardZero"

def directiveText : RoundingDirective → String
  | .mode rounding => s!"Mode({modeText rounding})"
  | .unsupported => "Unsupported"

def ignoredDirective (keyword : String) : Event :=
  ⟨.trace, .run, "Ignoring directive", [("keyword", .text keyword)]⟩

def precisionChanged (precision : Nat) : Event :=
  ⟨.info, .run, "Precision changed", [("precision", .number precision)]⟩

def roundingChanged (token : String) (directive : RoundingDirective) : Event :=
  ⟨.info, .run, "Rounding mode changed",
    [("rounding", .text token), ("directive", .text (directiveText directive))]⟩

/-- The event of a skipped test line. -/
def skipped (session : Session) (line : String) (reason : SkipReason) : Event :=
  let fields := Text.fields line
  let name := ("name", Value.text ((fields[0]?).getD ""))
  match reason with
  | .unsupportedRounding =>
    ⟨.info, .evaluation, "Skipping test under unsupported rounding mode",
      [("line", .text line), ("precision", .number session.precision),
       ("rounding", .text session.declared)]⟩
  | .operandSentinel => ⟨.info, .evaluation, "Skipping test with sentinel operand", [name]⟩
  | .expectedSentinel => ⟨.info, .evaluation, "Skipping test with unconstrained result", [name]⟩
  | .unknownOperator =>
    ⟨.info, .evaluation, "Skipping test with unknown operator",
      [name, ("op", .text ((fields[1]?).getD ""))]⟩

/-- The events of a comparison: the condition if there was one, then both texts. -/
def compared (session : Session) (comparison : Comparison) : List Event :=
  let name := ("name", Value.text comparison.name)
  let condition := match comparison.answer with
    | .ok _ => []
    | .error condition =>
      [⟨.debug, .evaluation, "Engine reported a condition",
        [name, ("error", .text condition.message)]⟩]
  condition ++ [⟨.debug, .evaluation, "Evaluated",
    [name, ("computed", .text comparison.computed), ("expected", .text comparison.expected),
     ("precision", .number session.precision), ("rounding", .text session.declared)]⟩]

def testFailed (record : FailureRecord) : Event :=
  ⟨.info, .run, "Test failed",
    [("name", .text record.name), ("computed", .text record.computed),
     ("expected", .text record.expected)]⟩

/-- The events of a test line that raised no fault. -/
def test (session : Session) (line : String) (verdict : Verdict) : List Event :=
  match verdict with
  | .skipped reason => [skipped session line reason]
  | .compared comparison =>
    compared session comparison ++
      match verdict.outcome session line with
      | .failed record => [testFailed record]
      | _ => []

def sourceOpened (path : String) : Event :=
  ⟨.info, .run, "Running test file", [("path", .text path)]⟩

def sourceFinished (path : String) (tests failed : Nat) : Event :=
  ⟨.debug, .run, "Finished test file",
    [("path", .text path), ("tests", .number tests), ("failed", .number failed)]⟩

end DecimalConformance.Journal
