import DecimalConformance.Operation
import DecimalConformance.Script.TestLine
import DecimalConformance.Session
import DecimalConformance.Tally

/-! Evaluation of one test line.
First a plan is made without the engine: every sentinel is honoured before the operator is looked
up, and every skip is decided there.  Only a problem that is left reaches the engine. -/
namespace DecimalConformance

/-- A test that the engine has to solve. -/
structure Problem where
  name : String
  operation : Operation
  /-- The literals of the operands. -/
  operands : List String
  /-- The literal of the expected value. -/
  expected : String
  deriving DecidableEq, Repr

/-- What is to be done with a test line. -/
inductive Plan where
  | skip (reason : SkipReason)
  | solve (problem : Problem)
  deriving DecidableEq, Repr

namespace Plan

/-- The plan for a decoded test line. -/
def ofCase (dialect : Dialect) (testCase : Script.TestCase) : Except Fault Plan :=
  if testCase.operands.any Script.Token.isSentinel then .ok (.skip .operandSentinel)
  else match testCase.expected.literal? with
    | none => .ok (.skip .expectedSentinel)
    | some expected =>
      match Operation.ofName? testCase.operator with
      | none =>
        match dialect.unknownOperatorPolicy with
        | .fatal => .error (.plain (.unknownOperator testCase.operator))
        | .skip => .ok (.skip .unknownOperator)
      | some operation =>
        if operation.arity = testCase.operands.length then
          .ok (.solve ⟨testCase.name, operation,
            testCase.operands.filterMap Script.Token.literal?, expected⟩)
        else .error (.plain
          (.arityMismatch operation.name operation.arity testCase.operands.length))

/-- The plan for a test line. -/
def ofLine (dialect : Dialect) (session : Session) (text : String) : Except Fault Plan :=
  if session.skipping then .ok (.skip .unsupportedRounding)
  else do
    let line ← Script.TestLine.split dialect text
    if line.left.isSentinel then return .skip .operandSentinel
    else ofCase dialect (← line.toCase)

end Plan

/-- What the engine made of a problem, in canonical text. -/
structure Comparison where
  name : String
  answer : Except Condition String
  expected : String

/-- The text that is compared with the expected one; a condition shows its message. -/
def Comparison.computed (comparison : Comparison) : String :=
  match comparison.answer with
  | .ok text => text
  | .error condition => condition.message

/-- An engine under test, with the grammar and the precision of the run. -/
structure Harness (Value : Type) where
  engine : Engine Value
  dialect : Dialect
  /-- The precision of literals and operations where the dialect rounds only results. -/
  internalPrecision : Nat

namespace Harness

variable {Value : Type} (harness : Harness Value)

/-- Reads a literal of a test line. -/
def parseLiteral (literal : String) : Traced Value (Except Fault Value) := do
  let precision := harness.dialect.parsePrecision harness.internalPrecision
  match ← harness.engine.tracedParse literal precision with
  | .ok value => return .ok value
  | .error condition =>
    let reason := match condition with
      | .unreadable _ reason => reason
      | other => other.message
    return .error (.plain (.unparsableOperand literal reason))

/-- Reads literals from left to right up to the first that cannot be read. -/
def parseLiterals : List String → Traced Value (Except Fault (List Value))
  | [] => return .ok []
  | literal :: rest => do
    match ← harness.parseLiteral literal with
    | .error fault => return .error fault
    | .ok value =>
      match ← parseLiterals rest with
      | .error fault => return .error fault
      | .ok values => return .ok (value :: values)

/-- Rounds values from left to right. -/
def roundAll (context : Context) : List Value → Traced Value (List Value)
  | [] => return []
  | value :: rest => do
    let rounded ← harness.engine.tracedRound value context
    return rounded :: (← roundAll context rest)

/-- Applies an operation under the precision policy of the dialect. -/
def calculate (context : Context) (operation : Operation) (operands : List Value) :
    Traced Value (Except Condition Value) := do
  match harness.dialect.precisionPolicy with
  | .roundResult =>
    let wide := { context with precision := harness.internalPrecision }
    match ← operation.apply harness.engine operands wide with
    | .error condition => return .error condition
    | .ok value => return .ok (← harness.engine.tracedRound value context)
  | .roundOperands =>
    operation.apply harness.engine (← harness.roundAll context operands) context

/-- The canonical text of a result. -/
def renderResult : Except Condition Value → Traced Value (Except Condition String)
  | .error condition => return .error condition
  | .ok value => return .ok (← harness.engine.tracedRender value)

/-- Has the engine solve a problem. -/
def solve (context : Context) (problem : Problem) : Traced Value (Except Fault Comparison) := do
  match ← harness.parseLiterals problem.operands with
  | .error fault => return .error fault
  | .ok operands =>
    match ← harness.parseLiteral problem.expected with
    | .error fault => return .error fault
    | .ok expected =>
      let answer ← harness.renderResult (← harness.calculate context problem.operation operands)
      return .ok ⟨problem.name, answer, ← harness.engine.tracedRender expected⟩

end Harness

/-- A test line that raised no fault. -/
inductive Verdict where
  | skipped (reason : SkipReason)
  | compared (comparison : Comparison)

/-- Passed means equal texts. -/
def Verdict.outcome (session : Session) (line : String) : Verdict → Outcome
  | .skipped reason => .skipped reason
  | .compared comparison =>
    if comparison.computed = comparison.expected then .passed
    else .failed ⟨comparison.name, line, comparison.computed, comparison.expected,
      session.precision, session.declared⟩

/-- Evaluates a test line in a session. -/
def Harness.evaluate {Value : Type} (harness : Harness Value) (session : Session) (text : String) :
    Traced Value (Except Fault Verdict) := do
  match Plan.ofLine harness.dialect session text with
  | .error fault => return .error fault
  | .ok (.skip reason) => return .ok (.skipped reason)
  | .ok (.solve problem) =>
    match ← harness.solve session.context problem with
    | .error fault => return .error fault
    | .ok comparison => return .ok (.compared comparison)

end DecimalConformance
