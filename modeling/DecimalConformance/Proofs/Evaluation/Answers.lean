import DecimalConformance.Engine.Standard
import DecimalConformance.Evaluation

/-! What the steps of an evaluation answer, with the calls left out.
A test line is compared exactly if its plan is a problem whose literals can all be read. -/
namespace DecimalConformance

namespace Verdict

theorem outcome_eq_passed_iff {session : Session} {text : String} {comparison : Comparison} :
    (compared comparison).outcome session text = .passed ↔
      comparison.computed = comparison.expected := by
  simp only [outcome]
  split <;> simp [*]

theorem outcome_of_computed_ne (session : Session) (text : String) {comparison : Comparison}
    (h : comparison.computed ≠ comparison.expected) :
    ∃ record, (compared comparison).outcome session text = .failed record :=
  ⟨_, if_neg h⟩

end Verdict

namespace Harness

variable {Value : Type} (harness : Harness Value)

/-- The precision at which the literals of test lines are read. -/
def readingPrecision : Nat := harness.dialect.parsePrecision harness.internalPrecision

theorem answer_parseLiteral_eq_ok {literal : String} {value : Value} :
    (harness.parseLiteral literal).answer = .ok value ↔
      harness.engine.parse literal harness.readingPrecision = .ok value := by
  simp only [parseLiteral, Traced.answer_bind, Engine.tracedParse, readingPrecision]
  split
  · next read => simp [read]
  · next read => simp [read]

@[simp] theorem answer_renderResult (result : Except Condition Value) :
    (harness.renderResult result).answer = result.map harness.engine.render := by
  cases result <;> rfl

@[simp] theorem answer_roundAll (context : Context) (values : List Value) :
    (harness.roundAll context values).answer =
      values.map fun value => harness.engine.round value context := by
  induction values with
  | nil => rfl
  | cons value rest ih => simp [roundAll, ih, Engine.tracedRound]

/-- Where results are rounded, the operation runs at the internal precision. -/
theorem answer_calculate_of_roundResult {context : Context} {operation : Operation}
    {operands : List Value} (h : harness.dialect.precisionPolicy = .roundResult) :
    (harness.calculate context operation operands).answer =
      (operation.apply harness.engine operands
        { context with precision := harness.internalPrecision }).answer.map
          fun value => harness.engine.round value context := by
  simp only [calculate, h, Traced.answer_bind]
  split
  · next failed => rw [failed]; rfl
  · next done => rw [done]; rfl

/-- Where operands are rounded, the operation runs at the precision of the session. -/
theorem answer_calculate_of_roundOperands {context : Context} {operation : Operation}
    {operands : List Value} (h : harness.dialect.precisionPolicy = .roundOperands) :
    (harness.calculate context operation operands).answer =
      (operation.apply harness.engine
        (operands.map fun value => harness.engine.round value context) context).answer := by
  simp [calculate, h]

/-- A problem is solved exactly if each of its literals can be read. -/
theorem answer_solve_eq_ok {context : Context} {problem : Problem} {comparison : Comparison} :
    (harness.solve context problem).answer = .ok comparison ↔
      ∃ operands expected,
        (harness.parseLiterals problem.operands).answer = .ok operands ∧
        harness.engine.parse problem.expected harness.readingPrecision = .ok expected ∧
        comparison = ⟨problem.name,
          (harness.calculate context problem.operation operands).answer.map harness.engine.render,
          harness.engine.render expected⟩ := by
  simp only [← answer_parseLiteral_eq_ok]
  cases read : (harness.parseLiterals problem.operands).answer with
  | error fault => simp [solve, read]
  | ok operands =>
    cases last : (harness.parseLiteral problem.expected).answer with
    | error fault => simp [solve, read, last]
    | ok expected => simp [solve, read, last, Engine.tracedRender, eq_comm]

/-- A test line is compared exactly if its plan is a problem that can be solved. -/
theorem answer_evaluate_eq_compared {session : Session} {text : String}
    {comparison : Comparison} :
    (harness.evaluate session text).answer = .ok (.compared comparison) ↔
      ∃ problem, Plan.ofLine harness.dialect session text = .ok (.solve problem) ∧
        (harness.solve session.context problem).answer = .ok comparison := by
  cases plan : Plan.ofLine harness.dialect session text with
  | error fault => simp [evaluate, plan]
  | ok plan' =>
    cases plan' with
    | skip reason => simp [evaluate, plan]
    | solve problem =>
      cases solved : (harness.solve session.context problem).answer with
      | error fault => simp [evaluate, plan, solved]
      | ok comparison' => simp [evaluate, plan, solved]

/-- The harness of the bundled engine. -/
def standard (dialect : Dialect) (internal : Nat) : Harness Decimal :=
  ⟨Engine.standard internal, dialect, internal⟩

@[simp] theorem engine_standard (dialect : Dialect) (internal : Nat) :
    (standard dialect internal).engine = Engine.standard internal := rfl

@[simp] theorem readingPrecision_standard_fixed (internal : Nat) :
    (standard .fixed internal).readingPrecision = internal := rfl

@[simp] theorem readingPrecision_standard_varying (internal : Nat) :
    (standard .varying internal).readingPrecision = 0 := rfl

end Harness
end DecimalConformance
