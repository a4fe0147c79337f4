import DecimalConformance.Proofs.Evaluation.Answers
import DecimalConformance.Proofs.Evaluation.Plans
import Mathlib.Data.List.Forall2

/-! The calls that a test line makes.
A line that is skipped, or refused before its literals are read, makes none.  Any other line reads
its literals in order, calculates as its dialect says, and renders what it compares. -/
namespace DecimalConformance

variable {Value : Type}

def Condition.refusal : Condition → String
  | .unreadable _ reason => reason
  | other => other.message

/-- The one call that applies an operation to as many operands as it takes. -/
def Operation.call? (context : Context) : Operation → List Value → Option (Call Value)
  | .unary op, [x] => some (.unary op x context)
  | .binary op, [x, y] => some (.binary op x y context)
  | _, _ => none

/-- The contexts of a call: roundings run at one, operations at another. -/
def Call.RunsAt (rounding operation : Context) : Call Value → Prop
  | .round _ context => context = rounding
  | .unary _ _ context | .binary _ _ _ context => context = operation
  | .parse _ _ | .render _ => True

theorem Operation.calls_apply (engine : Engine Value) (operation : Operation)
    (operands : List Value) (context : Context) :
    (operation.apply engine operands context).calls =
      (operation.call? context operands).toList := by
  cases operation <;> rcases operands with _ | ⟨x, _ | ⟨y, _ | _⟩⟩ <;> rfl

theorem Operation.exists_call {operation : Operation} {operands : List Value} (context : Context)
    (arity : operation.arity = operands.length) :
    ∃ call, operation.call? context operands = some call := by
  cases operation with
  | unary op =>
    obtain ⟨x, rfl⟩ := List.length_eq_one_iff.mp arity.symm
    exact ⟨_, rfl⟩
  | binary op =>
    obtain ⟨x, y, rfl⟩ := List.length_eq_two.mp arity.symm
    exact ⟨_, rfl⟩

/-! ## The stages -/

namespace Harness

variable (harness : Harness Value)

def reading (literal : String) : Call Value := .parse literal harness.readingPrecision

def Reads (literal : String) (value : Value) : Prop :=
  harness.engine.parse literal harness.readingPrecision = .ok value

/-- Literals are read up to the first that the engine refuses, and that one is reported. -/
def StopsReading (literals : List String) (fault : Fault) (calls : List (Call Value)) : Prop :=
  ∃ before literal behind condition, literals = before ++ literal :: behind ∧
    (∀ earlier ∈ before, ∃ value, harness.Reads earlier value) ∧
    harness.engine.parse literal harness.readingPrecision = .error condition ∧
    fault = .plain (.unparsableOperand literal condition.refusal) ∧
    calls = (before ++ [literal]).map harness.reading

variable {harness} in
theorem StopsReading.append {literals : List String} {fault : Fault} {calls : List (Call Value)}
    (h : harness.StopsReading literals fault calls) (more : List String) :
    harness.StopsReading (literals ++ more) fault calls := by
  obtain ⟨before, literal, behind, condition, rfl, rest⟩ := h
  exact ⟨before, literal, behind ++ more, condition, by simp, rest⟩

variable {harness} in
theorem StopsReading.prepend {literals : List String} {fault : Fault} {calls : List (Call Value)}
    (h : harness.StopsReading literals fault calls) {front : List String}
    (read : ∀ earlier ∈ front, ∃ value, harness.Reads earlier value) :
    harness.StopsReading (front ++ literals) fault (front.map harness.reading ++ calls) := by
  obtain ⟨before, literal, behind, condition, rfl, others, refused, reported, rfl⟩ := h
  refine ⟨front ++ before, literal, behind, condition, by simp, ?_, refused, reported, by simp⟩
  intro earlier mem
  rcases List.mem_append.mp mem with inFront | inside
  · exact read earlier inFront
  · exact others earlier inside

@[simp] theorem calls_parseLiteral (literal : String) :
    (harness.parseLiteral literal).calls = [harness.reading literal] := by
  simp only [parseLiteral, Traced.calls_bind, Engine.tracedParse]
  split <;> rfl

theorem answer_parseLiteral (literal : String) :
    (harness.parseLiteral literal).answer =
      (harness.engine.parse literal harness.readingPrecision).mapError
        fun condition => .plain (.unparsableOperand literal condition.refusal) := by
  simp only [parseLiteral, readingPrecision, Traced.answer_bind, Engine.tracedParse]
  cases harness.engine.parse literal
      (harness.dialect.parsePrecision harness.internalPrecision) with
  | ok value => rfl
  | error condition => cases condition <;> rfl

theorem parseLiteral_cases (literal : String) :
    (∃ value, harness.Reads literal value ∧ (harness.parseLiteral literal).answer = .ok value) ∨
      ∃ fault, (harness.parseLiteral literal).answer = .error fault ∧
        harness.StopsReading [literal] fault [harness.reading literal] := by
  rw [answer_parseLiteral]
  cases read : harness.engine.parse literal harness.readingPrecision with
  | ok value => exact .inl ⟨value, read, rfl⟩
  | error condition =>
    exact .inr ⟨_, rfl, [], literal, [], condition, rfl, by simp, read, rfl, rfl⟩

theorem exists_reads_of_forall₂ {harness : Harness Value} {literals : List String}
    {values : List Value} (h : List.Forall₂ harness.Reads literals values) :
    ∀ literal ∈ literals, ∃ value, harness.Reads literal value := by
  induction h with
  | nil => simp
  | cons first _ ih => exact List.forall_mem_cons.mpr ⟨⟨_, first⟩, ih⟩

theorem parseLiterals_cases (literals : List String) :
    (∃ values, List.Forall₂ harness.Reads literals values ∧
      (harness.parseLiterals literals).answer = .ok values ∧
      (harness.parseLiterals literals).calls = literals.map harness.reading) ∨
    ∃ fault, (harness.parseLiterals literals).answer = .error fault ∧
      harness.StopsReading literals fault (harness.parseLiterals literals).calls := by
  induction literals with
  | nil => exact .inl ⟨[], .nil, rfl, rfl⟩
  | cons literal rest ih =>
    rcases harness.parseLiteral_cases literal with ⟨value, read, answer⟩ | ⟨fault, answer, stops⟩
    · rcases ih with ⟨values, others, whole, calls⟩ | ⟨fault, failed, stops⟩
      · refine .inl ⟨value :: values, .cons read others, ?_, ?_⟩
        · simp [parseLiterals, answer, whole]
        · simp [parseLiterals, answer, whole, calls]
      · refine .inr ⟨fault, by simp [parseLiterals, answer, failed], ?_⟩
        have first : ∀ earlier ∈ [literal], ∃ value, harness.Reads earlier value := by
          simpa using ⟨value, read⟩
        have longer := stops.prepend first
        simpa [parseLiterals, answer, failed] using longer
    · -- Nothing behind a refused literal is read.
      refine .inr ⟨fault, by simp [parseLiterals, answer], ?_⟩
      simpa [parseLiterals, answer] using stops.append rest

@[simp] theorem calls_roundAll (context : Context) (values : List Value) :
    (harness.roundAll context values).calls = values.map (.round · context) := by
  induction values with
  | nil => rfl
  | cons value rest ih => simp [roundAll, ih, Engine.tracedRound]

@[simp] theorem calls_renderResult (result : Except Condition Value) :
    (harness.renderResult result).calls = result.toOption.toList.map .render := by
  cases result <;> rfl

/-! ## Calculating -/

def operationContext (context : Context) : Context :=
  match harness.dialect with
  | .fixed => ⟨harness.internalPrecision, context.rounding⟩
  | .varying => context

def operandsOf (context : Context) (values : List Value) : List Value :=
  match harness.dialect with
  | .fixed => values
  | .varying => values.map fun value => harness.engine.round value context

theorem length_operandsOf (context : Context) (values : List Value) :
    (harness.operandsOf context values).length = values.length := by
  unfold operandsOf
  split
  · rfl
  · rw [List.length_map]

def roundingsBefore (context : Context) (values : List Value) : List (Call Value) :=
  match harness.dialect with
  | .fixed => []
  | .varying => values.map (.round · context)

def callsAfter (context : Context) (result : Value) : List (Call Value) :=
  match harness.dialect with
  | .fixed => [.round result context, .render (harness.engine.round result context)]
  | .varying => [.render result]

theorem calls_calculate_append (context : Context) (operation : Operation) (values : List Value) :
    (harness.calculate context operation values).calls ++
        (harness.renderResult (harness.calculate context operation values).answer).calls =
      harness.roundingsBefore context values ++
        (operation.call? (harness.operationContext context)
          (harness.operandsOf context values)).toList ++
        (operation.apply harness.engine (harness.operandsOf context values)
          (harness.operationContext context)).answer.toOption.toList.flatMap
            (harness.callsAfter context) := by
  cases dialect : harness.dialect with
  | fixed =>
    simp only [calculate, dialect, Dialect.precisionPolicy, Traced.calls_bind, Traced.answer_bind,
      roundingsBefore, operandsOf, operationContext, Operation.calls_apply]
    cases (operation.apply harness.engine values
        ⟨harness.internalPrecision, context.rounding⟩).answer with
    | error condition => simp [Except.toOption]
    | ok result => simp [Except.toOption, Engine.tracedRound, callsAfter, dialect]
  | varying =>
    simp only [calculate, dialect, Dialect.precisionPolicy, Traced.calls_bind, Traced.answer_bind,
      roundingsBefore, operandsOf, operationContext, Operation.calls_apply, calls_roundAll,
      answer_roundAll, calls_renderResult]
    cases (operation.apply harness.engine
        (values.map fun value => harness.engine.round value context) context).answer with
    | error condition => simp [Except.toOption]
    | ok result => simp [Except.toOption, callsAfter, dialect]

/-- A problem is solved when all of its literals are read, and reported when one is not. -/
theorem solve_cases (context : Context) (problem : Problem) :
    (∃ values expected comparison, List.Forall₂ harness.Reads problem.operands values ∧
      harness.Reads problem.expected expected ∧
      (harness.solve context problem).answer = .ok comparison ∧
      (harness.solve context problem).calls = problem.literals.map harness.reading ++
        (harness.roundingsBefore context values ++
          (problem.operation.call? (harness.operationContext context)
            (harness.operandsOf context values)).toList ++
          (problem.operation.apply harness.engine (harness.operandsOf context values)
            (harness.operationContext context)).answer.toOption.toList.flatMap
              (harness.callsAfter context)) ++ [.render expected]) ∨
    ∃ fault, (harness.solve context problem).answer = .error fault ∧
      harness.StopsReading problem.literals fault (harness.solve context problem).calls := by
  rcases harness.parseLiterals_cases problem.operands with
    ⟨values, read, whole, calls⟩ | ⟨fault, failed, stops⟩
  · rcases harness.parseLiteral_cases problem.expected with
      ⟨expected, last, answer⟩ | ⟨fault, failed, stops⟩
    · refine .inl ⟨values, expected, ⟨problem.name,
        (harness.calculate context problem.operation values).answer.map harness.engine.render,
        harness.engine.render expected⟩, read, last, ?_, ?_⟩
      · simp [solve, whole, answer, Engine.tracedRender]
      · rw [← calls_calculate_append]
        simp [solve, whole, calls, answer, Problem.literals, Engine.tracedRender]
    · refine .inr ⟨fault, by simp [solve, whole, failed], ?_⟩
      have longer := stops.prepend (exists_reads_of_forall₂ read)
      simpa [solve, whole, calls, failed, Problem.literals] using longer
  · refine .inr ⟨fault, by simp [solve, failed], ?_⟩
    simpa [solve, failed, Problem.literals] using stops.append [problem.expected]

/-! ## Contexts -/

theorem runsAt_of_call? {operation : Operation} {context rounding : Context} {values : List Value}
    {call : Call Value} (h : operation.call? context values = some call) :
    call.RunsAt rounding context := by
  unfold Operation.call? at h
  split at h
  · obtain rfl := Option.some.inj h
    rfl
  · obtain rfl := Option.some.inj h
    rfl
  · cases h

theorem runsAt_of_mem_readings {rounding operation : Context} {literals : List String}
    {call : Call Value} (h : call ∈ literals.map harness.reading) :
    call.RunsAt rounding operation := by
  obtain ⟨literal, -, rfl⟩ := List.mem_map.mp h
  trivial

theorem runsAt_of_mem_roundingsBefore {context operation : Context} {values : List Value}
    {call : Call Value} (h : call ∈ harness.roundingsBefore context values) :
    call.RunsAt context operation := by
  unfold roundingsBefore at h
  split at h
  · cases h
  · obtain ⟨value, -, rfl⟩ := List.mem_map.mp h
    rfl

theorem runsAt_of_mem_callsAfter {context operation : Context} {result : Value}
    {call : Call Value} (h : call ∈ harness.callsAfter context result) :
    call.RunsAt context operation := by
  unfold callsAfter at h
  split at h
  · rcases List.mem_pair.mp h with rfl | rfl
    · rfl
    · trivial
  · obtain rfl := List.mem_singleton.mp h
    trivial

/-- Whatever comes of a problem, its roundings run at the context of the session, and its operation
where the dialect lets it run. -/
theorem runsAt_of_mem_calls_solve {context : Context} {problem : Problem} {call : Call Value}
    (h : call ∈ (harness.solve context problem).calls) :
    call.RunsAt context (harness.operationContext context) := by
  rcases harness.solve_cases context problem with
    ⟨values, expected, comparison, -, -, -, trace⟩ |
    ⟨fault, -, before, literal, behind, condition, -, -, -, -, trace⟩
  · rw [trace] at h
    simp only [List.mem_append, List.mem_flatMap, Option.mem_toList, List.mem_singleton] at h
    rcases h with (reads | ((rounds | applies) | ⟨result, -, after⟩)) | rfl
    · exact harness.runsAt_of_mem_readings reads
    · exact harness.runsAt_of_mem_roundingsBefore rounds
    · exact runsAt_of_call? applies
    · exact harness.runsAt_of_mem_callsAfter after
    · trivial
  · rw [trace] at h
    exact harness.runsAt_of_mem_readings h

/-! ## The whole line -/

theorem evaluate_cases (session : Session) (text : String) :
    (∃ fault, Plan.ofLine harness.dialect session text = .error fault ∧
      harness.evaluate session text = ⟨[], .error fault⟩) ∨
    (∃ reason, Plan.ofLine harness.dialect session text = .ok (.skip reason) ∧
      harness.evaluate session text = ⟨[], .ok (.skipped reason)⟩) ∨
    ∃ problem, Plan.ofLine harness.dialect session text = .ok (.solve problem) ∧
      (harness.evaluate session text).calls = (harness.solve session.context problem).calls ∧
      (harness.evaluate session text).answer =
        (harness.solve session.context problem).answer.map .compared := by
  cases plan : Plan.ofLine harness.dialect session text with
  | error fault =>
    refine .inl ⟨fault, rfl, ?_⟩
    rw [evaluate, plan]
    rfl
  | ok plan' =>
    cases plan' with
    | skip reason =>
      refine .inr (.inl ⟨reason, rfl, ?_⟩)
      rw [evaluate, plan]
      rfl
    | solve problem =>
      refine .inr (.inr ⟨problem, rfl, ?_⟩)
      cases solved : (harness.solve session.context problem).answer with
      | error fault => simp [evaluate, plan, solved, Except.map]
      | ok comparison => simp [evaluate, plan, solved, Except.map]

theorem runsAt_of_mem_calls_evaluate {session : Session} {text : String} {call : Call Value}
    (h : call ∈ (harness.evaluate session text).calls) :
    call.RunsAt session.context (harness.operationContext session.context) := by
  rcases harness.evaluate_cases session text with
    ⟨fault, -, ends⟩ | ⟨reason, -, ends⟩ | ⟨problem, -, calls, -⟩
  · rw [ends] at h
    cases h
  · rw [ends] at h
    cases h
  · rw [calls] at h
    exact harness.runsAt_of_mem_calls_solve h

/-- The engine is called only for a line that is left to it.  Then the literals are read in order,
up to the first that is refused; if none is, the operation is applied once, with the roundings that
the dialect wants before and after it, and what is compared is rendered, the expected value last. -/
theorem calls_evaluate (session : Session) (text : String) :
    let evaluated := harness.evaluate session text
    let context := session.context
    (∀ reason, evaluated.answer = .ok (.skipped reason) → evaluated.calls = []) ∧
    (∀ fault, evaluated.answer = .error fault →
      (∀ literal reason, fault.cause ≠ .unparsableOperand literal reason) →
        evaluated.calls = []) ∧
    (∀ fault literal reason, evaluated.answer = .error fault →
      fault.cause = .unparsableOperand literal reason →
        ∃ problem : Problem, problem.StatedBy harness.dialect text ∧
          harness.StopsReading problem.literals fault evaluated.calls) ∧
    ∀ comparison, evaluated.answer = .ok (.compared comparison) →
      ∃ (problem : Problem) (values : List Value) (expected : Value) (call : Call Value),
        problem.StatedBy harness.dialect text ∧
        List.Forall₂ harness.Reads problem.operands values ∧
        harness.Reads problem.expected expected ∧
        problem.operation.call? (harness.operationContext context)
          (harness.operandsOf context values) = some call ∧
        evaluated.calls = problem.literals.map harness.reading ++
          harness.roundingsBefore context values ++ [call] ++
          (problem.operation.apply harness.engine (harness.operandsOf context values)
            (harness.operationContext context)).answer.toOption.toList.flatMap
              (harness.callsAfter context) ++
          [.render expected] := by
  intro evaluated context
  rcases harness.evaluate_cases session text with
    ⟨fault, plan, ends⟩ | ⟨reason, plan, ends⟩ | ⟨problem, plan, calls, answer⟩
  · refine ⟨by simp [evaluated, ends], by simp [evaluated, ends], ?_, by simp [evaluated, ends]⟩
    intro other literal reason raised cause
    simp only [evaluated, ends, Except.error.injEq] at raised
    subst raised
    exact absurd cause (Plan.cause_of_ofLine plan literal reason)
  · exact ⟨by simp [evaluated, ends], by simp [evaluated, ends], by simp [evaluated, ends],
      by simp [evaluated, ends]⟩
  · have stated := Plan.statedBy_of_ofLine plan
    rcases harness.solve_cases context problem with
      ⟨values, expected, comparison, read, last, solved, trace⟩ | ⟨fault, failed, stops⟩
    · have compared : evaluated.answer = .ok (.compared comparison) := by
        rw [answer, solved]
        rfl
      refine ⟨by simp [compared], by simp [compared], by simp [compared], ?_⟩
      intro other same
      have arity : problem.operation.arity = (harness.operandsOf context values).length := by
        rw [stated.arity, read.length_eq, length_operandsOf]
      obtain ⟨call, applied⟩ := Operation.exists_call (harness.operationContext context) arity
      refine ⟨problem, values, expected, call, stated, read, last, applied, ?_⟩
      rw [calls, trace, applied]
      simp
    · have raised : evaluated.answer = .error fault := by
        rw [answer, failed]
        rfl
      rw [← calls] at stops
      refine ⟨by simp [raised], ?_, ?_, by simp [raised]⟩
      · intro other same allowed
        obtain rfl := Except.error.inj (raised.symm.trans same)
        obtain ⟨_, literal, _, condition, _, _, _, reported, _⟩ := stops
        exact absurd (congrArg Fault.cause reported) (allowed literal condition.refusal)
      · intro other literal reason same cause
        obtain rfl := Except.error.inj (raised.symm.trans same)
        exact ⟨problem, stated, stops⟩

/-- A sum that is rounded to the session: its literals are read first, and what is compared is rendered
last.  Where the expected value is left open, nothing is called. -/
theorem calls_evaluate_sum :
    ((standard .fixed 34).evaluate (.start 2 .nearestEven) "t add '1.25' '1' -> '2.2'").answer =
      .ok (.compared ⟨"t", .ok "2.2", "2.2"⟩) ∧
    ((standard .fixed 34).evaluate (.start 2 .nearestEven) "t add '1.25' '1' -> '2.2'").calls =
      [.parse "1.25" 34, .parse "1" 34, .parse "2.2" 34,
        .binary .add ⟨125, -2⟩ ⟨1, 0⟩ ⟨34, .nearestEven⟩, .round ⟨225, -2⟩ ⟨2, .nearestEven⟩,
        .render ⟨22, -1⟩, .render ⟨22, -1⟩] ∧
    (∃ problem : Problem, problem.StatedBy .fixed "t add '1.25' '1' -> '2.2'" ∧
      problem.literals.map (standard .fixed 34).reading <+:
        ((standard .fixed 34).evaluate (.start 2 .nearestEven) "t add '1.25' '1' -> '2.2'").calls) ∧
    ((standard .fixed 34).evaluate (.start 2 .nearestEven) "t add '1.25' '1' -> ?").calls = [] := by
  obtain ⟨-, -, -, compared⟩ :=
    (standard .fixed 34).calls_evaluate (.start 2 .nearestEven) "t add '1.25' '1' -> '2.2'"
  obtain ⟨skipped, -⟩ :=
    (standard .fixed 34).calls_evaluate (.start 2 .nearestEven) "t add '1.25' '1' -> ?"
  refine ⟨rfl, by decide, ?_, skipped .expectedSentinel rfl⟩
  obtain ⟨problem, values, expected, call, stated, -, -, -, calls⟩ := compared _ rfl
  refine ⟨problem, stated, ?_⟩
  rw [calls]
  simp only [List.append_assoc]
  exact List.prefix_append ..

end Harness
end DecimalConformance
