import DecimalConformance.Proofs.Evaluation.Calls
import DecimalConformance.Proofs.Run.Ledger

/-! Two engines under one script.
An engine has no say in what ends or skips a line but by the literals that it refuses.  Two runs
whose engines refuse the same ones differ in which of the scored tests pass, and in nothing else. -/
namespace DecimalConformance

/-- The literals of a test line: its operands and its expected value, without the sentinels. -/
def Script.literals (dialect : Dialect) (raw : String) : List String :=
  match classify (normalize raw) with
  | .test text =>
    match TestLine.split dialect text >>= TestLine.toCase with
    | .ok testCase => (testCase.operands ++ [testCase.expected]).filterMap Token.literal?
    | .error _ => []
  | _ => []

theorem Problem.StatedBy.literals_eq {problem : Problem} {dialect : Dialect} {raw text : String}
    (h : problem.StatedBy dialect text) (test : Script.classify (Script.normalize raw) = .test text) :
    Script.literals dialect raw = problem.literals := by
  obtain ⟨line, testCase, fields, decoded, -, -, operands, expected⟩ := h
  have read : Script.TestLine.split dialect text >>= Script.TestLine.toCase = .ok testCase := by
    rw [fields]
    exact decoded
  have inner : (problem.operands.map Script.Token.literal).filterMap Script.Token.literal? =
      problem.operands := by
    rw [List.filterMap_map]
    exact List.filterMap_some
  simp only [Script.literals, test, read, operands, expected, List.filterMap_append, inner]
  rfl

/-- Two answers that are the same refusal, or no refusal. -/
inductive SameRefusal {ε α β : Type} : Except ε α → Except ε β → Prop where
  | refused (reason : ε) : SameRefusal (.error reason) (.error reason)
  | answered (a : α) (b : β) : SameRefusal (.ok a) (.ok b)

def Verdict.skip? : Verdict → Option SkipReason
  | .skipped reason => some reason
  | .compared _ => none

def Outcome.skip? : Outcome → Option SkipReason
  | .skipped reason => some reason
  | .passed | .failed _ => none

theorem Verdict.skip?_outcome (session : Session) (line : String) (verdict : Verdict) :
    (verdict.outcome session line).skip? = verdict.skip? := by
  cases verdict with
  | skipped reason => rfl
  | compared comparison =>
    rw [outcome]
    split <;> rfl

/-- Two counts of the same tests, which may differ in how many of the scored ones passed. -/
structure Counters.Alike (counters other : Counters) : Prop where
  total : counters.total = other.total
  skipped : counters.skipped = other.skipped
  scored : counters.succeeded + counters.failed = other.succeeded + other.failed

theorem Counters.Alike.begin {counters other : Counters} (h : counters.Alike other) :
    counters.begin.Alike other.begin :=
  ⟨congrArg (· + 1) h.total, h.skipped, h.scored⟩

theorem Counters.Alike.record {counters other : Counters} (h : counters.Alike other)
    {outcome outcome' : Outcome} (same : outcome.skip? = outcome'.skip?) :
    (counters.record outcome).Alike (other.record outcome') := by
  obtain ⟨total, skipped, scored⟩ := h
  cases outcome <;> cases outcome' <;> cases same <;> constructor <;>
    simp only [Counters.record] <;> omega

structure RunState.Alike (state other : RunState) : Prop where
  session : state.session = other.session
  counters : state.counters.Alike other.counters

/-- An engine that reads, rounds and renders as another does, and refuses every operation. -/
def Engine.refusing {Value : Type} (engine : Engine Value)
    (unary : UnaryOp → Value → Context → Condition)
    (binary : BinaryOp → Value → Value → Context → Condition) : Engine Value :=
  { engine with
    unary := fun op x context => .error (unary op x context)
    binary := fun op x y context => .error (binary op x y context) }

namespace Harness

variable {V W : Type}

def skipReason? (harness : Harness V) (session : Session) (raw : String) : Option SkipReason :=
  (harness.entryOf session raw).bind fun entry => entry.result.toOption.bind Outcome.skip?

structure SameRules (left : Harness V) (right : Harness W) : Prop where
  dialect : left.dialect = right.dialect
  internalPrecision : left.internalPrecision = right.internalPrecision

theorem sameRules (one : Engine V) (two : Engine W) (dialect : Dialect) (internal : Nat) :
    SameRules (⟨one, dialect, internal⟩ : Harness V) (⟨two, dialect, internal⟩ : Harness W) :=
  ⟨rfl, rfl⟩

/-- Two harnesses accept a literal, or refuse it for one reason. -/
def ReadAlike (left : Harness V) (right : Harness W) (literal : String) : Prop :=
  SameRefusal (left.engine.parse literal left.readingPrecision)
    (right.engine.parse literal right.readingPrecision)

/-- Fed the same lines, two harnesses raise the same faults, skip the same tests for the same
reasons, and stay in alike states. -/
def InStep (left : Harness V) (right : Harness W) (session : Session) (script : List String) :
    Prop :=
  ∀ before raw behind, script = before ++ raw :: behind →
    let state := left.after (.start session) before
    let other := right.after (.start session) before
    (left.process state raw).fault? = (right.process other raw).fault? ∧
      left.skipReason? state.session raw = right.skipReason? other.session raw ∧
      (left.process state raw).state.Alike (right.process other raw).state

variable {left : Harness V} {right : Harness W}

/-! ## One test -/

theorem ReadAlike.parseLiteral {literal : String} (h : ReadAlike left right literal) :
    SameRefusal (left.parseLiteral literal).answer (right.parseLiteral literal).answer := by
  rw [answer_parseLiteral, answer_parseLiteral]
  unfold ReadAlike at h
  revert h
  generalize left.engine.parse literal left.readingPrecision = one
  generalize right.engine.parse literal right.readingPrecision = two
  intro h
  cases h with
  | refused condition => exact .refused _
  | answered value value' => exact .answered value value'

theorem parseLiterals_alike {literals : List String}
    (h : ∀ literal ∈ literals, ReadAlike left right literal) :
    SameRefusal (left.parseLiterals literals).answer (right.parseLiterals literals).answer := by
  induction literals with
  | nil => exact .answered [] []
  | cons literal rest ih =>
    have first := (h literal List.mem_cons_self).parseLiteral
    have others := ih fun other mem => h other (List.mem_cons_of_mem _ mem)
    simp only [parseLiterals, Traced.answer_bind]
    generalize (left.parseLiteral literal).answer = one at first
    generalize (right.parseLiteral literal).answer = two at first
    cases first with
    | refused fault => exact .refused fault
    | answered value value' =>
      simp only [Traced.answer_bind]
      generalize (left.parseLiterals rest).answer = one at others
      generalize (right.parseLiterals rest).answer = two at others
      cases others with
      | refused fault => exact .refused fault
      | answered values values' => exact .answered (value :: values) (value' :: values')

/-- What comes after the literals are read never refuses a problem. -/
theorem solve_alike {problem : Problem}
    (h : ∀ literal ∈ problem.literals, ReadAlike left right literal) (context : Context) :
    SameRefusal (left.solve context problem).answer (right.solve context problem).answer := by
  have operands : SameRefusal (left.parseLiterals problem.operands).answer
      (right.parseLiterals problem.operands).answer :=
    parseLiterals_alike fun literal mem => h literal (List.mem_append_left _ mem)
  have expected : SameRefusal (left.parseLiteral problem.expected).answer
      (right.parseLiteral problem.expected).answer :=
    (h problem.expected (List.mem_append_right _ List.mem_cons_self)).parseLiteral
  simp only [solve, Traced.answer_bind]
  generalize (left.parseLiterals problem.operands).answer = one at operands
  generalize (right.parseLiterals problem.operands).answer = two at operands
  cases operands with
  | refused fault => exact .refused fault
  | answered values values' =>
    simp only [Traced.answer_bind]
    generalize (left.parseLiteral problem.expected).answer = one at expected
    generalize (right.parseLiteral problem.expected).answer = two at expected
    cases expected with
    | refused fault => exact .refused fault
    | answered value value' => exact .answered _ _

/-- A test raises the same fault, or is skipped for the same reason, or is compared. -/
theorem evaluate_alike (rules : SameRules left right) {raw text : String}
    (test : Script.classify (Script.normalize raw) = .test text)
    (h : ∀ literal ∈ Script.literals left.dialect raw, ReadAlike left right literal)
    (session : Session) :
    (left.evaluate session text).answer.map Verdict.skip? =
      (right.evaluate session text).answer.map Verdict.skip? := by
  -- The plan is made without an engine, so both sides end the same way.
  rcases left.evaluate_cases session text with
    ⟨fault, plan, ends⟩ | ⟨reason, plan, ends⟩ | ⟨problem, plan, -, answer⟩ <;>
  rcases right.evaluate_cases session text with
    ⟨fault', plan', ends'⟩ | ⟨reason', plan', ends'⟩ | ⟨problem', plan', -, answer'⟩ <;>
  rw [rules.dialect] at plan <;> cases plan.symm.trans plan'
  · rw [ends, ends']
  · rw [ends, ends']
  · rw [answer, answer']
    have stated : problem.StatedBy left.dialect text := by
      rw [rules.dialect]
      exact Plan.statedBy_of_ofLine plan
    rw [stated.literals_eq test] at h
    have solved := solve_alike h session.context
    generalize (left.solve session.context problem).answer = one at solved
    generalize (right.solve session.context problem).answer = two at solved
    cases solved <;> rfl

/-! ## One line -/

private theorem processTest_alike {state other : RunState} (alike : state.Alike other)
    {text : String} (judged : (left.evaluate state.session text).answer.map Verdict.skip? =
      (right.evaluate state.session text).answer.map Verdict.skip?) :
    (left.processTest state text).fault? = (right.processTest other text).fault? ∧
      ((left.evaluate state.session text).answer.map
          (Verdict.outcome state.session text)).toOption.bind Outcome.skip? =
        ((right.evaluate other.session text).answer.map
          (Verdict.outcome other.session text)).toOption.bind Outcome.skip? ∧
      (left.processTest state text).state.Alike (right.processTest other text).state := by
  obtain ⟨session, counters⟩ := alike
  dsimp only [processTest]
  rw [← session]
  cases one : (left.evaluate state.session text).answer with
  | error fault =>
    cases two : (right.evaluate state.session text).answer with
    | error fault' =>
      rw [one, two] at judged
      obtain rfl := Except.error.inj judged
      exact ⟨rfl, rfl, rfl, counters.begin⟩
    | ok verdict =>
      rw [one, two] at judged
      cases judged
  | ok verdict =>
    cases two : (right.evaluate state.session text).answer with
    | error fault =>
      rw [one, two] at judged
      cases judged
    | ok verdict' =>
      -- The outcomes may differ in whether the test passed, but not in whether it is scored.
      have same : (verdict.outcome state.session text).skip? =
          (verdict'.outcome state.session text).skip? := by
        rw [one, two] at judged
        rw [Verdict.skip?_outcome, Verdict.skip?_outcome]
        exact Except.ok.inj judged
      exact ⟨rfl, same, rfl, counters.begin.record same⟩

/-- A line is judged alike in alike states, and leaves them alike. -/
theorem process_alike (rules : SameRules left right) {state other : RunState}
    (alike : state.Alike other) {raw : String}
    (h : ∀ literal ∈ Script.literals left.dialect raw, ReadAlike left right literal) :
    (left.process state raw).fault? = (right.process other raw).fault? ∧
      left.skipReason? state.session raw = right.skipReason? other.session raw ∧
      (left.process state raw).state.Alike (right.process other raw).state := by
  unfold process skipReason? entryOf
  rw [← rules.dialect]
  cases kind : Script.classify (Script.normalize raw) with
  | blank => exact ⟨rfl, rfl, alike⟩
  | comment => exact ⟨rfl, rfl, alike⟩
  | ignored keyword => exact ⟨rfl, rfl, alike⟩
  | precision text =>
    dsimp only
    cases Script.parsePrecision text with
    | error fault => exact ⟨rfl, rfl, alike⟩
    | ok precision =>
      exact ⟨rfl, rfl, congrArg (Session.setPrecision · precision) alike.session, alike.counters⟩
  | rounding text =>
    dsimp only
    cases Script.parseRounding left.dialect text with
    | error fault => exact ⟨rfl, rfl, alike⟩
    | ok declaration =>
      exact ⟨rfl, rfl, congrArg (Session.setRounding · declaration.1 declaration.2) alike.session,
        alike.counters⟩
  | test text => exact processTest_alike alike (evaluate_alike rules kind h state.session)

/-! ## Every line -/

private theorem after_alike (rules : SameRules left right) {state other : RunState}
    (alike : state.Alike other) {lines : List String}
    (h : ∀ raw ∈ lines, ∀ literal ∈ Script.literals left.dialect raw,
      ReadAlike left right literal) :
    (left.after state lines).Alike (right.after other lines) := by
  induction lines generalizing state other with
  | nil => exact alike
  | cons raw rest ih =>
    obtain ⟨-, -, next⟩ := process_alike rules alike (h raw List.mem_cons_self)
    rw [after_cons, after_cons]
    exact ih next fun line mem => h line (List.mem_cons_of_mem _ mem)

theorem inStep_of_readAlike (rules : SameRules left right) (session : Session)
    {script : List String}
    (h : ∀ raw ∈ script, ∀ literal ∈ Script.literals left.dialect raw,
      ReadAlike left right literal) :
    InStep left right session script := by
  rintro before raw behind rfl
  have start : (RunState.start session).Alike (.start session) := ⟨rfl, rfl, rfl, rfl⟩
  have reached := after_alike rules start fun line mem => h line (List.mem_append_left _ mem)
  exact process_alike rules reached (h raw (List.mem_append_right _ List.mem_cons_self))

/-- Engines that accept the literals of a script decide nothing in it but which of the scored tests
pass; and an engine that refuses every operation is in step with the one that it reads like. -/
theorem engine_decides_passing_alone (dialect : Dialect) (internal : Nat) (session : Session)
    (script : List String) :
    (∀ (V W : Type) (one : Engine V) (two : Engine W),
      (∀ raw ∈ script, ∀ literal ∈ Script.literals dialect raw,
        (∃ value, one.parse literal (dialect.parsePrecision internal) = .ok value) ∧
          ∃ value, two.parse literal (dialect.parsePrecision internal) = .ok value) →
      InStep ⟨one, dialect, internal⟩ ⟨two, dialect, internal⟩ session script) ∧
    ∀ (V : Type) (engine : Engine V) (unary : UnaryOp → V → Context → Condition)
      (binary : BinaryOp → V → V → Context → Condition),
      InStep ⟨engine, dialect, internal⟩ ⟨engine.refusing unary binary, dialect, internal⟩
        session script := by
  constructor
  · intro V W one two accepted
    have readAlike : ∀ raw ∈ script, ∀ literal ∈ Script.literals dialect raw,
        ReadAlike (⟨one, dialect, internal⟩ : Harness V) (⟨two, dialect, internal⟩ : Harness W)
          literal := by
      intro raw line literal mem
      obtain ⟨⟨value, read⟩, ⟨value', read'⟩⟩ := accepted raw line literal mem
      simp only [ReadAlike, readingPrecision, read, read']
      exact .answered value value'
    exact inStep_of_readAlike (sameRules one two dialect internal) session readAlike
  · intro V engine unary binary
    have readAlike : ∀ literal, ReadAlike (⟨engine, dialect, internal⟩ : Harness V)
        (⟨engine.refusing unary binary, dialect, internal⟩ : Harness V) literal := by
      intro literal
      simp only [ReadAlike, readingPrecision, Engine.refusing]
      cases engine.parse literal (dialect.parsePrecision internal) with
      | error condition => exact .refused condition
      | ok value => exact .answered value value
    exact inStep_of_readAlike (sameRules engine _ dialect internal) session
      fun _ _ literal _ => readAlike literal

theorem standard_inStep_mute :
    let mute : Engine Unit := ⟨fun _ _ => .ok (), fun _ _ => (), fun _ => "", fun _ _ _ => .ok (),
      fun _ _ _ _ => .ok ()⟩
    InStep ⟨Engine.standard 34, .fixed, 34⟩ ⟨mute, .fixed, 34⟩ (.start 9 .nearestEven)
      ["rounding: down", "t add '1' '2' -> '3'"] := by
  intro mute
  refine (engine_decides_passing_alone .fixed 34 (.start 9 .nearestEven)
    ["rounding: down", "t add '1' '2' -> '3'"]).1 Decimal Unit (Engine.standard 34) mute ?_
  intro raw line literal mem
  refine ⟨?_, (), rfl⟩
  rcases List.mem_pair.mp line with rfl | rfl
  · have none : Script.literals .fixed "rounding: down" = [] := by decide
    rw [none] at mem
    cases mem
  · have three : Script.literals .fixed "t add '1' '2' -> '3'" = ["1", "2", "3"] := by decide
    rw [three] at mem
    simp only [List.mem_cons, List.not_mem_nil, or_false] at mem
    rcases mem with rfl | rfl | rfl
    · exact ⟨⟨1, 0⟩, by decide⟩
    · exact ⟨⟨2, 0⟩, by decide⟩
    · exact ⟨⟨3, 0⟩, by decide⟩

end Harness
end DecimalConformance
