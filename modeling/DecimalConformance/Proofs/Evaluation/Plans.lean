import DecimalConformance.Evaluation

/-! What a plan says about the fields of a test line.
A problem that is left to the engine is stated by literals alone, and a line that is refused without
the engine is refused over its fields. -/
namespace DecimalConformance

namespace Problem

/-- The literals of a problem in the order in which they are read. -/
def literals (problem : Problem) : List String := problem.operands ++ [problem.expected]

/-- A line states a problem: its fields name the operation, and hold as many operands as that
operation takes and an expected value, all of them literals. -/
def StatedBy (problem : Problem) (dialect : Dialect) (text : String) : Prop :=
  ∃ line testCase, Script.TestLine.split dialect text = .ok line ∧ line.toCase = .ok testCase ∧
    Operation.ofName? testCase.operator = some problem.operation ∧
    problem.operation.arity = problem.operands.length ∧
    testCase.operands = problem.operands.map .literal ∧
    testCase.expected = .literal problem.expected

theorem StatedBy.arity {problem : Problem} {dialect : Dialect} {text : String}
    (h : problem.StatedBy dialect text) : problem.operation.arity = problem.operands.length := by
  obtain ⟨_, _, _, _, _, arity, _⟩ := h
  exact arity

end Problem

namespace Script.Token

theorem literal?_eq_some {token : Token} {text : String} (h : token.literal? = some text) :
    token = .literal text := by
  cases token with
  | literal other => rw [Option.some.inj h]
  | unconstrained => cases h
  | forcedSkip => cases h

theorem eq_map_filterMap_literal? {tokens : List Token} (h : ∀ token ∈ tokens, ¬ token.isSentinel) :
    tokens = (tokens.filterMap literal?).map literal := by
  induction tokens with
  | nil => rfl
  | cons token rest ih =>
    have others := ih fun other mem => h other (List.mem_cons_of_mem _ mem)
    cases token with
    | literal text => exact congrArg (literal text :: ·) others
    | unconstrained => exact absurd rfl (h _ List.mem_cons_self)
    | forcedSkip => exact absurd rfl (h _ List.mem_cons_self)

end Script.Token

namespace Script.TestLine

theorem eq_malformed_of_split {dialect : Dialect} {text : String} {fault : Fault}
    (h : split dialect text = .error fault) : ∃ reason, fault = malformed text reason := by
  unfold split at h
  dsimp only at h
  split at h
  · exact ⟨_, (Except.error.inj h).symm⟩
  · split at h
    · cases h
    · exact ⟨_, (Except.error.inj h).symm⟩

theorem eq_malformed_of_toCase {line : TestLine} {fault : Fault}
    (h : line.toCase = .error fault) : ∃ reason, fault = malformed line.text reason := by
  have layout : line.layout = .error fault := by
    cases result : line.layout with
    | error other =>
      rw [toCase, result] at h
      rw [Except.error.inj h]
    | ok fields =>
      rw [toCase, result] at h
      cases h
  unfold TestLine.layout at layout
  grind

end Script.TestLine

namespace Plan

/-- A case that is left to the engine has no sentinel, a known operator and its arity. -/
theorem ofCase_eq_solve {dialect : Dialect} {testCase : Script.TestCase} {problem : Problem}
    (h : ofCase dialect testCase = .ok (.solve problem)) :
    Operation.ofName? testCase.operator = some problem.operation ∧
      problem.operation.arity = problem.operands.length ∧
      testCase.operands = problem.operands.map .literal ∧
      testCase.expected = .literal problem.expected := by
  unfold ofCase at h
  split at h
  · cases h
  · next none_sentinel =>
    have literals : testCase.operands =
        (testCase.operands.filterMap Script.Token.literal?).map .literal := by
      apply Script.Token.eq_map_filterMap_literal?
      intro token mem sentinel
      exact none_sentinel (List.any_eq_true.mpr ⟨token, mem, sentinel⟩)
    split at h
    · cases h
    · next expected written =>
      split at h
      · split at h <;> cases h
      · next operation named =>
        split at h
        · next arity =>
          obtain rfl := Plan.solve.inj (Except.ok.inj h)
          refine ⟨named, ?_, literals, Script.Token.literal?_eq_some written⟩
          rw [literals, List.length_map] at arity
          exact arity
        · cases h

private theorem cause_of_ofCase {dialect : Dialect} {testCase : Script.TestCase} {fault : Fault}
    (h : ofCase dialect testCase = .error fault) (literal reason : String) :
    fault.cause ≠ .unparsableOperand literal reason := by
  unfold ofCase at h
  split at h
  · cases h
  · split at h
    · cases h
    · split at h
      · split at h
        · obtain rfl := Except.error.inj h
          simp [Fault.cause]
        · cases h
      · split at h
        · cases h
        · obtain rfl := Except.error.inj h
          simp [Fault.cause]

theorem ofLine_of_skipping {session : Session} (h : session.skipping) (dialect : Dialect)
    (text : String) : ofLine dialect session text = .ok (.skip .unsupportedRounding) :=
  if_pos h

/-- Where tests are not skipped, a plan is what comes of a line's fields. -/
theorem ofLine_cases {session : Session} (h : ¬ session.skipping) (dialect : Dialect)
    (text : String) :
    (∃ about reason, ofLine dialect session text = .error (Script.malformed about reason)) ∨
    ofLine dialect session text = .ok (.skip .operandSentinel) ∨
    ∃ line testCase, Script.TestLine.split dialect text = .ok line ∧
      line.toCase = .ok testCase ∧ ofLine dialect session text = ofCase dialect testCase := by
  rw [ofLine, if_neg h]
  cases fields : Script.TestLine.split dialect text with
  | error short =>
    obtain ⟨why, rfl⟩ := Script.TestLine.eq_malformed_of_split fields
    exact .inl ⟨_, _, rfl⟩
  | ok line =>
    simp only [bind, Except.bind]
    split
    · exact .inr (.inl rfl)
    · cases decoded : line.toCase with
      | error short =>
        obtain ⟨why, rfl⟩ := Script.TestLine.eq_malformed_of_toCase decoded
        exact .inl ⟨_, _, rfl⟩
      | ok testCase => exact .inr (.inr ⟨line, testCase, rfl, decoded, rfl⟩)

/-- A plan fails over the fields of a line, never over what stands in a literal. -/
theorem cause_of_ofLine {dialect : Dialect} {session : Session} {text : String} {fault : Fault}
    (h : ofLine dialect session text = .error fault) (literal reason : String) :
    fault.cause ≠ .unparsableOperand literal reason := by
  by_cases skipping : session.skipping
  · rw [ofLine_of_skipping skipping] at h
    cases h
  · rcases ofLine_cases skipping dialect text with
      ⟨about, why, short⟩ | skipped | ⟨line, testCase, -, -, same⟩
    · rw [short] at h
      obtain rfl := Except.error.inj h
      simp [Script.malformed, Fault.cause]
    · rw [skipped] at h
      cases h
    · rw [same] at h
      exact cause_of_ofCase h literal reason

theorem statedBy_of_ofLine {dialect : Dialect} {session : Session} {text : String}
    {problem : Problem} (h : ofLine dialect session text = .ok (.solve problem)) :
    problem.StatedBy dialect text := by
  by_cases skipping : session.skipping
  · rw [ofLine_of_skipping skipping] at h
    cases h
  · rcases ofLine_cases skipping dialect text with
      ⟨about, why, short⟩ | skipped | ⟨line, testCase, fields, decoded, same⟩
    · rw [short] at h
      cases h
    · rw [skipped] at h
      cases h
    · rw [same] at h
      exact ⟨line, testCase, fields, decoded, ofCase_eq_solve h⟩

end Plan
end DecimalConformance
