import DecimalConformance.Proofs.Decimal.CanonicalText
import DecimalConformance.Proofs.Decimal.ExactArithmetic
import DecimalConformance.Proofs.Evaluation.Answers
import DecimalConformance.Proofs.Run.Ledger
import DecimalConformance.Proofs.Script.QuotedLine

/-! Where the exact result fits the precision of the session, both dialects decide a test line by
that result.  They part only over an expected literal that is longer than the precision at which one
of them reads literals. -/
namespace DecimalConformance

namespace Decimal

private theorem Spelling.sentinel_notMem_chars (s : Spelling) {mark c : Char}
    (hm : mark = 'e' ∨ mark = 'E') (hc : c = '#' ∨ c = '?') : c ∉ s.chars mark := by
  intro member
  rcases hc with rfl | rfl <;> rcases hm with rfl | rfl <;>
    rcases mem_chars member with h | h | h | h | h <;> exact absurd h (by decide)

/-- A literal in parts can stand between quotes. -/
private theorem Spelling.quotable (s : Spelling) {mark : Char} (hm : mark = 'e' ∨ mark = 'E') :
    Script.Quotable (String.ofList (s.chars mark)) := by
  refine ⟨?_, ?_, ?_, ?_⟩
  · intro c hc
    rw [String.toList_ofList] at hc
    exact (isAscii_of_mem_chars hm hc).1
  · intro c hc
    rw [String.toList_ofList] at hc
    exact (isAscii_of_mem_chars hm hc).2
  · intro same
    have chars : s.chars mark = ['#'] := String.ofList_injective same
    exact s.sentinel_notMem_chars hm (.inl rfl) (by rw [chars, List.mem_singleton])
  · intro same
    have chars : s.chars mark = ['?'] := String.ofList_injective same
    exact s.sentinel_notMem_chars hm (.inr rfl) (by rw [chars, List.mem_singleton])

private theorem quotable_canonical (d : Decimal) : Script.Quotable d.canonical := by
  rw [canonical, canonicalChars_eq]
  exact d.spelling.quotable (.inr rfl)

private theorem quotable_lowercase_canonical (d : Decimal) :
    Script.Quotable (Text.lowercase d.canonical) := by
  rw [lowercase_canonical]
  exact d.spelling.quotable (.inl rfl)

end Decimal

open Decimal

/-- A test line for two operands and an expected value, each in canonical text. -/
def arithmeticLine (operation : BinaryOp) (x y expected : Decimal) : String :=
  Script.quotedLine (Operation.name (.binary operation)) x.canonical y.canonical expected.canonical

private def loweredLine (operation : BinaryOp) (x y expected : Decimal) : String :=
  Script.quotedLine (Operation.name (.binary operation)) (Text.lowercase x.canonical)
    (Text.lowercase y.canonical) (Text.lowercase expected.canonical)

private theorem classify_arithmeticLine (operation : BinaryOp) (x y expected : Decimal) :
    Script.classify (Script.normalize (arithmeticLine operation x y expected)) =
      .test (loweredLine operation x y expected) := by
  have ascii : Text.IsAscii (Operation.name (.binary operation)) := by cases operation <;> decide
  have lower : Text.lowercase (Operation.name (.binary operation)) =
      Operation.name (.binary operation) := by cases operation <;> decide
  rw [arithmeticLine, Script.normalize_quotedLine ascii x.quotable_canonical y.quotable_canonical
    expected.quotable_canonical, lower]
  exact Script.classify_quotedLine _ _ _ _

namespace Harness

section Ends

variable {Value : Type} (harness : Harness Value)

/-- A line is a test that ends: it is counted by its outcome, and a failure is recorded last. -/
def EndsWith (state : RunState) (raw : String) (outcome : Outcome) : Prop :=
  (harness.process state raw).fault? = none ∧
    (harness.process state raw).state = ⟨state.session, state.counters.begin.record outcome,
      state.failures ++ outcome.failure?.toList⟩

private theorem endsWith_of_evaluate {state : RunState} {raw text : String} {verdict : Verdict}
    (classified : Script.classify (Script.normalize raw) = .test text)
    (evaluated : (harness.evaluate state.session text).answer = .ok verdict) :
    harness.EndsWith state raw (verdict.outcome state.session text) := by
  have entry : harness.entryOf state.session raw =
      some ⟨text, .ok (verdict.outcome state.session text)⟩ := by
    simp [entryOf, classified, evaluated, Except.map]
  obtain ⟨after, fault⟩ := harness.process_of_entryOf_some entry
  refine ⟨?_, after⟩
  cases raised : (harness.process state raw).fault? with
  | none => rfl
  | some _ =>
    rw [raised] at fault
    cases fault

end Ends

/-- A literal in canonical text is read as it is, but for the rounding of literals. -/
private theorem answer_parseLiteral_canonical (dialect : Dialect) (internal : Nat) {d : Decimal}
    (fits : d.PlacesFit) :
    ((standard dialect internal).parseLiteral (Text.lowercase d.canonical)).answer =
      .ok (d.round (standard dialect internal).readingPrecision .nearestEven) := by
  rw [answer_parseLiteral_eq_ok, engine_standard, Engine.standard_parse,
    readLiteral_lowercase_canonical fits, stored_round_of_placesFit _ _ fits]

/-- A literal whose leading digit would have a place above all others is read as a decimal that reaches
up to the largest place. -/
private theorem answer_parseLiteral_of_le_lead (dialect : Dialect) (internal : Nat) {d : Decimal}
    (lead : exponentMax ≤ d.exponent + d.digits - 1) (short : d.digits ≤ exponentMax) :
    ∃ read : Decimal, exponentMax ≤ read.exponent + read.digits - 1 ∧
      ((standard dialect internal).parseLiteral (Text.lowercase d.canonical)).answer = .ok read := by
  have reaches : exponentMax ≤
      (⟨d.coefficient, exponentMax - (d.digits - 1)⟩ : Decimal).exponent +
        (⟨d.coefficient, exponentMax - (d.digits - 1)⟩ : Decimal).digits - 1 := by
    simp only [digits]
    omega
  refine ⟨_, le_lead_stored
    (le_lead_round (standard dialect internal).readingPrecision .nearestEven reaches), ?_⟩
  rw [answer_parseLiteral_eq_ok, engine_standard, Engine.standard_parse,
    readLiteral_lowercase_canonical_of_le_lead lead short]

/-- Operands are short enough to be read exactly. -/
private theorem answer_parseLiteral_of_short (dialect : Dialect) {internal : Nat} {d : Decimal}
    (fits : d.PlacesFit) (short : d.digits ≤ internal) :
    ((standard dialect internal).parseLiteral (Text.lowercase d.canonical)).answer = .ok d := by
  rw [answer_parseLiteral_canonical dialect internal fits]
  cases dialect with
  | fixed => rw [readingPrecision_standard_fixed, round_of_digits_le _ short]
  | varying => rw [readingPrecision_standard_varying, round_zero]

private theorem answer_parseLiterals_pair {harness : Harness Decimal} {x y : Decimal}
    {left right : String} (hx : (harness.parseLiteral left).answer = .ok x)
    (hy : (harness.parseLiteral right).answer = .ok y) :
    (harness.parseLiterals [left, right]).answer = .ok [x, y] := by
  simp only [parseLiterals, Traced.answer_bind, hx, hy, Traced.answer_pure]

section Lines

variable {operation : BinaryOp} {x y z expected : Decimal} {internal : Nat} {state : RunState}
  (exact : ExactCase operation x y z state.session.precision)
  (positive : 0 < state.session.precision) (limited : state.session.precision ≤ precisionMax)
  (working : state.session.precision ≤ internal) (dialect : Dialect)

include exact positive limited working

/-- Either policy of precision gives the exact result. -/
private theorem answer_calculate_of_exact :
    ((standard dialect internal).calculate state.session.context (.binary operation)
      [x, y]).answer = .ok z := by
  obtain ⟨fitsLeft, fitsRight, fits⟩ := exact.placesFit limited
  cases dialect with
  | fixed =>
    have wide : (Operation.apply (Engine.standard internal) (.binary operation) [x, y]
        ⟨internal, state.session.rounding⟩).answer = .ok z :=
      Engine.calculateBinary_eq internal state.session.rounding exact positive limited working
    rw [answer_calculate_of_roundResult _ rfl]
    refine (congrArg (Except.map _) wide).trans ?_
    exact congrArg Except.ok (Engine.finish_eq_self exact.short fits)
  | varying =>
    have left : Engine.finish x state.session.context = x :=
      Engine.finish_eq_self exact.shortLeft fitsLeft
    have right : Engine.finish y state.session.context = y :=
      Engine.finish_eq_self exact.shortRight fitsRight
    have operands : [x, y].map (fun d => Engine.finish d state.session.context) = [x, y] := by
      simp only [List.map_cons, List.map_nil, left, right]
    rw [answer_calculate_of_roundOperands _ rfl]
    refine (congrArg (fun values => (Operation.apply (Engine.standard internal) (.binary operation)
      values state.session.context).answer) operands).trans ?_
    exact Engine.calculateBinary_eq internal state.session.rounding exact positive limited le_rfl

variable (active : state.session.skipping = false) {read : Decimal}
  (readExpected : ((standard dialect internal).parseLiteral
    (Text.lowercase expected.canonical)).answer = .ok read)

include active readExpected

/-- What is compared: the exact result, and the expected value as it was read. -/
private theorem answer_evaluate_loweredLine :
    ((standard dialect internal).evaluate state.session
        (loweredLine operation x y expected)).answer =
      .ok (.compared ⟨"t", .ok z.canonical, read.canonical⟩) := by
  obtain ⟨fitsLeft, fitsRight, -⟩ := exact.placesFit limited
  have operands := answer_parseLiterals_pair
    (answer_parseLiteral_of_short dialect fitsLeft (exact.shortLeft.trans working))
    (answer_parseLiteral_of_short dialect fitsRight (exact.shortRight.trans working))
  refine (answer_evaluate_eq_compared _).mpr ⟨_, Script.ofLine_quotedLine active dialect
    x.quotable_lowercase_canonical y.quotable_lowercase_canonical
    expected.quotable_lowercase_canonical, ?_⟩
  refine (answer_solve_eq_ok _).mpr
    ⟨_, _, operands, (answer_parseLiteral_eq_ok _).mp readExpected, ?_⟩
  rw [answer_calculate_of_exact exact positive limited working dialect]
  rfl

/-- The line is decided by the expected value as it was read. -/
private theorem endsWith_arithmeticLine :
    (read = z → (standard dialect internal).EndsWith state
      (arithmeticLine operation x y expected) .passed) ∧
    (read ≠ z → ∃ record, (standard dialect internal).EndsWith state
      (arithmeticLine operation x y expected) (.failed record)) := by
  have evaluated :=
    answer_evaluate_loweredLine exact positive limited working dialect active readExpected
  have ends := endsWith_of_evaluate _ (classify_arithmeticLine operation x y expected) evaluated
  obtain ⟨-, -, fitsResult⟩ := exact.placesFit limited
  constructor
  · rintro rfl
    rwa [Verdict.outcome_eq_passed_iff.mpr rfl] at ends
  · intro differs
    have unequal : Comparison.computed ⟨"t", .ok z.canonical, read.canonical⟩ ≠ read.canonical :=
      fun same => differs (eq_of_canonical_eq fitsResult (Eq.symm same))
    obtain ⟨record, failed⟩ := Verdict.outcome_of_computed_ne state.session
      (loweredLine operation x y expected) unequal
    rw [failed] at ends
    exact ⟨record, ends⟩

end Lines

/-- Where operands and exact result fit the precision of the session, a line that expects the exact
result passes in either dialect.  A line that expects another decimal fails, except that a literal
longer than the precision of reading is rounded first where literals are read at that precision. -/
theorem exact_arithmetic_decided {operation : BinaryOp} {x y z : Decimal} {internal : Nat}
    {state : RunState} (exact : ExactCase operation x y z state.session.precision)
    (positive : 0 < state.session.precision) (limited : state.session.precision ≤ precisionMax)
    (working : state.session.precision ≤ internal) (active : state.session.skipping = false) :
    (∀ dialect, (standard dialect internal).EndsWith state (arithmeticLine operation x y z) .passed) ∧
    ∀ expected : Decimal, expected.stored = expected → expected.digits ≤ exponentMax →
      expected ≠ z →
      (∃ record, (standard .varying internal).EndsWith state
        (arithmeticLine operation x y expected) (.failed record)) ∧
      (state.session.precision < internal ∨ expected.digits ≤ internal →
        ∃ record, (standard .fixed internal).EndsWith state
          (arithmeticLine operation x y expected) (.failed record)) ∧
      (expected.round internal .nearestEven ≠ z →
        ∃ record, (standard .fixed internal).EndsWith state
          (arithmeticLine operation x y expected) (.failed record)) ∧
      (expected.round internal .nearestEven = z →
        (standard .fixed internal).EndsWith state (arithmeticLine operation x y expected)
          .passed) := by
  obtain ⟨-, -, fitsResult⟩ := exact.placesFit limited
  constructor
  · intro dialect
    have readResult := answer_parseLiteral_of_short dialect fitsResult (exact.short.trans working)
    exact (endsWith_arithmeticLine exact positive limited working dialect active readResult).1 rfl
  intro expected held short differs
  by_cases lead : exponentMax ≤ expected.exponent + expected.digits - 1
  · -- Nothing that reaches up so far is the exact result, whatever it is rounded to.
    have far {read : Decimal} (lead : exponentMax ≤ read.exponent + read.digits - 1) : read ≠ z := by
      rintro rfl
      exact not_lt.mpr lead fitsResult.leading
    have fails (dialect : Dialect) : ∃ record, (standard dialect internal).EndsWith state
        (arithmeticLine operation x y expected) (.failed record) := by
      obtain ⟨read, reaches, readExpected⟩ :=
        answer_parseLiteral_of_le_lead dialect internal lead short
      exact (endsWith_arithmeticLine exact positive limited working dialect active readExpected).2
        (far reaches)
    exact ⟨fails .varying, fun _ => fails .fixed, fun _ => fails .fixed, fun same =>
      absurd same (far (le_lead_round internal .nearestEven lead))⟩
  · have least := exponent_of_stored held
    have fits : expected.PlacesFit :=
      ⟨lt_of_lt_of_le (by decide) least, not_le.mp lead⟩
    have varying := endsWith_arithmeticLine exact positive limited working .varying active
      (answer_parseLiteral_canonical .varying internal fits)
    have fixed := endsWith_arithmeticLine exact positive limited working .fixed active
      (answer_parseLiteral_canonical .fixed internal fits)
    rw [readingPrecision_standard_varying, round_zero] at varying
    rw [readingPrecision_standard_fixed] at fixed
    refine ⟨varying.2 differs, ?_, fixed.2, fixed.1⟩
    intro long
    refine fixed.2 fun same => ?_
    by_cases short : expected.digits ≤ internal
    · exact differs (round_of_digits_le _ short ▸ same)
    · have length := digits_round_of_lt .nearestEven (by omega) (not_le.mp short)
      have := exact.short
      rw [same] at length
      omega

/-- The exact sum passes, and half a hundredth more fails.  So does the largest power of ten. -/
theorem exact_arithmetic_decided_cents :
    (∀ dialect, (standard dialect 34).EndsWith (.start (.start 9 .nearestAway))
      (arithmeticLine .add ⟨10, -2⟩ ⟨1, 0⟩ ⟨110, -2⟩) .passed) ∧
    (∃ record, (standard .fixed 34).EndsWith (.start (.start 9 .nearestAway))
      (arithmeticLine .add ⟨10, -2⟩ ⟨1, 0⟩ ⟨1105, -3⟩) (.failed record)) ∧
    ∃ record, (standard .varying 34).EndsWith (.start (.start 9 .nearestAway))
      (arithmeticLine .add ⟨10, -2⟩ ⟨1, 0⟩ ⟨1, 9223372036854775807⟩) (.failed record) := by
  have exact : ExactCase .add ⟨10, -2⟩ ⟨1, 0⟩ ⟨110, -2⟩ 9 := by
    refine ⟨⟨?_, by decide⟩, by decide, by decide, by decide, by decide, by decide, by decide⟩
    norm_num [value]
  obtain ⟨passes, fails⟩ := @exact_arithmetic_decided .add ⟨10, -2⟩ ⟨1, 0⟩ ⟨110, -2⟩ 34
    (.start (.start 9 .nearestAway)) exact (by decide) (by decide) (by decide) rfl
  exact ⟨passes, (fails ⟨1105, -3⟩ (by decide) (by decide) (by decide)).2.1 (.inl (by decide)),
    (fails ⟨1, 9223372036854775807⟩ (by decide) (by decide) (by decide)).1⟩

/-- Without room between the precision of the session and the precision of reading, a line that
expects another decimal than the exact sum may pass. -/
theorem not_decided_at_working_precision :
    ¬ ∀ (operation : BinaryOp) (x y z expected : Decimal) (internal : Nat) (state : RunState)
      (dialect : Dialect), ExactCase operation x y z state.session.precision →
      0 < state.session.precision → state.session.precision ≤ precisionMax →
      state.session.precision ≤ internal → state.session.skipping = false →
      expected.PlacesFit → expected ≠ z →
      ∃ record, (standard dialect internal).EndsWith state
        (arithmeticLine operation x y expected) (.failed record) := by
  intro decided
  have exact : ExactCase .add ⟨1, 0⟩ ⟨1, 0⟩ ⟨2, 0⟩ 1 := by
    refine ⟨⟨?_, by decide⟩, by decide, by decide, by decide, by decide, by decide, by decide⟩
    norm_num [value]
  obtain ⟨record, -, failed⟩ := decided .add ⟨1, 0⟩ ⟨1, 0⟩ ⟨2, 0⟩ ⟨21, -1⟩ 1
    (.start (.start 1 .nearestEven)) .fixed exact (by decide) (by decide) (by decide) rfl
    ⟨by decide, by decide⟩ (by decide)
  have passed : ((standard .fixed 1).process (.start (.start 1 .nearestEven))
      (arithmeticLine .add ⟨1, 0⟩ ⟨1, 0⟩ ⟨21, -1⟩)).state.counters = ⟨1, 1, 0, 0⟩ := by
    decide
  rw [failed] at passed
  cases passed

end Harness
end DecimalConformance
