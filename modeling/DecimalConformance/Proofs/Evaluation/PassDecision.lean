import DecimalConformance.Proofs.Decimal.CanonicalText
import DecimalConformance.Proofs.Decimal.Storage
import DecimalConformance.Proofs.Evaluation.Answers

/-! A test passes exactly if the engine delivered the decimal that the expected literal denotes.
The comparison of texts loses nothing: the text of a condition is no number, and an expected value
too long for the precision of the literals is too long for the result as well. -/
namespace DecimalConformance

/-- The text of a decimal starts with a digit or a minus sign. -/
private theorem canonical_head (d : Decimal) :
    ∃ c, d.canonical.toList.head? = some c ∧ (c = '-' ∨ c.isDigit = true) := by
  obtain ⟨lead, rest, whole⟩ := List.exists_cons_of_ne_nil d.spelling.whole_ne_nil
  have digit := d.spelling.isDigit_of_mem lead (by simp [whole])
  rw [Decimal.canonical, String.toList_ofList, Decimal.canonicalChars_eq]
  by_cases negative : d.spelling.negative
  · refine ⟨'-', ?_, .inl rfl⟩
    simp [Decimal.Spelling.chars, Decimal.Spelling.mantissaChars, negative]
  · refine ⟨lead, ?_, .inr digit⟩
    simp [Decimal.Spelling.chars, Decimal.Spelling.mantissaChars, negative, whole]

private theorem head?_append {s : String} {c : Char} (t : String)
    (h : s.toList.head? = some c) : (s ++ t).toList.head? = some c := by
  rw [String.toList_append, List.head?_append, h]
  rfl

private theorem message_head (condition : Condition) :
    ∃ c, condition.message.toList.head? = some c ∧ c ∈ ['i', 'd', 'o', 'e'] := by
  cases condition with
  | unreadable literal reason =>
    exact ⟨'i', head?_append _ (head?_append _ (head?_append _ (by decide))), by decide⟩
  | divisionByZero => exact ⟨'d', by decide, by decide⟩
  | divisionImpossible => exact ⟨'d', by decide, by decide⟩
  | overflow => exact ⟨'o', by decide, by decide⟩
  | invalidOperation reason => exact ⟨'i', head?_append _ (by decide), by decide⟩
  | exponentExhausted => exact ⟨'e', by decide, by decide⟩

/-- No message of a condition is the text of a decimal. -/
theorem Condition.message_ne_canonical (condition : Condition) (d : Decimal) :
    condition.message ≠ d.canonical := by
  obtain ⟨c, message, letter⟩ := message_head condition
  obtain ⟨c', text, digit⟩ := canonical_head d
  intro same
  rw [same, text] at message
  obtain rfl := Option.some.inj message
  rcases digit with rfl | digit
  · revert letter
    decide
  · simp only [List.mem_cons, List.not_mem_nil, or_false] at letter
    rcases letter with rfl | rfl | rfl | rfl <;> revert digit <;> decide

/-- Where a literal is longer than the precision it is read at, a value shorter than that precision
differs from what is read and from what the literal denotes. -/
theorem Decimal.canonical_eq_canonical_round_iff {value exact : Decimal} {precision : Nat}
    (mode : RoundingMode) (fits : exact.PlacesFit) (short : value.digits < precision ∨ precision = 0) :
    value.canonical = (exact.round precision mode).stored.canonical ↔ value = exact := by
  by_cases whole : precision = 0 ∨ exact.digits ≤ precision
  · have kept : exact.round precision mode = exact := by rw [Decimal.round, if_pos whole]
    rw [kept, Decimal.stored_eq_of_placesFit fits]
    exact ⟨Decimal.eq_of_canonical_eq fits, congrArg _⟩
  · have longer : value.digits < precision := by omega
    have length : (exact.round precision mode).digits = precision :=
      Decimal.digits_round_of_lt mode (by omega) (by omega)
    constructor
    · intro same
      have coefficient := Decimal.coefficient_eq_of_canonical_eq same
      simp only [Decimal.stored] at coefficient
      rw [Decimal.digits, ← coefficient] at length
      exact absurd length longer.ne
    · rintro rfl
      omega

/-- The compared texts are equal exactly if the answer is a value with the expected text. -/
theorem Comparison.computed_eq_iff {name : String} {answer : Except Condition Decimal}
    {expected : Decimal} :
    (Comparison.mk name (answer.map Decimal.canonical) expected.canonical).computed =
        expected.canonical ↔ ∃ value, answer = .ok value ∧ value.canonical = expected.canonical := by
  cases answer with
  | error condition =>
    have differs := condition.message_ne_canonical expected
    simpa [Comparison.computed, Except.map] using differs
  | ok value => simp [Comparison.computed, Except.map]

namespace Harness

/-- The digits of a final value where results are rounded. -/
theorem digits_calculate_le {internal : Nat} {context : Context} {operation : Operation}
    {operands : List Decimal} {value : Decimal} (positive : 0 < context.precision)
    (h : ((standard .fixed internal).calculate context operation operands).answer = .ok value) :
    value.digits ≤ context.precision := by
  rw [answer_calculate_of_roundResult _ rfl] at h
  cases done : (operation.apply (standard .fixed internal).engine operands
      { context with precision := (standard .fixed internal).internalPrecision }).answer with
  | error condition =>
    rw [done] at h
    cases h
  | ok wide =>
    rw [done] at h
    obtain rfl := Except.ok.inj h
    exact wide.digits_round_le context.rounding positive

/-- A test that is scored passes exactly if the operation gave a value and that value is the
decimal which the expected literal denotes, coefficient and exponent.  Where literals are rounded as
they are read, the precision of the session has to stay below the working precision. -/
theorem passed_iff_value_eq_expected {dialect : Dialect} {internal : Nat} {session : Session}
    {text : String} {verdict : Verdict}
    (working : dialect = .fixed → 0 < session.precision ∧ session.precision < internal)
    (evaluated : ((standard dialect internal).evaluate session text).answer = .ok verdict)
    (scored : ∀ reason, verdict.outcome session text ≠ .skipped reason) :
    ∃ problem operands expected,
      Plan.ofLine dialect session text = .ok (.solve problem) ∧
      ((standard dialect internal).parseLiterals problem.operands).answer = .ok operands ∧
      (Engine.standard internal).parse problem.expected 0 = .ok expected ∧
      (expected.PlacesFit →
        (verdict.outcome session text = .passed ↔
          ((standard dialect internal).calculate session.context problem.operation operands).answer
            = .ok expected)) ∧
      ∀ (condition : Condition) (value : Decimal),
        condition.message ≠ (Engine.standard internal).render value := by
  cases verdict with
  | skipped reason => exact absurd rfl (scored reason)
  | compared comparison =>
    obtain ⟨problem, plan, solved⟩ := (answer_evaluate_eq_compared _).mp evaluated
    obtain ⟨operands, rounded, read, readExpected, rfl⟩ := (answer_solve_eq_ok _).mp solved
    obtain ⟨expected, exact, rfl⟩ := Engine.readLiteral_eq_ok readExpected
    refine ⟨problem, operands, expected, plan, read, exact, ?_,
      fun condition value => condition.message_ne_canonical value⟩
    intro fits
    rw [Verdict.outcome_eq_passed_iff]
    refine Comparison.computed_eq_iff.trans ?_
    have same : ∀ value,
        ((standard dialect internal).calculate session.context problem.operation operands).answer =
          .ok value →
        (value.canonical = (expected.round (standard dialect internal).readingPrecision
          .nearestEven).stored.canonical ↔ value = expected) := by
      intro value done
      refine Decimal.canonical_eq_canonical_round_iff .nearestEven fits ?_
      cases dialect with
      | fixed =>
        obtain ⟨positive, below⟩ := working rfl
        exact .inl ((digits_calculate_le positive done).trans_lt below)
      | varying => exact .inr rfl
    constructor
    · rintro ⟨value, done, equal⟩
      rw [done, (same value done).mp equal]
    · intro done
      exact ⟨expected, done, (same expected done).mpr rfl⟩

/-- The sum keeps the trailing zero of an operand, and so does the expected literal. -/
theorem passed_iff_value_eq_expected_trailing_zero :
    (Verdict.compared ⟨"t", .ok "3.00", "3.00"⟩).outcome (.start 9 .nearestEven)
        "t add '1.5' '1.50' -> '3.00'" = .passed ∧
      ((standard .fixed 34).calculate ⟨9, .nearestEven⟩ (.binary .add)
        [⟨15, -1⟩, ⟨150, -2⟩]).answer = .ok ⟨300, -2⟩ := by
  have evaluated : ((standard .fixed 34).evaluate (.start 9 .nearestEven)
      "t add '1.5' '1.50' -> '3.00'").answer = .ok (.compared ⟨"t", .ok "3.00", "3.00"⟩) := rfl
  have passed : (Verdict.compared ⟨"t", .ok "3.00", "3.00"⟩).outcome (.start 9 .nearestEven)
      "t add '1.5' '1.50' -> '3.00'" = .passed := by decide
  obtain ⟨problem, operands, expected, plan, read, exact, decision, -⟩ :=
    passed_iff_value_eq_expected (fun _ => by decide) evaluated (by simp [passed])
  obtain rfl : (⟨"t", .binary .add, ["1.5", "1.50"], "3.00"⟩ : Problem) = problem :=
    Plan.solve.inj (Except.ok.inj plan)
  obtain rfl : [⟨15, -1⟩, ⟨150, -2⟩] = operands := Except.ok.inj read
  obtain rfl : (⟨300, -2⟩ : Decimal) = expected := Except.ok.inj exact
  exact ⟨passed, (decision ⟨by decide, by decide⟩).mp passed⟩

end Harness
end DecimalConformance
