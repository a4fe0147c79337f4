import DecimalConformance.Proofs.Run.Ledger

/-! What a line may change.
A line that raises a fault leaves session, failures and the tests that have ended as they were; a test
is begun before it can fail.  An accepted line changes its own part.  So a run may go on behind a
fault: a refused directive is as good as no line. -/
namespace DecimalConformance

/-- Whether a line is a directive that is refused. -/
def Script.isRefused (dialect : Dialect) (raw : String) : Bool :=
  match classify (normalize raw) with
  | .precision text => (parsePrecision text).toOption.isNone
  | .rounding text => (parseRounding dialect text).toOption.isNone
  | _ => false

namespace Harness

variable {Value : Type} (harness : Harness Value)

theorem process_of_precision (state : RunState) {raw text : String}
    (kind : Script.classify (Script.normalize raw) = .precision text) :
    (∃ fault, Script.parsePrecision text = .error fault ∧
      (harness.process state raw).fault? = some fault ∧ (harness.process state raw).state = state) ∨
    ∃ precision, Script.parsePrecision text = .ok precision ∧
      (harness.process state raw).fault? = none ∧
      (harness.process state raw).state =
        { state with session := { state.session with precision } } := by
  rw [process, kind]
  dsimp only
  cases parsed : Script.parsePrecision text with
  | error fault => exact .inl ⟨fault, rfl, rfl, rfl⟩
  | ok precision => exact .inr ⟨precision, rfl, rfl, rfl⟩

theorem process_of_rounding (state : RunState) {raw text : String}
    (kind : Script.classify (Script.normalize raw) = .rounding text) :
    (∃ fault, Script.parseRounding harness.dialect text = .error fault ∧
      (harness.process state raw).fault? = some fault ∧ (harness.process state raw).state = state) ∨
    ∃ declared directive, Script.parseRounding harness.dialect text = .ok (declared, directive) ∧
      (harness.process state raw).fault? = none ∧
      ∃ rounding skipping, (harness.process state raw).state =
        { state with session := { state.session with rounding, declared, skipping } } := by
  rw [process, kind]
  dsimp only
  cases parsed : Script.parseRounding harness.dialect text with
  | error fault => exact .inl ⟨fault, rfl, rfl, rfl⟩
  | ok declaration =>
    obtain ⟨declared, directive⟩ := declaration
    refine .inr ⟨declared, directive, rfl, rfl, ?_⟩
    cases directive with
    | mode rounding => exact ⟨rounding, false, rfl⟩
    | unsupported => exact ⟨state.session.rounding, true, rfl⟩

theorem process_of_test (state : RunState) {raw text : String}
    (kind : Script.classify (Script.normalize raw) = .test text) :
    (∃ fault, (harness.process state raw).fault? = some fault ∧
      (harness.process state raw).state = { state with counters := state.counters.begin }) ∨
    (harness.process state raw).fault? = none ∧
      (harness.process state raw).state.session = state.session := by
  rw [process, kind]
  dsimp only
  rw [processTest]
  dsimp only
  cases (harness.evaluate state.session text).answer with
  | error fault => exact .inl ⟨fault, rfl, rfl⟩
  | ok verdict => exact .inr ⟨rfl, rfl⟩

/-- A line that raises a fault is a directive or a test.  It leaves session, failures and all ended
tests alone, and begins a test exactly if it is one.  Of the lines that raise none, a test leaves the
session alone, a precision directive changes the precision alone, a rounding directive the mode, the
declared token and whether tests are skipped, and any other line nothing. -/
theorem lines_change_their_part (state : RunState) (raw : String) :
    let step := harness.process state raw
    let kind := Script.classify (Script.normalize raw)
    (∀ fault, step.fault? = some fault →
      step.state.session = state.session ∧
      step.state.failures = state.failures ∧
      step.state.counters.succeeded = state.counters.succeeded ∧
      step.state.counters.failed = state.counters.failed ∧
      step.state.counters.skipped = state.counters.skipped ∧
      ((∃ text, kind = .precision text ∨ kind = .rounding text) ∧
          step.state.counters.total = state.counters.total ∨
        (∃ text, kind = .test text) ∧
          step.state.counters.total = state.counters.total + 1)) ∧
    (step.fault? = none →
      match kind with
      | .blank | .comment | .ignored _ => step.state = state
      | .precision _ => ∃ precision,
          step.state = { state with session := { state.session with precision } }
      | .rounding _ => ∃ rounding declared skipping,
          step.state = { state with session := { state.session with rounding, declared, skipping } }
      | .test _ => step.state.session = state.session) := by
  dsimp only
  cases kind : Script.classify (Script.normalize raw) with
  | blank | comment | ignored keyword =>
    have silent : (harness.process state raw).fault? = none := by rw [process, kind]
    have same : (harness.process state raw).state = state := by rw [process, kind]
    refine ⟨fun fault raised => ?_, fun _ => same⟩
    rw [silent] at raised
    cases raised
  | precision text =>
    rcases harness.process_of_precision state kind with
      ⟨fault, -, raised, same⟩ | ⟨precision, -, silent, changed⟩
    · refine ⟨fun _ _ => ?_, fun silent => ?_⟩
      · rw [same]
        exact ⟨rfl, rfl, rfl, rfl, rfl, .inl ⟨⟨text, .inl rfl⟩, rfl⟩⟩
      · rw [raised] at silent
        cases silent
    · refine ⟨fun fault raised => ?_, fun _ => ⟨precision, changed⟩⟩
      rw [silent] at raised
      cases raised
  | rounding text =>
    rcases harness.process_of_rounding state kind with
      ⟨fault, -, raised, same⟩ | ⟨declared, -, -, silent, rounding, skipping, changed⟩
    · refine ⟨fun _ _ => ?_, fun silent => ?_⟩
      · rw [same]
        exact ⟨rfl, rfl, rfl, rfl, rfl, .inl ⟨⟨text, .inr rfl⟩, rfl⟩⟩
      · rw [raised] at silent
        cases silent
    · refine ⟨fun fault raised => ?_, fun _ => ⟨rounding, declared, skipping, changed⟩⟩
      rw [silent] at raised
      cases raised
  | test text =>
    rcases harness.process_of_test state kind with
      ⟨fault, raised, begun⟩ | ⟨silent, same⟩
    · refine ⟨fun _ _ => ?_, fun silent => ?_⟩
      · rw [begun]
        exact ⟨rfl, rfl, rfl, rfl, rfl, .inr ⟨⟨text, rfl⟩, rfl⟩⟩
      · rw [raised] at silent
        cases silent
    · refine ⟨fun fault raised => ?_, fun _ => same⟩
      rw [silent] at raised
      cases raised

/-! ## Runs that go on behind faults -/

theorem process_of_isRefused {raw : String} (refused : Script.isRefused harness.dialect raw)
    (state : RunState) : (harness.process state raw).state = state := by
  unfold Script.isRefused at refused
  split at refused
  · next text kind =>
    rcases harness.process_of_precision state kind with
      ⟨fault, -, -, same⟩ | ⟨precision, parsed, -⟩
    · exact same
    · rw [parsed] at refused
      cases refused
  · next text kind =>
    rcases harness.process_of_rounding state kind with
      ⟨fault, -, -, same⟩ | ⟨declared, directive, parsed, -⟩
    · exact same
    · rw [parsed] at refused
      cases refused
  · cases refused

/-- Lines that are fed past all faults lead to the same state without the refused directives. -/
theorem after_filter_refused (state : RunState) (lines : List String) :
    harness.after state (lines.filter fun raw => !Script.isRefused harness.dialect raw) =
      harness.after state lines := by
  induction lines generalizing state with
  | nil => rfl
  | cons raw rest ih =>
    rw [List.filter_cons, after_cons]
    by_cases refused : Script.isRefused harness.dialect raw
    · rw [harness.process_of_isRefused refused, ← ih state]
      simp [refused]
    · rw [← ih]
      simp [refused]

end Harness
end DecimalConformance
