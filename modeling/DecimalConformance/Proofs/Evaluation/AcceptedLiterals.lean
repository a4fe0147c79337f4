import DecimalConformance.Proofs.Decimal.NumericString
import DecimalConformance.Proofs.Evaluation.Calls
import DecimalConformance.Run

/-! Which texts pass for numbers.
The engine reads every numeric string whose exponent it can hold, and what it reads beside them shows
an underscore or a point before its sign.  A test line with any other literal ends the run. -/
namespace DecimalConformance

namespace Harness

variable {Value : Type} (harness : Harness Value)

/-- A test with a literal that is refused ends the run; the first such literal is reported. -/
theorem fault_processTest_of_refused {state : RunState} {line : String} {problem : Problem}
    {literal : String}
    (planned : Plan.ofLine harness.dialect state.session line = .ok (.solve problem))
    (mem : literal ∈ problem.literals)
    (refused : ∀ value, harness.engine.parse literal harness.readingPrecision ≠ .ok value) :
    ∃ first ∈ problem.literals, ∃ condition,
      harness.engine.parse first harness.readingPrecision = .error condition ∧
      (harness.processTest state line).fault? =
        some (.plain (.unparsableOperand first condition.refusal)) := by
  rcases harness.solve_cases state.session.context problem with
    ⟨values, expected, comparison, operands, last, -, -⟩ | ⟨fault, failed, stops⟩
  · rcases List.mem_append.mp mem with operand | isLast
    · obtain ⟨value, read⟩ := exists_reads_of_forall₂ operands literal operand
      exact absurd read (refused value)
    · obtain rfl := List.mem_singleton.mp isLast
      exact absurd last (refused expected)
  · obtain ⟨before, first, behind, condition, split, -, stopped, rfl, -⟩ := stops
    have answer : (harness.evaluate state.session line).answer =
        .error (.plain (.unparsableOperand first condition.refusal)) := by
      simp [evaluate, planned, failed]
    refine ⟨first, by rw [split]; simp, condition, stopped, ?_⟩
    simp only [processTest, answer]

open Decimal

/-- Exactly the loose literals within their words are read, at every precision.  Among them are the
numeric strings, each as the number that it denotes, with the largest exponent for one beyond it; the
others show an underscore or a sign behind a leading point.  What is not read is refused as such, and
ends the run that comes upon it. -/
theorem parse_standard (dialect : Dialect) (internal : Nat) (text : String) (precision : Nat) :
    (∀ value, (Engine.standard internal).parse text precision = .ok value ↔
      ∃ l : LooseLiteral, l.text = text ∧ l.Readable ∧
        value = (Decimal.round ⟨l.coefficient, min exponentMax l.exponent⟩ precision
          .nearestEven).stored) ∧
    (∀ value, (Engine.standard internal).parse text precision = .ok value →
      ((∃ n : NumericString, n.text = text) ↔
        '_' ∉ text.toList ∧ ¬ PointBeforeSign text.toList)) ∧
    (∀ (n : NumericString) (value : Decimal), n.text = text →
      (Engine.standard internal).parse text 0 = .ok value →
        n.exponent ≤ exponentMax + 1 ∧ value = ⟨n.coefficient, min exponentMax n.exponent⟩) ∧
    ((∀ value, (Engine.standard internal).parse text precision ≠ .ok value) →
      (∃ reason, (Engine.standard internal).parse text precision =
        .error (.unreadable text reason)) ∧
      ∀ (state : RunState) (line : String) (problem : Problem),
        Plan.ofLine dialect state.session line = .ok (.solve problem) → text ∈ problem.literals →
          ∃ first ∈ problem.literals, ∃ reason,
            (Engine.standard internal).parse first 0 = .error (.unreadable first reason) ∧
            ((standard dialect internal).processTest state line).fault? =
              some (.plain (.unparsableOperand first reason))) := by
  simp only [Engine.standard_parse]
  refine ⟨fun value => Engine.readLiteral_eq_ok_iff, ?_, ?_, ?_⟩
  · intro value read
    obtain ⟨l, rfl, -⟩ := Engine.readLiteral_eq_ok_iff.mp read
    rw [LooseLiteral.text, String.toList_ofList]
    exact l.exists_numericString_iff
  · rintro n value rfl read
    exact Engine.readLiteral_numericString n read
  · intro refused
    obtain ⟨reason, everywhere⟩ := Engine.readLiteral_of_ne_ok refused
    refine ⟨⟨reason, everywhere precision⟩, fun state line problem planned mem => ?_⟩
    have refused' : ∀ value, (standard dialect internal).engine.parse text
        (standard dialect internal).readingPrecision ≠ .ok value := by
      intro value read
      rw [engine_standard, Engine.standard_parse, everywhere] at read
      cases read
    obtain ⟨first, inside, condition, stopped, fault⟩ :=
      (standard dialect internal).fault_processTest_of_refused planned mem refused'
    rw [engine_standard, Engine.standard_parse] at stopped
    have noValue : ∀ value, Engine.readLiteral first (standard dialect internal).readingPrecision ≠
        .ok value := by
      intro value read
      rw [stopped] at read
      cases read
    obtain ⟨flaw, always⟩ := Engine.readLiteral_of_ne_ok noValue
    obtain rfl : condition = .unreadable first flaw :=
      Except.error.inj (stopped.symm.trans (always _))
    exact ⟨first, inside, flaw, always 0, fault⟩

/-- A sign behind a leading point is taken for the sign of the number, and counts as a place. -/
theorem parse_point_before_sign :
    (Engine.standard 34).parse ".-5" 0 = .ok ⟨-5, -2⟩ ∧ ¬ ∃ n : NumericString, n.text = ".-5" := by
  refine ⟨by decide, ?_⟩
  rintro ⟨n, same⟩
  apply n.not_pointBeforeSign
  rw [← String.toList_ofList (l := n.chars)]
  show PointBeforeSign n.text.toList
  rw [same]
  exact ⟨'-', ['5'], .inr rfl, by decide⟩

end Harness
end DecimalConformance
