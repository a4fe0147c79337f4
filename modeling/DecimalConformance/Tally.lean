/-! What becomes of test lines: outcomes, failure records and their counts. -/
namespace DecimalConformance

/-- Why a test is counted as skipped. -/
inductive SkipReason where
  | unsupportedRounding
  | operandSentinel
  | expectedSentinel
  | unknownOperator
  deriving DecidableEq, Repr

def SkipReason.text : SkipReason → String
  | unsupportedRounding => "unsupported rounding mode"
  | operandSentinel => "operand sentinel"
  | expectedSentinel => "expected-value sentinel"
  | unknownOperator => "unknown operator"

/-- A computed value that differs from the expected one. -/
structure FailureRecord where
  name : String
  /-- The whole test line, trimmed and in lower case. -/
  line : String
  computed : String
  expected : String
  precision : Nat
  /-- The rounding token as the script declared it. -/
  rounding : String
  deriving DecidableEq, Repr

/-- What became of one test line. -/
inductive Outcome where
  | passed
  | failed (record : FailureRecord)
  | skipped (reason : SkipReason)
  deriving DecidableEq, Repr

/-- How many tests were begun, and how they ended.  A fault leaves a test begun and not ended. -/
structure Counters where
  total : Nat
  succeeded : Nat
  failed : Nat
  skipped : Nat
  deriving DecidableEq, Repr

namespace Counters

def zero : Counters := ⟨0, 0, 0, 0⟩

def begin (counters : Counters) : Counters := { counters with total := counters.total + 1 }

def record (counters : Counters) : Outcome → Counters
  | .passed => { counters with succeeded := counters.succeeded + 1 }
  | .failed _ => { counters with failed := counters.failed + 1 }
  | .skipped _ => { counters with skipped := counters.skipped + 1 }

/-- Whether every test begun has ended. -/
def isBalanced (counters : Counters) : Bool :=
  counters.total == counters.succeeded + counters.failed + counters.skipped

/-- A test that is begun and ended keeps the balance. -/
theorem isBalanced_begin_record (counters : Counters) (outcome : Outcome) :
    (counters.begin.record outcome).isBalanced = counters.isBalanced := by
  rw [Bool.eq_iff_iff]
  cases outcome <;> simp only [begin, record, isBalanced, beq_iff_eq] <;> omega

end Counters
end DecimalConformance
