/-! Why a decimal operation delivers no value, and the text a report shows for it. -/
namespace DecimalConformance

/-- The reason an engine gives in place of a value. -/
inductive Condition where
  /-- The literal is not a decimal number. -/
  | unreadable (literal reason : String)
  | divisionByZero
  /-- The integral part of a quotient is longer than the precision allows. -/
  | divisionImpossible
  /-- The result, or a step towards it, leaves the range of exponents. -/
  | overflow
  | invalidOperation (reason : String)
  /-- No word is left for an exponent: that of the guard digit of a quotient, or that of the power in
  a term far out in a series. -/
  | exponentExhausted
  deriving DecidableEq, Repr

/-- The text that stands where a computed value would stand. -/
def Condition.message : Condition → String
  | .unreadable literal reason => s!"invalid decimal literal '{literal}': {reason}"
  | .divisionByZero => "division by zero"
  | .divisionImpossible => "division impossible"
  | .overflow => "overflow"
  | .invalidOperation reason => s!"invalid operation: {reason}"
  | .exponentExhausted => "exponent exhausted"

end DecimalConformance
