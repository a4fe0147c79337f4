import DecimalConformance.Dialect
import DecimalConformance.Text.Numeral

/-! Lines of a script: how they are told apart, and what the two directives say.
The tests run in a fixed order, so a keyword is never taken for the name of a test. -/
namespace DecimalConformance.Script

/-- The kind of a line that is trimmed and in lower case. -/
inductive Line where
  | blank
  | comment
  /-- A directive without effect, by its keyword. -/
  | ignored (keyword : String)
  | precision (text : String)
  | rounding (text : String)
  | test (text : String)
  deriving DecidableEq, Repr

/-- Directives that an engine without limits on exponents has no use for. -/
def ignoredKeywords : List String := ["version", "extended", "maxexponent", "minexponent"]

/-- The kind of a line, by what it starts with. -/
def classify (line : String) : Line :=
  if line.isEmpty then .blank
  else if Text.startsWith "--" line then .comment
  else match ignoredKeywords.find? (Text.startsWith · line) with
    | some keyword => .ignored keyword
    | none =>
      if Text.startsWith "precision" line then .precision line
      else if Text.startsWith "rounding" line then .rounding line
      else .test line

/-- A raw line as the classification expects it. -/
def normalize (raw : String) : String := Text.lowercase (Text.trim raw)

/-- What follows the keyword and its colon, trimmed; a line without them is taken whole. -/
def directiveValue (keyword line : String) : String :=
  Text.trim ((Text.after? keyword line).getD line)

/-- The largest number that a precision directive may give. -/
def writtenPrecisionMax : Nat := Nat.pow 2 64 - 1

/-- The precision that a directive sets: its first field, cut to the largest precision. -/
def parsePrecision (line : String) : Except Fault Nat :=
  let value := ((Text.fields (directiveValue "precision:" line)).head?).getD ""
  match Text.natural? writtenPrecisionMax value with
  | some n => .ok (min n Decimal.precisionMax)
  | none => .error (.plain (.invalidPrecision value))

/-- The token of a rounding directive and its meaning. -/
def parseRounding (dialect : Dialect) (line : String) :
    Except Fault (String × RoundingDirective) :=
  let token := directiveValue "rounding:" line
  match dialect.rounding? token with
  | some directive => .ok (token, directive)
  | none => .error (.plain (.invalidRounding token))

end DecimalConformance.Script
