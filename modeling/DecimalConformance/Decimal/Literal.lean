import DecimalConformance.Decimal.Basic
import DecimalConformance.Text.Blank
import DecimalConformance.Text.Numeral

/-! Reading decimal literals.
A literal is an optionally signed run of digits with at most one point, and an exponent after
the first letter E.  Trailing zeros are kept.  Underscores may group digits behind the first. -/
namespace DecimalConformance.Decimal

/-- Why a literal is not a decimal number. -/
inductive Flaw where
  | emptyLiteral
  | embeddedBlank
  | noMantissa
  | noDigits
  | notDigit
  | exponentTooLarge
  | exponentTooSmall
  /-- The places behind the point less the exponent leave the range of exponents. -/
  | exponentOutOfRange (literal : String)
  deriving DecidableEq, Repr

/-- The text that explains a flaw. -/
def Flaw.reason : Flaw → String
  | .emptyLiteral => "empty literal"
  | .embeddedBlank => "embedded whitespace"
  | .noMantissa => "Failed to parse empty string"
  | .noDigits => "cannot parse integer from empty string"
  | .notDigit => "invalid digit found in string"
  | .exponentTooLarge => "number too large to fit in target type"
  | .exponentTooSmall => "number too small to fit in target type"
  | .exponentOutOfRange literal => s!"Exponent overflow when parsing '{literal}'"

/-- The parts of a literal before and behind the first letter E. -/
def splitExponent (cs : List Char) : List Char × Option (List Char) :=
  let isMark := fun c => c == 'e' || c == 'E'
  match cs.dropWhile (!isMark ·) with
  | [] => (cs, none)
  | _ :: exponent => (cs.takeWhile (!isMark ·), some exponent)

/-- The magnitude that a written exponent may have; one more below zero. -/
def writtenExponentMax : Nat := Nat.pow 2 127 - 1

/-- Reads the characters behind the letter E. -/
def readExponent (cs : List Char) : Except Flaw Int :=
  let read (bound : Nat) (tooLong : Flaw) (digits : List Char) : Except Flaw Nat :=
    match Text.readNumeral bound digits with
    | .ok n => .ok n
    | .error .aboveBound => .error tooLong
    | .error _ => .error .notDigit
  match cs with
  | [] => .error .noDigits
  | '-' :: digits => (read (writtenExponentMax + 1) .exponentTooSmall digits).map fun n => -(n : Int)
  | '+' :: digits => (read writtenExponentMax .exponentTooLarge digits).map fun n => (n : Int)
  | digits => (read writtenExponentMax .exponentTooLarge digits).map fun n => (n : Int)

/-- The characters of a mantissa without its first point, and how many places it has. -/
def splitPoint (cs : List Char) : List Char × Nat :=
  match cs.dropWhile (· != '.') with
  | [] => (cs, 0)
  | _ :: places => (cs.takeWhile (· != '.') ++ places, (places.filter (· != '_')).length)

/-- The value of a run of digits and underscores. -/
def groupedValue (cs : List Char) : Option Nat :=
  cs.foldlM (fun value c => if c = '_' then some value
    else (Text.digitValue? c).map (value * 10 + ·)) 0

/-- Reads digits with underscores behind the first. -/
def readGrouped (cs : List Char) : Except Flaw Nat :=
  match cs with
  | [] => .error .noDigits
  | '_' :: _ => .error .notDigit
  | _ => (groupedValue cs).elim (.error .notDigit) .ok

/-- Reads an optionally signed run of digits. -/
def readCoefficient (cs : List Char) : Except Flaw Int :=
  match cs with
  | '-' :: digits => (readGrouped digits).map fun n => -(n : Int)
  | '+' :: digits => (readGrouped digits).map fun n => (n : Int)
  | digits => (readGrouped digits).map fun n => (n : Int)

/-- Reads the characters of a literal that is neither empty nor blank in places. -/
def readNumber (cs : List Char) : Except Flaw Decimal := do
  let (mantissa, written) := splitExponent cs
  let exponent ← written.elim (.ok 0) readExponent
  if mantissa.isEmpty then .error .noMantissa
  let (digits, places) := splitPoint mantissa
  let scale := places - exponent
  if ¬ ExponentFits scale then .error (.exponentOutOfRange (String.ofList cs))
  let coefficient ← readCoefficient digits
  return ⟨coefficient, min exponentMax (-scale)⟩

/-- Reads a literal exactly. -/
def ofLiteral (literal : String) : Except Flaw Decimal :=
  let cs := literal.toList
  if cs.isEmpty then .error .emptyLiteral
  else if cs.any Text.isBlank then .error .embeddedBlank
  else readNumber cs

end DecimalConformance.Decimal
