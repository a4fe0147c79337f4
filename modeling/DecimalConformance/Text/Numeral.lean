/-! Unsigned numerals in ASCII digits with an upper bound. -/
namespace DecimalConformance.Text

/-- The value of an ASCII digit. -/
def digitValue? (c : Char) : Option Nat :=
  if '0' ≤ c ∧ c ≤ '9' then some (c.toNat - '0'.toNat) else none

/-- Why a numeral is refused. -/
inductive NumeralFlaw where
  | notDigit
  | aboveBound
  deriving DecidableEq, Repr

/-- Reads digits behind the value read so far; from left to right the first flaw counts. -/
def readDigits (bound : Nat) (value : Nat) : List Char → Except NumeralFlaw Nat
  | [] => .ok value
  | c :: rest =>
    match digitValue? c with
    | none => .error .notDigit
    | some digit =>
      if value * 10 + digit ≤ bound then readDigits bound (value * 10 + digit) rest
      else .error .aboveBound

/-- Reads one digit or more; none at all is no numeral either. -/
def readNumeral (bound : Nat) : List Char → Except NumeralFlaw Nat
  | [] => .error .notDigit
  | cs => readDigits bound 0 cs

/-- Reads a natural number up to `bound`, which may carry a plus sign. -/
def natural? (bound : Nat) (s : String) : Option Nat :=
  let digits := match s.toList with
    | '+' :: rest => rest
    | cs => cs
  (readNumeral bound digits).toOption

end DecimalConformance.Text
