import DecimalConformance.Decimal.Digits

/-! The canonical text of a decimal.
Coefficient and exponent can both be read back from it: positional notation for exponents that
are not positive and leading digits down to the sixth place, a power of ten otherwise. -/
namespace DecimalConformance.Decimal

section Text

variable {m : Type → Type} [Monad m] (step : Int → m Int)

/-- The leading digit of so many has the place with this exponent in the canonical text. -/
def leadingPlaceBy (exponent length : Int) : m Int := do
  return saturate (exponent + (← step (length - 1)))

/-- Positional notation; the point stands `-exponent` digits from the right. -/
def positionalBy (exponent length : Int) (digits : List Char) : m (List Char) := do
  if exponent = 0 then return digits
  else
    let point ← step (length + exponent)
    if 0 < point then return digits.take point.toNat ++ '.' :: digits.drop point.toNat
    else return '0' :: '.' :: (List.replicate (← step (-point)).toNat '0' ++ digits)

/-- One digit before the point, the rest behind it, and a signed power of ten. -/
def scaled (place : Int) (digits : List Char) : List Char :=
  let fraction := digits.drop 1
  digits.take 1 ++ (if fraction.isEmpty then [] else '.' :: fraction) ++
    'E' :: (if place < 0 then '-' else '+') :: Nat.toDigits 10 place.natAbs

/-- The text of digits at an exponent; `length` is their number. -/
def unsignedCharsBy (exponent length : Int) (digits : List Char) : m (List Char) := do
  let place ← leadingPlaceBy step exponent length
  if exponent ≤ 0 ∧ -6 ≤ place then positionalBy step exponent length digits
  else return scaled place digits

/-- The characters of the canonical text; `word` holds the number of digits. -/
def canonicalCharsBy (word : Nat → Int) (d : Decimal) : m (List Char) := do
  let digits := digitsOf d.coefficient.natAbs
  let body ← unsignedCharsBy step d.exponent (word digits.length) digits
  return if d.coefficient < 0 then '-' :: body else body

end Text

def leadingPlace (exponent : Int) (digits : List Char) : Int :=
  (leadingPlaceBy pure exponent digits.length : Id Int).run

theorem leadingPlace_def (exponent : Int) (digits : List Char) :
    leadingPlace exponent digits = saturate (exponent + (digits.length - 1)) := rfl

def positional (exponent : Int) (digits : List Char) : List Char :=
  (positionalBy pure exponent digits.length digits : Id (List Char)).run

def canonicalChars (d : Decimal) : List Char := (canonicalCharsBy pure Nat.cast d : Id (List Char)).run

/-- The canonical text. -/
def canonical (d : Decimal) : String := String.ofList d.canonicalChars

end DecimalConformance.Decimal
