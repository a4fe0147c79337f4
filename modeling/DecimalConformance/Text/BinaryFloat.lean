/-! Binary floating-point numbers of 64 bits, exactly: the number nearest to a decimal, and the
text with the fewest digits that reads back as it. -/
namespace DecimalConformance.Text

/-- The magnitude `significand * 2 ^ exponent`, below `2 ^ 53` units of at least `2 ^ -1074`. -/
structure BinaryFloat where
  significand : Nat
  exponent : Int
  deriving DecidableEq, Repr

namespace BinaryFloat

/-- `n * base ^ e` as a fraction. -/
def scaleBy (base n : Nat) (e : Int) : Nat × Nat := (n * Nat.pow base e.toNat, Nat.pow base (-e).toNat)

/-- The quotient rounded to the nearest integer, a half to the even one. -/
def roundHalfEven (n divisor : Nat) : Nat :=
  let quotient := n / divisor
  let twice := 2 * (n % divisor)
  if divisor < twice ∨ (twice = divisor ∧ quotient % 2 = 1) then quotient + 1 else quotient

/-- The first binary exponent from `exponent` on, within `steps`, at which the fraction has a
significand of at most 53 bits. -/
def fitExponent (numerator denominator : Nat) : (steps : Nat) → Int → Int
  | 0, exponent => exponent
  | steps + 1, exponent =>
    if numerator * Nat.pow 2 (-exponent).toNat / (denominator * Nat.pow 2 exponent.toNat) < Nat.pow 2 53 then exponent
    else fitExponent numerator denominator steps (exponent + 1)

/-- The number nearest to the decimal `n * 10 ^ e`; none if that is too large. -/
def nearest? (n : Nat) (e : Int) : Option BinaryFloat :=
  let width := ((Nat.toDigits 10 n).length : Int) + e
  if n = 0 ∨ width < -330 then some ⟨0, -1074⟩
  else if 310 < width then none
  else
    let (numerator, denominator) := scaleBy 10 n e
    let start := max (-1074) ((numerator.log2 : Int) - denominator.log2 - 53)
    let exponent := fitExponent numerator denominator 4 start
    let significand :=
      roundHalfEven (numerator * Nat.pow 2 (-exponent).toNat) (denominator * Nat.pow 2 exponent.toNat)
    if Nat.pow 2 1024 ≤ significand * Nat.pow 2 exponent.toNat then none
    else if significand = Nat.pow 2 53 then some ⟨Nat.pow 2 52, exponent + 1⟩
    else some ⟨significand, exponent⟩

/-- Whether `c * 10 ^ k` reads back as the number: it lies within half a gap, ends included where
the significand is even.  The gap below a power of two is half as wide. -/
def readsBack (x : BinaryFloat) (c : Nat) (k : Int) : Bool :=
  let center := 4 * x.significand
  let below := if x.significand = Nat.pow 2 52 ∧ -1074 < x.exponent then 1 else 2
  let unit := x.exponent - 2
  let point := c * Nat.pow 10 k.toNat * Nat.pow 2 (-unit).toNat
  let measure (n : Nat) := n * Nat.pow 2 unit.toNat * Nat.pow 10 (-k).toNat
  if x.significand % 2 = 0 then measure (center - below) ≤ point && point ≤ measure (center + 2)
  else measure (center - below) < point && point < measure (center + 2)

/-- The neighbours of the number among the multiples of `10 ^ k` that read back as it, the
nearer one if both do. -/
def onGrid? (x : BinaryFloat) (k : Int) : Option Nat :=
  let numerator := x.significand * Nat.pow 2 x.exponent.toNat * Nat.pow 10 (-k).toNat
  let denominator := Nat.pow 2 (-x.exponent).toNat * Nat.pow 10 k.toNat
  let low := numerator / denominator
  let nearer := roundHalfEven numerator denominator
  let other := if nearer = low then low + 1 else low
  if x.readsBack nearer k then some nearer
  else if x.readsBack other k then some other
  else none

/-- The first grid, from the one with unit `10 ^ k` on to finer ones, with a number that reads back. -/
def shortestFrom (x : BinaryFloat) : (steps : Nat) → (k : Int) → Nat × Int
  | 0, k => (x.significand, k)
  | steps + 1, k =>
    match x.onGrid? k with
    | some c => if c = 0 then shortestFrom x steps (k - 1) else (c, k)
    | none => shortestFrom x steps (k - 1)

/-- The decimal with the fewest digits that reads back as the number. -/
def shortest (x : BinaryFloat) : Nat × Int :=
  let (numerator, denominator) := scaleBy 2 x.significand x.exponent
  let width := ((Nat.toDigits 10 (numerator / denominator)).length : Int)
  x.shortestFrom 400 (if numerator / denominator = 0 then 0 else width)

/-- Drops zeros from the end of a decimal. -/
def stripZeros : (steps c : Nat) → (k : Int) → Nat × Int
  | 0, c, k => (c, k)
  | steps + 1, c, k =>
    if c ≠ 0 ∧ c % 10 = 0 then stripZeros steps (c / 10) (k + 1) else (c, k)

/-- Positional notation with a point for sixteen places before it and four zeros behind it, a
power of ten otherwise. -/
def layout (digits : List Char) (k : Int) : List Char :=
  let point := digits.length + k
  if 0 ≤ k ∧ point ≤ 16 then digits ++ List.replicate k.toNat '0' ++ ['.', '0']
  else if 0 < point ∧ point ≤ 16 then
    digits.take point.toNat ++ '.' :: digits.drop point.toNat
  else if -5 < point ∧ point ≤ 0 then
    '0' :: '.' :: (List.replicate (-point).toNat '0' ++ digits)
  else
    let fraction := digits.drop 1
    let power := (toString (point - 1)).toList
    digits.take 1 ++ (if fraction.isEmpty then [] else '.' :: fraction) ++ 'e' :: power

/-- The text with the fewest digits. -/
def text (x : BinaryFloat) : String :=
  if x.significand = 0 then "0.0"
  else
    let (c, k) := x.shortest
    let (c, k) := stripZeros 400 c k
    String.ofList (layout (Nat.toDigits 10 c) k)

end BinaryFloat
end DecimalConformance.Text
