/-! Finite decimals: an integral coefficient times a power of ten.
Trailing zeros of a coefficient are significant, so one value has many decimals.
Exponents live in signed words of 64 bits; sums of exponents saturate at the ends. -/
namespace DecimalConformance

/-- The decimal `coefficient * 10 ^ exponent`. -/
structure Decimal where
  coefficient : Int
  exponent : Int
  deriving DecidableEq, Repr, Inhabited

namespace Decimal

/-- The largest exponent. -/
def exponentMax : Int := 9223372036854775807

/-- The smallest exponent that a step of a calculation may pass through. -/
def exponentMin : Int := -9223372036854775808

/-- The largest precision. -/
def precisionMax : Nat := 4294967295

/-- Both ends of the range are exponents. -/
abbrev ExponentFits (e : Int) : Prop := exponentMin ≤ e ∧ e ≤ exponentMax

/-- The exponent nearest to `e`. -/
def saturate (e : Int) : Int := max exponentMin (min exponentMax e)

section Powers

variable {m : Type → Type} [Monad m]

/-- The least width from `width` on, within `steps`, whose power of ten exceeds `n`, with powers of
ten as they are given. -/
@[specialize] def widthFromBy (power : Nat → m Nat) (n : Nat) : (steps width : Nat) → m Nat
  | 0, width => pure width
  | steps + 1, width => do
    if n < (← power width) then return width else widthFromBy power n steps (width + 1)

/-- How many decimal digits `n` has, with powers of ten as they are given; zero has one.  The search
starts just below the binary length times the logarithm of two, which a convergent of it bounds from
below. -/
@[specialize] def digitCountBy (power : Nat → m Nat) (n : Nat) : m Nat := do
  let estimate := n.log2 * 643 / 2136
  widthFromBy power n (n.log2 + 1) (if (← power estimate) ≤ n then estimate + 1 else 1)

end Powers

/-- Every power of ten. -/
def anyPower (n : Nat) : Id Nat := Nat.pow 10 n

def widthFrom (n steps width : Nat) : Nat := (widthFromBy anyPower n steps width).run

theorem widthFrom_zero (n width : Nat) : widthFrom n 0 width = width := rfl

theorem widthFrom_succ (n steps width : Nat) :
    widthFrom n (steps + 1) width =
      if n < Nat.pow 10 width then width else widthFrom n steps (width + 1) := rfl

/-- How many decimal digits `n` has. -/
def digitCount (n : Nat) : Nat := (digitCountBy anyPower n).run

theorem digitCount_def (n : Nat) :
    digitCount n = widthFrom n (n.log2 + 1)
      (if Nat.pow 10 (n.log2 * 643 / 2136) ≤ n then n.log2 * 643 / 2136 + 1 else 1) := rfl

def one : Decimal := ⟨1, 0⟩

/-- The digits of the coefficient, its sign left out. -/
def digits (d : Decimal) : Nat := digitCount d.coefficient.natAbs

/-- The exponent of the leading digit. -/
def adjusted (d : Decimal) : Int := saturate (d.exponent + d.digits) - 1

def isZero (d : Decimal) : Bool := d.coefficient == 0

def isNegative (d : Decimal) : Bool := decide (d.coefficient < 0)

def abs (d : Decimal) : Decimal := ⟨d.coefficient.natAbs, d.exponent⟩

def neg (d : Decimal) : Decimal := ⟨-d.coefficient, d.exponent⟩

/-- Storage negates the exponent, so the smallest word is not the exponent of a stored decimal. -/
def stored (d : Decimal) : Decimal :=
  ⟨d.coefficient, max (-exponentMax) (min exponentMax d.exponent)⟩

end Decimal
end DecimalConformance
