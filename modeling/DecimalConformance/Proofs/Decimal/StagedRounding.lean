import DecimalConformance.Proofs.Decimal.RoundTwice
import DecimalConformance.Proofs.Decimal.RoundedQuotient
import DecimalConformance.Proofs.Decimal.RoundedSum

/-! Arithmetic at a wide precision with a second rounding, against arithmetic at the narrow one.
The wide result may be rounded once more wherever it was cut off or exact.  At the nearest modes
an inexact one may not: two roundings to the nearest can move a value twice. -/
namespace DecimalConformance

/-- The exact result of an operation, as far as a rational number can be. -/
def BinaryOp.exact? (x y : Decimal) : BinaryOp → Option ℚ
  | .add => some (x.value + y.value)
  | .subtract => some (x.value - y.value)
  | .multiply => some (x.value * y.value)
  | .divide => some (x.value / y.value)
  | _ => none

namespace Decimal

theorem value_neg (d : Decimal) : d.neg.value = -d.value := by
  rw [value, value, neg]
  push_cast
  ring

theorem eq_product_of_multiply {a b result : Decimal} (h : a.multiply b = .ok result) :
    result = a.product b ∧ exponentMin ≤ (a.product b).exponent := by
  unfold multiply at h
  dsimp only at h
  split at h
  · next fits => exact ⟨(Except.ok.inj h).symm, fits.1⟩
  · cases h

end Decimal

namespace Engine

open Decimal

/-- The result of an operation before it is stored. -/
def unstored (internal : Nat) (operation : BinaryOp) (x y : Decimal) (context : Context) :
    Except Condition Decimal :=
  let precision := inexactPrecision internal context
  let round := fun d : Decimal => d.round context.precision context.rounding
  match operation with
  | .add => (x.add y context.precision).map round
  | .subtract => (x.add y.neg context.precision).map round
  | .multiply => (x.multiply y).map round
  | .divide => x.divide y precision context.rounding
  | .power => x.power y precision context.rounding
  | .remainder => (x.remainder y context.precision).map round
  | .max => .ok (round (x.greater y))
  | .min => .ok (round (x.lesser y))
  | .compare => .ok (orderValue (x.compare y))

private theorem map_finish (result : Except Condition Decimal) (context : Context) :
    result.map (finish · context) =
      (result.map fun d => d.round context.precision context.rounding).map stored := by
  cases result <;> rfl

/-- Every result is stored in the end. -/
theorem calculateBinary_eq_map_stored (internal : Nat) (operation : BinaryOp) (x y : Decimal)
    (context : Context) : calculateBinary internal operation x y context =
      (unstored internal operation x y context).map stored := by
  cases operation with
  | add | subtract | remainder => exact map_finish _ context
  | multiply => exact (calculateBinary_multiply internal x y context).trans (map_finish _ context)
  | divide | power => rfl
  | max => exact calculateBinary_max internal x y context
  | min => exact calculateBinary_min internal x y context
  | compare =>
    rw [calculateBinary_compare, unstored]
    cases x.compare y <;> rfl

variable {internal p q : Nat} {operation : BinaryOp} {x y wide narrow : Decimal} {exact : ℚ}
  {mode : RoundingMode}

/-- Two results are roundings of one decimal, and that is exact where the wider of them is. -/
structure Stages (d : Decimal) (exact : ℚ) (mode : RoundingMode) (p q : Nat)
    (narrow wide : Decimal) : Prop where
  narrow_eq : narrow = d.round p mode
  wide_eq : wide = d.round q mode
  least : exponentMin ≤ d.exponent
  exact_of_wide : wide.value = exact → d.value = exact

theorem Stages.round_eq {d : Decimal} (h : Stages d exact mode p q narrow wide) (positive : 0 < p)
    (le : p ≤ q) (safe : mode = .towardZero ∨ wide.value = exact) :
    wide.round p mode = narrow := by
  obtain ⟨rfl, rfl, least, exact_of_wide⟩ := h
  apply round_round positive le least
  rcases safe with cut | same
  · exact .inl cut
  · exact .inr ((exact_of_wide same).trans same.symm)

private theorem stages_add {a b : Decimal} (leastLeft : exponentMin ≤ a.exponent)
    (leastRight : exponentMin ≤ b.exponent) (positive : 0 < p) (le : p ≤ q)
    (atNarrow : (a.add b p).map (·.round p mode) = .ok narrow)
    (atWide : (a.add b q).map (·.round q mode) = .ok wide) :
    Stages (a.sum b) (a.value + b.value) mode p q narrow wide := by
  obtain ⟨short, added, rfl⟩ := exists_of_map_eq_ok atNarrow
  obtain ⟨long, added', rfl⟩ := exists_of_map_eq_ok atWide
  refine ⟨?_, ?_, ?_, fun _ => value_sum a b⟩
  · exact round_of_add mode leastLeft leastRight positive le_rfl added
  · exact round_of_add mode leastLeft leastRight (by omega) le_rfl added'
  · exact le_min leastLeft leastRight

private theorem stages_multiply {a b : Decimal}
    (atNarrow : (a.multiply b).map (·.round p mode) = .ok narrow)
    (atWide : (a.multiply b).map (·.round q mode) = .ok wide) :
    Stages (a.product b) (a.value * b.value) mode p q narrow wide := by
  obtain ⟨short, multiplied, rfl⟩ := exists_of_map_eq_ok atNarrow
  obtain ⟨long, multiplied', rfl⟩ := exists_of_map_eq_ok atWide
  obtain ⟨rfl, least⟩ := eq_product_of_multiply multiplied
  obtain ⟨rfl, -⟩ := eq_product_of_multiply multiplied'
  exact ⟨rfl, rfl, least, fun _ => value_product a b⟩

private theorem stages_divide {a b : Decimal} (positive : 0 < p) (le : p ≤ q)
    (atNarrow : a.divide b p mode = .ok narrow) (atWide : a.divide b q mode = .ok wide) :
    Stages (quotientAt a b q) (a.value / b.value) mode p q narrow wide := by
  obtain ⟨divisor, fits, -, rfl⟩ := eq_round_of_divide atNarrow
  obtain ⟨-, -, least, rfl⟩ := eq_round_of_divide atWide
  exact ⟨(round_quotientAt mode divisor positive le).symm, rfl, least,
    value_quotientAt_of_round divisor fits.2 (by omega) least⟩

theorem exists_stages (defined : operation.exact? x y = some exact) (storedLeft : x.stored = x)
    (storedRight : y.stored = y) (positive : 0 < p) (le : p ≤ q)
    (atNarrow : unstored internal operation x y ⟨p, mode⟩ = .ok narrow)
    (atWide : unstored internal operation x y ⟨q, mode⟩ = .ok wide) :
    ∃ d, Stages d exact mode p q narrow wide := by
  have left := (exponentFits_of_stored storedLeft).1
  have right := (exponentFits_of_stored storedRight).1
  cases operation with
  | add =>
    obtain rfl := Option.some.inj defined
    exact ⟨_, stages_add left right positive le atNarrow atWide⟩
  | subtract =>
    obtain rfl := Option.some.inj defined
    rw [sub_eq_add_neg, ← value_neg]
    exact ⟨_, stages_add left right positive le atNarrow atWide⟩
  | multiply =>
    obtain rfl := Option.some.inj defined
    exact ⟨_, stages_multiply atNarrow atWide⟩
  | divide =>
    obtain rfl := Option.some.inj defined
    simp only [unstored, inexactPrecision, if_pos positive, if_pos (positive.trans_le le)]
      at atNarrow atWide
    exact ⟨_, stages_divide positive le atNarrow atWide⟩
  | _ => cases defined

/-- A sum, a difference, a product or a quotient at `q` digits, rounded again to `p`, is the one at
`p` digits, coefficient and exponent, if digits are only cut off, or nothing was lost at `q`. -/
theorem round_binary_eq_binary (defined : operation.exact? x y = some exact)
    (storedLeft : x.stored = x) (storedRight : y.stored = y) (positive : 0 < p) (le : p ≤ q)
    (atWide : (standard internal).binary operation x y ⟨q, mode⟩ = .ok wide)
    (atNarrow : (standard internal).binary operation x y ⟨p, mode⟩ = .ok narrow)
    (inRange : ∀ result, unstored internal operation x y ⟨q, mode⟩ = .ok result →
      result.stored = result)
    (safe : mode = .towardZero ∨ wide.value = exact) :
    (standard internal).round wide ⟨p, mode⟩ = narrow := by
  rw [standard_binary, calculateBinary_eq_map_stored] at atWide atNarrow
  obtain ⟨long, computed, stored⟩ := exists_of_map_eq_ok atWide
  obtain ⟨short, computed', rfl⟩ := exists_of_map_eq_ok atNarrow
  obtain rfl := (inRange long computed).symm.trans stored
  obtain ⟨d, stages⟩ := exists_stages defined storedLeft storedRight positive le computed' computed
  rw [standard_round, finish, stages.round_eq positive le safe]

theorem round_binary_eq_binary_eighth :
    (standard 34).binary .divide ⟨1, 0⟩ ⟨8, 0⟩ ⟨5, .nearestEven⟩ = .ok ⟨125, -3⟩ ∧
      (standard 34).round ⟨125, -3⟩ ⟨2, .nearestEven⟩ = ⟨12, -2⟩ := by
  have wide : (standard 34).binary .divide ⟨1, 0⟩ ⟨8, 0⟩ ⟨5, .nearestEven⟩ = .ok ⟨125, -3⟩ := by
    decide
  have narrow : (standard 34).binary .divide ⟨1, 0⟩ ⟨8, 0⟩ ⟨2, .nearestEven⟩ = .ok ⟨12, -2⟩ := by
    decide
  have computed : unstored 34 .divide ⟨1, 0⟩ ⟨8, 0⟩ ⟨5, .nearestEven⟩ = .ok ⟨125, -3⟩ := by decide
  refine ⟨wide, round_binary_eq_binary rfl (by decide) (by decide) (by decide) (by decide) wide
    narrow ?_ (.inr ?_)⟩
  · intro result same
    obtain rfl := Except.ok.inj (computed.symm.trans same)
    decide
  · norm_num [value]

/-- At a nearest mode an inexact sum can be moved twice: 2.451 to 2.5, and that to 3. -/
example : (standard 34).binary .add ⟨245, -2⟩ ⟨1, -3⟩ ⟨2, .nearestAway⟩ = .ok ⟨25, -1⟩ ∧
    (standard 34).round ⟨25, -1⟩ ⟨1, .nearestAway⟩ = ⟨3, 0⟩ ∧
    (standard 34).binary .add ⟨245, -2⟩ ⟨1, -3⟩ ⟨1, .nearestAway⟩ = .ok ⟨2, 0⟩ := by
  decide

end Engine
end DecimalConformance
