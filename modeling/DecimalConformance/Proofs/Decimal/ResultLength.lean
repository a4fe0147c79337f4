import DecimalConformance.Operation
import DecimalConformance.Proofs.Decimal.StagedRounding

/-! The length of results.
Whatever way an operation takes to its result, the result is rounded to the precision in the end,
or so short that no precision cuts it. -/
namespace DecimalConformance

open Decimal

/-- An answer that is no decimal with more digits than `width`. -/
def Within (width : Nat) (answer : Except Condition Decimal) : Prop :=
  ∀ d, answer = .ok d → d.digits ≤ width

namespace Within

variable {width : Nat} {answer other : Except Condition Decimal}

theorem error (condition : Condition) : Within width (.error condition) := by
  intro d answered
  cases answered

theorem ok {d : Decimal} (short : d.digits ≤ width) : Within width (.ok d) := by
  intro d' answered
  obtain rfl := Except.ok.inj answered
  exact short

theorem round (positive : 0 < width) (d : Decimal) (mode : RoundingMode) :
    Within width (.ok (d.round width mode)) :=
  ok (digits_round_le d mode positive)

theorem ite {condition : Prop} [Decidable condition] (holds : Within width answer)
    (fails : Within width other) : Within width (if condition then answer else other) := by
  split
  · exact holds
  · exact fails

theorem bind {α : Type} {first : Except Condition α} {rest : α → Except Condition Decimal}
    (answers : ∀ a, Within width (rest a)) : Within width (first >>= rest) := by
  intro d answered
  obtain ⟨a, -, answered⟩ := exists_of_bind_eq_ok answered
  exact answers a d answered

theorem map {f : Decimal → Decimal} (short : ∀ d, (f d).digits ≤ width) :
    Within width (answer.map f) := by
  intro d answered
  obtain ⟨d, -, rfl⟩ := exists_of_map_eq_ok answered
  exact short d

theorem stored (short : Within width answer) : Within width (answer.map stored) := by
  intro d mapped
  obtain ⟨d, answered, rfl⟩ := exists_of_map_eq_ok mapped
  exact short d answered

end Within

namespace Decimal

variable {precision : Nat} (mode : RoundingMode)

private theorem digits_le_of_natAbs_le {d : Decimal} (small : d.coefficient.natAbs ≤ 1)
    (positive : 0 < precision) : d.digits ≤ precision := by
  rw [digits, digitCount_le_iff positive]
  have ten : 10 ^ 1 ≤ 10 ^ precision := Nat.pow_le_pow_right (by omega) positive
  omega

theorem within_divide (a b : Decimal) (positive : 0 < precision) :
    Within precision (a.divide b precision mode) := by
  intro d answered
  obtain ⟨-, -, -, rfl⟩ := eq_round_of_divide answered
  exact digits_round_le _ mode positive

theorem within_squareRoot (x : Decimal) (positive : 0 < precision) :
    Within precision (x.squareRoot precision mode) := by
  unfold squareRoot squareRootBy
  apply Within.ite
  · exact .error _
  apply Within.ite
  · exact .ok (digits_le_of_natAbs_le (Nat.zero_le 1) positive)
  refine .bind fun even => .bind fun exponent => ?_
  apply Within.ite <;> exact .bind fun unrounded => .round positive _ mode

theorem within_exp (x : Decimal) (positive : 0 < precision) :
    Within precision (x.exp precision mode) := by
  unfold exp expBy
  apply Within.ite
  · exact .ok (digits_le_of_natAbs_le (Nat.le_refl 1) positive)
  apply Within.bind
  intro lead
  apply Within.ite
  · exact .error _
  apply Within.ite
  · exact .round positive _ mode
  apply Within.bind
  intro sum
  -- Below zero a quotient comes in between, and it is not the last to be rounded.
  apply Within.ite
  · exact .bind fun quotient => .round positive quotient mode
  · exact .bind fun grown => .round positive grown mode

theorem within_ln (x : Decimal) (positive : 0 < precision) :
    Within precision (x.ln precision mode) := by
  unfold ln lnBy
  apply Within.ite
  · exact .error _
  apply Within.bind
  intro order
  apply Within.ite
  · exact .ok (digits_le_of_natAbs_le (Nat.zero_le 1) positive)
  · exact .bind fun cancelled => .bind fun log => .round positive _ mode

theorem within_integralPower (x : Decimal) (n : Int) (positive : 0 < precision) :
    Within precision (x.integralPower n precision mode) := by
  unfold integralPower integralPowerBy
  apply Within.ite
  · apply Within.ite
    · exact .error _
    · exact .ok (digits_le_of_natAbs_le (Nat.le_refl 1) positive)
  apply Within.ite
  · exact .error _
  apply Within.bind
  intro raised
  apply Within.ite
  · exact .bind fun quotient => .round positive quotient mode
  · exact .bind fun power => .round positive power mode

theorem within_power (x y : Decimal) (positive : 0 < precision) :
    Within precision (x.power y precision mode) := by
  unfold power powerBy
  apply Within.bind
  intro integer
  cases integer with
  | some n => exact within_integralPower mode x n positive
  | none =>
    apply Within.ite
    · exact .error _
    apply Within.ite
    · apply Within.ite
      · exact .error _
      · exact .ok (digits_le_of_natAbs_le (Nat.zero_le 1) positive)
    · exact .bind fun log => .bind fun product => within_exp mode product positive

theorem stored_stored (d : Decimal) : d.stored.stored = d.stored := by
  apply stored_eq_self <;> simp only [stored, exponentMax] <;> omega

end Decimal

namespace Engine

variable {internal : Nat} {context : Context} {result : Decimal}

theorem inexactPrecision_pos (internal : Nat) (context : Context) :
    0 < inexactPrecision internal context := by
  unfold inexactPrecision defaultPrecision
  split_ifs <;> omega

theorem inexactPrecision_of_pos (internal : Nat) (limited : 0 < context.precision) :
    inexactPrecision internal context = context.precision :=
  if_pos limited

theorem inexactPrecision_of_zero (internal : Nat) (unlimited : context.precision = 0) :
    inexactPrecision internal context = if internal = 0 then 34 else internal := by
  unfold inexactPrecision defaultPrecision
  split_ifs <;> omega

theorem digits_finish_le (limited : 0 < context.precision) (d : Decimal) :
    (finish d context).digits ≤ context.precision :=
  digits_round_le d context.rounding limited

theorem digits_orderValue (order : Ordering) : (orderValue order).digits = 1 := by
  cases order <;> decide

theorem within_calculateUnary (internal : Nat) (operation : UnaryOp) (x : Decimal)
    (limited : 0 < context.precision ∨ operation ≠ .abs) :
    Within (inexactPrecision internal context) (calculateUnary internal operation x context) := by
  have positive := inexactPrecision_pos internal context
  cases operation with
  | abs =>
    have limited := limited.resolve_right (absurd rfl)
    rw [inexactPrecision_of_pos internal limited]
    exact .ok (digits_finish_le limited x.abs)
  | exp => exact (within_exp context.rounding x positive).stored
  | ln => exact (within_ln context.rounding x positive).stored
  | squareRoot => exact (within_squareRoot context.rounding x positive).stored

theorem within_calculateBinary (internal : Nat) (operation : BinaryOp) (x y : Decimal)
    (limited : 0 < context.precision ∨ operation = .divide ∨ operation = .power) :
    Within (inexactPrecision internal context)
      (calculateBinary internal operation x y context) := by
  have positive := inexactPrecision_pos internal context
  cases operation with
  | divide => exact (within_divide context.rounding x y positive).stored
  | power => exact (within_power context.rounding x y positive).stored
  | compare =>
    rw [calculateBinary_compare]
    apply Within.ok
    rw [digits_orderValue]
    exact positive
  | add | subtract | multiply | remainder | max | min =>
    have limited := limited.resolve_right (by simp)
    rw [inexactPrecision_of_pos internal limited]
    exact .map (digits_finish_le limited)

theorem stored_of_calculateUnary {operation : UnaryOp} {x : Decimal}
    (computed : calculateUnary internal operation x context = .ok result) :
    result.stored = result := by
  cases operation with
  | abs =>
    obtain rfl := Except.ok.inj computed
    exact stored_stored _
  | exp | ln | squareRoot =>
    obtain ⟨d, -, rfl⟩ := exists_of_map_eq_ok computed
    exact stored_stored d

theorem stored_of_calculateBinary {operation : BinaryOp} {x y : Decimal}
    (computed : calculateBinary internal operation x y context = .ok result) :
    result.stored = result := by
  rw [calculateBinary_eq_map_stored] at computed
  obtain ⟨d, -, rfl⟩ := exists_of_map_eq_ok computed
  exact stored_stored d

end Engine

namespace Operation

open Engine

variable {operation : Operation} {internal : Nat} {operands : List Decimal} {context : Context}
  {result : Decimal}

/-- The operations whose exact result may have no end. -/
def endless : List Operation :=
  [.unary .exp, .unary .ln, .unary .squareRoot, .binary .divide, .binary .power]

private theorem stored_of_apply
    (computed : (operation.apply (standard internal) operands context).answer = .ok result) :
    result.stored = result := by
  unfold apply at computed
  split at computed
  · exact stored_of_calculateUnary computed
  · exact stored_of_calculateBinary computed
  · cases computed

private theorem digits_le_of_apply
    (computed : (operation.apply (standard internal) operands context).answer = .ok result)
    (limited : 0 < context.precision ∨ operation ∈ endless) :
    result.digits ≤ inexactPrecision internal context := by
  unfold apply at computed
  split at computed
  · refine within_calculateUnary internal _ _ (limited.imp_right ?_) result computed
    rintro listed rfl
    exact absurd listed (by decide)
  · refine within_calculateBinary internal _ _ _ (limited.imp_right ?_) result computed
    simp [endless]
  · cases computed

/-- A result has no more digits than the precision of its context, so that it is not rounded again.
Without a limit, the operations that may have no end keep to a precision of their own. -/
theorem result_fits
    (computed : (operation.apply (standard internal) operands context).answer = .ok result) :
    (standard internal).round result context = result ∧
      (0 < context.precision → result.digits ≤ context.precision) ∧
      (context.precision = 0 → operation ∈ endless →
        result.digits ≤ if internal = 0 then 34 else internal) := by
  have limited : 0 < context.precision → result.digits ≤ context.precision := by
    intro positive
    rw [← inexactPrecision_of_pos internal positive]
    exact digits_le_of_apply computed (.inl positive)
  refine ⟨?_, limited, ?_⟩
  · have short := (Nat.eq_zero_or_pos context.precision).imp_right limited
    rw [standard_round, finish, Decimal.round, if_pos short, stored_of_apply computed]
  · intro unlimited endless
    rw [← inexactPrecision_of_zero internal unlimited]
    exact digits_le_of_apply computed (.inr endless)

/-- A carry such as 999.6 to 1000 does not make the result longer. -/
theorem result_fits_carry :
    ((Operation.binary .add).apply (standard 34) [⟨-9995, -1⟩, ⟨-1, -1⟩] ⟨3, .nearestEven⟩).answer =
        .ok ⟨-100, 1⟩ ∧
      (standard 34).round ⟨-100, 1⟩ ⟨3, .nearestEven⟩ = ⟨-100, 1⟩ ∧
      (⟨-100, 1⟩ : Decimal).digits ≤ 3 := by
  have computed : ((Operation.binary .add).apply (standard 34) [⟨-9995, -1⟩, ⟨-1, -1⟩]
      ⟨3, .nearestEven⟩).answer = .ok ⟨-100, 1⟩ := by decide
  obtain ⟨same, short, -⟩ := result_fits computed
  exact ⟨computed, same, short (by decide)⟩

end Operation
end DecimalConformance
