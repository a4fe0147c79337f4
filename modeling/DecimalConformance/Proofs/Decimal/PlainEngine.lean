import DecimalConformance.Proofs.Decimal.PlainSteps
import DecimalConformance.Proofs.Decimal.ResultLength

/-! The bundled engine with its plain steps watched.
It answers like the one that runs, but for two steps.  The place of the guard digit of a quotient is
taken from the last place of the quotient, and nothing has checked that there is one below.  And the
series of a logarithm count their degrees, whatever the precision that the series are worked out to. -/
namespace DecimalConformance.Engine

open Decimal Decimal.Watched

variable {internal : Nat} {x y : Decimal} {context : Context}

theorem inexactPrecision_le (limited : context.precision ≤ precisionMax)
    (internalLimited : internal ≤ precisionMax) :
    inexactPrecision internal context ≤ precisionMax := by
  unfold inexactPrecision
  split_ifs
  · exact limited
  · exact internalLimited
  · decide

theorem calculateUnaryBy_watched (h : x.stored = x) (limited : context.precision ≤ precisionMax)
    (internalLimited : internal ≤ precisionMax) (operation : UnaryOp) :
    calculateUnaryBy .watched internal operation x context =
      outcome (calculateUnary internal operation x context) := by
  have fits := exponentFits_of_stored h
  cases operation with
  | abs => rfl
  | exp =>
    rw [calculateUnaryBy, expBy_watched fits.1]
    exact map_outcome ..
  | ln =>
    rw [calculateUnaryBy, lnBy_watched fits.1]
    exact map_outcome ..
  | squareRoot =>
    have precision := inexactPrecision_le limited internalLimited
    rw [calculateUnaryBy, Steps.watched_exponent, squareRootBy_watched fits precision]
    exact map_outcome ..

theorem calculateBinaryBy_watched (left : exponentMin ≤ x.exponent) (right : exponentMin ≤ y.exponent)
    (operation : BinaryOp) :
    calculateBinaryBy .watched internal operation x y context =
      outcome (calculateBinary internal operation x y context) := by
  cases operation with
  | add =>
    rw [calculateBinaryBy, Steps.watched_exponent, addBy_watched left right]
    exact map_outcome ..
  | subtract =>
    rw [calculateBinaryBy, Steps.watched_exponent, addBy_watched (b := y.neg) left right]
    exact map_outcome ..
  | multiply =>
    rw [calculateBinaryBy, ofExcept_eq_outcome (multiply_ne_exhausted x y), calculateBinary_multiply]
    exact map_outcome ..
  | divide =>
    rw [calculateBinaryBy, divideBy_watched]
    exact map_outcome ..
  | power =>
    rw [calculateBinaryBy, powerBy_watched left right]
    exact map_outcome ..
  | remainder =>
    rw [calculateBinaryBy, Steps.watched_exponent, remainderBy_watched left right]
    exact map_outcome ..
  | max =>
    rw [calculateBinaryBy, Steps.watched_exponent,
      greaterBy_eq (plain_adjusted left) (plain_adjusted right), calculateBinary_max]
    rfl
  | min =>
    rw [calculateBinaryBy, Steps.watched_exponent,
      lesserBy_eq (plain_adjusted left) (plain_adjusted right), calculateBinary_min]
    rfl
  | compare =>
    rw [calculateBinaryBy, Steps.watched_exponent,
      compareBy_eq (plain_adjusted left) (plain_adjusted right), calculateBinary_compare]
    rfl

/-! ## The two steps -/

/-- A division is carried out down to the lowest place, and leaves a remainder there. -/
def LacksGuardPlace (a b : Decimal) (precision : Nat) : Prop :=
  b.coefficient ≠ 0 ∧ divisionShift a b precision ≤ maxShift ∧ Exhausts a b precision

instance (a b : Decimal) (precision : Nat) : Decidable (LacksGuardPlace a b precision) :=
  inferInstanceAs (Decidable (_ ∧ _))

/-- The operations that end in such a division, a quotient or the reciprocal of a power, and the powers
that take a logarithm whose series outlast their counter. -/
def LeavesWord (operation : BinaryOp) (x y : Decimal) (precision : Nat) : Prop :=
  match operation with
  | .divide => LacksGuardPlace x y precision
  | .power =>
    (∃ n < 0, y.integral? = some n ∧ x.coefficient ≠ 0 ∧
      ∃ raised, raise (powerPrecision n.natAbs precision) one x n.natAbs = .ok raised ∧
        LacksGuardPlace one raised (powerPrecision n.natAbs precision)) ∨
    y.integral? = none ∧ LogOutlasts x (guarded precision)
  | _ => False

/-- Of the operations with one operand, only the logarithm can leave a word. -/
def LeavesWordAlone (operation : UnaryOp) (x : Decimal) (precision : Nat) : Prop :=
  match operation with
  | .ln => LogOutlasts x precision
  | _ => False

theorem calculateUnary_eq_exhausted_iff (h : x.stored = x) (operation : UnaryOp) :
    calculateUnary internal operation x context = .error .exponentExhausted ↔
      LeavesWordAlone operation x (inexactPrecision internal context) := by
  have least := (exponentFits_of_stored h).1
  cases operation with
  | abs => exact iff_of_false nofun id
  | exp => exact iff_of_false (map_eq_error_iff.not.mpr (exp_ne_exhausted least _ _)) id
  | ln => exact map_eq_error_iff.trans ln_eq_exhausted_iff
  | squareRoot => exact iff_of_false (map_eq_error_iff.not.mpr (squareRoot_ne_exhausted x _ _)) id

theorem calculateBinary_eq_exhausted_iff (operation : BinaryOp) :
    calculateBinary internal operation x y context = .error .exponentExhausted ↔
      LeavesWord operation x y (inexactPrecision internal context) := by
  cases operation with
  | divide => exact map_eq_error_iff.trans divide_eq_exhausted_iff
  | power =>
    refine map_eq_error_iff.trans (power_eq_exhausted_iff.trans ?_)
    simp only [divide_eq_exhausted_iff]
    rfl
  | add => exact iff_of_false (map_eq_error_iff.not.mpr (add_ne_exhausted x y _)) id
  | subtract => exact iff_of_false (map_eq_error_iff.not.mpr (add_ne_exhausted x y.neg _)) id
  | multiply =>
    rw [calculateBinary_multiply]
    exact iff_of_false (map_eq_error_iff.not.mpr (multiply_ne_exhausted x y)) id
  | remainder => exact iff_of_false (map_eq_error_iff.not.mpr (remainder_ne_exhausted x y _)) id
  | max =>
    rw [calculateBinary_max]
    exact iff_of_false nofun id
  | min =>
    rw [calculateBinary_min]
    exact iff_of_false nofun id
  | compare =>
    rw [calculateBinary_compare]
    exact iff_of_false nofun id

/-- Of all the plain steps, those on exponents and those of the counters in the series, only two kinds
leave their words.  One is the step to the place of a guard digit, in a division that reaches down to
the lowest place and in a power that ends in one.  The other is the step of a counter, in a logarithm
worked out to so many places that its series outlast it, and in a power that takes one.  Everything
else is a value or a refusal, and so is every exponent without a word: it is an overflow. -/
theorem plain_steps (left : x.stored = x) (right : y.stored = y)
    (limited : context.precision ≤ precisionMax) (internalLimited : internal ≤ precisionMax) :
    (∀ operation, (calculateUnaryBy .watched internal operation x context).run = none ↔
      LeavesWordAlone operation x (inexactPrecision internal context)) ∧
    (∀ operation, ¬ LeavesWordAlone operation x (inexactPrecision internal context) →
      (calculateUnaryBy .watched internal operation x context).run =
        some ((standard internal).unary operation x context)) ∧
    (∀ operation, (calculateBinaryBy .watched internal operation x y context).run = none ↔
      LeavesWord operation x y (inexactPrecision internal context)) ∧
    (∀ operation, ¬ LeavesWord operation x y (inexactPrecision internal context) →
      (calculateBinaryBy .watched internal operation x y context).run =
        some ((standard internal).binary operation x y context)) ∧
    (¬ ExponentFits (x.exponent + y.exponent) →
      (standard internal).binary .multiply x y context = .error .overflow) ∧
    (y.coefficient ≠ 0 → ¬ ExponentFits (x.exponent - y.exponent) →
      (standard internal).binary .divide x y context = .error .overflow) ∧
    ∃ text, (canonicalCharsBy plain wordLength x).run = some (.ok text) ∧
      (x.digits ≤ exponentMax → String.ofList text = (standard internal).render x) := by
  have fits := exponentFits_of_stored left
  have fits' := exponentFits_of_stored right
  refine ⟨fun operation => ?_, fun operation room => ?_, fun operation => ?_, fun operation room => ?_,
    fun outside => ?_, fun divisor outside => ?_, ?_⟩
  · rw [calculateUnaryBy_watched left limited internalLimited, run_outcome_eq_none_iff]
    exact calculateUnary_eq_exhausted_iff left operation
  · rw [calculateUnaryBy_watched left limited internalLimited]
    exact run_outcome ((calculateUnary_eq_exhausted_iff left operation).not.mpr room)
  · rw [calculateBinaryBy_watched fits.1 fits'.1, run_outcome_eq_none_iff]
    exact calculateBinary_eq_exhausted_iff operation
  · rw [calculateBinaryBy_watched fits.1 fits'.1]
    exact run_outcome ((calculateBinary_eq_exhausted_iff operation).not.mpr room)
  · rw [standard_binary, calculateBinary_multiply, multiply]
    simp [outside, Except.map]
  · have refused : ¬ ExponentFits (x.exponent - y.exponent) ∨
        OutOfReach x y (inexactPrecision internal context) := .inl outside
    have quotient : x.divide y (inexactPrecision internal context) context.rounding =
        .error .overflow := by
      rw [Decimal.divide_eq _ divisor, if_pos refused]
    exact congrArg (stored <$> ·) quotient
  · obtain ⟨text, written, same⟩ := canonicalCharsBy_watched (exponent_of_stored left)
    exact ⟨text, congrArg ExceptT.run written, fun short => congrArg String.ofList (same short)⟩

/-- A third of a very small number: a digit less leaves a place, and a digit more is an overflow.  The
square root of two, taken as a power of it, leaves no room in a counter at the largest precision. -/
theorem plain_steps_third :
    (⟨1, -9223372036854775800⟩ : Decimal).stored = ⟨1, -9223372036854775800⟩ ∧
      (calculateBinaryBy .watched 34 .divide ⟨1, -9223372036854775800⟩ ⟨3, 0⟩ ⟨6, .nearestEven⟩).run =
        some (.ok ⟨333333, -9223372036854775806⟩) ∧
      (calculateBinaryBy .watched 34 .divide ⟨1, -9223372036854775800⟩ ⟨3, 0⟩ ⟨7, .nearestEven⟩).run =
        none ∧
      (calculateBinaryBy .watched 34 .divide ⟨1, -9223372036854775800⟩ ⟨3, 0⟩ ⟨8, .nearestEven⟩).run =
        some (.error .overflow) ∧
      (calculateBinaryBy .watched 34 .power ⟨2, 0⟩ ⟨5, -1⟩ ⟨precisionMax, .nearestEven⟩).run = none := by
  have held : (⟨1, -9223372036854775800⟩ : Decimal).stored = ⟨1, -9223372036854775800⟩ := by decide
  have steps (precision : Nat) (limited : precision ≤ precisionMax) :=
    @plain_steps 34 _ ⟨3, 0⟩ ⟨precision, .nearestEven⟩ held (by decide) limited (by decide)
  obtain ⟨-, -, -, answered, -⟩ := steps 6 (by decide)
  obtain ⟨-, -, stopped, -⟩ := steps 7 (by decide)
  obtain ⟨-, -, -, refused, -⟩ := steps 8 (by decide)
  obtain ⟨-, -, overrun, -⟩ :=
    @plain_steps 34 ⟨2, 0⟩ ⟨5, -1⟩ ⟨precisionMax, .nearestEven⟩ (by decide) (by decide) le_rfl
      (by decide)
  have single : (⟨2, 0⟩ : Decimal).cancelledDigits = .ok 0 := by decide
  have outlasts : LogOutlasts ⟨2, 0⟩ (guarded precisionMax) :=
    ⟨by decide, by norm_num [value], 0, single, seriesOutlasts_lnScale _ _ (by decide)⟩
  refine ⟨held, ?_, ?_, ?_, ?_⟩
  · exact (answered .divide (show ¬ LacksGuardPlace _ _ 6 by decide)).trans (by decide)
  · exact (stopped .divide).mpr (show LacksGuardPlace _ _ 7 by decide)
  · exact (refused .divide (show ¬ LacksGuardPlace _ _ 8 by decide)).trans (by decide)
  · exact (overrun .power).mpr (.inr ⟨by decide, outlasts⟩)

/-- Neither a value nor a refusal: seven digits reach down to the lowest place of all. -/
theorem third_leaves_word :
    (standard 34).binary .divide ⟨1, -9223372036854775800⟩ ⟨3, 0⟩ ⟨7, .nearestEven⟩ =
        .error .exponentExhausted ∧
      (calculateBinaryBy .watched 34 .divide ⟨1, -9223372036854775800⟩ ⟨3, 0⟩
        ⟨7, .nearestEven⟩).run = none := by
  decide

end DecimalConformance.Engine
