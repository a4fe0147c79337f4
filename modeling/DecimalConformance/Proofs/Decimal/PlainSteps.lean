import DecimalConformance.Decimal.Scientific
import DecimalConformance.Proofs.Decimal.Exhaustion

/-! Plain steps, watched.
Every calculation is run with each of its plain steps watched: those on exponents, the one to the place
of a guard digit, and those of the counters in the series.  The guards before them keep the first of
these in their word, so that a watched calculation has no answer only where the engine is exhausted. -/
namespace DecimalConformance.Decimal

/-- A calculation whose plain steps are watched.  It has no answer at all where one of them leaves
its word. -/
abbrev Watched (α : Type) : Type := ExceptT Condition Option α

namespace Watched

variable {α β : Type}

def unanswered : Watched α := ExceptT.mk none

/-- A plain step to an exponent. -/
def plain (e : Int) : Watched Int := if ExponentFits e then pure e else unanswered

/-- A plain step of the counter of a series. -/
def counted (n : Nat) : Watched Nat := if n ≤ degreeMax then pure n else unanswered

/-- What is known of an answer when its plain steps are watched: it is the same, unless one of the
steps left its word. -/
def outcome : Except Condition α → Watched α
  | .error .exponentExhausted => unanswered
  | answer => ExceptT.mk (some answer)

theorem plain_of_fits {e : Int} (h : ExponentFits e) : plain e = pure e := if_pos h

@[simp] theorem outcome_ok (a : α) : outcome (.ok a) = pure a := rfl

theorem outcome_bind (x : Except Condition α) (f : α → Except Condition β) :
    outcome (x >>= f) = outcome x >>= fun a => outcome (f a) := by
  cases x with
  | ok a => rfl
  | error condition => cases condition <;> rfl

theorem map_outcome (f : α → β) (answer : Except Condition α) :
    f <$> outcome answer = outcome (f <$> answer) := by
  cases answer with
  | ok a => rfl
  | error condition => cases condition <;> rfl

theorem ofExcept_eq_outcome {answer : Except Condition α}
    (answered : answer ≠ .error .exponentExhausted) :
    (MonadExcept.ofExcept answer : Watched α) = outcome answer := by
  cases answer with
  | ok a => rfl
  | error condition =>
    cases condition with
    | exponentExhausted => exact absurd rfl answered
    | _ => rfl

theorem run_outcome {answer : Except Condition α} (answered : answer ≠ .error .exponentExhausted) :
    (outcome answer).run = some answer := by
  rw [← ofExcept_eq_outcome answered]
  cases answer <;> rfl

theorem run_outcome_eq_none_iff {answer : Except Condition α} :
    (outcome answer).run = none ↔ answer = .error .exponentExhausted := by
  refine ⟨fun unanswered => ?_, fun exhausted => by rw [exhausted]; rfl⟩
  by_contra answered
  cases (run_outcome answered).symm.trans unanswered

end Watched

open Watched

/-- All steps are watched. -/
def Steps.watched : Steps Watched where
  exponent := plain
  guardDigit := plain
  degree := counted

@[simp] theorem Steps.watched_exponent : Steps.watched.exponent = plain := rfl

theorem outcome_guardDigit (e : Int) : outcome (Steps.engine.guardDigit e) = plain e := by
  rw [Steps.engine_guardDigit, plain]
  split <;> rfl

theorem outcome_degree (n : Nat) : outcome (Steps.engine.degree n) = counted n := by
  rw [Steps.engine_degree, counted]
  split <;> rfl

variable {a b d x y : Decimal} {precision : Nat} {mode : RoundingMode}

/-! ## Sums and remainders -/

/-- The place of a leading digit has its word. -/
theorem plain_adjusted (least : exponentMin ≤ d.exponent) : plain d.adjusted = pure d.adjusted := by
  have single := d.digits_pos
  refine plain_of_fits ?_
  simp only [ExponentFits, adjusted, saturate, exponentMin, exponentMax] at *
  omega

/-- A floor has a place below it wherever the stand-in takes it: an addend lies below the floor. -/
private theorem fits_standIn {big small : Decimal} (least : exponentMin ≤ small.exponent)
    (below : small.adjusted < sumFloor big precision) :
    ExponentFits (sumFloor big precision - 1) := by
  have single := small.digits_pos
  simp only [ExponentFits, sumFloor, floorUnder, adjusted, saturate, exponentMin, exponentMax] at *
  omega

theorem addBy_watched (left : exponentMin ≤ a.exponent) (right : exponentMin ≤ b.exponent) :
    addBy plain a b precision = outcome (a.add b precision) := by
  have exact := ofExcept_eq_outcome (addExact_ne_exhausted a b)
  rw [add, addBy, addBy]
  split
  · simp only [plain_adjusted left, plain_adjusted right, pure_bind, ofExcept_self]
    generalize order : (if b.adjusted ≤ a.adjusted then (a, b) else (b, a)) = byPlace
    have least : exponentMin ≤ byPlace.1.exponent ∧ exponentMin ≤ byPlace.2.exponent := by
      rw [← order]
      split
      · exact ⟨left, right⟩
      · exact ⟨right, left⟩
    simp only [plain_adjusted least.1, plain_adjusted least.2, pure_bind]
    rw [← sumFloor]
    by_cases below : byPlace.2.adjusted < sumFloor byPlace.1 precision
    · rw [if_pos below, if_pos below, plain_of_fits (fits_standIn least.2 below), pure_bind]
      exact ofExcept_eq_outcome (addExact_ne_exhausted _ _)
    · rw [if_neg below, if_neg below, exact]
  · rw [exact, ofExcept_self]

theorem remainderBy_watched (left : exponentMin ≤ a.exponent) (right : exponentMin ≤ b.exponent) :
    remainderBy plain a b precision = outcome (a.remainder b precision) := by
  rw [remainder, remainderBy, remainderBy]
  split
  · rfl
  · split
    · rfl
    · simp only [plain_adjusted left, plain_adjusted right, pure_bind, ofExcept_self,
        ofExcept_eq_outcome (coefficientAt_ne_exhausted _ _)]
      split
      · rfl
      · simp only [outcome_bind]
        refine congrArg (outcome _ >>= ·) (funext fun x => congrArg (outcome _ >>= ·) ?_)
        funext y
        split <;> rfl

/-! ## Quotients and roots -/

private theorem withGuardDigitBy_watched (coefficient : Nat) (e : Int) :
    withGuardDigitBy plain coefficient e =
      outcome (withGuardDigitBy Steps.engine.guardDigit coefficient e) := by
  rw [withGuardDigitBy, withGuardDigitBy, outcome_bind, outcome_guardDigit]
  rfl

/-- At the ideal exponent no room is left, and below it every step stays under the ideal one. -/
private theorem stripBy_watched {room : Nat} {exponent : Int} (coefficient : Nat)
    (least : exponentMin ≤ exponent) (most : exponent + room ≤ exponentMax) :
    stripBy plain room coefficient exponent =
      pure ((dropZeros room coefficient).1, exponent + room - (dropZeros room coefficient).2) :=
  stripBy_eq fun e above below => plain_of_fits ⟨by omega, by omega⟩

/-- A division has a place for every digit but the one that stands for the remainder. -/
theorem divideBy_watched :
    divideBy .watched a b precision mode = outcome (a.divide b precision mode) := by
  rw [divide, divideBy, divideBy]
  split
  · split <;> rfl
  dsimp only
  split
  · rfl
  next fits =>
  split
  · rfl
  rw [ofExcept_self, outcome_bind, ofExcept_eq_outcome (shiftFactor_ne_exhausted _)]
  refine congrArg (outcome (shiftFactor (divisionShift a b precision)) >>= ·) (funext fun factor => ?_)
  have most := (not_not.mp fits).2
  by_cases low : a.exponent - b.exponent - divisionShift a b precision < exponentMin
  · rw [if_pos low, if_pos low]
    rfl
  rw [if_neg low, if_neg low]
  split
  · rw [Steps.engine_exponent, stripBy_eq fun _ _ _ => rfl, Steps.watched_exponent,
      stripBy_watched _ (not_lt.mp low) (by omega)]
    rfl
  · rw [outcome_bind, ← withGuardDigitBy_watched]
    rfl

theorem squareRootBy_watched (h : ExponentFits x.exponent) (limited : precision ≤ precisionMax) :
    squareRootBy plain x precision mode = outcome (x.squareRoot precision mode) := by
  obtain ⟨least, most⟩ := h
  -- An odd exponent is not the smallest.
  have even : evenExponentBy plain x.exponent = evenExponentBy pure x.exponent := by
    rw [evenExponentBy, evenExponentBy]
    split
    · rfl
    · refine plain_of_fits ?_
      simp only [ExponentFits, exponentMin, exponentMax] at *
      omega
  rw [squareRoot, squareRootBy, squareRootBy]
  split
  · rfl
  dsimp only
  split
  · rfl
  rw [even, evenExponentBy_pure, evenExponentBy_pure, pure_bind, pure_bind, tdiv_evenExponent,
    pure_bind]
  generalize x.coefficient.natAbs * (if x.exponent % 2 = 0 then 1 else 10) = coefficient
  -- Half of an exponent leaves more room than any precision takes.
  have room : rootScale coefficient precision ≤ precision + 2 := by
    unfold rootScale
    omega
  generalize rootScale coefficient precision = scale at *
  have inside : exponentMin < x.exponent / 2 - scale ∧ x.exponent / 2 ≤ exponentMax := by
    simp only [exponentMin, exponentMax, precisionMax] at *
    omega
  rw [plain_of_fits ⟨inside.1.le, by omega⟩, pure_bind]
  split
  · rw [stripBy_eq fun _ _ _ => rfl, stripBy_watched _ inside.1.le (by omega)]
    rfl
  · rw [withGuardDigitBy, withGuardDigitBy, plain_of_fits ⟨by omega, by omega⟩]
    rfl

/-! ## Series -/

theorem seriesTailBy_watched (reduced one degree term : Nat) :
    seriesTailBy counted reduced one degree term =
      outcome (seriesTailBy Steps.engine.degree reduced one degree term) := by
  induction term using Nat.strongRecOn generalizing degree with
  | ind term ih =>
    rw [seriesTailBy, seriesTailBy]
    split
    · next goesOn =>
      rw [outcome_bind, outcome_degree]
      refine congrArg (counted _ >>= ·) (funext fun degree => ?_)
      rw [ih _ goesOn.2, outcome_bind]
      rfl
    · rfl

theorem expFixedBy_watched (x : Decimal) (digits : Nat) :
    expFixedBy counted x digits = outcome (expFixedBy Steps.engine.degree x digits) := by
  rw [expFixedBy, expFixedBy, outcome_bind, seriesTailBy_watched]
  rfl

theorem atanhTailBy_watched (square one degree power : Nat) :
    atanhTailBy counted square one degree power =
      outcome (atanhTailBy Steps.engine.degree square one degree power) := by
  induction power using Nat.strongRecOn generalizing degree with
  | ind power ih =>
    rw [atanhTailBy, atanhTailBy, outcome_bind, outcome_degree]
    refine congrArg (counted _ >>= ·) (funext fun degree => ?_)
    dsimp only
    split
    · next goesOn =>
      rw [ih _ goesOn.2, outcome_bind]
      rfl
    · rfl

theorem atanhBy_watched (z one : Nat) :
    atanhBy counted z one = outcome (atanhBy Steps.engine.degree z one) := by
  rw [atanhBy, atanhBy, outcome_bind, atanhTailBy_watched]
  rfl

theorem lnFixedBy_watched (x : Decimal) (scale : Nat) :
    lnFixedBy counted x scale = outcome (lnFixedBy Steps.engine.degree x scale) := by
  simp only [lnFixedBy, outcome_bind, atanhBy_watched]
  rfl

/-! ## Exponentials, logarithms and powers -/

theorem expBy_watched (least : exponentMin ≤ x.exponent) :
    expBy .watched x precision mode = outcome (x.exp precision mode) := by
  rw [exp, expBy, expBy]
  split
  · rfl
  simp only [Steps.watched, Steps.engine_exponent, plain_adjusted least, pure_bind]
  split
  · rfl
  split
  · rfl
  rw [expFixedBy_watched, outcome_bind]
  refine congrArg (outcome _ >>= ·) (funext fun grown => ?_)
  split
  · rw [outcome_bind]
    exact congrArg (· >>= _) divideBy_watched
  · rfl

theorem cancelledDigitsBy_watched (least : exponentMin ≤ x.exponent) :
    cancelledDigitsBy plain x = outcome x.cancelledDigits := by
  have exact : x.add one.neg 0 = addExact x one.neg := ofExcept_self _
  rw [cancelledDigits, cancelledDigitsBy, cancelledDigitsBy]
  split
  · rw [addBy_watched least (by decide), outcome_bind, addBy_pure, exact]
    cases added : addExact x one.neg with
    | error condition => cases condition <;> rfl
    | ok distance =>
      have reached : exponentMin ≤ distance.exponent := by
        rw [eq_sum_of_addExact added]
        exact le_min least (by decide)
      rw [outcome_ok, pure_bind, plain_adjusted reached]
      rfl
  · rfl

theorem lnBy_watched (least : exponentMin ≤ x.exponent) :
    lnBy .watched x precision mode = outcome (x.ln precision mode) := by
  rw [ln, lnBy, lnBy]
  split
  · rfl
  simp only [Steps.watched, Steps.engine_exponent]
  rw [compareBy_eq (plain_adjusted least) (plain_adjusted (by decide)), pure_bind,
    compareBy_eq rfl rfl, pure_bind]
  split
  · rfl
  rw [cancelledDigitsBy_watched least, outcome_bind]
  refine congrArg (outcome _ >>= ·) (funext fun cancelled => ?_)
  rw [lnFixedBy_watched, outcome_bind]
  rfl

theorem integralPowerBy_watched (n : Int) :
    integralPowerBy .watched x n precision mode = outcome (x.integralPower n precision mode) := by
  rw [integralPower, integralPowerBy, integralPowerBy]
  split
  · split <;> rfl
  split
  · rfl
  dsimp only
  rw [outcome_bind, ofExcept_self, ofExcept_eq_outcome (raise_ne_exhausted _ _ _ _)]
  refine congrArg (outcome _ >>= ·) (funext fun raised => ?_)
  split
  · rw [outcome_bind]
    exact congrArg (· >>= _) divideBy_watched
  · rfl

theorem powerBy_watched (left : exponentMin ≤ x.exponent) (right : exponentMin ≤ y.exponent) :
    powerBy .watched x y precision mode = outcome (x.power y precision mode) := by
  rw [power, powerBy, powerBy, Steps.engine_exponent, Steps.watched_exponent,
    integralWith_eq (plain_adjusted right) fun _ _ => rfl, integralWith_pure, pure_bind, pure_bind]
  cases y.integral? with
  | some n => exact integralPowerBy_watched n
  | none =>
    dsimp only
    split
    · rfl
    split
    · split <;> rfl
    rw [lnBy_watched left, outcome_bind, lnBy_engine]
    refine congrArg (outcome _ >>= ·) (funext fun log => ?_)
    rw [outcome_bind, ofExcept_self, ofExcept_eq_outcome (roundedProduct_ne_exhausted _ _ _)]
    cases multiplied : roundedProduct y log (guarded precision) with
    | error condition => cases condition <;> rfl
    | ok product =>
      rw [outcome_ok, pure_bind, pure_bind]
      exact expBy_watched (exponentMin_le_roundedProduct multiplied)

/-! ## Text -/

/-- The number of digits as a word has it. -/
def wordLength (length : Nat) : Int := min exponentMax length

section Text

variable {exponent length : Int} {digits : List Char}

private theorem leadingPlaceBy_watched (filled : 0 < length) (most : length ≤ exponentMax) :
    leadingPlaceBy plain exponent length =
      pure (leadingPlaceBy pure exponent length : Id Int).run := by
  have fits : ExponentFits (length - 1) := by
    simp only [ExponentFits, exponentMin, exponentMax] at *
    omega
  rw [leadingPlaceBy, plain_of_fits fits]
  rfl

private theorem positionalBy_watched (least : -exponentMax ≤ exponent) (below : exponent ≤ 0)
    (filled : 0 < length) (most : length ≤ exponentMax) :
    positionalBy plain exponent length digits =
      pure (positionalBy pure exponent length digits : Id (List Char)).run := by
  have fits : ExponentFits (length + exponent) ∧ ExponentFits (-(length + exponent)) := by
    simp only [ExponentFits, exponentMin, exponentMax] at *
    omega
  rw [positionalBy, positionalBy, plain_of_fits fits.1]
  split
  · rfl
  · rw [pure_bind, pure_bind, plain_of_fits fits.2]
    split <;> rfl

private theorem unsignedCharsBy_watched (least : -exponentMax ≤ exponent) (filled : 0 < length)
    (most : length ≤ exponentMax) :
    unsignedCharsBy plain exponent length digits =
      pure (unsignedCharsBy pure exponent length digits : Id (List Char)).run := by
  rw [unsignedCharsBy, unsignedCharsBy, leadingPlaceBy_watched filled most, pure_bind, Id.run_bind]
  split
  · next positional => exact positionalBy_watched least positional.1 filled most
  · rfl

/-- The text of a stored decimal takes no step out of its word, and it is the canonical one if its
length is a word. -/
theorem canonicalCharsBy_watched (least : -exponentMax ≤ d.exponent) :
    ∃ text, canonicalCharsBy plain wordLength d = pure text ∧
      (d.digits ≤ exponentMax → text = d.canonicalChars) := by
  have count : (digitsOf d.coefficient.natAbs).length = d.digits := length_digitsOf _
  have single := d.digits_pos
  have filled : 0 < wordLength d.digits := by
    simp only [wordLength, exponentMax]
    omega
  refine ⟨(canonicalCharsBy pure wordLength d : Id (List Char)).run, ?_, fun short => ?_⟩
  · rw [canonicalCharsBy, canonicalCharsBy, count,
      unsignedCharsBy_watched least filled (min_le_left ..)]
    rfl
  · rw [canonicalChars, canonicalCharsBy, canonicalCharsBy, count, wordLength, min_eq_right short]

end Text

end DecimalConformance.Decimal
