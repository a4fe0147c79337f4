import DecimalConformance.Proofs.Decimal.CorrectRoot
import DecimalConformance.Proofs.Decimal.FixedPoint
import DecimalConformance.Proofs.Decimal.GivenPowers
import DecimalConformance.Proofs.Decimal.SeriesDegrees
import DecimalConformance.Proofs.Decimal.StagedRounding

/-! Where a plain step leaves its word.
Only the guard digit of a quotient can lie that low: of the one that is asked for, or of the reciprocal
behind a negative integral power.  The reciprocal behind an exponential keeps far above.  Any other power
takes a logarithm, and at the longest precisions that outlasts its counter. -/
namespace DecimalConformance.Decimal

/-! ## Operations without a quotient -/

theorem shiftFactor_ne_exhausted (n : Nat) : shiftFactor n ≠ .error .exponentExhausted := by
  unfold shiftFactor
  split <;> simp

theorem coefficientAt_ne_exhausted (d : Decimal) (exponent : Int) :
    d.coefficientAt exponent ≠ .error .exponentExhausted :=
  bind_ne_error (shiftFactor_ne_exhausted _) fun _ _ => ok_ne_error _ _

theorem addExact_ne_exhausted (a b : Decimal) : addExact a b ≠ .error .exponentExhausted :=
  bind_ne_error (coefficientAt_ne_exhausted a _) fun _ _ =>
    bind_ne_error (coefficientAt_ne_exhausted b _) fun _ _ => ok_ne_error _ _

theorem add_ne_exhausted (a b : Decimal) (precision : Nat) :
    a.add b precision ≠ .error .exponentExhausted := by
  rw [add_eq]
  split <;> exact addExact_ne_exhausted _ _

theorem multiply_ne_exhausted (a b : Decimal) : a.multiply b ≠ .error .exponentExhausted := by
  simp only [multiply]
  split <;> simp

theorem remainder_ne_exhausted (a b : Decimal) (precision : Nat) :
    a.remainder b precision ≠ .error .exponentExhausted := by
  unfold remainder remainderBy
  simp only [ofExcept_self]
  split_ifs
  · simp
  · simp
  refine bind_ne_error (ok_ne_error _ _) fun left _ => bind_ne_error (ok_ne_error _ _) fun right _ => ?_
  split
  · simp
  · refine bind_ne_error (coefficientAt_ne_exhausted a _) fun x _ =>
      bind_ne_error (coefficientAt_ne_exhausted b _) fun y _ => ?_
    split <;> nofun

theorem squareRoot_ne_exhausted (x : Decimal) (precision : Nat) (mode : RoundingMode) :
    x.squareRoot precision mode ≠ .error .exponentExhausted := by
  by_cases positive : 0 < x.coefficient
  · rw [squareRoot_eq mode positive]
    exact ok_ne_error _ _
  · unfold squareRoot squareRootBy
    rcases (not_lt.mp positive).lt_or_eq with negative | zero
    · simp [isNegative, negative]
    · simp [isNegative, isZero, zero]

theorem roundedProduct_ne_exhausted (a b : Decimal) (working : Nat) :
    roundedProduct a b working ≠ .error .exponentExhausted :=
  bind_ne_error (multiply_ne_exhausted a b) fun _ _ => ok_ne_error _ _

theorem raise_ne_exhausted (working : Nat) (acc base : Decimal) (n : Nat) :
    raise working acc base n ≠ .error .exponentExhausted := by
  induction n using Nat.strongRecOn generalizing acc base with
  | ind n ih =>
    -- A turn of the loop behind the update of the accumulator, which may have been skipped.
    have rest (acc : Decimal) :
        (if n / 2 = 0 then pure acc else do
          raise working acc (← roundedProduct base base working) (n / 2)) ≠
          (.error .exponentExhausted : Except Condition Decimal) := by
      split
      · nofun
      · exact bind_ne_error (roundedProduct_ne_exhausted base base working) fun square _ =>
          ih (n / 2) (by omega) acc square
    rw [raise]
    split
    · exact bind_ne_error (roundedProduct_ne_exhausted acc base working) fun acc _ => rest acc
    · exact rest acc

/-! ## Quotients -/

variable {a b product x y : Decimal} {precision working : Nat} {mode : RoundingMode}

/-- A quotient is left without a place for its guard digit where a remainder is left at the lowest
place of all. -/
theorem divide_eq_exhausted_iff :
    a.divide b precision mode = .error .exponentExhausted ↔
      b.coefficient ≠ 0 ∧ divisionShift a b precision ≤ maxShift ∧ Exhausts a b precision := by
  by_cases divisor : b.coefficient = 0
  · have zero : b.isZero := by simpa [isZero] using divisor
    rw [divide, divideBy, if_pos zero, throw_eq_error]
    simp only [divisor, ne_eq, not_true_eq_false, false_and, iff_false]
    split <;> simp
  · have refused_iff (exhausted : Exhausts a b precision) :
        ¬ ExponentFits (a.exponent - b.exponent) ∨ OutOfReach a b precision ↔
          maxShift < divisionShift a b precision := by
      obtain ⟨nonzero, -, lowest⟩ := exhausted
      simp only [OutOfReach, ne_eq, nonzero, not_false_eq_true, true_and, lowest]
      simp only [placeAt, maxShift, ExponentFits, exponentMin, exponentMax] at *
      omega
    rw [divide_eq mode divisor]
    by_cases exhausted : Exhausts a b precision
    · simp only [refused_iff exhausted, if_pos exhausted]
      by_cases long : maxShift < divisionShift a b precision
      · simp [long]
      · simp [long, exhausted, divisor, not_lt.mp long]
    · split_ifs <;> simp [exhausted]

/-- The reciprocal of an exponential lies far above the lowest place. -/
private theorem reciprocal_ne_exhausted (least : exponentMin ≤ x.exponent)
    (size : x.exponent + x.digits ≤ 5) (limited : working ≤ precisionMax) (positive : 0 < working) :
    one.divide ((x.expFixed working).round working .nearestEven) working .nearestEven ≠
      .error .exponentExhausted := by
  rw [ne_eq, divide_eq_exhausted_iff]
  rintro ⟨-, -, -, -, lowest⟩
  have grown := digits_expFixed_le least size working
  obtain ⟨low, high⟩ := exponent_expFixed least size working
  have fits : exponentMin ≤ (x.expFixed working).exponent := by
    simp only [precisionMax, exponentMin] at *
    omega
  have raised := exponent_round_le working .nearestEven fits
  have width := digits_round_le (x.expFixed working) .nearestEven positive
  generalize (x.expFixed working).round working .nearestEven = divisor at *
  simp only [placeAt, divisionShift, one, precisionMax, exponentMin] at *
  omega

theorem exp_ne_exhausted (least : exponentMin ≤ x.exponent) (precision : Nat)
    (mode : RoundingMode) : x.exp precision mode ≠ .error .exponentExhausted := by
  simp only [exp, expBy, Steps.engine_exponent, pure_bind]
  split
  · exact ok_ne_error _ _
  split
  · simp
  next small =>
  split
  · exact ok_ne_error _ _
  -- The refusal of large arguments bounds the exponential.
  have size := places_le_of_adjusted_le (not_lt.mp small)
  have limited : guarded precision ≤ precisionMax := min_le_left ..
  rw [expFixedBy_engine least size limited, ok_bind]
  split
  · exact bind_ne_error (reciprocal_ne_exhausted least size limited (guarded_pos _)) fun _ _ =>
      ok_ne_error _ _
  · exact ok_ne_error _ _

/-- A product has an exponent in the word, and keeps it when it is rounded. -/
theorem exponentMin_le_roundedProduct (h : roundedProduct a b working = .ok product) :
    exponentMin ≤ product.exponent := by
  obtain ⟨exact, multiplied, h⟩ := exists_of_bind_eq_ok h
  obtain rfl := Except.ok.inj h
  obtain ⟨rfl, least⟩ := eq_product_of_multiply multiplied
  exact exponentMin_le_round working .nearestEven least

theorem integralPower_eq_exhausted_iff {n : Int} :
    x.integralPower n precision mode = .error .exponentExhausted ↔
      n < 0 ∧ x.coefficient ≠ 0 ∧
        ∃ raised, raise (powerPrecision n.natAbs precision) one x n.natAbs = .ok raised ∧
          one.divide raised (powerPrecision n.natAbs precision) .nearestEven =
            .error .exponentExhausted := by
  unfold integralPower integralPowerBy
  split
  · next zero =>
    simp only [zero, lt_irrefl, false_and, iff_false]
    split <;> nofun
  split
  · next undefined =>
    have base : x.coefficient = 0 := by simpa [isZero] using undefined.1
    simp [base]
  next defined =>
  dsimp only
  rw [ofExcept_self, bind_eq_error_iff, or_iff_right (raise_ne_exhausted _ _ _ _)]
  by_cases negative : n < 0
  · have base : x.coefficient ≠ 0 := by simpa [isZero, negative] using defined
    simp only [negative, ne_eq, base, not_false_eq_true, true_and]
    exact exists_congr fun raised => and_congr_right fun _ => map_eq_error_iff
  · simp [negative]

theorem power_of_integral {n : Int} (found : y.integral? = some n) :
    x.power y precision mode = x.integralPower n precision mode := by
  rw [power, powerBy, Steps.engine_exponent, integralWith_pure, pure_bind, found]
  rfl

/-- Any other power is the exponential of a multiple of the logarithm. -/
theorem power_of_integral_none (none : y.integral? = none) (positive : 0 < x.coefficient) :
    x.power y precision mode = (do
      let log ← x.ln (guarded precision) .nearestEven
      let product ← roundedProduct y log (guarded precision)
      product.exp precision mode) := by
  have sign : ¬ x.isNegative := by simp [isNegative, positive.le]
  have filled : ¬ x.isZero := by simp [isZero, positive.ne']
  rw [power, powerBy, Steps.engine_exponent, integralWith_pure, pure_bind, none]
  dsimp only
  rw [if_neg sign, if_neg filled]
  simp only [lnBy_engine, ofExcept_self, expBy_engine]

/-- A power ends in the middle of a step only where its last step is a reciprocal, or where the series
of a logarithm outlast their counter. -/
theorem power_eq_exhausted_iff :
    x.power y precision mode = .error .exponentExhausted ↔
      (∃ n < 0, y.integral? = some n ∧ x.coefficient ≠ 0 ∧
        ∃ raised, raise (powerPrecision n.natAbs precision) one x n.natAbs = .ok raised ∧
          one.divide raised (powerPrecision n.natAbs precision) .nearestEven =
            .error .exponentExhausted) ∨
      y.integral? = none ∧ LogOutlasts x (guarded precision) := by
  cases integer : y.integral? with
  | some n =>
    rw [power_of_integral integer, integralPower_eq_exhausted_iff]
    simp
  | none =>
    simp only [reduceCtorEq, false_and, and_false, exists_false, true_and, false_or]
    by_cases positive : 0 < x.coefficient
    · rw [power_of_integral_none integer positive, bind_eq_error_iff, ln_eq_exhausted_iff]
      refine or_iff_left ?_
      rintro ⟨log, -, exhausted⟩
      exact bind_ne_error (roundedProduct_ne_exhausted y log _) (fun product multiplied =>
        exp_ne_exhausted (exponentMin_le_roundedProduct multiplied) precision mode) exhausted
    · refine iff_of_false ?_ fun outlasts => positive outlasts.1
      rw [power, powerBy, Steps.engine_exponent, integralWith_pure, pure_bind, integer]
      rcases (not_lt.mp positive).lt_or_eq with negative | zero
      · simp [isNegative, negative]
      · by_cases sign : y.isNegative <;> simp [isNegative.eq_1 x, isZero, zero, sign]

end DecimalConformance.Decimal
