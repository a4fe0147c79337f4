import DecimalConformance.Proofs.Decimal.ExponentialSeries
import DecimalConformance.Proofs.Decimal.LogarithmSeries
import DecimalConformance.Proofs.Decimal.RoundedSum
import DecimalConformance.Proofs.Except
import Mathlib.Order.Iterate

/-! How far the counters of the series go.
The powers in the series of a logarithm fall to a ninth in each round, and hardly to less than a
tenth.  So the counter of the degrees comes to its largest value at the longest precisions, and the
series of a third is the last of the three to end. -/
namespace DecimalConformance.Decimal

variable {scale : Nat}

/-! ## The series of an exponential -/

section Exponential

variable {reduced one degree term rounds : Nat}

/-- From the eighth degree on a term takes a hexadecimal digit from the one before it, so that there are
no more rounds than digits. -/
theorem seriesTailBy_engine (positive : 0 < one) (small : 2 * reduced ≤ one)
    (left : max degree 8 + rounds ≤ degreeMax) (short : term < 16 ^ rounds) :
    seriesTailBy Steps.engine.degree reduced one degree term =
      .ok (seriesTail reduced one degree term) := by
  induction term using Nat.strongRecOn generalizing degree rounds with
  | ind term ih =>
    rw [seriesTailBy, seriesTail_def]
    split
    · next goesOn =>
      have falls : 2 * (degree * (term * reduced / one / degree)) ≤ term :=
        two_mul_term_le positive small
      generalize term * reduced / one / degree = next at *
      obtain ⟨filled, lower⟩ := goesOn
      -- Behind a term there is a digit left for the next one.
      obtain ⟨rest, step, shorter⟩ : ∃ rest, max (degree + 1) 8 + rest ≤ degreeMax ∧
          next < 16 ^ rest := by
        by_cases early : degree < 8
        · exact ⟨rounds, by omega, lower.trans short⟩
        · have sixteenth : 16 * next ≤ term := by nlinarith
          obtain ⟨rest, rfl⟩ : ∃ rest, rounds = rest + 1 := by
            refine Nat.exists_eq_succ_of_ne_zero fun none => ?_
            rw [none, Nat.pow_zero] at short
            omega
          rw [Nat.pow_succ] at short
          exact ⟨rest, by omega, by omega⟩
      rw [Steps.engine_degree, if_pos (by omega), ok_bind, ih next lower step shorter]
      rfl
    · rfl

variable {x : Decimal} {digits : Nat}

/-- The counter of an exponential is large enough for every precision. -/
theorem expFixedBy_engine (least : exponentMin ≤ x.exponent) (size : x.exponent + x.digits ≤ 5)
    (limited : digits ≤ precisionMax) :
    expFixedBy Steps.engine.degree x digits = .ok (x.expFixed digits) := by
  have halved := halvings_toFixed_le least size (digits + 2) (by omega)
  have lead := x.digits_pos
  have probe : x.exponent + (digits + 2 : Nat) ≤ exponentMax := by
    simp only [precisionMax, exponentMax] at *
    omega
  have falls {scale : Nat} (top : x.exponent + scale ≤ exponentMax) :=
    two_mul_reduced_le least probe top (by omega)
  rw [expFixed, expFixedBy, expFixedBy]
  generalize halvings (Nat.pow 10 (digits + 2) / 2) (x.toFixed (digits + 2)) = steps at *
  have top : x.exponent + (digits + 10 + steps / 3 + 1 : Nat) ≤ exponentMax := by
    simp only [precisionMax, exponentMax] at *
    omega
  have falls := falls top
  have long : digits + 10 + steps / 3 + 1 < (degreeMax - 8) * 6 / 5 := by
    simp only [precisionMax, degreeMax] at *
    omega
  generalize digits + 10 + steps / 3 + 1 = scale at *
  have short : 10 ^ scale < 16 ^ (degreeMax - 8) :=
    (Nat.pow_lt_pow_right (by decide) long).trans_le
      (pow_mul_div_le (by decide) (by decide) (by decide) (degreeMax - 8))
  have series := seriesTailBy_engine (Nat.pow_pos (by decide)) falls (by decide : max 1 8 + _ ≤ _) short
  simp only [Nat.pow_eq]
  rw [series]
  rfl

end Exponential

/-! ## The series of an inverse hyperbolic tangent -/

section Series

variable {one power square z w : Nat}

/-- What comes behind a power in the series. -/
def nextPower (square one power : Nat) : Nat := power * square / one

/-- At the largest degree the series of `z` still has a term, and goes on. -/
def Outlasts (one z : Nat) : Prop :=
  degreeMax ≤ (nextPower (z * z / one) one)^[degreeMax / 2] z

-- Two billion rounds are not run to decide it.
noncomputable instance (one z : Nat) : Decidable (Outlasts one z) := Classical.propDecidable _

theorem nextPower_le (small : square ≤ one) (power : Nat) : nextPower square one power ≤ power :=
  Nat.div_le_of_le_mul ((Nat.mul_le_mul_left power small).trans_eq (Nat.mul_comm ..))

theorem nextPower_lt (small : square < one) (filled : 0 < nextPower square one power) :
    nextPower square one power < power := by
  have positive : 0 < power := Nat.pos_of_ne_zero fun none => by simp [none, nextPower] at filled
  refine Nat.div_lt_of_lt_mul ?_
  rw [Nat.mul_comm one]
  exact Nat.mul_lt_mul_of_pos_left small positive

theorem iterate_nextPower_le (small : square ≤ one) (rounds power : Nat) :
    (nextPower square one)^[rounds] power ≤ power := by
  induction rounds generalizing power with
  | zero => exact le_rfl
  | succ rounds ih => exact (ih _).trans (nextPower_le small power)

/-- A series that still has a term at the largest degree is refused there, and any other is summed up.
Behind every degree but the first there is a power that made a term. -/
private theorem atanhTailBy_engine {degree rounds : Nat} (left : degree + 2 * rounds = degreeMax)
    (small : square < one) (reached : degree ≤ power ∨ 0 < rounds) :
    atanhTailBy Steps.engine.degree square one degree power =
      if degreeMax ≤ (nextPower square one)^[rounds] power then .error .exponentExhausted
      else .ok (atanhTail square one degree power) := by
  induction rounds generalizing degree power with
  | zero =>
    have full : degreeMax ≤ power := by omega
    rw [atanhTailBy, Steps.engine_degree, if_neg (by omega), Function.iterate_zero_apply,
      if_pos full]
    rfl
  | succ rounds ih =>
    rw [atanhTailBy, Steps.engine_degree, if_pos (by omega), ok_bind, Function.iterate_succ_apply,
      atanhTail_def, ← nextPower]
    by_cases term : 0 < nextPower square one power / (degree + 2)
    · have filled : 0 < nextPower square one power := Nat.pos_of_div_pos term
      have goesOn : 0 < nextPower square one power / (degree + 2) ∧
          nextPower square one power < power := ⟨term, nextPower_lt small filled⟩
      rw [if_pos goesOn, if_pos goesOn, ih (by omega) (.inl (Nat.div_pos_iff.mp term).2)]
      split <;> rfl
    · have ended : nextPower square one power < degree + 2 := by
        rwa [Nat.div_pos_iff, not_and, not_le, imp_iff_right (by omega)] at term
      have falls := iterate_nextPower_le small.le rounds (nextPower square one power)
      have stops : ¬ (0 < nextPower square one power / (degree + 2) ∧
          nextPower square one power < power) := fun goesOn => term goesOn.1
      rw [if_neg stops, if_neg stops, if_neg (by omega)]
      rfl

theorem nine_mul_square_le (third : z ≤ one / 3) : 9 * (z * z / one) ≤ one := by
  have triple : 3 * z ≤ one := by omega
  calc 9 * (z * z / one) ≤ 9 * (z * z) / one := Nat.mul_div_le_mul_div_assoc ..
    _ = 3 * z * (3 * z) / one := by
        congr 1
        ring
    _ ≤ one * one / one := Nat.div_le_div_right (Nat.mul_le_mul triple triple)
    _ ≤ one := Nat.div_le_of_le_mul le_rfl

theorem atanhBy_engine (positive : 0 < one) (third : z ≤ one / 3) :
    atanhBy Steps.engine.degree z one =
      if Outlasts one z then .error .exponentExhausted else .ok (atanh z one) := by
  have small : z * z / one < one := by
    have ninth := nine_mul_square_le third
    omega
  rw [atanhBy, atanhTailBy_engine (by decide : 1 + 2 * (degreeMax / 2) = degreeMax) small
    (.inr (by decide))]
  by_cases full : Outlasts one z
  · rw [if_pos full]
    exact congrArg (· >>= _) (if_pos full)
  · rw [if_neg full]
    exact congrArg (· >>= _) (if_neg full)

/-- A larger argument has larger powers. -/
theorem Outlasts.mono (h : Outlasts one z) (le : z ≤ w) : Outlasts one w := by
  have monotone (square : Nat) : Monotone (nextPower square one) := fun _ _ order =>
    Nat.div_le_div_right (Nat.mul_le_mul_right square order)
  have squares (power : Nat) : nextPower (z * z / one) one power ≤ nextPower (w * w / one) one power :=
    Nat.div_le_div_right (Nat.mul_le_mul_left power (Nat.div_le_div_right (Nat.mul_le_mul le le)))
  calc degreeMax ≤ (nextPower (z * z / one) one)^[degreeMax / 2] z := h
    _ ≤ (nextPower (w * w / one) one)^[degreeMax / 2] z :=
        (monotone _).iterate_le_of_le squares _ z
    _ ≤ (nextPower (w * w / one) one)^[degreeMax / 2] w := (monotone _).iterate _ le

/-! ## Where a series outlasts its counter -/

private theorem pow_mul_iterate_le (positive : 0 < one) (small : 9 * square ≤ one)
    (rounds power : Nat) : 9 ^ rounds * (nextPower square one)^[rounds] power ≤ power := by
  have ninth (power : Nat) : 9 * nextPower square one power ≤ power := nine_mul_next_le positive small
  induction rounds generalizing power with
  | zero => simp
  | succ rounds ih =>
    rw [Function.iterate_succ_apply, Nat.pow_succ', Nat.mul_assoc]
    exact (Nat.mul_le_mul_left 9 (ih _)).trans (ninth power)

/-- The square of a third is more than a tenth. -/
private theorem le_ten_mul_square (whole : one ≤ 3 * z + 2) (large : 40 ≤ z) :
    one ≤ 10 * (z * z / one) := by
  by_contra small
  have positive : 0 < one := by omega
  have cut : z * z < (z * z / one + 1) * one :=
    (Nat.div_lt_iff_lt_mul positive).mp (Nat.lt_succ_self _)
  nlinarith

/-- Two more than a power falls to a tenth at most. -/
private theorem le_pow_mul_iterate (positive : 0 < one) (large : one ≤ 10 * square)
    (rounds power : Nat) :
    power + 2 ≤ 10 ^ rounds * ((nextPower square one)^[rounds] power + 2) := by
  have tenth (power : Nat) : power + 2 ≤ 10 * (nextPower square one power + 2) := by
    have cut : power * square < (nextPower square one power + 1) * one :=
      (Nat.div_lt_iff_lt_mul positive).mp (Nat.lt_succ_self _)
    have order : power * one < 10 * (nextPower square one power + 1) * one := by
      calc power * one ≤ power * (10 * square) := Nat.mul_le_mul_left power large
        _ = 10 * (power * square) := Nat.mul_left_comm ..
        _ < 10 * ((nextPower square one power + 1) * one) := Nat.mul_lt_mul_of_pos_left cut (by decide)
        _ = 10 * (nextPower square one power + 1) * one := (Nat.mul_assoc ..).symm
    have less := Nat.lt_of_mul_lt_mul_right order
    omega
  induction rounds generalizing power with
  | zero => simp
  | succ rounds ih =>
    rw [Function.iterate_succ_apply, Nat.pow_succ', Nat.mul_assoc]
    exact (tenth power).trans (Nat.mul_le_mul_left 10 (ih _))

/-- Up to this scale every series of a logarithm ends in time. -/
def scaleInTime : Nat := 2049000000

theorem not_outlasts (short : scale ≤ scaleInTime) (third : z ≤ 10 ^ scale / 3) :
    ¬ Outlasts (10 ^ scale) z := by
  intro full
  have unit : 0 < 10 ^ scale := Nat.pow_pos (by decide)
  have power : 10 ^ scale ≤ 9 ^ (degreeMax / 2) :=
    (Nat.pow_le_pow_right (by decide) (short.trans (by decide))).trans
      (pow_mul_div_le (p := 125) (q := 131) (by decide) (by decide) (by decide) (degreeMax / 2))
  have falls := pow_mul_iterate_le unit (nine_mul_square_le third) (degreeMax / 2) z
  have single : 9 ^ (degreeMax / 2) * 1 ≤
      9 ^ (degreeMax / 2) * (nextPower (z * z / 10 ^ scale) (10 ^ scale))^[degreeMax / 2] z :=
    Nat.mul_le_mul_left _ ((by decide : 1 ≤ degreeMax).trans full)
  omega

/-- Ten digits more than there are rounds are not used up in them. -/
private theorem le_iterate_third {rounds : Nat} (long : rounds + 11 ≤ scale) :
    let z := 10 ^ scale / 3
    10 ^ 10 ≤ (nextPower (z * z / 10 ^ scale) (10 ^ scale))^[rounds] z + 2 := by
  intro z
  have lead : 10 ^ rounds * 10 ^ 10 ≤ z := by
    rw [Nat.le_div_iff_mul_le (by decide)]
    calc 10 ^ rounds * 10 ^ 10 * 3 ≤ 10 ^ rounds * 10 ^ 11 := by omega
      _ = 10 ^ (rounds + 11) := (Nat.pow_add ..).symm
      _ ≤ 10 ^ scale := Nat.pow_le_pow_right (by decide) long
  have unit : 0 < 10 ^ rounds := Nat.pow_pos (by decide)
  have large : 10 ^ scale ≤ 10 * (z * z / 10 ^ scale) := le_ten_mul_square (by omega) (by omega)
  have falls := le_pow_mul_iterate (Nat.pow_pos (by decide)) large rounds z
  exact Nat.le_of_mul_le_mul_left ((lead.trans (Nat.le_add_right z 2)).trans falls) unit

theorem outlasts_third (long : degreeMax / 2 + 11 ≤ scale) :
    Outlasts (10 ^ scale) (10 ^ scale / 3) := by
  have left := le_iterate_third long
  have word : degreeMax + 2 ≤ 10 ^ 10 := by decide
  exact Nat.le_of_add_le_add_right (word.trans left)

end Series

/-! ## The logarithm -/

/-- To this scale the series of a third outlasts its counter, which is the longest of the three. -/
def SeriesOutlasts (scale : Nat) : Prop := Outlasts (10 ^ scale) (10 ^ scale / 3)

noncomputable instance (scale : Nat) : Decidable (SeriesOutlasts scale) := Classical.propDecidable _

/-- From one half on, the distance to one is a third of the sum with it at most. -/
private theorem quotient_le_third {one m : Nat} (least : one ≤ 2 * m) (most : m < one) :
    (one - m) * one / (m + one) ≤ one / 3 := by
  calc (one - m) * one / (m + one) ≤ (one - m) * one / ((one - m) * 3) :=
        Nat.div_le_div_left (by omega) (by omega)
    _ = one / 3 := Nat.mul_div_mul_left _ _ (by omega)

variable {x : Decimal} {precision cancelled : Nat} {mode : RoundingMode}

/-- A mantissa is doubled three times at most, into the range from one half to one, and the argument of
its series is a third at most. -/
theorem doubled_mantissa (nonzero : x.coefficient ≠ 0) (positive : 0 < scale) :
    let one := 10 ^ scale
    let doubling := doubled (one / 2) (x.mantissa scale)
    0 < x.mantissa scale ∧ doubling.1 ≤ 3 ∧ one / 2 ≤ doubling.2 ∧ doubling.2 < one ∧
      (one - doubling.2) * one / (doubling.2 + one) ≤ one / 3 := by
  dsimp only
  obtain ⟨least, most⟩ := mantissa_bounds nonzero positive
  have half : 10 ^ scale / 2 * 2 = 10 ^ scale :=
    Nat.div_mul_cancel (dvd_pow (by decide) positive.ne')
  have some : 0 < x.mantissa scale := by omega
  have short : x.mantissa scale < 2 * (10 ^ scale / 2) := by omega
  obtain ⟨-, reached, below⟩ := doubled_spec some short
  have inside : (doubled (10 ^ scale / 2) (x.mantissa scale)).2 < 10 ^ scale := by omega
  exact ⟨some, doubled_times_le some short (by omega), reached, inside,
    quotient_le_third (by omega) inside⟩

/-- Of the three series behind a logarithm none is longer than that of a third. -/
theorem lnFixedBy_engine (nonzero : x.coefficient ≠ 0) (positive : 0 < scale) :
    lnFixedBy Steps.engine.degree x scale =
      if SeriesOutlasts scale then .error .exponentExhausted else .ok (x.lnFixed scale) := by
  have unit : 0 < 10 ^ scale := Nat.pow_pos (by decide)
  obtain ⟨-, -, -, -, third⟩ := doubled_mantissa nonzero positive
  have ninth : 10 ^ scale / 9 ≤ 10 ^ scale / 3 := Nat.div_le_div_left (by decide) (by decide)
  rw [lnFixed, lnFixedBy, lnFixedBy, Nat.pow_eq]
  generalize doubled (10 ^ scale / 2) (x.mantissa scale) = doubling at third ⊢
  obtain ⟨doublings, m⟩ := doubling
  dsimp only at third ⊢
  rw [atanhBy_engine unit third, atanhBy_engine unit le_rfl, atanhBy_engine unit ninth]
  by_cases full : SeriesOutlasts scale
  · have third : Outlasts (10 ^ scale) (10 ^ scale / 3) := full
    rw [if_pos full, if_pos third]
    split <;> rfl
  · have ends {z : Nat} (le : z ≤ 10 ^ scale / 3) : ¬ Outlasts (10 ^ scale) z := fun h =>
      full (h.mono le)
    rw [if_neg full, if_neg (ends third), if_neg (ends le_rfl), if_neg (ends ninth)]
    rfl

theorem cancelledDigits_eq (x : Decimal) :
    x.cancelledDigits =
      if x.decade = 0 ∨ x.decade = 1 then
        if maxShift < x.exponent.natAbs then .error .overflow
        else .ok (min (x.sum one.neg).adjusted 0).natAbs
      else .ok 0 := by
  have exact : addBy pure x one.neg 0 = addExact x one.neg := ofExcept_self _
  have gap : (x.exponent - one.neg.exponent).natAbs = x.exponent.natAbs := by
    rw [show one.neg.exponent = 0 from rfl, Int.sub_zero]
  rw [cancelledDigits, cancelledDigitsBy, exact, addExact_eq_ite, gap]
  split_ifs <;> rfl

theorem cancelled_le (taken : x.cancelledDigits = .ok cancelled) : cancelled ≤ maxShift := by
  rw [cancelledDigits_eq] at taken
  split_ifs at taken with near far
  · obtain rfl := Except.ok.inj taken
    have exponent : (x.sum one.neg).exponent = min x.exponent 0 := rfl
    have single := (x.sum one.neg).digits_pos
    simp only [adjusted, saturate, exponentMin, exponentMax, maxShift] at *
    omega
  · obtain rfl := Except.ok.inj taken
    exact Nat.zero_le _

/-- What a logarithm is before it is rounded. -/
def unroundedLn (x : Decimal) (scale : Nat) : Decimal := ⟨x.lnFixed scale, -(scale : Int)⟩

/-- The places behind the point that a logarithm is worked out to. -/
def lnScale (x : Decimal) (precision cancelled : Nat) : Nat :=
  guarded precision + digitCount x.decade.natAbs + cancelled

theorem guarded_pos (precision : Nat) : 0 < guarded precision := by
  simp only [guarded, guardDigits, precisionMax]
  omega

theorem lnScale_pos (x : Decimal) (precision cancelled : Nat) : 0 < lnScale x precision cancelled := by
  have single := guarded_pos precision
  rw [lnScale]
  omega

/-- No number is so large or so near to one that many places are added. -/
theorem lnScale_le (precision : Nat) (taken : x.cancelledDigits = .ok cancelled) :
    lnScale x precision cancelled ≤ guarded precision + 19 + maxShift := by
  have few := cancelled_le taken
  have decade : digitCount x.decade.natAbs ≤ 19 := by
    rw [digitCount_le_iff (by decide)]
    simp only [decade, saturate, exponentMin, exponentMax]
    omega
  rw [lnScale]
  omega

/-- Half of the largest precision is too much for the counter, whatever the number. -/
theorem seriesOutlasts_lnScale (x : Decimal) (cancelled : Nat) (long : 2147483646 ≤ precision) :
    SeriesOutlasts (lnScale x precision cancelled) := by
  refine outlasts_third ?_
  simp only [lnScale, guarded, guardDigits, precisionMax, degreeMax]
  omega

/-- A logarithm is worked out to so many places that its series outlast their counter. -/
def LogOutlasts (x : Decimal) (precision : Nat) : Prop :=
  0 < x.coefficient ∧ x.value ≠ 1 ∧
    ∃ cancelled, x.cancelledDigits = .ok cancelled ∧ SeriesOutlasts (lnScale x precision cancelled)

theorem not_logOutlasts (limited : precision ≤ 2047000000) : ¬ LogOutlasts x precision := by
  rintro ⟨-, -, cancelled, taken, outlasts⟩
  have short := lnScale_le precision taken
  refine not_outlasts (short.trans ?_) le_rfl outlasts
  simp only [guarded, guardDigits, precisionMax, maxShift, scaleInTime]
  omega

/-- The logarithm of one is zero. -/
theorem ln_of_value_eq_one (unit : x.value = 1) : x.ln precision mode = .ok ⟨0, 0⟩ := by
  have above : 0 < x.coefficient := by
    rw [← zero_lt_value_iff, unit]
    exact one_pos
  have equal : compare x one = .eq := by
    rw [compare_eq_cmp, cmp_eq_eq_iff, unit, value_one]
  rw [ln, lnBy, if_neg (not_le.mpr above), Steps.engine_exponent, compareBy_eq rfl rfl, pure_bind,
    if_pos equal]
  rfl

/-- A logarithm is refused where its series outlast their counter, and rounded otherwise. -/
theorem ln_eq_bind (positive : 0 < x.coefficient) (other : x.value ≠ 1) :
    x.ln precision mode = x.cancelledDigits >>= fun cancelled =>
      if SeriesOutlasts (lnScale x precision cancelled) then .error .exponentExhausted
      else .ok ((unroundedLn x (lnScale x precision cancelled)).round precision mode) := by
  have unequal : ¬ compare x one = .eq := by
    rw [compare_eq_cmp, cmp_eq_eq_iff]
    simpa [value, one] using other
  rw [ln, lnBy, if_neg (not_le.mpr positive), Steps.engine_exponent, compareBy_eq rfl rfl, pure_bind,
    if_neg unequal]
  refine congrArg (x.cancelledDigits >>= ·) (funext fun cancelled => ?_)
  dsimp only
  rw [← lnScale, lnFixedBy_engine positive.ne' (lnScale_pos x precision cancelled)]
  split <;> rfl

/-- At a precision that leaves its series in time, a logarithm is refused only near one. -/
theorem ln_eq (positive : 0 < x.coefficient) (other : x.value ≠ 1) (limited : precision ≤ 2047000000) :
    x.ln precision mode = x.cancelledDigits.map fun cancelled =>
      (unroundedLn x (lnScale x precision cancelled)).round precision mode := by
  rw [ln_eq_bind positive other]
  cases taken : x.cancelledDigits with
  | error condition => rfl
  | ok cancelled =>
    have ends : ¬ SeriesOutlasts (lnScale x precision cancelled) := fun outlasts =>
      not_logOutlasts limited ⟨positive, other, cancelled, taken, outlasts⟩
    rw [ok_bind, if_neg ends]
    rfl

theorem ln_eq_exhausted_iff :
    x.ln precision mode = .error .exponentExhausted ↔ LogOutlasts x precision := by
  by_cases positive : 0 < x.coefficient
  · by_cases unit : x.value = 1
    · simp [ln_of_value_eq_one unit, LogOutlasts, unit]
    · have refused : x.cancelledDigits ≠ .error .exponentExhausted := by
        rw [cancelledDigits_eq]
        split_ifs <;> simp
      rw [ln_eq_bind positive unit, bind_eq_error_iff, or_iff_right refused]
      simp [LogOutlasts, positive, unit]
  · rw [ln, lnBy, if_pos (not_lt.mp positive)]
    simp [LogOutlasts, positive]

end DecimalConformance.Decimal
