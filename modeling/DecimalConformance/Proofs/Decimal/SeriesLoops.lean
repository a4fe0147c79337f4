import DecimalConformance.Proofs.Decimal.Exhaustion

/-! The loops behind exponentials and logarithms.
Here they run round by round, without the bounds that the recursive definitions carry: an argument is
halved or doubled for as long as it takes, and terms are added up to the first that is zero, while a
counter in a word has the degrees.  A loop that ends takes no more rounds than its numbers have digits,
and gives what the definitions give.  Only for the series of a logarithm can the counter be too small. -/
namespace DecimalConformance

/-! ## Loops -/

/-- So many rounds lead from one state to another.  A round goes on with another state or ends the loop,
and there is none where a step of it leaves its word. -/
inductive Rounds {State : Type} (turn : State → Option (ForInStep State)) : State → Nat → State → Prop
  | none (s : State) : Rounds turn s 0 s
  | more {rounds : Nat} {s u t : State} (goesOn : turn s = some (.yield u))
      (rest : Rounds turn u rounds t) : Rounds turn s (rounds + 1) t

/-- A loop that is entered in a state ends in another one, so many rounds later. -/
def Ends {State : Type} (turn : State → Option (ForInStep State)) (s : State) (rounds : Nat)
    (t : State) : Prop :=
  ∃ last, Rounds turn s rounds last ∧ turn last = some (.done t)

/-- A loop comes to a round with a step that leaves its word. -/
def Overruns {State : Type} (turn : State → Option (ForInStep State)) (s : State) (rounds : Nat) : Prop :=
  ∃ last, Rounds turn s rounds last ∧ turn last = none

section Loops

variable {State : Type} {turn : State → Option (ForInStep State)} {s u t : State} {rounds : Nat}

theorem Ends.more (goesOn : turn s = some (.yield u)) (rest : Ends turn u rounds t) :
    Ends turn s (rounds + 1) t := by
  obtain ⟨last, way, done⟩ := rest
  exact ⟨last, .more goesOn way, done⟩

theorem Ends.now (done : turn s = some (.done t)) : Ends turn s 0 t := ⟨s, .none s, done⟩

theorem Overruns.more (goesOn : turn s = some (.yield u)) (rest : Overruns turn u rounds) :
    Overruns turn s (rounds + 1) := by
  obtain ⟨last, way, stuck⟩ := rest
  exact ⟨last, .more goesOn way, stuck⟩

/-- No loop that overruns comes to an end as well. -/
theorem Overruns.not_ends (h : Overruns turn s rounds) (others : Nat) (t : State) :
    ¬ Ends turn s others t := by
  obtain ⟨last, way, stuck⟩ := h
  rintro ⟨last', way', done⟩
  induction way generalizing others with
  | none s =>
    cases way' with
    | none => cases stuck.symm.trans done
    | more goesOn rest => cases stuck.symm.trans goesOn
  | more goesOn rest ih =>
    cases way' with
    | none => cases goesOn.symm.trans done
    | more goesOn' rest' =>
      cases goesOn.symm.trans goesOn'
      exact ih _ stuck rest'

/-- The value of a state as its round gives it: that of the next state, the result, or a refusal. -/
def afterTurn {α : Type} (value : State → Except Condition α) (result : State → α) :
    Option (ForInStep State) → Except Condition α
  | some (.yield u) => value u
  | some (.done t) => .ok (result t)
  | none => .error .exponentExhausted

/-- A loop in which each round takes a digit from a number ends with the value that its rounds keep, or
overruns where there is none. -/
theorem ends_or_overruns {base size : Nat} {α : Type} {result : State → α}
    {value : State → Except Condition α} (measure : State → Nat)
    (shrinks : ∀ s u, turn s = some (.yield u) → base * measure u ≤ measure s ∧ 0 < measure s)
    (kept : ∀ s, value s = afterTurn value result (turn s)) (short : measure s < base ^ size) :
    (∃ rounds ≤ size, ∃ t, Ends turn s rounds t ∧ value s = .ok (result t)) ∨
      (∃ rounds, Overruns turn s rounds) ∧ value s = .error .exponentExhausted := by
  induction size generalizing s with
  | zero =>
    rw [kept s]
    match round : turn s with
    | some (.yield u) =>
      have filled := (shrinks s u round).2
      rw [Nat.pow_zero] at short
      omega
    | some (.done t) => exact .inl ⟨0, le_rfl, t, .now round, rfl⟩
    | none => exact .inr ⟨⟨0, s, .none s, round⟩, rfl⟩
  | succ size ih =>
    rw [kept s]
    match round : turn s with
    | some (.yield u) =>
      have shorter : measure u < base ^ size := by
        rw [Nat.pow_succ'] at short
        exact Nat.lt_of_mul_lt_mul_left ((shrinks s u round).1.trans_lt short)
      rcases ih shorter with ⟨rounds, few, t, ends, sum⟩ | ⟨⟨rounds, overruns⟩, refused⟩
      · exact .inl ⟨rounds + 1, Nat.succ_le_succ few, t, ends.more round, sum⟩
      · exact .inr ⟨⟨rounds + 1, overruns.more round⟩, refused⟩
    | some (.done t) => exact .inl ⟨0, Nat.zero_le _, t, .now round, rfl⟩
    | none => exact .inr ⟨⟨0, s, .none s, round⟩, rfl⟩

end Loops

namespace Decimal

variable {x : Decimal}

/-! ## Halving and doubling -/

def halvingTurn (bound n : Nat) : Option (ForInStep Nat) :=
  some (if bound ≤ n then .yield (n / 2) else .done n)

def doublingTurn (bound n : Nat) : Option (ForInStep Nat) :=
  some (if n < bound then .yield (2 * n) else .done n)

/-- A number is halved until it is below the bound. -/
theorem ends_halvings {bound : Nat} (positive : 0 < bound) (n : Nat) :
    Ends (halvingTurn bound) n (halvings bound n) (n / 2 ^ halvings bound n) := by
  induction n using Nat.strongRecOn with
  | ind n ih =>
    rw [halvings]
    split
    · next reached =>
      rw [Nat.pow_succ', ← Nat.div_div_eq_div_mul]
      exact (ih (n / 2) (by omega)).more (congrArg some (if_pos reached.2))
    · next short =>
      rw [Nat.pow_zero, Nat.div_one]
      exact .now (congrArg some (if_neg (by omega)))

/-- A number is doubled until it reaches the bound. -/
theorem ends_doubled {bound n : Nat} (positive : 0 < n) :
    Ends (doublingTurn bound) n (doubled bound n).1 (doubled bound n).2 := by
  induction gap : bound - n using Nat.strongRecOn generalizing n with
  | ind gap ih =>
    rw [doubled]
    split_ifs with below
    · exact (ih (bound - 2 * n) (by omega) (by omega) rfl).more (congrArg some (if_pos below.2))
    · exact .now (congrArg some (if_neg (by omega)))

/-! ## Series -/

/-- What a loop over a series knows: a degree, what the next term is made from, and a sum. -/
structure SeriesState where
  degree : Nat
  power : Nat
  sum : Nat

/-- A round of an exponential series ends it at a zero term, and counts the degree behind any other. -/
def expTurn (reduced one : Nat) (s : SeriesState) : Option (ForInStep SeriesState) :=
  let term := s.power * reduced / one / s.degree
  if term = 0 then some (.done ⟨s.degree, term, s.sum⟩)
  else if s.degree + 1 ≤ degreeMax then some (.yield ⟨s.degree + 1, term, s.sum + term⟩)
  else none

/-- A round of the series of an inverse hyperbolic tangent counts the degree before it looks at a term. -/
def atanhTurn (square one : Nat) (s : SeriesState) : Option (ForInStep SeriesState) :=
  let power := nextPower square one s.power
  let degree := s.degree + 2
  if degree ≤ degreeMax then
    let term := power / degree
    if term = 0 then some (.done ⟨degree, power, s.sum⟩)
    else some (.yield ⟨degree, power, s.sum + term⟩)
  else none

section Series

variable {reduced square one size : Nat} {s u t : SeriesState}

/-- The sum in a state together with what is left of the series. -/
private def expValue (reduced one : Nat) (s : SeriesState) : Except Condition Nat :=
  (seriesTailBy Steps.engine.degree reduced one s.degree s.power).map (s.sum + ·)

private def atanhValue (square one : Nat) (s : SeriesState) : Except Condition Nat :=
  (atanhTailBy Steps.engine.degree square one s.degree s.power).map (s.sum + ·)

/-- A term of the sum is left out of the rest of the series. -/
private theorem map_add_bind (sum term : Nat) (rest : Except Condition Nat) :
    (rest >>= fun rest => pure (term + rest)).map (sum + ·) = rest.map (sum + term + ·) := by
  cases rest with
  | error reason => rfl
  | ok rest => exact congrArg Except.ok (Nat.add_assoc ..).symm

private theorem expTerm_le (positive : 0 < one) (small : 2 * reduced ≤ one) (s : SeriesState) :
    2 * (s.power * reduced / one / s.degree) ≤ s.power := by
  cases s.degree with
  | zero => simp
  | succ k => exact half_term positive small

private theorem expValue_eq (positive : 0 < one) (small : 2 * reduced ≤ one) (s : SeriesState) :
    expValue reduced one s =
      afterTurn (expValue reduced one) SeriesState.sum (expTurn reduced one s) := by
  have half := expTerm_le positive small s
  rw [expValue, seriesTailBy, expTurn]
  generalize s.power * reduced / one / s.degree = term at half ⊢
  by_cases zero : term = 0
  · rw [if_neg (by omega), if_pos zero]
    rfl
  · rw [if_pos (by omega), if_neg zero, Steps.engine_degree]
    split
    · exact map_add_bind ..
    · rfl

/-- An exponential series comes to a zero term while its counter lasts. -/
theorem ends_or_overruns_exp (positive : 0 < one) (small : 2 * reduced ≤ one)
    (short : s.power < 2 ^ size) :
    (∃ rounds ≤ size, ∃ t, Ends (expTurn reduced one) s rounds t ∧
        expValue reduced one s = .ok t.sum) ∨
      (∃ rounds, Overruns (expTurn reduced one) s rounds) ∧
        expValue reduced one s = .error .exponentExhausted := by
  refine ends_or_overruns SeriesState.power (fun s u round => ?_)
    (expValue_eq positive small) short
  have half := expTerm_le positive small s
  simp only [expTurn] at round
  split_ifs at round with zero counts
  · cases round
  · obtain rfl := ForInStep.yield.inj (Option.some.inj round)
    exact ⟨half, by omega⟩

private theorem atanhValue_eq (positive : 0 < one) (small : 9 * square ≤ one) (s : SeriesState) :
    atanhValue square one s =
      afterTurn (atanhValue square one) SeriesState.sum (atanhTurn square one s) := by
  rw [atanhValue, atanhTailBy, atanhTurn, Steps.engine_degree, ← nextPower]
  dsimp only
  by_cases counts : s.degree + 2 ≤ degreeMax
  · rw [if_pos counts, if_pos counts, ok_bind]
    by_cases zero : nextPower square one s.power / (s.degree + 2) = 0
    · rw [if_pos zero, if_neg fun goesOn => goesOn.1.ne' zero]
      rfl
    · have term := Nat.pos_of_ne_zero zero
      have falls := nextPower_lt (show square < one by omega) (Nat.pos_of_div_pos term)
      rw [if_neg zero, if_pos ⟨term, falls⟩]
      exact map_add_bind ..
  · rw [if_neg counts, if_neg counts]
    rfl

/-- The series of an inverse hyperbolic tangent comes to a zero term while its counter lasts. -/
theorem ends_or_overruns_atanh (positive : 0 < one) (small : 9 * square ≤ one)
    (short : s.power < 9 ^ size) :
    (∃ rounds ≤ size, ∃ t, Ends (atanhTurn square one) s rounds t ∧
        atanhValue square one s = .ok t.sum) ∨
      (∃ rounds, Overruns (atanhTurn square one) s rounds) ∧
        atanhValue square one s = .error .exponentExhausted := by
  refine ends_or_overruns SeriesState.power (fun s u round => ?_)
    (atanhValue_eq positive small) short
  have ninth : 9 * nextPower square one s.power ≤ s.power := nine_mul_next_le positive small
  simp only [atanhTurn] at round
  split_ifs at round with counts zero
  · cases round
  · obtain rfl := ForInStep.yield.inj (Option.some.inj round)
    have filled := Nat.pos_of_div_pos (Nat.pos_of_ne_zero zero)
    exact ⟨ninth, by omega⟩

end Series

/-! ## The loops of the two functions -/

/-- The loop for an inverse hyperbolic tangent comes to a zero term, with the sum that is given for it. -/
def AtanhEnds (argument one most : Nat) : Prop :=
  let square := argument * argument / one
  ∃ rounds ≤ most, ∃ last : SeriesState,
    Ends (atanhTurn square one) ⟨1, argument, argument⟩ rounds last ∧ last.sum = atanh argument one

/-- The loop for an inverse hyperbolic tangent comes to a degree that its counter does not hold. -/
def AtanhOverruns (argument one : Nat) : Prop :=
  let square := argument * argument / one
  ∃ rounds, Overruns (atanhTurn square one) ⟨1, argument, argument⟩ rounds

/-- The loop ends where its last degrees have no terms. -/
def AtanhLoop (argument one most : Nat) : Prop :=
  if Outlasts one argument then AtanhOverruns argument one else AtanhEnds argument one most

private theorem atanhBy_eq_value (z one : Nat) :
    atanhBy Steps.engine.degree z one = atanhValue (z * z / one) one ⟨1, z, z⟩ := by
  rw [atanhBy, atanhValue]
  cases atanhTailBy Steps.engine.degree (z * z / one) one 1 z <;> rfl

theorem atanhLoop {argument scale : Nat} (third : argument ≤ 10 ^ scale / 3) :
    AtanhLoop argument (10 ^ scale) (2 * scale) := by
  have unit : 0 < 10 ^ scale := Nat.pow_pos (by decide)
  have short : argument < 9 ^ (2 * scale) := by
    calc argument < 10 ^ scale := by omega
      _ ≤ (9 ^ 2) ^ scale := Nat.pow_le_pow_left (by decide) _
      _ = 9 ^ (2 * scale) := (Nat.pow_mul ..).symm
  have value := (atanhBy_eq_value argument (10 ^ scale)).symm.trans (atanhBy_engine unit third)
  rw [AtanhLoop]
  rcases ends_or_overruns_atanh unit (nine_mul_square_le third) (s := ⟨1, argument, argument⟩) short
    with ⟨rounds, few, last, ends, sum⟩ | ⟨overruns, refused⟩
  · rw [sum] at value
    split at value
    · cases value
    · next inTime =>
      rw [if_neg inTime]
      exact ⟨rounds, few, last, ends, Except.ok.inj value⟩
  · rw [refused] at value
    split at value
    · next full =>
      rw [if_pos full]
      exact overruns
    · cases value

theorem atanhOverruns_third {scale : Nat} (outlasts : SeriesOutlasts scale) :
    AtanhOverruns (10 ^ scale / 3) (10 ^ scale) := by
  have full : Outlasts (10 ^ scale) (10 ^ scale / 3) := outlasts
  have loop := atanhLoop (le_refl (10 ^ scale / 3))
  rwa [AtanhLoop, if_pos full] at loop

/-- The loops for an exponential end: the argument is halved eighteen times at most until it is below one
half, and its series comes to a zero term, with the sum that is squared up. -/
def ExpLoopsEnd (x : Decimal) (digits : Nat) : Prop :=
  ∃ steps ≤ 18, ∃ rest,
    Ends (halvingTurn (10 ^ (digits + 2) / 2)) (x.toFixed (digits + 2)) steps rest ∧
    let scale := digits + 10 + steps / 3 + 1
    let one := 10 ^ scale
    let reduced := x.toFixed scale / 2 ^ steps
    ∃ rounds ≤ 4 * scale, ∃ last : SeriesState,
      Ends (expTurn reduced one) ⟨1, one, one⟩ rounds last ∧
      expFixedBy Steps.engine.degree x digits = .ok ⟨squareUp one steps last.sum, -(scale : Int)⟩

/-- The loops for a logarithm: the mantissa is doubled three times at most, into the range from one half
to one, so that the argument of its series is a third at most.  Each of the three series that the
logarithm is put together from ends unless it outlasts its counter. -/
def LnLoops (x : Decimal) (scale : Nat) : Prop :=
  let one := 10 ^ scale
  ∃ doublings ≤ 3, ∃ m,
    Ends (doublingTurn (one / 2)) (x.mantissa scale) doublings m ∧ one / 2 ≤ m ∧ m < one ∧
    let z := (one - m) * one / (m + one)
    z ≤ one / 3 ∧ AtanhLoop z one (2 * scale) ∧ AtanhLoop (one / 3) one (2 * scale) ∧
    AtanhLoop (one / 9) one (2 * scale) ∧
    lnFixedBy Steps.engine.degree x scale =
      if SeriesOutlasts scale then .error .exponentExhausted
      else .ok (((3 * (2 * atanh (one / 3) one) + 2 * atanh (one / 9) one : Nat) : Int) * x.decade -
        (2 * atanh (one / 3) one : Nat) * (doublings : Nat) - (2 * atanh z one : Nat))

theorem expLoopsEnd {digits : Nat} (least : exponentMin ≤ x.exponent)
    (size : x.exponent + x.digits ≤ 5) (limited : digits ≤ precisionMax) : ExpLoopsEnd x digits := by
  have series := expFixedBy_engine least size limited
  have halved := halvings_toFixed_le least size (digits + 2) (by omega)
  have lead := x.digits_pos
  simp only [precisionMax] at limited
  have bound : 0 < 10 ^ (digits + 2) / 2 := by
    have whole : 10 ^ 1 ≤ 10 ^ (digits + 2) := Nat.pow_le_pow_right (by decide) (by omega)
    omega
  refine ⟨_, halved, _, ends_halvings bound _, ?_⟩
  intro scale one reduced
  have falls : 2 * reduced ≤ one :=
    two_mul_reduced_le least (by simp only [exponentMax]; omega) (by simp only [exponentMax]; omega)
      (by omega)
  have short : one < 2 ^ (4 * scale) := by
    rw [Nat.pow_mul]
    exact Nat.pow_lt_pow_left (by decide) (Nat.succ_ne_zero _)
  rcases ends_or_overruns_exp (Nat.pow_pos (by decide)) falls (s := ⟨1, one, one⟩) short
    with ⟨rounds, few, last, ends, sum⟩ | ⟨-, refused⟩
  · obtain ⟨rest, tail, total⟩ := exists_of_map_eq_ok sum
    refine ⟨rounds, few, last, ends, ?_⟩
    rw [expFixedBy, ← total]
    exact congrArg (· >>= _) tail
  · have tail := map_eq_error_iff.mp refused
    have refused : expFixedBy Steps.engine.degree x digits = .error .exponentExhausted := by
      rw [expFixedBy]
      exact congrArg (· >>= _) tail
    cases refused.symm.trans series

theorem lnLoops {scale : Nat} (nonzero : x.coefficient ≠ 0) (positive : 0 < scale) :
    LnLoops x scale := by
  obtain ⟨some, few, reached, inside, third⟩ := doubled_mantissa nonzero positive
  have ninth : 10 ^ scale / 9 ≤ 10 ^ scale / 3 := Nat.div_le_div_left (by decide) (by decide)
  exact ⟨_, few, _, ends_doubled some, reached, inside, third, atanhLoop third, atanhLoop le_rfl,
    atanhLoop ninth, lnFixedBy_engine nonzero positive⟩

/-- Whatever the precision, all loops end that an exponential of an admitted argument runs through.
So do all loops of the logarithm of a positive number that find room in their counters, however many
digits it cancels.  There is room up to precisions a little below half of the largest, and
from half of it on there is none for the series of a third. -/
theorem series_loops_end (x : Decimal) (precision : Nat) :
    (exponentMin ≤ x.exponent → x.adjusted ≤ expMaxAdjusted → ExpLoopsEnd x (guarded precision)) ∧
    ∀ cancelled : Nat, 0 < x.coefficient →
      let scale := lnScale x precision cancelled
      LnLoops x scale ∧
      (x.cancelledDigits = .ok cancelled → precision ≤ 2047000000 →
        ∀ z ≤ 10 ^ scale / 3, AtanhEnds z (10 ^ scale) (2 * scale)) ∧
      (2147483646 ≤ precision → AtanhOverruns (10 ^ scale / 3) (10 ^ scale)) := by
  refine ⟨fun least small => expLoopsEnd least (places_le_of_adjusted_le small) (min_le_left ..), ?_⟩
  intro cancelled positive
  dsimp only
  refine ⟨lnLoops positive.ne' (lnScale_pos x precision cancelled), fun taken limited z third => ?_,
    fun long => atanhOverruns_third (seriesOutlasts_lnScale x cancelled long)⟩
  have short := lnScale_le precision taken
  have inTime : ¬ Outlasts (10 ^ lnScale x precision cancelled) z := by
    refine not_outlasts (short.trans ?_) third
    simp only [guarded, guardDigits, precisionMax, maxShift, scaleInTime]
    omega
  have loop := atanhLoop third
  rwa [AtanhLoop, if_neg inTime] at loop

/-- The largest argument of all takes all eighteen halvings, and the smallest mantissa all three
doublings.  At the largest precision no logarithm comes to an end. -/
theorem series_loops_end_largest :
    exponentMin ≤ 0 ∧ (⟨99999, 0⟩ : Decimal).adjusted ≤ expMaxAdjusted ∧
      halvings (10 ^ 23 / 2) ((⟨99999, 0⟩ : Decimal).toFixed 23) = 18 ∧
      ExpLoopsEnd ⟨99999, 0⟩ (guarded 9) ∧
      0 < (1 : Int) ∧ (doubled (10 ^ 22 / 2) ((⟨1, 5⟩ : Decimal).mantissa 22)).1 = 3 ∧
      LnLoops ⟨1, 5⟩ (lnScale ⟨1, 5⟩ 9 0) ∧
      (⟨1, 5⟩ : Decimal).cancelledDigits = .ok 0 ∧ 9 ≤ 2047000000 ∧
      (∀ z ≤ 10 ^ lnScale ⟨1, 5⟩ 9 0 / 3,
        AtanhEnds z (10 ^ lnScale ⟨1, 5⟩ 9 0) (2 * lnScale ⟨1, 5⟩ 9 0)) ∧
      2147483646 ≤ precisionMax ∧
      AtanhOverruns (10 ^ lnScale ⟨1, 5⟩ precisionMax 0 / 3) (10 ^ lnScale ⟨1, 5⟩ precisionMax 0) := by
  have positive : 0 < (1 : Int) := by decide
  have short : (⟨1, 5⟩ : Decimal).cancelledDigits = .ok 0 := by decide
  obtain ⟨loops, ends, -⟩ := (series_loops_end ⟨1, 5⟩ 9).2 0 positive
  obtain ⟨-, -, overruns⟩ := (series_loops_end ⟨1, 5⟩ precisionMax).2 0 positive
  exact ⟨by decide, by decide, by decide +kernel,
    (series_loops_end ⟨99999, 0⟩ 9).1 (by decide) (by decide), positive, by decide +kernel, loops, short,
    by decide, ends short (by decide), by decide, overruns (by decide)⟩

/-- At more than half of the largest precision the series of a third does not come to a zero term in the
logarithm of two, which is worked out for a power of two.  The exponential behind it would be too
large. -/
theorem third_outlasts_counter :
    let x : Decimal := ⟨2, 0⟩
    let one := 10 ^ lnScale x (guarded 2200000000) 0
    x.cancelledDigits = .ok 0 ∧ (∀ most, ¬ AtanhEnds (one / 3) one most) ∧
      x.power ⟨123456789015, -1⟩ 2200000000 .nearestEven = .error .exponentExhausted := by
  intro x one
  have single : x.cancelledDigits = .ok 0 := by decide
  have outlasts : SeriesOutlasts (lnScale x (guarded 2200000000) 0) :=
    seriesOutlasts_lnScale x 0 (by decide)
  obtain ⟨rounds, overruns⟩ := atanhOverruns_third outlasts
  refine ⟨single, ?_, ?_⟩
  · rintro most ⟨others, -, last, ends, -⟩
    exact overruns.not_ends others last ends
  · rw [power_eq_exhausted_iff]
    have other : x.value ≠ 1 := by norm_num [x, value]
    exact .inr ⟨by decide, by decide, other, 0, single, outlasts⟩

end Decimal
end DecimalConformance
