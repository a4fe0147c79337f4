import DecimalConformance.Proofs.Decimal.CorrectRounding
import Mathlib.Tactic.LinearCombination

/-! Rounding among the decimals of a length.
No decimal that fits a precision is nearer to a number than the rounded one; where another one is as
near, its last digit or its size rules it out.  Towards zero the rounded one is the last that the
number reaches. -/
namespace DecimalConformance

variable {K : Type} [Field K] [LinearOrder K] [IsStrictOrderedRing K]

namespace RoundingMode

/-- No natural number is nearer than the selected one, and the mode decides between two neighbours
as near. -/
theorem Selects.nearest {mode : RoundingMode} {x : K} {n m : Nat} (h : mode.Selects x n)
    (nearest : mode ≠ .towardZero) (other : m ≠ n) :
    |x - n| < |x - m| ∨
      |x - n| = |x - m| ∧ (mode = .nearestEven → Odd m) ∧ (mode = .nearestAway → m ≤ n) := by
  have half := h.abs_sub_le_half nearest
  have apart : 1 ≤ |x - n| + |x - m| := by
    have whole : 1 ≤ |(n : Int) - m| := Int.one_le_abs (by omega)
    have whole : (1 : K) ≤ |(n : K) - m| := by exact_mod_cast whole
    have path := abs_sub_le (n : K) x m
    rw [abs_sub_comm (n : K) x] at path
    exact whole.trans path
  rcases lt_or_ge |x - n| |x - m| with nearer | tie
  · exact .inl nearer
  · have left : |x - n| = 1 / 2 := by linarith
    have right : |x - m| = 1 / 2 := by linarith
    refine .inr ⟨left.trans right.symm, ?_, ?_⟩
    · rintro rfl
      obtain ⟨-, even⟩ := h.resolve_left (by rw [left]; exact lt_irrefl _)
      have next : m = n + 1 ∨ n = m + 1 := by
        rcases abs_eq (by norm_num : (0 : K) ≤ 1 / 2) |>.mp left with low | high <;>
          rcases abs_eq (by norm_num : (0 : K) ≤ 1 / 2) |>.mp right with low' | high'
        · exact absurd (by exact_mod_cast (by linarith : (m : K) = n)) other
        · exact .inl (by exact_mod_cast (by linarith : (m : K) = n + 1))
        · exact .inr (by exact_mod_cast (by linarith : (n : K) = m + 1))
        · exact absurd (by exact_mod_cast (by linarith : (m : K) = n)) other
      rcases next with rfl | rfl
      · exact even.add_one
      · exact Nat.not_even_iff_odd.mp (Nat.even_add_one.mp even)
    · rintro rfl
      have up := h.resolve_left (by rw [left]; exact lt_irrefl _)
      have size := abs_le.mp right.le
      exact_mod_cast (by linarith : (m : K) ≤ n)

theorem Selects.abs_sub_le {mode : RoundingMode} {x : K} {n : Nat} (h : mode.Selects x n)
    (nearest : mode ≠ .towardZero) (m : Nat) : |x - n| ≤ |x - m| := by
  by_cases same : m = n
  · rw [same]
  · rcases h.nearest nearest same with nearer | ⟨tie, -⟩
    · exact nearer.le
    · exact tie.le

/-- For `x` the mode takes `r` before `w`.  A tie rules out the odd one, or the smaller one. -/
def Prefers (mode : RoundingMode) (x : ℚ) (r w : Decimal) : Prop :=
  match mode with
  | towardZero => |r.value| ≤ |x| ∧ (|w.value| ≤ |x| → |w.value| ≤ |r.value|)
  | nearestAway =>
    |x - r.value| < |x - w.value| ∨ |x - r.value| = |x - w.value| ∧ |w.value| ≤ |r.value|
  | nearestEven =>
    |x - r.value| < |x - w.value| ∨
      |x - r.value| = |x - w.value| ∧ (w.value = r.value ∨ Odd w.coefficient)

end RoundingMode

namespace Decimal

variable {mode : RoundingMode} {precision : Nat} {place : Int} {x : ℚ} {r w : Decimal}

theorem abs_sub_of_mul_nonneg {a b : ℚ} (h : 0 ≤ a * b) : |a - b| = |(|a| - |b|)| := by
  have product : |a| * |b| = a * b := by rw [← abs_mul, abs_of_nonneg h]
  rw [← sq_eq_sq_iff_abs_eq_abs]
  linear_combination 2 * product - abs_mul_abs_self a - abs_mul_abs_self b

private theorem abs_lt_abs_sub_of_mul_neg {a b : ℚ} (h : a * b < 0) : |a| < |a - b| := by
  rw [← sq_lt_sq]
  nlinarith [mul_self_nonneg b]

/-- A decimal is a multiple of a place not above its own. -/
theorem exists_multiple (w : Decimal) (le : place ≤ w.exponent) :
    ∃ m : Nat, |w.value| = m * 10 ^ place ∧ (Odd m → Odd w.coefficient) := by
  refine ⟨w.coefficient.natAbs * 10 ^ (w.exponent - place).toNat, abs_value_eq_shifted le, ?_⟩
  exact fun odd => Int.natAbs_odd.mp (Nat.odd_mul.mp odd).1

/-- With digits below a place, a short decimal stays below the first one that needs it. -/
theorem abs_value_lt_of_exponent_lt (short : w.digits ≤ precision) (positive : 0 < precision)
    (below : w.exponent < place) : |w.value| < (10 ^ (precision - 1) : Nat) * 10 ^ place := by
  by_cases zero : w.coefficient = 0
  · rw [value_eq_zero_iff.mpr zero, abs_zero]
    positivity
  · have most := (abs_value_bounds zero).2
    have coarser : (10 : ℚ) ^ (w.digits + w.exponent) ≤ 10 ^ ((precision - 1 : Nat) + place) :=
      zpow_le_zpow_right₀ (by norm_num) (by omega)
    rw [← pow_mul_zpow (precision - 1)] at coarser
    push_cast
    exact most.trans_le coarser

private theorem Selected.prefers_towardZero {n : Nat} (h : Selected .towardZero place x r.value n)
    (least : ((10 ^ (precision - 1) : Nat) : ℚ) * 10 ^ place ≤ |x|) (positive : 0 < precision)
    (short : w.digits ≤ precision) : RoundingMode.towardZero.Prefers x r w := by
  obtain ⟨⟨below, above⟩, size, -⟩ := h
  have unit : (0 : ℚ) < 10 ^ place := by positivity
  rw [le_div_iff₀ unit] at below
  rw [div_lt_iff₀ unit] at above
  have kept {m : Nat} (reached : (m : ℚ) * 10 ^ place ≤ |x|) : (m : ℚ) * 10 ^ place ≤ |r.value| := by
    have next := lt_of_mul_lt_mul_right (reached.trans_lt above) unit.le
    have le : m ≤ n := Nat.lt_succ_iff.mp (by exact_mod_cast next)
    rw [size]
    exact mul_le_mul_of_nonneg_right (by exact_mod_cast le) unit.le
  refine ⟨size.trans_le below, fun reached => ?_⟩
  rcases lt_or_ge w.exponent place with finer | coarser
  · exact (abs_value_lt_of_exponent_lt short positive finer).le.trans (kept least)
  · obtain ⟨m, multiple, -⟩ := exists_multiple w coarser
    rw [multiple] at reached ⊢
    exact kept reached

/-- The distance from a number to a multiple of a place on the same side of zero. -/
theorem abs_sub_eq_of_multiple {z : ℚ} {m : Nat} (size : |z| = m * 10 ^ place)
    (sign : 0 ≤ x * z) : |x - z| = |(|x| / 10 ^ place) - m| * 10 ^ place := by
  have unit : (0 : ℚ) < 10 ^ place := by positivity
  rw [abs_sub_of_mul_nonneg sign, size, ← abs_of_pos unit, ← abs_mul, sub_mul, abs_of_pos unit,
    div_mul_cancel₀ _ unit.ne']

private theorem Selected.nearer_or_tie {n : Nat} (h : Selected mode place x r.value n)
    (nearest : mode ≠ .towardZero) (nonzero : x ≠ 0)
    (least : ((10 ^ (precision - 1) : Nat) : ℚ) * 10 ^ place ≤ |x|) (positive : 0 < precision)
    (short : w.digits ≤ precision) :
    |x - r.value| < |x - w.value| ∨ w.value = r.value ∨
      |x - r.value| = |x - w.value| ∧ (mode = .nearestEven → Odd w.coefficient) ∧
        (mode = .nearestAway → |w.value| ≤ |r.value|) := by
  obtain ⟨selects, size, sign⟩ := h
  have unit : (0 : ℚ) < 10 ^ place := by positivity
  have distance := abs_sub_eq_of_multiple size sign
  -- On its own side of zero a number is as near to no multiple as to the selected one.
  have nearest_multiple (m : Nat) : |x - r.value| ≤ |(|x| - m * 10 ^ place)| := by
    have scaled : |x| - m * 10 ^ place = (|x| / 10 ^ place - m) * 10 ^ place := by field_simp
    rw [distance, scaled, abs_mul, abs_of_pos unit]
    exact mul_le_mul_of_nonneg_right (selects.abs_sub_le nearest m) unit.le
  rcases lt_or_ge (x * w.value) 0 with opposite | same
  · have near := nearest_multiple 0
    rw [Nat.cast_zero, zero_mul, sub_zero, abs_abs] at near
    exact .inl (near.trans_lt (abs_lt_abs_sub_of_mul_neg opposite))
  · rcases lt_or_ge w.exponent place with finer | coarser
    · have below := abs_value_lt_of_exponent_lt short positive finer
      have near := nearest_multiple (10 ^ (precision - 1))
      rw [abs_of_nonneg (sub_nonneg.mpr least)] at near
      have gap := abs_sub_abs_le_abs_sub x w.value
      exact .inl (by linarith)
    · obtain ⟨m, multiple, odd⟩ := exists_multiple w coarser
      have distance' := abs_sub_eq_of_multiple multiple same
      by_cases other : m = n
      · subst other
        rcases abs_eq_abs.mp (multiple.trans size.symm) with equal | negated
        · exact .inr (.inl equal)
        · have product : x * r.value = 0 := by
            rw [negated] at same
            linarith
          have zero := (mul_eq_zero.mp product).resolve_left nonzero
          exact .inr (.inl (by rw [negated, zero, neg_zero]))
      · rw [distance, distance', multiple, size]
        rcases selects.nearest nearest other with nearer | ⟨tie, even, away⟩
        · exact .inl (mul_lt_mul_of_pos_right nearer unit)
        · refine .inr (.inr ⟨by rw [tie], fun toEven => odd (even toEven), fun up => ?_⟩)
          exact mul_le_mul_of_nonneg_right (by exact_mod_cast away up) unit.le

/-- No other decimal of at most as many digits is preferred to a rounded number. -/
theorem prefers_of_roundsTo (h : RoundsTo mode precision x r.value) (positive : 0 < precision)
    (nonzero : x ≠ 0) (short : w.digits ≤ precision) : mode.Prefers x r w := by
  rw [RoundsTo, if_neg (by simp [nonzero, positive.ne'])] at h
  obtain ⟨place, n, least, -, selects, size, sign⟩ := h
  have selected : Selected mode place x r.value n := ⟨selects, size, sign⟩
  have least : ((10 ^ (precision - 1) : Nat) : ℚ) * 10 ^ place ≤ |x| := by
    push_cast
    exact least
  cases mode with
  | towardZero => exact selected.prefers_towardZero least positive short
  | nearestEven =>
    rcases selected.nearer_or_tie (by decide) nonzero least positive short with
      near | equal | ⟨tie, odd, -⟩
    · exact .inl near
    · exact .inr ⟨by rw [equal], .inl equal⟩
    · exact .inr ⟨tie, .inr (odd rfl)⟩
  | nearestAway =>
    rcases selected.nearer_or_tie (by decide) nonzero least positive short with
      near | equal | ⟨tie, -, away⟩
    · exact .inl near
    · exact .inr ⟨by rw [equal], by rw [equal]⟩
    · exact .inr ⟨tie, away rfl⟩

/-! ## The rounding of the engine -/

variable {d : Decimal}

/-- What is short enough is left as it is.  Of anything longer exactly as many digits are kept as the
precision says, with the sign: those that the mode selects, the dropped ones counted by the exponent,
and one more if they are carried to the next power of ten.  Unless that takes the exponent out of
range, no other decimal as short is preferred. -/
theorem round_takes_preferred (precision : Nat) (mode : RoundingMode)
    (least : exponentMin ≤ d.exponent) :
    (precision = 0 ∨ d.digits ≤ precision → d.round precision mode = d) ∧
    (0 < precision → precision < d.digits →
      (d.round precision mode).digits = precision ∧
      (d.round precision mode).coefficient.sign = d.coefficient.sign ∧
      ∃ kept carry : Nat,
        mode.Selects ((d.coefficient.natAbs : ℚ) / 10 ^ (d.digits - precision)) kept ∧
        (carry = if kept = 10 ^ precision then 1 else 0) ∧
        (d.round precision mode).coefficient.natAbs * 10 ^ carry = kept ∧
        (d.round precision mode).exponent =
          min exponentMax (d.exponent + ↑(d.digits - precision) + carry) ∧
        (d.exponent + ↑(d.digits - precision) + carry ≤ exponentMax →
          ∀ w : Decimal, w.digits ≤ precision →
            mode.Prefers d.value (d.round precision mode) w)) := by
  refine ⟨fun whole => if_pos whole, fun positive long => ?_⟩
  have nonzero := coefficient_ne_zero_of_digits (by omega : 1 < d.digits)
  obtain ⟨kept, carry, selected, carried, filled, divides, free⟩ :=
    roundFreely_of_lt mode positive long
  have capped := round_eq_capped_of_lt mode positive long least
  have coefficient : (d.round precision mode).coefficient =
      d.coefficient.sign * ↑(kept / 10 ^ carry) := by
    rw [capped, free]
    rfl
  have whole := Nat.div_mul_cancel divides
  have filled : kept / 10 ^ carry ≠ 0 := by
    intro none
    rw [none, Nat.zero_mul] at whole
    exact filled whole.symm
  refine ⟨digits_round_of_lt mode positive long, ?_, kept, carry, ?_, carried, ?_, ?_, ?_⟩
  · rw [coefficient, sign_sign_mul _ filled]
  · rw [selected]
    exact_mod_cast mode.selects_quotient (K := ℚ) _ (Nat.pow_pos (by omega))
  · rw [coefficient, natAbs_sign_mul nonzero, whole]
  · rw [capped, free]
    rfl
  · intro inside w short
    have same : d.round precision mode = d.roundFreely precision mode := by
      rw [capped, capped_eq_self]
      rwa [free]
    have correct := roundsTo_roundFreely d precision mode
    rw [← same] at correct
    exact prefers_of_roundsTo correct positive (mt value_eq_zero_iff.mp nonzero) short

/-- A carry through all digits that are kept: nothing with four digits is nearer to -999.95. -/
theorem round_takes_preferred_carry :
    exponentMin ≤ (⟨-99995, -2⟩ : Decimal).exponent ∧
      (⟨-99995, -2⟩ : Decimal).round 4 .nearestEven = ⟨-1000, 0⟩ ∧
      ∀ w : Decimal, w.digits ≤ 4 →
        RoundingMode.nearestEven.Prefers (⟨-99995, -2⟩ : Decimal).value ⟨-1000, 0⟩ w := by
  have least : exponentMin ≤ (⟨-99995, -2⟩ : Decimal).exponent := by decide
  have rounded : (⟨-99995, -2⟩ : Decimal).round 4 .nearestEven = ⟨-1000, 0⟩ := by decide
  obtain ⟨-, long⟩ := round_takes_preferred 4 .nearestEven least
  obtain ⟨-, -, kept, carry, -, carried, -, -, preferred⟩ := long (by decide) (by decide)
  rw [rounded] at preferred
  refine ⟨least, rounded, preferred ?_⟩
  have one : carry ≤ 1 := by
    rw [carried]
    split <;> omega
  have dropped : (⟨-99995, -2⟩ : Decimal).digits - 4 = 1 := by decide
  rw [dropped]
  simp only [exponentMax]
  omega

end Decimal
end DecimalConformance
