import DecimalConformance.Decimal.Exponential
import DecimalConformance.Proofs.Decimal.DigitCount
import Mathlib.Tactic.Positivity
import Mathlib.Tactic.Ring

/-! The loops of the exponential function, and how long their numbers get.
The argument is halved a few times only, the series stays below the square of its first term, and
each squaring doubles the digits at most. -/
namespace DecimalConformance.Decimal

variable {x : Decimal}

theorem guarded_eq {precision : Nat} (limited : precision ≤ 1000000) :
    guarded precision = precision + 12 := by
  simp only [guarded, guardDigits, precisionMax]
  omega

/-- In fixed point a number has as many digits as it has places in all. -/
theorem toFixed_lt {lead : Nat} (least : exponentMin ≤ x.exponent)
    (size : x.exponent + x.digits ≤ lead) (scale : Nat) : x.toFixed scale < 10 ^ (lead + scale) := by
  have small : x.coefficient.natAbs < 10 ^ x.digits := lt_pow_digitCount _
  unfold toFixed
  dsimp only
  split
  · next up =>
    have places : x.digits + (saturate (x.exponent + scale)).toNat ≤ lead + scale := by
      simp only [saturate, exponentMin, exponentMax] at *
      omega
    calc x.coefficient.natAbs * Nat.pow 10 (saturate (x.exponent + scale)).toNat
        < 10 ^ x.digits * 10 ^ (saturate (x.exponent + scale)).toNat :=
          Nat.mul_lt_mul_of_pos_right small (Nat.pow_pos (by omega))
      _ = 10 ^ (x.digits + (saturate (x.exponent + scale)).toNat) := (Nat.pow_add ..).symm
      _ ≤ 10 ^ (lead + scale) := Nat.pow_le_pow_right (by omega) places
  · next down =>
    have places : x.digits ≤ lead + scale + (-saturate (x.exponent + scale)).toNat := by
      simp only [saturate, exponentMin, exponentMax] at *
      omega
    refine (Nat.div_lt_iff_lt_mul (Nat.pow_pos (by omega))).mpr ?_
    calc x.coefficient.natAbs < 10 ^ x.digits := small
      _ ≤ 10 ^ (lead + scale + (-saturate (x.exponent + scale)).toNat) :=
          Nat.pow_le_pow_right (by omega) places
      _ = 10 ^ (lead + scale) * 10 ^ (-saturate (x.exponent + scale)).toNat := Nat.pow_add ..

/-- As many halvings as doublings of the bound reach past a number. -/
theorem halvings_le {bound n k : Nat} (h : n < bound * 2 ^ k) : halvings bound n ≤ k := by
  induction k generalizing n with
  | zero =>
    rw [halvings, if_neg (by omega)]
  | succ k ih =>
    rw [halvings]
    split
    · refine Nat.succ_le_succ (ih ?_)
      rw [Nat.pow_succ, ← Nat.mul_assoc] at h
      omega
    · exact Nat.zero_le _

/-- Terms that fall strictly add up to less than a square. -/
theorem seriesTail_le (reduced one degree term : Nat) :
    seriesTail reduced one degree term ≤ term * term := by
  induction term using Nat.strongRecOn generalizing degree with
  | ind term ih =>
    rw [seriesTail_def]
    split
    · next falls =>
      calc term * reduced / one / degree +
            seriesTail reduced one (degree + 1) (term * reduced / one / degree)
          ≤ term * reduced / one / degree +
              term * reduced / one / degree * (term * reduced / one / degree) :=
            Nat.add_le_add_left (ih _ falls.2 (degree + 1)) _
        _ = (term * reduced / one / degree + 1) * (term * reduced / one / degree) := by
            rw [Nat.succ_mul, Nat.add_comm]
        _ ≤ term * term := Nat.mul_le_mul falls.2 falls.2.le
    · exact Nat.zero_le _

theorem squareUp_le (one times sum : Nat) : squareUp one times sum ≤ sum ^ 2 ^ times := by
  induction times generalizing sum with
  | zero => simp [squareUp]
  | succ times ih =>
    calc squareUp one (times + 1) sum ≤ (sum * sum / one) ^ 2 ^ times := ih _
      _ ≤ (sum * sum) ^ 2 ^ times := Nat.pow_le_pow_left (Nat.div_le_self _ _) _
      _ = sum ^ 2 ^ (times + 1) := by
          rw [← Nat.pow_two, ← Nat.pow_mul, Nat.pow_succ, Nat.mul_comm]

/-- The refusal of large arguments bounds their places. -/
theorem places_le_of_adjusted_le (small : x.adjusted ≤ expMaxAdjusted) :
    x.exponent + x.digits ≤ 5 := by
  simp only [adjusted, saturate, expMaxAdjusted, exponentMin, exponentMax] at *
  omega

/-- A number up to a hundred thousand is halved eighteen times at most until it is below one half. -/
theorem halvings_toFixed_le (least : exponentMin ≤ x.exponent) (size : x.exponent + x.digits ≤ 5)
    (scale : Nat) (positive : 0 < scale) :
    halvings (Nat.pow 10 scale / 2) (x.toFixed scale) ≤ 18 := by
  obtain ⟨less, rfl⟩ : ∃ less, scale = less + 1 := ⟨scale - 1, by omega⟩
  apply halvings_le
  have half : Nat.pow 10 (less + 1) / 2 = 5 * 10 ^ less := by
    show 10 ^ (less + 1) / 2 = _
    rw [Nat.pow_succ]
    omega
  calc x.toFixed (less + 1) < 10 ^ (5 + (less + 1)) := toFixed_lt least size _
    _ = 10 ^ 6 * 10 ^ less := by rw [← Nat.pow_add]; congr 1; omega
    _ ≤ 5 * 2 ^ 18 * 10 ^ less := Nat.mul_le_mul_right _ (by norm_num)
    _ = Nat.pow 10 (less + 1) / 2 * 2 ^ 18 := by rw [half]; ring

/-- The places behind the point, guard places included. -/
theorem exponent_expFixed (least : exponentMin ≤ x.exponent) (size : x.exponent + x.digits ≤ 5)
    (digits : Nat) :
    -((digits : Int) + 17) ≤ (x.expFixed digits).exponent ∧
      (x.expFixed digits).exponent ≤ -((digits : Int) + 11) := by
  have halved := halvings_toFixed_le least size (digits + 2) (by omega)
  simp only [expFixed, expFixedBy, Id.run_bind, Id.run_pure]
  omega

private theorem series_lt (reduced scale : Nat) :
    10 ^ scale + seriesTail reduced (10 ^ scale) 1 (10 ^ scale) < 10 ^ (2 * scale + 1) := by
  have tail := seriesTail_le reduced (10 ^ scale) 1 (10 ^ scale)
  have unit : 0 < 10 ^ scale := Nat.pow_pos (by omega)
  have square : 10 ^ (2 * scale + 1) = 10 * (10 ^ scale * 10 ^ scale) := by
    rw [← Nat.pow_add, ← Nat.pow_succ']
    congr 1
    omega
  have least : 10 ^ scale ≤ 10 ^ scale * 10 ^ scale := Nat.le_mul_of_pos_left _ unit
  omega

/-- However often the sum is squared, its digits stay far from filling a word. -/
theorem digits_expFixed_le (least : exponentMin ≤ x.exponent) (size : x.exponent + x.digits ≤ 5)
    (digits : Nat) : (x.expFixed digits).digits ≤ (2 * (digits + 17) + 1) * 2 ^ 18 := by
  have halved := halvings_toFixed_le least size (digits + 2) (by omega)
  simp only [expFixed, expFixedBy, Id.run_bind, Id.run_pure, run_seriesTailBy]
  generalize halvings (Nat.pow 10 (digits + 2) / 2) (x.toFixed (digits + 2)) = steps at *
  have places : digits + 10 + steps / 3 + 1 ≤ digits + 17 := by omega
  generalize digits + 10 + steps / 3 + 1 = scale at *
  generalize x.toFixed scale / Nat.pow 2 steps = reduced
  rw [Decimal.digits, Int.natAbs_natCast, digitCount_le_iff (by positivity)]
  calc squareUp (10 ^ scale) steps (10 ^ scale + seriesTail reduced (10 ^ scale) 1 (10 ^ scale))
      ≤ (10 ^ scale + seriesTail reduced (10 ^ scale) 1 (10 ^ scale)) ^ 2 ^ steps := squareUp_le ..
    _ < (10 ^ (2 * scale + 1)) ^ 2 ^ steps :=
        Nat.pow_lt_pow_left (series_lt reduced scale) (by positivity)
    _ = 10 ^ ((2 * scale + 1) * 2 ^ steps) := (Nat.pow_mul ..).symm
    _ ≤ 10 ^ ((2 * (digits + 17) + 1) * 2 ^ 18) := by
        refine Nat.pow_le_pow_right (by omega) (Nat.mul_le_mul (by omega) ?_)
        exact Nat.pow_le_pow_right (by omega) halved

end DecimalConformance.Decimal
