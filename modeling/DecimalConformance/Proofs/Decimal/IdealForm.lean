import DecimalConformance.Proofs.Decimal.CorrectRounding
import Mathlib.Data.Rat.Cast.Order

/-! Results that are rounded once, with an ideal exponent.
A result that is a decimal has its trailing zeros dropped as far as the ideal exponent, and stays like
that if it is short enough.  Any other result fills the precision.  One decimal satisfies both. -/
namespace DecimalConformance

variable {K : Type} [Field K] [LinearOrder K] [IsStrictOrderedRing K]
variable {mode : RoundingMode} {precision : Nat} {ideal : Int} {x : K}

theorem RoundingMode.Selects.cast {x : ℚ} {n : Nat} (h : mode.Selects x n) :
    mode.Selects (x : K) n := by
  have near (less : |x - n| < 1 / 2) : |(x : K) - n| < 1 / 2 := by
    simpa using (Rat.cast_lt (K := K)).mpr less
  cases mode with
  | towardZero => exact ⟨by exact_mod_cast h.1, by exact_mod_cast h.2⟩
  | nearestAway =>
    refine h.imp near fun up => ?_
    simpa using congrArg (Rat.cast (K := K)) up
  | nearestEven =>
    refine h.imp near fun ⟨tie, even⟩ => ⟨?_, even⟩
    simpa using congrArg (Rat.cast (K := K)) tie

/-- Rounding a rational number does not depend on the numbers around it. -/
theorem RoundsTo.cast {x z : ℚ} (h : RoundsTo mode precision x z) :
    RoundsTo mode precision (x : K) (z : K) := by
  unfold RoundsTo at h ⊢
  simp only [Rat.cast_eq_zero]
  split_ifs at h ⊢
  · rw [h]
  · obtain ⟨place, n, least, most, selects, size, sign⟩ := h
    refine ⟨place, n, ?_, ?_, ?_, ?_, by exact_mod_cast sign⟩
    · simpa using (Rat.cast_le (K := K)).mpr least
    · simpa using (Rat.cast_lt (K := K)).mpr most
    · simpa using selects.cast (K := K)
    · simpa using congrArg (Rat.cast (K := K)) size

/-- Nothing but zero is rounded to zero. -/
theorem RoundsTo.eq_zero (h : RoundsTo mode precision x 0) : x = 0 := by
  by_contra nonzero
  unfold RoundsTo at h
  split_ifs at h with unlimited
  · exact nonzero h.symm
  · obtain ⟨place, n, least, -, selects, size, -⟩ := h
    have unit : (0 : K) < 10 ^ place := by positivity
    have none : (n : K) = 0 := by simpa [unit.ne'] using size.symm
    have one : 1 ≤ |x| / 10 ^ place := by
      have lead : (1 : K) ≤ 10 ^ (precision - 1) := one_le_pow₀ (by norm_num)
      exact lead.trans ((le_div_iff₀ unit).mpr least)
    by_cases toward : mode = .towardZero
    · subst toward
      have below := selects.2
      rw [none] at below
      linarith
    · have half := (abs_le.mp (selects.abs_sub_le_half toward)).2
      rw [none] at half
      linarith

namespace Decimal

variable {d w : Decimal}

/-! ## Dropping zeros -/

/-- A coefficient without trailing zeros, at most `room` of them, and the room left. -/
def dropZeros : (room coefficient : Nat) → Nat × Nat
  | 0, coefficient => (coefficient, 0)
  | room + 1, coefficient =>
    if coefficient ≠ 0 ∧ coefficient % 10 = 0 then dropZeros room (coefficient / 10)
    else (coefficient, room + 1)

/-- Stripping drops zeros, where every step up to the ideal exponent can be taken. -/
theorem stripBy_eq {m : Type → Type} [Monad m] [LawfulMonad m] {step : Int → m Int}
    {room coefficient : Nat} {exponent : Int}
    (taken : ∀ e, exponent < e → e ≤ exponent + room → step e = pure e) :
    stripBy step room coefficient exponent =
      pure ((dropZeros room coefficient).1, exponent + room - (dropZeros room coefficient).2) := by
  induction room generalizing coefficient exponent with
  | zero => simp [stripBy, dropZeros]
  | succ room ih =>
    rw [stripBy, dropZeros]
    split
    · rw [taken _ (by omega) (by omega), pure_bind, ih fun e _ _ => taken e (by omega) (by omega)]
      congr 2
      omega
    · congr 2
      omega

theorem dropZeros_spec (room coefficient : Nat) :
    ∃ zeros, coefficient = (dropZeros room coefficient).1 * 10 ^ zeros ∧
      room = (dropZeros room coefficient).2 + zeros := by
  induction room generalizing coefficient with
  | zero => exact ⟨0, by simp [dropZeros], rfl⟩
  | succ room ih =>
    unfold dropZeros
    split
    · next zero =>
      obtain ⟨zeros, size, left⟩ := ih (coefficient / 10)
      refine ⟨zeros + 1, ?_, by omega⟩
      rw [Nat.pow_succ, ← Nat.mul_assoc, ← size]
      omega
    · exact ⟨0, by simp, rfl⟩

theorem dropZeros_mul_pow {coefficient : Nat} (nonzero : coefficient ≠ 0) (room more : Nat) :
    dropZeros (room + more) (coefficient * 10 ^ more) = dropZeros room coefficient := by
  induction more with
  | zero => simp
  | succ more ih =>
    have unit : 0 < 10 ^ more := Nat.pow_pos (by omega)
    have scaled : coefficient * 10 ^ (more + 1) = coefficient * 10 ^ more * 10 := by
      rw [Nat.pow_succ, Nat.mul_assoc]
    have positive : 0 < coefficient * 10 ^ more := Nat.mul_pos (by omega) unit
    rw [← Nat.add_assoc, dropZeros, if_pos ⟨by omega, by omega⟩, scaled,
      Nat.mul_div_cancel _ (by omega), ih]

/-- Zeros are left only where there is no room. -/
theorem dropZeros_last {coefficient : Nat} (nonzero : coefficient ≠ 0) (room : Nat) :
    (dropZeros room coefficient).2 = 0 ∨ ¬ 10 ∣ (dropZeros room coefficient).1 := by
  induction room generalizing coefficient with
  | zero => exact .inl rfl
  | succ room ih =>
    unfold dropZeros
    split
    · next zero => exact ih (by omega)
    · next last => exact .inr fun divides => last ⟨nonzero, Nat.mod_eq_zero_of_dvd divides⟩

/-! ## Ideal forms -/

/-- `d` is `x`, with the largest exponent that it can have up to the ideal one. -/
structure IsIdealForm (ideal : Int) (x : K) (d : Decimal) : Prop where
  value_eq : (d.value : K) = x
  le_ideal : d.exponent ≤ ideal
  highest : ∀ w : Decimal, (w.value : K) = x → w.exponent ≤ ideal → w.exponent ≤ d.exponent

theorem eq_of_value_eq (value : d.value = w.value) (exponent : d.exponent = w.exponent) : d = w := by
  have coefficient : d.coefficient = w.coefficient :=
    coefficient_eq_of_value_eq (by rw [value, exponent, Decimal.value])
  cases d
  cases w
  simp_all

theorem IsIdealForm.unique (h : IsIdealForm ideal x d) (h' : IsIdealForm ideal x w) : d = w := by
  have value : d.value = w.value := by exact_mod_cast h.value_eq.trans h'.value_eq.symm
  have least := h.highest w h'.value_eq h'.le_ideal
  have most := h'.highest d h.value_eq h.le_ideal
  exact eq_of_value_eq value (le_antisymm most least)

/-- At the ideal exponent nothing is dropped, and below it nothing but zeros at the end. -/
theorem isIdealForm_of_last (le : d.exponent ≤ ideal)
    (last : d.exponent = ideal ∨ ¬ 10 ∣ d.coefficient) : IsIdealForm ideal (d.value : K) d := by
  refine ⟨rfl, le, fun w same below => ?_⟩
  rcases last with top | last
  · omega
  · by_contra higher
    have same : d.value = w.value := by exact_mod_cast same.symm
    have finer : d.exponent ≤ w.exponent := by omega
    have longer : d.coefficient = w.shifted d.exponent :=
      coefficient_eq_of_value_eq (same.trans (value_eq_shifted finer))
    apply last
    rw [longer, shifted]
    exact (dvd_pow_self 10 (by omega)).mul_left _

/-- A coefficient without the zeros that there is room for is in its ideal form. -/
theorem isIdealForm_of_dropZeros {room coefficient rest left : Nat} (nonzero : coefficient ≠ 0)
    (stripped : dropZeros room coefficient = (rest, left)) (size : d.coefficient.natAbs = rest)
    (exponent : d.exponent = ideal - left) : IsIdealForm ideal (d.value : K) d := by
  refine isIdealForm_of_last (by omega) ?_
  have last := dropZeros_last nonzero room
  rw [stripped] at last
  rcases last with full | last
  · exact .inl (by omega)
  · refine .inr fun divides => last ?_
    rw [← size]
    exact Int.natAbs_dvd_natAbs.mpr divides

/-! ## Correct results -/

/-- `r` is `x` at a precision: its ideal form if that is short enough, and otherwise the decimal with
as many digits as the precision says to which `x` is rounded. -/
structure CorrectlyRounded (mode : RoundingMode) (precision : Nat) (ideal : Int) (x : K)
    (r : Decimal) : Prop where
  exact : ∀ d, IsIdealForm ideal x d → d.digits ≤ precision → r = d
  rounded : (∀ d, IsIdealForm ideal x d → precision < d.digits) →
    r.digits = precision ∧ RoundsTo mode precision x (r.value : K)

/-- Two decimals of one value have different exponents only if they have different digits. -/
private theorem exponent_le_of_digits_eq (nonzero : d.coefficient ≠ 0) (value : d.value = w.value)
    (digits : d.digits = w.digits) : w.exponent ≤ d.exponent := by
  have nonzero' : w.coefficient ≠ 0 := by
    rwa [← value_eq_zero_iff.ne, ← value, value_eq_zero_iff.ne]
  have most := (abs_value_bounds nonzero).2
  have least := (abs_value_bounds nonzero').1
  rw [value, digits] at most
  have order := (zpow_lt_zpow_iff_right₀ (by norm_num : (1 : ℚ) < 10)).mp (least.trans_lt most)
  omega

/-- There is one correct result. -/
theorem CorrectlyRounded.unique (positive : 0 < precision) (h : CorrectlyRounded mode precision ideal x d)
    (h' : CorrectlyRounded mode precision ideal x w) : d = w := by
  by_cases fits : ∃ form, IsIdealForm ideal x form ∧ form.digits ≤ precision
  · obtain ⟨form, isForm, short⟩ := fits
    rw [h.exact form isForm short, h'.exact form isForm short]
  · push Not at fits
    obtain ⟨count, rounds⟩ := h.rounded fits
    obtain ⟨count', rounds'⟩ := h'.rounded fits
    have value : d.value = w.value := by exact_mod_cast rounds.unique rounds'
    have nonzero : d.coefficient ≠ 0 := by
      intro zero
      rw [value_eq_zero_iff.mpr zero, Rat.cast_zero] at rounds
      have form : IsIdealForm ideal x ⟨0, ideal⟩ := by
        have form := isIdealForm_of_last (K := K) (d := ⟨0, ideal⟩) le_rfl (.inl rfl)
        rwa [value_eq_zero_iff.mpr rfl, Rat.cast_zero, ← rounds.eq_zero] at form
      have one : (⟨0, ideal⟩ : Decimal).digits = 1 := by
        simp only [digits]
        decide
      have long := fits _ form
      omega
    have nonzero' : w.coefficient ≠ 0 := by
      rwa [← value_eq_zero_iff.ne, ← value, value_eq_zero_iff.ne]
    have digits := count.trans count'.symm
    exact eq_of_value_eq value (le_antisymm
      (exponent_le_of_digits_eq nonzero' value.symm digits.symm)
      (exponent_le_of_digits_eq nonzero value digits))

/-- A correct result whose exponent leaves the range is spoilt by keeping it inside. -/
theorem CorrectlyRounded.capped_iff (positive : 0 < precision)
    (h : CorrectlyRounded mode precision ideal x d) :
    CorrectlyRounded mode precision ideal x d.capped ↔ d.exponent ≤ exponentMax := by
  constructor
  · intro kept
    have same : d.exponent = min exponentMax d.exponent :=
      congrArg exponent (h.unique positive kept)
    omega
  · intro inside
    rwa [capped_eq_self inside]

/-- The ideal form is rounded correctly. -/
theorem IsIdealForm.correctlyRounded (h : IsIdealForm ideal x d) (mode : RoundingMode)
    (positive : 0 < precision) :
    CorrectlyRounded mode precision ideal x (d.roundFreely precision mode) := by
  constructor
  case exact =>
    intro form isForm short
    obtain rfl := h.unique isForm
    exact if_pos (.inr short)
  case rounded =>
    intro long
    refine ⟨digits_roundFreely_of_lt mode positive (long d h), ?_⟩
    rw [← h.value_eq]
    exact (roundsTo_roundFreely d precision mode).cast

end Decimal
end DecimalConformance
