import DecimalConformance.Proofs.Decimal.Cell
import DecimalConformance.Proofs.Decimal.IdealForm
import DecimalConformance.Proofs.Decimal.NearestDecimal

/-! Rounding a number of which only a cell is known.
Two neighbouring numbers with more digits than the precision enclose it.  No short decimal and no tie
lies between them, so any number between them is rounded alike, the one with a guard digit as well. -/
namespace DecimalConformance

variable {K : Type} [Field K] [LinearOrder K] [IsStrictOrderedRing K]
variable {mode : RoundingMode} {k precision : Nat} {place : Int} {x y z : K}

/-- The numbers of a cell are selected for alike where a half is a whole number of units. -/
theorem RoundingMode.Selects.of_cell {s t : K} {n half : Nat} (positive : 0 < half)
    (h : mode.Selects (s / (2 * half : Nat)) n) (above : k < s) (below : s < k + 1)
    (above' : k < t) (below' : t < k + 1) : mode.Selects (t / (2 * half : Nat)) n := by
  have unit : (0 : K) < (2 * half : Nat) := by exact_mod_cast Nat.mul_pos two_pos positive
  have least {m : Int} (reached : (m : K) ≤ s) : (m : K) < t := by
    have next : m < k + 1 := by exact_mod_cast reached.trans_lt below
    have le : (m : K) ≤ k := by exact_mod_cast Int.lt_add_one_iff.mp next
    exact le.trans_lt above'
  have most {m : Int} (reached : s ≤ (m : K)) : t < (m : K) := by
    have next : (k : Int) < m := by exact_mod_cast above.trans_le reached
    have le : (k : K) + 1 ≤ m := by exact_mod_cast Int.add_one_le_iff.mpr next
    exact below'.trans_le le
  by_cases toward : mode = .towardZero
  · subst toward
    obtain ⟨low, high⟩ := h
    rw [le_div_iff₀ unit] at low
    rw [div_lt_iff₀ unit] at high
    constructor
    · rw [le_div_iff₀ unit]
      exact_mod_cast (least (m := n * (2 * half : Nat)) (by exact_mod_cast low)).le
    · rw [div_lt_iff₀ unit]
      exact_mod_cast most (m := (n + 1) * (2 * half : Nat)) (by exact_mod_cast high.le)
  · -- In a cell the distance to a nearest number is never a half.
    obtain ⟨low, high⟩ := abs_le.mp (h.abs_sub_le_half toward)
    have low : (n : K) - 1 / 2 ≤ s / (2 * half : Nat) := by linarith
    have high : s / (2 * half : Nat) ≤ (n : K) + 1 / 2 := by linarith
    have left : ((n : K) - 1 / 2) * (2 * half : Nat) = ((2 * n - 1) * half : Int) := by
      push_cast
      ring
    have right : ((n : K) + 1 / 2) * (2 * half : Nat) = ((2 * n + 1) * half : Int) := by
      push_cast
      ring
    rw [le_div_iff₀ unit, left] at low
    rw [div_le_iff₀ unit, right] at high
    have low := least low
    have high := most high
    rw [← left, ← lt_div_iff₀ unit] at low
    rw [← right, ← div_lt_iff₀ unit] at high
    have near : |t / (2 * half : Nat) - n| < 1 / 2 := abs_lt.mpr ⟨by linarith, by linarith⟩
    cases mode with
    | towardZero => exact absurd rfl toward
    | nearestAway | nearestEven => exact .inl near

/-- The size of a number lies strictly between `k` and `k + 1` units of a place. -/
structure Between (k : Nat) (place : Int) (x : K) : Prop where
  above : k * 10 ^ place < |x|
  below : |x| < (k + 1) * 10 ^ place

theorem between_cast {x : ℚ} : Between k place (x : K) ↔ Between k place x := by
  have size : |(x : K)| = ((|x| : ℚ) : K) := (Rat.cast_abs x).symm
  have left : (k : K) * 10 ^ place = ((k * 10 ^ place : ℚ) : K) := by push_cast; rfl
  have right : ((k : K) + 1) * 10 ^ place = (((k + 1) * 10 ^ place : ℚ) : K) := by push_cast; rfl
  constructor
  · rintro ⟨above, below⟩
    rw [left, size, Rat.cast_lt] at above
    rw [right, size, Rat.cast_lt] at below
    exact ⟨above, below⟩
  · rintro ⟨above, below⟩
    exact ⟨by rwa [left, size, Rat.cast_lt], by rwa [right, size, Rat.cast_lt]⟩

/-- The last place that is kept lies above the place of the cell. -/
private theorem lt_of_between {last : Int} (h : Between k place x) (long : 10 ^ precision ≤ k)
    (most : |x| < 10 ^ precision * 10 ^ last) : place < last := by
  have unit : (0 : K) < 10 ^ place := by positivity
  have enough : (10 : K) ^ precision ≤ k := by exact_mod_cast long
  have order : (10 : K) ^ precision * 10 ^ place < 10 ^ precision * 10 ^ last :=
    (mul_le_mul_of_nonneg_right enough unit.le).trans_lt (h.above.trans most)
  exact (zpow_lt_zpow_iff_right₀ (by norm_num : (1 : K) < 10)).mp
    (lt_of_mul_lt_mul_left order (by positivity))

/-- Numbers of one cell and one sign are rounded alike. -/
theorem RoundsTo.of_between (h : RoundsTo mode precision y z) (cell : Between k place y)
    (cell' : Between k place x) (sign : 0 < x * y) (positive : 0 < precision)
    (long : 10 ^ precision ≤ k) : RoundsTo mode precision x z := by
  obtain ⟨left, right⟩ := mul_ne_zero_iff.mp sign.ne'
  unfold RoundsTo at h ⊢
  rw [if_neg (by simp [positive.ne', right])] at h
  rw [if_neg (by simp [positive.ne', left])]
  obtain ⟨last, n, least, most, selects, size, same⟩ := h
  have higher := lt_of_between cell long most
  obtain ⟨drop, rfl⟩ : ∃ drop : Nat, last = place + (drop + 1 : Nat) :=
    ⟨(last - place - 1).toNat, by omega⟩
  have unit : (0 : K) < 10 ^ place := by positivity
  have scale (w : Nat) : (10 : K) ^ w * 10 ^ (place + (drop + 1 : Nat)) =
      ((10 ^ w * 10 ^ (drop + 1) : Nat) : K) * 10 ^ place := by
    rw [zpow_add₀ (by norm_num), zpow_natCast]
    push_cast
    ring
  have quotient (u : K) : |u| / 10 ^ (place + (drop + 1 : Nat)) =
      |u| / 10 ^ place / (2 * (5 * 10 ^ drop) : Nat) := by
    rw [div_div, zpow_add₀ (by norm_num), zpow_natCast, pow_succ]
    push_cast
    ring
  have above {u : K} (cell : Between k place u) : (k : K) < |u| / 10 ^ place :=
    (lt_div_iff₀ unit).mpr cell.above
  have below {u : K} (cell : Between k place u) : |u| / 10 ^ place < (k : K) + 1 :=
    (div_lt_iff₀ unit).mpr cell.below
  refine ⟨_, n, ?_, ?_, ?_, size, ?_⟩
  · rw [scale] at least ⊢
    have next := lt_of_mul_lt_mul_right (least.trans_lt cell.below) unit.le
    have le : 10 ^ (precision - 1) * 10 ^ (drop + 1) ≤ k :=
      Nat.lt_succ_iff.mp (by exact_mod_cast next)
    exact (mul_le_mul_of_nonneg_right (by exact_mod_cast le) unit.le).trans cell'.above.le
  · rw [scale] at most ⊢
    have next := lt_of_mul_lt_mul_right (cell.above.trans most) unit.le
    have le : k + 1 ≤ 10 ^ precision * 10 ^ (drop + 1) := by exact_mod_cast next
    exact cell'.below.trans_le (mul_le_mul_of_nonneg_right (by exact_mod_cast le) unit.le)
  · rw [quotient] at selects ⊢
    exact selects.of_cell (by positivity) (above cell) (below cell) (above cell') (below cell')
  · have square : 0 < y * y := mul_self_pos.mpr right
    have product : y * y * (x * z) = x * y * (y * z) := by ring
    refine nonneg_of_mul_nonneg_right ?_ square
    rw [product]
    exact mul_nonneg sign.le same

namespace Decimal

variable {d w : Decimal} {ideal : Int}

theorem InCell.between (h : d.InCell k place) : Between k place (d.value : K) := by
  rw [between_cast]
  obtain ⟨width, r, rfl, size, inside, below⟩ := h
  have unit : (0 : ℚ) < 10 ^ d.exponent := by positivity
  have split : (10 : ℚ) ^ (d.exponent + width) = 10 ^ width * 10 ^ d.exponent := by
    rw [pow_mul_zpow, add_comm]
  constructor <;> rw [abs_value, split, ← mul_assoc, size]
  · exact mul_lt_mul_of_pos_right (by exact_mod_cast (by omega)) unit
  · refine mul_lt_mul_of_pos_right ?_ unit
    have next : k * 10 ^ width + r < (k + 1) * 10 ^ width := by
      rw [Nat.succ_mul]
      omega
    exact_mod_cast next

/-- A decimal between two neighbours is longer than they are. -/
theorem lt_digits_of_between (h : Between k place (w.value : K)) (positive : 0 < precision)
    (long : 10 ^ precision ≤ k) : precision < w.digits := by
  obtain ⟨above, below⟩ := between_cast.mp h
  have unit : (0 : ℚ) < 10 ^ place := by positivity
  by_contra short
  rcases lt_or_ge w.exponent place with finer | coarser
  · have less := abs_value_lt_of_exponent_lt (not_lt.mp short) positive finer
    have fewer : 10 ^ (precision - 1) ≤ 10 ^ precision := Nat.pow_le_pow_right (by omega) (by omega)
    have le : ((10 ^ (precision - 1) : Nat) : ℚ) * 10 ^ place ≤ k * 10 ^ place :=
      mul_le_mul_of_nonneg_right (by exact_mod_cast fewer.trans long) unit.le
    exact lt_irrefl _ (above.trans (less.trans_le le))
  · obtain ⟨m, multiple, -⟩ := exists_multiple w coarser
    rw [multiple] at above below
    have low : k < m := by exact_mod_cast lt_of_mul_lt_mul_right above unit.le
    have high : m < k + 1 := by exact_mod_cast lt_of_mul_lt_mul_right below unit.le
    omega

/-- Any decimal of the cell of a number is rounded to what is correct for the number. -/
theorem correctlyRounded_of_inCell (mode : RoundingMode) (ideal : Int) (cell : d.InCell k place)
    (between : Between k place x) (sign : 0 < x * d.value) (positive : 0 < precision)
    (long : 10 ^ precision ≤ k) :
    CorrectlyRounded mode precision ideal x (d.roundFreely precision mode) := by
  constructor
  case exact =>
    intro form isForm short
    rw [← isForm.value_eq] at between
    exact absurd short (not_le.mpr (lt_digits_of_between between positive long))
  case rounded =>
    intro _
    have rounds := (roundsTo_roundFreely d precision mode).cast (K := K)
    exact ⟨digits_roundFreely_of_lt mode positive (cell.lt_digits positive long),
      rounds.of_between cell.between between sign positive long⟩

end Decimal
end DecimalConformance
