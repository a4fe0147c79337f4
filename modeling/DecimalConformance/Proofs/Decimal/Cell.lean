import DecimalConformance.Proofs.Decimal.DigitCount
import Mathlib.Tactic.Ring

/-! Decimals between two neighbouring multiples of a unit.
Rounding to fewer digits than the multiples have cannot tell such decimals apart: the half of what
is dropped is a multiple of the unit itself, so it never lies between the two. -/
namespace DecimalConformance

namespace RoundingMode

/-- What rounding keeps of a number strictly between `k` and `k + 1` when it drops digits of `k`. -/
def ofCell (mode : RoundingMode) (k drop : Nat) : Nat :=
  if mode ≠ .towardZero ∧ 10 ^ drop ≤ 2 * (k % 10 ^ drop) then k / 10 ^ drop + 1 else k / 10 ^ drop

/-- The part of a number below the unit does not count. -/
theorem quotient_of_cell (mode : RoundingMode) {k r unit drop : Nat} (inside : 0 < r)
    (below : r < unit) (positive : 0 < drop) :
    mode.quotient (k * unit + r) (unit * 10 ^ drop) = mode.ofCell k drop := by
  -- Half of what is dropped is a whole number of units, so `r` never decides a tie.
  obtain ⟨half, even⟩ : ∃ half, 10 ^ drop = 2 * half := by
    obtain ⟨less, rfl⟩ : ∃ less, drop = less + 1 := ⟨drop - 1, by omega⟩
    exact ⟨5 * 10 ^ less, by rw [Nat.pow_succ]; ring⟩
  have whole : (k * unit + r) / unit = k := by
    rw [Nat.mul_comm, Nat.mul_add_div (by omega), Nat.div_eq_of_lt below, Nat.add_zero]
  have part : (k * unit + r) % unit = r := by
    rw [Nat.mul_comm, Nat.mul_add_mod, Nat.mod_eq_of_lt below]
  have quotient : (k * unit + r) / (unit * 10 ^ drop) = k / 10 ^ drop := by
    rw [← Nat.div_div_eq_div_mul, whole]
  have remainder : (k * unit + r) % (unit * 10 ^ drop) = r + unit * (k % 10 ^ drop) := by
    rw [Nat.mod_mul, whole, part]
  have divisor : unit * 10 ^ drop = 2 * (unit * half) := by
    rw [even]
    ring
  rw [RoundingMode.quotient, quotient, remainder, ofCell]
  generalize k / 10 ^ drop = front
  generalize k % 10 ^ drop = rest
  rw [divisor, even]
  rcases Nat.lt_or_ge rest half with low | high
  · have gap : unit * rest + unit ≤ unit * half := Nat.mul_le_mul_left unit low
    have stays : mode.movesAway front (r + unit * rest) (2 * (unit * half)) = false := by
      cases mode with
      | towardZero => rfl
      | nearestAway => simp only [movesAway, decide_eq_false_iff_not]; omega
      | nearestEven =>
        simp only [movesAway, Bool.or_eq_false_iff, decide_eq_false_iff_not,
          Bool.and_eq_false_iff, beq_eq_false_iff_ne]
        omega
    rw [if_neg (by simp [stays]), if_neg (by omega)]
  · have reach : unit * half ≤ unit * rest := Nat.mul_le_mul_left unit high
    cases mode with
    | towardZero => rfl
    | nearestAway =>
      have moves : nearestAway.movesAway front (r + unit * rest) (2 * (unit * half)) := by
        simp only [movesAway, decide_eq_true_eq]
        omega
      rw [if_pos moves, if_pos ⟨by decide, by omega⟩]
    | nearestEven =>
      have moves : nearestEven.movesAway front (r + unit * rest) (2 * (unit * half)) := by
        simp only [movesAway, Bool.or_eq_true, decide_eq_true_eq]
        omega
      rw [if_pos moves, if_pos ⟨by decide, by omega⟩]

theorem quotient_mul_right (mode : RoundingMode) (n divisor : Nat) {factor : Nat}
    (positive : 0 < factor) :
    mode.quotient (n * factor) (divisor * factor) = mode.quotient n divisor := by
  have twice : 2 * (n % divisor * factor) = 2 * (n % divisor) * factor := (Nat.mul_assoc ..).symm
  have less : divisor * factor < 2 * (n % divisor) * factor ↔ divisor < 2 * (n % divisor) :=
    Nat.mul_lt_mul_right positive
  have half : (divisor * factor == 2 * (n % divisor) * factor) = (divisor == 2 * (n % divisor)) := by
    rw [Bool.eq_iff_iff, beq_iff_eq, beq_iff_eq]
    exact Nat.mul_left_inj (by omega)
  have least : divisor * factor ≤ 2 * (n % divisor) * factor ↔ divisor ≤ 2 * (n % divisor) :=
    Nat.mul_le_mul_right_iff positive
  have moves : mode.movesAway (n / divisor) (n % divisor * factor) (divisor * factor) =
      mode.movesAway (n / divisor) (n % divisor) divisor := by
    cases mode with
    | towardZero => rfl
    | nearestAway => simp only [movesAway, twice, least]
    | nearestEven => simp only [movesAway, twice, less, half]
  rw [quotient, Nat.mul_div_mul_right _ _ positive, Nat.mul_mod_mul_right, moves, quotient]

end RoundingMode

namespace Decimal

/-- The size of a decimal lies strictly between `k` and `k + 1` units of a place. -/
def InCell (d : Decimal) (k : Nat) (place : Int) : Prop :=
  ∃ width r, d.exponent + (width : Nat) = place ∧
    d.coefficient.natAbs = k * 10 ^ width + r ∧ 0 < r ∧ r < 10 ^ width

/-- A guard digit behind `k` marks the cell. -/
theorem inCell_of_guardDigit {d : Decimal} {k : Nat} {place : Int}
    (size : d.coefficient.natAbs = k * 10 + 1) (exponent : d.exponent = place - 1) :
    d.InCell k place :=
  ⟨1, 1, by omega, size, by omega, by omega⟩

theorem InCell.lt_digits {d : Decimal} {k precision : Nat} {place : Int} (h : d.InCell k place)
    (positive : 0 < precision) (long : 10 ^ precision ≤ k) : precision < d.digits := by
  obtain ⟨width, r, -, size, -, -⟩ := h
  refine (lt_digitCount_iff positive).mpr ?_
  calc 10 ^ precision ≤ k * 1 := by rwa [Nat.mul_one]
    _ ≤ k * 10 ^ width := Nat.mul_le_mul_left k (Nat.pow_pos (by omega))
    _ ≤ d.coefficient.natAbs := by omega

theorem InCell.coarser {d : Decimal} {k : Nat} {place : Int} (h : d.InCell k place) (more : Nat) :
    d.InCell (k / 10 ^ more) (place + more) := by
  obtain ⟨width, r, rfl, size, inside, below⟩ := h
  have last : k % 10 ^ more < 10 ^ more := Nat.mod_lt _ (Nat.pow_pos (by omega))
  refine ⟨width + more, k % 10 ^ more * 10 ^ width + r, by push_cast; omega, ?_, by omega, ?_⟩
  · conv_lhs => rw [size, ← Nat.div_add_mod k (10 ^ more)]
    ring
  · calc k % 10 ^ more * 10 ^ width + r < (k % 10 ^ more + 1) * 10 ^ width := by
          rw [Nat.succ_mul]
          omega
      _ ≤ 10 ^ more * 10 ^ width := Nat.mul_le_mul_right _ last
      _ = 10 ^ (width + more) := by rw [Nat.pow_add, Nat.mul_comm]

/-- Zeros behind a coefficient do not move a decimal out of its cell. -/
theorem InCell.dropZeros {d : Decimal} {k rest zeros : Nat} {place : Int} (h : d.InCell k place)
    (size : d.coefficient.natAbs = rest * 10 ^ zeros) {other : Decimal}
    (size' : other.coefficient.natAbs = rest) (exponent : other.exponent = d.exponent + zeros) :
    other.InCell k place := by
  obtain ⟨width, r, rfl, split, inside, below⟩ := h
  rw [size] at split
  rcases Nat.lt_or_ge zeros width with fewer | enough
  · obtain ⟨left, rfl⟩ : ∃ left, width = zeros + left := ⟨width - zeros, by omega⟩
    have shift : k * 10 ^ (zeros + left) = k * 10 ^ left * 10 ^ zeros := by
      rw [Nat.pow_add]
      ring
    rw [shift] at split
    have divides : 10 ^ zeros ∣ r :=
      (Nat.dvd_add_right (Nat.dvd_mul_left _ _)).mp (split ▸ Nat.dvd_mul_left _ _)
    obtain ⟨r', rfl⟩ := divides
    have unit : 0 < 10 ^ zeros := Nat.pow_pos (by omega)
    refine ⟨left, r', by push_cast; omega, ?_, Nat.pos_of_mul_pos_left inside, ?_⟩
    · rw [Nat.mul_comm (10 ^ zeros), ← Nat.add_mul] at split
      rw [size', Nat.eq_of_mul_eq_mul_right unit split]
    · rw [Nat.pow_add] at below
      exact Nat.lt_of_mul_lt_mul_left below
  · have multiple : 10 ^ width ∣ rest * 10 ^ zeros :=
      Nat.dvd_mul_left_of_dvd (Nat.pow_dvd_pow 10 enough) rest
    have divides : 10 ^ width ∣ r :=
      (Nat.dvd_add_right (Nat.dvd_mul_left _ _)).mp (split ▸ multiple)
    exact absurd (Nat.le_of_dvd inside divides) (by omega)

/-- Rounding sees the sign of a decimal, and the cell that it lies in. -/
theorem round_of_inCell {d : Decimal} {k precision : Nat} {place : Int} (mode : RoundingMode)
    (h : d.InCell k place) (positive : 0 < precision) (long : 10 ^ precision ≤ k) :
    d.round precision mode =
      let drop := digitCount k - precision
      let kept := mode.ofCell k drop
      if precision < digitCount kept then
        ⟨d.coefficient.sign * ↑(kept / 10), saturate (saturate (place + drop) + 1)⟩
      else ⟨d.coefficient.sign * ↑kept, saturate (place + drop)⟩ := by
  obtain ⟨width, r, rfl, size, inside, below⟩ := h
  have longer : precision < digitCount k := (lt_digitCount_iff positive).mpr long
  have count : d.digits = digitCount k + width := by
    rw [digits, size, digitCount_mul_pow_add (Nat.lt_of_lt_of_le (Nat.pow_pos (by omega)) long) below]
  have dropped : d.digits - precision = width + (digitCount k - precision) := by omega
  have kept : mode.quotient d.coefficient.natAbs (Nat.pow 10 (d.digits - precision)) =
      mode.ofCell k (digitCount k - precision) := by
    rw [size, dropped, ← mode.quotient_of_cell inside below (by omega), ← Nat.pow_add]
    rfl
  have exponent : d.exponent + ↑(d.digits - precision) =
      d.exponent + ↑width + ↑(digitCount k - precision) := by
    rw [dropped]
    push_cast
    ring
  rw [round, if_neg (by omega)]
  dsimp only
  rw [kept, exponent]

theorem round_eq_of_inCell {d other : Decimal} {k precision : Nat} {place : Int}
    (mode : RoundingMode) (h : d.InCell k place) (h' : other.InCell k place)
    (sign : d.coefficient.sign = other.coefficient.sign) (positive : 0 < precision)
    (long : 10 ^ precision ≤ k) : d.round precision mode = other.round precision mode := by
  rw [round_of_inCell mode h positive long, round_of_inCell mode h' positive long, sign]

end Decimal
end DecimalConformance
