import DecimalConformance.Decimal.Basic

/-! The decimal digits of a natural number, the leading one first.
A long number is cut in halves until the pieces are short, since dividing it digit by digit costs a
long division each time.  The digits are those of `Nat.toDigits`, and `digitCount` counts them. -/
namespace DecimalConformance.Decimal

private theorem lt_pow_widthFrom (n : Nat) : ∀ steps width, n < Nat.pow 10 (steps + width) →
    n < Nat.pow 10 (widthFrom n steps width)
  | 0, width, h => by simpa [widthFrom_zero] using h
  | steps + 1, width, h => by
    rw [widthFrom_succ]
    split
    · assumption
    · exact lt_pow_widthFrom n steps (width + 1) (by rwa [Nat.add_right_comm] at h)

private theorem pow_widthFrom_le (n : Nat) : ∀ steps width, Nat.pow 10 (width - 1) ≤ n ∨ width = 1 →
    Nat.pow 10 (widthFrom n steps width - 1) ≤ n ∨ widthFrom n steps width = 1
  | 0, width, h => by simpa [widthFrom_zero] using h
  | steps + 1, width, h => by
    rw [widthFrom_succ]
    split
    · exact h
    · exact pow_widthFrom_le n steps (width + 1) (.inl (by simpa using Nat.le_of_not_lt ‹_›))

/-- A number has a digit at least. -/
theorem digitCount_pos (n : Nat) : 0 < digitCount n := by
  have aux : ∀ steps width, 0 < width → 0 < widthFrom n steps width := by
    intro steps
    induction steps with
    | zero => exact fun _ h => h
    | succ steps ih =>
      intro width h
      rw [widthFrom_succ]
      split
      · exact h
      · exact ih _ (by omega)
  rw [digitCount_def]
  exact aux _ _ (by split <;> omega)

/-- A number lies below the power of ten with its count of digits. -/
theorem lt_pow_digitCount (n : Nat) : n < Nat.pow 10 (digitCount n) := by
  have two : n < Nat.pow 2 (n.log2 + 1) := Nat.lt_log2_self
  have ten : Nat.pow 2 (n.log2 + 1) ≤ Nat.pow 10 (n.log2 + 1) :=
    Nat.pow_le_pow_left (by omega) _
  rw [digitCount_def]
  refine lt_pow_widthFrom n _ _ (Nat.lt_of_lt_of_le two (Nat.le_trans ten ?_))
  exact Nat.pow_le_pow_right (by omega) (by omega)

/-- A number reaches the power of ten below it, unless it has one digit. -/
theorem pow_digitCount_le (n : Nat) : Nat.pow 10 (digitCount n - 1) ≤ n ∨ digitCount n = 1 := by
  rw [digitCount_def]
  refine pow_widthFrom_le n _ _ ?_
  split
  · exact .inl (by simpa using ‹_›)
  · exact .inr rfl

/-- The last `width` digits of `n`, in front of `behind`. -/
def lastDigits : (width n : Nat) → (behind : List Char) → List Char
  | 0, _, behind => behind
  | width + 1, n, behind => lastDigits width (n / 10) (Nat.digitChar (n % 10) :: behind)

/-- The last `width` digits of `n`, in front of `behind`, cut in halves `depth` times. -/
def lastDigitsByHalves : (depth width n : Nat) → (behind : List Char) → List Char
  | 0, width, n, behind => lastDigits width n behind
  | depth + 1, width, n, behind =>
    let half := width / 2
    lastDigitsByHalves depth (width - half) (n / Nat.pow 10 half)
      (lastDigitsByHalves depth half (n % Nat.pow 10 half) behind)

/-- The digits of `n`, cut in halves down to pieces that fit into a word. -/
def digitsOf (n : Nat) : List Char :=
  let width := digitCount n
  lastDigitsByHalves (width.log2 - 3) width n []

private theorem lastDigits_add (front : Nat) : ∀ last n behind,
    lastDigits (front + last) n behind =
      lastDigits front (n / Nat.pow 10 last) (lastDigits last n behind)
  | 0, n, behind => by simp [lastDigits]
  | last + 1, n, behind => by
    have cut : n / Nat.pow 10 (last + 1) = n / 10 / Nat.pow 10 last := by
      rw [Nat.div_div_eq_div_mul, Nat.mul_comm]
      rfl
    rw [cut]
    exact lastDigits_add front last (n / 10) _

private theorem lastDigits_mod : ∀ width n behind,
    lastDigits width (n % Nat.pow 10 width) behind = lastDigits width n behind
  | 0, _, _ => rfl
  | width + 1, n, behind => by
    have power : Nat.pow 10 (width + 1) = 10 * Nat.pow 10 width := Nat.mul_comm ..
    have last : n % Nat.pow 10 (width + 1) % 10 = n % 10 := by
      rw [power, Nat.mod_mul_right_mod]
    have front : n % Nat.pow 10 (width + 1) / 10 = n / 10 % Nat.pow 10 width := by
      rw [power, Nat.mod_mul_right_div_self]
    simp only [lastDigits, last, front, lastDigits_mod]

/-- Cutting in halves changes no digit. -/
theorem lastDigitsByHalves_eq : ∀ depth width n behind,
    lastDigitsByHalves depth width n behind = lastDigits width n behind
  | 0, _, _, _ => rfl
  | depth + 1, width, n, behind => by
    unfold lastDigitsByHalves
    simp only [lastDigitsByHalves_eq depth, lastDigits_mod]
    rw [← lastDigits_add, Nat.sub_add_cancel (Nat.div_le_self width 2)]

private theorem lastDigits_eq_toDigits : ∀ width n behind,
    Nat.pow 10 width ≤ n → n < Nat.pow 10 (width + 1) →
      lastDigits (width + 1) n behind = Nat.toDigits 10 n ++ behind
  | 0, n, behind, _, above => by
    have small : n < 10 := above
    rw [Nat.toDigits_of_lt_base small]
    simp [lastDigits, Nat.mod_eq_of_lt small]
  | width + 1, n, behind, below, above => by
    have below : Nat.pow 10 width * 10 ≤ n := below
    have above : n < Nat.pow 10 (width + 1) * 10 := above
    have positive : 0 < Nat.pow 10 width := Nat.pow_pos (by omega)
    have ih := lastDigits_eq_toDigits width (n / 10) (Nat.digitChar (n % 10) :: behind)
      (by omega) (by omega)
    have split := Nat.toDigits_append_toDigits (b := 10) (n := n / 10) (d := n % 10)
      (by omega) (by omega) (Nat.mod_lt _ (by omega))
    rw [Nat.div_add_mod, Nat.toDigits_of_lt_base (Nat.mod_lt _ (by omega))] at split
    rw [lastDigits, ih, ← split, List.append_assoc]
    rfl

/-- The digits are those that repeated division by ten gives. -/
theorem digitsOf_eq_toDigits (n : Nat) : digitsOf n = Nat.toDigits 10 n := by
  unfold digitsOf
  rw [lastDigitsByHalves_eq]
  have above := lt_pow_digitCount n
  obtain ⟨width, count⟩ : ∃ width, digitCount n = width + 1 :=
    ⟨_, (Nat.sub_add_cancel (digitCount_pos n)).symm⟩
  rcases pow_digitCount_le n with below | one
  · rw [count] at above below ⊢
    simpa using lastDigits_eq_toDigits width n [] below above
  · rw [one] at above ⊢
    have small : n < 10 := above
    rw [Nat.toDigits_of_lt_base small]
    simp [lastDigits, Nat.mod_eq_of_lt small]

private theorem length_lastDigits : ∀ width n behind,
    (lastDigits width n behind).length = width + behind.length
  | 0, _, _ => by simp [lastDigits]
  | width + 1, n, behind => by
    rw [lastDigits, length_lastDigits, List.length_cons]
    omega

/-- The digits are as many as `digitCount` says. -/
theorem length_digitsOf (n : Nat) : (digitsOf n).length = digitCount n := by
  unfold digitsOf
  rw [lastDigitsByHalves_eq, length_lastDigits]
  rfl

end DecimalConformance.Decimal
