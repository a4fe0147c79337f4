import DecimalConformance.Text.Blank
import DecimalConformance.Text.Numeral

/-! ASCII digits: their values, and numerals written with them read back.
The value of a run of digits is the one of `Nat.ofDigitChars`. -/
namespace DecimalConformance.Text

private theorem toNat_of_isDigit {c : Char} (h : c.isDigit = true) :
    48 ≤ c.toNat ∧ c.toNat ≤ 57 := by
  simp only [Char.isDigit, Bool.and_eq_true, decide_eq_true_eq, ge_iff_le, UInt32.le_iff_toNat_le]
    at h
  exact h

/-- A digit is none of the marks that divide a literal. -/
theorem ne_of_isDigit {c : Char} (h : c.isDigit = true) (mark : Char)
    (hm : mark.isDigit = false) : c ≠ mark := by
  rintro rfl
  rw [h] at hm
  cases hm

/-- A digit is not white space. -/
theorem isBlank_of_isDigit {c : Char} (h : c.isDigit = true) : isBlank c = false := by
  have := toNat_of_isDigit h
  simp [isBlank, blankRanges]
  omega

/-- A digit has no other case. -/
theorem toLower_of_isDigit {c : Char} (h : c.isDigit = true) : c.toLower = c := by
  have := toNat_of_isDigit h
  refine dif_neg fun upper => ?_
  have := UInt32.le_iff_toNat_le.mp upper.1
  simp only [Char.toNat_val, Char.reduceToNat] at this
  omega

/-- A digit is an ASCII character. -/
theorem toNat_lt_of_isDigit {c : Char} (h : c.isDigit = true) : c.toNat < 128 := by
  have := toNat_of_isDigit h
  omega

theorem digitValue?_of_isDigit {c : Char} (h : c.isDigit = true) :
    digitValue? c = some (c.toNat - '0'.toNat) := by
  have := toNat_of_isDigit h
  have hc : '0' ≤ c ∧ c ≤ '9' := by
    simp only [Char.le_def, UInt32.le_iff_toNat_le]
    exact this
  simp [digitValue?, hc]

theorem digitValue?_of_not_isDigit {c : Char} (h : c.isDigit = false) : digitValue? c = none := by
  have hc : ¬ ('0' ≤ c ∧ c ≤ '9') := by
    intro inside
    simp only [Char.isDigit, Bool.and_eq_false_iff, decide_eq_false_iff_not] at h
    exact h.elim (absurd inside.1) (absurd inside.2)
  rw [digitValue?, if_neg hc]

/-- More digits make no number smaller. -/
theorem le_ofDigitChars (cs : List Char) (value : Nat) : value ≤ Nat.ofDigitChars 10 cs value := by
  induction cs generalizing value with
  | nil => simp
  | cons c cs ih =>
    rw [Nat.ofDigitChars_cons]
    exact Nat.le_trans (by omega) (ih _)

/-- Digits whose value stays within the bound are read as that value. -/
theorem readDigits_of_isDigit {bound : Nat} (cs : List Char) (value : Nat)
    (hd : ∀ c ∈ cs, c.isDigit = true) (hb : Nat.ofDigitChars 10 cs value ≤ bound) :
    readDigits bound value cs = .ok (Nat.ofDigitChars 10 cs value) := by
  induction cs generalizing value with
  | nil => simp [readDigits]
  | cons c cs ih =>
    rw [Nat.ofDigitChars_cons] at hb ⊢
    have step : value * 10 + (c.toNat - '0'.toNat) = 10 * value + (c.toNat - '0'.toNat) := by
      omega
    have within := Nat.le_trans (le_ofDigitChars cs _) hb
    rw [readDigits, digitValue?_of_isDigit (hd c (by simp))]
    simp only [step, within, if_true]
    exact ih _ (fun x hx => hd x (by simp [hx])) hb

/-- Exactly digits are read, and exactly up to the bound. -/
theorem readDigits_eq_ok_iff {bound value n : Nat} {cs : List Char} (hv : value ≤ bound) :
    readDigits bound value cs = .ok n ↔
      (∀ c ∈ cs, c.isDigit = true) ∧ Nat.ofDigitChars 10 cs value = n ∧ n ≤ bound := by
  constructor
  · intro read
    induction cs generalizing value with
    | nil =>
      obtain rfl := Except.ok.inj read
      exact ⟨by simp, rfl, hv⟩
    | cons c cs ih =>
      cases digit : c.isDigit with
      | false =>
        rw [readDigits, digitValue?_of_not_isDigit digit] at read
        cases read
      | true =>
        rw [readDigits, digitValue?_of_isDigit digit] at read
        dsimp only at read
        split at read
        · next within =>
          obtain ⟨digits, value', most⟩ := ih within read
          rw [Nat.mul_comm] at value'
          exact ⟨by simpa [digit] using digits, by rw [Nat.ofDigitChars_cons, value'], most⟩
        · cases read
  · rintro ⟨digits, rfl, most⟩
    exact readDigits_of_isDigit cs value digits most

theorem readNumeral_eq_ok_iff {bound n : Nat} {cs : List Char} :
    readNumeral bound cs = .ok n ↔
      cs ≠ [] ∧ (∀ c ∈ cs, c.isDigit = true) ∧ Nat.ofDigitChars 10 cs 0 = n ∧ n ≤ bound := by
  cases cs with
  | nil => simp [readNumeral]
  | cons c cs =>
    rw [readNumeral, readDigits_eq_ok_iff (Nat.zero_le bound)]
    · simp
    · simp

end DecimalConformance.Text
