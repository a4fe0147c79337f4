import DecimalConformance.Engine.Standard
import DecimalConformance.Proofs.Decimal.DigitCount
import Mathlib.Tactic.SplitIfs

/-! Decimals as they are stored.  The exponent of a decimal that was read can always be stored, so
reading at a precision is reading exactly and rounding what was read. -/
namespace DecimalConformance.Decimal

/-- Storing changes no decimal with an exponent in the symmetric range. -/
theorem stored_eq_self {d : Decimal} (lower : -exponentMax ≤ d.exponent)
    (upper : d.exponent ≤ exponentMax) : d.stored = d := by
  have exponent : max (-exponentMax) (min exponentMax d.exponent) = d.exponent := by omega
  rw [stored, exponent]

theorem exponent_of_stored {d : Decimal} (h : d.stored = d) : -exponentMax ≤ d.exponent := by
  have exponent := congrArg Decimal.exponent h
  simp only [stored] at exponent
  omega

theorem exponentFits_of_stored {d : Decimal} (h : d.stored = d) : ExponentFits d.exponent := by
  have exponent := congrArg Decimal.exponent h
  simp only [stored, ExponentFits, exponentMin, exponentMax] at *
  omega

/-- The lowest and the leading digit have places strictly inside the range of exponents. -/
structure PlacesFit (d : Decimal) : Prop where
  lowest : exponentMin < d.exponent
  leading : d.exponent + d.digits - 1 < exponentMax

theorem stored_eq_of_placesFit {d : Decimal} (fits : d.PlacesFit) : d.stored = d := by
  obtain ⟨lowest, leading⟩ := fits
  have := d.digits_pos
  simp only [exponentMin, exponentMax] at lowest leading
  exact stored_eq_self (by simp only [exponentMax]; omega) (by simp only [exponentMax]; omega)

/-- Rounding leaves an exponent that can be stored. -/
theorem stored_round_of_placesFit {d : Decimal} (precision : Nat) (mode : RoundingMode)
    (fits : d.PlacesFit) : (d.round precision mode).stored = d.round precision mode := by
  by_cases whole : precision = 0 ∨ d.digits ≤ precision
  · rw [round, if_pos whole, stored_eq_of_placesFit fits]
  · obtain ⟨lowest, leading⟩ := fits
    refine stored_eq_self ?_ ?_ <;>
      simp only [round, if_neg whole, saturate, exponentMin, exponentMax] at * <;>
      split_ifs <;> simp only <;> omega

/-- Rounding takes no leading digit down from the largest place. -/
theorem le_lead_round {d : Decimal} (precision : Nat) (mode : RoundingMode)
    (lead : exponentMax ≤ d.exponent + d.digits - 1) :
    exponentMax ≤ (d.round precision mode).exponent + (d.round precision mode).digits - 1 := by
  by_cases whole : precision = 0 ∨ d.digits ≤ precision
  · rwa [round, if_pos whole]
  · have width := digits_round_of_lt mode (by omega) (show precision < d.digits by omega)
    rw [width]
    simp only [round, if_neg whole, saturate, exponentMin, exponentMax] at *
    split_ifs <;> simp only <;> omega

theorem le_lead_stored {d : Decimal} (lead : exponentMax ≤ d.exponent + d.digits - 1) :
    exponentMax ≤ d.stored.exponent + d.stored.digits - 1 := by
  have single := d.digits_pos
  simp only [stored, digits, exponentMax] at *
  omega

private theorem exponent_of_readNumber {cs : List Char} {d : Decimal} (h : readNumber cs = .ok d) :
    -exponentMax ≤ d.exponent ∧ d.exponent ≤ exponentMax := by
  simp only [readNumber] at h
  cases written : (splitExponent cs).2.elim (.ok 0) readExponent with
  | error flaw => simp [written, bind, Except.bind] at h
  | ok exponent =>
    simp only [written, bind, Except.bind] at h
    split at h
    · cases h
    · split at h
      · cases h
      · next fits =>
        cases digits : readCoefficient (splitPoint (splitExponent cs).1).1 with
        | error flaw => simp [digits] at h
        | ok coefficient =>
          simp only [digits] at h
          obtain rfl := Except.ok.inj h
          simp only [ExponentFits, Decidable.not_not, exponentMin, exponentMax] at fits ⊢
          omega

theorem stored_of_ofLiteral {literal : String} {d : Decimal} (h : ofLiteral literal = .ok d) :
    d.stored = d := by
  simp only [ofLiteral] at h
  split at h
  · cases h
  · split at h
    · cases h
    · obtain ⟨lower, upper⟩ := exponent_of_readNumber h
      exact stored_eq_self lower upper

end DecimalConformance.Decimal

namespace DecimalConformance.Engine

/-- A literal that is read at some precision is read exactly as well, and then rounded. -/
theorem readLiteral_eq_ok {literal : String} {precision : Nat} {value : Decimal}
    (h : readLiteral literal precision = .ok value) :
    ∃ exact, readLiteral literal 0 = .ok exact ∧
      value = (exact.round precision .nearestEven).stored := by
  unfold readLiteral at h ⊢
  split at h
  · next d read =>
    have storable := Decimal.stored_of_ofLiteral read
    refine ⟨d, ?_, (Except.ok.inj h).symm⟩
    rw [Decimal.round_zero, storable]
  · cases h

end DecimalConformance.Engine
