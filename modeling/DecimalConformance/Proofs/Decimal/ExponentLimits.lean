import DecimalConformance.Proofs.Decimal.CorrectRounding
import DecimalConformance.Proofs.Decimal.NumericString
import DecimalConformance.Proofs.Decimal.StagedRounding

/-! Literals and products at the ends of the range of exponents.
What cannot be held in a word is refused, but a word is not always enough: the largest literal, the
smallest product and a carry past the largest exponent are moved to the nearest exponent without a
word. -/
namespace DecimalConformance

namespace Decimal

/-- Moving an exponent changes every number but zero. -/
theorem value_mk_eq_iff {coefficient e e' : Int} :
    (⟨coefficient, e⟩ : Decimal).value = (⟨coefficient, e'⟩ : Decimal).value ↔
      coefficient = 0 ∨ e = e' := by
  simp only [value]
  constructor
  · intro same
    by_cases zero : coefficient = 0
    · exact .inl zero
    · have nonzero : (coefficient : ℚ) ≠ 0 := Int.cast_ne_zero.mpr zero
      exact .inr (zpow_right_injective₀ (by norm_num) (by norm_num)
        (mul_left_cancel₀ nonzero same))
  · rintro (rfl | rfl)
    · simp
    · rfl

theorem value_stored_eq_iff {d : Decimal} :
    d.stored.value = d.value ↔
      d.coefficient = 0 ∨ -exponentMax ≤ d.exponent ∧ d.exponent ≤ exponentMax := by
  refine value_mk_eq_iff.trans (or_congr Iff.rfl ?_)
  simp only [exponentMax]
  omega

end Decimal

namespace Engine

open Decimal

/-- A word holds each exponent of a product, and one more than can be stored. -/
theorem binary_multiply_eq_ite (internal : Nat) (x y : Decimal) (context : Context) :
    calculateBinary internal .multiply x y context =
      if ExponentFits (x.exponent + y.exponent) then
        .ok ((x.product y).roundFreely context.precision context.rounding).stored
      else .error .overflow := by
  rw [calculateBinary_multiply, multiply]
  split
  · next fits =>
    exact congrArg Except.ok (stored_round (d := x.product y) context.rounding fits.1)
  · rfl

/-- A product is stored as the correctly rounded one exactly if that can be stored. -/
theorem roundsTo_stored_iff (mode : RoundingMode) (precision : Nat) (d : Decimal) :
    RoundsTo mode precision d.value (d.roundFreely precision mode).stored.value ↔
      (d.roundFreely precision mode).coefficient = 0 ∨
        -exponentMax ≤ (d.roundFreely precision mode).exponent ∧
          (d.roundFreely precision mode).exponent ≤ exponentMax := by
  have correct := roundsTo_roundFreely d precision mode
  rw [← value_stored_eq_iff]
  constructor
  · intro rounded
    exact rounded.unique correct
  · intro same
    rwa [same]

/-- Literals and products are refused where a word cannot hold their exponents.  Otherwise a literal
is the number written, and a product the exact one correctly rounded, up to the exponents that can be
stored: beyond them the nearest one is stored instead, and then only zero is right. -/
theorem exponent_limits (internal : Nat) :
    (∀ (text : String) (value : Decimal), (standard internal).parse text 0 = .ok value →
      ∃ l : LooseLiteral, l.text = text) ∧
    (∀ (l : LooseLiteral) (value : Decimal), (standard internal).parse l.text 0 = .ok value →
      l.exponent ≤ exponentMax + 1 ∧
        (value.value = l.value ↔ l.coefficient = 0 ∨ l.exponent ≤ exponentMax)) ∧
    (∀ l : LooseLiteral, ¬ ExponentFits (-l.exponent) →
      ∃ reason, (standard internal).parse l.text 0 = .error (.unreadable l.text reason)) ∧
    (∀ (x y : Decimal) (context : Context), ¬ ExponentFits (x.exponent + y.exponent) →
      (standard internal).binary .multiply x y context = .error .overflow) ∧
    (∀ (x y value : Decimal) (context : Context),
      (standard internal).binary .multiply x y context = .ok value →
        let free := (x.product y).roundFreely context.precision context.rounding
        value = free.stored ∧
          (RoundsTo context.rounding context.precision (x.value * y.value) value.value ↔
            free.coefficient = 0 ∨ -exponentMax ≤ free.exponent ∧ free.exponent ≤ exponentMax)) := by
  simp only [standard_parse, standard_binary, binary_multiply_eq_ite]
  refine ⟨?_, ?_, ?_, ?_, ?_⟩
  · intro text value read
    obtain ⟨l, same, -⟩ := readLiteral_eq_ok_iff.mp read
    exact ⟨l, same⟩
  · intro l value read
    obtain ⟨readable, rfl⟩ := (readLiteral_text_eq_ok_iff l).mp read
    have clamped : min exponentMax l.exponent = l.exponent ↔ l.exponent ≤ exponentMax := by omega
    exact ⟨readable.exponent_le, value_mk_eq_iff.trans (or_congr Iff.rfl clamped)⟩
  · intro l outside
    have refused : ∀ value, readLiteral l.text 0 ≠ .ok value := fun value read =>
      outside ((readLiteral_text_eq_ok_iff l).mp read).1.scale
    obtain ⟨reason, error⟩ := readLiteral_of_ne_ok refused
    exact ⟨reason, error 0⟩
  · intro x y context outside
    rw [if_neg outside]
  · intro x y value context computed
    split at computed
    · obtain rfl := Except.ok.inj computed
      refine ⟨rfl, ?_⟩
      rw [← value_product]
      exact roundsTo_stored_iff context.rounding context.precision (x.product y)
    · cases computed

/-- One exponent too many at either end, and a carry past the largest. -/
theorem exponents_moved :
    (standard 34).parse "1E+9223372036854775808" 0 = .ok ⟨1, 9223372036854775807⟩ ∧
      (standard 34).binary .multiply ⟨1, -9223372036854775807⟩ ⟨1, -1⟩ ⟨9, .nearestEven⟩ =
        .ok ⟨1, -9223372036854775807⟩ ∧
      (standard 34).binary .multiply ⟨15, 9223372036854775807⟩ ⟨1, 0⟩ ⟨1, .nearestEven⟩ =
        .ok ⟨2, 9223372036854775807⟩ := by
  decide

end Engine
end DecimalConformance
