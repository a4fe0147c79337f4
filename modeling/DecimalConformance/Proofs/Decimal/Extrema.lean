import DecimalConformance.Proofs.Decimal.IdealForm
import DecimalConformance.Proofs.Decimal.NumericOrder
import Mathlib.Data.Multiset.Basic
import Mathlib.Data.Prod.Lex

/-! The larger and the smaller of two decimals.
Both are taken from one total order: by value, and among the decimals of one value by the exponent,
which counts downwards below zero.  So they obey the laws of a lattice, up to the last trailing zero. -/
namespace DecimalConformance

namespace Decimal

variable {a b : Decimal}

/-- The place of a decimal in the order that extrema are taken from. -/
def rank (d : Decimal) : ℚ ×ₗ Int :=
  toLex (d.value, if d.coefficient < 0 then -d.exponent else d.exponent)

/-- Decimals of one value are negative together, so their exponents are ordered the same way. -/
private theorem negative_iff_of_value_eq (same : a.value = b.value) :
    a.coefficient < 0 ↔ b.coefficient < 0 := by
  rw [← value_lt_zero_iff, same, value_lt_zero_iff]

theorem rank_injective : Function.Injective rank := by
  intro a b same
  obtain ⟨value, exponent⟩ := Prod.ext_iff.mp (toLex.injective same)
  dsimp only at value exponent
  refine eq_of_value_eq value ?_
  simp only [negative_iff_of_value_eq value] at exponent
  split_ifs at exponent <;> omega

theorem firstIsGreater_iff (a b : Decimal) : a.firstIsGreater b ↔ b.rank ≤ a.rank := by
  rw [rank, rank, Prod.Lex.toLex_le_toLex, firstIsGreater, firstIsGreaterBy, Id.run_bind, ← compare,
    compare_eq_cmp]
  cases order : cmp a.value b.value with
  | lt =>
    have less := (cmp_eq_lt_iff _ _).mp order
    simp [less.not_gt, less.ne']
  | gt => simp [(cmp_eq_gt_iff _ _).mp order]
  | eq =>
    have same := (cmp_eq_eq_iff _ _).mp order
    simp only [same, lt_irrefl, false_or, true_and, isNegative, decide_eq_true_eq,
      negative_iff_of_value_eq same]
    split_ifs <;> simp

theorem greater_eq_ite (a b : Decimal) : a.greater b = if a.firstIsGreater b then a else b := rfl

theorem lesser_eq_ite (a b : Decimal) : a.lesser b = if a.firstIsGreater b then b else a := rfl

theorem rank_greater (a b : Decimal) : (a.greater b).rank = max a.rank b.rank := by
  rw [greater_eq_ite]
  split_ifs with first
  · exact (max_eq_left ((firstIsGreater_iff a b).mp first)).symm
  · exact (max_eq_right (not_le.mp ((firstIsGreater_iff a b).not.mp first)).le).symm

theorem rank_lesser (a b : Decimal) : (a.lesser b).rank = min a.rank b.rank := by
  rw [lesser_eq_ite]
  split_ifs with first
  · exact (min_eq_right ((firstIsGreater_iff a b).mp first)).symm
  · exact (min_eq_left (not_le.mp ((firstIsGreater_iff a b).not.mp first)).le).symm

theorem greater_comm (a b : Decimal) : a.greater b = b.greater a :=
  rank_injective (by rw [rank_greater, rank_greater, max_comm])

theorem lesser_comm (a b : Decimal) : a.lesser b = b.lesser a :=
  rank_injective (by rw [rank_lesser, rank_lesser, min_comm])

theorem greater_assoc (a b c : Decimal) : (a.greater b).greater c = a.greater (b.greater c) :=
  rank_injective (by simp only [rank_greater, max_assoc])

theorem lesser_assoc (a b c : Decimal) : (a.lesser b).lesser c = a.lesser (b.lesser c) :=
  rank_injective (by simp only [rank_lesser, min_assoc])

theorem greater_self (a : Decimal) : a.greater a = a := ite_self a

theorem lesser_self (a : Decimal) : a.lesser a = a := ite_self a

theorem greater_lesser_self (a b : Decimal) : a.greater (a.lesser b) = a :=
  rank_injective (by rw [rank_greater, rank_lesser, max_eq_left (min_le_left _ _)])

theorem lesser_greater_self (a b : Decimal) : a.lesser (a.greater b) = a :=
  rank_injective (by rw [rank_lesser, rank_greater, min_eq_left (le_max_left _ _)])

/-- What is not the greater of two is the lesser. -/
theorem pair_greater_lesser (a b : Decimal) :
    ({a.greater b, a.lesser b} : Multiset Decimal) = {a, b} := by
  rw [greater_eq_ite, lesser_eq_ite]
  split_ifs
  · rfl
  · exact Multiset.pair_comm b a

theorem stored_greater (left : a.stored = a) (right : b.stored = b) :
    (a.greater b).stored = a.greater b := by
  rw [greater_eq_ite]
  split_ifs <;> assumption

theorem stored_lesser (left : a.stored = a) (right : b.stored = b) :
    (a.lesser b).stored = a.lesser b := by
  rw [lesser_eq_ite]
  split_ifs <;> assumption

end Decimal

namespace Engine

open Decimal

variable {x y z : Decimal}

theorem finish_unlimited {d : Decimal} (mode : RoundingMode) (held : d.stored = d) :
    finish d ⟨0, mode⟩ = d := by
  rw [finish, round_zero, held]

/-- Without a limit the larger and the smaller of two values are the values themselves, one of them
each, and obey the laws of a lattice.  In any context they do not depend on which value comes first,
and are those two rounded. -/
theorem extrema_laws (internal : Nat) (mode : RoundingMode) (heldX : x.stored = x)
    (heldY : y.stored = y) (heldZ : z.stored = z) :
    let largest := fun a b => (standard internal).binary .max a b ⟨0, mode⟩
    let smallest := fun a b => (standard internal).binary .min a b ⟨0, mode⟩
    (∃ larger smaller, largest x y = .ok larger ∧ smallest x y = .ok smaller ∧
      larger.rank = max x.rank y.rank ∧ smaller.rank = min x.rank y.rank ∧
      ({larger, smaller} : Multiset Decimal) = {x, y} ∧
      ∀ context,
        (standard internal).binary .max x y context =
          .ok ((standard internal).round larger context) ∧
        (standard internal).binary .min x y context =
          .ok ((standard internal).round smaller context)) ∧
    (∀ context,
      (standard internal).binary .max x y context = (standard internal).binary .max y x context ∧
      (standard internal).binary .min x y context = (standard internal).binary .min y x context) ∧
    largest x x = .ok x ∧ smallest x x = .ok x ∧
    (largest x y >>= (largest · z)) = (largest y z >>= largest x) ∧
    (smallest x y >>= (smallest · z)) = (smallest y z >>= smallest x) ∧
    (smallest x y >>= largest x) = .ok x ∧ (largest x y >>= smallest x) = .ok x := by
  intro largest smallest
  have max_eq {a b : Decimal} (left : a.stored = a) (right : b.stored = b) :
      largest a b = .ok (a.greater b) := by
    rw [← finish_unlimited mode (stored_greater left right)]
    exact calculateBinary_max internal a b ⟨0, mode⟩
  have min_eq {a b : Decimal} (left : a.stored = a) (right : b.stored = b) :
      smallest a b = .ok (a.lesser b) := by
    rw [← finish_unlimited mode (stored_lesser left right)]
    exact calculateBinary_min internal a b ⟨0, mode⟩
  refine ⟨⟨x.greater y, x.lesser y, max_eq heldX heldY, min_eq heldX heldY, rank_greater x y,
    rank_lesser x y, pair_greater_lesser x y, fun context =>
      ⟨calculateBinary_max internal x y context, calculateBinary_min internal x y context⟩⟩,
    fun context => ?_,
    ?_, ?_, ?_, ?_, ?_, ?_⟩
  · simp only [standard_binary, calculateBinary_max, calculateBinary_min, greater_comm x y,
      lesser_comm x y, and_self]
  · rw [max_eq heldX heldX, greater_self]
  · rw [min_eq heldX heldX, lesser_self]
  · rw [max_eq heldX heldY, max_eq heldY heldZ]
    show largest (x.greater y) z = largest x (y.greater z)
    rw [max_eq (stored_greater heldX heldY) heldZ, max_eq heldX (stored_greater heldY heldZ),
      greater_assoc]
  · rw [min_eq heldX heldY, min_eq heldY heldZ]
    show smallest (x.lesser y) z = smallest x (y.lesser z)
    rw [min_eq (stored_lesser heldX heldY) heldZ, min_eq heldX (stored_lesser heldY heldZ),
      lesser_assoc]
  · rw [min_eq heldX heldY]
    show largest x (x.lesser y) = .ok x
    rw [max_eq heldX (stored_lesser heldX heldY), greater_lesser_self]
  · rw [max_eq heldX heldY]
    show smallest x (x.greater y) = .ok x
    rw [min_eq heldX (stored_greater heldX heldY), lesser_greater_self]

/-- Of two decimals below zero with one value, the one with the smaller exponent is the larger. -/
theorem extrema_laws_negative :
    (⟨-10, -1⟩ : Decimal).stored = ⟨-10, -1⟩ ∧ (⟨-1, 0⟩ : Decimal).stored = ⟨-1, 0⟩ ∧
      (⟨0, 5⟩ : Decimal).stored = ⟨0, 5⟩ ∧
      (standard 34).binary .max ⟨-10, -1⟩ ⟨-1, 0⟩ ⟨0, .nearestEven⟩ = .ok ⟨-10, -1⟩ ∧
      (standard 34).binary .max ⟨-1, 0⟩ ⟨-10, -1⟩ ⟨0, .nearestEven⟩ = .ok ⟨-10, -1⟩ ∧
      ((standard 34).binary .min ⟨-10, -1⟩ ⟨-1, 0⟩ ⟨0, .nearestEven⟩ >>= fun smaller =>
        (standard 34).binary .max ⟨-10, -1⟩ smaller ⟨0, .nearestEven⟩) = .ok ⟨-10, -1⟩ := by
  have heldX : (⟨-10, -1⟩ : Decimal).stored = ⟨-10, -1⟩ := by decide
  have heldY : (⟨-1, 0⟩ : Decimal).stored = ⟨-1, 0⟩ := by decide
  have heldZ : (⟨0, 5⟩ : Decimal).stored = ⟨0, 5⟩ := by decide
  have larger : (standard 34).binary .max ⟨-10, -1⟩ ⟨-1, 0⟩ ⟨0, .nearestEven⟩ = .ok ⟨-10, -1⟩ := by
    decide
  obtain ⟨-, exchanged, -, -, -, -, absorbed, -⟩ :=
    extrema_laws 34 .nearestEven heldX heldY heldZ
  exact ⟨heldX, heldY, heldZ, larger, (exchanged ⟨0, .nearestEven⟩).1.symm.trans larger, absorbed⟩

end Engine
end DecimalConformance
