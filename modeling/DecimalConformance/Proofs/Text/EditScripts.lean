import DecimalConformance.Text.EditDistance
import Mathlib.Order.Bounds.Defs

/-! Edit scripts, and the distance as the length of a shortest one.
The rows of distances satisfy the recursion over the front characters.  One edit changes a distance by
one at most, wherever it is made, so no script is shorter than the distance; the recursion leads to a
script that is no longer. -/
namespace DecimalConformance.Text

/-- One insertion, deletion or substitution of a character, at the front or behind it. -/
inductive Edit : List Char → List Char → Prop
  | insert (x : Char) (s : List Char) : Edit s (x :: s)
  | delete (x : Char) (s : List Char) : Edit (x :: s) s
  | substitute (x y : Char) (s : List Char) : Edit (x :: s) (y :: s)
  | behind (x : Char) {s t : List Char} (edit : Edit s t) : Edit (x :: s) (x :: t)

/-- A script of so many edits. -/
inductive Edits : Nat → List Char → List Char → Prop
  | done (s : List Char) : Edits 0 s s
  | step {n : Nat} {s t u : List Char} (edit : Edit s t) (rest : Edits n t u) : Edits (n + 1) s u

variable {n m : Nat} {s t u : List Char}

/-! ## Scripts -/

theorem Edit.symm (edit : Edit s t) : Edit t s := by
  induction edit with
  | insert x s => exact .delete x s
  | delete x s => exact .insert x s
  | substitute x y s => exact .substitute y x s
  | behind x _ ih => exact .behind x ih

namespace Edits

theorem single (edit : Edit s t) : Edits 1 s t := .step edit (.done t)

theorem append (front : Edits n s t) (rest : Edits m t u) : Edits (n + m) s u := by
  induction front with
  | done s => rwa [Nat.zero_add]
  | step edit _ ih =>
    rw [Nat.add_right_comm]
    exact .step edit (ih rest)

theorem symm (script : Edits n s t) : Edits n t s := by
  induction script with
  | done s => exact .done s
  | step edit _ ih => exact ih.append (.single edit.symm)

theorem behind (x : Char) (script : Edits n s t) : Edits n (x :: s) (x :: t) := by
  induction script with
  | done s => exact .done (x :: s)
  | step edit _ ih => exact .step (.behind x edit) ih

theorem eq_of_zero (script : Edits 0 s t) : s = t := by
  cases script
  rfl

end Edits

/-! ## The recursion behind the rows -/

/-- The distance from a text to a target, both as characters. -/
def distance (source target : List Char) : Nat := (distances source target).headD 0

theorem editDistance_eq (a b : String) : editDistance a b = distance a.toList b.toList := rfl

/-- A row holds the rows of all shorter targets. -/
theorem tail_distances (s : List Char) (y : Char) (t : List Char) :
    (distances s (y :: t)).tail = distances s t := by
  induction s with
  | nil => rfl
  | cons x s ih =>
    show distanceRow x t (distances s (y :: t)).tail = distances (x :: s) t
    rw [ih]
    rfl

@[simp] theorem distance_nil (t : List Char) : distance [] t = t.length := by
  cases t <;> rfl

theorem distance_cons_nil (x : Char) (s : List Char) : distance (x :: s) [] = distance s [] + 1 := rfl

theorem distance_cons_cons (x y : Char) (s t : List Char) :
    distance (x :: s) (y :: t) =
      min (min (distance s (y :: t) + 1) (distance (x :: s) t + 1))
        (distance s t + if x = y then 0 else 1) := by
  have row : distance (x :: s) (y :: t) =
      min (min (distance s (y :: t) + 1)
          ((distanceRow x t (distances s (y :: t)).tail).headD 0 + 1))
        ((distances s (y :: t)).tail.headD 0 + if x = y then 0 else 1) := rfl
  rw [row, tail_distances]
  rfl

@[simp] theorem distance_self (s : List Char) : distance s s = 0 := by
  induction s with
  | nil => rfl
  | cons x s ih => simp [distance_cons_cons, ih]

/-! ## No script is shorter -/

theorem distance_cons_right_le (s : List Char) (y : Char) (t : List Char) :
    distance s (y :: t) ≤ distance s t + 1 := by
  cases s with
  | nil => simp
  | cons x s =>
    rw [distance_cons_cons]
    omega

theorem distance_cons_left_le (x : Char) (s t : List Char) :
    distance (x :: s) t ≤ distance s t + 1 := by
  cases t with
  | nil => exact Nat.le_of_eq (distance_cons_nil x s)
  | cons y t =>
    rw [distance_cons_cons]
    omega

/-- Removing the first character saves no more than one edit. -/
private theorem distance_le_cons_left (x : Char) (s t : List Char) :
    distance s t ≤ distance (x :: s) t + 1 := by
  induction t with
  | nil =>
    rw [distance_cons_nil]
    omega
  | cons y t ih =>
    have longer := distance_cons_right_le s y t
    rw [distance_cons_cons]
    omega

/-- An edit changes no distance by more than one. -/
theorem Edit.distance_le (edit : Edit s t) (u : List Char) : distance s u ≤ distance t u + 1 := by
  induction edit generalizing u with
  | insert x s => exact distance_le_cons_left x s u
  | delete x s => exact distance_cons_left_le x s u
  | substitute x y s =>
    -- Both sides fall back on the same row, and on their own one at a shorter target.
    induction u with
    | nil => simp [distance_cons_nil]
    | cons z u ih =>
      rw [distance_cons_cons x, distance_cons_cons y]
      split <;> split <;> omega
  | behind x _ ih =>
    induction u with
    | nil =>
      have shorter := ih []
      rw [distance_cons_nil, distance_cons_nil]
      omega
    | cons z u ih' =>
      have same := ih (z :: u)
      have shorter := ih u
      rw [distance_cons_cons, distance_cons_cons]
      omega

theorem Edits.distance_le (script : Edits n s t) : distance s t ≤ n := by
  induction script with
  | done s => simp
  | step edit _ ih => exact Nat.le_trans (edit.distance_le _) (Nat.succ_le_succ ih)

/-! ## Some script is as short -/

private theorem edits_length (t : List Char) : Edits t.length [] t := by
  induction t with
  | nil => exact .done []
  | cons y t ih => exact ih.append (.single (.insert y t))

theorem edits_distance (s t : List Char) : Edits (distance s t) s t := by
  induction s generalizing t with
  | nil => simpa using edits_length t
  | cons x s ih =>
    induction t with
    | nil => exact .step (.delete x s) (ih [])
    | cons y t ih' =>
      have choice : distance (x :: s) (y :: t) = distance s (y :: t) + 1 ∨
          distance (x :: s) (y :: t) = distance (x :: s) t + 1 ∨
          x = y ∧ distance (x :: s) (y :: t) = distance s t ∨
          distance (x :: s) (y :: t) = distance s t + 1 := by
        rw [distance_cons_cons]
        split
        · next same =>
          rw [and_iff_right same]
          omega
        · omega
      rcases choice with deleted | inserted | ⟨rfl, kept⟩ | substituted
      · rw [deleted]
        exact .step (.delete x s) (ih (y :: t))
      · rw [inserted]
        exact ih'.append (.single (.insert y t))
      · rw [kept]
        exact (ih t).behind x
      · rw [substituted]
        exact .step (.substitute x y s) ((ih t).behind y)

/-- The distance is the length of a shortest script. -/
theorem isLeast_distance (s t : List Char) : IsLeast {n | Edits n s t} (distance s t) :=
  ⟨edits_distance s t, fun _ script => script.distance_le⟩

/-! ## Distances as a metric -/

theorem distance_comm (s t : List Char) : distance s t = distance t s :=
  Nat.le_antisymm (edits_distance t s).symm.distance_le (edits_distance s t).symm.distance_le

theorem distance_eq_zero_iff : distance s t = 0 ↔ s = t := by
  constructor
  · intro none
    have script := edits_distance s t
    rw [none] at script
    exact script.eq_of_zero
  · rintro rfl
    exact distance_self s

theorem distance_triangle (s t u : List Char) : distance s u ≤ distance s t + distance t u :=
  ((edits_distance s t).append (edits_distance t u)).distance_le

/-- Three edits lead from one word to the other. -/
example : editDistance "kitten" "sitting" = 3 := by decide +kernel

end DecimalConformance.Text
