/-! Computations that may be refused, read backwards: what comes before a result succeeded too. -/
namespace DecimalConformance

variable {ε α β : Type}

theorem exists_of_bind_eq_ok {x : Except ε α} {f : α → Except ε β} {b : β}
    (h : x >>= f = .ok b) : ∃ a, x = .ok a ∧ f a = .ok b := by
  cases x with
  | error reason => cases h
  | ok a => exact ⟨a, rfl, h⟩

theorem exists_of_map_eq_ok {x : Except ε α} {f : α → β} {b : β} (h : x.map f = .ok b) :
    ∃ a, x = .ok a ∧ f a = b := by
  cases x with
  | error reason => cases h
  | ok a => exact ⟨a, rfl, Except.ok.inj h⟩

theorem ok_ne_error (a : α) (reason : ε) : (.ok a : Except ε α) ≠ .error reason := nofun

/-- A refusal comes from the first part, or from what follows its result. -/
theorem bind_eq_error_iff {x : Except ε α} {f : α → Except ε β} {reason : ε} :
    x >>= f = .error reason ↔ x = .error reason ∨ ∃ a, x = .ok a ∧ f a = .error reason := by
  cases x with
  | error other =>
    show Except.error other = Except.error reason ↔ _
    simp
  | ok a =>
    show f a = Except.error reason ↔ _
    simp

theorem bind_ne_error {x : Except ε α} {f : α → Except ε β} {reason : ε}
    (first : x ≠ .error reason) (rest : ∀ a, x = .ok a → f a ≠ .error reason) :
    x >>= f ≠ .error reason := by
  rw [ne_eq, bind_eq_error_iff, not_or]
  exact ⟨first, fun ⟨a, answered, refused⟩ => rest a answered refused⟩

theorem map_eq_error_iff {x : Except ε α} {f : α → β} {reason : ε} :
    x.map f = .error reason ↔ x = .error reason := by
  cases x <;> simp [Except.map]

end DecimalConformance
