import DecimalConformance.Diagnostic
import DecimalConformance.Proofs.Text.EditScripts
import Mathlib.Data.Prod.Lex
import Mathlib.Data.String.Basic

/-! Hints that name what may have been meant.
Of the known names within three edits the scan finds the one that a shortest script reaches, and of two
at one distance the one that the alphabet puts first.  General advice is given exactly where no name is
near. -/
namespace DecimalConformance

namespace Text

variable {searched name name' : String} {candidates : List String}

/-- A candidate within three edits, and the alphabetically first of the nearest. -/
structure IsNearest (searched : String) (candidates : List String) (name : String) : Prop where
  mem : name ∈ candidates
  near : editDistance searched name ≤ 3
  first : ∀ other ∈ candidates, editDistance searched name < editDistance searched other ∨
    editDistance searched name = editDistance searched other ∧ name ≤ other

theorem IsNearest.unique (h : IsNearest searched candidates name)
    (h' : IsNearest searched candidates name') : name = name' := by
  have before := h.first name' h'.mem
  have after := h'.first name h.mem
  rcases before with closer | ⟨same, le⟩
  · omega
  · rcases after with closer | ⟨-, ge⟩
    · omega
    · exact le_antisymm le ge

/-- The closer of two names with their distances. -/
private def closerOf (a b : Nat × String) : Nat × String :=
  if b.1 < a.1 ∨ (b.1 = a.1 ∧ b.2 < a.2) then b else a

/-- The scan keeps the first of the names that it has passed, by distance and then by the alphabet. -/
private theorem foldl_closerOf (first : Nat × String) (rest : List (Nat × String)) :
    rest.foldl closerOf first ∈ first :: rest ∧
      ∀ other ∈ first :: rest, toLex (rest.foldl closerOf first) ≤ toLex other := by
  induction rest generalizing first with
  | nil => simp
  | cons next rest ih =>
    rw [List.foldl_cons, closerOf]
    by_cases closer : next.1 < first.1 ∨ (next.1 = first.1 ∧ next.2 < first.2)
    · rw [if_pos closer]
      obtain ⟨mem, least⟩ := ih next
      have passed : toLex next ≤ toLex first := (Prod.Lex.toLex_lt_toLex.mpr closer).le
      refine ⟨List.mem_cons_of_mem _ mem, ?_⟩
      rw [List.forall_mem_cons]
      exact ⟨(least next List.mem_cons_self).trans passed, least⟩
    · rw [if_neg closer]
      obtain ⟨mem, least⟩ := ih first
      rw [List.forall_mem_cons] at least
      have passed : toLex first ≤ toLex next := not_lt.mp (mt Prod.Lex.toLex_lt_toLex.mp closer)
      refine ⟨?_, ?_⟩
      · rcases List.mem_cons.mp mem with same | later
        · rw [same]
          exact List.mem_cons_self
        · exact List.mem_cons_of_mem _ (List.mem_cons_of_mem _ later)
      · simp only [List.forall_mem_cons]
        exact ⟨least.1, least.1.trans passed, least.2⟩

/-- The names that are near, with their distances. -/
private def scored (searched : String) (candidates : List String) : List (Nat × String) :=
  (candidates.map fun name => (editDistance searched name, name)).filter (·.1 ≤ 3)

private theorem mem_scored {pair : Nat × String} :
    pair ∈ scored searched candidates ↔
      pair.2 ∈ candidates ∧ pair.1 = editDistance searched pair.2 ∧ pair.1 ≤ 3 := by
  obtain ⟨distance, name⟩ := pair
  simp only [scored, List.mem_filter, List.mem_map, Prod.mk.injEq, decide_eq_true_eq]
  constructor
  · rintro ⟨⟨name, mem, rfl, rfl⟩, near⟩
    exact ⟨mem, rfl, near⟩
  · rintro ⟨mem, rfl, near⟩
    exact ⟨⟨name, mem, rfl, rfl⟩, near⟩

private theorem nearest?_eq (searched : String) (candidates : List String) :
    nearest? searched candidates =
      match scored searched candidates with
      | [] => none
      | first :: rest => some (rest.foldl closerOf first).2 := rfl

theorem nearest?_eq_none_iff :
    nearest? searched candidates = none ↔ ∀ name ∈ candidates, 3 < editDistance searched name := by
  have empty : nearest? searched candidates = none ↔ scored searched candidates = [] := by
    rw [nearest?_eq]
    cases scored searched candidates <;> simp
  rw [empty, List.eq_nil_iff_forall_not_mem]
  constructor
  · intro none name mem
    by_contra near
    exact none (editDistance searched name, name) (mem_scored.mpr ⟨mem, rfl, not_lt.mp near⟩)
  · intro far pair mem
    obtain ⟨mem, distance, near⟩ := mem_scored.mp mem
    have far := far pair.2 mem
    omega

theorem isNearest_of_nearest? (h : nearest? searched candidates = some name) :
    IsNearest searched candidates name := by
  rw [nearest?_eq] at h
  cases found : scored searched candidates with
  | nil =>
    rw [found] at h
    cases h
  | cons first rest =>
    rw [found] at h
    obtain rfl := Option.some.inj h
    obtain ⟨mem, least⟩ := foldl_closerOf first rest
    rw [← found] at mem least
    generalize rest.foldl closerOf first = best at mem least ⊢
    obtain ⟨known, distance, near⟩ := mem_scored.mp mem
    refine ⟨known, distance ▸ near, fun other mem => ?_⟩
    rw [← distance]
    -- A candidate that is too far to be scanned is farther than the one that was found.
    rcases Nat.lt_or_ge 3 (editDistance searched other) with far | close
    · exact .inl (by omega)
    · have order := least (editDistance searched other, other) (mem_scored.mpr ⟨mem, rfl, close⟩)
      exact Prod.Lex.toLex_le_toLex.mp order

end Text

namespace Diagnostic

open Text

/-- What a hint says of a name that is not known: the nearest candidate, or general advice. -/
structure NamesNearest (searched : String) (candidates : List String) (naming : String → String)
    (advice : String) (hint? : Option String) : Prop where
  nearest : (∃ name ∈ candidates, editDistance searched name ≤ 3) →
    ∃ name, IsNearest searched candidates name ∧ hint? = some (naming name)
  advice : hint? = some advice ↔ ∀ name ∈ candidates, 3 < editDistance searched name

private theorem append_ne_of_head? {front advice : String} (name back : String)
    (filled : front.toList ≠ []) (other : front.toList.head? ≠ advice.toList.head?) :
    front ++ name ++ back ≠ advice := by
  rintro rfl
  rw [String.toList_append, String.toList_append, List.append_assoc,
    List.head?_append_of_ne_nil _ filled] at other
  exact other rfl

private theorem namesNearest_or {searched advice : String} {candidates : List String}
    {naming : String → String} (apart : ∀ name, naming name ≠ advice) :
    NamesNearest searched candidates naming advice
      (((nearest? searched candidates).map naming).or (some advice)) := by
  cases found : nearest? searched candidates with
  | none =>
    have far := nearest?_eq_none_iff.mp found
    refine ⟨?_, iff_of_true rfl far⟩
    rintro ⟨name, mem, near⟩
    exact absurd near (not_le.mpr (far name mem))
  | some name =>
    have nearest := isNearest_of_nearest? found
    refine ⟨fun _ => ⟨name, nearest, rfl⟩, iff_of_false ?_ ?_⟩
    · intro general
      exact apart name (Option.some.inj general)
    · intro far
      exact absurd nearest.near (not_le.mpr (far name nearest.mem))

/-- The edit distance is the length of a shortest script of edits, and a metric.  Whatever contexts a
fault was met in, the hint on an unknown operator or rounding token names the nearest known one, where
one lies within three edits, and is general advice exactly where none does. -/
theorem hints_name_nearest :
    (∀ a b : String, IsLeast {n | Edits n a.toList b.toList} (editDistance a b)) ∧
    (∀ a b c : String, editDistance a b = editDistance b a ∧ (editDistance a b = 0 ↔ a = b) ∧
      editDistance a c ≤ editDistance a b + editDistance b c) ∧
    (∀ (fault : Fault) (operator : String), fault.cause = .unknownOperator operator →
      NamesNearest operator Operation.names (fun name => s!"Did you mean '{name}'?")
        "Use --dialect variable to skip operators the harness does not know"
        (ofFault fault).hint?) ∧
    ∀ (fault : Fault) (token : String), fault.cause = .invalidRounding token →
      NamesNearest token roundingTokens (fun name => s!"Did you mean 'rounding: {name}'?")
        "Valid modes: half_even, half_up, down, zero, half_down, floor, ceiling, up"
        (ofFault fault).hint? := by
  refine ⟨fun a b => isLeast_distance _ _, fun a b c => ⟨distance_comm _ _, ?_,
    distance_triangle _ _ _⟩, ?_, ?_⟩
  · rw [editDistance_eq, distance_eq_zero_iff, String.toList_inj]
  · intro fault operator cause
    have hint : (ofFault fault).hint? = _ := congrArg Cause.hint? cause
    rw [hint]
    exact namesNearest_or fun name => append_ne_of_head? name _ (by decide) (by decide)
  · intro fault token cause
    have hint : (ofFault fault).hint? = _ := congrArg Cause.hint? cause
    rw [hint]
    exact namesNearest_or fun name => append_ne_of_head? name _ (by decide) (by decide)

/-- One letter is missing; the operator is named behind the place where it was met. -/
theorem hints_name_multiply :
    let fault : Fault := .within "add.dectest:3" (.plain (.unknownOperator "multipy"))
    fault.cause = .unknownOperator "multipy" ∧
      (∃ name ∈ Operation.names, editDistance "multipy" name ≤ 3) ∧
      (ofFault fault).hint? = some "Did you mean 'multiply'?" := by
  have near : ∃ name ∈ Operation.names, editDistance "multipy" name ≤ 3 :=
    ⟨"multiply", by decide, by decide +kernel⟩
  have multiply : IsNearest "multipy" Operation.names "multiply" :=
    ⟨by decide, by decide +kernel, by decide +kernel⟩
  obtain ⟨name, nearest, hint⟩ := (hints_name_nearest.2.2.1 (.within "add.dectest:3"
    (.plain (.unknownOperator "multipy"))) "multipy" rfl).nearest near
  rw [nearest.unique multiply] at hint
  exact ⟨rfl, near, hint⟩

end Diagnostic
end DecimalConformance
