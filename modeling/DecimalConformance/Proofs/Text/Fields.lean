import DecimalConformance.Text.Blank

/-! Fields of a text: runs without white space, joined by single blanks, are found again.
Such a text has no white space at its ends. -/
namespace DecimalConformance.Text

/-- A run of characters without white space, one at least. -/
structure IsField (cs : List Char) : Prop where
  ne_nil : cs ≠ []
  isBlank_eq_false : ∀ c ∈ cs, isBlank c = false

instance (cs : List Char) : Decidable (IsField cs) :=
  decidable_of_iff (cs ≠ [] ∧ cs.all (!isBlank ·) = true)
    ⟨fun ⟨filled, all⟩ => ⟨filled, by simpa using all⟩,
      fun ⟨filled, all⟩ => ⟨filled, by simpa using all⟩⟩

private theorem fieldsFrom_append (run : List Char) {front : List Char} (behind : List Char)
    (h : ∀ c ∈ front, isBlank c = false) :
    fieldsFrom run (front ++ behind) = fieldsFrom (front.reverse ++ run) behind := by
  induction front generalizing run with
  | nil => rfl
  | cons c front ih =>
    rw [List.cons_append, fieldsFrom, h c (by simp), if_neg (by simp),
      ih _ fun x hx => h x (by simp [hx]), List.reverse_cons, List.append_assoc]
    rfl

private theorem fieldsFrom_field {field : List Char} (h : IsField field) :
    fieldsFrom [] field = [field] := by
  have scanned := fieldsFrom_append [] [] h.isBlank_eq_false
  rw [List.append_nil, List.append_nil] at scanned
  rw [scanned, fieldsFrom]
  simp [h.ne_nil]

private theorem fieldsFrom_blank {field : List Char} (h : IsField field) (rest : List Char) :
    fieldsFrom [] (field ++ ' ' :: rest) = field :: fieldsFrom [] rest := by
  rw [fieldsFrom_append [] _ h.isBlank_eq_false, List.append_nil, fieldsFrom,
    if_pos (by decide : isBlank ' ' = true)]
  simp [h.ne_nil]

/-- Splitting undoes joining. -/
theorem fieldsFrom_intercalate {fields : List (List Char)} (h : ∀ field ∈ fields, IsField field) :
    fieldsFrom [] ([' '].intercalate fields) = fields := by
  induction fields with
  | nil => rfl
  | cons first rest ih =>
    cases rest with
    | nil =>
      rw [List.intercalate_singleton]
      exact fieldsFrom_field (h first (by simp))
    | cons second rest =>
      rw [List.intercalate_cons_cons, List.append_assoc, List.singleton_append,
        fieldsFrom_blank (h first (by simp)), ih fun field hf => h field (List.mem_cons_of_mem _ hf)]

theorem fields_intercalate {parts : List String} (h : ∀ part ∈ parts, IsField part.toList) :
    fields (" ".intercalate parts) = parts := by
  have blank : " ".toList = [' '] := rfl
  rw [fields, String.toList_intercalate, blank, fieldsFrom_intercalate, List.map_map]
  · exact (List.map_congr_left fun part _ => String.ofList_toList).trans (List.map_id parts)
  · intro field hf
    obtain ⟨part, hp, rfl⟩ := List.mem_map.mp hf
    exact h part hp

/-- Text between two characters that are no white space loses nothing. -/
theorem trimChars_eq_self {first last : Char} (middle : List Char) (hf : isBlank first = false)
    (hl : isBlank last = false) : trimChars (first :: (middle ++ [last])) =
      first :: (middle ++ [last]) := by
  have front : (first :: (middle ++ [last])).dropWhile isBlank = first :: (middle ++ [last]) := by
    rw [List.dropWhile_cons, hf]
    rfl
  have behind : (first :: (middle ++ [last])).reverse = last :: (first :: middle).reverse := by
    simp
  rw [trimChars, front, behind, List.dropWhile_cons, hl, if_neg (by simp), ← behind,
    List.reverse_reverse]

/-- White space at the end is lost. -/
theorem trimChars_append_blank {c : Char} (blank : isBlank c = true) (cs : List Char) :
    trimChars (cs ++ [c]) = trimChars cs := by
  rw [trimChars, trimChars, List.dropWhile_append]
  split
  · rename_i empty
    rw [List.isEmpty_iff.mp empty]
    simp [blank]
  · rw [List.reverse_append, List.reverse_singleton, List.singleton_append, List.dropWhile_cons,
      if_pos blank]

end DecimalConformance.Text
