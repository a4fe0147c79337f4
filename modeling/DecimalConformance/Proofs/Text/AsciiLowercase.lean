import DecimalConformance.Text.Lowercase

/-! Lower-casing of ASCII text: each character maps by itself, as `Char.toLower` maps it. -/
namespace DecimalConformance.Text

private theorem lowerChar_ofNat : ∀ n < 128, lowerChar (Char.ofNat n) = (Char.ofNat n).toLower := by
  decide +kernel

private theorem lowerAt_of_ascii {c : Char} (h : c.toNat < 128) (before behind : List Char) :
    lowerAt before c behind = [c.toLower] := by
  have sigma : c ≠ 'Σ' := by rintro rfl; revert h; decide
  have dotted : c ≠ 'İ' := by rintro rfl; revert h; decide
  have lower := lowerChar_ofNat c.toNat h
  rw [Char.ofNat_toNat] at lower
  rw [lowerAt, if_neg sigma, if_neg dotted, lower]

private theorem lowerFrom_of_ascii (cs before : List Char) (h : ∀ c ∈ cs, c.toNat < 128) :
    lowerFrom before cs = cs.map Char.toLower := by
  induction cs generalizing before with
  | nil => rfl
  | cons c cs ih =>
    rw [lowerFrom, lowerAt_of_ascii (h c (by simp)), ih _ fun x hx => h x (by simp [hx])]
    rfl

/-- In ASCII text the surroundings of a character do not matter. -/
theorem lowercase_ofList_of_ascii {cs : List Char} (h : ∀ c ∈ cs, c.toNat < 128) :
    lowercase (String.ofList cs) = String.ofList (cs.map Char.toLower) := by
  rw [lowercase, String.toList_ofList, lowerFrom_of_ascii cs [] h]

/-- Whether a text is in ASCII. -/
def IsAscii (s : String) : Prop := ∀ c ∈ s.toList, c.toNat < 128

instance (s : String) : Decidable (IsAscii s) :=
  decidable_of_iff (s.toList.all (·.toNat < 128) = true) (by simp [IsAscii])

theorem IsAscii.append {s t : String} (hs : IsAscii s) (ht : IsAscii t) : IsAscii (s ++ t) := by
  intro c hc
  rw [String.toList_append] at hc
  exact (List.mem_append.mp hc).elim (hs c) (ht c)

private theorem IsAscii.toList_lowercase {s : String} (h : IsAscii s) :
    (lowercase s).toList = s.toList.map Char.toLower := by
  have lower := lowercase_ofList_of_ascii h
  rw [String.ofList_toList] at lower
  rw [lower, String.toList_ofList]

/-- Pieces of ASCII text are lower-cased one by one. -/
theorem lowercase_append {s t : String} (hs : IsAscii s) (ht : IsAscii t) :
    lowercase (s ++ t) = lowercase s ++ lowercase t := by
  rw [← String.toList_inj, (hs.append ht).toList_lowercase, String.toList_append, List.map_append,
    String.toList_append, hs.toList_lowercase, ht.toList_lowercase]

theorem IsAscii.intercalate {separator : String} {parts : List String} (hs : IsAscii separator)
    (hp : ∀ part ∈ parts, IsAscii part) : IsAscii (separator.intercalate parts) := by
  induction parts with
  | nil =>
    rw [String.intercalate_nil]
    decide
  | cons first rest ih =>
    cases rest with
    | nil =>
      rw [String.intercalate_singleton]
      exact hp first (by simp)
    | cons second rest =>
      rw [String.intercalate_cons_cons]
      exact ((hp first (by simp)).append hs).append
        (ih fun part h => hp part (List.mem_cons_of_mem _ h))

theorem lowercase_intercalate {separator : String} {parts : List String} (hs : IsAscii separator)
    (hp : ∀ part ∈ parts, IsAscii part) :
    lowercase (separator.intercalate parts) =
      (lowercase separator).intercalate (parts.map lowercase) := by
  induction parts with
  | nil => rfl
  | cons first rest ih =>
    cases rest with
    | nil => simp
    | cons second rest =>
      have front := hp first (by simp)
      have behind : ∀ part ∈ second :: rest, IsAscii part :=
        fun part h => hp part (List.mem_cons_of_mem _ h)
      rw [String.intercalate_cons_cons, lowercase_append (front.append hs) (hs.intercalate behind),
        lowercase_append front hs, ih behind]
      simp only [List.map_cons, String.intercalate_cons_cons]

end DecimalConformance.Text
