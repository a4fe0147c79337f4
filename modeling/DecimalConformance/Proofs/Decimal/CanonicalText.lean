import DecimalConformance.Engine.Standard
import DecimalConformance.Proofs.Decimal.DigitCount
import DecimalConformance.Proofs.Decimal.Spelling
import DecimalConformance.Proofs.Decimal.Storage
import DecimalConformance.Proofs.Text.AsciiLowercase
import Mathlib.Tactic.SplitIfs

/-! The canonical text of a decimal is a literal for it and for no other decimal.
Exponents that saturate are left out: there two decimals may share a text. -/
namespace DecimalConformance.Decimal

/-- Positional notation: digits, with a point before the last of them or without one. -/
def IsPositional (cs : List Char) : Prop :=
  ∃ whole places, whole ≠ [] ∧ (∀ c ∈ whole ++ places, c.isDigit = true) ∧
    cs = whole ++ pointed places

/-! ## The canonical text in parts -/

private theorem isDigit_of_mem_digitsOf {n : Nat} {c : Char} (h : c ∈ digitsOf n) :
    c.isDigit = true := by
  rw [digitsOf_eq_toDigits] at h
  exact Nat.isDigit_of_mem_toDigits (by omega) (by omega) h

private theorem digitsOf_ne_nil (n : Nat) : digitsOf n ≠ [] := by
  rw [digitsOf_eq_toDigits]
  exact Nat.toDigits_ne_nil

/-- Where the canonical text of digits at an exponent has its point and its power of ten. -/
def layout (exponent : Int) (digits : List Char) : Layout :=
  if exponent ≤ 0 ∧ -6 ≤ leadingPlace exponent digits then
    if 0 < digits.length + exponent then
      ⟨digits.take (digits.length + exponent).toNat, digits.drop (digits.length + exponent).toNat,
        none⟩
    else ⟨['0'], List.replicate (-(digits.length + exponent)).toNat '0' ++ digits, none⟩
  else ⟨digits.take 1, digits.drop 1, some (leadingPlace exponent digits)⟩

private theorem layout_whole_ne_nil {digits : List Char} (h : digits ≠ []) (exponent : Int) :
    (layout exponent digits).whole ≠ [] := by
  unfold layout
  split_ifs with plain point
  · have first : ((digits.length : Int) + exponent).toNat ≠ 0 := by omega
    simp [first, h]
  · simp
  · simp [h]

private theorem layout_isDigit {digits : List Char} (h : ∀ c ∈ digits, c.isDigit = true)
    (exponent : Int) :
    ∀ c ∈ (layout exponent digits).whole ++ (layout exponent digits).places, c.isDigit = true := by
  unfold layout
  split_ifs with plain point
  · rwa [List.take_append_drop]
  · intro c hc
    simp only [List.mem_append, List.mem_singleton, List.mem_replicate] at hc
    rcases hc with rfl | ⟨-, rfl⟩ | digit
    · rfl
    · rfl
    · exact h c digit
  · rwa [List.take_append_drop]

/-- The digits of a layout denote the same number as the digits laid out. -/
private theorem ofDigitChars_layout (exponent : Int) (digits : List Char) :
    Nat.ofDigitChars 10 ((layout exponent digits).whole ++ (layout exponent digits).places) 0 =
      Nat.ofDigitChars 10 digits 0 := by
  unfold layout
  split_ifs with plain point
  · rw [List.take_append_drop]
  · simp [Nat.ofDigitChars_append, Nat.ofDigitChars_cons]
  · rw [List.take_append_drop]

/-- Point and power of ten bring the last digit to the exponent, unless the place of the leading
digit is cut off. -/
private theorem layout_exponent {exponent : Int} {digits : List Char} (h : digits ≠ [])
    (inside : ∀ place ∈ (layout exponent digits).power, exponentMin < place ∧ place < exponentMax) :
    (layout exponent digits).power.getD 0 - (layout exponent digits).places.length = exponent := by
  have one := List.length_pos_iff.mpr h
  unfold layout at inside ⊢
  split_ifs at inside ⊢ with plain point
  · simp only [Option.getD_none, List.length_drop]
    omega
  · simp only [Option.getD_none, List.length_append, List.length_replicate]
    omega
  · have place : leadingPlace exponent digits = exponent + (digits.length - 1 : Int) := by
      have := inside _ rfl
      simp only [leadingPlace_def, saturate] at this ⊢
      omega
    simp only [Option.getD_some, List.length_drop, place]
    omega

private theorem layout_chars {digits : List Char} (h : digits ≠ []) (exponent : Int) :
    (layout exponent digits).chars 'E' =
      (unsignedCharsBy pure exponent digits.length digits : Id (List Char)).run := by
  have one := List.length_pos_iff.mpr h
  rw [unsignedCharsBy, Id.run_bind, ← leadingPlace]
  by_cases plain : exponent ≤ 0 ∧ -6 ≤ leadingPlace exponent digits
  · rw [layout, if_pos plain, if_pos plain, positionalBy]
    by_cases point : 0 < (digits.length : Int) + exponent
    · by_cases integer : exponent = 0
      · simp [one, integer, Layout.chars, pointed, powerChars]
      · have places : digits.drop ((digits.length : Int) + exponent).toNat ≠ [] := by
          simp only [ne_eq, List.drop_eq_nil_iff]
          omega
        simp [point, integer, Layout.chars, pointed, powerChars, -List.drop_eq_nil_iff, places]
    · have integer : exponent ≠ 0 := by omega
      simp [point, integer, Layout.chars, pointed, powerChars, h]
  · rw [layout, if_neg plain, if_neg plain]
    by_cases fraction : digits.drop 1 = [] <;>
      simp [scaled, Layout.chars, pointed, powerChars, -List.drop_one, fraction]

/-- The canonical text in parts. -/
def spelling (d : Decimal) : Spelling where
  toLayout := layout d.exponent (digitsOf d.coefficient.natAbs)
  negative := d.coefficient < 0
  whole_ne_nil := layout_whole_ne_nil (digitsOf_ne_nil _) _
  isDigit_of_mem := layout_isDigit (fun _ hc => isDigit_of_mem_digitsOf hc) _

theorem canonicalChars_eq (d : Decimal) : d.canonicalChars = d.spelling.chars 'E' := by
  have body := layout_chars (digitsOf_ne_nil d.coefficient.natAbs) d.exponent
  rw [canonicalChars, canonicalCharsBy, Id.run_bind, ← body]
  by_cases negative : d.coefficient < 0 <;>
    simp [spelling, Spelling.chars, Spelling.mantissaChars, negative, Layout.chars]

/-- The digits of the canonical text and its sign make up the coefficient. -/
theorem coefficient_spelling (d : Decimal) : d.spelling.coefficient = d.coefficient := by
  have magnitude : d.spelling.magnitude = d.coefficient.natAbs := by
    rw [Spelling.magnitude, spelling, ofDigitChars_layout, digitsOf_eq_toDigits,
      Nat.ofDigitChars_ten_toDigits]
  rw [Spelling.coefficient, magnitude]
  by_cases negative : d.coefficient < 0
  · simp only [spelling, negative, decide_true, if_true]
    omega
  · simp only [spelling, negative, decide_false, Bool.false_eq_true, if_false]
    omega

theorem exponent_spelling {d : Decimal}
    (inside : ∀ place ∈ d.spelling.power, exponentMin < place ∧ place < exponentMax) :
    d.spelling.exponent = d.exponent :=
  layout_exponent (digitsOf_ne_nil _) inside

/-- The place of the leading digit, where nothing saturates. -/
theorem leadingPlace_eq {d : Decimal} (fits : d.PlacesFit) :
    leadingPlace d.exponent (digitsOf d.coefficient.natAbs) = d.exponent + d.digits - 1 := by
  obtain ⟨lowest, leading⟩ := fits
  have := d.digits_pos
  simp only [leadingPlace_def, saturate, length_digitsOf]
  simp only [digits] at *
  omega

private theorem power_mem_spelling {d : Decimal} {place : Int} (h : place ∈ d.spelling.power) :
    place = leadingPlace d.exponent (digitsOf d.coefficient.natAbs) := by
  simp only [spelling, layout] at h
  split_ifs at h <;> simp_all

private theorem PlacesFit.inside {d : Decimal} (fits : d.PlacesFit) :
    ∀ place ∈ d.spelling.power, exponentMin < place ∧ place < exponentMax := by
  intro place h
  have := d.digits_pos
  have := fits.lowest
  have := fits.leading
  rw [power_mem_spelling h, leadingPlace_eq fits]
  omega

/-- A written power of ten is never too long to be read. -/
private theorem natAbs_power_le (d : Decimal) :
    (d.spelling.power.getD 0).natAbs ≤ writtenExponentMax := by
  have bound : (9223372036854775808 : Nat) ≤ writtenExponentMax := by decide
  cases h : d.spelling.power with
  | none => simp
  | some place =>
    have := power_mem_spelling h
    simp only [leadingPlace_def, saturate, exponentMin, exponentMax] at this
    simp only [Option.getD_some]
    omega

/-! ## Reading the canonical text -/

private theorem ofLiteral_spelling_eq {d : Decimal} (scale : ExponentFits (-d.spelling.exponent))
    {mark : Char} (hm : mark = 'e' ∨ mark = 'E') :
    ofLiteral (String.ofList (d.spelling.chars mark)) =
      .ok ⟨d.coefficient, min exponentMax d.spelling.exponent⟩ := by
  rw [Spelling.ofLiteral_chars _ hm, Spelling.readNumber_chars _ hm (natAbs_power_le d) scale,
    coefficient_spelling]

/-- The canonical text is read back, in either case. -/
theorem ofLiteral_spelling {d : Decimal} (fits : d.PlacesFit) {mark : Char}
    (hm : mark = 'e' ∨ mark = 'E') : ofLiteral (String.ofList (d.spelling.chars mark)) = .ok d := by
  have exponent := exponent_spelling fits.inside
  obtain ⟨lowest, leading⟩ := fits
  have single := d.digits_pos
  have scale : ExponentFits (-d.spelling.exponent) := by
    simp only [ExponentFits, exponent, exponentMin, exponentMax] at *
    omega
  have within : min exponentMax d.exponent = d.exponent := by omega
  rw [ofLiteral_spelling_eq scale hm, exponent, within]

/-- A leading digit above all places is written at the largest one. -/
private theorem exponent_spelling_of_le_lead {d : Decimal}
    (lead : exponentMax ≤ d.exponent + d.digits - 1) (short : d.digits ≤ exponentMax) :
    d.spelling.exponent = exponentMax - (d.digits - 1) := by
  have count : (digitsOf d.coefficient.natAbs).length = d.digits := length_digitsOf _
  have single := d.digits_pos
  have place : leadingPlace d.exponent (digitsOf d.coefficient.natAbs) = exponentMax := by
    simp only [leadingPlace_def, saturate, count, exponentMin, exponentMax] at *
    omega
  have scaled : ¬ (d.exponent ≤ 0 ∧ -6 ≤ leadingPlace d.exponent (digitsOf d.coefficient.natAbs)) := by
    omega
  have parts : d.spelling.toLayout = ⟨(digitsOf d.coefficient.natAbs).take 1,
      (digitsOf d.coefficient.natAbs).drop 1, some exponentMax⟩ := by
    rw [← place]
    exact if_neg scaled
  rw [Spelling.exponent, parts, Option.getD_some, List.length_drop, count]
  omega

theorem lowercase_canonical (d : Decimal) :
    Text.lowercase d.canonical = String.ofList (d.spelling.chars 'e') := by
  rw [canonical, canonicalChars_eq,
    Text.lowercase_ofList_of_ascii fun c hc => (Spelling.isAscii_of_mem_chars (.inr rfl) hc).1,
    Spelling.map_toLower_chars]

/-- In lower case the canonical text is read like any literal, rounded to the precision of
reading. -/
theorem readLiteral_lowercase_canonical {d : Decimal} (fits : d.PlacesFit) (precision : Nat) :
    Engine.readLiteral (Text.lowercase d.canonical) precision =
      .ok (d.round precision .nearestEven).stored := by
  rw [lowercase_canonical, Engine.readLiteral, ofLiteral_spelling fits (.inl rfl)]

/-- Where the leading digit would have a place above all others, the text is read at a smaller exponent. -/
theorem readLiteral_lowercase_canonical_of_le_lead {d : Decimal}
    (lead : exponentMax ≤ d.exponent + d.digits - 1) (short : d.digits ≤ exponentMax)
    (precision : Nat) :
    Engine.readLiteral (Text.lowercase d.canonical) precision =
      .ok ((⟨d.coefficient, exponentMax - (d.digits - 1)⟩ : Decimal).round precision
        .nearestEven).stored := by
  have exponent := exponent_spelling_of_le_lead lead short
  have single := d.digits_pos
  have scale : ExponentFits (-d.spelling.exponent) := by
    simp only [ExponentFits, exponent, exponentMin, exponentMax] at *
    omega
  have within : min exponentMax d.spelling.exponent = exponentMax - (d.digits - 1) := by omega
  rw [lowercase_canonical, Engine.readLiteral, ofLiteral_spelling_eq scale (.inl rfl), within]

theorem readLiteral_canonical {d : Decimal} (fits : d.PlacesFit) (precision : Nat) :
    Engine.readLiteral d.canonical precision = .ok (d.round precision .nearestEven).stored := by
  rw [canonical, canonicalChars_eq, Engine.readLiteral, ofLiteral_spelling fits (.inr rfl)]

/-- Whatever the exponents, a text determines the coefficient. -/
theorem coefficient_eq_of_canonical_eq {d other : Decimal} (h : other.canonical = d.canonical) :
    other.coefficient = d.coefficient := by
  rw [canonical, canonical, String.ofList_inj, canonicalChars_eq, canonicalChars_eq] at h
  rw [← coefficient_spelling other, ← coefficient_spelling d]
  exact (Spelling.eq_parts_of_chars_eq h (natAbs_power_le _) (natAbs_power_le _)).1

/-- The text of a decimal whose places fit is the text of no other decimal. -/
theorem eq_of_canonical_eq {d other : Decimal} (fits : d.PlacesFit)
    (h : other.canonical = d.canonical) : other = d := by
  rw [canonical, canonical, String.ofList_inj, canonicalChars_eq, canonicalChars_eq] at h
  obtain ⟨coefficient, places, power⟩ :=
    Spelling.eq_parts_of_chars_eq h (natAbs_power_le _) (natAbs_power_le _)
  rw [coefficient_spelling, coefficient_spelling] at coefficient
  have exponent : other.spelling.exponent = d.spelling.exponent := by
    simp only [Spelling.exponent, places, power]
  have inside := fits.inside
  rw [exponent_spelling inside, exponent_spelling (by rwa [power])] at exponent
  cases d
  cases other
  exact congrArg₂ Decimal.mk coefficient exponent

/-! ## Notation -/

private theorem canonicalChars_eq_body (d : Decimal) : d.canonicalChars =
    if d.coefficient < 0 then '-' :: d.spelling.toLayout.chars 'E'
    else d.spelling.toLayout.chars 'E' := by
  rw [canonicalChars_eq]
  by_cases negative : d.coefficient < 0 <;>
    simp [Spelling.chars, Spelling.mantissaChars, Layout.chars, spelling, negative]

private theorem not_isPositional_of_mark {cs : List Char} (h : 'E' ∈ cs) : ¬ IsPositional cs := by
  rintro ⟨whole, places, -, digits, rfl⟩
  have digit : 'E' ∈ whole ++ places := by
    rcases List.mem_append.mp h with front | behind
    · exact List.mem_append_left _ front
    · unfold pointed at behind
      split at behind
      · cases behind
      · exact List.mem_append_right _ (by simpa using behind)
  exact absurd (digits 'E' digit) (by decide)

private theorem isPositional_body_iff (d : Decimal) :
    IsPositional (d.spelling.toLayout.chars 'E') ↔
      d.exponent ≤ 0 ∧ -6 ≤ leadingPlace d.exponent (digitsOf d.coefficient.natAbs) := by
  constructor
  · intro positional
    by_contra scaled
    refine not_isPositional_of_mark ?_ positional
    simp [spelling, layout, if_neg scaled, Layout.chars, powerChars]
  · intro plain
    have power : d.spelling.power = none := by
      simp only [spelling, layout, if_pos plain]
      split <;> rfl
    refine ⟨d.spelling.whole, d.spelling.places, d.spelling.whole_ne_nil,
      d.spelling.isDigit_of_mem, ?_⟩
    simp [Layout.chars, power, powerChars]

private theorem body_of_scaled {d : Decimal}
    (h : ¬ (d.exponent ≤ 0 ∧ -6 ≤ leadingPlace d.exponent (digitsOf d.coefficient.natAbs))) :
    ∃ lead fraction, Nat.toDigits 10 d.coefficient.natAbs = lead :: fraction ∧
      d.spelling.toLayout.chars 'E' = lead :: (pointed fraction ++
        powerChars 'E' (some (leadingPlace d.exponent (digitsOf d.coefficient.natAbs)))) := by
  rw [← digitsOf_eq_toDigits]
  obtain ⟨lead, fraction, digits⟩ := List.exists_cons_of_ne_nil (digitsOf_ne_nil d.coefficient.natAbs)
  refine ⟨lead, fraction, digits, ?_⟩
  simp only [spelling, layout, if_neg h, Layout.chars]
  simp [digits]

/-- Rendering and reading are inverse, also through lower case, so that no text stands for two
decimals.  The text is positional exactly where the exponent is not positive and the leading digit
stands at the sixth place or above; otherwise it ends in the place of the leading digit. -/
theorem parse_render (internal : Nat) {d : Decimal} (fits : d.PlacesFit) :
    (Engine.standard internal).parse ((Engine.standard internal).render d) 0 = .ok d ∧
    (Engine.standard internal).parse (Text.lowercase ((Engine.standard internal).render d)) 0 =
      .ok d ∧
    (∀ other, (Engine.standard internal).render other = (Engine.standard internal).render d →
      other = d) ∧
    ∃ body, ((Engine.standard internal).render d).toList =
        (if d.coefficient < 0 then '-' :: body else body) ∧
      (IsPositional body ↔ d.exponent ≤ 0 ∧ -6 ≤ d.exponent + d.digits - 1) ∧
      (¬ (d.exponent ≤ 0 ∧ -6 ≤ d.exponent + d.digits - 1) →
        ∃ lead fraction, Nat.toDigits 10 d.coefficient.natAbs = lead :: fraction ∧
          body = lead :: (pointed fraction ++
            powerChars 'E' (some (d.exponent + d.digits - 1)))) := by
  simp only [Engine.standard_parse, Engine.standard_render]
  refine ⟨?_, ?_, fun other h => eq_of_canonical_eq fits h, d.spelling.toLayout.chars 'E', ?_, ?_, ?_⟩
  · rw [readLiteral_canonical fits, round_zero, stored_eq_of_placesFit fits]
  · rw [readLiteral_lowercase_canonical fits, round_zero, stored_eq_of_placesFit fits]
  · rw [canonical, String.toList_ofList]
    exact canonicalChars_eq_body d
  · rw [← leadingPlace_eq fits]
    exact isPositional_body_iff d
  · rw [← leadingPlace_eq fits]
    exact body_of_scaled

/-- A coefficient with a trailing zero, below the sixth place. -/
theorem parse_render_scaled :
    (⟨-120, -9⟩ : Decimal).PlacesFit ∧
    (Engine.standard 34).parse "-1.20E-7" 0 = .ok ⟨-120, -9⟩ ∧
    (Engine.standard 34).parse "-1.20e-7" 0 = .ok ⟨-120, -9⟩ := by
  have fits : (⟨-120, -9⟩ : Decimal).PlacesFit := ⟨by decide, by decide⟩
  have text : (Engine.standard 34).render ⟨-120, -9⟩ = "-1.20E-7" := by decide
  have lowered : Text.lowercase "-1.20E-7" = "-1.20e-7" := by decide
  obtain ⟨upper, lower, -⟩ := parse_render 34 fits
  rw [text] at upper
  rw [text, lowered] at lower
  exact ⟨fits, upper, lower⟩

end DecimalConformance.Decimal
