import DecimalConformance.Evaluation
import DecimalConformance.Proofs.Text.AsciiLowercase
import DecimalConformance.Proofs.Text.Fields
import DecimalConformance.Script.Line

/-! Test lines with two operands in quotes, from the raw text to the problem that is solved.
Both dialects read such a line alike. -/
namespace DecimalConformance.Script

/-- A literal in quotes. -/
def quote (literal : String) : String := "'" ++ literal ++ "'"

/-- A test line with two operands and an expected value in quotes. -/
def quotedLine (operator left right expected : String) : String :=
  " ".intercalate ["t", operator, quote left, quote right, arrow, quote expected]

/-- A text that stays a literal between quotes. -/
structure Quotable (literal : String) : Prop where
  isAscii : Text.IsAscii literal
  isBlank_eq_false : ∀ c ∈ literal.toList, Text.isBlank c = false
  ne_forcedSkip : literal ≠ "#"
  ne_unconstrained : literal ≠ "?"

private theorem toList_quote (literal : String) :
    (quote literal).toList = '\'' :: (literal.toList ++ ['\'']) := by
  simp [quote]

private theorem Quotable.isAscii_quote {literal : String} (h : Quotable literal) :
    Text.IsAscii (quote literal) := by
  have mark : Text.IsAscii "'" := by decide
  exact (mark.append h.isAscii).append mark

private theorem Quotable.isField_quote {literal : String} (h : Quotable literal) :
    Text.IsField (quote literal).toList := by
  rw [toList_quote]
  refine ⟨List.cons_ne_nil _ _, fun c hc => ?_⟩
  simp only [List.mem_cons, List.mem_append, List.not_mem_nil, or_false] at hc
  rcases hc with rfl | inside | rfl
  · decide
  · exact h.isBlank_eq_false c inside
  · decide

private theorem lowercase_quote {literal : String} (h : Text.IsAscii literal) :
    Text.lowercase (quote literal) = quote (Text.lowercase literal) := by
  have mark : Text.IsAscii "'" := by decide
  have lower : Text.lowercase "'" = "'" := by decide
  rw [quote, Text.lowercase_append (mark.append h) mark, Text.lowercase_append mark h, lower, quote]

/-- Between quotes stands the literal. -/
theorem decode_quote {literal : String} (h : Quotable literal) :
    decode (quote literal) = .literal literal := by
  have stripped : stripQuotes (quote literal) = literal := by
    simp [stripQuotes, toList_quote, unquoted?, String.ofList_toList]
  unfold decode
  rw [stripped]
  split
  · exact absurd rfl h.ne_forcedSkip
  · exact absurd rfl h.ne_unconstrained
  · rfl

private theorem quotedLine_ends (operator left right expected : String) :
    ∃ middle, (quotedLine operator left right expected).toList = 't' :: (middle ++ ['\'']) := by
  refine ⟨' ' :: (operator.toList ++ ' ' :: ((quote left).toList ++ ' ' :: ((quote right).toList ++
    ' ' :: '-' :: '>' :: ' ' :: '\'' :: expected.toList))), ?_⟩
  simp [quotedLine, toList_quote, arrow]

/-- Normalizing such a line means lower-casing its parts. -/
theorem normalize_quotedLine {operator left right expected : String}
    (ascii : Text.IsAscii operator) (hl : Quotable left) (hr : Quotable right)
    (he : Quotable expected) :
    normalize (quotedLine operator left right expected) =
      quotedLine (Text.lowercase operator) (Text.lowercase left) (Text.lowercase right)
        (Text.lowercase expected) := by
  obtain ⟨middle, ends⟩ := quotedLine_ends operator left right expected
  have trimmed : Text.trim (quotedLine operator left right expected) =
      quotedLine operator left right expected := by
    rw [Text.trim, ends, Text.trimChars_eq_self middle (by decide) (by decide), ← ends,
      String.ofList_toList]
  have parts : ∀ part ∈ ["t", operator, quote left, quote right, arrow, quote expected],
      Text.IsAscii part := by
    simp only [List.forall_mem_cons]
    exact ⟨by decide, ascii, hl.isAscii_quote, hr.isAscii_quote, by decide, he.isAscii_quote,
      by simp⟩
  have name : Text.lowercase "t" = "t" := by decide
  have blank : Text.lowercase " " = " " := by decide
  have mark : Text.lowercase arrow = arrow := by decide
  rw [normalize, trimmed, quotedLine, Text.lowercase_intercalate (by decide) parts]
  simp only [List.map_cons, List.map_nil, name, blank, mark, lowercase_quote hl.isAscii,
    lowercase_quote hr.isAscii, lowercase_quote he.isAscii, quotedLine]

example : normalize (quotedLine "add" "1E+2" "1" "101") = "t add '1e+2' '1' -> '101'" := by decide

/-- The name of the test is no keyword. -/
theorem classify_quotedLine (operator left right expected : String) :
    classify (quotedLine operator left right expected) =
      .test (quotedLine operator left right expected) := by
  obtain ⟨middle, ends⟩ := quotedLine_ends operator left right expected
  generalize quotedLine operator left right expected = line at ends ⊢
  have filled : line.isEmpty = false := by
    refine Bool.eq_false_iff.mpr fun empty => ?_
    rw [String.isEmpty_iff.mp empty] at ends
    cases ends
  have other : ∀ head ∈ ["--", "version", "extended", "maxexponent", "minexponent", "precision",
      "rounding"], Text.startsWith head line = false := by
    simp [Text.startsWith, Text.after?, ends, Text.dropHead?]
  simp only [List.forall_mem_cons] at other
  simp [classify, filled, ignoredKeywords, other]

private theorem fields_quotedLine {operator left right expected : String}
    (ho : Text.IsField operator.toList) (hl : Quotable left) (hr : Quotable right)
    (he : Quotable expected) : Text.fields (quotedLine operator left right expected) =
      ["t", operator, quote left, quote right, arrow, quote expected] := by
  refine Text.fields_intercalate ?_
  simp only [List.forall_mem_cons]
  exact ⟨by decide, ho, hl.isField_quote, hr.isField_quote, by decide, he.isField_quote, by simp⟩

private theorem quote_ne_arrow (literal : String) : quote literal ≠ arrow := by
  intro same
  have chars := congrArg String.toList same
  rw [toList_quote] at chars
  cases chars

private theorem split_quotedLine {operator left right expected : String}
    (ho : Text.IsField operator.toList) (hl : Quotable left) (hr : Quotable right)
    (he : Quotable expected) (dialect : Dialect) :
    TestLine.split dialect (quotedLine operator left right expected) =
      .ok ⟨quotedLine operator left right expected, dialect, "t", operator, quote left,
        [quote right, arrow, quote expected]⟩ := by
  cases dialect <;> simp [TestLine.split, fields_quotedLine ho hl hr he, Dialect.minFields]

private theorem toCase_quotedLine {left right expected : String} (hl : Quotable left)
    (hr : Quotable right) (he : Quotable expected) (text operator : String) (dialect : Dialect) :
    TestLine.toCase ⟨text, dialect, "t", operator, quote left, [quote right, arrow, quote expected]⟩ =
      .ok ⟨"t", operator, [.literal left, .literal right], .literal expected⟩ := by
  have layout : TestLine.layout
      ⟨text, dialect, "t", operator, quote left, [quote right, arrow, quote expected]⟩ =
      .ok ([quote right], quote expected) := by
    cases dialect <;> simp [TestLine.layout, TestLine.arity, quote_ne_arrow right]
  simp [TestLine.toCase, layout, bind, Except.bind, pure, Except.pure, decode_quote hl,
    decode_quote hr, decode_quote he]

private theorem ofCase_binary (dialect : Dialect) (operation : BinaryOp)
    (left right expected : String) :
    Plan.ofCase dialect ⟨"t", Operation.name (.binary operation), [.literal left, .literal right],
        .literal expected⟩ =
      .ok (.solve ⟨"t", .binary operation, [left, right], expected⟩) := by
  have arity : Operation.arity (.binary operation) = 2 := rfl
  simp [Plan.ofCase, Token.isSentinel, Token.literal?, Operation.ofName?_name, arity]

/-- In either dialect such a line poses the problem that it spells out. -/
theorem ofLine_quotedLine {session : Session} {operation : BinaryOp} {left right expected : String}
    (active : session.skipping = false) (dialect : Dialect) (hl : Quotable left)
    (hr : Quotable right) (he : Quotable expected) :
    Plan.ofLine dialect session
        (quotedLine (Operation.name (.binary operation)) left right expected) =
      .ok (.solve ⟨"t", .binary operation, [left, right], expected⟩) := by
  have ho : Text.IsField (Operation.name (.binary operation)).toList := by
    cases operation <;> decide
  have sentinel : TestLine.left ⟨quotedLine (Operation.name (.binary operation)) left right expected,
      dialect, "t", Operation.name (.binary operation), quote left,
      [quote right, arrow, quote expected]⟩ = .literal left := decode_quote hl
  simp only [Plan.ofLine, active, Bool.false_eq_true, if_false, split_quotedLine ho hl hr he, bind,
    Except.bind, sentinel, Token.isSentinel, toCase_quotedLine hl hr he, ofCase_binary]

end DecimalConformance.Script
