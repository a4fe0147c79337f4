import DecimalConformance.Script.TestLine
import Mathlib.Tactic.SplitIfs

/-! The layout of test lines.
Fields are laid out in one of three ways, and a line is a test exactly if its fields are laid out
in a way of its dialect. -/
namespace DecimalConformance.Script

/-- The ways to lay out a test, and what each of them says. -/
inductive LaidOut : Dialect → List String → TestCase → Prop where
  | unary {name operator left expected : String} {behind : List String} :
    LaidOut .varying (name :: operator :: left :: arrow :: expected :: behind)
      ⟨name, operator, [decode left], decode expected⟩
  | binary {name operator left right expected : String} {behind : List String}
    (operand : right ≠ arrow) :
    LaidOut .varying (name :: operator :: left :: right :: arrow :: expected :: behind)
      ⟨name, operator, [decode left, decode right], decode expected⟩
  /-- What stands before the expected value does not matter. -/
  | fixed {name operator left right mark expected : String} {behind : List String} :
    LaidOut .fixed (name :: operator :: left :: right :: mark :: expected :: behind)
      ⟨name, operator, [decode left, decode right], decode expected⟩

private theorem exists_five {fields : List String} (enough : 5 ≤ fields.length) :
    ∃ name operator left fourth fifth behind,
      fields = name :: operator :: left :: fourth :: fifth :: behind := by
  match fields, enough with
  | name :: operator :: left :: fourth :: fifth :: behind, _ => exact ⟨_, _, _, _, _, _, rfl⟩

theorem exists_laidOut_varying_iff {fields : List String} :
    (∃ testCase, LaidOut .varying fields testCase) ↔
      fields[3]? = some arrow ∧ 5 ≤ fields.length ∨
        fields[3]? ≠ some arrow ∧ fields[4]? = some arrow ∧ 6 ≤ fields.length := by
  constructor
  · rintro ⟨testCase, laid⟩
    cases laid with
    | unary => simp
    | binary operand => simp [operand]
  · rintro (⟨mark, enough⟩ | ⟨operand, mark, enough⟩)
    · obtain ⟨name, operator, left, fourth, expected, behind, rfl⟩ := exists_five enough
      obtain rfl : fourth = arrow := by simpa using mark
      exact ⟨_, .unary⟩
    · obtain ⟨name, operator, left, right, fifth, behind, rfl⟩ :=
        exists_five (Nat.le_of_succ_le enough)
      obtain rfl : fifth = arrow := by simpa using mark
      cases behind with
      | nil => simp at enough
      | cons expected behind => exact ⟨_, .binary (by simpa using operand)⟩

theorem exists_laidOut_fixed_iff {fields : List String} :
    (∃ testCase, LaidOut .fixed fields testCase) ↔ 6 ≤ fields.length := by
  constructor
  · rintro ⟨testCase, laid⟩
    cases laid with
    | fixed => simp
  · intro enough
    obtain ⟨name, operator, left, right, mark, behind, rfl⟩ :=
      exists_five (Nat.le_of_succ_le enough)
    cases behind with
    | nil => simp at enough
    | cons expected behind => exact ⟨_, .fixed⟩

namespace TestLine

variable {dialect : Dialect} {text : String}

/-- Splits a text and decodes the fields. -/
def read (dialect : Dialect) (text : String) : Except Fault TestCase :=
  split dialect text >>= toCase

theorem eq_of_split {line : TestLine} (done : split dialect text = .ok line) :
    line.text = text ∧ line.dialect = dialect ∧
      Text.fields text = line.name :: line.operator :: line.leftField :: line.rest ∧
      dialect.minFields ≤ (Text.fields text).length := by
  unfold split at done
  dsimp only at done
  split_ifs at done with short
  split at done
  · next fields =>
    obtain rfl := Except.ok.inj done
    exact ⟨rfl, rfl, fields, Nat.le_of_not_lt short⟩
  · cases done

theorem read_of_short (short : (Text.fields text).length < dialect.minFields) :
    read dialect text = .error (malformed text
      s!"expected at least {dialect.minFields} fields, found {(Text.fields text).length}") := by
  rw [read, split, if_pos short]
  rfl

theorem read_of_enough {name operator leftField : String} {rest : List String}
    (fields : Text.fields text = name :: operator :: leftField :: rest)
    (enough : dialect.minFields ≤ (Text.fields text).length) :
    read dialect text = toCase ⟨text, dialect, name, operator, leftField, rest⟩ := by
  rw [read, split, if_neg (Nat.not_lt.mpr enough), fields]
  rfl

private theorem toCase_of_layout {line : TestLine} {others : List String} {expected : String}
    (layout : line.layout = .ok (others, expected)) :
    line.toCase = .ok ⟨line.name, line.operator, (line.leftField :: others).map decode,
      decode expected⟩ := by
  rw [toCase, layout]
  rfl

private theorem toCase_of_layout_error {line : TestLine} {fault : Fault}
    (layout : line.layout = .error fault) : line.toCase = .error fault := by
  rw [toCase, layout]
  rfl

section Layout

variable {name operator leftField fourth fifth expected : String} {behind : List String}

private theorem layout_unary :
    layout ⟨text, .varying, name, operator, leftField, arrow :: expected :: behind⟩ =
      .ok ([], expected) := by
  simp [layout, arity]

private theorem layout_binary (operand : fourth ≠ arrow) :
    layout ⟨text, .varying, name, operator, leftField, fourth :: arrow :: expected :: behind⟩ =
      .ok ([fourth], expected) := by
  simp [layout, arity, operand]

private theorem layout_five (operand : fourth ≠ arrow) :
    layout ⟨text, .varying, name, operator, leftField, [fourth, fifth]⟩ =
      .error (malformed text s!"expected '{arrow}' as field {4}") := by
  simp [layout, arity, operand]

private theorem layout_unmarked (operand : fourth ≠ arrow) (unmarked : fifth ≠ arrow) :
    layout ⟨text, .varying, name, operator, leftField, fourth :: fifth :: expected :: behind⟩ =
      .error (malformed text s!"expected '{arrow}' as field {5}") := by
  simp [layout, arity, operand, unmarked]

end Layout

theorem read_of_laidOut {testCase : TestCase} (laid : LaidOut dialect (Text.fields text) testCase) :
    read dialect text = .ok testCase := by
  generalize fields : Text.fields text = all at laid
  cases laid with
  | unary =>
    rw [read_of_enough fields (by simp [fields, Dialect.minFields]), toCase_of_layout layout_unary]
    rfl
  | binary operand =>
    rw [read_of_enough fields (by simp [fields, Dialect.minFields]),
      toCase_of_layout (layout_binary operand)]
    rfl
  | fixed =>
    rw [read_of_enough fields (by simp [fields, Dialect.minFields])]
    rfl

private theorem tooShort_ne (least found : Nat) :
    s!"expected at least {least} fields, found {found}" ≠ "missing expected value" := by
  intro same
  have chars := congrArg (·.toList.head?) same
  simp [toString] at chars

/-- No line is refused for the lack of an expected value. -/
theorem laidOut_or_error (dialect : Dialect) (text : String) :
    (∃ testCase, LaidOut dialect (Text.fields text) testCase) ∨
      ∃ reason, read dialect text = .error (malformed text reason) ∧
        reason ≠ "missing expected value" := by
  rcases Nat.lt_or_ge (Text.fields text).length dialect.minFields with short | enough
  · exact .inr ⟨_, read_of_short short, tooShort_ne _ _⟩
  cases dialect with
  | fixed => exact .inl (exists_laidOut_fixed_iff.mpr enough)
  | varying =>
    obtain ⟨name, operator, left, fourth, fifth, behind, fields⟩ := exists_five enough
    by_cases mark : fourth = arrow
    · subst mark
      rw [fields]
      exact .inl ⟨_, .unary⟩
    cases behind with
    | nil =>
      refine .inr ⟨s!"expected '{arrow}' as field {4}", ?_, by decide⟩
      rw [read_of_enough fields enough, toCase_of_layout_error (layout_five mark)]
    | cons expected behind =>
      by_cases last : fifth = arrow
      · subst last
        rw [fields]
        exact .inl ⟨_, .binary mark⟩
      · refine .inr ⟨s!"expected '{arrow}' as field {5}", ?_, by decide⟩
        rw [read_of_enough fields enough, toCase_of_layout_error (layout_unmarked mark last)]

theorem read_eq_ok_iff {testCase : TestCase} :
    read dialect text = .ok testCase ↔ LaidOut dialect (Text.fields text) testCase := by
  constructor
  · intro done
    rcases laidOut_or_error dialect text with ⟨other, laid⟩ | ⟨reason, refused, -⟩
    · obtain rfl := Except.ok.inj ((read_of_laidOut laid).symm.trans done)
      exact laid
    · rw [refused] at done
      cases done
  · exact read_of_laidOut

theorem eq_malformed_of_read {fault : Fault} (refused : read dialect text = .error fault) :
    ∃ reason, fault = malformed text reason ∧ reason ≠ "missing expected value" := by
  rcases laidOut_or_error dialect text with ⟨testCase, laid⟩ | ⟨reason, same, other⟩
  · rw [read_of_laidOut laid] at refused
    cases refused
  · exact ⟨reason, Except.error.inj (refused.symm.trans same), other⟩

/-- Every field that the number of operands calls for is there. -/
theorem fields_of_split {line : TestLine} (done : split dialect text = .ok line) :
    Text.fields text = line.name :: line.operator :: line.leftField :: line.rest ∧
      3 < (Text.fields text).length ∧ line.arity + 2 ≤ (Text.fields text).length := by
  obtain ⟨-, rfl, fields, enough⟩ := eq_of_split done
  have least : 5 ≤ line.dialect.minFields := by cases line.dialect <;> decide
  have arity : line.arity ≤ 2 := by
    unfold TestLine.arity
    split
    · exact Nat.le_refl 2
    · split_ifs <;> decide
  exact ⟨fields, by omega, by omega⟩

theorem read_varying_eq_read_fixed (operand : (Text.fields text)[3]? ≠ some arrow)
    (mark : (Text.fields text)[4]? = some arrow) (enough : 6 ≤ (Text.fields text).length) :
    ∃ testCase, read .varying text = .ok testCase ∧ read .fixed text = .ok testCase := by
  obtain ⟨testCase, laid⟩ := exists_laidOut_varying_iff.mpr (.inr ⟨operand, mark, enough⟩)
  refine ⟨testCase, read_of_laidOut laid, read_of_laidOut ?_⟩
  generalize Text.fields text = fields at laid operand
  cases laid with
  | unary => simp at operand
  | binary => exact .fixed

/-- A line is read as a test exactly if its fields are laid out as its dialect wants it, and it says
what the layout says.  Any other line is malformed, and never for the lack of an expected value.  No
field is asked for that is not there, and dialects that both read a line with two operands agree. -/
theorem layout_decides (text : String) :
    let fields := Text.fields text
    (∀ dialect testCase,
      read dialect text = .ok testCase ↔ LaidOut dialect fields testCase) ∧
    ((∃ testCase, read .varying text = .ok testCase) ↔
      fields[3]? = some arrow ∧ 5 ≤ fields.length ∨
        fields[3]? ≠ some arrow ∧ fields[4]? = some arrow ∧ 6 ≤ fields.length) ∧
    ((∃ testCase, read .fixed text = .ok testCase) ↔ 6 ≤ fields.length) ∧
    (∀ dialect fault, read dialect text = .error fault →
      ∃ reason, fault = malformed text reason ∧ reason ≠ "missing expected value") ∧
    (∀ dialect line, split dialect text = .ok line →
      fields = line.name :: line.operator :: line.leftField :: line.rest ∧
        3 < fields.length ∧ line.arity + 2 ≤ fields.length) ∧
    (fields[3]? ≠ some arrow → fields[4]? = some arrow → 6 ≤ fields.length →
      ∃ testCase, read .varying text = .ok testCase ∧ read .fixed text = .ok testCase) := by
  intro fields
  refine ⟨fun dialect testCase => read_eq_ok_iff, ?_, ?_, fun dialect fault => eq_malformed_of_read,
    fun dialect line => fields_of_split, read_varying_eq_read_fixed⟩
  · simp only [read_eq_ok_iff]
    exact exists_laidOut_varying_iff
  · simp only [read_eq_ok_iff]
    exact exists_laidOut_fixed_iff

/-- A line with two operands says the same in both dialects, and one without an arrow is refused by the
dialect that looks for it. -/
theorem layout_decides_sum :
    read .varying "t add 1 2 -> 3 inexact" =
      .ok ⟨"t", "add", [.literal "1", .literal "2"], .literal "3"⟩ ∧
    (∃ testCase, read .varying "t add 1 2 -> 3 inexact" = .ok testCase ∧
      read .fixed "t add 1 2 -> 3 inexact" = .ok testCase) ∧
    (∃ reason, read .varying "t add 1 2 3 4" = .error (malformed "t add 1 2 3 4" reason) ∧
      reason ≠ "missing expected value") := by
  obtain ⟨laid, -, -, -, -, both⟩ := layout_decides "t add 1 2 -> 3 inexact"
  obtain ⟨-, readable, -, refused, -⟩ := layout_decides "t add 1 2 3 4"
  refine ⟨(laid .varying _).mpr (.binary (by decide)), both (by decide) (by decide) (by decide), ?_⟩
  cases answer : read .varying "t add 1 2 3 4" with
  | ok testCase => exact absurd (readable.mp ⟨testCase, answer⟩) (by decide)
  | error fault =>
    obtain ⟨reason, rfl, other⟩ := refused .varying fault answer
    exact ⟨reason, rfl, other⟩

/-- An arrow in the place of the only operand is taken for one. -/
example : read .varying "t abs -> -> 3 inexact" =
    .ok ⟨"t", "abs", [.literal "->"], .literal "3"⟩ := by
  rfl

end TestLine
end DecimalConformance.Script
