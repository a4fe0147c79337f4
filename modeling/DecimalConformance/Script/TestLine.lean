import DecimalConformance.Dialect
import DecimalConformance.Script.Token

/-! Test lines: a name, an operator, operands and an expected value in fields.
Fields behind the expected value carry no meaning. -/
namespace DecimalConformance.Script

/-- A test line with enough fields for its dialect, the operands not yet told apart. -/
structure TestLine where
  text : String
  dialect : Dialect
  name : String
  operator : String
  leftField : String
  /-- The fields behind the left operand. -/
  rest : List String
  deriving DecidableEq, Repr

/-- A decoded test line. -/
structure TestCase where
  name : String
  operator : String
  operands : List Token
  expected : Token
  deriving DecidableEq, Repr

/-- The field before the expected value. -/
def arrow : String := "->"

def malformed (text reason : String) : Fault := .plain (.malformedTest text reason)

namespace TestLine

/-- Splits a test line into fields. -/
def split (dialect : Dialect) (text : String) : Except Fault TestLine :=
  let fields := Text.fields text
  let tooShort := malformed text
    s!"expected at least {dialect.minFields} fields, found {fields.length}"
  if fields.length < dialect.minFields then .error tooShort
  else match fields with
    | name :: operator :: leftField :: rest =>
      .ok ⟨text, dialect, name, operator, leftField, rest⟩
    | _ => .error tooShort

def left (line : TestLine) : Token := decode line.leftField

/-- How many operands the line supplies.  Where the dialect leaves it open, an arrow behind the
left operand tells, and so does a line too short for two. -/
def arity (line : TestLine) : Nat :=
  match line.dialect with
  | .fixed => 2
  | .varying => if line.rest.head? = some arrow ∨ line.rest.length < 3 then 1 else 2

/-- The fields of the operands behind the left one, and the field of the expected value. -/
def layout (line : TestLine) : Except Fault (List String × String) :=
  let noArrow (position : Nat) :=
    malformed line.text s!"expected '{arrow}' as field {position}"
  let noExpected := malformed line.text "missing expected value"
  match line.dialect with
  | .fixed =>
    match line.rest with
    | right :: _ :: expected :: _ => .ok ([right], expected)
    | _ => .error noExpected
  | .varying =>
    if line.arity = 1 then
      if line.rest.head? = some arrow then
        match line.rest with
        | _ :: expected :: _ => .ok ([], expected)
        | _ => .error noExpected
      else .error (noArrow 4)
    else
      match line.rest with
      | right :: mark :: rest =>
        if mark = arrow then
          match rest with
          | expected :: _ => .ok ([right], expected)
          | [] => .error noExpected
        else .error (noArrow 5)
      | _ => .error (noArrow 5)

/-- Decodes the operands and the expected value. -/
def toCase (line : TestLine) : Except Fault TestCase := do
  let (others, expected) ← line.layout
  return ⟨line.name, line.operator, (line.leftField :: others).map decode, decode expected⟩

end TestLine
end DecimalConformance.Script
