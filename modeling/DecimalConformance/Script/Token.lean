/-! Fields that stand for operands and expected values: literals and two sentinels. -/
namespace DecimalConformance.Script

/-- A field without its quotes. -/
inductive Token where
  /-- Handed to the engine as it is. -/
  | literal (text : String)
  /-- A question mark: the result is not constrained. -/
  | unconstrained
  /-- A number sign: the test does not apply. -/
  | forcedSkip
  deriving DecidableEq, Repr

namespace Token

def isSentinel : Token → Bool
  | literal _ => false
  | unconstrained | forcedSkip => true

def literal? : Token → Option String
  | literal text => some text
  | unconstrained | forcedSkip => none

end Token

/-- What stands between two quotes of one kind at the ends. -/
def unquoted? (quote : Char) : List Char → Option (List Char)
  | [] => none
  | c :: rest => if c = quote ∧ rest.getLast? = some quote then some rest.dropLast else none

/-- A field without one pair of matching quotes around it. -/
def stripQuotes (raw : String) : String :=
  let cs := raw.toList
  String.ofList (((unquoted? '\'' cs).or (unquoted? '"' cs)).getD cs)

/-- Reads a field; nothing is asked of a literal here. -/
def decode (raw : String) : Token :=
  match stripQuotes raw with
  | "#" => .forcedSkip
  | "?" => .unconstrained
  | text => .literal text

end DecimalConformance.Script
