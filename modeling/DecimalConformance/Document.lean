/-! Structured output: trees of fields, lists, texts and numbers, and their written form.
Fields keep the order in which they were given; two blanks indent each level. -/
namespace DecimalConformance

inductive Document where
  | null
  | number (n : Nat)
  | text (s : String)
  | list (items : List Document)
  | object (fields : List (String × Document))

namespace Document

/-- A hexadecimal digit in lower case. -/
def hexDigit (n : Nat) : Char := (Nat.digitChar n)

/-- A character inside quotes: controls, the quote and the backslash are escaped. -/
def escapeChar (c : Char) : List Char :=
  match c with
  | '"' => ['\\', '"']
  | '\\' => ['\\', '\\']
  | '\n' => ['\\', 'n']
  | '\r' => ['\\', 'r']
  | '\t' => ['\\', 't']
  | c =>
    if c.toNat = 8 then ['\\', 'b']
    else if c.toNat = 12 then ['\\', 'f']
    else if c.toNat < 32 then
      ['\\', 'u', '0', '0', hexDigit (c.toNat / 16), hexDigit (c.toNat % 16)]
    else [c]

/-- A text in quotes. -/
def quoted (s : String) : String := String.ofList ('"' :: s.toList.flatMap escapeChar ++ ['"'])

/-- A new line at a level of indentation. -/
def newLine (level : Nat) : String := String.ofList ('\n' :: List.replicate (2 * level) ' ')

/-- Items in brackets, one on a line; none at all stay on the line. -/
def bracketed (opening closing : String) (level : Nat) (items : List String) : String :=
  if items.isEmpty then opening ++ closing
  else opening ++ newLine (level + 1) ++ String.intercalate ("," ++ newLine (level + 1)) items ++
    newLine level ++ closing

mutual

/-- The written form at a level of indentation. -/
def writeAt (level : Nat) : Document → String
  | null => "null"
  | number n => toString n
  | text s => quoted s
  | list items => bracketed "[" "]" level (writeItems (level + 1) items)
  | object fields => bracketed "\x7b" "\x7d" level (writeFields (level + 1) fields)

def writeItems (level : Nat) : List Document → List String
  | [] => []
  | item :: rest => writeAt level item :: writeItems level rest

def writeFields (level : Nat) : List (String × Document) → List String
  | [] => []
  | (name, value) :: rest =>
    (quoted name ++ ": " ++ writeAt level value) :: writeFields level rest

end

/-- The written form. -/
def write (document : Document) : String := document.writeAt 0

end Document
end DecimalConformance
