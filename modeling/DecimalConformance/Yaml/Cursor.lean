/-! A place in a YAML text: the characters ahead, and where they stand.
Three characters end a line: the line feed and the separators of lines and of paragraphs. -/
namespace DecimalConformance.Yaml

/-- A blank inside a line. -/
def isBlank (c : Char) : Bool := c == ' ' || c == '\t'

/-- The end of a line. -/
def isBreak (c : Char) : Bool := c == '\n' || c == '\u2028' || c == '\u2029'

/-- A blank, the end of a line or the end of the text. -/
def isGap : List Char → Bool
  | [] => true
  | c :: _ => isBlank c || isBreak c

/-- A character of a name. -/
def isWordChar (c : Char) : Bool := c.isAlphanum || c == '_' || c == '-'

structure Cursor where
  rest : List Char
  line : Nat
  column : Nat
  /-- How many characters are ahead. -/
  ahead : Nat

namespace Cursor

def ofChars (cs : List Char) : Cursor := ⟨cs, 0, 0, cs.length⟩

/-- Steps over one character. -/
def advance (cursor : Cursor) : Cursor :=
  match cursor.rest with
  | [] => cursor
  | c :: rest =>
    if isBreak c then ⟨rest, cursor.line + 1, 0, cursor.ahead - 1⟩
    else ⟨rest, cursor.line, cursor.column + 1, cursor.ahead - 1⟩

/-- Steps over `n` characters. -/
def skip (cursor : Cursor) : (n : Nat) → Cursor
  | 0 => cursor
  | n + 1 => cursor.advance.skip n

/-- The characters ahead that satisfy a test. -/
def run (cursor : Cursor) (test : Char → Bool) : List Char := cursor.rest.takeWhile test

/-- Steps over the characters that satisfy a test. -/
def skipWhile (cursor : Cursor) (test : Char → Bool) : Cursor :=
  cursor.skip (cursor.run test).length

/-- Whether `c` is ahead. -/
def at? (cursor : Cursor) (c : Char) : Bool := cursor.rest.head? == some c

/-- Whether a line starts here with this mark of three characters, and a gap behind it. -/
def atMark (cursor : Cursor) (mark : List Char) : Bool :=
  cursor.column == 0 && mark.isPrefixOf cursor.rest && isGap (cursor.rest.drop mark.length)

def startMark : List Char := ['-', '-', '-']

def endMark : List Char := ['.', '.', '.']

/-- Whether a mark between documents is ahead. -/
def atDocumentMark (cursor : Cursor) : Bool := cursor.atMark startMark || cursor.atMark endMark

/-- Whether the line is over. -/
def atBreak (cursor : Cursor) : Bool :=
  match cursor.rest with
  | [] => true
  | c :: _ => isBreak c

/-- Steps over blanks and a comment, to the end of the line if nothing else stands there. -/
def overComment (cursor : Cursor) : Cursor :=
  let next := cursor.skipWhile isBlank
  if next.at? '#' then next.skipWhile (!isBreak ·) else next

end Cursor
end DecimalConformance.Yaml
