import DecimalConformance.Yaml.Cursor
import DecimalConformance.Yaml.Scalar

/-! Texts of YAML scalars: plain, in quotes, and as indented blocks.
Inside a plain or quoted text a line end folds: one line feed becomes a blank, of several the first
is dropped, and separators of lines and paragraphs stay. -/
namespace DecimalConformance.Yaml

/-- What separates two runs of a text. -/
structure Gap where
  /-- The blanks before the first line end. -/
  blanks : List Char
  breaks : List Char

namespace Gap

def none : Gap := ⟨[], []⟩

def isWide (c : Char) : Bool := isBlank c || isBreak c

/-- The gap ahead, and the place behind it. -/
def ofCursor (cursor : Cursor) : Gap × Cursor :=
  let cs := cursor.run isWide
  (⟨cs.takeWhile isBlank, cs.filter isBreak⟩, cursor.skip cs.length)

/-- Whether the gap ends a line. -/
def endsLine (gap : Gap) : Bool := !gap.breaks.isEmpty

/-- What the gap becomes inside a text. -/
def folded (gap : Gap) : List Char :=
  match gap.breaks with
  | [] => gap.blanks
  | ['\n'] => [' ']
  | '\n' :: more => more
  | breaks => breaks

end Gap

/-! ## Plain texts -/

/-- Whether a gap holds a tab that stands left of a column, on any of its lines but the first.  The
first argument is the column, if the first line is over. -/
def hasShallowTab (indent : Nat) (column? : Option Nat) : List Char → Bool
  | [] => false
  | c :: rest =>
    if isBreak c then hasShallowTab indent (some 0) rest
    else column?.any (fun column => c == '\t' && column < indent) ||
      hasShallowTab indent (column?.map (· + 1)) rest

/-- The characters that structure a flow collection. -/
def isFlowMark (c : Char) : Bool := ",[]{}".contains c

/-- The run of a plain text up to the next gap, or to what ends the text. -/
def plainRun (inFlow : Bool) : List Char → Except String (List Char)
  | [] => .ok []
  | ':' :: rest =>
    if isGap rest then .ok []
    else if inFlow && (rest.head?.any fun c => isFlowMark c || c == '?') then
      .error "found unexpected ':'"
    else (plainRun inFlow rest).map (':' :: ·)
  | c :: rest =>
    if isBlank c || isBreak c || (inFlow && isFlowMark c) then .ok []
    else (plainRun inFlow rest).map (c :: ·)

/-- A text with the place behind it. -/
structure Reading where
  text : List Char
  behind : Cursor
  /-- The place behind is on a line of its own. -/
  onNewLine : Bool

/-- Reads the runs of a plain text; `text` is what was read before, the last character first, and
`gap` what lies between.  In a block a further line belongs to the text only if it reaches the
column `indent`. -/
def plainFrom (inFlow : Bool) (indent : Nat) : (steps : Nat) → (text : List Char) → Gap → Cursor →
    Except String Reading
  | 0, text, gap, cursor => .ok ⟨text.reverse, cursor, gap.endsLine⟩
  | steps + 1, text, gap, cursor => do
    let run ← if cursor.atDocumentMark || cursor.at? '#' then .ok []
      else plainRun inFlow cursor.rest
    if run.isEmpty then return ⟨text.reverse, cursor, gap.endsLine⟩
    let text := run.reverse ++ gap.folded.reverse ++ text
    let behind := cursor.skip run.length
    if hasShallowTab indent none (behind.run Gap.isWide) then
      .error "found a tab character that violates indentation"
    let (gap, next) := Gap.ofCursor behind
    if !inFlow && next.column < indent then return ⟨text.reverse, next, gap.endsLine⟩
    plainFrom inFlow indent steps text gap next

/-- Reads a plain text. -/
def readPlain (inFlow : Bool) (indent : Nat) (cursor : Cursor) : Except String Reading :=
  plainFrom inFlow indent (cursor.ahead + 1) [] .none cursor

/-! ## Texts in quotes -/

/-- The character that an escape with a code of hexadecimal digits stands for. -/
def codeEscape (width : Nat) (cursor : Cursor) : Except String (Char × Cursor) :=
  let digits := cursor.rest.take width
  match unsigned? 16 digits with
  | some n =>
    if digits.length = width ∧ n.isValidChar then .ok (Char.ofNat n, cursor.skip width)
    else .error "found invalid Unicode character escape code"
  | none => .error "did not find expected hexadecimal number"

/-- The character that an escape stands for, from behind the backslash. -/
def escaped (cursor : Cursor) : Except String (Char × Cursor) :=
  let single (n : Nat) : Except String (Char × Cursor) := .ok (Char.ofNat n, cursor.advance)
  match cursor.rest with
  | '0' :: _ => single 0
  | 'a' :: _ => single 7
  | 'b' :: _ => single 8
  | 't' :: _ | '\t' :: _ => single 9
  | 'n' :: _ => single 10
  | 'v' :: _ => single 11
  | 'f' :: _ => single 12
  | 'r' :: _ => single 13
  | 'e' :: _ => single 27
  | ' ' :: _ => single 32
  | '"' :: _ => single 34
  | '/' :: _ => single 47
  | '\\' :: _ => single 92
  | 'N' :: _ => single 0x85
  | '_' :: _ => single 0xA0
  | 'L' :: _ => single 0x2028
  | 'P' :: _ => single 0x2029
  | 'x' :: _ => codeEscape 2 cursor.advance
  | 'u' :: _ => codeEscape 4 cursor.advance
  | 'U' :: _ => codeEscape 8 cursor.advance
  | _ => .error "found unknown escape character"

/-- Reads a text from behind its opening quote; `text` is what was read before, the last character
first.  Two single quotes stand for one; an escaped line end is dropped. -/
def quotedFrom (quote : Char) : (steps : Nat) → (text : List Char) → Cursor → Except String Reading
  | 0, _, _ => .error "found unexpected end of stream"
  | steps + 1, text, cursor =>
    match cursor.rest with
    | [] => .error "found unexpected end of stream"
    | c :: rest => do
      if cursor.atDocumentMark then .error "found unexpected document indicator"
      else if c == quote then
        if c == '\'' && rest.head? == some '\'' then
          quotedFrom quote steps ('\'' :: text) (cursor.skip 2)
        else return ⟨text.reverse, cursor.advance, false⟩
      else if isBlank c || isBreak c then
        let (gap, next) := Gap.ofCursor cursor
        quotedFrom quote steps (gap.folded.reverse ++ text) next
      else if quote == '"' && c == '\\' then
        if rest.head?.any isBreak then
          let (gap, next) := Gap.ofCursor (cursor.skip 2)
          quotedFrom quote steps (gap.breaks.reverse ++ text) next
        else
          let (c, next) ← escaped cursor.advance
          quotedFrom quote steps (c :: text) next
      else quotedFrom quote steps (c :: text) cursor.advance

/-- Reads a text in quotes, from the opening quote. -/
def readQuoted (quote : Char) (cursor : Cursor) : Except String Reading :=
  quotedFrom quote (cursor.ahead + 1) [] cursor.advance

/-! ## Texts as blocks -/

/-- What becomes of the line ends behind the last line of a block. -/
inductive Chomping where
  | strip | clip | keep
  deriving DecidableEq, Repr

/-- The mark behind the indicator of a block. -/
structure BlockMark where
  chomping : Chomping
  /-- How far the block is indented, if that is given. -/
  indent? : Option Nat

def chomping? : Char → Option Chomping
  | '-' => some .strip
  | '+' => some .keep
  | _ => none

/-- Reads the mark of a block: how to chomp and how far to indent, in either order. -/
def readBlockMark (cursor : Cursor) : Except String (BlockMark × Cursor) := do
  let chomp (cursor : Cursor) : Option Chomping × Cursor :=
    match cursor.rest.head?.bind chomping? with
    | some chomping => (some chomping, cursor.advance)
    | none => (none, cursor)
  let indentation (cursor : Cursor) : Except String (Option Nat × Cursor) :=
    match cursor.rest.head?.bind Text.digitValue? with
    | some 0 => .error "found an indentation indicator equal to 0"
    | some n => .ok (some n, cursor.advance)
    | none => .ok (none, cursor)
  let (before?, next) := chomp cursor
  let (indent?, next) ← indentation next
  let (behind?, next) := if before?.isSome then (none, next) else chomp next
  return (⟨(before? <|> behind?).getD .clip, indent?⟩, next)

/-- Reads the line ends before a line of a block, with the blanks that indent it.  While the indent
is unknown all blanks count, and `deepest` is the deepest column so far. -/
def blockGap (indent? : Option Nat) : (steps : Nat) → (deepest : Nat) → (breaks : List Char) →
    Cursor → Except String (Nat × List Char × Cursor)
  | 0, deepest, breaks, cursor => .ok (deepest, breaks, cursor)
  | steps + 1, deepest, breaks, cursor =>
    let blanks := (cursor.run (· == ' ')).length
    let next := cursor.skip ((indent?.map fun indent => min blanks (indent - cursor.column)).getD blanks)
    let deepest := max deepest next.column
    if next.at? '\t' && indent?.all (next.column < ·) then
      .error "found a tab character where an indentation space is expected"
    else
      match next.rest with
      | c :: _ =>
        if isBreak c then blockGap indent? steps deepest (breaks ++ [c]) next.advance
        else .ok (deepest, breaks, next)
      | [] => .ok (deepest, breaks, next)

/-- The text of a block while it is read. -/
structure BlockText where
  /-- What was read before, the last character first. -/
  text : List Char
  /-- The end of the last line. -/
  lineEnd : List Char
  /-- The ends of empty lines behind it. -/
  emptyLines : List Char
  /-- The last line starts with a blank. -/
  startsBlank : Bool

/-- Reads the lines of a block at a column.  In a folded block the end of a line becomes a blank
between two lines that start without one. -/
def blockLines (folds : Bool) (indent : Nat) : (steps : Nat) → BlockText → Cursor →
    Except String (BlockText × Cursor)
  | 0, block, cursor => .ok (block, cursor)
  | steps + 1, block, cursor =>
    match cursor.rest with
    | [] => .ok (block, cursor)
    | c :: _ => do
      if cursor.column ≠ indent then return (block, cursor)
      let startsBlank := isBlank c
      let joint :=
        if folds && block.lineEnd == ['\n'] && !block.startsBlank && !startsBlank then
          if block.emptyLines.isEmpty then [' '] else []
        else block.lineEnd
      let line := cursor.run (!isBreak ·)
      let behind := cursor.skip line.length
      let (_, emptyLines, next) ← blockGap (some indent) (behind.ahead + 1) 0 [] behind.advance
      blockLines folds indent steps
        ⟨line.reverse ++ block.emptyLines.reverse ++ joint.reverse ++ block.text,
          behind.rest.take 1, emptyLines, startsBlank⟩ next

/-- Reads a block from its indicator; `parent` is the column of the collection around it. -/
def readBlock (folds : Bool) (parent : Int) (cursor : Cursor) : Except String Reading := do
  let (mark, next) ← readBlockMark cursor.advance
  let lineEnd := next.overComment
  if !lineEnd.atBreak then .error "did not find expected comment or line break"
  let start := lineEnd.advance
  let steps := start.ahead + 1
  let indent? := mark.indent?.map fun n => n + parent.toNat
  let (deepest, breaks, first) ← blockGap indent? steps 0 [] start
  let indent := indent?.getD (max deepest (max (parent + 1).toNat 1))
  let (block, behind) ← blockLines folds indent steps ⟨[], [], breaks, false⟩ first
  let tail := match mark.chomping with
    | .strip => []
    | .clip => block.lineEnd
    | .keep => block.lineEnd ++ block.emptyLines
  return ⟨block.text.reverse ++ tail, behind, true⟩

end DecimalConformance.Yaml
