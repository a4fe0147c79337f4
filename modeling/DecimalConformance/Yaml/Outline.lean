import DecimalConformance.Yaml.Tag
import DecimalConformance.Yaml.Text
import DecimalConformance.Yaml.Token

/-! The outline of a YAML text: its tokens in order.
A key is only known by the colon behind it, so every place where one may start is kept until the
line is over; the tokens that open a mapping are then put in front of it. -/
namespace DecimalConformance.Yaml

/-- A place where a key may have started. -/
structure KeyStart where
  /-- The line makes sense only if this is a key. -/
  required : Bool
  /-- How many tokens come before. -/
  number : Nat
  line : Nat
  column : Nat
  /-- How many characters are ahead of it. -/
  ahead : Nat

namespace KeyStart

/-- How far a key may reach, in characters. -/
def longest : Nat := 1024

/-- Whether a key from here cannot reach a place. -/
def isStale (start : KeyStart) (cursor : Cursor) : Bool :=
  start.line < cursor.line || cursor.ahead + longest < start.ahead

end KeyStart

/-- An outline while it is made. -/
structure Outline where
  cursor : Cursor
  /-- The tokens so far, the last one first. -/
  tokens : List Token
  /-- How many they are. -/
  count : Nat
  /-- The column of the innermost block collection, and those of the collections around it. -/
  indent : Int
  outerIndents : List Int
  /-- A key, or an item of a block sequence, may start here. -/
  keyAllowed : Bool
  /-- Where the innermost collection may have a key, and the flow collections around it. -/
  keyStart? : Option KeyStart
  outerKeyStarts : List (Option KeyStart)

namespace Outline

def start (cs : List Char) : Outline := ⟨.ofChars cs, [], 0, -1, [], true, none, []⟩

def inFlow (outline : Outline) : Bool := !outline.outerKeyStarts.isEmpty

def push (outline : Outline) (token : Token) : Outline :=
  { outline with tokens := token :: outline.tokens, count := outline.count + 1 }

/-- Puts a token behind the first `number`. -/
def insert (outline : Outline) (number : Nat) (token : Token) : Outline :=
  let later := outline.count - number
  { outline with
    tokens := outline.tokens.take later ++ token :: outline.tokens.drop later
    count := outline.count + 1 }

/-! ## Keys -/

/-- Gives up a key that has not come; none may be given up where one is required. -/
def withoutKey (start? : Option KeyStart) : Except String (Option KeyStart) :=
  if start?.any (·.required) then .error "could not find expected ':'" else .ok none

/-- Gives up the key of the innermost collection. -/
def dropKey (outline : Outline) : Except String Outline := do
  return { outline with keyStart? := ← withoutKey outline.keyStart? }

/-- Gives up the keys that are too far behind. -/
def dropStaleKeys (outline : Outline) : Except String Outline := do
  let expire (start? : Option KeyStart) : Except String (Option KeyStart) :=
    if start?.any (·.isStale outline.cursor) then withoutKey start? else .ok start?
  return { outline with
    keyStart? := ← expire outline.keyStart?
    outerKeyStarts := ← outline.outerKeyStarts.mapM expire }

/-- Notes that a key may start here. -/
def saveKey (outline : Outline) : Except String Outline := do
  if !outline.keyAllowed then return outline
  let outline ← outline.dropKey
  let cursor := outline.cursor
  let required := !outline.inFlow && outline.indent == cursor.column
  return { outline with
    keyStart? := some ⟨required, outline.count, cursor.line, cursor.column, cursor.ahead⟩ }

/-! ## Indentation -/

/-- Opens a block collection at a column, unless one is open there.  Its token comes behind the
first `number` tokens. -/
def openBlock (outline : Outline) (column number : Nat) (token : Token) : Outline :=
  if outline.inFlow || (column : Int) ≤ outline.indent then outline
  else
    { outline.insert number token with
      indent := column, outerIndents := outline.indent :: outline.outerIndents }

/-- The innermost of some columns that is not right of `column`, those around it, and how many were
left. -/
def leave (column : Int) (indent : Int) : List Int → Int × List Int × Nat
  | [] => (indent, [], 0)
  | outer :: rest =>
    if column < indent then
      let (found, around, left) := leave column outer rest
      (found, around, left + 1)
    else (indent, outer :: rest, 0)

/-- Closes the block collections right of a column. -/
def closeBlocks (outline : Outline) (column : Int) : Outline :=
  if outline.inFlow then outline
  else
    let (indent, outer, left) := leave column outline.indent outline.outerIndents
    { outline with
      tokens := List.replicate left .blockEnd ++ outline.tokens
      count := outline.count + left
      indent := indent, outerIndents := outer }

/-! ## Between tokens -/

def byteOrderMark : Char := '\ufeff'

/-- Steps over blanks, comments and line ends.  In a block, a tab may not stand where a key may
start, and a key may start on every line.  A byte order mark at the start of a line is a blank. -/
def toContentWithin : (steps : Nat) → Outline → Outline
  | 0, outline => outline
  | steps + 1, outline =>
    let blank (c : Char) : Bool :=
      c == ' ' || (c == '\t' && (outline.inFlow || !outline.keyAllowed))
    let cursor := outline.cursor
    let next := if cursor.column == 0 && cursor.at? byteOrderMark then cursor.advance else cursor
    let next := next.skipWhile blank
    let next := if next.at? '#' then next.skipWhile (!isBreak ·) else next
    if next.atBreak && !next.rest.isEmpty then
      toContentWithin steps { outline with
        cursor := next.advance, keyAllowed := outline.keyAllowed || !outline.inFlow }
    else { outline with cursor := next }

/-- Goes to the next token. -/
def toContent (outline : Outline) : Except String Outline := do
  let outline ← (outline.toContentWithin (outline.cursor.ahead + 1)).dropStaleKeys
  return outline.closeBlocks outline.cursor.column

/-! ## Tokens -/

/-- Pushes a token of `width` characters. -/
def take (outline : Outline) (width : Nat) (token : Token) : Outline :=
  { outline.push token with cursor := outline.cursor.skip width }

/-- A mark between documents: every block collection is over. -/
def takeDocumentMark (outline : Outline) (token : Token) : Except String Outline := do
  let outline ← (outline.closeBlocks (-1)).dropKey
  return { outline.take 3 token with keyAllowed := false }

/-- How many digits a number in a directive may have. -/
def numberLengthMax : Nat := 9

/-- Reads the version of the language: two numbers with a point between them. -/
def readVersion (cursor : Cursor) : Except String (Token × Cursor) :=
  let number? (digits : List Char) : Option Nat :=
    if digits.length ≤ numberLengthMax then unsigned? 10 digits else none
  let major := cursor.run Char.isDigit
  let next := cursor.skip major.length
  let minor := next.advance.run Char.isDigit
  match next.at? '.', number? major, number? minor with
  | true, some majorNumber, some minorNumber =>
    .ok (.version majorNumber minorNumber, next.skip (minor.length + 1))
  | _, _, _ => .error "did not find expected version number"

/-- The name of a tag handle between two exclamation marks, and the place behind it. -/
def handle? (cursor : Cursor) : Option (String × Cursor) :=
  let name := cursor.advance.run isWordChar
  let next := cursor.skip (name.length + 1)
  if next.at? '!' then some (String.ofList ('!' :: name ++ ['!']), next.advance) else none

/-- Reads a tag handle, which may be one exclamation mark, and what it stands for. -/
def readHandle (cursor : Cursor) : Except String (Token × Cursor) := do
  let (handle, next) := (handle? cursor).getD ("!", cursor.advance)
  if !cursor.at? '!' then throw "did not find expected '!'"
  if !(next.rest.head?.any isBlank) then throw "did not find expected whitespace"
  let next := next.skipWhile isBlank
  let start := next.run (Tag.isTagChar true)
  let behind := next.skip start.length
  if !isGap behind.rest then throw "did not find expected whitespace or line break"
  return (.tagHandle handle (← Tag.ofChars start), behind)

/-- A directive: the version of the language, or a tag handle. -/
def takeDirective (outline : Outline) : Except String Outline := do
  let outline ← (outline.closeBlocks (-1)).dropKey
  let name := outline.cursor.advance.run isWordChar
  let behindName := outline.cursor.skip (name.length + 1)
  if !isGap behindName.rest then throw "found unexpected non-alphabetical character"
  let next := behindName.skipWhile isBlank
  let (token, behind) ←
    if name == "YAML".toList then readVersion next
    else if name == "TAG".toList then readHandle next
    else throw "found unknown directive name"
  let lineEnd := behind.overComment
  if !lineEnd.atBreak then throw "did not find expected comment or line break"
  return { outline.push token with cursor := lineEnd, keyAllowed := false }

/-- Opens a flow collection. -/
def openFlow (outline : Outline) (token : Token) : Except String Outline := do
  let outline ← outline.saveKey
  return { outline.take 1 token with
    keyAllowed := true, keyStart? := none
    outerKeyStarts := outline.keyStart? :: outline.outerKeyStarts }

/-- Closes a flow collection, if one is open. -/
def closeFlow (outline : Outline) (token : Token) : Except String Outline := do
  let outline ← outline.dropKey
  let closed := { outline.take 1 token with keyAllowed := false }
  match outline.outerKeyStarts with
  | [] => return closed
  | key :: rest => return { closed with keyStart? := key, outerKeyStarts := rest }

/-- Opens a block collection here if none is open, where one may start. -/
def openBlockHere (outline : Outline) (token : Token) (refusal : String) : Except String Outline :=
  if outline.inFlow then .ok outline
  else if !outline.keyAllowed then .error refusal
  else .ok (outline.openBlock outline.cursor.column outline.count token)

/-- An item of a block sequence. -/
def takeBlockEntry (outline : Outline) : Except String Outline := do
  let outline ← outline.openBlockHere .blockSequenceStart
    "block sequence entries are not allowed in this context"
  let outline ← outline.dropKey
  return { outline.take 1 .blockEntry with keyAllowed := true }

/-- A key that is marked as one. -/
def takeKey (outline : Outline) : Except String Outline := do
  let outline ← outline.openBlockHere .blockMappingStart
    "mapping keys are not allowed in this context"
  let outline ← outline.dropKey
  return { outline.take 1 .key with keyAllowed := !outline.inFlow }

/-- The colon before a value.  What lies between the place where a key may have started and here is
then a key. -/
def takeValue (outline : Outline) : Except String Outline := do
  match outline.keyStart? with
  | some start =>
    let keyed := (outline.insert start.number .key).openBlock start.column start.number
      .blockMappingStart
    return { keyed.take 1 .value with keyStart? := none, keyAllowed := false }
  | none =>
    let outline ← outline.openBlockHere .blockMappingStart
      "mapping values are not allowed in this context"
    return { outline.take 1 .value with keyAllowed := !outline.inFlow }

/-- A token that a key may start with, and that no key may follow. -/
def takeInKey (outline : Outline) (token : Token) (behind : Cursor) : Except String Outline := do
  let outline ← outline.saveKey
  return { outline.push token with cursor := behind, keyAllowed := false }

/-- The name of an anchor or an alias. -/
def takeName (outline : Outline) (token : String → Token) : Except String Outline := do
  let name := outline.cursor.advance.run isWordChar
  let behind := outline.cursor.skip (name.length + 1)
  if name.isEmpty || !(isGap behind.rest || "?:,]\x7d%@`".contains (behind.rest.headD ' ')) then
    .error "did not find expected alphabetic or numeric character"
  outline.takeInKey (token (String.ofList name)) behind

/-- A tag: in full between angle brackets, or behind a handle. -/
def takeTag (outline : Outline) : Except String Outline := do
  let cursor := outline.cursor
  let (handle, suffix, behind) ←
    if cursor.rest[1]? == some '<' then
      let suffix := (cursor.skip 2).run (Tag.isTagChar true)
      let behind := cursor.skip (suffix.length + 2)
      if !behind.at? '>' then throw "did not find the expected '>'"
      pure ("", ← Tag.ofChars suffix, behind.advance)
    else
      match handle? cursor with
      | some (handle, next) =>
        let suffix := next.run (Tag.isTagChar false)
        pure (handle, ← Tag.ofChars suffix, next.skip suffix.length)
      | none =>
        let suffix := cursor.advance.run (Tag.isTagChar false)
        if suffix.isEmpty then pure ("", "!", cursor.advance)
        else pure ("!", ← Tag.ofChars suffix, cursor.skip (suffix.length + 1))
  if !(isGap behind.rest || (outline.inFlow && behind.at? ',')) then
    throw "did not find expected whitespace or line break"
  outline.takeInKey (.tag handle suffix) behind

def takeQuoted (outline : Outline) (quote : Char) : Except String Outline := do
  let reading ← readQuoted quote outline.cursor
  outline.takeInKey (.scalar (String.ofList reading.text) false) reading.behind

def takePlain (outline : Outline) : Except String Outline := do
  let reading ← readPlain outline.inFlow (outline.indent + 1).toNat outline.cursor
  let taken ← outline.takeInKey (.scalar (String.ofList reading.text) true) reading.behind
  return { taken with keyAllowed := reading.onNewLine }

def takeBlockText (outline : Outline) (folds : Bool) : Except String Outline := do
  let outline ← outline.dropKey
  let reading ← readBlock folds outline.indent outline.cursor
  return { outline.push (.scalar (String.ofList reading.text) false) with
    cursor := reading.behind, keyAllowed := true }

/-- Takes the token that starts with `c`, which is ahead; `rest` is behind it. -/
def takeToken (outline : Outline) (c : Char) (rest : List Char) : Except String Outline :=
  let opens := outline.inFlow || isGap rest
  if outline.cursor.column == 0 && c == '%' then outline.takeDirective
  else if outline.cursor.atMark Cursor.startMark then outline.takeDocumentMark .documentStart
  else if outline.cursor.atMark Cursor.endMark then outline.takeDocumentMark .documentEnd
  else
    match c with
    | '[' => outline.openFlow .flowSequenceStart
    | '\x7b' => outline.openFlow .flowMappingStart
    | ']' => outline.closeFlow .flowSequenceEnd
    | '\x7d' => outline.closeFlow .flowMappingEnd
    | ',' => do
      let outline ← outline.dropKey
      return { outline.take 1 .flowEntry with keyAllowed := true }
    | '-' => if isGap rest then outline.takeBlockEntry else outline.takePlain
    | '?' => if opens then outline.takeKey else outline.takePlain
    | ':' => if opens then outline.takeValue else outline.takePlain
    | '*' => outline.takeName .alias
    | '&' => outline.takeName .anchor
    | '!' => outline.takeTag
    | '\'' | '"' => outline.takeQuoted c
    | '|' | '>' =>
      if outline.inFlow then .error "found character that cannot start any token"
      else outline.takeBlockText (c == '>')
    | '\t' | '#' | '%' | '@' | '`' => .error "found character that cannot start any token"
    | _ => outline.takePlain

/-- The tokens from here on. -/
def finish (outline : Outline) : (steps : Nat) → Except String (List Token)
  | 0 => .error "found too many tokens"
  | steps + 1 => do
    let outline ← outline.toContent
    match outline.cursor.rest with
    | [] =>
      let outline ← (outline.closeBlocks (-1)).dropKey
      return outline.tokens.reverse
    | c :: rest => finish (← outline.takeToken c rest) steps

end Outline

/-! ## Texts -/

/-- Whether a character may stand in a text. -/
def isAllowed (c : Char) : Bool :=
  let n := c.toNat
  n == 9 || n == 10 || n == 13 || (32 ≤ n && n ≤ 126) || n == 0x85 || (0xA0 ≤ n && n ≤ 0xFFFD) ||
    0x10000 ≤ n

/-- The ends of lines: a carriage return, with or without a line feed, and the next-line control are
line feeds. -/
def normalizeLines : List Char → List Char
  | '\r' :: '\n' :: rest => '\n' :: normalizeLines rest
  | '\r' :: rest | '\u0085' :: rest => '\n' :: normalizeLines rest
  | c :: rest => c :: normalizeLines rest
  | [] => []

/-- The tokens of a text. -/
def tokens (text : String) : Except String (List Token) := do
  let cs := normalizeLines text.toList
  if !cs.all isAllowed then throw "control characters are not allowed"
  (Outline.start cs).finish (cs.length + 2)

end DecimalConformance.Yaml
