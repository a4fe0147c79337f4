import DecimalConformance.Yaml.Node
import DecimalConformance.Yaml.Outline

/-! YAML documents as they are written: trees in which an alias stands for a node elsewhere. -/
namespace DecimalConformance.Yaml

inductive Draft where
  /-- The node whose anchor took this number last. -/
  | alias (number : Nat)
  | scalar (node : Node)
  | sequence (tag? : Option String) (items : List Draft)
  | mapping (tag? : Option String) (entries : List (Draft × Draft))

namespace Draft

mutual

/-- How many steps describe a draft: one a scalar or an alias, two the ends of a collection. -/
def size : Draft → Nat
  | .alias _ | .scalar _ => 1
  | sequence _ items => sizeOfItems items + 2
  | mapping _ entries => sizeOfEntries entries + 2

def sizeOfItems : List Draft → Nat
  | [] => 0
  | item :: rest => item.size + sizeOfItems rest

def sizeOfEntries : List (Draft × Draft) → Nat
  | [] => 0
  | (key, value) :: rest => key.size + value.size + sizeOfEntries rest

end

def null : Draft := .scalar .null

/-- A scalar that is left out behind a tag or an anchor. -/
def ofMissing (tag? : Option String) : Except String Draft :=
  (Node.ofScalar tag? "" true).map .scalar

/-! ## Reading -/

/-- What is known while tokens are read. -/
structure Progress where
  /-- The tokens ahead. -/
  tokens : List Token
  handles : Tag.Handles
  /-- The names of anchors, each with the number of names before it.  A name that is set again counts
  as a new one, in the place of the old. -/
  numbers : List (String × Nat)
  /-- Which anchors took a number, the last one first. -/
  holders : List (Nat × Nat)
  /-- What lies behind the anchors. -/
  anchored : List (Nat × Draft)

abbrev Reader := StateT Progress (Except String)

namespace Reader

def peek : Reader (Option Token) := return (← get).tokens.head?

/-- Steps over a token. -/
def drop : Reader Unit := modify fun progress => { progress with tokens := progress.tokens.tail }

/-- Whether one of some tokens is ahead. -/
def sees (tokens : List Token) : Reader Bool := return (← peek).any tokens.contains

/-- Steps over a token if it is ahead. -/
def accept (token : Token) : Reader Bool := do
  let found ← sees [token]
  if found then drop
  return found

/-- Sets an anchor, the last one so far. -/
def setAnchor (name : String) : Reader Nat := do
  let progress ← get
  let number := progress.numbers.length
  let anchor := progress.holders.length
  set { progress with
    numbers := (name, number) :: progress.numbers.filter (·.1 ≠ name)
    holders := (number, anchor) :: progress.holders }
  return anchor

/-- Notes what lies behind an anchor. -/
def fill (anchor? : Option Nat) (draft : Draft) : Reader Unit :=
  match anchor? with
  | some anchor => modify fun progress =>
      { progress with anchored := (anchor, draft) :: progress.anchored }
  | none => return

/-- The anchor and the tag before a node, in either order, each at most once. -/
def properties : Reader (Option Nat × Option String) := do
  let anchor : Reader (Option Nat) := do
    match ← peek with
    | some (.anchor name) => drop; return some (← setAnchor name)
    | _ => return none
  let tag : Reader (Option String) := do
    match ← peek with
    | some (.tag handle suffix) => drop; return some (← Tag.resolve (← get).handles handle suffix)
    | _ => return none
  let before ← anchor
  let tag? ← tag
  if before.isSome || tag?.isNone then return (before, tag?)
  return (← anchor, tag?)

/-- An alias of the anchor with a name. -/
def aliased (name : String) : Reader Draft := do
  match (← get).numbers.lookup name with
  | some number => return .alias number
  | none => throw "unknown anchor"

mutual

/-- Reads a node.  Block collections stand only in blocks; the items of a block sequence may start
at the column of the mapping around it. -/
def node : (fuel : Nat) → (inBlock itemsHere : Bool) → Reader Draft
  | 0, _, _ => throw "nested too deeply"
  | fuel + 1, inBlock, itemsHere => do
    match ← peek with
    | some (.alias name) => drop; aliased name
    | _ =>
      let (anchor?, tag?) ← properties
      let draft ← content fuel inBlock itemsHere anchor?.isSome tag?
      fill anchor? draft
      return draft

/-- Reads a node behind its anchor and tag. -/
def content : (fuel : Nat) → (inBlock itemsHere isNamed : Bool) → (tag? : Option String) →
    Reader Draft
  | 0, _, _, _, _ => throw "nested too deeply"
  | fuel + 1, inBlock, itemsHere, isNamed, tag? => do
    let missing : Reader Draft :=
      if isNamed || tag?.isSome then ofMissing tag?
      else throw "did not find expected node content"
    match ← peek with
    | some .blockEntry => if itemsHere then .sequence tag? <$> items fuel true [] else missing
    | some (.scalar text isPlain) => drop; .scalar <$> Node.ofScalar tag? text isPlain
    | some .flowSequenceStart => drop; .sequence tag? <$> flowItems fuel []
    | some .flowMappingStart => drop; .mapping tag? <$> flowEntries fuel []
    | some .blockSequenceStart =>
      if inBlock then drop; .sequence tag? <$> items fuel false [] else missing
    | some .blockMappingStart =>
      if inBlock then drop; .mapping tag? <$> entries fuel [] else missing
    | _ => missing

/-- Reads a node that is left out if one of some tokens is ahead. -/
def nodeUnless : (fuel : Nat) → (inBlock itemsHere : Bool) → (tokens : List Token) → Reader Draft
  | 0, _, _, _ => throw "nested too deeply"
  | fuel + 1, inBlock, itemsHere, tokens => do
    if ← sees tokens then return null
    node fuel inBlock itemsHere

/-- Reads the items of a block sequence; one at the column of the mapping around it has no end of
its own. -/
def items : (fuel : Nat) → (endless : Bool) → (before : List Draft) → Reader (List Draft)
  | 0, _, _ => throw "nested too deeply"
  | fuel + 1, endless, before => do
    if ← accept .blockEntry then
      let item ← nodeUnless fuel true false
        (if endless then [.blockEntry, .key, .value, .blockEnd] else [.blockEntry, .blockEnd])
      items fuel endless (item :: before)
    else if endless then return before.reverse
    else if ← accept .blockEnd then return before.reverse
    else throw "did not find expected '-' indicator"

/-- Reads the entries of a block mapping. -/
def entries : (fuel : Nat) → (before : List (Draft × Draft)) → Reader (List (Draft × Draft))
  | 0, _ => throw "nested too deeply"
  | fuel + 1, before => do
    if ← accept .key then
      let key ← nodeUnless fuel true true [.key, .value, .blockEnd]
      let value ← valueUnless fuel true [.key, .value, .blockEnd]
      entries fuel ((key, value) :: before)
    else if ← accept .blockEnd then return before.reverse
    else throw "did not find expected key"

/-- Reads the value behind a key, if there is one. -/
def valueUnless : (fuel : Nat) → (inBlock : Bool) → (tokens : List Token) → Reader Draft
  | 0, _, _ => throw "nested too deeply"
  | fuel + 1, inBlock, tokens => do
    if ← accept .value then nodeUnless fuel inBlock inBlock tokens else return null

/-- Reads the items of a flow sequence.  A key makes an item a mapping of one entry; one that is
left out takes the token behind it along. -/
def flowItems : (fuel : Nat) → (before : List Draft) → Reader (List Draft)
  | 0, _ => throw "nested too deeply"
  | fuel + 1, before => do
    if ← accept .flowSequenceEnd then return before.reverse
    if !before.isEmpty then
      if !(← accept .flowEntry) then throw "did not find expected ',' or ']'"
    if ← accept .flowSequenceEnd then return before.reverse
    if ← accept .key then
      let isMissing ← sees [.value, .flowEntry, .flowSequenceEnd]
      let key ← nodeUnless fuel false false [.value, .flowEntry, .flowSequenceEnd]
      if isMissing then drop
      let value ← valueUnless fuel false [.flowEntry, .flowSequenceEnd]
      flowItems fuel (.mapping none [(key, value)] :: before)
    else
      let item ← node fuel false false
      flowItems fuel (item :: before)

/-- Reads the entries of a flow mapping.  A node that is no key has nothing as its value. -/
def flowEntries : (fuel : Nat) → (before : List (Draft × Draft)) → Reader (List (Draft × Draft))
  | 0, _ => throw "nested too deeply"
  | fuel + 1, before => do
    if ← accept .flowMappingEnd then return before.reverse
    if !before.isEmpty then
      if !(← accept .flowEntry) then throw "did not find expected ',' or '\x7d'"
    if ← accept .flowMappingEnd then return before.reverse
    if ← accept .key then
      let key ← nodeUnless fuel false false [.value, .flowEntry, .flowMappingEnd]
      let value ← valueUnless fuel false [.flowEntry, .flowMappingEnd]
      flowEntries fuel ((key, value) :: before)
    else
      let key ← node fuel false false
      flowEntries fuel ((key, null) :: before)

end

/-- Reads a directive if one is ahead. -/
def directive? : Reader (Option Token) := do
  match ← peek with
  | some (.version major minor) => drop; return some (.version major minor)
  | some (.tagHandle handle start) => drop; return some (.tagHandle handle start)
  | _ => return none

/-- Reads the directives before a document: at most one version, which must be known, and what tag
handles stand for, each at most once. -/
def directives : (fuel : Nat) → (versionSeen : Bool) → Reader Unit
  | 0, _ => throw "nested too deeply"
  | fuel + 1, versionSeen => do
    match ← directive? with
    | some (.version major minor) =>
      if versionSeen then throw "found duplicate %YAML directive"
      if major ≠ 1 || (minor ≠ 1 && minor ≠ 2) then throw "found incompatible YAML document"
      directives fuel true
    | some (.tagHandle handle start) =>
      if ((← get).handles.lookup handle).isSome then throw "found duplicate %TAG directive"
      modify fun progress => { progress with handles := (handle, start) :: progress.handles }
      directives fuel versionSeen
    | _ => return

/-- Reads a document, and the marks behind it. -/
def document : Reader Draft := do
  let tokens := (← get).tokens
  let fuel := 4 * tokens.length + 8
  directives fuel false
  let isBare := (← get).tokens.length = tokens.length
  let draft ←
    if ← accept .documentStart then
      if (← peek).isNone then pure null else nodeUnless fuel true false [.documentStart, .documentEnd]
    else if !isBare then throw "did not find expected <document start>"
    else if (← peek).isNone then pure null
    else node fuel true false
  modify fun progress =>
    { progress with tokens := progress.tokens.dropWhile (· == .documentEnd) }
  return draft

end Reader

/-- Reads the tokens of one document, and gives what its aliases stand for along with it. -/
def ofTokens (tokens : List Token) : Except String (Draft × (Nat → Option Draft)) := do
  let (draft, progress) ← Reader.document.run ⟨tokens, [], [], [], []⟩
  if !progress.tokens.isEmpty then throw "more than one document"
  return (draft, fun number => (progress.holders.lookup number).bind (progress.anchored.lookup ·))

end Draft
end DecimalConformance.Yaml
