import DecimalConformance.Yaml.Tag

/-! YAML nodes: scalars, sequences and mappings, some of them under a local tag.
The keys of a mapping differ. -/
namespace DecimalConformance.Yaml

inductive Node where
  | scalar (value : Scalar)
  | sequence (items : List Node)
  | mapping (entries : List (Node × Node))
  /-- A node under a local tag. -/
  | tagged (tag : String) (node : Node)
  deriving BEq, Repr

namespace Node

def null : Node := .scalar .null

/-- A node without its tags. -/
def untagged : Node → Node
  | tagged _ node => node.untagged
  | node => node

/-- A mapping, unless a key occurs twice. -/
def ofEntries (entries : List (Node × Node)) : Except String Node :=
  let keys := entries.map Prod.fst
  if keys.eraseDups.length = keys.length then .ok (.mapping entries)
  else .error "duplicate entry"

/-- A collection under a tag; a tag that is not local does not show. -/
def underTag (tag? : Option String) (node : Node) : Node :=
  match tag?.filter Tag.isLocal with
  | some tag => .tagged tag node
  | none => node

/-! ## Scalars -/

/-- A scalar under no tag, or a local one. -/
def plainScalar (text : String) (isPlain : Bool) : Except String Node :=
  if isPlain then (Scalar.ofPlain text).map .scalar else .ok (.scalar (.text text))

/-- A scalar under a tag that is not local: the tag decides what it is. -/
def kindScalar (tag text : String) : Except String Node :=
  let asked (scalar? : Option Scalar) : Except String Node :=
    scalar?.elim (.error s!"invalid value: {text}") fun scalar => .ok (.scalar scalar)
  if tag == Tag.core "null" then asked (Scalar.ofNull? text)
  else if tag == Tag.core "bool" then asked (Scalar.ofBool? text)
  else if tag == Tag.core "int" then do asked (← (Scalar.ofInteger? text).sequence)
  else if tag == Tag.core "float" then asked (Scalar.ofFloat? text)
  else .ok (.scalar (.text text))

/-- A scalar behind its tag. -/
def ofScalar (tag? : Option String) (text : String) (isPlain : Bool) : Except String Node :=
  match tag? with
  | none => plainScalar text isPlain
  | some tag =>
    if Tag.isLocal tag then (plainScalar text isPlain).map (.tagged tag) else kindScalar tag text

end Node
end DecimalConformance.Yaml
