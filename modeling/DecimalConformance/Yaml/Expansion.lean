import DecimalConformance.Yaml.Draft

/-! What a YAML text says: its draft, with the nodes that aliases stand for in their places.
An alias may lie inside the node that it stands for, so there are limits: on how deep collections
nest, and on how often aliases are followed. -/
namespace DecimalConformance.Yaml

/-- How many collections may lie around each other. -/
def depthMax : Nat := 128

/-- How often aliases may be followed, for each step of the draft. -/
def followsPerStep : Nat := 100

namespace Draft

/-- Steps that count how often aliases may still be followed. -/
abbrev Expander := StateT Nat (Except String)

/-- The draft that an alias stands for, and any other draft as it is. -/
def follow (anchored : Nat → Option Draft) : Draft → Expander Draft
  | .alias number => do
    let follows ← get
    if follows = 0 then throw "repetition limit exceeded"
    set (follows - 1)
    match anchored number with
    | some draft => return draft
    | none => throw "unknown anchor"
  | draft => return draft

/-- The node that a draft stands for, in which collections may nest `levels` deep. -/
def expand (anchored : Nat → Option Draft) : (levels : Nat) → Draft → Expander Node
  | 0, draft => do
    match ← draft.follow anchored with
    | .scalar node => return node
    | _ => throw "recursion limit exceeded"
  | levels + 1, draft => do
    match ← draft.follow anchored with
    | .scalar node => return node
    | .sequence tag? items =>
      return .underTag tag? (.sequence (← items.mapM (expand anchored levels)))
    | .mapping tag? entries =>
      let entries ← entries.mapM fun (key, value) =>
        return (← expand anchored levels key, ← expand anchored levels value)
      return .underTag tag? (← Node.ofEntries entries)
    | .alias _ => throw "unknown anchor"

end Draft

/-- Reads a text that holds at most one document. -/
def Node.ofText (text : String) : Except String Node := do
  let (draft, anchored) ← Draft.ofTokens (← tokens text)
  let (node, _) ← (draft.expand anchored depthMax).run (followsPerStep * draft.size)
  return node

end DecimalConformance.Yaml
