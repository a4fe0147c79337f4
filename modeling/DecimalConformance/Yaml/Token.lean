/-! The tokens of a YAML text.  Indentation is no token: where a block collection starts and ends is
said by tokens of its own. -/
namespace DecimalConformance.Yaml

inductive Token where
  /-- A directive that names the version of the language. -/
  | version (major minor : Nat)
  /-- A directive that says what a tag handle stands for. -/
  | tagHandle (handle start : String)
  | documentStart | documentEnd
  | blockSequenceStart | blockMappingStart | blockEnd
  | flowSequenceStart | flowSequenceEnd | flowMappingStart | flowMappingEnd
  /-- An item of a block sequence follows. -/
  | blockEntry
  /-- A comma of a flow collection. -/
  | flowEntry
  | key | value
  | anchor (name : String)
  | alias (name : String)
  | tag (handle suffix : String)
  | scalar (text : String) (isPlain : Bool)
  deriving DecidableEq, Repr

end DecimalConformance.Yaml
