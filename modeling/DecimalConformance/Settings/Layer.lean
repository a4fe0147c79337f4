import DecimalConformance.Environment
import DecimalConformance.Fault
import DecimalConformance.Text.Blank
import DecimalConformance.Text.Lowercase
import DecimalConformance.Yaml.Expansion

/-! Layers of settings: texts under normalized keys.
Layers are merged from the lowest precedence to the highest; the last value of a key wins. -/
namespace DecimalConformance

/-- A key as it is stored: trimmed, in lower case, words joined by hyphens. -/
def normalizeKey (key : String) : String :=
  String.ofList ((Text.lowercase (Text.trim key)).toList.map fun c => if c = '_' then '-' else c)

/-- Values under normalized keys, each key at most once. -/
structure Layer where
  entries : List (String × String)
  deriving DecidableEq, Repr

namespace Layer

def empty : Layer := ⟨[]⟩

/-- Sets the value of a key that is already normalized. -/
def set (layer : Layer) (key value : String) : Layer :=
  ⟨layer.entries.filter (·.1 ≠ key) ++ [(key, value)]⟩

/-- Sets the value of a key, however it is spelled. -/
def insert (layer : Layer) (key value : String) : Layer := layer.set (normalizeKey key) value

/-- The value of a key, however it is spelled. -/
def get? (layer : Layer) (key : String) : Option String := layer.entries.lookup (normalizeKey key)

/-- Lays another layer on top. -/
def merge (lower upper : Layer) : Layer :=
  upper.entries.foldl (fun layer (key, value) => layer.set key value) lower

/-- Merges layers given in ascending precedence. -/
def mergeAll (layers : List Layer) : Layer := layers.foldl merge empty

/-- Setting a key changes the value of that key alone. -/
theorem lookup_set (layer : Layer) (key value other : String) :
    (layer.set key value).entries.lookup other =
      if other = key then some value else layer.entries.lookup other := by
  obtain ⟨entries⟩ := layer
  by_cases h : other = key
  · subst h
    have hn : (entries.filter fun entry => entry.1 ≠ other).lookup other = none := by
      simp only [List.lookup_eq_none_iff, List.mem_filter]
      grind
    simp only [set, List.lookup_append, hn, Option.none_or, List.lookup_cons, beq_self_eq_true,
      if_true]
  · have hb : (other == key) = false := beq_eq_false_iff_ne.mpr h
    simp only [set, List.lookup_append, List.lookup_cons, hb, h, if_false, List.lookup_nil,
      Option.or_none]
    induction entries with
    | nil => rfl
    | cons entry rest ih => grind

/-- Every key is found under each of its spellings. -/
theorem get?_insert (layer : Layer) (key value other : String) :
    (layer.insert key value).get? other =
      if normalizeKey other = normalizeKey key then some value else layer.get? other :=
  lookup_set layer (normalizeKey key) value (normalizeKey other)

@[simp] theorem get?_empty (key : String) : empty.get? key = none := rfl

@[simp] theorem merge_empty (layer : Layer) : layer.merge empty = layer := rfl

/-- Names of environment variables that hold settings start so. -/
def variableHead : String := "DECTEST_"

/-- The layer of the environment. -/
def ofVariables (environment : Environment) : Layer :=
  environment.foldl (fun layer (name, value) =>
    match Text.after? variableHead name with
    | some key => layer.insert key value
    | none => layer) empty

/-- The text of a scalar; nothing, sequences and mappings have none. -/
def scalarText? : Yaml.Node → Option String
  | .scalar (.bool value) => some (if value then "true" else "false")
  | .scalar (.number text) | .scalar (.text text) => some text
  | .tagged _ node => scalarText? node
  | .scalar .null | .sequence _ | .mapping _ => none

/-- The text of a key, if it is one. -/
def keyText? (key : Yaml.Node) : Option String :=
  match key.untagged with
  | .scalar (.text text) => some text
  | _ => none

/-- The layer of a settings file. -/
def ofYaml (text : String) : Except Fault Layer :=
  match Yaml.Node.ofText text with
  | .error reason => .error (.plain (.settingsSyntax reason))
  | .ok (.scalar .null) => .ok empty
  | .ok (.mapping entries) => .ok (entries.foldl (fun layer (key, value) =>
      match keyText? key, scalarText? value with
      | some name, some text => layer.insert name text
      | _, _ => layer) empty)
  | .ok _ => .error (.plain (.settings "config file must be a mapping of keys to values"))

end Layer
end DecimalConformance
