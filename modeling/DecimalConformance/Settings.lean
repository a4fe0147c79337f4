import DecimalConformance.Engine.Standard
import DecimalConformance.Files
import DecimalConformance.Journal
import DecimalConformance.Settings.Layer

/-! Settings of a run: the dialect, the internal precision and where the session starts.
Defaults are overruled by the settings file, that by the environment, and that by the command line. -/
namespace DecimalConformance

/-- Settings that the engine can honour. -/
structure Settings where
  dialect : Dialect
  internalPrecision : Nat
  /-- The precision of the session before the first directive. -/
  precision : Nat
  /-- The rounding of the session before the first directive. -/
  rounding : RoundingMode
  roundingToken : String
  deriving DecidableEq, Repr

/-- What the command line may overrule. -/
structure Overrides where
  dialect : Option Dialect
  internalPrecision : Option Nat
  deriving DecidableEq, Repr

namespace Settings

def dialectKey : String := "dialect"

def internalPrecisionKey : String := "internal-precision"

def precisionKey : String := "precision"

def roundingKey : String := "rounding"

/-- The keys with a meaning; others are ignored. -/
def knownKeys : List String := [dialectKey, internalPrecisionKey, precisionKey, roundingKey]

def defaults : Settings := ⟨.fixed, Engine.defaultPrecision, 0, .nearestEven, "half_even"⟩

def defaultLayer : Layer :=
  (((Layer.empty.insert dialectKey defaults.dialect.name).insert internalPrecisionKey
    (toString defaults.internalPrecision)).insert precisionKey
    (toString defaults.precision)).insert roundingKey defaults.roundingToken

def refused (reason : String) : Fault := .plain (.settings reason)

/-- The value of a key that must be there. -/
def require (layer : Layer) (key : String) : Except Fault String :=
  match layer.get? key with
  | some value => .ok value
  | none => .error (refused s!"missing config value '{key}'")

/-- The number under a key. -/
def requirePrecision (layer : Layer) (key : String) : Except Fault Nat := do
  let value ← require layer key
  match Text.natural? Decimal.precisionMax (Text.trim value) with
  | some n => return n
  | none => .error (refused s!"'{key}' must be a non-negative integer, got '{value}'")

/-- Settles a merged layer; the first key that is missing or wrong is reported. -/
def ofLayer (layer : Layer) : Except Fault Settings := do
  let dialect ← Dialect.ofName (← require layer dialectKey)
  let internalPrecision ← requirePrecision layer internalPrecisionKey
  if internalPrecision = 0 then .error (refused "internal-precision must be at least 1")
  let precision ← requirePrecision layer precisionKey
  let token := Text.lowercase (Text.trim (← require layer roundingKey))
  match dialect.rounding? token with
  | some (.mode rounding) => return ⟨dialect, internalPrecision, precision, rounding, token⟩
  | _ => .error (refused
      s!"rounding '{token}' is not supported by the engine under the {dialect.name} dialect")

/-- The session that a run starts from. -/
def session (settings : Settings) : Session :=
  (Session.start settings.precision settings.rounding).setRounding settings.roundingToken
    (.mode settings.rounding)

/-- The defaults are accepted, and settle to themselves. -/
theorem ofLayer_defaultLayer : ofLayer defaultLayer = .ok defaults := rfl

/-- No run starts under a rounding that the engine lacks. -/
theorem skipping_session (settings : Settings) : settings.session.skipping = false := rfl

/-- The bundled engine under these settings, and what judges its answers. -/
def harness (settings : Settings) : Harness Decimal :=
  ⟨Engine.standard settings.internalPrecision, settings.dialect, settings.internalPrecision⟩

/-! ## Loading -/

/-- The settings file that is read if none is named. -/
def defaultFile : String := "dectest.yaml"

def fileLoading (path : String) : Journal.Event :=
  ⟨.debug, .settings, "Loading config file", [("path", .text path)]⟩

def keyIgnored (key : String) : Journal.Event :=
  ⟨.warn, .settings, "Ignoring unknown config key", [("key", .text key)]⟩

/-- Settings as the journal shows them. -/
def journalText (settings : Settings) : String :=
  let dialect := match settings.dialect with
    | .fixed => "Fixed"
    | .varying => "Variable"
  s!"HarnessConfig \x7b dialect: {dialect}, internal_precision: {settings.internalPrecision}, " ++
    s!"precision: {settings.precision}, rounding: {Journal.modeText settings.rounding}, " ++
    s!"rounding_token: \"{settings.roundingToken}\" \x7d"

def resolved (settings : Settings) : Journal.Event :=
  ⟨.debug, .settings, "Resolved configuration", [("config", .text settings.journalText)]⟩

/-- The layer of a settings file, and whether there was one to read. -/
def fileLayer (path : String) (found : Found) : List Journal.Event × Except Fault Layer :=
  if found.isSomething then
    ([fileLoading path],
      match found.text with
      | .ok text => Layer.ofYaml text
      | .error reason => .error (.plain (.readFailure reason)))
  else ([], .ok .empty)

/-- The layer of the command line. -/
def overrideLayer (overrides : Overrides) : Layer :=
  let dialect := overrides.dialect.elim Layer.empty fun d => Layer.empty.insert dialectKey d.name
  overrides.internalPrecision.elim dialect fun n =>
    dialect.insert internalPrecisionKey (toString n)

/-- Settles the layers above and below a settings file, with the events on the way. -/
def settle (file : Layer) (environment : Environment) (overrides : Overrides) :
    List Journal.Event × Except Fault Settings :=
  let merged := Layer.mergeAll
    [defaultLayer, file, Layer.ofVariables environment, overrideLayer overrides]
  let unknown := (merged.entries.map Prod.fst).filter (!knownKeys.contains ·)
  let events := unknown.map keyIgnored
  match ofLayer merged with
  | .ok settings => (events ++ [resolved settings], .ok settings)
  | .error fault => (events, .error fault)

/-- Loads settings.  A file that is named must exist; the default file need not. -/
def load (files : Files) (path? : Option String) (environment : Environment)
    (overrides : Overrides) : List Journal.Event × Except Fault Settings :=
  let path := path?.getD defaultFile
  let found := files path
  if path?.isSome && !found.isSomething then
    ([], .error (refused s!"config file not found: {path}"))
  else
    let (events, file) := fileLayer path found
    match file with
    | .error fault => (events, .error fault)
    | .ok layer =>
      let (more, settings) := settle layer environment overrides
      (events ++ more, settings)

end Settings
end DecimalConformance
