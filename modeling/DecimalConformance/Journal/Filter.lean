import DecimalConformance.Journal
import DecimalConformance.Text.Blank
import DecimalConformance.Text.Numeral

/-! Journal filters: which events are written.
A filter is a list of directives.  The most specific directive that holds for an event decides by
its level; an event for which none holds is not written. -/
namespace DecimalConformance.Journal

/-- How much is written. -/
inductive Threshold where
  | silent
  | atLeast (level : Level)
  deriving DecidableEq, Repr

namespace Threshold

def admits : Threshold → Level → Bool
  | silent, _ => false
  | atLeast least, level => least.rank ≤ level.rank

/-- A threshold by its number, from silence on. -/
def ofNumber? : Nat → Option Threshold
  | 0 => some silent
  | 1 => some (atLeast .error)
  | 2 => some (atLeast .warn)
  | 3 => some (atLeast .info)
  | 4 => some (atLeast .debug)
  | 5 => some (atLeast .trace)
  | _ => none

def ofName? : String → Option Threshold
  | "off" => some silent
  | "error" => some (atLeast .error)
  | "warn" => some (atLeast .warn)
  | "info" => some (atLeast .info)
  | "debug" => some (atLeast .debug)
  | "trace" => some (atLeast .trace)
  | _ => none

/-- A threshold by its number or its name, in letters of either case. -/
def ofText? (text : String) : Option Threshold :=
  match Text.natural? (Nat.pow 2 64 - 1) text with
  | some n => ofNumber? n
  | none => ofName? text.toLower

/-- Everything is written. -/
def everything : Threshold := atLeast .trace

end Threshold

/-- A threshold for some events. -/
structure Directive where
  /-- It holds for origins whose path starts so. -/
  origin? : Option String
  /-- It holds inside spans of this name. -/
  span? : Option String
  /-- It holds for events that have this field. -/
  field? : Option String
  /-- It holds inside spans in which the field has this value. -/
  value? : Option String
  threshold : Threshold
  deriving DecidableEq, Repr

namespace Directive

/-- A directive for all events. -/
def general (threshold : Threshold) : Directive := ⟨none, none, none, none, threshold⟩

/-- Whether an event has a field; the message is one. -/
def hasField (event : Event) (name : String) : Bool :=
  name == "message" || event.fields.any (·.1 == name)

/-- Whether a directive holds for an event.  No event lies inside a span. -/
def holdsFor (directive : Directive) (event : Event) : Bool :=
  directive.span?.isNone && directive.value?.isNone &&
    directive.origin?.all (event.origin.path.startsWith ·) && directive.field?.all (hasField event)

/-- How specific a directive is: by the length of its origin, and then by its field. -/
def isMoreSpecific (first second : Directive) : Bool :=
  let size (directive : Directive) : Nat :=
    directive.origin?.elim 0 fun origin => origin.utf8ByteSize + 1
  let field (directive : Directive) : List Char := directive.field?.elim [] String.toList
  size second < size first ||
    (size second = size first && decide (field second < field first))

/-- Whether two directives hold for the same events. -/
def hasScopeOf (first second : Directive) : Bool :=
  { first with threshold := .silent } == { second with threshold := .silent }

/-- Whether the name of an origin may start so.  Beyond ASCII every character may. -/
def startsOrigin (c : Char) : Bool :=
  c.isAlphanum || c == '-' || c == ':' || c == '_' || 128 ≤ c.toNat

/-- The threshold behind a scope; none at all is everything. -/
def thresholdBehind? : List Char → Option Threshold
  | [] => some .everything
  | ['='] => some .everything
  | '=' :: level => Threshold.ofText? (String.ofList level)
  | _ => none

/-- A directive from the span in brackets behind an origin, from behind the opening bracket. -/
def ofSpan? (origin? : Option String) (text : List Char) : Option Directive := do
  let name := text.takeWhile fun c => c ≠ ']' && c ≠ '\x7b'
  match text.drop name.length with
  | ']' :: behind =>
    return ⟨origin?, some (String.ofList name), none, none, ← thresholdBehind? behind⟩
  | '\x7b' :: inner =>
    let span? := if name.isEmpty then none else some (String.ofList name)
    match inner.takeWhile (· ≠ '\x7d'), inner.dropWhile (· ≠ '\x7d') with
    | c :: field, '\x7d' :: ']' :: behind =>
      let value? := match (c :: field).dropWhile (· ≠ '=') with
        | [] => none
        | _ :: value => some (String.ofList (value.takeWhile (· ≠ '=')))
      return ⟨origin?, span?, some (String.ofList ((c :: field).takeWhile (· ≠ '='))), value?,
        ← thresholdBehind? behind⟩
    | _, _ => none
  | _ => none

/-- A directive as it is written: a threshold alone, or an origin, a span in brackets or both, with a
threshold behind an equals sign.  Blanks around it belong to the name of an origin, and leave no
threshold legible. -/
def ofText? (raw : String) : Option Directive :=
  let text := Text.trim raw
  match text.toList with
  | [] => none
  | '[' :: span => ofSpan? none span
  | c :: rest =>
    let origin := (c :: rest).takeWhile fun c => c ≠ '=' && c ≠ '['
    if !startsOrigin c then none
    else
      match (c :: rest).drop origin.length with
      | [] =>
        match Threshold.ofText? raw with
        | some threshold => some (general threshold)
        | none => some { general .everything with origin? := some raw }
      | '[' :: span => ofSpan? (some (String.ofList origin)) span
      | behind =>
        if text ≠ raw then none
        else do
          return { general (← thresholdBehind? behind) with
            origin? := some (String.ofList origin) }

end Directive

/-- Directives, the most specific first, no two of them for the same events. -/
structure Filter where
  directives : List Directive
  deriving DecidableEq, Repr

namespace Filter

/-- Puts a directive where it belongs. -/
def place (directive : Directive) : List Directive → List Directive
  | [] => [directive]
  | other :: rest =>
    if directive.hasScopeOf other then directive :: rest
    else if directive.isMoreSpecific other then directive :: other :: rest
    else other :: place directive rest

def ofDirectives (directives : List Directive) : Filter :=
  ⟨directives.foldl (fun placed directive => place directive placed) []⟩

/-- The events from a level on. -/
def atLeast (level : Level) : Filter := ofDirectives [.general (.atLeast level)]

/-- A filter as it is written: directives between commas.  One that is wrong spoils the filter. -/
def ofText? (text : String) : Option Filter :=
  (((text.splitOn ",").filter (!·.isEmpty)).mapM Directive.ofText?).map ofDirectives

/-- Whether an event is written. -/
def admits (filter : Filter) (event : Event) : Bool :=
  match filter.directives.find? (·.holdsFor event) with
  | some directive => directive.threshold.admits event.level
  | none => false

end Filter
end DecimalConformance.Journal
