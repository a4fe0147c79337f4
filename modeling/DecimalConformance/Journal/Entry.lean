import DecimalConformance.Document
import DecimalConformance.Journal

/-! Journal entries: events as they are written.
A journal file holds one object a line; on a terminal an entry is one line of plain text. -/
namespace DecimalConformance.Journal

/-- A value in an object. -/
def Value.quoted : Value → String
  | .text s => Document.quoted s
  | .number n => toString n

/-- A value in plain text. -/
def Value.plain : Value → String
  | .text s => s
  | .number n => toString n

namespace Event

/-- The line of a journal file. -/
def entry (showsOrigin : Bool) (event : Event) : String :=
  let member (name value : String) : String := Document.quoted name ++ ":" ++ value
  let object (members : List String) : String :=
    "\x7b" ++ String.intercalate "," members ++ "\x7d"
  let fields := member "message" (Document.quoted event.message) ::
    event.fields.map fun (name, value) => member name value.quoted
  object ([member "level" (Document.quoted event.level.label), member "fields" (object fields)] ++
    if showsOrigin then [member "target" (Document.quoted event.origin.path)] else [])

/-- The line on a terminal. -/
def line (showsOrigin : Bool) (event : Event) : String :=
  let level := event.level.label
  let width := String.ofList (List.replicate (5 - level.length) ' ')
  let origin := if showsOrigin then event.origin.path ++ ": " else ""
  let fields := event.fields.map fun (name, value) => s!" {name}={value.plain}"
  s!"{width}{level} {origin}{event.message}{String.join fields}"

end Event
end DecimalConformance.Journal
