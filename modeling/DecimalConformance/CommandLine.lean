import DecimalConformance.Settings

/-! The command line.
Words are taken from left to right: long options, clusters of short options, and paths.  The value
of an option is checked when the next option or path is met, so a word that cannot be taken at all
is reported first. -/
namespace DecimalConformance

structure CommandLine where
  file : Option String
  files : List String
  dialect : Option Dialect
  internalPrecision : Option Nat
  settingsFile : Option String
  json : Bool
  verbose : Nat
  quiet : Bool
  journalFile : Option String
  deriving DecidableEq, Repr

namespace CommandLine

/-- Why a command line is not followed. -/
inductive Refusal where
  | unknownArgument
  /-- A value is missing or empty. -/
  | invalidValue
  /-- A value is not of the kind that the option takes. -/
  | valueValidation
  /-- An option that excludes another one, or that occurs twice. -/
  | argumentConflict
  /-- A value for an option that takes none. -/
  | tooManyValues
  | displayHelp
  | displayVersion
  deriving DecidableEq, Repr

/-- What a word that starts with a hyphen can name. -/
inductive Switch where
  | file | dialect | internalPrecision | settingsFile | json | verbose | quiet | journalFile
  | help | version
  deriving DecidableEq, Repr

namespace Switch

def ofLong? : String → Option Switch
  | "file" => some file
  | "dialect" => some dialect
  | "internal-precision" => some internalPrecision
  | "config" => some settingsFile
  | "json" => some json
  | "verbose" => some verbose
  | "quiet" => some quiet
  | "log-file" => some journalFile
  | "help" => some help
  | "version" => some version
  | _ => none

def ofShort? : Char → Option Switch
  | 'f' => some file
  | 'v' => some verbose
  | 'q' => some quiet
  | 'h' => some help
  | 'V' => some version
  | _ => none

def takesValue : Switch → Bool
  | file | dialect | internalPrecision | settingsFile | journalFile => true
  | json | verbose | quiet | help | version => false

end Switch

def initial : CommandLine := ⟨none, [], none, none, none, false, 0, false, none⟩

/-- A path; the empty text is none. -/
def pathValue (value : String) : Except Refusal String :=
  if value.isEmpty then .error .invalidValue else .ok value

/-- A number of digits, which may carry a sign; minus zero is zero. -/
def digitsValue (value : String) : Except Refusal Nat :=
  let digits? := match value.toList with
    | '-' :: digits => (Text.readNumeral 0 digits).toOption
    | _ => Text.natural? Decimal.precisionMax value
  digits?.elim (.error .valueValidation) .ok

/-- Takes the value of an option, which must not have one yet. -/
def takeValue (line : CommandLine) (switch : Switch) (value : String) :
    Except Refusal CommandLine := do
  let unset (present : Bool) : Except Refusal Unit :=
    if present then .error .argumentConflict else .ok ()
  match switch with
  | .file =>
    unset line.file.isSome
    return { line with file := some (← pathValue value) }
  | .settingsFile =>
    unset line.settingsFile.isSome
    return { line with settingsFile := some (← pathValue value) }
  | .journalFile =>
    unset line.journalFile.isSome
    return { line with journalFile := some (← pathValue value) }
  | .dialect =>
    unset line.dialect.isSome
    match Dialect.ofName value with
    | .ok dialect => return { line with dialect := some dialect }
    | .error _ => .error .valueValidation
  | .internalPrecision =>
    unset line.internalPrecision.isSome
    return { line with internalPrecision := some (← digitsValue value) }
  | .json | .verbose | .quiet | .help | .version => .error .tooManyValues

/-- Takes an option without a value. -/
def takeBare (line : CommandLine) (switch : Switch) : Except Refusal CommandLine :=
  match switch with
  | .json => if line.json then .error .argumentConflict else .ok { line with json := true }
  | .quiet => if line.quiet then .error .argumentConflict else .ok { line with quiet := true }
  | .verbose => .ok { line with verbose := min 255 (line.verbose + 1) }
  | .help => .error .displayHelp
  | .version => .error .displayVersion
  | .file | .dialect | .internalPrecision | .settingsFile | .journalFile => .error .invalidValue

/-- Words read but not yet checked. -/
inductive Pending where
  | nothing
  | switch (switch : Switch) (value : Option String)
  | paths (paths : List String)
  deriving DecidableEq, Repr

/-- A command line under way. -/
structure Progress where
  line : CommandLine
  pending : Pending
  /-- Behind a double hyphen every word is a path. -/
  pathsOnly : Bool
  deriving DecidableEq, Repr

namespace Progress

/-- Checks and takes what is pending. -/
def resolve (progress : Progress) : Except Refusal Progress := do
  let line ← match progress.pending with
    | .nothing => .ok progress.line
    | .switch switch (some value) => progress.line.takeValue switch value
    | .switch _ none => .error .invalidValue
    | .paths paths => do
      let paths ← paths.mapM pathValue
      .ok { progress.line with files := progress.line.files ++ paths }
  return { progress with line, pending := .nothing }

/-- Takes an option with the value attached to it, if any. -/
def switch (progress : Progress) (switch : Switch) (attached : Option String) :
    Except Refusal Progress := do
  if switch.takesValue then
    let resolved ← progress.resolve
    match attached with
    | some value => return { resolved with line := ← resolved.line.takeValue switch value }
    | none => return { resolved with pending := .switch switch none }
  else if attached.isSome then .error .tooManyValues
  else
    let resolved ← progress.resolve
    return { resolved with line := ← resolved.line.takeBare switch }

/-- Takes a cluster of short options; what follows one with a value is the value. -/
def cluster (progress : Progress) : List Char → Except Refusal Progress
  | [] => .ok progress
  | c :: rest =>
    match Switch.ofShort? c with
    | none => .error .unknownArgument
    | some switch =>
      if switch.takesValue then
        let attached := match rest with
          | [] => none
          | '=' :: value => some (String.ofList value)
          | value => some (String.ofList value)
        progress.switch switch attached
      else do
        let next ← progress.switch switch none
        next.cluster rest

/-- Takes a path. -/
def path (progress : Progress) (word : String) : Except Refusal Progress :=
  match progress.pending with
  | .paths paths => .ok { progress with pending := .paths (paths ++ [word]) }
  | _ => progress.resolve.map fun resolved => { resolved with pending := .paths [word] }

/-- Takes a word that does not start with a hyphen, or a hyphen alone. -/
def plain (progress : Progress) (word : String) : Except Refusal Progress :=
  match progress.pending with
  | .switch switch none => .ok { progress with pending := .switch switch (some word) }
  | _ => progress.path word

/-- Takes a long option, given what follows its two hyphens. -/
def long (progress : Progress) (cs : List Char) : Except Refusal Progress :=
  let name := cs.takeWhile (· != '=')
  let attached := match cs.dropWhile (· != '=') with
    | [] => none
    | _ :: value => some (String.ofList value)
  match Switch.ofLong? (String.ofList name) with
  | none => .error .unknownArgument
  | some switch => progress.switch switch attached

/-- Takes one word. -/
def word (progress : Progress) (word : String) : Except Refusal Progress :=
  if progress.pathsOnly then progress.path word
  else match word.toList with
    | ['-', '-'] => .ok { progress with pathsOnly := true }
    | '-' :: '-' :: rest => progress.long rest
    | '-' :: c :: rest => progress.cluster (c :: rest)
    | _ => progress.plain word

end Progress

/-- Reads the words behind the name of the program. -/
def ofWords (words : List String) : Except Refusal CommandLine := do
  let progress ← words.foldlM Progress.word ⟨initial, .nothing, false⟩
  let line := (← progress.resolve).line
  if line.quiet ∧ 0 < line.verbose then .error .argumentConflict
  return line

/-- The sources in the order in which they are taken: the named file, then the paths. -/
def sources (line : CommandLine) : List String := line.file.toList ++ line.files

def overrides (line : CommandLine) : Overrides := ⟨line.dialect, line.internalPrecision⟩

/-- The least level of events that are written. -/
def level (line : CommandLine) : Journal.Level :=
  if line.quiet then .error
  else match line.verbose with
    | 0 => .warn
    | 1 => .info
    | 2 => .debug
    | _ => .trace

/-- Whether events show the part of the program that they come from. -/
def showsOrigin (line : CommandLine) : Bool := 2 ≤ line.verbose

end CommandLine
end DecimalConformance
