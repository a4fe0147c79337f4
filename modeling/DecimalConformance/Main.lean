import DecimalConformance.Program

/-! The command line program.
It opens the journal, gathers the environment and the files that a command line names, and writes
what `Program` makes of them. -/
namespace DecimalConformance.Main

/-- The reason of a failure, as the system words it. -/
def reasonOf (error : IO.Error) : String :=
  match error with
  | .noFileOrDirectory _ code details | .permissionDenied _ code details
  | .inappropriateType _ code details | .invalidArgument _ code details
  | .resourceExhausted _ code details => s!"{details} (os error {code})"
  | other => toString other

/-- The system's number for reading a directory. -/
def directoryNumber : UInt32 := 21

/-- Looks at a path. -/
def look (path : String) : IO Found :=
  try
    let handle ← IO.FS.Handle.mk path .read
    return .file (← handle.readBinToEnd)
  catch error =>
    match error with
    | .inappropriateType _ code _ =>
      return if code = directoryNumber then .directory else .nothing (reasonOf error)
    | _ => return .nothing (reasonOf error)

/-- The files that a command line names, as they are now. -/
def gather (line : CommandLine) : IO Files := do
  let paths := line.settingsFile.getD Settings.defaultFile :: line.sources
  let found ← paths.mapM fun path => return (path, ← look path)
  return fun path => (found.lookup path).getD (.nothing Found.noSuchFile)

/-- The environment, where the system shows it as a file. -/
def environment : IO Environment := do
  match (← look "/proc/self/environ").text with
  | .ok listing => return .ofListing listing
  | .error _ => return []

/-- Opens the journal file to write at its end. -/
def openJournal (line : CommandLine) : IO (Option IO.FS.Handle) := do
  match line.journalFile with
  | none => return none
  | some path =>
    try
      return some (← IO.FS.Handle.mk path .append)
    catch error =>
      IO.eprintln s!"Failed to initialize logging: {reasonOf error}"
      return none

/-- Writes the events to the journal file if one is named, and to the error output otherwise. -/
def writeJournal (line : CommandLine) (journal? : Option IO.FS.Handle) (environment : Environment)
    (course : Program.Course) : IO Unit := do
  match line.journalFile, journal? with
  | none, _ =>
    (Program.written line environment course).forM fun event =>
      IO.eprintln (event.line line.showsOrigin)
  | some _, some journal => journal.putStr (Program.journalLines line environment course)
  | some _, none => return

def leave (ending : Program.Ending) : IO UInt32 := do
  IO.eprint ending.errors
  IO.print ending.output
  return ending.exitCode.toUInt32

/-- Follows a command line. -/
def follow (line : CommandLine) : IO UInt32 := do
  let journal? ← openJournal line
  let environment ← environment
  let course := Program.follow line environment (← gather line)
  writeJournal line journal? environment course
  let toTerminal ← (← IO.getStdout).isTty
  let form ← if line.json || !toTerminal then pure Program.FaultForm.document
    else pure (.human (← (← IO.getStderr).isTty))
  leave (Program.conclude line.json form course.result)

end DecimalConformance.Main

/-- The program, given the words behind its name. -/
def main (words : List String) : IO UInt32 :=
  match DecimalConformance.CommandLine.ofWords words with
  | .ok line => DecimalConformance.Main.follow line
  | .error refusal => DecimalConformance.Main.leave (DecimalConformance.Program.refuse refusal)
