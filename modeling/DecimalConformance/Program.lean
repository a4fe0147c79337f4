import DecimalConformance.CommandLine.Usage
import DecimalConformance.Diagnostic
import DecimalConformance.Journal.Entry
import DecimalConformance.Journal.Filter
import DecimalConformance.Report
import DecimalConformance.Run

/-! The program: from a command line, the environment and the files to what is written and the
exit code.  Settings are loaded before the first source is opened, and a fault in either leaves no
report. -/
namespace DecimalConformance.Program

def started (settings : Settings) (sources : Nat) : Journal.Event :=
  ⟨.info, .program, "Starting run",
    [("dialect", .text settings.dialect.name),
     ("internal_precision", .number settings.internalPrecision), ("sources", .number sources)]⟩

/-- What comes of a command line, and the events on the way. -/
structure Course where
  events : List Journal.Event
  result : Except Fault Report

/-- Runs the sources under settled settings. -/
def runSources (settings : Settings) (files : Files) (sources : List String) : Course :=
  let run := (Run.start settings.session).paths settings.harness files sources
  ⟨started settings sources.length :: run.events.toList,
    match run.fault? with
    | some fault => .error fault
    | none => .ok ⟨run.state.counters, run.state.failures⟩⟩

/-- Follows a command line.  Without a source nothing else is looked at. -/
def follow (line : CommandLine) (environment : Environment) (files : Files) : Course :=
  if line.sources.isEmpty then ⟨[], .error (.plain .noInputs)⟩
  else
    match Settings.load files line.settingsFile environment line.overrides with
    | (events, .error fault) => ⟨events, .error fault⟩
    | (events, .ok settings) =>
      let course := runSources settings files line.sources
      { course with events := events ++ course.events }

/-! ## The journal -/

/-- The variable that overrules what the command line asks to be written. -/
def filterVariable : String := "RUST_LOG"

/-- What is written of the events: as the environment says, and if it says nothing legible, from the
level on that the command line asks for. -/
def journalFilter (line : CommandLine) (environment : Environment) : Journal.Filter :=
  ((environment.lookup filterVariable).bind Journal.Filter.ofText?).getD (.atLeast line.level)

/-- The events that are written. -/
def written (line : CommandLine) (environment : Environment) (course : Course) :
    List Journal.Event :=
  course.events.filter (journalFilter line environment).admits

/-- What the journal file gains. -/
def journalLines (line : CommandLine) (environment : Environment) (course : Course) : String :=
  String.join ((written line environment course).map fun event =>
    event.entry line.showsOrigin ++ "\n")

/-! ## The end -/

/-- What a program has written when it ends, and its exit code. -/
structure Ending where
  exitCode : Nat
  output : String
  errors : String
  deriving DecidableEq, Repr

/-- Faults are shown to programs as documents, to people as text. -/
inductive FaultForm where
  | document
  | human (color : Bool)
  deriving DecidableEq, Repr

def faultText (form : FaultForm) (fault : Fault) : String :=
  let diagnostic := Diagnostic.ofFault fault
  match form with
  | .document => diagnostic.document.write ++ "\n"
  | .human color => diagnostic.human color ++ "\n"

/-- Ends with a report or a fault.  Failed tests are no fault: the exit code is zero. -/
def conclude (json : Bool) (form : FaultForm) : Except Fault Report → Ending
  | .error fault => ⟨fault.exitCode, "", faultText form fault⟩
  | .ok report =>
    if json then ⟨0, report.document.write ++ "\n", ""⟩
    else ⟨0, report.counters.summary ++ "\n",
      String.join (report.failures.map fun record => record.summary ++ "\n")⟩

/-- Ends without following the words. -/
def refuse (refusal : CommandLine.Refusal) : Ending :=
  if refusal.isRequest then ⟨0, refusal.text, ""⟩ else ⟨2, "", refusal.text⟩

end DecimalConformance.Program
