import DecimalConformance.Files
import DecimalConformance.Journal
import DecimalConformance.Script.Line

/-! Runs: every line of every source goes through one session, in order.
The first fault ends the run; it carries the source and the number of the line. -/
namespace DecimalConformance

/-- What a run has gathered so far. -/
structure RunState where
  session : Session
  counters : Counters
  /-- The failed tests in the order of their lines. -/
  failures : List FailureRecord
  deriving DecidableEq, Repr

def RunState.start (session : Session) : RunState := ⟨session, .zero, []⟩

/-- What one line did.  The state counts even if the line raised a fault. -/
structure Step (Value : Type) where
  state : RunState
  calls : List (Call Value)
  events : List Journal.Event
  fault? : Option Fault

namespace Harness

variable {Value : Type} (harness : Harness Value)

/-- Scores a test line: it is begun, evaluated, and counted unless it raised a fault. -/
def processTest (state : RunState) (line : String) : Step Value :=
  let evaluated := harness.evaluate state.session line
  let begun := { state with counters := state.counters.begin }
  match evaluated.answer with
  | .error fault => ⟨begun, evaluated.calls, [], some fault⟩
  | .ok verdict =>
    let outcome := verdict.outcome state.session line
    let failures := match outcome with
      | .failed record => state.failures ++ [record]
      | _ => state.failures
    ⟨⟨state.session, begun.counters.record outcome, failures⟩, evaluated.calls,
      Journal.test state.session line verdict, none⟩

/-- Interprets one raw line. -/
def process (state : RunState) (raw : String) : Step Value :=
  match Script.classify (Script.normalize raw) with
  | .blank | .comment => ⟨state, [], [], none⟩
  | .ignored keyword => ⟨state, [], [Journal.ignoredDirective keyword], none⟩
  | .precision text =>
    match Script.parsePrecision text with
    | .error fault => ⟨state, [], [], some fault⟩
    | .ok precision =>
      ⟨{ state with session := state.session.setPrecision precision }, [],
        [Journal.precisionChanged precision], none⟩
  | .rounding text =>
    match Script.parseRounding harness.dialect text with
    | .error fault => ⟨state, [], [], some fault⟩
    | .ok (token, directive) =>
      ⟨{ state with session := state.session.setRounding token directive }, [],
        [Journal.roundingChanged token directive], none⟩
  | .test text => harness.processTest state text

end Harness

/-- A run under way, or ended by a fault. -/
structure Run (Value : Type) where
  state : RunState
  /-- Every call of the engine so far. -/
  calls : Array (Call Value)
  events : Array Journal.Event
  fault? : Option Fault
  /-- How many sources are done. -/
  finished : Nat

namespace Run

variable {Value : Type}

def start (session : Session) : Run Value := ⟨.start session, #[], #[], none, 0⟩

/-- Ends the run by a fault. -/
def fail (run : Run Value) (fault : Fault) : Run Value := { run with fault? := some fault }

def note (run : Run Value) (event : Journal.Event) : Run Value :=
  { run with events := run.events.push event }

/-- Where a fault is met: the source and the number of the line, from one. -/
def location (source : String) (number : Nat) : String := s!"{source}:{number}"

/-- Takes one line of a source, or the reason why it cannot be read. -/
def line (harness : Harness Value) (place : String) (run : Run Value) :
    Except String String → Run Value
  | .error reason => run.fail (.within place (.plain (.readFailure reason)))
  | .ok text =>
    let step := harness.process run.state text
    { run with
      state := step.state
      calls := run.calls ++ step.calls
      events := run.events ++ step.events
      fault? := step.fault?.map (.within place) }

/-- Takes the lines of a source from `number` on, up to the first fault. -/
def lines (harness : Harness Value) (source : String) (number : Nat) (run : Run Value) :
    List (Except String String) → Run Value
  | [] => run
  | first :: rest =>
    let next := run.line harness (location source number) first
    if next.fault?.isSome then next else lines harness source (number + 1) next rest

/-- Takes a whole source. -/
def source (harness : Harness Value) (name : String) (run : Run Value)
    (content : List (Except String String)) : Run Value :=
  run.lines harness name 1 content

/-- Opens a path and takes what is found there. -/
def path (harness : Harness Value) (files : Files) (run : Run Value) (path : String) : Run Value :=
  match (files path).lines with
  | .error reason => run.fail (.plain (.sourceUnreadable path reason))
  | .ok content =>
    let before := run.state.counters
    let done := (run.note (Journal.sourceOpened path)).source harness path content
    if done.fault?.isSome then done
    else
      let after := done.state.counters
      { done.note (Journal.sourceFinished path (after.total - before.total)
          (after.failed - before.failed)) with finished := done.finished + 1 }

/-- Takes paths in order, up to the first fault. -/
def paths (harness : Harness Value) (files : Files) (run : Run Value) : List String → Run Value
  | [] => run
  | first :: rest =>
    let next := run.path harness files first
    if next.fault?.isSome then next else paths harness files next rest

/-- Takes named sources in order, up to the first fault. -/
def sources (harness : Harness Value) (run : Run Value) :
    List (String × List (Except String String)) → Run Value
  | [] => run
  | (name, content) :: rest =>
    let next := run.source harness name content
    if next.fault?.isSome then next else sources harness next rest

end Run
end DecimalConformance
