import DecimalConformance.Run
import Mathlib.Data.List.Count

/-! The ledger of a run: its test lines in order, each with what became of it.
Counters and failures are read off the ledger.  A line that is no test leaves both alone, and a test
that raises a fault is begun but never ended. -/
namespace DecimalConformance

/-- Whether a raw line is a test line. -/
def Script.isTest (raw : String) : Bool :=
  match classify (normalize raw) with
  | .test _ => true
  | _ => false

/-- The record that a failed test leaves. -/
def Outcome.failure? : Outcome → Option FailureRecord
  | .failed record => some record
  | .passed | .skipped _ => none

theorem Verdict.record_of_failure?_outcome {session : Session} {line : String} (verdict : Verdict)
    {record : FailureRecord} (h : (verdict.outcome session line).failure? = some record) :
    record.line = line ∧ record.precision = session.precision ∧
      record.rounding = session.declared := by
  cases verdict with
  | skipped reason => cases h
  | compared comparison =>
    rw [outcome] at h
    split at h
    · cases h
    · obtain rfl := Option.some.inj h
      exact ⟨rfl, rfl, rfl⟩

/-- A test line, trimmed and in lower case, and the fault it raised or its outcome. -/
structure Entry where
  line : String
  result : Except Fault Outcome

namespace Entry

/-- The record of a failed test. -/
def failure? (entry : Entry) : Option FailureRecord := entry.result.toOption.bind Outcome.failure?

/-- Whether the test raised a fault. -/
def isFault (entry : Entry) : Bool := entry.result.toOption.isNone

/-- The counters after the test. -/
def count (counters : Counters) (entry : Entry) : Counters :=
  match entry.result with
  | .error _ => counters.begin
  | .ok outcome => counters.begin.record outcome

end Entry

namespace Harness

variable {Value : Type} (harness : Harness Value)

/-- The entry of a raw line, if it is a test line. -/
def entryOf (session : Session) (raw : String) : Option Entry :=
  match Script.classify (Script.normalize raw) with
  | .test text =>
    some ⟨text, (harness.evaluate session text).answer.map (Verdict.outcome session text)⟩
  | _ => none

/-- The state after lines that are fed one after the other, past any fault. -/
def after (state : RunState) (lines : List String) : RunState :=
  lines.foldl (fun state raw => (harness.process state raw).state) state

@[simp] theorem after_nil (state : RunState) : harness.after state [] = state := rfl

@[simp] theorem after_cons (state : RunState) (raw : String) (rest : List String) :
    harness.after state (raw :: rest) = harness.after (harness.process state raw).state rest := by
  rw [after, after, List.foldl_cons]

@[simp] theorem after_append (state : RunState) (front behind : List String) :
    harness.after state (front ++ behind) = harness.after (harness.after state front) behind :=
  List.foldl_append

/-- The entries of the test lines among lines that are fed one after the other. -/
def ledger (state : RunState) : List String → List Entry
  | [] => []
  | raw :: rest =>
    (harness.entryOf state.session raw).toList ++ ledger (harness.process state raw).state rest

@[simp] theorem ledger_append (state : RunState) (front behind : List String) :
    harness.ledger state (front ++ behind) =
      harness.ledger state front ++ harness.ledger (harness.after state front) behind := by
  induction front generalizing state with
  | nil => rfl
  | cons raw rest ih => simp only [List.cons_append, ledger, ih, after_cons, List.append_assoc]

/-! ## One line -/

private theorem text_of_classify {line text : String} (h : Script.classify line = .test text) :
    text = line := by
  unfold Script.classify at h
  split at h
  · cases h
  · split at h
    · cases h
    · split at h
      · cases h
      · split at h
        · cases h
        · split at h
          · cases h
          · exact (Script.Line.test.inj h).symm

/-- A line has an entry exactly if it is a test line, and the entry holds its normalized text. -/
theorem isSome_entryOf (session : Session) (raw : String) :
    (harness.entryOf session raw).isSome = Script.isTest raw := by
  unfold entryOf Script.isTest
  split <;> simp_all

theorem line_of_entryOf {session : Session} {raw : String} {entry : Entry}
    (h : harness.entryOf session raw = some entry) : entry.line = Script.normalize raw := by
  unfold entryOf at h
  split at h
  · next text test =>
    obtain rfl := Option.some.inj h
    exact text_of_classify test
  · cases h

/-- The record of a failure holds its line, and the session that the line was judged in. -/
theorem record_of_failure? {session : Session} {raw : String} {entry : Entry}
    {record : FailureRecord} (h : harness.entryOf session raw = some entry)
    (failed : entry.failure? = some record) :
    record.line = entry.line ∧ record.precision = session.precision ∧
      record.rounding = session.declared := by
  unfold entryOf at h
  split at h
  · next text test =>
    obtain rfl := Option.some.inj h
    cases evaluated : (harness.evaluate session text).answer with
    | error fault => simp [Entry.failure?, evaluated, Except.map, Except.toOption] at failed
    | ok verdict =>
      simp only [Entry.failure?, evaluated, Except.map, Except.toOption, Option.bind_some] at failed
      exact verdict.record_of_failure?_outcome failed
  · cases h

/-- A line that is no test leaves counters and failures alone. -/
theorem process_of_entryOf_none {state : RunState} {raw : String}
    (h : harness.entryOf state.session raw = none) :
    (harness.process state raw).state.counters = state.counters ∧
      (harness.process state raw).state.failures = state.failures := by
  unfold entryOf at h
  unfold process
  split at h
  · cases h
  · next other =>
    split
    · exact ⟨rfl, rfl⟩
    · exact ⟨rfl, rfl⟩
    · exact ⟨rfl, rfl⟩
    · split <;> exact ⟨rfl, rfl⟩
    · split <;> exact ⟨rfl, rfl⟩
    · next text test => exact absurd test (other text)

/-- A test line is counted, its failure is recorded last, and its fault is raised. -/
theorem process_of_entryOf_some {state : RunState} {raw : String} {entry : Entry}
    (h : harness.entryOf state.session raw = some entry) :
    (harness.process state raw).state =
        ⟨state.session, entry.count state.counters, state.failures ++ entry.failure?.toList⟩ ∧
      (harness.process state raw).fault?.isSome = entry.isFault := by
  unfold entryOf at h
  unfold process
  split at h
  · next text test =>
    obtain rfl := Option.some.inj h
    rw [test]
    simp only [processTest]
    cases evaluated : (harness.evaluate state.session text).answer with
    | error fault => simp [Entry.count, Entry.failure?, Entry.isFault, Except.map, Except.toOption]
    | ok verdict =>
      cases scored : verdict.outcome state.session text <;>
        simp [Entry.count, Entry.failure?, Entry.isFault, Except.map, Except.toOption,
          Outcome.failure?, scored]
  · cases h

/-! ## Every line so far -/

/-- What counters and failures say about the entries they come from. -/
structure Accounts (entries : List Entry) (state : RunState) : Prop where
  total : state.counters.total = entries.length
  ended : state.counters.total = state.counters.succeeded + state.counters.failed +
    state.counters.skipped + entries.countP Entry.isFault
  failed : state.counters.failed = state.failures.length
  failures : state.failures = entries.filterMap Entry.failure?

/-- The accounts after one more test. -/
private theorem Accounts.push {entries : List Entry} {state : RunState} (h : Accounts entries state)
    (entry : Entry) : Accounts (entries ++ [entry])
      ⟨state.session, entry.count state.counters, state.failures ++ entry.failure?.toList⟩ := by
  obtain ⟨total, ended, failed, failures⟩ := h
  obtain ⟨line, fault | outcome⟩ := entry
  · refine ⟨?_, ?_, ?_, ?_⟩
    · simp [Entry.count, Counters.begin, total]
    · simp only [Entry.count, Counters.begin, List.countP_append, List.countP_singleton,
        Entry.isFault, Except.toOption, Option.isNone_none, if_true]
      omega
    · simpa [Entry.count, Counters.begin, Entry.failure?, Except.toOption] using failed
    · simp [Entry.failure?, Except.toOption, failures]
  · refine ⟨?_, ?_, ?_, ?_⟩
    · cases outcome <;> simp [Entry.count, Counters.begin, Counters.record, total]
    · cases outcome <;>
        simp only [Entry.count, Counters.begin, Counters.record, List.countP_append,
          List.countP_singleton, Entry.isFault, Except.toOption, Option.isNone_some,
          Bool.false_eq_true, if_false] <;> omega
    · cases outcome <;>
        simp [Entry.count, Counters.begin, Counters.record, Entry.failure?, Except.toOption,
          Outcome.failure?, failed]
    · cases outcome <;> simp [Entry.failure?, Except.toOption, Outcome.failure?, failures]

variable {harness} in
/-- One line keeps the accounts. -/
theorem Accounts.process {entries : List Entry} {state : RunState} (h : Accounts entries state)
    (raw : String) : Accounts (entries ++ (harness.entryOf state.session raw).toList)
      (harness.process state raw).state := by
  cases new : harness.entryOf state.session raw with
  | none =>
    obtain ⟨counters, failures⟩ := harness.process_of_entryOf_none new
    rw [Option.toList_none, List.append_nil]
    exact ⟨by rw [counters, h.total], by rw [counters, h.ended], by rw [counters, failures, h.failed],
      by rw [failures, h.failures]⟩
  | some entry =>
    rw [(harness.process_of_entryOf_some new).1]
    exact h.push entry

variable {harness} in
/-- Lines that are fed one after the other keep the accounts. -/
theorem Accounts.after {entries : List Entry} {state : RunState} (h : Accounts entries state)
    (lines : List String) :
    Accounts (entries ++ harness.ledger state lines) (harness.after state lines) := by
  induction lines generalizing entries state with
  | nil => simpa [ledger] using h
  | cons raw rest ih =>
    rw [ledger, ← List.append_assoc, after_cons]
    exact ih (h.process raw)

/-- The accounts of a harness that starts. -/
theorem accounts_after_start (session : Session) (lines : List String) :
    Accounts (harness.ledger (.start session) lines) (harness.after (.start session) lines) :=
  have fresh : Accounts [] (.start session) := ⟨rfl, rfl, rfl, rfl⟩
  fresh.after lines

/-- The lines of the entries are the normalized test lines. -/
theorem map_line_ledger (state : RunState) (lines : List String) :
    (harness.ledger state lines).map Entry.line =
      (lines.filter Script.isTest).map Script.normalize := by
  induction lines generalizing state with
  | nil => rfl
  | cons raw rest ih =>
    have test := harness.isSome_entryOf state.session raw
    rw [ledger, List.map_append, ih, List.filter_cons, ← test]
    cases new : harness.entryOf state.session raw with
    | none => rfl
    | some entry => simp [harness.line_of_entryOf new]

private theorem map_line_failure? (session : Session) (raw : String) :
    ((harness.entryOf session raw).toList.filterMap Entry.failure?).map FailureRecord.line =
      ((harness.entryOf session raw).toList.filter fun entry => entry.failure?.isSome).map
        Entry.line := by
  cases new : harness.entryOf session raw with
  | none => rfl
  | some entry =>
    cases failed : entry.failure? with
    | none => simp [failed]
    | some record => simp [failed, (harness.record_of_failure? new failed).1]

/-- The records of failures hold the lines of the failed tests. -/
theorem map_line_failures (state : RunState) (lines : List String) :
    ((harness.ledger state lines).filterMap Entry.failure?).map FailureRecord.line =
      ((harness.ledger state lines).filter fun entry => entry.failure?.isSome).map Entry.line := by
  induction lines generalizing state with
  | nil => rfl
  | cons raw rest ih =>
    rw [ledger, List.filterMap_append, List.filter_append, List.map_append, List.map_append, ih,
      map_line_failure?]

end Harness
end DecimalConformance
