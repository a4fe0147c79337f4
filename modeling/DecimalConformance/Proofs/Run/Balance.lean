import DecimalConformance.Proofs.Run.Ledger

/-! Counters and failures over whole runs.
A run over files takes lines up to the first fault, so that at most one test is begun and never
ended: the one whose line is the last. -/
namespace DecimalConformance

/-- What the sources under paths deliver: lines, and reasons why there is none. -/
def delivered (files : Files) (paths : List String) : List (Except String String) :=
  paths.flatMap fun path =>
    match (files path).lines with
    | .error reason => [.error reason]
    | .ok content => content

namespace Harness

variable {Value : Type} (harness : Harness Value)

/-- No line raises a fault. -/
def Quiet (state : RunState) : List String → Prop
  | [] => True
  | raw :: rest =>
    (harness.process state raw).fault? = none ∧ Quiet (harness.process state raw).state rest

/-- The last line is the first that raises a fault. -/
def EndsInFault (state : RunState) (lines : List String) (last : String) : Prop :=
  ∃ before, lines = before ++ [last] ∧ harness.Quiet state before ∧
    (harness.process (harness.after state before) last).fault?.isSome

/-- How the lines of a run end, and with which fault: with the last delivery, before one that is no
line, or with a line that raises a fault. -/
inductive Ending (state : RunState) (deliveries : List (Except String String))
    (lines : List String) : Option Fault → Prop where
  | whole (all : lines.map .ok = deliveries) (quiet : harness.Quiet state lines) :
    Ending state deliveries lines none
  | unreadable {reason : String} {fault : Fault}
    (initial : lines.map .ok ++ [.error reason] <+: deliveries)
    (quiet : harness.Quiet state lines) : Ending state deliveries lines (some fault)
  | raised {last : String} {fault : Fault} (initial : lines.map .ok <+: deliveries)
    (ends : harness.EndsInFault state lines last) : Ending state deliveries lines (some fault)

theorem quiet_append {state : RunState} {front behind : List String} :
    harness.Quiet state (front ++ behind) ↔
      harness.Quiet state front ∧ harness.Quiet (harness.after state front) behind := by
  induction front generalizing state with
  | nil => simp [Quiet]
  | cons raw rest ih => simp only [List.cons_append, Quiet, after_cons, ih, and_assoc]

theorem countP_isFault_entryOf {state : RunState} {raw : String} :
    (harness.entryOf state.session raw).toList.countP Entry.isFault =
      if Script.isTest raw ∧ (harness.process state raw).fault?.isSome then 1 else 0 := by
  rw [← harness.isSome_entryOf state.session raw]
  cases new : harness.entryOf state.session raw with
  | none => simp
  | some entry =>
    rw [(harness.process_of_entryOf_some new).2]
    cases raised : entry.isFault <;> simp [raised]

variable {harness} in
theorem Quiet.countP_isFault {state : RunState} {lines : List String}
    (quiet : harness.Quiet state lines) :
    (harness.ledger state lines).countP Entry.isFault = 0 := by
  induction lines generalizing state with
  | nil => rfl
  | cons raw rest ih =>
    rw [ledger, List.countP_append, countP_isFault_entryOf, ih quiet.2, quiet.1]
    simp

variable {harness} in
/-- The fault of the last line counts if that line is a test. -/
theorem EndsInFault.countP_isFault {state : RunState} {lines : List String} {last : String}
    (h : harness.EndsInFault state lines last) :
    (harness.ledger state lines).countP Entry.isFault = if Script.isTest last then 1 else 0 := by
  obtain ⟨before, rfl, quiet, raised⟩ := h
  rw [ledger_append, List.countP_append, quiet.countP_isFault, ledger, ledger, List.append_nil,
    countP_isFault_entryOf]
  simp [raised]

namespace Ending

variable {harness} {state : RunState} {front : List (Except String String)} {lines : List String}

/-- After a fault nothing more is delivered. -/
theorem stop {fault : Fault} (h : harness.Ending state front lines (some fault))
    (behind : List (Except String String)) :
    harness.Ending state (front ++ behind) lines (some fault) := by
  cases h with
  | unreadable initial quiet => exact .unreadable (initial.trans (List.prefix_append _ _)) quiet
  | raised initial ends => exact .raised (initial.trans (List.prefix_append _ _)) ends

/-- Without a fault the run goes on with what is delivered next. -/
theorem append {behind : List (Except String String)} {more : List String} {fault? : Option Fault}
    (h : harness.Ending state front lines none)
    (h' : harness.Ending (harness.after state lines) behind more fault?) :
    harness.Ending state (front ++ behind) (lines ++ more) fault? := by
  cases h with
  | whole all quiet =>
    subst all
    cases h' with
    | whole all calm =>
      subst all
      exact .whole List.map_append ((quiet_append _).mpr ⟨quiet, calm⟩)
    | unreadable initial calm =>
      have longer := (List.prefix_append_right_inj (lines.map .ok)).mpr initial
      rw [← List.append_assoc, ← List.map_append] at longer
      exact .unreadable longer ((quiet_append _).mpr ⟨quiet, calm⟩)
    | raised initial ends =>
      obtain ⟨before, rfl, calm, fault⟩ := ends
      refine .raised ?_ ⟨lines ++ before, (List.append_assoc ..).symm,
        (quiet_append _).mpr ⟨quiet, calm⟩, ?_⟩
      · rw [List.map_append]
        exact (List.prefix_append_right_inj _).mpr initial
      · rwa [after_append]

/-- Where no test raises the fault that ends a run, none raises any. -/
theorem countP_isFault {fault? : Option Fault} (h : harness.Ending state front lines fault?)
    (others : ∀ last, harness.EndsInFault state lines last → ¬ Script.isTest last) :
    (harness.ledger state lines).countP Entry.isFault = 0 := by
  cases h with
  | whole _ quiet => exact quiet.countP_isFault
  | unreadable _ quiet => exact quiet.countP_isFault
  | raised _ ends => rw [ends.countP_isFault, if_neg (others _ ends)]

end Ending

end Harness

namespace Run

variable {Value : Type} {harness : Harness Value} {run mid next : Run Value}

/-- A run goes on through lines of what is delivered. -/
structure Takes (harness : Harness Value) (run next : Run Value)
    (deliveries : List (Except String String)) (lines : List String) : Prop where
  state : next.state = harness.after run.state lines
  ending : harness.Ending run.state deliveries lines next.fault?

theorem takes_nil (silent : run.fault? = none) : Takes harness run run [] [] := by
  refine ⟨rfl, ?_⟩
  rw [silent]
  exact .whole rfl trivial

/-- The first delivery is a line, or the run ends there. -/
theorem takes_line (harness : Harness Value) (place : String) (run : Run Value)
    (first : Except String String) :
    ∃ lines, Takes harness run (run.line harness place first) [first] lines := by
  cases first with
  | error reason => exact ⟨[], rfl, .unreadable List.prefix_rfl trivial⟩
  | ok raw =>
    refine ⟨[raw], by rw [line, Harness.after_cons, Harness.after_nil], ?_⟩
    cases fault : (harness.process run.state raw).fault? with
    | none =>
      simp only [line, fault, Option.map_none]
      exact .whole rfl ⟨fault, trivial⟩
    | some cause =>
      simp only [line, fault, Option.map_some]
      exact .raised List.prefix_rfl ⟨[], rfl, trivial, by rw [Harness.after_nil, fault]; rfl⟩

theorem Takes.stop {front : List (Except String String)} {lines : List String}
    (h : Takes harness run next front lines) (raised : next.fault?.isSome)
    (behind : List (Except String String)) : Takes harness run next (front ++ behind) lines := by
  obtain ⟨state, ending⟩ := h
  obtain ⟨fault, same⟩ := Option.isSome_iff_exists.mp raised
  rw [same] at ending
  exact ⟨state, same ▸ ending.stop behind⟩

theorem Takes.append {front behind : List (Except String String)} {lines more : List String}
    (h : Takes harness run mid front lines) (silent : mid.fault? = none)
    (h' : Takes harness mid next behind more) :
    Takes harness run next (front ++ behind) (lines ++ more) := by
  obtain ⟨state, ending⟩ := h
  obtain ⟨state', ending'⟩ := h'
  rw [silent] at ending
  rw [state] at state' ending'
  exact ⟨by rw [state', Harness.after_append], ending.append ending'⟩

theorem takes_lines (harness : Harness Value) (source : String) (number : Nat)
    (content : List (Except String String)) (silent : run.fault? = none) :
    ∃ lines, Takes harness run (run.lines harness source number content) content lines := by
  induction content generalizing run number with
  | nil => exact ⟨[], takes_nil silent⟩
  | cons first rest ih =>
    obtain ⟨lines, one⟩ := takes_line harness (location source number) run first
    rw [Run.lines]
    split
    · next raised => exact ⟨lines, one.stop raised rest⟩
    · next quiet =>
      have silent := Option.not_isSome_iff_eq_none.mp quiet
      obtain ⟨more, others⟩ := ih (number + 1) silent
      exact ⟨lines ++ more, one.append silent others⟩

/-- Only state and fault of a run matter, and a note changes neither. -/
theorem takes_path (harness : Harness Value) (files : Files) (path : String)
    (silent : run.fault? = none) :
    ∃ lines, Takes harness run (run.path harness files path) (delivered files [path]) lines := by
  rw [Run.path, delivered, List.flatMap_singleton]
  cases (files path).lines with
  | error reason => exact ⟨[], rfl, .unreadable List.prefix_rfl trivial⟩
  | ok content =>
    have opened : (run.note (Journal.sourceOpened path)).fault? = none := silent
    obtain ⟨lines, state, ending⟩ := takes_lines harness path 1 content opened
    refine ⟨lines, ?_⟩
    dsimp only
    split
    · exact ⟨state, ending⟩
    · exact ⟨state, ending⟩

theorem takes_paths (harness : Harness Value) (files : Files) (paths : List String)
    (silent : run.fault? = none) :
    ∃ lines, Takes harness run (run.paths harness files paths) (delivered files paths) lines := by
  induction paths generalizing run with
  | nil => exact ⟨[], takes_nil silent⟩
  | cons first rest ih =>
    obtain ⟨lines, one⟩ := takes_path harness files first silent
    have split : delivered files (first :: rest) =
        delivered files [first] ++ delivered files rest := by simp [delivered]
    rw [Run.paths, split]
    split
    · next raised => exact ⟨lines, one.stop raised _⟩
    · next quiet =>
      have silent := Option.not_isSome_iff_eq_none.mp quiet
      obtain ⟨more, others⟩ := ih silent
      exact ⟨lines ++ more, one.append silent others⟩

end Run

namespace Harness

variable {Value : Type} (harness : Harness Value)

/-- After any lines, the tests begun are the test lines, the failures are the records of the failed
ones in order, and only tests that raised a fault are missing among the tests ended.  A run over
files is balanced unless a test line stopped it, and then exactly that test is missing. -/
theorem counters_account_for_tests (session : Session) :
    (∀ lines : List String,
      let final := harness.after (.start session) lines
      let entries := harness.ledger (.start session) lines
      final.counters.total = lines.countP Script.isTest ∧
      final.counters.total = final.counters.succeeded + final.counters.failed +
        final.counters.skipped + entries.countP Entry.isFault ∧
      final.counters.failed = final.failures.length ∧
      final.failures = entries.filterMap Entry.failure? ∧
      final.failures.map FailureRecord.line =
        (entries.filter fun entry => entry.failure?.isSome).map Entry.line ∧
      entries.map Entry.line = (lines.filter Script.isTest).map Script.normalize ∧
      ∀ more, final.failures <+: (harness.after (.start session) (lines ++ more)).failures) ∧
    ∀ (files : Files) (paths : List String), ∃ lines : List String,
      let finished := (Run.start session).paths harness files paths
      let counters := finished.state.counters
      finished.state = harness.after (.start session) lines ∧
      harness.Ending (.start session) (delivered files paths) lines finished.fault? ∧
      (∀ last, harness.EndsInFault (.start session) lines last → Script.isTest last →
        counters.total = counters.succeeded + counters.failed + counters.skipped + 1) ∧
      ((∀ last, harness.EndsInFault (.start session) lines last → ¬ Script.isTest last) →
        counters.isBalanced) := by
  constructor
  · intro lines final entries
    have accounts := harness.accounts_after_start session lines
    refine ⟨?_, accounts.ended, accounts.failed, accounts.failures, ?_,
      harness.map_line_ledger _ lines, ?_⟩
    · have same := congrArg List.length (harness.map_line_ledger (.start session) lines)
      rw [List.length_map, List.length_map, ← List.countP_eq_length_filter] at same
      rw [accounts.total, same]
    · rw [accounts.failures]
      exact harness.map_line_failures _ lines
    · intro more
      rw [accounts.failures, (harness.accounts_after_start session (lines ++ more)).failures,
        ledger_append, List.filterMap_append]
      exact List.prefix_append _ _
  · intro files paths
    have fresh : (Run.start session : Run Value).fault? = none := rfl
    obtain ⟨lines, taken⟩ := Run.takes_paths harness files paths fresh
    have state : ((Run.start session).paths harness files paths).state =
        harness.after (.start session) lines := taken.state
    have ended := (harness.accounts_after_start session lines).ended
    rw [← state] at ended
    have ending : harness.Ending (.start session) (delivered files paths) lines
        ((Run.start session).paths harness files paths).fault? := taken.ending
    refine ⟨lines, state, ending, ?_, ?_⟩
    · intro last raised test
      rw [ended, raised.countP_isFault, if_pos test]
    · intro others
      rw [Counters.isBalanced, beq_iff_eq, ended, ending.countP_isFault others, Nat.add_zero]

end Harness
end DecimalConformance
