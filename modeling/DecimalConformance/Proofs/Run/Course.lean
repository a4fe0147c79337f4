import DecimalConformance.Proofs.Run.Balance

/-! The course of a run, apart from sources and places.
It tells where a run stops by how many deliveries went before, so that courses can be put together
and compared; a source only adds its name and the number of its first line. -/
namespace DecimalConformance

variable {Value : Type}

/-- What deliveries come to, up to the first that raises a fault. -/
structure Course (Value : Type) where
  state : RunState
  calls : List (Call Value)
  /-- How many deliveries went before the fault, and the fault. -/
  stop? : Option (Nat × Fault)

/-- A course that so many quiet deliveries went before, with these calls. -/
def Course.behind (number : Nat) (calls : List (Call Value)) (course : Course Value) :
    Course Value :=
  ⟨course.state, calls ++ course.calls,
    course.stop?.map fun (before, fault) => (before + number, fault)⟩

@[simp] theorem Course.state_behind (number : Nat) (calls : List (Call Value))
    (course : Course Value) : (course.behind number calls).state = course.state := rfl

@[simp] theorem Course.calls_behind (number : Nat) (calls : List (Call Value))
    (course : Course Value) : (course.behind number calls).calls = calls ++ course.calls := rfl

@[simp] theorem Course.stop?_behind (number : Nat) (calls : List (Call Value))
    (course : Course Value) : (course.behind number calls).stop? =
      course.stop?.map fun (before, fault) => (before + number, fault) := rfl

theorem Course.behind_behind (number more : Nat) (calls others : List (Call Value))
    (course : Course Value) :
    (course.behind more others).behind number calls =
      course.behind (more + number) (calls ++ others) := by
  obtain ⟨state, mine, stop?⟩ := course
  cases stop? with
  | none => simp only [behind, Option.map_none, List.append_assoc]
  | some stop => simp only [behind, Option.map_some, List.append_assoc, Nat.add_assoc]

@[simp] theorem Course.behind_zero (course : Course Value) : course.behind 0 [] = course := by
  obtain ⟨state, calls, stop?⟩ := course
  cases stop? <;> rfl

namespace Harness

variable (harness : Harness Value)

/-- A line is processed, and a reason why there is none is a fault. -/
def deliver (state : RunState) : Except String String → Step Value
  | .error reason => ⟨state, [], [], some (.plain (.readFailure reason))⟩
  | .ok raw => harness.process state raw

@[simp] theorem deliver_ok (state : RunState) (raw : String) :
    harness.deliver state (.ok raw) = harness.process state raw := rfl

/-- Takes deliveries in order, up to the first that raises a fault. -/
def course (state : RunState) : List (Except String String) → Course Value
  | [] => ⟨state, [], none⟩
  | first :: rest =>
    let step := harness.deliver state first
    match step.fault? with
    | some fault => ⟨step.state, step.calls, some (0, fault)⟩
    | none => (course step.state rest).behind 1 step.calls

theorem course_cons_of_fault {state : RunState} {first : Except String String} {fault : Fault}
    (raised : (harness.deliver state first).fault? = some fault)
    (rest : List (Except String String)) :
    harness.course state (first :: rest) =
      ⟨(harness.deliver state first).state, (harness.deliver state first).calls,
        some (0, fault)⟩ := by
  rw [course]
  simp only [raised]

theorem course_cons_of_quiet {state : RunState} {first : Except String String}
    (quiet : (harness.deliver state first).fault? = none) (rest : List (Except String String)) :
    harness.course state (first :: rest) =
      (harness.course (harness.deliver state first).state rest).behind 1
        (harness.deliver state first).calls := by
  rw [course]
  simp only [quiet]

/-- Nothing behind the fault that stops a course is taken. -/
theorem course_append_of_stop {state : RunState} {front : List (Except String String)}
    (stopped : (harness.course state front).stop? ≠ none) (behind : List (Except String String)) :
    harness.course state (front ++ behind) = harness.course state front := by
  induction front generalizing state with
  | nil => exact absurd rfl stopped
  | cons first rest ih =>
    rw [List.cons_append]
    cases raised : (harness.deliver state first).fault? with
    | some fault =>
      rw [harness.course_cons_of_fault raised, harness.course_cons_of_fault raised]
    | none =>
      rw [harness.course_cons_of_quiet raised] at stopped
      have later : (harness.course (harness.deliver state first).state rest).stop? ≠ none := by
        intro none
        apply stopped
        rw [Course.stop?_behind, none, Option.map_none]
      rw [harness.course_cons_of_quiet raised, harness.course_cons_of_quiet raised, ih later]

/-- A course that is not stopped goes on with what is delivered next. -/
theorem course_append_of_quiet {state : RunState} {front : List (Except String String)}
    (quiet : (harness.course state front).stop? = none) (behind : List (Except String String)) :
    harness.course state (front ++ behind) =
      (harness.course (harness.course state front).state behind).behind front.length
        (harness.course state front).calls := by
  induction front generalizing state with
  | nil =>
    rw [List.nil_append]
    exact (Course.behind_zero _).symm
  | cons first rest ih =>
    rw [List.cons_append]
    cases raised : (harness.deliver state first).fault? with
    | some fault =>
      rw [harness.course_cons_of_fault raised] at quiet
      cases quiet
    | none =>
      rw [harness.course_cons_of_quiet raised, Course.stop?_behind, Option.map_eq_none_iff] at quiet
      rw [harness.course_cons_of_quiet raised, harness.course_cons_of_quiet raised, ih quiet,
        Course.behind_behind]
      rfl

/-- Lines are all taken, or up to the first that raises a fault. -/
theorem course_lines_cases (state : RunState) (lines : List String) :
    harness.Quiet state lines ∧ (harness.course state (lines.map .ok)).stop? = none ∧
        (harness.course state (lines.map .ok)).state = harness.after state lines ∨
      ∃ before raw behind fault, lines = before ++ raw :: behind ∧ harness.Quiet state before ∧
        (harness.process (harness.after state before) raw).fault? = some fault ∧
        (harness.course state (lines.map .ok)).stop? = some (before.length, fault) ∧
        (harness.course state (lines.map .ok)).state = harness.after state (before ++ [raw]) := by
  induction lines generalizing state with
  | nil => exact .inl ⟨trivial, rfl, rfl⟩
  | cons first rest ih =>
    rw [List.map_cons]
    cases raised : (harness.process state first).fault? with
    | some fault =>
      rw [← deliver_ok] at raised
      rw [harness.course_cons_of_fault raised]
      refine .inr ⟨[], first, rest, fault, rfl, trivial, ?_, rfl, ?_⟩
      · rw [after_nil, ← deliver_ok]
        exact raised
      · rw [List.nil_append, after_cons, after_nil, deliver_ok]
    | none =>
      rw [← deliver_ok] at raised
      rw [harness.course_cons_of_quiet raised, Course.stop?_behind, Course.state_behind, deliver_ok]
      rw [deliver_ok] at raised
      rcases ih (harness.process state first).state with
        ⟨quiet, stop, reached⟩ | ⟨before, raw, behind, fault, rfl, quiet, fails, stop, reached⟩
      · rw [stop, reached, ← after_cons]
        exact .inl ⟨⟨raised, quiet⟩, rfl, rfl⟩
      · rw [stop, reached, ← after_cons]
        rw [← after_cons] at fails
        exact .inr ⟨first :: before, raw, behind, fault, rfl, ⟨raised, quiet⟩, fails, rfl, rfl⟩

theorem quiet_of_course_lines {state : RunState} {lines : List String}
    (stop : (harness.course state (lines.map .ok)).stop? = none) :
    harness.Quiet state lines ∧
      (harness.course state (lines.map .ok)).state = harness.after state lines := by
  rcases harness.course_lines_cases state lines with
    ⟨quiet, -, reached⟩ | ⟨_, _, _, _, -, -, -, stopped, -⟩
  · exact ⟨quiet, reached⟩
  · rw [stop] at stopped
    cases stopped

/-- The line at which a course stops is the first that raises a fault; no other one follows. -/
theorem raised_of_course_lines {state : RunState} {before behind : List String} {raw : String}
    {fault : Fault}
    (stop : (harness.course state ((before ++ raw :: behind).map .ok)).stop? =
      some (before.length, fault)) :
    harness.Quiet state before ∧
      (harness.process (harness.after state before) raw).fault? = some fault ∧
      (harness.course state ((before ++ raw :: behind).map .ok)).state =
        harness.after state (before ++ [raw]) ∧
      harness.course state ((before ++ raw :: behind).map .ok) =
        harness.course state ((before ++ [raw]).map .ok) := by
  rcases harness.course_lines_cases state (before ++ raw :: behind) with
    ⟨-, quiet, -⟩ | ⟨before', raw', behind', fault', split, quiet, fails, stopped, reached⟩
  · rw [stop] at quiet
    cases quiet
  have same := stop.symm.trans stopped
  rw [Option.some.injEq, Prod.mk.injEq] at same
  obtain ⟨same, rfl⟩ := same
  obtain ⟨rfl, tail⟩ := List.append_inj split same
  obtain ⟨rfl, -⟩ := List.cons.inj tail
  refine ⟨quiet, fails, reached, ?_⟩
  -- Were the lines up to this one quiet, the course would stop behind them.
  rw [List.append_cons, List.map_append] at stop ⊢
  apply harness.course_append_of_stop
  intro calm
  rw [harness.course_append_of_quiet calm, Course.stop?_behind, Option.map_eq_some_iff] at stop
  obtain ⟨⟨number, cause⟩, -, place⟩ := stop
  have longer := congrArg Prod.fst place
  simp only [List.length_map, List.length_append, List.length_singleton] at longer
  omega

end Harness

namespace Run

variable {harness : Harness Value} {run next : Run Value}

/-- A run goes on along a course, with a place for each of its deliveries. -/
structure Follows (run next : Run Value) (course : Course Value) (place : Nat → String) :
    Prop where
  state : next.state = course.state
  calls : next.calls = run.calls ++ course.calls
  fault? : next.fault? = course.stop?.map fun (before, fault) => .within (place before) fault

theorem append_calls (calls : Array (Call Value)) (first rest : List (Call Value)) :
    calls ++ first ++ rest = calls ++ (first ++ rest) :=
  Array.ext' (by simp only [Array.toList_appendList, List.append_assoc])

theorem follows_nil (silent : run.fault? = none) (place : Nat → String) :
    Follows run run ⟨run.state, [], none⟩ place :=
  ⟨rfl, Array.appendList_nil.symm, silent⟩

theorem line_eq (harness : Harness Value) (place : String) (run : Run Value)
    (first : Except String String) :
    (run.line harness place first).state = (harness.deliver run.state first).state ∧
      (run.line harness place first).calls =
        run.calls ++ (harness.deliver run.state first).calls ∧
      (run.line harness place first).fault? =
        (harness.deliver run.state first).fault?.map (.within place) := by
  cases first with
  | error reason => exact ⟨rfl, Array.appendList_nil.symm, rfl⟩
  | ok raw => simp only [line, Harness.deliver_ok, and_self]

/-- The lines of a source are taken along the course of its deliveries. -/
theorem follows_lines (harness : Harness Value) (source : String) (number : Nat)
    (content : List (Except String String)) (silent : run.fault? = none) :
    Follows run (run.lines harness source number content) (harness.course run.state content)
      fun before => location source (number + before) := by
  induction content generalizing run number with
  | nil => exact follows_nil silent _
  | cons first rest ih =>
    obtain ⟨state, calls, fault⟩ := line_eq harness (location source number) run first
    rw [Run.lines]
    cases raised : (harness.deliver run.state first).fault? with
    | some cause =>
      rw [raised, Option.map_some] at fault
      rw [if_pos (by rw [fault]; rfl), harness.course_cons_of_fault raised]
      exact ⟨state, calls, fault⟩
    | none =>
      rw [raised, Option.map_none] at fault
      rw [if_neg (by rw [fault]; simp), harness.course_cons_of_quiet raised]
      obtain ⟨state', calls', fault'⟩ := ih (number + 1) fault
      rw [state] at state' calls' fault'
      refine ⟨state', ?_, ?_⟩
      · rw [calls', calls, append_calls, Course.calls_behind]
      · rw [fault', Course.stop?_behind, Option.map_map]
        congr 1
        funext stop
        rw [Function.comp_apply]
        dsimp only
        rw [Nat.add_assoc, Nat.add_comm 1]

theorem follows_source (harness : Harness Value) (name : String)
    (content : List (Except String String)) (silent : run.fault? = none) :
    Follows run (run.source harness name content) (harness.course run.state content)
      fun before => location name (before + 1) := by
  have lines := follows_lines harness name 1 content silent
  simp only [Nat.add_comm 1] at lines
  exact lines

end Run
end DecimalConformance
