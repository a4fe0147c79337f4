import DecimalConformance.Engine.Standard
import DecimalConformance.Proofs.Run.Noise
import DecimalConformance.Proofs.Source.Written

/-! Scripts cut into sources.
Taken one after the other, sources come to the same as all their lines in one.  Only the place of a
fault names the source, and the number of the line within it. -/
namespace DecimalConformance

variable {Value : Type}

namespace Harness

variable (harness : Harness Value)

/-- Lines are taken by their normal form. -/
theorem process_congr {raw raw' : String} (same : Script.normalize raw = Script.normalize raw')
    (state : RunState) : harness.process state raw = harness.process state raw' := by
  rw [process, process, same]

theorem course_congr {lines lines' : List String}
    (same : lines.map Script.normalize = lines'.map Script.normalize) (state : RunState) :
    harness.course state (lines.map .ok) = harness.course state (lines'.map .ok) := by
  induction lines generalizing state lines' with
  | nil =>
    obtain rfl := List.map_eq_nil_iff.mp same.symm
    rfl
  | cons first rest ih =>
    cases lines' with
    | nil => cases same
    | cons first' rest' =>
      rw [List.map_cons, List.map_cons, List.cons.injEq] at same
      obtain ⟨alike, same⟩ := same
      have step := harness.process_congr alike state
      rw [← deliver_ok, ← deliver_ok] at step
      rw [List.map_cons, List.map_cons, course, course, step, ih same]

/-- A blank line at the end adds nothing. -/
theorem course_concat_blank (state : RunState) (content : List (Except String String)) :
    harness.course state (content ++ [.ok ""]) = harness.course state content := by
  by_cases quiet : (harness.course state content).stop? = none
  · have blank : Script.IsNoise "" := .inl rfl
    obtain ⟨same, silent, calm⟩ :=
      harness.deliver_of_isNoise blank (harness.course state content).state
    rw [harness.course_append_of_quiet quiet, harness.course_cons_of_quiet calm, same, silent]
    revert quiet
    obtain ⟨state', calls, stop?⟩ := harness.course state content
    rintro rfl
    simp [course, Course.behind]
  · exact harness.course_append_of_stop quiet _

theorem course_content (written : Written) (state : RunState) :
    harness.course state written.content = harness.course state (written.lines.map .ok) := by
  obtain ⟨read, lost, content, empty, normal⟩ := written.exists_content
  rw [content, ← harness.course_congr normal, List.map_append]
  rcases empty with rfl | rfl
  · rw [List.map_nil, List.append_nil]
  · exact (harness.course_concat_blank state _).symm

end Harness

namespace Run

variable {harness : Harness Value} {run : Run Value}

/-- Sources are taken along the course of all their lines, up to a line within one of them. -/
theorem sources_cases (harness : Harness Value) (silent : run.fault? = none)
    (parts : List Written) :
    let apart := run.sources harness (parts.map fun part => (part.name, part.content))
    let course := harness.course run.state ((parts.flatMap Written.lines).map .ok)
    apart.state = course.state ∧ apart.calls = run.calls ++ course.calls ∧
      (course.stop? = none ∧ apart.fault? = none ∨
        ∃ before part behind front raw rest fault,
          parts = before ++ part :: behind ∧ part.lines = front ++ raw :: rest ∧
          course.stop? = some ((before.flatMap Written.lines ++ front).length, fault) ∧
          apart.fault? = some (.within (location part.name (front.length + 1)) fault)) := by
  induction parts generalizing run with
  | nil => exact ⟨rfl, Array.appendList_nil.symm, .inl ⟨rfl, silent⟩⟩
  | cons part others ih =>
    obtain ⟨state, calls, fault⟩ := follows_source harness part.name part.content silent
    rw [harness.course_content] at state calls fault
    rw [List.map_cons, sources, List.flatMap_cons, List.map_append]
    -- A source without a fault hands its state on; one with a fault leaves the others untaken.
    rcases harness.course_lines_cases run.state part.lines with
      ⟨-, stop, -⟩ | ⟨front, raw, rest, cause, split, -, -, stop, -⟩
    · rw [stop, Option.map_none] at fault
      rw [if_neg (by rw [fault]; simp), harness.course_append_of_quiet stop]
      obtain ⟨state', calls', ends⟩ := ih fault
      rw [state] at state' calls' ends
      refine ⟨state', ?_, ?_⟩
      · rw [calls', calls, append_calls]
        rfl
      · rw [Course.stop?_behind]
        rcases ends with
          ⟨quiet, calm⟩ | ⟨before, mine, behind, front, raw, rest, cause, cut, split, stop, place⟩
        · rw [quiet]
          exact .inl ⟨rfl, calm⟩
        · have all : part :: others = part :: before ++ mine :: behind := by
            rw [cut]
            rfl
          rw [stop]
          refine .inr ⟨part :: before, mine, behind, front, raw, rest, cause, all, split, ?_, place⟩
          simp only [Option.map_some, Option.some.injEq, Prod.mk.injEq, and_true,
            List.length_append, List.flatMap_cons, List.length_map]
          omega
    · rw [stop, Option.map_some] at fault
      have stopped : (harness.course run.state (part.lines.map .ok)).stop? ≠ none := by
        rw [stop]
        simp
      rw [if_pos (by rw [fault]; rfl), harness.course_append_of_stop stopped]
      refine ⟨state, calls, .inr ?_⟩
      exact ⟨[], part, others, front, raw, rest, cause, rfl, split, stop, fault⟩

end Run

namespace Harness

variable (harness : Harness Value)

/-- Cutting a script into sources changes neither session nor counters nor failures nor calls.  If
the run stops, a line is the first that raises a fault, nothing behind it counts, and the fault is
met in the source that holds the line. -/
theorem cutting_is_inert (session : Session) (parts : List Written) (whole : Written)
    (same : whole.lines = parts.flatMap Written.lines) :
    let apart := (Run.start session).sources harness
      (parts.map fun part => (part.name, part.content))
    let together := (Run.start session).source harness whole.name whole.content
    apart.state = together.state ∧ apart.calls = together.calls ∧
      (harness.Quiet (.start session) whole.lines ∧
          apart.state = harness.after (.start session) whole.lines ∧
          apart.fault? = none ∧ together.fault? = none ∨
        ∃ before part behind front raw rest fault,
          parts = before ++ part :: behind ∧ part.lines = front ++ raw :: rest ∧
          let earlier := before.flatMap Written.lines ++ front
          harness.Quiet (.start session) earlier ∧
          (harness.process (harness.after (.start session) earlier) raw).fault? = some fault ∧
          apart.state = harness.after (.start session) (earlier ++ [raw]) ∧
          apart.calls.toList =
            (harness.course (.start session) ((earlier ++ [raw]).map .ok)).calls ∧
          apart.fault? = some (.within (Run.location part.name (front.length + 1)) fault) ∧
          together.fault? =
            some (.within (Run.location whole.name (earlier.length + 1)) fault)) := by
  intro apart together
  have fresh : (Run.start session : Run Value).fault? = none := rfl
  obtain ⟨state, calls, ends⟩ := Run.sources_cases harness fresh parts
  obtain ⟨state', calls', fault'⟩ := Run.follows_source harness whole.name whole.content fresh
  rw [harness.course_content, same] at state' calls' fault'
  refine ⟨state.trans state'.symm, calls.trans calls'.symm, ?_⟩
  rcases ends with
    ⟨quiet, calm⟩ | ⟨before, part, behind, front, raw, rest, fault, cut, split, stop, place⟩
  · left
    obtain ⟨all, reached⟩ := harness.quiet_of_course_lines quiet
    rw [quiet] at fault'
    rw [same]
    exact ⟨all, state.trans reached, calm, fault'⟩
  · right
    refine ⟨before, part, behind, front, raw, rest, fault, cut, split, ?_⟩
    have lines : parts.flatMap Written.lines =
        before.flatMap Written.lines ++ front ++ raw :: (rest ++ behind.flatMap Written.lines) := by
      rw [cut, List.flatMap_append, List.flatMap_cons, split]
      simp only [List.append_assoc, List.cons_append]
    rw [stop] at fault'
    rw [lines] at stop state calls
    obtain ⟨quiet, fails, reached, last⟩ := harness.raised_of_course_lines stop
    refine ⟨quiet, fails, state.trans reached, ?_, place, fault'⟩
    rw [calls, last]
    exact Array.toList_appendList

/-- A line is cut off by each kind of end, and a source without lines stands between. -/
theorem cutting_is_inert_three :
    let harness : Harness Decimal := ⟨Engine.standard 34, .fixed, 34⟩
    let first : Written := ⟨"a", [("precision: 2", .returnAndLineFeed)], some "-- end", by decide⟩
    let last : Written :=
      ⟨"c", [("", .lineFeed), ("precision: many", .lineFeed)], some "t", by decide⟩
    let parts := [first, ⟨"b", [], none, by decide⟩, last]
    let whole : Written := ⟨"all", [("precision: 2", .lineFeed), ("-- end", .lineFeed),
      ("", .lineFeed), ("precision: many", .returnAndLineFeed), ("t", .lineFeed)], none, by decide⟩
    let apart := (Run.start (.start 9 .nearestEven)).sources harness
      (parts.map fun part => (part.name, part.content))
    let together := (Run.start (.start 9 .nearestEven)).source harness whole.name whole.content
    whole.lines = parts.flatMap Written.lines ∧ apart.state = together.state ∧
      apart.calls = together.calls ∧ apart.fault?.isSome ∧ together.fault?.isSome := by
  intro harness first last parts whole apart together
  have same : whole.lines = parts.flatMap Written.lines := by decide
  obtain ⟨state, calls, ⟨quiet, -, -, -⟩ | ⟨_, _, _, _, _, _, _, -, -, -, -, -, -, place, place'⟩⟩ :=
    harness.cutting_is_inert (.start 9 .nearestEven) parts whole same
  · exact absurd quiet.2.2.2.1 (by decide)
  · exact ⟨same, state, calls, by rw [place]; rfl, by rw [place']; rfl⟩

end Harness
end DecimalConformance
