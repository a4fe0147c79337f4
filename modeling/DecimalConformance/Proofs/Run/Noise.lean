import DecimalConformance.Proofs.Run.Course

/-! Lines that carry nothing: blank ones, comments, and directives without effect.
Wherever they are inserted into a script, the run goes the same way.  Only the number of the line
that stops it counts those inserted before. -/
namespace DecimalConformance

/-- What the lines start with that carry nothing though they are not blank. -/
def Script.noiseHeads : List String :=
  ["--", "version", "extended", "maxexponent", "minexponent"]

/-- The text of the line, trimmed and in lower case, is empty or starts with one of the heads. -/
def Script.IsNoise (raw : String) : Prop :=
  normalize raw = "" ∨ ∃ head ∈ noiseHeads, head.toList <+: (normalize raw).toList

theorem Text.startsWith_iff {head s : String} : startsWith head s ↔ head.toList <+: s.toList := by
  rw [startsWith, after?, Option.isSome_map, Option.isSome_iff_exists]
  constructor
  · rintro ⟨rest, dropped⟩
    exact ⟨rest, (dropHead?_eq_some_iff.mp dropped).symm⟩
  · rintro ⟨rest, whole⟩
    exact ⟨rest, dropHead?_eq_some_iff.mpr whole.symm⟩

/-- Noise is classified before any directive that counts, and before tests. -/
theorem Script.classify_of_isNoise {raw : String} (noise : IsNoise raw) :
    classify (normalize raw) = .blank ∨ classify (normalize raw) = .comment ∨
      ∃ keyword, classify (normalize raw) = .ignored keyword := by
  unfold classify
  by_cases empty : (normalize raw).isEmpty
  · exact .inl (if_pos empty)
  rw [if_neg empty]
  by_cases comment : Text.startsWith "--" (normalize raw)
  · exact .inr (.inl (if_pos comment))
  rw [if_neg comment]
  refine .inr (.inr ?_)
  cases keyword : ignoredKeywords.find? (Text.startsWith · (normalize raw)) with
  | some found => exact ⟨found, rfl⟩
  | none =>
    exfalso
    rcases noise with blank | ⟨head, mem, starts⟩
    · exact empty (String.isEmpty_iff.mpr blank)
    · rw [← Text.startsWith_iff] at starts
      rcases List.mem_cons.mp mem with rfl | ignored
      · exact comment starts
      · exact List.find?_eq_none.mp keyword head ignored starts

/-- A script with noise inserted: each line with the noise before it, and the noise at the end. -/
structure Padding where
  pieces : List (List String × Except String String)
  behind : List String
  isNoise : ∀ raw ∈ pieces.flatMap Prod.fst ++ behind, Script.IsNoise raw

namespace Padding

/-- The script without the noise. -/
def script (padding : Padding) : List (Except String String) := padding.pieces.map Prod.snd

def padded (padding : Padding) : List (Except String String) :=
  (padding.pieces.flatMap fun (noise, line) => noise.map .ok ++ [line]) ++
    padding.behind.map .ok

end Padding

namespace Harness

variable {Value : Type} (harness : Harness Value)

theorem deliver_of_isNoise {raw : String} (noise : Script.IsNoise raw) (state : RunState) :
    (harness.deliver state (.ok raw)).state = state ∧
      (harness.deliver state (.ok raw)).calls = [] ∧
      (harness.deliver state (.ok raw)).fault? = none := by
  rw [deliver_ok, process]
  rcases Script.classify_of_isNoise noise with blank | comment | ⟨keyword, ignored⟩
  · rw [blank]
    exact ⟨rfl, rfl, rfl⟩
  · rw [comment]
    exact ⟨rfl, rfl, rfl⟩
  · rw [ignored]
    exact ⟨rfl, rfl, rfl⟩

/-- Noise in front of a script only moves the place where it stops. -/
theorem course_noise_append {noise : List String} (all : ∀ raw ∈ noise, Script.IsNoise raw)
    (state : RunState) (rest : List (Except String String)) :
    harness.course state (noise.map .ok ++ rest) =
      (harness.course state rest).behind noise.length [] := by
  induction noise with
  | nil => exact (Course.behind_zero _).symm
  | cons raw others ih =>
    obtain ⟨same, none, quiet⟩ := harness.deliver_of_isNoise (all raw List.mem_cons_self) state
    rw [List.map_cons, List.cons_append, harness.course_cons_of_quiet quiet, same, none,
      ih fun other mem => all other (List.mem_cons_of_mem _ mem), Course.behind_behind]
    rfl

/-- A script and the same one with noise come to the same, up to a line that raises a fault. -/
theorem course_padded_cases (state : RunState) (padding : Padding) :
    (harness.course state padding.padded).state = (harness.course state padding.script).state ∧
      (harness.course state padding.padded).calls = (harness.course state padding.script).calls ∧
      ((harness.course state padding.script).stop? = none ∧
          (harness.course state padding.padded).stop? = none ∨
        ∃ before noise line behind fault,
          padding.pieces = before ++ (noise, line) :: behind ∧
          (harness.deliver (harness.course state (before.map Prod.snd)).state line).fault? =
            some fault ∧
          (harness.course state padding.script).stop? = some (before.length, fault) ∧
          (harness.course state padding.padded).stop? =
            some (before.length + ((before.flatMap Prod.fst).length + noise.length), fault)) := by
  obtain ⟨pieces, last, isNoise⟩ := padding
  simp only [Padding.script, Padding.padded]
  induction pieces generalizing state with
  | nil =>
    have all : ∀ raw ∈ last, Script.IsNoise raw := isNoise
    have ended := harness.course_noise_append all state []
    rw [List.append_nil] at ended
    rw [List.flatMap_nil, List.nil_append, ended]
    exact ⟨rfl, rfl, .inl ⟨rfl, rfl⟩⟩
  | cons piece rest ih =>
    obtain ⟨noise, line⟩ := piece
    have front : ∀ raw ∈ noise, Script.IsNoise raw := by
      intro raw mem
      apply isNoise
      simp [mem]
    have others : ∀ raw ∈ rest.flatMap Prod.fst ++ last, Script.IsNoise raw := by
      intro raw mem
      apply isNoise
      rw [List.flatMap_cons, List.append_assoc]
      exact List.mem_append_right _ mem
    -- The noise only moves the place; whether the course stops here, the line behind it decides.
    rw [List.flatMap_cons, List.map_cons, List.append_assoc, List.append_assoc,
      harness.course_noise_append front, List.singleton_append]
    cases raised : (harness.deliver state line).fault? with
    | some fault =>
      rw [harness.course_cons_of_fault raised, harness.course_cons_of_fault raised]
      refine ⟨rfl, rfl, .inr ⟨[], noise, line, rest, fault, rfl, raised, rfl, ?_⟩⟩
      simp
    | none =>
      obtain ⟨same, calls, ends⟩ := ih (harness.deliver state line).state others
      rw [harness.course_cons_of_quiet raised, harness.course_cons_of_quiet raised,
        Course.behind_behind]
      simp only [Course.state_behind, Course.calls_behind, Course.stop?_behind]
      refine ⟨same, by rw [calls, List.nil_append], ?_⟩
      rcases ends with
        ⟨quiet, quiet'⟩ | ⟨before, mine, failing, behind, fault, split, fails, stop, stop'⟩
      · rw [quiet, quiet']
        exact .inl ⟨rfl, rfl⟩
      · rw [stop, stop']
        refine .inr ⟨(noise, line) :: before, mine, failing, behind, fault, by rw [split]; rfl, ?_,
          rfl, ?_⟩
        · rw [List.map_cons, harness.course_cons_of_quiet raised, Course.state_behind]
          exact fails
        simp only [Option.map_some, Option.some.injEq, Prod.mk.injEq, and_true, List.length_cons,
          List.flatMap_cons, List.length_append]
        omega

/-- Noise inserted anywhere changes neither session nor counters nor failures nor calls.  The run
stops where it stopped without it, by the same fault, and its place counts the noise before it. -/
theorem inserted_noise_is_inert (session : Session) (source : String) (padding : Padding) :
    let plain := (Run.start session).source harness source padding.script
    let padded := (Run.start session).source harness source padding.padded
    padded.state = plain.state ∧ padded.calls = plain.calls ∧
      (plain.fault? = none ∧ padded.fault? = none ∨
        ∃ before noise line behind fault,
          padding.pieces = before ++ (noise, line) :: behind ∧
          (harness.deliver ((Run.start session).source harness source
            (before.map Prod.snd)).state line).fault? = some fault ∧
          plain.fault? = some (.within (Run.location source (before.length + 1)) fault) ∧
          padded.fault? = some (.within (Run.location source
            (before.length + 1 + ((before.flatMap Prod.fst).length + noise.length))) fault)) := by
  intro plain padded
  have fresh : (Run.start session : Run Value).fault? = none := rfl
  obtain ⟨state, calls, fault⟩ := Run.follows_source harness source padding.script fresh
  obtain ⟨state', calls', fault'⟩ := Run.follows_source harness source padding.padded fresh
  obtain ⟨same, asked, ends⟩ := harness.course_padded_cases (.start session) padding
  refine ⟨state'.trans (same.trans state.symm), ?_, ?_⟩
  · rw [calls', calls]
    exact congrArg _ asked
  · rcases ends with
      ⟨quiet, quiet'⟩ | ⟨before, noise, line, behind, cause, split, fails, stop, stop'⟩
    · left
      constructor
      · rw [fault]
        exact Option.map_eq_none_iff.mpr quiet
      · rw [fault']
        exact Option.map_eq_none_iff.mpr quiet'
    · right
      refine ⟨before, noise, line, behind, cause, split, ?_, ?_, ?_⟩
      · rw [(Run.follows_source harness source (before.map Prod.snd) fresh).state]
        exact fails
      · rw [fault]
        exact congrArg (Option.map _) stop
      · rw [fault', Nat.add_right_comm]
        exact congrArg (Option.map _) stop'

end Harness
end DecimalConformance
