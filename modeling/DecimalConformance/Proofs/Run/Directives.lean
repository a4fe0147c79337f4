import DecimalConformance.Proofs.Evaluation.Calls
import DecimalConformance.Proofs.Except
import DecimalConformance.Proofs.Run.Ledger
import DecimalConformance.Settings

/-! Directives and the calls that follow them.
The session is what the last accepted directives say.  An unsupported token leaves the mode of an
older one in place, and no call ever sees that mode. -/
namespace DecimalConformance

namespace Script

def declaredRounding? (dialect : Dialect) (raw : String) : Option String :=
  match classify (normalize raw) with
  | .rounding text => (parseRounding dialect text).toOption.map Prod.fst
  | _ => none

def declaredPrecision? (raw : String) : Option Nat :=
  match classify (normalize raw) with
  | .precision text => (parsePrecision text).toOption
  | _ => none

/-- What the last line says that declares anything, or else what held before. -/
def lastDeclared {α : Type} (declared? : String → Option α) (seed : α) (lines : List String) : α :=
  (lines.filterMap declared?).getLast?.getD seed

theorem lastDeclared_cons {α : Type} (declared? : String → Option α) (seed : α) (raw : String)
    (rest : List String) : lastDeclared declared? seed (raw :: rest) =
      lastDeclared declared? ((declared? raw).getD seed) rest := by
  unfold lastDeclared
  cases new : declared? raw with
  | none => rw [List.filterMap_cons_none new, Option.getD_none]
  | some value =>
    rw [List.filterMap_cons_some new, List.getLast?_cons, Option.getD_some, Option.getD_some]

theorem rounding?_of_parseRounding {dialect : Dialect} {line token : String}
    {directive : RoundingDirective} (h : parseRounding dialect line = .ok (token, directive)) :
    dialect.rounding? token = some directive := by
  unfold parseRounding at h
  dsimp only at h
  split at h
  · next meaning =>
    obtain ⟨rfl, rfl⟩ := Prod.mk.inj (Except.ok.inj h)
    exact meaning
  · cases h

end Script

namespace Session

/-- The declared token is in the vocabulary of the dialect.  If it names a mode, that mode is in
place; if not, tests are skipped. -/
inductive Coherent (dialect : Dialect) (session : Session) : Prop where
  | active (meaning : dialect.rounding? session.declared = some (.mode session.rounding))
    (runs : session.skipping = false)
  | skipping (meaning : dialect.rounding? session.declared = some .unsupported)
    (skips : session.skipping = true)

theorem Coherent.skipping_iff {dialect : Dialect} {session : Session}
    (h : session.Coherent dialect) : session.skipping = false ↔
      dialect.rounding? session.declared = some (.mode session.rounding) := by
  cases h with
  | active meaning runs => exact ⟨fun _ => meaning, fun _ => runs⟩
  | skipping meaning skips =>
    rw [meaning, skips]
    simp

theorem Coherent.setPrecision {dialect : Dialect} {session : Session}
    (h : session.Coherent dialect) (precision : Nat) :
    (session.setPrecision precision).Coherent dialect := by
  cases h with
  | active meaning runs => exact .active meaning runs
  | skipping meaning skips => exact .skipping meaning skips

theorem coherent_setRounding {dialect : Dialect} {token : String} {directive : RoundingDirective}
    (meaning : dialect.rounding? token = some directive) (session : Session) :
    (session.setRounding token directive).Coherent dialect := by
  cases directive with
  | mode mode => exact .active meaning rfl
  | unsupported => exact .skipping meaning rfl

/-- The sessions that runs start from: the one without settings, and those of settings that are
accepted for the dialect. -/
inductive IsSeed (dialect : Dialect) : Session → Prop where
  | unset : IsSeed dialect (.start 0 .nearestEven)
  | settled {layer : Layer} {settings : Settings} (accepted : Settings.ofLayer layer = .ok settings)
    (same : settings.dialect = dialect) : IsSeed dialect settings.session

end Session

/-- Settings that are accepted can be honoured. -/
theorem Settings.consistent_of_ofLayer {layer : Layer} {settings : Settings}
    (h : ofLayer layer = .ok settings) :
    0 < settings.internalPrecision ∧
      settings.dialect.rounding? settings.roundingToken = some (.mode settings.rounding) := by
  obtain ⟨name, -, h⟩ := exists_of_bind_eq_ok h
  obtain ⟨dialect, -, h⟩ := exists_of_bind_eq_ok h
  obtain ⟨internalPrecision, -, h⟩ := exists_of_bind_eq_ok h
  split at h
  · cases h
  · next positive =>
    obtain ⟨precision, -, h⟩ := exists_of_bind_eq_ok h
    obtain ⟨written, -, h⟩ := exists_of_bind_eq_ok h
    dsimp only at h
    split at h
    · next rounding meaning =>
      obtain rfl := Except.ok.inj h
      exact ⟨Nat.pos_of_ne_zero positive, meaning⟩
    · cases h

theorem Session.IsSeed.coherent {dialect : Dialect} {session : Session} (h : session.IsSeed dialect) :
    session.Coherent dialect := by
  cases h with
  | unset => cases dialect <;> exact .active rfl rfl
  | settled accepted same =>
    subst same
    exact Session.coherent_setRounding (Settings.consistent_of_ofLayer accepted).2 _

namespace Harness

variable {Value : Type} (harness : Harness Value)

/-! ## The session -/

theorem session_processTest (state : RunState) (text : String) :
    (harness.processTest state text).state.session = state.session := by
  unfold processTest
  dsimp only
  split <;> rfl

/-- A directive that is accepted changes the session, and no other line does. -/
theorem session_process (state : RunState) (raw : String) :
    (harness.process state raw).state.session = state.session ∧
        Script.declaredPrecision? raw = none ∧
        Script.declaredRounding? harness.dialect raw = none ∨
    (∃ precision, (harness.process state raw).state.session = state.session.setPrecision precision ∧
      Script.declaredPrecision? raw = some precision ∧
      Script.declaredRounding? harness.dialect raw = none) ∨
    ∃ token directive,
      (harness.process state raw).state.session = state.session.setRounding token directive ∧
      Script.declaredPrecision? raw = none ∧
      Script.declaredRounding? harness.dialect raw = some token ∧
      harness.dialect.rounding? token = some directive := by
  unfold process Script.declaredPrecision? Script.declaredRounding?
  cases kind : Script.classify (Script.normalize raw) with
  | blank => exact .inl ⟨rfl, rfl, rfl⟩
  | comment => exact .inl ⟨rfl, rfl, rfl⟩
  | ignored keyword => exact .inl ⟨rfl, rfl, rfl⟩
  | test text => exact .inl ⟨harness.session_processTest state text, rfl, rfl⟩
  | precision text =>
    dsimp only
    cases accepted : Script.parsePrecision text with
    | error fault => exact .inl ⟨rfl, rfl, rfl⟩
    | ok precision => exact .inr (.inl ⟨precision, rfl, rfl, rfl⟩)
  | rounding text =>
    dsimp only
    cases accepted : Script.parseRounding harness.dialect text with
    | error fault => exact .inl ⟨rfl, rfl, rfl⟩
    | ok declaration =>
      obtain ⟨token, directive⟩ := declaration
      exact .inr (.inr ⟨token, directive, rfl, rfl, rfl,
        Script.rounding?_of_parseRounding accepted⟩)

theorem declared_process (state : RunState) (raw : String) :
    (harness.process state raw).state.session.declared =
      (Script.declaredRounding? harness.dialect raw).getD state.session.declared := by
  rcases harness.session_process state raw with
    ⟨same, -, none⟩ | ⟨precision, changed, -, none⟩ | ⟨token, directive, changed, -, new, -⟩
  · rw [same, none, Option.getD_none]
  · rw [changed, none, Option.getD_none, Session.setPrecision]
  · rw [changed, new, Option.getD_some]
    cases directive <;> rfl

theorem precision_process (state : RunState) (raw : String) :
    (harness.process state raw).state.session.precision =
      (Script.declaredPrecision? raw).getD state.session.precision := by
  rcases harness.session_process state raw with
    ⟨same, none, -⟩ | ⟨precision, changed, new, -⟩ | ⟨token, directive, changed, none, -⟩
  · rw [same, none, Option.getD_none]
  · rw [changed, new, Option.getD_some, Session.setPrecision]
  · rw [changed, none, Option.getD_none]
    cases directive <;> rfl

theorem coherent_process {state : RunState} (h : state.session.Coherent harness.dialect)
    (raw : String) : (harness.process state raw).state.session.Coherent harness.dialect := by
  rcases harness.session_process state raw with
    ⟨same, -⟩ | ⟨precision, changed, -⟩ | ⟨token, directive, changed, -, -, meaning⟩
  · rw [same]
    exact h
  · rw [changed]
    exact h.setPrecision precision
  · rw [changed]
    exact Session.coherent_setRounding meaning state.session

private theorem session_after (state : RunState) (h : state.session.Coherent harness.dialect)
    (lines : List String) :
    (harness.after state lines).session.declared =
        Script.lastDeclared (Script.declaredRounding? harness.dialect) state.session.declared lines ∧
      (harness.after state lines).session.precision =
        Script.lastDeclared Script.declaredPrecision? state.session.precision lines ∧
      (harness.after state lines).session.Coherent harness.dialect := by
  induction lines generalizing state with
  | nil => exact ⟨rfl, rfl, h⟩
  | cons raw rest ih =>
    -- What this line leaves declared is the seed of the rest.
    rw [after_cons, Script.lastDeclared_cons, Script.lastDeclared_cons, ← declared_process,
      ← precision_process]
    exact ih _ (harness.coherent_process h raw)

/-- After any lines the session holds what the last accepted directives say. -/
theorem session_after_start {session : Session} (h : session.Coherent harness.dialect)
    (lines : List String) :
    (harness.after (.start session) lines).session.declared =
        Script.lastDeclared (Script.declaredRounding? harness.dialect) session.declared lines ∧
      (harness.after (.start session) lines).session.precision =
        Script.lastDeclared Script.declaredPrecision? session.precision lines ∧
      (harness.after (.start session) lines).session.Coherent harness.dialect :=
  harness.session_after (.start session) h lines

/-! ## Test lines -/

theorem exists_text_of_isTest {raw : String} (test : Script.isTest raw) (state : RunState) :
    ∃ text, harness.process state raw = harness.processTest state text := by
  unfold Script.isTest at test
  unfold process
  cases kind : Script.classify (Script.normalize raw) with
  | test text => exact ⟨text, rfl⟩
  | blank | comment | ignored | precision | rounding =>
    rw [kind] at test
    cases test

theorem process_of_skipping {state : RunState} {raw : String} (test : Script.isTest raw)
    (h : state.session.skipping) :
    (harness.process state raw).calls = [] ∧ (harness.process state raw).fault? = none ∧
      (harness.process state raw).state = { state with
        counters := state.counters.begin.record (.skipped .unsupportedRounding) } := by
  obtain ⟨text, processed⟩ := harness.exists_text_of_isTest test state
  have skipped : harness.evaluate state.session text =
      ⟨[], .ok (.skipped .unsupportedRounding)⟩ := by
    rw [evaluate, Plan.ofLine_of_skipping h]
    rfl
  rw [processed, processTest, skipped]
  exact ⟨rfl, rfl, rfl⟩

theorem runsAt_of_mem_calls_process {state : RunState} {raw : String} (test : Script.isTest raw)
    {call : Call Value} (h : call ∈ (harness.process state raw).calls) :
    call.RunsAt state.session.context (harness.operationContext state.session.context) := by
  obtain ⟨text, processed⟩ := harness.exists_text_of_isTest test state
  have calls : (harness.processTest state text).calls =
      (harness.evaluate state.session text).calls := by
    unfold processTest
    dsimp only
    split <;> rfl
  rw [processed, calls] at h
  exact harness.runsAt_of_mem_calls_evaluate h

theorem failures_process (state : RunState) (raw : String) :
    ∃ new, (harness.process state raw).state.failures = state.failures ++ new ∧
      ∀ record ∈ new, record.precision = state.session.precision ∧
        record.rounding = state.session.declared := by
  cases entry : harness.entryOf state.session raw with
  | none => exact ⟨[], by simp [(harness.process_of_entryOf_none entry).2], by simp⟩
  | some entry' =>
    refine ⟨entry'.failure?.toList, by rw [(harness.process_of_entryOf_some entry).1], ?_⟩
    intro record mem
    exact (harness.record_of_failure? entry (Option.mem_toList.mp mem)).2

/-- In a coherent session a test is skipped without a call, or its calls use the declared mode. -/
theorem process_of_coherent {state : RunState} {raw : String} (test : Script.isTest raw)
    (h : state.session.Coherent harness.dialect) :
    let step := harness.process state raw
    let precision := state.session.precision
    harness.dialect.rounding? state.session.declared = some .unsupported ∧ step.calls = [] ∧
        step.fault? = none ∧ step.state = { state with
          counters := state.counters.begin.record (.skipped .unsupportedRounding) } ∨
      ∃ mode, harness.dialect.rounding? state.session.declared = some (.mode mode) ∧
        ∀ call ∈ step.calls, call.RunsAt ⟨precision, mode⟩
          (harness.operationContext ⟨precision, mode⟩) := by
  intro step precision
  cases h with
  | active meaning _ =>
    exact .inr ⟨_, meaning, fun call mem => harness.runsAt_of_mem_calls_process test mem⟩
  | skipping meaning skips => exact .inl ⟨meaning, harness.process_of_skipping test skips⟩

/-- From either seed, a test runs under what the last accepted directives say: no call is made for
it if that rounding is unsupported, and otherwise every call uses that mode, and that precision as
far as the dialect lets it.  A failure is recorded with both. -/
theorem tests_follow_directives {session : Session} (seed : session.IsSeed harness.dialect)
    (lines : List String) :
    let state := harness.after (.start session) lines
    let token := Script.lastDeclared (Script.declaredRounding? harness.dialect) session.declared lines
    let precision := Script.lastDeclared Script.declaredPrecision? session.precision lines
    state.session.declared = token ∧ state.session.precision = precision ∧
    (state.session.skipping = false ↔
      harness.dialect.rounding? state.session.declared = some (.mode state.session.rounding)) ∧
    ∀ raw, Script.isTest raw →
      let step := harness.process state raw
      (harness.dialect.rounding? token = some .unsupported ∧ step.calls = [] ∧
          step.fault? = none ∧ step.state = { state with
            counters := state.counters.begin.record (.skipped .unsupportedRounding) } ∨
        ∃ mode, harness.dialect.rounding? token = some (.mode mode) ∧
          ∀ call ∈ step.calls, call.RunsAt ⟨precision, mode⟩
            (harness.operationContext ⟨precision, mode⟩)) ∧
      ∃ new, step.state.failures = state.failures ++ new ∧
        ∀ record ∈ new, record.precision = precision ∧ record.rounding = token := by
  obtain ⟨declared, limit, coherent⟩ := harness.session_after_start seed.coherent lines
  dsimp only
  refine ⟨declared, limit, coherent.skipping_iff, ?_⟩
  intro raw test
  have decided := harness.process_of_coherent test coherent
  have recorded := harness.failures_process (harness.after (.start session) lines) raw
  rw [declared, limit] at decided recorded
  exact ⟨decided, recorded⟩

/-- Where `down` is unsupported, its test reaches no engine: the mode in place is an older one. -/
theorem tests_follow_directives_unsupported :
    (Session.start 0 .nearestEven).IsSeed .varying ∧
    ((standard .varying 34).after (.start (.start 0 .nearestEven))
      ["rounding: half_up", "rounding: down"]).session.rounding = .nearestAway ∧
    ((standard .varying 34).process ((standard .varying 34).after (.start (.start 0 .nearestEven))
      ["rounding: half_up", "rounding: down"]) "t add '1' '2' -> '3'").calls = [] := by
  have seed : (Session.start 0 .nearestEven).IsSeed (standard .varying 34).dialect := .unset
  obtain ⟨-, -, -, tests⟩ := (standard .varying 34).tests_follow_directives seed
    ["rounding: half_up", "rounding: down"]
  have last : Script.lastDeclared (Script.declaredRounding? (standard .varying 34).dialect)
      (Session.start 0 .nearestEven).declared ["rounding: half_up", "rounding: down"] = "down" := by
    decide
  rcases (tests "t add '1' '2' -> '3'" (by decide)).1 with ⟨-, silent, -⟩ | ⟨mode, meaning, -⟩
  · exact ⟨seed, by decide, silent⟩
  · rw [last] at meaning
    cases meaning

end Harness
end DecimalConformance
