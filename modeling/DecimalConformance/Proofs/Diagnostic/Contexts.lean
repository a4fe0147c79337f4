import DecimalConformance.Diagnostic
import Mathlib.Data.String.Basic

/-! Faults met in contexts.
Contexts come in front of the message, and the outermost is kept as the location among the details.
All else that is reported of a fault, the exit code included, goes by its cause. -/
namespace DecimalConformance

/-! ## Fields in the order of their names -/

/-- Fields with one more, where its name belongs. -/
def placeField (name : String) (value : Document) (fields : List (String × Document)) :
    List (String × Document) :=
  fields.takeWhile (fun field => decide (field.1 < name)) ++ (name, value) ::
    fields.dropWhile (fun field => decide (field.1 < name))

section Place

variable {name : String} {value : Document} {field : String × Document}
  {fields : List (String × Document)}

theorem placeField_cons_of_lt (before : field.1 < name) :
    placeField name value (field :: fields) = field :: placeField name value fields := by
  rw [placeField, List.takeWhile_cons, List.dropWhile_cons]
  simp only [decide_eq_true before, if_true]
  rfl

theorem placeField_cons_of_not_lt (behind : ¬ field.1 < name) :
    placeField name value (field :: fields) = (name, value) :: field :: fields := by
  rw [placeField, List.takeWhile_cons, List.dropWhile_cons]
  simp only [decide_eq_false behind, Bool.false_eq_true, if_false]
  rfl

theorem perm_placeField : (placeField name value fields).Perm ((name, value) :: fields) := by
  refine List.perm_middle.trans ?_
  rw [List.takeWhile_append_dropWhile]

private theorem lookup_cons_eq_ite (other : String) (field : String × Document)
    (rest : List (String × Document)) :
    (field :: rest).lookup other = if other = field.1 then some field.2 else rest.lookup other := by
  rw [List.lookup_cons]
  split_ifs with same
  · rw [beq_iff_eq.mpr same]
  · rw [beq_eq_false_iff_ne.mpr same]

theorem lookup_placeField (other : String) :
    (placeField name value fields).lookup other =
      if other = name then some value else fields.lookup other := by
  induction fields with
  | nil => exact lookup_cons_eq_ite other (name, value) []
  | cons field rest ih =>
    by_cases before : field.1 < name
    · rw [placeField_cons_of_lt before, lookup_cons_eq_ite, lookup_cons_eq_ite, ih]
      by_cases found : other = field.1
      · rw [if_pos found, if_pos found, if_neg (found ▸ before.ne)]
      · rw [if_neg found, if_neg found]
    · rw [placeField_cons_of_not_lt before, lookup_cons_eq_ite]

theorem pairwise_placeField (sorted : fields.Pairwise (·.1 < ·.1))
    (new : ∀ field ∈ fields, field.1 ≠ name) :
    (placeField name value fields).Pairwise (·.1 < ·.1) := by
  induction fields with
  | nil => exact List.pairwise_singleton _ _
  | cons field rest ih =>
    obtain ⟨least, rising⟩ := List.pairwise_cons.mp sorted
    obtain ⟨other, new⟩ := List.forall_mem_cons.mp new
    rcases lt_or_gt_of_ne other with before | behind
    · rw [placeField_cons_of_lt before, List.pairwise_cons]
      refine ⟨fun next mem => ?_, ih rising new⟩
      rcases List.mem_cons.mp (perm_placeField.mem_iff.mp mem) with rfl | later
      · exact before
      · exact least next later
    · rw [placeField_cons_of_not_lt behind.not_gt, List.pairwise_cons]
      refine ⟨?_, sorted⟩
      rw [List.forall_mem_cons]
      exact ⟨behind, fun next mem => behind.trans (least next mem)⟩

end Place

/-! ## Causes -/

namespace Cause

/-- A cause lies in the script exactly if its exit code says so. -/
theorem isScript_iff (cause : Cause) : cause.isScript ↔ cause.code.exitCode = 3 := by
  cases cause <;> simp [isScript, code, FaultCode.exitCode]

/-- What is known of a cause stands in the order of its names, and a location is not part of it. -/
theorem details_sorted (cause : Cause) :
    (cause.details?.getD []).Pairwise (·.1 < ·.1) ∧
      ∀ field ∈ cause.details?.getD [], field.1 ≠ "location" := by
  cases cause <;> simp [details?, -String.lt_iff_ltb]

end Cause

namespace Fault

/-- A fault met in contexts, the outermost first. -/
def inContexts (contexts : List String) (fault : Fault) : Fault := contexts.foldr within fault

variable (contexts : List String) (fault : Fault)

theorem cause_inContexts : (inContexts contexts fault).cause = fault.cause := by
  induction contexts with
  | nil => rfl
  | cons context inner ih => exact ih

theorem message_inContexts :
    (inContexts contexts fault).message =
      String.join (contexts.map (· ++ ": ")) ++ fault.message := by
  induction contexts with
  | nil => simp [inContexts]
  | cons context inner ih =>
    have step : (inContexts (context :: inner) fault).message =
        context ++ ": " ++ (inContexts inner fault).message := rfl
    rw [step, ih, List.map_cons, String.join_cons]
    exact String.append_assoc.symm

theorem details?_within (context : String) :
    (within context fault).details? =
      some (placeField "location" (.text context) (fault.cause.details?.getD [])) := rfl

/-- Apart from the location, the details are those of the cause. -/
theorem lookup_details {name : String} (other : name ≠ "location") :
    (fault.details?.getD []).lookup name = (fault.cause.details?.getD []).lookup name := by
  cases fault with
  | plain cause => rfl
  | within context fault =>
    rw [details?_within, Option.getD_some, lookup_placeField, if_neg other]
    rfl

/-- The details with the outermost context: those of the fault, in the order of their names, with the
location set. -/
theorem details_inContexts (outermost : String) (inner : List String) :
    ∃ fields, (inContexts (outermost :: inner) fault).details? = some fields ∧
      fields.Pairwise (·.1 < ·.1) ∧
      (∀ name, fields.lookup name =
        if name = "location" then some (.text outermost)
        else (fault.details?.getD []).lookup name) ∧
      (fault.details? = none → fields = [("location", .text outermost)]) := by
  obtain ⟨sorted, new⟩ := fault.cause.details_sorted
  have step : inContexts (outermost :: inner) fault =
      within outermost (inContexts inner fault) := rfl
  refine ⟨_, by rw [step, details?_within, cause_inContexts],
    pairwise_placeField sorted new, fun name => ?_, fun absent => ?_⟩
  · rw [lookup_placeField]
    split_ifs with location
    · rfl
    · exact (lookup_details fault location).symm
  · cases fault with
    | plain cause =>
      have bare : cause.details? = none := absent
      show placeField "location" (.text outermost) (cause.details?.getD []) = _
      rw [bare]
      rfl
    | within context fault => cases absent

/-- Whatever contexts a fault is met in, its cause, code, exit code, suggestion, hint, and whether it
lies in the script stay as they are.  The message starts with the contexts, and the details say the
outermost as the location.  The exit code of scripts is that of the causes that lie in them. -/
theorem contexts_keep_fault (contexts : List String) (fault : Fault) :
    let met := fault.inContexts contexts
    met.cause = fault.cause ∧
    (Diagnostic.ofFault met).code = (Diagnostic.ofFault fault).code ∧
    met.exitCode = fault.exitCode ∧
    met.cause.suggestion? = fault.cause.suggestion? ∧
    (Diagnostic.ofFault met).hint? = (Diagnostic.ofFault fault).hint? ∧
    met.cause.isScript = fault.cause.isScript ∧
    (Diagnostic.ofFault met).message =
      String.join (contexts.map (· ++ ": ")) ++ (Diagnostic.ofFault fault).message ∧
    (match contexts with
      | [] => (Diagnostic.ofFault met).details? = (Diagnostic.ofFault fault).details?
      | outermost :: _ => ∃ fields, (Diagnostic.ofFault met).details? = some fields ∧
          fields.Pairwise (·.1 < ·.1) ∧
          (∀ name, fields.lookup name =
            if name = "location" then some (.text outermost)
            else ((Diagnostic.ofFault fault).details?.getD []).lookup name) ∧
          ((Diagnostic.ofFault fault).details? = none →
            fields = [("location", .text outermost)])) ∧
    (met.cause.isScript ↔ met.exitCode = 3) := by
  have cause := cause_inContexts contexts fault
  refine ⟨cause, congrArg Cause.code cause, congrArg (·.code.exitCode) cause,
    congrArg Cause.suggestion? cause, congrArg Cause.hint? cause, congrArg Cause.isScript cause,
    message_inContexts contexts fault, ?_, Cause.isScript_iff _⟩
  cases contexts with
  | nil => rfl
  | cons outermost inner => exact details_inContexts fault outermost inner

end Fault
end DecimalConformance
