import DecimalConformance.Diagnostic
import DecimalConformance.Proofs.Except
import DecimalConformance.Proofs.Run.Directives
import Mathlib.Data.List.Induction
import Mathlib.Data.List.Nodup

/-! How settings are resolved.
A merged layer holds for each key the last value that the highest layer with that key was given, under
whatever spelling.  Four keys settle everything: settings that are accepted can be honoured, and any
others are refused as settings. -/
namespace DecimalConformance

namespace Layer

/-- The layer that settings make, in their order. -/
def ofList (settings : List (String × String)) : Layer :=
  settings.foldl (fun layer (key, value) => layer.insert key value) empty

/-- The last value among settings that a key has under any spelling. -/
def lastValue? (settings : List (String × String)) (key : String) : Option String :=
  ((settings.filter fun setting => normalizeKey setting.1 = normalizeKey key).getLast?).map Prod.snd

/-- Each key has one value. -/
def IsKeyed (layer : Layer) : Prop := (layer.entries.map Prod.fst).Nodup

/-- Whether a layer has a value for a normalized key. -/
def has (layer : Layer) (key : String) : Bool := layer.entries.any (·.1 = key)

/-! ## One layer -/

theorem isKeyed_set {layer : Layer} (h : layer.IsKeyed) (key value : String) :
    (layer.set key value).IsKeyed := by
  have rest : ((layer.entries.filter (·.1 ≠ key)).map Prod.fst).Nodup :=
    h.sublist (List.filter_sublist.map Prod.fst)
  rw [IsKeyed, set, List.map_append, List.nodup_append]
  refine ⟨rest, List.nodup_singleton _, ?_⟩
  intro other earlier last single
  obtain ⟨entry, kept, rfl⟩ := List.mem_map.mp earlier
  rw [List.map_singleton, List.mem_singleton] at single
  rw [single]
  simpa using (List.mem_filter.mp kept).2

theorem ofList_append (front behind : List (String × String)) :
    ofList (front ++ behind) =
      behind.foldl (fun layer (key, value) => layer.insert key value) (ofList front) :=
  List.foldl_append

theorem isKeyed_ofList (settings : List (String × String)) : (ofList settings).IsKeyed := by
  induction settings using List.reverseRecOn with
  | nil => exact List.nodup_nil
  | append_singleton front setting ih =>
    rw [ofList_append]
    exact isKeyed_set ih _ _

/-- A layer holds the last values. -/
theorem get?_ofList (settings : List (String × String)) (key : String) :
    (ofList settings).get? key = lastValue? settings key := by
  induction settings using List.reverseRecOn with
  | nil => rfl
  | append_singleton front setting ih =>
    obtain ⟨spelling, value⟩ := setting
    rw [ofList_append, List.foldl_cons, List.foldl_nil, get?_insert, ih, lastValue?, lastValue?,
      List.filter_append, List.filter_singleton]
    by_cases same : normalizeKey key = normalizeKey spelling
    · simp [same]
    · simp [same, Ne.symm same]

/-! ## Layers on top of each other -/

/-- The values on top hide those below. -/
theorem get?_merge (lower : Layer) {upper : Layer} (h : upper.IsKeyed) (key : String) :
    (lower.merge upper).get? key = (upper.get? key).or (lower.get? key) := by
  obtain ⟨entries⟩ := upper
  unfold get?
  induction entries generalizing lower with
  | nil => rfl
  | cons entry rest ih =>
    obtain ⟨new, keyed⟩ := List.nodup_cons.mp h
    have step : lower.merge ⟨entry :: rest⟩ = (lower.set entry.1 entry.2).merge ⟨rest⟩ := rfl
    rw [step, ih _ keyed, lookup_set, List.lookup_cons]
    by_cases same : normalizeKey key = entry.1
    · have hidden : rest.lookup entry.1 = none := by
        rw [List.lookup_eq_none_iff]
        intro other mem
        simpa using fun twice : entry.1 = other.1 => new (List.mem_map.mpr ⟨other, mem, twice.symm⟩)
      simp only [hidden, same, if_true, Option.none_or, beq_self_eq_true, Option.some_or]
    · simp only [same, if_false, beq_eq_false_iff_ne.mpr same]

theorem isKeyed_merge {lower upper : Layer} (h : lower.IsKeyed) : (lower.merge upper).IsKeyed := by
  obtain ⟨entries⟩ := upper
  induction entries generalizing lower with
  | nil => exact h
  | cons entry rest ih => exact ih (isKeyed_set h entry.1 entry.2)

/-- What is below stays in front, except for the keys on top. -/
theorem merge_eq (lower : Layer) {upper : Layer} (h : upper.IsKeyed) :
    lower.merge upper = ⟨lower.entries.filter (!upper.has ·.1) ++ upper.entries⟩ := by
  obtain ⟨entries⟩ := upper
  induction entries generalizing lower with
  | nil => simp [merge, has]
  | cons entry rest ih =>
    obtain ⟨new, keyed⟩ := List.nodup_cons.mp h
    have kept : rest.any (·.1 = entry.1) = false := by
      rw [List.any_eq_false]
      intro other mem
      simpa using fun twice : other.1 = entry.1 => new (List.mem_map.mpr ⟨other, mem, twice⟩)
    have step : lower.merge ⟨entry :: rest⟩ = (lower.set entry.1 entry.2).merge ⟨rest⟩ := rfl
    rw [step, ih _ keyed, set]
    simp only [has, List.filter_append, List.filter_singleton, kept, List.filter_filter,
      List.any_cons, List.append_assoc]
    congr 2
    refine List.filter_congr fun other _ => ?_
    by_cases same : entry.1 = other.1
    · simp [same]
    · simp [same, Ne.symm same, Bool.and_comm]

theorem has_merge (lower : Layer) {upper : Layer} (h : upper.IsKeyed) (key : String) :
    (lower.merge upper).has key = (lower.has key || upper.has key) := by
  rw [merge_eq lower h, has, has, List.any_append, List.any_filter, ← has]
  cases on : upper.has key with
  | true => simp
  | false =>
    rw [Bool.or_false, Bool.or_false]
    congr 1
    funext entry
    by_cases same : entry.1 = key
    · simp [same, on]
    · simp [same]

theorem merge_assoc (lowest : Layer) {middle highest : Layer} (h : middle.IsKeyed)
    (h' : highest.IsKeyed) :
    (lowest.merge middle).merge highest = lowest.merge (middle.merge highest) := by
  rw [merge_eq lowest (isKeyed_merge h), merge_eq _ h', merge_eq lowest h]
  simp only [has_merge middle h', List.filter_append, List.filter_filter, List.append_assoc,
    Bool.not_or, Bool.and_comm]
  rw [merge_eq middle h']

theorem empty_merge {layer : Layer} (h : layer.IsKeyed) : empty.merge layer = layer := by
  rw [merge_eq empty h]
  rfl

/-- Of layers in ascending precedence the last one with a value counts. -/
theorem get?_mergeAll {layers : List Layer} (h : ∀ layer ∈ layers, layer.IsKeyed) (key : String) :
    (mergeAll layers).get? key = layers.reverse.findSome? (·.get? key) := by
  induction layers using List.reverseRecOn with
  | nil => rfl
  | append_singleton lower upper ih =>
    rw [List.forall_mem_append, List.forall_mem_singleton] at h
    have step : mergeAll (lower ++ [upper]) = (mergeAll lower).merge upper := List.foldl_append
    rw [step, get?_merge _ h.2, ih h.1, List.reverse_append, List.reverse_singleton,
      List.singleton_append, List.findSome?_cons]
    cases upper.get? key <;> rfl

end Layer

namespace Settings

/-! ## Settling a layer -/

/-- Only the known keys count. -/
theorem ofLayer_congr {layer layer' : Layer}
    (h : ∀ key ∈ knownKeys, layer.get? key = layer'.get? key) : ofLayer layer = ofLayer layer' := by
  simp only [knownKeys, List.forall_mem_cons, List.not_mem_nil, false_implies, implies_true,
    and_true] at h
  obtain ⟨dialect, internal, precision, rounding⟩ := h
  simp only [ofLayer, requirePrecision, require, dialect, internal, precision, rounding]

theorem ofLayer_insert {key : String} (unknown : normalizeKey key ∉ knownKeys) (layer : Layer)
    (value : String) : ofLayer (layer.insert key value) = ofLayer layer := by
  refine ofLayer_congr fun known mem => ?_
  have normal : ∀ known ∈ knownKeys, normalizeKey known = known := by decide
  rw [Layer.get?_insert, if_neg]
  rw [normal known mem]
  rintro rfl
  exact unknown mem

/-- Whatever is wrong is refused as settings are. -/
def RefusesOnly {α : Type} (x : Except Fault α) : Prop :=
  ∀ fault, x = .error fault → ∃ reason, fault = .plain (.settings reason)

theorem RefusesOnly.bind {α β : Type} {x : Except Fault α} {f : α → Except Fault β}
    (first : RefusesOnly x) (rest : ∀ a, RefusesOnly (f a)) : RefusesOnly (x >>= f) := by
  intro fault wrong
  rcases bind_eq_error_iff.mp wrong with early | ⟨a, -, late⟩
  · exact first fault early
  · exact rest a fault late

theorem refusesOnly_ok {α : Type} (a : α) : RefusesOnly (.ok a) := nofun

theorem refusesOnly_refused {α : Type} (reason : String) :
    RefusesOnly (.error (refused reason) : Except Fault α) := by
  rintro fault ⟨⟩
  exact ⟨reason, rfl⟩

theorem refusesOnly_require (layer : Layer) (key : String) : RefusesOnly (require layer key) := by
  unfold require
  split
  · exact refusesOnly_ok _
  · exact refusesOnly_refused _

theorem refusesOnly_requirePrecision (layer : Layer) (key : String) :
    RefusesOnly (requirePrecision layer key) := by
  refine (refusesOnly_require layer key).bind fun value => ?_
  split
  · exact refusesOnly_ok _
  · exact refusesOnly_refused _

theorem refusesOnly_ofName (name : String) : RefusesOnly (Dialect.ofName name) := by
  unfold Dialect.ofName
  split
  · exact refusesOnly_ok _
  · exact refusesOnly_ok _
  · exact refusesOnly_refused _

/-- What is missing, unknown or wrong among the known keys is refused. -/
theorem refusesOnly_ofLayer (layer : Layer) : RefusesOnly (ofLayer layer) := by
  refine (refusesOnly_require layer _).bind fun name => ?_
  refine (refusesOnly_ofName name).bind fun dialect => ?_
  refine (refusesOnly_requirePrecision layer _).bind fun internalPrecision => ?_
  split
  · exact refusesOnly_refused _
  · refine (refusesOnly_requirePrecision layer _).bind fun precision => ?_
    refine (refusesOnly_require layer _).bind fun written => ?_
    dsimp only
    split
    · exact refusesOnly_ok _
    · exact refusesOnly_refused _

/-- Of all layers that settings make, the highest with a value for a key decides, by the last value
that it was given under any spelling; merging is associative, and an empty layer adds nothing.  Settling
looks at the four known keys alone.  What is accepted has an internal precision and a rounding that the
dialect knows as a mode, and starts a session with all of it that skips nothing; everything else is
refused as settings, with their exit code. -/
theorem settings_resolve :
    (∀ (layers : List (List (String × String))) (key : String),
      (Layer.mergeAll (layers.map Layer.ofList)).get? key =
        layers.reverse.findSome? (Layer.lastValue? · key)) ∧
    (∀ lowest middle highest : List (String × String),
      ((Layer.ofList lowest).merge (Layer.ofList middle)).merge (Layer.ofList highest) =
        (Layer.ofList lowest).merge ((Layer.ofList middle).merge (Layer.ofList highest)) ∧
      Layer.empty.merge (Layer.ofList lowest) = Layer.ofList lowest ∧
      (Layer.ofList lowest).merge Layer.empty = Layer.ofList lowest) ∧
    (∀ layer layer' : Layer, (∀ key ∈ knownKeys, layer.get? key = layer'.get? key) →
      ofLayer layer = ofLayer layer') ∧
    (∀ (layer : Layer) (key value : String), normalizeKey key ∉ knownKeys →
      ofLayer (layer.insert key value) = ofLayer layer) ∧
    (∀ (layer : Layer) (settings : Settings), ofLayer layer = .ok settings →
      1 ≤ settings.internalPrecision ∧
      settings.dialect.rounding? settings.roundingToken = some (.mode settings.rounding) ∧
      settings.session =
        ⟨settings.precision, settings.rounding, settings.roundingToken, false⟩) ∧
    ∀ (layer : Layer) (fault : Fault), ofLayer layer = .error fault →
      (∃ reason, fault = .plain (.settings reason)) ∧ fault.exitCode = 4 := by
  refine ⟨?_, ?_, fun _ _ => ofLayer_congr, fun layer key value unknown => ?_, ?_, ?_⟩
  · intro layers key
    have keyed : ∀ layer ∈ layers.map Layer.ofList, layer.IsKeyed := by
      rintro layer mem
      obtain ⟨settings, -, rfl⟩ := List.mem_map.mp mem
      exact Layer.isKeyed_ofList settings
    rw [Layer.get?_mergeAll keyed, ← List.map_reverse, List.findSome?_map]
    congr 1
    funext settings
    exact Layer.get?_ofList settings key
  · intro lowest middle highest
    exact ⟨Layer.merge_assoc _ (Layer.isKeyed_ofList middle) (Layer.isKeyed_ofList highest),
      Layer.empty_merge (Layer.isKeyed_ofList lowest), Layer.merge_empty _⟩
  · exact ofLayer_insert unknown layer value
  · intro layer settings accepted
    obtain ⟨positive, meaning⟩ := consistent_of_ofLayer accepted
    exact ⟨positive, meaning, rfl⟩
  · intro layer fault wrong
    obtain ⟨reason, rfl⟩ := refusesOnly_ofLayer layer fault wrong
    exact ⟨⟨reason, rfl⟩, rfl⟩

/-- Settings in mixed spellings over the defaults are accepted, and start a session of their own. -/
theorem settings_resolve_varying :
    let overrides := Layer.ofList [("Dialect", "variable"), ("Internal_Precision", "50"),
      ("precision", "12"), ("rounding", " Half_Up ")]
    let settings : Settings := ⟨.varying, 50, 12, .nearestAway, "half_up"⟩
    ofLayer (defaultLayer.merge overrides) = .ok settings ∧
    1 ≤ settings.internalPrecision ∧
    settings.dialect.rounding? settings.roundingToken = some (.mode settings.rounding) ∧
    settings.session = ⟨12, .nearestAway, "half_up", false⟩ ∧
    ofLayer (overrides.insert "colour" "blue") = ofLayer overrides := by
  intro overrides settings
  have accepted : ofLayer (defaultLayer.merge overrides) = .ok settings := by
    decide +kernel
  obtain ⟨-, -, -, unknown, consistent, -⟩ := settings_resolve
  obtain ⟨positive, meaning, session⟩ := consistent _ _ accepted
  exact ⟨accepted, positive, meaning, session, unknown _ _ _ (by decide)⟩

end Settings
end DecimalConformance
