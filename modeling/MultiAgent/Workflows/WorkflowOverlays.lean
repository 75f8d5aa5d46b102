import MultiAgent.Workflows.WorkflowErrors

/-!
# Workflows with overlays

`load_workflow` for the name of a workflow : the base file, the overlay of the tenant, that of
the environment, a validation, and a cache of what was loaded. An overlay is meant to add its
steps and transitions and to set fields over those before it (`Overlaid`), but what is handed to
`_merge_specs` is the specification that `_load_yaml_spec` made of the file, where it looks for
the keys of a dictionary.

So every load that finds an overlay raises, and one that finds none does what it is meant to,
as long as the search for a cycle ends (`overlay_law_iff`).
-/

namespace MultiAgent

namespace PyValue

/-- A string. -/
def isStr : PyValue → Bool
  | .str _ => true
  | _ => false

/-- A list. -/
def isArr : PyValue → Bool
  | .arr _ => true
  | _ => false

/-- A dictionary. -/
def isObj : PyValue → Bool
  | .obj _ => true
  | _ => false

/-- `None` or a dictionary. -/
def isOptionalObj : PyValue → Bool
  | .null => true
  | v => v.isObj

end PyValue

namespace WorkflowLoader

open Fallible

/-! ## The loader -/

/-- What `_merge_specs` gets as `override`. -/
inductive Override
  | dictionary (data : Items)
  | spec (spec : WorkflowSpec)

/-- `_merge_specs`, with whatever it is handed. -/
def mergeOverride (base : WorkflowSpec) : Override → Except PyError WorkflowSpec
  | .dictionary data => mergeSpecs base data
  -- `"nodes" in override` : an instance of a dataclass has no `in`
  | .spec _ => .error .typeError

/-- `if spec: base_spec = self._merge_specs(base_spec, spec)`. -/
def applyOverlay (base : WorkflowSpec) : Option WorkflowSpec → Except PyError WorkflowSpec
  | some spec => mergeOverride base (.spec spec)
  | none => .ok base

variable (L : WorkflowLoader)

/-- The path, if there is a file. -/
def existing (path : String) : Option FilePath :=
  if (L.files (.relative path)).isSome then some (.relative path) else none

/-- The overlay file of a tenant, if there is one. -/
def tenantPath (tenantId : String) : Option FilePath :=
  (L.existing ("tenants/" ++ tenantId ++ ".yaml")).or (L.existing "tenants/default.yaml")

/-- The overlay file of an environment, if there is one. -/
def environmentPath (environment : String) : Option FilePath :=
  L.existing ("environments/" ++ environment ++ ".yaml")

/-- `_load_tenant_workflow` and `_load_environment_workflow`, for the path that they find. -/
def loadOverlay (limit : ℕ) : Option FilePath → Except PyError (Option WorkflowSpec)
  | some path => some <$> L.loadYamlSpec limit path
  | none => .ok none

/-- `load_workflow` for a name, without the cache. -/
def loadFiles (limit : ℕ) (workflowName : String) (tenantId : Option String)
    (environment : String) : Except PyError WorkflowSpec := do
  let baseSpec ← L.loadBaseWorkflow limit (.str workflowName)
  let tenantSpec ← L.loadOverlay limit (tenantId.bind L.tenantPath)
  let baseSpec ← applyOverlay baseSpec tenantSpec
  let envSpec ← L.loadOverlay limit (L.environmentPath environment)
  let baseSpec ← applyOverlay baseSpec envSpec
  validateSpec limit baseSpec
  return baseSpec

/-- The key of a load in the cache. -/
def cacheKey (workflowName : String) (tenantId : Option String) (environment : String) :
    String :=
  workflowName ++ ":" ++ tenantId.getD "None" ++ ":" ++ environment

/-- `load_workflow` for a name, with the cache. -/
def loadNamed (limit : ℕ) (cache : Dict String WorkflowSpec) (workflowName : String)
    (tenantId : Option String) (environment : String) :
    Except PyError WorkflowSpec × Dict String WorkflowSpec :=
  let key := cacheKey workflowName tenantId environment
  match cache.get? key with
  | some spec => (.ok spec, cache)
  | none =>
    match L.loadFiles limit workflowName tenantId environment with
    | .ok spec => (.ok spec, cache.set key spec)
    | .error e => (.error e, cache)

/-! ## What overlays are meant to do -/

/-- The value that the last file sets, where a dictionary is merged into the one before it. -/
def lastSet (default : PyValue) (values : List (Option PyValue)) : PyValue :=
  (values.foldl (fun old value =>
    match value with
    | some v => some (mergeValue old v)
    | none => old) none).getD default

/-- A field of a file and of the specification. -/
structure Field where
  key : String
  default : PyValue
  get : WorkflowSpec → PyValue

/-- The fields at the top level of a file. -/
def topFields : List Field :=
  [⟨"name", .str "", WorkflowSpec.name⟩, ⟨"version", .str "1.0.0", WorkflowSpec.version⟩,
    ⟨"description", .str "", WorkflowSpec.description⟩,
    ⟨"feature_flags", .null, WorkflowSpec.featureFlags⟩, ⟨"quotas", .null, WorkflowSpec.quotas⟩,
    ⟨"security", .null, WorkflowSpec.security⟩, ⟨"monitoring", .null, WorkflowSpec.monitoring⟩]

/-- The fields below `workflow`. -/
def workflowFields : List Field :=
  [⟨"settings", .obj [], WorkflowSpec.settings⟩, ⟨"tools", .arr [], WorkflowSpec.tools⟩,
    ⟨"error_handling", .arr [], WorkflowSpec.errorHandling⟩,
    ⟨"metrics", .arr [], WorkflowSpec.metrics⟩]

/-- What a file sets below `workflow`. -/
def workflowField (key : String) (data : Items) : Option PyValue :=
  match Items.field data "workflow" with
  | some (.obj workflow) => Items.field workflow key
  | _ => none

/-- The steps and transitions of all files in order, and each field as the last of them sets
it. -/
structure Overlaid (files : List Items) (spec : WorkflowSpec) : Prop where
  parts : ∃ specs, files.mapM parseSpec = .ok specs ∧
    spec.steps = specs.flatMap WorkflowSpec.steps ∧
    spec.transitions = specs.flatMap WorkflowSpec.transitions
  top : ∀ f ∈ topFields, f.get spec = lastSet f.default (files.map (Items.field · f.key))
  workflow : ∀ f ∈ workflowFields, f.get spec = lastSet f.default (files.map (workflowField f.key))

/-- A load gives what the files are meant to give, or fails with a validation error. -/
def OverlayLaw (files : List Items) (result : Except PyError WorkflowSpec) : Prop :=
  (∃ spec, result = .ok spec ∧ Overlaid files spec) ∨
    ∃ text shown, result = .error (.valueError text shown)

/-! ## Valid files -/

/-- The types that the dataclasses declare. -/
structure WellTyped (spec : WorkflowSpec) : Prop where
  texts : ∀ v ∈ [spec.name, spec.version, spec.description], v.isStr
  settings : spec.settings.isObj
  lists : ∀ v ∈ [spec.tools, spec.errorHandling, spec.metrics], v.isArr
  options : ∀ v ∈ [spec.featureFlags, spec.quotas, spec.security, spec.monitoring],
    v.isOptionalObj
  steps : ∀ step ∈ spec.steps, (∀ v ∈ [step.id, step.type, step.name], v.isStr) ∧
    step.config.isObj ∧ step.metadata.isOptionalObj
  transitions : ∀ t ∈ spec.transitions, (∀ v ∈ [t.fromStep, t.toStep, t.condition], v.isStr) ∧
    t.metadata.isOptionalObj

instance (spec : WorkflowSpec) : Decidable (WellTyped spec) :=
  decidable_of_iff
    ((∀ v ∈ [spec.name, spec.version, spec.description], v.isStr) ∧ spec.settings.isObj ∧
      (∀ v ∈ [spec.tools, spec.errorHandling, spec.metrics], v.isArr) ∧
      (∀ v ∈ [spec.featureFlags, spec.quotas, spec.security, spec.monitoring],
        v.isOptionalObj) ∧
      (∀ step ∈ spec.steps, (∀ v ∈ [step.id, step.type, step.name], v.isStr) ∧
        step.config.isObj ∧ step.metadata.isOptionalObj) ∧
      ∀ t ∈ spec.transitions, (∀ v ∈ [t.fromStep, t.toStep, t.condition], v.isStr) ∧
        t.metadata.isOptionalObj)
    ⟨fun h => ⟨h.1, h.2.1, h.2.2.1, h.2.2.2.1, h.2.2.2.2.1, h.2.2.2.2.2⟩,
      fun h => ⟨h.texts, h.settings, h.lists, h.options, h.steps, h.transitions⟩⟩

/-- A file that extends nothing and has no mutations, and whose fields have their types. -/
structure ValidFile (data : Items) : Prop where
  extends_none : data.field "extends" = none
  mutations_none : data.field "mutations" = none
  parsed : ∃ spec, parseSpec data = .ok spec ∧ WellTyped spec

/-- The path holds a valid file. -/
def HoldsValid (path : FilePath) (data : Items) : Prop :=
  L.files path = some (.ok (.obj data)) ∧ ValidFile data

/-- The overlay files that a load finds. -/
def overlayPaths (tenantId : Option String) (environment : String) : List FilePath :=
  (tenantId.bind L.tenantPath).toList ++ (L.environmentPath environment).toList

/-! ## What a validation of typed fields raises -/

/-- No check of the validation raises it. -/
def Foreign (e : PyError) : Prop :=
  ∀ text shown, e ≠ .valueError text shown

section

variable {e : PyError}

theorem avoids_check (he : Foreign e) (text : String) (shown : List PyValue) (c : Bool) :
    Avoids e (raiseIf (PyError.valueError text shown) c) :=
  avoids_raiseIf (he text shown).symm

theorem avoids_hash_of_isStr {v : PyValue} (h : v.isStr) : Avoids e v.hash := by
  cases v with
  | str s => exact avoids_ok _ _
  | _ => cases h

theorem avoids_contains_of_isObj {v : PyValue} (h : v.isObj) (key : String) :
    Avoids e (v.contains key) := by
  cases v with
  | obj d => exact avoids_ok _ _
  | _ => cases h

theorem avoids_checkName_of_isStr (he : Foreign e) {name : PyValue} (h : name.isStr) :
    Avoids e (checkName name) := by
  have hstrip : Avoids e name.strip := by
    cases name with
    | str s => exact avoids_ok _ _
    | _ => cases h
  exact (avoids_check he _ _ _).bind fun _ => hstrip.bind fun _ => avoids_check he _ _ _

theorem avoids_checkReference_of_isStr (he : Foreign e) {t : WorkflowTransition}
    (hfrom : t.fromStep.isStr) (hto : t.toStep.isStr) (ids : List PyKey) :
    Avoids e (checkReference ids t) :=
  (avoids_hash_of_isStr hfrom).bind fun _ => (avoids_check he _ _ _).bind fun _ =>
    (avoids_hash_of_isStr hto).bind fun _ => avoids_check he _ _ _

theorem avoids_validateStep_of_typed (he : Foreign e) {step : WorkflowStep}
    (htype : step.type.isStr) (hconfig : step.config.isObj) : Avoids e (validateStep step) := by
  have hcheck := avoids_check he
  have hcontains := avoids_contains_of_isObj (e := e) hconfig
  unfold validateStep
  refine (hcheck _ _ _).bind fun _ => ?_
  refine (hcheck _ _ _).bind fun _ => ?_
  refine (hcheck _ _ _).bind fun _ => ?_
  refine (avoids_hash_of_isStr htype).bind fun type => ?_
  refine (hcheck _ _ _).bind fun _ => ?_
  by_cases hvalidator : type = .str "validator"
  · rw [if_pos hvalidator]
    refine (hcontains _).bind fun schema => ?_
    split_ifs <;> simp [avoids_bind, hcheck, hcontains]
  · rw [if_neg hvalidator]
    split_ifs <;> simp [avoids_bind, hcheck, hcontains]

theorem avoids_checkCircularDependencies_of_typed (he : Foreign e) (hrec : e ≠ .recursionError)
    {spec : WorkflowSpec} (h : WellTyped spec) (limit : ℕ) :
    Avoids e (checkCircularDependencies limit spec) := by
  have htarget : ∀ v ∈ spec.transitions.map WorkflowTransition.toStep, v.isStr := fun v hv => by
    obtain ⟨t, ht, rfl⟩ := List.mem_map.mp hv
    exact (h.transitions t ht).1 _ (by simp)
  refine avoids_bind.mpr ⟨avoids_mapM fun step hstep =>
    avoids_hash_of_isStr ((h.steps step hstep).1 _ (by simp)), fun ids _ => ?_⟩
  have hadjacency : Avoids e (adjacency ids spec.transitions) := by
    refine avoids_foldlM (fun t ht graph => ?_) _
    refine (avoids_hash_of_isStr ((h.transitions t ht).1 _ (by simp))).bind fun source => ?_
    split <;> simp
  refine avoids_bind.mpr ⟨hadjacency, fun graph hgraph => ?_⟩
  have hneighbor : ∀ n, ∀ v ∈ neighbors graph n, v.hash ≠ .error e := fun n v hv => by
    have hempty : v ∉ neighbors (ids.foldl (fun graph id => graph.set id []) Dict.empty) n := by
      rw [neighbors_initial ids Dict.empty rfl]
      exact List.not_mem_nil
    exact avoids_hash_of_isStr
      (htarget v ((toStep_of_mem_neighbors _ _ _ hgraph hv).resolve_left hempty))
  refine Avoids.bind (DepthFirst.fromRoots_ne_error hrec hneighbor limit ids _) fun result => ?_
  exact avoids_check he _ _ _

/-- The validation of typed fields raises validation errors, and `RecursionError`. -/
theorem validateSpec_error {limit : ℕ} {spec : WorkflowSpec} (h : WellTyped spec)
    (herror : validateSpec limit spec = .error e) :
    (∃ text shown, e = .valueError text shown) ∨ e = .recursionError := by
  by_contra hother
  obtain ⟨hvalue, hrec⟩ := not_or.mp hother
  have he : Foreign e := fun text shown heq => hvalue ⟨text, shown, heq⟩
  have hname := avoids_checkName_of_isStr he (h.texts spec.name (by simp))
  have hids : Avoids e (spec.steps.mapM fun step => step.id.hash) := avoids_mapM fun step hstep =>
    avoids_hash_of_isStr ((h.steps step hstep).1 _ (by simp))
  have hreferences : ∀ ids, Avoids e (spec.transitions.forM (checkReference ids)) := fun ids =>
    avoids_forM fun t ht => avoids_checkReference_of_isStr he
      ((h.transitions t ht).1 _ (by simp)) ((h.transitions t ht).1 _ (by simp)) ids
  have hsteps : Avoids e (spec.steps.forM validateStep) := avoids_forM fun step hstep =>
    avoids_validateStep_of_typed he ((h.steps step hstep).1 _ (by simp)) (h.steps step hstep).2.1
  have havoids : Avoids e (validateSpec limit spec) :=
    hname.bind fun _ => hids.bind fun ids => (avoids_check he _ _ _).bind fun _ =>
      (hreferences ids).bind fun _ =>
        (avoids_checkCircularDependencies_of_typed he hrec h limit).bind fun _ => hsteps
  exact havoids herror

end

/-! ## Loads without overlays -/

theorem lastSet_singleton (default : PyValue) (value : Option PyValue) :
    lastSet default [value] = value.getD default := by
  cases value with
  | none => rfl
  | some v => exact mergeValue_none v

/-- A file that is parsed has a dictionary below `workflow`, if it has anything there. -/
theorem workflow_of_parseSpec {data : Items} {spec : WorkflowSpec}
    (h : parseSpec data = .ok spec) :
    ∃ workflow, (data.field "workflow").getD (.obj []) = .obj workflow ∧
      ∀ key, workflowField key data = Items.field workflow key := by
  obtain ⟨_, hsteps, -⟩ := bind_eq_ok.mp h
  unfold workflowField
  cases hworkflow : data.field "workflow" with
  | none => exact ⟨[], rfl, fun key => rfl⟩
  | some v =>
    rw [hworkflow] at hsteps
    cases v with
    | obj workflow => exact ⟨workflow, rfl, fun key => rfl⟩
    | _ => cases hsteps

/-- A file alone is what its fields say. -/
theorem overlaid_singleton {data : Items} {spec : WorkflowSpec} (h : parseSpec data = .ok spec) :
    Overlaid [data] spec := by
  obtain ⟨workflow, hworkflow, hfield⟩ := workflow_of_parseSpec h
  refine ⟨⟨[spec], mapM_eq_ok.mpr (.cons h .nil), by simp, by simp⟩, ?_, ?_⟩
  all_goals
    unfold parseSpec at h
    rw [hworkflow] at h
    simp only [PyValue.get?, ok_bind] at h
    obtain ⟨_, -, h⟩ := bind_eq_ok.mp h
    obtain ⟨_, -, h⟩ := bind_eq_ok.mp h
    obtain ⟨_, -, h⟩ := bind_eq_ok.mp h
    obtain ⟨_, -, h⟩ := bind_eq_ok.mp h
    obtain rfl := Except.ok.inj h
  · simp only [topFields, List.map_cons, List.map_nil, lastSet_singleton, List.forall_mem_cons,
      List.not_mem_nil, false_imp_iff, implies_true, and_self]
  · simp only [workflowFields, List.map_cons, List.map_nil, lastSet_singleton, hfield,
      List.forall_mem_cons, List.not_mem_nil, false_imp_iff, implies_true, and_self]

variable {L} {path : FilePath} {data base : Items} {workflowName environment : String}
  {tenantId : Option String} {limit : ℕ}

theorem loadYamlSpec_of_valid (h : L.HoldsValid path data) :
    L.loadYamlSpec (limit + 1) path = parseSpec data := by
  unfold loadYamlSpec readYaml
  rw [h.1]
  simp only [ok_bind, h.2.extends_none, applyWhere, h.2.mutations_none, Option.isSome_none,
    Bool.false_eq_true, if_false]

theorem loadBaseWorkflow_of_valid (h : L.HoldsValid (L.basePath (.str workflowName)) base) :
    L.loadBaseWorkflow (limit + 1) (.str workflowName) = parseSpec base := by
  rw [loadBaseWorkflow_eq, loadYamlSpec_of_valid h]
  rw [h.1]
  rfl

/-- A valid overlay is loaded as a specification, which cannot be merged. -/
theorem loadOverlay_of_valid (h : L.HoldsValid path data) : ∃ spec,
    L.loadOverlay (limit + 1) (some path) = .ok (some spec) := by
  obtain ⟨spec, hspec, -⟩ := h.2.parsed
  refine ⟨spec, ?_⟩
  rw [loadOverlay, loadYamlSpec_of_valid h, hspec]
  rfl

/-- A load without overlays validates the base file. -/
theorem loadFiles_of_no_overlay (h : L.HoldsValid (L.basePath (.str workflowName)) base)
    (hnone : L.overlayPaths tenantId environment = []) :
    L.loadFiles (limit + 1) workflowName tenantId environment = do
      let spec ← parseSpec base
      validateSpec (limit + 1) spec
      return spec := by
  obtain ⟨htenant, henvironment⟩ := List.append_eq_nil_iff.mp hnone
  rw [Option.toList_eq_nil_iff] at htenant henvironment
  unfold loadFiles
  rw [htenant, henvironment, loadBaseWorkflow_of_valid h]
  rfl

/-- A load that finds an overlay raises. -/
theorem loadFiles_of_overlay (h : L.HoldsValid (L.basePath (.str workflowName)) base)
    (hvalid : ∀ path ∈ L.overlayPaths tenantId environment, ∃ data, L.HoldsValid path data)
    (hsome : L.overlayPaths tenantId environment ≠ []) :
    L.loadFiles (limit + 1) workflowName tenantId environment = .error .typeError := by
  obtain ⟨spec, hspec, -⟩ := h.2.parsed
  have hload : ∀ path ∈ L.overlayPaths tenantId environment, ∃ spec,
      L.loadOverlay (limit + 1) (some path) = .ok (some spec) := fun path hpath =>
    (hvalid path hpath).elim fun _ hdata => loadOverlay_of_valid hdata
  unfold overlayPaths at hload hsome
  unfold loadFiles
  rw [loadBaseWorkflow_of_valid h, hspec, ok_bind]
  cases htenant : tenantId.bind L.tenantPath with
  | some path =>
    obtain ⟨tenantSpec, htenantSpec⟩ := hload path (by simp [htenant])
    rw [htenantSpec]
    rfl
  | none =>
    cases henvironment : L.environmentPath environment with
    | some path =>
      obtain ⟨envSpec, henvSpec⟩ := hload path (by simp [henvironment])
      rw [henvSpec]
      rfl
    | none => simp [htenant, henvironment] at hsome

/-- A load returns what the files give, if that is what the cache holds. -/
theorem fst_loadNamed {cache : Dict String WorkflowSpec}
    (h : ∀ spec, cache.get? (cacheKey workflowName tenantId environment) = some spec →
      L.loadFiles limit workflowName tenantId environment = .ok spec) :
    (L.loadNamed limit cache workflowName tenantId environment).1 =
      L.loadFiles limit workflowName tenantId environment := by
  unfold loadNamed
  dsimp only
  cases hget : cache.get? (cacheKey workflowName tenantId environment) with
  | some spec => exact (h spec hget).symm
  | none => cases L.loadFiles limit workflowName tenantId environment <;> rfl

variable (L) in
/-- A load of valid files obeys the overlay law if and only if it finds no overlay and the
validation of the base file does not exhaust the stack. -/
theorem overlay_law_iff {cache : Dict String WorkflowSpec} {overlays : List Items}
    (hcache : ∀ spec, cache.get? (cacheKey workflowName tenantId environment) = some spec →
      L.loadFiles (limit + 1) workflowName tenantId environment = .ok spec)
    (hbase : L.HoldsValid (L.basePath (.str workflowName)) base)
    (hoverlays : List.Forall₂ L.HoldsValid (L.overlayPaths tenantId environment) overlays) :
    OverlayLaw (base :: overlays)
        (L.loadNamed (limit + 1) cache workflowName tenantId environment).1 ↔
      L.overlayPaths tenantId environment = [] ∧
        ∀ spec, parseSpec base = .ok spec →
          Avoids .recursionError (validateSpec (limit + 1) spec) := by
  rw [fst_loadNamed hcache]
  obtain ⟨spec, hspec, htyped⟩ := hbase.2.parsed
  by_cases hnone : L.overlayPaths tenantId environment = []
  · rw [hnone] at hoverlays
    obtain rfl := List.forall₂_nil_left_iff.mp hoverlays
    rw [loadFiles_of_no_overlay hbase hnone, hspec, ok_bind]
    simp only [hnone, true_and, Except.ok.injEq, forall_eq']
    cases hvalidate : validateSpec (limit + 1) spec with
    | ok =>
      exact iff_of_true (Or.inl ⟨spec, rfl, overlaid_singleton hspec⟩) (avoids_ok _ _)
    | error e =>
      rw [avoids_error]
      constructor
      · rintro (⟨_, hok, -⟩ | ⟨text, shown, herror⟩)
        · cases hok
        · obtain rfl := Except.error.inj herror
          exact nofun
      · intro hrec
        obtain ⟨text, shown, rfl⟩ := (validateSpec_error htyped hvalidate).resolve_right hrec
        exact Or.inr ⟨text, shown, rfl⟩
  · have hvalid : ∀ path ∈ L.overlayPaths tenantId environment, ∃ data,
        L.HoldsValid path data := fun path hpath => by
      obtain ⟨data, -, hdata⟩ := exists_of_forall₂ hoverlays hpath
      exact ⟨data, hdata⟩
    rw [loadFiles_of_overlay hbase hvalid hnone]
    refine iff_of_false ?_ fun hall => hnone hall.1
    rintro (⟨_, hok, -⟩ | ⟨_, _, herror⟩)
    · cases hok
    · cases herror

/-! ## A load with an overlay -/

/-- A file of one step. -/
def oneStepFile (name : String) (workflow : Items) : Items :=
  [(.str "name", .str name), (.str "workflow", .obj workflow)]

/-- The steps of the base file. -/
def greeting : Items :=
  [(.str "steps", .arr [.obj [(.str "id", .str "welcome"), (.str "type", .str "start"),
    (.str "name", .str "Welcome Message")]])]

/-- The settings of the overlay. -/
def shortTimeout : Items :=
  [(.str "settings", .obj [(.str "timeout_seconds", .int 180)])]

/-- A base file `support`, and an overlay of the environment `production`. -/
def supportFiles : WorkflowLoader where
  workflows := none
  files
    | .base (.str "support") => some (.ok (.obj (oneStepFile "support" greeting)))
    | .relative "environments/production.yaml" =>
      some (.ok (.obj (oneStepFile "support" shortTimeout)))
    | _ => none

theorem holdsValid_base : supportFiles.HoldsValid (supportFiles.basePath (.str "support"))
    (oneStepFile "support" greeting) :=
  ⟨rfl, rfl, rfl, _, rfl, by decide +kernel⟩

theorem holdsValid_overlay : supportFiles.HoldsValid (.relative "environments/production.yaml")
    (oneStepFile "support" shortTimeout) :=
  ⟨rfl, rfl, rfl, _, rfl, by decide +kernel⟩

/-- Without an overlay the load of the environment `staging` obeys the law. -/
theorem overlay_law_staging : OverlayLaw [oneStepFile "support" greeting]
    (supportFiles.loadNamed 10 Dict.empty "support" none "staging").1 := by
  have hcache : ∀ spec, Dict.empty.get? (cacheKey "support" none "staging") = some spec →
      supportFiles.loadFiles 10 "support" none "staging" = .ok spec := fun spec hspec => by
    rw [Dict.get?_empty] at hspec
    cases hspec
  refine (overlay_law_iff supportFiles hcache holdsValid_base .nil).mpr
    ⟨rfl, fun spec hspec => ?_⟩
  obtain rfl := Except.ok.inj hspec
  exact avoids_ok PyError.recursionError ()

/-- The overlay of the environment `production` makes the load raise a `TypeError`. -/
theorem not_overlay_law :
    ¬∀ (L : WorkflowLoader) (limit : ℕ) (workflowName environment : String) (base : Items)
      (overlays : List Items), L.HoldsValid (L.basePath (.str workflowName)) base →
      List.Forall₂ L.HoldsValid (L.overlayPaths none environment) overlays →
      OverlayLaw (base :: overlays)
        (L.loadNamed (limit + 1) Dict.empty workflowName none environment).1 := by
  intro hall
  have hoverlays : List.Forall₂ supportFiles.HoldsValid
      (supportFiles.overlayPaths none "production") [oneStepFile "support" shortTimeout] :=
    .cons holdsValid_overlay .nil
  have hlaw := hall supportFiles 10 "support" "production" _ _ holdsValid_base hoverlays
  have herror : (supportFiles.loadNamed 11 Dict.empty "support" none "production").1 =
      .error .typeError := rfl
  rw [herror] at hlaw
  rcases hlaw with ⟨_, hok, -⟩ | ⟨_, _, hvalue⟩
  · cases hok
  · cases hvalue

end WorkflowLoader

end MultiAgent
