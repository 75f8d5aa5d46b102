import MultiAgent.Workflows.WorkflowData

/-!
# Loading workflows

`WorkflowLoader.load_workflow` for a workflow dictionary, with the workflows it can
extend : those of the in-memory table `_workflows`, which an instance may have, and the
files below the base path. A chain of `extends` is followed by recursion, through the
table by `_load_workflow_from_data` and from file to file by `_load_yaml_spec`; nothing
bounds either, so both take the number of calls that still fit on the stack and raise
`RecursionError` without one.

`loadWorkflowFromData_eq` splits a load in three : follow the chain to the dictionaries
that extend each other, load the workflow at its root, and merge the dictionaries into it
one by one.
-/

namespace MultiAgent

/-- The paths that a workflow can be loaded from, below the base path. -/
inductive FilePath
  /-- `usecases/{stem}.yaml` -/
  | usecases (stem : PyValue)
  /-- `base/{stem}.yaml` -/
  | base (stem : PyValue)
  /-- A path that a file names in its `extends`. -/
  | relative (path : String)

/-- A loader. The file system and the YAML parser are outside : a path that exists holds a
document, or raises when it is read. -/
structure WorkflowLoader where
  /-- `_workflows`, where the instance has that attribute. -/
  workflows : Option (Dict PyKey (Dict PyKey PyValue))
  files : FilePath → Option (Except PyError PyValue)

namespace WorkflowLoader

open Fallible

variable (L : WorkflowLoader)

/-! ## Files -/

/-- `open` and `yaml.safe_load`. -/
def readYaml (path : FilePath) : Except PyError PyValue :=
  match L.files path with
  | some document => document
  | none => .error (.fileNotFound "" [])

/-- What a document raises that is no dictionary : it has no keys to look for, no value at
`extends`, no `pop` or no `get`. -/
def notADictionary : PyValue → PyError
  | .arr l =>
    if l.any fun v => v.isKey (.str "extends") || v.isKey (.str "mutations") then .typeError
    else .attributeError "get"
  | .str s =>
    if "extends".toList <:+: s.toList then .typeError
    else if "mutations".toList <:+: s.toList then .attributeError "copy"
    else .attributeError "get"
  | _ => .typeError

/-- `self.base_path / value`. -/
def relativePath : PyValue → Except PyError FilePath
  | .str path => .ok (.relative path)
  | _ => .error .typeError

/-- `if key in data: data = apply(data)`. -/
def applyWhere (key : String) (apply : Items → Except PyError Items) (data : Items) :
    Except PyError Items :=
  if (data.field key).isSome then apply data else .ok data

/-- `_load_yaml_spec`. -/
def loadYamlSpec : ℕ → FilePath → Except PyError WorkflowSpec
  | 0, _ => .error .recursionError
  | limit + 1, path => do
    match ← L.readYaml path with
    | .obj data =>
      match Items.field data "extends" with
      | some parent => do
        let baseSpec ← loadYamlSpec limit (← relativePath parent)
        mergeSpecs baseSpec data
      | none => do
        let spec ← applyWhere "mutations" applyMutations data
        parseSpec spec
    | document => .error (notADictionary document)

/-- `_load_base_workflow`. -/
def loadBaseWorkflow (limit : ℕ) (workflowName : PyValue) : Except PyError WorkflowSpec :=
  if (L.files (.usecases workflowName)).isSome then
    L.loadYamlSpec limit (.usecases workflowName)
  else if (L.files (.base workflowName)).isSome then
    L.loadYamlSpec limit (.base workflowName)
  else .error (.fileNotFound "Workflow %s not found" [workflowName])

/-- The file of a workflow's name. -/
def basePath (workflowName : PyValue) : FilePath :=
  if (L.files (.usecases workflowName)).isSome then .usecases workflowName
  else .base workflowName

theorem loadBaseWorkflow_eq {workflowName : PyValue}
    (h : (L.files (L.basePath workflowName)).isSome) (limit : ℕ) :
    L.loadBaseWorkflow limit workflowName = L.loadYamlSpec limit (L.basePath workflowName) := by
  unfold loadBaseWorkflow
  unfold basePath at h ⊢
  split_ifs at h ⊢ with husecases
  · rfl
  · rfl

/-! ## Dictionaries -/

/-- The dictionary that the table holds under a name, if there is a table. -/
def findWorkflow (baseName : PyValue) : Except PyError (Option (Dict PyKey PyValue)) :=
  match L.workflows with
  | some table => do
    let key ← baseName.hash
    return table.get? key
  | none => .ok none

/-- What `_load_workflow_from_data` does below its `extends` branch : insertions, patches,
parsing, validation. -/
def parseAndValidate (limit : ℕ) (data : Dict PyKey PyValue) : Except PyError WorkflowSpec := do
  let data ← applyWhere "insert_after" applyInsertAfter data.items
  let data ← applyWhere "patch" applyPatch data
  let spec ← parseWorkflowData data
  validateSpec limit spec
  return spec

/-- `_load_workflow_from_data`. -/
def loadWorkflowFromData : ℕ → Dict PyKey PyValue → Except PyError WorkflowSpec
  | 0, _ => .error .recursionError
  | limit + 1, data =>
    match data.get? (.str "extends") with
    | some baseName => do
      match ← L.findWorkflow baseName with
      | some base => do
        let baseSpec ← loadWorkflowFromData limit base
        mergeSpecs baseSpec data.items
      | none => do
        let baseSpec ← L.loadBaseWorkflow limit baseName
        mergeSpecs baseSpec data.items
    | none => parseAndValidate limit data

/-- `load_workflow` for a workflow dictionary. -/
def loadWorkflow (limit : ℕ) (data : Dict PyKey PyValue) : Except PyError WorkflowSpec :=
  L.loadWorkflowFromData limit data

/-! ## Following `extends` -/

/-- Where a chain of `extends` ends, with the calls that are left there : a dictionary
that extends nothing, or a name that only a file can have. -/
inductive Root
  | plain (limit : ℕ) (data : Dict PyKey PyValue)
  | file (limit : ℕ) (workflowName : PyValue)

/-- The workflow at the root. -/
def rootSpec : Root → Except PyError WorkflowSpec
  | .plain limit data => parseAndValidate limit data
  | .file limit workflowName => L.loadBaseWorkflow limit workflowName

/-- The root of a dictionary's chain of `extends`, and the dictionaries that extend each
other from there up to it. -/
def extendsChain : ℕ → Dict PyKey PyValue → Except PyError (Root × List (Dict PyKey PyValue))
  | 0, _ => .error .recursionError
  | limit + 1, data =>
    match data.get? (.str "extends") with
    | some baseName => do
      match ← L.findWorkflow baseName with
      | some base => do
        let (root, overrides) ← extendsChain limit base
        return (root, overrides ++ [data])
      | none => return (.file limit baseName, [data])
    | none => .ok (.plain limit data, [])

/-- A load follows the chain to its root, loads the workflow there and merges the
dictionaries into it. -/
theorem loadWorkflowFromData_eq : ∀ (limit : ℕ) (data : Dict PyKey PyValue),
    L.loadWorkflowFromData limit data = do
      let (root, overrides) ← L.extendsChain limit data
      let base ← L.rootSpec root
      overrides.foldlM (fun spec override => mergeSpecs spec override.items) base
  | 0, _ => rfl
  | limit + 1, data => by
    unfold loadWorkflowFromData extendsChain
    cases data.get? (.str "extends") with
    | none => exact (bind_pure (parseAndValidate limit data)).symm
    | some baseName =>
      cases hfind : L.findWorkflow baseName with
      | error e =>
        simp only [hfind]
        rfl
      | ok found =>
        cases found with
        | none =>
          simp only [hfind, ok_bind, pure_bind]
          refine bind_congr fun baseSpec => ?_
          rw [List.foldlM_cons]
          exact (bind_pure _).symm
        | some base =>
          simp only [hfind, ok_bind, bind_assoc, pure_bind, loadWorkflowFromData_eq limit base]
          refine bind_congr fun chain => bind_congr fun baseSpec => ?_
          rw [List.foldlM_append]
          refine bind_congr fun spec => ?_
          rw [List.foldlM_cons]
          exact (bind_pure _).symm

/-- A dictionary that extends nothing is its own root. -/
theorem extendsChain_of_not_extends {limit : ℕ} {data : Dict PyKey PyValue}
    (h : data.get? (.str "extends") = none) :
    L.extendsChain (limit + 1) data = .ok (.plain limit data, []) := by
  unfold extendsChain
  rw [h]

/-! ## A specification through its dictionary

`_merge_specs` with an empty override turns a specification into a dictionary and parses that.
Metadata and optional sections are stored only if they are not empty (`if step.metadata:`), so
what is empty comes back as `None`, and everything else as it was (`mergeSpecs_empty`). -/

/-- The value comes through : it is not empty, or it is `None`. -/
def Kept (value : PyValue) : Prop :=
  value.truthy = true ∨ value = .null

/-- No metadata and no optional section is empty. -/
structure NothingEmpty (spec : WorkflowSpec) : Prop where
  steps : ∀ step ∈ spec.steps, Kept step.metadata
  transitions : ∀ t ∈ spec.transitions, Kept t.metadata
  featureFlags : Kept spec.featureFlags
  quotas : Kept spec.quotas
  security : Kept spec.security
  monitoring : Kept spec.monitoring

/-- The specification with `None` for what is empty. -/
def presentedSpec (spec : WorkflowSpec) : WorkflowSpec :=
  { spec with
    steps := spec.steps.map presentedStep
    transitions := spec.transitions.map presentedTransition
    featureFlags := presented spec.featureFlags
    quotas := presented spec.quotas
    security := presented spec.security
    monitoring := presented spec.monitoring }

theorem presented_eq_self {value : PyValue} : presented value = value ↔ Kept value := by
  unfold presented Kept
  split_ifs with h
  · simp [h]
  · simp [h, eq_comm]

theorem presentedStep_eq_self {step : WorkflowStep} :
    presentedStep step = step ↔ Kept step.metadata := by
  rw [← presented_eq_self]
  constructor
  · intro h
    exact congrArg WorkflowStep.metadata h
  · intro h
    unfold presentedStep
    rw [h]

theorem presentedTransition_eq_self {t : WorkflowTransition} :
    presentedTransition t = t ↔ Kept t.metadata := by
  rw [← presented_eq_self]
  constructor
  · intro h
    exact congrArg WorkflowTransition.metadata h
  · intro h
    unfold presentedTransition
    rw [h]

theorem map_eq_self_iff {α : Type*} {f : α → α} {l : List α} :
    l.map f = l ↔ ∀ a ∈ l, f a = a := by
  have h := List.map_inj_left (f := f) (g := id) (l := l)
  rwa [List.map_id] at h

theorem presentedSpec_eq_self {spec : WorkflowSpec} :
    presentedSpec spec = spec ↔ NothingEmpty spec := by
  constructor
  · intro h
    have hsteps : spec.steps.map presentedStep = spec.steps := congrArg WorkflowSpec.steps h
    have htransitions : spec.transitions.map presentedTransition = spec.transitions :=
      congrArg WorkflowSpec.transitions h
    exact {
      steps := fun step hstep =>
        presentedStep_eq_self.mp (map_eq_self_iff.1 hsteps step hstep)
      transitions := fun t ht =>
        presentedTransition_eq_self.mp (map_eq_self_iff.1 htransitions t ht)
      featureFlags := presented_eq_self.1 (congrArg WorkflowSpec.featureFlags h)
      quotas := presented_eq_self.1 (congrArg WorkflowSpec.quotas h)
      security := presented_eq_self.1 (congrArg WorkflowSpec.security h)
      monitoring := presented_eq_self.1 (congrArg WorkflowSpec.monitoring h) }
  · intro h
    unfold presentedSpec
    rw [map_eq_self_iff.2 fun step hstep => presentedStep_eq_self.mpr (h.steps step hstep),
      map_eq_self_iff.2 fun t ht => presentedTransition_eq_self.mpr (h.transitions t ht),
      presented_eq_self.2 h.featureFlags, presented_eq_self.2 h.quotas,
      presented_eq_self.2 h.security, presented_eq_self.2 h.monitoring]

/-! ## The dictionary -/

/-- What an optional item holds at its key. -/
theorem lookup_optionalItem_self (key : String) (value : PyValue) :
    (optionalItem key value).lookup (.str key) = if value.truthy then some value else none := by
  unfold optionalItem
  split_ifs
  · exact Dict.lookup_cons_self (PyKey.str key, value) []
  · rfl

/-- At other keys it holds nothing. -/
theorem lookup_optionalItem_ne {key key' : String} (h : key' ≠ key) (value : PyValue) :
    (optionalItem key value).lookup (.str key') = none := by
  unfold optionalItem
  split_ifs
  · exact Dict.lookup_cons_ne (p := (PyKey.str key, value)) [] fun he => h (PyKey.str.inj he)
  · rfl

theorem getD_presented (value : PyValue) :
    (if value.truthy = true then some value else none).getD .null = presented value := by
  unfold presented
  split_ifs <;> rfl

/-- The optional sections of the dictionary. -/
theorem field_sections (spec : WorkflowSpec) (nodes edges : List PyValue) :
    (Items.field (baseDict spec nodes edges) "feature_flags").getD .null =
      presented spec.featureFlags ∧
    (Items.field (baseDict spec nodes edges) "quotas").getD .null = presented spec.quotas ∧
    (Items.field (baseDict spec nodes edges) "security").getD .null = presented spec.security ∧
    (Items.field (baseDict spec nodes edges) "monitoring").getD .null =
      presented spec.monitoring := by
  have hsections : ∀ key, (key = "feature_flags" ∨ key = "quotas" ∨ key = "security" ∨
      key = "monitoring") → Items.field (baseDict spec nodes edges) key =
      ((optionalItem "feature_flags" spec.featureFlags ++ optionalItem "quotas" spec.quotas ++
        optionalItem "security" spec.security ++ optionalItem "monitoring" spec.monitoring).lookup
          (.str key)) := by
    rintro key (rfl | rfl | rfl | rfl) <;> rfl
  refine ⟨?_, ?_, ?_, ?_⟩
  all_goals
    rw [hsections _ (by simp)]
    simp [List.lookup_append, lookup_optionalItem_self, lookup_optionalItem_ne, getD_presented]

/-- Parsing the dictionary of a specification. -/
theorem parseWorkflowData_baseDict (spec : WorkflowSpec) :
    parseWorkflowData (baseDict spec (spec.steps.map stepToDict)
      (spec.transitions.map transitionToDict)) = .ok (presentedSpec spec) := by
  have hsteps : (spec.steps.map stepToDict).mapM parseNode =
      .ok (spec.steps.map presentedStep) := by
    rw [mapM_eq_ok, List.forall₂_map_left_iff, List.forall₂_map_right_iff, List.forall₂_same]
    exact fun step _ => parseNode_stepToDict step
  have htransitions : (spec.transitions.map transitionToDict).mapM parseEdge =
      .ok (spec.transitions.map presentedTransition) := by
    rw [mapM_eq_ok, List.forall₂_map_left_iff, List.forall₂_map_right_iff, List.forall₂_same]
    exact fun t _ => parseEdge_transitionToDict t
  have hsections := field_sections spec (spec.steps.map stepToDict)
    (spec.transitions.map transitionToDict)
  unfold parseWorkflowData
  rw [hsections.1, hsections.2.1, hsections.2.2.1, hsections.2.2.2]
  have hnodes : Items.field (baseDict spec (spec.steps.map stepToDict)
      (spec.transitions.map transitionToDict)) "nodes" =
        some (.arr (spec.steps.map stepToDict)) := rfl
  have hedges : Items.field (baseDict spec (spec.steps.map stepToDict)
      (spec.transitions.map transitionToDict)) "edges" =
        some (.arr (spec.transitions.map transitionToDict)) := rfl
  rw [hnodes, hedges]
  simp only [Option.getD_some, PyValue.iter, ok_bind, hsteps, htransitions]
  rfl

/-- `_merge_specs` with an empty override gives the specification with `None` for what is empty,
and this is the specification itself exactly if nothing is. -/
theorem mergeSpecs_empty (spec : WorkflowSpec) :
    mergeSpecs spec [] = .ok (presentedSpec spec) ∧
      (mergeSpecs spec [] = .ok spec ↔ NothingEmpty spec) := by
  have hmerge : mergeSpecs spec [] = .ok (presentedSpec spec) := by
    have hparse := parseWorkflowData_baseDict spec
    rw [← List.append_nil (spec.steps.map stepToDict),
      ← List.append_nil (spec.transitions.map transitionToDict)] at hparse
    unfold mergeSpecs
    exact hparse
  refine ⟨hmerge, ?_⟩
  rw [hmerge, Except.ok.injEq, presentedSpec_eq_self]

/-- A node with empty metadata. -/
def emptyMetadata : Dict PyKey PyValue :=
  ⟨[(.str "name", .str "support"),
    (.str "nodes", .arr [.obj [(.str "id", .str "triage"), (.str "type", .str "agent"),
      (.str "metadata", .obj [])]])], by decide⟩

/-- What is loaded from it comes back with `None`. -/
theorem not_mergeSpecs_empty :
    ¬∀ (L : WorkflowLoader) (limit : ℕ) (data : Dict PyKey PyValue) (spec : WorkflowSpec),
      L.loadWorkflow limit data = .ok spec → mergeSpecs spec [] = .ok spec := by
  intro hall
  have hsame := hall ⟨none, fun _ => none⟩ 2 emptyMetadata _ rfl
  have hmetadata := congrArg
    (fun r => r.toOption.map fun spec => spec.steps.map WorkflowStep.metadata) hsame
  change some [PyValue.null] = some [PyValue.obj []] at hmetadata
  cases hmetadata

end WorkflowLoader

end MultiAgent
