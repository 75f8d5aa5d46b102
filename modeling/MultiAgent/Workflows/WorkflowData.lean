import MultiAgent.Workflows.WorkflowSpec

/-!
# Workflow dictionaries

The functions of `workflow_loader.py` that edit a workflow dictionary (`_deep_merge`,
`_apply_insert_after`, `_apply_patch`, `_apply_mutations`) and those that turn one into a
specification and back (`_parse_workflow_data`, `_parse_spec`, `_step_to_dict`,
`_transition_to_dict`, `_merge_specs`). A function that edits lists in place returns the
edited dictionary here.

`field_deepMerge` says what a deep merge stores at a key, `mergeSpecs_eq_ok` what the
merge of a specification with a dictionary is.
-/

namespace MultiAgent

namespace WorkflowLoader

open Fallible

/-! ## `_deep_merge` -/

mutual

/-- What `_deep_merge` stores at a key that held the first value, if any. -/
def mergeValue : Option PyValue → PyValue → PyValue
  | some (.obj base), .obj override => .obj (deepMerge base override)
  | _, value => value
termination_by structural _ value => value

/-- `_deep_merge`. -/
def deepMerge : Items → Items → Items
  | result, [] => result
  | result, (key, value) :: rest =>
    deepMerge (Dict.setItem key (mergeValue (result.lookup key) value) result) rest
termination_by structural _ override => override

end

@[simp] theorem mergeValue_none (v : PyValue) : mergeValue none v = v := by
  cases v <;> rfl

/-! ## `_apply_insert_after` -/

/-- The first node with the given id. -/
def findNode (targetId : PyKey) : List PyValue → Except PyError (Option ℕ)
  | [] => .ok none
  | node :: nodes => do
    let id ← node.getItem "id"
    if id.isKey targetId then return some 0
    else return (← findNode targetId nodes).map (· + 1)

/-- The dictionary of an added edge. -/
def newEdge (source target : PyValue) : PyValue :=
  .obj [(.str "from", source), (.str "to", target)]

/-- Insert one node at a position, with an edge from the target to it and, where a node
comes next in the list, an edge to that. -/
def insertNode (targetId : PyKey) (position : ℕ) (newNode : PyValue) (nodes : List PyValue)
    (edges : PyValue) : Except PyError (List PyValue × PyValue) := do
  let nodes := nodes.insertIdx position newNode
  let old ← edges.elements "append"
  let newId ← newNode.getItem "id"
  match nodes[position + 1]? with
  | some nextNode => do
    let nextId ← nextNode.getItem "id"
    return (nodes, .arr (old ++ [newEdge targetId.toValue newId, newEdge newId nextId]))
  | none => return (nodes, .arr (old ++ [newEdge targetId.toValue newId]))

/-- The loop over the nodes to insert. -/
def insertNodes (targetId : PyKey) : ℕ → List PyValue → List PyValue → PyValue →
    Except PyError (List PyValue × PyValue)
  | _, [], nodes, edges => .ok (nodes, edges)
  | position, newNode :: newNodes, nodes, edges => do
    let (nodes, edges) ← insertNode targetId position newNode nodes edges
    insertNodes targetId (position + 1) newNodes nodes edges

/-- One item of `insert_after`. Only the elements of a list have an id, so a target is
found in a list only. -/
def insertAfterTarget (lists : PyValue × PyValue) (item : PyKey × PyValue) :
    Except PyError (PyValue × PyValue) := do
  let nodes ← lists.1.iter
  match ← findNode item.1 nodes with
  | none => return lists
  | some targetIndex => do
    let newNodes ← item.2.iter
    let (nodes, edges) ← insertNodes item.1 (targetIndex + 1) newNodes nodes lists.2
    return (.arr nodes, edges)

/-- The dictionary without the item at a key. -/
def erase (key : String) (data : Items) : Items :=
  data.filter fun p => p.1 ≠ .str key

/-- `_apply_insert_after`. -/
def applyInsertAfter (data : Items) : Except PyError Items := do
  let nodes := (data.field "nodes").getD (.arr [])
  let edges := (data.field "edges").getD (.arr [])
  let insertAfter ← ((data.field "insert_after").getD (.obj [])).items
  let (nodes, edges) ← insertAfter.foldlM insertAfterTarget (nodes, edges)
  return Dict.setItem (.str "edges") edges
    (Dict.setItem (.str "nodes") nodes (erase "insert_after" data))

/-! ## `_apply_patch` -/

/-- Merge a patch into the first node with the given id. -/
def patchNode (nodeId : PyKey) (nodePatch : PyValue) :
    List PyValue → Except PyError (List PyValue)
  | [] => .ok []
  | node :: nodes => do
    let id ← node.getItem "id"
    if id.isKey nodeId then
      let base ← node.items
      let override ← nodePatch.items
      return .obj (deepMerge base override) :: nodes
    else return node :: (← patchNode nodeId nodePatch nodes)

/-- The patches of nodes; the result has the nodes after them. -/
def patchNodes (patch : PyValue) (result : Items) : Except PyError Items := do
  let nodePatches ← (← patch.getItem "nodes").items
  let nodes ← nodePatches.foldlM (fun nodes item => nodes.onList (patchNode item.1 item.2))
    ((result.field "nodes").getD (.arr []))
  return Dict.setItem (.str "nodes") nodes result

/-- `_apply_patch`. -/
def applyPatch (data : Items) : Except PyError Items := do
  let patch := (data.field "patch").getD (.obj [])
  let result := erase "patch" data
  let result ← if ← patch.contains "nodes" then patchNodes patch result else return result
  let patchCopy ← patch.items
  return deepMerge result (erase "nodes" patchCopy)

/-! ## `_apply_mutations` -/

/-- `_find_step_index`. -/
def findStepIndex (stepId : PyValue) : List PyValue → Except PyError (Option ℕ)
  | [] => .ok none
  | step :: steps => do
    let id ← step.get? "id"
    if (id.getD .null).eq stepId then return some 0
    else return (← findStepIndex stepId steps).map (· + 1)

/-- Edit the steps at the index of the target, if they have it. -/
def editAt (target : PyValue) (edit : ℕ → List PyValue → List PyValue) (steps : List PyValue) :
    Except PyError (List PyValue) := do
  match ← findStepIndex target steps with
  | some index => return edit index steps
  | none => return steps

/-- Edit `spec["workflow"]["steps"]`. Where that is missing, what is edited is a new list
that nothing keeps. -/
def editSteps (target : PyValue) (edit : ℕ → List PyValue → List PyValue) (spec : Items) :
    Except PyError Items := do
  match spec.field "workflow" with
  | none => return spec
  | some workflow =>
    match ← workflow.get? "steps" with
    | none => return spec
    | some steps => do
      let steps ← steps.onList (editAt target edit)
      let workflow ← workflow.assign (.str "steps") steps
      return Dict.setItem (.str "workflow") workflow spec

/-- `_insert_after`. -/
def insertAfter (spec : Items) (target step : PyValue) : Except PyError Items :=
  editSteps target (fun index steps => steps.insertIdx (index + 1) step) spec

/-- `_insert_before`. -/
def insertBefore (spec : Items) (target step : PyValue) : Except PyError Items :=
  editSteps target (fun index steps => steps.insertIdx index step) spec

/-- `_replace_step`. -/
def replaceStep (spec : Items) (target step : PyValue) : Except PyError Items :=
  editSteps target (fun index steps => steps.set index step) spec

/-- `_remove_step`. -/
def removeStep (spec : Items) (target : PyValue) : Except PyError Items :=
  editSteps target (fun index steps => steps.eraseIdx index) spec

/-- Set a feature flag. -/
def setFeature (value : Bool) (spec : Items) (feature : PyValue) : Except PyError Items := do
  let flags ← ((spec.field "feature_flags").getD (.obj [])).assign feature (.bool value)
  return Dict.setItem (.str "feature_flags") flags spec

/-- `_enable_feature`. -/
def enableFeature : Items → PyValue → Except PyError Items :=
  setFeature true

/-- `_disable_feature`. -/
def disableFeature : Items → PyValue → Except PyError Items :=
  setFeature false

example : disableFeature [] (.str "beta") =
    .ok [(.str "feature_flags", .obj [(.str "beta", .bool false)])] := rfl

/-- One mutation; a type that is none of these does nothing. -/
def applyMutation (spec : Items) (mutation : PyValue) : Except PyError Items := do
  let mutationType ← mutation.get? "type"
  let target := (← mutation.get? "target").getD .null
  let step := (← mutation.get? "step").getD .null
  let feature := (← mutation.get? "feature").getD .null
  match mutationType with
  | some (.str "insert_after") => insertAfter spec target step
  | some (.str "insert_before") => insertBefore spec target step
  | some (.str "replace") => replaceStep spec target step
  | some (.str "remove") => removeStep spec target
  | some (.str "enable") => enableFeature spec feature
  | some (.str "disable") => disableFeature spec feature
  | _ => return spec

/-- `_apply_mutations`. -/
def applyMutations (data : Items) : Except PyError Items := do
  let mutations ← ((data.field "mutations").getD (.arr [])).iter
  mutations.foldlM applyMutation (erase "mutations" data)

/-! ## Parsing -/

/-- A step from an entry of `nodes`. -/
def parseNode (node : PyValue) : Except PyError WorkflowStep := do
  let id ← node.getItem "id"
  let type ← node.getItem "type"
  return { id := id
           type := type
           name := (← node.get? "name").getD id
           config := (← node.get? "config").getD (.obj [])
           metadata := (← node.get? "metadata").getD .null }

/-- A transition from an entry of `edges`. -/
def parseEdge (edge : PyValue) : Except PyError WorkflowTransition := do
  let source ← edge.getItem "from"
  let target ← edge.getItem "to"
  return { fromStep := source
           toStep := target
           condition := (← edge.get? "condition").getD (.str "true")
           metadata := (← edge.get? "metadata").getD .null }

/-- `_parse_workflow_data`. -/
def parseWorkflowData (data : Items) : Except PyError WorkflowSpec := do
  let steps ← (← ((data.field "nodes").getD (.arr [])).iter).mapM parseNode
  let transitions ← (← ((data.field "edges").getD (.arr [])).iter).mapM parseEdge
  return { name := (data.field "name").getD (.str "")
           version := (data.field "version").getD (.str "1.0.0")
           description := (data.field "description").getD (.str "")
           settings := (data.field "settings").getD (.obj [])
           steps := steps
           transitions := transitions
           tools := (data.field "tools").getD (.arr [])
           errorHandling := (data.field "error_handling").getD (.arr [])
           metrics := (data.field "metrics").getD (.arr [])
           featureFlags := (data.field "feature_flags").getD .null
           quotas := (data.field "quotas").getD .null
           security := (data.field "security").getD .null
           monitoring := (data.field "monitoring").getD .null }

/-- A step from an entry of `workflow.steps` in a file. -/
def parseStep (stepData : PyValue) : Except PyError WorkflowStep := do
  let id ← stepData.getItem "id"
  let type ← stepData.getItem "type"
  let name ← stepData.getItem "name"
  return { id := id
           type := type
           name := name
           config := (← stepData.get? "config").getD (.obj [])
           metadata := (← stepData.get? "metadata").getD .null }

/-- A transition from an entry of `workflow.transitions` in a file. -/
def parseTransition (transData : PyValue) : Except PyError WorkflowTransition := do
  let source ← transData.getItem "from"
  let target ← transData.getItem "to"
  let condition ← transData.getItem "condition"
  return { fromStep := source
           toStep := target
           condition := condition
           metadata := (← transData.get? "metadata").getD .null }

/-- `_parse_spec`. -/
def parseSpec (data : Items) : Except PyError WorkflowSpec := do
  let workflowData := (data.field "workflow").getD (.obj [])
  let steps ← (← ((← workflowData.get? "steps").getD (.arr [])).iter).mapM parseStep
  let transitions ←
    (← ((← workflowData.get? "transitions").getD (.arr [])).iter).mapM parseTransition
  return { name := (data.field "name").getD (.str "")
           version := (data.field "version").getD (.str "1.0.0")
           description := (data.field "description").getD (.str "")
           settings := (← workflowData.get? "settings").getD (.obj [])
           steps := steps
           transitions := transitions
           tools := (← workflowData.get? "tools").getD (.arr [])
           errorHandling := (← workflowData.get? "error_handling").getD (.arr [])
           metrics := (← workflowData.get? "metrics").getD (.arr [])
           featureFlags := (data.field "feature_flags").getD .null
           quotas := (data.field "quotas").getD .null
           security := (data.field "security").getD .null
           monitoring := (data.field "monitoring").getD .null }

/-! ## `_merge_specs` -/

/-- The item of an optional section, which is left out where it is empty. -/
def optionalItem (key : String) (value : PyValue) : Items :=
  if value.truthy then [(.str key, value)] else []

/-- `_step_to_dict`. -/
def stepToDict (step : WorkflowStep) : PyValue :=
  .obj ([(.str "id", step.id), (.str "type", step.type), (.str "name", step.name),
    (.str "config", step.config)] ++ optionalItem "metadata" step.metadata)

/-- `_transition_to_dict`. -/
def transitionToDict (transition : WorkflowTransition) : PyValue :=
  .obj ([(.str "from", transition.fromStep), (.str "to", transition.toStep),
    (.str "condition", transition.condition)] ++ optionalItem "metadata" transition.metadata)

/-- `base_dict`, with the given nodes and edges. -/
def baseDict (base : WorkflowSpec) (nodes edges : List PyValue) : Items :=
  [(.str "name", base.name), (.str "version", base.version),
    (.str "description", base.description), (.str "nodes", .arr nodes), (.str "edges", .arr edges),
    (.str "settings", base.settings), (.str "tools", base.tools),
    (.str "error_handling", base.errorHandling), (.str "metrics", base.metrics)] ++
    optionalItem "feature_flags" base.featureFlags ++ optionalItem "quotas" base.quotas ++
    optionalItem "security" base.security ++ optionalItem "monitoring" base.monitoring

/-- The entries that a dictionary lists under `nodes` or `edges`. -/
def listed (key : String) (override : Items) : Except PyError (List PyValue) :=
  match override.field key with
  | some value => value.iter
  | none => .ok []

/-- `_merge_specs`. -/
def mergeSpecs (base : WorkflowSpec) (override : Items) : Except PyError WorkflowSpec := do
  let nodes ← listed "nodes" override
  let edges ← listed "edges" override
  parseWorkflowData (deepMerge
    (baseDict base (base.steps.map stepToDict ++ nodes)
      (base.transitions.map transitionToDict ++ edges))
    (erase "edges" (erase "nodes" override)))

/-! ## What a merge is -/

/-- What a deep merge holds at a key. -/
theorem lookup_deepMerge {k : PyKey} : ∀ {override : Items} (base : Items),
    (override.map Prod.fst).Nodup → (deepMerge base override).lookup k =
      match override.lookup k with
      | some value => some (mergeValue (base.lookup k) value)
      | none => base.lookup k
  | [], base, _ => by rw [deepMerge]; rfl
  | (key, value) :: rest, base, h => by
    obtain ⟨hkey, hrest⟩ := List.nodup_cons.mp h
    rw [deepMerge, lookup_deepMerge _ hrest, Dict.lookup_setItem]
    by_cases hk : k = key
    · subst hk
      have hnone : rest.lookup k = none := by
        rw [← Option.not_isSome_iff_eq_none, Dict.lookup_isSome]
        exact hkey
      rw [hnone, if_pos rfl, Dict.lookup_cons_self (k, value)]
    · rw [if_neg hk, Dict.lookup_cons_ne (p := (key, value)) rest hk]

/-- The fields of an extending dictionary that are merged as they are. -/
def otherFields (override : Dict PyKey PyValue) : Items :=
  erase "edges" (erase "nodes" override.items)

theorem nodup_otherFields (override : Dict PyKey PyValue) :
    ((otherFields override).map Prod.fst).Nodup :=
  override.nodup.sublist ((List.filter_sublist.trans List.filter_sublist).map _)

theorem lookup_otherFields (override : Dict PyKey PyValue) (key : String) :
    (otherFields override).lookup (.str key) =
      if key = "nodes" ∨ key = "edges" then none else override.get? (.str key) := by
  unfold otherFields erase
  rw [Dict.lookup_filter_ne, Dict.lookup_filter_ne]
  by_cases hn : key = "nodes"
  · simp [hn]
  · by_cases he : key = "edges"
    · simp [he]
    · simp [hn, he, Dict.get?]

section Merged

variable (base : WorkflowSpec) (nodes edges : List PyValue) (override : Dict PyKey PyValue)

/-- The nodes of a merge are those of the extended list. -/
theorem field_nodes :
    Items.field (deepMerge (baseDict base nodes edges) (otherFields override)) "nodes" =
      some (.arr nodes) := by
  unfold Items.field
  rw [lookup_deepMerge _ (nodup_otherFields override), lookup_otherFields]
  rfl

theorem field_edges :
    Items.field (deepMerge (baseDict base nodes edges) (otherFields override)) "edges" =
      some (.arr edges) := by
  unfold Items.field
  rw [lookup_deepMerge _ (nodup_otherFields override), lookup_otherFields]
  rfl

theorem field_name :
    Items.field (deepMerge (baseDict base nodes edges) (otherFields override)) "name" =
      some (match override.get? (.str "name") with
        | some name => mergeValue (some base.name) name
        | none => base.name) := by
  unfold Items.field
  rw [lookup_deepMerge _ (nodup_otherFields override), lookup_otherFields,
    if_neg (by decide)]
  cases override.get? (.str "name") <;> rfl

end Merged

/-- What an optional field is after a round trip through a dictionary. -/
def presented (value : PyValue) : PyValue :=
  if value.truthy then value else .null

/-- A step after the round trip : metadata that is empty is lost. -/
def presentedStep (step : WorkflowStep) : WorkflowStep :=
  { step with metadata := presented step.metadata }

/-- A transition after the round trip. -/
def presentedTransition (transition : WorkflowTransition) : WorkflowTransition :=
  { transition with metadata := presented transition.metadata }

theorem parseNode_stepToDict (step : WorkflowStep) :
    parseNode (stepToDict step) = .ok (presentedStep step) := by
  unfold stepToDict optionalItem presentedStep presented
  by_cases h : step.metadata.truthy = true
  · rw [if_pos h, if_pos h]
    rfl
  · rw [if_neg h, if_neg h]
    rfl

theorem parseEdge_transitionToDict (transition : WorkflowTransition) :
    parseEdge (transitionToDict transition) = .ok (presentedTransition transition) := by
  unfold transitionToDict optionalItem presentedTransition presented
  by_cases h : transition.metadata.truthy = true
  · rw [if_pos h, if_pos h]
    rfl
  · rw [if_neg h, if_neg h]
    rfl

/-- The steps that a dictionary lists. -/
def listedSteps (override : Dict PyKey PyValue) : Except PyError (List WorkflowStep) := do
  (← listed "nodes" override.items).mapM parseNode

/-- The transitions that a dictionary lists. -/
def listedTransitions (override : Dict PyKey PyValue) :
    Except PyError (List WorkflowTransition) := do
  (← listed "edges" override.items).mapM parseEdge

/-- A merge adds the listed steps and transitions and takes a name that is set. -/
structure Merges (base : WorkflowSpec) (override : Dict PyKey PyValue)
    (steps : List WorkflowStep) (transitions : List WorkflowTransition) (spec : WorkflowSpec) :
    Prop where
  name : spec.name = match override.get? (.str "name") with
    | some name => mergeValue (some base.name) name
    | none => base.name
  steps : base.steps.map presentedStep ++ steps = spec.steps
  transitions : base.transitions.map presentedTransition ++ transitions = spec.transitions

/-- `_merge_specs` returns the merge with what the dictionary lists. -/
theorem merges_of_mergeSpecs {base spec : WorkflowSpec} {override : Dict PyKey PyValue}
    (h : mergeSpecs base override.items = .ok spec) :
    ∃ steps transitions, listedSteps override = .ok steps ∧
      listedTransitions override = .ok transitions ∧
      Merges base override steps transitions spec := by
  obtain ⟨nodes, hnodes, h⟩ := bind_eq_ok.mp h
  obtain ⟨edges, hedges, h⟩ := bind_eq_ok.mp h
  change parseWorkflowData (deepMerge _ (otherFields override)) = _ at h
  unfold parseWorkflowData at h
  rw [field_nodes, field_edges, field_name] at h
  obtain ⟨entries, hentries, h⟩ := bind_eq_ok.mp h
  obtain rfl := Except.ok.inj hentries
  obtain ⟨allSteps, hsteps, h⟩ := bind_eq_ok.mp h
  obtain ⟨entries, hentries, h⟩ := bind_eq_ok.mp h
  obtain rfl := Except.ok.inj hentries
  obtain ⟨allTransitions, htransitions, h⟩ := bind_eq_ok.mp h
  obtain rfl := Except.ok.inj h
  obtain ⟨steps, hsteps, hall⟩ := (mapM_encoded_append_eq_ok parseNode_stepToDict).mp hsteps
  obtain ⟨transitions, htransitions, hall'⟩ :=
    (mapM_encoded_append_eq_ok parseEdge_transitionToDict).mp htransitions
  exact ⟨steps, transitions, bind_eq_ok.mpr ⟨nodes, hnodes, hsteps⟩,
    bind_eq_ok.mpr ⟨edges, hedges, htransitions⟩, rfl, hall, hall'⟩

/-- Parsing succeeds where the listed nodes and edges can be parsed. -/
theorem exists_parse {data : Items} {nodes edges : List PyValue} {steps : List WorkflowStep}
    {transitions : List WorkflowTransition} (hnodes : data.field "nodes" = some (.arr nodes))
    (hedges : data.field "edges" = some (.arr edges)) (hsteps : nodes.mapM parseNode = .ok steps)
    (htransitions : edges.mapM parseEdge = .ok transitions) :
    ∃ spec, parseWorkflowData data = .ok spec := by
  unfold parseWorkflowData
  simp only [hnodes, hedges, Option.getD_some, PyValue.iter, ok_bind, hsteps, htransitions]
  exact ⟨_, rfl⟩

/-- `_merge_specs` succeeds where what the dictionary lists can be parsed. -/
theorem exists_mergeSpecs (base : WorkflowSpec) {override : Dict PyKey PyValue}
    {steps : List WorkflowStep} {transitions : List WorkflowTransition}
    (hsteps : listedSteps override = .ok steps)
    (htransitions : listedTransitions override = .ok transitions) :
    ∃ spec, mergeSpecs base override.items = .ok spec := by
  obtain ⟨nodes, hnodes, hsteps⟩ := bind_eq_ok.mp hsteps
  obtain ⟨edges, hedges, htransitions⟩ := bind_eq_ok.mp htransitions
  obtain ⟨spec, hspec⟩ := exists_parse (field_nodes base _ _ override)
    (field_edges base _ _ override)
    ((mapM_encoded_append_eq_ok parseNode_stepToDict).mpr ⟨steps, hsteps, rfl⟩)
    ((mapM_encoded_append_eq_ok parseEdge_transitionToDict).mpr ⟨transitions, htransitions, rfl⟩)
  exact ⟨spec, bind_eq_ok.mpr ⟨nodes, hnodes, bind_eq_ok.mpr ⟨edges, hedges, hspec⟩⟩⟩

end WorkflowLoader

end MultiAgent
