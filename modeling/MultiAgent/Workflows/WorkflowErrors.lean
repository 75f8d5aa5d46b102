import MultiAgent.Workflows.WorkflowLoader

/-!
# What a loader does not raise

Only a chain of calls that has no end exhausts the stack. Reading, editing and merging
documents does not (`avoids_parseSpec`, `avoids_applyMutations`, `avoids_mergeSpecs`), and a
validation needs no more room than a specification has nodes (`avoids_validateSpec`).
-/

namespace MultiAgent

open Fallible

/-! ## What the operations of a document raise -/

namespace PyValue

@[simp] theorem avoids_hash (v : PyValue) : Avoids .recursionError v.hash := by
  cases v <;> simp [hash]

@[simp] theorem avoids_iter (v : PyValue) : Avoids .recursionError v.iter := by
  cases v <;> simp [iter]

@[simp] theorem avoids_contains (key : String) (v : PyValue) :
    Avoids .recursionError (v.contains key) := by
  cases v <;> simp [contains]

@[simp] theorem avoids_getItem (key : String) (v : PyValue) :
    Avoids .recursionError (v.getItem key) := by
  cases v with
  | obj d => cases hfield : Items.field d key <;> simp [getItem, hfield]
  | _ => simp [getItem]

@[simp] theorem avoids_get? (key : String) (v : PyValue) :
    Avoids .recursionError (v.get? key) := by
  cases v <;> simp [get?]

@[simp] theorem avoids_items (v : PyValue) : Avoids .recursionError v.items := by
  cases v <;> simp [items]

@[simp] theorem avoids_elements (method : String) (v : PyValue) :
    Avoids .recursionError (v.elements method) := by
  cases v <;> simp [elements]

@[simp] theorem avoids_strip (v : PyValue) : Avoids .recursionError v.strip := by
  cases v <;> simp [strip]

theorem avoids_position (n : ℕ) (i : ℤ) : Avoids .recursionError (index?.position n i) := by
  unfold index?.position
  dsimp only
  split_ifs <;> simp

theorem avoids_of_index? {n : ℕ} {key : PyValue} {position : Except PyError ℕ}
    (h : key.index? n = some position) : Avoids .recursionError position := by
  cases key <;> simp only [index?, Option.some.injEq, reduceCtorEq] at h <;> subst h
  all_goals exact avoids_position _ _

@[simp] theorem avoids_assign (v key w : PyValue) :
    Avoids .recursionError (v.assign key w) := by
  cases v with
  | obj d => exact (avoids_hash key).bind fun k => avoids_pure _ _
  | arr l =>
    cases hindex : key.index? l.length with
    | none => simp [assign, hindex]
    | some position =>
      simp only [assign, hindex]
      exact (avoids_of_index? hindex).bind fun i => avoids_pure _ _
  | _ => simp [assign]

theorem avoids_onList {f : List PyValue → Except PyError (List PyValue)}
    (hf : ∀ l, Avoids .recursionError (f l)) (v : PyValue) :
    Avoids .recursionError (v.onList f) := by
  have hother : Avoids .recursionError (v.iter >>= fun l => f l >>= fun _ => pure v) :=
    (avoids_iter v).bind fun l => (hf l).bind fun _ => avoids_pure _ _
  cases v with
  | arr l => exact avoids_map.mpr (hf l)
  | _ => exact hother

end PyValue

namespace WorkflowLoader

/-! ## What reading a workflow raises -/

@[simp] theorem avoids_parseNode (node : PyValue) : Avoids .recursionError (parseNode node) := by
  simp [parseNode, avoids_bind]

@[simp] theorem avoids_parseEdge (edge : PyValue) : Avoids .recursionError (parseEdge edge) := by
  simp [parseEdge, avoids_bind]

@[simp] theorem avoids_parseWorkflowData (data : Items) :
    Avoids .recursionError (parseWorkflowData data) := by
  simp [parseWorkflowData, avoids_bind, avoids_mapM]

@[simp] theorem avoids_parseStep (stepData : PyValue) :
    Avoids .recursionError (parseStep stepData) := by
  simp [parseStep, avoids_bind]

@[simp] theorem avoids_parseTransition (transData : PyValue) :
    Avoids .recursionError (parseTransition transData) := by
  simp [parseTransition, avoids_bind]

@[simp] theorem avoids_parseSpec (data : Items) : Avoids .recursionError (parseSpec data) := by
  simp [parseSpec, avoids_bind, avoids_mapM]

@[simp] theorem avoids_listed (key : String) (override : Items) :
    Avoids .recursionError (listed key override) := by
  unfold listed
  split <;> simp

@[simp] theorem avoids_mergeSpecs (base : WorkflowSpec) (override : Items) :
    Avoids .recursionError (mergeSpecs base override) := by
  simp [mergeSpecs, avoids_bind]

/-! ## What editing a workflow raises -/

@[simp] theorem avoids_findNode (targetId : PyKey) (nodes : List PyValue) :
    Avoids .recursionError (findNode targetId nodes) := by
  induction nodes with
  | nil => exact avoids_ok _ _
  | cons node nodes ih =>
    unfold findNode
    refine (PyValue.avoids_getItem "id" node).bind fun id => ?_
    split_ifs
    · exact avoids_pure _ _
    · exact ih.bind fun i => avoids_pure _ _

@[simp] theorem avoids_insertNode (targetId : PyKey) (position : ℕ) (newNode : PyValue)
    (nodes : List PyValue) (edges : PyValue) :
    Avoids .recursionError (insertNode targetId position newNode nodes edges) := by
  unfold insertNode
  dsimp only
  split <;> simp [avoids_bind]

@[simp] theorem avoids_insertNodes (targetId : PyKey) :
    ∀ (position : ℕ) (newNodes nodes : List PyValue) (edges : PyValue),
      Avoids .recursionError (insertNodes targetId position newNodes nodes edges)
  | _, [], _, _ => avoids_ok _ _
  | position, newNode :: newNodes, nodes, edges =>
    (avoids_insertNode targetId position newNode nodes edges).bind fun lists =>
      avoids_insertNodes targetId (position + 1) newNodes lists.1 lists.2

@[simp] theorem avoids_insertAfterTarget (lists : PyValue × PyValue) (item : PyKey × PyValue) :
    Avoids .recursionError (insertAfterTarget lists item) := by
  unfold insertAfterTarget
  refine (PyValue.avoids_iter lists.1).bind fun nodes => ?_
  refine (avoids_findNode item.1 nodes).bind fun targetIndex => ?_
  split <;> simp [avoids_bind]

@[simp] theorem avoids_applyInsertAfter (data : Items) :
    Avoids .recursionError (applyInsertAfter data) := by
  simp [applyInsertAfter, avoids_bind, avoids_foldlM]

@[simp] theorem avoids_patchNode (nodeId : PyKey) (nodePatch : PyValue) (nodes : List PyValue) :
    Avoids .recursionError (patchNode nodeId nodePatch nodes) := by
  induction nodes with
  | nil => exact avoids_ok _ _
  | cons node nodes ih =>
    unfold patchNode
    refine (PyValue.avoids_getItem "id" node).bind fun id => ?_
    split_ifs
    · simp [avoids_bind]
    · exact ih.bind fun nodes => avoids_pure _ _

@[simp] theorem avoids_patchNodes (patch : PyValue) (result : Items) :
    Avoids .recursionError (patchNodes patch result) := by
  unfold patchNodes
  refine (PyValue.avoids_getItem "nodes" patch).bind fun nodes => ?_
  refine (PyValue.avoids_items nodes).bind fun nodePatches => ?_
  refine (avoids_foldlM (fun item _ nodes => ?_) _).bind fun nodes => avoids_pure _ _
  exact PyValue.avoids_onList (avoids_patchNode item.1 item.2) nodes

@[simp] theorem avoids_applyPatch (data : Items) : Avoids .recursionError (applyPatch data) := by
  unfold applyPatch
  refine (PyValue.avoids_contains "nodes" _).bind fun found => ?_
  split_ifs <;> simp [avoids_bind]

@[simp] theorem avoids_findStepIndex (stepId : PyValue) (steps : List PyValue) :
    Avoids .recursionError (findStepIndex stepId steps) := by
  induction steps with
  | nil => exact avoids_ok _ _
  | cons step steps ih =>
    unfold findStepIndex
    refine (PyValue.avoids_get? "id" step).bind fun id => ?_
    split_ifs
    · exact avoids_pure _ _
    · exact ih.bind fun i => avoids_pure _ _

theorem avoids_editSteps (target : PyValue) (edit : ℕ → List PyValue → List PyValue)
    (spec : Items) : Avoids .recursionError (editSteps target edit spec) := by
  have hedit : ∀ steps, Avoids .recursionError (editAt target edit steps) := fun steps => by
    refine (avoids_findStepIndex target steps).bind fun index => ?_
    split <;> simp
  unfold editSteps
  split
  · simp
  next workflow _ =>
    refine (PyValue.avoids_get? "steps" workflow).bind fun steps => ?_
    split
    · simp
    · refine (PyValue.avoids_onList hedit _).bind fun steps => ?_
      simp

theorem avoids_setFeature (value : Bool) (spec : Items) (feature : PyValue) :
    Avoids .recursionError (setFeature value spec feature) := by
  simp [setFeature]

@[simp] theorem avoids_applyMutation (spec : Items) (mutation : PyValue) :
    Avoids .recursionError (applyMutation spec mutation) := by
  unfold applyMutation
  refine (PyValue.avoids_get? _ mutation).bind fun mutationType => ?_
  refine (PyValue.avoids_get? _ mutation).bind fun target => ?_
  refine (PyValue.avoids_get? _ mutation).bind fun step => ?_
  refine (PyValue.avoids_get? _ mutation).bind fun feature => ?_
  split
  · exact avoids_editSteps _ _ _
  · exact avoids_editSteps _ _ _
  · exact avoids_editSteps _ _ _
  · exact avoids_editSteps _ _ _
  · exact avoids_setFeature _ _ _
  · exact avoids_setFeature _ _ _
  · exact avoids_pure _ _

@[simp] theorem avoids_applyMutations (data : Items) :
    Avoids .recursionError (applyMutations data) := by
  simp [applyMutations, avoids_bind, avoids_foldlM]

@[simp] theorem avoids_notADictionary (document : PyValue) :
    notADictionary document ≠ .recursionError := by
  unfold notADictionary
  split
  · split_ifs <;> nofun
  · split_ifs <;> nofun
  · nofun

/-! ## What validating a workflow raises -/

@[simp] theorem avoids_valueError (text : String) (shown : List PyValue) (c : Bool) :
    Avoids PyError.recursionError (raiseIf (PyError.valueError text shown) c) :=
  avoids_raiseIf (by simp)

@[simp] theorem avoids_validateStep (step : WorkflowStep) :
    Avoids .recursionError (validateStep step) := by
  unfold validateStep
  refine (avoids_valueError _ _ _).bind fun _ => ?_
  refine (avoids_valueError _ _ _).bind fun _ => ?_
  refine (avoids_valueError _ _ _).bind fun _ => ?_
  refine (PyValue.avoids_hash _).bind fun type => ?_
  refine (avoids_valueError _ _ _).bind fun _ => ?_
  by_cases hvalidator : type = .str "validator"
  · rw [if_pos hvalidator]
    refine (PyValue.avoids_contains _ _).bind fun schema => ?_
    split_ifs <;> simp [avoids_bind]
  · rw [if_neg hvalidator]
    split_ifs <;> simp [avoids_bind]

@[simp] theorem avoids_checkName (name : PyValue) : Avoids .recursionError (checkName name) := by
  simp [checkName, avoids_bind]

@[simp] theorem avoids_checkReference (ids : List PyKey) (t : WorkflowTransition) :
    Avoids .recursionError (checkReference ids t) := by
  simp [checkReference, avoids_bind]

theorem avoids_hashIds (steps : List WorkflowStep) :
    Avoids .recursionError (steps.mapM fun step => step.id.hash) :=
  avoids_mapM fun step _ => step.id.avoids_hash

/-- The nodes that the search for a cycle can come to. -/
def nodesOf (spec : WorkflowSpec) : Finset PyKey :=
  ((spec.steps.map WorkflowStep.id ++ spec.transitions.map WorkflowTransition.toStep).filterMap
    fun v => v.hash.toOption).toFinset

theorem mem_nodesOf {spec : WorkflowSpec} {n : PyKey} {v : PyValue}
    (hv : v ∈ spec.steps.map WorkflowStep.id ++ spec.transitions.map WorkflowTransition.toStep)
    (h : v.hash = .ok n) : n ∈ nodesOf spec := by
  refine List.mem_toFinset.mpr (List.mem_filterMap.mpr ⟨v, hv, ?_⟩)
  rw [h]
  rfl

/-- Every edge of the adjacency list is one of a transition. -/
theorem toStep_of_mem_neighbors {n : PyKey} {v : PyValue} :
    ∀ (ts : List WorkflowTransition) (graph graph' : Dict PyKey (List PyValue)),
      ts.foldlM addEdge graph = .ok graph' → v ∈ neighbors graph' n →
      v ∈ neighbors graph n ∨ v ∈ ts.map WorkflowTransition.toStep
  | [], graph, graph', h, hv => by
    obtain rfl := Except.ok.inj h
    exact Or.inl hv
  | t :: ts, graph, graph', h, hv => by
    rw [List.foldlM_cons] at h
    obtain ⟨graph₁, h₁, h⟩ := bind_eq_ok.mp h
    obtain ⟨k, -, -, hnext⟩ := neighbors_addEdge h₁
    rcases toStep_of_mem_neighbors ts graph₁ graph' h hv with hv | hv
    · rw [hnext n, List.mem_append] at hv
      refine hv.imp_right fun hv => ?_
      split_ifs at hv
      · obtain rfl := List.mem_singleton.mp hv
        exact List.mem_cons_self
      · cases hv
    · exact Or.inr (List.mem_cons_of_mem _ hv)

@[simp] theorem avoids_adjacency (ids : List PyKey) (transitions : List WorkflowTransition) :
    Avoids .recursionError (adjacency ids transitions) := by
  refine avoids_foldlM (fun t _ graph => ?_) _
  refine (PyValue.avoids_hash t.fromStep).bind fun source => ?_
  split <;> simp

theorem avoids_checkCircularDependencies {limit : ℕ} {spec : WorkflowSpec}
    (h : (nodesOf spec).card ≤ limit) :
    Avoids .recursionError (checkCircularDependencies limit spec) := by
  refine avoids_bind.mpr ⟨avoids_hashIds spec.steps, fun ids hids => ?_⟩
  refine avoids_bind.mpr ⟨avoids_adjacency ids _, fun graph hgraph => ?_⟩
  have hwithin : DepthFirst.Within PyError.recursionError PyValue.hash (neighbors graph)
      (nodesOf spec) := by
    refine ⟨fun n _ v hv m hm => ?_, PyValue.avoids_hash⟩
    have hempty : v ∉ neighbors (ids.foldl (fun graph id => graph.set id []) Dict.empty) n := by
      rw [neighbors_initial ids Dict.empty rfl]
      exact List.not_mem_nil
    exact mem_nodesOf (List.mem_append_right _
      ((toStep_of_mem_neighbors _ _ _ hgraph hv).resolve_left hempty)) hm
  have hroots : ∀ n ∈ ids, n ∈ nodesOf spec := fun n hn => by
    obtain ⟨step, hstep, hid⟩ := exists_of_mapM hids hn
    exact mem_nodesOf (List.mem_append_left _ (List.mem_map_of_mem hstep)) hid
  refine Avoids.bind (DepthFirst.fromRoots_ne_overflow hwithin h ids _ hroots) fun result => ?_
  exact avoids_valueError _ _ _

/-- A validation with room for a call for each node raises no `RecursionError`. -/
theorem avoids_validateSpec {limit : ℕ} {spec : WorkflowSpec}
    (h : (nodesOf spec).card ≤ limit) : Avoids .recursionError (validateSpec limit spec) := by
  refine (avoids_checkName spec.name).bind fun _ => ?_
  refine (avoids_hashIds spec.steps).bind fun ids => ?_
  refine (avoids_valueError _ _ _).bind fun _ => ?_
  refine (avoids_forM fun t _ => avoids_checkReference ids t).bind fun _ => ?_
  exact (avoids_checkCircularDependencies h).bind fun _ =>
    avoids_forM fun step _ => avoids_validateStep step

end WorkflowLoader

end MultiAgent
