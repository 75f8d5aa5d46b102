import MultiAgent.Workflows.WorkflowObjects

/-!
# What a load does to shared objects

A load does on a heap with more objects what it does on one with less (`uniform_load`). All of
it but the insertions and the patches of nodes only reads and allocates
(`tame_parseWorkflowData`, `tame_mergeSpecs`), whatever is nested in what.
-/

namespace MultiAgent

namespace WorkflowObjects

open ObjectHeap

instance : Shift StepObject where
  shift n k s :=
    ⟨shift n k s.id, shift n k s.type, shift n k s.name, shift n k s.config, shift n k s.metadata⟩

instance : Shift TransitionObject where
  shift n k t :=
    ⟨shift n k t.fromStep, shift n k t.toStep, shift n k t.condition, shift n k t.metadata⟩

instance : Shift SpecObject where
  shift n k s :=
    { name := shift n k s.name
      version := shift n k s.version
      description := shift n k s.description
      settings := shift n k s.settings
      steps := shift n k s.steps
      transitions := shift n k s.transitions
      tools := shift n k s.tools
      errorHandling := shift n k s.errorHandling
      metrics := shift n k s.metrics
      featureFlags := shift n k s.featureFlags
      quotas := shift n k s.quotas
      security := shift n k s.security
      monitoring := shift n k s.monitoring }

variable {n : ℕ} {more : List Cell}

/-! ## Reading and allocating -/

theorem field_shift (key : String) (default : PyValue) (data : Fields) :
    field key default (shift n more.length data) =
      shift n more.length (field key default data) := by
  unfold field
  rw [lookup_shift, ← getD_shift]
  rfl

theorem erase_shift (key : String) (data : Fields) :
    erase key (shift n more.length data) = shift n more.length (erase key data) :=
  shift_filter n more.length (fun k => k ≠ .str key) data

theorem tame_fieldOrNew (key : String) (data : Fields) :
    Tame n more (fieldOrNew key data) (fieldOrNew key (shift n more.length data)) := by
  unfold fieldOrNew
  rw [lookup_shift]
  cases data.lookup (.str key) with
  | some v => exact tame_pure rfl
  | none => exact tame_alloc _

theorem tame_mergeField {merge : Fields → Fields → Mem Fields}
    (hmerge : ∀ base override, Tame n more (merge base override)
      (merge (shift n more.length base) (shift n more.length override)))
    (old : Option Val) (value : Val) : Tame n more (mergeField merge old value)
      (mergeField merge (shift n more.length old) (shift n more.length value)) := by
  cases old with
  | none => exact tame_pure rfl
  | some old =>
    refine (tame_look old).bind fun v => (tame_look value).bind fun w => ?_
    cases v with
    | dict base =>
      cases w with
      | dict override => exact (hmerge base override).bind fun merged => tame_alloc _
      | _ => exact tame_pure rfl
    | _ => exact tame_pure rfl

theorem tame_mergeFields {merge : Fields → Fields → Mem Fields}
    (hmerge : ∀ base override, Tame n more (merge base override)
      (merge (shift n more.length base) (shift n more.length override))) :
    ∀ override base, Tame n more (mergeFields merge base override)
      (mergeFields merge (shift n more.length base) (shift n more.length override))
  | [], base => tame_pure rfl
  | (key, value) :: rest, base => by
    have hfield := tame_mergeField hmerge (base.lookup key) value
    rw [← lookup_shift] at hfield
    refine hfield.bind fun merged => ?_
    have hrest := tame_mergeFields hmerge rest (Dict.setItem key merged base)
    rw [← shift_setItem] at hrest
    exact hrest

theorem tame_deepMerge : ∀ (limit : ℕ) (base override : Fields),
    Tame n more (deepMerge limit base override)
      (deepMerge limit (shift n more.length base) (shift n more.length override))
  | 0, _, _ => tame_raise _
  | limit + 1, base, override => tame_mergeFields (tame_deepMerge limit) override base

theorem tame_findNode (targetId : PyKey) : ∀ nodes,
    Tame n more (findNode targetId nodes) (findNode targetId (shift n more.length nodes))
  | [] => tame_pure rfl
  | node :: nodes => by
    have ih := tame_findNode targetId nodes
    unfold findNode
    refine (tame_getItem "id" node).bind fun id => ?_
    rw [isKey_shift]
    split_ifs
    · exact tame_pure rfl
    · exact ih.bind fun i => tame_pure (by cases i <;> rfl)

theorem tame_newEdge (source target : Val) : Tame n more (newEdge source target)
    (newEdge (shift n more.length source) (shift n more.length target)) :=
  tame_alloc _

theorem tame_elements (method : String) (v : Val) :
    Tame n more (elements method v) (elements method (shift n more.length v)) := by
  unfold elements
  refine (tame_look v).bind fun w => ?_
  cases w with
  | list l => exact tame_pure rfl
  | _ => exact tame_raise _

theorem tame_patchedNode (limit : ℕ) (node nodePatch : Val) :
    Tame n more (patchedNode limit node nodePatch)
      (patchedNode limit (shift n more.length node) (shift n more.length nodePatch)) :=
  (tame_items node).bind fun base => (tame_items nodePatch).bind fun override =>
    tame_deepMerge limit base override

theorem tame_parseNode (node : Val) :
    Tame n more (parseNode node) (parseNode (shift n more.length node)) :=
  (tame_getItem "id" node).bind fun id => (tame_getItem "type" node).bind fun _ =>
    (tame_get "name" id node).bind fun _ => (tame_get "config" _ node).bind fun _ =>
      (tame_get "metadata" _ node).bind fun _ => tame_pure rfl

theorem tame_parseEdge (edge : Val) :
    Tame n more (parseEdge edge) (parseEdge (shift n more.length edge)) :=
  (tame_getItem "from" edge).bind fun _ => (tame_getItem "to" edge).bind fun _ =>
    (tame_get "condition" _ edge).bind fun _ => (tame_get "metadata" _ edge).bind fun _ =>
      tame_pure rfl

theorem tame_parseWorkflowData (data : Fields) :
    Tame n more (parseWorkflowData data) (parseWorkflowData (shift n more.length data)) := by
  unfold parseWorkflowData
  simp only [field_shift]
  refine (tame_iter _).bind fun nodes => (tame_each tame_parseNode nodes).bind fun steps => ?_
  refine (tame_iter _).bind fun edges => (tame_each tame_parseEdge edges).bind fun transitions => ?_
  exact tame_pure rfl

/-- Shifted specifications have the same values. -/
theorem read_shift {h : Heap} (hn : n ≤ h.length) (depth : ℕ) (spec : SpecObject) :
    (shift n more.length spec).read (readBack (stretch n more h) depth) =
      spec.read (readBack h depth) := by
  have hread : ∀ v, readBack (stretch n more h) depth (shift n more.length v) =
      readBack h depth v := readBack_shift hn depth
  have hsteps : (shift n more.length spec.steps).map
      (StepObject.read (readBack (stretch n more h) depth)) =
        spec.steps.map (StepObject.read (readBack h depth)) := by
    refine List.map_map.trans (List.map_congr_left fun step _ => ?_)
    rw [StepObject.read, ← hread step.id, ← hread step.type, ← hread step.name,
      ← hread step.config, ← hread step.metadata]
    rfl
  have htransitions : (shift n more.length spec.transitions).map
      (TransitionObject.read (readBack (stretch n more h) depth)) =
        spec.transitions.map (TransitionObject.read (readBack h depth)) := by
    refine List.map_map.trans (List.map_congr_left fun t _ => ?_)
    rw [TransitionObject.read, ← hread t.fromStep, ← hread t.toStep, ← hread t.condition,
      ← hread t.metadata]
    rfl
  unfold SpecObject.read
  rw [← hsteps, ← htransitions]
  simp only [← hread]
  rfl

theorem tame_validateSpec (limit : ℕ) (spec : SpecObject) :
    Tame n more (validateSpec limit spec) (validateSpec limit (shift n more.length spec)) := by
  refine tame_of_reads (fun _ => rfl) fun h hn => ?_
  unfold validateSpec
  rw [read_shift hn]
  unfold lift
  cases WorkflowLoader.validateSpec limit (spec.read (readBack h (limit + 2))) <;> rfl

theorem tame_optionalItem (key : String) (value : Val) :
    Tame n more (optionalItem key value) (optionalItem key (shift n more.length value)) := by
  refine (tame_truthy value).bind fun b => ?_
  cases b with
  | true => exact tame_pure rfl
  | false => exact tame_pure rfl

theorem tame_stepToDict (step : StepObject) :
    Tame n more (stepToDict step) (stepToDict (shift n more.length step)) := by
  refine (tame_optionalItem "metadata" step.metadata).bind fun metadata => ?_
  exact tame_alloc _

theorem tame_transitionToDict (transition : TransitionObject) :
    Tame n more (transitionToDict transition)
      (transitionToDict (shift n more.length transition)) := by
  refine (tame_optionalItem "metadata" transition.metadata).bind fun metadata => ?_
  exact tame_alloc _

theorem tame_listed (key : String) (override : Fields) :
    Tame n more (listed key override) (listed key (shift n more.length override)) := by
  unfold listed
  rw [lookup_shift]
  cases override.lookup (.str key) with
  | some value => exact tame_iter value
  | none => exact tame_pure rfl

theorem baseDict_shift (base : SpecObject) (nodes edges : Val) :
    baseDict (shift n more.length base) (shift n more.length nodes) (shift n more.length edges) =
      shift n more.length (baseDict base nodes edges) :=
  rfl

theorem tame_mergeSpecs (limit : ℕ) (base : SpecObject) (override : Fields) :
    Tame n more (mergeSpecs limit base override)
      (mergeSpecs limit (shift n more.length base) (shift n more.length override)) := by
  unfold mergeSpecs
  refine (tame_each tame_stepToDict base.steps).bind fun steps => ?_
  refine (tame_each tame_transitionToDict base.transitions).bind fun transitions => ?_
  refine (tame_optionalItem _ base.featureFlags).bind fun featureFlags => ?_
  refine (tame_optionalItem _ base.quotas).bind fun quotas => ?_
  refine (tame_optionalItem _ base.security).bind fun security => ?_
  refine (tame_optionalItem _ base.monitoring).bind fun monitoring => ?_
  refine (tame_listed "nodes" override).bind fun moreNodes => ?_
  refine (tame_listed "edges" override).bind fun moreEdges => ?_
  simp only [← shift_append]
  refine (tame_alloc (.list (steps ++ moreNodes))).bind fun nodes => ?_
  refine (tame_alloc (.list (transitions ++ moreEdges))).bind fun edges => ?_
  rw [erase_shift, erase_shift, baseDict_shift, ← shift_append]
  exact (tame_deepMerge limit _ _).bind fun merged => tame_parseWorkflowData merged

/-! ## Insertions and patches -/

theorem uniform_addEdges (nodes edges : Val) (targetId : PyKey) (position : ℕ) (newNode : Val) :
    Uniform n more (addEdges nodes edges targetId position newNode)
      (addEdges (shift n more.length nodes) (shift n more.length edges) targetId position
        (shift n more.length newNode)) := by
  unfold addEdges
  refine (tame_elements "append" edges).toUniform.bind fun _ => ?_
  refine (tame_getItem "id" newNode).toUniform.bind fun newId => ?_
  refine (tame_newEdge (.atom targetId.toValue) newId).toUniform.bind fun edge => ?_
  refine (uniform_append edges edge).bind fun _ => ?_
  refine (tame_elements "insert" nodes).toUniform.bind fun current => ?_
  rw [getElem?_shift]
  cases current[position + 1]? with
  | none => exact (tame_pure rfl).toUniform
  | some nextNode =>
    refine (tame_getItem "id" nextNode).toUniform.bind fun nextId => ?_
    exact (tame_newEdge newId nextId).toUniform.bind fun edge => uniform_append edges edge

theorem uniform_insertNode (nodes edges : Val) (targetId : PyKey) (position : ℕ) (newNode : Val) :
    Uniform n more (insertNode nodes edges targetId position newNode)
      (insertNode (shift n more.length nodes) (shift n more.length edges) targetId position
        (shift n more.length newNode)) :=
  (uniform_insert nodes position newNode).bind fun _ =>
    uniform_addEdges nodes edges targetId position newNode

theorem uniform_insertNodes (nodes edges : Val) (targetId : PyKey) (targetIndex : ℕ)
    (newNodes : Val) : ∀ room j,
    Uniform n more (insertNodes nodes edges targetId targetIndex newNodes room j)
      (insertNodes (shift n more.length nodes) (shift n more.length edges) targetId targetIndex
        (shift n more.length newNodes) room j)
  | 0, _ => (tame_raise _).toUniform
  | room + 1, j => by
    have ih := uniform_insertNodes nodes edges targetId targetIndex newNodes room (j + 1)
    unfold insertNodes
    refine (tame_iter newNodes).toUniform.bind fun current => ?_
    rw [getElem?_shift]
    cases current[j]? with
    | none => exact (tame_pure rfl).toUniform
    | some newNode => exact (uniform_insertNode nodes edges _ _ newNode).bind fun _ => ih

theorem uniform_insertAfterTarget (nodes edges : Val) (item : PyKey × Val) :
    Uniform n more (insertAfterTarget nodes edges item)
      (insertAfterTarget (shift n more.length nodes) (shift n more.length edges)
        (shift n more.length item)) := by
  unfold insertAfterTarget
  refine (tame_iter nodes).toUniform.bind fun current => ?_
  refine (tame_findNode item.1 current).toUniform.bind fun targetIndex => ?_
  cases targetIndex with
  | none => exact (tame_pure rfl).toUniform
  | some targetIndex =>
    refine (tame_iter item.2).toUniform.bind fun newNodes => ?_
    rw [length_shift]
    exact uniform_insertNodes nodes edges item.1 targetIndex item.2 _ 0

theorem uniform_insertAll (nodes edges : Val) (insertAfter : Fields) :
    Uniform n more (insertAll nodes edges insertAfter)
      (insertAll (shift n more.length nodes) (shift n more.length edges)
        (shift n more.length insertAfter)) :=
  uniform_forEach (uniform_insertAfterTarget nodes edges) insertAfter

theorem withLists_shift (nodes edges : Val) (data : Fields) :
    withLists (shift n more.length nodes) (shift n more.length edges) (shift n more.length data) =
      shift n more.length (withLists nodes edges data) := by
  unfold withLists
  rw [erase_shift, shift_setItem, shift_setItem]

theorem uniform_applyInsertAfter (data : Fields) : Uniform n more (applyInsertAfter data)
    (applyInsertAfter (shift n more.length data)) := by
  unfold applyInsertAfter
  refine (tame_fieldOrNew "nodes" data).toUniform.bind fun nodes => ?_
  refine (tame_fieldOrNew "edges" data).toUniform.bind fun edges => ?_
  rw [field_shift]
  refine (tame_items _).toUniform.bind fun insertAfter => ?_
  refine (uniform_insertAll nodes edges insertAfter).bind fun _ => ?_
  rw [withLists_shift]
  exact (tame_pure rfl).toUniform

theorem uniform_replaceNode (nodes : Val) (index : ℕ) (node : Fields) :
    Uniform n more (replaceNode nodes index node)
      (replaceNode (shift n more.length nodes) index (shift n more.length node)) :=
  (tame_alloc (.dict node)).toUniform.bind fun v => uniform_setIndex nodes index v

theorem uniform_patchNode (limit : ℕ) (nodes : Val) (item : PyKey × Val) :
    Uniform n more (patchNode limit nodes item)
      (patchNode limit (shift n more.length nodes) (shift n more.length item)) := by
  unfold patchNode
  refine (tame_iter nodes).toUniform.bind fun current => ?_
  refine (tame_findNode item.1 current).toUniform.bind fun index => ?_
  cases index with
  | none => exact (tame_pure rfl).toUniform
  | some index =>
    have hnode : (shift n more.length current).getD index (.atom .null) =
        shift n more.length (current.getD index (.atom .null)) := by
      rw [List.getD_eq_getElem?_getD, List.getD_eq_getElem?_getD, getElem?_shift, ← getD_shift]
      rfl
    dsimp only [shift_some, shift_nat]
    rw [hnode]
    exact (tame_patchedNode limit _ item.2).toUniform.bind fun merged =>
      uniform_replaceNode nodes index merged

theorem uniform_patchAll (limit : ℕ) (nodes : Val) (nodePatches : Fields) :
    Uniform n more (patchAll limit nodes nodePatches)
      (patchAll limit (shift n more.length nodes) (shift n more.length nodePatches)) :=
  uniform_forEach (uniform_patchNode limit nodes) nodePatches

theorem uniform_patchNodes (limit : ℕ) (patch : Val) (result : Fields) :
    Uniform n more (patchNodes limit patch result)
      (patchNodes limit (shift n more.length patch) (shift n more.length result)) := by
  unfold patchNodes
  refine (tame_fieldOrNew "nodes" result).toUniform.bind fun nodes => ?_
  refine (tame_getItem "nodes" patch).toUniform.bind fun patches => ?_
  refine (tame_items patches).toUniform.bind fun nodePatches => ?_
  refine (uniform_patchAll limit nodes nodePatches).bind fun _ => ?_
  rw [shift_setItem]
  exact (tame_pure rfl).toUniform

theorem uniform_patchNodesWhere (limit : ℕ) (patch : Val) (result : Fields) :
    Uniform n more (patchNodesWhere limit patch result)
      (patchNodesWhere limit (shift n more.length patch) (shift n more.length result)) := by
  refine (tame_contains "nodes" patch).toUniform.bind fun hasNodes => ?_
  cases hasNodes with
  | true => exact uniform_patchNodes limit patch result
  | false => exact (tame_pure rfl).toUniform

theorem uniform_applyPatch (limit : ℕ) (data : Fields) : Uniform n more (applyPatch limit data)
    (applyPatch limit (shift n more.length data)) := by
  unfold applyPatch
  rw [field_shift, erase_shift]
  refine (uniform_patchNodesWhere limit _ _).bind fun result => ?_
  refine (tame_items _).toUniform.bind fun patchCopy => ?_
  rw [erase_shift]
  exact (tame_deepMerge limit result _).toUniform

/-! ## Loads -/

theorem uniform_applyWhere {key : String} {apply : Fields → Mem Fields}
    (happly : ∀ data, Uniform n more (apply data) (apply (shift n more.length data)))
    (data : Fields) : Uniform n more (applyWhere key apply data)
      (applyWhere key apply (shift n more.length data)) := by
  unfold applyWhere
  rw [lookup_shift]
  cases data.lookup (.str key) with
  | some v => exact happly data
  | none => exact (tame_pure rfl).toUniform

theorem tame_parseAndCheck (limit : ℕ) (data : Fields) : Tame n more (parseAndCheck limit data)
    (parseAndCheck limit (shift n more.length data)) :=
  (tame_parseWorkflowData data).bind fun spec => (tame_validateSpec limit spec).bind fun _ =>
    tame_pure rfl

theorem uniform_parseAndValidate (limit : ℕ) (data : Fields) :
    Uniform n more (parseAndValidate limit data)
      (parseAndValidate limit (shift n more.length data)) := by
  unfold parseAndValidate
  refine (uniform_applyWhere uniform_applyInsertAfter data).bind fun data => ?_
  unfold patchAndParse
  refine (uniform_applyWhere (uniform_applyPatch limit) data).bind fun data => ?_
  exact (tame_parseAndCheck limit data).toUniform

/-- The specification of a file holds atoms. -/
theorem ofFile_shift (k : ℕ) (spec : WorkflowSpec) : shift n k (ofFile spec) = ofFile spec := by
  have hsteps : shift n k (ofFile spec).steps = (ofFile spec).steps := List.map_map
  have htransitions : shift n k (ofFile spec).transitions = (ofFile spec).transitions :=
    List.map_map
  change { ofFile spec with
    steps := shift n k (ofFile spec).steps
    transitions := shift n k (ofFile spec).transitions } = ofFile spec
  rw [hsteps, htransitions]

namespace ObjectLoader

variable {L : ObjectLoader}

theorem tame_findWorkflow (htable : ∀ table ∈ L.workflows, table.Within n) (baseName : Val) :
    Tame n more (L.findWorkflow baseName) (L.findWorkflow (shift n more.length baseName)) := by
  unfold findWorkflow
  cases hworkflows : L.workflows with
  | none => exact tame_pure rfl
  | some table =>
    refine (tame_hash baseName).bind fun key => ?_
    have hitems : Tame n more (items table) (items (shift n more.length table)) :=
      tame_items table
    rw [shift_of_within _ (htable table hworkflows)] at hitems
    refine hitems.bind fun workflows => ?_
    rw [shift_key, lookup_shift]
    exact tame_pure rfl

theorem tame_loadBaseWorkflow (limit : ℕ) (workflowName : Val) :
    Tame n more (L.loadBaseWorkflow limit workflowName)
      (L.loadBaseWorkflow limit (shift n more.length workflowName)) := by
  refine tame_of_reads (fun _ => rfl) fun h hn => ?_
  unfold loadBaseWorkflow lift
  dsimp only
  rw [readBack_shift hn]
  generalize WorkflowLoader.loadBaseWorkflow _ limit _ = loaded
  cases loaded with
  | error e => rfl
  | ok spec =>
    change (Except.ok (ofFile spec), _) = (Except.ok (shift n more.length (ofFile spec)), _)
    rw [ofFile_shift]

/-- A load does with shifted objects what it does with the objects. -/
theorem uniform_load (htable : ∀ table ∈ L.workflows, table.Within n) :
    ∀ (limit : ℕ) (workflowData : Val), Uniform n more (L.loadWorkflowFromData limit workflowData)
      (L.loadWorkflowFromData limit (shift n more.length workflowData))
  | 0, _ => (tame_raise _).toUniform
  | limit + 1, workflowData => by
    unfold loadWorkflowFromData
    refine (tame_items workflowData).toUniform.bind fun data => ?_
    rw [lookup_shift]
    cases data.lookup (.str "extends") with
    | none => exact uniform_parseAndValidate limit data
    | some baseName =>
      refine (tame_findWorkflow htable baseName).toUniform.bind fun base => ?_
      cases base with
      | some base =>
        exact (uniform_load htable limit base).bind fun baseSpec =>
          (tame_mergeSpecs limit baseSpec data).toUniform
      | none =>
        exact (tame_loadBaseWorkflow limit baseName).toUniform.bind fun baseSpec =>
          (tame_mergeSpecs limit baseSpec data).toUniform

end ObjectLoader

end WorkflowObjects

end MultiAgent
