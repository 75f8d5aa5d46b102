import MultiAgent.Workflows.WorkflowCycles

/-!
# Nodes inserted after a node

For a target with `insert_after`, `_apply_insert_after` puts the new nodes behind it in the
list and adds an edge from the target to each of them, and from each of them to the node that
came behind the target in the list (`insertNodes_eq`). What is loaded is the workflow with
these steps and transitions, if that is valid (`loadWorkflow_withInsertion`).
-/

namespace MultiAgent

namespace WorkflowLoader

open Fallible

/-! ## What is inserted -/

/-- The node is parsed to the step. -/
def Parses (node : PyValue) (step : WorkflowStep) : Prop :=
  parseNode node = .ok step

theorem Parses.id {node : PyValue} {step : WorkflowStep} (h : Parses node step) :
    node.getItem "id" = .ok step.id := by
  obtain ⟨id, hid, h⟩ := bind_eq_ok.mp h
  obtain ⟨type, -, h⟩ := bind_eq_ok.mp h
  obtain ⟨name, -, h⟩ := bind_eq_ok.mp h
  obtain ⟨config, -, h⟩ := bind_eq_ok.mp h
  obtain ⟨metadata, -, h⟩ := bind_eq_ok.mp h
  obtain rfl := Except.ok.inj h
  exact hid

/-- The target is found where it stands among the ids. -/
theorem findNode_eq {targetId : PyKey} {nodes : List PyValue} {steps : List WorkflowStep}
    (hnodes : List.Forall₂ Parses nodes steps) : ∀ {ids : List PyKey}, HasIds steps ids →
      targetId ∈ ids → findNode targetId nodes = .ok (some (ids.idxOf targetId)) := by
  induction hnodes with
  | nil =>
    intro ids hids hmem
    cases hids
    exact absurd hmem List.not_mem_nil
  | @cons node step nodes steps hnode hnodes ih =>
    intro ids hids hmem
    cases hids with
    | @cons _ id _ ids hid hids =>
      have hkey : step.id.isKey targetId = decide (id = targetId) := by
        unfold PyValue.isKey
        rw [hid]
      unfold findNode
      rw [hnode.id, ok_bind, hkey]
      by_cases he : id = targetId
      · subst he
        rw [if_pos (decide_eq_true rfl), List.idxOf_cons_self]
        rfl
      · have hrest : targetId ∈ ids := (List.mem_cons.mp hmem).resolve_left (Ne.symm he)
        rw [if_neg (by simpa using he), ih hids hrest, List.idxOf_cons_ne _ he]
        rfl

/-- The ends of the edges that are added. -/
def addedEnds (target : PyValue) (next : Option PyValue) (newIds : List PyValue) :
    List (PyValue × PyValue) :=
  newIds.flatMap fun newId => (target, newId) :: next.toList.map fun nextId => (newId, nextId)

theorem insertIdx_length_append {α : Type*} (x : α) (back : List α) :
    ∀ front : List α, (front ++ back).insertIdx front.length x = front ++ x :: back
  | [] => rfl
  | a :: front => congrArg (a :: ·) (insertIdx_length_append x back front)

/-- Behind `front` the new nodes are inserted one by one, each with its edges. -/
theorem insertNodes_eq (targetId : PyKey) {back : List PyValue} {backSteps : List WorkflowStep}
    (hback : List.Forall₂ Parses back backSteps) {newNodes : List PyValue}
    {newSteps : List WorkflowStep} (hnew : List.Forall₂ Parses newNodes newSteps) :
    ∀ front old : List PyValue,
      insertNodes targetId front.length newNodes (front ++ back) (.arr old) =
        .ok (front ++ newNodes ++ back, .arr (old ++ (addedEnds targetId.toValue
          (backSteps.head?.map WorkflowStep.id) (newSteps.map WorkflowStep.id)).map
            fun ends => newEdge ends.1 ends.2)) := by
  induction hnew with
  | nil =>
    intro front old
    simp [insertNodes, addedEnds]
  | @cons newNode newStep newNodes newSteps hnew hnews ih =>
    intro front old
    have hone : insertNode targetId front.length newNode (front ++ back) (.arr old) =
        .ok (front ++ newNode :: back, .arr (old ++ (addedEnds targetId.toValue
          (backSteps.head?.map WorkflowStep.id) [newStep.id]).map
            fun ends => newEdge ends.1 ends.2)) := by
      unfold insertNode
      have hnext : (front ++ newNode :: back)[front.length + 1]? = back.head? := by
        rw [List.getElem?_append_right (Nat.le_add_right _ 1), Nat.add_sub_cancel_left,
          List.getElem?_cons_succ, List.head?_eq_getElem?]
      simp only [insertIdx_length_append, PyValue.elements, ok_bind, hnew.id, hnext]
      cases hback with
      | nil => rfl
      | cons hnode _ =>
        simp only [List.head?_cons, hnode.id, ok_bind]
        rfl
    have hlist : front ++ newNode :: back = (front ++ [newNode]) ++ back := by simp
    have hlength : front.length + 1 = (front ++ [newNode]).length := by simp
    unfold insertNodes
    rw [hone, ok_bind]
    dsimp only
    rw [hlist, hlength, ih]
    simp [addedEnds]

/-! ## What is loaded -/

/-- A dictionary of a valid workflow that extends and edits nothing. -/
structure ValidData (data : Dict PyKey PyValue) (spec : WorkflowSpec) (ids : List PyKey) :
    Prop where
  plain : ∀ key ∈ ["extends", "insert_after", "patch"], data.get? (.str key) = none
  lists : ∀ key ∈ ["nodes", "edges"], ∀ v, data.get? (.str key) = some v → ∃ l, v = .arr l
  parsed : parseWorkflowData data.items = .ok spec
  hasIds : HasIds spec.steps ids
  valid : ValidSpec spec

/-- New nodes, with the steps they are parsed to : valid steps with ids that are distinct and
that the workflow does not mention. -/
structure NewNodes (spec : WorkflowSpec) (ids : List PyKey) (newNodes : List PyValue)
    (newSteps : List WorkflowStep) (newIds : List PyKey) : Prop where
  parsed : List.Forall₂ Parses newNodes newSteps
  hasIds : HasIds newSteps newIds
  nodup : newIds.Nodup
  fresh : ∀ n ∈ newIds, n ∉ ids ∧ ∀ a, ¬Precedes spec.transitions a n
  valid : ∀ step ∈ newSteps, validateStep step = .ok ()

/-- The dictionary with `insert_after: {target: newNodes}`. -/
def withInsertion (data : Dict PyKey PyValue) (target : PyKey) (newNodes : List PyValue) :
    Dict PyKey PyValue :=
  data.set (.str "insert_after") (.obj [(target, .arr newNodes)])

/-- The transition of an edge that is added. -/
def addedTransition (ends : PyValue × PyValue) : WorkflowTransition where
  fromStep := ends.1
  toStep := ends.2
  condition := .str "true"
  metadata := .null

/-- The specification with steps inserted behind the one at an index. -/
def inserted (spec : WorkflowSpec) (target : PyKey) (index : ℕ) (newSteps : List WorkflowStep) :
    WorkflowSpec :=
  { spec with
    steps := spec.steps.take (index + 1) ++ newSteps ++ spec.steps.drop (index + 1)
    transitions := spec.transitions ++ (addedEnds target.toValue
      (spec.steps[index + 1]?.map WorkflowStep.id) (newSteps.map WorkflowStep.id)).map
        addedTransition }

/-- Parsing reads only what is at the fields it names. -/
theorem parseWorkflowData_edited {data data' : Items} {spec : WorkflowSpec}
    (h : parseWorkflowData data = .ok spec)
    (hsame : ∀ key, key ≠ "nodes" → key ≠ "edges" → key ≠ "insert_after" →
      data'.field key = data.field key)
    {nodes edges : List PyValue} (hnodes : data'.field "nodes" = some (.arr nodes))
    (hedges : data'.field "edges" = some (.arr edges)) {steps : List WorkflowStep}
    {transitions : List WorkflowTransition} (hsteps : nodes.mapM parseNode = .ok steps)
    (htransitions : edges.mapM parseEdge = .ok transitions) :
    parseWorkflowData data' = .ok { spec with steps := steps, transitions := transitions } := by
  obtain ⟨nodes₀, -, h⟩ := bind_eq_ok.mp h
  obtain ⟨steps₀, -, h⟩ := bind_eq_ok.mp h
  obtain ⟨edges₀, -, h⟩ := bind_eq_ok.mp h
  obtain ⟨transitions₀, -, h⟩ := bind_eq_ok.mp h
  obtain rfl := Except.ok.inj h
  unfold parseWorkflowData
  simp only [hnodes, hedges, Option.getD_some, PyValue.iter, ok_bind, hsteps, htransitions]
  rw [hsame "name" (by decide) (by decide) (by decide),
    hsame "version" (by decide) (by decide) (by decide),
    hsame "description" (by decide) (by decide) (by decide),
    hsame "settings" (by decide) (by decide) (by decide),
    hsame "tools" (by decide) (by decide) (by decide),
    hsame "error_handling" (by decide) (by decide) (by decide),
    hsame "metrics" (by decide) (by decide) (by decide),
    hsame "feature_flags" (by decide) (by decide) (by decide),
    hsame "quotas" (by decide) (by decide) (by decide),
    hsame "security" (by decide) (by decide) (by decide),
    hsame "monitoring" (by decide) (by decide) (by decide)]
  rfl

section Loaded

variable {data : Dict PyKey PyValue} {spec : WorkflowSpec} {ids : List PyKey}

/-- The list at `nodes` or `edges`. -/
theorem ValidData.exists_list (h : ValidData data spec ids) {key : String}
    (hkey : key ∈ ["nodes", "edges"]) :
    ∃ l, (Items.field data.items key).getD (.arr []) = .arr l := by
  have hlist := h.lists key hkey
  change ∃ l, (data.get? (.str key)).getD (.arr []) = .arr l
  cases hget : data.get? (.str key) with
  | none => exact ⟨[], rfl⟩
  | some v =>
    obtain ⟨l, rfl⟩ := hlist v hget
    exact ⟨l, rfl⟩

/-- The nodes and edges of the dictionary, with what they are parsed to. -/
theorem ValidData.parses (h : ValidData data spec ids) :
    ∃ nodes edges, (Items.field data.items "nodes").getD (.arr []) = .arr nodes ∧
      (Items.field data.items "edges").getD (.arr []) = .arr edges ∧
      List.Forall₂ Parses nodes spec.steps ∧ edges.mapM parseEdge = .ok spec.transitions := by
  obtain ⟨nodes, hnodes⟩ := h.exists_list (List.mem_cons_self (a := "nodes"))
  obtain ⟨edges, hedges⟩ :=
    h.exists_list (List.mem_cons_of_mem "nodes" (List.mem_cons_self (a := "edges")))
  refine ⟨nodes, edges, hnodes, hedges, ?_⟩
  have hparsed := h.parsed
  unfold parseWorkflowData at hparsed
  rw [hnodes, hedges] at hparsed
  obtain ⟨nodes₀, hnodes₀, hparsed⟩ := bind_eq_ok.mp hparsed
  obtain rfl := Except.ok.inj hnodes₀
  obtain ⟨steps, hsteps, hparsed⟩ := bind_eq_ok.mp hparsed
  obtain ⟨edges₀, hedges₀, hparsed⟩ := bind_eq_ok.mp hparsed
  obtain rfl := Except.ok.inj hedges₀
  obtain ⟨transitions, htransitions, hparsed⟩ := bind_eq_ok.mp hparsed
  obtain rfl := Except.ok.inj hparsed
  exact ⟨mapM_eq_ok.mp hsteps, htransitions⟩

theorem field_withInsertion (data : Dict PyKey PyValue) (target : PyKey)
    (newNodes : List PyValue) {key : String} (h : key ≠ "insert_after") :
    Items.field (withInsertion data target newNodes).items key = Items.field data.items key :=
  data.get?_set_ne _ fun he => h (PyKey.str.inj he)

variable {target : PyKey} {newNodes : List PyValue} {newSteps : List WorkflowStep}

/-- What `_apply_insert_after` returns is parsed to the steps and transitions inserted, and has
the other fields of the dictionary. -/
theorem applyInsertAfter_withInsertion (h : ValidData data spec ids) (htarget : target ∈ ids)
    (hnew : List.Forall₂ Parses newNodes newSteps) :
    ∃ edited, applyInsertAfter (withInsertion data target newNodes).items = .ok edited ∧
      (∀ key, key ≠ "nodes" → key ≠ "edges" → key ≠ "insert_after" →
        Items.field edited key = Items.field data.items key) ∧
      parseWorkflowData edited = .ok (inserted spec target (ids.idxOf target) newSteps) := by
  obtain ⟨nodes, edges, hnodes, hedges, hsteps, htransitions⟩ := h.parses
  set index := ids.idxOf target
  set ends := addedEnds target.toValue (spec.steps[index + 1]?.map WorkflowStep.id)
    (newSteps.map WorkflowStep.id)
  have hindex : index + 1 ≤ nodes.length := by
    rw [hsteps.length_eq, h.hasIds.length_eq]
    exact List.idxOf_lt_length_of_mem htarget
  have hfind : findNode target nodes = .ok (some index) := findNode_eq hsteps h.hasIds htarget
  have hinsert : insertNodes target (index + 1) newNodes nodes (.arr edges) =
      .ok (nodes.take (index + 1) ++ newNodes ++ nodes.drop (index + 1),
        .arr (edges ++ ends.map fun ends => newEdge ends.1 ends.2)) := by
    have hall := insertNodes_eq target (List.forall₂_drop (index + 1) hsteps) hnew
      (nodes.take (index + 1)) edges
    rw [List.length_take_of_le hindex, List.take_append_drop, List.head?_drop] at hall
    exact hall
  have hparseEdges : (edges ++ ends.map fun ends => newEdge ends.1 ends.2).mapM parseEdge =
      .ok (spec.transitions ++ ends.map addedTransition) := by
    refine mapM_eq_ok.mpr (List.rel_append (mapM_eq_ok.mp htransitions) ?_)
    rw [List.forall₂_map_left_iff, List.forall₂_map_right_iff, List.forall₂_same]
    exact fun ends _ => rfl
  have hparseNodes : (nodes.take (index + 1) ++ newNodes ++ nodes.drop (index + 1)).mapM
      parseNode = .ok (inserted spec target index newSteps).steps :=
    mapM_eq_ok.mpr (List.rel_append
      (List.rel_append (List.forall₂_take (index + 1) hsteps) hnew)
      (List.forall₂_drop (index + 1) hsteps))
  set allNodes := nodes.take (index + 1) ++ newNodes ++ nodes.drop (index + 1)
  set allEdges := edges ++ ends.map fun ends => newEdge ends.1 ends.2
  set edited := Dict.setItem (.str "edges") (.arr allEdges) (Dict.setItem (.str "nodes")
    (.arr allNodes) (erase "insert_after" (withInsertion data target newNodes).items))
  have hitem : Items.field (withInsertion data target newNodes).items "insert_after" =
      some (.obj [(target, .arr newNodes)]) := data.get?_set_self _ _
  have happly : applyInsertAfter (withInsertion data target newNodes).items = .ok edited := by
    unfold applyInsertAfter
    rw [field_withInsertion data target newNodes (by decide), hnodes,
      field_withInsertion data target newNodes (by decide), hedges, hitem]
    simp only [Option.getD_some, PyValue.items, ok_bind, List.foldlM_cons, List.foldlM_nil,
      insertAfterTarget, PyValue.iter, hfind, hinsert, pure_bind]
    rfl
  have hfield : ∀ key, key ≠ "nodes" → key ≠ "edges" → key ≠ "insert_after" →
      Items.field edited key = Items.field data.items key := by
    intro key hn he hi
    rw [← field_withInsertion data target newNodes hi]
    unfold Items.field
    rw [Dict.lookup_setItem, if_neg fun h => he (PyKey.str.inj h), Dict.lookup_setItem,
      if_neg fun h => hn (PyKey.str.inj h)]
    exact (Dict.lookup_filter_ne _ _ _).trans (if_neg fun h => hi (PyKey.str.inj h))
  refine ⟨edited, happly, hfield,
    parseWorkflowData_edited h.parsed hfield ?_ ?_ hparseNodes hparseEdges⟩
  · unfold Items.field
    rw [Dict.lookup_setItem, if_neg (by decide), Dict.lookup_setItem, if_pos rfl]
  · unfold Items.field
    rw [Dict.lookup_setItem, if_pos rfl]

/-- With new nodes after a target the workflow is loaded that has the steps and transitions
inserted, if it is valid. -/
theorem loadWorkflow_withInsertion (L : WorkflowLoader) (h : ValidData data spec ids)
    (htarget : target ∈ ids) (hnew : List.Forall₂ Parses newNodes newSteps) (limit : ℕ) :
    L.loadWorkflow (limit + 1) (withInsertion data target newNodes) =
      validateSpec limit (inserted spec target (ids.idxOf target) newSteps) >>= fun _ =>
        pure (inserted spec target (ids.idxOf target) newSteps) := by
  obtain ⟨edited, happly, hfield, hparse⟩ := applyInsertAfter_withInsertion h htarget hnew
  have hextends : (withInsertion data target newNodes).get? (.str "extends") = none :=
    (field_withInsertion data target newNodes (by decide)).trans (h.plain "extends" (by decide))
  have hitem : Items.field (withInsertion data target newNodes).items "insert_after" =
      some (.obj [(target, .arr newNodes)]) := data.get?_set_self _ _
  have hpatch : Items.field edited "patch" = none :=
    (hfield "patch" (by decide) (by decide) (by decide)).trans (h.plain "patch" (by decide))
  have hinserted : applyWhere "insert_after" applyInsertAfter
      (withInsertion data target newNodes).items = .ok edited := by
    unfold applyWhere
    rw [hitem]
    exact happly
  have hpatched : applyWhere "patch" applyPatch edited = .ok edited := by
    unfold applyWhere
    rw [hpatch]
    rfl
  unfold loadWorkflow loadWorkflowFromData
  rw [hextends]
  dsimp only
  unfold parseAndValidate
  rw [hinserted, ok_bind, hpatched, ok_bind, hparse, ok_bind]

end Loaded

end WorkflowLoader

end MultiAgent
