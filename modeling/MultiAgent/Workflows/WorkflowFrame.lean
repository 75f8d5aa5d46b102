import MultiAgent.Lib.DryRun
import MultiAgent.Workflows.WorkflowAliasing

/-!
# What a load leaves of the dictionaries

`_apply_insert_after` and `_apply_patch` copy the dictionary and edit the lists that the copy
shares with it. `edits` is the dry run of a load : it follows `extends` as the load does and asks
whether an insertion or a patch of a node comes to its edit. The dictionaries stay as they are,
and a second load gives what the first one gave, if and only if it does not say so
(`loads_alike_iff`).
-/

namespace MultiAgent

namespace WorkflowObjects

open ObjectHeap

/-! ## Dry runs -/

/-- Whether an item of `insert_after` finds its target and has a node to insert. -/
def insertsAt (nodes : Val) (item : PyKey × Val) : Mem Bool := do
  match ← findNode item.1 (← iter nodes) with
  | some _ => do
    match ← iter item.2 with
    | [] => pure false
    | _ :: _ => editable nodes (.attributeError "insert")
  | none => pure false

/-- Whether a patch finds its node and merges with it. -/
def patchesAt (limit : ℕ) (nodes : Val) (item : PyKey × Val) : Mem Bool := do
  let current ← iter nodes
  match ← findNode item.1 current with
  | some index => do
    let _ ← patchedNode limit (current.getD index (.atom .null)) item.2
    editable nodes .typeError
  | none => pure false

/-- Whether `_apply_patch` patches a node. -/
def patches (limit : ℕ) (data : Fields) : Mem Bool := do
  let patch := field "patch" (.obj []) data
  if ← contains "nodes" patch then
    let nodes ← fieldOrNew "nodes" (erase "patch" data)
    let nodePatches ← items (← getItem "nodes" patch)
    anyOf (patchesAt limit nodes) nodePatches
  else pure false

/-- Whether a node is patched in a dictionary, which need not have patches. -/
def patchesWhere (limit : ℕ) (data : Fields) : Mem Bool :=
  if (data.lookup (.str "patch")).isSome then patches limit data else pure false

/-- Whether a node is inserted or else one is patched. -/
def editsLists (limit : ℕ) (data : Fields) : Mem Bool :=
  if (data.lookup (.str "insert_after")).isSome then do
    let nodes ← fieldOrNew "nodes" data
    let edges ← fieldOrNew "edges" data
    let insertAfter ← items (field "insert_after" (.obj []) data)
    if ← anyOf (insertsAt nodes) insertAfter then return true
    else patchesWhere limit (withLists nodes edges data)
  else patchesWhere limit data

/-- Whether a load edits a list, in the dictionary that `extends` leads to. -/
def ObjectLoader.edits (L : ObjectLoader) : ℕ → Val → Mem Bool
  | 0, _ => pure false
  | limit + 1, workflowData => do
    let data ← items workflowData
    match data.lookup (.str "extends") with
    | some baseName => do
      match ← L.findWorkflow baseName with
      | some base => L.edits limit base
      | none => pure false
    | none => editsLists limit data

variable {h₀ h : Heap}

/-! ## Nodes that the heap knows -/

/-- The nodes are an old object, or a list that was empty and new. -/
structure KnownNodes (h₀ g : Heap) (nodes : Val) : Prop where
  isPrefix : h₀ <+: g
  known : nodes.Within h₀.length ∨ ∃ i, nodes = .ref i ∧ g[i]? = some (.list [])

theorem KnownNodes.mono {g g' : Heap} {nodes : Val} (hnodes : KnownNodes h₀ g nodes)
    (hgrown : g <+: g') : KnownNodes h₀ g' nodes :=
  ⟨hnodes.isPrefix.trans hgrown, hnodes.known.imp id fun ⟨i, hi, hcell⟩ =>
    ⟨i, hi, getElem?_kept hgrown hcell⟩⟩

theorem iter_eq (v : Val) (h : Heap) : (iter v h).2 = h := by
  unfold iter
  rw [bind_apply, look]
  dsimp only
  cases view h v <;> rfl

/-- A node is found in old nodes only. -/
theorem KnownNodes.within {nodes : Val} (hnodes : KnownNodes h₀ h nodes) {targetId : PyKey}
    {current : List Val} {index : ℕ} {g g' : Heap} (hiter : iter nodes h = (.ok current, g))
    (hfind : findNode targetId current g = (.ok (some index), g')) : nodes.Within h₀.length := by
  rcases hnodes.known with hold | ⟨i, rfl, hcell⟩
  · exact hold
  · have hempty : iter (.ref i) h = (.ok [], h) := by
      rw [iter, bind_apply, look]
      simp only [view, hcell]
      rfl
    rw [hempty] at hiter
    obtain rfl : [] = current := Except.ok.inj (congrArg Prod.fst hiter)
    cases congrArg Prod.fst hfind

/-! ## Insertions -/

theorem staysEdited_addEdges (nodes edges : Val) (targetId : PyKey) (position : ℕ)
    (newNode : Val) : StaysEdited h₀ (addEdges nodes edges targetId position newNode) := by
  unfold addEdges
  refine .read (tame_elements "append" edges) fun _ => ?_
  refine .read (tame_getItem "id" newNode) fun newId => ?_
  refine .read (tame_newEdge _ newId) fun edge => ?_
  refine (staysEdited_append edges edge).bind fun _ => ?_
  refine .read (tame_elements "insert" nodes) fun current => ?_
  cases current[position + 1]? with
  | none => exact fun _ hedited => hedited
  | some nextNode =>
    refine .read (tame_getItem "id" nextNode) fun nextId => ?_
    refine .read (tame_newEdge newId nextId) fun edge => ?_
    exact staysEdited_append edges edge

theorem staysEdited_insertNodes (nodes edges : Val) (targetId : PyKey) (targetIndex : ℕ)
    (newNodes : Val) : ∀ room j,
    StaysEdited h₀ (insertNodes nodes edges targetId targetIndex newNodes room j)
  | 0, _ => fun _ hedited => hedited
  | room + 1, j => by
    unfold insertNodes
    refine .read (tame_iter newNodes) fun current => ?_
    cases current[j]? with
    | none => exact fun _ hedited => hedited
    | some newNode =>
      have hnode : StaysEdited h₀
          (insertNode nodes edges targetId (targetIndex + 1 + j) newNode) :=
        (staysEdited_insert nodes _ newNode).bind fun _ =>
          staysEdited_addEdges nodes edges targetId _ newNode
      exact hnode.bind fun _ =>
        staysEdited_insertNodes nodes edges targetId targetIndex newNodes room (j + 1)

theorem staysEdited_insertAfterTarget (nodes edges : Val) (item : PyKey × Val) :
    StaysEdited h₀ (insertAfterTarget nodes edges item) := by
  unfold insertAfterTarget
  refine .read (tame_iter nodes) fun current => ?_
  refine .read (tame_findNode item.1 current) fun targetIndex => ?_
  cases targetIndex with
  | none => exact fun _ hedited => hedited
  | some targetIndex =>
    refine .read (tame_iter item.2) fun newNodes => ?_
    exact staysEdited_insertNodes nodes edges item.1 targetIndex item.2 _ 0

/-- The first insertion of an item is into old nodes. -/
theorem foresees_insertNodes {nodes newNodes newNode : Val} {l : List Val}
    (hold : nodes.Within h₀.length) (hgrown : h₀ <+: h)
    (hiter : iter newNodes h = (.ok (newNode :: l), h)) (edges : Val) (targetId : PyKey)
    (targetIndex room : ℕ) : Foresees h₀ (editable nodes (.attributeError "insert"))
      (insertNodes nodes edges targetId targetIndex newNodes (room + 1) 0) h := by
  have hrun : insertNodes nodes edges targetId targetIndex newNodes (room + 1) 0 h =
      ((insert nodes (targetIndex + 1) newNode >>= fun _ =>
        addEdges nodes edges targetId (targetIndex + 1) newNode) >>= fun _ =>
          insertNodes nodes edges targetId targetIndex newNodes room 1) h := by
    rw [insertNodes, bind_apply, hiter]
    rfl
  refine foresees_editable hold hgrown ?_ ?_
  · rintro i m hlist rfl
    rw [hrun]
    have hinsert := edited_insert hgrown hlist (targetIndex + 1) newNode
    have hedges := hinsert.after fun _ =>
      staysEdited_addEdges (.ref i) edges targetId (targetIndex + 1) newNode
    exact hedges.after fun _ =>
      staysEdited_insertNodes (.ref i) edges targetId targetIndex newNodes room 1
  · intro hfails
    have hinsert : insert nodes (targetIndex + 1) newNode h =
        (.error (.error (.attributeError "insert")), h) := hfails h hgrown _
    refine ⟨h, ?_, List.prefix_rfl⟩
    rw [hrun, bind_apply, bind_apply, hinsert]

theorem foresees_insertAfterTarget {nodes : Val} (edges : Val) (item : PyKey × Val)
    (hnodes : KnownNodes h₀ h nodes) :
    Foresees h₀ (insertsAt nodes item) (insertAfterTarget nodes edges item) h := by
  unfold insertsAt insertAfterTarget
  refine .bind_read (tame_iter nodes) fun current g hiter hg => ?_
  refine .bind_read (tame_findNode item.1 current) fun index g' hfind hg' => ?_
  cases index with
  | none => exact foresees_pure
  | some targetIndex =>
    have hold := hnodes.within hiter hfind
    have hgrown : h₀ <+: g' := (hnodes.isPrefix.trans hg).trans hg'
    refine .bind_read (tame_iter item.2) fun newNodes g'' hnew _ => ?_
    obtain rfl : g' = g'' := by rw [← iter_eq item.2 g', hnew]
    cases newNodes with
    | nil =>
      refine .goesOn g' rfl ?_ List.prefix_rfl
      rw [insertNodes, bind_apply, hnew]
      rfl
    | cons newNode l =>
      exact foresees_insertNodes hold hgrown hnew edges item.1 targetIndex _

theorem foresees_insertAll {nodes : Val} (edges : Val) (insertAfter : Fields)
    (hnodes : KnownNodes h₀ h nodes) :
    Foresees h₀ (anyOf (insertsAt nodes) insertAfter) (insertAll nodes edges insertAfter) h :=
  foresees_forEach (fun _ _ hg hgrown => hg.mono hgrown)
    (fun item _ hg => foresees_insertAfterTarget edges item hg)
    (staysEdited_insertAfterTarget nodes edges) insertAfter h hnodes

/-! ## Patches -/

theorem findNode_lt (targetId : PyKey) : ∀ (nodes : List Val) (h g : Heap) (index : ℕ),
    findNode targetId nodes h = (.ok (some index), g) → index < nodes.length
  | [], h, g, index, hfind => by cases hfind
  | node :: nodes, h, g, index, hfind => by
    rw [findNode, bind_eq_ok] at hfind
    obtain ⟨id, h', -, hfind⟩ := hfind
    split_ifs at hfind
    · cases hfind
      exact Nat.succ_pos _
    · obtain ⟨found, h'', hrest, hfind⟩ := bind_eq_ok.mp hfind
      cases found with
      | none => cases hfind
      | some i =>
        cases hfind
        exact Nat.succ_lt_succ (findNode_lt targetId nodes h' _ i hrest)

theorem staysEdited_patchNode (limit : ℕ) (nodes : Val) (item : PyKey × Val) :
    StaysEdited h₀ (patchNode limit nodes item) := by
  unfold patchNode
  refine .read (tame_iter nodes) fun current => ?_
  refine .read (tame_findNode item.1 current) fun index => ?_
  cases index with
  | none => exact fun _ hedited => hedited
  | some index =>
    refine .read (tame_patchedNode limit _ item.2) fun merged => ?_
    exact staysEdited_setIndex nodes index (.dict merged)

theorem foresees_patchNode {nodes : Val} (limit : ℕ) (item : PyKey × Val)
    (hnodes : KnownNodes h₀ h nodes) :
    Foresees h₀ (patchesAt limit nodes item) (patchNode limit nodes item) h := by
  unfold patchesAt patchNode
  refine .bind_read (tame_iter nodes) fun current g hiter hg => ?_
  refine .bind_read (tame_findNode item.1 current) fun index g' hfind hg' => ?_
  cases index with
  | none => exact foresees_pure
  | some index =>
    have hold := hnodes.within hiter hfind
    have hlt := findNode_lt item.1 current g g' index hfind
    refine .bind_read (tame_patchedNode limit _ item.2)
      fun merged g'' _ hg'' => ?_
    have hgrown : h₀ <+: g'' := ((hnodes.isPrefix.trans hg).trans hg').trans hg''
    refine foresees_editable hold hgrown ?_ ?_
    · rintro i l hlist rfl
      have hcurrent : current = l := by
        have hcell := getElem?_kept hnodes.isPrefix hlist
        rw [iter, bind_apply, look] at hiter
        simp only [view, hcell] at hiter
        exact (Except.ok.inj (congrArg Prod.fst hiter)).symm
      exact edited_setIndex hgrown hlist (hcurrent ▸ hlt) _
    · intro hfails
      have halloc := List.prefix_append g'' [Cell.dict merged]
      have hset : setIndex nodes index (.ref g''.length) (g'' ++ [.dict merged]) =
          (.error (.error .typeError), g'' ++ [.dict merged]) :=
        hfails _ (hgrown.trans halloc) _
      exact ⟨_, hset, halloc⟩

theorem foresees_patchAll {nodes : Val} (limit : ℕ) (nodePatches : Fields)
    (hnodes : KnownNodes h₀ h nodes) :
    Foresees h₀ (anyOf (patchesAt limit nodes) nodePatches) (patchAll limit nodes nodePatches) h :=
  foresees_forEach (fun _ _ hg hgrown => hg.mono hgrown)
    (fun item _ hg => foresees_patchNode limit item hg)
    (staysEdited_patchNode limit nodes) nodePatches h hnodes

/-- The nodes of a dictionary are known. -/
def NodesKnown (h₀ g : Heap) (data : Fields) : Prop :=
  ∀ nodes, data.lookup (.str "nodes") = some nodes → KnownNodes h₀ g nodes

theorem NodesKnown.fieldOrNew {data : Fields} (hdata : NodesKnown h₀ h data)
    (hgrown : h₀ <+: h) {nodes : Val} {g : Heap}
    (hrun : fieldOrNew "nodes" data h = (.ok nodes, g)) : KnownNodes h₀ g nodes := by
  unfold WorkflowObjects.fieldOrNew at hrun
  cases hlookup : data.lookup (.str "nodes") with
  | some v =>
    rw [hlookup] at hrun
    cases hrun
    exact hdata _ hlookup
  | none =>
    rw [hlookup] at hrun
    cases hrun
    exact ⟨hgrown.trans (List.prefix_append h _), .inr ⟨h.length, rfl, List.getElem?_concat_length⟩⟩

theorem lookup_erase {key key' : String} (h : key' ≠ key) (data : Fields) :
    (erase key data).lookup (.str key') = data.lookup (.str key') := by
  have hkey : PyKey.str key' ≠ .str key := fun heq => h (PyKey.str.inj heq)
  rw [erase, Dict.lookup_filter_ne, if_neg hkey]

theorem lookup_withLists (nodes edges : Val) (data : Fields) :
    (withLists nodes edges data).lookup (.str "nodes") = some nodes := by
  unfold withLists
  rw [Dict.lookup_setItem, if_neg (by decide), Dict.lookup_setItem, if_pos rfl]

theorem decides_patchNodes (limit : ℕ) (patch : Val) {result : Fields} (hgrown : h₀ <+: h)
    (hresult : NodesKnown h₀ h result) :
    Decides h₀ (do
      let nodes ← fieldOrNew "nodes" result
      let nodePatches ← items (← getItem "nodes" patch)
      anyOf (patchesAt limit nodes) nodePatches) (patchNodes limit patch result) h := by
  unfold patchNodes
  refine .bind_read (tame_fieldOrNew "nodes" result) fun nodes g hrun hg => ?_
  have hnodes := hresult.fieldOrNew hgrown hrun
  refine .bind_read (tame_getItem "nodes" patch) fun patches g' _ hg' => ?_
  refine .bind_read (tame_items patches) fun nodePatches g'' _ hg'' => ?_
  have hpatches := foresees_patchAll limit nodePatches (hnodes.mono (hg'.trans hg''))
  exact hpatches.decides.bind fun _ _ => List.prefix_rfl

theorem decides_applyPatch (limit : ℕ) {data : Fields} (hgrown : h₀ <+: h)
    (hdata : NodesKnown h₀ h data) : Decides h₀ (patches limit data) (applyPatch limit data) h := by
  have hresult : NodesKnown h₀ h (erase "patch" data) := fun nodes hlookup =>
    hdata nodes ((lookup_erase (by decide) data).symm.trans hlookup)
  have hpatched : Decides h₀ (patches limit data)
      (patchNodesWhere limit (field "patch" (.obj []) data) (erase "patch" data)) h := by
    unfold patches patchNodesWhere
    refine .bind_read (tame_contains "nodes" _) fun hasNodes g hrun hg => ?_
    cases hasNodes with
    | true =>
      refine decides_patchNodes limit _ (hgrown.trans hg) fun nodes hlookup => ?_
      exact (hresult nodes hlookup).mono hg
    | false =>
      exact (allocates_of_tame (tame_pure rfl)).decides
  refine hpatched.bind fun result => ?_
  exact (allocates_of_tame (tame_items _)).bind fun patchCopy =>
    allocates_of_tame (tame_deepMerge limit result _)

theorem decides_patchAndParse (limit : ℕ) {data : Fields} (hgrown : h₀ <+: h)
    (hdata : NodesKnown h₀ h data) :
    Decides h₀ (patchesWhere limit data) (patchAndParse limit data) h := by
  refine Decides.bind ?_ fun data => allocates_of_tame (tame_parseAndCheck limit data)
  unfold patchesWhere applyWhere
  split_ifs
  · exact decides_applyPatch limit hgrown hdata
  · exact (allocates_of_tame (tame_pure rfl)).decides

theorem staysEdited_patchNodesWhere (limit : ℕ) (patch : Val) (result : Fields) :
    StaysEdited h₀ (patchNodesWhere limit patch result) := by
  refine .read (tame_contains "nodes" patch) fun hasNodes => ?_
  cases hasNodes with
  | false => exact fun _ hedited => hedited
  | true =>
    refine .read (tame_fieldOrNew "nodes" result) fun nodes => ?_
    refine .read (tame_getItem "nodes" patch) fun patches => ?_
    refine .read (tame_items patches) fun nodePatches => ?_
    refine (staysEdited_forEach (staysEdited_patchNode limit nodes) nodePatches).bind fun _ => ?_
    exact fun _ hedited => hedited

theorem staysEdited_patchAndParse (limit : ℕ) (data : Fields) :
    StaysEdited h₀ (patchAndParse limit data) := by
  refine StaysEdited.bind ?_ fun data => (tame_parseAndCheck limit data).staysEdited
  unfold applyWhere
  split_ifs
  · refine (staysEdited_patchNodesWhere limit _ _).bind fun result => ?_
    refine .read (tame_items _) fun patchCopy => ?_
    exact (tame_deepMerge limit result _).staysEdited
  · exact fun _ hedited => hedited

/-- The insertions come first, and the patches are made to the copy that they leave. -/
theorem decides_parseAndValidate (limit : ℕ) {data : Fields} (hgrown : h₀ <+: h)
    (hdata : NodesKnown h₀ h data) :
    Decides h₀ (editsLists limit data) (parseAndValidate limit data) h := by
  unfold editsLists parseAndValidate applyWhere
  split_ifs
  · have hsteps : applyInsertAfter data >>= patchAndParse limit = (do
        let nodes ← fieldOrNew "nodes" data
        let edges ← fieldOrNew "edges" data
        let insertAfter ← items (field "insert_after" (.obj []) data)
        insertAll nodes edges insertAfter
        patchAndParse limit (withLists nodes edges data)) := by
      simp only [applyInsertAfter, bind_assoc, pure_bind]
    rw [hsteps]
    refine .bind_read (tame_fieldOrNew "nodes" data) fun nodes g hrun hg => ?_
    have hnodes := hdata.fieldOrNew hgrown hrun
    refine .bind_read (tame_fieldOrNew "edges" data) fun edges g' _ hg' => ?_
    refine .bind_read (tame_items _) fun insertAfter g'' _ hg'' => ?_
    have hafter := hnodes.mono (hg'.trans hg'')
    refine (foresees_insertAll edges insertAfter hafter).then (fun k hk => ?_)
      (staysEdited_patchAndParse limit _)
    refine decides_patchAndParse limit (hafter.isPrefix.trans hk) fun nodes' hlookup => ?_
    rw [lookup_withLists] at hlookup
    obtain rfl := Option.some.inj hlookup
    exact hafter.mono hk
  · exact decides_patchAndParse limit hgrown hdata

/-! ## Loads -/

theorem within_of_lookup {n : ℕ} {data : Fields} (hdata : ∀ p ∈ data, p.2.Within n) {key : PyKey}
    {v : Val} (hlookup : data.lookup key = some v) : v.Within n := by
  obtain ⟨l, m, rfl, -⟩ := List.lookup_eq_some_iff.mp hlookup
  exact hdata (key, v) (List.mem_append_right l List.mem_cons_self)

namespace ObjectLoader

variable {L : ObjectLoader}

theorem findWorkflow_within (hclosed : h₀.Closed)
    (htable : ∀ table ∈ L.workflows, table.Within h₀.length) (hgrown : h₀ <+: h)
    {baseName base : Val} {g : Heap} (hrun : L.findWorkflow baseName h = (.ok (some base), g)) :
    base.Within h₀.length := by
  unfold findWorkflow at hrun
  cases hworkflows : L.workflows with
  | none =>
    rw [hworkflows] at hrun
    cases hrun
  | some table =>
    rw [hworkflows] at hrun
    obtain ⟨key, h', hkey, hrun⟩ := bind_eq_ok.mp hrun
    obtain ⟨workflows, h'', hitems, hrun⟩ := bind_eq_ok.mp hrun
    have hhash : h <+: h' := by
      have hstep := allocates_of_tame (tame_hash baseName) h
      rw [hkey] at hstep
      exact hstep
    have hfields := items_within hclosed (hgrown.trans hhash) (htable table hworkflows) hitems
    exact within_of_lookup hfields (Except.ok.inj (congrArg Prod.fst hrun))

/-- The dry run decides whether a load edits the dictionaries. -/
theorem decides_load (hclosed : h₀.Closed)
    (htable : ∀ table ∈ L.workflows, table.Within h₀.length) :
    ∀ (limit : ℕ) (workflowData : Val) (h : Heap), h₀ <+: h → workflowData.Within h₀.length →
      Decides h₀ (L.edits limit workflowData) (L.loadWorkflowFromData limit workflowData) h
  | 0, _, _, _, _ => (allocates_of_tame (tame_raise _)).decides
  | limit + 1, workflowData, h, hgrown, hdata => by
    unfold edits loadWorkflowFromData
    refine .bind_read (tame_items workflowData) fun data g hrun hg => ?_
    have hfields := items_within hclosed hgrown hdata hrun
    have hgrown := hgrown.trans hg
    cases data.lookup (.str "extends") with
    | none =>
      refine decides_parseAndValidate limit hgrown fun nodes hlookup => ?_
      exact ⟨hgrown, .inl (within_of_lookup hfields hlookup)⟩
    | some baseName =>
      refine .bind_read (tame_findWorkflow htable baseName) fun base g' hrun hg' => ?_
      cases base with
      | some base =>
        have hbase := findWorkflow_within hclosed htable hgrown hrun
        have hload := decides_load hclosed htable limit base g' (hgrown.trans hg') hbase
        exact hload.bind fun spec => allocates_of_tame (tame_mergeSpecs limit spec data)
      | none =>
        have hload : Allocates (L.loadBaseWorkflow limit baseName) :=
          allocates_of_tame (tame_loadBaseWorkflow limit baseName)
        exact (hload.bind fun spec => allocates_of_tame (tame_mergeSpecs limit spec data)).decides

/-! ## The frame law -/

/-- The same error, or specifications of the same value, in the heaps that two loads leave. -/
def SameOutcome (first second : Except Raised SpecObject × Heap) : Prop :=
  match first, second with
  | (.ok spec, g), (.ok spec', g') =>
    ∀ depth, spec.read (readBack g depth) = spec'.read (readBack g' depth)
  | (.error e, _), (.error e', _) => e = e'
  | _, _ => False

variable (L) in
/-- A load leaves every list and dictionary as it was, and a second load of the same dictionary
comes to the same. -/
def LoadsAlike (limit : ℕ) (workflowData : Val) (h : Heap) : Prop :=
  let first := L.loadWorkflowFromData limit workflowData h
  h <+: first.2 ∧ SameOutcome first (L.loadWorkflowFromData limit workflowData first.2)

/-- A load that leaves the dictionaries as they are comes to the same when it is run again. -/
theorem sameOutcome_again (hclosed : h.Closed)
    (htable : ∀ table ∈ L.workflows, table.Within h.length) {limit : ℕ} {workflowData : Val}
    (hdata : workflowData.Within h.length)
    (hkeeps : h <+: (L.loadWorkflowFromData limit workflowData h).2) :
    SameOutcome (L.loadWorkflowFromData limit workflowData h)
      (L.loadWorkflowFromData limit workflowData
        (L.loadWorkflowFromData limit workflowData h).2) := by
  have huniform : ∀ more, Uniform h.length more (L.loadWorkflowFromData limit workflowData)
      (L.loadWorkflowFromData limit workflowData) := fun more => by
    have hload : Uniform h.length more (L.loadWorkflowFromData limit workflowData)
        (L.loadWorkflowFromData limit (shift h.length more.length workflowData)) :=
      uniform_load htable limit workflowData
    rw [shift_of_within _ hdata] at hload
    exact hload
  obtain ⟨more, hagain⟩ := Uniform.again hclosed huniform hkeeps
  rw [hagain]
  have hlength := hkeeps.length_le
  generalize L.loadWorkflowFromData limit workflowData h = first at hlength ⊢
  rcases first with ⟨e | spec, g⟩
  · exact rfl
  · exact fun depth => (read_shift hlength depth spec).symm

/-- A load leaves the dictionaries as they are, and a second load gives the same, if and only if
no insertion and no patch of a node comes to its edit. -/
theorem loads_alike_iff (hclosed : h.Closed)
    (htable : ∀ table ∈ L.workflows, table.Within h.length) (limit : ℕ) (workflowData : Val)
    (hdata : workflowData.Within h.length) :
    L.LoadsAlike limit workflowData h ↔ (L.edits limit workflowData h).1 ≠ .ok true := by
  have hdecides := decides_load hclosed htable limit workflowData h List.prefix_rfl hdata
  have hiff := hdecides.prefix_iff hclosed
  constructor
  · rintro ⟨hkeeps, -⟩
    exact hiff.mp hkeeps
  · intro hquiet
    have hkeeps := hiff.mpr hquiet
    exact ⟨hkeeps, sameOutcome_again hclosed htable hdata hkeeps⟩

/-- A base workflow in the table, and a dictionary that extends it and has an insertion too. -/
def extending : Heap :=
  [.dict [(.str "id", .atom (.str "start")), (.str "type", .atom (.str "start"))],
    .list [.ref 0],
    .dict [(.str "name", .atom (.str "base")), (.str "nodes", .ref 1)],
    .dict [(.str "base", .ref 2)],
    .dict [(.str "id", .atom (.str "end")), (.str "type", .atom (.str "end"))],
    .list [.ref 4],
    .dict [(.str "start", .ref 5)],
    .dict [(.str "extends", .atom (.str "base")), (.str "insert_after", .ref 6)]]

/-- The insertions of a dictionary that extends a base are not made. -/
theorem loads_alike_extending :
    LoadsAlike ⟨some (.ref 3), fun _ => none⟩ 10 (.ref 7) extending := by
  refine (loads_alike_iff (by decide) (fun table htable => ?_) 10 (.ref 7) (by decide)).mpr ?_
  · cases htable
    decide
  · have hquiet : (edits ⟨some (.ref 3), fun _ => none⟩ 10 (.ref 7) extending).1 = .ok false := rfl
    rw [hquiet]
    nofun

/-- A dictionary with one node and an insertion after it. -/
def inserting : Heap :=
  [.dict [(.str "id", .atom (.str "process")), (.str "type", .atom (.str "agent"))],
    .list [.ref 0],
    .dict [(.str "id", .atom (.str "end")), (.str "type", .atom (.str "end"))],
    .list [.ref 2],
    .dict [(.str "process", .ref 3)],
    .dict [(.str "name", .atom (.str "test_workflow")), (.str "nodes", .ref 1),
      (.str "insert_after", .ref 4)]]

/-- The first load makes the caller's list of nodes longer, so the second inserts the node once
more and raises. -/
theorem not_loads_alike :
    ¬∀ (L : ObjectLoader) (h : Heap), h.Closed → (∀ table ∈ L.workflows, table.Within h.length) →
      ∀ (limit : ℕ) (workflowData : Val), workflowData.Within h.length →
        L.LoadsAlike limit workflowData h := by
  intro hall
  have hlaw := hall ⟨none, fun _ => none⟩ inserting (by decide) (fun _ h => nomatch h) 10 (.ref 5)
    (by decide)
  have hnodes := getElem?_kept hlaw.1 (i := 1) rfl
  have hlonger : (loadWorkflowFromData ⟨none, fun _ => none⟩ 10 (.ref 5) inserting).2[1]? =
      some (.list [.ref 0, .ref 2]) := rfl
  rw [hlonger] at hnodes
  cases hnodes

end ObjectLoader

end WorkflowObjects

end MultiAgent
