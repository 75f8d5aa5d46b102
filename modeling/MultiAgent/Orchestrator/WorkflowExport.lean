import MultiAgent.Orchestrator.WorkflowFiles

/-!
# What is exported is loaded again

`export_workflow` writes every field but a node's `next_node`, which `_load_workflow_file` reads
out of the node's `config` again. So a node can be loaded from its export because its
`next_node` came from its `config` in the first place (`Derived`), which holds of every node
that was loaded (`derived_of_loadNode`). For a codec that brings the exported document back,
loading the export gives the workflow back (`loadWorkflowFile_exportWorkflow`).
-/

namespace MultiAgent

namespace Orchestrator

open Fallible PyValue

/-! ## The same workflow -/

/-- The nodes are the same. -/
structure SameNode (a b : WorkflowNode) : Prop where
  name : Same a.name b.name
  nodeType : Same a.nodeType b.nodeType
  config : Same a.config b.config
  nextNode : Same a.nextNode b.nextNode

/-- The edges are the same. -/
structure SameEdge (a b : WorkflowEdge) : Prop where
  fromNode : Same a.fromNode b.fromNode
  toNode : Same a.toNode b.toNode
  condition : Same a.condition b.condition

/-- The workflows are the same in every field. -/
structure SameWorkflow (a b : WorkflowConfig) : Prop where
  name : Same a.name b.name
  version : Same a.version b.version
  description : Same a.description b.description
  category : Same a.category b.category
  priority : a.priority = b.priority
  status : a.status = b.status
  metadata : Same a.metadata b.metadata
  config : Same a.config b.config
  nodes : List.Forall₂ SameNode a.nodes b.nodes
  edges : List.Forall₂ SameEdge a.edges b.edges
  errorHandling : Same a.errorHandling b.errorHandling
  monitoring : Same a.monitoring b.monitoring

/-- The codec brings the document back : what is written is read as the same document. -/
def RoundTrips (safeLoad : String → Except PyError PyValue)
    (dump : PyValue → Except PyError String) (v : PyValue) : Prop :=
  ∃ text w, dump v = .ok text ∧ safeLoad text = .ok w ∧ Same v w

/-! ## The nodes that are loaded -/

/-- The next node of a node is that of its configuration. -/
def Derived (node : WorkflowNode) : Prop :=
  ∃ c, node.config = .obj c ∧ node.nextNode = (Items.field c "next_node").getD .null

theorem getOr_obj (key : String) (default : PyValue) (d : Items) :
    getOr key default (.obj d) = .ok ((Items.field d key).getD default) :=
  rfl

theorem derived_of_loadNode {nodeData : PyValue} {node : WorkflowNode}
    (h : loadNode nodeData = .ok node) : Derived node := by
  unfold loadNode at h
  obtain ⟨name, -, h⟩ := bind_eq_ok.mp h
  obtain ⟨nodeType, -, h⟩ := bind_eq_ok.mp h
  obtain ⟨config, hconfig, h⟩ := bind_eq_ok.mp h
  simp only [hconfig, ok_bind] at h
  obtain ⟨nextNode, hnext, h⟩ := bind_eq_ok.mp h
  obtain rfl := Except.ok.inj h
  cases config with
  | obj c => exact ⟨c, rfl, (Except.ok.inj hnext).symm⟩
  | _ => cases hnext

theorem derived_of_loadParts {data : PyValue} {workflow : WorkflowConfig}
    (h : loadParts data = .ok workflow) : ∀ node ∈ workflow.nodes, Derived node := by
  unfold loadParts at h
  obtain ⟨listed, -, h⟩ := bind_eq_ok.mp h
  obtain ⟨nodeData, -, h⟩ := bind_eq_ok.mp h
  obtain ⟨nodes, hnodes, h⟩ := bind_eq_ok.mp h
  have hkept : workflow.nodes = nodes := by
    -- whatever the other parts are
    repeat obtain ⟨_, -, h⟩ := bind_eq_ok.mp h
    rw [← Except.ok.inj h]
  intro node hnode
  rw [hkept] at hnode
  obtain ⟨_, -, hload⟩ := exists_of_mapM hnodes hnode
  exact derived_of_loadNode hload

/-- The next node of every node of a workflow that is kept is that of its configuration. -/
theorem derived_of_getWorkflow {C : Codecs} {files : List (String × Except PyError String)}
    {name : PyValue} {workflow : WorkflowConfig}
    (h : getWorkflow (loadWorkflows C files) name = .ok (some workflow)) :
    ∀ node ∈ workflow.nodes, Derived node := by
  obtain ⟨file, -, hfile⟩ := exists_file h
  obtain ⟨_, data, -, -, hparse⟩ := loadWorkflowFile_eq_some.mp hfile
  exact derived_of_loadParts (parseWorkflow_eq_some.mp hparse).2

/-! ## Loading what was exported -/

theorem getD_of_rel {a b : Option PyValue} (h : Option.Rel Same a b) :
    Same (a.getD .null) (b.getD .null) := by
  cases h with
  | some hab => exact hab
  | none => exact same_null.mpr rfl

/-- What is the same as a record has the same fields. -/
theorem exists_fields {d : List (String × PyValue)} {w : PyValue} (h : Same (record d) w) :
    ∃ e, w = .obj e ∧ ∀ key v, (d.map fun p => (PyKey.str p.1, p.2)).lookup (.str key) = some v →
      ∃ v', Items.field e key = some v' ∧ Same v v' := by
  obtain ⟨e, rfl, hlookup⟩ := lookup_of_same h
  refine ⟨e, rfl, fun key v hv => ?_⟩
  have hrel := hlookup (.str key)
  rw [hv] at hrel
  unfold Items.field
  cases he : e.lookup (.str key) with
  | none =>
    rw [he] at hrel
    cases hrel
  | some v' =>
    rw [he] at hrel
    cases hrel with
    | some hsame => exact ⟨v', rfl, hsame⟩

theorem loadNode_nodeDict {node : WorkflowNode} (hderived : Derived node) {w : PyValue}
    (h : Same (nodeDict node) w) : ∃ node', loadNode w = .ok node' ∧ SameNode node node' := by
  obtain ⟨c, hc, hnext⟩ := hderived
  obtain ⟨e, rfl, hfields⟩ := exists_fields h
  obtain ⟨name, hname, hsameName⟩ := hfields "name" _ rfl
  obtain ⟨nodeType, htype, hsameType⟩ := hfields "type" _ rfl
  obtain ⟨config, hconfig, hsameConfig⟩ := hfields "config" _ rfl
  have hobj := hsameConfig
  rw [hc] at hobj
  obtain ⟨c', rfl, hlookup⟩ := lookup_of_same hobj
  refine ⟨⟨name, nodeType, .obj c', (Items.field c' "next_node").getD .null⟩, ?_,
    hsameName, hsameType, hsameConfig, ?_⟩
  · simp only [loadNode, getItem, getOr_obj, hname, htype, hconfig, Option.getD_some, ok_bind]
    rfl
  · rw [hnext]
    exact getD_of_rel (hlookup _)

theorem loadEdge_edgeDict {edge : WorkflowEdge} {w : PyValue} (h : Same (edgeDict edge) w) :
    ∃ edge', loadEdge w = .ok edge' ∧ SameEdge edge edge' := by
  obtain ⟨e, rfl, hfields⟩ := exists_fields h
  obtain ⟨fromNode, hfrom, hsameFrom⟩ := hfields "from" _ rfl
  obtain ⟨toNode, hto, hsameTo⟩ := hfields "to" _ rfl
  obtain ⟨condition, hcondition, hsameCondition⟩ := hfields "condition" _ rfl
  refine ⟨⟨fromNode, toNode, condition⟩, ?_, hsameFrom, hsameTo, hsameCondition⟩
  simp only [loadEdge, getItem, getOr_obj, hfrom, hto, hcondition, Option.getD_some, ok_bind]
  rfl

/-- A document that is the same as the exported one is loaded as the same workflow. -/
theorem parseWorkflow_workflowDict {workflow : WorkflowConfig}
    (hderived : ∀ node ∈ workflow.nodes, Derived node) {w : PyValue}
    (h : Same (workflowDict workflow) w) :
    ∃ workflow', parseWorkflow w = .ok (some workflow') ∧ SameWorkflow workflow workflow' := by
  obtain ⟨e, rfl, hfields⟩ := exists_fields h
  obtain ⟨name, hname, hsameName⟩ := hfields "name" _ rfl
  obtain ⟨version, hversion, hsameVersion⟩ := hfields "version" _ rfl
  obtain ⟨description, hdescription, hsameDescription⟩ := hfields "description" _ rfl
  obtain ⟨category, hcategory, hsameCategory⟩ := hfields "category" _ rfl
  obtain ⟨priority, hpriority, hsamePriority⟩ := hfields "priority" _ rfl
  obtain ⟨status, hstatus, hsameStatus⟩ := hfields "status" _ rfl
  obtain ⟨metadata, hmetadata, hsameMetadata⟩ := hfields "metadata" _ rfl
  obtain ⟨config, hconfig, hsameConfig⟩ := hfields "config" _ rfl
  obtain ⟨nodesValue, hnodes, hsameNodes⟩ := hfields "nodes" _ rfl
  obtain ⟨edgesValue, hedges, hsameEdges⟩ := hfields "edges" _ rfl
  obtain ⟨errorHandling, herror, hsameError⟩ := hfields "error_handling" _ rfl
  obtain ⟨monitoring, hmonitoring, hsameMonitoring⟩ := hfields "monitoring" _ rfl
  obtain rfl := same_str.mp hsamePriority
  obtain rfl := same_str.mp hsameStatus
  obtain ⟨nodeData, rfl, hnodeData⟩ := same_arr.mp hsameNodes
  obtain ⟨edgeData, rfl, hedgeData⟩ := same_arr.mp hsameEdges
  obtain ⟨nodes, hloadNodes, hforallNodes⟩ :=
    exists_mapM_of_forall₂ (List.forall₂_map_left_iff.mp hnodeData) fun node hnode _ =>
      loadNode_nodeDict (hderived node hnode)
  obtain ⟨edges, hloadEdges, hforallEdges⟩ :=
    exists_mapM_of_forall₂ (List.forall₂_map_left_iff.mp hedgeData) fun _ _ _ => loadEdge_edgeDict
  refine ⟨⟨name, version, description, category, workflow.priority, workflow.status, metadata,
    config, nodes, edges, errorHandling, monitoring⟩, parseWorkflow_eq_some.mpr ⟨?_, ?_⟩,
    hsameName, hsameVersion, hsameDescription, hsameCategory, rfl, rfl, hsameMetadata,
    hsameConfig, hforallNodes, hforallEdges, hsameError, hsameMonitoring⟩
  · simp only [requiredFields, List.allM, contains, hname, hversion, hdescription, hcategory,
      hpriority, Option.isSome_some, ok_bind]
    rfl
  · simp only [loadParts, getItem, getOr_obj, iter, hname, hversion, hdescription, hcategory,
      hpriority, hstatus, hmetadata, hconfig, hnodes, hedges, herror, hmonitoring,
      Option.getD_some, ok_bind, hloadNodes, hloadEdges, WorkflowPriority.ofValue_value,
      WorkflowStatus.ofValue_value]
    rfl

/-! ## The round trip -/

theorem encoder_isSome {C : Codecs} {format : String}
    (h : format.toLower = "yaml" ∨ format.toLower = "json") :
    ∃ dump, encoder C format = some dump := by
  unfold encoder
  rcases h with h | h
  · exact ⟨_, if_pos h⟩
  · exact ⟨_, by rw [h, if_neg (by decide), if_pos rfl]⟩

/-- In both formats every workflow that was loaded is exported, and what is exported is loaded as
the same workflow. -/
theorem loadWorkflowFile_exportWorkflow (C : Codecs)
    (files : List (String × Except PyError String)) (name : PyValue) (workflow : WorkflowConfig)
    (hloaded : getWorkflow (loadWorkflows C files) name = .ok (some workflow)) (format : String)
    (hformat : format.toLower = "yaml" ∨ format.toLower = "json")
    (hcodec : ∀ dump, encoder C format = some dump →
      RoundTrips C.safeLoad dump (workflowDict workflow)) :
    ∃ text workflow', exportWorkflow C (loadWorkflows C files) name format = .ok text ∧
      loadWorkflowFile C (.ok text) = some workflow' ∧ SameWorkflow workflow workflow' := by
  obtain ⟨dump, hdump⟩ := encoder_isSome hformat
  obtain ⟨text, w, htext, hw, hsame⟩ := hcodec dump hdump
  obtain ⟨workflow', hparse, hworkflow⟩ :=
    parseWorkflow_workflowDict (derived_of_getWorkflow hloaded) hsame
  refine ⟨text, workflow', ?_, loadWorkflowFile_eq_some.mpr ⟨text, w, rfl, hw, hparse⟩, hworkflow⟩
  unfold exportWorkflow
  simp only [hloaded, ok_bind, hdump, htext]

/-! ## A workflow that is exported -/

/-- A file of the workflow directory. -/
def orderFile : String :=
  "name: track_order\nversion: 1.0.0\ndescription: Track an order\ncategory: orders\n" ++
    "priority: high\nnodes:\n- name: start\n  type: start\n  config:\n    next_node: done\n" ++
    "- name: done\n  type: end\nedges:\n- from: start\n  to: done\n  condition: order_found\n"

/-- What the file holds. -/
def orderDocument : PyValue :=
  record [
    ("name", .str "track_order"), ("version", .str "1.0.0"),
    ("description", .str "Track an order"), ("category", .str "orders"),
    ("priority", .str "high"),
    ("nodes", .arr [
      record [("name", .str "start"), ("type", .str "start"),
        ("config", record [("next_node", .str "done")])],
      record [("name", .str "done"), ("type", .str "end")]]),
    ("edges", .arr [
      record [("from", .str "start"), ("to", .str "done"), ("condition", .str "order_found")]])]

/-- The workflow of the file. -/
def trackOrder : WorkflowConfig where
  name := .str "track_order"
  version := .str "1.0.0"
  description := .str "Track an order"
  category := .str "orders"
  priority := .high
  status := .active
  metadata := .obj []
  config := .obj []
  nodes := [
    ⟨.str "start", .str "start", record [("next_node", .str "done")], .str "done"⟩,
    ⟨.str "done", .str "end", .obj [], .null⟩]
  edges := [⟨.str "start", .str "done", .str "order_found"⟩]
  errorHandling := .arr []
  monitoring := .obj []

/-- The export as YAML, with sorted keys. -/
def orderYaml : String :=
  "category: orders\nconfig: \x7b\x7d\ndescription: Track an order\nedges:\n" ++
    "- condition: order_found\n  from: start\n  to: done\nerror_handling: []\n" ++
    "metadata: \x7b\x7d\nmonitoring: \x7b\x7d\nname: track_order\nnodes:\n" ++
    "- config:\n    next_node: done\n  name: start\n  type: start\n" ++
    "- config: \x7b\x7d\n  name: done\n  type: end\n" ++
    "priority: high\nstatus: active\nversion: 1.0.0\n"

/-- What the YAML text holds. -/
def sortedDocument : PyValue :=
  record [
    ("category", .str "orders"), ("config", .obj []), ("description", .str "Track an order"),
    ("edges", .arr [
      record [("condition", .str "order_found"), ("from", .str "start"), ("to", .str "done")]]),
    ("error_handling", .arr []), ("metadata", .obj []), ("monitoring", .obj []),
    ("name", .str "track_order"),
    ("nodes", .arr [
      record [("config", record [("next_node", .str "done")]), ("name", .str "start"),
        ("type", .str "start")],
      record [("config", .obj []), ("name", .str "done"), ("type", .str "end")]]),
    ("priority", .str "high"), ("status", .str "active"), ("version", .str "1.0.0")]

/-- The export as JSON. -/
def orderJson : String :=
  "\x7b\n  \"name\": \"track_order\",\n  \"version\": \"1.0.0\",\n" ++
    "  \"description\": \"Track an order\",\n  \"category\": \"orders\",\n" ++
    "  \"priority\": \"high\",\n  \"status\": \"active\",\n" ++
    "  \"metadata\": \x7b\x7d,\n  \"config\": \x7b\x7d,\n  \"nodes\": [\n" ++
    "    \x7b\n      \"name\": \"start\",\n      \"type\": \"start\",\n" ++
    "      \"config\": \x7b\n        \"next_node\": \"done\"\n      \x7d\n    \x7d,\n" ++
    "    \x7b\n      \"name\": \"done\",\n      \"type\": \"end\",\n" ++
    "      \"config\": \x7b\x7d\n    \x7d\n  ],\n  \"edges\": [\n" ++
    "    \x7b\n      \"from\": \"start\",\n      \"to\": \"done\",\n" ++
    "      \"condition\": \"order_found\"\n    \x7d\n  ],\n" ++
    "  \"error_handling\": [],\n  \"monitoring\": \x7b\x7d\n\x7d"

/-- `yaml.safe_load`, on the texts of this workflow. -/
@[irreducible]
def readOrder (text : String) : Except PyError PyValue :=
  if text = orderFile then .ok orderDocument
  else if text = orderYaml then .ok sortedDocument
  else if text = orderJson then .ok (workflowDict trackOrder)
  else .error (.valueError "could not read %s" [.str text])

/-- An encoder, on the document of this workflow. -/
def writeOrder (text : String) (v : PyValue) : Except PyError String :=
  if Same v sortedDocument then .ok text else .error .typeError

/-- The codecs, on the documents of this workflow. -/
def orderCodecs : Codecs where
  safeLoad := readOrder
  yamlDump := writeOrder orderYaml
  jsonDumps := writeOrder orderJson

/-- The three texts differ. -/
theorem texts_ne :
    orderYaml ≠ orderFile ∧ orderJson ≠ orderFile ∧ orderJson ≠ orderYaml := by
  decide +kernel

theorem readOrder_orderFile : readOrder orderFile = .ok orderDocument := by
  unfold readOrder
  rw [if_pos rfl]

theorem readOrder_orderYaml : readOrder orderYaml = .ok sortedDocument := by
  unfold readOrder
  rw [if_neg texts_ne.1, if_pos rfl]

theorem readOrder_orderJson : readOrder orderJson = .ok (workflowDict trackOrder) := by
  obtain ⟨-, hfile, hyaml⟩ := texts_ne
  unfold readOrder
  rw [if_neg hfile, if_neg hyaml, if_pos rfl]

theorem same_sortedDocument : Same (workflowDict trackOrder) sortedDocument := by
  decide +kernel

theorem writeOrder_trackOrder (text : String) :
    writeOrder text (workflowDict trackOrder) = .ok text := by
  unfold writeOrder
  rw [if_pos same_sortedDocument]

/-- The directory with this file alone. -/
abbrev orderFiles : List (String × Except PyError String) :=
  [("track_order.yaml", .ok orderFile)]

theorem getWorkflow_trackOrder :
    getWorkflow (loadWorkflows orderCodecs orderFiles) (.str "track_order") =
      .ok (some trackOrder) := by
  have hparse : parseWorkflow orderDocument = .ok (some trackOrder) := rfl
  have hload : loadWorkflowFile orderCodecs (.ok orderFile) = some trackOrder :=
    loadWorkflowFile_eq_some.mpr ⟨orderFile, orderDocument, rfl, readOrder_orderFile, hparse⟩
  exact getWorkflow_single (by decide +kernel) hload rfl

/-- The workflow comes back from both formats. -/
theorem loadWorkflowFile_exportWorkflow_trackOrder :
    (∃ text workflow', exportWorkflow orderCodecs
        (loadWorkflows orderCodecs orderFiles) (.str "track_order") "yaml" = .ok text ∧
      loadWorkflowFile orderCodecs (.ok text) = some workflow' ∧
        SameWorkflow trackOrder workflow') ∧
    ∃ text workflow', exportWorkflow orderCodecs
        (loadWorkflows orderCodecs orderFiles) (.str "track_order") "JSON" = .ok text ∧
      loadWorkflowFile orderCodecs (.ok text) = some workflow' ∧
        SameWorkflow trackOrder workflow' := by
  have hyaml : RoundTrips readOrder (writeOrder orderYaml) (workflowDict trackOrder) :=
    ⟨orderYaml, sortedDocument, writeOrder_trackOrder orderYaml, readOrder_orderYaml,
      same_sortedDocument⟩
  have hjson : RoundTrips readOrder (writeOrder orderJson) (workflowDict trackOrder) :=
    ⟨orderJson, workflowDict trackOrder, writeOrder_trackOrder orderJson, readOrder_orderJson,
      by decide +kernel⟩
  constructor
  · refine loadWorkflowFile_exportWorkflow orderCodecs orderFiles (.str "track_order") trackOrder
      getWorkflow_trackOrder "yaml" (Or.inl (by decide +kernel)) fun dump hdump => ?_
    rw [encoder, if_pos (by decide +kernel)] at hdump
    obtain rfl := Option.some.inj hdump
    exact hyaml
  · refine loadWorkflowFile_exportWorkflow orderCodecs orderFiles (.str "track_order") trackOrder
      getWorkflow_trackOrder "JSON" (Or.inr (by decide +kernel)) fun dump hdump => ?_
    rw [encoder, if_neg (by decide +kernel), if_pos (by decide +kernel)] at hdump
    obtain rfl := Option.some.inj hdump
    exact hjson

end Orchestrator

end MultiAgent
