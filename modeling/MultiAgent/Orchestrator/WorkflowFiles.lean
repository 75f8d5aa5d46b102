import MultiAgent.Lib.SameValue

/-!
# The orchestrator's workflow files

`WorkflowLoader` of the orchestrator : `_load_workflow_file` reads a YAML document into a
`WorkflowConfig`, `_load_workflows` keeps what the files of its directory hold by name, and
`export_workflow` writes one of them as YAML or JSON. The two codecs are parameters. A document
is loaded exactly when each of its parts is (`parseWorkflow_eq_some`).
-/

namespace MultiAgent

namespace Orchestrator

open Fallible

/-- `WorkflowStatus`. -/
inductive WorkflowStatus
  | active
  | inactive
  | deprecated
  | development
  deriving DecidableEq

/-- `WorkflowPriority`. -/
inductive WorkflowPriority
  | critical
  | high
  | medium
  | low
  deriving DecidableEq

namespace WorkflowStatus

/-- `status.value`. -/
def value : WorkflowStatus → String
  | active => "active"
  | inactive => "inactive"
  | deprecated => "deprecated"
  | development => "development"

/-- `WorkflowStatus(v)`. -/
def ofValue (v : PyValue) : Except PyError WorkflowStatus :=
  match [active, inactive, deprecated, development].find? fun s => v.isKey (.str s.value) with
  | some s => .ok s
  | none => .error (.valueError "%s is not a valid WorkflowStatus" [v])

theorem ofValue_value (s : WorkflowStatus) : ofValue (.str s.value) = .ok s := by
  cases s <;> rfl

end WorkflowStatus

namespace WorkflowPriority

/-- `priority.value`. -/
def value : WorkflowPriority → String
  | critical => "critical"
  | high => "high"
  | medium => "medium"
  | low => "low"

/-- `WorkflowPriority(v)`. -/
def ofValue (v : PyValue) : Except PyError WorkflowPriority :=
  match [critical, high, medium, low].find? fun p => v.isKey (.str p.value) with
  | some p => .ok p
  | none => .error (.valueError "%s is not a valid WorkflowPriority" [v])

theorem ofValue_value (p : WorkflowPriority) : ofValue (.str p.value) = .ok p := by
  cases p <;> rfl

end WorkflowPriority

/-- `WorkflowNode`. -/
structure WorkflowNode where
  name : PyValue
  nodeType : PyValue
  config : PyValue
  nextNode : PyValue := .null

/-- `WorkflowEdge`. -/
structure WorkflowEdge where
  fromNode : PyValue
  toNode : PyValue
  condition : PyValue := .null

/-- `WorkflowConfig`. -/
structure WorkflowConfig where
  name : PyValue
  version : PyValue
  description : PyValue
  category : PyValue
  priority : WorkflowPriority
  status : WorkflowStatus
  metadata : PyValue
  config : PyValue
  nodes : List WorkflowNode
  edges : List WorkflowEdge
  errorHandling : PyValue
  monitoring : PyValue

/-- What is outside the loader : `yaml.safe_load`, `yaml.dump` and `json.dumps`. -/
structure Codecs where
  safeLoad : String → Except PyError PyValue
  yamlDump : PyValue → Except PyError String
  jsonDumps : PyValue → Except PyError String

/-! ## Loading -/

/-- `v.get(key, default)`. -/
def getOr (key : String) (default v : PyValue) : Except PyError PyValue := do
  return (← v.get? key).getD default

/-- One node of the file. -/
def loadNode (nodeData : PyValue) : Except PyError WorkflowNode := do
  let name ← nodeData.getItem "name"
  let nodeType ← nodeData.getItem "type"
  let config ← getOr "config" (.obj []) nodeData
  let nextNode ← getOr "next_node" .null (← getOr "config" (.obj []) nodeData)
  return ⟨name, nodeType, config, nextNode⟩

/-- One edge of the file. -/
def loadEdge (edgeData : PyValue) : Except PyError WorkflowEdge := do
  let fromNode ← edgeData.getItem "from"
  let toNode ← edgeData.getItem "to"
  let condition ← getOr "condition" .null edgeData
  return ⟨fromNode, toNode, condition⟩

/-- `required_fields`. -/
def requiredFields : List String :=
  ["name", "version", "description", "category", "priority"]

/-- `_load_workflow_file`, once the document is read and no required field is missing. -/
def loadParts (data : PyValue) : Except PyError WorkflowConfig := do
  let nodes ← (← (← getOr "nodes" (.arr []) data).iter).mapM loadNode
  let edges ← (← (← getOr "edges" (.arr []) data).iter).mapM loadEdge
  let name ← data.getItem "name"
  let version ← data.getItem "version"
  let description ← data.getItem "description"
  let category ← data.getItem "category"
  let priority ← WorkflowPriority.ofValue (← data.getItem "priority")
  let status ← WorkflowStatus.ofValue (← getOr "status" (.str "active") data)
  let metadata ← getOr "metadata" (.obj []) data
  let config ← getOr "config" (.obj []) data
  let errorHandling ← getOr "error_handling" (.arr []) data
  let monitoring ← getOr "monitoring" (.obj []) data
  return {
    name, version, description, category, priority, status, metadata, config, nodes, edges,
    errorHandling, monitoring }

/-- `_load_workflow_file`, once the document is read. -/
def parseWorkflow (data : PyValue) : Except PyError (Option WorkflowConfig) := do
  if ← requiredFields.allM fun field => data.contains field then
    return some (← loadParts data)
  else
    return none

/-- The outcome of a `try` whose handler logs what was raised and returns `None`. -/
def orNone {α : Type} : Except PyError (Option α) → Option α
  | .ok a => a
  | .error _ => none

/-- `_load_workflow_file`, for a file that reads as the text. -/
def loadWorkflowFile (C : Codecs) (file : Except PyError String) : Option WorkflowConfig :=
  orNone do
    let data ← C.safeLoad (← file)
    parseWorkflow data

/-- `self.workflows[workflow.name] = workflow`, where what is raised is logged. -/
def keep (workflows : Dict PyKey WorkflowConfig) (workflow : WorkflowConfig) :
    Dict PyKey WorkflowConfig :=
  match workflow.name.hash with
  | .ok k => workflows.set k workflow
  | .error _ => workflows

/-- `_load_workflows`, for the YAML files of the directory by name. -/
def loadWorkflows (C : Codecs) (files : List (String × Except PyError String)) :
    Dict PyKey WorkflowConfig :=
  ((files.filter fun file => file.1 ≠ "workflow_registry.yaml").filterMap fun file =>
    loadWorkflowFile C file.2).foldl keep .empty

/-- `get_workflow`. -/
def getWorkflow (workflows : Dict PyKey WorkflowConfig) (name : PyValue) :
    Except PyError (Option WorkflowConfig) := do
  return workflows.get? (← name.hash)

/-! ## Exporting -/

/-- A dictionary whose keys are strings. -/
def record (d : List (String × PyValue)) : PyValue :=
  .obj (d.map fun p => (.str p.1, p.2))

/-- A node of the exported document. -/
def nodeDict (node : WorkflowNode) : PyValue :=
  record [("name", node.name), ("type", node.nodeType), ("config", node.config)]

/-- An edge of the exported document. -/
def edgeDict (edge : WorkflowEdge) : PyValue :=
  record [("from", edge.fromNode), ("to", edge.toNode), ("condition", edge.condition)]

/-- `workflow_dict`. -/
def workflowDict (workflow : WorkflowConfig) : PyValue :=
  record [
    ("name", workflow.name),
    ("version", workflow.version),
    ("description", workflow.description),
    ("category", workflow.category),
    ("priority", .str workflow.priority.value),
    ("status", .str workflow.status.value),
    ("metadata", workflow.metadata),
    ("config", workflow.config),
    ("nodes", .arr (workflow.nodes.map nodeDict)),
    ("edges", .arr (workflow.edges.map edgeDict)),
    ("error_handling", workflow.errorHandling),
    ("monitoring", workflow.monitoring)]

/-- The encoder of an export format. -/
def encoder (C : Codecs) (format : String) : Option (PyValue → Except PyError String) :=
  if format.toLower = "yaml" then some C.yamlDump
  else if format.toLower = "json" then some C.jsonDumps
  else none

/-- `export_workflow`. -/
def exportWorkflow (C : Codecs) (workflows : Dict PyKey WorkflowConfig) (name : PyValue)
    (format : String) : Except PyError String := do
  match ← getWorkflow workflows name with
  | none => .error (.valueError "Workflow '%s' not found" [name])
  | some workflow =>
    match encoder C format with
    | some dump => dump (workflowDict workflow)
    | none => .error (.valueError "Unsupported format: %s" [.str format])

/-! ## What is loaded -/

theorem orNone_eq_some {α : Type} {x : Except PyError (Option α)} {a : α} :
    orNone x = some a ↔ x = .ok (some a) := by
  cases x with
  | error e => exact ⟨nofun, nofun⟩
  | ok b => exact ⟨congrArg Except.ok, Except.ok.inj⟩

/-- A document with its required fields is loaded exactly when its parts are. -/
theorem parseWorkflow_eq_some {data : PyValue} {workflow : WorkflowConfig} :
    parseWorkflow data = .ok (some workflow) ↔
      requiredFields.allM (fun field => data.contains field) = .ok true ∧
        loadParts data = .ok workflow := by
  unfold parseWorkflow
  rw [bind_eq_ok]
  constructor
  · rintro ⟨b, hb, h⟩
    cases b with
    | false => cases Except.ok.inj h
    | true =>
      obtain ⟨workflow', hparts, h⟩ := bind_eq_ok.mp h
      obtain rfl := Option.some.inj (Except.ok.inj h)
      exact ⟨hb, hparts⟩
  · rintro ⟨hb, hparts⟩
    exact ⟨true, hb, bind_eq_ok.mpr ⟨workflow, hparts, rfl⟩⟩

theorem loadWorkflowFile_eq_some {C : Codecs} {file : Except PyError String}
    {workflow : WorkflowConfig} :
    loadWorkflowFile C file = some workflow ↔
      ∃ text data, file = .ok text ∧ C.safeLoad text = .ok data ∧
        parseWorkflow data = .ok (some workflow) := by
  unfold loadWorkflowFile
  rw [orNone_eq_some, bind_eq_ok]
  simp only [bind_eq_ok]
  constructor
  · rintro ⟨text, hfile, data, hdata, h⟩
    exact ⟨text, data, hfile, hdata, h⟩
  · rintro ⟨text, data, hfile, hdata, h⟩
    exact ⟨text, hfile, data, hdata, h⟩

/-- What is kept holds of every workflow if it holds of those that are added. -/
theorem forall_foldl_keep {P : WorkflowConfig → Prop} :
    ∀ {loaded : List WorkflowConfig} {workflows : Dict PyKey WorkflowConfig},
      (∀ workflow ∈ loaded, P workflow) →
      (∀ k workflow, workflows.get? k = some workflow → P workflow) →
      ∀ k workflow, (loaded.foldl keep workflows).get? k = some workflow → P workflow
  | [], _, _, hold, k, workflow, h => hold k workflow h
  | new :: loaded, workflows, hnew, hold, k, workflow, h => by
    refine forall_foldl_keep (fun w hw => hnew w (List.mem_cons_of_mem new hw)) ?_ k workflow h
    intro k' w hw
    unfold keep at hw
    cases hk : new.name.hash with
    | error e =>
      rw [hk] at hw
      exact hold k' w hw
    | ok key =>
      simp only [hk, Dict.get?_set] at hw
      split_ifs at hw with heq
      · obtain rfl := Option.some.inj hw
        exact hnew new List.mem_cons_self
      · exact hold k' w hw

/-- Every workflow that is kept was loaded from one of the files. -/
theorem exists_file {C : Codecs} {files : List (String × Except PyError String)} {name : PyValue}
    {workflow : WorkflowConfig}
    (h : getWorkflow (loadWorkflows C files) name = .ok (some workflow)) :
    ∃ file ∈ files, loadWorkflowFile C file.2 = some workflow := by
  obtain ⟨k, -, hk⟩ := bind_eq_ok.mp h
  refine forall_foldl_keep (P := fun w => ∃ file ∈ files, loadWorkflowFile C file.2 = some w)
    (fun w hw => ?_) (fun k w hw => ?_) k workflow (Except.ok.inj hk)
  · obtain ⟨file, hfile, hw⟩ := List.mem_filterMap.mp hw
    exact ⟨file, (List.mem_filter.mp hfile).1, hw⟩
  · rw [Dict.get?_empty] at hw
    cases hw

/-- The workflow of a directory with one file. -/
theorem getWorkflow_single {C : Codecs} {fileName : String} {file : Except PyError String}
    {workflow : WorkflowConfig} {k : PyKey} (hname : fileName ≠ "workflow_registry.yaml")
    (hload : loadWorkflowFile C file = some workflow) (hk : workflow.name.hash = .ok k) :
    getWorkflow (loadWorkflows C [(fileName, file)]) workflow.name = .ok (some workflow) := by
  have hfiles : loadWorkflows C [(fileName, file)] = Dict.empty.set k workflow := by
    unfold loadWorkflows
    rw [List.filter_cons_of_pos (by exact decide_eq_true hname), List.filter_nil,
      List.filterMap_cons, hload]
    simp only [List.filterMap_nil, List.foldl_cons, List.foldl_nil, keep, hk]
  unfold getWorkflow
  rw [hfiles, hk, ok_bind, Dict.get?_set_self]
  rfl

end Orchestrator

end MultiAgent
