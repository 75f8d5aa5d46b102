import MultiAgent.Lib.ObjectHeap
import MultiAgent.Workflows.WorkflowLoader

/-!
# Workflow dictionaries as objects

`_load_workflow_from_data` once more, on the objects that the caller and the table of base
workflows share with it. A copy of a dictionary is one of its items and holds the same lists :
what `_apply_insert_after` inserts into and what `_apply_patch` writes to are the lists of the
dictionary that is loaded. The documents of files are new with each load, so a specification
made of one holds atoms.
-/

namespace MultiAgent

namespace WorkflowObjects

open ObjectHeap

/-! ## Specifications -/

/-- `WorkflowStep`. -/
structure StepObject where
  id : Val
  type : Val
  name : Val
  config : Val
  metadata : Val

/-- `WorkflowTransition`. -/
structure TransitionObject where
  fromStep : Val
  toStep : Val
  condition : Val
  metadata : Val

/-- `WorkflowSpec`. -/
structure SpecObject where
  name : Val
  version : Val
  description : Val
  settings : Val
  steps : List StepObject
  transitions : List TransitionObject
  tools : Val
  errorHandling : Val
  metrics : Val
  featureFlags : Val
  quotas : Val
  security : Val
  monitoring : Val

/-- The value of a step. -/
def StepObject.read (value : Val → PyValue) (step : StepObject) : WorkflowStep where
  id := value step.id
  type := value step.type
  name := value step.name
  config := value step.config
  metadata := value step.metadata

/-- The value of a transition. -/
def TransitionObject.read (value : Val → PyValue) (transition : TransitionObject) :
    WorkflowTransition where
  fromStep := value transition.fromStep
  toStep := value transition.toStep
  condition := value transition.condition
  metadata := value transition.metadata

/-- The value of a specification. -/
def SpecObject.read (value : Val → PyValue) (spec : SpecObject) : WorkflowSpec where
  name := value spec.name
  version := value spec.version
  description := value spec.description
  settings := value spec.settings
  steps := spec.steps.map (StepObject.read value)
  transitions := spec.transitions.map (TransitionObject.read value)
  tools := value spec.tools
  errorHandling := value spec.errorHandling
  metrics := value spec.metrics
  featureFlags := value spec.featureFlags
  quotas := value spec.quotas
  security := value spec.security
  monitoring := value spec.monitoring

/-- A specification made of a file. -/
def ofFile (spec : WorkflowSpec) : SpecObject where
  name := .atom spec.name
  version := .atom spec.version
  description := .atom spec.description
  settings := .atom spec.settings
  steps := spec.steps.map fun step =>
    ⟨.atom step.id, .atom step.type, .atom step.name, .atom step.config, .atom step.metadata⟩
  transitions := spec.transitions.map fun t =>
    ⟨.atom t.fromStep, .atom t.toStep, .atom t.condition, .atom t.metadata⟩
  tools := .atom spec.tools
  errorHandling := .atom spec.errorHandling
  metrics := .atom spec.metrics
  featureFlags := .atom spec.featureFlags
  quotas := .atom spec.quotas
  security := .atom spec.security
  monitoring := .atom spec.monitoring

/-! ## Dictionaries -/

/-- The value at a key, or a default. -/
def field (key : String) (default : PyValue) (data : Fields) : Val :=
  (data.lookup (.str key)).getD (.atom default)

/-- The value at a key, or a new list. -/
def fieldOrNew (key : String) (data : Fields) : Mem Val :=
  match data.lookup (.str key) with
  | some v => pure v
  | none => alloc (.list [])

/-- The dictionary without the item at a key. -/
def erase (key : String) (data : Fields) : Fields :=
  data.filter fun p => p.1 ≠ .str key

/-- `if key in data: data = apply(data)`. -/
def applyWhere (key : String) (apply : Fields → Mem Fields) (data : Fields) : Mem Fields :=
  if (data.lookup (.str key)).isSome then apply data else pure data

/-! ## `_deep_merge` -/

/-- What is stored at a key. -/
def mergeField (merge : Fields → Fields → Mem Fields) (old : Option Val) (value : Val) :
    Mem Val := do
  match old with
  | some old =>
    match ← look old, ← look value with
    | .dict base, .dict override => do
      let merged ← merge base override
      alloc (.dict merged)
    | _, _ => pure value
  | none => pure value

/-- The loop over the items of the override. -/
def mergeFields (merge : Fields → Fields → Mem Fields) : Fields → Fields → Mem Fields
  | result, [] => pure result
  | result, (key, value) :: rest => do
    let merged ← mergeField merge (result.lookup key) value
    mergeFields merge (Dict.setItem key merged result) rest

/-- `_deep_merge`, which returns a new dictionary. -/
def deepMerge : ℕ → Fields → Fields → Mem Fields
  | 0 => fun _ _ => raise (.error .recursionError)
  | limit + 1 => mergeFields (deepMerge limit)

/-! ## `_apply_insert_after` -/

/-- The first node with the given id. -/
def findNode (targetId : PyKey) : List Val → Mem (Option ℕ)
  | [] => pure none
  | node :: nodes => do
    let id ← getItem "id" node
    if id.isKey targetId then return some 0
    else return (← findNode targetId nodes).map (· + 1)

/-- The dictionary of an added edge. -/
def newEdge (source target : Val) : Mem Val :=
  alloc (.dict [(.str "from", source), (.str "to", target)])

/-- The elements of a list, for a method that only lists have. -/
def elements (method : String) (v : Val) : Mem (List Val) := do
  match ← look v with
  | .list l => pure l
  | _ => raise (.error (.attributeError method))

/-- Add the edges of a node that is inserted at a position. -/
def addEdges (nodes edges : Val) (targetId : PyKey) (position : ℕ) (newNode : Val) :
    Mem Unit := do
  let _ ← elements "append" edges
  let newId ← getItem "id" newNode
  append edges (← newEdge (.atom targetId.toValue) newId)
  match (← elements "insert" nodes)[position + 1]? with
  | some nextNode => do
    let nextId ← getItem "id" nextNode
    append edges (← newEdge newId nextId)
  | none => pure ()

/-- Insert one node at a position, with its edges. -/
def insertNode (nodes edges : Val) (targetId : PyKey) (position : ℕ) (newNode : Val) :
    Mem Unit := do
  insert nodes position newNode
  addEdges nodes edges targetId position newNode

/-- The loop over the nodes to insert, from the one with the given number on. -/
def insertNodes (nodes edges : Val) (targetId : PyKey) (targetIndex : ℕ) (newNodes : Val) :
    ℕ → ℕ → Mem Unit
  -- nodes that are inserted into what is iterated over have no end
  | 0, _ => raise .memoryError
  | room + 1, j => do
    match (← iter newNodes)[j]? with
    | some newNode => do
      insertNode nodes edges targetId (targetIndex + 1 + j) newNode
      insertNodes nodes edges targetId targetIndex newNodes room (j + 1)
    | none => pure ()

/-- One item of `insert_after`. -/
def insertAfterTarget (nodes edges : Val) (item : PyKey × Val) : Mem Unit := do
  match ← findNode item.1 (← iter nodes) with
  | some targetIndex => do
    let newNodes ← iter item.2
    insertNodes nodes edges item.1 targetIndex item.2 (newNodes.length + 1) 0
  | none => pure ()

/-- The loop over the items of `insert_after`. -/
def insertAll (nodes edges : Val) (insertAfter : Fields) : Mem Unit :=
  forEach (insertAfterTarget nodes edges) insertAfter

/-- The copy of a dictionary that `_apply_insert_after` returns. -/
def withLists (nodes edges : Val) (data : Fields) : Fields :=
  Dict.setItem (.str "edges") edges
    (Dict.setItem (.str "nodes") nodes (erase "insert_after" data))

/-- `_apply_insert_after`. -/
def applyInsertAfter (data : Fields) : Mem Fields := do
  let nodes ← fieldOrNew "nodes" data
  let edges ← fieldOrNew "edges" data
  let insertAfter ← items (field "insert_after" (.obj []) data)
  insertAll nodes edges insertAfter
  return withLists nodes edges data

/-! ## `_apply_patch` -/

/-- The node that a patch makes of a node. -/
def patchedNode (limit : ℕ) (node nodePatch : Val) : Mem Fields := do
  let base ← items node
  let override ← items nodePatch
  deepMerge limit base override

/-- A node is replaced by a new one. -/
def replaceNode (nodes : Val) (index : ℕ) (node : Fields) : Mem Unit := do
  setIndex nodes index (← alloc (.dict node))

/-- One item of the patches of nodes. -/
def patchNode (limit : ℕ) (nodes : Val) (item : PyKey × Val) : Mem Unit := do
  let current ← iter nodes
  match ← findNode item.1 current with
  | some index => do
    let merged ← patchedNode limit (current.getD index (.atom .null)) item.2
    replaceNode nodes index merged
  | none => pure ()

/-- The loop over the patches of nodes. -/
def patchAll (limit : ℕ) (nodes : Val) (nodePatches : Fields) : Mem Unit :=
  forEach (patchNode limit nodes) nodePatches

/-- The patches of nodes; the result has the nodes after them. -/
def patchNodes (limit : ℕ) (patch : Val) (result : Fields) : Mem Fields := do
  let nodes ← fieldOrNew "nodes" result
  let nodePatches ← items (← getItem "nodes" patch)
  patchAll limit nodes nodePatches
  return Dict.setItem (.str "nodes") nodes result

/-- `if "nodes" in patch`, and what is done there. -/
def patchNodesWhere (limit : ℕ) (patch : Val) (result : Fields) : Mem Fields := do
  if ← contains "nodes" patch then patchNodes limit patch result else pure result

/-- `_apply_patch`. -/
def applyPatch (limit : ℕ) (data : Fields) : Mem Fields := do
  let patch := field "patch" (.obj []) data
  let result ← patchNodesWhere limit patch (erase "patch" data)
  let patchCopy ← items patch
  deepMerge limit result (erase "nodes" patchCopy)

/-! ## Parsing -/

/-- A step from an entry of `nodes`. -/
def parseNode (node : Val) : Mem StepObject := do
  let id ← getItem "id" node
  let type ← getItem "type" node
  let name ← get "name" id node
  let config ← get "config" (.atom (.obj [])) node
  let metadata ← get "metadata" (.atom .null) node
  return { id, type, name, config, metadata }

/-- A transition from an entry of `edges`. -/
def parseEdge (edge : Val) : Mem TransitionObject := do
  let fromStep ← getItem "from" edge
  let toStep ← getItem "to" edge
  let condition ← get "condition" (.atom (.str "true")) edge
  let metadata ← get "metadata" (.atom .null) edge
  return { fromStep, toStep, condition, metadata }

/-- `_parse_workflow_data`. -/
def parseWorkflowData (data : Fields) : Mem SpecObject := do
  let steps ← each parseNode (← iter (field "nodes" (.arr []) data))
  let transitions ← each parseEdge (← iter (field "edges" (.arr []) data))
  return { name := field "name" (.str "") data
           version := field "version" (.str "1.0.0") data
           description := field "description" (.str "") data
           settings := field "settings" (.obj []) data
           steps := steps
           transitions := transitions
           tools := field "tools" (.arr []) data
           errorHandling := field "error_handling" (.arr []) data
           metrics := field "metrics" (.arr []) data
           featureFlags := field "feature_flags" .null data
           quotas := field "quotas" .null data
           security := field "security" .null data
           monitoring := field "monitoring" .null data }

/-- `_validate_spec`, which only reads the specification. -/
def validateSpec (limit : ℕ) (spec : SpecObject) : Mem Unit := fun h =>
  lift (WorkflowLoader.validateSpec limit (spec.read (readBack h (limit + 2)))) h

/-! ## `_merge_specs` -/

/-- The item of an optional section, which is left out where it is empty. -/
def optionalItem (key : String) (value : Val) : Mem Fields := do
  if ← truthy value then return [(.str key, value)] else return []

/-- `_step_to_dict`. -/
def stepToDict (step : StepObject) : Mem Val := do
  let metadata ← optionalItem "metadata" step.metadata
  alloc (.dict ([(.str "id", step.id), (.str "type", step.type), (.str "name", step.name),
    (.str "config", step.config)] ++ metadata))

/-- `_transition_to_dict`. -/
def transitionToDict (transition : TransitionObject) : Mem Val := do
  let metadata ← optionalItem "metadata" transition.metadata
  alloc (.dict ([(.str "from", transition.fromStep), (.str "to", transition.toStep),
    (.str "condition", transition.condition)] ++ metadata))

/-- The entries that a dictionary lists under `nodes` or `edges`. -/
def listed (key : String) (override : Fields) : Mem (List Val) :=
  match override.lookup (.str key) with
  | some value => iter value
  | none => pure []

/-- The dictionary that `_merge_specs` makes of a specification, without the optional sections. -/
def baseDict (base : SpecObject) (nodes edges : Val) : Fields :=
  [(.str "name", base.name), (.str "version", base.version),
    (.str "description", base.description), (.str "nodes", nodes), (.str "edges", edges),
    (.str "settings", base.settings), (.str "tools", base.tools),
    (.str "error_handling", base.errorHandling), (.str "metrics", base.metrics)]

/-- `_merge_specs`. -/
def mergeSpecs (limit : ℕ) (base : SpecObject) (override : Fields) : Mem SpecObject := do
  let steps ← each stepToDict base.steps
  let transitions ← each transitionToDict base.transitions
  let featureFlags ← optionalItem "feature_flags" base.featureFlags
  let quotas ← optionalItem "quotas" base.quotas
  let security ← optionalItem "security" base.security
  let monitoring ← optionalItem "monitoring" base.monitoring
  let moreNodes ← listed "nodes" override
  let moreEdges ← listed "edges" override
  let nodes ← alloc (.list (steps ++ moreNodes))
  let edges ← alloc (.list (transitions ++ moreEdges))
  let sections := featureFlags ++ quotas ++ security ++ monitoring
  let merged ← deepMerge limit (baseDict base nodes edges ++ sections)
    (erase "edges" (erase "nodes" override))
  parseWorkflowData merged

/-! ## Loading -/

/-- A loader, whose table is an object if it has one. -/
structure ObjectLoader where
  workflows : Option Val
  files : FilePath → Option (Except PyError PyValue)

/-- A specification that is parsed and validated. -/
def parseAndCheck (limit : ℕ) (data : Fields) : Mem SpecObject := do
  let spec ← parseWorkflowData data
  validateSpec limit spec
  return spec

/-- The patches, and what is done after them. -/
def patchAndParse (limit : ℕ) (data : Fields) : Mem SpecObject := do
  let data ← applyWhere "patch" (applyPatch limit) data
  parseAndCheck limit data

/-- What `_load_workflow_from_data` does below its `extends` branch. -/
def parseAndValidate (limit : ℕ) (data : Fields) : Mem SpecObject := do
  let data ← applyWhere "insert_after" applyInsertAfter data
  patchAndParse limit data

namespace ObjectLoader

variable (L : ObjectLoader)

/-- The dictionary that the table holds under a name, if there is a table. -/
def findWorkflow (baseName : Val) : Mem (Option Val) := do
  match L.workflows with
  | some table =>
    let key ← hash baseName
    let workflows ← items table
    return workflows.lookup key
  | none => return none

/-- `_load_base_workflow`. -/
def loadBaseWorkflow (limit : ℕ) (workflowName : Val) : Mem SpecObject := fun h =>
  let files : WorkflowLoader := { workflows := none, files := L.files }
  lift ((files.loadBaseWorkflow limit (readBack h (limit + 2) workflowName)).map ofFile) h

/-- `_load_workflow_from_data`. -/
def loadWorkflowFromData : ℕ → Val → Mem SpecObject
  | 0, _ => raise (.error .recursionError)
  | limit + 1, workflowData => do
    let data ← items workflowData
    match data.lookup (.str "extends") with
    | some baseName => do
      match ← L.findWorkflow baseName with
      | some base => do
        let baseSpec ← loadWorkflowFromData limit base
        mergeSpecs limit baseSpec data
      | none => do
        let baseSpec ← L.loadBaseWorkflow limit baseName
        mergeSpecs limit baseSpec data
    | none => parseAndValidate limit data

end ObjectLoader

end WorkflowObjects

end MultiAgent
