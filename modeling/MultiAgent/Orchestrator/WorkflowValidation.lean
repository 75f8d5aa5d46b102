import Mathlib.Data.List.Dedup
import MultiAgent.Orchestrator.WorkflowExport

/-!
# What validation reports

`validate_workflow` of the orchestrator's `WorkflowLoader` looks at the names of the nodes, for a
start node and at both ends of every edge (`Checked`). It never looks at the `next_node` of a
node, which is the other place where a workflow says what runs next, and it raises where a name
cannot be an element of a set. A workflow is reported valid exactly when it is checked and its
names can be elements of a set (`reportsValid_iff`), so the report is right about the next nodes
only where these conditions decide them (`reportsValid_iff_wellFormed`).
-/

namespace MultiAgent

namespace Orchestrator

open Fallible

/-- A text with the values it shows. -/
structure Message where
  text : String
  shown : List PyValue := []

/-- The dictionary that validation returns. -/
structure ValidationResult where
  valid : Bool := true
  errors : List Message := []
  warnings : List Message := []

namespace ValidationResult

/-- `result["valid"] = False`, with an error. -/
def reject (result : ValidationResult) (message : Message) : ValidationResult :=
  { result with valid := false, errors := result.errors ++ [message] }

/-- A warning. -/
def warn (result : ValidationResult) (message : Message) : ValidationResult :=
  { result with warnings := result.warnings ++ [message] }

@[simp] theorem valid_reject (result : ValidationResult) (message : Message) :
    (result.reject message).valid = false :=
  rfl

@[simp] theorem valid_warn (result : ValidationResult) (message : Message) :
    (result.warn message).valid = result.valid :=
  rfl

end ValidationResult

/-- The nodes of a type. -/
def nodesOfType (nodeType : String) (workflow : WorkflowConfig) : List WorkflowNode :=
  workflow.nodes.filter fun node => node.nodeType.isKey (.str nodeType)

/-- The checks of the nodes, whose names are in the set. -/
def checkNodes (nodeNames : List PyKey) (workflow : WorkflowConfig) : ValidationResult :=
  let result : ValidationResult := {}
  let result :=
    if nodeNames.dedup.length ≠ workflow.nodes.length then
      result.reject ⟨"Duplicate node names found", []⟩
    else result
  let startNodes := nodesOfType "start" workflow
  let result :=
    if startNodes.length = 0 then result.reject ⟨"No start node found", []⟩
    else if startNodes.length > 1 then result.warn ⟨"Multiple start nodes found", []⟩
    else result
  if (nodesOfType "end" workflow).length = 0 then result.warn ⟨"No end node found", []⟩
  else result

/-- `if end not in node_names`. -/
def checkEnd (nodeNames : List PyKey) (result : ValidationResult) (node : PyValue) :
    Except PyError ValidationResult := do
  if (← node.hash) ∈ nodeNames then return result
  else return result.reject ⟨"Edge references unknown node: %s", [node]⟩

/-- The checks of an edge. -/
def checkEdge (nodeNames : List PyKey) (result : ValidationResult) (edge : WorkflowEdge) :
    Except PyError ValidationResult := do
  checkEnd nodeNames (← checkEnd nodeNames result edge.fromNode) edge.toNode

/-- `validate_workflow`. -/
def validateWorkflow (workflows : Dict PyKey WorkflowConfig) (name : PyValue) :
    Except PyError ValidationResult := do
  match ← getWorkflow workflows name with
  | none => return { valid := false, errors := [⟨"Workflow '%s' not found", [name]⟩] }
  | some workflow =>
    let nodeNames ← workflow.nodes.mapM fun node => node.name.hash
    workflow.edges.foldlM (checkEdge nodeNames) (checkNodes nodeNames workflow)

/-! ## What a workflow should satisfy -/

/-- The value is the name of a node. -/
def Names (workflow : WorkflowConfig) (v : PyValue) : Prop :=
  ∃ node ∈ workflow.nodes, node.name.eq v = true

/-- The names are distinct, there is a start node, and edges join nodes of the workflow. -/
structure Checked (workflow : WorkflowConfig) : Prop where
  distinct : workflow.nodes.Pairwise fun a b => a.name.eq b.name = false
  start : ∃ node ∈ workflow.nodes, node.nodeType.isKey (.str "start") = true
  ends : ∀ edge ∈ workflow.edges, Names workflow edge.fromNode ∧ Names workflow edge.toNode

/-- Every next node is a node of the workflow. -/
def NextNamed (workflow : WorkflowConfig) : Prop :=
  ∀ node ∈ workflow.nodes, node.nextNode = .null ∨ Names workflow node.nextNode

/-- Nothing leads to a node that does not exist. -/
structure WellFormed (workflow : WorkflowConfig) : Prop extends Checked workflow where
  next : NextNamed workflow

/-- Every name can be an element of a set. -/
def NamesHashable (workflow : WorkflowConfig) : Prop :=
  ∀ node ∈ workflow.nodes, ∃ k, node.name.hash = .ok k

/-- The checks ran, and found nothing. -/
def Passes (x : Except PyError ValidationResult) : Prop :=
  ∃ result, x = .ok result ∧ result.valid = true

/-- The workflow is reported valid. -/
def ReportsValid (workflows : Dict PyKey WorkflowConfig) (name : PyValue) : Prop :=
  Passes (validateWorkflow workflows name)

/-! ## Sequences of checks -/

section Checks

variable {α : Type} {P : Prop}

theorem passes_bind {x : Except PyError ValidationResult}
    {f : ValidationResult → Except PyError ValidationResult}
    (hf : ∀ result, Passes (f result) ↔ result.valid = true ∧ P) :
    Passes (x >>= f) ↔ Passes x ∧ P := by
  constructor
  · rintro ⟨r, hr, hvalid⟩
    obtain ⟨result, hx, hr⟩ := bind_eq_ok.mp hr
    obtain ⟨hresult, hp⟩ := (hf result).mp ⟨r, hr, hvalid⟩
    exact ⟨⟨result, hx, hresult⟩, hp⟩
  · rintro ⟨⟨result, hx, hresult⟩, hp⟩
    obtain ⟨r, hr, hvalid⟩ := (hf result).mpr ⟨hresult, hp⟩
    exact ⟨r, bind_eq_ok.mpr ⟨result, hx, hr⟩, hvalid⟩

theorem passes_ok {result : ValidationResult} : Passes (.ok result) ↔ result.valid = true :=
  ⟨fun ⟨_, h, hvalid⟩ => Except.ok.inj h ▸ hvalid, fun h => ⟨result, rfl, h⟩⟩

theorem passes_foldlM {Q : α → Prop} {f : ValidationResult → α → Except PyError ValidationResult}
    (hf : ∀ result a, Passes (f result a) ↔ result.valid = true ∧ Q a) :
    ∀ (l : List α) (result : ValidationResult),
      Passes (l.foldlM f result) ↔ result.valid = true ∧ ∀ a ∈ l, Q a
  | [], result => passes_ok.trans (and_iff_left fun _ ha => absurd ha List.not_mem_nil).symm
  | a :: l, result => by
    rw [List.foldlM_cons, passes_bind (passes_foldlM hf l), hf, List.forall_mem_cons, and_assoc]

end Checks

theorem passes_checkEnd (nodeNames : List PyKey) (result : ValidationResult) (v : PyValue) :
    Passes (checkEnd nodeNames result v) ↔
      result.valid = true ∧ ∃ k ∈ nodeNames, v.hash = .ok k := by
  unfold checkEnd
  cases hk : v.hash with
  | error e => exact iff_of_false (fun ⟨_, h, _⟩ => nomatch h) (fun ⟨_, _, _, h⟩ => nomatch h)
  | ok k =>
    rw [ok_bind]
    simp only [Except.ok.injEq, exists_eq_right']
    split_ifs with hmem
    · exact passes_ok.trans (and_iff_left hmem).symm
    · exact passes_ok.trans (iff_of_false Bool.false_ne_true fun h => hmem h.2)

theorem passes_checkEdge (nodeNames : List PyKey) (result : ValidationResult)
    (edge : WorkflowEdge) :
    Passes (checkEdge nodeNames result edge) ↔ result.valid = true ∧
      (∃ k ∈ nodeNames, edge.fromNode.hash = .ok k) ∧
        ∃ k ∈ nodeNames, edge.toNode.hash = .ok k := by
  unfold checkEdge
  rw [passes_bind fun result => passes_checkEnd nodeNames result edge.toNode, passes_checkEnd,
    and_assoc]

theorem valid_checkNodes (nodeNames : List PyKey) (workflow : WorkflowConfig) :
    (checkNodes nodeNames workflow).valid = true ↔
      nodeNames.dedup.length = workflow.nodes.length ∧
        ∃ node ∈ workflow.nodes, node.nodeType.isKey (.str "start") = true := by
  have hstart : (∃ node ∈ workflow.nodes, node.nodeType.isKey (.str "start") = true) ↔
      (nodesOfType "start" workflow).length ≠ 0 := by
    unfold nodesOfType
    rw [ne_eq, List.length_eq_zero_iff, List.filter_eq_nil_iff]
    push Not
    rfl
  rw [hstart]
  -- warnings change nothing
  simp only [checkNodes, apply_ite ValidationResult.valid, ValidationResult.valid_reject,
    ValidationResult.valid_warn, ite_self]
  split_ifs with hzero hlength
  · exact iff_of_false id fun h => h.2 hzero
  · exact iff_of_false id fun h => hlength h.1
  · exact iff_of_true rfl ⟨not_not.mp hlength, hzero⟩

/-! ## Names and keys -/

variable {workflow : WorkflowConfig} {nodeNames : List PyKey}

theorem names_iff
    (h : List.Forall₂ (fun node k => node.name.hash = .ok k) workflow.nodes nodeNames)
    (v : PyValue) : Names workflow v ↔ ∃ k ∈ nodeNames, v.hash = .ok k := by
  have heq : ∀ {a : PyValue} {k : PyKey}, a.hash = .ok k → (a.eq v = true ↔ v.hash = .ok k) := by
    intro a k ha
    rw [PyValue.eq_of_hash ha, decide_eq_true_eq]
    cases v.hash with
    | error e => exact ⟨nofun, nofun⟩
    | ok k' => simp [Except.toOption, eq_comm]
  constructor
  · rintro ⟨node, hnode, hname⟩
    obtain ⟨k, hk, hhash⟩ := exists_of_forall₂ h hnode
    exact ⟨k, hk, (heq hhash).mp hname⟩
  · rintro ⟨k, hk, hv⟩
    obtain ⟨node, hnode, hhash⟩ := exists_of_forall₂ h.flip hk
    exact ⟨node, hnode, (heq hhash).mpr hv⟩

theorem pairwise_iff {nodes : List WorkflowNode} {nodeNames : List PyKey}
    (h : List.Forall₂ (fun node k => node.name.hash = .ok k) nodes nodeNames) :
    (nodes.Pairwise fun a b => a.name.eq b.name = false) ↔ nodeNames.Nodup := by
  induction h with
  | nil => simp
  | @cons a k nodes nodeNames hk h ih =>
    have hhead : (∀ b ∈ nodes, a.name.eq b.name = false) ↔ k ∉ nodeNames := by
      constructor
      · intro hne hmem
        obtain ⟨b, hb, hbk⟩ := exists_of_forall₂ h.flip hmem
        have heq := hne b hb
        rw [PyValue.eq_of_hash hk, hbk] at heq
        simp [Except.toOption] at heq
      · intro hmem b hb
        obtain ⟨k', hk', hbk⟩ := exists_of_forall₂ h hb
        rw [PyValue.eq_of_hash hk, hbk, decide_eq_false_iff_not]
        rintro heq
        exact hmem (Option.some.inj heq ▸ hk')
    rw [List.pairwise_cons, List.nodup_cons, hhead, ih]

/-! ## What is reported -/

/-- A workflow is reported valid exactly when its names can be elements of a set and it passes
the checks. -/
theorem reportsValid_iff {workflows : Dict PyKey WorkflowConfig} {name : PyValue}
    (hfound : getWorkflow workflows name = .ok (some workflow)) :
    ReportsValid workflows name ↔ NamesHashable workflow ∧ Checked workflow := by
  unfold ReportsValid validateWorkflow
  rw [hfound, ok_bind, NamesHashable, ← exists_mapM_eq_ok]
  dsimp only
  cases hnames : workflow.nodes.mapM fun node => node.name.hash with
  | error e => exact iff_of_false (fun ⟨_, h, _⟩ => nomatch h) (fun h => nomatch h.1)
  | ok nodeNames =>
    have hforall := mapM_eq_ok.mp hnames
    have hdistinct : nodeNames.dedup.length = workflow.nodes.length ↔ nodeNames.Nodup := by
      rw [hforall.length_eq]
      exact ⟨fun h => List.dedup_eq_self.mp ((List.dedup_sublist nodeNames).eq_of_length h),
        fun h => by rw [h.dedup]⟩
    rw [ok_bind, passes_foldlM (passes_checkEdge nodeNames), valid_checkNodes, hdistinct]
    simp only [← names_iff hforall, ← pairwise_iff hforall]
    constructor
    · rintro ⟨⟨hdistinct, hstart⟩, hends⟩
      exact ⟨⟨nodeNames, rfl⟩, hdistinct, hstart, hends⟩
    · rintro ⟨-, hdistinct, hstart, hends⟩
      exact ⟨⟨hdistinct, hstart⟩, hends⟩

/-- The report is right about a workflow that was loaded exactly when, if it passes the checks,
its names can be elements of a set just in case its next nodes are nodes of it. -/
theorem reportsValid_iff_wellFormed (C : Codecs) (files : List (String × Except PyError String))
    (name : PyValue) (workflow : WorkflowConfig)
    (hloaded : getWorkflow (loadWorkflows C files) name = .ok (some workflow)) :
    (ReportsValid (loadWorkflows C files) name ↔ WellFormed workflow) ↔
      (Checked workflow → (NamesHashable workflow ↔ NextNamed workflow)) := by
  have hwell : WellFormed workflow ↔ Checked workflow ∧ NextNamed workflow :=
    ⟨fun h => ⟨h.toChecked, h.next⟩, fun h => ⟨h.1, h.2⟩⟩
  rw [reportsValid_iff hloaded, hwell]
  constructor
  · intro h hchecked
    exact ⟨fun hhash => (h.mp ⟨hhash, hchecked⟩).2, fun hnext => (h.mpr ⟨hchecked, hnext⟩).1⟩
  · intro h
    exact ⟨fun ⟨hhash, hchecked⟩ => ⟨hchecked, (h hchecked).mp hhash⟩,
      fun ⟨hchecked, hnext⟩ => ⟨(h hchecked).mpr hnext, hchecked⟩⟩

/-- The workflow that was loaded from the example file. -/
theorem reportsValid_iff_wellFormed_trackOrder :
    (ReportsValid (loadWorkflows orderCodecs orderFiles) (.str "track_order") ↔
      WellFormed trackOrder) ↔
      (Checked trackOrder → (NamesHashable trackOrder ↔ NextNamed trackOrder)) :=
  reportsValid_iff_wellFormed orderCodecs orderFiles (.str "track_order") trackOrder
    getWorkflow_trackOrder

/-! ## A node that does not exist -/

/-- A file whose start node goes on to a node that is not there. -/
def faqFile : String :=
  "name: faq\nversion: 1.0.0\ndescription: Answer a question\ncategory: support\n" ++
    "priority: low\nnodes:\n- name: start\n  type: start\n  config:\n    next_node: answer\n"

/-- What the file holds. -/
def faqDocument : PyValue :=
  record [
    ("name", .str "faq"), ("version", .str "1.0.0"), ("description", .str "Answer a question"),
    ("category", .str "support"), ("priority", .str "low"),
    ("nodes", .arr [
      record [("name", .str "start"), ("type", .str "start"),
        ("config", record [("next_node", .str "answer")])]])]

/-- The workflow of the file. -/
def faq : WorkflowConfig where
  name := .str "faq"
  version := .str "1.0.0"
  description := .str "Answer a question"
  category := .str "support"
  priority := .low
  status := .active
  metadata := .obj []
  config := .obj []
  nodes := [⟨.str "start", .str "start", record [("next_node", .str "answer")], .str "answer"⟩]
  edges := []
  errorHandling := .arr []
  monitoring := .obj []

/-- `yaml.safe_load`, on the text of this file. -/
@[irreducible]
def readFaq (text : String) : Except PyError PyValue :=
  if text = faqFile then .ok faqDocument
  else .error (.valueError "could not read %s" [.str text])

/-- The codecs, of which only the reader is used. -/
def faqCodecs : Codecs where
  safeLoad := readFaq
  yamlDump _ := .error .typeError
  jsonDumps _ := .error .typeError

/-- The directory with this file alone. -/
abbrev faqFiles : List (String × Except PyError String) :=
  [("faq_handling.yaml", .ok faqFile)]

theorem getWorkflow_faq :
    getWorkflow (loadWorkflows faqCodecs faqFiles) (.str "faq") = .ok (some faq) := by
  have hread : readFaq faqFile = .ok faqDocument := by
    unfold readFaq
    rw [if_pos rfl]
  have hparse : parseWorkflow faqDocument = .ok (some faq) := rfl
  have hload : loadWorkflowFile faqCodecs (.ok faqFile) = some faq :=
    loadWorkflowFile_eq_some.mpr ⟨faqFile, faqDocument, rfl, hread, hparse⟩
  exact getWorkflow_single (by decide +kernel) hload rfl

/-- A workflow can be reported valid though its start node goes on to no node of it. -/
theorem not_reportsValid_iff_wellFormed :
    ¬ ∀ (C : Codecs) (files : List (String × Except PyError String)) (name : PyValue)
      (workflow : WorkflowConfig),
      getWorkflow (loadWorkflows C files) name = .ok (some workflow) →
        (ReportsValid (loadWorkflows C files) name ↔ WellFormed workflow) := by
  intro h
  have hhash : NamesHashable faq := fun node hnode => by
    obtain rfl := List.mem_singleton.mp hnode
    exact ⟨.str "start", rfl⟩
  have hchecked : Checked faq :=
    ⟨List.pairwise_singleton _ _, ⟨_, List.mem_singleton_self _, by decide +kernel⟩, nofun⟩
  have hvalid := (reportsValid_iff getWorkflow_faq).mpr ⟨hhash, hchecked⟩
  have hwell := (h faqCodecs faqFiles (.str "faq") faq getWorkflow_faq).mp hvalid
  rcases hwell.next _ (List.mem_singleton_self _) with hnull | ⟨node, hnode, hname⟩
  · cases hnull
  · obtain rfl := List.mem_singleton.mp hnode
    revert hname
    decide +kernel

end Orchestrator

end MultiAgent
