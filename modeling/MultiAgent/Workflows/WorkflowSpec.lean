import Mathlib.Data.List.Dedup
import MultiAgent.Lib.DepthFirst
import MultiAgent.Lib.PyValue

/-!
# Workflow specifications and their validation

The dataclasses of `workflow_loader.py` and `_validate_spec` with the checks it makes in
turn : the name, the step ids, the references of the transitions, the absence of cycles,
and each step by itself. A field holds whatever the document held there, since nothing
converts it; `None` is `PyValue.null`. The numbers handed to the recursive functions
are the calls that still fit on the interpreter's stack.

`ValidSpec` says what a valid specification is without mentioning the checks, and
`validSpec_of_validateSpec` that what passes them is valid.
-/

namespace MultiAgent

/-- Workflow step definition. -/
structure WorkflowStep where
  id : PyValue
  type : PyValue
  name : PyValue
  config : PyValue
  metadata : PyValue

/-- Workflow transition definition. -/
structure WorkflowTransition where
  fromStep : PyValue
  toStep : PyValue
  condition : PyValue
  metadata : PyValue

/-- Complete workflow specification. -/
structure WorkflowSpec where
  name : PyValue
  version : PyValue
  description : PyValue
  settings : PyValue
  steps : List WorkflowStep
  transitions : List WorkflowTransition
  tools : PyValue
  errorHandling : PyValue
  metrics : PyValue
  featureFlags : PyValue
  quotas : PyValue
  security : PyValue
  monitoring : PyValue

namespace WorkflowLoader

open Fallible

/-! ## `_validate_step` -/

/-- The node types that a step may have. -/
def validTypes : List String :=
  ["start", "end", "agent", "validator", "tool_call", "condition", "parallel", "sequential"]

/-- `_validate_step`. -/
def validateStep (step : WorkflowStep) : Except PyError Unit := do
  raiseIf (.valueError "Step ID is required" []) !step.id.truthy
  raiseIf (.valueError "Step type is required" []) !step.type.truthy
  raiseIf (.valueError "Step name is required" []) !step.name.truthy
  let type ← step.type.hash
  raiseIf (.valueError "Invalid node type: %s" [step.type]) (type ∉ validTypes.map PyKey.str)
  if type = .str "validator" then
    if !(← step.config.contains "schema") then
      raiseIf (.valueError "Validator steps must have a schema or rules" [])
        !(← step.config.contains "rules")
  if type = .str "tool_call" then
    raiseIf (.valueError "Tool call steps must specify a tool" [])
      !(← step.config.contains "tool")

/-! ## `_check_circular_dependencies` -/

/-- `graph[transition.from_step].append(transition.to_step)`, if there is such a node. -/
def addEdge (graph : Dict PyKey (List PyValue)) (transition : WorkflowTransition) :
    Except PyError (Dict PyKey (List PyValue)) := do
  let source ← transition.fromStep.hash
  match graph.get? source with
  | some targets => return graph.set source (targets ++ [transition.toStep])
  | none => return graph

/-- The adjacency list of a specification. -/
def adjacency (ids : List PyKey) (transitions : List WorkflowTransition) :
    Except PyError (Dict PyKey (List PyValue)) :=
  transitions.foldlM addEdge (ids.foldl (fun graph id => graph.set id []) Dict.empty)

/-- `graph.get(node, [])`. -/
def neighbors (graph : Dict PyKey (List PyValue)) (node : PyKey) : List PyValue :=
  (graph.get? node).getD []

/-- `_check_circular_dependencies`. -/
def checkCircularDependencies (limit : ℕ) (spec : WorkflowSpec) : Except PyError Unit := do
  let ids ← spec.steps.mapM fun step => step.id.hash
  let graph ← adjacency ids spec.transitions
  let (found, _) ← DepthFirst.fromRoots
    (DepthFirst.hasCycle .recursionError PyValue.hash (neighbors graph) limit) ids ⟨[], []⟩
  raiseIf (.valueError "Circular dependency detected" []) found

/-! ## `_validate_spec` -/

/-- The name must be there and not be blank. -/
def checkName (name : PyValue) : Except PyError Unit := do
  raiseIf (.valueError "Missing required field: name" []) !name.truthy
  let stripped ← name.strip
  raiseIf (.valueError "Missing required field: name" []) !stripped.truthy

/-- A transition must start at a step and end at a step or at `end`. Both messages
name the end of the transition. -/
def checkReference (ids : List PyKey) (transition : WorkflowTransition) :
    Except PyError Unit := do
  let source ← transition.fromStep.hash
  raiseIf (.valueError "Edge references nonexistent node: %s" [transition.toStep])
    (source ∉ ids)
  let target ← transition.toStep.hash
  raiseIf (.valueError "Edge references nonexistent node: %s" [transition.toStep])
    (target ∉ ids ∧ target ≠ .str "end")

/-- `_validate_spec`. -/
def validateSpec (limit : ℕ) (spec : WorkflowSpec) : Except PyError Unit := do
  checkName spec.name
  let ids ← spec.steps.mapM fun step => step.id.hash
  raiseIf (.valueError "Step IDs must be unique" [])
    (ids.length ≠ ids.dedup.length)
  spec.transitions.forM (checkReference ids)
  checkCircularDependencies limit spec
  spec.steps.forM validateStep

/-! ## Valid specifications -/

/-- A string with a character other than whitespace. -/
def NotBlank (name : PyValue) : Prop :=
  ∃ s, name = .str s ∧ ∃ c ∈ s.toList, PyValue.isSpace c = false

/-- The ids of the steps, as far as they can be told apart. -/
def HasIds (steps : List WorkflowStep) (ids : List PyKey) : Prop :=
  List.Forall₂ (fun step id => step.id.hash = .ok id) steps ids

/-- The transition leads from `a` to `b`. -/
def Leads (transition : WorkflowTransition) (a b : PyKey) : Prop :=
  transition.fromStep.hash = .ok a ∧ transition.toStep.hash = .ok b

/-- Some transition leads from `a` to `b`. -/
def Precedes (transitions : List WorkflowTransition) (a b : PyKey) : Prop :=
  ∃ transition ∈ transitions, Leads transition a b

/-- The transition starts at one of the ids and ends at one of them or at `end`. -/
def Refers (ids : List PyKey) (transition : WorkflowTransition) : Prop :=
  ∃ a b, Leads transition a b ∧ a ∈ ids ∧ (b ∈ ids ∨ b = .str "end")

/-- No walk along transitions returns to where it started. -/
def Acyclic (transitions : List WorkflowTransition) : Prop :=
  ∀ a, ¬ Relation.TransGen (Precedes transitions) a a

/-- A valid specification. -/
structure ValidSpec (spec : WorkflowSpec) : Prop where
  name : NotBlank spec.name
  ids : ∃ ids, HasIds spec.steps ids ∧ ids.Nodup ∧ ∀ t ∈ spec.transitions, Refers ids t
  acyclic : Acyclic spec.transitions
  steps : ∀ step ∈ spec.steps, validateStep step = .ok ()

/-! ## What passes the checks is valid -/

theorem checkName_eq_ok {name : PyValue} : checkName name = .ok () ↔ NotBlank name := by
  unfold checkName
  constructor
  · intro h
    obtain ⟨_, -, h⟩ := bind_eq_ok.mp h
    obtain ⟨stripped, hs, h⟩ := bind_eq_ok.mp h
    have htruthy : stripped.truthy = true := by simpa using raiseIf_eq_ok.mp h
    cases name with
    | str s =>
      obtain rfl := Except.ok.inj hs
      exact ⟨s, rfl, (PyValue.truthy_strip s).mp htruthy⟩
    | _ => simp [PyValue.strip] at hs
  · rintro ⟨s, rfl, hc⟩
    have hne : (PyValue.str s).truthy = true := by
      obtain ⟨c, hc, -⟩ := hc
      refine decide_eq_true fun he => ?_
      subst he
      exact absurd hc List.not_mem_nil
    refine bind_eq_ok.mpr ⟨(), raiseIf_eq_ok.mpr (by simp [hne]), ?_⟩
    refine bind_eq_ok.mpr ⟨_, rfl, raiseIf_eq_ok.mpr ?_⟩
    rw [(PyValue.truthy_strip s).mpr hc]
    rfl

theorem checkReference_eq_ok {ids : List PyKey} {t : WorkflowTransition} :
    checkReference ids t = .ok () ↔ Refers ids t := by
  unfold checkReference
  constructor
  · intro h
    obtain ⟨a, ha, h⟩ := bind_eq_ok.mp h
    obtain ⟨_, hsource, h⟩ := bind_eq_ok.mp h
    obtain ⟨b, hb, h⟩ := bind_eq_ok.mp h
    have hmem : a ∈ ids := by simpa using raiseIf_eq_ok.mp hsource
    have htarget : ¬ (b ∉ ids ∧ b ≠ .str "end") := of_decide_eq_false (raiseIf_eq_ok.mp h)
    exact ⟨a, b, ⟨ha, hb⟩, hmem, by
      by_cases hin : b ∈ ids
      · exact Or.inl hin
      · exact Or.inr (not_not.mp fun hne => htarget ⟨hin, hne⟩)⟩
  · rintro ⟨a, b, ⟨ha, hb⟩, hmem, htarget⟩
    refine bind_eq_ok.mpr ⟨a, ha, bind_eq_ok.mpr ⟨(), raiseIf_eq_ok.mpr (by simpa using hmem), ?_⟩⟩
    refine bind_eq_ok.mpr ⟨b, hb, raiseIf_eq_ok.mpr (decide_eq_false ?_)⟩
    rintro ⟨hin, hne⟩
    exact htarget.elim hin hne

theorem mem_initial {n : PyKey} : ∀ (ids : List PyKey) (graph : Dict PyKey (List PyValue)),
    n ∈ ids.foldl (fun graph id => graph.set id []) graph ↔ n ∈ ids ∨ n ∈ graph
  | [], graph => by simp
  | id :: ids, graph => by
    rw [List.foldl_cons, mem_initial ids, Dict.mem_set, List.mem_cons]
    tauto

/-- The graph without edges. -/
theorem neighbors_initial {n : PyKey} : ∀ (ids : List PyKey) (graph : Dict PyKey (List PyValue)),
    neighbors graph n = [] →
      neighbors (ids.foldl (fun graph id => graph.set id []) graph) n = []
  | [], _, h => h
  | id :: ids, graph, h => by
    refine neighbors_initial ids (graph.set id []) ?_
    unfold neighbors at h ⊢
    by_cases he : n = id
    · simp [he]
    · rwa [Dict.get?_set_ne _ _ he]

/-- An added edge is appended to the neighbours of its source, if that is a node. -/
theorem neighbors_addEdge {graph graph' : Dict PyKey (List PyValue)} {t : WorkflowTransition}
    (h : addEdge graph t = .ok graph') :
    ∃ k, t.fromStep.hash = .ok k ∧ (∀ n, n ∈ graph' ↔ n ∈ graph) ∧
      ∀ n, neighbors graph' n =
        neighbors graph n ++ if n = k ∧ k ∈ graph then [t.toStep] else [] := by
  obtain ⟨k, hk, h⟩ := bind_eq_ok.mp h
  refine ⟨k, hk, ?_⟩
  unfold neighbors
  cases hget : graph.get? k with
  | none =>
    simp only [hget] at h
    obtain rfl := Except.ok.inj h
    have hmem : k ∉ graph := Dict.get?_eq_none.mp hget
    exact ⟨fun n => Iff.rfl, fun n => by simp [hmem]⟩
  | some targets =>
    simp only [hget] at h
    obtain rfl := Except.ok.inj h
    have hmem : k ∈ graph := Dict.mem_of_get? hget
    refine ⟨fun n => ?_, fun n => ?_⟩
    · rw [Dict.mem_set]
      exact ⟨fun hn => hn.elim (fun he => he ▸ hmem) id, Or.inr⟩
    · by_cases hn : n = k
      · subst hn
        simp [hget, hmem]
      · simp [Dict.get?_set_ne _ _ hn, hn]

/-- The adjacency list holds an edge from a node exactly where it held one before or a
transition starts at that node. -/
theorem mem_neighbors_foldlM {n : PyKey} {v : PyValue} :
    ∀ (ts : List WorkflowTransition) (graph graph' : Dict PyKey (List PyValue)),
      ts.foldlM addEdge graph = .ok graph' → n ∈ graph →
      (v ∈ neighbors graph' n ↔
        v ∈ neighbors graph n ∨ ∃ t ∈ ts, t.fromStep.hash = .ok n ∧ t.toStep = v)
  | [], graph, graph', h, _ => by
    obtain rfl := Except.ok.inj h
    simp
  | t :: ts, graph, graph', h, hn => by
    rw [List.foldlM_cons] at h
    obtain ⟨graph₁, h₁, h⟩ := bind_eq_ok.mp h
    obtain ⟨k, hk, hmem, hnext⟩ := neighbors_addEdge h₁
    rw [mem_neighbors_foldlM ts graph₁ graph' h ((hmem n).mpr hn), hnext n, List.mem_append,
      or_assoc]
    refine or_congr_right ?_
    simp only [List.mem_cons, exists_eq_or_imp, hk, Except.ok.injEq]
    refine or_congr_left ?_
    by_cases he : n = k
    · subst he
      simp [hn, eq_comm]
    · simp [he, Ne.symm he]

theorem mem_neighbors_adjacency {ids : List PyKey} {ts : List WorkflowTransition}
    {graph : Dict PyKey (List PyValue)} (h : adjacency ids ts = .ok graph) {n : PyKey}
    (hn : n ∈ ids) {v : PyValue} :
    v ∈ neighbors graph n ↔ ∃ t ∈ ts, t.fromStep.hash = .ok n ∧ t.toStep = v := by
  rw [mem_neighbors_foldlM ts _ graph h ((mem_initial ids _).mpr (Or.inl hn)),
    neighbors_initial ids Dict.empty rfl]
  simp

/-- Where every transition starts at a step, a specification that the search accepts has
no cycle. -/
theorem acyclic_of_check {limit : ℕ} {spec : WorkflowSpec} {ids : List PyKey}
    (hids : HasIds spec.steps ids) (href : ∀ t ∈ spec.transitions, Refers ids t)
    (h : checkCircularDependencies limit spec = .ok ()) : Acyclic spec.transitions := by
  obtain ⟨ids', hids', h⟩ := bind_eq_ok.mp h
  obtain rfl : ids = ids' := Except.ok.inj ((mapM_eq_ok.mpr hids).symm.trans hids')
  obtain ⟨graph, hgraph, h⟩ := bind_eq_ok.mp h
  obtain ⟨⟨found, search⟩, hsearch, h⟩ := bind_eq_ok.mp h
  obtain rfl : found = false := raiseIf_eq_ok.mp h
  have hsource : ∀ a b, Precedes spec.transitions a b → a ∈ ids := by
    rintro a b ⟨t, ht, ha, -⟩
    obtain ⟨a', b', ⟨ha', -⟩, hmem, -⟩ := href t ht
    exact Except.ok.inj (ha.symm.trans ha') ▸ hmem
  have hedge : ∀ a b, Precedes spec.transitions a b →
      DepthFirst.Edge PyValue.hash (neighbors graph) a b := by
    intro a b hab
    have ha : a ∈ ids := hsource a b hab
    obtain ⟨t, ht, hta, htb⟩ := hab
    exact ⟨t.toStep, (mem_neighbors_adjacency hgraph ha).mpr ⟨t, ht, hta, rfl⟩, htb⟩
  intro a ha
  obtain ⟨b, hab, -⟩ := Relation.TransGen.head'_iff.mp ha
  exact DepthFirst.not_transGen_of_fromRoots hedge hsearch (hsource a b hab) ha

/-- A specification that `_validate_spec` lets pass is valid. -/
theorem validSpec_of_validateSpec {limit : ℕ} {spec : WorkflowSpec}
    (h : validateSpec limit spec = .ok ()) : ValidSpec spec := by
  obtain ⟨_, hname, h⟩ := bind_eq_ok.mp h
  obtain ⟨ids, hids, h⟩ := bind_eq_ok.mp h
  obtain ⟨_, hunique, h⟩ := bind_eq_ok.mp h
  obtain ⟨_, href, h⟩ := bind_eq_ok.mp h
  obtain ⟨_, hcycle, hsteps⟩ := bind_eq_ok.mp h
  have hids : HasIds spec.steps ids := mapM_eq_ok.mp hids
  have href : ∀ t ∈ spec.transitions, Refers ids t := fun t ht =>
    checkReference_eq_ok.mp (forM_eq_ok.mp href t ht)
  have hlen : ids.length = ids.dedup.length := by simpa using raiseIf_eq_ok.mp hunique
  have hnodup : ids.Nodup := by
    rw [← List.dedup_eq_self]
    exact (List.dedup_sublist ids).eq_of_length hlen.symm
  exact ⟨checkName_eq_ok.mp hname, ⟨ids, hids, hnodup, href⟩, acyclic_of_check hids href hcycle,
    forM_eq_ok.mp hsteps⟩

end WorkflowLoader

end MultiAgent
