import MultiAgent.Workflows.WorkflowErrors

/-!
# Cycles of a workflow

The search of `_check_circular_dependencies` follows the transitions that start at a step
(`if transition.from_step in graph`), from every step that it has not come to before. It
reports exactly the cycles of these (`checkCircularDependencies_cases`); a transition that
starts at a name without a step is on none of them. So a valid specification passes the
validation, if there is room for the search (`validateSpec_eq_ok`).
-/

namespace MultiAgent

namespace WorkflowLoader

open Fallible

/-- A transition leads from the step `a` to `b`. -/
def StepEdge (ids : List PyKey) (transitions : List WorkflowTransition) (a b : PyKey) : Prop :=
  a ∈ ids ∧ Precedes transitions a b

/-- Some step lies on a cycle of transitions that start at steps. -/
def HasCycle (ids : List PyKey) (transitions : List WorkflowTransition) : Prop :=
  ∃ a ∈ ids, Relation.TransGen (StepEdge ids transitions) a a

/-- Both ends of every transition are names. -/
def HasEnds (transitions : List WorkflowTransition) : Prop :=
  ∀ t ∈ transitions, ∃ a b, Leads t a b

/-- What is raised where there is a cycle. -/
def circularDependency : PyError :=
  .valueError "Circular dependency detected" []

/-! ## The adjacency list -/

theorem mem_foldlM_addEdge {n : PyKey} :
    ∀ (ts : List WorkflowTransition) (graph graph' : Dict PyKey (List PyValue)),
      ts.foldlM addEdge graph = .ok graph' → (n ∈ graph' ↔ n ∈ graph)
  | [], graph, graph', h => by
    obtain rfl := Except.ok.inj h
    exact Iff.rfl
  | t :: ts, graph, graph', h => by
    rw [List.foldlM_cons] at h
    obtain ⟨graph₁, h₁, h⟩ := bind_eq_ok.mp h
    obtain ⟨k, -, hmem, -⟩ := neighbors_addEdge h₁
    exact (mem_foldlM_addEdge ts graph₁ graph' h).trans (hmem n)

/-- The nodes of the adjacency list are the steps. -/
theorem mem_adjacency {ids : List PyKey} {ts : List WorkflowTransition}
    {graph : Dict PyKey (List PyValue)} (h : adjacency ids ts = .ok graph) {n : PyKey} :
    n ∈ graph ↔ n ∈ ids := by
  refine (mem_foldlM_addEdge ts _ graph h).trans ((mem_initial ids _).trans ?_)
  simp

/-- The edges of the adjacency list are the transitions that start at steps. -/
theorem stepEdge_iff_edge {ids : List PyKey} {ts : List WorkflowTransition}
    {graph : Dict PyKey (List PyValue)} (h : adjacency ids ts = .ok graph) (a b : PyKey) :
    StepEdge ids ts a b ↔ DepthFirst.Edge PyValue.hash (neighbors graph) a b := by
  constructor
  · rintro ⟨ha, t, ht, hta, htb⟩
    exact ⟨t.toStep, (mem_neighbors_adjacency h ha).mpr ⟨t, ht, hta, rfl⟩, htb⟩
  · rintro ⟨v, hv, hb⟩
    by_cases ha : a ∈ ids
    · obtain ⟨t, ht, hta, rfl⟩ := (mem_neighbors_adjacency h ha).mp hv
      exact ⟨ha, t, ht, hta, hb⟩
    · have hnone : graph.get? a = none :=
        Dict.get?_eq_none.mpr fun hmem => ha ((mem_adjacency h).mp hmem)
      simp [neighbors, hnone] at hv

theorem exists_addEdge (graph : Dict PyKey (List PyValue)) {t : WorkflowTransition} {k : PyKey}
    (h : t.fromStep.hash = .ok k) : ∃ graph', addEdge graph t = .ok graph' := by
  unfold addEdge
  rw [h, ok_bind]
  cases graph.get? k with
  | none => exact ⟨_, rfl⟩
  | some targets => exact ⟨_, rfl⟩

/-- The adjacency list of transitions with ends can be built. -/
theorem exists_adjacency (ids : List PyKey) {ts : List WorkflowTransition} (hends : HasEnds ts) :
    ∃ graph, adjacency ids ts = .ok graph := by
  unfold adjacency
  generalize ids.foldl (fun graph id => graph.set id []) Dict.empty = graph
  induction ts generalizing graph with
  | nil => exact ⟨graph, rfl⟩
  | cons t ts ih =>
    obtain ⟨a, b, ha, -⟩ := hends t List.mem_cons_self
    obtain ⟨graph₁, h₁⟩ := exists_addEdge graph ha
    obtain ⟨graph', h⟩ := ih (fun t' ht' => hends t' (List.mem_cons_of_mem t ht')) graph₁
    exact ⟨graph', by rw [List.foldlM_cons, h₁, ok_bind, h]⟩

/-- The neighbours of a node are names. -/
theorem hash_of_mem_neighbors {ids : List PyKey} {ts : List WorkflowTransition}
    {graph : Dict PyKey (List PyValue)} (hends : HasEnds ts) (h : adjacency ids ts = .ok graph)
    {n : PyKey} {v : PyValue} (hv : v ∈ neighbors graph n) : ∃ b, v.hash = .ok b := by
  have hempty : v ∉ neighbors (ids.foldl (fun graph id => graph.set id []) Dict.empty) n := by
    rw [neighbors_initial ids Dict.empty rfl]
    exact List.not_mem_nil
  have hto := (toStep_of_mem_neighbors ts _ graph h hv).resolve_left hempty
  obtain ⟨t, ht, rfl⟩ := List.mem_map.mp hto
  obtain ⟨a, b, -, hb⟩ := hends t ht
  exact ⟨b, hb⟩

/-! ## What the check raises -/

/-- A node on a cycle of transitions that start at steps is a step. -/
theorem hasCycle_iff {ids : List PyKey} {ts : List WorkflowTransition} :
    HasCycle ids ts ↔ ∃ a, Relation.TransGen (StepEdge ids ts) a a := by
  constructor
  · rintro ⟨a, -, ha⟩
    exact ⟨a, ha⟩
  · rintro ⟨a, ha⟩
    obtain ⟨b, hab, -⟩ := Relation.TransGen.head'_iff.mp ha
    exact ⟨a, hab.1, ha⟩

/-- `_check_circular_dependencies` ends : with `ValueError` where some step lies on a cycle of
transitions that start at steps, with nothing raised where none does, or, if there is no room
for a call for each node, with `RecursionError`. -/
theorem checkCircularDependencies_cases (limit : ℕ) {spec : WorkflowSpec} {ids : List PyKey}
    (hids : HasIds spec.steps ids) (hends : HasEnds spec.transitions) :
    (checkCircularDependencies limit spec = .error circularDependency ∧
      HasCycle ids spec.transitions) ∨
    (checkCircularDependencies limit spec = .ok () ∧ ¬HasCycle ids spec.transitions) ∨
    (checkCircularDependencies limit spec = .error .recursionError ∧
      limit < (nodesOf spec).card) := by
  obtain ⟨graph, hgraph⟩ := exists_adjacency ids hends
  have hedge := stepEdge_iff_edge hgraph
  have hcheck : checkCircularDependencies limit spec =
      DepthFirst.fromRoots (DepthFirst.hasCycle .recursionError PyValue.hash (neighbors graph)
        limit) ids ⟨[], []⟩ >>= fun result => raiseIf circularDependency result.1 := by
    unfold checkCircularDependencies
    rw [mapM_eq_ok.mpr hids, ok_bind, hgraph, ok_bind]
    rfl
  cases hsearch : DepthFirst.fromRoots (DepthFirst.hasCycle .recursionError PyValue.hash
      (neighbors graph) limit) ids ⟨[], []⟩ with
  | error e =>
    have he : e = .recursionError := by
      by_contra hne
      refine DepthFirst.fromRoots_ne_error hne (fun n v hv => ?_) limit ids ⟨[], []⟩ hsearch
      obtain ⟨b, hb⟩ := hash_of_mem_neighbors hends hgraph hv
      rw [hb]
      exact nofun
    subst he
    have hraise : checkCircularDependencies limit spec = .error .recursionError := by
      rw [hcheck, hsearch]
      rfl
    refine Or.inr (Or.inr ⟨hraise, ?_⟩)
    by_contra hroom
    exact avoids_checkCircularDependencies (Nat.le_of_not_lt hroom) hraise
  | ok result =>
    obtain ⟨found, search⟩ := result
    rw [hsearch, ok_bind] at hcheck
    cases found with
    | true =>
      refine Or.inl ⟨hcheck, hasCycle_iff.mpr ?_⟩
      exact DepthFirst.exists_transGen_of_fromRoots hedge ids ⟨[], []⟩ search
        DepthFirst.sound_empty (fun _ => List.not_mem_nil) hsearch
    | false =>
      refine Or.inr (Or.inl ⟨hcheck, ?_⟩)
      rintro ⟨a, ha, hcycle⟩
      exact DepthFirst.not_transGen_of_fromRoots (fun a b => (hedge a b).mp) hsearch ha hcycle

/-! ## Valid specifications -/

theorem hasEnds_of_refers {ids : List PyKey} {ts : List WorkflowTransition}
    (h : ∀ t ∈ ts, Refers ids t) : HasEnds ts := by
  intro t ht
  obtain ⟨a, b, hab, -⟩ := h t ht
  exact ⟨a, b, hab⟩

theorem not_hasCycle_of_acyclic {ids : List PyKey} {ts : List WorkflowTransition}
    (h : Acyclic ts) : ¬HasCycle ids ts := by
  rintro ⟨a, -, ha⟩
  exact h a (Relation.TransGen.mono (fun _ _ hab => hab.2) _ _ ha)

/-- With room for a call for each node, what passes is what is valid. -/
theorem validateSpec_eq_ok {limit : ℕ} {spec : WorkflowSpec}
    (hroom : (nodesOf spec).card ≤ limit) :
    validateSpec limit spec = .ok () ↔ ValidSpec spec := by
  refine ⟨validSpec_of_validateSpec, fun h => ?_⟩
  obtain ⟨ids, hids, hnodup, href⟩ := h.ids
  have hcheck : checkCircularDependencies limit spec = .ok () := by
    rcases checkCircularDependencies_cases limit hids (hasEnds_of_refers href) with hc | hc | hc
    · exact absurd hc.2 (not_hasCycle_of_acyclic h.acyclic)
    · exact hc.1
    · exact absurd hc.2 (Nat.not_lt.mpr hroom)
  refine bind_eq_ok.mpr ⟨(), checkName_eq_ok.mpr h.name, ?_⟩
  refine bind_eq_ok.mpr ⟨ids, mapM_eq_ok.mpr hids, ?_⟩
  refine bind_eq_ok.mpr ⟨(), raiseIf_eq_ok.mpr (by simp [hnodup.dedup]), ?_⟩
  refine bind_eq_ok.mpr ⟨(), forM_eq_ok.mpr fun t ht => checkReference_eq_ok.mpr (href t ht), ?_⟩
  exact bind_eq_ok.mpr ⟨(), hcheck, forM_eq_ok.mpr h.steps⟩

/-! ## A cycle that is found, and one that is not looked for -/

/-- A specification of steps and transitions that have names only. -/
def drawn (ids : List String) (edges : List (String × String)) : WorkflowSpec where
  name := .null
  version := .null
  description := .null
  settings := .null
  steps := ids.map fun id => ⟨.str id, .null, .null, .null, .null⟩
  transitions := edges.map fun edge => ⟨.str edge.1, .str edge.2, .null, .null⟩
  tools := .null
  errorHandling := .null
  metrics := .null
  featureFlags := .null
  quotas := .null
  security := .null
  monitoring := .null

theorem hasEnds_drawn (ids : List String) (edges : List (String × String)) :
    HasEnds (drawn ids edges).transitions := by
  intro t ht
  obtain ⟨edge, -, rfl⟩ := List.mem_map.mp ht
  exact ⟨.str edge.1, .str edge.2, rfl, rfl⟩

/-- Two steps that lead to each other. -/
theorem checkCircularDependencies_loop :
    HasCycle [.str "a", .str "b"] (drawn ["a", "b"] [("a", "b"), ("b", "a")]).transitions := by
  have hraise : checkCircularDependencies 2 (drawn ["a", "b"] [("a", "b"), ("b", "a")]) =
      .error circularDependency := rfl
  have hids : HasIds (drawn ["a", "b"] [("a", "b"), ("b", "a")]).steps [.str "a", .str "b"] :=
    .cons rfl (.cons rfl .nil)
  rcases checkCircularDependencies_cases 2 hids (hasEnds_drawn _ _) with h | h | h
  · exact h.2
  · rw [hraise] at h
    cases h.1
  · rw [hraise] at h
    cases h.1

/-- A step leads to a name without a step, and that name to the step. -/
theorem not_checkCircularDependencies_every :
    ¬∀ (limit : ℕ) (spec : WorkflowSpec) (ids : List PyKey), HasIds spec.steps ids → ids.Nodup →
      HasEnds spec.transitions → (nodesOf spec).card ≤ limit →
      ((∃ e, checkCircularDependencies limit spec = .error e) ↔
        ∃ a ∈ ids, Relation.TransGen (Precedes spec.transitions) a a) := by
  intro hall
  have hiff := hall 2 (drawn ["a"] [("a", "u"), ("u", "a")]) [.str "a"] (.cons rfl .nil)
    (List.nodup_singleton _) (hasEnds_drawn _ _) (by decide)
  have hthere : Precedes (drawn ["a"] [("a", "u"), ("u", "a")]).transitions (.str "a")
      (.str "u") := ⟨_, List.mem_cons_self, rfl, rfl⟩
  have hback : Precedes (drawn ["a"] [("a", "u"), ("u", "a")]).transitions (.str "u")
      (.str "a") := ⟨_, List.mem_cons_of_mem _ List.mem_cons_self, rfl, rfl⟩
  obtain ⟨e, he⟩ := hiff.mpr ⟨_, List.mem_cons_self, .tail (.single hthere) hback⟩
  have hpass : checkCircularDependencies 2 (drawn ["a"] [("a", "u"), ("u", "a")]) = .ok () := rfl
  rw [hpass] at he
  cases he

end WorkflowLoader

end MultiAgent
