import MultiAgent.Workflows.WorkflowInsertion

/-!
# The chain of inserted nodes

A chain from a target through new nodes to what the target led to before needs an edge from
each node to the next (`ChainEdge`). `_apply_insert_after` adds edges from the target to every
new node and from every new node to the one behind the target in the list (`AddedEdge`). These
are the same for one new node, if the target led to the node behind it in the list and to
nothing else, or to nothing and no node is behind it; for more new nodes they never are
(`addedEdge_iff_chainEdge`). A new node put in on an edge makes no cycle
(`not_transGen_putIn`), so what is loaded is valid in that case (`validSpec_inserted`).
-/

namespace MultiAgent

namespace WorkflowLoader

open Fallible

/-! ## An edge with a node put in -/

/-- The edges with a node `n` put in between `t` and, if there is one, `next`. -/
def PutIn {ν : Type*} (E : ν → ν → Prop) (t n : ν) (next : Option ν) (a b : ν) : Prop :=
  E a b ∨ a = t ∧ b = n ∨ a = n ∧ next = some b

section PutIn

variable {ν : Type*} {E : ν → ν → Prop} {t n : ν} {next : Option ν}

/-- A walk along the new edges is one along the old ones, up to the node that was put in. -/
theorem walk_putIn (hnew : ∀ a, ¬E a n ∧ ¬E n a) (hnext : ∀ b, next = some b → E t b) {a b : ν}
    (ha : a ≠ n) (h : Relation.TransGen (PutIn E t n next) a b) :
    b ≠ n ∧ Relation.TransGen E a b ∨ b = n ∧ Relation.ReflTransGen E a t := by
  have hne : ∀ {c d}, E c d → d ≠ n := fun hcd hd => (hnew _).1 (hd ▸ hcd)
  induction h with
  | single h =>
    rcases h with h | ⟨rfl, rfl⟩ | ⟨rfl, -⟩
    · exact Or.inl ⟨hne h, .single h⟩
    · exact Or.inr ⟨rfl, .refl⟩
    · exact absurd rfl ha
  | tail _ h ih =>
    rcases h with h | ⟨rfl, rfl⟩ | ⟨rfl, hd⟩
    · rcases ih with ⟨-, ih⟩ | ⟨rfl, -⟩
      · exact Or.inl ⟨hne h, ih.tail h⟩
      · exact absurd h (hnew _).2
    · rcases ih with ⟨-, ih⟩ | ⟨-, ih⟩
      · exact Or.inr ⟨rfl, ih.to_reflTransGen⟩
      · exact Or.inr ⟨rfl, ih⟩
    · rcases ih with ⟨hc, -⟩ | ⟨-, ih⟩
      · exact absurd rfl hc
      · exact Or.inl ⟨hne (hnext _ hd), .tail' ih (hnext _ hd)⟩

/-- A new node put in on an edge makes no cycle. -/
theorem not_transGen_putIn (hE : ∀ a, ¬Relation.TransGen E a a) (hnew : ∀ a, ¬E a n ∧ ¬E n a)
    (hnext : ∀ b, next = some b → E t b) (htn : t ≠ n) (a : ν) :
    ¬Relation.TransGen (PutIn E t n next) a a := by
  intro h
  by_cases ha : a = n
  · subst ha
    obtain ⟨b, hab, hba⟩ := Relation.TransGen.head'_iff.mp h
    rcases hab with hab | ⟨rfl, -⟩ | ⟨-, hb⟩
    · exact (hnew b).2 hab
    · exact htn rfl
    · -- the walk leaves the node for `next` and comes back to it through `t`
      have hbn : b ≠ a := fun he => (hnew t).1 (he ▸ hnext b hb)
      have hba := (Relation.reflTransGen_iff_eq_or_transGen.mp hba).resolve_left (Ne.symm hbn)
      rcases walk_putIn hnew hnext hbn hba with ⟨hne, -⟩ | ⟨-, hbt⟩
      · exact hne rfl
      · exact hE t (.head' (hnext b hb) hbt)
  · rcases walk_putIn hnew hnext ha h with ⟨-, h⟩ | ⟨he, -⟩
    · exact hE a h
    · exact ha he

end PutIn

/-! ## The edges of the chain and those that are added -/

/-- The edges of a chain from the target through the new nodes to the successors. -/
def ChainEdge {ν : Type*} (target : ν) (newIds : List ν) (Succ : ν → Prop) (a b : ν) : Prop :=
  [a, b] <:+: target :: newIds ∨ newIds.getLast? = some a ∧ Succ b

/-- The edges that are added. -/
def AddedEdge {ν : Type*} (target : ν) (newIds : List ν) (next : Option ν) (a b : ν) : Prop :=
  ∃ n ∈ newIds, a = target ∧ b = n ∨ a = n ∧ next = some b

section Edges

variable {ν : Type*} {target : ν} {Succ : ν → Prop} {next : Option ν}

theorem chainEdge_singleton {n a b : ν} :
    ChainEdge target [n] Succ a b ↔ a = target ∧ b = n ∨ a = n ∧ Succ b := by
  have hpair : [a, b] <:+: [target, n] ↔ a = target ∧ b = n := by
    constructor
    · intro h
      have heq : [a, b] = [target, n] := h.eq_of_length rfl
      simpa using heq
    · rintro ⟨rfl, rfl⟩
      exact List.infix_refl _
  unfold ChainEdge
  rw [hpair, List.getLast?_singleton, Option.some.injEq, eq_comm (a := n)]

theorem addedEdge_singleton {n a b : ν} :
    AddedEdge target [n] next a b ↔ a = target ∧ b = n ∨ a = n ∧ next = some b := by
  unfold AddedEdge
  simp

/-- The target leads to the second of the new nodes by an edge that is not one of the chain. -/
theorem not_chainEdge_second {m n : ν} {newIds : List ν} (hnodup : (m :: n :: newIds).Nodup)
    (htarget : target ∉ m :: n :: newIds) :
    ¬ChainEdge target (m :: n :: newIds) Succ target n := by
  rintro (h | ⟨h, -⟩)
  · rcases List.infix_cons_iff.mp h with h | h
    · obtain ⟨-, h⟩ := List.cons_prefix_cons.mp h
      obtain ⟨rfl, -⟩ := List.cons_prefix_cons.mp h
      exact (List.nodup_cons.mp hnodup).1 List.mem_cons_self
    · exact htarget (h.subset List.mem_cons_self)
  · exact htarget (List.mem_of_getLast? h)

/-- When the added edges are those of the chain. -/
theorem addedEdge_iff_chainEdge {newIds : List ν} (hnodup : newIds.Nodup)
    (htarget : target ∉ newIds) :
    (∀ a b, AddedEdge target newIds next a b ↔ ChainEdge target newIds Succ a b) ↔
      newIds = [] ∨ (∃ n, newIds = [n]) ∧ ∀ b, Succ b ↔ next = some b := by
  match newIds with
  | [] =>
    refine iff_of_true (fun a b => iff_of_false ?_ ?_) (Or.inl rfl)
    · rintro ⟨n, hn, -⟩
      exact absurd hn List.not_mem_nil
    · rintro (h | ⟨h, -⟩)
      · exact absurd h.length_le (by simp)
      · cases h
  | [n] =>
    have hn : n ≠ target := fun he => htarget (he ▸ List.mem_cons_self)
    constructor
    · intro h
      refine Or.inr ⟨⟨n, rfl⟩, fun b => ?_⟩
      have hb := h n b
      rw [addedEdge_singleton, chainEdge_singleton] at hb
      simpa [hn] using hb.symm
    · rintro (h | ⟨-, h⟩) a b
      · cases h
      · rw [addedEdge_singleton, chainEdge_singleton, h]
  | m :: n :: newIds =>
    refine iff_of_false (fun h => not_chainEdge_second hnodup htarget ((h target n).mp ?_)) ?_
    · exact ⟨n, List.mem_cons_of_mem m List.mem_cons_self, Or.inl ⟨rfl, rfl⟩⟩
    · rintro (h | ⟨⟨k, h⟩, -⟩)
      · cases h
      · cases h

end Edges

/-! ## The transitions -/

theorem precedes_append {l m : List WorkflowTransition} {a b : PyKey} :
    Precedes (l ++ m) a b ↔ Precedes l a b ∨ Precedes m a b := by
  unfold Precedes
  simp only [List.mem_append, or_and_right, exists_or]

/-- The step at an index has the id at that index. -/
theorem hash_getElem?_iff : ∀ {steps : List WorkflowStep} {ids : List PyKey}, HasIds steps ids →
    ∀ (i : ℕ) (b : PyKey),
      (∃ v, steps[i]?.map WorkflowStep.id = some v ∧ v.hash = .ok b) ↔ ids[i]? = some b
  | _, _, .nil, i, b => by simp
  | step :: steps, id :: ids, .cons hid hids, 0, b => by
    simp [hid]
  | step :: steps, id :: ids, .cons hid hids, i + 1, b => hash_getElem?_iff hids i b

/-- The transitions that are added are those of the added edges. -/
theorem precedes_addedTransition {target : PyKey} {newSteps : List WorkflowStep}
    {newIds : List PyKey} (hnew : HasIds newSteps newIds) {next : Option PyValue}
    {nextId : Option PyKey} (hnext : ∀ b, (∃ v, next = some v ∧ v.hash = .ok b) ↔ nextId = some b)
    (a b : PyKey) :
    Precedes ((addedEnds target.toValue next (newSteps.map WorkflowStep.id)).map addedTransition)
      a b ↔ AddedEdge target newIds nextId a b := by
  constructor
  · rintro ⟨t, ht, hta, htb⟩
    obtain ⟨ends, hends, rfl⟩ := List.mem_map.mp ht
    obtain ⟨newId, hid, hends⟩ := List.mem_flatMap.mp hends
    obtain ⟨step, hstep, rfl⟩ := List.mem_map.mp hid
    obtain ⟨n, hn, hkey⟩ := exists_of_forall₂ hnew hstep
    refine ⟨n, hn, ?_⟩
    rcases List.mem_cons.mp hends with rfl | hends
    · have ha : target = a := Except.ok.inj ((PyValue.hash_toValue target).symm.trans hta)
      have hb : n = b := Except.ok.inj (hkey.symm.trans htb)
      exact Or.inl ⟨ha.symm, hb.symm⟩
    · obtain ⟨v, hv, rfl⟩ := List.mem_map.mp hends
      have ha : n = a := Except.ok.inj (hkey.symm.trans hta)
      exact Or.inr ⟨ha.symm, (hnext b).mp ⟨v, Option.mem_toList.mp hv, htb⟩⟩
  · rintro ⟨n, hn, h⟩
    obtain ⟨step, hstep, hkey⟩ := exists_of_forall₂ hnew.flip hn
    have hid : step.id ∈ newSteps.map WorkflowStep.id := List.mem_map_of_mem hstep
    rcases h with ⟨rfl, rfl⟩ | ⟨rfl, hb⟩
    · exact ⟨_, List.mem_map_of_mem (List.mem_flatMap.mpr ⟨step.id, hid, List.mem_cons_self⟩),
        PyValue.hash_toValue a, hkey⟩
    · obtain ⟨v, hv, hvb⟩ := (hnext b).mpr hb
      exact ⟨_, List.mem_map_of_mem (List.mem_flatMap.mpr ⟨step.id, hid, List.mem_cons_of_mem _
        (List.mem_map_of_mem (Option.mem_toList.mpr hv))⟩), hkey, hvb⟩

/-- The transitions that are added have ends. -/
theorem hasEnds_addedTransition {target : PyKey} {newSteps : List WorkflowStep}
    {newIds : List PyKey} (hnew : HasIds newSteps newIds) {next : Option PyValue}
    (hnext : ∀ v, next = some v → ∃ b, v.hash = .ok b) :
    HasEnds ((addedEnds target.toValue next (newSteps.map WorkflowStep.id)).map
      addedTransition) := by
  intro t ht
  obtain ⟨ends, hends, rfl⟩ := List.mem_map.mp ht
  obtain ⟨newId, hid, hends⟩ := List.mem_flatMap.mp hends
  obtain ⟨step, hstep, rfl⟩ := List.mem_map.mp hid
  obtain ⟨n, -, hkey⟩ := exists_of_forall₂ hnew hstep
  rcases List.mem_cons.mp hends with rfl | hends
  · exact ⟨target, n, PyValue.hash_toValue target, hkey⟩
  · obtain ⟨v, hv, rfl⟩ := List.mem_map.mp hends
    obtain ⟨b, hb⟩ := hnext v (Option.mem_toList.mp hv)
    exact ⟨n, b, hkey, hb⟩

section Inserted

variable {data : Dict PyKey PyValue} {spec : WorkflowSpec} {ids newIds : List PyKey}
  {target : PyKey} {newNodes : List PyValue} {newSteps : List WorkflowStep}

theorem hasIds_unique {steps : List WorkflowStep} {ids ids' : List PyKey} (h : HasIds steps ids)
    (h' : HasIds steps ids') : ids = ids' :=
  Except.ok.inj ((mapM_eq_ok.mpr h).symm.trans (mapM_eq_ok.mpr h'))

theorem ValidData.refers (h : ValidData data spec ids) :
    ids.Nodup ∧ ∀ t ∈ spec.transitions, Refers ids t := by
  obtain ⟨ids', hids, hnodup, href⟩ := h.valid.ids
  obtain rfl := hasIds_unique h.hasIds hids
  exact ⟨hnodup, href⟩

/-- No transition of the workflow starts or ends at a new node. -/
theorem NewNodes.not_precedes (hnew : NewNodes spec ids newNodes newSteps newIds)
    (h : ValidData data spec ids) {n : PyKey} (hn : n ∈ newIds) (a : PyKey) :
    ¬Precedes spec.transitions a n ∧ ¬Precedes spec.transitions n a := by
  refine ⟨(hnew.fresh n hn).2 a, ?_⟩
  rintro ⟨t, ht, hna, -⟩
  obtain ⟨c, d, ⟨hc, -⟩, hmem, -⟩ := h.refers.2 t ht
  obtain rfl := Except.ok.inj (hna.symm.trans hc)
  exact (hnew.fresh n hn).1 hmem

/-- What leads where after the insertion. -/
theorem precedes_inserted (h : ValidData data spec ids) (hnew : HasIds newSteps newIds)
    (a b : PyKey) :
    Precedes (inserted spec target (ids.idxOf target) newSteps).transitions a b ↔
      Precedes spec.transitions a b ∨
        AddedEdge target newIds ids[ids.idxOf target + 1]? a b :=
  precedes_append.trans (or_congr_right
    (precedes_addedTransition hnew (hash_getElem?_iff h.hasIds _) a b))

/-- The specification has the new steps somewhere among its own, and it has the transitions it
had and exactly those of the chain. -/
structure Chains (old new : WorkflowSpec) (target : PyKey) (newSteps : List WorkflowStep)
    (newIds : List PyKey) : Prop where
  steps : ∃ front back, old.steps = front ++ back ∧ new.steps = front ++ newSteps ++ back
  transitions : ∃ added, new.transitions = old.transitions ++ added ∧ ∀ a b,
    Precedes added a b ↔ ChainEdge target newIds (Precedes old.transitions target) a b

theorem chains_inserted_iff (h : ValidData data spec ids) (htarget : target ∈ ids)
    (hnew : NewNodes spec ids newNodes newSteps newIds) :
    Chains spec (inserted spec target (ids.idxOf target) newSteps) target newSteps newIds ↔
      newIds = [] ∨ (∃ n, newIds = [n]) ∧
        ∀ b, Precedes spec.transitions target b ↔ ids[ids.idxOf target + 1]? = some b := by
  have hfresh : target ∉ newIds := fun hmem => (hnew.fresh target hmem).1 htarget
  have hadded : ∀ a b, Precedes _ a b ↔ AddedEdge target newIds _ a b :=
    precedes_addedTransition hnew.hasIds (hash_getElem?_iff h.hasIds (ids.idxOf target + 1))
  rw [← addedEdge_iff_chainEdge hnew.nodup hfresh]
  constructor
  · rintro ⟨-, added, heq, hchain⟩ a b
    obtain rfl := List.append_cancel_left heq
    rw [← hadded, hchain]
  · intro hchain
    refine ⟨⟨_, _, (List.take_append_drop _ _).symm, rfl⟩, _, rfl, fun a b => ?_⟩
    rw [hadded, hchain]

/-- The steps are valid and the transitions lead from step to step after every insertion. -/
theorem ids_inserted (h : ValidData data spec ids) (htarget : target ∈ ids)
    (hnew : NewNodes spec ids newNodes newSteps newIds) :
    ∃ ids', HasIds (inserted spec target (ids.idxOf target) newSteps).steps ids' ∧ ids'.Nodup ∧
      ∀ t ∈ (inserted spec target (ids.idxOf target) newSteps).transitions, Refers ids' t := by
  obtain ⟨hnodup, href⟩ := h.refers
  set index := ids.idxOf target
  have hperm : (ids.take (index + 1) ++ newIds ++ ids.drop (index + 1)).Perm (ids ++ newIds) := by
    rw [List.append_assoc]
    refine (List.perm_append_comm.append_left _).trans ?_
    rw [← List.append_assoc, List.take_append_drop]
  have hmem : ∀ {n}, n ∈ ids ∨ n ∈ newIds →
      n ∈ ids.take (index + 1) ++ newIds ++ ids.drop (index + 1) := fun hn =>
    hperm.mem_iff.mpr (List.mem_append.mpr hn)
  refine ⟨ids.take (index + 1) ++ newIds ++ ids.drop (index + 1), ?_, ?_, fun t ht => ?_⟩
  · exact List.rel_append
      (List.rel_append (List.forall₂_take (index + 1) h.hasIds) hnew.hasIds)
      (List.forall₂_drop (index + 1) h.hasIds)
  · refine hperm.nodup_iff.mpr (hnodup.append hnew.nodup fun n hn hn' => ?_)
    exact (hnew.fresh n hn').1 hn
  · rcases List.mem_append.mp ht with ht | ht
    · obtain ⟨a, b, hab, ha, hb⟩ := href t ht
      exact ⟨a, b, hab, hmem (Or.inl ha), hb.imp_left fun hb => hmem (Or.inl hb)⟩
    · have hnext : ∀ v, spec.steps[index + 1]?.map WorkflowStep.id = some v →
          ∃ b, v.hash = .ok b := by
        intro v hv
        obtain ⟨step, hstep, rfl⟩ := Option.map_eq_some_iff.mp hv
        obtain ⟨b, -, hb⟩ := exists_of_forall₂ h.hasIds (List.mem_of_getElem? hstep)
        exact ⟨b, hb⟩
      obtain ⟨a, b, hab⟩ := hasEnds_addedTransition hnew.hasIds hnext t ht
      obtain ⟨n, hn, hends⟩ := (precedes_addedTransition hnew.hasIds
        (hash_getElem?_iff h.hasIds (index + 1)) a b).mp ⟨t, ht, hab⟩
      refine ⟨a, b, hab, ?_⟩
      rcases hends with ⟨rfl, rfl⟩ | ⟨rfl, hb⟩
      · exact ⟨hmem (Or.inl htarget), Or.inl (hmem (Or.inr hn))⟩
      · exact ⟨hmem (Or.inr hn), Or.inl (hmem (Or.inl (List.mem_of_getElem? hb)))⟩

/-- Where the added edges are those of the chain, the specification is valid. -/
theorem validSpec_inserted (h : ValidData data spec ids) (htarget : target ∈ ids)
    (hnew : NewNodes spec ids newNodes newSteps newIds)
    (hchain : newIds = [] ∨ (∃ n, newIds = [n]) ∧
      ∀ b, Precedes spec.transitions target b ↔ ids[ids.idxOf target + 1]? = some b) :
    ValidSpec (inserted spec target (ids.idxOf target) newSteps) where
  name := h.valid.name
  ids := ids_inserted h htarget hnew
  acyclic a ha := by
    rcases hchain with rfl | ⟨⟨n, rfl⟩, hnext⟩
    · refine h.valid.acyclic a (Relation.TransGen.mono (fun b c hbc => ?_) _ _ ha)
      refine ((precedes_inserted h hnew.hasIds b c).mp hbc).resolve_right ?_
      rintro ⟨n, hn, -⟩
      exact absurd hn List.not_mem_nil
    · have hn : target ≠ n := fun he => (hnew.fresh n List.mem_cons_self).1 (he ▸ htarget)
      refine not_transGen_putIn h.valid.acyclic (hnew.not_precedes h List.mem_cons_self)
        (fun b => (hnext b).mpr) hn a (Relation.TransGen.mono (fun b c hbc => ?_) _ _ ha)
      exact ((precedes_inserted h hnew.hasIds b c).mp hbc).imp_right addedEdge_singleton.mp
  steps step hstep := by
    rcases List.mem_append.mp hstep with hstep | hstep
    · rcases List.mem_append.mp hstep with hstep | hstep
      · exact h.valid.steps step (List.mem_of_mem_take hstep)
      · exact hnew.valid step hstep
    · exact h.valid.steps step (List.mem_of_mem_drop hstep)

/-- The load succeeds with the chain, given room for its search for a cycle. -/
def LoadsChain (L : WorkflowLoader) (data : Dict PyKey PyValue) (spec : WorkflowSpec)
    (target : PyKey) (newNodes : List PyValue) (newSteps : List WorkflowStep)
    (newIds : List PyKey) : Prop :=
  ∃ bound, ∀ limit ≥ bound, ∃ result,
    L.loadWorkflow limit (withInsertion data target newNodes) = .ok result ∧
      Chains spec result target newSteps newIds

theorem LoadsChain.chains {L : WorkflowLoader}
    (hloads : LoadsChain L data spec target newNodes newSteps newIds)
    (h : ValidData data spec ids) (htarget : target ∈ ids)
    (hnew : List.Forall₂ Parses newNodes newSteps) :
    Chains spec (inserted spec target (ids.idxOf target) newSteps) target newSteps newIds := by
  obtain ⟨bound, hbound⟩ := hloads
  obtain ⟨result, hresult, hchains⟩ := hbound (bound + 1) (Nat.le_succ bound)
  rw [loadWorkflow_withInsertion L h htarget hnew] at hresult
  obtain ⟨-, -, hresult⟩ := bind_eq_ok.mp hresult
  obtain rfl := Except.ok.inj hresult
  exact hchains

/-- `insert_after` makes the chain if and only if there is nothing to insert, or there is one
new node and the target led to the node behind it in the list and to nothing else. -/
theorem loadsChain_iff (L : WorkflowLoader) (h : ValidData data spec ids) (htarget : target ∈ ids)
    (hnew : NewNodes spec ids newNodes newSteps newIds) :
    LoadsChain L data spec target newNodes newSteps newIds ↔
      newIds = [] ∨ (∃ n, newIds = [n]) ∧
        ∀ b, Precedes spec.transitions target b ↔ ids[ids.idxOf target + 1]? = some b := by
  constructor
  · intro hloads
    exact (chains_inserted_iff h htarget hnew).mp (hloads.chains h htarget hnew.parsed)
  · intro hchain
    set result := inserted spec target (ids.idxOf target) newSteps
    refine ⟨(nodesOf result).card + 1, fun limit hlimit => ⟨result, ?_, ?_⟩⟩
    · obtain ⟨limit, rfl⟩ := Nat.exists_eq_add_of_le' ((Nat.le_add_left 1 _).trans hlimit)
      have hvalid : validateSpec limit result = .ok () :=
        (validateSpec_eq_ok (Nat.le_of_succ_le_succ hlimit)).mpr
          (validSpec_inserted h htarget hnew hchain)
      rw [loadWorkflow_withInsertion L h htarget hnew.parsed, hvalid]
      rfl
    · exact (chains_inserted_iff h htarget hnew).mpr hchain

end Inserted

/-! ## A chain that is made, and one that is not -/

/-- The dictionary of a node. -/
def nodeDict (id type : String) (config : Items) : PyValue :=
  .obj [(.str "id", .str id), (.str "type", .str type), (.str "config", .obj config)]

/-- The step of that node. -/
def nodeStep (id type : String) (config : Items) : WorkflowStep :=
  ⟨.str id, .str type, .str id, .obj config, .null⟩

/-- Three nodes in a row. -/
def rowData : Dict PyKey PyValue :=
  ⟨[(.str "name", .str "test_workflow"),
    (.str "nodes", .arr [nodeDict "start" "start" [], nodeDict "process" "agent" [],
      nodeDict "end" "end" []]),
    (.str "edges", .arr [newEdge (.str "start") (.str "process"),
      newEdge (.str "process") (.str "end")])], by decide⟩

/-- What is loaded from it. -/
def rowSpec : WorkflowSpec where
  name := .str "test_workflow"
  version := .str "1.0.0"
  description := .str ""
  settings := .obj []
  steps := [nodeStep "start" "start" [], nodeStep "process" "agent" [], nodeStep "end" "end" []]
  transitions := [addedTransition (.str "start", .str "process"),
    addedTransition (.str "process", .str "end")]
  tools := .arr []
  errorHandling := .arr []
  metrics := .arr []
  featureFlags := .null
  quotas := .null
  security := .null
  monitoring := .null

theorem validData_row : ValidData rowData rowSpec [.str "start", .str "process", .str "end"] where
  plain := by decide
  lists := by
    intro key hkey v hv
    rcases List.mem_cons.mp hkey with rfl | hkey
    · exact ⟨_, (Option.some.inj hv).symm⟩
    · obtain rfl := List.mem_singleton.mp hkey
      exact ⟨_, (Option.some.inj hv).symm⟩
  parsed := rfl
  hasIds := .cons rfl (.cons rfl (.cons rfl .nil))
  valid := by
    have hpass : validateSpec 3 rowSpec = .ok () := rfl
    exact validSpec_of_validateSpec hpass

theorem precedes_row {a b : PyKey} : Precedes rowSpec.transitions a b ↔
    a = .str "start" ∧ b = .str "process" ∨ a = .str "process" ∧ b = .str "end" := by
  unfold Precedes
  simp [rowSpec, Leads, addedTransition, PyValue.hash, eq_comm]

theorem newNodes_row (ids : List String) (hnodup : ids.Nodup)
    (hnew : ∀ id ∈ ids, id ≠ "" ∧ id ∉ ["start", "process", "end"]) :
    NewNodes rowSpec [.str "start", .str "process", .str "end"]
      (ids.map fun id => nodeDict id "agent" []) (ids.map fun id => nodeStep id "agent" [])
      (ids.map .str) where
  parsed := by
    rw [List.forall₂_map_left_iff, List.forall₂_map_right_iff, List.forall₂_same]
    exact fun id _ => rfl
  hasIds := by
    unfold HasIds
    rw [List.forall₂_map_left_iff, List.forall₂_map_right_iff, List.forall₂_same]
    exact fun id _ => rfl
  nodup := hnodup.map fun _ _ => PyKey.str.inj
  fresh n hn := by
    obtain ⟨id, hid, rfl⟩ := List.mem_map.mp hn
    have hid := (hnew id hid).2
    simp only [List.mem_cons, List.not_mem_nil, or_false, not_or] at hid
    refine ⟨by simpa using hid, fun a hab => ?_⟩
    rcases precedes_row.mp hab with ⟨-, hb⟩ | ⟨-, hb⟩
    · exact hid.2.1 (PyKey.str.inj hb)
    · exact hid.2.2 (PyKey.str.inj hb)
  valid step hstep := by
    obtain ⟨id, hid, rfl⟩ := List.mem_map.mp hstep
    have hne : (PyValue.str id).truthy = true := decide_eq_true (hnew id hid).1
    unfold validateStep
    simp only [nodeStep, hne]
    rfl

/-- One new node behind `process`, which leads to the node behind it. -/
theorem loadsChain_row :
    LoadsChain ⟨none, fun _ => none⟩ rowData rowSpec (.str "process")
      [nodeDict "review" "agent" []] [nodeStep "review" "agent" []] [.str "review"] := by
  refine (loadsChain_iff ⟨none, fun _ => none⟩ validData_row (by decide)
    (newNodes_row ["review"] (by decide) (by decide))).mpr
      (Or.inr ⟨⟨_, rfl⟩, fun b => ?_⟩)
  rw [precedes_row]
  simp [eq_comm]

/-- Two new nodes behind `process`. -/
theorem not_loadsChain :
    ¬∀ (L : WorkflowLoader) (data : Dict PyKey PyValue) (spec : WorkflowSpec)
      (ids newIds : List PyKey) (target : PyKey) (newNodes : List PyValue)
      (newSteps : List WorkflowStep), ValidData data spec ids → target ∈ ids →
      NewNodes spec ids newNodes newSteps newIds →
        LoadsChain L data spec target newNodes newSteps newIds := by
  intro hall
  have hnew := newNodes_row ["validation", "review"] (by decide) (by decide)
  have hmem : PyKey.str "process" ∈ [PyKey.str "start", .str "process", .str "end"] := by decide
  have hloads := hall ⟨none, fun _ => none⟩ rowData rowSpec _ _ _ _ _ validData_row hmem hnew
  rcases (chains_inserted_iff validData_row hmem hnew).mp
    (hloads.chains validData_row hmem hnew.parsed) with h | ⟨⟨n, h⟩, -⟩
  · cases h
  · cases h

end WorkflowLoader

end MultiAgent
