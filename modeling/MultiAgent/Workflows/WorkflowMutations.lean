import MultiAgent.Lib.KeyedEdits
import MultiAgent.Workflows.WorkflowData

/-!
# The mutations of a workflow

`_apply_mutations` for mutations that insert, replace and remove steps. Each finds the step with
the target's id and edits the list there, so the list goes through the edits at keys that the
mutations are read as (`applyMutation_eq`, `foldlM_applyMutation`) : distinct ids stay distinct,
steps that nothing removes or replaces keep their order, and what is inserted stays until
something removes or replaces it (`applyMutations_keeps`).
-/

namespace MultiAgent

namespace WorkflowLoader

open Fallible KeyedEdits

/-! ## Steps and mutations -/

/-- The id of a step, if it has one that can be compared. -/
def stepKey (step : PyValue) : Option PyKey :=
  match step.get? "id" with
  | .ok id => (id.getD .null).hash.toOption
  | .error _ => none

/-- `spec.get("workflow", {}).get("steps", [])`, where that is a list. -/
def stepsOf (spec : Items) : Option (List PyValue) :=
  match Items.field spec "workflow" with
  | none => some []
  | some (.obj workflow) =>
    match Items.field workflow "steps" with
    | none => some []
    | some (.arr steps) => some steps
    | some _ => none
  | some _ => none

/-- The key that a mutation is for. -/
def targetKey (mutation : Items) : Option PyKey :=
  ((Items.field mutation "target").getD .null).hash.toOption

/-- The step of a mutation. -/
def newStep (mutation : Items) : PyValue :=
  (Items.field mutation "step").getD .null

/-- The edit that a mutation is, if it is one of steps. -/
def editOf : PyValue → Option (Edit (Option PyKey) PyValue)
  | .obj mutation =>
    match Items.field mutation "type" with
    | some (.str "insert_after") => some ⟨targetKey mutation, .insertAfter (newStep mutation)⟩
    | some (.str "insert_before") => some ⟨targetKey mutation, .insertBefore (newStep mutation)⟩
    | some (.str "replace") => some ⟨targetKey mutation, .replace (newStep mutation)⟩
    | some (.str "remove") => some ⟨targetKey mutation, .remove⟩
    | _ => none
  | _ => none

/-- The steps that mutations bring. -/
def newSteps (mutations : List PyValue) : List PyValue :=
  brought (mutations.filterMap editOf)

/-- The step has an id. -/
def HasKey (step : PyValue) : Prop :=
  ∃ k, stepKey step = some k

/-! ## One mutation -/

/-- A change as an edit at an index. -/
def atIndex (index : ℕ) (steps : List PyValue) : Change PyValue → List PyValue
  | .insertAfter new => steps.insertIdx (index + 1) new
  | .insertBefore new => steps.insertIdx index new
  | .replace new => steps.set index new
  | .remove => steps.eraseIdx index

theorem atIndex_zero (c : Change PyValue) (step : PyValue) (steps : List PyValue) :
    atIndex 0 (step :: steps) c = c.entries step ++ steps := by
  cases c <;> rfl

theorem atIndex_succ (c : Change PyValue) (index : ℕ) (step : PyValue) (steps : List PyValue) :
    atIndex (index + 1) (step :: steps) c = step :: atIndex index steps c := by
  cases c <;> rfl

theorem get?_of_stepKey {step : PyValue} {k : PyKey} (h : stepKey step = some k) :
    ∃ id, step.get? "id" = .ok id ∧ (id.getD .null).hash = .ok k := by
  unfold stepKey at h
  cases hid : step.get? "id" with
  | error e => simp [hid] at h
  | ok id =>
    simp only [hid] at h
    refine ⟨id, rfl, ?_⟩
    cases hhash : (id.getD .null).hash with
    | error e =>
      rw [hhash] at h
      cases h
    | ok k' =>
      rw [hhash] at h
      exact congrArg Except.ok (Option.some.inj h)

/-- The index that is found is where the edit at the key is made. -/
theorem findStepIndex_cases (target : PyValue) :
    ∀ {steps : List PyValue}, (∀ step ∈ steps, HasKey step) →
      (findStepIndex target steps = .ok none ∧
        ∀ c, Edit.apply stepKey ⟨target.hash.toOption, c⟩ steps = steps) ∨
      ∃ index, findStepIndex target steps = .ok (some index) ∧
        ∀ c, Edit.apply stepKey ⟨target.hash.toOption, c⟩ steps = atIndex index steps c
  | [], _ => Or.inl ⟨rfl, fun _ => rfl⟩
  | step :: steps, hkeys => by
    have ih := findStepIndex_cases target fun s hs => hkeys s (List.mem_cons_of_mem step hs)
    obtain ⟨k, hk⟩ := hkeys step List.mem_cons_self
    obtain ⟨id, hid, hhash⟩ := get?_of_stepKey hk
    unfold findStepIndex Edit.apply
    rw [hid, ok_bind, PyValue.eq_of_hash hhash, hk]
    by_cases hmatch : some k = target.hash.toOption
    · refine Or.inr ⟨0, if_pos (decide_eq_true hmatch), fun c => ?_⟩
      rw [if_pos hmatch, atIndex_zero]
    · have hno : ¬decide (some k = target.hash.toOption) = true := by simpa using hmatch
      simp only [if_neg hno, if_neg hmatch]
      rcases ih with ⟨hfind, happly⟩ | ⟨index, hfind, happly⟩
      · rw [hfind]
        exact Or.inl ⟨rfl, fun c => congrArg (step :: ·) (happly c)⟩
      · rw [hfind]
        refine Or.inr ⟨index + 1, rfl, fun c => ?_⟩
        rw [happly c, atIndex_succ]

theorem editAt_eq (target : PyValue) (c : Change PyValue) {steps : List PyValue}
    (hkeys : ∀ step ∈ steps, HasKey step) :
    editAt target (fun index steps => atIndex index steps c) steps =
      .ok (Edit.apply stepKey ⟨target.hash.toOption, c⟩ steps) := by
  unfold editAt
  rcases findStepIndex_cases target hkeys with ⟨hfind, happly⟩ | ⟨index, hfind, happly⟩
  · rw [hfind, happly c]
    rfl
  · rw [hfind, happly c]
    rfl

/-- The steps of the workflow go through the edit. -/
theorem editSteps_eq {spec : Items} {steps : List PyValue} (h : stepsOf spec = some steps)
    (hkeys : ∀ step ∈ steps, HasKey step) (target : PyValue) (c : Change PyValue) :
    ∃ spec', editSteps target (fun index steps => atIndex index steps c) spec = .ok spec' ∧
      stepsOf spec' = some (Edit.apply stepKey ⟨target.hash.toOption, c⟩ steps) := by
  have hsame := h
  unfold stepsOf at h
  unfold editSteps
  split at h
  next hworkflow =>
    obtain rfl := Option.some.inj h
    rw [hworkflow]
    exact ⟨spec, rfl, hsame⟩
  next workflow hworkflow =>
    rw [hworkflow]
    simp only [PyValue.get?, ok_bind]
    split at h
    next hsteps =>
      obtain rfl := Option.some.inj h
      rw [hsteps]
      exact ⟨spec, rfl, hsame⟩
    next hsteps =>
      obtain rfl := Option.some.inj h
      rw [hsteps]
      simp only [PyValue.onList, editAt_eq target c hkeys]
      refine ⟨_, rfl, ?_⟩
      have hset : ∀ (key : String) (v : PyValue) (d : Items),
          Items.field (Dict.setItem (.str key) v d) key = some v := fun key v d =>
        (Dict.lookup_setItem _ _ _ _).trans (if_pos rfl)
      unfold stepsOf
      rw [hset]
      dsimp only
      rw [hset]
    next => cases h
  next => cases h

/-- A mutation is the edit that it is read as. -/
theorem applyMutation_eq {spec : Items} {steps : List PyValue} (h : stepsOf spec = some steps)
    (hkeys : ∀ step ∈ steps, HasKey step) {mutation : PyValue}
    {e : Edit (Option PyKey) PyValue} (hedit : editOf mutation = some e) :
    ∃ spec', applyMutation spec mutation = .ok spec' ∧
      stepsOf spec' = some (e.apply stepKey steps) := by
  cases mutation with
  | obj m =>
    simp only [editOf] at hedit
    unfold applyMutation
    simp only [PyValue.get?, ok_bind]
    split at hedit
    next htype =>
      obtain rfl := Option.some.inj hedit
      rw [htype]
      exact editSteps_eq h hkeys _ (.insertAfter (newStep m))
    next htype =>
      obtain rfl := Option.some.inj hedit
      rw [htype]
      exact editSteps_eq h hkeys _ (.insertBefore (newStep m))
    next htype =>
      obtain rfl := Option.some.inj hedit
      rw [htype]
      exact editSteps_eq h hkeys _ (.replace (newStep m))
    next htype =>
      obtain rfl := Option.some.inj hedit
      rw [htype]
      exact editSteps_eq h hkeys _ .remove
    next => cases hedit
  | _ => cases hedit

/-! ## All mutations -/

/-- Mutations of steps are the edits that they are read as, one after the other. -/
theorem foldlM_applyMutation : ∀ {mutations : List PyValue} {spec : Items}
    {steps : List PyValue}, (∀ m ∈ mutations, ∃ e, editOf m = some e) → stepsOf spec = some steps →
      (∀ step ∈ steps, HasKey step) → (∀ step ∈ newSteps mutations, HasKey step) →
      ∃ spec', mutations.foldlM applyMutation spec = .ok spec' ∧
        stepsOf spec' = some (applyAll stepKey (mutations.filterMap editOf) steps)
  | [], spec, steps, _, h, _, _ => ⟨spec, rfl, h⟩
  | m :: mutations, spec, steps, hedits, h, hkeys, hnew => by
    obtain ⟨e, he⟩ := hedits m List.mem_cons_self
    obtain ⟨spec', hrun, h'⟩ := applyMutation_eq h hkeys he
    unfold newSteps at hnew
    rw [List.filterMap_cons_some he, brought_cons] at hnew
    have hkeys' : ∀ step ∈ e.apply stepKey steps, HasKey step := fun step hstep =>
      (mem_apply hstep).elim (hkeys step) fun hbrings =>
        hnew step (List.mem_append_left _ (Option.mem_toList.mpr hbrings))
    rw [List.foldlM_cons, hrun, ok_bind, List.filterMap_cons_some he, applyAll_cons]
    exact foldlM_applyMutation (fun m' hm' => hedits m' (List.mem_cons_of_mem m hm')) h' hkeys'
      fun step hstep => hnew step (List.mem_append_right _ hstep)

/-- No mutation removes or replaces the step. -/
def Untargeted (mutations : List PyValue) (step : PyValue) : Prop :=
  ∀ m ∈ mutations, ∀ e, editOf m = some e → e.change.Removes → stepKey step ≠ e.target

/-- The mutations leave these steps. -/
def StepsAfter (data : Items) (mutations steps : List PyValue) : Prop :=
  ∃ spec, mutations.foldlM applyMutation (erase "mutations" data) = .ok spec ∧
    stepsOf spec = some steps

theorem StepsAfter.unique {data : Items} {mutations l l' : List PyValue}
    (h : StepsAfter data mutations l) (h' : StepsAfter data mutations l') : l = l' := by
  obtain ⟨spec, hrun, h⟩ := h
  obtain ⟨spec', hrun', h'⟩ := h'
  obtain rfl := Except.ok.inj (hrun.symm.trans hrun')
  exact Option.some.inj (h.symm.trans h')

/-- `_apply_mutations` keeps distinct ids distinct, keeps the steps that it does not remove or
replace, in their order, and keeps what a mutation brings whose target is there, unless a later
one removes or replaces it. -/
theorem applyMutations_keeps {data : Items} {steps mutations : List PyValue}
    (hsteps : stepsOf data = some steps)
    (hmutations : (Items.field data "mutations").getD (.arr []) = .arr mutations)
    (hedits : ∀ m ∈ mutations, ∃ e, editOf m = some e)
    (hkeys : ∀ step ∈ steps ++ newSteps mutations, HasKey step)
    (hnodup : (steps.map stepKey).Nodup) (hnew : ((newSteps mutations).map stepKey).Nodup)
    (hfresh : ∀ step ∈ newSteps mutations, stepKey step ∉ steps.map stepKey) :
    ∃ spec result, applyMutations data = .ok spec ∧ stepsOf spec = some result ∧
      (result.map stepKey).Nodup ∧
      (∀ kept : List PyValue, kept.Sublist steps → (∀ step ∈ kept, Untargeted mutations step) →
        kept.Sublist result) ∧
      ∀ before m after, mutations = before ++ m :: after → ∀ e new, editOf m = some e →
        e.change.brings = some new → ∀ there, StepsAfter data before there →
        e.target ∈ there.map stepKey → Untargeted after new → new ∈ result := by
  have herased : stepsOf (erase "mutations" data) = some steps := by
    have hsame : Items.field (erase "mutations" data) "workflow" = Items.field data "workflow" :=
      (Dict.lookup_filter_ne _ _ _).trans (if_neg (by decide))
    unfold stepsOf at hsteps ⊢
    rwa [hsame]
  have hold : ∀ step ∈ steps, HasKey step := fun step hstep =>
    hkeys step (List.mem_append_left _ hstep)
  have hbrought : ∀ step ∈ newSteps mutations, HasKey step := fun step hstep =>
    hkeys step (List.mem_append_right _ hstep)
  obtain ⟨spec, hrun, hspec⟩ := foldlM_applyMutation hedits herased hold hbrought
  refine ⟨spec, _, ?_, hspec, nodup_applyAll hnodup hnew hfresh, ?_, ?_⟩
  · unfold applyMutations
    rw [hmutations]
    exact hrun
  · intro kept hkept huntargeted
    refine sublist_applyAll hkept fun e he hremoves step hstep => ?_
    obtain ⟨m, hm, hedit⟩ := List.mem_filterMap.mp he
    exact huntargeted step hstep m hm e hedit hremoves
  · rintro before m after rfl e new hedit hbrings there hthere htarget huntargeted
    have hbefore : StepsAfter data before
        (applyAll stepKey (before.filterMap editOf) steps) := by
      refine foldlM_applyMutation (fun m' hm' => hedits m' (List.mem_append_left _ hm')) herased
        hold fun step hstep => hbrought step ?_
      unfold newSteps brought at hstep ⊢
      rw [List.filterMap_append, List.filterMap_append]
      exact List.mem_append_left _ hstep
    rw [hthere.unique hbefore] at htarget
    rw [List.filterMap_append, List.filterMap_cons_some hedit]
    refine mem_applyAll hbrings htarget fun e' he' hremoves => ?_
    obtain ⟨m', hm', hedit'⟩ := List.mem_filterMap.mp he'
    exact huntargeted m' hm' e' hedit' hremoves

/-- The dictionary of a step. -/
def stepDict (id : String) : PyValue :=
  .obj [(.str "id", .str id), (.str "type", .str "agent"), (.str "name", .str id)]

/-- The dictionary of a mutation. -/
def mutationDict (type target : String) (step : PyValue) : PyValue :=
  .obj [(.str "type", .str type), (.str "target", .str target), (.str "step", step)]

/-- Two steps; one is put in after the first, and the second is removed. -/
def reviewed : Items :=
  [(.str "workflow", .obj [(.str "steps", .arr [stepDict "classify", stepDict "respond"])]),
    (.str "mutations", .arr [mutationDict "insert_after" "classify" (stepDict "review"),
      mutationDict "remove" "respond" .null])]

/-- The step that is put in is there, and the ids are distinct. -/
theorem applyMutations_keeps_review :
    ∃ spec result, applyMutations reviewed = .ok spec ∧ stepsOf spec = some result ∧
      (result.map stepKey).Nodup ∧ stepDict "review" ∈ result := by
  have hedits : ∀ m ∈ [mutationDict "insert_after" "classify" (stepDict "review"),
      mutationDict "remove" "respond" .null], ∃ e, editOf m = some e := by
    intro m hm
    rcases List.mem_cons.mp hm with rfl | hm
    · exact ⟨_, rfl⟩
    · obtain rfl := List.mem_singleton.mp hm
      exact ⟨_, rfl⟩
  have hkeys : ∀ step ∈ [stepDict "classify", stepDict "respond", stepDict "review"],
      HasKey step := by
    intro step hstep
    simp only [List.mem_cons, List.not_mem_nil, or_false] at hstep
    rcases hstep with rfl | rfl | rfl
    · exact ⟨_, rfl⟩
    · exact ⟨_, rfl⟩
    · exact ⟨_, rfl⟩
  obtain ⟨spec, result, hrun, hresult, hnodup, -, hstays⟩ :=
    @applyMutations_keeps reviewed _ _ rfl rfl hedits hkeys (by decide) (by decide) (by decide)
  refine ⟨spec, result, hrun, hresult, hnodup, ?_⟩
  refine hstays [] _ _ rfl _ _ rfl rfl _ ⟨_, rfl, rfl⟩ (by decide) fun m hm e he _ => ?_
  obtain rfl := List.mem_singleton.mp hm
  obtain rfl := Option.some.inj he
  decide

end WorkflowLoader

end MultiAgent
