import MultiAgent.Infrastructure.DRRunbooks

/-!
# The order of a completed runbook

A step whose dependencies were not executed before it in the list is left out, and the
execution goes on and ends with the status completed all the same. `_validate_runbook`
checks that every dependency is the id of some step, not where that step stands. So of an
execution that completes, every step was executed once and after those it depends on
exactly when the list of steps has every step behind all those it depends on
(`executedInOrder_iff`).
-/

namespace MultiAgent

namespace DRRunbooks

variable {runbook : RunbookDefinition} {outcomes : ℕ → StepOutcomes}

/-- Every step was executed with success exactly once, and after all steps it depends on. -/
def ExecutedInOrder (runbook : RunbookDefinition) (calls : List Call) : Prop :=
  (∀ i < runbook.steps.length, calls.count (.execute i true) = 1) ∧
    ∀ (i j : ℕ) (step other : RunbookStep), runbook.steps[i]? = some step →
      runbook.steps[j]? = some other → other.stepId ∈ step.deps →
      ∃ before after, calls = before ++ .execute i true :: after ∧ .execute j true ∈ before

/-- Every step stands behind all steps it depends on. -/
def DependenciesFirst (runbook : RunbookDefinition) : Prop :=
  ∀ (i j : ℕ) (step other : RunbookStep), runbook.steps[i]? = some step →
    runbook.steps[j]? = some other → other.stepId ∈ step.deps → j < i

/-! ## Positions -/

theorem positions_pairwise (steps : List RunbookStep) :
    steps.zipIdx.Pairwise fun x y => x.2 < y.2 := by
  have hrange := List.pairwise_lt_range' (s := 0) (n := steps.length)
  rw [← List.zipIdx_map_snd 0 steps, List.pairwise_map] at hrange
  exact hrange

theorem nodup_positions (steps : List RunbookStep) : steps.zipIdx.Nodup :=
  (positions_pairwise steps).imp fun hlt heq => by simp [heq] at hlt

theorem eq_of_position {steps : List RunbookStep} {x y : RunbookStep × ℕ}
    (hx : x ∈ steps.zipIdx) (hy : y ∈ steps.zipIdx) (hpos : x.2 = y.2) : x = y := by
  rw [List.mem_zipIdx_iff_getElem?] at hx hy
  rw [hpos, hy] at hx
  exact Prod.ext (Option.some.inj hx).symm hpos

theorem runnable_sublist (runbook : RunbookDefinition) :
    (runnable runbook).Sublist runbook.steps.zipIdx :=
  ReadyPass.ready_sublist _ _

/-- What stands before an entry of a list that is in the order of the positions. -/
theorem lt_of_mem_before {steps before after : List (RunbookStep × ℕ)} {x y : RunbookStep × ℕ}
    (hsteps : steps.Pairwise fun x y => x.2 < y.2) (h : steps = before ++ x :: after)
    (hy : y ∈ before) : y.2 < x.2 := by
  rw [h, List.pairwise_append] at hsteps
  exact hsteps.2.2 y hy x List.mem_cons_self

theorem mem_before_of_lt {steps before after : List (RunbookStep × ℕ)} {x y : RunbookStep × ℕ}
    (hsteps : steps.Pairwise fun x y => x.2 < y.2) (h : steps = before ++ x :: after)
    (hy : y ∈ steps) (hlt : y.2 < x.2) : y ∈ before := by
  rw [h, List.pairwise_append, List.pairwise_cons] at hsteps
  rw [h, List.mem_append, List.mem_cons] at hy
  rcases hy with hy | rfl | hy
  · exact hy
  · omega
  · have := hsteps.2.1.1 y hy
    omega

/-! ## Completed executions -/

/-- A dependency of an accepted runbook is the id of one of its steps. -/
theorem exists_step_of_dep {step : RunbookStep} {dep : String}
    (hvalid : validateRunbook runbook = true) (hstep : step ∈ runbook.steps)
    (hdep : dep ∈ step.deps) : ∃ other ∈ runbook.steps, other.stepId = dep := by
  unfold validateRunbook at hvalid
  split_ifs at hvalid
  have hall := List.all_eq_true.mp (List.all_eq_true.mp hvalid step hstep) dep hdep
  simpa using hall

/-- An accepted runbook has all its steps executed exactly when each stands behind those it
depends on. -/
theorem runnable_of_dependenciesFirst (hvalid : validateRunbook runbook = true)
    (hfirst : DependenciesFirst runbook) : runnable runbook = runbook.steps.zipIdx := by
  refine ReadyPass.ready_eq_self_iff.mpr fun before x after hsplit dep hdep => Or.inr ?_
  have hx : x ∈ runbook.steps.zipIdx := by simp [hsplit]
  have hstep := List.mem_zipIdx_iff_getElem?.mp hx
  obtain ⟨other, hother, rfl⟩ := exists_step_of_dep hvalid (List.mem_of_getElem? hstep) hdep
  obtain ⟨j, hj⟩ := List.mem_iff_getElem?.mp hother
  have hlt : j < x.2 := hfirst x.2 j x.1 other hstep hj hdep
  have hmem : (other, j) ∈ runbook.steps.zipIdx := List.mem_zipIdx_iff_getElem?.mpr hj
  exact List.mem_map.mpr
    ⟨(other, j), mem_before_of_lt (positions_pairwise _) hsplit hmem hlt, rfl⟩

/-- A completed execution executed the steps that are runnable, in the order of the list. -/
theorem calls_of_completed {execution : RunbookExecution}
    (hnew : execution.stepsExecuted = [])
    (hcompleted :
      (runSteps runbook outcomes runbook.steps.zipIdx execution).1.status = .completed) :
    (runSteps runbook outcomes runbook.steps.zipIdx execution).2 =
      (runnable runbook).map succeeded := by
  obtain ⟨hstatus, -, hcalls⟩ := runSteps_eq runbook outcomes runbook.steps.zipIdx execution
  rw [hnew] at hstatus hcalls
  rcases hpass : attempted outcomes runbook.steps.zipIdx [] with ⟨ran, _ | failed⟩
  · obtain ⟨rfl, -⟩ := ReadyPass.attempt_none hpass
    simpa [hpass, callsOfFailure, runnable] using hcalls
  · rw [hstatus, hpass] at hcompleted
    simp at hcompleted

theorem executedInOrder_runnable_iff (hvalid : validateRunbook runbook = true) :
    ExecutedInOrder runbook ((runnable runbook).map succeeded) ↔ DependenciesFirst runbook := by
  constructor
  · rintro ⟨-, horder⟩ i j step other hstep hother hdep
    obtain ⟨before, after, hsplit, hmem⟩ := horder i j step other hstep hother hdep
    obtain ⟨ran, tail, hran, rfl, htail⟩ := List.map_eq_append_iff.mp hsplit
    obtain ⟨x, rest, rfl, hx, -⟩ := List.map_eq_cons_iff.mp htail
    obtain ⟨y, hy, hyj⟩ := List.mem_map.mp hmem
    have hlt := lt_of_mem_before
      ((positions_pairwise runbook.steps).sublist (runnable_sublist runbook)) hran hy
    have hi : x.2 = i := by simpa using hx
    have hj : y.2 = j := by simpa using hyj
    omega
  · intro hfirst
    rw [runnable_of_dependenciesFirst hvalid hfirst]
    have hnodup : (runbook.steps.zipIdx.map succeeded).Nodup := by
      rw [List.nodup_map_iff_inj_on (nodup_positions _)]
      intro x hx y hy heq
      exact eq_of_position hx hy (by simpa using heq)
    refine ⟨fun i hi => List.count_eq_one_of_mem hnodup ?_, ?_⟩
    · have hmem : (runbook.steps[i], i) ∈ runbook.steps.zipIdx := by
        simp [List.mem_zipIdx_iff_getElem?]
      exact List.mem_map.mpr ⟨_, hmem, rfl⟩
    · intro i j step other hstep hother hdep
      have hlt := hfirst i j step other hstep hother hdep
      have hi : (step, i) ∈ runbook.steps.zipIdx := List.mem_zipIdx_iff_getElem?.mpr hstep
      have hj : (other, j) ∈ runbook.steps.zipIdx := List.mem_zipIdx_iff_getElem?.mpr hother
      obtain ⟨before, after, hsplit⟩ := List.append_of_mem hi
      have hbefore := mem_before_of_lt (positions_pairwise _) hsplit hj hlt
      refine ⟨before.map succeeded, after.map succeeded, by simp [hsplit], ?_⟩
      exact List.mem_map.mpr ⟨_, hbefore, rfl⟩

/-- Of an execution that completes, every step was executed once and after all steps it
depends on exactly when every step of the runbook stands behind all steps it depends on. -/
theorem executedInOrder_iff {manager started : DRRunbooksManager}
    {runbookId executedBy executionId : String} {now : ℤ} {execution : RunbookExecution}
    {calls : List Call} (hrunbook : manager.runbooks.get? runbookId = some runbook)
    (hstarted : manager.executeRunbook runbookId executedBy now = (some executionId, started))
    (hresult : executeRunbookSteps started executionId outcomes = some (execution, calls))
    (hcompleted : execution.status = .completed) :
    ExecutedInOrder runbook calls ↔ DependenciesFirst runbook := by
  obtain ⟨new, hnew, hrun⟩ := executeRunbookSteps_started hrunbook hstarted hresult
  obtain ⟨rfl, rfl⟩ := Prod.mk.inj hrun
  rw [calls_of_completed hnew hcompleted]
  exact executedInOrder_runnable_iff (manager.accepted runbookId runbook hrunbook)

/-- A runbook of two steps. -/
def twoSteps (first second : RunbookStep) : RunbookDefinition :=
  { runbookId := "failover", title := "Failover", status := .active, steps := [first, second] }

/-- The manager once it was asked to create the runbook. -/
def managerOf (runbook : RunbookDefinition) : DRRunbooksManager :=
  (DRRunbooksManager.createRunbook {} runbook).2

/-- The manager once the runbook was started. -/
def startedOf (runbook : RunbookDefinition) : DRRunbooksManager :=
  ((managerOf runbook).executeRunbook runbook.runbookId "operator" 0).2

/-- Two notifications, of which `drain` comes before `switch`. -/
def drain : RunbookStep :=
  { stepId := "drain", stepType := .notification }

def switch : RunbookStep :=
  { stepId := "switch", stepType := .notification, dependencies := some ["drain"] }

/-- The record of an execution of them that completed. -/
def notified (stepsExecuted : List String) (currentStep : String) : RunbookExecution :=
  { executionId := "failover_0", runbookId := "failover", status := .completed
    executedBy := "operator", stepsExecuted, currentStep := some currentStep }

theorem executedInOrder_drain_switch :
    ExecutedInOrder (twoSteps drain switch) [.execute 0 true, .execute 1 true] ↔
      DependenciesFirst (twoSteps drain switch) := by
  have hrunbook : (managerOf (twoSteps drain switch)).runbooks.get? "failover" =
      some (twoSteps drain switch) := by decide +kernel
  have hstarted : (managerOf (twoSteps drain switch)).executeRunbook "failover" "operator" 0 =
      (some "failover_0", startedOf (twoSteps drain switch)) := rfl
  have hresult : executeRunbookSteps (startedOf (twoSteps drain switch)) "failover_0"
      (fun _ => {}) = some (notified ["drain", "switch"] "switch",
        [.execute 0 true, .execute 1 true]) := by decide +kernel
  exact executedInOrder_iff hrunbook hstarted hresult rfl

/-- With the two steps the other way around, the one that depends on the other is left out,
and the execution completes. -/
theorem not_executedInOrder :
    ∃ (manager started : DRRunbooksManager) (runbook : RunbookDefinition)
      (execution : RunbookExecution) (calls : List Call),
      manager.runbooks.get? "failover" = some runbook ∧
        manager.executeRunbook "failover" "operator" 0 = (some "failover_0", started) ∧
        executeRunbookSteps started "failover_0" (fun _ => {}) = some (execution, calls) ∧
        execution.status = .completed ∧ ¬ExecutedInOrder runbook calls := by
  refine ⟨managerOf (twoSteps switch drain), startedOf (twoSteps switch drain),
    twoSteps switch drain, notified ["drain"] "drain", [.execute 1 true],
    by decide +kernel, rfl, by decide +kernel, rfl, fun horder => ?_⟩
  have hcount := horder.1 0 (by decide)
  simp at hcount

/-! ## The rollback of a failed runbook

When a step fails, the execution ends and `_execute_rollback` looks for the steps to undo by
their ids, in the whole list. Nothing checks that ids differ. So the scripts it runs are
those of the executed steps, the last one first, exactly when no other step that has a
rollback script shares its id with one of them (`rolledBackInReverse_iff`). Which steps were
executed before the failing one is known from the dependencies alone (`runnableBefore`). -/

section Rollback

variable {p : ℕ}

/-- Steps were executed with success up to the failing one at `p`, none after it, and then
the scripts of those that have one were run, in the reverse order. -/
def RolledBackInReverse (runbook : RunbookDefinition) (p : ℕ) (calls : List Call) : Prop :=
  ∃ done : List ℕ, (∀ i ∈ done, i < p) ∧
    calls = (done.map fun i => .execute i true) ++ .execute p false ::
      ((done.filter fun i => runbook.steps[i]?.any RunbookStep.hasRollback).reverse.map .rollback)

/-- The steps that are executed before the one at `p`, if none of them fails. -/
def runnableBefore (runbook : RunbookDefinition) (p : ℕ) : List (RunbookStep × ℕ) :=
  (runnable runbook).filter fun x => x.2 < p

/-- No step with a rollback script shares its id with one that is executed before the step
at `p`, unless it is one of these itself. -/
def RollbackIdsUnshared (runbook : RunbookDefinition) (p : ℕ) : Prop :=
  ∀ x ∈ runnableBefore runbook p, ∀ y ∈ runbook.steps.zipIdx, y.1.hasRollback = true →
    y.1.stepId = x.1.stepId → y ∈ runnableBefore runbook p

/-- What stands before an entry of a list in the order of the positions has the smaller
positions. -/
theorem filter_lt_eq_before {steps before after : List (RunbookStep × ℕ)} {x : RunbookStep × ℕ}
    (hsteps : steps.Pairwise fun x y => x.2 < y.2) (h : steps = before ++ x :: after) :
    (steps.filter fun y => y.2 < x.2) = before := by
  have hbefore : (before.filter fun y => decide (y.2 < x.2)) = before :=
    List.filter_eq_self.mpr fun y hy => decide_eq_true (lt_of_mem_before hsteps h hy)
  rw [h, List.pairwise_append, List.pairwise_cons] at hsteps
  have hafter : ((x :: after).filter fun y => decide (y.2 < x.2)) = [] := by
    refine List.filter_eq_nil_iff.mpr fun y hy => ?_
    rcases List.mem_cons.mp hy with rfl | hy
    · simp
    · have := hsteps.2.1.1 y hy
      simp only [decide_eq_true_eq]
      omega
  rw [h, List.filter_append, hbefore, hafter, List.append_nil]

/-- An execution in which a step fails : the steps before it, the step, the rollback. -/
theorem calls_of_failed {execution : RunbookExecution} (hnew : execution.stepsExecuted = [])
    (havailable : runbook.rollbackAvailable = true)
    (hfailed : .execute p false ∈
      (runSteps runbook outcomes runbook.steps.zipIdx execution).2) :
    (runSteps runbook outcomes runbook.steps.zipIdx execution).2 =
      (runnableBefore runbook p).map succeeded ++ .execute p false ::
        executeRollback runbook ((runnableBefore runbook p).map fun x => x.1.stepId) := by
  obtain ⟨-, -, hcalls⟩ := runSteps_eq runbook outcomes runbook.steps.zipIdx execution
  rw [hnew, List.nil_append] at hcalls
  rcases hpass : attempted outcomes runbook.steps.zipIdx [] with ⟨ran, _ | failed⟩
  · simp [hcalls, hpass, callsOfFailure] at hfailed
  · obtain ⟨-, -, rest, hready⟩ := ReadyPass.attempt_some hpass
    have hp : p = failed.2 := by
      simpa [hcalls, hpass, callsOfFailure, havailable, executeRollback] using hfailed
    subst hp
    have hran : runnableBefore runbook failed.2 = ran :=
      filter_lt_eq_before
        ((positions_pairwise runbook.steps).sublist (runnable_sublist runbook)) hready
    simpa [hpass, hran, callsOfFailure, havailable] using hcalls

/-- The rollback scripts that are run are those of the steps that were executed exactly when
no other step shares an id with one of these. -/
theorem executeRollback_eq_iff {ran : List (RunbookStep × ℕ)}
    (hran : ran.Sublist runbook.steps.zipIdx) :
    executeRollback runbook (ran.map fun x => x.1.stepId) =
        ((ran.filter fun x => x.1.hasRollback).reverse.map fun x => .rollback x.2) ↔
      ∀ x ∈ ran, ∀ y ∈ runbook.steps.zipIdx, y.1.hasRollback = true →
        y.1.stepId = x.1.stepId → y ∈ ran := by
  constructor
  · intro heq x hx y hy hscript hid
    have hmem : Call.rollback y.2 ∈ executeRollback runbook (ran.map fun x => x.1.stepId) := by
      refine List.mem_map.mpr ⟨y, List.mem_filter.mpr ⟨List.mem_reverse.mpr hy, ?_⟩, rfl⟩
      have hkey : y.1.stepId ∈ ran.map fun x => x.1.stepId := List.mem_map.mpr ⟨x, hx, hid.symm⟩
      rw [hscript, Bool.and_true, decide_eq_true_eq]
      exact hkey
    rw [heq] at hmem
    obtain ⟨z, hz, hpos⟩ := List.mem_map.mp hmem
    have hz' : z ∈ ran := (List.mem_filter.mp (List.mem_reverse.mp hz)).1
    rwa [← eq_of_position (hran.subset hz') hy (by simpa using hpos)]
  · intro hunshared
    have hfilter := ReadyPass.filter_key_eq (fun x : RunbookStep × ℕ => x.1.stepId)
      (p := fun x => x.1.hasRollback) (nodup_positions runbook.steps) hran
      fun y hy hscript hkey => by
        obtain ⟨x, hx, hid⟩ := List.mem_map.mp hkey
        exact hunshared x hx y hy hscript hid.symm
    rw [executeRollback, List.filter_reverse, hfilter]

/-- The number of a step and whether it has a script, read off the list of steps. -/
theorem filter_hasRollback_positions {ran : List (RunbookStep × ℕ)}
    (hran : ran.Sublist runbook.steps.zipIdx) :
    ((ran.map Prod.snd).filter fun i => runbook.steps[i]?.any RunbookStep.hasRollback) =
      (ran.filter fun x => x.1.hasRollback).map Prod.snd := by
  rw [List.filter_map]
  refine congrArg _ (List.filter_congr fun x hx => ?_)
  have hstep := List.mem_zipIdx_iff_getElem?.mp (hran.subset hx)
  simp [hstep]

/-- Of an execution in which the step at `p` fails, the scripts of the executed steps are run
and no others, the last first, exactly when none of the others that have a script shares its
id with one of these. -/
theorem rolledBackInReverse_iff {manager started : DRRunbooksManager}
    {runbookId executedBy executionId : String} {now : ℤ} {execution : RunbookExecution}
    {calls : List Call} (hrunbook : manager.runbooks.get? runbookId = some runbook)
    (hstarted : manager.executeRunbook runbookId executedBy now = (some executionId, started))
    (hresult : executeRunbookSteps started executionId outcomes = some (execution, calls))
    (havailable : runbook.rollbackAvailable = true) (hfailed : .execute p false ∈ calls) :
    RolledBackInReverse runbook p calls ↔ RollbackIdsUnshared runbook p := by
  obtain ⟨new, hnew, hrun⟩ := executeRunbookSteps_started hrunbook hstarted hresult
  obtain ⟨rfl, rfl⟩ := Prod.mk.inj hrun
  have hcalls := calls_of_failed hnew havailable hfailed
  have hran : (runnableBefore runbook p).Sublist runbook.steps.zipIdx :=
    List.filter_sublist.trans (runnable_sublist runbook)
  rw [RollbackIdsUnshared, ← executeRollback_eq_iff hran, hcalls]
  constructor
  · rintro ⟨done, -, heq⟩
    have hbefore : Call.execute p false ∉ (runnableBefore runbook p).map succeeded := by simp
    have hafter : Call.execute p false ∉ executeRollback runbook
        ((runnableBefore runbook p).map fun x => x.1.stepId) := by simp [executeRollback]
    obtain ⟨hdone, -, hscripts⟩ := (List.append_cons_inj_of_notMem hbefore hafter).mp heq
    have hpositions : (runnableBefore runbook p).map Prod.snd = done := by
      have hinj : Function.Injective fun i => Call.execute i true := fun i j hij => by
        simpa using hij
      refine List.map_injective_iff.mpr hinj ?_
      rw [List.map_map]
      exact hdone
    rw [hscripts, ← hpositions, filter_hasRollback_positions hran, ← List.map_reverse,
      List.map_map]
    rfl
  · intro hscripts
    refine ⟨(runnableBefore runbook p).map Prod.snd, ?_, ?_⟩
    · rintro i hi
      obtain ⟨x, hx, rfl⟩ := List.mem_map.mp hi
      simpa using (List.mem_filter.mp hx).2
    · rw [hscripts, filter_hasRollback_positions hran, ← List.map_reverse, List.map_map,
        List.map_map]
      rfl

/-- A notification with a script that takes it back, and an automated step that has nothing
to run, and so fails. -/
def announce : RunbookStep :=
  { stepId := "announce", stepType := .notification, rollbackScript := some "retract" }

def emptyStep (stepId : String) : RunbookStep :=
  { stepId, stepType := .automated, rollbackScript := some "restore" }

/-- The record of an execution of them. -/
def failedAt (currentStep : String) : RunbookExecution :=
  { executionId := "failover_0", runbookId := "failover", status := .failed
    executedBy := "operator", stepsExecuted := ["announce"], currentStep := some currentStep
    rollbackRequired := true }

theorem rolledBackInReverse_announce :
    RolledBackInReverse (twoSteps announce (emptyStep "switch")) 1
        [.execute 0 true, .execute 1 false, .rollback 0] ↔
      RollbackIdsUnshared (twoSteps announce (emptyStep "switch")) 1 := by
  have hrunbook : (managerOf (twoSteps announce (emptyStep "switch"))).runbooks.get? "failover" =
      some (twoSteps announce (emptyStep "switch")) := by decide +kernel
  have hstarted : (managerOf (twoSteps announce (emptyStep "switch"))).executeRunbook "failover"
      "operator" 0 = (some "failover_0", startedOf (twoSteps announce (emptyStep "switch"))) := rfl
  have hresult : executeRunbookSteps (startedOf (twoSteps announce (emptyStep "switch")))
      "failover_0" (fun _ => {}) =
        some (failedAt "switch", [.execute 0 true, .execute 1 false, .rollback 0]) := by
    decide +kernel
  exact rolledBackInReverse_iff hrunbook hstarted hresult rfl (by decide)

/-- If the failing step has the id of the one before it, it is rolled back as well. -/
theorem not_rolledBackInReverse :
    ∃ (manager started : DRRunbooksManager) (runbook : RunbookDefinition)
      (execution : RunbookExecution) (calls : List Call),
      manager.runbooks.get? "failover" = some runbook ∧
        manager.executeRunbook "failover" "operator" 0 = (some "failover_0", started) ∧
        executeRunbookSteps started "failover_0" (fun _ => {}) = some (execution, calls) ∧
        runbook.rollbackAvailable = true ∧ .execute 1 false ∈ calls ∧
        .rollback 1 ∈ calls ∧ ¬RolledBackInReverse runbook 1 calls := by
  refine ⟨managerOf (twoSteps announce (emptyStep "announce")),
    startedOf (twoSteps announce (emptyStep "announce")),
    twoSteps announce (emptyStep "announce"), failedAt "announce",
    [.execute 0 true, .execute 1 false, .rollback 1, .rollback 0],
    by decide +kernel, rfl, by decide +kernel, rfl, by decide, by decide, ?_⟩
  rintro ⟨done, hlt, hcalls⟩
  have hmem : Call.rollback 1 ∈ (done.map fun i => Call.execute i true) ++ .execute 1 false ::
      ((done.filter fun i => (twoSteps announce (emptyStep "announce")).steps[i]?.any
        RunbookStep.hasRollback).reverse.map .rollback) := hcalls ▸ by decide
  have hdone : 1 ∈ done := by
    simp only [List.mem_append, List.mem_map, List.mem_cons, List.mem_reverse, List.mem_filter,
      Call.rollback.injEq, reduceCtorEq, and_false, exists_false, false_or] at hmem
    obtain ⟨i, ⟨hi, -⟩, rfl⟩ := hmem
    exact hi
  exact absurd (hlt 1 hdone) (Nat.lt_irrefl 1)

end Rollback

end DRRunbooks

end MultiAgent
