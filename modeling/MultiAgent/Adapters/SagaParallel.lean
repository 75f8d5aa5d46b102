import MultiAgent.Adapters.SagaPattern

/-!
# What a failed saga leaves behind

`_execute_saga_parallel` waits for its tasks in the order of the steps, and returns at
the first error it meets. A later step that has returned by then is still `RUNNING`, so
it is not compensated, and a later step that has not ended goes on after `execute_saga`
returned. `undoesAll_of_run` says that a failed saga undoes every step that returned,
and leaves none running, in every run in which each step after the first error has
raised, or has returned and has nothing to undo, when the error is met.
-/

namespace MultiAgent

namespace SagaPattern

variable {ρ : Type*}

/-- A step that needs nothing any more : it raised, or it has nothing to undo. -/
def SagaStep.settled (step : SagaStep ρ) : Bool :=
  step.inert && (!step.hasReturned || !step.compensateFunc)

/-- The steps after the first error, if the loop over these steps meets one. -/
def lateSteps : List (SagaStep ρ) → List (SagaStep ρ)
  | [] => []
  | step :: rest =>
    match step.runner with
    | .returned _ => lateSteps rest
    | .raised _ => rest
    | _ => []

/-- When the executor meets an error, every later step is settled. -/
def FailsSettled (r : SagaRun ρ) (e : SagaEvent ρ) : Prop :=
  match e, r.executor with
  | .resume, .awaiting k => ∀ step ∈ lateSteps (r.saga.steps.drop k), step.settled = true
  | _, _ => True

instance (r : SagaRun ρ) (e : SagaEvent ρ) : Decidable (FailsSettled r e) := by
  unfold FailsSettled
  split
  · exact inferInstance
  · exact inferInstance

/-- After a failure every step that returned has been undone, and no step is running. -/
def UndoesAll (r : SagaRun ρ) : Prop :=
  r.executor = .returned false → ∀ i step, r.saga.steps[i]? = some step →
    (∀ attempt, step.runner ≠ .running attempt) ∧
      (∀ x, step.runner = .returned x → step.compensateFunc = true → .compensate i ∈ r.log)

/-! ## The loop over the tasks -/

/-- A step whose result the executor has received. -/
def SagaStep.observe (step : SagaStep ρ) : SagaStep ρ :=
  match step.runner with
  | .returned x => step.complete x
  | _ => step

theorem SagaStep.hasReturned_iff {step : SagaStep ρ} :
    step.hasReturned = true ↔ ∃ x, step.runner = .returned x := by
  unfold hasReturned
  split
  · exact ⟨fun _ => ⟨_, ‹_›⟩, fun _ => rfl⟩
  · rename_i hne
    exact ⟨fun h => by simp at h, fun ⟨x, hx⟩ => absurd hx (hne x)⟩

theorem SagaStep.observe_runner (step : SagaStep ρ) : step.observe.runner = step.runner := by
  unfold observe
  split <;> rfl

theorem SagaStep.observe_status {step : SagaStep ρ} (h : step.hasReturned = true) :
    step.observe.status = .completed := by
  obtain ⟨x, hx⟩ := hasReturned_iff.1 h
  simp [observe, hx, complete]

/-- The loop passes the steps that have returned. Then it is through, or it meets an
error, or it waits for a task that has not ended. -/
theorem awaitTasks_cases (steps : List (SagaStep ρ)) : ∀ k : ℕ,
    ((∀ step ∈ steps, step.hasReturned = true) ∧
        awaitTasks k steps = (steps.map SagaStep.observe, .succeeded)) ∨
      (∃ pre step rest error, steps = pre ++ step :: rest ∧
        (∀ s ∈ pre, s.hasReturned = true) ∧ step.runner = .raised error ∧
        awaitTasks k steps = (pre.map SagaStep.observe ++ step.fail error :: rest, .failed)) ∨
      ∃ pre step rest, steps = pre ++ step :: rest ∧ (∀ s ∈ pre, s.hasReturned = true) ∧
        step.hasEnded = false ∧
        awaitTasks k steps =
          (pre.map SagaStep.observe ++ step :: rest, .pending (k + pre.length)) := by
  induction steps with
  | nil => exact fun k => Or.inl ⟨by simp, rfl⟩
  | cons step rest ih =>
    intro k
    cases hrun : step.runner with
    | returned x =>
      have hret : step.hasReturned = true := SagaStep.hasReturned_iff.2 ⟨x, hrun⟩
      have hobs : step.observe = step.complete x := by simp [SagaStep.observe, hrun]
      rcases ih (k + 1) with ⟨hall, heq⟩ | ⟨pre, s, post, error, rfl, hpre, hs, heq⟩ |
        ⟨pre, s, post, rfl, hpre, hs, heq⟩
      · refine Or.inl ⟨?_, by simp [awaitTasks, hrun, heq, hobs]⟩
        simpa [hret] using hall
      · refine Or.inr (Or.inl ⟨step :: pre, s, post, error, rfl, ?_, hs, ?_⟩)
        · simpa [hret] using hpre
        · simp [awaitTasks, hrun, heq, hobs]
      · refine Or.inr (Or.inr ⟨step :: pre, s, post, rfl, ?_, hs, ?_⟩)
        · simpa [hret] using hpre
        · simp [awaitTasks, hrun, heq, hobs]
          omega
    | raised error =>
      exact Or.inr (Or.inl ⟨[], step, rest, error, rfl, by simp, hrun, by simp [awaitTasks, hrun]⟩)
    | _ =>
      exact Or.inr (Or.inr ⟨[], step, rest, rfl, by simp, by simp [SagaStep.hasEnded, hrun],
        by simp [awaitTasks, hrun]⟩)

theorem lateSteps_append {pre rest : List (SagaStep ρ)} {step : SagaStep ρ} {error : String}
    (hpre : ∀ s ∈ pre, s.hasReturned = true) (hstep : step.runner = .raised error) :
    lateSteps (pre ++ step :: rest) = rest := by
  induction pre with
  | nil => simp [lateSteps, hstep]
  | cons s pre ih =>
    obtain ⟨x, hx⟩ := SagaStep.hasReturned_iff.1 (hpre s (by simp))
    rw [List.cons_append, lateSteps, hx]
    exact ih fun s hs => hpre s (List.mem_cons_of_mem _ hs)

/-! ## The invariant -/

/-- Step `i` is still to be undone, is being undone, or has been. -/
def Undone (r : SagaRun ρ) (current : Option ℕ) (rest : List ℕ) (i : ℕ) (step : SagaStep ρ) :
    Prop :=
  i ∈ rest ∨ .compensate i ∈ r.log ∧ (current = some i ∨ step.status = .compensated ∨
    ∃ error, .compensated i (.raised error) ∈ r.log)

/-- No task of the saga goes on, and the steps that returned are accounted for. -/
def Covered (r : SagaRun ρ) (current : Option ℕ) (rest : List ℕ) : Prop :=
  ∀ i step, r.saga.steps[i]? = some step → step.inert = true ∧
    (step.hasReturned = true → step.compensateFunc = true → Undone r current rest i step)

/-- The executor has received the results of the steps below `k`; in sequential mode the
steps above `k` have not been called. -/
structure Received (r : SagaRun ρ) (k : ℕ) : Prop where
  received : ∀ step ∈ r.saga.steps.take k, step.hasReturned = true ∧ step.status = .completed
  idle : r.saga.parallelExecution = false → ∀ step ∈ r.saga.steps.drop (k + 1),
    step.runner = .idle

/-- How far the executor has come. -/
def Phase (r : SagaRun ρ) : Executor → Prop
  | .created => ∀ step ∈ r.saga.steps, step.runner = .idle
  | .awaiting k => Received r k
  | .compensating i rest => Covered r (some i) rest ∧ .compensate i ∈ r.log
  | .returned false => Covered r none []
  | .returned true => r.saga.status = .completed

theorem SagaStep.inert_of_hasReturned {step : SagaStep ρ} (h : step.hasReturned = true) :
    step.inert = true := by
  obtain ⟨x, hx⟩ := hasReturned_iff.1 h
  simp [inert, hasEnded, hx]

/-- The task of a step that is not going on takes no step. -/
theorem SagaStep.taskStep_inert {step : SagaStep ρ} (h : step.inert = true) (e : TaskEvent ρ) :
    step.taskStep e = none := by
  unfold inert hasEnded at h
  cases e <;> cases hrun : step.runner <;> simp_all [taskStep]

/-- More entries of the log account for no less. -/
theorem Undone.mono {r t : SagaRun ρ} {current current' : Option ℕ} {rest rest' : List ℕ} {i : ℕ}
    {step : SagaStep ρ} (h : Undone r current rest i step) (hlog : ∀ c ∈ r.log, c ∈ t.log)
    (hrest : i ∈ rest → Undone t current' rest' i step)
    (hcurrent : current = some i → Undone t current' rest' i step) :
    Undone t current' rest' i step := by
  rcases h with hmem | ⟨hcall, hcur | hstatus | ⟨error, herr⟩⟩
  · exact hrest hmem
  · exact hcurrent hcur
  · exact Or.inr ⟨hlog _ hcall, Or.inr (Or.inl hstatus)⟩
  · exact Or.inr ⟨hlog _ hcall, Or.inr (Or.inr ⟨error, hlog _ herr⟩)⟩

/-- The loop of `_execute_compensation`. -/
theorem Covered.compensateFrom {l : List ℕ} : ∀ {r : SagaRun ρ}, Covered r none l →
    Phase (r.compensateFrom l) (r.compensateFrom l).executor := by
  induction l with
  | nil => exact fun h => h
  | cons j l ih =>
    intro r h
    unfold SagaRun.compensateFrom
    split_ifs with hfunc
    · refine ⟨fun i step hi => ?_, by simp⟩
      obtain ⟨hinert, hcov⟩ := h i step hi
      refine ⟨hinert, fun hret hf => (hcov hret hf).mono (fun _ => List.mem_append_left _)
        (fun hmem => ?_) fun hcur => by simp at hcur⟩
      rcases List.mem_cons.mp hmem with rfl | hmem
      · exact Or.inr ⟨by simp, Or.inl rfl⟩
      · exact Or.inl hmem
    · refine ih fun i step hi => ?_
      obtain ⟨hinert, hcov⟩ := h i step hi
      refine ⟨hinert, fun hret hf => ?_⟩
      refine (hcov hret hf).imp_left fun hmem => (List.mem_cons.mp hmem).resolve_left ?_
      rintro rfl
      simp [hi, hf] at hfunc

theorem Covered.endCompensation {r : SagaRun ρ} {j : ℕ} {rest : List ℕ}
    (h : Covered r (some j) rest) (hcall : .compensate j ∈ r.log) (o : CompensateOutcome) :
    Covered (r.endCompensation j o) none rest := by
  have hgrow : ∀ c ∈ r.log, c ∈ r.log ++ [.compensated j o] := fun _ => List.mem_append_left _
  cases o with
  | raised error =>
    intro i step hi
    obtain ⟨hinert, hcov⟩ := h i step hi
    refine ⟨hinert, fun hret hf => (hcov hret hf).mono hgrow Or.inl fun hcur => ?_⟩
    obtain rfl := Option.some.inj hcur
    exact Or.inr ⟨hgrow _ hcall, Or.inr (Or.inr ⟨error, by simp [SagaRun.endCompensation]⟩)⟩
  | returned value =>
    intro i step hi
    rw [show (r.endCompensation j (.returned value)).saga.steps = r.saga.steps.modify j
      fun step => { step with status := .compensated } from rfl, List.getElem?_modify] at hi
    obtain ⟨old, hold, hnew⟩ := Option.map_eq_some_iff.mp hi
    obtain ⟨hinert, hcov⟩ := h i old hold
    split_ifs at hnew with hij
    · obtain rfl := hnew
      exact ⟨hinert, fun _ _ => Or.inr ⟨hij ▸ hgrow _ hcall, Or.inr (Or.inl rfl)⟩⟩
    · obtain rfl := hnew
      refine ⟨hinert, fun hret hf => (hcov hret hf).mono hgrow Or.inl fun hcur => ?_⟩
      exact absurd (Option.some.inj hcur) hij

/-- The compensation begins with the steps in status `COMPLETED`. -/
theorem executeCompensation_phase {r : SagaRun ρ}
    (h : ∀ step ∈ r.saga.steps, step.inert = true ∧
      (step.hasReturned = true → step.compensateFunc = true → step.status = .completed)) :
    Phase r.executeCompensation r.executeCompensation.executor := by
  have hcov : ∀ i step, r.saga.steps[i]? = some step → step.inert = true ∧
      (step.hasReturned = true → step.compensateFunc = true → i ∈ r.completedSteps) := by
    intro i step hi
    obtain ⟨hinert, hstatus⟩ := h step (List.mem_of_getElem? hi)
    refine ⟨hinert, fun hret hf => List.mem_filter.mpr ⟨List.mem_range.mpr ?_, ?_⟩⟩
    · exact (List.getElem?_eq_some_iff.mp hi).1
    · simp [hi, hstatus hret hf]
  unfold SagaRun.executeCompensation
  dsimp only
  split_ifs
  · refine Covered.compensateFrom fun i step hi => ?_
    obtain ⟨hinert, hmem⟩ := hcov i step hi
    exact ⟨hinert, fun hret hf => Or.inl (List.mem_reverse.mpr (hmem hret hf))⟩
  · refine Covered.compensateFrom fun i step hi => ?_
    obtain ⟨hinert, hmem⟩ := hcov i step hi
    exact ⟨hinert, fun hret hf => Or.inl (hmem hret hf)⟩

theorem SagaStep.not_hasReturned {step : SagaStep ρ} {error : String}
    (h : step.runner = .raised error) : step.hasReturned = false := by
  simp [hasReturned, h]

/-- `_execute_saga_parallel` from the task at `k`, with every step after an error settled. -/
theorem awaitFrom_phase {r : SagaRun ρ} {k : ℕ} (hpar : r.saga.parallelExecution = true)
    (hreceived : ∀ step ∈ r.saga.steps.take k, step.hasReturned = true ∧ step.status = .completed)
    (hlate : ∀ step ∈ lateSteps (r.saga.steps.drop k), step.settled = true) :
    Phase (r.awaitFrom k) (r.awaitFrom k).executor := by
  have hobs : ∀ pre : List (SagaStep ρ), (∀ s ∈ pre, s.hasReturned = true) →
      ∀ step ∈ pre.map SagaStep.observe, step.hasReturned = true ∧ step.status = .completed := by
    intro pre hpre step hstep
    obtain ⟨old, hold, rfl⟩ := List.mem_map.mp hstep
    refine ⟨?_, SagaStep.observe_status (hpre old hold)⟩
    rw [SagaStep.hasReturned, SagaStep.observe_runner]
    exact hpre old hold
  unfold SagaRun.awaitFrom
  rcases awaitTasks_cases (r.saga.steps.drop k) k with ⟨-, heq⟩ |
    ⟨pre, s, rest, error, hsplit, hpre, hs, heq⟩ | ⟨pre, s, rest, hsplit, hpre, -, heq⟩ <;>
    rw [heq]
  · rfl
  · refine executeCompensation_phase fun step hstep => ?_
    rw [hsplit, lateSteps_append hpre hs] at hlate
    have hmem : step ∈ r.saga.steps.take k ∨ step ∈ pre.map SagaStep.observe ∨
        step = s.fail error ∨ step ∈ rest := by
      simpa [SagaRun.setSteps] using hstep
    rcases hmem with hmem | hmem | rfl | hmem
    · obtain ⟨hret, hstatus⟩ := hreceived step hmem
      exact ⟨SagaStep.inert_of_hasReturned hret, fun _ _ => hstatus⟩
    · obtain ⟨hret, hstatus⟩ := hobs pre hpre step hmem
      exact ⟨SagaStep.inert_of_hasReturned hret, fun _ _ => hstatus⟩
    · have hfail : (s.fail error).runner = .raised error := hs
      refine ⟨by simp [SagaStep.inert, SagaStep.hasEnded, hfail], fun hret => ?_⟩
      simp [SagaStep.not_hasReturned hfail] at hret
    · have hsettled := hlate step hmem
      simp only [SagaStep.settled, Bool.and_eq_true, Bool.or_eq_true] at hsettled
      refine ⟨hsettled.1, fun hret hf => ?_⟩
      simp [hret, hf] at hsettled
  · have hlen : (r.saga.steps.take k).length = k := by
      have hdrop := congrArg List.length hsplit
      rw [List.length_drop, List.length_append, List.length_cons] at hdrop
      rw [List.length_take]
      omega
    have htake : (r.saga.steps.take k ++ (pre.map SagaStep.observe ++ s :: rest)).take
        (k + pre.length) = r.saga.steps.take k ++ pre.map SagaStep.observe := by
      rw [← List.append_assoc]
      exact List.take_left' (by simp only [List.length_append, List.length_map, hlen])
    refine ⟨fun step hstep => ?_, fun hseq => ?_⟩
    · have hmem : step ∈ r.saga.steps.take k ∨ step ∈ pre.map SagaStep.observe := by
        rw [← List.mem_append, ← htake]
        exact hstep
      rcases hmem with hmem | hmem
      · exact hreceived step hmem
      · exact hobs pre hpre step hmem
    · exact absurd (hseq.symm.trans hpar) (by simp)

/-- A list around the entry that is modified. -/
theorem modify_split {α : Type*} {l : List α} {k : ℕ} {x : α} (f : α → α) (hk : l[k]? = some x) :
    l.modify k f = (l.take k ++ [f x]) ++ l.drop (k + 1) ∧ (l.take k ++ [f x]).length = k + 1 := by
  obtain ⟨hlt, rfl⟩ := List.getElem?_eq_some_iff.mp hk
  constructor
  · rw [List.modify_eq_take_cons_drop hlt]
    simp
  · simp only [List.length_append, List.length_take, List.length_singleton]
    omega

/-- The loop of `_execute_saga_sequential` from step `i`. -/
theorem executeFrom_phase {r : SagaRun ρ} {i : ℕ}
    (hreceived : ∀ step ∈ r.saga.steps.take i, step.hasReturned = true ∧ step.status = .completed)
    (hidle : ∀ step ∈ r.saga.steps.drop i, step.runner = .idle) :
    Phase (r.executeFrom i) (r.executeFrom i).executor := by
  unfold SagaRun.executeFrom
  split_ifs with hi
  · obtain ⟨hmod, hlen⟩ := modify_split (fun step : SagaStep ρ =>
      { step with status := .running }.startAttempts) (List.getElem?_eq_getElem hi)
    refine ⟨fun step hstep => hreceived step ?_, fun _ step hstep => hidle step ?_⟩
    · rw [← List.modify_eq_self (f := fun step : SagaStep ρ =>
        { step with status := .running }.startAttempts) (List.length_take_le i _),
        ← List.take_modify]
      exact hstep
    · have hdrop : step ∈ r.saga.steps.drop (i + 1) := by
        rw [← List.drop_modify_of_lt (fun step : SagaStep ρ =>
          { step with status := .running }.startAttempts) i (i + 1) _ (Nat.lt_succ_self i)]
        exact hstep
      exact List.drop_subset_drop_left _ (Nat.le_succ i) hdrop
  · rfl

/-- The rest of the loop body of `_execute_saga_sequential`. -/
theorem Received.finishSequential {r : SagaRun ρ} {k : ℕ} (h : Received r k)
    (hseq : r.saga.parallelExecution = false)
    (hended : (r.saga.steps[k]?.any SagaStep.hasEnded) = true) :
    Phase (r.finishSequential k) (r.finishSequential k).executor := by
  obtain ⟨step, hk, hend⟩ := (Option.any_eq_true _ _).mp hended
  unfold SagaRun.finishSequential
  rw [hk, Option.map_some]
  cases hrun : step.runner with
  | returned x =>
    obtain ⟨hmod, hlen⟩ := modify_split (fun step => step.complete x) hk
    refine executeFrom_phase (fun s hs => ?_) fun s hs => ?_
    · rw [SagaRun.modifyStep, SagaRun.setSteps, hmod, List.take_left' hlen] at hs
      rcases List.mem_append.mp hs with hs | hs
      · exact h.received s hs
      · rw [List.mem_singleton.mp hs]
        exact ⟨SagaStep.hasReturned_iff.2 ⟨x, hrun⟩, rfl⟩
    · rw [SagaRun.modifyStep, SagaRun.setSteps, hmod, List.drop_left' hlen] at hs
      exact h.idle hseq s hs
  | raised error =>
    obtain ⟨hmod, -⟩ := modify_split (fun step => step.fail error) hk
    refine executeCompensation_phase fun s hs => ?_
    rw [SagaRun.modifyStep, SagaRun.setSteps, hmod] at hs
    have hmem : s ∈ r.saga.steps.take k ∨ s = step.fail error ∨
        s ∈ r.saga.steps.drop (k + 1) := by simpa using hs
    rcases hmem with hmem | rfl | hmem
    · obtain ⟨hret, hstatus⟩ := h.received s hmem
      exact ⟨SagaStep.inert_of_hasReturned hret, fun _ _ => hstatus⟩
    · have hfail : (step.fail error).runner = .raised error := hrun
      refine ⟨by simp [SagaStep.inert, SagaStep.hasEnded, hfail], fun hret => ?_⟩
      simp [SagaStep.not_hasReturned hfail] at hret
    · have hidle := h.idle hseq s hmem
      refine ⟨by simp [SagaStep.inert, hidle], fun hret => ?_⟩
      simp [SagaStep.hasReturned, hidle] at hret
  | _ => simp [SagaStep.hasEnded, hrun] at hend

/-- The task of a step goes on. -/
theorem Phase.task {r : SagaRun ρ} {i : ℕ} {old new : SagaStep ρ} {e : TaskEvent ρ}
    (h : Phase r r.executor) (hi : r.saga.steps[i]? = some old) (he : old.taskStep e = some new) :
    Phase (r.setSteps (r.saga.steps.set i new)) r.executor := by
  have hnot : old.inert ≠ true := fun hinert => by
    simp [SagaStep.taskStep_inert hinert e] at he
  have hidle : old.runner ≠ .idle := fun hr => hnot (by simp [SagaStep.inert, hr])
  cases hex : r.executor with
  | created =>
    rw [hex] at h
    exact absurd (h old (List.mem_of_getElem? hi)) hidle
  | awaiting k =>
    rw [hex] at h
    obtain ⟨hreceived, hlater⟩ := h
    -- the step is at `k` or above, and in sequential mode it is at `k`
    have hki : k ≤ i := by
      by_contra hlt
      have hmem : old ∈ r.saga.steps.take k :=
        List.mem_of_getElem? ((List.getElem?_take_of_lt (Nat.lt_of_not_le hlt)).trans hi)
      exact hnot (SagaStep.inert_of_hasReturned (hreceived old hmem).1)
    refine ⟨fun s hs => hreceived s ?_, fun hseq s hs => hlater hseq s ?_⟩
    · rw [← List.take_set_of_le hki]
      exact hs
    · have hik : i < k + 1 := by
        by_contra hge
        have hmem : old ∈ r.saga.steps.drop (k + 1) := by
          refine List.mem_of_getElem? (i := i - (k + 1)) ?_
          rw [List.getElem?_drop, Nat.add_sub_cancel' (Nat.le_of_not_lt hge)]
          exact hi
        exact hidle (hlater hseq old hmem)
      rw [← List.drop_set_of_lt hik]
      exact hs
  | compensating j rest =>
    rw [hex] at h
    exact absurd (h.1 i old hi).1 hnot
  | returned success =>
    rw [hex] at h
    cases success with
    | true => exact h
    | false => exact absurd (h i old hi).1 hnot

theorem start_phase {r : SagaRun ρ} (h : ∀ step ∈ r.saga.steps, step.runner = .idle) :
    Phase r.start r.start.executor := by
  unfold SagaRun.start
  dsimp only
  split_ifs with hpar
  · refine awaitFrom_phase hpar (by simp) ?_
    -- no task has begun, so the loop waits for the first one
    cases hsteps : r.saga.steps with
    | nil => simp [SagaRun.setSteps, SagaRun.setStatus, hsteps, lateSteps]
    | cons s rest => simp [SagaRun.setSteps, SagaRun.setStatus, hsteps, lateSteps]
  · exact executeFrom_phase (by simp) fun s hs => h s hs

theorem Phase.step {r t : SagaRun ρ} {e : SagaEvent ρ} (h : Phase r r.executor)
    (hok : FailsSettled r e) (hst : r.step e = some t) : Phase t t.executor := by
  rcases SagaRun.step_cases hst with ⟨rfl, hex, rfl⟩ | ⟨i, e', old, new, rfl, hi, he, rfl⟩ |
    ⟨k, rfl, hex, hended, rfl⟩ | ⟨i, rest, o, rfl, hex, rfl⟩
  · rw [hex] at h
    exact start_phase h
  · exact h.task hi he
  · rw [hex] at h
    cases hpar : r.saga.parallelExecution with
    | true =>
      simp only [FailsSettled, hex] at hok
      exact awaitFrom_phase hpar h.received hok
    | false => exact h.finishSequential hpar hended
  · rw [hex] at h
    exact (h.1.endCompensation h.2 o).compensateFrom

/-- The machine of a saga keeps to its phases. -/
theorem phase_of_run {parallel : Bool} {strategy : String} {steps : List (Bool × ℤ)}
    {es : List (SagaEvent ρ)} {r : SagaRun ρ}
    (h : (sagaMachine ρ parallel strategy steps).Run FailsSettled es r) : Phase r r.executor := by
  refine h.invariant (I := fun r => Phase r r.executor) (fun step hstep => ?_)
    fun s e t hs hok hst => hs.step hok hst
  obtain ⟨b, -, rfl⟩ := List.mem_map.mp hstep
  rfl

/-- In every run in which, when the executor meets an error, every later step has raised,
or has returned and has nothing to undo, a failed saga has undone every step that
returned, and no step of it is running. -/
theorem undoesAll_of_run {parallel : Bool} {strategy : String} {steps : List (Bool × ℤ)}
    {es : List (SagaEvent ρ)} {r : SagaRun ρ}
    (h : (sagaMachine ρ parallel strategy steps).Run FailsSettled es r) : UndoesAll r := by
  intro hfailed i step hi
  have hphase := phase_of_run h
  rw [hfailed] at hphase
  obtain ⟨hinert, hcov⟩ := hphase i step hi
  refine ⟨fun attempt hrun => ?_, fun x hx hf => ?_⟩
  · simp [SagaStep.inert, SagaStep.hasEnded, hrun] at hinert
  · rcases hcov (SagaStep.hasReturned_iff.2 ⟨x, hx⟩) hf with hmem | ⟨hcall, -⟩
    · simp at hmem
    · exact hcall

/-- The second of three steps raises after the two others have ended. -/
theorem undoesAll_of_run_three : ∃ r : SagaRun ℕ,
    (∃ es, (sagaMachine ℕ true "reverse_order" [(true, 0), (true, 0), (false, 0)]).Run
      FailsSettled es r) ∧ r.executor = .returned false ∧ UndoesAll r := by
  obtain ⟨r, hrun, hp⟩ := Machine.exists_run
    (sagaMachine ℕ true "reverse_order" [(true, 0), (true, 0), (false, 0)]) FailsSettled
    [.start, .task 0 .enter, .task 1 .enter, .task 2 .enter, .task 2 (.returned 5),
      .task 0 (.returned 6), .task 1 .timedOut, .resume, .compensationEnded (.returned true)]
    (fun r => r.executor = .returned false) (by decide)
  exact ⟨r, ⟨_, hrun⟩, of_decide_eq_true hp, undoesAll_of_run hrun⟩

/-- The first step fails while the second one is running. `execute_saga` returns at once,
and the second step goes on. -/
theorem not_undoesAll :
    ¬∀ (steps : List (Bool × ℤ)) (r : SagaRun ℕ),
      (sagaMachine ℕ true "reverse_order" steps).Reachable r → UndoesAll r := by
  intro hall
  obtain ⟨r, hrun, hp⟩ := Machine.exists_run
    (sagaMachine ℕ true "reverse_order" [(false, 0), (true, 0)]) (fun _ _ => True)
    [.start, .task 0 .enter, .task 1 .enter, .task 0 (.raised "e"), .resume]
    (fun r => r.executor = .returned false ∧
      r.saga.steps[1]?.map SagaStep.runner = some (.running 0)) (by decide)
  obtain ⟨hfailed, hrunning⟩ := of_decide_eq_true hp
  obtain ⟨step, hstep, hrunner⟩ := Option.map_eq_some_iff.mp hrunning
  exact (hall _ r hrun.reachable hfailed 1 step hstep).1 0 hrunner

end SagaPattern

end MultiAgent
