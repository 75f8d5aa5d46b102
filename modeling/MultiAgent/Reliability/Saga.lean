import Mathlib.Data.List.Basic
import MultiAgent.Lib.Machine

/-!
# Sagas of the reliability library

One saga of `SagaManager` in `libs/reliability/saga_manager.py` : the task that runs
`_execute_saga`, and any number of `cancel_saga` calls. A task suspends only where it
awaits a tool adapter's `execute` or a compensation, so a step of `sagaMachine` is a
task going on from one such point to the next. The saga object is shared, and no task
holds a lock on it.

`sweep` is the loop of `_compensate_saga` up to its next suspension. It skips a step
that is not `COMPLETED` or has no compensation function, so `_compensate_step` never
reaches the adapter's own `compensate`.

`log` records the calls in the order in which they happen. The functions return,
beside the new state, what they add to the counters of the manager.
-/

namespace MultiAgent

namespace SagaManager

/-- `SagaStepStatus`. -/
inductive SagaStepStatus
  | pending
  | executing
  | completed
  | compensating
  | compensated
  | failed
  deriving DecidableEq, Repr

/-- `SagaStatus`. -/
inductive SagaStatus
  | running
  | completed
  | compensating
  | compensated
  | failed
  deriving DecidableEq, Repr

/-- `SagaStep` : `compensation` says whether a compensation function was given. The
results of the tools are values of `ρ`. -/
structure SagaStep (ρ : Type*) where
  compensation : Bool
  status : SagaStepStatus := .pending
  result : Option ρ := none
  error : Option String := none

/-- `SagaExecution`. -/
structure SagaExecution (ρ : Type*) where
  status : SagaStatus := .running
  steps : List (SagaStep ρ)
  currentStepIndex : ℕ := 0
  error : Option String := none
  compensationReason : Option String := none

/-- How the awaited compensation of a step ends. -/
inductive CompensationOutcome
  | succeeded
  | refused
  | raised (error : String)
  deriving DecidableEq, Repr

/-- What happens in a saga. `compensate i explicit result` calls the compensation
function of step `i`, or its adapter's `compensate` if it has none. -/
inductive SagaCall (ρ : Type*)
  | execute (i : ℕ)
  | returned (i : ℕ) (result : ρ)
  | raised (i : ℕ) (error : String)
  | compensate (i : ℕ) (explicit : Bool) (result : Option ρ)
  | compensated (i : ℕ) (outcome : CompensationOutcome)
  | cancelAccepted
  | sagaCompleted
  deriving DecidableEq

/-- Where the task of `_execute_saga` stands. -/
inductive Executor
  | created
  | executing (i : ℕ)
  | compensating (j : ℕ)
  | done
  deriving DecidableEq, Repr

/-- Where a `cancel_saga` call stands. -/
inductive Canceller
  | compensating (j : ℕ)
  | returned (accepted : Bool)
  | raised
  deriving DecidableEq, Repr

/-- Additions to the counters of the manager. -/
structure Counters where
  completed : ℕ := 0
  compensated : ℕ := 0
  failed : ℕ := 0
  deriving DecidableEq, Repr

/-- A saga with its tasks and its log. -/
structure SagaRun (ρ : Type*) where
  saga : SagaExecution ρ
  executor : Executor := .created
  cancellers : List Canceller := []
  log : List (SagaCall ρ) := []

/-- The executor goes on, or a new `cancel_saga` call comes in, or the `c`-th one goes on. -/
inductive SagaEvent (ρ : Type*)
  | start
  | executeReturned (result : ρ)
  | executeRaised (error : String)
  | compensationEnded (outcome : CompensationOutcome)
  | cancel
  | cancelStep (c : ℕ) (outcome : CompensationOutcome)

/-- Where the loop of `_compensate_saga` stops : at the compensation of a step, after
the last index, or with an `IndexError`. -/
inductive SweepStop
  | atStep (j : ℕ)
  | finished
  | indexError

variable {ρ : Type*}

/-- The next index below `n` that the loop compensates; `none` is an `IndexError`. -/
def nextCompensation (steps : List (SagaStep ρ)) : ℕ → Option (Option ℕ)
  | 0 => some none
  | i + 1 =>
    match steps[i]? with
    | none => none
    | some step =>
      if step.status = .completed ∧ step.compensation = true then some (some i)
      else nextCompensation steps i

/-- The loop finds a completed step that has a compensation function, and no such step
between it and `n`. -/
theorem nextCompensation_some {steps : List (SagaStep ρ)} {j : ℕ} :
    ∀ {n : ℕ}, nextCompensation steps n = some (some j) →
      j < n ∧ (∃ step, steps[j]? = some step ∧ step.status = .completed ∧
        step.compensation = true) ∧
      ∀ k step, j < k → k < n → steps[k]? = some step → step.status = .completed →
        step.compensation = false
  | 0, h => by simp [nextCompensation] at h
  | i + 1, h => by
    unfold nextCompensation at h
    split at h
    · cases h
    · rename_i step hstep
      split_ifs at h with hc
      · obtain rfl := Option.some.inj (Option.some.inj h)
        exact ⟨by omega, ⟨step, hstep, hc.1, hc.2⟩, fun k _ hk hlt => by omega⟩
      · obtain ⟨hlt, hj, hnone⟩ := nextCompensation_some h
        refine ⟨by omega, hj, fun k st hk hlt' hst hcomp => ?_⟩
        rcases Nat.lt_succ_iff_lt_or_eq.mp hlt' with hki | rfl
        · exact hnone k st hk hki hst hcomp
        · obtain rfl := Option.some.inj (hstep.symm.trans hst)
          simpa [hcomp] using hc

/-- The loop ends when no completed step below `n` has a compensation function. -/
theorem nextCompensation_none {steps : List (SagaStep ρ)} :
    ∀ {n : ℕ}, nextCompensation steps n = some none →
      ∀ k step, k < n → steps[k]? = some step → step.status = .completed →
        step.compensation = false
  | 0, _ => fun k _ hk => by omega
  | i + 1, h => by
    unfold nextCompensation at h
    split at h
    · cases h
    · rename_i step hstep
      split_ifs at h with hc
      · simp at h
      · intro k st hk hst hcomp
        rcases Nat.lt_succ_iff_lt_or_eq.mp hk with hki | rfl
        · exact nextCompensation_none h k st hki hst hcomp
        · obtain rfl := Option.some.inj (hstep.symm.trans hst)
          simpa [hcomp] using hc

/-- An index inside the list raises no `IndexError`. -/
theorem nextCompensation_isSome {steps : List (SagaStep ρ)} :
    ∀ {n : ℕ}, n ≤ steps.length → (nextCompensation steps n).isSome
  | 0, _ => rfl
  | i + 1, h => by
    unfold nextCompensation
    have hi : i < steps.length := by omega
    rw [List.getElem?_eq_getElem hi]
    dsimp only
    split_ifs
    · rfl
    · exact nextCompensation_isSome (by omega)

/-- The loop reads the steps below `n` only. -/
theorem nextCompensation_congr {steps steps' : List (SagaStep ρ)} :
    ∀ {n : ℕ}, (∀ i < n, steps'[i]? = steps[i]?) →
      nextCompensation steps' n = nextCompensation steps n
  | 0, _ => rfl
  | n + 1, h => by
    rw [nextCompensation, nextCompensation, h n (Nat.lt_succ_self n),
      nextCompensation_congr fun i hi => h i (Nat.lt_succ_of_lt hi)]

namespace SagaRun

variable (r : SagaRun ρ)

/-- Change step `i` and log the call that goes with the change. -/
def record (i : ℕ) (f : SagaStep ρ → SagaStep ρ) (call : SagaCall ρ) : SagaRun ρ :=
  { r with
    saga := { r.saga with steps := r.saga.steps.modify i f }
    log := r.log ++ [call] }

variable {r}

theorem record_step_self {i : ℕ} {step : SagaStep ρ} (f : SagaStep ρ → SagaStep ρ)
    (call : SagaCall ρ) (hi : r.saga.steps[i]? = some step) :
    (r.record i f call).saga.steps[i]? = some (f step) := by
  simp [record, hi]

theorem record_step_ne {i k : ℕ} (f : SagaStep ρ → SagaStep ρ) (call : SagaCall ρ)
    (hk : k ≠ i) : (r.record i f call).saga.steps[k]? = r.saga.steps[k]? :=
  List.getElem?_modify_ne f r.saga.steps (Ne.symm hk)

/-- A step after the change of step `i` is an unchanged one, or the changed one. -/
theorem record_step_cases {i k : ℕ} {f : SagaStep ρ → SagaStep ρ} {call : SagaCall ρ}
    {step : SagaStep ρ} (h : (r.record i f call).saga.steps[k]? = some step) :
    (k ≠ i ∧ r.saga.steps[k]? = some step) ∨
      k = i ∧ ∃ old, r.saga.steps[i]? = some old ∧ step = f old := by
  by_cases hk : k = i
  · subst hk
    cases hold : r.saga.steps[k]? with
    | none => simp [record, hold] at h
    | some old =>
      rw [record_step_self f call hold] at h
      exact Or.inr ⟨rfl, old, rfl, (Option.some.inj h).symm⟩
  · rw [record_step_ne f call hk] at h
    exact Or.inl ⟨hk, h⟩

@[simp] theorem record_length (i : ℕ) (f : SagaStep ρ → SagaStep ρ) (call : SagaCall ρ) :
    (r.record i f call).saga.steps.length = r.saga.steps.length := by
  simp [record]

variable (r)

@[simp] theorem record_log (i : ℕ) (f : SagaStep ρ → SagaStep ρ) (call : SagaCall ρ) :
    (r.record i f call).log = r.log ++ [call] :=
  rfl

/-- `_execute_step` up to the call of the tool. -/
def startStep (i : ℕ) : SagaRun ρ :=
  r.record i (fun step => { step with status := .executing }) (.execute i)

/-- `_execute_step` after the tool returned. -/
def finishStep (i : ℕ) (result : ρ) : SagaRun ρ :=
  r.record i (fun step => { step with status := .completed, result := some result })
    (.returned i result)

/-- The handler of `_execute_step`, which raises the error again. -/
def failStep (i : ℕ) (error : String) : SagaRun ρ :=
  r.record i (fun step => { step with status := .failed, error := some error }) (.raised i error)

/-- `_compensate_step` up to the call of the compensation. -/
def startCompensation (j : ℕ) : SagaRun ρ :=
  match r.saga.steps[j]? with
  | none => r
  | some step =>
    r.record j (fun step => { step with status := .compensating })
      (.compensate j step.compensation step.result)

/-- `_compensate_step` after the compensation ended. -/
def endCompensation (j : ℕ) (outcome : CompensationOutcome) : SagaRun ρ :=
  r.record j
    (fun step => { step with
      status := if outcome = .succeeded then .compensated else .failed })
    (.compensated j outcome)

/-- The saga has the status `status` now. -/
def setStatus (status : SagaStatus) : SagaRun ρ :=
  { r with saga := { r.saga with status := status } }

/-- The loop of `_compensate_saga` over the indices below `n`, downwards, and what
follows the loop. -/
def sweep (n : ℕ) : SagaRun ρ × Counters × SweepStop :=
  match nextCompensation r.saga.steps n with
  | none => (r, {}, .indexError)
  | some none => (r.setStatus .compensated, { compensated := 1 }, .finished)
  | some (some j) => (r.startCompensation j, {}, .atStep j)

/-- The three ways a sweep can stop. -/
theorem sweep_cases (n : ℕ) :
    (nextCompensation r.saga.steps n = none ∧ r.sweep n = (r, {}, .indexError)) ∨
      (nextCompensation r.saga.steps n = some none ∧
        r.sweep n = (r.setStatus .compensated, { compensated := 1 }, .finished)) ∨
      ∃ j step, nextCompensation r.saga.steps n = some (some j) ∧
        r.saga.steps[j]? = some step ∧ step.status = .completed ∧ step.compensation = true ∧
        r.sweep n = (r.record j (fun step => { step with status := .compensating })
          (.compensate j true step.result), {}, .atStep j) := by
  unfold sweep
  cases hn : nextCompensation r.saga.steps n with
  | none => exact Or.inl ⟨rfl, rfl⟩
  | some stop =>
    cases stop with
    | none => exact Or.inr (Or.inl ⟨rfl, rfl⟩)
    | some j =>
      obtain ⟨-, ⟨step, hstep, hcomp, hfun⟩, -⟩ := nextCompensation_some hn
      refine Or.inr (Or.inr ⟨j, step, rfl, hstep, hcomp, hfun, ?_⟩)
      simp [startCompensation, hstep, hfun]

/-- `_compensate_saga` up to its loop. -/
def beginCompensation (reason : Option String) : SagaRun ρ :=
  { r with saga := { r.saga with status := .compensating, compensationReason := reason } }

/-- `_compensate_saga`. -/
def compensateSaga (reason : Option String) : SagaRun ρ × Counters × SweepStop :=
  (r.beginCompensation reason).sweep (r.saga.currentStepIndex + 1)

/-- The executor after its sweep stopped. -/
def setExecutor : SagaRun ρ × Counters × SweepStop → SagaRun ρ × Counters
  | (r, c, .atStep j) => ({ r with executor := .compensating j }, c)
  | (r, c, .finished) => ({ r with executor := .done }, c)
  | (r, c, .indexError) => ({ r with executor := .done }, c)

/-- The state of a `cancel_saga` call after its sweep stopped. -/
def cancellerAt : SweepStop → Canceller
  | .atStep j => .compensating j
  | .finished => .returned true
  | .indexError => .raised

/-- The loop of `_execute_saga` from index `i`, and what follows the loop. -/
def executeFrom (i : ℕ) : SagaRun ρ × Counters :=
  if i < r.saga.steps.length then
    let r := { r with saga := { r.saga with currentStepIndex := i } }
    ({ r.startStep i with executor := .executing i }, {})
  else
    ({ r.setStatus .completed with executor := .done, log := r.log ++ [.sagaCompleted] },
      { completed := 1 })

/-- The rest of the loop body of `_execute_saga`, after `_execute_step` of step `i` returned. -/
def afterStep (i : ℕ) : SagaRun ρ × Counters :=
  match r.saga.steps[i]? with
  | some step =>
    if step.status = .failed then setExecutor (r.compensateSaga step.error)
    else r.executeFrom (i + 1)
  | none => r.executeFrom (i + 1)

/-- The handler of `_execute_saga` up to the compensation. -/
def markFailed (error : String) : SagaRun ρ :=
  { r with saga := { r.saga with status := .failed, error := some error } }

/-- The handler of `_execute_saga`. -/
def handleFailure (error : String) : SagaRun ρ × Counters :=
  let (r, c) := setExecutor ((r.markFailed error).compensateSaga (some error))
  (r, { c with failed := c.failed + 1 })

/-- `cancel_saga` finds the saga running. -/
def logCancel : SagaRun ρ :=
  { r with log := r.log ++ [.cancelAccepted] }

/-- `cancel_saga` of a saga that is running. -/
def acceptCancel : SagaRun ρ × Counters :=
  let (r, c, stop) := r.logCancel.compensateSaga (some "Manually cancelled")
  ({ r with cancellers := r.cancellers ++ [cancellerAt stop] }, c)

/-- The `c`-th `cancel_saga` call goes on with its loop below `j`. -/
def cancelSweep (c j : ℕ) : SagaRun ρ × Counters :=
  let (r, n, stop) := r.sweep j
  ({ r with cancellers := r.cancellers.set c (cancellerAt stop) }, n)

/-- One step of the tasks. -/
def step : SagaEvent ρ → Option (SagaRun ρ × Counters)
  | .start =>
    match r.executor with
    | .created => some (r.executeFrom 0)
    | _ => none
  | .executeReturned result =>
    match r.executor with
    | .executing i => some ((r.finishStep i result).afterStep i)
    | _ => none
  | .executeRaised error =>
    match r.executor with
    | .executing i => some ((r.failStep i error).handleFailure error)
    | _ => none
  | .compensationEnded outcome =>
    match r.executor with
    | .compensating j => some (setExecutor ((r.endCompensation j outcome).sweep j))
    | _ => none
  | .cancel =>
    if r.saga.status = .running then some r.acceptCancel
    else some ({ r with cancellers := r.cancellers ++ [.returned false] }, {})
  | .cancelStep c outcome =>
    match r.cancellers[c]? with
    | some (.compensating j) => some ((r.endCompensation j outcome).cancelSweep c j)
    | _ => none

/-- Everything a step can do. -/
theorem step_cases {r : SagaRun ρ} {e : SagaEvent ρ} {t : SagaRun ρ × Counters}
    (h : r.step e = some t) :
    (e = .start ∧ r.executor = .created ∧ t = r.executeFrom 0) ∨
      (∃ i x, e = .executeReturned x ∧ r.executor = .executing i ∧
        t = (r.finishStep i x).afterStep i) ∨
      (∃ i error, e = .executeRaised error ∧ r.executor = .executing i ∧
        t = (r.failStep i error).handleFailure error) ∨
      (∃ j o, e = .compensationEnded o ∧ r.executor = .compensating j ∧
        t = setExecutor ((r.endCompensation j o).sweep j)) ∨
      (e = .cancel ∧ r.saga.status = .running ∧ t = r.acceptCancel) ∨
      (e = .cancel ∧ r.saga.status ≠ .running ∧
        t = ({ r with cancellers := r.cancellers ++ [.returned false] }, {})) ∨
      (∃ c j o, e = .cancelStep c o ∧ r.cancellers[c]? = some (.compensating j) ∧
        t = (r.endCompensation j o).cancelSweep c j) := by
  cases e with
  | start =>
    simp only [step] at h
    split at h
    · exact Or.inl ⟨rfl, ‹_›, (Option.some.inj h).symm⟩
    · cases h
  | executeReturned x =>
    simp only [step] at h
    split at h
    · exact Or.inr (Or.inl ⟨_, x, rfl, ‹_›, (Option.some.inj h).symm⟩)
    · cases h
  | executeRaised error =>
    simp only [step] at h
    split at h
    · exact Or.inr (Or.inr (Or.inl ⟨_, error, rfl, ‹_›, (Option.some.inj h).symm⟩))
    · cases h
  | compensationEnded o =>
    simp only [step] at h
    split at h
    · exact Or.inr (Or.inr (Or.inr (Or.inl ⟨_, o, rfl, ‹_›, (Option.some.inj h).symm⟩)))
    · cases h
  | cancel =>
    simp only [step] at h
    split_ifs at h with hr
    · exact Or.inr (Or.inr (Or.inr (Or.inr (Or.inl ⟨rfl, hr, (Option.some.inj h).symm⟩))))
    · exact Or.inr (Or.inr (Or.inr (Or.inr (Or.inr (Or.inl
        ⟨rfl, hr, (Option.some.inj h).symm⟩)))))
  | cancelStep c o =>
    simp only [step] at h
    split at h
    · exact Or.inr (Or.inr (Or.inr (Or.inr (Or.inr (Or.inr
        ⟨c, _, o, rfl, ‹_›, (Option.some.inj h).symm⟩)))))
    · cases h

/-- A step whose tool returned is `COMPLETED`, so the loop goes on. -/
theorem afterStep_finishStep (i : ℕ) (x : ρ) :
    (r.finishStep i x).afterStep i = (r.finishStep i x).executeFrom (i + 1) := by
  unfold afterStep
  split
  · rename_i step hstep
    rcases record_step_cases hstep with ⟨hne, -⟩ | ⟨-, old, -, rfl⟩
    · exact absurd rfl hne
    · simp
  · rfl

/-- A sweep passes a step that is not `COMPLETED`. -/
theorem sweep_succ {r : SagaRun ρ} {i : ℕ} {step : SagaStep ρ}
    (hi : r.saga.steps[i]? = some step) (hne : step.status ≠ .completed) :
    r.sweep (i + 1) = r.sweep i := by
  unfold sweep
  rw [nextCompensation, hi]
  simp [hne]

/-- The loop that a failure starts passes the failed step. -/
theorem failStep_handleFailure {r : SagaRun ρ} {i : ℕ} {error : String}
    (hi : i < r.saga.steps.length) (hcur : r.saga.currentStepIndex = i) :
    ((r.failStep i error).handleFailure error).1 = (setExecutor
      ((((r.failStep i error).markFailed error).beginCompensation (some error)).sweep i)).1 := by
  obtain rfl := hcur
  have hstep := record_step_self (fun step : SagaStep ρ =>
    { step with status := .failed, error := some error })
    (.raised r.saga.currentStepIndex error) (List.getElem?_eq_getElem hi)
  exact congrArg (fun s => (setExecutor s).1) (sweep_succ hstep (by simp))

/-! ## Compensation functions

No step changes which steps have a compensation function. -/

/-- For each step, whether it has a compensation function. -/
def compensations : List Bool :=
  r.saga.steps.map SagaStep.compensation

@[simp] theorem record_compensations {i : ℕ} {f : SagaStep ρ → SagaStep ρ} (call : SagaCall ρ)
    (hf : ∀ step, (f step).compensation = step.compensation) :
    (r.record i f call).compensations = r.compensations := by
  refine List.ext_getElem? fun k => ?_
  by_cases hk : k = i
  · subst hk
    cases hstep : r.saga.steps[k]? <;> simp [compensations, record, hstep, hf]
  · simp only [compensations, List.getElem?_map, record_step_ne f call hk]

theorem finishStep_compensations (i : ℕ) (x : ρ) :
    (r.finishStep i x).compensations = r.compensations :=
  r.record_compensations (.returned i x) fun _ => rfl

theorem failStep_compensations (i : ℕ) (error : String) :
    (r.failStep i error).compensations = r.compensations :=
  r.record_compensations (.raised i error) fun _ => rfl

theorem endCompensation_compensations (j : ℕ) (o : CompensationOutcome) :
    (r.endCompensation j o).compensations = r.compensations :=
  r.record_compensations (.compensated j o) fun _ => rfl

theorem startCompensation_compensations (j : ℕ) :
    (r.startCompensation j).compensations = r.compensations := by
  unfold startCompensation
  split
  · rfl
  · exact r.record_compensations _ fun _ => rfl

theorem sweep_compensations (n : ℕ) : (r.sweep n).1.compensations = r.compensations := by
  unfold sweep
  split
  · rfl
  · rfl
  · exact r.startCompensation_compensations _

theorem setExecutor_compensations (s : SagaRun ρ × Counters × SweepStop) :
    (setExecutor s).1.compensations = s.1.compensations := by
  obtain ⟨r, c, stop⟩ := s
  cases stop <;> rfl

theorem executeFrom_compensations (i : ℕ) :
    (r.executeFrom i).1.compensations = r.compensations := by
  unfold executeFrom
  split_ifs
  · exact record_compensations _ (.execute i) fun _ => rfl
  · rfl

theorem compensateSaga_compensations (reason : Option String) :
    (r.compensateSaga reason).1.compensations = r.compensations :=
  sweep_compensations _ _

theorem afterStep_compensations (i : ℕ) :
    (r.afterStep i).1.compensations = r.compensations := by
  unfold afterStep
  split
  · split_ifs
    · rw [setExecutor_compensations, compensateSaga_compensations]
    · exact r.executeFrom_compensations _
  · exact r.executeFrom_compensations _

theorem compensations_step {r : SagaRun ρ} {e : SagaEvent ρ} {t : SagaRun ρ × Counters}
    (h : r.step e = some t) : t.1.compensations = r.compensations := by
  rcases step_cases h with ⟨-, -, rfl⟩ | ⟨i, x, -, -, rfl⟩ | ⟨i, error, -, -, rfl⟩ |
    ⟨j, o, -, -, rfl⟩ | ⟨-, -, rfl⟩ | ⟨-, -, rfl⟩ | ⟨c, j, o, -, -, rfl⟩
  · exact r.executeFrom_compensations 0
  · rw [afterStep_compensations, finishStep_compensations]
  · refine (setExecutor_compensations _).trans ((compensateSaga_compensations _ _).trans ?_)
    exact r.failStep_compensations i error
  · rw [setExecutor_compensations, sweep_compensations, endCompensation_compensations]
  · exact compensateSaga_compensations _ _
  · rfl
  · exact (sweep_compensations _ _).trans (r.endCompensation_compensations j o)

/-! ## The cancel calls

Only the cancel calls themselves change where they stand. -/

theorem sweep_cancellers (n : ℕ) : (r.sweep n).1.cancellers = r.cancellers := by
  rcases r.sweep_cases n with ⟨-, hs⟩ | ⟨-, hs⟩ | ⟨j, step, -, -, -, -, hs⟩ <;> rw [hs] <;> rfl

theorem setExecutor_cancellers (s : SagaRun ρ × Counters × SweepStop) :
    (setExecutor s).1.cancellers = s.1.cancellers := by
  obtain ⟨r, c, stop⟩ := s
  cases stop <;> rfl

theorem executeFrom_cancellers (i : ℕ) : (r.executeFrom i).1.cancellers = r.cancellers := by
  unfold executeFrom
  split_ifs <;> rfl

theorem afterStep_cancellers (i : ℕ) : (r.afterStep i).1.cancellers = r.cancellers := by
  unfold afterStep
  split
  · split_ifs
    · rw [setExecutor_cancellers]
      exact sweep_cancellers _ _
    · exact r.executeFrom_cancellers _
  · exact r.executeFrom_cancellers _

theorem handleFailure_cancellers (error : String) :
    (r.handleFailure error).1.cancellers = r.cancellers :=
  (setExecutor_cancellers _).trans (sweep_cancellers _ _)

/-- The saga when the loop of a cancel call begins. -/
def beginCancel : SagaRun ρ :=
  r.logCancel.beginCompensation (some "Manually cancelled")

theorem acceptCancel_eq : r.acceptCancel.1 =
    { (r.beginCancel.sweep (r.saga.currentStepIndex + 1)).1 with
      cancellers := r.cancellers ++
        [cancellerAt (r.beginCancel.sweep (r.saga.currentStepIndex + 1)).2.2] } :=
  congrArg (fun cs => { (r.beginCancel.sweep (r.saga.currentStepIndex + 1)).1 with
    cancellers := cs ++ [cancellerAt (r.beginCancel.sweep (r.saga.currentStepIndex + 1)).2.2] })
    (r.beginCancel.sweep_cancellers _)

theorem cancelSweep_eq (c j : ℕ) : (r.cancelSweep c j).1 =
    { (r.sweep j).1 with cancellers := r.cancellers.set c (cancellerAt (r.sweep j).2.2) } :=
  congrArg (fun cs => { (r.sweep j).1 with
    cancellers := List.set cs c (cancellerAt (r.sweep j).2.2) }) (r.sweep_cancellers j)

/-- The loop finds nothing to compensate below `j`. -/
def loopEnds (j : ℕ) : Bool :=
  (nextCompensation r.saga.steps j).any Option.isNone

theorem loopEnds_iff {r : SagaRun ρ} {j : ℕ} :
    r.loopEnds j = true ↔ nextCompensation r.saga.steps j = some none := by
  unfold loopEnds
  cases nextCompensation r.saga.steps j with
  | none => simp
  | some stop => simp

/-- The end of the compensation of step `j` changes nothing below it. -/
theorem endCompensation_loopEnds (j : ℕ) (o : CompensationOutcome) :
    (r.endCompensation j o).loopEnds j = r.loopEnds j := by
  have hsame : nextCompensation (r.endCompensation j o).saga.steps j =
      nextCompensation r.saga.steps j :=
    nextCompensation_congr fun i hi => record_step_ne _ (.compensated j o) (Nat.ne_of_lt hi)
  rw [loopEnds, hsame, loopEnds]

/-- The compensation that the `c`-th cancel call waits for is its last one. -/
def lastCompensation (c : ℕ) : Bool :=
  match r.cancellers[c]? with
  | some (.compensating j) => r.loopEnds j
  | _ => false

/-- Nothing is left to run : the executor and every cancel call are at their end. -/
def AllDone : Prop :=
  r.executor = .done ∧ ∀ j, .compensating j ∉ r.cancellers

end SagaRun

/-- `start_saga` : a new saga, given for each step whether it has a compensation function. -/
def startSaga (compensations : List Bool) : SagaRun ρ where
  saga := { steps := compensations.map fun b => { compensation := b } }

/-- One saga, its executor and its cancel calls. -/
def sagaMachine (ρ : Type*) (compensations : List Bool) :
    Machine (SagaRun ρ) (SagaEvent ρ) where
  init := startSaga compensations
  step r e := (r.step e).map Prod.fst

/-- The saga keeps the compensation functions it was started with. -/
theorem compensations_of_run {compensations : List Bool}
    {ok : SagaRun ρ → SagaEvent ρ → Prop} {es : List (SagaEvent ρ)} {r : SagaRun ρ}
    (h : (sagaMachine ρ compensations).Run ok es r) : r.compensations = compensations := by
  refine h.invariant (I := fun r => r.compensations = compensations) ?_ fun s e t hs _ hst => ?_
  · simp [sagaMachine, startSaga, SagaRun.compensations, Function.comp_def]
  · obtain ⟨u, hu, rfl⟩ := Option.map_eq_some_iff.mp hst
    exact (SagaRun.compensations_step hu).trans hs

end SagaManager

end MultiAgent
