import Mathlib.Data.Int.Notation
import Mathlib.Data.List.Basic
import MultiAgent.Lib.Machine

/-!
# Sagas of the adapter library

One `execute_saga` call of `SagaManager` in `libs/adapters/saga_pattern.py` : the task
that called it, and in parallel mode one task for each step. A step of `sagaMachine` is
a task going on from one suspension to the next. A coroutine that is awaited directly
hands its result on in a step of its own, in which no other task of the saga can take
part.

`runner` says where `_execute_step_with_retry` of a step stands. It survives the return
of `execute_saga`, which cancels none of the tasks that it created. How long an attempt
or a delay takes is up to the run, so an attempt may time out whenever it is running.
-/

namespace MultiAgent

namespace SagaPattern

/-- `SagaStatus`. -/
inductive SagaStatus
  | pending
  | running
  | completed
  | compensating
  | compensated
  | failed
  deriving DecidableEq, Repr

/-- `StepStatus`. -/
inductive StepStatus
  | pending
  | running
  | completed
  | failed
  | compensated
  deriving DecidableEq, Repr

/-- Where `_execute_step_with_retry` of a step stands : not called, a task that has not
begun, awaiting `execute_func`, waiting to retry, or at its end. -/
inductive Runner (ρ : Type*)
  | idle
  | created
  | running (attempt : ℕ)
  | sleeping (attempt : ℕ)
  | returned (result : ρ)
  | raised (error : String)
  deriving DecidableEq

/-- `SagaStep` : `compensateFunc` says whether there is a compensation function. -/
structure SagaStep (ρ : Type*) where
  compensateFunc : Bool
  maxRetries : ℤ := 3
  retryAttempts : ℕ := 0
  status : StepStatus := .pending
  result : Option ρ := none
  error : Option String := none
  runner : Runner ρ := .idle

/-- `Saga`. -/
structure Saga (ρ : Type*) where
  steps : List (SagaStep ρ) := []
  parallelExecution : Bool := false
  compensationStrategy : String := "reverse_order"
  status : SagaStatus := .pending

/-- How the awaited `compensate_func` of a step ends. -/
inductive CompensateOutcome
  | returned (value : Bool)
  | raised (error : String)
  deriving DecidableEq, Repr

/-- What happens to the compensations. -/
inductive SagaCall
  | compensate (i : ℕ)
  | compensated (i : ℕ) (outcome : CompensateOutcome)
  deriving DecidableEq, Repr

/-- Where the `execute_saga` call stands. -/
inductive Executor
  | created
  | awaiting (k : ℕ)
  | compensating (i : ℕ) (rest : List ℕ)
  | returned (success : Bool)
  deriving DecidableEq, Repr

/-- A saga with its tasks and its log. -/
structure SagaRun (ρ : Type*) where
  saga : Saga ρ
  executor : Executor := .created
  log : List SagaCall := []

/-- The task of a step goes on. -/
inductive TaskEvent (ρ : Type*)
  | enter
  | returned (result : ρ)
  | raised (error : String)
  | timedOut
  | wake

/-- `execute_saga` is called, the task of step `i` goes on, the awaited step has ended, or
the awaited compensation has. -/
inductive SagaEvent (ρ : Type*)
  | start
  | task (i : ℕ) (e : TaskEvent ρ)
  | resume
  | compensationEnded (outcome : CompensateOutcome)

/-- How far the loop of `_execute_saga_parallel` gets. -/
inductive Wait
  | succeeded
  | failed
  | pending (k : ℕ)

variable {ρ : Type*}

namespace SagaStep

variable (step : SagaStep ρ)

/-- `_execute_step_with_retry` up to its first attempt. With `max_retries` below 0 there
is none, and the coroutine raises `None`. -/
def startAttempts : SagaStep ρ :=
  { step with
    runner := if 0 ≤ step.maxRetries then .running 0
      else .raised "exceptions must derive from BaseException" }

/-- The handler of `_execute_step_with_retry`. -/
def failAttempt (attempt : ℕ) (error : String) : SagaStep ρ :=
  { step with
    retryAttempts := step.retryAttempts + 1
    runner := if (attempt : ℤ) < step.maxRetries then .sleeping attempt else .raised error }

/-- One step of the task; a timeout has no text. -/
def taskStep : TaskEvent ρ → Option (SagaStep ρ)
  | .enter =>
    match step.runner with
    | .created => some step.startAttempts
    | _ => none
  | .returned x =>
    match step.runner with
    | .running _ => some { step with runner := .returned x }
    | _ => none
  | .raised error =>
    match step.runner with
    | .running attempt => some (step.failAttempt attempt error)
    | _ => none
  | .timedOut =>
    match step.runner with
    | .running attempt => some (step.failAttempt attempt "")
    | _ => none
  | .wake =>
    match step.runner with
    | .sleeping attempt => some { step with runner := .running (attempt + 1) }
    | _ => none

/-- The executor receives the result of the step. -/
def complete (x : ρ) : SagaStep ρ :=
  { step with result := some x, status := .completed }

/-- The executor receives the error of the step. -/
def fail (error : String) : SagaStep ρ :=
  { step with status := .failed, error := some error }

/-- The coroutine has returned. -/
def hasReturned : Bool :=
  match step.runner with
  | .returned _ => true
  | _ => false

/-- The coroutine has returned or raised. -/
def hasEnded : Bool :=
  match step.runner with
  | .returned _ => true
  | .raised _ => true
  | _ => false

/-- The coroutine was never called, or is at its end. -/
def inert : Bool :=
  step.runner matches .idle || step.hasEnded

end SagaStep

/-- The loop of `_execute_saga_parallel` over the steps from position `k` on, up to the
first task that has not ended. -/
def awaitTasks : ℕ → List (SagaStep ρ) → List (SagaStep ρ) × Wait
  | _, [] => ([], .succeeded)
  | k, step :: rest =>
    match step.runner with
    | .returned x =>
      let (rest, wait) := awaitTasks (k + 1) rest
      (step.complete x :: rest, wait)
    | .raised error => (step.fail error :: rest, .failed)
    | _ => (step :: rest, .pending k)

namespace SagaRun

variable (r : SagaRun ρ)

def setSteps (steps : List (SagaStep ρ)) : SagaRun ρ :=
  { r with saga := { r.saga with steps := steps } }

def modifyStep (i : ℕ) (f : SagaStep ρ → SagaStep ρ) : SagaRun ρ :=
  r.setSteps (r.saga.steps.modify i f)

def setStatus (status : SagaStatus) : SagaRun ρ :=
  { r with saga := { r.saga with status := status } }

/-- The steps that the compensation is about : those in status `COMPLETED`. -/
def completedSteps : List ℕ :=
  (List.range r.saga.steps.length).filter fun i =>
    r.saga.steps[i]?.any fun step => step.status = .completed

/-- The loop of `_execute_compensation`, up to the next suspension, and what follows it. -/
def compensateFrom : List ℕ → SagaRun ρ
  | [] => { r.setStatus .compensated with executor := .returned false }
  | i :: rest =>
    if r.saga.steps[i]?.any SagaStep.compensateFunc then
      { r with executor := .compensating i rest, log := r.log ++ [.compensate i] }
    else compensateFrom rest

/-- `_execute_compensation`. -/
def executeCompensation : SagaRun ρ :=
  let r := r.setStatus .compensating
  if r.saga.compensationStrategy = "reverse_order" then
    r.compensateFrom r.completedSteps.reverse
  else r.compensateFrom r.completedSteps

/-- The compensation of step `i` has ended; what it returned is not looked at. -/
def endCompensation (i : ℕ) (outcome : CompensateOutcome) : SagaRun ρ :=
  let r := { r with log := r.log ++ [.compensated i outcome] }
  match outcome with
  | .returned _ => r.modifyStep i fun step => { step with status := .compensated }
  | .raised _ => r

/-- `execute_saga` after the steps succeeded. -/
def succeed : SagaRun ρ :=
  { r.setStatus .completed with executor := .returned true }

/-- The loop of `_execute_saga_sequential` from step `i`. -/
def executeFrom (i : ℕ) : SagaRun ρ :=
  if i < r.saga.steps.length then
    { r.modifyStep i fun step => { step with status := .running }.startAttempts with
      executor := .awaiting i }
  else r.succeed

/-- The rest of the loop body of `_execute_saga_sequential`, for the step at `k`. -/
def finishSequential (k : ℕ) : SagaRun ρ :=
  match r.saga.steps[k]?.map SagaStep.runner with
  | some (.returned x) => (r.modifyStep k fun step => step.complete x).executeFrom (k + 1)
  | some (.raised error) => (r.modifyStep k fun step => step.fail error).executeCompensation
  | _ => r

/-- `_execute_saga_parallel` from the task at `k`. -/
def awaitFrom (k : ℕ) : SagaRun ρ :=
  let (rest, wait) := awaitTasks k (r.saga.steps.drop k)
  let r := r.setSteps (r.saga.steps.take k ++ rest)
  match wait with
  | .succeeded => r.succeed
  | .failed => r.executeCompensation
  | .pending k => { r with executor := .awaiting k }

/-- `execute_saga`. -/
def start : SagaRun ρ :=
  let r := r.setStatus .running
  if r.saga.parallelExecution then
    (r.setSteps (r.saga.steps.map fun step =>
      { step with status := .running, runner := .created })).awaitFrom 0
  else r.executeFrom 0

/-- One step of the tasks. -/
def step : SagaEvent ρ → Option (SagaRun ρ)
  | .start =>
    match r.executor with
    | .created => some r.start
    | _ => none
  | .task i e =>
    match r.saga.steps[i]?.bind fun step => step.taskStep e with
    | some step => some (r.setSteps (r.saga.steps.set i step))
    | none => none
  | .resume =>
    match r.executor with
    | .awaiting k =>
      if r.saga.steps[k]?.any SagaStep.hasEnded then
        some (if r.saga.parallelExecution then r.awaitFrom k else r.finishSequential k)
      else none
    | _ => none
  | .compensationEnded outcome =>
    match r.executor with
    | .compensating i rest => some ((r.endCompensation i outcome).compensateFrom rest)
    | _ => none

/-- Everything a step can do. -/
theorem step_cases {r t : SagaRun ρ} {e : SagaEvent ρ} (h : r.step e = some t) :
    (e = .start ∧ r.executor = .created ∧ t = r.start) ∨
      (∃ i e' old new, e = .task i e' ∧ r.saga.steps[i]? = some old ∧
        old.taskStep e' = some new ∧ t = r.setSteps (r.saga.steps.set i new)) ∨
      (∃ k, e = .resume ∧ r.executor = .awaiting k ∧ r.saga.steps[k]?.any SagaStep.hasEnded ∧
        t = if r.saga.parallelExecution then r.awaitFrom k else r.finishSequential k) ∨
      ∃ i rest o, e = .compensationEnded o ∧ r.executor = .compensating i rest ∧
        t = (r.endCompensation i o).compensateFrom rest := by
  cases e with
  | start =>
    simp only [step] at h
    split at h
    · exact Or.inl ⟨rfl, ‹_›, (Option.some.inj h).symm⟩
    · cases h
  | task i e =>
    simp only [step] at h
    split at h
    · rename_i new hnew
      obtain ⟨old, hold, hstep⟩ := Option.bind_eq_some_iff.mp hnew
      exact Or.inr (Or.inl ⟨i, e, old, new, rfl, hold, hstep, (Option.some.inj h).symm⟩)
    · cases h
  | resume =>
    simp only [step] at h
    split at h
    · split_ifs at h with hended hpar
      · exact Or.inr (Or.inr (Or.inl ⟨_, rfl, ‹_›, hended,
          by rw [if_pos hpar]; exact (Option.some.inj h).symm⟩))
      · exact Or.inr (Or.inr (Or.inl ⟨_, rfl, ‹_›, hended,
          by rw [if_neg hpar]; exact (Option.some.inj h).symm⟩))
    · cases h
  | compensationEnded o =>
    simp only [step] at h
    split at h
    · exact Or.inr (Or.inr (Or.inr ⟨_, _, o, rfl, ‹_›, (Option.some.inj h).symm⟩))
    · cases h

end SagaRun

/-- `create_saga`, and the saga after its steps were added : for each step whether it has a
compensation function, and its `max_retries`. -/
def createSaga (parallelExecution : Bool) (compensationStrategy : String)
    (steps : List (Bool × ℤ)) : SagaRun ρ where
  saga :=
    { steps := steps.map fun s => { compensateFunc := s.1, maxRetries := s.2 }
      parallelExecution := parallelExecution
      compensationStrategy := compensationStrategy }

/-- One `execute_saga` call of a saga with these settings. -/
def sagaMachine (ρ : Type*) (parallelExecution : Bool) (compensationStrategy : String)
    (steps : List (Bool × ℤ)) : Machine (SagaRun ρ) (SagaEvent ρ) where
  init := createSaga parallelExecution compensationStrategy steps
  step := SagaRun.step

end SagaPattern

end MultiAgent
