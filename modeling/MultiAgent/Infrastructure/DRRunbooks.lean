import MultiAgent.Lib.Dict
import MultiAgent.Lib.ReadyPass

/-!
# Disaster recovery runbooks

`DRRunbooksManager` of `libs/infrastructure/dr_runbooks.py` : which runbooks
`create_runbook` accepts, and what `_execute_runbook_steps` does with one. The answers of
the commands, scripts, checks and operators that a step asks are given from outside, one
`StepOutcomes` for each position of the list of steps. No call in the loop raises (each
catches its own exceptions), so the `except` blocks of the loop have no branch here.

An execution is the record it leaves with the calls it made, in order. It is one pass over
the steps (`runSteps_eq`), which executes those that are `runnable` up to the first that
fails.
-/

namespace MultiAgent

namespace DRRunbooks

/-- `RunbookStatus`. -/
inductive RunbookStatus
  | draft
  | active
  | testing
  | deprecated
  deriving DecidableEq

/-- `StepStatus`. -/
inductive StepStatus
  | pending
  | running
  | completed
  | failed
  | skipped
  deriving DecidableEq

/-- `StepType`. -/
inductive StepType
  | manual
  | automated
  | verification
  | notification
  deriving DecidableEq

/-- `RunbookStep`. -/
structure RunbookStep where
  stepId : String
  stepType : StepType
  command : Option String := none
  script : Option String := none
  dependencies : Option (List String) := none
  verificationScript : Option String := none
  rollbackScript : Option String := none
  deriving DecidableEq

/-- `RunbookDefinition`. -/
structure RunbookDefinition where
  runbookId : String
  title : String
  status : RunbookStatus
  steps : List RunbookStep
  rollbackAvailable : Bool := true
  deriving DecidableEq

/-- `RunbookExecution`. -/
structure RunbookExecution where
  executionId : String
  runbookId : String
  status : StepStatus
  executedBy : String
  stepsExecuted : List String
  currentStep : Option String
  rollbackRequired : Bool := false
  deriving DecidableEq

/-- The truth value of an optional text. -/
def truthy (text : Option String) : Bool :=
  text.any fun s => s ≠ ""

namespace RunbookStep

variable (step : RunbookStep)

/-- The dependencies as they are iterated over. -/
def deps : List String :=
  step.dependencies.getD []

/-- The step is one that `_execute_rollback` can undo. -/
def hasRollback : Bool :=
  truthy step.rollbackScript

end RunbookStep

/-! ## Creating a runbook -/

/-- `_validate_runbook`. -/
def validateRunbook (runbook : RunbookDefinition) : Bool :=
  if runbook.runbookId = "" ∨ runbook.title = "" then false
  else if runbook.steps = [] then false
  else
    let stepIds := runbook.steps.map RunbookStep.stepId
    runbook.steps.all fun step => step.deps.all fun dep => decide (dep ∈ stepIds)

/-- `DRRunbooksManager` : every runbook it has was accepted. -/
structure DRRunbooksManager where
  runbooks : Dict String RunbookDefinition := Dict.empty
  executions : Dict String RunbookExecution := Dict.empty
  accepted : ∀ id runbook, runbooks.get? id = some runbook → validateRunbook runbook = true := by
    simp

namespace DRRunbooksManager

variable (manager : DRRunbooksManager)

/-- `create_runbook`. -/
def createRunbook (runbook : RunbookDefinition) : Bool × DRRunbooksManager :=
  if hvalid : validateRunbook runbook then
    (true,
      { manager with
        runbooks := manager.runbooks.set runbook.runbookId runbook
        accepted := fun id other hother => by
          rw [Dict.get?_set] at hother
          split_ifs at hother
          · rwa [← Option.some.inj hother]
          · exact manager.accepted id other hother })
  else (false, manager)

/-- `execute_runbook` at the second `now` : the id of the new execution. -/
def executeRunbook (runbookId executedBy : String) (now : ℤ) :
    Option String × DRRunbooksManager :=
  match manager.runbooks.get? runbookId with
  | none => (none, manager)
  | some runbook =>
    if runbook.status ≠ .active then (none, manager)
    else
      let executionId := runbookId ++ "_" ++ toString now
      let execution : RunbookExecution :=
        { executionId, runbookId, status := .pending, executedBy, stepsExecuted := []
          currentStep := none }
      (some executionId,
        { manager with executions := manager.executions.set executionId execution })

end DRRunbooksManager

/-! ## Executing a step -/

/-- What a step is answered when it is executed. -/
structure StepOutcomes where
  command : Bool := true
  script : Bool := true
  verification : Bool := true
  health : Bool := true
  manual : Bool := true

section Step

variable (step : RunbookStep) (outcomes : StepOutcomes)

/-- `_execute_automated_step`. -/
def executeAutomatedStep : Bool :=
  if ¬truthy step.command ∧ ¬truthy step.script then false
  else
    let success := if truthy step.command then outcomes.command else outcomes.script
    if success ∧ truthy step.verificationScript then
      if ¬outcomes.verification then false else success
    else success

/-- `_execute_manual_step`. -/
def executeManualStep : Bool :=
  outcomes.manual

/-- `_execute_verification_step`. -/
def executeVerificationStep : Bool :=
  if truthy step.verificationScript then outcomes.verification else outcomes.health

/-- `_execute_notification_step` : `_send_notification` catches whatever is raised. -/
def executeNotificationStep : Bool :=
  true

/-- `_execute_step`. -/
def executeStep : Bool :=
  match step.stepType with
  | .automated => executeAutomatedStep step outcomes
  | .verification => executeVerificationStep step outcomes
  | .notification => executeNotificationStep
  | .manual => executeManualStep outcomes

/-- `_check_step_dependencies`. -/
def checkStepDependencies (executedSteps : List String) : Bool :=
  step.deps.all fun dep => decide (dep ∈ executedSteps)

end Step

/-! ## Executing a runbook -/

/-- A call to `_execute_step`, or of a rollback script to `_execute_script`, for the step at
a position of the runbook. -/
inductive Call
  | execute (position : ℕ) (success : Bool)
  | rollback (position : ℕ)
  deriving DecidableEq

/-- `_execute_rollback` : the steps whose rollback scripts are run. What a script answers is
only logged. -/
def executeRollback (runbook : RunbookDefinition) (stepsExecuted : List String) : List Call :=
  ((runbook.steps.zipIdx.reverse).filter fun step =>
    decide (step.1.stepId ∈ stepsExecuted) && step.1.hasRollback).map fun step =>
      .rollback step.2

/-- The loop of `_execute_runbook_steps`. -/
def runSteps (runbook : RunbookDefinition) (outcomes : ℕ → StepOutcomes) :
    List (RunbookStep × ℕ) → RunbookExecution → RunbookExecution × List Call
  | [], execution => ({ execution with status := .completed }, [])
  | (step, position) :: steps, execution =>
    if checkStepDependencies step execution.stepsExecuted then
      let execution := { execution with currentStep := some step.stepId }
      if executeStep step (outcomes position) then
        let execution :=
          { execution with stepsExecuted := execution.stepsExecuted ++ [step.stepId] }
        let rest := runSteps runbook outcomes steps execution
        (rest.1, .execute position true :: rest.2)
      else if runbook.rollbackAvailable then
        ({ execution with rollbackRequired := true, status := .failed },
          .execute position false :: executeRollback runbook execution.stepsExecuted)
      else ({ execution with status := .failed }, [.execute position false])
    else runSteps runbook outcomes steps execution

/-- `_execute_runbook_steps` : the execution as it ends, and the calls it made. -/
def executeRunbookSteps (manager : DRRunbooksManager) (executionId : String)
    (outcomes : ℕ → StepOutcomes) : Option (RunbookExecution × List Call) := do
  let execution ← manager.executions.get? executionId
  let runbook ← manager.runbooks.get? execution.runbookId
  return runSteps runbook outcomes runbook.steps.zipIdx { execution with status := .running }

/-- The steps of a runbook that are executed if none of them fails, each with its position. -/
def runnable (runbook : RunbookDefinition) : List (RunbookStep × ℕ) :=
  ReadyPass.ready (fun step => step.1.stepId) (fun step => step.1.deps) runbook.steps.zipIdx []

/-- The steps that an execution executes with success, and the one that fails. -/
def attempted (outcomes : ℕ → StepOutcomes) (steps : List (RunbookStep × ℕ))
    (stepsExecuted : List String) : List (RunbookStep × ℕ) × Option (RunbookStep × ℕ) :=
  ReadyPass.attempt (fun step => step.1.stepId) (fun step => step.1.deps)
    (fun step => executeStep step.1 (outcomes step.2)) steps stepsExecuted

/-- `step` was executed with success. -/
abbrev succeeded (step : RunbookStep × ℕ) : Call :=
  .execute step.2 true

/-- The calls from the step that fails on. -/
def callsOfFailure (runbook : RunbookDefinition) (stepsExecuted : List String) :
    Option (RunbookStep × ℕ) → List Call
  | none => []
  | some failed => .execute failed.2 false ::
    if runbook.rollbackAvailable then executeRollback runbook stepsExecuted else []

section Runs

variable {runbook : RunbookDefinition} {outcomes : ℕ → StepOutcomes}

theorem checkStepDependencies_iff {step : RunbookStep} {executedSteps : List String} :
    checkStepDependencies step executedSteps = true ↔ ∀ dep ∈ step.deps, dep ∈ executedSteps := by
  simp [checkStepDependencies]

variable (runbook outcomes) in
/-- The loop is one pass over the steps. -/
theorem runSteps_eq : ∀ (steps : List (RunbookStep × ℕ)) (execution : RunbookExecution),
    let pass := attempted outcomes steps execution.stepsExecuted
    let executed := execution.stepsExecuted ++ pass.1.map fun step => step.1.stepId
    let result := runSteps runbook outcomes steps execution
    result.1.status = (if pass.2.isNone then .completed else .failed) ∧
      result.1.stepsExecuted = executed ∧
      result.2 = pass.1.map succeeded ++ callsOfFailure runbook executed pass.2
  | [], execution => by simp [runSteps, attempted, ReadyPass.attempt, callsOfFailure]
  | (step, position) :: steps, execution => by
    unfold runSteps attempted ReadyPass.attempt
    by_cases hdeps : checkStepDependencies step execution.stepsExecuted = true
    · rw [if_pos hdeps, if_pos (checkStepDependencies_iff.mp hdeps)]
      by_cases hok : executeStep step (outcomes position) = true
      · have ih := runSteps_eq steps
          { execution with
            currentStep := some step.stepId
            stepsExecuted := execution.stepsExecuted ++ [step.stepId] }
        simp only [hok, if_true]
        simpa [attempted] using ih
      · by_cases hrollback : runbook.rollbackAvailable = true
        · simp [hok, hrollback, callsOfFailure]
        · simp [hok, hrollback, callsOfFailure]
    · rw [if_neg hdeps, if_neg (mt checkStepDependencies_iff.mpr hdeps)]
      exact runSteps_eq steps execution

/-- An execution that has just been started runs the steps of its runbook. -/
theorem executeRunbookSteps_started {manager started : DRRunbooksManager}
    {runbookId executedBy executionId : String} {now : ℤ} {result : RunbookExecution × List Call}
    (hrunbook : manager.runbooks.get? runbookId = some runbook)
    (hstarted : manager.executeRunbook runbookId executedBy now = (some executionId, started))
    (hresult : executeRunbookSteps started executionId outcomes = some result) :
    ∃ execution, execution.stepsExecuted = [] ∧
      result = runSteps runbook outcomes runbook.steps.zipIdx execution := by
  simp only [DRRunbooksManager.executeRunbook, hrunbook] at hstarted
  split_ifs at hstarted with hactive
  · simp at hstarted
  · obtain ⟨hid, rfl⟩ := Prod.mk.inj hstarted
    obtain rfl := Option.some.inj hid
    simp only [executeRunbookSteps, Dict.get?_set_self, hrunbook, Option.bind_eq_bind,
      Option.bind_some, Option.pure_def, Option.some.injEq] at hresult
    exact ⟨_, rfl, hresult.symm⟩

end Runs

end DRRunbooks

end MultiAgent
