import MultiAgent.Infrastructure.DRRunbooks
import MultiAgent.Lib.Decimal
import MultiAgent.Lib.Machine
import MultiAgent.Lib.Split

/-!
# Executions side by side

`execute_runbook` and the tasks of `_execute_runbook_steps` in `libs/infrastructure/dr_runbooks.py`,
which go on in any order between the awaited calls. A record is kept in a table under an id that is
made of the runbook and the second, and a task looks its record up there when it starts, and again
for the rollback.

Two calls for one runbook in one second have the same id. The record of the first is dropped from
the table, and its task takes that of the second if it has not started yet. So each task has a
record of its own throughout a run exactly if no two accepted calls are for one runbook in the same
second (`isolated_throughout_iff`).
-/

namespace MultiAgent

namespace DRRunbooks

/-! ## Tasks -/

/-- What an execution task awaits : its start, a step, or a rollback script. It holds the record
that it looked up at its start, and in a rollback the one that it looked up for it. -/
inductive Phase
  | created
  | executing (record : ℕ) (runbook : RunbookDefinition) (step : RunbookStep)
      (rest : List RunbookStep)
  | rollingBack (record undone : ℕ) (rest : List RunbookStep)
  | finished (status : StepStatus)

/-- The status that the record of a task should have. -/
def Phase.status : Phase → StepStatus
  | .created => .pending
  | .executing _ _ _ _ => .running
  | .rollingBack _ _ _ => .running
  | .finished status => status

/-- The record that a task holds. -/
def Phase.record : Phase → Option ℕ
  | .created => none
  | .executing record _ _ _ => some record
  | .rollingBack record _ _ => some record
  | .finished _ => none

/-- An execution task, with the call that made it and the steps that it ran with success. -/
structure ExecutionTask where
  runbookId : String
  second : ℤ
  phase : Phase := .created
  ran : List String := []

/-- `execution_id`. -/
def executionIdOf (runbookId : String) (second : ℤ) : String :=
  runbookId ++ "_" ++ toString second

/-- The id under which a task looks its record up. -/
def ExecutionTask.executionId (task : ExecutionTask) : String :=
  executionIdOf task.runbookId task.second

/-- The records by number, the table of the executions, and the tasks. -/
structure Executions where
  records : List RunbookExecution := []
  executions : Dict String ℕ := .empty
  tasks : List ExecutionTask := []

/-- The loop over the steps up to the next one that is executed. -/
def proceed (task : ExecutionTask) (record : ℕ) (execution : RunbookExecution)
    (runbook : RunbookDefinition) (steps : List RunbookStep) : ExecutionTask × RunbookExecution :=
  match steps.dropWhile fun step => !checkStepDependencies step execution.stepsExecuted with
  | [] => ({ task with phase := .finished .completed }, { execution with status := .completed })
  | step :: rest =>
    ({ task with phase := .executing record runbook step rest },
      { execution with currentStep := some step.stepId })

/-- The end of an execution that failed. -/
def fail (task : ExecutionTask) (execution : RunbookExecution) : ExecutionTask × RunbookExecution :=
  ({ task with phase := .finished .failed }, { execution with status := .failed })

namespace Executions

variable (runbooks : Dict String RunbookDefinition) (s : Executions)

/-- `execute_runbook` at the second `now`. -/
def executeRunbook (runbookId executedBy : String) (now : ℤ) : Option String × Executions :=
  match runbooks.get? runbookId with
  | none => (none, s)
  | some runbook =>
    if runbook.status ≠ .active then (none, s)
    else
      let executionId := executionIdOf runbookId now
      let execution : RunbookExecution :=
        { executionId, runbookId, status := .pending, executedBy, stepsExecuted := []
          currentStep := none }
      (some executionId,
        { records := s.records ++ [execution]
          executions := s.executions.set executionId s.records.length
          tasks := s.tasks ++ [{ runbookId, second := now }] })

/-- The loop of `_execute_rollback` up to the next script, for the steps that the record `undone`
has at this time. -/
def undo (task : ExecutionTask) (record undone : ℕ) (execution : RunbookExecution)
    (steps : List RunbookStep) : ExecutionTask × RunbookExecution :=
  let stepsExecuted := ((s.records[undone]?).map RunbookExecution.stepsExecuted).getD []
  match steps.dropWhile fun step => !(step.stepId ∈ stepsExecuted && step.hasRollback) with
  | [] => fail task execution
  | _ :: rest => ({ task with phase := .rollingBack record undone rest }, execution)

/-- `_execute_rollback`, which looks the execution up by its id. -/
def rollback (task : ExecutionTask) (record : ℕ) (execution : RunbookExecution) :
    ExecutionTask × RunbookExecution :=
  match s.executions.get? task.executionId with
  | none => fail task execution
  | some undone =>
    match (s.records[undone]?).bind fun other => runbooks.get? other.runbookId with
    | none => fail task execution
    | some runbook => s.undo task record undone execution runbook.steps.reverse

/-- A step was answered. -/
def answer (task : ExecutionTask) (record : ℕ) (execution : RunbookExecution)
    (runbook : RunbookDefinition) (step : RunbookStep) (rest : List RunbookStep)
    (outcomes : StepOutcomes) : ExecutionTask × RunbookExecution :=
  if executeStep step outcomes then
    proceed { task with ran := task.ran ++ [step.stepId] } record
      { execution with stepsExecuted := execution.stepsExecuted ++ [step.stepId] } runbook rest
  else if runbook.rollbackAvailable then
    s.rollback runbooks task record { execution with rollbackRequired := true }
  else fail task execution

/-- `_execute_runbook_steps` up to the first step. -/
def start (task : ExecutionTask) (record : ℕ) (execution : RunbookExecution) :
    ExecutionTask × RunbookExecution :=
  match runbooks.get? execution.runbookId with
  | none => fail task execution
  | some runbook =>
    proceed task record { execution with status := .running } runbook runbook.steps

/-- What a task does up to the next call that it awaits, with the record that it writes. -/
def resume (task : ExecutionTask) (outcomes : StepOutcomes) :
    Option (ℕ × ExecutionTask × RunbookExecution) :=
  match task.phase with
  | .created => do
    let record ← s.executions.get? task.executionId
    let execution ← s.records[record]?
    return (record, start runbooks task record execution)
  | .executing record runbook step rest => do
    let execution ← s.records[record]?
    return (record, s.answer runbooks task record execution runbook step rest outcomes)
  | .rollingBack record undone rest => do
    let execution ← s.records[record]?
    return (record, s.undo task record undone execution rest)
  | .finished _ => none

end Executions

/-! ## Runs -/

/-- A call of `execute_runbook`, or a task goes on with what it awaited. -/
inductive Event
  | execute (runbookId executedBy : String) (now : ℤ)
  | resume (task : ℕ) (outcomes : StepOutcomes)

/-- One event. -/
def Executions.step (runbooks : Dict String RunbookDefinition) (s : Executions) :
    Event → Option Executions
  | .execute runbookId executedBy now => some (s.executeRunbook runbooks runbookId executedBy now).2
  | .resume k outcomes => do
    let task ← s.tasks[k]?
    let (record, task, execution) ← s.resume runbooks task outcomes
    return { s with tasks := s.tasks.set k task, records := s.records.set record execution }

/-- The manager with its runbooks. -/
def executionMachine (runbooks : Dict String RunbookDefinition) : Machine Executions Event where
  init := {}
  step := Executions.step runbooks

/-- Each accepted call has an id of its own, its record stays in the table while its task runs, and
the record shows what this task ran and where it is. -/
structure Isolated (s : Executions) : Prop where
  distinct : (s.tasks.map ExecutionTask.executionId).Nodup
  kept : ∀ (k : ℕ) (task : ExecutionTask), s.tasks[k]? = some task →
    (∀ status, task.phase ≠ .finished status) → s.executions.get? task.executionId = some k
  own : ∀ (k : ℕ) (task : ExecutionTask), s.tasks[k]? = some task →
    ∃ execution : RunbookExecution, s.records[k]? = some execution ∧
      execution.stepsExecuted = task.ran ∧ execution.status = task.phase.status

/-- `execute_runbook` accepts the runbook. -/
def Accepts (runbooks : Dict String RunbookDefinition) (runbookId : String) : Prop :=
  ∃ runbook, runbooks.get? runbookId = some runbook ∧ runbook.status = .active

/-- No accepted call was for the same runbook in the same second. -/
def Fresh (runbooks : Dict String RunbookDefinition) (s : Executions) : Event → Prop
  | .execute runbookId _ now => Accepts runbooks runbookId →
    ∀ task ∈ s.tasks, ¬(task.runbookId = runbookId ∧ task.second = now)
  | .resume _ _ => True

variable {runbooks : Dict String RunbookDefinition} {s t : Executions} {task : ExecutionTask}
  {execution : RunbookExecution} {record : ℕ}

/-- The runbook and the second can be read off an id. -/
theorem executionIdOf_inj {runbookId runbookId' : String} {now now' : ℤ}
    (h : executionIdOf runbookId now = executionIdOf runbookId' now') :
    runbookId = runbookId' ∧ now = now' := by
  have hchars := congrArg String.toList h
  have hnot : ∀ n : ℤ, '_' ∉ (toString n).toList :=
    Decimal.not_mem_int (by decide) (by decide)
  unfold executionIdOf at hchars
  rw [String.toList_append, String.toList_append, String.toList_append, String.toList_append,
    List.append_assoc, List.append_assoc] at hchars
  obtain ⟨hid, hnow⟩ := Split.append_cons_inj (hnot now) (hnot now') hchars
  exact ⟨String.toList_inj.mp hid, Decimal.int_injective hnow⟩

/-! ## A task on its own record -/

/-- What a task writes : it remains the task of its call, holds no other record than the one it
wrote, and this shows what it ran and where it is. -/
structure Continues (task : ExecutionTask) (record : ℕ) (p : ExecutionTask × RunbookExecution) :
    Prop where
  call : p.1.runbookId = task.runbookId ∧ p.1.second = task.second
  record : ∀ r, p.1.phase.record = some r → r = record
  ran : p.2.stepsExecuted = p.1.ran
  status : p.2.status = p.1.phase.status

theorem continues_fail (h : execution.stepsExecuted = task.ran) :
    Continues task record (fail task execution) where
  call := ⟨rfl, rfl⟩
  record r hr := by cases hr
  ran := h
  status := rfl

theorem continues_proceed (h : execution.stepsExecuted = task.ran)
    (hstatus : execution.status = .running) (runbook : RunbookDefinition)
    (steps : List RunbookStep) :
    Continues task record (proceed task record execution runbook steps) := by
  unfold proceed
  split
  · exact ⟨⟨rfl, rfl⟩, fun r hr => (by cases hr), h, rfl⟩
  · exact ⟨⟨rfl, rfl⟩, fun r hr => (Option.some.inj hr).symm, h, hstatus⟩

theorem continues_undo (h : execution.stepsExecuted = task.ran)
    (hstatus : execution.status = .running) (undone : ℕ) (steps : List RunbookStep) :
    Continues task record (s.undo task record undone execution steps) := by
  unfold Executions.undo
  dsimp only
  split
  · exact continues_fail h
  · exact ⟨⟨rfl, rfl⟩, fun r hr => (Option.some.inj hr).symm, h, hstatus⟩

theorem continues_rollback (h : execution.stepsExecuted = task.ran)
    (hstatus : execution.status = .running) :
    Continues task record (s.rollback runbooks task record execution) := by
  unfold Executions.rollback
  split
  · exact continues_fail h
  · split
    · exact continues_fail h
    · exact continues_undo h hstatus _ _

theorem continues_answer (h : execution.stepsExecuted = task.ran)
    (hstatus : execution.status = .running) (runbook : RunbookDefinition) (step : RunbookStep)
    (rest : List RunbookStep) (outcomes : StepOutcomes) :
    Continues task record
      (s.answer runbooks task record execution runbook step rest outcomes) := by
  unfold Executions.answer
  split_ifs
  · have hran : execution.stepsExecuted ++ [step.stepId] = task.ran ++ [step.stepId] := by rw [h]
    have hproceed : Continues { task with ran := task.ran ++ [step.stepId] } record
        (proceed { task with ran := task.ran ++ [step.stepId] } record
          { execution with stepsExecuted := execution.stepsExecuted ++ [step.stepId] }
          runbook rest) := by
      refine continues_proceed ?_ ?_ runbook rest
      · exact hran
      · exact hstatus
    exact ⟨hproceed.call, hproceed.record, hproceed.ran, hproceed.status⟩
  · exact continues_rollback h hstatus
  · exact continues_fail h

theorem continues_start (h : execution.stepsExecuted = task.ran) :
    Continues task record (Executions.start runbooks task record execution) := by
  unfold Executions.start
  split
  · exact continues_fail h
  next runbook _ =>
    refine continues_proceed ?_ rfl runbook runbook.steps
    exact h

/-- A task that holds its own record goes on with this one. -/
theorem resume_spec {k : ℕ} {outcomes : StepOutcomes} {r : ℕ}
    {p : ExecutionTask × RunbookExecution}
    (htable : s.executions.get? task.executionId = some k)
    (hrecord : ∀ r, task.phase.record = some r → r = k) (hget : s.records[k]? = some execution)
    (hran : execution.stepsExecuted = task.ran) (hstatus : execution.status = task.phase.status)
    (hresume : s.resume runbooks task outcomes = some (r, p)) : r = k ∧ Continues task k p := by
  unfold Executions.resume at hresume
  cases hphase : task.phase with
  | created =>
    rw [hphase] at hresume
    simp only [htable, hget, Option.bind_eq_bind, Option.bind_some, Option.pure_def] at hresume
    obtain ⟨rfl, rfl⟩ := Prod.mk.inj (Option.some.inj hresume)
    exact ⟨rfl, continues_start hran⟩
  | executing r' runbook step rest =>
    rw [hphase] at hresume hrecord hstatus
    obtain rfl := hrecord r' rfl
    simp only [hget, Option.bind_eq_bind, Option.bind_some, Option.pure_def] at hresume
    obtain ⟨rfl, rfl⟩ := Prod.mk.inj (Option.some.inj hresume)
    exact ⟨rfl, continues_answer hran hstatus _ _ _ _⟩
  | rollingBack r' undone rest =>
    rw [hphase] at hresume hrecord hstatus
    obtain rfl := hrecord r' rfl
    simp only [hget, Option.bind_eq_bind, Option.bind_some, Option.pure_def] at hresume
    obtain ⟨rfl, rfl⟩ := Prod.mk.inj (Option.some.inj hresume)
    exact ⟨rfl, continues_undo hran hstatus _ _⟩
  | finished status =>
    rw [hphase] at hresume
    cases hresume

/-! ## The tables -/

/-- The tasks and the table lead to each other, and a task holds no record but its own. -/
structure Owned (s : Executions) : Prop where
  length : s.records.length = s.tasks.length
  table : ∀ (k : ℕ) (task : ExecutionTask), s.tasks[k]? = some task →
    s.executions.get? task.executionId = some k
  entries : ∀ id k, s.executions.get? id = some k →
    ∃ task : ExecutionTask, s.tasks[k]? = some task ∧ task.executionId = id
  record : ∀ (k : ℕ) (task : ExecutionTask), s.tasks[k]? = some task →
    ∀ r, task.phase.record = some r → r = k

theorem executeRunbook_of_not_accepts {runbookId executedBy : String} {now : ℤ}
    (h : ¬Accepts runbooks runbookId) :
    (s.executeRunbook runbooks runbookId executedBy now).2 = s := by
  unfold Executions.executeRunbook
  split
  · rfl
  next runbook hget =>
    rw [if_pos fun hactive => h ⟨runbook, hget, hactive⟩]

/-- An accepted call adds a record and a task, and puts the record into the table. -/
theorem executeRunbook_of_accepts {runbookId : String} (h : Accepts runbooks runbookId)
    (executedBy : String) (now : ℤ) :
    ∃ execution : RunbookExecution, execution.stepsExecuted = [] ∧ execution.status = .pending ∧
      (s.executeRunbook runbooks runbookId executedBy now).2 =
        { records := s.records ++ [execution]
          executions := s.executions.set (executionIdOf runbookId now) s.records.length
          tasks := s.tasks ++ [{ runbookId, second := now }] } := by
  obtain ⟨runbook, hget, hactive⟩ := h
  refine ⟨{ executionId := executionIdOf runbookId now, runbookId, status := .pending, executedBy
            stepsExecuted := [], currentStep := none }, rfl, rfl, ?_⟩
  unfold Executions.executeRunbook
  rw [hget]
  dsimp only
  rw [if_neg (not_not.mpr hactive)]

/-- Tables that lead to each other keep the records of the tasks. -/
theorem Owned.isolated (h : Owned s) (hdistinct : (s.tasks.map ExecutionTask.executionId).Nodup)
    (hown : ∀ (k : ℕ) (task : ExecutionTask), s.tasks[k]? = some task →
      ∃ execution : RunbookExecution, s.records[k]? = some execution ∧
        execution.stepsExecuted = task.ran ∧ execution.status = task.phase.status) : Isolated s :=
  ⟨hdistinct, fun k task hk _ => h.table k task hk, hown⟩

/-- A call with a new id. -/
theorem Owned.push (h : Owned s) (hi : Isolated s) (hran : execution.stepsExecuted = [])
    (hstatus : execution.status = .pending) (runbookId : String) (now : ℤ)
    (hfresh : ∀ other ∈ s.tasks, other.executionId ≠ executionIdOf runbookId now) :
    let t : Executions :=
      { records := s.records ++ [execution]
        executions := s.executions.set (executionIdOf runbookId now) s.records.length
        tasks := s.tasks ++ [{ runbookId, second := now }] }
    Owned t ∧ Isolated t := by
  intro t
  have howned : Owned t := by
    refine ⟨?_, fun k other hk => ?_, fun id k hget => ?_, fun k other hk r hr => ?_⟩
    · simp [t, h.length]
    · rcases getElem?_concat_cases hk with hold | ⟨rfl, rfl⟩
      · exact (Dict.get?_set_ne _ _ (hfresh other (List.mem_of_getElem? hold))).trans
          (h.table k other hold)
      · rw [← h.length]
        exact Dict.get?_set_self _ _ _
    · have hset : (s.executions.set (executionIdOf runbookId now) s.records.length).get? id =
          some k := hget
      rw [Dict.get?_set] at hset
      split_ifs at hset with hid
      · obtain rfl := Option.some.inj hset
        refine ⟨{ runbookId, second := now }, ?_, hid.symm⟩
        rw [h.length]
        exact List.getElem?_concat_length
      · obtain ⟨other, hother, hid'⟩ := h.entries id k hset
        exact ⟨other, (List.getElem?_append_left
          (List.getElem?_eq_some_iff.mp hother).1).trans hother, hid'⟩
    · rcases getElem?_concat_cases hk with hold | ⟨-, rfl⟩
      · exact h.record k other hold r hr
      · cases hr
  refine ⟨howned, howned.isolated ?_ fun k other hk => ?_⟩
  · have hnot : executionIdOf runbookId now ∉ s.tasks.map ExecutionTask.executionId := by
      intro hmem
      obtain ⟨other, hother, heq⟩ := List.mem_map.mp hmem
      exact hfresh other hother heq
    rw [List.map_append]
    exact hi.distinct.append (List.nodup_singleton _) (List.disjoint_singleton.mpr hnot)
  · rcases getElem?_concat_cases hk with hold | ⟨rfl, rfl⟩
    · obtain ⟨x, hx, hown⟩ := hi.own k other hold
      exact ⟨x, (List.getElem?_append_left (List.getElem?_eq_some_iff.mp hx).1).trans hx, hown⟩
    · refine ⟨execution, ?_, hran, hstatus⟩
      rw [← h.length]
      exact List.getElem?_concat_length

/-- A task goes on with its own record. -/
theorem Owned.goOn (h : Owned s) (hi : Isolated s) {k : ℕ} (hk : s.tasks[k]? = some task)
    {p : ExecutionTask × RunbookExecution} (hp : Continues task k p) :
    let t : Executions :=
      { s with tasks := s.tasks.set k p.1, records := s.records.set k p.2 }
    Owned t ∧ Isolated t := by
  intro t
  have hid : p.1.executionId = task.executionId := by
    unfold ExecutionTask.executionId
    rw [hp.call.1, hp.call.2]
  obtain ⟨hlt, hget⟩ := List.getElem?_eq_some_iff.mp hk
  have howned : Owned t := by
    refine ⟨?_, fun j other hj => ?_, fun id j hentry => ?_, fun j other hj r hr => ?_⟩
    · simp [t, h.length]
    · rcases getElem?_set_cases hj with ⟨-, hold⟩ | ⟨rfl, rfl⟩
      · exact h.table j other hold
      · rw [hid]
        exact h.table j task hk
    · obtain ⟨other, hother, hid'⟩ := h.entries id j hentry
      by_cases hjk : j = k
      · subst hjk
        obtain rfl := Option.some.inj (hk.symm.trans hother)
        exact ⟨p.1, List.getElem?_set_self hlt, hid.trans hid'⟩
      · exact ⟨other, (List.getElem?_set_ne (Ne.symm hjk)).trans hother, hid'⟩
    · rcases getElem?_set_cases hj with ⟨-, hold⟩ | ⟨rfl, rfl⟩
      · exact h.record j other hold r hr
      · exact hp.record r hr
  refine ⟨howned, howned.isolated ?_ fun j other hj => ?_⟩
  · have hids : t.tasks.map ExecutionTask.executionId = s.tasks.map ExecutionTask.executionId := by
      have hlt' : k < (s.tasks.map ExecutionTask.executionId).length := by
        rwa [List.length_map]
      have hsame : p.1.executionId = (s.tasks.map ExecutionTask.executionId)[k] := by
        rw [List.getElem_map, hget, hid]
      rw [List.map_set, hsame, List.set_getElem_self]
    rw [hids]
    exact hi.distinct
  · rcases getElem?_set_cases hj with ⟨hne, hold⟩ | ⟨rfl, rfl⟩
    · obtain ⟨x, hx, hown⟩ := hi.own j other hold
      exact ⟨x, (List.getElem?_set_ne (Ne.symm hne)).trans hx, hown⟩
    · have hrecord : j < s.records.length := by rwa [h.length]
      exact ⟨p.2, List.getElem?_set_self hrecord, hp.ran, hp.status⟩

/-! ## Runs of tasks -/

theorem Owned.step {e : Event} (h : Owned s) (hi : Isolated s)
    (hst : s.step runbooks e = some t) :
    (Isolated t → Owned t) ∧ (Isolated t ↔ Fresh runbooks s e) := by
  cases e with
  | execute runbookId executedBy now =>
    obtain rfl := Option.some.inj hst
    by_cases haccepts : Accepts runbooks runbookId
    · obtain ⟨execution, hran, hstatus, heq⟩ :=
        executeRunbook_of_accepts (s := s) haccepts executedBy now
      rw [heq]
      have hfresh : Fresh runbooks s (.execute runbookId executedBy now) ↔
          ∀ other ∈ s.tasks, other.executionId ≠ executionIdOf runbookId now := by
        constructor
        · intro hf other hother hsame
          exact hf haccepts other hother (executionIdOf_inj hsame)
        · rintro hne - other hother ⟨hid, hnow⟩
          refine hne other hother ?_
          unfold ExecutionTask.executionId
          rw [hid, hnow]
      have hdistinct : ∀ {t : Executions},
          t.tasks = s.tasks ++ [{ runbookId, second := now }] → Isolated t →
            Fresh runbooks s (.execute runbookId executedBy now) := by
        intro t htasks hi'
        have hnodup := hi'.distinct
        rw [htasks, List.map_append] at hnodup
        refine hfresh.mpr fun other hother hsame => ?_
        exact (List.disjoint_of_nodup_append hnodup) (List.mem_map_of_mem hother)
          (List.mem_singleton.mpr hsame)
      have hpush := h.push hi hran hstatus runbookId now
      exact ⟨fun hi' => (hpush (hfresh.mp (hdistinct rfl hi'))).1,
        hdistinct rfl, fun hf => (hpush (hfresh.mp hf)).2⟩
    · rw [executeRunbook_of_not_accepts haccepts]
      exact ⟨fun _ => h, iff_of_true hi fun hyes => absurd hyes haccepts⟩
  | resume k outcomes =>
    obtain ⟨task, hk, hst⟩ := Option.bind_eq_some_iff.mp hst
    obtain ⟨⟨r, p⟩, hresume, hst⟩ := Option.bind_eq_some_iff.mp hst
    obtain rfl := Option.some.inj hst
    obtain ⟨execution, hget, hran, hstatus⟩ := hi.own k task hk
    obtain ⟨rfl, hp⟩ := resume_spec (h.table k task hk) (h.record k task hk) hget hran hstatus
      hresume
    obtain ⟨howned, hisolated⟩ := h.goOn hi hk hp
    exact ⟨fun _ => howned, iff_of_true hisolated trivial⟩

/-- Each task has a record of its own throughout a run if and only if no two accepted calls of the
run are for one runbook in the same second. -/
theorem isolated_throughout_iff {es : List Event}
    (h : (executionMachine runbooks).Run (fun _ _ => True) es s) :
    (executionMachine runbooks).Throughout Isolated es ↔
      (executionMachine runbooks).Run (Fresh runbooks) es s := by
  have hinit : Owned (executionMachine runbooks).init ∧
      Isolated (executionMachine runbooks).init := by
    refine ⟨⟨rfl, ?_, ?_, ?_⟩, ⟨List.nodup_nil, ?_, ?_⟩⟩ <;> simp [executionMachine]
  exact h.throughout_iff_run hinit (fun _ _ _ hI hJ hst => (hI.step hJ hst).1)
    fun _ _ _ hI hJ hst => (hI.step hJ hst).2

/-! ## Two calls in one second -/

/-- A runbook with one manual step. -/
def failoverRunbook : RunbookDefinition where
  runbookId := "failover"
  title := "Fail over"
  status := .active
  steps := [{ stepId := "drain", stepType := .manual }]

/-- The manager with this runbook. -/
def failoverMachine : Machine Executions Event :=
  executionMachine (Dict.empty.set "failover" failoverRunbook)

/-- Two calls a second apart, whose tasks go on in turn. -/
theorem isolated_throughout_apart : ∃ s,
    failoverMachine.Throughout Isolated
        [.execute "failover" "alice" 5, .resume 0 {}, .execute "failover" "bob" 6, .resume 1 {},
          .resume 0 {}, .resume 1 {}] ↔
      failoverMachine.Run (Fresh (Dict.empty.set "failover" failoverRunbook))
        [.execute "failover" "alice" 5, .resume 0 {}, .execute "failover" "bob" 6, .resume 1 {},
          .resume 0 {}, .resume 1 {}] s := by
  obtain ⟨s, hrun, -⟩ := failoverMachine.exists_run (fun _ _ => True)
    [.execute "failover" "alice" 5, .resume 0 {}, .execute "failover" "bob" 6, .resume 1 {},
      .resume 0 {}, .resume 1 {}]
    (fun s => decide (s.records.map RunbookExecution.stepsExecuted = [["drain"], ["drain"]]))
    (by decide +kernel)
  exact ⟨s, isolated_throughout_iff hrun⟩

/-- After two calls in the same second both tasks work on the record of the second call. -/
theorem not_isolated : ¬∀ s, failoverMachine.Run (fun _ _ => True)
    [.execute "failover" "alice" 5, .execute "failover" "bob" 5, .resume 0 {}, .resume 1 {},
      .resume 0 {}, .resume 1 {}] s → Isolated s := by
  intro hall
  obtain ⟨s, hrun, hs⟩ := failoverMachine.exists_run (fun _ _ => True)
    [.execute "failover" "alice" 5, .execute "failover" "bob" 5, .resume 0 {}, .resume 1 {},
      .resume 0 {}, .resume 1 {}]
    (fun s => decide ((s.tasks.map ExecutionTask.ran)[0]? = some ["drain"] ∧
      s.records.map RunbookExecution.stepsExecuted = [[], ["drain", "drain"]]))
    (by decide +kernel)
  obtain ⟨hran, hrecords⟩ := of_decide_eq_true hs
  rw [List.getElem?_map, Option.map_eq_some_iff] at hran
  obtain ⟨task, htask, hran⟩ := hran
  obtain ⟨execution, hexecution, hown, -⟩ := (hall s hrun).own 0 task htask
  have hempty : (s.records.map RunbookExecution.stepsExecuted)[0]? =
      some execution.stepsExecuted := by
    rw [List.getElem?_map, hexecution]
    rfl
  rw [hrecords, hown, hran] at hempty
  cases hempty

end DRRunbooks

end MultiAgent
