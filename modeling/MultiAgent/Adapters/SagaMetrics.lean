import MultiAgent.Adapters.SagaPattern
import MultiAgent.Lib.Dict

/-!
# The metrics of the adapter library's saga manager

`create_saga` and `execute_saga` of `SagaManager` in `libs/adapters/saga_pattern.py`, for
any number of calls. The saga objects live in a heap, and `active_sagas` and
`completed_sagas` map ids to them. Between its suspensions an `execute_saga` call is the
execution of the steps or of the compensations, of which the manager only learns how
they end.

`create_saga` replaces an active saga with the same id without a word, and two executions
of one id both delete it : the second deletion raises a `KeyError`, and the deletion in
the handler raises it again. `consistent_of_run` says that the metrics are right in every
run in which neither happens.
-/

namespace MultiAgent

namespace SagaPattern

/-- `saga_metrics`. -/
structure SagaMetrics where
  totalSagas : ℕ := 0
  completedSagas : ℕ := 0
  failedSagas : ℕ := 0
  compensatedSagas : ℕ := 0
  activeSagas : ℤ := 0
  deriving DecidableEq, Repr

namespace SagaMetrics

variable (m : SagaMetrics)

def countCompleted : SagaMetrics :=
  { m with completedSagas := m.completedSagas + 1 }

def countCompensated : SagaMetrics :=
  { m with compensatedSagas := m.compensatedSagas + 1 }

def countFailed : SagaMetrics :=
  { m with failedSagas := m.failedSagas + 1 }

end SagaMetrics

/-- Where an `execute_saga` call stands; `saga` is the object it got. It ends with a
`ValueError`, with a result, or with the `KeyError` of the second deletion. -/
inductive Execution
  | notFound (sagaId : String)
  | executing (sagaId : String) (saga : ℕ)
  | compensating (sagaId : String) (saga : ℕ)
  | returned (sagaId : String) (success : Bool)
  | raised (sagaId : String)
  deriving DecidableEq, Repr

/-- The id that the call is working on. -/
def Execution.liveId : Execution → Option String
  | .executing sagaId _ => some sagaId
  | .compensating sagaId _ => some sagaId
  | _ => none

/-- `SagaManager` : the status of each saga object, the two dictionaries, the metrics, and
the `execute_saga` calls in the order in which they came in. -/
structure Manager where
  sagas : List SagaStatus := []
  activeSagas : Dict String ℕ := .empty
  completedSagas : Dict String ℕ := .empty
  metrics : SagaMetrics := {}
  executions : List Execution := []

/-- A call comes in, or in the `k`-th `execute_saga` call the steps or the compensations
come to an end. -/
inductive ManagerEvent
  | createSaga (sagaId : String)
  | executeSaga (sagaId : String)
  | stepsEnded (k : ℕ) (success : Bool)
  | compensationsEnded (k : ℕ)
  | bodyRaised (k : ℕ)

namespace Manager

variable (s : Manager)

/-- `create_saga`. -/
def createSaga (sagaId : String) : Manager :=
  { s with
    sagas := s.sagas ++ [.pending]
    activeSagas := s.activeSagas.set sagaId s.sagas.length
    metrics := { s.metrics with
      totalSagas := s.metrics.totalSagas + 1
      activeSagas := s.metrics.activeSagas + 1 } }

/-- `execute_saga` up to its first suspension. -/
def executeSaga (sagaId : String) : Manager :=
  match s.activeSagas.get? sagaId with
  | none => { s with executions := s.executions ++ [.notFound sagaId] }
  | some saga =>
    { s with
      sagas := s.sagas.set saga .running
      executions := s.executions ++ [.executing sagaId saga] }

/-- The saga gets its final status and moves to `completed_sagas`. The deletion raises
unless the id is active. -/
def archive (sagaId : String) (saga : ℕ) (status : SagaStatus) : Manager × Bool :=
  let s := { s with
    sagas := s.sagas.set saga status
    completedSagas := s.completedSagas.set sagaId saga }
  if sagaId ∈ s.activeSagas then
    ({ s with activeSagas := s.activeSagas.erase sagaId }, true)
  else (s, false)

/-- The end of the `k`-th call, with the metrics counted by `count`. -/
def conclude (k : ℕ) (sagaId : String) (success : Bool) (count : SagaMetrics → SagaMetrics) :
    Manager :=
  let metrics := count s.metrics
  { s with
    metrics := { metrics with activeSagas := metrics.activeSagas - 1 }
    executions := s.executions.set k (.returned sagaId success) }

/-- The handler of `execute_saga`. -/
def handleError (k : ℕ) (sagaId : String) (saga : ℕ) : Manager :=
  match s.archive sagaId saga .failed with
  | (s, true) => s.conclude k sagaId false SagaMetrics.countFailed
  | (s, false) => { s with executions := s.executions.set k (.raised sagaId) }

/-- `execute_saga` after the steps succeeded. -/
def complete (k : ℕ) (sagaId : String) (saga : ℕ) : Manager :=
  match s.archive sagaId saga .completed with
  | (s, true) => s.conclude k sagaId true SagaMetrics.countCompleted
  | (s, false) => s.handleError k sagaId saga

/-- `execute_saga` after the compensations. -/
def compensate (k : ℕ) (sagaId : String) (saga : ℕ) : Manager :=
  match s.archive sagaId saga .compensated with
  | (s, true) => s.conclude k sagaId false SagaMetrics.countCompensated
  | (s, false) => s.handleError k sagaId saga

/-- `execute_saga` after the steps failed, up to the compensations. -/
def beginCompensation (k : ℕ) (sagaId : String) (saga : ℕ) : Manager :=
  { s with
    sagas := s.sagas.set saga .compensating
    executions := s.executions.set k (.compensating sagaId saga) }

/-- One step of the manager. -/
def step : ManagerEvent → Option Manager
  | .createSaga sagaId => some (s.createSaga sagaId)
  | .executeSaga sagaId => some (s.executeSaga sagaId)
  | .stepsEnded k success =>
    match s.executions[k]? with
    | some (.executing sagaId saga) =>
      some (if success then s.complete k sagaId saga else s.beginCompensation k sagaId saga)
    | _ => none
  | .compensationsEnded k =>
    match s.executions[k]? with
    | some (.compensating sagaId saga) => some (s.compensate k sagaId saga)
    | _ => none
  | .bodyRaised k =>
    match s.executions[k]? with
    | some (.executing sagaId saga) => some (s.handleError k sagaId saga)
    | some (.compensating sagaId saga) => some (s.handleError k sagaId saga)
    | _ => none

/-- Everything a step can do. -/
theorem step_cases {s t : Manager} {e : ManagerEvent} (h : s.step e = some t) :
    (∃ sagaId, e = .createSaga sagaId ∧ t = s.createSaga sagaId) ∨
      (∃ sagaId, e = .executeSaga sagaId ∧ t = s.executeSaga sagaId) ∨
      ∃ k x sagaId saga, s.executions[k]? = some x ∧ x.liveId = some sagaId ∧
        (t = s.complete k sagaId saga ∨ t = s.beginCompensation k sagaId saga ∨
          t = s.compensate k sagaId saga ∨ t = s.handleError k sagaId saga) := by
  cases e with
  | createSaga sagaId => exact Or.inl ⟨sagaId, rfl, (Option.some.inj h).symm⟩
  | executeSaga sagaId => exact Or.inr (Or.inl ⟨sagaId, rfl, (Option.some.inj h).symm⟩)
  | stepsEnded k success =>
    simp only [step] at h
    split at h
    · rename_i sagaId saga hk
      obtain rfl := Option.some.inj h
      refine Or.inr (Or.inr ⟨k, _, sagaId, saga, hk, rfl, ?_⟩)
      cases success with
      | true => exact Or.inl rfl
      | false => exact Or.inr (Or.inl rfl)
    · cases h
  | compensationsEnded k =>
    simp only [step] at h
    split at h
    · exact Or.inr (Or.inr ⟨k, _, _, _, ‹_›, rfl,
        Or.inr (Or.inr (Or.inl (Option.some.inj h).symm))⟩)
    · cases h
  | bodyRaised k =>
    simp only [step] at h
    split at h
    · exact Or.inr (Or.inr ⟨k, _, _, _, ‹_›, rfl,
        Or.inr (Or.inr (Or.inr (Option.some.inj h).symm))⟩)
    · exact Or.inr (Or.inr ⟨k, _, _, _, ‹_›, rfl,
        Or.inr (Or.inr (Or.inr (Option.some.inj h).symm))⟩)
    · cases h

/-- The metrics agree with the dictionaries, and no execution of a saga raised. -/
def Consistent : Prop :=
  s.metrics.activeSagas = s.activeSagas.size ∧
    (s.metrics.totalSagas : ℤ) = s.metrics.activeSagas + s.metrics.completedSagas +
      s.metrics.compensatedSagas + s.metrics.failedSagas ∧
    ∀ sagaId, .raised sagaId ∉ s.executions

/-- No saga is created under an active id, and no id is executed while it is being executed. -/
def NoOverlap (e : ManagerEvent) : Prop :=
  match e with
  | .createSaga sagaId => sagaId ∉ s.activeSagas
  | .executeSaga sagaId => ∀ x ∈ s.executions, x.liveId ≠ some sagaId
  | _ => True

instance (e : ManagerEvent) : Decidable (s.NoOverlap e) :=
  match e with
  | .createSaga sagaId => inferInstanceAs (Decidable (sagaId ∉ s.activeSagas))
  | .executeSaga sagaId => inferInstanceAs (Decidable (∀ x ∈ s.executions, _ ≠ some sagaId))
  | .stepsEnded _ _ | .compensationsEnded _ | .bodyRaised _ => inferInstanceAs (Decidable True)

/-- The metrics are right, and each active id has at most one execution. -/
structure Inv : Prop where
  consistent : s.Consistent
  live : ∀ x ∈ s.executions, ∀ sagaId ∈ x.liveId, sagaId ∈ s.activeSagas
  unique : ∀ (k k' : ℕ) (x x' : Execution) sagaId,
    s.executions[k]? = some x → s.executions[k']? = some x' →
    x.liveId = some sagaId → x'.liveId = some sagaId → k = k'

theorem Inv.createSaga {s : Manager} (h : s.Inv) {sagaId : String}
    (hid : sagaId ∉ s.activeSagas) : (s.createSaga sagaId).Inv := by
  obtain ⟨⟨hactive, htotal, hraised⟩, hlive, hunique⟩ := h
  refine ⟨⟨?_, ?_, hraised⟩, fun x hx i hi => ?_, hunique⟩
  · simp only [Manager.createSaga]
    rw [Dict.size_set_of_not_mem _ hid, hactive]
    simp
  · simp only [Manager.createSaga]
    push_cast
    omega
  · exact Dict.mem_set.mpr (Or.inr (hlive x hx i hi))

/-- A call comes in whose id, if it is alive, is active and not being executed. -/
theorem Inv.append {s t : Manager} {x : Execution} (h : s.Inv)
    (hmetrics : t.metrics = s.metrics) (hactive : t.activeSagas = s.activeSagas)
    (hexec : t.executions = s.executions ++ [x]) (hx : ∀ sagaId, x ≠ .raised sagaId)
    (hid : ∀ sagaId, x.liveId = some sagaId →
      sagaId ∈ s.activeSagas ∧ ∀ y ∈ s.executions, y.liveId ≠ some sagaId) : t.Inv := by
  obtain ⟨⟨hsize, htotal, hraised⟩, hlive, hunique⟩ := h
  refine ⟨⟨?_, ?_, fun i hi => ?_⟩, fun y hy i hi => ?_, fun k k' y y' i hk hk' hy hy' => ?_⟩
  · rw [hmetrics, hactive, hsize]
  · rw [hmetrics, htotal]
  · rw [hexec] at hi
    rcases List.mem_append.mp hi with hi | hi
    · exact hraised i hi
    · exact hx i (List.mem_singleton.mp hi).symm
  · rw [hactive]
    rw [hexec] at hy
    rcases List.mem_append.mp hy with hy | hy
    · exact hlive y hy i hi
    · rw [List.mem_singleton.mp hy] at hi
      exact (hid i hi).1
  · rw [hexec] at hk hk'
    rcases getElem?_concat_cases hk with hold | ⟨rfl, rfl⟩
    · rcases getElem?_concat_cases hk' with hold' | ⟨rfl, rfl⟩
      · exact hunique k k' y y' i hold hold' hy hy'
      · exact absurd hy ((hid i hy').2 y (List.mem_of_getElem? hold))
    · rcases getElem?_concat_cases hk' with hold' | ⟨rfl, rfl⟩
      · exact absurd hy' ((hid i hy).2 y' (List.mem_of_getElem? hold'))
      · rfl

theorem Inv.executeSaga {s : Manager} (h : s.Inv) {sagaId : String}
    (hid : ∀ x ∈ s.executions, x.liveId ≠ some sagaId) : (s.executeSaga sagaId).Inv := by
  unfold Manager.executeSaga
  cases hget : s.activeSagas.get? sagaId with
  | none => exact h.append rfl rfl rfl (by simp) (fun i hi => by simp [Execution.liveId] at hi)
  | some saga =>
    refine h.append rfl rfl rfl (by simp) fun i hi => ?_
    obtain rfl : sagaId = i := by simpa [Execution.liveId] using hi
    exact ⟨Dict.mem_of_get? hget, hid⟩

/-- The deletion succeeds for an active id. -/
theorem archive_of_mem {s : Manager} {sagaId : String} (h : sagaId ∈ s.activeSagas) (saga : ℕ)
    (status : SagaStatus) : s.archive sagaId saga status = ({ s with
      sagas := s.sagas.set saga status
      completedSagas := s.completedSagas.set sagaId saga
      activeSagas := s.activeSagas.erase sagaId }, true) :=
  if_pos h

/-- The end of an execution that is alive : its id is active, so the deletion succeeds. -/
theorem Inv.conclude {s : Manager} (h : s.Inv) {k : ℕ} {x : Execution} {sagaId : String}
    (hk : s.executions[k]? = some x) (hx : x.liveId = some sagaId) (saga : ℕ)
    (status : SagaStatus) (success : Bool) (count : SagaMetrics → SagaMetrics)
    (hcount : ∀ m : SagaMetrics, (count m).totalSagas = m.totalSagas ∧
      (count m).activeSagas = m.activeSagas ∧
      (count m).completedSagas + (count m).compensatedSagas + (count m).failedSagas =
        m.completedSagas + m.compensatedSagas + m.failedSagas + 1) :
    ((s.archive sagaId saga status).1.conclude k sagaId success count).Inv := by
  obtain ⟨⟨hsize, htotal, hraised⟩, hlive, hunique⟩ := h
  have hmem := hlive x (List.mem_of_getElem? hk) sagaId hx
  obtain ⟨hctotal, hcactive, hcsum⟩ := hcount s.metrics
  rw [archive_of_mem hmem]
  refine ⟨⟨?_, ?_, fun i hi => ?_⟩, fun y hy i hi => ?_, fun j j' y y' i hj hj' hy hy' => ?_⟩
  · have herase := Dict.size_erase_of_mem hmem
    dsimp only [Manager.conclude]
    omega
  · dsimp only [Manager.conclude]
    omega
  · rcases List.mem_or_eq_of_mem_set hi with hi | hi
    · exact hraised i hi
    · cases hi
  · -- another live execution has another id
    obtain ⟨j, hj⟩ := List.mem_iff_getElem?.mp hy
    rcases getElem?_set_cases hj with ⟨hjk, hj⟩ | ⟨-, rfl⟩
    · refine Dict.mem_erase.mpr ⟨?_, hlive y (List.mem_of_getElem? hj) i hi⟩
      rintro rfl
      exact hjk (hunique j k y x _ hj hk hi hx)
    · simp [Execution.liveId] at hi
  · rcases getElem?_set_cases hj with ⟨-, hj⟩ | ⟨-, rfl⟩
    · rcases getElem?_set_cases hj' with ⟨-, hj'⟩ | ⟨-, rfl⟩
      · exact hunique j j' y y' i hj hj' hy hy'
      · simp [Execution.liveId] at hy'
    · simp [Execution.liveId] at hy

theorem Inv.beginCompensation {s : Manager} (h : s.Inv) {k : ℕ} {x : Execution}
    {sagaId : String} (hk : s.executions[k]? = some x) (hx : x.liveId = some sagaId)
    (saga : ℕ) : (s.beginCompensation k sagaId saga).Inv := by
  obtain ⟨⟨hsize, htotal, hraised⟩, hlive, hunique⟩ := h
  -- every execution after the step was one with the same live id before it
  have hbefore : ∀ (j : ℕ) (y : Execution),
      (s.beginCompensation k sagaId saga).executions[j]? = some y →
      ∃ z : Execution, s.executions[j]? = some z ∧ z.liveId = y.liveId := by
    intro j y hj
    rcases getElem?_set_cases hj with ⟨-, hj⟩ | ⟨rfl, rfl⟩
    · exact ⟨y, hj, rfl⟩
    · exact ⟨x, hk, hx⟩
  refine ⟨⟨hsize, htotal, fun i hi => ?_⟩, fun y hy i hi => ?_,
    fun j j' y y' i hj hj' hy hy' => ?_⟩
  · rcases List.mem_or_eq_of_mem_set hi with hi | hi
    · exact hraised i hi
    · cases hi
  · obtain ⟨j, hj⟩ := List.mem_iff_getElem?.mp hy
    obtain ⟨z, hz, heq⟩ := hbefore j y hj
    exact hlive z (List.mem_of_getElem? hz) i (heq.trans hi)
  · obtain ⟨z, hz, heq⟩ := hbefore j y hj
    obtain ⟨z', hz', heq'⟩ := hbefore j' y' hj'
    exact hunique j j' z z' i hz hz' (heq.trans hy) (heq'.trans hy')

/-- A step without overlap keeps the metrics right. -/
theorem Inv.step {s t : Manager} {e : ManagerEvent} (h : s.Inv) (hok : s.NoOverlap e)
    (hst : s.step e = some t) : t.Inv := by
  rcases step_cases hst with ⟨sagaId, rfl, rfl⟩ | ⟨sagaId, rfl, rfl⟩ |
    ⟨k, x, sagaId, saga, hk, hx, ht⟩
  · exact h.createSaga hok
  · exact h.executeSaga hok
  · have hmem := h.live x (List.mem_of_getElem? hk) sagaId hx
    rcases ht with rfl | rfl | rfl | rfl
    · have hend := h.conclude hk hx saga .completed true SagaMetrics.countCompleted
        fun m => ⟨rfl, rfl, by dsimp only [SagaMetrics.countCompleted]; omega⟩
      rw [archive_of_mem hmem] at hend
      rw [Manager.complete, archive_of_mem hmem]
      exact hend
    · exact h.beginCompensation hk hx saga
    · have hend := h.conclude hk hx saga .compensated false SagaMetrics.countCompensated
        fun m => ⟨rfl, rfl, by dsimp only [SagaMetrics.countCompensated]; omega⟩
      rw [archive_of_mem hmem] at hend
      rw [Manager.compensate, archive_of_mem hmem]
      exact hend
    · have hend := h.conclude hk hx saga .failed false SagaMetrics.countFailed
        fun m => ⟨rfl, rfl, by dsimp only [SagaMetrics.countFailed]; omega⟩
      rw [archive_of_mem hmem] at hend
      rw [Manager.handleError, archive_of_mem hmem]
      exact hend

end Manager

/-- The saga manager from its construction on. -/
def managerMachine : Machine Manager ManagerEvent where
  init := {}
  step := Manager.step

/-- In every run in which no active id is created again, and no id is executed while it is
being executed, the metrics are right, and no execution of a saga raised. -/
theorem consistent_of_run {es : List ManagerEvent} {s : Manager}
    (h : managerMachine.Run Manager.NoOverlap es s) : s.Consistent := by
  have hinv : s.Inv := by
    refine h.invariant (I := Manager.Inv) ⟨⟨rfl, rfl, by simp [managerMachine]⟩,
      by simp [managerMachine], by simp [managerMachine]⟩ fun s e t hs hok hst => hs.step hok hst
  exact hinv.consistent

/-- One id, executed, created again and executed again. -/
theorem consistent_of_run_again : ∃ s : Manager,
    (∃ es, managerMachine.Run Manager.NoOverlap es s) ∧ s.metrics.completedSagas = 1 ∧
      s.metrics.compensatedSagas = 1 ∧ s.Consistent := by
  obtain ⟨s, hrun, hp⟩ := Machine.exists_run managerMachine Manager.NoOverlap
    [.createSaga "a", .executeSaga "a", .stepsEnded 0 true, .createSaga "a", .executeSaga "a",
      .stepsEnded 1 false, .compensationsEnded 1]
    (fun s => s.metrics.completedSagas = 1 ∧ s.metrics.compensatedSagas = 1) (by decide)
  obtain ⟨hcompleted, hcompensated⟩ := of_decide_eq_true hp
  exact ⟨s, ⟨_, hrun⟩, hcompleted, hcompensated, consistent_of_run hrun⟩

/-- A second execution of an id, still going on when the first one ends, raises. -/
theorem not_consistent : ¬∀ s : Manager, managerMachine.Reachable s → s.Consistent := by
  intro hall
  obtain ⟨s, hrun, hp⟩ := Machine.exists_run managerMachine (fun _ _ => True)
    [.createSaga "a", .executeSaga "a", .executeSaga "a", .stepsEnded 0 true, .stepsEnded 1 true]
    (fun s => .raised "a" ∈ s.executions) (by decide)
  exact (hall s hrun.reachable).2.2 "a" (of_decide_eq_true hp)

end SagaPattern

end MultiAgent
