import Mathlib.Algebra.GroupWithZero.Nat
import MultiAgent.Reliability.Saga

/-!
# The counters of the saga manager

`SagaManager` counts a saga when it starts, completes, is compensated or fails. The
counters partition the sagas if each saga is counted once, when it leaves `RUNNING` and
`COMPENSATING` for good. A step never counts a saga too little (`weight_step`), and it
counts one twice when a failure is counted beside the compensation that follows it, or
when one task ends the saga after another one has. `partitions_iff` says that the
counters partition the sagas at the end of a run exactly when no step of it did that.
-/

namespace MultiAgent

namespace SagaManager

variable {ρ : Type*}

/-- The sum of the additions. -/
def Counters.total (c : Counters) : ℕ :=
  c.completed + c.compensated + c.failed

namespace SagaRun

variable (r : SagaRun ρ)

/-- The saga is `RUNNING` or `COMPENSATING`. -/
def isOpen : Bool :=
  r.saga.status = .running || r.saga.status = .compensating

/-- An open saga is still to be counted. -/
def weight : ℕ :=
  if r.isOpen = true then 1 else 0

/-- The step that gives the saga its final status. -/
def ends : SagaEvent ρ → Bool
  | .start => r.saga.steps.isEmpty
  | .executeReturned _ =>
    match r.executor with
    | .executing i => r.saga.steps.length ≤ i + 1
    | _ => false
  | .compensationEnded _ =>
    match r.executor with
    | .compensating j => r.loopEnds j
    | _ => false
  | .cancelStep c _ => r.lastCompensation c
  | _ => false

/-- The saga does not fail, and it is open when it gets its final status. -/
def CountsOnce (e : SagaEvent ρ) : Prop :=
  match e with
  | .executeRaised _ => False
  | e => r.ends e = true → r.isOpen = true

instance (e : SagaEvent ρ) : Decidable (r.CountsOnce e) :=
  match e with
  | .executeRaised _ => inferInstanceAs (Decidable False)
  | .start | .executeReturned _ | .compensationEnded _ | .cancel | .cancelStep _ _ =>
    inferInstanceAs (Decidable (r.ends _ = true → r.isOpen = true))

variable {r}

theorem weight_le_one : r.weight ≤ 1 := by
  unfold weight
  split_ifs <;> omega

theorem weight_eq_one_iff : r.weight = 1 ↔ r.isOpen = true := by
  unfold weight
  split_ifs <;> simp_all

theorem weight_congr {t : SagaRun ρ} (h : t.saga.status = r.saga.status) :
    t.weight = r.weight := by
  simp [weight, isOpen, h]

/-- What a sweep adds to the counters and to the weight. -/
theorem sweep_weight (n : ℕ) :
    (r.loopEnds n = true ∧ (r.sweep n).2.1.total = 1 ∧ (r.sweep n).1.weight = 0) ∨
      (r.loopEnds n = false ∧ (r.sweep n).2.1.total = 0 ∧ (r.sweep n).1.weight = r.weight) := by
  rcases r.sweep_cases n with ⟨hn, hs⟩ | ⟨hn, hs⟩ | ⟨j, step, hn, -, -, -, hs⟩ <;> rw [hs]
  · exact Or.inr ⟨by simp [loopEnds, hn], rfl, rfl⟩
  · exact Or.inl ⟨loopEnds_iff.mpr hn, rfl, rfl⟩
  · exact Or.inr ⟨by simp [loopEnds, hn], rfl, weight_congr rfl⟩

theorem setExecutor_weight (s : SagaRun ρ × Counters × SweepStop) :
    (setExecutor s).1.weight = s.1.weight ∧ (setExecutor s).2 = s.2.1 := by
  obtain ⟨r, c, stop⟩ := s
  cases stop <;> exact ⟨rfl, rfl⟩

/-- A saga that begins to compensate is open, and stays open or is counted. -/
theorem compensateSaga_weight (reason : Option String) :
    (r.compensateSaga reason).2.1.total + (r.compensateSaga reason).1.weight = 1 := by
  have hopen : (r.beginCompensation reason).weight = 1 := rfl
  unfold compensateSaga
  rcases (r.beginCompensation reason).sweep_weight (r.saga.currentStepIndex + 1) with
    ⟨-, hc, hw⟩ | ⟨-, hc, hw⟩ <;> omega

/-- The loop of the executor from `i` counts the saga when it does not execute step `i`. -/
theorem executeFrom_weight (i : ℕ) :
    (r.saga.steps.length ≤ i ∧ (r.executeFrom i).2.total = 1 ∧ (r.executeFrom i).1.weight = 0) ∨
      (i < r.saga.steps.length ∧ (r.executeFrom i).2.total = 0 ∧
        (r.executeFrom i).1.weight = r.weight) := by
  unfold executeFrom
  split_ifs with hi
  · exact Or.inr ⟨hi, rfl, weight_congr rfl⟩
  · exact Or.inl ⟨Nat.le_of_not_lt hi, rfl, rfl⟩

/-- What is added when a step ends the saga or not, in one form. -/
theorem weight_of_ends {ends : Bool} {total w : ℕ}
    (h : (ends = true ∧ total = 1 ∧ w = 0) ∨ (ends = false ∧ total = 0 ∧ w = r.weight)) :
    r.weight ≤ total + w ∧ (total + w = r.weight ↔ (ends = true → r.isOpen = true)) := by
  have hle := r.weight_le_one
  rcases h with ⟨rfl, rfl, rfl⟩ | ⟨rfl, rfl, rfl⟩
  · refine ⟨hle, ?_⟩
    rw [← weight_eq_one_iff]
    constructor
    · exact fun h _ => h.symm
    · exact fun h => (h rfl).symm
  · exact ⟨by omega, by simp⟩

/-- A step never counts the saga too little, and counts it right exactly if `CountsOnce`. -/
theorem weight_step {e : SagaEvent ρ} {t : SagaRun ρ × Counters} (h : r.step e = some t) :
    r.weight ≤ t.2.total + t.1.weight ∧
      (t.2.total + t.1.weight = r.weight ↔ r.CountsOnce e) := by
  rcases step_cases h with ⟨rfl, hex, rfl⟩ | ⟨i, x, rfl, hex, rfl⟩ |
    ⟨i, error, rfl, hex, rfl⟩ | ⟨j, o, rfl, hex, rfl⟩ | ⟨rfl, hr, rfl⟩ | ⟨rfl, hr, rfl⟩ |
    ⟨c, j, o, rfl, hc, rfl⟩
  · refine weight_of_ends ?_
    rcases r.executeFrom_weight 0 with ⟨hlen, hc, hw⟩ | ⟨hlen, hc, hw⟩
    · refine Or.inl ⟨?_, hc, hw⟩
      simpa [ends] using Nat.le_zero.mp hlen
    · refine Or.inr ⟨?_, hc, hw⟩
      simpa [ends] using List.length_pos_iff.mp hlen
  · rw [afterStep_finishStep]
    have hlen : (r.finishStep i x).saga.steps.length = r.saga.steps.length :=
      record_length i _ (.returned i x)
    have hends : r.ends (.executeReturned x) = decide (r.saga.steps.length ≤ i + 1) := by
      simp [ends, hex]
    refine weight_of_ends ?_
    rcases (r.finishStep i x).executeFrom_weight (i + 1) with ⟨hi, hc, hw⟩ | ⟨hi, hc, hw⟩
    · exact Or.inl ⟨by simp only [hends, decide_eq_true_eq]; omega, hc, hw⟩
    · exact Or.inr ⟨by simp only [hends, decide_eq_false_iff_not]; omega, hc, hw⟩
  · have hle := r.weight_le_one
    have hone := ((r.failStep i error).markFailed error).compensateSaga_weight (some error)
    obtain ⟨hw, hc⟩ := setExecutor_weight
      (((r.failStep i error).markFailed error).compensateSaga (some error))
    -- the handler counts the failure, and the loop counts the saga as compensated too
    have htotal : ((r.failStep i error).handleFailure error).2.total =
        (setExecutor (((r.failStep i error).markFailed error).compensateSaga
          (some error))).2.total + 1 := rfl
    have hweight : ((r.failStep i error).handleFailure error).1.weight =
        (setExecutor (((r.failStep i error).markFailed error).compensateSaga
          (some error))).1.weight := rfl
    rw [hc] at htotal
    rw [hw] at hweight
    refine ⟨by omega, ⟨fun heq => by omega, fun hfalse => hfalse.elim⟩⟩
  · refine weight_of_ends ?_
    obtain ⟨hw, hc⟩ := setExecutor_weight ((r.endCompensation j o).sweep j)
    have hends : r.ends (.compensationEnded o) = r.loopEnds j := by
      simp [ends, hex]
    rw [hw, hc, hends, ← r.endCompensation_loopEnds j o]
    exact (r.endCompensation j o).sweep_weight j
  · have hopen : r.weight = 1 := by simp [weight, isOpen, hr]
    have hone := r.logCancel.compensateSaga_weight (some "Manually cancelled")
    have htotal : r.acceptCancel.2.total + r.acceptCancel.1.weight = 1 := hone
    exact ⟨by omega, fun _ hends => by simp [ends] at hends, fun _ => by omega⟩
  · exact weight_of_ends (Or.inr ⟨rfl, rfl, rfl⟩)
  · refine weight_of_ends ?_
    have hends : r.ends (.cancelStep c o) = r.loopEnds j := by
      simp [ends, lastCompensation, hc]
    rw [hends, ← r.endCompensation_loopEnds j o]
    exact (r.endCompensation j o).sweep_weight j

end SagaRun

/-- `SagaManager` : its sagas, in the order in which they were started, and its counters. -/
structure Manager (ρ : Type*) where
  activeSagas : List (SagaRun ρ) := []
  totalSagas : ℕ := 0
  completedSagas : ℕ := 0
  compensatedSagas : ℕ := 0
  failedSagas : ℕ := 0

/-- `start_saga`, or a task of the `k`-th saga goes on. -/
inductive ManagerEvent (ρ : Type*)
  | startSaga (compensations : List Bool)
  | on (k : ℕ) (e : SagaEvent ρ)

namespace Manager

/-- One step of the manager. -/
def step (s : Manager ρ) : ManagerEvent ρ → Option (Manager ρ)
  | .startSaga compensations => some { s with
      activeSagas := s.activeSagas ++ [SagaManager.startSaga compensations]
      totalSagas := s.totalSagas + 1 }
  | .on k e =>
    match s.activeSagas[k]? with
    | none => none
    | some r =>
      match r.step e with
      | none => none
      | some (t, c) => some { s with
          activeSagas := s.activeSagas.set k t
          completedSagas := s.completedSagas + c.completed
          compensatedSagas := s.compensatedSagas + c.compensated
          failedSagas := s.failedSagas + c.failed }

/-- Everything a step can do. -/
theorem step_cases {s t : Manager ρ} {e : ManagerEvent ρ} (h : s.step e = some t) :
    (∃ compensations, e = .startSaga compensations ∧ t = { s with
        activeSagas := s.activeSagas ++ [SagaManager.startSaga compensations]
        totalSagas := s.totalSagas + 1 }) ∨
      ∃ k e' r u, e = .on k e' ∧ s.activeSagas[k]? = some r ∧ r.step e' = some u ∧
        t = { s with
          activeSagas := s.activeSagas.set k u.1
          completedSagas := s.completedSagas + u.2.completed
          compensatedSagas := s.compensatedSagas + u.2.compensated
          failedSagas := s.failedSagas + u.2.failed } := by
  cases e with
  | startSaga compensations => exact Or.inl ⟨compensations, rfl, (Option.some.inj h).symm⟩
  | on k e =>
    simp only [step] at h
    split at h
    · cases h
    · rename_i r hr
      split at h
      · cases h
      · exact Or.inr ⟨k, e, r, _, rfl, hr, ‹_›, (Option.some.inj h).symm⟩

/-- The sagas in the given status. -/
def count (s : Manager ρ) (status : SagaStatus) : ℕ :=
  s.activeSagas.countP fun r => r.saga.status = status

/-- The counters and the open sagas partition the sagas. -/
def Partitions (s : Manager ρ) : Prop :=
  s.totalSagas = s.completedSagas + s.compensatedSagas + s.failedSagas + s.count .running +
    s.count .compensating

/-- The step counts the saga it is about once. -/
def CountsOnce (s : Manager ρ) (e : ManagerEvent ρ) : Prop :=
  match e with
  | .startSaga _ => True
  | .on k e => ∀ r ∈ s.activeSagas[k]?, r.CountsOnce e

/-- The open sagas. -/
def openSagas (s : Manager ρ) : ℕ :=
  (s.activeSagas.map SagaRun.weight).sum

/-- The sagas counted as completed, compensated or failed. -/
def counted (s : Manager ρ) : ℕ :=
  s.completedSagas + s.compensatedSagas + s.failedSagas

theorem openSagas_eq (s : Manager ρ) : s.openSagas = s.count .running + s.count .compensating := by
  unfold openSagas count
  induction s.activeSagas with
  | nil => rfl
  | cons r rs ih =>
    rw [List.map_cons, List.sum_cons, ih, List.countP_cons, List.countP_cons]
    cases hr : r.saga.status <;> simp [SagaRun.weight, SagaRun.isOpen, hr] <;> omega

theorem partitions_iff_openSagas (s : Manager ρ) :
    s.Partitions ↔ s.totalSagas = s.counted + s.openSagas := by
  rw [openSagas_eq, Partitions, counted, Nat.add_assoc]

end Manager

/-- Replacing an entry of a list replaces its share of the sum. -/
theorem sum_map_set {α : Type*} (w : α → ℕ) {a b : α} :
    ∀ {l : List α} {k : ℕ}, l[k]? = some a →
      ((l.set k b).map w).sum + w a = (l.map w).sum + w b
  | [], k, h => by simp at h
  | x :: l, 0, h => by
    obtain rfl : x = a := by simpa using h
    simp only [List.set_cons_zero, List.map_cons, List.sum_cons]
    omega
  | x :: l, k + 1, h => by
    have ih := sum_map_set w (b := b) (l := l) (k := k) (by simpa using h)
    simp only [List.set_cons_succ, List.map_cons, List.sum_cons]
    omega

/-- The saga manager from its construction on. -/
def managerMachine (ρ : Type*) : Machine (Manager ρ) (ManagerEvent ρ) where
  init := {}
  step := Manager.step

/-- A step of the manager never counts a saga too little, and counts right exactly if
`CountsOnce`. -/
theorem Manager.counted_step {s t : Manager ρ} {e : ManagerEvent ρ} (h : s.step e = some t) :
    s.counted + s.openSagas + t.totalSagas ≤ t.counted + t.openSagas + s.totalSagas ∧
      (s.counted + s.openSagas + t.totalSagas = t.counted + t.openSagas + s.totalSagas ↔
        s.CountsOnce e) := by
  rcases Manager.step_cases h with ⟨compensations, rfl, rfl⟩ | ⟨k, e', r, u, rfl, hr, hu, rfl⟩
  · have hone : (startSaga compensations : SagaRun ρ).weight = 1 := rfl
    simp only [counted, openSagas, CountsOnce, List.map_append, List.sum_append, List.map_cons,
      List.map_nil, List.sum_cons, List.sum_nil, hone]
    exact ⟨by omega, fun _ => trivial, fun _ => by omega⟩
  · obtain ⟨hle, hiff⟩ := SagaRun.weight_step hu
    have hsum := sum_map_set SagaRun.weight (b := u.1) hr
    have hguard : s.CountsOnce (.on k e') ↔ r.CountsOnce e' := by
      simp [CountsOnce, hr]
    rw [hguard, ← hiff]
    simp only [counted, openSagas, Counters.total] at hle ⊢
    exact ⟨by omega, fun heq => by omega, fun heq => by omega⟩

/-- At the end of every run the counters partition the sagas if and only if every step of
the run counted its saga once. -/
theorem partitions_iff {es : List (ManagerEvent ρ)} {s : Manager ρ}
    (h : (managerMachine ρ).Run (fun _ _ => True) es s) :
    s.Partitions ↔ (managerMachine ρ).Run Manager.CountsOnce es s := by
  have hboth : s.totalSagas ≤ s.counted + s.openSagas ∧
      (s.totalSagas = s.counted + s.openSagas ↔
        (managerMachine ρ).Run Manager.CountsOnce es s) := by
    induction h with
    | nil => exact ⟨Nat.le_refl _, fun _ => .nil, fun _ => rfl⟩
    | @snoc es s e t hrun _ hst ih =>
      obtain ⟨hle, hiff⟩ := Manager.counted_step hst
      refine ⟨by omega, fun heq => ?_, fun hcount => ?_⟩
      · exact .snoc (ih.2.mp (by omega)) (hiff.mp (by omega)) hst
      · obtain ⟨s', hrun', hok, -⟩ := hcount.snoc_inv
        obtain rfl := hrun.unique hrun'
        have heq := ih.2.mpr hrun'
        have hstep := hiff.mpr hok
        omega
  rw [Manager.partitions_iff_openSagas]
  exact hboth.2

/-- The sagas of the manager are sagas as `sagaMachine` runs them. -/
theorem reachable_of_mem {s : Manager ρ} (h : (managerMachine ρ).Reachable s) :
    ∀ r ∈ s.activeSagas, ∃ compensations, (sagaMachine ρ compensations).Reachable r := by
  obtain ⟨es, hrun⟩ := h
  refine hrun.invariant (I := fun s : Manager ρ => ∀ r ∈ s.activeSagas,
    ∃ compensations, (sagaMachine ρ compensations).Reachable r) ?_ fun s e t hs _ hst => ?_
  · intro r hr
    simp [managerMachine] at hr
  rcases Manager.step_cases hst with ⟨compensations, -, rfl⟩ | ⟨k, e', r, u, -, hr, hu, rfl⟩
  · intro r hr
    rcases List.mem_append.mp hr with hr | hr
    · exact hs r hr
    · rw [List.mem_singleton.mp hr]
      exact ⟨compensations, .init⟩
  · intro r' hr'
    rcases List.mem_or_eq_of_mem_set hr' with hr' | rfl
    · exact hs r' hr'
    · obtain ⟨compensations, hreach⟩ := hs r (List.mem_of_getElem? hr)
      exact ⟨compensations, hreach.step (Option.map_eq_some_iff.mpr ⟨u, hu, rfl⟩)⟩

/-- Two sagas, one completed and one cancelled while its first step executes. -/
theorem partitions_iff_two : ∃ s : Manager ℕ, (∃ es,
    (managerMachine ℕ).Run (fun _ _ => True) es s ∧
      (s.Partitions ↔ (managerMachine ℕ).Run Manager.CountsOnce es s)) ∧
    s.completedSagas = 1 ∧ s.count .compensating = 1 := by
  obtain ⟨s, hrun, hp⟩ := Machine.exists_run (managerMachine ℕ) (fun _ _ => True)
    [.startSaga [true], .startSaga [true, false], .on 0 .start, .on 0 (.executeReturned 7),
      .on 1 .start, .on 1 (.executeReturned 8), .on 1 .cancel]
    (fun s => s.completedSagas = 1 ∧ s.count .compensating = 1) (by decide)
  obtain ⟨hcompleted, hcompensating⟩ := of_decide_eq_true hp
  exact ⟨s, ⟨_, hrun, partitions_iff hrun⟩, hcompleted, hcompensating⟩

/-- A saga whose only step fails is counted as failed and as compensated. -/
theorem not_partitions :
    ¬∀ s : Manager ℕ, (managerMachine ℕ).Reachable s → s.Partitions := by
  intro hall
  obtain ⟨s, hrun, hp⟩ := Machine.exists_run (managerMachine ℕ) (fun _ _ => True)
    [.startSaga [true], .on 0 .start, .on 0 (.executeRaised "e")]
    (fun s => s.totalSagas = 1 ∧ s.compensatedSagas = 1 ∧ s.failedSagas = 1) (by decide)
  obtain ⟨htotal, hcompensated, hfailed⟩ := of_decide_eq_true hp
  have hpart := hall s hrun.reachable
  unfold Manager.Partitions at hpart
  omega

end SagaManager

end MultiAgent
