import MultiAgent.Reliability.Saga

/-!
# What a failed saga undoes

A saga that nobody cancels is sequential : when the execution of step `k` fails, the
steps below `k` have completed, and the loop of `_compensate_saga` calls the
compensation functions of exactly those that have one, downwards. The other steps are
skipped, and their adapter's `compensate` is not called. `Progress` is the invariant.
`undoesInReverse_iff` says that every step below `k` is compensated, in reverse order,
if and only if each of them has a compensation function of its own.
-/

namespace MultiAgent

namespace SagaManager

variable {ρ : Type*}

/-- The compensation calls of a log : the step, and whether it is its own function that
is called, or the adapter's `compensate`. -/
def compensationCalls (log : List (SagaCall ρ)) : List (ℕ × Bool) :=
  log.filterMap fun
    | .compensate i b _ => some (i, b)
    | _ => none

/-- The steps whose tool returned. -/
def returns (log : List (SagaCall ρ)) : List ℕ :=
  log.filterMap fun
    | .returned i _ => some i
    | _ => none

/-- The steps whose tool raised. -/
def failures (log : List (SagaCall ρ)) : List ℕ :=
  log.filterMap fun
    | .raised i _ => some i
    | _ => none

theorem compensationCalls_append (log log' : List (SagaCall ρ)) :
    compensationCalls (log ++ log') = compensationCalls log ++ compensationCalls log' :=
  List.filterMap_append

theorem returns_append (log log' : List (SagaCall ρ)) :
    returns (log ++ log') = returns log ++ returns log' :=
  List.filterMap_append

theorem failures_append (log log' : List (SagaCall ρ)) :
    failures (log ++ log') = failures log ++ failures log' :=
  List.filterMap_append

/-- The steps below `n` that have a compensation function, downwards. -/
def explicitBelow (compensations : List Bool) : ℕ → List ℕ
  | 0 => []
  | i + 1 =>
    if compensations[i]? = some true then i :: explicitBelow compensations i
    else explicitBelow compensations i

/-- The steps below `n`, downwards, each undone by its own function if it has one and
by its adapter otherwise. -/
def undone (compensations : List Bool) (n : ℕ) : List (ℕ × Bool) :=
  (List.range n).reverse.map fun i => (i, compensations[i]? = some true)

/-- The two lists agree when every step below `n` has a compensation function. -/
theorem explicitBelow_eq_undone_iff (compensations : List Bool) (n : ℕ) :
    (explicitBelow compensations n).map (fun i => (i, true)) = undone compensations n ↔
      ∀ i < n, compensations[i]? = some true := by
  constructor
  · intro h i hi
    have hmem : (i, decide (compensations[i]? = some true)) ∈ undone compensations n :=
      List.mem_map.mpr ⟨i, by simp [hi], rfl⟩
    rw [← h] at hmem
    obtain ⟨j, -, hj⟩ := List.mem_map.mp hmem
    exact of_decide_eq_true (Prod.mk.inj hj).2.symm
  · intro h
    induction n with
    | zero => rfl
    | succ n ih =>
      have hn : compensations[n]? = some true := h n (Nat.lt_succ_self n)
      have hbelow := ih fun i hi => h i (Nat.lt_succ_of_lt hi)
      simp only [undone] at hbelow
      simp [explicitBelow, undone, hn, hbelow, List.range_succ]

namespace SagaRun

/-- Every step below `n` is `COMPLETED`. -/
def CompletedBelow (r : SagaRun ρ) (n : ℕ) : Prop :=
  ∀ i < n, ∃ step, r.saga.steps[i]? = some step ∧ step.status = .completed

theorem CompletedBelow.record {r : SagaRun ρ} {n i : ℕ} (h : r.CompletedBelow n) (hi : n ≤ i)
    (f : SagaStep ρ → SagaStep ρ) (call : SagaCall ρ) : (r.record i f call).CompletedBelow n := by
  intro k hk
  rw [record_step_ne f call (show k ≠ i by omega)]
  exact h k hk

theorem CompletedBelow.mono {r : SagaRun ρ} {m n : ℕ} (h : r.CompletedBelow n) (hmn : m ≤ n) :
    r.CompletedBelow m :=
  fun i hi => h i (Nat.lt_of_lt_of_le hi hmn)

/-- Below `n`, with every step `COMPLETED`, the loop stops at the first step of
`explicitBelow`. -/
theorem CompletedBelow.nextCompensation {r : SagaRun ρ} {n : ℕ} (h : r.CompletedBelow n) :
    (nextCompensation r.saga.steps n = some none ∧ explicitBelow r.compensations n = []) ∨
      ∃ j < n, nextCompensation r.saga.steps n = some (some j) ∧
        explicitBelow r.compensations n = j :: explicitBelow r.compensations j := by
  induction n with
  | zero => exact Or.inl ⟨rfl, rfl⟩
  | succ n ih =>
    obtain ⟨step, hstep, hcomp⟩ := h n (Nat.lt_succ_self n)
    have hflag : r.compensations[n]? = some step.compensation := by
      simp [compensations, hstep]
    by_cases hfun : step.compensation = true
    · refine Or.inr ⟨n, Nat.lt_succ_self n, ?_, ?_⟩
      · simp [SagaManager.nextCompensation, hstep, hcomp, hfun]
      · simp [explicitBelow, hflag, hfun]
    · have hnext : SagaManager.nextCompensation r.saga.steps (n + 1) =
          SagaManager.nextCompensation r.saga.steps n := by
        rw [SagaManager.nextCompensation, hstep]
        simp [hfun]
      have hexp : explicitBelow r.compensations (n + 1) = explicitBelow r.compensations n := by
        simp [explicitBelow, hflag, hfun]
      rw [hnext, hexp]
      rcases ih (h.mono (Nat.le_succ n)) with hnone | ⟨j, hj, hsome⟩
      · exact Or.inl hnone
      · exact Or.inr ⟨j, Nat.lt_succ_of_lt hj, hsome⟩

end SagaRun

/-! ## The invariant of a saga that is not cancelled -/

/-- Nothing has failed yet, the steps below `i` have returned. -/
structure Forward (r : SagaRun ρ) (i : ℕ) : Prop where
  completed : r.CompletedBelow i
  returned : returns r.log = List.range i
  failed : failures r.log = []
  called : compensationCalls r.log = []

/-- Step `k` failed, the steps below it have returned, and those below `j` are still to
be undone. -/
structure Backward (cs : List Bool) (r : SagaRun ρ) (k j : ℕ) : Prop where
  completed : r.CompletedBelow j
  returned : returns r.log = List.range k
  failed : failures r.log = [k]
  called : compensationCalls r.log ++ (explicitBelow cs j).map (fun i => (i, true)) =
    (explicitBelow cs k).map fun i => (i, true)

/-- How far the executor has come. -/
def Progress (cs : List Bool) (r : SagaRun ρ) : Executor → Prop
  | .created => Forward r 0
  | .executing i => Forward r i ∧ i < r.saga.steps.length ∧ r.saga.currentStepIndex = i
  | .compensating j => ∃ k, Backward cs r k j
  | .done => failures r.log = [] ∨ ∃ k, Backward cs r k 0

variable {cs : List Bool}

theorem Forward.congr {r t : SagaRun ρ} {i : ℕ} (h : Forward r i) (hsaga : t.saga = r.saga)
    (hlog : t.log = r.log) : Forward t i :=
  ⟨fun k hk => hsaga ▸ h.completed k hk, hlog ▸ h.returned, hlog ▸ h.failed, hlog ▸ h.called⟩

theorem Backward.congr {r t : SagaRun ρ} {k j : ℕ} (h : Backward cs r k j)
    (hsteps : t.saga.steps = r.saga.steps) (hlog : t.log = r.log) : Backward cs t k j :=
  ⟨fun i hi => hsteps ▸ h.completed i hi, hlog ▸ h.returned, hlog ▸ h.failed, hlog ▸ h.called⟩

theorem Progress.congr {r t : SagaRun ρ} {ex : Executor} (h : Progress cs r ex)
    (hsaga : t.saga = r.saga) (hlog : t.log = r.log) : Progress cs t ex := by
  cases ex with
  | created => exact Forward.congr h hsaga hlog
  | executing i => exact ⟨h.1.congr hsaga hlog, hsaga ▸ h.2.1, hsaga ▸ h.2.2⟩
  | compensating j =>
    obtain ⟨k, hk⟩ := h
    exact ⟨k, hk.congr (congrArg _ hsaga) hlog⟩
  | done =>
    rcases h with h | ⟨k, hk⟩
    · exact Or.inl (hlog ▸ h)
    · exact Or.inr ⟨k, hk.congr (congrArg _ hsaga) hlog⟩

/-- What more calls add to the history of a saga that has not failed. -/
theorem Forward.log_append {r : SagaRun ρ} {i : ℕ} (h : Forward r i) (log : List (SagaCall ρ)) :
    returns (r.log ++ log) = List.range i ++ returns log ∧
      failures (r.log ++ log) = failures log ∧
        compensationCalls (r.log ++ log) = compensationCalls log := by
  rw [returns_append, failures_append, compensationCalls_append, h.returned, h.failed, h.called]
  exact ⟨rfl, rfl, rfl⟩

/-- What more calls add to the history of a saga whose step `k` failed. -/
theorem Backward.log_append {r : SagaRun ρ} {k j : ℕ} (h : Backward cs r k j)
    (log : List (SagaCall ρ)) :
    returns (r.log ++ log) = List.range k ++ returns log ∧
      failures (r.log ++ log) = k :: failures log ∧
        compensationCalls (r.log ++ log) = compensationCalls r.log ++ compensationCalls log := by
  rw [returns_append, failures_append, compensationCalls_append, h.returned, h.failed]
  exact ⟨rfl, rfl, rfl⟩

/-- The executor goes on from step `i`. -/
theorem Forward.executeFrom {r : SagaRun ρ} {i : ℕ} (h : Forward r i) :
    Progress cs (r.executeFrom i).1 (r.executeFrom i).1.executor := by
  unfold SagaRun.executeFrom
  split_ifs with hi
  · obtain ⟨hret, hfail, hcall⟩ := h.log_append [.execute i]
    refine ⟨⟨?_, ?_, hfail, hcall⟩, ?_, rfl⟩
    · exact h.completed.record (Nat.le_refl i) _ (.execute i)
    · exact hret.trans (List.append_nil _)
    · simpa [SagaRun.startStep, SagaRun.record] using hi
  · exact Or.inl (h.log_append [.sagaCompleted]).2.1

/-- The loop of `_compensate_saga` goes on below `n`. -/
theorem Backward.sweep {r : SagaRun ρ} {k n : ℕ} (hcs : r.compensations = cs)
    (h : Backward cs r k n) :
    Progress cs (SagaRun.setExecutor (r.sweep n)).1
      (SagaRun.setExecutor (r.sweep n)).1.executor := by
  have hnext := h.completed.nextCompensation
  rw [hcs] at hnext
  rcases r.sweep_cases n with ⟨hn, -⟩ | ⟨hn, hs⟩ | ⟨j, step, hn, -, -, -, hs⟩
  · simp [hn] at hnext
  · have hnil : explicitBelow cs n = [] := by simpa [hn] using hnext
    have hcalled := h.called
    rw [hnil] at hcalled
    rw [hs]
    exact Or.inr ⟨k, fun i hi => absurd hi (Nat.not_lt_zero i), h.returned, h.failed, hcalled⟩
  · obtain ⟨j', hlt, hnj, hexp⟩ := hnext.resolve_left fun h => by simp [hn] at h
    obtain rfl : j = j' := Option.some.inj (Option.some.inj (hn.symm.trans hnj))
    have hcalled := h.called
    rw [hexp] at hcalled
    rw [hs]
    obtain ⟨hret, hfail, hcall⟩ := h.log_append [.compensate j true step.result]
    refine ⟨k, (h.completed.mono (Nat.le_of_lt hlt)).record (Nat.le_refl j) _
      (.compensate j true step.result), hret.trans (List.append_nil _), hfail, ?_⟩
    refine ((congrArg (· ++ _) hcall).trans ?_).trans hcalled
    exact List.append_assoc _ _ _

/-- The executor has come so far, and no cancel call was accepted. -/
structure Uncancelled (cs : List Bool) (r : SagaRun ρ) : Prop where
  flags : r.compensations = cs
  cancellers : ∀ j, .compensating j ∉ r.cancellers
  progress : Progress cs r r.executor

/-- The saga is not cancelled : a `cancel_saga` call finds it not running. -/
def NotCancelled (r : SagaRun ρ) (e : SagaEvent ρ) : Prop :=
  match e with
  | .cancel => r.saga.status ≠ .running
  | _ => True

instance (r : SagaRun ρ) (e : SagaEvent ρ) : Decidable (NotCancelled r e) :=
  match e with
  | .cancel => inferInstanceAs (Decidable (r.saga.status ≠ .running))
  | .start | .executeReturned _ | .executeRaised _ | .compensationEnded _ | .cancelStep _ _ =>
    inferInstanceAs (Decidable True)

theorem Forward.finishStep {r : SagaRun ρ} {i : ℕ} {x : ρ} (h : Forward r i)
    (hi : i < r.saga.steps.length) :
    Progress cs ((r.finishStep i x).afterStep i).1 ((r.finishStep i x).afterStep i).1.executor := by
  have hstep := List.getElem?_eq_getElem hi
  rw [SagaRun.afterStep_finishStep]
  obtain ⟨hret, hfail, hcall⟩ := h.log_append [.returned i x]
  refine Forward.executeFrom ⟨fun k hk => ?_, ?_, hfail, hcall⟩
  · rcases Nat.lt_succ_iff_lt_or_eq.mp hk with hki | rfl
    · exact (h.completed.record (Nat.le_refl i) _ (.returned i x)) k hki
    · exact ⟨_, SagaRun.record_step_self _ (.returned k x) hstep, rfl⟩
  · exact hret.trans List.range_succ.symm

theorem Forward.failStep {r : SagaRun ρ} {i : ℕ} {e : String} (h : Forward r i)
    (hcs : r.compensations = cs) (hi : i < r.saga.steps.length)
    (hcur : r.saga.currentStepIndex = i) :
    Progress cs ((r.failStep i e).handleFailure e).1
      ((r.failStep i e).handleFailure e).1.executor := by
  have hflags := (r.failStep_compensations i e).trans hcs
  obtain ⟨hret, hfail, hcall⟩ := h.log_append [.raised i e]
  have hback : Backward cs (r.failStep i e) i i :=
    ⟨h.completed.record (Nat.le_refl i) _ (.raised i e), hret.trans (List.append_nil _), hfail,
      congrArg (· ++ _) hcall⟩
  rw [SagaRun.failStep_handleFailure hi hcur]
  exact Backward.sweep hflags (hback.congr rfl rfl)

theorem Uncancelled.step {r : SagaRun ρ} {e : SagaEvent ρ} {t : SagaRun ρ × Counters}
    (h : Uncancelled cs r) (hok : NotCancelled r e) (hst : r.step e = some t) :
    Uncancelled cs t.1 := by
  have hflags := (SagaRun.compensations_step hst).trans h.flags
  have hprog := h.progress
  rcases SagaRun.step_cases hst with ⟨rfl, hex, rfl⟩ | ⟨i, x, rfl, hex, rfl⟩ |
    ⟨i, error, rfl, hex, rfl⟩ | ⟨j, o, rfl, hex, rfl⟩ | ⟨rfl, hr, rfl⟩ | ⟨rfl, -, rfl⟩ |
    ⟨c, j, o, rfl, hc, rfl⟩
  · rw [hex] at hprog
    refine ⟨hflags, ?_, Forward.executeFrom hprog⟩
    rw [SagaRun.executeFrom_cancellers]
    exact h.cancellers
  · rw [hex] at hprog
    refine ⟨hflags, ?_, hprog.1.finishStep hprog.2.1⟩
    rw [SagaRun.afterStep_cancellers]
    exact h.cancellers
  · rw [hex] at hprog
    refine ⟨hflags, ?_, hprog.1.failStep h.flags hprog.2.1 hprog.2.2⟩
    rw [SagaRun.handleFailure_cancellers]
    exact h.cancellers
  · rw [hex] at hprog
    obtain ⟨k, hk⟩ := hprog
    refine ⟨hflags, ?_, Backward.sweep
      ((r.endCompensation_compensations j o).trans h.flags) (k := k) ?_⟩
    · rw [SagaRun.setExecutor_cancellers, SagaRun.sweep_cancellers]
      exact h.cancellers
    obtain ⟨hret, hfail, hcall⟩ := hk.log_append [.compensated j o]
    exact ⟨hk.completed.record (Nat.le_refl j) _ (.compensated j o),
      hret.trans (List.append_nil _), hfail,
      (congrArg (· ++ _) (hcall.trans (List.append_nil _))).trans hk.called⟩
  · exact absurd hr hok
  · refine ⟨hflags, fun j hj => ?_, hprog.congr rfl rfl⟩
    rcases List.mem_append.mp hj with hj | hj
    · exact h.cancellers j hj
    · simp at hj
  · exact absurd (List.mem_of_getElem? hc) (h.cancellers j)

theorem uncancelled_of_run {es : List (SagaEvent ρ)} {r : SagaRun ρ}
    (h : (sagaMachine ρ cs).Run NotCancelled es r) : Uncancelled cs r := by
  refine h.invariant (I := Uncancelled cs) ⟨?_, fun j hj => ?_, ?_⟩ fun s e t hs hok hst => ?_
  · exact compensations_of_run (.nil : (sagaMachine ρ cs).Run NotCancelled [] _)
  · simp [sagaMachine, startSaga] at hj
  · exact ⟨fun i hi => absurd hi (Nat.not_lt_zero i), rfl, rfl, rfl⟩
  · obtain ⟨u, hu, rfl⟩ := Option.map_eq_some_iff.mp hst
    exact hs.step hok hu

/-- A saga whose step `k` failed, after its executor ended. -/
theorem backward_of_done {es : List (SagaEvent ρ)} {r : SagaRun ρ} {k : ℕ} {e : String}
    (h : (sagaMachine ρ cs).Run NotCancelled es r) (hdone : r.executor = .done)
    (hk : .raised k e ∈ r.log) : Backward cs r k 0 := by
  have hmem : k ∈ failures r.log := List.mem_filterMap.mpr ⟨_, hk, rfl⟩
  have hprog := (uncancelled_of_run h).progress
  rw [hdone] at hprog
  rcases hprog with hnone | ⟨k', hback⟩
  · simp [hnone] at hmem
  · rw [hback.failed] at hmem
    obtain rfl := List.mem_singleton.mp hmem
    exact hback

/-- The steps below `k` have completed, and those are undone, in reverse order. -/
def UndoesInReverse (cs : List Bool) (k : ℕ) (log : List (SagaCall ρ)) : Prop :=
  (∀ i < k, ∃ x, .returned i x ∈ log) ∧ compensationCalls log = undone cs k

/-- When the execution of step `k` of a saga that is not cancelled fails, the steps below
`k` are compensated in reverse order, and no others, if and only if each of them has a
compensation function. -/
theorem undoesInReverse_iff {es : List (SagaEvent ρ)} {r : SagaRun ρ} {k : ℕ} {e : String}
    (h : (sagaMachine ρ cs).Run NotCancelled es r) (hdone : r.executor = .done)
    (hk : .raised k e ∈ r.log) :
    UndoesInReverse cs k r.log ↔ ∀ i < k, cs[i]? = some true := by
  have hback := backward_of_done h hdone hk
  have hcalls : compensationCalls r.log = (explicitBelow cs k).map fun i => (i, true) := by
    simpa [explicitBelow] using hback.called
  have hreturned : ∀ i < k, ∃ x, .returned i x ∈ r.log := by
    intro i hi
    have hmem : i ∈ returns r.log := by
      rw [hback.returned]
      exact List.mem_range.mpr hi
    obtain ⟨call, hcall, heq⟩ := List.mem_filterMap.mp hmem
    cases call with
    | returned j x =>
      obtain rfl : j = i := by simpa using heq
      exact ⟨x, hcall⟩
    | _ => simp at heq
  unfold UndoesInReverse
  rw [hcalls, explicitBelow_eq_undone_iff]
  exact and_iff_right hreturned

/-- Two steps with compensation functions below the step that fails. -/
theorem undoesInReverse_iff_two : ∃ r : SagaRun ℕ,
    (∃ es, (sagaMachine ℕ [true, true, false]).Run NotCancelled es r) ∧ r.executor = .done ∧
      compensationCalls r.log = [(1, true), (0, true)] ∧
      (UndoesInReverse [true, true, false] 2 r.log ↔
        ∀ i < 2, [true, true, false][i]? = some true) := by
  obtain ⟨r, hrun, hp⟩ := Machine.exists_run (sagaMachine ℕ [true, true, false]) NotCancelled
    [.start, .executeReturned 5, .executeReturned 6, .executeRaised "e",
      .compensationEnded .succeeded, .compensationEnded .refused]
    (fun r => r.executor = .done ∧ .raised 2 "e" ∈ r.log ∧
      compensationCalls r.log = [(1, true), (0, true)]) (by decide)
  obtain ⟨hdone, hraised, hcalls⟩ := of_decide_eq_true hp
  exact ⟨r, ⟨_, hrun⟩, hdone, hcalls, undoesInReverse_iff hrun hdone hraised⟩

/-- A completed step without a compensation function is not undone at all. -/
theorem not_undoesInReverse :
    ¬∀ (cs : List Bool) (es : List (SagaEvent ℕ)) (r : SagaRun ℕ) (k : ℕ) (e : String),
      (sagaMachine ℕ cs).Run NotCancelled es r → r.executor = .done → .raised k e ∈ r.log →
        UndoesInReverse cs k r.log := by
  intro hall
  obtain ⟨r, hrun, hp⟩ := Machine.exists_run (sagaMachine ℕ [false, true]) NotCancelled
    [.start, .executeReturned 5, .executeRaised "e"]
    (fun r => r.executor = .done ∧ .raised 1 "e" ∈ r.log ∧ compensationCalls r.log = [])
    (by decide)
  obtain ⟨hdone, hraised, hcalls⟩ := of_decide_eq_true hp
  have hundone := (hall _ _ r 1 "e" hrun hdone hraised).2
  rw [hcalls] at hundone
  exact absurd hundone (by decide)

end SagaManager

end MultiAgent
