import MultiAgent.Reliability.SagaPosition

/-!
# What a cancelled saga still does

`_execute_saga` never looks at the status of its saga between two steps. A saga that
was cancelled therefore goes on to its next step, and becomes `COMPLETED` after the
last one. `honoursCancel_of_run` says that a cancel call is honoured in every run in
which the executor begins, and goes on after a step that returned, only while the saga
is `RUNNING`.
-/

namespace MultiAgent

namespace SagaManager

variable {ρ : Type*}

/-- No tool is called after a cancel call was accepted. -/
def Silent (log : List (SagaCall ρ)) : Prop :=
  ∀ pre post i, log = pre ++ .cancelAccepted :: post → .execute i ∉ post

theorem silent_of_not_mem {log : List (SagaCall ρ)} (h : .cancelAccepted ∉ log) : Silent log := by
  intro pre post i hlog
  exact absurd (by simp [hlog]) h

theorem Silent.append {log : List (SagaCall ρ)} {call : SagaCall ρ} (h : Silent log)
    (hcall : ∀ i, call ≠ .execute i) : Silent (log ++ [call]) := by
  intro pre post i hlog hmem
  rcases List.eq_nil_or_concat' post with rfl | ⟨post', last, rfl⟩
  · simp at hmem
  · have hsplit : log ++ [call] = (pre ++ .cancelAccepted :: post') ++ [last] := by
      simpa using hlog
    obtain ⟨hpre, hlast⟩ := List.append_inj' hsplit rfl
    rcases List.mem_append.mp hmem with hmem | hmem
    · exact h pre post' i hpre hmem
    · obtain rfl := List.singleton_inj.mp hlast
      exact hcall i (List.mem_singleton.mp hmem).symm

/-- The loop of `_compensate_saga` executes nothing. -/
theorem Silent.sweep {r : SagaRun ρ} (h : Silent r.log) (n : ℕ) : Silent (r.sweep n).1.log := by
  rcases r.sweep_cases n with ⟨-, hs⟩ | ⟨-, hs⟩ | ⟨j, step, -, -, -, -, hs⟩ <;> rw [hs]
  · exact h
  · exact h
  · exact h.append fun _ => by simp

/-- A cancel call that returned `True`, or will once its compensations end, is honoured :
no tool is called after it was accepted, the saga is not `COMPLETED`, and at the end no
completed step with a compensation function is left. -/
def HonoursCancel (r : SagaRun ρ) : Prop :=
  (∃ c ∈ r.cancellers, c.accepted = true) →
    .cancelAccepted ∈ r.log ∧ Silent r.log ∧ r.saga.status ≠ .completed ∧
      (r.AllDone → ∀ step ∈ r.saga.steps, step.compensation = true → step.status ≠ .completed)

/-- The executor begins, or goes on after a step that returned, only while the saga is
`RUNNING`; a saga without steps has nothing to execute. -/
def StopsWhenCancelled (r : SagaRun ρ) (e : SagaEvent ρ) : Prop :=
  match e with
  | .start => r.saga.status = .running ∨ r.saga.steps = []
  | .executeReturned _ => r.saga.status = .running
  | _ => True

instance (r : SagaRun ρ) (e : SagaEvent ρ) : Decidable (StopsWhenCancelled r e) :=
  match e with
  | .start => inferInstanceAs (Decidable (_ ∨ r.saga.steps = []))
  | .executeReturned _ => inferInstanceAs (Decidable (r.saga.status = .running))
  | .executeRaised _ | .compensationEnded _ | .cancel | .cancelStep _ _ =>
    inferInstanceAs (Decidable True)

/-- A saga that completed was not cancelled, and nothing is executed after a cancel call. -/
structure Honoured (r : SagaRun ρ) : Prop where
  silent : Silent r.log
  completed : .sagaCompleted ∈ r.log ∨ r.saga.status = .completed →
    ∀ c ∈ r.cancellers, c.accepted = false

/-- The loop of the executor, while the saga is undisturbed or has no steps. -/
theorem Honoured.executeFrom {r : SagaRun ρ} {i : ℕ} (hlog : Silent r.log)
    (hok : Undisturbed r ∨ r.saga.steps = [] ∧ ∀ c ∈ r.cancellers, c.accepted = false) :
    Honoured (r.executeFrom i).1 := by
  unfold SagaRun.executeFrom
  split_ifs with hi
  · have hund : Undisturbed r := hok.resolve_right fun h => by simp [h.1] at hi
    refine ⟨silent_of_not_mem ?_, fun _ => hund.cancellers⟩
    simpa [SagaRun.startStep] using hund.cancelAccepted
  · exact ⟨hlog.append fun _ => by simp, fun _ => hok.elim (·.cancellers) (·.2)⟩

/-- A sweep does not complete a saga. -/
theorem Honoured.sweep {r : SagaRun ρ} (h : Honoured r) (n : ℕ) : Honoured (r.sweep n).1 := by
  have hf := sweepFrame r n
  refine ⟨h.silent.sweep n, fun hcomp => ?_⟩
  rw [hf.cancellers]
  refine h.completed (hcomp.imp hf.sagaCompleted.mp fun hs => ?_)
  rcases hf.status with hstatus | hstatus
  · exact hstatus.symm.trans hs
  · simp [hstatus] at hs

theorem Honoured.setExecutor {s : SagaRun ρ × Counters × SweepStop} (h : Honoured s.1) :
    Honoured (SagaRun.setExecutor s).1 := by
  obtain ⟨r, c, stop⟩ := s
  cases stop <;> exact ⟨h.silent, h.completed⟩

/-- The cancel calls may change while the saga has not completed. -/
theorem Honoured.setCancellers {r : SagaRun ρ} (h : Honoured r) {cs : List Canceller}
    (hcs : (∀ c ∈ r.cancellers, c.accepted = false) → ∀ c ∈ cs, c.accepted = false) :
    Honoured { r with cancellers := cs } :=
  ⟨h.silent, fun hcomp => hcs (h.completed hcomp)⟩

theorem Honoured.endCompensation {r : SagaRun ρ} (h : Honoured r) (j : ℕ)
    (o : CompensationOutcome) : Honoured (r.endCompensation j o) := by
  refine ⟨h.silent.append fun _ => by simp,
    fun hcomp => h.completed (hcomp.imp_left fun hlog => ?_)⟩
  simpa [SagaRun.endCompensation] using hlog

theorem Honoured.step {r : SagaRun ρ} {e : SagaEvent ρ} {t : SagaRun ρ × Counters}
    (h : Honoured r) (hset : Settled r) (hok : StopsWhenCancelled r e) (hst : r.step e = some t) :
    Honoured t.1 := by
  have hpos := hset.position
  rcases SagaRun.step_cases hst with ⟨rfl, hex, rfl⟩ | ⟨i, x, rfl, hex, rfl⟩ |
    ⟨i, error, rfl, hex, rfl⟩ | ⟨j, o, rfl, hex, rfl⟩ | ⟨rfl, hr, rfl⟩ | ⟨rfl, hr, rfl⟩ |
    ⟨c, j, o, rfl, hc, rfl⟩
  · refine .executeFrom h.silent (hok.imp (fun hr => (hset.running hr).1) fun hnil => ?_)
    refine ⟨hnil, fun c hc => ?_⟩
    by_contra hacc
    exact (hset.accepted c hc (by simpa using hacc)).2 hnil
  · rw [hex] at hpos
    rw [SagaRun.afterStep_finishStep]
    refine .executeFrom (h.silent.append fun _ => by simp) (Or.inl ?_)
    exact (hset.running hok).1.congr (.returned i x) rfl rfl (by simp)
  · rw [hex] at hpos
    rw [SagaRun.failStep_handleFailure hpos.1 hpos.2]
    refine Honoured.setExecutor (Honoured.sweep ⟨h.silent.append fun _ => by simp, ?_⟩ i)
    rintro (hlog | hstatus)
    · refine h.completed (Or.inl ?_)
      simpa [SagaRun.beginCompensation, SagaRun.markFailed, SagaRun.failStep] using hlog
    · simp [SagaRun.beginCompensation] at hstatus
  · exact ((h.endCompensation j o).sweep j).setExecutor
  · have hbegin : Silent r.beginCancel.log := h.silent.append fun _ => by simp
    have hf := sweepFrame r.beginCancel (r.saga.currentStepIndex + 1)
    rw [SagaRun.acceptCancel_eq]
    refine ⟨hbegin.sweep _, ?_⟩
    rintro (hlog | hstatus)
    · have hbefore : .sagaCompleted ∈ r.log := by
        simpa [SagaRun.beginCancel, SagaRun.beginCompensation, SagaRun.logCancel] using
          hf.sagaCompleted.mp hlog
      exact absurd (hset.ended hbefore) (hset.ne_done hr)
    · rcases hf.status with hs | hs
      · exact absurd (hs.symm.trans hstatus)
          (by simp [SagaRun.beginCancel, SagaRun.beginCompensation])
      · exact absurd (hs.symm.trans hstatus) (by simp)
  · refine h.setCancellers fun hcs c hc => ?_
    rcases List.mem_append.mp hc with hc | hc
    · exact hcs c hc
    · rw [List.mem_singleton.mp hc]
      rfl
  · have hacc : ¬∀ k ∈ r.cancellers, k.accepted = false := fun hcs => by
      have hfalse := hcs _ (List.mem_of_getElem? hc)
      simp [Canceller.accepted] at hfalse
    rw [SagaRun.cancelSweep_eq]
    refine ((h.endCompensation j o).sweep j).setCancellers fun hcs => absurd ?_ hacc
    rw [(sweepFrame _ j).cancellers] at hcs
    exact hcs

/-- In every run in which the executor begins and goes on only while the saga is
`RUNNING`, a cancel call is honoured. -/
theorem honoursCancel_of_run {compensations : List Bool} {es : List (SagaEvent ρ)}
    {r : SagaRun ρ} (h : (sagaMachine ρ compensations).Run StopsWhenCancelled es r) :
    HonoursCancel r := by
  have hset := settled_of_reachable h.reachable
  have hhon : Inv r ∧ Settled r ∧ Honoured r := by
    refine h.invariant (I := fun r => Inv r ∧ Settled r ∧ Honoured r)
      ⟨.start compensations, .start compensations, fun pre post i hlog => ?_, fun _ c hc => ?_⟩
      fun s e t hs hok hst => ?_
    · simp [sagaMachine, startSaga] at hlog
    · simp [sagaMachine, startSaga] at hc
    · obtain ⟨u, hu, rfl⟩ := Option.map_eq_some_iff.mp hst
      exact ⟨hs.1.step hu, hs.2.1.step hs.1 hu, hs.2.2.step hs.2.1 hok hu⟩
  rintro ⟨c, hc, hacc⟩
  have hnot : ¬(.sagaCompleted ∈ r.log ∨ r.saga.status = .completed) := fun hcomp => by
    simp [hhon.2.2.completed hcomp c hc] at hacc
  refine ⟨(hset.accepted c hc hacc).1, hhon.2.2.silent, fun hs => hnot (Or.inr hs),
    fun hdone step hstep hfun hcomp => ?_⟩
  have hpos := hset.position
  rw [hdone.1] at hpos
  have hclear := hpos.resolve_left fun hlog => hnot (Or.inl hlog)
  obtain ⟨i, hi⟩ := List.mem_iff_getElem?.mp hstep
  simp [hclear i step (Nat.zero_le i) hi hcomp] at hfun

/-- A saga cancelled while its second step executes, which then fails. -/
theorem honoursCancel_of_run_two : ∃ r : SagaRun ℕ,
    (∃ es, (sagaMachine ℕ [true, true]).Run StopsWhenCancelled es r) ∧
      .returned true ∈ r.cancellers ∧ r.executor = .done ∧ HonoursCancel r := by
  obtain ⟨r, hrun, hp⟩ := Machine.exists_run (sagaMachine ℕ [true, true]) StopsWhenCancelled
    [.start, .executeReturned 7, .cancel, .executeRaised "e", .cancelStep 0 .succeeded]
    (fun r => .returned true ∈ r.cancellers ∧ r.executor = .done) (by decide)
  obtain ⟨hret, hdone⟩ := of_decide_eq_true hp
  exact ⟨r, ⟨_, hrun⟩, hret, hdone, honoursCancel_of_run hrun⟩

/-- A saga cancelled while its first step executes goes on to the second step, completes
it, and is `COMPLETED` although the cancel call returned `True`. -/
theorem not_honoursCancel :
    ¬∀ (compensations : List Bool) (r : SagaRun ℕ),
      (sagaMachine ℕ compensations).Reachable r → HonoursCancel r := by
  intro hall
  obtain ⟨r, hrun, hp⟩ := Machine.exists_run (sagaMachine ℕ [true, true]) (fun _ _ => True)
    [.start, .cancel, .executeReturned 7, .executeReturned 8]
    (fun r => .returned true ∈ r.cancellers ∧ r.saga.status = .completed) (by decide)
  obtain ⟨hret, hstatus⟩ := of_decide_eq_true hp
  obtain ⟨-, -, hne, -⟩ := hall _ r hrun.reachable ⟨_, hret, rfl⟩
  exact hne hstatus

end SagaManager

end MultiAgent
