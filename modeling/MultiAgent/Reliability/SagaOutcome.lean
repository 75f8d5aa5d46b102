import MultiAgent.Reliability.SagaPosition

/-!
# The final status of a saga

`_compensate_saga` sets the status of the saga to `COMPENSATED` when its loop ends,
whatever became of the compensations, and whatever the executor did in between. The
status is never `FAILED` at a suspension. `reportsOutcome_of_run` says that the final
status reports the compensations in every run in which they all succeed, and in which
the loop of a cancel call does not end after the saga completed with something left
to undo.
-/

namespace MultiAgent

namespace SagaManager

variable {ρ : Type*}

/-- The final status of a saga reports its compensations : `COMPENSATED` if every
completed step that has a compensation function is compensated, `FAILED` if the
compensation of some step refused or raised. -/
def ReportsOutcome (r : SagaRun ρ) : Prop :=
  (r.saga.status = .compensated →
    ∀ i x step, .returned i x ∈ r.log → r.saga.steps[i]? = some step →
      step.compensation = true → step.status = .compensated) ∧
    ((∃ i o, .compensated i o ∈ r.log ∧ o ≠ .succeeded) → r.saga.status = .failed)

/-- No completed step has a compensation function. -/
def NoneLeft (r : SagaRun ρ) : Prop :=
  ∀ step ∈ r.saga.steps, step.status = .completed → step.compensation = false

/-- Compensations succeed, and the loop of a cancel call does not end after the saga
completed with something left to undo. -/
def Compensates (r : SagaRun ρ) (e : SagaEvent ρ) : Prop :=
  match e with
  | .compensationEnded o => o = .succeeded
  | .cancelStep c o => o = .succeeded ∧
    (r.saga.status = .completed → r.lastCompensation c = true → NoneLeft r)
  | _ => True

instance (r : SagaRun ρ) : Decidable (NoneLeft r) :=
  inferInstanceAs (Decidable (∀ step ∈ r.saga.steps, _ → _))

instance (r : SagaRun ρ) (e : SagaEvent ρ) : Decidable (Compensates r e) :=
  match e with
  | .compensationEnded o => inferInstanceAs (Decidable (o = .succeeded))
  | .cancelStep _ o => inferInstanceAs (Decidable (o = .succeeded ∧ (_ → _ → NoneLeft r)))
  | .start | .executeReturned _ | .executeRaised _ | .cancel => inferInstanceAs (Decidable True)

theorem clear_of_noneLeft {r : SagaRun ρ} (h : NoneLeft r) : Clear r 0 :=
  fun _ step _ hstep hcomp => h step (List.mem_of_getElem? hstep) hcomp

/-- Every failed step raised, and every compensation that ended succeeded. -/
structure Accounted (r : SagaRun ρ) : Prop where
  raised : ∀ i step, r.saga.steps[i]? = some step → step.status = .failed →
    ∃ e, .raised i e ∈ r.log
  succeeded : ∀ i o, .compensated i o ∈ r.log → o = .succeeded

theorem Accounted.congr {r t : SagaRun ρ} (h : Accounted r)
    (hsteps : t.saga.steps = r.saga.steps) (hlog : t.log = r.log) : Accounted t :=
  ⟨fun i step hi hfailed => hlog ▸ h.raised i step (hsteps ▸ hi) hfailed,
    fun i o hmem => h.succeeded i o (hlog ▸ hmem)⟩

/-- A call that changes no step. -/
theorem Accounted.append {r t : SagaRun ρ} (h : Accounted r) (call : SagaCall ρ)
    (hsteps : t.saga.steps = r.saga.steps) (hlog : t.log = r.log ++ [call])
    (hcall : ∀ k o, call ≠ .compensated k o) : Accounted t := by
  refine ⟨fun i step hi hfailed => ?_, fun k o hmem => ?_⟩
  · obtain ⟨e, he⟩ := h.raised i step (hsteps ▸ hi) hfailed
    exact ⟨e, hlog ▸ List.mem_append_left _ he⟩
  · rw [hlog] at hmem
    rcases List.mem_append.mp hmem with hmem | hmem
    · exact h.succeeded k o hmem
    · exact absurd (List.mem_singleton.mp hmem).symm (hcall k o)

/-- A change that fails a step only with its error, and a compensation that succeeds. -/
theorem Accounted.record {r : SagaRun ρ} {i : ℕ} {f : SagaStep ρ → SagaStep ρ}
    {call : SagaCall ρ} (h : Accounted r)
    (hf : ∀ step, (f step).status = .failed → ∃ e, call = .raised i e)
    (hcall : ∀ k o, call = .compensated k o → o = .succeeded) :
    Accounted (r.record i f call) := by
  refine ⟨fun k step hstep hfailed => ?_, fun k o hmem => ?_⟩
  · rcases SagaRun.record_step_cases hstep with ⟨-, hold⟩ | ⟨rfl, old, -, rfl⟩
    · obtain ⟨e, he⟩ := h.raised k step hold hfailed
      exact ⟨e, List.mem_append_left _ he⟩
    · obtain ⟨e, rfl⟩ := hf old hfailed
      exact ⟨e, by simp⟩
  · rcases List.mem_append.mp hmem with hmem | hmem
    · exact h.succeeded k o hmem
    · exact hcall k o (List.mem_singleton.mp hmem).symm

theorem Accounted.endCompensation {r : SagaRun ρ} (h : Accounted r) (j : ℕ) :
    Accounted (r.endCompensation j .succeeded) :=
  h.record (fun _ => by simp) fun _ _ hcall => (SagaCall.compensated.inj hcall).2.symm

theorem Accounted.sweep {r : SagaRun ρ} (h : Accounted r) (n : ℕ) :
    Accounted (r.sweep n).1 := by
  rcases r.sweep_cases n with ⟨-, hs⟩ | ⟨-, hs⟩ | ⟨j, step, -, -, -, -, hs⟩ <;> rw [hs]
  · exact h
  · exact h.congr rfl rfl
  · exact h.record (fun _ => by simp) fun _ _ => by simp

theorem Accounted.setExecutor {s : SagaRun ρ × Counters × SweepStop} (h : Accounted s.1) :
    Accounted (SagaRun.setExecutor s).1 := by
  obtain ⟨r, c, stop⟩ := s
  cases stop <;> exact h.congr rfl rfl

theorem Accounted.executeFrom {r : SagaRun ρ} (h : Accounted r) (i : ℕ) :
    Accounted (r.executeFrom i).1 := by
  unfold SagaRun.executeFrom
  split_ifs
  · refine Accounted.congr (Accounted.record (h.congr rfl rfl) (fun _ => by simp)
      fun _ _ => by simp) rfl rfl
  · exact h.append .sagaCompleted rfl rfl fun _ _ => by simp

theorem Accounted.step {r : SagaRun ρ} {e : SagaEvent ρ} {t : SagaRun ρ × Counters}
    (h : Accounted r) (hset : Settled r) (hok : Compensates r e) (hst : r.step e = some t) :
    Accounted t.1 := by
  have hpos := hset.position
  rcases SagaRun.step_cases hst with ⟨rfl, hex, rfl⟩ | ⟨i, x, rfl, hex, rfl⟩ |
    ⟨i, error, rfl, hex, rfl⟩ | ⟨j, o, rfl, hex, rfl⟩ | ⟨rfl, hr, rfl⟩ | ⟨rfl, hr, rfl⟩ |
    ⟨c, j, o, rfl, hc, rfl⟩
  · exact h.executeFrom 0
  · rw [hex] at hpos
    rw [SagaRun.afterStep_finishStep]
    refine Accounted.executeFrom ?_ (i + 1)
    exact h.record (fun _ => by simp) fun _ _ => by simp
  · rw [hex] at hpos
    rw [SagaRun.failStep_handleFailure hpos.1 hpos.2]
    have hfail : Accounted (r.failStep i error) :=
      h.record (fun _ _ => ⟨error, rfl⟩) fun _ _ => by simp
    have hbegin : Accounted
        (((r.failStep i error).markFailed error).beginCompensation (some error)) :=
      hfail.congr rfl rfl
    exact (hbegin.sweep i).setExecutor
  · obtain rfl : o = .succeeded := hok
    exact ((h.endCompensation j).sweep j).setExecutor
  · rw [SagaRun.acceptCancel_eq]
    have hbegin : Accounted r.beginCancel :=
      h.append .cancelAccepted rfl rfl fun _ _ => by simp
    exact (hbegin.sweep _).congr rfl rfl
  · exact h.congr rfl rfl
  · obtain rfl : o = .succeeded := hok.1
    rw [SagaRun.cancelSweep_eq]
    exact ((h.endCompensation j).sweep j).congr rfl rfl

/-- A saga that completed is still `COMPLETED`, or nothing is left to undo. -/
def Ended (r : SagaRun ρ) : Prop :=
  .sagaCompleted ∈ r.log → r.saga.status = .completed ∨ Clear r 0

theorem ended_executeFrom {r : SagaRun ρ} (h : .sagaCompleted ∉ r.log) (i : ℕ) :
    Ended (r.executeFrom i).1 := by
  unfold SagaRun.executeFrom
  split_ifs
  · intro hlog
    exact absurd (by simpa [SagaRun.startStep] using hlog) h
  · exact fun _ => Or.inl rfl

theorem ended_setExecutor {r : SagaRun ρ} (h : .sagaCompleted ∉ r.log) (n : ℕ) :
    Ended (SagaRun.setExecutor (r.sweep n)).1 := by
  have hnot : .sagaCompleted ∉ (r.sweep n).1.log := mt (sweepFrame r n).sagaCompleted.mp h
  generalize r.sweep n = s at hnot ⊢
  obtain ⟨t, c, stop⟩ := s
  cases stop <;> exact fun hlog => absurd hlog hnot

/-- The loop of a cancel call ends with nothing left to undo, or leaves the status. -/
theorem Ended.cancelSweep {r : SagaRun ρ} {c j : ℕ} {o : CompensationOutcome} (h : Ended r)
    (hok : Compensates r (.cancelStep c o)) (hc : r.cancellers[c]? = some (.compensating j)) :
    Ended ((r.endCompensation j o).cancelSweep c j).1 := by
  have hf := sweepFrame (r.endCompensation j o) j
  rw [SagaRun.cancelSweep_eq]
  intro hlog
  have hbefore : .sagaCompleted ∈ r.log := by
    simpa [SagaRun.endCompensation] using hf.sagaCompleted.mp hlog
  rcases h hbefore with hstatus | hclear
  · rcases (r.endCompensation j o).sweep_cases j with ⟨-, hs⟩ | ⟨hnext, hs⟩ |
      ⟨k, step, -, -, -, -, hs⟩
    · exact Or.inl (by rw [hs]; exact hstatus)
    · -- the loop ends, so the guard says that nothing is left
      have hlast : r.lastCompensation c = true := by
        have hends := SagaRun.loopEnds_iff.mpr hnext
        rw [SagaRun.endCompensation_loopEnds] at hends
        simp [SagaRun.lastCompensation, hc, hends]
      have hclear := clear_of_noneLeft (hok.2 hstatus hlast)
      exact Or.inr ((hclear.endCompensation.sweep j).congr rfl)
    · exact Or.inl (by rw [hs]; exact hstatus)
  · exact Or.inr ((hclear.endCompensation.sweep j).congr rfl)

theorem Ended.step {r : SagaRun ρ} {e : SagaEvent ρ} {t : SagaRun ρ × Counters}
    (h : Ended r) (hset : Settled r) (hok : Compensates r e) (hst : r.step e = some t) :
    Ended t.1 := by
  have hpos := hset.position
  have hnot : r.executor ≠ .done → .sagaCompleted ∉ r.log := mt hset.ended
  rcases SagaRun.step_cases hst with ⟨rfl, hex, rfl⟩ | ⟨i, x, rfl, hex, rfl⟩ |
    ⟨i, error, rfl, hex, rfl⟩ | ⟨j, o, rfl, hex, rfl⟩ | ⟨rfl, hr, rfl⟩ | ⟨rfl, hr, rfl⟩ |
    ⟨c, j, o, rfl, hc, rfl⟩
  · exact ended_executeFrom (hnot (by simp [hex])) 0
  · rw [hex] at hpos
    rw [SagaRun.afterStep_finishStep]
    refine ended_executeFrom ?_ (i + 1)
    simpa [SagaRun.finishStep] using hnot (by simp [hex])
  · rw [hex] at hpos
    rw [SagaRun.failStep_handleFailure hpos.1 hpos.2]
    refine ended_setExecutor ?_ i
    simpa [SagaRun.beginCompensation, SagaRun.markFailed, SagaRun.failStep] using
      hnot (by simp [hex])
  · refine ended_setExecutor ?_ j
    simpa [SagaRun.endCompensation] using hnot (by simp [hex])
  · intro hlog
    rw [SagaRun.acceptCancel_eq] at hlog
    have hbefore := (sweepFrame r.beginCancel (r.saga.currentStepIndex + 1)).sagaCompleted.mp hlog
    refine absurd ?_ (hnot (hset.ne_done hr))
    simpa [SagaRun.beginCancel, SagaRun.beginCompensation, SagaRun.logCancel] using hbefore
  · exact h
  · exact h.cancelSweep hok hc

/-- A step that returned, at the end of a saga whose compensations all succeeded. -/
theorem compensated_of_returned {r : SagaRun ρ} (hinv : Inv r) (hset : Settled r)
    (hacc : Accounted r) (hdone : r.AllDone) (hclear : Clear r 0) {i : ℕ} {x : ρ}
    {step : SagaStep ρ} (hret : .returned i x ∈ r.log) (hi : r.saga.steps[i]? = some step)
    (hfun : step.compensation = true) : step.status = .compensated := by
  have hmem : .returned i x ∈ history i r.log :=
    mem_history.mpr ⟨hret, by simp [SagaCall.concerns]⟩
  have htraced := hinv.trace.traced hi
  cases hstatus : step.status with
  | compensated => rfl
  | completed => simp [hclear i step (Nat.zero_le i) hi hstatus] at hfun
  | compensating =>
    have hwait := hset.attended i step hi hstatus
    rw [hdone.1] at hwait
    exact absurd (hwait.resolve_left (by simp)) (hdone.2 i)
  | failed =>
    obtain ⟨e, he⟩ := hacc.raised i step hi hstatus
    have hraised : .raised i e ∈ history i r.log :=
      mem_history.mpr ⟨he, by simp [SagaCall.concerns]⟩
    rw [hstatus] at htraced
    generalize history i r.log = calls at htraced hmem hraised
    cases htraced <;> simp at hmem hraised
  | pending =>
    rw [hstatus] at htraced
    generalize history i r.log = calls at htraced hmem
    cases htraced
    simp at hmem
  | executing =>
    rw [hstatus] at htraced
    generalize history i r.log = calls at htraced hmem
    cases htraced
    simp at hmem

/-- In every run whose compensations succeed, and whose cancel calls do not end after the
saga completed with something left to undo, the final status reports the compensations. -/
theorem reportsOutcome_of_run {compensations : List Bool} {es : List (SagaEvent ρ)}
    {r : SagaRun ρ} (h : (sagaMachine ρ compensations).Run Compensates es r)
    (hdone : r.AllDone) : ReportsOutcome r := by
  have hall : Inv r ∧ Settled r ∧ Accounted r ∧ Ended r := by
    refine h.invariant (I := fun r => Inv r ∧ Settled r ∧ Accounted r ∧ Ended r)
      ⟨.start compensations, .start compensations, ⟨fun i step hi hfailed => ?_,
        fun i o hmem => ?_⟩, fun hlog => ?_⟩ fun s e t hs hok hst => ?_
    · rw [sagaMachine, startSaga, List.getElem?_map] at hi
      obtain ⟨b, -, rfl⟩ := Option.map_eq_some_iff.mp hi
      simp at hfailed
    · simp [sagaMachine, startSaga] at hmem
    · simp [sagaMachine, startSaga] at hlog
    · obtain ⟨u, hu, rfl⟩ := Option.map_eq_some_iff.mp hst
      obtain ⟨hinv, hset, hacc, hended⟩ := hs
      exact ⟨hinv.step hu, hset.step hinv hu, hacc.step hset hok hu, hended.step hset hok hu⟩
  obtain ⟨hinv, hset, hacc, hended⟩ := hall
  constructor
  · intro hstatus i x step hret hi hfun
    have hclear : Clear r 0 := by
      have hpos := hset.position
      rw [hdone.1] at hpos
      rcases hpos with hlog | hclear
      · exact (hended hlog).resolve_left (by simp [hstatus])
      · exact hclear
    exact compensated_of_returned hinv hset hacc hdone hclear hret hi hfun
  · rintro ⟨i, o, hmem, hne⟩
    exact absurd (hacc.succeeded i o hmem) hne

end SagaManager

end MultiAgent
