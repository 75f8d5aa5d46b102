import MultiAgent.Adapters.SagaParallel
import MultiAgent.Reliability.SagaOutcome

/-!
# The final status of a saga of the adapter library

`_execute_compensation` ignores what a compensation returns and logs what it raises, and
`execute_saga` sets the status to `COMPENSATED` afterwards in any case. The final status
reports the compensations in every run in which each of them returns `True` and no later
step is left behind when the executor meets an error. `reportsOutcome_of_runs` says this
beside what holds of the saga manager of the reliability library.
-/

namespace MultiAgent

namespace SagaPattern

variable {ρ : Type*}

/-- The final status of a saga reports its compensations : `COMPENSATED` if every step
that returned and has a compensation function is compensated, `FAILED` if some
compensation returned `False` or raised. -/
def ReportsOutcome (r : SagaRun ρ) : Prop :=
  (r.saga.status = .compensated → ∀ step ∈ r.saga.steps, step.hasReturned = true →
    step.compensateFunc = true → step.status = .compensated) ∧
    ((∃ i o, .compensated i o ∈ r.log ∧ o ≠ .returned true) → r.saga.status = .failed)

/-- Compensations return `True`, and no later step is left behind at an error. -/
def Compensates (r : SagaRun ρ) (e : SagaEvent ρ) : Prop :=
  FailsSettled r e ∧
    match e with
    | .compensationEnded o => o = .returned true
    | _ => True

instance (r : SagaRun ρ) (e : SagaEvent ρ) : Decidable (Compensates r e) :=
  match e with
  | .compensationEnded o =>
    inferInstanceAs (Decidable (FailsSettled r (.compensationEnded o) ∧ o = .returned true))
  | .start => inferInstanceAs (Decidable (FailsSettled r .start ∧ True))
  | .task i e => inferInstanceAs (Decidable (FailsSettled r (.task i e) ∧ True))
  | .resume => inferInstanceAs (Decidable (FailsSettled r .resume ∧ True))

/-- Every compensation that ended returned `True`. -/
def AllSucceeded (r : SagaRun ρ) : Prop :=
  ∀ i o, .compensated i o ∈ r.log → o = .returned true

theorem AllSucceeded.compensateFrom {l : List ℕ} :
    ∀ {r : SagaRun ρ}, AllSucceeded r → AllSucceeded (r.compensateFrom l) := by
  induction l with
  | nil => exact fun h => h
  | cons j l ih =>
    intro r h
    unfold SagaRun.compensateFrom
    split_ifs
    · intro i o hmem
      rcases List.mem_append.mp hmem with hmem | hmem
      · exact h i o hmem
      · simp at hmem
    · exact ih h

theorem AllSucceeded.executeCompensation {r : SagaRun ρ} (h : AllSucceeded r) :
    AllSucceeded r.executeCompensation := by
  have hstatus : AllSucceeded (r.setStatus .compensating) := h
  unfold SagaRun.executeCompensation
  dsimp only
  split_ifs
  · exact hstatus.compensateFrom
  · exact hstatus.compensateFrom

theorem AllSucceeded.executeFrom {r : SagaRun ρ} (h : AllSucceeded r) (i : ℕ) :
    AllSucceeded (r.executeFrom i) := by
  unfold SagaRun.executeFrom
  split_ifs
  · exact h
  · exact h

theorem AllSucceeded.finishSequential {r : SagaRun ρ} (h : AllSucceeded r) (k : ℕ) :
    AllSucceeded (r.finishSequential k) := by
  unfold SagaRun.finishSequential
  split
  · rename_i x _
    have hmod : AllSucceeded (r.modifyStep k fun step => step.complete x) := h
    exact hmod.executeFrom (k + 1)
  · rename_i error _
    have hmod : AllSucceeded (r.modifyStep k fun step => step.fail error) := h
    exact hmod.executeCompensation
  · exact h

theorem AllSucceeded.awaitFrom {r : SagaRun ρ} (h : AllSucceeded r) (k : ℕ) :
    AllSucceeded (r.awaitFrom k) := by
  unfold SagaRun.awaitFrom
  generalize awaitTasks k (r.saga.steps.drop k) = w
  obtain ⟨rest, wait⟩ := w
  have hsteps : AllSucceeded (r.setSteps (r.saga.steps.take k ++ rest)) := h
  cases wait with
  | succeeded => exact h
  | failed => exact hsteps.executeCompensation
  | pending k => exact h

theorem AllSucceeded.step {r t : SagaRun ρ} {e : SagaEvent ρ} (h : AllSucceeded r)
    (hok : Compensates r e) (hst : r.step e = some t) : AllSucceeded t := by
  rcases SagaRun.step_cases hst with ⟨-, -, rfl⟩ | ⟨i, e', old, new, -, -, -, rfl⟩ |
    ⟨k, -, -, -, rfl⟩ | ⟨i, rest, o, rfl, -, rfl⟩
  · unfold SagaRun.start
    dsimp only
    split_ifs
    · refine AllSucceeded.awaitFrom ?_ 0
      exact h
    · refine AllSucceeded.executeFrom ?_ 0
      exact h
  · exact h
  · split_ifs
    · exact h.awaitFrom k
    · exact h.finishSequential k
  · obtain rfl : o = .returned true := hok.2
    refine AllSucceeded.compensateFrom fun k o hmem => ?_
    rcases List.mem_append.mp hmem with hmem | hmem
    · exact h k o hmem
    · exact (SagaCall.compensated.inj (List.mem_singleton.mp hmem)).2

/-- In every run whose compensations return `True`, and which leaves no later step behind
at an error, the final status reports the compensations. -/
theorem reports_of_run {parallel : Bool} {strategy : String} {steps : List (Bool × ℤ)}
    {es : List (SagaEvent ρ)} {r : SagaRun ρ}
    (h : (sagaMachine ρ parallel strategy steps).Run Compensates es r)
    (hdone : ∃ success, r.executor = .returned success) : ReportsOutcome r := by
  have hall : AllSucceeded r := by
    refine h.invariant (I := AllSucceeded) (fun i o hmem => ?_)
      fun s e t hs hok hst => hs.step hok hst
    simp [sagaMachine, createSaga] at hmem
  have hphase := phase_of_run (h.mono fun _ _ hok => hok.1)
  refine ⟨fun hstatus step hstep hret hf => ?_, fun ⟨i, o, hmem, hne⟩ => ?_⟩
  · obtain ⟨success, hex⟩ := hdone
    rw [hex] at hphase
    cases success with
    | true => exact absurd (hphase.symm.trans hstatus) (by simp)
    | false =>
      obtain ⟨i, hi⟩ := List.mem_iff_getElem?.mp hstep
      rcases (hphase i step hi).2 hret hf with hmem | ⟨-, hcur | hcomp | ⟨error, herr⟩⟩
      · simp at hmem
      · simp at hcur
      · exact hcomp
      · exact absurd (hall i _ herr) (by simp)
  · exact absurd (hall i o hmem) hne

end SagaPattern

/-! ## Both saga managers -/

section Both

variable {ρ : Type*}

/-- In both saga managers, the final status reports the compensations in every run whose
compensations succeed and whose tasks leave nothing behind. -/
theorem reportsOutcome_of_runs :
    (∀ (compensations : List Bool) (es : List (SagaManager.SagaEvent ρ))
      (r : SagaManager.SagaRun ρ),
      (SagaManager.sagaMachine ρ compensations).Run SagaManager.Compensates es r →
        r.AllDone → SagaManager.ReportsOutcome r) ∧
    ∀ (parallel : Bool) (strategy : String) (steps : List (Bool × ℤ))
      (es : List (SagaPattern.SagaEvent ρ)) (r : SagaPattern.SagaRun ρ),
      (SagaPattern.sagaMachine ρ parallel strategy steps).Run SagaPattern.Compensates es r →
        (∃ success, r.executor = .returned success) → SagaPattern.ReportsOutcome r :=
  ⟨fun _ _ _ h hdone => SagaManager.reportsOutcome_of_run h hdone,
    fun _ _ _ _ _ h hdone => SagaPattern.reports_of_run h hdone⟩

/-- A saga of each manager whose second step fails and whose first step is compensated. -/
theorem reportsOutcome_of_runs_two :
    (∃ r : SagaManager.SagaRun ℕ, r.saga.status = .compensated ∧
      SagaManager.ReportsOutcome r) ∧
    ∃ r : SagaPattern.SagaRun ℕ, r.saga.status = .compensated ∧ SagaPattern.ReportsOutcome r := by
  constructor
  · obtain ⟨r, hrun, hp⟩ := Machine.exists_run (SagaManager.sagaMachine ℕ [true, true])
      SagaManager.Compensates
      [.start, .executeReturned 7, .executeRaised "e", .compensationEnded .succeeded]
      (fun r => r.saga.status = .compensated ∧ r.executor = .done ∧ r.cancellers = [])
      (by decide)
    obtain ⟨hstatus, hex, hnone⟩ := of_decide_eq_true hp
    exact ⟨r, hstatus, reportsOutcome_of_runs.1 _ _ r hrun ⟨hex, by simp [hnone]⟩⟩
  · obtain ⟨r, hrun, hp⟩ := Machine.exists_run
      (SagaPattern.sagaMachine ℕ false "reverse_order" [(true, 0), (true, 0)])
      SagaPattern.Compensates
      [.start, .task 0 (.returned 7), .resume, .task 1 (.raised "e"), .resume,
        .compensationEnded (.returned true)]
      (fun r => r.saga.status = .compensated ∧ r.executor = .returned false) (by decide)
    obtain ⟨hstatus, hex⟩ := of_decide_eq_true hp
    exact ⟨r, hstatus, reportsOutcome_of_runs.2 _ _ _ _ r hrun ⟨false, hex⟩⟩

/-- In both managers a saga is `COMPENSATED` after its only compensation failed : here it
refused, and there it raised. -/
theorem not_reportsOutcome :
    (¬∀ (compensations : List Bool) (r : SagaManager.SagaRun ℕ),
      (SagaManager.sagaMachine ℕ compensations).Reachable r → r.AllDone →
        SagaManager.ReportsOutcome r) ∧
    ¬∀ (parallel : Bool) (strategy : String) (steps : List (Bool × ℤ))
      (r : SagaPattern.SagaRun ℕ),
      (SagaPattern.sagaMachine ℕ parallel strategy steps).Reachable r →
        (∃ success, r.executor = .returned success) → SagaPattern.ReportsOutcome r := by
  constructor
  · intro hall
    obtain ⟨r, hrun, hp⟩ := Machine.exists_run (SagaManager.sagaMachine ℕ [true, true])
      (fun _ _ => True)
      [.start, .executeReturned 7, .executeRaised "e", .compensationEnded .refused]
      (fun r => r.saga.status = .compensated ∧ r.executor = .done ∧ r.cancellers = [] ∧
        .compensated 0 .refused ∈ r.log) (by decide)
    obtain ⟨hstatus, hex, hnone, hlog⟩ := of_decide_eq_true hp
    have hfailed := (hall _ r hrun.reachable ⟨hex, by simp [hnone]⟩).2 ⟨0, _, hlog, by decide⟩
    exact absurd (hstatus.symm.trans hfailed) (by decide)
  · intro hall
    obtain ⟨r, hrun, hp⟩ := Machine.exists_run
      (SagaPattern.sagaMachine ℕ false "reverse_order" [(true, 0), (true, 0)])
      (fun _ _ => True)
      [.start, .task 0 (.returned 7), .resume, .task 1 (.raised "e"), .resume,
        .compensationEnded (.raised "e")]
      (fun r => r.saga.status = .compensated ∧ r.executor = .returned false ∧
        .compensated 0 (.raised "e") ∈ r.log) (by decide)
    obtain ⟨hstatus, hex, hlog⟩ := of_decide_eq_true hp
    have hfailed := (hall _ _ _ r hrun.reachable ⟨false, hex⟩).2 ⟨0, _, hlog, by decide⟩
    exact absurd (hstatus.symm.trans hfailed) (by decide)

end Both

end MultiAgent
