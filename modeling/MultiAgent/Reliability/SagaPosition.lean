import MultiAgent.Reliability.SagaTrace

/-!
# Where the tasks of a saga stand

What holds of the executor and the cancel calls in every reachable state, whatever the
interleaving. The loop of the executor leaves no completed step with a compensation
function behind it (`Clear`), a step is `COMPENSATING` only while a task waits for its
compensation (`Attended`), and a saga that is still `RUNNING` has seen no cancel call.
-/

namespace MultiAgent

namespace SagaManager

variable {ρ : Type*}

/-- The call returned `True`, or still compensates. -/
def Canceller.accepted : Canceller → Bool
  | .compensating _ => true
  | .returned accepted => accepted
  | .raised => false

/-- No completed step from `n` on has a compensation function. -/
def Clear (r : SagaRun ρ) (n : ℕ) : Prop :=
  ∀ i step, n ≤ i → r.saga.steps[i]? = some step → step.status = .completed →
    step.compensation = false

theorem Clear.congr {r t : SagaRun ρ} {n : ℕ} (h : Clear r n)
    (hsteps : t.saga.steps = r.saga.steps) : Clear t n :=
  fun i step hi hstep => h i step hi (hsteps ▸ hstep)

/-- A change that does not complete the step it is about. -/
theorem Clear.record {r : SagaRun ρ} {n j : ℕ} {f : SagaStep ρ → SagaStep ρ}
    {call : SagaCall ρ} (h : Clear r n) (hf : ∀ step, (f step).status ≠ .completed) :
    Clear (r.record j f call) n := by
  intro i step hi hstep hcomp
  rcases SagaRun.record_step_cases hstep with ⟨-, hold⟩ | ⟨rfl, old, -, rfl⟩
  · exact h i step hi hold hcomp
  · exact absurd hcomp (hf old)

theorem Clear.endCompensation {r : SagaRun ρ} {n j : ℕ} {o : CompensationOutcome}
    (h : Clear r n) : Clear (r.endCompensation j o) n :=
  h.record fun _ => by dsimp only; split_ifs <;> simp

/-- A sweep completes no step. -/
theorem Clear.sweep {r : SagaRun ρ} {m : ℕ} (h : Clear r m) (n : ℕ) : Clear (r.sweep n).1 m := by
  rcases r.sweep_cases n with ⟨-, hs⟩ | ⟨-, hs⟩ | ⟨j, step, -, -, -, -, hs⟩ <;> rw [hs]
  · exact h
  · exact h.congr rfl
  · exact h.record fun _ => by simp

/-- A sweep clears the steps that it passes. -/
theorem Clear.sweep_stop {r : SagaRun ρ} {n : ℕ} (h : Clear r n) (hn : n ≤ r.saga.steps.length) :
    (∃ j, (r.sweep n).2.2 = .atStep j ∧ j < n ∧ Clear (r.sweep n).1 j) ∨
      ((r.sweep n).2.2 = .finished ∧ Clear (r.sweep n).1 0) := by
  rcases r.sweep_cases n with ⟨hnext, -⟩ | ⟨hnext, hs⟩ | ⟨j, step, hnext, -, -, -, hs⟩
  · have := nextCompensation_isSome hn
    simp [hnext] at this
  · refine Or.inr ⟨by rw [hs], ?_⟩
    rw [hs]
    intro i step _ hstep hcomp
    rcases Nat.lt_or_ge i n with hi | hi
    · exact nextCompensation_none hnext i step hi hstep hcomp
    · exact h i step hi hstep hcomp
  · obtain ⟨hlt, -, hpassed⟩ := nextCompensation_some hnext
    refine Or.inl ⟨j, by rw [hs], hlt, ?_⟩
    rw [hs]
    intro i old hi hstep hcomp
    rcases SagaRun.record_step_cases hstep with ⟨hij, hold⟩ | ⟨-, _, -, rfl⟩
    · rcases Nat.lt_or_ge i n with hin | hin
      · exact hpassed i old (by omega) hin hold hcomp
      · exact h i old hin hold hcomp
    · simp at hcomp

/-- A step is `COMPENSATING` only while a task waits for its compensation. -/
def Attended (r : SagaRun ρ) (ex : Executor) (cs : List Canceller) : Prop :=
  ∀ i step, r.saga.steps[i]? = some step → step.status = .compensating →
    ex = .compensating i ∨ .compensating i ∈ cs

/-- Once step `j` is not `COMPENSATING` any more, no task has to wait for it. -/
theorem Attended.record {r : SagaRun ρ} {ex ex' : Executor} {cs cs' : List Canceller} {j : ℕ}
    {f : SagaStep ρ → SagaStep ρ} (call : SagaCall ρ) (h : Attended r ex cs)
    (hf : ∀ step, (f step).status ≠ .compensating)
    (hother : ∀ i, i ≠ j → (ex = .compensating i ∨ .compensating i ∈ cs) →
      ex' = .compensating i ∨ .compensating i ∈ cs') :
    Attended (r.record j f call) ex' cs' := by
  intro i step hstep hcomp
  rcases SagaRun.record_step_cases hstep with ⟨hij, hold⟩ | ⟨rfl, old, -, rfl⟩
  · exact hother i hij (h i step hold hcomp)
  · exact absurd hcomp (hf old)

/-- The step that a sweep stops at is the only one that it makes `COMPENSATING`. -/
theorem Attended.sweep {r : SagaRun ρ} {ex ex' : Executor} {cs cs' : List Canceller} {n : ℕ}
    (h : Attended r ex cs)
    (hkeep : ∀ i, (ex = .compensating i ∨ .compensating i ∈ cs) →
      ex' = .compensating i ∨ .compensating i ∈ cs')
    (hstop : ∀ j, (r.sweep n).2.2 = .atStep j → ex' = .compensating j ∨ .compensating j ∈ cs') :
    Attended (r.sweep n).1 ex' cs' := by
  rcases r.sweep_cases n with ⟨-, hs⟩ | ⟨-, hs⟩ | ⟨j, step, -, -, -, -, hs⟩ <;>
    rw [hs] at hstop ⊢
  · exact fun i step hstep hcomp => hkeep i (h i step hstep hcomp)
  · exact fun i step hstep hcomp => hkeep i (h i step hstep hcomp)
  · intro i old hold hcomp
    rcases SagaRun.record_step_cases hold with ⟨-, hold⟩ | ⟨rfl, -⟩
    · exact hkeep i (h i old hold hcomp)
    · exact hstop i rfl

/-- How far the executor has come : its loop has cleared the steps from `j` on. -/
def Position (r : SagaRun ρ) : Executor → Prop
  | .created => True
  | .executing i => i < r.saga.steps.length ∧ r.saga.currentStepIndex = i
  | .compensating j => j < r.saga.steps.length ∧ Clear r j
  | .done => .sagaCompleted ∈ r.log ∨ Clear r 0

/-- No cancel call was accepted. -/
structure Undisturbed (r : SagaRun ρ) : Prop where
  cancelAccepted : .cancelAccepted ∉ r.log
  cancellers : ∀ c ∈ r.cancellers, c.accepted = false

/-- A call of the executor leaves the saga undisturbed. -/
theorem Undisturbed.congr {r t : SagaRun ρ} (h : Undisturbed r) (call : SagaCall ρ)
    (hlog : t.log = r.log ++ [call]) (hcs : t.cancellers = r.cancellers)
    (hcancel : call ≠ .cancelAccepted) : Undisturbed t where
  cancelAccepted := by
    rw [hlog]
    simp [h.cancelAccepted, hcancel.symm]
  cancellers := hcs ▸ h.cancellers

/-- The executor, the cancel calls and the steps fit together. -/
structure Settled (r : SagaRun ρ) : Prop where
  position : Position r r.executor
  attended : Attended r r.executor r.cancellers
  ended : .sagaCompleted ∈ r.log → r.executor = .done
  accepted : ∀ c ∈ r.cancellers, c.accepted = true →
    .cancelAccepted ∈ r.log ∧ r.saga.steps ≠ []
  running : r.saga.status = .running →
    Undisturbed r ∧ (r.executor = .created ∨ ∃ i, r.executor = .executing i)

theorem Settled.ne_done {r : SagaRun ρ} (h : Settled r) (hr : r.saga.status = .running) :
    r.executor ≠ .done := by
  rcases (h.running hr).2 with hex | ⟨i, hex⟩ <;> simp [hex]

/-- What a sweep leaves as it was. -/
structure SweepFrame (r t : SagaRun ρ) : Prop where
  executor : t.executor = r.executor
  cancellers : t.cancellers = r.cancellers
  length : t.saga.steps.length = r.saga.steps.length
  index : t.saga.currentStepIndex = r.saga.currentStepIndex
  status : t.saga.status = r.saga.status ∨ t.saga.status = .compensated
  cancelAccepted : .cancelAccepted ∈ t.log ↔ .cancelAccepted ∈ r.log
  sagaCompleted : .sagaCompleted ∈ t.log ↔ .sagaCompleted ∈ r.log

theorem sweepFrame (r : SagaRun ρ) (n : ℕ) : SweepFrame r (r.sweep n).1 := by
  rcases r.sweep_cases n with ⟨-, hs⟩ | ⟨-, hs⟩ | ⟨j, step, -, -, -, -, hs⟩ <;> rw [hs]
  · constructor <;> simp
  · constructor <;> simp [SagaRun.setStatus]
  · constructor <;> simp [SagaRun.record]

/-- A sweep that does not start `RUNNING` does not end so. -/
theorem SweepFrame.status_ne {r t : SagaRun ρ} (h : SweepFrame r t)
    (hne : r.saga.status ≠ .running) : t.saga.status ≠ .running := by
  rcases h.status with hs | hs <;> rw [hs]
  · exact hne
  · simp

theorem ne_nil_of_length_eq {r t : SagaRun ρ}
    (h : t.saga.steps.length = r.saga.steps.length) (hne : r.saga.steps ≠ []) :
    t.saga.steps ≠ [] := by
  rw [← List.length_pos_iff] at hne ⊢
  omega

/-- What the executor does not have to keep in mind while it goes on. -/
structure Unattached (r : SagaRun ρ) : Prop where
  attended : Attended r .done r.cancellers
  ended : .sagaCompleted ∉ r.log
  accepted : ∀ c ∈ r.cancellers, c.accepted = true →
    .cancelAccepted ∈ r.log ∧ r.saga.steps ≠ []
  running : r.saga.status = .running → Undisturbed r

theorem Unattached.executeFrom {r : SagaRun ρ} (h : Unattached r) (i : ℕ) :
    Settled (r.executeFrom i).1 := by
  unfold SagaRun.executeFrom
  split_ifs with hi
  · refine ⟨⟨?_, rfl⟩, ?_, fun hlog => ?_, fun c hc hacc => ?_, fun hr => ?_⟩
    · simpa [SagaRun.startStep] using hi
    · refine Attended.record (.execute i) h.attended (fun _ => by simp) fun k _ hk => ?_
      exact Or.inr (hk.resolve_left (by simp))
    · exact absurd (by simpa [SagaRun.startStep] using hlog) h.ended
    · obtain ⟨hlog, hne⟩ := h.accepted c hc hacc
      exact ⟨List.mem_append_left _ hlog, ne_nil_of_length_eq (by simp [SagaRun.startStep]) hne⟩
    · exact ⟨(h.running hr).congr (.execute i) rfl rfl (by simp), Or.inr ⟨i, rfl⟩⟩
  · refine ⟨Or.inl (by simp), ?_, fun _ => rfl, fun c hc hacc => ?_, fun hr => ?_⟩
    · exact fun k step hstep hcomp => h.attended k step hstep hcomp
    · obtain ⟨hlog, hne⟩ := h.accepted c hc hacc
      exact ⟨List.mem_append_left _ hlog, hne⟩
    · simp [SagaRun.setStatus] at hr

/-- The loop of the executor goes on below `n`. -/
theorem Unattached.setExecutor {r : SagaRun ρ} {n : ℕ} (h : Unattached r) (hclear : Clear r n)
    (hn : n ≤ r.saga.steps.length) (hstatus : r.saga.status ≠ .running) :
    Settled (SagaRun.setExecutor (r.sweep n)).1 := by
  have hf := sweepFrame r n
  have hne := hf.status_ne hstatus
  have hended : .sagaCompleted ∉ (r.sweep n).1.log := mt hf.sagaCompleted.mp h.ended
  have hatt : ∀ ex' : Executor, (∀ j, (r.sweep n).2.2 = .atStep j → ex' = .compensating j) →
      Attended (r.sweep n).1 ex' (r.sweep n).1.cancellers := fun ex' hstop => by
    rw [hf.cancellers]
    exact h.attended.sweep (fun i hi => Or.inr (hi.resolve_left (by simp)))
      fun j hj => Or.inl (hstop j hj)
  have hacc : ∀ c ∈ (r.sweep n).1.cancellers, c.accepted = true →
      .cancelAccepted ∈ (r.sweep n).1.log ∧ (r.sweep n).1.saga.steps ≠ [] := fun c hc ha => by
    rw [hf.cancellers] at hc
    obtain ⟨hlog, hsteps⟩ := h.accepted c hc ha
    exact ⟨hf.cancelAccepted.mpr hlog, ne_nil_of_length_eq hf.length hsteps⟩
  rcases hclear.sweep_stop hn with ⟨j, hstop, hj, hc⟩ | ⟨hstop, hc⟩
  · generalize r.sweep n = s at *
    obtain ⟨t, c, stop⟩ := s
    obtain rfl : stop = .atStep j := hstop
    refine ⟨⟨?_, hc⟩, hatt _ fun k hk => ?_, fun hlog => absurd hlog hended, hacc,
      fun hr => absurd hr hne⟩
    · have := hf.length
      dsimp only [SagaRun.setExecutor] at this ⊢
      omega
    · obtain rfl : j = k := by simpa using hk
      rfl
  · generalize r.sweep n = s at *
    obtain ⟨t, c, stop⟩ := s
    obtain rfl : stop = .finished := hstop
    exact ⟨Or.inr hc, hatt _ fun k hk => by simp at hk, fun _ => rfl, hacc,
      fun hr => absurd hr hne⟩

theorem Position.congr {r t : SagaRun ρ} {ex : Executor} (h : Position r ex)
    (hsteps : t.saga.steps = r.saga.steps)
    (hindex : t.saga.currentStepIndex = r.saga.currentStepIndex) (hlog : t.log = r.log) :
    Position t ex := by
  cases ex with
  | created => trivial
  | executing i => exact ⟨hsteps ▸ h.1, hindex ▸ h.2⟩
  | compensating j => exact ⟨hsteps ▸ h.1, h.2.congr hsteps⟩
  | done =>
    rcases h with h | h
    · exact Or.inl (hlog ▸ h)
    · exact Or.inr (h.congr hsteps)

/-- A sweep of a cancel call leaves the executor where it is. -/
theorem Position.sweep {r : SagaRun ρ} {ex : Executor} (h : Position r ex) (n : ℕ) :
    Position (r.sweep n).1 ex := by
  have hf := sweepFrame r n
  cases ex with
  | created => trivial
  | executing i => exact ⟨hf.length ▸ h.1, hf.index ▸ h.2⟩
  | compensating j => exact ⟨hf.length ▸ h.1, h.2.sweep n⟩
  | done =>
    rcases h with h | h
    · exact Or.inl (hf.sagaCompleted.mpr h)
    · exact Or.inr (h.sweep n)

/-- A cancel call of a saga without steps ends with an `IndexError`. -/
theorem accepted_of_stop {r : SagaRun ρ} {n : ℕ}
    (h : (SagaRun.cancellerAt (r.sweep (n + 1)).2.2).accepted = true) : r.saga.steps ≠ [] := by
  intro hnil
  simp [SagaRun.sweep, nextCompensation, hnil, SagaRun.cancellerAt, Canceller.accepted] at h

/-- The loop of a cancel call goes on below `n`, and the cancel calls stand at `cs` then. -/
theorem Position.cancelSweep {r : SagaRun ρ} {n : ℕ} {cs cs' : List Canceller}
    (hpos : Position r r.executor) (hatt : Attended r r.executor cs)
    (hended : .sagaCompleted ∈ r.log → r.executor = .done)
    (hkeep : ∀ i, .compensating i ∈ cs → .compensating i ∈ cs')
    (hstop : ∀ j, (r.sweep n).2.2 = .atStep j → .compensating j ∈ cs')
    (hacc : ∀ c ∈ cs', c.accepted = true → .cancelAccepted ∈ r.log ∧ r.saga.steps ≠ [])
    (hstatus : r.saga.status ≠ .running) : Settled { (r.sweep n).1 with cancellers := cs' } := by
  have hf := sweepFrame r n
  refine ⟨?_, ?_, fun hlog => ?_, fun c hc ha => ?_, fun hr => absurd hr (hf.status_ne hstatus)⟩
  · have hpos' := hpos.sweep n
    rw [← hf.executor] at hpos'
    exact hpos'.congr rfl rfl rfl
  · have hatt' : Attended (r.sweep n).1 r.executor cs' :=
      hatt.sweep (fun i hi => hi.imp_right (hkeep i)) fun j hj => Or.inr (hstop j hj)
    rw [← hf.executor] at hatt'
    exact hatt'
  · exact hf.executor.trans (hended (hf.sagaCompleted.mp hlog))
  · obtain ⟨hlog, hsteps⟩ := hacc c hc ha
    exact ⟨hf.cancelAccepted.mpr hlog, ne_nil_of_length_eq hf.length hsteps⟩

theorem Settled.acceptCancel {r : SagaRun ρ} (h : Settled r) (hr : r.saga.status = .running) :
    Settled r.acceptCancel.1 := by
  obtain ⟨hund, hex⟩ := h.running hr
  rw [r.acceptCancel_eq]
  have hatt : Attended r.beginCancel r.beginCancel.executor r.cancellers := h.attended
  refine Position.cancelSweep ?_ hatt (fun hlog => h.ended ?_) (fun i hi => ?_) (fun j hj => ?_)
    (fun c hc ha => ?_) (by simp [SagaRun.beginCancel, SagaRun.beginCompensation])
  · rcases hex with hex | ⟨i, hex⟩
    · rw [show r.beginCancel.executor = .created from hex]
      trivial
    · have hpos := h.position
      rw [hex] at hpos
      rw [show r.beginCancel.executor = .executing i from hex]
      exact hpos
  · simpa [SagaRun.beginCancel, SagaRun.beginCompensation, SagaRun.logCancel] using hlog
  · exact List.mem_append_left _ hi
  · rw [hj]
    simp [SagaRun.cancellerAt]
  · refine ⟨by simp [SagaRun.beginCancel, SagaRun.beginCompensation, SagaRun.logCancel], ?_⟩
    rcases List.mem_append.mp hc with hc | hc
    · exact absurd ha (by simp [hund.cancellers c hc])
    · rw [List.mem_singleton.mp hc] at ha
      exact accepted_of_stop ha

/-- Replacing an entry of a list keeps the others. -/
theorem mem_set_of_ne {α : Type*} {l : List α} {c : ℕ} {x y z : α} (hz : z ∈ l)
    (hc : l[c]? = some y) (hne : z ≠ y) : z ∈ l.set c x := by
  obtain ⟨k, hk⟩ := List.mem_iff_getElem?.mp hz
  have hkc : c ≠ k := by
    rintro rfl
    exact hne (Option.some.inj (hk.symm.trans hc))
  exact List.mem_of_getElem? ((List.getElem?_set_ne hkc).trans hk)

theorem Position.endCompensation {r : SagaRun ρ} {ex : Executor} (h : Position r ex) (j : ℕ)
    (o : CompensationOutcome) : Position (r.endCompensation j o) ex := by
  have hlen : (r.endCompensation j o).saga.steps.length = r.saga.steps.length :=
    SagaRun.record_length j _ (.compensated j o)
  cases ex with
  | created => trivial
  | executing i => exact ⟨hlen ▸ h.1, h.2⟩
  | compensating k => exact ⟨hlen ▸ h.1, h.2.endCompensation⟩
  | done =>
    rcases h with h | h
    · exact Or.inl (List.mem_append_left _ h)
    · exact Or.inr h.endCompensation

/-- The end of the compensation of step `j` leaves it in neither of the two statuses. -/
theorem Attended.endCompensation {r : SagaRun ρ} {ex ex' : Executor} {cs cs' : List Canceller}
    {j : ℕ} (h : Attended r ex cs) (o : CompensationOutcome)
    (hother : ∀ i, i ≠ j → (ex = .compensating i ∨ .compensating i ∈ cs) →
      ex' = .compensating i ∨ .compensating i ∈ cs') :
    Attended (r.endCompensation j o) ex' cs' :=
  h.record (.compensated j o) (fun _ => by dsimp only; split_ifs <;> simp) hother

theorem Settled.cancelSweep {r : SagaRun ρ} {c j : ℕ} {o : CompensationOutcome} (h : Settled r)
    (hc : r.cancellers[c]? = some (.compensating j)) :
    Settled ((r.endCompensation j o).cancelSweep c j).1 := by
  obtain ⟨hlog, hsteps⟩ := h.accepted _ (List.mem_of_getElem? hc) rfl
  have hlt : c < r.cancellers.length := (List.getElem?_eq_some_iff.mp hc).1
  rw [SagaRun.cancelSweep_eq]
  refine Position.cancelSweep (h.position.endCompensation j o)
    (h.attended.endCompensation o fun i hij hi => ?_) (fun hlog => h.ended ?_) (fun i hi => hi)
    (fun k hk => ?_)
    (fun _ _ _ => ?_) fun hr => ?_
  · exact hi.imp_right fun hi => mem_set_of_ne hi hc (by simpa using hij)
  · simpa [SagaRun.endCompensation] using hlog
  · rw [hk]
    exact List.mem_set hlt _
  · exact ⟨List.mem_append_left _ hlog,
      ne_nil_of_length_eq (SagaRun.record_length j _ (.compensated j o)) hsteps⟩
  · have hfalse := (h.running hr).1.cancellers _ (List.mem_of_getElem? hc)
    simp [Canceller.accepted] at hfalse

/-- A step that was not executed is still `PENDING`. -/
theorem pending_of_history {r : SagaRun ρ} (h : Trace r) {i : ℕ} {step : SagaStep ρ}
    (hi : r.saga.steps[i]? = some step) (hnil : history i r.log = []) :
    step.status = .pending := by
  have htraced := h.traced hi
  rw [hnil] at htraced
  exact htraced.nil_inv

/-- The steps from a failed one on are not completed. -/
theorem clear_failStep {r : SagaRun ρ} {i : ℕ} (h : Inv r) (hex : r.executor = .executing i)
    (error : String) : Clear (r.failStep i error) i := by
  obtain ⟨-, hlater⟩ : history i r.log = [.execute i] ∧ ∀ j, i < j → history j r.log = [] := by
    simpa [hex, AtPosition] using h.executor
  intro k step hk hstep hcomp
  rcases SagaRun.record_step_cases hstep with ⟨hki, hold⟩ | ⟨-, old, -, rfl⟩
  · have hpending := pending_of_history h.trace hold (hlater k (by omega))
    simp [hpending] at hcomp
  · simp at hcomp

theorem Settled.step {r : SagaRun ρ} {e : SagaEvent ρ} {t : SagaRun ρ × Counters}
    (h : Settled r) (hinv : Inv r) (hst : r.step e = some t) : Settled t.1 := by
  have hpos := h.position
  have hatt := h.attended
  have hnot : r.executor ≠ .done → .sagaCompleted ∉ r.log := mt h.ended
  rcases SagaRun.step_cases hst with ⟨rfl, hex, rfl⟩ | ⟨i, x, rfl, hex, rfl⟩ |
    ⟨i, error, rfl, hex, rfl⟩ | ⟨j, o, rfl, hex, rfl⟩ | ⟨rfl, hr, rfl⟩ | ⟨rfl, hr, rfl⟩ |
    ⟨c, j, o, rfl, hc, rfl⟩
  · refine Unattached.executeFrom ⟨fun i step hi hcomp => ?_, hnot (by simp [hex]), h.accepted,
      fun hr => ?_⟩ 0
    · exact Or.inr ((hatt i step hi hcomp).resolve_left (by simp [hex]))
    · exact (h.running hr).1
  · rw [hex] at hpos
    rw [SagaRun.afterStep_finishStep]
    refine Unattached.executeFrom ⟨?_, ?_, fun c hc ha => ?_, fun hr => ?_⟩ (i + 1)
    · refine hatt.record (.returned i x) (fun _ => by simp) fun k _ hk => ?_
      exact Or.inr (hk.resolve_left (by simp [hex]))
    · simpa [SagaRun.finishStep] using hnot (by simp [hex])
    · obtain ⟨hlog, hsteps⟩ := h.accepted c hc ha
      exact ⟨List.mem_append_left _ hlog,
        ne_nil_of_length_eq (SagaRun.record_length i _ (.returned i x)) hsteps⟩
    · exact (h.running hr).1.congr (.returned i x) rfl rfl (by simp)
  · rw [hex] at hpos
    rw [SagaRun.failStep_handleFailure hpos.1 hpos.2]
    refine Unattached.setExecutor ⟨?_, ?_, fun c hc ha => ?_, fun hr => ?_⟩
      ((clear_failStep hinv hex error).congr rfl) ?_ ?_
    · refine hatt.record (.raised i error) (fun _ => by simp) fun k _ hk => ?_
      exact Or.inr (hk.resolve_left (by simp [hex]))
    · simpa [SagaRun.beginCompensation, SagaRun.markFailed, SagaRun.failStep] using
        hnot (by simp [hex])
    · obtain ⟨hlog, hsteps⟩ := h.accepted c hc ha
      exact ⟨List.mem_append_left _ hlog,
        ne_nil_of_length_eq (SagaRun.record_length i _ (.raised i error)) hsteps⟩
    · simp [SagaRun.beginCompensation] at hr
    · have hlen := SagaRun.record_length (r := r) i (fun step => { step with
        status := .failed, error := some error }) (.raised i error)
      exact Nat.le_of_lt (hlen ▸ hpos.1)
    · simp [SagaRun.beginCompensation]
  · have hstatus : r.saga.status ≠ .running := by
      intro hr
      rcases (h.running hr).2 with hcreated | ⟨k, hk⟩
      · simp [hex] at hcreated
      · simp [hex] at hk
    rw [hex] at hpos
    have hpos' := hpos.endCompensation j o
    refine Unattached.setExecutor ⟨?_, ?_, fun c hc ha => ?_, fun hr => absurd hr hstatus⟩
      hpos'.2 (Nat.le_of_lt hpos'.1) hstatus
    · refine hatt.endCompensation o fun k hk hwait => ?_
      refine Or.inr (hwait.resolve_left ?_)
      simpa [hex] using hk.symm
    · simpa [SagaRun.endCompensation] using hnot (by simp [hex])
    · obtain ⟨hlog, hsteps⟩ := h.accepted c hc ha
      exact ⟨List.mem_append_left _ hlog,
        ne_nil_of_length_eq (SagaRun.record_length j _ (.compensated j o)) hsteps⟩
  · exact h.acceptCancel hr
  · refine ⟨hpos.congr rfl rfl rfl, fun i step hi hcomp => ?_, h.ended, fun c hc ha => ?_,
      fun hrun => absurd hrun hr⟩
    · exact (hatt i step hi hcomp).imp_right fun hmem => List.mem_append_left _ hmem
    · rcases List.mem_append.mp hc with hc | hc
      · exact h.accepted c hc ha
      · rw [List.mem_singleton.mp hc] at ha
        simp [Canceller.accepted] at ha
  · exact h.cancelSweep hc

theorem Settled.start (compensations : List Bool) :
    Settled (startSaga compensations : SagaRun ρ) := by
  refine ⟨trivial, fun i step hi hcomp => ?_, fun hlog => ?_, fun c hc => ?_,
    fun _ => ⟨⟨?_, fun c hc => ?_⟩, ?_⟩⟩
  · rw [startSaga, List.getElem?_map] at hi
    obtain ⟨b, -, rfl⟩ := Option.map_eq_some_iff.mp hi
    simp at hcomp
  · simp [startSaga] at hlog
  · simp [startSaga] at hc
  · simp [startSaga]
  · simp [startSaga] at hc
  · exact Or.inl rfl

theorem settled_of_reachable {compensations : List Bool} {r : SagaRun ρ}
    (h : (sagaMachine ρ compensations).Reachable r) : Settled r := by
  obtain ⟨es, hrun⟩ := h
  have hboth : Inv r ∧ Settled r := by
    refine hrun.invariant (I := fun r => Inv r ∧ Settled r)
      ⟨.start compensations, .start compensations⟩ fun s e t hs _ hst => ?_
    obtain ⟨u, hu, rfl⟩ := Option.map_eq_some_iff.mp hst
    exact ⟨hs.1.step hu, hs.2.step hs.1 hu⟩
  exact hboth.2

end SagaManager

end MultiAgent
