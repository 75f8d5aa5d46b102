import MultiAgent.Reliability.Saga

/-!
# What the log says about a step

The status of a step fixes the calls that its log holds (`Traced`) : a step is
executed once, returns or raises, and is compensated at most once, after it returned.
`Inv` ties the statuses, the position of the executor and the cancel calls in flight
to the log, and every step of every interleaving keeps it (`inv_of_reachable`).
`calls_at_most_once` reads off that each tool and each compensation is called at most
once, and a compensation only after its own step returned.
-/

namespace MultiAgent

namespace SagaManager

variable {ρ : Type*}

/-- The calls about step `i` that its status accounts for. -/
def SagaCall.concerns (i : ℕ) : SagaCall ρ → Bool
  | .execute k => k = i
  | .returned k _ => k = i
  | .raised k _ => k = i
  | .compensate k _ _ => k = i
  | _ => false

/-- The calls of a log about step `i`. -/
def history (i : ℕ) (log : List (SagaCall ρ)) : List (SagaCall ρ) :=
  log.filter (SagaCall.concerns i)

theorem history_append (i : ℕ) (log log' : List (SagaCall ρ)) :
    history i (log ++ log') = history i log ++ history i log' :=
  List.filter_append _ _

theorem mem_history {i : ℕ} {log : List (SagaCall ρ)} {call : SagaCall ρ} :
    call ∈ history i log ↔ call ∈ log ∧ call.concerns i = true :=
  List.mem_filter

/-- The status of step `i`, and the calls about it so far. -/
inductive Traced (i : ℕ) : SagaStepStatus → List (SagaCall ρ) → Prop
  | pending : Traced i .pending []
  | executing : Traced i .executing [.execute i]
  | completed (x : ρ) : Traced i .completed [.execute i, .returned i x]
  | raised (e : String) : Traced i .failed [.execute i, .raised i e]
  | compensating (x : ρ) (b : Bool) (q : Option ρ) :
      Traced i .compensating [.execute i, .returned i x, .compensate i b q]
  | compensated (x : ρ) (b : Bool) (q : Option ρ) :
      Traced i .compensated [.execute i, .returned i x, .compensate i b q]
  | notCompensated (x : ρ) (b : Bool) (q : Option ρ) :
      Traced i .failed [.execute i, .returned i x, .compensate i b q]

/-- Every step is traced, and there are no calls about other indices. -/
def Trace (r : SagaRun ρ) : Prop :=
  ∀ i, match r.saga.steps[i]? with
    | some step => Traced i step.status (history i r.log)
    | none => history i r.log = []

theorem Trace.traced {r : SagaRun ρ} (h : Trace r) {i : ℕ} {step : SagaStep ρ}
    (hi : r.saga.steps[i]? = some step) : Traced i step.status (history i r.log) := by
  have := h i
  rwa [hi] at this

/-- A call about step `i` says that there is a step `i`. -/
theorem Trace.exists_step {r : SagaRun ρ} (h : Trace r) {i : ℕ} (hne : history i r.log ≠ []) :
    ∃ step, r.saga.steps[i]? = some step := by
  cases hi : r.saga.steps[i]? with
  | some step => exact ⟨step, rfl⟩
  | none =>
    have := h i
    rw [hi] at this
    exact absurd this hne

/-- The trace reads the steps and the calls about them. -/
theorem Trace.congr {r t : SagaRun ρ} (h : Trace r) (hsteps : t.saga.steps = r.saga.steps)
    (hlog : ∀ i, history i t.log = history i r.log) : Trace t := by
  intro i
  rw [hsteps, hlog]
  exact h i

/-- Changing step `i` with a call about it that its new status accounts for. -/
theorem Trace.record {r : SagaRun ρ} (h : Trace r) {i : ℕ} {step : SagaStep ρ}
    {f : SagaStep ρ → SagaStep ρ} {call : SagaCall ρ} (hi : r.saga.steps[i]? = some step)
    (hother : ∀ k, k ≠ i → call.concerns k = false)
    (hnew : Traced i (f step).status (history i (r.log ++ [call]))) :
    Trace (r.record i f call) := by
  intro k
  by_cases hk : k = i
  · subst hk
    rw [SagaRun.record_step_self f call hi]
    exact hnew
  · have hlog : history k (r.log ++ [call]) = history k r.log := by
      rw [history_append]
      simp [history, hother k hk]
    rw [SagaRun.record_step_ne f call hk, SagaRun.record_log, hlog]
    exact h k

/-- The position of the executor, in terms of the log. -/
def AtPosition (log : List (SagaCall ρ)) : Executor → Prop
  | .created => ∀ i, history i log = []
  | .executing i => history i log = [.execute i] ∧ ∀ j, i < j → history j log = []
  | .compensating j => ∃ b q, .compensate j b q ∈ log
  | .done => True

/-- The position of a cancel call. -/
def CancelAt (log : List (SagaCall ρ)) : Canceller → Prop
  | .compensating j => ∃ b q, .compensate j b q ∈ log
  | _ => True

/-- A step that has been asked to compensate has left `COMPLETED` for good. -/
theorem Traced.of_compensate {i : ℕ} {status : SagaStepStatus} {calls : List (SagaCall ρ)}
    {b : Bool} {q : Option ρ} (h : Traced i status calls) (hmem : .compensate i b q ∈ calls) :
    ∃ x, calls = [.execute i, .returned i x, .compensate i b q] := by
  cases h with
  | compensating x b' q' => obtain ⟨rfl, rfl⟩ : b = b' ∧ q = q' := by simpa using hmem
                            exact ⟨x, rfl⟩
  | compensated x b' q' => obtain ⟨rfl, rfl⟩ : b = b' ∧ q = q' := by simpa using hmem
                           exact ⟨x, rfl⟩
  | notCompensated x b' q' => obtain ⟨rfl, rfl⟩ : b = b' ∧ q = q' := by simpa using hmem
                              exact ⟨x, rfl⟩
  | _ => simp at hmem

theorem Traced.completed_inv {i : ℕ} {calls : List (SagaCall ρ)}
    (h : Traced i .completed calls) : ∃ x, calls = [.execute i, .returned i x] := by
  cases h with
  | completed x => exact ⟨x, rfl⟩

theorem Traced.nil_inv {i : ℕ} {status : SagaStepStatus}
    (h : Traced i status ([] : List (SagaCall ρ))) : status = .pending := by
  cases h
  rfl

/-- The statuses, the executor and the cancel calls agree with the log. -/
structure Inv (r : SagaRun ρ) : Prop where
  trace : Trace r
  executor : AtPosition r.log r.executor
  cancellers : ∀ c ∈ r.cancellers, CancelAt r.log c

/-- `AtPosition` outlives every call that is not the beginning or the end of an `execute`. -/
theorem AtPosition.append {log : List (SagaCall ρ)} {ex : Executor} {call : SagaCall ρ}
    (h : AtPosition log ex)
    (hcall : ∀ i, history i log = [] ∨ history i log = [.execute i] →
      call.concerns i = false) : AtPosition (log ++ [call]) ex := by
  have hkeep : ∀ i, history i log = [] ∨ history i log = [.execute i] →
      history i (log ++ [call]) = history i log := fun i hi => by
    rw [history_append]
    simp [history, hcall i hi]
  cases ex with
  | created => exact fun i => (hkeep i (Or.inl (h i))).trans (h i)
  | executing i =>
    exact ⟨(hkeep i (Or.inr h.1)).trans h.1,
      fun j hj => (hkeep j (Or.inl (h.2 j hj))).trans (h.2 j hj)⟩
  | compensating j =>
    obtain ⟨b, q, hmem⟩ := h
    exact ⟨b, q, List.mem_append_left _ hmem⟩
  | done => trivial

theorem CancelAt.mono {log log' : List (SagaCall ρ)} {c : Canceller} (h : CancelAt log c)
    (hlog : ∀ call ∈ log, call ∈ log') : CancelAt log' c := by
  cases c with
  | compensating j =>
    obtain ⟨b, q, hmem⟩ := h
    exact ⟨b, q, hlog _ hmem⟩
  | _ => trivial

/-! ## Steps keep the invariant -/

/-- `t` comes from `r` by calls that neither begin nor end an `execute`. -/
structure Quiet (r t : SagaRun ρ) : Prop where
  executor : t.executor = r.executor
  cancellers : t.cancellers = r.cancellers
  log : ∀ call ∈ r.log, call ∈ t.log
  position : ∀ ex, AtPosition r.log ex → AtPosition t.log ex

theorem Quiet.refl (r : SagaRun ρ) : Quiet r r :=
  ⟨rfl, rfl, fun _ h => h, fun _ h => h⟩

theorem Quiet.trans {r t u : SagaRun ρ} (h : Quiet r t) (h' : Quiet t u) : Quiet r u where
  executor := h'.executor.trans h.executor
  cancellers := h'.cancellers.trans h.cancellers
  log call hmem := h'.log call (h.log call hmem)
  position ex hex := h'.position ex (h.position ex hex)

theorem Quiet.atPosition {r t : SagaRun ρ} (h : Quiet r t) (hpos : AtPosition r.log r.executor) :
    AtPosition t.log t.executor := by
  rw [h.executor]
  exact h.position _ hpos

/-- A call about step `j` is quiet once step `j` has returned. -/
theorem quiet_record {r : SagaRun ρ} {j : ℕ} {f : SagaStep ρ → SagaStep ρ} {call : SagaCall ρ}
    (hcall : ∀ i, history i r.log = [] ∨ history i r.log = [.execute i] →
      call.concerns i = false) : Quiet r (r.record j f call) where
  executor := rfl
  cancellers := rfl
  log _ hmem := List.mem_append_left _ hmem
  position _ hex := hex.append hcall

/-- A sweep keeps the trace, and the step it stops at has been asked to compensate. -/
theorem Trace.sweep {r : SagaRun ρ} (h : Trace r) (n : ℕ) :
    Trace (r.sweep n).1 ∧ Quiet r (r.sweep n).1 ∧
      ∀ j, (r.sweep n).2.2 = .atStep j → ∃ b q, .compensate j b q ∈ (r.sweep n).1.log := by
  rcases r.sweep_cases n with ⟨-, hs⟩ | ⟨-, hs⟩ | ⟨j, step, -, hj, hcomp, -, hs⟩ <;> rw [hs]
  · exact ⟨h, .refl r, by simp⟩
  · exact ⟨h.congr rfl fun _ => rfl, ⟨rfl, rfl, fun _ hm => hm, fun _ he => he⟩, by simp⟩
  · have htraced := h.traced hj
    rw [hcomp] at htraced
    obtain ⟨x, hx⟩ := htraced.completed_inv
    refine ⟨h.record hj (fun k hk => ?_) ?_, quiet_record fun i hi => ?_, ?_⟩
    · simp [SagaCall.concerns, Ne.symm hk]
    · rw [history_append, hx]
      simpa [history, SagaCall.concerns] using Traced.compensating x true step.result
    · have hne : j ≠ i := by
        rintro rfl
        simp [hx] at hi
      simp [SagaCall.concerns, hne]
    · intro k hk
      obtain rfl : j = k := by simpa using hk
      exact ⟨true, step.result, by simp⟩

/-- The end of a compensation that was asked for. -/
theorem Trace.endCompensation {r : SagaRun ρ} (h : Trace r) {j : ℕ} {o : CompensationOutcome}
    (hj : ∃ b q, .compensate j b q ∈ r.log) :
    Trace (r.endCompensation j o) ∧ Quiet r (r.endCompensation j o) := by
  obtain ⟨b, q, hmem⟩ := hj
  have hhist : .compensate j b q ∈ history j r.log :=
    mem_history.mpr ⟨hmem, by simp [SagaCall.concerns]⟩
  obtain ⟨step, hstep⟩ := h.exists_step (List.ne_nil_of_mem hhist)
  obtain ⟨x, hx⟩ := (h.traced hstep).of_compensate hhist
  refine ⟨h.record hstep (fun _ _ => rfl) ?_, quiet_record fun _ _ => rfl⟩
  have hsame : history j (r.log ++ [.compensated j o]) = history j r.log := by
    simp [history, SagaCall.concerns]
  rw [hsame, hx]
  dsimp only
  split_ifs
  · exact .compensated x b q
  · exact .notCompensated x b q

theorem cancelAt_of_stop {log : List (SagaCall ρ)} {stop : SweepStop}
    (h : ∀ j, stop = .atStep j → ∃ b q, .compensate j b q ∈ log) :
    CancelAt log (SagaRun.cancellerAt stop) := by
  cases stop with
  | atStep j => exact h j rfl
  | finished => trivial
  | indexError => trivial

/-- The executor goes where its sweep stopped. -/
theorem Inv.setExecutor {r t : SagaRun ρ} {c : Counters} {stop : SweepStop} (h : Trace t)
    (hc : ∀ k ∈ r.cancellers, CancelAt r.log k) (hq : Quiet r t)
    (hstop : ∀ j, stop = .atStep j → ∃ b q, .compensate j b q ∈ t.log) :
    Inv (SagaRun.setExecutor (t, c, stop)).1 := by
  have hcan : ∀ k ∈ t.cancellers, CancelAt t.log k := fun k hk =>
    (hc k (hq.cancellers ▸ hk)).mono hq.log
  cases stop with
  | atStep j => exact ⟨h.congr rfl fun _ => rfl, hstop j rfl, hcan⟩
  | finished => exact ⟨h.congr rfl fun _ => rfl, trivial, hcan⟩
  | indexError => exact ⟨h.congr rfl fun _ => rfl, trivial, hcan⟩

/-- The loop of the executor from an index with nothing executed at or above it. -/
theorem Inv.executeFrom {r : SagaRun ρ} {i : ℕ} (h : Trace r)
    (hc : ∀ k ∈ r.cancellers, CancelAt r.log k) (hnew : ∀ j, i ≤ j → history j r.log = []) :
    Inv (r.executeFrom i).1 := by
  have hgrow : ∀ call : SagaCall ρ, ∀ k ∈ r.cancellers, CancelAt (r.log ++ [call]) k :=
    fun call k hk => (hc k hk).mono fun _ hm => List.mem_append_left _ hm
  unfold SagaRun.executeFrom
  split_ifs with hi
  · have hstep := List.getElem?_eq_getElem hi
    have hhist : ∀ j, i ≤ j → history j (r.log ++ [.execute i]) =
        if j = i then [.execute i] else [] := fun j hj => by
      rw [history_append, hnew j hj]
      by_cases hji : j = i
      · simp [history, SagaCall.concerns, hji]
      · simp [history, SagaCall.concerns, hji, Ne.symm hji]
    refine ⟨?_, ⟨?_, fun j hj => ?_⟩, hgrow _⟩
    · refine Trace.congr (r := r.startStep i) ?_ rfl fun _ => rfl
      refine h.record hstep (fun k hk => by simp [SagaCall.concerns, Ne.symm hk]) ?_
      rw [hhist i (Nat.le_refl i), if_pos rfl]
      exact .executing
    · exact (hhist i (Nat.le_refl i)).trans (if_pos rfl)
    · exact (hhist j (Nat.le_of_lt hj)).trans (if_neg (by omega))
  · refine ⟨h.congr rfl fun k => ?_, trivial, hgrow _⟩
    simp [history, SagaCall.concerns]

theorem Inv.finishStep {r : SagaRun ρ} {i : ℕ} {x : ρ} (h : Inv r)
    (hex : r.executor = .executing i) : Inv ((r.finishStep i x).afterStep i).1 := by
  obtain ⟨hnow, hlater⟩ : history i r.log = [.execute i] ∧ ∀ j, i < j → history j r.log = [] := by
    simpa [hex, AtPosition] using h.executor
  obtain ⟨step, hstep⟩ := h.trace.exists_step (hnow ▸ List.cons_ne_nil _ _)
  rw [SagaRun.afterStep_finishStep]
  refine Inv.executeFrom ?_ (fun k hk => ?_) fun j hj => ?_
  · refine h.trace.record hstep (fun k hk => by simp [SagaCall.concerns, Ne.symm hk]) ?_
    rw [history_append, hnow]
    simpa [history, SagaCall.concerns] using Traced.completed x
  · exact (h.cancellers k hk).mono fun _ hm => List.mem_append_left _ hm
  · rw [SagaRun.finishStep, SagaRun.record_log, history_append, hlater j (by omega)]
    simp [history, SagaCall.concerns, show i ≠ j by omega]

theorem Inv.failStep {r : SagaRun ρ} {i : ℕ} {e : String} (h : Inv r)
    (hex : r.executor = .executing i) : Inv ((r.failStep i e).handleFailure e).1 := by
  obtain ⟨hnow, -⟩ : history i r.log = [.execute i] ∧ ∀ j, i < j → history j r.log = [] := by
    simpa [hex, AtPosition] using h.executor
  obtain ⟨step, hstep⟩ := h.trace.exists_step (hnow ▸ List.cons_ne_nil _ _)
  have htrace : Trace (r.failStep i e) := by
    refine h.trace.record hstep (fun k hk => by simp [SagaCall.concerns, Ne.symm hk]) ?_
    rw [history_append, hnow]
    simpa [history, SagaCall.concerns] using Traced.raised e
  have hc : ∀ k ∈ (r.failStep i e).cancellers, CancelAt (r.failStep i e).log k := fun k hk =>
    (h.cancellers k hk).mono fun _ hm => List.mem_append_left _ hm
  obtain ⟨ht, hq, hstop⟩ := Trace.sweep
    (r := ((r.failStep i e).markFailed e).beginCompensation (some e))
    (htrace.congr rfl fun _ => rfl) (r.saga.currentStepIndex + 1)
  exact Inv.setExecutor (r := r.failStep i e) ht hc ⟨hq.1, hq.2, hq.3, hq.4⟩ hstop

theorem Inv.acceptCancel {r : SagaRun ρ} (h : Inv r) : Inv r.acceptCancel.1 := by
  have hsame : ∀ k, history k (r.log ++ [.cancelAccepted]) = history k r.log := fun k => by
    simp [history, SagaCall.concerns]
  obtain ⟨ht, hq, hstop⟩ := Trace.sweep (r := r.beginCancel)
    (h.trace.congr rfl hsame) (r.saga.currentStepIndex + 1)
  have hmono : ∀ call ∈ r.log, call ∈ r.log ++ [.cancelAccepted] := fun _ hm =>
    List.mem_append_left _ hm
  refine ⟨ht.congr rfl fun _ => rfl, ?_, fun k hk => ?_⟩
  · exact hq.atPosition (h.executor.append fun _ _ => rfl)
  · rcases List.mem_append.mp hk with hk | hk
    · exact (h.cancellers k (hq.cancellers ▸ hk)).mono fun _ hm => hq.log _ (hmono _ hm)
    · rw [List.mem_singleton.mp hk]
      exact cancelAt_of_stop hstop

theorem Inv.cancelSweep {r : SagaRun ρ} {c j : ℕ} {o : CompensationOutcome} (h : Inv r)
    (hc : r.cancellers[c]? = some (.compensating j)) :
    Inv ((r.endCompensation j o).cancelSweep c j).1 := by
  obtain ⟨ht, hq⟩ := h.trace.endCompensation (o := o)
    (h.cancellers _ (List.mem_of_getElem? hc))
  obtain ⟨ht', hq', hstop⟩ := ht.sweep j
  have hquiet := hq.trans hq'
  unfold SagaRun.cancelSweep
  refine ⟨ht'.congr rfl fun _ => rfl, ?_, fun k hk => ?_⟩
  · exact hquiet.atPosition h.executor
  · rcases List.mem_or_eq_of_mem_set hk with hk | rfl
    · exact (h.cancellers k (hquiet.cancellers ▸ hk)).mono hquiet.log
    · exact cancelAt_of_stop hstop

theorem Inv.step {r : SagaRun ρ} {e : SagaEvent ρ} {t : SagaRun ρ × Counters} (h : Inv r)
    (hst : r.step e = some t) : Inv t.1 := by
  rcases SagaRun.step_cases hst with ⟨rfl, hex, rfl⟩ | ⟨i, x, rfl, hex, rfl⟩ |
    ⟨i, error, rfl, hex, rfl⟩ | ⟨j, o, rfl, hex, rfl⟩ | ⟨rfl, -, rfl⟩ | ⟨rfl, -, rfl⟩ |
    ⟨c, j, o, rfl, hc, rfl⟩
  · have hnew : ∀ j, history j r.log = [] := by simpa [hex, AtPosition] using h.executor
    exact .executeFrom h.trace h.cancellers fun j _ => hnew j
  · exact h.finishStep hex
  · exact h.failStep hex
  · have hj : ∃ b q, .compensate j b q ∈ r.log := by simpa [hex, AtPosition] using h.executor
    obtain ⟨ht, hq⟩ := h.trace.endCompensation (o := o) hj
    obtain ⟨ht', hq', hstop⟩ := ht.sweep j
    exact .setExecutor ht' h.cancellers (hq.trans hq') hstop
  · exact h.acceptCancel
  · refine ⟨h.trace.congr rfl fun _ => rfl, h.executor, fun k hk => ?_⟩
    rcases List.mem_append.mp hk with hk | hk
    · exact h.cancellers k hk
    · rw [List.mem_singleton.mp hk]
      trivial
  · exact h.cancelSweep hc

theorem Inv.start (compensations : List Bool) : Inv (startSaga compensations : SagaRun ρ) where
  trace i := by
    simp only [startSaga, List.getElem?_map]
    cases compensations[i]? with
    | none => rfl
    | some b => exact .pending
  executor _ := rfl
  cancellers c hc := by simp [startSaga] at hc

theorem inv_of_reachable {compensations : List Bool} {r : SagaRun ρ}
    (h : (sagaMachine ρ compensations).Reachable r) : Inv r := by
  obtain ⟨es, hrun⟩ := h
  refine hrun.invariant (.start compensations) fun s e t hs _ hst => ?_
  obtain ⟨u, hu, rfl⟩ := Option.map_eq_some_iff.mp hst
  exact hs.step hu

/-! ## Calls at most once -/

/-- The call of the tool of step `i`. -/
def isExecute (i : ℕ) : SagaCall ρ → Bool
  | .execute k => k = i
  | _ => false

/-- A call of the compensation of step `i`. -/
def isCompensate (i : ℕ) : SagaCall ρ → Bool
  | .compensate k _ _ => k = i
  | _ => false

/-- A count of calls about step `i` counts in its history. -/
theorem countP_history {i : ℕ} {p : SagaCall ρ → Bool}
    (hp : ∀ call : SagaCall ρ, p call = true → call.concerns i = true)
    (log : List (SagaCall ρ)) : (history i log).countP p = log.countP p := by
  rw [history, List.countP_filter]
  refine List.countP_congr fun call _ => ?_
  rw [Bool.and_eq_true]
  exact ⟨fun h => h.1, fun h => ⟨h, hp call h⟩⟩

theorem Traced.countP_execute {i : ℕ} {status : SagaStepStatus} {calls : List (SagaCall ρ)}
    (h : Traced i status calls) : calls.countP (isExecute i) ≤ 1 := by
  cases h <;> simp [isExecute]

theorem Traced.countP_compensate {i : ℕ} {status : SagaStepStatus} {calls : List (SagaCall ρ)}
    (h : Traced i status calls) : calls.countP (isCompensate i) ≤ 1 := by
  cases h <;> simp [isCompensate]

/-- A count that is bounded on every traced history is bounded on the log. -/
theorem Trace.countP_le {r : SagaRun ρ} (h : Trace r) {i : ℕ} {p : SagaCall ρ → Bool}
    (hp : ∀ call : SagaCall ρ, p call = true → call.concerns i = true)
    (hle : ∀ status (calls : List (SagaCall ρ)), Traced i status calls → calls.countP p ≤ 1) :
    r.log.countP p ≤ 1 := by
  rw [← countP_history hp]
  cases hi : r.saga.steps[i]? with
  | some step => exact hle _ _ (h.traced hi)
  | none =>
    have hnil : history i r.log = [] := by
      have := h i
      rwa [hi] at this
    simp [hnil]

/-- A step has returned before it is asked to compensate. -/
theorem Trace.returned_of_compensate {r : SagaRun ρ} (h : Trace r) {i : ℕ} {b : Bool}
    {q : Option ρ} {pre post : List (SagaCall ρ)}
    (hlog : r.log = pre ++ .compensate i b q :: post) : ∃ x, .returned i x ∈ pre := by
  have hhist : history i r.log = history i pre ++ .compensate i b q :: history i post := by
    simp [hlog, history, SagaCall.concerns]
  have hmem : .compensate i b q ∈ history i r.log := by simp [hhist]
  obtain ⟨step, hstep⟩ := h.exists_step (List.ne_nil_of_mem hmem)
  obtain ⟨x, hx⟩ := (h.traced hstep).of_compensate hmem
  rw [hx] at hhist
  -- the three calls about step `i`, of which only the last one is a compensation
  have hret : .returned i x ∈ history i pre := by
    match hpre : history i pre, hhist with
    | [], hh => simp at hh
    | [_], hh => simp at hh
    | a :: c :: _, hh =>
      obtain ⟨-, rfl, -⟩ : a = .execute i ∧ c = .returned i x ∧ _ := by simpa using hh.symm
      simp
  exact ⟨x, (mem_history.mp hret).1⟩

/-- Under every interleaving of the executor with cancel calls, the tool of a step is
called at most once, its compensation at most once, and only after the tool returned. -/
theorem calls_at_most_once {compensations : List Bool} {r : SagaRun ρ}
    (h : (sagaMachine ρ compensations).Reachable r) (i : ℕ) :
    r.log.countP (isExecute i) ≤ 1 ∧ r.log.countP (isCompensate i) ≤ 1 ∧
      ∀ pre post b q, r.log = pre ++ .compensate i b q :: post → ∃ x, .returned i x ∈ pre := by
  have htrace := (inv_of_reachable h).trace
  refine ⟨htrace.countP_le ?_ fun _ _ => Traced.countP_execute,
    htrace.countP_le ?_ fun _ _ => Traced.countP_compensate,
    fun pre post b q hlog => htrace.returned_of_compensate hlog⟩
  · intro call hcall
    cases call <;> simp_all [isExecute, SagaCall.concerns]
  · intro call hcall
    cases call <;> simp_all [isCompensate, SagaCall.concerns]

/-- A cancellation and the failure of the second step both run the compensation loop,
and the first step is compensated once. -/
theorem calls_at_most_once_cancelled : ∃ r : SagaRun ℕ,
    (sagaMachine ℕ [true, true]).Reachable r ∧ r.log.countP (isCompensate 0) = 1 ∧
      r.log.countP (isExecute 0) ≤ 1 ∧ r.log.countP (isCompensate 0) ≤ 1 ∧
      ∀ pre post b q, r.log = pre ++ .compensate 0 b q :: post → ∃ x, .returned 0 x ∈ pre := by
  obtain ⟨r, hrun, hp⟩ := Machine.exists_run (sagaMachine ℕ [true, true]) (fun _ _ => True)
    [.start, .executeReturned 7, .cancel, .executeRaised "e", .cancelStep 0 .succeeded]
    (fun r => r.log.countP (isCompensate 0) = 1) (by decide)
  exact ⟨r, hrun.reachable, of_decide_eq_true hp, calls_at_most_once hrun.reachable 0⟩

end SagaManager

end MultiAgent
