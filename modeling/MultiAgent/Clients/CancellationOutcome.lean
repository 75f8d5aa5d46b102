import MultiAgent.Clients.CoordinatedCancellation

/-!
# What a cancellation reports

The report of a cancellation lists its services once for each execution that has returned,
all of them as cancelled (`Cancellation.Tracked`). So a finished cancellation of distinct
services is accounted for (`Cancellation.Accounted`) if it was executed once and no signal
raised, and once no task of it is left only then (`accounted_iff_undisturbed`). A second
execution comes from `cancel_all_tenant_requests` while the status is `PENDING`.

What a step does is said once, by one case for each event (`step_cases`).
-/

namespace MultiAgent

namespace CoordinatedCancellation

/-! ## The calls of a cancellation -/

/-- The execution has returned. -/
def Execution.isReturned : Execution → Bool
  | .returned _ => true
  | _ => false

@[simp] theorem Execution.isReturned_created : Execution.created.isReturned = false :=
  rfl

@[simp] theorem Execution.isReturned_waiting (calls : List ServiceCall) :
    (Execution.waiting calls).isReturned = false :=
  rfl

@[simp] theorem Execution.isReturned_returned (calls : List ServiceCall) :
    (Execution.returned calls).isReturned = true :=
  rfl

/-- The calls of an execution. -/
def Execution.calls : Execution → List ServiceCall
  | .created => []
  | .waiting calls => calls
  | .returned calls => calls

/-- The call has sent its signal. -/
def ServiceCall.signalled (call : ServiceCall) : Bool :=
  decide (call.phase ≠ .created)

namespace Cancellation

variable (c : Cancellation)

/-- The services to cancel. -/
abbrev services : List String :=
  c.request.servicesToCancel

/-- The calls of all executions. -/
def calls : List ServiceCall :=
  c.executions.flatMap Execution.calls

/-- A signal to the service came to this. -/
def Came (service : String) (signal : Signal) : Prop :=
  { service, phase := .returned signal } ∈ c.calls

/-- The services that were sent a signal, once for each. -/
def signalledServices : List String :=
  (c.calls.filter ServiceCall.signalled).map ServiceCall.service

/-- The status is one of the final ones. -/
def Finished : Prop :=
  c.request.status = .completed ∨ c.request.status = .failed

/-- No task of the cancellation is left. -/
def Settled : Prop :=
  ∀ execution ∈ c.executions, execution.isReturned = true

/-- The report says what the signals came to. -/
structure Accounted : Prop where
  cancelled (service : String) :
    service ∈ c.request.cancelledServices ↔ c.Came service .succeeded
  error (service : String) :
    service ∈ c.request.errorServices ↔ ∃ e, c.Came service (.raised e)
  once : ∀ service ∈ c.services,
    (c.request.cancelledServices ++ c.request.errorServices).count service = 1
  signalledOnce : ∀ service ∈ c.services, c.signalledServices.count service = 1
  status : c.request.status = .failed ↔
    c.request.cancelledServices = [] ∧ c.request.errorServices ≠ []

/-- The cancellation was executed at most once, and no signal raised. -/
structure Smooth : Prop where
  once : c.executions.length ≤ 1
  succeeded : ∀ service e, ¬c.Came service (.raised e)

/-- What holds of every cancellation. The report repeats the services for each execution that
has returned. -/
structure Tracked : Prop where
  executed : c.executions ≠ []
  calls : ∀ execution ∈ c.executions, execution = .created ∨
    execution.calls.map ServiceCall.service = c.services
  returned : ∀ calls, .returned calls ∈ c.executions →
    ∀ call ∈ calls, ∃ signal, call.phase = .returned signal
  cancelled : c.request.cancelledServices =
    (List.replicate (c.executions.countP Execution.isReturned) c.services).flatten
  error : c.request.errorServices = []
  status : c.request.status ≠ .failed
  completed : c.request.status = .completed → 0 < c.executions.countP Execution.isReturned

end Cancellation

/-! ## One cancellation in a step -/

/-- The event starts the cancellation once more, or a signal of it raises. -/
def Disturbs (k : ℕ) (c : Cancellation) : CancellationEvent → Prop
  | .cancelAll tenantId _ _ => c.request.tenantId = tenantId ∧ c.request.status = .pending
  | .answerSignal k' _ _ signal => k' = k ∧ signal ≠ .succeeded
  | _ => False

/-- What a step does to the cancellation number `k`. -/
inductive Advance (k : ℕ) (c : Cancellation) : CancellationEvent → Cancellation → Prop
  | idle {e} : ¬Disturbs k c e → Advance k c e c
  | restart {tenantId reason initiatedBy} :
    c.request.tenantId = tenantId → c.request.status = .pending →
      Advance k c (.cancelAll tenantId reason initiatedBy) (c.restart reason initiatedBy)
  | begin {j c'} : c.beginExecution j = some c' → Advance k c (.beginExecution k j) c'
  | send {j i calls service record} : c.waitingCalls j = some calls →
      calls[i]? = some ⟨service, .created⟩ →
      Advance k c (.sendSignal k j i) (c.setCalls j (calls.set i ⟨service, .signalling record⟩))
  | answer {j i calls service record signal} : c.waitingCalls j = some calls →
      calls[i]? = some ⟨service, .signalling record⟩ →
      Advance k c (.answerSignal k j i signal)
        (c.setCalls j (calls.set i ⟨service, .returned signal⟩))
  | finish {j c'} : c.finishExecution j = some c' → Advance k c (.finishExecution k j) c'

@[simp] theorem activeCancellations_countExecution (m : CancellationManager) (c : Cancellation)
    (j : ℕ) : (m.countExecution c j).activeCancellations = m.activeCancellations := by
  unfold CancellationManager.countExecution
  split <;> rfl

/-- A step adds a cancellation, or takes each one further. -/
theorem step_cases {m m' : CancellationManager} {e : CancellationEvent}
    (h : m.step e = some m') :
    (∃ requestId tenantId reason initiatedBy services, m'.activeCancellations =
        m.activeCancellations ++ [.initiated requestId tenantId reason initiatedBy services] ∧
      ∀ k c, ¬Disturbs k c e) ∨
    m'.activeCancellations.length = m.activeCancellations.length ∧
      ∀ k c c', m.activeCancellations[k]? = some c → m'.activeCancellations[k]? = some c' →
        Advance k c e c' := by
  have hput : ∀ {k₀ c₀ c₁}, m.activeCancellations[k₀]? = some c₀ → Advance k₀ c₀ e c₁ →
      (∀ k c, k ≠ k₀ → ¬Disturbs k c e) →
      m'.activeCancellations = m.activeCancellations.set k₀ c₁ →
      m'.activeCancellations.length = m.activeCancellations.length ∧
        ∀ k c c', m.activeCancellations[k]? = some c → m'.activeCancellations[k]? = some c' →
          Advance k c e c' := by
    intro k₀ c₀ c₁ hc₀ hself hother hset
    refine ⟨by rw [hset, List.length_set], fun k c c' hc hc' => ?_⟩
    rw [hset] at hc'
    rcases getElem?_set_cases hc' with ⟨hne, hsame⟩ | ⟨rfl, rfl⟩
    · obtain rfl := Option.some.inj (hc.symm.trans hsame)
      exact .idle (hother k c hne)
    · obtain rfl := Option.some.inj (hc.symm.trans hc₀)
      exact hself
  cases e with
  | initiate requestId tenantId reason initiatedBy services =>
    obtain rfl := Option.some.inj h
    exact Or.inl ⟨_, _, _, _, _, rfl, fun _ _ => not_false⟩
  | cancelAll tenantId reason initiatedBy =>
    obtain rfl := Option.some.inj h
    refine Or.inr ⟨List.length_map _, fun k c c' hc hc' => ?_⟩
    obtain rfl :
        (if c.request.tenantId = tenantId then c.restart reason initiatedBy else c) = c' := by
      simpa [CancellationManager.cancelAllTenantRequests, hc] using hc'
    by_cases htenant : c.request.tenantId = tenantId
    · by_cases hpending : c.request.status = .pending
      · rw [if_pos htenant]
        exact .restart htenant hpending
      · rw [if_pos htenant, Cancellation.restart, if_neg hpending]
        exact .idle fun hdisturbs => hpending hdisturbs.2
    · rw [if_neg htenant]
      exact .idle fun hdisturbs => htenant hdisturbs.1
  | beginExecution k₀ j =>
    obtain ⟨c₀, hc₀, h⟩ := Option.bind_eq_some_iff.mp h
    obtain ⟨c₁, hc₁, h⟩ := Option.bind_eq_some_iff.mp h
    obtain rfl := Option.some.inj h
    exact Or.inr (hput hc₀ (.begin hc₁) (fun _ _ _ => not_false)
      (activeCancellations_countExecution _ _ _))
  | sendSignal k₀ j i =>
    obtain ⟨c₀, hc₀, h⟩ := Option.bind_eq_some_iff.mp h
    obtain ⟨calls, hcalls, h⟩ := Option.bind_eq_some_iff.mp h
    split at h
    · rename_i service hcall
      obtain rfl := Option.some.inj h
      exact Or.inr (hput hc₀ (.send hcalls hcall) (fun _ _ _ => not_false) rfl)
    · cases h
  | answerSignal k₀ j i signal =>
    obtain ⟨c₀, hc₀, h⟩ := Option.bind_eq_some_iff.mp h
    obtain ⟨calls, hcalls, h⟩ := Option.bind_eq_some_iff.mp h
    split at h
    · rename_i service record hcall
      obtain rfl := Option.some.inj h
      exact Or.inr (hput hc₀ (.answer hcalls hcall)
        (fun _ _ hne hdisturbs => hne hdisturbs.1.symm) rfl)
    · cases h
  | finishExecution k₀ j =>
    obtain ⟨c₀, hc₀, h⟩ := Option.bind_eq_some_iff.mp h
    obtain ⟨c₁, hc₁, h⟩ := Option.bind_eq_some_iff.mp h
    obtain rfl := Option.some.inj h
    exact Or.inr (hput hc₀ (.finish hc₁) (fun _ _ _ => not_false)
      (activeCancellations_countExecution _ _ _))

/-! ## The invariant -/

theorem result_eq_some {call : ServiceCall} {result : Except String Bool}
    (h : call.result = some result) :
    (∃ signal, call.phase = .returned signal) ∧ ∃ value, result = .ok value := by
  unfold ServiceCall.result at h
  split at h
  · rename_i signal hphase
    obtain rfl := Option.some.inj h
    refine ⟨⟨signal, hphase⟩, ?_⟩
    cases signal with
    | succeeded => exact ⟨true, rfl⟩
    | raised error => exact ⟨false, rfl⟩
  · cases h

/-- Once `gather` returns, every call has returned and no result is an exception. -/
theorem mapM_result {calls : List ServiceCall} {results : List (Except String Bool)}
    (h : calls.mapM ServiceCall.result = some results) :
    results.length = calls.length ∧ (∀ call ∈ calls, ∃ signal, call.phase = .returned signal) ∧
      ∀ result ∈ results, ∃ value, result = .ok value := by
  induction calls generalizing results with
  | nil =>
    obtain rfl := Option.some.inj h
    simp
  | cons call calls ih =>
    rw [List.mapM_cons] at h
    obtain ⟨result, hresult, h⟩ := Option.bind_eq_some_iff.mp h
    obtain ⟨rest, hrest, h⟩ := Option.bind_eq_some_iff.mp h
    obtain rfl := Option.some.inj h
    obtain ⟨hreturned, hvalue⟩ := result_eq_some hresult
    obtain ⟨hlength, hcalls, hvalues⟩ := ih hrest
    exact ⟨by simp [hlength], List.forall_mem_cons.mpr ⟨hreturned, hcalls⟩,
      List.forall_mem_cons.mpr ⟨hvalue, hvalues⟩⟩

theorem foldl_processResult (request : CancellationRequest)
    (results : List (String × Except String Bool))
    (h : ∀ result ∈ results, ∃ value, result.2 = .ok value) :
    results.foldl CancellationRequest.processResult request =
      { request with
        cancelledServices := request.cancelledServices ++ results.map Prod.fst } := by
  induction results generalizing request with
  | nil => simp
  | cons result results ih =>
    obtain ⟨⟨value, hvalue⟩, hresults⟩ := List.forall_mem_cons.mp h
    rw [List.foldl_cons, ih _ hresults]
    simp [CancellationRequest.processResult, hvalue]

/-- All services are put among the cancelled ones, whatever their signals came to. -/
theorem processResults_eq {request : CancellationRequest} {results : List (Except String Bool)}
    (herror : request.errorServices = [])
    (hlength : results.length = request.servicesToCancel.length)
    (hresults : ∀ result ∈ results, ∃ value, result = .ok value) :
    request.processResults results =
      { request with
        status := .completed
        cancelledServices := request.cancelledServices ++ request.servicesToCancel } := by
  have hzip : (request.servicesToCancel.zip results).map Prod.fst = request.servicesToCancel :=
    List.map_fst_zip (Nat.le_of_eq hlength.symm)
  unfold CancellationRequest.processResults
  simp only
  rw [foldl_processResult _ _ fun result hmem => hresults _ (List.of_mem_zip hmem).2, hzip]
  simp [CancellationRequest.finalStatus, herror]

namespace Cancellation

variable {c c' : Cancellation} {j : ℕ} {execution : Execution} {calls : List ServiceCall}

theorem Tracked.begun (h : c.Tracked) :
    Tracked { c with request := { c.request with status := .inProgress } } where
  executed := h.executed
  calls := h.calls
  returned := h.returned
  cancelled := h.cancelled
  error := h.error
  status := by simp
  completed := by simp

theorem Tracked.restart (h : c.Tracked) (reason : CancellationReason) (initiatedBy : String) :
    (c.restart reason initiatedBy).Tracked := by
  unfold Cancellation.restart
  split_ifs with hpending
  · exact
      { executed := by simp
        calls := by
          intro execution hmem
          rcases List.mem_append.mp hmem with hmem | hmem
          · exact h.calls execution hmem
          · exact Or.inl (List.mem_singleton.mp hmem)
        returned := fun calls hmem => h.returned calls (by simpa using hmem)
        cancelled := by simpa using h.cancelled
        error := h.error
        status := h.status
        completed := by simp [hpending] }
  · exact h

/-- The executions whose calls are the services, when one of them goes on. -/
theorem Tracked.calls_set (h : c.Tracked) {y : Execution}
    (hcalls : y.calls.map ServiceCall.service = c.services) :
    ∀ execution ∈ c.executions.set j y, execution = .created ∨
      execution.calls.map ServiceCall.service = c.services := by
  intro execution hmem
  rcases List.mem_or_eq_of_mem_set hmem with hmem | rfl
  · exact h.calls execution hmem
  · exact Or.inr hcalls

/-- The executions that have returned, when one of them goes on. -/
theorem Tracked.returned_set (h : c.Tracked) {y : Execution}
    (hy : ∀ calls, y = .returned calls → ∀ call ∈ calls, ∃ signal, call.phase = .returned signal) :
    ∀ calls, .returned calls ∈ c.executions.set j y →
      ∀ call ∈ calls, ∃ signal, call.phase = .returned signal := by
  intro calls hmem
  rcases List.mem_or_eq_of_mem_set hmem with hmem | heq
  · exact h.returned calls hmem
  · exact hy calls heq.symm

theorem Tracked.setCalls (h : c.Tracked) (hj : c.executions[j]? = some execution)
    (hopen : execution.isReturned = false)
    (hcalls : calls.map ServiceCall.service = c.services) : (c.setCalls j calls).Tracked := by
  have hcount : (c.executions.set j (.waiting calls)).countP Execution.isReturned =
      c.executions.countP Execution.isReturned := by
    simpa [hopen] using
      countP_set_add (y := .waiting calls) Execution.isReturned hj
  exact
    { executed := by simpa [Cancellation.setCalls] using h.executed
      calls := h.calls_set hcalls
      returned := h.returned_set fun calls' heq => by cases heq
      cancelled := by simpa only [Cancellation.setCalls, hcount] using h.cancelled
      error := h.error
      status := h.status
      completed := by simpa only [Cancellation.setCalls, hcount] using h.completed }

theorem Tracked.returnExecution (h : c.Tracked) (hj : c.executions[j]? = some execution)
    (hopen : execution.isReturned = false)
    (hcalls : calls.map ServiceCall.service = c.services) {results : List (Except String Bool)}
    (hresults : calls.mapM ServiceCall.result = some results) :
    (c.returnExecution j calls results).Tracked := by
  obtain ⟨hlength, hreturned, hvalues⟩ := mapM_result hresults
  have hservices : results.length = c.services.length := by
    rw [hlength, ← hcalls, List.length_map]
  have hcount : (c.executions.set j (.returned calls)).countP Execution.isReturned =
      c.executions.countP Execution.isReturned + 1 := by
    simpa [hopen] using
      countP_set_add (y := .returned calls) Execution.isReturned hj
  unfold Cancellation.returnExecution
  rw [processResults_eq h.error hservices hvalues]
  exact
    { executed := by simpa using h.executed
      calls := h.calls_set hcalls
      returned := h.returned_set fun calls' heq => by
        obtain rfl := Execution.returned.inj heq
        exact hreturned
      cancelled := by
        rw [hcount, List.replicate_succ', List.flatten_append, ← h.cancelled]
        simp
      error := h.error
      status := by simp
      completed := fun _ => by
        rw [hcount]
        exact Nat.succ_pos _ }

theorem waitingCalls_eq_some (h : c.waitingCalls j = some calls) :
    c.executions[j]? = some (.waiting calls) := by
  unfold waitingCalls at h
  split at h
  · rename_i hj
    exact Option.some.inj h ▸ hj
  · cases h

theorem Tracked.waiting (h : c.Tracked) (hj : c.executions[j]? = some (.waiting calls)) :
    calls.map ServiceCall.service = c.services :=
  (h.calls _ (List.mem_of_getElem? hj)).resolve_left (by simp)

/-- A call that goes on keeps its service. -/
theorem map_service_set {i : ℕ} {service : String} {phase phase' : CallPhase}
    (hi : calls[i]? = some ⟨service, phase⟩) :
    (calls.set i ⟨service, phase'⟩).map ServiceCall.service = calls.map ServiceCall.service := by
  obtain ⟨hlt, hcall⟩ := List.getElem?_eq_some_iff.mp hi
  rw [List.map_set]
  refine List.ext_getElem (by simp) fun n hn _ => ?_
  rw [List.getElem_set]
  split_ifs with hin
  · subst hin
    simp [hcall]
  · rfl

/-- A step keeps the invariant. -/
theorem Tracked.advance (h : c.Tracked) {k : ℕ} {e : CancellationEvent}
    (hadvance : Advance k c e c') : c'.Tracked := by
  cases hadvance with
  | idle => exact h
  | restart => exact h.restart _ _
  | begin hbegin =>
    unfold beginExecution at hbegin
    split at hbegin
    · rename_i hj
      split_ifs at hbegin with hservices
      · obtain rfl := Option.some.inj hbegin
        have hnone : ([] : List ServiceCall).map ServiceCall.service = c.services := hservices.symm
        exact h.begun.returnExecution hj rfl hnone rfl
      · obtain rfl := Option.some.inj hbegin
        exact h.begun.setCalls hj rfl (by simp [Function.comp_def])
    · cases hbegin
  | send hwaiting hcall =>
    have hj := waitingCalls_eq_some hwaiting
    exact h.setCalls hj rfl ((map_service_set hcall).trans (h.waiting hj))
  | answer hwaiting hcall =>
    have hj := waitingCalls_eq_some hwaiting
    exact h.setCalls hj rfl ((map_service_set hcall).trans (h.waiting hj))
  | finish hfinish =>
    obtain ⟨calls, hwaiting, hfinish⟩ := Option.bind_eq_some_iff.mp hfinish
    obtain ⟨results, hresults, hfinish⟩ := Option.bind_eq_some_iff.mp hfinish
    obtain rfl := Option.some.inj hfinish
    have hj := waitingCalls_eq_some hwaiting
    exact h.returnExecution hj rfl (h.waiting hj) hresults

/-! ## Executions and signals -/

/-- What the signals came to, when an execution goes on. -/
theorem came_set {request : CancellationRequest} {y : Execution} {service : String}
    {signal : Signal} {p : Prop} (hj : c.executions[j]? = some execution)
    (hy : ⟨service, .returned signal⟩ ∈ y.calls ↔
      ⟨service, .returned signal⟩ ∈ execution.calls ∨ p) :
    Came { request, executions := c.executions.set j y } service signal ↔
      c.Came service signal ∨ p := by
  obtain ⟨hlt, rfl⟩ := List.getElem?_eq_some_iff.mp hj
  obtain ⟨before, after, hsplit, -, hset⟩ : ∃ before after,
      c.executions = before ++ c.executions[j] :: after ∧ before.length = j ∧
        c.executions.set j y = before ++ y :: after := List.exists_of_set hlt
  have hbefore : c.Came service signal ↔ ⟨service, .returned signal⟩ ∈
      (before ++ c.executions[j] :: after).flatMap Execution.calls := by
    rw [← hsplit]
    rfl
  have hafter : Came { request, executions := c.executions.set j y } service signal ↔
      ⟨service, .returned signal⟩ ∈ (before ++ y :: after).flatMap Execution.calls := by
    rw [← hset]
    rfl
  rw [hbefore, hafter]
  simp only [List.flatMap_append, List.flatMap_cons, List.mem_append, hy]
  grind

/-- A cancellation stays smooth when one of its executions goes on, unless a signal raises. -/
theorem smooth_set_iff {request : CancellationRequest} {y : Execution}
    {p : String → String → Prop} (hj : c.executions[j]? = some execution)
    (hy : ∀ service e, ⟨service, .returned (.raised e)⟩ ∈ y.calls ↔
      ⟨service, .returned (.raised e)⟩ ∈ execution.calls ∨ p service e) :
    Smooth { request, executions := c.executions.set j y } ↔
      c.Smooth ∧ ∀ service e, ¬p service e := by
  constructor
  · intro h
    have hnot : ∀ service e, ¬(c.Came service (.raised e) ∨ p service e) := fun service e hor =>
      h.succeeded service e ((came_set hj (hy service e)).mpr hor)
    exact ⟨⟨by simpa using h.once, fun service e hcame => hnot service e (Or.inl hcame)⟩,
      fun service e hp => hnot service e (Or.inr hp)⟩
  · rintro ⟨h, hp⟩
    refine ⟨by simpa using h.once, fun service e hcame => ?_⟩
    rcases (came_set hj (hy service e)).mp hcame with hcame | hcame
    · exact h.succeeded service e hcame
    · exact hp service e hcame

/-- When no signal is answered. -/
theorem smooth_set_iff_of_eq {request : CancellationRequest} {y : Execution}
    (hj : c.executions[j]? = some execution)
    (hy : ∀ service e, ⟨service, .returned (.raised e)⟩ ∈ y.calls ↔
      ⟨service, .returned (.raised e)⟩ ∈ execution.calls) :
    Smooth { request, executions := c.executions.set j y } ↔ c.Smooth := by
  rw [smooth_set_iff (p := fun _ _ => False) hj fun service e => by rw [hy, or_false]]
  simp

theorem mem_set_call {i : ℕ} {service : String} {phase phase' : CallPhase} {call : ServiceCall}
    (hi : calls[i]? = some ⟨service, phase⟩) (hcall : call ≠ ⟨service, phase⟩) :
    call ∈ calls.set i ⟨service, phase'⟩ ↔ call ∈ calls ∨ call = ⟨service, phase'⟩ := by
  obtain ⟨hlt, heq⟩ := List.getElem?_eq_some_iff.mp hi
  obtain ⟨before, after, hsplit, -, hset⟩ : ∃ before after,
      calls = before ++ calls[i] :: after ∧ before.length = i ∧
        calls.set i ⟨service, phase'⟩ = before ++ ⟨service, phase'⟩ :: after :=
    List.exists_of_set hlt
  rw [hset, hsplit, heq]
  simp only [List.mem_append, List.mem_cons, hcall, false_or]
  grind

/-- A step keeps a cancellation smooth exactly when it does not disturb it. -/
theorem smooth_advance_iff (h : c.Tracked) {k : ℕ} {e : CancellationEvent}
    (hadvance : Advance k c e c') : c'.Smooth ↔ c.Smooth ∧ ¬Disturbs k c e := by
  cases hadvance with
  | idle hidle => exact (and_iff_left hidle).symm
  | restart htenant hpending =>
    refine iff_of_false (fun hsmooth => ?_) fun hsmooth => hsmooth.2 ⟨htenant, hpending⟩
    have honce := hsmooth.once
    rw [Cancellation.restart, if_pos hpending, List.length_append] at honce
    exact h.executed (List.length_eq_zero_iff.mp (by simpa using honce))
  | begin hbegin =>
    simp only [Disturbs, not_false_eq_true, and_true]
    unfold beginExecution at hbegin
    split at hbegin
    · rename_i hj
      split_ifs at hbegin
      all_goals obtain rfl := Option.some.inj hbegin
      · exact smooth_set_iff_of_eq hj fun _ _ => Iff.rfl
      · exact smooth_set_iff_of_eq hj fun _ _ => by simp [Execution.calls]
    · cases hbegin
  | send hwaiting hcall =>
    simp only [Disturbs, not_false_eq_true, and_true]
    refine smooth_set_iff_of_eq (waitingCalls_eq_some hwaiting) fun _ _ => ?_
    simp only [Execution.calls]
    rw [mem_set_call hcall (by simp)]
    simp
  | @answer j i calls service record signal hwaiting hcall =>
    have hiff : (c.setCalls j (calls.set i ⟨service, .returned signal⟩)).Smooth ↔
        c.Smooth ∧ ∀ service' e, ¬(service' = service ∧ .raised e = signal) := by
      refine smooth_set_iff (waitingCalls_eq_some hwaiting) fun _ _ => ?_
      simp only [Execution.calls]
      rw [mem_set_call hcall (by simp)]
      simp
    rw [hiff]
    cases signal with
    | succeeded => simp [Disturbs]
    | raised error => simp [Disturbs]
  | finish hfinish =>
    simp only [Disturbs, not_false_eq_true, and_true]
    obtain ⟨calls, hwaiting, hfinish⟩ := Option.bind_eq_some_iff.mp hfinish
    obtain ⟨results, -, hfinish⟩ := Option.bind_eq_some_iff.mp hfinish
    obtain rfl := Option.some.inj hfinish
    exact smooth_set_iff_of_eq (waitingCalls_eq_some hwaiting) fun _ _ => Iff.rfl

/-! ## The report -/

/-- A cancellation of no services is accounted for. -/
theorem Tracked.accounted_of_no_services (h : c.Tracked) (hservices : c.services = []) :
    c.Accounted := by
  have hcalls : c.calls = [] := by
    refine List.flatMap_eq_nil_iff.mpr fun execution hmem => ?_
    rcases h.calls execution hmem with rfl | hmap
    · rfl
    · exact List.map_eq_nil_iff.mp (hmap.trans hservices)
  have hcancelled : c.request.cancelledServices = [] := by
    rw [h.cancelled, hservices, List.flatten_replicate_nil]
  exact
    { cancelled := fun service => by simp [Came, hcancelled, hcalls]
      error := fun service => by simp [Came, h.error, hcalls]
      once := by simp [hservices]
      signalledOnce := by simp [hservices]
      status := iff_of_false h.status fun hfailed => hfailed.2 h.error }

/-- A finished cancellation that went smoothly is accounted for. -/
theorem Tracked.accounted_of_smooth (h : c.Tracked) (hnodup : c.services.Nodup)
    (hfinished : c.Finished) (hsmooth : c.Smooth) : c.Accounted := by
  obtain ⟨calls, hone⟩ : ∃ calls, c.executions = [.returned calls] := by
    have hreturned := h.completed (hfinished.resolve_right h.status)
    obtain ⟨execution, hmem, hisReturned⟩ := List.countP_pos_iff.mp hreturned
    obtain ⟨execution', hsingle⟩ := List.length_eq_one_iff.mp
      (Nat.le_antisymm hsmooth.once (List.length_pos_of_mem hmem))
    rw [hsingle, List.mem_singleton] at hmem
    subst hmem
    cases execution with
    | created => cases hisReturned
    | waiting calls => cases hisReturned
    | returned calls => exact ⟨calls, hsingle⟩
  have hcalls : c.calls = calls := by simp [Cancellation.calls, hone, Execution.calls]
  have hservices : calls.map ServiceCall.service = c.services :=
    (h.calls (.returned calls) (by simp [hone])).resolve_left (by simp)
  have hphase : ∀ call ∈ calls, call.phase = .returned .succeeded := by
    intro call hmem
    obtain ⟨signal, hsignal⟩ := h.returned calls (by simp [hone]) call hmem
    cases signal with
    | succeeded => exact hsignal
    | raised e =>
      have hcame : c.Came call.service (.raised e) := by
        rw [Came, hcalls, ← hsignal]
        exact hmem
      exact absurd hcame (hsmooth.succeeded _ _)
  have hcancelled : c.request.cancelledServices = c.services := by
    simp [h.cancelled, hone]
  have hsignalled : c.signalledServices = c.services := by
    rw [← hservices, signalledServices, hcalls]
    refine congrArg _ (List.filter_eq_self.mpr fun call hmem => ?_)
    simp [ServiceCall.signalled, hphase call hmem]
  exact
    { cancelled := by
        intro service
        rw [hcancelled, ← hservices, Came, hcalls, List.mem_map]
        constructor
        · rintro ⟨call, hmem, rfl⟩
          rw [← hphase call hmem]
          exact hmem
        · exact fun hmem => ⟨_, hmem, rfl⟩
      error := fun service => by
        simpa [h.error] using fun e => hsmooth.succeeded service e
      once := by
        intro service hmem
        rw [h.error, List.append_nil, hcancelled]
        exact List.count_eq_one_of_mem hnodup hmem
      signalledOnce := by
        intro service hmem
        rw [hsignalled]
        exact List.count_eq_one_of_mem hnodup hmem
      status := iff_of_false h.status fun hfailed => hfailed.2 h.error }

/-- Once no task is left, only a cancellation that went smoothly is accounted for, unless it
has no services. -/
theorem Tracked.smooth_of_accounted (h : c.Tracked) (hsettled : c.Settled)
    (hnodup : c.services.Nodup) (haccounted : c.Accounted) :
    c.services = [] ∨ c.Smooth := by
  refine or_iff_not_imp_left.mpr fun hservices => ⟨?_, fun service e hcame => ?_⟩
  · obtain ⟨service, hmem⟩ := List.exists_mem_of_ne_nil _ hservices
    have honce := haccounted.once service hmem
    have hall : c.executions.countP Execution.isReturned = c.executions.length :=
      List.countP_eq_length.mpr hsettled
    rw [h.error, List.append_nil, h.cancelled, hall, List.count_flatten, List.map_replicate,
      List.sum_replicate_nat, List.count_eq_one_of_mem hnodup hmem, Nat.mul_one] at honce
    exact Nat.le_of_eq honce
  · have herror := (haccounted.error service).mpr ⟨e, hcame⟩
    rw [h.error] at herror
    cases herror

end Cancellation

/-! ## Runs -/

/-- The step does not disturb the cancellation number `k`. -/
def Undisturbed (k : ℕ) (m : CancellationManager) (e : CancellationEvent) : Prop :=
  ∀ c, m.activeCancellations[k]? = some c → ¬Disturbs k c e

/-- Every cancellation keeps the invariant. -/
def AllTracked (m : CancellationManager) : Prop :=
  ∀ c ∈ m.activeCancellations, c.Tracked

/-- The cancellation number `k`, if there is one, went smoothly. -/
def SmoothAt (k : ℕ) (m : CancellationManager) : Prop :=
  ∀ c, m.activeCancellations[k]? = some c → c.Smooth

section Initiated

variable (requestId tenantId : String) (reason : CancellationReason) (initiatedBy : String)
  (services : List String)

theorem tracked_initiated :
    (Cancellation.initiated requestId tenantId reason initiatedBy services).Tracked where
  executed := by simp [Cancellation.initiated]
  calls := by simp [Cancellation.initiated]
  returned := by simp [Cancellation.initiated]
  cancelled := rfl
  error := rfl
  status := by simp [Cancellation.initiated]
  completed := by simp [Cancellation.initiated]

theorem smooth_initiated :
    (Cancellation.initiated requestId tenantId reason initiatedBy services).Smooth where
  once := Nat.le_refl 1
  succeeded := by simp [Cancellation.Came, Cancellation.initiated, Cancellation.calls,
    Execution.calls]

end Initiated

variable {m m' : CancellationManager} {e : CancellationEvent} {k : ℕ}

theorem allTracked_step (hm : AllTracked m) (hst : m.step e = some m') : AllTracked m' := by
  intro c' hmem
  rcases step_cases hst with ⟨_, _, _, _, _, hadd, -⟩ | ⟨hlength, hadvance⟩
  · rw [hadd] at hmem
    rcases List.mem_append.mp hmem with hmem | hmem
    · exact hm c' hmem
    · obtain rfl := List.mem_singleton.mp hmem
      exact tracked_initiated _ _ _ _ _
  · obtain ⟨k, hk⟩ := List.mem_iff_getElem?.mp hmem
    have hlt : k < m.activeCancellations.length :=
      hlength ▸ (List.getElem?_eq_some_iff.mp hk).1
    have hc := List.getElem?_eq_getElem hlt
    exact (hm _ (List.mem_of_getElem? hc)).advance (hadvance k _ c' hc hk)

theorem smoothAt_step_iff (hm : AllTracked m) (hst : m.step e = some m') :
    SmoothAt k m' ↔ SmoothAt k m ∧ Undisturbed k m e := by
  rcases step_cases hst with ⟨_, _, _, _, _, hadd, hquiet⟩ | ⟨hlength, hadvance⟩
  · unfold SmoothAt Undisturbed
    rw [hadd]
    constructor
    · refine fun h => ⟨fun c hc => h c ?_, fun c _ => hquiet k c⟩
      rw [List.getElem?_append_left (List.getElem?_eq_some_iff.mp hc).1]
      exact hc
    · rintro ⟨h, -⟩ c hc
      rcases getElem?_concat_cases hc with hc | ⟨-, rfl⟩
      · exact h c hc
      · exact smooth_initiated _ _ _ _ _
  · rcases Nat.lt_or_ge k m.activeCancellations.length with hlt | hge
    · have hc := List.getElem?_eq_getElem hlt
      have hc' := List.getElem?_eq_getElem (hlength ▸ hlt : k < m'.activeCancellations.length)
      have hiff := Cancellation.smooth_advance_iff (hm _ (List.mem_of_getElem? hc))
        (hadvance k _ _ hc hc')
      simpa [SmoothAt, Undisturbed, hc, hc'] using hiff
    · have hnone := List.getElem?_eq_none hge
      have hnone' := List.getElem?_eq_none (hlength ▸ hge : m'.activeCancellations.length ≤ k)
      simp [SmoothAt, Undisturbed, hnone, hnone']

variable {es : List CancellationEvent}

theorem allTracked_run (h : cancellationMachine.Run (fun _ _ => True) es m) : AllTracked m :=
  h.invariant (by simp [AllTracked, cancellationMachine]) fun _ _ _ hm _ hst =>
    allTracked_step hm hst

/-- No cancellation ever reports a failure. -/
theorem no_failure_run {c : Cancellation} (h : cancellationMachine.Run (fun _ _ => True) es m)
    (hc : c ∈ m.activeCancellations) :
    c.request.errorServices = [] ∧ c.request.status ≠ .failed :=
  ⟨(allTracked_run h c hc).error, (allTracked_run h c hc).status⟩

/-- A cancellation went smoothly exactly when no step of the run disturbs it. -/
theorem smoothAt_iff_run (h : cancellationMachine.Run (fun _ _ => True) es m) :
    SmoothAt k m ↔ cancellationMachine.Run (Undisturbed k) es m := by
  refine h.iff_run (I := AllTracked) ⟨?_, ?_⟩ (fun _ _ _ => allTracked_step)
    fun _ _ _ => smoothAt_step_iff
  · simp [AllTracked, cancellationMachine]
  · simp [SmoothAt, cancellationMachine]

/-- A finished cancellation of distinct services is accounted for if it has no services or no
step of the run disturbs it, and once no task of it is left only then. -/
theorem accounted_iff_undisturbed {c : Cancellation}
    (h : cancellationMachine.Run (fun _ _ => True) es m)
    (hk : m.activeCancellations[k]? = some c) (hnodup : c.services.Nodup)
    (hfinished : c.Finished) :
    (c.services = [] ∨ cancellationMachine.Run (Undisturbed k) es m → c.Accounted) ∧
      (c.Settled → c.Accounted →
        c.services = [] ∨ cancellationMachine.Run (Undisturbed k) es m) := by
  have hc : c.Tracked := allTracked_run h c (List.mem_of_getElem? hk)
  have hsmooth : c.Smooth ↔ cancellationMachine.Run (Undisturbed k) es m := by
    rw [← smoothAt_iff_run h]
    simp [SmoothAt, hk]
  rw [← hsmooth]
  refine ⟨?_, fun hsettled => hc.smooth_of_accounted hsettled hnodup⟩
  rintro (hservices | hsmooth)
  · exact hc.accounted_of_no_services hservices
  · exact hc.accounted_of_smooth hnodup hfinished hsmooth

/-- A computation that ends with one cancellation gives a run that does. -/
theorem exists_run_single (es : List CancellationEvent) (c : Cancellation)
    (h : (cancellationMachine.execWith (fun _ _ => True) cancellationMachine.init es).any
      (fun m => m.activeCancellations = [c]) = true) :
    ∃ m, cancellationMachine.Run (fun _ _ => True) es m ∧ m.activeCancellations[0]? = some c := by
  obtain ⟨m, hrun, hm⟩ := cancellationMachine.exists_run (fun _ _ => True) es _ h
  exact ⟨m, hrun, by rw [of_decide_eq_true hm]; rfl⟩

/-- Two services whose signals succeed are accounted for. -/
theorem accounted_of_two_services :
    ∃ es m c, cancellationMachine.Run (fun _ _ => True) es m ∧
      m.activeCancellations[0]? = some c ∧ c.services = ["api_gateway", "llm_service"] ∧
      c.Finished ∧ c.Settled ∧ c.Accounted := by
  obtain ⟨m, hrun, hk⟩ := exists_run_single
    [.initiate "r" "t" .timeout "u" ["api_gateway", "llm_service"], .beginExecution 0 0,
      .sendSignal 0 0 0, .sendSignal 0 0 1, .answerSignal 0 0 0 .succeeded,
      .answerSignal 0 0 1 .succeeded, .finishExecution 0 0]
    { request :=
        { requestId := "r", tenantId := "t", reason := .timeout, initiatedBy := "u"
          status := .completed, servicesToCancel := ["api_gateway", "llm_service"]
          cancelledServices := ["api_gateway", "llm_service"] }
      executions := [.returned [⟨"api_gateway", .returned .succeeded⟩,
        ⟨"llm_service", .returned .succeeded⟩]] }
    (by decide +kernel)
  have hsmooth : SmoothAt 0 m := by
    intro c hc
    obtain rfl := Option.some.inj (hk.symm.trans hc)
    exact ⟨Nat.le_refl 1, by simp [Cancellation.Came, Cancellation.calls, Execution.calls]⟩
  exact ⟨_, m, _, hrun, hk, rfl, Or.inl rfl, by simp [Cancellation.Settled],
    (accounted_iff_undisturbed hrun hk (by decide) (Or.inl rfl)).1
      (Or.inr ((smoothAt_iff_run hrun).mp hsmooth))⟩

/-- A service whose signal raised is reported as cancelled, and one of a cancellation that is
started once more before it begins is signalled and reported twice. -/
theorem not_accounted_of_raised_or_restarted :
    (∃ es m c, cancellationMachine.Run (fun _ _ => True) es m ∧
      m.activeCancellations[0]? = some c ∧ c.services.Nodup ∧ c.Finished ∧ c.Settled ∧
      c.Came "api_gateway" (.raised "timeout") ∧
      c.request.cancelledServices = ["api_gateway"] ∧ c.request.errorServices = [] ∧
      c.request.status = .completed ∧ ¬c.Accounted) ∧
    ∃ es m c, cancellationMachine.Run (fun _ _ => True) es m ∧
      m.activeCancellations[0]? = some c ∧ c.services.Nodup ∧ c.Finished ∧ c.Settled ∧
      c.signalledServices = ["api_gateway", "api_gateway"] ∧
      c.request.cancelledServices = ["api_gateway", "api_gateway"] ∧ ¬c.Accounted := by
  constructor
  · obtain ⟨m, hrun, hk⟩ := exists_run_single
      [.initiate "r" "t" .timeout "u" ["api_gateway"], .beginExecution 0 0, .sendSignal 0 0 0,
        .answerSignal 0 0 0 (.raised "timeout"), .finishExecution 0 0]
      { request :=
          { requestId := "r", tenantId := "t", reason := .timeout, initiatedBy := "u"
            status := .completed, servicesToCancel := ["api_gateway"]
            cancelledServices := ["api_gateway"] }
        executions := [.returned [⟨"api_gateway", .returned (.raised "timeout")⟩]] }
      (by decide +kernel)
    refine ⟨_, m, _, hrun, hk, by decide, Or.inl rfl, by simp [Cancellation.Settled],
      List.mem_cons_self, rfl, rfl, rfl, fun haccounted => ?_⟩
    have herror := (haccounted.error "api_gateway").mpr ⟨"timeout", List.mem_cons_self⟩
    cases herror
  · obtain ⟨m, hrun, hk⟩ := exists_run_single
      [.initiate "r" "t" .timeout "u" ["api_gateway"], .cancelAll "t" .resourceExhausted "system",
        .beginExecution 0 0, .beginExecution 0 1, .sendSignal 0 0 0, .sendSignal 0 1 0,
        .answerSignal 0 0 0 .succeeded, .answerSignal 0 1 0 .succeeded, .finishExecution 0 0,
        .finishExecution 0 1]
      { request :=
          { requestId := "r", tenantId := "t", reason := .resourceExhausted
            initiatedBy := "system", status := .completed, servicesToCancel := ["api_gateway"]
            cancelledServices := ["api_gateway", "api_gateway"] }
        executions := [.returned [⟨"api_gateway", .returned .succeeded⟩],
          .returned [⟨"api_gateway", .returned .succeeded⟩]] }
      (by decide +kernel)
    refine ⟨_, m, _, hrun, hk, by decide, Or.inl rfl, by simp [Cancellation.Settled], rfl, rfl,
      fun haccounted => ?_⟩
    have honce := haccounted.once "api_gateway" List.mem_cons_self
    revert honce
    decide

end CoordinatedCancellation

end MultiAgent
