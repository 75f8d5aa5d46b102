import MultiAgent.Security.FairQueue

/-!
# Metrics of the fair scheduler

`get_scheduler_metrics` adds up what the scheduler keeps in its three representations : the
queues, the sets of active requests and the counters.

A request that is accepted is queued, and `complete_request` counts a request whether or not it
was active, while `dequeue_request` adds to a set, which an identifier that is active already does
not make larger. So the totals agree in every state of a run exactly if each of its steps moves a
request (`conserved_throughout_iff`).
-/

namespace MultiAgent

namespace Fairness

/-- What `get_tenant_stats` adds for a tenant with a configuration. -/
structure TenantLoad where
  tier : TenantTier
  weight : ℚ
  priority : ℤ
  maxConcurrent : ℤ
  currentActive : ℕ
  queueSize : ℕ

/-- What `get_tenant_stats` returns. -/
structure TenantReport where
  stats : TenantStats
  load : Option TenantLoad

/-- What `get_scheduler_metrics` returns. -/
structure SchedulerMetrics where
  totalTenants : ℕ
  totalRequests : ℕ
  totalCompleted : ℕ
  totalActive : ℕ
  totalQueued : ℕ
  tenantStats : List (String × TenantReport)

namespace WeightedFairScheduler

variable (s : WeightedFairScheduler)

/-- `get_tenant_stats`. -/
def getTenantStats (tenantId : String) : TenantReport where
  stats := s.stats tenantId
  load := (s.tenantWeights.get? tenantId).map fun weightConfig =>
    { tier := weightConfig.tier
      weight := weightConfig.weight
      priority := weightConfig.priority
      maxConcurrent := weightConfig.maxConcurrent
      currentActive := (s.active tenantId).card
      queueSize := (s.queue tenantId).length }

/-- `get_scheduler_metrics`. -/
def getSchedulerMetrics : SchedulerMetrics where
  totalTenants := s.tenantWeights.size
  totalRequests := s.tenantStats.sum TenantStats.totalRequests
  totalCompleted := s.tenantStats.sum TenantStats.completedRequests
  totalActive := s.activeRequests.sum Finset.card
  totalQueued := s.tenantQueues.sum List.length
  tenantStats := s.tenantWeights.keys.map fun tenantId => (tenantId, s.getTenantStats tenantId)

/-- Every request that was accepted is queued, active or completed. -/
def Conserved : Prop :=
  s.getSchedulerMetrics.totalRequests =
    s.getSchedulerMetrics.totalQueued + s.getSchedulerMetrics.totalActive +
      s.getSchedulerMetrics.totalCompleted

variable {s}

/-! ## The totals after an operation -/

/-- The queue of a tenant is replaced. -/
theorem totalQueued_set (t : String) (q : List FairQueueEntry) :
    (s.tenantQueues.set t q).sum List.length + (s.queue t).length =
      s.getSchedulerMetrics.totalQueued + q.length :=
  s.tenantQueues.sum_set t q rfl

/-- The active requests of a tenant are replaced. -/
theorem totalActive_set (t : String) (a : Finset String) :
    (s.activeRequests.set t a).sum Finset.card + (s.active t).card =
      s.getSchedulerMetrics.totalActive + a.card :=
  s.activeRequests.sum_set t a rfl

/-- The statistics of a tenant are replaced. -/
theorem totals_set (t : String) (stats : TenantStats) :
    (s.tenantStats.set t stats).sum TenantStats.totalRequests + (s.stats t).totalRequests =
        s.getSchedulerMetrics.totalRequests + stats.totalRequests ∧
      (s.tenantStats.set t stats).sum TenantStats.completedRequests +
          (s.stats t).completedRequests =
        s.getSchedulerMetrics.totalCompleted + stats.completedRequests :=
  ⟨s.tenantStats.sum_set t stats rfl, s.tenantStats.sum_set t stats rfl⟩

/-- An accepted request is counted once and queued once. -/
theorem conserved_accept (hs : s.Conserved) (entry : FairQueueEntry) (now : ℚ) :
    (s.accept entry now).Conserved := by
  have hqueued := s.totalQueued_set entry.tenantId (s.queue entry.tenantId ++ [entry])
  obtain ⟨hrequests, hcompleted⟩ := s.totals_set entry.tenantId
    { s.stats entry.tenantId with
      totalRequests := (s.stats entry.tenantId).totalRequests + 1
      lastRequestTime := some now }
  rw [List.length_append, List.length_singleton] at hqueued
  dsimp only at hrequests hcompleted
  unfold Conserved at hs ⊢
  change (s.tenantStats.set entry.tenantId _).sum _ =
    (s.tenantQueues.set entry.tenantId _).sum _ + s.getSchedulerMetrics.totalActive +
      (s.tenantStats.set entry.tenantId _).sum _
  omega

/-- The request that is served leaves the queue, and is one more active request if it was not
active before. -/
theorem conserved_serve_iff (hs : s.Conserved) {t : String} {first : FairQueueEntry}
    {rest : List FairQueueEntry} (hq : s.queue t = first :: rest) :
    (s.serve t first).Conserved ↔ first.requestId ∉ s.active t := by
  have hqueued := s.totalQueued_set t (s.queue t).tail
  have hactive := s.totalActive_set t (insert first.requestId (s.active t))
  have hlength : (s.queue t).length = (s.queue t).tail.length + 1 := by rw [hq]; rfl
  unfold Conserved at hs ⊢
  change s.getSchedulerMetrics.totalRequests =
    (s.tenantQueues.set t _).sum _ + (s.activeRequests.set t _).sum _ +
      s.getSchedulerMetrics.totalCompleted ↔ _
  by_cases hmem : first.requestId ∈ s.active t
  · rw [Finset.insert_eq_of_mem hmem] at hactive ⊢
    exact iff_of_false (by omega) (not_not.mpr hmem)
  · rw [Finset.card_insert_of_notMem hmem] at hactive
    exact iff_of_true (by omega) hmem

/-- A completion is counted once, and is one active request less if it was one. -/
theorem conserved_completeRequest_iff (hs : s.Conserved) (t requestId : String) (p : ℚ) :
    (s.completeRequest t requestId p).Conserved ↔ requestId ∈ s.active t := by
  have hactive := s.totalActive_set t ((s.active t).erase requestId)
  obtain ⟨hrequests, hcompleted⟩ := s.totals_set t
    { s.stats t with
      completedRequests := (s.stats t).completedRequests + 1
      totalProcessingTime := (s.stats t).totalProcessingTime + p
      averageProcessingTime :=
        ((s.stats t).totalProcessingTime + p) / ((s.stats t).completedRequests + 1 : ℕ) }
  dsimp only at hrequests hcompleted
  unfold Conserved at hs ⊢
  change (s.tenantStats.set t _).sum _ = s.getSchedulerMetrics.totalQueued +
    (s.activeRequests.set t _).sum _ + (s.tenantStats.set t _).sum _ ↔ _
  by_cases hmem : requestId ∈ s.active t
  · have hcard := Finset.card_erase_add_one hmem
    exact iff_of_true (by omega) hmem
  · rw [Finset.erase_eq_of_notMem hmem] at hactive ⊢
    exact iff_of_false (by omega) hmem

end WeightedFairScheduler

open WeightedFairScheduler

/-! ## Runs -/

/-- A completion is of a request that is active, and a dequeue takes a request whose identifier
is not active for its tenant. -/
def MovesRequest (r : SchedulerRun) : SchedulerEvent → Prop
  | .setTenantWeight _ => True
  | .enqueue _ _ _ _ => True
  | .dequeue => (∀ t, r.scheduler.Waiting t → r.scheduler.weightOf t ≠ 0) →
    ∀ t first rest, r.scheduler.nextTenant = some t → r.scheduler.queue t = first :: rest →
      first.requestId ∉ r.scheduler.active t
  | .complete tenantId requestId _ => requestId ∈ r.scheduler.active tenantId

theorem conserved_next_iff {r : SchedulerRun} (hs : r.scheduler.Conserved) (e : SchedulerEvent) :
    (r.next e).scheduler.Conserved ↔ MovesRequest r e := by
  cases e with
  | setTenantWeight w => exact iff_of_true hs trivial
  | enqueue t requestId metadata now =>
    refine iff_of_true ?_ trivial
    rcases r.next_enqueue_cases t requestId metadata now with heq | ⟨cfg, -, heq⟩
    · rwa [heq]
    · rw [heq]
      exact conserved_accept hs _ now
  | dequeue =>
    rcases r.next_dequeue_cases with ⟨hstuck, heq⟩ | ⟨hw, t, first, rest, ht, hq, heq⟩
    · rw [heq]
      refine iff_of_true hs fun hw t first rest ht _ => ?_
      rcases hstuck with ⟨u, hu, hzero⟩ | hnone
      · exact absurd hzero (hw u hu)
      · simp [hnone] at ht
    · rw [heq, conserved_serve_iff hs hq]
      constructor
      · intro hfresh _ u e' rest' hu hq'
        obtain rfl := Option.some.inj (ht.symm.trans hu)
        obtain ⟨rfl, -⟩ := List.cons.inj (hq.symm.trans hq')
        exact hfresh
      · intro h
        exact h hw t first rest ht hq
  | complete t requestId p => exact conserved_completeRequest_iff hs t requestId p

/-- The totals agree in every state of a run exactly if each of its steps moves a request. -/
theorem conserved_throughout_iff {es : List SchedulerEvent} {r : SchedulerRun}
    (h : schedulerMachine.Run (fun _ _ => True) es r) :
    schedulerMachine.Throughout (fun r => r.scheduler.Conserved) es ↔
      schedulerMachine.Run MovesRequest es r := by
  refine h.throughout_iff_run (I := fun _ => True) ⟨trivial, rfl⟩ (fun _ _ _ _ _ _ _ => trivial)
    fun s e t _ hs hst => ?_
  exact Option.some.inj hst ▸ conserved_next_iff hs e

instance (s : WeightedFairScheduler) : Decidable s.Conserved :=
  inferInstanceAs (Decidable (_ = _))

/-- One of two requests is completed while the other one is queued. -/
theorem conserved_throughout_iff_halfway : ∃ es r,
    (schedulerMachine.Throughout (fun r => r.scheduler.Conserved) es ↔
      schedulerMachine.Run MovesRequest es r) ∧
    r.scheduler.getSchedulerMetrics.totalCompleted = 1 ∧
      r.scheduler.getSchedulerMetrics.totalQueued = 1 := by
  obtain ⟨r, hrun, hp⟩ := Machine.exists_run schedulerMachine (fun _ _ => True)
    [.setTenantWeight ⟨"a", .free, 1, 5, 10, 0⟩, .enqueue "a" "r1" none 0,
      .enqueue "a" "r2" none 1, .dequeue, .complete "a" "r1" 3]
    (fun r => decide (r.scheduler.getSchedulerMetrics.totalCompleted = 1) &&
      decide (r.scheduler.getSchedulerMetrics.totalQueued = 1)) (by decide +kernel)
  rw [Bool.and_eq_true, decide_eq_true_eq, decide_eq_true_eq] at hp
  exact ⟨_, r, conserved_throughout_iff hrun, hp⟩

/-- A request that is completed twice is counted twice. -/
theorem not_conserved : ¬∀ es r, schedulerMachine.Run (fun _ _ => True) es r →
    r.scheduler.Conserved := by
  intro h
  obtain ⟨r, hrun, hp⟩ := Machine.exists_run schedulerMachine (fun _ _ => True)
    [.setTenantWeight ⟨"a", .free, 1, 5, 10, 0⟩, .enqueue "a" "r1" none 0, .dequeue,
      .complete "a" "r1" 3, .complete "a" "r1" 3]
    (fun r => !decide r.scheduler.Conserved) (by decide +kernel)
  rw [Bool.not_eq_true', decide_eq_false_iff_not] at hp
  exact hp (h _ r hrun)

end Fairness

end MultiAgent
