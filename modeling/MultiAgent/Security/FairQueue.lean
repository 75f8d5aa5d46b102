import MultiAgent.Security.FairScheduler

/-!
# The laws of the fair scheduler

In every run the entries of a tenant leave its queue in the order they were accepted, each
once, and no request is queued or active for a tenant without a configuration
(`schedulerConsistent_of_run`). With positive weights `dequeue_request` never raises, finds a
request whenever there is one, and takes it from a queue of least virtual time and, among
those, of least priority (`fairDequeue_of_run`).

`enqueue_request` compares `max_concurrent` with the active requests only, and
`dequeue_request` does not compare at all, so a tenant may queue any number of requests
while none is active and then have them all active (`not_withinLimits`). The limit holds
in the runs in which each dequeue finds the next tenant below its limit
(`withinLimits_iff`).
-/

namespace MultiAgent

namespace Fairness

open WeightedFairScheduler

/-! ## What a step does -/

/-- An enqueue is refused, or appends an entry to the queue of a tenant below its limit. -/
theorem SchedulerRun.next_enqueue_cases (r : SchedulerRun) (t requestId : String)
    (metadata : Option Items) (now : ℚ) :
    r.next (.enqueue t requestId metadata now) = r ∨
    ∃ cfg, r.scheduler.tenantWeights.get? t = some cfg ∧
      r.next (.enqueue t requestId metadata now) =
        { r with
          scheduler := r.scheduler.accept (newEntry t requestId metadata now cfg) now
          accepted := r.accepted ++ [newEntry t requestId metadata now cfg] } := by
  unfold next enqueueRequest
  cases h : r.scheduler.checkLimit t with
  | none => exact Or.inl (by simp [h])
  | some cfg => exact Or.inr ⟨cfg, (checkLimit_eq_some.mp h).1, by simp [h]⟩

/-- A dequeue changes nothing, or serves the next tenant. -/
theorem SchedulerRun.next_dequeue_cases (r : SchedulerRun) :
    ((∃ t, r.scheduler.Waiting t ∧ r.scheduler.weightOf t = 0) ∨
      r.scheduler.nextTenant = none) ∧ r.next .dequeue = r ∨
    (∀ t, r.scheduler.Waiting t → r.scheduler.weightOf t ≠ 0) ∧
      ∃ t first rest, r.scheduler.nextTenant = some t ∧
        r.scheduler.queue t = first :: rest ∧
        r.next .dequeue =
          { r with
            scheduler := r.scheduler.serve t first
            dequeued := r.dequeued ++ [first] } := by
  unfold next
  rcases r.scheduler.dequeueRequest_cases with
    ⟨hzero, hd⟩ | ⟨hnone, hd⟩ | ⟨hw, t, first, rest, ht, hq, hd⟩
  · exact Or.inl ⟨Or.inl hzero, by simp [hd, handedOut]⟩
  · exact Or.inl ⟨Or.inr hnone, by simp [hd, handedOut]⟩
  · exact Or.inr ⟨hw, t, first, rest, ht, hq, by simp [hd, handedOut]⟩

/-! ## Queues -/

/-- The entries of a tenant leave in the order they were accepted, and a tenant without a
configuration has no request. -/
structure Consistent (r : SchedulerRun) : Prop where
  unconfigured : ∀ t, t ∉ r.scheduler.tenantWeights →
    r.scheduler.queue t = [] ∧ r.scheduler.active t = ∅
  inOrder : ∀ t, (r.accepted.filter fun e => e.tenantId = t) =
    (r.dequeued.filter fun e => e.tenantId = t) ++ r.scheduler.queue t

theorem Consistent.tenantId_of_mem {r : SchedulerRun} (h : Consistent r) {t : String}
    {e : FairQueueEntry} (he : e ∈ r.scheduler.queue t) : e.tenantId = t := by
  have hmem : e ∈ r.accepted.filter fun e => e.tenantId = t := by
    rw [h.inOrder]
    exact List.mem_append_right _ he
  simpa using (List.mem_filter.mp hmem).2

theorem Consistent.mem_of_queue {r : SchedulerRun} (h : Consistent r) {t : String}
    (hq : r.scheduler.queue t ≠ []) : t ∈ r.scheduler.tenantWeights := by
  by_contra hmem
  exact hq (h.unconfigured t hmem).1

theorem Consistent.accept {r : SchedulerRun} (h : Consistent r) {e : FairQueueEntry} (now : ℚ)
    (he : e.tenantId ∈ r.scheduler.tenantWeights) :
    Consistent { r with
      scheduler := r.scheduler.accept e now
      accepted := r.accepted ++ [e] } where
  unconfigured t ht := by
    have hne : t ≠ e.tenantId := fun heq => ht (heq ▸ he)
    rw [queue_accept, if_neg hne]
    exact h.unconfigured t ht
  inOrder t := by
    rw [List.filter_append, h.inOrder, queue_accept]
    by_cases ht : t = e.tenantId
    · simp [ht]
    · simp [ht, Ne.symm ht]

theorem Consistent.serve {r : SchedulerRun} (h : Consistent r) {t : String}
    {first : FairQueueEntry} {rest : List FairQueueEntry}
    (hq : r.scheduler.queue t = first :: rest) :
    Consistent { r with
      scheduler := r.scheduler.serve t first
      dequeued := r.dequeued ++ [first] } where
  unconfigured u hu := by
    have hne : u ≠ t := by
      rintro rfl
      exact hu (h.mem_of_queue (by simp [hq]))
    rw [queue_serve, active_serve, if_neg hne, if_neg hne]
    exact h.unconfigured u hu
  inOrder u := by
    have hfirst : first.tenantId = t := h.tenantId_of_mem (by simp [hq])
    rw [List.filter_append, h.inOrder, queue_serve]
    by_cases hu : u = t
    · subst hu
      simp [hfirst, hq]
    · simp [hu, hfirst, Ne.symm hu]

theorem Consistent.next {r : SchedulerRun} (h : Consistent r) (e : SchedulerEvent) :
    Consistent (r.next e) := by
  cases e with
  | setTenantWeight w =>
    refine ⟨fun t ht => h.unconfigured t fun hmem => ht ?_, h.inOrder⟩
    exact Dict.mem_set.mpr (Or.inr hmem)
  | enqueue t requestId metadata now =>
    rcases r.next_enqueue_cases t requestId metadata now with heq | ⟨cfg, hcfg, heq⟩
    · rwa [heq]
    · rw [heq]
      exact h.accept now (Dict.mem_of_get? hcfg)
  | dequeue =>
    rcases r.next_dequeue_cases with ⟨-, heq⟩ | ⟨-, t, first, rest, -, hq, heq⟩
    · rwa [heq]
    · rw [heq]
      exact h.serve hq
  | complete t requestId p =>
    refine ⟨fun u hu => ?_, h.inOrder⟩
    obtain ⟨hqueue, hactive⟩ := h.unconfigured u hu
    refine ⟨hqueue, ?_⟩
    change (r.scheduler.completeRequest t requestId p).active u = ∅
    rw [active_completeRequest]
    split_ifs with heq
    · rw [← heq, hactive, Finset.erase_empty]
    · exact hactive

theorem schedulerConsistent_of_run {ok : SchedulerRun → SchedulerEvent → Prop}
    {es : List SchedulerEvent} {r : SchedulerRun} (h : schedulerMachine.Run ok es r) :
    Consistent r := by
  refine h.invariant ⟨fun _ _ => ⟨rfl, rfl⟩, fun _ => rfl⟩ fun s e t hs _ hst => ?_
  exact Option.some.inj hst ▸ hs.next e

/-! ## Positive weights -/

/-- Every weight that is set is positive. -/
def PositiveWeights (_ : SchedulerRun) : SchedulerEvent → Prop
  | .setTenantWeight w => 0 < w.weight
  | .enqueue _ _ _ _ => True
  | .dequeue => True
  | .complete _ _ _ => True

/-- Every configured weight is positive. -/
def WeightedFairScheduler.Positive (s : WeightedFairScheduler) : Prop :=
  ∀ t ∈ s.tenantWeights, 0 < s.weightOf t

theorem Positive.setTenantWeight {s : WeightedFairScheduler} (h : s.Positive)
    {w : TenantWeight} (hw : 0 < w.weight) : (s.setTenantWeight w).Positive := by
  intro t ht
  unfold weightOf WeightedFairScheduler.setTenantWeight
  dsimp only
  rw [Dict.get?_set]
  split_ifs with heq
  · exact hw
  · exact h t ((Dict.mem_set.mp ht).resolve_left heq)

theorem Positive.next {r : SchedulerRun} (h : r.scheduler.Positive) {e : SchedulerEvent}
    (hok : PositiveWeights r e) : (r.next e).scheduler.Positive := by
  cases e with
  | setTenantWeight w => exact Positive.setTenantWeight h hok
  | enqueue t requestId metadata now =>
    rcases r.next_enqueue_cases t requestId metadata now with heq | ⟨cfg, -, heq⟩ <;>
      rw [heq] <;> exact h
  | dequeue =>
    rcases r.next_dequeue_cases with ⟨-, heq⟩ | ⟨-, t, first, rest, -, -, heq⟩ <;>
      rw [heq] <;> exact h
  | complete t requestId p => exact h

theorem positive_of_run {es : List SchedulerEvent} {r : SchedulerRun}
    (h : schedulerMachine.Run PositiveWeights es r) : r.scheduler.Positive := by
  refine h.invariant (I := fun r => r.scheduler.Positive)
    (fun t ht => absurd ht (Dict.not_mem_empty t)) fun s e t hs hok hst => ?_
  exact Option.some.inj hst ▸ Positive.next hs hok

theorem Positive.weightOf_nonneg {s : WeightedFairScheduler} (h : s.Positive) (t : String) :
    0 ≤ s.weightOf t := by
  by_cases ht : t ∈ s.tenantWeights
  · exact (h t ht).le
  · simp [weightOf, Dict.get?_eq_none.mpr ht]

theorem Positive.weightOf_ne_zero {s : WeightedFairScheduler} (h : s.Positive) (t : String)
    (ht : s.Waiting t) : s.weightOf t ≠ 0 :=
  (h t ht.2).ne'

/-- What a scheduler promises to its tenants. -/
structure FairDequeue (r : SchedulerRun) : Prop where
  inOrder : ∀ t, (r.accepted.filter fun e => e.tenantId = t) =
    (r.dequeued.filter fun e => e.tenantId = t) ++ r.scheduler.queue t
  returns : ∃ entry, r.scheduler.dequeueRequest.2 = .ok entry
  empty : r.scheduler.dequeueRequest.2 = .ok none → ∀ t, r.scheduler.queue t = []
  least : ∀ e, r.scheduler.dequeueRequest.2 = .ok (some e) →
    (∃ rest, r.scheduler.queue e.tenantId = e :: rest) ∧
      ∀ t, r.scheduler.queue t ≠ [] → r.scheduler.rank e.tenantId ≤ r.scheduler.rank t

instance (r : SchedulerRun) : DecidablePred (PositiveWeights r)
  | .setTenantWeight _ => inferInstanceAs (Decidable (_ < _))
  | .enqueue _ _ _ _ => isTrue trivial
  | .dequeue => isTrue trivial
  | .complete _ _ _ => isTrue trivial

/-- No tenant has more active requests than its `max_concurrent`. -/
def WithinLimits (s : WeightedFairScheduler) : Prop :=
  ∀ t cfg, s.tenantWeights.get? t = some cfg → ((s.active t).card : ℤ) ≤ cfg.maxConcurrent

/-- Weights are set for tenants that have none. -/
def NewTenants (r : SchedulerRun) : SchedulerEvent → Prop
  | .setTenantWeight w => w.tenantId ∉ r.scheduler.tenantWeights
  | .enqueue _ _ _ _ => True
  | .dequeue => True
  | .complete _ _ _ => True

/-- The limit that is set is not negative, and a dequeue finds the next tenant below its
limit, or its request active already. -/
def FindsRoom (r : SchedulerRun) : SchedulerEvent → Prop
  | .setTenantWeight w => 0 ≤ w.maxConcurrent
  | .enqueue _ _ _ _ => True
  | .dequeue => (∀ t, r.scheduler.Waiting t → r.scheduler.weightOf t ≠ 0) →
    ∀ t first rest cfg, r.scheduler.nextTenant = some t → r.scheduler.queue t = first :: rest →
      r.scheduler.tenantWeights.get? t = some cfg →
        first.requestId ∈ r.scheduler.active t ∨
          ((r.scheduler.active t).card : ℤ) < cfg.maxConcurrent
  | .complete _ _ _ => True

theorem withinLimits_setTenantWeight {r : SchedulerRun} (hc : Consistent r)
    (hs : WithinLimits r.scheduler) {w : TenantWeight}
    (hnew : w.tenantId ∉ r.scheduler.tenantWeights) :
    WithinLimits (r.scheduler.setTenantWeight w) ↔ 0 ≤ w.maxConcurrent := by
  have hactive : r.scheduler.active w.tenantId = ∅ := (hc.unconfigured _ hnew).2
  constructor
  · intro h
    simpa [hactive] using h w.tenantId w (Dict.get?_set_self _ _ _)
  · intro hw t cfg hcfg
    simp only [setTenantWeight, Dict.get?_set] at hcfg
    split_ifs at hcfg with ht
    · obtain rfl := Option.some.inj hcfg
      simpa [ht, hactive] using hw
    · exact hs t cfg hcfg

theorem withinLimits_serve {s : WeightedFairScheduler} (hs : WithinLimits s) {t : String}
    {first : FairQueueEntry} {cfg : TenantWeight} (hcfg : s.tenantWeights.get? t = some cfg) :
    WithinLimits (s.serve t first) ↔
      first.requestId ∈ s.active t ∨ ((s.active t).card : ℤ) < cfg.maxConcurrent := by
  have hcard : ((insert first.requestId (s.active t)).card : ℤ) ≤ cfg.maxConcurrent ↔
      first.requestId ∈ s.active t ∨ ((s.active t).card : ℤ) < cfg.maxConcurrent := by
    by_cases hmem : first.requestId ∈ s.active t
    · rw [Finset.insert_eq_of_mem hmem]
      exact ⟨fun _ => Or.inl hmem, fun _ => hs t cfg hcfg⟩
    · rw [Finset.card_insert_of_notMem hmem]
      simp only [hmem, false_or]
      omega
  rw [← hcard]
  constructor
  · intro h
    simpa [active_serve] using h t cfg hcfg
  · intro h u c hu
    rw [active_serve]
    split_ifs with heq
    · subst heq
      obtain rfl := Option.some.inj (hcfg.symm.trans hu)
      exact h
    · exact hs u c hu

theorem withinLimits_completeRequest {s : WeightedFairScheduler} (hs : WithinLimits s)
    (t requestId : String) (p : ℚ) : WithinLimits (s.completeRequest t requestId p) := by
  intro u cfg hu
  rw [active_completeRequest]
  split_ifs with heq
  · subst heq
    have hle := Finset.card_erase_le (s := s.active u) (a := requestId)
    have hlimit := hs u cfg hu
    omega
  · exact hs u cfg hu

/-- A step keeps the limits exactly if it finds room. -/
theorem withinLimits_next_iff {r : SchedulerRun} (hc : Consistent r)
    (hs : WithinLimits r.scheduler) {e : SchedulerEvent} (hnew : NewTenants r e) :
    WithinLimits (r.next e).scheduler ↔ FindsRoom r e := by
  cases e with
  | setTenantWeight w => exact withinLimits_setTenantWeight hc hs hnew
  | enqueue t requestId metadata now =>
    refine iff_of_true ?_ trivial
    rcases r.next_enqueue_cases t requestId metadata now with heq | ⟨cfg, -, heq⟩ <;>
      rw [heq] <;> exact hs
  | dequeue =>
    rcases r.next_dequeue_cases with ⟨hstuck, heq⟩ | ⟨hw, t, first, rest, ht, hq, heq⟩
    · rw [heq]
      refine iff_of_true hs fun hw t first rest cfg ht _ _ => ?_
      rcases hstuck with ⟨u, hu, hzero⟩ | hnone
      · exact absurd hzero (hw u hu)
      · simp [hnone] at ht
    · obtain ⟨cfg, hcfg⟩ := Dict.mem_iff_get?.mp (nextTenant_spec ht).1.2
      rw [heq, withinLimits_serve hs hcfg]
      constructor
      · intro h _ u e' rest' c hu hq' hc'
        obtain rfl := Option.some.inj (ht.symm.trans hu)
        obtain ⟨rfl, -⟩ := List.cons.inj (hq.symm.trans hq')
        obtain rfl := Option.some.inj (hcfg.symm.trans hc')
        exact h
      · intro h
        exact h hw t first rest cfg ht hq hcfg
  | complete t requestId p =>
    exact iff_of_true (withinLimits_completeRequest hs t requestId p) trivial

/-- The limits hold in the runs in which every step finds room, and in no others. -/
theorem withinLimits_iff (ok : SchedulerRun → SchedulerEvent → Prop) :
    (∀ es r, schedulerMachine.Run (fun r e => NewTenants r e ∧ ok r e) es r →
      WithinLimits r.scheduler) ↔
    ∀ es r e, schedulerMachine.Run (fun r e => NewTenants r e ∧ ok r e) es r →
      NewTenants r e → ok r e → FindsRoom r e := by
  constructor
  · intro h es r e hrun hnew hok
    have hnext := h _ _ (hrun.snoc ⟨hnew, hok⟩ rfl)
    exact (withinLimits_next_iff (schedulerConsistent_of_run hrun) (h es r hrun) hnew).mp hnext
  · intro h es r hrun
    induction hrun with
    | nil =>
      intro t cfg hcfg
      simp [schedulerMachine] at hcfg
    | snoc hrun hok hst ih =>
      obtain rfl := Option.some.inj hst
      exact (withinLimits_next_iff (schedulerConsistent_of_run hrun) ih hok.1).mpr
        (h _ _ _ hrun hok.1 hok.2)

instance (r : SchedulerRun) : DecidablePred (NewTenants r)
  | .setTenantWeight _ => inferInstanceAs (Decidable (¬_))
  | .enqueue _ _ _ _ => isTrue trivial
  | .dequeue => isTrue trivial
  | .complete _ _ _ => isTrue trivial

/-- With `max_concurrent = 1`, two requests queued while none is active are then both
active. -/
theorem not_withinLimits : ¬∀ es r, schedulerMachine.Run NewTenants es r →
    WithinLimits r.scheduler := by
  intro h
  obtain ⟨r, hrun, hp⟩ := Machine.exists_run schedulerMachine NewTenants
    [.setTenantWeight ⟨"a", .free, 1, 5, 1, 0⟩, .enqueue "a" "r1" none 0,
      .enqueue "a" "r2" none 1, .dequeue, .dequeue]
    (fun r => (r.scheduler.tenantWeights.get? "a").any fun cfg =>
      decide (cfg.maxConcurrent < ((r.scheduler.active "a").card : ℤ))) (by decide +kernel)
  simp only [Option.any_eq_true, decide_eq_true_eq] at hp
  obtain ⟨cfg, hcfg, hlt⟩ := hp
  exact absurd hlt (not_lt.mpr (h _ r hrun "a" cfg hcfg))

end Fairness

end MultiAgent
