import Mathlib.Algebra.Order.Field.Rat
import Mathlib.Algebra.Order.Ring.Cast
import Mathlib.Data.Finset.Card
import Mathlib.Data.List.MinMax
import Mathlib.Data.Prod.Lex
import MultiAgent.Lib.Dict
import MultiAgent.Lib.Machine
import MultiAgent.Lib.PyValue

/-!
# The weighted fair scheduler

`WeightedFairScheduler` of `libs/security/fairness_middleware.py`. Numbers are exact, and
`float('inf')` occurs only as the start value of the loop in `dequeue_request`. A missing
key of a `defaultdict` reads as its default.
-/

namespace MultiAgent

namespace Fairness

/-- `TenantTier`. -/
inductive TenantTier
  | free
  | standard
  | premium
  | enterprise
  deriving DecidableEq, Repr

/-- `TenantWeight`. -/
structure TenantWeight where
  tenantId : String
  tier : TenantTier
  weight : ℚ
  priority : ℤ
  maxConcurrent : ℤ
  burstCapacity : ℤ := 0
  deriving DecidableEq

/-- `FairQueueEntry`. -/
structure FairQueueEntry where
  tenantId : String
  requestId : String
  priority : ℤ
  weight : ℚ
  arrivalTime : ℚ
  processingTime : ℚ := 0
  metadata : Items := []

/-- The statistics of a tenant. -/
structure TenantStats where
  totalRequests : ℕ := 0
  completedRequests : ℕ := 0
  totalProcessingTime : ℚ := 0
  averageProcessingTime : ℚ := 0
  lastRequestTime : Option ℚ := none
  deriving DecidableEq

/-- The attributes of `WeightedFairScheduler`. -/
structure WeightedFairScheduler where
  tenantWeights : Dict String TenantWeight := .empty
  tenantQueues : Dict String (List FairQueueEntry) := .empty
  activeRequests : Dict String (Finset String) := .empty
  tenantStats : Dict String TenantStats := .empty

namespace WeightedFairScheduler

variable (s : WeightedFairScheduler)

/-- `self.tenant_queues[tenant_id]`. -/
def queue (tenantId : String) : List FairQueueEntry :=
  s.tenantQueues.getD tenantId []

/-- `self.active_requests[tenant_id]`. -/
def active (tenantId : String) : Finset String :=
  s.activeRequests.getD tenantId ∅

/-- `self.tenant_stats[tenant_id]`. -/
def stats (tenantId : String) : TenantStats :=
  s.tenantStats.getD tenantId {}

/-- `set_tenant_weight`. -/
def setTenantWeight (weight : TenantWeight) : WeightedFairScheduler :=
  { s with tenantWeights := s.tenantWeights.set weight.tenantId weight }

/-- The configuration of a tenant that passes both checks of `enqueue_request`. -/
def checkLimit (tenantId : String) : Option TenantWeight :=
  match s.tenantWeights.get? tenantId with
  | none => none
  | some weightConfig =>
    if weightConfig.maxConcurrent ≤ (s.active tenantId).card then none else some weightConfig

/-- The entry that `enqueue_request` makes. -/
def newEntry (tenantId requestId : String) (metadata : Option Items) (now : ℚ)
    (weightConfig : TenantWeight) : FairQueueEntry where
  tenantId := tenantId
  requestId := requestId
  priority := weightConfig.priority
  weight := weightConfig.weight
  arrivalTime := now
  metadata := metadata.getD []

/-- Append an entry to the queue of its tenant, and count it. -/
def accept (entry : FairQueueEntry) (now : ℚ) : WeightedFairScheduler :=
  let stats := s.stats entry.tenantId
  { s with
    tenantQueues := s.tenantQueues.set entry.tenantId (s.queue entry.tenantId ++ [entry])
    tenantStats := s.tenantStats.set entry.tenantId
      { stats with
        totalRequests := stats.totalRequests + 1
        lastRequestTime := some now } }

/-- `enqueue_request`. -/
def enqueueRequest (tenantId requestId : String) (metadata : Option Items) (now : ℚ) :
    WeightedFairScheduler × Bool :=
  match s.checkLimit tenantId with
  | none => (s, false)
  | some weightConfig =>
    (s.accept (newEntry tenantId requestId metadata now weightConfig) now, true)

/-- `best_entry`, `best_tenant` and `best_virtual_time` once a tenant was considered. -/
structure Candidate where
  bestEntry : FairQueueEntry
  bestTenant : String
  bestVirtualTime : ℚ

/-- The priority a tenant is configured with, and `0` without a configuration. -/
def priorityOf (tenantId : String) : ℤ :=
  ((s.tenantWeights.get? tenantId).map (·.priority)).getD 0

/-- The comparison in the loop. Before the first candidate `best_virtual_time` is `inf`. -/
def improves (virtualTime : ℚ) (weightConfig : TenantWeight) : Option Candidate → Bool
  | none => true
  | some best =>
    decide (virtualTime < best.bestVirtualTime) ||
      decide (virtualTime = best.bestVirtualTime) &&
        decide (weightConfig.priority < s.priorityOf best.bestTenant)

/-- One round of the loop in `dequeue_request`. -/
def consider (best : Option Candidate) (item : String × List FairQueueEntry) :
    Except ArithmeticError (Option Candidate) :=
  match item.2, s.tenantWeights.get? item.1 with
  | [], _ => .ok best
  | _ :: _, none => .ok best
  | first :: _, some weightConfig =>
    if weightConfig.weight = 0 then .error .zeroDivision
    else
      let virtualTime := (s.stats item.1).totalProcessingTime / weightConfig.weight
      if s.improves virtualTime weightConfig best then .ok (some ⟨first, item.1, virtualTime⟩)
      else .ok best

/-- `dequeue_request` : the scheduler afterwards, and the entry or the exception. -/
def dequeueRequest : WeightedFairScheduler × Except ArithmeticError (Option FairQueueEntry) :=
  match s.tenantQueues.items.foldlM s.consider none with
  | .error e => (s, .error e)
  | .ok none => (s, .ok none)
  | .ok (some best) =>
    ({ s with
        tenantQueues := s.tenantQueues.set best.bestTenant (s.queue best.bestTenant).tail
        activeRequests := s.activeRequests.set best.bestTenant
          (insert best.bestEntry.requestId (s.active best.bestTenant)) },
      .ok (some best.bestEntry))

/-- `complete_request`. -/
def completeRequest (tenantId requestId : String) (processingTime : ℚ) :
    WeightedFairScheduler :=
  let stats := s.stats tenantId
  let completed := stats.completedRequests + 1
  let total := stats.totalProcessingTime + processingTime
  { s with
    activeRequests := s.activeRequests.set tenantId ((s.active tenantId).erase requestId)
    tenantStats := s.tenantStats.set tenantId
      { stats with
        completedRequests := completed
        totalProcessingTime := total
        averageProcessingTime := total / completed } }

/-! ## The tenant whose turn it is -/

/-- The weight a tenant is configured with. -/
def weightOf (tenantId : String) : ℚ :=
  ((s.tenantWeights.get? tenantId).map (·.weight)).getD 0

/-- The processing time charged to a tenant, divided by its weight. -/
def virtualTime (tenantId : String) : ℚ :=
  (s.stats tenantId).totalProcessingTime / s.weightOf tenantId

/-- The place of a tenant in the order of service : virtual time, then priority. -/
def rank (tenantId : String) : ℚ ×ₗ ℚ :=
  toLex (s.virtualTime tenantId, (s.priorityOf tenantId : ℚ))

/-- A configured tenant with a request in its queue. -/
def Waiting (tenantId : String) : Prop :=
  s.queue tenantId ≠ [] ∧ tenantId ∈ s.tenantWeights

instance (tenantId : String) : Decidable (s.Waiting tenantId) :=
  inferInstanceAs (Decidable (_ ∧ _))

/-- The waiting tenants, in the order of the dictionary of queues. -/
def waitingTenants : List String :=
  s.tenantQueues.keys.filter fun t => s.Waiting t

/-- The first waiting tenant of least rank. -/
def nextTenant : Option String :=
  s.waitingTenants.argmin s.rank

/-- What the loop keeps when a tenant is the best so far. -/
def candidate (tenantId : String) : Option Candidate :=
  (s.queue tenantId).head?.map fun first => ⟨first, tenantId, s.virtualTime tenantId⟩

variable {s}

theorem mem_waitingTenants {t : String} : t ∈ s.waitingTenants ↔ s.Waiting t := by
  unfold waitingTenants
  rw [List.mem_filter, decide_eq_true_eq, and_iff_right_iff_imp]
  rintro ⟨hq, -⟩
  by_contra hmem
  have hnone : s.tenantQueues.get? t = none := Dict.get?_eq_none.mpr hmem
  exact hq (by simp [queue, Dict.getD, hnone])

theorem queue_of_mem_items {t : String} {q : List FairQueueEntry}
    (h : (t, q) ∈ s.tenantQueues.items) : s.queue t = q :=
  Dict.getD_of_get? (Dict.mem_items.mp h)

theorem improves_candidate {t u : String} {cfg : TenantWeight} {best : Candidate}
    (ht : s.tenantWeights.get? t = some cfg) (hu : s.candidate u = some best) :
    s.improves ((s.stats t).totalProcessingTime / cfg.weight) cfg (some best) =
      decide (s.rank t < s.rank u) := by
  obtain ⟨first, -, rfl⟩ := Option.map_eq_some_iff.mp hu
  have hv : (s.stats t).totalProcessingTime / cfg.weight = s.virtualTime t := by
    simp [virtualTime, weightOf, ht]
  have hp : cfg.priority = s.priorityOf t := by simp [priorityOf, ht]
  have hlex := Prod.Lex.toLex_lt_toLex (x := (s.virtualTime t, (s.priorityOf t : ℚ)))
    (y := (s.virtualTime u, (s.priorityOf u : ℚ)))
  simp only [Int.cast_lt] at hlex
  rw [improves, hv, hp, ← Bool.decide_and, ← Bool.decide_or]
  exact decide_eq_decide.mpr hlex.symm

/-- One round of the loop compares ranks. -/
theorem consider_candidate {t : String} (o : Option String) (ho : ∀ u ∈ o, s.Waiting u)
    (hw : s.Waiting t → s.weightOf t ≠ 0) :
    s.consider (o.bind s.candidate) (t, s.queue t) =
      .ok ((if s.Waiting t then List.argAux (fun b c => s.rank b < s.rank c) o t
        else o).bind s.candidate) := by
  unfold consider
  cases hq : s.queue t with
  | nil => simp [Waiting, hq]
  | cons first rest =>
    cases hc : s.tenantWeights.get? t with
    | none =>
      have hnot : t ∉ s.tenantWeights := Dict.get?_eq_none.mp hc
      simp [Waiting, hnot]
    | some cfg =>
      have hwait : s.Waiting t := ⟨by simp [hq], Dict.mem_of_get? hc⟩
      have hweight : cfg.weight ≠ 0 := by simpa [weightOf, hc] using hw hwait
      have hcand : s.candidate t =
          some ⟨first, t, (s.stats t).totalProcessingTime / cfg.weight⟩ := by
        simp [candidate, hq, virtualTime, weightOf, hc]
      simp only [hwait, if_true, hweight, if_false]
      cases o with
      | none => simp [improves, List.argAux, hcand]
      | some u =>
        obtain ⟨e, r, hu⟩ := List.exists_cons_of_ne_nil (ho u rfl).1
        have hbest : s.candidate u = some ⟨e, u, s.virtualTime u⟩ := by simp [candidate, hu]
        rw [Option.bind_some, hbest, improves_candidate hc hbest]
        by_cases hlt : s.rank t < s.rank u
        · simp [List.argAux, hlt, hcand]
        · simp [List.argAux, hlt, hbest]

theorem foldlM_consider {l : List (String × List FairQueueEntry)}
    (hl : ∀ i ∈ l, s.queue i.1 = i.2) (hw : ∀ t, s.Waiting t → s.weightOf t ≠ 0)
    {o : Option String} (ho : ∀ u ∈ o, s.Waiting u) :
    l.foldlM s.consider (o.bind s.candidate) =
      .ok ((((l.map Prod.fst).filter fun t => s.Waiting t).foldl
        (List.argAux fun b c => s.rank b < s.rank c) o).bind s.candidate) := by
  induction l generalizing o with
  | nil => rfl
  | cons i l ih =>
    have hi : i = (i.1, s.queue i.1) := Prod.ext rfl (hl i List.mem_cons_self).symm
    rw [List.foldlM_cons, hi, consider_candidate o ho (hw i.1)]
    have hl' : ∀ j ∈ l, s.queue j.1 = j.2 := fun j hj => hl j (List.mem_cons_of_mem _ hj)
    by_cases hwait : s.Waiting i.1
    · have hmem : ∀ u ∈ List.argAux (fun b c => s.rank b < s.rank c) o i.1, s.Waiting u := by
        intro u hu
        cases o with
        | none => exact Option.mem_some_iff.mp hu ▸ hwait
        | some v =>
          by_cases hlt : s.rank i.1 < s.rank v
          · simp only [List.argAux, hlt, if_true, Option.mem_some_iff] at hu
            exact hu ▸ hwait
          · simp only [List.argAux, hlt, if_false] at hu
            exact ho u hu
      simpa [hwait] using ih hl' hmem
    · simpa [hwait] using ih hl' ho

/-- With no waiting tenant of weight zero the loop finds the next tenant. -/
theorem foldlM_items (hw : ∀ t, s.Waiting t → s.weightOf t ≠ 0) :
    s.tenantQueues.items.foldlM s.consider none = .ok (s.nextTenant.bind s.candidate) :=
  foldlM_consider (o := none) (fun i hi => queue_of_mem_items hi) hw (by simp)

theorem consider_zero_weight {t : String} (hwait : s.Waiting t) (hzero : s.weightOf t = 0)
    (best : Option Candidate) :
    s.consider best (t, s.queue t) = .error .zeroDivision := by
  obtain ⟨cfg, hc⟩ := Dict.mem_iff_get?.mp hwait.2
  obtain ⟨first, rest, hq⟩ := List.exists_cons_of_ne_nil hwait.1
  have hweight : cfg.weight = 0 := by simpa [weightOf, hc] using hzero
  simp [consider, hq, hc, hweight]

/-- A waiting tenant of weight zero makes the loop raise. -/
theorem foldlM_zero_weight {t : String} (hwait : s.Waiting t) (hzero : s.weightOf t = 0)
    {l : List (String × List FairQueueEntry)} (hl : (t, s.queue t) ∈ l)
    (best : Option Candidate) : l.foldlM s.consider best = .error .zeroDivision := by
  induction l generalizing best with
  | nil => cases hl
  | cons i l ih =>
    rw [List.foldlM_cons]
    rcases List.mem_cons.mp hl with rfl | hl
    · rw [consider_zero_weight hwait hzero]
      rfl
    · cases hi : s.consider best i with
      | error e =>
        cases e
        rfl
      | ok next => exact ih hl next

theorem nextTenant_eq_none : s.nextTenant = none ↔ ∀ t, ¬s.Waiting t := by
  unfold nextTenant
  rw [List.argmin_eq_none, List.eq_nil_iff_forall_not_mem]
  exact forall_congr' fun t => not_congr mem_waitingTenants

/-- The next tenant is waiting, and no waiting tenant has a lower rank. -/
theorem nextTenant_spec {t : String} (h : s.nextTenant = some t) :
    s.Waiting t ∧ ∀ u, s.Waiting u → s.rank t ≤ s.rank u :=
  ⟨mem_waitingTenants.1 (List.argmin_mem h),
    fun _ hu => List.le_of_mem_argmin (mem_waitingTenants.2 hu) h⟩

variable (s) in
/-- The scheduler after the request at the head of the queue of `t` was taken. -/
def serve (t : String) (first : FairQueueEntry) : WeightedFairScheduler :=
  { s with
    tenantQueues := s.tenantQueues.set t (s.queue t).tail
    activeRequests := s.activeRequests.set t (insert first.requestId (s.active t)) }

theorem dequeueRequest_zero_weight {t : String} (hwait : s.Waiting t)
    (hzero : s.weightOf t = 0) : s.dequeueRequest = (s, .error .zeroDivision) := by
  have hmem : (t, s.queue t) ∈ s.tenantQueues.items := by
    obtain ⟨q, hq⟩ := Dict.mem_iff_get?.mp
      (List.mem_of_mem_filter (mem_waitingTenants.2 hwait) : t ∈ s.tenantQueues.keys)
    rw [Dict.mem_items, hq, queue, Dict.getD_of_get? hq]
  rw [dequeueRequest, foldlM_zero_weight hwait hzero hmem]

theorem dequeueRequest_none (h : s.nextTenant = none) : s.dequeueRequest = (s, .ok none) := by
  rw [dequeueRequest, foldlM_items fun t ht => absurd ht (nextTenant_eq_none.mp h t), h]
  rfl

theorem dequeueRequest_some (hw : ∀ t, s.Waiting t → s.weightOf t ≠ 0) {t : String}
    (h : s.nextTenant = some t) {first : FairQueueEntry} {rest : List FairQueueEntry}
    (hq : s.queue t = first :: rest) : s.dequeueRequest = (s.serve t first, .ok (some first)) := by
  have hcand : s.candidate t = some ⟨first, t, s.virtualTime t⟩ := by simp [candidate, hq]
  rw [dequeueRequest, foldlM_items hw, h, Option.bind_some, hcand]
  rfl

/-- What `dequeue_request` can do : raise, find nothing, or serve the next tenant. -/
theorem dequeueRequest_cases (s : WeightedFairScheduler) :
    (∃ t, s.Waiting t ∧ s.weightOf t = 0) ∧ s.dequeueRequest = (s, .error .zeroDivision) ∨
    s.nextTenant = none ∧ s.dequeueRequest = (s, .ok none) ∨
    (∀ t, s.Waiting t → s.weightOf t ≠ 0) ∧ ∃ t first rest, s.nextTenant = some t ∧
      s.queue t = first :: rest ∧ s.dequeueRequest = (s.serve t first, .ok (some first)) := by
  by_cases hw : ∀ t, s.Waiting t → s.weightOf t ≠ 0
  · cases h : s.nextTenant with
    | none => exact Or.inr (Or.inl ⟨rfl, dequeueRequest_none h⟩)
    | some t =>
      obtain ⟨first, rest, hq⟩ := List.exists_cons_of_ne_nil (nextTenant_spec h).1.1
      exact Or.inr (Or.inr ⟨hw, t, first, rest, rfl, hq, dequeueRequest_some hw h hq⟩)
  · push Not at hw
    obtain ⟨t, hwait, hzero⟩ := hw
    exact Or.inl ⟨⟨t, hwait, hzero⟩, dequeueRequest_zero_weight hwait hzero⟩

/-! ## What the operations leave alone -/

section Frames

variable {t u : String}

@[simp] theorem queue_empty : ({} : WeightedFairScheduler).queue t = [] := rfl

@[simp] theorem active_setTenantWeight {w : TenantWeight} :
    (s.setTenantWeight w).active u = s.active u := rfl

@[simp] theorem stats_setTenantWeight {w : TenantWeight} :
    (s.setTenantWeight w).stats u = s.stats u := rfl

theorem queue_accept {e : FairQueueEntry} {now : ℚ} :
    (s.accept e now).queue u =
      if u = e.tenantId then s.queue e.tenantId ++ [e] else s.queue u :=
  Dict.getD_set _ _ _ _ _

theorem mem_queue_accept {e x : FairQueueEntry} {now : ℚ} :
    x ∈ (s.accept e now).queue u ↔ x ∈ s.queue u ∨ u = e.tenantId ∧ x = e := by
  rw [queue_accept]
  split_ifs with h
  · simp [h]
  · simp [h]

@[simp] theorem totalProcessingTime_accept {e : FairQueueEntry} {now : ℚ} :
    ((s.accept e now).stats u).totalProcessingTime = (s.stats u).totalProcessingTime := by
  unfold stats accept
  rw [Dict.getD_set]
  split_ifs with h
  · rw [h, stats]
  · rfl

theorem queue_serve {e : FairQueueEntry} :
    (s.serve t e).queue u = if u = t then (s.queue t).tail else s.queue u :=
  Dict.getD_set _ _ _ _ _

theorem mem_of_mem_queue_serve {e x : FairQueueEntry} (h : x ∈ (s.serve t e).queue u) :
    x ∈ s.queue u := by
  rw [queue_serve] at h
  split_ifs at h with heq
  · exact heq ▸ List.mem_of_mem_tail h
  · exact h

theorem active_serve {e : FairQueueEntry} :
    (s.serve t e).active u = if u = t then insert e.requestId (s.active t) else s.active u :=
  Dict.getD_set _ _ _ _ _

theorem active_completeRequest {requestId : String} {p : ℚ} :
    (s.completeRequest t requestId p).active u =
      if u = t then (s.active t).erase requestId else s.active u :=
  Dict.getD_set _ _ _ _ _

theorem totalProcessingTime_completeRequest {requestId : String} {p : ℚ} :
    ((s.completeRequest t requestId p).stats u).totalProcessingTime =
      if u = t then (s.stats t).totalProcessingTime + p else (s.stats u).totalProcessingTime := by
  unfold stats completeRequest
  rw [Dict.getD_set]
  split_ifs <;> rfl

theorem checkLimit_eq_some {cfg : TenantWeight} : s.checkLimit t = some cfg ↔
    s.tenantWeights.get? t = some cfg ∧ ((s.active t).card : ℤ) < cfg.maxConcurrent := by
  unfold checkLimit
  cases h : s.tenantWeights.get? t with
  | none => simp
  | some c =>
    by_cases hle : c.maxConcurrent ≤ (s.active t).card
    · simp only [hle, if_true, reduceCtorEq, Option.some.injEq, false_iff, not_and, not_lt]
      rintro rfl
      exact hle
    · simp only [hle, if_false, Option.some.injEq, iff_self_and]
      rintro rfl
      exact not_le.mp hle

end Frames

end WeightedFairScheduler

/-! ## Runs -/

/-- An operation of the scheduler. -/
inductive SchedulerEvent
  | setTenantWeight (weight : TenantWeight)
  | enqueue (tenantId requestId : String) (metadata : Option Items) (now : ℚ)
  | dequeue
  | complete (tenantId requestId : String) (processingTime : ℚ)

/-- A scheduler with the entries it accepted and those it handed out, in order. -/
structure SchedulerRun where
  scheduler : WeightedFairScheduler := {}
  accepted : List FairQueueEntry := []
  dequeued : List FairQueueEntry := []

/-- The entry that an operation hands out. -/
def handedOut : Except ArithmeticError (Option FairQueueEntry) → List FairQueueEntry
  | .ok (some e) => [e]
  | .ok none => []
  | .error _ => []

/-- One operation. -/
def SchedulerRun.next (r : SchedulerRun) : SchedulerEvent → SchedulerRun
  | .setTenantWeight weight => { r with scheduler := r.scheduler.setTenantWeight weight }
  | .enqueue tenantId requestId metadata now =>
    { r with
      scheduler := (r.scheduler.enqueueRequest tenantId requestId metadata now).1
      accepted := r.accepted ++ ((r.scheduler.checkLimit tenantId).map
        (WeightedFairScheduler.newEntry tenantId requestId metadata now)).toList }
  | .dequeue =>
    { r with
      scheduler := r.scheduler.dequeueRequest.1
      dequeued := r.dequeued ++ handedOut r.scheduler.dequeueRequest.2 }
  | .complete tenantId requestId processingTime =>
    { r with scheduler := r.scheduler.completeRequest tenantId requestId processingTime }

/-- The scheduler under every order of operations. -/
def schedulerMachine : Machine SchedulerRun SchedulerEvent where
  init := {}
  step r e := some (r.next e)

end Fairness

end MultiAgent
