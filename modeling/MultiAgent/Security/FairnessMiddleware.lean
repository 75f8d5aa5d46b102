import MultiAgent.Security.FairQueue

/-!
# The fairness middleware

`PreAdmissionControl` and `FairnessMiddleware` of `libs/security/fairness_middleware.py`.

The queues are kept by tenant, and `degradation_switches` by request id alone. A request
is returned with the configuration computed for it as long as requests that wait under one
id are all undegraded, and no completion is reported for an id under which a degraded
request waits (`ownConfig_of_noClash`). Otherwise one tenant's request takes the
configuration of another's (`not_ownConfig`).
-/

namespace MultiAgent

namespace Fairness

/-- `DegradationLevel`. -/
inductive DegradationLevel
  | normal
  | light
  | moderate
  | heavy
  deriving DecidableEq, Repr

/-- `DegradationConfig`. -/
structure DegradationConfig where
  level : DegradationLevel
  disableCritique : Bool := false
  disableDebate : Bool := false
  shrinkContext : Bool := false
  preferSlm : Bool := false
  reduceParallelism : Bool := false
  limitToolCalls : Bool := false
  deriving DecidableEq, Repr

/-- `_get_degradation_configs`, as the lookup in `degradation_configs`. -/
def degradationConfigs : DegradationLevel → DegradationConfig
  | .normal => { level := .normal }
  | .light => { level := .light, preferSlm := true, reduceParallelism := true }
  | .moderate =>
    { level := .moderate, disableCritique := true, shrinkContext := true, preferSlm := true,
      reduceParallelism := true }
  | .heavy =>
    { level := .heavy, disableCritique := true, disableDebate := true, shrinkContext := true,
      preferSlm := true, reduceParallelism := true, limitToolCalls := true }

@[simp] theorem level_degradationConfigs (level : DegradationLevel) :
    (degradationConfigs level).level = level := by
  cases level <;> rfl

/-- The thresholds of `PreAdmissionControl`, with the defaults of `__init__`. -/
structure PreAdmissionControl where
  systemLoadThreshold : ℚ := 4 / 5
  cpuThreshold : ℚ := 17 / 20
  memoryThreshold : ℚ := 9 / 10
  queueSizeThreshold : ℚ := 1000
  deriving DecidableEq

/-- `system_metrics`. -/
abbrev SystemMetrics := Dict String ℚ

/-- `tenant_tier in ["free", "standard"]`. -/
def lowPriorityTier : PyValue → Bool
  | .str tier => tier = "free" || tier = "standard"
  | .null => false
  | .bool _ => false
  | .int _ => false
  | .float _ => false
  | .arr _ => false
  | .obj _ => false

namespace PreAdmissionControl

variable (c : PreAdmissionControl)

/-- The level that load, cpu and memory ask for. -/
def loadLevel (systemLoad cpuUsage memoryUsage : ℚ) : DegradationLevel :=
  if c.systemLoadThreshold < systemLoad ∨ c.cpuThreshold < cpuUsage ∨
      c.memoryThreshold < memoryUsage then
    if 19 / 20 < systemLoad ∨ 19 / 20 < cpuUsage ∨ 19 / 20 < memoryUsage then .heavy
    else if 9 / 10 < systemLoad ∨ 9 / 10 < cpuUsage ∨ 19 / 20 < memoryUsage then .moderate
    else .light
  else .normal

/-- The level after the queue size was looked at. -/
def queueLevel (queueSize : ℚ) (level : DegradationLevel) : DegradationLevel :=
  if c.queueSizeThreshold < queueSize then
    match level with
    | .normal => .light
    | .light => .moderate
    | .moderate => .moderate
    | .heavy => .heavy
  else level

/-- `check_admission`. -/
def checkAdmission (requestMetadata : Items) (systemMetrics : SystemMetrics) :
    Bool × DegradationConfig × String :=
  let queueSize := systemMetrics.getD "queue_size" 0
  let level := c.queueLevel queueSize
    (c.loadLevel (systemMetrics.getD "system_load" 0) (systemMetrics.getD "cpu_usage" 0)
      (systemMetrics.getD "memory_usage" 0))
  let tenantTier := (requestMetadata.field "tenant_tier").getD (.str "free")
  let (shouldAdmit, reason) :=
    if level = .heavy ∧ lowPriorityTier tenantTier = true then
      (false, "system_overload_low_priority_rejected")
    else (true, "admitted")
  let (shouldAdmit, reason) :=
    if c.queueSizeThreshold * (3 / 2) < queueSize then (false, "queue_full")
    else (shouldAdmit, reason)
  (shouldAdmit, degradationConfigs level, reason)

/-- `update_thresholds`. -/
def updateThresholds (systemLoad cpu memory queueSize : Option ℚ) : PreAdmissionControl where
  systemLoadThreshold := systemLoad.getD c.systemLoadThreshold
  cpuThreshold := cpu.getD c.cpuThreshold
  memoryThreshold := memory.getD c.memoryThreshold
  queueSizeThreshold := queueSize.getD c.queueSizeThreshold

/-- The configuration of an admission is that of its level. -/
theorem checkAdmission_config (requestMetadata : Items) (systemMetrics : SystemMetrics) :
    (c.checkAdmission requestMetadata systemMetrics).2.1 =
      degradationConfigs (c.checkAdmission requestMetadata systemMetrics).2.1.level := by
  unfold checkAdmission
  dsimp only
  rw [level_degradationConfigs]

end PreAdmissionControl

/-- The attributes of `FairnessMiddleware`. -/
structure FairnessMiddleware where
  scheduler : WeightedFairScheduler := {}
  admissionControl : PreAdmissionControl := {}
  degradationSwitches : Dict String DegradationConfig := .empty
  totalRequests : ℕ := 0
  admittedRequests : ℕ := 0
  rejectedRequests : ℕ := 0
  degradedRequests : ℕ := 0

/-- `tier_weights`. -/
def tierWeights : TenantTier → ℚ
  | .free => 1
  | .standard => 2
  | .premium => 4
  | .enterprise => 8

namespace FairnessMiddleware

variable (m : FairnessMiddleware)

/-- `set_tenant_config`. -/
def setTenantConfig (tenantId : String) (tier : TenantTier) (maxConcurrent priority : ℤ) :
    FairnessMiddleware :=
  let weight : TenantWeight :=
    { tenantId := tenantId
      tier := tier
      weight := tierWeights tier
      priority := priority
      maxConcurrent := maxConcurrent }
  { m with scheduler := m.scheduler.setTenantWeight weight }

/-- The end of `process_request` for a request that is in its queue. -/
def recordDegradation (requestId : String) (config : DegradationConfig) : FairnessMiddleware :=
  if config.level ≠ .normal then
    { m with
      degradedRequests := m.degradedRequests + 1
      degradationSwitches := m.degradationSwitches.set requestId config }
  else m

/-- `process_request`. -/
def processRequest (tenantId requestId : String) (requestMetadata : Items)
    (systemMetrics : SystemMetrics) (now : ℚ) :
    FairnessMiddleware × Bool × DegradationConfig × String :=
  let m := { m with totalRequests := m.totalRequests + 1 }
  let (shouldAdmit, degradationConfig, reason) :=
    m.admissionControl.checkAdmission requestMetadata systemMetrics
  if shouldAdmit then
    let (scheduler, enqueued) :=
      m.scheduler.enqueueRequest tenantId requestId (some requestMetadata) now
    if enqueued then
      let m :=
        { m with scheduler := scheduler, admittedRequests := m.admittedRequests + 1 }
      (m.recordDegradation requestId degradationConfig, true, degradationConfig, reason)
    else
      ({ m with scheduler := scheduler, rejectedRequests := m.rejectedRequests + 1 }, false,
        degradationConfig, "tenant_limit_exceeded")
  else
    ({ m with rejectedRequests := m.rejectedRequests + 1 }, false, degradationConfig, reason)

/-- `get_next_request`. -/
def getNextRequest :
    FairnessMiddleware × Except ArithmeticError (Option (FairQueueEntry × DegradationConfig)) :=
  match m.scheduler.dequeueRequest with
  | (scheduler, .error e) => ({ m with scheduler := scheduler }, .error e)
  | (scheduler, .ok none) => ({ m with scheduler := scheduler }, .ok none)
  | (scheduler, .ok (some entry)) =>
    ({ m with
        scheduler := scheduler
        degradationSwitches := m.degradationSwitches.erase entry.requestId },
      .ok (some (entry, m.degradationSwitches.getD entry.requestId (degradationConfigs .normal))))

/-- `complete_request`. -/
def completeRequest (tenantId requestId : String) (processingTime : ℚ) : FairnessMiddleware :=
  { m with
    scheduler := m.scheduler.completeRequest tenantId requestId processingTime
    degradationSwitches := m.degradationSwitches.erase requestId }

end FairnessMiddleware

/-! ## Runs -/

/-- An operation of the middleware. -/
inductive MiddlewareEvent
  | setTenantConfig (tenantId : String) (tier : TenantTier) (maxConcurrent priority : ℤ)
  | updateThresholds (systemLoad cpu memory queueSize : Option ℚ)
  | process (tenantId requestId : String) (requestMetadata : Items)
      (systemMetrics : SystemMetrics) (now : ℚ)
  | getNext
  | complete (tenantId requestId : String) (processingTime : ℚ)

/-- A middleware with the requests it was given, the configuration it computed for each
request it admitted, and what `get_next_request` returned. -/
structure MiddlewareRun where
  middleware : FairnessMiddleware := {}
  submitted : List (String × String) := []
  computed : Dict (String × String) DegradationConfig := .empty
  delivered : List (FairQueueEntry × DegradationConfig) := []

/-- What a call of `get_next_request` returned with an entry. -/
def deliveredBy : Except ArithmeticError (Option (FairQueueEntry × DegradationConfig)) →
    List (FairQueueEntry × DegradationConfig)
  | .ok (some d) => [d]
  | .ok none => []
  | .error _ => []

/-- One operation. -/
def MiddlewareRun.next (r : MiddlewareRun) : MiddlewareEvent → MiddlewareRun
  | .setTenantConfig tenantId tier maxConcurrent priority =>
    { r with middleware := r.middleware.setTenantConfig tenantId tier maxConcurrent priority }
  | .updateThresholds systemLoad cpu memory queueSize =>
    { r with middleware := { r.middleware with admissionControl :=
      r.middleware.admissionControl.updateThresholds systemLoad cpu memory queueSize } }
  | .process tenantId requestId requestMetadata systemMetrics now =>
    let (middleware, admitted, config, _) :=
      r.middleware.processRequest tenantId requestId requestMetadata systemMetrics now
    { r with
      middleware := middleware
      submitted := (tenantId, requestId) :: r.submitted
      computed := if admitted then r.computed.set (tenantId, requestId) config
        else r.computed }
  | .getNext =>
    { r with
      middleware := r.middleware.getNextRequest.1
      delivered := r.delivered ++ deliveredBy r.middleware.getNextRequest.2 }
  | .complete tenantId requestId processingTime =>
    { r with middleware := r.middleware.completeRequest tenantId requestId processingTime }

/-- The middleware under every order of operations. -/
def middlewareMachine : Machine MiddlewareRun MiddlewareEvent where
  init := {}
  step r e := some (r.next e)

/-- No pair of tenant and request is submitted twice. -/
def UniquePairs (r : MiddlewareRun) : MiddlewareEvent → Prop
  | .setTenantConfig _ _ _ _ => True
  | .updateThresholds _ _ _ _ => True
  | .process tenantId requestId _ _ _ => (tenantId, requestId) ∉ r.submitted
  | .getNext => True
  | .complete _ _ _ => True

/-- Every entry was returned with the configuration computed when it was admitted. -/
def OwnConfig (r : MiddlewareRun) : Prop :=
  ∀ d ∈ r.delivered, r.computed.get? (d.1.tenantId, d.1.requestId) = some d.2

/-! ## What the operations do to the queues and the table -/

namespace FairnessMiddleware

variable (m : FairnessMiddleware)

/-- The table after a request was admitted. -/
def switchesAfter (requestId : String) (config : DegradationConfig) :
    Dict String DegradationConfig :=
  if config.level ≠ .normal then m.degradationSwitches.set requestId config
  else m.degradationSwitches

/-- A request is admitted if it passes both checks. -/
def Accepts (tenantId : String) (requestMetadata : Items) (systemMetrics : SystemMetrics) :
    Prop :=
  (m.admissionControl.checkAdmission requestMetadata systemMetrics).1 = true ∧
    (m.scheduler.checkLimit tenantId).isSome

/-- A request is refused, with queues and table unchanged, or is queued and its
configuration stored unless it is the normal one. -/
theorem processRequest_cases (t requestId : String) (md : Items) (metrics : SystemMetrics)
    (now : ℚ) :
    let result := m.processRequest t requestId md metrics now
    let config := (m.admissionControl.checkAdmission md metrics).2.1
    result.2.1 = false ∧ result.1.scheduler = m.scheduler ∧
      result.1.degradationSwitches = m.degradationSwitches ∨
    m.Accepts t md metrics ∧ ∃ cfg,
      result.2.1 = true ∧ result.2.2.1 = config ∧
      result.1.scheduler = m.scheduler.accept
        (WeightedFairScheduler.newEntry t requestId (some md) now cfg) now ∧
      result.1.degradationSwitches = m.switchesAfter requestId config := by
  unfold processRequest WeightedFairScheduler.enqueueRequest Accepts switchesAfter
  cases hadm : (m.admissionControl.checkAdmission md metrics).1 with
  | false => exact Or.inl (by simp [hadm])
  | true =>
    cases hlimit : m.scheduler.checkLimit t with
    | none => exact Or.inl (by simp [hadm, hlimit])
    | some cfg =>
      refine Or.inr ⟨⟨rfl, rfl⟩, cfg, ?_⟩
      simp only [hadm, hlimit, if_true, recordDegradation, true_and]
      split_ifs <;> exact ⟨rfl, rfl⟩

end FairnessMiddleware

/-! ## Table and queues in step -/

namespace MiddlewareRun

variable (r : MiddlewareRun)

/-- The requests that wait in the queue of a tenant. -/
def waiting (tenantId : String) : List FairQueueEntry :=
  r.middleware.scheduler.queue tenantId

/-- The request was admitted without degradation. -/
def Undegraded (tenantId requestId : String) : Prop :=
  r.computed.get? (tenantId, requestId) = some (degradationConfigs .normal)

end MiddlewareRun

/-- Requests that wait under one id are all undegraded : an admission finds no request
waiting under its id unless neither is degraded, and no completion is reported for an id
under which a degraded request waits. -/
def NoClash (r : MiddlewareRun) : MiddlewareEvent → Prop
  | .setTenantConfig _ _ _ _ => True
  | .updateThresholds _ _ _ _ => True
  | .process tenantId requestId requestMetadata systemMetrics _ =>
    r.middleware.Accepts tenantId requestMetadata systemMetrics →
      ∀ u, ∀ e ∈ r.waiting u, e.requestId = requestId →
        (r.middleware.admissionControl.checkAdmission requestMetadata
          systemMetrics).2.1.level = .normal ∧ r.Undegraded u requestId
  | .getNext => True
  | .complete _ requestId _ =>
    ∀ u, ∀ e ∈ r.waiting u, e.requestId = requestId → r.Undegraded u requestId

/-- The table holds, for each waiting request, what was computed for it. -/
structure InStep (r : MiddlewareRun) : Prop where
  owned : ∀ t, ∀ e ∈ r.waiting t, e.tenantId = t
  submitted : ∀ t, ∀ e ∈ r.waiting t, (t, e.requestId) ∈ r.submitted
  distinct : ∀ t, ((r.waiting t).map (·.requestId)).Nodup
  table : ∀ t, ∀ e ∈ r.waiting t, r.computed.get? (t, e.requestId) =
    some (r.middleware.degradationSwitches.getD e.requestId (degradationConfigs .normal))
  sole : ∀ id c, r.middleware.degradationSwitches.get? id = some c →
    c.level ≠ .normal ∧ ∃ t, (∃ e ∈ r.waiting t, e.requestId = id) ∧
      ∀ u, ∀ e ∈ r.waiting u, e.requestId = id → u = t
  known : ∀ k ∈ r.computed, k ∈ r.submitted
  own : OwnConfig r

section InStep

variable {r : MiddlewareRun}

/-- An id under which only undegraded requests wait is not in the table. -/
theorem InStep.switches_eq_none (h : InStep r) {id : String}
    (hund : ∀ u, ∀ e ∈ r.waiting u, e.requestId = id → r.Undegraded u id) :
    r.middleware.degradationSwitches.get? id = none := by
  cases hget : r.middleware.degradationSwitches.get? id with
  | none => rfl
  | some c =>
    obtain ⟨hlevel, t, ⟨e, he, rfl⟩, -⟩ := h.sole id c hget
    have hnormal := hund t e he rfl
    have htable := h.table t e he
    rw [Dict.getD_of_get? hget] at htable
    obtain rfl := Option.some.inj (htable.symm.trans hnormal)
    simp at hlevel

/-- What the new table holds for the request that was admitted. -/
theorem InStep.getD_switchesAfter (h : InStep r) {id : String} {c : DegradationConfig}
    (hc : c = degradationConfigs c.level)
    (hclash : ∀ u, ∀ x ∈ r.waiting u, x.requestId = id → c.level = .normal ∧ r.Undegraded u id) :
    (r.middleware.switchesAfter id c).getD id (degradationConfigs .normal) = c := by
  unfold FairnessMiddleware.switchesAfter
  split_ifs with hlevel
  · rw [Dict.getD_set_self]
  · have hnone := h.switches_eq_none fun u x hx hid => (hclash u x hx hid).2
    rw [Dict.getD, hnone, hc, not_not.mp hlevel]
    rfl

theorem getD_switchesAfter_ne {m : FairnessMiddleware} {id id' : String} (hne : id' ≠ id)
    (c d : DegradationConfig) :
    (m.switchesAfter id c).getD id' d = m.degradationSwitches.getD id' d := by
  unfold FairnessMiddleware.switchesAfter
  split_ifs
  · rw [Dict.getD_set_ne _ _ _ hne]
  · rfl

/-- An entry of the new table is the admitted request's, or was there before. -/
theorem get?_switchesAfter_cases {m : FairnessMiddleware} {id id' : String}
    {c d : DegradationConfig} (h : (m.switchesAfter id c).get? id' = some d) :
    id' = id ∧ c.level ≠ .normal ∧ d = c ∨
      m.degradationSwitches.get? id' = some d ∧ (id' = id → c.level = .normal) := by
  unfold FairnessMiddleware.switchesAfter at h
  split_ifs at h with hlevel
  · rw [Dict.get?_set] at h
    split_ifs at h with hid
    · exact Or.inl ⟨hid, hlevel, (Option.some.inj h).symm⟩
    · exact Or.inr ⟨h, fun heq => absurd heq hid⟩
  · exact Or.inr ⟨h, fun _ => not_not.mp hlevel⟩

section Accept

variable {e : FairQueueEntry} {c : DegradationConfig}
  (hclash : ∀ u, ∀ x ∈ r.waiting u, x.requestId = e.requestId →
    c.level = .normal ∧ r.Undegraded u e.requestId)

include hclash

/-- What the new table holds for the requests that waited before. -/
theorem getD_switchesAfter_of_mem {u : String} {x : FairQueueEntry} (hx : x ∈ r.waiting u)
    (d : DegradationConfig) :
    (r.middleware.switchesAfter e.requestId c).getD x.requestId d =
      r.middleware.degradationSwitches.getD x.requestId d := by
  by_cases hid : x.requestId = e.requestId
  · obtain ⟨hlevel, -⟩ := hclash u x hx hid
    simp [FairnessMiddleware.switchesAfter, hlevel]
  · rw [getD_switchesAfter_ne hid]

/-- An entry of the new table is of one request that waits. -/
theorem InStep.sole_switchesAfter (h : InStep r) {id : String} {d : DegradationConfig}
    (hid : (r.middleware.switchesAfter e.requestId c).get? id = some d) :
    d.level ≠ .normal ∧ ∃ t,
      (∃ x, (x ∈ r.waiting t ∨ t = e.tenantId ∧ x = e) ∧ x.requestId = id) ∧
      ∀ u x, x ∈ r.waiting u ∨ u = e.tenantId ∧ x = e → x.requestId = id → u = t := by
  rcases get?_switchesAfter_cases hid with ⟨rfl, hlevel, rfl⟩ | ⟨hold, hnormal⟩
  · refine ⟨hlevel, e.tenantId, ⟨e, Or.inr ⟨rfl, rfl⟩, rfl⟩, fun u x hx hxid => ?_⟩
    rcases hx with hx | ⟨rfl, -⟩
    · exact absurd (hclash u x hx hxid).1 hlevel
    · rfl
  · obtain ⟨hlevel, t, ⟨x, hx, hxid⟩, huniq⟩ := h.sole id d hold
    refine ⟨hlevel, t, ⟨x, Or.inl hx, hxid⟩, fun u y hy hyid => ?_⟩
    rcases hy with hy | ⟨-, rfl⟩
    · exact huniq u y hy hyid
    · -- the admitted request has no entry, and none waits that has
      have hnone := h.switches_eq_none fun u x hx hid => (hclash u x hx hid).2
      rw [hyid, hold] at hnone
      cases hnone

end Accept

theorem InStep.accept (h : InStep r) {e : FairQueueEntry} {now : ℚ} {c : DegradationConfig}
    (hnew : (e.tenantId, e.requestId) ∉ r.submitted) (hc : c = degradationConfigs c.level)
    (hclash : ∀ u, ∀ x ∈ r.waiting u, x.requestId = e.requestId →
      c.level = .normal ∧ r.Undegraded u e.requestId)
    {m : FairnessMiddleware} (hs : m.scheduler = r.middleware.scheduler.accept e now)
    (hsw : m.degradationSwitches = r.middleware.switchesAfter e.requestId c) :
    InStep { r with
      middleware := m
      submitted := (e.tenantId, e.requestId) :: r.submitted
      computed := r.computed.set (e.tenantId, e.requestId) c } := by
  have hmem : ∀ u x, x ∈ m.scheduler.queue u ↔ x ∈ r.waiting u ∨ u = e.tenantId ∧ x = e := by
    intro u x
    rw [hs, WeightedFairScheduler.mem_queue_accept]
    rfl
  have hold : ∀ k, k ∈ r.submitted → k ≠ (e.tenantId, e.requestId) := by
    rintro k hk rfl
    exact hnew hk
  refine ⟨fun u x hx => ?_, fun u x hx => ?_, fun u => ?_, fun u x hx => ?_, fun id d hid => ?_,
    fun k hk => ?_, fun d hd => ?_⟩
  · rcases (hmem u x).mp hx with hx | ⟨rfl, rfl⟩
    · exact h.owned u x hx
    · rfl
  · rcases (hmem u x).mp hx with hx | ⟨rfl, rfl⟩
    · exact List.mem_cons_of_mem _ (h.submitted u x hx)
    · exact List.mem_cons_self
  · change ((m.scheduler.queue u).map (·.requestId)).Nodup
    rw [hs, WeightedFairScheduler.queue_accept]
    split_ifs with hu
    · rw [List.map_append, List.map_singleton]
      refine (h.distinct e.tenantId).append (List.nodup_singleton _) ?_
      rw [List.disjoint_singleton]
      intro hin
      obtain ⟨x, hx, hid⟩ := List.mem_map.mp hin
      exact hnew (hid ▸ h.submitted e.tenantId x hx)
    · exact h.distinct u
  · change (r.computed.set (e.tenantId, e.requestId) c).get? (u, x.requestId) =
      some (m.degradationSwitches.getD x.requestId _)
    rw [hsw]
    rcases (hmem u x).mp hx with hx | ⟨rfl, rfl⟩
    · rw [Dict.get?_set_ne _ _ (hold _ (h.submitted u x hx)), h.table u x hx,
        getD_switchesAfter_of_mem hclash hx]
    · rw [Dict.get?_set_self, h.getD_switchesAfter hc hclash]
  · change m.degradationSwitches.get? id = some d at hid
    rw [hsw] at hid
    obtain ⟨hlevel, t, ⟨x, hx, hxid⟩, huniq⟩ := h.sole_switchesAfter hclash hid
    exact ⟨hlevel, t, ⟨x, (hmem t x).mpr hx, hxid⟩,
      fun u y hy hyid => huniq u y ((hmem u y).mp hy) hyid⟩
  · rcases Dict.mem_set.mp hk with rfl | hk
    · exact List.mem_cons_self
    · exact List.mem_cons_of_mem _ (h.known k hk)
  · have hd' := h.own d hd
    change (r.computed.set _ _).get? _ = _
    rw [Dict.get?_set_ne _ _ (hold _ (h.known _ (Dict.mem_of_get? hd'))), hd']

/-- Changing anything but queues and table, or submitting a request that is refused. -/
theorem InStep.frame (h : InStep r) {m : FairnessMiddleware} {l : List (String × String)}
    (hq : ∀ t, m.scheduler.queue t = r.waiting t)
    (hsw : m.degradationSwitches = r.middleware.degradationSwitches)
    (hl : ∀ k ∈ r.submitted, k ∈ l) : InStep { r with middleware := m, submitted := l } := by
  have hw : ∀ t, MiddlewareRun.waiting { r with middleware := m, submitted := l } t =
      r.waiting t := hq
  refine ⟨fun t e he => h.owned t e (hw t ▸ he),
    fun t e he => hl _ (h.submitted t e (hw t ▸ he)), fun t => hw t ▸ h.distinct t,
    fun t e he => ?_, fun id c hid => ?_, fun k hk => hl k (h.known k hk), h.own⟩
  · change r.computed.get? _ = some (m.degradationSwitches.getD _ _)
    rw [hsw]
    exact h.table t e (hw t ▸ he)
  · obtain ⟨hlevel, t, ⟨e, he, heid⟩, huniq⟩ := h.sole id c (hsw ▸ hid)
    exact ⟨hlevel, t, ⟨e, (hw t).symm ▸ he, heid⟩, fun u x hx => huniq u x (hw u ▸ hx)⟩

/-- A request that shares its id with the one taken off a queue is another tenant's, and
then the id is not in the table. -/
theorem InStep.switches_of_served (h : InStep r) {t : String} {first : FairQueueEntry}
    {rest : List FairQueueEntry} (hq : r.waiting t = first :: rest) {u : String}
    {x : FairQueueEntry} (hx : x ∈ (r.middleware.scheduler.serve t first).queue u)
    (hid : x.requestId = first.requestId) :
    r.middleware.degradationSwitches.get? first.requestId = none := by
  have hxold : x ∈ r.waiting u := WeightedFairScheduler.mem_of_mem_queue_serve hx
  cases hget : r.middleware.degradationSwitches.get? first.requestId with
  | none => rfl
  | some c =>
    obtain ⟨-, v, -, huniq⟩ := h.sole _ c hget
    have hut : u = t := (huniq u x hxold hid).trans
      (huniq t first (by simp [hq]) rfl).symm
    subst hut
    have hdistinct := h.distinct u
    rw [hq, List.map_cons, List.nodup_cons] at hdistinct
    have hrest : (r.middleware.scheduler.serve u first).queue u = rest := by
      have hq' : r.middleware.scheduler.queue u = first :: rest := hq
      simp [WeightedFairScheduler.queue_serve, hq']
    rw [hrest] at hx
    exact absurd (hid ▸ List.mem_map_of_mem hx) hdistinct.1

theorem InStep.serve (h : InStep r) {t : String} {first : FairQueueEntry}
    {rest : List FairQueueEntry} (hq : r.waiting t = first :: rest) :
    InStep { r with
      middleware := { r.middleware with
        scheduler := r.middleware.scheduler.serve t first
        degradationSwitches := r.middleware.degradationSwitches.erase first.requestId }
      delivered := r.delivered ++ [(first, r.middleware.degradationSwitches.getD first.requestId
        (degradationConfigs .normal))] } := by
  have hold : ∀ u x, x ∈ (r.middleware.scheduler.serve t first).queue u → x ∈ r.waiting u :=
    fun u x hx => WeightedFairScheduler.mem_of_mem_queue_serve hx
  refine ⟨fun u x hx => h.owned u x (hold u x hx), fun u x hx => h.submitted u x (hold u x hx),
    fun u => ?_, fun u x hx => ?_, fun id c hid => ?_, h.known, fun d hd => ?_⟩
  · change (((r.middleware.scheduler.serve t first).queue u).map _).Nodup
    rw [WeightedFairScheduler.queue_serve]
    split_ifs with hu
    · exact (h.distinct t).sublist ((List.tail_sublist _).map _)
    · exact h.distinct u
  · change r.computed.get? _ = some ((r.middleware.degradationSwitches.erase _).getD _ _)
    rw [h.table u x (hold u x hx), Dict.getD, Dict.getD, Dict.get?_erase]
    split_ifs with hid
    · rw [hid, h.switches_of_served hq hx hid]
    · rfl
  · change (r.middleware.degradationSwitches.erase first.requestId).get? id = some c at hid
    rw [Dict.get?_erase] at hid
    split_ifs at hid with hne
    obtain ⟨hlevel, v, ⟨x, hx, hxid⟩, huniq⟩ := h.sole id c hid
    refine ⟨hlevel, v, ⟨x, ?_, hxid⟩, fun u y hy => huniq u y (hold u y hy)⟩
    change x ∈ (r.middleware.scheduler.serve t first).queue v
    have hx' : x ∈ r.middleware.scheduler.queue v := hx
    rw [WeightedFairScheduler.queue_serve]
    split_ifs with hv
    · have hq' : r.middleware.scheduler.queue t = first :: rest := hq
      rw [hv, hq'] at hx'
      rw [hq', List.tail_cons]
      refine (List.mem_cons.mp hx').resolve_left ?_
      rintro rfl
      exact hne hxid.symm
    · exact hx'
  · rcases List.mem_append.mp hd with hd | hd
    · exact h.own d hd
    · obtain rfl := List.mem_singleton.mp hd
      have hmem : first ∈ r.waiting t := by simp [hq]
      exact (congrArg (fun v => r.computed.get? (v, first.requestId)) (h.owned t first hmem)).trans
        (h.table t first hmem)

theorem InStep.complete (h : InStep r) {t id : String} (p : ℚ)
    (hund : ∀ u, ∀ e ∈ r.waiting u, e.requestId = id → r.Undegraded u id) :
    InStep { r with middleware := r.middleware.completeRequest t id p } := by
  have hnone := h.switches_eq_none hund
  have hget : ∀ k, (r.middleware.degradationSwitches.erase id).get? k =
      r.middleware.degradationSwitches.get? k := by
    intro k
    rw [Dict.get?_erase]
    split_ifs with hk
    · rw [hk, hnone]
    · rfl
  refine ⟨h.owned, h.submitted, h.distinct, fun u x hx => ?_, fun k c hk => ?_, h.known, h.own⟩
  · change r.computed.get? _ = some ((r.middleware.degradationSwitches.erase id).getD _ _)
    rw [Dict.getD, hget]
    exact h.table u x hx
  · exact h.sole k c ((hget k).symm.trans hk)

theorem InStep.next (h : InStep r) {e : MiddlewareEvent} (hpairs : UniquePairs r e)
    (hclash : NoClash r e) : InStep (r.next e) := by
  cases e with
  | setTenantConfig t tier maxConcurrent priority =>
    exact h.frame (fun _ => rfl) rfl fun _ hk => hk
  | updateThresholds a b c d => exact h.frame (fun _ => rfl) rfl fun _ hk => hk
  | process t requestId md metrics now =>
    rcases r.middleware.processRequest_cases t requestId md metrics now with
      ⟨hres, hs, hsw⟩ | ⟨hacc, cfg, hres, hconfig, hs, hsw⟩
    · have hframe := h.frame (m := (r.middleware.processRequest t requestId md metrics now).1)
        (l := (t, requestId) :: r.submitted) (fun u => by rw [hs]; rfl) hsw
        fun _ hk => List.mem_cons_of_mem _ hk
      simpa [MiddlewareRun.next, hres] using hframe
    · have hin := h.accept (e := WeightedFairScheduler.newEntry t requestId (some md) now cfg)
        hpairs (r.middleware.admissionControl.checkAdmission_config md metrics)
        (hclash hacc) hs hsw
      have hnext : r.next (.process t requestId md metrics now) = { r with
          middleware := (r.middleware.processRequest t requestId md metrics now).1
          submitted := (t, requestId) :: r.submitted
          computed := r.computed.set (t, requestId)
            (r.middleware.admissionControl.checkAdmission md metrics).2.1 } := by
        simp [MiddlewareRun.next, hres, hconfig]
      rw [hnext]
      exact hin
  | getNext =>
    have hnext : r.next .getNext = { r with
        middleware := r.middleware.getNextRequest.1
        delivered := r.delivered ++ deliveredBy r.middleware.getNextRequest.2 } := rfl
    rw [hnext, FairnessMiddleware.getNextRequest]
    rcases r.middleware.scheduler.dequeueRequest_cases with
      ⟨-, hd⟩ | ⟨-, hd⟩ | ⟨-, t, first, rest, -, hq, hd⟩
    · simpa [hd, deliveredBy] using h
    · simpa [hd, deliveredBy] using h
    · rw [hd]
      exact h.serve hq
  | complete t id p => exact h.complete p hclash

/-- Without clashing ids every entry is returned with the configuration computed for it. -/
theorem ownConfig_of_noClash {es : List MiddlewareEvent} {r : MiddlewareRun}
    (h : middlewareMachine.Run (fun r e => UniquePairs r e ∧ NoClash r e) es r) :
    OwnConfig r := by
  have hin : InStep r := by
    refine h.invariant ⟨by simp [middlewareMachine, MiddlewareRun.waiting],
      by simp [middlewareMachine, MiddlewareRun.waiting],
      by simp [middlewareMachine, MiddlewareRun.waiting],
      by simp [middlewareMachine, MiddlewareRun.waiting], by simp [middlewareMachine],
      by simp [middlewareMachine], by simp [middlewareMachine, OwnConfig]⟩
      fun s e t hs hok hst => ?_
    exact Option.some.inj hst ▸ hs.next hok.1 hok.2
  exact hin.own

end InStep

/-- What the metadata of a request of a premium tenant says. -/
def premiumRequest : Items :=
  [(.str "tenant_tier", .str "premium")]

/-- A system at 96% load. -/
def overload : SystemMetrics :=
  Dict.empty.set "system_load" (24 / 25)

/-- A request admitted under overload is returned with the heavy configuration. -/
theorem ownConfig_of_single : ∃ r, OwnConfig r ∧
    r.delivered.map (fun d => d.2.level) = [.heavy] := by
  have hnil : middlewareMachine.Run (fun r e => UniquePairs r e ∧ NoClash r e) [] {} := .nil
  have hconfig := hnil.snoc (e := MiddlewareEvent.setTenantConfig "a" .premium 10 5)
    ⟨trivial, trivial⟩ rfl
  have hprocess := hconfig.snoc (e := MiddlewareEvent.process "a" "r1" premiumRequest overload 0)
    ⟨List.not_mem_nil, fun _ _ _ he => absurd he List.not_mem_nil⟩ rfl
  have hnext := hprocess.snoc (e := MiddlewareEvent.getNext) ⟨trivial, trivial⟩ rfl
  exact ⟨_, ownConfig_of_noClash hnext, by decide +kernel⟩

instance (r : MiddlewareRun) : DecidablePred (UniquePairs r)
  | .setTenantConfig _ _ _ _ => isTrue trivial
  | .updateThresholds _ _ _ _ => isTrue trivial
  | .process _ _ _ _ _ => inferInstanceAs (Decidable (¬_))
  | .getNext => isTrue trivial
  | .complete _ _ _ => isTrue trivial

/-- An undegraded request is returned with the heavy configuration of another tenant's
request of the same id. -/
theorem not_ownConfig : ¬∀ es r, middlewareMachine.Run UniquePairs es r → OwnConfig r := by
  intro h
  obtain ⟨r, hrun, hp⟩ := Machine.exists_run middlewareMachine UniquePairs
    [.setTenantConfig "a" .premium 10 5, .setTenantConfig "b" .premium 10 1,
      .process "a" "r1" premiumRequest overload 0, .process "b" "r1" premiumRequest .empty 1,
      .getNext]
    (fun r => r.delivered.any fun d =>
      decide (r.computed.get? (d.1.tenantId, d.1.requestId) ≠ some d.2)) (by decide +kernel)
  obtain ⟨d, hd, hne⟩ := List.any_eq_true.mp hp
  exact of_decide_eq_true hne (h _ r hrun d hd)

end Fairness

end MultiAgent
