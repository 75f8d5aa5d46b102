import Mathlib.Algebra.BigOperators.Group.List.Basic
import Mathlib.Algebra.Order.Field.Rat
import Mathlib.Logic.Function.Basic
import MultiAgent.Lib.PyValue

/-!
# Historical metrics of the router

`HistoricalTracker` of `libs/router/router_base.py`. Redis has hashes of metrics, whose fields
are texts of numbers; a field stands here for the number. The time to live of a hash is never
over. Arithmetic is exact.

`_update_aggregated_metrics` reads the total response time before its pipeline adds the new one,
and divides what it reads by a number : that is `0` for a new hash, and a text for every other,
which cannot be divided. So the second call for a tenant and a tier raises, and the first one
stores an average of 0 (`tracksExactly_iff`).
-/

namespace MultiAgent

namespace Router

/-- A hash of metrics. -/
structure MetricsHash where
  totalRequests : Option ℕ := none
  successfulRequests : Option ℕ := none
  totalResponseTime : Option ℚ := none
  totalCost : Option ℚ := none
  avgResponseTime : Option ℚ := none
  p95ResponseTime : Option ℚ := none

/-- A hash of a request. -/
structure RequestHash where
  tier : String
  success : Bool
  responseTime : ℚ
  cost : ℚ
  timestamp : ℤ

/-- The hashes of Redis by their keys. One that is not there has no fields. -/
structure TrackerStore where
  requests : Dict String RequestHash := .empty
  metrics : String → MetricsHash := fun _ => {}

/-- The arguments of `track_request` for a tenant and a tier, and the time. -/
structure TrackedRequest where
  userId : String
  success : Bool
  responseTime : ℚ
  cost : ℚ
  timestamp : ℤ

/-- `HistoricalMetrics`. -/
structure HistoricalMetrics where
  totalRequests : ℕ
  successfulRequests : ℕ
  failedRequests : ℤ
  failureRate : ℚ
  averageResponseTime : ℚ
  p95ResponseTime : ℚ
  costEfficiency : ℚ
  accuracyScore : ℚ

/-- `f"requests:{tenant_id}:{timestamp}:{user_id}"`. -/
def requestKey (tenantId : String) (timestamp : ℤ) (userId : String) : String :=
  "requests:" ++ tenantId ++ ":" ++ toString timestamp ++ ":" ++ userId

/-- `f"metrics:{tenant_id}:{tier}"`. -/
def metricsKey (tenantId tier : String) : String :=
  "metrics:" ++ tenantId ++ ":" ++ tier

theorem metricsKey_inj {tenantId tier tier' : String} :
    metricsKey tenantId tier = metricsKey tenantId tier' ↔ tier = tier' :=
  String.append_right_inj _

/-- The average that is stored : what was read of `total_response_time` by the number of
requests. What was read is a text, or `0` if nothing was. -/
def readAverage (hash : MetricsHash) (totalRequests : ℕ) : Except PyError ℚ :=
  match hash.totalResponseTime with
  | none => .ok (0 / totalRequests)
  | some _ => .error .typeError

/-- The pipeline for one key. -/
def MetricsHash.execute (hash : MetricsHash) (request : TrackedRequest) (average : ℚ) :
    MetricsHash :=
  { hash with
    totalRequests := some (hash.totalRequests.getD 0 + 1)
    successfulRequests :=
      if request.success then some (hash.successfulRequests.getD 0 + 1)
      else hash.successfulRequests
    totalResponseTime := some (hash.totalResponseTime.getD 0 + request.responseTime)
    totalCost := some (hash.totalCost.getD 0 + request.cost)
    avgResponseTime := some average }

namespace TrackerStore

variable (s : TrackerStore)

/-- `pipe.execute()` for a key. -/
def execute (key : String) (request : TrackedRequest) (average : ℚ) : TrackerStore :=
  { s with metrics := Function.update s.metrics key ((s.metrics key).execute request average) }

/-- The loop of `_update_aggregated_metrics` over its keys, and what it raises. -/
def updateAggregatedMetrics (request : TrackedRequest) :
    List String → TrackerStore → TrackerStore × Except PyError Unit
  | [], s => (s, .ok ())
  | key :: keys, s =>
    let hash := s.metrics key
    match readAverage hash (hash.totalRequests.getD 0 + 1) with
    | .error e => (s, .error e)
    | .ok average =>
      updateAggregatedMetrics request keys (s.execute key request average)

/-- The hash of the request. -/
def storeRequest (tenantId tier : String) (request : TrackedRequest) : TrackerStore :=
  { s with
    requests := s.requests.set (requestKey tenantId request.timestamp request.userId) {
      tier
      success := request.success
      responseTime := request.responseTime
      cost := request.cost
      timestamp := request.timestamp } }

/-- `track_request`. -/
def trackRequest (tenantId tier : String) (request : TrackedRequest) :
    TrackerStore × Except PyError Unit :=
  updateAggregatedMetrics request [metricsKey tenantId tier, metricsKey tenantId "all"]
    (s.storeRequest tenantId tier request)

/-- The calls one after the other, and what they raise. -/
def trackRequests (tenantId tier : String) :
    TrackerStore → List TrackedRequest → TrackerStore × List (Except PyError Unit)
  | s, [] => (s, [])
  | s, request :: requests =>
    let (t, result) := s.trackRequest tenantId tier request
    let (u, results) := trackRequests tenantId tier t requests
    (u, result :: results)

/-- The metrics that are read off a hash. -/
def metricsOf (hash : MetricsHash) : HistoricalMetrics :=
  let totalRequests := hash.totalRequests.getD 0
  let successfulRequests := hash.successfulRequests.getD 0
  let failedRequests : ℤ := totalRequests - successfulRequests
  let totalCost := hash.totalCost.getD 0
  { totalRequests
    successfulRequests
    failedRequests
    failureRate := failedRequests / (max totalRequests 1 : ℕ)
    averageResponseTime := hash.avgResponseTime.getD 0
    p95ResponseTime := hash.p95ResponseTime.getD 0
    costEfficiency := successfulRequests / max totalCost (1 / 100)
    accuracyScore := successfulRequests / (max totalRequests 1 : ℕ) }

/-- `get_historical_metrics`. An empty tier is none. -/
def getHistoricalMetrics (tenantId : String) (tier : Option String) : HistoricalMetrics :=
  metricsOf (s.metrics (metricsKey tenantId
    (if tier.getD "" = "" then "all" else tier.getD "")))

/-- No call raises, and afterwards the metrics of the tier are those of the calls. -/
def TracksExactly (tenantId tier : String) (requests : List TrackedRequest) : Prop :=
  let (t, results) := s.trackRequests tenantId tier requests
  let metrics := metricsOf (t.metrics (metricsKey tenantId tier))
  (∀ result ∈ results, result = .ok ()) ∧
    metrics.totalRequests = requests.length ∧
    metrics.successfulRequests = requests.countP TrackedRequest.success ∧
    metrics.averageResponseTime =
      (requests.map TrackedRequest.responseTime).sum / requests.length

variable {s} {tenantId tier : String} {request : TrackedRequest}

@[simp] theorem metrics_storeRequest :
    (s.storeRequest tenantId tier request).metrics = s.metrics :=
  rfl

@[simp] theorem metrics_execute_self (key : String) (average : ℚ) :
    (s.execute key request average).metrics key = (s.metrics key).execute request average :=
  Function.update_self _ _ _

theorem metrics_execute_of_ne {key key' : String} (h : key' ≠ key) (average : ℚ) :
    (s.execute key request average).metrics key' = s.metrics key' :=
  Function.update_of_ne h _ _

/-- An update of a hash with a total response time raises. -/
theorem updateAggregatedMetrics_of_some {key : String} {keys : List String} {x : ℚ}
    (h : (s.metrics key).totalResponseTime = some x) :
    updateAggregatedMetrics request (key :: keys) s = (s, .error .typeError) := by
  simp only [updateAggregatedMetrics, readAverage, h]

/-- An update of a hash without one stores an average of 0. -/
theorem updateAggregatedMetrics_of_none {key : String} {keys : List String}
    (h : (s.metrics key).totalResponseTime = none) :
    updateAggregatedMetrics request (key :: keys) s =
      updateAggregatedMetrics request keys (s.execute key request 0) := by
  simp only [updateAggregatedMetrics, readAverage, h, zero_div]

theorem totalResponseTime_execute (hash : MetricsHash) (request : TrackedRequest) (average : ℚ) :
    (hash.execute request average).totalResponseTime =
      some (hash.totalResponseTime.getD 0 + request.responseTime) :=
  rfl

/-- A further call raises. -/
theorem trackRequest_of_some {x : ℚ}
    (h : (s.metrics (metricsKey tenantId tier)).totalResponseTime = some x) :
    (s.trackRequest tenantId tier request).2 = .error .typeError := by
  rw [trackRequest,
    updateAggregatedMetrics_of_some (s := s.storeRequest tenantId tier request) h]

/-- The first call does not raise if and only if the tier is not `all`, and nothing is recorded
for all tiers. -/
theorem trackRequest_eq_ok_iff
    (h : (s.metrics (metricsKey tenantId tier)).totalResponseTime = none) :
    (s.trackRequest tenantId tier request).2 = .ok () ↔
      tier ≠ "all" ∧ (s.metrics (metricsKey tenantId "all")).totalResponseTime = none := by
  rw [trackRequest,
    updateAggregatedMetrics_of_none (s := s.storeRequest tenantId tier request) h]
  by_cases hall : tier = "all"
  · subst hall
    rw [updateAggregatedMetrics_of_some (by
      rw [metrics_execute_self, totalResponseTime_execute])]
    simp
  have hkey : metricsKey tenantId "all" ≠ metricsKey tenantId tier := fun heq =>
    hall (metricsKey_inj.mp heq).symm
  cases hother : (s.metrics (metricsKey tenantId "all")).totalResponseTime with
  | none =>
    rw [updateAggregatedMetrics_of_none (by
      rw [metrics_execute_of_ne hkey, metrics_storeRequest, hother])]
    exact iff_of_true rfl ⟨hall, rfl⟩
  | some x =>
    rw [updateAggregatedMetrics_of_some (by
      rw [metrics_execute_of_ne hkey, metrics_storeRequest, hother])]
    simp

/-- What it leaves in the hash of the tier. -/
theorem metrics_trackRequest
    (h : (s.metrics (metricsKey tenantId tier)).totalResponseTime = none) (hall : tier ≠ "all")
    (hother : (s.metrics (metricsKey tenantId "all")).totalResponseTime = none) :
    (s.trackRequest tenantId tier request).1.metrics (metricsKey tenantId tier) =
      (s.metrics (metricsKey tenantId tier)).execute request 0 := by
  have hkey : metricsKey tenantId "all" ≠ metricsKey tenantId tier := fun heq =>
    hall (metricsKey_inj.mp heq).symm
  rw [trackRequest,
    updateAggregatedMetrics_of_none (s := s.storeRequest tenantId tier request) h,
    updateAggregatedMetrics_of_none (by
      rw [metrics_execute_of_ne hkey, metrics_storeRequest, hother]),
    updateAggregatedMetrics]
  rw [metrics_execute_of_ne hkey.symm, metrics_execute_self, metrics_storeRequest]

/-- Calls that begin with nothing recorded for the tenant and the tier are tracked if and only if
there is one call, of a response time of 0, and nothing is recorded for all tiers. -/
theorem tracksExactly_iff (h : s.metrics (metricsKey tenantId tier) = {})
    {requests : List TrackedRequest} (hne : requests ≠ []) :
    s.TracksExactly tenantId tier requests ↔
      ∃ request, requests = [request] ∧ request.responseTime = 0 ∧ tier ≠ "all" ∧
        (s.metrics (metricsKey tenantId "all")).totalResponseTime = none := by
  have hnone : (s.metrics (metricsKey tenantId tier)).totalResponseTime = none := by rw [h]
  obtain ⟨request, rest, rfl⟩ := List.exists_cons_of_ne_nil hne
  have hfirst : s.TracksExactly tenantId tier (request :: rest) →
      tier ≠ "all" ∧ (s.metrics (metricsKey tenantId "all")).totalResponseTime = none :=
    fun htracks => (trackRequest_eq_ok_iff hnone).mp (htracks.1 _ List.mem_cons_self)
  cases rest with
  | nil =>
    have hsingle : tier ≠ "all" →
        (s.metrics (metricsKey tenantId "all")).totalResponseTime = none →
        (s.TracksExactly tenantId tier [request] ↔ request.responseTime = 0) := by
      intro hall hother
      have hok : (s.trackRequest tenantId tier request).2 = .ok () :=
        (trackRequest_eq_ok_iff hnone).mpr ⟨hall, hother⟩
      have hmetrics : (s.trackRequest tenantId tier request).1.metrics (metricsKey tenantId tier) =
          MetricsHash.execute (s.metrics (metricsKey tenantId tier)) request 0 :=
        metrics_trackRequest hnone hall hother
      rw [h] at hmetrics
      have hsuccess : (metricsOf (MetricsHash.execute {} request 0)).successfulRequests =
          [request].countP TrackedRequest.success := by
        cases hs : request.success <;> simp [metricsOf, MetricsHash.execute, hs]
      have haverage : (metricsOf (MetricsHash.execute {} request 0)).averageResponseTime =
          ([request].map TrackedRequest.responseTime).sum / [request].length ↔
            request.responseTime = 0 := by
        simp [metricsOf, MetricsHash.execute, eq_comm (a := (0 : ℚ))]
      unfold TracksExactly
      simp only [trackRequests, hok, hmetrics]
      constructor
      · exact fun htracks => haverage.mp htracks.2.2.2
      · exact fun htime => ⟨by simp, rfl, hsuccess, haverage.mpr htime⟩
    constructor
    · intro htracks
      obtain ⟨hall, hother⟩ := hfirst htracks
      exact ⟨request, rfl, (hsingle hall hother).mp htracks, hall, hother⟩
    · rintro ⟨_, heq, htime, hall, hother⟩
      obtain rfl := List.singleton_inj.mp heq
      exact (hsingle hall hother).mpr htime
  | cons second rest =>
    refine iff_of_false (fun htracks => ?_) fun ⟨_, heq, _⟩ => by simp at heq
    obtain ⟨hall, hother⟩ := hfirst htracks
    have hsome := totalResponseTime_execute (s.metrics (metricsKey tenantId tier)) request 0
    rw [← metrics_trackRequest hnone hall hother] at hsome
    have hsecond : ((s.trackRequest tenantId tier request).1.trackRequest tenantId tier second).2 =
        .ok () := htracks.1 _ (List.mem_cons_of_mem _ List.mem_cons_self)
    rw [trackRequest_of_some hsome] at hsecond
    cases hsecond

/-- One call of a response time of 0. -/
theorem tracksExactly_free :
    TracksExactly {} "t" "slm"
      [{ userId := "u", success := true, responseTime := 0, cost := 1, timestamp := 5 }] :=
  (tracksExactly_iff rfl (List.cons_ne_nil _ _)).mpr ⟨_, rfl, rfl, by decide, rfl⟩

/-- The second call divides a text. -/
theorem not_tracksExactly :
    ¬TracksExactly {} "t" "slm"
      [{ userId := "u", success := true, responseTime := 2, cost := 1, timestamp := 5 },
        { userId := "u", success := true, responseTime := 4, cost := 1, timestamp := 6 }] := by
  intro h
  have hresults := h.1 (.error .typeError) (List.mem_cons_of_mem _ List.mem_cons_self)
  cases hresults

end TrackerStore

end Router

end MultiAgent
