import Mathlib.Algebra.Order.Field.Rat
import MultiAgent.Lib.BoundedDeque
import MultiAgent.Lib.Dict

/-!
# Service level objectives

`ErrorBudget` and `SLOManager.record_metric` of `libs/observability/slo_manager.py`, in exact
arithmetic. Times are in seconds. The metrics are kept in a deque of at most `evaluation_window`
entries; the error budget looks at those of the last `measurement_window` seconds, and the burn
rate at those of the last hour. Both compare a share of successes, in percent, with the target.

A record of a metric changes only the budget of its own objective, which is a run of
`add_metric` (`tracks_after`).
-/

namespace MultiAgent

namespace SLO

open BoundedDeque

/-- SLO target types. -/
inductive SLOTarget
  | availability
  | latency
  | throughput
  | errorRate
  deriving DecidableEq

/-- Alert severity levels. -/
inductive AlertSeverity
  | low
  | medium
  | high
  | critical
  deriving DecidableEq

/-- SLO definition with targets and windows. -/
structure SLODefinition where
  name : String
  targetType : SLOTarget
  targetValue : ℚ
  measurementWindow : ℕ
  evaluationWindow : ℕ
  errorBudgetPolicy : ℚ

/-- SLO metric data point. -/
structure SLOMetric where
  timestamp : ℚ
  success : Bool

/-- Current SLO status and metrics. -/
structure SLOStatus where
  sloName : String
  currentValue : ℚ
  targetValue : ℚ
  errorBudgetRemaining : ℚ
  errorBudgetBurnRate : ℚ
  isHealthy : Bool
  alertLevel : Option AlertSeverity := none

/-- The metrics from a time on. -/
def since (metrics : List SLOMetric) (start : ℚ) : List SLOMetric :=
  metrics.filter fun m => start ≤ m.timestamp

/-- The share of successes, in percent. -/
def successRate (metrics : List SLOMetric) : ℚ :=
  (metrics.countP SLOMetric.success : ℚ) / metrics.length * 100

/-- By how much the success rate misses the target, relative to it. -/
def shortfall (d : SLODefinition) (rate : ℚ) : ℚ :=
  match d.targetType with
  | .availability => max 0 (d.targetValue - rate) / d.targetValue
  | .errorRate => max 0 (100 - rate - d.targetValue) / (100 - d.targetValue)
  | .latency | .throughput => max 0 (d.targetValue - rate) / d.targetValue

/-- Error budget calculations and burn rate analysis. -/
structure ErrorBudget where
  sloDefinition : SLODefinition
  metricsWindow : List SLOMetric := []
  errorBudget : ℚ := 100

/-- The alert level for a burn rate. -/
def alertLevel (policy burnRate : ℚ) : Option AlertSeverity :=
  if policy * 2 < burnRate then some .critical
  else if policy * (3 / 2) < burnRate then some .high
  else if policy < burnRate then some .medium
  else if policy * (1 / 2) < burnRate then some .low
  else none

namespace ErrorBudget

variable (b : ErrorBudget)

/-- The metrics in the measurement window. -/
def measured (now : ℚ) : List SLOMetric :=
  since b.metricsWindow (now - b.sloDefinition.measurementWindow)

/-- The metrics of the last hour. -/
def lastHour (now : ℚ) : List SLOMetric :=
  since b.metricsWindow (now - 3600)

/-- `_calculate_error_budget`. -/
def calculateErrorBudget (now : ℚ) : ErrorBudget :=
  if b.metricsWindow.isEmpty then b
  else if (b.measured now).isEmpty then b
  else
    let errorBudgetUsed := shortfall b.sloDefinition (successRate (b.measured now)) * 100
    { b with errorBudget := max 0 (100 - errorBudgetUsed) }

/-- `add_metric`, which evaluates the budget at the time `now`. -/
def addMetric (metric : SLOMetric) (now : ℚ) : ErrorBudget :=
  calculateErrorBudget
    { b with metricsWindow := push b.sloDefinition.evaluationWindow b.metricsWindow metric } now

/-- `get_burn_rate`. -/
def getBurnRate (now : ℚ) : ℚ :=
  if b.metricsWindow.length < 2 then 0
  else if (b.lastHour now).isEmpty then 0
  else shortfall b.sloDefinition (successRate (b.lastHour now))

/-- `is_burn_rate_exceeded`. -/
def isBurnRateExceeded (now : ℚ) : Bool :=
  b.sloDefinition.errorBudgetPolicy < b.getBurnRate now

/-- `current_value` of the status. -/
def currentValue (now : ℚ) : ℚ :=
  if (b.measured now).isEmpty then 0
  else
    match b.sloDefinition.targetType with
    | .errorRate => 100 - successRate (b.measured now)
    | .availability | .latency | .throughput => successRate (b.measured now)

/-- `get_status`, which reads the clock for the current value, for the burn rate, and once more
for the burn rate that makes it unhealthy. -/
def getStatus (current burned exceeded : ℚ) : SLOStatus :=
  if b.metricsWindow.isEmpty then
    { sloName := b.sloDefinition.name
      currentValue := 0
      targetValue := b.sloDefinition.targetValue
      errorBudgetRemaining := b.errorBudget
      errorBudgetBurnRate := 0
      isHealthy := true }
  else
    { sloName := b.sloDefinition.name
      currentValue := b.currentValue current
      targetValue := b.sloDefinition.targetValue
      errorBudgetRemaining := b.errorBudget
      errorBudgetBurnRate := b.getBurnRate burned
      isHealthy := !b.isBurnRateExceeded exceeded && 10 < b.errorBudget
      alertLevel := alertLevel b.sloDefinition.errorBudgetPolicy (b.getBurnRate burned) }

end ErrorBudget

/-! ## The manager -/

/-- The definition of the API Gateway 95th percentile latency. -/
def apiLatencyP95 : SLODefinition where
  name := "api_latency_p95"
  targetType := .latency
  targetValue := 500
  measurementWindow := 300
  evaluationWindow := 3600
  errorBudgetPolicy := 1 / 10

/-- The default SLOs. -/
def defaultSlos : List SLODefinition :=
  [{ apiLatencyP95 with
     name := "api_availability", targetType := .availability, targetValue := 999 / 10 },
   apiLatencyP95,
   { apiLatencyP95 with name := "router_decision_latency", targetValue := 50 },
   { apiLatencyP95 with
     name := "router_misroute_rate", targetType := .errorRate, targetValue := 1 },
   { apiLatencyP95 with
     name := "tool_success_rate", targetType := .availability, targetValue := 995 / 10 },
   { apiLatencyP95 with
     name := "ws_connection_success_rate", targetType := .availability, targetValue := 99 },
   { apiLatencyP95 with
     name := "ws_message_delivery_rate", targetType := .availability, targetValue := 995 / 10 }]

/-- The definitions and the budgets, under the same names. -/
structure SLOManager where
  sloDefinitions : Dict String SLODefinition := .empty
  errorBudgets : Dict String ErrorBudget := .empty

/-- What the clock shows in a call of `record_metric` : at the metric, at its evaluation, and at
the three times that the status reads it. -/
structure Clock where
  recorded : ℚ
  evaluated : ℚ
  current : ℚ
  burned : ℚ
  exceeded : ℚ

/-- A call of `record_metric`. -/
structure Call where
  sloName : String
  success : Bool
  clock : Clock

namespace SLOManager

variable (m : SLOManager)

/-- `add_slo`. -/
def addSlo (d : SLODefinition) : SLOManager where
  sloDefinitions := m.sloDefinitions.set d.name d
  errorBudgets := m.errorBudgets.set d.name { sloDefinition := d }

/-- The status, if `_check_alerts` triggers an alert for it. -/
def checkAlerts (b : ErrorBudget) (clock : Clock) : Option SLOStatus :=
  let status := b.getStatus clock.current clock.burned clock.exceeded
  if status.alertLevel.isSome then some status else none

/-- `record_metric`, with the alert that it triggers. -/
def recordMetric (c : Call) : SLOManager × Option SLOStatus :=
  match m.sloDefinitions.get? c.sloName, m.errorBudgets.get? c.sloName with
  | some _, some b =>
    let b := b.addMetric ⟨c.clock.recorded, c.success⟩ c.clock.evaluated
    ({ m with errorBudgets := m.errorBudgets.set c.sloName b }, checkAlerts b c.clock)
  | _, _ => (m, none)

/-- The manager after some calls. -/
def after (calls : List Call) : SLOManager :=
  calls.foldl (fun m c => (m.recordMetric c).1) m

/-- `_initialize_default_slos`. -/
def initializeDefaultSlos : SLOManager :=
  defaultSlos.foldl addSlo m

end SLOManager

/-! ## Runs -/

/-- The budget of an objective after the calls for it. -/
def budgetAfter (d : SLODefinition) (calls : List Call) : ErrorBudget :=
  calls.foldl (fun b c => b.addMetric ⟨c.clock.recorded, c.success⟩ c.clock.evaluated)
    { sloDefinition := d }

variable {m : SLOManager} {d : SLODefinition} {b : ErrorBudget} {c : Call}

/-- The manager has the objective with the budget. -/
structure SLOManager.Tracks (m : SLOManager) (d : SLODefinition) (b : ErrorBudget) : Prop where
  definition : m.sloDefinitions.get? d.name = some d
  budget : m.errorBudgets.get? d.name = some b

theorem SLOManager.tracks_addSlo (m : SLOManager) (d : SLODefinition) :
    (m.addSlo d).Tracks d { sloDefinition := d } :=
  ⟨Dict.get?_set_self _ _ _, Dict.get?_set_self _ _ _⟩

/-- A call for the objective adds a metric to its budget, and may trigger an alert for it. -/
theorem SLOManager.Tracks.recordMetric_eq (h : m.Tracks d b) (hname : c.sloName = d.name) :
    m.recordMetric c =
      let b' := b.addMetric ⟨c.clock.recorded, c.success⟩ c.clock.evaluated
      ({ m with errorBudgets := m.errorBudgets.set d.name b' }, checkAlerts b' c.clock) := by
  unfold recordMetric
  rw [hname, h.definition, h.budget]

theorem SLOManager.Tracks.recordMetric (h : m.Tracks d b) (hname : c.sloName = d.name) :
    (m.recordMetric c).1.Tracks d
      (b.addMetric ⟨c.clock.recorded, c.success⟩ c.clock.evaluated) := by
  rw [h.recordMetric_eq hname]
  exact ⟨h.definition, Dict.get?_set_self _ _ _⟩

/-- A call for another objective. -/
theorem SLOManager.Tracks.recordMetric_of_ne (h : m.Tracks d b) (hname : c.sloName ≠ d.name) :
    (m.recordMetric c).1.Tracks d b := by
  unfold SLOManager.recordMetric
  split
  · exact ⟨h.definition, (Dict.get?_set_ne _ _ hname.symm).trans h.budget⟩
  · exact h

/-- The budget of an objective depends on the calls for it alone. -/
theorem tracks_after (m : SLOManager) (d : SLODefinition) (calls : List Call) :
    ((m.addSlo d).after calls).Tracks d
      (budgetAfter d (calls.filter fun c => c.sloName = d.name)) := by
  induction calls using List.reverseRecOn with
  | nil => exact m.tracks_addSlo d
  | append_singleton calls c ih =>
    unfold SLOManager.after budgetAfter at ih ⊢
    rw [List.foldl_append, List.filter_append, List.foldl_append]
    by_cases hname : c.sloName = d.name
    · rw [List.filter_cons_of_pos (by simpa using hname)]
      exact ih.recordMetric hname
    · rw [List.filter_cons_of_neg (by simpa using hname)]
      exact ih.recordMetric_of_ne hname

end SLO

end MultiAgent
