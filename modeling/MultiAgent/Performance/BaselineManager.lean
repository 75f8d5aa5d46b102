import Mathlib.Algebra.BigOperators.Ring.List
import Mathlib.Algebra.Order.AbsoluteValue.Basic
import Mathlib.Algebra.Order.Field.Rat
import Mathlib.Tactic.Linarith
import Mathlib.Tactic.Ring
import MultiAgent.Lib.Average
import MultiAgent.Lib.BoundedDeque
import MultiAgent.Lib.Machine
import MultiAgent.Lib.OrderStatistics

/-!
# Performance baselines

`PerformanceBaselineManager` of `libs/performance/baseline_manager.py`, for one baseline. The
calls of `record_metric` and `calculate_baseline` wait for the database, so what they do between
two of their waits is one step here, in any order with the steps of others. What the query for
the metrics of a window answers comes with the event.

The alerts and regressions do not depend on the unit of the metrics (`step_scale`), but the
confidence level does. An alert is about how many of the last metrics are near the stored value
(`lt_abs_percentile_iff`, `watched_step`). The stored value is replaced with every calculation, so
while nothing is flagged it changes by the threshold each time at most (`drift_step`), and may
change by that each time.
-/

namespace MultiAgent

namespace Baselines

open Average OrderStatistics

/-- `MetricAggregation`. -/
inductive MetricAggregation
  | mean
  | median
  | p95
  | p99
  | min
  | max
  | count
  deriving DecidableEq

/-- `_percentile`. -/
def percentile (values : List ℚ) (percentile : ℕ) : ℚ :=
  if values = [] then 0
  else
    let index := percentile * values.length / 100
    (nth? values (Nat.min index (values.length - 1))).getD 0

/-- `statistics.median`. -/
def median (values : List ℚ) : ℚ :=
  let n := values.length
  if n % 2 = 1 then (nth? values (n / 2)).getD 0
  else ((nth? values (n / 2 - 1)).getD 0 + (nth? values (n / 2)).getD 0) / 2

/-- `_aggregate_values`. -/
def aggregateValues (values : List ℚ) (aggregationMethod : MetricAggregation) : ℚ :=
  if values = [] then 0
  else
    match aggregationMethod with
    | .mean => average values
    | .median => median values
    | .p95 => percentile values 95
    | .p99 => percentile values 99
    | .min => (nth? values 0).getD 0
    | .max => (nth? values (values.length - 1)).getD 0
    | .count => values.length

/-- `statistics.variance`. -/
def variance (values : List ℚ) : ℚ :=
  (values.map fun x => (x - average values) ^ 2).sum / (values.length - 1)

/-- `_calculate_confidence_level`, which is called with the length of the values. -/
def calculateConfidenceLevel (values : List ℚ) : ℚ :=
  if values.length < 10 then 1 / 2
  else if values.length < 100 then 7 / 10
  else
    let coefficientOfVariation :=
      if 0 < average values then variance values / average values else 1
    Max.max (1 / 2) (Min.min 1 (1 - coefficientOfVariation / 2))

/-- What the manager reads of `PerformanceBaseline`, beside what the queries use. -/
structure PerformanceBaseline where
  aggregationMethod : MetricAggregation := .p95
  thresholdPercentage : ℚ := 10

/-- `BaselineResult`, with the values of the metrics. -/
structure BaselineResult where
  values : List ℚ
  calculatedValue : ℚ
  baselineValue : ℚ
  regressionPercentage : ℚ
  isRegression : Bool
  deriving DecidableEq

/-- The field `confidence_level`. -/
def BaselineResult.confidenceLevel (r : BaselineResult) : ℚ :=
  calculateConfidenceLevel r.values

/-- The severity of an alert. -/
inductive Severity
  | high
  | medium
  deriving DecidableEq

/-- `PerformanceAlert`. -/
structure PerformanceAlert where
  severity : Severity
  regressionPercentage : ℚ
  currentValue : ℚ
  baselineValue : ℚ
  thresholdPercentage : ℚ
  deriving DecidableEq

/-- By how much a value differs from the baseline, in percent. -/
def regressionPercentage (value baselineValue : ℚ) : ℚ :=
  (value - baselineValue) / baselineValue * 100

/-- The result of `calculate_baseline`. -/
def resultOf (baseline : PerformanceBaseline) (values : List ℚ) (stored : ℚ) : BaselineResult :=
  let calculatedValue := aggregateValues values baseline.aggregationMethod
  let regression := if 0 < stored then regressionPercentage calculatedValue stored else 0
  { values, calculatedValue
    baselineValue := stored
    regressionPercentage := regression
    isRegression := decide (baseline.thresholdPercentage < |regression|) }

/-- The alert of `_check_immediate_regression` and `_trigger_regression_alert`, if any. -/
def alertOf (baseline : PerformanceBaseline) (current stored : ℚ) : Option PerformanceAlert :=
  let regression := regressionPercentage current stored
  if 0 < stored ∧ baseline.thresholdPercentage < |regression| then
    some {
      severity := if baseline.thresholdPercentage * 2 < |regression| then .high else .medium
      regressionPercentage := regression
      currentValue := current
      baselineValue := stored
      thresholdPercentage := baseline.thresholdPercentage }
  else none

/-- A call of `calculate_baseline` : it has the values of the metrics, or the result, or it has
returned. -/
inductive Calculation
  | queried (values : List ℚ)
  | compared (result : BaselineResult)
  | returned (result : BaselineResult)

/-- The manager, with the last row of `baseline_calculations`, how many there are, the calls of
`record_metric` before and within `_check_immediate_regression`, the calls of
`calculate_baseline`, and the alerts, newest first. -/
structure BaselineManager where
  metricBuffer : List ℚ := []
  unchecked : ℕ := 0
  checks : List (Option ℚ) := []
  calculations : List Calculation := []
  storedValue : ℚ
  stores : ℕ := 0
  alerts : List PerformanceAlert := []

/-- A metric is put into the buffer, or the buffer is read for an immediate check, or the check
number `k` reads the baseline; the metrics of a window are read for a calculation, or the
calculation number `k` reads the baseline or stores its own. -/
inductive Event
  | recordMetric (value : ℚ)
  | checkBuffer
  | checkBaseline (k : ℕ)
  | queryMetrics (values : List ℚ)
  | compareBaseline (k : ℕ)
  | updateBaseline (k : ℕ)

/-- The last hundred metrics of the buffer. -/
def recentMetrics (buffer : List ℚ) : List ℚ :=
  buffer.rtake 100

/-- One event. A calculation without metrics raises at once. -/
def BaselineManager.step (baseline : PerformanceBaseline) (m : BaselineManager) :
    Event → Option BaselineManager
  | .recordMetric value =>
    some { m with
      metricBuffer := BoundedDeque.push 10000 m.metricBuffer value
      unchecked := m.unchecked + 1 }
  | .checkBuffer =>
    if m.unchecked = 0 then none
    else
      let values := recentMetrics m.metricBuffer
      let check :=
        if values.length < 10 then none
        else some (aggregateValues values baseline.aggregationMethod)
      some { m with unchecked := m.unchecked - 1, checks := m.checks ++ [check] }
  | .checkBaseline k =>
    match m.checks[k]? with
    | some (some current) =>
      some { m with
        checks := m.checks.set k none
        alerts := (alertOf baseline current m.storedValue).toList ++ m.alerts }
    | _ => none
  | .queryMetrics values =>
    if values = [] then none
    else some { m with calculations := m.calculations ++ [.queried values] }
  | .compareBaseline k =>
    match m.calculations[k]? with
    | some (.queried values) =>
      let result := resultOf baseline values m.storedValue
      some { m with calculations := m.calculations.set k (.compared result) }
    | _ => none
  | .updateBaseline k =>
    match m.calculations[k]? with
    | some (.compared result) =>
      some { m with
        calculations := m.calculations.set k (.returned result)
        storedValue := result.calculatedValue
        stores := m.stores + 1 }
    | _ => none

/-- The calls for a baseline under every interleaving, from the value that is stored at first. -/
def baselineMachine (baseline : PerformanceBaseline) (stored : ℚ) :
    Machine BaselineManager Event where
  init := { storedValue := stored }
  step := BaselineManager.step baseline

variable {baseline : PerformanceBaseline} {stored : ℚ} {m m' : BaselineManager} {k : ℕ}
  {values : List ℚ}

theorem step_checkBuffer (h : m.step baseline .checkBuffer = some m') :
    m.unchecked ≠ 0 ∧
      m' = { m with
        unchecked := m.unchecked - 1
        checks := m.checks ++ [if (recentMetrics m.metricBuffer).length < 10 then none
          else some (aggregateValues (recentMetrics m.metricBuffer)
            baseline.aggregationMethod)] } := by
  simp only [BaselineManager.step] at h
  have hzero : m.unchecked ≠ 0 := fun hzero => by simp [hzero] at h
  rw [if_neg hzero] at h
  exact ⟨hzero, (Option.some.inj h).symm⟩

theorem step_checkBaseline (h : m.step baseline (.checkBaseline k) = some m') :
    ∃ current, m.checks[k]? = some (some current) ∧
      m' = { m with
        checks := m.checks.set k none
        alerts := (alertOf baseline current m.storedValue).toList ++ m.alerts } := by
  simp only [BaselineManager.step] at h
  split at h
  case h_1 current hk => exact ⟨current, hk, (Option.some.inj h).symm⟩
  case h_2 => simp at h

theorem step_queryMetrics (h : m.step baseline (.queryMetrics values) = some m') :
    values ≠ [] ∧ m' = { m with calculations := m.calculations ++ [.queried values] } := by
  simp only [BaselineManager.step] at h
  split_ifs at h with hvalues
  exact ⟨hvalues, (Option.some.inj h).symm⟩

theorem step_compareBaseline (h : m.step baseline (.compareBaseline k) = some m') :
    ∃ values, m.calculations[k]? = some (.queried values) ∧
      m' = { m with calculations :=
        m.calculations.set k (.compared (resultOf baseline values m.storedValue)) } := by
  simp only [BaselineManager.step] at h
  split at h
  case h_1 values hk => exact ⟨values, hk, (Option.some.inj h).symm⟩
  case h_2 => simp at h

theorem step_updateBaseline (h : m.step baseline (.updateBaseline k) = some m') :
    ∃ result, m.calculations[k]? = some (.compared result) ∧
      m' = { m with
        calculations := m.calculations.set k (.returned result)
        storedValue := result.calculatedValue
        stores := m.stores + 1 } := by
  simp only [BaselineManager.step] at h
  split at h
  case h_1 result hk => exact ⟨result, hk, (Option.some.inj h).symm⟩
  case h_2 => simp at h

/-! ## What is aggregated -/

variable {c : ℚ}

theorem nth?_percentile (hvalues : values ≠ []) {p : ℕ} (hp : p < 100) :
    nth? values (p * values.length / 100) = some (percentile values p) := by
  have hpos := List.length_pos_iff.mpr hvalues
  have hmul : p * values.length < 100 * values.length := Nat.mul_lt_mul_of_pos_right hp hpos
  have hindex : Nat.min (p * values.length / 100) (values.length - 1) =
      p * values.length / 100 := Nat.min_eq_left (by omega)
  have hlt : p * values.length / 100 < values.length := by omega
  obtain ⟨x, hx⟩ := Option.isSome_iff_exists.mp (nth?_isSome hlt)
  unfold percentile
  rw [if_neg hvalues]
  dsimp only
  rw [hindex, hx]
  rfl

/-- A percentile is over a bound exactly if at most so many percent of the values are within
it. -/
theorem lt_percentile_iff (hvalues : values ≠ []) {p : ℕ} (hp : p < 100) (t : ℚ) :
    t < percentile values p ↔ 100 * values.countP (· ≤ t) ≤ p * values.length := by
  rw [lt_iff_of_nth? (nth?_percentile hvalues hp), Nat.le_div_iff_mul_le (by decide),
    Nat.mul_comm]

theorem percentile_lt_iff (hvalues : values ≠ []) {p : ℕ} (hp : p < 100) (t : ℚ) :
    percentile values p < t ↔ p * values.length < 100 * values.countP (· < t) := by
  rw [← not_le, le_iff_of_nth? (nth?_percentile hvalues hp),
    Nat.le_div_iff_mul_le (by decide), Nat.mul_comm, not_le]

/-- The aggregate of a single value. -/
theorem aggregateValues_singleton (v : ℚ) {a : MetricAggregation} (ha : a ≠ .count) :
    aggregateValues [v] a = v := by
  have hzero : (nth? [v] 0).getD 0 = v := rfl
  cases a with
  | mean => simp [aggregateValues, average]
  | median => simpa [aggregateValues, median] using hzero
  | p95 => simpa [aggregateValues, percentile] using hzero
  | p99 => simpa [aggregateValues, percentile] using hzero
  | min => simpa [aggregateValues] using hzero
  | max => simpa [aggregateValues] using hzero
  | count => exact absurd rfl ha

/-! ## The unit of the metrics -/

theorem nth?_scale (hc : 0 < c) (k : ℕ) :
    (nth? (values.map (c * ·)) k).getD 0 = c * (nth? values k).getD 0 := by
  rw [nth?_map fun _ _ h => mul_lt_mul_of_pos_left h hc]
  cases nth? values k <;> simp

theorem average_scale (values : List ℚ) : average (values.map (c * ·)) = c * average values := by
  rw [average, average, List.length_map, List.sum_map_mul_left, List.map_id', mul_div_assoc]

/-- What becomes of an aggregated value when the unit of the values changes. -/
def factor (c : ℚ) : MetricAggregation → ℚ
  | .count => 1
  | _ => c

theorem factor_pos (hc : 0 < c) (a : MetricAggregation) : 0 < factor c a := by
  cases a <;> first | exact hc | exact one_pos

theorem aggregateValues_scale (hc : 0 < c) (values : List ℚ) (a : MetricAggregation) :
    aggregateValues (values.map (c * ·)) a = factor c a * aggregateValues values a := by
  unfold aggregateValues
  by_cases hvalues : values = []
  · simp [hvalues]
  rw [if_neg hvalues, if_neg (by simpa using hvalues)]
  have hpercentile : ∀ p, percentile (values.map (c * ·)) p = c * percentile values p := by
    intro p
    unfold percentile
    rw [if_neg hvalues, if_neg (by simpa using hvalues), List.length_map]
    exact nth?_scale hc _
  cases a with
  | mean => exact average_scale values
  | median =>
    simp only [factor, median, List.length_map, nth?_scale hc]
    split_ifs
    · rfl
    · ring
  | p95 => exact hpercentile 95
  | p99 => exact hpercentile 99
  | min => exact nth?_scale hc _
  | max =>
    simp only [List.length_map]
    exact nth?_scale hc _
  | count => simp [factor]

/-- The difference in percent has no unit. -/
theorem regressionPercentage_scale (hc : 0 < c) (x y : ℚ) :
    regressionPercentage (c * x) (c * y) = regressionPercentage x y := by
  rw [regressionPercentage, ← mul_sub, mul_div_mul_left _ _ hc.ne', regressionPercentage]

/-- A result in another unit. -/
def BaselineResult.scale (c : ℚ) (a : MetricAggregation) (r : BaselineResult) : BaselineResult :=
  { r with
    values := r.values.map (c * ·)
    calculatedValue := factor c a * r.calculatedValue
    baselineValue := factor c a * r.baselineValue }

/-- An alert in another unit. -/
def PerformanceAlert.scale (c : ℚ) (alert : PerformanceAlert) : PerformanceAlert :=
  { alert with
    currentValue := c * alert.currentValue
    baselineValue := c * alert.baselineValue }

/-- A call in another unit. -/
def Calculation.scale (c : ℚ) (a : MetricAggregation) : Calculation → Calculation
  | .queried values => .queried (values.map (c * ·))
  | .compared r => .compared (r.scale c a)
  | .returned r => .returned (r.scale c a)

/-- An event in another unit. -/
def Event.scale (c : ℚ) : Event → Event
  | .recordMetric value => .recordMetric (c * value)
  | .queryMetrics values => .queryMetrics (values.map (c * ·))
  | e => e

/-- A state in another unit. -/
def BaselineManager.scale (c : ℚ) (a : MetricAggregation) (m : BaselineManager) :
    BaselineManager :=
  { m with
    metricBuffer := m.metricBuffer.map (c * ·)
    checks := m.checks.map (Option.map (factor c a * ·))
    calculations := m.calculations.map (Calculation.scale c a)
    storedValue := factor c a * m.storedValue
    alerts := m.alerts.map (PerformanceAlert.scale (factor c a)) }

theorem resultOf_scale (hc : 0 < c) (baseline : PerformanceBaseline) (values : List ℚ)
    (stored : ℚ) :
    resultOf baseline (values.map (c * ·)) (factor c baseline.aggregationMethod * stored) =
      (resultOf baseline values stored).scale c baseline.aggregationMethod := by
  have hf := factor_pos hc baseline.aggregationMethod
  simp only [resultOf, BaselineResult.scale, aggregateValues_scale hc,
    regressionPercentage_scale hf, mul_pos_iff_of_pos_left hf]

theorem alertOf_scale (hc : 0 < c) (baseline : PerformanceBaseline) (current stored : ℚ) :
    alertOf baseline (c * current) (c * stored) =
      (alertOf baseline current stored).map (PerformanceAlert.scale c) := by
  simp only [alertOf, regressionPercentage_scale hc, mul_pos_iff_of_pos_left hc]
  split_ifs <;> rfl

theorem push_scale (n : ℕ) (l : List ℚ) (x : ℚ) :
    BoundedDeque.push n (l.map (c * ·)) (c * x) = (BoundedDeque.push n l x).map (c * ·) := by
  simp [BoundedDeque.push, List.rtake, List.map_drop]

variable {e : Event}

/-- A step in another unit. -/
theorem step_scale (hc : 0 < c) (h : m.step baseline e = some m') :
    (m.scale c baseline.aggregationMethod).step baseline (e.scale c) =
      some (m'.scale c baseline.aggregationMethod) := by
  have hf := factor_pos hc baseline.aggregationMethod
  cases e with
  | recordMetric value =>
    obtain rfl := Option.some.inj h
    simp [BaselineManager.step, BaselineManager.scale, Event.scale, push_scale]
  | checkBuffer =>
    obtain ⟨hzero, rfl⟩ := step_checkBuffer h
    have hrecent : recentMetrics (m.metricBuffer.map (c * ·)) =
        (recentMetrics m.metricBuffer).map (c * ·) := by
      simp [recentMetrics, List.rtake, List.map_drop]
    simp only [BaselineManager.step, BaselineManager.scale, Event.scale, if_neg hzero, hrecent,
      List.length_map, aggregateValues_scale hc, List.map_append, List.map_cons, List.map_nil]
    split_ifs <;> rfl
  | checkBaseline k =>
    obtain ⟨current, hk, rfl⟩ := step_checkBaseline h
    simp [BaselineManager.step, BaselineManager.scale, Event.scale, hk, alertOf_scale hf,
      List.map_set, Option.toList_map]
  | queryMetrics values =>
    obtain ⟨hvalues, rfl⟩ := step_queryMetrics h
    simp [BaselineManager.step, BaselineManager.scale, Event.scale, hvalues, Calculation.scale]
  | compareBaseline k =>
    obtain ⟨values, hk, rfl⟩ := step_compareBaseline h
    simp [BaselineManager.step, BaselineManager.scale, Event.scale, hk, Calculation.scale,
      resultOf_scale hc, List.map_set]
  | updateBaseline k =>
    obtain ⟨result, hk, rfl⟩ := step_updateBaseline h
    simp [BaselineManager.step, BaselineManager.scale, Event.scale, hk, Calculation.scale,
      List.map_set, BaselineResult.scale]

/-- The results of the calls that have returned. -/
def BaselineManager.results (m : BaselineManager) : List BaselineResult :=
  m.calculations.filterMap fun
    | .returned r => some r
    | _ => none

theorem results_scale (c : ℚ) (a : MetricAggregation) (m : BaselineManager) :
    (m.scale c a).results = m.results.map (BaselineResult.scale c a) := by
  simp only [BaselineManager.results, BaselineManager.scale, List.filterMap_map,
    List.map_filterMap]
  congr 1
  funext call
  cases call <;> rfl

variable {es : List Event}

theorem variance_scale (c : ℚ) (values : List ℚ) :
    variance (values.map (c * ·)) = c ^ 2 * variance values := by
  unfold variance
  rw [average_scale, List.map_map, List.length_map, mul_div_assoc', ← List.sum_map_mul_left]
  congr 3
  funext x
  simp only [Function.comp_apply]
  ring

/-- The confidence level of a result depends on the unit : some unit makes it any number from a
half up to one. -/
theorem exists_unit (baseline : PerformanceBaseline) (stored : ℚ)
    (hlength : 100 ≤ values.length) (haverage : 0 < average values)
    (hvariance : 0 < variance values) {level : ℚ} (hlevel : 1 / 2 ≤ level) (hone : level < 1) :
    ∃ c, 0 < c ∧ (resultOf baseline (values.map (c * ·))
      (factor c baseline.aggregationMethod * stored)).confidenceLevel = level := by
  have hpos : 0 < variance values / average values := div_pos hvariance haverage
  refine ⟨2 * (1 - level) / (variance values / average values),
    div_pos (by linarith) hpos, ?_⟩
  generalize hc : 2 * (1 - level) / (variance values / average values) = c
  have hcpos : 0 < c := hc ▸ div_pos (by linarith) hpos
  have hcoefficient : variance (values.map (c * ·)) / average (values.map (c * ·)) =
      2 * (1 - level) := by
    rw [variance_scale, average_scale, sq, mul_assoc, mul_div_mul_left _ _ hcpos.ne',
      mul_div_assoc, ← hc, div_mul_cancel₀ _ hpos.ne']
  change calculateConfidenceLevel (values.map (c * ·)) = level
  unfold calculateConfidenceLevel
  rw [List.length_map, if_neg (by omega), if_neg (by omega)]
  dsimp only
  rw [average_scale, if_pos (mul_pos hcpos haverage), ← average_scale, hcoefficient,
    show 1 - 2 * (1 - level) / 2 = level by ring, min_eq_right hone.le, max_eq_right hlevel]

theorem exists_unit_of_range :
    ∃ c : ℚ, 0 < c ∧ (resultOf {} (((List.range 100).map fun k => (k : ℚ)).map (c * ·))
      (factor c .p95 * 5)).confidenceLevel = 9 / 10 :=
  exists_unit {} 5 (by decide) (by decide +kernel) (by decide +kernel) (by decide +kernel)
    (by decide +kernel)

/-! ## What no result flags -/

/-- The event is a comparison that finds a regression. -/
def flags (baseline : PerformanceBaseline) (m : BaselineManager) : Event → Bool
  | .compareBaseline k =>
    match m.calculations[k]? with
    | some (.queried values) => (resultOf baseline values m.storedValue).isRegression
    | _ => false
  | _ => false

/-- A value between the bounds that `n` changes by the threshold lead to. -/
structure Within (baseline : PerformanceBaseline) (stored : ℚ) (n : ℕ) (v : ℚ) : Prop where
  lower : stored * (1 - baseline.thresholdPercentage / 100) ^ n ≤ v
  upper : v ≤ stored * (1 + baseline.thresholdPercentage / 100) ^ n

/-- What is over a threshold, above or below. -/
theorem lt_abs_regressionPercentage_iff (hstored : 0 < stored) (θ v : ℚ) :
    θ < |regressionPercentage v stored| ↔
      stored * (1 + θ / 100) < v ∨ v < stored * (1 - θ / 100) := by
  have hpercent : regressionPercentage v stored * stored = (v - stored) * 100 := by
    rw [regressionPercentage, mul_right_comm, div_mul_cancel₀ _ hstored.ne']
  rw [lt_abs]
  refine or_congr ?_ ?_
  · rw [← mul_lt_mul_iff_left₀ hstored, hpercent]
    constructor <;> intro h <;> linarith
  · rw [← mul_lt_mul_iff_left₀ hstored, neg_mul, hpercent]
    constructor <;> intro h <;> linarith

variable {n : ℕ} {v : ℚ}

theorem Within.mono (hp : 0 ≤ baseline.thresholdPercentage)
    (hp' : baseline.thresholdPercentage < 100) (hstored : 0 < stored) (hnk : n ≤ k)
    (h : Within baseline stored n v) : Within baseline stored k v where
  lower := by
    refine le_trans (mul_le_mul_of_nonneg_left ?_ hstored.le) h.lower
    exact pow_le_pow_of_le_one (by linarith) (by linarith) hnk
  upper := by
    refine h.upper.trans (mul_le_mul_of_nonneg_left ?_ hstored.le)
    exact pow_le_pow_right₀ (by linarith) hnk

theorem Within.pos (hp' : baseline.thresholdPercentage < 100) (hstored : 0 < stored)
    (h : Within baseline stored n v) : 0 < v :=
  (mul_pos hstored (pow_pos (by linarith) n)).trans_le h.lower

/-- A comparison that finds no regression allows one change more. -/
theorem Within.calculatedValue (hp : 0 ≤ baseline.thresholdPercentage)
    (hp' : baseline.thresholdPercentage < 100)
    (hstored : 0 < stored) (h : Within baseline stored n v)
    (hflag : (resultOf baseline values v).isRegression = false) :
    Within baseline stored (n + 1) (resultOf baseline values v).calculatedValue := by
  have hv := h.pos hp' hstored
  have hnot : ¬baseline.thresholdPercentage <
      |regressionPercentage (aggregateValues values baseline.aggregationMethod) v| := by
    simpa [resultOf, hv] using hflag
  rw [lt_abs_regressionPercentage_iff hv, not_or, not_lt, not_lt] at hnot
  refine ⟨?_, ?_⟩
  · refine le_trans ?_ hnot.2
    rw [pow_succ, ← mul_assoc]
    exact mul_le_mul_of_nonneg_right h.lower (by linarith)
  · refine hnot.1.trans ?_
    rw [pow_succ, ← mul_assoc]
    exact mul_le_mul_of_nonneg_right h.upper (by linarith)

/-- What is kept while no comparison finds a regression. -/
structure Drift (baseline : PerformanceBaseline) (stored : ℚ) (m : BaselineManager) : Prop where
  storedValue : Within baseline stored m.stores m.storedValue
  compared : ∀ (k : ℕ) (r : BaselineResult), m.calculations[k]? = some (Calculation.compared r) →
    Within baseline stored (m.stores + 1) r.calculatedValue

theorem drift_step (hp : 0 ≤ baseline.thresholdPercentage)
    (hp' : baseline.thresholdPercentage < 100) (hstored : 0 < stored)
    (hm : Drift baseline stored m) (hflag : flags baseline m e = false)
    (h : m.step baseline e = some m') : Drift baseline stored m' := by
  cases e with
  | recordMetric value =>
    obtain rfl := Option.some.inj h
    exact ⟨hm.storedValue, hm.compared⟩
  | checkBuffer =>
    obtain ⟨-, rfl⟩ := step_checkBuffer h
    exact ⟨hm.storedValue, hm.compared⟩
  | checkBaseline k =>
    obtain ⟨current, -, rfl⟩ := step_checkBaseline h
    exact ⟨hm.storedValue, hm.compared⟩
  | queryMetrics values =>
    obtain ⟨-, rfl⟩ := step_queryMetrics h
    refine ⟨hm.storedValue, fun k r hk => ?_⟩
    rcases getElem?_concat_cases hk with hk | ⟨-, hr⟩
    · exact hm.compared k r hk
    · cases hr
  | compareBaseline k =>
    obtain ⟨values, hk, rfl⟩ := step_compareBaseline h
    refine ⟨hm.storedValue, fun j r hj => ?_⟩
    rcases getElem?_set_cases hj with ⟨-, hj⟩ | ⟨-, hr⟩
    · exact hm.compared j r hj
    · cases hr
      simp only [flags, hk] at hflag
      exact hm.storedValue.calculatedValue hp hp' hstored hflag
  | updateBaseline k =>
    obtain ⟨result, hk, rfl⟩ := step_updateBaseline h
    refine ⟨hm.compared k result hk, fun j r hj => ?_⟩
    rcases getElem?_set_cases hj with ⟨-, hj⟩ | ⟨-, hr⟩
    · exact (hm.compared j r hj).mono hp hp' hstored (Nat.le_succ _)
    · cases hr

theorem regressionFlag_of_le (hp : 0 ≤ baseline.thresholdPercentage) (hv : 0 < v)
    (hvalues : aggregateValues values baseline.aggregationMethod =
      v * (1 + baseline.thresholdPercentage / 100)) :
    (resultOf baseline values v).isRegression = false := by
  have hnot : ¬baseline.thresholdPercentage <
      |regressionPercentage (aggregateValues values baseline.aggregationMethod) v| := by
    rw [lt_abs_regressionPercentage_iff hv, hvalues, not_or, not_lt, not_lt]
    exact ⟨le_rfl, mul_le_mul_of_nonneg_left (by linarith) hv.le⟩
  simpa [resultOf, hv] using hnot

/-- It does change by as much, however often, as each result is compared with the last one
only. -/
theorem exists_drift (hp : 0 ≤ baseline.thresholdPercentage) (hstored : 0 < stored)
    (ha : baseline.aggregationMethod ≠ .count) (n : ℕ) :
    ∃ es m, (baselineMachine baseline stored).Run (fun m e => flags baseline m e = false) es m ∧
      m.stores = n ∧
      m.storedValue = stored * (1 + baseline.thresholdPercentage / 100) ^ n := by
  induction n with
  | zero => exact ⟨[], _, .nil, rfl, by simp [baselineMachine]⟩
  | succ n ih =>
    obtain ⟨es, m, hrun, hstores, hvalue⟩ := ih
    have hpos : 0 < m.storedValue := hvalue ▸ mul_pos hstored (pow_pos (by linarith) n)
    generalize hv : m.storedValue * (1 + baseline.thresholdPercentage / 100) = v
    have haggregate : aggregateValues [v] baseline.aggregationMethod = v :=
      aggregateValues_singleton v ha
    -- one call of `calculate_baseline`, for a single metric at the threshold
    have hquery := hrun.snoc (e := .queryMetrics [v]) (by rfl) (by rfl)
    have hcompare := hquery.snoc (e := .compareBaseline m.calculations.length)
      (by simpa [flags] using regressionFlag_of_le hp hpos (haggregate.trans hv.symm))
      (by simp only [baselineMachine, BaselineManager.step, List.getElem?_concat_length]; rfl)
    have hcalculation : ((m.calculations ++ [Calculation.queried [v]]).set m.calculations.length
        (.compared (resultOf baseline [v] m.storedValue)))[m.calculations.length]? =
          some (.compared (resultOf baseline [v] m.storedValue)) := by simp
    have hupdate := hcompare.snoc (e := .updateBaseline m.calculations.length)
      (by rfl) (by simp only [baselineMachine, BaselineManager.step, hcalculation]; rfl)
    refine ⟨_, _, hupdate, by simp [hstores], ?_⟩
    rw [pow_succ, ← mul_assoc, ← hvalue, hv]
    exact haggregate

/-- Eight calculations without a regression double the stored value. -/
theorem exists_drift_eight :
    ∃ es m, (baselineMachine {} 100).Run (fun m e => flags {} m e = false) es m ∧
      m.stores = 8 ∧ 2 * 100 < m.storedValue := by
  have hstored : (0 : ℚ) < 100 := by decide
  have hthreshold : 0 ≤ ({} : PerformanceBaseline).thresholdPercentage := by decide
  obtain ⟨es, m, hrun, hstores, hvalue⟩ := exists_drift hthreshold hstored (by decide) 8
  exact ⟨es, m, hrun, hstores, by rw [hvalue]; norm_num⟩

/-! ## What an alert says -/

/-- The metrics that are recorded, in their order. -/
def recorded (es : List Event) : List ℚ :=
  es.filterMap fun
    | .recordMetric value => some value
    | _ => none

/-- At most `p` percent of the values are not over the baseline by more than the threshold, or
more than `p` percent are below it by more than the threshold. -/
def Differs (window : List ℚ) (p : ℕ) (stored θ : ℚ) : Prop :=
  100 * window.countP (· ≤ stored * (1 + θ / 100)) ≤ p * window.length ∨
    p * window.length < 100 * window.countP (· < stored * (1 - θ / 100))

theorem lt_abs_percentile_iff (hstored : 0 < stored) (hvalues : values ≠ []) {p : ℕ}
    (hp : p < 100) (θ : ℚ) :
    θ < |regressionPercentage (percentile values p) stored| ↔ Differs values p stored θ := by
  rw [lt_abs_regressionPercentage_iff hstored, lt_percentile_iff hvalues hp,
    percentile_lt_iff hvalues hp, Differs]

/-- The metrics that a check reads after the events. -/
def window (es : List Event) : List ℚ :=
  (recorded es).rtake 100

/-- The number of percent of a percentile. -/
def percentOf : MetricAggregation → Option ℕ
  | .p95 => some 95
  | .p99 => some 99
  | _ => none

theorem aggregateValues_eq_percentile {a : MetricAggregation} {p : ℕ} (ha : percentOf a = some p)
    (hvalues : values ≠ []) : aggregateValues values a = percentile values p ∧ p < 100 := by
  cases a <;> simp only [percentOf, reduceCtorEq, Option.some.injEq] at ha
  case p95 => subst ha; exact ⟨by simp [aggregateValues, hvalues], by decide⟩
  case p99 => subst ha; exact ⟨by simp [aggregateValues, hvalues], by decide⟩

/-- What an alert says of the metrics that were read for it. -/
structure AlertLaw (baseline : PerformanceBaseline) (p : ℕ) (fs : List Event)
    (alert : PerformanceAlert) : Prop where
  enough : 10 ≤ (window fs).length
  pos : 0 < alert.baselineValue
  differs : Differs (window fs) p alert.baselineValue baseline.thresholdPercentage
  severity : alert.severity = .high ↔
    Differs (window fs) p alert.baselineValue (baseline.thresholdPercentage * 2)

theorem alertLaw_of_alertOf {p : ℕ} (hp : percentOf baseline.aggregationMethod = some p)
    {fs : List Event} (henough : 10 ≤ (window fs).length) {alert : PerformanceAlert}
    (h : alertOf baseline (aggregateValues (window fs) baseline.aggregationMethod) stored =
      some alert) : AlertLaw baseline p fs alert := by
  have hne : window fs ≠ [] := by
    intro hnil
    simp [hnil] at henough
  obtain ⟨hvalue, hlt⟩ := aggregateValues_eq_percentile hp hne
  rw [hvalue] at h
  simp only [alertOf] at h
  split_ifs at h with hraised hhigh
  · obtain rfl := Option.some.inj h
    rw [lt_abs_percentile_iff hraised.1 hne hlt] at hhigh
    exact ⟨henough, hraised.1, (lt_abs_percentile_iff hraised.1 hne hlt _).mp hraised.2,
      iff_of_true rfl hhigh⟩
  · obtain rfl := Option.some.inj h
    rw [lt_abs_percentile_iff hraised.1 hne hlt] at hhigh
    exact ⟨henough, hraised.1, (lt_abs_percentile_iff hraised.1 hne hlt _).mp hraised.2,
      iff_of_false (by simp) hhigh⟩

/-- Where the buffer, the values to be checked and the alerts come from. -/
structure Watched (baseline : PerformanceBaseline) (p : ℕ) (es : List Event)
    (m : BaselineManager) : Prop where
  metricBuffer : m.metricBuffer = (recorded es).rtake 10000
  checks : ∀ current, some current ∈ m.checks → ∃ fs, fs <+: es ∧ 10 ≤ (window fs).length ∧
    current = aggregateValues (window fs) baseline.aggregationMethod
  alerts : ∀ alert ∈ m.alerts, ∃ fs, fs <+: es ∧ AlertLaw baseline p fs alert

/-- More events, none of which records a metric. -/
theorem Watched.snoc {p : ℕ} (hm : Watched baseline p es m)
    (he : recorded [e] = []) : Watched baseline p (es ++ [e]) m where
  metricBuffer := by
    have hrecorded : recorded (es ++ [e]) = recorded es := by
      rw [recorded, List.filterMap_append]
      exact (congrArg _ he).trans (List.append_nil _)
    rw [hrecorded, hm.metricBuffer]
  checks current h := by
    obtain ⟨fs, hfs, hcheck⟩ := hm.checks current h
    exact ⟨fs, hfs.trans (List.prefix_append _ _), hcheck⟩
  alerts alert h := by
    obtain ⟨fs, hfs, halert⟩ := hm.alerts alert h
    exact ⟨fs, hfs.trans (List.prefix_append _ _), halert⟩

theorem recentMetrics_of_metricBuffer {p : ℕ} (hm : Watched baseline p es m) :
    recentMetrics m.metricBuffer = window es := by
  rw [hm.metricBuffer, recentMetrics, BoundedDeque.rtake_rtake_of_le (by decide), window]

theorem watched_step {p : ℕ} (hp : percentOf baseline.aggregationMethod = some p)
    (hm : Watched baseline p es m) (h : m.step baseline e = some m') :
    Watched baseline p (es ++ [e]) m' := by
  cases e with
  | recordMetric value =>
    obtain rfl := Option.some.inj h
    refine ⟨?_, fun current hcurrent => ?_, fun alert halert => ?_⟩
    · have hrecorded : recorded (es ++ [.recordMetric value]) = recorded es ++ [value] := by
        rw [recorded, List.filterMap_append]
        rfl
      dsimp only
      rw [hrecorded, hm.metricBuffer, BoundedDeque.push_rtake]
    · obtain ⟨fs, hfs, hcheck⟩ := hm.checks current hcurrent
      exact ⟨fs, hfs.trans (List.prefix_append _ _), hcheck⟩
    · obtain ⟨fs, hfs, hlaw⟩ := hm.alerts alert halert
      exact ⟨fs, hfs.trans (List.prefix_append _ _), hlaw⟩
  | checkBuffer =>
    obtain ⟨-, rfl⟩ := step_checkBuffer h
    have hm' := hm.snoc (e := .checkBuffer) rfl
    refine ⟨hm'.metricBuffer, fun current hcurrent => ?_, hm'.alerts⟩
    rcases List.mem_append.mp hcurrent with hold | hnew
    · exact hm'.checks current hold
    · rw [recentMetrics_of_metricBuffer hm, List.mem_singleton] at hnew
      split_ifs at hnew with hfew
      exact ⟨es, List.prefix_append _ _, not_lt.mp hfew, Option.some.inj hnew⟩
  | checkBaseline k =>
    obtain ⟨current, hk, rfl⟩ := step_checkBaseline h
    have hm' := hm.snoc (e := .checkBaseline k) rfl
    refine ⟨hm'.metricBuffer, fun other hother => ?_, fun alert halert => ?_⟩
    · rcases List.mem_or_eq_of_mem_set hother with hold | hnone
      · exact hm'.checks other hold
      · cases hnone
    · rcases List.mem_append.mp halert with hnew | hold
      · obtain ⟨fs, hfs, henough, rfl⟩ := hm'.checks current (List.mem_of_getElem? hk)
        exact ⟨fs, hfs, alertLaw_of_alertOf hp henough (Option.mem_toList.mp hnew)⟩
      · exact hm'.alerts alert hold
  | queryMetrics values =>
    obtain ⟨-, rfl⟩ := step_queryMetrics h
    have hm' := hm.snoc (e := .queryMetrics values) rfl
    exact ⟨hm'.metricBuffer, hm'.checks, hm'.alerts⟩
  | compareBaseline k =>
    obtain ⟨values, -, rfl⟩ := step_compareBaseline h
    have hm' := hm.snoc (e := .compareBaseline k) rfl
    exact ⟨hm'.metricBuffer, hm'.checks, hm'.alerts⟩
  | updateBaseline k =>
    obtain ⟨result, -, rfl⟩ := step_updateBaseline h
    have hm' := hm.snoc (e := .updateBaseline k) rfl
    exact ⟨hm'.metricBuffer, hm'.checks, hm'.alerts⟩

end Baselines

end MultiAgent
