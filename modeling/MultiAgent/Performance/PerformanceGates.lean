import MultiAgent.Lib.Dict
import MultiAgent.Performance.BaselineManager

/-!
# Performance gates of a load test

`PerformanceGateValidator` of `libs/performance/locust_profiles.py`. A gate is kept under the value
of its member, the metrics of the requests under other names (`metrics_step`), and a gate without
metrics of its name is passed over. So no load test violates a gate.
-/

namespace MultiAgent

namespace PerformanceGates

open Baselines (percentile)

/-- `PerformanceGate`. -/
inductive PerformanceGate
  | latencyP95Ms
  | latencyP99Ms
  | errorRatePercent
  | throughputRps
  | costPerRequest
  deriving DecidableEq

/-- The value of a `PerformanceGate`. -/
def PerformanceGate.value : PerformanceGate → String
  | .latencyP95Ms => "latency_p95_ms"
  | .latencyP99Ms => "latency_p99_ms"
  | .errorRatePercent => "error_rate_percent"
  | .throughputRps => "throughput_rps"
  | .costPerRequest => "cost_per_request"

/-- `GateThreshold`. -/
structure GateThreshold where
  gate : PerformanceGate
  thresholdValue : ℚ
  severity : String
  deriving DecidableEq

/-- An entry of `violations`. -/
structure Violation where
  gate : String
  actual : ℚ
  threshold : ℚ
  severity : String
  deriving DecidableEq

/-- `PerformanceGateValidator`. -/
structure PerformanceGateValidator where
  gates : Dict String GateThreshold := .empty
  metrics : Dict String (List ℚ) := .empty

namespace PerformanceGateValidator

/-- `add_gate`. -/
def addGate (v : PerformanceGateValidator) (gate : PerformanceGate) (thresholdValue : ℚ)
    (severity : String) : PerformanceGateValidator :=
  { v with gates := v.gates.set gate.value { gate, thresholdValue, severity } }

/-- A metric is appended to those of its name. -/
def collect (v : PerformanceGateValidator) (name : String) (x : ℚ) : PerformanceGateValidator :=
  { v with metrics := v.metrics.set name (v.metrics.getD name [] ++ [x]) }

/-- `_on_request`. -/
def onRequest (v : PerformanceGateValidator) (responseTime : ℚ) (exception : Bool) :
    PerformanceGateValidator :=
  let v := if "latency" ∈ v.gates then v.collect "latency" responseTime else v
  v.collect "error_rate" (if exception then 1 else 0)

end PerformanceGateValidator

/-- What `_on_test_stop` compares with the threshold of a gate. -/
def actual (metrics : List ℚ) : PerformanceGate → Option ℚ
  | .latencyP95Ms => some (percentile metrics 95)
  | .latencyP99Ms => some (percentile metrics 99)
  | .errorRatePercent => some (metrics.sum / metrics.length * 100)
  | _ => none

/-- The violation of a gate by its metrics, if any. -/
def violation (gateName : String) (gate : GateThreshold) (metrics : List ℚ) : Option Violation :=
  if metrics = [] then none
  else
    match actual metrics gate.gate with
    | some actual =>
      if gate.thresholdValue < actual then
        some { gate := gateName, actual, threshold := gate.thresholdValue
               severity := gate.severity }
      else none
    | none => none

/-- `_on_test_stop` : the violations that it logs. -/
def PerformanceGateValidator.onTestStop (v : PerformanceGateValidator) : List Violation :=
  v.gates.items.filterMap fun item =>
    match v.metrics.get? item.1 with
    | some metrics => violation item.1 item.2 metrics
    | none => none

/-- A gate is added, or a request ends. -/
inductive Event
  | addGate (gate : PerformanceGate) (thresholdValue : ℚ) (severity : String)
  | request (responseTime : ℚ) (exception : Bool)

/-- The validator during a load test. -/
def validatorMachine : Machine PerformanceGateValidator Event where
  init := {}
  step v
    | .addGate gate thresholdValue severity => some (v.addGate gate thresholdValue severity)
    | .request responseTime exception => some (v.onRequest responseTime exception)

/-! ## What a gate is judged by -/

variable {v v' : PerformanceGateValidator} {es : List Event} {e : Event}

/-- The names of the gates and of the metrics. -/
structure Names (v : PerformanceGateValidator) : Prop where
  gates : ∀ name ∈ v.gates, ∃ gate : PerformanceGate, name = gate.value
  metrics : ∀ name ∈ v.metrics, name = "error_rate"

theorem value_ne (gate : PerformanceGate) :
    gate.value ≠ "latency" ∧ gate.value ≠ "error_rate" := by
  cases gate <;> decide

theorem metrics_step (hv : Names v) (h : validatorMachine.step v e = some v') : Names v' := by
  cases e with
  | addGate gate thresholdValue severity =>
    obtain rfl := Option.some.inj h
    refine ⟨fun name hname => ?_, hv.metrics⟩
    rcases Dict.mem_set.mp hname with rfl | hname
    · exact ⟨gate, rfl⟩
    · exact hv.gates name hname
  | request responseTime exception =>
    obtain rfl := Option.some.inj h
    -- no gate has the name that the latencies are collected for
    have hlatency : "latency" ∉ v.gates := by
      intro hmem
      obtain ⟨gate, hgate⟩ := hv.gates _ hmem
      exact (value_ne gate).1 hgate.symm
    simp only [PerformanceGateValidator.onRequest, if_neg hlatency]
    refine ⟨hv.gates, fun name hname => ?_⟩
    rcases Dict.mem_set.mp hname with rfl | hname
    · rfl
    · exact hv.metrics name hname

/-- However slow or faulty the requests of a load test are, no gate is violated. -/
theorem onTestStop_of_run (h : validatorMachine.Run (fun _ _ => True) es v) :
    v.onTestStop = [] := by
  have hv : Names v := by
    refine h.invariant ⟨fun name hname => ?_, fun name hname => ?_⟩ fun _ _ _ hv _ hst =>
      metrics_step hv hst
    · exact absurd hname (Dict.not_mem_empty name)
    · exact absurd hname (Dict.not_mem_empty name)
  refine List.filterMap_eq_nil_iff.mpr fun item hitem => ?_
  obtain ⟨gate, hgate⟩ := hv.gates item.1 (List.mem_map_of_mem hitem)
  have hnone : v.metrics.get? item.1 = none := by
    refine Dict.get?_eq_none.mpr fun hmem => ?_
    exact (value_ne gate).2 (hgate ▸ hv.metrics item.1 hmem)
  rw [hnone]

theorem onTestStop_of_failures :
    ∃ v, validatorMachine.Run (fun _ _ => True)
        [.addGate .latencyP95Ms 1000 "warning", .addGate .errorRatePercent 2 "critical",
          .request 60000 true, .request 60000 true] v ∧ v.onTestStop = [] := by
  obtain ⟨v, hrun, -⟩ := Machine.exists_run validatorMachine (fun _ _ => True)
    [.addGate .latencyP95Ms 1000 "warning", .addGate .errorRatePercent 2 "critical",
      .request 60000 true, .request 60000 true] (fun _ => true) (by decide +kernel)
  exact ⟨v, hrun, onTestStop_of_run hrun⟩

end PerformanceGates

end MultiAgent
