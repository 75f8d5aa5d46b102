import MultiAgent.Lib.Dict
import MultiAgent.Lib.Machine

/-!
# Coordinated cancellation

`CoordinatedCancellationManager` of `libs/clients/http/coordinated_cancellation.py`. An id is
fresh and no cancellation is ever removed (`cleanup_completed_cancellations` raises before it
removes one, since `timedelta` is not imported), so the cancellations are a list and an id is a
position in it. A cancellation is kept with its executions, which are the tasks that
`initiate_cancellation` and `cancel_all_tenant_requests` create, and an execution with the
calls of `_cancel_service_request` it creates. What a signal comes to is an event.

`_cancel_service_request` turns an exception into the value `False` (`cancelServiceRequest`),
and its caller looks for exceptions among the results. Nothing else in the block of
`_execute_coordinated_cancellation` raises, so its handler is left out.
-/

namespace MultiAgent

namespace CoordinatedCancellation

/-- `CancellationReason`. -/
inductive CancellationReason
  | userRequested
  | timeout
  | error
  | circuitBreaker
  | resourceExhausted
  | hedgeWin
  | workflowCompleted
  deriving DecidableEq

/-- `CancellationReason.value`. -/
def CancellationReason.value : CancellationReason → String
  | userRequested => "user_requested"
  | timeout => "timeout"
  | error => "error"
  | circuitBreaker => "circuit_breaker"
  | resourceExhausted => "resource_exhausted"
  | hedgeWin => "hedge_win"
  | workflowCompleted => "workflow_completed"

/-- `CancellationStatus`. -/
inductive CancellationStatus
  | pending
  | inProgress
  | completed
  | failed
  deriving DecidableEq

/-- `CancellationRequest`. -/
structure CancellationRequest where
  requestId : String
  tenantId : String
  reason : CancellationReason
  initiatedBy : String
  status : CancellationStatus := .pending
  servicesToCancel : List String
  cancelledServices : List String := []
  errorServices : List String := []
  deriving DecidableEq

/-- `ServiceCancellation`. -/
structure ServiceCancellation where
  requestId : String
  cancelled : Bool := false
  error : Option String := none
  deriving DecidableEq

/-- What `_send_cancellation_signal` comes to. -/
inductive Signal
  | succeeded
  | raised (error : String)
  deriving DecidableEq

/-- Where a call of `_cancel_service_request` is : its task was created, it sends the signal
and has its record at a position of the service's list, or it has returned. -/
inductive CallPhase
  | created
  | signalling (record : ℕ)
  | returned (signal : Signal)
  deriving DecidableEq

/-- A call of `_cancel_service_request`. -/
structure ServiceCall where
  service : String
  phase : CallPhase := .created
  deriving DecidableEq

/-- A task of `_execute_coordinated_cancellation` : created, waiting for its calls, or
returned. -/
inductive Execution
  | created
  | waiting (calls : List ServiceCall)
  | returned (calls : List ServiceCall)
  deriving DecidableEq

/-- A cancellation with the tasks that execute it. -/
structure Cancellation where
  request : CancellationRequest
  executions : List Execution
  deriving DecidableEq

/-- `cancellation_stats`. -/
structure CancellationStats where
  totalCancellations : ℕ := 0
  successfulCancellations : ℕ := 0
  failedCancellations : ℕ := 0
  cancellationsByReason : Dict String ℕ := Dict.empty
  cancellationsByService : Dict String ℕ := Dict.empty

/-- `CoordinatedCancellationManager`. -/
structure CancellationManager where
  activeCancellations : List Cancellation := []
  serviceCancellations : Dict String (List ServiceCancellation) := Dict.empty
  cancellationStats : CancellationStats := {}

/-! ## The results of an execution -/

/-- The value of `_cancel_service_request`, whose handler catches every exception. -/
def cancelServiceRequest : Signal → Except String Bool
  | .succeeded => .ok true
  | .raised _ => .ok false

/-- What `gather` gives for a call, once it has returned. -/
def ServiceCall.result (call : ServiceCall) : Option (Except String Bool) :=
  match call.phase with
  | .returned signal => some (cancelServiceRequest signal)
  | _ => none

namespace CancellationRequest

/-- The loop over the results, for the result of one service. -/
def processResult (request : CancellationRequest) (result : String × Except String Bool) :
    CancellationRequest :=
  match result.2 with
  | .error _ => { request with errorServices := request.errorServices ++ [result.1] }
  | .ok _ => { request with cancelledServices := request.cancelledServices ++ [result.1] }

/-- The final status. -/
def finalStatus (request : CancellationRequest) : CancellationStatus :=
  if request.errorServices ≠ [] then
    if request.cancelledServices ≠ [] then .completed else .failed
  else .completed

/-- What an execution does to the request once its calls have returned. -/
def processResults (request : CancellationRequest) (results : List (Except String Bool)) :
    CancellationRequest :=
  let request := (request.servicesToCancel.zip results).foldl processResult request
  { request with status := request.finalStatus }

end CancellationRequest

/-- Count one more under the key. -/
def countKey (counts : Dict String ℕ) (key : String) : Dict String ℕ :=
  counts.set key (counts.getD key 0 + 1)

/-- `_update_cancellation_stats`. -/
def updateCancellationStats (stats : CancellationStats) (request : CancellationRequest) :
    CancellationStats :=
  { totalCancellations := stats.totalCancellations + 1
    successfulCancellations :=
      stats.successfulCancellations + if request.status = .completed then 1 else 0
    failedCancellations := stats.failedCancellations + if request.status = .failed then 1 else 0
    cancellationsByReason := countKey stats.cancellationsByReason request.reason.value
    cancellationsByService :=
      request.cancelledServices.foldl countKey stats.cancellationsByService }

/-! ## The steps of a cancellation -/

namespace Cancellation

/-- The cancellation that `initiate_cancellation` stores, with the task it creates. -/
def initiated (requestId tenantId : String) (reason : CancellationReason) (initiatedBy : String)
    (services : List String) : Cancellation :=
  { request := { requestId, tenantId, reason, initiatedBy, servicesToCancel := services }
    executions := [.created] }

variable (c : Cancellation)

/-- The loop of `cancel_all_tenant_requests`, for one cancellation of the tenant. -/
def restart (reason : CancellationReason) (initiatedBy : String) : Cancellation :=
  if c.request.status = .pending then
    { request := { c.request with reason, initiatedBy }
      executions := c.executions ++ [.created] }
  else c

/-- An execution returns. -/
def returnExecution (j : ℕ) (calls : List ServiceCall) (results : List (Except String Bool)) :
    Cancellation :=
  { request := c.request.processResults results
    executions := c.executions.set j (.returned calls) }

/-- The calls of an execution that waits for them. -/
def waitingCalls (j : ℕ) : Option (List ServiceCall) :=
  match c.executions[j]? with
  | some (.waiting calls) => some calls
  | _ => none

/-- The calls of an execution, which waits for them. -/
def setCalls (j : ℕ) (calls : List ServiceCall) : Cancellation :=
  { c with executions := c.executions.set j (.waiting calls) }

/-- `_execute_coordinated_cancellation` up to `gather`, or to its end if there is nothing to
wait for. -/
def beginExecution (j : ℕ) : Option Cancellation :=
  match c.executions[j]? with
  | some .created =>
    let begun := { c with request := { c.request with status := .inProgress } }
    if c.request.servicesToCancel = [] then some (begun.returnExecution j [] [])
    else
      some (begun.setCalls j (c.request.servicesToCancel.map fun service => { service := service }))
  | _ => none

/-- `_execute_coordinated_cancellation` after `gather`. -/
def finishExecution (j : ℕ) : Option Cancellation := do
  let calls ← c.waitingCalls j
  let results ← calls.mapM ServiceCall.result
  return c.returnExecution j calls results

end Cancellation

/-! ## The machine -/

/-- A step. The numbers are those of a cancellation, of its execution and of the call. -/
inductive CancellationEvent
  | initiate (requestId tenantId : String) (reason : CancellationReason) (initiatedBy : String)
      (services : List String)
  | cancelAll (tenantId : String) (reason : CancellationReason) (initiatedBy : String)
  | beginExecution (k j : ℕ)
  | sendSignal (k j i : ℕ)
  | answerSignal (k j i : ℕ) (signal : Signal)
  | finishExecution (k j : ℕ)

/-- The record that the handler of `_cancel_service_request` marks is the first one of the
request. -/
def markError (requestId error : String) (records : List ServiceCancellation) :
    List ServiceCancellation :=
  records.modify (records.findIdx fun record => record.requestId = requestId) fun record =>
    { record with error := some error }

namespace CancellationManager

variable (m : CancellationManager)

/-- Put a cancellation in its place. -/
def setCancellation (k : ℕ) (c : Cancellation) : CancellationManager :=
  { m with activeCancellations := m.activeCancellations.set k c }

/-- The statistics, if the execution has returned. -/
def countExecution (c : Cancellation) (j : ℕ) : CancellationManager :=
  match c.executions[j]? with
  | some (.returned _) =>
    { m with cancellationStats := updateCancellationStats m.cancellationStats c.request }
  | _ => m

/-- The records of a service. -/
def records (service : String) : List ServiceCancellation :=
  m.serviceCancellations.getD service []

/-- `initiate_cancellation`. -/
def initiateCancellation (requestId tenantId : String) (reason : CancellationReason)
    (initiatedBy : String) (services : List String) : CancellationManager :=
  { m with
    activeCancellations := m.activeCancellations ++
      [.initiated requestId tenantId reason initiatedBy services] }

/-- `cancel_all_tenant_requests`. -/
def cancelAllTenantRequests (tenantId : String) (reason : CancellationReason)
    (initiatedBy : String) : CancellationManager :=
  { m with
    activeCancellations := m.activeCancellations.map fun c =>
      if c.request.tenantId = tenantId then c.restart reason initiatedBy else c }

/-- `_cancel_service_request` up to the signal. -/
def sendSignal (k j i : ℕ) (c : Cancellation) (calls : List ServiceCall) (service : String) :
    CancellationManager :=
  let records := m.records service
  let call := { service, phase := .signalling records.length }
  { m.setCancellation k (c.setCalls j (calls.set i call)) with
    serviceCancellations :=
      m.serviceCancellations.set service (records ++ [{ requestId := c.request.requestId }]) }

/-- `_cancel_service_request` after the signal. -/
def answerSignal (k j i record : ℕ) (signal : Signal) (c : Cancellation)
    (calls : List ServiceCall) (service : String) : CancellationManager :=
  let records := m.records service
  let call := { service, phase := .returned signal }
  { m.setCancellation k (c.setCalls j (calls.set i call)) with
    serviceCancellations := m.serviceCancellations.set service <|
      match signal with
      | .succeeded => records.modify record fun record => { record with cancelled := true }
      | .raised error => markError c.request.requestId error records }

/-- A step. -/
def step : CancellationEvent → Option CancellationManager
  | .initiate requestId tenantId reason initiatedBy services =>
    some (m.initiateCancellation requestId tenantId reason initiatedBy services)
  | .cancelAll tenantId reason initiatedBy =>
    some (m.cancelAllTenantRequests tenantId reason initiatedBy)
  | .beginExecution k j => do
    let c ← m.activeCancellations[k]?
    let c' ← c.beginExecution j
    return (m.setCancellation k c').countExecution c' j
  | .sendSignal k j i => do
    let c ← m.activeCancellations[k]?
    let calls ← c.waitingCalls j
    match calls[i]? with
    | some ⟨service, .created⟩ => some (m.sendSignal k j i c calls service)
    | _ => none
  | .answerSignal k j i signal => do
    let c ← m.activeCancellations[k]?
    let calls ← c.waitingCalls j
    match calls[i]? with
    | some ⟨service, .signalling record⟩ =>
      some (m.answerSignal k j i record signal c calls service)
    | _ => none
  | .finishExecution k j => do
    let c ← m.activeCancellations[k]?
    let c' ← c.finishExecution j
    return (m.setCancellation k c').countExecution c' j

end CancellationManager

/-- The cancellations under every interleaving of the calls and of their tasks. -/
def cancellationMachine : Machine CancellationManager CancellationEvent where
  init := {}
  step := CancellationManager.step

end CoordinatedCancellation

end MultiAgent
