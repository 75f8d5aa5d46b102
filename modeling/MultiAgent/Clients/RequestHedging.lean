import Mathlib.Algebra.Order.Field.Rat
import Mathlib.Data.Int.Notation
import Mathlib.Data.List.TakeWhile
import MultiAgent.Lib.Dict
import MultiAgent.Lib.Fallible

/-!
# Request hedging

`RequestHedgingManager` of `libs/clients/http/request_hedging.py`. The module defines two
classes named `HedgingResult` : the enumeration of the kinds of results, and after it the
record of a result. So `HedgingResult.FIRST_WIN` and the other kinds are looked up in the
record, which has no such attribute. What a lookup gives is a parameter here
(`KindLookup`) : `shadowed` is the one of the module, `enumeration` the one it is written for.

With the lookup of the module every call raises, since the handlers look up a kind as well
(`hedgeRequest_shadowed`). With the other one every call returns, and the winner is the first
of the issued requests that is taken for a success (`hedgeRequest_enumeration`). Through a
client factory no request is, because `response_data` is only bound without one
(`not_success_of_factory`).
-/

namespace MultiAgent

namespace Hedging

/-- `HedgingStrategy`. -/
inductive HedgingStrategy
  | parallel
  | staggered
  | adaptive
  deriving DecidableEq

/-- The first class `HedgingResult`. -/
inductive ResultKind
  | firstWin
  | hedgeWin
  | cancelled
  | allFailed
  deriving DecidableEq

/-- `HedgingConfig`. -/
structure HedgingConfig where
  timeoutMs : ℚ := 5000
  cancelOthersOnFirstSuccess : Bool := true
  strategy : HedgingStrategy := .staggered

/-- `HedgingRequest`. -/
structure HedgingRequest where
  requestId : String
  url : String
  timeout : ℚ
  cancelled : Bool := false
  deriving DecidableEq

/-- `HedgingResponse`. -/
structure HedgingResponse where
  requestId : String
  statusCode : ℤ
  data : Option String
  latencyMs : ℚ
  success : Bool
  error : Option String := none
  deriving DecidableEq

/-- The second class `HedgingResult`. -/
structure HedgingResult where
  resultType : ResultKind
  winningResponse : Option HedgingResponse
  allResponses : List HedgingResponse
  totalLatencyMs : ℚ
  costMultiplier : ℚ
  hedgedRequestsCount : ℕ
  deriving DecidableEq

/-- What the lookup of a kind raises. -/
inductive AttributeError
  | mk
  deriving DecidableEq

/-- What `HedgingResult.KIND` gives. -/
abbrev KindLookup :=
  ResultKind → Except AttributeError ResultKind

/-- The lookup in the record. -/
def shadowed : KindLookup :=
  fun _ => .error .mk

/-- The lookup in the enumeration. -/
def enumeration : KindLookup :=
  .ok

/-- What a request is answered : a response with its status and body, after some time, no
response in time, or an exception. -/
inductive Answer
  | response (status : ℤ) (body : String) (latencyMs : ℚ)
  | timeout
  | raised (error : String)
  deriving DecidableEq

/-- `200 <= response.status < 300`. -/
def isSuccess (status : ℤ) : Bool :=
  decide (200 ≤ status ∧ status < 300)

/-- The answer has a 2xx status. -/
def Answer.is2xx : Answer → Bool
  | .response status _ _ => isSuccess status
  | _ => false

/-! ## One request -/

/-- The response of the handler for `Exception`. -/
def failedResponse (request : HedgingRequest) (error : String) : HedgingResponse :=
  { requestId := request.requestId, statusCode := 500, data := none, latencyMs := 0
    success := false, error := some error }

/-- `_execute_single_request`. With a client factory `response_data` is not bound. -/
def executeSingleRequest (factory : Bool) (request : HedgingRequest) : Answer → HedgingResponse
  | .response status body latencyMs =>
    if factory then failedResponse request "response_data"
    else
      { requestId := request.requestId, statusCode := status, data := some body, latencyMs
        success := isSuccess status }
  | .timeout =>
    { requestId := request.requestId, statusCode := 408, data := none
      latencyMs := request.timeout * 1000, success := false, error := some "Request timeout" }
  | .raised error => failedResponse request error

/-- A request with its answer. -/
abbrev Issued :=
  HedgingRequest × Answer

/-- The response for an issued request. -/
def respond (factory : Bool) (issued : Issued) : HedgingResponse :=
  executeSingleRequest factory issued.1 issued.2

/-! ## The strategies -/

section Strategies

variable (kind : KindLookup) (config : HedgingConfig) (factory : Bool)

/-- A result before `hedge_request` completes it. -/
def resultOf (count : ℕ) (resultType : ResultKind) (winningResponse : Option HedgingResponse)
    (allResponses : List HedgingResponse) : HedgingResult :=
  { resultType, winningResponse, allResponses, totalLatencyMs := 0, costMultiplier := count
    hedgedRequestsCount := count }

/-- `try` with a handler that returns a result in which all failed. -/
def orAllFailed (count : ℕ) (body : Except (List HedgingResponse) HedgingResult) :
    Except AttributeError HedgingResult :=
  match body with
  | .ok result => .ok result
  | .error responses => (kind .allFailed).map fun t => resultOf count t none responses

/-- A lookup in a `try` block, whose handler gets the responses so far. -/
def lookup (k : ResultKind) (responses : List HedgingResponse) :
    Except (List HedgingResponse) ResultKind :=
  (kind k).mapError fun _ => responses

/-- The responses up to the first success, and that. -/
def untilSuccess : List HedgingResponse → List HedgingResponse × Option HedgingResponse
  | [] => ([], none)
  | response :: responses =>
    if response.success then ([response], some response)
    else
      let rest := untilSuccess responses
      (response :: rest.1, rest.2)

/-- `_execute_parallel_hedging`, for the order in which the requests are answered. -/
def executeParallelHedging (requests : List Issued) (completed : List Issued) :
    Except AttributeError HedgingResult :=
  orAllFailed kind requests.length <|
    let outcome :=
      if config.cancelOthersOnFirstSuccess then untilSuccess (completed.map (respond factory))
      else
        let responses := requests.map (respond factory)
        (responses, responses.find? HedgingResponse.success)
    match outcome.2 with
    | some response => do
      -- the handler starts again from an empty list
      let t ← lookup kind .firstWin []
      return resultOf requests.length t (some response) outcome.1
    | none => do
      let t ← lookup kind .allFailed []
      return resultOf requests.length t none outcome.1

/-- The response for a request that is not issued any more. -/
def cancelledResponse (request : HedgingRequest) : HedgingResponse :=
  { requestId := request.requestId, statusCode := 0, data := none, latencyMs := 0
    success := false, error := some "Cancelled due to earlier success" }

/-- The loop of `_execute_staggered_hedging`, at position `i`. -/
def staggeredLoop : ℕ → List Issued → List HedgingResponse → Option HedgingResponse →
    ResultKind → Except (List HedgingResponse)
      (List HedgingResponse × Option HedgingResponse × ResultKind)
  | _, [], responses, winning, t => .ok (responses, winning, t)
  | i, issued :: rest, responses, winning, t =>
    if winning.isSome && config.cancelOthersOnFirstSuccess then
      staggeredLoop (i + 1) rest (responses ++ [cancelledResponse issued.1]) winning t
    else do
      let response := respond factory issued
      if response.success && winning.isNone then
        let t ← lookup kind (if i = 0 then .firstWin else .hedgeWin) (responses ++ [response])
        staggeredLoop (i + 1) rest (responses ++ [response]) (some response) t
      else staggeredLoop (i + 1) rest (responses ++ [response]) winning t

/-- `_execute_staggered_hedging`. -/
def executeStaggeredHedging (requests : List Issued) : Except AttributeError HedgingResult :=
  orAllFailed kind requests.length do
    let t ← lookup kind .allFailed []
    let (responses, winning, t) ← staggeredLoop kind config factory 0 requests [] none t
    return resultOf requests.length t winning responses

/-- `_execute_adaptive_hedging`. -/
def executeAdaptiveHedging (requests : List Issued) : Except AttributeError HedgingResult :=
  orAllFailed kind requests.length <|
    (executeStaggeredHedging kind config factory requests).mapError fun _ => []

end Strategies

/-! ## A hedged request -/

/-- `hedging_stats`. -/
structure HedgingStats where
  totalHedgedRequests : ℕ := 0
  firstWins : ℕ := 0
  hedgeWins : ℕ := 0
  cancelledRequests : ℕ := 0
  allFailed : ℕ := 0
  totalCostSavings : ℚ := 0
  deriving DecidableEq

/-- `RequestHedgingManager`. -/
structure RequestHedgingManager where
  factory : Bool := false
  hedgingConfig : HedgingConfig := {}
  activeRequests : Dict String (List HedgingRequest) := Dict.empty
  hedgingStats : HedgingStats := {}

/-- The counter that `_update_hedging_stats` adds to. -/
def countKind (kind : KindLookup) (stats : HedgingStats) (result : HedgingResult) :
    Except AttributeError HedgingStats := do
  if result.resultType = (← kind .firstWin) then
    return { stats with firstWins := stats.firstWins + 1 }
  if result.resultType = (← kind .hedgeWin) then
    return { stats with hedgeWins := stats.hedgeWins + 1 }
  if result.resultType = (← kind .cancelled) then
    return { stats with cancelledRequests := stats.cancelledRequests + 1 }
  if result.resultType = (← kind .allFailed) then
    return { stats with allFailed := stats.allFailed + 1 }
  return stats

/-- `_update_hedging_stats`. -/
def updateHedgingStats (kind : KindLookup) (stats : HedgingStats) (result : HedgingResult) :
    HedgingStats :=
  let stats := { stats with totalHedgedRequests := stats.totalHedgedRequests + 1 }
  match countKind kind stats result with
  | .error _ => stats
  | .ok stats =>
    match result.winningResponse with
    | none => stats
    | some response =>
      { stats with totalCostSavings := stats.totalCostSavings + response.latencyMs / 1000 }

/-- `_create_hedging_requests`. -/
def createHedgingRequests (config : HedgingConfig) (hedgingId : String) (urls : List String)
    (timeout : Option ℚ) : List HedgingRequest :=
  urls.zipIdx.map fun (url, i) =>
    { requestId := hedgingId ++ "_" ++ toString i, url
      timeout := (timeout.filter fun t => t ≠ 0).getD (config.timeoutMs / 1000) }

/-- What the world does in a call of `hedge_request` : the id it draws, the answer to each
request, the order in which the answers come, and the time it takes. -/
structure World where
  hedgingId : String
  answers : ℕ → Answer
  order : List ℕ
  totalLatencyMs : ℚ

section Call

variable (kind : KindLookup) (manager : RequestHedgingManager) (urls : List String)
  (timeout : Option ℚ) (world : World)

/-- The requests with the answers they get. -/
def issuedRequests : List Issued :=
  (createHedgingRequests manager.hedgingConfig world.hedgingId urls timeout).zipIdx.map
    fun (request, i) => (request, world.answers i)

/-- The requests in the order in which their answers come. -/
def completedRequests : List Issued :=
  world.order.filterMap fun i => (issuedRequests manager urls timeout world)[i]?

/-- The strategy of the configuration. -/
def executeStrategy : Except AttributeError HedgingResult :=
  let requests := issuedRequests manager urls timeout world
  match manager.hedgingConfig.strategy with
  | .parallel =>
    executeParallelHedging kind manager.hedgingConfig manager.factory requests
      (completedRequests manager urls timeout world)
  | .staggered => executeStaggeredHedging kind manager.hedgingConfig manager.factory requests
  | .adaptive => executeAdaptiveHedging kind manager.hedgingConfig manager.factory requests

/-- `hedge_request`. -/
def hedgeRequest : Except AttributeError HedgingResult × RequestHedgingManager :=
  let requests :=
    createHedgingRequests manager.hedgingConfig world.hedgingId urls timeout
  let started :=
    { manager with activeRequests := manager.activeRequests.set world.hedgingId requests }
  match executeStrategy kind manager urls timeout world with
  | .ok result =>
    let result :=
      { result with
        totalLatencyMs := world.totalLatencyMs
        hedgedRequestsCount := requests.length
        costMultiplier := requests.length }
    (.ok result,
      { manager with
        hedgingStats := updateHedgingStats kind manager.hedgingStats result
        activeRequests := started.activeRequests.erase world.hedgingId })
  | .error _ =>
    ((kind .allFailed).map fun t =>
      { resultType := t, winningResponse := none, allResponses := [], totalLatencyMs := 0
        costMultiplier := 1, hedgedRequestsCount := 0 }, started)

/-- The requests that are issued and answered before the others are given up. -/
def answeredRequests : List Issued :=
  let requests := issuedRequests manager urls timeout world
  let inOrder :=
    if manager.hedgingConfig.strategy = .parallel ∧
        manager.hedgingConfig.cancelOthersOnFirstSuccess then
      completedRequests manager urls timeout world
    else requests
  if manager.hedgingConfig.cancelOthersOnFirstSuccess then
    inOrder.take ((inOrder.findIdx fun issued => (respond manager.factory issued).success) + 1)
  else inOrder

/-- The call returns, with a winner exactly when one of the requests that were answered has a
2xx status, and the winner is then one of these. -/
def ReturnsWinner : Prop :=
  ∃ result, (hedgeRequest kind manager urls timeout world).1 = .ok result ∧
    (result.winningResponse.isSome = true ↔
      ∃ issued ∈ answeredRequests manager urls timeout world, issued.2.is2xx = true) ∧
    ∀ winner, result.winningResponse = some winner →
      ∃ issued ∈ answeredRequests manager urls timeout world, ∃ status body latencyMs,
        issued.2 = .response status body latencyMs ∧ isSuccess status = true ∧
          winner.statusCode = status ∧ winner.data = some body

end Call

/-! ## With the lookup of the module -/

theorem orAllFailed_shadowed (count : ℕ) (responses : List HedgingResponse) :
    orAllFailed shadowed count (.error responses) = .error .mk :=
  rfl

theorem executeParallelHedging_shadowed (config : HedgingConfig) (factory : Bool)
    (requests completed : List Issued) :
    executeParallelHedging shadowed config factory requests completed = .error .mk := by
  unfold executeParallelHedging
  simp only
  split
  · exact orAllFailed_shadowed _ _
  · exact orAllFailed_shadowed _ _

theorem executeStaggeredHedging_shadowed (config : HedgingConfig) (factory : Bool)
    (requests : List Issued) :
    executeStaggeredHedging shadowed config factory requests = .error .mk :=
  orAllFailed_shadowed _ _

/-- Every call of `hedge_request` raises, and its requests stay among the active ones. -/
theorem hedgeRequest_shadowed (manager : RequestHedgingManager) (urls : List String)
    (timeout : Option ℚ) (world : World) :
    hedgeRequest shadowed manager urls timeout world =
      (.error .mk,
        { manager with
          activeRequests := manager.activeRequests.set world.hedgingId
            (createHedgingRequests manager.hedgingConfig world.hedgingId urls timeout) }) := by
  have hraises : executeStrategy shadowed manager urls timeout world = .error .mk := by
    unfold executeStrategy
    cases manager.hedgingConfig.strategy with
    | parallel => exact executeParallelHedging_shadowed _ _ _ _
    | staggered => exact executeStaggeredHedging_shadowed _ _ _
    | adaptive =>
      simp only [executeAdaptiveHedging, executeStaggeredHedging_shadowed]
      exact orAllFailed_shadowed _ _
  simp only [hedgeRequest, hraises]
  rfl

/-- No call returns a result. -/
theorem not_returnsWinner (manager : RequestHedgingManager) (urls : List String)
    (timeout : Option ℚ) (world : World) :
    ¬ReturnsWinner shadowed manager urls timeout world := by
  rintro ⟨result, hresult, -⟩
  rw [hedgeRequest_shadowed] at hresult
  cases hresult

/-- A request that is answered with 200 raises all the same. -/
theorem hedgeRequest_ok_raises :
    (hedgeRequest shadowed {} ["https://a"] none
      { hedgingId := "h", answers := fun _ => .response 200 "ok" 12, order := [0]
        totalLatencyMs := 12 }).1 = .error .mk := by
  decide +kernel

/-! ## With the lookup in the enumeration -/

/-- Up to the first success nothing is lost of it. -/
theorem find?_take_findIdx {α : Type*} (p : α → Bool) : ∀ l : List α,
    (l.take (l.findIdx p + 1)).find? p = l.find? p
  | [] => rfl
  | x :: l => by
    cases hx : p x with
    | true => simp [List.findIdx_cons, hx]
    | false =>
      have ih := find?_take_findIdx p l
      simpa [List.findIdx_cons, hx] using ih

theorem untilSuccess_snd (responses : List HedgingResponse) :
    (untilSuccess responses).2 = responses.find? HedgingResponse.success := by
  induction responses with
  | nil => rfl
  | cons response responses ih =>
    unfold untilSuccess
    split_ifs with hsuccess
    · simp [hsuccess]
    · simpa [hsuccess] using ih

section Enumeration

variable {config : HedgingConfig} {factory : Bool}

@[simp] theorem lookup_enumeration (k : ResultKind) (responses : List HedgingResponse) :
    lookup enumeration k responses = .ok k :=
  rfl

/-- The loop keeps the first winner. -/
theorem staggeredLoop_enumeration : ∀ (requests : List Issued) (i : ℕ)
    (responses : List HedgingResponse) (winning : Option HedgingResponse) (t : ResultKind),
    ∃ responses' t', staggeredLoop enumeration config factory i requests responses winning t =
      .ok (responses',
        winning.or ((requests.map (respond factory)).find? HedgingResponse.success), t')
  | [], i, responses, winning, t => ⟨responses, t, by simp [staggeredLoop]⟩
  | issued :: requests, i, responses, winning, t => by
    unfold staggeredLoop
    cases winning with
    | some winner =>
      cases config.cancelOthersOnFirstSuccess with
      | true => exact staggeredLoop_enumeration requests _ _ (some winner) t
      | false =>
        simp only [Option.isSome_some, Option.isNone_some, Bool.and_false, Bool.false_eq_true,
          if_false]
        exact staggeredLoop_enumeration requests _ _ (some winner) t
    | none =>
      cases hsuccess : (respond factory issued).success with
      | true =>
        obtain ⟨responses', t', hloop⟩ := staggeredLoop_enumeration requests (i + 1)
          (responses ++ [respond factory issued]) (some (respond factory issued))
          (if i = 0 then .firstWin else .hedgeWin)
        refine ⟨responses', t', ?_⟩
        simpa [hsuccess, Fallible.ok_bind] using hloop
      | false =>
        obtain ⟨responses', t', hloop⟩ := staggeredLoop_enumeration requests (i + 1)
          (responses ++ [respond factory issued]) none t
        refine ⟨responses', t', ?_⟩
        simpa [hsuccess] using hloop

/-- The winner among responses in the order in which they come. -/
abbrev firstSuccess (factory : Bool) (issued : List Issued) : Option HedgingResponse :=
  (issued.map (respond factory)).find? HedgingResponse.success

theorem executeStaggeredHedging_enumeration (requests : List Issued) :
    ∃ result, executeStaggeredHedging enumeration config factory requests = .ok result ∧
      result.winningResponse = firstSuccess factory requests := by
  obtain ⟨responses, t, hloop⟩ : ∃ responses t, staggeredLoop enumeration config factory 0
      requests [] none .allFailed = .ok (responses, firstSuccess factory requests, t) := by
    simpa using staggeredLoop_enumeration requests 0 [] none .allFailed
  refine ⟨resultOf requests.length t (firstSuccess factory requests) responses, ?_, rfl⟩
  simp only [executeStaggeredHedging, lookup_enumeration, Fallible.ok_bind, hloop]
  rfl

theorem executeParallelHedging_enumeration (requests completed : List Issued) :
    ∃ result, executeParallelHedging enumeration config factory requests completed = .ok result ∧
      result.winningResponse = firstSuccess factory
        (if config.cancelOthersOnFirstSuccess then completed else requests) := by
  have hwinner : (if config.cancelOthersOnFirstSuccess then
        untilSuccess (completed.map (respond factory))
      else (requests.map (respond factory), firstSuccess factory requests)).2 =
      firstSuccess factory (if config.cancelOthersOnFirstSuccess then completed else requests) := by
    split_ifs
    · exact untilSuccess_snd _
    · rfl
  unfold executeParallelHedging
  simp only [hwinner]
  cases firstSuccess factory
    (if config.cancelOthersOnFirstSuccess then completed else requests) with
  | none => exact ⟨_, rfl, rfl⟩
  | some winner => exact ⟨_, rfl, rfl⟩

theorem executeAdaptiveHedging_enumeration (requests : List Issued) :
    ∃ result, executeAdaptiveHedging enumeration config factory requests = .ok result ∧
      result.winningResponse = firstSuccess factory requests := by
  obtain ⟨result, hresult, hwinner⟩ :
      ∃ result, executeStaggeredHedging enumeration config factory requests = .ok result ∧
        result.winningResponse = firstSuccess factory requests :=
    executeStaggeredHedging_enumeration requests
  refine ⟨result, ?_, hwinner⟩
  simp only [executeAdaptiveHedging, hresult]
  rfl

theorem firstSuccess_take (requests : List Issued) :
    firstSuccess factory
        (requests.take ((requests.findIdx fun issued => (respond factory issued).success) + 1)) =
      firstSuccess factory requests := by
  rw [firstSuccess, firstSuccess, List.find?_map, List.find?_map]
  exact congrArg _ (find?_take_findIdx _ requests)

variable (manager : RequestHedgingManager) (urls : List String) (timeout : Option ℚ)
  (world : World)

theorem firstSuccess_answeredRequests :
    firstSuccess manager.factory (answeredRequests manager urls timeout world) =
      firstSuccess manager.factory
        (if manager.hedgingConfig.strategy = .parallel ∧
            manager.hedgingConfig.cancelOthersOnFirstSuccess then
          completedRequests manager urls timeout world
        else issuedRequests manager urls timeout world) := by
  unfold answeredRequests
  simp only
  split_ifs
  · exact firstSuccess_take _
  · exact firstSuccess_take _
  · rfl
  · rfl

/-- Every call returns, and its winner is the first success among the answered requests. -/
theorem hedgeRequest_enumeration :
    ∃ result, (hedgeRequest enumeration manager urls timeout world).1 = .ok result ∧
      result.winningResponse =
        firstSuccess manager.factory (answeredRequests manager urls timeout world) := by
  obtain ⟨result, hresult, hwinner⟩ : ∃ result,
      executeStrategy enumeration manager urls timeout world = .ok result ∧
      result.winningResponse =
        firstSuccess manager.factory (answeredRequests manager urls timeout world) := by
    rw [firstSuccess_answeredRequests]
    unfold executeStrategy
    cases manager.hedgingConfig.strategy with
    | parallel => simpa using executeParallelHedging_enumeration _ _
    | staggered => simpa using executeStaggeredHedging_enumeration _
    | adaptive => simpa using executeAdaptiveHedging_enumeration _
  simp only [hedgeRequest, hresult]
  exact ⟨_, rfl, hwinner⟩

theorem success_respond (issued : Issued) :
    (respond false issued).success = issued.2.is2xx := by
  rcases issued with ⟨request, _ | _ | _⟩ <;> rfl

/-- Through a client factory no request is taken for a success. -/
theorem not_success_of_factory (issued : Issued) : (respond true issued).success = false := by
  rcases issued with ⟨request, _ | _ | _⟩ <;> rfl

/-- Without a client factory a call returns the first 2xx response. -/
theorem returnsWinner_enumeration (hfactory : manager.factory = false) :
    ReturnsWinner enumeration manager urls timeout world := by
  obtain ⟨result, hresult, hwinner⟩ := hedgeRequest_enumeration manager urls timeout world
  rw [hfactory] at hwinner
  refine ⟨result, hresult, ?_, fun winner hsome => ?_⟩
  · rw [hwinner, List.find?_isSome]
    simp [success_respond]
  · rw [hwinner] at hsome
    obtain ⟨issued, hissued, rfl⟩ := List.mem_map.mp (List.mem_of_find?_eq_some hsome)
    have hsuccess : (respond false issued).success = true := List.find?_some hsome
    obtain ⟨request, status | _ | _⟩ := issued
    · exact ⟨_, hissued, _, _, _, rfl, hsuccess, rfl, rfl⟩
    · cases hsuccess
    · cases hsuccess

end Enumeration

end Hedging

end MultiAgent
