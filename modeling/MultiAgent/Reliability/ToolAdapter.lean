import Mathlib.Data.Int.Notation
import MultiAgent.Lib.Json
import MultiAgent.Lib.Machine
import MultiAgent.Lib.Semaphore
import MultiAgent.Reliability.CircuitBreaker

/-!
# The tool adapter

`BaseToolAdapter` of `libs/reliability/base_adapter.py`. `execute` looks its key up in the
idempotency manager, logs a request, runs the tool inside the total timeout, the bulkhead,
the breaker and the retry loop, and then logs how it ended, stores the result, and counts.

`toolMachine` interleaves any number of executes. An execute is suspended where it awaits
Redis, where the task of its `bulkhead.call` or of its `acquire` has not begun, in the
queue of the semaphore, while the tool runs, while it sleeps between attempts, and when
the task of its `bulkhead.call` has ended. What Redis does (`serve`) and what the execute
does with the answer (`proceed`) are two steps; a Redis call that fails has no effect.
Durations are left out : a timeout may pass, and a sleep end, at any time.

The parameters of an execute are left out : an event names the key that is in effect, and
an entry of the local log is known by the number of its execute.
-/

namespace MultiAgent

namespace BaseAdapter

open Json (Value)

/-- An exception that is an `Exception` : its text, and whether it is a `TimeoutError`. -/
structure ToolError where
  text : String
  isTimeout : Bool := false
  deriving DecidableEq, Repr

/-- The parameters of `BaseToolAdapter` that decide what it does; `isRetryable` is
`_is_retryable_error`. -/
structure AdapterConfig where
  maxAttempts : ℤ := 3
  circuitBreaker : CircuitBreakerConfig := {}
  maxConcurrentCalls : ℕ := 10
  isRetryable : ToolError → Bool := fun _ => true

/-- `WriteAheadLog.status`. -/
inductive LogStatus
  | requested
  | succeeded
  | failed
  deriving DecidableEq, Repr

/-- The fields of `WriteAheadLog` that change. -/
structure WriteAheadLog where
  status : LogStatus
  result : Option Value := none
  error : Option String := none

/-- The attributes of `Bulkhead`. -/
structure Bulkhead where
  semaphore : Semaphore ℕ
  activeCalls : ℤ := 0
  totalCalls : ℕ := 0
  rejectedCalls : ℕ := 0

/-- The attributes of `RetryManager`. -/
structure RetryManager where
  totalRetries : ℕ := 0
  successfulRetries : ℕ := 0

/-- The attributes of `BaseToolAdapter`, with those of its managers. -/
structure ToolAdapter where
  config : AdapterConfig
  circuitBreaker : CircuitBreaker
  bulkhead : Bulkhead
  retryManager : RetryManager := {}
  localCache : Dict String Value := .empty
  localLog : Dict ℕ WriteAheadLog := .empty
  totalCalls : ℕ := 0
  successfulCalls : ℕ := 0
  failedCalls : ℕ := 0

/-- `BaseToolAdapter.__init__`. -/
def ToolAdapter.new (cfg : AdapterConfig) : ToolAdapter where
  config := cfg
  circuitBreaker := { config := cfg.circuitBreaker }
  bulkhead := { semaphore := { value := cfg.maxConcurrentCalls } }

/-- How the task of a `bulkhead.call` ended. -/
inductive TaskEnd
  | returned (r : Value)
  | raised (e : ToolError)
  | cancelled

/-- How the body of the tool ended : it returned or raised, or it ended with a
`CancelledError`, after the total timeout cancelled it or of its own accord. -/
inductive ToolEnd
  | returned (r : Value)
  | raised (e : ToolError)
  | timedOut
  | cancelled

/-- Where an execute is. `lookup` and `storing` await an answer of Redis or have it;
`running n` and `sleeping n` are attempt `n` and the pause after it. -/
inductive Phase
  | lookup (reply : Option Value)
  | logging
  | requested
  | entering
  | waiting
  | granted
  | running (attempt : ℕ)
  | sleeping (attempt : ℕ)
  | ended (outcome : TaskEnd)
  | loggingSuccess (r : Value)
  | storing (r : Value) (served : Bool)
  | loggingFailure (e : ToolError)
  | hit (r : Value)
  | returned (r : Value)
  | raised (e : ToolError)
  | cancelled

/-- The execute is past the check, its tool has not returned, and it has not reported. -/
def Phase.inside : Phase → Bool
  | .logging => true
  | .requested => true
  | .entering => true
  | .waiting => true
  | .granted => true
  | .running _ => true
  | .sleeping _ => true
  | .ended (.raised _) => true
  | _ => false

/-- The execute has neither returned nor raised. -/
def Phase.inFlight : Phase → Bool
  | .hit _ => false
  | .returned _ => false
  | .raised _ => false
  | .cancelled => false
  | _ => true

/-- An execute with its idempotency key. -/
structure Execute where
  key : String
  phase : Phase

/-- What an execute does next : Redis answers it or fails; it goes on with the answer; its
task of `bulkhead.call` begins; its `acquire` begins, goes on after it was woken, or is
given up; the task goes on with its permit; its tool ends; its sleep is over; the total
timeout passes while the tool does not run; it goes on after its task has ended. -/
inductive ToolAction
  | serve (ok : Bool)
  | proceed
  | begin
  | acquire
  | wake
  | reject
  | start (now : ℤ)
  | ended (how : ToolEnd) (now : ℤ)
  | retry
  | timeout
  | report

/-- A new execute, a step of the `k`-th one, or a change of a result in Redis that no
execute makes : another client stores one, or one expires. -/
inductive ToolEvent
  | call (key : String)
  | act (k : ℕ) (action : ToolAction)
  | redis (key : String) (value : Option Value)

/-- The adapter, the results in Redis if there is a Redis client, the executes in the order
in which they came, and the results of the tool bodies that completed, with the keys of
their executes. -/
structure ToolSystem where
  adapter : ToolAdapter
  redis : Option (Dict String Value)
  calls : List Execute := []
  completions : List (String × Value) := []

/-- `TimeoutError` of the total timeout. -/
def totalTimeout : ToolError :=
  { text := "", isTimeout := true }

/-- The exception of a `Bulkhead.call` that caught a `TimeoutError`. -/
def bulkheadTimeout : ToolError :=
  { text := "Bulkhead timeout - too many concurrent calls" }

namespace ToolSystem

variable (s : ToolSystem) (k : ℕ) (key : String)

/-- The `k`-th execute is at `x`. -/
def goTo (x : Phase) : ToolSystem :=
  { s with calls := s.calls.set k { key := key, phase := x } }

/-- Change the attributes of the adapter. -/
def update (f : ToolAdapter → ToolAdapter) : ToolSystem :=
  { s with adapter := f s.adapter }

/-- Change the attributes of the bulkhead. -/
def updateBulkhead (f : Bulkhead → Bulkhead) : ToolSystem :=
  s.update fun a => { a with bulkhead := f a.bulkhead }

/-- The semaphore of the bulkhead. -/
abbrev semaphore : Semaphore ℕ :=
  s.adapter.bulkhead.semaphore

/-- Replace the semaphore of the bulkhead. -/
def setSemaphore (sem : Semaphore ℕ) : ToolSystem :=
  s.updateBulkhead fun b => { b with semaphore := sem }

/-- Replace the breaker. -/
def setBreaker (b : CircuitBreaker) : ToolSystem :=
  s.update fun a => { a with circuitBreaker := b }

/-- Change the attributes of the retry manager. -/
def updateRetries (f : RetryManager → RetryManager) : ToolSystem :=
  s.update fun a => { a with retryManager := f a.retryManager }

/-! ### Idempotency and the log -/

/-- `log_request` up to its suspension, and on to the task of `bulkhead.call` if there is no
Redis. -/
def logRequest : ToolSystem :=
  (s.update fun a => { a with localLog := a.localLog.set k { status := .requested } }).goTo k
    key (if s.redis.isSome then .logging else .requested)

/-- `execute` after `get_result` returned `v` : a cached result is returned. -/
def checked (v : Value) : ToolSystem :=
  if v.isNone then s.logRequest k key else s.goTo k key (.hit v)

/-- `execute` up to its first suspension. -/
def beginExecute : ToolSystem :=
  let k := s.calls.length
  let s := s.update fun a => { a with totalCalls := a.totalCalls + 1 }
  let s := { s with calls := s.calls ++ [Execute.mk key (.lookup none)] }
  match s.adapter.localCache.get? key with
  | some v => s.checked k key v
  | none => if s.redis.isSome then s else s.checked k key .null

/-- The end of an execute that returns its result. -/
def succeed (r : Value) : ToolSystem :=
  (s.update fun a => { a with successfulCalls := a.successfulCalls + 1 }).goTo k key (.returned r)

/-- `store_result` up to its suspension. -/
def storeResult (r : Value) : ToolSystem :=
  let s := s.update fun a => { a with localCache := a.localCache.set key r }
  if s.redis.isSome then s.goTo k key (.storing r false) else s.succeed k key r

/-- Change the entry of the `k`-th execute in the local log. -/
def updateLog (f : WriteAheadLog → WriteAheadLog) : ToolSystem :=
  match s.adapter.localLog.get? k with
  | some entry => s.update fun a => { a with localLog := a.localLog.set k (f entry) }
  | none => s

/-- `log_success` up to its suspension. -/
def logSuccess (r : Value) : ToolSystem :=
  let s := s.updateLog k fun entry => { entry with status := .succeeded, result := some r }
  if s.redis.isSome then s.goTo k key (.loggingSuccess r) else s.storeResult k key r

/-- The end of an execute that raises. -/
def fail (e : ToolError) : ToolSystem :=
  (s.update fun a => { a with failedCalls := a.failedCalls + 1 }).goTo k key (.raised e)

/-- `log_failure` up to its suspension. -/
def logFailure (e : ToolError) : ToolSystem :=
  let s := s.updateLog k fun entry => { entry with status := .failed, error := some e.text }
  if s.redis.isSome then s.goTo k key (.loggingFailure e) else s.fail k key e

/-- `execute` after its task has ended. -/
def report : TaskEnd → ToolSystem
  | .returned r => s.logSuccess k key r
  | .raised e => s.logFailure k key e
  | .cancelled => s.goTo k key .cancelled

/-- The result of the key in Redis. -/
def redisResult : Value :=
  match s.redis with
  | some results => (results.get? key).getD .null
  | none => .null

/-- `setex` of a result that can be encoded. -/
def redisStore (r : Value) : ToolSystem :=
  match r.reload with
  | some v => { s with redis := s.redis.map fun results => results.set key v }
  | none => s

/-! ### Bulkhead, breaker and retries -/

/-- The `finally` of `Bulkhead.call`, after which the task ends. -/
def leave (outcome : TaskEnd) : ToolSystem :=
  (s.updateBulkhead fun b =>
    { b with activeCalls := b.activeCalls - 1, semaphore := b.semaphore.release }).goTo k key
      (.ended outcome)

/-- The end of a `Bulkhead.call` that does not get its permit in time. -/
def reject : ToolSystem :=
  (s.updateBulkhead fun b =>
    { b with semaphore := b.semaphore.abandon k, rejectedCalls := b.rejectedCalls + 1 }).goTo k
      key (.ended (.raised bulkheadTimeout))

/-- `Bulkhead.call` after its function raised `e` : it takes any `TimeoutError` for its
own. -/
def raiseFrom (e : ToolError) : ToolSystem :=
  if e.isTimeout then
    (s.updateBulkhead fun b => { b with rejectedCalls := b.rejectedCalls + 1 }).leave k key
      (.raised bulkheadTimeout)
  else s.leave k key (.raised e)

/-- The breaker sees the retry loop raise `e`. -/
def breakerFailed (e : ToolError) (now : ℤ) : ToolSystem :=
  (s.setBreaker (s.adapter.circuitBreaker.onFailure now)).raiseFrom k key e

/-- The task begins : `Bulkhead.call` up to its suspension. -/
def begin : ToolSystem :=
  (s.updateBulkhead fun b => { b with totalCalls := b.totalCalls + 1 }).goTo k key .entering

/-- `acquire` begins. -/
def acquire : ToolSystem :=
  if s.semaphore.locked then (s.setSemaphore (s.semaphore.wait k)).goTo k key .waiting
  else (s.setSemaphore s.semaphore.take).goTo k key .granted

/-- The task goes on with its permit : the breaker is asked and the loop
`for attempt in range(max_attempts)` begins. -/
def start (now : ℤ) : ToolSystem :=
  let s := s.updateBulkhead fun b => { b with activeCalls := b.activeCalls + 1 }
  let r := s.adapter.circuitBreaker.beginCall now
  let s := s.setBreaker r.1
  match r.2 with
  | some text => s.raiseFrom k key { text := text }
  | none =>
    if 0 < s.adapter.config.maxAttempts then s.goTo k key (.running 0)
    else s.breakerFailed k key { text := "Retry failed" } now

/-- Attempt `n` raised `e`. -/
def attemptFailed (n : ℕ) (e : ToolError) (now : ℤ) : ToolSystem :=
  if s.adapter.config.isRetryable e = false then s.breakerFailed k key e now
  else if (n : ℤ) = s.adapter.config.maxAttempts - 1 then
    (s.updateRetries fun m => { m with totalRetries := m.totalRetries + n }).breakerFailed k key
      e now
  else s.goTo k key (.sleeping n)

/-- Attempt `n` returned `r`. -/
def attemptReturned (n : ℕ) (r : Value) : ToolSystem :=
  let s := if 0 < n then
    s.updateRetries fun m => { m with successfulRetries := m.successfulRetries + 1 } else s
  (({ s with completions := s.completions ++ [(key, r)] } : ToolSystem).setBreaker
    s.adapter.circuitBreaker.onSuccess).leave k key (.returned r)

/-- The body of the tool ended in attempt `n`. -/
def toolEnded (n : ℕ) (how : ToolEnd) (now : ℤ) : ToolSystem :=
  match how with
  | .returned r => s.attemptReturned k key n r
  | .raised e => s.attemptFailed k key n e now
  | .timedOut => s.leave k key (.raised totalTimeout)
  | .cancelled => s.leave k key .cancelled

/-- A step of the `k`-th execute, which is at the phase. -/
def act : Phase → ToolAction → Option ToolSystem
  | .lookup none, .serve ok =>
    some (s.goTo k key (.lookup (some (if ok then s.redisResult key else .null))))
  | .lookup (some v), .proceed => some (s.checked k key v)
  | .logging, .proceed => some (s.goTo k key .requested)
  | .requested, .begin => some (s.begin k key)
  | .requested, .timeout => some (s.goTo k key (.ended (.raised totalTimeout)))
  | .entering, .acquire => some (s.acquire k key)
  | .entering, .reject => some (s.reject k key)
  | .entering, .timeout => some (s.goTo k key (.ended (.raised totalTimeout)))
  | .waiting, .wake =>
    if s.semaphore.woken k then some ((s.setSemaphore (s.semaphore.resume k)).goTo k key .granted)
    else none
  | .waiting, .reject => some (s.reject k key)
  | .waiting, .timeout =>
    some ((s.setSemaphore (s.semaphore.abandon k)).goTo k key (.ended (.raised totalTimeout)))
  | .granted, .start now => some (s.start k key now)
  | .running n, .ended how now => some (s.toolEnded k key n how now)
  | .sleeping n, .retry => some (s.goTo k key (.running (n + 1)))
  | .sleeping _, .timeout => some (s.leave k key (.raised totalTimeout))
  | .ended outcome, .report => some (s.report k key outcome)
  | .loggingSuccess r, .proceed => some (s.storeResult k key r)
  | .storing r false, .serve ok =>
    some ((if ok then s.redisStore key r else s).goTo k key (.storing r true))
  | .storing r true, .proceed => some (s.succeed k key r)
  | .loggingFailure e, .proceed => some (s.fail k key e)
  | _, _ => none

/-- One step of the executes. -/
def step : ToolEvent → Option ToolSystem
  | .call key => some (s.beginExecute key)
  | .act k action =>
    match s.calls[k]? with
    | some c => s.act k c.key c.phase action
    | none => none
  | .redis key (some v) => some { s with redis := s.redis.map fun results => results.set key v }
  | .redis key none => some { s with redis := s.redis.map fun results => results.erase key }

/-! ### What a step changes -/

/-- Only the bulkhead, the breaker and the retry manager differ. -/
structure Untouched (s t : ToolSystem) : Prop where
  cache : t.adapter.localCache = s.adapter.localCache
  log : t.adapter.localLog = s.adapter.localLog
  total : t.adapter.totalCalls = s.adapter.totalCalls
  successful : t.adapter.successfulCalls = s.adapter.successfulCalls
  failed : t.adapter.failedCalls = s.adapter.failedCalls
  redis : t.redis = s.redis
  calls : t.calls = s.calls
  completions : t.completions = s.completions

theorem Untouched.refl : Untouched s s :=
  ⟨rfl, rfl, rfl, rfl, rfl, rfl, rfl, rfl⟩

theorem untouched_updateBulkhead (f : Bulkhead → Bulkhead) : Untouched s (s.updateBulkhead f) :=
  ⟨rfl, rfl, rfl, rfl, rfl, rfl, rfl, rfl⟩

theorem untouched_setBreaker (b : CircuitBreaker) : Untouched s (s.setBreaker b) :=
  ⟨rfl, rfl, rfl, rfl, rfl, rfl, rfl, rfl⟩

theorem untouched_updateRetries (f : RetryManager → RetryManager) :
    Untouched s (s.updateRetries f) :=
  ⟨rfl, rfl, rfl, rfl, rfl, rfl, rfl, rfl⟩

variable {s k key}

theorem Untouched.trans {t u : ToolSystem} (h : Untouched s t) (h' : Untouched t u) :
    Untouched s u where
  cache := h'.cache.trans h.cache
  log := h'.log.trans h.log
  total := h'.total.trans h.total
  successful := h'.successful.trans h.successful
  failed := h'.failed.trans h.failed
  redis := h'.redis.trans h.redis
  calls := h'.calls.trans h.calls
  completions := h'.completions.trans h.completions

/-- The `k`-th execute has moved inside. -/
def Within (s : ToolSystem) (k : ℕ) (key : String) (t : ToolSystem) : Prop :=
  ∃ u y, Untouched s u ∧ y.inside = true ∧ t = u.goTo k key y

theorem Within.goTo {y : Phase} (hy : y.inside = true) : Within s k key (s.goTo k key y) :=
  ⟨s, y, .refl s, hy, rfl⟩

theorem Untouched.within {t u : ToolSystem} (h : Untouched s t) (h' : Within t k key u) :
    Within s k key u := by
  obtain ⟨v, y, hv, hy, rfl⟩ := h'
  exact ⟨v, y, h.trans hv, hy, rfl⟩

theorem getElem?_goTo {c : Execute} (h : s.calls[k]? = some c) (x : Phase) :
    (s.goTo k key x).calls[k]? = some ⟨key, x⟩ := by
  obtain ⟨hlt, -⟩ := List.getElem?_eq_some_iff.mp h
  exact List.getElem?_set_self hlt

@[simp] theorem updateLog_calls (f : WriteAheadLog → WriteAheadLog) :
    (s.updateLog k f).calls = s.calls := by
  unfold updateLog
  split <;> rfl

theorem storeResult_goTo (x : Phase) (r : Value) :
    (s.goTo k key x).storeResult k key r = s.storeResult k key r := by
  cases hr : s.redis <;> simp [storeResult, succeed, goTo, update, hr]

theorem succeed_goTo (x : Phase) (r : Value) :
    (s.goTo k key x).succeed k key r = s.succeed k key r := by
  simp only [succeed, goTo, update, List.set_set]

theorem fail_goTo (x : Phase) (e : ToolError) :
    (s.goTo k key x).fail k key e = s.fail k key e := by
  simp only [fail, goTo, update, List.set_set]

theorem within_leave {outcome : TaskEnd} (h : (Phase.ended outcome).inside = true) :
    Within s k key (s.leave k key outcome) :=
  (untouched_updateBulkhead s _).within (.goTo h)

theorem within_reject : Within s k key (s.reject k key) :=
  (untouched_updateBulkhead s _).within (.goTo rfl)

theorem within_raiseFrom (e : ToolError) : Within s k key (s.raiseFrom k key e) := by
  unfold raiseFrom
  split_ifs
  · exact (untouched_updateBulkhead s _).within (within_leave rfl)
  · exact within_leave rfl

theorem within_breakerFailed (e : ToolError) (now : ℤ) :
    Within s k key (s.breakerFailed k key e now) :=
  (untouched_setBreaker s _).within (within_raiseFrom e)

theorem within_acquire : Within s k key (s.acquire k key) := by
  unfold acquire
  split_ifs
  · exact (untouched_updateBulkhead s _).within (.goTo rfl)
  · exact (untouched_updateBulkhead s _).within (.goTo rfl)

theorem within_start (now : ℤ) : Within s k key (s.start k key now) := by
  have hasked : ∀ b, Untouched s ((s.updateBulkhead fun b =>
      { b with activeCalls := b.activeCalls + 1 }).setBreaker b) := fun b =>
    (untouched_updateBulkhead s _).trans (untouched_setBreaker _ b)
  unfold start
  dsimp only
  split
  · exact (hasked _).within (within_raiseFrom _)
  · split_ifs
    · exact (hasked _).within (.goTo rfl)
    · exact (hasked _).within (within_breakerFailed _ now)

theorem within_attemptFailed (n : ℕ) (e : ToolError) (now : ℤ) :
    Within s k key (s.attemptFailed k key n e now) := by
  unfold attemptFailed
  split_ifs
  · exact within_breakerFailed e now
  · exact (untouched_updateRetries s _).within (within_breakerFailed e now)
  · exact .goTo rfl

/-- The body of the tool completes in an attempt of the `k`-th execute. -/
structure Completes (s : ToolSystem) (k : ℕ) (key : String) (r : Value) (t : ToolSystem) :
    Prop where
  untouched : Untouched s { t with calls := s.calls, completions := s.completions }
  calls : t.calls = s.calls.set k { key := key, phase := .ended (.returned r) }
  completions : t.completions = s.completions ++ [(key, r)]

theorem completes_attemptReturned (n : ℕ) (r : Value) :
    Completes s k key r (s.attemptReturned k key n r) := by
  unfold attemptReturned
  dsimp only
  split_ifs
  · exact ⟨⟨rfl, rfl, rfl, rfl, rfl, rfl, rfl, rfl⟩, rfl, rfl⟩
  · exact ⟨⟨rfl, rfl, rfl, rfl, rfl, rfl, rfl, rfl⟩, rfl, rfl⟩

theorem redisStore_eq (key : String) (r : Value) : (s.redisStore key r).adapter = s.adapter ∧
    (s.redisStore key r).calls = s.calls ∧ (s.redisStore key r).completions = s.completions := by
  unfold redisStore
  split <;> exact ⟨rfl, rfl, rfl⟩

/-- What a step of the `k`-th execute does, by the phase that the execute is at. -/
inductive Effect (s : ToolSystem) (k : ℕ) (key : String) (t : ToolSystem) :
    Phase → ToolAction → Prop
  | served (ok : Bool) : t = s.goTo k key (.lookup (some (if ok then s.redisResult key else .null)))
      → Effect s k key t (.lookup none) (.serve ok)
  | checked (v : Value) : t = s.checked k key v →
      Effect s k key t (.lookup (some v)) .proceed
  | within {x : Phase} {a : ToolAction} : x.inside = true → Within s k key t →
      Effect s k key t x a
  | completed (n : ℕ) (r : Value) (now : ℤ) : Completes s k key r t →
      Effect s k key t (.running n) (.ended (.returned r) now)
  | selfCancelled (n : ℕ) (now : ℤ) : t = s.leave k key .cancelled →
      Effect s k key t (.running n) (.ended .cancelled now)
  | reported (outcome : TaskEnd) : t = s.report k key outcome →
      Effect s k key t (.ended outcome) .report
  | loggedSuccess (r : Value) : t = s.storeResult k key r →
      Effect s k key t (.loggingSuccess r) .proceed
  | stored (r : Value) (ok : Bool) :
      t = (if ok then s.redisStore key r else s).goTo k key (.storing r true) →
      Effect s k key t (.storing r false) (.serve ok)
  | succeeded (r : Value) : t = s.succeed k key r → Effect s k key t (.storing r true) .proceed
  | loggedFailure (e : ToolError) : t = s.fail k key e →
      Effect s k key t (.loggingFailure e) .proceed

theorem effect_of_act {x : Phase} {a : ToolAction} {t : ToolSystem}
    (h : s.act k key x a = some t) : Effect s k key t x a := by
  unfold act at h
  split at h
  · exact .served _ (Option.some.inj h).symm
  · exact .checked _ (Option.some.inj h).symm
  · obtain rfl := Option.some.inj h
    exact .within rfl (.goTo rfl)
  · obtain rfl := Option.some.inj h
    exact .within rfl ((untouched_updateBulkhead s _).within (.goTo rfl))
  · obtain rfl := Option.some.inj h
    exact .within rfl (.goTo rfl)
  · obtain rfl := Option.some.inj h
    exact .within rfl within_acquire
  · obtain rfl := Option.some.inj h
    exact .within rfl within_reject
  · obtain rfl := Option.some.inj h
    exact .within rfl (.goTo rfl)
  · split_ifs at h
    obtain rfl := Option.some.inj h
    exact .within rfl ((untouched_updateBulkhead s _).within (.goTo rfl))
  · obtain rfl := Option.some.inj h
    exact .within rfl within_reject
  · obtain rfl := Option.some.inj h
    exact .within rfl ((untouched_updateBulkhead s _).within (.goTo rfl))
  · obtain rfl := Option.some.inj h
    exact .within rfl (within_start _)
  · obtain rfl := Option.some.inj h
    rename_i n how now
    cases how with
    | returned r => exact .completed n r now (completes_attemptReturned n r)
    | raised e => exact .within rfl (within_attemptFailed n e now)
    | timedOut => exact .within rfl (within_leave rfl)
    | cancelled => exact .selfCancelled n now rfl
  · obtain rfl := Option.some.inj h
    exact .within rfl (.goTo rfl)
  · obtain rfl := Option.some.inj h
    exact .within rfl (within_leave rfl)
  · exact .reported _ (Option.some.inj h).symm
  · exact .loggedSuccess _ (Option.some.inj h).symm
  · exact .stored _ _ (Option.some.inj h).symm
  · exact .succeeded _ (Option.some.inj h).symm
  · exact .loggedFailure _ (Option.some.inj h).symm
  · cases h

end ToolSystem

/-- A new adapter with or without Redis, which holds no results, and no executes. -/
def toolMachine (cfg : AdapterConfig) (redis : Bool) : Machine ToolSystem ToolEvent where
  init := { adapter := .new cfg, redis := if redis then some .empty else none }
  step := ToolSystem.step

end BaseAdapter

end MultiAgent
