import Mathlib.Data.List.Perm.Basic
import Mathlib.Data.Rat.Init
import MultiAgent.Lib.Json
import MultiAgent.Lib.Machine
import MultiAgent.Lib.Semaphore
import MultiAgent.Reliability.CircuitBreaker

/-!
# The resilient tool adapter and its recovery

`ResilientToolAdapter` of `libs/resilience/tool_adapter_base.py`. `execute` looks its key up
in Redis, waits for a slot of the bulkhead, asks the breaker, and runs the operation in
attempts. Every attempt logs an entry of its own as pending before it runs the operation,
and marks it completed or logs it as failed afterwards. `recover_pending_operations` lists
the keys of the log, reads the entries one by one, runs the operation of each that was
pending, and marks it completed.

`toolMachine` interleaves any number of executes and recoveries over one Redis. They are
suspended where they await Redis, where the task of `acquire` has not begun, in the queue
of the semaphore, while an operation runs, and while an execute sleeps between attempts;
the locks of the breaker and of the bulkhead are never contended, since nothing is awaited
inside them. What Redis does (`serve`) and what a party does with the answer (`proceed`) are
two steps. A command that fails has no effect, and every exception of Redis is caught where
the command is awaited.

Durations are left out, and so are the times and the error texts in the entries of the log.
-/

namespace MultiAgent

namespace ToolResilience

open BaseAdapter (CircuitState)
open Json (Value)

/-- `CircuitBreakerConfig`. Times are in seconds. -/
structure CircuitBreakerConfig where
  failureThreshold : ℤ := 5
  recoveryTimeout : ℚ := 60
  failureRatio : ℚ := 1 / 2
  minimumRequests : ℤ := 10

/-- The attributes of `CircuitBreaker`. -/
structure CircuitBreaker where
  config : CircuitBreakerConfig
  state : CircuitState := .closed
  failureCount : ℕ := 0
  successCount : ℕ := 0
  lastFailureTime : Option ℚ := none

namespace CircuitBreaker

variable (b : CircuitBreaker)

/-- `_should_attempt_reset`. -/
def shouldAttemptReset (now : ℚ) : Bool :=
  match b.lastFailureTime with
  | none => true
  | some t => decide (b.config.recoveryTimeout ≤ now - t)

/-- `call` up to `await func(*args, **kwargs)` : the breaker afterwards, and whether the call
is let through. -/
def beginCall (now : ℚ) : CircuitBreaker × Bool :=
  if b.state = .opened then
    if b.shouldAttemptReset now then ({ b with state := .halfOpen, successCount := 0 }, true)
    else (b, false)
  else (b, true)

/-- `_on_success`. -/
def onSuccess : CircuitBreaker :=
  let b := { b with successCount := b.successCount + 1 }
  if b.state = .halfOpen ∧ b.config.minimumRequests ≤ b.successCount then
    { b with state := .closed, failureCount := 0 }
  else b

/-- `_should_open_circuit`. -/
def shouldOpenCircuit : Bool :=
  let total := b.failureCount + b.successCount
  if (total : ℤ) < b.config.minimumRequests then false
  else decide (b.config.failureThreshold ≤ b.failureCount) ||
    decide (b.config.failureRatio ≤ (b.failureCount : ℚ) / (total : ℚ))

/-- `_on_failure`. -/
def onFailure (now : ℚ) : CircuitBreaker :=
  let b := { b with failureCount := b.failureCount + 1, lastFailureTime := some now }
  if b.state = .halfOpen then { b with state := .opened }
  else if b.shouldOpenCircuit then { b with state := .opened }
  else b

end CircuitBreaker

/-- The id of an entry of the log : of an earlier process, or of an attempt of an execute. -/
inductive EntryId
  | earlier (n : ℕ)
  | attempt (call n : ℕ)
  deriving DecidableEq, Repr

/-- `WriteAheadLogEntry.state`. -/
inductive WalState
  | pending
  | completed
  | failed
  deriving DecidableEq, Repr

/-- The fields of `WriteAheadLogEntry` that are read again. -/
structure WalEntry where
  operation : String
  payload : Value
  state : WalState := .pending
  retryCount : ℕ := 0

/-- The parameters of `ResilientToolAdapter` that decide what it does; `redis` says whether
it has a Redis client. -/
structure AdapterConfig where
  maxAttempts : ℤ := 3
  circuit : CircuitBreakerConfig := {}
  maxConcurrent : ℕ := 10
  redis : Bool := true

/-- The attributes of `BulkheadPool`. -/
structure BulkheadPool where
  semaphore : Semaphore ℕ
  currentUsage : ℤ := 0

/-- `metrics`. -/
structure Metrics where
  totalRequests : ℕ := 0
  successfulRequests : ℕ := 0
  failedRequests : ℕ := 0
  circuitBreakerOpens : ℕ := 0
  bulkheadRejections : ℕ := 0
  idempotencyHits : ℕ := 0
  retryAttempts : ℕ := 0

/-- The attributes of `ResilientToolAdapter`. -/
structure ToolAdapter where
  config : AdapterConfig
  circuitBreaker : CircuitBreaker
  bulkhead : BulkheadPool
  metrics : Metrics := {}

/-- How an operation ended : it returned or raised an `Exception`, which is one of the
`retryable_exceptions` or not, or it ended with a `CancelledError`. -/
inductive OperationEnd
  | returned (r : Value)
  | raised (retryable : Bool)
  | cancelled

/-- Where an execute is. A phase that awaits Redis says what Redis has answered, if it has. -/
inductive Phase
  | lookup (reply : Option (Option Value))
  | requested
  | waiting
  | granted
  | logging (served : Bool)
  | running
  | markGet (r : Value) (reply : Option (Option WalEntry))
  | markSet (r : Value) (entry : WalEntry) (served : Bool)
  | logFailed (retryable served : Bool)
  | sleeping
  | storing (r : Value) (served : Bool)
  | hit (r : Value)
  | returned (r : Value)
  | rejected
  | failed
  | cancelled

/-- An execute : its idempotency key, if one is in effect, its operation, and the number of
attempts that it has begun. -/
structure Execute where
  key : Option String
  operation : String
  payload : Value
  attempts : ℕ := 0
  phase : Phase

/-- The id of the entry of the current attempt of the `k`-th execute. -/
def Execute.entryId (c : Execute) (k : ℕ) : EntryId :=
  .attempt k c.attempts

/-- An answer to a `get` of an entry : an exception, or the entry if it is there. -/
abbrev EntryReply :=
  Option (Option WalEntry)

/-- Where a recovery is. `todo` are the keys it has not read yet, `found` and `rest` the
pending entries it has read and not dealt with, `count` is `recovered_count`. -/
inductive Recovery
  | listing (reply : Option (List EntryId))
  | reading (todo : List EntryId) (found : List (EntryId × WalEntry)) (reply : Option EntryReply)
  | executing (id : EntryId) (entry : WalEntry) (rest : List (EntryId × WalEntry)) (count : ℕ)
  | markGet (id : EntryId) (rest : List (EntryId × WalEntry)) (count : ℕ)
      (reply : Option (Option WalEntry))
  | markSet (id : EntryId) (entry : WalEntry) (rest : List (EntryId × WalEntry)) (count : ℕ)
      (served : Bool)
  | done (count : ℕ)
  | cancelled

/-- What an execute does next : Redis answers it or fails; it goes on with the answer; its
`acquire` begins, goes on after it was woken, or is given up; it goes on with its slot; its
operation ends; its sleep is over. -/
inductive ToolAction
  | serve (ok : Bool)
  | proceed (now : ℚ)
  | acquire
  | wake
  | reject
  | start (now : ℚ)
  | ended (how : OperationEnd) (now : ℚ)
  | retry

/-- What a recovery does next : Redis lists the keys in some order, answers or fails
otherwise; it goes on with the answer; its operation ends. -/
inductive RecoveryAction
  | list (keys : List EntryId)
  | serve (ok : Bool)
  | proceed
  | ended (how : OperationEnd)

/-- A new execute, a step of the `k`-th one, a new recovery, a step of the `j`-th one, or the
expiry of a result or of an entry. -/
inductive ToolEvent
  | call (key : Option String) (operation : String) (payload : Value)
  | act (k : ℕ) (action : ToolAction)
  | recover
  | recoveryAct (j : ℕ) (action : RecoveryAction)
  | expireResult (key : String)
  | expireEntry (id : EntryId)

/-- The adapter, the results and the log in Redis, the executes and the recoveries in the
order in which they came, the results of the operations of executes that completed, with
their keys, and the entries whose operation was executed to success. -/
structure ToolSystem where
  adapter : ToolAdapter
  results : Dict String Value := .empty
  wal : Dict EntryId WalEntry
  calls : List Execute := []
  recoveries : List Recovery := []
  completions : List (Option String × Value) := []
  successes : List EntryId := []

namespace ToolSystem

variable (s : ToolSystem) (k j : ℕ) (c : Execute)

/-- The `k`-th execute, which is `c`, is at `x`. -/
def goTo (x : Phase) : ToolSystem :=
  { s with calls := s.calls.set k { c with phase := x } }

/-- Change the attributes of the adapter. -/
def update (f : ToolAdapter → ToolAdapter) : ToolSystem :=
  { s with adapter := f s.adapter }

/-- Count in the metrics. -/
def count (f : Metrics → Metrics) : ToolSystem :=
  s.update fun a => { a with metrics := f a.metrics }

/-- Change the attributes of the bulkhead. -/
def updateBulkhead (f : BulkheadPool → BulkheadPool) : ToolSystem :=
  s.update fun a => { a with bulkhead := f a.bulkhead }

/-- Replace the breaker. -/
def setBreaker (b : CircuitBreaker) : ToolSystem :=
  s.update fun a => { a with circuitBreaker := b }

/-- The semaphore of the bulkhead. -/
abbrev semaphore : Semaphore ℕ :=
  s.adapter.bulkhead.semaphore

/-- The adapter has a Redis client. -/
abbrev hasRedis : Bool :=
  s.adapter.config.redis

/-! ### Executes -/

/-- `execute` up to its first suspension. -/
def beginExecute (key : Option String) (operation : String) (payload : Value) : ToolSystem :=
  let s := s.count fun m => { m with totalRequests := m.totalRequests + 1 }
  { s with calls := s.calls ++ [
      { key := key
        operation := operation
        payload := payload
        phase := if s.hasRedis && key.isSome then .lookup none else .requested }] }

/-- `execute` after `get_result` : a cached result is returned if it is true. -/
def checked : Option Value → ToolSystem
  | some v =>
    if v.truthy then
      (s.count fun m => { m with idempotencyHits := m.idempotencyHits + 1 }).goTo k c (.hit v)
    else s.goTo k c .requested
  | none => s.goTo k c .requested

/-- `acquire` begins. -/
def acquire : ToolSystem :=
  if s.semaphore.locked then
    (s.updateBulkhead fun b => { b with semaphore := b.semaphore.wait k }).goTo k c .waiting
  else
    (s.updateBulkhead fun b =>
      { semaphore := b.semaphore.take, currentUsage := b.currentUsage + 1 }).goTo k c .granted

/-- A woken `acquire` goes on. -/
def wake : ToolSystem :=
  (s.updateBulkhead fun b =>
    { semaphore := b.semaphore.resume k, currentUsage := b.currentUsage + 1 }).goTo k c .granted

/-- `acquire` is given up. -/
def reject : ToolSystem :=
  ((s.updateBulkhead fun b => { b with semaphore := b.semaphore.abandon k }).count fun m =>
    { m with bulkheadRejections := m.bulkheadRejections + 1 }).goTo k c .rejected

/-- The `finally` of `execute`, after which it ends. -/
def leave (x : Phase) : ToolSystem :=
  (s.updateBulkhead fun b =>
    { semaphore := b.semaphore.release, currentUsage := b.currentUsage - 1 }).goTo k c x

/-- `execute` after the breaker raised. -/
def fail : ToolSystem :=
  let s := s.count fun m => { m with failedRequests := m.failedRequests + 1 }
  let s := if s.adapter.circuitBreaker.state = .opened then
    s.count fun m => { m with circuitBreakerOpens := m.circuitBreakerOpens + 1 } else s
  s.leave k c .failed

/-- An attempt begins, up to its first suspension. -/
def beginAttempt : ToolSystem :=
  (s.count fun m => { m with retryAttempts := m.retryAttempts + 1 }).goTo k
    { c with attempts := c.attempts + 1 } (if s.hasRedis then .logging false else .running)

/-- `execute` with its slot : the breaker is asked and the first attempt begins. -/
def start (now : ℚ) : ToolSystem :=
  let r := s.adapter.circuitBreaker.beginCall now
  let s := s.setBreaker r.1
  if r.2 then s.beginAttempt k c else s.fail k c

/-- `log_operation` once Redis runs it : the current attempt of the execute gets an entry with
the state, if its payload can be encoded. -/
def logOperation (state : WalState) (retryCount : ℕ) : ToolSystem :=
  match c.payload.reload with
  | some p => { s with wal := s.wal.set (c.entryId k) ⟨c.operation, p, state, retryCount⟩ }
  | none => s

/-- The end of an execute that returns its result. -/
def succeed (r : Value) : ToolSystem :=
  (s.count fun m => { m with successfulRequests := m.successfulRequests + 1 }).leave k c
    (.returned r)

/-- `execute` after its attempts returned : the breaker counts a success and the result is
stored. -/
def attemptsReturned (r : Value) : ToolSystem :=
  let s := s.setBreaker s.adapter.circuitBreaker.onSuccess
  if s.hasRedis && c.key.isSome then s.goTo k c (.storing r false) else s.succeed k c r

/-- An attempt raised, and its entry was logged : sleep before the next one, or raise. -/
def attemptFailed (retryable : Bool) (now : ℚ) : ToolSystem :=
  if retryable = true ∧ (c.attempts : ℤ) < s.adapter.config.maxAttempts then s.goTo k c .sleeping
  else (s.setBreaker (s.adapter.circuitBreaker.onFailure now)).fail k c

/-- The operation of the current attempt ended. -/
def operationEnded (how : OperationEnd) (now : ℚ) : ToolSystem :=
  match how with
  | .returned r =>
    let s := { s with
      completions := s.completions ++ [(c.key, r)], successes := s.successes ++ [c.entryId k] }
    if s.hasRedis then s.goTo k c (.markGet r none) else s.attemptsReturned k c r
  | .raised retryable =>
    if s.hasRedis then s.goTo k c (.logFailed retryable false)
    else s.attemptFailed k c retryable now
  | .cancelled => s.leave k c .cancelled

/-- `set_result` once Redis runs it. -/
def storeResult (r : Value) : ToolSystem :=
  match c.key, r.reload with
  | some key, some v => { s with results := s.results.set key v }
  | _, _ => s

/-- Redis runs the command that the `k`-th execute awaits, or fails. -/
def serve (ok : Bool) : Phase → Option ToolSystem
  | .lookup none =>
    some (s.goTo k c (.lookup (some (if ok then c.key.bind s.results.get? else none))))
  | .logging false =>
    some ((if ok then s.logOperation k c .pending 0 else s).goTo k c (.logging true))
  | .markGet r none =>
    some (s.goTo k c (.markGet r (some (if ok then s.wal.get? (c.entryId k) else none))))
  | .markSet r entry false =>
    some ((if ok then { s with wal := s.wal.set (c.entryId k) entry } else s).goTo k c
      (.markSet r entry true))
  | .logFailed retryable false =>
    some ((if ok then s.logOperation k c .failed 1 else s).goTo k c (.logFailed retryable true))
  | .storing r false => some ((if ok then s.storeResult c r else s).goTo k c (.storing r true))
  | _ => none

/-- The `k`-th execute goes on with the answer of Redis. -/
def proceed (now : ℚ) : Phase → Option ToolSystem
  | .lookup (some reply) => some (s.checked k c reply)
  | .logging true => some (s.goTo k c .running)
  | .markGet r (some (some entry)) =>
    some (s.goTo k c (.markSet r { entry with state := .completed } false))
  | .markGet r (some none) => some (s.attemptsReturned k c r)
  | .markSet r _ true => some (s.attemptsReturned k c r)
  | .logFailed retryable true => some (s.attemptFailed k c retryable now)
  | .storing r true => some (s.succeed k c r)
  | _ => none

/-- A step of the `k`-th execute. -/
def act : ToolAction → Option ToolSystem
  | .serve ok => s.serve k c ok c.phase
  | .proceed now => s.proceed k c now c.phase
  | .acquire =>
    match c.phase with
    | .requested => some (s.acquire k c)
    | _ => none
  | .wake =>
    match c.phase with
    | .waiting => if s.semaphore.woken k then some (s.wake k c) else none
    | _ => none
  | .reject =>
    match c.phase with
    | .requested => some (s.reject k c)
    | .waiting => some (s.reject k c)
    | _ => none
  | .start now =>
    match c.phase with
    | .granted => some (s.start k c now)
    | _ => none
  | .ended how now =>
    match c.phase with
    | .running => some (s.operationEnded k c how now)
    | _ => none
  | .retry =>
    match c.phase with
    | .sleeping => some (s.beginAttempt k c)
    | _ => none

/-! ### Recoveries -/

/-- The `j`-th recovery is at `x`. -/
def recoverAt (x : Recovery) : ToolSystem :=
  { s with recoveries := s.recoveries.set j x }

/-- The loop over the pending entries : those with too many retries are skipped. -/
def nextPending (pending : List (EntryId × WalEntry)) (count : ℕ) : ToolSystem :=
  match pending.dropWhile fun p => decide (s.adapter.config.maxAttempts ≤ p.2.retryCount) with
  | [] => s.recoverAt j (.done count)
  | p :: rest => s.recoverAt j (.executing p.1 p.2 rest count)

/-- The loop over the keys of the log. -/
def nextRead (todo : List EntryId) (found : List (EntryId × WalEntry)) : ToolSystem :=
  if todo.isEmpty then s.nextPending j found 0 else s.recoverAt j (.reading todo found none)

/-- `get_pending_operations` after it read the first of its keys : an exception gives up
everything that was found. -/
def entryRead (id : EntryId) (todo : List EntryId) (found : List (EntryId × WalEntry)) :
    EntryReply → ToolSystem
  | none => s.nextPending j [] 0
  | some none => s.nextRead j todo found
  | some (some entry) =>
    s.nextRead j todo (if entry.state = .pending then found ++ [(id, entry)] else found)

/-- `recover_pending_operations` up to its first suspension. -/
def beginRecovery : ToolSystem :=
  { s with recoveries := s.recoveries ++ [if s.hasRedis then .listing none else .done 0] }

/-- The operation of a recovered entry ended. -/
def recoveryEnded (id : EntryId) (rest : List (EntryId × WalEntry)) (count : ℕ) :
    OperationEnd → ToolSystem
  | .returned _ =>
    ({ s with successes := s.successes ++ [id] } : ToolSystem).recoverAt j
      (.markGet id rest count none)
  | .raised _ => s.nextPending j rest count
  | .cancelled => s.recoverAt j .cancelled

/-- A step of the `j`-th recovery. -/
def recoveryAct : Recovery → RecoveryAction → Option ToolSystem
  | .listing none, .list keys =>
    if keys.isPerm s.wal.keys then some (s.recoverAt j (.listing (some keys))) else none
  | .listing none, .serve false => some (s.recoverAt j (.listing (some [])))
  | .listing (some keys), .proceed => some (s.nextRead j keys [])
  | .reading (id :: todo) found none, .serve ok =>
    some (s.recoverAt j (.reading (id :: todo) found
      (some (if ok then some (s.wal.get? id) else none))))
  | .reading (id :: todo) found (some reply), .proceed => some (s.entryRead j id todo found reply)
  | .executing id _ rest count, .ended how => some (s.recoveryEnded j id rest count how)
  | .markGet id rest count none, .serve ok =>
    some (s.recoverAt j (.markGet id rest count (some (if ok then s.wal.get? id else none))))
  | .markGet id rest count (some (some entry)), .proceed =>
    some (s.recoverAt j (.markSet id { entry with state := .completed } rest count false))
  | .markGet _ rest count (some none), .proceed => some (s.nextPending j rest (count + 1))
  | .markSet id entry rest count false, .serve ok =>
    some ((if ok then { s with wal := s.wal.set id entry } else s).recoverAt j
      (.markSet id entry rest count true))
  | .markSet _ _ rest count true, .proceed => some (s.nextPending j rest (count + 1))
  | _, _ => none

/-! ### Steps -/

/-- One step of the executes, the recoveries and Redis. -/
def step : ToolEvent → Option ToolSystem
  | .call key operation payload => some (s.beginExecute key operation payload)
  | .act k action =>
    match s.calls[k]? with
    | some c => s.act k c action
    | none => none
  | .recover => some s.beginRecovery
  | .recoveryAct j action =>
    match s.recoveries[j]? with
    | some r => s.recoveryAct j r action
    | none => none
  | .expireResult key => some { s with results := s.results.erase key }
  | .expireEntry id => some { s with wal := s.wal.erase id }

/-! ### What a step of an execute does -/

/-- Only the adapter differs : the breaker, the bulkhead and the metrics. -/
structure Untouched (s t : ToolSystem) : Prop where
  config : t.adapter.config = s.adapter.config
  results : t.results = s.results
  wal : t.wal = s.wal
  calls : t.calls = s.calls
  recoveries : t.recoveries = s.recoveries
  completions : t.completions = s.completions
  successes : t.successes = s.successes

theorem Untouched.refl : Untouched s s :=
  ⟨rfl, rfl, rfl, rfl, rfl, rfl, rfl⟩

theorem untouched_count (f : Metrics → Metrics) : Untouched s (s.count f) :=
  ⟨rfl, rfl, rfl, rfl, rfl, rfl, rfl⟩

theorem untouched_updateBulkhead (f : BulkheadPool → BulkheadPool) :
    Untouched s (s.updateBulkhead f) :=
  ⟨rfl, rfl, rfl, rfl, rfl, rfl, rfl⟩

theorem untouched_setBreaker (b : CircuitBreaker) : Untouched s (s.setBreaker b) :=
  ⟨rfl, rfl, rfl, rfl, rfl, rfl, rfl⟩

variable {s k c}

theorem Untouched.trans {t u : ToolSystem} (h : Untouched s t) (h' : Untouched t u) :
    Untouched s u where
  config := h'.config.trans h.config
  results := h'.results.trans h.results
  wal := h'.wal.trans h.wal
  calls := h'.calls.trans h.calls
  recoveries := h'.recoveries.trans h.recoveries
  completions := h'.completions.trans h.completions
  successes := h'.successes.trans h.successes

/-- `t` is `s` with the `k`-th execute, now `d`, at `y`, but for the adapter. -/
def Moved (s : ToolSystem) (k : ℕ) (d : Execute) (y : Phase) (t : ToolSystem) : Prop :=
  ∃ u, Untouched s u ∧ t = u.goTo k d y

theorem Untouched.moved {t u : ToolSystem} {y : Phase} (h : Untouched s t) (h' : Moved t k c y u) :
    Moved s k c y u := by
  obtain ⟨v, hv, rfl⟩ := h'
  exact ⟨v, h.trans hv, rfl⟩

theorem moved_goTo (y : Phase) : Moved s k c y (s.goTo k c y) :=
  ⟨s, .refl s, rfl⟩

theorem moved_leave (y : Phase) : Moved s k c y (s.leave k c y) :=
  (untouched_updateBulkhead s _).moved (moved_goTo y)

theorem moved_fail : Moved s k c .failed (s.fail k c) := by
  unfold fail
  dsimp only
  split_ifs
  · exact ((untouched_count s _).trans (untouched_count _ _)).moved (moved_leave _)
  · exact (untouched_count s _).moved (moved_leave _)

theorem moved_succeed (r : Value) : Moved s k c (.returned r) (s.succeed k c r) :=
  (untouched_count s _).moved (moved_leave _)

theorem moved_beginAttempt : Moved s k { c with attempts := c.attempts + 1 }
    (if s.hasRedis then .logging false else .running) (s.beginAttempt k c) :=
  (untouched_count s _).moved (moved_goTo _)

theorem moved_attemptsReturned (r : Value) :
    Moved s k c (if s.hasRedis && c.key.isSome then .storing r false else .returned r)
      (s.attemptsReturned k c r) := by
  have hset := untouched_setBreaker s s.adapter.circuitBreaker.onSuccess
  unfold attemptsReturned
  dsimp only
  split_ifs with h h' h'
  · exact hset.moved (moved_goTo _)
  · exact absurd h h'
  · exact absurd h' h
  · exact hset.moved (moved_succeed r)

theorem moved_attemptFailed (retryable : Bool) (now : ℚ) : ∃ y, (y = .sleeping ∨ y = .failed) ∧
    Moved s k c y (s.attemptFailed k c retryable now) := by
  unfold attemptFailed
  split_ifs
  · exact ⟨_, Or.inl rfl, moved_goTo _⟩
  · exact ⟨_, Or.inr rfl, (untouched_setBreaker s _).moved moved_fail⟩

theorem logOperation_eq (state : WalState) (retryCount : ℕ) :
    ∃ wal, s.logOperation k c state retryCount = { s with wal := wal } := by
  unfold logOperation
  split
  · exact ⟨_, rfl⟩
  · exact ⟨s.wal, rfl⟩

/-- What a step of the `k`-th execute does. -/
inductive Effect (s : ToolSystem) (k : ℕ) (c : Execute) (t : ToolSystem) : ToolAction → Prop
  | looked (ok : Bool) : c.phase = .lookup none →
      t = s.goTo k c (.lookup (some (if ok then c.key.bind s.results.get? else none))) →
      Effect s k c t (.serve ok)
  | hit (v : Value) (now : ℚ) : c.phase = .lookup (some (some v)) → v.truthy = true →
      Moved s k c (.hit v) t → Effect s k c t (.proceed now)
  | missed (v : Option Value) (now : ℚ) : c.phase = .lookup (some v) →
      (∀ w, v = some w → w.truthy = false) → t = s.goTo k c .requested →
      Effect s k c t (.proceed now)
  | slot (y : Phase) (a : ToolAction) : c.phase = .requested ∨ c.phase = .waiting →
      y = .waiting ∨ y = .granted ∨ y = .rejected → Moved s k c y t → Effect s k c t a
  | attempt (a : ToolAction) : c.phase = .granted ∨ c.phase = .sleeping →
      Moved s k { c with attempts := c.attempts + 1 }
        (if s.hasRedis then .logging false else .running) t → Effect s k c t a
  | refused (now : ℚ) : c.phase = .granted → Moved s k c .failed t → Effect s k c t (.start now)
  | logged (ok : Bool) : c.phase = .logging false →
      t = (if ok then s.logOperation k c .pending 0 else s).goTo k c (.logging true) →
      Effect s k c t (.serve ok)
  | run (now : ℚ) : c.phase = .logging true → t = s.goTo k c .running →
      Effect s k c t (.proceed now)
  | returned (r : Value) (now : ℚ) : c.phase = .running →
      t = s.operationEnded k c (.returned r) now → Effect s k c t (.ended (.returned r) now)
  | raised (retryable : Bool) (now : ℚ) : c.phase = .running →
      t = s.operationEnded k c (.raised retryable) now →
      Effect s k c t (.ended (.raised retryable) now)
  | selfCancelled (now : ℚ) : c.phase = .running → Moved s k c .cancelled t →
      Effect s k c t (.ended .cancelled now)
  | markRead (r : Value) (ok : Bool) : c.phase = .markGet r none →
      t = s.goTo k c (.markGet r (some (if ok then s.wal.get? (c.entryId k) else none))) →
      Effect s k c t (.serve ok)
  | marking (r : Value) (entry : WalEntry) (now : ℚ) : c.phase = .markGet r (some (some entry)) →
      t = s.goTo k c (.markSet r { entry with state := .completed } false) →
      Effect s k c t (.proceed now)
  | markWritten (r : Value) (entry : WalEntry) (ok : Bool) : c.phase = .markSet r entry false →
      t = (if ok then { s with wal := s.wal.set (c.entryId k) entry } else s).goTo k c
        (.markSet r entry true) → Effect s k c t (.serve ok)
  | marked (r : Value) (now : ℚ) : c.phase = .markGet r (some none) ∨
        (∃ entry, c.phase = .markSet r entry true) →
      Moved s k c (if s.hasRedis && c.key.isSome then .storing r false else .returned r) t →
      Effect s k c t (.proceed now)
  | failureLogged (retryable ok : Bool) : c.phase = .logFailed retryable false →
      t = (if ok then s.logOperation k c .failed 1 else s).goTo k c (.logFailed retryable true) →
      Effect s k c t (.serve ok)
  | attemptOver (retryable : Bool) (y : Phase) (now : ℚ) : c.phase = .logFailed retryable true →
      y = .sleeping ∨ y = .failed → Moved s k c y t → Effect s k c t (.proceed now)
  | stored (r : Value) (ok : Bool) : c.phase = .storing r false →
      t = (if ok then s.storeResult c r else s).goTo k c (.storing r true) →
      Effect s k c t (.serve ok)
  | succeeded (r : Value) (now : ℚ) : c.phase = .storing r true → Moved s k c (.returned r) t →
      Effect s k c t (.proceed now)

theorem effect_of_serve {ok : Bool} {t : ToolSystem} (h : s.serve k c ok c.phase = some t) :
    Effect s k c t (.serve ok) := by
  unfold serve at h
  split at h
  · exact .looked ok ‹_› (Option.some.inj h).symm
  · exact .logged ok ‹_› (Option.some.inj h).symm
  · exact .markRead _ ok ‹_› (Option.some.inj h).symm
  · exact .markWritten _ _ ok ‹_› (Option.some.inj h).symm
  · exact .failureLogged _ ok ‹_› (Option.some.inj h).symm
  · exact .stored _ ok ‹_› (Option.some.inj h).symm
  · cases h

theorem effect_of_proceed {now : ℚ} {t : ToolSystem} (h : s.proceed k c now c.phase = some t) :
    Effect s k c t (.proceed now) := by
  unfold proceed at h
  split at h
  · obtain rfl := Option.some.inj h
    rename_i reply hx
    unfold checked
    split
    · split_ifs with hv
      · exact .hit _ now hx hv ((untouched_count s _).moved (moved_goTo _))
      · exact .missed _ now hx (by simpa using hv) rfl
    · exact .missed _ now hx (by simp) rfl
  · exact .run now ‹_› (Option.some.inj h).symm
  · exact .marking _ _ now ‹_› (Option.some.inj h).symm
  · obtain rfl := Option.some.inj h
    exact .marked _ now (Or.inl ‹_›) (moved_attemptsReturned _)
  · obtain rfl := Option.some.inj h
    exact .marked _ now (Or.inr ⟨_, ‹_›⟩) (moved_attemptsReturned _)
  · obtain rfl := Option.some.inj h
    obtain ⟨y, hy, hmoved⟩ := moved_attemptFailed (s := s) (k := k) (c := c) _ now
    exact .attemptOver _ y now ‹_› hy hmoved
  · obtain rfl := Option.some.inj h
    exact .succeeded _ now ‹_› (moved_succeed _)
  · cases h

theorem effect_of_act {a : ToolAction} {t : ToolSystem} (h : s.act k c a = some t) :
    Effect s k c t a := by
  cases a with
  | serve ok => exact effect_of_serve h
  | proceed now => exact effect_of_proceed h
  | acquire =>
    simp only [act] at h
    split at h
    · obtain rfl := Option.some.inj h
      unfold acquire
      split_ifs
      · exact .slot _ _ (Or.inl ‹_›) (Or.inl rfl)
          ((untouched_updateBulkhead s _).moved (moved_goTo _))
      · exact .slot _ _ (Or.inl ‹_›) (Or.inr (Or.inl rfl))
          ((untouched_updateBulkhead s _).moved (moved_goTo _))
    · cases h
  | wake =>
    simp only [act] at h
    split at h
    · split_ifs at h
      obtain rfl := Option.some.inj h
      exact .slot _ _ (Or.inr ‹_›) (Or.inr (Or.inl rfl))
        ((untouched_updateBulkhead s _).moved (moved_goTo _))
    · cases h
  | reject =>
    have hmoved : Moved s k c .rejected (s.reject k c) :=
      ((untouched_updateBulkhead s _).trans (untouched_count _ _)).moved (moved_goTo _)
    simp only [act] at h
    split at h
    · obtain rfl := Option.some.inj h
      exact .slot _ _ (Or.inl ‹_›) (Or.inr (Or.inr rfl)) hmoved
    · obtain rfl := Option.some.inj h
      exact .slot _ _ (Or.inr ‹_›) (Or.inr (Or.inr rfl)) hmoved
    · cases h
  | start now =>
    simp only [act] at h
    split at h
    · obtain rfl := Option.some.inj h
      have hset := untouched_setBreaker s (s.adapter.circuitBreaker.beginCall now).1
      unfold start
      dsimp only
      split_ifs
      · exact .attempt _ (Or.inl ‹_›) (hset.moved moved_beginAttempt)
      · exact .refused now ‹_› (hset.moved moved_fail)
    · cases h
  | ended how now =>
    simp only [act] at h
    split at h
    · obtain rfl := Option.some.inj h
      cases how with
      | returned r => exact .returned r now ‹_› rfl
      | raised retryable => exact .raised retryable now ‹_› rfl
      | cancelled => exact .selfCancelled now ‹_› (moved_leave _)
    · cases h
  | retry =>
    simp only [act] at h
    split at h
    · obtain rfl := Option.some.inj h
      exact .attempt _ (Or.inr ‹_›) moved_beginAttempt
    · cases h

end ToolSystem

/-- A new adapter over a log that earlier processes have left, and no executes. -/
def toolMachine (cfg : AdapterConfig) (wal : Dict EntryId WalEntry) :
    Machine ToolSystem ToolEvent where
  init :=
    { adapter :=
        { config := cfg
          circuitBreaker := { config := cfg.circuit }
          bulkhead := { semaphore := { value := cfg.maxConcurrent } } }
      wal := wal }
  step := ToolSystem.step

end ToolResilience

end MultiAgent
