import Mathlib.Data.Rat.Init
import MultiAgent.Lib.Permits
import MultiAgent.Reliability.CircuitBreaker

/-!
# The bulkhead of the resilient adapter

`ResilientAdapter` of `libs/adapters/resilient_adapter.py`. `execute` asks the breaker,
waits one second at most for a permit of the bulkhead, runs the function in a loop of
attempts with a timeout each, and gives the permit back in a `finally`.

`adapterMachine` interleaves any number of calls. `wait_for` runs `acquire` as a task of
its own : a call is `requested` until that task starts, `waiting` in the queue of the
semaphore, and `granted` when the task has ended with a permit and the call has not gone
on yet. A cancellation that comes so late is swallowed by `wait_for`, and the call goes on
with the permit. An attempt is `running` until the function has ended, also when its
timeout passed or the call was cancelled, since `wait_for` waits for the end of the
function that it cancels; how it ended is part of the event.

The durations of the sleeps and timeouts are left out : every wait may end at any time.
-/

namespace MultiAgent

namespace ResilientAdapter

open BaseAdapter (CircuitState)
open Semaphore (Stage Balances)

/-- The parameters of `ResilientAdapter` that decide what it does. Times are in seconds. -/
structure AdapterConfig where
  name : String := "adapter"
  maxRetries : ℤ := 3
  failureThreshold : ℤ := 5
  recoveryTimeout : ℚ := 60
  bulkheadSize : ℕ := 10

/-- `stats`. -/
structure AdapterStats where
  totalRequests : ℕ := 0
  successfulRequests : ℕ := 0
  failedRequests : ℕ := 0
  timeoutRequests : ℕ := 0
  circuitBreakerOpen : ℕ := 0
  retryAttempts : ℕ := 0
  bulkheadRejections : ℕ := 0

/-- The attributes of `ResilientAdapter`. A task at the semaphore is named by the number of
its call. -/
structure Adapter where
  config : AdapterConfig
  circuitState : CircuitState := .closed
  failureCount : ℕ := 0
  lastFailureTime : ℚ := 0
  nextAttemptTime : ℚ := 0
  bulkheadSemaphore : Semaphore ℕ
  stats : AdapterStats := {}

namespace Adapter

variable (a : Adapter)

/-- `_is_circuit_breaker_closed`. -/
def isCircuitBreakerClosed (now : ℚ) : Adapter × Bool :=
  match a.circuitState with
  | .closed => (a, true)
  | .opened =>
    if a.nextAttemptTime ≤ now then ({ a with circuitState := .halfOpen }, true) else (a, false)
  | .halfOpen => (a, true)

/-- `_record_success`. -/
def recordSuccess : Adapter :=
  match a.circuitState with
  | .halfOpen => { a with circuitState := .closed, failureCount := 0 }
  | .closed => { a with failureCount := a.failureCount - 1 }
  | .opened => a

/-- Open the breaker until the recovery timeout has passed. -/
def openUntil (now : ℚ) : Adapter :=
  { a with circuitState := .opened, nextAttemptTime := now + a.config.recoveryTimeout }

/-- `_record_failure`. -/
def recordFailure (now : ℚ) : Adapter :=
  let a := { a with failureCount := a.failureCount + 1, lastFailureTime := now }
  match a.circuitState with
  | .closed => if a.config.failureThreshold ≤ a.failureCount then a.openUntil now else a
  | .halfOpen => a.openUntil now
  | .opened => a

theorem isCircuitBreakerClosed_semaphore (now : ℚ) :
    (a.isCircuitBreakerClosed now).1.bulkheadSemaphore = a.bulkheadSemaphore := by
  unfold isCircuitBreakerClosed
  split
  · rfl
  · split_ifs <;> rfl
  · rfl

theorem recordSuccess_semaphore : a.recordSuccess.bulkheadSemaphore = a.bulkheadSemaphore := by
  unfold recordSuccess
  split <;> rfl

theorem recordFailure_semaphore (now : ℚ) :
    (a.recordFailure now).bulkheadSemaphore = a.bulkheadSemaphore := by
  unfold recordFailure openUntil
  dsimp only
  split
  · split_ifs <;> rfl
  · rfl
  · rfl

end Adapter

/-! ## Interleaved calls -/

/-- How a call of `execute` ended : it returned, or raised. `noAttempt` is the `TypeError`
of `raise last_exception` after a loop of no attempts. -/
inductive CallEnd
  | returned
  | circuitBreakerOpen (text : String)
  | bulkheadReject (text : String)
  | functionError
  | timeoutError
  | noAttempt
  | cancelled
  deriving DecidableEq, Repr

/-- Where a call is. `sleeping n` is the pause after attempt `n` failed. -/
inductive AdapterCall
  | requested
  | waiting
  | granted
  | running (attempt : ℕ)
  | sleeping (attempt : ℕ)
  | finished (result : CallEnd)
  deriving DecidableEq, Repr

/-- The call took a permit and has not given it back. -/
def AdapterCall.inside : AdapterCall → Bool
  | .granted => true
  | .running _ => true
  | .sleeping _ => true
  | _ => false

@[simp] theorem AdapterCall.inside_finished (result : CallEnd) :
    (AdapterCall.finished result).inside = false := rfl

/-- Where the call is at the semaphore. -/
def AdapterCall.stage (x : AdapterCall) : Stage :=
  if x = .waiting then .waiting else if x.inside then .inside else .outside

@[simp] theorem AdapterCall.stage_eq_waiting {x : AdapterCall} :
    x.stage = .waiting ↔ x = .waiting := by
  cases x <;> simp [stage, inside]

@[simp] theorem AdapterCall.stage_eq_inside {x : AdapterCall} :
    x.stage = .inside ↔ x.inside = true := by
  cases x <;> simp [stage, inside]

/-- The function of the call runs. -/
def AdapterCall.runs : AdapterCall → Bool
  | .running _ => true
  | _ => false

/-- How an awaited function ended. -/
inductive FuncEnd
  | returned
  | raised
  | timedOut
  | cancelled
  deriving DecidableEq, Repr

/-- What a call does next : its `acquire` starts, goes on after it was woken, or is given
up after a second; the call enters its loop; its function ends; its sleep is over; it is
cancelled while it waits or sleeps. -/
inductive AdapterAction
  | acquire
  | wake
  | reject
  | start (now : ℚ)
  | ended (how : FuncEnd) (now : ℚ)
  | retry
  | cancel
  deriving DecidableEq

/-- A new call, or a step of the `k`-th one. -/
inductive AdapterEvent
  | call (now : ℚ)
  | act (k : ℕ) (action : AdapterAction)
  deriving DecidableEq

/-- The adapter and its calls, in the order in which they came. -/
structure AdapterSystem where
  adapter : Adapter
  calls : List AdapterCall := []

namespace AdapterSystem

variable (s : AdapterSystem)

/-- The semaphore of the bulkhead. -/
abbrev semaphore : Semaphore ℕ :=
  s.adapter.bulkheadSemaphore

/-- The `k`-th call goes on, with the semaphore `sem`. -/
def move (k : ℕ) (x : AdapterCall) (sem : Semaphore ℕ) : AdapterSystem :=
  { adapter := { s.adapter with bulkheadSemaphore := sem }, calls := s.calls.set k x }

/-- Count in the statistics. -/
def count (f : AdapterStats → AdapterStats) : AdapterSystem :=
  { s with adapter := { s.adapter with stats := f s.adapter.stats } }

/-- `execute` up to its first suspension. -/
def beginCall (now : ℚ) : AdapterSystem :=
  let s := s.count fun t => { t with totalRequests := t.totalRequests + 1 }
  let r := s.adapter.isCircuitBreakerClosed now
  let s := { s with adapter := r.1 }
  if r.2 then { s with calls := s.calls ++ [.requested] }
  else
    let s := s.count fun t => { t with circuitBreakerOpen := t.circuitBreakerOpen + 1 }
    { s with calls := s.calls ++ [.finished (.circuitBreakerOpen
        ("Circuit breaker is open for " ++ s.adapter.config.name))] }

/-- `acquire` of the `k`-th call starts. -/
def acquire (k : ℕ) : AdapterSystem :=
  if s.semaphore.locked then s.move k .waiting (s.semaphore.wait k)
  else s.move k .granted s.semaphore.take

/-- The second is over, and `acquire` of the `k`-th call is cancelled. -/
def reject (k : ℕ) : AdapterSystem :=
  (s.count fun t => { t with bulkheadRejections := t.bulkheadRejections + 1 }).move k
    (.finished (.bulkheadReject ("Bulkhead is full for " ++ s.adapter.config.name)))
    (s.semaphore.abandon k)

/-- The `finally` of `execute`, after which the call ends. -/
def leave (k : ℕ) (result : CallEnd) : AdapterSystem :=
  s.move k (.finished result) s.semaphore.release

/-- `execute` after the loop returned. -/
def succeed (k : ℕ) : AdapterSystem :=
  (({ s with adapter := s.adapter.recordSuccess } : AdapterSystem).count fun t =>
    { t with successfulRequests := t.successfulRequests + 1 }).leave k .returned

/-- `execute` after the loop raised an `Exception`. -/
def fail (k : ℕ) (error : CallEnd) (now : ℚ) : AdapterSystem :=
  (({ s with adapter := s.adapter.recordFailure now } : AdapterSystem).count fun t =>
    { t with failedRequests := t.failedRequests + 1 }).leave k error

/-- Attempt `n` failed : sleep before the next one, or raise after the last. -/
def attemptFailed (k n : ℕ) (error : CallEnd) (now : ℚ) : AdapterSystem :=
  if (n : ℤ) < s.adapter.config.maxRetries then
    (s.count fun t => { t with retryAttempts := t.retryAttempts + 1 }).move k (.sleeping n)
      s.semaphore
  else s.fail k error now

/-- The function of attempt `n` ended. -/
def ended (k n : ℕ) (how : FuncEnd) (now : ℚ) : AdapterSystem :=
  match how with
  | .returned => s.succeed k
  | .raised => s.attemptFailed k n .functionError now
  | .timedOut =>
    (s.count fun t => { t with timeoutRequests := t.timeoutRequests + 1 }).attemptFailed k n
      .timeoutError now
  | .cancelled => s.leave k .cancelled

/-- The loop `for attempt in range(max_retries + 1)` begins. -/
def start (k : ℕ) (now : ℚ) : AdapterSystem :=
  if 0 ≤ s.adapter.config.maxRetries then s.move k (.running 0) s.semaphore
  else s.fail k .noAttempt now

/-- A step of the `k`-th call, which is at `x`. -/
def act (k : ℕ) (x : AdapterCall) : AdapterAction → Option AdapterSystem
  | .acquire => if x = .requested then some (s.acquire k) else none
  | .wake =>
    if x = .waiting ∧ s.semaphore.woken k = true then
      some (s.move k .granted (s.semaphore.resume k))
    else none
  | .reject => if x = .requested ∨ x = .waiting then some (s.reject k) else none
  | .start now => if x = .granted then some (s.start k now) else none
  | .ended how now =>
    match x with
    | .running n => some (s.ended k n how now)
    | _ => none
  | .retry =>
    match x with
    | .sleeping n => some (s.move k (.running (n + 1)) s.semaphore)
    | _ => none
  | .cancel =>
    match x with
    | .requested => some (s.move k (.finished .cancelled) (s.semaphore.abandon k))
    | .waiting => some (s.move k (.finished .cancelled) (s.semaphore.abandon k))
    | .sleeping _ => some (s.leave k .cancelled)
    | _ => none

/-- One step of the calls. -/
def step : AdapterEvent → Option AdapterSystem
  | .call now => some (s.beginCall now)
  | .act k action =>
    match s.calls[k]? with
    | some x => s.act k x action
    | none => none

end AdapterSystem

/-- A new adapter and no calls. -/
def adapterMachine (cfg : AdapterConfig) : Machine AdapterSystem AdapterEvent where
  init := { adapter := { config := cfg, bulkheadSemaphore := { value := cfg.bulkheadSize } } }
  step := AdapterSystem.step

/-! ## The balance of the permits -/

namespace AdapterSystem

/-- The calls that hold a permit : they went on with it, or it was handed to them while
they waited. -/
def holds (s : AdapterSystem) (k : ℕ) : Bool :=
  match s.calls[k]? with
  | some .waiting => s.semaphore.woken k
  | some x => x.inside
  | none => false

/-- The numbers of the calls that hold a permit. -/
def holders (s : AdapterSystem) : List ℕ :=
  (List.range s.calls.length).filter s.holds

/-- The number of functions that run. -/
def running (s : AdapterSystem) : ℕ :=
  s.calls.countP AdapterCall.runs

end AdapterSystem

/-- The permits that no call has gone on with and the calls inside make up the bulkhead,
and the queue of the semaphore is the calls that wait. -/
structure Balanced (cfg : AdapterConfig) (s : AdapterSystem) : Prop where
  total : s.semaphore.permits + s.calls.countP AdapterCall.inside = cfg.bulkheadSize
  queue : ∀ k, k ∈ s.semaphore.waiters ↔ s.calls[k]? = some .waiting

variable {cfg : AdapterConfig} {s : AdapterSystem} {k : ℕ} {x : AdapterCall}

/-- The calls are parties at the semaphore. -/
theorem balanced_iff :
    Balanced cfg s ↔ Balances AdapterCall.stage cfg.bulkheadSize s.semaphore s.calls := by
  have hqueue (k : ℕ) : (s.calls[k]?).any (fun x => x.stage = .waiting) = true ↔
      s.calls[k]? = some .waiting := by
    simp [Option.any_eq_true]
  constructor
  · intro h
    exact ⟨by simpa using h.total, fun k => (h.queue k).trans (hqueue k).symm⟩
  · intro h
    exact ⟨by simpa using h.total, fun k => (h.queue k).trans (hqueue k)⟩

namespace Balanced

theorem balances (h : Balanced cfg s) :
    Balances AdapterCall.stage cfg.bulkheadSize s.semaphore s.calls :=
  balanced_iff.1 h

theorem of_balances (h : Balances AdapterCall.stage cfg.bulkheadSize s.semaphore s.calls) :
    Balanced cfg s :=
  balanced_iff.2 h

/-- The attributes beside the semaphore do not matter. -/
theorem congr (h : Balanced cfg s) {a : Adapter}
    (ha : a.bulkheadSemaphore = s.adapter.bulkheadSemaphore) :
    Balanced cfg { s with adapter := a } where
  total := by
    have htotal := h.total
    simp only [AdapterSystem.semaphore] at htotal ⊢
    rw [ha]
    exact htotal
  queue j := by
    have hqueue := h.queue j
    simp only [AdapterSystem.semaphore] at hqueue ⊢
    rw [ha]
    exact hqueue

theorem count (h : Balanced cfg s) (f : AdapterStats → AdapterStats) :
    Balanced cfg (s.count f) :=
  h.congr rfl

theorem beginCall (h : Balanced cfg s) (now : ℚ) : Balanced cfg (s.beginCall now) := by
  have hasked := (h.count fun t => { t with totalRequests := t.totalRequests + 1 }).congr
    (Adapter.isCircuitBreakerClosed_semaphore _ now)
  unfold AdapterSystem.beginCall
  dsimp only
  split_ifs
  · exact of_balances (hasked.balances.add rfl)
  · exact of_balances ((hasked.count _).balances.add rfl)

theorem acquire (h : Balanced cfg s) (hk : s.calls[k]? = some .requested) :
    Balanced cfg (s.acquire k) := by
  unfold AdapterSystem.acquire
  split_ifs with hlocked
  · exact of_balances (h.balances.wait hk rfl rfl)
  · exact of_balances (h.balances.take hk rfl rfl (by simpa using hlocked))

/-- A call that does not hold a permit leaves the queue, if it is in it. -/
theorem abandon (h : Balanced cfg s) (hk : s.calls[k]? = some x) (hx : x.inside = false)
    (result : CallEnd) :
    Balanced cfg (s.move k (.finished result) (s.semaphore.abandon k)) := by
  have hstage : x.stage ≠ .inside := by simp [hx]
  exact of_balances (h.balances.abandon hk hstage rfl)

theorem leave (h : Balanced cfg s) (hk : s.calls[k]? = some x) (hx : x.inside = true)
    (result : CallEnd) : Balanced cfg (s.leave k result) :=
  of_balances (h.balances.release hk (AdapterCall.stage_eq_inside.2 hx) rfl)

/-- A call that holds a permit keeps it. -/
theorem stay (h : Balanced cfg s) (hk : s.calls[k]? = some x) (hx : x.inside = true)
    {y : AdapterCall} (hy : y.inside = true) : Balanced cfg (s.move k y s.semaphore) := by
  have hstage : y.stage = x.stage :=
    (AdapterCall.stage_eq_inside.2 hy).trans (AdapterCall.stage_eq_inside.2 hx).symm
  exact of_balances (h.balances.stay hk hstage)

theorem fail (h : Balanced cfg s) (hk : s.calls[k]? = some x) (hx : x.inside = true)
    (error : CallEnd) (now : ℚ) : Balanced cfg (s.fail k error now) :=
  ((h.congr (s.adapter.recordFailure_semaphore now)).count _).leave hk hx error

theorem attemptFailed (h : Balanced cfg s) (hk : s.calls[k]? = some x) (hx : x.inside = true)
    (n : ℕ) (error : CallEnd) (now : ℚ) : Balanced cfg (s.attemptFailed k n error now) := by
  unfold AdapterSystem.attemptFailed
  split_ifs
  · exact (h.count _).stay hk hx rfl
  · exact h.fail hk hx error now

theorem ended (h : Balanced cfg s) {n : ℕ} (hk : s.calls[k]? = some (.running n))
    (how : FuncEnd) (now : ℚ) : Balanced cfg (s.ended k n how now) := by
  cases how with
  | returned => exact ((h.congr s.adapter.recordSuccess_semaphore).count _).leave hk rfl _
  | raised => exact h.attemptFailed hk rfl n _ now
  | timedOut => exact (h.count _).attemptFailed hk rfl n _ now
  | cancelled => exact h.leave hk rfl _

theorem start (h : Balanced cfg s) (hk : s.calls[k]? = some .granted) (now : ℚ) :
    Balanced cfg (s.start k now) := by
  unfold AdapterSystem.start
  split_ifs
  · exact h.stay hk rfl rfl
  · exact h.fail hk rfl _ now

theorem wake (h : Balanced cfg s) (hk : s.calls[k]? = some .waiting)
    (hw : s.semaphore.woken k = true) :
    Balanced cfg (s.move k .granted (s.semaphore.resume k)) :=
  of_balances (h.balances.resume hk rfl rfl hw)

theorem act (h : Balanced cfg s) (hk : s.calls[k]? = some x) {action : AdapterAction}
    {t : AdapterSystem} (hst : s.act k x action = some t) : Balanced cfg t := by
  cases action with
  | acquire =>
    simp only [AdapterSystem.act] at hst
    split_ifs at hst with hx
    subst hx
    obtain rfl := Option.some.inj hst
    exact h.acquire hk
  | wake =>
    simp only [AdapterSystem.act] at hst
    split_ifs at hst with hx
    obtain ⟨rfl, hw⟩ := hx
    obtain rfl := Option.some.inj hst
    exact h.wake hk hw
  | reject =>
    simp only [AdapterSystem.act] at hst
    split_ifs at hst with hx
    obtain rfl := Option.some.inj hst
    exact (h.count _).abandon hk (by rcases hx with rfl | rfl <;> rfl) _
  | start now =>
    simp only [AdapterSystem.act] at hst
    split_ifs at hst with hx
    subst hx
    obtain rfl := Option.some.inj hst
    exact h.start hk now
  | ended how now =>
    cases x <;> simp only [AdapterSystem.act, reduceCtorEq] at hst
    obtain rfl := Option.some.inj hst
    exact h.ended hk how now
  | retry =>
    cases x <;> simp only [AdapterSystem.act, reduceCtorEq] at hst
    obtain rfl := Option.some.inj hst
    exact h.stay hk rfl rfl
  | cancel =>
    cases x <;> simp only [AdapterSystem.act, reduceCtorEq] at hst <;>
      obtain rfl := Option.some.inj hst
    · exact h.abandon hk rfl _
    · exact h.abandon hk rfl _
    · exact h.leave hk rfl _

theorem step (h : Balanced cfg s) {e : AdapterEvent} {t : AdapterSystem}
    (hst : s.step e = some t) : Balanced cfg t := by
  cases e with
  | call now =>
    obtain rfl := Option.some.inj hst
    exact h.beginCall now
  | act k action =>
    simp only [AdapterSystem.step] at hst
    split at hst
    · exact h.act ‹_› hst
    · cases hst

/-- The calls that hold a permit are those inside and the woken ones in the queue. -/
theorem length_holders (h : Balanced cfg s) :
    s.holders.length = s.calls.countP AdapterCall.inside + s.semaphore.handed := by
  have hcover : ∀ k ∈ s.semaphore.waiters, k ∈ List.range s.calls.length := by
    intro k hk
    exact List.mem_range.mpr (List.getElem?_eq_some_iff.mp ((h.queue k).mp hk)).1
  rw [← s.semaphore.countP_woken List.nodup_range hcover, ← countP_range_getElem?,
    AdapterSystem.holders, ← List.countP_eq_length_filter]
  refine countP_add_of_disjoint fun k _ => ?_
  have hwoken : s.semaphore.woken k = true → s.calls[k]? = some .waiting := by
    intro hw
    obtain ⟨b, hget, -⟩ := (Option.any_eq_true _ _).mp hw
    exact (h.queue k).mp (Dict.mem_of_get? hget)
  unfold AdapterSystem.holds
  split
  · rename_i hk
    simp [hk, AdapterCall.inside]
  · rename_i x hne hk
    have hasleep : s.semaphore.woken k = false := by
      rw [← Bool.not_eq_true]
      exact fun hw => hne (Option.some.inj (hk.symm.trans (hwoken hw)))
    simp [hk, hasleep]
  · rename_i hk
    have hasleep : s.semaphore.woken k = false := by
      rw [← Bool.not_eq_true]
      intro hw
      simp [hwoken hw] at hk
    simp [hk, hasleep]

end Balanced

theorem balanced_of_reachable {cfg : AdapterConfig} {s : AdapterSystem}
    (h : (adapterMachine cfg).Reachable s) : Balanced cfg s := by
  obtain ⟨es, hrun⟩ := h
  exact hrun.invariant (.of_balances (.init _ _)) fun _ _ _ hs _ hst => hs.step hst

end ResilientAdapter

end MultiAgent
