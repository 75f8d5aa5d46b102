import Mathlib.Data.Rat.Init
import MultiAgent.Lib.ForLoop
import MultiAgent.Reliability.ToolAdapter

/-!
# Three retry loops

`RetryPolicy.execute`, `RetryAdapter.call` and `RetryManager.call_with_retry` call a function until
it returns, raises what is not retryable, or has used up its attempts. How long a loop waits does
not matter, but computing it may raise : a power of floats overflows. And the log lines of
`RetryAdapter` read `func.__name__`, which a callable need not have; the lines of the other two do
not.

`Agrees` says what all three should do : call the function up to the last attempt, which is the
first whose outcome is no retryable exception, or the last that is allowed, and end as it did.
-/

namespace MultiAgent

namespace Retries

open ForLoop
open BaseAdapter (RetryManager)

/-- How an awaited call of the function ends : it returns, raises an `Exception`, or raises a
`BaseException` that is none. -/
inductive Outcome (ε α : Type)
  | returned (v : α)
  | raised (e : ε)
  | interrupted (e : ε)

/-- What a retry loop raises : what the function raised, or an exception of its own. -/
inductive RetryError (ε : Type)
  | function (e : ε)
  | retryExhausted (text : String)
  | attributeError (name : String)
  | overflow
  | typeError
  | exception (text : String)

/-- A callable, with how its calls end in their order, and whether it has a `__name__`. -/
structure Func (ε α : Type) where
  outcomes : ℕ → Outcome ε α
  hasName : Bool := true

/-- The parameters of the loops that decide what they do. -/
structure RetryConfig (ε : Type) where
  maxAttempts : ℤ := 3
  calculateDelay : ℕ → Except (RetryError ε) ℚ

/-- How a loop ended : the number of calls that it made, its attributes, and what it returned or
raised. -/
structure Ended (σ ε α : Type) where
  calls : ℕ
  attributes : σ
  outcome : Except (RetryError ε) α

variable {ε α : Type}

/-- `func.__name__`, for a log line. -/
def Func.readName (func : Func ε α) : Except (RetryError ε) Unit :=
  if func.hasName then .ok () else .error (.attributeError "__name__")

/-! ## `RetryPolicy` -/

namespace RetryPolicy

variable (c : RetryConfig ε) (isRetryable : RetryError ε → Bool) (func : Func ε α)

/-- One attempt of `execute`. -/
def attempt (number calls : ℕ) : Ended Unit ε α ⊕ ℕ :=
  match func.outcomes calls with
  | .returned v => .inl ⟨calls + 1, (), .ok v⟩
  | .interrupted e => .inl ⟨calls + 1, (), .error (.function e)⟩
  | .raised e =>
    if isRetryable (.function e) = false then .inl ⟨calls + 1, (), .error (.function e)⟩
    else if c.maxAttempts ≤ number then
      .inl ⟨calls + 1, (), .error (.retryExhausted
        ("Retry exhausted after " ++ toString c.maxAttempts ++ " attempts"))⟩
    else
      match c.calculateDelay number with
      | .error x => .inl ⟨calls + 1, (), .error x⟩
      | .ok _ => .inr (calls + 1)

/-- `execute`. -/
def execute : Ended Unit ε α :=
  forLoop (attempt c isRetryable func)
    (fun calls => ⟨calls, (), .error (.retryExhausted "Retry policy exhausted")⟩)
    (List.range' 1 c.maxAttempts.toNat) 0

end RetryPolicy

/-! ## `RetryAdapter` -/

/-- `stats`. -/
structure RetryStats where
  totalCalls : ℕ := 0
  successfulCalls : ℕ := 0
  failedCalls : ℕ := 0
  retryAttempts : ℕ := 0
  totalRetryDelay : ℚ := 0

namespace RetryAdapter

variable (c : RetryConfig ε) (isRetryable : RetryError ε → Bool) (func : Func ε α)

/-- The calls so far, `stats`, and `last_exception`. -/
structure State (ε : Type) where
  calls : ℕ := 0
  stats : RetryStats
  lastException : Option (RetryError ε) := none

/-- `call` after its loop. -/
def fail (s : State ε) : Ended RetryStats ε α where
  calls := s.calls
  attributes := { s.stats with failedCalls := s.stats.failedCalls + 1 }
  outcome :=
    match s.lastException with
    | some e => .error e
    | none => .error .typeError

/-- The call ends in an exception of a handler or in one that no handler catches. -/
def leave (s : State ε) (x : RetryError ε) : Ended RetryStats ε α :=
  ⟨s.calls, s.stats, .error x⟩

/-- A log line, after which the loop is at `next`. -/
def log (s : State ε) (next : Ended RetryStats ε α ⊕ State ε) : Ended RetryStats ε α ⊕ State ε :=
  match func.readName with
  | .ok () => next
  | .error x => .inl (leave s x)

/-- `except Exception as e`. -/
def handle (number : ℕ) (e : RetryError ε) (s : State ε) : Ended RetryStats ε α ⊕ State ε :=
  let s := { s with lastException := some e }
  if isRetryable e = false then log func s (.inl (fail s))
  else if c.maxAttempts ≤ number then log func s (.inl (fail s))
  else
    match c.calculateDelay number with
    | .error x => .inl (leave s x)
    | .ok delay =>
      let s := { s with stats := { s.stats with
        retryAttempts := s.stats.retryAttempts + 1
        totalRetryDelay := s.stats.totalRetryDelay + delay } }
      log func s (.inr s)

/-- One attempt of `call`. -/
def attempt (number : ℕ) (s : State ε) : Ended RetryStats ε α ⊕ State ε :=
  let outcome := func.outcomes s.calls
  let s := { s with calls := s.calls + 1 }
  match outcome with
  | .returned v =>
    let s := { s with stats := { s.stats with successfulCalls := s.stats.successfulCalls + 1 } }
    if 1 < number then
      match func.readName with
      | .ok () => .inl ⟨s.calls, s.stats, .ok v⟩
      -- the line is inside the `try`
      | .error x => handle c isRetryable func number x s
    else .inl ⟨s.calls, s.stats, .ok v⟩
  | .interrupted e => .inl (leave s (.function e))
  | .raised e => handle c isRetryable func number (.function e) s

/-- `call`. -/
def call (stats : RetryStats) : Ended RetryStats ε α :=
  forLoop (attempt c isRetryable func) fail (List.range' 1 c.maxAttempts.toNat)
    { stats := { stats with totalCalls := stats.totalCalls + 1 } }

end RetryAdapter

/-! ## `RetryManager` -/

namespace RetryManager

variable (c : RetryConfig ε) (isRetryable : Option (RetryError ε → Bool)) (func : Func ε α)

/-- The calls so far, the attributes, and `last_exception`. -/
structure State (ε : Type) where
  calls : ℕ := 0
  manager : RetryManager
  lastException : Option (RetryError ε) := none

/-- `is_retryable and not is_retryable(e)`. -/
def refuses (e : RetryError ε) : Bool :=
  isRetryable.any fun retryable => !retryable e

/-- One attempt of `call_with_retry`. -/
def attempt (number : ℕ) (s : State ε) : Ended RetryManager ε α ⊕ State ε :=
  let outcome := func.outcomes s.calls
  let s := { s with calls := s.calls + 1 }
  match outcome with
  | .returned v =>
    let manager := if 0 < number then
      { s.manager with successfulRetries := s.manager.successfulRetries + 1 } else s.manager
    .inl ⟨s.calls, manager, .ok v⟩
  | .interrupted e => .inl ⟨s.calls, s.manager, .error (.function e)⟩
  | .raised e =>
    if refuses isRetryable (.function e) then .inl ⟨s.calls, s.manager, .error (.function e)⟩
    else if (number : ℤ) = c.maxAttempts - 1 then
      .inl ⟨s.calls, { s.manager with totalRetries := s.manager.totalRetries + number },
        .error (.function e)⟩
    else
      match c.calculateDelay number with
      | .error x => .inl ⟨s.calls, s.manager, .error x⟩
      | .ok _ => .inr { s with lastException := some (.function e) }

/-- `call_with_retry`. -/
def callWithRetry (manager : RetryManager) : Ended RetryManager ε α :=
  forLoop (attempt c isRetryable func)
    (fun s => ⟨s.calls, s.manager, .error (s.lastException.getD (.exception "Retry failed"))⟩)
    (List.range c.maxAttempts.toNat) { manager := manager }

end RetryManager

/-! ## What the loops should do -/

section Law

variable (isRetryable : RetryError ε → Bool) (maxAttempts : ℤ) (func : Func ε α)

/-- The outcome is a retryable exception. -/
def retries : Outcome ε α → Bool
  | .raised e => isRetryable (.function e)
  | _ => false

/-- Call number `p` from 0 is the last that a loop should make. -/
abbrev IsLastCall (p : ℕ) : Prop :=
  IsLast (fun i => retries isRetryable (func.outcomes i)) maxAttempts.toNat p

variable {σ : Type}

/-- The loop ended with call number `p` from 0, and as that call did : it returned its value, or
raised, and the same exception unless that was retryable. -/
structure EndsWith (p : ℕ) (r : Ended σ ε α) : Prop where
  calls : r.calls = p + 1
  returned : ∀ v, func.outcomes p = .returned v → r.outcome = .ok v
  interrupted : ∀ e, func.outcomes p = .interrupted e → r.outcome = .error (.function e)
  raised : ∀ e, func.outcomes p = .raised e → ∃ x, r.outcome = .error x ∧
    (isRetryable (.function e) = false → x = .function e)

/-- The loop ended with the last call that it should make. -/
def Agrees (r : Ended σ ε α) : Prop :=
  ∃ p, IsLastCall isRetryable maxAttempts func p ∧ EndsWith isRetryable func p r

/-- The delay after every call that should be repeated can be computed, where `first` is the
number of the first attempt. -/
def DelaysComputed (first : ℕ) (calculateDelay : ℕ → Except (RetryError ε) ℚ) : Prop :=
  ∀ i : ℕ, (i : ℤ) + 1 < maxAttempts → (∀ j ≤ i, retries isRetryable (func.outcomes j) = true) →
    ∃ delay, calculateDelay (i + first) = .ok delay

/-- The function has no name, and raises in its first call what is not retryable or is to be
retried. -/
def MissesName : Prop :=
  func.hasName = false ∧
    ∃ e, func.outcomes 0 = .raised e ∧ (isRetryable (.function e) = false ∨ 1 < maxAttempts)

/-- All three loops end with the last call that they should make, for one bound and one
classification. -/
def AllAgree (policyDelay adapterDelay managerDelay : ℕ → Except (RetryError ε) ℚ)
    (stats : RetryStats) (manager : RetryManager) : Prop :=
  Agrees isRetryable maxAttempts func
      (RetryPolicy.execute ⟨maxAttempts, policyDelay⟩ isRetryable func) ∧
    Agrees isRetryable maxAttempts func
      (RetryAdapter.call ⟨maxAttempts, adapterDelay⟩ isRetryable func stats) ∧
    Agrees isRetryable maxAttempts func
      (RetryManager.callWithRetry ⟨maxAttempts, managerDelay⟩ (some isRetryable) func manager)

end Law

end Retries

end MultiAgent
