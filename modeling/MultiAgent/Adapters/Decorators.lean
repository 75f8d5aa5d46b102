import MultiAgent.Adapters.CircuitBreaker
import MultiAgent.Adapters.RetryDecorator
import MultiAgent.Lib.Dict

/-!
# Decorated functions

Functions decorated with `retry` or `circuit_breaker` share two global managers. A call looks its
adapter or its breaker up by the name in its decorator, and makes one from its own parameters only
if there is none, so what is registered under a name are the parameters of the first function that
was called under it (`registered_of_run`). Nothing is ever taken out, so the breaker that a call
was admitted by is the one under its name when its function ends.

A call of a function is governed by the parameters of its decorator exactly if those that are
registered under its name decide as these : for `retry` after every attempt that can be reached,
for `circuit_breaker` at the count of failures that a failure makes (`governed_iff`).
-/

namespace MultiAgent

namespace Decorators

open Retries ServiceBreaker

variable {ε κ α : Type}

/-- `RetryAdapter`. -/
structure RetryAdapter (κ : Type) where
  parameters : RetryParameters κ
  stats : RetryStats := {}

/-- `retry_manager` and `circuit_breaker_manager`, and the calls that breakers have admitted and
that await their functions. -/
structure Managers (κ : Type) where
  adapters : Dict String (RetryAdapter κ) := Dict.empty
  breakers : Dict String CircuitBreaker := Dict.empty
  awaiting : List CircuitBreakerConfig := []

/-- A call of a function decorated with `retry`, or a step of a call of one decorated with
`circuit_breaker` : its start, or the end of the function of an awaiting call. A call with `retry`
reads its adapter once, at its start; the calls that its function makes are events of their own. -/
inductive DecoratedEvent (ε κ α : Type)
  | retry (p : RetryParameters κ) (func : Func ε α)
  | call (c : CircuitBreakerConfig) (now : ℚ)
  | succeed (i : ℕ)
  | fail (i : ℕ) (now : ℚ)
  | cancel (i : ℕ)

namespace Managers

variable (E : ExceptionTypes ε κ) (m : Managers κ)

/-- `RetryManager.get_adapter`. -/
def getAdapter (p : RetryParameters κ) : Managers κ × RetryAdapter κ :=
  match m.adapters.get? p.name with
  | some adapter => (m, adapter)
  | none =>
    ({ m with adapters := m.adapters.set p.name { parameters := p } }, { parameters := p })

/-- The wrapper of `retry`. -/
def retry (p : RetryParameters κ) (func : Func ε α) : Managers κ × Ended RetryStats ε α :=
  let (m, adapter) := m.getAdapter p
  let ended := adapter.parameters.call E func adapter.stats
  ({ m with adapters := m.adapters.set p.name { adapter with stats := ended.attributes } }, ended)

/-- The breaker of `CircuitBreakerManager.get_breaker`. -/
def getBreaker (c : CircuitBreakerConfig) : CircuitBreaker :=
  (m.breakers.get? c.name).getD { config := c }

/-- The breaker of the name is now this. -/
def setBreaker (c : CircuitBreakerConfig) (b : CircuitBreaker) : Managers κ :=
  { m with breakers := m.breakers.set c.name b }

/-- The wrapper of `circuit_breaker` up to `await func(...)`. -/
def beginCall (c : CircuitBreakerConfig) (now : ℚ) : Managers κ :=
  let r := (m.getBreaker c).beginCall now
  { m.setBreaker c r.1 with
    awaiting := if r.2 = none then m.awaiting ++ [c] else m.awaiting }

/-- The function of an awaiting call returned. -/
def succeed (i : ℕ) (c : CircuitBreakerConfig) : Managers κ :=
  { m.setBreaker c (m.getBreaker c).finishSuccess with awaiting := m.awaiting.eraseIdx i }

/-- The function of an awaiting call raised. -/
def fail (i : ℕ) (c : CircuitBreakerConfig) (now : ℚ) : Managers κ :=
  { m.setBreaker c ((m.getBreaker c).finishFailure now) with awaiting := m.awaiting.eraseIdx i }

/-- An awaiting call was cancelled. -/
def cancel (i : ℕ) : Managers κ :=
  { m with awaiting := m.awaiting.eraseIdx i }

/-- One step of the calls. -/
def step : DecoratedEvent ε κ α → Option (Managers κ)
  | .retry p func => some (m.retry E p func).1
  | .call c now => some (m.beginCall c now)
  | .succeed i => m.awaiting[i]?.map (m.succeed i)
  | .fail i now => m.awaiting[i]?.map fun c => m.fail i c now
  | .cancel i => m.awaiting[i]?.map fun _ => m.cancel i

@[simp] theorem getBreaker_setBreaker (c : CircuitBreakerConfig) (b : CircuitBreaker) :
    (m.setBreaker c b).getBreaker c = b := by
  unfold getBreaker setBreaker
  rw [Dict.get?_set_self]
  rfl

@[simp] theorem getBreaker_beginCall (c : CircuitBreakerConfig) (now : ℚ) :
    (m.beginCall c now).getBreaker c = ((m.getBreaker c).beginCall now).1 :=
  m.getBreaker_setBreaker c _

@[simp] theorem getBreaker_succeed (i : ℕ) (c : CircuitBreakerConfig) :
    (m.succeed i c).getBreaker c = (m.getBreaker c).finishSuccess :=
  m.getBreaker_setBreaker c _

@[simp] theorem getBreaker_fail (i : ℕ) (c : CircuitBreakerConfig) (now : ℚ) :
    (m.fail i c now).getBreaker c = (m.getBreaker c).finishFailure now :=
  m.getBreaker_setBreaker c _

end Managers

/-- New managers, and no calls. -/
def managersMachine (E : ExceptionTypes ε κ) : Machine (Managers κ) (DecoratedEvent ε κ α) where
  init := {}
  step m := m.step E

/-! ## What is registered -/

/-- The parameters that a call registers under a name, if there are none. -/
def retryUnder (name : String) : DecoratedEvent ε κ α → Option (RetryParameters κ)
  | .retry p _ => if p.name = name then some p else none
  | _ => none

/-- The parameters of a breaker that a call registers under a name, if there are none. -/
def breakerUnder (name : String) : DecoratedEvent ε κ α → Option CircuitBreakerConfig
  | .call c _ => if c.name = name then some c else none
  | _ => none

/-- Under a name are the parameters of the first call under it. -/
structure Registered (es : List (DecoratedEvent ε κ α)) (m : Managers κ) : Prop where
  adapters : ∀ name, (m.adapters.get? name).map RetryAdapter.parameters =
    es.findSome? (retryUnder name)
  breakers : ∀ name, (m.breakers.get? name).map CircuitBreaker.config =
    es.findSome? (breakerUnder name)
  awaiting : ∀ c ∈ m.awaiting, c.name ∈ m.breakers

section Step

variable {E : ExceptionTypes ε κ} {m : Managers κ} {es : List (DecoratedEvent ε κ α)}

theorem findSome?_snoc {β : Type} (f : DecoratedEvent ε κ α → Option β)
    (es : List (DecoratedEvent ε κ α)) (e : DecoratedEvent ε κ α) :
    (es ++ [e]).findSome? f = (es.findSome? f).or (f e) := by
  rw [List.findSome?_append, List.findSome?_cons, List.findSome?_nil]
  cases f e <;> rfl

/-- A call registers its parameters if there are none under its name. -/
theorem adapters_retry (p : RetryParameters κ) (func : Func ε α) (name : String) :
    ((m.retry E p func).1.adapters.get? name).map RetryAdapter.parameters =
      ((m.adapters.get? name).map RetryAdapter.parameters).or
        (if p.name = name then some p else none) := by
  unfold Managers.retry Managers.getAdapter
  by_cases hname : p.name = name
  · subst hname
    cases hget : m.adapters.get? p.name with
    | none => simp
    | some adapter => simp
  · cases hget : m.adapters.get? p.name with
    | none => simp [hname, Dict.get?_set_ne _ _ (Ne.symm hname)]
    | some adapter => simp [hname, Dict.get?_set_ne _ _ (Ne.symm hname)]

/-- A breaker that was taken from the manager is put back with its parameters. -/
theorem breakers_setBreaker {c : CircuitBreakerConfig} {b : CircuitBreaker}
    (hconfig : b.config = (m.getBreaker c).config) (name : String) :
    ((m.setBreaker c b).breakers.get? name).map CircuitBreaker.config =
      ((m.breakers.get? name).map CircuitBreaker.config).or
        (if c.name = name then some c else none) := by
  unfold Managers.setBreaker
  by_cases hname : c.name = name
  · subst hname
    unfold Managers.getBreaker at hconfig
    cases hget : m.breakers.get? c.name with
    | none => simp [hget, hconfig]
    | some breaker => simp [hget, hconfig]
  · simp [hname, Dict.get?_set_ne _ _ (Ne.symm hname)]

/-- What is under the name of a call in the manager stays. -/
theorem breakers_setBreaker_of_mem {c : CircuitBreakerConfig} {b : CircuitBreaker}
    (hconfig : b.config = (m.getBreaker c).config) (hmem : c.name ∈ m.breakers) (name : String) :
    ((m.setBreaker c b).breakers.get? name).map CircuitBreaker.config =
      (m.breakers.get? name).map CircuitBreaker.config := by
  rw [breakers_setBreaker hconfig]
  split_ifs with hname
  · obtain ⟨breaker, hget⟩ := Dict.mem_iff_get?.mp (hname ▸ hmem)
    rw [hget]
    rfl
  · exact Option.or_none

/-- A call of a function decorated with `retry` leaves the breakers alone. -/
theorem retry_frame (p : RetryParameters κ) (func : Func ε α) :
    (m.retry E p func).1.breakers = m.breakers ∧ (m.retry E p func).1.awaiting = m.awaiting := by
  unfold Managers.retry Managers.getAdapter
  cases m.adapters.get? p.name with
  | none => exact ⟨rfl, rfl⟩
  | some adapter => exact ⟨rfl, rfl⟩

/-- The end of an awaiting call registers nothing. -/
theorem Registered.finish {e : DecoratedEvent ε κ α} {i : ℕ} {c : CircuitBreakerConfig}
    {b : CircuitBreaker} (h : Registered es m) (hretry : ∀ name, retryUnder name e = none)
    (hbreaker : ∀ name, breakerUnder name e = none) (hc : m.awaiting[i]? = some c)
    (hconfig : b.config = (m.getBreaker c).config) :
    Registered (es ++ [e]) { m.setBreaker c b with awaiting := m.awaiting.eraseIdx i } where
  adapters name := by
    rw [findSome?_snoc, hretry, Option.or_none]
    exact h.adapters name
  breakers name := by
    rw [findSome?_snoc, hbreaker, Option.or_none, ← h.breakers]
    exact breakers_setBreaker_of_mem hconfig (h.awaiting c (List.mem_of_getElem? hc)) name
  awaiting c' hc' := by
    have hmem := h.awaiting c' (List.mem_of_mem_eraseIdx hc')
    exact Dict.mem_set.mpr (Or.inr hmem)

theorem Registered.step {e : DecoratedEvent ε κ α} {t : Managers κ} (h : Registered es m)
    (hst : m.step E e = some t) : Registered (es ++ [e]) t := by
  cases e with
  | retry p func =>
    cases hst
    obtain ⟨hbreakers, hawaiting⟩ := retry_frame (E := E) (m := m) p func
    refine ⟨fun name => ?_, fun name => ?_, ?_⟩
    · rw [adapters_retry, h.adapters, findSome?_snoc]
      rfl
    · rw [hbreakers, h.breakers, findSome?_snoc]
      exact Option.or_none.symm
    · rw [hbreakers, hawaiting]
      exact h.awaiting
  | call c now =>
    cases hst
    refine ⟨fun name => ?_, fun name => ?_, fun c' hc' => ?_⟩
    · rw [findSome?_snoc, ← h.adapters]
      exact Option.or_none.symm
    · rw [findSome?_snoc, ← h.breakers]
      exact breakers_setBreaker ((m.getBreaker c).beginCall_config now) name
    · refine Dict.mem_set.mpr ?_
      unfold Managers.beginCall at hc'
      dsimp only at hc'
      split_ifs at hc'
      · rcases List.mem_append.mp hc' with hold | hnew
        · exact Or.inr (h.awaiting c' hold)
        · exact Or.inl (congrArg _ (List.mem_singleton.mp hnew))
      · exact Or.inr (h.awaiting c' hc')
  | succeed i =>
    obtain ⟨c, hc, rfl⟩ := Option.map_eq_some_iff.mp hst
    exact h.finish (fun _ => rfl) (fun _ => rfl) hc (m.getBreaker c).finishSuccess_config
  | fail i now =>
    obtain ⟨c, hc, rfl⟩ := Option.map_eq_some_iff.mp hst
    exact h.finish (fun _ => rfl) (fun _ => rfl) hc ((m.getBreaker c).finishFailure_config now)
  | cancel i =>
    obtain ⟨c, hc, rfl⟩ := Option.map_eq_some_iff.mp hst
    refine ⟨fun name => ?_, fun name => ?_, fun c' hc' => ?_⟩
    · rw [findSome?_snoc, ← h.adapters]
      exact Option.or_none.symm
    · rw [findSome?_snoc, ← h.breakers]
      exact Option.or_none.symm
    · exact h.awaiting c' (List.mem_of_mem_eraseIdx hc')

theorem registered_of_run {ok : Managers κ → DecoratedEvent ε κ α → Prop}
    (h : (managersMachine E).Run ok es m) : Registered es m := by
  induction h with
  | nil => exact ⟨fun _ => rfl, fun _ => rfl, fun _ hc => absurd hc List.not_mem_nil⟩
  | snoc _ _ hst ih => exact ih.step hst

/-- A call with `retry` runs with the parameters of the first call under its name, or its own. -/
theorem Registered.getAdapter (h : Registered es m) (p : RetryParameters κ) :
    (m.getAdapter p).2.parameters = (es.findSome? (retryUnder p.name)).getD p := by
  rw [← h.adapters]
  unfold Managers.getAdapter
  cases m.adapters.get? p.name <;> rfl

/-- A call with `circuit_breaker` runs with the parameters of the first call under its name, or
its own. -/
theorem Registered.getBreaker (h : Registered es m) (c : CircuitBreakerConfig) :
    (m.getBreaker c).config = (es.findSome? (breakerUnder c.name)).getD c := by
  rw [← h.breakers]
  unfold Managers.getBreaker
  cases m.breakers.get? c.name <;> rfl

end Step

/-! ## Which parameters govern a call -/

section Governed

variable (E : ExceptionTypes ε κ) (m : Managers κ)

/-- The step of a call is governed by the parameters of its decorator : a call with `retry` makes
its attempts by them whatever the function does, and a breaker opens just when a failure reaches
the threshold of the function that failed. -/
def Governed : DecoratedEvent ε κ α → Prop
  | .retry p _ => ∀ func : Func ε α, GovernedBy E p func (m.retry E p func).2
  | .call c now => ((m.beginCall c now).getBreaker c).state = .opened →
      (m.getBreaker c).state = .opened
  | .succeed i => ∀ c, m.awaiting[i]? = some c →
      ((m.succeed i c).getBreaker c).state ≠ .opened
  | .fail i now => ∀ c, m.awaiting[i]? = some c →
      (((m.fail i c now).getBreaker c).state = .opened ↔
        (m.getBreaker c).state = .opened ∨
          c.failureThreshold ≤ ((m.fail i c now).getBreaker c).failureCount)
  | .cancel i => (m.cancel i).breakers = m.breakers

/-- What is registered decides as the parameters of the decorator. -/
def OwnParameters : DecoratedEvent ε κ α → Prop
  | .retry p _ => DecidesAs E p (m.getAdapter p).2.parameters
  | .fail i _ => ∀ c, m.awaiting[i]? = some c → (m.getBreaker c).state ≠ .opened →
      ((m.getBreaker c).config.failureThreshold ≤ ↑((m.getBreaker c).failureCount + 1) ↔
        c.failureThreshold ≤ ↑((m.getBreaker c).failureCount + 1))
  | _ => True

variable {m}

theorem governed_fail_iff (i : ℕ) (c : CircuitBreakerConfig) (now : ℚ) :
    (((m.fail i c now).getBreaker c).state = .opened ↔
        (m.getBreaker c).state = .opened ∨
          c.failureThreshold ≤ ((m.fail i c now).getBreaker c).failureCount) ↔
      ((m.getBreaker c).state ≠ .opened →
        ((m.getBreaker c).config.failureThreshold ≤ ↑((m.getBreaker c).failureCount + 1) ↔
          c.failureThreshold ≤ ↑((m.getBreaker c).failureCount + 1))) := by
  obtain ⟨hcount, -, -, -, hstate⟩ := (m.getBreaker c).finishFailure_cases now
  rw [Managers.getBreaker_fail, hcount]
  rcases hstate with ⟨hreached, hopened⟩ | ⟨hbelow, hsame⟩
  · simp only [hopened, hreached, true_iff]
    exact or_iff_not_imp_left
  · rw [hsame]
    by_cases hopen : (m.getBreaker c).state = .opened
    · simp [hopen]
    · simp only [hopen, hbelow, false_or, ne_eq, not_false_eq_true, forall_const]

theorem governed_step_iff [Inhabited α] (e : DecoratedEvent ε κ α) :
    Governed E m e ↔ OwnParameters E m e := by
  cases e with
  | retry p func =>
    have hended : ∀ func : Func ε α, (m.retry E p func).2 =
        (m.getAdapter p).2.parameters.call E func (m.getAdapter p).2.stats := fun _ => rfl
    unfold Governed OwnParameters
    dsimp only
    simp only [hended]
    exact governedBy_iff E p _ _
  | call c now =>
    refine iff_of_true (fun hopen => ?_) trivial
    rw [Managers.getBreaker_beginCall] at hopen
    exact ((m.getBreaker c).opened_of_beginCall now hopen).1
  | succeed i =>
    refine iff_of_true (fun c _ => ?_) trivial
    rw [Managers.getBreaker_succeed, CircuitBreaker.finishSuccess_state]
    exact fun h => by cases h
  | fail i now => exact forall_congr' fun c => forall_congr' fun _ => governed_fail_iff i c now
  | cancel i => exact iff_of_true rfl trivial

end Governed

/-- Exceptions that are named by their types. -/
def namedTypes : ExceptionTypes String String where
  isinstance e type :=
    type = "Exception" ||
      match e with
      | .function name => name = type
      | _ => false
  exception := "Exception"

/-- Parameters with this many attempts, and the defaults. -/
def withAttempts (maxAttempts : ℤ) : RetryParameters String where
  maxAttempts := maxAttempts
  calculateDelay _ := some 1

/-- A function that always raises. -/
def unavailable : Func String Unit where
  outcomes _ := .raised "ConnectionError"

end Decorators

end MultiAgent
