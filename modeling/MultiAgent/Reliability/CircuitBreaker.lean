import Mathlib.Data.Int.Notation
import MultiAgent.Lib.Machine

/-!
# The circuit breaker of the tool adapters

`CircuitBreaker.call` of `libs/reliability/base_adapter.py` runs in two parts, since
it suspends once, at `await func()`. `beginCall` is the part before (reset to
half-open, admission of probes), `onSuccess` and `onFailure` are what runs after. A
cancelled call runs neither : `CancelledError` is not an `Exception`.

`breakerMachine` interleaves any number of calls. Beside the breaker it records, for
each call in flight, the half-open period it was admitted in, and counts the
successes of the calls admitted in the current one (`wins`).

The breaker keeps one `success_count` for all periods. Nothing resets it when a
period begins or ends in a failure, and a call admitted before the breaker opened
adds to it as well (`not_closesAfterProbes`). `closesAfterProbes` : the law holds in every
run that begins its periods with the count at zero, and in which only calls admitted
in the current period succeed while the breaker is half-open.
-/

namespace MultiAgent

namespace BaseAdapter

/-- `CircuitState`. -/
inductive CircuitState
  | closed
  | opened
  | halfOpen
  deriving DecidableEq, Repr

/-- `CircuitBreakerConfig`, with the defaults of the source. -/
structure CircuitBreakerConfig where
  failureThreshold : ℤ := 5
  successThreshold : ℤ := 3
  timeoutMs : ℤ := 60000
  halfOpenMaxCalls : ℤ := 3

/-- The attributes of `CircuitBreaker`. Times are in microseconds. -/
structure CircuitBreaker where
  config : CircuitBreakerConfig
  state : CircuitState := .closed
  failureCount : ℕ := 0
  successCount : ℕ := 0
  lastFailureTime : Option ℤ := none
  halfOpenCalls : ℕ := 0

namespace CircuitBreaker

variable (b : CircuitBreaker)

/-- `_should_attempt_reset`. -/
def shouldAttemptReset (now : ℤ) : Bool :=
  match b.lastFailureTime with
  | none => true
  | some t => decide (b.config.timeoutMs * 1000 ≤ now - t)

/-- The second test of `call` : let a probe through, or raise. -/
def tryProbe : CircuitBreaker × Option String :=
  if b.state = .halfOpen then
    if b.config.halfOpenMaxCalls ≤ b.halfOpenCalls then
      (b, some "Circuit breaker half-open call limit exceeded")
    else ({ b with halfOpenCalls := b.halfOpenCalls + 1 }, none)
  else (b, none)

/-- `call` up to `await func()` : the breaker afterwards, and the exception if any. -/
def beginCall (now : ℤ) : CircuitBreaker × Option String :=
  if b.state = .opened then
    if b.shouldAttemptReset now then
      tryProbe { b with state := .halfOpen, halfOpenCalls := 0 }
    else (b, some "Circuit breaker is OPEN")
  else b.tryProbe

/-- `_on_success`. -/
def onSuccess : CircuitBreaker :=
  let b := { b with failureCount := 0 }
  if b.state = .halfOpen then
    let b := { b with successCount := b.successCount + 1 }
    if b.config.successThreshold ≤ b.successCount then
      { b with state := .closed, successCount := 0 }
    else b
  else b

/-- `_on_failure`. -/
def onFailure (now : ℤ) : CircuitBreaker :=
  let b := { b with failureCount := b.failureCount + 1, lastFailureTime := some now }
  if b.state = .halfOpen then { b with state := .opened }
  else if b.config.failureThreshold ≤ b.failureCount then { b with state := .opened }
  else b

@[simp] theorem tryProbe_state : b.tryProbe.1.state = b.state := by
  unfold tryProbe
  split_ifs <;> rfl

@[simp] theorem tryProbe_successCount : b.tryProbe.1.successCount = b.successCount := by
  unfold tryProbe
  split_ifs <;> rfl

@[simp] theorem beginCall_successCount (now : ℤ) :
    (b.beginCall now).1.successCount = b.successCount := by
  unfold beginCall
  split_ifs <;> simp

/-- A call leaves the state alone, except that it may turn an open breaker half-open. -/
theorem beginCall_state (now : ℤ) : (b.beginCall now).1.state = b.state ∨
    b.state = .opened ∧ b.shouldAttemptReset now = true ∧
      (b.beginCall now).1.state = .halfOpen := by
  unfold beginCall
  split_ifs with ho hr
  · exact Or.inr ⟨ho, hr, by simp⟩
  · exact Or.inl rfl
  · exact Or.inl (by simp)

theorem tryProbe_config : b.tryProbe.1.config = b.config := by
  unfold tryProbe
  split_ifs <;> rfl

@[simp] theorem beginCall_config (now : ℤ) : (b.beginCall now).1.config = b.config := by
  unfold beginCall
  split_ifs <;> simp [tryProbe_config]

@[simp] theorem onSuccess_config : b.onSuccess.config = b.config := by
  unfold onSuccess
  dsimp only
  split_ifs <;> rfl

@[simp] theorem onFailure_config (now : ℤ) : (b.onFailure now).config = b.config := by
  unfold onFailure
  dsimp only
  split_ifs <;> rfl

/-- What a success does to a half-open breaker. -/
theorem onSuccess_halfOpen (h : b.state = .halfOpen) :
    (b.config.successThreshold ≤ b.successCount + 1 ∧ b.onSuccess.state = .closed) ∨
      (b.onSuccess.state = .halfOpen ∧ b.onSuccess.successCount = b.successCount + 1) := by
  unfold onSuccess
  dsimp only
  rw [if_pos h]
  split_ifs with ht
  · exact Or.inl ⟨by simpa using ht, rfl⟩
  · exact Or.inr ⟨h, rfl⟩

/-- A success of a breaker that is not half-open leaves the state alone. -/
theorem onSuccess_state (h : b.state ≠ .halfOpen) : b.onSuccess.state = b.state := by
  unfold onSuccess
  dsimp only
  rw [if_neg h]

/-- A failure never leads to half-open, nor from half-open to closed. -/
theorem onFailure_state (now : ℤ) : (b.onFailure now).state = .opened ∨
    b.state ≠ .halfOpen ∧ (b.onFailure now).state = b.state := by
  unfold onFailure
  dsimp only
  split_ifs with hh
  · exact Or.inl rfl
  · exact Or.inl rfl
  · exact Or.inr ⟨hh, rfl⟩

end CircuitBreaker

/-! ## Interleaved calls -/

/-- A call that was admitted. A running one carries the half-open period it was
admitted in, if the breaker was half-open then. -/
inductive BreakerCall
  | running (period : Option ℕ)
  | finished
  deriving DecidableEq, Repr

/-- The breaker, its calls in the order of their admission, the number of half-open
periods begun so far, and the successes in the current period of calls admitted in it. -/
structure BreakerSystem where
  breaker : CircuitBreaker
  calls : List BreakerCall := []
  period : ℕ := 0
  wins : ℕ := 0

/-- A new call at a time, or the end of the `c`-th admitted call. -/
inductive BreakerEvent
  | call (now : ℤ)
  | succeed (c : ℕ)
  | fail (c : ℕ) (now : ℤ)
  | cancel (c : ℕ)
  deriving DecidableEq, Repr

namespace BreakerSystem

/-- The call at `now` turns the breaker half-open. -/
def Resets (s : BreakerSystem) (now : ℤ) : Prop :=
  s.breaker.state = .opened ∧ s.breaker.shouldAttemptReset now = true

instance (s : BreakerSystem) (now : ℤ) : Decidable (s.Resets now) :=
  inferInstanceAs (Decidable (_ ∧ _))

/-- `call` up to its suspension; a call that raises here is not in flight. -/
def beginCall (s : BreakerSystem) (now : ℤ) : BreakerSystem :=
  let r := s.breaker.beginCall now
  let period := if s.Resets now then s.period + 1 else s.period
  { breaker := r.1
    calls :=
      if r.2 = none then
        s.calls ++ [.running (if r.1.state = .halfOpen then some period else none)]
      else s.calls
    period := period
    wins := if s.Resets now then 0 else s.wins }

/-- The `c`-th call returned, admitted in the period `p`. -/
def succeed (s : BreakerSystem) (c : ℕ) (p : Option ℕ) : BreakerSystem :=
  { s with
    breaker := s.breaker.onSuccess
    calls := s.calls.set c .finished
    wins := if s.breaker.state = .halfOpen ∧ p = some s.period then s.wins + 1 else s.wins }

/-- The `c`-th call raised an `Exception`. -/
def fail (s : BreakerSystem) (c : ℕ) (now : ℤ) : BreakerSystem :=
  { s with breaker := s.breaker.onFailure now, calls := s.calls.set c .finished }

/-- The `c`-th call was cancelled : no handler runs. -/
def cancel (s : BreakerSystem) (c : ℕ) : BreakerSystem :=
  { s with calls := s.calls.set c .finished }

/-- One step of the calls. -/
def step (s : BreakerSystem) : BreakerEvent → Option BreakerSystem
  | .call now => some (s.beginCall now)
  | .succeed c =>
    match s.calls[c]? with
    | some (.running p) => some (s.succeed c p)
    | _ => none
  | .fail c now =>
    match s.calls[c]? with
    | some (.running _) => some (s.fail c now)
    | _ => none
  | .cancel c =>
    match s.calls[c]? with
    | some (.running _) => some (s.cancel c)
    | _ => none

/-- Everything a step can do. -/
theorem step_cases {s t : BreakerSystem} {e : BreakerEvent} (h : s.step e = some t) :
    (∃ now, e = .call now ∧ t = s.beginCall now) ∨
      (∃ c p, e = .succeed c ∧ s.calls[c]? = some (.running p) ∧ t = s.succeed c p) ∨
      (∃ c p now, e = .fail c now ∧ s.calls[c]? = some (.running p) ∧ t = s.fail c now) ∨
      (∃ c p, e = .cancel c ∧ s.calls[c]? = some (.running p) ∧ t = s.cancel c) := by
  cases e with
  | call now => exact Or.inl ⟨now, rfl, (Option.some.inj h).symm⟩
  | succeed c =>
    simp only [step] at h
    split at h
    · exact Or.inr (Or.inl ⟨c, _, rfl, ‹_›, (Option.some.inj h).symm⟩)
    · cases h
  | fail c now =>
    simp only [step] at h
    split at h
    · exact Or.inr (Or.inr (Or.inl ⟨c, _, now, rfl, ‹_›, (Option.some.inj h).symm⟩))
    · cases h
  | cancel c =>
    simp only [step] at h
    split at h
    · exact Or.inr (Or.inr (Or.inr ⟨c, _, rfl, ‹_›, (Option.some.inj h).symm⟩))
    · cases h

end BreakerSystem

/-- A new breaker and no calls. -/
def breakerMachine (cfg : CircuitBreakerConfig) : Machine BreakerSystem BreakerEvent where
  init := { breaker := { config := cfg } }
  step := BreakerSystem.step

/-! ## Recovery -/

/-- In the runs over `ok`, every step from half-open to closed comes after at least
`success_threshold` successes, in the current half-open period, of calls admitted
in it. -/
def ClosesAfterProbes (cfg : CircuitBreakerConfig)
    (ok : BreakerSystem → BreakerEvent → Prop) : Prop :=
  ∀ es s e t, (breakerMachine cfg).Run ok es s → ok s e → s.step e = some t →
    s.breaker.state = .halfOpen → t.breaker.state = .closed → cfg.successThreshold ≤ t.wins

/-- A half-open period begins with no successes on the count, and while the breaker is
half-open only calls admitted in the current period succeed. -/
def CountsOnlyProbes (s : BreakerSystem) : BreakerEvent → Prop
  | .call now => s.Resets now → s.breaker.successCount = 0
  | .succeed c => s.breaker.state = .halfOpen → s.calls[c]? = some (.running (some s.period))
  | .fail _ _ => True
  | .cancel _ => True

instance (s : BreakerSystem) (e : BreakerEvent) : Decidable (CountsOnlyProbes s e) := by
  cases e <;> unfold CountsOnlyProbes <;> infer_instance

/-- The count of a half-open breaker is the count of its probes. -/
structure Counted (cfg : CircuitBreakerConfig) (s : BreakerSystem) : Prop where
  config : s.breaker.config = cfg
  count : s.breaker.state = .halfOpen → s.breaker.successCount = s.wins

theorem Counted.beginCall {cfg : CircuitBreakerConfig} {s : BreakerSystem} {now : ℤ}
    (h : Counted cfg s) (hzero : s.Resets now → s.breaker.successCount = 0) :
    Counted cfg (s.beginCall now) where
  config := by simpa [BreakerSystem.beginCall] using h.config
  count hhalf := by
    simp only [BreakerSystem.beginCall, CircuitBreaker.beginCall_successCount] at hhalf ⊢
    rcases s.breaker.beginCall_state now with hs | ⟨ho, hr, -⟩
    · rw [hs] at hhalf
      have hnot : ¬s.Resets now := fun hr => by simp [hr.1] at hhalf
      rw [if_neg hnot]
      exact h.count hhalf
    · rw [if_pos ⟨ho, hr⟩]
      exact hzero ⟨ho, hr⟩

theorem Counted.succeed {cfg : CircuitBreakerConfig} {s : BreakerSystem} {c : ℕ} {p : Option ℕ}
    (h : Counted cfg s) (hp : s.breaker.state = .halfOpen → p = some s.period) :
    Counted cfg (s.succeed c p) where
  config := by simpa [BreakerSystem.succeed] using h.config
  count hhalf := by
    simp only [BreakerSystem.succeed] at hhalf ⊢
    by_cases hs : s.breaker.state = .halfOpen
    · rw [if_pos ⟨hs, hp hs⟩]
      rcases s.breaker.onSuccess_halfOpen hs with ⟨-, hc⟩ | ⟨-, hc⟩
      · simp [hc] at hhalf
      · rw [hc, h.count hs]
    · exact absurd (s.breaker.onSuccess_state hs ▸ hhalf) hs

theorem Counted.fail {cfg : CircuitBreakerConfig} {s : BreakerSystem} {c : ℕ} {now : ℤ}
    (h : Counted cfg s) : Counted cfg (s.fail c now) where
  config := by simpa [BreakerSystem.fail] using h.config
  count hhalf := by
    simp only [BreakerSystem.fail] at hhalf
    rcases s.breaker.onFailure_state now with ho | ⟨hne, hs⟩
    · simp [ho] at hhalf
    · exact absurd (hs ▸ hhalf) hne

theorem Counted.step {cfg : CircuitBreakerConfig} {s t : BreakerSystem} {e : BreakerEvent}
    (h : Counted cfg s) (hok : CountsOnlyProbes s e) (hst : s.step e = some t) :
    Counted cfg t := by
  rcases BreakerSystem.step_cases hst with ⟨now, rfl, rfl⟩ | ⟨c, p, rfl, hc, rfl⟩ |
    ⟨c, p, now, rfl, hc, rfl⟩ | ⟨c, p, rfl, hc, rfl⟩
  · exact h.beginCall hok
  · refine h.succeed fun hs => ?_
    have := hok hs
    simpa [hc] using this
  · exact h.fail
  · exact ⟨h.config, h.count⟩

theorem counted_of_run {cfg : CircuitBreakerConfig} {es : List BreakerEvent} {s : BreakerSystem}
    (h : (breakerMachine cfg).Run CountsOnlyProbes es s) : Counted cfg s :=
  h.invariant ⟨rfl, fun hh => by simp [breakerMachine] at hh⟩ fun _ _ _ hs hok hst =>
    hs.step hok hst

/-- The only step from half-open to closed is the success that reaches the threshold. -/
theorem closes_of_step {s t : BreakerSystem} {e : BreakerEvent} (hst : s.step e = some t)
    (hhalf : s.breaker.state = .halfOpen) (hclosed : t.breaker.state = .closed) :
    ∃ c p, e = .succeed c ∧ s.calls[c]? = some (.running p) ∧ t = s.succeed c p ∧
      s.breaker.config.successThreshold ≤ s.breaker.successCount + 1 := by
  rcases BreakerSystem.step_cases hst with ⟨now, rfl, rfl⟩ | ⟨c, p, rfl, hc, rfl⟩ |
    ⟨c, p, now, rfl, hc, rfl⟩ | ⟨c, p, rfl, hc, rfl⟩
  · simp only [BreakerSystem.beginCall] at hclosed
    rcases s.breaker.beginCall_state now with hs | ⟨-, -, hs⟩ <;> simp [hs, hhalf] at hclosed
  · rcases s.breaker.onSuccess_halfOpen hhalf with ⟨ht, -⟩ | ⟨hs, -⟩
    · exact ⟨c, p, rfl, hc, rfl, ht⟩
    · simp [BreakerSystem.succeed, hs] at hclosed
  · simp only [BreakerSystem.fail] at hclosed
    rcases s.breaker.onFailure_state now with hs | ⟨hne, -⟩
    · simp [hs] at hclosed
    · exact absurd hhalf hne
  · simp [BreakerSystem.cancel, hhalf] at hclosed

/-- The law holds in every run whose half-open periods begin at zero and count only
their own probes. -/
theorem closesAfterProbes (cfg : CircuitBreakerConfig) :
    ClosesAfterProbes cfg CountsOnlyProbes := by
  intro es s e t hrun hok hst hhalf hclosed
  have hinv := counted_of_run hrun
  obtain ⟨c, p, rfl, hc, rfl, ht⟩ := closes_of_step hst hhalf hclosed
  have hp : p = some s.period := by simpa [hc] using hok hhalf
  rw [hinv.config, hinv.count hhalf] at ht
  simp only [BreakerSystem.succeed, hhalf, hp, and_self, if_true]
  exact_mod_cast ht

/-- The step taken at `e` closes a half-open breaker with `n` wins. -/
def closesWith (e : BreakerEvent) (n : ℕ) (s : BreakerSystem) : Bool :=
  match s.step e with
  | some t => s.breaker.state = .halfOpen && t.breaker.state = .closed && t.wins = n
  | none => false

theorem closesWith_iff {e : BreakerEvent} {n : ℕ} {s : BreakerSystem} :
    closesWith e n s = true ↔ ∃ t, s.step e = some t ∧ s.breaker.state = .halfOpen ∧
      t.breaker.state = .closed ∧ t.wins = n := by
  unfold closesWith
  cases s.step e <;> simp [and_assoc]

/-- Threshold two. -/
def twoProbes : CircuitBreakerConfig :=
  { failureThreshold := 1, successThreshold := 2, timeoutMs := 0 }

/-- Two probes of one period close a breaker with threshold two. -/
theorem closesAfterProbes_two : ∃ es s t, (breakerMachine twoProbes).Run CountsOnlyProbes es s ∧
    s.step (.succeed 2) = some t ∧ t.breaker.state = .closed ∧
    twoProbes.successThreshold ≤ t.wins := by
  obtain ⟨s, hrun, hp⟩ := Machine.exists_run (breakerMachine twoProbes) CountsOnlyProbes
    [.call 0, .fail 0 0, .call 1, .call 1, .succeed 1]
    (fun s => closesWith (.succeed 2) 2 s && decide (CountsOnlyProbes s (.succeed 2))) (by decide)
  rw [Bool.and_eq_true, closesWith_iff, decide_eq_true_iff] at hp
  obtain ⟨⟨t, hst, hhalf, hclosed, -⟩, hok⟩ := hp
  exact ⟨_, s, t, hrun, hst, hclosed,
    closesAfterProbes twoProbes _ s _ t hrun hok hst hhalf hclosed⟩

/-- One probe closes a breaker with threshold two : the success before the last
failure is still on the count. -/
theorem not_closesAfterProbes :
    ¬∀ cfg : CircuitBreakerConfig, 1 ≤ cfg.failureThreshold → 1 ≤ cfg.successThreshold →
      ClosesAfterProbes cfg fun _ _ => True := by
  intro h
  obtain ⟨s, hrun, hp⟩ := Machine.exists_run (breakerMachine twoProbes) (fun _ _ => True)
    [.call 0, .fail 0 0, .call 1, .call 1, .succeed 1, .fail 2 2, .call 3]
    (closesWith (.succeed 3) 1) (by decide)
  obtain ⟨t, hst, hhalf, hclosed, hwins⟩ := closesWith_iff.mp hp
  have hle := h twoProbes (by decide) (by decide) _ s _ t hrun trivial hst hhalf hclosed
  rw [hwins] at hle
  exact absurd hle (by decide)

end BaseAdapter

end MultiAgent
