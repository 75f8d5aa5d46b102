import Mathlib.Data.List.Induction
import Mathlib.Data.Rat.Init
import MultiAgent.Reliability.CircuitBreaker

/-!
# The circuit breaker of the service calls

`CircuitBreaker` of `libs/adapters/circuit_breaker.py`. A call takes part twice : with
`beginCall` before it awaits the function, and with `finishSuccess` or `finishFailure`
after. `finishFailure` runs for the expected exceptions and for every other `Exception`
alike; what neither handler catches, such as a cancellation, leaves no trace.

`_on_success` closes the breaker whatever state it is in. A call admitted before the
breaker opened that succeeds afterwards takes it from open to closed without a probe
(`not_recoversThroughHalfOpen`), and that is the only way past half-open
(`recoversThroughHalfOpen_iff`).
-/

namespace MultiAgent

namespace ServiceBreaker

open BaseAdapter (CircuitState)

/-- The parameters of `CircuitBreaker`, with the defaults of the source. Times are in
seconds. -/
structure CircuitBreakerConfig where
  failureThreshold : ℤ := 5
  recoveryTimeout : ℚ := 60
  name : String := "circuit_breaker"

/-- The attributes of `CircuitBreaker`. -/
structure CircuitBreaker where
  config : CircuitBreakerConfig
  failureCount : ℕ := 0
  lastFailureTime : Option ℚ := none
  state : CircuitState := .closed
  totalCalls : ℕ := 0
  successfulCalls : ℕ := 0
  failedCalls : ℕ := 0
  circuitOpenedCount : ℕ := 0

namespace CircuitBreaker

variable (b : CircuitBreaker)

/-- `_should_attempt_reset`. -/
def shouldAttemptReset (now : ℚ) : Bool :=
  match b.lastFailureTime with
  | none => true
  | some t => decide (b.config.recoveryTimeout ≤ now - t)

/-- `call` up to `await func(...)` : the breaker afterwards, and the exception if any. -/
def beginCall (now : ℚ) : CircuitBreaker × Option String :=
  let b := { b with totalCalls := b.totalCalls + 1 }
  if b.state = .opened then
    if b.shouldAttemptReset now then ({ b with state := .halfOpen }, none)
    else
      ({ b with failedCalls := b.failedCalls + 1 },
        some ("Circuit breaker '" ++ b.config.name ++ "' is OPEN"))
  else (b, none)

/-- `_on_success`. -/
def onSuccess : CircuitBreaker :=
  { b with failureCount := 0, state := .closed, lastFailureTime := none }

/-- `_on_failure`. -/
def onFailure (now : ℚ) : CircuitBreaker :=
  let b := { b with failureCount := b.failureCount + 1, lastFailureTime := some now }
  if b.config.failureThreshold ≤ b.failureCount then
    if b.state ≠ .opened then
      { b with state := .opened, circuitOpenedCount := b.circuitOpenedCount + 1 }
    else b
  else b

/-- `call` after the function returned. -/
def finishSuccess : CircuitBreaker :=
  { b.onSuccess with successfulCalls := b.successfulCalls + 1 }

/-- `call` after the function raised, in either handler. -/
def finishFailure (now : ℚ) : CircuitBreaker :=
  { b.onFailure now with failedCalls := b.failedCalls + 1 }

/-- What a call does to an open breaker. -/
theorem beginCall_opened (now : ℚ) (h : b.state = .opened) :
    (b.beginCall now).1.state = .opened ∧ (b.beginCall now).1.lastFailureTime = b.lastFailureTime ∨
      b.shouldAttemptReset now = true ∧ (b.beginCall now).1.state = .halfOpen := by
  unfold beginCall
  dsimp only
  rw [if_pos h]
  split_ifs with hr
  · exact Or.inr ⟨hr, rfl⟩
  · exact Or.inl ⟨h, rfl⟩

/-- A call never opens the breaker. -/
theorem opened_of_beginCall (now : ℚ) (h : (b.beginCall now).1.state = .opened) :
    b.state = .opened ∧ (b.beginCall now).1.lastFailureTime = b.lastFailureTime := by
  by_cases ho : b.state = .opened
  · rcases b.beginCall_opened now ho with ⟨-, htime⟩ | ⟨-, hhalf⟩
    · exact ⟨ho, htime⟩
    · simp [hhalf] at h
  · unfold beginCall at h
    dsimp only at h
    rw [if_neg ho] at h
    exact absurd h ho

@[simp] theorem finishSuccess_state : b.finishSuccess.state = .closed := rfl

/-- A failure leaves an open breaker open. -/
theorem finishFailure_opened (now : ℚ) (h : b.state = .opened) :
    (b.finishFailure now).state = .opened := by
  unfold finishFailure onFailure
  dsimp only
  split_ifs <;> first | rfl | exact h

@[simp] theorem finishFailure_lastFailureTime (now : ℚ) :
    (b.finishFailure now).lastFailureTime = some now := by
  unfold finishFailure onFailure
  dsimp only
  split_ifs <;> rfl

@[simp] theorem beginCall_config (now : ℚ) : (b.beginCall now).1.config = b.config := by
  unfold beginCall
  dsimp only
  split_ifs <;> rfl

@[simp] theorem finishSuccess_config : b.finishSuccess.config = b.config := rfl

@[simp] theorem finishFailure_config (now : ℚ) : (b.finishFailure now).config = b.config := by
  unfold finishFailure onFailure
  dsimp only
  split_ifs <;> rfl

end CircuitBreaker

/-! ## Interleaved calls -/

/-- The breaker, the number of calls in flight, and the time of the most recent failure
of any call. -/
structure ServiceSystem where
  breaker : CircuitBreaker
  inFlight : ℕ := 0
  recentFailure : Option ℚ := none

/-- A new call at a time, or the end of one of the calls in flight. -/
inductive ServiceEvent
  | call (now : ℚ)
  | succeed
  | fail (now : ℚ)
  | cancel
  deriving DecidableEq, Repr

namespace ServiceSystem

/-- `call` up to its suspension; a call that raises here is not in flight. -/
def beginCall (s : ServiceSystem) (now : ℚ) : ServiceSystem :=
  let r := s.breaker.beginCall now
  { s with breaker := r.1, inFlight := if r.2 = none then s.inFlight + 1 else s.inFlight }

/-- A call in flight returned. -/
def succeed (s : ServiceSystem) : ServiceSystem :=
  { s with breaker := s.breaker.finishSuccess, inFlight := s.inFlight - 1 }

/-- A call in flight raised. -/
def fail (s : ServiceSystem) (now : ℚ) : ServiceSystem :=
  { breaker := s.breaker.finishFailure now
    inFlight := s.inFlight - 1
    recentFailure := some now }

/-- A call in flight was cancelled. -/
def cancel (s : ServiceSystem) : ServiceSystem :=
  { s with inFlight := s.inFlight - 1 }

/-- One step of the calls. -/
def step (s : ServiceSystem) : ServiceEvent → Option ServiceSystem
  | .call now => some (s.beginCall now)
  | .succeed => if 0 < s.inFlight then some s.succeed else none
  | .fail now => if 0 < s.inFlight then some (s.fail now) else none
  | .cancel => if 0 < s.inFlight then some s.cancel else none

/-- Everything a step can do. -/
theorem step_cases {s t : ServiceSystem} {e : ServiceEvent} (h : s.step e = some t) :
    (∃ now, e = .call now ∧ t = s.beginCall now) ∨ (e = .succeed ∧ t = s.succeed) ∨
      (∃ now, e = .fail now ∧ t = s.fail now) ∨ (e = .cancel ∧ t = s.cancel) := by
  rcases e with now | - | now | - <;> simp only [step] at h
  · exact Or.inl ⟨now, rfl, (Option.some.inj h).symm⟩
  · split_ifs at h
    exact Or.inr (Or.inl ⟨rfl, (Option.some.inj h).symm⟩)
  · split_ifs at h
    exact Or.inr (Or.inr (Or.inl ⟨now, rfl, (Option.some.inj h).symm⟩))
  · split_ifs at h
    exact Or.inr (Or.inr (Or.inr ⟨rfl, (Option.some.inj h).symm⟩))

end ServiceSystem

/-- A new breaker and no calls. -/
def serviceMachine (cfg : CircuitBreakerConfig) : Machine ServiceSystem ServiceEvent where
  init := { breaker := { config := cfg } }
  step := ServiceSystem.step

/-! ## Recovery -/

variable {cfg : CircuitBreakerConfig} {ok : ServiceSystem → ServiceEvent → Prop}

/-- An open breaker remembers the most recent failure. -/
structure Remembers (cfg : CircuitBreakerConfig) (s : ServiceSystem) : Prop where
  config : s.breaker.config = cfg
  time : s.breaker.state = .opened →
    s.breaker.lastFailureTime = s.recentFailure ∧ s.recentFailure ≠ none

theorem Remembers.step {s t : ServiceSystem} {e : ServiceEvent} (h : Remembers cfg s)
    (hst : s.step e = some t) : Remembers cfg t := by
  rcases ServiceSystem.step_cases hst with ⟨now, rfl, rfl⟩ | ⟨rfl, rfl⟩ | ⟨now, rfl, rfl⟩ |
    ⟨rfl, rfl⟩
  · refine ⟨by simpa [ServiceSystem.beginCall] using h.config, fun ho => ?_⟩
    obtain ⟨hopen, htime⟩ := s.breaker.opened_of_beginCall now ho
    obtain ⟨hlast, hsome⟩ := h.time hopen
    exact ⟨htime.trans hlast, hsome⟩
  · refine ⟨by simpa [ServiceSystem.succeed] using h.config, fun ho => ?_⟩
    simp [ServiceSystem.succeed] at ho
  · refine ⟨by simpa [ServiceSystem.fail] using h.config, fun _ => ?_⟩
    simp [ServiceSystem.fail]
  · exact ⟨h.config, h.time⟩

theorem remembers_of_run {es : List ServiceEvent} {s : ServiceSystem}
    (h : (serviceMachine cfg).Run ok es s) : Remembers cfg s :=
  h.invariant ⟨rfl, fun ho => by simp [serviceMachine] at ho⟩ fun _ _ _ hs _ hst => hs.step hst

/-- On the way over `fs` from the state after `es`, a call turns the open breaker half-open
at least `recovery_timeout` after the most recent failure. -/
def TurnsHalfOpen (cfg : CircuitBreakerConfig) (ok : ServiceSystem → ServiceEvent → Prop)
    (es fs : List ServiceEvent) : Prop :=
  ∃ fs₁ now fs₂ v w, fs = fs₁ ++ .call now :: fs₂ ∧ (serviceMachine cfg).Run ok (es ++ fs₁) v ∧
    v.step (.call now) = some w ∧ v.breaker.state = .opened ∧ w.breaker.state = .halfOpen ∧
    ∃ t, v.recentFailure = some t ∧ cfg.recoveryTimeout ≤ now - t

/-- In the runs over `ok`, between an open breaker and a closed one lies a half-open one,
entered at least `recovery_timeout` after the most recent failure. -/
def RecoversThroughHalfOpen (cfg : CircuitBreakerConfig)
    (ok : ServiceSystem → ServiceEvent → Prop) : Prop :=
  ∀ es s fs u, (serviceMachine cfg).Run ok es s → s.breaker.state = .opened →
    (serviceMachine cfg).Run ok (es ++ fs) u → u.breaker.state = .closed →
    TurnsHalfOpen cfg ok es fs

theorem TurnsHalfOpen.snoc {es fs : List ServiceEvent} (h : TurnsHalfOpen cfg ok es fs)
    (e : ServiceEvent) : TurnsHalfOpen cfg ok es (fs ++ [e]) := by
  obtain ⟨fs₁, now, fs₂, v, w, rfl, hrest⟩ := h
  exact ⟨fs₁, now, fs₂ ++ [e], v, w, by simp, hrest⟩

/-- An open breaker stays open or turns half-open, unless a call succeeds. -/
theorem opened_step {s t : ServiceSystem} {e : ServiceEvent} (hs : Remembers cfg s)
    (hopen : s.breaker.state = .opened) (hst : s.step e = some t) :
    t.breaker.state = .opened ∨ e = .succeed ∨
      ∃ now, e = .call now ∧ t.breaker.state = .halfOpen ∧
        ∃ r, s.recentFailure = some r ∧ cfg.recoveryTimeout ≤ now - r := by
  rcases ServiceSystem.step_cases hst with ⟨now, rfl, rfl⟩ | ⟨rfl, rfl⟩ | ⟨now, rfl, rfl⟩ |
    ⟨rfl, rfl⟩
  · rcases s.breaker.beginCall_opened now hopen with ⟨ho, -⟩ | ⟨hreset, hhalf⟩
    · exact Or.inl ho
    · obtain ⟨hlast, hsome⟩ := hs.time hopen
      obtain ⟨r, hr⟩ := Option.ne_none_iff_exists'.mp hsome
      refine Or.inr (Or.inr ⟨now, rfl, hhalf, r, hr, ?_⟩)
      simpa [CircuitBreaker.shouldAttemptReset, hlast, hr, hs.config] using hreset
  · exact Or.inr (Or.inl rfl)
  · exact Or.inl (s.breaker.finishFailure_opened now hopen)
  · exact Or.inl hopen

/-- From an open breaker on, as long as no call succeeds while it is open, it is open or
has been half-open. -/
theorem opened_or_turnsHalfOpen
    (hok : ∀ es s t, (serviceMachine cfg).Run ok es s → ok s .succeed →
      s.step .succeed = some t → s.breaker.state ≠ .opened)
    {es : List ServiceEvent} {s : ServiceSystem} (hs : (serviceMachine cfg).Run ok es s)
    (hopen : s.breaker.state = .opened) (fs : List ServiceEvent) :
    ∀ u, (serviceMachine cfg).Run ok (es ++ fs) u →
      u.breaker.state = .opened ∨ TurnsHalfOpen cfg ok es fs := by
  induction fs using List.reverseRecOn with
  | nil =>
    intro u hu
    rw [List.append_nil] at hu
    exact Or.inl (hs.unique hu ▸ hopen)
  | append_singleton fs e ih =>
    intro u hu
    rw [← List.append_assoc] at hu
    obtain ⟨v, hv, hoke, hst⟩ := hu.snoc_inv
    rcases ih v hv with hvopen | hturn
    · rcases opened_step (remembers_of_run hv) hvopen hst with ho | rfl | ⟨now, rfl, hhalf, hr⟩
      · exact Or.inl ho
      · exact absurd hvopen (hok _ v u hv hoke hst)
      · exact Or.inr ⟨fs, now, [], v, u, rfl, hv, hst, hvopen, hhalf, hr⟩
    · exact Or.inr (hturn.snoc e)

/-- The breaker recovers through half-open exactly in the runs in which no call succeeds
while it is open. -/
theorem recoversThroughHalfOpen_iff (cfg : CircuitBreakerConfig)
    (ok : ServiceSystem → ServiceEvent → Prop) :
    RecoversThroughHalfOpen cfg ok ↔
      ∀ es s t, (serviceMachine cfg).Run ok es s → ok s .succeed → s.step .succeed = some t →
        s.breaker.state ≠ .opened := by
  constructor
  · intro h es s t hrun hok hst hopen
    have hclosed : t.breaker.state = .closed := by
      simp only [ServiceSystem.step] at hst
      split_ifs at hst
      obtain rfl := Option.some.inj hst
      rfl
    obtain ⟨fs₁, now, fs₂, v, w, hfs, -⟩ :=
      h es s [.succeed] t hrun hopen (hrun.snoc hok hst) hclosed
    rcases fs₁ with - | ⟨e, fs₁⟩ <;> simp at hfs
  · intro h es s fs u hs hopen hu hclosed
    rcases opened_or_turnsHalfOpen h hs hopen fs u hu with ho | hturn
    · rw [ho] at hclosed
      cases hclosed
    · exact hturn

/-- The breaker is open, and the next success closes it. -/
def closesNext (s : ServiceSystem) : Bool :=
  s.breaker.state = .opened && (s.step .succeed).any fun t => t.breaker.state = .closed

/-- One of two calls fails and opens the breaker, the other succeeds and closes it. -/
theorem not_recoversThroughHalfOpen :
    ¬∀ cfg : CircuitBreakerConfig, RecoversThroughHalfOpen cfg fun _ _ => True := by
  intro h
  obtain ⟨s, hrun, hp⟩ := Machine.exists_run (serviceMachine { failureThreshold := 1 })
    (fun _ _ => True) [.call 0, .call 0, .fail 1] closesNext (by decide)
  simp only [closesNext, Bool.and_eq_true, decide_eq_true_eq, Option.any_eq_true] at hp
  obtain ⟨hopen, t, hst, hclosed⟩ := hp
  obtain ⟨fs₁, now, fs₂, v, w, hfs, -⟩ :=
    h _ _ s [.succeed] t hrun hopen (hrun.snoc trivial hst) hclosed
  rcases fs₁ with - | ⟨e, fs₁⟩ <;> simp at hfs

/-! ## The counters of the breaker

`failure_count` and the state of the `CircuitBreaker` of the service calls are changed by
handlers of calls that were admitted in any earlier state, and by `reset`. In every state of
every run without cancellations they are coupled : the breaker is closed exactly as long as the
count is below the threshold, and `total_calls` is what ended and what is in flight
(`coupled_of_run`, by induction over the run from the steps of a call). So whatever is counted
when a call fails in half-open is enough to open the breaker. -/

section Counters

namespace CircuitBreaker

variable (b : CircuitBreaker)

/-- `reset`. -/
def reset : CircuitBreaker :=
  { b with state := .closed, failureCount := 0, lastFailureTime := none }

/-- What a call does before its function runs : it is admitted, possibly by a breaker that turns
half-open for it, or it is refused. -/
theorem beginCall_cases (now : ℚ) :
    (b.beginCall now).1.failureCount = b.failureCount ∧
      (b.beginCall now).1.totalCalls = b.totalCalls + 1 ∧
      (b.beginCall now).1.successfulCalls = b.successfulCalls ∧
      ((b.beginCall now).1.state = .closed ↔ b.state = .closed) ∧
      ((b.beginCall now).2 = none ∧ (b.beginCall now).1.failedCalls = b.failedCalls ∨
        (b.beginCall now).2 ≠ none ∧ (b.beginCall now).1.failedCalls = b.failedCalls + 1) := by
  unfold beginCall
  dsimp only
  split_ifs with hopen hreset
  · exact ⟨rfl, rfl, rfl, iff_of_false id (by rw [hopen]; nofun), Or.inl ⟨rfl, rfl⟩⟩
  · exact ⟨rfl, rfl, rfl, Iff.rfl, Or.inr ⟨nofun, rfl⟩⟩
  · exact ⟨rfl, rfl, rfl, Iff.rfl, Or.inl ⟨rfl, rfl⟩⟩

/-- What a failure does : it is counted, and the breaker opens once the threshold is reached. -/
theorem finishFailure_cases (now : ℚ) :
    (b.finishFailure now).failureCount = b.failureCount + 1 ∧
      (b.finishFailure now).totalCalls = b.totalCalls ∧
      (b.finishFailure now).successfulCalls = b.successfulCalls ∧
      (b.finishFailure now).failedCalls = b.failedCalls + 1 ∧
      (b.config.failureThreshold ≤ ↑(b.failureCount + 1) ∧
          (b.finishFailure now).state = .opened ∨
        ¬b.config.failureThreshold ≤ ↑(b.failureCount + 1) ∧
          (b.finishFailure now).state = b.state) := by
  unfold finishFailure onFailure
  dsimp only
  split_ifs with hreached hopen
  · exact ⟨rfl, rfl, rfl, rfl, Or.inl ⟨hreached, rfl⟩⟩
  · exact ⟨rfl, rfl, rfl, rfl, Or.inl ⟨hreached, not_not.mp hopen⟩⟩
  · exact ⟨rfl, rfl, rfl, rfl, Or.inr ⟨hreached, rfl⟩⟩

end CircuitBreaker

/-! ## Calls and resets -/

/-- A step of the calls, or a manual reset. -/
inductive ResetEvent
  | service (e : ServiceEvent)
  | reset

/-- One step of the calls or a reset. -/
def ServiceSystem.stepOrReset (s : ServiceSystem) : ResetEvent → Option ServiceSystem
  | .service e => s.step e
  | .reset => some { s with breaker := s.breaker.reset }

/-- A new breaker and no calls, with resets at any time. -/
def resetMachine (cfg : CircuitBreakerConfig) : Machine ServiceSystem ResetEvent where
  init := { breaker := { config := cfg } }
  step := ServiceSystem.stepOrReset

/-- The step cancels no call. -/
def NotCancelled (_ : ServiceSystem) (e : ResetEvent) : Prop :=
  e ≠ .service .cancel

instance : ∀ s e, Decidable (NotCancelled s e)
  | _, .reset => .isTrue nofun
  | _, .service e => decidable_of_iff (e ≠ .cancel) (by simp [NotCancelled])

/-- The state, the count of failures and the statistics belong together. -/
structure Coupled (cfg : CircuitBreakerConfig) (s : ServiceSystem) : Prop where
  config : s.breaker.config = cfg
  threshold_le : s.breaker.state ≠ .closed → cfg.failureThreshold ≤ s.breaker.failureCount
  lt_threshold : s.breaker.state = .closed → s.breaker.failureCount < cfg.failureThreshold
  calls : s.breaker.totalCalls =
    s.breaker.successfulCalls + s.breaker.failedCalls + s.inFlight

variable {cfg : CircuitBreakerConfig} {s : ServiceSystem}

theorem Coupled.beginCall (h : Coupled cfg s) (now : ℚ) : Coupled cfg (s.beginCall now) := by
  obtain ⟨hcount, htotal, hsuccess, hclosed, hend⟩ := s.breaker.beginCall_cases now
  have hcalls := h.calls
  refine ⟨(s.breaker.beginCall_config now).trans h.config, fun hs => ?_, fun hs => ?_, ?_⟩
  · change cfg.failureThreshold ≤ ((s.breaker.beginCall now).1.failureCount : ℤ)
    rw [hcount]
    exact h.threshold_le fun hs' => hs (hclosed.mpr hs')
  · change ((s.breaker.beginCall now).1.failureCount : ℤ) < _
    rw [hcount]
    exact h.lt_threshold (hclosed.mp hs)
  · unfold ServiceSystem.beginCall
    dsimp only
    rcases hend with ⟨hnone, hfailed⟩ | ⟨hsome, hfailed⟩
    · rw [if_pos hnone]
      omega
    · rw [if_neg hsome]
      omega

theorem Coupled.succeed (h : Coupled cfg s) (hpos : 1 ≤ cfg.failureThreshold)
    (hflight : 0 < s.inFlight) : Coupled cfg s.succeed := by
  refine ⟨h.config, fun hs => absurd rfl hs, fun _ => ?_, ?_⟩
  · change ((0 : ℕ) : ℤ) < cfg.failureThreshold
    omega
  · have hcalls := h.calls
    change s.breaker.totalCalls =
      s.breaker.successfulCalls + 1 + s.breaker.failedCalls + (s.inFlight - 1)
    omega

theorem Coupled.fail (h : Coupled cfg s) (hflight : 0 < s.inFlight) (now : ℚ) :
    Coupled cfg (s.fail now) := by
  obtain ⟨hcount, htotal, hsuccess, hfailed, hend⟩ := s.breaker.finishFailure_cases now
  rw [h.config] at hend
  refine ⟨(s.breaker.finishFailure_config now).trans h.config, fun hs => ?_, fun hs => ?_, ?_⟩
  · change cfg.failureThreshold ≤ ((s.breaker.finishFailure now).failureCount : ℤ)
    rw [hcount]
    rcases hend with ⟨hreached, -⟩ | ⟨-, hkept⟩
    · exact hreached
    · -- a breaker that was not closed had reached the threshold before
      have hbefore := h.threshold_le fun hs' => hs (hkept.trans hs')
      push_cast
      omega
  · change ((s.breaker.finishFailure now).failureCount : ℤ) < _
    rw [hcount]
    rcases hend with ⟨-, hopened⟩ | ⟨hbelow, -⟩
    · cases hopened.symm.trans hs
    · exact Int.not_le.mp hbelow
  · have hcalls := h.calls
    change (s.breaker.finishFailure now).totalCalls =
      (s.breaker.finishFailure now).successfulCalls + (s.breaker.finishFailure now).failedCalls +
        (s.inFlight - 1)
    omega

theorem Coupled.step {t : ServiceSystem} {e : ResetEvent} (h : Coupled cfg s)
    (hpos : 1 ≤ cfg.failureThreshold) (hok : NotCancelled s e) (hst : s.stepOrReset e = some t) :
    Coupled cfg t := by
  rcases e with (now | - | now | -) | - <;> simp only [ServiceSystem.stepOrReset,
    ServiceSystem.step] at hst
  · obtain rfl := Option.some.inj hst
    exact h.beginCall now
  · split_ifs at hst with hflight
    obtain rfl := Option.some.inj hst
    exact h.succeed hpos hflight
  · split_ifs at hst with hflight
    obtain rfl := Option.some.inj hst
    exact h.fail hflight now
  · exact absurd rfl hok
  · obtain rfl := Option.some.inj hst
    refine ⟨h.config, fun hs => absurd rfl hs, fun _ => ?_, h.calls⟩
    change ((0 : ℕ) : ℤ) < cfg.failureThreshold
    omega

/-- In every state of every run without cancellations the state, the count of failures and the
statistics are coupled, and a failure in half-open opens the breaker. -/
theorem coupled_of_run (cfg : CircuitBreakerConfig) (hpos : 1 ≤ cfg.failureThreshold)
    {es : List ResetEvent} {s : ServiceSystem} (h : (resetMachine cfg).Run NotCancelled es s) :
    Coupled cfg s ∧
      (s.breaker.state = .halfOpen → ∀ now, (s.breaker.finishFailure now).state = .opened) := by
  have hinit : Coupled cfg (resetMachine cfg).init := by
    refine ⟨rfl, fun hs => absurd rfl hs, fun _ => ?_, rfl⟩
    change ((0 : ℕ) : ℤ) < cfg.failureThreshold
    omega
  have hcoupled : Coupled cfg s :=
    h.invariant hinit fun _ _ _ hs hok hst => hs.step hpos hok hst
  refine ⟨hcoupled, fun hhalf now => ?_⟩
  have hreached := hcoupled.threshold_le (by rw [hhalf]; nofun)
  rcases (s.breaker.finishFailure_cases now).2.2.2.2 with ⟨-, hopened⟩ | ⟨hbelow, -⟩
  · exact hopened
  · rw [hcoupled.config] at hbelow
    push_cast at hbelow
    omega

/-- Two calls fail and open the breaker, and a third turns it half-open. -/
theorem coupled_of_run_probe :
    ∃ s, (resetMachine { failureThreshold := 2 }).Run NotCancelled
        [.service (.call 0), .service (.call 0), .service (.fail 1), .service (.fail 2),
          .service (.call 70)] s ∧
      s.breaker.state = .halfOpen ∧ Coupled { failureThreshold := 2 } s ∧
        (s.breaker.state = .halfOpen →
          ∀ now, (s.breaker.finishFailure now).state = .opened) := by
  obtain ⟨s, hrun, hs⟩ := Machine.exists_run (resetMachine { failureThreshold := 2 }) NotCancelled
    [.service (.call 0), .service (.call 0), .service (.fail 1), .service (.fail 2),
      .service (.call 70)] (fun s => decide (s.breaker.state = .halfOpen)) (by decide +kernel)
  exact ⟨s, hrun, of_decide_eq_true hs, coupled_of_run { failureThreshold := 2 } (by decide) hrun⟩

end Counters

end ServiceBreaker

end MultiAgent
