import Mathlib.Data.Rat.Init
import MultiAgent.Lib.Dict
import MultiAgent.Reliability.CircuitBreaker

/-!
# The circuit breakers of the model gateway

`circuit_breaker.py` of `apps/data-plane/model-gateway`. `CircuitBreakerManager` keeps one
breaker for each name, made with the configuration of the first request for it. Only the
expected exceptions are recorded; a call that ends otherwise leaves its breaker alone.

Half-open has no counter of its own : a failed probe adds to `failure_count`, and opens
the breaker only when the count reaches the threshold. A breaker opens with its count at
the threshold, so one failed probe is enough, unless a call that was admitted before
succeeds in between. That sets the count to zero and leaves the state alone, and the next
probe may fail with the breaker half-open (`not_keepsOpen`). The law holds in the runs in
which every failed probe finds the breaker open or enough failures in a row
(`keepsOpen_iff`), such as those in which no call succeeds while its breaker is open and
no probe fails after its breaker was closed (`keepsOpen_of_quiet`).
-/

namespace MultiAgent

namespace ModelGateway

open BaseAdapter (CircuitState)

/-- `CircuitBreakerConfig`, with the defaults of the source. Times are in seconds. -/
structure CircuitBreakerConfig where
  failureThreshold : ℤ := 5
  recoveryTimeout : ℤ := 60
  deriving DecidableEq

/-- The attributes of `CircuitBreaker`. -/
structure CircuitBreaker where
  config : CircuitBreakerConfig
  failureCount : ℕ := 0
  lastFailureTime : Option ℚ := none
  state : CircuitState := .closed

namespace CircuitBreaker

variable (b : CircuitBreaker)

/-- `_should_attempt_reset`. -/
def shouldAttemptReset (now : ℚ) : Bool :=
  b.state = .opened &&
    match b.lastFailureTime with
    | none => false
    | some t => decide ((b.config.recoveryTimeout : ℚ) ≤ now - t)

/-- `call` up to `await func(...)`, for a function of the given name : the breaker
afterwards, and the exception if any. -/
def beginCall (func : String) (now : ℚ) : CircuitBreaker × Option String :=
  if b.state = .opened then
    if b.shouldAttemptReset now then ({ b with state := .halfOpen }, none)
    else (b, some ("Circuit breaker is OPEN for " ++ func))
  else (b, none)

/-- `call` after the function returned. -/
def recordSuccess : CircuitBreaker :=
  let b := { b with failureCount := 0 }
  if b.state = .halfOpen then { b with state := .closed } else b

/-- `_record_failure`. -/
def recordFailure (now : ℚ) : CircuitBreaker :=
  let b := { b with failureCount := b.failureCount + 1, lastFailureTime := some now }
  if b.config.failureThreshold ≤ b.failureCount then { b with state := .opened } else b

/-- A call leaves the breaker alone, or turns an open one half-open. -/
theorem beginCall_cases (func : String) (now : ℚ) : (b.beginCall func now).1 = b ∨
    b.state = .opened ∧ b.shouldAttemptReset now = true ∧
      (b.beginCall func now).1 = { b with state := .halfOpen } := by
  unfold beginCall
  split_ifs with ho hr
  · exact Or.inr ⟨ho, hr, rfl⟩
  · exact Or.inl rfl
  · exact Or.inl rfl

@[simp] theorem recordSuccess_failureCount : b.recordSuccess.failureCount = 0 := by
  unfold recordSuccess
  dsimp only
  split_ifs <;> rfl

@[simp] theorem recordSuccess_lastFailureTime :
    b.recordSuccess.lastFailureTime = b.lastFailureTime := by
  unfold recordSuccess
  dsimp only
  split_ifs <;> rfl

/-- A success closes a half-open breaker and leaves any other state alone. -/
theorem recordSuccess_state :
    b.recordSuccess.state = if b.state = .halfOpen then .closed else b.state := by
  unfold recordSuccess
  dsimp only
  split_ifs <;> rfl

@[simp] theorem recordFailure_failureCount (now : ℚ) :
    (b.recordFailure now).failureCount = b.failureCount + 1 := by
  unfold recordFailure
  dsimp only
  split_ifs <;> rfl

@[simp] theorem recordFailure_lastFailureTime (now : ℚ) :
    (b.recordFailure now).lastFailureTime = some now := by
  unfold recordFailure
  dsimp only
  split_ifs <;> rfl

@[simp] theorem recordFailure_config (now : ℚ) :
    (b.recordFailure now).config = b.config := by
  unfold recordFailure
  dsimp only
  split_ifs <;> rfl

/-- A failure opens the breaker when it reaches the threshold. -/
theorem recordFailure_state (now : ℚ) : (b.recordFailure now).state =
    if b.config.failureThreshold ≤ ((b.failureCount + 1 : ℕ) : ℤ) then .opened else b.state := by
  unfold recordFailure
  dsimp only
  split_ifs <;> rfl

end CircuitBreaker

/-- The breakers of a `CircuitBreakerManager`. -/
abbrev CircuitBreakerManager :=
  Dict String CircuitBreaker

/-- `get_breaker` : the breaker of a name, and the manager that keeps it. -/
def CircuitBreakerManager.getBreaker (m : CircuitBreakerManager) (name : String)
    (config : Option CircuitBreakerConfig) : CircuitBreaker × CircuitBreakerManager :=
  match m.get? name with
  | some b => (b, m)
  | none =>
    let b : CircuitBreaker := { config := config.getD {} }
    (b, m.set name b)

/-! ## Interleaved calls -/

/-- An admitted call : the breaker it runs under, and whether that breaker was half-open
when it admitted the call. -/
inductive GatewayCall
  | running (name : String) (probe : Bool)
  | finished
  deriving DecidableEq, Repr

/-- What a call reported to the breaker of the name : a failure at a time, or a success. -/
structure Report where
  name : String
  failure : Option ℚ

/-- The failures reported in a row, since the last success. The newest report is first. -/
def streak (name : String) : List Report → ℕ
  | [] => 0
  | r :: rs =>
    if r.name = name then
      match r.failure with
      | none => 0
      | some _ => streak name rs + 1
    else streak name rs

/-- The time of the last failure reported. -/
def lastFailure (name : String) : List Report → Option ℚ
  | [] => none
  | r :: rs =>
    if r.name = name then
      match r.failure with
      | none => lastFailure name rs
      | some t => some t
    else lastFailure name rs

/-- The breakers, the calls in the order of their admission, and all the reports. -/
structure GatewaySystem where
  breakers : CircuitBreakerManager := .empty
  calls : List GatewayCall := []
  reports : List Report := []

/-- A new call, or the end of the `c`-th admitted one : it returned, raised an expected
exception, or ended in a way that nothing records. -/
inductive GatewayEvent
  | call (name : String) (config : Option CircuitBreakerConfig) (func : String) (now : ℚ)
  | succeed (c : ℕ)
  | fail (c : ℕ) (now : ℚ)
  | abort (c : ℕ)
  deriving DecidableEq

namespace GatewaySystem

/-- `get_breaker` and `call` up to its suspension; a call that raises here is not in
flight. -/
def beginCall (s : GatewaySystem) (name : String) (config : Option CircuitBreakerConfig)
    (func : String) (now : ℚ) : GatewaySystem :=
  let g := s.breakers.getBreaker name config
  let r := g.1.beginCall func now
  { s with
    breakers := g.2.set name r.1
    calls :=
      if r.2 = none then s.calls ++ [.running name (decide (r.1.state = .halfOpen))]
      else s.calls }

/-- The `c`-th call ended, its breaker became `b`, and it reported `failure`. -/
def finish (s : GatewaySystem) (c : ℕ) (name : String) (b : CircuitBreaker)
    (failure : Option ℚ) : GatewaySystem :=
  { breakers := s.breakers.set name b
    calls := s.calls.set c .finished
    reports := ⟨name, failure⟩ :: s.reports }

/-- One step of the calls. -/
def step (s : GatewaySystem) : GatewayEvent → Option GatewaySystem
  | .call name config func now => some (s.beginCall name config func now)
  | .succeed c =>
    match s.calls[c]? with
    | some (.running name _) =>
      (s.breakers.get? name).map fun b => s.finish c name b.recordSuccess none
    | _ => none
  | .fail c now =>
    match s.calls[c]? with
    | some (.running name _) =>
      (s.breakers.get? name).map fun b => s.finish c name (b.recordFailure now) (some now)
    | _ => none
  | .abort c =>
    match s.calls[c]? with
    | some (.running _ _) => some { s with calls := s.calls.set c .finished }
    | _ => none

/-- Everything a step can do. -/
theorem step_cases {s t : GatewaySystem} {e : GatewayEvent} (h : s.step e = some t) :
    (∃ name config func now, e = .call name config func now ∧
        t = s.beginCall name config func now) ∨
      (∃ c name p b, e = .succeed c ∧ s.calls[c]? = some (.running name p) ∧
        s.breakers.get? name = some b ∧ t = s.finish c name b.recordSuccess none) ∨
      (∃ c now name p b, e = .fail c now ∧ s.calls[c]? = some (.running name p) ∧
        s.breakers.get? name = some b ∧ t = s.finish c name (b.recordFailure now) (some now)) ∨
      (∃ c, e = .abort c ∧ t = { s with calls := s.calls.set c .finished }) := by
  rcases e with ⟨name, config, func, now⟩ | c | ⟨c, now⟩ | c <;> simp only [step] at h
  · exact Or.inl ⟨name, config, func, now, rfl, (Option.some.inj h).symm⟩
  · split at h
    · obtain ⟨b, hb, ht⟩ := Option.map_eq_some_iff.mp h
      exact Or.inr (Or.inl ⟨c, _, _, b, rfl, ‹_›, hb, ht.symm⟩)
    · cases h
  · split at h
    · obtain ⟨b, hb, ht⟩ := Option.map_eq_some_iff.mp h
      exact Or.inr (Or.inr (Or.inl ⟨c, now, _, _, b, rfl, ‹_›, hb, ht.symm⟩))
    · cases h
  · split at h
    · exact Or.inr (Or.inr (Or.inr ⟨c, rfl, (Option.some.inj h).symm⟩))
    · cases h

/-- A call changes only the breaker of its name, which is new or was there : it stays as
it is, or turns from open to half-open. -/
theorem breakers_beginCall (s : GatewaySystem) (name : String)
    (config : Option CircuitBreakerConfig) (func : String) (now : ℚ) :
    ∃ b b', (s.breakers.get? name = some b ∨ s.breakers.get? name = none ∧
        b = { config := config.getD {} }) ∧
      (∀ n, (s.beginCall name config func now).breakers.get? n =
        if n = name then some b' else s.breakers.get? n) ∧
      (b' = b ∨ b.state = .opened ∧ b.shouldAttemptReset now = true ∧
        b' = { b with state := .halfOpen }) := by
  simp only [beginCall, CircuitBreakerManager.getBreaker]
  cases hb : s.breakers.get? name with
  | some b =>
    exact ⟨b, _, Or.inl rfl, fun n => Dict.get?_set _ _ _ _, b.beginCall_cases func now⟩
  | none =>
    refine ⟨_, _, Or.inr ⟨rfl, rfl⟩, fun n => ?_, CircuitBreaker.beginCall_cases _ func now⟩
    simp only [Dict.get?_set]
    split_ifs <;> rfl

end GatewaySystem

/-- No breakers and no calls. -/
def gatewayMachine : Machine GatewaySystem GatewayEvent where
  init := {}
  step := GatewaySystem.step

/-! ## The counters and the reports -/

/-- The counter of a breaker is its failures in a row, its time that of its last failure,
and an open breaker had a failure. -/
structure Agrees (reports : List Report) (name : String) (b : CircuitBreaker) : Prop where
  count : b.failureCount = streak name reports
  time : b.lastFailureTime = lastFailure name reports
  opened : b.state = .opened → b.lastFailureTime ≠ none

/-- Every breaker agrees with the reports, and a name without a breaker has none. -/
structure Reported (s : GatewaySystem) : Prop where
  agrees : ∀ name b, s.breakers.get? name = some b → Agrees s.reports name b
  fresh : ∀ name, s.breakers.get? name = none →
    streak name s.reports = 0 ∧ lastFailure name s.reports = none

namespace Reported

variable {s t : GatewaySystem}

/-- A step that changes one breaker and the reports to it keeps the agreement, if that
breaker agrees afterwards. -/
theorem update (h : Reported s) {name : String} {b : CircuitBreaker}
    (hget : ∀ n, t.breakers.get? n = if n = name then some b else s.breakers.get? n)
    (hreports : ∀ n, n ≠ name → streak n t.reports = streak n s.reports ∧
      lastFailure n t.reports = lastFailure n s.reports)
    (hb : Agrees t.reports name b) : Reported t where
  agrees n x hx := by
    rw [hget] at hx
    split_ifs at hx with hn
    · obtain rfl := Option.some.inj hx
      exact hn ▸ hb
    · have hold := h.agrees n x hx
      exact ⟨by rw [(hreports n hn).1, hold.count], by rw [(hreports n hn).2, hold.time],
        hold.opened⟩
  fresh n hnone := by
    rw [hget] at hnone
    split_ifs at hnone with hn
    rw [(hreports n hn).1, (hreports n hn).2]
    exact h.fresh n hnone

theorem beginCall (h : Reported s) (name : String) (config : Option CircuitBreakerConfig)
    (func : String) (now : ℚ) : Reported (s.beginCall name config func now) := by
  obtain ⟨b, b', hb, hget, hcase⟩ := s.breakers_beginCall name config func now
  have hold : Agrees s.reports name b := by
    rcases hb with hb | ⟨hb, rfl⟩
    · exact h.agrees name b hb
    · obtain ⟨hs, hl⟩ := h.fresh name hb
      exact ⟨hs.symm, hl.symm, fun ho => by simp at ho⟩
  refine h.update hget (fun _ _ => ⟨rfl, rfl⟩) ?_
  rcases hcase with rfl | ⟨-, -, rfl⟩
  · exact hold
  · exact ⟨hold.count, hold.time, fun ho => by simp at ho⟩

/-- A report keeps the agreement if the breaker it goes to takes it over. -/
theorem finish (h : Reported s) (c : ℕ) {name : String} {b : CircuitBreaker}
    {failure : Option ℚ} (hb : Agrees (⟨name, failure⟩ :: s.reports) name b) :
    Reported (s.finish c name b failure) :=
  h.update (fun _ => Dict.get?_set _ _ _ _)
    (fun n hn => ⟨by simp [GatewaySystem.finish, streak, Ne.symm hn],
      by simp [GatewaySystem.finish, lastFailure, Ne.symm hn]⟩) hb

theorem step (h : Reported s) {e : GatewayEvent} (hst : s.step e = some t) : Reported t := by
  rcases GatewaySystem.step_cases hst with ⟨name, config, func, now, rfl, rfl⟩ |
    ⟨c, name, p, b, rfl, hc, hb, rfl⟩ | ⟨c, now, name, p, b, rfl, hc, hb, rfl⟩ | ⟨c, rfl, rfl⟩
  · exact h.beginCall name config func now
  · have hold := h.agrees name b hb
    refine h.finish c ⟨by simp [streak], by simp [lastFailure, hold.time], fun ho => ?_⟩
    rw [b.recordSuccess_lastFailureTime]
    refine hold.opened ?_
    rw [b.recordSuccess_state] at ho
    split_ifs at ho
    exact ho
  · have hold := h.agrees name b hb
    exact h.finish c ⟨by simp [streak, hold.count], by simp [lastFailure], fun _ => by simp⟩
  · exact ⟨h.agrees, h.fresh⟩

end Reported

variable {ok : GatewaySystem → GatewayEvent → Prop}

theorem reported_of_run {es : List GatewayEvent} {s : GatewaySystem}
    (h : gatewayMachine.Run ok es s) : Reported s :=
  h.invariant ⟨fun _ _ hb => by simp [gatewayMachine] at hb,
    fun _ _ => ⟨rfl, rfl⟩⟩ fun _ _ _ hs _ hst => hs.step hst

/-! ## Reopening -/

/-- In the runs over `ok`, a failure reported for a half-open probe leaves the breaker
open, and a breaker leaves `OPEN` only for a call at least `recovery_timeout` after the
last failure that was reported to it. -/
structure KeepsOpen (ok : GatewaySystem → GatewayEvent → Prop) : Prop where
  reopens : ∀ es s c now name t, gatewayMachine.Run ok es s → ok s (.fail c now) →
    s.calls[c]? = some (.running name true) → s.step (.fail c now) = some t →
    ∃ b, t.breakers.get? name = some b ∧ b.state = .opened
  waits : ∀ es s e t name b b', gatewayMachine.Run ok es s → ok s e → s.step e = some t →
    s.breakers.get? name = some b → b.state = .opened → t.breakers.get? name = some b' →
    b'.state ≠ .opened → ∃ config func now r, e = .call name config func now ∧
      lastFailure name s.reports = some r ∧ (b.config.recoveryTimeout : ℚ) ≤ now - r

/-- No breaker leaves `OPEN` too early. -/
theorem waits_of_step {s t : GatewaySystem} {e : GatewayEvent} (h : Reported s)
    (hst : s.step e = some t) {name : String} {b b' : CircuitBreaker}
    (hb : s.breakers.get? name = some b) (hopen : b.state = .opened)
    (hb' : t.breakers.get? name = some b') (hne : b'.state ≠ .opened) :
    ∃ config func now r, e = .call name config func now ∧
      lastFailure name s.reports = some r ∧ (b.config.recoveryTimeout : ℚ) ≤ now - r := by
  have hold := h.agrees name b hb
  have hchanged : s.breakers.get? name ≠ some b' := fun hb' => by
    obtain rfl := Option.some.inj (hb.symm.trans hb')
    exact hne hopen
  rcases GatewaySystem.step_cases hst with ⟨n, config, func, now, rfl, rfl⟩ |
    ⟨c, n, p, x, rfl, hc, hx, rfl⟩ | ⟨c, now, n, p, x, rfl, hc, hx, rfl⟩ | ⟨c, rfl, rfl⟩
  · obtain ⟨x, x', hx, hget, hcase⟩ := s.breakers_beginCall n config func now
    rw [hget] at hb'
    split_ifs at hb' with hn
    · subst hn
      obtain rfl := Option.some.inj hb'
      obtain rfl : x = b := by
        rcases hx with hx | ⟨hx, -⟩
        · exact Option.some.inj (hx.symm.trans hb)
        · rw [hb] at hx
          cases hx
      rcases hcase with rfl | ⟨-, hreset, -⟩
      · exact absurd hopen hne
      · obtain ⟨r, hr⟩ := Option.ne_none_iff_exists'.mp (hold.opened hopen)
        refine ⟨config, func, now, r, rfl, by rw [← hold.time, hr], ?_⟩
        simpa [CircuitBreaker.shouldAttemptReset, hopen, hr] using hreset
    · exact absurd hb' hchanged
  · simp only [GatewaySystem.finish, Dict.get?_set] at hb'
    split_ifs at hb' with hn
    · subst hn
      obtain rfl := Option.some.inj (hx.symm.trans hb)
      obtain rfl := Option.some.inj hb'
      rw [x.recordSuccess_state, if_neg (by simp [hopen])] at hne
      exact absurd hopen hne
    · exact absurd hb' hchanged
  · simp only [GatewaySystem.finish, Dict.get?_set] at hb'
    split_ifs at hb' with hn
    · subst hn
      obtain rfl := Option.some.inj (hx.symm.trans hb)
      obtain rfl := Option.some.inj hb'
      rw [x.recordFailure_state] at hne
      split_ifs at hne
      · exact absurd rfl hne
      · exact absurd hopen hne
    · exact absurd hb' hchanged
  · exact absurd hb' hchanged

/-- The breaker after a reported failure, and when it is open. -/
theorem fail_opened_iff {s t : GatewaySystem} {c : ℕ} {now : ℚ} {name : String} {p : Bool}
    (h : Reported s) (hc : s.calls[c]? = some (.running name p))
    (hst : s.step (.fail c now) = some t) :
    ∃ b b', s.breakers.get? name = some b ∧ t.breakers.get? name = some b' ∧
      (b'.state = .opened ↔
        b.state = .opened ∨ b.config.failureThreshold ≤ streak name s.reports + 1) := by
  simp only [GatewaySystem.step, hc] at hst
  obtain ⟨b, hb, rfl⟩ := Option.map_eq_some_iff.mp hst
  refine ⟨b, _, hb, Dict.get?_set_self _ _ _, ?_⟩
  rw [b.recordFailure_state, (h.agrees name b hb).count]
  push_cast
  split_ifs with hle
  · simp [hle]
  · simp [hle]

/-- A failed probe finds its breaker open, or is at least the `failure_threshold`-th
failure in a row reported to it. -/
def EnoughFailures (s : GatewaySystem) (c : ℕ) : Prop :=
  ∀ name b, s.calls[c]? = some (.running name true) → s.breakers.get? name = some b →
    b.state = .opened ∨ b.config.failureThreshold ≤ streak name s.reports + 1

theorem keepsOpen_of_enoughFailures
    (h : ∀ es s c now, gatewayMachine.Run ok es s → ok s (.fail c now) → EnoughFailures s c) :
    KeepsOpen ok where
  reopens es s c now name t hrun hok hc hst := by
    obtain ⟨b, b', hb, hb', hiff⟩ := fail_opened_iff (reported_of_run hrun) hc hst
    exact ⟨b', hb', hiff.mpr (h es s c now hrun hok name b hc hb)⟩
  waits _ _ _ _ _ _ _ hrun _ hst hb hopen hb' hne :=
    waits_of_step (reported_of_run hrun) hst hb hopen hb' hne

/-- The law holds exactly in the runs in which every failed probe finds its breaker open
or enough failures in a row. -/
theorem keepsOpen_iff (ok : GatewaySystem → GatewayEvent → Prop) : KeepsOpen ok ↔
    ∀ es s c now, gatewayMachine.Run ok es s → ok s (.fail c now) → EnoughFailures s c := by
  refine ⟨fun h es s c now hrun hok name b hc hb => ?_, keepsOpen_of_enoughFailures⟩
  have hst : ∃ t, s.step (.fail c now) = some t := by
    simp only [GatewaySystem.step, hc, hb]
    exact ⟨_, rfl⟩
  obtain ⟨t, hst⟩ := hst
  obtain ⟨x, hx, hopen⟩ := h.reopens es s c now name t hrun hok hc hst
  obtain ⟨y, y', hy, hy', hiff⟩ := fail_opened_iff (reported_of_run hrun) hc hst
  obtain rfl := Option.some.inj (hy.symm.trans hb)
  obtain rfl := Option.some.inj (hy'.symm.trans hx)
  exact hiff.mp hopen

/-! ## Runs without late reports -/

/-- No call succeeds while its breaker is open, and no probe fails after its breaker was
closed. -/
def Quiet (s : GatewaySystem) : GatewayEvent → Prop
  | .succeed c => ∀ name p b, s.calls[c]? = some (.running name p) →
      s.breakers.get? name = some b → b.state ≠ .opened
  | .fail c _ => ∀ name b, s.calls[c]? = some (.running name true) →
      s.breakers.get? name = some b → b.state ≠ .closed
  | .call _ _ _ _ => True
  | .abort _ => True

/-- A breaker that is not closed has reached its threshold. -/
def Tripped (s : GatewaySystem) : Prop :=
  ∀ name b, s.breakers.get? name = some b → b.state ≠ .closed →
    b.config.failureThreshold ≤ b.failureCount

theorem Tripped.step {s t : GatewaySystem} {e : GatewayEvent} (h : Tripped s)
    (hok : Quiet s e) (hst : s.step e = some t) : Tripped t := by
  rcases GatewaySystem.step_cases hst with ⟨n, config, func, now, rfl, rfl⟩ |
    ⟨c, n, p, x, rfl, hc, hx, rfl⟩ | ⟨c, now, n, p, x, rfl, hc, hx, rfl⟩ | ⟨c, rfl, rfl⟩
  · obtain ⟨x, x', hx, hget, hcase⟩ := s.breakers_beginCall n config func now
    intro name b hb hne
    rw [hget] at hb
    split_ifs at hb with hn
    · obtain rfl := Option.some.inj hb
      have hxne : x.state ≠ .closed := by
        rcases hcase with rfl | ⟨ho, -, -⟩
        · exact hne
        · simp [ho]
      have hle : x.config.failureThreshold ≤ x.failureCount := by
        rcases hx with hx | ⟨-, rfl⟩
        · exact h n x hx hxne
        · exact absurd rfl hxne
      rcases hcase with rfl | ⟨-, -, rfl⟩
      · exact hle
      · exact hle
    · exact h name b hb hne
  · intro name b hb hne
    simp only [GatewaySystem.finish, Dict.get?_set] at hb
    split_ifs at hb with hn
    · obtain rfl := Option.some.inj hb
      have hopen := hok n p x hc hx
      rw [x.recordSuccess_state] at hne
      split_ifs at hne with hhalf
      · exact absurd rfl hne
      · cases hs : x.state <;> simp [hs] at hopen hhalf hne
    · exact h name b hb hne
  · intro name b hb hne
    simp only [GatewaySystem.finish, Dict.get?_set] at hb
    split_ifs at hb with hn
    · obtain rfl := Option.some.inj hb
      rw [x.recordFailure_state] at hne
      rw [x.recordFailure_config, x.recordFailure_failureCount]
      split_ifs at hne with hle
      · exact hle
      · have := h n x hx hne
        push_cast
        omega
    · exact h name b hb hne
  · exact h

/-- The law holds in every run without late reports. -/
theorem keepsOpen_of_quiet : KeepsOpen Quiet := by
  refine keepsOpen_of_enoughFailures fun es s c now hrun hok name b hc hb => Or.inr ?_
  have htripped : Tripped s := hrun.invariant
    (fun _ _ hb => by simp [gatewayMachine] at hb)
    fun _ _ _ hs hok hst => hs.step hok hst
  have hle := htripped name b hb (hok name b hc hb)
  rw [((reported_of_run hrun).agrees name b hb).count] at hle
  omega

/-- The failure of the `c`-th call, a probe, leaves its breaker half-open. -/
def staysHalfOpen (c : ℕ) (name : String) (now : ℚ) (s : GatewaySystem) : Bool :=
  s.calls[c]? = some (.running name true) && (s.step (.fail c now)).any fun t =>
    (t.breakers.get? name).any fun b => b.state = .halfOpen

/-- Two failures open the breaker, a late success clears its count, and the failure of the
probe leaves it half-open. -/
theorem not_keepsOpen : ¬KeepsOpen fun _ _ => True := by
  intro h
  obtain ⟨s, hrun, hp⟩ := Machine.exists_run gatewayMachine (fun _ _ => True)
    [.call "p" (some ⟨2, 1⟩) "f" 0, .call "p" none "f" 0, .call "p" none "f" 0,
      .fail 0 0, .fail 1 0, .succeed 2, .call "p" none "f" 1]
    (staysHalfOpen 3 "p" 1) (by decide +kernel)
  simp only [staysHalfOpen, Bool.and_eq_true, decide_eq_true_eq, Option.any_eq_true] at hp
  obtain ⟨hc, t, hst, b, hb, hhalf⟩ := hp
  obtain ⟨x, hx, hopen⟩ := h.reopens _ s 3 1 "p" t hrun trivial hc hst
  obtain rfl := Option.some.inj (hb.symm.trans hx)
  rw [hhalf] at hopen
  cases hopen

end ModelGateway

end MultiAgent
