import MultiAgent.Reliability.CircuitBreaker

/-!
# The probes of a half-open breaker

`call` takes one of `half_open_max_calls` admissions for each probe, and only the next
reset gives them back. A half-open breaker is left by `success_threshold` successes or
by one failure, and a cancelled probe is neither : when too many probes of a period are
cancelled, the admissions run out before the threshold, the breaker refuses every
further call, and nothing is left that could change its state (`not_noDeadEnd`).

What a half-open breaker needs is that the successes it counted, the probes in flight
and the admissions left can reach the threshold (`Supplied`). Every step keeps this but
the cancellation of a probe, so no dead end is reachable in the runs whose cancellations
leave enough of them (`noDeadEnd`).
-/

namespace MultiAgent

namespace BaseAdapter

namespace CircuitBreaker

variable (b : CircuitBreaker)

/-- A half-open breaker counts a probe and lets it through, or refuses it. -/
theorem beginCall_halfOpen (now : ℤ) (h : b.state = .halfOpen) :
    (b.config.halfOpenMaxCalls ≤ b.halfOpenCalls ∧ (b.beginCall now).1 = b ∧
        (b.beginCall now).2 ≠ none) ∨
      (b.halfOpenCalls < b.config.halfOpenMaxCalls ∧
        (b.beginCall now).1.halfOpenCalls = b.halfOpenCalls + 1 ∧
        (b.beginCall now).2 = none) := by
  have hne : b.state ≠ .opened := by simp [h]
  unfold beginCall tryProbe
  rw [if_neg hne, if_pos h]
  split_ifs with hmax
  · exact Or.inl ⟨hmax, rfl, by simp⟩
  · exact Or.inr ⟨Int.not_le.mp hmax, rfl, rfl⟩

/-- The call that resets the breaker is its first probe. -/
theorem beginCall_reset (now : ℤ) (ho : b.state = .opened)
    (hr : b.shouldAttemptReset now = true) (hmax : 1 ≤ b.config.halfOpenMaxCalls) :
    (b.beginCall now).1.halfOpenCalls = 1 ∧ (b.beginCall now).2 = none := by
  have hnot : ¬b.config.halfOpenMaxCalls ≤ ((0 : ℕ) : ℤ) := by push_cast; omega
  unfold beginCall tryProbe
  rw [if_pos ho, if_pos hr]
  dsimp only
  rw [if_pos rfl, if_neg hnot]
  exact ⟨rfl, rfl⟩

@[simp] theorem onFailure_successCount (now : ℤ) :
    (b.onFailure now).successCount = b.successCount := by
  unfold onFailure
  dsimp only
  split_ifs <;> rfl

theorem onSuccess_halfOpenCalls : b.onSuccess.halfOpenCalls = b.halfOpenCalls := by
  unfold onSuccess
  dsimp only
  split_ifs <;> rfl

/-- The count of successes stays below the threshold. -/
theorem onSuccess_successCount_lt (h1 : 1 ≤ b.config.successThreshold)
    (h : (b.successCount : ℤ) < b.config.successThreshold) :
    (b.onSuccess.successCount : ℤ) < b.config.successThreshold := by
  unfold onSuccess
  dsimp only
  split_ifs with hs ht
  · push_cast
    omega
  · exact Int.not_le.mp ht
  · exact h

end CircuitBreaker

namespace BreakerSystem

/-- The probes of the current half-open period that are in flight. -/
def probes (s : BreakerSystem) : ℕ :=
  s.calls.count (.running (some s.period))

/-- No call is in flight. -/
def Idle (s : BreakerSystem) : Prop :=
  ∀ x ∈ s.calls, x = .finished

instance (s : BreakerSystem) : Decidable s.Idle :=
  inferInstanceAs (Decidable (∀ x ∈ s.calls, x = .finished))

theorem Idle.probes_eq_zero {s : BreakerSystem} (h : s.Idle) : s.probes = 0 := by
  refine List.count_eq_zero.mpr fun hmem => ?_
  have := h _ hmem
  contradiction

/-- A call that ends is at most one probe less. -/
theorem probes_le_set (s : BreakerSystem) {c : ℕ} {p : Option ℕ}
    (hc : s.calls[c]? = some (.running p)) :
    s.probes ≤ (s.calls.set c .finished).count (.running (some s.period)) +
      if p = some s.period then 1 else 0 := by
  obtain ⟨hlt, hget⟩ := List.getElem?_eq_some_iff.mp hc
  rw [List.count_set hlt, hget]
  unfold probes
  by_cases hp : p = some s.period
  · simp [hp]
    omega
  · simp [hp]

end BreakerSystem

/-! ## No dead end -/

/-- In the runs over `ok`, a half-open breaker with no call in flight has an admission
left, and admits a further call. -/
def NoDeadEnd (cfg : CircuitBreakerConfig) (ok : BreakerSystem → BreakerEvent → Prop) : Prop :=
  ∀ es s, (breakerMachine cfg).Run ok es s → s.Idle → s.breaker.state = .halfOpen →
    s.breaker.halfOpenCalls < cfg.halfOpenMaxCalls ∧
      ∀ now, (s.breaker.beginCall now).2 = none

/-- A probe is cancelled while the breaker is half-open only if the successes counted, the
other probes in flight and the admissions left can still reach the threshold. -/
def LeavesEnoughProbes (s : BreakerSystem) : BreakerEvent → Prop
  | .cancel c =>
    s.breaker.state = .halfOpen → s.calls[c]? = some (.running (some s.period)) →
      s.breaker.config.successThreshold + 1 ≤ s.breaker.successCount + s.probes +
        (s.breaker.config.halfOpenMaxCalls - s.breaker.halfOpenCalls)
  | .call _ => True
  | .succeed _ => True
  | .fail _ _ => True

instance (s : BreakerSystem) (e : BreakerEvent) : Decidable (LeavesEnoughProbes s e) :=
  match e with
  | .cancel _ => inferInstanceAs (Decidable (_ → _ → _))
  | .call _ => inferInstanceAs (Decidable True)
  | .succeed _ => inferInstanceAs (Decidable True)
  | .fail _ _ => inferInstanceAs (Decidable True)

/-- The threshold is not reached yet, and while the breaker is half-open it is within
reach. -/
structure Supplied (cfg : CircuitBreakerConfig) (s : BreakerSystem) : Prop where
  config : s.breaker.config = cfg
  below : s.breaker.successCount < cfg.successThreshold
  enough : s.breaker.state = .halfOpen → cfg.successThreshold ≤
    s.breaker.successCount + s.probes + (cfg.halfOpenMaxCalls - s.breaker.halfOpenCalls)

namespace Supplied

variable {cfg : CircuitBreakerConfig} {s : BreakerSystem}

theorem beginCall (h : Supplied cfg s) (h1 : 1 ≤ cfg.successThreshold)
    (hle : cfg.successThreshold ≤ cfg.halfOpenMaxCalls) (now : ℤ) :
    Supplied cfg (s.beginCall now) where
  config := by simpa [BreakerSystem.beginCall] using h.config
  below := by simpa [BreakerSystem.beginCall] using h.below
  enough hhalf := by
    have hsucc := h.below
    have hcfg := h.config
    simp only [BreakerSystem.beginCall, BreakerSystem.probes,
      CircuitBreaker.beginCall_successCount] at hhalf ⊢
    rcases s.breaker.beginCall_state now with hs | ⟨ho, hr, -⟩
    · have hold : s.breaker.state = .halfOpen := hs ▸ hhalf
      have henough := h.enough hold
      have hnot : ¬s.Resets now := fun hr => by simp [hr.1] at hold
      rw [if_neg hnot]
      rcases s.breaker.beginCall_halfOpen now hold with ⟨-, hb, hraise⟩ | ⟨-, hcount, hin⟩
      · rw [if_neg hraise, hb]
        exact henough
      · -- one admission less, one probe in flight more
        rw [if_pos hin, if_pos hhalf, hcount, List.count_append]
        simp only [BreakerSystem.probes] at henough
        simp only [List.count_singleton_self]
        push_cast
        omega
    · obtain ⟨hcount, hin⟩ := s.breaker.beginCall_reset now ho hr (hcfg ▸ Int.le_trans h1 hle)
      rw [if_pos hin, if_pos hhalf, hcount, List.count_append,
        if_pos (show s.Resets now from ⟨ho, hr⟩)]
      simp only [List.count_singleton_self]
      push_cast
      omega

theorem succeed (h : Supplied cfg s) (h1 : 1 ≤ cfg.successThreshold) {c : ℕ} {p : Option ℕ}
    (hc : s.calls[c]? = some (.running p)) : Supplied cfg (s.succeed c p) where
  config := by simpa [BreakerSystem.succeed] using h.config
  below := by
    have hlt := s.breaker.onSuccess_successCount_lt
    rw [h.config] at hlt
    exact hlt h1 h.below
  enough hhalf := by
    simp only [BreakerSystem.succeed, BreakerSystem.probes] at hhalf ⊢
    by_cases hs : s.breaker.state = .halfOpen
    · rcases s.breaker.onSuccess_halfOpen hs with ⟨-, hclosed⟩ | ⟨-, hcount⟩
      · simp [hclosed] at hhalf
      · have henough := h.enough hs
        have hset := s.probes_le_set hc
        rw [hcount, s.breaker.onSuccess_halfOpenCalls]
        split_ifs at hset <;> push_cast <;> omega
    · exact absurd (s.breaker.onSuccess_state hs ▸ hhalf) hs

theorem fail (h : Supplied cfg s) (c : ℕ) (now : ℤ) : Supplied cfg (s.fail c now) where
  config := by simpa [BreakerSystem.fail] using h.config
  below := by simpa [BreakerSystem.fail] using h.below
  enough hhalf := by
    simp only [BreakerSystem.fail] at hhalf
    rcases s.breaker.onFailure_state now with ho | ⟨hne, hs⟩
    · simp [ho] at hhalf
    · exact absurd (hs ▸ hhalf) hne

theorem cancel (h : Supplied cfg s) {c : ℕ} {p : Option ℕ}
    (hc : s.calls[c]? = some (.running p)) (hok : LeavesEnoughProbes s (.cancel c)) :
    Supplied cfg (s.cancel c) where
  config := h.config
  below := h.below
  enough hhalf := by
    have henough := h.enough hhalf
    have hset := s.probes_le_set hc
    simp only [BreakerSystem.cancel, BreakerSystem.probes]
    split_ifs at hset with hp
    · have hleft := hok hhalf (by rw [hc, hp])
      rw [h.config] at hleft
      omega
    · omega

/-- Every step that leaves enough probes keeps the threshold within reach. -/
theorem step (h : Supplied cfg s) (h1 : 1 ≤ cfg.successThreshold)
    (hle : cfg.successThreshold ≤ cfg.halfOpenMaxCalls) {e : BreakerEvent} {t : BreakerSystem}
    (hok : LeavesEnoughProbes s e) (hst : s.step e = some t) : Supplied cfg t := by
  rcases BreakerSystem.step_cases hst with ⟨now, rfl, rfl⟩ | ⟨c, p, rfl, hc, rfl⟩ |
    ⟨c, p, now, rfl, hc, rfl⟩ | ⟨c, p, rfl, hc, rfl⟩
  · exact h.beginCall h1 hle now
  · exact h.succeed h1 hc
  · exact h.fail c now
  · exact h.cancel hc hok

end Supplied

/-- No dead end is reachable when every cancellation leaves enough probes. -/
theorem noDeadEnd (cfg : CircuitBreakerConfig) (h1 : 1 ≤ cfg.successThreshold)
    (hle : cfg.successThreshold ≤ cfg.halfOpenMaxCalls) : NoDeadEnd cfg LeavesEnoughProbes := by
  intro es s hrun hidle hhalf
  have hinv : Supplied cfg s := hrun.invariant
    ⟨rfl, by simp only [breakerMachine]; omega, fun hh => by simp [breakerMachine] at hh⟩
    fun _ _ _ hs hok hst => hs.step h1 hle hok hst
  have hlt : s.breaker.halfOpenCalls < cfg.halfOpenMaxCalls := by
    have henough := hinv.enough hhalf
    have hbelow := hinv.below
    rw [hidle.probes_eq_zero] at henough
    push_cast at henough
    omega
  refine ⟨hlt, fun now => ?_⟩
  rcases s.breaker.beginCall_halfOpen now hhalf with ⟨hmax, -⟩ | ⟨-, -, hin⟩
  · rw [hinv.config] at hmax
    omega
  · exact hin

/-- The breaker is half-open with `n` probes counted, and no call is in flight. -/
def idleWith (n : ℕ) (s : BreakerSystem) : Bool :=
  s.Idle && s.breaker.state = .halfOpen && s.breaker.halfOpenCalls = n

theorem idleWith_iff {n : ℕ} {s : BreakerSystem} : idleWith n s = true ↔
    s.Idle ∧ s.breaker.state = .halfOpen ∧ s.breaker.halfOpenCalls = n := by
  simp [idleWith, and_assoc]

/-- A breaker that one success closes, with the given number of admissions. -/
def oneSuccess (n : ℤ) : CircuitBreakerConfig :=
  { failureThreshold := 1, successThreshold := 1, timeoutMs := 0, halfOpenMaxCalls := n }

/-- Of two admissions one may be spent on a probe that is cancelled. -/
theorem noDeadEnd_two : ∃ es s, (breakerMachine (oneSuccess 2)).Run LeavesEnoughProbes es s ∧
    s.breaker.state = .halfOpen ∧ s.breaker.halfOpenCalls = 1 ∧
    (s.breaker.beginCall 5).2 = none := by
  obtain ⟨s, hrun, hp⟩ := Machine.exists_run (breakerMachine (oneSuccess 2)) LeavesEnoughProbes
    [.call 0, .fail 0 0, .call 1, .cancel 1] (idleWith 1) (by decide)
  obtain ⟨hidle, hhalf, hcalls⟩ := idleWith_iff.mp hp
  have hnext := noDeadEnd (oneSuccess 2) (by decide) (by decide) _ s hrun hidle hhalf
  exact ⟨_, s, hrun, hhalf, hcalls, hnext.2 5⟩

/-- The only probe of a half-open breaker is cancelled : it stays half-open and admits
no further call. -/
theorem not_noDeadEnd :
    ¬∀ cfg : CircuitBreakerConfig, 1 ≤ cfg.successThreshold →
      cfg.successThreshold ≤ cfg.halfOpenMaxCalls → NoDeadEnd cfg fun _ _ => True := by
  intro h
  obtain ⟨s, hrun, hp⟩ := Machine.exists_run (breakerMachine (oneSuccess 1)) (fun _ _ => True)
    [.call 0, .fail 0 0, .call 1, .cancel 1] (idleWith 1) (by decide)
  obtain ⟨hidle, hhalf, hcalls⟩ := idleWith_iff.mp hp
  have hlt := (h (oneSuccess 1) (by decide) (by decide) _ s hrun hidle hhalf).1
  rw [hcalls] at hlt
  exact absurd hlt (by decide)

end BaseAdapter

end MultiAgent
