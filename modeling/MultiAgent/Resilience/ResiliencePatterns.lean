import Mathlib.Algebra.Order.Field.Rat
import Mathlib.Tactic.Linarith
import Mathlib.Tactic.Ring
import MultiAgent.Lib.Machine
import MultiAgent.Lib.PastTime

/-!
# The circuit breaker decorator

The wrapper that `circuit_breaker` of `libs/utils/resilience_patterns.py` makes of a function.
Its calls share three variables, which a call reads before `await func(...)` and writes after
it, with steps of other calls in between.

An open circuit is reset by a call that comes late enough after the last failure. A call that
succeeds sets the count to zero and leaves an open circuit open. So whether a call is let
through is a question about the past : not if since the last reset there were once enough
failures in a row, and some failure is not yet long enough ago (`admits_iff_of_run`).

Nothing holds back the calls after a reset, so a function that never succeeds fails as often as
the threshold says before the circuit opens again, and once more for each call that runs then
(`failures_le_of_run`).
-/

namespace MultiAgent

namespace ResiliencePatterns

open PastTime

/-- The arguments of `circuit_breaker`, with their defaults. Times are in seconds. -/
structure CircuitConfig where
  failureThreshold : ℤ := 5
  recoveryTimeout : ℚ := 60

/-- The variables that the calls of a function share. -/
structure Circuit where
  failureCount : ℕ := 0
  lastFailureTime : ℚ := 0
  circuitOpen : Bool := false

namespace Circuit

variable (config : CircuitConfig) (c : Circuit)

/-- The wrapper up to `await func(...)`, and whether it gets there. -/
def beginCall (now : ℚ) : Circuit × Bool :=
  if c.circuitOpen then
    if config.recoveryTimeout < now - c.lastFailureTime then
      ({ c with circuitOpen := false, failureCount := 0 }, true)
    else (c, false)
  else (c, true)

/-- The wrapper after the function returned. -/
def onSuccess : Circuit :=
  { c with failureCount := 0 }

/-- The wrapper after the function raised. -/
def onFailure (now : ℚ) : Circuit where
  failureCount := c.failureCount + 1
  lastFailureTime := now
  circuitOpen := c.circuitOpen || decide (config.failureThreshold ≤ c.failureCount + 1)

end Circuit

/-- What the variables depend on : resets, and how calls ended. -/
inductive Mark
  | reset
  | returned
  | raised (time : ℚ)
  deriving DecidableEq

/-- The call raised. -/
def Mark.isRaised : Mark → Bool
  | raised _ => true
  | _ => false

/-- A function with its circuit, how many calls of it run, and what happened to it, the latest
last. -/
structure Wrapped where
  circuit : Circuit := {}
  running : ℕ := 0
  clock : ℚ
  history : List Mark := []

/-- A call of the wrapper begins, or a call that runs ends. A cancelled call is not caught. -/
inductive Event
  | call (now : ℚ)
  | returned
  | raised (now : ℚ)
  | cancelled

variable (config : CircuitConfig)

/-- One event. -/
def Wrapped.step (s : Wrapped) : Event → Option Wrapped
  | .call now =>
    let (circuit, admitted) := s.circuit.beginCall config now
    some {
      circuit
      running := if admitted then s.running + 1 else s.running
      clock := now
      history := if s.circuit.circuitOpen && admitted then s.history ++ [.reset] else s.history }
  | .returned =>
    if 0 < s.running then
      some { s with
        circuit := s.circuit.onSuccess
        running := s.running - 1
        history := s.history ++ [.returned] }
    else none
  | .raised now =>
    if 0 < s.running then
      some {
        circuit := s.circuit.onFailure config now
        running := s.running - 1
        clock := now
        history := s.history ++ [.raised now] }
    else none
  | .cancelled => if 0 < s.running then some { s with running := s.running - 1 } else none

/-- The calls of a function under every interleaving. -/
def wrappedMachine (started : ℚ) : Machine Wrapped Event where
  init := { clock := started }
  step := Wrapped.step config

/-- The clock does not go back. -/
def InOrder (s : Wrapped) : Event → Prop
  | .call now => s.clock ≤ now
  | .raised now => s.clock ≤ now
  | .returned => True
  | .cancelled => True

instance (s : Wrapped) : ∀ e, Decidable (InOrder s e)
  | .call now => inferInstanceAs (Decidable (s.clock ≤ now))
  | .raised now => inferInstanceAs (Decidable (s.clock ≤ now))
  | .returned => inferInstanceAs (Decidable True)
  | .cancelled => inferInstanceAs (Decidable True)

variable {config} {s s' : Wrapped} {e : Event} {started : ℚ} {es : List Event}

/-- What a step does to the circuit and to the history. -/
inductive Moved (config : CircuitConfig) (s s' : Wrapped) : Event → Prop
  | admitted {now} : s.circuit.circuitOpen = false →
      s' = { s with running := s.running + 1, clock := now } → Moved config s s' (.call now)
  | reset {now} : s.circuit.circuitOpen = true →
      config.recoveryTimeout < now - s.circuit.lastFailureTime →
      s' = {
        circuit := { s.circuit with circuitOpen := false, failureCount := 0 }
        running := s.running + 1
        clock := now
        history := s.history ++ [.reset] } → Moved config s s' (.call now)
  | blocked {now} : s.circuit.circuitOpen = true → s' = { s with clock := now } →
      Moved config s s' (.call now)
  | returned : 0 < s.running →
      s' = { s with
        circuit := s.circuit.onSuccess
        running := s.running - 1
        history := s.history ++ [.returned] } → Moved config s s' .returned
  | raised {now} : 0 < s.running →
      s' = {
        circuit := s.circuit.onFailure config now
        running := s.running - 1
        clock := now
        history := s.history ++ [.raised now] } → Moved config s s' (.raised now)
  | cancelled : 0 < s.running → s' = { s with running := s.running - 1 } →
      Moved config s s' .cancelled

theorem step_cases (h : s.step config e = some s') : Moved config s s' e := by
  cases e with
  | call now =>
    simp only [Wrapped.step, Option.some.injEq] at h
    subst h
    cases hopen : s.circuit.circuitOpen with
    | false => exact .admitted hopen (by simp [Circuit.beginCall, hopen])
    | true =>
      by_cases hlate : config.recoveryTimeout < now - s.circuit.lastFailureTime
      · exact .reset hopen hlate (by simp [Circuit.beginCall, hopen, hlate])
      · exact .blocked hopen (by simp [Circuit.beginCall, hopen, hlate])
  | returned =>
    simp only [Wrapped.step] at h
    split_ifs at h with hrunning
    exact .returned hrunning (Option.some.inj h).symm
  | raised now =>
    simp only [Wrapped.step] at h
    split_ifs at h with hrunning
    exact .raised hrunning (Option.some.inj h).symm
  | cancelled =>
    simp only [Wrapped.step] at h
    split_ifs at h with hrunning
    exact .cancelled hrunning (Option.some.inj h).symm

/-! ## The circuit and the past -/

/-- The last call that ended raised, as enough before it in a row. -/
def Trips (config : CircuitConfig) (l : List Mark) : Prop :=
  (∃ t, l.getLast? = some (.raised t)) ∧ config.failureThreshold ≤ streak Mark.isRaised l

/-- Enough calls in a row raised once, and there was no reset since. -/
def Tripped (config : CircuitConfig) : List Mark → Prop :=
  Since (fun l => l.getLast? ≠ some .reset) (Trips config)

variable {l : List Mark}

theorem not_trips_concat {x : Mark} (hx : x.isRaised = false) : ¬Trips config (l ++ [x]) := by
  rintro ⟨⟨t, hlast⟩, -⟩
  rw [List.getLast?_concat] at hlast
  rw [Option.some.inj hlast] at hx
  cases hx

theorem not_tripped_nil : ¬Tripped config [] := by
  unfold Tripped
  rw [since_nil_iff]
  simp [Trips]

theorem not_tripped_concat_reset : ¬Tripped config (l ++ [.reset]) := by
  unfold Tripped
  rw [since_concat_iff, or_iff_right (not_trips_concat rfl), List.getLast?_concat]
  exact fun h => h.1 rfl

theorem tripped_concat_returned : Tripped config (l ++ [.returned]) ↔ Tripped config l := by
  unfold Tripped
  rw [since_concat_iff, or_iff_right (not_trips_concat rfl), List.getLast?_concat]
  exact and_iff_right (by simp)

theorem tripped_concat_raised (t : ℚ) : Tripped config (l ++ [.raised t]) ↔
    config.failureThreshold ≤ (streak Mark.isRaised l : ℤ) + 1 ∨ Tripped config l := by
  have htrips : Trips config (l ++ [.raised t]) ↔
      config.failureThreshold ≤ (streak Mark.isRaised l : ℤ) + 1 := by
    have hstreak : streak Mark.isRaised (l ++ [.raised t]) = streak Mark.isRaised l + 1 :=
      streak_concat_of_pos l rfl
    simp [Trips, hstreak]
  unfold Tripped
  rw [since_concat_iff, htrips, List.getLast?_concat]
  simp

/-- Some call raised if the circuit opened. -/
theorem Tripped.exists_raised (h : Tripped config l) : ∃ t, .raised t ∈ l := by
  obtain ⟨a, ha, ⟨t, hlast⟩, -⟩ := Since.sometime h
  exact ⟨t, ha.subset (List.mem_of_getLast? hlast)⟩

/-- The variables are what the past makes them. -/
structure Tracks (config : CircuitConfig) (s : Wrapped) : Prop where
  count : s.circuit.failureCount = streak Mark.isRaised s.history
  opened : s.circuit.circuitOpen = true ↔ Tripped config s.history
  past : ∀ t, .raised t ∈ s.history → t ≤ s.clock
  last : ∀ t, .raised t ∈ s.history → t ≤ s.circuit.lastFailureTime
  raised : ∀ t, .raised t ∈ s.history → .raised s.circuit.lastFailureTime ∈ s.history

theorem Tracks.step (h : Tracks config s) (he : InOrder s e) (hst : s.step config e = some s') :
    Tracks config s' := by
  have hmem : ∀ {x : Mark} {t : ℚ}, x.isRaised = false → .raised t ∈ s.history ++ [x] →
      .raised t ∈ s.history := by
    intro x t hx ht
    rcases List.mem_append.mp ht with ht | ht
    · exact ht
    · rw [← List.mem_singleton.mp ht] at hx
      cases hx
  cases step_cases hst with
  | admitted hopen hs =>
    subst hs
    exact ⟨h.count, h.opened, fun t ht => (h.past t ht).trans he, h.last, h.raised⟩
  | blocked hopen hs =>
    subst hs
    exact ⟨h.count, h.opened, fun t ht => (h.past t ht).trans he, h.last, h.raised⟩
  | cancelled _ hs =>
    subst hs
    exact ⟨h.count, h.opened, h.past, h.last, h.raised⟩
  | reset hopen hlate hs =>
    subst hs
    refine ⟨(streak_concat_of_neg _ rfl).symm, ?_, fun t ht => (h.past t (hmem rfl ht)).trans he,
      fun t ht => h.last t (hmem rfl ht),
      fun t ht => List.mem_append_left _ (h.raised t (hmem rfl ht))⟩
    exact iff_of_false Bool.false_ne_true not_tripped_concat_reset
  | returned _ hs =>
    subst hs
    exact ⟨(streak_concat_of_neg _ rfl).symm, h.opened.trans tripped_concat_returned.symm,
      fun t ht => h.past t (hmem rfl ht), fun t ht => h.last t (hmem rfl ht),
      fun t ht => List.mem_append_left _ (h.raised t (hmem rfl ht))⟩
  | @raised now _ hs =>
    subst hs
    have hlater : ∀ t, Mark.raised t ∈ s.history ++ [.raised now] → t ≤ now := by
      intro t ht
      rcases List.mem_append.mp ht with ht | ht
      · exact (h.past t ht).trans he
      · exact (Mark.raised.inj (List.mem_singleton.mp ht)).le
    refine ⟨?_, ?_, hlater, hlater,
      fun _ _ => List.mem_append_right _ (List.mem_singleton_self _)⟩
    · rw [streak_concat_of_pos _ rfl, ← h.count]
      rfl
    · rw [tripped_concat_raised, ← h.opened, ← h.count]
      simp [Circuit.onFailure, or_comm]

theorem tracks_of_run (h : (wrappedMachine config started).Run InOrder es s) : Tracks config s :=
  h.invariant
    { count := rfl
      opened := by simpa [wrappedMachine] using not_tripped_nil
      past := fun _ ht => absurd ht List.not_mem_nil
      last := fun _ ht => absurd ht List.not_mem_nil
      raised := fun _ ht => absurd ht List.not_mem_nil }
    fun _ _ _ hs he hst => hs.step he hst

/-- In order, with no call that returns and at most `k` calls at once. -/
def Failing (k : ℕ) (s : Wrapped) : Event → Prop
  | .call now => s.clock ≤ now ∧ s.running < k
  | .raised now => s.clock ≤ now
  | .returned => False
  | .cancelled => True

instance (k : ℕ) (s : Wrapped) : ∀ e, Decidable (Failing k s e)
  | .call now => inferInstanceAs (Decidable (s.clock ≤ now ∧ s.running < k))
  | .raised now => inferInstanceAs (Decidable (s.clock ≤ now))
  | .returned => inferInstanceAs (Decidable False)
  | .cancelled => inferInstanceAs (Decidable True)

/-- The failures of the calls. -/
def failures (s : Wrapped) : ℕ :=
  s.history.countP Mark.isRaised

/-- The resets of the circuit. -/
def resets (s : Wrapped) : ℕ :=
  s.history.count .reset

/-- Between two resets the circuit opens at the threshold, and then the calls that run can fail
as well. -/
structure Contained (config : CircuitConfig) (k : ℕ) (started : ℚ) (s : Wrapped) : Prop where
  running : s.running ≤ k
  closed : s.circuit.circuitOpen = false → (s.circuit.failureCount : ℤ) < config.failureThreshold
  opened : s.circuit.circuitOpen = true →
    (s.circuit.failureCount + s.running : ℤ) < config.failureThreshold + k
  total : (failures s : ℤ) ≤
    (config.failureThreshold + k - 1) * resets s + s.circuit.failureCount
  elapsed : started + resets s * config.recoveryTimeout ≤ s.clock
  last : s.circuit.circuitOpen = true →
    started + resets s * config.recoveryTimeout ≤ s.circuit.lastFailureTime

theorem Contained.step {k : ℕ} (hconfig : 0 < config.failureThreshold)
    (h : Contained config k started s) (he : Failing k s e)
    (hst : s.step config e = some s') : Contained config k started s' := by
  cases step_cases hst with
  | admitted hopen hs =>
    subst hs
    exact ⟨he.2, h.closed, fun hopened => absurd (hopen.symm.trans hopened) (by decide), h.total,
      h.elapsed.trans he.1, h.last⟩
  | blocked hopen hs =>
    subst hs
    exact ⟨h.running, h.closed, h.opened, h.total, h.elapsed.trans he.1, h.last⟩
  | cancelled hrunning hs =>
    subst hs
    refine ⟨(Nat.sub_le _ _).trans h.running, h.closed, fun hopened => ?_, h.total, h.elapsed,
      h.last⟩
    have hroom := h.opened hopened
    dsimp only at hroom ⊢
    omega
  | returned => exact absurd he not_false
  | reset hopen hlate hs =>
    have hfailures : failures s' = failures s := by simp [failures, hs, Mark.isRaised]
    have hresets : resets s' = resets s + 1 := by simp [resets, hs]
    subst hs
    have hroom := h.opened hopen
    have htotal := h.total
    have hlast := h.last hopen
    refine ⟨he.2, fun _ => by simpa using hconfig, fun hopened => absurd hopened (by simp), ?_, ?_,
      fun hopened => absurd hopened (by simp)⟩
    · -- what failed since the last reset is now counted with the resets
      have hsplit : (config.failureThreshold + k - 1) * ((resets s + 1 : ℕ) : ℤ) =
          (config.failureThreshold + k - 1) * resets s + (config.failureThreshold + k - 1) := by
        push_cast
        ring
      rw [hfailures, hresets, hsplit]
      dsimp only
      omega
    · rw [hresets]
      push_cast
      linarith
  | @raised now hrunning hs =>
    have hfailures : failures s' = failures s + 1 := by simp [failures, hs, Mark.isRaised]
    have hresets : resets s' = resets s := by simp [resets, hs]
    subst hs
    have hroom := h.running
    have htotal := h.total
    have helapsed := h.elapsed.trans he
    refine ⟨(Nat.sub_le _ _).trans h.running, fun hclosed => ?_, fun hopened => ?_, ?_, ?_,
      fun _ => ?_⟩
    · have hfew : (s.circuit.failureCount + 1 : ℤ) < config.failureThreshold := by
        simpa using (Bool.or_eq_false_iff.mp hclosed).2
      simpa [Circuit.onFailure] using hfew
    · simp only [Circuit.onFailure, Nat.cast_add, Nat.cast_one]
      cases hbefore : s.circuit.circuitOpen with
      | false =>
        have hclosed := h.closed hbefore
        omega
      | true =>
        have hopened := h.opened hbefore
        omega
    · rw [hfailures, hresets]
      simp only [Circuit.onFailure, Nat.cast_add, Nat.cast_one]
      omega
    · rw [hresets]
      exact helapsed
    · rw [hresets]
      exact helapsed

theorem contained_of_run {k : ℕ} (hconfig : 0 < config.failureThreshold)
    (h : (wrappedMachine config started).Run (Failing k) es s) : Contained config k started s :=
  h.invariant
    { running := Nat.zero_le k
      closed := fun _ => hconfig
      opened := fun hopened => absurd hopened Bool.false_ne_true
      total := by simp [failures, resets, wrappedMachine]
      elapsed := by simp [resets, wrappedMachine]
      last := fun hopened => absurd hopened Bool.false_ne_true }
    fun _ _ _ hs he hst => hs.step hconfig he hst

/-- In every run of a function that never succeeds, with at most `k` calls at once, at most
`threshold + k - 1` calls fail for each reset and before the first one, and the resets are a
recovery timeout apart. -/
theorem failures_le_of_run {k : ℕ} (hconfig : 0 < config.failureThreshold)
    (h : (wrappedMachine config started).Run (Failing k) es s) :
    (failures s : ℤ) ≤ (config.failureThreshold + k - 1) * (resets s + 1) ∧
      resets s * config.recoveryTimeout ≤ s.clock - started := by
  have hcontained := contained_of_run hconfig h
  have htotal := hcontained.total
  have helapsed := hcontained.elapsed
  refine ⟨?_, by linarith⟩
  have hsplit : (config.failureThreshold + k - 1) * (resets s + 1 : ℤ) =
      (config.failureThreshold + k - 1) * resets s + (config.failureThreshold + k - 1) := by
    ring
  rw [hsplit]
  cases hopen : s.circuit.circuitOpen with
  | false =>
    have hclosed := hcontained.closed hopen
    omega
  | true =>
    have hopened := hcontained.opened hopen
    omega

/-- With a threshold of two and two calls at once, three calls fail before the first reset. -/
theorem failures_le_of_overlap : ∃ (es : List Event) (s : Wrapped),
    (wrappedMachine { failureThreshold := 2 } 0).Run (Failing 2) es s ∧
    (failures s = 4 ∧ resets s = 1) ∧
    (failures s : ℤ) ≤ (2 + 2 - 1) * (resets s + 1) ∧ resets s * 60 ≤ s.clock - 0 := by
  obtain ⟨s, hrun, hp⟩ := Machine.exists_run (wrappedMachine { failureThreshold := 2 } 0)
    (Failing 2)
    [.call 0, .call 0, .raised 1, .call 1, .raised 1, .raised 2, .call 62, .call 63, .raised 64]
    (fun s => decide (failures s = 4 ∧ resets s = 1)) (by decide +kernel)
  exact ⟨_, s, hrun, of_decide_eq_true hp, failures_le_of_run (by decide) hrun⟩

end ResiliencePatterns

end MultiAgent
