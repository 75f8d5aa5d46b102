import Mathlib.Algebra.Order.Ring.Rat
import MultiAgent.Adapters.RetryLoops

/-!
# Where the retry loops agree

Each of the three loops ends with the last call that it should make exactly if it can compute the
delays after the calls before (`RetryPolicy.execute_agrees_iff`,
`RetryManager.callWithRetry_agrees_iff`), and the second if moreover no log line misses a name
(`RetryAdapter.call_agrees_iff`). Their passes are read as those of the library's loop : what a
pass does that should be repeated (`attempt_retried`), and what the last one does
(`attempt_last`). `retriesAgree_iff` puts the three together.
-/

namespace MultiAgent

namespace Retries

open ForLoop
open BaseAdapter (RetryManager)

variable {ε α : Type}

section Facts

variable {isRetryable : RetryError ε → Bool} {maxAttempts : ℤ} {func : Func ε α} {σ : Type}
  {p : ℕ} {r : Ended σ ε α}

theorem exists_isLastCall (isRetryable : RetryError ε → Bool) (func : Func ε α)
    (h : 1 ≤ maxAttempts) : ∃ p, IsLastCall isRetryable maxAttempts func p :=
  exists_isLast _ (by omega)

theorem agrees_iff (hp : IsLastCall isRetryable maxAttempts func p) :
    Agrees isRetryable maxAttempts func r ↔ EndsWith isRetryable func p r := by
  constructor
  · rintro ⟨q, hq, hr⟩
    exact hq.unique hp ▸ hr
  · intro hr
    exact ⟨p, hp, hr⟩

/-- A loop that ends with the last call makes as many as the smaller of the bound and the position
of the first call that is not to be repeated. -/
theorem Agrees.calls_eq_min (h : Agrees isRetryable maxAttempts func r) {q : ℕ}
    (hbefore : ∀ i < q, retries isRetryable (func.outcomes i) = true)
    (hstop : retries isRetryable (func.outcomes q) = false) :
    r.calls = min maxAttempts.toNat (q + 1) := by
  obtain ⟨p, hp, hends⟩ := h
  rw [hends.calls, hp.eq_min hbefore hstop]

theorem delaysComputed_iff (hp : IsLastCall isRetryable maxAttempts func p) {first : ℕ}
    {calculateDelay : ℕ → Except (RetryError ε) ℚ} :
    DelaysComputed isRetryable maxAttempts func first calculateDelay ↔
      ∀ i < p, ∃ delay, calculateDelay (i + first) = .ok delay := by
  refine forall_congr' fun i => ?_
  rw [hp.lt_iff i, and_imp]
  have hbound : (i : ℤ) + 1 < maxAttempts ↔ i + 1 < maxAttempts.toNat := by omega
  rw [hbound]

theorem raised_of_retries {o : Outcome ε α} (h : retries isRetryable o = true) :
    ∃ e, o = .raised e ∧ isRetryable (.function e) = true := by
  cases o with
  | raised e => exact ⟨e, rfl, h⟩
  | _ => cases h

/-- A call that is to be repeated raises a retryable exception, and is not the last attempt. -/
theorem raised_of_lt (hp : IsLastCall isRetryable maxAttempts func p) {i : ℕ} (hi : i < p) :
    (∃ e, func.outcomes i = .raised e ∧ isRetryable (.function e) = true) ∧
      (i : ℤ) + 1 < maxAttempts := by
  have hlt := hp.lt
  exact ⟨raised_of_retries (hp.before i hi), by omega⟩

/-- If the last call raises a retryable exception, no attempts are left. -/
theorem eq_of_raised (hp : IsLastCall isRetryable maxAttempts func p) {e : ε}
    (ho : func.outcomes p = .raised e) (he : isRetryable (.function e) = true) :
    (p : ℤ) + 1 = maxAttempts := by
  have hlt := hp.lt
  by_contra hne
  have hstop := hp.stops (by omega)
  rw [ho] at hstop
  exact Bool.false_ne_true (hstop.symm.trans he)

theorem endsWith_returned {v : α} (ho : func.outcomes p = .returned v) :
    EndsWith isRetryable func p r ↔ r.calls = p + 1 ∧ r.outcome = .ok v := by
  constructor
  · intro h
    exact ⟨h.calls, h.returned v ho⟩
  · rintro ⟨hcalls, hr⟩
    refine ⟨hcalls, fun v' ho' => ?_, fun e ho' => ?_, fun e ho' => ?_⟩ <;>
      cases ho.symm.trans ho'
    exact hr

theorem endsWith_interrupted {e : ε} (ho : func.outcomes p = .interrupted e) :
    EndsWith isRetryable func p r ↔ r.calls = p + 1 ∧ r.outcome = .error (.function e) := by
  constructor
  · intro h
    exact ⟨h.calls, h.interrupted e ho⟩
  · rintro ⟨hcalls, hr⟩
    refine ⟨hcalls, fun v ho' => ?_, fun e' ho' => ?_, fun e' ho' => ?_⟩ <;>
      cases ho.symm.trans ho'
    exact hr

theorem endsWith_raised {e : ε} (ho : func.outcomes p = .raised e) :
    EndsWith isRetryable func p r ↔ r.calls = p + 1 ∧ ∃ x, r.outcome = .error x ∧
      (isRetryable (.function e) = false → x = .function e) := by
  constructor
  · intro h
    exact ⟨h.calls, h.raised e ho⟩
  · rintro ⟨hcalls, hr⟩
    refine ⟨hcalls, fun v ho' => ?_, fun e' ho' => ?_, fun e' ho' => ?_⟩ <;>
      cases ho.symm.trans ho'
    exact hr

theorem eq_zero_of_stops (hp : IsLastCall isRetryable maxAttempts func p)
    (hstop : retries isRetryable (func.outcomes 0) = false) : p = 0 := by
  have hlt := hp.lt
  exact hp.unique ⟨by omega, nofun, fun _ => hstop⟩

/-- Once the delay is computed a loop has made `n` calls and goes on; if it cannot be, the loop has
ended after them. -/
def GoesOn {τ : Type} (calls : τ → ℕ) (n : ℕ) :
    Except (RetryError ε) ℚ → Ended σ ε α ⊕ τ → Prop
  | .ok _, .inr t => calls t = n
  | .error _, .inl r => r.calls = n
  | _, _ => False

/-- A loop whose passes go on after a call that should be repeated, and end with the last one, ends
with the last call exactly if it can compute the delays before. -/
theorem agrees_forLoop_iff {τ : Type} {body : ℕ → τ → Ended σ ε α ⊕ τ} {after : τ → Ended σ ε α}
    {calls : τ → ℕ} {first : ℕ} {calculateDelay : ℕ → Except (RetryError ε) ℚ}
    (h : 1 ≤ maxAttempts)
    (hretried : ∀ s e, func.outcomes (calls s) = .raised e → isRetryable (.function e) = true →
      (calls s : ℤ) + 1 < maxAttempts →
        GoesOn calls (calls s + 1) (calculateDelay (calls s + first)) (body (calls s + first) s))
    (hlast : ∀ s, IsLastCall isRetryable maxAttempts func (calls s) →
      ∃ r, body (calls s + first) s = .inl r ∧ EndsWith isRetryable func (calls s) r)
    {s : τ} (hs : calls s = 0) :
    Agrees isRetryable maxAttempts func
        (forLoop body after ((List.range' 0 maxAttempts.toNat).map (· + first)) s) ↔
      DelaysComputed isRetryable maxAttempts func first calculateDelay := by
  obtain ⟨p, hp⟩ := exists_isLastCall isRetryable func h
  rw [agrees_iff hp, delaysComputed_iff hp]
  refine (forLoop_iff (I := fun i s => calls s = i) (C := True) hp.lt ?_ ?_ ?_ hs).trans
    (and_iff_left trivial)
  · rintro i hi ⟨delay, hdelay⟩ s rfl
    obtain ⟨⟨e, ho, he⟩, hmore⟩ := raised_of_lt hp hi
    have hgoes := hretried s e ho he hmore
    cases hbody : body (calls s + first) s with
    | inl r => simp [hdelay, hbody, GoesOn] at hgoes
    | inr t => exact ⟨t, rfl, by simpa [hdelay, hbody, GoesOn] using hgoes⟩
  · rintro i hi hnot s rfl
    obtain ⟨⟨e, ho, he⟩, hmore⟩ := raised_of_lt hp hi
    have hgoes := hretried s e ho he hmore
    cases hdelay : calculateDelay (calls s + first) with
    | ok delay => exact absurd ⟨delay, hdelay⟩ hnot
    | error x =>
      cases hbody : body (calls s + first) s with
      | inr t => simp [hdelay, hbody, GoesOn] at hgoes
      | inl r =>
        -- the loop ends too early
        have hcalls : r.calls = calls s + 1 := by simpa [hdelay, hbody, GoesOn] using hgoes
        refine ⟨r, rfl, fun hends => ?_⟩
        have hall := hends.calls
        omega
  · rintro s rfl
    obtain ⟨r, hr, hends⟩ := hlast s hp
    exact ⟨r, hr, iff_of_true hends trivial⟩

end Facts

/-! ## Each loop -/

section Loops

variable {c : RetryConfig ε} {isRetryable : RetryError ε → Bool} {func : Func ε α}

namespace RetryPolicy

theorem attempt_retried (c : RetryConfig ε) {number calls : ℕ} {e : ε}
    (ho : func.outcomes calls = .raised e) (he : isRetryable (.function e) = true)
    (hmore : (number : ℤ) < c.maxAttempts) :
    GoesOn id (calls + 1) (c.calculateDelay number) (attempt c isRetryable func number calls) := by
  unfold attempt
  simp only [ho]
  rw [if_neg (by simp [he]), if_neg (by omega)]
  cases c.calculateDelay number <;> rfl

theorem attempt_last {p : ℕ} (hp : IsLastCall isRetryable c.maxAttempts func p) :
    ∃ r, attempt c isRetryable func (p + 1) p = .inl r ∧ EndsWith isRetryable func p r := by
  unfold attempt
  cases ho : func.outcomes p with
  | returned v => exact ⟨_, rfl, (endsWith_returned ho).mpr ⟨rfl, rfl⟩⟩
  | interrupted e => exact ⟨_, rfl, (endsWith_interrupted ho).mpr ⟨rfl, rfl⟩⟩
  | raised e =>
    dsimp only
    split_ifs with hnot hused
    · exact ⟨⟨p + 1, (), _⟩, rfl, (endsWith_raised ho).mpr ⟨rfl, _, rfl, fun _ => rfl⟩⟩
    · exact ⟨⟨p + 1, (), _⟩, rfl, (endsWith_raised ho).mpr ⟨rfl, _, rfl, fun hf => absurd hf hnot⟩⟩
    · have hlast := eq_of_raised hp ho (by simpa using hnot)
      omega

/-- `execute` ends with the last call exactly if it can compute the delays before. -/
theorem execute_agrees_iff (c : RetryConfig ε) (isRetryable : RetryError ε → Bool)
    (func : Func ε α) (h : 1 ≤ c.maxAttempts) :
    Agrees isRetryable c.maxAttempts func (execute c isRetryable func) ↔
      DelaysComputed isRetryable c.maxAttempts func 1 c.calculateDelay := by
  rw [execute, range'_one]
  exact agrees_forLoop_iff h
    (fun _ _ ho he hmore => attempt_retried c ho he (by exact_mod_cast hmore))
    (fun _ hp => attempt_last hp) rfl

end RetryPolicy

namespace RetryManager

theorem attempt_retried (c : RetryConfig ε) {number : ℕ} {s : State ε} {e : ε}
    (ho : func.outcomes s.calls = .raised e) (he : isRetryable (.function e) = true)
    (hmore : (number : ℤ) + 1 < c.maxAttempts) :
    GoesOn State.calls (s.calls + 1) (c.calculateDelay number)
      (attempt c (some isRetryable) func number s) := by
  unfold attempt
  simp only [ho]
  rw [if_neg (by simp [refuses, he]), if_neg (by omega)]
  cases c.calculateDelay number <;> rfl

theorem attempt_last {s : State ε} (hp : IsLastCall isRetryable c.maxAttempts func s.calls) :
    ∃ r, attempt c (some isRetryable) func s.calls s = .inl r ∧
      EndsWith isRetryable func s.calls r := by
  unfold attempt
  cases ho : func.outcomes s.calls with
  | returned v => exact ⟨_, rfl, (endsWith_returned ho).mpr ⟨rfl, rfl⟩⟩
  | interrupted e => exact ⟨_, rfl, (endsWith_interrupted ho).mpr ⟨rfl, rfl⟩⟩
  | raised e =>
    have hends : ∀ m : RetryManager, EndsWith isRetryable func s.calls
        (⟨s.calls + 1, m, .error (.function e)⟩ : Ended RetryManager ε α) := fun m =>
      (endsWith_raised ho).mpr ⟨rfl, _, rfl, fun _ => rfl⟩
    cases he : isRetryable (.function e) with
    | false => exact ⟨_, if_pos (by simp [refuses, he]), hends s.manager⟩
    | true =>
      have hlast := eq_of_raised hp ho he
      exact ⟨_, (if_neg (by simp [refuses, he])).trans (if_pos (by omega)), hends _⟩

/-- `call_with_retry` ends with the last call exactly if it can compute the delays before. -/
theorem callWithRetry_agrees_iff (c : RetryConfig ε) (isRetryable : RetryError ε → Bool)
    (func : Func ε α) (manager : RetryManager) (h : 1 ≤ c.maxAttempts) :
    Agrees isRetryable c.maxAttempts func (callWithRetry c (some isRetryable) func manager) ↔
      DelaysComputed isRetryable c.maxAttempts func 0 c.calculateDelay := by
  have hrange : List.range c.maxAttempts.toNat =
      (List.range' 0 c.maxAttempts.toNat).map (· + 0) := by
    simp [List.range_eq_range']
  rw [callWithRetry, hrange]
  refine agrees_forLoop_iff h ?_ (fun s hp => ?_) (?_ : State.calls _ = 0)
  · exact fun _ _ ho he hmore => attempt_retried c ho he hmore
  · exact attempt_last hp
  · rfl

end RetryManager

namespace RetryAdapter

variable {number : ℕ} {s : State ε}

theorem log_named (hname : func.hasName = true) (next : Ended RetryStats ε α ⊕ State ε) :
    log func s next = next := by
  unfold log Func.readName
  rw [if_pos hname]

theorem log_nameless (hname : func.hasName = false) (next : Ended RetryStats ε α ⊕ State ε) :
    log func s next = .inl (leave s (.attributeError "__name__")) := by
  unfold log Func.readName
  rw [if_neg (by simp [hname])]

theorem attempt_retried (c : RetryConfig ε) (hname : func.hasName = true) {e : ε}
    (ho : func.outcomes s.calls = .raised e) (he : isRetryable (.function e) = true)
    (hmore : (number : ℤ) < c.maxAttempts) :
    GoesOn State.calls (s.calls + 1) (c.calculateDelay number)
      (attempt c isRetryable func number s) := by
  unfold attempt handle
  simp only [ho, log_named hname]
  rw [if_neg (by simp [he]), if_neg (by omega)]
  cases c.calculateDelay number <;> rfl

theorem attempt_last (hname : func.hasName = true)
    (hp : IsLastCall isRetryable c.maxAttempts func s.calls) :
    ∃ r, attempt c isRetryable func (s.calls + 1) s = .inl r ∧
      EndsWith isRetryable func s.calls r := by
  unfold attempt
  cases ho : func.outcomes s.calls with
  | returned v =>
    have hread : (func.readName : Except (RetryError ε) Unit) = .ok () := if_pos hname
    simp only [hread]
    split_ifs
    · exact ⟨_, rfl, (endsWith_returned ho).mpr ⟨rfl, rfl⟩⟩
    · exact ⟨_, rfl, (endsWith_returned ho).mpr ⟨rfl, rfl⟩⟩
  | interrupted e => exact ⟨_, rfl, (endsWith_interrupted ho).mpr ⟨rfl, rfl⟩⟩
  | raised e =>
    simp only [handle, log_named hname]
    split_ifs with hnot hused
    · exact ⟨_, rfl, (endsWith_raised ho).mpr ⟨rfl, _, rfl, fun _ => rfl⟩⟩
    · exact ⟨_, rfl, (endsWith_raised ho).mpr ⟨rfl, _, rfl, fun _ => rfl⟩⟩
    · have hlast := eq_of_raised hp ho (by simpa using hnot)
      omega

theorem call_agrees_iff_of_named (h : 1 ≤ c.maxAttempts) (hname : func.hasName = true)
    (stats : RetryStats) :
    Agrees isRetryable c.maxAttempts func (call c isRetryable func stats) ↔
      DelaysComputed isRetryable c.maxAttempts func 1 c.calculateDelay := by
  rw [call, range'_one]
  exact agrees_forLoop_iff h
    (fun _ _ ho he hmore => attempt_retried c hname ho he (by exact_mod_cast hmore))
    (fun _ hp => attempt_last hname hp) rfl

/-- Without a name every handler raises. -/
theorem handle_nameless (c : RetryConfig ε) (isRetryable : RetryError ε → Bool) (number : ℕ)
    (s : State ε) (hname : func.hasName = false) (e : RetryError ε) :
    ∃ r, handle c isRetryable func number e s = .inl r ∧ r.calls = s.calls ∧
      ∃ x, r.outcome = .error x ∧
        (isRetryable e = false → x = .attributeError "__name__") := by
  unfold handle
  simp only [log_nameless hname]
  cases he : isRetryable e with
  | false => exact ⟨_, rfl, rfl, _, rfl, fun _ => rfl⟩
  | true =>
    rw [if_neg (by simp)]
    split_ifs
    · exact ⟨_, rfl, rfl, _, rfl, nofun⟩
    · cases c.calculateDelay number with
      | error x => exact ⟨_, rfl, rfl, _, rfl, nofun⟩
      | ok delay => exact ⟨_, rfl, rfl, _, rfl, nofun⟩

/-- A call of a function without a name, after a first attempt that leaves the loop. -/
theorem call_of_attempt (h : 1 ≤ c.maxAttempts) {stats : RetryStats} {r : Ended RetryStats ε α}
    (hr : attempt c isRetryable func 1
      ⟨0, { stats with totalCalls := stats.totalCalls + 1 }, none⟩ = .inl r) :
    call c isRetryable func stats = r := by
  obtain ⟨n, hn⟩ : ∃ n, c.maxAttempts.toNat = n + 1 := ⟨c.maxAttempts.toNat - 1, by omega⟩
  rw [call, hn, List.range'_succ, forLoop_cons_inl hr]

/-- An exception of a function without a name is reported as it should be only if it is retryable
and no other attempt is allowed. -/
theorem endsWith_nameless {p : ℕ} (hp : IsLastCall isRetryable c.maxAttempts func p) {e : ε}
    (ho : func.outcomes 0 = .raised e) {r : Ended RetryStats ε α} (hcalls : r.calls = 1)
    {x : RetryError ε} (hx : r.outcome = .error x)
    (hname : isRetryable (.function e) = false → x = .attributeError "__name__") :
    EndsWith isRetryable func p r ↔
      ¬(isRetryable (.function e) = false ∨ 1 < c.maxAttempts) := by
  have hlt := hp.lt
  cases he : isRetryable (.function e) with
  | false =>
    -- the exception should be that of the function
    refine iff_of_false (fun hends => ?_) fun hnot => hnot (Or.inl rfl)
    obtain rfl := eq_zero_of_stops hp (by rw [ho]; exact he)
    obtain ⟨y, hy, hsame⟩ := hends.raised e ho
    rw [hsame he, hx, hname he] at hy
    cases hy
  | true =>
    by_cases hmore : 1 < c.maxAttempts
    · -- there should be a second call
      refine iff_of_false (fun hends => ?_) fun hnot => hnot (Or.inr hmore)
      have hone : (1 : ℕ) = p + 1 := hcalls.symm.trans hends.calls
      obtain rfl : p = 0 := by omega
      have hlast := eq_of_raised hp ho he
      omega
    · obtain rfl : p = 0 := by omega
      refine iff_of_true ((endsWith_raised ho).mpr ⟨hcalls, x, hx, fun hf => ?_⟩) fun hcond => ?_
      · cases he.symm.trans hf
      · exact hcond.elim nofun hmore

/-- Without a name there is one attempt, and only a first call that returns or is interrupted, or
that raises a retryable exception when no other is allowed, ends as it should. -/
theorem call_agrees_iff_of_nameless (h : 1 ≤ c.maxAttempts) (hname : func.hasName = false)
    (stats : RetryStats) :
    Agrees isRetryable c.maxAttempts func (call c isRetryable func stats) ↔
      ¬MissesName isRetryable c.maxAttempts func := by
  obtain ⟨p, hp⟩ := exists_isLastCall isRetryable func h
  rw [agrees_iff hp]
  cases ho : func.outcomes 0 with
  | returned v =>
    obtain rfl := eq_zero_of_stops hp (by rw [ho]; rfl)
    rw [call_of_attempt (r := ⟨1, _, .ok v⟩) h (by simp only [attempt, ho]; rfl)]
    refine iff_of_true ((endsWith_returned ho).mpr ⟨rfl, rfl⟩) ?_
    rintro ⟨-, e, he, -⟩
    cases ho.symm.trans he
  | interrupted e =>
    obtain rfl := eq_zero_of_stops hp (by rw [ho]; rfl)
    rw [call_of_attempt (r := ⟨1, _, .error (.function e)⟩) h (by simp only [attempt, ho]; rfl)]
    refine iff_of_true ((endsWith_interrupted ho).mpr ⟨rfl, rfl⟩) ?_
    rintro ⟨-, e', he, -⟩
    cases ho.symm.trans he
  | raised e =>
    obtain ⟨r, hr, hcalls, x, hx, hraised⟩ := handle_nameless c isRetryable 1
      ⟨1, { stats with totalCalls := stats.totalCalls + 1 }, none⟩ hname (.function e)
    rw [call_of_attempt h (by simp only [attempt, ho]; exact hr),
      endsWith_nameless hp ho hcalls hx hraised, not_iff_not]
    constructor
    · exact fun hcond => ⟨hname, e, ho, hcond⟩
    · rintro ⟨-, e', he', hcond⟩
      cases ho.symm.trans he'
      exact hcond

/-- `call` ends with the last call exactly if it can compute the delays before and misses no
name. -/
theorem call_agrees_iff (c : RetryConfig ε) (isRetryable : RetryError ε → Bool)
    (func : Func ε α) (stats : RetryStats) (h : 1 ≤ c.maxAttempts) :
    Agrees isRetryable c.maxAttempts func (call c isRetryable func stats) ↔
      DelaysComputed isRetryable c.maxAttempts func 1 c.calculateDelay ∧
        ¬MissesName isRetryable c.maxAttempts func := by
  cases hname : func.hasName with
  | true =>
    rw [call_agrees_iff_of_named h hname]
    exact (and_iff_left fun hmiss => nomatch hname.symm.trans hmiss.1).symm
  | false =>
    rw [call_agrees_iff_of_nameless h hname]
    refine (and_iff_right_of_imp fun hnot i hi hall => ?_).symm
    -- a call that should be repeated misses a name
    obtain ⟨e, ho, -⟩ := raised_of_retries (hall 0 (Nat.zero_le i))
    exact absurd ⟨hname, e, ho, Or.inr (by omega)⟩ hnot

end RetryAdapter

end Loops

/-! ## The three loops -/

/-- With the same classification and bound, all three loops end with the last call that they should
make exactly if they can compute the delays before it and the function has a name where the log
lines of the second read it. -/
theorem retriesAgree_iff (maxAttempts : ℤ) (h : 1 ≤ maxAttempts)
    (isRetryable : RetryError ε → Bool)
    (policyDelay adapterDelay managerDelay : ℕ → Except (RetryError ε) ℚ) (func : Func ε α)
    (stats : RetryStats) (manager : RetryManager) :
    AllAgree isRetryable maxAttempts func policyDelay adapterDelay managerDelay stats manager ↔
      DelaysComputed isRetryable maxAttempts func 1 policyDelay ∧
        (DelaysComputed isRetryable maxAttempts func 1 adapterDelay ∧
          ¬MissesName isRetryable maxAttempts func) ∧
        DelaysComputed isRetryable maxAttempts func 0 managerDelay := by
  have hpolicy := RetryPolicy.execute_agrees_iff ⟨maxAttempts, policyDelay⟩ isRetryable func h
  have hadapter := RetryAdapter.call_agrees_iff ⟨maxAttempts, adapterDelay⟩ isRetryable func stats h
  have hmanager :=
    RetryManager.callWithRetry_agrees_iff ⟨maxAttempts, managerDelay⟩ isRetryable func manager h
  exact and_congr hpolicy (and_congr hadapter hmanager)

/-- The delays of `RetryPolicy` and `RetryAdapter` by default, without jitter. -/
def seconds (number : ℕ) : Except (RetryError String) ℚ :=
  .ok (min (2 ^ (number - 1)) 60)

/-- Those of `RetryManager`, in milliseconds. -/
def milliseconds (attempt : ℕ) : Except (RetryError String) ℚ :=
  .ok (min (100 * 2 ^ attempt) 5000)

/-- A function that fails in its first call and then returns. -/
def flaky (hasName : Bool) : Func String ℤ where
  outcomes i := if i = 0 then .raised "ConnectionError" else .returned 7
  hasName := hasName

/-- A function with a name. -/
theorem retriesAgree_iff_flaky :
    AllAgree (fun _ => true) 3 (flaky true) seconds seconds milliseconds {} {} ↔
      DelaysComputed (fun _ => true) 3 (flaky true) 1 seconds ∧
        (DelaysComputed (fun _ => true) 3 (flaky true) 1 seconds ∧
          ¬MissesName (fun _ => true) 3 (flaky true)) ∧
        DelaysComputed (fun _ => true) 3 (flaky true) 0 milliseconds :=
  retriesAgree_iff 3 (by decide) (fun _ => true) seconds seconds milliseconds (flaky true) {} {}

/-- A function without a name is not called again by `RetryAdapter`. -/
theorem not_retriesAgree :
    ¬ ∀ (maxAttempts : ℤ), 1 ≤ maxAttempts → ∀ (isRetryable : RetryError String → Bool)
      (policyDelay adapterDelay managerDelay : ℕ → Except (RetryError String) ℚ)
      (func : Func String ℤ) (stats : RetryStats) (manager : RetryManager),
      AllAgree isRetryable maxAttempts func policyDelay adapterDelay managerDelay stats
        manager := by
  intro h
  obtain ⟨-, ⟨p, hp, hends⟩, -⟩ :=
    h 3 (by decide) (fun _ => true) seconds seconds milliseconds (flaky false) {} {}
  -- there is one call, and it raises a retryable exception
  have hone : (1 : ℕ) = p + 1 := hends.calls
  obtain rfl : p = 0 := by omega
  exact absurd (hp.stops (by decide)) (by decide)

end Retries

end MultiAgent
