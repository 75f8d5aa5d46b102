import MultiAgent.Adapters.RetryAgreement

/-!
# The parameters of `retry`

A call of a function decorated with `retry` runs `RetryAdapter.call` with the parameters that are
registered under its name, which need not be its own. What such a call does is `Ends` : it makes
attempts as long as the registered parameters want one more, and ends with the first after which
they do not (`RetryParameters.call_ends`).

The call is governed by other parameters, `GovernedBy`, if its attempts stay within their
`max_attempts` and exactly their retryable exceptions are tried again. Whatever the function does
this is so exactly if the two sets of parameters decide alike after every attempt that can be
reached (`governed_iff`).
-/

namespace MultiAgent

namespace Retries

open ForLoop

variable {ε κ α σ : Type}

/-- The types of exceptions, with `Exception`. -/
structure ExceptionTypes (ε κ : Type) where
  isinstance : RetryError ε → κ → Bool
  exception : κ

/-- The parameters of `retry`. The delay after an attempt is computed from four of them, and is
`none` where a power of floats overflows. -/
structure RetryParameters (κ : Type) where
  maxAttempts : ℤ := 3
  calculateDelay : ℕ → Option ℚ
  retryableExceptions : Option (List κ) := none
  name : String := "default"

namespace RetryParameters

variable (E : ExceptionTypes ε κ) (p : RetryParameters κ)

/-- `RetryConfig`, apart from the exceptions. -/
def config : RetryConfig ε where
  maxAttempts := p.maxAttempts
  calculateDelay number :=
    match p.calculateDelay number with
    | some delay => .ok delay
    | none => .error .overflow

/-- `retryable_exceptions or [Exception]`. -/
def retryable : List κ :=
  match p.retryableExceptions with
  | none => [E.exception]
  | some [] => [E.exception]
  | some types => types

/-- `_is_retryable`. -/
def isRetryable (e : RetryError ε) : Bool :=
  (p.retryable E).any (E.isinstance e)

/-- `RetryAdapter.call` with these parameters. -/
def call (func : Func ε α) (stats : RetryStats) : Ended RetryStats ε α :=
  RetryAdapter.call p.config (p.isRetryable E) func stats

/-- The exception of an attempt asks for one more. -/
def Wants (e : ε) (number : ℕ) : Prop :=
  p.isRetryable E (.function e) = true ∧ (number : ℤ) < p.maxAttempts

/-- After this outcome of an attempt there is one more. -/
def Repeats (o : Outcome ε α) (number : ℕ) : Prop :=
  ∃ e, o = .raised e ∧ p.Wants E e number ∧ (p.calculateDelay number).isSome

/-- The loop ended with call number `i` from 0. -/
structure Ends (func : Func ε α) (i : ℕ) (r : Ended σ ε α) : Prop where
  calls : r.calls = i + 1
  lt : (i : ℤ) < p.maxAttempts
  before : ∀ j < i, p.Repeats E (func.outcomes j) (j + 1)
  last : func.hasName = true → ¬p.Repeats E (func.outcomes i) (i + 1)
  raises : func.hasName = true → ∀ e, func.outcomes i = .raised e → ¬p.Wants E e (i + 1) →
    r.outcome = .error (.function e)
  givesUp : ∀ e, func.outcomes i = .raised e → r.outcome = .error (.function e) →
    ¬p.Wants E e (i + 1)

/-! ## What a call does -/

section Call

open RetryAdapter

variable {E p} {func : Func ε α} {i : ℕ} {s : State ε}

theorem Repeats.eq {o : Outcome ε α} {number : ℕ} (h : p.Repeats E o number) {e : ε}
    (ho : o = .raised e) : p.Wants E e number ∧ (p.calculateDelay number).isSome := by
  obtain ⟨e', rfl, hwants⟩ := h
  cases ho
  exact hwants

/-- A call that ends after an outcome that is no exception of the function. -/
theorem ends_of_not_raised (hlt : (i : ℤ) < p.maxAttempts)
    (hbefore : ∀ j < i, p.Repeats E (func.outcomes j) (j + 1))
    (ho : ∀ e, func.outcomes i ≠ .raised e) {r : Ended σ ε α} (hcalls : r.calls = i + 1) :
    p.Ends E func i r where
  calls := hcalls
  lt := hlt
  before := hbefore
  last _ := fun ⟨e, he, _⟩ => ho e he
  raises _ e he := absurd he (ho e)
  givesUp e he := absurd he (ho e)

/-- A call that ends after an exception of the function. -/
theorem ends_of_raised (hlt : (i : ℤ) < p.maxAttempts)
    (hbefore : ∀ j < i, p.Repeats E (func.outcomes j) (j + 1)) {e : ε}
    (ho : func.outcomes i = .raised e) {r : Ended σ ε α} (hcalls : r.calls = i + 1)
    (hlast : func.hasName = true → ¬p.Repeats E (func.outcomes i) (i + 1))
    (hraises : func.hasName = true → ¬p.Wants E e (i + 1) → r.outcome = .error (.function e))
    (hgivesUp : r.outcome = .error (.function e) → ¬p.Wants E e (i + 1)) :
    p.Ends E func i r where
  calls := hcalls
  lt := hlt
  before := hbefore
  last := hlast
  raises hname e' he' := by
    cases ho.symm.trans he'
    exact hraises hname
  givesUp e' he' := by
    cases ho.symm.trans he'
    exact hgivesUp

/-- What an exception of the function leads to. -/
theorem handle_function (p : RetryParameters κ) (func : Func ε α) (i : ℕ) (e : ε) (s : State ε) :
    ∃ s' : State ε, s'.calls = s.calls ∧ s'.lastException = some (.function e) ∧
      (¬p.Wants E e (i + 1) ∧
          handle p.config (p.isRetryable E) func (i + 1) (.function e) s =
            log func s' (.inl (fail s')) ∨
        p.Wants E e (i + 1) ∧ (p.calculateDelay (i + 1)) = none ∧
          handle p.config (p.isRetryable E) func (i + 1) (.function e) s =
            .inl (leave s' .overflow) ∨
        p.Wants E e (i + 1) ∧ (p.calculateDelay (i + 1)).isSome ∧
          handle p.config (p.isRetryable E) func (i + 1) (.function e) s =
            log func s' (.inr s')) := by
  unfold handle
  dsimp only
  split_ifs with hnot hused
  · refine ⟨{ s with lastException := some (.function e) }, rfl, rfl,
      Or.inl ⟨fun hwants => ?_, rfl⟩⟩
    simp [hwants.1] at hnot
  · refine ⟨{ s with lastException := some (.function e) }, rfl, rfl,
      Or.inl ⟨fun hwants => ?_, rfl⟩⟩
    exact absurd hwants.2 (not_lt.mpr hused)
  · have hwants : p.Wants E e (i + 1) := ⟨by simpa using hnot, not_le.mp hused⟩
    unfold config
    dsimp only
    cases p.calculateDelay (i + 1) with
    | none =>
      exact ⟨{ s with lastException := some (.function e) }, rfl, rfl,
        Or.inr (Or.inl ⟨hwants, rfl, rfl⟩)⟩
    | some delay =>
      exact ⟨{ s with
        stats := { s.stats with
          retryAttempts := s.stats.retryAttempts + 1
          totalRetryDelay := s.stats.totalRetryDelay + delay }
        lastException := some (.function e) }, rfl, rfl, Or.inr (Or.inr ⟨hwants, rfl, rfl⟩)⟩

/-- Before call number `i` from 0. -/
structure Before (E : ExceptionTypes ε κ) (p : RetryParameters κ) (func : Func ε α) (i : ℕ)
    (s : State ε) : Prop where
  calls : s.calls = i
  lt : (i : ℤ) < p.maxAttempts
  before : ∀ j < i, p.Repeats E (func.outcomes j) (j + 1)
  named : func.hasName = true ∨ i = 0

/-- An exception of the function ends the call, or there is one more attempt. -/
theorem handle_spec (hs : Before E p func i s) {e : ε} (ho : func.outcomes i = .raised e) :
    Sum.elim (fun r => ∃ i, p.Ends E func i r) (Before E p func (i + 1))
      (handle p.config (p.isRetryable E) func (i + 1) (.function e)
        { s with calls := s.calls + 1 }) := by
  obtain ⟨rfl, hlt, hbefore, hnamed⟩ := hs
  obtain ⟨s', hcalls, hlast, ⟨hwants, hhandle⟩ | ⟨hwants, hdelay, hhandle⟩ |
    ⟨hwants, hdelay, hhandle⟩⟩ := handle_function (E := E) p func s.calls e
      { s with calls := s.calls + 1 }
  · rw [hhandle]
    by_cases hname : func.hasName = true
    · rw [log_named hname]
      refine ⟨_, ends_of_raised hlt hbefore ho hcalls (fun _ hrep => ?_) (fun _ _ => ?_)
        fun _ => hwants⟩
      · exact hwants (hrep.eq ho).1
      · simp only [fail, hlast]
    · rw [log_nameless (by simpa using hname)]
      exact ⟨_, ends_of_raised hlt hbefore ho hcalls (fun h => absurd h hname)
        (fun h => absurd h hname) fun _ => hwants⟩
  · rw [hhandle]
    refine ⟨_, ends_of_raised hlt hbefore ho hcalls (fun _ hrep => ?_)
      (fun _ hnot => absurd hwants hnot) fun heq => by cases heq⟩
    have hsome := (hrep.eq ho).2
    rw [hdelay] at hsome
    cases hsome
  · rw [hhandle]
    by_cases hname : func.hasName = true
    · rw [log_named hname]
      refine ⟨hcalls, hwants.2, fun j hj => ?_, Or.inl hname⟩
      rcases Nat.lt_succ_iff_lt_or_eq.mp hj with hlt | rfl
      · exact hbefore j hlt
      · exact ⟨e, ho, hwants, hdelay⟩
    · rw [log_nameless (by simpa using hname)]
      exact ⟨_, ends_of_raised hlt hbefore ho hcalls (fun h => absurd h hname)
        (fun h => absurd h hname) fun heq => by cases heq⟩

/-- An attempt ends the call, or there is one more. -/
theorem attempt_spec (hs : Before E p func i s) :
    Sum.elim (fun r => ∃ i, p.Ends E func i r) (Before E p func (i + 1))
      (attempt p.config (p.isRetryable E) func (i + 1) s) := by
  obtain rfl := hs.calls
  unfold attempt
  cases ho : func.outcomes s.calls with
  | returned v =>
    have hends : ∀ r : Ended RetryStats ε α, r.calls = s.calls + 1 → p.Ends E func s.calls r :=
      fun r => ends_of_not_raised hs.lt hs.before (by simp [ho])
    dsimp only
    split_ifs with hmore
    · have hread : (func.readName : Except (RetryError ε) Unit) = .ok () :=
        if_pos (hs.named.resolve_right (by omega))
      rw [hread]
      exact ⟨_, hends _ rfl⟩
    · exact ⟨_, hends _ rfl⟩
  | interrupted e => exact ⟨_, ends_of_not_raised hs.lt hs.before (by simp [ho]) rfl⟩
  | raised e => exact handle_spec hs ho

/-- A call of a function that is allowed an attempt ends with the first attempt after which there
is no other. -/
theorem call_ends (E : ExceptionTypes ε κ) (func : Func ε α) (stats : RetryStats)
    (h : 0 < p.maxAttempts) : ∃ i, p.Ends E func i (p.call E func stats) := by
  have hzero : Before E p func 0 { stats := { stats with totalCalls := stats.totalCalls + 1 } } :=
    ⟨rfl, h, fun j hj => absurd hj (Nat.not_lt_zero j), Or.inr rfl⟩
  unfold call RetryAdapter.call
  rw [range'_one]
  refine forLoop_rule (I := Before E p func)
    (P := fun r : Ended RetryStats ε α => ∃ i, p.Ends E func i r) (fun _ _ _ => attempt_spec)
    (fun s hs => ?_) hzero
  have hlt := hs.lt
  have hmax : (p.config (ε := ε)).maxAttempts = p.maxAttempts := rfl
  omega

theorem call_of_none (E : ExceptionTypes ε κ) (func : Func ε α) (stats : RetryStats)
    (h : p.maxAttempts ≤ 0) : (p.call E func stats).calls = 0 := by
  have hnone : (p.config (ε := ε)).maxAttempts.toNat = 0 := Int.toNat_of_nonpos h
  unfold call RetryAdapter.call
  rw [hnone]
  rfl

end Call

end RetryParameters

/-! ## What should govern a call -/

section Governed

variable (E : ExceptionTypes ε κ) (own registered : RetryParameters κ)

/-- The parameters govern a call that ended so : the attempts stay within their `max_attempts`,
only their retryable exceptions are tried again, and these are as long as an attempt is left. -/
structure GovernedBy (func : Func ε α) (r : Ended σ ε α) : Prop where
  starts : 0 < own.maxAttempts → 0 < r.calls
  bounded : r.calls ≤ own.maxAttempts.toNat
  retried : ∀ i, i + 1 < r.calls →
    ∃ e, func.outcomes i = .raised e ∧ own.isRetryable E (.function e) = true
  givesUp : ∀ i e, r.calls = i + 1 → func.outcomes i = .raised e →
    r.outcome = .error (.function e) → own.isRetryable E (.function e) = true →
      own.maxAttempts.toNat ≤ i + 1

/-- Some function gets as far as call number `i` from 0. -/
structure RetryParameters.Reaches (i : ℕ) : Prop where
  lt : (i : ℤ) < registered.maxAttempts
  exception : i = 0 ∨ ∃ e : ε, registered.isRetryable E (.function e) = true
  delays : ∀ j < i, (registered.calculateDelay (j + 1)).isSome

/-- The registered parameters decide as one's own after every call that can be reached. -/
structure DecidesAs : Prop where
  starts : 0 < registered.maxAttempts ↔ 0 < own.maxAttempts
  retried : ∀ i e, registered.Reaches E i → registered.Wants E e (i + 1) →
    (registered.calculateDelay (i + 1)).isSome → own.Wants E e (i + 1)
  givesUp : ∀ i e, registered.Reaches E i → own.Wants E e (i + 1) →
    registered.Wants E e (i + 1)

variable {E own registered}

/-- Parameters that agree on what is retryable and on `max_attempts` decide alike. -/
theorem decidesAs_of_same (hmax : registered.maxAttempts = own.maxAttempts)
    (hretryable : registered.isRetryable E = own.isRetryable E) :
    DecidesAs E own registered := by
  have hwants : ∀ e number, registered.Wants E e number ↔ own.Wants E e number := by
    intro e number
    unfold RetryParameters.Wants
    rw [hmax, hretryable]
  exact ⟨by rw [hmax], fun _ _ _ h _ => (hwants _ _).mp h, fun _ _ _ h => (hwants _ _).mpr h⟩

theorem RetryParameters.Ends.reaches {func : Func ε α} {i j : ℕ} {r : Ended σ ε α}
    (h : registered.Ends E func i r) (hj : j ≤ i) : registered.Reaches E j where
  lt := lt_of_le_of_lt (Int.ofNat_le.mpr hj) h.lt
  exception := by
    rcases Nat.eq_zero_or_pos j with hzero | hpos
    · exact Or.inl hzero
    · obtain ⟨e, -, hwants, -⟩ := h.before 0 (by omega)
      exact Or.inr ⟨e, hwants.1⟩
  delays k hk := by
    obtain ⟨-, -, -, hdelay⟩ := h.before k (by omega)
    exact hdelay

/-- Parameters that decide as one's own govern the call as these would. -/
theorem governedBy_of_decidesAs (h : DecidesAs E own registered) (func : Func ε α)
    (stats : RetryStats) : GovernedBy E own func (registered.call E func stats) := by
  rcases lt_or_ge 0 registered.maxAttempts with hpos | hnone
  · obtain ⟨i, hends⟩ := registered.call_ends E func stats hpos
    have hrepeats : ∀ j < i, ∃ e, func.outcomes j = .raised e ∧ own.Wants E e (j + 1) := by
      intro j hj
      obtain ⟨e, ho, hwants, hdelay⟩ := hends.before j hj
      exact ⟨e, ho, h.retried j e (hends.reaches hj.le) hwants hdelay⟩
    refine ⟨fun _ => ?_, ?_, fun j hj => ?_, fun j e hj ho hout hretry => ?_⟩
    · rw [hends.calls]
      omega
    · rw [hends.calls]
      rcases Nat.eq_zero_or_pos i with rfl | hi
      · have hone := h.starts.mp hpos
        omega
      · obtain ⟨e, -, -, hlt⟩ := hrepeats (i - 1) (by omega)
        omega
    · rw [hends.calls] at hj
      obtain ⟨e, ho, hwants⟩ := hrepeats j (by omega)
      exact ⟨e, ho, hwants.1⟩
    · rw [hends.calls] at hj
      obtain rfl : i = j := by omega
      by_contra hleft
      have hwants : own.Wants E e (i + 1) := ⟨hretry, by omega⟩
      exact hends.givesUp e ho hout (h.givesUp i e (hends.reaches le_rfl) hwants)
  · have hcalls := RetryParameters.call_of_none E func stats hnone
    have hown : ¬0 < own.maxAttempts := fun hown => absurd (h.starts.mpr hown) (by omega)
    refine ⟨fun hpos => absurd hpos hown, by omega, fun j hj => ?_, fun j e hj => ?_⟩
    · omega
    · omega

/-- A function that raises one exception in its first `i` calls, and then another. -/
def raising (first e : ε) (i : ℕ) : Func ε α where
  outcomes j := if j < i then .raised first else .raised e

/-- A function with which the loop gets as far as it can. -/
theorem ends_raising {i : ℕ} (hreaches : registered.Reaches E i) (e : ε) (stats : RetryStats) :
    ∃ func : Func ε α, func.hasName = true ∧ func.outcomes i = .raised e ∧
      ∃ j, i ≤ j ∧ registered.Ends E func j (registered.call E func stats) := by
  obtain ⟨first, hfirst⟩ : ∃ first : ε, i = 0 ∨
      registered.isRetryable E (.function first) = true := by
    rcases hreaches.exception with hzero | ⟨first, hfirst⟩
    · exact ⟨e, Or.inl hzero⟩
    · exact ⟨first, Or.inr hfirst⟩
  have hlt := hreaches.lt
  obtain ⟨j, hends⟩ := registered.call_ends E (raising (α := α) first e i) stats (by omega)
  refine ⟨raising first e i, rfl, if_neg (lt_irrefl i), j, ?_, hends⟩
  by_contra hji
  push Not at hji
  refine hends.last rfl ⟨first, if_pos hji, ⟨hfirst.resolve_left (by omega), by omega⟩, ?_⟩
  exact hreaches.delays j hji

/-- Whatever a function does, its call with the registered parameters is governed by its own
exactly if these decide alike. -/
theorem governedBy_iff [Inhabited α] (E : ExceptionTypes ε κ) (own registered : RetryParameters κ)
    (stats : RetryStats) :
    (∀ func : Func ε α, GovernedBy E own func (registered.call E func stats)) ↔
      DecidesAs E own registered := by
  refine ⟨fun h => ⟨⟨fun hpos => ?_, fun hpos => ?_⟩, fun i e hreaches hwants hdelay => ?_,
    fun i e hreaches hwants => ?_⟩, fun h func => governedBy_of_decidesAs h func stats⟩
  · have hgoverned := h ⟨fun _ => .returned default, true⟩
    obtain ⟨i, hends⟩ := registered.call_ends E
      (⟨fun _ => .returned default, true⟩ : Func ε α) stats hpos
    have hbounded := hgoverned.bounded
    rw [hends.calls] at hbounded
    omega
  · by_contra hnone
    have hcalls := (h ⟨fun _ => .returned default, true⟩).starts hpos
    rw [RetryParameters.call_of_none E _ stats (not_lt.mp hnone)] at hcalls
    cases hcalls
  · obtain ⟨func, hname, ho, j, hij, hends⟩ := ends_raising (α := α) hreaches e stats
    have hlt : i < j := by
      refine lt_of_le_of_ne hij fun heq => ?_
      subst heq
      exact hends.last hname ⟨e, ho, hwants, hdelay⟩
    obtain ⟨e', ho', hretry⟩ := (h func).retried i (by rw [hends.calls]; omega)
    cases ho.symm.trans ho'
    have hbounded := (h func).bounded
    rw [hends.calls] at hbounded
    exact ⟨hretry, by omega⟩
  · by_contra hnot
    obtain ⟨func, hname, ho, j, hij, hends⟩ := ends_raising (α := α) hreaches e stats
    obtain rfl : i = j := by
      by_contra hne
      exact hnot ((hends.before i (by omega)).eq ho).1
    have hleft := (h func).givesUp i e hends.calls ho (hends.raises hname e ho hnot) hwants.1
    have hlt := hwants.2
    omega

end Governed

end Retries

end MultiAgent
