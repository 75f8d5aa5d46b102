import Mathlib.Data.Int.Notation
import MultiAgent.Lib.Dict
import MultiAgent.Lib.Machine

/-!
# The Redis rate limiter of the clients

`TokenBucketRateLimiter` of `libs/clients/rate_limiter.py`. Times are whole seconds. The
script adds tokens for whole intervals only, and moves `last_refill` to the time of the
call whether or not it added any. So time that passed in parts shorter than an interval
between calls is lost : a caller that is refused and asks again within the interval keeps
itself out (`not_allowsWhenDue`). A call made an interval after the last allowed one is
allowed exactly if the call before it left a token or was itself an interval, or an hour,
ago (`allowsWhenDue_iff`).
-/

namespace MultiAgent

namespace Clients

/-- The arguments of the script that do not change between calls, all at least one. -/
structure Limits where
  capacity : ℤ
  tokensPerInterval : ℤ
  intervalSeconds : ℤ
  one_le_capacity : 1 ≤ capacity
  one_le_tokens : 1 ≤ tokensPerInterval
  one_le_interval : 1 ≤ intervalSeconds

/-- The Redis hash of a bucket, and when Redis drops it. -/
structure RedisBucket where
  tokens : ℤ
  lastRefill : ℤ
  expiresAt : ℤ
  deriving DecidableEq

/-- What a command finds at the key : a key past its time to live is gone. -/
def liveKey (key : Option RedisBucket) (now : ℤ) : Option RedisBucket :=
  key.filter fun k => now < k.expiresAt

/-- The tokens after `tokens_to_add` were added. An interval of zero makes the quotient
infinite or no number at all, and `math.min` then gives the capacity. -/
def addTokens (capacity currentTokens tokens interval timePassed : ℤ) : ℤ :=
  if interval = 0 then capacity
  else min capacity (currentTokens + timePassed.fdiv interval * tokens)

/-- `script` : the hash afterwards, and the three numbers it returns. -/
def script (key : Option RedisBucket) (capacity tokens interval now : ℤ) :
    RedisBucket × Bool × ℤ × ℤ :=
  let bucket := liveKey key now
  let currentTokens := (bucket.map (·.tokens)).getD capacity
  let lastRefill := (bucket.map (·.lastRefill)).getD now
  let timePassed := now - lastRefill
  let currentTokens := addTokens capacity currentTokens tokens interval timePassed
  if 1 ≤ currentTokens then
    (⟨currentTokens - 1, now, now + 3600⟩, true, currentTokens - 1, capacity)
  else (⟨currentTokens, now, now + 3600⟩, false, currentTokens, capacity)

/-- The keys of Redis. -/
abbrev Redis := Dict String RedisBucket

/-- The key of a bucket. -/
def bucketKey (tenantId plan scope : String) : String :=
  s!"rate_limit:{tenantId}:{plan}:{scope}"

/-- `is_allowed` : Redis afterwards, and the answer. `redisUp` is false when the call of
`eval` raises, and then the request is allowed. -/
def isAllowed (redis : Redis) (redisUp : Bool) (tenantId plan scope : String)
    (capacity tokensPerInterval intervalSeconds now : ℤ) : Redis × Bool × ℤ × ℤ :=
  if redisUp then
    let key := bucketKey tenantId plan scope
    let (bucket, result) :=
      script (redis.get? key) capacity tokensPerInterval intervalSeconds now
    (redis.set key bucket, result)
  else (redis, true, capacity, capacity)

/-! ## One call -/

/-- The bucket grants a token at `now` : there is no live key, or it holds a token, or an
interval has passed since the last call. -/
def Rested (l : Limits) (key : Option RedisBucket) (now : ℤ) : Prop :=
  ∀ k, liveKey key now = some k → 1 ≤ k.tokens ∨ k.lastRefill + l.intervalSeconds ≤ now

/-- What a bucket holds after a call : a number of tokens that is not negative, and the time
of the call. -/
structure StoredAt (key : Option RedisBucket) (last : Option ℤ) : Prop where
  tokens : ∀ k, key = some k → 0 ≤ k.tokens
  lastRefill : key.map (·.lastRefill) = last

section Script

variable (l : Limits) {key : Option RedisBucket} {now : ℤ}

theorem liveKey_eq_some {k : RedisBucket} :
    liveKey key now = some k ↔ key = some k ∧ now < k.expiresAt := by
  simp [liveKey, Option.filter_eq_some_iff]

theorem addTokens_limits (currentTokens timePassed : ℤ) :
    addTokens l.capacity currentTokens l.tokensPerInterval l.intervalSeconds timePassed =
      min l.capacity
        (currentTokens + timePassed.fdiv l.intervalSeconds * l.tokensPerInterval) := by
  have hinterval := l.one_le_interval
  rw [addTokens, if_neg (by omega)]

theorem lastRefill_script (c t i : ℤ) : (script key c t i now).1.lastRefill = now := by
  unfold script
  dsimp only
  split_ifs <;> rfl

/-- An interval adds a token, and less than an interval adds none. -/
theorem one_le_refill {tokens last : ℤ} (htokens : 0 ≤ tokens) (hlast : last ≤ now) :
    1 ≤ tokens + (now - last).fdiv l.intervalSeconds * l.tokensPerInterval ↔
      1 ≤ tokens ∨ last + l.intervalSeconds ≤ now := by
  have hinterval := l.one_le_interval
  have hadd := l.one_le_tokens
  rw [Int.fdiv_eq_ediv_of_nonneg _ (by omega)]
  have hnonneg : 0 ≤ (now - last) / l.intervalSeconds :=
    Int.ediv_nonneg (by omega) (by omega)
  have hgain : 0 ≤ (now - last) / l.intervalSeconds * l.tokensPerInterval :=
    Int.mul_nonneg hnonneg (by omega)
  constructor
  · intro h
    by_contra hnot
    push Not at hnot
    have hzero : (now - last) / l.intervalSeconds = 0 :=
      Int.ediv_eq_zero_of_lt (by omega) (by omega)
    rw [hzero] at h
    omega
  · rintro (h | h)
    · omega
    · have hone : 1 ≤ (now - last) / l.intervalSeconds := by
        rw [Int.le_ediv_iff_mul_le (by omega)]
        omega
      have hmul := Int.mul_le_mul hone hadd (by omega) hnonneg
      omega

/-- The call is allowed exactly if the bucket rested. -/
theorem allowed_script_iff {last : Option ℤ} (h : StoredAt key last)
    (hnow : ∀ t, last = some t → t ≤ now) :
    (script key l.capacity l.tokensPerInterval l.intervalSeconds now).2.1 = true ↔
      Rested l key now := by
  have hcap := l.one_le_capacity
  unfold script Rested
  cases hlive : liveKey key now with
  | none =>
    have hzero : (0 : ℤ).fdiv l.intervalSeconds = 0 := Int.zero_fdiv _
    simp [addTokens_limits, hzero, hcap]
  | some k =>
    obtain ⟨hkey, -⟩ := liveKey_eq_some.mp hlive
    have hlast : k.lastRefill ≤ now := hnow _ (by rw [← h.lastRefill, hkey]; rfl)
    have hrefill := one_le_refill l (h.tokens k hkey) hlast
    simp only [Option.map_some, Option.getD_some, addTokens_limits]
    constructor
    · rintro hif k' ⟨⟩
      split_ifs at hif with hone
      exact hrefill.mp (by omega)
    · intro hrested
      have hone := hrefill.mpr (hrested k rfl)
      rw [if_pos (by omega)]

theorem storedAt_script {last : Option ℤ} (h : StoredAt key last)
    (hnow : ∀ t, last = some t → t ≤ now) :
    StoredAt (some (script key l.capacity l.tokensPerInterval l.intervalSeconds now).1)
      (some now) := by
  refine ⟨?_, by rw [Option.map_some, lastRefill_script]⟩
  rintro k ⟨⟩
  have hcap := l.one_le_capacity
  unfold script
  dsimp only
  split_ifs with hone
  · dsimp only
    omega
  · -- less than one token is left, and the refill adds no negative number
    cases hlive : liveKey key now with
    | none =>
      have hzero : (0 : ℤ).fdiv l.intervalSeconds = 0 := Int.zero_fdiv _
      simp [addTokens_limits, hzero]
      omega
    | some k =>
      obtain ⟨hkey, -⟩ := liveKey_eq_some.mp hlive
      have hlast : k.lastRefill ≤ now := hnow _ (by rw [← h.lastRefill, hkey]; rfl)
      have htokens := h.tokens k hkey
      have hinterval := l.one_le_interval
      have hadd := l.one_le_tokens
      have hgain : 0 ≤ (now - k.lastRefill).fdiv l.intervalSeconds * l.tokensPerInterval :=
        Int.mul_nonneg (Int.fdiv_nonneg (by omega) (by omega)) (by omega)
      simp only [Option.map_some, Option.getD_some, addTokens_limits]
      omega

end Script

/-! ## Sequences of calls -/

/-- A bucket, with the times of the last call and of the last call that was allowed. -/
structure LimiterRun where
  key : Option RedisBucket := none
  lastCall : Option ℤ := none
  lastAllowed : Option ℤ := none

/-- One call. -/
def LimiterRun.next (l : Limits) (r : LimiterRun) (now : ℤ) : LimiterRun :=
  let (bucket, allowed, _) :=
    script r.key l.capacity l.tokensPerInterval l.intervalSeconds now
  { key := some bucket
    lastCall := some now
    lastAllowed := if allowed then some now else r.lastAllowed }

/-- The calls on one key. -/
def limiterMachine (l : Limits) : Machine LimiterRun ℤ where
  init := {}
  step r now := some (r.next l now)

/-- The call answers `1`. -/
def LimiterRun.allows (l : Limits) (r : LimiterRun) (now : ℤ) : Bool :=
  (script r.key l.capacity l.tokensPerInterval l.intervalSeconds now).2.1

/-- The clock does not go back. -/
def InOrder (r : LimiterRun) (now : ℤ) : Prop :=
  ∀ t, r.lastCall = some t → t ≤ now

/-- An interval has passed since the last allowed call. -/
def Due (l : Limits) (r : LimiterRun) (now : ℤ) : Prop :=
  ∃ t, r.lastAllowed = some t ∧ t + l.intervalSeconds ≤ now

theorem storedAt_of_run {l : Limits} {ok : LimiterRun → ℤ → Prop} {ts : List ℤ}
    {r : LimiterRun} (h : (limiterMachine l).Run (fun r now => InOrder r now ∧ ok r now) ts r) :
    StoredAt r.key r.lastCall := by
  refine h.invariant (I := fun r => StoredAt r.key r.lastCall)
    ⟨by simp [limiterMachine], rfl⟩ fun s now t hs hok hst => ?_
  obtain rfl := Option.some.inj hst
  exact storedAt_script l hs hok.1

/-- In the runs over `ok`, every call that comes an interval after the last allowed one is
allowed. -/
def AllowsWhenDue (l : Limits) (ok : LimiterRun → ℤ → Prop) : Prop :=
  ∀ ts r now, (limiterMachine l).Run (fun r now => InOrder r now ∧ ok r now) ts r →
    InOrder r now → ok r now → Due l r now → r.allows l now = true

/-- Such calls are allowed exactly if each finds its bucket rested. -/
theorem allowsWhenDue_iff (l : Limits) (ok : LimiterRun → ℤ → Prop) :
    AllowsWhenDue l ok ↔
      ∀ ts r now, (limiterMachine l).Run (fun r now => InOrder r now ∧ ok r now) ts r →
        InOrder r now → ok r now → Due l r now → Rested l r.key now := by
  constructor
  · intro h ts r now hrun hnow hok hdue
    exact (allowed_script_iff l (storedAt_of_run hrun) hnow).mp (h ts r now hrun hnow hok hdue)
  · intro h ts r now hrun hnow hok hdue
    exact (allowed_script_iff l (storedAt_of_run hrun) hnow).mpr (h ts r now hrun hnow hok hdue)

instance (r : LimiterRun) (now : ℤ) : Decidable (InOrder r now) :=
  match h : r.lastCall with
  | none => isTrue (by simp [InOrder, h])
  | some t => decidable_of_iff (t ≤ now) (by simp [InOrder, h])

/-- One token, two seconds : a call is allowed, a second later one is refused, and so is one
when the two seconds have passed. -/
theorem not_allowsWhenDue : ¬∀ l, AllowsWhenDue l fun _ _ => True := by
  intro h
  obtain ⟨r, hrun, hp⟩ := Machine.exists_run
    (limiterMachine ⟨1, 1, 2, by decide, by decide, by decide⟩)
    (fun r now => InOrder r now ∧ True) [0, 1]
    (fun r => decide (InOrder r 2) && decide (r.lastAllowed = some 0) &&
      !r.allows ⟨1, 1, 2, by decide, by decide, by decide⟩ 2) (by decide)
  simp only [Bool.and_eq_true, decide_eq_true_eq, Bool.not_eq_true'] at hp
  have hallowed := h _ [0, 1] r 2 hrun hp.1.1 trivial ⟨0, hp.1.2, by decide⟩
  rw [hp.2] at hallowed
  cases hallowed

end Clients

end MultiAgent
