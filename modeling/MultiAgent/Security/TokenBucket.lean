import Mathlib.Algebra.Order.Field.Rat
import MultiAgent.Lib.Machine
import MultiAgent.Lib.PyValue
import MultiAgent.Lib.TokenBucket

/-!
# The token buckets of the security library

`TokenBucket` of `libs/security/token_buckets.py`, with its local path and its Redis path.
Numbers are exact. The Redis key holds `tokens` and `last_refill`, and is gone once its
time to live has passed.
-/

namespace MultiAgent

namespace TokenBuckets

/-- `TokenBucketConfig`. -/
structure TokenBucketConfig where
  capacity : ℤ
  refillRate : ℚ
  burstCapacity : Option ℤ := none
  refillIntervalMs : ℤ := 1000
  deriving DecidableEq

/-- `TokenBucketState`. -/
structure TokenBucketState where
  tokens : ℚ
  lastRefill : ℚ
  burstTokens : ℚ := 0
  totalRequests : ℕ := 0
  successfulRequests : ℕ := 0
  blockedRequests : ℕ := 0
  deriving DecidableEq

/-- The attributes of `TokenBucket`. -/
structure TokenBucket where
  config : TokenBucketConfig
  state : TokenBucketState
  deriving DecidableEq

/-- What `consume` returns. -/
inductive ConsumeResult
  | consumed (tokensConsumed : ℤ) (tokensRemaining : ℚ)
  | blocked (tokensRequested : ℤ) (tokensAvailable : ℚ) (retryAfterSeconds : ℚ)
  deriving DecidableEq

/-- The call returned `True`. -/
def granted : Except ArithmeticError ConsumeResult → Bool
  | .ok (.consumed _ _) => true
  | .ok (.blocked _ _ _) => false
  | .error _ => false

/-- The Redis hash of a bucket, and when Redis drops it. -/
structure RedisBucket where
  tokens : ℚ
  lastRefill : ℚ
  expiresAt : ℚ
  deriving DecidableEq

/-- Capacity and rate. -/
def TokenBucketConfig.bucketRate (c : TokenBucketConfig) : BucketRate ℚ :=
  ⟨c.capacity, c.refillRate⟩

namespace TokenBucket

/-- `__init__`. -/
def new (config : TokenBucketConfig) (now : ℚ) : TokenBucket :=
  ⟨config, { tokens := config.capacity, lastRefill := now }⟩

variable (b : TokenBucket)

/-- `burst_tokens` after a refill. -/
def refillBurst (tokensToRefill : ℚ) : ℚ :=
  match b.config.burstCapacity with
  | none => b.state.burstTokens
  | some burst =>
    if burst = 0 then b.state.burstTokens
    else min (burst : ℚ) (b.state.burstTokens + tokensToRefill)

/-- `_refill_tokens`. -/
def refillTokens (currentTime : ℚ) : TokenBucket :=
  let timeElapsed := currentTime - b.state.lastRefill
  let tokensToRefill := timeElapsed * b.config.refillRate
  { b with state := { b.state with
      tokens := min (b.config.capacity : ℚ) (b.state.tokens + tokensToRefill)
      burstTokens := b.refillBurst tokensToRefill
      lastRefill := currentTime } }

/-- `_calculate_retry_after`. -/
def calculateRetryAfter (tokensRequested : ℤ) : Except ArithmeticError ℚ :=
  if tokensRequested ≤ 0 then .ok 0
  else
    let tokensNeeded := tokensRequested - b.state.tokens
    if tokensNeeded ≤ 0 then .ok 0
    else if b.config.refillRate = 0 then .error .zeroDivision
    else .ok (max 0 (tokensNeeded / b.config.refillRate))

/-- `_consume_local`. -/
def consumeLocal (tokens : ℤ) (now : ℚ) :
    TokenBucket × Except ArithmeticError ConsumeResult :=
  let b := b.refillTokens now
  if (tokens : ℚ) ≤ b.state.tokens then
    let b := { b with state := { b.state with
      tokens := b.state.tokens - tokens
      totalRequests := b.state.totalRequests + 1
      successfulRequests := b.state.successfulRequests + 1 } }
    (b, .ok (.consumed tokens b.state.tokens))
  else
    let b := { b with state := { b.state with
      totalRequests := b.state.totalRequests + 1
      blockedRequests := b.state.blockedRequests + 1 } }
    (b, (b.calculateRetryAfter tokens).map (.blocked tokens b.state.tokens))

end TokenBucket

/-- What a command finds at the key : a key past its time to live is gone. -/
def liveKey (key : Option RedisBucket) (now : ℚ) : Option RedisBucket :=
  key.filter fun k => now < k.expiresAt

/-- `lua_script` : the hash afterwards, and whether it returned `1`. -/
def luaScript (key : Option RedisBucket) (capacity : ℤ) (refillRate : ℚ) (tokensRequested : ℤ)
    (currentTime : ℚ) : RedisBucket × Bool :=
  let bucketData := liveKey key currentTime
  let currentTokens : ℚ := (bucketData.map (·.tokens)).getD capacity
  let lastRefill := (bucketData.map (·.lastRefill)).getD currentTime
  let timeElapsed := currentTime - lastRefill
  let tokensToRefill := timeElapsed * refillRate
  let newTokens := min (capacity : ℚ) (currentTokens + tokensToRefill)
  if (tokensRequested : ℚ) ≤ newTokens then
    (⟨newTokens - tokensRequested, currentTime, currentTime + 3600⟩, true)
  else (⟨newTokens, currentTime, currentTime + 3600⟩, false)

/-- `_consume_distributed`. `redisUp` is false when the call of `eval` raises, and the
`except` clause also catches what `_calculate_retry_after` raises. -/
def TokenBucket.consumeDistributed (b : TokenBucket) (key : Option RedisBucket) (redisUp : Bool)
    (tokens : ℤ) (now : ℚ) :
    TokenBucket × Option RedisBucket × Except ArithmeticError ConsumeResult :=
  if redisUp then
    let (hash, success) := luaScript key b.config.capacity b.config.refillRate tokens now
    if success then (b, some hash, .ok (.consumed tokens hash.tokens))
    else
      match b.calculateRetryAfter tokens with
      | .ok retryAfter => (b, some hash, .ok (.blocked tokens hash.tokens retryAfter))
      | .error _ =>
        let (b, result) := b.consumeLocal tokens now
        (b, some hash, result)
  else
    let (b, result) := b.consumeLocal tokens now
    (b, key, result)

/-! ## The local path -/

namespace TokenBucket

variable (b : TokenBucket) (tokens : ℤ) (now : ℚ)

/-- The tokens after the refill at `now`. -/
def tokensAt : ℚ :=
  b.config.bucketRate.refill b.state.tokens (now - b.state.lastRefill)

theorem tokens_refillTokens : (b.refillTokens now).state.tokens = b.tokensAt now := rfl

/-- The call is granted exactly if the refilled bucket holds the tokens. -/
theorem granted_consumeLocal :
    granted (b.consumeLocal tokens now).2 = decide ((tokens : ℚ) ≤ b.tokensAt now) := by
  unfold consumeLocal
  dsimp only
  rw [tokens_refillTokens]
  by_cases h : (tokens : ℚ) ≤ b.tokensAt now
  · simp [h, granted]
  · simp only [h, if_false, decide_false]
    generalize TokenBucket.calculateRetryAfter _ tokens = retryAfter
    cases retryAfter <;> rfl

@[simp] theorem config_consumeLocal : (b.consumeLocal tokens now).1.config = b.config := by
  unfold consumeLocal
  dsimp only
  split_ifs <;> rfl

@[simp] theorem lastRefill_consumeLocal :
    (b.consumeLocal tokens now).1.state.lastRefill = now := by
  unfold consumeLocal
  dsimp only
  split_ifs <;> rfl

theorem tokens_consumeLocal : (b.consumeLocal tokens now).1.state.tokens =
    if (tokens : ℚ) ≤ b.tokensAt now then b.tokensAt now - tokens else b.tokensAt now := by
  unfold consumeLocal
  dsimp only
  rw [tokens_refillTokens]
  split_ifs <;> rfl

end TokenBucket

/-- A call of `consume`. -/
structure ConsumeCall where
  tokens : ℤ
  now : ℚ
  deriving DecidableEq

/-- A local bucket, the time of the last call, and what was granted, newest first. -/
structure BucketRun where
  bucket : TokenBucket
  clock : ℚ
  grants : List (Grant ℚ) := []

/-- One call. -/
def BucketRun.next (r : BucketRun) (c : ConsumeCall) : BucketRun where
  bucket := (r.bucket.consumeLocal c.tokens c.now).1
  clock := c.now
  grants :=
    if granted (r.bucket.consumeLocal c.tokens c.now).2 then ⟨c.now, c.tokens⟩ :: r.grants
    else r.grants

/-- The calls on a bucket that was made at time `created`. -/
def bucketMachine (config : TokenBucketConfig) (created : ℚ) :
    Machine BucketRun ConsumeCall where
  init := ⟨.new config created, created, []⟩
  step r c := some (r.next c)

/-- The calls ask for no negative amount, at nondecreasing times. -/
def Ordered (r : BucketRun) (c : ConsumeCall) : Prop :=
  0 ≤ c.tokens ∧ r.clock ≤ c.now

/-- The bucket holds what the ideal bucket holds. -/
structure HoldsIdeal (config : TokenBucketConfig) (r : BucketRun) : Prop where
  sameConfig : r.bucket.config = config
  sameClock : r.bucket.state.lastRefill = r.clock
  tokens : r.bucket.state.tokens = config.bucketRate.level r.grants r.clock
  conform : config.bucketRate.Conform r.grants
  past : ∀ g ∈ r.grants, g.time ≤ r.clock

theorem HoldsIdeal.tokensAt {config : TokenBucketConfig} {r : BucketRun} (h : HoldsIdeal config r)
    (hr : 0 ≤ config.refillRate) {now : ℚ} (hnow : r.clock ≤ now) :
    r.bucket.tokensAt now = config.bucketRate.level r.grants now := by
  rw [TokenBucket.tokensAt, h.sameConfig, h.tokens, h.sameClock]
  exact (BucketRate.level_advance hr r.grants hnow).symm

theorem HoldsIdeal.next {config : TokenBucketConfig} {r : BucketRun} (h : HoldsIdeal config r)
    (hr : 0 ≤ config.refillRate) {c : ConsumeCall} (hc : Ordered r c) :
    HoldsIdeal config (r.next c) := by
  obtain ⟨htokens, hnow⟩ := hc
  have hlevel := h.tokensAt hr hnow
  have hpast : ∀ g ∈ r.grants, g.time ≤ c.now := fun g hg => (h.past g hg).trans hnow
  have hgranted := r.bucket.granted_consumeLocal c.tokens c.now
  have hleft := r.bucket.tokens_consumeLocal c.tokens c.now
  rw [hlevel] at hgranted hleft
  by_cases hle : (c.tokens : ℚ) ≤ config.bucketRate.level r.grants c.now
  · have hnext : r.next c = ⟨(r.bucket.consumeLocal c.tokens c.now).1, c.now,
        ⟨c.now, c.tokens⟩ :: r.grants⟩ := by
      simp [BucketRun.next, hgranted, hle]
    have hamount : (0 : ℚ) ≤ c.tokens := by exact_mod_cast htokens
    rw [hnext]
    refine ⟨by simp [h.sameConfig], by simp, ?_, ⟨h.conform, hle, hpast⟩, fun g hg => ?_⟩
    · change (r.bucket.consumeLocal c.tokens c.now).1.state.tokens = _
      rw [hleft, if_pos hle]
      exact (BucketRate.level_cons_self (g := ⟨c.now, c.tokens⟩) hamount r.grants).symm
    · rcases List.mem_cons.mp hg with rfl | hg
      · exact le_refl _
      · exact hpast g hg
  · have hnext : r.next c =
        ⟨(r.bucket.consumeLocal c.tokens c.now).1, c.now, r.grants⟩ := by
      simp [BucketRun.next, hgranted, hle]
    rw [hnext]
    refine ⟨by simp [h.sameConfig], by simp, ?_, h.conform, hpast⟩
    change (r.bucket.consumeLocal c.tokens c.now).1.state.tokens = _
    rw [hleft, if_neg hle]

theorem ideal_of_run {config : TokenBucketConfig} (hr : 0 ≤ config.refillRate) {created : ℚ}
    {calls : List ConsumeCall} {r : BucketRun}
    (h : (bucketMachine config created).Run Ordered calls r) : HoldsIdeal config r := by
  refine h.invariant ⟨rfl, rfl, rfl, trivial, by simp [bucketMachine]⟩ fun s c t hs hok hst => ?_
  exact Option.some.inj hst ▸ hs.next hr hok

/-- A call as a request to the ideal bucket. -/
def ConsumeCall.request (c : ConsumeCall) : Grant ℚ :=
  ⟨c.now, c.tokens⟩

/-- The calls that are granted are those the ideal bucket grants. -/
theorem grants_of_run {config : TokenBucketConfig} (hr : 0 ≤ config.refillRate) {created : ℚ}
    {calls : List ConsumeCall} {r : BucketRun}
    (h : (bucketMachine config created).Run Ordered calls r) :
    r.grants = config.bucketRate.serve (calls.map ConsumeCall.request).reverse := by
  induction h with
  | nil => rfl
  | @snoc es s c t hrun hok hst ih =>
    obtain rfl := Option.some.inj hst
    have hlevel := (ideal_of_run hr hrun).tokensAt hr hok.2
    rw [List.map_append, List.map_singleton, List.reverse_append, List.reverse_singleton,
      List.singleton_append, BucketRate.serve, ← ih, BucketRun.next,
      TokenBucket.granted_consumeLocal, hlevel]
    simp only [decide_eq_true_eq]
    rfl

/-- What a local bucket keeps to : its tokens are within bounds, every window of time
grants at most the capacity and what was refilled, and a call is granted exactly if the
ideal bucket grants it. -/
structure RateBound (config : TokenBucketConfig) (calls : List ConsumeCall) (r : BucketRun) :
    Prop where
  nonneg : 0 ≤ r.bucket.state.tokens
  le_capacity : r.bucket.state.tokens ≤ config.capacity
  window : ∀ s t, s ≤ t →
    BucketRate.granted s t r.grants ≤ config.capacity + config.refillRate * (t - s)
  grants : r.grants = config.bucketRate.serve (calls.map ConsumeCall.request).reverse
  ideal : ∀ n now, r.clock ≤ now →
    (granted (r.bucket.consumeLocal n now).2 = true ↔
      (n : ℚ) ≤ config.bucketRate.level r.grants now)

/-- The local bucket keeps its rate after every sequence of calls. -/
theorem rateBound_of_run {config : TokenBucketConfig} (hc : 0 ≤ config.capacity)
    (hr : 0 ≤ config.refillRate) {created : ℚ} {calls : List ConsumeCall} {r : BucketRun}
    (h : (bucketMachine config created).Run Ordered calls r) : RateBound config calls r := by
  have hideal := ideal_of_run hr h
  have hcap : (0 : ℚ) ≤ config.capacity := by exact_mod_cast hc
  refine ⟨?_, ?_, fun s t hst => hideal.conform.granted_le hcap hr hst, grants_of_run hr h,
    fun n now hnow => ?_⟩
  · rw [hideal.tokens]
    exact hideal.conform.level_nonneg hcap hr hideal.past
  · rw [hideal.tokens]
    exact BucketRate.level_le _ _
  · rw [TokenBucket.granted_consumeLocal, hideal.tokensAt hr hnow, decide_eq_true_iff]

instance (r : BucketRun) (c : ConsumeCall) : Decidable (Ordered r c) :=
  inferInstanceAs (Decidable (_ ∧ _))

/-- A bucket of ten tokens and one token a second : eight and two granted, one refused. -/
theorem rateBound_of_burst : ∃ calls r, RateBound ⟨10, 1, none, 1000⟩ calls r ∧
    (calls.length = 3 ∧ r.grants = [⟨1, 2⟩, ⟨0, 8⟩]) := by
  obtain ⟨r, hrun, hp⟩ := Machine.exists_run (bucketMachine ⟨10, 1, none, 1000⟩ 0) Ordered
    [⟨8, 0⟩, ⟨4, 1 / 2⟩, ⟨2, 1⟩]
    (fun r => decide (r.grants = [⟨1, 2⟩, ⟨0, 8⟩])) (by decide +kernel)
  exact ⟨_, r, rateBound_of_run (by decide) (by decide) hrun, rfl, of_decide_eq_true hp⟩

end TokenBuckets

end MultiAgent
