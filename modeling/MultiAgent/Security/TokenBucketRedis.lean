import Mathlib.Tactic.NormNum
import MultiAgent.Security.TokenBucket

/-!
# The local and the Redis path of a token bucket

Both paths refill and take the same numbers, and the key that the script keeps is the
state of the local bucket (`Agrees`). The key expires an hour after the last call, and a
bucket whose key expired is full. So the two paths grant the same calls if every hour
refills a bucket, and for a bucket that takes longer they do not (`sameGrants_iff`).
-/

namespace MultiAgent

namespace TokenBuckets

/-- Calls at nondecreasing times from `t` on. -/
def InOrder : ℚ → List ConsumeCall → Prop
  | _, [] => True
  | t, c :: cs => t ≤ c.now ∧ InOrder c.now cs

/-- Which calls the local path grants. -/
def localGrants (b : TokenBucket) : List ConsumeCall → List Bool
  | [] => []
  | c :: cs =>
    granted (b.consumeLocal c.tokens c.now).2 ::
      localGrants (b.consumeLocal c.tokens c.now).1 cs

/-- Which calls the Redis path grants, while Redis answers. -/
def distributedGrants (b : TokenBucket) (key : Option RedisBucket) : List ConsumeCall → List Bool
  | [] => []
  | c :: cs =>
    granted (b.consumeDistributed key true c.tokens c.now).2.2 ::
      distributedGrants (b.consumeDistributed key true c.tokens c.now).1
        (b.consumeDistributed key true c.tokens c.now).2.1 cs

/-- The two paths grant the same calls of every sequence. -/
def SameGrants (config : TokenBucketConfig) : Prop :=
  ∀ created calls, InOrder created calls →
    distributedGrants (.new config created) none calls = localGrants (.new config created) calls

/-! ## The script -/

/-- `new_tokens` in the script, before it takes any. -/
def scriptTokens (config : TokenBucketConfig) (key : Option RedisBucket) (now : ℚ) : ℚ :=
  match liveKey key now with
  | none => config.capacity
  | some k => config.bucketRate.refill k.tokens (now - k.lastRefill)

theorem liveKey_of_lt {k : RedisBucket} {now : ℚ} (h : now < k.expiresAt) :
    liveKey (some k) now = some k :=
  Option.filter_some_pos (decide_eq_true h)

theorem liveKey_of_le {k : RedisBucket} {now : ℚ} (h : k.expiresAt ≤ now) :
    liveKey (some k) now = none :=
  Option.filter_some_neg (by simpa using h)

theorem luaScript_eq (config : TokenBucketConfig) (key : Option RedisBucket) (n : ℤ) (now : ℚ) :
    luaScript key config.capacity config.refillRate n now =
      if (n : ℚ) ≤ scriptTokens config key now then
        (⟨scriptTokens config key now - n, now, now + 3600⟩, true)
      else (⟨scriptTokens config key now, now, now + 3600⟩, false) := by
  unfold luaScript scriptTokens
  cases liveKey key now with
  | none => simp
  | some k => rfl

theorem expiresAt_luaScript (config : TokenBucketConfig) (key : Option RedisBucket) (n : ℤ)
    (now : ℚ) :
    (luaScript key config.capacity config.refillRate n now).1.expiresAt = now + 3600 := by
  rw [luaScript_eq]
  split_ifs <;> rfl

/-- Without a live key the bucket is full. -/
theorem luaScript_of_gone (config : TokenBucketConfig) {key : Option RedisBucket} {now : ℚ}
    (h : liveKey key now = none) {n : ℤ} (hn : n ≤ config.capacity) :
    (luaScript key config.capacity config.refillRate n now).2 = true := by
  have hfull : (n : ℚ) ≤ scriptTokens config key now := by
    rw [scriptTokens, h]
    change (n : ℚ) ≤ config.capacity
    exact_mod_cast hn
  rw [luaScript_eq, if_pos hfull]

theorem calculateRetryAfter_ok {b : TokenBucket} (hr : 0 < b.config.refillRate) (n : ℤ) :
    ∃ retryAfter, b.calculateRetryAfter n = .ok retryAfter := by
  unfold TokenBucket.calculateRetryAfter
  dsimp only
  rw [if_neg hr.ne']
  split_ifs <;> exact ⟨_, rfl⟩

/-- With a positive rate the Redis path leaves the local bucket alone, and answers as the
script does. -/
theorem consumeDistributed_up {b : TokenBucket} (hr : 0 < b.config.refillRate)
    (key : Option RedisBucket) (n : ℤ) (now : ℚ) :
    let script := luaScript key b.config.capacity b.config.refillRate n now
    (b.consumeDistributed key true n now).1 = b ∧
      (b.consumeDistributed key true n now).2.1 = some script.1 ∧
      granted (b.consumeDistributed key true n now).2.2 = script.2 := by
  intro script
  obtain ⟨retryAfter, hretry⟩ := calculateRetryAfter_ok hr n
  have hscript : luaScript key b.config.capacity b.config.refillRate n now = script := rfl
  unfold TokenBucket.consumeDistributed
  rw [if_pos rfl, hscript, hretry]
  obtain ⟨hash, success⟩ := script
  cases success <;> exact ⟨rfl, rfl, rfl⟩

/-! ## Agreement -/

/-- The key holds the state of the local bucket `b`, or there is none and `b` is full. -/
structure Agrees (config : TokenBucketConfig) (b : TokenBucket) (key : Option RedisBucket) :
    Prop where
  sameConfig : b.config = config
  low : min 0 (config.capacity : ℚ) ≤ b.state.tokens
  sameKey : key = none ∧ b.state.tokens = config.capacity ∨
    key = some ⟨b.state.tokens, b.state.lastRefill, b.state.lastRefill + 3600⟩

theorem agrees_new (config : TokenBucketConfig) (created : ℚ) :
    Agrees config (.new config created) none :=
  ⟨rfl, min_le_right _ _, Or.inl ⟨rfl, rfl⟩⟩

section Agrees

variable {config : TokenBucketConfig} {b : TokenBucket} {key : Option RedisBucket} {now : ℚ}

/-- The script finds the tokens of the local bucket, unless it finds an expired key of a
bucket that is not full again. -/
theorem Agrees.scriptTokens_eq (h : Agrees config b key) (hr : 0 ≤ config.refillRate)
    (hnow : b.state.lastRefill ≤ now)
    (hexp : b.state.lastRefill + 3600 ≤ now → (config.capacity : ℚ) ≤ 3600 * config.refillRate) :
    scriptTokens config key now = b.tokensAt now := by
  have helapsed : 0 ≤ now - b.state.lastRefill := sub_nonneg.mpr hnow
  unfold scriptTokens TokenBucket.tokensAt
  rw [h.sameConfig]
  rcases h.sameKey with ⟨rfl, hfull⟩ | rfl
  · rw [hfull]
    exact (BucketRate.refill_full (b := config.bucketRate) hr helapsed).symm
  · rcases lt_or_ge now (b.state.lastRefill + 3600) with hlive | hgone
    · rw [liveKey_of_lt hlive]
    · have hcap := hexp hgone
      have hhour : 3600 * config.refillRate ≤
          (now - b.state.lastRefill) * config.refillRate :=
        mul_le_mul_of_nonneg_right (by linarith) hr
      have hgain : 0 ≤ (now - b.state.lastRefill) * config.refillRate := mul_nonneg helapsed hr
      have hfull : (config.capacity : ℚ) ≤
          b.state.tokens + (now - b.state.lastRefill) * config.refillRate := by
        rcases le_total (0 : ℚ) config.capacity with hpos | hneg
        · have hlow := h.low
          rw [min_eq_left hpos] at hlow
          linarith
        · have hlow := h.low
          rw [min_eq_right hneg] at hlow
          linarith
      rw [liveKey_of_le hgone]
      exact (BucketRate.refill_eq_capacity (b := config.bucketRate) hfull).symm

/-- A call on agreeing buckets is granted by both paths or by neither, and they agree
afterwards. -/
theorem Agrees.next (h : Agrees config b key) (hr : 0 ≤ config.refillRate) (n : ℤ)
    (hnow : b.state.lastRefill ≤ now)
    (hexp : b.state.lastRefill + 3600 ≤ now → (config.capacity : ℚ) ≤ 3600 * config.refillRate) :
    let script := luaScript key config.capacity config.refillRate n now
    script.2 = granted (b.consumeLocal n now).2 ∧
      Agrees config (b.consumeLocal n now).1 (some script.1) := by
  have hscript := luaScript_eq config key n now
  have hleft := b.tokens_consumeLocal n now
  have hlow : min 0 (config.capacity : ℚ) ≤ b.tokensAt now := by
    have hrefill := BucketRate.le_refill (b := config.bucketRate) (x := b.state.tokens) hr
      (sub_nonneg.mpr hnow)
    rw [TokenBucket.tokensAt, h.sameConfig]
    exact (le_min (min_le_right _ _) h.low).trans hrefill
  rw [h.scriptTokens_eq hr hnow hexp] at hscript
  rw [hscript, b.granted_consumeLocal]
  by_cases hle : (n : ℚ) ≤ b.tokensAt now
  · rw [if_pos hle] at hleft ⊢
    refine ⟨by simp [hle], by simp [h.sameConfig], ?_, Or.inr ?_⟩
    · rw [hleft]
      exact (min_le_left _ _).trans (sub_nonneg.mpr hle)
    · rw [hleft, TokenBucket.lastRefill_consumeLocal]
  · rw [if_neg hle] at hleft ⊢
    refine ⟨by simp [hle], by simp [h.sameConfig], ?_, Or.inr ?_⟩
    · rw [hleft]
      exact hlow
    · rw [hleft, TokenBucket.lastRefill_consumeLocal]

end Agrees

theorem Agrees.grants_eq {config : TokenBucketConfig} (hr : 0 < config.refillRate)
    (hhour : (config.capacity : ℚ) ≤ 3600 * config.refillRate) {d : TokenBucket}
    (hd : d.config = config) : ∀ {b : TokenBucket} {key : Option RedisBucket}
      {calls : List ConsumeCall}, Agrees config b key → InOrder b.state.lastRefill calls →
        distributedGrants d key calls = localGrants b calls
  | _, _, [], _, _ => rfl
  | b, key, c :: cs, h, hcalls => by
    obtain ⟨hsame, hkey, hgranted⟩ := consumeDistributed_up (hd ▸ hr) key c.tokens c.now
    obtain ⟨hgrant, hagrees⟩ := h.next hr.le c.tokens hcalls.1 fun _ => hhour
    rw [hd] at hkey hgranted
    have hcs : InOrder (b.consumeLocal c.tokens c.now).1.state.lastRefill cs := by
      rw [TokenBucket.lastRefill_consumeLocal]
      exact hcalls.2
    rw [distributedGrants, localGrants, hgranted, hgrant, hsame, hkey]
    exact congrArg _ (Agrees.grants_eq hr hhour hd hagrees hcs)

/-- A bucket that an hour does not refill, emptied and asked for everything an hour later :
the local path refuses. -/
theorem second_local {config : TokenBucketConfig}
    (hslow : 3600 * config.refillRate < config.capacity) :
    (localGrants (.new config 0)
      [⟨config.capacity, 0⟩, ⟨config.capacity, 3600⟩])[1]? = some false := by
  have hfull : (TokenBucket.new config 0).tokensAt 0 = config.capacity := by
    simp [TokenBucket.tokensAt, TokenBucket.new, BucketRate.refill, TokenBucketConfig.bucketRate]
  have hempty := (TokenBucket.new config 0).tokens_consumeLocal config.capacity 0
  rw [hfull, if_pos (le_refl _), sub_self] at hempty
  have hlevel : ((TokenBucket.new config 0).consumeLocal config.capacity 0).1.tokensAt 3600 =
      3600 * config.refillRate := by
    rw [TokenBucket.tokensAt, hempty, TokenBucket.config_consumeLocal,
      TokenBucket.lastRefill_consumeLocal, BucketRate.refill]
    simpa [TokenBucket.new, TokenBucketConfig.bucketRate] using hslow.le
  simp [localGrants, TokenBucket.granted_consumeLocal, hlevel, hslow]

/-- The Redis path grants. -/
theorem second_distributed {config : TokenBucketConfig} (hr : 0 < config.refillRate) :
    (distributedGrants (.new config 0) none
      [⟨config.capacity, 0⟩, ⟨config.capacity, 3600⟩])[1]? = some true := by
  have hrate : 0 < (TokenBucket.new config 0).config.refillRate := hr
  obtain ⟨hsame, hkey, -⟩ := consumeDistributed_up hrate none config.capacity 0
  have hgone : liveKey ((TokenBucket.new config 0).consumeDistributed none true
      config.capacity 0).2.1 3600 = none := by
    rw [hkey]
    exact liveKey_of_le (by rw [expiresAt_luaScript, zero_add])
  obtain ⟨-, -, hgranted⟩ := consumeDistributed_up hrate
    ((TokenBucket.new config 0).consumeDistributed none true config.capacity 0).2.1
    config.capacity 3600
  have hscript := hgranted.trans (luaScript_of_gone config hgone (le_refl _))
  simpa [distributedGrants, hsame] using hscript

/-- A bucket that takes longer than an hour to fill is emptied, and asked for everything
again when its key has expired. -/
theorem not_sameGrants_of_slow {config : TokenBucketConfig} (hr : 0 < config.refillRate)
    (hslow : 3600 * config.refillRate < config.capacity) : ¬SameGrants config := by
  intro h
  have hcalls := h 0 [⟨config.capacity, 0⟩, ⟨config.capacity, 3600⟩]
    ⟨le_refl _, by norm_num, trivial⟩
  have hsecond := congrArg (fun l => l[1]?) hcalls
  rw [second_distributed hr, second_local hslow] at hsecond
  cases hsecond

/-- The two paths grant the same calls exactly if an hour refills the bucket. -/
theorem sameGrants_iff {config : TokenBucketConfig} (hr : 0 < config.refillRate) :
    SameGrants config ↔ (config.capacity : ℚ) ≤ 3600 * config.refillRate := by
  constructor
  · intro h
    by_contra hslow
    exact not_sameGrants_of_slow hr (not_le.mp hslow) h
  · intro hhour created calls hcalls
    exact (agrees_new config created).grants_eq hr hhour rfl hcalls

/-- The free tier : a hundred tokens, refilled in a hundred seconds. -/
theorem sameGrants_free : SameGrants ⟨100, 1, some 10, 1000⟩ :=
  (sameGrants_iff (by norm_num)).mpr (by norm_num)

/-- A hundred tokens at one token in a hundred seconds : an hour refills 36. -/
theorem not_sameGrants : ¬∀ config : TokenBucketConfig, 0 < config.refillRate →
    SameGrants config := by
  intro h
  have hrate : (0 : ℚ) < 1 / 100 := by norm_num
  exact not_sameGrants_of_slow hrate (by norm_num) (h ⟨100, 1 / 100, none, 1000⟩ hrate)

end TokenBuckets

end MultiAgent
