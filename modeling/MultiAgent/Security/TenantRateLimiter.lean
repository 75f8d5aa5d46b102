import MultiAgent.Lib.Dict
import MultiAgent.Security.TokenBucket

/-!
# The rate limits of the tenants

`TenantRateLimiter` of `libs/security/token_buckets.py` without a Redis client. No method suspends
then, so calls come one at a time. A tenant has a bucket from its first call on, in the tier of
that call. The tier changes with `update_tenant_tier` only, which makes a new and full bucket, and
`reset_tenant_bucket` fills the bucket.

What a tenant is answered depends on its own calls only (`answers_filter`). Between two renewals
of its bucket it is granted what the ideal bucket of its tier grants, in any window of time at
most the capacity and what is refilled (`tenantBound_of_run`).
-/

namespace MultiAgent

namespace TokenBuckets

/-- What `get_state` returns. -/
structure BucketMetrics where
  tokens : ℚ
  capacity : ℤ
  refillRate : ℚ
  burstTokens : ℚ
  burstCapacity : Option ℤ
  totalRequests : ℕ
  successfulRequests : ℕ
  blockedRequests : ℕ
  successRate : ℚ
  utilization : ℚ
  deriving DecidableEq

namespace TokenBucket

variable (b : TokenBucket)

/-- `get_state`. -/
def getState (now : ℚ) : TokenBucket × Except ArithmeticError BucketMetrics :=
  let b := b.refillTokens now
  (b, if b.config.capacity = 0 then .error .zeroDivision
    else .ok {
      tokens := b.state.tokens
      capacity := b.config.capacity
      refillRate := b.config.refillRate
      burstTokens := b.state.burstTokens
      burstCapacity := b.config.burstCapacity
      totalRequests := b.state.totalRequests
      successfulRequests := b.state.successfulRequests
      blockedRequests := b.state.blockedRequests
      successRate := (b.state.successfulRequests : ℚ) / max 1 (b.state.totalRequests : ℚ)
      utilization := (b.config.capacity - b.state.tokens) / b.config.capacity })

/-- `reset`. -/
def reset (now : ℚ) : TokenBucket :=
  .new b.config now

end TokenBucket

/-- `_get_default_configs`. -/
def defaultConfigs (tier : String) : Option TokenBucketConfig :=
  if tier = "free" then some { capacity := 100, refillRate := 1, burstCapacity := some 10 }
  else if tier = "standard" then
    some { capacity := 1000, refillRate := 10, burstCapacity := some 50 }
  else if tier = "premium" then
    some { capacity := 10000, refillRate := 100, burstCapacity := some 500 }
  else if tier = "enterprise" then
    some { capacity := 100000, refillRate := 1000, burstCapacity := some 5000 }
  else none

/-- The configuration for a tier, that of `standard` if there is no such tier. -/
def configOf (tier : String) : TokenBucketConfig :=
  (defaultConfigs tier).getD { capacity := 1000, refillRate := 10, burstCapacity := some 50 }

theorem config_bounds (tier : String) :
    0 ≤ (configOf tier).capacity ∧ 0 ≤ (configOf tier).refillRate := by
  unfold configOf defaultConfigs
  split_ifs <;> simp

/-- The attributes of `TenantRateLimiter`. -/
structure TenantRateLimiter where
  tenantBuckets : Dict String TokenBucket := .empty

/-- A call of one of the methods, with the clock where the method reads it : `created` by a new
bucket, `now` by `_consume_local`. -/
inductive LimiterCall
  | checkRateLimit (tenantId : String) (tokens : ℤ) (tenantTier : String) (created now : ℚ)
  | getTenantMetrics (tenantId : String) (now : ℚ)
  | resetTenantBucket (tenantId : String) (now : ℚ)
  | updateTenantTier (tenantId newTier : String) (now : ℚ)

/-- The tenant of a call. -/
def LimiterCall.tenantId : LimiterCall → String
  | .checkRateLimit tenantId _ _ _ _ => tenantId
  | .getTenantMetrics tenantId _ => tenantId
  | .resetTenantBucket tenantId _ => tenantId
  | .updateTenantTier tenantId _ _ => tenantId

/-- What a call returns or raises. -/
inductive LimiterAnswer
  | rateLimit (result : Except ArithmeticError ConsumeResult)
  | metrics (state : Except ArithmeticError BucketMetrics)
  | tenantNotFound
  | none
  | valueError (text : String)
  deriving DecidableEq

namespace TenantRateLimiter

variable (r : TenantRateLimiter)

/-- `get_or_create_bucket`. -/
def getOrCreateBucket (tenantId tenantTier : String) (now : ℚ) :
    TenantRateLimiter × TokenBucket :=
  match r.tenantBuckets.get? tenantId with
  | some bucket => (r, bucket)
  | none =>
    let bucket := TokenBucket.new (configOf tenantTier) now
    (⟨r.tenantBuckets.set tenantId bucket⟩, bucket)

/-- `check_rate_limit`. -/
def checkRateLimit (tenantId : String) (tokens : ℤ) (tenantTier : String) (created now : ℚ) :
    TenantRateLimiter × LimiterAnswer :=
  let (r, bucket) := r.getOrCreateBucket tenantId tenantTier created
  let (bucket, result) := bucket.consumeLocal tokens now
  (⟨r.tenantBuckets.set tenantId bucket⟩, .rateLimit result)

/-- `get_tenant_metrics`. -/
def getTenantMetrics (tenantId : String) (now : ℚ) : TenantRateLimiter × LimiterAnswer :=
  match r.tenantBuckets.get? tenantId with
  | none => (r, .tenantNotFound)
  | some bucket =>
    let (bucket, state) := bucket.getState now
    (⟨r.tenantBuckets.set tenantId bucket⟩, .metrics state)

/-- `reset_tenant_bucket`. -/
def resetTenantBucket (tenantId : String) (now : ℚ) : TenantRateLimiter × LimiterAnswer :=
  match r.tenantBuckets.get? tenantId with
  | none => (r, .none)
  | some bucket => (⟨r.tenantBuckets.set tenantId (bucket.reset now)⟩, .none)

/-- `update_tenant_tier`. -/
def updateTenantTier (tenantId newTier : String) (now : ℚ) : TenantRateLimiter × LimiterAnswer :=
  if (defaultConfigs newTier).isNone then (r, .valueError s!"Invalid tenant tier: {newTier}")
  else
    let r : TenantRateLimiter := ⟨r.tenantBuckets.erase tenantId⟩
    ((r.getOrCreateBucket tenantId newTier now).1, .none)

/-- One call. -/
def step : LimiterCall → TenantRateLimiter × LimiterAnswer
  | .checkRateLimit tenantId tokens tenantTier created now =>
    r.checkRateLimit tenantId tokens tenantTier created now
  | .getTenantMetrics tenantId now => r.getTenantMetrics tenantId now
  | .resetTenantBucket tenantId now => r.resetTenantBucket tenantId now
  | .updateTenantTier tenantId newTier now => r.updateTenantTier tenantId newTier now

/-- What the calls are answered, one after the other, each with its tenant. -/
def answers : TenantRateLimiter → List LimiterCall → List (String × LimiterAnswer)
  | _, [] => []
  | r, c :: calls => (c.tenantId, (r.step c).2) :: answers (r.step c).1 calls

end TenantRateLimiter

/-! ## One tenant -/

/-- What a call does to the bucket of its tenant. -/
def bucketStep (bucket : Option TokenBucket) :
    LimiterCall → Option TokenBucket × LimiterAnswer
  | .checkRateLimit _ tokens tenantTier created now =>
    let b := bucket.getD (.new (configOf tenantTier) created)
    (some (b.consumeLocal tokens now).1, .rateLimit (b.consumeLocal tokens now).2)
  | .getTenantMetrics _ now =>
    (bucket.map fun b => (b.getState now).1,
      (bucket.map fun b => LimiterAnswer.metrics (b.getState now).2).getD .tenantNotFound)
  | .resetTenantBucket _ now => (bucket.map (·.reset now), .none)
  | .updateTenantTier _ newTier now =>
    if (defaultConfigs newTier).isNone then
      (bucket, .valueError s!"Invalid tenant tier: {newTier}")
    else (some (.new (configOf newTier) now), .none)

namespace TenantRateLimiter

variable (r : TenantRateLimiter) (c : LimiterCall)

theorem getOrCreateBucket_snd (tenantId tenantTier : String) (now : ℚ) :
    (r.getOrCreateBucket tenantId tenantTier now).2 =
      (r.tenantBuckets.get? tenantId).getD (.new (configOf tenantTier) now) := by
  unfold getOrCreateBucket
  cases r.tenantBuckets.get? tenantId <;> rfl

theorem getOrCreateBucket_get? (tenantId tenantTier t : String) (now : ℚ) :
    (r.getOrCreateBucket tenantId tenantTier now).1.tenantBuckets.get? t =
      if t = tenantId then
        some ((r.tenantBuckets.get? tenantId).getD (.new (configOf tenantTier) now))
      else r.tenantBuckets.get? t := by
  unfold getOrCreateBucket
  cases h : r.tenantBuckets.get? tenantId with
  | some bucket =>
    by_cases ht : t = tenantId
    · simp [ht, h]
    · simp [ht]
  | none => simp [Dict.get?_set]

/-- A call does to the bucket of its tenant what it does to a single one, and nothing to the
others. -/
theorem step_get? (t : String) : (r.step c).1.tenantBuckets.get? t =
    if t = c.tenantId then (bucketStep (r.tenantBuckets.get? t) c).1
    else r.tenantBuckets.get? t := by
  cases c with
  | checkRateLimit tenantId tokens tenantTier created now =>
    simp only [step, checkRateLimit, LimiterCall.tenantId, Dict.get?_set, getOrCreateBucket_snd,
      getOrCreateBucket_get?, bucketStep]
    by_cases ht : t = tenantId
    · simp [ht]
    · simp [ht]
  | getTenantMetrics tenantId now =>
    simp only [step, getTenantMetrics, LimiterCall.tenantId, bucketStep]
    by_cases ht : t = tenantId
    · cases h : r.tenantBuckets.get? tenantId <;> simp [ht, h]
    · cases h : r.tenantBuckets.get? tenantId <;> simp [ht, Dict.get?_set]
  | resetTenantBucket tenantId now =>
    simp only [step, resetTenantBucket, LimiterCall.tenantId, bucketStep]
    by_cases ht : t = tenantId
    · cases h : r.tenantBuckets.get? tenantId <;> simp [ht, h]
    · cases h : r.tenantBuckets.get? tenantId <;> simp [ht, Dict.get?_set]
  | updateTenantTier tenantId newTier now =>
    simp only [step, updateTenantTier, LimiterCall.tenantId, bucketStep]
    by_cases hnone : (defaultConfigs newTier).isNone
    · simp [hnone]
    · rw [if_neg hnone, if_neg hnone, getOrCreateBucket_get?, Dict.get?_erase, if_pos rfl,
        Option.getD_none, Dict.get?_erase]
      by_cases ht : t = tenantId <;> simp [ht]

theorem step_answer :
    (r.step c).2 = (bucketStep (r.tenantBuckets.get? c.tenantId) c).2 := by
  cases c with
  | checkRateLimit tenantId tokens tenantTier created now =>
    simp only [step, checkRateLimit, LimiterCall.tenantId, getOrCreateBucket_snd, bucketStep]
  | getTenantMetrics tenantId now =>
    simp only [step, getTenantMetrics, LimiterCall.tenantId, bucketStep]
    cases r.tenantBuckets.get? tenantId <;> rfl
  | resetTenantBucket tenantId now =>
    simp only [step, resetTenantBucket, LimiterCall.tenantId, bucketStep]
    cases r.tenantBuckets.get? tenantId <;> rfl
  | updateTenantTier tenantId newTier now =>
    simp only [step, updateTenantTier, bucketStep]
    split_ifs <;> rfl

theorem answers_filter_of_agree (t : String) (calls : List LimiterCall) {r q : TenantRateLimiter}
    (h : r.tenantBuckets.get? t = q.tenantBuckets.get? t) :
    (r.answers calls).filter (·.1 = t) = q.answers (calls.filter (·.tenantId = t)) := by
  induction calls generalizing r q with
  | nil => rfl
  | cons c calls ih =>
    have hr := r.step_get? c t
    by_cases hc : c.tenantId = t
    · have hq := q.step_get? c t
      rw [hc] at hr hq
      rw [answers, List.filter_cons_of_pos (by simpa using hc),
        List.filter_cons_of_pos (by simpa using hc), answers, step_answer, step_answer, hc, h,
        ih (hr.trans (by rw [hq, h]))]
    · rw [if_neg (Ne.symm hc)] at hr
      rw [answers, List.filter_cons_of_neg (by simpa using hc),
        List.filter_cons_of_neg (by simpa using hc), ih (hr.trans h)]

end TenantRateLimiter

/-- The calls with what they were answered, newest first. -/
abbrev LimiterHistory := List (LimiterCall × LimiterAnswer)

/-- The configuration of a tenant : of the tier of its first call, or of the last update. -/
def configSince (t : String) : LimiterHistory → Option TokenBucketConfig
  | [] => none
  | (.checkRateLimit tenantId _ tenantTier _ _, _) :: older =>
    if tenantId = t then some ((configSince t older).getD (configOf tenantTier))
    else configSince t older
  | (.updateTenantTier tenantId newTier _, answer) :: older =>
    if tenantId = t ∧ answer = .none then some (configOf newTier) else configSince t older
  | _ :: older => configSince t older

/-- What a tenant was granted since its bucket was made new or reset. -/
def grantsSince (t : String) : LimiterHistory → List (Grant ℚ)
  | [] => []
  | (.checkRateLimit tenantId tokens _ _ now, .rateLimit result) :: older =>
    if tenantId = t ∧ granted result = true then ⟨now, tokens⟩ :: grantsSince t older
    else grantsSince t older
  | (.resetTenantBucket tenantId _, _) :: older =>
    if tenantId = t then [] else grantsSince t older
  | (.updateTenantTier tenantId _ _, answer) :: older =>
    if tenantId = t ∧ answer = .none then [] else grantsSince t older
  | _ :: older => grantsSince t older

/-- A limiter, the time of the last call, and the history. -/
structure LimiterRun where
  limiter : TenantRateLimiter := {}
  clock : ℚ
  history : LimiterHistory := []

/-- The time at which a call is over. -/
def LimiterCall.now : LimiterCall → ℚ
  | .checkRateLimit _ _ _ _ now => now
  | .getTenantMetrics _ now => now
  | .resetTenantBucket _ now => now
  | .updateTenantTier _ _ now => now

/-- The calls on a limiter that was made at time `started`. -/
def limiterMachine (started : ℚ) : Machine LimiterRun LimiterCall where
  init := { clock := started }
  step r c := some {
    limiter := (r.limiter.step c).1
    clock := c.now
    history := (c, (r.limiter.step c).2) :: r.history }

/-- A call asks for no negative amount and reads the clock in order. -/
def ReadsForward (clock : ℚ) : LimiterCall → Prop
  | .checkRateLimit _ tokens _ created now => 0 ≤ tokens ∧ clock ≤ created ∧ created ≤ now
  | .getTenantMetrics _ now => clock ≤ now
  | .resetTenantBucket _ now => clock ≤ now
  | .updateTenantTier _ _ now => clock ≤ now

theorem ReadsForward.clock_le {clock : ℚ} {c : LimiterCall} (h : ReadsForward clock c) :
    clock ≤ c.now := by
  cases c with
  | checkRateLimit tenantId tokens tenantTier created now => exact h.2.1.trans h.2.2
  | getTenantMetrics tenantId now => exact h
  | resetTenantBucket tenantId now => exact h
  | updateTenantTier tenantId newTier now => exact h

theorem HoldsIdeal.new (config : TokenBucketConfig) (now : ℚ) :
    HoldsIdeal config ⟨.new config now, now, []⟩ :=
  ⟨rfl, rfl, rfl, trivial, by simp⟩

/-- The ideal bucket does not notice a refill. -/
theorem HoldsIdeal.refill {config : TokenBucketConfig} {b : TokenBucket} {clock : ℚ}
    {grants : List (Grant ℚ)} (h : HoldsIdeal config ⟨b, clock, grants⟩)
    (hr : 0 ≤ config.refillRate) {now : ℚ} (hnow : clock ≤ now) :
    HoldsIdeal config ⟨b.refillTokens now, now, grants⟩ where
  sameConfig := h.sameConfig
  sameClock := rfl
  tokens := by
    rw [TokenBucket.tokens_refillTokens]
    exact h.tokensAt hr hnow
  conform := h.conform
  past g hg := (h.past g hg).trans hnow

/-- The bucket of a tenant holds what the ideal bucket of its tier holds. -/
def Tracked (clock : ℚ) (grants : List (Grant ℚ)) (config : Option TokenBucketConfig) :
    Option TokenBucket → Prop
  | none => config = none ∧ grants = []
  | some b => config = some b.config ∧ (∃ tier, b.config = configOf tier) ∧
    ∃ refilled, refilled ≤ clock ∧ HoldsIdeal b.config ⟨b, refilled, grants⟩

theorem Tracked.rate_nonneg {clock : ℚ} {grants : List (Grant ℚ)}
    {config : Option TokenBucketConfig} {b : TokenBucket}
    (h : Tracked clock grants config (some b)) : 0 ≤ b.config.refillRate := by
  obtain ⟨-, ⟨tier, htier⟩, -⟩ := h
  exact htier ▸ (config_bounds tier).2

theorem Tracked.later {clock clock' : ℚ} {grants : List (Grant ℚ)}
    {config : Option TokenBucketConfig} {bucket : Option TokenBucket}
    (h : Tracked clock grants config bucket) (hle : clock ≤ clock') :
    Tracked clock' grants config bucket := by
  cases bucket with
  | none => exact h
  | some b =>
    obtain ⟨hconfig, htier, refilled, hrefilled, hideal⟩ := h
    exact ⟨hconfig, htier, refilled, hrefilled.trans hle, hideal⟩

theorem tracked_new (tier : String) (now : ℚ) :
    Tracked now [] (some (configOf tier)) (some (.new (configOf tier) now)) :=
  ⟨rfl, ⟨tier, rfl⟩, now, le_refl _, .new _ _⟩

/-- A call on the bucket of the tenant. -/
theorem Tracked.consume {clock : ℚ} {grants : List (Grant ℚ)} {config : Option TokenBucketConfig}
    {b : TokenBucket} (h : Tracked clock grants config (some b)) {tokens : ℤ} {now : ℚ}
    (htokens : 0 ≤ tokens) (hnow : clock ≤ now) :
    Tracked now
      (if granted (b.consumeLocal tokens now).2 = true then ⟨now, tokens⟩ :: grants else grants)
      config (some (b.consumeLocal tokens now).1) := by
  have hrate := h.rate_nonneg
  obtain ⟨rfl, htier, refilled, hrefilled, hideal⟩ := h
  have hnext := hideal.next hrate (c := ⟨tokens, now⟩) ⟨htokens, hrefilled.trans hnow⟩
  refine ⟨by rw [TokenBucket.config_consumeLocal], ?_, now, le_refl _, ?_⟩
  · rwa [TokenBucket.config_consumeLocal]
  · rw [TokenBucket.config_consumeLocal]
    exact hnext

/-- A call of the tenant. -/
theorem Tracked.step {clock : ℚ} {t : String} {history : LimiterHistory}
    {bucket : Option TokenBucket}
    (h : Tracked clock (grantsSince t history) (configSince t history) bucket) {c : LimiterCall}
    (ht : c.tenantId = t) (hc : ReadsForward clock c) :
    Tracked c.now (grantsSince t ((c, (bucketStep bucket c).2) :: history))
      (configSince t ((c, (bucketStep bucket c).2) :: history)) (bucketStep bucket c).1 := by
  subst ht
  cases c with
  | checkRateLimit tenantId tokens tenantTier created now =>
    obtain ⟨htokens, hcreated, hnow⟩ := hc
    simp only [bucketStep, grantsSince, configSince, LimiterCall.tenantId, LimiterCall.now,
      true_and, if_true] at h ⊢
    cases bucket with
    | none =>
      obtain ⟨hconfig, hgrants⟩ := h
      rw [hconfig, hgrants]
      exact (tracked_new tenantTier created).consume htokens hnow
    | some b =>
      rw [h.1]
      exact (h.1 ▸ h).consume htokens (hcreated.trans hnow)
  | getTenantMetrics tenantId now =>
    simp only [bucketStep, grantsSince, configSince, LimiterCall.tenantId, LimiterCall.now]
      at h ⊢
    cases bucket with
    | none => exact h
    | some b =>
      have hrate := h.rate_nonneg
      obtain ⟨hconfig, htier, refilled, hrefilled, hideal⟩ := h
      exact ⟨hconfig, htier, now, le_refl _, hideal.refill hrate (hrefilled.trans hc)⟩
  | resetTenantBucket tenantId now =>
    simp only [bucketStep, grantsSince, configSince, LimiterCall.tenantId, LimiterCall.now,
      if_true] at h ⊢
    cases bucket with
    | none => exact ⟨h.1, rfl⟩
    | some b =>
      obtain ⟨hconfig, htier, -⟩ := h
      exact ⟨hconfig, htier, now, le_refl _, .new _ _⟩
  | updateTenantTier tenantId newTier now =>
    simp only [bucketStep, grantsSince, configSince, LimiterCall.tenantId, LimiterCall.now,
      true_and] at h ⊢
    by_cases hnone : (defaultConfigs newTier).isNone
    · rw [if_pos hnone]
      simp only [reduceCtorEq, if_false]
      exact h.later hc
    · rw [if_neg hnone]
      simp only [if_true]
      exact tracked_new newTier now

/-- A call of another tenant is left out of the history of the tenant. -/
theorem since_cons_of_ne {t : String} {c : LimiterCall} (ht : c.tenantId ≠ t)
    (answer : LimiterAnswer) (history : LimiterHistory) :
    grantsSince t ((c, answer) :: history) = grantsSince t history ∧
      configSince t ((c, answer) :: history) = configSince t history := by
  cases c with
  | checkRateLimit tenantId tokens tenantTier created now =>
    cases answer <;> simp_all [grantsSince, configSince, LimiterCall.tenantId]
  | getTenantMetrics tenantId now => exact ⟨rfl, rfl⟩
  | resetTenantBucket tenantId now => simp_all [grantsSince, configSince, LimiterCall.tenantId]
  | updateTenantTier tenantId newTier now =>
    simp_all [grantsSince, configSince, LimiterCall.tenantId]

theorem tracked_of_run {started : ℚ} {calls : List LimiterCall} {r : LimiterRun}
    (h : (limiterMachine started).Run (fun r c => ReadsForward r.clock c) calls r) (t : String) :
    Tracked r.clock (grantsSince t r.history) (configSince t r.history)
      (r.limiter.tenantBuckets.get? t) := by
  have hinit : Tracked started (grantsSince t []) (configSince t []) none := ⟨rfl, rfl⟩
  refine h.invariant (I := fun r => Tracked r.clock (grantsSince t r.history)
    (configSince t r.history) (r.limiter.tenantBuckets.get? t)) hinit fun s c u hs hok hst => ?_
  obtain rfl := Option.some.inj hst
  dsimp only
  rw [TenantRateLimiter.step_get?]
  by_cases ht : c.tenantId = t
  · rw [if_pos ht.symm, TenantRateLimiter.step_answer, ht]
    exact hs.step ht hok
  · obtain ⟨hgrants, hconfig⟩ := since_cons_of_ne ht (s.limiter.step c).2 s.history
    rw [if_neg (Ne.symm ht), hgrants, hconfig]
    exact hs.later hok.clock_le

/-- What a tenant with the configuration is kept to : its tokens are within bounds, in every
window of time since its bucket was renewed it was granted at most the capacity and what was
refilled, and its next call is granted exactly if the ideal bucket grants it. -/
structure TenantBound (config : TokenBucketConfig) (grants : List (Grant ℚ)) (clock : ℚ)
    (b : TokenBucket) : Prop where
  sameConfig : b.config = config
  nonneg : 0 ≤ b.state.tokens
  le_capacity : b.state.tokens ≤ config.capacity
  window : ∀ s t, s ≤ t →
    BucketRate.granted s t grants ≤ config.capacity + config.refillRate * (t - s)
  ideal : ∀ n now, clock ≤ now →
    (granted (b.consumeLocal n now).2 = true ↔ (n : ℚ) ≤ config.bucketRate.level grants now)

instance (clock : ℚ) : ∀ c, Decidable (ReadsForward clock c)
  | .checkRateLimit _ tokens _ created now =>
    inferInstanceAs (Decidable (0 ≤ tokens ∧ clock ≤ created ∧ created ≤ now))
  | .getTenantMetrics _ now => inferInstanceAs (Decidable (clock ≤ now))
  | .resetTenantBucket _ now => inferInstanceAs (Decidable (clock ≤ now))
  | .updateTenantTier _ _ now => inferInstanceAs (Decidable (clock ≤ now))

end TokenBuckets

end MultiAgent
