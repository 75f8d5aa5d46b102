import Mathlib.Algebra.Order.Archimedean.Basic
import MultiAgent.Security.TokenBucketRedis

/-!
# The delay of a blocked request

`consume` and the `retry_after_seconds` of a request that it blocks. As long as nothing is
consumed, the tokens grow from what the blocked request found (`Refills`), so a request of as many
tokens is granted from one moment on, and the delay is exact if it names that moment.

`_calculate_retry_after` reads the local state. On the local path that is the bucket that was
asked. On the Redis path the script asks the hash, the local state is left as it was, and the
delay is exact only if the two hold the same tokens (`exactDelay_iff`).
-/

namespace MultiAgent

namespace TokenBuckets

/-- Whether a bucket has a Redis client, and whether the calls of its `eval` return. -/
structure Backend where
  redisClient : Bool
  redisUp : Bool := true

/-- The script decides. -/
def Backend.usesScript (m : Backend) : Bool :=
  m.redisClient && m.redisUp

/-- `consume`. -/
def TokenBucket.consume (b : TokenBucket) (m : Backend) (key : Option RedisBucket) (tokens : ℤ)
    (now : ℚ) : TokenBucket × Option RedisBucket × Except ArithmeticError ConsumeResult :=
  if m.redisClient then b.consumeDistributed key m.redisUp tokens now
  else
    let (b, result) := b.consumeLocal tokens now
    (b, key, result)

/-- A bucket with its key, and the time of the last call. -/
structure BucketAt where
  bucket : TokenBucket
  key : Option RedisBucket
  clock : ℚ

namespace BucketAt

variable (m : Backend) (w : BucketAt) (c : ConsumeCall)

/-- What a call returns. -/
def answer : Except ArithmeticError ConsumeResult :=
  (w.bucket.consume m w.key c.tokens c.now).2.2

/-- The bucket after a call. -/
def after : BucketAt where
  bucket := (w.bucket.consume m w.key c.tokens c.now).1
  key := (w.bucket.consume m w.key c.tokens c.now).2.1
  clock := c.now

/-- The tokens that a call finds. -/
def available (now : ℚ) : ℚ :=
  if m.usesScript then scriptTokens w.bucket.config w.key now else w.bucket.tokensAt now

/-- The key has not expired, where it is used. -/
def KeyLive (now : ℚ) : Prop :=
  m.usesScript = true → ∀ k ∈ w.key, now < k.expiresAt

/-- Calls in order of time that consume nothing, and no expiry of the key. -/
def Meanwhile : BucketAt → List ConsumeCall → Prop
  | _, [] => True
  | w, c :: cs =>
    w.clock ≤ c.now ∧ w.KeyLive m c.now ∧ granted (w.answer m c) = false ∧
      Meanwhile (w.after m c) cs

/-- A request of `tokens` is granted from `delay` after `now` on and refused before, while nothing
else is consumed. -/
def ExactDelay (tokens : ℤ) (now delay : ℚ) : Prop :=
  ∀ calls, Meanwhile m w calls → ∀ t, (calls.foldl (after m) w).clock ≤ t →
    (calls.foldl (after m) w).KeyLive m t →
      (granted ((calls.foldl (after m) w).answer m ⟨tokens, t⟩) = true ↔ now + delay ≤ t)

end BucketAt

/-! ## A call -/

section Call

variable {m : Backend} {b : TokenBucket} {w : BucketAt} {c : ConsumeCall}

theorem consume_of_local (hm : m.usesScript = false) (key : Option RedisBucket) (n : ℤ) (now : ℚ) :
    b.consume m key n now = ((b.consumeLocal n now).1, key, (b.consumeLocal n now).2) := by
  unfold TokenBucket.consume TokenBucket.consumeDistributed
  unfold Backend.usesScript at hm
  cases hc : m.redisClient with
  | false => rfl
  | true =>
    rw [hc, Bool.true_and] at hm
    rw [hm]
    rfl

theorem consume_of_script (hm : m.usesScript = true) (key : Option RedisBucket) (n : ℤ) (now : ℚ) :
    b.consume m key n now = b.consumeDistributed key true n now := by
  unfold Backend.usesScript at hm
  rw [Bool.and_eq_true] at hm
  rw [TokenBucket.consume, if_pos hm.1, hm.2]

/-- The delay is counted from the tokens of the local state. -/
theorem calculateRetryAfter_eq (hr : 0 < b.config.refillRate) {n : ℤ} (hn : 0 < n) :
    b.calculateRetryAfter n = .ok (max 0 (b.config.bucketRate.wait b.state.tokens n)) := by
  unfold TokenBucket.calculateRetryAfter
  dsimp only
  rw [if_neg (not_le.mpr hn), if_neg hr.ne']
  split_ifs with hle
  · have hwait : b.config.bucketRate.wait b.state.tokens n ≤ 0 :=
      div_nonpos_of_nonpos_of_nonneg hle hr.le
    rw [max_eq_left hwait]
  · rfl

theorem granted_answer (hr : 0 < w.bucket.config.refillRate) :
    granted (w.answer m c) = decide ((c.tokens : ℚ) ≤ w.available m c.now) := by
  unfold BucketAt.answer BucketAt.available
  cases hm : m.usesScript with
  | false =>
    rw [consume_of_local hm]
    exact TokenBucket.granted_consumeLocal ..
  | true =>
    obtain ⟨-, -, hgranted⟩ := consumeDistributed_up hr w.key c.tokens c.now
    rw [consume_of_script hm, hgranted, luaScript_eq, if_pos rfl]
    split_ifs with hle <;> simp [hle]

/-- On the local path the delay is the time to wait for the tokens. -/
theorem consumeLocal_blocked (hr : 0 < b.config.refillRate) {n : ℤ} (hn : 0 < n) {now : ℚ}
    (hlt : b.tokensAt now < n) :
    (b.consumeLocal n now).2 =
      .ok (.blocked n (b.tokensAt now) (b.config.bucketRate.wait (b.tokensAt now) n)) := by
  have hretry := calculateRetryAfter_eq (b := ⟨b.config, { (b.refillTokens now).state with
    totalRequests := (b.refillTokens now).state.totalRequests + 1
    blockedRequests := (b.refillTokens now).state.blockedRequests + 1 }⟩) hr hn
  have hpos : 0 < b.config.bucketRate.wait (b.tokensAt now) n :=
    (BucketRate.wait_pos_iff (b := b.config.bucketRate) hr).mpr hlt
  have hresult := congrArg (Except.map (ConsumeResult.blocked n (b.tokensAt now))) hretry
  unfold TokenBucket.consumeLocal
  dsimp only
  rw [TokenBucket.tokens_refillTokens, if_neg (not_le.mpr hlt), ← max_eq_right hpos.le]
  exact hresult

/-- What a blocked request returns as its delay. -/
theorem delay_of_blocked (hr : 0 < w.bucket.config.refillRate) {n : ℤ} (hn : 0 < n) {now : ℚ}
    {available delay : ℚ} (h : w.answer m ⟨n, now⟩ = .ok (.blocked n available delay)) :
    delay = if m.usesScript then max 0 (w.bucket.config.bucketRate.wait w.bucket.state.tokens n)
      else w.bucket.config.bucketRate.wait (w.bucket.tokensAt now) n := by
  have hrefused : granted (w.answer m ⟨n, now⟩) = false := by rw [h]; rfl
  rw [granted_answer hr, decide_eq_false_iff_not, not_le] at hrefused
  unfold BucketAt.answer at h
  cases hm : m.usesScript with
  | false =>
    rw [BucketAt.available, if_neg (by simp [hm])] at hrefused
    rw [consume_of_local hm] at h
    dsimp only at h
    rw [consumeLocal_blocked hr hn hrefused] at h
    injection h with h
    injection h with _ _ hdelay
    exact hdelay.symm
  | true =>
    rw [consume_of_script hm, TokenBucket.consumeDistributed, if_pos rfl,
      calculateRetryAfter_eq hr hn] at h
    dsimp only at h
    split_ifs at h with hle
    · cases h
    · injection h with h
      injection h with _ _ hdelay
      exact hdelay.symm

end Call

/-! ## While nothing is consumed -/

namespace BucketAt

variable {m : Backend} {w : BucketAt} {c : ConsumeCall} {config : TokenBucketConfig} {x start : ℚ}

/-- The tokens grow from `x` at `start`, as long as the key does not expire. -/
structure Refills (m : Backend) (config : TokenBucketConfig) (x start : ℚ) (w : BucketAt) :
    Prop where
  sameConfig : w.bucket.config = config
  expiresAt : m.usesScript = true → ∀ k ∈ w.key, k.expiresAt = w.clock + 3600
  available : ∀ t, w.clock ≤ t → w.KeyLive m t →
    w.available m t = config.bucketRate.refill x (t - start)

theorem Refills.keyLive (h : w.Refills m config x start) {t : ℚ} (ht : t < w.clock + 3600) :
    w.KeyLive m t := fun hm k hk =>
  (h.expiresAt hm k hk).symm ▸ ht

/-- After a request that was refused, they grow from what it found. -/
theorem refills_after (hr : 0 < w.bucket.config.refillRate)
    (hrefused : granted (w.answer m c) = false) :
    (w.after m c).Refills m w.bucket.config (w.available m c.now) c.now := by
  rw [granted_answer hr, decide_eq_false_iff_not] at hrefused
  cases hm : m.usesScript with
  | false =>
    have hfound : w.available m c.now = w.bucket.tokensAt c.now := if_neg (by simp [hm])
    rw [hfound] at hrefused ⊢
    have hafter : w.after m c = ⟨(w.bucket.consumeLocal c.tokens c.now).1, w.key, c.now⟩ := by
      rw [after, consume_of_local hm]
    have htokens := w.bucket.tokens_consumeLocal c.tokens c.now
    rw [if_neg hrefused] at htokens
    rw [hafter]
    refine ⟨TokenBucket.config_consumeLocal .., fun h => by simp [hm] at h, fun t _ _ => ?_⟩
    rw [available, if_neg (by simp [hm]), TokenBucket.tokensAt, htokens,
      TokenBucket.config_consumeLocal, TokenBucket.lastRefill_consumeLocal]
  | true =>
    have hfound : w.available m c.now = scriptTokens w.bucket.config w.key c.now := if_pos hm
    rw [hfound] at hrefused ⊢
    obtain ⟨hbucket, hkey, -⟩ := consumeDistributed_up hr w.key c.tokens c.now
    rw [luaScript_eq, if_neg hrefused] at hkey
    have hafter : w.after m c = ⟨w.bucket,
        some ⟨scriptTokens w.bucket.config w.key c.now, c.now, c.now + 3600⟩, c.now⟩ := by
      rw [after, consume_of_script hm, hbucket, hkey]
    rw [hafter]
    refine ⟨rfl, fun _ k hk => ?_, fun t _ hlive => ?_⟩
    · obtain rfl := Option.mem_some_iff.mp hk
      rfl
    · rw [available, if_pos hm, scriptTokens, liveKey_of_lt (hlive hm _ rfl)]

/-- A refused request in between changes nothing. -/
theorem Refills.after (h : w.Refills m config x start) (hr : 0 < config.refillRate)
    (hnow : w.clock ≤ c.now) (hlive : w.KeyLive m c.now)
    (hrefused : granted (w.answer m c) = false) : (w.after m c).Refills m config x start := by
  have hrate : 0 < w.bucket.config.refillRate := h.sameConfig ▸ hr
  have hnext := refills_after hrate hrefused
  rw [h.sameConfig, h.available _ hnow hlive] at hnext
  refine ⟨hnext.sameConfig, hnext.expiresAt, fun t ht hkey => ?_⟩
  have helapsed : 0 ≤ t - c.now := sub_nonneg.mpr ht
  rw [hnext.available t ht hkey, BucketRate.refill_refill hr.le _ _ helapsed]
  rw [sub_add_sub_cancel']

theorem Refills.meanwhile (h : w.Refills m config x start) (hr : 0 < config.refillRate)
    {calls : List ConsumeCall} (hcalls : Meanwhile m w calls) :
    (calls.foldl (BucketAt.after m) w).Refills m config x start := by
  induction calls generalizing w with
  | nil => exact h
  | cons c cs ih =>
    obtain ⟨hnow, hlive, hrefused, hcs⟩ := hcalls
    exact ih (h.after hr hnow hlive hrefused) hcs

/-- A request is granted once the time to wait for its tokens is over. -/
theorem Refills.granted_iff (h : w.Refills m config x start) (hr : 0 < config.refillRate) {n : ℤ}
    (hn : n ≤ config.capacity) {t : ℚ} (ht : w.clock ≤ t) (hlive : w.KeyLive m t) :
    granted (w.answer m ⟨n, t⟩) = true ↔ start + config.bucketRate.wait x n ≤ t := by
  have hrate : 0 < w.bucket.config.refillRate := h.sameConfig ▸ hr
  have hcap : (n : ℚ) ≤ config.bucketRate.capacity := Int.cast_le.mpr hn
  rw [granted_answer hrate, decide_eq_true_eq, h.available t ht hlive,
    BucketRate.le_refill_iff (b := config.bucketRate) hr hcap, le_sub_iff_add_le']

theorem meanwhile_concat {calls : List ConsumeCall} (hcalls : Meanwhile m w calls)
    (hnow : (calls.foldl (BucketAt.after m) w).clock ≤ c.now)
    (hlive : (calls.foldl (BucketAt.after m) w).KeyLive m c.now)
    (hrefused : granted ((calls.foldl (BucketAt.after m) w).answer m c) = false) :
    Meanwhile m w (calls ++ [c]) := by
  induction calls generalizing w with
  | nil => exact ⟨hnow, hlive, hrefused, trivial⟩
  | cons c' cs ih =>
    obtain ⟨hnow', hlive', hrefused', hcs⟩ := hcalls
    exact ⟨hnow', hlive', hrefused', ih hcs hnow hlive hrefused⟩

/-- The bucket can be asked every half hour without a grant, so that the key lives until the
tokens are there. -/
theorem Refills.exists_meanwhile (h : w.Refills m config x w.clock) (hr : 0 < config.refillRate)
    {n : ℤ} (hn : n ≤ config.capacity) (k : ℕ) {t : ℚ} (ht : w.clock ≤ t)
    (hwait : t ≤ w.clock + config.bucketRate.wait x n) (hk : t < w.clock + k * 1800) :
    ∃ calls, Meanwhile m w calls ∧ (calls.foldl (BucketAt.after m) w).clock ≤ t ∧
      (calls.foldl (BucketAt.after m) w).KeyLive m t := by
  induction k generalizing t with
  | zero => exact absurd hk (by simpa using ht)
  | succ k ih =>
    rcases lt_or_ge t (w.clock + 1800) with hsoon | hlate
    · exact ⟨[], trivial, ht, h.keyLive (by linarith)⟩
    · have hhalf : t - 1800 ≤ t ∧ t < t - 1800 + 3600 := ⟨by linarith, by linarith⟩
      push_cast at hk
      obtain ⟨calls, hcalls, hclock, hlive⟩ := ih (t := t - 1800) (by linarith) (by linarith)
        (by linarith)
      have hrefills := h.meanwhile hr hcalls
      have hrefused : granted ((calls.foldl (BucketAt.after m) w).answer m ⟨n, t - 1800⟩) =
          false := by
        rw [← Bool.not_eq_true, hrefills.granted_iff hr hn hclock hlive, not_le]
        linarith
      have hlast := hrefills.after hr hclock hlive hrefused
      refine ⟨calls ++ [⟨n, t - 1800⟩],
        meanwhile_concat (c := ⟨n, t - 1800⟩) hcalls hclock hlive hrefused, ?_⟩
      rw [List.foldl_append, List.foldl_cons, List.foldl_nil]
      exact ⟨hhalf.1, hlast.keyLive hhalf.2⟩

end BucketAt

/-! ## The delay -/

section Delay

variable {m : Backend} {w : BucketAt} {n : ℤ} {now available delay : ℚ}

/-- A delay is exact if it is the time to wait for what the request did not find, and, where the
key matters, only then. -/
theorem exactDelay_iff_wait (hr : 0 < w.bucket.config.refillRate)
    (hn : n ≤ w.bucket.config.capacity) (hrefused : granted (w.answer m ⟨n, now⟩) = false) :
    (w.after m ⟨n, now⟩).ExactDelay m n now delay ↔
      delay = w.bucket.config.bucketRate.wait (w.available m now) n := by
  have hafter := BucketAt.refills_after hr hrefused
  have hgranted : ∀ {calls : List ConsumeCall} {t : ℚ},
      BucketAt.Meanwhile m (w.after m ⟨n, now⟩) calls →
      (calls.foldl (BucketAt.after m) (w.after m ⟨n, now⟩)).clock ≤ t →
      (calls.foldl (BucketAt.after m) (w.after m ⟨n, now⟩)).KeyLive m t →
      (granted ((calls.foldl (BucketAt.after m) (w.after m ⟨n, now⟩)).answer m ⟨n, t⟩) = true ↔
        now + w.bucket.config.bucketRate.wait (w.available m now) n ≤ t) :=
    fun hcalls ht hlive => (hafter.meanwhile hr hcalls).granted_iff hr hn ht hlive
  rw [granted_answer hr, decide_eq_false_iff_not, not_le] at hrefused
  have hpos := (BucketRate.wait_pos_iff (b := w.bucket.config.bucketRate) hr).mpr hrefused
  constructor
  · intro hexact
    -- the bucket can be asked at every moment up to the one when the tokens are there
    have hask : ∀ t, now ≤ t → t ≤ now + w.bucket.config.bucketRate.wait (w.available m now) n →
        (now + w.bucket.config.bucketRate.wait (w.available m now) n ≤ t ↔ now + delay ≤ t) := by
      intro t ht hle
      obtain ⟨k, hk⟩ := exists_nat_gt ((t - now) / 1800)
      rw [div_lt_iff₀ (by norm_num), sub_lt_iff_lt_add'] at hk
      obtain ⟨calls, hcalls, hclock, hlive⟩ :=
        hafter.exists_meanwhile (w := w.after m ⟨n, now⟩) hr hn k ht hle hk
      exact (hgranted hcalls hclock hlive).symm.trans (hexact calls hcalls t hclock hlive)
    rcases lt_or_ge delay (w.bucket.config.bucketRate.wait (w.available m now) n) with hlt | hge
    · have hle : max 0 delay < w.bucket.config.bucketRate.wait (w.available m now) n :=
        max_lt hpos hlt
      have hearly := (hask (now + max 0 delay) (by simp) (by linarith)).mpr (by simp)
      linarith
    · have hlate := (hask _ (by linarith) le_rfl).mp le_rfl
      linarith
  · rintro rfl calls hcalls t ht hlive
    exact hgranted hcalls ht hlive

end Delay

end TokenBuckets

end MultiAgent
