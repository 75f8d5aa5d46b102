import Mathlib.Algebra.Order.Field.Rat
import Mathlib.Data.Fintype.EquivFin
import Mathlib.Data.Set.Finite.Basic
import MultiAgent.Lib.Dict
import MultiAgent.Lib.TokenBucket

/-!
# The rate limiter of the model gateway

`rate_limiter.py` of `apps/data-plane/model-gateway`. `check_rate_limit` asks three
limiters in turn, a window over all tenants, the tenant's window and the tenant's token
bucket, and each of them charges the request when it lets it through. A refusal by the
second or the third leaves the charges of those before it, so a tenant that is refused
fills the window of all the others (`not_unchargedRuns`). A refused call leaves every later
decision as it was exactly if the window over all tenants refused it
(`uncharged_iff_harmless`).
-/

namespace MultiAgent

namespace ModelGateway

/-- The limits in `settings`. -/
structure Settings where
  requestsPerMinute : ℤ := 1000
  tokensPerMinute : ℤ := 100000

/-! ## The two limiters -/

/-- The attributes of `SlidingWindowRateLimiter`. Times are in seconds. -/
structure SlidingWindowRateLimiter where
  maxRequests : ℤ
  windowSize : ℤ := 60
  requests : List ℚ := []

namespace SlidingWindowRateLimiter

variable (w : SlidingWindowRateLimiter)

/-- The requests that the loop of `is_allowed` leaves in the deque. -/
def recent (now : ℚ) : List ℚ :=
  w.requests.dropWhile fun t => t ≤ now - w.windowSize

/-- `is_allowed`. -/
def isAllowed (now : ℚ) : SlidingWindowRateLimiter × Bool :=
  let requests := w.recent now
  if requests.length < w.maxRequests then ({ w with requests := requests ++ [now] }, true)
  else ({ w with requests := requests }, false)

/-- The window holds as many requests as it may. -/
def Full (now : ℚ) : Prop :=
  w.maxRequests ≤ (w.recent now).length

theorem maxRequests_isAllowed (now : ℚ) : (w.isAllowed now).1.maxRequests = w.maxRequests := by
  unfold isAllowed
  dsimp only
  split_ifs <;> rfl

theorem windowSize_isAllowed (now : ℚ) : (w.isAllowed now).1.windowSize = w.windowSize := by
  unfold isAllowed
  dsimp only
  split_ifs <;> rfl

variable {w} {now : ℚ}

theorem isAllowed_of_full (h : w.Full now) :
    w.isAllowed now = ({ w with requests := w.recent now }, false) :=
  if_neg (not_lt.mpr h)

theorem isAllowed_of_not_full (h : ¬w.Full now) :
    w.isAllowed now = ({ w with requests := w.recent now ++ [now] }, true) :=
  if_pos (not_le.mp h)

theorem isAllowed_snd : (w.isAllowed now).2 = true ↔ ¬w.Full now := by
  by_cases h : w.Full now
  · simp [isAllowed_of_full h, h]
  · simp [isAllowed_of_not_full h, h]

/-- Dropping what is old now and then what is old later drops what is old later. -/
theorem recent_recent {later : ℚ} (h : now ≤ later) :
    recent { w with requests := w.recent now } later = w.recent later := by
  unfold recent
  dsimp only
  induction w.requests with
  | nil => rfl
  | cons t ts ih =>
    by_cases hnow : t ≤ now - w.windowSize
    · have hlater : t ≤ later - w.windowSize := by linarith
      simp only [List.dropWhile_cons, hnow, hlater, decide_true, if_true]
      exact ih
    · simp only [List.dropWhile_cons, hnow, decide_false, Bool.false_eq_true, if_false]

theorem isAllowed_recent {later : ℚ} (h : now ≤ later) :
    isAllowed { w with requests := w.recent now } later = w.isAllowed later := by
  unfold isAllowed
  rw [recent_recent h]

/-- A request that is let through is in the window when the clock has not moved. -/
theorem recent_isAllowed (hsize : 0 < w.windowSize) (h : ¬w.Full now) :
    (w.isAllowed now).1.recent now = w.recent now ++ [now] := by
  have hnew : ¬now ≤ now - w.windowSize := by
    have hpos : (0 : ℚ) < w.windowSize := by exact_mod_cast hsize
    linarith
  have hold : recent { w with requests := w.recent now } now = w.recent now :=
    recent_recent le_rfl
  rw [isAllowed_of_not_full h]
  unfold recent at hold ⊢
  dsimp only at hold ⊢
  rw [List.dropWhile_append, hold]
  split_ifs with hempty
  · rw [List.isEmpty_iff.mp hempty]
    simp [hnew]
  · rfl

end SlidingWindowRateLimiter

/-- The attributes of `TokenBucketRateLimiter`. -/
structure TokenBucketRateLimiter where
  maxTokens : ℤ
  refillRate : ℚ
  tokens : ℚ
  lastRefill : ℚ

namespace TokenBucketRateLimiter

/-- `__init__`. -/
def init (maxTokens : ℤ) (refillRate now : ℚ) : TokenBucketRateLimiter :=
  ⟨maxTokens, refillRate, maxTokens, now⟩

/-- The tokens after the refill of `consume`. -/
def available (b : TokenBucketRateLimiter) (now : ℚ) : ℚ :=
  BucketRate.refill ⟨b.maxTokens, b.refillRate⟩ b.tokens (now - b.lastRefill)

/-- `consume`. -/
def consume (b : TokenBucketRateLimiter) (tokens : ℤ) (now : ℚ) :
    TokenBucketRateLimiter × Bool :=
  let level := b.available now
  if tokens ≤ level then ({ b with tokens := level - tokens, lastRefill := now }, true)
  else ({ b with tokens := level, lastRefill := now }, false)

theorem consume_snd {b : TokenBucketRateLimiter} {tokens : ℤ} {now : ℚ} :
    (b.consume tokens now).2 = true ↔ (tokens : ℚ) ≤ b.available now := by
  unfold consume
  dsimp only
  split_ifs with h <;> simp [h]

/-- A new bucket is full. -/
theorem available_init (maxTokens : ℤ) (refillRate now : ℚ) :
    (init maxTokens refillRate now).available now = maxTokens := by
  rw [available, init, sub_self, BucketRate.refill_zero le_rfl]

end TokenBucketRateLimiter

/-! ## The limiter of the gateway -/

/-- A call of `check_rate_limit`. It awaits nothing, and `now` is what the clock reads. -/
structure RateLimitCall where
  tenantId : String
  estimatedTokens : ℤ := 1000
  now : ℚ

/-- The attributes of `RateLimiter`, with what `__init__` fixes of the window over all
tenants. -/
structure RateLimiter (settings : Settings) where
  requestLimiters : Dict String SlidingWindowRateLimiter
  tokenLimiters : Dict String TokenBucketRateLimiter
  globalRequestLimiter : SlidingWindowRateLimiter
  maxRequests_global : globalRequestLimiter.maxRequests = settings.requestsPerMinute * 10
  windowSize_global : globalRequestLimiter.windowSize = 60

namespace RateLimiter

variable {settings : Settings} (s : RateLimiter settings) (c : RateLimitCall)

/-- `__init__`. -/
def init (settings : Settings) : RateLimiter settings where
  requestLimiters := .empty
  tokenLimiters := .empty
  globalRequestLimiter := { maxRequests := settings.requestsPerMinute * 10 }
  maxRequests_global := rfl
  windowSize_global := rfl

/-- `self.request_limiters[tenant_id]`. -/
def requestLimiter : SlidingWindowRateLimiter :=
  s.requestLimiters.getD c.tenantId { maxRequests := settings.requestsPerMinute }

/-- `self.token_limiters[tenant_id]`. -/
def tokenLimiter : TokenBucketRateLimiter :=
  s.tokenLimiters.getD c.tenantId
    (.init settings.tokensPerMinute (settings.tokensPerMinute / 60) c.now)

/-- `self.global_request_limiter.is_allowed()`. -/
def askGlobal : RateLimiter settings × Bool :=
  ({ s with
      globalRequestLimiter := (s.globalRequestLimiter.isAllowed c.now).1
      maxRequests_global := by
        rw [SlidingWindowRateLimiter.maxRequests_isAllowed, s.maxRequests_global]
      windowSize_global := by
        rw [SlidingWindowRateLimiter.windowSize_isAllowed, s.windowSize_global] },
    (s.globalRequestLimiter.isAllowed c.now).2)

/-- `tenant_request_limiter.is_allowed()`. -/
def askRequests : RateLimiter settings × Bool :=
  let (limiter, allowed) := (s.requestLimiter c).isAllowed c.now
  ({ s with requestLimiters := s.requestLimiters.set c.tenantId limiter }, allowed)

/-- `tenant_token_limiter.consume(estimated_tokens)`. -/
def askTokens : RateLimiter settings × Bool :=
  let (limiter, allowed) := (s.tokenLimiter c).consume c.estimatedTokens c.now
  ({ s with tokenLimiters := s.tokenLimiters.set c.tenantId limiter }, allowed)

/-- `check_rate_limit`. -/
def checkRateLimit : RateLimiter settings × Bool :=
  let (s, allowed) := s.askGlobal c
  if !allowed then (s, false)
  else
    let (s, allowed) := s.askRequests c
    if !allowed then (s, false)
    else s.askTokens c

/-- The limiter after calls. -/
def after : RateLimiter settings → List RateLimitCall → RateLimiter settings
  | s, [] => s
  | s, c :: calls => after (s.checkRateLimit c).1 calls

/-- The answers of calls. -/
def decisions : RateLimiter settings → List RateLimitCall → List Bool
  | _, [] => []
  | s, c :: calls => (s.checkRateLimit c).2 :: decisions (s.checkRateLimit c).1 calls

/-- The calls that are let through. -/
def admitted : RateLimiter settings → List RateLimitCall → List RateLimitCall
  | _, [] => []
  | s, c :: calls =>
    if (s.checkRateLimit c).2 then c :: admitted (s.checkRateLimit c).1 calls
    else admitted (s.checkRateLimit c).1 calls

/-- Every call meets `ok` in the state it finds. -/
def Meets (ok : RateLimiter settings → RateLimitCall → Prop) :
    RateLimiter settings → List RateLimitCall → Prop
  | _, [] => True
  | s, c :: calls => ok s c ∧ Meets ok (s.checkRateLimit c).1 calls

/-- The clock does not go back. -/
def CallsInOrder (calls : List RateLimitCall) : Prop :=
  calls.Pairwise fun c c' => c.now ≤ c'.now

/-- If the call is refused, every later decision is as if it had not been made. -/
def Uncharged : Prop :=
  (s.checkRateLimit c).2 = false → ∀ later, CallsInOrder (c :: later) →
    decisions (s.checkRateLimit c).1 later = decisions s later

/-- In the runs over `ok`, every later decision is as if the refused calls had not been
made. -/
def UnchargedRuns (settings : Settings) (ok : RateLimiter settings → RateLimitCall → Prop) :
    Prop :=
  ∀ s calls later, CallsInOrder (calls ++ later) → Meets ok s calls →
    decisions (after s calls) later = decisions (after s (admitted s calls)) later

/-- The tenant's window has room for the request and its bucket the tokens. -/
def TenantAllows : Prop :=
  ¬(s.requestLimiter c).Full c.now ∧ c.estimatedTokens ≤ (s.tokenLimiter c).available c.now

/-- The window over all tenants refuses the call, or all three limiters let it through. -/
def Harmless : Prop :=
  s.globalRequestLimiter.Full c.now ∨ s.TenantAllows c

/-! ## One call -/

variable {s c}

theorem checkRateLimit_of_full (h : s.globalRequestLimiter.Full c.now) :
    s.checkRateLimit c = ((s.askGlobal c).1, false) := by
  simp [checkRateLimit, askGlobal, SlidingWindowRateLimiter.isAllowed_of_full h]

theorem checkRateLimit_of_not_full (h : ¬s.globalRequestLimiter.Full c.now) :
    s.checkRateLimit c =
      if ((s.requestLimiter c).isAllowed c.now).2 then
        ((s.askGlobal c).1.askRequests c).1.askTokens c
      else (((s.askGlobal c).1.askRequests c).1, false) := by
  have hglobal : (s.askGlobal c).2 = true := SlidingWindowRateLimiter.isAllowed_snd.mpr h
  have hrequests :
      ((s.askGlobal c).1.askRequests c).2 = ((s.requestLimiter c).isAllowed c.now).2 := rfl
  unfold checkRateLimit
  simp only [hglobal, hrequests, Bool.not_true, Bool.false_eq_true, if_false, Bool.not_eq_true']
  cases ((s.requestLimiter c).isAllowed c.now).2 <;> rfl

theorem checkRateLimit_snd : (s.checkRateLimit c).2 = true ↔
    ¬s.globalRequestLimiter.Full c.now ∧ s.TenantAllows c := by
  by_cases hglobal : s.globalRequestLimiter.Full c.now
  · simp [checkRateLimit_of_full hglobal, hglobal]
  rw [checkRateLimit_of_not_full hglobal, TenantAllows, ← TokenBucketRateLimiter.consume_snd]
  by_cases hrequests : (s.requestLimiter c).Full c.now
  · simp [SlidingWindowRateLimiter.isAllowed_of_full hrequests, hrequests]
  · have htokens : (((s.askGlobal c).1.askRequests c).1.askTokens c).2 =
        ((s.tokenLimiter c).consume c.estimatedTokens c.now).2 := rfl
    simp [SlidingWindowRateLimiter.isAllowed_of_not_full hrequests, hrequests, hglobal, htokens]

/-- The window over all tenants is charged first, whatever the others answer. -/
theorem globalRequestLimiter_checkRateLimit : (s.checkRateLimit c).1.globalRequestLimiter =
    (s.globalRequestLimiter.isAllowed c.now).1 := by
  by_cases hglobal : s.globalRequestLimiter.Full c.now
  · rw [checkRateLimit_of_full hglobal]
    rfl
  · rw [checkRateLimit_of_not_full hglobal]
    split_ifs <;> rfl

theorem mem_requestLimiters {tenantId : String}
    (h : tenantId ∈ (s.checkRateLimit c).1.requestLimiters) :
    tenantId = c.tenantId ∨ tenantId ∈ s.requestLimiters := by
  by_cases hglobal : s.globalRequestLimiter.Full c.now
  · rw [checkRateLimit_of_full hglobal] at h
    exact Or.inr h
  · rw [checkRateLimit_of_not_full hglobal] at h
    split_ifs at h <;> exact Dict.mem_set.mp h

theorem mem_tokenLimiters {tenantId : String}
    (h : tenantId ∈ (s.checkRateLimit c).1.tokenLimiters) :
    tenantId = c.tenantId ∨ tenantId ∈ s.tokenLimiters := by
  by_cases hglobal : s.globalRequestLimiter.Full c.now
  · rw [checkRateLimit_of_full hglobal] at h
    exact Or.inr h
  · rw [checkRateLimit_of_not_full hglobal] at h
    split_ifs at h
    · exact Dict.mem_set.mp h
    · exact Or.inr h

/-! ## A full window over all tenants -/

/-- After a call that the window over all tenants refused, a later call goes as before. -/
theorem checkRateLimit_askGlobal {c' : RateLimitCall} (h : s.globalRequestLimiter.Full c.now)
    (hle : c.now ≤ c'.now) : (s.askGlobal c).1.checkRateLimit c' = s.checkRateLimit c' := by
  have hask : ((s.askGlobal c).1.askGlobal c') = s.askGlobal c' := by
    unfold askGlobal
    simp only [SlidingWindowRateLimiter.isAllowed_of_full h,
      SlidingWindowRateLimiter.isAllowed_recent hle]
  unfold checkRateLimit
  rw [hask]

theorem decisions_of_full (h : s.globalRequestLimiter.Full c.now) {later : List RateLimitCall}
    (hle : ∀ c' ∈ later, c.now ≤ c'.now) :
    decisions (s.checkRateLimit c).1 later = decisions s later := by
  rw [checkRateLimit_of_full h]
  cases later with
  | nil => rfl
  | cons c' later =>
    rw [decisions, decisions, checkRateLimit_askGlobal h (hle c' List.mem_cons_self)]

/-- A call that the window over all tenants refused changes the state that later calls lead
to by no more than the requests it dropped. -/
theorem decisions_after_of_full (h : s.globalRequestLimiter.Full c.now)
    {calls later : List RateLimitCall} (hcalls : ∀ c' ∈ calls, c.now ≤ c'.now)
    (hlater : ∀ c' ∈ later, c.now ≤ c'.now) :
    decisions (after (s.checkRateLimit c).1 calls) later = decisions (after s calls) later := by
  cases calls with
  | nil => exact decisions_of_full h hlater
  | cons c' calls =>
    rw [checkRateLimit_of_full h, after, after,
      checkRateLimit_askGlobal h (hcalls c' List.mem_cons_self)]

theorem mem_of_mem_admitted {calls : List RateLimitCall} {c : RateLimitCall} :
    ∀ {s : RateLimiter settings}, c ∈ admitted s calls → c ∈ calls := by
  induction calls with
  | nil => exact fun h => h
  | cons c' calls ih =>
    intro s h
    rw [admitted] at h
    split_ifs at h
    · rcases List.mem_cons.mp h with rfl | h
      · exact List.mem_cons_self
      · exact List.mem_cons_of_mem _ (ih h)
    · exact List.mem_cons_of_mem _ (ih h)

/-- Refused calls that were harmless may be left out of a run. -/
theorem unchargedRuns_harmless (settings : Settings) : UnchargedRuns settings Harmless := by
  intro s calls later
  induction calls generalizing s with
  | nil => exact fun _ _ => rfl
  | cons c calls ih =>
    rintro horder ⟨hharmless, hmeets⟩
    obtain ⟨hnow, horder⟩ := List.pairwise_cons.mp horder
    have hrest := ih (s.checkRateLimit c).1 horder hmeets
    rw [after, admitted, hrest]
    split_ifs with hallowed
    · rfl
    · -- the call was refused, so it was the window over all tenants that refused it
      have hfull : s.globalRequestLimiter.Full c.now := by
        rcases hharmless with hfull | htenant
        · exact hfull
        · by_contra hfull
          exact hallowed (checkRateLimit_snd.2 ⟨hfull, htenant⟩)
      refine decisions_after_of_full hfull (fun c' hc' => hnow c' ?_) fun c' hc' => hnow c' ?_
      · exact List.mem_append_left _ (mem_of_mem_admitted hc')
      · exact List.mem_append_right _ hc'

/-! ## A charge that shows -/

theorem length_recent_checkRateLimit (h : ¬s.globalRequestLimiter.Full c.now) :
    ((s.checkRateLimit c).1.globalRequestLimiter.recent c.now).length =
      (s.globalRequestLimiter.recent c.now).length + 1 := by
  have hsize : 0 < s.globalRequestLimiter.windowSize := by
    rw [s.windowSize_global]
    decide
  rw [globalRequestLimiter_checkRateLimit, SlidingWindowRateLimiter.recent_isAllowed hsize h,
    List.length_append, List.length_singleton]

theorem not_full_iff {now : ℚ} : ¬s.globalRequestLimiter.Full now ↔
    (s.globalRequestLimiter.recent now).length < settings.requestsPerMinute * 10 := by
  rw [SlidingWindowRateLimiter.Full, s.maxRequests_global, not_le]

/-- Requests at one time that do not fit into the window over all tenants are not all let
through. -/
theorem false_mem_decisions {now : ℚ} {calls : List RateLimitCall}
    (hnow : ∀ c ∈ calls, c.now = now) (s : RateLimiter settings)
    (hroom : (s.globalRequestLimiter.recent now).length ≤ settings.requestsPerMinute * 10)
    (hlen : settings.requestsPerMinute * 10 <
      (s.globalRequestLimiter.recent now).length + calls.length) : false ∈ decisions s calls := by
  induction calls generalizing s with
  | nil =>
    simp only [List.length_nil, Nat.cast_zero, add_zero] at hlen
    exact absurd hlen (not_lt.mpr hroom)
  | cons c calls ih =>
    obtain rfl := hnow c List.mem_cons_self
    by_cases hfull : s.globalRequestLimiter.Full c.now
    · rw [decisions, checkRateLimit_of_full hfull]
      exact List.mem_cons_self
    · have hlt := not_full_iff.1 hfull
      have hcharged := length_recent_checkRateLimit hfull
      rw [List.length_cons] at hlen
      refine List.mem_cons_of_mem _
        (ih (fun c' hc' => hnow c' (List.mem_cons_of_mem _ hc')) _ ?_ ?_) <;> omega

/-- The tenants have no limiters yet. -/
def NewTenants (s : RateLimiter settings) (tenants : List String) : Prop :=
  ∀ t ∈ tenants, t ∉ s.requestLimiters ∧ t ∉ s.tokenLimiters

/-- A tenant asks for all that a new bucket holds. -/
def fullRequest (settings : Settings) (now : ℚ) (tenantId : String) : RateLimitCall :=
  ⟨tenantId, settings.tokensPerMinute, now⟩

theorem tenantAllows_fullRequest {now : ℚ} {t : String} (hnew : t ∉ s.requestLimiters)
    (hnew' : t ∉ s.tokenLimiters) (hrpm : 0 < settings.requestsPerMinute) :
    s.TenantAllows (fullRequest settings now t) := by
  have hrequests : s.requestLimiter (fullRequest settings now t) =
      { maxRequests := settings.requestsPerMinute } := by
    rw [requestLimiter, Dict.getD, fullRequest, Dict.get?_eq_none.mpr hnew]
    rfl
  have htokens : s.tokenLimiter (fullRequest settings now t) =
      .init settings.tokensPerMinute (settings.tokensPerMinute / 60) now := by
    rw [tokenLimiter, Dict.getD, fullRequest, Dict.get?_eq_none.mpr hnew']
    rfl
  refine ⟨?_, ?_⟩
  · rw [hrequests]
    exact not_le.mpr hrpm
  · rw [htokens]
    exact (TokenBucketRateLimiter.available_init _ _ _).ge

/-- Requests of new tenants that fit into the window over all tenants are let through. -/
theorem decisions_newTenants {now : ℚ} {tenants : List String} (hnodup : tenants.Nodup)
    (s : RateLimiter settings) (hnew : s.NewTenants tenants)
    (hlen : (s.globalRequestLimiter.recent now).length + tenants.length ≤
      settings.requestsPerMinute * 10) :
    false ∉ decisions s (tenants.map (fullRequest settings now)) := by
  induction tenants generalizing s with
  | nil => exact List.not_mem_nil
  | cons t tenants ih =>
    rw [List.length_cons] at hlen
    obtain ⟨hnot, hnodup⟩ := List.nodup_cons.mp hnodup
    obtain ⟨hrequests, htokens⟩ := hnew t List.mem_cons_self
    have hfull : ¬s.globalRequestLimiter.Full (fullRequest settings now t).now :=
      not_full_iff.2 (by simp only [fullRequest]; omega)
    have hallowed : (s.checkRateLimit (fullRequest settings now t)).2 = true :=
      checkRateLimit_snd.2 ⟨hfull, tenantAllows_fullRequest hrequests htokens (by omega)⟩
    have hcharged : ((s.checkRateLimit
        (fullRequest settings now t)).1.globalRequestLimiter.recent now).length =
        (s.globalRequestLimiter.recent now).length + 1 := length_recent_checkRateLimit hfull
    rw [List.map_cons, decisions, hallowed, List.mem_cons, not_or]
    refine ⟨Bool.false_ne_true, ih hnodup _ (fun t' ht' => ?_) ?_⟩
    · have hne : t' ≠ t := fun h => hnot (h ▸ ht')
      obtain ⟨hrequests', htokens'⟩ := hnew t' (List.mem_cons_of_mem _ ht')
      exact ⟨fun h => (mem_requestLimiters h).elim hne hrequests',
        fun h => (mem_tokenLimiters h).elim hne htokens'⟩
    · omega

theorem exists_newTenants (s : RateLimiter settings) (n : ℕ) :
    ∃ tenants : List String, tenants.length = n ∧ tenants.Nodup ∧ s.NewTenants tenants := by
  have hinf := (s.requestLimiters.keys ++ s.tokenLimiters.keys).toFinset.finite_toSet.infinite_compl
  obtain ⟨tenants, hsub, hcard⟩ := hinf.exists_subset_card_eq n
  refine ⟨tenants.toList, by rw [Finset.length_toList, hcard], Finset.nodup_toList _,
    fun t ht => ?_⟩
  have hout := hsub (Finset.mem_coe.mpr (Finset.mem_toList.mp ht))
  simp only [Set.mem_compl_iff, Finset.mem_coe, List.mem_toFinset, List.mem_append,
    not_or] at hout
  exact hout

theorem harmless_of_uncharged (h : s.Uncharged c) : s.Harmless c := by
  by_contra hnot
  obtain ⟨hfull, htenant⟩ := not_or.mp hnot
  have hrefused : (s.checkRateLimit c).2 = false :=
    Bool.eq_false_iff.mpr fun hallowed => htenant (checkRateLimit_snd.1 hallowed).2
  -- new tenants, as many as the window over all tenants has room for
  have hroom := not_full_iff.1 hfull
  obtain ⟨tenants, hlen, hnodup, hnew⟩ := s.exists_newTenants
    (settings.requestsPerMinute * 10 - (s.globalRequestLimiter.recent c.now).length).toNat
  have hlater : ∀ c' ∈ tenants.map (fullRequest settings c.now), c'.now = c.now := by
    intro c' hc'
    obtain ⟨t, -, rfl⟩ := List.mem_map.mp hc'
    rfl
  have horder : CallsInOrder (c :: tenants.map (fullRequest settings c.now)) := by
    refine List.pairwise_cons.mpr ⟨fun c' hc' => (hlater c' hc').ge, ?_⟩
    exact List.pairwise_map.mpr (List.pairwise_of_forall fun _ _ => le_rfl)
  have hcharged := length_recent_checkRateLimit hfull
  have hfalse := false_mem_decisions hlater (s.checkRateLimit c).1
    (by omega) (by rw [List.length_map]; omega)
  rw [h hrefused _ horder] at hfalse
  exact decisions_newTenants hnodup s hnew (by omega) hfalse

/-- A refused call leaves every later decision as it was exactly if it was the window over
all tenants that refused it, and runs whose refused calls are such decide as if those had
not been made. -/
theorem uncharged_iff_harmless (settings : Settings) :
    (∀ (s : RateLimiter settings) (c : RateLimitCall), s.Uncharged c ↔ s.Harmless c) ∧
      UnchargedRuns settings Harmless := by
  refine ⟨fun s c => ⟨harmless_of_uncharged, fun hharmless hrefused later horder => ?_⟩,
    unchargedRuns_harmless settings⟩
  rcases hharmless with hfull | htenant
  · exact decisions_of_full hfull (List.pairwise_cons.mp horder).1
  · have hfull : s.globalRequestLimiter.Full c.now := by
      by_contra hfull
      rw [checkRateLimit_snd.2 ⟨hfull, htenant⟩] at hrefused
      cases hrefused
    exact decisions_of_full hfull (List.pairwise_cons.mp horder).1

/-- One request a minute for each tenant : the refused requests of one fill the window over
all, and the first request of another is refused. -/
theorem not_unchargedRuns : ¬∀ settings : Settings, UnchargedRuns settings fun _ _ => True := by
  intro h
  have hcalls := h { requestsPerMinute := 1 } (init _)
    (List.replicate 10 { tenantId := "a", now := 0 }) [{ tenantId := "b", now := 0 }]
    (by unfold CallsInOrder; decide +kernel) (by simp [Meets, List.replicate_succ])
  revert hcalls
  decide +kernel

end RateLimiter

end ModelGateway

end MultiAgent
