import Mathlib.Algebra.Order.Field.Rat
import Mathlib.Algebra.Order.Ring.Rat
import MultiAgent.Lib.SlidingWindow

/-!
# The rate limiter of the adapter library

`RateLimiter` of `libs/adapters/rate_limiter.py`, with its three strategies. Numbers are exact.
`_allow_request` holds a lock and awaits nothing else, so `now` is what the clock reads once a
request has the lock.

The sliding window filters by a bound that it computes first (`prunes_allowRequest`). Its limit is
a product and need not be a whole number.
-/

namespace MultiAgent

namespace AdapterLimiter

/-- `RateLimitStrategy`. -/
inductive RateLimitStrategy
  | tokenBucket
  | slidingWindow
  | fixedWindow
  deriving DecidableEq

/-- `RateLimitConfig`. -/
structure RateLimitConfig where
  requestsPerSecond : ℚ := 10
  burstSize : ℤ := 20
  strategy : RateLimitStrategy := .tokenBucket
  windowSize : ℚ := 60

/-- The number that a window is compared with. -/
def RateLimitConfig.limit (config : RateLimitConfig) : ℚ :=
  config.requestsPerSecond * config.windowSize

/-- The attributes of `RateLimiter`. -/
structure RateLimiter where
  name : String
  config : RateLimitConfig
  tokens : ℚ
  lastRefill : ℚ
  requestTimes : List ℚ := []
  windowStart : ℚ
  windowRequests : ℕ := 0
  totalRequests : ℕ := 0
  allowedRequests : ℕ := 0
  rejectedRequests : ℕ := 0

/-- `RateLimitExceededError`. -/
structure RateLimitExceededError where
  message : String

namespace RateLimiter

/-- `__init__`. -/
def new (name : String) (config : RateLimitConfig) (now : ℚ) : RateLimiter where
  name := name
  config := config
  tokens := config.burstSize
  lastRefill := now
  windowStart := now

variable (r : RateLimiter) (now : ℚ)

/-- `_token_bucket_allow`. -/
def tokenBucketAllow : RateLimiter × Bool :=
  let timePassed := now - r.lastRefill
  let tokensToAdd := timePassed * r.config.requestsPerSecond
  let tokens := min (r.tokens + tokensToAdd) r.config.burstSize
  if 1 ≤ tokens then ({ r with tokens := tokens - 1, lastRefill := now }, true)
  else ({ r with tokens, lastRefill := now }, false)

/-- `_sliding_window_allow`. -/
def slidingWindowAllow : RateLimiter × Bool :=
  let windowStart := now - r.config.windowSize
  let requestTimes := r.requestTimes.filter fun t => decide (windowStart < t)
  if (requestTimes.length : ℚ) < r.config.requestsPerSecond * r.config.windowSize then
    ({ r with requestTimes := requestTimes ++ [now] }, true)
  else ({ r with requestTimes }, false)

/-- `_fixed_window_allow`. -/
def fixedWindowAllow : RateLimiter × Bool :=
  let r := if r.config.windowSize ≤ now - r.windowStart then
    { r with windowStart := now, windowRequests := 0 } else r
  if (r.windowRequests : ℚ) < r.config.requestsPerSecond * r.config.windowSize then
    ({ r with windowRequests := r.windowRequests + 1 }, true)
  else (r, false)

/-- `_allow_request`. -/
def allowRequest : RateLimiter × Bool :=
  let r := { r with totalRequests := r.totalRequests + 1 }
  match r.config.strategy with
  | .tokenBucket => r.tokenBucketAllow now
  | .slidingWindow => r.slidingWindowAllow now
  | .fixedWindow => r.fixedWindowAllow now

/-- `execute`, up to the call of the function. -/
def execute : RateLimiter × Except RateLimitExceededError Unit :=
  match r.allowRequest now with
  | (r, true) => ({ r with allowedRequests := r.allowedRequests + 1 }, .ok ())
  | (r, false) =>
    ({ r with rejectedRequests := r.rejectedRequests + 1 },
      .error ⟨"Rate limit exceeded for " ++ r.name⟩)

/-- The sliding window keeps the times it lets through and drops those that have left it. -/
theorem prunes_allowRequest {config : RateLimitConfig} (h : config.strategy = .slidingWindow) :
    SlidingWindow.Prunes allowRequest (fun r => r.config = config) requestTimes
      config.windowSize config.limit := by
  rintro r now rfl - -
  have hsliding : r.allowRequest now =
      slidingWindowAllow { r with totalRequests := r.totalRequests + 1 } now := by
    rw [allowRequest, h]
  rw [hsliding, slidingWindowAllow]
  by_cases hlt : ((SlidingWindow.recent r.config.windowSize r.requestTimes now).length : ℚ) <
      r.config.limit
  · have hallowed := hlt
    unfold SlidingWindow.recent RateLimitConfig.limit at hallowed
    rw [if_pos hallowed]
    exact ⟨rfl, (decide_eq_true hlt).symm, rfl⟩
  · have hrefused := hlt
    unfold SlidingWindow.recent RateLimitConfig.limit at hrefused
    rw [if_neg hrefused]
    exact ⟨rfl, (decide_eq_false hlt).symm, (List.append_nil _).symm⟩

end RateLimiter

end AdapterLimiter

end MultiAgent
