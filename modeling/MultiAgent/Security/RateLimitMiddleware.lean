import Mathlib.Algebra.Order.Field.Rat
import Mathlib.Algebra.Order.Ring.Rat
import MultiAgent.Lib.Dict
import MultiAgent.Lib.SlidingWindow

/-!
# The rate limit of a client

`RateLimitMiddleware` of `libs/security/middleware.py`. `dispatch` decides before its first
`await`. Numbers are exact.

Each client has a list of its own, and is answered from it alone (`answersTo_dispatch`).
-/

namespace MultiAgent

namespace Security

/-- The response to a request that is refused. -/
structure JSONResponse where
  statusCode : ℕ
  detail : String
  deriving DecidableEq

/-- The attributes of `RateLimitMiddleware`. -/
structure RateLimitMiddleware where
  requestsPerMinute : ℤ := 60
  requests : Dict String (List ℚ) := .empty

/-- A request, with `request.client.host` and what the clock reads. -/
structure ClientRequest where
  clientIp : String
  now : ℚ
  deriving DecidableEq

namespace RateLimitMiddleware

variable (m : RateLimitMiddleware) (request : ClientRequest)

/-- `self.requests[client_ip]` once the old requests are cleaned. -/
def cleaned : List ℚ :=
  match m.requests.get? request.clientIp with
  | some times => times.filter fun reqTime => decide (request.now - reqTime < 60)
  | none => []

/-- `dispatch` : the response, and none where `call_next` is called. -/
def dispatch : RateLimitMiddleware × Option JSONResponse :=
  let requests := m.requests.set request.clientIp (m.cleaned request)
  if m.requestsPerMinute ≤ ((m.cleaned request).length : ℤ) then
    ({ m with requests }, some ⟨429, "Rate limit exceeded"⟩)
  else
    ({ m with requests := requests.set request.clientIp (m.cleaned request ++ [request.now]) },
      none)

/-- `dispatch`, with whether the request is let through. -/
def ask : RateLimitMiddleware × Bool :=
  ((m.dispatch request).1, (m.dispatch request).2.isNone)

/-- The list of a client, with the limit of the middleware. -/
def client (ip : String) : ℤ × List ℚ :=
  (m.requestsPerMinute, m.requests.getD ip [])

/-- What `dispatch` does with the list of one client. -/
def askClient (c : ℤ × List ℚ) (now : ℚ) : (ℤ × List ℚ) × Bool :=
  let times := c.2.filter fun reqTime => decide (now - reqTime < 60)
  if c.1 ≤ (times.length : ℤ) then ((c.1, times), false) else ((c.1, times ++ [now]), true)

variable {m request} {ip : String}

theorem cleaned_eq : m.cleaned request =
    (m.client request.clientIp).2.filter fun reqTime => decide (request.now - reqTime < 60) := by
  unfold cleaned client Dict.getD
  cases m.requests.get? request.clientIp <;> rfl

/-- A request is answered from the list of its client. -/
theorem client_ask_self :
    ((m.ask request).1.client request.clientIp, (m.ask request).2) =
      askClient (m.client request.clientIp) request.now := by
  unfold ask dispatch askClient
  rw [← cleaned_eq]
  dsimp only [client]
  by_cases hle : m.requestsPerMinute ≤ ((m.cleaned request).length : ℤ)
  · simp [hle]
  · simp [hle]

/-- The lists of the other clients stay as they are. -/
theorem client_ask_of_ne (h : ip ≠ request.clientIp) :
    (m.ask request).1.client ip = m.client ip := by
  unfold ask dispatch
  dsimp only [client]
  split_ifs
  · rw [Dict.getD_set_ne _ _ _ h]
  · rw [Dict.getD_set_ne _ _ _ h, Dict.getD_set_ne _ _ _ h]

/-- The times of the requests of a client. -/
def timesOf (ip : String) (requests : List ClientRequest) : List ℚ :=
  (requests.filter fun r => decide (r.clientIp = ip)).map ClientRequest.now

/-- A client is answered as if it were the only one. -/
theorem answersTo_dispatch (ip : String) (m : RateLimitMiddleware)
    (requests : List ClientRequest) :
    SlidingWindow.answersTo (fun r => decide (r.clientIp = ip)) ask m requests =
      SlidingWindow.answers askClient (m.client ip) (timesOf ip requests) := by
  refine SlidingWindow.answersTo_eq (fun m => m.client ip) ClientRequest.now (fun m r hr => ?_)
    (fun m r hr => ?_) m requests
  · obtain rfl := of_decide_eq_true hr
    exact client_ask_self
  · exact client_ask_of_ne (Ne.symm (of_decide_eq_false hr))

/-- The list of a client is filtered by how long ago its requests were. -/
theorem prunes_askClient (limit : ℤ) :
    SlidingWindow.Prunes askClient (fun c => c.1 = limit) Prod.snd (60 : ℚ) limit := by
  rintro ⟨limit, times⟩ now rfl - -
  have hrecent : (times.filter fun reqTime => decide (now - reqTime < 60)) =
      SlidingWindow.recent 60 times now := by
    refine List.filter_congr fun t _ => decide_eq_decide.mpr ?_
    rw [sub_lt_comm]
  unfold askClient
  dsimp only
  rw [hrecent]
  have hcast : limit ≤ ((SlidingWindow.recent 60 times now).length : ℤ) ↔
      (limit : ℚ) ≤ (SlidingWindow.recent 60 times now).length := by
    exact_mod_cast Iff.rfl
  by_cases hle : limit ≤ ((SlidingWindow.recent 60 times now).length : ℤ)
  · rw [if_pos hle]
    have hnot : ¬((SlidingWindow.recent 60 times now).length : ℚ) < limit :=
      not_lt.mpr (hcast.mp hle)
    exact ⟨rfl, (decide_eq_false hnot).symm, (List.append_nil _).symm⟩
  · rw [if_neg hle]
    have hlt : ((SlidingWindow.recent 60 times now).length : ℚ) < limit :=
      not_le.mp (mt hcast.mpr hle)
    exact ⟨rfl, (decide_eq_true hlt).symm, rfl⟩

end RateLimitMiddleware

end Security

end MultiAgent
