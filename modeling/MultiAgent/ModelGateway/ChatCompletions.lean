import MultiAgent.ModelGateway.CircuitBreaker
import MultiAgent.Security.SlidingWindows

/-!
# The completions of the model gateway

`chat_completion` of `apps/data-plane/model-gateway/src/main.py` : the rate limiter, the breaker
of the provider and the model, the provider of `providers.py` and the event for billing, for any
number of requests at once. A request is suspended only while its provider is asked.

Whatever becomes of the requests, the calls of the providers keep the limits : in no minute more
than `requests_per_minute` for a tenant, and ten times that for all (`upstream_of_run`).
-/

namespace MultiAgent

namespace ModelGateway

/-! ## Requests and providers -/

/-- `Provider`. -/
inductive Provider
  | openai
  | anthropic
  | azureOpenai
  deriving DecidableEq

/-- `Provider.value`. -/
def Provider.value : Provider → String
  | openai => "openai"
  | anthropic => "anthropic"
  | azureOpenai => "azure_openai"

/-- What the endpoint reads of `settings`, beside the limits. -/
structure GatewaySettings extends Settings where
  openaiApiKey : Option String := none
  anthropicApiKey : Option String := none
  failureThreshold : ℤ := 5
  recoveryTimeout : ℤ := 60
  openaiModels : List String := ["gpt-4", "gpt-3.5-turbo", "gpt-4-turbo"]
  anthropicModels : List String := ["claude-3-sonnet", "claude-3-haiku"]

/-- What the endpoint reads of `CompletionRequest`. -/
structure CompletionRequest where
  tenantId : String
  model : String
  provider : Option Provider := none
  deriving DecidableEq

/-- `Usage`. -/
structure Usage where
  promptTokens : ℤ
  completionTokens : ℤ
  totalTokens : ℤ
  costUsd : Option ℚ := none
  deriving DecidableEq

/-- `CompletionResponse`. -/
structure CompletionResponse where
  id : String
  model : String
  provider : Provider
  content : String
  usage : Usage
  finishReason : String
  createdAt : String

/-- `TokenMeteringEvent`. -/
structure TokenMeteringEvent where
  tenantId : String
  model : String
  provider : Provider
  promptTokens : ℤ
  completionTokens : ℤ
  totalTokens : ℤ
  costUsd : ℚ
  requestId : String
  timestamp : String

/-- The fields of the body a provider sent, where it has them. One of another type raises, as a
request that fails does. -/
structure ProviderData where
  id : Option String := none
  model : Option String := none
  promptTokens : Option ℤ := none
  completionTokens : Option ℤ := none
  totalTokens : Option ℤ := none
  content : Option String := none
  finishReason : Option String := none
  created : Option String := none

/-- `ProviderFactory.get_default_provider`. -/
def getDefaultProvider (settings : GatewaySettings) (model : String) : Provider :=
  if model ∈ settings.openaiModels then .openai
  else if model ∈ settings.anthropicModels then .anthropic
  else .openai

/-- The `pricing` of a provider for a model, for a thousand tokens of the prompt and of the
completion. -/
def pricing : Provider → String → Option (ℚ × ℚ)
  | .openai, "gpt-4" => some (3 / 100, 6 / 100)
  | .openai, "gpt-3.5-turbo" => some (1 / 1000, 2 / 1000)
  | .openai, "gpt-4-turbo" => some (1 / 100, 3 / 100)
  | .anthropic, "claude-3-sonnet" => some (3 / 1000, 15 / 1000)
  | .anthropic, "claude-3-haiku" => some (25 / 100000, 125 / 100000)
  | _, _ => none

/-- `estimate_cost`. -/
def estimateCost (provider : Provider) (promptTokens completionTokens : ℤ) (model : String) : ℚ :=
  match pricing provider model with
  | none => 0
  | some (prompt, completion) =>
    promptTokens / 1000 * prompt + completionTokens / 1000 * completion

/-- `OpenAIProvider.complete` on the body of the response; a missing field raises. -/
def openaiResponse (request : CompletionRequest) (data : ProviderData) :
    Option CompletionResponse := do
  let promptTokens ← data.promptTokens
  let completionTokens ← data.completionTokens
  let totalTokens ← data.totalTokens
  let id ← data.id
  let model ← data.model
  let content ← data.content
  let finishReason ← data.finishReason
  let createdAt ← data.created
  let costUsd := estimateCost .openai promptTokens completionTokens request.model
  return {
    id, model, content, finishReason, createdAt
    provider := .openai
    usage := { promptTokens, completionTokens, totalTokens, costUsd } }

/-- `AnthropicProvider.complete` on the body of the response, with a fresh id and the time. -/
def anthropicResponse (request : CompletionRequest) (data : ProviderData)
    (newId createdAt : String) : Option CompletionResponse := do
  let promptTokens := data.promptTokens.getD 0
  let completionTokens := data.completionTokens.getD 0
  let content ← data.content
  let costUsd := estimateCost .anthropic promptTokens completionTokens request.model
  return {
    id := data.id.getD newId
    model := data.model.getD request.model
    provider := .anthropic
    content
    usage := {
      promptTokens, completionTokens, costUsd
      totalTokens := promptTokens + completionTokens }
    finishReason := data.finishReason.getD "stop"
    createdAt }

/-- `str(int(time.time()))`. -/
def timestamp (now : ℚ) : String :=
  toString ⌊now⌋

/-- The event of `chat_completion` for billing. -/
def meteringEvent (request : CompletionRequest) (response : CompletionResponse) (now : ℚ) :
    TokenMeteringEvent where
  tenantId := request.tenantId
  model := response.model
  provider := response.provider
  promptTokens := response.usage.promptTokens
  completionTokens := response.usage.completionTokens
  totalTokens := response.usage.totalTokens
  costUsd := response.usage.costUsd.getD 0
  requestId := response.id
  timestamp := timestamp now

/-! ## The endpoint -/

/-- How a request ends : status 429, status 500 from the handler of `chat_completion`, a
`ValueError` that nothing catches, a response, or the request is cancelled. -/
inductive Answer
  | rateLimited
  | providerError
  | valueError
  | completed
  | cancelled
  deriving DecidableEq

/-- The gateway, with the requests in flight by the number of their breaker call, and what was
received, sent to the providers, answered and billed, newest first. -/
structure Gateway (settings : GatewaySettings) where
  limiter : RateLimiter settings.toSettings := .init settings.toSettings
  breakers : GatewaySystem := {}
  flights : List (Option CompletionRequest) := []
  received : List String := []
  upstream : List (CompletionRequest × ℚ) := []
  answers : List (String × Answer) := []
  metered : List TokenMeteringEvent := []
  clock : ℚ

namespace Gateway

variable {settings : GatewaySettings} (g : Gateway settings)

/-- The request of the tenant ends. -/
def answer (tenantId : String) (a : Answer) : Gateway settings :=
  { g with answers := (tenantId, a) :: g.answers }

/-- The provider of a request. -/
def providerOf (settings : GatewaySettings) (request : CompletionRequest) : Provider :=
  request.provider.getD (getDefaultProvider settings request.model)

/-- `breaker_name`. -/
def breakerName (provider : Provider) (model : String) : String :=
  provider.value ++ "_" ++ model

/-- The configuration of a new breaker. -/
def breakerConfig (settings : GatewaySettings) : CircuitBreakerConfig where
  failureThreshold := settings.failureThreshold
  recoveryTimeout := settings.recoveryTimeout

/-- The API key of the provider is not empty. -/
def hasApiKey (settings : GatewaySettings) : Provider → Bool
  | .openai => settings.openaiApiKey.any (· ≠ "")
  | .anthropic => settings.anthropicApiKey.any (· ≠ "")
  | .azureOpenai => false

/-- `chat_completion` behind the limiter, up to the request to the provider. `check_tenant_policy`
allows everything. -/
def dispatch (request : CompletionRequest) (now : ℚ) : Gateway settings :=
  let provider := providerOf settings request
  let name := breakerName provider request.model
  let config := some (breakerConfig settings)
  let made := g.breakers.breakers.getBreaker name config
  if provider = .azureOpenai then
    -- the breaker is there when `get_provider` raises
    { g with breakers := { g.breakers with breakers := made.2 } }.answer request.tenantId
      .valueError
  else
    let begun := made.1.beginCall "make_request" now
    let breakers := g.breakers.beginCall name config "make_request" now
    if begun.2.isSome then { g with breakers }.answer request.tenantId .providerError
    else if hasApiKey settings provider then
      { g with
        breakers
        flights := g.flights ++ [some request]
        upstream := (request, now) :: g.upstream }
    else
      -- `complete` raises before it awaits anything
      { g with
        breakers :=
          breakers.finish g.breakers.calls.length name (begun.1.recordFailure now) (some now)
        flights := g.flights ++ [none] }.answer request.tenantId .providerError

/-- `chat_completion` up to the request to the provider. -/
def chatCompletion (request : CompletionRequest) (now : ℚ) : Gateway settings :=
  let checked := g.limiter.checkRateLimit { tenantId := request.tenantId, now }
  let g := { g with
    limiter := checked.1
    received := request.tenantId :: g.received
    clock := now }
  if checked.2 then g.dispatch request now else g.answer request.tenantId .rateLimited

variable (settings) in
/-- The response to a request, if its provider makes one of the body. -/
def responseOf (request : CompletionRequest) (data : ProviderData) (newId : String) (now : ℚ) :
    Option CompletionResponse :=
  match providerOf settings request with
  | .openai => openaiResponse request data
  | .anthropic => anthropicResponse request data newId (timestamp now)
  | .azureOpenai => none

/-- The call number `c` ends. -/
def finish (c : ℕ) (request : CompletionRequest) (breakers : GatewaySystem) (a : Answer) :
    Gateway settings :=
  { g with breakers, flights := g.flights.set c none }.answer request.tenantId a

/-- A request comes in, or the provider of one in flight sends a body or raises, or one in flight
is cancelled. -/
inductive Event
  | request (request : CompletionRequest) (now : ℚ)
  | body (c : ℕ) (data : ProviderData) (newId : String) (now : ℚ)
  | raised (c : ℕ) (now : ℚ)
  | cancelled (c : ℕ)

/-- One event. -/
def step : Event → Option (Gateway settings)
  | .request request now => some (g.chatCompletion request now)
  | .body c data newId now =>
    match g.flights[c]? with
    | some (some request) =>
      match responseOf settings request data newId now with
      | some response =>
        (g.breakers.step (.succeed c)).map fun breakers =>
          { g.finish c request breakers .completed with
            metered := meteringEvent request response now :: g.metered }
      | none => (g.breakers.step (.fail c now)).map (g.finish c request · .providerError)
    | _ => none
  | .raised c now =>
    match g.flights[c]? with
    | some (some request) =>
      (g.breakers.step (.fail c now)).map (g.finish c request · .providerError)
    | _ => none
  | .cancelled c =>
    match g.flights[c]? with
    | some (some request) =>
      (g.breakers.step (.abort c)).map (g.finish c request · .cancelled)
    | _ => none

end Gateway

/-- The gateway under every interleaving of its requests. -/
def completionMachine (settings : GatewaySettings) (started : ℚ) :
    Machine (Gateway settings) Gateway.Event where
  init := { clock := started }
  step := Gateway.step

/-- The requests read the clock in order. -/
def Gateway.InOrder {settings : GatewaySettings} (g : Gateway settings) : Gateway.Event → Prop
  | .request _ now => g.clock ≤ now
  | .body _ _ _ _ => True
  | .raised _ _ => True
  | .cancelled _ => True

variable {settings : GatewaySettings} {g g' : Gateway settings} {started : ℚ}
  {es : List Gateway.Event}

namespace Gateway

/-! ## What a step leaves -/

/-- What a request does : it is sent to its provider if the limiter lets it through, or ends. -/
structure Received (g : Gateway settings) (request : CompletionRequest) (now : ℚ)
    (g' : Gateway settings) : Prop where
  limiter : g'.limiter = (g.limiter.checkRateLimit { tenantId := request.tenantId, now }).1
  clock : g'.clock = now
  received : g'.received = request.tenantId :: g.received
  metered : g'.metered = g.metered
  sent : (g.limiter.checkRateLimit { tenantId := request.tenantId, now }).2 = true ∧
      providerOf settings request ≠ .azureOpenai ∧
      g'.upstream = (request, now) :: g.upstream ∧ g'.flights = g.flights ++ [some request] ∧
      g'.answers = g.answers ∨
    g'.upstream = g.upstream ∧ (g'.flights = g.flights ∨ g'.flights = g.flights ++ [none]) ∧
      ∃ a, a ≠ .completed ∧ g'.answers = (request.tenantId, a) :: g.answers

theorem received_chatCompletion (g : Gateway settings) (request : CompletionRequest) (now : ℚ) :
    Received g request now (g.chatCompletion request now) := by
  unfold chatCompletion dispatch
  dsimp only
  split_ifs with hallowed hazure hblocked hkey
  · exact ⟨rfl, rfl, rfl, rfl, Or.inr ⟨rfl, Or.inl rfl, .valueError, by decide, rfl⟩⟩
  · exact ⟨rfl, rfl, rfl, rfl, Or.inr ⟨rfl, Or.inl rfl, .providerError, by decide, rfl⟩⟩
  · exact ⟨rfl, rfl, rfl, rfl, Or.inl ⟨hallowed, hazure, rfl, rfl, rfl⟩⟩
  · exact ⟨rfl, rfl, rfl, rfl, Or.inr ⟨rfl, Or.inr rfl, .providerError, by decide, rfl⟩⟩
  · exact ⟨rfl, rfl, rfl, rfl, Or.inr ⟨rfl, Or.inl rfl, .rateLimited, by decide, rfl⟩⟩

/-- The end of a call that was in flight. -/
structure Ended (g : Gateway settings) (c : ℕ) (request : CompletionRequest) (a : Answer)
    (g' : Gateway settings) : Prop where
  limiter : g'.limiter = g.limiter
  clock : g'.clock = g.clock
  received : g'.received = g.received
  upstream : g'.upstream = g.upstream
  flights : g'.flights = g.flights.set c none
  answers : g'.answers = (request.tenantId, a) :: g.answers
  caught : a ≠ .valueError
  metered : a ≠ .completed ∧ g'.metered = g.metered ∨
    a = .completed ∧ ∃ event, event.tenantId = request.tenantId ∧
      event.provider ≠ .azureOpenai ∧ g'.metered = event :: g.metered

theorem provider_of_responseOf {request : CompletionRequest} {data : ProviderData}
    {newId : String} {now : ℚ} {response : CompletionResponse}
    (h : responseOf settings request data newId now = some response) :
    response.provider ≠ .azureOpenai := by
  unfold responseOf at h
  split at h
  · simp only [openaiResponse, Option.pure_def, Option.bind_eq_bind,
      Option.bind_eq_some_iff] at h
    obtain ⟨_, -, _, -, _, -, _, -, _, -, _, -, _, -, _, -, hresponse⟩ := h
    obtain rfl := Option.some.inj hresponse
    simp
  · simp only [anthropicResponse, Option.pure_def, Option.bind_eq_bind,
      Option.bind_eq_some_iff] at h
    obtain ⟨_, -, hresponse⟩ := h
    obtain rfl := Option.some.inj hresponse
    simp
  · cases h

/-- A request comes in, or one in flight ends after the breakers took a step. -/
theorem step_cases {e : Event} (h : g.step e = some g') :
    (∃ request now, e = .request request now ∧ g' = g.chatCompletion request now) ∨
    ∃ c request call a, g.flights[c]? = some (some request) ∧
      g.breakers.step call = some g'.breakers ∧
      (call = .succeed c ∨ (∃ now, call = .fail c now) ∨ call = .abort c) ∧
      Ended g c request a g' := by
  have hend : ∀ {c request call} {a : Answer}, a ≠ .valueError → a ≠ .completed →
      (g.breakers.step call).map (g.finish c request · a) = some g' →
      g.breakers.step call = some g'.breakers ∧ Ended g c request a g' := by
    intro c request call a hcaught ha hmap
    obtain ⟨breakers, hstep, rfl⟩ := Option.map_eq_some_iff.mp hmap
    exact ⟨hstep, rfl, rfl, rfl, rfl, rfl, rfl, hcaught, Or.inl ⟨ha, rfl⟩⟩
  cases e with
  | request request now => exact Or.inl ⟨request, now, rfl, (Option.some.inj h).symm⟩
  | body c data newId now =>
    simp only [step] at h
    split at h
    · next request hc =>
      split at h
      · next response hresponse =>
        obtain ⟨breakers, hstep, rfl⟩ := Option.map_eq_some_iff.mp h
        exact Or.inr ⟨c, request, _, .completed, hc, hstep, Or.inl rfl, rfl, rfl, rfl, rfl, rfl,
          rfl, by decide, Or.inr ⟨rfl, _, rfl, provider_of_responseOf hresponse, rfl⟩⟩
      · obtain ⟨hstep, hended⟩ := hend (by decide) (by decide) h
        exact Or.inr ⟨c, request, _, _, hc, hstep, Or.inr (Or.inl ⟨now, rfl⟩), hended⟩
    · cases h
  | raised c now =>
    simp only [step] at h
    split at h
    · next request hc =>
      obtain ⟨hstep, hended⟩ := hend (by decide) (by decide) h
      exact Or.inr ⟨c, request, _, _, hc, hstep, Or.inr (Or.inl ⟨now, rfl⟩), hended⟩
    · cases h
  | cancelled c =>
    simp only [step] at h
    split at h
    · next request hc =>
      obtain ⟨hstep, hended⟩ := hend (by decide) (by decide) h
      exact Or.inr ⟨c, request, _, _, hc, hstep, Or.inr (Or.inr rfl), hended⟩
    · cases h

/-! ## The limits -/

open SlidingWindow

/-- The window let requests through at the times `charged`, within its limit. -/
abbrev WindowCharged (maxRequests : ℤ) (w : SlidingWindowRateLimiter) (charged : List ℚ)
    (clock : ℚ) : Prop :=
  Charged (fun w => w.maxRequests = maxRequests ∧ w.windowSize = 60)
    SlidingWindowRateLimiter.requests (60 : ℚ) maxRequests w charged clock

theorem WindowCharged.isAllowed {maxRequests : ℤ} {w : SlidingWindowRateLimiter}
    {charged : List ℚ} {clock now : ℚ} (h : WindowCharged maxRequests w charged clock)
    (hnow : clock ≤ now) :
    WindowCharged maxRequests (w.isAllowed now).1
      (charged ++ if (w.isAllowed now).2 then [now] else []) now :=
  (SlidingWindowRateLimiter.prunes_isAllowed maxRequests 60).charged_step h hnow

/-- A window that was not asked. -/
theorem WindowCharged.mono {maxRequests : ℤ} {w : SlidingWindowRateLimiter} {charged : List ℚ}
    {clock now : ℚ} (h : WindowCharged maxRequests w charged clock) (hnow : clock ≤ now) :
    WindowCharged maxRequests w charged now :=
  ⟨h.good, h.agrees.mono hnow, h.within⟩

theorem windowCharged_nil (maxRequests : ℤ) (clock : ℚ) :
    WindowCharged maxRequests { maxRequests } [] clock :=
  ⟨⟨rfl, rfl⟩, ⟨List.Pairwise.nil, by simp, by simp, fun _ _ => rfl⟩, fun _ => Nat.zero_le _⟩

/-- The window of a tenant. -/
def windowOf (limiter : RateLimiter settings.toSettings) (tenantId : String) :
    SlidingWindowRateLimiter :=
  limiter.requestLimiters.getD tenantId { maxRequests := settings.requestsPerMinute }

/-- Only the window of the tenant that asks changes, and not if the window over all tenants
refuses. -/
theorem windowOf_checkRateLimit (limiter : RateLimiter settings.toSettings) (c : RateLimitCall)
    (tenantId : String) :
    windowOf (limiter.checkRateLimit c).1 tenantId =
      if tenantId = c.tenantId ∧ (limiter.globalRequestLimiter.isAllowed c.now).2 = true then
        ((windowOf limiter tenantId).isAllowed c.now).1
      else windowOf limiter tenantId := by
  by_cases hfull : limiter.globalRequestLimiter.Full c.now
  · have hrefused : (limiter.globalRequestLimiter.isAllowed c.now).2 = false := by
      rw [SlidingWindowRateLimiter.isAllowed_of_full hfull]
    rw [RateLimiter.checkRateLimit_of_full hfull, if_neg (by simp [hrefused])]
    rfl
  · have hset : (limiter.checkRateLimit c).1.requestLimiters =
        limiter.requestLimiters.set c.tenantId
          ((limiter.requestLimiter c).isAllowed c.now).1 := by
      rw [RateLimiter.checkRateLimit_of_not_full hfull]
      split_ifs <;> rfl
    have hallowed := SlidingWindowRateLimiter.isAllowed_snd.mpr hfull
    unfold windowOf
    rw [hset, Dict.getD_set]
    by_cases htenant : tenantId = c.tenantId
    · rw [if_pos htenant, if_pos ⟨htenant, hallowed⟩, htenant]
      rfl
    · rw [if_neg htenant, if_neg (by simp [htenant])]

/-- The calls of the providers were charged to the window over all tenants and to the window of
their tenant. -/
structure Limited (g : Gateway settings) : Prop where
  global : ∃ charged, WindowCharged (settings.requestsPerMinute * 10)
    g.limiter.globalRequestLimiter charged g.clock ∧
      ∀ p : ℚ → Bool, (g.upstream.countP fun x => p x.2) ≤ charged.countP p
  tenant : ∀ tenantId, ∃ charged, WindowCharged settings.requestsPerMinute
    (windowOf g.limiter tenantId) charged g.clock ∧
      ∀ p : ℚ → Bool, (g.upstream.countP fun x => decide (x.1.tenantId = tenantId) && p x.2) ≤
        charged.countP p

/-- A request that was let through was charged to both windows. -/
theorem Limited.received (h : Limited g) {request : CompletionRequest} {now : ℚ}
    (hnow : g.clock ≤ now) (hg' : Received g request now g') : Limited g' := by
  set c : RateLimitCall := { tenantId := request.tenantId, now }
  have hglobal : g'.limiter.globalRequestLimiter =
      (g.limiter.globalRequestLimiter.isAllowed now).1 :=
    (congrArg _ hg'.limiter).trans RateLimiter.globalRequestLimiter_checkRateLimit
  have hsent : g'.upstream = g.upstream ∨ g'.upstream = (request, now) :: g.upstream ∧
      (g.limiter.globalRequestLimiter.isAllowed now).2 = true ∧
      ((windowOf g.limiter request.tenantId).isAllowed now).2 = true := by
    rcases hg'.sent with ⟨hallowed, -, hupstream, -⟩ | ⟨hupstream, -⟩
    · obtain ⟨hfull, hrequests, -⟩ := RateLimiter.checkRateLimit_snd.mp hallowed
      exact Or.inr ⟨hupstream, SlidingWindowRateLimiter.isAllowed_snd.mpr hfull,
        SlidingWindowRateLimiter.isAllowed_snd.mpr hrequests⟩
    · exact Or.inl hupstream
  constructor
  · obtain ⟨charged, hcharged, hcount⟩ := h.global
    rw [hglobal, hg'.clock]
    refine ⟨_, hcharged.isAllowed hnow, fun p => ?_⟩
    rw [List.countP_append]
    rcases hsent with hupstream | ⟨hupstream, hallowed, -⟩
    · rw [hupstream]
      exact (hcount p).trans (Nat.le_add_right _ _)
    · rw [hupstream, List.countP_cons, if_pos hallowed, List.countP_singleton]
      exact Nat.add_le_add_right (hcount p) _
  · intro tenantId
    obtain ⟨charged, hcharged, hcount⟩ := h.tenant tenantId
    rw [hg'.limiter, hg'.clock, windowOf_checkRateLimit]
    by_cases hasked : tenantId = c.tenantId ∧
        (g.limiter.globalRequestLimiter.isAllowed c.now).2 = true
    · rw [if_pos hasked]
      refine ⟨_, hcharged.isAllowed hnow, fun p => ?_⟩
      rw [List.countP_append]
      rcases hsent with hupstream | ⟨hupstream, -, hallowed⟩
      · rw [hupstream]
        exact (hcount p).trans (Nat.le_add_right _ _)
      · have hmine : request.tenantId = tenantId := hasked.1.symm
        rw [hmine] at hallowed
        rw [hupstream, List.countP_cons, if_pos hallowed, List.countP_singleton]
        simpa [hmine] using hcount p
    · rw [if_neg hasked]
      refine ⟨charged, hcharged.mono hnow, fun p => ?_⟩
      rcases hsent with hupstream | ⟨hupstream, hallowed, -⟩
      · rw [hupstream]
        exact hcount p
      · have hother : request.tenantId ≠ tenantId := fun heq => hasked ⟨heq.symm, hallowed⟩
        rw [hupstream, List.countP_cons]
        simpa [hother] using hcount p

theorem Limited.ended {c : ℕ} {request : CompletionRequest} {a : Answer} (h : Limited g)
    (hg' : Ended g c request a g') : Limited g' := by
  refine ⟨?_, fun tenantId => ?_⟩
  · rw [hg'.limiter, hg'.clock, hg'.upstream]
    exact h.global
  · rw [hg'.limiter, hg'.clock, hg'.upstream]
    exact h.tenant tenantId

theorem limited_of_run (h : (completionMachine settings started).Run InOrder es g) :
    Limited g := by
  refine h.invariant ⟨⟨[], windowCharged_nil _ _, fun _ => Nat.le_refl 0⟩,
    fun tenantId => ⟨[], windowCharged_nil _ _, fun _ => Nat.le_refl 0⟩⟩ ?_
  intro s e t hs he hst
  rcases step_cases hst with ⟨request, now, rfl, rfl⟩ | ⟨c, request, call, a, -, -, -, hended⟩
  · exact hs.received he (received_chatCompletion s request now)
  · exact hs.ended hended

end Gateway

/-- In every run and in every minute, the providers are called at most `requests_per_minute`
times for a tenant, and at most ten times as often for all tenants. -/
theorem upstream_of_run (h : (completionMachine settings started).Run Gateway.InOrder es g)
    (t : ℚ) :
    (∀ tenantId, (g.upstream.countP fun x =>
        decide (x.1.tenantId = tenantId) && decide (t - 60 < x.2 ∧ x.2 ≤ t)) ≤
      settings.requestsPerMinute.toNat) ∧
    (g.upstream.countP fun x => decide (t - 60 < x.2 ∧ x.2 ≤ t)) ≤
      (settings.requestsPerMinute * 10).toNat := by
  have hlimited := Gateway.limited_of_run h
  constructor
  · intro tenantId
    obtain ⟨charged, hcharged, hcount⟩ := hlimited.tenant tenantId
    have hwithin := hcharged.within t
    rw [Nat.ceil_intCast] at hwithin
    exact (hcount fun u => decide (t - 60 < u ∧ u ≤ t)).trans hwithin
  · obtain ⟨charged, hcharged, hcount⟩ := hlimited.global
    have hwithin := hcharged.within t
    rw [Nat.ceil_intCast] at hwithin
    exact (hcount fun u => decide (t - 60 < u ∧ u ≤ t)).trans hwithin

instance (g : Gateway settings) : ∀ e, Decidable (g.InOrder e)
  | .request _ now => inferInstanceAs (Decidable (g.clock ≤ now))
  | .body _ _ _ _ => inferInstanceAs (Decidable True)
  | .raised _ _ => inferInstanceAs (Decidable True)
  | .cancelled _ => inferInstanceAs (Decidable True)

/-- One request a minute : of three requests of a tenant and one of another two are sent in the
first minute, and one more in the second. -/
theorem upstream_of_three : ∃ (es : List Gateway.Event)
    (g : Gateway { requestsPerMinute := 1, openaiApiKey := some "k" }),
    (completionMachine { requestsPerMinute := 1, openaiApiKey := some "k" } 0).Run
      Gateway.InOrder es g ∧
    g.upstream.map (fun x => (x.1.tenantId, x.2)) = [("a", 61), ("b", 1), ("a", 0)] ∧
    ((∀ tenantId, (g.upstream.countP fun x =>
        decide (x.1.tenantId = tenantId) && decide (60 - 60 < x.2 ∧ x.2 ≤ 60)) ≤ (1 : ℤ).toNat) ∧
      (g.upstream.countP fun x => decide (60 - 60 < x.2 ∧ x.2 ≤ 60)) ≤ (1 * 10 : ℤ).toNat) := by
  obtain ⟨g, hrun, hp⟩ := Machine.exists_run
    (completionMachine { requestsPerMinute := 1, openaiApiKey := some "k" } 0) Gateway.InOrder
    [.request { tenantId := "a", model := "gpt-4" } 0,
      .request { tenantId := "a", model := "gpt-4" } 1,
      .request { tenantId := "b", model := "gpt-4" } 1,
      .request { tenantId := "a", model := "gpt-4" } 61]
    (fun g => decide (g.upstream.map (fun x => (x.1.tenantId, x.2)) =
      [("a", 61), ("b", 1), ("a", 0)])) (by decide +kernel)
  exact ⟨_, g, hrun, of_decide_eq_true hp, upstream_of_run hrun 60⟩

end ModelGateway

end MultiAgent
