import MultiAgent.ModelGateway.ChatCompletions

/-!
# The accounts of the model gateway

Every request of a tenant is answered once or is in flight, and what is billed is what was
completed, at most what was sent to the providers. A request in flight runs in a call of its
breaker, so it can end in each of the ways a call ends (`accounts_of_run`).

`get_provider` raises for `azure_openai` after the breaker was made and outside of it, so nothing
tells the breaker of the failure, and `provider_status` has the provider available as soon as one
request for it came to the breakers (`azure_of_run`).
-/

namespace MultiAgent

namespace ModelGateway

variable {settings : GatewaySettings} {g g' : Gateway settings} {started : ℚ}
  {es : List Gateway.Event}

/-! ## The accounts -/

namespace Gateway

/-- The requests of a tenant that are in flight. -/
def inFlight (g : Gateway settings) (tenantId : String) : ℕ :=
  g.flights.countP fun flight => flight.any fun request => request.tenantId = tenantId

/-- The calls of providers for a tenant. -/
def sent (g : Gateway settings) (tenantId : String) : ℕ :=
  g.upstream.countP fun x => x.1.tenantId = tenantId

/-- The events of a tenant for billing. -/
def billed (g : Gateway settings) (tenantId : String) : ℕ :=
  g.metered.countP fun event => event.tenantId = tenantId

/-- Every request of a tenant was answered once or is in flight, the completed ones are billed,
and what is completed or in flight was sent to a provider. -/
structure Accounts (g : Gateway settings) (tenantId : String) : Prop where
  received : g.received.count tenantId =
    (g.answers.countP fun x => x.1 = tenantId) + g.inFlight tenantId
  billed : g.billed tenantId = g.answers.count (tenantId, .completed)
  sent : g.billed tenantId + g.inFlight tenantId ≤ g.sent tenantId

variable {tenantId : String}

theorem Accounts.received_step (h : Accounts g tenantId) {request : CompletionRequest} {now : ℚ}
    (hg' : Received g request now g') : Accounts g' tenantId := by
  obtain ⟨hreceived, hbilled, hsent⟩ := h
  rcases hg'.sent with ⟨-, -, hupstream, hflights, hanswers⟩ |
      ⟨hupstream, hflights, a, ha, hanswers⟩
  · have hin : g'.inFlight tenantId =
        g.inFlight tenantId + if request.tenantId = tenantId then 1 else 0 := by
      simp [inFlight, hflights]
    have hsent' : g'.sent tenantId =
        g.sent tenantId + if request.tenantId = tenantId then 1 else 0 := by
      simp [Gateway.sent, hupstream, List.countP_cons]
    refine ⟨?_, ?_, ?_⟩
    · rw [hg'.received, hanswers, hin, List.count_cons]
      simp only [beq_iff_eq]
      omega
    · rw [Gateway.billed, hg'.metered, hanswers]
      exact hbilled
    · rw [Gateway.billed, hg'.metered, hin, hsent']
      have hsame : g.billed tenantId =
        g.metered.countP fun event => decide (event.tenantId = tenantId) := rfl
      omega
  · have hin : g'.inFlight tenantId = g.inFlight tenantId := by
      rcases hflights with hflights | hflights <;> simp [inFlight, hflights]
    refine ⟨?_, ?_, ?_⟩
    · rw [hg'.received, hanswers, hin, List.count_cons, List.countP_cons]
      simp only [beq_iff_eq, decide_eq_true_eq]
      omega
    · rw [Gateway.billed, hg'.metered, hanswers, List.count_cons_of_ne (by simp [ha])]
      exact hbilled
    · rw [Gateway.billed, hg'.metered, hin, Gateway.sent, hupstream]
      exact hsent

theorem Accounts.ended (h : Accounts g tenantId) {c : ℕ} {request : CompletionRequest} {a : Answer}
    (hc : g.flights[c]? = some (some request)) (hg' : Ended g c request a g') :
    Accounts g' tenantId := by
  obtain ⟨hreceived, hbilled, hsent⟩ := h
  have hin : g'.inFlight tenantId + (if request.tenantId = tenantId then 1 else 0) =
      g.inFlight tenantId := by
    have hset := countP_set_add (y := none)
      (fun flight : Option CompletionRequest => flight.any fun r => decide (r.tenantId = tenantId))
      hc
    simpa [inFlight, hg'.flights] using hset
  have hanswered : (g'.answers.countP fun x => x.1 = tenantId) =
      (g.answers.countP fun x => x.1 = tenantId) +
        if request.tenantId = tenantId then 1 else 0 := by
    simp [hg'.answers, List.countP_cons]
  have hsame : g'.sent tenantId = g.sent tenantId := by
    rw [Gateway.sent, hg'.upstream]
    rfl
  rcases hg'.metered with ⟨ha, hmetered⟩ | ⟨rfl, event, htenant, -, hmetered⟩
  · have hbilled' : g'.billed tenantId = g.billed tenantId := by
      rw [Gateway.billed, hmetered]
      rfl
    refine ⟨?_, ?_, ?_⟩
    · rw [hg'.received, hanswered]
      omega
    · rw [hbilled', hg'.answers, List.count_cons_of_ne (by simp [ha])]
      exact hbilled
    · omega
  · have hbilled' : g'.billed tenantId =
        g.billed tenantId + if request.tenantId = tenantId then 1 else 0 := by
      simp [Gateway.billed, hmetered, htenant, List.countP_cons]
    refine ⟨?_, ?_, ?_⟩
    · rw [hg'.received, hanswered]
      omega
    · rw [hbilled', hg'.answers, List.count_cons, hbilled]
      simp
    · omega

theorem accounts_nil (tenantId : String) :
    Accounts (completionMachine settings started).init tenantId where
  received := rfl
  billed := rfl
  sent := Nat.le_refl 0

theorem accounts_step {e : Event} (h : Accounts g tenantId) (hst : g.step e = some g') :
    Accounts g' tenantId := by
  rcases step_cases hst with ⟨request, now, -, rfl⟩ | ⟨c, request, call, a, hc, -, -, hended⟩
  · exact h.received_step (received_chatCompletion g request now)
  · exact h.ended hc hended

/-! ## The calls of the breakers -/

/-- The name of the breaker of a request. -/
def nameOf (settings : GatewaySettings) (request : CompletionRequest) : String :=
  breakerName (providerOf settings request) request.model

/-- What a request does to the breakers : at most that of its name changes, and a call of it is
numbered. -/
structure Numbered (g : Gateway settings) (request : CompletionRequest)
    (g' : Gateway settings) : Prop where
  others : ∀ n, n ≠ nameOf settings request →
    g'.breakers.breakers.get? n = g.breakers.breakers.get? n
  kept : nameOf settings request ∈ g.breakers.breakers →
    nameOf settings request ∈ g'.breakers.breakers
  calls : g'.breakers.calls = g.breakers.calls ∧ g'.flights = g.flights ∨
    (∃ p, g'.breakers.calls = g.breakers.calls ++ [.running (nameOf settings request) p]) ∧
      g'.flights = g.flights ++ [some request] ∧
      nameOf settings request ∈ g'.breakers.breakers ∨
    g'.breakers.calls = g.breakers.calls ++ [.finished] ∧ g'.flights = g.flights ++ [none]

theorem getBreaker_get? (m : CircuitBreakerManager) (name : String)
    (config : Option CircuitBreakerConfig) (n : String) :
    (m.getBreaker name config).2.get? n =
      if n = name then some (m.getBreaker name config).1 else m.get? n := by
  unfold CircuitBreakerManager.getBreaker
  cases hget : m.get? name with
  | none => exact Dict.get?_set _ _ _ _
  | some b =>
    split_ifs with hn
    · rw [hn, hget]
    · rfl

theorem get?_beginCall (s : GatewaySystem) (name : String) (config : Option CircuitBreakerConfig)
    (func : String) (now : ℚ) :
    ∃ b, ∀ n, (s.beginCall name config func now).breakers.get? n =
      if n = name then some b else s.breakers.get? n := by
  obtain ⟨_, b, -, hget, -⟩ := s.breakers_beginCall name config func now
  exact ⟨b, hget⟩

theorem numbered_chatCompletion (g : Gateway settings) (request : CompletionRequest) (now : ℚ) :
    Numbered g request (g.chatCompletion request now) := by
  obtain ⟨b, hget⟩ := get?_beginCall g.breakers (nameOf settings request)
    (some (breakerConfig settings)) "make_request" now
  have hmade := getBreaker_get? g.breakers.breakers (nameOf settings request)
    (some (breakerConfig settings))
  unfold chatCompletion dispatch
  dsimp only
  split_ifs with hallowed hazure hblocked hkey
  · refine ⟨fun n hn => (hmade n).trans (if_neg hn), fun _ => ?_, Or.inl ⟨rfl, rfl⟩⟩
    exact Dict.mem_of_get? ((hmade _).trans (if_pos rfl))
  · refine ⟨fun n hn => (hget n).trans (if_neg hn), fun _ => ?_, Or.inl ⟨?_, rfl⟩⟩
    · exact Dict.mem_of_get? ((hget _).trans (if_pos rfl))
    · exact if_neg fun hnone => by simp [hnone] at hblocked
  · have hnone := Option.not_isSome_iff_eq_none.mp hblocked
    have hmem : nameOf settings request ∈ (g.breakers.beginCall (nameOf settings request)
        (some (breakerConfig settings)) "make_request" now).breakers :=
      Dict.mem_of_get? ((hget _).trans (if_pos rfl))
    exact ⟨fun n hn => (hget n).trans (if_neg hn), fun _ => hmem,
      Or.inr (Or.inl ⟨⟨_, if_pos hnone⟩, rfl, hmem⟩)⟩
  · have hnone := Option.not_isSome_iff_eq_none.mp hblocked
    refine ⟨fun n hn => ?_, fun _ => ?_, Or.inr (Or.inr ⟨?_, rfl⟩)⟩
    · exact (Dict.get?_set_ne _ _ hn).trans ((hget n).trans (if_neg hn))
    · exact Dict.mem_set.mpr (Or.inl rfl)
    · have hcalls : (g.breakers.beginCall (nameOf settings request)
          (some (breakerConfig settings)) "make_request" now).calls =
            g.breakers.calls ++ [.running (nameOf settings request) _] := if_pos hnone
      refine (congrArg (·.set g.breakers.calls.length .finished) hcalls).trans ?_
      simp
  · exact ⟨fun _ _ => rfl, fun hmem => hmem, Or.inl ⟨rfl, rfl⟩⟩

/-- What the end of a call does to the breakers : at most that of its name changes. -/
structure Reported (s : GatewaySystem) (c : ℕ) (t : GatewaySystem) : Prop where
  others : ∀ n, (∀ p, s.calls[c]? ≠ some (.running n p)) → t.breakers.get? n = s.breakers.get? n
  kept : ∀ n, n ∈ s.breakers → n ∈ t.breakers
  calls : t.calls = s.calls.set c .finished

theorem reported_of_step {s t : GatewaySystem} {c : ℕ} {call : GatewayEvent}
    (h : s.step call = some t)
    (hcall : call = .succeed c ∨ (∃ now, call = .fail c now) ∨ call = .abort c) :
    Gateway.Reported s c t := by
  have hfinish : ∀ {name p b failure}, s.calls[c]? = some (.running name p) →
      Gateway.Reported s c (s.finish c name b failure) := by
    intro name p b failure hc
    refine ⟨fun n hn => Dict.get?_set_ne _ _ ?_, fun n hmem => Dict.mem_set.mpr (Or.inr hmem),
      rfl⟩
    rintro rfl
    exact hn p hc
  rcases GatewaySystem.step_cases h with ⟨name, config, func, now, rfl, -⟩ |
    ⟨c', name, p, b, rfl, hc, -, rfl⟩ | ⟨c', now, name, p, b, rfl, hc, -, rfl⟩ | ⟨c', rfl, rfl⟩
  · simp at hcall
  · obtain rfl : c' = c := by simpa using hcall
    exact hfinish hc
  · obtain rfl : c' = c := by simpa using hcall
    exact hfinish hc
  · obtain rfl : c' = c := by simpa using hcall
    exact ⟨fun _ _ => rfl, fun _ hmem => hmem, rfl⟩

/-- A request in flight runs in a call of its breaker. -/
structure Aligned (g : Gateway settings) : Prop where
  length : g.flights.length = g.breakers.calls.length
  running : ∀ (c : ℕ) request, g.flights[c]? = some (some request) →
    ∃ p, g.breakers.calls[c]? = some (.running (nameOf settings request) p)
  made : ∀ request, some request ∈ g.flights → nameOf settings request ∈ g.breakers.breakers

theorem Aligned.received (h : Aligned g) {request : CompletionRequest}
    (hg' : Numbered g request g') : Aligned g' := by
  have hkept : ∀ n, n ∈ g.breakers.breakers → n ∈ g'.breakers.breakers := by
    intro n hmem
    by_cases hn : n = nameOf settings request
    · exact hn ▸ hg'.kept (hn ▸ hmem)
    · rw [Dict.mem_iff_get?, hg'.others n hn]
      exact Dict.mem_iff_get?.mp hmem
  rcases hg'.calls with ⟨hcalls, hflights⟩ | ⟨⟨p, hcalls⟩, hflights, hmade⟩ | ⟨hcalls, hflights⟩
  · refine ⟨by rw [hflights, hcalls, h.length], fun c r hc => ?_, fun r hr => ?_⟩
    · rw [hflights] at hc
      rw [hcalls]
      exact h.running c r hc
    · rw [hflights] at hr
      exact hkept _ (h.made r hr)
  · refine ⟨by simp [hflights, hcalls, h.length], fun c r hc => ?_, fun r hr => ?_⟩
    · rw [hflights] at hc
      rw [hcalls]
      rcases getElem?_concat_cases hc with hc | ⟨rfl, heq⟩
      · obtain ⟨p', hp'⟩ := h.running c r hc
        exact ⟨p', (List.getElem?_append_left (List.getElem?_eq_some_iff.mp hp').1).trans hp'⟩
      · obtain rfl := Option.some.inj heq
        exact ⟨p, by rw [h.length, List.getElem?_concat_length]⟩
    · rw [hflights] at hr
      rcases List.mem_append.mp hr with hr | hr
      · exact hkept _ (h.made r hr)
      · obtain rfl := Option.some.inj (List.mem_singleton.mp hr)
        exact hmade
  · refine ⟨by simp [hflights, hcalls, h.length], fun c r hc => ?_, fun r hr => ?_⟩
    · rw [hflights] at hc
      rw [hcalls]
      rcases getElem?_concat_cases hc with hc | ⟨-, heq⟩
      · obtain ⟨p', hp'⟩ := h.running c r hc
        exact ⟨p', (List.getElem?_append_left (List.getElem?_eq_some_iff.mp hp').1).trans hp'⟩
      · cases heq
    · rw [hflights] at hr
      rcases List.mem_append.mp hr with hr | hr
      · exact hkept _ (h.made r hr)
      · cases List.mem_singleton.mp hr

theorem Aligned.ended (h : Aligned g) {c : ℕ} {request : CompletionRequest} {a : Answer}
    (hg' : Ended g c request a g') (hbreakers : Gateway.Reported g.breakers c g'.breakers) :
    Aligned g' := by
  refine ⟨?_, fun c' r hc' => ?_, fun r hr => ?_⟩
  · rw [hg'.flights, hbreakers.calls, List.length_set, List.length_set, h.length]
  · rw [hg'.flights] at hc'
    rcases getElem?_set_cases hc' with ⟨hne, hc'⟩ | ⟨-, heq⟩
    · obtain ⟨p, hp⟩ := h.running c' r hc'
      exact ⟨p, by rw [hbreakers.calls, List.getElem?_set_ne (Ne.symm hne), hp]⟩
    · cases heq
  · rw [hg'.flights] at hr
    rcases List.mem_or_eq_of_mem_set hr with hr | heq
    · exact hbreakers.kept _ (h.made r hr)
    · cases heq

theorem aligned_step {e : Event} (h : Aligned g) (hst : g.step e = some g') : Aligned g' := by
  rcases step_cases hst with ⟨request, now, -, rfl⟩ | ⟨c, request, call, a, -, hcall, hkind, hended⟩
  · exact h.received (numbered_chatCompletion g request now)
  · exact h.ended hended (reported_of_step hcall hkind)

theorem aligned_init : Aligned (completionMachine settings started).init where
  length := rfl
  running c request hc := by simp [completionMachine] at hc
  made request hr := by simp [completionMachine] at hr

/-- A request in flight can end in each of the ways a call ends. -/
theorem Aligned.isSome_step (h : Aligned g) {c : ℕ} {request : CompletionRequest}
    (hc : g.flights[c]? = some (some request)) (data : ProviderData) (newId : String) (now : ℚ) :
    (g.step (.body c data newId now)).isSome ∧ (g.step (.raised c now)).isSome ∧
      (g.step (.cancelled c)).isSome := by
  obtain ⟨p, hp⟩ := h.running c request hc
  obtain ⟨b, hb⟩ := Dict.mem_iff_get?.mp (h.made request (List.mem_of_getElem? hc))
  have hsucceed : (g.breakers.step (.succeed c)).isSome := by simp [GatewaySystem.step, hp, hb]
  have hfail : (g.breakers.step (.fail c now)).isSome := by simp [GatewaySystem.step, hp, hb]
  have habort : (g.breakers.step (.abort c)).isSome := by simp [GatewaySystem.step, hp]
  refine ⟨?_, by simpa [step, hc] using hfail, by simpa [step, hc] using habort⟩
  simp only [step, hc]
  split
  · simpa using hsucceed
  · simpa using hfail

end Gateway

/-- In every run every request was answered once or is in flight, what is billed is what was
completed, at most what was sent to the providers and is not in flight, and every request in
flight can end. -/
theorem accounts_of_run {ok : Gateway settings → Gateway.Event → Prop}
    (h : (completionMachine settings started).Run ok es g) :
    (∀ tenantId, g.Accounts tenantId) ∧
      ∀ (c : ℕ) request, g.flights[c]? = some (some request) → ∀ data newId now,
        (g.step (.body c data newId now)).isSome ∧ (g.step (.raised c now)).isSome ∧
          (g.step (.cancelled c)).isSome := by
  constructor
  · intro tenantId
    exact h.invariant (Gateway.accounts_nil tenantId) fun _ _ _ hs _ hst =>
      Gateway.accounts_step hs hst
  · have haligned : Gateway.Aligned g :=
      h.invariant Gateway.aligned_init fun _ _ _ hs _ hst => Gateway.aligned_step hs hst
    exact fun c request hc data newId now => haligned.isSome_step hc data newId now

/-- One request is completed, one raises, one is in flight, and one is billed. -/
theorem accounts_of_three : ∃ (es : List Gateway.Event)
    (g : Gateway { openaiApiKey := some "k" }),
    (completionMachine { openaiApiKey := some "k" } 0).Run (fun _ _ => True) es g ∧
    (g.billed "a" = 1 ∧ g.inFlight "a" = 1 ∧ g.sent "a" = 3) ∧ g.Accounts "a" := by
  obtain ⟨g, hrun, hp⟩ := Machine.exists_run
    (completionMachine { openaiApiKey := some "k" } 0) (fun _ _ => True)
    [.request { tenantId := "a", model := "gpt-4" } 0,
      .request { tenantId := "a", model := "gpt-4" } 1,
      .request { tenantId := "a", model := "gpt-4" } 1, .raised 1 2,
      .body 0 ⟨some "i", some "gpt-4", some 5, some 7, some 12, some "text", some "stop", some "0"⟩
        "j" 3]
    (fun g => decide (g.billed "a" = 1 ∧ g.inFlight "a" = 1 ∧ g.sent "a" = 3)) (by decide +kernel)
  exact ⟨_, g, hrun, of_decide_eq_true hp, (accounts_of_run hrun).1 "a"⟩

/-! ## A provider that is not supported -/

namespace Gateway

/-- `available` of `provider_status`. -/
def providerAvailable (g : Gateway settings) (provider : String) : Bool :=
  g.breakers.breakers.items.any fun p =>
    provider.toList.isPrefixOf p.1.toList && decide (p.2.state ≠ .opened)

/-- The name begins with the value of `Provider.AZURE_OPENAI`. -/
def isAzure (name : String) : Bool :=
  Provider.azureOpenai.value.toList.isPrefixOf name.toList

theorem isAzure_breakerName (p : Provider) (model : String) :
    isAzure (breakerName p model) = decide (p = .azureOpenai) := by
  cases p <;> simp [isAzure, breakerName, Provider.value, List.isPrefixOf]

/-- A request for `azure_openai` that the limiter lets through makes a breaker, and no other
request touches one. -/
theorem azure_chatCompletion (g : Gateway settings) (request : CompletionRequest) (now : ℚ) :
    (isAzure (nameOf settings request) = true ∧
      (g.chatCompletion request now).answers = (request.tenantId, .valueError) :: g.answers ∧
      ∀ n, (g.chatCompletion request now).breakers.breakers.get? n =
        if n = nameOf settings request then
          some (g.breakers.breakers.getBreaker (nameOf settings request)
            (some (breakerConfig settings))).1
        else g.breakers.breakers.get? n) ∨
    ((∀ t, (t, .valueError) ∈ (g.chatCompletion request now).answers ↔
        (t, .valueError) ∈ g.answers) ∧
      ∀ n, isAzure n = true → (g.chatCompletion request now).breakers.breakers.get? n =
        g.breakers.breakers.get? n) := by
  have hothers := (numbered_chatCompletion g request now).others
  have hmade := getBreaker_get? g.breakers.breakers (nameOf settings request)
    (some (breakerConfig settings))
  by_cases hazure : providerOf settings request = .azureOpenai
  · have hname : isAzure (nameOf settings request) = true := by
      rw [nameOf, isAzure_breakerName, hazure]
      rfl
    unfold chatCompletion dispatch
    dsimp only
    rw [if_pos hazure]
    split_ifs with hallowed
    · exact Or.inl ⟨hname, rfl, hmade⟩
    · exact Or.inr ⟨fun t => by simp [answer], fun _ _ => rfl⟩
  · have hname : isAzure (nameOf settings request) = false := by
      rw [nameOf, isAzure_breakerName]
      exact decide_eq_false hazure
    refine Or.inr ⟨fun t => ?_, fun n hn => hothers n fun heq => ?_⟩
    · unfold chatCompletion dispatch
      dsimp only
      rw [if_neg hazure]
      split_ifs <;> simp [answer]
    · rw [heq, hname] at hn
      cases hn

/-- No request for `azure_openai` is sent to a provider, and its breakers are as they were
made. -/
structure AzureIdle (g : Gateway settings) : Prop where
  flights : ∀ request, some request ∈ g.flights → providerOf settings request ≠ .azureOpenai
  upstream : ∀ x ∈ g.upstream, providerOf settings x.1 ≠ .azureOpenai
  metered : ∀ event ∈ g.metered, event.provider ≠ .azureOpenai
  closed : ∀ n b, isAzure n = true → g.breakers.breakers.get? n = some b →
    b.state = .closed ∧ ∃ t, (t, .valueError) ∈ g.answers
  made : ∀ t, (t, .valueError) ∈ g.answers → ∃ n, isAzure n = true ∧ n ∈ g.breakers.breakers

theorem AzureIdle.received (h : AzureIdle g) (request : CompletionRequest) (now : ℚ) :
    AzureIdle (g.chatCompletion request now) := by
  have hreceived := received_chatCompletion g request now
  have hmetered : ∀ event ∈ (g.chatCompletion request now).metered,
      event.provider ≠ .azureOpenai := by
    rw [hreceived.metered]
    exact h.metered
  have hsent : (∀ r, some r ∈ (g.chatCompletion request now).flights →
        providerOf settings r ≠ .azureOpenai) ∧
      ∀ x ∈ (g.chatCompletion request now).upstream, providerOf settings x.1 ≠ .azureOpenai := by
    rcases hreceived.sent with ⟨-, hprovider, hupstream, hflights, -⟩ | ⟨hupstream, hflights, -⟩
    · rw [hupstream, hflights]
      refine ⟨fun r hr => ?_, List.forall_mem_cons.mpr ⟨hprovider, h.upstream⟩⟩
      rcases List.mem_append.mp hr with hr | hr
      · exact h.flights r hr
      · obtain rfl := Option.some.inj (List.mem_singleton.mp hr)
        exact hprovider
    · rw [hupstream]
      refine ⟨fun r hr => h.flights r ?_, h.upstream⟩
      rcases hflights with hflights | hflights
      · rwa [hflights] at hr
      · simpa [hflights] using hr
  rcases azure_chatCompletion g request now with ⟨hname, hanswers, hget⟩ | ⟨hanswers, hget⟩
  · refine ⟨hsent.1, hsent.2, hmetered, fun n b hn hb => ?_, fun t _ => ?_⟩
    · refine ⟨?_, request.tenantId, by rw [hanswers]; exact List.mem_cons_self⟩
      rw [hget] at hb
      split_ifs at hb with heq
      · obtain rfl := Option.some.inj hb
        unfold CircuitBreakerManager.getBreaker
        split
        · next b hold => exact (h.closed _ b hname hold).1
        · rfl
      · exact (h.closed n b hn hb).1
    · exact ⟨_, hname, Dict.mem_of_get? ((hget _).trans (if_pos rfl))⟩
  · refine ⟨hsent.1, hsent.2, hmetered, fun n b hn hb => ?_, fun t ht => ?_⟩
    · rw [hget n hn] at hb
      obtain ⟨hclosed, t, ht⟩ := h.closed n b hn hb
      exact ⟨hclosed, t, (hanswers t).mpr ht⟩
    · obtain ⟨n, hn, hmem⟩ := h.made t ((hanswers t).mp ht)
      refine ⟨n, hn, Dict.mem_iff_get?.mpr ?_⟩
      rw [hget n hn]
      exact Dict.mem_iff_get?.mp hmem

theorem AzureIdle.ended (h : AzureIdle g) (haligned : Aligned g) {c : ℕ}
    {request : CompletionRequest} {a : Answer} (hc : g.flights[c]? = some (some request))
    (hg' : Ended g c request a g') (hbreakers : Gateway.Reported g.breakers c g'.breakers) :
    AzureIdle g' := by
  have hanswers : ∀ t, (t, .valueError) ∈ g'.answers ↔ (t, .valueError) ∈ g.answers := by
    intro t
    have hne : (t, Answer.valueError) ≠ (request.tenantId, a) :=
      fun heq => hg'.caught (Prod.mk.inj heq).2.symm
    rw [hg'.answers, List.mem_cons, or_iff_right hne]
  have hget : ∀ n, isAzure n = true →
      g'.breakers.breakers.get? n = g.breakers.breakers.get? n := by
    refine fun n hn => hbreakers.others n fun p hp => ?_
    obtain ⟨p', hp'⟩ := haligned.running c request hc
    obtain ⟨rfl, -⟩ := GatewayCall.running.inj (Option.some.inj (hp.symm.trans hp'))
    rw [nameOf, isAzure_breakerName] at hn
    exact h.flights request (List.mem_of_getElem? hc) (of_decide_eq_true hn)
  refine ⟨fun r hr => ?_, ?_, ?_, fun n b hn hb => ?_, fun t ht => ?_⟩
  · rw [hg'.flights] at hr
    rcases List.mem_or_eq_of_mem_set hr with hr | heq
    · exact h.flights r hr
    · cases heq
  · rw [hg'.upstream]
    exact h.upstream
  · rcases hg'.metered with ⟨-, hmetered⟩ | ⟨-, event, -, hprovider, hmetered⟩
    · rw [hmetered]
      exact h.metered
    · rw [hmetered]
      exact List.forall_mem_cons.mpr ⟨hprovider, h.metered⟩
  · rw [hget n hn] at hb
    obtain ⟨hclosed, t, ht⟩ := h.closed n b hn hb
    exact ⟨hclosed, t, (hanswers t).mpr ht⟩
  · obtain ⟨n, hn, hmem⟩ := h.made t ((hanswers t).mp ht)
    exact ⟨n, hn, hbreakers.kept n hmem⟩

theorem azureIdle_init : AzureIdle (completionMachine settings started).init where
  flights request hr := by simp [completionMachine] at hr
  upstream := List.forall_mem_nil _
  metered := List.forall_mem_nil _
  closed n b _ hb := by simp [completionMachine] at hb
  made t ht := by simp [completionMachine] at ht

theorem azureIdle_step {e : Event} (h : Aligned g ∧ AzureIdle g) (hst : g.step e = some g') :
    Aligned g' ∧ AzureIdle g' := by
  refine ⟨aligned_step h.1 hst, ?_⟩
  rcases step_cases hst with ⟨request, now, -, rfl⟩ |
      ⟨c, request, call, a, hc, hcall, hkind, hended⟩
  · exact h.2.received request now
  · exact h.2.ended h.1 hc hended (reported_of_step hcall hkind)

end Gateway

/-- In every run no request for `azure_openai` is sent or billed, and `provider_status` has it
available exactly if one of them failed. -/
theorem azure_of_run {ok : Gateway settings → Gateway.Event → Prop}
    (h : (completionMachine settings started).Run ok es g) :
    (∀ x ∈ g.upstream, Gateway.providerOf settings x.1 ≠ .azureOpenai) ∧
      (∀ event ∈ g.metered, event.provider ≠ .azureOpenai) ∧
      (g.providerAvailable "azure_openai" = true ↔ ∃ t, (t, .valueError) ∈ g.answers) := by
  have hidle : Gateway.Aligned g ∧ Gateway.AzureIdle g :=
    h.invariant ⟨Gateway.aligned_init, Gateway.azureIdle_init⟩ fun _ _ _ hs _ hst =>
      Gateway.azureIdle_step hs hst
  refine ⟨hidle.2.upstream, hidle.2.metered, ?_⟩
  unfold Gateway.providerAvailable
  rw [List.any_eq_true]
  constructor
  · rintro ⟨⟨n, b⟩, hmem, hboth⟩
    exact (hidle.2.closed n b (Bool.and_eq_true_iff.mp hboth).1 (Dict.mem_items.mp hmem)).2
  · rintro ⟨t, ht⟩
    obtain ⟨n, hn, hmem⟩ := hidle.2.made t ht
    obtain ⟨b, hb⟩ := Dict.mem_iff_get?.mp hmem
    obtain ⟨hclosed, -⟩ := hidle.2.closed n b hn hb
    refine ⟨(n, b), Dict.mem_items.mpr hb, Bool.and_eq_true_iff.mpr ⟨hn, ?_⟩⟩
    simp [hclosed]

/-- A request for `azure_openai` fails, and the provider is available. -/
theorem azure_of_failure : ∃ (es : List Gateway.Event) (g : Gateway {}),
    (completionMachine {} 0).Run (fun _ _ => True) es g ∧
    g.answers = [("a", .valueError)] ∧
    (g.providerAvailable "azure_openai" = true ↔ ∃ t, (t, .valueError) ∈ g.answers) := by
  obtain ⟨g, hrun, hp⟩ := Machine.exists_run (completionMachine {} 0) (fun _ _ => True)
    [.request { tenantId := "a", model := "gpt-4", provider := some .azureOpenai } 0]
    (fun g => decide (g.answers = [("a", Answer.valueError)])) (by decide +kernel)
  exact ⟨_, g, hrun, of_decide_eq_true hp, (azure_of_run hrun).2.2⟩

end ModelGateway

end MultiAgent
