import MultiAgent.Clients.CancellationOutcome

/-!
# Cancelling a request by its id

`cancel_request_by_id` of `libs/clients/http/coordinated_cancellation.py`, interleaved with
everything else that happens to the manager. Its helper awaits nothing, so a call is one step.

It looks for a cancellation of the request first, whatever its status is, and no cancellation is
ever removed. So a request that was cancelled once is never cancelled again : every later call
names the cancellation that the first one named (`answers_of_run`), and as long as nobody calls
`initiate_cancellation` directly no request has two cancellations (`oneEach_of_run`).
-/

namespace MultiAgent

namespace CoordinatedCancellation

/-- `_determine_services_to_cancel`. -/
def determineServicesToCancel : List String :=
  ["api_gateway", "router-service", "llm_service", "vector_service", "billing_service"]

/-- The request and the tenant of a cancellation. -/
def Cancellation.key (c : Cancellation) : String × String :=
  (c.request.requestId, c.request.tenantId)

namespace CancellationManager

variable (m : CancellationManager)

/-- `cancel_request_by_id`. -/
def cancelRequestById (requestId tenantId : String) (reason : CancellationReason)
    (initiatedBy : String) : CancellationManager × Option ℕ :=
  match m.activeCancellations.findIdx? fun c =>
      c.request.requestId = requestId ∧ c.request.tenantId = tenantId with
  | some k => (m, some k)
  | none =>
    let servicesToCancel := determineServicesToCancel
    if servicesToCancel = [] then (m, none)
    else
      (m.initiateCancellation requestId tenantId reason initiatedBy servicesToCancel,
        some m.activeCancellations.length)

/-- The requests with a cancellation, by the number of the cancellation. -/
def keys : List (String × String) :=
  m.activeCancellations.map Cancellation.key

end CancellationManager

/-- A call of `cancel_request_by_id`, or another step. -/
inductive RequestEvent
  | cancelRequestById (requestId tenantId : String) (reason : CancellationReason)
      (initiatedBy : String)
  | other (e : CancellationEvent)

/-- The manager, and what the calls of `cancel_request_by_id` returned, newest first. -/
structure RequestState where
  manager : CancellationManager := {}
  answers : List ((String × String) × Option ℕ) := []

/-- The manager with its calls by request id. -/
def requestMachine : Machine RequestState RequestEvent where
  init := {}
  step s
    | .cancelRequestById requestId tenantId reason initiatedBy =>
      let (manager, answer) := s.manager.cancelRequestById requestId tenantId reason initiatedBy
      some ⟨manager, ((requestId, tenantId), answer) :: s.answers⟩
    | .other e => (s.manager.step e).map fun manager => { s with manager }

/-! ## The keys -/

theorem foldl_processResult_same (request : CancellationRequest)
    (results : List (String × Except String Bool)) :
    (results.foldl CancellationRequest.processResult request).requestId = request.requestId ∧
      (results.foldl CancellationRequest.processResult request).tenantId = request.tenantId := by
  induction results generalizing request with
  | nil => exact ⟨rfl, rfl⟩
  | cons result results ih =>
    rw [List.foldl_cons]
    obtain ⟨hrequest, htenant⟩ := ih (request.processResult result)
    rw [hrequest, htenant]
    unfold CancellationRequest.processResult
    split
    · exact ⟨rfl, rfl⟩
    · exact ⟨rfl, rfl⟩

theorem Cancellation.key_returnExecution (c : Cancellation) (j : ℕ) (calls : List ServiceCall)
    (results : List (Except String Bool)) : (c.returnExecution j calls results).key = c.key := by
  obtain ⟨hrequest, htenant⟩ := foldl_processResult_same c.request
    (c.request.servicesToCancel.zip results)
  exact Prod.ext hrequest htenant

/-- A cancellation is about the same request all the time. -/
theorem Advance.key_eq {k : ℕ} {c c' : Cancellation} {e : CancellationEvent}
    (h : Advance k c e c') : c'.key = c.key := by
  cases h with
  | idle => rfl
  | restart _ hpending =>
    rw [Cancellation.restart, if_pos hpending]
    rfl
  | begin hbegin =>
    unfold Cancellation.beginExecution at hbegin
    split at hbegin
    · split_ifs at hbegin
      · obtain rfl := Option.some.inj hbegin
        exact Cancellation.key_returnExecution _ _ _ _
      · obtain rfl := Option.some.inj hbegin
        rfl
    · cases hbegin
  | send => rfl
  | answer => rfl
  | finish hfinish =>
    obtain ⟨calls, -, hfinish⟩ := Option.bind_eq_some_iff.mp hfinish
    obtain ⟨results, -, hfinish⟩ := Option.bind_eq_some_iff.mp hfinish
    obtain rfl := Option.some.inj hfinish
    rw [Cancellation.key_returnExecution]

namespace CancellationManager

variable {m m' : CancellationManager}

/-- A step that does not initiate a cancellation adds none. -/
theorem length_step {e : CancellationEvent} (h : m.step e = some m')
    (he : ∀ requestId tenantId reason initiatedBy services,
      e ≠ .initiate requestId tenantId reason initiatedBy services) :
    m'.activeCancellations.length = m.activeCancellations.length := by
  cases e with
  | initiate => exact absurd rfl (he _ _ _ _ _)
  | cancelAll tenantId reason initiatedBy =>
    obtain rfl := Option.some.inj h
    exact List.length_map _
  | beginExecution k j =>
    obtain ⟨c, -, h⟩ := Option.bind_eq_some_iff.mp h
    obtain ⟨c', -, h⟩ := Option.bind_eq_some_iff.mp h
    obtain rfl := Option.some.inj h
    rw [activeCancellations_countExecution]
    exact List.length_set
  | sendSignal k j i =>
    obtain ⟨c, -, h⟩ := Option.bind_eq_some_iff.mp h
    obtain ⟨calls, -, h⟩ := Option.bind_eq_some_iff.mp h
    split at h
    · obtain rfl := Option.some.inj h
      exact List.length_set
    · cases h
  | answerSignal k j i signal =>
    obtain ⟨c, -, h⟩ := Option.bind_eq_some_iff.mp h
    obtain ⟨calls, -, h⟩ := Option.bind_eq_some_iff.mp h
    split at h
    · obtain rfl := Option.some.inj h
      exact List.length_set
    · cases h
  | finishExecution k j =>
    obtain ⟨c, -, h⟩ := Option.bind_eq_some_iff.mp h
    obtain ⟨c', -, h⟩ := Option.bind_eq_some_iff.mp h
    obtain rfl := Option.some.inj h
    rw [activeCancellations_countExecution]
    exact List.length_set

/-- A cancellation that is initiated is put behind the others. -/
theorem keys_initiateCancellation (requestId tenantId : String) (reason : CancellationReason)
    (initiatedBy : String) (services : List String) :
    (m.initiateCancellation requestId tenantId reason initiatedBy services).keys =
      m.keys ++ [(requestId, tenantId)] := by
  simp [keys, initiateCancellation, Cancellation.initiated, Cancellation.key]

/-- A step that does not initiate a cancellation leaves the keys. -/
theorem keys_step {e : CancellationEvent} (h : m.step e = some m')
    (he : ∀ requestId tenantId reason initiatedBy services,
      e ≠ .initiate requestId tenantId reason initiatedBy services) : m'.keys = m.keys := by
  have hlength := length_step h he
  rcases step_cases h with ⟨_, _, _, _, _, hadd, -⟩ | ⟨-, hadvance⟩
  · rw [hadd, List.length_append, List.length_singleton] at hlength
    omega
  · refine List.ext_getElem (by simp [keys, hlength]) fun k hk hk' => ?_
    simp only [keys, List.getElem_map]
    exact (hadvance k _ _ (List.getElem?_eq_getElem _) (List.getElem?_eq_getElem _)).key_eq

/-- The keys only grow, at their end. -/
theorem keys_prefix_step {e : CancellationEvent} (h : m.step e = some m') :
    m.keys <+: m'.keys := by
  by_cases he : ∀ requestId tenantId reason initiatedBy services,
      e ≠ .initiate requestId tenantId reason initiatedBy services
  · exact (keys_step h he).symm ▸ List.prefix_refl _
  · push Not at he
    obtain ⟨requestId, tenantId, reason, initiatedBy, services, rfl⟩ := he
    obtain rfl := Option.some.inj h
    exact ⟨_, (keys_initiateCancellation _ _ _ _ _).symm⟩

/-- The number of the first cancellation of a request. -/
def firstOf (key : String × String) : Option ℕ :=
  m.keys.findIdx? (· = key)

/-- The first cancellation of a request stays the first one. -/
theorem firstOf_of_prefix {key : String × String} {k : ℕ} (h : m.firstOf key = some k)
    (hkeys : m.keys <+: m'.keys) : m'.firstOf key = some k := by
  obtain ⟨added, hadded⟩ := hkeys
  unfold firstOf at h ⊢
  rw [← hadded, List.findIdx?_append, h]
  rfl

/-- A call names the first cancellation of its request, and adds it if there is none. -/
theorem cancelRequestById_cases (requestId tenantId : String) (reason : CancellationReason)
    (initiatedBy : String) {answer : Option ℕ}
    (h : m.cancelRequestById requestId tenantId reason initiatedBy = (m', answer)) :
    m'.firstOf (requestId, tenantId) = answer ∧ answer.isSome ∧
      (m'.keys = m.keys ∧ (requestId, tenantId) ∈ m.keys ∨
        m'.keys = m.keys ++ [(requestId, tenantId)] ∧ (requestId, tenantId) ∉ m.keys) := by
  have hfind : (m.activeCancellations.findIdx? fun c =>
      c.request.requestId = requestId ∧ c.request.tenantId = tenantId) =
        m.firstOf (requestId, tenantId) := by
    simp [firstOf, keys, List.findIdx?_map, Function.comp_def, Cancellation.key]
  unfold cancelRequestById at h
  rw [hfind] at h
  cases hfirst : m.firstOf (requestId, tenantId) with
  | some k =>
    rw [hfirst] at h
    obtain ⟨rfl, rfl⟩ := Prod.mk.inj h
    refine ⟨hfirst, rfl, Or.inl ⟨rfl, ?_⟩⟩
    obtain ⟨hlt, hkey, -⟩ := List.findIdx?_eq_some_iff_getElem.mp hfirst
    exact of_decide_eq_true hkey ▸ List.getElem_mem hlt
  | none =>
    rw [hfirst] at h
    obtain ⟨rfl, rfl⟩ := Prod.mk.inj h
    have hmem : (requestId, tenantId) ∉ m.keys := by
      intro hmem
      have hall := List.findIdx?_eq_none_iff.mp hfirst _ hmem
      simp at hall
    refine ⟨?_, rfl, Or.inr ⟨keys_initiateCancellation _ _ _ _ _, hmem⟩⟩
    unfold firstOf at hfirst ⊢
    rw [keys_initiateCancellation, List.findIdx?_append, hfirst]
    simp [keys]

end CancellationManager

/-! ## The answers -/

variable {s s' : RequestState} {es : List RequestEvent}

/-- Every answer names the first cancellation of its request. -/
def Named (s : RequestState) : Prop :=
  ∀ key answer, (key, answer) ∈ s.answers → answer.isSome ∧ s.manager.firstOf key = answer

theorem Named.step (hs : Named s) {e : RequestEvent} (h : requestMachine.step s e = some s') :
    Named s' := by
  have hold : s.manager.keys <+: s'.manager.keys → ∀ key answer, (key, answer) ∈ s.answers →
      answer.isSome ∧ s'.manager.firstOf key = answer := by
    intro hkeys key answer hmem
    obtain ⟨hsome, hfirst⟩ := hs key answer hmem
    obtain ⟨k, rfl⟩ := Option.isSome_iff_exists.mp hsome
    exact ⟨hsome, CancellationManager.firstOf_of_prefix hfirst hkeys⟩
  cases e with
  | cancelRequestById requestId tenantId reason initiatedBy =>
    obtain rfl := Option.some.inj h
    obtain ⟨hfirst, hsome, hkeys⟩ :=
      s.manager.cancelRequestById_cases requestId tenantId reason initiatedBy rfl
    intro key answer hmem
    rcases List.mem_cons.mp hmem with heq | hmem
    · obtain ⟨rfl, rfl⟩ := Prod.mk.inj heq
      exact ⟨hsome, hfirst⟩
    · refine hold ?_ key answer hmem
      rcases hkeys with ⟨hsame, -⟩ | ⟨hadd, -⟩
      · exact hsame.symm ▸ List.prefix_refl _
      · exact ⟨_, hadd.symm⟩
  | other e =>
    obtain ⟨manager, hst, rfl⟩ := Option.map_eq_some_iff.mp h
    exact hold (CancellationManager.keys_prefix_step hst)

theorem named_run (h : requestMachine.Run (fun _ _ => True) es s) : Named s :=
  h.invariant (fun _ _ hmem => absurd hmem List.not_mem_nil) fun _ _ _ hs _ hst => hs.step hst

/-- All calls for one request, at any time and whatever became of its cancellation, return the
same id : the one of the first cancellation of the request. -/
theorem answers_of_run (h : requestMachine.Run (fun _ _ => True) es s) {key : String × String}
    {answer answer' : Option ℕ} (hanswer : (key, answer) ∈ s.answers)
    (hanswer' : (key, answer') ∈ s.answers) :
    answer = answer' ∧ ∃ k c, answer = some k ∧ s.manager.activeCancellations[k]? = some c ∧
      c.key = key ∧ ∀ i < k, ∀ c', s.manager.activeCancellations[i]? = some c' → c'.key ≠ key := by
  obtain ⟨hsome, hfirst⟩ := named_run h key answer hanswer
  obtain ⟨-, hfirst'⟩ := named_run h key answer' hanswer'
  obtain ⟨k, rfl⟩ := Option.isSome_iff_exists.mp hsome
  obtain ⟨hlt, hkey, hbefore⟩ := List.findIdx?_eq_some_iff_getElem.mp hfirst
  have hlt' : k < s.manager.activeCancellations.length := by
    simpa [CancellationManager.keys] using hlt
  refine ⟨hfirst.symm.trans hfirst', k, s.manager.activeCancellations[k], rfl,
    List.getElem?_eq_getElem hlt', ?_, fun i hi c' hc' => ?_⟩
  · simpa [CancellationManager.keys] using hkey
  · obtain ⟨hi', rfl⟩ := List.getElem?_eq_some_iff.mp hc'
    simpa [CancellationManager.keys] using hbefore i hi

/-- A request is cancelled after a direct call for it, again after its cancellation began and
again by somebody else : the calls name the cancellation of the direct call. -/
theorem answers_of_repeat : ∃ (es : List RequestEvent) (s : RequestState),
    requestMachine.Run (fun _ _ => True) es s ∧
    s.answers = [(("r", "t"), some 0), (("r", "u"), some 1), (("r", "t"), some 0)] ∧
    ∃ k c, some 0 = some k ∧ s.manager.activeCancellations[k]? = some c ∧ c.key = ("r", "t") ∧
      ∀ i < k, ∀ c', s.manager.activeCancellations[i]? = some c' → c'.key ≠ ("r", "t") := by
  obtain ⟨s, hrun, hp⟩ := Machine.exists_run requestMachine (fun _ _ => True)
    [.other (.initiate "r" "t" .timeout "a" []), .cancelRequestById "r" "t" .error "b",
      .cancelRequestById "r" "u" .error "b", .other (.beginExecution 0 0),
      .cancelRequestById "r" "t" .userRequested "c"]
    (fun s => decide (s.answers =
      [(("r", "t"), some 0), (("r", "u"), some 1), (("r", "t"), some 0)])) (by decide)
  have hanswers := of_decide_eq_true hp
  have hmem : (("r", "t"), some 0) ∈ s.answers := hanswers ▸ List.mem_cons_self
  exact ⟨_, s, hrun, hanswers, (answers_of_run hrun hmem hmem).2⟩

/-! ## One cancellation a request -/

/-- A call of `initiate_cancellation` that `cancel_request_by_id` does not make. -/
def RequestEvent.isDirect : RequestEvent → Bool
  | .other (.initiate _ _ _ _ _) => true
  | _ => false

/-- Nobody calls `initiate_cancellation` but `cancel_request_by_id`. -/
def ById (_ : RequestState) (e : RequestEvent) : Prop :=
  e.isDirect = false

instance (s : RequestState) (e : RequestEvent) : Decidable (ById s e) :=
  inferInstanceAs (Decidable (e.isDirect = false))

/-- The requests with a cancellation are the ones `cancel_request_by_id` was called for, each
with one cancellation. -/
structure OneEach (s : RequestState) : Prop where
  nodup : s.manager.keys.Nodup
  called : ∀ key, key ∈ s.manager.keys ↔ ∃ answer, (key, answer) ∈ s.answers

theorem OneEach.step (hs : OneEach s) {e : RequestEvent} (he : ById s e)
    (h : requestMachine.step s e = some s') : OneEach s' := by
  cases e with
  | cancelRequestById requestId tenantId reason initiatedBy =>
    obtain rfl := Option.some.inj h
    obtain ⟨-, -, hkeys⟩ :=
      s.manager.cancelRequestById_cases requestId tenantId reason initiatedBy rfl
    rcases hkeys with ⟨hsame, hmem⟩ | ⟨hadd, hmem⟩
    · refine ⟨hsame ▸ hs.nodup, fun key => ?_⟩
      rw [hsame, hs.called]
      constructor
      · rintro ⟨answer, hanswer⟩
        exact ⟨answer, List.mem_cons_of_mem _ hanswer⟩
      · rintro ⟨answer, hanswer⟩
        rcases List.mem_cons.mp hanswer with heq | hanswer
        · obtain ⟨rfl, -⟩ := Prod.mk.inj heq
          exact (hs.called _).1 hmem
        · exact ⟨answer, hanswer⟩
    · refine ⟨hadd ▸ hs.nodup.append (List.nodup_singleton _) (by simpa using hmem),
        fun key => ?_⟩
      rw [hadd, List.mem_append, hs.called, List.mem_singleton]
      constructor
      · rintro (⟨answer, hanswer⟩ | rfl)
        · exact ⟨answer, List.mem_cons_of_mem _ hanswer⟩
        · exact ⟨_, List.mem_cons_self⟩
      · rintro ⟨answer, hanswer⟩
        rcases List.mem_cons.mp hanswer with heq | hanswer
        · exact Or.inr (Prod.mk.inj heq).1
        · exact Or.inl ⟨answer, hanswer⟩
  | other e =>
    obtain ⟨manager, hst, rfl⟩ := Option.map_eq_some_iff.mp h
    have hkeys : manager.keys = s.manager.keys := by
      refine CancellationManager.keys_step hst fun _ _ _ _ _ heq => ?_
      rw [heq] at he
      cases he
    exact ⟨hkeys ▸ hs.nodup, fun key => hkeys ▸ hs.called key⟩

/-- While `initiate_cancellation` is called by `cancel_request_by_id` only, each request it was
called for has one cancellation, and no other request has one. -/
theorem oneEach_of_run (h : requestMachine.Run ById es s) : OneEach s :=
  h.invariant ⟨List.nodup_nil, by simp [requestMachine, CancellationManager.keys]⟩
    fun _ _ _ hs he hst => hs.step he hst

/-- Three calls for two requests while a tenant is cancelled : two cancellations. -/
theorem oneEach_of_calls : ∃ (es : List RequestEvent) (s : RequestState),
    requestMachine.Run ById es s ∧ s.answers.length = 3 ∧
      s.manager.keys = [("r", "t"), ("q", "t")] ∧ OneEach s := by
  obtain ⟨s, hrun, hp⟩ := Machine.exists_run requestMachine ById
    [.cancelRequestById "r" "t" .error "a", .other (.cancelAll "t" .timeout "b"),
      .cancelRequestById "q" "t" .error "a", .cancelRequestById "r" "t" .error "c"]
    (fun s => decide (s.answers.length = 3 ∧ s.manager.keys = [("r", "t"), ("q", "t")]))
    (by decide)
  obtain ⟨hlength, hkeys⟩ := of_decide_eq_true hp
  exact ⟨_, s, hrun, hlength, hkeys, oneEach_of_run hrun⟩

end CoordinatedCancellation

end MultiAgent
