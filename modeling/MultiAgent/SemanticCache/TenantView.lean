import MultiAgent.SemanticCache.TenantIsolation

/-!
# The part of Redis that a tenant has

A tenant that shares no Redis key with another has a cache of its own (`TenantCache`) : its
part of Redis is that cache, with the keys and values in the form in which Redis has them
(`Shows`). Its own commands do there what they do to the cache (`Shows.store`, `Shows.delete`,
`Shows.retrieveStep`) and the commands of other tenants do nothing (`Shows.congr`). So in every
run what is in Redis shows a cache of the tenant, which takes the tenant's own steps
(`CacheService.Refines.step`).
-/

namespace MultiAgent

namespace SemanticCache

variable {α μ : Type*}

/-- A value with its deadline, in the form in which Redis has it. -/
def encode {ν : Type*} (f : ν → RedisValue α μ) (x : Option (Timed ν)) :
    Option (Timed (RedisValue α μ)) :=
  x.map fun x => ⟨f x.value, x.deadline⟩

theorem at?_encode {ν : Type*} (f : ν → RedisValue α μ) (now : ℤ) (x : Option (Timed ν)) :
    Timed.at? now (encode f x) = (Timed.at? now x).map f := by
  cases x with
  | none => rfl
  | some x =>
    by_cases hx : now ≤ x.deadline
    · simp [encode, Timed.at?, Option.filter, hx]
    · simp [encode, Timed.at?, Option.filter, hx]

/-- The part of Redis that is the tenant's is this cache. -/
structure Shows (tenantId : String) (r : Redis α μ) (c : TenantCache α μ) : Prop where
  now : r.now = c.now
  entries (key : String) : r.keyspace.get? (cacheKey tenantId key) =
    encode (.entry tenantId) (c.entries.get? key)
  embeddings (key : String) : r.keyspace.get? (embeddingKey tenantId key) =
    encode .embedding (c.embeddings.get? key)
  keys : r.keyspace.get? (tenantKeysKey tenantId) = encode .members c.keys

namespace Shows

variable {b : String} {r r' : Redis α μ} {c : TenantCache α μ}

/-- What others do to their keys does not show. -/
theorem congr (h : Shows b r c) (hr : r'.SameOn (Owns b) r) : Shows b r' c where
  now := hr.now.trans h.now
  entries key := (hr.keys _ (.cache key)).trans (h.entries key)
  embeddings key := (hr.keys _ (.embedding key)).trans (h.embeddings key)
  keys := (hr.keys _ .tenantKeys).trans h.keys

/-! ## Reading -/

theorem entryAt (h : Shows b r c) (key : String) :
    r.entryAt (cacheKey b key) = (c.entryOf key).map fun entry => (b, entry) := by
  unfold Redis.entryAt TenantCache.entryOf Expiry.getAt
  rw [h.entries, h.now, at?_encode]
  cases Timed.at? c.now (c.entries.get? key) <;> rfl

theorem embeddingAt (h : Shows b r c) (key : String) :
    r.embeddingAt (embeddingKey b key) = c.embeddingOf key := by
  unfold Redis.embeddingAt TenantCache.embeddingOf Expiry.getAt
  rw [h.embeddings, h.now, at?_encode]
  cases Timed.at? c.now (c.embeddings.get? key) <;> rfl

theorem setAt (h : Shows b r c) : r.setAt (tenantKeysKey b) = c.keys := by
  unfold Redis.setAt
  rw [h.keys]
  cases c.keys <;> rfl

theorem smembers (h : Shows b r c) : r.smembers (tenantKeysKey b) = c.members := by
  unfold Redis.smembers TenantCache.members
  rw [h.setAt, h.now]

theorem ttlAt (h : Shows b r c) (key : String) :
    Expiry.ttlAt r.now r.keyspace (cacheKey b key) = Expiry.ttlAt c.now c.entries key := by
  unfold Expiry.ttlAt
  rw [h.entries, h.now]
  cases c.entries.get? key <;> rfl

/-! ## Writing -/

theorem putEntry (h : Shows b r c) (key : String) (x : Option (Timed (CacheEntry α μ))) :
    Shows b (r.put (cacheKey b key) (encode (.entry b) x))
      { c with entries := c.entries.put key x } where
  now := h.now
  entries key' := by
    rw [Redis.put, Dict.get?_put, Dict.get?_put, h.entries]
    simp only [cacheKey_inj]
    split_ifs <;> rfl
  embeddings key' := by
    rw [Redis.put, Dict.get?_put, if_neg (cacheKey_ne_embeddingKey _ _ _ _).symm, h.embeddings]
  keys := by
    rw [Redis.put, Dict.get?_put, if_neg (cacheKey_ne_tenantKeysKey _ _ _).symm, h.keys]

theorem putEmbedding (h : Shows b r c) (key : String) (x : Option (Timed α)) :
    Shows b (r.put (embeddingKey b key) (encode .embedding x))
      { c with embeddings := c.embeddings.put key x } where
  now := h.now
  entries key' := by
    rw [Redis.put, Dict.get?_put, if_neg (cacheKey_ne_embeddingKey _ _ _ _), h.entries]
  embeddings key' := by
    rw [Redis.put, Dict.get?_put, Dict.get?_put, h.embeddings]
    simp only [embeddingKey_inj]
    split_ifs <;> rfl
  keys := by
    rw [Redis.put, Dict.get?_put, if_neg (embeddingKey_ne_tenantKeysKey _ _ _).symm, h.keys]

theorem putSet (h : Shows b r c) (x : Option (Timed (List String))) :
    Shows b (r.putSet (tenantKeysKey b) x) { c with keys := x } where
  now := h.now
  entries key := by
    rw [Redis.putSet, Redis.put, Dict.get?_put, if_neg (cacheKey_ne_tenantKeysKey _ _ _),
      h.entries]
  embeddings key := by
    rw [Redis.putSet, Redis.put, Dict.get?_put, if_neg (embeddingKey_ne_tenantKeysKey _ _ _),
      h.embeddings]
  keys := by
    rw [Redis.putSet, Redis.put, Dict.get?_put, if_pos rfl]
    rfl

theorem setEntry (h : Shows b r c) (key : String) (ttl : ℤ) (entry : CacheEntry α μ) :
    Shows b (r.setex (cacheKey b key) ttl (.entry b entry)) (c.setEntry key ttl entry) := by
  unfold Redis.setex
  rw [h.now]
  exact h.putEntry key (some ⟨entry, c.now + 1000 * ttl⟩)

theorem setEmbedding (h : Shows b r c) (key : String) (ttl : ℤ) (embedding : α) :
    Shows b (r.setex (embeddingKey b key) ttl (.embedding embedding))
      { c with embeddings := Expiry.setex c.now ttl c.embeddings key embedding } := by
  unfold Redis.setex
  rw [h.now]
  exact h.putEmbedding key (some ⟨embedding, c.now + 1000 * ttl⟩)

/-- The pipeline of `store` does to Redis what it does to the cache. -/
theorem store (h : Shows b r c) (settings : Settings) (request : CacheRequest μ) (embedding : α)
    (time : ℚ) :
    Shows b (r.store settings b request embedding time)
      (c.store settings request embedding time).1 := by
  unfold Redis.store TenantCache.store
  simp only
  split_ifs with httl
  · have hstored := (h.setEntry request.cacheKey (effectiveTtl settings request.ttlSeconds)
      (newEntry settings request embedding time)).setEmbedding request.cacheKey
        (effectiveTtl settings request.ttlSeconds) embedding
    rw [h.now, hstored.setAt]
    exact hstored.putSet _
  · rw [h.now, h.setAt]
    exact h.putSet _

/-- The pipeline of `delete` does to Redis what it does to the cache. -/
theorem delete (h : Shows b r c) (key : String) : Shows b (r.delete b key) (c.delete key) := by
  have hdeleted : Shows b ((r.put (cacheKey b key) none).put (embeddingKey b key) none)
      { c with entries := c.entries.erase key, embeddings := c.embeddings.erase key } :=
    (h.putEntry key none).putEmbedding key none
  unfold Redis.delete
  simp only
  rw [h.now, hdeleted.setAt]
  exact hdeleted.putSet _

/-- The next command of a `retrieve` does to Redis what it does to the cache. -/
theorem retrieveStep (h : Shows b r c) (similarity : α → α → Option ℚ) (order : MemberOrder)
    (call : Retrieve α μ) :
    (SemanticCache.retrieveStep similarity order b r (call, b)).1 =
        ((call.advance similarity (order.order c.members) c).1, b) ∧
      Shows b (SemanticCache.retrieveStep similarity order b r (call, b)).2
        (call.advance similarity (order.order c.members) c).2 := by
  cases call with
  | smembers query threshold =>
    simp only [SemanticCache.retrieveStep, Retrieve.advance, h.smembers, true_and]
    exact h
  | getEmbedding query threshold key rest best =>
    simp only [SemanticCache.retrieveStep, Retrieve.advance, h.embeddingAt, true_and]
    exact h
  | getEntry key score =>
    simp only [SemanticCache.retrieveStep, Retrieve.advance, h.entryAt]
    cases c.entryOf key with
    | none => exact ⟨rfl, h⟩
    | some entry => exact ⟨rfl, h⟩
  | ttl key score entry =>
    simp only [SemanticCache.retrieveStep, Retrieve.advance, h.ttlAt]
    split_ifs
    · exact ⟨rfl, h⟩
    · exact ⟨rfl, h⟩
  | setex key score entry seconds => exact ⟨rfl, h.setEntry key seconds entry.countHit⟩
  | returned response => exact ⟨rfl, h⟩

end Shows

/-! ## Runs -/

section Runs

variable (settings : Settings) (similarity : α → α → Option ℚ)
  (size : String × CacheEntry α μ → ℕ) (b : String)

/-- What an event does to the cache of the tenant. -/
def tenantStep (s : CacheService α μ) (c : TenantCache α μ) :
    ServiceEvent α μ → TenantCache α μ
  | .store d request embedding time =>
    if d = b then (c.store settings request embedding time).1 else c
  | .delete d key => if d = b then c.delete key else c
  | .act i order =>
    match s.callsOf b i with
    | some (.retrieve (call, _)) => (call.advance similarity (order.order c.members) c).2
    | _ => c
  | .wait milliseconds => { c with now := c.now + milliseconds }
  | _ => c

/-- The calls of `retrieve` among these hold entries of the tenant. -/
def HoldOwn (calls : ℕ → Option (Call α μ)) : Prop :=
  ∀ i call owner, calls i = some (.retrieve (call, owner)) → owner = b

/-- Redis shows the cache of the tenant, and its calls of `retrieve` hold its own entries. -/
structure CacheService.Refines (s : CacheService α μ) (c : TenantCache α μ) : Prop where
  shows : Shows b s.redis c
  holdOwn : HoldOwn b (s.callsOf b)

end Runs

variable {settings : Settings} {similarity : α → α → Option ℚ}
  {size : String × CacheEntry α μ → ℕ} {b : String} {s s' : CacheService α μ}
  {c : TenantCache α μ}

theorem HoldOwn.update {calls : ℕ → Option (Call α μ)} (h : HoldOwn b calls) (i : ℕ)
    {x : Option (Call α μ)} (hx : ∀ call owner, x = some (.retrieve (call, owner)) → owner = b) :
    HoldOwn b (Function.update calls i x) := by
  intro j call owner hj
  by_cases hij : j = i
  · subst hij
    rw [Function.update_self] at hj
    exact hx call owner hj
  · rw [Function.update_of_ne hij] at hj
    exact h j call owner hj

namespace CacheService

/-- A `retrieve` of the tenant takes the step that it takes over the cache of the tenant. -/
theorem Refines.act (h : s.Refines b c) {i : ℕ} {call : Retrieve α μ} {owner : String}
    (hi : s.calls[i]? = some (b, .retrieve (call, owner))) (order : MemberOrder)
    (hst : s.step settings similarity size (.act i order) = some s') :
    Shows b s'.redis (call.advance similarity (order.order c.members) c).2 ∧
      s'.callsOf b = Function.update (s.callsOf b) i
        (some (.retrieve ((call.advance similarity (order.order c.members) c).1, b))) := by
  have howner : owner = b := h.holdOwn i call owner (by simp [callsOf, hi])
  subst howner
  rw [step_act hi] at hst
  obtain rfl := Option.some.inj hst
  obtain ⟨hcall, hshows⟩ := h.shows.retrieveStep similarity order call
  refine ⟨hshows, ?_⟩
  rw [callsOf_set hi, if_pos rfl]
  simp only [callStep, hcall]

theorem Refines.arrive (h : s.Refines b c) {d : String} {call : Call α μ}
    (hcall : ∀ call' owner, call = .retrieve (call', owner) → owner = d) :
    (s.arrive d call).Refines b c := by
  refine ⟨h.shows, ?_⟩
  rw [callsOf_arrive]
  refine h.holdOwn.update _ fun call' owner hx => ?_
  split_ifs at hx with hd
  exact hd ▸ hcall call' owner (Option.some.inj hx)

/-- Every step does to Redis what it does to the cache of the tenant. -/
theorem Refines.step (h : s.Refines b c) {e : ServiceEvent α μ}
    (hother : ∀ d, s.tenantOf e = some d → d = b ∨ Separated d b)
    (hst : s.step settings similarity size e = some s') :
    s'.Refines b (tenantStep settings similarity b s c e) := by
  cases e with
  | store d request embedding time =>
    obtain rfl := Option.some.inj hst
    rcases hother d rfl with rfl | hsep
    · simp only [tenantStep, if_true]
      exact ⟨h.shows.store settings request embedding time, h.holdOwn⟩
    · simp only [tenantStep, if_neg hsep.ne]
      exact ⟨h.shows.congr ((Redis.SameOn.refl _).store_left (fun _ => hsep.not_owns) _ _ _ _),
        h.holdOwn⟩
  | delete d key =>
    obtain rfl := Option.some.inj hst
    rcases hother d rfl with rfl | hsep
    · simp only [tenantStep, if_true]
      exact ⟨h.shows.delete key, h.holdOwn⟩
    · simp only [tenantStep, if_neg hsep.ne]
      exact ⟨h.shows.congr ((Redis.SameOn.refl _).delete_left (fun _ => hsep.not_owns) _),
        h.holdOwn⟩
  | retrieve d query similarityThreshold =>
    obtain rfl := Option.some.inj hst
    refine h.arrive fun call' owner heq => ?_
    cases heq
    rfl
  | getStats d =>
    obtain rfl := Option.some.inj hst
    refine h.arrive fun call' owner heq => ?_
    cases heq
  | act i order =>
    cases hi : s.calls[i]? with
    | none => simp [CacheService.step, hi] at hst
    | some call =>
      obtain ⟨d, call⟩ := call
      rcases hother d (by simp [tenantOf, hi]) with rfl | hsep
      · rcases call with ⟨call, owner⟩ | call
        · obtain ⟨hshows, hcalls⟩ := h.act hi order hst
          refine ⟨by simpa [tenantStep, callsOf, hi] using hshows, ?_⟩
          rw [hcalls]
          refine h.holdOwn.update i fun call' owner' hx => ?_
          cases hx
          rfl
        · rw [step_act hi] at hst
          obtain rfl := Option.some.inj hst
          refine ⟨by simpa [tenantStep, callsOf, hi, callStep] using h.shows, ?_⟩
          rw [callsOf_set hi, if_pos rfl]
          refine h.holdOwn.update i fun call' owner heq => ?_
          cases heq
      · rw [step_act hi] at hst
        obtain rfl := Option.some.inj hst
        have hshows := h.shows.congr (callStep_left similarity size (Redis.SameOn.refl s.redis)
          (fun _ => hsep.not_owns) order call)
        refine ⟨by simpa [tenantStep, callsOf, hi, hsep.ne] using hshows, ?_⟩
        rw [callsOf_set hi, if_neg hsep.ne]
        refine h.holdOwn.update i fun call' owner heq => ?_
        cases heq
  | wait milliseconds =>
    obtain rfl := Option.some.inj hst
    refine ⟨⟨?_, h.shows.entries, h.shows.embeddings, h.shows.keys⟩, h.holdOwn⟩
    exact congrArg (fun now => now + (milliseconds : ℤ)) h.shows.now

end CacheService

/-- In every run in which no other tenant shares a key with it, Redis shows a cache of the
tenant. -/
theorem exists_refines_run {es : List (ServiceEvent α μ)}
    (h : (serviceMachine settings similarity size).Run (OthersSeparated b b) es s) :
    ∃ c, s.Refines b c := by
  refine h.invariant (I := fun s => ∃ c, CacheService.Refines b s c)
    ⟨{}, ⟨rfl, fun _ => rfl, fun _ => rfl, rfl⟩, nofun⟩ ?_
  rintro s e t ⟨c, hc⟩ hok hst
  exact ⟨_, hc.step (fun d hd => (or_self_left.mp (hok d hd))) hst⟩

end SemanticCache

end MultiAgent
