import MultiAgent.SemanticCache.SharedRedis

/-!
# What the operations of a tenant read and write

A tenant reads and writes only Redis keys that it owns. So where an observer reads none of
them, it sees nothing of what the tenant does (`store_left`, `delete_left`, `callStep_left`),
and where two states show the same under all of them, the tenant does the same in both
(`store`, `delete`, `callStep_congr`).

The values under the keys of a family are of one kind in every run (`wellTyped_run`).
-/

namespace MultiAgent

namespace SemanticCache

variable {α μ : Type*}

/-! ## What Redis shows under some keys -/

namespace Redis

/-- The two show the same under the keys with `p`. -/
structure SameOn (p : String → Prop) (r r' : Redis α μ) : Prop where
  now : r.now = r'.now
  keys : Dict.Agree p r.keyspace r'.keyspace

namespace SameOn

variable {p : String → Prop} {r r' : Redis α μ} {key : String}

theorem refl (r : Redis α μ) : SameOn p r r :=
  ⟨rfl, .refl _⟩

theorem symm (h : SameOn p r r') : SameOn p r' r :=
  ⟨h.now.symm, h.keys.symm⟩

theorem put (h : SameOn p r r') (key : String) (x : Option (Timed (RedisValue α μ))) :
    SameOn p (r.put key x) (r'.put key x) :=
  ⟨h.now, h.keys.put key x⟩

theorem put_left (h : SameOn p r r') (hkey : ¬p key) (x : Option (Timed (RedisValue α μ))) :
    SameOn p (r.put key x) r' :=
  ⟨h.now, h.keys.put_left hkey x⟩

theorem setex (h : SameOn p r r') (key : String) (ttl : ℤ) (value : RedisValue α μ) :
    SameOn p (r.setex key ttl value) (r'.setex key ttl value) := by
  unfold Redis.setex
  rw [h.now]
  exact h.put key _

theorem setex_left (h : SameOn p r r') (hkey : ¬p key) (ttl : ℤ) (value : RedisValue α μ) :
    SameOn p (r.setex key ttl value) r' :=
  h.put_left hkey _

theorem getAt (h : SameOn p r r') (hkey : p key) :
    Expiry.getAt r.now r.keyspace key = Expiry.getAt r'.now r'.keyspace key := by
  unfold Expiry.getAt
  rw [h.now, h.keys key hkey]

theorem entryAt (h : SameOn p r r') (hkey : p key) : r.entryAt key = r'.entryAt key := by
  unfold Redis.entryAt
  rw [h.getAt hkey]

theorem embeddingAt (h : SameOn p r r') (hkey : p key) :
    r.embeddingAt key = r'.embeddingAt key := by
  unfold Redis.embeddingAt
  rw [h.getAt hkey]

theorem present (h : SameOn p r r') (hkey : p key) : r.present key = r'.present key := by
  unfold Redis.present
  rw [h.getAt hkey]

theorem setAt (h : SameOn p r r') (hkey : p key) : r.setAt key = r'.setAt key := by
  unfold Redis.setAt
  rw [h.keys key hkey]

theorem smembers (h : SameOn p r r') (hkey : p key) : r.smembers key = r'.smembers key := by
  unfold Redis.smembers
  rw [h.now, h.setAt hkey]

theorem ttlAt (h : SameOn p r r') (hkey : p key) :
    Expiry.ttlAt r.now r.keyspace key = Expiry.ttlAt r'.now r'.keyspace key := by
  unfold Expiry.ttlAt
  rw [h.now, h.keys key hkey]

end SameOn

end Redis

/-! ## The operations of a tenant -/

section Operations

variable {p : String → Prop} {r r' : Redis α μ} {b : String}

/-- A tenant that reads nothing of what an observer reads does not change that. -/
theorem Redis.SameOn.store_left (h : r.SameOn p r') (hb : ∀ key, Owns b key → ¬p key)
    (settings : Settings) (request : CacheRequest μ) (embedding : α) (time : ℚ) :
    (r.store settings b request embedding time).SameOn p r' := by
  unfold Redis.store
  simp only
  refine Redis.SameOn.put_left ?_ (hb _ .tenantKeys) _
  split_ifs
  · exact (h.setex_left (hb _ (.cache _)) _ _).setex_left (hb _ (.embedding _)) _ _
  · exact h

theorem Redis.SameOn.delete_left (h : r.SameOn p r') (hb : ∀ key, Owns b key → ¬p key)
    (key : String) : (r.delete b key).SameOn p r' :=
  ((h.put_left (hb _ (.cache key)) none).put_left (hb _ (.embedding key)) none).put_left
    (hb _ .tenantKeys) _

/-- A tenant whose keys show the same does the same. -/
theorem Redis.SameOn.store (h : r.SameOn p r') (hb : ∀ key, Owns b key → p key)
    (settings : Settings) (request : CacheRequest μ) (embedding : α) (time : ℚ) :
    (r.store settings b request embedding time).SameOn p
      (r'.store settings b request embedding time) := by
  unfold Redis.store
  simp only
  split_ifs
  · have hstored := (h.setex (cacheKey b request.cacheKey)
      (effectiveTtl settings request.ttlSeconds)
      (.entry b (newEntry settings request embedding time))).setex
        (embeddingKey b request.cacheKey) (effectiveTtl settings request.ttlSeconds)
        (.embedding embedding)
    rw [h.now, hstored.setAt (hb _ .tenantKeys)]
    exact hstored.put _ _
  · rw [h.now, h.setAt (hb _ .tenantKeys)]
    exact h.put _ _

theorem Redis.SameOn.delete (h : r.SameOn p r') (hb : ∀ key, Owns b key → p key) (key : String) :
    (r.delete b key).SameOn p (r'.delete b key) := by
  have hdeleted := (h.put (cacheKey b key) none).put (embeddingKey b key) none
  unfold Redis.delete
  simp only
  rw [h.now, hdeleted.setAt (hb _ .tenantKeys)]
  exact hdeleted.put _ _

theorem Redis.SameOn.deletes (h : r.SameOn p r') (hb : ∀ key, Owns b key → p key) (key : String) :
    r.deletes b key = r'.deletes b key := by
  unfold Redis.deletes
  rw [h.present (hb _ (.cache key)), h.present (hb _ (.embedding key)),
    h.smembers (hb _ .tenantKeys)]

theorem retrieveStep_congr (h : r.SameOn p r') (hb : ∀ key, Owns b key → p key)
    (similarity : α → α → Option ℚ) (order : MemberOrder) (call : Retrieve α μ × String) :
    (retrieveStep similarity order b r call).1 = (retrieveStep similarity order b r' call).1 ∧
      (retrieveStep similarity order b r call).2.SameOn p
        (retrieveStep similarity order b r' call).2 := by
  obtain ⟨call, owner⟩ := call
  cases call with
  | smembers query threshold =>
    simp only [retrieveStep, h.smembers (hb _ .tenantKeys), true_and]
    exact h
  | getEmbedding query threshold key rest best =>
    simp only [retrieveStep, h.embeddingAt (hb _ (.embedding key)), true_and]
    exact h
  | getEntry key score =>
    simp only [retrieveStep, h.entryAt (hb _ (.cache key))]
    split <;> exact ⟨rfl, h⟩
  | ttl key score entry =>
    simp only [retrieveStep, h.ttlAt (hb _ (.cache key))]
    split_ifs <;> exact ⟨rfl, h⟩
  | setex key score entry seconds => exact ⟨rfl, h.setex _ _ _⟩
  | returned response => exact ⟨rfl, h⟩

theorem statsStep_congr (h : r.SameOn p r') (hb : ∀ key, Owns b key → p key)
    (size : String × CacheEntry α μ → ℕ) (order : MemberOrder) (call : StatsCall) :
    statsStep size order b r call = statsStep size order b r' call := by
  cases call with
  | smembers => simp only [statsStep, h.smembers (hb _ .tenantKeys)]
  | getEntry key rest total sums => simp only [statsStep, h.entryAt (hb _ (.cache key))]
  | returned stats => rfl

variable (similarity : α → α → Option ℚ) (size : String × CacheEntry α μ → ℕ)

/-- A command of a call leaves Redis as it is, but for the `SETEX` of a `retrieve`. -/
theorem callStep_snd (order : MemberOrder) (b : String) (r : Redis α μ) (call : Call α μ) :
    (callStep similarity size order b r call).2 = r ∨
      ∃ key score entry seconds owner,
        call = .retrieve (.setex key score entry seconds, owner) ∧
          (callStep similarity size order b r call).2 =
            r.setex (cacheKey b key) seconds (.entry owner entry.countHit) := by
  rcases call with ⟨call, owner⟩ | call
  · cases call with
    | smembers query threshold => exact Or.inl rfl
    | getEmbedding query threshold key rest best => exact Or.inl rfl
    | getEntry key score =>
      left
      simp only [callStep, retrieveStep]
      split <;> rfl
    | ttl key score entry =>
      left
      simp only [callStep, retrieveStep]
      split_ifs <;> rfl
    | setex key score entry seconds => exact Or.inr ⟨key, score, entry, seconds, owner, rfl, rfl⟩
    | returned response => exact Or.inl rfl
  · exact Or.inl rfl

theorem callStep_left (h : r.SameOn p r') (hb : ∀ key, Owns b key → ¬p key) (order : MemberOrder)
    (call : Call α μ) : (callStep similarity size order b r call).2.SameOn p r' := by
  rcases callStep_snd similarity size order b r call with hsame | ⟨key, _, _, _, _, -, hsetex⟩
  · rw [hsame]
    exact h
  · rw [hsetex]
    exact h.setex_left (hb _ (.cache key)) _ _

theorem callStep_congr (h : r.SameOn p r') (hb : ∀ key, Owns b key → p key) (order : MemberOrder)
    (call : Call α μ) :
    (callStep similarity size order b r call).1 = (callStep similarity size order b r' call).1 ∧
      (callStep similarity size order b r call).2.SameOn p
        (callStep similarity size order b r' call).2 := by
  cases call with
  | retrieve call =>
    obtain ⟨hcall, hredis⟩ := retrieveStep_congr h hb similarity order call
    exact ⟨congrArg Call.retrieve hcall, hredis⟩
  | getStats call => exact ⟨congrArg Call.getStats (statsStep_congr h hb size order call), h⟩

end Operations

/-! ## The kinds of values -/

/-- The value is of the kind that the family of the key has. -/
inductive RedisValue.Fits : RedisValue α μ → String → Prop
  | entry (owner : String) (entry : CacheEntry α μ) (tenantId key : String) :
    Fits (.entry owner entry) (cacheKey tenantId key)
  | embedding (embedding : α) (tenantId key : String) :
    Fits (.embedding embedding) (embeddingKey tenantId key)
  | members (members : List String) (tenantId : String) :
    Fits (.members members) (tenantKeysKey tenantId)

/-- Every value is of the kind that its key says. -/
def Redis.WellTyped (r : Redis α μ) : Prop :=
  ∀ key x, r.keyspace.get? key = some x → x.value.Fits key

namespace Redis.WellTyped

variable {r : Redis α μ}

theorem put (h : r.WellTyped) {key : String} {x : Option (Timed (RedisValue α μ))}
    (hx : ∀ y, x = some y → y.value.Fits key) : (r.put key x).WellTyped := by
  intro key' y hy
  rw [Redis.put, Dict.get?_put] at hy
  split_ifs at hy with hkey
  · exact hkey ▸ hx y hy
  · exact h key' y hy

theorem put_none (h : r.WellTyped) (key : String) : (r.put key none).WellTyped :=
  h.put nofun

theorem setex (h : r.WellTyped) {key : String} {value : RedisValue α μ} (hvalue : value.Fits key)
    (ttl : ℤ) : (r.setex key ttl value).WellTyped := by
  refine h.put fun y hy => ?_
  obtain rfl := Option.some.inj hy
  exact hvalue

theorem putSet (h : r.WellTyped) (tenantId : String) (x : Option (Timed (List String))) :
    (r.putSet (tenantKeysKey tenantId) x).WellTyped := by
  refine h.put fun y hy => ?_
  obtain ⟨set, -, rfl⟩ := Option.map_eq_some_iff.mp hy
  exact .members set.value tenantId

theorem store (h : r.WellTyped) (settings : Settings) (tenantId : String)
    (request : CacheRequest μ) (embedding : α) (time : ℚ) :
    (r.store settings tenantId request embedding time).WellTyped := by
  unfold Redis.store
  simp only
  split_ifs
  · exact ((h.setex (.entry _ _ _ _) _).setex (.embedding _ _ _) _).putSet tenantId _
  · exact h.putSet tenantId _

theorem delete (h : r.WellTyped) (tenantId key : String) : (r.delete tenantId key).WellTyped :=
  ((h.put_none _).put_none _).putSet tenantId _

theorem callStep (h : r.WellTyped) (similarity : α → α → Option ℚ)
    (size : String × CacheEntry α μ → ℕ) (order : MemberOrder) (tenantId : String)
    (call : Call α μ) : (callStep similarity size order tenantId r call).2.WellTyped := by
  rcases callStep_snd similarity size order tenantId r call with
    hsame | ⟨key, _, _, seconds, _, -, hsetex⟩
  · rw [hsame]
    exact h
  · rw [hsetex]
    exact h.setex (.entry _ _ _ _) seconds

end Redis.WellTyped

section Kinds

variable {tenantId key : String} {value : RedisValue α μ}

/-- Only an entry is kept under the key of an entry. -/
theorem RedisValue.Fits.entry_of_cacheKey (h : value.Fits (cacheKey tenantId key)) :
    ∃ owner entry, value = .entry owner entry := by
  generalize hkey : cacheKey tenantId key = k at h
  cases h with
  | entry owner entry => exact ⟨owner, entry, rfl⟩
  | embedding => exact absurd hkey (cacheKey_ne_embeddingKey _ _ _ _)
  | members => exact absurd hkey (cacheKey_ne_tenantKeysKey _ _ _)

/-- Only an embedding is kept under the key of an embedding. -/
theorem RedisValue.Fits.embedding_of_embeddingKey (h : value.Fits (embeddingKey tenantId key)) :
    ∃ embedding, value = .embedding embedding := by
  generalize hkey : embeddingKey tenantId key = k at h
  cases h with
  | entry => exact absurd hkey.symm (cacheKey_ne_embeddingKey _ _ _ _)
  | embedding embedding => exact ⟨embedding, rfl⟩
  | members => exact absurd hkey (embeddingKey_ne_tenantKeysKey _ _ _)

/-- Only a set is kept under the key of a tenant's keys. -/
theorem RedisValue.Fits.members_of_tenantKeysKey (h : value.Fits (tenantKeysKey tenantId)) :
    ∃ members, value = .members members := by
  generalize hkey : tenantKeysKey tenantId = k at h
  cases h with
  | entry => exact absurd hkey.symm (cacheKey_ne_tenantKeysKey _ _ _)
  | embedding => exact absurd hkey.symm (embeddingKey_ne_tenantKeysKey _ _ _)
  | members members => exact ⟨members, rfl⟩

end Kinds

/-- In every run every value is of the kind that its key says. -/
theorem wellTyped_run {settings : Settings} {similarity : α → α → Option ℚ}
    {size : String × CacheEntry α μ → ℕ} {es : List (ServiceEvent α μ)} {s : CacheService α μ}
    (h : (serviceMachine settings similarity size).Run (fun _ _ => True) es s) :
    s.redis.WellTyped := by
  refine h.invariant (I := fun s => s.redis.WellTyped) nofun ?_
  intro s e t hs _ hst
  cases e with
  | store tenantId request embedding time =>
    obtain rfl := Option.some.inj hst
    exact hs.store settings tenantId request embedding time
  | delete tenantId key =>
    obtain rfl := Option.some.inj hst
    exact hs.delete tenantId key
  | retrieve tenantId query similarityThreshold =>
    obtain rfl := Option.some.inj hst
    exact hs
  | getStats tenantId =>
    obtain rfl := Option.some.inj hst
    exact hs
  | act i order =>
    simp only [serviceMachine, CacheService.step] at hst
    split at hst
    · obtain rfl := Option.some.inj hst
      exact hs.callStep similarity size order _ _
    · cases hst
  | wait milliseconds =>
    obtain rfl := Option.some.inj hst
    exact hs

theorem present_put (r : Redis α μ) (key key' : String) (x : Option (Timed (RedisValue α μ))) :
    (r.put key x).present key' =
      if key' = key then (Timed.at? r.now x).isSome else r.present key' := by
  unfold Redis.present Expiry.getAt Redis.put
  rw [Dict.get?_put]
  split_ifs <;> rfl

/-- A `SETEX` leaves a value. -/
theorem present_setex (r : Redis α μ) (key : String) {ttl : ℤ} (httl : 0 < ttl)
    (value : RedisValue α μ) : (r.setex key ttl value).present key = true := by
  have hlive : Timed.at? r.now (some ⟨value, r.now + 1000 * ttl⟩) = some value :=
    Timed.at?_eq_some.mpr ⟨_, rfl, by omega⟩
  rw [Redis.setex, present_put, if_pos rfl, hlive]
  rfl

theorem now_store (r : Redis α μ) (settings : Settings) (tenantId : String)
    (request : CacheRequest μ) (embedding : α) (time : ℚ) :
    (r.store settings tenantId request embedding time).now = r.now := by
  unfold Redis.store
  simp only
  split_ifs <;> rfl

end SemanticCache

end MultiAgent
