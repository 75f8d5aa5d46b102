import MultiAgent.Lib.Noninterference
import MultiAgent.SemanticCache.CacheManager
import MultiAgent.SemanticCache.TenantKeys

/-!
# The semantic cache of all tenants

`SemanticCacheManager` for all tenants, over the one Redis they share : a dictionary from Redis
keys to values with a deadline. An entry is kept with the tenant id it holds. A value under a
key of one of the families is always of the kind of that family (`wellTyped_run`), so reading
a value of another kind, which raises, is modelled as reading none.

The pipelines of `store` and `delete` are one transaction each. `retrieve` and `get_stats` are
sequences of Redis commands (`retrieveStep`, `statsStep`), and commands of other calls run
between them. The order in which `SMEMBERS` gives the members of a set comes with the events,
and so does the time.
-/

namespace MultiAgent

namespace SemanticCache

variable {α μ : Type*}

/-! ## Redis -/

/-- What is kept under a Redis key. -/
inductive RedisValue (α μ : Type*)
  | entry (tenantId : String) (entry : CacheEntry α μ)
  | embedding (embedding : α)
  | members (members : List String)

/-- Redis, with its time in milliseconds. -/
structure Redis (α μ : Type*) where
  now : ℤ := 0
  keyspace : Dict String (Timed (RedisValue α μ)) := .empty

namespace Redis

variable (r : Redis α μ)

/-- Write a value under a key, or remove the key. -/
def put (key : String) (x : Option (Timed (RedisValue α μ))) : Redis α μ :=
  { r with keyspace := r.keyspace.put key x }

/-- `SETEX`, for a time to live that is positive. -/
def setex (key : String) (ttl : ℤ) (value : RedisValue α μ) : Redis α μ :=
  r.put key (some ⟨value, r.now + 1000 * ttl⟩)

/-- `GET` of an entry. -/
def entryAt (key : String) : Option (String × CacheEntry α μ) :=
  match Expiry.getAt r.now r.keyspace key with
  | some (.entry tenantId entry) => some (tenantId, entry)
  | _ => none

/-- `GET` of an embedding. -/
def embeddingAt (key : String) : Option α :=
  match Expiry.getAt r.now r.keyspace key with
  | some (.embedding embedding) => some embedding
  | _ => none

/-- The set under a key. -/
def setAt (key : String) : Option (Timed (List String)) :=
  match r.keyspace.get? key with
  | some ⟨.members members, deadline⟩ => some ⟨members, deadline⟩
  | _ => none

/-- Put a set under a key. -/
def putSet (key : String) (x : Option (Timed (List String))) : Redis α μ :=
  r.put key (x.map fun set => ⟨.members set.value, set.deadline⟩)

/-- `SMEMBERS`. -/
def smembers (key : String) : List String :=
  Expiry.membersAt r.now (r.setAt key)

/-- `EXISTS`, which is what `DEL` answers. -/
def present (key : String) : Bool :=
  (Expiry.getAt r.now r.keyspace key).isSome

/-- The pipeline of `store`. Redis refuses a `SETEX` with a time to live that is not
positive. -/
def store (settings : Settings) (tenantId : String) (request : CacheRequest μ) (embedding : α)
    (time : ℚ) : Redis α μ :=
  let ttl := effectiveTtl settings request.ttlSeconds
  let entry := newEntry settings request embedding time
  let stored :=
    if 0 < ttl then
      (r.setex (cacheKey tenantId request.cacheKey) ttl (.entry tenantId entry)).setex
        (embeddingKey tenantId request.cacheKey) ttl (.embedding embedding)
    else r
  stored.putSet (tenantKeysKey tenantId)
    (Expiry.addExpire r.now ttl (stored.setAt (tenantKeysKey tenantId)) request.cacheKey)

/-- What `delete` returns. -/
def deletes (tenantId key : String) : Bool :=
  r.present (cacheKey tenantId key) || r.present (embeddingKey tenantId key) ||
    decide (key ∈ r.smembers (tenantKeysKey tenantId))

/-- The pipeline of `delete`. -/
def delete (tenantId key : String) : Redis α μ :=
  let deleted := (r.put (cacheKey tenantId key) none).put (embeddingKey tenantId key) none
  deleted.putSet (tenantKeysKey tenantId)
    (Expiry.remove r.now (deleted.setAt (tenantKeysKey tenantId)) key)

end Redis

/-! ## Retrieve and statistics -/

/-- An order in which `SMEMBERS` gives the members of each set. -/
structure MemberOrder where
  order : List String → List String
  perm (members : List String) : (order members).Perm members

/-- The next command of a `retrieve` of the tenant, with what follows it. Next to the
`retrieve` is the tenant id in the entry it has read. -/
def retrieveStep (similarity : α → α → Option ℚ) (order : MemberOrder) (tenantId : String)
    (r : Redis α μ) : Retrieve α μ × String → (Retrieve α μ × String) × Redis α μ
  | (.smembers query threshold, owner) =>
    ((.ofKeys query threshold {} (order.order (r.smembers (tenantKeysKey tenantId))), owner), r)
  | (.getEmbedding query threshold key rest best, owner) =>
    let embedding := r.embeddingAt (embeddingKey tenantId key)
    ((.ofKeys query threshold (best.see similarity query threshold key embedding) rest, owner), r)
  | (.getEntry key score, owner) =>
    match r.entryAt (cacheKey tenantId key) with
    | some (owner, entry) => ((.ttl key score entry, owner), r)
    | none => ((.returned none, owner), r)
  | (.ttl key score entry, owner) =>
    let seconds := Expiry.ttlAt r.now r.keyspace (cacheKey tenantId key)
    if 0 < seconds then ((.setex key score entry seconds, owner), r)
    else ((.returned (some (entry.hit score)), owner), r)
  | (.setex key score entry seconds, owner) =>
    ((.returned (some (entry.hit score)), owner),
      r.setex (cacheKey tenantId key) seconds (.entry owner entry.countHit))
  | (.returned response, owner) => ((.returned response, owner), r)

/-- `CacheStats`. -/
structure CacheStats where
  tenantId : String
  totalEntries : ℕ := 0
  hitRate : ℚ := 0
  avgSimilarity : ℚ := 0
  cacheSizeMb : ℚ := 0
  oldestEntry : Option ℚ := none
  newestEntry : Option ℚ := none
  deriving DecidableEq

/-- What `get_stats` has added up. -/
structure StatsSums where
  totalHits : ℕ := 0
  totalSize : ℕ := 0
  oldestEntry : Option ℚ := none
  newestEntry : Option ℚ := none

/-- A `get_stats`, before its next command. -/
inductive StatsCall
  | smembers
  | getEntry (key : String) (rest : List String) (total : ℕ) (sums : StatsSums)
  | returned (stats : CacheStats)

/-- An entry is added up. `size` is the length of its JSON. -/
def StatsSums.see (size : String × CacheEntry α μ → ℕ) (sums : StatsSums) :
    Option (String × CacheEntry α μ) → StatsSums
  | some read =>
    { totalHits := sums.totalHits + read.2.hitCount
      totalSize := sums.totalSize + size read
      oldestEntry :=
        if sums.oldestEntry.all fun oldest => read.2.cachedAt < oldest then some read.2.cachedAt
        else sums.oldestEntry
      newestEntry :=
        if sums.newestEntry.all fun newest => newest < read.2.cachedAt then some read.2.cachedAt
        else sums.newestEntry }
  | none => sums

/-- `CacheStats` at the end of `get_stats`. -/
def StatsSums.stats (sums : StatsSums) (tenantId : String) (total : ℕ) : CacheStats where
  tenantId := tenantId
  totalEntries := total
  hitRate := sums.totalHits / max total 1
  avgSimilarity := 85 / 100
  cacheSizeMb := sums.totalSize / (1024 * 1024)
  oldestEntry := sums.oldestEntry
  newestEntry := sums.newestEntry

/-- The loop of `get_stats` over the keys that are left. -/
def StatsCall.ofKeys (tenantId : String) (total : ℕ) (sums : StatsSums) :
    List String → StatsCall
  | [] => .returned (sums.stats tenantId total)
  | key :: rest => .getEntry key rest total sums

/-- The next command of a `get_stats` of the tenant, with what follows it. -/
def statsStep (size : String × CacheEntry α μ → ℕ) (order : MemberOrder) (tenantId : String)
    (r : Redis α μ) : StatsCall → StatsCall
  | .smembers =>
    let keys := order.order (r.smembers (tenantKeysKey tenantId))
    if keys = [] then .returned { tenantId } else .ofKeys tenantId keys.length {} keys
  | .getEntry key rest total sums =>
    .ofKeys tenantId total (sums.see size (r.entryAt (cacheKey tenantId key))) rest
  | .returned stats => .returned stats

/-! ## The machine -/

/-- A call of `retrieve` or `get_stats`. -/
inductive Call (α μ : Type*)
  | retrieve (call : Retrieve α μ × String)
  | getStats (call : StatsCall)

/-- What a call returns. -/
inductive CallResult (μ : Type*)
  | response (response : Option (CacheHit μ))
  | stats (stats : CacheStats)

/-- What the call has returned. -/
def Call.result : Call α μ → Option (CallResult μ)
  | .retrieve (.returned response, _) => some (.response response)
  | .getStats (.returned stats) => some (.stats stats)
  | _ => none

/-- Redis, the calls of `retrieve` and `get_stats` with their tenants, and what the calls of
`delete` have returned. -/
structure CacheService (α μ : Type*) where
  redis : Redis α μ := {}
  calls : List (String × Call α μ) := []
  deletions : List (String × Bool) := []

/-- A step. `act` is the next command of a call. -/
inductive ServiceEvent (α μ : Type*)
  | store (tenantId : String) (request : CacheRequest μ) (embedding : α) (time : ℚ)
  | delete (tenantId key : String)
  | retrieve (tenantId : String) (query : α) (similarityThreshold : Option ℚ)
  | getStats (tenantId : String)
  | act (call : ℕ) (order : MemberOrder)
  | wait (milliseconds : ℕ)

section Service

variable (settings : Settings) (similarity : α → α → Option ℚ)
  (size : String × CacheEntry α μ → ℕ)

/-- The next command of a call of the tenant. -/
def callStep (order : MemberOrder) (tenantId : String) (r : Redis α μ) :
    Call α μ → Call α μ × Redis α μ
  | .retrieve call =>
    let next := retrieveStep similarity order tenantId r call
    (.retrieve next.1, next.2)
  | .getStats call => (.getStats (statsStep size order tenantId r call), r)

namespace CacheService

variable (s : CacheService α μ)

/-- A call arrives. -/
def arrive (tenantId : String) (call : Call α μ) : CacheService α μ :=
  { s with calls := s.calls ++ [(tenantId, call)] }

/-- One step. A call that has returned stays as it is. -/
def step : ServiceEvent α μ → Option (CacheService α μ)
  | .store tenantId request embedding time =>
    some { s with redis := s.redis.store settings tenantId request embedding time }
  | .delete tenantId key =>
    some { s with
      redis := s.redis.delete tenantId key
      deletions := s.deletions ++ [(tenantId, s.redis.deletes tenantId key)] }
  | .retrieve tenantId query similarityThreshold =>
    some (s.arrive tenantId
      (.retrieve (.smembers query (effectiveThreshold settings similarityThreshold), tenantId)))
  | .getStats tenantId => some (s.arrive tenantId (.getStats .smembers))
  | .act i order =>
    match s.calls[i]? with
    | some (tenantId, call) =>
      let next := callStep similarity size order tenantId s.redis call
      some { s with redis := next.2, calls := s.calls.set i (tenantId, next.1) }
    | none => none
  | .wait milliseconds =>
    some { s with redis := { s.redis with now := s.redis.now + milliseconds } }

/-- The tenant of the event. -/
def tenantOf : ServiceEvent α μ → Option String
  | .store tenantId _ _ _ => some tenantId
  | .delete tenantId _ => some tenantId
  | .retrieve tenantId _ _ => some tenantId
  | .getStats tenantId => some tenantId
  | .act i _ => (s.calls[i]?).map Prod.fst
  | .wait _ => none

end CacheService

/-- The cache of all tenants under every interleaving of their calls. -/
def serviceMachine : Machine (CacheService α μ) (ServiceEvent α μ) where
  init := {}
  step := CacheService.step settings similarity size

end Service

end SemanticCache

end MultiAgent
