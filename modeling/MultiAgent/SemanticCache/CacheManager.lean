import Mathlib.Algebra.Order.Field.Rat
import MultiAgent.Lib.Expiry

/-!
# The semantic cache of a tenant

`SemanticCacheManager` of `apps/data-plane/semantic-cache-service/src/cache_manager.py`, for
one tenant. Its entries, their embeddings and the set of its keys have Redis keys with
different prefixes, so they are kept apart here. A pipeline is one transaction.

`retrieve` is a sequence of Redis commands (`Retrieve.advance`) : `SMEMBERS`, a `GET` for
each embedding, a `GET`, the `TTL` and a `SETEX` of the best entry. Embeddings and metadata
are of any types, and survive the way through JSON; the similarity of two embeddings is a
parameter, which is `none` where `cosine_similarity` raises.
-/

namespace MultiAgent

namespace SemanticCache

/-- `Settings`, as far as they are used. -/
structure Settings where
  defaultTtlSeconds : ℤ := 3600
  maxTtlSeconds : ℤ := 86400
  similarityThreshold : ℚ := 85 / 100

/-- `CacheRequest`. -/
structure CacheRequest (μ : Type*) where
  cacheKey : String
  content : String
  ttlSeconds : Option ℤ := none
  metadata : μ

/-- `CacheEntry`, with its times in seconds. -/
structure CacheEntry (α μ : Type*) where
  cacheKey : String
  content : String
  embedding : α
  cachedAt : ℚ
  expiresAt : ℚ
  metadata : μ
  hitCount : ℕ := 0
  deriving DecidableEq

/-- `CacheResponse` of a `retrieve` that found an entry. -/
structure CacheHit (μ : Type*) where
  content : String
  similarityScore : ℚ
  cacheKey : String
  cachedAt : ℚ
  expiresAt : ℚ
  metadata : μ

/-- What Redis has of the tenant. -/
structure TenantCache (α μ : Type*) where
  now : ℤ := 0
  entries : Dict String (Timed (CacheEntry α μ)) := .empty
  embeddings : Dict String (Timed α) := .empty
  keys : Option (Timed (List String)) := none

/-- The time to live of an entry. -/
def effectiveTtl (settings : Settings) (ttlSeconds : Option ℤ) : ℤ :=
  let ttl := if ttlSeconds.getD 0 = 0 then settings.defaultTtlSeconds else ttlSeconds.getD 0
  min ttl settings.maxTtlSeconds

/-- The threshold of a `retrieve`. -/
def effectiveThreshold (settings : Settings) (similarityThreshold : Option ℚ) : ℚ :=
  if similarityThreshold.getD 0 = 0 then settings.similarityThreshold
  else similarityThreshold.getD 0

theorem effectiveTtl_eq (settings : Settings) {ttlSeconds : Option ℤ}
    (hpos : 0 < ttlSeconds.getD settings.defaultTtlSeconds) :
    effectiveTtl settings ttlSeconds =
      min (ttlSeconds.getD settings.defaultTtlSeconds) settings.maxTtlSeconds := by
  unfold effectiveTtl
  cases ttlSeconds with
  | none => rfl
  | some ttl =>
    dsimp only [Option.getD_some] at hpos ⊢
    rw [if_neg (by omega)]

variable {α μ : Type*}

/-- The entry that `store` makes of a request, at the time `time` of the service. -/
def newEntry (settings : Settings) (request : CacheRequest μ) (embedding : α) (time : ℚ) :
    CacheEntry α μ where
  cacheKey := request.cacheKey
  content := request.content
  embedding := embedding
  cachedAt := time
  expiresAt := time + effectiveTtl settings request.ttlSeconds
  metadata := request.metadata

namespace TenantCache

variable (c : TenantCache α μ)

/-- The entry under a key. -/
def entryOf (key : String) : Option (CacheEntry α μ) :=
  Expiry.getAt c.now c.entries key

/-- The embedding under a key. -/
def embeddingOf (key : String) : Option α :=
  Expiry.getAt c.now c.embeddings key

/-- The members of the set of keys. -/
def members : List String :=
  Expiry.membersAt c.now c.keys

/-- `SETEX` of an entry. -/
def setEntry (key : String) (ttl : ℤ) (entry : CacheEntry α μ) : TenantCache α μ :=
  { c with entries := Expiry.setex c.now ttl c.entries key entry }

/-- The pipeline of `store`, and whether `store` returns `True`. Redis refuses a `SETEX` with
a time to live that is not positive. -/
def store (settings : Settings) (request : CacheRequest μ) (embedding : α) (time : ℚ) :
    TenantCache α μ × Bool :=
  let ttl := effectiveTtl settings request.ttlSeconds
  let keys := Expiry.addExpire c.now ttl c.keys request.cacheKey
  if 0 < ttl then
    ({ c.setEntry request.cacheKey ttl (newEntry settings request embedding time) with
        embeddings := Expiry.setex c.now ttl c.embeddings request.cacheKey embedding
        keys }, true)
  else ({ c with keys }, false)

/-- The pipeline of `delete`. -/
def delete (key : String) : TenantCache α μ :=
  { c with
    entries := c.entries.erase key
    embeddings := c.embeddings.erase key
    keys := Expiry.remove c.now c.keys key }

variable {c}

theorem entryOf_setEntry {ttl : ℤ} (httl : 0 < ttl) (key key' : String) (entry : CacheEntry α μ) :
    (c.setEntry key ttl entry).entryOf key' = if key' = key then some entry else c.entryOf key' :=
  Expiry.getAt_setex httl c.entries key key' entry

theorem entryOf_store (settings : Settings) (request : CacheRequest μ) (embedding : α) (time : ℚ)
    (key : String) :
    (c.store settings request embedding time).1.entryOf key =
      if (c.store settings request embedding time).2 = true ∧ key = request.cacheKey then
        some (newEntry settings request embedding time)
      else c.entryOf key := by
  unfold store
  dsimp only
  split_ifs with httl hkey hkey
  · exact (entryOf_setEntry httl request.cacheKey key _).trans (if_pos hkey.2)
  · exact (entryOf_setEntry httl request.cacheKey key _).trans
      (if_neg fun heq => hkey ⟨rfl, heq⟩)
  · exact hkey.1.elim
  · rfl

theorem entryOf_delete (key key' : String) :
    (c.delete key).entryOf key' = if key' = key then none else c.entryOf key' :=
  Expiry.getAt_erase c.now c.entries key key'

end TenantCache

/-! ## Retrieve -/

/-- `best_match` and `best_similarity`. -/
structure Best where
  key : Option String := none
  similarity : ℚ := 0

/-- A `retrieve`, before its next command : the command and what was found so far. -/
inductive Retrieve (α μ : Type*)
  | smembers (query : α) (threshold : ℚ)
  | getEmbedding (query : α) (threshold : ℚ) (key : String) (rest : List String) (best : Best)
  | getEntry (key : String) (similarity : ℚ)
  | ttl (key : String) (similarity : ℚ) (entry : CacheEntry α μ)
  | setex (key : String) (similarity : ℚ) (entry : CacheEntry α μ) (ttl : ℤ)
  | returned (response : Option (CacheHit μ))

/-- An embedding of a key is compared with the query. -/
def Best.see (similarity : α → α → Option ℚ) (query : α) (threshold : ℚ) (best : Best)
    (key : String) (embedding : Option α) : Best :=
  match embedding.bind (similarity query) with
  | some x => if best.similarity < x ∧ threshold ≤ x then ⟨some key, x⟩ else best
  | none => best

/-- `CacheResponse` for an entry. -/
def CacheEntry.hit (entry : CacheEntry α μ) (similarity : ℚ) : CacheHit μ where
  content := entry.content
  similarityScore := similarity
  cacheKey := entry.cacheKey
  cachedAt := entry.cachedAt
  expiresAt := entry.expiresAt
  metadata := entry.metadata

/-- The entry with one more hit. -/
def CacheEntry.countHit (entry : CacheEntry α μ) : CacheEntry α μ :=
  { entry with hitCount := entry.hitCount + 1 }

namespace Retrieve

/-- After the loop : an empty `best_match` is none. -/
def ofBest (best : Best) : Retrieve α μ :=
  match best.key with
  | some key => if key = "" then returned none else getEntry key best.similarity
  | none => returned none

/-- The loop over the keys that are left. -/
def ofKeys (query : α) (threshold : ℚ) (best : Best) : List String → Retrieve α μ
  | [] => ofBest best
  | key :: rest => getEmbedding query threshold key rest best

/-- The next command of a `retrieve`, with what follows it. `order` is the order in which
`SMEMBERS` gives the members. -/
def advance (similarity : α → α → Option ℚ) (order : List String) (c : TenantCache α μ) :
    Retrieve α μ → Retrieve α μ × TenantCache α μ
  | smembers query threshold => (ofKeys query threshold {} order, c)
  | getEmbedding query threshold key rest best =>
    (ofKeys query threshold (best.see similarity query threshold key (c.embeddingOf key)) rest, c)
  | getEntry key score =>
    match c.entryOf key with
    | some entry => (ttl key score entry, c)
    | none => (returned none, c)
  | ttl key score entry =>
    let seconds := Expiry.ttlAt c.now c.entries key
    if 0 < seconds then (setex key score entry seconds, c)
    else (returned (some (entry.hit score)), c)
  | setex key score entry seconds =>
    (returned (some (entry.hit score)), c.setEntry key seconds entry.countHit)
  | returned response => (returned response, c)

end Retrieve

/-- A similarity : the cosine of two unit vectors. -/
def dot (v w : List ℚ) : Option ℚ :=
  if v.length = w.length then some (List.zipWith (fun x y => x * y) v w).sum else none

end SemanticCache

end MultiAgent
