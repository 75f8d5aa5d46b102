import Mathlib.Data.String.Basic
import Mathlib.Tactic.Tauto

/-!
# The Redis keys of a tenant

`SemanticCacheManager` keeps the cache of a tenant under keys that it builds from the tenant's
id and the keys of the cache, both arbitrary strings. The three prefixes keep the families
apart, and `tenant_keys:` is followed by the id alone. The other two put a colon between the
id and the key, which may contain colons themselves. So two tenants share a Redis key exactly
when the id of one is that of the other, a colon and something more (`separated_iff`).
-/

namespace MultiAgent

namespace SemanticCache

/-- `_cache_key`. -/
def cacheKey (tenantId key : String) : String :=
  "semantic_cache:" ++ tenantId ++ ":" ++ key

/-- `_embedding_key`. -/
def embeddingKey (tenantId key : String) : String :=
  "semantic_embeddings:" ++ tenantId ++ ":" ++ key

/-- `_tenant_keys_key`. -/
def tenantKeysKey (tenantId : String) : String :=
  "tenant_keys:" ++ tenantId

/-- A Redis key of the tenant. -/
inductive Owns (tenantId : String) : String → Prop
  | cache (key : String) : Owns tenantId (cacheKey tenantId key)
  | embedding (key : String) : Owns tenantId (embeddingKey tenantId key)
  | tenantKeys : Owns tenantId (tenantKeysKey tenantId)

/-- The ids are different, and none is the other, a colon and something more. -/
structure Separated (a b : String) : Prop where
  ne : a ≠ b
  left : ∀ rest, a ≠ b ++ ":" ++ rest
  right : ∀ rest, b ≠ a ++ ":" ++ rest

theorem Separated.symm {a b : String} (h : Separated a b) : Separated b a :=
  ⟨h.ne.symm, h.right, h.left⟩

/-! ## The families -/

/-- Strings that begin differently. -/
theorem append_ne_append {p q : String} (n : ℕ) (hp : n < p.toList.length)
    (hq : n < q.toList.length) (hpq : p.toList[n]? ≠ q.toList[n]?) (s t : String) :
    p ++ s ≠ q ++ t := by
  intro h
  have hchar : (p ++ s).toList[n]? = (q ++ t).toList[n]? := by rw [h]
  rw [String.toList_append, String.toList_append, List.getElem?_append_left hp,
    List.getElem?_append_left hq] at hchar
  exact hpq hchar

section Families

variable (a b key key' : String)

theorem cacheKey_ne_embeddingKey : cacheKey a key ≠ embeddingKey b key' := by
  have hcache : 9 < "semantic_cache:".toList.length := by simp
  have hembedding : 9 < "semantic_embeddings:".toList.length := by simp
  have hne : "semantic_cache:".toList[9]? ≠ "semantic_embeddings:".toList[9]? := by simp
  unfold cacheKey embeddingKey
  rw [String.append_assoc, String.append_assoc, String.append_assoc, String.append_assoc]
  exact append_ne_append 9 hcache hembedding hne _ _

theorem cacheKey_ne_tenantKeysKey : cacheKey a key ≠ tenantKeysKey b := by
  have hcache : 0 < "semantic_cache:".toList.length := by simp
  have htenant : 0 < "tenant_keys:".toList.length := by simp
  have hne : "semantic_cache:".toList[0]? ≠ "tenant_keys:".toList[0]? := by simp
  unfold cacheKey tenantKeysKey
  rw [String.append_assoc, String.append_assoc]
  exact append_ne_append 0 hcache htenant hne _ _

theorem embeddingKey_ne_tenantKeysKey : embeddingKey a key ≠ tenantKeysKey b := by
  have hembedding : 0 < "semantic_embeddings:".toList.length := by simp
  have htenant : 0 < "tenant_keys:".toList.length := by simp
  have hne : "semantic_embeddings:".toList[0]? ≠ "tenant_keys:".toList[0]? := by simp
  unfold embeddingKey tenantKeysKey
  rw [String.append_assoc, String.append_assoc]
  exact append_ne_append 0 hembedding htenant hne _ _

end Families

/-! ## Two tenants -/

variable {a b key key' : String}

theorem cacheKey_inj : cacheKey a key = cacheKey a key' ↔ key = key' :=
  String.append_right_inj _

theorem embeddingKey_inj : embeddingKey a key = embeddingKey a key' ↔ key = key' :=
  String.append_right_inj _

theorem tenantKeysKey_injective (h : tenantKeysKey a = tenantKeysKey b) : a = b :=
  (String.append_right_inj _).mp h

/-- Two ids, each followed by a colon and a key, give the same string only if they are the
same or one is the other, a colon and something more. -/
theorem not_separated_of_append_eq (h : a ++ ":" ++ key = b ++ ":" ++ key') :
    ¬Separated a b := by
  rintro ⟨hne, hleft, hright⟩
  have hlist : a.toList ++ ':' :: key.toList = b.toList ++ ':' :: key'.toList := by
    simpa using congrArg String.toList h
  rcases List.append_eq_append_iff.mp hlist with ⟨rest, hb, hrest⟩ | ⟨rest, ha, hrest⟩
  · cases rest with
    | nil => exact hne (String.toList_injective (by simpa using hb.symm))
    | cons c rest =>
      obtain ⟨rfl, -⟩ := List.cons.inj hrest
      exact hright (String.ofList rest) (String.toList_injective (by simpa using hb))
  · cases rest with
    | nil => exact hne (String.toList_injective (by simpa using ha))
    | cons c rest =>
      obtain ⟨rfl, -⟩ := List.cons.inj hrest
      exact hleft (String.ofList rest) (String.toList_injective (by simpa using ha))

theorem cacheKey_ne (h : Separated a b) (key key' : String) : cacheKey a key ≠ cacheKey b key' := by
  intro heq
  have hids : a ++ ":" ++ key = b ++ ":" ++ key' := by
    unfold cacheKey at heq
    simpa only [String.append_assoc, String.append_right_inj] using heq
  exact not_separated_of_append_eq hids h

theorem embeddingKey_ne (h : Separated a b) (key key' : String) :
    embeddingKey a key ≠ embeddingKey b key' := by
  intro heq
  have hids : a ++ ":" ++ key = b ++ ":" ++ key' := by
    unfold embeddingKey at heq
    simpa only [String.append_assoc, String.append_right_inj] using heq
  exact not_separated_of_append_eq hids h

/-- Separated tenants have no key in common. -/
theorem Separated.not_owns (h : Separated a b) {k : String} (ha : Owns a k) : ¬Owns b k := by
  intro hb
  cases ha with
  | cache key =>
    generalize hk : cacheKey a key = k at hb
    cases hb with
    | cache key' => exact cacheKey_ne h key key' hk
    | embedding key' => exact cacheKey_ne_embeddingKey a b key key' hk
    | tenantKeys => exact cacheKey_ne_tenantKeysKey a b key hk
  | embedding key =>
    generalize hk : embeddingKey a key = k at hb
    cases hb with
    | cache key' => exact cacheKey_ne_embeddingKey b a key' key hk.symm
    | embedding key' => exact embeddingKey_ne h key key' hk
    | tenantKeys => exact embeddingKey_ne_tenantKeysKey a b key hk
  | tenantKeys =>
    generalize hk : tenantKeysKey a = k at hb
    cases hb with
    | cache key' => exact cacheKey_ne_tenantKeysKey b a key' hk.symm
    | embedding key' => exact embeddingKey_ne_tenantKeysKey b a key' hk.symm
    | tenantKeys => exact h.ne (tenantKeysKey_injective hk)

/-- A key of the longer id is one of the shorter. -/
theorem cacheKey_append (b rest key : String) :
    cacheKey (b ++ ":" ++ rest) key = cacheKey b (rest ++ ":" ++ key) := by
  change "semantic_cache:" ++ (b ++ ":" ++ rest) ++ ":" ++ key =
    "semantic_cache:" ++ b ++ ":" ++ (rest ++ ":" ++ key)
  simp only [String.append_assoc]

/-- Different tenants that are not separated have an entry's key in common. -/
theorem exists_cacheKey_eq (hne : a ≠ b) (h : ¬Separated a b) :
    ∃ key key', cacheKey a key = cacheKey b key' := by
  by_contra hno
  refine h ⟨hne, fun rest ha => hno ⟨"", rest ++ ":" ++ "", ?_⟩,
    fun rest hb => hno ⟨rest ++ ":" ++ "", "", ?_⟩⟩
  · subst ha
    exact cacheKey_append b rest ""
  · subst hb
    exact (cacheKey_append a rest "").symm

/-- Two tenants are separated exactly when they have no key in common. -/
theorem separated_iff : Separated a b ↔ ∀ k, Owns a k → ¬Owns b k := by
  refine ⟨fun h k => h.not_owns, fun h => ?_⟩
  have hne : a ≠ b := by
    rintro rfl
    exact h _ .tenantKeys .tenantKeys
  by_contra hsep
  obtain ⟨key, key', heq⟩ := exists_cacheKey_eq hne hsep
  exact h _ (.cache key) (heq ▸ .cache key')

end SemanticCache

end MultiAgent
