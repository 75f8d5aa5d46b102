import MultiAgent.Lib.Machine
import MultiAgent.SemanticCache.CacheManager

/-!
# Entries that a retrieve can find

Runs of `store` and `delete` for one tenant with time passing in between. Every `store` sets
the expiry of the set of keys to that of its own entry, so the set may expire before an
entry that was stored earlier, and the key of that entry does not come back
(`indexed_step_iff`).

`Candidates` : the key of every entry that was stored, was not deleted and has not expired is
in the set, and a `retrieve` whose query has the embedding of the entry finds a match. For the
second part no entry may have the empty key, as `retrieve` takes that for no match.
-/

namespace MultiAgent

namespace SemanticCache

variable {α μ : Type*}

/-- The cache, and for each key the embedding and the deadline of the entry that was stored
last, if it was not deleted. -/
structure CacheHistory (α μ : Type*) where
  cache : TenantCache α μ := {}
  stored : Dict String (α × ℤ) := .empty

/-- A step. `wait` lets milliseconds pass. -/
inductive HistoryEvent (α μ : Type*)
  | store (request : CacheRequest μ) (embedding : α) (time : ℚ)
  | delete (key : String)
  | wait (ms : ℕ)

/-- The `retrieve`, with nothing in between its commands, returns an entry. -/
inductive Finds (similarity : α → α → Option ℚ) (order : List String) :
    Retrieve α μ × TenantCache α μ → Prop
  | returned (hit : CacheHit μ) (c : TenantCache α μ) :
      Finds similarity order (.returned (some hit), c)
  | advance {r : Retrieve α μ} {c : TenantCache α μ} :
      Finds similarity order (r.advance similarity order c) → Finds similarity order (r, c)

namespace CacheHistory

variable (settings : Settings) (similarity : α → α → Option ℚ) (s : CacheHistory α μ)

/-- One step. -/
def step : HistoryEvent α μ → CacheHistory α μ
  | .store request embedding time =>
    let result := s.cache.store settings request embedding time
    { cache := result.1
      stored :=
        if result.2 then
          s.stored.set request.cacheKey
            (embedding, s.cache.now + 1000 * effectiveTtl settings request.ttlSeconds)
        else s.stored }
  | .delete key => { cache := s.cache.delete key, stored := s.stored.erase key }
  | .wait ms => { s with cache := { s.cache with now := s.cache.now + ms } }

/-- The key of every entry that is stored and has not expired is in the set. -/
def Indexed : Prop :=
  ∀ key embedding deadline, s.stored.get? key = some (embedding, deadline) →
    s.cache.now ≤ deadline → key ∈ s.cache.members

/-- Every entry that is stored and has not expired is a candidate : its key is in the set, and
a query with its embedding finds a match, if that embedding is similar enough to itself. -/
def Candidates : Prop :=
  ∀ key embedding deadline, s.stored.get? key = some (embedding, deadline) →
    s.cache.now ≤ deadline → key ∈ s.cache.members ∧
      ∀ order similarityThreshold score, order.Perm s.cache.members →
        similarity embedding embedding = some score → 0 < score →
        effectiveThreshold settings similarityThreshold ≤ score →
          Finds similarity order
            (.smembers embedding (effectiveThreshold settings similarityThreshold), s.cache)

/-- `ttl_seconds` is positive. -/
def PositiveTtl : HistoryEvent α μ → Prop
  | .store request _ _ => 0 < request.ttlSeconds.getD settings.defaultTtlSeconds
  | _ => True

/-- The set of keys does not expire before an entry that is stored. -/
def InTime : HistoryEvent α μ → Prop
  | .wait ms => ∀ p ∈ s.stored.items, s.cache.now + ms ≤ p.2.2 →
    ∀ keys ∈ s.cache.keys, s.cache.now + ms ≤ keys.deadline
  | _ => True

/-- The key is not empty, but for an embedding that is similar to no other. -/
def Named : HistoryEvent α μ → Prop
  | .store request embedding _ =>
    request.cacheKey = "" → ∀ query score, similarity query embedding = some score → score ≤ 0
  | _ => True

/-- In particular, no key is empty. -/
def HasKey : HistoryEvent α μ → Prop
  | .store request _ _ => request.cacheKey ≠ ""
  | _ => True

/-- The cache has the embeddings and deadlines of the stored entries, none of which is there
if no time to live can be positive. -/
structure Recorded : Prop where
  entries : ∀ key, (s.cache.entries.get? key).map (fun x => (x.value.embedding, x.deadline)) =
    s.stored.get? key
  embeddings : ∀ key, (s.cache.embeddings.get? key).map (fun x => (x.value, x.deadline)) =
    s.stored.get? key
  capped : settings.maxTtlSeconds ≤ 0 → ∀ key, s.stored.get? key = none

instance (e : HistoryEvent α μ) : Decidable (PositiveTtl settings e) := by
  unfold PositiveTtl
  split <;> infer_instance

instance (s : CacheHistory α μ) (e : HistoryEvent α μ) : Decidable (s.InTime e) := by
  unfold InTime
  split <;> infer_instance

instance (e : HistoryEvent α μ) : Decidable (HasKey e) := by
  unfold HasKey
  split <;> infer_instance

variable {settings similarity s} {e : HistoryEvent α μ}

theorem HasKey.named (h : HasKey e) : Named similarity e := by
  cases e with
  | store request embedding time => exact fun hempty => absurd hempty h
  | delete key => trivial
  | wait ms => trivial

/-! ## The set of keys -/

theorem step_store_of_pos {request : CacheRequest μ} (embedding : α) (time : ℚ)
    (httl : 0 < effectiveTtl settings request.ttlSeconds) :
    s.step settings (.store request embedding time) =
      let ttl := effectiveTtl settings request.ttlSeconds
      { cache := { s.cache with
          entries := Expiry.setex s.cache.now ttl s.cache.entries request.cacheKey
            (newEntry settings request embedding time)
          embeddings := Expiry.setex s.cache.now ttl s.cache.embeddings request.cacheKey embedding
          keys := Expiry.addExpire s.cache.now ttl s.cache.keys request.cacheKey }
        stored := s.stored.set request.cacheKey (embedding, s.cache.now + 1000 * ttl) } := by
  simp [step, TenantCache.store, TenantCache.setEntry, httl]

theorem step_store_of_nonpos {request : CacheRequest μ} (embedding : α) (time : ℚ)
    (httl : ¬0 < effectiveTtl settings request.ttlSeconds) :
    s.step settings (.store request embedding time) =
      { s with cache := { s.cache with keys := none } } := by
  simp [step, TenantCache.store, Expiry.addExpire, httl]

/-- A refused `SETEX` means that no entry can be stored. -/
theorem max_nonpos {request : CacheRequest μ} {embedding : α} {time : ℚ}
    (hpos : PositiveTtl settings (.store request embedding time))
    (httl : ¬0 < effectiveTtl settings request.ttlSeconds) : settings.maxTtlSeconds ≤ 0 := by
  rw [effectiveTtl_eq settings hpos] at httl
  by_contra hmax
  exact httl (lt_min hpos (not_le.mp hmax))

theorem Recorded.step (h : s.Recorded settings) (hpos : PositiveTtl settings e) :
    (s.step settings e).Recorded settings := by
  cases e with
  | store request embedding time =>
    by_cases httl : 0 < effectiveTtl settings request.ttlSeconds
    · rw [step_store_of_pos embedding time httl]
      refine ⟨fun key => ?_, fun key => ?_, fun hmax => ?_⟩
      · dsimp only
        rw [Expiry.get?_setex, Dict.get?_set]
        split_ifs
        · rfl
        · exact h.entries key
      · dsimp only
        rw [Expiry.get?_setex, Dict.get?_set]
        split_ifs
        · rfl
        · exact h.embeddings key
      · rw [effectiveTtl_eq settings hpos] at httl
        exact absurd (lt_min_iff.mp httl).2 (not_lt.mpr hmax)
    · rw [step_store_of_nonpos embedding time httl]
      exact ⟨h.entries, h.embeddings, h.capped⟩
  | delete key =>
    refine ⟨fun key' => ?_, fun key' => ?_, fun hmax key' => ?_⟩
    · have hkey := h.entries key'
      simp only [CacheHistory.step, TenantCache.delete, Dict.get?_erase]
      split_ifs
      · rfl
      · exact hkey
    · have hkey := h.embeddings key'
      simp only [CacheHistory.step, TenantCache.delete, Dict.get?_erase]
      split_ifs
      · rfl
      · exact hkey
    · simp only [CacheHistory.step, Dict.get?_erase]
      split_ifs
      · rfl
      · exact h.capped hmax key'
  | wait ms => exact ⟨h.entries, h.embeddings, h.capped⟩

/-- A step keeps the keys of the stored entries in the set exactly when the set does not
expire before one of them. -/
theorem indexed_step_iff (hrec : s.Recorded settings) (h : s.Indexed)
    (hpos : PositiveTtl settings e) : (s.step settings e).Indexed ↔ s.InTime e := by
  cases e with
  | store request embedding time =>
    refine iff_of_true ?_ trivial
    by_cases httl : 0 < effectiveTtl settings request.ttlSeconds
    · rw [step_store_of_pos embedding time httl]
      intro key embedding' deadline hstored hlive
      refine (Expiry.mem_membersAt_addExpire httl s.cache.keys).mpr ?_
      dsimp only at hstored
      rw [Dict.get?_set] at hstored
      split_ifs at hstored with hkey
      · exact Or.inl hkey
      · exact Or.inr (h key embedding' deadline hstored hlive)
    · rw [step_store_of_nonpos embedding time httl]
      intro key embedding' deadline hstored
      have hnone := hrec.capped (max_nonpos hpos httl) key
      exact absurd (hnone.symm.trans hstored) (Option.some_ne_none _).symm
  | delete key =>
    refine iff_of_true (fun key' embedding deadline hstored hlive => ?_) trivial
    refine Expiry.mem_membersAt_remove.mpr ?_
    simp only [step, Dict.get?_erase] at hstored
    split_ifs at hstored with hkey
    exact ⟨hkey, h key' embedding deadline hstored hlive⟩
  | wait ms =>
    constructor
    · rintro ht ⟨key, embedding, deadline⟩ hp hlive keys hkeys
      obtain ⟨l, d, hset, hle, -⟩ :=
        Expiry.mem_membersAt.mp (ht key embedding deadline (Dict.mem_items.mp hp) hlive)
      obtain rfl := Option.some.inj (hset.symm.trans hkeys)
      exact hle
    · intro hin key embedding deadline hstored hlive
      have hnow : s.cache.now ≤ deadline :=
        (le_add_of_nonneg_right (Int.natCast_nonneg ms)).trans hlive
      obtain ⟨l, d, hset, -, hmem⟩ :=
        Expiry.mem_membersAt.mp (h key embedding deadline hstored hnow)
      refine Expiry.mem_membersAt.mpr ⟨l, d, hset, ?_, hmem⟩
      exact hin _ (Dict.mem_items.mpr hstored) hlive _ hset

/-! ## The match -/

/-- The embedding of an entry that is stored under the empty key is similar to no other. -/
def Unnamed (similarity : α → α → Option ℚ) (s : CacheHistory α μ) : Prop :=
  ∀ embedding deadline, s.stored.get? "" = some (embedding, deadline) →
    ∀ query score, similarity query embedding = some score → score ≤ 0

theorem Unnamed.step (h : s.Unnamed similarity) (hnamed : Named similarity e) :
    (s.step settings e).Unnamed similarity := by
  cases e with
  | store request embedding time =>
    by_cases httl : 0 < effectiveTtl settings request.ttlSeconds
    · rw [step_store_of_pos embedding time httl]
      intro embedding' deadline hstored
      dsimp only at hstored
      rw [Dict.get?_set] at hstored
      split_ifs at hstored with hkey
      · obtain ⟨rfl, -⟩ := Prod.mk.inj (Option.some.inj hstored)
        exact hnamed hkey.symm
      · exact h embedding' deadline hstored
    · rw [step_store_of_nonpos embedding time httl]
      exact h
  | delete key =>
    intro embedding deadline hstored
    simp only [CacheHistory.step, Dict.get?_erase] at hstored
    split_ifs at hstored
    exact h embedding deadline hstored
  | wait ms => exact h

/-- What was found so far has a key that is not empty, and its entry is there. -/
structure Sound (c : TenantCache α μ) (best : Best) : Prop where
  nonneg : 0 ≤ best.similarity
  start : best.key = none → best.similarity = 0
  found : ∀ key, best.key = some key → key ≠ "" ∧ (c.entryOf key).isSome = true

/-- The embeddings that are there are those of entries that are there. -/
theorem Recorded.isSome_entryOf (h : s.Recorded settings) {key : String} {embedding : α}
    (hget : s.cache.embeddingOf key = some embedding) :
    (s.cache.entryOf key).isSome = true ∧
      ∃ deadline, s.stored.get? key = some (embedding, deadline) := by
  obtain ⟨deadline, hembedding, hlive⟩ := Timed.at?_eq_some.mp hget
  have hstored : s.stored.get? key = some (embedding, deadline) := by
    rw [← h.embeddings key, hembedding]
    rfl
  have hentry := h.entries key
  rw [hstored] at hentry
  obtain ⟨⟨entry, d⟩, hget', heq⟩ := Option.map_eq_some_iff.mp hentry
  have hsome : s.cache.entryOf key = some entry :=
    Timed.at?_eq_some.mpr ⟨d, hget', hlive.trans_eq (Prod.mk.inj heq).2.symm⟩
  exact ⟨by rw [hsome]; rfl, deadline, hstored⟩

theorem Recorded.embeddingOf (h : s.Recorded settings) {key : String} {embedding : α}
    {deadline : ℤ} (hstored : s.stored.get? key = some (embedding, deadline))
    (hlive : s.cache.now ≤ deadline) : s.cache.embeddingOf key = some embedding := by
  have hembedding := h.embeddings key
  rw [hstored] at hembedding
  obtain ⟨⟨embedding', d⟩, hget, heq⟩ := Option.map_eq_some_iff.mp hembedding
  obtain ⟨rfl, rfl⟩ := Prod.mk.inj heq
  exact Timed.at?_eq_some.mpr ⟨_, hget, hlive⟩

theorem Sound.see (hrec : s.Recorded settings) (hun : s.Unnamed similarity) {best : Best}
    (h : Sound s.cache best) (query : α) (threshold : ℚ) (key : String) :
    Sound s.cache (best.see similarity query threshold key (s.cache.embeddingOf key)) := by
  unfold Best.see
  split
  · rename_i score hscore
    split_ifs with hbetter
    · obtain ⟨embedding, hget, hsim⟩ := Option.bind_eq_some_iff.mp hscore
      obtain ⟨hentry, deadline, hstored⟩ := hrec.isSome_entryOf hget
      have hpos : 0 < score := h.nonneg.trans_lt hbetter.1
      refine ⟨hpos.le, nofun, fun key' heq => ?_⟩
      obtain rfl := Option.some.inj heq
      refine ⟨fun hempty => ?_, hentry⟩
      rw [hempty] at hstored
      exact absurd (hun embedding deadline hstored query score hsim) (not_le.mpr hpos)
    · exact h
  · exact h

/-- A `retrieve` whose best match is there returns it. -/
theorem finds_ofBest {best : Best} (h : Sound s.cache best) (order : List String)
    (hbest : best.key.isSome = true) :
    Finds similarity order (Retrieve.ofBest best, s.cache) := by
  obtain ⟨key, hkey⟩ := Option.isSome_iff_exists.mp hbest
  obtain ⟨hne, hentry⟩ := h.found key hkey
  obtain ⟨entry, hentry⟩ := Option.isSome_iff_exists.mp hentry
  have hof : (Retrieve.ofBest best : Retrieve α μ) = .getEntry key best.similarity := by
    simp [Retrieve.ofBest, hkey, hne]
  rw [hof]
  refine .advance ?_
  simp only [Retrieve.advance, hentry]
  refine .advance ?_
  simp only [Retrieve.advance]
  split_ifs
  · exact .advance (.returned _ _)
  · exact .returned _ _

/-- So does one that has a match still to come. -/
theorem finds_ofKeys (hrec : s.Recorded settings) (hun : s.Unnamed similarity)
    (order : List String) {query embedding : α} {threshold score : ℚ} {target : String}
    (htarget : s.cache.embeddingOf target = some embedding)
    (hscore : similarity query embedding = some score) (hpos : 0 < score)
    (hthreshold : threshold ≤ score) (keys : List String) {best : Best}
    (h : Sound s.cache best) (hbest : best.key.isSome = true ∨ target ∈ keys) :
    Finds similarity order (Retrieve.ofKeys query threshold best keys, s.cache) := by
  induction keys generalizing best with
  | nil =>
    refine finds_ofBest h order (hbest.resolve_right List.not_mem_nil)
  | cons key rest ih =>
    refine .advance (ih (h.see hrec hun query threshold key) ?_)
    by_cases hsome : best.key.isSome = true
    · refine Or.inl ?_
      unfold Best.see
      split
      · split_ifs
        · rfl
        · exact hsome
      · exact hsome
    · rcases List.mem_cons.mp (hbest.resolve_left hsome) with rfl | hrest
      · refine Or.inl ?_
        have hzero : best.similarity = 0 := h.start (by simpa using hsome)
        simp [Best.see, htarget, hscore, hzero, hpos, hthreshold]
      · exact Or.inr hrest

/-- In a state whose keys are in the set, every entry that has not expired is a candidate. -/
theorem candidates_of_indexed (hrec : s.Recorded settings) (hun : s.Unnamed similarity)
    (h : s.Indexed) : s.Candidates settings similarity := by
  intro key embedding deadline hstored hlive
  have hmem := h key embedding deadline hstored hlive
  refine ⟨hmem, fun order similarityThreshold score horder hscore hpos hthreshold => ?_⟩
  refine .advance (finds_ofKeys hrec hun order (hrec.embeddingOf hstored hlive) hscore hpos
    hthreshold order ⟨le_rfl, fun _ => rfl, nofun⟩ (Or.inr (horder.mem_iff.mpr hmem)))

end CacheHistory

/-- An empty cache. -/
def historyMachine (α μ : Type*) (settings : Settings) :
    Machine (CacheHistory α μ) (HistoryEvent α μ) where
  init := {}
  step s e := some (s.step settings e)

open CacheHistory in
/-- Let all times to live be positive. The key of every entry that is stored and has not
expired is in the set throughout a run exactly when the set never expires before an entry, and if
then no entry has the empty key, each of them is a candidate throughout the run. -/
theorem candidates_throughout (settings : Settings) (similarity : α → α → Option ℚ)
    (es : List (HistoryEvent α μ)) (s : CacheHistory α μ)
    (h : (historyMachine α μ settings).Run (fun _ e => PositiveTtl settings e) es s) :
    ((historyMachine α μ settings).Throughout Indexed es ↔
      (historyMachine α μ settings).Run (fun s e => PositiveTtl settings e ∧ s.InTime e) es s) ∧
    ((historyMachine α μ settings).Run
        (fun s e => PositiveTtl settings e ∧ s.InTime e ∧ Named similarity e) es s →
      (historyMachine α μ settings).Throughout (Candidates settings similarity) es) := by
  have hrecorded : (historyMachine α μ settings).init.Recorded settings :=
    ⟨fun _ => rfl, fun _ => rfl, fun _ _ => rfl⟩
  have hindexed : (historyMachine α μ settings).init.Indexed :=
    fun _ _ _ hstored => nomatch hstored
  constructor
  · refine h.throughout_iff (I := fun s => s.Recorded settings) ⟨hrecorded, hindexed⟩
      (fun s e t hrec _ hpos hst _ => ?_) fun s e t hrec hs hpos hst => ?_
    · obtain rfl := Option.some.inj hst
      exact hrec.step hpos
    · obtain rfl := Option.some.inj hst
      exact indexed_step_iff hrec hs hpos
  · intro hrun fs u hfs hu
    obtain ⟨v, hv⟩ := hrun.of_prefix hfs
    obtain rfl := hu.unique hv
    have hunnamed : (historyMachine α μ settings).init.Unnamed similarity :=
      fun _ _ hstored => nomatch hstored
    have hall : u.Recorded settings ∧ u.Indexed ∧ u.Unnamed similarity := by
      refine hv.invariant (I := fun u => u.Recorded settings ∧ u.Indexed ∧ u.Unnamed similarity)
        ⟨hrecorded, hindexed, hunnamed⟩ ?_
      rintro s e t ⟨hrec, hs, hun⟩ ⟨hpos, hin, hnamed⟩ hst
      obtain rfl := Option.some.inj hst
      exact ⟨hrec.step hpos, (indexed_step_iff hrec hs hpos).mpr hin, hun.step hnamed⟩
    exact candidates_of_indexed hall.1 hall.2.2 hall.2.1

/-- Two entries, the second of which is deleted after the first one has expired. -/
def expiringRun : List (HistoryEvent (List ℚ) Unit) :=
  [.store { cacheKey := "a", content := "one", ttlSeconds := some 100, metadata := () } [1, 0] 0,
    .wait 50000,
    .store { cacheKey := "b", content := "two", ttlSeconds := some 100, metadata := () } [0, 1] 50,
    .wait 60000, .delete "b"]

theorem candidates_throughout_expiring :
    (historyMachine (List ℚ) Unit {}).Throughout (CacheHistory.Candidates {} dot) expiringRun := by
  obtain ⟨s, hrun, -⟩ := Machine.exists_run (historyMachine (List ℚ) Unit {})
    (fun s e => CacheHistory.PositiveTtl {} e ∧ s.InTime e ∧ CacheHistory.HasKey e) expiringRun
    (fun _ => true) (by decide +kernel)
  exact (candidates_throughout {} dot expiringRun s (hrun.mono fun _ _ h => h.1)).2
    (hrun.mono fun _ _ h => ⟨h.1, h.2.1, h.2.2.named⟩)

/-- The second entry takes the set with it when it expires, and the first one is not found. -/
theorem not_candidates_throughout :
    ¬∀ (settings : Settings) (similarity : List ℚ → List ℚ → Option ℚ)
      (es : List (HistoryEvent (List ℚ) Unit)) (s : CacheHistory (List ℚ) Unit),
      (historyMachine (List ℚ) Unit settings).Run
        (fun _ e => CacheHistory.PositiveTtl settings e) es s →
        s.Candidates settings similarity := by
  intro h
  obtain ⟨s, hrun, hlost⟩ := Machine.exists_run (historyMachine (List ℚ) Unit {})
    (fun _ e => CacheHistory.PositiveTtl {} e)
    [.store { cacheKey := "a", content := "one", ttlSeconds := some 100, metadata := () } [1, 0] 0,
      .store { cacheKey := "b", content := "two", ttlSeconds := some 1, metadata := () } [0, 1] 0,
      .wait 2000]
    (fun s => (s.stored.get? "a").any (fun p => s.cache.now ≤ p.2) && s.cache.members.isEmpty)
    (by decide +kernel)
  rw [Bool.and_eq_true, Option.any_eq_true, List.isEmpty_iff] at hlost
  obtain ⟨⟨⟨embedding, deadline⟩, hstored, hlive⟩, hempty⟩ := hlost
  have hmem : "a" ∈ s.cache.members :=
    (h {} dot _ s hrun "a" embedding deadline hstored (of_decide_eq_true hlive)).1
  rw [hempty] at hmem
  exact absurd hmem List.not_mem_nil

end SemanticCache

end MultiAgent
