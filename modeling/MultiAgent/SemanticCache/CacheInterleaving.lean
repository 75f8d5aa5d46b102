import MultiAgent.Lib.Machine
import MultiAgent.SemanticCache.CacheManager

/-!
# Retrieves next to stores and deletes

Runs of `store`, `delete` and `retrieve` for one tenant, whose steps are the Redis commands
and pipelines, in any order. Nothing expires, as the time of Redis stands still.

What the cache is for is kept next to it : for each key the entry of the last `store`, until
a `delete`, with the number of retrieves that returned it. The cache shows that
(`CacheSystem.Intact`) as long as each `SETEX` of a `retrieve` finds the entry that its
`GET` read, and no longer (`intact_step_iff`).
-/

namespace MultiAgent

namespace SemanticCache

variable {α μ : Type*}

/-- The cache and its retrieves, and for each key the entry that was stored last, if it was
not deleted, with the number of retrieves that returned it. -/
structure CacheSystem (α μ : Type*) where
  cache : TenantCache α μ := {}
  retrieves : List (Retrieve α μ) := []
  stored : Dict String (CacheEntry α μ × ℕ) := .empty

/-- A step. `act` is the next command of a retrieve, with the order of `SMEMBERS`. -/
inductive CacheEvent (α μ : Type*)
  | store (request : CacheRequest μ) (embedding : α) (time : ℚ)
  | delete (key : String)
  | retrieve (query : α) (similarityThreshold : Option ℚ)
  | act (retrieve : ℕ) (order : List String)

/-- The entry with another number of hits. -/
def CacheEntry.withHits (entry : CacheEntry α μ) (hits : ℕ) : CacheEntry α μ :=
  { entry with hitCount := hits }

/-- The entry, but for its hits. -/
def CacheEntry.unhit (entry : CacheEntry α μ) : CacheEntry α μ :=
  entry.withHits 0

/-- A retrieve writes back with the time to live that it read, which is positive. -/
theorem Retrieve.ttl_pos_of_advance {similarity : α → α → Option ℚ} {order : List String}
    {c : TenantCache α μ} {r : Retrieve α μ} {key : String} {score : ℚ} {entry : CacheEntry α μ}
    {seconds : ℤ} (h : (r.advance similarity order c).1 = .setex key score entry seconds) :
    0 < seconds := by
  have hofKeys : ∀ (query : α) (threshold : ℚ) (best : Best) (keys : List String),
      (ofKeys query threshold best keys : Retrieve α μ) ≠ .setex key score entry seconds := by
    intro query threshold best keys
    cases keys with
    | cons key' rest => rintro ⟨⟩
    | nil =>
      simp only [ofKeys, ofBest]
      split
      · split_ifs <;> rintro ⟨⟩
      · rintro ⟨⟩
  cases r with
  | smembers query threshold => exact absurd h (hofKeys _ _ _ _)
  | getEmbedding query threshold key' rest best => exact absurd h (hofKeys _ _ _ _)
  | getEntry key' score' =>
    simp only [advance] at h
    split at h <;> cases h
  | ttl key' score' entry' =>
    simp only [advance] at h
    split_ifs at h with hpos
    · cases h
      exact hpos
  | setex key' score' entry' seconds' => cases h
  | returned response => cases h

/-- A retrieve leaves the cache as it is, but for its `SETEX`. -/
theorem Retrieve.advance_snd (similarity : α → α → Option ℚ) (order : List String)
    (c : TenantCache α μ) (r : Retrieve α μ) :
    (r.advance similarity order c).2 = c ∨
      ∃ key score entry seconds, r = .setex key score entry seconds := by
  cases r with
  | smembers query threshold => exact Or.inl rfl
  | getEmbedding query threshold key rest best => exact Or.inl rfl
  | getEntry key score =>
    left
    simp only [advance]
    cases c.entryOf key <;> rfl
  | ttl key score entry =>
    left
    simp only [advance]
    split_ifs <;> rfl
  | setex key score entry seconds => exact Or.inr ⟨key, score, entry, seconds, rfl⟩
  | returned response => exact Or.inl rfl

/-- The entry that a retrieve returns in its next step, with its key. -/
def Retrieve.returns (c : TenantCache α μ) : Retrieve α μ → Option (String × CacheEntry α μ)
  | .ttl key _ entry => if 0 < Expiry.ttlAt c.now c.entries key then none else some (key, entry)
  | .setex key _ entry _ => some (key, entry)
  | _ => none

namespace CacheSystem

variable [DecidableEq α] [DecidableEq μ] (settings : Settings)
  (similarity : α → α → Option ℚ) (s : CacheSystem α μ)

/-- A retrieve returned `entry` for a key. -/
def countReturn (key : String) (entry : CacheEntry α μ) : Dict String (CacheEntry α μ × ℕ) :=
  match s.stored.get? key with
  | some (current, hits) =>
    if entry.unhit = current.unhit then s.stored.set key (current, hits + 1) else s.stored
  | none => s.stored

/-- One step. -/
def step : CacheEvent α μ → Option (CacheSystem α μ)
  | .store request embedding time =>
    let stored := s.cache.store settings request embedding time
    some { s with
      cache := stored.1
      stored :=
        if stored.2 then
          s.stored.set request.cacheKey (newEntry settings request embedding time, 0)
        else s.stored }
  | .delete key => some { s with cache := s.cache.delete key, stored := s.stored.erase key }
  | .retrieve query similarityThreshold =>
    some { s with
      retrieves := s.retrieves ++
        [.smembers query (effectiveThreshold settings similarityThreshold)] }
  | .act i order =>
    match s.retrieves[i]? with
    | some r =>
      if order.Perm s.cache.members then
        let next := r.advance similarity order s.cache
        some {
          cache := next.2
          retrieves := s.retrieves.set i next.1
          stored :=
            match r.returns s.cache with
            | some (key, entry) => s.countReturn key entry
            | none => s.stored }
      else none
    | none => none

/-- Under each key is the entry that was stored last, if it was not deleted, and its hits are
the retrieves that returned it. -/
def Intact (s : CacheSystem α μ) : Prop :=
  ∀ key, s.cache.entryOf key = (s.stored.get? key).map fun p => p.1.withHits p.2

/-- A retrieve that writes an entry back finds the one that it read. -/
def Unchanged (s : CacheSystem α μ) : CacheEvent α μ → Prop
  | .act i _ =>
    match s.retrieves[i]? with
    | some (.setex key _ entry _) => s.cache.entryOf key = some entry
    | _ => True
  | _ => True

instance (s : CacheSystem α μ) (e : CacheEvent α μ) : Decidable (s.Unchanged e) := by
  unfold Unchanged
  split
  · split <;> infer_instance
  · infer_instance

/-- Nothing is about to expire, and a retrieve sets a time to live that is positive. -/
structure Unexpired (s : CacheSystem α μ) : Prop where
  entries : ∀ key x, s.cache.entries.get? key = some x → s.cache.now + 1000 ≤ x.deadline
  ttl : ∀ key score entry seconds,
    Retrieve.setex key score entry seconds ∈ s.retrieves → 0 < seconds

variable {settings similarity s} {t : CacheSystem α μ} {e : CacheEvent α μ}

omit [DecidableEq α] [DecidableEq μ] in
theorem unhit_eq_iff {entry current : CacheEntry α μ} {hits : ℕ} :
    entry = current.withHits hits ↔ entry.unhit = current.unhit ∧ entry.hitCount = hits := by
  cases entry
  cases current
  simp [CacheEntry.unhit, CacheEntry.withHits]
  tauto

/-- A retrieve that does not write returns an entry that is not stored any more. -/
theorem countReturn_eq (hun : s.Unexpired) (h : s.Intact) {key : String} (entry : CacheEntry α μ)
    (hgone : ¬0 < Expiry.ttlAt s.cache.now s.cache.entries key) :
    s.countReturn key entry = s.stored := by
  unfold countReturn
  cases hstored : s.stored.get? key with
  | none => rfl
  | some p =>
    have hentry : s.cache.entryOf key = some (p.1.withHits p.2) := by
      rw [h key, hstored]
      rfl
    obtain ⟨d, hd, -⟩ := Timed.at?_eq_some.mp hentry
    exact absurd (Expiry.ttlAt_pos hd (hun.entries key _ hd)) hgone

theorem get?_countReturn (key : String) (entry : CacheEntry α μ) (key' : String) :
    (s.countReturn key entry).get? key' =
      if key' = key then (s.stored.get? key).map fun p =>
        (p.1, if entry.unhit = p.1.unhit then p.2 + 1 else p.2)
      else s.stored.get? key' := by
  unfold countReturn
  cases hstored : s.stored.get? key with
  | none =>
    split_ifs with hkey
    · rw [hkey, hstored]
      rfl
    · rfl
  | some p =>
    obtain ⟨current, hits⟩ := p
    dsimp only
    split_ifs with hsame hkey hkey
    · rw [hkey, Dict.get?_set, if_pos rfl]
      simp [hsame]
    · rw [Dict.get?_set_ne _ _ hkey]
    · rw [hkey, hstored]
      simp [hsame]
    · rfl

/-- An entry is written back right when the one that was read is still there. -/
theorem intact_setex_iff (h : s.Intact) {key : String} {entry : CacheEntry α μ} {seconds : ℤ}
    (hseconds : 0 < seconds) {retrieves : List (Retrieve α μ)} :
    Intact { cache := s.cache.setEntry key seconds entry.countHit, retrieves,
             stored := s.countReturn key entry } ↔ s.cache.entryOf key = some entry := by
  have hkey := h key
  have hothers : ∀ key', key' ≠ key → (s.cache.setEntry key seconds entry.countHit).entryOf key' =
      ((s.countReturn key entry).get? key').map fun p => p.1.withHits p.2 := by
    intro key' hne
    rw [TenantCache.entryOf_setEntry hseconds, if_neg hne, get?_countReturn, if_neg hne]
    exact h key'
  have hiff : (s.cache.setEntry key seconds entry.countHit).entryOf key =
      ((s.countReturn key entry).get? key).map (fun p => p.1.withHits p.2) ↔
        s.cache.entryOf key = some entry := by
    rw [TenantCache.entryOf_setEntry hseconds, if_pos rfl, get?_countReturn, if_pos rfl, hkey]
    cases s.stored.get? key with
    | none => simp
    | some p =>
      obtain ⟨current, hits⟩ := p
      simp only [Option.map_some, Option.some_inj]
      rw [unhit_eq_iff, @eq_comm _ (current.withHits hits), unhit_eq_iff]
      have hunhit : entry.countHit.unhit = entry.unhit := rfl
      have hcount : entry.countHit.hitCount = entry.hitCount + 1 := rfl
      rw [hunhit, hcount]
      constructor
      · rintro ⟨hsame, hhits⟩
        rw [if_pos hsame] at hhits
        exact ⟨hsame, Nat.succ.inj hhits⟩
      · rintro ⟨hsame, rfl⟩
        rw [if_pos hsame]
        exact ⟨hsame, rfl⟩
  constructor
  · intro ht
    exact hiff.mp (ht key)
  · intro hentry key'
    by_cases hne : key' = key
    · rw [hne]
      exact hiff.mpr hentry
    · exact hothers key' hne

/-- A step keeps the cache intact exactly when a retrieve that writes an entry back finds the
one that it read. -/
theorem intact_step_iff (hun : s.Unexpired) (h : s.Intact)
    (hst : s.step settings similarity e = some t) : t.Intact ↔ s.Unchanged e := by
  cases e with
  | store request embedding time =>
    obtain rfl := Option.some.inj hst
    refine iff_of_true (fun key => ?_) trivial
    dsimp only
    rw [TenantCache.entryOf_store]
    cases (s.cache.store settings request embedding time).2 with
    | false => simpa using h key
    | true =>
      rw [if_pos rfl, Dict.get?_set]
      split_ifs with hboth hkey hkey
      · rfl
      · exact absurd hboth.2 hkey
      · exact absurd ⟨rfl, hkey⟩ hboth
      · exact h key
  | delete key =>
    obtain rfl := Option.some.inj hst
    refine iff_of_true (fun key' => ?_) trivial
    dsimp only
    rw [TenantCache.entryOf_delete, Dict.get?_erase]
    split_ifs
    · rfl
    · exact h key'
  | retrieve query similarityThreshold =>
    obtain rfl := Option.some.inj hst
    exact iff_of_true h trivial
  | act i order =>
    simp only [step] at hst
    split at hst
    · rename_i r hget
      split_ifs at hst with horder
      obtain rfl := Option.some.inj hst
      simp only [Unchanged, hget]
      cases r with
      | smembers query threshold => exact iff_of_true h trivial
      | getEmbedding query threshold key rest best => exact iff_of_true h trivial
      | getEntry key score =>
        refine iff_of_true ?_ trivial
        simp only [Retrieve.advance]
        cases s.cache.entryOf key <;> exact h
      | ttl key score entry =>
        refine iff_of_true ?_ trivial
        simp only [Retrieve.advance, Retrieve.returns]
        split_ifs with hpos
        · exact h
        · dsimp only
          rw [countReturn_eq hun h entry hpos]
          exact h
      | setex key score entry seconds =>
        exact intact_setex_iff h (hun.ttl key score entry seconds (List.mem_of_getElem? hget))
      | returned response => exact iff_of_true h trivial
    · cases hst

/-! ## Runs -/

omit [DecidableEq α] [DecidableEq μ] in
theorem unexpired_setEntry {c : TenantCache α μ} {key : String} {ttl : ℤ} (httl : 0 < ttl)
    {entry : CacheEntry α μ}
    (h : ∀ key x, c.entries.get? key = some x → c.now + 1000 ≤ x.deadline) :
    ∀ key' x, (c.setEntry key ttl entry).entries.get? key' = some x →
      c.now + 1000 ≤ x.deadline := by
  intro key' x hx
  rw [TenantCache.setEntry, Expiry.get?_setex] at hx
  split_ifs at hx
  · obtain rfl := Option.some.inj hx
    dsimp only
    omega
  · exact h key' x hx

theorem Unexpired.step (h : s.Unexpired) (hst : s.step settings similarity e = some t) :
    t.Unexpired := by
  cases e with
  | store request embedding time =>
    obtain rfl := Option.some.inj hst
    refine ⟨?_, h.ttl⟩
    unfold TenantCache.store
    dsimp only
    split_ifs with httl
    · exact unexpired_setEntry httl h.entries
    · exact h.entries
  | delete key =>
    obtain rfl := Option.some.inj hst
    refine ⟨fun key' x hx => ?_, h.ttl⟩
    have herase : (s.cache.entries.erase key).get? key' =
        if key' = key then none else s.cache.entries.get? key' := Dict.get?_erase ..
    rw [show (s.cache.delete key).entries = s.cache.entries.erase key from rfl, herase] at hx
    split_ifs at hx
    exact h.entries key' x hx
  | retrieve query similarityThreshold =>
    obtain rfl := Option.some.inj hst
    refine ⟨h.entries, fun key score entry seconds hmem => ?_⟩
    rcases List.mem_append.mp hmem with hmem | hmem
    · exact h.ttl key score entry seconds hmem
    · cases List.mem_singleton.mp hmem
  | act i order =>
    simp only [CacheSystem.step] at hst
    split at hst
    · rename_i r hget
      split_ifs at hst with horder
      obtain rfl := Option.some.inj hst
      constructor
      · rcases r.advance_snd similarity order s.cache with hsame | ⟨key, score, entry, seconds, rfl⟩
        · rw [hsame]
          exact h.entries
        · exact unexpired_setEntry (h.ttl key score entry seconds (List.mem_of_getElem? hget))
            h.entries
      · intro key score entry seconds hmem
        rcases List.mem_or_eq_of_mem_set hmem with hmem | heq
        · exact h.ttl key score entry seconds hmem
        · exact Retrieve.ttl_pos_of_advance heq.symm
    · cases hst

end CacheSystem

/-- An empty cache with no retrieve. -/
def cacheMachine [DecidableEq α] [DecidableEq μ] (settings : Settings)
    (similarity : α → α → Option ℚ) : Machine (CacheSystem α μ) (CacheEvent α μ) where
  init := {}
  step s e := s.step settings similarity e

/-- The cache is intact throughout a run exactly when every retrieve that writes an entry
back finds the one that it read. -/
theorem intact_throughout_iff [DecidableEq α] [DecidableEq μ] (settings : Settings)
    (similarity : α → α → Option ℚ) (es : List (CacheEvent α μ)) (s : CacheSystem α μ)
    (h : (cacheMachine settings similarity).Run (fun _ _ => True) es s) :
    (cacheMachine settings similarity).Throughout CacheSystem.Intact es ↔
      (cacheMachine settings similarity).Run CacheSystem.Unchanged es s := by
  have hinit : ({} : CacheSystem α μ).Unexpired ∧ ({} : CacheSystem α μ).Intact :=
    ⟨⟨fun _ _ hx => (nomatch hx), fun _ _ _ _ hmem => absurd hmem List.not_mem_nil⟩, fun _ => rfl⟩
  exact h.throughout_iff_run hinit (fun _ _ _ hun _ hst _ => hun.step hst)
    fun _ _ _ hun hs hst => CacheSystem.intact_step_iff hun hs hst

/-- An entry is stored, retrieved, and deleted. -/
def retrievingRun : List (CacheEvent (List ℚ) Unit) :=
  [.store { cacheKey := "a", content := "text", metadata := () } [1] 0, .retrieve [1] none,
    .act 0 ["a"], .act 0 ["a"], .act 0 ["a"], .act 0 ["a"], .act 0 ["a"], .delete "a"]

theorem intact_throughout_retrieving :
    (cacheMachine {} dot).Throughout CacheSystem.Intact retrievingRun := by
  obtain ⟨s, hrun, -⟩ := Machine.exists_run (cacheMachine {} dot) CacheSystem.Unchanged
    retrievingRun (fun _ => true) (by decide +kernel)
  exact (intact_throughout_iff {} dot retrievingRun s (hrun.mono fun _ _ _ => trivial)).mpr hrun

/-- The entry is deleted before the retrieve writes it back, and is there again. -/
theorem not_intact_throughout :
    ¬∀ (settings : Settings) (similarity : List ℚ → List ℚ → Option ℚ)
      (es : List (CacheEvent (List ℚ) Unit)) (s : CacheSystem (List ℚ) Unit),
      (cacheMachine settings similarity).Run (fun _ _ => True) es s → s.Intact := by
  intro h
  obtain ⟨s, hrun, hback⟩ := Machine.exists_run (cacheMachine {} dot) (fun _ _ => True)
    [.store { cacheKey := "a", content := "text", metadata := () } [1] 0, .retrieve [1] none,
      .act 0 ["a"], .act 0 ["a"], .act 0 ["a"], .act 0 ["a"], .delete "a", .act 0 []]
    (fun s => (s.cache.entryOf "a").isSome && !(s.stored.get? "a").isSome) (by decide +kernel)
  rw [h {} dot _ s hrun "a", Option.isSome_map, Bool.and_not_self] at hback
  exact absurd hback Bool.false_ne_true

end SemanticCache

end MultiAgent
