import Mathlib.Data.List.Induction
import Mathlib.Logic.Function.Iterate
import MultiAgent.SemanticCache.CacheManager

/-!
# The entry that a retrieve returns

`retrieve` of the semantic cache while nothing else happens (`returned_retrieve`). The loop takes
the first key of the greatest similarity, if that is positive and reaches the threshold
(`bestOf_eq_iff`), and looks for the entry of that key only. A threshold of zero is replaced by
the one of the settings.

So a `retrieve` does not return the best of the live entries if that is not similar at all, if
its key is no longer in the set or is empty, if the threshold is zero and the other one is
higher, or if a key whose entry has expired comes in its way : `retrieve_best_iff` has the exact
condition.
-/

namespace MultiAgent

namespace SemanticCache

variable {α μ : Type*} (settings : Settings) (similarity : α → α → Option ℚ) (c : TenantCache α μ)
  (order : List String) (query : α)

/-! ## The loop -/

/-- The similarity of the embedding under a key. -/
def scoreOf (key : String) : Option ℚ :=
  (c.embeddingOf key).bind (similarity query)

/-- `best_match` and `best_similarity` after the loop. -/
def bestOf (threshold : ℚ) (best : Best) (keys : List String) : Best :=
  keys.foldl (fun best key => best.see similarity query threshold key (c.embeddingOf key)) best

/-- The first key with the greatest similarity, which is positive and reaches the threshold. -/
structure FirstBest (threshold : ℚ) (key : String) (score : ℚ) : Prop where
  pos : 0 < score
  reaches : threshold ≤ score
  first : ∃ before after, order = before ++ key :: after ∧
    scoreOf similarity c query key = some score ∧
    (∀ key' ∈ before, ∀ x, scoreOf similarity c query key' = some x → x < score) ∧
    ∀ key' ∈ after, ∀ x, scoreOf similarity c query key' = some x → x ≤ score

variable {similarity c order query} {threshold : ℚ}

theorem see_eq (best : Best) (key : String) :
    best.see similarity query threshold key (c.embeddingOf key) =
      match scoreOf similarity c query key with
      | some x => if best.similarity < x ∧ threshold ≤ x then ⟨some key, x⟩ else best
      | none => best :=
  rfl

/-- Keys that are not better change nothing. -/
theorem bestOf_eq_self {best : Best} {keys : List String}
    (h : ∀ key ∈ keys, ∀ x, scoreOf similarity c query key = some x →
      x ≤ best.similarity ∨ x < threshold) :
    bestOf similarity c query threshold best keys = best := by
  induction keys with
  | nil => rfl
  | cons key rest ih =>
    rw [List.forall_mem_cons] at h
    have hkey : best.see similarity query threshold key (c.embeddingOf key) = best := by
      rw [see_eq]
      split
      · rename_i x hx
        refine if_neg fun hbetter => ?_
        exact (h.1 x hx).elim (not_le.mpr hbetter.1) (not_lt.mpr hbetter.2)
      · rfl
    rw [bestOf, List.foldl_cons, hkey]
    exact ih h.2

/-- A bound of the similarities bounds what is found. -/
theorem similarity_bestOf_lt {best : Best} {keys : List String} {bound : ℚ}
    (hbest : best.similarity < bound)
    (h : ∀ key ∈ keys, ∀ x, scoreOf similarity c query key = some x → x < bound) :
    (bestOf similarity c query threshold best keys).similarity < bound := by
  induction keys generalizing best with
  | nil => exact hbest
  | cons key rest ih =>
    rw [List.forall_mem_cons] at h
    rw [bestOf, List.foldl_cons]
    refine ih ?_ h.2
    rw [see_eq]
    split
    · rename_i x hx
      split_ifs
      · exact h.1 x hx
      · exact hbest
    · exact hbest

/-- No similarity is above that of the first of the best. -/
theorem FirstBest.le {key : String} {score : ℚ}
    (h : FirstBest similarity c order query threshold key score) :
    ∀ key' ∈ order, ∀ x, scoreOf similarity c query key' = some x → x ≤ score := by
  obtain ⟨before, after, rfl, hkey, hbefore, hafter⟩ := h.first
  intro key' hmem x hx
  rcases List.mem_append.mp hmem with hmem | hmem
  · exact (hbefore key' hmem x hx).le
  rcases List.mem_cons.mp hmem with rfl | hmem
  · exact (Option.some.inj (hx.symm.trans hkey)).le
  · exact hafter key' hmem x hx

/-- The loop finds the first of the best. -/
theorem FirstBest.bestOf_eq {key : String} {score : ℚ}
    (h : FirstBest similarity c order query threshold key score) :
    bestOf similarity c query threshold {} order = ⟨some key, score⟩ := by
  obtain ⟨before, after, rfl, hkey, hbefore, hafter⟩ := h.first
  have hlt : (bestOf similarity c query threshold {} before).similarity < score :=
    similarity_bestOf_lt h.pos hbefore
  have hsee : (bestOf similarity c query threshold {} before).see similarity query threshold key
      (c.embeddingOf key) = ⟨some key, score⟩ := by
    rw [see_eq, hkey]
    exact if_pos ⟨hlt, h.reaches⟩
  rw [bestOf, List.foldl_append, List.foldl_cons]
  exact (congrArg (after.foldl _) hsee).trans
    (bestOf_eq_self fun key' hmem x hx => Or.inl (hafter key' hmem x hx))

/-- One more key that is not better. -/
theorem FirstBest.concat {key : String} {score : ℚ}
    (h : FirstBest similarity c order query threshold key score) {key' : String}
    (hkey' : ∀ x, scoreOf similarity c query key' = some x → x ≤ score) :
    FirstBest similarity c (order ++ [key']) query threshold key score := by
  obtain ⟨before, after, rfl, hkey, hbefore, hafter⟩ := h.first
  refine ⟨h.pos, h.reaches, before, after ++ [key'], by simp, hkey, hbefore, fun key'' hmem => ?_⟩
  rcases List.mem_append.mp hmem with hmem | hmem
  · exact hafter key'' hmem
  · obtain rfl := List.mem_singleton.mp hmem
    exact hkey'

/-- If nothing is similar enough, the loop finds nothing; otherwise it finds the first of the
best. -/
theorem bestOf_cases (similarity : α → α → Option ℚ) (c : TenantCache α μ) (query : α)
    (threshold : ℚ) (keys : List String) :
    (bestOf similarity c query threshold {} keys = {} ∧
      ∀ key ∈ keys, ∀ x, scoreOf similarity c query key = some x → x ≤ 0 ∨ x < threshold) ∨
      ∃ key score, FirstBest similarity c keys query threshold key score := by
  induction keys using List.reverseRecOn with
  | nil => exact Or.inl ⟨rfl, fun key hkey => absurd hkey List.not_mem_nil⟩
  | append_singleton keys key ih =>
    by_cases hbetter : ∃ x, scoreOf similarity c query key = some x ∧
        (bestOf similarity c query threshold {} keys).similarity < x ∧ threshold ≤ x
    · obtain ⟨x, hx, hlt, hreaches⟩ := hbetter
      refine Or.inr ⟨key, x, ?_⟩
      rcases ih with ⟨hnone, hall⟩ | ⟨key', score, hfirst⟩
      · rw [hnone] at hlt
        refine ⟨hlt, hreaches, keys, [], rfl, hx, fun key' hmem y hy => ?_, by simp⟩
        exact (hall key' hmem y hy).elim (fun h => h.trans_lt hlt) fun h => h.trans_le hreaches
      · rw [hfirst.bestOf_eq] at hlt
        exact ⟨hfirst.pos.trans hlt, hreaches, keys, [], rfl, hx,
          fun key' hmem y hy => (hfirst.le key' hmem y hy).trans_lt hlt, by simp⟩
    · have hnot : ∀ x, scoreOf similarity c query key = some x →
          x ≤ (bestOf similarity c query threshold {} keys).similarity ∨ x < threshold := by
        intro x hx
        by_contra hx'
        rw [not_or, not_le, not_lt] at hx'
        exact hbetter ⟨x, hx, hx'⟩
      rcases ih with ⟨hnone, hall⟩ | ⟨key', score, hfirst⟩
      · rw [hnone] at hnot
        have hconcat : ∀ key' ∈ keys ++ [key], ∀ x, scoreOf similarity c query key' = some x →
            x ≤ 0 ∨ x < threshold := by
          intro key' hmem
          rcases List.mem_append.mp hmem with hmem | hmem
          · exact hall key' hmem
          · obtain rfl := List.mem_singleton.mp hmem
            exact hnot
        exact Or.inl ⟨bestOf_eq_self hconcat, hconcat⟩
      · rw [hfirst.bestOf_eq] at hnot
        exact Or.inr ⟨key', score, hfirst.concat fun x hx =>
          (hnot x hx).elim id fun h => (h.trans_le hfirst.reaches).le⟩

/-- The loop finds a key if and only if it is the first of the best. -/
theorem bestOf_eq_iff {key : String} {score : ℚ} :
    bestOf similarity c query threshold {} order = ⟨some key, score⟩ ↔
      FirstBest similarity c order query threshold key score := by
  constructor
  · intro h
    rcases bestOf_cases similarity c query threshold order with ⟨hnone, _⟩ | ⟨key', score', hfirst⟩
    · rw [hnone] at h
      cases h
    · rw [hfirst.bestOf_eq] at h
      obtain ⟨hkey, rfl⟩ := Best.mk.inj h
      obtain rfl := Option.some.inj hkey
      exact hfirst
  · exact FirstBest.bestOf_eq

/-! ## The whole retrieve -/

variable (similarity c order query)

/-- The next command, with nothing before it. -/
def alone (rc : Retrieve α μ × TenantCache α μ) : Retrieve α μ × TenantCache α μ :=
  rc.1.advance similarity order rc.2

/-- What `retrieve` returns if nothing comes between its commands : the loop has one for each
key, and four others are enough. -/
def retrieve (similarityThreshold : Option ℚ) : Option (CacheHit μ) :=
  match ((alone similarity order)^[order.length + 4]
    (.smembers query (effectiveThreshold settings similarityThreshold), c)).1 with
  | .returned response => response
  | _ => none

/-- What it returns for a best match. -/
def responseOf (best : Best) : Option (CacheHit μ) :=
  match best.key with
  | some key =>
    if key = "" then none else (c.entryOf key).map fun entry => entry.hit best.similarity
  | none => none

variable {similarity c order query}

theorem iterate_ofKeys (keys : List String) (best : Best) :
    (alone similarity order)^[keys.length] (Retrieve.ofKeys query threshold best keys, c) =
      (Retrieve.ofBest (bestOf similarity c query threshold best keys), c) := by
  induction keys generalizing best with
  | nil => rfl
  | cons key rest ih =>
    rw [List.length_cons, Function.iterate_succ_apply]
    exact ih _

/-- After the loop three commands are enough. -/
theorem iterate_ofBest (best : Best) :
    ((alone similarity order)^[3] (Retrieve.ofBest best, c)).1 =
      .returned (responseOf c best) := by
  unfold Retrieve.ofBest responseOf
  cases best.key with
  | none => rfl
  | some key =>
    dsimp only
    split_ifs with hkey
    · rfl
    cases hentry : c.entryOf key with
    | none => simp [alone, Retrieve.advance, hentry]
    | some entry =>
      simp only [Function.iterate_succ_apply, Function.iterate_zero, id, alone, Retrieve.advance,
        hentry, Option.map_some]
      split_ifs <;> rfl

/-- The commands end with the answer. -/
theorem returned_retrieve (similarityThreshold : Option ℚ) :
    ((alone similarity order)^[order.length + 4]
      (.smembers query (effectiveThreshold settings similarityThreshold), c)).1 =
      .returned (retrieve settings similarity c order query similarityThreshold) ∧
    retrieve settings similarity c order query similarityThreshold = responseOf c
      (bestOf similarity c query (effectiveThreshold settings similarityThreshold) {} order) := by
  have hrun : ((alone similarity order)^[order.length + 4]
      (.smembers query (effectiveThreshold settings similarityThreshold), c)).1 =
      .returned (responseOf c
        (bestOf similarity c query (effectiveThreshold settings similarityThreshold) {}
          order)) := by
    rw [Nat.add_comm, show 4 = 3 + 1 from rfl, Nat.add_right_comm, Function.iterate_succ_apply,
      Function.iterate_add_apply, alone, Retrieve.advance]
    dsimp only
    rw [iterate_ofKeys, iterate_ofBest]
  unfold retrieve
  rw [hrun]
  exact ⟨rfl, rfl⟩

/-- An entry is live if neither it nor its embedding has expired. Its similarity is that of the
embedding. -/
def LiveEntry (similarity : α → α → Option ℚ) (c : TenantCache α μ) (query : α) (key : String)
    (entry : CacheEntry α μ) (score : ℚ) : Prop :=
  c.entryOf key = some entry ∧ scoreOf similarity c query key = some score

/-- `retrieve` finds something if and only if a live entry has the similarity
`similarityThreshold`, and then it is one of the greatest similarity, which is its score. -/
def RetrievesBest (settings : Settings) (similarity : α → α → Option ℚ) (c : TenantCache α μ)
    (order : List String) (query : α) (similarityThreshold : ℚ) : Prop :=
  ((retrieve settings similarity c order query (some similarityThreshold)).isSome = true ↔
    ∃ key entry score, LiveEntry similarity c query key entry score ∧
      similarityThreshold ≤ score) ∧
  ∀ hit, retrieve settings similarity c order query (some similarityThreshold) = some hit →
    ∃ key entry score, LiveEntry similarity c query key entry score ∧ hit = entry.hit score ∧
      ∀ key' entry' score', LiveEntry similarity c query key' entry' score' → score' ≤ score

theorem retrieve_eq_some_iff {similarityThreshold : Option ℚ} {hit : CacheHit μ} :
    retrieve settings similarity c order query similarityThreshold = some hit ↔
      ∃ key entry score, FirstBest similarity c order query
        (effectiveThreshold settings similarityThreshold) key score ∧
        key ≠ "" ∧ c.entryOf key = some entry ∧ hit = entry.hit score := by
  rw [(returned_retrieve settings similarityThreshold).2]
  generalize effectiveThreshold settings similarityThreshold = threshold
  constructor
  · intro h
    rcases bestOf_cases similarity c query threshold order with ⟨hnone, _⟩ | ⟨key, score, hfirst⟩
    · rw [hnone] at h
      cases h
    · rw [hfirst.bestOf_eq, responseOf] at h
      dsimp only at h
      split_ifs at h with hempty
      obtain ⟨entry, hentry, rfl⟩ := Option.map_eq_some_iff.mp h
      exact ⟨key, entry, score, hfirst, hempty, hentry, rfl⟩
  · rintro ⟨key, entry, score, hfirst, hne, hentry, rfl⟩
    rw [hfirst.bestOf_eq, responseOf]
    dsimp only
    rw [if_neg hne, hentry, Option.map_some]

/-- A similarity that the loop takes reaches the threshold that was asked for. -/
theorem le_of_firstBest {similarityThreshold : ℚ} {key : String} {score : ℚ}
    (h : FirstBest similarity c order query
      (effectiveThreshold settings (some similarityThreshold)) key score) :
    similarityThreshold ≤ score := by
  have hreaches := h.reaches
  unfold effectiveThreshold at hreaches
  rw [Option.getD_some] at hreaches
  split_ifs at hreaches with hzero
  · rw [hzero]
    exact h.pos.le
  · exact hreaches

/-- `retrieve` is right if and only if, as soon as a live entry is similar enough, the first key
of the set with the greatest similarity has a name and a live entry, that similarity is positive
and reaches the threshold in use, and no live entry outside the set has a greater one. -/
theorem retrieve_best_iff (similarityThreshold : ℚ) :
    RetrievesBest settings similarity c order query similarityThreshold ↔
      ((∃ key entry score, LiveEntry similarity c query key entry score ∧
          similarityThreshold ≤ score) →
        ∃ key entry score, FirstBest similarity c order query
          (effectiveThreshold settings (some similarityThreshold)) key score ∧
          key ≠ "" ∧ c.entryOf key = some entry ∧
          ∀ key' entry' score', LiveEntry similarity c query key' entry' score' →
            score' ≤ score) := by
  constructor
  · rintro ⟨hfound, hbest⟩ hlive
    obtain ⟨hit, hhit⟩ := Option.isSome_iff_exists.mp (hfound.mpr hlive)
    obtain ⟨key, entry, score, hfirst, hne, hentry, heq⟩ :=
      (retrieve_eq_some_iff settings).mp hhit
    obtain ⟨_, entry', score', _, heq', hmax⟩ := hbest hit hhit
    have hscore : score = score' := congrArg CacheHit.similarityScore (heq.symm.trans heq')
    exact ⟨key, entry, score, hfirst, hne, hentry, hscore ▸ hmax⟩
  · intro hcond
    have hlive : ∀ {key entry score}, FirstBest similarity c order query
        (effectiveThreshold settings (some similarityThreshold)) key score →
        c.entryOf key = some entry → LiveEntry similarity c query key entry score := by
      intro key entry score hfirst hentry
      obtain ⟨_, _, _, hkey, _⟩ := hfirst.first
      exact ⟨hentry, hkey⟩
    refine ⟨⟨fun h => ?_, fun h => ?_⟩, fun hit hhit => ?_⟩
    · obtain ⟨hit, hhit⟩ := Option.isSome_iff_exists.mp h
      obtain ⟨key, entry, score, hfirst, _, hentry, _⟩ := (retrieve_eq_some_iff settings).mp hhit
      exact ⟨key, entry, score, hlive hfirst hentry, le_of_firstBest settings hfirst⟩
    · obtain ⟨key, entry, score, hfirst, hne, hentry, _⟩ := hcond h
      exact Option.isSome_iff_exists.mpr ⟨_, (retrieve_eq_some_iff settings).mpr
        ⟨key, entry, score, hfirst, hne, hentry, rfl⟩⟩
    · obtain ⟨key, entry, score, hfirst, hne, hentry, rfl⟩ :=
        (retrieve_eq_some_iff settings).mp hhit
      obtain ⟨key', entry', score', hfirst', _, _, hmax⟩ :=
        hcond ⟨key, entry, score, hlive hfirst hentry, le_of_firstBest settings hfirst⟩
      have hsame := hfirst.bestOf_eq.symm.trans hfirst'.bestOf_eq
      have hscore : score = score' := congrArg Best.similarity hsame
      exact ⟨key, entry, score, hlive hfirst hentry, rfl, hscore ▸ hmax⟩

/-- A threshold of zero is replaced by `85 / 100`, which the only entry does not reach. -/
theorem not_retrieve_best :
    let entry : CacheEntry ℚ Unit :=
      { cacheKey := "k", content := "c", embedding := 1 / 2, cachedAt := 0, expiresAt := 10,
        metadata := () }
    let c : TenantCache ℚ Unit :=
      { entries := Dict.empty.set "k" ⟨entry, 10⟩
        embeddings := Dict.empty.set "k" ⟨1 / 2, 10⟩
        keys := some ⟨["k"], 10⟩ }
    ¬RetrievesBest {} (fun _ x => some x) c c.members 1 0 := by
  intro entry c h
  have hnone : (retrieve {} (fun _ x => some x) c c.members 1 (some 0)).isSome = false := by
    decide +kernel
  have hsome := h.1.mpr ⟨"k", entry, 1 / 2, ⟨rfl, rfl⟩, by decide +kernel⟩
  rw [hnone] at hsome
  cases hsome

end SemanticCache

end MultiAgent
