import Mathlib.Data.List.Sort
import MultiAgent.Lib.Dict

/-!
# Documents and the order of their keys

A document is a tree of lists and objects over keys and leaves. Two documents are the same if they
agree up to the order in which objects list their keys, at every depth (`Document.same`), and a
writer may sort the keys at every depth to make one text out of them (`Document.sortKeys`). For
documents whose objects have each key once the two come to the same : documents are the same exactly
if they are equal with their keys sorted (`Document.sortKeys_eq_iff`).
-/

namespace MultiAgent

/-! ## Items sorted by their keys -/

section Sorting

variable {κ ν : Type*} [LinearOrder κ]

/-- The items in the order of their keys; items with one key stay in their order. -/
def sortItems (l : List (κ × ν)) : List (κ × ν) :=
  l.insertionSort fun p q => p.1 ≤ q.1

theorem sortItems_perm (l : List (κ × ν)) : (sortItems l).Perm l :=
  List.perm_insertionSort _ l

theorem sortItems_pairwise (l : List (κ × ν)) :
    (sortItems l).Pairwise fun p q => p.1 ≤ q.1 := by
  have : Std.Total fun p q : κ × ν => p.1 ≤ q.1 := ⟨fun p q => le_total p.1 q.1⟩
  have : IsTrans (κ × ν) fun p q => p.1 ≤ q.1 := ⟨fun _ _ _ => le_trans⟩
  exact List.pairwise_insertionSort _ l

/-- The sorted items of dictionaries are equal exactly if these have the same at every key. -/
theorem sortItems_eq_iff (d e : Dict κ ν) :
    sortItems d.items = sortItems e.items ↔ ∀ k, d.get? k = e.get? k := by
  constructor
  · intro h k
    have hperm : d.items.Perm e.items := (sortItems_perm _).symm.trans (h ▸ sortItems_perm _)
    refine Option.ext fun v => ?_
    rw [← Dict.mem_items, ← Dict.mem_items]
    exact hperm.mem_iff
  · intro h
    have hperm : (sortItems d.items).Perm (sortItems e.items) :=
      ((sortItems_perm _).trans (Dict.items_perm h)).trans (sortItems_perm _).symm
    refine hperm.eq_of_pairwise (fun p q hp hq hpq hqp => ?_) (sortItems_pairwise _)
      (sortItems_pairwise _)
    -- both are the item at one key of `d`
    have hd : (p.1, p.2) ∈ d.items := (sortItems_perm _).mem_iff.mp hp
    have he : (q.1, q.2) ∈ e.items := (sortItems_perm _).mem_iff.mp hq
    have hkey : p.1 = q.1 := le_antisymm hpq hqp
    rw [Dict.mem_items, h, hkey] at hd
    rw [Dict.mem_items, hd] at he
    exact Prod.ext hkey (Option.some.inj he)

end Sorting

/-- A tree over keys and leaves. -/
inductive Document (κ σ : Type)
  | leaf (x : σ)
  | arr (l : List (Document κ σ))
  | obj (f : List (κ × Document κ σ))

namespace Document

variable {κ σ : Type}

mutual

/-- Every object of the document has each of its keys once. -/
def valid [DecidableEq κ] : Document κ σ → Bool
  | .leaf _ => true
  | .arr l => validList l
  | .obj f => decide (f.map Prod.fst).Nodup && validFields f
termination_by structural v => v

/-- The elements of a list are valid. -/
def validList [DecidableEq κ] : List (Document κ σ) → Bool
  | [] => true
  | v :: l => valid v && validList l
termination_by structural l => l

/-- The values of an object are valid. -/
def validFields [DecidableEq κ] : List (κ × Document κ σ) → Bool
  | [] => true
  | (_, v) :: f => valid v && validFields f
termination_by structural f => f

end

mutual

/-- The documents are the same up to the order of keys. -/
def same [DecidableEq κ] [DecidableEq σ] : Document κ σ → Document κ σ → Bool
  | .leaf x, .leaf y => x == y
  | .arr l, .arr m => sameList l m
  | .obj f, .obj g => sameFields f g && g.all fun p => (f.lookup p.1).isSome
  | _, _ => false
termination_by structural v => v

/-- Lists compare element by element. -/
def sameList [DecidableEq κ] [DecidableEq σ] : List (Document κ σ) → List (Document κ σ) → Bool
  | [], [] => true
  | v :: l, w :: m => same v w && sameList l m
  | _, _ => false
termination_by structural l => l

/-- Every value on the left is at its key on the right. -/
def sameFields [DecidableEq κ] [DecidableEq σ] :
    List (κ × Document κ σ) → List (κ × Document κ σ) → Bool
  | [], _ => true
  | (k, v) :: f, g =>
    (match g.lookup k with
      | some w => same v w
      | none => false) && sameFields f g
termination_by structural f => f

end

mutual

/-- The document with the keys of every object sorted. -/
def sortKeys [LinearOrder κ] : Document κ σ → Document κ σ
  | .leaf x => .leaf x
  | .arr l => .arr (sortList l)
  | .obj f => .obj (sortItems (sortFields f))
termination_by structural v => v

/-- The elements of a list, with sorted keys. -/
def sortList [LinearOrder κ] : List (Document κ σ) → List (Document κ σ)
  | [] => []
  | v :: l => sortKeys v :: sortList l
termination_by structural l => l

/-- The values of an object, with sorted keys. -/
def sortFields [LinearOrder κ] : List (κ × Document κ σ) → List (κ × Document κ σ)
  | [] => []
  | (k, v) :: f => (k, sortKeys v) :: sortFields f
termination_by structural f => f

end

/-! ## What is the same -/

section Same

variable [LinearOrder κ]

theorem sortList_eq : ∀ l : List (Document κ σ), sortList l = l.map sortKeys
  | [] => rfl
  | v :: l => by rw [sortList, sortList_eq l, List.map_cons]

theorem sortFields_eq : ∀ f : List (κ × Document κ σ),
    sortFields f = f.map fun p => (p.1, sortKeys p.2)
  | [] => rfl
  | (k, v) :: f => by rw [sortFields, sortFields_eq f, List.map_cons]

theorem map_fst_sortFields (f : List (κ × Document κ σ)) :
    (sortFields f).map Prod.fst = f.map Prod.fst := by
  rw [sortFields_eq, List.map_map]
  rfl

theorem lookup_sortFields (f : List (κ × Document κ σ)) (k : κ) :
    (sortFields f).lookup k = (f.lookup k).map sortKeys := by
  induction f with
  | nil => rfl
  | cons p f ih =>
    obtain ⟨k', v⟩ := p
    rw [sortFields, List.lookup_cons, List.lookup_cons, ih]
    cases k == k' <;> rfl

theorem validList_iff : ∀ {l : List (Document κ σ)},
    validList l = true ↔ ∀ v ∈ l, v.valid = true
  | [] => by simp [validList]
  | v :: l => by rw [validList, Bool.and_eq_true, validList_iff, List.forall_mem_cons]

theorem validFields_iff : ∀ {f : List (κ × Document κ σ)},
    validFields f = true ↔ ∀ p ∈ f, p.2.valid = true
  | [] => by simp [validFields]
  | (k, v) :: f => by rw [validFields, Bool.and_eq_true, validFields_iff, List.forall_mem_cons]

/-- The fields of a valid object are those of a dictionary. -/
theorem sortItems_sortFields_eq_iff {f g : List (κ × Document κ σ)}
    (hf : (f.map Prod.fst).Nodup) (hg : (g.map Prod.fst).Nodup) :
    sortItems (sortFields f) = sortItems (sortFields g) ↔
      ∀ k, (f.lookup k).map sortKeys = (g.lookup k).map sortKeys := by
  have hdict := sortItems_eq_iff
    (⟨sortFields f, (map_fst_sortFields f).symm ▸ hf⟩ : Dict κ (Document κ σ))
    ⟨sortFields g, (map_fst_sortFields g).symm ▸ hg⟩
  refine hdict.trans (forall_congr' fun k => ?_)
  unfold Dict.get?
  rw [lookup_sortFields, lookup_sortFields]

/-- Two objects with each key once have the same at every key. -/
theorem forall_lookup_iff {f g : List (κ × Document κ σ)} (hf : (f.map Prod.fst).Nodup) :
    (∀ k, (f.lookup k).map sortKeys = (g.lookup k).map sortKeys) ↔
      (∀ p ∈ f, ∃ w, g.lookup p.1 = some w ∧ sortKeys p.2 = sortKeys w) ∧
        ∀ p ∈ g, (f.lookup p.1).isSome = true := by
  have hmem : ∀ k v, (k, v) ∈ f ↔ f.lookup k = some v := fun k v =>
    Dict.mem_items (d := ⟨f, hf⟩)
  constructor
  · intro h
    refine ⟨fun p hp => ?_, fun p hp => ?_⟩
    · have hk := h p.1
      rw [(hmem p.1 p.2).mp hp, Option.map_some] at hk
      obtain ⟨w, hw, hvw⟩ := Option.map_eq_some_iff.mp hk.symm
      exact ⟨w, hw, hvw.symm⟩
    · have hk := congrArg Option.isSome (h p.1)
      rw [Option.isSome_map, Option.isSome_map] at hk
      rw [hk]
      exact Dict.lookup_isSome.mpr (List.mem_map_of_mem hp)
  · rintro ⟨hleft, hright⟩ k
    cases hk : f.lookup k with
    | some v =>
      obtain ⟨w, hw, hvw⟩ := hleft (k, v) ((hmem k v).mpr hk)
      rw [hw, Option.map_some, Option.map_some, hvw]
    | none =>
      cases hk' : g.lookup k with
      | none => rfl
      | some w =>
        obtain ⟨p, hp, rfl⟩ := List.mem_map.mp (Dict.lookup_isSome.mp (by rw [hk']; rfl))
        have hsome := hright p hp
        rw [hk] at hsome
        cases hsome

variable [DecidableEq σ]

mutual

/-- Valid documents are the same exactly if they are equal with their keys sorted. -/
theorem sortKeys_eq_iff : ∀ {v w : Document κ σ}, v.valid = true → w.valid = true →
    (sortKeys v = sortKeys w ↔ same v w = true)
  | .leaf x, .leaf y, _, _ => by simp [sortKeys, same]
  | .leaf x, .arr m, _, _ => by simp [sortKeys, same]
  | .leaf x, .obj g, _, _ => by simp [sortKeys, same]
  | .arr l, .leaf y, _, _ => by simp [sortKeys, same]
  | .arr l, .arr m, hl, hm => by
    rw [valid] at hl hm
    rw [sortKeys, sortKeys, same, arr.injEq]
    exact sortList_eq_iff hl hm
  | .arr l, .obj g, _, _ => by simp [sortKeys, same]
  | .obj f, .leaf y, _, _ => by simp [sortKeys, same]
  | .obj f, .arr m, _, _ => by simp [sortKeys, same]
  | .obj f, .obj g, hf, hg => by
    rw [valid, Bool.and_eq_true, decide_eq_true_iff] at hf hg
    rw [sortKeys, sortKeys, same, obj.injEq, sortItems_sortFields_eq_iff hf.1 hg.1,
      forall_lookup_iff hf.1, Bool.and_eq_true, List.all_eq_true, sameFields_iff hf.2 hg.2]

theorem sortList_eq_iff : ∀ {l m : List (Document κ σ)}, validList l = true →
    validList m = true → (sortList l = sortList m ↔ sameList l m = true)
  | [], [], _, _ => by simp [sortList, sameList]
  | [], _ :: _, _, _ => by simp [sortList, sameList]
  | _ :: _, [], _, _ => by simp [sortList, sameList]
  | v :: l, w :: m, hl, hm => by
    rw [validList, Bool.and_eq_true] at hl hm
    rw [sortList, sortList, sameList, Bool.and_eq_true, List.cons.injEq,
      sortKeys_eq_iff hl.1 hm.1, sortList_eq_iff hl.2 hm.2]

theorem sameFields_iff : ∀ {f g : List (κ × Document κ σ)}, validFields f = true →
    validFields g = true → (sameFields f g = true ↔
      ∀ p ∈ f, ∃ w, g.lookup p.1 = some w ∧ sortKeys p.2 = sortKeys w)
  | [], g, _, _ => by simp [sameFields]
  | (k, v) :: f, g, hf, hg => by
    rw [validFields, Bool.and_eq_true] at hf
    rw [sameFields, Bool.and_eq_true, sameFields_iff hf.2 hg, List.forall_mem_cons]
    refine and_congr_left fun _ => ?_
    cases hk : g.lookup k with
    | none => simp
    | some w =>
      obtain ⟨g₁, g₂, rfl, -⟩ := List.lookup_eq_some_iff.mp hk
      have hw : w.valid = true := validFields_iff.mp hg (k, w) (by simp)
      simp [sortKeys_eq_iff hf.1 hw]

end

end Same

end Document

end MultiAgent
