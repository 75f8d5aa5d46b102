import Mathlib.Algebra.GroupWithZero.Nat
import Mathlib.Data.List.Nodup

/-!
# Insertion-ordered dictionaries

A dictionary is the list of its items, whose keys are pairwise distinct : the
structure carries that fact, so no operation can build a dictionary with two items
at one key. Storing at a key that is present replaces the value in place; storing at
a new key appends. `get?_set` and `get?_erase` say what a lookup finds afterwards,
`size_set_of_not_mem` and `size_erase_of_mem` what happens to the size, and `sum_set` what
happens to a sum over the values.
-/

namespace MultiAgent

/-- Items in insertion order, one per key. -/
structure Dict (κ ν : Type*) where
  items : List (κ × ν)
  nodup : (items.map Prod.fst).Nodup

namespace Dict

variable {κ ν : Type*}

/-- The empty dictionary. -/
def empty : Dict κ ν :=
  ⟨[], List.nodup_nil⟩

/-- The keys, in insertion order. -/
def keys (d : Dict κ ν) : List κ :=
  d.items.map Prod.fst

/-- The number of items. -/
def size (d : Dict κ ν) : ℕ :=
  d.items.length

@[simp] theorem items_empty : (empty : Dict κ ν).items = [] := rfl

instance : Membership κ (Dict κ ν) :=
  ⟨fun d k => k ∈ d.keys⟩

theorem mem_def {d : Dict κ ν} {k : κ} : k ∈ d ↔ k ∈ d.items.map Prod.fst :=
  Iff.rfl

@[simp] theorem not_mem_empty (k : κ) : k ∉ (empty : Dict κ ν) :=
  List.not_mem_nil

variable [DecidableEq κ]

instance (d : Dict κ ν) (k : κ) : Decidable (k ∈ d) :=
  inferInstanceAs (Decidable (k ∈ d.items.map Prod.fst))

/-- The value stored at `k`. -/
def get? (d : Dict κ ν) (k : κ) : Option ν :=
  d.items.lookup k

@[simp] theorem get?_empty (k : κ) : (empty : Dict κ ν).get? k = none := rfl

/-- Replace the value at `k` in a list of items. -/
def replaceItem (k : κ) (v : ν) : List (κ × ν) → List (κ × ν) :=
  List.map fun p => if p.1 = k then (k, v) else p

theorem map_fst_replaceItem (k : κ) (v : ν) (l : List (κ × ν)) :
    (replaceItem k v l).map Prod.fst = l.map Prod.fst := by
  unfold replaceItem
  rw [List.map_map]
  refine List.map_congr_left fun p _ => ?_
  by_cases hp : p.1 = k <;> simp [hp]

/-- Store `v` at `k` in a list of items. -/
def setItem (k : κ) (v : ν) (l : List (κ × ν)) : List (κ × ν) :=
  if k ∈ l.map Prod.fst then replaceItem k v l else l ++ [(k, v)]

/-- Store `v` at `k` : in place if the key is present, at the end otherwise. -/
def set (d : Dict κ ν) (k : κ) (v : ν) : Dict κ ν :=
  if h : k ∈ d then
    ⟨replaceItem k v d.items, by rw [map_fst_replaceItem]; exact d.nodup⟩
  else
    ⟨d.items ++ [(k, v)], by
      rw [List.map_append]
      exact d.nodup.append (List.nodup_singleton k) (by simpa [mem_def] using h)⟩

/-- Drop the item at `k`, if there is one. -/
def erase (d : Dict κ ν) (k : κ) : Dict κ ν :=
  ⟨d.items.filter fun p => p.1 ≠ k, d.nodup.sublist (List.filter_sublist.map _)⟩

/-- Apply `f` to every value. -/
def mapValues (f : ν → ν) (d : Dict κ ν) : Dict κ ν :=
  ⟨d.items.map fun p => (p.1, f p.2), by rw [List.map_map]; exact d.nodup⟩

/-! ## Lookups -/

theorem lookup_cons_self (p : κ × ν) (l : List (κ × ν)) : (p :: l).lookup p.1 = some p.2 := by
  rw [List.lookup_cons, beq_self_eq_true]

theorem lookup_cons_ne {p : κ × ν} {k : κ} (l : List (κ × ν)) (h : k ≠ p.1) :
    (p :: l).lookup k = l.lookup k := by
  rw [List.lookup_cons, beq_eq_false_iff_ne.mpr h]

theorem lookup_isSome {l : List (κ × ν)} {k : κ} :
    (l.lookup k).isSome ↔ k ∈ l.map Prod.fst := by
  induction l with
  | nil => simp
  | cons p l ih =>
    by_cases hp : k = p.1
    · simp [hp, lookup_cons_self]
    · rw [lookup_cons_ne l hp, ih, List.map_cons, List.mem_cons]
      simp [hp]

theorem replaceItem_of_not_mem {l : List (κ × ν)} {k : κ} (v : ν) (h : k ∉ l.map Prod.fst) :
    replaceItem k v l = l := by
  unfold replaceItem
  refine (List.map_congr_left fun q hq => ?_).trans (List.map_id l)
  have hne : q.1 ≠ k := fun he => h (he ▸ List.mem_map_of_mem hq)
  simp [hne]

theorem lookup_replaceItem (l : List (κ × ν)) (k k' : κ) (v : ν) (hk : k ∈ l.map Prod.fst) :
    (replaceItem k v l).lookup k' = if k' = k then some v else l.lookup k' := by
  induction l with
  | nil => simp at hk
  | cons p l ih =>
    have hcons : replaceItem k v (p :: l) =
        (if p.1 = k then (k, v) else p) :: replaceItem k v l := rfl
    rw [hcons]
    by_cases hp : p.1 = k
    · subst hp
      rw [if_pos rfl]
      by_cases hk' : k' = p.1
      · simp [hk']
      · rw [if_neg hk', lookup_cons_ne (p := (p.1, v)) _ hk', lookup_cons_ne _ hk']
        by_cases hin : p.1 ∈ l.map Prod.fst
        · rw [ih hin, if_neg hk']
        · rw [replaceItem_of_not_mem v hin]
    · rw [if_neg hp]
      have hin : k ∈ l.map Prod.fst := by
        rw [List.map_cons, List.mem_cons] at hk
        exact hk.resolve_left (Ne.symm hp)
      by_cases hk' : k' = p.1
      · subst hk'
        rw [lookup_cons_self, lookup_cons_self, if_neg hp]
      · rw [lookup_cons_ne _ hk', lookup_cons_ne _ hk', ih hin]

theorem lookup_filter_ne (l : List (κ × ν)) (k k' : κ) :
    (l.filter fun p => p.1 ≠ k).lookup k' = if k' = k then none else l.lookup k' := by
  induction l with
  | nil => simp
  | cons p l ih =>
    by_cases hp : p.1 = k
    · rw [List.filter_cons_of_neg (by simpa using hp), ih]
      by_cases hk' : k' = k
      · simp [hk']
      · rw [if_neg hk', if_neg hk', lookup_cons_ne l (hp ▸ hk')]
    · rw [List.filter_cons_of_pos (by simpa using hp)]
      by_cases hk' : k' = p.1
      · subst hk'
        rw [lookup_cons_self, lookup_cons_self, if_neg hp]
      · rw [lookup_cons_ne _ hk', lookup_cons_ne _ hk', ih]

theorem get?_isSome {d : Dict κ ν} {k : κ} : (d.get? k).isSome ↔ k ∈ d :=
  lookup_isSome

theorem get?_eq_none {d : Dict κ ν} {k : κ} : d.get? k = none ↔ k ∉ d := by
  rw [← get?_isSome, Option.not_isSome_iff_eq_none]

theorem mem_iff_get? {d : Dict κ ν} {k : κ} : k ∈ d ↔ ∃ v, d.get? k = some v := by
  rw [← get?_isSome, Option.isSome_iff_exists]

theorem mem_of_get? {d : Dict κ ν} {k : κ} {v : ν} (h : d.get? k = some v) : k ∈ d :=
  mem_iff_get?.mpr ⟨v, h⟩

theorem lookup_setItem (l : List (κ × ν)) (k k' : κ) (v : ν) :
    (setItem k v l).lookup k' = if k' = k then some v else l.lookup k' := by
  unfold setItem
  by_cases h : k ∈ l.map Prod.fst
  · rw [if_pos h, lookup_replaceItem l k k' v h]
  · rw [if_neg h, List.lookup_append]
    have hnone : l.lookup k = none := by
      rw [← Option.not_isSome_iff_eq_none, lookup_isSome]
      exact h
    by_cases hk : k' = k
    · subst hk
      rw [hnone, Option.none_or, if_pos rfl]
      exact lookup_cons_self (k', v) []
    · have hs : [(k, v)].lookup k' = none := lookup_cons_ne [] hk
      rw [hs, if_neg hk, Option.or_none]

/-- Storing items with new and distinct keys appends them. -/
theorem foldl_setItem_of_nodup : ∀ {l acc : List (κ × ν)}, ((acc ++ l).map Prod.fst).Nodup →
    l.foldl (fun d p => setItem p.1 p.2 d) acc = acc ++ l
  | [], acc, _ => (List.append_nil acc).symm
  | p :: l, acc, h => by
    have hnot : p.1 ∉ acc.map Prod.fst := by
      rw [List.map_append, List.map_cons] at h
      exact fun hin => (List.disjoint_of_nodup_append h) hin List.mem_cons_self
    have happ : acc ++ p :: l = (acc ++ [p]) ++ l := by simp
    rw [happ] at h
    have hset : setItem p.1 p.2 acc = acc ++ [p] := by
      unfold setItem
      rw [if_neg hnot]
    rw [List.foldl_cons, hset, foldl_setItem_of_nodup h, happ]

theorem items_set (d : Dict κ ν) (k : κ) (v : ν) : (d.set k v).items = setItem k v d.items := by
  unfold set setItem
  by_cases h : k ∈ d
  · rw [dif_pos h, if_pos (mem_def.mp h)]
  · rw [dif_neg h, if_neg (mt mem_def.mpr h)]

theorem get?_set (d : Dict κ ν) (k k' : κ) (v : ν) :
    (d.set k v).get? k' = if k' = k then some v else d.get? k' := by
  unfold get?
  rw [items_set, lookup_setItem]

@[simp] theorem get?_set_self (d : Dict κ ν) (k : κ) (v : ν) : (d.set k v).get? k = some v := by
  simp [get?_set]

theorem get?_set_ne (d : Dict κ ν) {k k' : κ} (v : ν) (h : k' ≠ k) :
    (d.set k v).get? k' = d.get? k' := by
  simp [get?_set, h]

theorem get?_erase (d : Dict κ ν) (k k' : κ) :
    (d.erase k).get? k' = if k' = k then none else d.get? k' :=
  lookup_filter_ne d.items k k'

theorem get?_mapValues (f : ν → ν) (d : Dict κ ν) (k : κ) :
    (d.mapValues f).get? k = (d.get? k).map f := by
  unfold mapValues get?
  dsimp only
  induction d.items with
  | nil => rfl
  | cons p l ih =>
    by_cases hp : k = p.1
    · subst hp
      rw [lookup_cons_self, List.map_cons]
      exact lookup_cons_self (p.1, f p.2) _
    · rw [lookup_cons_ne l hp, List.map_cons, lookup_cons_ne (p := (p.1, f p.2)) _ hp, ih]

@[simp] theorem mem_set {d : Dict κ ν} {k k' : κ} {v : ν} :
    k' ∈ d.set k v ↔ k' = k ∨ k' ∈ d := by
  rw [← get?_isSome, ← get?_isSome, get?_set]
  by_cases h : k' = k <;> simp [h]

@[simp] theorem mem_erase {d : Dict κ ν} {k k' : κ} : k' ∈ d.erase k ↔ k' ≠ k ∧ k' ∈ d := by
  rw [← get?_isSome, ← get?_isSome, get?_erase]
  by_cases h : k' = k <;> simp [h]

/-- The value stored at `k`, or `v` if there is none. -/
def getD (d : Dict κ ν) (k : κ) (v : ν) : ν :=
  (d.get? k).getD v

theorem getD_of_get? {d : Dict κ ν} {k : κ} {v w : ν} (h : d.get? k = some v) :
    d.getD k w = v := by
  rw [getD, h, Option.getD_some]

theorem getD_set (d : Dict κ ν) (k k' : κ) (v w : ν) :
    (d.set k v).getD k' w = if k' = k then v else d.getD k' w := by
  unfold getD
  rw [get?_set]
  split_ifs <;> rfl

@[simp] theorem getD_set_self (d : Dict κ ν) (k : κ) (v w : ν) : (d.set k v).getD k w = v := by
  simp [getD_set]

theorem getD_set_ne (d : Dict κ ν) {k k' : κ} (v w : ν) (h : k' ≠ k) :
    (d.set k v).getD k' w = d.getD k' w := by
  simp [getD_set, h]

/-! ## Sizes -/

theorem size_set_of_not_mem {d : Dict κ ν} {k : κ} (v : ν) (h : k ∉ d) :
    (d.set k v).size = d.size + 1 := by
  unfold set size
  rw [dif_neg h]
  simp

/-- Erasing a key that is present drops exactly one item. -/
theorem size_erase_of_mem {d : Dict κ ν} {k : κ} (h : k ∈ d) :
    (d.erase k).size + 1 = d.size := by
  have hcount : (d.items.map Prod.fst).count k = 1 := List.count_eq_one_of_mem d.nodup h
  have hk : d.items.countP (fun p => decide (p.1 = k)) = 1 := by
    rw [← hcount, List.count_eq_countP, List.countP_map]
    exact List.countP_congr fun p _ => by simp
  have hsum := List.length_eq_countP_add_countP (fun p => decide (p.1 = k)) (l := d.items)
  have hne : (d.erase k).size = d.items.countP fun p => decide ¬decide (p.1 = k) = true := by
    unfold erase size
    rw [← List.countP_eq_length_filter]
    exact List.countP_congr fun p _ => by simp
  unfold size at *
  omega

/-! ## Counting values -/

theorem mem_items {d : Dict κ ν} {k : κ} {v : ν} : (k, v) ∈ d.items ↔ d.get? k = some v := by
  obtain ⟨l, hl⟩ := d
  unfold get?
  dsimp only
  induction l with
  | nil => simp
  | cons p l ih =>
    rw [List.map_cons, List.nodup_cons] at hl
    by_cases hp : k = p.1
    · subst hp
      rw [lookup_cons_self, List.mem_cons]
      constructor
      · rintro (h | h)
        · rw [← h]
        · exact absurd (List.mem_map_of_mem h) hl.1
      · intro h
        exact Or.inl (Prod.ext rfl (Option.some.inj h).symm)
    · rw [lookup_cons_ne l hp, List.mem_cons, ih hl.2]
      exact or_iff_right fun h => hp (congrArg Prod.fst h)

omit [DecidableEq κ] in
theorem nodup_items (d : Dict κ ν) : d.items.Nodup :=
  d.nodup.of_map Prod.fst

theorem items_perm {d e : Dict κ ν} (h : ∀ k, d.get? k = e.get? k) : d.items.Perm e.items :=
  (List.perm_ext_iff_of_nodup d.nodup_items e.nodup_items).mpr fun ⟨k, v⟩ => by
    rw [mem_items, mem_items, h]

theorem items_perm_cons_erase {d : Dict κ ν} {k : κ} {v : ν} (h : d.get? k = some v) :
    d.items.Perm ((k, v) :: (d.erase k).items) := by
  have hnot : k ∉ d.erase k := by simp
  refine (List.perm_ext_iff_of_nodup d.nodup_items (List.nodup_cons.mpr
    ⟨fun hk => hnot (List.mem_map_of_mem (f := Prod.fst) hk), nodup_items _⟩)).mpr
      fun ⟨k', v'⟩ => ?_
  rw [List.mem_cons, mem_items, mem_items, get?_erase]
  by_cases hk : k' = k
  · subst hk
    simp [h, eq_comm]
  · simp [hk]

/-- How many values satisfy `p`. -/
def countP (d : Dict κ ν) (p : ν → Bool) : ℕ :=
  d.items.countP fun i => p i.2

omit [DecidableEq κ] in
@[simp] theorem countP_empty (p : ν → Bool) : (empty : Dict κ ν).countP p = 0 := rfl

theorem countP_erase {d : Dict κ ν} {k : κ} {v : ν} (p : ν → Bool) (h : d.get? k = some v) :
    d.countP p = (d.erase k).countP p + if p v then 1 else 0 := by
  unfold countP
  rw [(items_perm_cons_erase h).countP_eq, List.countP_cons]

theorem countP_erase_of_not_mem {d : Dict κ ν} {k : κ} (p : ν → Bool) (h : k ∉ d) :
    (d.erase k).countP p = d.countP p := by
  refine (items_perm fun k' => ?_).countP_eq _
  rw [get?_erase]
  split_ifs with hk
  · rw [hk, get?_eq_none.mpr h]
  · rfl

theorem countP_set (d : Dict κ ν) (k : κ) (v : ν) (p : ν → Bool) :
    (d.set k v).countP p = (d.erase k).countP p + if p v then 1 else 0 := by
  rw [countP_erase p (get?_set_self d k v)]
  congr 1
  refine (items_perm fun k' => ?_).countP_eq _
  rw [get?_erase, get?_erase, get?_set]
  split_ifs <;> rfl

theorem countP_set_of_not_mem {d : Dict κ ν} {k : κ} (v : ν) (p : ν → Bool) (h : k ∉ d) :
    (d.set k v).countP p = d.countP p + if p v then 1 else 0 := by
  rw [countP_set, countP_erase_of_not_mem p h]

/-- A list of keys that covers the dictionary counts its values. -/
theorem countP_keys (d : Dict κ ν) (p : ν → Bool) {l : List κ} (hl : l.Nodup)
    (hcover : ∀ k ∈ d, k ∈ l) : (l.countP fun k => (d.get? k).any p) = d.countP p := by
  have hperm : (l.filter fun k => (d.get? k).any p).Perm
      ((d.items.filter fun i => p i.2).map Prod.fst) := by
    refine (List.perm_ext_iff_of_nodup (hl.filter _)
      (d.nodup.sublist (List.filter_sublist.map _))).mpr fun k => ?_
    rw [List.mem_filter, List.mem_map, Option.any_eq_true]
    constructor
    · rintro ⟨-, v, hv, hp⟩
      exact ⟨(k, v), List.mem_filter.mpr ⟨mem_items.2 hv, hp⟩, rfl⟩
    · rintro ⟨⟨k', v⟩, hmem, rfl⟩
      obtain ⟨hv, hp⟩ := List.mem_filter.mp hmem
      exact ⟨hcover _ (mem_of_get? (mem_items.1 hv)), v, mem_items.1 hv, hp⟩
  rw [List.countP_eq_length_filter, hperm.length_eq, List.length_map]
  exact List.countP_eq_length_filter.symm

/-! ## Sums over values -/

/-- The sum of a number read off each value. -/
def sum (d : Dict κ ν) (f : ν → ℕ) : ℕ :=
  (d.items.map fun i => f i.2).sum

theorem sum_congr {d e : Dict κ ν} (f : ν → ℕ) (h : ∀ k, d.get? k = e.get? k) :
    d.sum f = e.sum f :=
  ((items_perm h).map _).sum_nat

theorem sum_erase {d : Dict κ ν} {k : κ} {v : ν} (f : ν → ℕ) (h : d.get? k = some v) :
    d.sum f = f v + (d.erase k).sum f := by
  have hperm := ((items_perm_cons_erase h).map fun i => f i.2).sum_nat
  rwa [List.map_cons, List.sum_cons] at hperm

/-- A value is replaced, or added where nothing was summed. -/
theorem sum_set (d : Dict κ ν) (k : κ) (v : ν) {w : ν} {f : ν → ℕ} (hw : f w = 0) :
    (d.set k v).sum f + f (d.getD k w) = d.sum f + f v := by
  have herase : ((d.set k v).erase k).sum f = (d.erase k).sum f := by
    refine sum_congr f fun k' => ?_
    rw [get?_erase, get?_erase, get?_set]
    split_ifs <;> rfl
  rw [sum_erase f (get?_set_self d k v), herase]
  cases h : d.get? k with
  | none =>
    have hsame : (d.erase k).sum f = d.sum f := by
      refine sum_congr f fun k' => ?_
      rw [get?_erase]
      split_ifs with hk
      · rw [hk, h]
      · rfl
    rw [getD, h, Option.getD_none, hw, hsame]
    omega
  | some u =>
    rw [getD_of_get? h, sum_erase f h]
    omega

end Dict

end MultiAgent
