import Mathlib.Data.Int.Notation
import Mathlib.Data.Rat.Init
import MultiAgent.Lib.Dict

/-!
# Values through JSON

The values of Python that a program may give to `json.dumps`, and what `json.loads` makes
of the text (`reload`). A tuple comes back as a list, and the keys of a dictionary as
strings : keys with one text become one item, with the last value. A value of another
type cannot be encoded, nor a value that contains one, nor a key of another type.

The values that come back as they were are those JSON has itself (`reload_of_isJson`,
`isJson_of_reload`), as is everything that comes back (`isJson_reload`).
The limits of the interpreter (the digits of an integer, the depth of the nesting) and
the floats that are no numbers are left out.
-/

namespace MultiAgent

namespace Json

/-- A key of a dictionary. A float is known by its text; `other` is a key of any other
type. -/
inductive Key
  | none
  | bool (b : Bool)
  | int (i : ℤ)
  | float (repr : String)
  | str (s : String)
  | other (id : ℕ)
  deriving DecidableEq

/-- A value. `object` is one of any other type, with its truth value. -/
inductive Value
  | null
  | bool (b : Bool)
  | int (i : ℤ)
  | float (q : ℚ)
  | str (s : String)
  | list (l : List Value)
  | tuple (l : List Value)
  | dict (d : List (Key × Value))
  | object (id : ℕ) (truth : Bool)

/-- The text that a key is encoded as. -/
def Key.text : Key → Option String
  | .none => some "null"
  | .bool b => some (if b then "true" else "false")
  | .int i => some (toString i)
  | .float repr => some repr
  | .str s => some s
  | .other _ => Option.none

/-- The key is a string. -/
def Key.isStr : Key → Bool
  | .str _ => true
  | _ => false

namespace Value

/-- `v is None`. -/
def isNone : Value → Bool
  | .null => true
  | _ => false

/-- `bool(v)`. -/
def truthy : Value → Bool
  | .null => false
  | .bool b => b
  | .int i => i ≠ 0
  | .float q => q ≠ 0
  | .str s => s ≠ ""
  | .list l => !l.isEmpty
  | .tuple l => !l.isEmpty
  | .dict d => !d.isEmpty
  | .object _ truth => truth

/-- The dictionary that a list of pairs makes. -/
def ofPairs (l : List (Key × Value)) : List (Key × Value) :=
  l.foldl (fun d p => Dict.setItem p.1 p.2 d) []

mutual

/-- `json.loads(json.dumps(v))`, where `none` stands for an exception of `dumps`. -/
def reload : Value → Option Value
  | .null => some .null
  | .bool b => some (.bool b)
  | .int i => some (.int i)
  | .float q => some (.float q)
  | .str s => some (.str s)
  | .list l => (reloadList l).map .list
  | .tuple l => (reloadList l).map .list
  | .dict d => (reloadItems d).map fun l => .dict (ofPairs l)
  | .object _ _ => none
termination_by structural v => v

/-- The elements of a list. -/
def reloadList : List Value → Option (List Value)
  | [] => some []
  | v :: l => (reload v).bind fun w => (reloadList l).map (w :: ·)
termination_by structural l => l

/-- The items of a dictionary, in their order. -/
def reloadItems : List (Key × Value) → Option (List (Key × Value))
  | [] => some []
  | (k, v) :: d =>
    k.text.bind fun s => (reload v).bind fun w => (reloadItems d).map ((.str s, w) :: ·)
termination_by structural d => d

end

mutual

/-- The value is one that JSON has. -/
def isJson : Value → Bool
  | .null => true
  | .bool _ => true
  | .int _ => true
  | .float _ => true
  | .str _ => true
  | .list l => isJsonList l
  | .tuple _ => false
  | .dict d => isJsonItems d && decide (d.map Prod.fst).Nodup
  | .object _ _ => false
termination_by structural v => v

/-- Every element is. -/
def isJsonList : List Value → Bool
  | [] => true
  | v :: l => isJson v && isJsonList l
termination_by structural l => l

/-- Every key is a string and every value is. -/
def isJsonItems : List (Key × Value) → Bool
  | [] => true
  | (k, v) :: d => k.isStr && isJson v && isJsonItems d
termination_by structural d => d

end

theorem ofPairs_of_nodup {l : List (Key × Value)} (h : (l.map Prod.fst).Nodup) :
    ofPairs l = l :=
  Dict.foldl_setItem_of_nodup h

theorem text_of_isStr {k : Key} (h : k.isStr = true) : k.text.map Key.str = some k := by
  cases k with
  | str s => rfl
  | _ => simp [Key.isStr] at h

mutual

/-- What JSON has comes back as it was. -/
theorem reload_of_isJson : ∀ {v : Value}, v.isJson = true → v.reload = some v
  | .null, _ => rfl
  | .bool _, _ => rfl
  | .int _, _ => rfl
  | .float _, _ => rfl
  | .str _, _ => rfl
  | .list l, h => by
    rw [reload, reloadList_of_isJson (by simpa [isJson] using h)]
    rfl
  | .tuple _, h => by simp [isJson] at h
  | .dict d, h => by
    rw [isJson, Bool.and_eq_true, decide_eq_true_iff] at h
    rw [reload, reloadItems_of_isJson h.1, Option.map_some, ofPairs_of_nodup h.2]
  | .object _ _, h => by simp [isJson] at h

theorem reloadList_of_isJson : ∀ {l : List Value}, isJsonList l = true → reloadList l = some l
  | [], _ => rfl
  | v :: l, h => by
    rw [isJsonList, Bool.and_eq_true] at h
    rw [reloadList, reload_of_isJson h.1, reloadList_of_isJson h.2]
    rfl

theorem reloadItems_of_isJson : ∀ {d : List (Key × Value)}, isJsonItems d = true →
    reloadItems d = some d
  | [], _ => rfl
  | (k, v) :: d, h => by
    rw [isJsonItems, Bool.and_eq_true, Bool.and_eq_true] at h
    obtain ⟨⟨hk, hv⟩, hd⟩ := h
    obtain ⟨s, hs, rfl⟩ := Option.map_eq_some_iff.mp (text_of_isStr hk)
    rw [reloadItems, hs, reload_of_isJson hv, reloadItems_of_isJson hd]
    rfl

end

theorem map_fst_setItem_of_mem {k k' : Key} {v : Value} {l : List (Key × Value)}
    (h : k' ∈ (Dict.setItem k v l).map Prod.fst) : k' = k ∨ k' ∈ l.map Prod.fst := by
  unfold Dict.setItem at h
  split_ifs at h with hk
  · rw [Dict.map_fst_replaceItem] at h
    exact Or.inr h
  · rw [List.map_append, List.mem_append] at h
    exact h.symm.imp_left List.mem_singleton.mp

/-- The keys of what pairs make are keys of pairs. -/
theorem mem_of_mem_ofPairs {l : List (Key × Value)} {k : Key}
    (h : k ∈ (ofPairs l).map Prod.fst) : k ∈ l.map Prod.fst := by
  suffices hfold : ∀ (l acc : List (Key × Value)),
      k ∈ (l.foldl (fun d p => Dict.setItem p.1 p.2 d) acc).map Prod.fst →
        k ∈ acc.map Prod.fst ∨ k ∈ l.map Prod.fst from
    (hfold l [] h).resolve_left List.not_mem_nil
  intro l
  induction l with
  | nil => exact fun _ h => Or.inl h
  | cons p l ih =>
    intro acc h
    rw [List.map_cons, List.mem_cons]
    rcases ih _ h with hacc | hl
    · rcases map_fst_setItem_of_mem hacc with rfl | hacc
      · exact Or.inr (Or.inl rfl)
      · exact Or.inl hacc
    · exact Or.inr (Or.inr hl)

theorem nodup_ofPairs (l : List (Key × Value)) : ((ofPairs l).map Prod.fst).Nodup := by
  suffices hfold : ∀ (l : List (Key × Value)) (d : Dict Key Value),
      l.foldl (fun d p => Dict.setItem p.1 p.2 d) d.items =
        (l.foldl (fun d p => d.set p.1 p.2) d).items by
    have hl := hfold l .empty
    rw [Dict.items_empty] at hl
    unfold ofPairs
    rw [hl]
    exact Dict.nodup _
  intro l
  induction l with
  | nil => exact fun _ => rfl
  | cons p l ih =>
    intro d
    rw [List.foldl_cons, List.foldl_cons, ← ih, Dict.items_set]

/-- The keys of items that come back from JSON are strings. -/
theorem isStr_of_reloadItems : ∀ {d l : List (Key × Value)}, reloadItems d = some l →
    ∀ k ∈ l.map Prod.fst, k.isStr = true
  | [], l, h => by
    obtain rfl := Option.some.inj h
    exact fun k hk => absurd hk List.not_mem_nil
  | (k, v) :: d, l, h => by
    rw [reloadItems, Option.bind_eq_some_iff] at h
    obtain ⟨s, -, h⟩ := h
    obtain ⟨w, -, h⟩ := Option.bind_eq_some_iff.mp h
    obtain ⟨l', hl', rfl⟩ := Option.map_eq_some_iff.mp h
    rw [List.map_cons, List.forall_mem_cons]
    exact ⟨rfl, isStr_of_reloadItems hl'⟩

/-- Keys that are strings come back as they were. -/
theorem map_fst_of_reloadItems : ∀ {d l : List (Key × Value)}, reloadItems d = some l →
    (∀ k ∈ d.map Prod.fst, k.isStr = true) → l.map Prod.fst = d.map Prod.fst
  | [], l, h, _ => by
    obtain rfl := Option.some.inj h
    rfl
  | (k, v) :: d, l, h, hstr => by
    rw [reloadItems, Option.bind_eq_some_iff] at h
    obtain ⟨s, hs, h⟩ := h
    obtain ⟨w, -, h⟩ := Option.bind_eq_some_iff.mp h
    obtain ⟨l', hl', rfl⟩ := Option.map_eq_some_iff.mp h
    rw [List.map_cons, List.forall_mem_cons] at hstr
    have hk := text_of_isStr hstr.1
    rw [hs, Option.map_some] at hk
    rw [List.map_cons, List.map_cons, map_fst_of_reloadItems hl' hstr.2, Option.some.inj hk]

mutual

/-- Only what JSON has comes back as it was. -/
theorem isJson_of_reload : ∀ {v : Value}, v.reload = some v → v.isJson = true
  | .null, _ => rfl
  | .bool _, _ => rfl
  | .int _, _ => rfl
  | .float _, _ => rfl
  | .str _, _ => rfl
  | .list l, h => by
    rw [reload] at h
    obtain ⟨l', hl, hl'⟩ := Option.map_eq_some_iff.mp h
    have hback : reloadList l = some l := hl.trans (congrArg some (Value.list.inj hl'))
    exact isJsonList_of_reload hback
  | .tuple l, h => by
    rw [reload] at h
    obtain ⟨l', -, hl'⟩ := Option.map_eq_some_iff.mp h
    cases hl'
  | .dict d, h => by
    rw [reload] at h
    obtain ⟨l, hl, hd⟩ := Option.map_eq_some_iff.mp h
    have hpairs : ofPairs l = d := Value.dict.inj hd
    have hnodup : (d.map Prod.fst).Nodup := hpairs ▸ nodup_ofPairs l
    have hkeys : l.map Prod.fst = d.map Prod.fst :=
      map_fst_of_reloadItems hl fun k hk =>
        isStr_of_reloadItems hl k (mem_of_mem_ofPairs (hpairs.symm ▸ hk))
    have hld : l = d := by
      rw [← hpairs, ofPairs_of_nodup (hkeys ▸ hnodup)]
    rw [isJson, Bool.and_eq_true, decide_eq_true_iff]
    exact ⟨isJsonItems_of_reload (hld ▸ hl), hnodup⟩
  | .object _ _, h => by
    rw [reload] at h
    cases h

theorem isJsonList_of_reload : ∀ {l : List Value}, reloadList l = some l → isJsonList l = true
  | [], _ => rfl
  | v :: l, h => by
    rw [reloadList, Option.bind_eq_some_iff] at h
    obtain ⟨w, hv, h⟩ := h
    obtain ⟨l', hl, hcons⟩ := Option.map_eq_some_iff.mp h
    obtain ⟨hwv, hl'⟩ := List.cons.inj hcons
    rw [hwv] at hv
    rw [hl'] at hl
    rw [isJsonList, isJson_of_reload hv, isJsonList_of_reload hl, Bool.true_and]

theorem isJsonItems_of_reload : ∀ {d : List (Key × Value)}, reloadItems d = some d →
    isJsonItems d = true
  | [], _ => rfl
  | (k, v) :: d, h => by
    rw [reloadItems, Option.bind_eq_some_iff] at h
    obtain ⟨s, -, h⟩ := h
    obtain ⟨w, hv, h⟩ := Option.bind_eq_some_iff.mp h
    obtain ⟨l', hl, hcons⟩ := Option.map_eq_some_iff.mp h
    obtain ⟨hp, hl'⟩ := List.cons.inj hcons
    obtain ⟨hk, hwv⟩ := Prod.mk.inj hp
    rw [hwv] at hv
    rw [hl'] at hl
    rw [isJsonItems, isJson_of_reload hv, isJsonItems_of_reload hl, ← hk]
    rfl

end

theorem isJsonItems_iff {d : List (Key × Value)} :
    isJsonItems d = true ↔ ∀ p ∈ d, p.1.isStr = true ∧ p.2.isJson = true := by
  induction d with
  | nil => exact iff_of_true rfl fun p hp => absurd hp List.not_mem_nil
  | cons p d ih =>
    rw [isJsonItems, Bool.and_eq_true, Bool.and_eq_true, ih, List.forall_mem_cons]

theorem mem_of_mem_setItem {k : Key} {v : Value} {l : List (Key × Value)} {p : Key × Value}
    (h : p ∈ Dict.setItem k v l) : p = (k, v) ∨ p ∈ l := by
  unfold Dict.setItem at h
  split_ifs at h with hk
  · obtain ⟨q, hq, rfl⟩ := List.mem_map.mp h
    split_ifs
    · exact Or.inl rfl
    · exact Or.inr hq
  · rcases List.mem_append.mp h with h | h
    · exact Or.inr h
    · exact Or.inl (List.mem_singleton.mp h)

/-- What pairs make has no other items. -/
theorem mem_of_ofPairs {l : List (Key × Value)} {p : Key × Value} (h : p ∈ ofPairs l) : p ∈ l := by
  suffices hfold : ∀ (l acc : List (Key × Value)),
      p ∈ l.foldl (fun d q => Dict.setItem q.1 q.2 d) acc → p ∈ acc ∨ p ∈ l from
    (hfold l [] h).resolve_left List.not_mem_nil
  intro l
  induction l with
  | nil => exact fun _ h => Or.inl h
  | cons q l ih =>
    intro acc h
    rw [List.mem_cons]
    rcases ih _ h with hacc | hl
    · rcases mem_of_mem_setItem hacc with rfl | hacc
      · exact Or.inr (Or.inl rfl)
      · exact Or.inl hacc
    · exact Or.inr (Or.inr hl)

mutual

/-- What comes back is something JSON has. -/
theorem isJson_reload : ∀ {v w : Value}, v.reload = some w → w.isJson = true
  | .null, w, h => by
    cases h
    rfl
  | .bool _, w, h => by
    cases h
    rfl
  | .int _, w, h => by
    cases h
    rfl
  | .float _, w, h => by
    cases h
    rfl
  | .str _, w, h => by
    cases h
    rfl
  | .list l, w, h => by
    rw [reload] at h
    obtain ⟨l', hl, rfl⟩ := Option.map_eq_some_iff.mp h
    rw [isJson]
    exact isJsonList_reloadList hl
  | .tuple l, w, h => by
    rw [reload] at h
    obtain ⟨l', hl, rfl⟩ := Option.map_eq_some_iff.mp h
    rw [isJson]
    exact isJsonList_reloadList hl
  | .dict d, w, h => by
    rw [reload] at h
    obtain ⟨l, hl, rfl⟩ := Option.map_eq_some_iff.mp h
    rw [isJson, Bool.and_eq_true, decide_eq_true_iff, isJsonItems_iff]
    have hitems := isJsonItems_iff.mp (isJsonItems_reloadItems hl)
    exact ⟨fun p hp => hitems p (mem_of_ofPairs hp), nodup_ofPairs l⟩
  | .object _ _, w, h => by
    rw [reload] at h
    cases h

theorem isJsonList_reloadList : ∀ {l m : List Value}, reloadList l = some m →
    isJsonList m = true
  | [], m, h => by
    cases h
    rfl
  | v :: l, m, h => by
    rw [reloadList, Option.bind_eq_some_iff] at h
    obtain ⟨w, hv, h⟩ := h
    obtain ⟨l', hl, rfl⟩ := Option.map_eq_some_iff.mp h
    rw [isJsonList, isJson_reload hv, isJsonList_reloadList hl, Bool.true_and]

theorem isJsonItems_reloadItems : ∀ {d l : List (Key × Value)}, reloadItems d = some l →
    isJsonItems l = true
  | [], l, h => by
    cases h
    rfl
  | (k, v) :: d, l, h => by
    rw [reloadItems, Option.bind_eq_some_iff] at h
    obtain ⟨s, -, h⟩ := h
    obtain ⟨w, hv, h⟩ := Option.bind_eq_some_iff.mp h
    obtain ⟨l', hl, rfl⟩ := Option.map_eq_some_iff.mp h
    rw [isJsonItems, isJson_reload hv, isJsonItems_reloadItems hl]
    rfl

end

end Value

end Json

end MultiAgent
