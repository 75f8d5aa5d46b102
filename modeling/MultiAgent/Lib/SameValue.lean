import MultiAgent.Lib.PyValue

/-!
# Values that are the same up to the order of items

What a document holds does not depend on the order in which a dictionary lists its items, so a
writer may sort them. `same v w` compares two values down to their scalars, which it tells apart
by type. Lists agree element by element (`same_arr`), dictionaries at every key
(`lookup_of_same`).
-/

namespace MultiAgent

namespace PyValue

mutual

/-- The values are the same up to the order of items. -/
def same : PyValue → PyValue → Bool
  | .null, .null => true
  | .bool a, .bool b => a == b
  | .int a, .int b => a == b
  | .float a, .float b => a == b
  | .str a, .str b => a == b
  | .arr l, .arr m => sameList l m
  | .obj d, .obj e => sameItems d e && e.all fun p => (d.lookup p.1).isSome
  | _, _ => false
termination_by structural v => v

/-- Lists compare element by element. -/
def sameList : List PyValue → List PyValue → Bool
  | [], [] => true
  | v :: l, w :: m => same v w && sameList l m
  | _, _ => false
termination_by structural l => l

/-- Every item on the left is at its key on the right. -/
def sameItems : Items → Items → Bool
  | [], _ => true
  | (k, v) :: d, e =>
    (match e.lookup k with
      | some w => same v w
      | none => false) && sameItems d e
termination_by structural d => d

end

/-- The values are the same. -/
def Same (v w : PyValue) : Prop :=
  same v w = true

instance (v w : PyValue) : Decidable (Same v w) :=
  inferInstanceAs (Decidable (same v w = true))

@[simp] theorem same_null {w : PyValue} : Same .null w ↔ w = .null := by
  cases w <;> simp [Same, same]

@[simp] theorem same_str {s : String} {w : PyValue} : Same (.str s) w ↔ w = .str s := by
  cases w with
  | str t =>
    change (s == t) = true ↔ _
    rw [beq_iff_eq, str.injEq, eq_comm]
  | _ => simp [Same, same]

theorem sameList_iff : ∀ {l m : List PyValue}, sameList l m = true ↔ List.Forall₂ Same l m
  | [], [] => by simp [sameList]
  | [], _ :: _ => by simp [sameList]
  | _ :: _, [] => by simp [sameList]
  | v :: l, w :: m => by
    rw [sameList, Bool.and_eq_true, List.forall₂_cons, sameList_iff]
    rfl

theorem same_arr {l : List PyValue} {w : PyValue} :
    Same (.arr l) w ↔ ∃ m, w = .arr m ∧ List.Forall₂ Same l m := by
  cases w with
  | arr m => simp [Same, same, sameList_iff]
  | _ => simp [Same, same]

theorem lookup_of_sameItems {k : PyKey} {v : PyValue} {e : Items} :
    ∀ {d : Items}, sameItems d e = true → d.lookup k = some v → ∃ w, e.lookup k = some w ∧ Same v w
  | [], _, hv => by cases hv
  | (k', v') :: d, h, hv => by
    rw [sameItems, Bool.and_eq_true] at h
    by_cases hk : k = k'
    · subst hk
      rw [Dict.lookup_cons_self (k, v')] at hv
      cases hv
      cases hw : e.lookup k with
      | none => simp [hw] at h
      | some w =>
        rw [hw] at h
        exact ⟨w, rfl, h.1⟩
    · rw [Dict.lookup_cons_ne (p := (k', v')) d hk] at hv
      exact lookup_of_sameItems h.2 hv

/-- Dictionaries that are the same have the same at every key. -/
theorem lookup_of_same {d : Items} {w : PyValue} (h : Same (.obj d) w) :
    ∃ e, w = .obj e ∧ ∀ k, Option.Rel Same (d.lookup k) (e.lookup k) := by
  cases w with
  | obj e =>
    rw [Same, same, Bool.and_eq_true, List.all_eq_true] at h
    refine ⟨e, rfl, fun k => ?_⟩
    cases hd : d.lookup k with
    | some v =>
      obtain ⟨w, hw, hvw⟩ := lookup_of_sameItems h.1 hd
      rw [hw]
      exact .some hvw
    | none =>
      cases he : e.lookup k with
      | none => exact .none
      | some w =>
        -- no key is on the right alone
        obtain ⟨p, hp, hpk⟩ := List.mem_map.mp (Dict.lookup_isSome.mp (Option.isSome_of_mem he))
        have hsome := h.2 p hp
        rw [hpk, hd] at hsome
        cases hsome
  | _ => cases h

end PyValue

end MultiAgent
