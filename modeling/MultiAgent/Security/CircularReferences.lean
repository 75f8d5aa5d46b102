import MultiAgent.Security.InputValidator

/-!
# Circular references in the input

`_has_circular_reference` returns on every graph of dictionaries and lists, and it returns `True`
exactly if an object that the data leads to contains itself, directly or through others
(`hasCircularReference_exact`). Objects that are shared and contain each other in no circle are
not reported. What is not reported is nested finitely, so `validate_json` returns or raises a
`ValueError` (`terminates`).
-/

namespace MultiAgent

namespace InputValidator

open ObjectHeap
open Relation (ReflTransGen TransGen)

variable (lib : Libraries) (h : Heap)

/-- The value contains the other one : it is an item of the dictionary, or an element of the
list. -/
def Contains (v w : Val) : Prop :=
  PathSearch.Holds (contents h) v w

/-- Some dictionary or list that is reached from the data contains itself. -/
def Circular (data : Val) : Prop :=
  ∃ v, ReflTransGen (Contains h) data v ∧ TransGen (Contains h) v v

/-- With enough room, the search for circular references returns whether there are some, and
`validate_json` raises no `RecursionError`. -/
structure Terminates (data : Val) : Prop where
  exact : ∃ least, ∀ depth, least ≤ depth → ∃ found seen,
    hasCircularReference h depth data [] = .ok (found, seen) ∧ (found = true ↔ Circular h data)
  validates : ∃ least, ∀ depth, least ≤ depth →
    validateJson lib h depth data ≠ .error .recursionError

variable {h}

theorem identity_injective {v w : Val} {i : ℕ} (hv : identity v = some i)
    (hw : identity w = some i) : v = w := by
  cases v with
  | atom x => cases hv
  | ref j =>
    cases w with
    | atom x => cases hw
    | ref k => exact congrArg Val.ref (Option.some.inj (hv.trans hw.symm))

/-- A container with an identity is in the heap. -/
theorem mem_range_of_contents {v : Val} {l : List Val} {i : ℕ} (hl : contents h v = some l)
    (hi : identity v = some i) : i ∈ Finset.range h.length := by
  cases v with
  | atom x => cases hi
  | ref j =>
    obtain rfl : j = i := Option.some.inj hi
    refine Finset.mem_range.mpr ?_
    by_contra hge
    rw [contents, view, List.getElem?_eq_none (Nat.le_of_not_lt hge)] at hl
    cases hl

mutual

/-- Documents without identities are nested finitely. -/
theorem acc_atom : ∀ x : PyValue, Acc (fun w v => identity v = none ∧ Contains h v w) (.atom x)
  | .arr l => ⟨_, fun w ⟨_, _, hkids, hw⟩ => by
      obtain rfl := Option.some.inj hkids
      obtain ⟨x, hx, rfl⟩ := List.mem_map.mp hw
      exact acc_elements l x hx⟩
  | .obj d => ⟨_, fun w ⟨_, _, hkids, hw⟩ => by
      obtain rfl := Option.some.inj hkids
      obtain ⟨p, hp, rfl⟩ := List.mem_map.mp hw
      obtain ⟨q, hq, rfl⟩ := List.mem_map.mp hp
      exact acc_items d q hq⟩
  | .null => ⟨_, fun w ⟨_, _, hkids, _⟩ => by cases hkids⟩
  | .bool _ => ⟨_, fun w ⟨_, _, hkids, _⟩ => by cases hkids⟩
  | .int _ => ⟨_, fun w ⟨_, _, hkids, _⟩ => by cases hkids⟩
  | .float _ => ⟨_, fun w ⟨_, _, hkids, _⟩ => by cases hkids⟩
  | .str _ => ⟨_, fun w ⟨_, _, hkids, _⟩ => by cases hkids⟩

theorem acc_elements : ∀ l : List PyValue, ∀ x ∈ l,
    Acc (fun w v => identity v = none ∧ Contains h v w) (.atom x)
  | [], _, hx => absurd hx List.not_mem_nil
  | y :: l, x, hx => by
    rcases List.mem_cons.mp hx with heq | hx
    · rw [heq]
      exact acc_atom y
    · exact acc_elements l x hx

theorem acc_items : ∀ d : Items, ∀ p ∈ d,
    Acc (fun w v => identity v = none ∧ Contains h v w) (.atom p.2)
  | [], _, hp => absurd hp List.not_mem_nil
  | (k, y) :: d, p, hp => by
    rcases List.mem_cons.mp hp with heq | hp
    · rw [heq]
      exact acc_atom y
    · exact acc_items d p hp

end

/-- The search for circular references returns. -/
theorem exists_depth_search (data : Val) (seen : List ℕ) : ∃ least, ∀ depth, least ≤ depth →
    hasCircularReference h depth data seen ≠ .error .recursionError := by
  refine PathSearch.exists_depth (fun v l i => mem_range_of_contents) (fun v => ?_) _ seen
    (Nat.le_refl _) data
  cases v with
  | atom x => exact acc_atom x
  | ref i => exact ⟨_, fun w hw => by cases hw.1⟩

/-- What it returns is right. -/
theorem hasCircularReference_eq_ok {depth : ℕ} {data : Val} {found : Bool} {seen : List ℕ}
    (hrun : hasCircularReference h depth data [] = .ok (found, seen)) :
    found = true ↔ Circular h data :=
  PathSearch.search_eq_iff identity_injective hrun

theorem hasCircularReference_exact (data : Val) : ∃ least, ∀ depth, least ≤ depth →
    ∃ found seen, hasCircularReference h depth data [] = .ok (found, seen) ∧
      (found = true ↔ Circular h data) := by
  obtain ⟨least, hleast⟩ := exists_depth_search (h := h) data []
  refine ⟨least, fun depth hdepth => ?_⟩
  cases hrun : hasCircularReference h depth data [] with
  | error e =>
    obtain rfl := PathSearch.error_of_search data [] hrun
    exact absurd hrun (hleast depth hdepth)
  | ok r => exact ⟨r.1, r.2, rfl, hasCircularReference_eq_ok hrun⟩

/-! ## Validation -/

variable {lib}

theorem validateString_ne_recursionError (value : String) (maxLength : Option ℕ) :
    validateString lib value maxLength ≠ .error .recursionError := by
  unfold validateString
  dsimp only
  split_ifs <;> exact fun h => by cases h

theorem map_ne_error {α β : Type} {x : Except PyError α} {e : PyError} (f : α → β)
    (hx : x ≠ .error e) : x.map f ≠ .error e := by
  cases x with
  | ok a => exact fun h => by cases h
  | error e' => exact fun h => hx (congrArg Except.error (Except.error.inj h))

theorem validateNestedData_ne_error {validate : Val → Except PyError PyValue} {e : PyError} :
    ∀ {d : Fields}, (∀ p ∈ d, validate p.2 ≠ .error e) → validateNestedData validate d ≠ .error e
  | [], _ => fun h => by cases h
  | (key, value) :: d, hd => by
    have hfirst := hd _ List.mem_cons_self
    have hrest := validateNestedData_ne_error fun p hp => hd p (List.mem_cons_of_mem _ hp)
    unfold validateNestedData
    cases hv : validate value with
    | error e' =>
      intro hrun
      obtain rfl : e' = e := Except.error.inj hrun
      exact hfirst hv
    | ok w => exact map_ne_error (fun rest => (key, w) :: rest) hrest

theorem validateElements_ne_error {validate : Val → Except PyError PyValue} {e : PyError} :
    ∀ {l : List Val}, (∀ v ∈ l, validate v ≠ .error e) → validateElements validate l ≠ .error e
  | [], _ => fun h => by cases h
  | value :: l, hl => by
    have hfirst := hl _ List.mem_cons_self
    have hrest := validateElements_ne_error fun p hp => hl p (List.mem_cons_of_mem _ hp)
    unfold validateElements
    cases hv : validate value with
    | error e' =>
      intro hrun
      obtain rfl : e' = e := Except.error.inj hrun
      exact hfirst hv
    | ok w => exact map_ne_error (fun rest => w :: rest) hrest

/-- What is nested finitely is validated with enough room. -/
theorem exists_depth_validateValue {v : Val} (hv : Acc (fun w v => Contains h v w) v) :
    ∃ least, ∀ depth, least ≤ depth → validateValue lib h depth v ≠ .error .recursionError := by
  induction hv with
  | intro v _ ih =>
    obtain ⟨search, hsearch⟩ := exists_depth_search (h := h) v []
    have hkids : ∃ least, ∀ depth, least ≤ depth → ∀ w ∈ (contents h v).getD [],
        validateValue lib h depth w ≠ .error .recursionError := by
      refine PathSearch.exists_bound fun w hw => ih w ?_
      cases hl : contents h v with
      | none =>
        rw [hl] at hw
        cases hw
      | some l =>
        rw [hl] at hw
        exact ⟨l, hl, hw⟩
    obtain ⟨kids, hkids⟩ := hkids
    refine ⟨max search kids + 1, fun depth hdepth => ?_⟩
    obtain ⟨n, rfl⟩ := Nat.exists_eq_add_of_le' (Nat.one_le_of_lt hdepth)
    have hn : max search kids ≤ n := Nat.le_of_succ_le_succ hdepth
    have hsearch := hsearch n ((Nat.le_max_left _ _).trans hn)
    have hkids := hkids n ((Nat.le_max_right _ _).trans hn)
    unfold contents at hkids
    unfold validateValue
    cases hview : view h v with
    | scalar x =>
      cases x with
      | str s => exact map_ne_error _ (validateString_ne_recursionError s none)
      | _ => exact fun h => by cases h
    | dict d =>
      simp only [hview, Option.getD_some] at hkids
      dsimp only
      split
      next e he =>
        intro hrun
        obtain rfl : e = .recursionError := Except.error.inj hrun
        exact hsearch he
      · exact fun h => by cases h
      · exact map_ne_error _ (validateNestedData_ne_error fun p hp =>
          hkids p.2 (List.mem_map_of_mem hp))
    | list l =>
      simp only [hview, Option.getD_some] at hkids
      dsimp only
      unfold validateList
      split_ifs
      · exact fun h => by cases h
      · exact map_ne_error _ (validateElements_ne_error hkids)

/-- `validate_json` returns or raises a `ValueError`. -/
theorem exists_depth_validateJson (data : Val) : ∃ least, ∀ depth, least ≤ depth →
    validateJson lib h depth data ≠ .error .recursionError := by
  obtain ⟨search, hsearch⟩ := hasCircularReference_exact (h := h) data
  obtain ⟨found, seen, hfound, -⟩ := hsearch search (Nat.le_refl _)
  unfold validateJson
  cases hview : view h data with
  | scalar x => exact ⟨0, fun _ _ h => by cases h⟩
  | list l => exact ⟨0, fun _ _ h => by cases h⟩
  | dict d =>
    dsimp only
    cases found with
    | false => exact exists_depth_validateValue (PathSearch.acc_of_search_false hfound)
    | true =>
      refine ⟨search + 1, fun depth hdepth => ?_⟩
      obtain ⟨n, rfl⟩ := Nat.exists_eq_add_of_le' (Nat.one_le_of_lt hdepth)
      obtain ⟨found', seen', hfound', hexact⟩ := hsearch n (Nat.le_of_succ_le_succ hdepth)
      obtain rfl : found' = true := hexact.mpr ((hasCircularReference_eq_ok hfound).mp rfl)
      unfold validateValue
      rw [hview]
      dsimp only
      rw [hfound']
      exact fun h => by cases h

/-- The check for circular references returns on every graph and is exact, and `validate_json`
terminates. -/
theorem terminates (lib : Libraries) (h : Heap) (data : Val) : Terminates lib h data :=
  ⟨hasCircularReference_exact data, exists_depth_validateJson data⟩

end InputValidator

end MultiAgent
