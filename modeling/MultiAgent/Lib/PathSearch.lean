import Mathlib.Data.Finset.Card
import Mathlib.Logic.Relation

/-!
# Searching a graph of objects for a cycle along the current path

A recursive search keeps the objects of the path it is on, and reports a cycle when it comes to
one of them again. It enters an object that it has left before, so shared objects are searched
once for each way to them. A value has an identity (`key`) if it is an object that others may
refer to, and `kids` gives the values in a container.

A report is right (`of_search_true`) : the value leads to an object of the path, or to one that
contains itself. A search that reports nothing leaves the path as it was, and there is neither
(`of_search_false`). With enough room for nested calls the search returns if there are finitely
many objects (`exists_depth`).
-/

set_option linter.unusedSectionVars false

namespace MultiAgent

namespace PathSearch

open Relation (ReflTransGen TransGen)

variable {α ν ε : Type*} [DecidableEq ν]

/-- The path with an object on it. -/
def push (key : Option ν) (seen : List ν) : List ν :=
  key.elim seen fun i => i :: seen

/-- The path without it. -/
def pop (key : Option ν) (seen : List ν) : List ν :=
  key.elim seen seen.erase

/-- Search one value after the other. -/
def scan (recur : α → List ν → Except ε (Bool × List ν)) :
    List α → List ν → Except ε (Bool × List ν)
  | [], seen => .ok (false, seen)
  | v :: l, seen =>
    match recur v seen with
    | .error e => .error e
    | .ok (true, seen) => .ok (true, seen)
    | .ok (false, seen) => scan recur l seen

/-- Search from a value, with room for so many nested calls. -/
def search (overflow : ε) (key : α → Option ν) (kids : α → Option (List α)) :
    ℕ → α → List ν → Except ε (Bool × List ν)
  | 0, _, _ => .error overflow
  | depth + 1, v, seen =>
    if (key v).any (· ∈ seen) then .ok (true, seen)
    else
      match kids v with
      | none => .ok (false, seen)
      | some l =>
        match scan (search overflow key kids depth) l (push (key v) seen) with
        | .error e => .error e
        | .ok (true, seen) => .ok (true, seen)
        | .ok (false, seen) => .ok (false, pop (key v) seen)

/-- The container holds the value. -/
def Holds (kids : α → Option (List α)) (v w : α) : Prop :=
  ∃ l, kids v = some l ∧ w ∈ l

variable {overflow : ε} {key : α → Option ν} {kids : α → Option (List α)} {seen seen' : List ν}

/-- The value leads to an object of the path. -/
def MeetsPath (key : α → Option ν) (kids : α → Option (List α)) (seen : List ν) (v : α) : Prop :=
  ∃ w, ReflTransGen (Holds kids) v w ∧ ∃ i ∈ seen, key w = some i

/-- The value leads to one that contains itself. -/
def MeetsCycle (kids : α → Option (List α)) (v : α) : Prop :=
  ∃ w, ReflTransGen (Holds kids) v w ∧ TransGen (Holds kids) w w

theorem MeetsPath.of_holds {v w : α} (hvw : Holds kids v w) (h : MeetsPath key kids seen w) :
    MeetsPath key kids seen v := by
  obtain ⟨x, hx, hseen⟩ := h
  exact ⟨x, .head hvw hx, hseen⟩

theorem MeetsCycle.of_holds {v w : α} (hvw : Holds kids v w) (h : MeetsCycle kids w) :
    MeetsCycle kids v := by
  obtain ⟨x, hx, hcycle⟩ := h
  exact ⟨x, .head hvw hx, hcycle⟩

theorem mem_push_iff {k : Option ν} {i : ν} : i ∈ push k seen ↔ k = some i ∨ i ∈ seen := by
  cases k with
  | none => simp [push]
  | some j => simp [push, eq_comm]

theorem pop_push (k : Option ν) : pop k (push k seen) = seen := by
  cases k with
  | none => rfl
  | some i => exact List.erase_cons_head i seen

theorem any_mem_iff {k : Option ν} : k.any (· ∈ seen) = true ↔ ∃ i ∈ seen, k = some i := by
  cases k <;> simp

/-! ## What the search finds -/

/-- A report comes from one of the values. -/
theorem of_scan_true {recur : α → List ν → Except ε (Bool × List ν)}
    (hkeeps : ∀ v s, recur v seen = .ok (false, s) → s = seen) :
    ∀ {l : List α}, scan recur l seen = .ok (true, seen') → ∃ v ∈ l, ∃ s,
      recur v seen = .ok (true, s)
  | [], h => by cases h
  | v :: l, h => by
    unfold scan at h
    split at h
    · cases h
    next s hv => exact ⟨v, List.mem_cons_self, s, hv⟩
    next s hv =>
      obtain rfl : seen = s := (hkeeps v s hv).symm
      obtain ⟨w, hw, hfound⟩ := of_scan_true hkeeps h
      exact ⟨w, List.mem_cons_of_mem v hw, hfound⟩

/-- Without a report there is none for any of the values. -/
theorem of_scan_false {recur : α → List ν → Except ε (Bool × List ν)}
    (hkeeps : ∀ v s, recur v seen = .ok (false, s) → s = seen) :
    ∀ {l : List α}, scan recur l seen = .ok (false, seen') →
      seen' = seen ∧ ∀ v ∈ l, recur v seen = .ok (false, seen)
  | [], h => by
    cases h
    exact ⟨rfl, fun v hv => absurd hv List.not_mem_nil⟩
  | v :: l, h => by
    unfold scan at h
    split at h
    · cases h
    · cases h
    next s hv =>
      obtain rfl : seen = s := (hkeeps v s hv).symm
      obtain ⟨hseen, hl⟩ := of_scan_false hkeeps h
      refine ⟨hseen, fun w hw => ?_⟩
      rcases List.mem_cons.mp hw with rfl | hw
      · exact hv
      · exact hl w hw

theorem keeps_of_search : ∀ {depth : ℕ} {seen : List ν} (v : α) (s : List ν),
    search overflow key kids depth v seen = .ok (false, s) → s = seen
  | 0, _, _, _, h => by cases h
  | depth + 1, seen, v, s, h => by
    unfold search at h
    split_ifs at h
    · cases h
    · split at h
      · cases h
        rfl
      · split at h
        · cases h
        · cases h
        next l _ s' hscan =>
          obtain ⟨rfl, -⟩ := of_scan_false keeps_of_search hscan
          cases h
          exact pop_push (key v)

/-- A search that reports nothing : the value leads neither to the path nor to a cycle. -/
theorem of_search_false : ∀ {depth : ℕ} {v : α} {seen s : List ν},
    search overflow key kids depth v seen = .ok (false, s) →
      ¬MeetsPath key kids seen v ∧ ¬MeetsCycle kids v
  | 0, _, _, _, h => by cases h
  | depth + 1, v, seen, s, h => by
    unfold search at h
    split_ifs at h with hseen
    · cases h
    · rw [any_mem_iff] at hseen
      split at h
      next hkids =>
        -- no container
        have hno : ∀ w, ¬Holds kids v w := fun w ⟨l, hl, _⟩ => by
          rw [hkids] at hl
          cases hl
        refine ⟨fun ⟨w, hw, hmem⟩ => ?_, fun ⟨w, hw, hcycle⟩ => ?_⟩
        · rcases ReflTransGen.cases_head hw with rfl | ⟨x, hx, -⟩
          · exact hseen hmem
          · exact hno x hx
        · rcases ReflTransGen.cases_head hw with rfl | ⟨x, hx, -⟩
          · obtain ⟨x, hx, -⟩ := TransGen.head'_iff.mp hcycle
            exact hno x hx
          · exact hno x hx
      next l hkids =>
        split at h
        · cases h
        · cases h
        next s' hscan =>
          have hl := (of_scan_false keeps_of_search hscan).2
          have hkid : ∀ w, Holds kids v w →
              ¬MeetsPath key kids (push (key v) seen) w ∧ ¬MeetsCycle kids w := by
            rintro w ⟨l', hl', hw⟩
            obtain rfl : l = l' := Option.some.inj (hkids.symm.trans hl')
            exact of_search_false (hl w hw)
          refine ⟨fun ⟨w, hw, i, hi, hkey⟩ => ?_, fun ⟨w, hw, hcycle⟩ => ?_⟩
          · rcases ReflTransGen.cases_head hw with rfl | ⟨x, hx, hxw⟩
            · exact hseen ⟨i, hi, hkey⟩
            · exact (hkid x hx).1 ⟨w, hxw, i, mem_push_iff.mpr (Or.inr hi), hkey⟩
          · rcases ReflTransGen.cases_head hw with rfl | ⟨x, hx, hxw⟩
            · -- a kid leads back to the value, which is on a cycle
              obtain ⟨x, hx, hxv⟩ := TransGen.head'_iff.mp hcycle
              exact (hkid x hx).2 ⟨v, hxv, hcycle⟩
            · exact (hkid x hx).2 ⟨w, hxw, hcycle⟩

/-- A search that reports a cycle : the value leads to the path, or to a cycle. -/
theorem of_search_true (hinj : ∀ {v w : α} {i : ν}, key v = some i → key w = some i → v = w) :
    ∀ {depth : ℕ} {v : α} {seen s : List ν},
      search overflow key kids depth v seen = .ok (true, s) →
        MeetsPath key kids seen v ∨ MeetsCycle kids v
  | 0, _, _, _, h => by cases h
  | depth + 1, v, seen, s, h => by
    unfold search at h
    split_ifs at h with hseen
    · exact Or.inl ⟨v, .refl, any_mem_iff.mp hseen⟩
    · split at h
      · cases h
      next l hkids =>
        split at h
        · cases h
        next s' hscan =>
          obtain ⟨w, hw, t, hfound⟩ := of_scan_true keeps_of_search hscan
          have hvw : Holds kids v w := ⟨l, hkids, hw⟩
          rcases of_search_true hinj hfound with ⟨x, hx, i, hi, hkey⟩ | hcycle
          · rcases mem_push_iff.mp hi with hi | hi
            · -- back at the value itself
              obtain rfl := hinj hi hkey
              exact Or.inr ⟨v, .refl, .head' hvw hx⟩
            · exact Or.inl (.of_holds hvw ⟨x, hx, i, hi, hkey⟩)
          · exact Or.inr (.of_holds hvw hcycle)
        · cases h

/-- What the search from an empty path returns. -/
theorem search_eq_iff (hinj : ∀ {v w : α} {i : ν}, key v = some i → key w = some i → v = w)
    {depth : ℕ} {v : α} {found : Bool}
    (h : search overflow key kids depth v [] = .ok (found, seen)) :
    found = true ↔ MeetsCycle kids v := by
  cases found with
  | true =>
    refine iff_of_true rfl ((of_search_true hinj h).resolve_left ?_)
    rintro ⟨w, -, i, hi, -⟩
    cases hi
  | false => exact iff_of_false Bool.false_ne_true (of_search_false h).2

/-- A value from which the search reports nothing is nested finitely. -/
theorem acc_of_search_false : ∀ {depth : ℕ} {v : α} {seen s : List ν},
    search overflow key kids depth v seen = .ok (false, s) → Acc (fun w v => Holds kids v w) v
  | 0, _, _, _, h => by cases h
  | depth + 1, v, seen, s, h => by
    unfold search at h
    split_ifs at h
    · cases h
    · refine ⟨v, fun w ⟨l, hl, hw⟩ => ?_⟩
      simp only [hl] at h
      split at h
      · cases h
      · cases h
      next s' hscan =>
        exact acc_of_search_false ((of_scan_false keeps_of_search hscan).2 w hw)

/-! ## Enough room -/

theorem error_of_scan {recur : α → List ν → Except ε (Bool × List ν)} {e : ε}
    (hrec : ∀ v s, recur v s = .error e → e = overflow) :
    ∀ {l : List α} {seen : List ν}, scan recur l seen = .error e → e = overflow
  | [], _, h => by cases h
  | v :: l, seen, h => by
    unfold scan at h
    split at h
    next e' he =>
      obtain rfl : e' = e := Except.error.inj h
      exact hrec v seen he
    · cases h
    · exact error_of_scan hrec h

/-- The search raises no other error. -/
theorem error_of_search : ∀ {depth : ℕ} {e : ε} (v : α) (seen : List ν),
    search overflow key kids depth v seen = .error e → e = overflow
  | 0, _, _, _, h => (Except.error.inj h).symm
  | depth + 1, e, v, seen, h => by
    unfold search at h
    split_ifs at h
    split at h
    · cases h
    · split at h
      next e' hscan =>
        obtain rfl : e' = e := Except.error.inj h
        exact error_of_scan error_of_search hscan
      · cases h
      · cases h

theorem scan_ne_overflow {recur : α → List ν → Except ε (Bool × List ν)}
    (hkeeps : ∀ v s, recur v seen = .ok (false, s) → s = seen) :
    ∀ {l : List α}, (∀ v ∈ l, recur v seen ≠ .error overflow) →
      scan recur l seen ≠ .error overflow
  | [], _ => fun h => by cases h
  | v :: l, hl => by
    have hrest := scan_ne_overflow hkeeps fun w hw => hl w (List.mem_cons_of_mem v hw)
    unfold scan
    split
    next e he =>
      intro h
      obtain rfl := Except.error.inj h
      exact hl v List.mem_cons_self he
    · exact fun h => by cases h
    next s hv =>
      obtain rfl : seen = s := (hkeeps v s hv).symm
      exact hrest

/-- A bound for each element gives one for all. -/
theorem exists_bound {P : α → ℕ → Prop} : ∀ {l : List α},
    (∀ v ∈ l, ∃ least, ∀ depth, least ≤ depth → P v depth) →
      ∃ least, ∀ depth, least ≤ depth → ∀ v ∈ l, P v depth
  | [], _ => ⟨0, fun _ _ v hv => absurd hv List.not_mem_nil⟩
  | v :: l, h => by
    obtain ⟨m, hm⟩ := h v List.mem_cons_self
    obtain ⟨n, hn⟩ := exists_bound fun w hw => h w (List.mem_cons_of_mem v hw)
    refine ⟨max m n, fun depth hdepth w hw => ?_⟩
    rcases List.mem_cons.mp hw with rfl | hw
    · exact hm depth ((Nat.le_max_left m n).trans hdepth)
    · exact hn depth ((Nat.le_max_right m n).trans hdepth) w hw

/-- One step of the search, with room for the values in the container. -/
theorem exists_depth_of_kids {v : α}
    (hkids : ∀ l, kids v = some l → (key v).any (· ∈ seen) = false → ∀ w ∈ l, ∃ least, ∀ depth,
      least ≤ depth → search overflow key kids depth w (push (key v) seen) ≠ .error overflow) :
    ∃ least, ∀ depth, least ≤ depth → search overflow key kids depth v seen ≠ .error overflow := by
  have hstep : ∃ least, ∀ depth, least ≤ depth → ∀ l, kids v = some l →
      (key v).any (· ∈ seen) = false → ∀ w ∈ l,
        search overflow key kids depth w (push (key v) seen) ≠ .error overflow := by
    cases hv : kids v with
    | none => exact ⟨0, fun _ _ l hl => by cases hl⟩
    | some l =>
      cases hseen : (key v).any (· ∈ seen) with
      | true => exact ⟨0, fun _ _ _ _ h => by cases h⟩
      | false =>
        obtain ⟨least, hleast⟩ := exists_bound (hkids l hv hseen)
        refine ⟨least, fun depth hdepth l' hl' _ => ?_⟩
        obtain rfl := Option.some.inj hl'
        exact hleast depth hdepth
  obtain ⟨least, hleast⟩ := hstep
  refine ⟨least + 1, fun depth hdepth => ?_⟩
  obtain ⟨n, rfl⟩ := Nat.exists_eq_add_of_le' (Nat.one_le_of_lt hdepth)
  unfold search
  split_ifs with hseen
  · exact fun h => by cases h
  · split
    · exact fun h => by cases h
    next l hl =>
      have hscan := scan_ne_overflow keeps_of_search
        (hleast n (Nat.le_of_succ_le_succ hdepth) l hl (Bool.eq_false_iff.mpr hseen))
      split
      next e he => exact fun h => hscan (he.trans h)
      · exact fun h => by cases h
      · exact fun h => by cases h

/-- An object that comes to the path leaves fewer objects outside of it. -/
theorem card_filter_cons_lt {nodes : Finset ν} {i : ν} (hi : i ∈ nodes) (hseen : i ∉ seen) :
    (nodes.filter (· ∉ i :: seen)).card < (nodes.filter (· ∉ seen)).card := by
  refine Finset.card_lt_card (Finset.ssubset_iff_subset_ne.mpr ⟨fun j hj => ?_, fun he => ?_⟩)
  · obtain ⟨hmem, hj⟩ := Finset.mem_filter.mp hj
    exact Finset.mem_filter.mpr ⟨hmem, fun hin => hj (List.mem_cons_of_mem i hin)⟩
  · have houtside : i ∈ nodes.filter (· ∉ seen) := Finset.mem_filter.mpr ⟨hi, hseen⟩
    rw [← he] at houtside
    exact (Finset.mem_filter.mp houtside).2 List.mem_cons_self

/-- The search returns if there are finitely many objects, and values without an identity are
nested finitely. -/
theorem exists_depth {nodes : Finset ν}
    (hnodes : ∀ v l i, kids v = some l → key v = some i → i ∈ nodes)
    (hacc : ∀ v, Acc (fun w v => key v = none ∧ Holds kids v w) v) :
    ∀ (left : ℕ) (seen : List ν), (nodes.filter (· ∉ seen)).card ≤ left → ∀ v : α, ∃ least,
      ∀ depth, least ≤ depth → search overflow key kids depth v seen ≠ .error overflow := by
  intro left
  induction left using Nat.strong_induction_on with
  | _ left ihleft =>
    intro seen hleft v
    -- a value with an identity extends the path, one without is nested finitely
    induction hacc v with
    | intro v _ ih =>
      refine exists_depth_of_kids fun l hl hseen w hw => ?_
      cases hkey : key v with
      | none => exact ih w ⟨hkey, l, hl, hw⟩
      | some i =>
        have hlt := card_filter_cons_lt (hnodes v l i hl hkey) (by simpa [hkey] using hseen)
        exact ihleft _ (Nat.lt_of_lt_of_le hlt hleft) (i :: seen) (Nat.le_refl _) w

end PathSearch

end MultiAgent
