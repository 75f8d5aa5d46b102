import Mathlib.Data.List.Infix
import Mathlib.Data.List.Nodup
import Mathlib.Data.Sum.Basic

/-!
# Replacing spans of a list

Edits of a list, one after the other. Each replaces the entries from one index up to another
by others, and an index is one of the list as it is when the edit is made, so an edit may
also replace what earlier ones put in.

Nothing an edit does depends on the entries (`map_applyAll`). So the entries of the result
can be followed : in the list of `positions` an entry of the first list is known by its
place there, and what the edits put in stands apart (`applyAll_positions`). A span of the
first list is still there at the end exactly when no edit cuts it, at the place where it then
stands (`survives_iff`). If the edits go from the back to the front, as those of `backward`, the
first entry that an edit replaces is gone for good (`not_survives_of_mem`).
-/

namespace MultiAgent

namespace Splice

variable {α β : Type*}

/-- Replace what stands from `start` up to `stop` by `text`. -/
structure Edit (α : Type*) where
  start : ℕ
  stop : ℕ
  text : List α

/-- The same edit of another list. -/
def Edit.map (f : α → β) (e : Edit α) : Edit β :=
  { start := e.start, stop := e.stop, text := e.text.map f }

/-- Make one edit. -/
def Edit.apply (e : Edit α) (l : List α) : List α :=
  l.take e.start ++ e.text ++ l.drop e.stop

/-- Make the edits in their order. -/
def applyAll (l : List α) (es : List (Edit α)) : List α :=
  es.foldl (fun l e => e.apply l) l

/-- The places of the first `n` entries. -/
def positions (α : Type*) (n : ℕ) : List (ℕ ⊕ α) :=
  (List.range n).map .inl

/-- The edits make the same list of what stands in the list, whatever that is. -/
theorem map_applyAll (f : α → β) : ∀ (es : List (Edit α)) (l : List α),
    (applyAll l es).map f = applyAll (l.map f) (es.map (Edit.map f))
  | [], _ => rfl
  | e :: es, l => by
    have ih := map_applyAll f es (e.apply l)
    simpa [applyAll, Edit.apply, Edit.map] using ih

/-- The result is read off the result for the positions. -/
theorem applyAll_positions (l : List α) (es : List (Edit α)) :
    (applyAll l es).map some =
      (applyAll (positions α l.length) (es.map (Edit.map .inr))).map
        (Sum.elim (fun i => l[i]?) some) := by
  have hl : (positions α l.length).map (Sum.elim (fun i => l[i]?) some) = l.map some := by
    refine List.ext_getElem (by simp [positions]) fun i hi _ => ?_
    have hlt : i < l.length := by simpa [positions] using hi
    simp [positions, hlt]
  have hes : (es.map (Edit.map (.inr : α → ℕ ⊕ α))).map
      (Edit.map (Sum.elim (fun i => l[i]?) some)) = es.map (Edit.map some) := by
    simp [Edit.map, Function.comp_def]
  rw [map_applyAll, map_applyAll, hl, hes]

/-! ## From the back to the front -/

/-- The edits in the order of their starts, the last one first. -/
def backward (es : List (Edit α)) : List (Edit α) :=
  es.mergeSort fun e f => f.start ≤ e.start

@[simp] theorem mem_backward {es : List (Edit α)} {e : Edit α} : e ∈ backward es ↔ e ∈ es :=
  (List.mergeSort_perm _ _).mem_iff

theorem pairwise_backward (es : List (Edit α)) :
    (backward es).Pairwise fun e f => f.start ≤ e.start := by
  refine (List.pairwise_mergeSort ?_ ?_ es).imp fun h => of_decide_eq_true h
  · intro d e f hde hef
    simp only [decide_eq_true_eq] at *
    omega
  · intro d e
    simp only [Bool.or_eq_true, decide_eq_true_eq]
    omega

theorem map_backward (f : α → β) (es : List (Edit α)) :
    (backward es).map (Edit.map f) = backward (es.map (Edit.map f)) :=
  List.map_mergeSort fun _ _ _ _ => rfl

theorem backward_pair {e f : Edit α} (h : e.start < f.start) : backward [e, f] = [f, e] := by
  have hlt : ¬f.start ≤ e.start := Nat.not_le_of_lt h
  simp [backward, List.mergeSort, List.MergeSort.Internal.splitInTwo, hlt]

/-! ## What is left of the first list -/

/-- The places whose entries are left. -/
def kept (l : List (ℕ ⊕ α)) : List ℕ :=
  l.filterMap Sum.getLeft?

@[simp] theorem kept_append (l m : List (ℕ ⊕ α)) : kept (l ++ m) = kept l ++ kept m := by
  simp [kept]

@[simp] theorem kept_map_inr (text : List α) : kept (text.map (.inr : α → ℕ ⊕ α)) = [] := by
  simp [kept, List.filterMap_map, Function.comp_def]

@[simp] theorem kept_map_inl (ps : List ℕ) : kept (ps.map (.inl : ℕ → ℕ ⊕ α)) = ps := by
  simp [kept, List.filterMap_map, Function.comp_def]

theorem mem_kept {l : List (ℕ ⊕ α)} {i : ℕ} : i ∈ kept l ↔ .inl i ∈ l := by
  simp [kept, List.mem_filterMap, Sum.getLeft?_eq_some_iff]

/-- An edit that puts in text keeps what stands before and after. -/
theorem kept_apply (e : Edit α) (l : List (ℕ ⊕ α)) :
    kept ((e.map .inr).apply l) = kept (l.take e.start) ++ kept (l.drop e.stop) := by
  simp [Edit.apply, Edit.map]

theorem kept_apply_sublist {e : Edit α} (h : e.start ≤ e.stop) (l : List (ℕ ⊕ α)) :
    (kept ((e.map .inr).apply l)).Sublist (kept l) := by
  have hl : (l.take e.start ++ l.drop e.stop).Sublist l := by
    have hdrop : (l.drop e.stop).Sublist (l.drop e.start) := by
      have hstop : e.stop = e.start + (e.stop - e.start) := by omega
      rw [hstop, ← List.drop_drop]
      exact List.drop_sublist _ _
    have happend := (List.Sublist.refl (l.take e.start)).append hdrop
    rwa [List.take_append_drop] at happend
  rw [kept_apply, ← kept_append]
  exact hl.filterMap _

theorem kept_applyAll_sublist : ∀ (es : List (Edit α)) (l : List (ℕ ⊕ α)),
    (∀ e ∈ es, e.start ≤ e.stop) → (kept (applyAll l (es.map (Edit.map .inr)))).Sublist (kept l)
  | [], _, _ => List.Sublist.refl _
  | e :: es, l, h =>
    (kept_applyAll_sublist es _ fun f hf => h f (List.mem_cons_of_mem e hf)).trans
      (kept_apply_sublist (h e List.mem_cons_self) l)

/-- An entry that an edit replaces is gone. -/
theorem not_mem_kept_apply {e : Edit α} {l : List (ℕ ⊕ α)} {x i : ℕ} (hl : (kept l).Nodup)
    (hx : l[x]? = some (.inl i)) (hstart : e.start ≤ x) (hstop : x < e.stop) :
    i ∉ kept ((e.map .inr).apply l) := by
  obtain ⟨hlt, hget⟩ := List.getElem?_eq_some_iff.mp hx
  have hsplit : l.take x ++ .inl i :: l.drop (x + 1) = l := by
    rw [← hget, List.getElem_cons_drop, List.take_append_drop]
  have hkept : kept l = kept (l.take x) ++ i :: kept (l.drop (x + 1)) := by
    conv_lhs => rw [← hsplit]
    rw [kept_append]
    rfl
  rw [hkept, List.nodup_append, List.nodup_cons] at hl
  obtain ⟨-, ⟨hafter, -⟩, hbefore⟩ := hl
  rw [kept_apply, List.mem_append, not_or]
  constructor
  · intro hi
    have hsub : (l.take e.start).Sublist (l.take x) :=
      (List.take_prefix_take_left hstart).sublist
    exact hbefore i ((hsub.filterMap _).subset hi) i List.mem_cons_self rfl
  · intro hi
    have hdrop : l.drop e.stop = (l.drop (x + 1)).drop (e.stop - (x + 1)) := by
      rw [List.drop_drop]
      congr 1
      omega
    have hsub : (l.drop e.stop).Sublist (l.drop (x + 1)) := hdrop ▸ List.drop_sublist _ _
    exact hafter ((hsub.filterMap _).subset hi)

/-! ## Spans -/

/-- The `len` entries from place `a` on stand together in the list. -/
def Survives (a len : ℕ) (l : List (ℕ ⊕ α)) : Prop :=
  (List.range' a len).map .inl <:+: l

/-- One of the edits replaces an entry of the span of `len` entries that stands at the index
`p` before the first of them. -/
def cuts (len : ℕ) : ℕ → List (Edit α) → Bool
  | _, [] => false
  | p, e :: es =>
    if e.stop ≤ p then cuts len (e.start + e.text.length + (p - e.stop)) es
    else if p + len ≤ e.start then cuts len p es
    else true

theorem Survives.mem_kept {a len i : ℕ} {l : List (ℕ ⊕ α)} (h : Survives a len l)
    (hi : i ∈ List.range' a len) : i ∈ kept l :=
  Splice.mem_kept.mpr (h.subset (List.mem_map_of_mem hi))

/-- An edit before a span moves it. -/
theorem apply_before {e : Edit α} {pre span post : List (ℕ ⊕ α)} (hstart : e.start ≤ e.stop)
    (hstop : e.stop ≤ pre.length) :
    (e.map .inr).apply (pre ++ span ++ post) = (e.map .inr).apply pre ++ span ++ post := by
  have hle : e.start ≤ pre.length := hstart.trans hstop
  simp [Edit.apply, Edit.map, List.take_append_of_le_length hle,
    List.drop_append_of_le_length hstop]

/-- An edit behind a span leaves it where it is. -/
theorem apply_after {e : Edit α} {pre span : List (ℕ ⊕ α)} (post : List (ℕ ⊕ α))
    (hstart : pre.length + span.length ≤ e.start) (hstop : e.start ≤ e.stop) :
    ∃ rest, (e.map .inr).apply (pre ++ span ++ post) = pre ++ span ++ rest := by
  have hle : (pre ++ span).length ≤ e.start := by simpa using hstart
  refine ⟨(post.take (e.start - (pre ++ span).length)) ++ e.text.map .inr ++
    (post.drop (e.stop - (pre ++ span).length)), ?_⟩
  rw [Edit.apply, Edit.map, List.take_append, List.drop_append,
    List.take_of_length_le hle, List.drop_eq_nil_of_le (hle.trans hstop), List.nil_append]
  simp only [List.append_assoc]

/-- A span is there at the end exactly when no edit cuts it. -/
theorem survives_applyAll_iff {a len : ℕ} (hlen : 0 < len) : ∀ (es : List (Edit α))
    (pre post : List (ℕ ⊕ α)), (∀ e ∈ es, e.start < e.stop) →
      (kept (pre ++ (List.range' a len).map .inl ++ post)).Nodup →
      (Survives a len (applyAll (pre ++ (List.range' a len).map .inl ++ post)
        (es.map (Edit.map .inr))) ↔ cuts len pre.length es = false)
  | [], pre, post, _, _ => by
    refine iff_of_true ⟨pre, post, rfl⟩ rfl
  | e :: es, pre, post, hes, hnodup => by
    have he := hes e List.mem_cons_self
    have hrest := fun f hf => hes f (List.mem_cons_of_mem e hf)
    have hnodup' := hnodup.sublist (kept_apply_sublist he.le _)
    have happly : applyAll (pre ++ (List.range' a len).map .inl ++ post)
        ((e :: es).map (Edit.map .inr)) =
      applyAll ((e.map .inr).apply (pre ++ (List.range' a len).map .inl ++ post))
        (es.map (Edit.map .inr)) := rfl
    rw [happly]
    unfold cuts
    split_ifs with hbefore hafter
    · rw [apply_before he.le hbefore] at hnodup' ⊢
      have hlength : ((e.map .inr).apply pre).length =
          e.start + e.text.length + (pre.length - e.stop) := by
        have hle : e.start ≤ pre.length := he.le.trans hbefore
        simp [Edit.apply, Edit.map, hle, Nat.add_assoc]
      rw [← hlength]
      exact survives_applyAll_iff hlen es _ post hrest hnodup'
    · have hspan : pre.length + ((List.range' a len).map (.inl : ℕ → ℕ ⊕ α)).length ≤ e.start := by
        simpa using hafter
      obtain ⟨rest, hrest'⟩ := apply_after post hspan he.le
      rw [hrest'] at hnodup' ⊢
      exact survives_applyAll_iff hlen es pre rest hrest hnodup'
    · -- the first entry of the span that is replaced
      obtain ⟨x, hstart, hpre, hstop, hspan⟩ : ∃ x, e.start ≤ x ∧ pre.length ≤ x ∧
          x < e.stop ∧ x < pre.length + len :=
        ⟨max e.start pre.length, by omega, by omega, by omega, by omega⟩
      have hget : (pre ++ (List.range' a len).map .inl ++ post)[x]? =
          some (.inl (a + (x - pre.length))) := by
        have hlt : x - pre.length < len := by omega
        rw [List.append_assoc, List.getElem?_append_right hpre,
          List.getElem?_append_left (by simpa using hlt)]
        simp [hlt]
      have hgone := not_mem_kept_apply hnodup hget hstart hstop
      refine iff_of_false (fun h => hgone ?_) (by simp)
      have hmem : a + (x - pre.length) ∈ List.range' a len := by
        rw [List.mem_range'_1]
        omega
      exact (kept_applyAll_sublist es _ fun f hf => (hrest f hf).le).subset (h.mem_kept hmem)

@[simp] theorem kept_positions (n : ℕ) : kept (positions α n) = List.range n :=
  kept_map_inl _

theorem survives_iff {a len n : ℕ} {es : List (Edit α)} (hlen : 0 < len) (hn : a + len ≤ n)
    (hes : ∀ e ∈ es, e.start < e.stop) :
    Survives a len (applyAll (positions α n) (es.map (Edit.map .inr))) ↔
      cuts len a es = false := by
  have hsplit : positions α n = (List.range' 0 a).map .inl ++ (List.range' a len).map .inl ++
      (List.range' (a + len) (n - (a + len))).map .inl := by
    rw [← List.map_append, ← List.map_append, positions, List.range_eq_range']
    have hfirst := List.range'_append_1 (s := 0) (m := a) (n := len)
    have hsecond := List.range'_append_1 (s := 0) (m := a + len) (n := n - (a + len))
    rw [Nat.zero_add] at hfirst hsecond
    rw [hfirst, hsecond]
    congr 2
    omega
  have hnodup : (kept (positions α n)).Nodup := by
    rw [kept_positions]
    exact List.nodup_range
  rw [hsplit] at hnodup ⊢
  have hiff := survives_applyAll_iff hlen es ((List.range' 0 a).map .inl)
    ((List.range' (a + len) (n - (a + len))).map .inl) hes hnodup
  simpa using hiff

/-- Edits that go from the back to the front : the first entry each replaces is gone. What
stands before the last edit, at `m`, is as it was. -/
theorem start_not_mem_kept : ∀ {es : List (Edit α)} {l : List (ℕ ⊕ α)} {m : ℕ},
    es.Pairwise (fun e f => f.start ≤ e.start) → (∀ e ∈ es, e.start < e.stop) →
      (∀ e ∈ es, e.start ≤ m) → (∀ i < m, l[i]? = some (.inl i)) → m ∉ kept l →
        (kept l).Nodup → ∀ e ∈ es, e.start ∉ kept (applyAll l (es.map (Edit.map .inr)))
  | [], _, _, _, _, _, _, _, _ => fun _ he => absurd he List.not_mem_nil
  | e :: es, l, m, hsorted, hes, hle, hbefore, hm, hl => by
    rw [List.pairwise_cons] at hsorted
    have he := hes e List.mem_cons_self
    have hrest := fun f hf => hes f (List.mem_cons_of_mem e hf)
    have hem := hle e List.mem_cons_self
    have hsub := kept_apply_sublist he.le l
    have hgone : e.start ∉ kept ((e.map .inr).apply l) := by
      rcases hem.lt_or_eq with hlt | rfl
      · exact not_mem_kept_apply hl (hbefore _ hlt) (Nat.le_refl _) he
      · exact fun hmem => hm (hsub.subset hmem)
    intro f hf
    rcases List.mem_cons.mp hf with rfl | hf
    · exact fun hmem =>
        hgone ((kept_applyAll_sublist es _ fun f hf => (hrest f hf).le).subset hmem)
    · refine start_not_mem_kept hsorted.2 hrest hsorted.1 (fun i hi => ?_) hgone
        (hl.sublist hsub) f hf
      have hlength : i < l.length := (List.getElem?_eq_some_iff.mp (hbefore i (by omega))).1
      rw [Edit.apply, Edit.map, List.append_assoc,
        List.getElem?_append_left (by simp; omega), List.getElem?_take_of_lt hi]
      exact hbefore i (by omega)

theorem not_survives_of_mem {e : Edit α} {es : List (Edit α)} {len n : ℕ} (hlen : 0 < len)
    (hsorted : es.Pairwise fun e f => f.start ≤ e.start)
    (hes : ∀ e ∈ es, e.start < e.stop) (hn : ∀ e ∈ es, e.start ≤ n) (he : e ∈ es) :
    ¬Survives e.start len (applyAll (positions α n) (es.map (Edit.map .inr))) := by
  have hplaces : ∀ i < n, (positions α n)[i]? = some (.inl i) := by
    intro i hi
    simp [positions, hi]
  have hgone := start_not_mem_kept hsorted hes hn hplaces (by simp)
    (by simpa using List.nodup_range) e he
  exact fun h => hgone (h.mem_kept (List.mem_range'_1.mpr ⟨Nat.le_refl _, by omega⟩))

end Splice

end MultiAgent
