import MultiAgent.Lib.Splice

/-!
# Edits from the back to the front

Spans of a list are replaced, those that start last first. The places that are left at the end
should be those that no span covers.

A place stands where it stood until the first edit is made that starts at or before it. From then
on each edit that is made moves it by as much as its text is longer than its span (`shift`), and
the place is lost to the first edit that reaches it there (`Reached`, `kept_applyAll_eq`). So the
places that are left are those that no span covers exactly when the places that are reached are
those that are covered (`kept_applyAll_eq_uncovered_iff`). They are if no spans have a place in
common (`reached_iff_of_pairwise`), and if every text is as long as its span
(`reached_iff_of_length_eq`).
-/

namespace MultiAgent

namespace Splice

variable {α β : Type*}

/-- The span has the place `i`. -/
def Edit.Covers (e : Edit α) (i : ℕ) : Prop :=
  e.start ≤ i ∧ i < e.stop

instance (e : Edit α) (i : ℕ) : Decidable (e.Covers i) :=
  inferInstanceAs (Decidable (_ ∧ _))

instance [DecidableEq α] : DecidableEq (Edit α) := fun e f =>
  decidable_of_iff (e.start = f.start ∧ e.stop = f.stop ∧ e.text = f.text) (by
    cases e
    cases f
    simp)

/-- By how much the text is longer than the span. -/
def Edit.growth (e : Edit α) : ℤ :=
  (e.text.length : ℤ) + e.start - e.stop

/-- By how much the edits move a place that they do not reach. -/
def shift : List (Edit α) → ℕ → ℤ
  | [], _ => 0
  | e :: es, i => (if e.start ≤ i then e.growth else 0) + shift es i

/-- An edit that starts at or before `i` ends behind the place where that then stands. It stands
at `x` before the first of the edits. -/
def ReachedFrom (es : List (Edit α)) (i : ℕ) (x : ℤ) : Prop :=
  ∃ k : Fin es.length, es[k].start ≤ i ∧ x + shift (es.take k) i < es[k].stop

/-- One of the edits reaches the place. -/
def Reached (es : List (Edit α)) (i : ℕ) : Prop :=
  ReachedFrom es i i

instance (es : List (Edit α)) (i : ℕ) (x : ℤ) : Decidable (ReachedFrom es i x) :=
  inferInstanceAs (Decidable (∃ _, _))

instance (es : List (Edit α)) (i : ℕ) : Decidable (Reached es i) :=
  inferInstanceAs (Decidable (ReachedFrom es i i))

/-- The places below `n` that no span covers. -/
def uncovered (n : ℕ) (es : List (Edit α)) : List ℕ :=
  (List.range n).filter fun i => ∀ e ∈ es, ¬e.Covers i

variable {es : List (Edit α)} {e : Edit α} {i : ℕ} {x : ℤ}

theorem not_reachedFrom_nil : ¬ReachedFrom ([] : List (Edit α)) i x :=
  fun ⟨k, _⟩ => k.elim0

/-- The first edit reaches the place, or it moves it and a later one does. -/
theorem reachedFrom_cons : ReachedFrom (e :: es) i x ↔
    (e.start ≤ i ∧ x < e.stop) ∨
      ReachedFrom es i (x + if e.start ≤ i then e.growth else 0) := by
  have hfirst : x + shift ((e :: es).take 0) i = x := Int.add_zero x
  have hlater : ∀ k : ℕ, x + shift ((e :: es).take (k + 1)) i =
      x + (if e.start ≤ i then e.growth else 0) + shift (es.take k) i := fun k => by
    rw [List.take_succ_cons, shift, Int.add_assoc]
  unfold ReachedFrom
  constructor
  · rintro ⟨⟨k, hk⟩, hstart, hstop⟩
    cases k with
    | zero => exact .inl ⟨hstart, hfirst ▸ hstop⟩
    | succ k => exact .inr ⟨⟨k, Nat.lt_of_succ_lt_succ hk⟩, hstart, hlater k ▸ hstop⟩
  · rintro (⟨hstart, hstop⟩ | ⟨⟨k, hk⟩, hstart, hstop⟩)
    · exact ⟨⟨0, Nat.succ_pos _⟩, hstart, hfirst.symm ▸ hstop⟩
    · exact ⟨⟨k + 1, Nat.succ_lt_succ hk⟩, hstart, (hlater k).symm ▸ hstop⟩

/-! ## What is left -/

/-- An edit moves what stands behind its span. -/
theorem getElem?_apply_of_stop_le {l : List (ℕ ⊕ α)} {p : ℕ} (he : e.start ≤ e.stop)
    (hp : e.stop ≤ p) (hlt : p < l.length) :
    ((e.map .inr).apply l)[e.start + e.text.length + (p - e.stop)]? = l[p]? := by
  have hlength : (l.take e.start ++ e.text.map (.inr : α → ℕ ⊕ α)).length =
      e.start + e.text.length := by
    rw [List.length_append, List.length_take, List.length_map]
    omega
  have hdrop : e.stop + (p - e.stop) = p := by omega
  unfold Edit.apply Edit.map
  rw [List.getElem?_append_right (by rw [hlength]; omega), hlength, Nat.add_sub_cancel_left,
    List.getElem?_drop, hdrop]

theorem getElem?_apply_of_lt_start {l : List (ℕ ⊕ α)} {p : ℕ} (hp : p < e.start)
    (hlt : p < l.length) : ((e.map .inr).apply l)[p]? = l[p]? := by
  have hleft : p < (l.take e.start).length := by
    rw [List.length_take]
    omega
  unfold Edit.apply Edit.map
  rw [List.append_assoc, List.getElem?_append_left hleft, List.getElem?_take_of_lt hp]

/-- A place is left exactly when it is not reached. It stands where it stood, or at or behind
the starts of the edits to come. -/
theorem mem_kept_applyAll_iff : ∀ {es : List (Edit α)} {l : List (ℕ ⊕ α)} {p : ℕ},
    es.Pairwise (fun e f => f.start ≤ e.start) → (∀ e ∈ es, e.start ≤ e.stop) →
      l[p]? = some (.inl i) → (kept l).Nodup →
        (p = i ∨ ∀ e ∈ es, e.start ≤ i ∧ e.start ≤ p) →
          (i ∈ kept (applyAll l (es.map (Edit.map .inr))) ↔ ¬ReachedFrom es i p)
  | [], l, p, _, _, hget, _, _ =>
    iff_of_true (mem_kept.mpr (List.mem_of_getElem? hget)) not_reachedFrom_nil
  | e :: es, l, p, hsorted, hes, hget, hnodup, hplace => by
    obtain ⟨hfirst, hsorted⟩ := List.pairwise_cons.mp hsorted
    have he := hes e List.mem_cons_self
    have hrest := fun f hf => hes f (List.mem_cons_of_mem e hf)
    have hlt : p < l.length := (List.getElem?_eq_some_iff.mp hget).1
    have hnodup' := hnodup.sublist (kept_apply_sublist he l)
    have happly : applyAll l ((e :: es).map (Edit.map .inr)) =
      applyAll ((e.map .inr).apply l) (es.map (Edit.map .inr)) := rfl
    rw [happly, reachedFrom_cons]
    by_cases hstart : e.start ≤ i
    · have hp : e.start ≤ p := by
        rcases hplace with rfl | hplace
        · exact hstart
        · exact (hplace e List.mem_cons_self).2
      rw [if_pos hstart]
      by_cases hstop : p < e.stop
      · have hgone := not_mem_kept_apply hnodup hget hp hstop
        have hreached : (p : ℤ) < e.stop := by exact_mod_cast hstop
        exact iff_of_false
          (fun hmem => hgone ((kept_applyAll_sublist es _ hrest).subset hmem))
          (not_not.mpr (.inl ⟨hstart, hreached⟩))
      · -- the place moves on, behind the text that was put in
        have hstop := Nat.le_of_not_lt hstop
        have hnot : ¬(e.start ≤ i ∧ (p : ℤ) < e.stop) := by omega
        have hmoved : (p : ℤ) + e.growth = (e.start + e.text.length + (p - e.stop) : ℕ) := by
          unfold Edit.growth
          omega
        have hget' := (getElem?_apply_of_stop_le he hstop hlt).trans hget
        rw [or_iff_right hnot, hmoved]
        refine mem_kept_applyAll_iff hsorted hrest hget' hnodup' (.inr fun f hf => ?_)
        have hle := hfirst f hf
        exact ⟨hle.trans hstart, by omega⟩
    · obtain rfl : i = p := by
        rcases hplace with heq | hplace
        · exact heq.symm
        · exact absurd (hplace e List.mem_cons_self).1 hstart
      have hget' := (getElem?_apply_of_lt_start (Nat.lt_of_not_le hstart) hlt).trans hget
      rw [if_neg hstart, Int.add_zero, or_iff_right fun h => hstart h.1]
      exact mem_kept_applyAll_iff hsorted hrest hget' hnodup' (.inl rfl)

/-- The places that are left are those that no edit reaches, in their order. -/
theorem kept_applyAll_eq {n : ℕ} (hsorted : es.Pairwise fun e f => f.start ≤ e.start)
    (hes : ∀ e ∈ es, e.start ≤ e.stop) :
    kept (applyAll (positions α n) (es.map (Edit.map .inr))) =
      (List.range n).filter fun i => ¬Reached es i := by
  have hsub := kept_applyAll_sublist es (positions α n) hes
  rw [kept_positions] at hsub
  have hmem : ∀ i, i ∈ kept (applyAll (positions α n) (es.map (Edit.map .inr))) ↔
      i ∈ (List.range n).filter fun i => ¬Reached es i := by
    intro i
    rw [List.mem_filter, decide_eq_true_eq]
    by_cases hi : i < n
    · have hget : (positions α n)[i]? = some (.inl i) := by simp [positions, hi]
      have hnodup : (kept (positions α n)).Nodup := by simpa using List.nodup_range
      rw [and_iff_right (List.mem_range.mpr hi)]
      exact mem_kept_applyAll_iff hsorted hes hget hnodup (.inl rfl)
    · have hout : i ∉ List.range n := fun h => hi (List.mem_range.mp h)
      exact iff_of_false (fun h => hout (hsub.subset h)) fun h => hout h.1
  have hperm := (List.perm_ext_iff_of_nodup (List.nodup_range.sublist hsub)
    (List.nodup_range.filter _)).mpr hmem
  exact hperm.eq_of_pairwise (fun _ _ _ _ h h' => absurd h' (Nat.lt_asymm h))
    (List.pairwise_lt_range.sublist hsub) (List.pairwise_lt_range.filter _)

/-- What is left is what no span covers exactly when what is reached is what some span covers. -/
theorem kept_applyAll_eq_uncovered_iff {n : ℕ} (hes : ∀ e ∈ es, e.start ≤ e.stop) :
    kept (applyAll (positions α n) ((backward es).map (Edit.map .inr))) = uncovered n es ↔
      ∀ i < n, Reached (backward es) i ↔ ∃ e ∈ es, e.Covers i := by
  rw [kept_applyAll_eq (pairwise_backward es) fun e he => hes e (mem_backward.mp he), uncovered]
  have hnot : (∀ i < n, (Reached (backward es) i ↔ ∃ e ∈ es, e.Covers i)) ↔
      ∀ i ∈ List.range n, (¬Reached (backward es) i ↔ ∀ e ∈ es, ¬e.Covers i) := by
    refine forall_congr' fun i => ?_
    rw [List.mem_range, ← @not_iff_not (Reached _ i)]
    simp only [not_exists, not_and]
  rw [hnot]
  constructor
  · intro heq i hi
    have hmem : i ∈ (List.range n).filter (fun i => ¬Reached (backward es) i) ↔
        i ∈ (List.range n).filter (fun i => ∀ e ∈ es, ¬e.Covers i) := by rw [heq]
    simpa only [List.mem_filter, hi, true_and, decide_eq_true_eq] using hmem
  · intro h
    exact List.filter_congr fun i hi => decide_eq_decide.mpr (h i hi)

/-! ## Spans that do not disturb one another -/

/-- What stands behind the spans that are left is not reached. -/
theorem not_reachedFrom_of_le : ∀ {es : List (Edit α)} {x : ℤ},
    es.Pairwise (fun e f => f.stop ≤ e.start) → (∀ e ∈ es, (e.stop : ℤ) ≤ x) →
      ¬ReachedFrom es i x
  | [], _, _, _ => not_reachedFrom_nil
  | e :: es, x, hsorted, hx => by
    obtain ⟨hfirst, hsorted⟩ := List.pairwise_cons.mp hsorted
    have hstop := hx e List.mem_cons_self
    rw [reachedFrom_cons, not_or]
    refine ⟨fun h => absurd h.2 (Int.not_lt.mpr hstop),
      not_reachedFrom_of_le hsorted fun f hf => ?_⟩
    have hle := hfirst f hf
    have hf := hx f (List.mem_cons_of_mem e hf)
    split_ifs
    · unfold Edit.growth
      omega
    · omega

/-- If no spans have a place in common, an edit reaches what its span covers. -/
theorem reached_iff_of_pairwise : ∀ {es : List (Edit α)},
    es.Pairwise (fun e f => f.stop ≤ e.start) → (Reached es i ↔ ∃ e ∈ es, e.Covers i)
  | [], _ => iff_of_false not_reachedFrom_nil (by simp)
  | e :: es, hsorted => by
    obtain ⟨hfirst, hsorted⟩ := List.pairwise_cons.mp hsorted
    have ih := reached_iff_of_pairwise hsorted
    unfold Reached at ih ⊢
    rw [reachedFrom_cons, List.exists_mem_cons_iff]
    by_cases hstart : e.start ≤ i
    · have hbehind : ¬∃ f ∈ es, f.Covers i := by
        rintro ⟨f, hf, -, hstop⟩
        have := hfirst f hf
        omega
      rw [if_pos hstart, or_iff_left hbehind]
      by_cases hstop : i < e.stop
      · exact iff_of_true (.inl ⟨hstart, by exact_mod_cast hstop⟩) ⟨hstart, hstop⟩
      · refine iff_of_false (not_or.mpr ⟨fun h => hstop (by exact_mod_cast h.2), ?_⟩)
          fun h => hstop h.2
        refine not_reachedFrom_of_le hsorted fun f hf => ?_
        have := hfirst f hf
        unfold Edit.growth
        omega
    · rw [if_neg hstart, Int.add_zero, ih, or_iff_right fun h => hstart h.1,
        or_iff_right fun h => hstart h.1]

/-- If every text is as long as its span, nothing moves. -/
theorem reached_iff_of_length_eq : ∀ {es : List (Edit α)},
    (∀ e ∈ es, e.start + e.text.length = e.stop) → (Reached es i ↔ ∃ e ∈ es, e.Covers i)
  | [], _ => iff_of_false not_reachedFrom_nil (by simp)
  | e :: es, h => by
    have he := h e List.mem_cons_self
    have hgrowth : e.growth = 0 := by
      unfold Edit.growth
      omega
    have ih := reached_iff_of_length_eq fun f hf => h f (List.mem_cons_of_mem e hf)
    unfold Reached at ih ⊢
    rw [reachedFrom_cons, List.exists_mem_cons_iff, hgrowth, ite_self, Int.add_zero, ih]
    simp only [Edit.Covers, Int.ofNat_lt]

end Splice

end MultiAgent
