import Mathlib.Data.List.Sort

/-!
# Order statistics

The `k`-th smallest of the values of a list, counted from zero. It is over a bound exactly if at
most `k` values are within it (`lt_iff_of_nth?`, `le_iff_of_nth?`), and goes along with a change
of the unit (`nth?_map`).
-/

namespace MultiAgent

namespace OrderStatistics

variable {α β : Type*} [LinearOrder α] [LinearOrder β]

/-- The `k`-th smallest value. -/
def nth? (l : List α) (k : ℕ) : Option α :=
  (l.insertionSort (· ≤ ·))[k]?

variable {l : List α} {k : ℕ} {x : α}

theorem nth?_isSome (h : k < l.length) : (nth? l k).isSome := by
  simp [nth?, h]

/-- In a sorted list the values of a kind that is closed downwards are in front. -/
theorem eq_false_iff_of_getElem? {p : α → Bool} (hp : ∀ a b, a ≤ b → p b = true → p a = true)
    {s : List α} (hs : s.Pairwise (· ≤ ·)) (h : s[k]? = some x) :
    p x = false ↔ s.countP p ≤ k := by
  induction s generalizing k with
  | nil => simp at h
  | cons a s ih =>
    obtain ⟨hfirst, hs⟩ := List.pairwise_cons.mp hs
    by_cases hpa : p a = true
    · rw [List.countP_cons_of_pos hpa]
      cases k with
      | zero =>
        obtain rfl : a = x := by simpa using h
        exact iff_of_false (by simp [hpa]) (by simp)
      | succ k => rw [ih hs (by simpa using h), Nat.succ_le_succ_iff]
    · -- no value is of the kind
      have hnone : ∀ b ∈ a :: s, p b = false := by
        refine List.forall_mem_cons.mpr ⟨Bool.eq_false_iff.mpr hpa, fun b hb => ?_⟩
        exact Bool.eq_false_iff.mpr fun hpb => hpa (hp a b (hfirst b hb) hpb)
      have hcount : (a :: s).countP p = 0 :=
        List.countP_eq_zero.mpr fun b hb => by simp [hnone b hb]
      rw [hcount]
      exact iff_of_true (hnone x (List.mem_of_getElem? h)) (Nat.zero_le k)

theorem eq_false_iff_of_nth? {p : α → Bool} (hp : ∀ a b, a ≤ b → p b = true → p a = true)
    (h : nth? l k = some x) : p x = false ↔ l.countP p ≤ k := by
  rw [eq_false_iff_of_getElem? hp (List.pairwise_insertionSort _ l) h,
    (List.perm_insertionSort _ l).countP_eq]

/-- The `k`-th smallest value is over a bound exactly if at most `k` values are within it. -/
theorem lt_iff_of_nth? (h : nth? l k = some x) (t : α) : t < x ↔ l.countP (· ≤ t) ≤ k := by
  rw [← eq_false_iff_of_nth? (fun a b hab hb => by
    simp only [decide_eq_true_eq] at hb ⊢; exact hab.trans hb) h]
  simp

/-- The `k`-th smallest value reaches a bound exactly if at most `k` values are below it. -/
theorem le_iff_of_nth? (h : nth? l k = some x) (t : α) : t ≤ x ↔ l.countP (· < t) ≤ k := by
  rw [← eq_false_iff_of_nth? (fun a b hab hb => by
    simp only [decide_eq_true_eq] at hb ⊢; exact hab.trans_lt hb) h]
  simp

/-- A change of the unit. -/
theorem nth?_map {f : α → β} (hf : StrictMono f) (l : List α) (k : ℕ) :
    nth? (l.map f) k = (nth? l k).map f := by
  unfold nth?
  rw [← List.map_insertionSort (r := (· ≤ ·)) _ _ _ fun a _ b _ => hf.le_iff_le.symm,
    List.getElem?_map]

end OrderStatistics

end MultiAgent
