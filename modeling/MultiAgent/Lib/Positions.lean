import Mathlib.Data.List.Basic
import Mathlib.Data.List.Nodup

/-!
# Removing collected positions

Positions of a list that are collected first and removed one after the other. A removal
moves what stands behind it one place forward, so from the second removal on another entry
goes than the one that was collected. The entry at the second position is never removed
(`getElem_mem_removeAll`), and so the entries that are left are the others exactly when
there is at most one position (`removeAll_eq_filter_iff`).
-/

namespace MultiAgent

namespace Positions

variable {α : Type*} {l : List α} {ps : List ℕ} {x : α} {p q : ℕ}

/-- Remove what stands at each of the positions when its turn comes. -/
def removeAll (l : List α) (ps : List ℕ) : List α :=
  ps.foldl List.eraseIdx l

/-- What stands before all of the positions stays. -/
theorem mem_removeAll_of_lt : ∀ {ps : List ℕ} {l : List α}, l[q]? = some x →
    (∀ p ∈ ps, q < p) → x ∈ removeAll l ps
  | [], _, hx, _ => List.mem_of_getElem? hx
  | p :: ps, l, hx, h => by
    have hx' : (l.eraseIdx p)[q]? = some x := by
      rw [List.getElem?_eraseIdx_of_lt (h p List.mem_cons_self), hx]
    have hmem : x ∈ removeAll (l.eraseIdx p) ps :=
      mem_removeAll_of_lt hx' fun r hr => h r (List.mem_cons_of_mem _ hr)
    exact hmem

/-- What stands at the second position stays. -/
theorem mem_removeAll_second (hps : (p :: q :: ps).Pairwise (· < ·)) (hx : l[q]? = some x) :
    x ∈ removeAll l (p :: q :: ps) := by
  rw [List.pairwise_cons, List.pairwise_cons] at hps
  obtain ⟨hp, hq, -⟩ := hps
  have hpq := hp q List.mem_cons_self
  -- the first removal moves it one place forward, before all the positions that are left
  have hx' : (l.eraseIdx p)[q - 1]? = some x := by
    have hback : q - 1 + 1 = q := by omega
    rw [List.getElem?_eraseIdx_of_ge (by omega), hback, hx]
  have hmem : x ∈ removeAll (l.eraseIdx p) (q :: ps) := by
    refine mem_removeAll_of_lt hx' fun r hr => ?_
    rcases List.mem_cons.mp hr with rfl | hr
    · omega
    · have := hq r hr
      omega
  exact hmem

theorem eraseIdx_eq_filter [DecidableEq α] (hl : l.Nodup) (hx : l[p]? = some x) :
    l.eraseIdx p = l.filter fun y => y ≠ x := by
  obtain ⟨hp, rfl⟩ := List.getElem?_eq_some_iff.mp hx
  rw [← hl.erase_getElem p hp, hl.erase_eq_filter]
  exact List.filter_congr fun y _ => Bool.eq_iff_iff.mpr (by simp)

/-- Of a list without repetitions the entries at the positions are removed, and no others,
exactly when there is at most one. -/
theorem removeAll_eq_filter_iff (hl : l.Nodup) (hps : ps.Pairwise (· < ·))
    (hlt : ∀ p ∈ ps, p < l.length) (keep : α → Bool)
    (hkeep : ∀ x ∈ l, keep x = false ↔ ∃ p ∈ ps, l[p]? = some x) :
    removeAll l ps = l.filter keep ↔ ps.length ≤ 1 := by
  classical
  match ps with
  | [] =>
    have hall : ∀ x ∈ l, keep x = true := fun x hx => by
      rw [← Bool.not_eq_false, hkeep x hx]
      simp
    simp [removeAll, List.filter_eq_self.mpr hall]
  | [p] =>
    have hp : p < l.length := hlt p List.mem_cons_self
    have hx : l[p]? = some l[p] := List.getElem?_eq_getElem hp
    have hfilter : l.filter keep = l.filter fun y => y ≠ l[p] := by
      refine List.filter_congr fun y hy => ?_
      have hy' := hkeep y hy
      rw [Bool.eq_iff_iff, decide_eq_true_iff, ← Bool.not_eq_false, hy']
      simp [hp, eq_comm]
    have herase : removeAll l [p] = l.filter keep :=
      (eraseIdx_eq_filter hl hx).trans hfilter.symm
    simp [herase]
  | p :: q :: ps =>
    have hq : q < l.length := hlt q (by simp)
    have hx : l[q]? = some l[q] := List.getElem?_eq_getElem hq
    have hgone : keep l[q] = false := (hkeep _ (List.getElem_mem hq)).mpr ⟨q, by simp, hx⟩
    simp only [List.length_cons, Nat.reduceLeDiff, iff_false]
    intro heq
    have hmem := mem_removeAll_second hps hx
    rw [heq, List.mem_filter, hgone] at hmem
    exact Bool.false_ne_true hmem.2

end Positions

end MultiAgent
