import MultiAgent.Lib.Machine
import MultiAgent.Lib.Semaphore

/-!
# Parties at a semaphore

A program with a semaphore keeps its parties in a list, each outside, waiting in the queue, or
inside with a permit (`Stage`). `Balances` says that the permits which no party has gone on with
and the parties inside make up the semaphore, and that its queue is the parties that wait. Every
operation of the semaphore keeps the balance, if the party that makes it moves as the operation
says (`Balances.take`, `Balances.wait`, `Balances.resume`, `Balances.abandon`,
`Balances.release`); so no more parties are inside than there are permits
(`Balances.countP_inside_le`).
-/

namespace MultiAgent

namespace Semaphore

/-- Where a party is. -/
inductive Stage
  | outside
  | waiting
  | inside
  deriving DecidableEq, Repr

/-- The semaphore has `n` permits and the parties are where it knows them to be. -/
structure Balances {α : Type*} (stage : α → Stage) (n : ℕ) (s : Semaphore ℕ) (l : List α) :
    Prop where
  total : s.permits + l.countP (fun x => stage x = .inside) = n
  queue : ∀ k, k ∈ s.waiters ↔ (l[k]?).any (fun x => stage x = .waiting) = true

namespace Balances

variable {α : Type*} {stage : α → Stage} {n k : ℕ} {s : Semaphore ℕ} {l : List α} {x y : α}

/-- All permits are free, and there are no parties. -/
theorem init (stage : α → Stage) (n : ℕ) : Balances stage n { value := n } [] where
  total := rfl
  queue k := by simp

/-- No more parties are inside than there are permits. -/
theorem countP_inside_le (h : Balances stage n s l) :
    l.countP (fun x => stage x = .inside) ≤ n := by
  have htotal := h.total
  omega

/-- A party that comes is outside. -/
theorem add (h : Balances stage n s l) (hx : stage x = .outside) :
    Balances stage n s (l ++ [x]) where
  total := by
    have htotal := h.total
    rw [List.countP_append, List.countP_singleton, hx]
    simpa using htotal
  queue k := by
    rw [h.queue k]
    rcases Nat.lt_trichotomy k l.length with hlt | rfl | hgt
    · rw [List.getElem?_append_left hlt]
    · rw [List.getElem?_eq_none (Nat.le_refl _), List.getElem?_concat_length]
      simp [hx]
    · rw [List.getElem?_eq_none (Nat.le_of_lt hgt), List.getElem?_eq_none]
      simpa using Nat.succ_le_of_lt hgt

/-- A party moves, and the semaphore changes by what it takes or gives back. -/
theorem move (h : Balances stage n s l) (hk : l[k]? = some x) {t : Semaphore ℕ}
    (hpermits : t.permits + (if stage y = .inside then 1 else 0) =
      s.permits + if stage x = .inside then 1 else 0)
    (hself : k ∈ t.waiters ↔ stage y = .waiting)
    (hother : ∀ j, j ≠ k → (j ∈ t.waiters ↔ j ∈ s.waiters)) :
    Balances stage n t (l.set k y) where
  total := by
    have hcount := countP_set_add (fun x => decide (stage x = .inside)) hk (y := y)
    have htotal := h.total
    simp only [decide_eq_true_eq] at hcount
    omega
  queue j := by
    obtain ⟨hlt, -⟩ := List.getElem?_eq_some_iff.mp hk
    by_cases hj : j = k
    · subst hj
      rw [List.getElem?_set_self hlt, hself]
      simp
    · rw [List.getElem?_set_ne (Ne.symm hj), hother j hj]
      exact h.queue j

theorem mem_waiters (h : Balances stage n s l) (hk : l[k]? = some x) :
    k ∈ s.waiters ↔ stage x = .waiting := by
  rw [h.queue k, hk]
  simp

theorem not_mem_waiters (h : Balances stage n s l) (hk : l[k]? = some x)
    (hx : stage x ≠ .waiting) : k ∉ s.waiters :=
  fun hmem => hx ((h.mem_waiters hk).mp hmem)

/-- A party stays where it is, whatever else of it changes. -/
theorem stay (h : Balances stage n s l) (hk : l[k]? = some x) (hy : stage y = stage x) :
    Balances stage n s (l.set k y) :=
  h.move hk (by rw [hy]) (by rw [h.mem_waiters hk, hy]) fun _ _ => Iff.rfl

/-- A party outside goes on with a free permit. -/
theorem take (h : Balances stage n s l) (hk : l[k]? = some x) (hx : stage x = .outside)
    (hy : stage y = .inside) (hfree : s.locked = false) :
    Balances stage n s.take (l.set k y) := by
  have hnot := h.not_mem_waiters hk (by simp [hx])
  refine h.move hk ?_ (by simpa [hy] using hnot) fun j _ => by simp
  simpa [hx, hy] using s.permits_take hfree

/-- A party outside joins the queue. -/
theorem wait (h : Balances stage n s l) (hk : l[k]? = some x) (hx : stage x = .outside)
    (hy : stage y = .waiting) : Balances stage n (s.wait k) (l.set k y) := by
  have hnot := h.not_mem_waiters hk (by simp [hx])
  refine h.move hk ?_ (by simp [hy]) fun j hj => by simp [hj]
  simp [hx, hy, s.permits_wait hnot]

/-- A party that was woken goes on with the permit it was handed. -/
theorem resume (h : Balances stage n s l) (hk : l[k]? = some x) (hx : stage x = .waiting)
    (hy : stage y = .inside) (hwoken : s.woken k = true) :
    Balances stage n (s.resume k) (l.set k y) := by
  refine h.move hk ?_ (by simp [hy]) fun j hj => by simp [hj]
  simpa [hx, hy] using s.permits_resume hwoken

/-- A party without a permit gives up, and leaves the queue if it is in it. -/
theorem abandon (h : Balances stage n s l) (hk : l[k]? = some x) (hx : stage x ≠ .inside)
    (hy : stage y = .outside) : Balances stage n (s.abandon k) (l.set k y) := by
  refine h.move hk ?_ (by simp [hy]) fun j hj => by simp [hj]
  simp [hx, hy, s.permits_abandon]

/-- A party inside leaves, and gives its permit back. -/
theorem release (h : Balances stage n s l) (hk : l[k]? = some x) (hx : stage x = .inside)
    (hy : stage y = .outside) : Balances stage n s.release (l.set k y) := by
  have hnot := h.not_mem_waiters hk (by simp [hx])
  refine h.move hk ?_ (by simpa [hy] using hnot) fun j _ => by simp
  simp [hx, hy, s.permits_release]

end Balances

end Semaphore

end MultiAgent
