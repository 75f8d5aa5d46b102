import Mathlib.Data.List.DropRight
import Mathlib.Data.List.Forall2

/-!
# Deques of a bounded length

A deque with a `maxlen` drops its first entry when it is full and another one is appended
(`push`). What it holds are the last entries of all that were appended (`push_rtake`). Of entries
of a kind that come last, as recent ones do, it holds as many as there are, up to its length
(`countP_rtake`).
-/

namespace MultiAgent

namespace BoundedDeque

variable {α β : Type*} {n : ℕ} {l : List α} {x : α}

/-- `append` of a deque of at most `n` entries. -/
def push (n : ℕ) (l : List α) (x : α) : List α :=
  (l ++ [x]).rtake n

theorem push_zero (l : List α) (x : α) : push 0 l x = [] :=
  List.rtake_zero _

theorem push_succ (n : ℕ) (l : List α) (x : α) : push (n + 1) l x = l.rtake n ++ [x] :=
  List.rtake_concat_succ _ _ _

theorem length_rtake_le (n : ℕ) (l : List α) : (l.rtake n).length ≤ n := by
  unfold List.rtake
  rw [List.length_drop]
  omega

theorem rtake_rtake_of_le {m : ℕ} (h : m ≤ n) (l : List α) : (l.rtake n).rtake m = l.rtake m := by
  rw [List.rtake_eq_reverse_take_reverse, List.rtake_eq_reverse_take_reverse, List.reverse_reverse,
    List.take_take, Nat.min_eq_left h, ← List.rtake_eq_reverse_take_reverse]

/-- The last entries are known from the last entries before. -/
theorem push_rtake (n : ℕ) (l : List α) (x : α) : push n (l.rtake n) x = (l ++ [x]).rtake n := by
  cases n with
  | zero => rw [push_zero, List.rtake_zero]
  | succ n => rw [push_succ, List.rtake_concat_succ, rtake_rtake_of_le (Nat.le_succ n)]

/-- A first entry, if there is room for any. -/
theorem push_nil (hn : 0 < n) (x : α) : push n [] x = [x] := by
  obtain ⟨n, rfl⟩ := Nat.exists_eq_succ_of_ne_zero hn.ne'
  rw [push_succ, List.rtake_nil, List.nil_append]

/-- Entries of two deques stay related in pairs. -/
theorem forall₂_push {R : α → β → Prop} {l' : List β} (h : List.Forall₂ R l l') {y : β}
    (hxy : R x y) (n : ℕ) : List.Forall₂ R (push n l x) (push n l' y) := by
  have happend := List.rel_append h (List.Forall₂.cons hxy .nil)
  unfold push List.rtake
  rw [happend.length_eq]
  exact List.forall₂_drop _ happend

/-- Of entries that come last, the last `n` entries have all of them or are all of them. -/
theorem countP_rtake {p : α → Bool} (h : l.Pairwise fun a b => p a = true → p b = true) (n : ℕ) :
    (l.rtake n).countP p = min n (l.countP p) := by
  induction l using List.reverseRecOn generalizing n with
  | nil => simp
  | append_singleton l x ih =>
    obtain ⟨hl, -, hlast⟩ := List.pairwise_append.mp h
    cases n with
    | zero => simp
    | succ n =>
      rw [List.rtake_concat_succ, List.countP_append, List.countP_append, ih hl n,
        List.countP_singleton]
      by_cases hx : p x = true
      · rw [if_pos hx]
        omega
      · have hnone : l.countP p = 0 := by
          refine List.countP_eq_zero.mpr fun a ha hpa => hx ?_
          exact hlast a ha x (List.mem_singleton_self x) hpa
        rw [if_neg hx, hnone]
        omega

end BoundedDeque

end MultiAgent
