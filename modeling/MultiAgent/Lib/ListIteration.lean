import Mathlib.Data.List.Nodup
import Mathlib.Data.List.TakeDrop

/-!
# Iterating over a list that changes

An iteration over a list by position, while elements are appended to the list and removed from
it. A removal moves the later elements one position towards the front, so the iteration passes
over the element that moves to a position it has been at.

`Cursor` is the list, the next position and the elements that the iteration has come to. None is
come to twice (`Cursor.Sound`), and at most as many are passed over as were removed
(`Cursor.debt_erase_le`).

If the iteration itself removes elements, and nothing else happens, it comes to the elements of
`walk` and leaves those of `walkLeft` : it passes over the one after each that it removes.
-/

namespace MultiAgent

/-- A list, the position an iteration over it goes on at, and what it has come to. -/
structure Cursor (α : Type*) where
  items : List α
  index : ℕ
  seen : List α

namespace Cursor

variable {α : Type*} (c : Cursor α)

/-- The iteration comes to the element `x`. -/
def advance (x : α) : Cursor α :=
  { c with index := c.index + 1, seen := c.seen ++ [x] }

/-- An element is appended. -/
def append (x : α) : Cursor α :=
  { c with items := c.items ++ [x] }

/-- What the iteration has come to and is still there is before the position. -/
structure Sound : Prop where
  nodup : c.items.Nodup
  seen_nodup : c.seen.Nodup
  before : ∀ x ∈ c.seen, x ∈ c.items → x ∈ c.items.take c.index

variable {c} {x : α}

theorem sound_start {l : List α} (h : l.Nodup) : Sound ⟨l, 0, []⟩ :=
  ⟨h, List.nodup_nil, by simp⟩

namespace Sound

theorem notMem_seen (h : c.Sound) (hx : c.items[c.index]? = some x) : x ∉ c.seen := by
  intro hseen
  have hbefore := h.before x hseen (List.mem_of_getElem? hx)
  obtain ⟨hlt, rfl⟩ := List.getElem?_eq_some_iff.mp hx
  obtain ⟨k, hk, heq⟩ := List.getElem_of_mem hbefore
  rw [List.length_take] at hk
  rw [List.getElem_take, h.nodup.getElem_inj_iff] at heq
  omega

theorem advance (h : c.Sound) (hx : c.items[c.index]? = some x) : (c.advance x).Sound where
  nodup := h.nodup
  seen_nodup := h.seen_nodup.append (List.nodup_singleton x) (by simpa using h.notMem_seen hx)
  before := by
    intro y hy hitems
    obtain ⟨hlt, heq⟩ := List.getElem?_eq_some_iff.mp hx
    simp only [Cursor.advance] at hy hitems ⊢
    rw [List.take_add_one, hx]
    rcases List.mem_append.mp hy with hy | hy
    · exact List.mem_append_left _ (h.before y hy hitems)
    · exact List.mem_append_right _ (by simpa using hy)

theorem append (h : c.Sound) (hitems : x ∉ c.items) (hseen : x ∉ c.seen) :
    (c.append x).Sound where
  nodup := h.nodup.append (List.nodup_singleton x) (by simpa using hitems)
  seen_nodup := h.seen_nodup
  before := by
    intro y hy hin
    rcases List.mem_append.mp hin with hin | hin
    · have hbefore := h.before y hy hin
      simp only [Cursor.append, List.take_append]
      exact List.mem_append_left _ hbefore
    · rw [List.mem_singleton] at hin
      exact absurd (hin ▸ hy) hseen

end Sound

variable [DecidableEq α]

/-- An element is removed. -/
def erase (c : Cursor α) (x : α) : Cursor α :=
  { c with items := c.items.erase x }

/-- The elements before the position that the iteration has passed over, and how far it is
beyond the end. -/
def debt (c : Cursor α) : ℕ :=
  (c.items.take c.index).countP (· ∉ c.seen) + (c.index - c.items.length)

@[simp] theorem debt_start (l : List α) : debt ⟨l, 0, []⟩ = 0 := by
  simp [debt]

theorem Sound.erase (h : c.Sound) (x : α) : (c.erase x).Sound where
  nodup := h.nodup.erase x
  seen_nodup := h.seen_nodup
  before := by
    intro y hy hin
    by_cases hx : x ∈ c.items
    · obtain ⟨l, r, -, heq, herase⟩ := List.exists_erase_eq hx
      simp only [Cursor.erase] at hy hin ⊢
      have hyitems : y ∈ c.items := List.mem_of_mem_erase hin
      have hne : y ≠ x := by
        rintro rfl
        exact h.nodup.not_mem_erase hin
      have hbefore := h.before y hy hyitems
      rw [heq, List.take_append] at hbefore
      rw [herase, List.take_append]
      rcases List.mem_append.mp hbefore with hbefore | hbefore
      · exact List.mem_append_left _ hbefore
      · refine List.mem_append_right _ ?_
        have hcons : y ∈ x :: r.take (c.index - l.length) := by
          refine List.Sublist.subset ?_ hbefore
          rw [← List.take_succ_cons]
          exact (List.take_prefix_take_left (by omega)).sublist
        exact (List.mem_cons.mp hcons).resolve_left hne
    · have hsame : c.items.erase x = c.items := List.erase_of_not_mem hx
      simp only [Cursor.erase, hsame] at hin ⊢
      exact h.before y hy hin

theorem debt_advance_le (hx : c.items[c.index]? = some x) : (c.advance x).debt ≤ c.debt := by
  obtain ⟨hlt, -⟩ := List.getElem?_eq_some_iff.mp hx
  unfold debt Cursor.advance
  dsimp only
  rw [List.take_add_one, hx, List.countP_append]
  have hmono : (c.items.take c.index).countP (· ∉ c.seen ++ [x]) ≤
      (c.items.take c.index).countP (· ∉ c.seen) :=
    List.countP_mono_left fun y _ hy => by simp_all
  have hzero : (some x).toList.countP (· ∉ c.seen ++ [x]) = 0 := by simp
  omega

theorem debt_append_le (x : α) : (c.append x).debt ≤ c.debt := by
  unfold debt Cursor.append
  dsimp only
  rw [List.take_append, List.countP_append, List.length_append, List.length_singleton]
  rcases Nat.lt_or_ge c.items.length c.index with hlt | hge
  · have hone : ([x].take (c.index - c.items.length)).countP (· ∉ c.seen) ≤ 1 :=
      Nat.le_trans List.countP_le_length (by rw [List.length_take]; exact Nat.min_le_right _ _)
    omega
  · rw [Nat.sub_eq_zero_of_le hge, List.take_zero, List.countP_nil]
    omega

/-- The iteration passes over at most one more element for one that is removed. -/
theorem debt_erase_le (x : α) : (c.erase x).debt ≤ c.debt + 1 := by
  by_cases hx : x ∈ c.items
  · obtain ⟨l, r, -, heq, herase⟩ := List.exists_erase_eq hx
    unfold debt Cursor.erase
    dsimp only
    rw [herase, heq, List.take_append, List.take_append, List.countP_append, List.countP_append,
      List.length_append, List.length_append, List.length_cons]
    rcases Nat.lt_or_ge l.length c.index with hlt | hge
    · obtain ⟨k, hk⟩ : ∃ k, c.index - l.length = k + 1 := ⟨c.index - l.length - 1, by omega⟩
      rw [hk, List.take_succ_cons, List.take_add_one, List.countP_append, List.countP_cons]
      rcases Nat.lt_or_ge k r.length with hkr | hkr
      · have hone : (r[k]?.toList).countP (· ∉ c.seen) ≤ 1 :=
          Nat.le_trans List.countP_le_length (by rw [List.getElem?_eq_getElem hkr]; simp)
        omega
      · rw [List.getElem?_eq_none hkr, Option.toList_none, List.countP_nil]
        omega
    · rw [Nat.sub_eq_zero_of_le hge, List.take_zero, List.take_zero, List.countP_nil]
      omega
  · have hsame : c.erase x = c := by
      unfold Cursor.erase
      rw [List.erase_of_not_mem hx]
    rw [hsame]
    omega

/-- Once the iteration is at the end, what it has not come to was passed over. -/
theorem countP_le_debt (hend : c.items[c.index]? = none) :
    c.items.countP (· ∉ c.seen) ≤ c.debt := by
  unfold debt
  rw [List.take_of_length_le (List.getElem?_eq_none_iff.mp hend)]
  exact Nat.le_add_right _ _

end Cursor

/-- What an iteration comes to that removes the elements with `p` as it goes. -/
def walk {α : Type*} (p : α → Bool) : List α → List α
  | [] => []
  | [x] => [x]
  | x :: y :: l => x :: if p x then walk p l else walk p (y :: l)

/-- What such an iteration leaves. -/
def walkLeft {α : Type*} (p : α → Bool) : List α → List α
  | [] => []
  | [x] => if p x then [] else [x]
  | x :: y :: l => if p x then y :: walkLeft p l else x :: walkLeft p (y :: l)

end MultiAgent
