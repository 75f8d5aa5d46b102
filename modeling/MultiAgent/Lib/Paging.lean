import Mathlib.Data.List.Basic
import Mathlib.Data.Nat.Notation

/-!
# Reading a list in pages

A client asks for the pages at the offsets `0`, `n`, `2 * n` and so on, and stops after the first
page with fewer than `n` entries (`PagesInto`). Pages that are cut from the list of the entries
it asks for give that list (`pagesInto_drop`).

If each window of `n` entries is cut first and then filtered, the client stops at the first
window with an entry that it did not ask for. It gets what it asks for if and only if nothing of
that stands behind such a window (`pagesInto_filter_iff`).
-/

namespace MultiAgent

namespace Paging

variable {α : Type*}

/-- What a client gets from the page at `offset` on. -/
inductive PagesInto (page : ℕ → List α) (n : ℕ) : ℕ → List α → Prop
  | last {offset} (short : (page offset).length < n) : PagesInto page n offset (page offset)
  | next {offset rest} (full : n ≤ (page offset).length)
      (more : PagesInto page n (offset + n) rest) : PagesInto page n offset (page offset ++ rest)

variable {page : ℕ → List α} {n offset : ℕ}

/-- The pages are asked for one after the other, so there is one result at most. -/
theorem PagesInto.unique {l l' : List α} (h : PagesInto page n offset l)
    (h' : PagesInto page n offset l') : l = l' := by
  induction h generalizing l' with
  | last short =>
    cases h' with
    | last _ => rfl
    | next full _ => exact absurd full (Nat.not_le.mpr short)
  | next full _ ih =>
    cases h' with
    | last short => exact absurd full (Nat.not_le.mpr short)
    | next _ more => rw [ih more]

theorem pagesInto_iff_of_short (short : (page offset).length < n) {l : List α} :
    PagesInto page n offset l ↔ l = page offset := by
  constructor
  · exact fun h => h.unique (.last short)
  · rintro rfl
    exact .last short

theorem pagesInto_append_iff (full : n ≤ (page offset).length) {rest : List α} :
    PagesInto page n offset (page offset ++ rest) ↔ PagesInto page n (offset + n) rest := by
  constructor
  · intro h
    generalize hl : page offset ++ rest = l at h
    cases h with
    | last short => exact absurd full (Nat.not_le.mpr short)
    | next _ more => exact List.append_cancel_left hl ▸ more
  · exact fun more => .next full more

/-! ## Windows that are filtered -/

/-- Behind a window with an entry that does not pass, nothing passes. -/
def LeadingWindows (n : ℕ) (p : α → Bool) (l : List α) : Prop :=
  ∀ i j x y, l[i]? = some x → l[j]? = some y → i / n < j / n → p y = true → p x = true

variable {p : α → Bool} {l : List α}

/-- What is in a later window is not in the first. -/
theorem le_of_div_lt_div (h : 0 < n) {i j : ℕ} (hij : i / n < j / n) : n ≤ j := by
  have hpos : 1 ≤ j / n := Nat.lt_of_le_of_lt (Nat.zero_le _) hij
  simpa using (Nat.le_div_iff_mul_le h).mp hpos

/-- If the first window passes, it is left to the rest. -/
theorem leadingWindows_drop_iff (h : 0 < n) (hall : ∀ x ∈ l.take n, p x = true) :
    LeadingWindows n p l ↔ LeadingWindows n p (l.drop n) := by
  constructor
  · intro hl i j x y hx hy hij
    rw [List.getElem?_drop] at hx hy
    refine hl (n + i) (n + j) x y hx hy ?_
    rw [Nat.add_div_left i h, Nat.add_div_left j h]
    exact Nat.succ_lt_succ hij
  · intro hl i j x y hx hy hij hpy
    by_cases hi : i < n
    · refine hall x (List.mem_of_getElem? (i := i) ?_)
      rw [List.getElem?_take_of_lt hi, hx]
    · obtain ⟨i, rfl⟩ := Nat.exists_eq_add_of_le (Nat.not_lt.mp hi)
      have hj : n ≤ j := le_of_div_lt_div h hij
      obtain ⟨j, rfl⟩ := Nat.exists_eq_add_of_le hj
      rw [Nat.add_div_left i h, Nat.add_div_left j h] at hij
      rw [← List.getElem?_drop] at hx hy
      exact hl i j x y hx hy (Nat.lt_of_succ_lt_succ hij) hpy

/-- If the first window has an entry that does not pass, nothing behind it may pass. -/
theorem leadingWindows_iff_of_mem (h : 0 < n) {x : α} (hx : x ∈ l.take n) (hpx : p x = false) :
    LeadingWindows n p l ↔ (l.drop n).filter p = [] := by
  obtain ⟨i, hi⟩ := List.mem_iff_getElem?.mp hx
  have hin : i < n := by
    have := List.getElem?_eq_some_iff.mp hi
    have := this.choose
    rw [List.length_take] at this
    omega
  rw [List.getElem?_take_of_lt hin] at hi
  rw [List.filter_eq_nil_iff]
  constructor
  · intro hl y hy hpy
    obtain ⟨j, hj⟩ := List.mem_iff_getElem?.mp hy
    rw [List.getElem?_drop] at hj
    have hij : i / n < (n + j) / n := by
      rw [Nat.add_div_left j h, Nat.div_eq_of_lt hin]
      exact Nat.succ_pos _
    exact absurd (hl i (n + j) x y hi hj hij hpy) (by simp [hpx])
  · intro hnone i' j x' y _ hy hij hpy
    have hj : n ≤ j := le_of_div_lt_div h hij
    obtain ⟨j, rfl⟩ := Nat.exists_eq_add_of_le hj
    rw [← List.getElem?_drop] at hy
    exact absurd hpy (hnone y (List.mem_of_getElem? hy))

/-- The client gets the entries that pass, in their order, if and only if the windows that it
reads to the end pass as a whole. -/
theorem pagesInto_filter_drop_iff (h : 0 < n) (p : α → Bool) (l : List α) (offset : ℕ) :
    PagesInto (fun o => ((l.drop o).take n).filter p) n offset ((l.drop offset).filter p) ↔
      LeadingWindows n p (l.drop offset) := by
  by_cases hmem : ∃ x ∈ (l.drop offset).take n, p x = false
  · obtain ⟨x, hx, hpx⟩ := hmem
    have hshort : (((l.drop offset).take n).filter p).length < n := by
      have := List.length_filter_lt_length_iff_exists (p := p).mpr ⟨x, hx, by simp [hpx]⟩
      have := List.length_take_le n (l.drop offset)
      omega
    rw [pagesInto_iff_of_short hshort, leadingWindows_iff_of_mem h hx hpx]
    conv_lhs => lhs; rw [← List.take_append_drop n (l.drop offset), List.filter_append]
    exact List.append_right_eq_self
  have hall : ∀ x ∈ (l.drop offset).take n, p x = true := by
    intro x hx
    by_contra hpx
    exact hmem ⟨x, hx, Bool.eq_false_iff.mpr hpx⟩
  have hpage : ((l.drop offset).take n).filter p = (l.drop offset).take n :=
    List.filter_eq_self.mpr hall
  by_cases hlen : (l.drop offset).length < n
  · have htake : (l.drop offset).take n = l.drop offset :=
      List.take_of_length_le (Nat.le_of_lt hlen)
    rw [pagesInto_iff_of_short (by rwa [hpage, htake]), leadingWindows_drop_iff h hall, htake,
      List.drop_eq_nil_of_le (Nat.le_of_lt hlen)]
    exact iff_of_true rfl fun i j x y hx => by simp at hx
  · have hfull : n ≤ (((l.drop offset).take n).filter p).length := by
      rw [hpage, List.length_take]
      omega
    have hrec := pagesInto_filter_drop_iff h p l (offset + n)
    conv_lhs => rw [← List.take_append_drop n (l.drop offset), List.filter_append]
    rw [pagesInto_append_iff hfull, leadingWindows_drop_iff h hall, List.drop_drop]
    exact hrec
  termination_by l.length - offset
  decreasing_by
    rw [List.length_drop] at hlen
    omega

theorem pagesInto_filter_iff (h : 0 < n) (p : α → Bool) (l : List α) :
    PagesInto (fun o => ((l.drop o).take n).filter p) n 0 (l.filter p) ↔ LeadingWindows n p l :=
  pagesInto_filter_drop_iff h p l 0

/-- The pages of a list give the list. -/
theorem pagesInto_self (h : 0 < n) (l : List α) :
    PagesInto (fun o => (l.drop o).take n) n 0 l := by
  have := (pagesInto_filter_iff h (fun _ => true) l).mpr fun _ _ _ _ _ _ _ _ => rfl
  simpa using this

end Paging

end MultiAgent
