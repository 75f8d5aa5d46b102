import Mathlib.Algebra.BigOperators.Group.List.Basic
import Mathlib.Algebra.Order.BigOperators.Group.List
import Mathlib.Algebra.Order.Field.Basic
import Mathlib.Data.Nat.Cast.Order.Ring

/-!
# The average of a list

The average does not depend on the order (`average_perm`), lies between the same bounds as the
entries (`average_nonneg`, `average_le_one`), and is the value of the entries if they have only
one (`average_eq`). That of no entries is zero.
-/

namespace MultiAgent

namespace Average

variable {K : Type*} [Field K]

/-- The sum of the entries by their number, and zero if there are none. -/
def average (l : List K) : K :=
  l.sum / l.length

theorem average_perm {l m : List K} (h : l.Perm m) : average l = average m := by
  rw [average, average, h.sum_eq, h.length_eq]

variable [LinearOrder K] [IsStrictOrderedRing K] {l : List K}

theorem average_nonneg (h : ∀ x ∈ l, 0 ≤ x) : 0 ≤ average l :=
  div_nonneg (List.sum_nonneg h) (Nat.cast_nonneg _)

theorem average_le_one (h : ∀ x ∈ l, x ≤ 1) : average l ≤ 1 := by
  have hsum : l.sum ≤ l.length := by
    have hcard := List.sum_le_card_nsmul l 1 h
    rwa [nsmul_one] at hcard
  exact div_le_one_of_le₀ hsum (Nat.cast_nonneg _)

theorem average_eq (hne : l ≠ []) {a : K} (h : ∀ x ∈ l, x = a) : average l = a := by
  have hlength : (l.length : K) ≠ 0 := by
    exact_mod_cast mt List.length_eq_zero_iff.mp hne
  rw [average, List.eq_replicate_of_mem h, List.sum_replicate, List.length_replicate, nsmul_eq_mul,
    mul_comm, mul_div_assoc, div_self hlength, mul_one]

end Average

end MultiAgent
