import Mathlib.Data.List.Basic

/-!
# Luhn sums

The sum of the digits of a number, every second one doubled and reduced to one digit. Modulo ten
it tells apart numbers that differ in one digit (`total_eq_iff_of_one`), and neighbouring digits
that are exchanged unless they are a zero and a nine (`total_eq_iff_of_exchange`).
-/

namespace MultiAgent

namespace Luhn

/-- A digit that is doubled, less nine if it has two digits then. -/
def double (d : ℕ) : ℕ :=
  if 9 < d * 2 then d * 2 - 9 else d * 2

/-- The sum over the digits, of which the first is doubled or the second. -/
def total : Bool → List (Fin 10) → ℕ
  | _, [] => 0
  | doubled, d :: l => (if doubled then double d else d) + total (!doubled) l

variable (doubled : Bool) (l : List (Fin 10)) {d d' : Fin 10} {r : List (Fin 10)}

theorem exists_total_append :
    ∃ doubled', ∀ r, total doubled (l ++ r) = total doubled l + total doubled' r := by
  induction l generalizing doubled with
  | nil => exact ⟨doubled, fun r => (Nat.zero_add _).symm⟩
  | cons d l ih =>
    obtain ⟨doubled', h⟩ := ih !doubled
    refine ⟨doubled', fun r => ?_⟩
    rw [List.cons_append, total, total, h, Nat.add_assoc]

/-- Doubling permutes the digits. -/
theorem double_eq_iff (d d' : Fin 10) :
    (if doubled then double d else d) % 10 = (if doubled then double d' else d') % 10 ↔
      d = d' := by
  revert doubled d d'
  decide

/-- Two neighbouring digits and the same two exchanged. -/
theorem double_add_eq_iff (d d' : Fin 10) :
    ((if doubled then double d else d) + (if !doubled then double d' else d')) % 10 =
        ((if doubled then double d' else d') + (if !doubled then double d else d)) % 10 ↔
      d = d' ∨ d = 0 ∧ d' = 9 ∨ d = 9 ∧ d' = 0 := by
  revert doubled d d'
  decide

/-- Numbers that differ in one digit. -/
theorem total_eq_iff_of_one :
    total doubled (l ++ d :: r) % 10 = total doubled (l ++ d' :: r) % 10 ↔ d = d' := by
  obtain ⟨doubled', h⟩ := exists_total_append doubled l
  rw [← double_eq_iff doubled' d d', h, h, total, total]
  omega

/-- Numbers with two neighbouring digits exchanged. -/
theorem total_eq_iff_of_exchange :
    total doubled (l ++ d :: d' :: r) % 10 = total doubled (l ++ d' :: d :: r) % 10 ↔
      d = d' ∨ d = 0 ∧ d' = 9 ∨ d = 9 ∧ d' = 0 := by
  obtain ⟨doubled', h⟩ := exists_total_append doubled l
  rw [← double_add_eq_iff doubled' d d', h, h, total, total, total, total]
  omega

end Luhn

end MultiAgent
