import Mathlib.Data.Int.Notation
import Mathlib.Data.Nat.Notation
import Mathlib.Logic.Function.Basic

/-!
# Decimal texts

The text of a number is made of digits (`isDigit_of_mem_toDigits`), that of an integer may have a
minus in front (`toList_int`) and nothing else (`not_mem_int`), and no two have one text
(`toString_injective`, `int_injective`).
-/

namespace MultiAgent

namespace Decimal

theorem toDigits_injective {m n : ℕ} (h : Nat.toDigits 10 m = Nat.toDigits 10 n) : m = n := by
  rw [← Nat.ofDigitChars_ten_toDigits (n := m), h, Nat.ofDigitChars_ten_toDigits]

theorem toString_injective : Function.Injective (toString : ℕ → String) := by
  intro m n h
  refine toDigits_injective ?_
  rw [← Nat.toList_repr, ← Nat.toList_repr]
  exact congrArg String.toList h

theorem isDigit_of_mem_toDigits {n : ℕ} {c : Char} (h : c ∈ Nat.toDigits 10 n) :
    c.isDigit = true :=
  Nat.isDigit_of_mem_toDigits (by decide) (by decide) h

/-- The digits of a number do not begin with a minus. -/
theorem toDigits_ne_minus (n : ℕ) (t : List Char) : Nat.toDigits 10 n ≠ '-' :: t := by
  intro heq
  have hdigit := isDigit_of_mem_toDigits (n := n) (c := '-') (heq ▸ List.mem_cons_self)
  revert hdigit
  decide

/-- The text of an integer. -/
theorem toList_int (i : ℤ) : (toString i).toList =
    match i with
    | .ofNat n => Nat.toDigits 10 n
    | .negSucc n => '-' :: Nat.toDigits 10 (n + 1) := by
  cases i with
  | ofNat n => exact Nat.toList_repr
  | negSucc n =>
    change ("-" ++ (n + 1).repr).toList = _
    rw [String.toList_append, Nat.toList_repr]
    rfl

/-- A character that is no digit and no minus is not in the text of an integer. -/
theorem not_mem_int {c : Char} (hdigit : c.isDigit = false) (hminus : c ≠ '-') (i : ℤ) :
    c ∉ (toString i).toList := by
  have hdigits : ∀ n : ℕ, c ∉ Nat.toDigits 10 n := by
    intro n hc
    rw [isDigit_of_mem_toDigits hc] at hdigit
    cases hdigit
  rw [toList_int]
  cases i with
  | ofNat n => exact hdigits n
  | negSucc n => exact fun h => (List.mem_cons.mp h).elim hminus (hdigits (n + 1))

theorem int_injective {i j : ℤ} (h : (toString i).toList = (toString j).toList) : i = j := by
  rw [toList_int, toList_int] at h
  cases i with
  | ofNat m =>
    cases j with
    | ofNat n => exact congrArg Int.ofNat (toDigits_injective h)
    | negSucc n => exact absurd h (toDigits_ne_minus m _)
  | negSucc m =>
    cases j with
    | ofNat n => exact absurd h.symm (toDigits_ne_minus n _)
    | negSucc n =>
      exact congrArg Int.negSucc (Nat.succ.inj (toDigits_injective (List.cons.inj h).2))

end Decimal

end MultiAgent
