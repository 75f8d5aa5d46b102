import Mathlib.Data.List.Basic

/-!
# Splitting a string

`str.split` with a separator of one character : the parts between the separators, in their
order and empty ones with them. What follows a separator does not change the first part
(`head?_split_append`), and what precedes the last one is read off (`append_cons_inj`).
-/

namespace MultiAgent

namespace Split

/-- The parts of a list of characters. -/
def splitChars (sep : Char) : List Char → List (List Char)
  | [] => [[]]
  | c :: cs =>
    if c = sep then [] :: splitChars sep cs
    else
      match splitChars sep cs with
      | [] => [[c]]
      | part :: parts => (c :: part) :: parts

/-- `s.split(sep)`. -/
def split (sep : Char) (s : String) : List String :=
  (splitChars sep s.toList).map String.ofList

variable {sep : Char}

/-- There is always a first part. -/
theorem splitChars_eq_cons (sep : Char) (l : List Char) :
    ∃ part parts, splitChars sep l = part :: parts := by
  cases l with
  | nil => exact ⟨[], [], rfl⟩
  | cons c cs =>
    rw [splitChars]
    split_ifs
    · exact ⟨_, _, rfl⟩
    · split <;> exact ⟨_, _, rfl⟩

theorem head?_splitChars_append (l r : List Char) :
    (splitChars sep (l ++ sep :: r)).head? = (splitChars sep l).head? := by
  induction l with
  | nil => simp [splitChars]
  | cons c cs ih =>
    rw [List.cons_append, splitChars, splitChars]
    split_ifs
    · rfl
    · obtain ⟨part, parts, hsplit⟩ := splitChars_eq_cons sep (cs ++ sep :: r)
      obtain ⟨part', parts', hsplit'⟩ := splitChars_eq_cons sep cs
      rw [hsplit, hsplit', List.head?_cons, List.head?_cons] at ih
      rw [hsplit, hsplit', Option.some.inj ih]
      rfl

/-- A text that follows a separator does not change the first part. -/
theorem head?_split_append (s t : String) :
    (split sep (s ++ String.singleton sep ++ t)).head? = (split sep s).head? := by
  have hchars : (s ++ String.singleton sep ++ t).toList = s.toList ++ sep :: t.toList := by simp
  rw [split, split, hchars, List.head?_map, List.head?_map, head?_splitChars_append]

/-- A separator that is not in what follows it ends what precedes it. -/
theorem append_cons_inj {α : Type*} {c : α} {l r l' r' : List α} (hr : c ∉ r) (hr' : c ∉ r')
    (h : l ++ c :: r = l' ++ c :: r') : l = l' ∧ r = r' := by
  rcases List.append_eq_append_iff.mp h with ⟨m, rfl, hm⟩ | ⟨m, rfl, hm⟩
  all_goals
    cases m with
    | nil =>
      simp only [List.nil_append, List.cons.injEq, true_and] at hm
      exact ⟨by simp, by rw [hm]⟩
    | cons d m =>
      obtain ⟨rfl, rfl⟩ := List.cons.inj hm
      simp at hr hr'

end Split

end MultiAgent
