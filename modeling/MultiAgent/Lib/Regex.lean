import Mathlib.Algebra.Order.Group.Nat
import Mathlib.Data.List.Basic
import Mathlib.Data.Nat.Basic

/-!
# Regular expressions

A regular expression matches a text from an index on in several ways. The ends of the matches
are listed in the order in which a backtracking engine tries them, so the first one is the match
that is found (`Regex.ends`). What is repeated without a bound is to be an expression that does
not match the empty text.

A match lies in the text, and it is at least as long as the shortest text of the expression
(`Regex.bounds_of_mem_ends`). The matches that are found from left to right do not overlap
(`Regex.pairwise_finditer`). A text without the characters that every match contains has none
(`Regex.exists_of_search`).
-/

namespace MultiAgent

/-- A regular expression, with `p` for a character that has the property and `boundary` for
the places between a character that has it and one that does not. -/
inductive Regex (α : Type*)
  | char (p : α → Bool)
  | boundary (p : α → Bool)
  | textStart
  | textEnd
  | seq (r s : Regex α)
  | alt (r s : Regex α)
  | times (r : Regex α) (least : ℕ) (most : Option ℕ)

namespace Regex

variable {α : Type*}

/-- `step`, taken at least `least` and at most `most` times: as often as possible first. -/
def repeated (step : ℕ → List ℕ) : ℕ → ℕ → ℕ → List ℕ
  | least, 0, i => if least = 0 then [i] else []
  | least, most + 1, i =>
    (step i).flatMap (repeated step (least - 1) most) ++ if least = 0 then [i] else []

/-- Where the matches from `i` on end, in the order in which they are tried. -/
def ends (text : List α) : Regex α → ℕ → List ℕ
  | .char p, i => if text[i]?.any p then [i + 1] else []
  | .boundary p, i =>
    if (text.take i).getLast?.any p = (text.drop i).head?.any p then [] else [i]
  | .textStart, i => if i = 0 then [i] else []
  | .textEnd, i => if i = text.length then [i] else []
  | .seq r s, i => (ends text r i).flatMap fun j => ends text s j
  | .alt r s, i => ends text r i ++ ends text s i
  | .times r least most, i => repeated (fun j => ends text r j) least (most.getD text.length) i

/-- No match is shorter. -/
def minLength : Regex α → ℕ
  | .char _ => 1
  | .boundary _ | .textStart | .textEnd => 0
  | .seq r s => minLength r + minLength s
  | .alt r s => min (minLength r) (minLength s)
  | .times r least _ => least * minLength r

/-- There is a match somewhere. -/
def search (text : List α) (r : Regex α) : Bool :=
  (List.range (text.length + 1)).any fun i => !(ends text r i).isEmpty

/-- The matches that are found from `i` on, one after the other, for an expression that does not
match the empty text. -/
def finditerFrom (text : List α) (r : Regex α) : ℕ → ℕ → List (ℕ × ℕ)
  | 0, _ => []
  | fuel + 1, i =>
    match (ends text r i).head? with
    | none => finditerFrom text r fuel (i + 1)
    | some j => (i, j) :: finditerFrom text r fuel j

/-- The matches that are found from left to right. -/
def finditer (text : List α) (r : Regex α) : List (ℕ × ℕ) :=
  finditerFrom text r (text.length + 1) 0

/-! ## Expressions -/

/-- One of the two or more. -/
def oneOf (r : Regex α) (rs : List (Regex α)) : Regex α :=
  rs.foldl .alt r

/-- One after the other. -/
def chain (r : Regex α) (rs : List (Regex α)) : Regex α :=
  rs.foldl .seq r

/-- Once or not at all. -/
def optional (r : Regex α) : Regex α :=
  .times r 0 (some 1)

/-- `n` times. -/
def exactly (r : Regex α) (n : ℕ) : Regex α :=
  .times r n (some n)

/-! ## Where matches are -/

theorem bounds_of_mem_repeated {step : ℕ → List ℕ} {least' n : ℕ}
    (hstep : ∀ i, ∀ j ∈ step i, i + least' ≤ j ∧ j ≤ max i n) :
    ∀ {most least i j : ℕ}, j ∈ repeated step least most i →
      i + least * least' ≤ j ∧ j ≤ max i n
  | 0, least, i, j, h => by
    unfold repeated at h
    split_ifs at h with hleast
    · obtain rfl := List.mem_singleton.mp h
      simp [hleast]
    · cases h
  | most + 1, least, i, j, h => by
    unfold repeated at h
    rcases List.mem_append.mp h with h | h
    · obtain ⟨k, hk, hj⟩ := List.mem_flatMap.mp h
      have hfirst := hstep i k hk
      have hrest := bounds_of_mem_repeated hstep hj
      have hmul : least * least' ≤ least' + (least - 1) * least' := by
        cases least with
        | zero => simp
        | succ m => rw [Nat.succ_mul, Nat.add_sub_cancel, Nat.add_comm]
      omega
    · split_ifs at h with hleast
      · obtain rfl := List.mem_singleton.mp h
        simp [hleast]
      · cases h

/-- A match is as long as the expression says and ends in the text. -/
theorem bounds_of_mem_ends {text : List α} : ∀ {r : Regex α} {i j : ℕ}, j ∈ ends text r i →
    i + r.minLength ≤ j ∧ j ≤ max i text.length
  | .char p, i, j, h => by
    unfold ends at h
    split_ifs at h with hchar
    · obtain rfl := List.mem_singleton.mp h
      have hlt : i < text.length := by
        by_contra hge
        rw [List.getElem?_eq_none (by omega)] at hchar
        cases hchar
      exact ⟨Nat.le_refl _, (Nat.succ_le_of_lt hlt).trans (Nat.le_max_right _ _)⟩
    · cases h
  | .boundary p, i, j, h => by
    unfold ends at h
    split_ifs at h
    · cases h
    · obtain rfl := List.mem_singleton.mp h
      exact ⟨Nat.le_refl _, Nat.le_max_left _ _⟩
  | .textStart, i, j, h => by
    unfold ends at h
    split_ifs at h
    · obtain rfl := List.mem_singleton.mp h
      exact ⟨Nat.le_refl _, Nat.le_max_left _ _⟩
    · cases h
  | .textEnd, i, j, h => by
    unfold ends at h
    split_ifs at h
    · obtain rfl := List.mem_singleton.mp h
      exact ⟨Nat.le_refl _, Nat.le_max_left _ _⟩
    · cases h
  | .seq r s, i, j, h => by
    unfold ends at h
    obtain ⟨k, hk, hj⟩ := List.mem_flatMap.mp h
    have hr := bounds_of_mem_ends hk
    have hs := bounds_of_mem_ends hj
    unfold minLength
    omega
  | .alt r s, i, j, h => by
    unfold ends at h
    unfold minLength
    rcases List.mem_append.mp h with h | h
    · have hr := bounds_of_mem_ends h
      omega
    · have hs := bounds_of_mem_ends h
      omega
  | .times r least most, i, j, h =>
    bounds_of_mem_repeated (fun _ _ hk => bounds_of_mem_ends hk) h

variable {text : List α} {r : Regex α}

/-- A match that is found starts at or after the index from which it is searched, is not empty
and lies in the text. -/
theorem bounds_of_mem_finditerFrom (hr : 0 < r.minLength) : ∀ {fuel i : ℕ} {m : ℕ × ℕ},
    m ∈ finditerFrom text r fuel i → i ≤ m.1 ∧ m.1 < m.2 ∧ m.2 ≤ text.length
  | 0, _, _, h => by cases h
  | fuel + 1, i, m, h => by
    unfold finditerFrom at h
    cases hhead : (ends text r i).head? with
    | none =>
      simp only [hhead] at h
      have ih := bounds_of_mem_finditerFrom hr h
      exact ⟨(Nat.le_succ i).trans ih.1, ih.2⟩
    | some j =>
      have hbounds := bounds_of_mem_ends (List.mem_of_mem_head? hhead)
      simp only [hhead] at h
      rcases List.mem_cons.mp h with rfl | h
      · exact ⟨Nat.le_refl _, by omega, by omega⟩
      · have ih := bounds_of_mem_finditerFrom hr h
        exact ⟨by omega, ih.2⟩

theorem bounds_of_mem_finditer (hr : 0 < r.minLength) {m : ℕ × ℕ} (h : m ∈ finditer text r) :
    m.1 < m.2 ∧ m.2 ≤ text.length :=
  (bounds_of_mem_finditerFrom hr h).2

theorem pairwise_finditerFrom (hr : 0 < r.minLength) : ∀ fuel i : ℕ,
    (finditerFrom text r fuel i).Pairwise fun m m' => m.2 ≤ m'.1
  | 0, _ => .nil
  | fuel + 1, i => by
    unfold finditerFrom
    cases (ends text r i).head? with
    | none => exact pairwise_finditerFrom hr fuel (i + 1)
    | some j =>
      exact List.pairwise_cons.mpr
        ⟨fun _ hm => (bounds_of_mem_finditerFrom hr hm).1, pairwise_finditerFrom hr fuel j⟩

/-- Each match ends before the next one starts. -/
theorem pairwise_finditer (hr : 0 < r.minLength) :
    (finditer text r).Pairwise fun m m' => m.2 ≤ m'.1 :=
  pairwise_finditerFrom hr _ _

/-! ## Characters that a match contains -/

/-- Every match contains a character with the property. -/
def Needs (p : α → Bool) : Regex α → Prop
  | .char q => ∀ c, q c = true → p c = true
  | .boundary _ | .textStart | .textEnd => False
  | .seq r s => Needs p r ∨ Needs p s
  | .alt r s => Needs p r ∧ Needs p s
  | .times r least _ => 0 < least ∧ Needs p r

theorem exists_step_of_mem_repeated {step : ℕ → List ℕ} {least : ℕ} (hleast : 0 < least) :
    ∀ {most i j : ℕ}, j ∈ repeated step least most i → ∃ k, k ∈ step i
  | 0, i, j, h => by
    rw [repeated, if_neg (Nat.pos_iff_ne_zero.mp hleast)] at h
    cases h
  | most + 1, i, j, h => by
    rw [repeated, if_neg (Nat.pos_iff_ne_zero.mp hleast), List.append_nil] at h
    obtain ⟨k, hk, -⟩ := List.mem_flatMap.mp h
    exact ⟨k, hk⟩

theorem exists_of_mem_ends {p : α → Bool} {text : List α} : ∀ {r : Regex α} {i j : ℕ},
    r.Needs p → j ∈ ends text r i → ∃ c ∈ text, p c = true
  | .char q, i, j, hneeds, h => by
    unfold ends at h
    split_ifs at h with hchar
    · obtain ⟨c, hc, hq⟩ := (Option.any_eq_true _ _).mp hchar
      exact ⟨c, List.mem_of_getElem? hc, hneeds c hq⟩
    · cases h
  | .seq r s, i, j, hneeds, h => by
    unfold ends at h
    obtain ⟨k, hk, hj⟩ := List.mem_flatMap.mp h
    rcases hneeds with hr | hs
    · exact exists_of_mem_ends hr hk
    · exact exists_of_mem_ends hs hj
  | .alt r s, i, j, hneeds, h => by
    unfold ends at h
    rcases List.mem_append.mp h with h | h
    · exact exists_of_mem_ends hneeds.1 h
    · exact exists_of_mem_ends hneeds.2 h
  | .times r least most, i, j, hneeds, h => by
    obtain ⟨k, hk⟩ := exists_step_of_mem_repeated hneeds.1 h
    exact exists_of_mem_ends hneeds.2 hk

/-- A text in which there is a match contains what every match contains. -/
theorem exists_of_search {p : α → Bool} (hneeds : r.Needs p) (h : search text r = true) :
    ∃ c ∈ text, p c = true := by
  obtain ⟨i, -, hi⟩ := List.any_eq_true.mp h
  cases hends : ends text r i with
  | nil => simp [hends] at hi
  | cons j l => exact exists_of_mem_ends hneeds (hends ▸ List.mem_cons_self)

end Regex

end MultiAgent
