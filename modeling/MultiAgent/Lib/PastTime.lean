import Mathlib.Data.List.DropRight

/-!
# What a history says of the past

A history is a list with the latest entry last, and a formula is a property of histories.
`Sometime φ` says that `φ` held at some time up to now, `Since φ ψ` that `ψ` held at some time
and `φ` at every time after it. Both are recursions over the latest entry
(`sometime_concat_iff`, `since_concat_iff`), which is how a program keeps track of them.

`streak p` is the number of entries with `p` in a row at the end of the history.
-/

namespace MultiAgent

namespace PastTime

variable {α : Type*} {φ ψ : List α → Prop} {l : List α}

/-- `φ` held of some beginning of the history. -/
def Sometime (φ : List α → Prop) (l : List α) : Prop :=
  ∃ a, a <+: l ∧ φ a

/-- `ψ` held of some beginning of the history, and `φ` of every longer one. -/
def Since (φ ψ : List α → Prop) (l : List α) : Prop :=
  ∃ a, a <+: l ∧ ψ a ∧ ∀ c, a <+: c → c <+: l → c ≠ a → φ c

theorem sometime_nil_iff : Sometime φ [] ↔ φ [] := by
  constructor
  · rintro ⟨a, ha, h⟩
    rwa [List.prefix_nil.mp ha] at h
  · exact fun h => ⟨[], List.prefix_rfl, h⟩

theorem sometime_concat_iff (x : α) : Sometime φ (l ++ [x]) ↔ φ (l ++ [x]) ∨ Sometime φ l := by
  constructor
  · rintro ⟨a, ha, h⟩
    rcases List.prefix_concat_iff.mp ha with rfl | ha
    · exact Or.inl h
    · exact Or.inr ⟨a, ha, h⟩
  · rintro (h | ⟨a, ha, h⟩)
    · exact ⟨_, List.prefix_rfl, h⟩
    · exact ⟨a, ha.trans (List.prefix_append _ _), h⟩

theorem since_nil_iff : Since φ ψ [] ↔ ψ [] := by
  constructor
  · rintro ⟨a, ha, h, -⟩
    rwa [List.prefix_nil.mp ha] at h
  · exact fun h => ⟨[], List.prefix_rfl, h, fun c _ hc hne => absurd (List.prefix_nil.mp hc) hne⟩

theorem since_concat_iff (x : α) :
    Since φ ψ (l ++ [x]) ↔ ψ (l ++ [x]) ∨ φ (l ++ [x]) ∧ Since φ ψ l := by
  constructor
  · rintro ⟨a, ha, hψ, hφ⟩
    rcases List.prefix_concat_iff.mp ha with rfl | hal
    · exact Or.inl hψ
    · have hne : l ++ [x] ≠ a := by
        rintro rfl
        exact absurd hal.length_le (by simp)
      refine Or.inr ⟨hφ _ ha List.prefix_rfl hne, a, hal, hψ, fun c hac hc => ?_⟩
      exact hφ c hac (hc.trans (List.prefix_append _ _))
  · rintro (hψ | ⟨hnow, a, ha, hψ, hφ⟩)
    · refine ⟨_, List.prefix_rfl, hψ, fun c hac hc hne => absurd ?_ hne⟩
      exact hc.eq_of_length_le hac.length_le
    · refine ⟨a, ha.trans (List.prefix_append _ _), hψ, fun c hac hc hne => ?_⟩
      rcases List.prefix_concat_iff.mp hc with rfl | hc
      · exact hnow
      · exact hφ c hac hc hne

theorem Since.sometime (h : Since φ ψ l) : Sometime ψ l :=
  let ⟨a, ha, hψ, _⟩ := h
  ⟨a, ha, hψ⟩

/-! ## Streaks -/

/-- The number of entries with `p` in a row at the end. -/
def streak (p : α → Bool) (l : List α) : ℕ :=
  (l.rtakeWhile p).length

variable {p : α → Bool} {x : α}

@[simp] theorem streak_nil (p : α → Bool) : streak p [] = 0 := by
  simp [streak]

theorem streak_concat_of_pos (l : List α) (h : p x = true) :
    streak p (l ++ [x]) = streak p l + 1 := by
  unfold streak
  rw [List.rtakeWhile_concat_pos _ _ _ h, List.length_append, List.length_singleton]

theorem streak_concat_of_neg (l : List α) (h : p x = false) : streak p (l ++ [x]) = 0 := by
  unfold streak
  rw [List.rtakeWhile_concat_neg _ _ _ (by simp [h]), List.length_nil]

end PastTime

end MultiAgent
