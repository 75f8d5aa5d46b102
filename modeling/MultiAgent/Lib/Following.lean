import Mathlib.Computability.StateTransition
import Mathlib.Data.Fintype.Card
import Mathlib.Data.Set.Finite.Basic

/-!
# Following a partial function

A partial function `f` names for each point the next one, if there is one. Following it from a
point ends (`Ends`) or goes on for ever, and it goes on for ever if it comes back to a point
(`Returns`). Where only finitely many points can be reached, there is no other way to go on for
ever (`ends_iff_not_returns`).

`Ends.induction` is the induction from the end back to the start, `not_ends_step` that what
goes on for ever has a next point which does so too.
-/

namespace MultiAgent

namespace Following

open StateTransition Relation

variable {σ : Type*} {f : σ → Option σ} {a b : σ}

/-- Following `f` from the point comes to an end. -/
def Ends (f : σ → Option σ) (a : σ) : Prop :=
  ∃ b, Reaches f a b ∧ f b = none

/-- Following `f` from the point comes to one that it comes back to. -/
def Returns (f : σ → Option σ) (a : σ) : Prop :=
  ∃ b, Reaches f a b ∧ Reaches₁ f b b

theorem Ends.of_none (h : f a = none) : Ends f a :=
  ⟨a, .refl, h⟩

theorem Ends.of_step (h : f a = some b) (hb : Ends f b) : Ends f a := by
  obtain ⟨c, hc, hend⟩ := hb
  exact ⟨c, hc.head h, hend⟩

/-- What holds at an end, and at a point if it holds at the next one. -/
theorem Ends.induction {P : σ → Prop} (h : Ends f a) (hnone : ∀ a, f a = none → P a)
    (hstep : ∀ a b, f a = some b → P b → P a) : P a := by
  obtain ⟨c, hreach, hend⟩ := h
  induction hreach using ReflTransGen.head_induction_on with
  | refl => exact hnone c hend
  | head hfirst _ ih => exact hstep _ _ hfirst ih

theorem not_ends_step (h : ¬Ends f a) : ∃ b, f a = some b ∧ ¬Ends f b := by
  cases hnext : f a with
  | none => exact absurd (.of_none hnext) h
  | some b => exact ⟨b, rfl, fun hb => h (.of_step hnext hb)⟩

/-- All points after one that is come back to are come back to. -/
theorem back_of_reaches (h : Reaches₁ f a a) (hab : Reaches f a b) : Reaches₁ f b b := by
  induction hab with
  | refl => exact h
  | tail _ hstep ih => exact TransGen.tail' (reaches₁_fwd ih hstep) hstep

theorem not_reaches₁_of_none (h : f a = none) : ¬Reaches₁ f a b := by
  intro hab
  obtain ⟨c, hc, -⟩ := TransGen.head'_iff.mp hab
  rw [h] at hc
  cases hc

theorem not_ends_of_returns (h : Returns f a) : ¬Ends f a := by
  rintro ⟨c, hc, hend⟩
  obtain ⟨b, hb, hback⟩ := h
  rcases reaches_total hb hc with hbc | hcb
  · exact not_reaches₁_of_none hend (back_of_reaches hback hbc)
  · rcases Relation.reflTransGen_iff_eq_or_transGen.mp hcb with rfl | hcb
    · exact not_reaches₁_of_none hend hback
    · exact not_reaches₁_of_none hend hcb

/-- Among finitely many points, following `f` ends or comes back. -/
theorem ends_of_not_returns (hfinite : {b | Reaches f a b}.Finite) (h : ¬Returns f a) :
    Ends f a := by
  have := hfinite.to_subtype
  let after (x y : {b | Reaches f a b}) : Prop := Reaches₁ f y.1 x.1
  have htrans : IsTrans _ after := ⟨fun _ _ _ hxy hyz => hyz.trans hxy⟩
  have hirrefl : Std.Irrefl after := ⟨fun x hx => h ⟨x.1, x.2, hx⟩⟩
  have hends : ∀ x : {b | Reaches f a b}, Ends f x.1 := by
    intro x
    induction x using (Finite.wellFounded_of_trans_of_irrefl after).induction with
    | h y ih =>
      cases hnext : f y.1 with
      | none => exact .of_none hnext
      | some c => exact .of_step hnext (ih ⟨c, y.2.tail hnext⟩ (.single hnext))
  exact hends ⟨a, .refl⟩

theorem ends_iff_not_returns (hfinite : {b | Reaches f a b}.Finite) :
    Ends f a ↔ ¬Returns f a :=
  ⟨fun hends hreturns => not_ends_of_returns hreturns hends, ends_of_not_returns hfinite⟩

end Following

end MultiAgent
