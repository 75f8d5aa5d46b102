import Mathlib.Data.List.Forall2

/-!
# Validations

The parts of a value are checked one after the other. What is wrong with a part is collected, and
the parts after it are still checked. An exception ends the validation, whatever has been
collected before (`Validated`).

So a validation gives a value exactly if every part does (`isOk_seq`, `exists_forEach_eq_ok`), and
it raises what the first part that raises does (`exception_seq`, `exception_forEach`).
-/

namespace MultiAgent

universe u

/-- What a validation comes to: a value, the errors that were collected, or an exception. -/
inductive Validated (ε φ : Type u) (α : Type u)
  | ok (a : α)
  | invalid (errors : List ε)
  | raised (e : φ)

namespace Validated

variable {ε φ α β : Type u}

/-- A validation of another part after the first ones. -/
def andAlso : Validated ε φ (α → β) → Validated ε φ α → Validated ε φ β
  | .raised e, _ => .raised e
  | .ok _, .raised e => .raised e
  | .ok g, .ok a => .ok (g a)
  | .ok _, .invalid errors => .invalid errors
  | .invalid _, .raised e => .raised e
  | .invalid errors, .ok _ => .invalid errors
  | .invalid errors, .invalid others => .invalid (errors ++ others)

instance : Applicative (Validated ε φ) where
  pure := .ok
  seq f x := f.andAlso (x ())

/-- A step that is made only with a value. -/
def andThen : Validated ε φ α → (α → Validated ε φ β) → Validated ε φ β
  | .ok a, f => f a
  | .invalid errors, _ => .invalid errors
  | .raised e, _ => .raised e

/-- The errors, with what is known of the place outside. -/
def mapErrors (f : ε → ε) : Validated ε φ α → Validated ε φ α
  | .ok a => .ok a
  | .invalid errors => .invalid (errors.map f)
  | .raised e => .raised e

/-- A list, entry by entry, with the index of the entry. -/
def forEach (f : ℕ → α → Validated ε φ β) : ℕ → List α → Validated ε φ (List β)
  | _, [] => .ok []
  | i, a :: l => List.cons <$> f i a <*> forEach f (i + 1) l

/-- There is a value. -/
def isOk : Validated ε φ α → Bool
  | .ok _ => true
  | _ => false

/-- What is raised. -/
def exception : Validated ε φ α → Option φ
  | .raised e => some e
  | _ => none

theorem exists_of_isOk {x : Validated ε φ α} (h : x.isOk) : ∃ a, x = .ok a := by
  cases x with
  | ok a => exact ⟨a, rfl⟩
  | invalid errors => cases h
  | raised e => cases h

theorem eq_raised_of_exception {x : Validated ε φ α} {e : φ} (h : x.exception = some e) :
    x = .raised e := by
  cases x with
  | ok a => cases h
  | invalid errors => cases h
  | raised e' => exact congrArg Validated.raised (Option.some.inj h)

@[simp] theorem isOk_seq (f : Validated ε φ (α → β)) (x : Validated ε φ α) :
    (f <*> x).isOk = (f.isOk && x.isOk) := by
  change (f.andAlso x).isOk = _
  cases f <;> cases x <;> rfl

@[simp] theorem exception_seq (f : Validated ε φ (α → β)) (x : Validated ε φ α) :
    (f <*> x).exception = f.exception.or x.exception := by
  change (f.andAlso x).exception = _
  cases f <;> cases x <;> rfl

@[simp] theorem isOk_map (g : α → β) (x : Validated ε φ α) : (g <$> x).isOk = x.isOk := by
  change ((ok g : Validated ε φ (α → β)).andAlso x).isOk = _
  cases x <;> rfl

@[simp] theorem exception_map (g : α → β) (x : Validated ε φ α) :
    (g <$> x).exception = x.exception := by
  change ((ok g : Validated ε φ (α → β)).andAlso x).exception = _
  cases x <;> rfl

@[simp] theorem isOk_mapErrors (f : ε → ε) (x : Validated ε φ α) :
    (x.mapErrors f).isOk = x.isOk := by
  cases x <;> rfl

@[simp] theorem exception_mapErrors (f : ε → ε) (x : Validated ε φ α) :
    (x.mapErrors f).exception = x.exception := by
  cases x <;> rfl

theorem exception_forEach (f : ℕ → α → Validated ε φ β) (e : α → Option φ)
    (h : ∀ i a, (f i a).exception = e a) :
    ∀ (l : List α) (i : ℕ), (forEach f i l).exception = l.findSome? e
  | [], _ => rfl
  | a :: l, i => by
    rw [forEach, exception_seq, exception_map, h, exception_forEach f e h l, List.findSome?_cons]
    cases e a <;> rfl

/-- The values of a list whose entries have values. -/
theorem exists_forEach_eq_ok {f : ℕ → α → Validated ε φ β} {R : α → β → Prop} :
    ∀ {l : List α} (i : ℕ), (∀ i, ∀ a ∈ l, ∃ b, f i a = .ok b ∧ R a b) →
      ∃ r, forEach f i l = .ok r ∧ List.Forall₂ R l r
  | [], _, _ => ⟨[], rfl, .nil⟩
  | a :: l, i, h => by
    obtain ⟨b, hb, hab⟩ := h i a List.mem_cons_self
    obtain ⟨r, hr, hlr⟩ := exists_forEach_eq_ok (i + 1) fun j a' ha' =>
      h j a' (List.mem_cons_of_mem a ha')
    refine ⟨b :: r, ?_, .cons hab hlr⟩
    rw [forEach, hb, hr]
    rfl

theorem exception_andThen_of_none (x : Validated ε φ α) {f : α → Validated ε φ β}
    (h : ∀ a, (f a).exception = none) : (x.andThen f).exception = x.exception := by
  cases x with
  | ok a => exact h a
  | invalid errors => rfl
  | raised e => rfl

/-- With a value, the step after it decides. -/
theorem exception_andThen (x : Validated ε φ α) (f : α → Validated ε φ β) {e : φ}
    (h : ∀ a, (f a).exception = some e) :
    (x.andThen f).exception = x.exception.or (if x.isOk then some e else none) := by
  cases x with
  | ok a => exact h a
  | invalid errors => rfl
  | raised e => rfl

end Validated

end MultiAgent
