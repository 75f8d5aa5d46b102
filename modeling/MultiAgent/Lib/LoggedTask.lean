import Mathlib.Data.Nat.Notation
import Mathlib.Logic.Function.Basic
import Mathlib.Logic.Relation

/-!
# A task in a log

A task that a log has as pending or not, and the workers that run it. A worker takes the
task in hand, runs it, and after a success marks it in the log. The success and the mark
are steps apart, and in between the log still has a task that was run as pending.

`Task.Step` lets a worker take the task only while no other has it in hand, and only if the
log has it as pending or it was never run. `Task.Sound` is what such steps keep : the task
is run to success at most once (`Task.Sound.successes_le_one`).
-/

namespace MultiAgent

/-- What a worker does that has a task in hand : it has not run it to success, or it has and
marks it, or it has marked it. -/
inductive Work
  | working
  | marking
  | marked
  deriving DecidableEq

/-- Whether the log has a task as pending, how often the task was run to success, and what
the workers do that have it in hand. -/
@[ext] structure Task (P : Type*) where
  pending : Bool
  successes : ℕ
  work : P → Option Work

namespace Task

variable {P : Type*}

section Sound

variable (t : Task P)

/-- No worker has the task in hand. -/
def Free : Prop :=
  ∀ q, t.work q = none

/-- One worker at most has the task in hand, which was run to success at most once, and not
at all as long as a worker works at it or the log has it as pending while none marks it. -/
structure Sound : Prop where
  alone : ∀ p q, t.work p ≠ none → t.work q ≠ none → p = q
  unrun : ∀ p, t.work p = some .working → t.successes = 0
  logged : ∀ p, t.work p = some .marked → t.pending = false
  pending : t.pending = true → (∀ p, t.work p ≠ some .marking) → t.successes = 0
  successes_le_one : t.successes ≤ 1

variable {t} {p q : P}

/-- A task that was never run, and that no worker has in hand. -/
theorem Sound.of_free (hfree : t.Free) (hzero : t.successes = 0) : t.Sound where
  alone p q hp := absurd (hfree p) hp
  unrun _ _ := hzero
  logged p hp := by simp [hfree p] at hp
  pending _ _ := hzero
  successes_le_one := hzero ▸ Nat.zero_le 1

/-- The worker that has the task in hand is the only one. -/
theorem Sound.others (h : t.Sound) (hp : t.work p ≠ none) (hq : q ≠ p) : t.work q = none :=
  Classical.byContradiction fun hne => hq (h.alone q p hne hp)

theorem Sound.log (h : t.Sound) (hp : t.work p = some .working) (pending : Bool) :
    Sound { t with pending := pending } := by
  refine ⟨h.alone, h.unrun, fun q hq => ?_, fun _ _ => h.unrun p hp, h.successes_le_one⟩
  have hmarked : t.work q = some .marked := hq
  obtain rfl := h.alone q p (by simp [hmarked]) (by simp [hp])
  simp [hp] at hmarked

end Sound

variable [DecidableEq P] (t : Task P) (p : P)

/-- A worker goes on to other work, or lets the task go. -/
def set (x : Option Work) : Task P :=
  { t with work := Function.update t.work p x }

/-- A step of a worker of the task, or of the log. -/
inductive Step : Task P → Task P → Prop
  | take {t : Task P} (p : P) : t.Free → t.pending = true ∨ t.successes = 0 →
      Step t (t.set p (some .working))
  | log {t : Task P} (p : P) (pending : Bool) : t.work p = some .working →
      Step t { t with pending := pending }
  | succeed {t : Task P} (p : P) : t.work p = some .working →
      Step t { t.set p (some .marking) with successes := t.successes + 1 }
  | mark {t : Task P} (p : P) : t.work p = some .marking →
      Step t { t.set p (some .marked) with pending := false }
  | leave {t : Task P} (p : P) : t.work p ≠ some .marking → Step t (t.set p none)
  | clear {t : Task P} : Step t { t with pending := false }

variable {t p} {q : P} {x y : Option Work}

theorem work_set (h : (t.set p x).work q = y) : q = p ∧ y = x ∨ q ≠ p ∧ t.work q = y := by
  unfold set at h
  dsimp only at h
  by_cases hq : q = p
  · subst hq
    rw [Function.update_self] at h
    exact Or.inl ⟨rfl, h.symm⟩
  · rw [Function.update_of_ne hq] at h
    exact Or.inr ⟨hq, h⟩

@[simp] theorem work_set_self : (t.set p x).work p = x := by
  simp [set]

theorem set_eq_self (h : t.work p = x) : t.set p x = t := by
  unfold set
  rw [← h, Function.update_eq_self]

namespace Sound

theorem set_alone (h : t.Sound) (hp : x ≠ none → ∀ q, q ≠ p → t.work q = none) :
    ∀ q r, (t.set p x).work q ≠ none → (t.set p x).work r ≠ none → q = r := by
  intro q r hq hr
  rcases work_set (rfl : (t.set p x).work q = _) with ⟨rfl, hqx⟩ | ⟨hqp, hq'⟩
  · rcases work_set (rfl : (t.set q x).work r = _) with ⟨rfl, -⟩ | ⟨hrp, hr'⟩
    · rfl
    · exact absurd (hr' ▸ hp (hqx ▸ hq) r hrp) hr
  · rcases work_set (rfl : (t.set p x).work r = _) with ⟨rfl, hrx⟩ | ⟨-, hr'⟩
    · exact absurd (hq' ▸ hp (hrx ▸ hr) q hqp) hq
    · exact h.alone q r (hq' ▸ hq) (hr' ▸ hr)

theorem take (h : t.Sound) (hfree : t.Free) (hready : t.pending = true ∨ t.successes = 0) :
    (t.set p (some .working)).Sound := by
  have hnone : t.successes = 0 := by
    rcases hready with hpending | hzero
    · exact h.pending hpending fun q hq => by simp [hfree q] at hq
    · exact hzero
  refine ⟨h.set_alone fun _ q _ => hfree q, fun _ _ => hnone, fun q hq => ?_, fun _ _ => hnone,
    h.successes_le_one⟩
  rcases work_set hq with ⟨-, hx⟩ | ⟨-, hq⟩
  · cases hx
  · simp [hfree q] at hq

theorem succeed (h : t.Sound) (hp : t.work p = some .working) :
    Sound { t.set p (some .marking) with successes := t.successes + 1 } := by
  have hothers : ∀ q, q ≠ p → t.work q = none := fun q => h.others (by simp [hp])
  refine ⟨h.set_alone fun _ => hothers, fun q hq => ?_, fun q hq => ?_, fun _ hnone => ?_, ?_⟩
  · rcases work_set hq with ⟨-, hx⟩ | ⟨hne, hq⟩
    · cases hx
    · simp [hothers q hne] at hq
  · rcases work_set hq with ⟨-, hx⟩ | ⟨hne, hq⟩
    · cases hx
    · simp [hothers q hne] at hq
  · exact absurd work_set_self (hnone p)
  · exact Nat.le_of_eq (congrArg (· + 1) (h.unrun p hp))

theorem mark (h : t.Sound) (hp : t.work p = some .marking) :
    Sound { t.set p (some .marked) with pending := false } := by
  have hothers : ∀ q, q ≠ p → t.work q = none := fun q => h.others (by simp [hp])
  refine ⟨h.set_alone fun _ => hothers, fun q hq => ?_, fun _ _ => rfl, fun hpending => ?_,
    h.successes_le_one⟩
  · rcases work_set hq with ⟨-, hx⟩ | ⟨hne, hq⟩
    · cases hx
    · simp [hothers q hne] at hq
  · cases hpending

theorem leave (h : t.Sound) (hp : t.work p ≠ some .marking) : (t.set p none).Sound := by
  refine ⟨h.set_alone (by simp), fun q hq => ?_, fun q hq => ?_, fun hpending hnone => ?_,
    h.successes_le_one⟩
  · rcases work_set hq with ⟨-, hx⟩ | ⟨-, hq⟩
    · cases hx
    · exact h.unrun q hq
  · rcases work_set hq with ⟨-, hx⟩ | ⟨-, hq⟩
    · cases hx
    · exact h.logged q hq
  · refine h.pending hpending fun q hq => ?_
    have hne : q ≠ p := fun he => hp (he ▸ hq)
    exact hnone q (by simpa [set, hne] using hq)

theorem step {u : Task P} (h : t.Sound) (hst : Step t u) : u.Sound := by
  cases hst with
  | take p hfree hready => exact h.take hfree hready
  | log p pending hp => exact h.log hp pending
  | succeed p hp => exact h.succeed hp
  | mark p hp => exact h.mark hp
  | leave p hp => exact h.leave hp
  | clear =>
    exact ⟨h.alone, h.unrun, fun _ _ => rfl, fun hpending => absurd hpending Bool.false_ne_true,
      h.successes_le_one⟩

theorem steps {u : Task P} (h : t.Sound) (hst : Relation.ReflTransGen Step t u) : u.Sound := by
  induction hst with
  | refl => exact h
  | tail _ hlast ih => exact ih.step hlast

end Sound

end Task

end MultiAgent
