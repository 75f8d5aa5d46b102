import Mathlib.Algebra.Group.Basic
import Mathlib.Algebra.Order.Monoid.Defs
import Mathlib.Logic.Function.Basic
import Mathlib.Order.Lattice

/-!
# Sums over a moving window

Times are cut into windows : `start t` is where the window of `t` starts, and `key t` is
the name under which its sum is kept. A window may have several names one after the other,
and two windows may share a name.

`Tracked` is what a cache of such sums keeps : under each name stands the sum up to the
last time the name was used. So long as no other window used the name, what is found there
is the sum of the current window (`Tracked.total_eq`), and writing the current sum keeps the
cache tracked (`Tracked.set`).
-/

namespace MultiAgent

/-- The windows that a linear order of times is cut into, with their names. Within a window
the times that share a name are an interval. -/
structure Windows (τ κ : Type*) [LinearOrder τ] where
  start : τ → τ
  key : τ → κ
  key_eq : ∀ {t u v}, start t = start v → key t = key v → t ≤ u → u ≤ v → key u = key t

/-- The sum of the amounts dated from `s` to `t`. -/
def total {τ K : Type*} [LinearOrder τ] [AddCommMonoid K] (s t : τ) : List (τ × K) → K
  | [] => 0
  | e :: es => (if s ≤ e.1 ∧ e.1 ≤ t then e.2 else 0) + total s t es

section Total

variable {τ K : Type*} [LinearOrder τ] [AddCommMonoid K] {s t s' t' : τ}

theorem total_append (es es' : List (τ × K)) :
    total s t (es ++ es') = total s t es + total s t es' := by
  induction es with
  | nil => simp [total]
  | cons e es ih => rw [List.cons_append, total, total, ih, add_assoc]

theorem total_singleton {u : τ} {a : K} (hs : s ≤ u) (ht : u ≤ t) : total s t [(u, a)] = a := by
  rw [total, total, if_pos ⟨hs, ht⟩, add_zero]

theorem total_eq_zero {es : List (τ × K)} (h : ∀ e ∈ es, ¬(s ≤ e.1 ∧ e.1 ≤ t)) :
    total s t es = 0 := by
  induction es with
  | nil => rfl
  | cons e es ih =>
    rw [total, if_neg (h e List.mem_cons_self), zero_add,
      ih fun e' he' => h e' (List.mem_cons_of_mem _ he')]

/-- Sums over windows with the same entries are equal. -/
theorem total_congr {es : List (τ × K)}
    (h : ∀ e ∈ es, (s ≤ e.1 ∧ e.1 ≤ t) ↔ (s' ≤ e.1 ∧ e.1 ≤ t')) :
    total s t es = total s' t' es := by
  induction es with
  | nil => rfl
  | cons e es ih =>
    rw [total, total, ih fun e' he' => h e' (List.mem_cons_of_mem _ he')]
    simp only [h e List.mem_cons_self]

/-- The end of a window does not matter past the last entry. -/
theorem total_of_le {es : List (τ × K)} (ht : ∀ e ∈ es, e.1 ≤ t) (ht' : ∀ e ∈ es, e.1 ≤ t') :
    total s t es = total s t' es :=
  total_congr fun e he => and_congr_right fun _ => ⟨fun _ => ht' e he, fun _ => ht e he⟩

theorem total_nonneg [PartialOrder K] [IsOrderedAddMonoid K] {es : List (τ × K)}
    (h : ∀ e ∈ es, 0 ≤ e.2) : 0 ≤ total s t es := by
  induction es with
  | nil => exact le_rfl
  | cons e es ih =>
    have he := h e List.mem_cons_self
    have hrest := ih fun e' he' => h e' (List.mem_cons_of_mem _ he')
    rw [total]
    split_ifs
    · exact add_nonneg he hrest
    · exact add_nonneg le_rfl hrest

end Total

namespace Windows

variable {τ κ K : Type*} [LinearOrder τ] [AddCommMonoid K] (w : Windows τ κ)

/-- The two times are of one window and one name. -/
def Same (t u : τ) : Prop :=
  w.start t = w.start u ∧ w.key t = w.key u

instance [DecidableEq κ] (t u : τ) : Decidable (w.Same t u) :=
  inferInstanceAs (Decidable (_ ∧ _))

/-- Under each name the cache holds the sum up to the last of the times at which the name
was used, and no later entry has the name. -/
def Tracked (entries : List (τ × K)) (used : List τ) (cache : κ → Option K) : Prop :=
  ∀ k v, cache k = some v → ∃ t ∈ used, w.key t = k ∧ v = total (w.start t) t entries ∧
    ∀ e ∈ entries, w.key e.1 = k → e.1 ≤ t

variable {w} {entries : List (τ × K)} {used : List τ} {cache : κ → Option K} {t : τ}

theorem tracked_empty : w.Tracked entries used fun _ => none := by
  intro k v h
  cases h

/-- What a cache holds for the current window, if no other window used its name. -/
theorem Tracked.total_eq (h : w.Tracked entries used cache) {v : K}
    (hv : cache (w.key t) = some v) (hentries : ∀ e ∈ entries, e.1 ≤ t)
    (hfresh : ∀ u ∈ used, w.key u = w.key t → w.start u = w.start t) :
    v = total (w.start t) t entries := by
  obtain ⟨u, hu, hkey, rfl, hlast⟩ := h _ _ hv
  have hstart := hfresh u hu hkey
  refine total_congr fun e he => ?_
  rw [hstart]
  refine and_congr_right fun hin => ⟨fun _ => hentries e he, fun _ => ?_⟩
  -- an entry of the window after `u` would have the same name
  by_contra hlt
  have hkeys := w.key_eq hstart hkey (not_le.mp hlt).le (hentries e he)
  exact hlt (hlast e he (hkeys.trans hkey))

/-- New entries of the current window are added, and the sum is written under its name. -/
theorem Tracked.set [DecidableEq κ] (h : w.Tracked entries used cache)
    {new : List (τ × K)} (hnew : ∀ e ∈ new, w.key e.1 = w.key t ∧ e.1 ≤ t)
    (hafter : ∀ e ∈ new, ∀ u ∈ used, u ≤ e.1) (hentries : ∀ e ∈ entries, e.1 ≤ t) :
    w.Tracked (entries ++ new) (t :: used)
      (Function.update cache (w.key t) (some (total (w.start t) t (entries ++ new)))) := by
  intro k v hv
  by_cases hk : k = w.key t
  · subst hk
    rw [Function.update_self] at hv
    refine ⟨t, List.mem_cons_self, rfl, (Option.some.inj hv).symm, fun e he _ => ?_⟩
    rcases List.mem_append.mp he with he | he
    · exact hentries e he
    · exact (hnew e he).2
  · rw [Function.update_of_ne hk] at hv
    obtain ⟨u, hu, hkey, rfl, hlast⟩ := h k v hv
    refine ⟨u, List.mem_cons_of_mem _ hu, hkey, ?_, fun e he hkey' => ?_⟩
    · -- the new entries are after `u`, and not at `u` as they have another name
      have hout : ∀ e ∈ new, ¬e.1 ≤ u := fun e he hle => by
        have heq : e.1 = u := le_antisymm hle (hafter e he u hu)
        exact hk (hkey.symm.trans (heq ▸ (hnew e he).1))
      rw [total_append, total_eq_zero fun e he hin => hout e he hin.2, add_zero]
    · rcases List.mem_append.mp he with he | he
      · exact hlast e he hkey'
      · exact absurd (hkey'.symm.trans (hnew e he).1) hk

end Windows

end MultiAgent
