import Mathlib.Data.List.Basic
import Mathlib.Data.List.Induction
import Mathlib.Logic.Function.Basic

/-!
# Machines and their runs

A machine is a start state and a partial step function. The event of a step
carries every choice the environment makes (which task goes on, what an awaited
call returned, what the clock reads), so a list of events determines the state it
leads to, and a property of every list is a property of every interleaving.

`Machine.Run ok es s` is a run over the events `es` that ends in `s` and whose
every step, taken in the state before it, meets the guard `ok`. Any prefix of a
run is a run, so what holds at the end of every run over `ok` holds in every state
such a run goes through. `Run.invariant` is the induction over runs
(`Run.invariant_append` over their second part), `Run.mono` weakens the guard, and
`exists_run` makes a run out of a computation. If a step keeps a property exactly when it
meets a condition, the property holds throughout a run exactly when all its steps meet the
condition (`Run.throughout_iff`), and at its end as well if what is lost stays lost
(`Run.iff_run`).

The last section is about the list a machine keeps its parties in.
-/

namespace MultiAgent

/-- A start state and a step function; `none` is an event that cannot happen now. -/
structure Machine (σ ε : Type*) where
  init : σ
  step : σ → ε → Option σ

namespace Machine

variable {σ ε : Type*} (M : Machine σ ε)

/-- A run over `es` ending in the given state, each of its steps allowed by `ok`. -/
inductive Run (ok : σ → ε → Prop) : List ε → σ → Prop
  | nil : Run ok [] M.init
  | snoc {es : List ε} {s : σ} {e : ε} {t : σ} :
      Run ok es s → ok s e → M.step s e = some t → Run ok (es ++ [e]) t

/-- The end of some run, with no guard. -/
def Reachable (s : σ) : Prop :=
  ∃ es, M.Run (fun _ _ => True) es s

/-- Compute the run over `es` from `s`, stopping at a step that is not allowed. -/
def execWith (ok : σ → ε → Prop) [∀ s e, Decidable (ok s e)] : σ → List ε → Option σ
  | s, [] => some s
  | s, e :: es =>
    if ok s e then
      match M.step s e with
      | some t => execWith ok t es
      | none => none
    else none

variable {M} {ok ok' : σ → ε → Prop}

/-- What holds at the start and survives every allowed step holds at the end of a run. -/
theorem Run.invariant {I : σ → Prop} {es : List ε} {s : σ} (h : M.Run ok es s)
    (hinit : I M.init)
    (hstep : ∀ s e t, I s → ok s e → M.step s e = some t → I t) : I s := by
  induction h with
  | nil => exact hinit
  | snoc _ hok hst ih => exact hstep _ _ _ ih hok hst

theorem Run.mono {es : List ε} {s : σ} (h : M.Run ok es s)
    (himp : ∀ s e, ok s e → ok' s e) : M.Run ok' es s := by
  induction h with
  | nil => exact .nil
  | snoc _ hok hst ih => exact .snoc ih (himp _ _ hok) hst

theorem Run.reachable {es : List ε} {s : σ} (h : M.Run ok es s) : M.Reachable s :=
  ⟨es, h.mono fun _ _ _ => trivial⟩

theorem Reachable.init : M.Reachable M.init :=
  ⟨[], .nil⟩

theorem Reachable.step {s t : σ} {e : ε} (h : M.Reachable s) (hst : M.step s e = some t) :
    M.Reachable t := by
  obtain ⟨es, hes⟩ := h
  exact ⟨es ++ [e], hes.snoc trivial hst⟩

/-- The last step of a run. -/
theorem Run.snoc_inv {es : List ε} {e : ε} {t : σ} (h : M.Run ok (es ++ [e]) t) :
    ∃ s, M.Run ok es s ∧ ok s e ∧ M.step s e = some t := by
  generalize hes : es ++ [e] = es' at h
  cases h with
  | nil => simp at hes
  | snoc hrun hok hst =>
    obtain ⟨rfl, he⟩ := List.append_inj' hes rfl
    obtain rfl := List.singleton_inj.mp he
    exact ⟨_, hrun, hok, hst⟩

/-- A run goes over into a run of another machine that takes the same steps. -/
theorem Run.map {τ δ : Type*} {N : Machine τ δ} {ok' : τ → δ → Prop} (f : σ → τ) (g : ε → δ)
    {es : List ε} {s : σ} (h : M.Run ok es s) (hinit : f M.init = N.init)
    (hstep : ∀ s e t, ok s e → M.step s e = some t →
      ok' (f s) (g e) ∧ N.step (f s) (g e) = some (f t)) : N.Run ok' (es.map g) (f s) := by
  induction h with
  | nil => exact hinit ▸ .nil
  | snoc _ hok hst ih =>
    rw [List.map_append]
    obtain ⟨hok', hst'⟩ := hstep _ _ _ hok hst
    exact ih.snoc hok' hst'

/-- The events determine the state a run ends in. -/
theorem Run.unique {es : List ε} {s t : σ} (h : M.Run ok es s) (h' : M.Run ok' es t) :
    s = t := by
  induction h generalizing t with
  | nil =>
    generalize hes : ([] : List ε) = es at h'
    cases h' with
    | nil => rfl
    | snoc => simp at hes
  | snoc _ _ hst ih =>
    obtain ⟨u, hrun, -, hst'⟩ := h'.snoc_inv
    obtain rfl := ih hrun
    exact Option.some.inj (hst.symm.trans hst')

/-- A prefix of a run is a run. -/
theorem Run.of_prefix {es fs : List ε} {s : σ} (h : M.Run ok es s) (hfs : fs <+: es) :
    ∃ u, M.Run ok fs u := by
  induction h with
  | nil =>
    obtain rfl := List.prefix_nil.mp hfs
    exact ⟨_, .nil⟩
  | snoc hrun hok hst ih =>
    rcases List.prefix_concat_iff.mp hfs with rfl | hfs
    · exact ⟨_, hrun.snoc hok hst⟩
    · exact ih hfs

/-- What holds after the first part of a run and survives every allowed step holds at its
end. -/
theorem Run.invariant_append {I : σ → Prop} {es fs : List ε} {s t : σ}
    (h : M.Run ok (es ++ fs) t) (hfirst : M.Run ok' es s) (hs : I s)
    (hstep : ∀ s e t, I s → ok s e → M.step s e = some t → I t) : I t := by
  induction fs using List.reverseRecOn generalizing t with
  | nil =>
    rw [List.append_nil] at h
    obtain rfl := h.unique hfirst
    exact hs
  | append_singleton fs e ih =>
    rw [← List.append_assoc] at h
    obtain ⟨u, hrun, hok, hst⟩ := h.snoc_inv
    exact hstep u e t (ih hrun) hok hst

variable (M) in
/-- `J` holds in every state that the run over `es` goes through. -/
def Throughout (J : σ → Prop) (es : List ε) : Prop :=
  ∀ fs u, fs <+: es → M.Run (fun _ _ => True) fs u → J u

theorem Run.throughout {J : σ → Prop} {es : List ε} {s : σ} (h : M.Run ok es s)
    (hinit : J M.init) (hstep : ∀ s e t, J s → ok s e → M.step s e = some t → J t) :
    M.Throughout J es := by
  intro fs u hfs hu
  obtain ⟨v, hv⟩ := h.of_prefix hfs
  obtain rfl := hu.unique hv
  exact hv.invariant hinit hstep

/-- Let `I` be kept by the steps that keep `J`, and let a step from a state with both keep
`J` exactly when it meets `ok'`. Then `J` holds throughout a run exactly when its steps
meet `ok'`. -/
theorem Run.throughout_iff {I J : σ → Prop} {es : List ε} {s : σ} (h : M.Run ok es s)
    (hinit : I M.init ∧ J M.init)
    (hkeep : ∀ s e t, I s → J s → ok s e → M.step s e = some t → J t → I t)
    (hstep : ∀ s e t, I s → J s → ok s e → M.step s e = some t → (J t ↔ ok' s e)) :
    M.Throughout J es ↔ M.Run (fun s e => ok s e ∧ ok' s e) es s := by
  have hboth : ∀ s e t, I s ∧ J s → ok s e ∧ ok' s e → M.step s e = some t → I t ∧ J t :=
    fun s e t hs he hst =>
      have hJ := (hstep s e t hs.1 hs.2 he.1 hst).mpr he.2
      ⟨hkeep s e t hs.1 hs.2 he.1 hst hJ, hJ⟩
  constructor
  · intro hall
    induction h with
    | nil => exact .nil
    | @snoc es s e t hrun hok hst ih =>
      have hbefore := ih fun fs u hfs => hall fs u (hfs.trans (List.prefix_append _ _))
      have hs := hbefore.invariant hinit hboth
      have ht := hall (es ++ [e]) t List.prefix_rfl
        ((hrun.snoc hok hst).mono fun _ _ _ => trivial)
      exact hbefore.snoc ⟨hok, (hstep s e t hs.1 hs.2 hok hst).mp ht⟩ hst
  · intro hrun fs u hfs hu
    exact (hrun.throughout hinit hboth fs u hfs hu).2

/-- The same for a run whose steps need not meet a guard. -/
theorem Run.throughout_iff_run {I J : σ → Prop} {es : List ε} {s : σ}
    (h : M.Run (fun _ _ => True) es s) (hinit : I M.init ∧ J M.init)
    (hkeep : ∀ s e t, I s → J s → M.step s e = some t → J t → I t)
    (hstep : ∀ s e t, I s → J s → M.step s e = some t → (J t ↔ ok' s e)) :
    M.Throughout J es ↔ M.Run ok' es s := by
  have hiff := h.throughout_iff hinit (fun s e t hI hJ _ => hkeep s e t hI hJ)
    fun s e t hI hJ _ => hstep s e t hI hJ
  simpa only [true_and] using hiff

/-- Let `I` be kept by every step, and let `J` hold after a step from a state with `I` exactly
when it held before and the step meets `ok'`. Then `J` holds at the end of a run exactly when
its steps meet `ok'`. -/
theorem Run.iff_run {I J : σ → Prop} {es : List ε} {s : σ}
    (h : M.Run (fun _ _ => True) es s) (hinit : I M.init ∧ J M.init)
    (hkeep : ∀ s e t, I s → M.step s e = some t → I t)
    (hstep : ∀ s e t, I s → M.step s e = some t → (J t ↔ J s ∧ ok' s e)) :
    J s ↔ M.Run ok' es s := by
  induction h with
  | nil => exact iff_of_true hinit.2 .nil
  | @snoc es s e t hrun _ hst ih =>
    have hs : I s := hrun.invariant hinit.1 fun s e t hI _ => hkeep s e t hI
    rw [hstep s e t hs hst, ih]
    constructor
    · rintro ⟨hrun', hok⟩
      exact hrun'.snoc hok hst
    · intro hrun'
      obtain ⟨u, hu, hok, -⟩ := hrun'.snoc_inv
      obtain rfl := hu.unique hrun
      exact ⟨hu, hok⟩

theorem Run.append_execWith [∀ s e, Decidable (ok s e)] {es : List ε} {s : σ}
    (h : M.Run ok es s) : ∀ {fs : List ε} {t : σ}, M.execWith ok s fs = some t →
      M.Run ok (es ++ fs) t
  | [], t, hex => by
    obtain rfl := Option.some.inj hex
    simpa using h
  | e :: fs, t, hex => by
    unfold execWith at hex
    split_ifs at hex with hok
    cases hst : M.step s e with
    | none => simp [hst] at hex
    | some u =>
      simp only [hst] at hex
      simpa using (h.snoc hok hst).append_execWith hex

/-- A computed run is a run. -/
theorem run_of_execWith [∀ s e, Decidable (ok s e)] {es : List ε} {s : σ}
    (h : M.execWith ok M.init es = some s) : M.Run ok es s := by
  have hnil : M.Run ok [] M.init := .nil
  simpa using hnil.append_execWith h

/-- A computation that ends in a state with the property `p` gives a run that does. -/
theorem exists_run (M : Machine σ ε) (ok : σ → ε → Prop) [∀ s e, Decidable (ok s e)]
    (es : List ε) (p : σ → Bool) (h : (M.execWith ok M.init es).any p = true) :
    ∃ s, M.Run ok es s ∧ p s = true := by
  cases hex : M.execWith ok M.init es with
  | none => simp [hex] at h
  | some s => exact ⟨s, run_of_execWith hex, by simpa [hex] using h⟩

end Machine

/-! ## Parties

A machine keeps its parties in a list, by number, and a step replaces the entry of one
party or appends a new one. -/

section Parties

variable {α : Type*} {l : List α} {x y : α} {j k : ℕ}

/-- An entry of a list after one was added. -/
theorem getElem?_concat_cases (h : (l ++ [x])[k]? = some y) :
    l[k]? = some y ∨ k = l.length ∧ y = x := by
  rcases Nat.lt_or_ge k l.length with hk | hk
  · rw [List.getElem?_append_left hk] at h
    exact Or.inl h
  · rw [List.getElem?_append_right hk, List.getElem?_singleton] at h
    split_ifs at h with hzero
    exact Or.inr ⟨by omega, (Option.some.inj h).symm⟩

/-- An entry of a list after one was replaced. -/
theorem getElem?_set_cases (h : (l.set k x)[j]? = some y) :
    j ≠ k ∧ l[j]? = some y ∨ j = k ∧ y = x := by
  by_cases hjk : j = k
  · subst hjk
    have hlt : j < l.length := by
      have := (List.getElem?_eq_some_iff.mp h).1
      rwa [List.length_set] at this
    rw [List.getElem?_set_self hlt] at h
    exact Or.inr ⟨rfl, (Option.some.inj h).symm⟩
  · rw [List.getElem?_set_ne (Ne.symm hjk)] at h
    exact Or.inl ⟨hjk, h⟩

/-- What is read off the parties, after one of them was replaced. -/
theorem bind_getElem?_set {β : Type*} (f : ℕ → α → Option β) (h : l[k]? = some x) (y : α) :
    (fun j => ((l.set k y)[j]?).bind (f j)) =
      Function.update (fun j => (l[j]?).bind (f j)) k (f k y) := by
  obtain ⟨hlt, -⟩ := List.getElem?_eq_some_iff.mp h
  funext j
  by_cases hj : j = k
  · subst hj
    rw [List.getElem?_set_self hlt, Function.update_self]
    rfl
  · rw [List.getElem?_set_ne (Ne.symm hj), Function.update_of_ne hj]

/-- What is read off the parties, after one of them was added. -/
theorem bind_getElem?_concat {β : Type*} (f : ℕ → α → Option β) (l : List α) (x : α) :
    (fun j => ((l ++ [x])[j]?).bind (f j)) =
      Function.update (fun j => (l[j]?).bind (f j)) l.length (f l.length x) := by
  funext j
  rcases Nat.lt_trichotomy j l.length with hlt | rfl | hgt
  · rw [List.getElem?_append_left hlt, Function.update_of_ne (Nat.ne_of_lt hlt)]
  · rw [List.getElem?_concat_length, Function.update_self]
    rfl
  · rw [Function.update_of_ne (Nat.ne_of_gt hgt), List.getElem?_eq_none (Nat.le_of_lt hgt),
      List.getElem?_eq_none]
    simpa using Nat.succ_le_of_lt hgt

/-- An added party of which nothing is read. -/
theorem bind_getElem?_concat_none {β : Type*} {f : ℕ → α → Option β} (hx : f l.length x = none) :
    (fun j => ((l ++ [x])[j]?).bind (f j)) = fun j => (l[j]?).bind (f j) := by
  rw [bind_getElem?_concat, hx, Function.update_eq_self_iff, List.getElem?_eq_none (Nat.le_refl _)]
  rfl

/-- The number of entries of a kind after one was replaced. -/
theorem countP_set_add (p : α → Bool) (h : l[k]? = some x) :
    (l.set k y).countP p + (if p x then 1 else 0) = l.countP p + if p y then 1 else 0 := by
  obtain ⟨hlt, rfl⟩ := List.getElem?_eq_some_iff.mp h
  have hle : (if p l[k] then 1 else 0) ≤ l.countP p := List.boole_getElem_le_countP hlt
  rw [List.countP_set hlt]
  omega

/-- One of the entries of a kind was replaced by one of another. -/
theorem filter_perm_cons_filter_set {p : α → Bool} (h : l[k]? = some x) (hx : p x = true)
    (hy : p y = false) : (l.filter p).Perm (x :: (l.set k y).filter p) := by
  obtain ⟨hlt, rfl⟩ := List.getElem?_eq_some_iff.mp h
  rw [List.set_eq_take_append_cons_drop, if_pos hlt]
  conv_lhs => rw [← List.take_append_drop k l, List.drop_eq_getElem_cons hlt]
  rw [List.filter_append, List.filter_append, List.filter_cons_of_pos hx,
    List.filter_cons_of_neg (by simp [hy])]
  exact List.perm_middle

/-- The parties of a kind, counted by number. -/
theorem countP_range_getElem? (p : α → Bool) (l : List α) :
    ((List.range l.length).countP fun k => (l[k]?).any p) = l.countP p := by
  have hmap : l.map some = (List.range l.length).map fun k => l[k]? := by
    refine List.ext_getElem (by simp) fun k hk _ => ?_
    simp only [List.length_map] at hk
    simp [hk]
  have hcount := congrArg (List.countP (Option.any p)) hmap
  rw [List.countP_map, List.countP_map] at hcount
  exact hcount.symm

/-- A kind that is the disjoint union of two others. -/
theorem countP_add_of_disjoint {p q r : α → Bool}
    (h : ∀ x ∈ l, (if p x then 1 else 0) = (if q x then 1 else 0) + if r x then 1 else 0) :
    l.countP p = l.countP q + l.countP r := by
  induction l with
  | nil => rfl
  | cons x l ih =>
    have hx := h x List.mem_cons_self
    have hl := ih fun y hy => h y (List.mem_cons_of_mem x hy)
    simp only [List.countP_cons]
    omega

end Parties

end MultiAgent
