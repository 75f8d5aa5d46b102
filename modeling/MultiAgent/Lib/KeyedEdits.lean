import Mathlib.Data.List.Nodup
import Mathlib.Data.List.Sublists

/-!
# Edits of a list at its keys

Edits of a list, one after the other, each at the first entry with a key : another entry is put
before or after it or in its place, or it is taken out. An edit whose key no entry has does
nothing.

What the edits bring has keys of its own, then the keys stay distinct (`nodup_applyAll`).
Entries that no edit takes out or replaces stay, and in their order (`sublist_applyAll`), so an
entry that an edit brings stays from then on (`mem_applyAll`).
-/

namespace MultiAgent

namespace KeyedEdits

variable {σ κ : Type*} [DecidableEq κ]

/-- What is done to the entry. -/
inductive Change (σ : Type*)
  | insertAfter (new : σ)
  | insertBefore (new : σ)
  | replace (new : σ)
  | remove

/-- The entry that a change brings. -/
def Change.brings : Change σ → Option σ
  | .insertAfter new => some new
  | .insertBefore new => some new
  | .replace new => some new
  | .remove => none

/-- The entry does not stay. -/
def Change.Removes : Change σ → Prop
  | .insertAfter _ => False
  | .insertBefore _ => False
  | .replace _ => True
  | .remove => True

/-- What stands in the place of the entry afterwards. -/
def Change.entries (s : σ) : Change σ → List σ
  | .insertAfter new => [s, new]
  | .insertBefore new => [new, s]
  | .replace new => [new]
  | .remove => []

/-- A change of the first entry with the key `target`. -/
structure Edit (κ σ : Type*) where
  target : κ
  change : Change σ

variable (key : σ → κ)

/-- Make one edit. -/
def Edit.apply (e : Edit κ σ) : List σ → List σ
  | [] => []
  | s :: l => if key s = e.target then e.change.entries s ++ l else s :: e.apply l

/-- Make the edits in their order. -/
def applyAll (es : List (Edit κ σ)) (l : List σ) : List σ :=
  es.foldl (fun l e => e.apply key l) l

/-- What the edits bring. -/
def brought (es : List (Edit κ σ)) : List σ :=
  es.filterMap fun e => e.change.brings

@[simp] theorem applyAll_nil (l : List σ) : applyAll key [] l = l := rfl

@[simp] theorem applyAll_cons (e : Edit κ σ) (es : List (Edit κ σ)) (l : List σ) :
    applyAll key (e :: es) l = applyAll key es (e.apply key l) := rfl

theorem applyAll_append (es es' : List (Edit κ σ)) (l : List σ) :
    applyAll key (es ++ es') l = applyAll key es' (applyAll key es l) :=
  List.foldl_append

/-- An edit changes one entry with its key, if there is one. -/
theorem apply_cases (e : Edit κ σ) : ∀ l : List σ,
    e.target ∉ l.map key ∧ e.apply key l = l ∨
      ∃ a s b, l = a ++ s :: b ∧ key s = e.target ∧
        e.apply key l = a ++ (e.change.entries s ++ b)
  | [] => Or.inl ⟨List.not_mem_nil, rfl⟩
  | s :: l => by
    unfold Edit.apply
    by_cases hs : key s = e.target
    · rw [if_pos hs]
      exact Or.inr ⟨[], s, l, rfl, hs, rfl⟩
    · rw [if_neg hs]
      rcases apply_cases e l with ⟨hnot, heq⟩ | ⟨a, s', b, rfl, hs', heq⟩
      · rw [heq]
        refine Or.inl ⟨fun hmem => ?_, rfl⟩
        rcases List.mem_cons.mp hmem with he | hmem
        · exact hs he.symm
        · exact hnot hmem
      · rw [heq]
        exact Or.inr ⟨s :: a, s', b, rfl, hs', rfl⟩

variable {key}

/-! ## Keys -/

theorem mem_entries {c : Change σ} {s x : σ} (h : x ∈ c.entries s) :
    x = s ∨ c.brings = some x := by
  cases c with
  | insertAfter new => simpa [Change.entries, Change.brings, eq_comm] using h
  | insertBefore new => simpa [Change.entries, Change.brings, eq_comm, or_comm] using h
  | replace new => exact Or.inr (congrArg some (List.mem_singleton.mp h).symm)
  | remove => cases h

/-- What is there after an edit was there, or the edit brings it. -/
theorem mem_apply {e : Edit κ σ} {l : List σ} {x : σ} (h : x ∈ e.apply key l) :
    x ∈ l ∨ e.change.brings = some x := by
  rcases apply_cases key e l with ⟨-, heq⟩ | ⟨a, s, b, rfl, -, heq⟩
  · exact Or.inl (heq ▸ h)
  · rw [heq, List.mem_append, List.mem_append] at h
    rcases h with h | h | h
    · exact Or.inl (List.mem_append_left _ h)
    · refine (mem_entries h).imp_left fun hx => ?_
      exact hx ▸ List.mem_append_right a List.mem_cons_self
    · exact Or.inl (List.mem_append_right a (List.mem_cons_of_mem s h))

theorem nodup_apply {e : Edit κ σ} {l : List σ} (hl : (l.map key).Nodup)
    (hnew : ∀ new, e.change.brings = some new → key new ∉ l.map key) :
    ((e.apply key l).map key).Nodup := by
  rcases apply_cases key e l with ⟨-, heq⟩ | ⟨a, s, b, rfl, -, heq⟩
  · rwa [heq]
  · have hperm : (a ++ s :: b).Perm (s :: (a ++ b)) := List.perm_middle
    have hresult : (e.apply key (a ++ s :: b)).Perm (e.change.entries s ++ (a ++ b)) := by
      rw [heq, ← List.append_assoc, ← List.append_assoc]
      exact List.perm_append_comm.append_right b
    have hold : (key s :: (a ++ b).map key).Nodup := (hperm.map key).nodup_iff.mp hl
    have hfresh : ∀ new, e.change.brings = some new → key new ∉ key s :: (a ++ b).map key :=
      fun new hbrings hmem => hnew new hbrings ((hperm.map key).mem_iff.mpr hmem)
    obtain ⟨hs, hrest⟩ := List.nodup_cons.mp hold
    rw [(hresult.map key).nodup_iff]
    cases hchange : e.change with
    | insertAfter new =>
      have hn := hfresh new (by rw [hchange]; rfl)
      rw [List.mem_cons, not_or] at hn
      exact List.nodup_cons.mpr ⟨fun hmem => (List.mem_cons.mp hmem).elim
        (fun he => hn.1 he.symm) hs, List.nodup_cons.mpr ⟨hn.2, hrest⟩⟩
    | insertBefore new =>
      exact List.nodup_cons.mpr ⟨hfresh new (by rw [hchange]; rfl), hold⟩
    | replace new =>
      have hn := hfresh new (by rw [hchange]; rfl)
      rw [List.mem_cons, not_or] at hn
      exact List.nodup_cons.mpr ⟨hn.2, hrest⟩
    | remove => exact hrest

omit [DecidableEq κ] in
theorem brought_cons (e : Edit κ σ) (es : List (Edit κ σ)) :
    brought (e :: es) = e.change.brings.toList ++ brought es := by
  unfold brought
  rw [List.filterMap_cons]
  cases e.change.brings <;> rfl

/-- Edits that bring fresh keys keep the keys distinct. -/
theorem nodup_applyAll : ∀ {es : List (Edit κ σ)} {l : List σ}, (l.map key).Nodup →
    ((brought es).map key).Nodup → (∀ x ∈ brought es, key x ∉ l.map key) →
      ((applyAll key es l).map key).Nodup
  | [], _, hl, _, _ => hl
  | e :: es, l, hl, hnodup, hfresh => by
    rw [brought_cons] at hnodup hfresh
    rw [List.map_append, List.nodup_append] at hnodup
    rw [applyAll_cons]
    refine nodup_applyAll (nodup_apply hl fun new hbrings => ?_) hnodup.2.1 fun x hx hmem => ?_
    · exact hfresh new (List.mem_append_left _ (Option.mem_toList.mpr hbrings))
    · obtain ⟨y, hy, hyx⟩ := List.mem_map.mp hmem
      rcases mem_apply hy with hy | hbrings
      · exact hfresh x (List.mem_append_right _ hx) (hyx ▸ List.mem_map_of_mem hy)
      · exact hnodup.2.2 (key y) (List.mem_map_of_mem (Option.mem_toList.mpr hbrings)) (key x)
          (List.mem_map_of_mem hx) hyx

/-! ## What stays -/

theorem sublist_of_not_mem {m a b : List σ} {s : σ} (h : m.Sublist (a ++ s :: b)) (hs : s ∉ m) :
    m.Sublist (a ++ b) := by
  obtain ⟨m₁, m₂, rfl, h₁, h₂⟩ := List.sublist_append_iff.mp h
  refine h₁.append ?_
  rcases List.sublist_cons_iff.mp h₂ with h₂ | ⟨r, rfl, -⟩
  · exact h₂
  · exact absurd (List.mem_append_right m₁ List.mem_cons_self) hs

/-- Entries that an edit does not take out or replace stay, and in their order. -/
theorem sublist_apply {e : Edit κ σ} {l m : List σ} (h : m.Sublist l)
    (hm : e.change.Removes → ∀ s ∈ m, key s ≠ e.target) : m.Sublist (e.apply key l) := by
  rcases apply_cases key e l with ⟨-, heq⟩ | ⟨a, s, b, rfl, hs, heq⟩
  · rwa [heq]
  · rw [heq]
    cases hchange : e.change with
    | insertAfter new =>
      exact h.trans (((List.sublist_cons_self new b).cons_cons s).append_left a)
    | insertBefore new => exact h.trans ((List.sublist_cons_self new (s :: b)).append_left a)
    | replace new =>
      have hmem : s ∉ m := fun hmem => hm (by rw [hchange]; trivial) s hmem hs
      exact (sublist_of_not_mem h hmem).trans ((List.sublist_cons_self new b).append_left a)
    | remove =>
      have hmem : s ∉ m := fun hmem => hm (by rw [hchange]; trivial) s hmem hs
      exact sublist_of_not_mem h hmem

theorem sublist_applyAll : ∀ {es : List (Edit κ σ)} {l m : List σ}, m.Sublist l →
    (∀ e ∈ es, e.change.Removes → ∀ s ∈ m, key s ≠ e.target) → m.Sublist (applyAll key es l)
  | [], _, _, h, _ => h
  | e :: es, _, _, h, hm => by
    rw [applyAll_cons]
    exact sublist_applyAll (sublist_apply h (hm e List.mem_cons_self)) fun e' he' =>
      hm e' (List.mem_cons_of_mem e he')

/-- What an edit brings is there, if its key is. -/
theorem mem_apply_of_brings {e : Edit κ σ} {l : List σ} {new : σ}
    (hbrings : e.change.brings = some new) (htarget : e.target ∈ l.map key) :
    new ∈ e.apply key l := by
  rcases apply_cases key e l with ⟨hnot, -⟩ | ⟨a, s, b, rfl, -, heq⟩
  · exact absurd htarget hnot
  · rw [heq]
    refine List.mem_append_right a (List.mem_append_left b ?_)
    cases hchange : e.change with
    | remove =>
      rw [hchange] at hbrings
      cases hbrings
    | _ =>
      rw [hchange] at hbrings
      obtain rfl := Option.some.inj hbrings
      simp [Change.entries]

/-- What an edit brings stays, unless a later edit takes it out or replaces it. -/
theorem mem_applyAll {before after : List (Edit κ σ)} {e : Edit κ σ} {l : List σ} {new : σ}
    (hbrings : e.change.brings = some new) (htarget : e.target ∈ (applyAll key before l).map key)
    (hafter : ∀ e' ∈ after, e'.change.Removes → key new ≠ e'.target) :
    new ∈ applyAll key (before ++ e :: after) l := by
  rw [applyAll_append, applyAll_cons]
  have hthere : [new].Sublist (e.apply key (applyAll key before l)) :=
    List.singleton_sublist.mpr (mem_apply_of_brings hbrings htarget)
  refine List.singleton_sublist.mp (sublist_applyAll hthere fun e' he' hremoves s hs => ?_)
  rw [List.mem_singleton.mp hs]
  exact hafter e' he' hremoves

end KeyedEdits

end MultiAgent
