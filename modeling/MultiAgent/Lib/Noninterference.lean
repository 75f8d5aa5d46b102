import MultiAgent.Lib.Dict
import MultiAgent.Lib.Machine

/-!
# Noninterference

Some events of a machine are hidden from an observer. A run is purged by leaving them out. If
a relation holds between the start state and itself, is kept by a hidden event on its left
and by any other event on both sides, it holds between the end of a run and the end of the
purged run (`Machine.Run.purge`).

The states that an observer reads are mostly dictionaries of which it reads some keys :
`Dict.Agree p` says that two of them agree on the keys with `p`. `Dict.put` is the one way to
write here, and an observer of other keys does not see it (`Dict.Agree.put_left`).
-/

namespace MultiAgent

namespace Machine

variable {σ ε : Type*} {M : Machine σ ε} {ok : σ → ε → Prop}

/-- The end of a run is related to the end of the purged run, which exists. -/
theorem Run.purge {R : σ → σ → Prop} {hidden : ε → Prop} [DecidablePred hidden] {es : List ε}
    {s : σ} (h : M.Run ok es s) (hinit : R M.init M.init)
    (hhidden : ∀ s t e s', R s t → ok s e → hidden e → M.step s e = some s' → R s' t)
    (hshown : ∀ s t e s', R s t → ok s e → ¬hidden e → M.step s e = some s' →
      ∃ t', M.step t e = some t' ∧ R s' t') :
    ∃ t, M.Run (fun _ _ => True) (es.filter fun e => ¬hidden e) t ∧ R s t := by
  induction h with
  | nil => exact ⟨M.init, .nil, hinit⟩
  | @snoc es s e s' _ hok hst ih =>
    obtain ⟨t, ht, hR⟩ := ih
    rw [List.filter_append]
    by_cases he : hidden e
    · exact ⟨t, by simpa [he] using ht, hhidden s t e s' hR hok he hst⟩
    · obtain ⟨t', hst', hR'⟩ := hshown s t e s' hR hok he hst
      exact ⟨t', by simpa [he] using ht.snoc trivial hst', hR'⟩

end Machine

/-! ## What an observer reads -/

namespace Dict

variable {κ ν : Type*} [DecidableEq κ]

/-- Write a value under a key, or remove the key. -/
def put (d : Dict κ ν) (k : κ) : Option ν → Dict κ ν
  | some v => d.set k v
  | none => d.erase k

theorem get?_put (d : Dict κ ν) (k k' : κ) (x : Option ν) :
    (d.put k x).get? k' = if k' = k then x else d.get? k' := by
  cases x with
  | some v => exact get?_set d k k' v
  | none => exact get?_erase d k k'

/-- The dictionaries agree on the keys with `p`. -/
def Agree (p : κ → Prop) (d e : Dict κ ν) : Prop :=
  ∀ k, p k → d.get? k = e.get? k

namespace Agree

variable {p : κ → Prop} {d e : Dict κ ν}

theorem refl (d : Dict κ ν) : Agree p d d :=
  fun _ _ => rfl

theorem symm (h : Agree p d e) : Agree p e d :=
  fun k hk => (h k hk).symm

/-- The same write to both. -/
theorem put (h : Agree p d e) (k : κ) (x : Option ν) : Agree p (d.put k x) (e.put k x) := by
  intro k' hk'
  rw [get?_put, get?_put, h k' hk']

/-- A write that the observer does not see. -/
theorem put_left (h : Agree p d e) {k : κ} (hk : ¬p k) (x : Option ν) :
    Agree p (d.put k x) e := by
  intro k' hk'
  have hne : k' ≠ k := by
    rintro rfl
    exact hk hk'
  rw [get?_put, if_neg hne, h k' hk']

end Agree

end Dict

end MultiAgent
