import MultiAgent.Lib.ObjectHeap

/-!
# Dry runs of computations on objects

A dry run does what a computation does up to its first edit, and gives true there instead. Where
it does not, the computation left the old objects as they were. Where it does, some old list is
longer or holds a new object (`Edited`), and what the computation does afterwards does not undo
it (`StaysEdited`). So the dry run decides whether the old objects stay as they are
(`Decides.prefix_iff`).

A computation and its dry run are compared step by step : a step that both do
(`Decides.bind_read`), a step that may edit (`Foresees.then`), a loop over such steps
(`foresees_forEach`).
-/

namespace MultiAgent

namespace ObjectHeap

variable {α β : Type}

/-- Whether it holds for one of them, asked in turn. -/
def anyOf (f : α → Mem Bool) : List α → Mem Bool
  | [] => pure false
  | a :: l => do
    if ← f a then return true else anyOf f l

/-- The dry run of an edit, which raises where the value is not a list. -/
def editable (v : Val) (e : PyError) : Mem Bool := do
  editList v e id
  return true

/-! ## Edited lists -/

/-- The list holds an object with an address from `n` on. -/
def HasNew (n : ℕ) (l : List Val) : Prop :=
  ∃ j, n ≤ j ∧ Val.ref j ∈ l

/-- A list of the old heap is longer or holds a new object. -/
structure Edited (h₀ g : Heap) : Prop where
  length_le : h₀.length ≤ g.length
  list : ∃ (i : ℕ) (l l' : List Val), h₀[i]? = some (.list l) ∧ g[i]? = some (.list l') ∧
    (l.length < l'.length ∨ HasNew h₀.length l')

/-- In a heap whose objects hold each other only, an edited list is not what it was. -/
theorem Edited.not_kept {h₀ g : Heap} (hedited : Edited h₀ g) (hclosed : h₀.Closed) :
    ¬h₀ <+: g := by
  intro hgrown
  obtain ⟨i, l, l', hold, hnew, hlist⟩ := hedited.list
  have hsame : Cell.list l = .list l' :=
    Option.some.inj ((getElem?_kept hgrown hold).symm.trans hnew)
  obtain rfl := Cell.list.inj hsame
  rcases hlist with hlonger | ⟨j, hj, hmem⟩
  · exact lt_irrefl _ hlonger
  · have hwithin : j < h₀.length := hclosed _ (List.mem_of_getElem? hold) _ hmem
    exact absurd hwithin (Nat.not_lt.mpr hj)

/-- What is edited is still so after the computation. -/
def StaysEdited (h₀ : Heap) (x : Mem α) : Prop :=
  ∀ h, Edited h₀ h → Edited h₀ (x h).2

section

variable {h₀ : Heap}

theorem StaysEdited.bind {x : Mem α} {f : α → Mem β} (hx : StaysEdited h₀ x)
    (hf : ∀ a, StaysEdited h₀ (f a)) : StaysEdited h₀ (x >>= f) := by
  intro h hedited
  have hafter := hx h hedited
  rw [bind_apply]
  cases hrun : x h with
  | mk r g =>
    rw [hrun] at hafter
    cases r with
    | error e => exact hafter
    | ok a => exact hf a g hafter

theorem Edited.mono {g g' : Heap} (hedited : Edited h₀ g) (hgrown : g <+: g') :
    Edited h₀ g' := by
  obtain ⟨i, l, l', hold, hnew, hlist⟩ := hedited.list
  exact ⟨hedited.length_le.trans hgrown.length_le,
    i, l, l', hold, getElem?_kept hgrown hnew, hlist⟩

theorem Tame.staysEdited [Shift α] {x y : Mem α} (hx : Tame h₀.length [] x y) :
    StaysEdited h₀ x :=
  fun h hedited => hedited.mono (hx.allocates h)

theorem StaysEdited.read [Shift α] {x y : Mem α} {f : α → Mem β} (hx : Tame h₀.length [] x y)
    (hf : ∀ a, StaysEdited h₀ (f a)) : StaysEdited h₀ (x >>= f) :=
  hx.staysEdited.bind hf

/-- What `editList` does, or why it does nothing. -/
theorem editList_cases (v : Val) (e : PyError) (h : Heap) :
    (∃ i l, v = .ref i ∧ h[i]? = some (.list l) ∧
      ∀ edit, editList v e edit h = (.ok (), h.set i (.list (edit l)))) ∨
    ∀ edit, editList v e edit h = (.error (.error e), h) := by
  cases v with
  | atom v => exact .inr fun _ => rfl
  | ref i =>
    cases hcell : h[i]? with
    | none => exact .inr fun edit => by simp only [editList, hcell]
    | some c =>
      cases c with
      | dict d => exact .inr fun edit => by simp only [editList, hcell]
      | list l => exact .inl ⟨i, l, rfl, hcell, fun edit => by simp only [editList, hcell]⟩

/-- An edit that neither shortens a list nor drops its new objects. -/
theorem staysEdited_editList {edit : List Val → List Val} (v : Val) (e : PyError)
    (hlength : ∀ l, l.length ≤ (edit l).length)
    (hnew : ∀ l, HasNew h₀.length l → HasNew h₀.length (edit l)) :
    StaysEdited h₀ (editList v e edit) := by
  intro h hedited
  rcases editList_cases v e h with ⟨k, m, -, hcell, hrun⟩ | hrun
  · rw [hrun]
    refine ⟨hedited.length_le.trans (List.length_set ..).ge, ?_⟩
    obtain ⟨i, l, l', hold, hlist, hchange⟩ := hedited.list
    by_cases hk : k = i
    · subst hk
      obtain rfl : m = l' := Cell.list.inj (Option.some.inj (hcell.symm.trans hlist))
      refine ⟨k, l, edit m, hold, ?_, hchange.imp (·.trans_le (hlength m)) (hnew m)⟩
      exact List.getElem?_set_self (List.getElem?_eq_some_iff.mp hcell).1
    · refine ⟨i, l, l', hold, ?_, hchange⟩
      rw [List.getElem?_set_ne hk, hlist]
  · rw [hrun]
    exact hedited

theorem staysEdited_insert (v : Val) (position : ℕ) (x : Val) :
    StaysEdited h₀ (insert v position x) := by
  refine staysEdited_editList v _ (fun l => ?_) fun l ⟨j, hj, hmem⟩ => ⟨j, hj, ?_⟩
  · simp only [List.length_append, List.length_cons, List.length_take, List.length_drop]
    omega
  · rw [← List.take_append_drop position l, List.mem_append] at hmem
    rw [List.mem_append, List.mem_cons]
    exact hmem.imp id .inr

theorem staysEdited_append (v x : Val) : StaysEdited h₀ (append v x) := by
  refine staysEdited_editList v _ (fun l => ?_) fun l ⟨j, hj, hmem⟩ => ⟨j, hj, ?_⟩
  · exact (List.prefix_append l [x]).length_le
  · exact List.mem_append_left _ hmem

/-- An element of a list is replaced by a new object. -/
theorem staysEdited_setIndex (v : Val) (position : ℕ) (c : Cell) :
    StaysEdited h₀ (alloc c >>= setIndex v position) := by
  intro h hedited
  have hset : StaysEdited h₀ (setIndex v position (.ref h.length)) := by
    refine staysEdited_editList v _ (fun l => (List.length_set ..).ge) fun l ⟨j, hj, hmem⟩ => ?_
    by_cases hposition : position < l.length
    · exact ⟨h.length, hedited.length_le, List.mem_set hposition _⟩
    · rw [List.set_eq_of_length_le (Nat.not_lt.mp hposition)]
      exact ⟨j, hj, hmem⟩
  exact hset (h ++ [c]) (hedited.mono (List.prefix_append h [c]))

theorem edited_insert {h : Heap} (hgrown : h₀ <+: h) {i : ℕ} {l : List Val}
    (hlist : h₀[i]? = some (.list l)) (position : ℕ) (x : Val) :
    Edited h₀ (insert (.ref i) position x h).2 := by
  have hcell : h[i]? = some (.list l) := getElem?_kept hgrown hlist
  have hi : i < h.length := (List.getElem?_eq_some_iff.mp hcell).1
  have hrun : insert (.ref i) position x h =
      (.ok (), h.set i (.list (l.take position ++ x :: l.drop position))) := by
    simp only [insert, editList, hcell]
  rw [hrun]
  refine ⟨hgrown.length_le.trans (List.length_set ..).ge,
    i, l, _, hlist, List.getElem?_set_self hi, .inl ?_⟩
  simp only [List.length_append, List.length_cons, List.length_take, List.length_drop]
  omega

theorem edited_setIndex {h : Heap} (hgrown : h₀ <+: h) {i : ℕ} {l : List Val}
    (hlist : h₀[i]? = some (.list l)) {position : ℕ} (hposition : position < l.length)
    (c : Cell) : Edited h₀ ((alloc c >>= setIndex (.ref i) position) h).2 := by
  have hlonger : h₀ <+: h ++ [c] := hgrown.trans (List.prefix_append h [c])
  have hcell : (h ++ [c])[i]? = some (.list l) := getElem?_kept hlonger hlist
  have hi : i < (h ++ [c]).length := (List.getElem?_eq_some_iff.mp hcell).1
  have hrun : (alloc c >>= setIndex (.ref i) position) h =
      (.ok (), (h ++ [c]).set i (.list (l.set position (.ref h.length)))) := by
    rw [bind_apply]
    simp only [alloc, setIndex, editList, hcell]
  rw [hrun]
  exact ⟨hlonger.length_le.trans (List.length_set ..).ge,
    i, l, _, hlist, List.getElem?_set_self hi,
    .inr ⟨h.length, hgrown.length_le, List.mem_set hposition _⟩⟩

theorem staysEdited_forEach {f : α → Mem Unit} (hf : ∀ a, StaysEdited h₀ (f a)) :
    ∀ l : List α, StaysEdited h₀ (forEach f l)
  | [] => fun _ hedited => hedited
  | a :: l => (hf a).bind fun _ => staysEdited_forEach hf l

end

/-! ## What a dry run says -/

/-- The dry run `d` says whether `x` edits an object of `h₀`, where both are run on `h`. -/
structure Decides (h₀ : Heap) (d : Mem Bool) (x : Mem α) (h : Heap) : Prop where
  keeps : (d h).1 ≠ .ok true → h <+: (x h).2
  edits : (d h).1 = .ok true → Edited h₀ (x h).2

/-- A step that may edit, and its dry run, which leaves the heap as the step does where the step
does not. -/
inductive Foresees (h₀ : Heap) (d : Mem Bool) (x : Mem Unit) (h : Heap) : Prop
  | edits (g : Heap) (hd : d h = (.ok true, g)) (hx : Edited h₀ (x h).2)
  | goesOn (g : Heap) (hd : d h = (.ok false, g)) (hx : x h = (.ok (), g)) (hgrown : h <+: g)
  | fails (e e' : Raised) (g g' : Heap) (hd : d h = (.error e, g)) (hx : x h = (.error e', g'))
    (hgrown : h <+: g')

/-- A computation leaves the old objects as they are if and only if the dry run does not say that
it edits one. -/
theorem Decides.prefix_iff {h : Heap} {d : Mem Bool} {x : Mem α} (hx : Decides h d x h)
    (hclosed : h.Closed) : h <+: (x h).2 ↔ (d h).1 ≠ .ok true :=
  ⟨fun hgrown hd => (hx.edits hd).not_kept hclosed hgrown, hx.keeps⟩

section

variable {h₀ h : Heap}

theorem Allocates.decides {x : Mem α} (hx : Allocates x) : Decides h₀ (pure false) x h :=
  ⟨fun _ => hx h, fun hd => Bool.noConfusion (Except.ok.inj hd)⟩

/-- A step that both do. -/
theorem Decides.bind_read [Shift β] {r r' : Mem β} {d : β → Mem Bool} {x : β → Mem α}
    (hr : Tame h₀.length [] r r')
    (hx : ∀ b g, r h = (.ok b, g) → h <+: g → Decides h₀ (d b) (x b) g) :
    Decides h₀ (r >>= d) (r >>= x) h := by
  have hgrown := hr.allocates h
  cases hrun : r h with
  | mk v g =>
    rw [hrun] at hgrown
    cases v with
    | error e =>
      refine ⟨fun _ => ?_, fun hd => ?_⟩
      · rw [bind_apply, hrun]
        exact hgrown
      · rw [bind_apply, hrun] at hd
        cases hd
    | ok b =>
      have hd : (r >>= d) h = d b g := by rw [bind_apply, hrun]
      have hstep : (r >>= x) h = x b g := by rw [bind_apply, hrun]
      have hrest := hx b g hrun hgrown
      refine ⟨fun hno => ?_, fun hyes => ?_⟩
      · rw [hd] at hno
        rw [hstep]
        exact hgrown.trans (hrest.keeps hno)
      · rw [hd] at hyes
        rw [hstep]
        exact hrest.edits hyes

/-- What follows does not edit. -/
theorem Decides.bind {d : Mem Bool} {x : Mem α} {f : α → Mem β} (hx : Decides h₀ d x h)
    (hf : ∀ a, Allocates (f a)) : Decides h₀ d (x >>= f) h := by
  have hafter : (x h).2 <+: ((x >>= f) h).2 := by
    rw [bind_apply]
    cases x h with
    | mk r g =>
      cases r with
      | error e => exact List.prefix_rfl
      | ok a => exact hf a g
  exact ⟨fun hd => (hx.keeps hd).trans hafter, fun hd => (hx.edits hd).mono hafter⟩

/-- What is edited is edited after the next step. -/
theorem Edited.after {x : Mem α} {f : α → Mem β} (hx : Edited h₀ (x h).2)
    (hf : ∀ a, StaysEdited h₀ (f a)) : Edited h₀ ((x >>= f) h).2 := by
  rw [bind_apply]
  cases hrun : x h with
  | mk r g =>
    rw [hrun] at hx
    cases r with
    | error e => exact hx
    | ok a => exact hf a g hx

/-- A dry run, and the dry run of what follows. -/
theorem then_apply (d d' : Mem Bool) (h : Heap) :
    (d >>= fun b => if b then pure true else d') h =
      match d h with
      | (.ok true, g) => (.ok true, g)
      | (.ok false, g) => d' g
      | (.error e, g) => (.error e, g) := by
  rw [bind_apply]
  rcases d h with ⟨e | b, g⟩
  · rfl
  · cases b <;> rfl

/-- A step that may edit, and what is done after it. -/
theorem Foresees.then {d d' : Mem Bool} {x : Mem Unit} {y : Mem α} (hx : Foresees h₀ d x h)
    (hy : ∀ g, h <+: g → Decides h₀ d' y g) (hedited : StaysEdited h₀ y) :
    Decides h₀ (d >>= fun b => if b then pure true else d') (x >>= fun _ => y) h := by
  have hthen := then_apply d d' h
  cases hx with
  | edits g hd hx =>
    rw [hd] at hthen
    refine ⟨fun hno => ?_, fun _ => hx.after fun _ => hedited⟩
    rw [hthen] at hno
    exact absurd rfl hno
  | goesOn g hd hx hgrown =>
    rw [hd] at hthen
    have hrest := hy g hgrown
    have hgoes : (x >>= fun _ => y) h = y g := by rw [bind_apply, hx]
    refine ⟨fun hno => ?_, fun hyes => ?_⟩
    · rw [hthen] at hno
      rw [hgoes]
      exact hgrown.trans (hrest.keeps hno)
    · rw [hthen] at hyes
      rw [hgoes]
      exact hrest.edits hyes
  | fails e e' g g' hd hx hgrown =>
    rw [hd] at hthen
    refine ⟨fun _ => ?_, fun hyes => ?_⟩
    · rw [bind_apply, hx]
      exact hgrown
    · rw [hthen] at hyes
      cases hyes

/-- Two steps that may edit. -/
theorem Foresees.then_foresees {d d' : Mem Bool} {x y : Mem Unit} (hx : Foresees h₀ d x h)
    (hy : ∀ g, h <+: g → Foresees h₀ d' y g) (hedited : StaysEdited h₀ y) :
    Foresees h₀ (d >>= fun b => if b then pure true else d') (x >>= fun _ => y) h := by
  have hthen := then_apply d d' h
  cases hx with
  | edits g hd hx =>
    rw [hd] at hthen
    exact .edits g hthen (hx.after fun _ => hedited)
  | goesOn g hd hx hgrown =>
    rw [hd] at hthen
    have hgoes : (x >>= fun _ => y) h = y g := by rw [bind_apply, hx]
    cases hy g hgrown with
    | edits g' hd hy => exact .edits g' (hthen.trans hd) (by rw [hgoes]; exact hy)
    | goesOn g' hd hy hgrown' =>
      exact .goesOn g' (hthen.trans hd) (hgoes.trans hy) (hgrown.trans hgrown')
    | fails e e' g' g'' hd hy hgrown' =>
      exact .fails e e' g' g'' (hthen.trans hd) (hgoes.trans hy) (hgrown.trans hgrown')
  | fails e e' g g' hd hx hgrown =>
    rw [hd] at hthen
    exact .fails e e' g g' hthen (by rw [bind_apply, hx]) hgrown

/-- A step that both do, before one that may edit. -/
theorem Foresees.bind_read [Shift β] {r r' : Mem β} {d : β → Mem Bool} {x : β → Mem Unit}
    (hr : Tame h₀.length [] r r')
    (hx : ∀ b g, r h = (.ok b, g) → h <+: g → Foresees h₀ (d b) (x b) g) :
    Foresees h₀ (r >>= d) (r >>= x) h := by
  have hgrown := hr.allocates h
  cases hrun : r h with
  | mk v g =>
    rw [hrun] at hgrown
    cases v with
    | error e =>
      exact .fails e e g g (by rw [bind_apply, hrun]) (by rw [bind_apply, hrun]) hgrown
    | ok b =>
      have hd : (r >>= d) h = d b g := by rw [bind_apply, hrun]
      have hstep : (r >>= x) h = x b g := by rw [bind_apply, hrun]
      cases hx b g hrun hgrown with
      | edits g' hd' hx => exact .edits g' (hd.trans hd') (by rw [hstep]; exact hx)
      | goesOn g' hd' hx hgrown' =>
        exact .goesOn g' (hd.trans hd') (hstep.trans hx) (hgrown.trans hgrown')
      | fails e e' g' g'' hd' hx hgrown' =>
        exact .fails e e' g' g'' (hd.trans hd') (hstep.trans hx) (hgrown.trans hgrown')

theorem Foresees.decides {d : Mem Bool} {x : Mem Unit} (hx : Foresees h₀ d x h) :
    Decides h₀ d x h := by
  cases hx with
  | edits g hd hx =>
    exact ⟨fun hno => absurd (congrArg Prod.fst hd) hno, fun _ => hx⟩
  | goesOn g hd hx hgrown =>
    refine ⟨fun _ => hx ▸ hgrown, fun hyes => ?_⟩
    rw [hd] at hyes
    cases hyes
  | fails e e' g g' hd hx hgrown =>
    refine ⟨fun _ => hx ▸ hgrown, fun hyes => ?_⟩
    rw [hd] at hyes
    cases hyes

/-- Where both do nothing. -/
theorem foresees_pure : Foresees h₀ (pure false) (pure ()) h :=
  .goesOn h rfl rfl List.prefix_rfl

/-- A loop over steps that may edit, under an invariant that new objects do not break. -/
theorem foresees_forEach {d : α → Mem Bool} {x : α → Mem Unit} {I : Heap → Prop}
    (hI : ∀ g g', I g → g <+: g' → I g') (hx : ∀ a g, I g → Foresees h₀ (d a) (x a) g)
    (hedited : ∀ a, StaysEdited h₀ (x a)) :
    ∀ (l : List α) (h : Heap), I h → Foresees h₀ (anyOf d l) (forEach x l) h
  | [], _, _ => foresees_pure
  | a :: l, h, hh =>
    (hx a h hh).then_foresees
      (fun g hgrown => foresees_forEach hI hx hedited l g (hI h g hh hgrown))
      (staysEdited_forEach hedited l)

/-- An old object is a list in every later heap or in none. -/
theorem old_list_cases {v : Val} (hold : v.Within h₀.length) (e : PyError) :
    (∃ i l, v = .ref i ∧ h₀[i]? = some (.list l)) ∨
      ∀ g, h₀ <+: g → ∀ edit, editList v e edit g = (.error (.error e), g) := by
  rcases editList_cases v e h₀ with ⟨i, l, hv, hcell, -⟩ | hrun
  · exact .inl ⟨i, l, hv, hcell⟩
  · refine .inr fun g hgrown edit => ?_
    rcases editList_cases v e g with ⟨i, l, rfl, hcell, -⟩ | hrun'
    · have hi : h₀[i]? = some h₀[i] := List.getElem?_eq_getElem hold
      have hlist : h₀[i]? = some (.list l) := by
        rw [hi, ← getElem?_kept hgrown hi, hcell]
      have hraises := hrun edit
      simp only [editList, hlist] at hraises
      cases hraises
    · exact hrun' edit

/-- An edit of an old list, or what is raised where it is none. -/
theorem foresees_editable {v : Val} {e : PyError} {x : Mem Unit} (hold : v.Within h₀.length)
    (hgrown : h₀ <+: h)
    (hedits : ∀ i l, h₀[i]? = some (.list l) → v = .ref i → Edited h₀ (x h).2)
    (hfails : (∀ g, h₀ <+: g → ∀ edit, editList v e edit g = (.error (.error e), g)) →
      ∃ g, x h = (.error (.error e), g) ∧ h <+: g) :
    Foresees h₀ (editable v e) x h := by
  rcases old_list_cases hold e with ⟨i, l, rfl, hlist⟩ | hraises
  · refine .edits (h.set i (.list l)) ?_ (hedits i l hlist rfl)
    have hcell : h[i]? = some (.list l) := getElem?_kept hgrown hlist
    simp only [editable, bind_apply, editList, hcell]
    rfl
  · obtain ⟨g, hx, hg⟩ := hfails hraises
    exact .fails _ _ h g (by rw [editable, bind_apply, hraises h hgrown]) hx hg

end

end ObjectHeap

end MultiAgent
