import MultiAgent.Lib.ObjectHeap

/-!
# The values of objects

`Denotes h v x` : in the heap `h` the value `v` is the document `x`, down to its atoms. What is
a dictionary denotes one, item by item (`exists_view`), and what objects denote does not change
when others are allocated (`Denotes.mono`). A value denotes one document at most
(`Denotes.unique`).
-/

namespace MultiAgent

namespace ObjectHeap

mutual

/-- The value is this document. -/
def Denotes (h : Heap) : Val → PyValue → Prop
  | v, .arr l => v = .atom (.arr l) ∨ ∃ i vs, v = .ref i ∧ h[i]? = some (.list vs) ∧
    DenotesList h vs l
  | v, .obj d => v = .atom (.obj d) ∨ ∃ i fields, v = .ref i ∧ h[i]? = some (.dict fields) ∧
    DenotesFields h fields d
  | v, x => v = .atom x
termination_by structural _ x => x

/-- The elements of a list are these documents. -/
def DenotesList (h : Heap) : List Val → List PyValue → Prop
  | [], [] => True
  | v :: vs, x :: l => Denotes h v x ∧ DenotesList h vs l
  | _, _ => False
termination_by structural _ l => l

/-- The items of a dictionary have these keys and documents. -/
def DenotesFields (h : Heap) : Fields → Items → Prop
  | [], [] => True
  | (k, v) :: fields, (k', x) :: d => k = k' ∧ Denotes h v x ∧ DenotesFields h fields d
  | _, _ => False
termination_by structural _ d => d

end

variable {h g : Heap}

/-- An atom is its document. -/
theorem denotes_atom (h : Heap) (x : PyValue) : Denotes h (.atom x) x := by
  cases x with
  | arr l => exact Or.inl rfl
  | obj d => exact Or.inl rfl
  | _ => exact rfl

mutual

theorem Denotes.mono (hgrown : h <+: g) : ∀ {v : Val} {x : PyValue}, Denotes h v x → Denotes g v x
  | _, .arr l, hv => by
    rcases hv with rfl | ⟨i, vs, rfl, hcell, hvs⟩
    · exact Or.inl rfl
    · exact Or.inr ⟨i, vs, rfl, getElem?_kept hgrown hcell, DenotesList.mono hgrown hvs⟩
  | _, .obj d, hv => by
    rcases hv with rfl | ⟨i, fields, rfl, hcell, hfields⟩
    · exact Or.inl rfl
    · exact Or.inr ⟨i, fields, rfl, getElem?_kept hgrown hcell, DenotesFields.mono hgrown hfields⟩
  | _, .null, hv => hv
  | _, .bool _, hv => hv
  | _, .int _, hv => hv
  | _, .float _, hv => hv
  | _, .str _, hv => hv

theorem DenotesList.mono (hgrown : h <+: g) :
    ∀ {vs : List Val} {l : List PyValue}, DenotesList h vs l → DenotesList g vs l
  | [], [], _ => trivial
  | _ :: _, _ :: _, hl => ⟨Denotes.mono hgrown hl.1, DenotesList.mono hgrown hl.2⟩

theorem DenotesFields.mono (hgrown : h <+: g) :
    ∀ {fields : Fields} {d : Items}, DenotesFields h fields d → DenotesFields g fields d
  | [], [], _ => trivial
  | _ :: _, _ :: _, hd => ⟨hd.1, Denotes.mono hgrown hd.2.1, DenotesFields.mono hgrown hd.2.2⟩

end

theorem denotes_atom_iff {a x : PyValue} : Denotes h (.atom a) x ↔ x = a := by
  cases x with
  | arr l => simp [Denotes, eq_comm]
  | obj d => simp [Denotes, eq_comm]
  | _ => simp [Denotes, eq_comm]

/-- What an address denotes is made of the object there. -/
theorem denotes_ref {i : ℕ} {x : PyValue} (hx : Denotes h (.ref i) x) :
    (∃ vs l, h[i]? = some (.list vs) ∧ x = .arr l ∧ DenotesList h vs l) ∨
      ∃ fields d, h[i]? = some (.dict fields) ∧ x = .obj d ∧ DenotesFields h fields d := by
  cases x with
  | arr l =>
    rcases hx with heq | ⟨_, vs, heq, hcell, hvs⟩
    · cases heq
    · cases heq
      exact Or.inl ⟨vs, l, hcell, rfl, hvs⟩
  | obj d =>
    rcases hx with heq | ⟨_, fields, heq, hcell, hfields⟩
    · cases heq
    · cases heq
      exact Or.inr ⟨fields, d, hcell, rfl, hfields⟩
  | _ => cases hx

mutual

/-- A value denotes one document at most. -/
theorem Denotes.unique : ∀ {x y : PyValue} {v : Val}, Denotes h v x → Denotes h v y → x = y
  | _, _, .atom _, hx, hy => (denotes_atom_iff.mp hx).trans (denotes_atom_iff.mp hy).symm
  | .arr l, y, .ref i, hx, hy => by
    rcases hx with heq | ⟨_, vs, heq, hcell, hvs⟩
    · cases heq
    · cases heq
      rcases denotes_ref hy with ⟨_, m, hcell', rfl, hvs'⟩ | ⟨_, _, hcell', -⟩
      · cases hcell.symm.trans hcell'
        exact congrArg PyValue.arr (DenotesList.unique hvs hvs')
      · cases hcell.symm.trans hcell'
  | .obj d, y, .ref i, hx, hy => by
    rcases hx with heq | ⟨_, fields, heq, hcell, hfields⟩
    · cases heq
    · cases heq
      rcases denotes_ref hy with ⟨_, _, hcell', -⟩ | ⟨_, e, hcell', rfl, hfields'⟩
      · cases hcell.symm.trans hcell'
      · cases hcell.symm.trans hcell'
        exact congrArg PyValue.obj (DenotesFields.unique hfields hfields')
  | .null, _, .ref _, hx, _ => by cases hx
  | .bool _, _, .ref _, hx, _ => by cases hx
  | .int _, _, .ref _, hx, _ => by cases hx
  | .float _, _, .ref _, hx, _ => by cases hx
  | .str _, _, .ref _, hx, _ => by cases hx

theorem DenotesList.unique : ∀ {l m : List PyValue} {vs : List Val},
    DenotesList h vs l → DenotesList h vs m → l = m
  | [], [], [], _, _ => rfl
  | _ :: _, _ :: _, _ :: _, hl, hm =>
    congrArg₂ _ (Denotes.unique hl.1 hm.1) (DenotesList.unique hl.2 hm.2)
  | [], _ :: _, [], _, hm => False.elim hm
  | [], _ :: _, _ :: _, hl, _ => False.elim hl
  | _ :: _, [], [], hl, _ => False.elim hl
  | _ :: _, [], _ :: _, _, hm => False.elim hm

theorem DenotesFields.unique : ∀ {d e : Items} {fields : Fields},
    DenotesFields h fields d → DenotesFields h fields e → d = e
  | [], [], [], _, _ => rfl
  | (_, _) :: _, (_, _) :: _, (_, _) :: _, hd, he =>
    congrArg₂ _ (congrArg₂ _ (hd.1.symm.trans he.1) (Denotes.unique hd.2.1 he.2.1))
      (DenotesFields.unique hd.2.2 he.2.2)
  | [], (_, _) :: _, [], _, he => False.elim he
  | [], (_, _) :: _, _ :: _, hd, _ => False.elim hd
  | (_, _) :: _, [], [], hd, _ => False.elim hd
  | (_, _) :: _, [], _ :: _, _, he => False.elim he

end

theorem denotesFields_atoms (h : Heap) : ∀ d : Items,
    DenotesFields h (d.map fun p => (p.1, Val.atom p.2)) d
  | [] => trivial
  | (_, x) :: d => ⟨rfl, denotes_atom h x, denotesFields_atoms h d⟩

theorem denotesList_atoms (h : Heap) : ∀ l : List PyValue, DenotesList h (l.map Val.atom) l
  | [] => trivial
  | x :: l => ⟨denotes_atom h x, denotesList_atoms h l⟩

theorem DenotesList.length_eq : ∀ {vs : List Val} {l : List PyValue}, DenotesList h vs l →
    vs.length = l.length
  | [], [], _ => rfl
  | _ :: _, _ :: _, hl => congrArg Nat.succ hl.2.length_eq

/-- What denotes a list is one. -/
theorem exists_view_list {v : Val} {l : List PyValue} (hv : Denotes h v (.arr l)) :
    ∃ vs, view h v = .list vs ∧ DenotesList h vs l := by
  rcases hv with rfl | ⟨i, vs, rfl, hcell, hvs⟩
  · exact ⟨_, rfl, denotesList_atoms h l⟩
  · refine ⟨vs, ?_, hvs⟩
    rw [view, hcell]

/-- What denotes a dictionary is one. -/
theorem exists_view {v : Val} {d : Items} (hv : Denotes h v (.obj d)) :
    ∃ fields, view h v = .dict fields ∧ DenotesFields h fields d := by
  rcases hv with rfl | ⟨i, fields, rfl, hcell, hfields⟩
  · exact ⟨_, rfl, denotesFields_atoms h d⟩
  · refine ⟨fields, ?_, hfields⟩
    rw [view, hcell]

/-- What is a dictionary denotes one. -/
theorem exists_obj {v : Val} {x : PyValue} {fields : Fields} (hv : Denotes h v x)
    (hview : view h v = .dict fields) : ∃ d, x = .obj d ∧ DenotesFields h fields d := by
  cases x with
  | obj d =>
    obtain ⟨fields', hview', hfields⟩ := exists_view hv
    rw [hview] at hview'
    cases hview'
    exact ⟨d, rfl, hfields⟩
  | arr l =>
    rcases hv with rfl | ⟨i, vs, rfl, hcell, -⟩
    · cases hview
    · rw [view, hcell] at hview
      cases hview
  | _ =>
    obtain rfl := hv
    cases hview

/-- A new dictionary. -/
theorem denotes_alloc {fields : Fields} {d : Items} (hfields : DenotesFields h fields d) :
    Denotes (h ++ [.dict fields]) (.ref h.length) (.obj d) := by
  refine Or.inr ⟨h.length, fields, rfl, ?_, hfields.mono (List.prefix_append _ _)⟩
  rw [List.getElem?_append_right le_rfl, Nat.sub_self]
  rfl

/-- A new list. -/
theorem denotes_alloc_list {vs : List Val} {l : List PyValue} (hvs : DenotesList h vs l) :
    Denotes (h ++ [.list vs]) (.ref h.length) (.arr l) := by
  refine Or.inr ⟨h.length, vs, rfl, ?_, hvs.mono (List.prefix_append _ _)⟩
  rw [List.getElem?_append_right le_rfl, Nat.sub_self]
  rfl

/-! ## Items -/

theorem DenotesFields.map_fst : ∀ {fields : Fields} {d : Items}, DenotesFields h fields d →
    fields.map Prod.fst = d.map Prod.fst
  | [], [], _ => rfl
  | (_, _) :: _, (_, _) :: _, hd => congrArg₂ _ hd.1 hd.2.2.map_fst

/-- What is looked up denotes what is looked up. -/
inductive DenotesOption (h : Heap) : Option Val → Option PyValue → Prop
  | none : DenotesOption h .none .none
  | some {v : Val} {x : PyValue} : Denotes h v x → DenotesOption h (.some v) (.some x)

theorem DenotesFields.lookup (k : PyKey) : ∀ {fields : Fields} {d : Items},
    DenotesFields h fields d → DenotesOption h (fields.lookup k) (d.lookup k)
  | [], [], _ => .none
  | (k', v) :: fields, (k'', x) :: d, hd => by
    obtain rfl : k' = k'' := hd.1
    by_cases hk : k = k'
    · subst hk
      rw [Dict.lookup_cons_self (k, v), Dict.lookup_cons_self (k, x)]
      exact .some hd.2.1
    · rw [Dict.lookup_cons_ne (p := (k', v)) fields hk, Dict.lookup_cons_ne (p := (k', x)) d hk]
      exact hd.2.2.lookup k

theorem DenotesFields.append : ∀ {fields fields' : Fields} {d d' : Items},
    DenotesFields h fields d → DenotesFields h fields' d' →
      DenotesFields h (fields ++ fields') (d ++ d')
  | [], _, [], _, _, hd' => hd'
  | _ :: _, _, _ :: _, _, hd, hd' => ⟨hd.1, hd.2.1, hd.2.2.append hd'⟩

theorem DenotesFields.replaceItem {k : PyKey} {v : Val} {x : PyValue} (hv : Denotes h v x) :
    ∀ {fields : Fields} {d : Items}, DenotesFields h fields d →
      DenotesFields h (Dict.replaceItem k v fields) (Dict.replaceItem k x d)
  | [], [], _ => trivial
  | (k', w) :: fields, (k'', y) :: d, hd => by
    obtain rfl : k' = k'' := hd.1
    have ih := hd.2.2.replaceItem hv (k := k)
    change DenotesFields h ((if k' = k then _ else _) :: Dict.replaceItem k v fields)
      ((if k' = k then _ else _) :: Dict.replaceItem k x d)
    split_ifs
    · exact ⟨rfl, hv, ih⟩
    · exact ⟨rfl, hd.2.1, ih⟩

/-- Storing what denotes a document. -/
theorem DenotesFields.setItem {fields : Fields} {d : Items} (hd : DenotesFields h fields d)
    (k : PyKey) {v : Val} {x : PyValue} (hv : Denotes h v x) :
    DenotesFields h (Dict.setItem k v fields) (Dict.setItem k x d) := by
  unfold Dict.setItem
  rw [hd.map_fst]
  split_ifs
  · exact hd.replaceItem hv
  · exact hd.append ⟨rfl, hv, trivial⟩

end ObjectHeap

end MultiAgent
