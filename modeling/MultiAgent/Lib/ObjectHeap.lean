import MultiAgent.Lib.PyValue

/-!
# Objects of a dynamically typed language

Lists and dictionaries as objects that a program shares and edits in place : a heap of cells,
values that are atoms or refer to a cell, and computations that read, allocate and edit cells
and keep what they did when they raise (`Mem`).

A program sees no addresses, so in a heap with more cells it does the same with the addresses
shifted (`Uniform`), which holds of a sequence if it holds of its steps (`Uniform.bind`). One
that edits nothing leaves the old cells as a prefix of the new ones (`Tame`). Run again on the
heap it left, it gives the same with the addresses shifted, which read as the same values
(`Uniform.again`, `readBack_shift`).
-/

namespace MultiAgent

namespace ObjectHeap

/-- A value. An atom is a number, a string and so on, or a document that nothing edits. -/
inductive Val
  | atom (v : PyValue)
  | ref (i : ℕ)

/-- The items of a dictionary. -/
abbrev Fields :=
  List (PyKey × Val)

/-- An object. -/
inductive Cell
  | list (l : List Val)
  | dict (d : Fields)

/-- The objects, by their addresses. -/
abbrev Heap :=
  List Cell

/-- What a computation raises. -/
inductive Raised
  | error (e : PyError)
  | memoryError

/-- A computation on the heap. -/
def Mem (α : Type) :=
  Heap → Except Raised α × Heap

instance : Monad Mem where
  pure a h := (.ok a, h)
  bind x f h :=
    match x h with
    | (.ok a, g) => f a g
    | (.error e, g) => (.error e, g)

variable {α β : Type}

theorem bind_apply (x : Mem α) (f : α → Mem β) (h : Heap) :
    (x >>= f) h =
      match x h with
      | (.ok a, g) => f a g
      | (.error e, g) => (.error e, g) :=
  rfl

theorem bind_eq_ok {x : Mem α} {f : α → Mem β} {h g : Heap} {b : β} :
    (x >>= f) h = (.ok b, g) ↔ ∃ a h', x h = (.ok a, h') ∧ f a h' = (.ok b, g) := by
  rw [bind_apply]
  rcases x h with ⟨e | a, h'⟩
  · exact iff_of_false (fun hrun => by cases hrun) fun ⟨_, _, hx, _⟩ => by cases hx
  · refine ⟨fun hrun => ⟨a, h', rfl, hrun⟩, ?_⟩
    rintro ⟨_, _, hx, hrun⟩
    cases hx
    exact hrun

instance : LawfulMonad Mem := by
  refine LawfulMonad.mk' Mem (fun x => funext fun h => ?_) (fun _ _ => rfl)
    fun x f g => funext fun h => ?_
  · refine (bind_apply x (pure ∘ id) h).trans ?_
    rcases x h with ⟨e | a, h'⟩ <;> rfl
  · rw [bind_apply, bind_apply, bind_apply]
    rcases x h with ⟨e | a, h'⟩ <;> rfl

/-- Raise an error. -/
def raise (e : Raised) : Mem α :=
  fun h => (.error e, h)

/-- A computation that does not touch the heap. -/
def lift (x : Except PyError α) : Mem α :=
  fun h => (x.mapError .error, h)

/-! ## Objects -/

/-- What a value is. -/
inductive View
  | scalar (v : PyValue)
  | list (l : List Val)
  | dict (d : Fields)

/-- What a value is in a heap. -/
def view (h : Heap) : Val → View
  | .atom (.arr l) => .list (l.map .atom)
  | .atom (.obj d) => .dict (d.map fun p => (p.1, .atom p.2))
  | .atom v => .scalar v
  | .ref i =>
    match h[i]? with
    | some (.list l) => .list l
    | some (.dict d) => .dict d
    | none => .scalar .null

/-- Look at a value. -/
def look (v : Val) : Mem View :=
  fun h => (.ok (view h v), h)

/-- A new object. -/
def alloc (c : Cell) : Mem Val :=
  fun h => (.ok (.ref h.length), h ++ [c])

/-- Edit a list in place; other values have no such method. -/
def editList (v : Val) (e : PyError) (edit : List Val → List Val) : Mem Unit := fun h =>
  match v with
  | .ref i =>
    match h[i]? with
    | some (.list l) => (.ok (), h.set i (.list (edit l)))
    | _ => (.error (.error e), h)
  | .atom _ => (.error (.error e), h)

/-- `v.insert(position, x)`. -/
def insert (v : Val) (position : ℕ) (x : Val) : Mem Unit :=
  editList v (.attributeError "insert") fun l => l.take position ++ x :: l.drop position

/-- `v.append(x)`. -/
def append (v x : Val) : Mem Unit :=
  editList v (.attributeError "append") fun l => l ++ [x]

/-- `v[position] = x`, of a list. -/
def setIndex (v : Val) (position : ℕ) (x : Val) : Mem Unit :=
  editList v .typeError fun l => l.set position x

/-- The value at a key, which must be there. -/
def found (key : String) : Option Val → Mem Val
  | some w => pure w
  | none => raise (.error (.keyError key))

/-- `v[key]`. -/
def getItem (key : String) (v : Val) : Mem Val := do
  match ← look v with
  | .dict d => found key (d.lookup (.str key))
  | _ => raise (.error .typeError)

/-- `v.get(key, default)`. -/
def get (key : String) (default v : Val) : Mem Val := do
  match ← look v with
  | .dict d => pure ((d.lookup (.str key)).getD default)
  | _ => raise (.error (.attributeError "get"))

/-- `v.items()`. -/
def items (v : Val) : Mem Fields := do
  match ← look v with
  | .dict d => pure d
  | _ => raise (.error (.attributeError "items"))

/-- `for x in v`. -/
def iter (v : Val) : Mem (List Val) := do
  match ← look v with
  | .list l => pure l
  | .dict d => pure (d.map fun p => .atom p.1.toValue)
  | .scalar s => lift (s.iter.map fun l => l.map .atom)

/-- `v == key`. -/
def Val.isKey (v : Val) (key : PyKey) : Bool :=
  match v with
  | .atom a => PyValue.isKey a key
  | .ref _ => false

/-- `key in v`. -/
def contains (key : String) (v : Val) : Mem Bool := do
  match ← look v with
  | .dict d => pure (d.lookup (.str key)).isSome
  | .list l => pure (l.any fun w => w.isKey (.str key))
  | .scalar s => lift (s.contains key)

/-- `bool(v)`. -/
def truthy (v : Val) : Mem Bool := do
  match ← look v with
  | .dict d => pure !d.isEmpty
  | .list l => pure !l.isEmpty
  | .scalar s => pure s.truthy

/-- Do it for each in turn. -/
def each (f : α → Mem β) : List α → Mem (List β)
  | [] => pure []
  | a :: l => do
    let b ← f a
    let bs ← each f l
    return b :: bs

/-- `for a in l: f(a)`. -/
def forEach (f : α → Mem Unit) : List α → Mem Unit
  | [] => pure ()
  | a :: l => do
    f a
    forEach f l

/-- `hash(v)`. -/
def hash : Val → Mem PyKey
  | .atom a => lift a.hash
  | .ref _ => raise (.error .typeError)

/-- The value that an object has, down to a depth. -/
def readBack (h : Heap) : ℕ → Val → PyValue
  | 0, _ => .null
  | depth + 1, v =>
    match v with
    | .atom a => a
    | .ref i =>
      match h[i]? with
      | some (.list l) => .arr (l.map (readBack h depth))
      | some (.dict d) => .obj (d.map fun p => (p.1, readBack h depth p.2))
      | none => .null

/-! ## Shifted addresses -/

/-- The addresses from `n` on go up by `k`. -/
class Shift (α : Type) where
  shift (n k : ℕ) : α → α

export Shift (shift)

/-- An address. -/
def shiftIndex (n k i : ℕ) : ℕ :=
  if i < n then i else i + k

instance : Shift Val where
  shift n k
    | .atom v => .atom v
    | .ref i => .ref (shiftIndex n k i)

instance : Shift PyKey where
  shift _ _ key := key

instance : Shift Bool where
  shift _ _ b := b

instance : Shift Unit where
  shift _ _ u := u

instance : Shift ℕ where
  shift _ _ i := i

instance [Shift α] : Shift (List α) where
  shift n k l := l.map (shift n k)

instance [Shift α] : Shift (Option α) where
  shift n k o := o.map (shift n k)

instance [Shift α] [Shift β] : Shift (α × β) where
  shift n k p := (shift n k p.1, shift n k p.2)

instance : Shift Cell where
  shift n k
    | .list l => .list (shift n k l)
    | .dict d => .dict (shift n k d)

instance : Shift View where
  shift n k
    | .scalar v => .scalar v
    | .list l => .list (shift n k l)
    | .dict d => .dict (shift n k d)

section

variable (n k : ℕ)

@[simp] theorem shift_atom (v : PyValue) : shift n k (Val.atom v) = .atom v := rfl

@[simp] theorem shift_ref (i : ℕ) : shift n k (Val.ref i) = .ref (shiftIndex n k i) := rfl

@[simp] theorem shift_key (key : PyKey) : shift n k key = key := rfl

@[simp] theorem shift_bool (b : Bool) : shift n k b = b := rfl

@[simp] theorem shift_nat (i : ℕ) : shift n k i = i := rfl

@[simp] theorem shift_nil [Shift α] : shift n k ([] : List α) = [] := rfl

@[simp] theorem shift_cons [Shift α] (a : α) (l : List α) :
    shift n k (a :: l) = shift n k a :: shift n k l := rfl

@[simp] theorem shift_append [Shift α] (l m : List α) :
    shift n k (l ++ m) = shift n k l ++ shift n k m :=
  List.map_append

@[simp] theorem shift_prod [Shift α] [Shift β] (p : α × β) :
    shift n k p = (shift n k p.1, shift n k p.2) := rfl

@[simp] theorem shift_none [Shift α] : shift n k (none : Option α) = none := rfl

@[simp] theorem shift_some [Shift α] (a : α) :
    shift n k (some a) = some (shift n k a) := rfl

@[simp] theorem length_shift [Shift α] (l : List α) : (shift n k l).length = l.length :=
  List.length_map _

theorem getElem?_shift [Shift α] (l : List α) (i : ℕ) :
    (shift n k l)[i]? = shift n k l[i]? :=
  List.getElem?_map

theorem getD_shift [Shift α] (o : Option α) (a : α) :
    (shift n k o).getD (shift n k a) = shift n k (o.getD a) := by
  cases o <;> rfl

@[simp] theorem isKey_shift (v : Val) (key : PyKey) : (shift n k v).isKey key = v.isKey key := by
  cases v <;> rfl

theorem lookup_shift (d : Fields) (key : PyKey) :
    (shift n k d).lookup key = shift n k (d.lookup key) := by
  induction d with
  | nil => rfl
  | cons p d ih =>
    obtain ⟨key', v⟩ := p
    rw [shift_cons, shift_prod, List.lookup_cons, List.lookup_cons]
    cases key == key'
    · exact ih
    · rfl

theorem map_fst_shift (d : Fields) : (shift n k d).map Prod.fst = d.map Prod.fst :=
  List.map_map

theorem shift_setItem (d : Fields) (key : PyKey) (v : Val) :
    Dict.setItem key (shift n k v) (shift n k d) = shift n k (Dict.setItem key v d) := by
  unfold Dict.setItem
  rw [map_fst_shift]
  split_ifs
  · change (d.map _).map _ = (d.map _).map _
    rw [List.map_map, List.map_map]
    refine List.map_congr_left fun p _ => ?_
    rw [Function.comp_apply, Function.comp_apply]
    change (if p.1 = key then _ else _) = _
    split_ifs <;> rfl
  · exact (shift_append n k d [(key, v)]).symm

theorem shift_filter (p : PyKey → Bool) (d : Fields) :
    (shift n k d).filter (fun x => p x.1) = shift n k (d.filter fun x => p x.1) := by
  induction d with
  | nil => rfl
  | cons x d ih =>
    rw [shift_cons, List.filter_cons, List.filter_cons]
    change (if p x.1 then _ else _) = _
    split_ifs
    · rw [ih, shift_cons]
    · exact ih

end

/-- The heap with more cells from the address `n` on. -/
def stretch (n : ℕ) (more : List Cell) (h : Heap) : Heap :=
  shift n more.length (h.take n) ++ more ++ shift n more.length (h.drop n)

section

variable {n : ℕ} {more : List Cell} {h : Heap}

theorem length_stretch : (stretch n more h).length = h.length + more.length := by
  unfold stretch
  rw [List.length_append, List.length_append, length_shift, length_shift, List.length_take,
    List.length_drop]
  omega

theorem getElem?_stretch (hn : n ≤ h.length) (i : ℕ) :
    (stretch n more h)[shiftIndex n more.length i]? = shift n more.length h[i]? := by
  have htake : (shift n more.length (h.take n)).length = n := by
    rw [length_shift, List.length_take, Nat.min_eq_left hn]
  unfold stretch shiftIndex
  split_ifs with hi
  · rw [List.append_assoc, List.getElem?_append_left (by rw [htake]; exact hi), getElem?_shift,
      List.getElem?_take_of_lt hi]
  · rw [List.getElem?_append_right (by rw [List.length_append, htake]; omega), List.length_append,
      htake, getElem?_shift, List.getElem?_drop]
    congr 2
    omega

theorem stretch_append (hn : n ≤ h.length) (l : List Cell) :
    stretch n more (h ++ l) = stretch n more h ++ shift n more.length l := by
  unfold stretch
  rw [List.take_append_of_le_length hn, List.drop_append_of_le_length hn, shift_append]
  simp only [List.append_assoc]

theorem stretch_set (hn : n ≤ h.length) (i : ℕ) (c : Cell) :
    (stretch n more h).set (shiftIndex n more.length i) (shift n more.length c) =
      stretch n more (h.set i c) := by
  have htake : (shift n more.length (h.take n)).length = n := by
    rw [length_shift, List.length_take, Nat.min_eq_left hn]
  have hset : ∀ (l : Heap) (j : ℕ), shift n more.length (l.set j c) =
      (shift n more.length l).set j (shift n more.length c) := fun _ _ => List.map_set
  unfold stretch shiftIndex
  split_ifs with hi
  · rw [List.append_assoc, List.append_assoc, List.set_append_left _ _ (by rw [htake]; exact hi),
      List.take_set, List.drop_set_of_lt hi, hset]
  · rw [List.set_append_right _ _ (by rw [List.length_append, htake]; omega), List.length_append,
      htake, List.take_set_of_le (by omega), List.drop_set, if_neg hi, hset]
    congr 2
    omega

theorem view_stretch (hn : n ≤ h.length) (v : Val) :
    view (stretch n more h) (shift n more.length v) = shift n more.length (view h v) := by
  cases v with
  | atom v =>
    cases v with
    | arr l =>
      change View.list (l.map Val.atom) = .list ((l.map Val.atom).map _)
      rw [List.map_map]
      rfl
    | obj d =>
      change View.dict (d.map _) = .dict ((d.map _).map _)
      rw [List.map_map]
      rfl
    | _ => rfl
  | ref i =>
    rw [shift_ref, view, view, getElem?_stretch hn]
    cases h[i]? with
    | none => rfl
    | some c => cases c <;> rfl

/-- Shifted objects have the same values. -/
theorem readBack_shift (hn : n ≤ h.length) : ∀ (depth : ℕ) (v : Val),
    readBack (stretch n more h) depth (shift n more.length v) = readBack h depth v
  | 0, v => rfl
  | depth + 1, v => by
    cases v with
    | atom v => rfl
    | ref i =>
      rw [shift_ref, readBack, readBack, getElem?_stretch hn]
      cases h[i]? with
      | none => rfl
      | some c =>
        cases c with
        | list l =>
          change PyValue.arr ((l.map _).map _) = .arr (l.map _)
          rw [List.map_map]
          refine congrArg PyValue.arr (List.map_congr_left fun w _ => ?_)
          exact readBack_shift hn depth w
        | dict d =>
          change PyValue.obj ((d.map _).map _) = .obj (d.map _)
          rw [List.map_map]
          refine congrArg PyValue.obj (List.map_congr_left fun p _ => ?_)
          exact congrArg (Prod.mk p.1) (readBack_shift hn depth p.2)

end

/-! ## Computations that do not depend on addresses -/

/-- `y` does on a stretched heap what `x` does. -/
structure Uniform [Shift α] (n : ℕ) (more : List Cell) (x y : Mem α) : Prop where
  stays : ∀ h : Heap, n ≤ h.length → n ≤ (x h).2.length
  same : ∀ h : Heap, n ≤ h.length → y (stretch n more h) =
    ((x h).1.map (shift n more.length), stretch n more (x h).2)

/-- The old cells stay as they are. -/
def Allocates (x : Mem α) : Prop :=
  ∀ h, h <+: (x h).2

theorem Allocates.bind {x : Mem α} {f : α → Mem β} (hx : Allocates x)
    (hf : ∀ a, Allocates (f a)) : Allocates (x >>= f) := by
  intro h
  have hgrown := hx h
  rw [bind_apply]
  cases hrun : x h with
  | mk r h' =>
    rw [hrun] at hgrown
    cases r with
    | error e => exact hgrown
    | ok a => exact hgrown.trans (hf a h')

/-- A computation that only reads and allocates. -/
structure Tame [Shift α] (n : ℕ) (more : List Cell) (x y : Mem α) : Prop
    extends Uniform n more x y where
  allocates : Allocates x

/-- A computation that is tame for some addresses allocates. -/
theorem allocates_of_tame [Shift α] {x y : Mem α} (h : Tame 0 [] x y) : Allocates x :=
  h.allocates

section

variable [Shift α] [Shift β] {n : ℕ} {more : List Cell}

theorem Uniform.bind {x y : Mem α} {f g : α → Mem β} (hx : Uniform n more x y)
    (hf : ∀ a, Uniform n more (f a) (g (shift n more.length a))) :
    Uniform n more (x >>= f) (y >>= g) := by
  refine ⟨fun h hn => ?_, fun h hn => ?_⟩
  · have hstays := hx.stays h hn
    rw [bind_apply]
    cases hrun : x h with
    | mk r h' =>
      rw [hrun] at hstays
      cases r with
      | error e => exact hstays
      | ok a => exact (hf a).stays h' hstays
  · have hstays := hx.stays h hn
    rw [bind_apply, bind_apply, hx.same h hn]
    cases hrun : x h with
    | mk r h' =>
      rw [hrun] at hstays
      cases r with
      | error e => rfl
      | ok a => exact (hf a).same h' hstays

theorem Tame.bind {x y : Mem α} {f g : α → Mem β} (hx : Tame n more x y)
    (hf : ∀ a, Tame n more (f a) (g (shift n more.length a))) :
    Tame n more (x >>= f) (y >>= g) :=
  ⟨hx.toUniform.bind fun a => (hf a).toUniform, hx.allocates.bind fun a => (hf a).allocates⟩

/-- A computation that does not change the heap. -/
theorem tame_of_reads {x y : Mem α} (hx : ∀ h, (x h).2 = h)
    (hy : ∀ h, n ≤ h.length → y (stretch n more h) =
      ((x h).1.map (shift n more.length), stretch n more h)) : Tame n more x y := by
  refine ⟨⟨fun h hn => ?_, fun h hn => ?_⟩, fun h => ?_⟩
  · rw [hx]
    exact hn
  · rw [hy h hn, hx]
  · rw [hx]

theorem tame_pure {a b : α} (h : b = shift n more.length a) :
    Tame n more (pure a : Mem α) (pure b) :=
  tame_of_reads (fun _ => rfl) fun _ _ => h ▸ rfl

theorem tame_raise (e : Raised) : Tame n more (raise e : Mem α) (raise e) :=
  tame_of_reads (fun _ => rfl) fun _ _ => rfl

theorem tame_lift {x y : Except PyError α} (h : y = x.map (shift n more.length)) :
    Tame n more (lift x) (lift y) := by
  refine tame_of_reads (fun _ => rfl) fun _ _ => ?_
  subst h
  cases x <;> rfl

theorem tame_look (v : Val) : Tame n more (look v) (look (shift n more.length v)) := by
  refine tame_of_reads (fun _ => rfl) fun h hn => ?_
  unfold look
  rw [view_stretch hn]
  rfl

theorem tame_alloc (c : Cell) : Tame n more (alloc c) (alloc (shift n more.length c)) := by
  refine ⟨⟨fun h hn => ?_, fun h hn => ?_⟩, fun h => List.prefix_append h [c]⟩
  · exact hn.trans (by simp [alloc])
  · unfold alloc
    have haddress : shiftIndex n more.length h.length = h.length + more.length :=
      if_neg (Nat.not_lt.mpr hn)
    rw [stretch_append hn, length_stretch]
    change _ = (Except.ok (Val.ref (shiftIndex n more.length h.length)), _)
    rw [haddress]
    rfl

theorem uniform_editList {v : Val} {e : PyError} {edit edit' : List Val → List Val}
    (hedit : ∀ l, edit' (shift n more.length l) = shift n more.length (edit l)) :
    Uniform n more (editList v e edit) (editList (shift n more.length v) e edit') := by
  refine ⟨fun h hn => ?_, fun h hn => ?_⟩
  · unfold editList
    split
    · split
      · exact hn.trans (List.length_set ..).ge
      · exact hn
    · exact hn
  · cases v with
    | atom v => rfl
    | ref i =>
      have hcell : (stretch n more h)[shiftIndex n more.length i]? = shift n more.length h[i]? :=
        getElem?_stretch hn i
      unfold editList
      rw [shift_ref]
      dsimp only
      rw [hcell]
      cases h[i]? with
      | none => rfl
      | some c =>
        cases c with
        | dict d => rfl
        | list l =>
          change (Except.ok (), (stretch n more h).set _ (.list (edit' _))) = _
          rw [hedit]
          exact congrArg (Prod.mk _) (stretch_set hn i (.list (edit l)))

theorem uniform_insert (v : Val) (position : ℕ) (x : Val) : Uniform n more (insert v position x)
    (insert (shift n more.length v) position (shift n more.length x)) :=
  uniform_editList fun l => by
    rw [shift_append, shift_cons]
    exact congrArg₂ (· ++ _ :: ·) (List.map_take).symm (List.map_drop).symm

theorem uniform_append (v x : Val) : Uniform n more (append v x)
    (append (shift n more.length v) (shift n more.length x)) :=
  uniform_editList fun l => (shift_append n more.length l [x]).symm

theorem uniform_setIndex (v : Val) (position : ℕ) (x : Val) :
    Uniform n more (setIndex v position x)
      (setIndex (shift n more.length v) position (shift n more.length x)) :=
  uniform_editList fun _ => List.map_set.symm

/-! ## Reading -/

theorem tame_found (key : String) (o : Option Val) :
    Tame n more (found key o) (found key (shift n more.length o)) := by
  cases o with
  | none => exact tame_raise _
  | some w => exact tame_pure rfl

theorem tame_getItem (key : String) (v : Val) :
    Tame n more (getItem key v) (getItem key (shift n more.length v)) := by
  unfold getItem
  refine (tame_look v).bind fun w => ?_
  cases w with
  | dict d =>
    have hfound : Tame n more (found key (d.lookup (.str key)))
        (found key (shift n more.length (d.lookup (.str key)))) := tame_found key _
    rw [← lookup_shift] at hfound
    exact hfound
  | _ => exact tame_raise _

theorem tame_get (key : String) (default v : Val) :
    Tame n more (get key default v)
      (get key (shift n more.length default) (shift n more.length v)) := by
  unfold get
  refine (tame_look v).bind fun w => ?_
  cases w with
  | dict d =>
    refine tame_pure ?_
    rw [← getD_shift, ← lookup_shift]
  | _ => exact tame_raise _

theorem tame_items (v : Val) : Tame n more (items v) (items (shift n more.length v)) := by
  unfold items
  refine (tame_look v).bind fun w => ?_
  cases w with
  | dict d => exact tame_pure rfl
  | _ => exact tame_raise _

/-- Atoms do not move. -/
theorem shift_map_atom {γ : Type} (f : γ → PyValue) (l : List γ) :
    shift n more.length (l.map fun a => Val.atom (f a)) = l.map fun a => Val.atom (f a) :=
  List.map_map

theorem tame_iter (v : Val) : Tame n more (iter v) (iter (shift n more.length v)) := by
  unfold iter
  refine (tame_look v).bind fun w => ?_
  cases w with
  | list l => exact tame_pure rfl
  | dict d =>
    refine tame_pure ?_
    rw [shift_map_atom]
    exact List.map_map
  | scalar s =>
    refine tame_lift ?_
    rw [Fallible.map_map]
    exact congrArg (s.iter.map ·) (funext fun l => (shift_map_atom id l).symm)

theorem tame_contains (key : String) (v : Val) :
    Tame n more (contains key v) (contains key (shift n more.length v)) := by
  unfold contains
  refine (tame_look v).bind fun w => ?_
  cases w with
  | list l =>
    refine tame_pure ?_
    change (l.map _).any _ = _
    rw [List.any_map]
    exact congrArg l.any (funext fun w => isKey_shift n more.length w _)
  | dict d =>
    refine tame_pure ?_
    have hlookup := lookup_shift n more.length d (.str key)
    exact (congrArg Option.isSome hlookup).trans Option.isSome_map
  | scalar s => exact tame_lift (by cases s.contains key <;> rfl)

theorem tame_truthy (v : Val) : Tame n more (truthy v) (truthy (shift n more.length v)) := by
  unfold truthy
  refine (tame_look v).bind fun w => ?_
  cases w with
  | list l => exact tame_pure (by cases l <;> rfl)
  | dict d => exact tame_pure (by cases d <;> rfl)
  | scalar s => exact tame_pure rfl

theorem tame_hash (v : Val) : Tame n more (hash v) (hash (shift n more.length v)) := by
  cases v with
  | atom a => exact tame_lift (by cases a.hash <;> rfl)
  | ref i => exact tame_raise _

theorem tame_each {f : α → Mem β} (hf : ∀ a, Tame n more (f a) (f (shift n more.length a))) :
    ∀ l : List α, Tame n more (each f l) (each f (shift n more.length l))
  | [] => tame_pure rfl
  | a :: l => (hf a).bind fun _ => (tame_each hf l).bind fun _ => tame_pure rfl

theorem uniform_forEach {f g : α → Mem Unit}
    (hf : ∀ a, Uniform n more (f a) (g (shift n more.length a))) :
    ∀ l : List α, Uniform n more (forEach f l) (forEach g (shift n more.length l))
  | [] => (tame_pure rfl).toUniform
  | a :: l => (hf a).bind fun _ => uniform_forEach hf l

end

/-! ## Running again -/

/-- The value refers to addresses below `n` only. -/
def Val.Within (n : ℕ) : Val → Prop
  | .atom _ => True
  | .ref i => i < n

/-- The object refers to addresses below `n` only. -/
def Cell.Within (n : ℕ) : Cell → Prop
  | .list l => ∀ v ∈ l, v.Within n
  | .dict d => ∀ p ∈ d, p.2.Within n

/-- Every object refers to objects of the heap. -/
def Heap.Closed (h : Heap) : Prop :=
  ∀ c ∈ h, c.Within h.length

instance (n : ℕ) (v : Val) : Decidable (v.Within n) :=
  match v with
  | .atom _ => .isTrue trivial
  | .ref i => inferInstanceAs (Decidable (i < n))

instance (n : ℕ) (c : Cell) : Decidable (c.Within n) :=
  match c with
  | .list l => inferInstanceAs (Decidable (∀ v ∈ l, v.Within n))
  | .dict d => inferInstanceAs (Decidable (∀ p ∈ d, p.2.Within n))

instance (h : Heap) : Decidable h.Closed :=
  inferInstanceAs (Decidable (∀ c ∈ h, c.Within h.length))

theorem shift_of_within {n : ℕ} (k : ℕ) {v : Val} (h : v.Within n) : shift n k v = v := by
  cases v with
  | atom v => rfl
  | ref i => exact congrArg Val.ref (if_pos h)

theorem stretch_of_closed {h : Heap} (hclosed : h.Closed) (more : List Cell) :
    stretch h.length more h = h ++ more := by
  have hcell : ∀ c ∈ h, shift h.length more.length c = c := fun c hc => by
    have hwithin := hclosed c hc
    cases c with
    | list l =>
      refine congrArg Cell.list ((List.map_congr_left fun v hv => ?_).trans (List.map_id l))
      exact shift_of_within _ (hwithin v hv)
    | dict d =>
      refine congrArg Cell.dict ((List.map_congr_left fun p hp => ?_).trans (List.map_id d))
      exact congrArg (Prod.mk p.1) (shift_of_within _ (hwithin p hp))
  unfold stretch
  rw [List.take_length, List.drop_length, shift_nil, List.append_nil]
  exact congrArg (· ++ more) ((List.map_congr_left hcell).trans (List.map_id h))

theorem getElem?_kept {h g : Heap} (hgrown : h <+: g) {i : ℕ} {c : Cell}
    (hc : h[i]? = some c) : g[i]? = some c := by
  obtain ⟨more, rfl⟩ := hgrown
  have hi : i < h.length := (List.getElem?_eq_some_iff.mp hc).1
  rw [List.getElem?_append_left hi, hc]

/-- The items of an old dictionary are old. -/
theorem items_within {h₀ h g : Heap} (hclosed : h₀.Closed) (hgrown : h₀ <+: h) {v : Val}
    (hv : v.Within h₀.length) {d : Fields} (hrun : items v h = (.ok d, g)) :
    ∀ p ∈ d, p.2.Within h₀.length := by
  rw [items, bind_apply, look] at hrun
  dsimp only at hrun
  cases v with
  | atom v =>
    cases v with
    | obj d' =>
      cases hrun
      intro p hp
      obtain ⟨p', -, rfl⟩ := List.mem_map.mp hp
      trivial
    | _ => cases hrun
  | ref i =>
    have hi : h₀[i]? = some h₀[i] := List.getElem?_eq_getElem hv
    simp only [view, getElem?_kept hgrown hi] at hrun
    have hcell : h₀[i].Within h₀.length := hclosed _ (List.getElem_mem hv)
    cases hc : h₀[i] with
    | list l =>
      rw [hc] at hrun
      cases hrun
    | dict d' =>
      rw [hc] at hrun hcell
      cases hrun
      exact hcell

/-- A computation that left the old objects as they were does the same when it is run again. -/
theorem Uniform.again [Shift α] {x : Mem α} {h : Heap} (hclosed : h.Closed)
    (hx : ∀ more, Uniform h.length more x x) (hkeeps : h <+: (x h).2) :
    ∃ more, x (x h).2 =
      ((x h).1.map (shift h.length more.length), stretch h.length more (x h).2) := by
  obtain ⟨more, hmore⟩ := hkeeps
  refine ⟨more, ?_⟩
  have hsame := (hx more).same h le_rfl
  rw [stretch_of_closed hclosed, hmore] at hsame
  exact hsame

end ObjectHeap

end MultiAgent
