import MultiAgent.Lib.ObjectValues
import MultiAgent.Security.CircularReferences

/-!
# What validated input may contain

The value that `validate_user_input` returns is to have no string or key that a detector flags,
and to respect the limits (`Safe`). For an object or a string it checks the strings and the
lists, and returns the value with the strings that `bleach.clean` makes of them (`cleaned`);
keys are not looked at, and neither are the strings once they are cleaned. What is neither an
object nor a string is returned as it is.

So the returned value is as it should be exactly if the input is rejected, or no key is flagged
or too long and either the cleaned strings are not flagged, or, for an array or a scalar at the
top, the input is what it should be (`guarantees_iff`).
-/

namespace MultiAgent

namespace InputValidator

open ObjectHeap

/-! ## The parts of a value -/

/-- The text of a key. -/
def keyTexts : PyKey → List String
  | .str s => [s]
  | .none | .num _ => []

mutual

/-- The strings in a value. -/
def strings : PyValue → List String
  | .str s => [s]
  | .arr l => stringsOfList l
  | .obj d => stringsOfItems d
  | .null | .bool _ | .int _ | .float _ => []
termination_by structural v => v

/-- The strings in a list. -/
def stringsOfList : List PyValue → List String
  | [] => []
  | v :: l => strings v ++ stringsOfList l
termination_by structural l => l

/-- The strings in the values of a dictionary. -/
def stringsOfItems : Items → List String
  | [] => []
  | (_, v) :: d => strings v ++ stringsOfItems d
termination_by structural d => d

end

mutual

/-- The keys in a value. -/
def keys : PyValue → List String
  | .arr l => keysOfList l
  | .obj d => keysOfItems d
  | .null | .bool _ | .int _ | .float _ | .str _ => []
termination_by structural v => v

/-- The keys in a list. -/
def keysOfList : List PyValue → List String
  | [] => []
  | v :: l => keys v ++ keysOfList l
termination_by structural l => l

/-- The keys of a dictionary and in its values. -/
def keysOfItems : Items → List String
  | [] => []
  | (k, v) :: d => keyTexts k ++ keys v ++ keysOfItems d
termination_by structural d => d

end

mutual

/-- The lengths of the lists in a value. -/
def lengths : PyValue → List ℕ
  | .arr l => l.length :: lengthsOfList l
  | .obj d => lengthsOfItems d
  | .null | .bool _ | .int _ | .float _ | .str _ => []
termination_by structural v => v

/-- Those in a list. -/
def lengthsOfList : List PyValue → List ℕ
  | [] => []
  | v :: l => lengths v ++ lengthsOfList l
termination_by structural l => l

/-- Those in the values of a dictionary. -/
def lengthsOfItems : Items → List ℕ
  | [] => []
  | (_, v) :: d => lengths v ++ lengthsOfItems d
termination_by structural d => d

end

section

variable (lib : Libraries)

mutual

/-- The value with its strings cleaned. -/
def cleaned : PyValue → PyValue
  | .str s => .str (lib.clean s)
  | .arr l => .arr (cleanedList l)
  | .obj d => .obj (cleanedItems d)
  | .null => .null
  | .bool b => .bool b
  | .int i => .int i
  | .float q => .float q
termination_by structural v => v

/-- The elements of a list. -/
def cleanedList : List PyValue → List PyValue
  | [] => []
  | v :: l => cleaned v :: cleanedList l
termination_by structural l => l

/-- The items of a dictionary. -/
def cleanedItems : Items → Items
  | [] => []
  | (k, v) :: d => (k, cleaned v) :: cleanedItems d
termination_by structural d => d

end

/-! ## What is asked for -/

/-- A detector flags the text. -/
def Flagged (s : String) : Prop :=
  detectSqlInjection lib s = true ∨ detectXss s = true

/-- The text is not flagged and not too long. -/
def Plain (s : String) : Prop :=
  ¬Flagged lib s ∧ s.length ≤ maxStringLength

/-- No string is flagged, and neither strings nor lists are too long. -/
structure Accepted (x : PyValue) : Prop where
  strings : ∀ s ∈ strings x, Plain lib s
  lengths : ∀ n ∈ lengths x, n ≤ maxArrayLength

/-- No key is flagged or too long. -/
def KeysPlain (x : PyValue) : Prop :=
  ∀ k ∈ keys x, Plain lib k

/-- No string is flagged, neither a value nor a key, and the limits are respected. -/
def Safe (x : PyValue) : Prop :=
  Accepted lib x ∧ KeysPlain lib x

/-- What is returned for the value is safe. -/
def Guarantees (x : PyValue) : Prop :=
  ∀ (depth : ℕ) (h : Heap) (data w : Val) (out : PyValue), Denotes h data x →
    validateUserInput lib h depth data = .ok w → Denotes h w out → Safe lib out

/-- When it is : if it is rejected, or if no key is flagged or too long and the strings that are
cleaned, those of an object or a string at the top, are not flagged then; other input has to be
safe itself. -/
def GuaranteedFor (x : PyValue) : Prop :=
  match x with
  | .str _ | .obj _ =>
    Accepted lib x → KeysPlain lib x ∧ ∀ s ∈ strings x, ¬Flagged lib (lib.clean s)
  | _ => Safe lib x

end

variable {lib : Libraries} {h : Heap}

/-! ## Cleaned values -/

mutual

theorem strings_cleaned : ∀ x : PyValue, strings (cleaned lib x) = (strings x).map lib.clean
  | .str _ => rfl
  | .arr l => stringsOfList_cleaned l
  | .obj d => stringsOfItems_cleaned d
  | .null => rfl
  | .bool _ => rfl
  | .int _ => rfl
  | .float _ => rfl

theorem stringsOfList_cleaned : ∀ l : List PyValue,
    stringsOfList (cleanedList lib l) = (stringsOfList l).map lib.clean
  | [] => rfl
  | v :: l => by
    rw [cleanedList, stringsOfList, stringsOfList, List.map_append, strings_cleaned v,
      stringsOfList_cleaned l]

theorem stringsOfItems_cleaned : ∀ d : Items,
    stringsOfItems (cleanedItems lib d) = (stringsOfItems d).map lib.clean
  | [] => rfl
  | (_, v) :: d => by
    rw [cleanedItems, stringsOfItems, stringsOfItems, List.map_append, strings_cleaned v,
      stringsOfItems_cleaned d]

end

mutual

theorem keys_cleaned : ∀ x : PyValue, keys (cleaned lib x) = keys x
  | .str _ => rfl
  | .arr l => keysOfList_cleaned l
  | .obj d => keysOfItems_cleaned d
  | .null => rfl
  | .bool _ => rfl
  | .int _ => rfl
  | .float _ => rfl

theorem keysOfList_cleaned : ∀ l : List PyValue, keysOfList (cleanedList lib l) = keysOfList l
  | [] => rfl
  | v :: l => congrArg₂ (· ++ ·) (keys_cleaned v) (keysOfList_cleaned l)

theorem keysOfItems_cleaned : ∀ d : Items, keysOfItems (cleanedItems lib d) = keysOfItems d
  | [] => rfl
  | (k, v) :: d =>
    congrArg₂ (· ++ ·) (congrArg (keyTexts k ++ ·) (keys_cleaned v)) (keysOfItems_cleaned d)

end

theorem length_cleanedList : ∀ l : List PyValue, (cleanedList lib l).length = l.length
  | [] => rfl
  | _ :: l => congrArg Nat.succ (length_cleanedList l)

mutual

theorem lengths_cleaned : ∀ x : PyValue, lengths (cleaned lib x) = lengths x
  | .str _ => rfl
  | .arr l => congrArg₂ List.cons (length_cleanedList l) (lengthsOfList_cleaned l)
  | .obj d => lengthsOfItems_cleaned d
  | .null => rfl
  | .bool _ => rfl
  | .int _ => rfl
  | .float _ => rfl

theorem lengthsOfList_cleaned : ∀ l : List PyValue,
    lengthsOfList (cleanedList lib l) = lengthsOfList l
  | [] => rfl
  | v :: l => congrArg₂ (· ++ ·) (lengths_cleaned v) (lengthsOfList_cleaned l)

theorem lengthsOfItems_cleaned : ∀ d : Items,
    lengthsOfItems (cleanedItems lib d) = lengthsOfItems d
  | [] => rfl
  | (_, v) :: d => congrArg₂ (· ++ ·) (lengths_cleaned v) (lengthsOfItems_cleaned d)

end

/-- Cleaning makes no text longer. -/
theorem length_clean_le (s : String) : (lib.clean s).length ≤ s.length := by
  rw [← String.length_toList, ← String.length_toList]
  exact (lib.clean_sublist s).length_le

/-- A cleaned value is safe if the cleaned strings are not flagged and the keys are plain. -/
theorem safe_cleaned_iff {x : PyValue} (hx : Accepted lib x) :
    Safe lib (cleaned lib x) ↔
      KeysPlain lib x ∧ ∀ s ∈ strings x, ¬Flagged lib (lib.clean s) := by
  unfold Safe KeysPlain
  rw [keys_cleaned, and_comm]
  refine and_congr_right fun _ => ?_
  constructor
  · intro h s hs
    refine (h.strings (lib.clean s) ?_).1
    rw [strings_cleaned]
    exact List.mem_map_of_mem hs
  · intro h
    refine ⟨fun t ht => ?_, fun n hn => hx.lengths n (by rwa [lengths_cleaned] at hn)⟩
    rw [strings_cleaned] at ht
    obtain ⟨s, hs, rfl⟩ := List.mem_map.mp ht
    exact ⟨h s hs, (length_clean_le s).trans (hx.strings s hs).2⟩

/-! ## What validation returns -/

/-- The computation returns `out` if the condition holds. Otherwise it raises, as it does without
enough room. -/
def Yields {α : Type} (r : Except PyError α) (condition : Prop) (out : α) : Prop :=
  match r with
  | .ok a => condition ∧ a = out
  | .error e => e = .recursionError ∨ ¬condition

theorem Yields.map {α β : Type} {r : Except PyError α} {condition : Prop} {out : α} (f : α → β)
    (hr : Yields r condition out) : Yields (r.map f) condition (f out) := by
  cases r with
  | ok a => exact ⟨hr.1, congrArg f hr.2⟩
  | error e => exact hr

theorem Yields.bind {α β : Type} {r : Except PyError α} {f : α → Except PyError β} {p q : Prop}
    {a : α} {out : β} (hr : Yields r p a) (hf : Yields (f a) q out) :
    Yields (r >>= f) (p ∧ q) out := by
  cases r with
  | error e => exact hr.imp_right fun hp h => hp h.1
  | ok a' =>
    obtain ⟨hp, rfl⟩ := hr
    change Yields (f a') (p ∧ q) out
    cases hfa : f a' with
    | ok b =>
      rw [hfa] at hf
      exact ⟨⟨hp, hf.1⟩, hf.2⟩
    | error e =>
      rw [hfa] at hf
      exact hf.imp_right fun hq h => hq h.2

theorem yields_ok {α : Type} (a : α) : Yields (.ok a) True a :=
  ⟨trivial, rfl⟩

theorem Yields.congr {α : Type} {r : Except PyError α} {p q : Prop} {out : α}
    (hr : Yields r p out) (hpq : p ↔ q) : Yields r q out := by
  cases r with
  | ok a => exact ⟨hpq.mp hr.1, hr.2⟩
  | error e => exact hr.imp_right fun hp hq => hp (hpq.mpr hq)

theorem accepted_str_iff {s : String} : Accepted lib (.str s) ↔ Plain lib s := by
  refine ⟨fun h => h.strings s (List.mem_singleton_self s), fun h => ⟨fun t ht => ?_, ?_⟩⟩
  · obtain rfl := List.mem_singleton.mp ht
    exact h
  · exact fun n hn => absurd hn List.not_mem_nil

theorem yields_validateString (s : String) :
    Yields (validateString lib s none) (Plain lib s) (lib.clean s) := by
  unfold validateString Plain Flagged
  dsimp only [Option.filter, Option.getD]
  split_ifs with hlength hsql hxss
  · exact Or.inr fun h => absurd h.2 (Nat.not_le.mpr hlength)
  · exact Or.inr fun h => h.1 (Or.inl hsql)
  · exact Or.inr fun h => h.1 (Or.inr hxss)
  · exact ⟨⟨not_or.mpr ⟨hsql, hxss⟩, Nat.le_of_not_lt hlength⟩, rfl⟩

/-- The condition for the elements of a list. -/
structure AcceptedList (lib : Libraries) (l : List PyValue) : Prop where
  strings : ∀ s ∈ stringsOfList l, Plain lib s
  lengths : ∀ n ∈ lengthsOfList l, n ≤ maxArrayLength

/-- The condition for the items of a dictionary. -/
structure AcceptedItems (lib : Libraries) (d : Items) : Prop where
  strings : ∀ s ∈ stringsOfItems d, Plain lib s
  lengths : ∀ n ∈ lengthsOfItems d, n ≤ maxArrayLength

theorem acceptedList_cons_iff {x : PyValue} {l : List PyValue} :
    AcceptedList lib (x :: l) ↔ Accepted lib x ∧ AcceptedList lib l := by
  constructor
  · rintro ⟨hs, hn⟩
    rw [stringsOfList, List.forall_mem_append] at hs
    rw [lengthsOfList, List.forall_mem_append] at hn
    exact ⟨⟨hs.1, hn.1⟩, ⟨hs.2, hn.2⟩⟩
  · rintro ⟨hx, hl⟩
    exact ⟨List.forall_mem_append.mpr ⟨hx.strings, hl.strings⟩,
      List.forall_mem_append.mpr ⟨hx.lengths, hl.lengths⟩⟩

theorem acceptedItems_cons_iff {k : PyKey} {x : PyValue} {d : Items} :
    AcceptedItems lib ((k, x) :: d) ↔ Accepted lib x ∧ AcceptedItems lib d := by
  constructor
  · rintro ⟨hs, hn⟩
    rw [stringsOfItems, List.forall_mem_append] at hs
    rw [lengthsOfItems, List.forall_mem_append] at hn
    exact ⟨⟨hs.1, hn.1⟩, ⟨hs.2, hn.2⟩⟩
  · rintro ⟨hx, hl⟩
    exact ⟨List.forall_mem_append.mpr ⟨hx.strings, hl.strings⟩,
      List.forall_mem_append.mpr ⟨hx.lengths, hl.lengths⟩⟩

theorem accepted_arr_iff {l : List PyValue} :
    Accepted lib (.arr l) ↔ l.length ≤ maxArrayLength ∧ AcceptedList lib l := by
  constructor
  · rintro ⟨hs, hn⟩
    rw [lengths, List.forall_mem_cons] at hn
    exact ⟨hn.1, hs, hn.2⟩
  · rintro ⟨hlength, hs, hn⟩
    exact ⟨hs, List.forall_mem_cons.mpr ⟨hlength, hn⟩⟩

theorem accepted_obj_iff {d : Items} : Accepted lib (.obj d) ↔ AcceptedItems lib d :=
  ⟨fun h => ⟨h.strings, h.lengths⟩, fun h => ⟨h.strings, h.lengths⟩⟩

/-! ## Values that are documents -/

theorem exists_mem_of_denotesList {w : Val} : ∀ {vs : List Val} {l : List PyValue},
    DenotesList h vs l → w ∈ vs → ∃ y ∈ l, Denotes h w y
  | [], [], _, hw => absurd hw List.not_mem_nil
  | v :: vs, y :: l, hvs, hw => by
    rcases List.mem_cons.mp hw with rfl | hw
    · exact ⟨y, List.mem_cons_self, hvs.1⟩
    · obtain ⟨z, hz, hdenotes⟩ := exists_mem_of_denotesList hvs.2 hw
      exact ⟨z, List.mem_cons_of_mem y hz, hdenotes⟩

theorem exists_mem_of_denotesFields {p : PyKey × Val} : ∀ {fields : Fields} {d : Items},
    DenotesFields h fields d → p ∈ fields → ∃ q ∈ d, Denotes h p.2 q.2
  | [], [], _, hp => absurd hp List.not_mem_nil
  | (k, v) :: fields, (k', y) :: d, hd, hp => by
    rcases List.mem_cons.mp hp with rfl | hp
    · exact ⟨(k', y), List.mem_cons_self, hd.2.1⟩
    · obtain ⟨q, hq, hdenotes⟩ := exists_mem_of_denotesFields hd.2.2 hp
      exact ⟨q, List.mem_cons_of_mem _ hq, hdenotes⟩

/-- What is contained in a document is a smaller one. -/
theorem Contains.exists_smaller {v w : Val} {x : PyValue} (hvw : Contains h v w)
    (hx : Denotes h v x) : ∃ y, Denotes h w y ∧ sizeOf y < sizeOf x := by
  obtain ⟨l, hl, hw⟩ := hvw
  unfold contents at hl
  cases x with
  | arr m =>
    obtain ⟨vs, hview, hvs⟩ := exists_view_list hx
    rw [hview] at hl
    obtain rfl := Option.some.inj hl
    obtain ⟨y, hy, hdenotes⟩ := exists_mem_of_denotesList hvs hw
    refine ⟨y, hdenotes, ?_⟩
    have hlt := List.sizeOf_lt_of_mem hy
    simp only [PyValue.arr.sizeOf_spec]
    omega
  | obj d =>
    obtain ⟨fields, hview, hfields⟩ := exists_view hx
    rw [hview] at hl
    obtain rfl := Option.some.inj hl
    obtain ⟨p, hp, rfl⟩ := List.mem_map.mp hw
    obtain ⟨⟨k, y⟩, hq, hdenotes⟩ := exists_mem_of_denotesFields hfields hp
    refine ⟨y, hdenotes, ?_⟩
    have hlt := List.sizeOf_lt_of_mem hq
    simp only [Prod.mk.sizeOf_spec] at hlt
    simp only [PyValue.obj.sizeOf_spec]
    omega
  | _ =>
    obtain rfl := hx
    cases hl

theorem exists_smaller_of_transGen {v w : Val} (hvw : Relation.TransGen (Contains h) v w)
    {x : PyValue} (hx : Denotes h v x) : ∃ y, Denotes h w y ∧ sizeOf y < sizeOf x := by
  induction hvw with
  | single hvw => exact hvw.exists_smaller hx
  | tail _ hstep ih =>
    obtain ⟨y, hy, hlt⟩ := ih
    obtain ⟨z, hz, hlt'⟩ := hstep.exists_smaller hy
    exact ⟨z, hz, hlt'.trans hlt⟩

/-- A document contains no circular references. -/
theorem not_circular {v : Val} {x : PyValue} (hx : Denotes h v x) : ¬Circular h v := by
  rintro ⟨w, hvw, hcycle⟩
  have hw : ∃ y, Denotes h w y := by
    rcases Relation.reflTransGen_iff_eq_or_transGen.mp hvw with rfl | hvw
    · exact ⟨x, hx⟩
    · obtain ⟨y, hy, -⟩ := exists_smaller_of_transGen hvw hx
      exact ⟨y, hy⟩
  obtain ⟨y, hy⟩ := hw
  obtain ⟨z, hz, hlt⟩ := exists_smaller_of_transGen hcycle hy
  obtain rfl := hy.unique hz
  exact Nat.lt_irrefl _ hlt

mutual

/-- A document is returned with its strings cleaned if it is accepted. -/
theorem yields_validateValue : ∀ {x : PyValue} {v : Val} {depth : ℕ}, Denotes h v x →
    Yields (validateValue lib h depth v) (Accepted lib x) (cleaned lib x)
  | _, _, 0, _ => Or.inl rfl
  | .arr l, v, depth + 1, hv => by
    obtain ⟨vs, hview, hvs⟩ := exists_view_list hv
    have hlength : vs.length = l.length := hvs.length_eq
    unfold validateValue
    rw [hview]
    dsimp only
    unfold validateList
    split_ifs with hlong
    · refine Or.inr fun hl => ?_
      have := (accepted_arr_iff.mp hl).1
      omega
    · refine (yields_validateElements hvs).map PyValue.arr |>.congr ?_
      rw [accepted_arr_iff, and_iff_right (by omega)]
  | .obj d, v, depth + 1, hv => by
    obtain ⟨fields, hview, hfields⟩ := exists_view hv
    unfold validateValue
    rw [hview]
    dsimp only
    cases hsearch : hasCircularReference h depth v [] with
    | error e => exact Or.inl (PathSearch.error_of_search v [] hsearch)
    | ok r =>
      obtain ⟨found, seen⟩ := r
      cases found with
      | true => exact absurd ((hasCircularReference_eq_ok hsearch).mp rfl) (not_circular hv)
      | false =>
        exact ((yields_validateNestedData hfields).map PyValue.obj).congr accepted_obj_iff.symm
  | .str s, v, depth + 1, hv => by
    obtain rfl : v = .atom (.str s) := hv
    exact ((yields_validateString s).map PyValue.str).congr accepted_str_iff.symm
  | .null, v, depth + 1, hv => by
    obtain rfl : v = .atom .null := hv
    exact ⟨⟨fun s hs => absurd hs List.not_mem_nil, fun n hn => absurd hn List.not_mem_nil⟩, rfl⟩
  | .bool b, v, depth + 1, hv => by
    obtain rfl : v = .atom (.bool b) := hv
    exact ⟨⟨fun s hs => absurd hs List.not_mem_nil, fun n hn => absurd hn List.not_mem_nil⟩, rfl⟩
  | .int i, v, depth + 1, hv => by
    obtain rfl : v = .atom (.int i) := hv
    exact ⟨⟨fun s hs => absurd hs List.not_mem_nil, fun n hn => absurd hn List.not_mem_nil⟩, rfl⟩
  | .float q, v, depth + 1, hv => by
    obtain rfl : v = .atom (.float q) := hv
    exact ⟨⟨fun s hs => absurd hs List.not_mem_nil, fun n hn => absurd hn List.not_mem_nil⟩, rfl⟩

theorem yields_validateElements : ∀ {l : List PyValue} {vs : List Val} {depth : ℕ},
    DenotesList h vs l →
      Yields (validateElements (validateValue lib h depth) vs) (AcceptedList lib l)
        (cleanedList lib l)
  | [], [], _, _ =>
    ⟨⟨fun s hs => absurd hs List.not_mem_nil, fun n hn => absurd hn List.not_mem_nil⟩, rfl⟩
  | [], _ :: _, _, hvs => False.elim hvs
  | _ :: _, [], _, hvs => False.elim hvs
  | x :: l, v :: vs, depth, hvs => by
    have hfirst : Yields (validateValue lib h depth v) _ _ := yields_validateValue hvs.1
    have hrest : Yields (validateElements (validateValue lib h depth) vs) _ _ :=
      yields_validateElements hvs.2
    refine (hfirst.bind (hrest.bind (yields_ok (cleaned lib x :: cleanedList lib l)))).congr ?_
    rw [and_true, acceptedList_cons_iff]

theorem yields_validateNestedData : ∀ {d : Items} {fields : Fields} {depth : ℕ},
    DenotesFields h fields d →
      Yields (validateNestedData (validateValue lib h depth) fields) (AcceptedItems lib d)
        (cleanedItems lib d)
  | [], [], _, _ =>
    ⟨⟨fun s hs => absurd hs List.not_mem_nil, fun n hn => absurd hn List.not_mem_nil⟩, rfl⟩
  | [], _ :: _, _, hd => False.elim hd
  | (_, _) :: _, [], _, hd => False.elim hd
  | (k, x) :: d, (k', v) :: fields, depth, hd => by
    obtain rfl : k' = k := hd.1
    have hfirst : Yields (validateValue lib h depth v) _ _ := yields_validateValue hd.2.1
    have hrest : Yields (validateNestedData (validateValue lib h depth) fields) _ _ :=
      yields_validateNestedData hd.2.2
    refine (hfirst.bind
      (hrest.bind (yields_ok ((k', cleaned lib x) :: cleanedItems lib d)))).congr ?_
    rw [and_true, acceptedItems_cons_iff]

end

/-! ## The law -/

/-- An object or a string at the top is validated. -/
theorem yields_validateUserInput {x : PyValue} {data : Val} {depth : ℕ} (hx : Denotes h data x)
    (htop : (∃ s, x = .str s) ∨ ∃ d, x = .obj d) :
    Yields (validateUserInput lib h depth data) (Accepted lib x) (.atom (cleaned lib x)) := by
  unfold validateUserInput
  rcases htop with ⟨s, rfl⟩ | ⟨d, rfl⟩
  · obtain rfl : data = .atom (.str s) := hx
    exact ((yields_validateString s).map fun t => Val.atom (.str t)).congr accepted_str_iff.symm
  · obtain ⟨fields, hview, -⟩ := exists_view hx
    rw [hview]
    dsimp only
    unfold validateJson
    rw [hview]
    exact (yields_validateValue hx).map Val.atom

/-- Other input is returned as it is. -/
theorem validateUserInput_eq {x : PyValue} {data : Val} {depth : ℕ} (hx : Denotes h data x)
    (hstr : ∀ s, x ≠ .str s) (hobj : ∀ d, x ≠ .obj d) :
    validateUserInput lib h depth data = .ok data := by
  unfold validateUserInput
  cases x with
  | str s => exact absurd rfl (hstr s)
  | obj d => exact absurd rfl (hobj d)
  | arr l =>
    obtain ⟨vs, hview, -⟩ := exists_view_list hx
    rw [hview]
  | _ =>
    obtain rfl := hx
    rfl

/-- With enough room, validation raises no `RecursionError`. -/
theorem exists_depth_validateUserInput (lib : Libraries) (h : Heap) (data : Val) :
    ∃ depth, validateUserInput lib h depth data ≠ .error .recursionError := by
  obtain ⟨depth, hdepth⟩ := @exists_depth_validateJson lib h data
  refine ⟨depth, ?_⟩
  unfold validateUserInput
  cases view h data with
  | scalar x =>
    cases x with
    | str s => exact map_ne_error _ (validateString_ne_recursionError s none)
    | _ => exact fun h => by cases h
  | list l => exact fun h => by cases h
  | dict d => exact map_ne_error _ (hdepth depth (Nat.le_refl depth))

/-- An accepted document is returned with enough room. -/
theorem exists_validateUserInput {x : PyValue} (hx : Accepted lib x)
    (htop : (∃ s, x = .str s) ∨ ∃ d, x = .obj d) : ∃ depth,
      validateUserInput lib [] depth (.atom x) = .ok (.atom (cleaned lib x)) := by
  obtain ⟨depth, hdepth⟩ := exists_depth_validateUserInput lib [] (.atom x)
  refine ⟨depth, ?_⟩
  have hyields : Yields (validateUserInput lib [] depth (.atom x)) _ _ :=
    yields_validateUserInput (denotes_atom [] x) htop
  cases hrun : validateUserInput lib [] depth (.atom x) with
  | error e =>
    rw [hrun] at hyields
    rcases hyields with rfl | hnot
    · exact absurd hrun hdepth
    · exact absurd hx hnot
  | ok w =>
    rw [hrun] at hyields
    rw [hyields.2]

/-- What is returned for an object or a string is safe if its cleaned strings and its keys are. -/
theorem guarantees_iff_of_validated {x : PyValue} (htop : (∃ s, x = .str s) ∨ ∃ d, x = .obj d) :
    Guarantees lib x ↔
      (Accepted lib x → KeysPlain lib x ∧ ∀ s ∈ strings x, ¬Flagged lib (lib.clean s)) := by
  constructor
  · intro hguarantees haccepted
    obtain ⟨depth, hrun⟩ := exists_validateUserInput haccepted htop
    rw [← safe_cleaned_iff haccepted]
    exact hguarantees depth [] (.atom x) _ _ (denotes_atom [] x) hrun (denotes_atom [] _)
  · intro hfor depth h data w out hdata hrun hout
    have hyields : Yields (validateUserInput lib h depth data) _ _ :=
      yields_validateUserInput hdata htop
    rw [hrun] at hyields
    obtain ⟨haccepted, rfl⟩ := hyields
    obtain rfl := denotes_atom_iff.mp hout
    exact (safe_cleaned_iff haccepted).mpr (hfor haccepted)

/-- Other input is returned as it is. -/
theorem guarantees_iff_of_returned {x : PyValue} (hstr : ∀ s, x ≠ .str s)
    (hobj : ∀ d, x ≠ .obj d) : Guarantees lib x ↔ Safe lib x := by
  constructor
  · intro hguarantees
    exact hguarantees 0 [] (.atom x) (.atom x) x (denotes_atom [] x)
      (validateUserInput_eq (denotes_atom [] x) hstr hobj) (denotes_atom [] x)
  · intro hsafe depth h data w out hdata hrun hout
    rw [validateUserInput_eq hdata hstr hobj] at hrun
    obtain rfl := Except.ok.inj hrun
    obtain rfl := hdata.unique hout
    exact hsafe

/-- What `validate_user_input` returns for a value is safe exactly under these conditions. -/
theorem guarantees_iff (lib : Libraries) (x : PyValue) :
    Guarantees lib x ↔ GuaranteedFor lib x := by
  cases x with
  | str s => exact guarantees_iff_of_validated (Or.inl ⟨s, rfl⟩)
  | obj d => exact guarantees_iff_of_validated (Or.inr ⟨d, rfl⟩)
  | null => exact guarantees_iff_of_returned (fun _ h => by cases h) fun _ h => by cases h
  | bool b => exact guarantees_iff_of_returned (fun _ h => by cases h) fun _ h => by cases h
  | int i => exact guarantees_iff_of_returned (fun _ h => by cases h) fun _ h => by cases h
  | float q => exact guarantees_iff_of_returned (fun _ h => by cases h) fun _ h => by cases h
  | arr l => exact guarantees_iff_of_returned (fun _ h => by cases h) fun _ h => by cases h

/-! ## An array at the top -/

/-- The characters of ASCII, and texts without tags. -/
def ascii : Libraries where
  isDecimal := Char.isDigit
  isWord c := c.isAlphanum || c = '_'
  lower := String.toLower
  clean s := s
  clean_sublist _ := List.Sublist.refl _

theorem detectXss_script : detectXss "<script></script>" = true := by
  refine List.any_eq_true.mpr ⟨_, List.mem_cons_self, ?_⟩
  have hchars : "<script></script>".toList =
      ['<', 's', 'c', 'r', 'i', 'p', 't', '>', '<', '/', 's', 'c', 'r', 'i', 'p', 't', '>'] := rfl
  rw [hchars]
  -- the match from the first character on
  refine List.any_eq_true.mpr ⟨0, List.mem_range.mpr (Nat.succ_pos _), ?_⟩
  decide +kernel

/-- An array is returned with the script in it. -/
theorem not_guarantees : ¬Guarantees ascii (.arr [.str "<script></script>"]) := by
  intro h
  have hsafe : Safe ascii (.arr [.str "<script></script>"]) :=
    h 0 [] (.atom _) _ _ (denotes_atom [] _) rfl (denotes_atom [] _)
  have hplain := hsafe.1.strings "<script></script>" List.mem_cons_self
  exact hplain.1 (Or.inr detectXss_script)

end InputValidator

end MultiAgent
