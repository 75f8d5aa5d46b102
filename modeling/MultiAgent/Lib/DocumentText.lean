import MultiAgent.Lib.Document
import MultiAgent.Lib.PrefixCode

/-!
# Documents as texts

A format says how keys and leaves are written, and carries what makes its texts readable : a key is
read off from what begins with its text, a leaf up to a delimiter, and neither looks like a bracket.
With it documents are written with brackets, commas and colons (`Format.write`), and no two
documents have one text (`Format.write_injective`), nor even texts that go on as one up to a
delimiter (`Format.write_readsAt`).
-/

namespace MultiAgent

/-- What may come after a document inside of others. -/
def isDelimiter (c : Char) : Bool :=
  [',', ']', '}', ')'].contains c

/-- What lists and objects begin and end with. -/
def isBracket (c : Char) : Bool :=
  ['[', ']', '{', '}'].contains c

/-- How keys and leaves are written. -/
structure Format (κ σ : Type) where
  key : κ → List Char
  leaf : σ → List Char
  key_prefixCode : PrefixCode key
  key_head : ∀ k, ∃ c t, key k = c :: t ∧ isBracket c = false
  leaf_reads : Reads isDelimiter leaf
  leaf_head : ∀ x, ∃ c t, leaf x = c :: t ∧ isBracket c = false

namespace Format

variable {κ σ : Type} (F : Format κ σ)

mutual

/-- The text of a document. -/
def write : Document κ σ → List Char
  | .leaf x => F.leaf x
  | .arr l => '[' :: (separated [',', ' '] (writeList l) ++ [']'])
  | .obj f => '{' :: (separated [',', ' '] (writeFields f) ++ ['}'])
termination_by structural v => v

/-- The texts of the elements of a list. -/
def writeList : List (Document κ σ) → List (List Char)
  | [] => []
  | v :: l => write v :: writeList l
termination_by structural l => l

/-- The texts of the fields of an object. -/
def writeFields : List (κ × Document κ σ) → List (List Char)
  | [] => []
  | (k, v) :: f => (F.key k ++ ':' :: ' ' :: write v) :: writeFields f
termination_by structural f => f

end

/-- The text of a field. -/
def writeField (p : κ × Document κ σ) : List Char :=
  F.key p.1 ++ ':' :: ' ' :: F.write p.2

theorem writeList_eq : ∀ l, F.writeList l = l.map F.write
  | [] => rfl
  | v :: l => by rw [writeList, writeList_eq l, List.map_cons]

theorem writeFields_eq : ∀ f, F.writeFields f = f.map F.writeField
  | [] => rfl
  | (k, v) :: f => by
    rw [writeFields, writeFields_eq f, List.map_cons]
    rfl

variable {F}

theorem leaf_ne_bracket {c : Char} (hc : isBracket c = true) (x : σ) (s t : List Char) :
    F.leaf x ++ s ≠ c :: t := by
  intro heq
  obtain ⟨c', t', htext, hc'⟩ := F.leaf_head x
  rw [htext] at heq
  rw [(List.cons.inj heq).1, hc] at hc'
  cases hc'

/-- No document begins with a closing bracket. -/
theorem write_ne_close (v : Document κ σ) (s t : List Char) : F.write v ++ s ≠ ']' :: t := by
  cases v with
  | leaf x => exact leaf_ne_bracket rfl x s t
  | arr l => exact fun heq => by cases (List.cons.inj heq).1
  | obj f => exact fun heq => by cases (List.cons.inj heq).1

theorem writeField_ne_close (p : κ × Document κ σ) (s t : List Char) :
    F.writeField p ++ s ≠ '}' :: t := by
  intro heq
  obtain ⟨c, t', htext, hc⟩ := F.key_head p.1
  unfold writeField at heq
  rw [htext] at heq
  rw [(List.cons.inj heq).1] at hc
  cases hc

theorem writeField_readsAt {p : κ × Document κ σ} (h : ReadsAt isDelimiter F.write p.2) :
    ReadsAt isDelimiter F.writeField p := by
  intro q s t hs ht heq
  unfold writeField at heq
  simp only [List.append_assoc, List.cons_append] at heq
  obtain ⟨hkey, hrest⟩ := F.key_prefixCode _ _ _ _ heq
  obtain ⟨hvalue, hst⟩ := h q.2 s t hs ht (List.cons.inj (List.cons.inj hrest).2).2
  exact ⟨Prod.ext hkey hvalue, hst⟩

mutual

/-- A document is read off from what begins with its text, up to a delimiter. -/
theorem write_readsAt : ∀ v : Document κ σ, ReadsAt isDelimiter F.write v
  | .leaf x, .leaf y, s, t, hs, ht, heq => by
    rw [write, write] at heq
    obtain ⟨rfl, hst⟩ := F.leaf_reads x y s t hs ht heq
    exact ⟨rfl, hst⟩
  | .leaf x, .arr m, s, t, _, _, heq => absurd heq (leaf_ne_bracket rfl x s _)
  | .leaf x, .obj g, s, t, _, _, heq => absurd heq (leaf_ne_bracket rfl x s _)
  | .arr l, .leaf y, s, t, _, _, heq => absurd heq.symm (leaf_ne_bracket rfl y t _)
  | .arr l, .arr m, s, t, hs, ht, heq => by
    rw [write, write, writeList_eq, writeList_eq] at heq
    simp only [List.cons_append, List.append_assoc, List.nil_append] at heq
    obtain ⟨rfl, hst⟩ := separated_inj rfl rfl (by decide) write_ne_close (writeList_readsAt l)
      (List.cons.inj heq).2
    exact ⟨rfl, hst⟩
  | .arr l, .obj g, s, t, _, _, heq => by cases (List.cons.inj heq).1
  | .obj f, .leaf y, s, t, _, _, heq => absurd heq.symm (leaf_ne_bracket rfl y t _)
  | .obj f, .arr m, s, t, _, _, heq => by cases (List.cons.inj heq).1
  | .obj f, .obj g, s, t, hs, ht, heq => by
    rw [write, write, writeFields_eq, writeFields_eq] at heq
    simp only [List.cons_append, List.append_assoc, List.nil_append] at heq
    obtain ⟨rfl, hst⟩ := separated_inj rfl rfl (by decide) writeField_ne_close
      (fun p hp => writeField_readsAt (writeFields_readsAt f p hp)) (List.cons.inj heq).2
    exact ⟨rfl, hst⟩

termination_by structural v => v

theorem writeList_readsAt : ∀ l : List (Document κ σ), ∀ v ∈ l, ReadsAt isDelimiter F.write v
  | [] => fun _ hv => absurd hv List.not_mem_nil
  | v :: l => List.forall_mem_cons.mpr ⟨write_readsAt v, writeList_readsAt l⟩
termination_by structural l => l

theorem writeFields_readsAt : ∀ f : List (κ × Document κ σ), ∀ p ∈ f,
    ReadsAt isDelimiter F.write p.2
  | [] => fun _ hp => absurd hp List.not_mem_nil
  | (_, v) :: f => List.forall_mem_cons.mpr ⟨write_readsAt v, writeFields_readsAt f⟩
termination_by structural f => f

end

/-- No two documents have one text. -/
theorem write_injective : Function.Injective F.write := by
  intro v w heq
  have hnil : Delimited isDelimiter ([] : List Char) := fun c hc => by cases hc
  exact (write_readsAt v w [] [] hnil hnil (by rw [heq])).1

end Format

end MultiAgent
