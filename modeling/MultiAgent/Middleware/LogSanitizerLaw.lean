import MultiAgent.Middleware.LogSanitizer

/-!
# What sanitizing for logs guarantees

The log is to contain no PII, neither in a string nor in a key, and the marker at every key that
contains one of the names, in any case; the rest is to be as it was (`Clean`, `Redacted`).

The keys are kept as they are, and a name is searched for in the lower-case key as it is listed.
So the sanitized value is what it should be exactly if no key that stays has a PII pattern, and
the search finds the keys that contain a name (`sanitizes_iff`). Sanitizing once more changes
nothing in any case (`redact_redact`).
-/

namespace MultiAgent

namespace LogSanitizer

open ObjectHeap

/-! ## What is asked for -/

/-- The field name contains one of the names, in any case. -/
def containsName (u : Unicode) (names : List String) (fieldName : String) : Bool :=
  names.any fun name => decide ((u.lower name).toList <:+: (u.lower fieldName).toList)

section

variable (named pii : String → Bool)

mutual

/-- No string in the value has a PII pattern, and no key. -/
def Clean : PyValue → Prop
  | .obj d => CleanItems d
  | .arr l => CleanList l
  | .str s => pii s = false
  | .null | .bool _ | .int _ | .float _ => True
termination_by structural v => v

/-- The elements of a list. -/
def CleanList : List PyValue → Prop
  | [] => True
  | v :: l => Clean v ∧ CleanList l
termination_by structural l => l

/-- The items of a dictionary. -/
def CleanItems : Items → Prop
  | [] => True
  | (k, v) :: d => sensitiveKey pii k = false ∧ Clean v ∧ CleanItems d
termination_by structural d => d

end

mutual

/-- `w` is `v` with the marker at the keys that are named. Only what has a PII pattern may be
another string. -/
def Redacted : PyValue → PyValue → Prop
  | .obj d, w => ∃ e, w = .obj e ∧ RedactedItems d e
  | .arr l, w => ∃ m, w = .arr m ∧ RedactedList l m
  | .str s, w => ∃ t, w = .str t ∧ (pii s = false → t = s)
  | .null, w => w = .null
  | .bool b, w => w = .bool b
  | .int i, w => w = .int i
  | .float q, w => w = .float q
termination_by structural v => v

/-- The elements of a list. -/
def RedactedList : List PyValue → List PyValue → Prop
  | [], m => m = []
  | v :: l, m => ∃ w m', m = w :: m' ∧ Redacted v w ∧ RedactedList l m'
termination_by structural l => l

/-- The items of a dictionary. -/
def RedactedItems : Items → Items → Prop
  | [], e => e = []
  | (k, v) :: d, e => ∃ k' w e', e = (k', w) :: e' ∧ (sensitiveKey pii k = false → k' = k) ∧
      (sensitiveKey named k = true → w = marker) ∧
      (sensitiveKey named k = false → Redacted v w) ∧ RedactedItems d e'
termination_by structural d => d

end

end

/-- With enough room, `sanitize_for_logging` returns a value without PII that is redacted where
it should be, and leaves all objects as they were. Run on its own value it returns the same. -/
def Sanitizes (u : Unicode) (fields : Option (List String)) (v : JsonValue) : Prop :=
  ∃ least, ∀ depth, least ≤ depth → ∀ (h : Heap) (data : Val), Denotes h data v.value →
    ∃ w g out, sanitizeForLogging u fields depth data h = (.ok w, g) ∧ h <+: g ∧
      Denotes g w out ∧ Clean (containsPii u) out ∧
      Redacted (containsName u (fields.getD defaultSensitiveFields)) (containsPii u) v.value out ∧
      Makes (sanitizeForLogging u fields depth w) g out

/-! ## When it holds -/

/-- A string that is the marker, or becomes it. -/
def MarkedString (pii : String → Bool) (v : PyValue) : Prop :=
  ∃ s, v = .str s ∧ (pii s = true ∨ v = marker)

section

variable (named sensitive pii : String → Bool)

mutual

/-- No key that stays has a PII pattern. -/
def KeysClean : PyValue → Prop
  | .obj d => KeysCleanItems d
  | .arr l => KeysCleanList l
  | .null | .bool _ | .int _ | .float _ | .str _ => True
termination_by structural v => v

/-- The elements of a list. -/
def KeysCleanList : List PyValue → Prop
  | [] => True
  | v :: l => KeysClean v ∧ KeysCleanList l
termination_by structural l => l

/-- The items of a dictionary. -/
def KeysCleanItems : Items → Prop
  | [] => True
  | (k, v) :: d => sensitiveKey pii k = false ∧ (sensitiveKey sensitive k = true ∨ KeysClean v) ∧
      KeysCleanItems d
termination_by structural d => d

end

mutual

/-- The keys that stay are sensitive exactly if they are named, but for those whose value is the
marker either way. -/
def NamesFound : PyValue → Prop
  | .obj d => NamesFoundItems d
  | .arr l => NamesFoundList l
  | .null | .bool _ | .int _ | .float _ | .str _ => True
termination_by structural v => v

/-- The elements of a list. -/
def NamesFoundList : List PyValue → Prop
  | [] => True
  | v :: l => NamesFound v ∧ NamesFoundList l
termination_by structural l => l

/-- The items of a dictionary. -/
def NamesFoundItems : Items → Prop
  | [] => True
  | (k, v) :: d =>
      (sensitiveKey named k = sensitiveKey sensitive k ∨ MarkedString pii v) ∧
      (sensitiveKey sensitive k = true ∨ NamesFound v) ∧ NamesFoundItems d
termination_by structural d => d

end

end

section

variable {named sensitive pii : String → Bool}

mutual

/-- What is sanitized has no PII if no key that stays has. -/
theorem clean_redact_iff (hmarker : Clean pii marker) : ∀ {v : PyValue},
    Clean pii (redact sensitive pii v) ↔ KeysClean sensitive pii v
  | .obj d => clean_redactItems_iff hmarker
  | .arr l => clean_redactList_iff hmarker
  | .str s => by
    rw [redact, KeysClean, iff_true]
    split_ifs with hpii
    · exact hmarker
    · exact Bool.eq_false_iff.mpr hpii
  | .null => Iff.rfl
  | .bool _ => Iff.rfl
  | .int _ => Iff.rfl
  | .float _ => Iff.rfl

theorem clean_redactList_iff (hmarker : Clean pii marker) : ∀ {l : List PyValue},
    CleanList pii (redactList sensitive pii l) ↔ KeysCleanList sensitive pii l
  | [] => Iff.rfl
  | _ :: _ => and_congr (clean_redact_iff hmarker) (clean_redactList_iff hmarker)

theorem clean_redactItems_iff (hmarker : Clean pii marker) : ∀ {d : Items},
    CleanItems pii (redactItems sensitive pii d) ↔ KeysCleanItems sensitive pii d
  | [] => Iff.rfl
  | (k, v) :: d => by
    have hv : Clean pii (redact sensitive pii v) ↔ _ := clean_redact_iff hmarker
    have hd : CleanItems pii (redactItems sensitive pii d) ↔ _ := clean_redactItems_iff hmarker
    rw [redactItems, CleanItems, KeysCleanItems, ← hv, ← hd]
    split_ifs with hkey
    · simp only [hkey, hmarker, true_and, true_or]
    · simp only [hkey, false_or, Bool.false_eq_true]

end

theorem redacted_marker_iff {v : PyValue} : Redacted named pii v marker ↔ MarkedString pii v := by
  unfold MarkedString marker
  cases v with
  | str s =>
    rw [Redacted]
    constructor
    · rintro ⟨t, ht, hs⟩
      obtain rfl : "[REDACTED]" = t := PyValue.str.inj ht
      refine ⟨s, rfl, ?_⟩
      cases hpii : pii s with
      | true => exact Or.inl rfl
      | false => exact Or.inr (congrArg PyValue.str (hs hpii).symm)
    · rintro ⟨t, ht, hs⟩
      obtain rfl : s = t := PyValue.str.inj ht
      refine ⟨_, rfl, fun hpii => ?_⟩
      rcases hs with hs | hs
      · exact absurd hs (by simp [hpii])
      · exact (PyValue.str.inj hs).symm
  | _ => simp [Redacted]

theorem redact_eq_marker_iff {v : PyValue} :
    redact sensitive pii v = marker ↔ MarkedString pii v := by
  unfold MarkedString marker
  cases v with
  | str s =>
    rw [redact]
    split_ifs with hpii
    · exact iff_of_true rfl ⟨s, rfl, Or.inl hpii⟩
    · constructor
      · exact fun h => ⟨s, rfl, Or.inr h⟩
      · rintro ⟨t, ht, h | h⟩
        · obtain rfl : s = t := PyValue.str.inj ht
          exact absurd h hpii
        · exact h
  | _ => simp [redact]

mutual

/-- What is sanitized is redacted where it should be if the names are found. -/
theorem redacted_redact_iff : ∀ {v : PyValue},
    Redacted named pii v (redact sensitive pii v) ↔ NamesFound named sensitive pii v
  | .obj d => by
    rw [redact, Redacted, NamesFound]
    simp only [PyValue.obj.injEq, exists_eq_left']
    exact redacted_redactItems_iff
  | .arr l => by
    rw [redact, Redacted, NamesFound]
    simp only [PyValue.arr.injEq, exists_eq_left']
    exact redacted_redactList_iff
  | .str s => by
    rw [redact, Redacted, NamesFound, iff_true]
    split_ifs with hpii
    · exact ⟨_, rfl, fun h => absurd hpii (by simp [h])⟩
    · exact ⟨s, rfl, fun _ => rfl⟩
  | .null => by simp [redact, Redacted, NamesFound]
  | .bool _ => by simp [redact, Redacted, NamesFound]
  | .int _ => by simp [redact, Redacted, NamesFound]
  | .float _ => by simp [redact, Redacted, NamesFound]

theorem redacted_redactList_iff : ∀ {l : List PyValue},
    RedactedList named pii l (redactList sensitive pii l) ↔ NamesFoundList named sensitive pii l
  | [] => by simp [redactList, RedactedList, NamesFoundList]
  | v :: l => by
    have hv : Redacted named pii v (redact sensitive pii v) ↔ _ := redacted_redact_iff
    have hl : RedactedList named pii l (redactList sensitive pii l) ↔ _ := redacted_redactList_iff
    rw [redactList, RedactedList, NamesFoundList, ← hv, ← hl]
    constructor
    · rintro ⟨w, m, heq, hw, hm⟩
      cases heq
      exact ⟨hw, hm⟩
    · exact fun h => ⟨_, _, rfl, h.1, h.2⟩

theorem redacted_redactItems_iff : ∀ {d : Items},
    RedactedItems named pii d (redactItems sensitive pii d) ↔
      NamesFoundItems named sensitive pii d
  | [] => by simp [redactItems, RedactedItems, NamesFoundItems]
  | (k, v) :: d => by
    have hv : Redacted named pii v (redact sensitive pii v) ↔ _ := redacted_redact_iff
    have hd : RedactedItems named pii d (redactItems sensitive pii d) ↔ _ :=
      redacted_redactItems_iff
    rw [redactItems, RedactedItems, NamesFoundItems, ← hv, ← hd, ← and_assoc]
    have hstep : (∃ k' w e', (k, if sensitiveKey sensitive k = true then marker
          else redact sensitive pii v) :: redactItems sensitive pii d = (k', w) :: e' ∧
          (sensitiveKey pii k = false → k' = k) ∧ (sensitiveKey named k = true → w = marker) ∧
          (sensitiveKey named k = false → Redacted named pii v w) ∧
          RedactedItems named pii d e') ↔
        ((sensitiveKey named k = true → (if sensitiveKey sensitive k = true then marker
            else redact sensitive pii v) = marker) ∧
          (sensitiveKey named k = false → Redacted named pii v
            (if sensitiveKey sensitive k = true then marker else redact sensitive pii v))) ∧
          RedactedItems named pii d (redactItems sensitive pii d) := by
      constructor
      · rintro ⟨k', w, e', heq, -, hw, hw', he⟩
        cases heq
        exact ⟨⟨hw, hw'⟩, he⟩
      · exact fun h => ⟨_, _, _, rfl, fun _ => rfl, h.1.1, h.1.2, h.2⟩
    rw [hstep]
    refine and_congr_left fun _ => ?_
    cases hsensitive : sensitiveKey sensitive k with
    | true =>
      rw [if_pos rfl, redacted_marker_iff]
      cases sensitiveKey named k <;> simp
    | false =>
      rw [if_neg Bool.false_ne_true, redact_eq_marker_iff]
      cases sensitiveKey named k with
      | false => simp
      | true =>
        have hmarked : MarkedString pii v → Redacted named pii v (redact sensitive pii v) := by
          rintro ⟨s, rfl, -⟩
          exact redacted_redact_iff.mpr (by rw [NamesFound]; trivial)
        simp only [forall_const, Bool.true_eq_false, false_implies, and_true, false_or,
          Bool.false_eq_true]
        exact ⟨fun h => ⟨h, hmarked h⟩, And.left⟩

end

/-! ## Sanitizing again -/

mutual

/-- What is sanitized stays as it is. -/
theorem redact_redact (hmarker : pii "[REDACTED]" = false) : ∀ v : PyValue,
    redact sensitive pii (redact sensitive pii v) = redact sensitive pii v
  | .obj d => congrArg PyValue.obj (redactItems_redactItems hmarker d)
  | .arr l => congrArg PyValue.arr (redactList_redactList hmarker l)
  | .str s => by
    have hagain : redact sensitive pii marker = marker := if_neg (by simp [hmarker])
    rw [redact]
    split_ifs with hpii
    · exact hagain
    · exact if_neg hpii
  | .null => rfl
  | .bool _ => rfl
  | .int _ => rfl
  | .float _ => rfl

theorem redactList_redactList (hmarker : pii "[REDACTED]" = false) : ∀ l : List PyValue,
    redactList sensitive pii (redactList sensitive pii l) = redactList sensitive pii l
  | [] => rfl
  | v :: l => congrArg₂ List.cons (redact_redact hmarker v) (redactList_redactList hmarker l)

theorem redactItems_redactItems (hmarker : pii "[REDACTED]" = false) : ∀ d : Items,
    redactItems sensitive pii (redactItems sensitive pii d) = redactItems sensitive pii d
  | [] => rfl
  | (k, v) :: d => by
    rw [redactItems, redactItems, redactItems_redactItems hmarker d]
    split_ifs
    · rfl
    · rw [redact_redact hmarker v]

end

mutual

theorem isJson_redact : ∀ {v : PyValue}, IsJson v → IsJson (redact sensitive pii v)
  | .obj d, h => by
    rw [redact, IsJson, map_fst_redactItems]
    exact ⟨h.1, isJsonItems_redactItems h.2⟩
  | .arr l, h => isJsonList_redactList h
  | .str s, _ => by
    rw [redact]
    split_ifs <;> trivial
  | .null, h => h
  | .bool _, h => h
  | .int _, h => h
  | .float _, h => h

theorem isJsonList_redactList : ∀ {l : List PyValue}, IsJsonList l →
    IsJsonList (redactList sensitive pii l)
  | [], h => h
  | _ :: _, h => ⟨isJson_redact h.1, isJsonList_redactList h.2⟩

theorem isJsonItems_redactItems : ∀ {d : Items}, IsJsonItems d →
    IsJsonItems (redactItems sensitive pii d)
  | [], h => h
  | (_, v) :: _, h => by
    refine ⟨h.1, ?_, isJsonItems_redactItems h.2.2⟩
    split_ifs
    · trivial
    · exact isJson_redact h.2.1

end

theorem one_le_nesting (v : PyValue) : 1 ≤ nesting v := by
  cases v <;> simp [nesting]

mutual

theorem nesting_redact_le : ∀ {v : PyValue}, nesting (redact sensitive pii v) ≤ nesting v
  | .obj _ => Nat.succ_le_succ nestingItems_redactItems_le
  | .arr _ => Nat.succ_le_succ nestingList_redactList_le
  | .str s => by
    rw [redact]
    split_ifs <;> exact Nat.le_refl 1
  | .null => Nat.le_refl 1
  | .bool _ => Nat.le_refl 1
  | .int _ => Nat.le_refl 1
  | .float _ => Nat.le_refl 1

theorem nestingList_redactList_le : ∀ {l : List PyValue},
    nestingList (redactList sensitive pii l) ≤ nestingList l
  | [] => Nat.le_refl 0
  | _ :: _ => max_le_max nesting_redact_le nestingList_redactList_le

theorem nestingItems_redactItems_le : ∀ {d : Items},
    nestingItems (redactItems sensitive pii d) ≤ nestingItems d
  | [] => Nat.le_refl 0
  | (k, v) :: _ => by
    refine max_le_max ?_ nestingItems_redactItems_le
    split_ifs
    · exact one_le_nesting v
    · exact nesting_redact_le

end

end

/-! ## The law -/

variable {u : Unicode}

/-- A text with PII has a digit or an `@`. -/
theorem exists_of_containsPii {text : String} (h : containsPii u text = true) :
    ∃ c ∈ text.toList, (u.isDecimal c || c = '@') = true := by
  obtain ⟨pattern, hmem, hsearch⟩ := List.any_eq_true.mp h
  refine Regex.exists_of_search ?_ hsearch
  have hdigits : ∀ n, 0 < n → (digits u n).Needs fun c => u.isDecimal c || c = '@' :=
    fun n hn => ⟨hn, fun c hc => by simp [hc]⟩
  have hat : (literal '@').Needs fun c => u.isDecimal c || c = '@' := fun c hc => by
    simp [of_decide_eq_true hc]
  simp only [piiPatterns, List.mem_cons, List.not_mem_nil, or_false] at hmem
  rcases hmem with rfl | rfl | rfl | rfl
  · simp [bounded, Regex.chain, Regex.Needs, hdigits]
  · simp [bounded, Regex.chain, Regex.Needs, hdigits]
  · simp [bounded, Regex.chain, Regex.Needs, hdigits]
  · simp [bounded, Regex.chain, Regex.Needs, hat]

/-- The marker is no PII. -/
theorem containsPii_marker : containsPii u "[REDACTED]" = false := by
  refine Bool.eq_false_iff.mpr fun h => ?_
  obtain ⟨c, hc, hneeded⟩ := exists_of_containsPii h
  have hplain : ("[REDACTED]".toList.all fun c =>
      decide (c.toNat < 128 ∧ c.isDigit = false ∧ c ≠ '@')) = true := by decide
  obtain ⟨hascii, hdigit, hat⟩ := of_decide_eq_true (List.all_eq_true.mp hplain c hc)
  simp [u.isDecimal_ascii c hascii, hdigit, hat] at hneeded

/-- Sanitizing does what it should exactly if no key that stays has a PII pattern, and the keys
that stay are those in which no name is found. -/
theorem sanitizes_iff (u : Unicode) (fields : Option (List String)) (v : JsonValue) :
    Sanitizes u fields v ↔
      KeysClean (isSensitiveField u (fields.getD defaultSensitiveFields)) (containsPii u) v.value ∧
        NamesFound (containsName u (fields.getD defaultSensitiveFields))
          (isSensitiveField u (fields.getD defaultSensitiveFields)) (containsPii u) v.value := by
  have hclean : Clean (containsPii u) marker := containsPii_marker
  rw [← clean_redact_iff hclean, ← redacted_redact_iff]
  constructor
  · rintro ⟨least, hrun⟩
    obtain ⟨w, g, out, hw, -, hout, hout', hredacted, -⟩ :=
      hrun (max least (nesting v.value)) (Nat.le_max_left _ _) [] (.atom v.value)
        (denotes_atom [] v.value)
    obtain ⟨w', g', hw', -, hmade⟩ :=
      @makes_redact u fields _ v.isJson _ (Nat.le_max_right least _) [] _ (denotes_atom [] v.value)
    cases hw.symm.trans hw'
    obtain rfl := hout.unique hmade
    exact ⟨hout', hredacted⟩
  · rintro ⟨hclean', hredacted⟩
    refine ⟨nesting v.value, fun depth hdepth h data hdata => ?_⟩
    obtain ⟨w, g, hw, hgrown, hout⟩ := @makes_redact u fields _ v.isJson depth hdepth h data hdata
    refine ⟨w, g, _, hw, hgrown, hout, hclean', hredacted, ?_⟩
    have hagain := @makes_redact u fields _ (isJson_redact v.isJson) depth
      (nesting_redact_le.trans hdepth) g w hout
    rwa [redact_redact containsPii_marker] at hagain

/-! ## A phone number as a key -/

/-- The characters of ASCII. -/
def ascii : Unicode where
  isDecimal := Char.isDigit
  isWord c := c.isAlphanum || c = '_'
  lower := String.toLower
  isDecimal_ascii _ _ := rfl

/-- `{"555-123-4567": null}` -/
def phoneKey : JsonValue where
  value := .obj [(.str "555-123-4567", .null)]
  isJson := ⟨List.nodup_singleton _, ⟨_, rfl⟩, trivial, trivial⟩

theorem containsPii_phone : containsPii ascii "555-123-4567" = true := by
  refine List.any_eq_true.mpr
    ⟨_, List.mem_cons_of_mem _ (List.mem_cons_of_mem _ List.mem_cons_self), ?_⟩
  have hchars : "555-123-4567".toList =
      ['5', '5', '5', '-', '1', '2', '3', '-', '4', '5', '6', '7'] := rfl
  rw [hchars]
  -- the match from the first character on
  refine List.any_eq_true.mpr ⟨0, List.mem_range.mpr (Nat.succ_pos _), ?_⟩
  decide +kernel

/-- A log without PII has no such key. -/
theorem not_clean_phoneKey (sensitive pii : String → Bool) (h : pii "555-123-4567" = true) :
    ¬Clean pii (redact sensitive pii phoneKey.value) := by
  intro hclean
  have hkey : pii "555-123-4567" = false := hclean.1
  exact absurd h (by simp [hkey])

/-- The phone number is in the log. -/
theorem not_sanitizes : ¬Sanitizes ascii none phoneKey := by
  rintro ⟨least, hrun⟩
  obtain ⟨w, g, out, hw, -, hout, hclean, -⟩ :=
    hrun (least + 2) (Nat.le_add_right least 2) [] (.atom phoneKey.value) (denotes_atom [] _)
  obtain ⟨w', g', hw', -, hmade⟩ := @makes_redact ascii none _ phoneKey.isJson (least + 2)
    (Nat.le_add_left 2 least) [] _ (denotes_atom [] phoneKey.value)
  cases hw.symm.trans hw'
  obtain rfl := hout.unique hmade
  exact not_clean_phoneKey _ _ containsPii_phone hclean

end LogSanitizer

end MultiAgent
