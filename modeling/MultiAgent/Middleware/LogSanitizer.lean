import MultiAgent.Lib.ObjectValues
import MultiAgent.Lib.Regex

/-!
# Sanitizing for logs

`sanitize_for_logging` of `libs/contracts/validation.py`, on the dictionaries and lists that the
caller shares with it. A nesting that is deeper than the given depth raises `RecursionError`.

Of a JSON value it makes new objects and leaves the old ones as they are (`run_sanitize`), and
what it returns is the value with redactions : the marker at the keys that are sensitive, and
for the strings with a PII pattern (`redact`).
-/

namespace MultiAgent

namespace LogSanitizer

open ObjectHeap

/-- What `\d` and `\w` stand for, and `str.lower`. The decimal digits of ASCII are the usual
ones. -/
structure Unicode where
  isDecimal : Char → Bool
  isWord : Char → Bool
  lower : String → String
  isDecimal_ascii : ∀ c : Char, c.toNat < 128 → isDecimal c = c.isDigit

variable (u : Unicode)

/-! ## PII patterns -/

/-- `\d{n}` -/
def digits (n : ℕ) : Regex Char :=
  .exactly (.char u.isDecimal) n

/-- `[\s-]?` -/
def separator : Regex Char :=
  .optional (.char fun c => PyValue.isSpace c || c = '-')

/-- A character and nothing else. -/
def literal (c : Char) : Regex Char :=
  .char fun c' => c' = c

/-- A letter or digit of ASCII, or one of the others. -/
def oneOf (others : String) : Regex Char :=
  .char fun c => c.isAlphanum || others.toList.contains c

/-- An expression between two `\b`. -/
def bounded (r : Regex Char) : Regex Char :=
  .chain (.boundary u.isWord) [r, .boundary u.isWord]

/-- `pii_patterns`. -/
def piiPatterns : List (Regex Char) :=
  [bounded u (.chain (digits u 3) [literal '-', digits u 2, literal '-', digits u 4]),
    bounded u (.chain (digits u 4)
      [separator, digits u 4, separator, digits u 4, separator, digits u 4]),
    bounded u (.chain (digits u 3) [separator, digits u 3, separator, digits u 4]),
    bounded u (.chain (.times (oneOf "._%+-") 1 none)
      [literal '@', .times (oneOf ".-") 1 none, literal '.',
        .times (.char fun c => c.isAlpha || c = '|') 2 none])]

/-- `_contains_pii`. -/
def containsPii (text : String) : Bool :=
  (piiPatterns u).any fun pattern => Regex.search text.toList pattern

/-! ## Sanitizing -/

/-- The default of `sensitive_fields`. -/
def defaultSensitiveFields : List String :=
  ["password", "token", "secret", "key", "auth", "credential", "ssn", "credit_card", "phone",
    "email", "address"]

/-- `_is_sensitive_field`. -/
def isSensitiveField (sensitiveFields : List String) (fieldName : String) : Bool :=
  sensitiveFields.any fun sensitive => decide (sensitive.toList <:+: (u.lower fieldName).toList)

/-- What takes the place of sensitive data. -/
def marker : PyValue :=
  .str "[REDACTED]"

/-- An item of the dictionary that `sanitize_for_logging` returns. -/
def sanitizeItem (sensitiveFields : List String) (recur : Val → Mem Val) (item : PyKey × Val) :
    Mem (PyKey × Val) :=
  match item.1 with
  | .str key => do
    if isSensitiveField u sensitiveFields key then
      pure (item.1, .atom marker)
    else
      let value ← recur item.2
      pure (item.1, value)
  | _ => raise (.error (.attributeError "lower"))

/-- `sanitize_for_logging`, with room for so many nested calls. -/
def sanitizeForLogging (sensitiveFields : Option (List String)) : ℕ → Val → Mem Val
  | 0, _ => raise (.error .recursionError)
  | depth + 1, data => do
    let names := sensitiveFields.getD defaultSensitiveFields
    match ← look data with
    | .dict d =>
      let items ← each (sanitizeItem u names (sanitizeForLogging (some names) depth)) d
      alloc (.dict (items.foldl (fun sanitized p => Dict.setItem p.1 p.2 sanitized) []))
    | .list l =>
      let items ← each (sanitizeForLogging (some names) depth) l
      alloc (.list items)
    | .scalar (.str s) => pure (if containsPii u s then .atom marker else data)
    | .scalar _ => pure data

/-! ## Values with redactions -/

section

variable (sensitive pii : String → Bool)

/-- The key is a string that is sensitive. -/
def sensitiveKey : PyKey → Bool
  | .str key => sensitive key
  | .none | .num _ => false

mutual

/-- The value with the marker at the sensitive keys and for the strings with PII. -/
def redact : PyValue → PyValue
  | .obj d => .obj (redactItems d)
  | .arr l => .arr (redactList l)
  | .str s => if pii s then marker else .str s
  | .null => .null
  | .bool b => .bool b
  | .int i => .int i
  | .float q => .float q
termination_by structural v => v

/-- The elements of a list. -/
def redactList : List PyValue → List PyValue
  | [] => []
  | v :: l => redact v :: redactList l
termination_by structural l => l

/-- The items of a dictionary. -/
def redactItems : Items → Items
  | [] => []
  | (k, v) :: d => (k, if sensitiveKey sensitive k then marker else redact v) :: redactItems d
termination_by structural d => d

end

theorem map_fst_redactItems (d : Items) :
    (redactItems sensitive pii d).map Prod.fst = d.map Prod.fst := by
  induction d with
  | nil => rfl
  | cons p d ih => exact congrArg (p.1 :: ·) ih

end

mutual

/-- The value is one that JSON has : the keys of a dictionary are strings, each of them once. -/
def IsJson : PyValue → Prop
  | .obj d => (d.map Prod.fst).Nodup ∧ IsJsonItems d
  | .arr l => IsJsonList l
  | .null | .bool _ | .int _ | .float _ | .str _ => True
termination_by structural v => v

/-- So are the elements of a list. -/
def IsJsonList : List PyValue → Prop
  | [] => True
  | v :: l => IsJson v ∧ IsJsonList l
termination_by structural l => l

/-- So are the values of a dictionary, and its keys are strings. -/
def IsJsonItems : Items → Prop
  | [] => True
  | (k, v) :: d => (∃ key, k = .str key) ∧ IsJson v ∧ IsJsonItems d
termination_by structural d => d

end

/-- A JSON value. -/
structure JsonValue where
  value : PyValue
  isJson : IsJson value

mutual

/-- How many calls are nested for the value. -/
def nesting : PyValue → ℕ
  | .obj d => nestingItems d + 1
  | .arr l => nestingList l + 1
  | .null | .bool _ | .int _ | .float _ | .str _ => 1
termination_by structural v => v

/-- How many for the elements of a list. -/
def nestingList : List PyValue → ℕ
  | [] => 0
  | v :: l => max (nesting v) (nestingList l)
termination_by structural l => l

/-- How many for the items of a dictionary. -/
def nestingItems : Items → ℕ
  | [] => 0
  | (_, v) :: d => max (nesting v) (nestingItems d)
termination_by structural d => d

end

/-! ## What a run does -/

variable {u} {names : List String} {fields : Option (List String)} {h : Heap}

/-- The names that are used. -/
theorem sanitizeForLogging_some (fields : Option (List String)) (depth : ℕ) :
    sanitizeForLogging u (some (fields.getD defaultSensitiveFields)) depth =
      sanitizeForLogging u fields depth := by
  cases depth <;> rfl

/-- A call looks at its value first. -/
theorem sanitizeForLogging_apply (fields : Option (List String)) (depth : ℕ) (data : Val) :
    sanitizeForLogging u fields (depth + 1) data h =
      (match view h data with
        | .dict d => do
          let items ← each (sanitizeItem u (fields.getD defaultSensitiveFields)
            (sanitizeForLogging u fields depth)) d
          alloc (.dict (items.foldl (fun sanitized p => Dict.setItem p.1 p.2 sanitized) []))
        | .list l => do
          let items ← each (sanitizeForLogging u fields depth) l
          alloc (.list items)
        | .scalar (.str s) => pure (if containsPii u s then .atom marker else data)
        | .scalar _ => pure data : Mem Val) h := by
  rw [← sanitizeForLogging_some fields depth]
  rfl

/-- The value is a new one that denotes the document, and the old objects are as they were. -/
def Makes (x : Mem Val) (h : Heap) (out : PyValue) : Prop :=
  ∃ w g, x h = (.ok w, g) ∧ h <+: g ∧ Denotes g w out

theorem each_cons_apply {α β : Type} {f : α → Mem β} {a : α} {l : List α} {b : β} {bs : List β}
    {g k : Heap} (ha : f a h = (.ok b, g)) (hl : each f l g = (.ok bs, k)) :
    each f (a :: l) h = (.ok (b :: bs), k) := by
  rw [each, bind_apply, ha]
  dsimp only
  rw [bind_apply, hl]
  rfl

/-- A value that is no container and no string is returned. -/
theorem makes_scalar {x : PyValue} {depth : ℕ} (hdepth : 1 ≤ depth)
    (hrun : ∀ n, sanitizeForLogging u fields (n + 1) (.atom x) h = (.ok (.atom x), h)) :
    Makes (sanitizeForLogging u fields depth (.atom x)) h x := by
  obtain ⟨n, rfl⟩ := Nat.exists_eq_add_of_le' hdepth
  exact ⟨.atom x, h, hrun n, List.prefix_refl h, denotes_atom h x⟩

mutual

/-- What `sanitize_for_logging` returns for a JSON value. -/
theorem makes_redact : ∀ {x : PyValue}, IsJson x → ∀ {depth : ℕ}, nesting x ≤ depth →
    ∀ {h : Heap} {v : Val}, Denotes h v x → Makes (sanitizeForLogging u fields depth v) h
      (redact (isSensitiveField u (fields.getD defaultSensitiveFields)) (containsPii u) x)
  | .obj d, hx, depth, hdepth, h, v, hv => by
    obtain ⟨n, rfl⟩ := Nat.exists_eq_add_of_le' (Nat.one_le_of_lt hdepth)
    obtain ⟨vs, hview, hvs⟩ := exists_view hv
    obtain ⟨ws, g, hrun, hgrown, hws⟩ :=
      makes_redactItems hx.2 (Nat.le_of_succ_le_succ hdepth) hvs
    have hnodup : ((([] : Fields) ++ ws).map Prod.fst).Nodup := by
      rw [List.nil_append, hws.map_fst, map_fst_redactItems]
      exact hx.1
    refine ⟨.ref g.length, g ++ [.dict ws], ?_, hgrown.trans (List.prefix_append _ _),
      denotes_alloc hws⟩
    rw [sanitizeForLogging_apply, hview]
    dsimp only
    rw [bind_apply, hrun]
    dsimp only
    rw [Dict.foldl_setItem_of_nodup hnodup]
    rfl
  | .arr l, hx, depth, hdepth, h, v, hv => by
    obtain ⟨n, rfl⟩ := Nat.exists_eq_add_of_le' (Nat.one_le_of_lt hdepth)
    obtain ⟨vs, hview, hvs⟩ := exists_view_list hv
    obtain ⟨ws, g, hrun, hgrown, hws⟩ := makes_redactList hx (Nat.le_of_succ_le_succ hdepth) hvs
    refine ⟨.ref g.length, g ++ [.list ws], ?_, hgrown.trans (List.prefix_append _ _),
      denotes_alloc_list hws⟩
    rw [sanitizeForLogging_apply, hview]
    dsimp only
    rw [bind_apply, hrun]
    rfl
  | .str s, hx, depth, hdepth, h, v, hv => by
    obtain ⟨n, rfl⟩ := Nat.exists_eq_add_of_le' hdepth
    obtain rfl : v = .atom (.str s) := hv
    refine ⟨_, h, sanitizeForLogging_apply fields n _, List.prefix_refl h, ?_⟩
    rw [redact]
    split_ifs
    · exact denotes_atom h marker
    · exact denotes_atom h (.str s)
  | .null, hx, depth, hdepth, h, v, hv => by
    obtain rfl : v = .atom .null := hv
    exact makes_scalar hdepth fun n => sanitizeForLogging_apply fields n _
  | .bool b, hx, depth, hdepth, h, v, hv => by
    obtain rfl : v = .atom (.bool b) := hv
    exact makes_scalar hdepth fun n => sanitizeForLogging_apply fields n _
  | .int i, hx, depth, hdepth, h, v, hv => by
    obtain rfl : v = .atom (.int i) := hv
    exact makes_scalar hdepth fun n => sanitizeForLogging_apply fields n _
  | .float q, hx, depth, hdepth, h, v, hv => by
    obtain rfl : v = .atom (.float q) := hv
    exact makes_scalar hdepth fun n => sanitizeForLogging_apply fields n _

theorem makes_redactList : ∀ {l : List PyValue}, IsJsonList l → ∀ {depth : ℕ},
    nestingList l ≤ depth → ∀ {h : Heap} {vs : List Val}, DenotesList h vs l →
      ∃ ws g, each (sanitizeForLogging u fields depth) vs h = (.ok ws, g) ∧ h <+: g ∧
        DenotesList g ws (redactList
          (isSensitiveField u (fields.getD defaultSensitiveFields)) (containsPii u) l)
  | [], _, _, _, h, [], _ => ⟨[], h, rfl, List.prefix_refl h, trivial⟩
  | [], _, _, _, _, _ :: _, hvs => False.elim hvs
  | _ :: _, _, _, _, _, [], hvs => False.elim hvs
  | x :: l, hl, depth, hdepth, h, v :: vs, hvs => by
    obtain ⟨w, g, hrun, hgrown, hw⟩ :=
      makes_redact hl.1 ((Nat.le_max_left _ _).trans hdepth) hvs.1
    obtain ⟨ws, k, hrest, hgrown', hws⟩ :=
      makes_redactList hl.2 ((Nat.le_max_right _ _).trans hdepth) (hvs.2.mono hgrown)
    exact ⟨w :: ws, k, each_cons_apply hrun hrest, hgrown.trans hgrown', hw.mono hgrown', hws⟩

theorem makes_redactItems : ∀ {d : Items}, IsJsonItems d → ∀ {depth : ℕ},
    nestingItems d ≤ depth → ∀ {h : Heap} {vs : Fields}, DenotesFields h vs d →
      ∃ ws g, each (sanitizeItem u (fields.getD defaultSensitiveFields)
          (sanitizeForLogging u fields depth)) vs h = (.ok ws, g) ∧ h <+: g ∧
        DenotesFields g ws (redactItems
          (isSensitiveField u (fields.getD defaultSensitiveFields)) (containsPii u) d)
  | [], _, _, _, h, [], _ => ⟨[], h, rfl, List.prefix_refl h, trivial⟩
  | [], _, _, _, _, _ :: _, hvs => False.elim hvs
  | (_, _) :: _, _, _, _, _, [], hvs => False.elim hvs
  | (k, x) :: d, hd, depth, hdepth, h, (k', v) :: vs, hvs => by
    obtain ⟨⟨key, rfl⟩, hx, hd⟩ := hd
    obtain rfl : k' = .str key := hvs.1
    by_cases hkey : isSensitiveField u (fields.getD defaultSensitiveFields) key = true
    · obtain ⟨ws, g, hrest, hgrown, hws⟩ :=
        makes_redactItems hd ((Nat.le_max_right _ _).trans hdepth) hvs.2.2
      have hitem : sanitizeItem u (fields.getD defaultSensitiveFields)
          (sanitizeForLogging u fields depth) (.str key, v) h =
            (.ok (.str key, .atom marker), h) := by
        unfold sanitizeItem
        dsimp only
        rw [if_pos hkey]
        rfl
      refine ⟨_ :: ws, g, each_cons_apply hitem hrest, hgrown, rfl, ?_, hws⟩
      rw [sensitiveKey, if_pos hkey]
      exact denotes_atom g marker
    · obtain ⟨w, g, hrun, hgrown, hw⟩ :=
        makes_redact hx ((Nat.le_max_left _ _).trans hdepth) hvs.2.1
      obtain ⟨ws, k, hrest, hgrown', hws⟩ :=
        makes_redactItems hd ((Nat.le_max_right _ _).trans hdepth) (hvs.2.2.mono hgrown)
      have hitem : sanitizeItem u (fields.getD defaultSensitiveFields)
          (sanitizeForLogging u fields depth) (.str key, v) h = (.ok (.str key, w), g) := by
        unfold sanitizeItem
        dsimp only
        rw [if_neg hkey, bind_apply, hrun]
        rfl
      refine ⟨_ :: ws, k, each_cons_apply hitem hrest, hgrown.trans hgrown', rfl, ?_, hws⟩
      rw [sensitiveKey, if_neg hkey]
      exact hw.mono hgrown'

end

end LogSanitizer

end MultiAgent
