import Mathlib.Data.String.Basic
import Mathlib.Logic.Embedding.Basic
import MultiAgent.Lib.PythonFormats

/-!
# What the idempotency keys tell apart

Both idempotency managers hash a text of the parameters. The one of the base adapter sorts the items
of the parameters and hashes their `str`, which has the keys of the values inside in the order in
which they stand; the other hashes a JSON text with all keys sorted. A key is canonical if it is the
same for parameters that are equal as JSON values, and for no others (`Canonical`).

The base adapter's keys are equal exactly if the parameters have the same at every key, with the
same order of keys inside (`baseKey_eq_iff`), the other's exactly if the parameters are equal as
JSON values (`resilienceKey_eq_iff`). So they are canonical as long as no nested order differs
(`generateKey_iff`).
-/

namespace MultiAgent

open PyText (Scalar Literals reprLiterals dumpsLiterals)

namespace IdempotencyKeys

/-- A JSON value. -/
abbrev JsonDocument :=
  Document String Scalar

/-- A dictionary of parameters. -/
structure JsonObject where
  items : Dict String JsonDocument
  valid : ∀ p ∈ items.items, p.2.valid = true

/-- The parameters as a JSON value. -/
def JsonObject.document (p : JsonObject) : JsonDocument :=
  .obj p.items.items

/-- The parameters are equal up to the order of keys, at every depth. -/
def JsonObject.Same (p q : JsonObject) : Prop :=
  p.document.same q.document = true

instance (p q : JsonObject) : Decidable (p.Same q) :=
  inferInstanceAs (Decidable (_ = true))

namespace BaseAdapter

/-- `repr` of an item, which is a pair. -/
def reprItem (L : Literals) (p : String × JsonDocument) : List Char :=
  '(' :: (L.quote p.1 ++ ',' :: ' ' :: (L.format.write p.2 ++ [')']))

/-- `str` of a list of items. -/
def strItems (L : Literals) (l : List (String × JsonDocument)) : List Char :=
  '[' :: (separated [',', ' '] (l.map (reprItem L)) ++ [']'])

/-- Hash the tool id with the sorted parameters. -/
def generateKey (isprintable : Char → Bool) (md5 : String ↪ String) (toolId : String)
    (parameters : JsonObject) : String :=
  let sortedParams := sortItems parameters.items.items
  let paramStr := String.ofList (strItems (reprLiterals isprintable) sortedParams)
  md5 (toolId ++ ":" ++ paramStr)

end BaseAdapter

namespace ToolResilience

/-- What the configuration says about keys. -/
structure IdempotencyConfig where
  redisPrefix : String := "idempotency"
  includeHeaders : Bool := false

/-- The headers as a JSON value. -/
def headerDocument (headers : Dict String String) : JsonDocument :=
  .obj (headers.items.map fun p => (p.1, .leaf (.str p.2)))

/-- What a key is made of. -/
def keyData (config : IdempotencyConfig) (operation : String) (payload : JsonObject)
    (headers : Option (Dict String String)) : Dict String JsonDocument :=
  let keyData : Dict String JsonDocument :=
    ⟨[("operation", .leaf (.str operation)), ("payload", payload.document)], by simp⟩
  match headers with
  | some headers =>
    if config.includeHeaders = true ∧ headers.size ≠ 0 then
      keyData.set "headers" (headerDocument headers)
    else keyData
  | none => keyData

/-- `json.dumps` with sorted keys. -/
def dumpsSorted (d : Dict String JsonDocument) : String :=
  String.ofList (dumpsLiterals.format.write (Document.obj d.items).sortKeys)

/-- Hash the operation with the payload, and the headers if the configuration says so. -/
def generateKey (sha256 : String ↪ String) (config : IdempotencyConfig) (operation : String)
    (payload : JsonObject) (headers : Option (Dict String String)) : String :=
  config.redisPrefix ++ ":" ++ sha256 (dumpsSorted (keyData config operation payload headers))

end ToolResilience

/-- Keys agree on parameters that are equal as JSON values, and differ on all others. -/
def Canonical (key : JsonObject → String) (p q : JsonObject) : Prop :=
  (p.Same q → key p = key q) ∧ (¬p.Same q → key p ≠ key q)

theorem canonical_iff {key : JsonObject → String} {p q : JsonObject} :
    Canonical key p q ↔ (key p = key q ↔ p.Same q) := by
  unfold Canonical
  tauto

/-! ## Parameters -/

theorem JsonObject.valid_document (p : JsonObject) : p.document.valid = true := by
  unfold document
  rw [Document.valid, Bool.and_eq_true, decide_eq_true_iff]
  exact ⟨p.items.nodup, Document.validFields_iff.mpr p.valid⟩

theorem JsonObject.same_iff {p q : JsonObject} :
    p.Same q ↔ p.document.sortKeys = q.document.sortKeys :=
  (Document.sortKeys_eq_iff p.valid_document q.valid_document).symm

/-- Parameters with the same at every key are equal as JSON values. -/
theorem JsonObject.same_of_get? {p q : JsonObject} (h : ∀ k, p.items.get? k = q.items.get? k) :
    p.Same q := by
  rw [same_iff]
  unfold document
  rw [Document.sortKeys, Document.sortKeys, Document.obj.injEq,
    Document.sortItems_sortFields_eq_iff p.items.nodup q.items.nodup]
  exact fun k => congrArg (Option.map Document.sortKeys) (h k)

/-! ## The base adapter -/

namespace BaseAdapter

variable {L : Literals}

theorem reprItem_readsAt (p : String × JsonDocument) : ReadsAt isDelimiter (reprItem L) p := by
  intro q s t hs ht heq
  unfold reprItem at heq
  simp only [List.cons_append, List.append_assoc, List.nil_append] at heq
  obtain ⟨hkey, hrest⟩ := L.quote_prefixCode _ _ _ _ (List.cons.inj heq).2
  obtain ⟨hvalue, hst⟩ := Format.write_readsAt p.2 q.2 _ _ (delimited_cons rfl s)
    (delimited_cons rfl t) (List.cons.inj (List.cons.inj hrest).2).2
  exact ⟨Prod.ext hkey hvalue, (List.cons.inj hst).2⟩

theorem reprItem_ne_close (p : String × JsonDocument) (s t : List Char) :
    reprItem L p ++ s ≠ ']' :: t :=
  fun heq => by cases (List.cons.inj heq).1

theorem strItems_injective : Function.Injective (strItems L) := by
  intro l m heq
  unfold strItems at heq
  exact (separated_inj rfl rfl (by decide) reprItem_ne_close
    (fun p _ => reprItem_readsAt p) (List.cons.inj heq).2).1

/-- The keys are equal exactly if the parameters have the same at every key. -/
theorem baseKey_eq_iff (isprintable : Char → Bool) (md5 : String ↪ String) (toolId : String)
    (p q : JsonObject) :
    generateKey isprintable md5 toolId p = generateKey isprintable md5 toolId q ↔
      ∀ k, p.items.get? k = q.items.get? k := by
  unfold generateKey
  rw [md5.injective.eq_iff, String.append_right_inj, String.ofList_inj, strItems_injective.eq_iff,
    sortItems_eq_iff]

end BaseAdapter

/-! ## The tool adapter of the resilience library -/

namespace ToolResilience

theorem get?_keyData_payload (config : IdempotencyConfig) (operation : String)
    (payload : JsonObject) (headers : Option (Dict String String)) :
    (keyData config operation payload headers).get? "payload" = some payload.document := by
  unfold keyData
  cases headers with
  | none => rfl
  | some headers =>
    dsimp only
    split_ifs
    · rw [Dict.get?_set_ne _ _ (by decide)]
      rfl
    · rfl

/-- The payloads come in at one key only. -/
theorem get?_keyData_ne (config : IdempotencyConfig) (operation : String) (p q : JsonObject)
    (headers : Option (Dict String String)) {k : String} (hk : k ≠ "payload") :
    (keyData config operation p headers).get? k = (keyData config operation q headers).get? k := by
  have hbase : ∀ (v w : JsonDocument) (hv hw),
      (⟨[("operation", .leaf (.str operation)), ("payload", v)], hv⟩ :
        Dict String JsonDocument).get? k =
      (⟨[("operation", .leaf (.str operation)), ("payload", w)], hw⟩ :
        Dict String JsonDocument).get? k := by
    intro v w hv hw
    unfold Dict.get?
    simp only [List.lookup_cons, beq_eq_false_iff_ne.mpr hk]
  unfold keyData
  cases headers with
  | none => exact hbase _ _ _ _
  | some headers =>
    dsimp only
    split_ifs
    · rw [Dict.get?_set, Dict.get?_set, hbase]
    · exact hbase _ _ _ _

theorem dumpsSorted_eq_iff (d e : Dict String JsonDocument) :
    dumpsSorted d = dumpsSorted e ↔
      ∀ k, (d.get? k).map Document.sortKeys = (e.get? k).map Document.sortKeys := by
  unfold dumpsSorted
  rw [String.ofList_inj, Format.write_injective.eq_iff, Document.sortKeys, Document.sortKeys,
    Document.obj.injEq, Document.sortItems_sortFields_eq_iff d.nodup e.nodup]
  rfl

/-- The keys are equal exactly if the payloads are equal as JSON values. -/
theorem resilienceKey_eq_iff (sha256 : String ↪ String) (config : IdempotencyConfig)
    (operation : String) (p q : JsonObject) (headers : Option (Dict String String)) :
    generateKey sha256 config operation p headers = generateKey sha256 config operation q headers ↔
      p.Same q := by
  unfold generateKey
  rw [String.append_right_inj, sha256.injective.eq_iff, dumpsSorted_eq_iff, JsonObject.same_iff]
  constructor
  · intro h
    have hpayload := h "payload"
    rw [get?_keyData_payload, get?_keyData_payload] at hpayload
    exact Option.some.inj hpayload
  · intro h k
    by_cases hk : k = "payload"
    · rw [hk, get?_keyData_payload, get?_keyData_payload, Option.map_some, Option.map_some, h]
    · rw [get?_keyData_ne config operation p q headers hk]

end ToolResilience

/-! ## Canonical keys -/

/-- Both keys are canonical exactly if the parameters differ as JSON values, or have the same at
every key with the same order of keys inside. -/
theorem generateKey_iff (isprintable : Char → Bool) (md5 sha256 : String ↪ String)
    (toolId operation : String) (config : ToolResilience.IdempotencyConfig)
    (headers : Option (Dict String String)) (p q : JsonObject) :
    (Canonical (BaseAdapter.generateKey isprintable md5 toolId) p q ∧
        Canonical (ToolResilience.generateKey sha256 config operation · headers) p q) ↔
      (p.Same q → ∀ k, p.items.get? k = q.items.get? k) := by
  have hresilience :
      Canonical (ToolResilience.generateKey sha256 config operation · headers) p q :=
    canonical_iff.mpr (ToolResilience.resilienceKey_eq_iff sha256 config operation p q headers)
  rw [and_iff_left hresilience, canonical_iff, BaseAdapter.baseKey_eq_iff]
  exact ⟨fun h => h.mpr, fun h => ⟨JsonObject.same_of_get?, h⟩⟩

/-- The parameter `a`, with keys in this order. -/
def nested (x y : String) (i j : ℤ) (hne : x ≠ y) : JsonObject where
  items := ⟨[("a", .obj [(x, .leaf (.int i)), (y, .leaf (.int j))])], by simp⟩
  valid := by simp [Document.valid, Document.validFields, hne]

/-- The order of the keys of a nested dictionary changes the key of the base adapter. -/
theorem not_generateKey : ¬∀ (isprintable : Char → Bool) (md5 : String ↪ String)
    (toolId : String) (p q : JsonObject),
      Canonical (BaseAdapter.generateKey isprintable md5 toolId) p q := by
  intro h
  have hcanonical := h (fun _ => true) (Function.Embedding.refl String) "t"
    (nested "x" "y" 1 2 (by decide)) (nested "y" "x" 2 1 (by decide))
  rw [canonical_iff, BaseAdapter.baseKey_eq_iff] at hcanonical
  have hvalue := hcanonical.mpr (by decide) "a"
  simp [nested, Dict.get?] at hvalue

end IdempotencyKeys

end MultiAgent
