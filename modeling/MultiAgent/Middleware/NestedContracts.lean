import MultiAgent.Middleware.ContractValidation

/-!
# Contracts with nested models

`validate_contract` of `libs/contracts/validation.py` for classes whose fields may be models
themselves, or lists and dictionaries of models. The data may be a value, a text or bytes.

The strict checks go through the strings, dictionaries and lists of the fields of the instance.
A nested model is none of these (`opened`), and the fields that a class allows beside its own
are not in `__dict__`. An instance that is returned contains no markdown-JSON exactly if none
stands in those parts, or if some stands outside of them as well, so that the input is rejected
(`guards_iff`).
-/

namespace MultiAgent

namespace NestedContracts

open Json (Key Value)
open Contracts (LoadsError ModelError ContractValidationError containsMarkdownJson unexpected)

/-- A value that is given to a contract, or that stands in a field. A `model` has its own fields
and those that its class allows beside them, an `object` is of any other type. -/
inductive FieldValue
  | null
  | bool (b : Bool)
  | int (i : ℤ)
  | float (q : ℚ)
  | str (s : String)
  | bytes (b : List UInt8)
  | list (l : List FieldValue)
  | dict (d : List (Key × FieldValue))
  | model (fields extra : List (String × FieldValue))
  | object (id : ℕ)

namespace FieldValue

mutual

/-- What `json.loads` returns, as a value. -/
def ofValue : Value → FieldValue
  | .null => .null
  | .bool b => .bool b
  | .int i => .int i
  | .float q => .float q
  | .str s => .str s
  | .list l => .list (ofList l)
  | .dict d => .dict (ofItems d)
  | .tuple _ => .object 0
  | .object id _ => .object id
termination_by structural v => v

/-- The elements of a list. -/
def ofList : List Value → List FieldValue
  | [] => []
  | v :: l => ofValue v :: ofList l
termination_by structural l => l

/-- The items of a dictionary. -/
def ofItems : List (Key × Value) → List (Key × FieldValue)
  | [] => []
  | (k, v) :: d => (k, ofValue v) :: ofItems d
termination_by structural d => d

end

mutual

/-- What the strict checks see of a value : a nested model is a value of another type. -/
def opened : FieldValue → Value
  | .null => .null
  | .bool b => .bool b
  | .int i => .int i
  | .float q => .float q
  | .str s => .str s
  | .bytes _ => .object 0 true
  | .list l => .list (openedList l)
  | .dict d => .dict (openedItems d)
  | .model _ _ => .object 0 true
  | .object id => .object id true
termination_by structural v => v

/-- The elements of a list. -/
def openedList : List FieldValue → List Value
  | [] => []
  | v :: l => v.opened :: openedList l
termination_by structural l => l

/-- The items of a dictionary. -/
def openedItems : List (Key × FieldValue) → List (Key × Value)
  | [] => []
  | (k, v) :: d => (k, v.opened) :: openedItems d
termination_by structural d => d

end

mutual

/-- The strings in a value, in nested models too. -/
def strings : FieldValue → List String
  | .str s => [s]
  | .list l => stringsOfList l
  | .dict d => stringsOfItems d
  | .model fields extra => stringsOfFields fields ++ stringsOfFields extra
  | .null | .bool _ | .int _ | .float _ | .bytes _ | .object _ => []
termination_by structural v => v

/-- The strings in a list. -/
def stringsOfList : List FieldValue → List String
  | [] => []
  | v :: l => v.strings ++ stringsOfList l
termination_by structural l => l

/-- The strings in the values of a dictionary. -/
def stringsOfItems : List (Key × FieldValue) → List String
  | [] => []
  | (_, v) :: d => v.strings ++ stringsOfItems d
termination_by structural d => d

/-- The strings in the fields of a model. -/
def stringsOfFields : List (String × FieldValue) → List String
  | [] => []
  | (_, v) :: fields => v.strings ++ stringsOfFields fields
termination_by structural fields => fields

end

end FieldValue

/-! ## Instances -/

/-- An instance of a contract : its `__dict__`, and its `__pydantic_extra__`. -/
structure Instance where
  fields : List (String × FieldValue)
  extra : List (String × FieldValue)

/-- The strings in an instance. -/
def Instance.strings (inst : Instance) : List String :=
  FieldValue.strings (.model inst.fields inst.extra)

/-- The fields that the strict checks go through, as they see them. -/
def Instance.opened (inst : Instance) : Contracts.Instance :=
  inst.fields.map fun field => (field.1, field.2.opened)

/-- The strings that the strict checks see. -/
def Instance.openStrings (inst : Instance) : List String :=
  inst.opened.flatMap fun field => Contracts.strings field.2

/-- A class of contracts, whose instances may have models in their fields. -/
structure ContractClass where
  name : String
  construct : List (Key × FieldValue) → Except ModelError Instance
  modelValidate : FieldValue → Except ModelError Instance

/-- `json.loads` of a text, and of bytes. -/
structure Runtime extends Contracts.Runtime where
  loadsBytes : List UInt8 → Except LoadsError Value

/-- The data, read as JSON if it is a text or bytes. -/
def parsed (rt : Runtime) : FieldValue → Except LoadsError FieldValue
  | .str s => (rt.loads s).map FieldValue.ofValue
  | .bytes b => (rt.loadsBytes b).map FieldValue.ofValue
  | data => .ok data

/-- The instance that a class makes of parsed data. -/
def ContractClass.instanceOf (contract : ContractClass) : FieldValue → Except ModelError Instance
  | .dict d => contract.construct d
  | data => contract.modelValidate data

/-- `validate_contract`. Nothing depends on `forbid_extra`. -/
def validateContract (rt : Runtime) (contract : ContractClass) (strict : Bool)
    (data : FieldValue) : Except ContractValidationError Instance :=
  match parsed rt data with
  | .error (.decodeError text) => .error (unexpected ("Invalid JSON: " ++ text))
  | .error (.other text) => .error (unexpected text)
  | .ok data =>
    match contract.instanceOf data with
    | .error (.validation errors) =>
      .error { message := "Contract validation failed for " ++ contract.name, errors }
    | .error (.other text) => .error (unexpected text)
    | .ok inst =>
      if strict then
        match Contracts.validateStrictMode rt.toRuntime inst.opened with
        | none => .ok inst
        | some error => .error (unexpected error)
      else .ok inst

/-! ## What the strict mode asks for -/

/-- Some of the strings contain markdown-JSON. -/
def SomeMarkdown (rt : Runtime) (l : List String) : Prop :=
  ∃ s ∈ l, containsMarkdownJson rt.toRuntime s = true

/-- No instance that the strict mode returns contains markdown-JSON, and if it rejects an input
that is valid otherwise, then the input does. -/
structure Guards (rt : Runtime) (contract : ContractClass) (data : FieldValue) : Prop where
  sound : ∀ {inst}, validateContract rt contract true data = .ok inst →
    ¬SomeMarkdown rt inst.strings
  cause : ∀ {inst error v}, validateContract rt contract false data = .ok inst →
    validateContract rt contract true data = .error error → parsed rt data = .ok v →
      SomeMarkdown rt v.strings

/-- If the class makes an instance of the data, then either no string in it contains
markdown-JSON, or one that the strict checks see does, and so does a string of the data. -/
def Foreseen (rt : Runtime) (contract : ContractClass) (data : FieldValue) : Prop :=
  ∀ {v inst}, parsed rt data = .ok v → contract.instanceOf v = .ok inst →
    ¬SomeMarkdown rt inst.strings ∨
      SomeMarkdown rt inst.openStrings ∧ SomeMarkdown rt v.strings

namespace FieldValue

mutual

/-- What the strict checks see is in the value. -/
theorem mem_strings_of_opened {s : String} :
    ∀ {v : FieldValue}, s ∈ Contracts.strings v.opened → s ∈ v.strings
  | .str _, h => h
  | .list l, h => mem_stringsOfList_of_opened (l := l) h
  | .dict d, h => mem_stringsOfItems_of_opened (d := d) h
  | .model _ _, h => absurd h List.not_mem_nil
  | .bytes _, h => h
  | .null, h => h
  | .bool _, h => h
  | .int _, h => h
  | .float _, h => h
  | .object _, h => h

theorem mem_stringsOfList_of_opened {s : String} : ∀ {l : List FieldValue},
    s ∈ Contracts.stringsOfList (openedList l) → s ∈ stringsOfList l
  | [], h => h
  | v :: l, h => by
    rw [openedList, Contracts.stringsOfList, List.mem_append] at h
    rw [stringsOfList, List.mem_append]
    exact h.imp mem_strings_of_opened mem_stringsOfList_of_opened

theorem mem_stringsOfItems_of_opened {s : String} : ∀ {d : List (Key × FieldValue)},
    s ∈ Contracts.stringsOfItems (openedItems d) → s ∈ stringsOfItems d
  | [], h => h
  | (_, v) :: d, h => by
    rw [openedItems, Contracts.stringsOfItems, List.mem_append] at h
    rw [stringsOfItems, List.mem_append]
    exact h.imp mem_strings_of_opened mem_stringsOfItems_of_opened

end

theorem mem_stringsOfFields {s : String} {fields : List (String × FieldValue)} :
    s ∈ stringsOfFields fields ↔ ∃ field ∈ fields, s ∈ field.2.strings := by
  induction fields with
  | nil => simp [stringsOfFields]
  | cons field fields ih => simp [stringsOfFields, ih]

end FieldValue

variable {rt : Runtime} {contract : ContractClass} {data v : FieldValue} {inst : Instance}

theorem mem_strings_of_openStrings {s : String} (h : s ∈ inst.openStrings) :
    s ∈ inst.strings := by
  obtain ⟨_, hmem, hs⟩ := List.mem_flatMap.mp h
  obtain ⟨field, hfield, rfl⟩ := List.mem_map.mp hmem
  refine List.mem_append_left _ (FieldValue.mem_stringsOfFields.mpr ⟨field, hfield, ?_⟩)
  exact FieldValue.mem_strings_of_opened hs

/-- The strict checks pass an instance exactly if they see no markdown-JSON. -/
theorem validateStrictMode_opened_iff :
    Contracts.validateStrictMode rt.toRuntime inst.opened = none ↔
      ¬SomeMarkdown rt inst.openStrings := by
  rw [Contracts.validateStrictMode_eq_none_iff]
  simp only [SomeMarkdown, Instance.openStrings, List.mem_flatMap]
  constructor
  · rintro h ⟨s, ⟨field, hfield, hs⟩, hmark⟩
    exact absurd hmark (by simp [h field hfield s hs])
  · intro h field hfield s hs
    exact Bool.eq_false_iff.mpr fun hmark => h ⟨s, ⟨field, hfield, hs⟩, hmark⟩

/-- Without the strict mode an input is accepted if the class makes an instance of it. -/
theorem validateContract_false_ok_iff : validateContract rt contract false data = .ok inst ↔
    ∃ v, parsed rt data = .ok v ∧ contract.instanceOf v = .ok inst := by
  unfold validateContract
  cases parsed rt data with
  | error e => cases e <;> simp
  | ok v =>
    cases hinst : contract.instanceOf v with
    | error e => cases e <;> simp [hinst]
    | ok inst => simp [hinst]

/-- The strict mode asks that its checks see no markdown-JSON. -/
theorem validateContract_true_ok_iff : validateContract rt contract true data = .ok inst ↔
    validateContract rt contract false data = .ok inst ∧ ¬SomeMarkdown rt inst.openStrings := by
  rw [validateContract_false_ok_iff, ← validateStrictMode_opened_iff]
  unfold validateContract
  cases parsed rt data with
  | error e => cases e <;> simp
  | ok v =>
    cases hinst : contract.instanceOf v with
    | error e => cases e <;> simp [hinst]
    | ok made =>
      cases hstrict : Contracts.validateStrictMode rt.toRuntime made.opened with
      | none =>
        simp only [if_true, hstrict, Except.ok.injEq, exists_eq_left', hinst]
        constructor
        · rintro rfl
          exact ⟨rfl, hstrict⟩
        · exact And.left
      | some error =>
        simp only [if_true, hstrict, Except.ok.injEq, exists_eq_left', hinst]
        constructor
        · exact fun h => absurd h (by simp)
        · rintro ⟨rfl, hnone⟩
          exact absurd (hstrict.symm.trans hnone) (by simp)

/-- The strict mode keeps markdown-JSON out, and rejects for no other reason, exactly if no
markdown-JSON stands only in nested models or extra fields, and none is made up by the class. -/
theorem guards_iff : Guards rt contract data ↔ Foreseen rt contract data := by
  constructor
  · intro h v inst hv hinst
    have hfree : validateContract rt contract false data = .ok inst :=
      validateContract_false_ok_iff.2 ⟨v, hv, hinst⟩
    by_cases hopen : SomeMarkdown rt inst.openStrings
    · right
      refine ⟨hopen, ?_⟩
      cases hstrict : validateContract rt contract true data with
      | error e => exact h.cause hfree hstrict hv
      | ok made =>
        obtain ⟨hmade, hclean⟩ := validateContract_true_ok_iff.1 hstrict
        obtain rfl : inst = made := Except.ok.inj (hfree.symm.trans hmade)
        exact absurd hopen hclean
    · exact Or.inl (h.sound (validateContract_true_ok_iff.2 ⟨hfree, hopen⟩))
  · intro h
    refine ⟨fun {inst} hstrict => ?_, fun {inst error v} hfree hstrict hv => ?_⟩
    · obtain ⟨hfree, hclean⟩ := validateContract_true_ok_iff.1 hstrict
      obtain ⟨v, hv, hinst⟩ := validateContract_false_ok_iff.1 hfree
      exact (h hv hinst).elim id fun hopen => absurd hopen.1 hclean
    · obtain ⟨w, hw, hinst⟩ := validateContract_false_ok_iff.1 hfree
      obtain rfl : v = w := Except.ok.inj (hv.symm.trans hw)
      refine (h hv hinst).elim (fun hnone => ?_) And.right
      have hclean : ¬SomeMarkdown rt inst.openStrings := fun ⟨s, hs, hmark⟩ =>
        hnone ⟨s, mem_strings_of_openStrings hs, hmark⟩
      have hok := validateContract_true_ok_iff.2 ⟨hfree, hclean⟩
      exact absurd (hstrict.symm.trans hok) (by simp)

/-! ## A request with a message -/

/-- The value of a key. -/
def field (d : List (Key × FieldValue)) (name : String) : Option FieldValue :=
  d.lookup (.str name)

/-- `MessageSpec` of `libs/contracts/agent.py`, for a tenant and a content. -/
def messageSpec (d : List (Key × FieldValue)) : Except ModelError FieldValue :=
  match field d "tenant_id", field d "content" with
  | some (.str _), some (.str content) =>
    .ok (.model [("id", .object 1), ("tenant_id", .object 2), ("user_id", .null),
      ("session_id", .null), ("content", .str content), ("message_type", .str "user"),
      ("timestamp", .object 3), ("metadata", .dict [])] [])
  | _, _ => .error (.validation [])

/-- `AgentRequest`, for a message and an agent. -/
def agentRequest : ContractClass where
  name := "AgentRequest"
  construct d :=
    match field d "message", field d "agent_id" with
    | some (.dict message), some (.str _) =>
      (messageSpec message).map fun message =>
        { fields := [("message", message), ("agent_id", .object 4), ("workflow_id", .null),
            ("context", .dict []), ("idempotency_key", .null)]
          extra := [] }
    | _, _ => .error (.validation [])
  modelValidate _ := .error (.validation [])

/-- A request whose content is JSON in a code block. -/
def markdownRequest : FieldValue :=
  .dict [(.str "message", .dict
      [(.str "tenant_id", .str "3f2b8c1e-7a54-4d0e-9c1b-2f6a5d8e9b10"),
        (.str "content", .str "```\x7b\x7d```")]),
    (.str "agent_id", .str "9d1c4b7a-0e35-4f8d-8a2c-6b3e7f5d1c20")]

/-- The instance of it. -/
def markdownInstance : Instance where
  fields :=
    [("message", .model [("id", .object 1), ("tenant_id", .object 2), ("user_id", .null),
        ("session_id", .null), ("content", .str "```\x7b\x7d```"),
        ("message_type", .str "user"), ("timestamp", .object 3), ("metadata", .dict [])] []),
      ("agent_id", .object 4), ("workflow_id", .null), ("context", .dict []),
      ("idempotency_key", .null)]
  extra := []

/-- Nothing is read as JSON. -/
def asciiRuntime : Runtime where
  loads text := .error (.other text)
  isWord c := c.isAlphanum || c = '_'
  loadsBytes _ := .error (.other "")

theorem containsMarkdownJson_block :
    containsMarkdownJson asciiRuntime.toRuntime "```\x7b\x7d```" = true := by
  refine List.any_eq_true.mpr ⟨_, List.mem_cons_of_mem _ List.mem_cons_self, ?_⟩
  refine List.any_eq_true.mpr ⟨_, (List.mem_tails _ _).mpr (List.suffix_refl _), ?_⟩
  simp [Contracts.literal, Contracts.matchesAt, Contracts.spaces, Contracts.braces]

/-- The message is not looked into : the request is accepted with the block in it. -/
theorem not_guards : ¬Guards asciiRuntime agentRequest markdownRequest := by
  intro h
  have hok : validateContract asciiRuntime agentRequest true markdownRequest
      = .ok markdownInstance := rfl
  refine h.sound hok ⟨"```\x7b\x7d```", ?_, containsMarkdownJson_block⟩
  simp [markdownInstance, Instance.strings, FieldValue.strings, FieldValue.stringsOfFields]

end NestedContracts

end MultiAgent
