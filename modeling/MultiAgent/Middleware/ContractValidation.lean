import MultiAgent.Lib.Json
import MultiAgent.Lib.PyValue

/-!
# Contract validation

`validate_contract` of `libs/contracts/validation.py` with the strict checks. What a contract
class makes of its data is given by the class, and what `json.loads` makes of a text by
`Runtime`, with the word characters of `re`.

A value meets a contract if the class makes an instance of it, and no string in the fields of
the instance contains markdown-JSON (`Meets`). The strict checks find the first such string
(`markdownIn_eq_none_iff`), so `validate_contract` returns an instance exactly if the value
meets the contract, but for a string : it is read as JSON first (`validateContract_isOk_iff`).
-/

namespace MultiAgent

namespace Contracts

open Json (Key Value)

/-- An exception of `json.loads`. -/
inductive LoadsError
  | decodeError (text : String)
  | other (text : String)

/-- `json.loads` of a text, and the word characters. -/
structure Runtime where
  loads : String → Except LoadsError Value
  isWord : Char → Bool

/-! ## Markdown-JSON -/

/-- A part of a pattern : one character of a class, or any number of them. -/
inductive Piece
  | one (p : Char → Bool)
  | many (p : Char → Bool)

/-- The pattern matches at the start of the text. -/
def matchesAt : List Piece → List Char → Bool
  | [], _ => true
  | .one _ :: _, [] => false
  | .one p :: ps, c :: cs => p c && matchesAt ps cs
  | .many _ :: ps, [] => matchesAt ps []
  | .many p :: ps, c :: cs => matchesAt ps (c :: cs) || p c && matchesAt (.many p :: ps) cs
termination_by ps cs => (cs.length, ps.length)

/-- `re.search(pattern, text)`. -/
def search (pattern : List Piece) (text : String) : Bool :=
  text.toList.tails.any (matchesAt pattern)

/-- The characters of a literal. -/
def literal (s : String) : List Piece :=
  s.toList.map fun c => .one (· = c)

/-- `json` in either case. The long s is an `s` too. -/
def jsonLiteral : List Piece :=
  [.one fun c => c = 'j' || c = 'J', .one fun c => c = 's' || c = 'S' || c = 'ſ',
    .one fun c => c = 'o' || c = 'O', .one fun c => c = 'n' || c = 'N']

/-- `\s*` -/
def spaces : Piece :=
  .many PyValue.isSpace

/-- An object in braces. -/
def braces : List Piece :=
  literal "\x7b" ++ [.many fun _ => true] ++ literal "\x7d"

/-- `markdown_json_patterns`. -/
def markdownJsonPatterns (rt : Runtime) : List (List Piece) :=
  [literal "```" ++ jsonLiteral ++ [spaces] ++ braces ++ [spaces] ++ literal "```",
    literal "```" ++ [spaces] ++ braces ++ [spaces] ++ literal "```",
    literal "`" ++ braces ++ literal "`",
    literal "```" ++ [.many rt.isWord, spaces] ++ braces ++ [spaces] ++ literal "```"]

/-- `_contains_markdown_json`. -/
def containsMarkdownJson (rt : Runtime) (text : String) : Bool :=
  (markdownJsonPatterns rt).any fun pattern => search pattern text

/-- The text of the error for a field. -/
def markdownError (path : String) : String :=
  "Field '" ++ path ++ "' contains markdown-JSON, which is not allowed"

mutual

/-- What the strict checks raise for a field. -/
def markdownIn (rt : Runtime) (path : String) : Value → Option String
  | .str s => if containsMarkdownJson rt s then some (markdownError path) else none
  | .dict d => checkDictForMarkdownJson rt path d
  | .list l => checkListForMarkdownJson rt path 0 l
  | .null | .bool _ | .int _ | .float _ | .tuple _ | .object _ _ => none
termination_by structural v => v

/-- `_check_dict_for_markdown_json`. -/
def checkDictForMarkdownJson (rt : Runtime) (path : String) :
    List (Key × Value) → Option String
  | [] => none
  | (k, v) :: d =>
    match markdownIn rt (path ++ "." ++ k.text.getD "") v with
    | some error => some error
    | none => checkDictForMarkdownJson rt path d
termination_by structural d => d

/-- `_check_list_for_markdown_json`, from an index on. -/
def checkListForMarkdownJson (rt : Runtime) (path : String) (i : ℕ) :
    List Value → Option String
  | [] => none
  | v :: l =>
    match markdownIn rt (path ++ "[" ++ toString i ++ "]") v with
    | some error => some error
    | none => checkListForMarkdownJson rt path (i + 1) l
termination_by structural l => l

end

/-! ## Contracts -/

/-- A detail of a `ValidationError`. -/
structure ErrorDetail where
  loc : List String
  message : String
  type : String
  input : Option Value

/-- The field of a detail, as it is reported. -/
def ErrorDetail.field (e : ErrorDetail) : String :=
  String.intercalate "." e.loc

/-- What a contract raises : a `ValidationError`, or another exception. -/
inductive ModelError
  | validation (errors : List ErrorDetail)
  | other (text : String)

/-- The fields of an instance. -/
abbrev Instance :=
  List (String × Value)

/-- A class of contracts. -/
structure ContractClass where
  name : String
  construct : List (Key × Value) → Except ModelError Instance
  modelValidate : Value → Except ModelError Instance

/-- What an endpoint may have as its contract : a class, or, as in the defaults of
`create_contract_middleware`, a string. -/
inductive Contract
  | model (c : ContractClass)
  | name (s : String)

/-- `contract_class(**data)`. -/
def Contract.construct : Contract → List (Key × Value) → Except ModelError Instance
  | .model c, data => c.construct data
  | .name _, _ => .error (.other "'str' object is not callable")

/-- `contract_class.model_validate(data)`. -/
def Contract.modelValidate : Contract → Value → Except ModelError Instance
  | .model c, data => c.modelValidate data
  | .name _, _ => .error (.other "'str' object has no attribute 'model_validate'")

/-- `contract_class.__name__`, where `none` stands for an `AttributeError`. -/
def Contract.className : Contract → Option String
  | .model c => some c.name
  | .name _ => none

/-- The instance that a contract makes of parsed data. -/
def Contract.instanceOf (contract : Contract) : Value → Except ModelError Instance
  | .dict d => contract.construct d
  | data => contract.modelValidate data

/-- `ContractValidationError`. -/
structure ContractValidationError where
  message : String
  errors : List ErrorDetail := []

/-- What an `Exception` that is no `ValidationError` becomes. -/
def unexpected (text : String) : ContractValidationError where
  message := "Unexpected validation error: " ++ text

/-- `_validate_strict_mode`. -/
def validateStrictMode (rt : Runtime) (inst : Instance) : Option String :=
  inst.findSome? fun field => markdownIn rt field.1 field.2

/-- `validate_contract` for data that is parsed, a string apart. -/
def validateParsed (rt : Runtime) (contract : Contract) (data : Value) :
    Except ContractValidationError Instance :=
  match contract.instanceOf data with
  | .ok inst =>
    match validateStrictMode rt inst with
    | none => .ok inst
    | some error => .error (unexpected error)
  | .error (.validation errors) =>
    -- a string raises no `ValidationError`
    .error { message := "Contract validation failed for " ++ contract.className.getD "", errors }
  | .error (.other text) => .error (unexpected text)

/-- `validate_contract`. -/
def validateContract (rt : Runtime) (contract : Contract) (data : Value) :
    Except ContractValidationError Instance :=
  match data with
  | .str s =>
    match rt.loads s with
    | .ok parsed => validateParsed rt contract parsed
    | .error (.decodeError text) => .error (unexpected ("Invalid JSON: " ++ text))
    | .error (.other text) => .error (unexpected text)
  | data => validateParsed rt contract data

/-! ## What a contract asks for -/

mutual

/-- The strings in a value. -/
def strings : Value → List String
  | .str s => [s]
  | .dict d => stringsOfItems d
  | .list l => stringsOfList l
  | .null | .bool _ | .int _ | .float _ | .tuple _ | .object _ _ => []
termination_by structural v => v

/-- The strings in the values of a dictionary. -/
def stringsOfItems : List (Key × Value) → List String
  | [] => []
  | (_, v) :: d => strings v ++ stringsOfItems d
termination_by structural d => d

/-- The strings in a list. -/
def stringsOfList : List Value → List String
  | [] => []
  | v :: l => strings v ++ stringsOfList l
termination_by structural l => l

end

/-- The contract makes an instance of the value, and no field contains markdown-JSON. -/
def Meets (rt : Runtime) (contract : Contract) (v : Value) : Prop :=
  ∃ inst, contract.instanceOf v = .ok inst ∧
    ∀ field ∈ inst, ∀ s ∈ strings field.2, containsMarkdownJson rt s = false

variable {rt : Runtime}

mutual

/-- The strict checks pass a value exactly if none of its strings contains markdown-JSON. -/
theorem markdownIn_eq_none_iff : ∀ {path : String} {v : Value},
    markdownIn rt path v = none ↔ ∀ s ∈ strings v, containsMarkdownJson rt s = false
  | path, .str s => by
    rw [markdownIn, strings, List.forall_mem_singleton]
    cases containsMarkdownJson rt s <;> simp
  | path, .dict d => by
    rw [markdownIn, strings]
    exact checkDict_eq_none_iff
  | path, .list l => by
    rw [markdownIn, strings]
    exact checkList_eq_none_iff
  | _, .null => by simp [markdownIn, strings]
  | _, .bool _ => by simp [markdownIn, strings]
  | _, .int _ => by simp [markdownIn, strings]
  | _, .float _ => by simp [markdownIn, strings]
  | _, .tuple _ => by simp [markdownIn, strings]
  | _, .object _ _ => by simp [markdownIn, strings]

theorem checkDict_eq_none_iff : ∀ {path : String} {d : List (Key × Value)},
    checkDictForMarkdownJson rt path d = none ↔
      ∀ s ∈ stringsOfItems d, containsMarkdownJson rt s = false
  | _, [] => by simp [checkDictForMarkdownJson, stringsOfItems]
  | path, (k, v) :: d => by
    have hv : markdownIn rt (path ++ "." ++ k.text.getD "") v = none ↔ _ := markdownIn_eq_none_iff
    have hd : checkDictForMarkdownJson rt path d = none ↔ _ := checkDict_eq_none_iff
    rw [checkDictForMarkdownJson, stringsOfItems, List.forall_mem_append, ← hv, ← hd]
    cases markdownIn rt (path ++ "." ++ k.text.getD "") v <;> simp

theorem checkList_eq_none_iff : ∀ {path : String} {i : ℕ} {l : List Value},
    checkListForMarkdownJson rt path i l = none ↔
      ∀ s ∈ stringsOfList l, containsMarkdownJson rt s = false
  | _, _, [] => by simp [checkListForMarkdownJson, stringsOfList]
  | path, i, v :: l => by
    have hv : markdownIn rt (path ++ "[" ++ toString i ++ "]") v = none ↔ _ :=
      markdownIn_eq_none_iff
    have hl : checkListForMarkdownJson rt path (i + 1) l = none ↔ _ := checkList_eq_none_iff
    rw [checkListForMarkdownJson, stringsOfList, List.forall_mem_append, ← hv, ← hl]
    cases markdownIn rt (path ++ "[" ++ toString i ++ "]") v <;> simp

end

theorem validateStrictMode_eq_none_iff {inst : Instance} : validateStrictMode rt inst = none ↔
    ∀ field ∈ inst, ∀ s ∈ strings field.2, containsMarkdownJson rt s = false := by
  unfold validateStrictMode
  rw [List.findSome?_eq_none_iff]
  exact forall₂_congr fun field _ => markdownIn_eq_none_iff

theorem validateParsed_isOk_iff {contract : Contract} {v : Value} :
    (validateParsed rt contract v).isOk = true ↔ Meets rt contract v := by
  unfold validateParsed Meets
  cases contract.instanceOf v with
  | error e => cases e <;> simp [Except.isOk, Except.toBool]
  | ok inst =>
    simp only [Except.ok.injEq, exists_eq_left', ← validateStrictMode_eq_none_iff]
    cases validateStrictMode rt inst <;> simp [Except.isOk, Except.toBool]

/-- A string is what the text in it is, read as JSON. -/
def MeetsReread (rt : Runtime) (contract : Contract) (v : Value) : Prop :=
  match v with
  | .str s => ∃ w, rt.loads s = .ok w ∧ Meets rt contract w
  | v => Meets rt contract v

theorem validateContract_isOk_iff {contract : Contract} {v : Value} :
    (validateContract rt contract v).isOk = true ↔ MeetsReread rt contract v := by
  unfold validateContract MeetsReread
  cases v with
  | str s =>
    cases hloads : rt.loads s with
    | ok w => simp [hloads, validateParsed_isOk_iff]
    | error e => cases e <;> simp [hloads, Except.isOk, Except.toBool]
  | null | bool _ | int _ | float _ | list _ | tuple _ | dict _ | object _ _ =>
    exact validateParsed_isOk_iff

/-- A string for a contract makes no instance. -/
theorem not_meets_name {s : String} {v : Value} : ¬Meets rt (.name s) v := by
  rintro ⟨inst, hinst, -⟩
  cases v <;> cases hinst

end Contracts

end MultiAgent
