import MultiAgent.Lib.PyValue
import MultiAgent.Lib.Regex
import MultiAgent.Lib.Validated
import MultiAgent.Middleware.PrivacyMiddleware

/-!
# Tool specifications

`ToolParameter` and `ToolSpec` of `libs/contracts/tool_spec.py` under Pydantic v2: what is made of
a payload that is read from JSON, or given in Python. Both classes are strict, so in Python an
enumeration is given by a member, a time by a `datetime` and a parameter by an instance, and in
JSON by a string, a string and an object.

Fields are validated in the order in which they are declared. A `ValueError` of a validator is
collected with what Pydantic itself finds, any other exception ends the validation. A field
validator with two arguments is given a `ValidationInfo`, and `use_enum_values` stores the value
of a member.
-/

namespace MultiAgent

namespace ToolContracts

open Privacy (Number)

/-- `ToolType`. -/
inductive ToolType
  | apiCall
  | databaseQuery
  | fileOperation
  | calculation
  | validation
  | transformation
  | notification
  | integration
  deriving DecidableEq

/-- The value of a member. -/
def ToolType.value : ToolType → String
  | .apiCall => "api_call"
  | .databaseQuery => "database_query"
  | .fileOperation => "file_operation"
  | .calculation => "calculation"
  | .validation => "validation"
  | .transformation => "transformation"
  | .notification => "notification"
  | .integration => "integration"

/-- `ToolType(s)`. -/
def ToolType.ofValue (s : String) : Option ToolType :=
  [apiCall, databaseQuery, fileOperation, calculation, validation, transformation, notification,
    integration].find? fun t => t.value = s

/-- What `use_enum_values` stores of a member: its value. -/
structure StoredType where
  text : String
  isValue : ∃ t : ToolType, text = t.value

/-- The value of a member, stored. -/
def ToolType.stored (t : ToolType) : StoredType :=
  { text := t.value, isValue := ⟨t, rfl⟩ }

/-- A value of a payload. A `datetime` and an object of any other class are known by a number,
an instance of `ToolParameter` by its attributes. -/
inductive Value
  | null
  | bool (b : Bool)
  | int (i : ℤ)
  | float (x : Number)
  | str (s : String)
  | list (l : List Value)
  | dict (d : List (PyKey × Value))
  | member (t : ToolType)
  | datetime (id : ℕ)
  | parameter (name type description : String) (required : Bool) (default constraints : Value)
  | object (id : ℕ)

/-- The arguments of a class, or the items of a dictionary. -/
abbrev Items :=
  List (PyKey × Value)

/-- The value of a field. -/
def Items.field (d : Items) (key : String) : Option Value :=
  d.lookup (.str key)

/-- What Pydantic and the tables of Unicode give: the value of a decimal digit, the time that a
string is, and whether a NaN passes a lower bound. The last two are what the default factories
return. -/
structure Environment where
  decimal : Char → Option (Fin 10)
  readDatetime : String → Option ℕ
  nanIsGe : Bool
  newId : String
  now : ℕ

/-! ## Errors -/

/-- A step to the place of an error. -/
inductive Loc
  | field (name : String)
  | index (i : ℕ)
  | key (k : PyKey)

/-- The type of an error, with the text of a `ValueError`. -/
inductive ErrorType
  | missing
  | stringType
  | stringTooShort
  | stringTooLong
  | stringPatternMismatch
  | boolType
  | intType
  | floatType
  | greaterThanEqual
  | lessThanEqual
  | enum
  | isInstanceOf
  | modelType
  | listType
  | dictType
  | datetimeType
  | datetimeParsing
  | valueError (text : String)

/-- An error of a `ValidationError`. -/
structure LineError where
  loc : List Loc
  type : ErrorType

/-- An exception that is no `ValueError`, of a name. -/
inductive Raised
  | attributeError (name : String)
  | nameError (name : String)
  deriving DecidableEq

/-- What a validation comes to. -/
abbrev Result (α : Type) :=
  Validated LineError Raised α

/-- An error of the value itself. -/
def fail {α : Type} (type : ErrorType) : Result α :=
  .invalid [{ loc := [], type }]

/-- A validation of a part. -/
def within {α : Type} (loc : Loc) (r : Result α) : Result α :=
  r.mapErrors fun e => { e with loc := loc :: e.loc }

/-- A field without a default. -/
def required {α : Type} (d : Items) (key : String) (validate : Value → Result α) : Result α :=
  match d.field key with
  | none => within (.field key) (fail .missing)
  | some v => within (.field key) (validate v)

/-- A field with a default, which is not validated. -/
def optional {α : Type} (d : Items) (key : String) (default : α) (validate : Value → Result α) :
    Result α :=
  match d.field key with
  | none => pure default
  | some v => within (.field key) (validate v)

/-! ## The constraints of fields -/

/-- The constraints of a `str`. -/
structure StrField where
  minLength : ℕ := 0
  maxLength : Option ℕ := none
  pattern : Option (Regex Char) := none

/-- A strict `str`. -/
def StrField.validate (f : StrField) : Value → Result String
  | .str s =>
    if s.length < f.minLength then fail .stringTooShort
    else if f.maxLength.any fun most => most < s.length then fail .stringTooLong
    else if f.pattern.any fun r => !r.search s.toList then fail .stringPatternMismatch
    else .ok s
  | _ => fail .stringType

/-- A strict `int` with `ge` and `le`. -/
def validateInt (ge le : ℤ) : Value → Result ℤ
  | .int i =>
    if le < i then fail .lessThanEqual
    else if i < ge then fail .greaterThanEqual
    else .ok i
  | _ => fail .intType

/-- `ge=0`. -/
def isGeZero (env : Environment) : Number → Bool
  | .finite q => 0 ≤ q
  | .nan => env.nanIsGe
  | .infinity negative => !negative

/-- A strict `float` with `ge=0`. An integer is one too. -/
def validateFloat (env : Environment) : Value → Result Number
  | .int i => if i < 0 then fail .greaterThanEqual else .ok (.finite i)
  | .float x => if isGeZero env x then .ok x else fail .greaterThanEqual
  | _ => fail .floatType

/-- A strict `bool`. -/
def validateBool : Value → Result Bool
  | .bool b => .ok b
  | _ => fail .boolType

/-- The key is a string. -/
def isText : PyKey → Bool
  | .str _ => true
  | _ => false

/-- `Optional[Dict[str, Any]]`. -/
def validateDict : Value → Result Value
  | .null => .ok .null
  | .dict d =>
    match d.filter fun item => !isText item.1 with
    | [] => .ok (.dict d)
    | items => .invalid (items.map fun item =>
        { loc := [.key item.1, .field "[key]"], type := .stringType })
  | _ => fail .dictType

/-- `ToolType`, whose value is stored. -/
def validateToolType (json : Bool) : Value → Result StoredType
  | .member t => .ok t.stored
  | .str s =>
    if json then
      match ToolType.ofValue s with
      | some t => .ok t.stored
      | none => fail .enum
    else fail .isInstanceOf
  | _ => if json then fail .enum else fail .isInstanceOf

/-- `datetime`. -/
def validateDatetime (env : Environment) (json : Bool) : Value → Result ℕ
  | .datetime id => .ok id
  | .str s =>
    if json then
      match env.readDatetime s with
      | some id => .ok id
      | none => fail .datetimeParsing
    else fail .datetimeType
  | _ => fail .datetimeType

/-! ## The patterns -/

section Patterns

open Regex (chain oneOf)

/-- The characters of a text. -/
def literal : List Char → Regex Char
  | [] => .times .textStart 0 (some 0)
  | c :: l => .seq (.char (· == c)) (literal l)

/-- `[a-zA-Z_]` -/
def isFirst (c : Char) : Bool :=
  ('a' ≤ c && c ≤ 'z') || ('A' ≤ c && c ≤ 'Z') || c = '_'

/-- `^[a-zA-Z_][a-zA-Z0-9_]*$`, with further characters after the first. -/
def identifier (further : Char → Bool) : Regex Char :=
  chain .textStart
    [.char isFirst, .times (.char fun c => isFirst c || c.isDigit || further c) 0 none, .textEnd]

/-- `^(string|integer|float|boolean|object|array)$` -/
def typePattern : Regex Char :=
  chain .textStart
    [oneOf (literal "string".toList)
      (["integer", "float", "boolean", "object", "array"].map fun s => literal s.toList),
    .textEnd]

/-- `^\d+\.\d+\.\d+$` -/
def versionPattern (env : Environment) : Regex Char :=
  let digits := .times (.char fun c => (env.decimal c).isSome) 1 none
  chain .textStart
    [digits, .char (· == '.'), digits, .char (· == '.'), digits, .textEnd]

end Patterns

/-! ## Parameters -/

/-- `ToolParameter`. -/
structure ToolParameter where
  name : String
  type : String
  description : String
  required : Bool
  defaultValue : Value
  constraints : Value

/-- The second argument of a field validator: in the second version of Pydantic a
`ValidationInfo`, in the first one the fields that are validated already. -/
inductive ValidatorValues
  | info
  | data (fields : Items)

/-- `values.get(key)`, which a `ValidationInfo` does not have. -/
def ValidatorValues.get (key : String) : ValidatorValues → Result (Option Value)
  | .info => .raised (.attributeError "get")
  | .data fields => .ok (fields.field key)

/-- A class of Python. -/
inductive PyClass
  | str
  | int
  | float
  | bool
  | dict
  | list

/-- `isinstance(v, cls)`. A `bool` is an `int`. -/
def isInstance : Value → PyClass → Bool
  | .str _, .str => true
  | .int _, .int => true
  | .bool _, .int => true
  | .float _, .float => true
  | .bool _, .bool => true
  | .dict _, .dict => true
  | .list _, .list => true
  | _, _ => false

/-- `param_type == s`. -/
def isNamed (paramType : Option Value) (s : String) : Bool :=
  match paramType with
  | some (.str t) => t = s
  | _ => false

/-- `validate_default_value`. -/
def validateDefaultValue (values : ValidatorValues) : Value → Result Value
  | .null => .ok .null
  | v =>
    (values.get "type").andThen fun paramType =>
      if isNamed paramType "string" && !isInstance v .str then
        fail (.valueError "default_value must be string for string type")
      else if isNamed paramType "integer" && !isInstance v .int then
        fail (.valueError "default_value must be integer for integer type")
      else if isNamed paramType "float" && !(isInstance v .int || isInstance v .float) then
        fail (.valueError "default_value must be number for float type")
      else if isNamed paramType "boolean" && !isInstance v .bool then
        fail (.valueError "default_value must be boolean for boolean type")
      else if isNamed paramType "object" && !isInstance v .dict then
        fail (.valueError "default_value must be object for object type")
      else if isNamed paramType "array" && !isInstance v .list then
        fail (.valueError "default_value must be array for array type")
      else .ok v

/-- `name` of `ToolParameter`. -/
def parameterName : StrField :=
  { minLength := 1, maxLength := some 50, pattern := some (identifier fun _ => false) }

/-- `type` of `ToolParameter`. -/
def parameterType : StrField :=
  { pattern := some typePattern }

/-- `description` of `ToolParameter`. -/
def parameterDescription : StrField :=
  { minLength := 1, maxLength := some 200 }

/-- `ToolParameter` of its arguments. -/
def validateToolParameter (d : Items) : Result ToolParameter :=
  ToolParameter.mk <$> required d "name" parameterName.validate
    <*> required d "type" parameterType.validate
    <*> required d "description" parameterDescription.validate
    <*> optional d "required" false validateBool
    <*> optional d "default_value" .null (validateDefaultValue .info)
    <*> optional d "constraints" .null validateDict

/-- An entry of `List[ToolParameter]`. -/
def validateParameter (json : Bool) : Value → Result ToolParameter
  | .parameter name type description required defaultValue constraints =>
    .ok { name, type, description, required, defaultValue, constraints }
  | .dict d => if json then validateToolParameter d else fail .modelType
  | _ => fail .modelType

/-! ## Specifications -/

/-- `v.strip()`. -/
def strip (s : String) : String :=
  String.ofList (PyValue.stripChars s.toList)

/-- `l` without the occurrences of `word`, of which `skip` more characters are to be left out. -/
def removeFrom (word : List Char) : ℕ → List Char → List Char
  | _, [] => []
  | skip + 1, _ :: l => removeFrom word skip l
  | 0, c :: l =>
    if word.isPrefixOf (c :: l) then removeFrom word (word.length - 1) l
    else c :: removeFrom word 0 l

/-- `s.strip(chars)`. -/
def stripOf (chars l : List Char) : List Char :=
  ((l.dropWhile (chars.contains ·)).reverse.dropWhile (chars.contains ·)).reverse

/-- Digits to the base 16, with an underscore between two of them. -/
def hexDigits : List Char → Bool
  | [] => false
  | [c] => isHexDigit c
  | c :: c' :: l =>
    isHexDigit c && (hexDigits (c' :: l) || (c' = '_' && hexDigits l))
where
  /-- A digit. -/
  isHexDigit (c : Char) : Bool :=
    c.isDigit || ('a' ≤ c && c ≤ 'f') || ('A' ≤ c && c ≤ 'F')

/-- What `int` reads after a sign. -/
def afterPrefix : List Char → List Char
  | '0' :: x :: l =>
    if x = 'x' ∨ x = 'X' then
      match l with
      | '_' :: l => l
      | l => l
    else '0' :: x :: l
  | l => l

/-- `int(s, 16)` does not raise, for a text without a minus. -/
def readsBase16 (env : Environment) (l : List Char) : Bool :=
  let ascii := (PyValue.stripChars l).map fun c =>
    match env.decimal c with
    | some d => Char.ofNat ('0'.toNat + d)
    | none => c
  match ascii with
  | '+' :: l => hexDigits (afterPrefix l)
  | l => hexDigits (afterPrefix l)

/-- `uuid.UUID(v)` does not raise. -/
def isUuid (env : Environment) (s : String) : Bool :=
  let hex := removeFrom "uuid:".toList 0 (removeFrom "urn:".toList 0 s.toList)
  let hex := removeFrom ['-'] 0 (stripOf ['\x7b', '\x7d'] hex)
  hex.length = 32 && readsBase16 env hex

/-- `validate_tool_id`. -/
def validateToolId (env : Environment) (v : String) : Result String :=
  if isUuid env v then .ok v else fail (.valueError "tool_id must be a valid UUID")

/-- `validate_tenant_id`. -/
def validateTenantId (v : String) : Result String :=
  if v = "" ∨ strip v = "" then fail (.valueError "tenant_id cannot be empty") else .ok (strip v)

/-- `validate_parameters`. -/
def validateParameters (parameters : List ToolParameter) : Result (List ToolParameter) :=
  if (parameters.map ToolParameter.name).Nodup then .ok parameters
  else fail (.valueError "parameter names must be unique")

/-- What the loop of `validate_tags` raises, from an index on. -/
def tagError : ℕ → List String → Option String
  | _, [] => none
  | i, tag :: tags =>
    if strip tag = "" then some ("tag " ++ toString i ++ " cannot be empty")
    else if 30 < tag.length then some ("tag " ++ toString i ++ " cannot exceed 30 characters")
    else tagError (i + 1) tags

/-- `validate_tags`. -/
def validateTags (tags : List String) : Result (List String) :=
  match tagError 0 tags with
  | some text => fail (.valueError text)
  | none => .ok (tags.map strip)

/-- A strict `list`, entry by entry. -/
def validateList {α : Type} (validate : Value → Result α) : Value → Result (List α)
  | .list l => Validated.forEach (fun i v => within (.index i) (validate v)) 0 l
  | _ => fail .listType

/-- `ToolSpec`. -/
structure ToolSpec where
  toolId : String
  tenantId : String
  name : String
  description : String
  toolType : StoredType
  parameters : List ToolParameter
  version : String
  timeoutSeconds : ℤ
  maxRetries : ℤ
  costPerCallUsd : Number
  requiresApproval : Bool
  tags : List String
  createdAt : ℕ
  updatedAt : ℕ

/-- `name` of `ToolSpec`. -/
def specName : StrField :=
  { minLength := 1, maxLength := some 100, pattern := some (identifier (· == '-')) }

/-- `description` of `ToolSpec`. -/
def specDescription : StrField :=
  { minLength := 1, maxLength := some 500 }

/-- `version` of `ToolSpec`. -/
def specVersion (env : Environment) : StrField :=
  { pattern := some (versionPattern env) }

/-- The fields of `ToolSpec`. -/
def validateFields (env : Environment) (json : Bool) (d : Items) : Result ToolSpec :=
  ToolSpec.mk
    <$> optional d "tool_id" env.newId (fun v =>
      (StrField.validate {} v).andThen (validateToolId env))
    <*> required d "tenant_id" (fun v =>
      (StrField.validate { minLength := 1 } v).andThen validateTenantId)
    <*> required d "name" specName.validate
    <*> required d "description" specDescription.validate
    <*> required d "tool_type" (validateToolType json)
    <*> optional d "parameters" [] (fun v =>
      (validateList (validateParameter json) v).andThen validateParameters)
    <*> required d "version" (specVersion env).validate
    <*> optional d "timeout_seconds" 30 (validateInt 1 3600)
    <*> optional d "max_retries" 3 (validateInt 0 10)
    <*> optional d "cost_per_call_usd" (.finite 0) (validateFloat env)
    <*> optional d "requires_approval" false validateBool
    <*> optional d "tags" [] (fun v =>
      (validateList (StrField.validate {}) v).andThen validateTags)
    <*> optional d "created_at" env.now (validateDatetime env json)
    <*> optional d "updated_at" env.now (validateDatetime env json)

/-- `v == t`. A string is not equal to a member. -/
def isMember : Value → ToolType → Bool
  | .member t, t' => t = t'
  | _, _ => false

/-- `validate_tool_consistency`, which returns a name that is not defined. -/
def validateToolConsistency (self : ToolSpec) : Result ToolSpec :=
  let toolType := Value.str self.toolType.text
  let hasNone (name : String) := (self.parameters.filter fun p => p.name = name).isEmpty
  if isMember toolType .apiCall && hasNone "url" then
    fail (.valueError "API_CALL tools must have a url parameter")
  else if isMember toolType .databaseQuery && hasNone "query" then
    fail (.valueError "DATABASE_QUERY tools must have a query parameter")
  else .raised (.nameError "values")

/-- `ToolSpec` of its arguments. -/
def construct (env : Environment) (json : Bool) (d : Items) : Result ToolSpec :=
  (validateFields env json d).andThen validateToolConsistency

end ToolContracts

end MultiAgent
