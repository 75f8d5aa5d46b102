import Mathlib.Algebra.Order.Field.Rat
import Mathlib.Data.Finset.Insert
import MultiAgent.Lib.PyValue

/-!
# The schema validator of the router

`SchemaValidator` of `libs/router/router_base.py`. A schema has `properties`, and each field of
them a schema of its own with a `type` and whether it is required; what else a schema may have is
not read. The data is a dictionary of JSON.

`validate_schema` catches every exception and reports it as an error. The texts of exceptions are
given from outside.
-/

namespace MultiAgent

namespace Router

/-- `SchemaStrictness`. -/
inductive SchemaStrictness
  | strict
  | moderate
  | loose
  | none
  deriving DecidableEq

/-- A schema. Without `required` a field is optional. -/
inductive Schema
  | mk (type : Option String) (required : Bool) (properties : Option (List (String × Schema)))

/-- The items of `properties`. -/
abbrev Properties :=
  List (String × Schema)

namespace Schema

/-- `schema.get("type")`. -/
def type : Schema → Option String
  | mk type _ _ => type

/-- `schema.get("required", False)`. -/
def required : Schema → Bool
  | mk _ required _ => required

/-- `schema["properties"]`, if it is there. -/
def properties : Schema → Option Properties
  | mk _ _ properties => properties

end Schema

/-- `SchemaValidation`. -/
structure SchemaValidation where
  strictness : SchemaStrictness
  validationErrors : List String
  schemaComplexity : ℚ
  requiredFields : Finset String
  optionalFields : Finset String
  nestedDepth : ℕ

/-- What `_analyze_schema_structure` collects. -/
structure SchemaStructure where
  requiredFields : Finset String := ∅
  optionalFields : Finset String := ∅
  maxDepth : ℕ := 0

mutual

/-- The loop of `analyze_properties`. -/
def analyzeProperties (depth : ℕ) (s : SchemaStructure) : Properties → SchemaStructure
  | [] => s
  | (fieldName, fieldSchema) :: rest =>
    analyzeProperties depth (analyzeField depth s fieldName fieldSchema) rest
termination_by structural properties => properties

/-- One field of it. -/
def analyzeField (depth : ℕ) (s : SchemaStructure) (fieldName : String) :
    Schema → SchemaStructure
  | .mk _ required properties =>
    let s :=
      if required then { s with requiredFields := insert fieldName s.requiredFields }
      else { s with optionalFields := insert fieldName s.optionalFields }
    analyzeNested (depth + 1) s properties
termination_by structural schema => schema

/-- The properties of a field. -/
def analyzeNested (depth : ℕ) (s : SchemaStructure) : Option Properties → SchemaStructure
  | some inner => analyzeProperties depth { s with maxDepth := max s.maxDepth depth } inner
  | none => s
termination_by structural properties => properties

end

/-- `_analyze_schema_structure`. -/
def analyzeSchemaStructure (schema : Schema) : SchemaStructure :=
  match schema.properties with
  | some properties => analyzeProperties 0 {} properties
  | none => {}

/-- The classes of `type_mapping`. `True` and `False` are instances of `int`. -/
def typeMapping : String → Option (PyValue → Bool)
  | "string" => some fun v => match v with | .str _ => true | _ => false
  | "integer" => some fun v => match v with | .int _ => true | .bool _ => true | _ => false
  | "number" => some fun v =>
    match v with | .int _ => true | .bool _ => true | .float _ => true | _ => false
  | "boolean" => some fun v => match v with | .bool _ => true | _ => false
  | "array" => some fun v => match v with | .arr _ => true | _ => false
  | "object" => some fun v => match v with | .obj _ => true | _ => false
  | _ => none

/-- `_validate_type`. -/
def validateType (value : PyValue) (expectedType : String) : Bool :=
  match typeMapping expectedType with
  | some isinstance => isinstance value
  | none => true

/-- What is appended for a value that is not of the type `expected_type`, if that is given. -/
def typeErrors (expectedType path : String) (value : PyValue) : List String :=
  if expectedType = "" || validateType value expectedType then []
  else ["Invalid type for " ++ path ++ ": expected " ++ expectedType]

/-- `f"{path}.{field_name}" if path else field_name`. -/
def fieldPath (path fieldName : String) : String :=
  if path = "" then fieldName else path ++ "." ++ fieldName

mutual

/-- `_validate_data`. -/
def validateData : Properties → PyValue → String → Except PyError (List String)
  | [], _, _ => .ok []
  | (fieldName, fieldSchema) :: rest, data, path => do
    let errors ← validateField fieldSchema fieldName data (fieldPath path fieldName)
    let others ← validateData rest data path
    return errors ++ others
termination_by structural properties => properties

/-- One field of it. -/
def validateField : Schema → String → PyValue → String → Except PyError (List String)
  | .mk type required properties, fieldName, data, path => do
    if !(← data.contains fieldName) then
      return if required then ["Missing required field: " ++ path] else []
    else
      let expectedType := type.getD ""
      let errors ←
        if expectedType = "" then pure []
        else (data.getItem fieldName).map (typeErrors expectedType path)
      let nestedErrors ←
        if expectedType = "object" then validateNested properties fieldName data path
        else pure []
      return errors ++ nestedErrors
termination_by structural schema => schema

/-- The properties of a field that is an object. -/
def validateNested : Option Properties → String → PyValue → String →
    Except PyError (List String)
  | some inner, fieldName, data, path => do validateData inner (← data.getItem fieldName) path
  | none, _, _, _ => return []
termination_by structural properties => properties

end

/-- `_determine_strictness`. -/
def determineStrictness (schema : Schema) (errors : List String) : SchemaStrictness :=
  match schema.properties with
  | none => .none
  | some properties =>
    let requiredCount := properties.countP fun p => p.2.required
    let ratio : ℚ := requiredCount / (max properties.length 1 : ℕ)
    if 8 / 10 < ratio ∧ errors.length = 0 then .strict
    else if 5 / 10 < ratio then .moderate
    else if 2 / 10 < ratio then .loose
    else .none

mutual

/-- `_get_max_nested_depth`. -/
def getMaxNestedDepth : Properties → ℕ → ℕ
  | [], currentDepth => currentDepth
  | (_, fieldSchema) :: rest, currentDepth =>
    max (nestedDepth fieldSchema currentDepth) (getMaxNestedDepth rest currentDepth)
termination_by structural properties => properties

/-- The depth below one field. -/
def nestedDepth : Schema → ℕ → ℕ
  | .mk _ _ (some inner), currentDepth => getMaxNestedDepth inner (currentDepth + 1)
  | .mk _ _ none, currentDepth => currentDepth
termination_by structural schema => schema

end

/-- `_calculate_schema_complexity`, which divides by the number of properties. -/
def calculateSchemaComplexity (schema : Schema) : Except ArithmeticError ℚ :=
  match schema.properties with
  | none => .ok 0
  | some [] => .error .zeroDivision
  | some properties =>
    let n : ℚ := properties.length
    let fieldCount := min (n / 20) 1
    let depth := min ((getMaxNestedDepth properties 0 : ℚ) / 5) 1
    let requiredRatio := (properties.countP fun p => p.2.required : ℕ) / n
    let typeDiversity := (properties.map fun p => p.2.type.getD "unknown").dedup.length / n
    .ok ((fieldCount + depth + requiredRatio + typeDiversity) / 4)

/-- `validate_schema`, where `text` is the text of an exception. -/
def validateSchema (text : PyError ⊕ ArithmeticError → String) (schema : Schema) (data : Items) :
    SchemaValidation :=
  let analysis := analyzeSchemaStructure schema
  let result (strictness : SchemaStrictness) (errors : List String) (complexity : ℚ) :=
    { strictness
      validationErrors := errors
      schemaComplexity := complexity
      requiredFields := analysis.requiredFields
      optionalFields := analysis.optionalFields
      nestedDepth := analysis.maxDepth : SchemaValidation }
  match validateData (schema.properties.getD []) (.obj data) "" with
  | .error e => result .none ["Schema analysis error: " ++ text (.inl e)] 0
  | .ok errors =>
    match calculateSchemaComplexity schema with
    | .error e => result .none (errors ++ ["Schema analysis error: " ++ text (.inr e)]) 0
    | .ok complexity => result (determineStrictness schema errors) errors complexity

/-! ## A field of a dictionary -/

variable {type : Option String} {required : Bool} {properties : Option Properties} {d : Items}
  {fieldName path : String}

theorem validateField_of_none (h : d.field fieldName = none) :
    validateField (.mk type required properties) fieldName (.obj d) path =
      .ok (if required then ["Missing required field: " ++ path] else []) := by
  rw [validateField]
  simp [PyValue.contains, h]
  rfl

theorem validateField_of_some {value : PyValue} (h : d.field fieldName = some value) :
    validateField (.mk type required properties) fieldName (.obj d) path =
      (if type.getD "" = "object" then validateNested properties fieldName (.obj d) path
        else .ok []).map (typeErrors (type.getD "") path value ++ ·) := by
  have htype : typeErrors "" path value = [] := rfl
  rw [validateField]
  simp only [PyValue.contains, h, PyValue.getItem, Option.isSome_some, Fallible.ok_bind,
    Bool.not_true, Bool.false_eq_true, if_false]
  by_cases hempty : type.getD "" = ""
  · rw [hempty, htype]
    rfl
  rw [if_neg hempty]
  by_cases hobject : type.getD "" = "object"
  · simp only [hobject, if_true]
    cases validateNested properties fieldName (.obj d) path <;> rfl
  · simp only [hobject, if_false]
    rfl

theorem validateNested_of_some {value : PyValue} (h : d.field fieldName = some value) :
    validateNested properties fieldName (.obj d) path =
      match properties with
      | some inner => validateData inner value path
      | none => .ok [] := by
  cases properties with
  | none => rw [validateNested]; rfl
  | some inner =>
    rw [validateNested]
    simp [PyValue.getItem, h]

/-- Nothing is reported for a field that is there if and only if it has its type and, where that
is an object, nothing is reported below it. -/
theorem validateField_eq_nil {value : PyValue} (h : d.field fieldName = some value) :
    validateField (.mk type required properties) fieldName (.obj d) path = .ok [] ↔
      typeErrors (type.getD "") path value = [] ∧
        ∀ inner, properties = some inner → type.getD "" = "object" →
          validateData inner value path = .ok [] := by
  have hmap : ∀ {x : Except PyError (List String)} {l : List String},
      x.map (l ++ ·) = .ok [] ↔ l = [] ∧ x = .ok [] := by
    intro x l
    cases x with
    | error e => simp [Except.map]
    | ok l' => simp [Except.map]
  rw [validateField_of_some h, hmap]
  refine and_congr_right fun _ => ?_
  split_ifs with hobject
  · rw [validateNested_of_some h]
    cases properties with
    | none => simp
    | some inner => simp [hobject]
  · simp [hobject]

theorem validateData_cons_eq_nil {fieldSchema : Schema} {rest : Properties} {data : PyValue} :
    validateData ((fieldName, fieldSchema) :: rest) data path = .ok [] ↔
      validateField fieldSchema fieldName data (fieldPath path fieldName) = .ok [] ∧
        validateData rest data path = .ok [] := by
  rw [validateData]
  constructor
  · intro h
    obtain ⟨errors, herrors, h⟩ := Fallible.bind_eq_ok.mp h
    obtain ⟨others, hothers, h⟩ := Fallible.bind_eq_ok.mp h
    obtain ⟨rfl, rfl⟩ := List.append_eq_nil_iff.mp (Except.ok.inj h)
    exact ⟨herrors, hothers⟩
  · rintro ⟨herrors, hothers⟩
    rw [herrors, hothers]
    rfl

end Router

end MultiAgent
