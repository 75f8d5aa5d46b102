import Mathlib.Data.List.Nodup
import MultiAgent.Contracts.ToolSpec

/-!
# Valid payloads of tool specifications

When a payload should make a `ToolSpec`: the fields meet their constraints, the names of the
parameters are distinct, their default values have the types that they name, and a call of an API
or a query of a database has its parameter (`Valid`).

The validation of a field alone raises nothing, and a value that meets the constraints of the
field passes (`Checks`). Of a bound that is not negative a NaN may pass as well.
-/

namespace MultiAgent

namespace ToolContracts

/-! ## The constraints -/

/-- A `str` meets its constraints. -/
def StrField.accepts (f : StrField) : Value → Bool
  | .str s =>
    f.minLength ≤ s.length && f.maxLength.all (fun most => s.length ≤ most) &&
      f.pattern.all fun r => r.search s.toList
  | _ => false

/-- A string with a property that its validator asks for. -/
def StrField.acceptsWith (f : StrField) (p : String → Bool) : Value → Bool
  | .str s => f.accepts (.str s) && p s
  | _ => false

/-- An integer from `ge` to `le`. -/
def acceptsInt (ge le : ℤ) : Value → Bool
  | .int i => ge ≤ i && i ≤ le
  | _ => false

/-- A number that is not negative. -/
def acceptsFloat : Value → Bool
  | .int i => 0 ≤ i
  | .float (.finite q) => 0 ≤ q
  | .float (.infinity negative) => !negative
  | _ => false

/-- A boolean. -/
def acceptsBool : Value → Bool
  | .bool _ => true
  | _ => false

/-- Nothing, or a dictionary of strings. -/
def acceptsDict : Value → Bool
  | .null => true
  | .dict d => d.all fun item => isText item.1
  | _ => false

/-- The member that a value is. -/
def toolTypeOf (json : Bool) : Value → Option ToolType
  | .member t => some t
  | .str s => if json then ToolType.ofValue s else none
  | _ => none

/-- A time. -/
def acceptsDatetime (env : Environment) (json : Bool) : Value → Bool
  | .datetime _ => true
  | .str s => json && (env.readDatetime s).isSome
  | _ => false

/-- A list of strings that are not blank and not longer than 30. -/
def acceptsTags : Value → Bool
  | .list l => l.all (StrField.acceptsWith {} fun tag => strip tag ≠ "" && tag.length ≤ 30)
  | _ => false

/-- The field is there and is accepted. -/
def Items.requires (d : Items) (key : String) (accepts : Value → Bool) : Bool :=
  (d.field key).any accepts

/-- The field is accepted if it is there. -/
def Items.allows (d : Items) (key : String) (accepts : Value → Bool) : Bool :=
  (d.field key).all accepts

/-! ## Parameters -/

/-- The fields of a parameter: the attributes of an instance, or the items of an object. -/
def parameterItems (json : Bool) : Value → Option Items
  | .parameter name type description required default constraints =>
    some [(.str "name", .str name), (.str "type", .str type),
      (.str "description", .str description), (.str "required", .bool required),
      (.str "default_value", default), (.str "constraints", constraints)]
  | .dict d => if json then some d else none
  | _ => none

/-- The fields of a parameter meet their constraints, that of the default value apart. -/
def acceptsParameter (json : Bool) (v : Value) : Bool :=
  (parameterItems json v).any fun d =>
    d.requires "name" parameterName.accepts && d.requires "type" parameterType.accepts &&
      d.requires "description" parameterDescription.accepts && d.allows "required" acceptsBool &&
      d.allows "constraints" acceptsDict

/-- A list of parameters. -/
def acceptsParameters (json : Bool) : Value → Bool
  | .list l => l.all (acceptsParameter json)
  | _ => false

/-- The value has the type of JSON. A boolean is neither an integer nor a number. -/
def hasJsonType : String → Value → Bool
  | "string", .str _ => true
  | "integer", .int _ => true
  | "float", .int _ => true
  | "float", .float _ => true
  | "boolean", .bool _ => true
  | "object", .dict _ => true
  | "array", .list _ => true
  | _, _ => false

/-- The parameter names the type of its default value, if it has one. -/
def hasTypedDefault (json : Bool) (v : Value) : Bool :=
  (parameterItems json v).all fun d =>
    match d.field "default_value" with
    | none | some .null => true
    | some v =>
      match d.field "type" with
      | some (.str type) => hasJsonType type v
      | _ => false

/-- The parameters of a payload. -/
def parametersOf (d : Items) : List Value :=
  match d.field "parameters" with
  | some (.list l) => l
  | _ => []

/-- The name of a parameter. -/
def nameOf (json : Bool) (v : Value) : Option String :=
  match (parameterItems json v).bind fun d => d.field "name" with
  | some (.str name) => some name
  | _ => none

/-- The names of the parameters. -/
def parameterNames (json : Bool) (d : Items) : List String :=
  (parametersOf d).filterMap (nameOf json)

/-! ## Payloads -/

/-- Every field meets its constraints. -/
structure FieldsHold (env : Environment) (json : Bool) (d : Items) : Prop where
  toolId : d.allows "tool_id" (StrField.acceptsWith {} (isUuid env))
  tenantId : d.requires "tenant_id" (StrField.acceptsWith { minLength := 1 } fun s => strip s ≠ "")
  name : d.requires "name" specName.accepts
  description : d.requires "description" specDescription.accepts
  toolType : d.requires "tool_type" fun v => (toolTypeOf json v).isSome
  parameters : d.allows "parameters" (acceptsParameters json)
  version : d.requires "version" (specVersion env).accepts
  timeoutSeconds : d.allows "timeout_seconds" (acceptsInt 1 3600)
  maxRetries : d.allows "max_retries" (acceptsInt 0 10)
  costPerCallUsd : d.allows "cost_per_call_usd" acceptsFloat
  requiresApproval : d.allows "requires_approval" acceptsBool
  tags : d.allows "tags" acceptsTags
  createdAt : d.allows "created_at" (acceptsDatetime env json)
  updatedAt : d.allows "updated_at" (acceptsDatetime env json)

/-- The payload should make a `ToolSpec`. -/
structure Valid (env : Environment) (json : Bool) (d : Items) : Prop where
  fields : FieldsHold env json d
  names : (parameterNames json d).Nodup
  defaults : ∀ v ∈ parametersOf d, hasTypedDefault json v
  url : (d.field "tool_type").bind (toolTypeOf json) = some .apiCall → "url" ∈ parameterNames json d
  query : (d.field "tool_type").bind (toolTypeOf json) = some .databaseQuery →
    "query" ∈ parameterNames json d

/-! ## What the validators accept -/

/-- The validation raises nothing, and what is accepted has a value. -/
structure Checks {α : Type} (validate : Value → Result α) (accepts : Value → Bool) : Prop where
  exception : ∀ v, (validate v).exception = none
  isOk : ∀ v, accepts v → (validate v).isOk

/-- Each value is taken, or it is not accepted and there are errors. -/
theorem checks_of_cases {α : Type} {validate : Value → Result α} {accepts : Value → Bool}
    (h : ∀ v, (∃ a, validate v = .ok a) ∨
      (accepts v = false ∧ ∃ errors, validate v = .invalid errors)) : Checks validate accepts where
  exception v := by
    rcases h v with ⟨a, hv⟩ | ⟨-, errors, hv⟩
    · rw [hv]
      rfl
    · rw [hv]
      rfl
  isOk v hv := by
    rcases h v with ⟨a, hok⟩ | ⟨hnot, -⟩
    · rw [hok]
      rfl
    · rw [hnot] at hv
      cases hv

theorem validate_str (f : StrField) (s : String) : f.validate (.str s) = .ok s ∨
    (f.accepts (.str s) = false ∧ ∃ errors, f.validate (.str s) = .invalid errors) := by
  have haccepts : f.accepts (.str s) = (decide (f.minLength ≤ s.length) &&
      f.maxLength.all (fun most => s.length ≤ most) &&
      f.pattern.all fun r => r.search s.toList) := rfl
  have hvalidate : f.validate (.str s) =
      if s.length < f.minLength then fail .stringTooShort
      else if f.maxLength.any fun most => most < s.length then fail .stringTooLong
      else if f.pattern.any fun r => !r.search s.toList then fail .stringPatternMismatch
      else .ok s := rfl
  rw [haccepts, hvalidate]
  split_ifs with hleast hlong hmatch
  · exact .inr ⟨by simp [Nat.not_le_of_lt hleast], _, rfl⟩
  · obtain ⟨most, hmost, hlt⟩ := (Option.any_eq_true _ _).mp hlong
    exact .inr ⟨by simp [hmost, Nat.not_le_of_lt (of_decide_eq_true hlt)], _, rfl⟩
  · obtain ⟨r, hr, hsearch⟩ := (Option.any_eq_true _ _).mp hmatch
    exact .inr ⟨by simp [hr, (Bool.not_eq_true' _).mp hsearch], _, rfl⟩
  · exact .inl rfl

theorem checks_validate (f : StrField) : Checks f.validate f.accepts :=
  checks_of_cases fun v => by
    cases v with
    | str s => exact (validate_str f s).imp_left fun h => ⟨s, h⟩
    | _ => exact .inr ⟨rfl, _, rfl⟩

/-- A `str` with a validator after it. -/
theorem checks_validate_andThen {f : StrField} {g : String → Result String} {p : String → Bool}
    (h : ∀ s, (∃ t, g s = .ok t) ∨ (p s = false ∧ ∃ errors, g s = .invalid errors)) :
    Checks (fun v => (f.validate v).andThen g) (f.acceptsWith p) :=
  checks_of_cases fun v => by
    cases v with
    | str s =>
      have hwith : f.acceptsWith p (.str s) = (f.accepts (.str s) && p s) := rfl
      rcases validate_str f s with hs | ⟨hnot, errors, hs⟩
      · rw [hs, hwith]
        exact (h s).imp_right fun hp => ⟨by rw [hp.1, Bool.and_false], hp.2⟩
      · rw [hs, hwith, hnot]
        exact .inr ⟨rfl, _, rfl⟩
    | _ => exact .inr ⟨rfl, _, rfl⟩

theorem checks_validateInt (ge le : ℤ) : Checks (validateInt ge le) (acceptsInt ge le) :=
  checks_of_cases fun v => by
    cases v with
    | int i =>
      unfold validateInt acceptsInt
      simp only
      split_ifs with hle hge
      · exact .inr ⟨by simp [Int.not_le.mpr hle], _, rfl⟩
      · exact .inr ⟨by simp [Int.not_le.mpr hge], _, rfl⟩
      · exact .inl ⟨i, rfl⟩
    | _ => exact .inr ⟨rfl, _, rfl⟩

/-- A NaN may pass without being accepted. -/
theorem checks_validateFloat (env : Environment) : Checks (validateFloat env) acceptsFloat :=
  checks_of_cases fun v => by
    cases v with
    | int i =>
      unfold validateFloat acceptsFloat
      simp only
      split_ifs with hneg
      · exact .inr ⟨by simp [Int.not_le.mpr hneg], _, rfl⟩
      · exact .inl ⟨_, rfl⟩
    | float x =>
      unfold validateFloat
      simp only
      split_ifs with hge
      · exact .inl ⟨_, rfl⟩
      · refine .inr ⟨?_, _, rfl⟩
        cases x with
        | nan => rfl
        | finite q => exact Bool.eq_false_iff.mpr hge
        | infinity negative => exact Bool.eq_false_iff.mpr hge
    | _ => exact .inr ⟨rfl, _, rfl⟩

theorem checks_validateBool : Checks validateBool acceptsBool :=
  checks_of_cases fun v => by
    cases v with
    | bool b => exact .inl ⟨b, rfl⟩
    | _ => exact .inr ⟨rfl, _, rfl⟩

theorem checks_validateDict : Checks validateDict acceptsDict :=
  checks_of_cases fun v => by
    cases v with
    | null => exact .inl ⟨_, rfl⟩
    | dict d =>
      unfold validateDict acceptsDict
      simp only
      cases hfilter : d.filter fun item => !isText item.1 with
      | nil => exact .inl ⟨_, rfl⟩
      | cons item items =>
        refine .inr ⟨?_, _, rfl⟩
        have hmem : item ∈ d.filter fun item => !isText item.1 := hfilter ▸ List.mem_cons_self
        obtain ⟨hmem, hnot⟩ := List.mem_filter.mp hmem
        rw [List.all_eq_false]
        exact ⟨item, hmem, by simpa using hnot⟩
    | _ => exact .inr ⟨rfl, _, rfl⟩

theorem checks_validateToolType (json : Bool) :
    Checks (validateToolType json) fun v => (toolTypeOf json v).isSome :=
  checks_of_cases fun v => by
    cases v with
    | member t => exact .inl ⟨_, rfl⟩
    | str s =>
      unfold validateToolType toolTypeOf
      cases json with
      | false => exact .inr ⟨rfl, _, rfl⟩
      | true =>
        simp only [if_true]
        cases ToolType.ofValue s with
        | none => exact .inr ⟨rfl, _, rfl⟩
        | some t => exact .inl ⟨_, rfl⟩
    | _ => cases json <;> exact .inr ⟨rfl, _, rfl⟩

theorem checks_validateDatetime (env : Environment) (json : Bool) :
    Checks (validateDatetime env json) (acceptsDatetime env json) :=
  checks_of_cases fun v => by
    cases v with
    | datetime id => exact .inl ⟨id, rfl⟩
    | str s =>
      unfold validateDatetime acceptsDatetime
      cases json with
      | false => exact .inr ⟨rfl, _, rfl⟩
      | true =>
        simp only [if_true, Bool.true_and]
        cases env.readDatetime s with
        | none => exact .inr ⟨rfl, _, rfl⟩
        | some id => exact .inl ⟨id, rfl⟩
    | _ => exact .inr ⟨rfl, _, rfl⟩

end ToolContracts

end MultiAgent
