import MultiAgent.Contracts.ToolSpecPayloads
import MultiAgent.Lib.Fallible

/-!
# The construction of tool specifications

No payload makes a `ToolSpec` (`construct_ne_ok`). The last statement of
`validate_tool_consistency` raises for every payload that comes to it, since a stored tool type is
a string and the checks before compare it with members. A payload with a default value does not
come to it: the validator of the default value asks a `ValidationInfo` for what only a dictionary
has (`exception_construct_of_valid`). So a payload is treated as it should be exactly if it is not
valid (`construct_iff`).
-/

namespace MultiAgent

namespace ToolContracts

open Validated (exception isOk)

variable {env : Environment} {json : Bool} {d : Items}

/-! ## Fields -/

section Fields

variable {α : Type} {validate : Value → Result α} {accepts : Value → Bool}

theorem exception_required (d : Items) (key : String) (validate : Value → Result α) :
    (required d key validate).exception = (d.field key).bind fun v => (validate v).exception := by
  unfold required within fail
  cases d.field key with
  | none => rfl
  | some v => exact Validated.exception_mapErrors _ _

theorem exception_optional (d : Items) (key : String) (default : α)
    (validate : Value → Result α) :
    (optional d key default validate).exception =
      (d.field key).bind fun v => (validate v).exception := by
  unfold optional within
  cases d.field key with
  | none => rfl
  | some v => exact Validated.exception_mapErrors _ _

theorem Checks.exception_required (h : Checks validate accepts) (key : String) :
    (required d key validate).exception = none := by
  rw [ToolContracts.exception_required]
  cases d.field key with
  | none => rfl
  | some v => exact h.exception v

theorem Checks.exception_optional (h : Checks validate accepts) (key : String) (default : α) :
    (optional d key default validate).exception = none := by
  rw [ToolContracts.exception_optional]
  cases d.field key with
  | none => rfl
  | some v => exact h.exception v

theorem Checks.isOk_required (h : Checks validate accepts) {key : String}
    (hd : d.requires key accepts) : (required d key validate).isOk := by
  obtain ⟨v, hv, haccepts⟩ := (Option.any_eq_true _ _).mp hd
  unfold required within
  simp only [hv]
  rw [Validated.isOk_mapErrors]
  exact h.isOk v haccepts

theorem Checks.isOk_optional (h : Checks validate accepts) {key : String} {default : α}
    (hd : d.allows key accepts) : (optional d key default validate).isOk := by
  unfold Items.allows at hd
  unfold optional within
  cases hv : d.field key with
  | none => rfl
  | some v =>
    rw [hv] at hd
    simp only
    rw [Validated.isOk_mapErrors]
    exact h.isOk v hd

end Fields

/-! ## Tags -/

theorem tagError_eq_none : ∀ {tags : List String} (i : ℕ),
    (∀ tag ∈ tags, strip tag ≠ "" ∧ tag.length ≤ 30) → tagError i tags = none
  | [], _, _ => rfl
  | tag :: tags, i, h => by
    obtain ⟨hblank, hlong⟩ := h tag List.mem_cons_self
    rw [tagError, if_neg hblank, if_neg (Nat.not_lt.mpr hlong)]
    exact tagError_eq_none (i + 1) fun tag' htag => h tag' (List.mem_cons_of_mem tag htag)

theorem exception_validateTags (tags : List String) : (validateTags tags).exception = none := by
  unfold validateTags
  cases tagError 0 tags <;> rfl

theorem checks_tags : Checks
    (fun v => (validateList (StrField.validate {}) v).andThen validateTags) acceptsTags where
  exception v := by
    rw [Validated.exception_andThen_of_none _ exception_validateTags]
    cases v with
    | list l =>
      have hnone : ∀ i v, (within (.index i) (StrField.validate {} v)).exception = none :=
        fun i v => (Validated.exception_mapErrors _ _).trans ((checks_validate {}).exception v)
      exact (Validated.exception_forEach _ (fun _ => none) hnone l 0).trans
        (List.findSome?_eq_none_iff.mpr fun _ _ => rfl)
    | _ => rfl
  isOk v h := by
    cases v with
    | list l =>
      have hall := List.all_eq_true.mp h
      obtain ⟨tags, htags, hforall⟩ := Validated.exists_forEach_eq_ok
        (f := fun i v => within (.index i) (StrField.validate {} v))
        (R := fun _ tag => strip tag ≠ "" ∧ tag.length ≤ 30) (l := l) 0 fun i v hv => by
          have haccepts := hall v hv
          cases v with
          | str s =>
            have hwith : (StrField.accepts {} (.str s) &&
                (decide (strip s ≠ "") && decide (s.length ≤ 30))) = true := haccepts
            rw [Bool.and_eq_true, Bool.and_eq_true, decide_eq_true_eq, decide_eq_true_eq] at hwith
            exact ⟨s, rfl, hwith.2⟩
          | _ => cases haccepts
      have hnone : tagError 0 tags = none := tagError_eq_none 0 fun tag htag => by
        obtain ⟨_, -, hp⟩ := Fallible.exists_of_forall₂ hforall.flip htag
        exact hp
      have hlist : validateList (StrField.validate {}) (.list l) = .ok tags := htags
      have htagged : validateTags tags = .ok (tags.map strip) := by
        unfold validateTags
        rw [hnone]
      rw [hlist]
      change (validateTags tags).isOk = true
      rw [htagged]
      rfl
    | _ => cases h

/-! ## Parameters -/

/-- An object with a default value that is not null. -/
def givesDefault (json : Bool) : Value → Bool
  | .dict d =>
    json && match Items.field d "default_value" with
      | none | some .null => false
      | some _ => true
  | _ => false

/-- A `ValidationInfo` has no `get`. -/
theorem exception_validateDefaultValue (v : Value) :
    (validateDefaultValue .info v).exception =
      match v with
      | .null => none
      | _ => some (.attributeError "get") := by
  cases v <;> rfl

theorem exception_validateToolParameter (d : Items) :
    (validateToolParameter d).exception =
      (d.field "default_value").bind fun v => (validateDefaultValue .info v).exception := by
  unfold validateToolParameter
  simp only [Validated.exception_seq, Validated.exception_map,
    (checks_validate _).exception_required, checks_validateBool.exception_optional,
    checks_validateDict.exception_optional, exception_optional, Option.none_or, Option.or_none]

theorem exception_validateParameter (json : Bool) (v : Value) :
    (validateParameter json v).exception =
      if givesDefault json v then some (.attributeError "get") else none := by
  cases v with
  | dict d =>
    unfold validateParameter givesDefault
    cases json with
    | false => rfl
    | true =>
      simp only [if_true, Bool.true_and, exception_validateToolParameter,
        exception_validateDefaultValue]
      cases Items.field d "default_value" with
      | none => rfl
      | some v => cases v <;> rfl
  | _ => rfl

theorem exception_validateParameters (parameters : List ToolParameter) :
    (validateParameters parameters).exception = none := by
  unfold validateParameters
  split_ifs <;> rfl

/-- The field raises if some parameter is an object with a default value. -/
theorem exception_parameters (json : Bool) (d : Items) :
    (optional d "parameters" [] fun v =>
      (validateList (validateParameter json) v).andThen validateParameters).exception =
        if (parametersOf d).any (givesDefault json) then some (.attributeError "get")
        else none := by
  have hlist : ∀ l : List Value, (validateList (validateParameter json) (.list l)).exception =
      if l.any (givesDefault json) then some (.attributeError "get") else none := by
    intro l
    have heach : ∀ i v, (within (.index i) (validateParameter json v)).exception =
        if givesDefault json v then some (.attributeError "get") else none := fun i v =>
      (Validated.exception_mapErrors _ _).trans (exception_validateParameter json v)
    refine (Validated.exception_forEach _ _ heach l 0).trans ?_
    induction l with
    | nil => rfl
    | cons v l ih =>
      rw [List.findSome?_cons, List.any_cons, ih]
      cases givesDefault json v <;> rfl
  rw [exception_optional]
  unfold parametersOf
  cases d.field "parameters" with
  | none => rfl
  | some v =>
    simp only [Option.bind_some,
      Validated.exception_andThen_of_none _ exception_validateParameters]
    cases v with
    | list l => exact hlist l
    | _ => rfl

/-- A `str` that meets its constraints is there. -/
theorem required_validate {f : StrField} {key : String} (h : d.requires key f.accepts) :
    ∃ s, d.field key = some (.str s) ∧ required d key f.validate = .ok s := by
  obtain ⟨v, hv, haccepts⟩ := (Option.any_eq_true _ _).mp h
  cases v with
  | str s =>
    have hok : f.validate (.str s) = .ok s := (validate_str f s).resolve_right fun hnot => by
      rw [hnot.1] at haccepts
      cases haccepts
    refine ⟨s, hv, ?_⟩
    unfold required within
    simp only [hv, hok]
    rfl
  | _ => cases haccepts

/-- Without a default value nothing asks the `ValidationInfo`. -/
theorem optional_validateDefaultValue (h : givesDefault true (.dict d) = false) :
    optional d "default_value" .null (validateDefaultValue .info) = .ok .null := by
  unfold givesDefault at h
  unfold optional within
  cases hv : Items.field d "default_value" with
  | none => rfl
  | some v =>
    simp only [hv, Bool.true_and] at h ⊢
    cases v with
    | null => rfl
    | _ => cases h

/-- A parameter that meets its constraints has its name. -/
theorem validateParameter_of_accepts {v : Value} (h : acceptsParameter json v)
    (hdefault : givesDefault json v = false) :
    ∃ p, validateParameter json v = .ok p ∧ nameOf json v = some p.name := by
  cases v with
  | parameter name type description required defaultValue constraints =>
    exact ⟨{ name, type, description, required, defaultValue, constraints }, rfl, rfl⟩
  | dict d =>
    cases json with
    | false => cases h
    | true =>
      have hfields : (Items.requires d "name" parameterName.accepts &&
          Items.requires d "type" parameterType.accepts &&
          Items.requires d "description" parameterDescription.accepts &&
          Items.allows d "required" acceptsBool &&
          Items.allows d "constraints" acceptsDict) = true := h
      simp only [Bool.and_eq_true] at hfields
      obtain ⟨⟨⟨⟨hname, htype⟩, hdescription⟩, hrequired⟩, hconstraints⟩ := hfields
      obtain ⟨name, hlookup, hname⟩ := required_validate hname
      obtain ⟨type, -, htype⟩ := required_validate htype
      obtain ⟨description, -, hdescription⟩ := required_validate hdescription
      have hbool : (optional d "required" false validateBool).isOk :=
        checks_validateBool.isOk_optional hrequired
      have hdict : (optional d "constraints" .null validateDict).isOk :=
        checks_validateDict.isOk_optional hconstraints
      obtain ⟨b, hbool⟩ := Validated.exists_of_isOk hbool
      obtain ⟨constraints, hdict⟩ := Validated.exists_of_isOk hdict
      refine ⟨⟨name, type, description, b, .null, constraints⟩, ?_, ?_⟩
      · change validateToolParameter d = _
        unfold validateToolParameter
        rw [hname, htype, hdescription, hbool, optional_validateDefaultValue hdefault, hdict]
        rfl
      · unfold nameOf parameterItems
        simp only [if_true, Option.bind_some, hlookup]
  | _ => cases h

theorem filterMap_nameOf {l : List Value} {ps : List ToolParameter}
    (h : List.Forall₂ (fun v p => nameOf json v = some p.name) l ps) :
    l.filterMap (nameOf json) = ps.map ToolParameter.name := by
  induction h with
  | nil => rfl
  | cons hname _ ih => rw [List.filterMap_cons_some hname, List.map_cons, ih]

theorem isOk_parameters (h : d.allows "parameters" (acceptsParameters json))
    (hnames : (parameterNames json d).Nodup)
    (hdefault : (parametersOf d).any (givesDefault json) = false) :
    (optional d "parameters" [] fun v =>
      (validateList (validateParameter json) v).andThen validateParameters).isOk := by
  unfold Items.allows at h
  unfold parameterNames at hnames
  unfold parametersOf at hnames hdefault
  unfold optional within
  cases hv : d.field "parameters" with
  | none => rfl
  | some v =>
    simp only [hv, Option.all_some] at h hnames hdefault ⊢
    rw [Validated.isOk_mapErrors]
    cases v with
    | list l =>
      have hall := List.all_eq_true.mp h
      rw [List.any_eq_false] at hdefault
      obtain ⟨ps, hps, hforall⟩ := Validated.exists_forEach_eq_ok
        (f := fun i v => within (.index i) (validateParameter json v))
        (R := fun v p => nameOf json v = some p.name) (l := l) 0 fun i v hmem => by
          obtain ⟨p, hp, hname⟩ := validateParameter_of_accepts (hall v hmem)
            (Bool.eq_false_iff.mpr (hdefault v hmem))
          exact ⟨p, by rw [hp]; rfl, hname⟩
      have hlist : validateList (validateParameter json) (.list l) = .ok ps := hps
      rw [hlist]
      change (validateParameters ps).isOk = true
      unfold validateParameters
      rw [if_pos (filterMap_nameOf hforall ▸ hnames)]
      rfl
    | _ => cases h

/-! ## Specifications -/

theorem checks_toolId (env : Environment) :
    Checks (fun v => (StrField.validate {} v).andThen (validateToolId env))
      (StrField.acceptsWith {} (isUuid env)) :=
  checks_validate_andThen fun s => by
    unfold validateToolId
    split_ifs with huuid
    · exact .inl ⟨s, rfl⟩
    · exact .inr ⟨Bool.eq_false_iff.mpr huuid, _, rfl⟩

theorem checks_tenantId :
    Checks (fun v => (StrField.validate { minLength := 1 } v).andThen validateTenantId)
      (StrField.acceptsWith { minLength := 1 } fun s => strip s ≠ "") :=
  checks_validate_andThen fun s => by
    unfold validateTenantId
    split_ifs with hblank
    · refine .inr ⟨?_, _, rfl⟩
      have hstrip : strip s = "" := hblank.elim (fun h => by rw [h]; rfl) id
      simp [hstrip]
    · exact .inl ⟨strip s, rfl⟩

/-- Only a default value raises. -/
theorem exception_validateFields (env : Environment) (json : Bool) (d : Items) :
    (validateFields env json d).exception =
      if (parametersOf d).any (givesDefault json) then some (.attributeError "get") else none := by
  rw [← exception_parameters]
  unfold validateFields
  simp only [Validated.exception_seq, Validated.exception_map,
    (checks_toolId env).exception_optional, checks_tenantId.exception_required,
    (checks_validate _).exception_required, (checks_validateToolType json).exception_required,
    (checks_validateInt _ _).exception_optional, (checks_validateFloat env).exception_optional,
    checks_validateBool.exception_optional, checks_tags.exception_optional,
    (checks_validateDatetime env json).exception_optional, Option.none_or, Option.or_none]

/-- Fields that meet their constraints, without a default value among the parameters. -/
theorem isOk_validateFields (h : FieldsHold env json d) (hnames : (parameterNames json d).Nodup)
    (hdefault : (parametersOf d).any (givesDefault json) = false) :
    (validateFields env json d).isOk := by
  unfold validateFields
  simp only [Validated.isOk_seq, Validated.isOk_map,
    (checks_toolId env).isOk_optional h.toolId, checks_tenantId.isOk_required h.tenantId,
    (checks_validate specName).isOk_required h.name,
    (checks_validate specDescription).isOk_required h.description,
    (checks_validateToolType json).isOk_required h.toolType,
    isOk_parameters h.parameters hnames hdefault,
    (checks_validate (specVersion env)).isOk_required h.version,
    (checks_validateInt 1 3600).isOk_optional h.timeoutSeconds,
    (checks_validateInt 0 10).isOk_optional h.maxRetries,
    (checks_validateFloat env).isOk_optional h.costPerCallUsd,
    checks_validateBool.isOk_optional h.requiresApproval, checks_tags.isOk_optional h.tags,
    (checks_validateDatetime env json).isOk_optional h.createdAt,
    (checks_validateDatetime env json).isOk_optional h.updatedAt, Bool.and_true]

/-- A stored tool type is no member, so no parameter is asked for, and the return raises. -/
theorem validateToolConsistency_eq (self : ToolSpec) :
    validateToolConsistency self = .raised (.nameError "values") :=
  rfl

theorem construct_ne_ok (env : Environment) (json : Bool) (d : Items) (spec : ToolSpec) :
    construct env json d ≠ .ok spec := by
  unfold construct
  cases validateFields env json d with
  | ok self =>
    intro h
    cases (validateToolConsistency_eq self).symm.trans h
  | invalid errors => exact fun h => by cases h
  | raised e => exact fun h => by cases h

/-- What is raised for a payload that should make a `ToolSpec`. -/
theorem exception_construct_of_valid (h : Valid env json d) :
    (construct env json d).exception =
      if (parametersOf d).any (givesDefault json) then some (.attributeError "get")
      else some (.nameError "values") := by
  have hraised : ∀ self : ToolSpec,
      (validateToolConsistency self).exception = some (.nameError "values") := fun self => by
    rw [validateToolConsistency_eq]
    rfl
  rw [construct, Validated.exception_andThen _ _ hraised, exception_validateFields]
  by_cases hdefault : (parametersOf d).any (givesDefault json) = true
  · rw [if_pos hdefault, if_pos hdefault]
    rfl
  · have hok := isOk_validateFields h.fields h.names (Bool.eq_false_iff.mpr hdefault)
    rw [if_neg hdefault, if_neg hdefault, if_pos hok]
    rfl

/-- A payload makes a `ToolSpec` exactly if it should, if and only if it should not. If it
should, a default value or the last return raises. -/
theorem construct_iff (env : Environment) (json : Bool) (d : Items) :
    (((∃ spec, construct env json d = .ok spec) ↔ Valid env json d) ↔ ¬Valid env json d) ∧
      (Valid env json d → construct env json d =
        .raised (if (parametersOf d).any (givesDefault json) then .attributeError "get"
          else .nameError "values")) := by
  have hnone : ¬∃ spec, construct env json d = .ok spec := fun ⟨spec, h⟩ =>
    construct_ne_ok env json d spec h
  refine ⟨iff_false_left hnone, fun hvalid => Validated.eq_raised_of_exception ?_⟩
  rw [exception_construct_of_valid hvalid]
  split_ifs <;> rfl

/-- Strings in ASCII, and no times. -/
def asciiEnvironment : Environment :=
  { decimal := fun c => if c.isDigit then some (Fin.ofNat 10 (c.toNat - '0'.toNat)) else none
    readDatetime := fun _ => none
    nanIsGe := false
    newId := "3f2b8c1e-0d4a-4f57-9b6e-2a1c5d7e8f90"
    now := 0 }

/-- A tool of a type, with parameters. -/
def toolPayload (toolType : String) (parameters : List Value) : Items :=
  [(.str "tenant_id", .str "tenant_123"), (.str "name", .str "test_tool"),
    (.str "description", .str "Test tool for validation"), (.str "tool_type", .str toolType),
    (.str "parameters", .list parameters), (.str "version", .str "1.0.0")]

/-- A parameter with a default value. -/
def urlParameter : Value :=
  .dict [(.str "name", .str "url"), (.str "type", .str "string"),
    (.str "description", .str "Where to call"), (.str "default_value", .str "/")]

/-- A call of an API whose parameter has a default value. -/
theorem construct_apiCall :
    construct asciiEnvironment true (toolPayload "api_call" [urlParameter]) =
      .raised (.attributeError "get") := by
  have hfields : FieldsHold asciiEnvironment true (toolPayload "api_call" [urlParameter]) := by
    constructor <;> decide +kernel
  exact (construct_iff asciiEnvironment true (toolPayload "api_call" [urlParameter])).2
    { fields := hfields
      names := by decide +kernel
      defaults := by decide +kernel
      url := by decide +kernel
      query := by decide +kernel }

/-- A calculation without parameters should make a `ToolSpec`, and raises a `NameError`. -/
theorem not_construct :
    construct asciiEnvironment true (toolPayload "calculation" []) =
        .raised (.nameError "values") ∧
      ¬((∃ spec, construct asciiEnvironment true (toolPayload "calculation" []) = .ok spec) ↔
        Valid asciiEnvironment true (toolPayload "calculation" [])) := by
  have hfields : FieldsHold asciiEnvironment true (toolPayload "calculation" []) := by
    constructor <;> decide +kernel
  have hvalid : Valid asciiEnvironment true (toolPayload "calculation" []) :=
    { fields := hfields
      names := by decide +kernel
      defaults := by decide +kernel
      url := by decide +kernel
      query := by decide +kernel }
  have hexception := exception_construct_of_valid hvalid
  have hnone : (parametersOf (toolPayload "calculation" [])).any (givesDefault true) = false := rfl
  rw [hnone, if_neg Bool.false_ne_true] at hexception
  refine ⟨Validated.eq_raised_of_exception hexception, fun hiff => ?_⟩
  obtain ⟨spec, hspec⟩ := hiff.mpr hvalid
  exact construct_ne_ok _ _ _ spec hspec

end ToolContracts

end MultiAgent
