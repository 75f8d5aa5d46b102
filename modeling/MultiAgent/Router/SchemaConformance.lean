import MultiAgent.Router.SchemaValidator

/-!
# What the schema validator overlooks

`validate_schema` against the data that conforms to the schema : every field that is required is
there, every field that is there has its type, and so on below every field with an object and
`properties` (`Conforms`).

The validator looks below a field only if its type is `object`, it takes `True` and `False` for
integers and numbers, and it does not know the type `null`; for a schema with no properties at
all its measure of complexity divides by zero. So it reports an error exactly for data that does
not conform, if and only if there are properties and whatever it overlooks comes together with
something that it does not (`validationErrors_iff`).
-/

namespace MultiAgent

namespace Router

/-- A schema and the value that is there for it, in the data or below a field whose type
satisfies `follow`. -/
inductive Occurs (follow : Option String → Prop) :
    Properties → Items → Schema → Option PyValue → Prop
  | head {name s rest d} : Occurs follow ((name, s) :: rest) d s (d.field name)
  | inside {name s rest d properties d' s' v} (hvalue : d.field name = some (.obj d'))
      (hproperties : s.properties = some properties) (hfollow : follow s.type)
      (hin : Occurs follow properties d' s' v) : Occurs follow ((name, s) :: rest) d s' v
  | tail {p rest d s v} (h : Occurs follow rest d s v) : Occurs follow (p :: rest) d s v

/-- The types below which `_validate_data` looks. -/
def IsObject (type : Option String) : Prop :=
  type = some "object"

/-- What the types of JSON are. -/
def jsonType : String → Option (PyValue → Bool)
  | "null" => some fun v => match v with | .null => true | _ => false
  | "string" => some fun v => match v with | .str _ => true | _ => false
  | "integer" => some fun v => match v with | .int _ => true | _ => false
  | "number" => some fun v => match v with | .int _ => true | .float _ => true | _ => false
  | "boolean" => some fun v => match v with | .bool _ => true | _ => false
  | "array" => some fun v => match v with | .arr _ => true | _ => false
  | "object" => some fun v => match v with | .obj _ => true | _ => false
  | _ => none

/-- The value has the type, if that is one of JSON. -/
def hasType (type : Option String) (value : PyValue) : Bool :=
  match type.bind jsonType with
  | some ofType => ofType value
  | none => true

/-- What is there for a schema is as the schema has it. -/
def Fits (s : Schema) : Option PyValue → Prop
  | some value => hasType s.type value = true
  | none => s.required = false

/-- The data conforms to the schema. -/
def Conforms (schema : Schema) (data : Items) : Prop :=
  ∀ s v, Occurs (fun _ => True) (schema.properties.getD []) data s v → Fits s v

/-- The values that `_validate_type` takes for values of the type. -/
def OverlooksType (type : Option String) (value : PyValue) : Prop :=
  (type = some "integer" ∨ type = some "number") ∧ (∃ b, value = .bool b) ∨
    type = some "null" ∧ value ≠ .null

/-- What `_validate_data` takes for what fits. -/
def Accepts (s : Schema) (v : Option PyValue) : Prop :=
  Fits s v ∨ ∃ value, v = some value ∧ OverlooksType s.type value

/-- What stands below a field with properties whose type is not `object`. -/
def Hidden (properties : Properties) (data : Items) (s : Schema) (v : Option PyValue) : Prop :=
  ∃ field inner d, Occurs IsObject properties data field (some (.obj d)) ∧
    field.properties = some inner ∧ ¬IsObject field.type ∧ Occurs (fun _ => True) inner d s v

/-- Something is wrong that the validator overlooks : the type of a value that it looks at, or
anything that is hidden. -/
def WrongOverlooked (schema : Schema) (data : Items) : Prop :=
  (∃ s value, Occurs IsObject (schema.properties.getD []) data s (some value) ∧
      OverlooksType s.type value) ∨
    ∃ s v, Hidden (schema.properties.getD []) data s v ∧ ¬Fits s v

/-- Something is wrong that the validator does not overlook. -/
def WrongNoticed (schema : Schema) (data : Items) : Prop :=
  ∃ s v, Occurs IsObject (schema.properties.getD []) data s v ∧ ¬Fits s v ∧
    ∀ value, v = some value → ¬OverlooksType s.type value

/-! ## Types -/

/-- A name is that of a type, or no table has it. -/
theorem typeName_cases (t : String) :
    t ∈ ["null", "string", "integer", "number", "boolean", "array", "object"] ∨
      typeMapping t = none ∧ jsonType t = none := by
  by_cases h : t ∈ ["null", "string", "integer", "number", "boolean", "array", "object"]
  · exact Or.inl h
  · simp only [List.mem_cons, List.not_mem_nil, or_false, not_or] at h
    obtain ⟨hnull, hstring, hinteger, hnumber, hboolean, harray, hobject⟩ := h
    refine Or.inr ⟨?_, ?_⟩
    · unfold typeMapping
      split <;> first | rfl | contradiction
    · unfold jsonType
      split <;> first | rfl | contradiction

/-- Of a number a boolean is taken, and otherwise what has the type. -/
theorem validateType_number {t : String} (h : t = "integer" ∨ t = "number") {value : PyValue} :
    validateType value t = true ↔ hasType (some t) value = true ∨ ∃ b, value = .bool b := by
  rcases h with rfl | rfl
  all_goals
    cases value with
    | bool b => exact iff_of_true rfl (.inr ⟨b, rfl⟩)
    | _ => exact ⟨.inl, fun h => h.resolve_right fun ⟨_, hb⟩ => by cases hb⟩

/-- Of the other types but `null` just what has the type is taken. -/
theorem validateType_eq {t : String}
    (h : t = "string" ∨ t = "boolean" ∨ t = "array" ∨ t = "object") (value : PyValue) :
    validateType value t = hasType (some t) value := by
  rcases h with rfl | rfl | rfl | rfl <;> cases value <;> rfl

/-- The type test passes what has the type, and what it overlooks. -/
theorem validateType_iff {t : String} {value : PyValue} :
    validateType value t = true ↔
      hasType (some t) value = true ∨ OverlooksType (some t) value := by
  rcases typeName_cases t with h | ⟨hmapping, hjson⟩
  · by_cases hnumber : t = "integer" ∨ t = "number"
    · have hoverlooks : OverlooksType (some t) value ↔ ∃ b, value = .bool b := by
        unfold OverlooksType
        rcases hnumber with rfl | rfl <;> simp
      rw [validateType_number hnumber, hoverlooks]
    · by_cases hnull : t = "null"
      · subst hnull
        refine iff_of_true rfl ?_
        cases value with
        | null => exact .inl rfl
        | _ => exact .inr (.inr ⟨rfl, fun h => by cases h⟩)
      · have hother : t = "string" ∨ t = "boolean" ∨ t = "array" ∨ t = "object" := by
          simp only [List.mem_cons, List.not_mem_nil, or_false] at h
          tauto
        have hoverlooks : ¬OverlooksType (some t) value := by
          simp [OverlooksType, hnull, not_or.mp hnumber]
        rw [validateType_eq hother, or_iff_left hoverlooks]
  · exact iff_of_true (by simp [validateType, hmapping]) (Or.inl (by simp [hasType, hjson]))

theorem typeErrors_eq_nil {type : Option String} {path : String} {value : PyValue} :
    typeErrors (type.getD "") path value = [] ↔
      hasType type value = true ∨ OverlooksType type value := by
  cases type with
  | none => exact iff_of_true rfl (Or.inl rfl)
  | some t =>
    rw [← validateType_iff, Option.getD_some, typeErrors]
    by_cases hempty : t = ""
    · subst hempty
      exact iff_of_true rfl rfl
    · split_ifs with h <;> simpa [hempty] using h

theorem OverlooksType.not_hasType {type : Option String} {value : PyValue}
    (h : OverlooksType type value) : ¬hasType type value = true := by
  rcases h with ⟨rfl | rfl, b, rfl⟩ | ⟨rfl, hne⟩
  · exact Bool.false_ne_true
  · exact Bool.false_ne_true
  · cases value with
    | null => exact absurd rfl hne
    | _ => exact Bool.false_ne_true

theorem not_accepts {s : Schema} {v : Option PyValue} :
    ¬Accepts s v ↔ ¬Fits s v ∧ ∀ value, v = some value → ¬OverlooksType s.type value := by
  simp only [Accepts, not_or, not_exists, not_and]

/-! ## What occurs -/

variable {follow : Option String → Prop} {properties rest : Properties} {data d : Items}
  {s s' : Schema} {v : Option PyValue}

theorem Occurs.mono {follow' : Option String → Prop} (h : Occurs follow properties data s v)
    (himp : ∀ type, follow type → follow' type) : Occurs follow' properties data s v := by
  induction h with
  | head => exact .head
  | inside hvalue hproperties hfollow _ ih => exact .inside hvalue hproperties (himp _ hfollow) ih
  | tail _ ih => exact .tail ih

/-- What occurs below something that occurs. -/
theorem Occurs.below_of {field : Schema} {inner : Properties}
    (h : Occurs (fun _ => True) properties data field v) (hv : v = some (.obj d))
    (hinner : field.properties = some inner) {v' : Option PyValue}
    (hin : Occurs (fun _ => True) inner d s v') :
    Occurs (fun _ => True) properties data s v' := by
  induction h with
  | head => exact .inside hv hinner trivial hin
  | inside hvalue hproperties hfollow _ ih =>
    exact .inside hvalue hproperties hfollow (ih hv hinner)
  | tail _ ih => exact .tail (ih hv hinner)

/-- The validator looks at what occurs, or it is hidden. -/
theorem occurs_iff : Occurs (fun _ => True) properties data s v ↔
    Occurs IsObject properties data s v ∨ Hidden properties data s v := by
  constructor
  · intro h
    induction h with
    | head => exact Or.inl .head
    | @inside name field rest d properties d' s' v hvalue hproperties _ hin ih =>
      by_cases hobject : IsObject field.type
      · rcases ih with h | ⟨field', inner, d'', h, hrest⟩
        · exact Or.inl (.inside hvalue hproperties hobject h)
        · exact Or.inr ⟨field', inner, d'', .inside hvalue hproperties hobject h, hrest⟩
      · exact Or.inr ⟨field, properties, d', hvalue ▸ .head, hproperties, hobject, hin⟩
    | tail _ ih =>
      rcases ih with h | ⟨field', inner, d'', h, hrest⟩
      · exact Or.inl h.tail
      · exact Or.inr ⟨field', inner, d'', h.tail, hrest⟩
  · rintro (h | ⟨field, inner, d', h, hinner, _, hin⟩)
    · exact h.mono fun _ _ => trivial
    · exact (h.mono fun _ _ => trivial).below_of rfl hinner hin

/-- What holds of everything that occurs, field by field. -/
theorem forall_occurs_cons {name : String} {P : Schema → Option PyValue → Prop} :
    (∀ s' v, Occurs follow ((name, s) :: rest) data s' v → P s' v) ↔
      P s (data.field name) ∧
      (∀ inner d', data.field name = some (.obj d') → s.properties = some inner → follow s.type →
        ∀ s' v, Occurs follow inner d' s' v → P s' v) ∧
      ∀ s' v, Occurs follow rest data s' v → P s' v := by
  constructor
  · intro h
    exact ⟨h _ _ .head, fun inner d' hvalue hproperties hfollow s' v hin =>
      h s' v (.inside hvalue hproperties hfollow hin), fun s' v hrest => h s' v hrest.tail⟩
  · rintro ⟨hhead, hinside, htail⟩ s' v h
    cases h with
    | head => exact hhead
    | inside hvalue hproperties hfollow hin => exact hinside _ _ hvalue hproperties hfollow _ _ hin
    | tail h => exact htail s' v h

/-! ## The errors -/

theorem validateField_eq_nil_iff {name path : String} (data : Items) :
    validateField s name (.obj data) path = .ok [] ↔
      Accepts s (data.field name) ∧
      ∀ inner d', data.field name = some (.obj d') → s.properties = some inner →
        IsObject s.type → validateData inner (.obj d') path = .ok [] := by
  obtain ⟨type, required, properties⟩ := s
  cases hvalue : data.field name with
  | none =>
    rw [validateField_of_none hvalue]
    cases required <;> simp [Accepts, Fits, Schema.required]
  | some value =>
    rw [validateField_eq_nil hvalue, typeErrors_eq_nil]
    have haccepts : Accepts (.mk type required properties) (some value) ↔
        hasType type value = true ∨ OverlooksType type value := by
      simp [Accepts, Fits, Schema.type]
    rw [haccepts]
    refine and_congr_right fun htype => ?_
    constructor
    · intro h inner d' hd' hinner hobject
      obtain rfl := Option.some.inj hd'
      exact h inner hinner (by rw [show type = some "object" from hobject]; rfl)
    · intro h inner hinner hgetD
      have hobject : type = some "object" := by
        cases type with
        | none => simp at hgetD
        | some t => rw [← hgetD]; rfl
      subst hobject
      cases value with
      | obj d' => exact h inner d' rfl hinner rfl
      | _ => simp [hasType, jsonType, OverlooksType] at htype

/-- No error is reported for a dictionary if and only if everything that is looked at is
accepted. -/
theorem validateData_eq_nil_iff : ∀ (properties : Properties) (data : Items) (path : String),
    validateData properties (.obj data) path = .ok [] ↔
      ∀ s v, Occurs IsObject properties data s v → Accepts s v
  | [], data, path => by
    rw [validateData]
    exact iff_of_true rfl fun s v h => by cases h
  | (name, .mk type required inner) :: rest, data, path => by
    rw [validateData_cons_eq_nil, validateField_eq_nil_iff, forall_occurs_cons,
      validateData_eq_nil_iff rest data path, and_assoc]
    refine and_congr_right fun _ => and_congr_left fun _ => ?_
    constructor
    · intro h properties d' hvalue hinner hobject
      exact (validateData_eq_nil_iff properties d' _).mp (h properties d' hvalue hinner hobject)
    · intro h properties d' hvalue hinner hobject
      exact (validateData_eq_nil_iff properties d' _).mpr (h properties d' hvalue hinner hobject)

/-- `validate_schema` reports no error if and only if there are properties, or none are given,
and everything that is looked at is accepted. -/
theorem validationErrors_eq_nil_iff (text : PyError ⊕ ArithmeticError → String)
    (schema : Schema) (data : Items) :
    (validateSchema text schema data).validationErrors = [] ↔
      schema.properties ≠ some [] ∧
        ∀ s v, Occurs IsObject (schema.properties.getD []) data s v → Accepts s v := by
  rw [← validateData_eq_nil_iff _ data ""]
  have hcomplexity : ∀ e, calculateSchemaComplexity schema = .error e ↔
      schema.properties = some [] := by
    intro e
    unfold calculateSchemaComplexity
    split <;> simp_all
  unfold validateSchema
  cases hdata : validateData (schema.properties.getD []) (.obj data) "" with
  | error e => simp
  | ok errors =>
    cases hresult : calculateSchemaComplexity schema with
    | error e => simp [(hcomplexity e).mp hresult]
    | ok complexity =>
      have hne : schema.properties ≠ some [] := by
        intro heq
        have herror := (hcomplexity .zeroDivision).mpr heq
        rw [hresult] at herror
        cases herror
      simp [hne]

/-- No error is reported exactly for data that conforms, if and only if the schema is not one
with no properties at all, and what is overlooked does not stand alone. -/
theorem validationErrors_iff (text : PyError ⊕ ArithmeticError → String) (schema : Schema)
    (data : Items) :
    ((validateSchema text schema data).validationErrors = [] ↔ Conforms schema data) ↔
      schema.properties ≠ some [] ∧
        (WrongOverlooked schema data → WrongNoticed schema data) := by
  rw [validationErrors_eq_nil_iff]
  constructor
  · intro h
    have hne : schema.properties ≠ some [] := by
      intro heq
      refine (h.mpr fun s v hoccurs => ?_).1 heq
      rw [heq] at hoccurs
      cases hoccurs
    refine ⟨hne, fun hwrong => ?_⟩
    by_contra hnone
    have hconforms := h.mp ⟨hne, fun s v hoccurs => by
      by_contra hnot
      exact hnone ⟨s, v, hoccurs, not_accepts.mp hnot⟩⟩
    rcases hwrong with ⟨s, value, hoccurs, hoverlooks⟩ | ⟨s, v, hhidden, hnot⟩
    · exact hoverlooks.not_hasType (hconforms s _ (occurs_iff.2 (Or.inl hoccurs)))
    · exact hnot (hconforms s v (occurs_iff.2 (Or.inr hhidden)))
  · rintro ⟨hne, himp⟩
    constructor
    · rintro ⟨-, haccepts⟩ s v hoccurs
      by_contra hnot
      have hwrong : WrongOverlooked schema data := by
        rcases occurs_iff.1 hoccurs with hvisible | hhidden
        · obtain ⟨value, rfl, hoverlooks⟩ := (haccepts s v hvisible).resolve_left hnot
          exact Or.inl ⟨s, value, hvisible, hoverlooks⟩
        · exact Or.inr ⟨s, v, hhidden, hnot⟩
      obtain ⟨s', v', hoccurs', hwrong'⟩ := himp hwrong
      exact not_accepts.mpr hwrong' (haccepts s' v' hoccurs')
    · intro hconforms
      exact ⟨hne, fun s v hoccurs =>
        Or.inl (hconforms s v (occurs_iff.2 (Or.inl hoccurs)))⟩

/-- `True` is no integer, and no error is reported. -/
theorem not_validationErrors :
    let schema : Schema := .mk none false (some [("n", .mk (some "integer") true none)])
    let data : Items := [(.str "n", .bool true)]
    ¬((validateSchema (fun _ => "") schema data).validationErrors = [] ↔
      Conforms schema data) := by
  intro schema data h
  have hfits : Fits (.mk (some "integer") true none) (some (.bool true)) :=
    h.mp rfl _ _ .head
  exact absurd hfits Bool.false_ne_true

end Router

end MultiAgent
