import Mathlib.Data.List.Infix
import Mathlib.Data.List.Sort
import Mathlib.Data.Rat.Init
import MultiAgent.Lib.Splice

/-!
# The privacy middleware

What `PrivacyMiddleware` of `libs/middleware/privacy_middleware.py` makes of the content of
a JSON response. A text is the list of its code points, since `json.loads` also gives lone
surrogates, and a number may be one of those that JSON does not have. An object is the list
of its items.

What the detector finds in a text, what `encrypt_field` answers, `str.lower` and the value
of `DocumentSensitivity.PUBLIC` are given from outside (`PrivacyMiddleware`). A detection
carries the facts that its span is not empty and lies in the text. Redacting is making edits
(`protectString_eq`), and the texts of the protected content are those of the content, its
strings redacted and its keys as they were (`openTexts_protectContent`).
-/

namespace MultiAgent

namespace Privacy

/-- A code point, also of a surrogate. -/
abbrev CodePoint :=
  Fin 0x110000

/-- A `str`. -/
abbrev Text :=
  List CodePoint

/-- The text of a literal. -/
def text (s : String) : Text :=
  s.toList.map fun c => ⟨c.toNat, by
    rcases c.valid with h | h
    · exact Nat.lt_trans h (by decide)
    · exact h.2⟩

/-- A number as `json.loads` gives it, which knows `NaN`, `Infinity` and `-Infinity`. -/
inductive Number
  | finite (q : ℚ)
  | nan
  | infinity (negative : Bool)
  deriving DecidableEq

/-- The content of a response. -/
inductive Content
  | null
  | bool (b : Bool)
  | number (x : Number)
  | string (s : Text)
  | array (items : List Content)
  | object (fields : List (Text × Content))

/-- `PIIType`. -/
inductive PIIType
  | email
  | phone
  | creditCard
  | ssn
  | passport
  | driverLicense
  | bankAccount
  | ipAddress
  | macAddress
  | personalName
  | address
  | dateOfBirth
  | nationalId
  deriving DecidableEq

/-- `PIIDetection`, of a span of the text. -/
structure PIIDetection (s : Text) where
  piiType : PIIType
  start : ℕ
  stop : ℕ
  redactionMask : Text
  start_lt : start < stop
  stop_le : stop ≤ s.length

/-- What is read of an `EncryptedField`. -/
structure EncryptedField where
  keyId : Text
  algorithm : Text
  createdAt : Text
  encryptedData : Text

/-- The detector, `encrypt_field` (`none` if it raises), `str.lower` and the value of
`DocumentSensitivity.PUBLIC`. -/
structure PrivacyMiddleware where
  detectPii : (s : Text) → List (PIIDetection s)
  encryptField : Content → Text → Text → Option EncryptedField
  lower : Text → Text
  publicLevel : Content

/-- `if tenant_id`. -/
def tenantOf (tenantId : Option Text) : Option Text :=
  tenantId.filter fun tenant => tenant ≠ []

/-- `_get_allowed_pii_types`. -/
def getAllowedPiiTypes (tenantId : Option Text) : List PIIType :=
  match tenantOf tenantId with
  | none => [.email, .phone]
  | some _ => [.email, .phone, .ipAddress, .macAddress]

namespace PIIDetection

variable {s : Text}

/-- The replacing that redacts the detection. -/
def edit (d : PIIDetection s) : Splice.Edit CodePoint :=
  { start := d.start, stop := d.stop, text := d.redactionMask }

/-- The number of code points in the span. -/
def length (d : PIIDetection s) : ℕ :=
  d.stop - d.start

/-- The spans have a code point in common. -/
def Overlaps (d e : PIIDetection s) : Prop :=
  d.start < e.stop ∧ e.start < d.stop

end PIIDetection

/-- `sorted(detections, key=lambda x: x.start_position, reverse=True)`. -/
def sortedDetections {s : Text} (detections : List (PIIDetection s)) : List (PIIDetection s) :=
  detections.mergeSort fun d e => e.start ≤ d.start

theorem map_sortedDetections {s : Text} (detections : List (PIIDetection s)) :
    (sortedDetections detections).map PIIDetection.edit =
      Splice.backward (detections.map PIIDetection.edit) :=
  List.map_mergeSort fun _ _ _ _ => rfl

/-- `_apply_redaction`. -/
def applyRedaction {s : Text} (content : Text) (detections : List (PIIDetection s)) : Text :=
  Splice.applyAll content ((sortedDetections detections).map PIIDetection.edit)

/-- `sensitive_fields` of `_should_encrypt_field`. -/
def sensitiveFields : List Text :=
  ["password", "secret", "token", "key", "credential", "ssn", "social_security", "credit_card",
    "bank_account", "private_key", "api_key", "access_token"].map text

/-- `key.startswith("_privacy_")`. -/
def isPrivacyKey (key : Text) : Bool :=
  (text "_privacy_").isPrefixOf key

namespace PrivacyMiddleware

variable (m : PrivacyMiddleware) (tenantId : Option Text)

/-- `_should_encrypt_field`. -/
def shouldEncryptField (fieldName : Text) : Bool :=
  sensitiveFields.any fun field => decide (field <:+: m.lower fieldName)

/-- The value of a field that could not be encrypted. -/
def maskedValue : Content :=
  .object [(text "encrypted", .bool true), (text "value", .string (text "***"))]

/-- `_encrypt_field_value`. -/
def encryptFieldValue (value : Content) (fieldName : Text) : Content :=
  match tenantOf tenantId with
  | none => maskedValue
  | some tenant =>
    match m.encryptField value tenant fieldName with
    | none => maskedValue
    | some field =>
      .object
        [(text "encrypted", .bool true), (text "key_id", .string field.keyId),
          (text "algorithm", .string field.algorithm),
          (text "created_at", .string field.createdAt),
          (text "value", .string field.encryptedData)]

/-- The detections that `_protect_string` redacts. -/
def filteredDetections (content : Text) : List (PIIDetection content) :=
  (m.detectPii content).filter fun d => decide (d.piiType ∈ getAllowedPiiTypes tenantId)

/-- `_protect_string`. -/
def protectString (content : Text) : Text :=
  if (m.detectPii content).isEmpty then content
  else if (m.filteredDetections tenantId content).isEmpty then content
  else applyRedaction content (m.filteredDetections tenantId content)

/-- `privacy_metadata` of `_protect_dict`. -/
def privacyMetadata (encryptionApplied : Bool) : Content :=
  .object
    [(text "pii_detected", .bool false), (text "pii_redacted", .bool false),
      (text "encryption_applied", .bool encryptionApplied),
      (text "sensitivity_level", m.publicLevel)]

/-- Whether `_protect_dict` encrypts a field. -/
def encryptsField (fields : List (Text × Content)) : Bool :=
  fields.any fun field => !isPrivacyKey field.1 && m.shouldEncryptField field.1

mutual

/-- `_protect_content`, with `_protect_dict` for an object. -/
def protectContent : Content → Content
  | .null => .null
  | .bool b => .bool b
  | .number x => .number x
  | .string s => .string (m.protectString tenantId s)
  | .array items => .array (protectList items)
  | .object fields =>
    .object (protectFields fields ++
      [(text "_privacy_metadata", m.privacyMetadata (m.encryptsField fields))])
termination_by structural content => content

/-- `_protect_list`. -/
def protectList : List Content → List Content
  | [] => []
  | item :: items => protectContent item :: protectList items
termination_by structural items => items

/-- The loop of `_protect_dict`. -/
def protectFields : List (Text × Content) → List (Text × Content)
  | [] => []
  | (key, value) :: fields =>
    if isPrivacyKey key then protectFields fields
    else if m.shouldEncryptField key then
      (key, m.encryptFieldValue tenantId value key) :: protectFields fields
    else (key, protectContent value) :: protectFields fields
termination_by structural fields => fields

end

/-! ## Redaction as edits -/

/-- The edits that `_protect_string` makes. -/
def edits (content : Text) : List (Splice.Edit CodePoint) :=
  (sortedDetections (m.filteredDetections tenantId content)).map PIIDetection.edit

theorem protectString_eq (content : Text) :
    m.protectString tenantId content = Splice.applyAll content (m.edits tenantId content) := by
  have hempty : m.filteredDetections tenantId content = [] →
      Splice.applyAll content (m.edits tenantId content) = content := fun h => by
    simp [edits, h, sortedDetections, Splice.applyAll]
  unfold protectString
  split_ifs with hnone hfiltered
  · refine (hempty ?_).symm
    rw [filteredDetections, List.isEmpty_iff.mp hnone, List.filter_nil]
  · exact (hempty (List.isEmpty_iff.mp hfiltered)).symm
  · rfl

variable {m tenantId}

theorem mem_filteredDetections {content : Text} {d : PIIDetection content} :
    d ∈ m.filteredDetections tenantId content ↔
      d ∈ m.detectPii content ∧ d.piiType ∈ getAllowedPiiTypes tenantId := by
  simp [filteredDetections]

theorem mem_edits {content : Text} {e : Splice.Edit CodePoint} :
    e ∈ m.edits tenantId content ↔
      ∃ d ∈ m.filteredDetections tenantId content, d.edit = e := by
  simp [edits, sortedDetections]

/-- The edits go from the back to the front. -/
theorem edits_sorted (content : Text) :
    (m.edits tenantId content).Pairwise fun e f => f.start ≤ e.start := by
  rw [edits, map_sortedDetections]
  exact Splice.pairwise_backward _

/-- Each edit replaces a span of the text that is not empty. -/
theorem edit_bounds {content : Text} {e : Splice.Edit CodePoint}
    (he : e ∈ m.edits tenantId content) : e.start < e.stop ∧ e.stop ≤ content.length := by
  obtain ⟨d, -, rfl⟩ := mem_edits.mp he
  exact ⟨d.start_lt, d.stop_le⟩

/-! ## The texts of a content -/

variable (m tenantId)

/-- A text in a content that is in no encrypted field and in none that is dropped : the key
of a field, or a string. -/
inductive OpenText
  | key (s : Text)
  | value (s : Text)

mutual

/-- The texts of a content. -/
def openTexts : Content → List OpenText
  | .string s => [.value s]
  | .array items => openTextsOfList items
  | .object fields => openTextsOfFields fields
  | _ => []
termination_by structural content => content

def openTextsOfList : List Content → List OpenText
  | [] => []
  | item :: items => openTexts item ++ openTextsOfList items
termination_by structural items => items

def openTextsOfFields : List (Text × Content) → List OpenText
  | [] => []
  | (key, value) :: fields =>
    if isPrivacyKey key || m.shouldEncryptField key then openTextsOfFields fields
    else .key key :: openTexts value ++ openTextsOfFields fields
termination_by structural fields => fields

end

/-- What becomes of a text. -/
def protectText : OpenText → OpenText
  | .key s => .key s
  | .value s => .value (m.protectString tenantId s)

theorem openTextsOfFields_append (fields others : List (Text × Content)) :
    m.openTextsOfFields (fields ++ others) =
      m.openTextsOfFields fields ++ m.openTextsOfFields others := by
  induction fields with
  | nil => rfl
  | cons field fields ih =>
    obtain ⟨key, value⟩ := field
    rw [List.cons_append, openTextsOfFields, openTextsOfFields, ih]
    split_ifs
    · rfl
    · simp

mutual

/-- The texts of the protected content are those of the content, each protected. -/
theorem openTexts_protectContent : ∀ content : Content,
    m.openTexts (m.protectContent tenantId content) =
      (m.openTexts content).map (m.protectText tenantId)
  | .null => rfl
  | .bool _ => rfl
  | .number _ => rfl
  | .string _ => rfl
  | .array items => openTextsOfList_protectList items
  | .object fields => by
    have hmetadata : m.openTextsOfFields
        [(text "_privacy_metadata", m.privacyMetadata (m.encryptsField fields))] = [] := by
      have hkey : isPrivacyKey (text "_privacy_metadata") = true := by decide +kernel
      rw [openTextsOfFields, hkey, Bool.true_or, if_pos rfl, openTextsOfFields]
    rw [protectContent, openTexts, openTextsOfFields_append, hmetadata, List.append_nil, openTexts]
    exact openTextsOfFields_protectFields fields

theorem openTextsOfList_protectList : ∀ items : List Content,
    m.openTextsOfList (m.protectList tenantId items) =
      (m.openTextsOfList items).map (m.protectText tenantId)
  | [] => rfl
  | item :: items => by
    rw [protectList, openTextsOfList, openTextsOfList, openTexts_protectContent item,
      openTextsOfList_protectList items, List.map_append]

theorem openTextsOfFields_protectFields : ∀ fields : List (Text × Content),
    m.openTextsOfFields (m.protectFields tenantId fields) =
      (m.openTextsOfFields fields).map (m.protectText tenantId)
  | [] => rfl
  | (key, value) :: fields => by
    have ih := openTextsOfFields_protectFields fields
    unfold protectFields
    split_ifs with hprivacy hencrypt
    · rw [ih, openTextsOfFields, hprivacy, Bool.true_or, if_pos rfl]
    · rw [openTextsOfFields, openTextsOfFields, hencrypt, Bool.or_true, if_pos rfl, if_pos rfl, ih]
    · have hopen : (isPrivacyKey key || m.shouldEncryptField key) = false := by
        simp [hprivacy, hencrypt]
      rw [openTextsOfFields, openTextsOfFields, hopen, if_neg Bool.false_ne_true,
        if_neg Bool.false_ne_true, openTexts_protectContent value, ih]
      simp [protectText]

end

end PrivacyMiddleware

end Privacy

end MultiAgent
