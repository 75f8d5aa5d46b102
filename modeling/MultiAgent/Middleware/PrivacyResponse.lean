import MultiAgent.Lib.Fallible
import MultiAgent.Middleware.PrivacyMiddleware

/-!
# Responses through the privacy middleware

`_apply_privacy_protection` returns the response of the application wherever something
raises : when the protected content is no object, since the headers are made with its `get`,
and when `JSONResponse` cannot encode it, which is so for the numbers JSON does not have and
for lone surrogates. A response whose body is streamed has no attribute the body could be
read from, and is returned as well. In all other cases the response that is returned has the
protected content (`returnsProtected_iff`).

Between `json.dumps` and `json.loads` a content stays what it is.
-/

namespace MultiAgent

namespace Privacy

/-- Where a response has its body : in `body` or `_content`, whose bytes are UTF-8 or not, or
in chunks that are sent one by one. -/
inductive Body
  | held (s : Text)
  | undecodable
  | streamed (chunks : List Text)

/-- A response of the application, with its `content-type`. -/
structure Response where
  contentType : Text := []
  body : Body

/-- `json.loads`, with `none` for a `JSONDecodeError`. -/
structure JsonLoads where
  loads : Text → Option Content
  loads_nil : loads [] = none

/-- What is returned : the response of the application, or a `JSONResponse` with a content
and the value of its header `X-PII-Redacted`. -/
inductive Returned
  | original
  | protectedWith (content : Content) (piiRedacted : Content)

/-- An exception of `_apply_privacy_protection`. -/
inductive ProtectionError
  | valueError
  | unicodeEncodeError
  | attributeError

/-- `_get_response_body`. -/
def getResponseBody (response : Response) : Option Text :=
  match response.body with
  | .held s => some s
  | .undecodable => none
  | .streamed _ => none

/-- The content that a client reads. -/
def Response.content (json : JsonLoads) (response : Response) : Option Content :=
  match response.body with
  | .held s => json.loads s
  | .undecodable => none
  | .streamed chunks => json.loads chunks.flatten

/-- The body can be read as an attribute of the response. -/
def Response.isHeld (response : Response) : Bool :=
  match response.body with
  | .held _ => true
  | .undecodable => false
  | .streamed _ => false

/-- `isinstance(content, dict)`. -/
def Content.isObject : Content → Bool
  | .object _ => true
  | _ => false

/-! ## Encoding -/

/-- A number of JSON. -/
def Number.isFinite : Number → Bool
  | .finite _ => true
  | .nan => false
  | .infinity _ => false

/-- The text has no surrogate, and so can be encoded as UTF-8. -/
def encodes (s : Text) : Bool :=
  s.all fun c => !(decide (0xD800 ≤ c.val) && decide (c.val ≤ 0xDFFF))

mutual

/-- All numbers of a content are numbers of JSON. -/
def finiteNumbers : Content → Bool
  | .number x => x.isFinite
  | .array items => finiteNumbersOfList items
  | .object fields => finiteNumbersOfFields fields
  | _ => true
termination_by structural content => content

def finiteNumbersOfList : List Content → Bool
  | [] => true
  | item :: items => finiteNumbers item && finiteNumbersOfList items
termination_by structural items => items

def finiteNumbersOfFields : List (Text × Content) → Bool
  | [] => true
  | (_, value) :: fields => finiteNumbers value && finiteNumbersOfFields fields
termination_by structural fields => fields

end

mutual

/-- No text of a content has a surrogate. -/
def noSurrogates : Content → Bool
  | .string s => encodes s
  | .array items => noSurrogatesOfList items
  | .object fields => noSurrogatesOfFields fields
  | _ => true
termination_by structural content => content

def noSurrogatesOfList : List Content → Bool
  | [] => true
  | item :: items => noSurrogates item && noSurrogatesOfList items
termination_by structural items => items

def noSurrogatesOfFields : List (Text × Content) → Bool
  | [] => true
  | (key, value) :: fields => encodes key && noSurrogates value && noSurrogatesOfFields fields
termination_by structural fields => fields

end

/-- `JSONResponse.render` : `json.dumps` with `allow_nan=False`, encoded as UTF-8. -/
def render (content : Content) : Except ProtectionError Content :=
  if !finiteNumbers content then .error .valueError
  else if !noSurrogates content then .error .unicodeEncodeError
  else .ok content

/-- `content.get(key, default)`. -/
def Content.get (content : Content) (key : Text) (default : Content) :
    Except ProtectionError Content :=
  match content with
  | .object fields => .ok ((fields.lookup key).getD default)
  | _ => .error .attributeError

namespace PrivacyMiddleware

variable (m : PrivacyMiddleware) (json : JsonLoads) (tenantId : Option Text)

/-- `_is_json_response`. -/
def isJsonResponse (response : Response) : Bool :=
  decide (text "application/json" <:+: m.lower response.contentType)

/-- The new response that `_apply_privacy_protection` makes. -/
def protectedResponse (content : Content) : Except ProtectionError Returned := do
  let protectedContent := m.protectContent tenantId content
  let rendered ← render protectedContent
  let metadata ← protectedContent.get (text "_privacy_metadata") (.object [])
  let piiRedacted ← metadata.get (text "pii_redacted") (.bool false)
  return .protectedWith rendered piiRedacted

/-- `_apply_privacy_protection`. -/
def applyPrivacyProtection (response : Response) : Returned :=
  if !m.isJsonResponse response then .original
  else
    match getResponseBody response with
    | none => .original
    | some responseBody =>
      if responseBody.isEmpty then .original
      else
        match json.loads responseBody with
        | none => .original
        | some content =>
          match m.protectedResponse tenantId content with
          | .error _ => .original
          | .ok returned => returned

/-! ## What of the content has to be encoded -/

/-- `JSONResponse` can encode the content. -/
def encodable (content : Content) : Bool :=
  finiteNumbers content && noSurrogates content

def encodableList (items : List Content) : Bool :=
  finiteNumbersOfList items && noSurrogatesOfList items

def encodableFields (fields : List (Text × Content)) : Bool :=
  finiteNumbersOfFields fields && noSurrogatesOfFields fields

mutual

/-- What is not dropped or encrypted in a content has finite numbers and, once it is
redacted, no surrogates, and the rest can be encoded. -/
def encodesProtected : Content → Bool
  | .number x => x.isFinite
  | .string s => encodes (m.protectString tenantId s)
  | .array items => encodesProtectedList items
  | .object fields => encodesProtectedFields fields && encodable m.publicLevel
  | _ => true
termination_by structural content => content

def encodesProtectedList : List Content → Bool
  | [] => true
  | item :: items => encodesProtected item && encodesProtectedList items
termination_by structural items => items

def encodesProtectedFields : List (Text × Content) → Bool
  | [] => true
  | (key, value) :: fields =>
    if isPrivacyKey key then encodesProtectedFields fields
    else if m.shouldEncryptField key then
      encodes key && encodable (m.encryptFieldValue tenantId value key) &&
        encodesProtectedFields fields
    else encodes key && encodesProtected value && encodesProtectedFields fields
termination_by structural fields => fields

end

theorem encodableList_cons (item : Content) (items : List Content) :
    encodableList (item :: items) = (encodable item && encodableList items) := by
  simp only [encodableList, encodable, finiteNumbersOfList, noSurrogatesOfList]
  ac_rfl

theorem encodableFields_cons (key : Text) (value : Content) (fields : List (Text × Content)) :
    encodableFields ((key, value) :: fields) =
      (encodes key && encodable value && encodableFields fields) := by
  simp only [encodableFields, encodable, finiteNumbersOfFields, noSurrogatesOfFields]
  ac_rfl

theorem encodableFields_append (fields others : List (Text × Content)) :
    encodableFields (fields ++ others) = (encodableFields fields && encodableFields others) := by
  induction fields with
  | nil => rfl
  | cons field fields ih =>
    rw [List.cons_append, encodableFields_cons, encodableFields_cons, ih]
    ac_rfl

theorem encodableFields_metadata (encryptionApplied : Bool) :
    encodableFields [(text "_privacy_metadata", m.privacyMetadata encryptionApplied)] =
      encodable m.publicLevel := by
  have hkeys : [text "_privacy_metadata", text "pii_detected", text "pii_redacted",
      text "encryption_applied", text "sensitivity_level"].all encodes = true := by decide +kernel
  simp only [List.all_cons, List.all_nil, Bool.and_true, Bool.and_eq_true] at hkeys
  obtain ⟨hmetadata, hdetected, hredacted, hencryption, hlevel⟩ := hkeys
  simp [encodableFields, privacyMetadata, finiteNumbers, finiteNumbersOfFields, noSurrogates,
    noSurrogatesOfFields, encodable, hmetadata, hdetected, hredacted, hencryption, hlevel]

mutual

/-- Whether the protected content can be encoded is known from the content. -/
theorem encodable_protectContent : ∀ content : Content,
    encodable (m.protectContent tenantId content) = m.encodesProtected tenantId content
  | .null => rfl
  | .bool _ => rfl
  | .number x => Bool.and_true _
  | .string s => Bool.true_and _
  | .array items => encodableList_protectList items
  | .object fields => by
    have hfields : encodable (m.protectContent tenantId (.object fields)) =
        encodableFields (m.protectFields tenantId fields ++
          [(text "_privacy_metadata", m.privacyMetadata (m.encryptsField fields))]) := rfl
    rw [hfields, encodableFields_append, encodableFields_protectFields fields,
      encodableFields_metadata, encodesProtected]

theorem encodableList_protectList : ∀ items : List Content,
    encodableList (m.protectList tenantId items) = m.encodesProtectedList tenantId items
  | [] => rfl
  | item :: items => by
    rw [protectList, encodableList_cons, encodable_protectContent item,
      encodableList_protectList items, encodesProtectedList]

theorem encodableFields_protectFields : ∀ fields : List (Text × Content),
    encodableFields (m.protectFields tenantId fields) = m.encodesProtectedFields tenantId fields
  | [] => rfl
  | (key, value) :: fields => by
    have ih := encodableFields_protectFields fields
    unfold protectFields encodesProtectedFields
    split_ifs with hprivacy hencrypt
    · exact ih
    · rw [encodableFields_cons, ih]
    · rw [encodableFields_cons, encodable_protectContent value, ih]

end

/-! ## Which response is returned -/

theorem render_eq_ok_iff {content rendered : Content} :
    render content = .ok rendered ↔ encodable content = true ∧ rendered = content := by
  cases hnumbers : finiteNumbers content with
  | false => simp [render, encodable, hnumbers]
  | true =>
    cases hsurrogates : noSurrogates content with
    | false => simp [render, encodable, hnumbers, hsurrogates]
    | true =>
      simp only [render, encodable, hnumbers, hsurrogates, Bool.not_true, Bool.false_eq_true,
        if_false, Except.ok.injEq, Bool.and_self, true_and]
      exact eq_comm

/-- No key of the protected fields starts as those of the metadata do. -/
theorem lookup_protectFields {key : Text} (hkey : isPrivacyKey key = true)
    (fields : List (Text × Content)) : (m.protectFields tenantId fields).lookup key = none := by
  induction fields with
  | nil => rfl
  | cons field fields ih =>
    obtain ⟨other, value⟩ := field
    unfold protectFields
    split_ifs with hprivacy hencrypt
    · exact ih
    all_goals
      have hne : key ≠ other := fun h => hprivacy (h ▸ hkey)
      rw [List.lookup_cons, beq_false_of_ne hne]
      exact ih

/-- The protected content of an object can be made into a response if it can be encoded, with
`False` as what is said about the redaction. -/
theorem protectedResponse_object (fields : List (Text × Content)) :
    m.protectedResponse tenantId (.object fields) =
      (render (m.protectContent tenantId (.object fields))).map fun rendered =>
        .protectedWith rendered (.bool false) := by
  have hmetadata : (m.protectContent tenantId (.object fields)).get (text "_privacy_metadata")
      (.object []) = .ok (m.privacyMetadata (m.encryptsField fields)) := by
    have hkey : isPrivacyKey (text "_privacy_metadata") = true := by decide +kernel
    have hlookup := m.lookup_protectFields tenantId hkey fields
    simp only [protectContent, Content.get, List.lookup_append, hlookup, Option.none_or]
    simp
  have hredacted : (m.privacyMetadata (m.encryptsField fields)).get (text "pii_redacted")
      (.bool false) = .ok (.bool false) := by
    have hne : (text "pii_redacted" == text "pii_detected") = false := by decide +kernel
    simp [privacyMetadata, Content.get, List.lookup_cons, hne]
  cases hrender : render (m.protectContent tenantId (.object fields)) with
  | error e =>
    simp only [protectedResponse, hrender]
    rfl
  | ok rendered =>
    simp only [protectedResponse, hrender, hmetadata, Fallible.ok_bind, hredacted]
    rfl

/-- What is no object has no `get`. -/
theorem protectedResponse_of_not_object {content : Content} (h : content.isObject = false) :
    ∃ e, m.protectedResponse tenantId content = .error e := by
  have hget : (m.protectContent tenantId content).get (text "_privacy_metadata") (.object []) =
      .error .attributeError := by
    cases content with
    | object fields => simp [Content.isObject] at h
    | _ => rfl
  cases hrender : render (m.protectContent tenantId content) with
  | error e =>
    simp only [protectedResponse, hrender]
    exact ⟨e, rfl⟩
  | ok rendered =>
    simp only [protectedResponse, hrender, Fallible.ok_bind, hget]
    exact ⟨_, rfl⟩

variable {m json tenantId} {response : Response} {content : Content}

/-- What is returned for a response that is JSON. -/
theorem applyPrivacyProtection_eq (hjson : m.isJsonResponse response = true)
    (hcontent : response.content json = some content) :
    m.applyPrivacyProtection json tenantId response =
      if response.isHeld && content.isObject && m.encodesProtected tenantId content then
        .protectedWith (m.protectContent tenantId content) (.bool false)
      else .original := by
  cases hbody : response.body with
  | undecodable => simp [Response.content, hbody] at hcontent
  | streamed chunks =>
    have hheld : response.isHeld = false := by simp [Response.isHeld, hbody]
    rw [hheld]
    simp [applyPrivacyProtection, hjson, getResponseBody, hbody]
  | held s =>
    have hheld : response.isHeld = true := by simp [Response.isHeld, hbody]
    have hloads : json.loads s = some content := by simpa [Response.content, hbody] using hcontent
    have hs : s.isEmpty = false := by
      cases s with
      | nil => simp [json.loads_nil] at hloads
      | cons c s => rfl
    simp only [applyPrivacyProtection, hjson, getResponseBody, hbody, hs, hloads, hheld,
      Bool.not_true, Bool.true_and, Bool.false_eq_true, if_false]
    cases hobject : content.isObject with
    | false =>
      obtain ⟨e, he⟩ := m.protectedResponse_of_not_object tenantId hobject
      simp [he]
    | true =>
      obtain ⟨fields, rfl⟩ : ∃ fields, content = .object fields := by
        cases content with
        | object fields => exact ⟨fields, rfl⟩
        | _ => simp [Content.isObject] at hobject
      rw [protectedResponse_object, ← encodable_protectContent, Bool.true_and]
      cases hencodable : encodable (m.protectContent tenantId (.object fields)) with
      | true =>
        rw [render_eq_ok_iff.mpr ⟨hencodable, rfl⟩]
        simp [Except.map]
      | false =>
        cases hrender : render (m.protectContent tenantId (.object fields)) with
        | error e => simp [Except.map]
        | ok rendered =>
          rw [(render_eq_ok_iff.mp hrender).1] at hencodable
          cases hencodable

/-- A JSON response that parses comes back with its protected content exactly when its body
is held, its content is an object, and what is neither dropped nor encrypted of the content,
once it is redacted, can be encoded. -/
theorem returnsProtected_iff (hjson : m.isJsonResponse response = true)
    (hcontent : response.content json = some content) :
    (∃ piiRedacted, m.applyPrivacyProtection json tenantId response =
        .protectedWith (m.protectContent tenantId content) piiRedacted) ↔
      response.isHeld = true ∧ content.isObject = true ∧
        m.encodesProtected tenantId content = true := by
  rw [applyPrivacyProtection_eq hjson hcontent, ← and_assoc, ← Bool.and_eq_true,
    ← Bool.and_eq_true]
  split_ifs with h
  · exact iff_of_true ⟨_, rfl⟩ h
  · exact iff_of_false (fun ⟨_, hreturned⟩ => by cases hreturned) h

/-- A middleware that finds nothing, and encrypts nothing but the value of a secret. -/
def finding : PrivacyMiddleware :=
  { detectPii := fun _ => [], encryptField := fun _ _ _ => none, lower := id
    publicLevel := .string (text "public") }

/-- `json.loads` at one text. -/
def loadsAt (s : Text) (content : Content) : JsonLoads :=
  { loads := fun t => if t = s ∧ t ≠ [] then some content else none
    loads_nil := by simp }

/-- A JSON response with the text as its body. -/
def jsonResponse (s : Text) : Response :=
  { contentType := text "application/json", body := .held s }

theorem content_jsonResponse {s : Text} (content : Content) (hs : s ≠ []) :
    (jsonResponse s).content (loadsAt s content) = some content := by
  simp [Response.content, jsonResponse, loadsAt, hs]

theorem returnsProtected_status :
    (∃ piiRedacted, finding.applyPrivacyProtection
        (loadsAt (text "\x7b\"status\": 1\x7d") (.object [(text "status", .number (.finite 1))]))
        none (jsonResponse (text "\x7b\"status\": 1\x7d")) =
      .protectedWith (finding.protectContent none
        (.object [(text "status", .number (.finite 1))])) piiRedacted) ↔
      (jsonResponse (text "\x7b\"status\": 1\x7d")).isHeld = true ∧
        (Content.object [(text "status", .number (.finite 1))]).isObject = true ∧
        finding.encodesProtected none (.object [(text "status", .number (.finite 1))]) = true :=
  returnsProtected_iff (by decide +kernel) (content_jsonResponse _ (by decide +kernel))

/-- An array comes back as it was, and so does an object with `NaN`. -/
theorem not_returnsProtected :
    finding.applyPrivacyProtection
        (loadsAt (text "[\"secret\"]") (.array [.string (text "secret")])) none
        (jsonResponse (text "[\"secret\"]")) = .original ∧
      finding.applyPrivacyProtection
        (loadsAt (text "\x7b\"load\": NaN\x7d") (.object [(text "load", .number .nan)])) none
        (jsonResponse (text "\x7b\"load\": NaN\x7d")) = .original := by
  have harray := content_jsonResponse (s := text "[\"secret\"]")
    (.array [.string (text "secret")]) (by decide +kernel)
  have hobject := content_jsonResponse (s := text "\x7b\"load\": NaN\x7d")
    (.object [(text "load", .number .nan)]) (by decide +kernel)
  have hencodes :
      finding.encodesProtected none (.object [(text "load", .number .nan)]) = false := by
    decide +kernel
  refine ⟨?_, ?_⟩
  · rw [applyPrivacyProtection_eq (by decide +kernel) harray]
    simp [Content.isObject]
  · rw [applyPrivacyProtection_eq (by decide +kernel) hobject]
    simp [hencodes]

end PrivacyMiddleware

end Privacy

end MultiAgent
