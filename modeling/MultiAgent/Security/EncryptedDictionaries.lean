import MultiAgent.Security.KeyRotation

/-!
# Encrypted values and dictionaries

What comes back from `encrypt_field` and `decrypt_field` of
`libs/utils/security/field_encryption.py`, and from `encrypt_dict` and `decrypt_dict` of
`libs/security/encryption.py`.

A field comes back with its type if it is not `None` : the type of `None` is none of those that
`decrypt_field` knows (`fieldRoundTrip_iff`). A dictionary comes back if its values are strings,
since `decrypt_dict` returns nothing else, and the values that are no scalars are stored as they
are shown (`dictRoundTrip_iff`).
-/

namespace MultiAgent

namespace FieldEncryption

open Json (Key Value)
open FieldEncryptionManager

/-- A JSON value. -/
structure JsonValue where
  value : Value
  isJson : value.isJson = true

/-! ## Fields -/

section

variable {Κ Token : Type} (F : Fernet Κ Token) (show' : Value → String)

/-- A field that is made of the value decrypts to it. -/
def FieldRoundTrip (value : Value) : Prop :=
  ∀ (m m' : FieldEncryptionManager Κ) (field : EncryptedField Token) (tenantId fieldName : String)
    (keyId : Option String) (nonce : ℕ) (generates generates' : Bool),
    m.encryptField F value tenantId fieldName keyId nonce generates = (m', some field) →
      (m'.decryptField F show' field generates').2 = some value

variable {F show'} {m m' : FieldEncryptionManager Κ} {field : EncryptedField Token}

/-- The cipher that is used is cached. -/
theorem get?_of_getCipher {id : String} {generates : Bool} {key : Κ}
    (h : m.getCipher F id generates = (m', some key)) :
    m'.encryptionCache.get? id = some key := by
  unfold getCipher at h
  cases hcached : m.encryptionCache.get? id with
  | some cipher =>
    rw [hcached] at h
    obtain ⟨rfl, hkey⟩ := Prod.mk.inj h
    exact hcached.trans hkey
  | none =>
    rw [hcached] at h
    dsimp only at h
    split_ifs at h
    · obtain ⟨rfl, hkey⟩ := Prod.mk.inj h
      exact (Dict.get?_set_self _ _ _).trans hkey
    · cases (Prod.mk.inj h).2

/-- The key of a new field is cached. -/
theorem intact_of_encryptWith {value : Value} {tenantId fieldName id : String} {nonce : ℕ}
    {generates : Bool}
    (h : m.encryptWith F value tenantId fieldName id nonce generates = (m', some field)) :
    Intact F m' (field, value) := by
  unfold encryptWith at h
  cases hcipher : m.getCipher F id generates with
  | mk m₁ cipher =>
    rw [hcipher] at h
    cases cipher with
    | none => cases (Prod.mk.inj h).2
    | some key =>
      dsimp only at h
      split at h
      next text key' htext _ =>
        obtain ⟨rfl, hfield⟩ := Prod.mk.inj h
        obtain rfl := Option.some.inj hfield
        exact ⟨key, nonce, text, get?_of_getCipher hcipher, rfl, htext, rfl⟩
      · cases (Prod.mk.inj h).2

theorem intact_of_encryptField {value : Value} {tenantId fieldName : String}
    {keyId : Option String} {nonce : ℕ} {generates : Bool}
    (h : m.encryptField F value tenantId fieldName keyId nonce generates = (m', some field)) :
    Intact F m' (field, value) := by
  unfold encryptField at h
  split at h
  · exact intact_of_encryptWith h
  · split at h
    · cases (Prod.mk.inj h).2
    · exact intact_of_encryptWith h

/-- A field comes back exactly if its text and the name of its type tell its value. -/
theorem fieldRoundTrip_of_storable {value : Value} (hvalue : storable value = true) :
    FieldRoundTrip F show' value := by
  intro m m' field tenantId fieldName keyId nonce generates generates' h
  obtain ⟨text, htext, hrun⟩ := (intact_of_encryptField h).decryptField show' generates'
  rw [hrun]
  exact (deserialize_iff show' htext).mpr hvalue

theorem storable_iff_of_isJson {value : Value} (h : value.isJson = true) :
    storable value = true ↔ value ≠ .null := by
  cases value with
  | null => simp [storable]
  | tuple l => simp [Value.isJson] at h
  | object i t => simp [Value.isJson] at h
  | list l => simp [storable, h]
  | dict d => simp [storable, h]
  | _ => simp [storable]

/-- `None` comes back as a string. -/
theorem not_fieldRoundTrip_null : ¬FieldRoundTrip F show' .null := by
  intro h
  have hrun : ∃ m' field,
      encryptField F {} .null "tenant" "field" none 0 true = (m', some field) := ⟨_, _, rfl⟩
  obtain ⟨m', field, hrun⟩ := hrun
  obtain ⟨text, htext, hdecrypt⟩ := (intact_of_encryptField hrun).decryptField show' true
  have hback := h {} m' field "tenant" "field" none 0 true true hrun
  rw [hdecrypt] at hback
  exact absurd ((deserialize_iff show' htext).mp hback) (by simp [storable])

end

/-- A JSON value comes back from its field exactly if it is not null. -/
theorem fieldRoundTrip_iff {Κ Token : Type} {F : Fernet Κ Token} {show' : Value → String}
    {v : Value} (hv : v.isJson = true) : FieldRoundTrip F show' v ↔ v ≠ .null := by
  constructor
  · rintro h rfl
    exact not_fieldRoundTrip_null h
  · exact fun h => fieldRoundTrip_of_storable ((storable_iff_of_isJson hv).mpr h)

/-! ## Dictionaries -/

/-- `encrypt` and `decrypt` of `EncryptionManager`, with Base64 : a correct cipher whose texts are
longer than what they stand for. An encryption also depends on the time and on random bytes. -/
structure Cipher where
  encrypt : ℕ → String → String
  decrypt : String → Option String
  decrypt_encrypt : ∀ n s, decrypt (encrypt n s) = some s
  length_lt : ∀ n s, s.length < (encrypt n s).length

section

variable (C : Cipher) (show' : Value → String)

/-- `isinstance(value, (str, int, float, bool))`. -/
def isScalar : Value → Bool
  | .str _ | .int _ | .float _ | .bool _ => true
  | .null | .list _ | .tuple _ | .dict _ | .object _ _ => false

/-- What `encrypt_dict` stores for a value. -/
def encryptValue (nonce : ℕ) (value : Value) : String :=
  if isScalar value then C.encrypt nonce (strOf show' value) else strOf show' value

/-- `encrypt_dict`, where each key has a nonce. -/
def encryptDict (nonce : Key → ℕ) (data : List (Key × Value)) : List (Key × String) :=
  data.map fun p => (p.1, encryptValue C show' (nonce p.1) p.2)

/-- `decrypt_dict`. What cannot be decrypted is kept. -/
def decryptDict (encryptedData : List (Key × String)) : List (Key × Value) :=
  encryptedData.map fun p => (p.1, .str ((C.decrypt p.2).getD p.2))

/-- The dictionary comes back, and no value is stored as it is shown. -/
structure DictRoundTrip (data : List (Key × Value)) : Prop where
  decrypts (nonce : Key → ℕ) : decryptDict C (encryptDict C show' nonce data) = data
  hidden (nonce : Key → ℕ) : List.Forall₂ (fun p q => q.2 ≠ strOf show' p.2) data
    (encryptDict C show' nonce data)

variable {C show'}

/-- A dictionary comes back exactly if its values are strings. -/
theorem dictRoundTrip_iff {data : List (Key × Value)} :
    DictRoundTrip C show' data ↔ ∀ p ∈ data, ∃ s, p.2 = .str s := by
  constructor
  · intro h p hp
    have hback := h.decrypts fun _ => 0
    rw [decryptDict, encryptDict, List.map_map] at hback
    rw [← hback] at hp
    obtain ⟨q, -, rfl⟩ := List.mem_map.mp hp
    exact ⟨_, rfl⟩
  · intro h
    refine ⟨fun nonce => ?_, fun nonce => ?_⟩
    · rw [decryptDict, encryptDict, List.map_map]
      refine (List.map_congr_left fun p hp => ?_).trans (List.map_id data)
      obtain ⟨k, v⟩ := p
      obtain ⟨s, rfl⟩ := h _ hp
      change (k, Value.str ((C.decrypt (C.encrypt (nonce k) s)).getD _)) = _
      rw [C.decrypt_encrypt]
      rfl
    · rw [encryptDict, List.forall₂_map_right_iff]
      refine List.forall₂_same.mpr fun p hp => ?_
      obtain ⟨k, v⟩ := p
      obtain ⟨s, rfl⟩ := h _ hp
      intro heq
      have hlength := C.length_lt (nonce k) s
      change C.encrypt (nonce k) s = s at heq
      rw [heq] at hlength
      exact Nat.lt_irrefl _ hlength

end

/-- A JSON value comes back from its field, with its type, exactly if it is not null, and a
dictionary comes back without showing a value exactly if its values are strings. -/
theorem roundTrips_iff {Κ Token : Type} (F : Fernet Κ Token) (C : Cipher)
    (show' : Value → String) (v : JsonValue) (data : List (Key × Value)) :
    (FieldRoundTrip F show' v.value ↔ v.value ≠ .null) ∧
      (DictRoundTrip C show' data ↔ ∀ p ∈ data, ∃ s, p.2 = .str s) :=
  ⟨fieldRoundTrip_iff v.isJson, dictRoundTrip_iff⟩

/-! ## Null -/

/-- A letter before the text. -/
def letterCipher : Cipher where
  encrypt _ s := "g" ++ s
  decrypt s := some (String.ofList s.toList.tail)
  decrypt_encrypt n s := by simp
  length_lt n s := by
    have h : "g".length = 1 := rfl
    rw [String.length_append, h]
    omega

/-- A null comes back neither from its field nor from a dictionary, where it is stored as it is
shown. -/
theorem not_roundTrips :
    ¬FieldRoundTrip clearFernet (fun _ => "None") .null ∧
      ¬DictRoundTrip letterCipher (fun _ => "None") [(.str "note", .null)] := by
  refine ⟨not_fieldRoundTrip_null, fun h => ?_⟩
  obtain ⟨s, hs⟩ := dictRoundTrip_iff.mp h _ List.mem_cons_self
  cases hs

end FieldEncryption

end MultiAgent
