import Mathlib.Logic.Function.Basic
import MultiAgent.Lib.Dict
import MultiAgent.Lib.Json
import MultiAgent.Lib.Machine

/-!
# Field-level encryption

`FieldEncryptionManager` of `libs/utils/security/field_encryption.py` : `encrypt_field`,
`decrypt_field`, `rotate_key` and `reencrypt_with_new_key`. A key is known by an id made of
the tenant and the field, the cipher of an id is cached under it, and a rotation makes a new
key with the same id.

Fernet is an authenticated cipher with distinct generated keys (`Fernet`). The text of a
value is known by the value : `json.dumps` of a list or dictionary, `str` of any other value.
Whether a key can be generated, with a KMS or without, comes with the event.
-/

namespace MultiAgent

namespace FieldEncryption

open Json (Value)

/-! ## Texts of values -/

/-- The name of a value's type, as far as `decrypt_field` tells them apart. -/
inductive OriginalType
  | dict
  | list
  | int
  | float
  | bool
  | other
  deriving DecidableEq

/-- `type(value).__name__`. -/
def originalType : Value → OriginalType
  | .dict _ => .dict
  | .list _ => .list
  | .int _ => .int
  | .float _ => .float
  | .bool _ => .bool
  | .null | .str _ | .tuple _ | .object _ _ => .other

/-- A text that is encrypted. -/
inductive Plaintext
  /-- `json.dumps(value)` -/
  | dumped (value : Value)
  /-- `str(value)` -/
  | shown (value : Value)

/-- The text of a value, unless `json.dumps` raises. -/
def serialize (value : Value) : Option Plaintext :=
  match value with
  | .dict _ | .list _ => value.reload.map fun _ => .dumped value
  | _ => some (.shown value)

/-- `str(value)`, with what is shown of a value that is no string. -/
def strOf (show' : Value → String) : Value → String
  | .str s => s
  | value => show' value

/-- What `decrypt_field` makes of a text, for the type in the metadata; `none` for a text that
is never stored with the type. -/
def deserialize (show' : Value → String) : OriginalType → Plaintext → Option Value
  | .dict, .dumped value | .list, .dumped value => value.reload
  | .int, .shown (.int i) => some (.int i)
  | .float, .shown (.float q) => some (.float q)
  | .bool, .shown (.bool b) => some (.bool b)
  | .other, .shown value => some (.str (strOf show' value))
  | _, _ => none

/-! ## Keys -/

/-- Fernet : what was encrypted with a key is decrypted with that key and with no other, and
no key is generated twice. A token also depends on the time and on random bytes. -/
structure Fernet (Key Token : Type) where
  generateKey : ℕ → Key
  encrypt : Key → ℕ → Plaintext → Token
  decrypt : Key → Token → Option Plaintext
  generateKey_injective : Function.Injective generateKey
  decrypt_encrypt : ∀ k n m, decrypt k (encrypt k n m) = some m
  decrypt_of_ne : ∀ k k' n m, k' ≠ k → decrypt k' (encrypt k n m) = none

/-- Key rotation status. -/
inductive KeyRotationStatus
  | active
  | rotating
  | deprecated
  | archived
  deriving DecidableEq

/-- Encryption key metadata. -/
structure EncryptionKey where
  keyId : String
  keyVersion : ℕ
  status : KeyRotationStatus
  tenantId : String
  fieldName : String

/-- Encrypted field data, with its metadata. -/
structure EncryptedField (Token : Type) where
  encryptedData : Token
  keyId : String
  keyVersion : ℕ
  fieldName : String
  tenantId : String
  originalType : OriginalType

/-- The manager, with the number of keys generated so far. -/
structure FieldEncryptionManager (Key : Type) where
  keyCache : Dict String EncryptionKey := .empty
  encryptionCache : Dict String Key := .empty
  generated : ℕ := 0

/-- The id of the key of a field. -/
def keyIdOf (tenantId fieldName : String) : String :=
  tenantId ++ ":" ++ fieldName

namespace FieldEncryptionManager

variable {Key Token : Type} (F : Fernet Key Token) (show' : Value → String)
  (s : FieldEncryptionManager Key)

/-- A generated key is cached as the cipher of an id. -/
def cacheNewKey (keyId : String) : FieldEncryptionManager Key :=
  { s with
    encryptionCache := s.encryptionCache.set keyId (F.generateKey s.generated)
    generated := s.generated + 1 }

/-- `_create_encryption_key`, and the metadata of the key stored by its callers. -/
def createEncryptionKey (tenantId fieldName : String) : FieldEncryptionManager Key :=
  let keyId := keyIdOf tenantId fieldName
  let s := s.cacheNewKey F keyId
  { s with
    keyCache := s.keyCache.set keyId
      { keyId, keyVersion := 1, status := .active, tenantId, fieldName } }

/-- The key of an id is there and `ACTIVE`. -/
def hasActiveKey (keyId : String) : Bool :=
  (s.keyCache.get? keyId).any fun key => key.status = .active

/-- `_get_or_create_key`. -/
def getOrCreateKey (tenantId fieldName : String) (generates : Bool) :
    FieldEncryptionManager Key × Option String :=
  let keyId := keyIdOf tenantId fieldName
  if s.hasActiveKey keyId then (s, some keyId)
  else if generates then (s.createEncryptionKey F tenantId fieldName, some keyId)
  else (s, none)

/-- `_get_cipher`. -/
def getCipher (keyId : String) (generates : Bool) : FieldEncryptionManager Key × Option Key :=
  match s.encryptionCache.get? keyId with
  | some cipher => (s, some cipher)
  | none =>
    if generates then (s.cacheNewKey F keyId, some (F.generateKey s.generated)) else (s, none)

/-- `encrypt_field` with the id of its key. -/
def encryptWith (value : Value) (tenantId fieldName keyId : String) (nonce : ℕ)
    (generates : Bool) : FieldEncryptionManager Key × Option (EncryptedField Token) :=
  match s.getCipher F keyId generates with
  | (s, none) => (s, none)
  | (s, some cipher) =>
    match serialize value, s.keyCache.get? keyId with
    | some text, some key =>
      (s, some {
        encryptedData := F.encrypt cipher nonce text
        keyId
        keyVersion := key.keyVersion
        fieldName
        tenantId
        originalType := originalType value })
    | _, _ => (s, none)

/-- The id that a call of `encrypt_field` names, if it does. -/
def givenKeyId : Option String → Option String
  | some keyId => if keyId = "" then none else some keyId
  | none => none

/-- `encrypt_field`. -/
def encryptField (value : Value) (tenantId fieldName : String) (keyId : Option String)
    (nonce : ℕ) (generates : Bool) :
    FieldEncryptionManager Key × Option (EncryptedField Token) :=
  match givenKeyId keyId with
  | some keyId => s.encryptWith F value tenantId fieldName keyId nonce generates
  | none =>
    match s.getOrCreateKey F tenantId fieldName generates with
    | (s, none) => (s, none)
    | (s, some keyId) => s.encryptWith F value tenantId fieldName keyId nonce generates

/-- `decrypt_field`. -/
def decryptField (field : EncryptedField Token) (generates : Bool) :
    FieldEncryptionManager Key × Option Value :=
  match s.getCipher F field.keyId generates with
  | (s, none) => (s, none)
  | (s, some cipher) =>
    (s, (F.decrypt cipher field.encryptedData).bind (deserialize show' field.originalType))

/-- The key of an id is marked as rotating. -/
def markRotating (keyId : String) : FieldEncryptionManager Key :=
  match s.keyCache.get? keyId with
  | some key => { s with keyCache := s.keyCache.set keyId { key with status := .rotating } }
  | none => s

/-- `rotate_key`. The old key is marked as rotating before a new one is generated. -/
def rotateKey (tenantId fieldName : String) (generates : Bool) :
    FieldEncryptionManager Key × Option String :=
  let keyId := keyIdOf tenantId fieldName
  let s := s.markRotating keyId
  if generates then (s.createEncryptionKey F tenantId fieldName, some keyId) else (s, none)

/-- `reencrypt_with_new_key`, with the value in between. -/
def reencryptWithNewKey (field : EncryptedField Token) (newKeyId : String) (nonce : ℕ)
    (loads generates : Bool) :
    FieldEncryptionManager Key × Option (EncryptedField Token × Value) :=
  match s.decryptField F show' field loads with
  | (s, none) => (s, none)
  | (s, some value) =>
    let r := s.encryptField F value field.tenantId field.fieldName (some newKeyId) nonce generates
    (r.1, r.2.map (·, value))

end FieldEncryptionManager

/-! ## Runs -/

/-- A call. A field that is encrypted anew is known by its position. -/
inductive EncryptionCall
  | encryptField (value : Value) (tenantId fieldName : String) (keyId : Option String)
      (nonce : ℕ) (generates : Bool)
  | rotateKey (tenantId fieldName : String) (generates : Bool)
  | reencryptWithNewKey (field : ℕ) (newKeyId : String) (nonce : ℕ) (loads generates : Bool)

/-- The manager with the fields it produced and what each was made from, the ids that
rotations returned, and whether each field was encrypted anew that was to be with such an id. -/
structure EncryptionSystem (Key Token : Type) where
  manager : FieldEncryptionManager Key := {}
  produced : List (EncryptedField Token × Value) := []
  rotated : List String := []
  reencrypted : List Bool := []

namespace EncryptionSystem

variable {Key Token : Type} (F : Fernet Key Token) (show' : Value → String)
  (s : EncryptionSystem Key Token)

/-- One call. -/
def step : EncryptionCall → Option (EncryptionSystem Key Token)
  | .encryptField value tenantId fieldName keyId nonce generates =>
    let r := s.manager.encryptField F value tenantId fieldName keyId nonce generates
    some { s with manager := r.1, produced := s.produced ++ (r.2.map (·, value)).toList }
  | .rotateKey tenantId fieldName generates =>
    let r := s.manager.rotateKey F tenantId fieldName generates
    some { s with manager := r.1, rotated := s.rotated ++ r.2.toList }
  | .reencryptWithNewKey field newKeyId nonce loads generates =>
    match s.produced[field]? with
    | none => none
    | some x =>
      let r := s.manager.reencryptWithNewKey F show' x.1 newKeyId nonce loads generates
      some { s with
        manager := r.1
        produced := s.produced ++ r.2.toList
        reencrypted :=
          if newKeyId ∈ s.rotated then s.reencrypted ++ [r.2.isSome] else s.reencrypted }

end EncryptionSystem

/-- A new manager. -/
def encryptionMachine {Key Token : Type} (F : Fernet Key Token) (show' : Value → String) :
    Machine (EncryptionSystem Key Token) EncryptionCall where
  init := {}
  step := EncryptionSystem.step F show'

end FieldEncryption

end MultiAgent
