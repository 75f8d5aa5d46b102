import MultiAgent.Security.FieldEncryption

/-!
# What a rotation leaves readable

Every field that the manager produced should decrypt to the value it was made from, and a
field should be encrypted anew under the id of a rotation (`Recoverable`). A new key takes the
place of the old one under the same id, so the fields of that id are lost; and a value whose
text does not tell it apart from a string comes back as one (`storable`).

While no key that has fields is replaced, each field's key is the cached one (`Keyed`), and a
field comes back exactly if its value is storable (`decryptField_iff`). A replaced key is
another one, so its fields do not decrypt (`decryptField_replaced`). Hence all fields come back
throughout a run exactly if its calls store storable values and make no new key for an id that
has fields (`recoverable_throughout_iff`).
-/

namespace MultiAgent

namespace FieldEncryption

open Json (Value)

variable {Key Token : Type} (F : Fernet Key Token) (show' : Value → String)

/-! ## Values that come back -/

/-- A value that its text and the name of its type tell, or one that has no text. -/
def storable (value : Value) : Bool :=
  match value with
  | .dict _ | .list _ => value.isJson || value.reload.isNone
  | .str _ | .int _ | .float _ | .bool _ => true
  | .null | .tuple _ | .object _ _ => false

theorem reload_eq_self_iff {value : Value} (h : value.reload.isSome = true) :
    value.reload = some value ↔ (value.isJson || value.reload.isNone) = true := by
  have hnone : value.reload.isNone = false := by
    rw [← Option.not_isSome, h, Bool.not_true]
  rw [hnone, Bool.or_false]
  exact ⟨Value.isJson_of_reload, Value.reload_of_isJson⟩

/-- A text becomes its value again exactly if the value is storable. -/
theorem deserialize_iff {value : Value} {text : Plaintext} (h : serialize value = some text) :
    deserialize show' (originalType value) text = some value ↔ storable value = true := by
  cases value with
  | dict d =>
    obtain ⟨w, hw, rfl⟩ := Option.map_eq_some_iff.mp h
    exact reload_eq_self_iff (Option.isSome_of_eq_some hw)
  | list l =>
    obtain ⟨w, hw, rfl⟩ := Option.map_eq_some_iff.mp h
    exact reload_eq_self_iff (Option.isSome_of_eq_some hw)
  | null | bool _ | int _ | float _ | str _ | tuple _ | object _ _ =>
    obtain rfl := Option.some.inj h
    simp [deserialize, originalType, storable, strOf]

theorem storable_of_serialize_eq_none {value : Value} (h : serialize value = none) :
    storable value = true := by
  cases value with
  | dict d => simp [storable, Option.map_eq_none_iff.mp h]
  | list l => simp [storable, Option.map_eq_none_iff.mp h]
  | null | bool _ | int _ | float _ | str _ | tuple _ | object _ _ => cases h

/-! ## Keys and their fields -/

/-- A field whose key is cached under its id. -/
def Intact (m : FieldEncryptionManager Key) (x : EncryptedField Token × Value) : Prop :=
  ∃ key nonce text, m.encryptionCache.get? x.1.keyId = some key ∧
    x.1.encryptedData = F.encrypt key nonce text ∧ serialize x.2 = some text ∧
    x.1.originalType = originalType x.2

/-- The cached keys were generated, and every id with metadata has one. -/
structure Sound (m : FieldEncryptionManager Key) : Prop where
  cached : ∀ id ∈ m.keyCache, ∃ key, m.encryptionCache.get? id = some key
  fresh : ∀ id key, m.encryptionCache.get? id = some key →
    ∃ n < m.generated, key = F.generateKey n

/-- The fields have their keys, and what a rotation returned is the id of a key. -/
structure Keyed (s : EncryptionSystem Key Token) : Prop where
  sound : Sound F s.manager
  intact : ∀ x ∈ s.produced, Intact F s.manager x
  rotated : ∀ id ∈ s.rotated, id ≠ "" ∧ id ∈ s.manager.keyCache

/-- Every field decrypts to what it was made from, and every field was encrypted anew that was
to be. -/
def Recoverable (s : EncryptionSystem Key Token) : Prop :=
  (∀ x ∈ s.produced, ∀ generates,
    (s.manager.decryptField F show' x.1 generates).2 = some x.2) ∧
  ∀ b ∈ s.reencrypted, b = true

/-- No field has the key id. -/
def Unused (s : EncryptionSystem Key Token) (keyId : String) : Prop :=
  ∀ x ∈ s.produced, x.1.keyId ≠ keyId

/-- Where a field can be made the value is storable, and where a key is made it is the first
of its id that has fields. -/
def Careful (s : EncryptionSystem Key Token) (value : Value) (tenantId fieldName : String)
    (keyId : Option String) (generates : Bool) : Prop :=
  match FieldEncryptionManager.givenKeyId keyId with
  | some keyId => keyId ∈ s.manager.keyCache → storable value = true
  | none =>
    let keyId := keyIdOf tenantId fieldName
    if s.manager.hasActiveKey keyId then storable value = true
    else if generates then storable value = true ∧ Unused s keyId
    else True

/-- A call that neither replaces the key of a field nor stores a value that is lost. -/
def Keeps (s : EncryptionSystem Key Token) : EncryptionCall → Prop
  | .encryptField value tenantId fieldName keyId _ generates =>
    Careful s value tenantId fieldName keyId generates
  | .rotateKey tenantId fieldName generates =>
    generates = true → Unused s (keyIdOf tenantId fieldName)
  | .reencryptWithNewKey field newKeyId _ _ generates =>
    match s.produced[field]? with
    | some x => Careful s x.2 x.1.tenantId x.1.fieldName (some newKeyId) generates
    | none => True

/-! ## The manager -/

section Manager

open FieldEncryptionManager

variable {F} {m : FieldEncryptionManager Key} {id : String} {key : Key}
  {x : EncryptedField Token × Value}

theorem getCipher_of_cached (h : m.encryptionCache.get? id = some key) (generates : Bool) :
    m.getCipher F id generates = (m, some key) := by
  unfold getCipher
  rw [h]

/-- A field with its key is decrypted with it. -/
theorem Intact.decryptField (h : Intact F m x) (generates : Bool) :
    ∃ text, serialize x.2 = some text ∧ m.decryptField F show' x.1 generates =
      (m, deserialize show' (originalType x.2) text) := by
  obtain ⟨key, nonce, text, hkey, hdata, htext, htype⟩ := h
  refine ⟨text, htext, ?_⟩
  unfold FieldEncryptionManager.decryptField
  rw [getCipher_of_cached hkey]
  simp only [hdata, htype, F.decrypt_encrypt, Option.bind_some]

/-- It comes back exactly if its value is storable. -/
theorem Intact.decryptField_iff (h : Intact F m x) (generates : Bool) :
    (m.decryptField F show' x.1 generates).2 = some x.2 ↔ storable x.2 = true := by
  obtain ⟨text, htext, heq⟩ := h.decryptField show' generates
  rw [heq]
  exact deserialize_iff show' htext

theorem get?_cacheNewKey (id' : String) : (m.cacheNewKey F id).encryptionCache.get? id' =
    if id' = id then some (F.generateKey m.generated) else m.encryptionCache.get? id' :=
  Dict.get?_set ..

theorem Sound.cacheNewKey (h : Sound F m) (id : String) : Sound F (m.cacheNewKey F id) := by
  constructor
  · intro id' hid'
    obtain ⟨key, hkey⟩ := h.cached id' hid'
    rw [get?_cacheNewKey]
    split_ifs
    · exact ⟨_, rfl⟩
    · exact ⟨key, hkey⟩
  · intro id' key hkey
    rw [get?_cacheNewKey] at hkey
    split_ifs at hkey
    · exact ⟨m.generated, Nat.lt_succ_self _, (Option.some.inj hkey).symm⟩
    · obtain ⟨n, hn, rfl⟩ := h.fresh id' key hkey
      exact ⟨n, Nat.lt_succ_of_lt hn, rfl⟩

theorem Intact.cacheNewKey (h : Intact F m x) (hne : x.1.keyId ≠ id) :
    Intact F (m.cacheNewKey F id) x := by
  obtain ⟨key, nonce, text, hkey, hrest⟩ := h
  exact ⟨key, nonce, text, (get?_cacheNewKey _).trans ((if_neg hne).trans hkey), hrest⟩

theorem Sound.createEncryptionKey (h : Sound F m) (tenantId fieldName : String) :
    Sound F (m.createEncryptionKey F tenantId fieldName) := by
  have hnew := h.cacheNewKey (keyIdOf tenantId fieldName)
  constructor
  · intro id hid
    obtain ⟨_, hget⟩ := Dict.mem_iff_get?.mp hid
    by_cases hself : id = keyIdOf tenantId fieldName
    · exact ⟨_, (get?_cacheNewKey id).trans (if_pos hself)⟩
    · refine hnew.cached id (Dict.mem_of_get? ((Dict.get?_set_ne _ _ hself).symm.trans hget))
  · exact hnew.fresh

/-- A key is replaced by another one. -/
theorem Intact.decryptField_replaced (h : Intact F m x) (hsound : Sound F m)
    {m' : FieldEncryptionManager Key}
    (hkey : m'.encryptionCache.get? x.1.keyId = some (F.generateKey m.generated))
    (generates : Bool) : (m'.decryptField F show' x.1 generates).2 = none := by
  obtain ⟨key, nonce, text, hcached, hdata, -⟩ := h
  obtain ⟨n, hn, rfl⟩ := hsound.fresh _ _ hcached
  have hne : F.generateKey m.generated ≠ F.generateKey n :=
    fun heq => (Nat.ne_of_gt hn) (F.generateKey_injective heq)
  unfold FieldEncryptionManager.decryptField
  rw [getCipher_of_cached hkey]
  simp only [hdata, F.decrypt_of_ne _ _ _ _ hne, Option.bind_none]

/-- With a key there is, the value is encrypted if it has a text. -/
theorem encryptWith_of_mem (h : Sound F m) (hid : id ∈ m.keyCache) (value : Value)
    (tenantId fieldName : String) (nonce : ℕ) (generates : Bool) :
    ∃ field? : Option (EncryptedField Token),
      m.encryptWith F value tenantId fieldName id nonce generates = (m, field?) ∧
      field?.isSome = (serialize value).isSome ∧
      ∀ field ∈ field?, Intact F m (field, value) := by
  obtain ⟨cipher, hcipher⟩ := h.cached id hid
  obtain ⟨key, hkey⟩ := Dict.mem_iff_get?.mp hid
  cases htext : serialize value with
  | none =>
    refine ⟨none, ?_, rfl, fun field hfield => by cases hfield⟩
    simp only [encryptWith, getCipher_of_cached hcipher, htext]
  | some text =>
    let field : EncryptedField Token := {
      encryptedData := F.encrypt cipher nonce text
      keyId := id
      keyVersion := key.keyVersion
      fieldName
      tenantId
      originalType := originalType value }
    refine ⟨some field, ?_, rfl, fun field' hfield => ?_⟩
    · simp only [encryptWith, getCipher_of_cached hcipher, htext, hkey, field]
    · obtain rfl := Option.some.inj hfield
      exact ⟨cipher, nonce, text, hcipher, rfl, htext, rfl⟩

theorem keyCache_getCipher (id : String) (generates : Bool) :
    (m.getCipher F id generates).1.keyCache = m.keyCache := by
  unfold getCipher
  cases m.encryptionCache.get? id with
  | some cipher => rfl
  | none => cases generates <;> rfl

/-- With a key there is not, no value is encrypted, though a cipher may be cached. -/
theorem encryptWith_of_not_mem (hid : id ∉ m.keyCache) (value : Value)
    (tenantId fieldName : String) (nonce : ℕ) (generates : Bool) :
    m.encryptWith F value tenantId fieldName id nonce generates =
      ((m.getCipher F id generates).1, none) := by
  have hget := Dict.get?_eq_none.mpr hid
  rw [← keyCache_getCipher (F := F) id generates] at hget
  unfold encryptWith
  generalize m.getCipher F id generates = r at hget ⊢
  obtain ⟨m', cipher⟩ := r
  cases cipher with
  | none => rfl
  | some cipher =>
    simp only [hget]
    cases serialize value <;> rfl

end Manager

/-! ## Runs -/

section Runs

open FieldEncryptionManager

variable {F show'} {s t : EncryptionSystem Key Token}

/-- With their keys, the fields come back exactly if their values are storable. -/
theorem Keyed.recoverable_iff (h : Keyed F s) : Recoverable F show' s ↔
    (∀ x ∈ s.produced, storable x.2 = true) ∧ ∀ b ∈ s.reencrypted, b = true := by
  refine and_congr_left fun _ => forall₂_congr fun x hx => ?_
  constructor
  · exact fun hall => ((h.intact x hx).decryptField_iff show' false).mp (hall false)
  · exact fun hx' generates => ((h.intact x hx).decryptField_iff show' generates).mpr hx'

theorem Keyed.getCipher (h : Keyed F s) (id : String) (generates : Bool) :
    Keyed F { s with manager := (s.manager.getCipher F id generates).1 } := by
  cases hcipher : s.manager.encryptionCache.get? id with
  | some key =>
    rw [getCipher_of_cached hcipher]
    exact h
  | none =>
    unfold FieldEncryptionManager.getCipher
    rw [hcipher]
    cases generates with
    | false => exact h
    | true =>
      refine ⟨h.sound.cacheNewKey id, fun x hx => ?_, h.rotated⟩
      refine (h.intact x hx).cacheNewKey fun hself => ?_
      obtain ⟨key, -, -, hkey, -⟩ := h.intact x hx
      rw [hself, hcipher] at hkey
      cases hkey

theorem Keyed.createEncryptionKey (h : Keyed F s) {tenantId fieldName : String}
    (hun : Unused s (keyIdOf tenantId fieldName)) :
    Keyed F { s with manager := s.manager.createEncryptionKey F tenantId fieldName } := by
  refine ⟨h.sound.createEncryptionKey tenantId fieldName, fun x hx => ?_, fun id hid => ?_⟩
  · exact (h.intact x hx).cacheNewKey (hun x hx)
  · obtain ⟨hne, hmem⟩ := h.rotated id hid
    obtain ⟨key, hkey⟩ := Dict.mem_iff_get?.mp hmem
    refine ⟨hne, Dict.mem_iff_get?.mpr ?_⟩
    by_cases hself : id = keyIdOf tenantId fieldName
    · exact ⟨_, (Dict.get?_set ..).trans (if_pos hself)⟩
    · exact ⟨key, (Dict.get?_set_ne _ _ hself).trans hkey⟩

theorem Keyed.produce (h : Keyed F s) {value : Value} {field? : Option (EncryptedField Token)}
    (hnew : ∀ field ∈ field?, Intact F s.manager (field, value)) :
    Keyed F { s with produced := s.produced ++ (field?.map (·, value)).toList } := by
  refine ⟨h.sound, fun x hx => ?_, h.rotated⟩
  rcases List.mem_append.mp hx with hx | hx
  · exact h.intact x hx
  · obtain ⟨field, hfield, rfl⟩ := Option.map_eq_some_iff.mp (Option.mem_toList.mp hx)
    exact hnew field hfield

/-- A field that was produced now comes back exactly if its value is storable. -/
theorem Keyed.recoverable_produce (h : Keyed F s) (hrec : Recoverable F show' s) {value : Value}
    {field? : Option (EncryptedField Token)}
    (hnew : ∀ field ∈ field?, Intact F s.manager (field, value))
    (htext : field?.isSome = (serialize value).isSome) :
    Recoverable F show' { s with produced := s.produced ++ (field?.map (·, value)).toList } ↔
      storable value = true := by
  rw [(h.produce hnew).recoverable_iff]
  have hold := h.recoverable_iff.mp hrec
  constructor
  · rintro ⟨hall, -⟩
    cases hfield : field? with
    | none =>
      rw [hfield, Option.isSome_none, eq_comm, Option.isSome_eq_false_iff,
        Option.isNone_iff_eq_none] at htext
      exact storable_of_serialize_eq_none htext
    | some field => exact hall (field, value) (by simp [hfield])
  · refine fun hvalue => ⟨fun x hx => ?_, hold.2⟩
    rcases List.mem_append.mp hx with hx | hx
    · exact hold.1 x hx
    · obtain ⟨field, -, rfl⟩ := Option.map_eq_some_iff.mp (Option.mem_toList.mp hx)
      exact hvalue

/-- What `encrypt_field` leaves, with what it returned for the value. -/
def after (s : EncryptionSystem Key Token) (value : Value)
    (r : FieldEncryptionManager Key × Option (EncryptedField Token)) :
    EncryptionSystem Key Token :=
  { s with manager := r.1, produced := s.produced ++ (r.2.map (·, value)).toList }

theorem Keyed.encryptWith (h : Keyed F s) (hrec : Recoverable F show' s) (value : Value)
    (tenantId fieldName id : String) (nonce : ℕ) (generates : Bool) :
    Keyed F (after s value
      (s.manager.encryptWith F value tenantId fieldName id nonce generates)) ∧
    (Recoverable F show' (after s value
      (s.manager.encryptWith F value tenantId fieldName id nonce generates)) ↔
        (id ∈ s.manager.keyCache → storable value = true)) := by
  by_cases hid : id ∈ s.manager.keyCache
  · obtain ⟨field?, heq, htext, hnew⟩ :=
      encryptWith_of_mem h.sound hid value tenantId fieldName nonce generates
    rw [heq]
    exact ⟨h.produce hnew, (h.recoverable_produce hrec hnew htext).trans (by simp [hid])⟩
  · rw [encryptWith_of_not_mem hid]
    have hkeyed : Keyed F (after s value ((s.manager.getCipher F id generates).1, none)) := by
      simpa [after] using h.getCipher id generates
    refine ⟨hkeyed, iff_of_true (hkeyed.recoverable_iff.mpr ?_) fun hmem => absurd hmem hid⟩
    simpa [after] using h.recoverable_iff.mp hrec

/-- Under an id that has fields, the new key loses them. -/
theorem Keyed.not_recoverable_of_replaced (h : Keyed F s) {tenantId fieldName : String}
    (hused : ¬Unused s (keyIdOf tenantId fieldName))
    (hmanager : t.manager = s.manager.createEncryptionKey F tenantId fieldName)
    (hproduced : ∀ x ∈ s.produced, x ∈ t.produced) : ¬Recoverable F show' t := by
  intro hrec
  unfold Unused at hused
  push Not at hused
  obtain ⟨x, hx, hid⟩ := hused
  have hkey : t.manager.encryptionCache.get? x.1.keyId =
      some (F.generateKey s.manager.generated) := by
    rw [hmanager]
    exact (get?_cacheNewKey _).trans (if_pos hid)
  have hlost := (h.intact x hx).decryptField_replaced show' h.sound hkey false
  rw [hrec.1 x (hproduced x hx) false] at hlost
  cases hlost

theorem mem_keyCache_createEncryptionKey (m : FieldEncryptionManager Key)
    (tenantId fieldName : String) :
    keyIdOf tenantId fieldName ∈ (m.createEncryptionKey F tenantId fieldName).keyCache :=
  Dict.mem_of_get? (Dict.get?_set_self ..)

theorem mem_keyCache_of_hasActiveKey {m : FieldEncryptionManager Key} {id : String}
    (h : m.hasActiveKey id = true) : id ∈ m.keyCache := by
  obtain ⟨key, hkey, -⟩ := (Option.any_eq_true ..).mp h
  exact Dict.mem_of_get? hkey

/-- The fields come back after `encrypt_field` exactly if the call was careful, and then they
have their keys. -/
theorem Keyed.encryptField (h : Keyed F s) (hrec : Recoverable F show' s) (value : Value)
    (tenantId fieldName : String) (keyId : Option String) (nonce : ℕ) (generates : Bool) :
    (Recoverable F show' (after s value
        (s.manager.encryptField F value tenantId fieldName keyId nonce generates)) →
      Keyed F (after s value
        (s.manager.encryptField F value tenantId fieldName keyId nonce generates))) ∧
    (Recoverable F show' (after s value
        (s.manager.encryptField F value tenantId fieldName keyId nonce generates)) ↔
      Careful s value tenantId fieldName keyId generates) := by
  unfold FieldEncryptionManager.encryptField Careful
  cases givenKeyId keyId with
  | some id =>
    have hwith := h.encryptWith hrec value tenantId fieldName id nonce generates
    exact ⟨fun _ => hwith.1, hwith.2⟩
  | none =>
    simp only [getOrCreateKey]
    by_cases hactive : s.manager.hasActiveKey (keyIdOf tenantId fieldName) = true
    · have hwith := h.encryptWith hrec value tenantId fieldName
        (keyIdOf tenantId fieldName) nonce generates
      simp only [if_pos hactive]
      refine ⟨fun _ => hwith.1, hwith.2.trans ?_⟩
      simp [mem_keyCache_of_hasActiveKey hactive]
    · simp only [if_neg hactive]
      cases generates with
      | false =>
        have hsame : after s value (s.manager, none) = s := by simp [after]
        simp only [Bool.false_eq_true, if_false, hsame]
        exact ⟨fun _ => h, iff_of_true hrec trivial⟩
      | true =>
        simp only [if_true]
        have hmem := mem_keyCache_createEncryptionKey (F := F) s.manager tenantId fieldName
        by_cases hun : Unused s (keyIdOf tenantId fieldName)
        · have hnew := h.createEncryptionKey hun
          have hnewrec : Recoverable F show' _ :=
            hnew.recoverable_iff.mpr (h.recoverable_iff.mp hrec)
          have hwith := hnew.encryptWith hnewrec value tenantId fieldName
            (keyIdOf tenantId fieldName) nonce true
          refine ⟨fun _ => hwith.1, hwith.2.trans ?_⟩
          simp [hmem, hun]
        · obtain ⟨field?, heq, -⟩ := encryptWith_of_mem
            (h.sound.createEncryptionKey tenantId fieldName) hmem value tenantId fieldName
            nonce true
          have hlost : ¬Recoverable F show' (after s value
              (s.manager.createEncryptionKey F tenantId fieldName, field?)) :=
            h.not_recoverable_of_replaced hun rfl fun x hx => List.mem_append_left _ hx
          rw [heq]
          exact ⟨fun hrec' => absurd hrec' hlost, iff_of_false hlost fun hand => hun hand.2⟩

theorem Keyed.markRotating (h : Keyed F s) (id : String) :
    Keyed F { s with manager := s.manager.markRotating id } := by
  unfold FieldEncryptionManager.markRotating
  cases hkey : s.manager.keyCache.get? id with
  | none => exact h
  | some key =>
    have hmem : ∀ id', id' ∈ s.manager.keyCache.set id { key with status := .rotating } ↔
        id' ∈ s.manager.keyCache := by
      intro id'
      rw [← Dict.get?_isSome, ← Dict.get?_isSome, Dict.get?_set]
      split_ifs with hself
      · simp [hself, hkey]
      · rfl
    exact ⟨⟨fun id' hid' => h.sound.cached id' ((hmem id').mp hid'), h.sound.fresh⟩,
      h.intact, fun id' hid' => ⟨(h.rotated id' hid').1, (hmem id').mpr (h.rotated id' hid').2⟩⟩

theorem keyIdOf_ne (tenantId fieldName : String) : keyIdOf tenantId fieldName ≠ "" := by
  intro h
  have hlength := congrArg String.length h
  simp [keyIdOf] at hlength

theorem Keyed.rotateKey (h : Keyed F s) (hrec : Recoverable F show' s)
    {tenantId fieldName : String} {generates : Bool}
    (hst : s.step F show' (.rotateKey tenantId fieldName generates) = some t) :
    (Recoverable F show' t → Keyed F t) ∧
      (Recoverable F show' t ↔ Keeps s (.rotateKey tenantId fieldName generates)) := by
  have hmark := h.markRotating (keyIdOf tenantId fieldName)
  have hold := h.recoverable_iff.mp hrec
  obtain rfl := Option.some.inj hst
  cases generates with
  | false =>
    simp only [FieldEncryptionManager.rotateKey, Bool.false_eq_true, if_false, Option.toList_none,
      List.append_nil]
    exact ⟨fun _ => hmark, iff_of_true (hmark.recoverable_iff.mpr hold) (by simp [Keeps])⟩
  | true =>
    simp only [FieldEncryptionManager.rotateKey, if_true, Option.toList_some]
    by_cases hun : Unused s (keyIdOf tenantId fieldName)
    · have hnew := hmark.createEncryptionKey hun
      have hkeyed : Keyed F { s with
          manager := (s.manager.markRotating (keyIdOf tenantId fieldName)).createEncryptionKey F
            tenantId fieldName
          rotated := s.rotated ++ [keyIdOf tenantId fieldName] } := by
        refine ⟨hnew.sound, hnew.intact, List.forall_mem_append.mpr ⟨hnew.rotated, ?_⟩⟩
        rw [List.forall_mem_singleton]
        exact ⟨keyIdOf_ne _ _, mem_keyCache_createEncryptionKey ..⟩
      exact ⟨fun _ => hkeyed, iff_of_true (hkeyed.recoverable_iff.mpr hold) fun _ => hun⟩
    · have hlost : ¬Recoverable F show' { s with
          manager := (s.manager.markRotating (keyIdOf tenantId fieldName)).createEncryptionKey F
            tenantId fieldName
          rotated := s.rotated ++ [keyIdOf tenantId fieldName] } :=
        hmark.not_recoverable_of_replaced hun rfl fun x hx => hx
      exact ⟨fun hrec' => absurd hrec' hlost, iff_of_false hlost fun hall => hun (hall rfl)⟩

theorem encryptField_isSome (h : Keyed F s) {x : EncryptedField Token × Value}
    (hx : Intact F s.manager x) {id : String} (hid : id ∈ s.rotated) (nonce : ℕ)
    (generates : Bool) : (s.manager.encryptField F x.2 x.1.tenantId x.1.fieldName (some id) nonce
      generates).2.isSome = true := by
  obtain ⟨hne, hmem⟩ := h.rotated id hid
  obtain ⟨-, -, text, -, -, htext, -⟩ := hx
  obtain ⟨field?, heq, hsome, -⟩ := encryptWith_of_mem h.sound hmem x.2 x.1.tenantId
    x.1.fieldName nonce generates
  simp only [FieldEncryptionManager.encryptField, givenKeyId, if_neg hne, heq]
  rw [hsome, htext]
  rfl

/-- While the fields come back, encrypting one anew is encrypting its value. -/
theorem Keyed.reencrypt (h : Keyed F s) (hrec : Recoverable F show' s)
    {x : EncryptedField Token × Value} (hx : x ∈ s.produced) (newKeyId : String) (nonce : ℕ)
    (loads generates : Bool) :
    s.manager.reencryptWithNewKey F show' x.1 newKeyId nonce loads generates =
      ((s.manager.encryptField F x.2 x.1.tenantId x.1.fieldName (some newKeyId) nonce
          generates).1,
        (s.manager.encryptField F x.2 x.1.tenantId x.1.fieldName (some newKeyId) nonce
          generates).2.map (·, x.2)) := by
  obtain ⟨text, -, heq⟩ := (h.intact x hx).decryptField show' loads
  have hback := hrec.1 x hx loads
  rw [heq] at hback
  unfold reencryptWithNewKey
  rw [heq, show deserialize show' (originalType x.2) text = some x.2 from hback]

theorem Keyed.step {e : EncryptionCall} (h : Keyed F s) (hrec : Recoverable F show' s)
    (hst : s.step F show' e = some t) :
    (Recoverable F show' t → Keyed F t) ∧ (Recoverable F show' t ↔ Keeps s e) := by
  cases e with
  | encryptField value tenantId fieldName keyId nonce generates =>
    obtain rfl := Option.some.inj hst
    exact h.encryptField hrec value tenantId fieldName keyId nonce generates
  | rotateKey tenantId fieldName generates => exact h.rotateKey hrec hst
  | reencryptWithNewKey field newKeyId nonce loads generates =>
    simp only [EncryptionSystem.step] at hst
    simp only [Keeps]
    cases hx : s.produced[field]? with
    | none =>
      rw [hx] at hst
      cases hst
    | some x =>
      simp only [hx] at hst
      obtain rfl := Option.some.inj hst
      have hmem := List.mem_of_getElem? hx
      have henc := h.encryptField hrec x.2 x.1.tenantId x.1.fieldName (some newKeyId) nonce
        generates
      have hdone : newKeyId ∈ s.rotated → (s.manager.encryptField F x.2 x.1.tenantId
          x.1.fieldName (some newKeyId) nonce generates).2.isSome = true :=
        fun hid => encryptField_isSome h (h.intact x hmem) hid nonce generates
      rw [h.reencrypt hrec hmem]
      refine ⟨fun hrec' => ?_, Iff.trans ?_ henc.2⟩
      · have hkeyed := henc.1 ⟨hrec'.1, hrec.2⟩
        exact ⟨hkeyed.sound, hkeyed.intact, hkeyed.rotated⟩
      · refine and_congr_right fun _ => iff_of_true ?_ hrec.2
        split_ifs with hid
        · rw [List.forall_mem_append, List.forall_mem_singleton, Option.isSome_map]
          exact ⟨hrec.2, hdone hid⟩
        · exact hrec.2

/-- In a run all fields come back, and all rotated ones are encrypted anew, if and only if its
calls store storable values and make no new key for an id that has fields. -/
theorem recoverable_throughout_iff {es : List EncryptionCall}
    (h : (encryptionMachine F show').Run (fun _ _ => True) es s) :
    (encryptionMachine F show').Throughout (Recoverable F show') es ↔
      (encryptionMachine F show').Run Keeps es s := by
  have hinit : Keyed F (encryptionMachine F show').init ∧
      Recoverable F show' (encryptionMachine F show').init := by
    refine ⟨⟨⟨?_, ?_⟩, ?_, ?_⟩, ?_, ?_⟩ <;> simp [encryptionMachine]
  exact h.throughout_iff_run hinit (fun _ _ _ hI hJ hst => (hI.step hJ hst).1)
    fun _ _ _ hI hJ hst => (hI.step hJ hst).2

end Runs

/-- Tokens that show their key and text. -/
def clearFernet : Fernet ℕ (ℕ × ℕ × Plaintext) where
  generateKey := id
  encrypt key nonce text := (key, nonce, text)
  decrypt key token := if key = token.1 then some token.2.2 else none
  generateKey_injective := Function.injective_id
  decrypt_encrypt _ _ _ := if_pos rfl
  decrypt_of_ne _ _ _ _ hne := if_neg hne

/-- An email address is encrypted. -/
def encryptEmail : EncryptionCall :=
  .encryptField (.str "alice@example.com") "acme" "email" none 0 true

/-- The first key of a field may be made by a rotation. -/
theorem recoverable_throughout_first : ∃ s,
    (encryptionMachine clearFernet fun _ => "").Throughout
        (Recoverable clearFernet fun _ => "") [.rotateKey "acme" "email" true, encryptEmail] ↔
      (encryptionMachine clearFernet fun _ => "").Run Keeps
        [.rotateKey "acme" "email" true, encryptEmail] s := by
  obtain ⟨s, hrun, -⟩ := (encryptionMachine clearFernet fun _ => "").exists_run
    (fun _ _ => True) [.rotateKey "acme" "email" true, encryptEmail]
    (fun s => decide (s.produced.length = 1)) (by decide +kernel)
  exact ⟨s, recoverable_throughout_iff hrun⟩

/-- After a rotation a field is neither decrypted nor encrypted anew. -/
theorem not_recoverable :
    (¬∀ s, (encryptionMachine clearFernet fun _ => "").Run (fun _ _ => True)
        [encryptEmail, .rotateKey "acme" "email" true] s →
      ∀ x ∈ s.produced, (s.manager.decryptField clearFernet (fun _ => "") x.1 true).2 =
        some x.2) ∧
    ¬∀ s, (encryptionMachine clearFernet fun _ => "").Run (fun _ _ => True)
        [encryptEmail, .rotateKey "acme" "email" true,
          .reencryptWithNewKey 0 "acme:email" 1 true true] s →
      ∀ b ∈ s.reencrypted, b = true := by
  constructor
  · intro hall
    obtain ⟨s, hrun, hany⟩ := (encryptionMachine clearFernet fun _ => "").exists_run
      (fun _ _ => True) [encryptEmail, .rotateKey "acme" "email" true]
      (fun s => s.produced.any fun x =>
        (s.manager.decryptField clearFernet (fun _ => "") x.1 true).2.isNone) (by decide +kernel)
    obtain ⟨x, hx, hnone⟩ := List.any_eq_true.mp hany
    rw [hall s hrun x hx] at hnone
    cases hnone
  · intro hall
    obtain ⟨s, hrun, hany⟩ := (encryptionMachine clearFernet fun _ => "").exists_run
      (fun _ _ => True) [encryptEmail, .rotateKey "acme" "email" true,
        .reencryptWithNewKey 0 "acme:email" 1 true true]
      (fun s => s.reencrypted.any fun b => !b) (by decide +kernel)
    obtain ⟨b, hb, hfalse⟩ := List.any_eq_true.mp hany
    rw [hall s hrun b hb] at hfalse
    cases hfalse

end FieldEncryption

end MultiAgent
