import MultiAgent.Lib.Luhn
import MultiAgent.Lib.PyValue
import MultiAgent.Lib.Regex
import MultiAgent.Middleware.PrivacyMiddleware

/-!
# The PII detector

`detect_pii` of `PIIDetector` in `libs/utils/security/pii_detector.py`, with its patterns and its
masks. Which characters are digits and which are those of words is a matter of the tables of
Unicode, and a parameter.

No pattern matches the empty text (`Pattern`), so each match is a span of the text and has a
detection. The redaction is the one of the privacy middleware (`detectPii_redactedText`). The
numbers of cards are checked with Luhn sums (`validateCreditCard_iff`).
-/

namespace MultiAgent

namespace Privacy

/-- What `\d` and `\w` match. -/
structure CharTables where
  isDecimal : CodePoint → Bool
  isWord : CodePoint → Bool

namespace PIIDetector

/-! ## The characters of the patterns -/

theorem toNat_lt (c : Char) : c.toNat < 0x110000 := by
  rcases c.valid with h | h
  · exact Nat.lt_trans h (by decide)
  · exact h.2

/-- The code point of a character. -/
def code (c : Char) : CodePoint :=
  ⟨c.toNat, toNat_lt c⟩

/-- A range of a class. -/
def between (first last : Char) (c : CodePoint) : Bool :=
  code first ≤ c && c ≤ code last

/-- The single characters of a class. -/
def among (s : String) (c : CodePoint) : Bool :=
  decide (c ∈ text s)

/-- `\s` -/
def isSpace (c : CodePoint) : Bool :=
  PyValue.isSpace (Char.ofNat c)

/-- `[A-Za-z]` where case is ignored. Four letters of other alphabets are the same as `i`, `k`
and `s` then. -/
def isLetter (c : CodePoint) : Bool :=
  between 'A' 'Z' c || between 'a' 'z' c || among "\u0130\u0131\u017f\u212a" c

/-- One character as it is. -/
def literal (c : Char) : Regex CodePoint :=
  .char (· == code c)

/-- `[0-9]` -/
def digit : Regex CodePoint :=
  .char (between '0' '9')

/-- `[A-Z]` -/
def upper : Regex CodePoint :=
  .char (between 'A' 'Z')

/-- `[0-9a-fA-F]` -/
def hexDigit : Regex CodePoint :=
  .char fun c => between '0' '9' c || between 'a' 'f' c || between 'A' 'F' c

variable (tables : CharTables)

/-- `\d` -/
def decimal : Regex CodePoint :=
  .char tables.isDecimal

/-- The expression between two `\b`. -/
def bounded (r : Regex CodePoint) : Regex CodePoint :=
  .chain (.boundary tables.isWord) [r, .boundary tables.isWord]

/-- From `least` to `most` times `\d`. -/
def decimals (least most : ℕ) : Regex CodePoint :=
  .times (decimal tables) least (some most)

/-! ## The patterns -/

open Regex (chain oneOf optional exactly)

/-- An expression that does not match the empty text. -/
def Pattern : Type :=
  { r : Regex CodePoint // 0 < r.minLength }

/-- `PIIType.EMAIL`, where case is ignored. -/
def email : List Pattern :=
  [⟨bounded tables (chain
      (.times (.char fun c => isLetter c || between '0' '9' c || among "._%+-" c) 1 none)
      [literal '@', .times (.char fun c => isLetter c || between '0' '9' c || among ".-" c) 1 none,
        literal '.', .times (.char fun c => isLetter c || among "|" c) 2 none]),
    Nat.le_of_ble_eq_true rfl⟩]

/-- `[-.\s]?` -/
def phoneSeparator : Regex CodePoint :=
  optional (.char fun c => among "-." c || isSpace c)

/-- `PIIType.PHONE`. -/
def phone : List Pattern :=
  [⟨chain (optional (chain (optional (literal '+')) [literal '1', phoneSeparator]))
      [optional (literal '('), exactly digit 3, optional (literal ')'), phoneSeparator,
        exactly digit 3, phoneSeparator, exactly digit 4],
    Nat.le_of_ble_eq_true rfl⟩,
   ⟨chain (optional (literal '+')) [.char (between '1' '9'), decimals tables 1 14],
    Nat.le_of_ble_eq_true rfl⟩]

/-- `[-\s]?` -/
def cardSeparator : Regex CodePoint :=
  optional (.char fun c => among "-" c || isSpace c)

/-- `PIIType.CREDIT_CARD`. -/
def creditCard : List Pattern :=
  [⟨bounded tables (oneOf
      (chain (literal '4') [exactly digit 12, optional (exactly digit 3)])
      [chain (literal '5') [.char (between '1' '5'), exactly digit 14],
        chain (literal '3') [.char (among "47"), exactly digit 13],
        chain (literal '3') [exactly digit 13],
        chain (literal '6') [
          oneOf (chain (literal '0') [literal '1', literal '1'])
            [chain (literal '5') [exactly digit 2]],
          exactly digit 12]]),
    Nat.le_of_ble_eq_true rfl⟩,
   ⟨bounded tables (chain (exactly (decimal tables) 4)
      [cardSeparator, exactly (decimal tables) 4, cardSeparator, exactly (decimal tables) 4,
        cardSeparator, exactly (decimal tables) 4]),
    Nat.le_of_ble_eq_true rfl⟩]

/-- `\b\d{9}\b` -/
def nineDigits : Pattern :=
  ⟨bounded tables (exactly (decimal tables) 9), Nat.le_of_ble_eq_true rfl⟩

/-- `PIIType.SSN`. -/
def ssn : List Pattern :=
  [⟨bounded tables (chain (exactly (decimal tables) 3)
      [optional (literal '-'), exactly (decimal tables) 2, optional (literal '-'),
        exactly (decimal tables) 4]),
    Nat.le_of_ble_eq_true rfl⟩,
   nineDigits tables]

/-- `PIIType.PASSPORT`. -/
def passport : List Pattern :=
  [⟨bounded tables (chain (.times upper 1 (some 2)) [decimals tables 6 9]),
    Nat.le_of_ble_eq_true rfl⟩,
   nineDigits tables]

/-- `PIIType.DRIVER_LICENSE`. -/
def driverLicense : List Pattern :=
  [⟨bounded tables (chain upper [decimals tables 7 8]), Nat.le_of_ble_eq_true rfl⟩,
   ⟨bounded tables (decimals tables 8 9), Nat.le_of_ble_eq_true rfl⟩]

/-- `PIIType.BANK_ACCOUNT`. -/
def bankAccount : List Pattern :=
  [⟨bounded tables (decimals tables 8 17), Nat.le_of_ble_eq_true rfl⟩]

/-- `PIIType.IP_ADDRESS`. -/
def ipAddress : List Pattern :=
  [⟨bounded tables (chain (exactly (chain (.times digit 1 (some 3)) [literal '.']) 3)
      [.times digit 1 (some 3)]),
    Nat.le_of_ble_eq_true rfl⟩,
   ⟨bounded tables (chain (exactly (chain (.times hexDigit 1 (some 4)) [literal ':']) 7)
      [.times hexDigit 1 (some 4)]),
    Nat.le_of_ble_eq_true rfl⟩]

/-- `PIIType.MAC_ADDRESS`. -/
def macAddress : List Pattern :=
  [⟨bounded tables (chain (exactly (chain (exactly hexDigit 2) [.char (among ":-")]) 5)
      [exactly hexDigit 2]),
    Nat.le_of_ble_eq_true rfl⟩]

/-- `(?:0[1-9]|1[0-2])` -/
def month : Regex CodePoint :=
  oneOf (chain (literal '0') [.char (between '1' '9')])
    [chain (literal '1') [.char (between '0' '2')]]

/-- `(?:0[1-9]|[12][0-9]|3[01])` -/
def day : Regex CodePoint :=
  oneOf (chain (literal '0') [.char (between '1' '9')])
    [chain (.char (among "12")) [digit], chain (literal '3') [.char (among "01")]]

/-- `(?:19|20)\d{2}` -/
def year : Regex CodePoint :=
  chain (oneOf (chain (literal '1') [literal '9']) [chain (literal '2') [literal '0']])
    [exactly (decimal tables) 2]

/-- `[-\/]` -/
def dateSeparator : Regex CodePoint :=
  .char (among "-/")

/-- `PIIType.DATE_OF_BIRTH`. -/
def dateOfBirth : List Pattern :=
  [⟨bounded tables (chain month [dateSeparator, day, dateSeparator, year tables]),
    Nat.le_of_ble_eq_true rfl⟩,
   ⟨bounded tables (chain (year tables) [dateSeparator, month, dateSeparator, day]),
    Nat.le_of_ble_eq_true rfl⟩]

/-- `PIIType.NATIONAL_ID`. -/
def nationalId : List Pattern :=
  [⟨bounded tables (chain (exactly upper 2)
      [decimals tables 6 12, optional (.char fun c => between 'A' 'Z' c || between '0' '9' c)]),
    Nat.le_of_ble_eq_true rfl⟩]

/-- `_initialize_detection_patterns`. -/
def detectionPatterns : List (PIIType × List Pattern) :=
  [(.email, email tables), (.phone, phone tables), (.creditCard, creditCard tables),
    (.ssn, ssn tables), (.passport, passport tables), (.driverLicense, driverLicense tables),
    (.bankAccount, bankAccount tables), (.ipAddress, ipAddress tables),
    (.macAddress, macAddress tables), (.dateOfBirth, dateOfBirth tables),
    (.nationalId, nationalId tables)]

/-- `_initialize_redaction_masks`. -/
def redactionMask : PIIType → Text
  | .email => text "***@***.***"
  | .phone => text "***-***-****"
  | .creditCard => text "****-****-****-****"
  | .ssn => text "***-**-****"
  | .passport => text "********"
  | .driverLicense => text "********"
  | .bankAccount => text "****-****-****-****"
  | .ipAddress => text "***.***.***.***"
  | .macAddress => text "**:**:**:**:**:**"
  | .personalName => text "****"
  | .address => text "*** ********"
  | .dateOfBirth => text "**/**/****"
  | .nationalId => text "********"

/-! ## The detections -/

/-- `_create_pii_detection`, of a match. -/
def createPiiDetection {s : Text} (piiType : PIIType) (m : ℕ × ℕ)
    (h : m.1 < m.2 ∧ m.2 ≤ s.length) : PIIDetection s :=
  { piiType, start := m.1, stop := m.2, redactionMask := redactionMask piiType
    start_lt := h.1, stop_le := h.2 }

/-- The detections of one pattern. -/
def detectionsOf (s : Text) (piiType : PIIType) (pattern : Pattern) : List (PIIDetection s) :=
  (pattern.1.finditer s).attach.map fun m =>
    createPiiDetection piiType m.1 (Regex.bounds_of_mem_finditer pattern.2 m.2)

/-- `if allowed_types and pii_type not in allowed_types`. -/
def isSkipped (allowedTypes : Option (List PIIType)) (piiType : PIIType) : Bool :=
  allowedTypes.any fun allowed => !allowed.isEmpty && decide (piiType ∉ allowed)

/-- What the patterns find, before it is sorted. -/
def detections (s : Text) (allowedTypes : Option (List PIIType)) : List (PIIDetection s) :=
  (detectionPatterns tables).flatMap fun entry =>
    if isSkipped allowedTypes entry.1 then []
    else entry.2.flatMap (detectionsOf s entry.1)

end PIIDetector

/-- `PIIDetectionResult`. -/
structure PIIDetectionResult (s : Text) where
  detections : List (PIIDetection s)
  hasPii : Bool
  redactedText : Text
  redactionCount : ℕ

namespace PIIDetector

variable (tables : CharTables)

/-- `detect_pii`. -/
def detectPii (s : Text) (allowedTypes : Option (List PIIType)) : PIIDetectionResult s :=
  let detections := sortedDetections (detections tables s allowedTypes)
  { detections
    hasPii := 0 < detections.length
    redactedText := Splice.applyAll s (detections.map PIIDetection.edit)
    redactionCount := detections.length }

theorem detectPii_redactedText (s : Text) (allowedTypes : Option (List PIIType)) :
    (detectPii tables s allowedTypes).redactedText =
      applyRedaction s (detections tables s allowedTypes) :=
  rfl

/-! ## The numbers of cards -/

section CardNumbers

/-- The digits of a number, each with the value that `int` reads in it. -/
def digitsOf (value : CodePoint → Option (Fin 10)) (cardNumber : Text) : List (Fin 10) :=
  cardNumber.filterMap value

/-- One round of the loop of `_validate_credit_card`. -/
def luhnStep (state : ℕ × Bool) (digit : Fin 10) : ℕ × Bool :=
  let (total, isOdd) := state
  if isOdd then
    let digit := digit.val * 2
    let digit := if 9 < digit then digit - 9 else digit
    (total + digit, !isOdd)
  else (total + digit.val, !isOdd)

/-- `_validate_credit_card`. -/
def validateCreditCard (value : CodePoint → Option (Fin 10)) (cardNumber : Text) : Bool :=
  let digits := digitsOf value cardNumber
  if digits.length < 13 || 19 < digits.length then false
  else
    let (total, _) := digits.reverse.foldl luhnStep (0, false)
    total % 10 == 0

/-- The values of the digits of ASCII. -/
def asciiValue (c : CodePoint) : Option (Fin 10) :=
  if between '0' '9' c then
    if h : c.val - '0'.toNat < 10 then some ⟨c.val - '0'.toNat, h⟩ else none
  else none

variable {value : CodePoint → Option (Fin 10)} {l s r : Text} {x y : CodePoint} {d d' : Fin 10}

theorem foldl_luhnStep (digits : List (Fin 10)) (total : ℕ) (isOdd : Bool) :
    (digits.foldl luhnStep (total, isOdd)).1 = total + Luhn.total isOdd digits := by
  induction digits generalizing total isOdd with
  | nil => rfl
  | cons digit digits ih =>
    have hstep : luhnStep (total, isOdd) digit =
        (total + (if isOdd then Luhn.double digit else digit), !isOdd) := by
      cases isOdd <;> rfl
    rw [List.foldl_cons, hstep, ih, Luhn.total, Nat.add_assoc]

/-- What is checked of the digits, the last one first. -/
theorem validateCreditCard_iff {cardNumber : Text} {digits : List (Fin 10)}
    (h : (digitsOf value cardNumber).reverse = digits) :
    validateCreditCard value cardNumber = true ↔
      13 ≤ digits.length ∧ digits.length ≤ 19 ∧ Luhn.total false digits % 10 = 0 := by
  have hsum := foldl_luhnStep digits 0 false
  have hlength : (digitsOf value cardNumber).length = digits.length := by
    rw [← h, List.length_reverse]
  rw [Nat.zero_add] at hsum
  simp only [validateCreditCard, h, hsum, hlength, Bool.or_eq_true, decide_eq_true_eq]
  split_ifs with hout
  · exact iff_of_false (by simp) (by omega)
  · rw [beq_iff_eq]
    exact ⟨fun h => ⟨by omega, by omega, h⟩, fun h => h.2.2⟩

theorem digitsOf_append (l r : Text) :
    digitsOf value (l ++ r) = digitsOf value l ++ digitsOf value r :=
  List.filterMap_append

theorem digitsOf_cons (hx : value x = some d) (r : Text) :
    digitsOf value (x :: r) = d :: digitsOf value r :=
  List.filterMap_cons_some hx

theorem reverse_digitsOf (hx : value x = some d) (l r : Text) :
    (digitsOf value (l ++ x :: r)).reverse =
      (digitsOf value r).reverse ++ d :: (digitsOf value l).reverse := by
  rw [digitsOf_append, digitsOf_cons hx, List.reverse_append, List.reverse_cons,
    List.append_assoc, List.singleton_append]

/-- The digits before a neighbour. -/
theorem reverse_digitsOf_neighbour (hx : value x = some d) (hs : ∀ c ∈ s, value c = none)
    (l : Text) : (digitsOf value (l ++ x :: s)).reverse = d :: (digitsOf value l).reverse := by
  have hnone : digitsOf value s = [] := List.filterMap_eq_nil_iff.mpr hs
  rw [reverse_digitsOf hx, hnone]
  rfl

/-- A valid number with one digit replaced is valid only if it is the same digit. -/
theorem validateCreditCard_of_replaced (hx : value x = some d) (hy : value y = some d')
    (h : validateCreditCard value (l ++ x :: r) = true) :
    validateCreditCard value (l ++ y :: r) = true ↔ d = d' := by
  obtain ⟨hleast, hmost, htotal⟩ := (validateCreditCard_iff (reverse_digitsOf hx l r)).mp h
  rw [validateCreditCard_iff (reverse_digitsOf hy l r),
    ← Luhn.total_eq_iff_of_one false (digitsOf value r).reverse, htotal]
  rw [List.length_append, List.length_cons] at hleast hmost ⊢
  exact ⟨fun h => h.2.2.symm, fun h => ⟨hleast, hmost, h.symm⟩⟩

theorem validateCreditCard_of_replaced_last :
    validateCreditCard asciiValue (text "411111111111111" ++ code '7' :: []) = true ↔
      (1 : Fin 10) = 7 :=
  validateCreditCard_of_replaced (x := code '1') (by decide) (by decide) (by decide +kernel)

/-- A valid number with two neighbouring digits exchanged, whatever stands between them, is valid
only if they are the same, or a zero and a nine. -/
theorem validateCreditCard_of_exchanged (hx : value x = some d) (hy : value y = some d')
    (hs : ∀ c ∈ s, value c = none)
    (h : validateCreditCard value (l ++ x :: s ++ y :: r) = true) :
    validateCreditCard value (l ++ y :: s ++ x :: r) = true ↔
      d = d' ∨ d = 0 ∧ d' = 9 ∨ d = 9 ∧ d' = 0 := by
  have hbefore := reverse_digitsOf hy (l ++ x :: s) r
  have hafter := reverse_digitsOf hx (l ++ y :: s) r
  rw [reverse_digitsOf_neighbour hx hs] at hbefore
  rw [reverse_digitsOf_neighbour hy hs] at hafter
  obtain ⟨hleast, hmost, htotal⟩ := (validateCreditCard_iff hbefore).mp h
  rw [validateCreditCard_iff hafter,
    ← Luhn.total_eq_iff_of_exchange false (digitsOf value r).reverse]
  rw [List.length_append, List.length_cons, List.length_cons] at hleast hmost ⊢
  constructor
  · rintro ⟨-, -, htotal'⟩
    rw [htotal, htotal']
  · exact fun h => ⟨hleast, hmost, h.trans htotal⟩

theorem validateCreditCard_of_exchanged_nine :
    validateCreditCard asciiValue
        (text "4111-1111-111" ++ code '9' :: text "-" ++ code '0' :: text "115") = true ↔
      (0 : Fin 10) = 9 ∨ (0 : Fin 10) = 0 ∧ (9 : Fin 10) = 9 ∨
        (0 : Fin 10) = 9 ∧ (9 : Fin 10) = 0 :=
  validateCreditCard_of_exchanged (x := code '0') (y := code '9') (by decide) (by decide)
    (List.forall_mem_singleton.mpr (by decide)) (by decide +kernel)

end CardNumbers

end PIIDetector

end Privacy

end MultiAgent
