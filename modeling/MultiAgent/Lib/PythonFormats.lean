import MultiAgent.Lib.Decimal
import MultiAgent.Lib.DocumentText
import MultiAgent.Lib.PythonText

/-!
# Two formats of documents

The scalars of a document are written as strings, or as tokens : the names of the constants and the
texts of numbers. A number begins with a digit or a minus, and a float has a point or an exponent,
so no two scalars have one text (`Literals.text_reads`). `Literals` is what `repr` and `json.dumps`
differ in : how they name the constants, and how they quote strings. Both make a format of
documents (`Literals.format`). Floats that are no numbers are left out, and the digits of an integer
have no limit.
-/

namespace MultiAgent

namespace PyText

/-- The text of a finite float. -/
def isFloatText (s : String) : Bool :=
  s.toList.all (fun c => c.isDigit || c = '.' || c = 'e' || c = '+' || c = '-') &&
    s.toList.any (fun c => c = '.' || c = 'e') &&
      s.toList.head?.any fun c => c.isDigit || c = '-'

/-- A finite float, which is known by its text. -/
abbrev FloatText :=
  { s : String // isFloatText s = true }

/-- What a document has apart from lists and objects. -/
inductive Scalar
  | null
  | bool (b : Bool)
  | int (i : ℤ)
  | float (f : FloatText)
  | str (s : String)
  deriving DecidableEq

/-- The quotes of string literals. -/
def isQuote (c : Char) : Bool :=
  ['\'', '"'].contains c

/-- A name of letters. -/
def isName (s : List Char) : Bool :=
  s.all Char.isAlpha && !s.isEmpty

/-- The names of the constants, and the literals of strings. -/
structure Literals where
  null : List Char
  bool : Bool → List Char
  quote : String → List Char
  null_isName : isName null = true
  bool_isName : ∀ b, isName (bool b) = true
  null_ne_bool : ∀ b, null ≠ bool b
  true_ne_false : bool true ≠ bool false
  quote_prefixCode : PrefixCode quote
  quote_head : ∀ s, ∃ c t, quote s = c :: t ∧ isQuote c = true

namespace Literals

variable (L : Literals)

/-- The text of a scalar. -/
def text : Scalar → List Char
  | .null => L.null
  | .bool b => L.bool b
  | .int i => (toString i).toList
  | .float f => f.1.toList
  | .str s => L.quote s

/-! ## Tokens -/

/-- The scalar is no string. -/
def isToken : Scalar → Bool
  | .str _ => false
  | _ => true

/-- What a token is made of. -/
def inToken (c : Char) : Bool :=
  c.isAlpha || c.isDigit || c = '.' || c = '+' || c = '-'

/-- What a number begins with. -/
def beginsNumber (c : Char) : Bool :=
  c.isDigit || c = '-'

theorem contains_eq_false {l : List Char} (hl : l.all (fun c => !inToken c) = true) {c : Char}
    (h : inToken c = true) : l.contains c = false := by
  by_contra hc
  rw [Bool.not_eq_false, List.contains_iff_mem] at hc
  have hnot := List.all_eq_true.mp hl c hc
  rw [h] at hnot
  cases hnot

theorem not_delimiter {c : Char} (h : inToken c = true) : isDelimiter c = false :=
  contains_eq_false (by decide) h

theorem not_bracket {c : Char} (h : inToken c = true) : isBracket c = false :=
  contains_eq_false (by decide) h

theorem not_quote {c : Char} (h : inToken c = true) : isQuote c = false :=
  contains_eq_false (by decide) h

theorem quote_not_bracket {c : Char} (h : isQuote c = true) : isBracket c = false := by
  unfold isQuote at h
  rw [List.contains_iff_mem] at h
  simp only [List.mem_cons, List.not_mem_nil, or_false] at h
  rcases h with rfl | rfl <;> rfl

/-- A text with a first character of a kind. -/
def HeadIs (p : Char → Bool) (s : List Char) : Prop :=
  ∃ c t, s = c :: t ∧ p c = true

theorem HeadIs.imp {p q : Char → Bool} {s : List Char} (h : HeadIs p s)
    (hpq : ∀ c, p c = true → q c = true) : HeadIs q s := by
  obtain ⟨c, t, hs, hc⟩ := h
  exact ⟨c, t, hs, hpq c hc⟩

/-- Texts whose first characters are of different kinds differ, and so do their continuations. -/
theorem HeadIs.ne {p q : Char → Bool} {x y s t : List Char} (hx : HeadIs p x) (hy : HeadIs q y)
    (hpq : ∀ c, p c = true → q c = false) : x ++ s ≠ y ++ t := by
  obtain ⟨c, x', rfl, hc⟩ := hx
  obtain ⟨d, y', rfl, hd⟩ := hy
  intro heq
  rw [← (List.cons.inj heq).1, hpq c hc] at hd
  cases hd

theorem headIs_of_isName {s : List Char} (h : isName s = true) : HeadIs Char.isAlpha s := by
  unfold isName at h
  rw [Bool.and_eq_true, List.all_eq_true] at h
  cases s with
  | nil => simp at h
  | cons c t => exact ⟨c, t, rfl, h.1 c List.mem_cons_self⟩

/-! ### Integers -/

theorem beginsNumber_of_mem_toDigits {n : ℕ} {c : Char} (h : c ∈ Nat.toDigits 10 n) :
    beginsNumber c = true := by
  unfold beginsNumber
  rw [Decimal.isDigit_of_mem_toDigits h]
  rfl

theorem beginsNumber_of_mem_int {i : ℤ} {c : Char} (h : c ∈ (toString i).toList) :
    beginsNumber c = true := by
  rw [Decimal.toList_int] at h
  cases i with
  | ofNat n => exact beginsNumber_of_mem_toDigits h
  | negSucc n =>
    rcases List.mem_cons.mp h with rfl | hn
    · rfl
    · exact beginsNumber_of_mem_toDigits hn

theorem headIs_int (i : ℤ) : HeadIs beginsNumber (toString i).toList := by
  cases hs : (toString i).toList with
  | nil =>
    rw [Decimal.toList_int] at hs
    cases i with
    | ofNat n => exact absurd hs Nat.toDigits_ne_nil
    | negSucc n => cases hs
  | cons c t => exact ⟨c, t, rfl, beginsNumber_of_mem_int (hs ▸ List.mem_cons_self)⟩

/-! ### Names and floats -/

theorem headIs_float (f : FloatText) : HeadIs beginsNumber f.1.toList := by
  have hf := f.2
  unfold isFloatText at hf
  rw [Bool.and_eq_true] at hf
  obtain ⟨c, hc, hbegins⟩ := (Option.any_eq_true _ _).mp hf.2
  obtain ⟨t, ht⟩ := List.head?_eq_some_iff.mp hc
  exact ⟨c, t, ht, hbegins⟩

theorem le_toNat_of_isAlpha {c : Char} (h : c.isAlpha = true) : 65 ≤ c.toNat := by
  rcases Bool.or_eq_true_iff.mp h with hupper | hlower
  · exact UInt32.le_iff_toNat_le.mp (of_decide_eq_true hupper).1
  · have hle : 97 ≤ c.toNat :=
      UInt32.le_iff_toNat_le.mp (of_decide_eq_true (Bool.and_eq_true_iff.mp hlower).1)
    omega

theorem alpha_not_number (c : Char) (h : c.isAlpha = true) : beginsNumber c = false := by
  by_contra hc
  simp only [beginsNumber, Bool.not_eq_false, Bool.or_eq_true, decide_eq_true_eq] at hc
  rcases hc with hdigit | rfl
  · have hle := le_toNat_of_isAlpha h
    have hnine : c.toNat ≤ 57 := (Char.isDigit_iff_toNat.mp hdigit).2
    omega
  · exact absurd h (by decide)

/-- An integer has neither point nor exponent. -/
theorem int_ne_float (i : ℤ) (f : FloatText) : (toString i).toList ≠ f.1.toList := by
  intro heq
  have hf := f.2
  unfold isFloatText at hf
  rw [Bool.and_eq_true, Bool.and_eq_true] at hf
  obtain ⟨c, hc, hmark⟩ := List.any_eq_true.mp hf.1.2
  have hnumber := beginsNumber_of_mem_int (heq ▸ hc)
  simp only [Bool.or_eq_true, decide_eq_true_eq] at hmark
  rcases hmark with rfl | rfl <;> simp [beginsNumber] at hnumber

variable {L}

theorem inToken_of_mem {x : Scalar} (hx : isToken x = true) {c : Char} (hc : c ∈ L.text x) :
    inToken c = true := by
  have hname : ∀ s : List Char, isName s = true → c ∈ s → inToken c = true := by
    intro s hs hmem
    unfold isName at hs
    rw [Bool.and_eq_true, List.all_eq_true] at hs
    simp [inToken, hs.1 c hmem]
  cases x with
  | null => exact hname L.null L.null_isName hc
  | bool b => exact hname (L.bool b) (L.bool_isName b) hc
  | int i =>
    have hnumber := beginsNumber_of_mem_int hc
    simp only [beginsNumber, Bool.or_eq_true, decide_eq_true_eq] at hnumber
    simp only [inToken, Bool.or_eq_true, decide_eq_true_eq]
    tauto
  | float f =>
    have hf := f.2
    unfold isFloatText at hf
    rw [Bool.and_eq_true, Bool.and_eq_true, List.all_eq_true] at hf
    have hmem := hf.1.1 c hc
    simp only [Bool.or_eq_true, decide_eq_true_eq] at hmem
    simp only [inToken, Bool.or_eq_true, decide_eq_true_eq]
    rcases hmem with (((h | h) | rfl) | h) | h
    · tauto
    · tauto
    · exact Or.inl (Or.inl (Or.inl (Or.inl rfl)))
    · tauto
    · tauto
  | str s => cases hx

theorem number_inToken (c : Char) (h : beginsNumber c = true) : inToken c = true := by
  simp only [beginsNumber, Bool.or_eq_true, decide_eq_true_eq] at h
  simp only [inToken, Bool.or_eq_true, decide_eq_true_eq]
  tauto

theorem alpha_inToken (c : Char) (h : c.isAlpha = true) : inToken c = true := by
  simp [inToken, h]

theorem headIs_token {x : Scalar} (hx : isToken x = true) : HeadIs inToken (L.text x) := by
  cases x with
  | null => exact (headIs_of_isName L.null_isName).imp alpha_inToken
  | bool b => exact (headIs_of_isName (L.bool_isName b)).imp alpha_inToken
  | int i => exact (headIs_int i).imp number_inToken
  | float f => exact (headIs_float f).imp number_inToken
  | str s => cases hx

/-- A name is no number. -/
theorem name_ne_number {x y : List Char} (hx : isName x = true) (hy : HeadIs beginsNumber y) :
    x ≠ y := by
  have hne := (headIs_of_isName hx).ne (s := []) (t := []) hy alpha_not_number
  simpa using hne

/-- No two tokens have one text. -/
theorem token_text_inj {x y : Scalar} (hx : isToken x = true) (hy : isToken y = true)
    (h : L.text x = L.text y) : x = y := by
  cases x with
  | null =>
    cases y with
    | null => rfl
    | bool b => exact absurd h (L.null_ne_bool b)
    | int i => exact absurd h (name_ne_number L.null_isName (headIs_int i))
    | float f => exact absurd h (name_ne_number L.null_isName (headIs_float f))
    | str s => cases hy
  | bool b =>
    cases y with
    | null => exact absurd h.symm (L.null_ne_bool b)
    | bool b' =>
      cases b <;> cases b'
      · rfl
      · exact absurd h.symm L.true_ne_false
      · exact absurd h L.true_ne_false
      · rfl
    | int i => exact absurd h (name_ne_number (L.bool_isName b) (headIs_int i))
    | float f => exact absurd h (name_ne_number (L.bool_isName b) (headIs_float f))
    | str s => cases hy
  | int i =>
    cases y with
    | null => exact absurd h.symm (name_ne_number L.null_isName (headIs_int i))
    | bool b => exact absurd h.symm (name_ne_number (L.bool_isName b) (headIs_int i))
    | int j => exact congrArg Scalar.int (Decimal.int_injective h)
    | float f => exact absurd h (int_ne_float i f)
    | str s => cases hy
  | float f =>
    cases y with
    | null => exact absurd h.symm (name_ne_number L.null_isName (headIs_float f))
    | bool b => exact absurd h.symm (name_ne_number (L.bool_isName b) (headIs_float f))
    | int i => exact absurd h.symm (int_ne_float i f)
    | float g => exact congrArg Scalar.float (Subtype.ext (String.toList_inj.mp h))
    | str s => cases hy
  | str s => cases hx

/-- A scalar is read off up to a delimiter. -/
theorem text_reads : Reads isDelimiter L.text := by
  intro x y s t hs ht heq
  cases hx : isToken x with
  | true =>
    cases hy : isToken y with
    | true =>
      obtain ⟨htext, hst⟩ := token_inj (fun c hc => not_delimiter (inToken_of_mem hx hc))
        (fun c hc => not_delimiter (inToken_of_mem hy hc)) hs ht heq
      exact ⟨token_text_inj hx hy htext, hst⟩
    | false =>
      cases y with
      | str b => exact absurd heq ((headIs_token hx).ne (L.quote_head b) fun _ => not_quote)
      | _ => cases hy
  | false =>
    cases x with
    | str a =>
      cases y with
      | str b =>
        obtain ⟨rfl, hst⟩ := L.quote_prefixCode _ _ _ _ heq
        exact ⟨rfl, hst⟩
      | _ => exact absurd heq.symm ((headIs_token rfl).ne (L.quote_head a) fun _ => not_quote)
    | _ => cases hx

variable (L)

/-- Documents with these literals. -/
def format : Format String Scalar where
  key := L.quote
  leaf := L.text
  key_prefixCode := L.quote_prefixCode
  key_head k := by
    obtain ⟨c, t, htext, hc⟩ := L.quote_head k
    exact ⟨c, t, htext, quote_not_bracket hc⟩
  leaf_reads := text_reads
  leaf_head x := by
    cases hx : isToken x with
    | true =>
      obtain ⟨c, t, htext, hc⟩ := headIs_token (L := L) hx
      exact ⟨c, t, htext, not_bracket hc⟩
    | false =>
      cases x with
      | str s =>
        obtain ⟨c, t, htext, hc⟩ := L.quote_head s
        exact ⟨c, t, htext, quote_not_bracket hc⟩
      | _ => cases hx

end Literals

/-! ## `repr` and `json.dumps` -/

/-- The literals of `repr`. -/
def reprLiterals (isprintable : Char → Bool) : Literals where
  null := "None".toList
  bool b := if b then "True".toList else "False".toList
  quote := reprStr isprintable
  null_isName := by decide
  bool_isName := by decide
  null_ne_bool := by decide
  true_ne_false := by decide
  quote_prefixCode := reprStr_prefixCode isprintable
  quote_head s := ⟨_, _, rfl, by rcases reprQuote_cases s with h | h <;> rw [h] <;> rfl⟩

/-- The literals of `json.dumps`. -/
def dumpsLiterals : Literals where
  null := "null".toList
  bool b := if b then "true".toList else "false".toList
  quote := dumpsStr
  null_isName := by decide
  bool_isName := by decide
  null_ne_bool := by decide
  true_ne_false := by decide
  quote_prefixCode := dumpsStr_prefixCode
  quote_head _ := ⟨_, _, rfl, rfl⟩

end PyText

end MultiAgent
