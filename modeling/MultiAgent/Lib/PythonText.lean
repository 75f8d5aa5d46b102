import Mathlib.Algebra.GroupWithZero.Nat
import MultiAgent.Lib.PrefixCode

/-!
# The texts of Python's values

How `repr` and `json.dumps` write a string. Both escape what is special in it, `repr` with a quote
that depends on the string and what is not printable, JSON everything but printable ASCII, with two
escapes for a character beyond the basic plane. A character is read off from what begins with its
escape (`readRepr_reprEscape`, `readDumps_dumpsEscape`), and so is the string from what begins with
its literal (`reprStr_prefixCode`, `dumpsStr_prefixCode`).

What is printable is a matter of the tables of Unicode, and a parameter.
-/

namespace MultiAgent

namespace PyText

/-! ## Hexadecimal digits -/

/-- The last `k` hexadecimal digits. -/
def hex : ℕ → ℕ → List Char
  | 0, _ => []
  | k + 1, n => hex k (n / 16) ++ [Nat.digitChar (n % 16)]

/-- The value of a digit. -/
def unhexDigit (c : Char) : ℕ :=
  if c.isDigit then c.toNat - 48 else c.toNat - 87

/-- The number with these digits. -/
def unhex (l : List Char) : ℕ :=
  l.foldl (fun n c => n * 16 + unhexDigit c) 0

@[simp] theorem length_hex : ∀ k n, (hex k n).length = k
  | 0, _ => rfl
  | k + 1, n => by rw [hex, List.length_append, length_hex k, List.length_singleton]

theorem unhexDigit_digitChar : ∀ d < 16, unhexDigit (Nat.digitChar d) = d := by
  decide

theorem unhex_hex : ∀ {k n : ℕ}, n < 16 ^ k → unhex (hex k n) = n
  | 0, n, h => by
    obtain rfl : n = 0 := by simpa using h
    rfl
  | k + 1, n, h => by
    have hdiv : n / 16 < 16 ^ k := Nat.div_lt_of_lt_mul (by rwa [Nat.pow_succ'] at h)
    have hfold : unhex (hex (k + 1) n) = unhex (hex k (n / 16)) * 16 +
        unhexDigit (Nat.digitChar (n % 16)) := by
      unfold unhex
      rw [hex, List.foldl_append]
      rfl
    rw [hfold, unhex_hex hdiv, unhexDigit_digitChar _ (Nat.mod_lt n (by decide))]
    omega

theorem take_hex (k n : ℕ) (s : List Char) : (hex k n ++ s).take k = hex k n :=
  List.take_left' (length_hex k n)

theorem drop_hex (k n : ℕ) (s : List Char) : (hex k n ++ s).drop k = s :=
  List.drop_left' (length_hex k n)

/-! ## String literals of `repr` -/

/-- A character in a literal with this quote. -/
def reprEscape (isprintable : Char → Bool) (quote c : Char) : List Char :=
  if c = quote ∨ c = '\\' then ['\\', c]
  else if c = '\t' then ['\\', 't']
  else if c = '\n' then ['\\', 'n']
  else if c = '\r' then ['\\', 'r']
  else if c.toNat < 0x20 ∨ c.toNat = 0x7f then '\\' :: 'x' :: hex 2 c.toNat
  else if c.toNat < 0x7f then [c]
  else if isprintable c then [c]
  else if c.toNat ≤ 0xff then '\\' :: 'x' :: hex 2 c.toNat
  else if c.toNat ≤ 0xffff then '\\' :: 'u' :: hex 4 c.toNat
  else '\\' :: 'U' :: hex 8 c.toNat

/-- The quote of a literal : a double one for a string with single quotes and no double ones. -/
def reprQuote (s : String) : Char :=
  if '\'' ∈ s.toList ∧ '"' ∉ s.toList then '"' else '\''

/-- `repr` of a string. -/
def reprStr (isprintable : Char → Bool) (s : String) : List Char :=
  reprQuote s :: (s.toList.flatMap (reprEscape isprintable (reprQuote s)) ++ [reprQuote s])

/-- A character that is written with `k` hexadecimal digits. -/
def readHex (k : ℕ) (s : List Char) : Option (Char × List Char) :=
  some (Char.ofNat (unhex (s.take k)), s.drop k)

theorem readHex_hex {k : ℕ} {c : Char} (h : c.toNat < 16 ^ k) (s : List Char) :
    readHex k (hex k c.toNat ++ s) = some (c, s) := by
  unfold readHex
  rw [take_hex, drop_hex, unhex_hex h, Char.ofNat_toNat]

/-- The character that a literal goes on with. -/
def readRepr : List Char → Option (Char × List Char)
  | [] => none
  | c :: s =>
    if c = '\\' then
      match s with
      | [] => none
      | d :: s =>
        if d = 't' then some ('\t', s)
        else if d = 'n' then some ('\n', s)
        else if d = 'r' then some ('\r', s)
        else if d = 'x' then readHex 2 s
        else if d = 'u' then readHex 4 s
        else if d = 'U' then readHex 8 s
        else some (d, s)
    else some (c, s)

theorem readRepr_plain {c : Char} (h : c ≠ '\\') (s : List Char) :
    readRepr (c :: s) = some (c, s) :=
  if_neg h

/-- A character is no surrogate. -/
theorem toNat_cases (c : Char) :
    c.toNat < 0xd800 ∨ 0xdfff < c.toNat ∧ c.toNat < 0x110000 :=
  c.valid

theorem readRepr_reprEscape {isprintable : Char → Bool} {quote : Char}
    (hquote : quote = '\'' ∨ quote = '"') (c : Char) (s : List Char) :
    readRepr (reprEscape isprintable quote c ++ s) = some (c, s) := by
  have hc := toNat_cases c
  unfold reprEscape
  by_cases hspecial : c = quote ∨ c = '\\'
  · have hd : c = '\'' ∨ c = '"' ∨ c = '\\' := by
      rcases hspecial with rfl | hslash
      · rcases hquote with h | h
        · exact Or.inl h
        · exact Or.inr (Or.inl h)
      · exact Or.inr (Or.inr hslash)
    rw [if_pos hspecial]
    rcases hd with rfl | rfl | rfl <;> rfl
  rw [if_neg hspecial]
  by_cases ht : c = '\t'
  · rw [if_pos ht, ht]
    rfl
  rw [if_neg ht]
  by_cases hn : c = '\n'
  · rw [if_pos hn, hn]
    rfl
  rw [if_neg hn]
  by_cases hr : c = '\r'
  · rw [if_pos hr, hr]
    rfl
  rw [if_neg hr]
  by_cases hcontrol : c.toNat < 0x20 ∨ c.toNat = 0x7f
  · rw [if_pos hcontrol]
    exact readHex_hex (by omega) s
  rw [if_neg hcontrol]
  by_cases hascii : c.toNat < 0x7f
  · rw [if_pos hascii]
    exact readRepr_plain (not_or.mp hspecial).2 s
  rw [if_neg hascii]
  by_cases hprint : isprintable c
  · rw [if_pos hprint]
    exact readRepr_plain (not_or.mp hspecial).2 s
  rw [if_neg hprint]
  by_cases hbyte : c.toNat ≤ 0xff
  · rw [if_pos hbyte]
    exact readHex_hex (by omega) s
  rw [if_neg hbyte]
  by_cases hplane : c.toNat ≤ 0xffff
  · rw [if_pos hplane]
    exact readHex_hex (by omega) s
  · rw [if_neg hplane]
    exact readHex_hex (by omega) s

theorem reprQuote_cases (s : String) : reprQuote s = '\'' ∨ reprQuote s = '"' := by
  unfold reprQuote
  split_ifs
  · exact Or.inr rfl
  · exact Or.inl rfl

/-- An escape does not begin with the quote : as the quote it would be read, and the escape of the
quote begins with a backslash. -/
theorem reprEscape_ne_quote {isprintable : Char → Bool} {quote : Char}
    (hquote : quote = '\'' ∨ quote = '"') (c : Char) (s t : List Char) :
    reprEscape isprintable quote c ++ s ≠ quote :: t := by
  intro heq
  have hslash : quote ≠ '\\' := by rcases hquote with rfl | rfl <;> decide
  have hread := @readRepr_reprEscape isprintable quote hquote c s
  rw [heq, readRepr_plain hslash] at hread
  obtain rfl := (Prod.mk.inj (Option.some.inj hread)).1
  rw [reprEscape, if_pos (Or.inl rfl)] at heq
  exact hslash (List.cons.inj heq).1.symm

theorem reprStr_prefixCode (isprintable : Char → Bool) : PrefixCode (reprStr isprintable) := by
  intro a b s t heq
  unfold reprStr at heq
  simp only [List.cons_append, List.append_assoc, List.nil_append] at heq
  obtain ⟨hquote, hbody⟩ := List.cons.inj heq
  rw [← hquote] at hbody
  have hcode : PrefixCode (reprEscape isprintable (reprQuote a)) :=
    prefixCode_of_decode (readRepr_reprEscape (reprQuote_cases a))
  obtain ⟨hlist, hst⟩ := hcode.flatMap_inj (reprEscape_ne_quote (reprQuote_cases a)) hbody
  exact ⟨String.toList_inj.mp hlist, hst⟩

/-! ## String literals of JSON -/

/-- A character in a literal. Beyond the basic plane it is written as two surrogates. -/
def dumpsEscape (c : Char) : List Char :=
  if c = '"' ∨ c = '\\' then ['\\', c]
  else if c = '\n' then ['\\', 'n']
  else if c = '\r' then ['\\', 'r']
  else if c = '\t' then ['\\', 't']
  else if c.toNat = 0x0c then ['\\', 'f']
  else if c.toNat = 0x08 then ['\\', 'b']
  else if 0x20 ≤ c.toNat ∧ c.toNat ≤ 0x7e then [c]
  else if c.toNat < 0x10000 then '\\' :: 'u' :: hex 4 c.toNat
  else
    '\\' :: 'u' :: (hex 4 (0xd800 + (c.toNat - 0x10000) / 0x400) ++
      '\\' :: 'u' :: hex 4 (0xdc00 + (c.toNat - 0x10000) % 0x400))

/-- `json.dumps` of a string. -/
def dumpsStr (s : String) : List Char :=
  '"' :: (s.toList.flatMap dumpsEscape ++ ['"'])

/-- What four digits or two surrogates are written for. -/
def readUnicode (s : List Char) : Option (Char × List Char) :=
  let n := unhex (s.take 4)
  if 0xd800 ≤ n ∧ n < 0xdc00 then
    let m := unhex (((s.drop 4).drop 2).take 4)
    some (Char.ofNat (0x10000 + (n - 0xd800) * 0x400 + (m - 0xdc00)),
      ((s.drop 4).drop 2).drop 4)
  else readHex 4 s

/-- The character that a literal goes on with. -/
def readDumps : List Char → Option (Char × List Char)
  | [] => none
  | c :: s =>
    if c = '\\' then
      match s with
      | [] => none
      | d :: s =>
        if d = 'n' then some ('\n', s)
        else if d = 'r' then some ('\r', s)
        else if d = 't' then some ('\t', s)
        else if d = 'f' then some (Char.ofNat 0x0c, s)
        else if d = 'b' then some (Char.ofNat 0x08, s)
        else if d = 'u' then readUnicode s
        else some (d, s)
    else some (c, s)

theorem readUnicode_basic {c : Char} (h : c.toNat < 0x10000) (s : List Char) :
    readUnicode (hex 4 c.toNat ++ s) = some (c, s) := by
  have hc := toNat_cases c
  unfold readUnicode
  rw [take_hex, unhex_hex (by omega)]
  dsimp only
  rw [if_neg (by omega)]
  exact readHex_hex (by omega) s

theorem readUnicode_surrogates {c : Char} (h : 0x10000 ≤ c.toNat) (s : List Char) :
    readUnicode (hex 4 (0xd800 + (c.toNat - 0x10000) / 0x400) ++
      ('\\' :: 'u' :: hex 4 (0xdc00 + (c.toNat - 0x10000) % 0x400) ++ s)) = some (c, s) := by
  have hc := toNat_cases c
  unfold readUnicode
  rw [take_hex, drop_hex, unhex_hex (by omega)]
  rw [if_pos (by omega)]
  simp only [List.cons_append, List.drop_succ_cons, List.drop_zero]
  rw [take_hex, drop_hex, unhex_hex (by omega)]
  have hsum : 0x10000 + (0xd800 + (c.toNat - 0x10000) / 0x400 - 0xd800) * 0x400 +
      (0xdc00 + (c.toNat - 0x10000) % 0x400 - 0xdc00) = c.toNat := by omega
  rw [hsum, Char.ofNat_toNat]

theorem readDumps_plain {c : Char} (h : c ≠ '\\') (s : List Char) :
    readDumps (c :: s) = some (c, s) :=
  if_neg h

theorem readDumps_unicode (s : List Char) : readDumps ('\\' :: 'u' :: s) = readUnicode s :=
  rfl

theorem readDumps_dumpsEscape (c : Char) (s : List Char) :
    readDumps (dumpsEscape c ++ s) = some (c, s) := by
  by_cases hspecial : c = '"' ∨ c = '\\'
  · rcases hspecial with rfl | rfl <;> rfl
  by_cases hn : c = '\n'
  · subst hn
    rfl
  by_cases hr : c = '\r'
  · subst hr
    rfl
  by_cases ht : c = '\t'
  · subst ht
    rfl
  by_cases hf : c.toNat = 0x0c
  · obtain rfl : c = Char.ofNat 0x0c := by rw [← hf, Char.ofNat_toNat]
    rfl
  by_cases hb : c.toNat = 0x08
  · obtain rfl : c = Char.ofNat 0x08 := by rw [← hb, Char.ofNat_toNat]
    rfl
  rw [dumpsEscape, if_neg hspecial, if_neg hn, if_neg hr, if_neg ht, if_neg hf, if_neg hb]
  by_cases hascii : 0x20 ≤ c.toNat ∧ c.toNat ≤ 0x7e
  · rw [if_pos hascii]
    exact readDumps_plain (not_or.mp hspecial).2 s
  rw [if_neg hascii]
  by_cases hplane : c.toNat < 0x10000
  · rw [if_pos hplane, List.cons_append, List.cons_append, readDumps_unicode,
      readUnicode_basic hplane]
  · rw [if_neg hplane, List.cons_append, List.cons_append, List.append_assoc, readDumps_unicode,
      readUnicode_surrogates (by omega)]

theorem dumpsEscape_ne_quote (c : Char) (s t : List Char) : dumpsEscape c ++ s ≠ '"' :: t := by
  intro heq
  have hslash : '"' ≠ '\\' := by decide
  have hread := readDumps_dumpsEscape c s
  rw [heq, readDumps_plain hslash] at hread
  obtain rfl := (Prod.mk.inj (Option.some.inj hread)).1
  rw [dumpsEscape, if_pos (Or.inl rfl)] at heq
  exact hslash (List.cons.inj heq).1.symm

theorem dumpsStr_prefixCode : PrefixCode dumpsStr := by
  intro a b s t heq
  unfold dumpsStr at heq
  simp only [List.cons_append, List.append_assoc, List.nil_append] at heq
  obtain ⟨hlist, hst⟩ := (prefixCode_of_decode readDumps_dumpsEscape).flatMap_inj
    dumpsEscape_ne_quote (List.cons.inj heq).2
  exact ⟨String.toList_inj.mp hlist, hst⟩

end PyText

end MultiAgent
