import MultiAgent.Lib.ObjectHeap
import MultiAgent.Lib.PathSearch
import MultiAgent.Lib.Regex

/-!
# Input validation

`InputValidator` of `libs/security/validation.py`, on the dictionaries and lists that the caller
hands in. They are only read, and what is returned is made of new ones. A nesting that is deeper
than the given depth raises `RecursionError`.

The patterns ignore the case : beside the letters of ASCII, `i` stands for `İ` and `ı`, `s` for
`ſ` and `k` for the Kelvin sign.
-/

namespace MultiAgent

namespace InputValidator

open ObjectHeap

/-- What `\d` and `\w` stand for, `str.lower`, and `bleach.clean` with the tags of the validator
and `strip=True`, which deletes parts of the text. -/
structure Libraries where
  isDecimal : Char → Bool
  isWord : Char → Bool
  lower : String → String
  clean : String → String
  clean_sublist : ∀ s, (clean s).toList.Sublist s.toList

/-- `max_string_length`. -/
def maxStringLength : ℕ :=
  10000

/-- `max_array_length`. -/
def maxArrayLength : ℕ :=
  1000

/-! ## Patterns -/

section

variable (lib : Libraries)

/-- A character of a pattern, in any case. -/
def anyCase (c : Char) : Regex Char :=
  .char fun x => x.toLower = c.toLower || c.toLower = 'i' && (x = 'İ' || x = 'ı') ||
    c.toLower = 's' && x = 'ſ' || c.toLower = 'k' && x = '\u212A'

/-- Characters of a pattern, in any case. -/
def word (first : Char) (rest : String) : Regex Char :=
  .chain (anyCase first) (rest.toList.map anyCase)

/-- `\b` -/
def edge : Regex Char :=
  .boundary lib.isWord

/-- As many as there are, and at least so many. -/
def many (least : ℕ) (p : Char → Bool) : Regex Char :=
  .times (.char p) least none

/-- `\s*`, or `\s+`. -/
def spaces (least : ℕ) : Regex Char :=
  many least PyValue.isSpace

/-- Two words between two `\b`, with spaces between them. -/
def phrase (first second : Regex Char) : Regex Char :=
  .chain (edge lib) [first, spaces 1, second, edge lib]

/-- `\b(OR|AND)\s+x+\s*=\s*x+` -/
def comparison (p : Char → Bool) : Regex Char :=
  .chain (edge lib) [.oneOf (word 'O' "R") [word 'A' "ND"], spaces 1, many 1 p, spaces 0,
    anyCase '=', spaces 0, many 1 p]

/-- `sql_patterns`. -/
def sqlPatterns : List (Regex Char) :=
  [.chain (edge lib)
      [.oneOf (word 'S' "ELECT")
        [word 'I' "NSERT", word 'U' "PDATE", word 'D' "ELETE", word 'D' "ROP", word 'C' "REATE",
          word 'A' "LTER", word 'E' "XEC", word 'U' "NION", word 'S' "CRIPT"],
        edge lib],
    comparison lib lib.isDecimal,
    comparison lib lib.isWord,
    phrase lib (word 'U' "NION") (word 'S' "ELECT"),
    phrase lib (word 'D' "ROP") (word 'T' "ABLE"),
    phrase lib (word 'D' "ELETE") (word 'F' "ROM"),
    phrase lib (word 'I' "NSERT") (word 'I' "NTO"),
    phrase lib (word 'U' "PDATE") (word 'S' "ET")]

/-- An attribute that is set : its name, `\s*` and `=`. -/
def handler (first : Char) (rest : String) : Regex Char :=
  .chain (word first rest) [spaces 0, anyCase '=']

/-- `xss_patterns`. -/
def xssPatterns : List (Regex Char) :=
  [.chain (word '<' "script")
      [many 0 (fun c => c ≠ '>'), anyCase '>', many 0 (fun c => c ≠ '\n'), word '<' "/script>"],
    word 'j' "avascript:",
    word 'v' "bscript:",
    handler 'o' "nload",
    handler 'o' "nerror",
    handler 'o' "nclick",
    handler 'o' "nmouseover"]

/-- `_detect_sql_injection`. -/
def detectSqlInjection (value : String) : Bool :=
  (sqlPatterns lib).any fun pattern => Regex.search (lib.lower value).toList pattern

/-- `_detect_xss`. -/
def detectXss (value : String) : Bool :=
  xssPatterns.any fun pattern => Regex.search value.toList pattern

/-! ## Validation -/

/-- `validate_string`. -/
def validateString (value : String) (maxLength : Option ℕ) : Except PyError String :=
  -- a limit of 0 is none
  let maxLen := (maxLength.filter (· ≠ 0)).getD maxStringLength
  if maxLen < value.length then
    .error (.valueError "String too long. Max length: %s" [.int maxLen])
  else if detectSqlInjection lib value then
    .error (.valueError "Potential SQL injection detected" [])
  else if detectXss value then
    .error (.valueError "Potential XSS attack detected" [])
  else .ok (lib.clean value)

/-- `id(data)`, of an object that others may refer to. -/
def identity : Val → Option ℕ
  | .ref i => some i
  | .atom _ => none

/-- The values of a dictionary, or the elements of a list. -/
def contents (h : Heap) (data : Val) : Option (List Val) :=
  match view h data with
  | .dict d => some (d.map Prod.snd)
  | .list l => some l
  | .scalar _ => none

/-- `_has_circular_reference`, with the set `seen` that is left. -/
def hasCircularReference (h : Heap) : ℕ → Val → List ℕ → Except PyError (Bool × List ℕ) :=
  PathSearch.search .recursionError identity (contents h)

/-- `_validate_nested_data`, where `validate` is what it does with a value. -/
def validateNestedData (validate : Val → Except PyError PyValue) :
    Fields → Except PyError Items
  | [] => .ok []
  | (key, value) :: data => do
    let first ← validate value
    let rest ← validateNestedData validate data
    return (key, first) :: rest

/-- The loop of `_validate_list`. -/
def validateElements (validate : Val → Except PyError PyValue) :
    List Val → Except PyError (List PyValue)
  | [] => .ok []
  | item :: data => do
    let first ← validate item
    let rest ← validateElements validate data
    return first :: rest

/-- `_validate_list`. -/
def validateList (validate : Val → Except PyError PyValue) (data : List Val) :
    Except PyError PyValue :=
  if maxArrayLength < data.length then
    .error (.valueError "List too long. Max length: %s" [.int maxArrayLength])
  else (validateElements validate data).map .arr

/-- What is done with a value in a dictionary or a list. A dictionary is given to
`validate_json`. -/
def validateValue (h : Heap) : ℕ → Val → Except PyError PyValue
  | 0, _ => .error .recursionError
  | depth + 1, value =>
    match view h value with
    | .scalar (.str s) => (validateString lib s none).map .str
    | .scalar v => .ok v
    | .dict d =>
      match hasCircularReference h depth value [] with
      | .error e => .error e
      | .ok (true, _) => .error (.valueError "Circular reference detected" [])
      | .ok (false, _) => (validateNestedData (validateValue h depth) d).map .obj
    | .list l => validateList (validateValue h depth) l

/-- `validate_json`. -/
def validateJson (h : Heap) (depth : ℕ) (data : Val) : Except PyError PyValue :=
  match view h data with
  | .dict _ => validateValue lib h depth data
  | _ => .error (.valueError "Data must be a dictionary" [])

/-- `validate_user_input`. What `validate_json` returns is new. -/
def validateUserInput (h : Heap) (depth : ℕ) (data : Val) : Except PyError Val :=
  match view h data with
  | .scalar (.str s) => (validateString lib s none).map fun t => .atom (.str t)
  | .dict _ => (validateJson lib h depth data).map .atom
  | _ => .ok data

end

end InputValidator

end MultiAgent
