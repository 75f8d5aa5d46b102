import Mathlib.Data.List.Infix
import Mathlib.Data.List.TakeWhile
import Mathlib.Data.Rat.Defs
import MultiAgent.Lib.Dict
import MultiAgent.Lib.Fallible

/-!
# Values of a dynamically typed document

The values that a JSON or YAML document holds, with the operations Python has on them.
A dictionary maps keys to values; `True`, `1` and `1.0` hash and compare alike, so a
number key is its numeric value. An operation that the value's type does not have
raises, and which error it raises is part of its result.
-/

namespace MultiAgent

/-- What a dictionary can be keyed by. -/
inductive PyKey
  | none
  | num (q : ℚ)
  | str (s : String)
deriving DecidableEq

/-- A value. -/
inductive PyValue
  | null
  | bool (b : Bool)
  | int (i : ℤ)
  | float (q : ℚ)
  | str (s : String)
  | arr (l : List PyValue)
  | obj (d : List (PyKey × PyValue))

/-- An exception. The errors that a program raises itself carry their text and the values
it shows, in the order of the `%s` in it. -/
inductive PyError
  | typeError
  | attributeError (name : String)
  | keyError (key : String)
  | indexError
  | valueError (text : String) (shown : List PyValue)
  | fileNotFound (text : String) (shown : List PyValue)
  | recursionError

/-- What a division raises. -/
inductive ArithmeticError
  | zeroDivision
  deriving DecidableEq, Repr

/-- The items of a dictionary. -/
abbrev Items :=
  List (PyKey × PyValue)

/-- The value at a key that is a string. -/
def Items.field (d : Items) (key : String) : Option PyValue :=
  d.lookup (.str key)

/-- The value that a key is, up to `==`. -/
def PyKey.toValue : PyKey → PyValue
  | .none => .null
  | .num q => if q.den = 1 then .int q.num else .float q
  | .str s => .str s

namespace PyValue

/-- `hash(v)` : the key a value is, for the values that can be one. -/
def hash : PyValue → Except PyError PyKey
  | .null => .ok .none
  | .bool b => .ok (.num (if b then 1 else 0))
  | .int i => .ok (.num i)
  | .float q => .ok (.num q)
  | .str s => .ok (.str s)
  | .arr _ => .error .typeError
  | .obj _ => .error .typeError

@[simp] theorem hash_toValue (k : PyKey) : k.toValue.hash = .ok k := by
  cases k with
  | none => rfl
  | num q =>
    by_cases hden : q.den = 1
    · simp only [PyKey.toValue, hden, if_true, hash, Rat.coe_int_num_of_den_eq_one hden]
    · simp only [PyKey.toValue, hden, if_false, hash]
  | str s => rfl

/-- `v == k` for a value and the key of a dictionary. -/
def isKey (v : PyValue) (k : PyKey) : Bool :=
  match v.hash with
  | .ok k' => k' = k
  | .error _ => false

/-- `bool(v)`. -/
def truthy : PyValue → Bool
  | .null => false
  | .bool b => b
  | .int i => i ≠ 0
  | .float q => q ≠ 0
  | .str s => s ≠ ""
  | .arr l => !l.isEmpty
  | .obj d => !d.isEmpty

mutual

/-- `v == w`. -/
def eq : PyValue → PyValue → Bool
  | .arr l, .arr m => eqList l m
  | .obj d, .obj e => d.length == e.length && eqItems d e
  | .arr _, _ => false
  | .obj _, _ => false
  | v, w =>
    match v.hash with
    | .ok k => w.isKey k
    | .error _ => false
termination_by structural v => v

/-- Lists compare element by element. -/
def eqList : List PyValue → List PyValue → Bool
  | [], [] => true
  | v :: l, w :: m => eq v w && eqList l m
  | _, _ => false
termination_by structural l => l

/-- Every item on the left has an equal one on the right. -/
def eqItems : Items → Items → Bool
  | [], _ => true
  | (k, v) :: d, e =>
    (match e.lookup k with
      | some w => eq v w
      | none => false) && eqItems d e
termination_by structural d => d

end

/-- A value that can be a key equals the values that are that key. -/
theorem eq_of_hash {v w : PyValue} {k : PyKey} (h : v.hash = .ok k) :
    v.eq w = decide (some k = w.hash.toOption) := by
  have hkey : w.isKey k = decide (some k = w.hash.toOption) := by
    unfold isKey
    cases w.hash with
    | error e => simp [Except.toOption]
    | ok k' => simp [Except.toOption, eq_comm]
  rw [← hkey]
  cases v with
  | arr l => cases h
  | obj d => cases h
  | _ =>
    obtain rfl := Except.ok.inj h
    rfl

/-- `for x in v` : the elements of a list, the characters of a string, the keys of a
dictionary. -/
def iter : PyValue → Except PyError (List PyValue)
  | .arr l => .ok l
  | .str s => .ok (s.toList.map fun c => .str (String.singleton c))
  | .obj d => .ok (d.map fun p => p.1.toValue)
  | _ => .error .typeError

/-- `key in v` : a key of a dictionary, an element of a list, a part of a string. -/
def contains (key : String) : PyValue → Except PyError Bool
  | .obj d => .ok (Items.field d key).isSome
  | .arr l => .ok (l.any fun v => v.isKey (.str key))
  | .str s => .ok (key.toList <:+: s.toList)
  | _ => .error .typeError

/-- `v[key]`. -/
def getItem (key : String) : PyValue → Except PyError PyValue
  | .obj d =>
    match Items.field d key with
    | some v => .ok v
    | none => .error (.keyError key)
  | _ => .error .typeError

/-- `v.get(key)`, where `none` stands for a missing key. -/
def get? (key : String) : PyValue → Except PyError (Option PyValue)
  | .obj d => .ok (Items.field d key)
  | _ => .error (.attributeError "get")

/-- `v.items()`. -/
def items : PyValue → Except PyError Items
  | .obj d => .ok d
  | _ => .error (.attributeError "items")

/-- The elements of a list, for a method that only lists have. -/
def elements (method : String) : PyValue → Except PyError (List PyValue)
  | .arr l => .ok l
  | _ => .error (.attributeError method)

/-- The position in a list of length `n` that the value denotes as an index, if it is
an index; negative ones count from the end. -/
def index? (n : ℕ) : PyValue → Option (Except PyError ℕ)
  | .int i => some (position n i)
  | .bool b => some (position n (if b then 1 else 0))
  | _ => none
where
  /-- Resolve an index against the length of the list. -/
  position (n : ℕ) (i : ℤ) : Except PyError ℕ :=
    let i := if i < 0 then i + n else i
    if 0 ≤ i ∧ i < n then .ok i.toNat else .error .indexError

/-- `v[key] = w`. -/
def assign : PyValue → PyValue → PyValue → Except PyError PyValue
  | .obj d, key, w => do
    let k ← key.hash
    return .obj (Dict.setItem k w d)
  | .arr l, key, w =>
    match key.index? l.length with
    | some position => do
      let i ← position
      return .arr (l.set i w)
    | none => .error .typeError
  | _, _, _ => .error .typeError

/-- Edit the elements of a list in place. Of the other values only an empty string or
dictionary can be looked through, since their elements have no items : it stays. -/
def onList (f : List PyValue → Except PyError (List PyValue)) : PyValue → Except PyError PyValue
  | .arr l => (f l).map .arr
  | v => do
    let l ← v.iter
    let _ ← f l
    return v

/-- The whitespace characters that `str.strip` removes. -/
def isSpace (c : Char) : Bool :=
  let n := c.toNat
  (0x09 ≤ n && n ≤ 0x0D) || (0x1C ≤ n && n ≤ 0x20) || n = 0x85 || n = 0xA0 || n = 0x1680 ||
    (0x2000 ≤ n && n ≤ 0x200A) || n = 0x2028 || n = 0x2029 || n = 0x202F || n = 0x205F ||
    n = 0x3000

/-- A list of characters without the whitespace at its ends. -/
def stripChars (l : List Char) : List Char :=
  ((l.dropWhile isSpace).reverse.dropWhile isSpace).reverse

/-- `v.strip()`. -/
def strip : PyValue → Except PyError PyValue
  | .str s => .ok (.str (String.ofList (stripChars s.toList)))
  | _ => .error (.attributeError "strip")

theorem stripChars_eq_nil {l : List Char} : stripChars l = [] ↔ ∀ c ∈ l, isSpace c := by
  unfold stripChars
  rw [List.reverse_eq_nil_iff, List.dropWhile_eq_nil_iff]
  simp only [List.mem_reverse]
  constructor
  · intro h
    -- what is left starts with a character that is no whitespace, unless nothing is left
    have hnil : l.dropWhile isSpace = [] := by
      by_contra hne
      have hhead : ¬ isSpace ((l.dropWhile isSpace).head hne) = true := by
        rw [List.head_dropWhile_not isSpace hne]
        exact Bool.false_ne_true
      exact hhead (h _ (List.head_mem hne))
    exact List.dropWhile_eq_nil_iff.mp hnil
  · intro h c hc
    exact h c ((List.dropWhile_sublist isSpace).subset hc)

/-- A string is blank exactly when stripping it leaves nothing. -/
theorem truthy_strip (s : String) :
    (PyValue.str (String.ofList (stripChars s.toList))).truthy = true ↔
      ∃ c ∈ s.toList, isSpace c = false := by
  have hnil : String.ofList (stripChars s.toList) = "" ↔ stripChars s.toList = [] := by
    rw [← String.toList_eq_nil_iff, String.toList_ofList]
  unfold truthy
  rw [decide_eq_true_eq, ne_eq, hnil, stripChars_eq_nil]
  push Not
  simp only [Bool.not_eq_true]

end PyValue

end MultiAgent
