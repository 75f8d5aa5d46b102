import Mathlib.Algebra.Order.Field.Rat
import Mathlib.Data.Finset.Card
import Mathlib.Data.Finset.Lattice.Basic
import MultiAgent.Lib.Average
import MultiAgent.Lib.Dict
import MultiAgent.Lib.Split

/-!
# The novelty of a request

The features that `NoveltyDetector` of `libs/router/router_base.py` extracts from a text, and how
it compares them. `True` and `False` are numbers for `isinstance`, so two booleans are compared
as numbers. Arithmetic is exact.

The similarity of two dictionaries of features is symmetric (`featureSimilarity_comm`), lies
between 0 and 1, and is 1 for equal dictionaries with something to compare
(`featureSimilarity_eq_one`). So the novelty lies between 0 and 1 as well
(`noveltyScore_mem_unit`).
-/

namespace MultiAgent

namespace Router

open Average

/-! ## Similarity -/

/-- The value of a feature. -/
inductive Feature
  | bool (b : Bool)
  | int (i : ℤ)
  | float (q : ℚ)
  | str (s : String)
  | list (l : List String)

namespace Feature

/-- The value as a number, if it is an instance of `int` or `float`. -/
def number? : Feature → Option ℚ
  | bool b => some (if b then 1 else 0)
  | int i => some i
  | float q => some q
  | str _ => none
  | list _ => none

/-- `==`. -/
def eq (v w : Feature) : Prop :=
  match v, w with
  | str s, str t => s = t
  | list l, list m => l = m
  | v, w => ∃ x, v.number? = some x ∧ w.number? = some x

/-- The value is a number or a list. -/
def Comparable (v : Feature) : Prop :=
  ∀ s, v ≠ str s

end Feature

/-- The similarity of two numbers. -/
def numberSimilarity (x y : ℚ) : ℚ :=
  max 0 (1 - |x - y| / max (max |x| |y|) 1)

/-- The similarity of the sets of two lists. -/
def jaccard (set1 set2 : Finset String) : ℚ :=
  if set1 = ∅ ∧ set2 = ∅ then 1 else ((set1 ∩ set2).card : ℚ) / (set1 ∪ set2).card

/-- What is appended to `similarities` for two values of one key. -/
def valueSimilarity (v w : Feature) : Option ℚ :=
  match v.number?, w.number? with
  | some x, some y => some (numberSimilarity x y)
  | _, _ =>
    match v, w with
    | .list l, .list m => some (jaccard l.toFinset m.toFinset)
    | _, _ => none

/-- `set(features1.keys()) & set(features2.keys())`. -/
def commonKeys (f g : Dict String Feature) : List String :=
  f.keys.filter (· ∈ g)

/-- `similarities`. -/
def similarities (f g : Dict String Feature) : List ℚ :=
  (commonKeys f g).filterMap fun key =>
    (f.get? key).bind fun v => (g.get? key).bind fun w => valueSimilarity v w

/-- `_calculate_feature_similarity`. -/
def featureSimilarity (f g : Dict String Feature) : ℚ :=
  average (similarities f g)

/-- `==` of dictionaries. -/
def SameFeatures (f g : Dict String Feature) : Prop :=
  ∀ key, match f.get? key, g.get? key with
    | some v, some w => v.eq w
    | none, none => True
    | _, _ => False

/-- `_calculate_novelty_score`. -/
def noveltyScore (features : Dict String Feature) (patterns : List (Dict String Feature)) : ℚ :=
  match (patterns.map (featureSimilarity features)).max? with
  | none => 1
  | some maxSimilarity => 1 - maxSimilarity

/-! ## Numbers and lists -/

theorem numberSimilarity_comm (x y : ℚ) : numberSimilarity x y = numberSimilarity y x := by
  unfold numberSimilarity
  rw [abs_sub_comm, max_comm |x|]

theorem numberSimilarity_self (x : ℚ) : numberSimilarity x x = 1 := by
  simp [numberSimilarity]

theorem numberSimilarity_nonneg (x y : ℚ) : 0 ≤ numberSimilarity x y :=
  le_max_left _ _

theorem numberSimilarity_le_one (x y : ℚ) : numberSimilarity x y ≤ 1 := by
  refine max_le zero_le_one (sub_le_self 1 ?_)
  exact div_nonneg (abs_nonneg _) (zero_le_one.trans (le_max_right _ _))

theorem jaccard_comm (set1 set2 : Finset String) : jaccard set1 set2 = jaccard set2 set1 := by
  unfold jaccard
  rw [Finset.inter_comm, Finset.union_comm]
  exact if_congr and_comm rfl rfl

theorem jaccard_self (set : Finset String) : jaccard set set = 1 := by
  unfold jaccard
  by_cases h : set = ∅
  · exact if_pos ⟨h, h⟩
  · have hcard : (set.card : ℚ) ≠ 0 := by
      exact_mod_cast mt Finset.card_eq_zero.mp h
    rw [if_neg fun hempty => h hempty.1, Finset.inter_self, Finset.union_self]
    exact div_self hcard

theorem jaccard_nonneg (set1 set2 : Finset String) : 0 ≤ jaccard set1 set2 := by
  unfold jaccard
  split_ifs
  · exact zero_le_one
  · exact div_nonneg (Nat.cast_nonneg _) (Nat.cast_nonneg _)

theorem jaccard_le_one (set1 set2 : Finset String) : jaccard set1 set2 ≤ 1 := by
  unfold jaccard
  split_ifs
  · exact le_rfl
  · refine div_le_one_of_le₀ ?_ (Nat.cast_nonneg _)
    exact_mod_cast Finset.card_le_card Finset.inter_subset_union

/-! ## Values -/

variable {v w : Feature} {x : ℚ}

/-- Two values are compared as numbers or as lists. -/
theorem valueSimilarity_eq_some : valueSimilarity v w = some x ↔
    (∃ y z, v.number? = some y ∧ w.number? = some z ∧ x = numberSimilarity y z) ∨
      ∃ l m, v = .list l ∧ w = .list m ∧ x = jaccard l.toFinset m.toFinset := by
  cases v <;> cases w <;> simp [valueSimilarity, Feature.number?, eq_comm]

theorem valueSimilarity_comm (v w : Feature) : valueSimilarity v w = valueSimilarity w v := by
  cases v <;> cases w <;>
    simp [valueSimilarity, Feature.number?, numberSimilarity_comm, jaccard_comm]

theorem valueSimilarity_mem_unit (h : valueSimilarity v w = some x) : 0 ≤ x ∧ x ≤ 1 := by
  rcases valueSimilarity_eq_some.mp h with ⟨y, z, _, _, rfl⟩ | ⟨l, m, _, _, rfl⟩
  · exact ⟨numberSimilarity_nonneg y z, numberSimilarity_le_one y z⟩
  · exact ⟨jaccard_nonneg _ _, jaccard_le_one _ _⟩

/-- Equal values have the similarity 1, if any. -/
theorem valueSimilarity_eq_one (heq : v.eq w) (h : valueSimilarity v w = some x) : x = 1 := by
  rcases valueSimilarity_eq_some.mp h with ⟨y, z, hy, hz, rfl⟩ | ⟨l, m, rfl, rfl, rfl⟩
  · have hyz : y = z := by
      cases v <;> cases w <;> simp_all [Feature.eq, Feature.number?]
    rw [hyz, numberSimilarity_self]
  · rw [show l = m from heq, jaccard_self]

/-- Equal values that are numbers or lists have one. -/
theorem isSome_valueSimilarity (heq : v.eq w) (hv : v.Comparable) :
    (valueSimilarity v w).isSome = true := by
  cases v with
  | str s => exact absurd rfl (hv s)
  | list l => cases w <;> simp_all [Feature.eq, Feature.number?, valueSimilarity]
  | _ => cases w <;> simp_all [Feature.eq, Feature.number?, valueSimilarity]

/-! ## Dictionaries -/

variable {f g : Dict String Feature}

theorem mem_commonKeys {key : String} : key ∈ commonKeys f g ↔ key ∈ f ∧ key ∈ g := by
  simp [commonKeys, Dict.mem_def, Dict.keys]

theorem nodup_commonKeys (f g : Dict String Feature) : (commonKeys f g).Nodup :=
  f.nodup.filter _

theorem commonKeys_perm (f g : Dict String Feature) :
    (commonKeys f g).Perm (commonKeys g f) :=
  (List.perm_ext_iff_of_nodup (nodup_commonKeys f g) (nodup_commonKeys g f)).mpr fun key => by
    rw [mem_commonKeys, mem_commonKeys, and_comm]

theorem mem_similarities : x ∈ similarities f g ↔
    ∃ key v w, f.get? key = some v ∧ g.get? key = some w ∧ valueSimilarity v w = some x := by
  unfold similarities
  rw [List.mem_filterMap]
  constructor
  · rintro ⟨key, _, h⟩
    obtain ⟨v, hv, h⟩ := Option.bind_eq_some_iff.mp h
    obtain ⟨w, hw, h⟩ := Option.bind_eq_some_iff.mp h
    exact ⟨key, v, w, hv, hw, h⟩
  · rintro ⟨key, v, w, hv, hw, h⟩
    refine ⟨key, mem_commonKeys.mpr ⟨Dict.mem_of_get? hv, Dict.mem_of_get? hw⟩, ?_⟩
    rw [hv, Option.bind_some, hw, Option.bind_some, h]

theorem similarities_perm (f g : Dict String Feature) :
    (similarities f g).Perm (similarities g f) := by
  have hvalue : ∀ key, ((f.get? key).bind fun v => (g.get? key).bind fun w =>
      valueSimilarity v w) = (g.get? key).bind fun v => (f.get? key).bind fun w =>
      valueSimilarity v w := by
    intro key
    cases f.get? key <;> cases g.get? key <;> simp [valueSimilarity_comm]
  unfold similarities
  simp only [hvalue]
  exact (commonKeys_perm f g).filterMap _

theorem featureSimilarity_comm (f g : Dict String Feature) :
    featureSimilarity f g = featureSimilarity g f :=
  average_perm (similarities_perm f g)

theorem featureSimilarity_nonneg (f g : Dict String Feature) : 0 ≤ featureSimilarity f g := by
  refine average_nonneg fun x hx => ?_
  obtain ⟨_, _, _, _, _, h⟩ := mem_similarities.1 hx
  exact (valueSimilarity_mem_unit h).1

theorem featureSimilarity_le_one (f g : Dict String Feature) : featureSimilarity f g ≤ 1 := by
  refine average_le_one fun x hx => ?_
  obtain ⟨_, _, _, _, _, h⟩ := mem_similarities.1 hx
  exact (valueSimilarity_mem_unit h).2

theorem SameFeatures.exists_eq (h : SameFeatures f g) {key : String} {v : Feature}
    (hv : f.get? key = some v) : ∃ w, g.get? key = some w ∧ v.eq w := by
  have hkey := h key
  rw [hv] at hkey
  cases hw : g.get? key with
  | none => simp [hw] at hkey
  | some w => exact ⟨w, rfl, by simpa [hw] using hkey⟩

/-- Equal dictionaries with a number or a list are as similar as can be. -/
theorem featureSimilarity_eq_one (h : SameFeatures f g) {key : String} {v : Feature}
    (hv : f.get? key = some v) (hcomparable : v.Comparable) : featureSimilarity f g = 1 := by
  have hne : similarities f g ≠ [] := by
    obtain ⟨w, hw, heq⟩ := h.exists_eq hv
    obtain ⟨x, hx⟩ := Option.isSome_iff_exists.mp (isSome_valueSimilarity heq hcomparable)
    exact List.ne_nil_of_mem (mem_similarities.2 ⟨key, v, w, hv, hw, hx⟩)
  refine average_eq hne fun x hx => ?_
  obtain ⟨key', v', w', hv', hw', hx⟩ := mem_similarities.1 hx
  obtain ⟨w, hw, heq⟩ := h.exists_eq hv'
  obtain rfl := Option.some.inj (hw'.symm.trans hw)
  exact valueSimilarity_eq_one heq hx

/-! ## Novelty -/

theorem noveltyScore_mem_unit (f : Dict String Feature) (patterns : List (Dict String Feature)) :
    0 ≤ noveltyScore f patterns ∧ noveltyScore f patterns ≤ 1 := by
  unfold noveltyScore
  split
  · exact ⟨zero_le_one, le_rfl⟩
  · rename_i hmax
    obtain ⟨g, _, rfl⟩ := List.mem_map.mp (List.max?_mem hmax)
    exact ⟨sub_nonneg.mpr (featureSimilarity_le_one f g),
      sub_le_self 1 (featureSimilarity_nonneg f g)⟩

/-- A pattern that is as similar as can be leaves nothing new. -/
theorem noveltyScore_eq_zero {patterns : List (Dict String Feature)} (hg : g ∈ patterns)
    (h : featureSimilarity f g = 1) : noveltyScore f patterns = 0 := by
  have hmem : 1 ∈ patterns.map (featureSimilarity f) := h ▸ List.mem_map_of_mem hg
  have hmax : (patterns.map (featureSimilarity f)).max? = some 1 := by
    refine List.max?_eq_some_iff.mpr ⟨hmem, fun x hx => ?_⟩
    obtain ⟨g', _, rfl⟩ := List.mem_map.mp hx
    exact featureSimilarity_le_one f g'
  rw [noveltyScore, hmax]
  exact sub_self 1

end Router

end MultiAgent
