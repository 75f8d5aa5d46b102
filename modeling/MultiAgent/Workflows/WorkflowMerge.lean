import MultiAgent.Workflows.WorkflowData

/-!
# The laws of a deep merge

What stands where after `_deep_merge`. A path is a list of keys : where both dictionaries hold
a dictionary the merge holds theirs merged, elsewhere it holds what the second holds, and what
the first holds where the second neither holds anything nor something else than a dictionary on
the way (`leastMerge_deepMerge`).

Two dictionaries with the same keys in the same order and the same values are the same
(`items_ext`). So merging twice changes nothing (`deepMerge_deepMerge_self`), and merges
associate where dictionaries meet only dictionaries (`deepMerge_assoc`).
-/

namespace MultiAgent

namespace WorkflowLoader

/-! ## Paths -/

/-- What stands at a path of keys. -/
def valueAt : List PyKey → PyValue → Option PyValue
  | [], v => some v
  | k :: p, .obj d =>
    match d.lookup k with
    | some v => valueAt p v
    | none => none
  | _ :: _, _ => none

/-- The value is a dictionary. -/
def IsDict (v : PyValue) : Prop :=
  ∃ d, v = .obj d

/-- The dictionary has the path, or something else than a dictionary on the way. -/
def Touches (b : Items) (p : List PyKey) : Prop :=
  (∃ v, valueAt p (.obj b) = some v) ∨ ∃ q v, q <+: p ∧ valueAt q (.obj b) = some v ∧ ¬IsDict v

/-- The least surprising merge : at each path the merge of two dictionaries, else what the
second dictionary holds, else what the first holds where the second does not touch the path,
and nothing else. -/
structure LeastMerge (a b m : Items) : Prop where
  both : ∀ p x y, valueAt p (.obj a) = some (.obj x) → valueAt p (.obj b) = some (.obj y) →
    valueAt p (.obj m) = some (.obj (deepMerge x y))
  override : ∀ p y, valueAt p (.obj b) = some y →
    ¬(IsDict y ∧ ∃ x, valueAt p (.obj a) = some x ∧ IsDict x) → valueAt p (.obj m) = some y
  base : ∀ p x, valueAt p (.obj a) = some x → ¬Touches b p → valueAt p (.obj m) = some x
  only : ∀ p z, valueAt p (.obj m) = some z → (∃ y, valueAt p (.obj b) = some y) ∨
    (∃ x, valueAt p (.obj a) = some x) ∧ ¬Touches b p

/-- At no path does one dictionary hold a dictionary and the other something else. -/
def MeetDicts (a b : Items) : Prop :=
  ∀ p x y, valueAt p (.obj a) = some x → valueAt p (.obj b) = some y → (IsDict x ↔ IsDict y)

mutual

/-- The dictionaries that dictionaries lead to have distinct keys. -/
def WellFormed : PyValue → Prop
  | .obj d => (d.map Prod.fst).Nodup ∧ WellFormedItems d
  | _ => True
termination_by structural v => v

/-- All values are well formed. -/
def WellFormedItems : Items → Prop
  | [] => True
  | (_, v) :: d => WellFormed v ∧ WellFormedItems d
termination_by structural d => d

end

theorem valueAt_cons (k : PyKey) (p : List PyKey) (d : Items) :
    valueAt (k :: p) (.obj d) = (d.lookup k).bind (valueAt p) := by
  rw [valueAt]
  cases d.lookup k <;> rfl

theorem valueAt_cons_eq_some {k : PyKey} {p : List PyKey} {d : Items} {v : PyValue} :
    valueAt (k :: p) (.obj d) = some v ↔ ∃ w, d.lookup k = some w ∧ valueAt p w = some v := by
  rw [valueAt_cons, Option.bind_eq_some_iff]

/-- Below something else than a dictionary nothing stands. -/
theorem valueAt_of_not_isDict {k : PyKey} {p : List PyKey} {v : PyValue} (h : ¬IsDict v) :
    valueAt (k :: p) v = none := by
  cases v with
  | obj d => exact absurd ⟨d, rfl⟩ h
  | _ => rfl

theorem wellFormed_of_lookup {k : PyKey} {v : PyValue} : ∀ {d : Items}, WellFormedItems d →
    d.lookup k = some v → WellFormed v
  | [], _, h => by cases h
  | (key, w) :: d, hd, h => by
    rw [WellFormedItems] at hd
    by_cases hk : k = key
    · subst hk
      rw [Dict.lookup_cons_self (k, w)] at h
      exact Option.some.inj h ▸ hd.1
    · rw [Dict.lookup_cons_ne (p := (key, w)) d hk] at h
      exact wellFormed_of_lookup hd.2 h

/-- What a merge of values is, dictionaries apart. -/
theorem mergeValue_of_not_isDict {old : Option PyValue} {v : PyValue}
    (h : ¬(IsDict v ∧ ∃ x, old = some x ∧ IsDict x)) : mergeValue old v = v := by
  rw [mergeValue.eq_def]
  split
  · exact absurd ⟨⟨_, rfl⟩, _, rfl, _, rfl⟩ h
  · rfl

@[simp] theorem mergeValue_obj (a b : Items) :
    mergeValue (some (.obj a)) (.obj b) = .obj (deepMerge a b) := by
  rw [mergeValue.eq_def]

/-! ## What stands where -/

/-- A path below a key that the second dictionary has. -/
theorem valueAt_of_lookup {a b : Items} (hb : (b.map Prod.fst).Nodup) {k : PyKey} {w : PyValue}
    (hw : b.lookup k = some w) (p : List PyKey) :
    valueAt (k :: p) (.obj (deepMerge a b)) = valueAt p (mergeValue (a.lookup k) w) := by
  rw [valueAt_cons, lookup_deepMerge a hb, hw]
  rfl

/-- A path below a key that it does not have. -/
theorem valueAt_of_lookup_none {a b : Items} (hb : (b.map Prod.fst).Nodup) {k : PyKey}
    (hw : b.lookup k = none) (p : List PyKey) :
    valueAt (k :: p) (.obj (deepMerge a b)) = valueAt (k :: p) (.obj a) := by
  rw [valueAt_cons, lookup_deepMerge a hb, hw, valueAt_cons]

/-- Only a dictionary has dictionaries at its paths. -/
theorem isDict_of_valueAt {p : List PyKey} {v : PyValue} {z : Items}
    (h : valueAt p v = some (.obj z)) : IsDict v := by
  cases p with
  | nil => exact ⟨z, Option.some.inj h⟩
  | cons k p =>
    by_contra hnot
    rw [valueAt_of_not_isDict hnot] at h
    cases h

theorem valueAt_both : ∀ (p : List PyKey) {a b x y : Items}, WellFormed (.obj b) →
    valueAt p (.obj a) = some (.obj x) → valueAt p (.obj b) = some (.obj y) →
      valueAt p (.obj (deepMerge a b)) = some (.obj (deepMerge x y))
  | [], a, b, x, y, _, hx, hy => by
    rw [valueAt, Option.some.injEq, PyValue.obj.injEq] at hx hy
    rw [valueAt, hx, hy]
  | k :: p, a, b, x, y, hb, hx, hy => by
    rw [WellFormed] at hb
    obtain ⟨v, hv, hx⟩ := valueAt_cons_eq_some.1 hx
    obtain ⟨w, hw, hy⟩ := valueAt_cons_eq_some.1 hy
    obtain ⟨a', rfl⟩ := isDict_of_valueAt hx
    obtain ⟨b', rfl⟩ := isDict_of_valueAt hy
    rw [valueAt_of_lookup hb.1 hw, hv, mergeValue_obj]
    exact valueAt_both p (wellFormed_of_lookup hb.2 hw) hx hy

theorem valueAt_override : ∀ (p : List PyKey) {a b : Items} {y : PyValue}, WellFormed (.obj b) →
    valueAt p (.obj b) = some y → ¬(IsDict y ∧ ∃ x, valueAt p (.obj a) = some x ∧ IsDict x) →
      valueAt p (.obj (deepMerge a b)) = some y
  | [], a, b, y, _, hy, hnot => by
    obtain rfl := Option.some.inj hy
    exact absurd ⟨⟨b, rfl⟩, _, rfl, a, rfl⟩ hnot
  | k :: p, a, b, y, hb, hy, hnot => by
    rw [WellFormed] at hb
    obtain ⟨w, hw, hy⟩ := valueAt_cons_eq_some.1 hy
    rw [valueAt_of_lookup hb.1 hw]
    by_cases hboth : IsDict w ∧ ∃ v, a.lookup k = some v ∧ IsDict v
    · obtain ⟨⟨b', rfl⟩, _, hv, a', rfl⟩ := hboth
      rw [hv, mergeValue_obj]
      refine valueAt_override p (wellFormed_of_lookup hb.2 hw) hy ?_
      rintro ⟨hdict, x, hx, hxdict⟩
      exact hnot ⟨hdict, x, valueAt_cons_eq_some.2 ⟨_, hv, hx⟩, hxdict⟩
    · rw [mergeValue_of_not_isDict hboth]
      exact hy

theorem Touches.cons {b b' : Items} {k : PyKey} {p : List PyKey}
    (hk : b.lookup k = some (.obj b')) (h : Touches b' p) : Touches b (k :: p) := by
  rcases h with ⟨v, hv⟩ | ⟨q, v, hq, hv, hnot⟩
  · exact Or.inl ⟨v, valueAt_cons_eq_some.2 ⟨_, hk, hv⟩⟩
  · exact Or.inr ⟨k :: q, v, List.cons_prefix_cons.mpr ⟨rfl, hq⟩,
      valueAt_cons_eq_some.2 ⟨_, hk, hv⟩, hnot⟩

/-- A dictionary touches every path below a key at which it has no dictionary. -/
theorem touches_of_lookup {b : Items} {k : PyKey} {w : PyValue} (hw : b.lookup k = some w)
    (hnot : ¬IsDict w) (p : List PyKey) : Touches b (k :: p) :=
  Or.inr ⟨[k], w, List.cons_prefix_cons.mpr ⟨rfl, List.nil_prefix⟩,
    valueAt_cons_eq_some.2 ⟨w, hw, rfl⟩, hnot⟩

/-- A path is touched if the dictionary has a key on it and what stands there touches the
rest. -/
theorem touches_cons_iff {b : Items} {k : PyKey} {p : List PyKey} :
    Touches b (k :: p) ↔
      ∃ w, b.lookup k = some w ∧ ∀ b', w = .obj b' → Touches b' p := by
  constructor
  · rintro (⟨v, hv⟩ | ⟨q, v, hq, hv, hnot⟩)
    · obtain ⟨w, hw, hv⟩ := valueAt_cons_eq_some.1 hv
      exact ⟨w, hw, fun b' hb' => Or.inl ⟨v, hb' ▸ hv⟩⟩
    · cases q with
      | nil => exact absurd ⟨b, (Option.some.inj hv).symm⟩ hnot
      | cons k' q =>
        obtain ⟨rfl, hqp⟩ := List.cons_prefix_cons.mp hq
        obtain ⟨w, hw, hv⟩ := valueAt_cons_eq_some.1 hv
        exact ⟨w, hw, fun b' hb' => Or.inr ⟨q, v, hqp, hb' ▸ hv, hnot⟩⟩
  · rintro ⟨w, hw, htouch⟩
    by_cases hdict : IsDict w
    · obtain ⟨b', rfl⟩ := hdict
      exact (htouch b' rfl).cons hw
    · exact touches_of_lookup hw hdict p

theorem valueAt_base : ∀ (p : List PyKey) {a b : Items} {x : PyValue}, WellFormed (.obj b) →
    valueAt p (.obj a) = some x → ¬Touches b p → valueAt p (.obj (deepMerge a b)) = some x
  | [], a, b, x, _, _, hnot => absurd (Or.inl ⟨_, rfl⟩) hnot
  | k :: p, a, b, x, hb, hx, hnot => by
    rw [WellFormed] at hb
    obtain ⟨v, hv, hx⟩ := valueAt_cons_eq_some.1 hx
    cases hw : b.lookup k with
    | none =>
      rw [valueAt_of_lookup_none hb.1 hw]
      exact valueAt_cons_eq_some.2 ⟨v, hv, hx⟩
    | some w =>
      rw [touches_cons_iff, not_exists] at hnot
      have hbelow := hnot w
      push Not at hbelow
      obtain ⟨b', rfl, htouch⟩ := hbelow hw
      by_cases hdict : IsDict v
      · obtain ⟨a', rfl⟩ := hdict
        rw [valueAt_of_lookup hb.1 hw, hv, mergeValue_obj]
        exact valueAt_base p (wellFormed_of_lookup hb.2 hw) hx htouch
      · cases p with
        | nil => exact absurd (Or.inl ⟨_, rfl⟩) htouch
        | cons k' p =>
          rw [valueAt_of_not_isDict hdict] at hx
          cases hx

theorem valueAt_only : ∀ (p : List PyKey) {a b : Items} {z : PyValue}, WellFormed (.obj b) →
    valueAt p (.obj (deepMerge a b)) = some z →
      (∃ y, valueAt p (.obj b) = some y) ∨
        (∃ x, valueAt p (.obj a) = some x) ∧ ¬Touches b p
  | [], _, b, _, _, _ => Or.inl ⟨.obj b, rfl⟩
  | k :: p, a, b, z, hb, hz => by
    rw [WellFormed] at hb
    cases hw : b.lookup k with
    | none =>
      rw [valueAt_of_lookup_none hb.1 hw] at hz
      refine Or.inr ⟨⟨z, hz⟩, fun htouch => ?_⟩
      obtain ⟨w, hw', -⟩ := touches_cons_iff.mp htouch
      rw [hw] at hw'
      cases hw'
    | some w =>
      rw [valueAt_of_lookup hb.1 hw] at hz
      by_cases hboth : IsDict w ∧ ∃ v, a.lookup k = some v ∧ IsDict v
      · obtain ⟨⟨b', rfl⟩, _, hv, a', rfl⟩ := hboth
        rw [hv, mergeValue_obj] at hz
        rcases valueAt_only p (wellFormed_of_lookup hb.2 hw) hz with ⟨y, hy⟩ | ⟨⟨x, hx⟩, hnot⟩
        · exact Or.inl ⟨y, valueAt_cons_eq_some.2 ⟨_, hw, hy⟩⟩
        · refine Or.inr ⟨⟨x, valueAt_cons_eq_some.2 ⟨_, hv, hx⟩⟩, fun htouch => hnot ?_⟩
          obtain ⟨w', hw', htouch⟩ := touches_cons_iff.mp htouch
          exact htouch b' (Option.some.inj (hw'.symm.trans hw))
      · rw [mergeValue_of_not_isDict hboth] at hz
        exact Or.inl ⟨z, valueAt_cons_eq_some.2 ⟨w, hw, hz⟩⟩

theorem leastMerge_deepMerge {a b : Items} (hb : WellFormed (.obj b)) :
    LeastMerge a b (deepMerge a b) where
  both p _ _ := valueAt_both p hb
  override p _ := valueAt_override p hb
  base p _ := valueAt_base p hb
  only p _ := valueAt_only p hb

/-! ## Dictionaries with the same items -/

theorem items_ext : ∀ {l m : Items}, (l.map Prod.fst).Nodup → l.map Prod.fst = m.map Prod.fst →
    (∀ k, l.lookup k = m.lookup k) → l = m
  | [], [], _, _, _ => rfl
  | [], _ :: _, _, hkeys, _ => by cases hkeys
  | _ :: _, [], _, hkeys, _ => by cases hkeys
  | (k, v) :: l, (k', w) :: m, hnodup, hkeys, hlookup => by
    obtain ⟨hk, hrestKeys⟩ := List.cons.inj hkeys
    obtain ⟨hnot, hrestNodup⟩ := List.nodup_cons.mp hnodup
    obtain rfl : k = k' := hk
    have hvalue := hlookup k
    rw [Dict.lookup_cons_self (k, v), Dict.lookup_cons_self (k, w), Option.some.injEq] at hvalue
    subst hvalue
    refine congrArg _ (items_ext hrestNodup hrestKeys fun key => ?_)
    by_cases hkey : key = k
    · subst hkey
      have hnone : ∀ n : Items, key ∉ n.map Prod.fst → n.lookup key = none := fun n hn =>
        Option.not_isSome_iff_eq_none.mp fun h => hn (Dict.lookup_isSome.mp h)
      rw [hnone l hnot, hnone m (hrestKeys ▸ hnot)]
    · have hrest := hlookup key
      rwa [Dict.lookup_cons_ne (p := (k, v)) l hkey,
        Dict.lookup_cons_ne (p := (k, v)) m hkey] at hrest

theorem map_fst_setItem (k : PyKey) (v : PyValue) (l : Items) :
    (Dict.setItem k v l).map Prod.fst =
      if k ∈ l.map Prod.fst then l.map Prod.fst else l.map Prod.fst ++ [k] := by
  unfold Dict.setItem
  split_ifs
  · exact Dict.map_fst_replaceItem k v l
  · exact List.map_append

/-- The keys of a merge : those of the first dictionary, then the others of the second. -/
theorem map_fst_deepMerge : ∀ {b : Items} (a : Items), (b.map Prod.fst).Nodup →
    (deepMerge a b).map Prod.fst =
      a.map Prod.fst ++ (b.map Prod.fst).filter (· ∉ a.map Prod.fst)
  | [], a, _ => by rw [deepMerge]; simp
  | (k, v) :: b, a, hb => by
    obtain ⟨hk, hb⟩ := List.nodup_cons.mp hb
    rw [deepMerge, map_fst_deepMerge _ hb, map_fst_setItem]
    split_ifs with hin
    · rw [List.map_cons, List.filter_cons_of_neg (by simpa using hin)]
    · rw [List.map_cons, List.filter_cons_of_pos (by simpa using hin), List.append_assoc]
      refine congrArg _ (congrArg (k :: ·) (List.filter_congr fun key hkey => ?_))
      have hne : key ≠ k := fun he => hk (he ▸ hkey)
      simp [hne]

theorem nodup_deepMerge {a b : Items} (ha : (a.map Prod.fst).Nodup)
    (hb : (b.map Prod.fst).Nodup) : ((deepMerge a b).map Prod.fst).Nodup := by
  rw [map_fst_deepMerge a hb]
  refine ha.append (hb.filter _) fun k hk hk' => ?_
  exact of_decide_eq_true (List.mem_filter.mp hk').2 hk

/-! ## Merging twice, and merging three -/

theorem sizeOf_lookup {k : PyKey} {v : PyValue} : ∀ {d : Items}, d.lookup k = some v →
    sizeOf v < sizeOf d
  | [], h => by cases h
  | (key, w) :: d, h => by
    by_cases hk : k = key
    · subst hk
      rw [Dict.lookup_cons_self (k, w), Option.some.injEq] at h
      subst h
      simp only [List.cons.sizeOf_spec, Prod.mk.sizeOf_spec]
      omega
    · rw [Dict.lookup_cons_ne (p := (key, w)) d hk] at h
      have ih := sizeOf_lookup h
      simp only [List.cons.sizeOf_spec]
      omega

theorem sizeOf_of_lookup_obj {k : PyKey} {d e : Items} (h : d.lookup k = some (.obj e)) :
    sizeOf e < sizeOf d := by
  have hlt := sizeOf_lookup h
  simp only [PyValue.obj.sizeOf_spec] at hlt
  omega

/-- Merging a dictionary into itself changes nothing. -/
theorem deepMerge_self {b : Items} (hb : WellFormed (.obj b)) : deepMerge b b = b := by
  rw [WellFormed] at hb
  refine items_ext (nodup_deepMerge hb.1 hb.1) ?_ fun k => ?_
  · rw [map_fst_deepMerge b hb.1]
    simp
  · rw [lookup_deepMerge b hb.1]
    cases hw : b.lookup k with
    | none => rfl
    | some w =>
      refine congrArg some ?_
      by_cases hdict : IsDict w
      · obtain ⟨b', rfl⟩ := hdict
        have hlt := sizeOf_of_lookup_obj hw
        rw [mergeValue_obj, deepMerge_self (wellFormed_of_lookup hb.2 hw)]
      · exact mergeValue_of_not_isDict fun h => hdict h.1
termination_by sizeOf b

/-- Merging the same dictionary again changes nothing. -/
theorem deepMerge_deepMerge_self {a b : Items} (ha : (a.map Prod.fst).Nodup)
    (hb : WellFormed (.obj b)) (haItems : WellFormedItems a) :
    deepMerge (deepMerge a b) b = deepMerge a b := by
  have hbItems := hb
  rw [WellFormed] at hbItems
  obtain ⟨hbKeys, hbItems⟩ := hbItems
  have hm : ((deepMerge a b).map Prod.fst).Nodup := nodup_deepMerge ha hbKeys
  refine items_ext (nodup_deepMerge hm hbKeys) ?_ fun k => ?_
  · rw [map_fst_deepMerge _ hbKeys, List.filter_eq_nil_iff.mpr, List.append_nil]
    intro k hk
    have hmem : k ∈ (deepMerge a b).map Prod.fst := by
      rw [map_fst_deepMerge a hbKeys]
      by_cases hin : k ∈ a.map Prod.fst
      · exact List.mem_append_left _ hin
      · exact List.mem_append_right _ (List.mem_filter.mpr ⟨hk, decide_eq_true hin⟩)
    exact fun hnot => of_decide_eq_true hnot hmem
  · rw [lookup_deepMerge _ hbKeys, lookup_deepMerge a hbKeys]
    cases hw : b.lookup k with
    | none => rfl
    | some w =>
      refine congrArg some ?_
      dsimp only
      by_cases hdict : IsDict w
      · obtain ⟨b', rfl⟩ := hdict
        have hlt := sizeOf_of_lookup_obj hw
        have hb' := wellFormed_of_lookup hbItems hw
        by_cases hold : ∃ x, a.lookup k = some x ∧ IsDict x
        · obtain ⟨_, hv, a', rfl⟩ := hold
          have ha' := wellFormed_of_lookup haItems hv
          rw [WellFormed] at ha'
          rw [hv, mergeValue_obj, mergeValue_obj, deepMerge_deepMerge_self ha'.1 hb' ha'.2]
        · rw [mergeValue_of_not_isDict fun h => hold h.2, mergeValue_obj, deepMerge_self hb']
      · have hnew : ∀ old, mergeValue old w = w := fun old =>
          mergeValue_of_not_isDict fun h => hdict h.1
        rw [hnew, hnew]
termination_by sizeOf b

theorem deepMerge_nil (a : Items) : deepMerge a [] = a := by
  rw [deepMerge]

theorem MeetDicts.of_lookup {a b a' b' : Items} {k : PyKey} (h : MeetDicts a b)
    (ha : a.lookup k = some (.obj a')) (hb : b.lookup k = some (.obj b')) : MeetDicts a' b' :=
  fun p x y hx hy => h (k :: p) x y (valueAt_cons_eq_some.2 ⟨_, ha, hx⟩)
    (valueAt_cons_eq_some.2 ⟨_, hb, hy⟩)

/-- At a key of both dictionaries. -/
theorem MeetDicts.isDict_iff {a b : Items} {k : PyKey} {x y : PyValue} (h : MeetDicts a b)
    (ha : a.lookup k = some x) (hb : b.lookup k = some y) : IsDict x ↔ IsDict y :=
  h [k] x y (valueAt_cons_eq_some.2 ⟨x, ha, rfl⟩) (valueAt_cons_eq_some.2 ⟨y, hb, rfl⟩)

/-- Merges associate where dictionaries meet only dictionaries. -/
theorem deepMerge_assoc {a b c : Items} (ha : WellFormed (.obj a)) (hb : WellFormed (.obj b))
    (hc : WellFormed (.obj c)) (hab : MeetDicts a b) (hbc : MeetDicts b c) (hac : MeetDicts a c) :
    deepMerge (deepMerge a b) c = deepMerge a (deepMerge b c) := by
  rw [WellFormed] at ha hb hc
  have hmbc : ((deepMerge b c).map Prod.fst).Nodup := nodup_deepMerge hb.1 hc.1
  refine items_ext (nodup_deepMerge (nodup_deepMerge ha.1 hb.1) hc.1) ?_ fun k => ?_
  · rw [map_fst_deepMerge _ hc.1, map_fst_deepMerge a hb.1, map_fst_deepMerge a hmbc,
      map_fst_deepMerge b hc.1, List.filter_append, List.filter_filter, List.append_assoc]
    refine congrArg _ (congrArg _ (List.filter_congr fun k hk => ?_))
    simp only [List.mem_append, List.mem_filter]
    by_cases hka : k ∈ a.map Prod.fst
    · simp [hka]
    · by_cases hkb : k ∈ b.map Prod.fst
      · simp [hka, hkb]
      · simp [hka, hkb]
  · rw [lookup_deepMerge _ hc.1, lookup_deepMerge a hb.1, lookup_deepMerge a hmbc,
      lookup_deepMerge b hc.1]
    cases hz : c.lookup k with
    | none => cases b.lookup k <;> rfl
    | some z =>
      cases hy : b.lookup k with
      | none => exact congrArg (fun z => some (mergeValue (a.lookup k) z)) (mergeValue_none z).symm
      | some y =>
        refine congrArg some ?_
        dsimp only
        by_cases hdict : IsDict z
        · -- then all that stands here are dictionaries
          obtain ⟨c', rfl⟩ := hdict
          obtain ⟨b', rfl⟩ := (hbc.isDict_iff hy hz).mpr ⟨c', rfl⟩
          cases hx : a.lookup k with
          | none => rw [mergeValue_none, mergeValue_none]
          | some x =>
            obtain ⟨a', rfl⟩ := (hab.isDict_iff hx hy).mpr ⟨b', rfl⟩
            have hlt := sizeOf_of_lookup_obj hz
            simp only [mergeValue_obj]
            rw [deepMerge_assoc (wellFormed_of_lookup ha.2 hx) (wellFormed_of_lookup hb.2 hy)
              (wellFormed_of_lookup hc.2 hz) (hab.of_lookup hx hy) (hbc.of_lookup hy hz)
              (hac.of_lookup hx hz)]
        · have hnew : ∀ old, mergeValue old z = z := fun old =>
            mergeValue_of_not_isDict fun h => hdict h.1
          rw [hnew, hnew, hnew]
termination_by sizeOf c

end WorkflowLoader

end MultiAgent
