import Mathlib.Data.List.Basic
import MultiAgent.Lib.Calendar
import MultiAgent.Lib.Decimal
import MultiAgent.Lib.Split
import MultiAgent.Lib.WindowSum

/-!
# The windows of cost ceilings

Where the window of a ceiling starts, and the key under which its spending is cached, from
`libs/performance/cost_ceiling_manager.py`. The key of a week has the year of the calendar
and the week of ISO 8601, which at the turn of a year belong to different weeks : one week
then has two keys, and 1 January and 31 December of a year may have one key. For the other
types a key belongs to one window (`start_of_key`).
-/

namespace MultiAgent

namespace CostCeilings

/-- `CeilingType`. -/
inductive CeilingType
  | daily
  | weekly
  | monthly
  | quarterly
  | yearly
  | perRequest
  | perTenant
  deriving DecidableEq

/-- The directives `%m` and `%d`. -/
def twoDigits (n : ℕ) : List Char :=
  [Nat.digitChar (n / 10), Nat.digitChar (n % 10)]

/-- The characters of `str(n)`. -/
def digits (n : ℕ) : List Char :=
  (toString n).toList

theorem digits_eq (n : ℕ) : digits n = Nat.toDigits 10 n := by
  rw [digits, Nat.toString_eq_repr, Nat.toList_repr]

theorem digits_injective {m n : ℕ} (h : digits m = digits n) : m = n := by
  rw [digits_eq, digits_eq] at h
  exact Decimal.toDigits_injective h

theorem not_mem_digits {c : Char} (h : c.isDigit = false) (n : ℕ) : c ∉ digits n := by
  intro hc
  rw [digits_eq] at hc
  rw [Decimal.isDigit_of_mem_toDigits hc] at h
  cases h

theorem digitChar_injective {m n : ℕ} (hm : m < 10) (hn : n < 10)
    (h : Nat.digitChar m = Nat.digitChar n) : m = n := by
  have hcode := congrArg Char.toNat h
  rw [Nat.toNat_digitChar_of_lt_ten hm, Nat.toNat_digitChar_of_lt_ten hn] at hcode
  omega

theorem twoDigits_injective {m n : ℕ} (hm : m < 100) (hn : n < 100)
    (h : twoDigits m = twoDigits n) : m = n := by
  simp only [twoDigits, List.cons.injEq, and_true] at h
  have htens := digitChar_injective (by omega) (by omega) h.1
  have hones := digitChar_injective (by omega) (by omega) h.2
  omega

/-- A number, a mark that is no digit, and a number. -/
theorem marked_injective {c : Char} (hc : c.isDigit = false) {m n m' n' : ℕ}
    (h : digits m ++ c :: digits n = digits m' ++ c :: digits n') : m = m' ∧ n = n' := by
  obtain ⟨hl, -, hr⟩ := (List.append_cons_inj_of_notMem (not_mem_digits hc m)
    (not_mem_digits hc n)).mp h
  exact ⟨digits_injective hl, digits_injective hr⟩

/-- `_get_time_window_key`. -/
def timeWindowKey (ceilingType : CeilingType) (now : Datetime) : String :=
  String.ofList <|
    match ceilingType with
    | .daily => digits now.date.year ++ (twoDigits now.date.month ++ twoDigits now.date.day)
    | .weekly => digits now.date.year ++ 'W' :: digits now.date.isocalendar.2.1
    | .monthly => digits now.date.year ++ twoDigits now.date.month
    | .quarterly =>
      let quarter := (now.date.month - 1) / 3 + 1
      digits now.date.year ++ 'Q' :: digits quarter
    | .yearly => digits now.date.year
    | .perRequest | .perTenant => "unlimited".toList

/-- `_get_ceiling_start_time`. -/
def ceilingStartTime (ceilingType : CeilingType) (endTime : Datetime) : Datetime :=
  let date := endTime.date
  match ceilingType with
  | .daily => .midnight date
  | .weekly => .midnight date.monday
  | .monthly => .midnight (date.firstOf date.month date.month_range)
  | .quarterly =>
    .midnight (date.firstOf ((date.month - 1) / 3 * 3 + 1) (by have := date.month_range; omega))
  | .yearly => .midnight (date.firstOf 1 (by decide))
  | .perRequest | .perTenant => .midnight ⟨2020, 1, 1, by decide, by decide, by decide⟩

/-- The ceiling has no window. -/
def CeilingType.unlimited (ceilingType : CeilingType) : Prop :=
  ceilingType = .perRequest ∨ ceilingType = .perTenant

theorem ceilingStartTime_le {ceilingType : CeilingType} (h : ¬ceilingType.unlimited)
    (t : Datetime) : ceilingStartTime ceilingType t ≤ t := by
  have hmonth := t.date.month_range
  have hday := t.date.day_range
  cases ceilingType with
  | daily => exact Datetime.midnight_le.mpr le_rfl
  | weekly => exact Datetime.midnight_le.mpr t.date.monday_le
  | monthly => exact Datetime.midnight_le.mpr (Date.le_iff.mpr (by simp [Date.firstOf]; omega))
  | quarterly => exact Datetime.midnight_le.mpr (Date.le_iff.mpr (by simp [Date.firstOf]; omega))
  | yearly => exact Datetime.midnight_le.mpr (Date.le_iff.mpr (by simp [Date.firstOf]; omega))
  | perRequest => exact absurd (Or.inl rfl) h
  | perTenant => exact absurd (Or.inr rfl) h

theorem ceilingStartTime_eq {ceilingType : CeilingType} {t u : Datetime}
    (hstart : ceilingStartTime ceilingType t ≤ u) (hu : u ≤ t) :
    ceilingStartTime ceilingType u = ceilingStartTime ceilingType t := by
  have hle := Date.le_iff.mp (Datetime.date_le hu)
  cases ceilingType with
  | daily =>
    have hdate := Datetime.midnight_le.mp hstart
    exact congrArg Datetime.midnight (le_antisymm (Datetime.date_le hu) hdate)
  | weekly =>
    have hdate := Datetime.midnight_le.mp hstart
    exact congrArg Datetime.midnight (Date.monday_eq hdate (Datetime.date_le hu))
  | monthly =>
    have hdate := Date.le_iff.mp (Datetime.midnight_le.mp hstart)
    simp only [Date.firstOf] at hdate
    refine congrArg Datetime.midnight (Date.ext ?_ ?_ rfl) <;> simp only [Date.firstOf] <;> omega
  | quarterly =>
    have hdate := Date.le_iff.mp (Datetime.midnight_le.mp hstart)
    simp only [Date.firstOf] at hdate
    refine congrArg Datetime.midnight (Date.ext ?_ ?_ rfl) <;> simp only [Date.firstOf] <;> omega
  | yearly =>
    have hdate := Date.le_iff.mp (Datetime.midnight_le.mp hstart)
    simp only [Date.firstOf] at hdate
    refine congrArg Datetime.midnight (Date.ext ?_ rfl rfl)
    simp only [Date.firstOf]
    omega
  | perRequest => rfl
  | perTenant => rfl

/-- The key of a type other than weeks is a function of where the window starts. -/
theorem key_of_start {ceilingType : CeilingType} (hweek : ceilingType ≠ .weekly)
    {t u : Datetime} (h : ceilingStartTime ceilingType t = ceilingStartTime ceilingType u) :
    timeWindowKey ceilingType t = timeWindowKey ceilingType u := by
  cases ceilingType with
  | daily =>
    have hdate : t.date = u.date := Datetime.midnight_injective h
    unfold timeWindowKey
    rw [hdate]
  | weekly => exact absurd rfl hweek
  | monthly =>
    obtain ⟨hyear, hmonth⟩ := Date.firstOf_inj.mp (Datetime.midnight_injective h)
    unfold timeWindowKey
    rw [hyear, hmonth]
  | quarterly =>
    obtain ⟨hyear, hmonth⟩ := Date.firstOf_inj.mp (Datetime.midnight_injective h)
    have hquarter : (t.date.month - 1) / 3 = (u.date.month - 1) / 3 := by omega
    unfold timeWindowKey
    rw [hyear, hquarter]
  | yearly =>
    obtain ⟨hyear, -⟩ := Date.firstOf_inj.mp (Datetime.midnight_injective h)
    unfold timeWindowKey
    rw [hyear]
  | perRequest => rfl
  | perTenant => rfl

/-- The key of a type other than weeks belongs to one window. -/
theorem start_of_key {ceilingType : CeilingType} (hweek : ceilingType ≠ .weekly)
    {t u : Datetime} (h : timeWindowKey ceilingType t = timeWindowKey ceilingType u) :
    ceilingStartTime ceilingType t = ceilingStartTime ceilingType u := by
  have hmonth := t.date.month_range
  have hmonth' := u.date.month_range
  have hchars := String.ofList_injective h
  cases ceilingType with
  | daily =>
    have hday := t.date.day_le
    have hday' := u.date.day_le
    obtain ⟨hy, hmd⟩ := List.append_inj' hchars rfl
    obtain ⟨hm, hd⟩ := List.append_inj hmd rfl
    exact congrArg Datetime.midnight (Date.ext (digits_injective hy)
      (twoDigits_injective (by omega) (by omega) hm) (twoDigits_injective (by omega) (by omega) hd))
  | weekly => exact absurd rfl hweek
  | monthly =>
    obtain ⟨hy, hm⟩ := List.append_inj' hchars rfl
    exact congrArg Datetime.midnight (Date.firstOf_inj.mpr
      ⟨digits_injective hy, twoDigits_injective (by omega) (by omega) hm⟩)
  | quarterly =>
    obtain ⟨hy, hq⟩ := marked_injective (by decide) hchars
    exact congrArg Datetime.midnight (Date.firstOf_inj.mpr ⟨hy, by omega⟩)
  | yearly =>
    exact congrArg Datetime.midnight (Date.firstOf_inj.mpr ⟨digits_injective hchars, rfl⟩)
  | perRequest => rfl
  | perTenant => rfl

/-- 1 January and 31 December of 2024 are of two weeks with one key. -/
example :
    timeWindowKey .weekly (.midnight ⟨2024, 1, 1, by decide, by decide, by decide⟩) =
      timeWindowKey .weekly (.midnight ⟨2024, 12, 31, by decide, by decide, by decide⟩) := by
  decide +kernel

theorem timeWindowKey_eq {ceilingType : CeilingType} {t u v : Datetime}
    (hstart : ceilingStartTime ceilingType t = ceilingStartTime ceilingType v)
    (hkey : timeWindowKey ceilingType t = timeWindowKey ceilingType v)
    (htu : t ≤ u) (huv : u ≤ v) : timeWindowKey ceilingType u = timeWindowKey ceilingType t := by
  by_cases hweek : ceilingType = .weekly
  · subst hweek
    obtain ⟨hyear, -⟩ := marked_injective (by decide) (String.ofList_injective hkey)
    have hmonday : v.date.monday = t.date.monday := (congrArg Datetime.date hstart).symm
    have hle := Datetime.date_le htu
    have hyears : u.date.year = t.date.year := by
      have h1 := Date.le_iff.mp hle
      have h2 := Date.le_iff.mp (Datetime.date_le huv)
      omega
    have hmondays : u.date.monday = t.date.monday := by
      rw [← hmonday]
      refine Date.monday_eq ?_ (Datetime.date_le huv)
      rw [hmonday]
      exact t.date.monday_le.trans hle
    unfold timeWindowKey
    rw [hyears, Date.isocalendar_week hyears hmondays]
  by_cases hunlimited : ceilingType.unlimited
  · rcases hunlimited with rfl | rfl <;> rfl
  · have hin : ceilingStartTime ceilingType v ≤ u := by
      rw [← hstart]
      exact (ceilingStartTime_le hunlimited t).trans htu
    exact key_of_start hweek ((ceilingStartTime_eq hin huv).trans hstart.symm)

/-! ## Keys -/

theorem underscore_not_mem (ceilingType : CeilingType) (t : Datetime) :
    '_' ∉ (timeWindowKey ceilingType t).toList := by
  have hdigits := not_mem_digits (c := '_') (by decide)
  have htwo : ∀ n, '_' ∉ twoDigits n := fun n => by simp [twoDigits]
  unfold timeWindowKey
  cases ceilingType <;> simp [hdigits, htwo]

/-- A text with no underscore. -/
abbrev WindowKey :=
  { key : String // '_' ∉ key.toList }

/-- `_get_time_window_key`, with what its texts have in common. -/
def windowKey (ceilingType : CeilingType) (now : Datetime) : WindowKey :=
  ⟨timeWindowKey ceilingType now, underscore_not_mem ceilingType now⟩

/-- The key of the spending of a ceiling in `spending_cache`. -/
def cacheKey (ceilingId : String) (key : WindowKey) : String :=
  ceilingId ++ "_" ++ key.val

/-- The last underscore ends the identifier, so ceilings do not share keys. -/
theorem cacheKey_inj {ceilingId ceilingId' : String} {key key' : WindowKey} :
    cacheKey ceilingId key = cacheKey ceilingId' key' ↔ ceilingId = ceilingId' ∧ key = key' := by
  constructor
  · intro h
    have hchars := congrArg String.toList h
    simp only [cacheKey, String.toList_append, List.append_assoc] at hchars
    obtain ⟨hid, hkey⟩ := Split.append_cons_inj key.property key'.property hchars
    exact ⟨String.toList_injective hid, Subtype.ext (String.toList_injective hkey)⟩
  · rintro ⟨rfl, rfl⟩
    rfl

/-- The windows of a type of ceilings. -/
def CeilingType.windows (ceilingType : CeilingType) : Windows Datetime WindowKey where
  start := ceilingStartTime ceilingType
  key := windowKey ceilingType
  key_eq hstart hkey htu huv :=
    Subtype.ext (timeWindowKey_eq hstart (congrArg Subtype.val hkey) htu huv)

/-! ## Keys and windows

`_get_time_window_key` and `_get_ceiling_start_time` cut time into the same windows, except for
weeks around New Year : the key has the year of the calendar, and the Monday of a week goes with
the year of ISO 8601. Two times with one number of the week are told apart by the wrong year
where the two years do not agree (`sameKey_iff_sameStart_iff`). -/

/-- The key of a week is the calendar year and the number of the week. -/
theorem weeklyKey_eq_iff {t u : Datetime} :
    timeWindowKey .weekly t = timeWindowKey .weekly u ↔
      t.date.year = u.date.year ∧ t.date.isocalendar.2.1 = u.date.isocalendar.2.1 := by
  constructor
  · intro h
    exact marked_injective (by decide) (String.ofList_injective h)
  · rintro ⟨hyear, hweek⟩
    unfold timeWindowKey
    rw [hyear, hweek]

/-- The start of a week is the year of ISO 8601 and the number of the week. -/
theorem weeklyStart_eq_iff {t u : Datetime} :
    ceilingStartTime .weekly t = ceilingStartTime .weekly u ↔
      t.date.isocalendar.1 = u.date.isocalendar.1 ∧
        t.date.isocalendar.2.1 = u.date.isocalendar.2.1 := by
  rw [← Date.monday_eq_iff]
  exact Datetime.midnight_injective.eq_iff

/-- Two times have one key exactly if they have one window, unless they are of two weeks with one
number and differ in one of the two years only. -/
theorem sameKey_iff_sameStart_iff (ceilingType : CeilingType) (t u : Datetime) :
    (timeWindowKey ceilingType t = timeWindowKey ceilingType u ↔
      ceilingStartTime ceilingType t = ceilingStartTime ceilingType u) ↔
    (ceilingType = .weekly → t.date.isocalendar.2.1 = u.date.isocalendar.2.1 →
      (t.date.year = u.date.year ↔ t.date.isocalendar.1 = u.date.isocalendar.1)) := by
  by_cases hweekly : ceilingType = .weekly
  · subst hweekly
    rw [weeklyKey_eq_iff, weeklyStart_eq_iff, and_congr_left_iff]
    exact ⟨fun h _ => h, fun h => h rfl⟩
  · exact iff_of_true ⟨start_of_key hweekly, key_of_start hweekly⟩ fun h => absurd h hweekly

/-- 1 January and 31 December of 2024 have the key `2024W1`. -/
theorem not_sameKey_iff_sameStart : ¬∀ (ceilingType : CeilingType) (t u : Datetime),
    timeWindowKey ceilingType t = timeWindowKey ceilingType u ↔
      ceilingStartTime ceilingType t = ceilingStartTime ceilingType u := by
  intro h
  have hweeks := h .weekly (.midnight ⟨2024, 1, 1, by decide, by decide, by decide⟩)
    (.midnight ⟨2024, 12, 31, by decide, by decide, by decide⟩)
  exact absurd hweeks (by decide +kernel)

end CostCeilings

end MultiAgent
