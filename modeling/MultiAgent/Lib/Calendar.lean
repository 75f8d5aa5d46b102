import Mathlib.Data.Prod.Lex
import Mathlib.Tactic.Ring

/-!
# Dates of the calendar

Dates of the proleptic Gregorian calendar and times on them, with the operations of
`datetime`. A date is valid by construction. Dates are ordered by year, month and day, and
this is the order of their numbers (`Date.ordinal_lt`), which is what makes the day before,
the Monday of a week and the number of a week agree with the order.
-/

namespace MultiAgent

/-! ## Months and years -/

/-- A leap year. -/
def isLeap (year : ℕ) : Bool :=
  year % 4 = 0 && (year % 100 ≠ 0 || year % 400 = 0)

/-- The days of a month. -/
def daysInMonth (year month : ℕ) : ℕ :=
  if month = 2 then if isLeap year then 29 else 28
  else if month = 4 ∨ month = 6 ∨ month = 9 ∨ month = 11 then 30
  else 31

/-- The days of the year before a month. -/
def daysBeforeMonth (year : ℕ) : ℕ → ℕ
  | 0 => 0
  | 1 => 0
  | month + 2 => daysBeforeMonth year (month + 1) + daysInMonth year (month + 1)

/-- The days before a year. -/
def daysBeforeYear (year : ℕ) : ℕ :=
  (year - 1) * 365 + (year - 1) / 4 - (year - 1) / 100 + (year - 1) / 400

theorem one_le_daysInMonth (year month : ℕ) : 1 ≤ daysInMonth year month := by
  unfold daysInMonth
  split_ifs <;> omega

theorem daysInMonth_le (year month : ℕ) : daysInMonth year month ≤ 31 := by
  unfold daysInMonth
  split_ifs <;> omega

theorem daysBeforeMonth_succ {month : ℕ} (year : ℕ) (h : 1 ≤ month) :
    daysBeforeMonth year (month + 1) = daysBeforeMonth year month + daysInMonth year month := by
  obtain ⟨m, rfl⟩ := Nat.exists_eq_add_of_le' h
  rfl

theorem daysBeforeMonth_mono {year m n : ℕ} (hm : 1 ≤ m) (h : m ≤ n) :
    daysBeforeMonth year m ≤ daysBeforeMonth year n := by
  induction n, h using Nat.le_induction with
  | base => exact le_rfl
  | succ n hn ih =>
    rw [daysBeforeMonth_succ year (by omega)]
    omega

theorem daysBeforeMonth_add_le {year m n : ℕ} (hm : 1 ≤ m) (h : m < n) :
    daysBeforeMonth year m + daysInMonth year m ≤ daysBeforeMonth year n := by
  rw [← daysBeforeMonth_succ year hm]
  exact daysBeforeMonth_mono (by omega) h

theorem daysBeforeMonth_thirteen (year : ℕ) :
    daysBeforeMonth year 13 = if isLeap year then 366 else 365 := by
  cases hleap : isLeap year <;> simp [daysBeforeMonth, daysInMonth, hleap]

/-- The days of all the months make a year. -/
theorem daysBeforeYear_succ {year : ℕ} (h : 1 ≤ year) :
    daysBeforeYear (year + 1) = daysBeforeYear year + daysBeforeMonth year 13 := by
  obtain ⟨n, rfl⟩ := Nat.exists_eq_add_of_le' h
  have h4 : (n + 1) / 4 = n / 4 + if (n + 1) % 4 = 0 then 1 else 0 := by split_ifs <;> omega
  have h100 : (n + 1) / 100 = n / 100 + if (n + 1) % 100 = 0 then 1 else 0 := by
    split_ifs <;> omega
  have h400 : (n + 1) / 400 = n / 400 + if (n + 1) % 400 = 0 then 1 else 0 := by
    split_ifs <;> omega
  have hdiv4 : (n + 1) % 100 = 0 → (n + 1) % 4 = 0 := by omega
  have hdiv100 : (n + 1) % 400 = 0 → (n + 1) % 100 = 0 := by omega
  have hle : n / 100 ≤ n / 4 := by omega
  have hleap : isLeap (n + 1) = true ↔
      (n + 1) % 4 = 0 ∧ ((n + 1) % 100 ≠ 0 ∨ (n + 1) % 400 = 0) := by simp [isLeap]
  rw [daysBeforeMonth_thirteen]
  simp only [hleap, daysBeforeYear, Nat.add_sub_cancel, h4, h100, h400]
  generalize n / 4 = q at *
  generalize n / 100 = r at *
  by_cases h1 : (n + 1) % 4 = 0
  · by_cases h2 : (n + 1) % 100 = 0
    · by_cases h3 : (n + 1) % 400 = 0
      · rw [if_pos h1, if_pos h2, if_pos h3, if_pos ⟨h1, Or.inr h3⟩]
        omega
      · rw [if_pos h1, if_pos h2, if_neg h3, if_neg fun h => h.2.elim (absurd h2) h3]
        omega
    · rw [if_pos h1, if_neg h2, if_neg (mt hdiv100 h2), if_pos ⟨h1, Or.inl h2⟩]
      omega
  · have h2 := mt hdiv4 h1
    rw [if_neg h1, if_neg h2, if_neg (mt hdiv100 h2), if_neg fun h => h1 h.1]
    omega

theorem daysBeforeYear_mono {y z : ℕ} (hy : 1 ≤ y) (h : y ≤ z) :
    daysBeforeYear y ≤ daysBeforeYear z := by
  induction z, h using Nat.le_induction with
  | base => exact le_rfl
  | succ z hz ih =>
    rw [daysBeforeYear_succ (by omega)]
    omega

/-! ## Dates -/

/-- A day of the calendar. -/
@[ext]
structure Date where
  year : ℕ
  month : ℕ
  day : ℕ
  one_le_year : 1 ≤ year
  month_range : 1 ≤ month ∧ month ≤ 12
  day_range : 1 ≤ day ∧ day ≤ daysInMonth year month
  deriving DecidableEq

namespace Date

theorem day_le (d : Date) : d.day ≤ 31 :=
  d.day_range.2.trans (daysInMonth_le _ _)

/-- Year, month and day, in the order in which dates are compared. -/
def fields (d : Date) : ℕ ×ₗ ℕ ×ₗ ℕ :=
  toLex (d.year, toLex (d.month, d.day))

theorem fields_injective : Function.Injective fields := by
  rintro ⟨y, m, d, _, _, _⟩ ⟨y', m', d', _, _, _⟩ h
  simp only [fields, EmbeddingLike.apply_eq_iff_eq, Prod.mk.injEq] at h
  obtain ⟨rfl, rfl, rfl⟩ := h
  rfl

instance : LinearOrder Date :=
  LinearOrder.lift' fields fields_injective

theorem lt_iff {d e : Date} : d < e ↔ d.year < e.year ∨
    d.year = e.year ∧ (d.month < e.month ∨ d.month = e.month ∧ d.day < e.day) := by
  change d.fields < e.fields ↔ _
  simp [fields, Prod.Lex.toLex_lt_toLex]

theorem le_iff {d e : Date} : d ≤ e ↔ d.year < e.year ∨
    d.year = e.year ∧ (d.month < e.month ∨ d.month = e.month ∧ d.day ≤ e.day) := by
  change d.fields ≤ e.fields ↔ _
  simp [fields, Prod.Lex.toLex_le_toLex]

/-- `toordinal` : the number of the day, from 1 January of year 1 on. -/
def ordinal (d : Date) : ℕ :=
  daysBeforeYear d.year + daysBeforeMonth d.year d.month + d.day

/-- Later days have greater numbers. -/
theorem ordinal_lt {d e : Date} (h : d < e) : d.ordinal < e.ordinal := by
  obtain ⟨hm, hm'⟩ := d.month_range
  obtain ⟨-, hd⟩ := d.day_range
  have he := e.day_range.1
  unfold ordinal
  rcases lt_iff.mp h with hyear | ⟨hyear, hmonth | ⟨hmonth, hday⟩⟩
  · -- the rest of the year is before the next year
    have hrest : daysBeforeMonth d.year d.month + daysInMonth d.year d.month ≤
        daysBeforeMonth d.year 13 := daysBeforeMonth_add_le hm (by omega)
    have hnext := daysBeforeYear_mono (by omega) (Nat.succ_le_of_lt hyear)
    rw [Nat.succ_eq_add_one, daysBeforeYear_succ d.one_le_year] at hnext
    omega
  · have hrest : daysBeforeMonth d.year d.month + daysInMonth d.year d.month ≤
        daysBeforeMonth d.year e.month := daysBeforeMonth_add_le hm hmonth
    rw [← hyear]
    omega
  · rw [← hyear, ← hmonth]
    omega

theorem ordinal_le_iff {d e : Date} : d.ordinal ≤ e.ordinal ↔ d ≤ e := by
  constructor
  · intro h
    by_contra hlt
    exact absurd (ordinal_lt (not_le.mp hlt)) (not_lt.mpr h)
  · intro h
    rcases h.lt_or_eq with hlt | rfl
    · exact (ordinal_lt hlt).le
    · exact le_rfl

theorem ordinal_injective : Function.Injective ordinal := fun _ _ h =>
  le_antisymm (ordinal_le_iff.mp h.le) (ordinal_le_iff.mp h.ge)

theorem one_le_ordinal (d : Date) : 1 ≤ d.ordinal :=
  le_add_left d.day_range.1

/-- The day before; there is none before 1 January of year 1. -/
def yesterday (d : Date) : Date :=
  if hday : 1 < d.day then
    { d with
      day := d.day - 1
      day_range := by have := d.day_range; omega }
  else if hmonth : 1 < d.month then
    { d with
      month := d.month - 1
      day := daysInMonth d.year (d.month - 1)
      month_range := by have := d.month_range; omega
      day_range := ⟨one_le_daysInMonth _ _, le_rfl⟩ }
  else if hyear : 1 < d.year then
    ⟨d.year - 1, 12, 31, by omega, by decide, ⟨by decide, le_rfl⟩⟩
  else d

theorem ordinal_yesterday {d : Date} (h : 1 < d.ordinal) :
    d.yesterday.ordinal = d.ordinal - 1 := by
  have hday := d.day_range.1
  have hmonth := d.month_range.1
  have hyear := d.one_le_year
  unfold yesterday
  split_ifs with h1 h2 h3
  · simp only [ordinal]
    omega
  · have hbefore : 1 ≤ d.month - 1 := by omega
    have hsucc := daysBeforeMonth_succ d.year hbefore
    rw [Nat.sub_add_cancel hmonth] at hsucc
    simp only [ordinal]
    omega
  · have hbefore : 1 ≤ d.year - 1 := by omega
    have hsucc := daysBeforeYear_succ hbefore
    have hdec : daysBeforeMonth (d.year - 1) 13 = daysBeforeMonth (d.year - 1) 12 + 31 := rfl
    rw [Nat.sub_add_cancel hyear] at hsucc
    have hone : d.month = 1 := by omega
    have hfirst : daysBeforeMonth d.year 1 = 0 := rfl
    simp only [ordinal, hone]
    omega
  · -- 1 January of year 1
    have hone : d.month = 1 := by omega
    have hfirst : d.year = 1 := by omega
    simp only [ordinal, hone, hfirst, daysBeforeMonth, daysBeforeYear] at h
    omega

/-- The date `n` days before. -/
def minusDays (d : Date) : ℕ → Date
  | 0 => d
  | n + 1 => (d.minusDays n).yesterday

theorem ordinal_minusDays {d : Date} {n : ℕ} (h : n < d.ordinal) :
    (d.minusDays n).ordinal = d.ordinal - n := by
  induction n with
  | zero => rfl
  | succ n ih =>
    have hn := ih (by omega)
    rw [minusDays, ordinal_yesterday (by omega), hn, Nat.sub_sub]

/-- `replace(month=month, day=1)`. -/
def firstOf (d : Date) (month : ℕ) (h : 1 ≤ month ∧ month ≤ 12) : Date :=
  { d with
    month := month
    day := 1
    month_range := h
    day_range := ⟨le_rfl, one_le_daysInMonth _ _⟩ }

theorem firstOf_inj {d e : Date} {m n : ℕ} {hm : 1 ≤ m ∧ m ≤ 12} {hn : 1 ≤ n ∧ n ≤ 12} :
    d.firstOf m hm = e.firstOf n hn ↔ d.year = e.year ∧ m = n := by
  simp [Date.ext_iff, firstOf]

/-! ## Weeks -/

/-- `weekday` : Monday is 0. -/
def weekday (d : Date) : ℕ :=
  (d.ordinal + 6) % 7

/-- The Monday of the week. -/
def monday (d : Date) : Date :=
  d.minusDays d.weekday

theorem ordinal_monday (d : Date) : d.monday.ordinal = d.ordinal - (d.ordinal + 6) % 7 := by
  have hone := d.one_le_ordinal
  exact ordinal_minusDays (by unfold weekday; omega)

theorem monday_le (d : Date) : d.monday ≤ d := by
  rw [← ordinal_le_iff, ordinal_monday]
  omega

/-- The days from the Monday to a day are of one week. -/
theorem monday_eq {d e : Date} (h : d.monday ≤ e) (he : e ≤ d) : e.monday = d.monday := by
  have hone := d.one_le_ordinal
  rw [← ordinal_le_iff, ordinal_monday] at h
  rw [← ordinal_le_iff] at he
  refine ordinal_injective ?_
  rw [ordinal_monday, ordinal_monday]
  omega

/-- `_isoweek1monday` : the number of the Monday of the first week of a year, which is the
week with the first Thursday. -/
def isoWeek1Monday (year : ℕ) : ℤ :=
  let firstday : ℤ := daysBeforeYear year + 1
  let firstweekday := (firstday + 6) % 7
  if 3 < firstweekday then firstday - firstweekday + 7 else firstday - firstweekday

theorem isoWeek1Monday_mod (year : ℕ) : isoWeek1Monday year % 7 = 1 := by
  simp only [isoWeek1Monday]
  split_ifs <;> omega

/-- `isocalendar` : year, week and weekday. -/
def isocalendar (d : Date) : ℕ × ℕ × ℕ :=
  let today : ℤ := d.ordinal
  let week1monday := isoWeek1Monday d.year
  let week := (today - week1monday) / 7
  let day := (today - week1monday) % 7
  if week < 0 then
    let week1monday := isoWeek1Monday (d.year - 1)
    (d.year - 1, ((today - week1monday) / 7 + 1).toNat, ((today - week1monday) % 7 + 1).toNat)
  else if 52 ≤ week ∧ isoWeek1Monday (d.year + 1) ≤ today then (d.year + 1, 1, (day + 1).toNat)
  else (d.year, (week + 1).toNat, (day + 1).toNat)

/-- Within a year, the days of one week have one number of the week. -/
theorem isocalendar_week {d e : Date} (hyear : d.year = e.year) (hmonday : d.monday = e.monday) :
    d.isocalendar.2.1 = e.isocalendar.2.1 := by
  have hone := d.one_le_ordinal
  have hone' := e.one_le_ordinal
  have hord : d.ordinal - (d.ordinal + 6) % 7 = e.ordinal - (e.ordinal + 6) % 7 := by
    rw [← ordinal_monday, ← ordinal_monday, hmonday]
  have hthis := isoWeek1Monday_mod e.year
  have hlast := isoWeek1Monday_mod (e.year - 1)
  have hnext := isoWeek1Monday_mod (e.year + 1)
  simp only [isocalendar, hyear]
  generalize isoWeek1Monday e.year = this at *
  generalize isoWeek1Monday (e.year - 1) = last at *
  generalize isoWeek1Monday (e.year + 1) = next at *
  have hweek : ((d.ordinal : ℤ) - this) / 7 = (e.ordinal - this) / 7 := by omega
  have hbefore : ((d.ordinal : ℤ) - last) / 7 = (e.ordinal - last) / 7 := by omega
  have hafter : next ≤ (d.ordinal : ℤ) ↔ next ≤ e.ordinal := by omega
  rw [hweek, hbefore]
  simp only [hafter]
  split_ifs <;> rfl

/-- The first week starts at most three days from the start of its year. -/
theorem isoWeek1Monday_range (year : ℕ) :
    (daysBeforeYear year : ℤ) - 2 ≤ isoWeek1Monday year ∧
      isoWeek1Monday year ≤ daysBeforeYear year + 4 := by
  simp only [isoWeek1Monday]
  split_ifs <;> omega

/-- A year of weeks has 52 or 53 of them. -/
theorem isoWeek1Monday_succ {year : ℕ} (h : 1 ≤ year) :
    isoWeek1Monday (year + 1) = isoWeek1Monday year + 364 ∨
      isoWeek1Monday (year + 1) = isoWeek1Monday year + 371 := by
  have hmod := isoWeek1Monday_mod year
  have hmod' := isoWeek1Monday_mod (year + 1)
  have hrange := isoWeek1Monday_range year
  have hrange' := isoWeek1Monday_range (year + 1)
  rw [daysBeforeYear_succ h, daysBeforeMonth_thirteen] at hrange'
  split_ifs at hrange' <;> omega

theorem isoWeek1Monday_mono {y z : ℕ} (hy : 1 ≤ y) (h : y ≤ z) :
    isoWeek1Monday y ≤ isoWeek1Monday z := by
  induction z, h using Nat.le_induction with
  | base => exact le_rfl
  | succ z hz ih =>
    rcases isoWeek1Monday_succ (hy.trans hz) with hnext | hnext <;> omega

theorem ordinal_range (d : Date) :
    daysBeforeYear d.year < d.ordinal ∧ d.ordinal ≤ daysBeforeYear (d.year + 1) := by
  obtain ⟨hm, hm'⟩ := d.month_range
  obtain ⟨hd, hd'⟩ := d.day_range
  have hrest : daysBeforeMonth d.year d.month + daysInMonth d.year d.month ≤
      daysBeforeMonth d.year 13 := daysBeforeMonth_add_le hm (by omega)
  rw [daysBeforeYear_succ d.one_le_year]
  unfold ordinal
  omega

/-- The Monday of a week from the year and the number of the week. -/
theorem monday_isocalendar (d : Date) :
    1 ≤ d.isocalendar.1 ∧
      (d.monday.ordinal : ℤ) = isoWeek1Monday d.isocalendar.1 + 7 * (d.isocalendar.2.1 - 1) ∧
      1 ≤ d.isocalendar.2.1 ∧ (d.monday.ordinal : ℤ) < isoWeek1Monday (d.isocalendar.1 + 1) := by
  have hone := d.one_le_year
  obtain ⟨hfrom, hto⟩ := d.ordinal_range
  have hmonday : (d.monday.ordinal : ℤ) = d.ordinal - (d.ordinal + 6) % 7 := by
    have hpos := d.one_le_ordinal
    rw [ordinal_monday]
    omega
  have hmod := isoWeek1Monday_mod d.year
  have hsucc := isoWeek1Monday_succ hone
  simp only [isocalendar]
  split_ifs with hbefore hafter
  · -- days of January before the first week, which year 1 has not
    have hyear : 1 < d.year := by
      by_contra hle
      have hfirst : isoWeek1Monday d.year = 1 := by
        rw [show d.year = 1 by omega]
        rfl
      have hpos := d.one_le_ordinal
      omega
    obtain ⟨y, hy⟩ : ∃ y, d.year = y + 1 := ⟨d.year - 1, by omega⟩
    have hyone : 1 ≤ y := by omega
    have hlast := isoWeek1Monday_mod y
    have hrange := isoWeek1Monday_range (y + 1)
    have hweeks := isoWeek1Monday_succ hyone
    rw [hy] at hbefore hfrom
    rw [hy, Nat.add_sub_cancel]
    dsimp only
    omega
  · -- days of December in the first week of the next year
    have hrange := isoWeek1Monday_range (d.year + 1)
    have hnext := isoWeek1Monday_mod (d.year + 1)
    have hweeks := isoWeek1Monday_succ (Nat.le_add_left 1 d.year)
    dsimp only
    omega
  · dsimp only
    omega

/-- The year and the number of a week are its own. -/
theorem monday_eq_iff {d e : Date} : d.monday = e.monday ↔
    d.isocalendar.1 = e.isocalendar.1 ∧ d.isocalendar.2.1 = e.isocalendar.2.1 := by
  obtain ⟨hyear, hweek, hpos, hlt⟩ := d.monday_isocalendar
  obtain ⟨hyear', hweek', hpos', hlt'⟩ := e.monday_isocalendar
  constructor
  · intro h
    rw [← h] at hweek' hlt'
    have hyears : d.isocalendar.1 = e.isocalendar.1 := by
      rcases Nat.lt_trichotomy d.isocalendar.1 e.isocalendar.1 with hlater | heq | hearlier
      · have hnext := isoWeek1Monday_mono (Nat.le_add_left 1 _) hlater
        omega
      · exact heq
      · have hnext := isoWeek1Monday_mono (Nat.le_add_left 1 _) hearlier
        omega
    rw [hyears] at hweek
    exact ⟨hyears, by omega⟩
  · rintro ⟨hyears, hweeks⟩
    rw [hyears, hweeks] at hweek
    refine ordinal_injective ?_
    omega

end Date

/-! ## Times -/

/-- A time of a day, in microseconds since midnight. -/
structure Datetime where
  date : Date
  microsecond : ℕ
  deriving DecidableEq

namespace Datetime

theorem toLex_injective :
    Function.Injective fun t : Datetime => (toLex (t.date, t.microsecond) : Date ×ₗ ℕ) := by
  rintro ⟨d, n⟩ ⟨d', n'⟩ h
  simp only [EmbeddingLike.apply_eq_iff_eq, Prod.mk.injEq] at h
  obtain ⟨rfl, rfl⟩ := h
  rfl

instance : LinearOrder Datetime :=
  LinearOrder.lift' _ toLex_injective

theorem le_iff {t u : Datetime} :
    t ≤ u ↔ t.date < u.date ∨ t.date = u.date ∧ t.microsecond ≤ u.microsecond :=
  Prod.Lex.toLex_le_toLex

theorem date_le {t u : Datetime} (h : t ≤ u) : t.date ≤ u.date := by
  rcases le_iff.mp h with hlt | ⟨heq, -⟩
  · exact hlt.le
  · exact heq.le

/-- Midnight at the start of a day. -/
def midnight (d : Date) : Datetime :=
  ⟨d, 0⟩

theorem midnight_injective : Function.Injective midnight := fun _ _ h => congrArg date h

theorem midnight_le {d : Date} {t : Datetime} : midnight d ≤ t ↔ d ≤ t.date := by
  rw [le_iff, le_iff_lt_or_eq (a := d)]
  simp [midnight]

end Datetime

end MultiAgent
