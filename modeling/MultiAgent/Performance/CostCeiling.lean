import Mathlib.Algebra.Order.Field.Rat
import MultiAgent.Lib.Dict
import MultiAgent.Lib.Machine
import MultiAgent.Performance.CostWindow

/-!
# The cost ceiling manager

`CostCeilingManager` of `libs/performance/cost_ceiling_manager.py`. `record_cost` stores
the record, asks `get_current_spending` and then adds the amount to the cached spending.
If the key of the window is not cached yet, `get_current_spending` fills it with the sum
of the stored records, the new one among them. `wrote_recordCost` and
`wrote_getCurrentSpending` say all that a call changes.
-/

namespace MultiAgent

namespace CostCeilings

/-- `AlertLevel`. -/
inductive AlertLevel
  | info
  | warning
  | critical
  | emergency
  deriving DecidableEq

/-- `CostCeiling`. Amounts are exact. -/
structure CostCeiling where
  ceilingId : String
  ceilingType : CeilingType
  limitAmount : ℚ
  isActive : Bool := true
  alertThresholds : List (AlertLevel × ℚ) :=
    [(.warning, 8 / 10), (.critical, 95 / 100), (.emergency, 1)]

/-- `CostRecord`. -/
structure CostRecord where
  ceilingId : String
  amount : ℚ
  timestamp : Datetime

/-- `CostAlert`. -/
structure CostAlert where
  ceilingId : String
  alertLevel : AlertLevel
  currentSpending : ℚ
  limitAmount : ℚ
  usagePercentage : ℚ

/-- The tables of the database. -/
structure Database where
  costCeilings : Dict String CostCeiling := .empty
  costRecords : List CostRecord := []
  costAlerts : List CostAlert := []

/-- The dated amounts of a ceiling. -/
def Database.amounts (db : Database) (ceilingId : String) : List (Datetime × ℚ) :=
  (db.costRecords.filter fun r => r.ceilingId = ceilingId).map fun r => (r.timestamp, r.amount)

/-- `SELECT COALESCE(SUM(amount), 0)` over the records of a ceiling from `startTime` to
`endTime`. -/
def Database.totalSpending (db : Database) (ceilingId : String) (startTime endTime : Datetime) :
    ℚ :=
  total startTime endTime (db.amounts ceilingId)

/-- What a division of decimals raises. -/
inductive DecimalError
  | divisionByZero
  | invalidOperation
  deriving DecidableEq

/-- Division of decimals. -/
def decimalDiv (a b : ℚ) : Except DecimalError ℚ :=
  if b = 0 then if a = 0 then .error .invalidOperation else .error .divisionByZero
  else .ok (a / b)

/-- A call of `record_cost`, with what the clock reads in it : the time of the record, that
of the key and of the end of the window in `get_current_spending`, and that of its own key.
The third is not read when the key is cached. -/
structure RecordCost where
  ceilingId : String
  amount : ℚ
  timestamp : Datetime
  spendingTime : Datetime
  endTime : Datetime
  cacheTime : Datetime

/-- The record that a call stores. -/
def RecordCost.toRecord (call : RecordCost) : CostRecord :=
  ⟨call.ceilingId, call.amount, call.timestamp⟩

/-- The attributes of `CostCeilingManager`, and the database behind `db_session`. -/
structure CostCeilingManager where
  db : Database
  ceilingCache : Dict String CostCeiling := .empty
  spendingCache : Dict String ℚ := .empty

namespace CostCeilingManager

variable (m : CostCeilingManager)

/-- `get_cost_ceiling`. -/
def getCostCeiling (ceilingId : String) : CostCeilingManager × Option CostCeiling :=
  match m.ceilingCache.get? ceilingId with
  | some ceiling => (m, some ceiling)
  | none =>
    match (m.db.costCeilings.get? ceilingId).filter (·.isActive) with
    | none => (m, none)
    | some ceiling =>
      ({ m with ceilingCache := m.ceilingCache.set ceilingId ceiling }, some ceiling)

/-- `_store_cost_record`. -/
def storeCostRecord (r : CostRecord) : CostCeilingManager :=
  { m with db := { m.db with costRecords := m.db.costRecords ++ [r] } }

/-- `get_current_spending`. The clock reads `keyTime` for the key, and `now` when the end of
the window is not given. -/
def getCurrentSpending (ceilingId : String) (startTime endTime : Option Datetime)
    (keyTime now : Datetime) : CostCeilingManager × ℚ :=
  match m.getCostCeiling ceilingId with
  | (m, none) => (m, 0)
  | (m, some ceiling) =>
    let key := cacheKey ceilingId (windowKey ceiling.ceilingType keyTime)
    match m.spendingCache.get? key with
    | some spending => (m, spending)
    | none =>
      let endTime := endTime.getD now
      let startTime := startTime.getD (ceilingStartTime ceiling.ceilingType endTime)
      let totalSpending := m.db.totalSpending ceilingId startTime endTime
      ({ m with spendingCache := m.spendingCache.set key totalSpending }, totalSpending)

/-- `_check_ceiling_violations` : an alert for every threshold that is reached. -/
def checkCeilingViolations (ceiling : CostCeiling) (currentSpending : ℚ) :
    CostCeilingManager × Except DecimalError Unit :=
  match decimalDiv currentSpending ceiling.limitAmount with
  | .error e => (m, .error e)
  | .ok usagePercentage =>
    let reached := ceiling.alertThresholds.filter fun p => p.2 ≤ usagePercentage
    let alerts := reached.map fun p =>
      ⟨ceiling.ceilingId, p.1, currentSpending, ceiling.limitAmount, usagePercentage⟩
    ({ m with db := { m.db with costAlerts := m.db.costAlerts ++ alerts } }, .ok ())

/-- `record_cost`. -/
def recordCost (call : RecordCost) : CostCeilingManager × Except DecimalError Bool :=
  match m.getCostCeiling call.ceilingId with
  | (m, none) => (m, .ok false)
  | (m, some ceiling) =>
    let m := m.storeCostRecord call.toRecord
    let (m, currentSpending) :=
      m.getCurrentSpending call.ceilingId none none call.spendingTime call.endTime
    let key := cacheKey call.ceilingId (windowKey ceiling.ceilingType call.cacheTime)
    let cached := m.spendingCache.getD key 0
    let m := { m with spendingCache := m.spendingCache.set key (cached + call.amount) }
    let (m, checked) := m.checkCeilingViolations ceiling currentSpending
    (m, checked.map fun _ => decide (currentSpending < ceiling.limitAmount))

/-! ## What the operations change -/

/-- The ceiling that `get_cost_ceiling` finds. -/
def ceilingOf (ceilingId : String) : Option CostCeiling :=
  (m.getCostCeiling ceilingId).2

/-- The cached spending of a ceiling. -/
def spending (ceilingId : String) : WindowKey → Option ℚ := fun key =>
  m.spendingCache.get? (cacheKey ceilingId key)

variable {m} {ceilingId : String} {ceiling : CostCeiling}

/-- Only the cache and the table of the ceilings matter. -/
theorem ceilingOf_congr {m' : CostCeilingManager} (hcache : m.ceilingCache = m'.ceilingCache)
    (hdb : m.db.costCeilings = m'.db.costCeilings) (id : String) :
    m.ceilingOf id = m'.ceilingOf id := by
  unfold ceilingOf getCostCeiling
  rw [hcache, hdb]
  split
  · rfl
  · split <;> rfl

theorem getCostCeiling_of_none (h : m.ceilingOf ceilingId = none) :
    m.getCostCeiling ceilingId = (m, none) := by
  unfold ceilingOf at h
  unfold getCostCeiling at h ⊢
  split at h
  · cases h
  · split at h
    · rfl
    · cases h

theorem getCostCeiling_of_get? (h : m.ceilingCache.get? ceilingId = some ceiling) :
    m.getCostCeiling ceilingId = (m, some ceiling) := by
  unfold getCostCeiling
  rw [h]

/-- A ceiling that is found is in the cache afterwards, and the others are found as before. -/
theorem getCostCeiling_of_some (h : m.ceilingOf ceilingId = some ceiling) :
    ∃ cache : Dict String CostCeiling, cache.get? ceilingId = some ceiling ∧
      m.getCostCeiling ceilingId = ({ m with ceilingCache := cache }, some ceiling) ∧
      ∀ id, ceilingOf { m with ceilingCache := cache } id = m.ceilingOf id := by
  cases hcache : m.ceilingCache.get? ceilingId with
  | some ceiling' =>
    have hfound := getCostCeiling_of_get? hcache
    unfold ceilingOf at h
    rw [hfound] at h
    obtain rfl := Option.some.inj h
    exact ⟨m.ceilingCache, hcache, hfound, fun _ => rfl⟩
  | none =>
    have hrow : (m.db.costCeilings.get? ceilingId).filter (·.isActive) = some ceiling := by
      unfold ceilingOf getCostCeiling at h
      simp only [hcache] at h
      cases hrow : (m.db.costCeilings.get? ceilingId).filter (·.isActive) with
      | none => simp [hrow] at h
      | some row => simpa [hrow] using h
    refine ⟨m.ceilingCache.set ceilingId ceiling, Dict.get?_set_self .., ?_, fun id => ?_⟩
    · unfold getCostCeiling
      simp only [hcache, hrow]
    · by_cases hid : id = ceilingId
      · subst hid
        rw [ceilingOf, getCostCeiling_of_get? (Dict.get?_set_self ..), h]
      · simp only [ceilingOf, getCostCeiling, Dict.get?_set_ne _ _ hid]
        split
        · rfl
        · split <;> rfl

theorem spending_set (id : String) (key : WindowKey) (v : ℚ) :
    spending { m with spendingCache := m.spendingCache.set (cacheKey ceilingId key) v } id =
      if id = ceilingId then Function.update (m.spending id) key (some v) else m.spending id := by
  funext key'
  simp only [spending, Dict.get?_set, cacheKey_inj]
  split_ifs with hboth hid hid
  · rw [hboth.2, Function.update_self]
  · exact absurd hboth.1 hid
  · rw [Function.update_of_ne fun hkey => hboth ⟨hid, hkey⟩]
    rfl
  · rfl

/-- What `get_current_spending` answers under a key : the cached spending, or the sum of the
records from the start of the window of `now`. -/
def answer (ceilingId : String) (ceilingType : CeilingType) (key : WindowKey) (now : Datetime) :
    ℚ :=
  (m.spending ceilingId key).getD
    (m.db.totalSpending ceilingId (ceilingStartTime ceilingType now) now)

/-- What changed when `r` was appended to the records and the spending under one key of a
ceiling was set. -/
structure Wrote (m m' : CostCeilingManager) (rs : List CostRecord) (ceilingId : String)
    (key : WindowKey) (v : ℚ) : Prop where
  records : m'.db.costRecords = m.db.costRecords ++ rs
  ceilings : ∀ id, m'.ceilingOf id = m.ceilingOf id
  spending : ∀ id, m'.spending id =
    if id = ceilingId then Function.update (m.spending id) key (some v) else m.spending id

/-- The answer is in the cache afterwards. -/
theorem getCurrentSpending_of_get? (hceiling : m.ceilingCache.get? ceilingId = some ceiling)
    (keyTime now : Datetime) :
    ∃ cache : Dict String ℚ,
      m.getCurrentSpending ceilingId none none keyTime now =
        ({ m with spendingCache := cache }, m.answer ceilingId ceiling.ceilingType
          (windowKey ceiling.ceilingType keyTime) now) ∧
      ∀ id, spending { m with spendingCache := cache } id =
        if id = ceilingId then Function.update (m.spending id)
          (windowKey ceiling.ceilingType keyTime) (some (m.answer ceilingId ceiling.ceilingType
            (windowKey ceiling.ceilingType keyTime) now))
        else m.spending id := by
  have hfound := getCostCeiling_of_get? hceiling
  cases hv : m.spendingCache.get? (cacheKey ceilingId (windowKey ceiling.ceilingType keyTime)) with
  | some v =>
    have hanswer : m.answer ceilingId ceiling.ceilingType
        (windowKey ceiling.ceilingType keyTime) now = v := by
      rw [answer, spending, hv, Option.getD_some]
    refine ⟨m.spendingCache, ?_, fun id => ?_⟩
    · simp only [getCurrentSpending, hfound, hv, hanswer]
    · rw [hanswer]
      split_ifs with hid
      · subst hid
        rw [← hv]
        exact (Function.update_eq_self _ _).symm
      · rfl
  | none =>
    have hanswer : m.answer ceilingId ceiling.ceilingType
        (windowKey ceiling.ceilingType keyTime) now =
        m.db.totalSpending ceilingId (ceilingStartTime ceiling.ceilingType now) now := by
      rw [answer, spending, hv, Option.getD_none]
    refine ⟨m.spendingCache.set _ _, ?_, fun id => spending_set id _ _⟩
    simp only [getCurrentSpending, hfound, hv, hanswer, Option.getD_none]

theorem getCurrentSpending_of_none (h : m.ceilingOf ceilingId = none) (keyTime now : Datetime) :
    (m.getCurrentSpending ceilingId none none keyTime now).1 = m := by
  simp only [getCurrentSpending, getCostCeiling_of_none h]

theorem wrote_getCurrentSpending (h : m.ceilingOf ceilingId = some ceiling)
    (keyTime now : Datetime) :
    Wrote m (m.getCurrentSpending ceilingId none none keyTime now).1 [] ceilingId
      (windowKey ceiling.ceilingType keyTime)
      (m.answer ceilingId ceiling.ceilingType (windowKey ceiling.ceilingType keyTime) now) := by
  obtain ⟨ceilings, hceiling, hget, hothers⟩ := getCostCeiling_of_some h
  have hfound : m.getCurrentSpending ceilingId none none keyTime now =
      getCurrentSpending { m with ceilingCache := ceilings } ceilingId none none keyTime now := by
    simp only [getCurrentSpending, hget, getCostCeiling_of_get? (m := { m with
      ceilingCache := ceilings }) hceiling]
  obtain ⟨cache, hspent, hspending⟩ := getCurrentSpending_of_get? (m := { m with
    ceilingCache := ceilings }) hceiling keyTime now
  rw [hfound, hspent]
  refine ⟨(List.append_nil _).symm, fun id => ?_, hspending⟩
  rw [← hothers id]
  refine ceilingOf_congr ?_ ?_ id <;> rfl

theorem recordCost_of_none {call : RecordCost} (h : m.ceilingOf call.ceilingId = none) :
    (m.recordCost call).1 = m := by
  simp only [recordCost, getCostCeiling_of_none h]

theorem checkCeilingViolations_fst (m : CostCeilingManager) (ceiling : CostCeiling)
    (currentSpending : ℚ) : ∃ alerts, (m.checkCeilingViolations ceiling currentSpending).1 =
      { m with db := { m.db with costAlerts := alerts } } := by
  unfold checkCeilingViolations
  split
  · exact ⟨_, rfl⟩
  · exact ⟨_, rfl⟩

/-- The amount is added to the answer that `get_current_spending` gives with the record
stored. -/
theorem wrote_recordCost {call : RecordCost} (h : m.ceilingOf call.ceilingId = some ceiling)
    (hkey : windowKey ceiling.ceilingType call.spendingTime =
      windowKey ceiling.ceilingType call.cacheTime) :
    Wrote m (m.recordCost call).1 [call.toRecord] call.ceilingId
      (windowKey ceiling.ceilingType call.cacheTime)
      ((m.storeCostRecord call.toRecord).answer call.ceilingId ceiling.ceilingType
        (windowKey ceiling.ceilingType call.cacheTime) call.endTime + call.amount) := by
  obtain ⟨ceilings, hceiling, hget, hothers⟩ := getCostCeiling_of_some h
  obtain ⟨cache, hspent, hspending⟩ := getCurrentSpending_of_get?
    (m := storeCostRecord { m with ceilingCache := ceilings } call.toRecord) hceiling
    call.spendingTime call.endTime
  rw [hkey] at hspent hspending
  -- the answer is cached under the key to which the amount is added
  have hcached := congrFun (hspending call.ceilingId)
    (windowKey ceiling.ceilingType call.cacheTime)
  rw [if_pos rfl, Function.update_self, spending] at hcached
  unfold recordCost
  simp only [hget, hspent]
  obtain ⟨alerts, halerts⟩ := checkCeilingViolations_fst _ ceiling _
  rw [halerts]
  refine ⟨rfl, fun id => ?_, fun id => ?_⟩
  · rw [← hothers id]
    refine ceilingOf_congr ?_ ?_ id <;> rfl
  · rw [Dict.getD_of_get? hcached]
    refine (spending_set (m := { m with spendingCache := cache }) id _ _).trans ?_
    have hid : spending { m with spendingCache := cache } id = _ := hspending id
    rw [hid]
    split_ifs
    · exact Function.update_idem _ _ _
    · rfl

end CostCeilingManager

end CostCeilings

end MultiAgent
