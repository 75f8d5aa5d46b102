import Mathlib.Tactic.Linarith
import MultiAgent.Performance.CostSpending

/-!
# Queries of the spending

Histories of `record_cost` and `get_current_spending` calls, the latter with any bounds. What a
call answers and what it leaves behind depends on the ceilings that are found, the records and the
cached spending (`CostView`, `view_getCurrentSpending`, `view_recordCost`), and not on which
ceilings are cached.

`get_current_spending` looks for the key of the current window before it reads its bounds. If the
key is cached, a query for an interval gets the spending of the window, and if it is not, the
query caches the sum of its interval as the spending of the window, which some later default query
finds (`distinguishes`). So a query is right and harmless exactly if the key is cached with the sum
that it asks for (`queryExact_iff`).
-/

namespace MultiAgent

namespace CostCeilings

/-- A call of the manager. -/
inductive SpendingCall
  | record (call : RecordCost)
  | query (ceilingId : String) (startTime endTime : Option Datetime) (keyTime now : Datetime)

/-- What the clock reads in a call. -/
def SpendingCall.readings : SpendingCall → List Datetime
  | record call => [call.timestamp, call.spendingTime, call.endTime, call.cacheTime]
  | query _ _ _ keyTime now => [keyTime, now]

/-- The clock does not go back from `t` on. -/
def ClockFrom (t : Datetime) (calls : List SpendingCall) : Prop :=
  (t :: calls.flatMap SpendingCall.readings).Pairwise (· ≤ ·)

/-- The ceilings that the manager finds, the records and the cached spending. -/
structure CostView where
  ceilings : String → Option CostCeiling
  records : List CostRecord
  cache : Dict String ℚ

namespace CostView

variable (v : CostView)

/-- The sum of the records of a ceiling in an interval. -/
def sum (ceilingId : String) (startTime endTime : Datetime) : ℚ :=
  Database.totalSpending { costRecords := v.records } ceilingId startTime endTime

/-- `get_current_spending`. -/
def query (ceilingId : String) (startTime endTime : Option Datetime) (keyTime now : Datetime) :
    CostView × ℚ :=
  match v.ceilings ceilingId with
  | none => (v, 0)
  | some ceiling =>
    let key := cacheKey ceilingId (windowKey ceiling.ceilingType keyTime)
    match v.cache.get? key with
    | some spending => (v, spending)
    | none =>
      let endTime := endTime.getD now
      let startTime := startTime.getD (ceilingStartTime ceiling.ceilingType endTime)
      ({ v with cache := v.cache.set key (v.sum ceilingId startTime endTime) },
        v.sum ceilingId startTime endTime)

/-- `_store_cost_record`. -/
def storeCostRecord (r : CostRecord) : CostView :=
  { v with records := v.records ++ [r] }

/-- `record_cost`. -/
def record (call : RecordCost) : CostView :=
  match v.ceilings call.ceilingId with
  | none => v
  | some ceiling =>
    let v := v.storeCostRecord call.toRecord
    let v := (v.query call.ceilingId none none call.spendingTime call.endTime).1
    let key := cacheKey call.ceilingId (windowKey ceiling.ceilingType call.cacheTime)
    { v with cache := v.cache.set key (v.cache.getD key 0 + call.amount) }

/-- One call. -/
def next : SpendingCall → CostView
  | .record call => v.record call
  | .query ceilingId startTime endTime keyTime now =>
    (v.query ceilingId startTime endTime keyTime now).1

end CostView

namespace CostCeilingManager

variable (m : CostCeilingManager)

/-- One call. -/
def next : SpendingCall → CostCeilingManager
  | .record call => (m.recordCost call).1
  | .query ceilingId startTime endTime keyTime now =>
    (m.getCurrentSpending ceilingId startTime endTime keyTime now).1

/-- The manager after calls. -/
def after (calls : List SpendingCall) : CostCeilingManager :=
  calls.foldl next m

/-- A new manager for these ceilings. -/
def new (costCeilings : Dict String CostCeiling) : CostCeilingManager where
  db := { costCeilings }

/-- What calls depend on. -/
def view : CostView where
  ceilings := m.ceilingOf
  records := m.db.costRecords
  cache := m.spendingCache

/-- A default query. -/
def currentSpending (ceilingId : String) (keyTime now : Datetime) : ℚ :=
  (m.getCurrentSpending ceilingId none none keyTime now).2

/-- The query for the interval from `startTime` to `endTime` is answered with its sum, and no later
default query is answered otherwise than without it. -/
structure QueryExact (ceilingId : String) (startTime endTime keyTime : Datetime) : Prop where
  sum : (m.getCurrentSpending ceilingId (some startTime) (some endTime) keyTime keyTime).2 =
    m.db.totalSpending ceilingId startTime endTime
  harmless : ∀ later id keyTime' now',
    ClockFrom keyTime (later ++ [.query id none none keyTime' now']) →
      ((m.next (.query ceilingId (some startTime) (some endTime) keyTime keyTime)).after
          later).currentSpending id keyTime' now' =
        (m.after later).currentSpending id keyTime' now'

/-! ## Calls and views -/

variable {m} {ceilingId : String}

theorem view_eq {m' : CostCeilingManager} (h : ∀ id, m'.ceilingOf id = m.ceilingOf id) :
    m'.view = { m.view with records := m'.db.costRecords, cache := m'.spendingCache } := by
  have hceilings : m'.ceilingOf = m.ceilingOf := funext h
  unfold view
  rw [hceilings]

/-- Caching a ceiling does not change what is found. -/
theorem ceilingOf_caching {ceilings : Dict String CostCeiling}
    (h : ∀ id, ceilingOf { m with ceilingCache := ceilings } id = m.ceilingOf id)
    {m' : CostCeilingManager} (hcache : m'.ceilingCache = ceilings)
    (hdb : m'.db.costCeilings = m.db.costCeilings) (id : String) :
    m'.ceilingOf id = m.ceilingOf id := by
  rw [← h id]
  refine ceilingOf_congr ?_ ?_ id
  · exact hcache
  · exact hdb

theorem view_getCurrentSpending (m : CostCeilingManager) (ceilingId : String)
    (startTime endTime : Option Datetime) (keyTime now : Datetime) :
    ((m.getCurrentSpending ceilingId startTime endTime keyTime now).1.view,
      (m.getCurrentSpending ceilingId startTime endTime keyTime now).2) =
        m.view.query ceilingId startTime endTime keyTime now := by
  unfold CostView.query
  cases hceiling : m.ceilingOf ceilingId with
  | none =>
    have hfound : m.view.ceilings ceilingId = none := hceiling
    simp only [getCurrentSpending, getCostCeiling_of_none hceiling, hfound]
  | some ceiling =>
    obtain ⟨ceilings, -, hget, hothers⟩ := getCostCeiling_of_some hceiling
    have hfound : m.view.ceilings ceilingId = some ceiling := hceiling
    have hcache : m.view.cache = m.spendingCache := rfl
    unfold getCurrentSpending
    rw [hget, hfound]
    dsimp only
    rw [hcache]
    cases m.spendingCache.get? (cacheKey ceilingId (windowKey ceiling.ceilingType keyTime)) with
    | some spending => exact Prod.ext (view_eq (ceilingOf_caching hothers rfl rfl)) rfl
    | none => exact Prod.ext (view_eq (ceilingOf_caching hothers rfl rfl)) rfl

theorem view_recordCost (m : CostCeilingManager) (call : RecordCost) :
    (m.recordCost call).1.view = m.view.record call := by
  unfold CostView.record
  cases hceiling : m.ceilingOf call.ceilingId with
  | none =>
    have hfound : m.view.ceilings call.ceilingId = none := hceiling
    rw [recordCost_of_none hceiling, hfound]
  | some ceiling =>
    obtain ⟨ceilings, -, hget, hothers⟩ := getCostCeiling_of_some hceiling
    have hfound : m.view.ceilings call.ceilingId = some ceiling := hceiling
    have hstored : (storeCostRecord { m with ceilingCache := ceilings } call.toRecord).view =
        m.view.storeCostRecord call.toRecord :=
      view_eq (ceilingOf_caching hothers rfl rfl)
    have hquery := view_getCurrentSpending
      (storeCostRecord { m with ceilingCache := ceilings } call.toRecord) call.ceilingId none none
      call.spendingTime call.endTime
    rw [hstored] at hquery
    unfold recordCost
    rw [hget, hfound]
    dsimp only
    rw [← hquery]
    obtain ⟨alerts, halerts⟩ := checkCeilingViolations_fst _ ceiling _
    rw [halerts]
    refine view_eq fun id => ?_
    refine ceilingOf_congr ?_ ?_ id <;> rfl

theorem view_next (m : CostCeilingManager) (call : SpendingCall) :
    (m.next call).view = m.view.next call := by
  cases call with
  | record call => exact m.view_recordCost call
  | query ceilingId startTime endTime keyTime now =>
    exact congrArg Prod.fst (m.view_getCurrentSpending ceilingId startTime endTime keyTime now)

theorem view_after (m : CostCeilingManager) (calls : List SpendingCall) :
    (m.after calls).view = calls.foldl CostView.next m.view := by
  unfold after
  induction calls generalizing m with
  | nil => rfl
  | cons call calls ih => rw [List.foldl_cons, List.foldl_cons, ih, view_next]

theorem currentSpending_eq (m : CostCeilingManager) (ceilingId : String)
    (keyTime now : Datetime) :
    m.currentSpending ceilingId keyTime now =
      (m.view.query ceilingId none none keyTime now).2 :=
  congrArg Prod.snd (m.view_getCurrentSpending ceilingId none none keyTime now)

end CostCeilingManager

/-! ## A query -/

namespace CostView

variable {v : CostView} {ceilingId : String} {ceiling : CostCeiling} {spending amount : ℚ}
  {keyTime u : Datetime}

theorem query_of_cached (hceiling : v.ceilings ceilingId = some ceiling)
    (h : v.cache.get? (cacheKey ceilingId (windowKey ceiling.ceilingType keyTime)) =
      some spending) (startTime endTime : Option Datetime) (now : Datetime) :
    v.query ceilingId startTime endTime keyTime now = (v, spending) := by
  unfold query
  simp only [hceiling, h]

theorem query_of_missed (hceiling : v.ceilings ceilingId = some ceiling)
    (h : v.cache.get? (cacheKey ceilingId (windowKey ceiling.ceilingType keyTime)) = none)
    (startTime endTime : Option Datetime) (now : Datetime) :
    v.query ceilingId startTime endTime keyTime now =
      let sum := v.sum ceilingId (startTime.getD (ceilingStartTime ceiling.ceilingType
        (endTime.getD now))) (endTime.getD now)
      ({ v with
          cache := v.cache.set (cacheKey ceilingId (windowKey ceiling.ceilingType keyTime)) sum },
        sum) := by
  unfold query
  simp only [hceiling, h]

/-- A query leaves the ceilings and the records as they are. -/
theorem query_frame (v : CostView) (ceilingId : String) (startTime endTime : Option Datetime)
    (keyTime now : Datetime) :
    (v.query ceilingId startTime endTime keyTime now).1.ceilings = v.ceilings ∧
      (v.query ceilingId startTime endTime keyTime now).1.records = v.records := by
  unfold query
  cases v.ceilings ceilingId with
  | none => exact ⟨rfl, rfl⟩
  | some ceiling =>
    dsimp only
    cases v.cache.get? (cacheKey ceilingId (windowKey ceiling.ceilingType keyTime)) with
    | none => exact ⟨rfl, rfl⟩
    | some spending => exact ⟨rfl, rfl⟩

/-- The answer of a query is in the cache afterwards. -/
theorem get?_query (hceiling : v.ceilings ceilingId = some ceiling)
    (startTime endTime : Option Datetime) (keyTime now : Datetime) :
    (v.query ceilingId startTime endTime keyTime now).1.cache.get?
        (cacheKey ceilingId (windowKey ceiling.ceilingType keyTime)) =
      some (v.query ceilingId startTime endTime keyTime now).2 := by
  cases hv : v.cache.get? (cacheKey ceilingId (windowKey ceiling.ceilingType keyTime)) with
  | none =>
    rw [query_of_missed hceiling hv]
    exact Dict.get?_set_self ..
  | some spending =>
    rw [query_of_cached hceiling hv]
    exact hv

/-! ## Records -/

/-- Every record is of a ceiling that is found. -/
def Recorded (v : CostView) : Prop :=
  ∀ r ∈ v.records, v.ceilings r.ceilingId ≠ none

theorem Recorded.next (h : v.Recorded) (call : SpendingCall) : (v.next call).Recorded := by
  cases call with
  | query ceilingId startTime endTime keyTime now =>
    obtain ⟨hceilings, hrecords⟩ := v.query_frame ceilingId startTime endTime keyTime now
    unfold Recorded CostView.next
    dsimp only
    rw [hceilings, hrecords]
    exact h
  | record call =>
    unfold Recorded CostView.next record
    dsimp only
    cases hceiling : v.ceilings call.ceilingId with
    | none => exact h
    | some ceiling =>
      obtain ⟨hceilings, hrecords⟩ := (v.storeCostRecord call.toRecord).query_frame
        call.ceilingId none none call.spendingTime call.endTime
      dsimp only
      rw [hceilings, hrecords]
      intro r hr
      rcases List.mem_append.mp hr with hold | hnew
      · exact h r hold
      · rw [List.mem_singleton.mp hnew]
        exact fun hnone => by cases hceiling.symm.trans hnone

theorem Recorded.sum_eq_zero (h : v.Recorded) (hnone : v.ceilings ceilingId = none)
    (s t : Datetime) : v.sum ceilingId s t = 0 := by
  have hnil : (v.records.filter fun r => r.ceilingId = ceilingId) = [] := by
    rw [List.filter_eq_nil_iff]
    intro r hr hid
    exact h r hr (of_decide_eq_true hid ▸ hnone)
  unfold sum Database.totalSpending Database.amounts
  rw [hnil]
  rfl

/-- A cost of the interval is added to its sum. -/
theorem sum_storeCostRecord {r : CostRecord} {s t : Datetime} (hs : s ≤ r.timestamp)
    (ht : r.timestamp ≤ t) :
    (v.storeCostRecord r).sum r.ceilingId s t = v.sum r.ceilingId s t + r.amount := by
  have hamounts : Database.amounts { costRecords := v.records ++ [r] } r.ceilingId =
      Database.amounts { costRecords := v.records } r.ceilingId ++
        Database.amounts { costRecords := [r] } r.ceilingId := CostRun.amounts_append rfl _
  unfold sum Database.totalSpending
  rw [storeCostRecord, hamounts, total_append]
  congr 1
  simp [Database.amounts, total_singleton hs ht]

/-! ## A cost after a query -/

/-- A cost that is recorded at time `u`. -/
def probe (ceilingId : String) (amount : ℚ) (u : Datetime) : RecordCost :=
  ⟨ceilingId, amount, u, u, u, u⟩

theorem record_of_some (call : RecordCost) (h : v.ceilings call.ceilingId = some ceiling) :
    v.record call =
      let q := (v.storeCostRecord call.toRecord).query call.ceilingId none none call.spendingTime
        call.endTime
      let key := cacheKey call.ceilingId (windowKey ceiling.ceilingType call.cacheTime)
      { q.1 with cache := q.1.cache.set key (q.1.cache.getD key 0 + call.amount) } := by
  unfold record
  simp only [h]

/-- What is asked for after a cost was recorded has the cost added to what `record_cost` was
answered. -/
theorem query_record (hceiling : v.ceilings ceilingId = some ceiling) :
    ((v.record (probe ceilingId amount u)).query ceilingId none none u u).2 =
      ((v.storeCostRecord (probe ceilingId amount u).toRecord).query ceilingId none none u u).2 +
        amount := by
  have hcached := get?_query (v := v.storeCostRecord (probe ceilingId amount u).toRecord) hceiling
    none none u u
  have hframe := (v.storeCostRecord (probe ceilingId amount u).toRecord).query_frame ceilingId
    none none u u
  have hrecord := record_of_some (v := v) (probe ceilingId amount u) hceiling
  simp only [probe] at hcached hframe hrecord ⊢
  rw [hrecord]
  generalize (v.storeCostRecord (RecordCost.toRecord ⟨ceilingId, amount, u, u, u, u⟩)).query
    ceilingId none none u u = w at *
  have hfound : w.1.ceilings ceilingId = some ceiling := hframe.1 ▸ hceiling
  rw [Dict.getD_of_get? hcached]
  have hquery := query_of_cached (v := { w.1 with
    cache := w.1.cache.set (cacheKey ceilingId (windowKey ceiling.ceilingType u))
      (w.2 + amount) }) hfound (Dict.get?_set_self ..) none none u
  exact congrArg Prod.snd hquery

/-- The cost is added to what is cached. -/
theorem probe_cached (amount : ℚ) (hceiling : v.ceilings ceilingId = some ceiling)
    (h : v.cache.get? (cacheKey ceilingId (windowKey ceiling.ceilingType u)) = some spending) :
    ((v.record (probe ceilingId amount u)).query ceilingId none none u u).2 =
      spending + amount := by
  have hstored : (v.storeCostRecord (probe ceilingId amount u).toRecord).query ceilingId none none
      u u = (v.storeCostRecord (probe ceilingId amount u).toRecord, spending) :=
    query_of_cached (v := v.storeCostRecord (probe ceilingId amount u).toRecord) hceiling h none
      none u
  rw [query_record hceiling, hstored]

/-- Without a cached spending it is summed, and added once more. -/
theorem probe_missed (amount : ℚ) (hceiling : v.ceilings ceilingId = some ceiling)
    (h : v.cache.get? (cacheKey ceilingId (windowKey ceiling.ceilingType u)) = none)
    (hstart : ceilingStartTime ceiling.ceilingType u ≤ u) :
    ((v.record (probe ceilingId amount u)).query ceilingId none none u u).2 =
      v.sum ceilingId (ceilingStartTime ceiling.ceilingType u) u + amount + amount := by
  have hsum : (v.storeCostRecord (probe ceilingId amount u).toRecord).sum ceilingId
      (ceilingStartTime ceiling.ceilingType u) u =
        v.sum ceilingId (ceilingStartTime ceiling.ceilingType u) u + amount :=
    sum_storeCostRecord (r := (probe ceilingId amount u).toRecord) hstart le_rfl
  have hstored := congrArg Prod.snd (query_of_missed
    (v := v.storeCostRecord (probe ceilingId amount u).toRecord) hceiling h none none u)
  rw [query_record hceiling, hstored]
  exact congrArg (· + amount) hsum

end CostView

/-! ## Exact queries -/

/-- A moment of the window, or of the ceiling without one, that is not before its start. -/
theorem exists_started (ceilingType : CeilingType) (t : Datetime) :
    ∃ u, t ≤ u ∧ windowKey ceilingType u = windowKey ceilingType t ∧
      ceilingStartTime ceilingType u ≤ u := by
  by_cases h : ceilingType.unlimited
  · refine ⟨max t (ceilingStartTime ceilingType t), le_max_left _ _, ?_, ?_⟩
    · rcases h with rfl | rfl <;> rfl
    · have hstart : ∀ u, ceilingStartTime ceilingType u = ceilingStartTime ceilingType t := by
        rcases h with rfl | rfl <;> exact fun _ => rfl
      rw [hstart]
      exact le_max_right _ _
  · exact ⟨t, le_rfl, rfl, ceilingStartTime_le h t⟩

namespace CostCeilingManager

variable {m : CostCeilingManager} {ceilingId : String} {ceiling : CostCeiling}
  {startTime endTime keyTime : Datetime}

/-- A query that finds no cached spending is found out by the next cost. -/
theorem distinguishes (hceiling : m.ceilingOf ceilingId = some ceiling)
    (h : m.spending ceilingId (windowKey ceiling.ceilingType keyTime) = none) :
    ¬m.QueryExact ceilingId startTime endTime keyTime := by
  intro hexact
  obtain ⟨u, hle, hkey, hstart⟩ := exists_started ceiling.ceilingType keyTime
  have hmissed : m.view.cache.get? (cacheKey ceilingId (windowKey ceiling.ceilingType u)) =
      none := by
    rw [hkey]
    exact h
  have hfound : m.view.ceilings ceilingId = some ceiling := hceiling
  have hprobe : ∀ amount, m.view.sum ceilingId startTime endTime + amount =
      m.view.sum ceilingId (ceilingStartTime ceiling.ceilingType u) u + amount + amount := by
    intro amount
    have hclock : ClockFrom keyTime ([.record (CostView.probe ceilingId amount u)] ++
        [.query ceilingId none none u u]) := by
      simp [ClockFrom, SpendingCall.readings, CostView.probe, hle]
    have hlater := hexact.harmless _ _ _ _ hclock
    have hqueried : m.view.query ceilingId (some startTime) (some endTime) keyTime keyTime =
        ({ m.view with
            cache := m.view.cache.set (cacheKey ceilingId (windowKey ceiling.ceilingType u))
              (m.view.sum ceilingId startTime endTime) },
          m.view.sum ceilingId startTime endTime) := by
      rw [hkey] at hmissed ⊢
      exact CostView.query_of_missed hfound hmissed (some startTime) (some endTime) keyTime
    have hcached := CostView.probe_cached (v := { m.view with
      cache := m.view.cache.set (cacheKey ceilingId (windowKey ceiling.ceilingType u))
        (m.view.sum ceilingId startTime endTime) }) (u := u) amount hfound (Dict.get?_set_self ..)
    simp only [currentSpending_eq, view_after, view_next, List.foldl_cons, List.foldl_nil,
      CostView.next, hqueried] at hlater
    rw [CostView.probe_missed amount hfound hmissed hstart] at hlater
    exact hcached.symm.trans hlater
  have hone := hprobe 1
  have htwo := hprobe 2
  linarith

/-- A query that is answered with its sum, and changes nothing. -/
theorem queryExact_of_query
    (h : m.view.query ceilingId (some startTime) (some endTime) keyTime keyTime =
      (m.view, m.db.totalSpending ceilingId startTime endTime)) :
    m.QueryExact ceilingId startTime endTime keyTime where
  sum := by
    have hanswer := congrArg Prod.snd (m.view_getCurrentSpending ceilingId (some startTime)
      (some endTime) keyTime keyTime)
    rw [h] at hanswer
    exact hanswer
  harmless later id keyTime' now' _ := by
    have hview : (m.next (.query ceilingId (some startTime) (some endTime) keyTime keyTime)).view =
        m.view := by
      rw [view_next, CostView.next, h]
    rw [currentSpending_eq, currentSpending_eq, view_after, view_after, hview]

/-- A query that finds its sum cached is answered with it, and changes nothing. -/
theorem queryExact_of_cached (hceiling : m.ceilingOf ceilingId = some ceiling)
    (h : m.spending ceilingId (windowKey ceiling.ceilingType keyTime) =
      some (m.db.totalSpending ceilingId startTime endTime)) :
    m.QueryExact ceilingId startTime endTime keyTime := by
  have hquery : m.view.query ceilingId (some startTime) (some endTime) keyTime keyTime =
      (m.view, m.db.totalSpending ceilingId startTime endTime) :=
    CostView.query_of_cached (v := m.view) hceiling h (some startTime) (some endTime) keyTime
  exact queryExact_of_query hquery

end CostCeilingManager

open CostCeilingManager

theorem recorded_after (costCeilings : Dict String CostCeiling) (history : List SpendingCall) :
    ((new costCeilings).after history).view.Recorded := by
  rw [view_after]
  have hnew : (new costCeilings).view.Recorded := fun r hr => absurd hr List.not_mem_nil
  revert hnew
  generalize (new costCeilings).view = v
  induction history generalizing v with
  | nil => exact fun hv => hv
  | cons call history ih => exact fun hv => ih _ (hv.next call)

/-- After any history a query for an interval is right and harmless exactly if the ceiling is not
found, or the key of the current window is cached with the sum of the interval. -/
theorem queryExact_iff (costCeilings : Dict String CostCeiling) (history : List SpendingCall)
    (ceilingId : String) (startTime endTime keyTime : Datetime) :
    ((new costCeilings).after history).QueryExact ceilingId startTime endTime keyTime ↔
      ∀ ceiling, ((new costCeilings).after history).ceilingOf ceilingId = some ceiling →
        ((new costCeilings).after history).spending ceilingId
            (windowKey ceiling.ceilingType keyTime) =
          some (((new costCeilings).after history).db.totalSpending ceilingId startTime
            endTime) := by
  have hrecorded := recorded_after costCeilings history
  generalize (new costCeilings).after history = m at *
  cases hceiling : m.ceilingOf ceilingId with
  | none =>
    refine iff_of_true (queryExact_of_query ?_) (by simp)
    have hsum : m.db.totalSpending ceilingId startTime endTime = 0 :=
      hrecorded.sum_eq_zero hceiling startTime endTime
    have hfound : m.view.ceilings ceilingId = none := hceiling
    rw [hsum, CostView.query, hfound]
  | some ceiling =>
    cases hv : m.spending ceilingId (windowKey ceiling.ceilingType keyTime) with
    | none =>
      refine iff_of_false (distinguishes hceiling hv) fun h => ?_
      cases hv.symm.trans (h ceiling rfl)
    | some spending =>
      constructor
      · intro hexact c hc
        obtain rfl := Option.some.inj hc
        have hquery := congrArg Prod.snd (m.view_getCurrentSpending ceilingId (some startTime)
          (some endTime) keyTime keyTime)
        have hcached := CostView.query_of_cached (v := m.view) hceiling hv (some startTime)
          (some endTime) keyTime
        rw [hcached] at hquery
        rw [hv, ← hexact.sum]
        exact congrArg some hquery.symm
      · intro h
        exact queryExact_of_cached hceiling (h ceiling rfl)

/-- After the first cost of 15 March 2025 a query for midnight is answered with twice the cost. -/
theorem not_queryExact : ¬∀ (costCeilings : Dict String CostCeiling)
    (history : List SpendingCall) (ceilingId : String) (startTime endTime keyTime : Datetime),
    ((new costCeilings).after history).QueryExact ceilingId startTime endTime keyTime := by
  intro h
  have hsum := (h (Dict.empty.set "c" dailyCeiling) [.record firstCost] "c" firstMidnight
    firstMidnight firstMidnight).sum
  revert hsum
  decide +kernel

end CostCeilings

end MultiAgent
