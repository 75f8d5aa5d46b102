import Mathlib.Tactic.Ring
import MultiAgent.Lib.Fallible
import MultiAgent.Performance.CostSpending

/-!
# When `record_cost` blocks

Sequences of calls of `record_cost` on one ceiling, made in one of its windows. A call
compares the limit with what `get_current_spending` answers : the sum with the new record
if the key was not cached, the cached spending if it was. The cached spending leaves the
new amount out, and is off the sum by an excess that no later call changes
(`answer_of_window`, `excessAt_recordCost`). If the first call of the sequence found no
key, the excess is its amount. So a call compares the sum before it plus the excess, and
should compare the sum before it plus its own amount (`blocksAtLimit_iff`).
-/

namespace MultiAgent

namespace CostCeilings

namespace CostCeilingManager

variable (m : CostCeilingManager)

/-- The sum of the records of a ceiling in the window of `now`, up to `now`. -/
def spentAt (ceilingId : String) (ceiling : CostCeiling) (now : Datetime) : ℚ :=
  m.db.totalSpending ceilingId (ceilingStartTime ceiling.ceilingType now) now

/-- What the cached spending is off the sum, if the key is cached. -/
def excessAt (ceilingId : String) (ceiling : CostCeiling) (now : Datetime) : Option ℚ :=
  (m.spending ceilingId (windowKey ceiling.ceilingType now)).map
    fun cached => cached - m.spentAt ceilingId ceiling now

/-- Every call of the sequence answers `False` exactly when the sum of the records in its
window, with the one it stored, has reached the limit. -/
def BlocksAtLimit (ceiling : CostCeiling) : CostCeilingManager → List RecordCost → Prop
  | _, [] => True
  | m, call :: calls =>
    ((m.recordCost call).2 = .ok false ↔
      ceiling.limitAmount ≤ (m.recordCost call).1.spentAt call.ceilingId ceiling call.cacheTime) ∧
    BlocksAtLimit ceiling (m.recordCost call).1 calls

end CostCeilingManager

/-- The calls are made by the clock in the window of `now`, on one ceiling, up to `now`. -/
structure InWindow (m : CostCeilingManager) (ceilingId : String) (ceiling : CostCeiling)
    (now : Datetime) (calls : List RecordCost) : Prop where
  own : ∀ call ∈ calls, call.ceilingId = ceilingId
  same : ∀ call ∈ calls, ∀ t ∈ CostEvent.readings (.record call),
    ceiling.ceilingType.windows.Same t now ∧ t ≤ now
  begun : ∀ call ∈ calls, ceilingStartTime ceiling.ceilingType now ≤ call.timestamp
  ordered : (calls.flatMap fun call => CostEvent.readings (.record call)).Pairwise (· ≤ ·)
  later : ∀ call ∈ calls, ∀ x ∈ m.db.amounts ceilingId, x.1 ≤ call.timestamp

/-- The amounts of the calls and of the records before them are not negative. -/
def NonnegAmounts (m : CostCeilingManager) (ceilingId : String) (calls : List RecordCost) : Prop :=
  (∀ x ∈ m.db.amounts ceilingId, 0 ≤ x.2) ∧ ∀ call ∈ calls, 0 ≤ call.amount

/-- With `spent` in the window so far, the limit is not zero, and at no amount does it
separate the sum with the excess from the sum with the amount. -/
def ClearOf (limit excess : ℚ) : ℚ → List ℚ → Prop
  | _, [] => True
  | spent, amount :: amounts =>
    (limit ≠ 0 ∧ (limit ≤ spent + excess ↔ limit ≤ spent + amount)) ∧
      ClearOf limit excess (spent + amount) amounts

/-- The condition on a sequence : the excess is the one of the cached spending, or else the
first amount. -/
def Clear (m : CostCeilingManager) (ceilingId : String) (ceiling : CostCeiling) (now : Datetime)
    (calls : List RecordCost) : Prop :=
  ClearOf ceiling.limitAmount
    ((m.excessAt ceilingId ceiling now).getD ((calls.map RecordCost.amount).headD 0))
    (m.spentAt ceilingId ceiling now) (calls.map RecordCost.amount)

section Window

variable {m : CostCeilingManager} {ceilingId : String} {ceiling : CostCeiling} {now : Datetime}
  {call : RecordCost} {calls : List RecordCost}

/-! ## The answer of a call -/

theorem checkCeilingViolations_snd (m : CostCeilingManager) (ceiling : CostCeiling)
    (currentSpending : ℚ) : (m.checkCeilingViolations ceiling currentSpending).2 =
      (decimalDiv currentSpending ceiling.limitAmount).map fun _ => () := by
  unfold CostCeilingManager.checkCeilingViolations
  cases decimalDiv currentSpending ceiling.limitAmount <;> rfl

/-- What a call compares with the limit. -/
theorem recordCost_snd (h : m.ceilingOf call.ceilingId = some ceiling) :
    (m.recordCost call).2 =
      let spending := (m.storeCostRecord call.toRecord).answer call.ceilingId ceiling.ceilingType
        (windowKey ceiling.ceilingType call.spendingTime) call.endTime
      (decimalDiv spending ceiling.limitAmount).map
        fun _ => decide (spending < ceiling.limitAmount) := by
  obtain ⟨ceilings, hceiling, hget, -⟩ := CostCeilingManager.getCostCeiling_of_some h
  obtain ⟨cache, hspent, -⟩ := CostCeilingManager.getCurrentSpending_of_get?
    (m := CostCeilingManager.storeCostRecord { m with ceilingCache := ceilings } call.toRecord)
    hceiling call.spendingTime call.endTime
  unfold CostCeilingManager.recordCost
  simp only [hget, hspent, checkCeilingViolations_snd]
  exact Fallible.map_map _ _ _

/-- A limit of zero makes the call raise. -/
theorem decision_eq_false {spending limit : ℚ} :
    (decimalDiv spending limit).map (fun _ => decide (spending < limit)) = .ok false ↔
      limit ≠ 0 ∧ limit ≤ spending := by
  unfold decimalDiv
  split_ifs with hlimit hspending
  · simp [hlimit, Except.map]
  · simp [hlimit, Except.map]
  · simp [hlimit, Except.map]

/-! ## Calls in one window -/

theorem InWindow.same_of (h : InWindow m ceilingId ceiling now (call :: calls)) {t : Datetime}
    (ht : t ∈ CostEvent.readings (.record call)) :
    ceilingStartTime ceiling.ceilingType t = ceilingStartTime ceiling.ceilingType now ∧
      windowKey ceiling.ceilingType t = windowKey ceiling.ceilingType now ∧ t ≤ now :=
  have hsame := h.same call List.mem_cons_self t ht
  ⟨hsame.1.1, hsame.1.2, hsame.2⟩

theorem InWindow.timestamp_le (h : InWindow m ceilingId ceiling now (call :: calls))
    {t : Datetime} (ht : t ∈ CostEvent.readings (.record call)) : call.timestamp ≤ t := by
  have hpairs := h.ordered
  simp only [List.flatMap_cons, CostEvent.readings, List.cons_append, List.pairwise_cons] at hpairs
  simp only [CostEvent.readings, List.mem_cons] at ht
  rcases ht with rfl | ht
  · exact le_rfl
  · exact hpairs.1 t (by simp only [List.mem_cons, List.mem_append] at ht ⊢; tauto)

/-- The new record is added to the sum, up to any time of the window after it. -/
theorem InWindow.totalSpending_eq (h : InWindow m ceilingId ceiling now (call :: calls))
    {t : Datetime} (hle : call.timestamp ≤ t) (hnow : t ≤ now)
    (hstart : ceilingStartTime ceiling.ceilingType t = ceilingStartTime ceiling.ceilingType now) :
    (m.storeCostRecord call.toRecord).db.totalSpending ceilingId
        (ceilingStartTime ceiling.ceilingType t) t =
      m.spentAt ceilingId ceiling now + call.amount := by
  obtain rfl := h.own call List.mem_cons_self
  have hlater := h.later call List.mem_cons_self
  have hold : total (ceilingStartTime ceiling.ceilingType now) t (m.db.amounts call.ceilingId) =
      m.spentAt call.ceilingId ceiling now :=
    total_of_le (fun x hx => (hlater x hx).trans hle)
      fun x hx => ((hlater x hx).trans hle).trans hnow
  rw [Database.totalSpending, CostRun.amounts_storeCostRecord, hstart, total_append,
    total_singleton (h.begun call List.mem_cons_self) hle, hold]

/-- What a call compares with the limit is off the sum before it by the excess. -/
theorem InWindow.answer_eq (h : InWindow m ceilingId ceiling now (call :: calls)) :
    (m.storeCostRecord call.toRecord).answer ceilingId ceiling.ceilingType
        (windowKey ceiling.ceilingType now) call.endTime =
      m.spentAt ceilingId ceiling now +
        (m.excessAt ceilingId ceiling now).getD call.amount := by
  have hend : call.endTime ∈ CostEvent.readings (.record call) := by simp [CostEvent.readings]
  have hcached : (m.storeCostRecord call.toRecord).spending ceilingId = m.spending ceilingId := rfl
  rw [CostCeilingManager.answer, CostCeilingManager.excessAt, hcached]
  cases hv : m.spending ceilingId (windowKey ceiling.ceilingType now) with
  | none =>
    rw [Option.getD_none, Option.map_none, Option.getD_none]
    obtain ⟨hstart, -, hnow⟩ := h.same_of hend
    exact h.totalSpending_eq (h.timestamp_le hend) hnow hstart
  | some v =>
    rw [Option.getD_some, Option.map_some, Option.getD_some]
    ring

theorem InWindow.wrote (h : InWindow m ceilingId ceiling now (call :: calls))
    (hceiling : m.ceilingOf ceilingId = some ceiling) :
    CostCeilingManager.Wrote m (m.recordCost call).1 [call.toRecord] ceilingId
      (windowKey ceiling.ceilingType now)
      (m.spentAt ceilingId ceiling now + (m.excessAt ceilingId ceiling now).getD call.amount +
        call.amount) := by
  obtain rfl := h.own call List.mem_cons_self
  obtain ⟨-, hspending, -⟩ := h.same_of (t := call.spendingTime) (by simp [CostEvent.readings])
  obtain ⟨-, hcache, -⟩ := h.same_of (t := call.cacheTime) (by simp [CostEvent.readings])
  have hwrote := CostCeilingManager.wrote_recordCost hceiling (hspending.trans hcache.symm)
  rwa [hcache, h.answer_eq] at hwrote

/-- After the call the sum has its amount. -/
theorem InWindow.spentAt_recordCost (h : InWindow m ceilingId ceiling now (call :: calls))
    (hceiling : m.ceilingOf ceilingId = some ceiling) {t : Datetime} (hle : call.timestamp ≤ t)
    (hnow : t ≤ now)
    (hstart : ceilingStartTime ceiling.ceilingType t = ceilingStartTime ceiling.ceilingType now) :
    (m.recordCost call).1.spentAt ceilingId ceiling t =
      m.spentAt ceilingId ceiling now + call.amount := by
  rw [← h.totalSpending_eq hle hnow hstart]
  exact CostRun.totalSpending_congr (h.wrote hceiling).records ceilingId _ _

/-- The excess stays, and is the amount of the call if the key was not cached before. -/
theorem InWindow.excessAt_recordCost (h : InWindow m ceilingId ceiling now (call :: calls))
    (hceiling : m.ceilingOf ceilingId = some ceiling) :
    (m.recordCost call).1.excessAt ceilingId ceiling now =
      some ((m.excessAt ceilingId ceiling now).getD call.amount) := by
  have hcall : call.timestamp ∈ CostEvent.readings (.record call) := List.mem_cons_self
  have hspent := h.spentAt_recordCost hceiling (h.same_of hcall).2.2 le_rfl rfl
  have hcached := congrFun ((h.wrote hceiling).spending ceilingId)
    (windowKey ceiling.ceilingType now)
  rw [if_pos rfl, Function.update_self] at hcached
  rw [CostCeilingManager.excessAt, hcached, hspent, Option.map_some]
  congr 1
  ring

theorem InWindow.tail (h : InWindow m ceilingId ceiling now (call :: calls))
    (hceiling : m.ceilingOf ceilingId = some ceiling) :
    InWindow (m.recordCost call).1 ceilingId ceiling now calls where
  own c hc := h.own c (List.mem_cons_of_mem _ hc)
  same c hc := h.same c (List.mem_cons_of_mem _ hc)
  begun c hc := h.begun c (List.mem_cons_of_mem _ hc)
  ordered := by
    have hpairs := h.ordered
    rw [List.flatMap_cons, List.pairwise_append] at hpairs
    exact hpairs.2.1
  later c hc x hx := by
    have hpairs := h.ordered
    rw [List.flatMap_cons, List.pairwise_append] at hpairs
    rw [CostRun.amounts_append (h.wrote hceiling).records] at hx
    rcases List.mem_append.mp hx with hx | hx
    · exact h.later c (List.mem_cons_of_mem _ hc) x hx
    · obtain ⟨r, hr, -, rfl⟩ := CostRun.mem_amounts.mp hx
      obtain rfl := List.mem_singleton.mp hr
      exact hpairs.2.2 _ List.mem_cons_self _
        (List.mem_flatMap.mpr ⟨c, hc, List.mem_cons_self⟩)

/-! ## Sequences of calls -/

theorem NonnegAmounts.tail (hnonneg : NonnegAmounts m ceilingId (call :: calls))
    (h : InWindow m ceilingId ceiling now (call :: calls))
    (hceiling : m.ceilingOf ceilingId = some ceiling) :
    NonnegAmounts (m.recordCost call).1 ceilingId calls := by
  refine ⟨fun x hx => ?_, fun c hc => hnonneg.2 c (List.mem_cons_of_mem _ hc)⟩
  rw [CostRun.amounts_append (h.wrote hceiling).records] at hx
  rcases List.mem_append.mp hx with hx | hx
  · exact hnonneg.1 x hx
  · obtain ⟨r, hr, -, rfl⟩ := CostRun.mem_amounts.mp hx
    obtain rfl := List.mem_singleton.mp hr
    exact hnonneg.2 call List.mem_cons_self

/-- One call answers as it should exactly when the limit is not zero and does not separate
the sum with the excess from the sum with the amount. -/
theorem InWindow.blocks_iff (h : InWindow m ceilingId ceiling now (call :: calls))
    (hceiling : m.ceilingOf ceilingId = some ceiling)
    (hnonneg : NonnegAmounts m ceilingId (call :: calls)) :
    ((m.recordCost call).2 = .ok false ↔ ceiling.limitAmount ≤
        (m.recordCost call).1.spentAt call.ceilingId ceiling call.cacheTime) ↔
      ceiling.limitAmount ≠ 0 ∧
        (ceiling.limitAmount ≤ m.spentAt ceilingId ceiling now +
            (m.excessAt ceilingId ceiling now).getD call.amount ↔
          ceiling.limitAmount ≤ m.spentAt ceilingId ceiling now + call.amount) := by
  have hcache : call.cacheTime ∈ CostEvent.readings (.record call) := by simp [CostEvent.readings]
  have hspending : call.spendingTime ∈ CostEvent.readings (.record call) := by
    simp [CostEvent.readings]
  obtain ⟨hstart, -, hnow⟩ := h.same_of hcache
  have hspent : 0 ≤ m.spentAt ceilingId ceiling now + call.amount :=
    add_nonneg (total_nonneg hnonneg.1) (hnonneg.2 call List.mem_cons_self)
  have hanswer := h.answer_eq
  obtain rfl := h.own call List.mem_cons_self
  rw [h.spentAt_recordCost hceiling (h.timestamp_le hcache) hnow hstart, recordCost_snd hceiling,
    (h.same_of hspending).2.1, hanswer, decision_eq_false]
  constructor
  · intro hiff
    by_cases hlimit : ceiling.limitAmount = 0
    · exact absurd hlimit (hiff.mpr (hlimit.trans_le hspent)).1
    · exact ⟨hlimit, fun hle => hiff.mp ⟨hlimit, hle⟩, fun hle => (hiff.mpr hle).2⟩
  · rintro ⟨hlimit, hiff⟩
    exact ⟨fun hle => hiff.mp hle.2, fun hle => ⟨hlimit, hiff.mpr hle⟩⟩

/-- The calls of a sequence block as they should exactly when the limit is clear of it. -/
theorem blocksAtLimit_iff {calls : List RecordCost} (h : InWindow m ceilingId ceiling now calls)
    (hceiling : m.ceilingOf ceilingId = some ceiling)
    (hnonneg : NonnegAmounts m ceilingId calls) :
    CostCeilingManager.BlocksAtLimit ceiling m calls ↔ Clear m ceilingId ceiling now calls := by
  induction calls generalizing m with
  | nil => exact Iff.rfl
  | cons call calls ih =>
    have hnext : (m.recordCost call).1.ceilingOf ceilingId = some ceiling := by
      rw [(h.wrote hceiling).ceilings, hceiling]
    have hcall : call.timestamp ∈ CostEvent.readings (.record call) := List.mem_cons_self
    have hrest := ih (h.tail hceiling) hnext (hnonneg.tail h hceiling)
    rw [Clear, h.excessAt_recordCost hceiling, Option.getD_some,
      h.spentAt_recordCost hceiling (h.same_of hcall).2.2 le_rfl rfl] at hrest
    exact and_congr (h.blocks_iff hceiling hnonneg) hrest

end Window

/-- A cost of the ceiling of a day, recorded at midnight. -/
def costAtMidnight (amount : ℚ) : RecordCost :=
  ⟨"c", amount, firstMidnight, firstMidnight, firstMidnight, firstMidnight⟩

theorem inWindow_atMidnight (amounts : List ℚ) :
    InWindow { db := dailyDatabase } "c" dailyCeiling firstMidnight
      (amounts.map costAtMidnight) where
  own call hcall := by
    obtain ⟨amount, -, rfl⟩ := List.mem_map.mp hcall
    rfl
  same call hcall t ht := by
    obtain ⟨amount, -, rfl⟩ := List.mem_map.mp hcall
    have htime : t = firstMidnight := by simpa [CostEvent.readings, costAtMidnight] using ht
    rw [htime]
    exact ⟨⟨rfl, rfl⟩, le_rfl⟩
  begun call hcall := by
    obtain ⟨amount, -, rfl⟩ := List.mem_map.mp hcall
    exact Datetime.midnight_le.mpr le_rfl
  ordered := by
    have htimes : ∀ t ∈ (amounts.map costAtMidnight).flatMap
        fun call => CostEvent.readings (.record call), t = firstMidnight := by
      intro t ht
      obtain ⟨call, hcall, ht⟩ := List.mem_flatMap.mp ht
      obtain ⟨amount, -, rfl⟩ := List.mem_map.mp hcall
      simpa [CostEvent.readings, costAtMidnight] using ht
    exact List.pairwise_of_forall_mem_list fun t ht u hu =>
      ((htimes t ht).trans (htimes u hu).symm).le
  later call hcall x hx := by simp [dailyDatabase, Database.amounts] at hx

/-- Two costs that reach the limit together, of which the first alone does not. -/
theorem blocksAtLimit_sixty :
    CostCeilingManager.BlocksAtLimit dailyCeiling { db := dailyDatabase }
      ([60, 60].map costAtMidnight) :=
  (blocksAtLimit_iff (inWindow_atMidnight [60, 60]) rfl
    ⟨by simp [dailyDatabase, Database.amounts], by decide +kernel⟩).mpr
    ⟨⟨by decide +kernel, by decide +kernel⟩, ⟨by decide +kernel, by decide +kernel⟩, trivial⟩

/-- After a cost of 5 the manager lets one of 99 pass, over a limit of 100. -/
theorem not_blocksAtLimit :
    ¬∀ (m : CostCeilingManager) (ceilingId : String) (ceiling : CostCeiling) (now : Datetime)
      (calls : List RecordCost), m.ceilingOf ceilingId = some ceiling →
        InWindow m ceilingId ceiling now calls → NonnegAmounts m ceilingId calls →
          CostCeilingManager.BlocksAtLimit ceiling m calls := by
  intro h
  obtain ⟨-, hsecond, -⟩ := h { db := dailyDatabase } "c" dailyCeiling firstMidnight
    ([5, 99].map costAtMidnight) rfl (inWindow_atMidnight [5, 99])
    ⟨by simp [dailyDatabase, Database.amounts], by decide +kernel⟩
  have hover : ((({ db := dailyDatabase } : CostCeilingManager).recordCost
      (costAtMidnight 5)).1.recordCost (costAtMidnight 99)).2 = .ok true := by decide +kernel
  have hreached : dailyCeiling.limitAmount ≤ ((({ db := dailyDatabase } :
      CostCeilingManager).recordCost (costAtMidnight 5)).1.recordCost
        (costAtMidnight 99)).1.spentAt "c" dailyCeiling firstMidnight := by decide +kernel
  have hblocked := hsecond.mpr hreached
  rw [hover] at hblocked
  cases hblocked

end CostCeilings

end MultiAgent
