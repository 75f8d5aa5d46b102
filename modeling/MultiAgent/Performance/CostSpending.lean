import MultiAgent.Performance.CostCeiling

/-!
# The cached spending over runs

Runs of calls of `record_cost` and `get_current_spending` on one manager, by the clock. A
cost whose key is cached is added to the sum of its window, and one whose key is not is
added to a sum that has it already (`answer_record`), so the first cost of a day counts
twice (`not_exactSpending`). The cached spending is the sum of the window in the runs in
which the key is cached before the first cost, or that cost is zero
(`exactSpending_of_sound`).

Three things more can go wrong, and are excluded in `Timely` : a call that goes on into the
next window, a key that was used for another week before (only weeks share keys,
`keyFresh_of_not_weekly`), and a ceiling with no window and a clock before 2020.
-/

namespace MultiAgent

namespace CostCeilings

/-- A manager, and the ceilings of its calls so far with the last time that each call read. -/
structure CostRun where
  manager : CostCeilingManager
  used : List (String × Datetime) := []

/-- `record_cost`, or `get_current_spending` of a ceiling up to now. -/
inductive CostEvent
  | record (call : RecordCost)
  | query (ceilingId : String) (keyTime endTime : Datetime)

namespace CostEvent

/-- The ceiling of a call. -/
def ceilingId : CostEvent → String
  | record call => call.ceilingId
  | query ceilingId _ _ => ceilingId

/-- What the clock reads in a call. -/
def readings : CostEvent → List Datetime
  | record call => [call.timestamp, call.spendingTime, call.endTime, call.cacheTime]
  | query _ keyTime endTime => [keyTime, endTime]

/-- The last reading of a call. -/
def last : CostEvent → Datetime
  | record call => call.cacheTime
  | query _ _ endTime => endTime

end CostEvent

namespace CostRun

variable (s : CostRun)

/-- One call. -/
def next (e : CostEvent) : CostRun :=
  { manager :=
      match e with
      | .record call => (s.manager.recordCost call).1
      | .query ceilingId keyTime endTime =>
        (s.manager.getCurrentSpending ceilingId none none keyTime endTime).1
    used := (e.ceilingId, e.last) :: s.used }

/-- The times at which a ceiling was used. -/
def usedBy (ceilingId : String) : List Datetime :=
  (s.used.filter fun p => p.1 = ceilingId).map Prod.snd

/-- The times of the past. -/
def past : List Datetime :=
  s.used.map Prod.snd ++ s.manager.db.costRecords.map CostRecord.timestamp

/-- The clock does not go back. -/
def InOrder (e : CostEvent) : Prop :=
  e.readings.Pairwise (· ≤ ·) ∧ ∀ t ∈ e.readings, ∀ u ∈ s.past, u ≤ t

/-- The key of the call was not used for another window of the ceiling. -/
def KeyFresh (e : CostEvent) (ceiling : CostCeiling) : Prop :=
  ∀ u ∈ s.usedBy e.ceilingId,
    windowKey ceiling.ceilingType u = windowKey ceiling.ceilingType e.last →
      ceilingStartTime ceiling.ceilingType u = ceilingStartTime ceiling.ceilingType e.last

/-- The window has begun when a cost is recorded. -/
def Begun (ceiling : CostCeiling) : CostEvent → Prop
  | .record call => ceilingStartTime ceiling.ceilingType call.cacheTime ≤ call.timestamp
  | .query _ _ _ => True

/-- The call is made in one window of the ceiling, whose key is its own. -/
structure Timely (e : CostEvent) (ceiling : CostCeiling) : Prop where
  same : ∀ t ∈ e.readings, ceiling.ceilingType.windows.Same t e.last
  fresh : s.KeyFresh e ceiling
  begun : Begun ceiling e

/-- A cost that is recorded is zero, or the key of its window is cached. -/
def FirstIsZero (ceiling : CostCeiling) : CostEvent → Prop
  | .record call =>
    (s.manager.spending call.ceilingId
      (windowKey ceiling.ceilingType call.cacheTime)).isSome = true ∨ call.amount = 0
  | .query _ _ _ => True

/-- The condition on a call under which the cached spending stays exact. -/
def Sound (e : CostEvent) : Prop :=
  ∀ ceiling, s.manager.ceilingOf e.ceilingId = some ceiling →
    s.Timely e ceiling ∧ s.FirstIsZero ceiling e

/-- The cached spending of a ceiling is the sum of its records in the window of `t`. -/
def Exact (ceilingId : String) (ceiling : CostCeiling) (t : Datetime) : Prop :=
  s.manager.spendingCache.get? (cacheKey ceilingId (windowKey ceiling.ceilingType t)) =
    some (s.manager.db.totalSpending ceilingId (ceilingStartTime ceiling.ceilingType t) t)

/-- The cache tracks the spending of every ceiling. -/
def Tracks : Prop :=
  ∀ ceilingId ceiling, s.manager.ceilingOf ceilingId = some ceiling →
    ceiling.ceilingType.windows.Tracked (s.manager.db.amounts ceilingId) (s.usedBy ceilingId)
      (s.manager.spending ceilingId)

end CostRun

/-- A new manager over a database. -/
def costMachine (db : Database) : Machine CostRun CostEvent where
  init := { manager := { db := db } }
  step s e := some (s.next e)

/-- In the runs over `ok`, the cached spending of the current window is the sum of its
records after every `record_cost`. -/
def ExactSpending (db : Database) (ok : CostRun → CostEvent → Prop) : Prop :=
  ∀ es call s ceiling,
    (costMachine db).Run (fun s e => s.InOrder e ∧ ok s e) (es ++ [.record call]) s →
      s.manager.ceilingOf call.ceilingId = some ceiling →
        s.Exact call.ceilingId ceiling call.cacheTime

/-! ## One call -/

namespace CostRun

variable {s : CostRun} {e : CostEvent} {ceiling : CostCeiling}

theorem amounts_append {db db' : Database} {rs : List CostRecord}
    (h : db'.costRecords = db.costRecords ++ rs) (ceilingId : String) :
    db'.amounts ceilingId =
      db.amounts ceilingId ++ Database.amounts { costRecords := rs } ceilingId := by
  unfold Database.amounts
  rw [h, List.filter_append, List.map_append]

theorem mem_amounts {db : Database} {ceilingId : String} {x : Datetime × ℚ} :
    x ∈ db.amounts ceilingId ↔ ∃ r ∈ db.costRecords, r.ceilingId = ceilingId ∧
      (r.timestamp, r.amount) = x := by
  simp [Database.amounts, and_assoc]

theorem amounts_le (h : s.InOrder e) {t : Datetime} (ht : t ∈ e.readings) (ceilingId : String) :
    ∀ x ∈ s.manager.db.amounts ceilingId, x.1 ≤ t := by
  intro x hx
  obtain ⟨r, hr, -, rfl⟩ := mem_amounts.1 hx
  exact h.2 t ht _ (List.mem_append_right _ (List.mem_map_of_mem hr))

theorem usedBy_le (h : s.InOrder e) {t : Datetime} (ht : t ∈ e.readings) (ceilingId : String) :
    ∀ u ∈ s.usedBy ceilingId, u ≤ t := by
  intro u hu
  obtain ⟨p, hp, rfl⟩ := List.mem_map.mp hu
  exact h.2 t ht _ (List.mem_append_left _ (List.mem_map_of_mem (List.mem_filter.mp hp).1))

theorem last_mem_readings (e : CostEvent) : e.last ∈ e.readings := by
  cases e <;> simp [CostEvent.last, CostEvent.readings]

theorem InOrder.le_last (h : s.InOrder e) {t : Datetime} (ht : t ∈ e.readings) : t ≤ e.last := by
  cases e with
  | record call =>
    have hpairs := h.1
    simp only [CostEvent.readings, List.pairwise_cons, List.mem_cons, List.not_mem_nil] at hpairs ht
    rcases ht with rfl | rfl | rfl | rfl | ht
    · exact hpairs.1 _ (by simp [CostEvent.last])
    · exact hpairs.2.1 _ (by simp [CostEvent.last])
    · exact hpairs.2.2.1 _ (by simp [CostEvent.last])
    · exact le_rfl
    · exact ht.elim
  | query ceilingId keyTime endTime =>
    have hpairs := h.1
    simp only [CostEvent.readings, List.pairwise_cons, List.mem_cons, List.not_mem_nil] at hpairs ht
    rcases ht with rfl | rfl | ht
    · exact hpairs.1 _ (by simp [CostEvent.last])
    · exact le_rfl
    · exact ht.elim

theorem usedBy_next_self : (s.next e).usedBy e.ceilingId = e.last :: s.usedBy e.ceilingId := by
  simp [usedBy, next]

theorem usedBy_next_ne {ceilingId : String} (h : ceilingId ≠ e.ceilingId) :
    (s.next e).usedBy ceilingId = s.usedBy ceilingId := by
  simp [usedBy, next, Ne.symm h]

/-- A call that stores records of its window, and caches the sum of the window. -/
theorem next_of_wrote (h : s.Tracks) (horder : s.InOrder e)
    (hceiling : s.manager.ceilingOf e.ceilingId = some ceiling) {rs : List CostRecord}
    (hrs : ∀ r ∈ rs, r.ceilingId = e.ceilingId ∧ r.timestamp ∈ e.readings ∧
      windowKey ceiling.ceilingType r.timestamp = windowKey ceiling.ceilingType e.last)
    (hwrote : CostCeilingManager.Wrote s.manager (s.next e).manager rs e.ceilingId
      (windowKey ceiling.ceilingType e.last)
      ((s.next e).manager.db.totalSpending e.ceilingId
        (ceilingStartTime ceiling.ceilingType e.last) e.last)) :
    (s.next e).Tracks ∧ (s.next e).Exact e.ceilingId ceiling e.last := by
  have hamounts := amounts_append hwrote.records
  constructor
  · intro id c hfound
    rw [hwrote.ceilings] at hfound
    by_cases hid : id = e.ceilingId
    · subst hid
      obtain rfl := Option.some.inj (hceiling.symm.trans hfound)
      rw [usedBy_next_self, hwrote.spending, if_pos rfl, Database.totalSpending, hamounts]
      refine (h _ _ hceiling).set (fun x hx => ?_) (fun x hx u hu => ?_)
        (amounts_le horder (last_mem_readings e) _)
      · obtain ⟨r, hr, -, rfl⟩ := mem_amounts.1 hx
        obtain ⟨-, hmem, hkey⟩ := hrs r hr
        exact ⟨hkey, horder.le_last hmem⟩
      · obtain ⟨r, hr, -, rfl⟩ := mem_amounts.1 hx
        exact usedBy_le horder (hrs r hr).2.1 _ u hu
    · have hnone : Database.amounts { costRecords := rs } id = [] := by
        refine List.eq_nil_iff_forall_not_mem.mpr fun x hx => ?_
        obtain ⟨r, hr, hrid, -⟩ := mem_amounts.1 hx
        exact hid (hrid.symm.trans (hrs r hr).1)
      rw [usedBy_next_ne hid, hwrote.spending, if_neg hid, hamounts, hnone, List.append_nil]
      exact h _ _ hfound
  · have hcached := congrFun (hwrote.spending e.ceilingId) (windowKey ceiling.ceilingType e.last)
    rw [if_pos rfl, Function.update_self] at hcached
    exact hcached

theorem answer_query {ceilingId : String} {keyTime endTime : Datetime} (h : s.Tracks)
    (horder : s.InOrder (.query ceilingId keyTime endTime))
    (hceiling : s.manager.ceilingOf ceilingId = some ceiling)
    (htimely : s.Timely (.query ceilingId keyTime endTime) ceiling) :
    s.manager.answer ceilingId ceiling.ceilingType (windowKey ceiling.ceilingType endTime) endTime =
      s.manager.db.totalSpending ceilingId (ceilingStartTime ceiling.ceilingType endTime)
        endTime := by
  cases hv : s.manager.spending ceilingId (windowKey ceiling.ceilingType endTime) with
  | none => rw [CostCeilingManager.answer, hv, Option.getD_none]
  | some v =>
    rw [CostCeilingManager.answer, hv, Option.getD_some]
    exact (h _ _ hceiling).total_eq hv
      (amounts_le horder (last_mem_readings _) _) htimely.fresh

theorem amounts_storeCostRecord (m : CostCeilingManager) (call : RecordCost) :
    (m.storeCostRecord call.toRecord).db.amounts call.ceilingId =
      m.db.amounts call.ceilingId ++ [(call.timestamp, call.amount)] := by
  have hrecords : (m.storeCostRecord call.toRecord).db.costRecords =
      m.db.costRecords ++ [call.toRecord] := rfl
  rw [amounts_append hrecords]
  simp [Database.amounts, RecordCost.toRecord]

theorem amounts_snoc_le {call : RecordCost} (h : s.InOrder (.record call)) {t : Datetime}
    (ht : t ∈ CostEvent.readings (.record call)) (hle : call.timestamp ≤ t) :
    ∀ x ∈ s.manager.db.amounts call.ceilingId ++ [(call.timestamp, call.amount)], x.1 ≤ t := by
  intro x hx
  rcases List.mem_append.mp hx with hx | hx
  · exact amounts_le h ht _ x hx
  · rw [List.mem_singleton.mp hx]
    exact hle

/-- The amount is added once if the key was cached, and twice if it was not. -/
theorem answer_record {call : RecordCost} (h : s.Tracks) (horder : s.InOrder (.record call))
    (hceiling : s.manager.ceilingOf call.ceilingId = some ceiling)
    (htimely : s.Timely (.record call) ceiling) :
    (s.manager.storeCostRecord call.toRecord).answer call.ceilingId ceiling.ceilingType
        (windowKey ceiling.ceilingType call.cacheTime) call.endTime + call.amount =
      (s.manager.storeCostRecord call.toRecord).db.totalSpending call.ceilingId
        (ceilingStartTime ceiling.ceilingType call.cacheTime) call.cacheTime +
      if (s.manager.spending call.ceilingId
        (windowKey ceiling.ceilingType call.cacheTime)).isSome then 0 else call.amount := by
  have htimestamp : call.timestamp ∈ CostEvent.readings (.record call) := List.mem_cons_self
  have hend : call.endTime ∈ CostEvent.readings (.record call) := by simp [CostEvent.readings]
  have hstart : ceilingStartTime ceiling.ceilingType call.endTime =
      ceilingStartTime ceiling.ceilingType call.cacheTime := (htimely.same _ hend).1
  have hlast : call.timestamp ≤ call.cacheTime := horder.le_last htimestamp
  have hentries := amounts_le horder (last_mem_readings (.record call)) call.ceilingId
  rw [CostCeilingManager.answer, Database.totalSpending, Database.totalSpending,
    amounts_storeCostRecord, hstart]
  cases hv : s.manager.spending call.ceilingId (windowKey ceiling.ceilingType call.cacheTime) with
  | some v =>
    have htotal := (h _ _ hceiling).total_eq hv hentries htimely.fresh
    have hcached : (s.manager.storeCostRecord call.toRecord).spending call.ceilingId
        (windowKey ceiling.ceilingType call.cacheTime) = some v := hv
    rw [hcached, Option.getD_some, Option.isSome_some, if_pos rfl, add_zero, total_append,
      total_singleton htimely.begun hlast, htotal]
    rfl
  | none =>
    have hmissed : (s.manager.storeCostRecord call.toRecord).spending call.ceilingId
        (windowKey ceiling.ceilingType call.cacheTime) = none := hv
    have hbefore : call.timestamp ≤ call.endTime := by
      have hpairs := horder.1
      simp only [CostEvent.readings, List.pairwise_cons] at hpairs
      exact hpairs.1 _ (by simp)
    rw [hmissed, Option.getD_none, Option.isSome_none, if_neg Bool.false_ne_true]
    congr 1
    exact total_of_le (amounts_snoc_le horder hend hbefore)
      (amounts_snoc_le horder (last_mem_readings _) hlast)

theorem totalSpending_congr {db db' : Database} (h : db.costRecords = db'.costRecords)
    (ceilingId : String) (startTime endTime : Datetime) :
    db.totalSpending ceilingId startTime endTime =
      db'.totalSpending ceilingId startTime endTime := by
  unfold Database.totalSpending Database.amounts
  rw [h]

/-- A call that finds no ceiling changes nothing. -/
theorem manager_next_of_none (h : s.manager.ceilingOf e.ceilingId = none) :
    (s.next e).manager = s.manager := by
  cases e with
  | record call => exact CostCeilingManager.recordCost_of_none h
  | query ceilingId keyTime endTime =>
    exact CostCeilingManager.getCurrentSpending_of_none h keyTime endTime

theorem next_record {call : RecordCost} (h : s.Tracks) (horder : s.InOrder (.record call))
    (hceiling : s.manager.ceilingOf call.ceilingId = some ceiling)
    (htimely : s.Timely (.record call) ceiling) (hfirst : s.FirstIsZero ceiling (.record call)) :
    (s.next (.record call)).Tracks ∧
      (s.next (.record call)).Exact call.ceilingId ceiling call.cacheTime := by
  have htimestamp : call.timestamp ∈ CostEvent.readings (.record call) := List.mem_cons_self
  have hspending : call.spendingTime ∈ CostEvent.readings (.record call) := by
    simp [CostEvent.readings]
  have hzero : (if (s.manager.spending call.ceilingId
      (windowKey ceiling.ceilingType call.cacheTime)).isSome then 0 else call.amount) = 0 := by
    rcases hfirst with hcached | hzero
    · rw [if_pos hcached]
    · rw [hzero, ite_self]
  have hwrote := CostCeilingManager.wrote_recordCost hceiling (htimely.same _ hspending).2
  rw [answer_record h horder hceiling htimely, hzero, add_zero,
    totalSpending_congr hwrote.records.symm] at hwrote
  refine next_of_wrote h horder hceiling (fun r hr => ?_) hwrote
  obtain rfl := List.mem_singleton.mp hr
  exact ⟨rfl, htimestamp, (htimely.same _ htimestamp).2⟩

theorem next_query {ceilingId : String} {keyTime endTime : Datetime} (h : s.Tracks)
    (horder : s.InOrder (.query ceilingId keyTime endTime))
    (hceiling : s.manager.ceilingOf ceilingId = some ceiling)
    (htimely : s.Timely (.query ceilingId keyTime endTime) ceiling) :
    (s.next (.query ceilingId keyTime endTime)).Tracks ∧
      (s.next (.query ceilingId keyTime endTime)).Exact ceilingId ceiling endTime := by
  have hkey : windowKey ceiling.ceilingType keyTime = windowKey ceiling.ceilingType endTime :=
    (htimely.same keyTime (by simp [CostEvent.readings])).2
  have hwrote := CostCeilingManager.wrote_getCurrentSpending hceiling keyTime endTime
  have hrecords := hwrote.records
  rw [List.append_nil] at hrecords
  rw [hkey, answer_query h horder hceiling htimely,
    totalSpending_congr hrecords.symm] at hwrote
  exact next_of_wrote h horder hceiling (by simp) hwrote

/-- A sound call keeps the cache, and leaves the spending of its ceiling exact. -/
theorem tracks_next (h : s.Tracks) (horder : s.InOrder e) (hsound : s.Sound e) :
    (s.next e).Tracks ∧ ∀ ceiling, s.manager.ceilingOf e.ceilingId = some ceiling →
      (s.next e).Exact e.ceilingId ceiling e.last := by
  cases hceiling : s.manager.ceilingOf e.ceilingId with
  | none =>
    refine ⟨fun id c hfound => ?_, by simp⟩
    rw [manager_next_of_none hceiling] at hfound ⊢
    have hid : id ≠ e.ceilingId := by
      rintro rfl
      rw [hceiling] at hfound
      cases hfound
    rw [usedBy_next_ne hid]
    exact h id c hfound
  | some ceiling =>
    obtain ⟨htimely, hfirst⟩ := hsound ceiling hceiling
    have hnext : (s.next e).Tracks ∧ (s.next e).Exact e.ceilingId ceiling e.last := by
      cases e with
      | record call => exact next_record h horder hceiling htimely hfirst
      | query ceilingId keyTime endTime => exact next_query h horder hceiling htimely
    refine ⟨hnext.1, fun c hc => ?_⟩
    obtain rfl := Option.some.inj hc
    exact hnext.2

theorem ceilingOf_next (hsound : s.Sound e) (ceilingId : String) :
    (s.next e).manager.ceilingOf ceilingId = s.manager.ceilingOf ceilingId := by
  cases hceiling : s.manager.ceilingOf e.ceilingId with
  | none => rw [manager_next_of_none hceiling]
  | some ceiling =>
    obtain ⟨htimely, -⟩ := hsound ceiling hceiling
    cases e with
    | record call =>
      have hkey := (htimely.same call.spendingTime (by simp [CostEvent.readings])).2
      exact (CostCeilingManager.wrote_recordCost hceiling hkey).ceilings ceilingId
    | query id keyTime endTime =>
      exact (CostCeilingManager.wrote_getCurrentSpending hceiling keyTime endTime).ceilings
        ceilingId

/-- Weeks apart, the key of a window is of no other window. -/
theorem keyFresh_of_not_weekly (s : CostRun) (e : CostEvent)
    (hweek : ceiling.ceilingType ≠ .weekly) : s.KeyFresh e ceiling :=
  fun _ _ hkey => start_of_key hweek (congrArg Subtype.val hkey)

instance (s : CostRun) (e : CostEvent) : Decidable (s.InOrder e) :=
  inferInstanceAs (Decidable (_ ∧ _))

instance (e : CostEvent) (ceiling : CostCeiling) : Decidable (Begun ceiling e) :=
  match e with
  | .record call => inferInstanceAs (Decidable (_ ≤ call.timestamp))
  | .query _ _ _ => isTrue trivial

instance (s : CostRun) (e : CostEvent) (ceiling : CostCeiling) :
    Decidable (s.KeyFresh e ceiling) :=
  inferInstanceAs (Decidable (∀ u ∈ s.usedBy e.ceilingId,
    windowKey ceiling.ceilingType u = windowKey ceiling.ceilingType e.last →
      ceilingStartTime ceiling.ceilingType u = ceilingStartTime ceiling.ceilingType e.last))

instance (s : CostRun) (e : CostEvent) (ceiling : CostCeiling) : Decidable (s.Timely e ceiling) :=
  decidable_of_iff ((∀ t ∈ e.readings, ceiling.ceilingType.windows.Same t e.last) ∧
    s.KeyFresh e ceiling ∧ Begun ceiling e)
    ⟨fun h => ⟨h.1, h.2.1, h.2.2⟩, fun h => ⟨h.same, h.fresh, h.begun⟩⟩

instance (s : CostRun) (e : CostEvent) (ceiling : CostCeiling) :
    Decidable (s.FirstIsZero ceiling e) :=
  match e with
  | .record _ => inferInstanceAs (Decidable (_ ∨ _))
  | .query _ _ _ => isTrue trivial

instance (s : CostRun) (e : CostEvent) : Decidable (s.Sound e) :=
  match h : s.manager.ceilingOf e.ceilingId with
  | none => isTrue fun ceiling hceiling => by simp [h] at hceiling
  | some ceiling => decidable_of_iff (s.Timely e ceiling ∧ s.FirstIsZero ceiling e)
      ⟨fun hsound c hc => Option.some.inj (h.symm.trans hc) ▸ hsound, fun hsound =>
        hsound ceiling h⟩

end CostRun

/-! ## Runs -/

theorem tracks_of_run {db : Database} {es : List CostEvent} {s : CostRun}
    (hrun : (costMachine db).Run (fun s e => s.InOrder e ∧ s.Sound e) es s) : s.Tracks := by
  refine hrun.invariant (fun _ _ _ => Windows.tracked_empty) fun s e t h hok hst => ?_
  obtain rfl := Option.some.inj hst
  exact (CostRun.tracks_next h hok.1 hok.2).1

/-- The cached spending is exact in the runs of sound calls. -/
theorem exactSpending_of_sound (db : Database) : ExactSpending db fun s e => s.Sound e := by
  intro es call s ceiling hrun hceiling
  obtain ⟨r, hbefore, ⟨horder, hsound⟩, hst⟩ := hrun.snoc_inv
  obtain rfl := Option.some.inj hst
  rw [CostRun.ceilingOf_next hsound] at hceiling
  exact (CostRun.tracks_next (tracks_of_run hbefore) horder hsound).2 ceiling hceiling

/-- The ceiling of a day. -/
def dailyCeiling : CostCeiling :=
  { ceilingId := "c", ceilingType := .daily, limitAmount := 100 }

/-- A database with the one ceiling. -/
def dailyDatabase : Database :=
  { costCeilings := Dict.empty.set "c" dailyCeiling }

/-- Midnight of 15 March 2025. -/
def firstMidnight : Datetime :=
  .midnight ⟨2025, 3, 15, by decide, by decide, by decide⟩

/-- The first cost of the day. -/
def firstCost : RecordCost :=
  ⟨"c", 5, firstMidnight, firstMidnight, firstMidnight, firstMidnight⟩

/-- A query fills the cache, and then the first cost is added once. -/
theorem exactSpending_of_query : ∃ s : CostRun,
    (costMachine dailyDatabase).Run (fun s e => s.InOrder e ∧ s.Sound e)
      [.query "c" firstMidnight firstMidnight, .record firstCost] s ∧
    s.Exact "c" dailyCeiling firstMidnight ∧
    s.manager.db.totalSpending "c" firstMidnight firstMidnight = 5 := by
  have hquery : (costMachine dailyDatabase).Run (fun s e => s.InOrder e ∧ s.Sound e)
      [.query "c" firstMidnight firstMidnight] _ :=
    Machine.Run.nil.snoc ⟨by decide +kernel, by decide +kernel⟩ rfl
  have hrecord : (costMachine dailyDatabase).Run (fun s e => s.InOrder e ∧ s.Sound e)
      [.query "c" firstMidnight firstMidnight, .record firstCost] _ :=
    hquery.snoc ⟨by decide +kernel, by decide +kernel⟩ rfl
  refine ⟨_, hrecord, ?_, by decide +kernel⟩
  exact exactSpending_of_sound dailyDatabase [.query "c" firstMidnight firstMidnight] firstCost _
    dailyCeiling hrecord rfl

/-- The first cost of a day is added twice. -/
theorem not_exactSpending : ¬∀ db, ExactSpending db fun _ _ => True := by
  intro h
  have hexact := h dailyDatabase [] firstCost
    ((costMachine dailyDatabase).init.next (.record firstCost)) dailyCeiling
    (Machine.Run.nil.snoc ⟨by decide +kernel, trivial⟩ rfl) rfl
  revert hexact
  unfold CostRun.Exact
  decide +kernel

end CostCeilings

end MultiAgent
