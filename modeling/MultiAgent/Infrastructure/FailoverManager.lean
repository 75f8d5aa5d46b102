import Mathlib.Algebra.Order.Field.Rat
import Mathlib.Data.Int.Notation
import MultiAgent.Lib.Machine

/-!
# The failover manager

`FailoverManager` of `libs/infrastructure/failover_manager.py`, for one service : other
services share nothing with it but `failover_lock`, which nobody holds while it is suspended.
So a health check and a manual trigger are one step each, and only the tasks that execute a
failover or a recovery are suspended, in the two sleeps of their steps.

A healthy check writes the status `HEALTHY` before it looks whether the status is `FAILED`.
So it never attempts a recovery (`performHealthCheck_healthy`), and no recovery is ever in
progress (`recovery_none`). The phases of a recovery are modelled all the same.

What the checks of the regions and of the service answer, and the clock, come with the events.
-/

namespace MultiAgent

namespace Failover

/-- `FailoverStatus`. -/
inductive FailoverStatus
  | healthy
  | degraded
  | failed
  | failingOver
  | recovering
  deriving DecidableEq

/-- `FailoverTrigger`. -/
inductive FailoverTrigger
  | manual
  | automatic
  | healthCheck
  | latencyThreshold
  | errorRateThreshold
  | resourceExhaustion
  deriving DecidableEq

/-- `FailoverConfig`. -/
structure FailoverConfig where
  primaryRegion : String
  backupRegions : List String
  failoverTriggers : List FailoverTrigger := []
  healthCheckIntervalSeconds : ℤ := 30
  failoverThresholdSeconds : ℤ := 60
  recoveryThresholdSeconds : ℤ := 300
  maxFailoverAttempts : ℤ := 3
  failoverCooldownSeconds : ℤ := 300
  autoRecovery : Bool := true

/-- `FailoverStats`. Times are in seconds. -/
structure FailoverStats where
  status : FailoverStatus := .healthy
  lastFailoverTime : Option ℚ := none
  failoverCount : ℕ := 0
  recoveryCount : ℕ := 0
  lastHealthCheck : ℚ := 0
  errorCount : ℕ := 0
  lastError : Option String := none
  deriving DecidableEq

/-- The answer of `_check_service_health`. -/
structure Health where
  healthy : Bool
  error : Option String := none
  latencyMs : Option ℚ := none
  errorRate : Option ℚ := none
  cpuUsage : Option ℚ := none
  memoryUsage : Option ℚ := none
  deriving DecidableEq

/-- Where a task that executes a failover is : not begun, or in a sleep of
`_update_routing` or of `_update_service_config`. -/
inductive FailoverPhase
  | queued
  | updatingRouting (region : String)
  | updatingConfig (region : String)
  deriving DecidableEq

/-- Where the recovery of a health check is. -/
inductive RecoveryPhase
  | updatingRouting
  | updatingConfig
  deriving DecidableEq

/-- What is known of the service : its statistics, the failovers whose tasks were created and
have not returned, and the recovery that the task of the health checks is in. With it, whether
a check came out healthy since the last failover was started, and how often a check took the
status from `FAILED` to `HEALTHY`. -/
structure FailoverSystem where
  stats : FailoverStats := {}
  failovers : List FailoverPhase := []
  recovery : Option RecoveryPhase := none
  healthySince : Bool := false
  returns : ℕ := 0
  deriving DecidableEq

/-- A step. A function gives the health of each region, a Boolean that of the service. -/
inductive FailoverEvent
  | healthCheck (health : Health) (now : ℚ) (regions : String → Bool)
  | recoveryStep (regions : String → Bool) (service : Bool)
  | manualFailover (now : ℚ)
  | failoverStep (task : ℕ) (regions : String → Bool) (service : Bool)

section Decisions

variable (config : FailoverConfig) (stats : FailoverStats) (now : ℚ)

/-- Less than so many seconds have passed since the last failover. -/
def failedOverWithin (seconds : ℤ) : Bool :=
  stats.lastFailoverTime.any fun time => now - time < seconds

/-- `_should_trigger_failover` after the check for a failover in progress. An interval of zero
makes the division raise. -/
def meetsTriggers (health : Health) : Bool :=
  if failedOverWithin stats now config.failoverCooldownSeconds then false
  else if config.healthCheckIntervalSeconds = 0 then false
  else if config.failoverThresholdSeconds.fdiv config.healthCheckIntervalSeconds ≤
      stats.errorCount then true
  else if .latencyThreshold ∈ config.failoverTriggers ∧ 5000 < health.latencyMs.getD 0 then true
  else if .errorRateThreshold ∈ config.failoverTriggers ∧ 1 / 10 < health.errorRate.getD 0 then
    true
  else if .resourceExhaustion ∈ config.failoverTriggers ∧
      (19 / 20 < health.cpuUsage.getD 0 ∨ 19 / 20 < health.memoryUsage.getD 0) then true
  else false

/-- `_should_trigger_failover`. -/
def shouldTriggerFailover (health : Health) : Bool :=
  if stats.status = .failingOver then false else meetsTriggers config stats now health

/-- `_should_attempt_recovery`. -/
def shouldAttemptRecovery : Bool :=
  if ¬config.autoRecovery then false
  else if failedOverWithin stats now config.recoveryThresholdSeconds then false
  else if config.maxFailoverAttempts ≤ stats.recoveryCount then false
  else true

/-- `_select_backup_region`. -/
def selectBackupRegion (regions : String → Bool) : Option String :=
  config.backupRegions.find? regions

/-- The statistics once an unhealthy check was counted. -/
def countError (health : Health) : FailoverStats :=
  { stats with
    lastHealthCheck := now
    errorCount := stats.errorCount + 1
    lastError := some (health.error.getD "Unknown error") }

/-- The statistics once a healthy check was written. -/
def writeHealthy : FailoverStats :=
  { stats with lastHealthCheck := now, status := .healthy, errorCount := 0, lastError := none }

end Decisions

namespace FailoverSystem

variable (config : FailoverConfig) (s : FailoverSystem)

/-- Write the status. -/
def setStatus (status : FailoverStatus) : FailoverSystem :=
  { s with stats := { s.stats with status } }

/-- `_trigger_failover`. -/
def triggerFailover (now : ℚ) : FailoverSystem :=
  if s.stats.status = .failingOver then s
  else
    { s with
      stats :=
        { s.stats with
          status := .failingOver
          lastFailoverTime := some now
          failoverCount := s.stats.failoverCount + 1 }
      failovers := s.failovers ++ [.queued]
      healthySince := false }

/-- `_attempt_recovery` up to its first sleep. -/
def attemptRecovery (regions : String → Bool) : FailoverSystem :=
  let stats :=
    { s.stats with status := .recovering, recoveryCount := s.stats.recoveryCount + 1 }
  if regions config.primaryRegion then { s with stats, recovery := some .updatingRouting }
  else { s with stats := { stats with status := .failed } }

/-- `_perform_health_check`. -/
def performHealthCheck (health : Health) (now : ℚ) (regions : String → Bool) : FailoverSystem :=
  if health.healthy then
    let s := { s with stats := writeHealthy s.stats now, healthySince := true }
    if s.stats.status = .failed ∧ config.autoRecovery ∧ shouldAttemptRecovery config s.stats now
    then s.attemptRecovery config regions
    else s
  else
    let s := { s with stats := countError s.stats now health }
    if shouldTriggerFailover config s.stats now health then s.triggerFailover now else s

/-- The recovery goes on after a sleep. -/
def recoveryStep (regions : String → Bool) (service : Bool) : Option FailoverSystem :=
  match s.recovery with
  | none => none
  | some .updatingRouting =>
    if regions config.primaryRegion then some { s with recovery := some .updatingConfig }
    else some { s.setStatus .failed with recovery := none }
  | some .updatingConfig =>
    some { s.setStatus (if service then .healthy else .failed) with recovery := none }

/-- A failover is over. -/
def finishFailover (task : ℕ) (status : FailoverStatus) : FailoverSystem :=
  { s.setStatus status with failovers := s.failovers.eraseIdx task }

/-- `_execute_failover` goes on : it begins, or a sleep is over. -/
def failoverStep (task : ℕ) (regions : String → Bool) (service : Bool) : Option FailoverSystem :=
  match s.failovers[task]? with
  | none => none
  | some .queued =>
    match selectBackupRegion config regions with
    | none => some (s.finishFailover task .failed)
    | some region =>
      some { s with failovers := s.failovers.set task (.updatingRouting region) }
  | some (.updatingRouting region) =>
    if regions region then
      some { s with failovers := s.failovers.set task (.updatingConfig region) }
    else some (s.finishFailover task .failed)
  | some (.updatingConfig _) =>
    some (s.finishFailover task (if service then .healthy else .failed))

/-- A check found the status `FAILED` and left it `HEALTHY`. -/
def returned (t : FailoverSystem) : Bool :=
  s.stats.status = .failed ∧ t.stats.status = .healthy

/-- One step. The task of the health checks makes none while it is in a recovery. -/
def step : FailoverEvent → Option FailoverSystem
  | .healthCheck health now regions =>
    if s.recovery.isSome then none
    else
      let t := s.performHealthCheck config health now regions
      some { t with returns := s.returns + if s.returned t then 1 else 0 }
  | .recoveryStep regions service => s.recoveryStep config regions service
  | .manualFailover now => some (s.triggerFailover now)
  | .failoverStep task regions service => s.failoverStep config task regions service

end FailoverSystem

/-- The manager of a registered service. -/
def failoverMachine (config : FailoverConfig) : Machine FailoverSystem FailoverEvent where
  init := {}
  step s e := s.step config e

section Checks

variable {config : FailoverConfig} {s t : FailoverSystem} {e : FailoverEvent}

/-- A healthy check writes `HEALTHY`, whatever the status was, and attempts no recovery. -/
theorem performHealthCheck_healthy {health : Health} (hhealthy : health.healthy = true) (now : ℚ)
    (regions : String → Bool) :
    s.performHealthCheck config health now regions =
      { s with stats := writeHealthy s.stats now, healthySince := true } := by
  unfold FailoverSystem.performHealthCheck
  rw [if_pos hhealthy, if_neg]
  simp [writeHealthy]

/-- An unhealthy check is counted, and triggers a failover or not. -/
theorem performHealthCheck_unhealthy {health : Health} (hhealthy : health.healthy = false)
    (now : ℚ) (regions : String → Bool) :
    s.performHealthCheck config health now regions =
      let counted := { s with stats := countError s.stats now health }
      if shouldTriggerFailover config counted.stats now health then counted.triggerFailover now
      else counted := by
  unfold FailoverSystem.performHealthCheck
  rw [if_neg (by simp [hhealthy])]

@[simp] theorem triggerFailover_recovery (now : ℚ) :
    (s.triggerFailover now).recovery = s.recovery := by
  unfold FailoverSystem.triggerFailover
  split_ifs <;> rfl

theorem performHealthCheck_recovery (health : Health) (now : ℚ) (regions : String → Bool) :
    (s.performHealthCheck config health now regions).recovery = s.recovery := by
  cases hhealthy : health.healthy with
  | true => rw [performHealthCheck_healthy hhealthy]
  | false =>
    rw [performHealthCheck_unhealthy hhealthy]
    simp only
    split_ifs
    · exact triggerFailover_recovery now
    · rfl

/-- A step of a failover leaves the recovery and the count of returns as they are. -/
theorem failoverStep_frame {task : ℕ} {regions : String → Bool} {service : Bool}
    (h : s.failoverStep config task regions service = some t) :
    t.recovery = s.recovery ∧ t.returns = s.returns := by
  unfold FailoverSystem.failoverStep at h
  split at h
  · cases h
  · split at h
    all_goals
      obtain rfl := Option.some.inj h
      exact ⟨rfl, rfl⟩
  · split_ifs at h
    all_goals
      obtain rfl := Option.some.inj h
      exact ⟨rfl, rfl⟩
  · obtain rfl := Option.some.inj h
    exact ⟨rfl, rfl⟩

/-- No recovery is in progress in any state of any run. -/
theorem recovery_none {ok : FailoverSystem → FailoverEvent → Prop} {es : List FailoverEvent}
    (h : (failoverMachine config).Run ok es s) : s.recovery = none := by
  refine h.invariant (I := fun s => s.recovery = none) rfl fun s e t hs _ hst => ?_
  cases e with
  | healthCheck health now regions =>
    simp only [failoverMachine, FailoverSystem.step, hs, Option.isSome_none, Bool.false_eq_true,
      if_false, Option.some.injEq] at hst
    obtain rfl := hst
    exact (performHealthCheck_recovery health now regions).trans hs
  | recoveryStep regions service =>
    simp [failoverMachine, FailoverSystem.step, FailoverSystem.recoveryStep, hs] at hst
  | manualFailover now =>
    obtain rfl := Option.some.inj hst
    exact (triggerFailover_recovery now).trans hs
  | failoverStep task regions service => exact (failoverStep_frame hst).1.trans hs

end Checks

/-! ## The way back from a failure

A service that failed is meant to come back through `_attempt_recovery`, which
`_should_attempt_recovery` may refuse. But a healthy check writes `HEALTHY` first, and then
finds no failure. So a check takes a failed service back without a recovery whenever it comes
out healthy, also with `auto_recovery` off (`status_of_healthy_check`), and none does so
throughout a run exactly when no check comes out healthy while the service is failed
(`staysFailed_throughout_iff`). -/

section Returns

variable {config : FailoverConfig} {s t : FailoverSystem} {e : FailoverEvent}

/-- No check took the status from `FAILED` to `HEALTHY` by itself. -/
def NoneReturned (s : FailoverSystem) : Prop :=
  s.returns = 0

/-- If the service is failed, the event is no check that comes out healthy. -/
def UnhealthyWhileFailed (s : FailoverSystem) : FailoverEvent → Prop
  | .healthCheck health _ _ => s.stats.status = .failed → health.healthy = false
  | .recoveryStep _ _ => True
  | .manualFailover _ => True
  | .failoverStep _ _ _ => True

instance : Decidable (UnhealthyWhileFailed s e) :=
  match e with
  | .healthCheck health _ _ =>
    decidable_of_iff (s.stats.status ≠ .failed ∨ health.healthy = false)
      Decidable.imp_iff_not_or.symm
  | .recoveryStep _ _ => instDecidableTrue
  | .manualFailover _ => instDecidableTrue
  | .failoverStep _ _ _ => instDecidableTrue

/-- After a healthy check the status is `HEALTHY`, whatever it was and whatever the
configuration says of recoveries. -/
theorem status_of_healthy_check {health : Health} (hhealthy : health.healthy = true) (now : ℚ)
    (regions : String → Bool) :
    (s.performHealthCheck config health now regions).stats.status = .healthy := by
  rw [performHealthCheck_healthy hhealthy]
  rfl

/-- An unhealthy check leaves a failed service failed, or starts a failover of it. -/
theorem status_of_unhealthy_check {health : Health} (hhealthy : health.healthy = false) (now : ℚ)
    (regions : String → Bool) (hfailed : s.stats.status = .failed) :
    (s.performHealthCheck config health now regions).stats.status ≠ .healthy := by
  rw [performHealthCheck_unhealthy hhealthy]
  simp only
  split_ifs
  · unfold FailoverSystem.triggerFailover
    split_ifs <;> simp_all [countError]
  · simp [countError, hfailed]

variable (config s) in
/-- A check takes a failed service back by itself exactly when it comes out healthy. -/
theorem returned_iff (health : Health) (now : ℚ) (regions : String → Bool) :
    s.returned (s.performHealthCheck config health now regions) = true ↔
      ¬(s.stats.status = .failed → health.healthy = false) := by
  rw [FailoverSystem.returned, decide_eq_true_eq, Classical.not_imp, Bool.not_eq_false]
  refine and_congr_right fun hfailed => ⟨fun hstatus => ?_, fun hhealthy =>
    status_of_healthy_check hhealthy now regions⟩
  by_contra hhealthy
  exact status_of_unhealthy_check (Bool.not_eq_true _ ▸ hhealthy) now regions hfailed hstatus

theorem recoveryStep_returns {regions : String → Bool} {service : Bool}
    (h : s.recoveryStep config regions service = some t) : t.returns = s.returns := by
  unfold FailoverSystem.recoveryStep at h
  split at h
  · cases h
  · split_ifs at h
    all_goals
      obtain rfl := Option.some.inj h
      rfl
  · obtain rfl := Option.some.inj h
    rfl

theorem noneReturned_step_iff (hs : NoneReturned s)
    (hst : (failoverMachine config).step s e = some t) :
    NoneReturned t ↔ UnhealthyWhileFailed s e := by
  cases e with
  | healthCheck health now regions =>
    have hiff := returned_iff config s health now regions
    simp only [failoverMachine, FailoverSystem.step] at hst
    split_ifs at hst with hrecovery hreturned
    · obtain rfl := Option.some.inj hst
      exact iff_of_false (Nat.succ_ne_zero _) (hiff.mp hreturned)
    · obtain rfl := Option.some.inj hst
      exact iff_of_true hs (not_not.mp (mt hiff.mpr hreturned))
  | recoveryStep regions service =>
    exact iff_of_true ((recoveryStep_returns hst).trans hs) trivial
  | manualFailover now =>
    obtain rfl := Option.some.inj hst
    refine iff_of_true ?_ trivial
    unfold FailoverSystem.triggerFailover NoneReturned
    split_ifs
    · exact hs
    · exact hs
  | failoverStep task regions service =>
    exact iff_of_true ((failoverStep_frame hst).2.trans hs) trivial

/-- No check takes a failed service back without a recovery throughout a run exactly when no
check comes out healthy while the service is failed. -/
theorem staysFailed_throughout_iff {es : List FailoverEvent}
    (h : (failoverMachine config).Run (fun _ _ => True) es s) :
    (failoverMachine config).Throughout NoneReturned es ↔
      (failoverMachine config).Run UnhealthyWhileFailed es s :=
  h.throughout_iff_run (I := fun _ => True) ⟨trivial, rfl⟩ (fun _ _ _ _ _ _ _ => trivial)
    fun _ _ _ _ hs hst => noneReturned_step_iff hs hst

/-- A service without a backup region, whose recovery is switched off. -/
def unrecovered : FailoverConfig :=
  { primaryRegion := "us-east", backupRegions := [], autoRecovery := false }

/-- A manual failover that finds no region. -/
def failedFailover : List FailoverEvent :=
  [.manualFailover 0, .failoverStep 0 (fun _ => true) true]

theorem staysFailed_throughout_unhealthy :
    ∃ s, (failoverMachine unrecovered).Throughout NoneReturned failedFailover ↔
      (failoverMachine unrecovered).Run UnhealthyWhileFailed failedFailover s := by
  obtain ⟨s, hrun, -⟩ := (failoverMachine unrecovered).exists_run (fun _ _ => True)
    failedFailover (fun s => s.stats.status = .failed) (by decide +kernel)
  exact ⟨s, staysFailed_throughout_iff hrun⟩

/-- The next healthy check takes the service back. -/
theorem not_staysFailed_throughout :
    ¬(failoverMachine unrecovered).Throughout NoneReturned
      (failedFailover ++ [.healthCheck { healthy := true } 1 fun _ => true]) := by
  obtain ⟨s, hrun, hreturned⟩ := (failoverMachine unrecovered).exists_run (fun _ _ => True)
    (failedFailover ++ [.healthCheck { healthy := true } 1 fun _ => true])
    (fun s => s.returns = 1) (by decide +kernel)
  intro hall
  have hnone := hall _ s List.prefix_rfl hrun
  rw [NoneReturned, of_decide_eq_true hreturned] at hnone
  exact absurd hnone (by decide)

end Returns

/-! ## One failover at a time

What keeps a second failover from being started is the status `FAILING_OVER`. A healthy check
writes `HEALTHY` over it while the failover goes on, and the next trigger starts another one.
So at most one failover is in progress throughout a run exactly when nothing asks for a
failover after a check came out healthy during one (`atMostOne_throughout_iff`). A failover
is in progress from the creation of its task until `_execute_failover` returns. -/

section Exclusion

variable {config : FailoverConfig} {s t : FailoverSystem} {e : FailoverEvent}

/-- At most one `_execute_failover` is in progress. -/
def AtMostOne (s : FailoverSystem) : Prop :=
  s.failovers.length ≤ 1

/-- The event asks for a failover : a call of `manual_failover`, or an unhealthy check that
meets the thresholds and is not in the cooldown. -/
def Asks (config : FailoverConfig) (s : FailoverSystem) : FailoverEvent → Prop
  | .healthCheck health now _ =>
    health.healthy = false ∧ meetsTriggers config (countError s.stats now health) now health = true
  | .manualFailover _ => True
  | .recoveryStep _ _ => False
  | .failoverStep _ _ _ => False

/-- If the event asks for a failover during one, no check came out healthy since that was
started. -/
def AsksInTime (config : FailoverConfig) (s : FailoverSystem) (e : FailoverEvent) : Prop :=
  s.failovers ≠ [] → Asks config s e → s.healthySince = false

instance : Decidable (Asks config s e) := by
  unfold Asks
  split <;> infer_instance

instance : Decidable (AsksInTime config s e) := by
  unfold AsksInTime
  infer_instance

/-- During a failover the status is `FAILING_OVER` until a check comes out healthy. -/
structure Tracked (s : FailoverSystem) : Prop where
  recovery : s.recovery = none
  status : s.failovers ≠ [] → (s.stats.status = .failingOver ↔ s.healthySince = false)

/-- A trigger starts a second failover exactly when a check came out healthy in the first. -/
theorem atMostOne_triggerFailover_iff (hs : Tracked s) (hone : AtMostOne s) (now : ℚ) :
    AtMostOne (s.triggerFailover now) ↔ (s.failovers ≠ [] → s.healthySince = false) := by
  unfold FailoverSystem.triggerFailover AtMostOne
  split_ifs with hstatus
  · exact iff_of_true hone fun hsome => (hs.status hsome).mp hstatus
  · rw [List.length_append, List.length_singleton]
    constructor
    · intro hlength hsome
      exact absurd (List.length_eq_zero_iff.mp (by omega)) hsome
    · intro hsince
      by_cases hsome : s.failovers = []
      · simp [hsome]
      · exact absurd ((hs.status hsome).mpr (hsince hsome)) hstatus

theorem tracked_triggerFailover (hs : Tracked s) (now : ℚ) : Tracked (s.triggerFailover now) := by
  unfold FailoverSystem.triggerFailover
  split_ifs
  · exact hs
  · exact ⟨hs.recovery, fun _ => iff_of_true rfl rfl⟩

/-- An unhealthy check triggers a failover if it asks for one. -/
theorem performHealthCheck_asks {health : Health} (hhealthy : health.healthy = false) (now : ℚ)
    (regions : String → Bool) :
    s.performHealthCheck config health now regions =
      let counted := { s with stats := countError s.stats now health }
      if meetsTriggers config counted.stats now health then counted.triggerFailover now
      else counted := by
  rw [performHealthCheck_unhealthy hhealthy]
  have hcounted : (countError s.stats now health).status = s.stats.status := rfl
  by_cases hstatus : s.stats.status = .failingOver
  · simp [shouldTriggerFailover, FailoverSystem.triggerFailover, hcounted, hstatus]
  · simp only [shouldTriggerFailover, hcounted, if_neg hstatus]

/-- A step of a failover starts none, and ends the only one there is if it ends one. -/
theorem failoverStep_keeps {task : ℕ} {regions : String → Bool} {service : Bool}
    (hs : Tracked s) (hone : AtMostOne s)
    (h : s.failoverStep config task regions service = some t) : AtMostOne t ∧ Tracked t := by
  have hrecovery := (failoverStep_frame h).1
  have hfinish : ∀ status phase, s.failovers[task]? = some phase →
      (s.finishFailover task status).failovers = [] := by
    intro status phase hphase
    obtain ⟨hlt, -⟩ := List.getElem?_eq_some_iff.mp hphase
    have hlength : (s.failovers.eraseIdx task).length = s.failovers.length - 1 :=
      List.length_eraseIdx_of_lt hlt
    unfold AtMostOne at hone
    exact List.length_eq_zero_iff.mp (by rw [FailoverSystem.finishFailover, hlength]; omega)
  have hgoes : ∀ phase, s.failovers[task]? ≠ none →
      Tracked { s with failovers := s.failovers.set task phase } := by
    refine fun phase hsome => ⟨hs.recovery, fun _ => hs.status fun hnil => ?_⟩
    simp [hnil] at hsome
  unfold FailoverSystem.failoverStep at h
  split at h
  · cases h
  all_goals rename_i hphase
  · split at h
    all_goals obtain rfl := Option.some.inj h
    · have hnil := hfinish .failed _ hphase
      exact ⟨by simp [AtMostOne, hnil], hrecovery.trans hs.recovery, fun hsome => absurd hnil hsome⟩
    · exact ⟨by simpa [AtMostOne] using hone, hgoes _ (by simp [hphase])⟩
  · split_ifs at h
    all_goals obtain rfl := Option.some.inj h
    · exact ⟨by simpa [AtMostOne] using hone, hgoes _ (by simp [hphase])⟩
    · have hnil := hfinish .failed _ hphase
      exact ⟨by simp [AtMostOne, hnil], hrecovery.trans hs.recovery, fun hsome => absurd hnil hsome⟩
  · obtain rfl := Option.some.inj h
    have hnil := hfinish (if service then .healthy else .failed) _ hphase
    exact ⟨by simp [AtMostOne, hnil], hrecovery.trans hs.recovery, fun hsome => absurd hnil hsome⟩

/-- A step from a state with at most one failover leaves at most one exactly when it asks for
another only before a check came out healthy. -/
theorem atMostOne_step_iff (hs : Tracked s) (hone : AtMostOne s)
    (hst : (failoverMachine config).step s e = some t) :
    (AtMostOne t ↔ AsksInTime config s e) ∧ (AtMostOne t → Tracked t) := by
  cases e with
  | recoveryStep regions service =>
    simp [failoverMachine, FailoverSystem.step, FailoverSystem.recoveryStep, hs.recovery] at hst
  | failoverStep task regions service =>
    obtain ⟨hone', hs'⟩ := failoverStep_keeps hs hone hst
    exact ⟨iff_of_true hone' fun _ hasks => hasks.elim, fun _ => hs'⟩
  | manualFailover now =>
    obtain rfl := Option.some.inj hst
    refine ⟨?_, fun _ => tracked_triggerFailover hs now⟩
    rw [atMostOne_triggerFailover_iff hs hone]
    exact ⟨fun h hsome _ => h hsome, fun h hsome => h hsome trivial⟩
  | healthCheck health now regions =>
    simp only [failoverMachine, FailoverSystem.step, hs.recovery, Option.isSome_none,
      Bool.false_eq_true, if_false, Option.some.injEq] at hst
    obtain rfl := hst
    cases hhealthy : health.healthy with
    | true =>
      rw [performHealthCheck_healthy hhealthy]
      refine ⟨iff_of_true hone fun _ hasks => ?_, fun _ => ⟨hs.recovery, fun _ => ?_⟩⟩
      · exact absurd hasks.1 (by simp [hhealthy])
      · simp [writeHealthy]
    | false =>
      have hcounted : Tracked { s with stats := countError s.stats now health } :=
        ⟨hs.recovery, hs.status⟩
      by_cases hmeets : meetsTriggers config (countError s.stats now health) now health = true
      · have hperform := (performHealthCheck_asks hhealthy now regions).trans (if_pos hmeets)
        rw [hperform]
        have hiff := atMostOne_triggerFailover_iff hcounted hone now
        refine ⟨hiff.trans ⟨fun h hsome _ => h hsome, fun h hsome => h hsome ⟨hhealthy, hmeets⟩⟩,
          fun _ => ?_⟩
        obtain ⟨hrecovery, hstatus⟩ := tracked_triggerFailover hcounted now
        exact ⟨hrecovery, hstatus⟩
      · have hperform := (performHealthCheck_asks hhealthy now regions).trans (if_neg hmeets)
        rw [hperform]
        exact ⟨iff_of_true hone fun _ hasks => absurd hasks.2 hmeets,
          fun _ => ⟨hs.recovery, hs.status⟩⟩

/-- At most one failover is in progress throughout a run exactly when nothing asks for one
after a check came out healthy during another. -/
theorem atMostOne_throughout_iff {es : List FailoverEvent}
    (h : (failoverMachine config).Run (fun _ _ => True) es s) :
    (failoverMachine config).Throughout AtMostOne es ↔
      (failoverMachine config).Run (AsksInTime config) es s :=
  h.throughout_iff_run (I := Tracked)
    ⟨⟨rfl, fun hsome => absurd rfl hsome⟩, Nat.zero_le 1⟩
    (fun _ _ _ hs hone hst => (atMostOne_step_iff hs hone hst).2)
    fun _ _ _ hs hone hst => (atMostOne_step_iff hs hone hst).1

/-- A service with one backup region. -/
def twoRegions : FailoverConfig :=
  { primaryRegion := "us-east", backupRegions := ["us-west"] }

/-- A manual failover that gets to its first sleep. -/
def startedFailover : List FailoverEvent :=
  [.manualFailover 0, .failoverStep 0 (fun _ => true) true]

theorem atMostOne_throughout_started :
    ∃ s, (failoverMachine twoRegions).Throughout AtMostOne startedFailover ↔
      (failoverMachine twoRegions).Run (AsksInTime twoRegions) startedFailover s := by
  obtain ⟨s, hrun, -⟩ := (failoverMachine twoRegions).exists_run (fun _ _ => True)
    startedFailover (fun s => s.failovers.length = 1) (by decide +kernel)
  exact ⟨s, atMostOne_throughout_iff hrun⟩

/-- A healthy check and another manual failover, while the first waits. -/
theorem not_atMostOne_throughout :
    ¬(failoverMachine twoRegions).Throughout AtMostOne
      (startedFailover ++
        [.healthCheck { healthy := true } 1 fun _ => true, .manualFailover 2]) := by
  obtain ⟨s, hrun, htwo⟩ := (failoverMachine twoRegions).exists_run (fun _ _ => True)
    (startedFailover ++ [.healthCheck { healthy := true } 1 fun _ => true, .manualFailover 2])
    (fun s => s.failovers.length = 2) (by decide +kernel)
  intro hall
  have hone := hall _ s List.prefix_rfl hrun
  rw [AtMostOne, of_decide_eq_true htwo] at hone
  omega

end Exclusion

end Failover

end MultiAgent
