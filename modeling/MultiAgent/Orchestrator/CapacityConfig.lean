import Mathlib.Algebra.Order.Field.Rat
import Mathlib.Logic.Function.Basic

/-!
# Capacity configurations

`CapacityConfigManager` of `apps/data-plane/orchestrator/configs/capacity_config.py` : the
configurations that it derives for an overload. A degraded limit is half of the normal one but
not below a floor, and the floors are not compared with the normal limits. So a degraded limit is
at most the normal one if and only if the normal one is not below the floor
(`max_half_le_iff`), and the modes are ordered exactly for configurations that are above all
four floors (`ordered_iff`).
-/

namespace MultiAgent

namespace Capacity

/-- `Environment`. -/
inductive Environment
  | development
  | staging
  | production
  deriving DecidableEq

/-- `DegradeMode`. -/
inductive DegradeMode
  | normal
  | degraded
  | emergency

/-- `PoolConfig`. -/
structure PoolConfig where
  minSize : ℤ := 5
  maxSize : ℤ := 20
  timeout : ℚ := 30
  retryAttempts : ℤ := 3
  retryDelay : ℚ := 1

/-- `ConcurrencyConfig`. -/
structure ConcurrencyConfig where
  maxConcurrentRequests : ℤ := 100
  maxConcurrentTasks : ℤ := 50
  maxConcurrentConnections : ℤ := 1000
  requestTimeout : ℚ := 30
  taskTimeout : ℚ := 60

/-- `TimeoutConfig`. -/
structure TimeoutConfig where
  apiTimeout : ℚ := 30
  databaseTimeout : ℚ := 10
  redisTimeout : ℚ := 5
  natsTimeout : ℚ := 5
  externalApiTimeout : ℚ := 15

/-- `BackoffConfig`. -/
structure BackoffConfig where
  initialDelay : ℚ := 1
  maxDelay : ℚ := 60
  multiplier : ℚ := 2
  jitter : Bool := true
  maxAttempts : ℤ := 3

/-- `DegradeConfig`. -/
structure DegradeConfig where
  disableVerboseCritique : Bool := false
  disableDebate : Bool := false
  shrinkContext : Bool := false
  preferSlmTiers : Bool := false
  reduceLogging : Bool := false
  skipNonEssentialFeatures : Bool := false

/-- `CapacityConfig`. -/
structure CapacityConfig where
  environment : Environment
  poolConfig : PoolConfig
  concurrencyConfig : ConcurrencyConfig
  timeoutConfig : TimeoutConfig
  backoffConfig : BackoffConfig
  degradeConfig : DegradeConfig
  degradeMode : DegradeMode := .normal
  enableMetrics : Bool := true
  enableTracing : Bool := true
  enableProfiling : Bool := false

/-- `CapacityConfigManager`, which has a configuration for every environment. -/
structure CapacityConfigManager where
  configs : Environment → CapacityConfig
  currentEnvironment : Environment

/-- `_load_configurations`. -/
def loadConfigurations : Environment → CapacityConfig
  | .development =>
    { environment := .development
      poolConfig := ⟨2, 10, 15, 2, 1 / 2⟩
      concurrencyConfig := ⟨20, 10, 100, 15, 30⟩
      timeoutConfig := ⟨15, 5, 2, 2, 10⟩
      backoffConfig := ⟨1 / 2, 10, 3 / 2, true, 2⟩
      degradeConfig := {}
      enableProfiling := true }
  | .staging =>
    { environment := .staging
      poolConfig := ⟨5, 50, 30, 3, 1⟩
      concurrencyConfig := ⟨100, 50, 500, 30, 60⟩
      timeoutConfig := ⟨30, 10, 5, 5, 15⟩
      backoffConfig := ⟨1, 30, 2, true, 3⟩
      degradeConfig := {} }
  | .production =>
    { environment := .production
      poolConfig := ⟨10, 100, 60, 5, 2⟩
      concurrencyConfig := ⟨500, 200, 2000, 60, 120⟩
      timeoutConfig := ⟨60, 15, 10, 10, 30⟩
      backoffConfig := ⟨2, 120, 2, true, 5⟩
      degradeConfig := {} }

/-! ## Updates -/

/-- The attributes that the keyword argument `pool_config` of `update_config` gives. -/
structure PoolUpdate where
  minSize : Option ℤ := none
  maxSize : Option ℤ := none
  timeout : Option ℚ := none
  retryAttempts : Option ℤ := none
  retryDelay : Option ℚ := none

/-- The attributes that `concurrency_config` gives. -/
structure ConcurrencyUpdate where
  maxConcurrentRequests : Option ℤ := none
  maxConcurrentTasks : Option ℤ := none
  maxConcurrentConnections : Option ℤ := none
  requestTimeout : Option ℚ := none
  taskTimeout : Option ℚ := none

/-- `setattr` for the attributes of a pool. -/
def PoolConfig.update (config : PoolConfig) (update : PoolUpdate) : PoolConfig where
  minSize := update.minSize.getD config.minSize
  maxSize := update.maxSize.getD config.maxSize
  timeout := update.timeout.getD config.timeout
  retryAttempts := update.retryAttempts.getD config.retryAttempts
  retryDelay := update.retryDelay.getD config.retryDelay

/-- `setattr` for the limits of the concurrency. -/
def ConcurrencyConfig.update (config : ConcurrencyConfig) (update : ConcurrencyUpdate) :
    ConcurrencyConfig where
  maxConcurrentRequests := update.maxConcurrentRequests.getD config.maxConcurrentRequests
  maxConcurrentTasks := update.maxConcurrentTasks.getD config.maxConcurrentTasks
  maxConcurrentConnections := update.maxConcurrentConnections.getD config.maxConcurrentConnections
  requestTimeout := update.requestTimeout.getD config.requestTimeout
  taskTimeout := update.taskTimeout.getD config.taskTimeout

namespace CapacityConfigManager

variable (m : CapacityConfigManager) (environment : Option Environment)

/-- `update_config`, for the sections with the limits. -/
def updateConfig (environment : Environment) (poolConfig : PoolUpdate := {})
    (concurrencyConfig : ConcurrencyUpdate := {}) : CapacityConfigManager :=
  let config := m.configs environment
  { m with
    configs := Function.update m.configs environment { config with
      poolConfig := config.poolConfig.update poolConfig
      concurrencyConfig := config.concurrencyConfig.update concurrencyConfig } }

/-- `get_config`. -/
def getConfig : CapacityConfig :=
  m.configs (environment.getD m.currentEnvironment)

/-- `get_degraded_config`. -/
def getDegradedConfig : CapacityConfig :=
  let config := m.getConfig environment
  { environment := config.environment
    poolConfig := {
      minSize := max 1 (config.poolConfig.minSize / 2)
      maxSize := max 5 (config.poolConfig.maxSize / 2)
      timeout := config.poolConfig.timeout * 2
      retryAttempts := max 1 (config.poolConfig.retryAttempts - 1)
      retryDelay := config.poolConfig.retryDelay * 2 }
    concurrencyConfig := {
      maxConcurrentRequests := max 10 (config.concurrencyConfig.maxConcurrentRequests / 2)
      maxConcurrentTasks := max 5 (config.concurrencyConfig.maxConcurrentTasks / 2)
      maxConcurrentConnections := max 50 (config.concurrencyConfig.maxConcurrentConnections / 2)
      requestTimeout := config.concurrencyConfig.requestTimeout * 2
      taskTimeout := config.concurrencyConfig.taskTimeout * 2 }
    timeoutConfig := {
      apiTimeout := config.timeoutConfig.apiTimeout * 2
      databaseTimeout := config.timeoutConfig.databaseTimeout * 2
      redisTimeout := config.timeoutConfig.redisTimeout * 2
      natsTimeout := config.timeoutConfig.natsTimeout * 2
      externalApiTimeout := config.timeoutConfig.externalApiTimeout * 2 }
    backoffConfig := {
      initialDelay := config.backoffConfig.initialDelay * 2
      maxDelay := config.backoffConfig.maxDelay * 2
      multiplier := config.backoffConfig.multiplier
      jitter := config.backoffConfig.jitter
      maxAttempts := max 1 (config.backoffConfig.maxAttempts - 1) }
    degradeConfig := ⟨true, true, true, true, true, true⟩
    degradeMode := .degraded
    enableMetrics := config.enableMetrics
    enableTracing := config.enableTracing
    enableProfiling := false }

/-- `get_emergency_config`. -/
def getEmergencyConfig : CapacityConfig :=
  let config := m.getConfig environment
  { environment := config.environment
    poolConfig := {
      minSize := 1
      maxSize := 5
      timeout := config.poolConfig.timeout * 4
      retryAttempts := 1
      retryDelay := config.poolConfig.retryDelay * 4 }
    concurrencyConfig := {
      maxConcurrentRequests := 5
      maxConcurrentTasks := 2
      maxConcurrentConnections := 10
      requestTimeout := config.concurrencyConfig.requestTimeout * 4
      taskTimeout := config.concurrencyConfig.taskTimeout * 4 }
    timeoutConfig := {
      apiTimeout := config.timeoutConfig.apiTimeout * 4
      databaseTimeout := config.timeoutConfig.databaseTimeout * 4
      redisTimeout := config.timeoutConfig.redisTimeout * 4
      natsTimeout := config.timeoutConfig.natsTimeout * 4
      externalApiTimeout := config.timeoutConfig.externalApiTimeout * 4 }
    backoffConfig := {
      initialDelay := config.backoffConfig.initialDelay * 4
      maxDelay := config.backoffConfig.maxDelay * 4
      multiplier := config.backoffConfig.multiplier
      jitter := config.backoffConfig.jitter
      maxAttempts := 1 }
    degradeConfig := ⟨true, true, true, true, true, true⟩
    degradeMode := .emergency
    enableMetrics := true
    enableTracing := false
    enableProfiling := false }

end CapacityConfigManager

/-! ## The order of the modes -/

/-- The limits are positive, and `min_size` is at most `max_size`. -/
structure CapacityConfig.Sensible (config : CapacityConfig) : Prop where
  minSize_pos : 1 ≤ config.poolConfig.minSize
  minSize_le : config.poolConfig.minSize ≤ config.poolConfig.maxSize
  requests_pos : 0 < config.concurrencyConfig.maxConcurrentRequests
  tasks_pos : 0 < config.concurrencyConfig.maxConcurrentTasks
  connections_pos : 0 < config.concurrencyConfig.maxConcurrentConnections

/-- No limit of `config` is above that of `other`. -/
structure CapacityConfig.Within (config other : CapacityConfig) : Prop where
  minSize : config.poolConfig.minSize ≤ other.poolConfig.minSize
  maxSize : config.poolConfig.maxSize ≤ other.poolConfig.maxSize
  requests : config.concurrencyConfig.maxConcurrentRequests ≤
    other.concurrencyConfig.maxConcurrentRequests
  tasks : config.concurrencyConfig.maxConcurrentTasks ≤
    other.concurrencyConfig.maxConcurrentTasks
  connections : config.concurrencyConfig.maxConcurrentConnections ≤
    other.concurrencyConfig.maxConcurrentConnections

/-- The floors of `get_degraded_config` are not above the limits. -/
structure CapacityConfig.AboveFloors (config : CapacityConfig) : Prop where
  maxSize : 5 ≤ config.poolConfig.maxSize
  requests : 10 ≤ config.concurrencyConfig.maxConcurrentRequests
  tasks : 5 ≤ config.concurrencyConfig.maxConcurrentTasks
  connections : 50 ≤ config.concurrencyConfig.maxConcurrentConnections

/-- The modes are ordered, and the pools of the derived configurations have a size. -/
structure CapacityConfigManager.Ordered (m : CapacityConfigManager)
    (environment : Option Environment) : Prop where
  emergency_within : (m.getEmergencyConfig environment).Within (m.getDegradedConfig environment)
  degraded_within : (m.getDegradedConfig environment).Within (m.getConfig environment)
  degraded_size : (m.getDegradedConfig environment).poolConfig.minSize ≤
    (m.getDegradedConfig environment).poolConfig.maxSize
  emergency_size : (m.getEmergencyConfig environment).poolConfig.minSize ≤
    (m.getEmergencyConfig environment).poolConfig.maxSize

variable {m : CapacityConfigManager} {environment : Option Environment}

/-- Half of a limit with a floor is at most the limit if and only if the floor is. -/
theorem max_half_le_iff {floor limit : ℤ} (h : 0 < limit) :
    max floor (limit / 2) ≤ limit ↔ floor ≤ limit := by
  omega

/-- The constants of the emergency are not above the floors. -/
theorem emergency_within_degraded (m : CapacityConfigManager) (environment : Option Environment) :
    (m.getEmergencyConfig environment).Within (m.getDegradedConfig environment) where
  minSize := le_max_left _ _
  maxSize := le_max_left _ _
  requests := le_max_of_le_left (by decide : (5 : ℤ) ≤ 10)
  tasks := le_max_of_le_left (by decide : (2 : ℤ) ≤ 5)
  connections := le_max_of_le_left (by decide : (10 : ℤ) ≤ 50)

theorem degraded_within_iff (h : (m.getConfig environment).Sensible) :
    (m.getDegradedConfig environment).Within (m.getConfig environment) ↔
      (m.getConfig environment).AboveFloors := by
  have hsize : 0 < (m.getConfig environment).poolConfig.maxSize :=
    h.minSize_pos.trans h.minSize_le
  constructor
  · intro hwithin
    exact ⟨(max_half_le_iff hsize).mp hwithin.maxSize,
      (max_half_le_iff h.requests_pos).mp hwithin.requests,
      (max_half_le_iff h.tasks_pos).mp hwithin.tasks,
      (max_half_le_iff h.connections_pos).mp hwithin.connections⟩
  · intro hfloors
    exact ⟨(max_half_le_iff h.minSize_pos).mpr h.minSize_pos,
      (max_half_le_iff hsize).mpr hfloors.maxSize,
      (max_half_le_iff h.requests_pos).mpr hfloors.requests,
      (max_half_le_iff h.tasks_pos).mpr hfloors.tasks,
      (max_half_le_iff h.connections_pos).mpr hfloors.connections⟩

/-- The sizes of a derived pool are in order, whatever the floors do. -/
theorem degraded_minSize_le (h : (m.getConfig environment).Sensible) :
    (m.getDegradedConfig environment).poolConfig.minSize ≤
      (m.getDegradedConfig environment).poolConfig.maxSize :=
  max_le_max (by decide) (Int.ediv_le_ediv (by decide) h.minSize_le)

/-- The modes are ordered if and only if no floor is above the limit that it is for. -/
theorem ordered_iff (h : (m.getConfig environment).Sensible) :
    m.Ordered environment ↔ (m.getConfig environment).AboveFloors := by
  rw [← degraded_within_iff h]
  constructor
  · exact fun hordered => hordered.degraded_within
  · exact fun hwithin => ⟨emergency_within_degraded m environment, hwithin,
      degraded_minSize_le h, (by decide : (1 : ℤ) ≤ 5)⟩

/-- The configurations that the manager starts with are above the floors. -/
theorem ordered_loadConfigurations :
    (CapacityConfigManager.mk loadConfigurations .development).Ordered (some .production) := by
  have h : ((CapacityConfigManager.mk loadConfigurations .development).getConfig
      (some .production)).Sensible := ⟨by decide, by decide, by decide, by decide, by decide⟩
  exact (ordered_iff h).mpr ⟨by decide, by decide, by decide, by decide⟩

/-- With `max_size` 4 the degraded pool is larger than the normal one. -/
theorem not_ordered_updateConfig :
    let m := (CapacityConfigManager.mk loadConfigurations .development).updateConfig .development
      { maxSize := some 4 }
    (m.getConfig none).Sensible ∧ ¬m.Ordered none := by
  intro m
  refine ⟨⟨by decide, by decide, by decide, by decide, by decide⟩, fun h => ?_⟩
  have hle := h.degraded_within.maxSize
  revert hle
  decide

end Capacity

end MultiAgent
