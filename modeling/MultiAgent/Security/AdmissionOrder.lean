import MultiAgent.Security.FairnessMiddleware

/-!
# Admission under growing load

What `PreAdmissionControl.check_admission` decides grows with the metrics. Levels are ordered by
their severity, and a configuration is as strict as another if it sets every switch that the other
sets (`DegradationConfig.Stricter`). The level that load, cpu and memory ask for is monotone
whatever the thresholds are, and so is the escalation by the queue (`loadLevel_mono`,
`queueLevel_mono`). So a request is degraded at least as much as one that found lower metrics, and
is refused if that one was (`checkAdmission_mono`).
-/

namespace MultiAgent

namespace Fairness

namespace DegradationLevel

/-- The place of a level in their order. -/
def severity : DegradationLevel → ℕ
  | .normal => 0
  | .light => 1
  | .moderate => 2
  | .heavy => 3

theorem severity_injective : Function.Injective severity := by
  intro a b h
  cases a <;> cases b <;> first | rfl | cases h

instance : LinearOrder DegradationLevel :=
  LinearOrder.lift' severity severity_injective

theorem le_iff {a b : DegradationLevel} : a ≤ b ↔ a.severity ≤ b.severity :=
  Iff.rfl

theorem normal_le (a : DegradationLevel) : .normal ≤ a :=
  le_iff.mpr (Nat.zero_le _)

theorem eq_heavy_of_le {a : DegradationLevel} (h : .heavy ≤ a) : a = .heavy := by
  cases a <;> first | rfl | exact absurd h (by decide)

end DegradationLevel

/-- Every switch that `d` sets is set in `c`. -/
structure DegradationConfig.Stricter (c d : DegradationConfig) : Prop where
  disableCritique : d.disableCritique = true → c.disableCritique = true
  disableDebate : d.disableDebate = true → c.disableDebate = true
  shrinkContext : d.shrinkContext = true → c.shrinkContext = true
  preferSlm : d.preferSlm = true → c.preferSlm = true
  reduceParallelism : d.reduceParallelism = true → c.reduceParallelism = true
  limitToolCalls : d.limitToolCalls = true → c.limitToolCalls = true

/-- A more severe level has the stricter configuration. -/
theorem stricter_degradationConfigs {a b : DegradationLevel} (h : a ≤ b) :
    (degradationConfigs b).Stricter (degradationConfigs a) := by
  cases a <;> cases b <;> first | exact absurd h (by decide) | constructor <;> decide

namespace PreAdmissionControl

variable (c : PreAdmissionControl)

theorem loadLevel_mono {load load' cpu cpu' memory memory' : ℚ} (hload : load ≤ load')
    (hcpu : cpu ≤ cpu') (hmemory : memory ≤ memory') :
    c.loadLevel load cpu memory ≤ c.loadLevel load' cpu' memory' := by
  -- whatever is over a bound stays over it
  have hover : ∀ a b d : ℚ, a < load ∨ b < cpu ∨ d < memory →
      a < load' ∨ b < cpu' ∨ d < memory' := by
    rintro a b d (h | h | h)
    · exact Or.inl (h.trans_le hload)
    · exact Or.inr (Or.inl (h.trans_le hcpu))
    · exact Or.inr (Or.inr (h.trans_le hmemory))
  unfold loadLevel
  by_cases hsome : c.systemLoadThreshold < load ∨ c.cpuThreshold < cpu ∨ c.memoryThreshold < memory
  · rw [if_pos hsome, if_pos (hover _ _ _ hsome)]
    by_cases hheavy : 19 / 20 < load ∨ 19 / 20 < cpu ∨ 19 / 20 < memory
    · rw [if_pos hheavy, if_pos (hover _ _ _ hheavy)]
    · rw [if_neg hheavy]
      by_cases hmoderate : 9 / 10 < load ∨ 9 / 10 < cpu ∨ 19 / 20 < memory
      · rw [if_pos hmoderate, if_pos (hover _ _ _ hmoderate)]
        split_ifs <;> decide
      · rw [if_neg hmoderate]
        split_ifs <;> decide
  · rw [if_neg hsome]
    exact DegradationLevel.normal_le _

theorem queueLevel_mono {queue queue' : ℚ} (hqueue : queue ≤ queue') {a b : DegradationLevel}
    (h : a ≤ b) : c.queueLevel queue a ≤ c.queueLevel queue' b := by
  unfold queueLevel
  by_cases hover : c.queueSizeThreshold < queue
  · rw [if_pos hover, if_pos (hover.trans_le hqueue)]
    cases a <;> cases b <;> first | exact absurd h (by decide) | decide
  · rw [if_neg hover]
    split_ifs
    · cases a <;> cases b <;> first | exact absurd h (by decide) | decide
    · exact h

end PreAdmissionControl

/-- What is read of the second metrics is at least what is read of the first. -/
structure AtLeast (metrics' metrics : SystemMetrics) : Prop where
  systemLoad : metrics.getD "system_load" 0 ≤ metrics'.getD "system_load" 0
  cpuUsage : metrics.getD "cpu_usage" 0 ≤ metrics'.getD "cpu_usage" 0
  memoryUsage : metrics.getD "memory_usage" 0 ≤ metrics'.getD "memory_usage" 0
  queueSize : metrics.getD "queue_size" 0 ≤ metrics'.getD "queue_size" 0

instance (metrics' metrics : SystemMetrics) : Decidable (AtLeast metrics' metrics) :=
  decidable_of_iff (metrics.getD "system_load" 0 ≤ metrics'.getD "system_load" 0 ∧
    metrics.getD "cpu_usage" 0 ≤ metrics'.getD "cpu_usage" 0 ∧
    metrics.getD "memory_usage" 0 ≤ metrics'.getD "memory_usage" 0 ∧
    metrics.getD "queue_size" 0 ≤ metrics'.getD "queue_size" 0)
    ⟨fun h => ⟨h.1, h.2.1, h.2.2.1, h.2.2.2⟩,
      fun h => ⟨h.systemLoad, h.cpuUsage, h.memoryUsage, h.queueSize⟩⟩

namespace PreAdmissionControl

variable (c : PreAdmissionControl) (requestMetadata : Items) (metrics : SystemMetrics)

/-- The level that is chosen. -/
def level : DegradationLevel :=
  c.queueLevel (metrics.getD "queue_size" 0)
    (c.loadLevel (metrics.getD "system_load" 0) (metrics.getD "cpu_usage" 0)
      (metrics.getD "memory_usage" 0))

theorem checkAdmission_snd :
    (c.checkAdmission requestMetadata metrics).2.1 = degradationConfigs (c.level metrics) :=
  rfl

/-- A request is admitted unless its tenant has low priority under heavy load, or the queue is
full. -/
theorem checkAdmission_fst : (c.checkAdmission requestMetadata metrics).1 = true ↔
    ¬(c.level metrics = .heavy ∧
      lowPriorityTier ((requestMetadata.field "tenant_tier").getD (.str "free")) = true) ∧
    ¬c.queueSizeThreshold * (3 / 2) < metrics.getD "queue_size" 0 := by
  unfold checkAdmission
  dsimp only
  rw [← level]
  by_cases hfull : c.queueSizeThreshold * (3 / 2) < metrics.getD "queue_size" 0
  · rw [if_pos hfull]
    exact iff_of_false Bool.false_ne_true fun h => h.2 hfull
  · rw [if_neg hfull, and_iff_left hfull]
    by_cases hlow : c.level metrics = .heavy ∧
        lowPriorityTier ((requestMetadata.field "tenant_tier").getD (.str "free")) = true
    · exact iff_of_false (by rw [if_pos hlow]; exact Bool.false_ne_true) (not_not.mpr hlow)
    · exact iff_of_true (by rw [if_neg hlow]) hlow

theorem level_mono {metrics' : SystemMetrics} (h : AtLeast metrics' metrics) :
    c.level metrics ≤ c.level metrics' :=
  c.queueLevel_mono h.queueSize (c.loadLevel_mono h.systemLoad h.cpuUsage h.memoryUsage)

end PreAdmissionControl

/-- With metrics that are at least as great, and the same tenant tier, the level is at least as
severe, every switch stays set, and a request is admitted only if it was admitted before. -/
theorem checkAdmission_mono (c : PreAdmissionControl) (requestMetadata requestMetadata' : Items)
    (metrics metrics' : SystemMetrics) (h : AtLeast metrics' metrics)
    (htier : requestMetadata'.field "tenant_tier" = requestMetadata.field "tenant_tier") :
    (c.checkAdmission requestMetadata metrics).2.1.level ≤
        (c.checkAdmission requestMetadata' metrics').2.1.level ∧
      ((c.checkAdmission requestMetadata' metrics').1 = true →
        (c.checkAdmission requestMetadata metrics).1 = true) ∧
      (c.checkAdmission requestMetadata' metrics').2.1.Stricter
        (c.checkAdmission requestMetadata metrics).2.1 := by
  have hlevel := c.level_mono metrics h
  simp only [PreAdmissionControl.checkAdmission_snd, level_degradationConfigs,
    PreAdmissionControl.checkAdmission_fst]
  refine ⟨hlevel, ?_, stricter_degradationConfigs hlevel⟩
  rw [htier]
  rintro ⟨hheavy, hfull⟩
  refine ⟨fun hlow => hheavy ⟨?_, hlow.2⟩, fun hover => hfull (hover.trans_le h.queueSize)⟩
  -- heavy is the most severe
  rw [hlow.1] at hlevel
  exact DegradationLevel.eq_heavy_of_le hlevel

/-- Metrics of an overloaded system. -/
def overloaded : SystemMetrics :=
  ((Dict.empty.set "system_load" (97 / 100)).set "cpu_usage" (9 / 10)).set "queue_size" 1200

/-- From an idle system to an overloaded one. -/
theorem checkAdmission_mono_overloaded :
    (({} : PreAdmissionControl).checkAdmission [] .empty).2.1.level ≤
        (({} : PreAdmissionControl).checkAdmission [] overloaded).2.1.level ∧
      ((({} : PreAdmissionControl).checkAdmission [] overloaded).1 = true →
        (({} : PreAdmissionControl).checkAdmission [] .empty).1 = true) ∧
      (({} : PreAdmissionControl).checkAdmission [] overloaded).2.1.Stricter
        (({} : PreAdmissionControl).checkAdmission [] .empty).2.1 :=
  checkAdmission_mono {} [] [] .empty overloaded (by decide +kernel) rfl

end Fairness

end MultiAgent
