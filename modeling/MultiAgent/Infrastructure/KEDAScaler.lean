import Mathlib.Algebra.Order.Field.Rat
import Mathlib.Data.List.Pairwise
import Mathlib.Tactic.Linarith
import MultiAgent.Lib.Machine

/-!
# The autoscaler

`KEDAScaler` of `infra/k8s/production/manifests/autoscaling/keda_scalers.py`, and what
`update_scaler_config` of its manager does to it. `get_scale_decision` suspends only where it asks
for the metric, so a poll is one step that begins with the answer, and any number of polls may
interleave. It reads the clock twice : for the decision and, unless the decision is `none`, for
`last_scaled`.

A decision is thus followed by a cooldown, but so is `cooldown` itself. Decisions that act are at
least a cooldown apart (`spaced_of_run`), and polls that come faster than the cooldown get nothing
but `cooldown` after the first decision, whatever the metric is (`starved_iff`). `replicas` is
never written, so that a scaler is told to scale down only after its minimum was lowered
(`scaleDown_of_run`).
-/

namespace MultiAgent

namespace Autoscaling

/-- `ScalerType`. -/
inductive ScalerType
  | natsQueue
  | redisQueue
  | prometheus
  | cpu
  | memory
  | custom
  deriving DecidableEq

/-- `ScalerConfig`. Times are in seconds. -/
structure ScalerConfig where
  name : String
  scalerType : ScalerType
  minReplicas : ℤ := 1
  maxReplicas : ℤ := 10
  targetValue : ℚ := 1
  scaleUpThreshold : ℚ := 4 / 5
  scaleDownThreshold : ℚ := 1 / 5
  scaleUpPeriod : ℤ := 60
  scaleDownPeriod : ℤ := 300
  cooldownPeriod : ℤ := 300

/-- `scale_decision`. -/
inductive ScaleDecision
  | none
  | cooldown
  | scaleUp
  | maxReplicasReached
  | scaleDown
  | minReplicasReached
  deriving DecidableEq

/-- A `KEDAScaler` with the fields of its `metrics`. -/
structure KEDAScaler where
  config : ScalerConfig
  currentValue : ℚ := 0
  targetValue : ℚ
  scaleDecision : ScaleDecision := .none
  lastScaled : ℚ := 0
  replicas : ℤ

/-- `__init__`. -/
def KEDAScaler.new (config : ScalerConfig) : KEDAScaler where
  config := config
  targetValue := config.targetValue
  replicas := config.minReplicas

/-- What the metric's source answers : nothing, a number, or an exception. -/
inductive MetricReply
  | missing
  | number (value : ℚ)
  | failed

/-- `_get_current_metric_value`, with the values that stand in for a missing metric. -/
def currentMetricValue (scalerType : ScalerType) : MetricReply → ℚ
  | .missing =>
    match scalerType with
    | .natsQueue => 5
    | .redisQueue => 0
    | .prometheus => 1 / 2
    | .cpu => 3 / 10
    | .memory => 2 / 5
    | .custom => 0
  | .number value => if scalerType = .custom then 0 else value
  | .failed => 0

/-- An entry of `config_updates`. Keys that the configuration does not have are passed over. -/
inductive ConfigUpdate
  | name (s : String)
  | scalerType (t : ScalerType)
  | minReplicas (n : ℤ)
  | maxReplicas (n : ℤ)
  | targetValue (q : ℚ)
  | scaleUpThreshold (q : ℚ)
  | scaleDownThreshold (q : ℚ)
  | scaleUpPeriod (n : ℤ)
  | scaleDownPeriod (n : ℤ)
  | cooldownPeriod (n : ℤ)
  | other

/-- `setattr` on the configuration. -/
def ScalerConfig.update (c : ScalerConfig) : ConfigUpdate → ScalerConfig
  | .name s => { c with name := s }
  | .scalerType t => { c with scalerType := t }
  | .minReplicas n => { c with minReplicas := n }
  | .maxReplicas n => { c with maxReplicas := n }
  | .targetValue q => { c with targetValue := q }
  | .scaleUpThreshold q => { c with scaleUpThreshold := q }
  | .scaleDownThreshold q => { c with scaleDownThreshold := q }
  | .scaleUpPeriod n => { c with scaleUpPeriod := n }
  | .scaleDownPeriod n => { c with scaleDownPeriod := n }
  | .cooldownPeriod n => { c with cooldownPeriod := n }
  | .other => c

namespace KEDAScaler

variable (s : KEDAScaler)

/-- `_determine_scale_decision`. -/
def determineScaleDecision (currentValue now : ℚ) : ScaleDecision :=
  if now - s.lastScaled < s.config.cooldownPeriod then .cooldown
  else if s.config.scaleUpThreshold < currentValue then
    if s.replicas < s.config.maxReplicas then .scaleUp else .maxReplicasReached
  else if currentValue < s.config.scaleDownThreshold then
    if s.config.minReplicas < s.replicas then .scaleDown else .minReplicasReached
  else .none

/-- `get_scale_decision` from the answer for the metric on. The clock is `now` at the decision
and `scaled` after it. -/
def getScaleDecision (reply : MetricReply) (now scaled : ℚ) : KEDAScaler × ScaleDecision :=
  let currentValue := currentMetricValue s.config.scalerType reply
  let decision := s.determineScaleDecision currentValue now
  let s := { s with currentValue := currentValue, scaleDecision := decision }
  (if decision ≠ .none then { s with lastScaled := scaled } else s, decision)

/-- `update_scaler_config`. -/
def updateConfig (updates : List ConfigUpdate) : KEDAScaler :=
  { s with config := updates.foldl ScalerConfig.update s.config }

theorem config_getScaleDecision (reply : MetricReply) (now scaled : ℚ) :
    (s.getScaleDecision reply now scaled).1.config = s.config := by
  unfold getScaleDecision
  dsimp only
  split_ifs <;> rfl

theorem replicas_getScaleDecision (reply : MetricReply) (now scaled : ℚ) :
    (s.getScaleDecision reply now scaled).1.replicas = s.replicas := by
  unfold getScaleDecision
  dsimp only
  split_ifs <;> rfl

theorem lastScaled_getScaleDecision (reply : MetricReply) (now scaled : ℚ) :
    (s.getScaleDecision reply now scaled).1.lastScaled =
      if (s.getScaleDecision reply now scaled).2 = .none then s.lastScaled else scaled := by
  unfold getScaleDecision
  dsimp only
  by_cases hnone :
      s.determineScaleDecision (currentMetricValue s.config.scalerType reply) now = .none
  · rw [if_neg (not_not_intro hnone), if_pos hnone]
  · rw [if_pos hnone, if_neg hnone]

/-- A poll answers `cooldown` exactly within the period after `last_scaled`. -/
theorem getScaleDecision_eq_cooldown_iff (reply : MetricReply) (now scaled : ℚ) :
    (s.getScaleDecision reply now scaled).2 = .cooldown ↔
      now - s.lastScaled < s.config.cooldownPeriod := by
  unfold getScaleDecision determineScaleDecision
  dsimp only
  split_ifs <;> simp_all

end KEDAScaler

/-! ## Runs -/

/-- A poll, or an update of the configuration. -/
inductive Event
  | poll (reply : MetricReply) (now scaled : ℚ)
  | update (updates : List ConfigUpdate)

/-- A decision, when it was taken and recorded, with the configuration it was taken under. -/
structure Decided where
  decision : ScaleDecision
  config : ScalerConfig
  value : ℚ
  now : ℚ
  scaled : ℚ

/-- A scaler, the time of the last poll, and the decisions, newest first. -/
structure ScalerRun where
  scaler : KEDAScaler
  clock : ℚ
  decided : List Decided := []

/-- One step. -/
def ScalerRun.next (r : ScalerRun) : Event → ScalerRun
  | .poll reply now scaled => {
      scaler := (r.scaler.getScaleDecision reply now scaled).1
      clock := scaled
      decided := {
        decision := (r.scaler.getScaleDecision reply now scaled).2
        config := r.scaler.config
        value := currentMetricValue r.scaler.config.scalerType reply
        now := now
        scaled := scaled } :: r.decided }
  | .update updates => { r with scaler := r.scaler.updateConfig updates }

/-- The polls and updates of a scaler that was made at time `started`. -/
def scalerMachine (config : ScalerConfig) (started : ℚ) : Machine ScalerRun Event where
  init := { scaler := .new config, clock := started }
  step r e := some (r.next e)

/-- The clock is read in order. -/
def InOrder (r : ScalerRun) : Event → Prop
  | .poll _ now scaled => r.clock ≤ now ∧ now ≤ scaled
  | .update _ => True

/-- The later of two decisions is `cooldown`, or the earlier one was `none`, or the later one came
when the cooldown that was then in force had passed. -/
def Spaced (later earlier : Decided) : Prop :=
  later.decision = .cooldown ∨ earlier.decision = .none ∨
    earlier.scaled + later.config.cooldownPeriod ≤ later.now

/-- `last_scaled` is not before any decision other than `none`, and the decisions are spaced. -/
structure Paced (r : ScalerRun) : Prop where
  last : ∀ d ∈ r.decided, d.decision = .none ∨ d.scaled ≤ r.scaler.lastScaled
  past : ∀ d ∈ r.decided, d.scaled ≤ r.clock
  spaced : r.decided.Pairwise Spaced

theorem Paced.next {r : ScalerRun} (h : Paced r) {e : Event} (he : InOrder r e) :
    Paced (r.next e) := by
  cases e with
  | update updates => exact ⟨h.last, h.past, h.spaced⟩
  | poll reply now scaled =>
    obtain ⟨hnow, hscaled⟩ := he
    have hpast : ∀ d ∈ r.decided, d.scaled ≤ scaled := fun d hd =>
      (h.past d hd).trans (hnow.trans hscaled)
    refine ⟨fun d hd => ?_, fun d hd => ?_, List.pairwise_cons.mpr ⟨fun d hd => ?_, h.spaced⟩⟩
    · simp only [ScalerRun.next, List.mem_cons] at hd ⊢
      rw [KEDAScaler.lastScaled_getScaleDecision]
      rcases hd with rfl | hd
      · by_cases hnone : (r.scaler.getScaleDecision reply now scaled).2 = .none
        · exact Or.inl hnone
        · exact Or.inr (by rw [if_neg hnone])
      · refine (h.last d hd).imp_right fun hle => ?_
        split_ifs
        · exact hle
        · exact hpast d hd
    · simp only [ScalerRun.next, List.mem_cons] at hd ⊢
      rcases hd with rfl | hd
      · exact le_refl _
      · exact hpast d hd
    · by_cases hcool : now - r.scaler.lastScaled < r.scaler.config.cooldownPeriod
      · left
        exact (r.scaler.getScaleDecision_eq_cooldown_iff reply now scaled).mpr hcool
      · rcases h.last d hd with hnone | hle
        · exact Or.inr (Or.inl hnone)
        · refine Or.inr (Or.inr ?_)
          dsimp only
          linarith

/-- In every run a decision to act comes a cooldown after every earlier decision other than
`none`, the cooldowns among them. -/
theorem spaced_of_run {config : ScalerConfig} {started : ℚ} {es : List Event} {r : ScalerRun}
    (h : (scalerMachine config started).Run InOrder es r) : r.decided.Pairwise Spaced := by
  refine (h.invariant (I := Paced) ⟨by simp [scalerMachine], by simp [scalerMachine],
    List.Pairwise.nil⟩ fun s e t hs hok hst => ?_).spaced
  exact Option.some.inj hst ▸ hs.next hok

instance (r : ScalerRun) : ∀ e, Decidable (InOrder r e)
  | .poll _ now scaled => inferInstanceAs (Decidable (r.clock ≤ now ∧ now ≤ scaled))
  | .update _ => inferInstanceAs (Decidable True)

/-- A scaler is told to scale up twice, six hundred seconds apart. -/
theorem spaced_of_polls : ∃ (es : List Event) (r : ScalerRun),
    (scalerMachine { name := "s", scalerType := .cpu } 0).Run InOrder es r ∧
    r.decided.map (·.decision) = [.scaleUp, .cooldown, .scaleUp] ∧ r.decided.Pairwise Spaced := by
  obtain ⟨r, hrun, hp⟩ := Machine.exists_run
    (scalerMachine { name := "s", scalerType := .cpu } 0) InOrder
    [.poll (.number 1) 1000 1000, .poll (.number 1) 1200 1200, .poll (.number 1) 1600 1600]
    (fun r => decide (r.decided.map (·.decision) = [.scaleUp, .cooldown, .scaleUp]))
    (by decide +kernel)
  exact ⟨_, r, hrun, of_decide_eq_true hp, spaced_of_run hrun⟩

/-! ## Polls that come too fast -/

/-- The decisions of the polls, in order. -/
def decisions : KEDAScaler → List Event → List ScaleDecision
  | _, [] => []
  | s, .poll reply now scaled :: es =>
    (s.getScaleDecision reply now scaled).2 ::
      decisions (s.getScaleDecision reply now scaled).1 es
  | s, .update updates :: es => decisions (s.updateConfig updates) es

/-- Each poll comes before the cooldown in force has passed since the poll before it, the first
one since `u`. -/
def Rapid : ℚ → ScalerConfig → List Event → Prop
  | _, _, [] => True
  | u, config, .poll _ now scaled :: es =>
    now - u < config.cooldownPeriod ∧ Rapid scaled config es
  | u, config, .update updates :: es => Rapid u (updates.foldl ScalerConfig.update config) es

theorem decisions_cooldown_iff (s : KEDAScaler) (es : List Event) :
    (∀ d ∈ decisions s es, d = .cooldown) ↔ Rapid s.lastScaled s.config es := by
  induction es generalizing s with
  | nil => simp [decisions, Rapid]
  | cons e es ih =>
    cases e with
    | update updates => exact ih (s.updateConfig updates)
    | poll reply now scaled =>
      rw [decisions, List.forall_mem_cons, Rapid, ih, s.getScaleDecision_eq_cooldown_iff]
      refine and_congr_right fun hcool => ?_
      have hdecision := (s.getScaleDecision_eq_cooldown_iff reply now scaled).mpr hcool
      rw [s.lastScaled_getScaleDecision, s.config_getScaleDecision, hdecision, if_neg (by simp)]

/-- After a decision other than `none` a scaler answers `cooldown` for as long as polls keep
coming faster than the cooldown, however long that is and whatever the metric is, and not
longer. -/
theorem starved_iff (s : KEDAScaler) (reply : MetricReply) (now scaled : ℚ) (es : List Event)
    (hd : (s.getScaleDecision reply now scaled).2 ≠ .none) :
    (∀ d ∈ decisions (s.getScaleDecision reply now scaled).1 es, d = .cooldown) ↔
      Rapid scaled s.config es := by
  rw [decisions_cooldown_iff, s.lastScaled_getScaleDecision, if_neg hd,
    s.config_getScaleDecision]

/-- A scaler that is polled every hundred seconds. -/
theorem starved_of_rapid :
    decisions (((KEDAScaler.new { name := "s", scalerType := .cpu }).getScaleDecision
      (.number 1) 1000 1000).1) [.poll (.number 1) 1100 1100, .poll (.number 1) 1200 1200] =
      List.replicate 2 .cooldown := by
  refine List.eq_replicate_iff.mpr ⟨by decide +kernel, ?_⟩
  exact (starved_iff (.new { name := "s", scalerType := .cpu }) (.number 1) 1000 1000
    [.poll (.number 1) 1100 1100, .poll (.number 1) 1200 1200] (by decide +kernel)).mpr
    ⟨by norm_num [KEDAScaler.new], by norm_num [KEDAScaler.new], trivial⟩

/-! ## Scaling down -/

/-- The decisions were taken with the number of replicas that the scaler began with. -/
structure Frozen (config : ScalerConfig) (r : ScalerRun) : Prop where
  replicas : r.scaler.replicas = config.minReplicas
  down : ∀ d ∈ r.decided, d.decision = .scaleDown →
    d.config.minReplicas < config.minReplicas ∧ d.value < d.config.scaleDownThreshold
  up : ∀ d ∈ r.decided, d.decision = .scaleUp →
    config.minReplicas < d.config.maxReplicas ∧ d.config.scaleUpThreshold < d.value

theorem Frozen.next {config : ScalerConfig} {r : ScalerRun} (h : Frozen config r) (e : Event) :
    Frozen config (r.next e) := by
  cases e with
  | update updates => exact ⟨h.replicas, h.down, h.up⟩
  | poll reply now scaled =>
    refine ⟨?_, fun d hd hdown => ?_, fun d hd hup => ?_⟩
    · exact (r.scaler.replicas_getScaleDecision reply now scaled).trans h.replicas
    · rcases List.mem_cons.mp hd with rfl | hd
      · revert hdown
        simp only [KEDAScaler.getScaleDecision, KEDAScaler.determineScaleDecision, h.replicas]
        split_ifs with hcool hup hmax hlow hmin
        all_goals simp_all
      · exact h.down d hd hdown
    · rcases List.mem_cons.mp hd with rfl | hd
      · revert hup
        simp only [KEDAScaler.getScaleDecision, KEDAScaler.determineScaleDecision, h.replicas]
        split_ifs with hcool hup hmax hlow hmin
        all_goals simp_all
      · exact h.up d hd hup

/-- In every run a scaler is told to scale down only under a minimum that is lower than the one it
was made with, and to scale up only under a maximum that is higher than that, since the number of
replicas that it compares with is never written. -/
theorem scaleDown_of_run {config : ScalerConfig} {started : ℚ} {es : List Event} {r : ScalerRun}
    (h : (scalerMachine config started).Run (fun _ _ => True) es r) {d : Decided}
    (hd : d ∈ r.decided) :
    (d.decision = .scaleDown → d.config.minReplicas < config.minReplicas) ∧
      (d.decision = .scaleUp → config.minReplicas < d.config.maxReplicas) := by
  have hfrozen : Frozen config r := by
    refine h.invariant (I := Frozen config) ⟨rfl, by simp [scalerMachine],
      by simp [scalerMachine]⟩ fun s e t hs _ hst => ?_
    exact Option.some.inj hst ▸ hs.next e
  exact ⟨fun hdown => (hfrozen.down d hd hdown).1, fun hup => (hfrozen.up d hd hup).1⟩

/-- A scaler is told to scale down after its minimum was set to none. -/
theorem scaleDown_of_lowered : ∃ (es : List Event) (r : ScalerRun) (d : Decided),
    (scalerMachine { name := "s", scalerType := .cpu } 0).Run (fun _ _ => True) es r ∧
    (d ∈ r.decided ∧ d.decision = .scaleDown) ∧ d.config.minReplicas < 1 := by
  obtain ⟨r, hrun, hp⟩ := Machine.exists_run
    (scalerMachine { name := "s", scalerType := .cpu } 0) (fun _ _ => True)
    [.update [.minReplicas 0], .poll (.number 0) 1000 1000]
    (fun r => decide (∃ d ∈ r.decided, d.decision = .scaleDown)) (by decide +kernel)
  obtain ⟨d, hd, hdown⟩ := of_decide_eq_true hp
  exact ⟨_, r, d, hrun, ⟨hd, hdown⟩, (scaleDown_of_run hrun hd).1 hdown⟩

end Autoscaling

end MultiAgent
