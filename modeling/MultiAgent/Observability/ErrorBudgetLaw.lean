import Mathlib.Algebra.Order.Field.Basic
import Mathlib.Data.Nat.Cast.Order.Ring
import Mathlib.Tactic.Linarith
import MultiAgent.Observability.SLOManager

/-!
# The laws of an error budget

An error budget should stay between 0 and 100, a failure in the place of a success should not
raise it nor lower the burn rate, and objectives whose outcomes are all successes should have all
of their budget, burn nothing and raise no alert (`Lawful`).

The success rate is compared with the target whatever the target is of. That of a latency in
milliseconds or of a throughput may be above 100, and then the best success rate misses it : such
an objective burns its budget with every success. The laws hold exactly for the targets up to 100
(`lawful_iff_targetValue_le`).
-/

namespace MultiAgent

namespace SLO

open BoundedDeque

/-- Positive windows and policy, and a target in the domain of its type. -/
structure SLODefinition.Valid (d : SLODefinition) : Prop where
  measurementWindow_pos : 0 < d.measurementWindow
  evaluationWindow_pos : 0 < d.evaluationWindow
  errorBudgetPolicy_pos : 0 < d.errorBudgetPolicy
  target : match d.targetType with
    | .availability => 0 < d.targetValue ∧ d.targetValue ≤ 100
    | .errorRate => 0 ≤ d.targetValue ∧ d.targetValue < 100
    | .latency | .throughput => 0 < d.targetValue

/-- A definition that is valid. -/
structure ValidSLO extends SLODefinition where
  valid : toSLODefinition.Valid

/-- All outcomes in the windows that a call looks at are successes, and there are some in the
measurement window. -/
structure AllSuccess (b : ErrorBudget) (clock : Clock) : Prop where
  nonempty : b.measured clock.evaluated ≠ []
  measured : ∀ x ∈ b.measured clock.evaluated, x.success = true
  lastHour : ∀ x ∈ b.lastHour clock.burned, x.success = true

/-- The laws of the budget of an objective, in every run that follows its addition. -/
structure Lawful (d : SLODefinition) : Prop where
  bounded : ∀ (m : SLOManager) calls b,
    ((m.addSlo d).after calls).errorBudgets.get? d.name = some b →
      0 ≤ b.errorBudget ∧ b.errorBudget ≤ 100
  healthy : ∀ (m : SLOManager) calls (c : Call) b, c.sloName = d.name →
    ((m.addSlo d).after (calls ++ [c])).errorBudgets.get? d.name = some b → AllSuccess b c.clock →
      b.errorBudget = 100 ∧ b.getBurnRate c.clock.burned = 0 ∧
        (((m.addSlo d).after calls).recordMetric c).2 = none
  monotone : ∀ (m : SLOManager) before (c : Call) rest now b b',
    ((m.addSlo d).after (before ++ c :: rest)).errorBudgets.get? d.name = some b →
      ((m.addSlo d).after (before ++ { c with success := false } :: rest)).errorBudgets.get?
          d.name = some b' →
        b'.errorBudget ≤ b.errorBudget ∧ b.getBurnRate now ≤ b'.getBurnRate now

variable {d : SLODefinition} {b b' : ErrorBudget} {l l' : List SLOMetric} {rate rate' : ℚ}

/-! ## Rates -/

theorem successRate_eq_of_all (hne : l ≠ []) (h : ∀ x ∈ l, x.success = true) :
    successRate l = 100 := by
  have hlength : (l.length : ℚ) ≠ 0 := Nat.cast_ne_zero.mpr (mt List.length_eq_zero_iff.mp hne)
  unfold successRate
  rw [List.countP_eq_length.mpr h, div_self hlength, one_mul]

/-- The shortfall is a shortfall of the rate, relative to a positive number. -/
theorem SLODefinition.Valid.exists_shortfall (h : d.Valid) :
    ∃ target whole, 0 < whole ∧ (target ≤ 100 ↔ d.targetValue ≤ 100) ∧
      ∀ rate, shortfall d rate = max 0 (target - rate) / whole := by
  have htarget := h.target
  cases htype : d.targetType <;> rw [htype] at htarget
  · exact ⟨_, _, htarget.1, Iff.rfl, fun rate => by simp only [shortfall, htype]⟩
  · exact ⟨_, _, htarget, Iff.rfl, fun rate => by simp only [shortfall, htype]⟩
  · exact ⟨_, _, htarget, Iff.rfl, fun rate => by simp only [shortfall, htype]⟩
  · refine ⟨100 - d.targetValue, _, sub_pos.mpr htarget.2,
      iff_of_true (by linarith [htarget.1]) htarget.2.le, fun rate => ?_⟩
    simp only [shortfall, htype]
    rw [sub_right_comm]

theorem shortfall_nonneg (h : d.Valid) (rate : ℚ) : 0 ≤ shortfall d rate := by
  obtain ⟨target, whole, hwhole, -, heq⟩ := h.exists_shortfall
  rw [heq]
  exact div_nonneg (le_max_left _ _) hwhole.le

/-- A higher rate misses the target by less. -/
theorem shortfall_anti (h : d.Valid) (hrate : rate ≤ rate') :
    shortfall d rate' ≤ shortfall d rate := by
  obtain ⟨target, whole, hwhole, -, heq⟩ := h.exists_shortfall
  rw [heq, heq]
  exact div_le_div_of_nonneg_right (max_le_max_left 0 (sub_le_sub_left hrate target)) hwhole.le

/-- The best rate does not miss the target exactly if the target is at most 100. -/
theorem shortfall_hundred_eq_zero_iff (h : d.Valid) :
    shortfall d 100 = 0 ↔ d.targetValue ≤ 100 := by
  obtain ⟨target, whole, hwhole, hiff, heq⟩ := h.exists_shortfall
  rw [heq, div_eq_zero_iff, or_iff_left hwhole.ne', max_eq_left_iff, sub_nonpos, hiff]

/-! ## Bounds -/

theorem ErrorBudget.sloDefinition_calculateErrorBudget (b : ErrorBudget) (now : ℚ) :
    (b.calculateErrorBudget now).sloDefinition = b.sloDefinition := by
  unfold ErrorBudget.calculateErrorBudget
  split_ifs <;> rfl

theorem ErrorBudget.metricsWindow_calculateErrorBudget (b : ErrorBudget) (now : ℚ) :
    (b.calculateErrorBudget now).metricsWindow = b.metricsWindow := by
  unfold ErrorBudget.calculateErrorBudget
  split_ifs <;> rfl

theorem ErrorBudget.sloDefinition_addMetric (b : ErrorBudget) (metric : SLOMetric) (now : ℚ) :
    (b.addMetric metric now).sloDefinition = b.sloDefinition :=
  ErrorBudget.sloDefinition_calculateErrorBudget _ now

/-- A budget of a valid objective between 0 and 100. -/
structure ErrorBudget.Bounded (b : ErrorBudget) : Prop where
  valid : b.sloDefinition.Valid
  nonneg : 0 ≤ b.errorBudget
  le_hundred : b.errorBudget ≤ 100

theorem ErrorBudget.Bounded.addMetric (h : b.Bounded) (metric : SLOMetric) (now : ℚ) :
    (b.addMetric metric now).Bounded := by
  unfold ErrorBudget.addMetric ErrorBudget.calculateErrorBudget
  split_ifs
  · exact ⟨h.valid, h.nonneg, h.le_hundred⟩
  · exact ⟨h.valid, h.nonneg, h.le_hundred⟩
  · refine ⟨h.valid, le_max_left _ _, max_le (by norm_num) ?_⟩
    exact sub_le_self _ (mul_nonneg (shortfall_nonneg h.valid _) (by norm_num))

theorem bounded_budgetAfter (h : d.Valid) (calls : List Call) : (budgetAfter d calls).Bounded :=
  List.foldlRecOn _ _ ⟨h, by norm_num, le_refl _⟩ fun _ hb _ _ => hb.addMetric _ _

/-! ## Failures in the place of successes -/

/-- The second metric is the first one, or a failure in its place. -/
structure Worse (x y : SLOMetric) : Prop where
  timestamp : x.timestamp = y.timestamp
  success : y.success = true → x.success = true

theorem worse_since (h : List.Forall₂ Worse l l') (start : ℚ) :
    List.Forall₂ Worse (since l start) (since l' start) := by
  refine List.rel_filter (fun x y hxy => ?_) h
  simp only [hxy.timestamp]

theorem countP_success_le (h : List.Forall₂ Worse l l') :
    l'.countP SLOMetric.success ≤ l.countP SLOMetric.success := by
  induction h with
  | nil => exact Nat.le_refl _
  | @cons x y l l' hxy _ ih =>
    rw [List.countP_cons, List.countP_cons]
    have hsuccess := hxy.success
    split_ifs with hy hx
    · omega
    · exact absurd (hsuccess hy) hx
    · omega
    · omega

theorem successRate_le (h : List.Forall₂ Worse l l') : successRate l' ≤ successRate l := by
  unfold successRate
  rw [h.length_eq]
  have hcount : (l'.countP SLOMetric.success : ℚ) ≤ l.countP SLOMetric.success :=
    Nat.cast_le.mpr (countP_success_le h)
  exact mul_le_mul_of_nonneg_right
    (div_le_div_of_nonneg_right hcount (Nat.cast_nonneg _)) (by norm_num)

theorem isEmpty_congr (h : List.Forall₂ Worse l l') : l.isEmpty = l'.isEmpty := by
  cases h <;> rfl

/-- The second budget has seen worse outcomes. -/
structure ErrorBudget.NotBetter (b b' : ErrorBudget) : Prop where
  sloDefinition : b.sloDefinition = b'.sloDefinition
  metricsWindow : List.Forall₂ Worse b.metricsWindow b'.metricsWindow
  errorBudget : b'.errorBudget ≤ b.errorBudget

namespace ErrorBudget.NotBetter

theorem measured (h : b.NotBetter b') (now : ℚ) :
    List.Forall₂ Worse (b.measured now) (b'.measured now) := by
  unfold ErrorBudget.measured
  rw [h.sloDefinition]
  exact worse_since h.metricsWindow _

theorem lastHour (h : b.NotBetter b') (now : ℚ) :
    List.Forall₂ Worse (b.lastHour now) (b'.lastHour now) :=
  worse_since h.metricsWindow _

theorem calculateErrorBudget (h : b.NotBetter b') (hvalid : b.sloDefinition.Valid) (now : ℚ) :
    (b.calculateErrorBudget now).NotBetter (b'.calculateErrorBudget now) := by
  unfold ErrorBudget.calculateErrorBudget
  rw [isEmpty_congr h.metricsWindow, isEmpty_congr (h.measured now)]
  split_ifs
  · exact h
  · exact h
  · refine ⟨h.sloDefinition, h.metricsWindow, max_le_max_left 0 (sub_le_sub_left ?_ 100)⟩
    rw [← h.sloDefinition]
    exact mul_le_mul_of_nonneg_right (shortfall_anti hvalid (successRate_le (h.measured now)))
      (by norm_num)

theorem addMetric (h : b.NotBetter b') (hvalid : b.sloDefinition.Valid) {x y : SLOMetric}
    (hxy : Worse x y) (now : ℚ) : (b.addMetric x now).NotBetter (b'.addMetric y now) := by
  have hpush : ErrorBudget.NotBetter
      { b with metricsWindow := push b.sloDefinition.evaluationWindow b.metricsWindow x }
      { b' with metricsWindow := push b'.sloDefinition.evaluationWindow b'.metricsWindow y } := by
    refine ⟨h.sloDefinition, ?_, h.errorBudget⟩
    rw [h.sloDefinition]
    exact forall₂_push h.metricsWindow hxy _
  exact hpush.calculateErrorBudget hvalid now

theorem getBurnRate_le (h : b.NotBetter b') (hvalid : b.sloDefinition.Valid) (now : ℚ) :
    b.getBurnRate now ≤ b'.getBurnRate now := by
  unfold ErrorBudget.getBurnRate
  rw [h.metricsWindow.length_eq, isEmpty_congr (h.lastHour now)]
  split_ifs
  · exact le_refl _
  · exact le_refl _
  · rw [← h.sloDefinition]
    exact shortfall_anti hvalid (successRate_le (h.lastHour now))

end ErrorBudget.NotBetter

/-- The second call is the first one, or records a failure in its place. -/
structure WorseCall (c c' : Call) : Prop where
  sloName : c.sloName = c'.sloName
  clock : c.clock = c'.clock
  success : c'.success = true → c.success = true

theorem notBetter_budgetAfter (h : d.Valid) {calls calls' : List Call}
    (hcalls : List.Forall₂ WorseCall calls calls') :
    (budgetAfter d calls).NotBetter (budgetAfter d calls') := by
  have hfold : ∀ {b b' : ErrorBudget}, b.NotBetter b' → b.Bounded →
      (calls.foldl (fun b c => b.addMetric ⟨c.clock.recorded, c.success⟩ c.clock.evaluated)
        b).NotBetter
      (calls'.foldl (fun b c => b.addMetric ⟨c.clock.recorded, c.success⟩ c.clock.evaluated)
        b') := by
    induction hcalls with
    | nil => exact fun hb _ => hb
    | @cons c c' calls calls' hc _ ih =>
      intro b b' hb hbounded
      have hworse : Worse ⟨c.clock.recorded, c.success⟩ ⟨c.clock.recorded, c'.success⟩ :=
        ⟨rfl, hc.success⟩
      rw [List.foldl_cons, List.foldl_cons, ← hc.clock]
      exact ih (hb.addMetric hbounded.valid hworse _) (hbounded.addMetric _ _)
  exact hfold ⟨rfl, .nil, le_refl _⟩ ⟨h, by norm_num, le_refl _⟩

/-! ## Successes -/

theorem ErrorBudget.measured_calculateErrorBudget (b : ErrorBudget) (start now : ℚ) :
    (b.calculateErrorBudget start).measured now = b.measured now := by
  unfold ErrorBudget.measured
  rw [ErrorBudget.sloDefinition_calculateErrorBudget,
    ErrorBudget.metricsWindow_calculateErrorBudget]

theorem ErrorBudget.calculateErrorBudget_of_all {now : ℚ}
    (hzero : shortfall b.sloDefinition 100 = 0) (hne : b.measured now ≠ [])
    (hall : ∀ x ∈ b.measured now, x.success = true) :
    (b.calculateErrorBudget now).errorBudget = 100 := by
  have hwindow : b.metricsWindow ≠ [] := by
    intro hnil
    unfold ErrorBudget.measured at hne
    rw [hnil] at hne
    exact hne rfl
  unfold ErrorBudget.calculateErrorBudget
  rw [if_neg (by simpa using hwindow), if_neg (by simpa using hne)]
  dsimp only
  rw [successRate_eq_of_all hne hall, hzero]
  norm_num

theorem ErrorBudget.getBurnRate_of_all {now : ℚ} (hzero : shortfall b.sloDefinition 100 = 0)
    (hall : ∀ x ∈ b.lastHour now, x.success = true) : b.getBurnRate now = 0 := by
  unfold ErrorBudget.getBurnRate
  split_ifs with hlength hempty
  · rfl
  · rfl
  · rw [successRate_eq_of_all (by simpa using hempty) hall, hzero]

/-- With a target up to 100, successes leave all of the budget and burn nothing. -/
theorem ErrorBudget.Bounded.of_allSuccess (h : b.Bounded) (metric : SLOMetric) {clock : Clock}
    (htarget : b.sloDefinition.targetValue ≤ 100)
    (hall : AllSuccess (b.addMetric metric clock.evaluated) clock) :
    (b.addMetric metric clock.evaluated).errorBudget = 100 ∧
      (b.addMetric metric clock.evaluated).getBurnRate clock.burned = 0 := by
  have hzero := (shortfall_hundred_eq_zero_iff h.valid).mpr htarget
  obtain ⟨hne, hmeasured, hhour⟩ := hall
  constructor
  · unfold ErrorBudget.addMetric at hne hmeasured ⊢
    rw [ErrorBudget.measured_calculateErrorBudget] at hne hmeasured
    exact ErrorBudget.calculateErrorBudget_of_all hzero hne hmeasured
  · rw [← b.sloDefinition_addMetric metric clock.evaluated] at hzero
    exact ErrorBudget.getBurnRate_of_all hzero hhour

theorem alertLevel_zero {policy : ℚ} (h : 0 < policy) : alertLevel policy 0 = none := by
  unfold alertLevel
  split_ifs <;> first | rfl | linarith

/-- Without burn no alert is triggered. -/
theorem checkAlerts_eq_none {clock : Clock} (h : b.sloDefinition.Valid)
    (hburn : b.getBurnRate clock.burned = 0) : SLOManager.checkAlerts b clock = none := by
  unfold SLOManager.checkAlerts ErrorBudget.getStatus
  split_ifs
  · rfl
  · dsimp only
    rw [hburn, alertLevel_zero h.errorBudgetPolicy_pos]
    rfl

theorem sloDefinition_budgetAfter (d : SLODefinition) (calls : List Call) :
    (budgetAfter d calls).sloDefinition = d :=
  List.foldlRecOn (motive := fun b : ErrorBudget => b.sloDefinition = d) _ _ rfl fun b hb _ _ =>
    (b.sloDefinition_addMetric _ _).trans hb

theorem budgetAfter_append (calls : List Call) (c : Call) : budgetAfter d (calls ++ [c]) =
    (budgetAfter d calls).addMetric ⟨c.clock.recorded, c.success⟩ c.clock.evaluated := by
  unfold budgetAfter
  rw [List.foldl_append]
  rfl

/-- The laws hold if the target is at most 100. -/
theorem lawful_of_le (h : d.Valid) (htarget : d.targetValue ≤ 100) : Lawful d where
  bounded m calls b hb := by
    obtain rfl := Option.some.inj (hb.symm.trans (tracks_after m d calls).budget)
    have hbounded := bounded_budgetAfter h (calls.filter fun c => c.sloName = d.name)
    exact ⟨hbounded.nonneg, hbounded.le_hundred⟩
  healthy m calls c b hname hb hall := by
    have htracks := tracks_after m d calls
    have hb' := (tracks_after m d (calls ++ [c])).budget
    rw [List.filter_append, List.filter_cons_of_pos (by simpa using hname), List.filter_nil,
      budgetAfter_append] at hb'
    obtain rfl := Option.some.inj (hb.symm.trans hb')
    have hbounded := bounded_budgetAfter h (calls.filter fun c => c.sloName = d.name)
    have hdefinition := sloDefinition_budgetAfter d (calls.filter fun c => c.sloName = d.name)
    obtain ⟨hbudget, hburn⟩ := hbounded.of_allSuccess _ (by rwa [hdefinition]) hall
    refine ⟨hbudget, hburn, ?_⟩
    rw [htracks.recordMetric_eq hname]
    exact checkAlerts_eq_none (hbounded.addMetric _ _).valid hburn
  monotone m before c rest now b b' hb hb' := by
    obtain rfl := Option.some.inj (hb.symm.trans (tracks_after m d _).budget)
    obtain rfl := Option.some.inj (hb'.symm.trans (tracks_after m d _).budget)
    have hrefl : ∀ calls : List Call, List.Forall₂ WorseCall calls calls := fun calls =>
      List.forall₂_same.mpr fun c _ => ⟨rfl, rfl, id⟩
    have hcalls : List.Forall₂ WorseCall (before ++ c :: rest)
        (before ++ { c with success := false } :: rest) :=
      List.rel_append (hrefl before) (.cons ⟨rfl, rfl, fun hno => by cases hno⟩ (hrefl rest))
    have hworse := notBetter_budgetAfter h
      (List.rel_filter (p := fun c => c.sloName = d.name) (q := fun c => c.sloName = d.name)
        (fun c c' hc => by simp only [hc.sloName]) hcalls)
    exact ⟨hworse.errorBudget, hworse.getBurnRate_le (bounded_budgetAfter h _).valid now⟩

/-! ## Targets above 100 -/

/-- A success of the objective, at one time. -/
def successOf (d : SLODefinition) : Call where
  sloName := d.name
  success := true
  clock := ⟨0, 0, 0, 0, 0⟩

/-- The budget after one success. -/
theorem addMetric_success (h : d.Valid) :
    ErrorBudget.addMetric { sloDefinition := d } ⟨0, true⟩ 0 =
      { sloDefinition := d
        metricsWindow := [⟨0, true⟩]
        errorBudget := max 0 (100 - shortfall d 100 * 100) } := by
  have hsince : since [⟨0, true⟩] (0 - d.measurementWindow) = [⟨0, true⟩] := by
    refine List.filter_eq_self.mpr fun x hx => ?_
    obtain rfl := List.mem_singleton.mp hx
    simp
  have hrate : successRate [⟨0, true⟩] = 100 :=
    successRate_eq_of_all (by simp) fun x hx => by rw [List.mem_singleton.mp hx]
  unfold ErrorBudget.addMetric ErrorBudget.calculateErrorBudget ErrorBudget.measured
  dsimp only
  rw [push_nil h.evaluationWindow_pos, hsince, hrate]
  rfl

/-- A target above 100 is missed by the first success. -/
theorem not_lawful_of_lt (h : d.Valid) (htarget : 100 < d.targetValue) : ¬Lawful d := by
  intro hlawful
  have hshort : 0 < shortfall d 100 := lt_of_le_of_ne (shortfall_nonneg h 100)
    (Ne.symm (mt (shortfall_hundred_eq_zero_iff h).mp (not_le.mpr htarget)))
  have hb := (tracks_after {} d ([] ++ [successOf d])).budget
  rw [List.nil_append, List.filter_cons_of_pos (by simp [successOf]), List.filter_nil] at hb
  have hafter : budgetAfter d [successOf d] = _ := addMetric_success h
  rw [hafter] at hb
  have hmetric : ∀ {start : ℚ}, ∀ x ∈ since [⟨0, true⟩] start, x.success = true := by
    intro start x hx
    rw [List.mem_singleton.mp (List.mem_of_mem_filter hx)]
  obtain ⟨hbudget, -⟩ := hlawful.healthy {} [] (successOf d) _ rfl hb
    ⟨List.ne_nil_of_mem (List.mem_filter.mpr ⟨List.mem_singleton_self _, by simp [successOf]⟩),
      hmetric, hmetric⟩
  have hlt : max 0 (100 - shortfall d 100 * 100) < 100 :=
    max_lt (by norm_num) (by linarith)
  exact absurd hbudget hlt.ne

/-- The laws of an error budget hold exactly for the targets up to 100. -/
theorem lawful_iff_targetValue_le (d : ValidSLO) :
    Lawful d.toSLODefinition ↔ d.targetValue ≤ 100 :=
  ⟨fun h => not_lt.mp fun hlt => not_lawful_of_lt d.valid hlt h, lawful_of_le d.valid⟩

/-- Every default definition is valid. -/
theorem valid_of_mem_defaultSlos : ∀ d ∈ defaultSlos, d.Valid := by
  unfold defaultSlos apiLatencyP95
  simp only [List.forall_mem_cons]
  refine ⟨?_, ?_, ?_, ?_, ?_, ?_, ?_, by simp⟩ <;>
    exact ⟨by norm_num, by norm_num, by norm_num, by norm_num⟩

/-- The default objective for the latency of the API Gateway burns its budget with every
success. -/
theorem not_lawful_apiLatencyP95 : apiLatencyP95 ∈ defaultSlos ∧ ¬Lawful apiLatencyP95 := by
  have hmem : apiLatencyP95 ∈ defaultSlos := List.mem_cons_of_mem _ List.mem_cons_self
  exact ⟨hmem, not_lawful_of_lt (valid_of_mem_defaultSlos _ hmem) (by norm_num [apiLatencyP95])⟩

end SLO

end MultiAgent
