import Mathlib.Algebra.Order.Ring.Rat
import MultiAgent.Clients.RateLimiter
import MultiAgent.Lib.PyValue

/-!
# The quota enforcer of the clients

`QuotaEnforcer` of `libs/clients/rate_limiter.py`. The numeric limits of a plan and its
section `rate_limits` are items of one dictionary. The loop over the items subtracts the
usage from each of them, which raises at the section, and `check_quota` then allows the
request. So the limits that stand after the section are not checked, and the rate limits
never are (`not_soundQuota`). `soundQuota_iff` says for which plans the answer is right all
the same.
-/

namespace MultiAgent

namespace Clients

/-- The configuration of a scope. -/
abbrev ScopeConfig := Dict String ℤ

/-- An item of a plan : a limit, or the section of rate limits by scope. -/
inductive QuotaValue
  | number (limit : ℚ)
  | scopes (config : Dict String ScopeConfig)

/-- The item is a limit. -/
def QuotaValue.isNumber : QuotaValue → Bool
  | .number _ => true
  | .scopes _ => false

/-- The quotas of a plan : `rate_limits` is the section, and every other item a limit. -/
structure PlanQuotas where
  quotas : Dict String QuotaValue
  wellFormed : ∀ i ∈ quotas.items, i.1 = "rate_limits" ↔ i.2.isNumber = false

/-- A row of `usage_counters`. -/
structure UsageRow where
  tokensIn : Option ℤ
  tokensOut : Option ℤ
  toolCalls : Option ℤ
  wsMinutes : Option ℤ
  storageMb : Option ℤ

/-- What the database does with a query for one row. -/
inductive DbAnswer (α : Type)
  | raised
  | row (r : Option α)

/-- `_get_plan_quotas`. -/
def getPlanQuotas : DbAnswer PlanQuotas → Option PlanQuotas
  | .raised => none
  | .row r => r

/-- The dictionary of the five counters. -/
def usageDict (tokensIn tokensOut toolCalls wsMinutes storageMb : ℤ) : Dict String ℤ :=
  ((((Dict.empty.set "tokens_in" tokensIn).set "tokens_out" tokensOut).set "tool_calls"
    toolCalls).set "ws_minutes" wsMinutes).set "storage_mb" storageMb

/-- `_get_current_usage`. -/
def getCurrentUsage : DbAnswer UsageRow → Dict String ℤ
  | .raised => .empty
  | .row none => usageDict 0 0 0 0 0
  | .row (some r) =>
    usageDict (r.tokensIn.getD 0) (r.tokensOut.getD 0) (r.toolCalls.getD 0) (r.wsMinutes.getD 0)
      (r.storageMb.getD 0)

/-- `quota_info`. -/
inductive QuotaInfo
  | error (text : String)
  | info (plan scope usageType : String) (limits : PlanQuotas) (currentUsage : Dict String ℤ)
      (remaining : Dict String ℚ) (rateLimit : Option (Bool × ℤ × ℤ))

/-- The loop over the quota types : `remaining`, and whether a limit is reached. -/
def checkLimits (currentUsage : Dict String ℤ) :
    List (String × QuotaValue) → Dict String ℚ → Except PyError (Dict String ℚ × Bool)
  | [], remaining => .ok (remaining, false)
  | (_, .scopes _) :: _, _ => .error .typeError
  | (quotaType, .number limit) :: rest, remaining =>
    let current : ℚ := currentUsage.getD quotaType 0
    let remaining := remaining.set quotaType (max 0 (limit - current))
    if limit ≤ current then .ok (remaining, true) else checkLimits currentUsage rest remaining

/-- `plan_quotas.get("rate_limits", {}).get(scope, {})`. -/
def scopeConfig (plan : PlanQuotas) (scope : String) : Except PyError ScopeConfig :=
  match plan.quotas.get? "rate_limits" with
  | none => .ok .empty
  | some (.scopes config) => .ok (config.getD scope .empty)
  | some (.number _) => .error (.attributeError "get")

/-- The call of `is_allowed` for the configuration of a scope. -/
def scopeAllowed (redis : Redis) (redisUp : Bool) (tenantId plan scope : String)
    (config : ScopeConfig) (now : ℤ) : Redis × Bool × ℤ × ℤ :=
  isAllowed redis redisUp tenantId plan scope (config.getD "capacity" 1000)
    (config.getD "tokens_per_interval" 100) (config.getD "interval_seconds" 60) now

/-- `check_quota` after the database answered, inside the `try`. -/
def evaluateQuota (redis : Redis) (redisUp : Bool) (tenantId plan scope usageType : String)
    (planQuotas : PlanQuotas) (currentUsage : Dict String ℤ) (now : ℤ) :
    Except PyError (Redis × Bool × QuotaInfo) := do
  let (remaining, reached) ← checkLimits currentUsage planQuotas.quotas.items .empty
  let info := QuotaInfo.info plan scope usageType planQuotas currentUsage remaining
  if reached then return (redis, false, info none)
  let config ← scopeConfig planQuotas scope
  if config.items.isEmpty then return (redis, true, info none)
  let (redis, result) := scopeAllowed redis redisUp tenantId plan scope config now
  return (redis, result.1, info (some result))

/-- `check_quota` : Redis afterwards, the answer and the quota info. -/
def checkQuota (redis : Redis) (redisUp : Bool) (tenantId plan scope usageType : String)
    (planAnswer : DbAnswer PlanQuotas) (usageAnswer : DbAnswer UsageRow) (now : ℤ) :
    Redis × Bool × QuotaInfo :=
  match getPlanQuotas planAnswer with
  | none => (redis, false, .error "Plan not found")
  | some planQuotas =>
    if planQuotas.quotas.items.isEmpty then (redis, false, .error "Plan not found")
    else
      match evaluateQuota redis redisUp tenantId plan scope usageType planQuotas
          (getCurrentUsage usageAnswer) now with
      | .ok result => result
      | .error _ => (redis, true, .error "Quota check failed")

/-! ## What the answer should be -/

/-- A limit that the usage has reached. -/
def Reached (currentUsage : Dict String ℤ) (i : String × QuotaValue) : Prop :=
  ∃ limit, i.2 = .number limit ∧ limit ≤ (currentUsage.getD i.1 0 : ℤ)

/-- Every numeric limit is strictly above the usage of its kind. -/
def BelowLimits (plan : PlanQuotas) (currentUsage : Dict String ℤ) : Prop :=
  ∀ i ∈ plan.quotas.items, ¬Reached currentUsage i

/-- If `rate_limits` configures the scope, its bucket admits the call. -/
def BucketAdmits (redis : Redis) (tenantId plan scope : String) (planQuotas : PlanQuotas)
    (now : ℤ) : Prop :=
  ∀ scopes config, planQuotas.quotas.get? "rate_limits" = some (.scopes scopes) →
    scopes.get? scope = some config → config.items ≠ [] →
      (scopeAllowed redis true tenantId plan scope config now).2.1 = true

/-- With the database and Redis up, the request is allowed exactly if the limits and the
bucket say so. -/
def SoundQuota (redis : Redis) (tenantId plan scope usageType : String) (planQuotas : PlanQuotas)
    (usage : Option UsageRow) (now : ℤ) : Prop :=
  (checkQuota redis true tenantId plan scope usageType (.row (some planQuotas)) (.row usage)
    now).2.1 = true ↔
  BelowLimits planQuotas (getCurrentUsage (.row usage)) ∧
    BucketAdmits redis tenantId plan scope planQuotas now

/-- The limits that stand before the section. -/
def beforeSection (plan : PlanQuotas) : List (String × QuotaValue) :=
  plan.quotas.items.takeWhile fun i => decide (i.1 ≠ "rate_limits")

/-! ## What the answer is -/

section Loop

variable {plan : PlanQuotas} {currentUsage : Dict String ℤ}

/-- A prefix of limits ends the loop if one of them is reached, and is passed otherwise. -/
theorem checkLimits_append (currentUsage : Dict String ℤ) {pre : List (String × QuotaValue)}
    (rest : List (String × QuotaValue)) (hpre : ∀ i ∈ pre, i.2.isNumber = true)
    (remaining : Dict String ℚ) :
    (∃ i ∈ pre, Reached currentUsage i) ∧
      (∃ r, checkLimits currentUsage (pre ++ rest) remaining = .ok (r, true)) ∨
    (∀ i ∈ pre, ¬Reached currentUsage i) ∧
      ∃ r, checkLimits currentUsage (pre ++ rest) remaining = checkLimits currentUsage rest r := by
  induction pre generalizing remaining with
  | nil => exact Or.inr ⟨by simp, remaining, rfl⟩
  | cons i pre ih =>
    obtain ⟨quotaType, value⟩ := i
    cases value with
    | scopes config => simpa [QuotaValue.isNumber] using hpre _ List.mem_cons_self
    | number limit =>
      rw [List.cons_append, checkLimits]
      by_cases hlimit : limit ≤ (currentUsage.getD quotaType 0 : ℤ)
      · exact Or.inl ⟨⟨_, List.mem_cons_self, limit, rfl, hlimit⟩, _, if_pos hlimit⟩
      · have hnot : ¬Reached currentUsage (quotaType, .number limit) := by
          rintro ⟨l, hl, hle⟩
          cases hl
          exact hlimit hle
        rw [if_neg hlimit]
        rcases ih (fun i hi => hpre i (List.mem_cons_of_mem _ hi))
          (remaining.set quotaType (max 0 (limit - (currentUsage.getD quotaType 0 : ℤ)))) with
          ⟨⟨i, hi, hreached⟩, hok⟩ | ⟨hall, hrest⟩
        · exact Or.inl ⟨⟨i, List.mem_cons_of_mem _ hi, hreached⟩, hok⟩
        · refine Or.inr ⟨fun i hi => ?_, hrest⟩
          rcases List.mem_cons.mp hi with rfl | hi
          · exact hnot
          · exact hall i hi

theorem isNumber_of_mem_beforeSection {i : String × QuotaValue} (hi : i ∈ beforeSection plan) :
    i.2.isNumber = true := by
  have hkey : i.1 ≠ "rate_limits" := by simpa using List.mem_takeWhile_imp hi
  have hmem := List.takeWhile_subset _ hi
  have hwf := plan.wellFormed i hmem
  by_contra hnot
  exact hkey (hwf.mpr (by simpa using hnot))

/-- After the limits before the section comes the section, if the plan has one. -/
theorem items_eq_beforeSection_append (plan : PlanQuotas) :
    ("rate_limits" ∉ plan.quotas ∧ plan.quotas.items = beforeSection plan ++ []) ∨
    ("rate_limits" ∈ plan.quotas ∧ ∃ config post, plan.quotas.items =
      beforeSection plan ++ ("rate_limits", .scopes config) :: post) := by
  have hsplit := List.takeWhile_append_dropWhile
    (p := fun i : String × QuotaValue => decide (i.1 ≠ "rate_limits")) (l := plan.quotas.items)
  cases hdrop : plan.quotas.items.dropWhile fun i => decide (i.1 ≠ "rate_limits") with
  | nil =>
    rw [hdrop] at hsplit
    refine Or.inl ⟨fun hmem => ?_, hsplit.symm⟩
    obtain ⟨i, hi, hkey⟩ := List.mem_map.mp (Dict.mem_def.mp hmem)
    rw [← hsplit, List.append_nil] at hi
    have hne : i.1 ≠ "rate_limits" := by simpa using List.mem_takeWhile_imp hi
    exact hne hkey
  | cons i post =>
    have hhead : i.1 = "rate_limits" := by
      have hnot := List.head?_dropWhile_not
        (fun i : String × QuotaValue => decide (i.1 ≠ "rate_limits")) plan.quotas.items
      rw [hdrop] at hnot
      simpa using hnot
    rw [hdrop] at hsplit
    have hmem : i ∈ plan.quotas.items := by
      rw [← hsplit]
      simp
    obtain ⟨key, value⟩ := i
    obtain rfl : key = "rate_limits" := hhead
    have hwf := (plan.wellFormed _ hmem).mp rfl
    cases value with
    | number limit => cases hwf
    | scopes config =>
      exact Or.inr ⟨Dict.mem_def.mpr (List.mem_map_of_mem hmem), config, post, hsplit.symm⟩

end Loop

section Answer

variable (redis : Redis) (tenantId plan scope usageType : String) (planQuotas : PlanQuotas)
  (usage : Option UsageRow) (now : ℤ)

/-- A plan without quotas is taken for a missing plan. -/
theorem checkQuota_of_empty (h : planQuotas.quotas.items = []) :
    (checkQuota redis true tenantId plan scope usageType (.row (some planQuotas)) (.row usage)
      now).2.1 = false := by
  simp [checkQuota, getPlanQuotas, h]

/-- The limits before the section decide, where what comes after them lets the request pass. -/
theorem checkQuota_iff_not_reached {rest : List (String × QuotaValue)}
    (hitems : planQuotas.quotas.items = beforeSection planQuotas ++ rest)
    (hempty : planQuotas.quotas.items.isEmpty = false)
    (hrest : ∀ r, checkLimits (getCurrentUsage (.row usage)) planQuotas.quotas.items .empty =
      checkLimits (getCurrentUsage (.row usage)) rest r →
        (checkQuota redis true tenantId plan scope usageType (.row (some planQuotas)) (.row usage)
          now).2.1 = true) :
    (checkQuota redis true tenantId plan scope usageType (.row (some planQuotas)) (.row usage)
      now).2.1 = true ↔
        ∀ i ∈ beforeSection planQuotas, ¬Reached (getCurrentUsage (.row usage)) i := by
  rcases checkLimits_append (getCurrentUsage (.row usage)) rest
    (fun i hi => isNumber_of_mem_beforeSection hi) .empty with
    ⟨⟨i, hi, hreached⟩, r, hr⟩ | ⟨hall, r, hr⟩
  · rw [← hitems] at hr
    refine iff_of_false ?_ fun hall => hall i hi hreached
    simp [checkQuota, getPlanQuotas, hempty, evaluateQuota, hr, pure, Except.pure]
  · rw [← hitems] at hr
    exact iff_of_true (hrest r hr) hall

/-- Without the section the answer is right. -/
theorem checkQuota_of_not_mem (hne : planQuotas.quotas.items ≠ [])
    (hsection : "rate_limits" ∉ planQuotas.quotas) :
    (checkQuota redis true tenantId plan scope usageType (.row (some planQuotas)) (.row usage)
      now).2.1 = true ↔ BelowLimits planQuotas (getCurrentUsage (.row usage)) := by
  have hitems : planQuotas.quotas.items = beforeSection planQuotas ++ [] := by
    rcases items_eq_beforeSection_append planQuotas with ⟨-, h⟩ | ⟨hmem, -⟩
    · exact h
    · exact absurd hmem hsection
  have hconfig : scopeConfig planQuotas scope = .ok .empty := by
    rw [scopeConfig, Dict.get?_eq_none.mpr hsection]
  have hempty : planQuotas.quotas.items.isEmpty = false := by simpa using hne
  have hbelow : BelowLimits planQuotas (getCurrentUsage (.row usage)) ↔
      ∀ i ∈ beforeSection planQuotas, ¬Reached (getCurrentUsage (.row usage)) i := by
    rw [BelowLimits, hitems, List.append_nil]
  rw [hbelow]
  refine checkQuota_iff_not_reached redis tenantId plan scope usageType planQuotas usage now
    hitems hempty fun r hr => ?_
  rw [checkLimits] at hr
  simp [checkQuota, getPlanQuotas, hempty, evaluateQuota, hr, hconfig, pure, Except.pure]

/-- With the section the request is allowed unless a limit before it is reached. -/
theorem checkQuota_of_mem (hsection : "rate_limits" ∈ planQuotas.quotas) :
    (checkQuota redis true tenantId plan scope usageType (.row (some planQuotas)) (.row usage)
      now).2.1 = true ↔
        ∀ i ∈ beforeSection planQuotas, ¬Reached (getCurrentUsage (.row usage)) i := by
  obtain ⟨config, post, hitems⟩ : ∃ config post, planQuotas.quotas.items =
      beforeSection planQuotas ++ ("rate_limits", .scopes config) :: post := by
    rcases items_eq_beforeSection_append planQuotas with ⟨hnot, -⟩ | ⟨-, h⟩
    · exact absurd hsection hnot
    · exact h
  have hempty : planQuotas.quotas.items.isEmpty = false := by simp [hitems]
  refine checkQuota_iff_not_reached redis tenantId plan scope usageType planQuotas usage now
    hitems hempty fun r hr => ?_
  rw [checkLimits] at hr
  simp [checkQuota, getPlanQuotas, hempty, evaluateQuota, hr, Bind.bind, Except.bind]

end Answer

/-- The answer is right exactly for the plans that are not empty and have no section
`rate_limits`, or have a limit before it that is reached, or should be allowed. -/
theorem soundQuota_iff (redis : Redis) (tenantId plan scope usageType : String)
    (planQuotas : PlanQuotas) (usage : Option UsageRow) (now : ℤ) :
    SoundQuota redis tenantId plan scope usageType planQuotas usage now ↔
      planQuotas.quotas.items ≠ [] ∧
        ("rate_limits" ∉ planQuotas.quotas ∨
          (∃ i ∈ beforeSection planQuotas, Reached (getCurrentUsage (.row usage)) i) ∨
          BelowLimits planQuotas (getCurrentUsage (.row usage)) ∧
            BucketAdmits redis tenantId plan scope planQuotas now) := by
  unfold SoundQuota
  by_cases hne : planQuotas.quotas.items = []
  · have hbelow : BelowLimits planQuotas (getCurrentUsage (.row usage)) := by
      simp [BelowLimits, hne]
    have hadmits : BucketAdmits redis tenantId plan scope planQuotas now := by
      intro scopes config hget
      rw [← Dict.mem_items, hne] at hget
      cases hget
    rw [checkQuota_of_empty redis tenantId plan scope usageType planQuotas usage now hne]
    simp [hne, hbelow, hadmits]
  · by_cases hsection : "rate_limits" ∈ planQuotas.quotas
    · have hbefore : BelowLimits planQuotas (getCurrentUsage (.row usage)) →
          ∀ i ∈ beforeSection planQuotas, ¬Reached (getCurrentUsage (.row usage)) i :=
        fun h i hi => h i (List.takeWhile_subset _ hi)
      rw [checkQuota_of_mem redis tenantId plan scope usageType planQuotas usage now hsection]
      simp only [ne_eq, hne, not_false_eq_true, hsection, not_true_eq_false, false_or, true_and]
      constructor
      · intro h
        by_cases hall : ∀ i ∈ beforeSection planQuotas,
            ¬Reached (getCurrentUsage (.row usage)) i
        · exact Or.inr (h.mp hall)
        · push Not at hall
          exact Or.inl hall
      · rintro (⟨i, hi, hreached⟩ | hright)
        · exact iff_of_false (fun hall => hall i hi hreached)
            fun hright => hbefore hright.1 i hi hreached
        · exact iff_of_true (hbefore hright.1) hright
    · have hadmits : BucketAdmits redis tenantId plan scope planQuotas now := by
        intro scopes config hget
        exact absurd (Dict.mem_of_get? hget) hsection
      rw [checkQuota_of_not_mem redis tenantId plan scope usageType planQuotas usage now hne
        hsection]
      simp [hne, hsection, hadmits]

/-- One call a minute. -/
def apiConfig : ScopeConfig :=
  ((Dict.empty.set "capacity" 1).set "tokens_per_interval" 1).set "interval_seconds" 60

/-- A plan of one limit and one rate limit. -/
def apiPlan : PlanQuotas where
  quotas := (Dict.empty.set "tokens_in" (.number 1000)).set "rate_limits"
    (.scopes (Dict.empty.set "api" apiConfig))
  wellFormed := by decide

/-- The bucket of the scope is empty, and the request is allowed. -/
theorem not_soundQuota : ¬∀ redis tenantId plan scope usageType planQuotas usage now,
    SoundQuota redis tenantId plan scope usageType planQuotas usage now := by
  intro h
  have hsound := h (Dict.empty.set (bucketKey "t" "pro" "api") ⟨0, 0, 3600⟩) "t" "pro" "api"
    "api_calls" apiPlan none 1
  have hanswer : (checkQuota (Dict.empty.set (bucketKey "t" "pro" "api") ⟨0, 0, 3600⟩) true "t"
      "pro" "api" "api_calls" (.row (some apiPlan)) (.row none) 1).2.1 = true := by
    decide +kernel
  have hadmits := (hsound.mp hanswer).2 (Dict.empty.set "api" apiConfig) apiConfig rfl rfl
    (by decide)
  exact absurd hadmits (by decide +kernel)

end Clients

end MultiAgent
