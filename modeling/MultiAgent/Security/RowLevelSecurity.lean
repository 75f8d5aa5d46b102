import MultiAgent.Lib.Machine
import MultiAgent.Lib.Dict

/-!
# Tenant contexts of the row level security

`RLSManager` of `row_level_security.py`. The application sets the context of a tenant with
`set_tenant_context`, and `validate_tenant_access` reads it. But `enforce_tenant_isolation`,
`get_tenant_data_count` and `cleanup_tenant_data` set a context of their own in the same
table, each with its own access level, and none puts the former one back. The calls of the
database are outside : an operation comes with the call of it that raises, if one does.

A stored context is the last one that anybody stored for its tenant (`lastStored`). The
first two operations store `READ`, so they grant nothing; `cleanup_tenant_data` stores
`ADMIN`. Cross-tenant access is granted throughout a run by contexts of the application only,
exactly when no check of another tenant's resource finds a context that a cleanup left
(`crossTenant_run_iff`).
-/

namespace MultiAgent

namespace RowLevelSecurity

/-- Tenant access levels. -/
inductive TenantAccessLevel
  | read
  | write
  | admin
  | owner
  deriving DecidableEq

/-- Tenant context, with what the functions below read of it. -/
structure TenantContext where
  tenantId : String
  userId : Option String := none
  accessLevel : TenantAccessLevel := .read
  dataRegion : Option String := none
  deriving DecidableEq

/-- The access level is one of `ADMIN` and `OWNER`. -/
def TenantContext.crossesTenants (c : TenantContext) : Bool :=
  c.accessLevel = .admin ∨ c.accessLevel = .owner

/-- The manager. -/
structure RLSManager where
  tenantContexts : Dict String TenantContext := .empty

/-- The first `calls` calls of an operation return. `raises` is the number of the call that
raises, counted from zero. -/
def returned (raises : Option ℕ) (calls : ℕ) : Bool :=
  match raises with
  | none => true
  | some k => calls ≤ k

/-- `bool(value)`. -/
def given (value : Option String) : Bool :=
  match value with
  | none => false
  | some s => s ≠ ""

namespace RLSManager

variable (s : RLSManager)

/-- How many settings of the session a context has. -/
def settings (c : TenantContext) : ℕ :=
  1 + (if given c.userId then 1 else 0) + if given c.dataRegion then 1 else 0

/-- `set_tenant_context`, and whether it returns. -/
def setTenantContext (c : TenantContext) (raises : Option ℕ) : RLSManager × Bool :=
  if returned raises (settings c) then
    ({ s with tenantContexts := s.tenantContexts.set c.tenantId c }, true)
  else (s, false)

/-- `validate_tenant_access`. The required access is not looked at. -/
def validateTenantAccess (tenantId resourceTenantId : String) : Bool :=
  if tenantId = resourceTenantId then true
  else
    match s.tenantContexts.get? tenantId with
    | some c => c.crossesTenants
    | none => false

/-- What an operation does under a context of its own : store it, then make calls of the
database. The result says whether all of it returns. -/
def underContext (c : TenantContext) (calls : ℕ) (raises : Option ℕ) : RLSManager × Bool :=
  let r := s.setTenantContext c raises
  (r.1, r.2 && returned raises (settings c + calls))

/-- The context of `enforce_tenant_isolation`. -/
def isolationContext (tenantId : String) : TenantContext :=
  { tenantId, accessLevel := .read }

/-- The context of `get_tenant_data_count`. -/
def countContext (tenantId : String) : TenantContext :=
  { tenantId }

/-- The context of `cleanup_tenant_data`. -/
def cleanupContext (tenantId : String) : TenantContext :=
  { tenantId, accessLevel := .admin }

/-- `enforce_tenant_isolation` : the query; else its exception. -/
def enforceTenantIsolation (tenantId : String) (raises : Option ℕ) : RLSManager × Bool :=
  s.underContext (isolationContext tenantId) 1 raises

/-- `get_tenant_data_count` : `SELECT` and `scalar`; else 0. -/
def getTenantDataCount (tenantId : String) (count : Option ℕ) (raises : Option ℕ) :
    RLSManager × ℕ :=
  let r := s.underContext (countContext tenantId) 2 raises
  (r.1, if r.2 then count.getD 0 else 0)

/-- `cleanup_tenant_data` : `DELETE` and `commit`; else `rollback` and the exception. -/
def cleanupTenantData (tenantId : String) (deleted : ℕ) (raises : Option ℕ) :
    RLSManager × Option ℕ :=
  let r := s.underContext (cleanupContext tenantId) 2 raises
  (r.1, if r.2 then some deleted else none)

end RLSManager

/-- A call of the application. -/
inductive RLSCall
  | setTenantContext (context : TenantContext) (raises : Option ℕ)
  | enforceTenantIsolation (tenantId : String) (raises : Option ℕ)
  | getTenantDataCount (tenantId : String) (count : Option ℕ) (raises : Option ℕ)
  | cleanupTenantData (tenantId : String) (deleted : ℕ) (raises : Option ℕ)
  | validateTenantAccess (tenantId resourceTenantId : String)

/-- Who stored a context. -/
inductive Setter
  | application
  | isolation
  | count
  | cleanup
  deriving DecidableEq

/-- An answer of `validate_tenant_access`, with the context that the application set last for
the tenant before. -/
structure Answer where
  tenantId : String
  resourceTenantId : String
  lastSet : Option TenantContext
  granted : Bool

/-- A manager with its history : the contexts that were stored and the answers that were
given, newest first. -/
structure RLSHistory where
  manager : RLSManager := {}
  stored : List (Setter × TenantContext) := []
  answers : List Answer := []

namespace RLSHistory

variable (s : RLSHistory)

/-- The context stored last for a tenant, and who stored it. -/
def lastStored (tenantId : String) : Option (Setter × TenantContext) :=
  s.stored.find? fun x => x.2.tenantId = tenantId

/-- The context that the application set last for a tenant. -/
def lastSet (tenantId : String) : Option TenantContext :=
  (s.stored.find? fun x => x.1 = .application ∧ x.2.tenantId = tenantId).map Prod.snd

/-- The state after an operation that ends in `manager` and stores a context unless the
setting of it raises. -/
def after (setter : Setter) (c : TenantContext) (raises : Option ℕ) (manager : RLSManager) :
    RLSHistory :=
  { s with
    manager
    stored :=
      if returned raises (RLSManager.settings c) then (setter, c) :: s.stored else s.stored }

/-- One call. -/
def step : RLSCall → Option RLSHistory
  | .setTenantContext c raises =>
    some (s.after .application c raises (s.manager.setTenantContext c raises).1)
  | .enforceTenantIsolation tenantId raises =>
    some (s.after .isolation (RLSManager.isolationContext tenantId) raises
      (s.manager.enforceTenantIsolation tenantId raises).1)
  | .getTenantDataCount tenantId count raises =>
    some (s.after .count (RLSManager.countContext tenantId) raises
      (s.manager.getTenantDataCount tenantId count raises).1)
  | .cleanupTenantData tenantId deleted raises =>
    some (s.after .cleanup (RLSManager.cleanupContext tenantId) raises
      (s.manager.cleanupTenantData tenantId deleted raises).1)
  | .validateTenantAccess tenantId resourceTenantId =>
    some { s with
      answers := ⟨tenantId, resourceTenantId, s.lastSet tenantId,
        s.manager.validateTenantAccess tenantId resourceTenantId⟩ :: s.answers }

/-- Where access to the resource of another tenant was granted, the context that the
application had set last for the tenant grants it. -/
def Authorised : Prop :=
  ∀ a ∈ s.answers, a.tenantId ≠ a.resourceTenantId → a.granted = true →
    a.lastSet.any TenantContext.crossesTenants = true

/-- A check of another tenant's resource does not find a context that a cleanup left, but for
a tenant whose own context grants the access. -/
def NotLeftByCleanup : RLSCall → Prop
  | .validateTenantAccess tenantId resourceTenantId =>
    tenantId ≠ resourceTenantId → (s.lastStored tenantId).map Prod.fst = some .cleanup →
      (s.lastSet tenantId).any TenantContext.crossesTenants = true
  | _ => True

instance (e : RLSCall) : Decidable (s.NotLeftByCleanup e) :=
  match e with
  | .validateTenantAccess tenantId resourceTenantId =>
    inferInstanceAs (Decidable (tenantId ≠ resourceTenantId →
      (s.lastStored tenantId).map Prod.fst = some .cleanup →
        (s.lastSet tenantId).any TenantContext.crossesTenants = true))
  | .setTenantContext _ _ => isTrue trivial
  | .enforceTenantIsolation _ _ => isTrue trivial
  | .getTenantDataCount _ _ _ => isTrue trivial
  | .cleanupTenantData _ _ _ => isTrue trivial

/-! ## What the table holds -/

/-- The access level that a setter's own contexts have. -/
def levelOf : Setter → Option TenantAccessLevel
  | .application => none
  | .isolation => some .read
  | .count => some .read
  | .cleanup => some .admin

/-- The table holds the contexts stored last, and each setter but the application stores its
own level. -/
structure Recorded : Prop where
  table : ∀ t, s.manager.tenantContexts.get? t = (s.lastStored t).map Prod.snd
  level : ∀ x ∈ s.stored, ∀ l, levelOf x.1 = some l → x.2.accessLevel = l

variable {s} {t : RLSHistory} {e : RLSCall}

theorem lastStored_tenantId {t : String} {x : Setter × TenantContext}
    (h : s.lastStored t = some x) : x ∈ s.stored ∧ x.2.tenantId = t :=
  ⟨List.mem_of_find?_eq_some h, by simpa using List.find?_some h⟩

/-- A context of the application that is stored last for its tenant was set last. -/
theorem lastSet_of_lastStored {t : String} {c : TenantContext}
    (h : s.lastStored t = some (.application, c)) : s.lastSet t = some c := by
  unfold lastStored at h
  obtain ⟨-, before, rest, hstored, hbefore⟩ := List.find?_eq_some_iff_append.mp h
  have hc : c.tenantId = t := (lastStored_tenantId h).2
  unfold lastSet
  rw [hstored, List.find?_append, List.find?_eq_none.mpr, Option.none_or,
    List.find?_cons_of_pos (by simp [hc]), Option.map_some]
  intro x hx
  have hne := hbefore x hx
  simp only [Bool.not_eq_true', decide_eq_false_iff_not] at hne
  simp [hne]

theorem Recorded.after (h : s.Recorded) {setter : Setter} {c : TenantContext}
    (hlevel : ∀ l, levelOf setter = some l → c.accessLevel = l) (raises : Option ℕ) :
    (s.after setter c raises (s.manager.setTenantContext c raises).1).Recorded := by
  unfold RLSHistory.after RLSManager.setTenantContext
  by_cases hset : returned raises (RLSManager.settings c) = true
  · simp only [hset, if_true]
    refine ⟨fun t => ?_, ?_⟩
    · rw [Dict.get?_set, lastStored, List.find?_cons]
      by_cases ht : t = c.tenantId
      · simp [ht]
      · have hold := h.table t
        simpa [ht, Ne.symm ht, lastStored] using hold
    · rintro x (_ | ⟨_, hx⟩)
      · exact hlevel
      · exact h.level x hx
  · simp only [hset]
    exact ⟨h.table, h.level⟩

theorem Recorded.step (h : s.Recorded) (hst : s.step e = some t) : t.Recorded := by
  cases e with
  | setTenantContext c raises =>
    obtain rfl := Option.some.inj hst
    exact h.after (fun _ hl => by cases hl) raises
  | enforceTenantIsolation tenantId raises =>
    obtain rfl := Option.some.inj hst
    exact h.after (fun _ hl => by cases hl; rfl) raises
  | getTenantDataCount tenantId count raises =>
    obtain rfl := Option.some.inj hst
    exact h.after (fun _ hl => by cases hl; rfl) raises
  | cleanupTenantData tenantId deleted raises =>
    obtain rfl := Option.some.inj hst
    exact h.after (fun _ hl => by cases hl; rfl) raises
  | validateTenantAccess tenantId resourceTenantId =>
    obtain rfl := Option.some.inj hst
    exact ⟨h.table, h.level⟩

/-! ## Checks -/

/-- A check of another tenant's resource grants what the context stored last does. -/
theorem Recorded.validateTenantAccess (h : s.Recorded) {t r : String} (hne : t ≠ r) :
    s.manager.validateTenantAccess t r =
      (s.lastStored t).any fun x => x.2.crossesTenants := by
  unfold RLSManager.validateTenantAccess
  rw [if_neg hne, h.table t]
  cases s.lastStored t <;> rfl

/-- A check is in order exactly when what it finds was not left by a cleanup. -/
theorem Recorded.authorised_iff (h : s.Recorded) {t r : String} (hne : t ≠ r) :
    (s.manager.validateTenantAccess t r = true →
        (s.lastSet t).any TenantContext.crossesTenants = true) ↔
      ((s.lastStored t).map Prod.fst = some .cleanup →
        (s.lastSet t).any TenantContext.crossesTenants = true) := by
  rw [h.validateTenantAccess hne]
  cases hlast : s.lastStored t with
  | none => simp
  | some x =>
    obtain ⟨setter, c⟩ := x
    have hlevel := h.level _ (lastStored_tenantId hlast).1
    cases setter with
    | application => simp [lastSet_of_lastStored hlast]
    | isolation =>
      have hc : c.accessLevel = .read := hlevel _ rfl
      simp [TenantContext.crossesTenants, hc]
    | count =>
      have hc : c.accessLevel = .read := hlevel _ rfl
      simp [TenantContext.crossesTenants, hc]
    | cleanup =>
      have hc : c.accessLevel = .admin := hlevel _ rfl
      simp [TenantContext.crossesTenants, hc]

theorem authorised_step_iff (h : s.Recorded) (hst : s.step e = some t) :
    t.Authorised ↔ s.Authorised ∧ s.NotLeftByCleanup e := by
  cases e with
  | validateTenantAccess tenantId resourceTenantId =>
    obtain rfl := Option.some.inj hst
    refine (List.forall_mem_cons).trans (and_comm.trans (and_congr_right fun _ => ?_))
    exact forall_congr' fun hne => h.authorised_iff hne
  | setTenantContext c raises =>
    obtain rfl := Option.some.inj hst
    exact (and_iff_left trivial).symm
  | enforceTenantIsolation tenantId raises =>
    obtain rfl := Option.some.inj hst
    exact (and_iff_left trivial).symm
  | getTenantDataCount tenantId count raises =>
    obtain rfl := Option.some.inj hst
    exact (and_iff_left trivial).symm
  | cleanupTenantData tenantId deleted raises =>
    obtain rfl := Option.some.inj hst
    exact (and_iff_left trivial).symm

end RLSHistory

/-- A new manager. -/
def rlsMachine : Machine RLSHistory RLSCall where
  init := {}
  step := RLSHistory.step

/-- Access to the resources of other tenants is granted in a run by contexts of the
application only, exactly when no check in it finds a context that a cleanup left. -/
theorem crossTenant_run_iff {es : List RLSCall} {s : RLSHistory}
    (h : rlsMachine.Run (fun _ _ => True) es s) :
    s.Authorised ↔ rlsMachine.Run RLSHistory.NotLeftByCleanup es s := by
  have hinit : rlsMachine.init.Recorded ∧ rlsMachine.init.Authorised :=
    ⟨⟨fun _ => rfl, fun x hx => absurd hx List.not_mem_nil⟩,
      fun a ha => absurd ha List.not_mem_nil⟩
  exact h.iff_run hinit (fun _ _ _ hs hst => hs.step hst)
    fun _ _ _ hs hst => RLSHistory.authorised_step_iff hs hst

/-- An owner looks at another tenant, once its context is set and once more after a cleanup. -/
theorem crossTenant_run_owner : ∃ s, s.Authorised ↔ rlsMachine.Run RLSHistory.NotLeftByCleanup
    [.setTenantContext { tenantId := "acme", accessLevel := .owner } none,
      .validateTenantAccess "acme" "globex", .cleanupTenantData "acme" 3 none,
      .validateTenantAccess "acme" "globex"] s := by
  obtain ⟨s, hrun, -⟩ := rlsMachine.exists_run (fun _ _ => True)
    [.setTenantContext { tenantId := "acme", accessLevel := .owner } none,
      .validateTenantAccess "acme" "globex", .cleanupTenantData "acme" 3 none,
      .validateTenantAccess "acme" "globex"] (fun s => s.answers.length = 2) (by decide +kernel)
  exact ⟨s, crossTenant_run_iff hrun⟩

/-- After a cleanup a tenant that may only read gets at the resources of another one. -/
theorem not_crossTenant : ¬∀ (es : List RLSCall) (s : RLSHistory),
    rlsMachine.Run (fun _ _ => True) es s → s.Authorised := by
  intro hall
  obtain ⟨s, hrun, hgranted⟩ := rlsMachine.exists_run (fun _ _ => True)
    [.setTenantContext { tenantId := "acme" } none, .cleanupTenantData "acme" 3 none,
      .validateTenantAccess "acme" "globex"]
    (fun s => decide (∃ a ∈ s.answers, a.tenantId ≠ a.resourceTenantId ∧ a.granted = true ∧
      a.lastSet.any TenantContext.crossesTenants = false)) (by decide +kernel)
  obtain ⟨a, ha, hne, hyes, hno⟩ := of_decide_eq_true hgranted
  exact Bool.false_ne_true (hno.symm.trans (hall _ s hrun a ha hne hyes))

end RowLevelSecurity

end MultiAgent
