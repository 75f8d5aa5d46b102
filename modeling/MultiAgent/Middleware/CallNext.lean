import MultiAgent.Middleware.PrivacyResponse

/-!
# How often a middleware calls the application

`__call__` of `PrivacyMiddleware` and of `RegionalMiddleware`
(`libs/middleware/privacy_middleware.py` and `regional_middleware.py`). In both the call of
`call_next` stands in the `try` block whose handler calls `call_next` again, so an exception
of the application itself has it called a second time. What is meant for requests that the
middleware could not prepare also happens to those it did (`invokedOnce_iff`).

The handlers catch an `Exception`. A cancellation is none, and is passed on.
-/

namespace MultiAgent

namespace Privacy

/-- What a call raises : an `Exception`, or what is none. -/
inductive Raised
  | exception
  | cancelled
  deriving DecidableEq

/-- A computation of a middleware. The state is the number of calls of `call_next`. -/
abbrev Serving :=
  ExceptT Raised (StateM ℕ)

/-- How often `call_next` is called. -/
def invocations {α : Type} (serving : Serving α) : ℕ :=
  (serving.run.run 0).2

/-- `call_next(request)` : what the application does when it is called for the `k`-th time. -/
def callNext {α : Type} (app : ℕ → Except Raised α) : Serving α := do
  let k ← get
  set (k + 1)
  liftM (app k)

/-- `try` with a handler for `Exception`. -/
def exceptException {α : Type} (body handler : Serving α) : Serving α :=
  tryCatch body fun
    | .exception => handler
    | .cancelled => throw .cancelled

section Runs

variable {α β : Type} (k : ℕ)

theorem run_bind (x : Serving α) (f : α → Serving β) :
    (x >>= f).run.run k =
      match x.run.run k with
      | (.error e, k') => (.error e, k')
      | (.ok a, k') => (f a).run.run k' := by
  rw [ExceptT.run_bind, StateT.run_bind]
  rcases x.run.run k with ⟨_ | _, k'⟩ <;> rfl

theorem run_liftM (x : Except Raised α) : (liftM x : Serving α).run.run k = (x, k) := by
  cases x <;> rfl

theorem run_callNext (app : ℕ → Except Raised α) :
    (callNext app).run.run k = (app k, k + 1) := by
  rw [callNext, run_bind]
  exact run_liftM (k + 1) (app k)

theorem run_exceptException (body handler : Serving α) :
    (exceptException body handler).run.run k =
      match body.run.run k with
      | (.error .exception, k') => handler.run.run k'
      | (.error .cancelled, k') => (.error .cancelled, k')
      | (.ok a, k') => (.ok a, k') := by
  rw [exceptException, ExceptT.run_tryCatch, StateT.run_bind]
  rcases body.run.run k with ⟨(_ | _) | _, k'⟩ <;> rfl

/-- A call of the application, and what is made of its response. -/
theorem run_callNext_bind (app : ℕ → Except Raised α) (f : α → β) :
    (callNext app >>= fun a => (return f a : Serving β)).run.run k = ((app k).map f, k + 1) := by
  rw [run_bind, run_callNext]
  cases app k <;> rfl

end Runs

/-! ## The privacy middleware -/

namespace PrivacyMiddleware

/-- `__call__`, for the header `X-Tenant-ID` : the response of the application, and what is
returned for it. `_apply_privacy_protection` and `_update_stats` catch what they raise. -/
def call (m : PrivacyMiddleware) (json : JsonLoads) (tenantHeader : Option Text)
    (app : ℕ → Except Raised Response) : Serving (Response × Returned) :=
  exceptException
    (do
      let tenantId := tenantOf tenantHeader
      let response ← callNext app
      return (response, m.applyPrivacyProtection json tenantId response))
    (do
      let response ← callNext app
      return (response, .original))

end PrivacyMiddleware

/-! ## The regional middleware -/

/-- What the middleware asks for a request : `get_tenant_from_jwt`, the router, and the
header `X-Target-Region`. -/
structure RegionalRequest where
  tenantFromJwt : Except Raised (Option Text)
  getTenantRegion : Text → Except Raised Text
  getTenantAllowedRegions : Text → Except Raised (List Text)
  enforceRegionalAccess : Text → Text → Except Raised Bool
  targetRegion : Option Text

/-- What is returned : the response of the application with the headers `X-Tenant-ID` and
`X-Data-Region`, or the response with status 403. -/
inductive RegionalReply
  | passed (response : Response) (tenantId region : Option Text)
  | denied (targetRegion : Option Text) (tenantRegion : Text)

namespace RegionalRequest

variable (request : RegionalRequest)

/-- `_extract_tenant_id`. -/
def extractTenantId : Serving (Option Text) :=
  exceptException (liftM request.tenantFromJwt) (return none)

/-- `_check_cross_region_access`. -/
def checkCrossRegionAccess (tenantId : Text) : Serving Bool :=
  match tenantOf request.targetRegion with
  | none => return true
  | some target =>
    exceptException (liftM (request.enforceRegionalAccess tenantId target)) (return true)

/-- The `try` block of `__call__`, for a tenant. -/
def serveTenant (app : ℕ → Except Raised Response) (tenantId : Text) : Serving RegionalReply := do
  let tenantRegion ← liftM (request.getTenantRegion tenantId)
  let _ ← (liftM (request.getTenantAllowedRegions tenantId) : Serving (List Text))
  if ← request.checkCrossRegionAccess tenantId then
    let response ← callNext app
    return .passed response (some tenantId) (some tenantRegion)
  else
    return .denied request.targetRegion tenantRegion

/-- The `try` block of `__call__`. -/
def serve (app : ℕ → Except Raised Response) : Serving RegionalReply := do
  match tenantOf (← request.extractTenantId) with
  | none =>
    let response ← callNext app
    return .passed response none none
  | some tenantId => request.serveTenant app tenantId

/-- `__call__` of `RegionalMiddleware`. -/
def call (app : ℕ → Except Raised Response) : Serving RegionalReply :=
  exceptException (request.serve app) do
    let response ← callNext app
    return .passed response none none

/-- What is known of the tenant after `_extract_tenant_id`. -/
def tenantAnswer : Except Raised (Option Text) :=
  match request.tenantFromJwt with
  | .error .exception => .ok none
  | answer => answer

/-- The answer of `_check_cross_region_access`. -/
def accessAnswer (tenantId : Text) : Except Raised Bool :=
  match tenantOf request.targetRegion with
  | none => .ok true
  | some target =>
    match request.enforceRegionalAccess tenantId target with
    | .error .exception => .ok true
    | answer => answer

/-- The request gets to the application without an exception on the way. -/
def reachesApplication : Bool :=
  match request.tenantAnswer with
  | .error _ => false
  | .ok tenant =>
    match tenantOf tenant with
    | none => true
    | some tenantId =>
      match request.getTenantRegion tenantId, request.getTenantAllowedRegions tenantId,
        request.accessAnswer tenantId with
      | .ok _, .ok _, .ok allowed => allowed
      | _, _, _ => false

theorem run_extractTenantId (k : ℕ) :
    request.extractTenantId.run.run k = (request.tenantAnswer, k) := by
  rw [extractTenantId, run_exceptException, run_liftM, tenantAnswer]
  rcases request.tenantFromJwt with (_ | _) | _ <;> rfl

theorem run_checkCrossRegionAccess (tenantId : Text) (k : ℕ) :
    (request.checkCrossRegionAccess tenantId).run.run k = (request.accessAnswer tenantId, k) := by
  unfold checkCrossRegionAccess accessAnswer
  cases tenantOf request.targetRegion with
  | none => rfl
  | some target =>
    simp only [run_exceptException, run_liftM]
    rcases request.enforceRegionalAccess tenantId target with (_ | _) | _ <;> rfl

/-- The application was called once and the `try` block ended as it did. -/
def CalledOnce (app : ℕ → Except Raised Response) (run : Except Raised RegionalReply × ℕ) :
    Prop :=
  ∃ reply, run = ((app 0).map reply, 1)

theorem run_serveTenant (app : ℕ → Except Raised Response) (tenantId : Text) :
    if (match request.getTenantRegion tenantId, request.getTenantAllowedRegions tenantId,
        request.accessAnswer tenantId with
      | .ok _, .ok _, .ok allowed => allowed
      | _, _, _ => false) then
      CalledOnce app ((request.serveTenant app tenantId).run.run 0)
    else ((request.serveTenant app tenantId).run.run 0).2 = 0 := by
  rw [serveTenant, run_bind, run_liftM]
  cases request.getTenantRegion tenantId with
  | error e => rfl
  | ok tenantRegion =>
    simp only [run_bind, run_liftM]
    cases request.getTenantAllowedRegions tenantId with
    | error e => rfl
    | ok regions =>
      simp only [run_checkCrossRegionAccess]
      cases request.accessAnswer tenantId with
      | error e => rfl
      | ok allowed =>
        cases allowed with
        | false => rfl
        | true => exact ⟨_, run_callNext_bind 0 app _⟩

/-- The `try` block calls the application once if the request gets to it, and else not. -/
theorem run_serve (app : ℕ → Except Raised Response) :
    if request.reachesApplication then CalledOnce app ((request.serve app).run.run 0)
    else ((request.serve app).run.run 0).2 = 0 := by
  rw [serve, run_bind, run_extractTenantId, reachesApplication]
  cases request.tenantAnswer with
  | error e => rfl
  | ok tenant =>
    simp only
    cases tenantOf tenant with
    | none => exact ⟨_, run_callNext_bind 0 app _⟩
    | some tenantId => exact request.run_serveTenant app tenantId

theorem invocations_call (app : ℕ → Except Raised Response) :
    invocations (request.call app) ≤ 1 ↔
      ¬(request.reachesApplication = true ∧ app 0 = .error .exception) := by
  have hserve := request.run_serve app
  rw [invocations, call, run_exceptException]
  cases hreaches : request.reachesApplication with
  | true =>
    rw [hreaches, if_pos rfl] at hserve
    obtain ⟨reply, hrun⟩ := hserve
    rw [hrun]
    rcases happ : app 0 with (_ | _) | response
    · simp only [Except.map, run_callNext_bind]
      simp
    · simp [Except.map]
    · simp [Except.map]
  | false =>
    rw [hreaches, if_neg Bool.false_ne_true] at hserve
    rcases hrun : (request.serve app).run.run 0 with ⟨(_ | _) | reply, k⟩
    all_goals
      rw [hrun] at hserve
      obtain rfl := hserve
    · simp only [run_callNext_bind]
      simp
    · simp
    · simp

end RegionalRequest

theorem PrivacyMiddleware.invocations_call (m : PrivacyMiddleware) (json : JsonLoads)
    (tenantHeader : Option Text) (app : ℕ → Except Raised Response) :
    invocations (m.call json tenantHeader app) ≤ 1 ↔ app 0 ≠ .error .exception := by
  rw [invocations, PrivacyMiddleware.call, run_exceptException, run_callNext_bind]
  rcases happ : app 0 with (_ | _) | response
  · simp only [Except.map, run_callNext_bind]
    simp
  · simp [Except.map]
  · simp [Except.map]

/-- The privacy middleware calls the application at most once exactly when the first call
raises no `Exception`, and the regional middleware exactly when the first call raises none or
the request does not get to the application in the `try` block. -/
theorem invokedOnce_iff (m : PrivacyMiddleware) (json : JsonLoads) (tenantHeader : Option Text)
    (request : RegionalRequest) (app : ℕ → Except Raised Response) :
    (invocations (m.call json tenantHeader app) ≤ 1 ↔ app 0 ≠ .error .exception) ∧
      (invocations (request.call app) ≤ 1 ↔
        ¬(request.reachesApplication = true ∧ app 0 = .error .exception)) :=
  ⟨m.invocations_call json tenantHeader app, request.invocations_call app⟩

/-- A request without a tenant to an application that raises. -/
def publicRequest : RegionalRequest :=
  { tenantFromJwt := .ok none, getTenantRegion := fun _ => .ok []
    getTenantAllowedRegions := fun _ => .ok [], enforceRegionalAccess := fun _ _ => .ok true
    targetRegion := none }

theorem not_invokedOnce :
    invocations (PrivacyMiddleware.finding.call (PrivacyMiddleware.loadsAt [] .null) none
        fun _ => .error .exception) = 2 ∧
      invocations (publicRequest.call fun _ => .error .exception) = 2 :=
  ⟨rfl, rfl⟩

end Privacy

end MultiAgent
