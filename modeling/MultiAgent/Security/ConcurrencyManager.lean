import MultiAgent.Security.TokenPool

/-!
# The concurrency manager

`ConcurrencyManager` of `libs/security/concurrency_tokens.py` : a token pool for each
resource type, limits for the tenants, and `tenant_tokens`, the ids that the manager
counts against a tenant. `managerMachine` interleaves calls of `acquire_token`,
`release_token` and `force_release_tenant_tokens` of any tenants with rounds of the expiry
cleanup; none of them suspends but an acquire that waits in its pool.
-/

namespace MultiAgent

namespace ConcurrencyTokens

/-- The fields of `ConcurrencyLimits` that the manager reads. -/
structure ConcurrencyLimits where
  tenantId : String
  maxConcurrentRequests : ℤ
  maxConcurrentAgents : ℤ
  maxConcurrentWorkflows : ℤ
  maxConcurrentTools : ℤ
  deriving DecidableEq, Repr

/-- The limit for a resource type, if there is one. -/
def ConcurrencyLimits.maxFor (l : ConcurrencyLimits) (resourceType : String) : Option ℤ :=
  if resourceType = "requests" then some l.maxConcurrentRequests
  else if resourceType = "agents" then some l.maxConcurrentAgents
  else if resourceType = "workflows" then some l.maxConcurrentWorkflows
  else if resourceType = "tools" then some l.maxConcurrentTools
  else none

/-- `tenant_tokens` : the ids of each tenant and resource type. -/
abbrev TenantTokens :=
  Dict String (Dict String (Finset String))

namespace TenantTokens

variable (m : TenantTokens)

/-- The ids tracked for a tenant and a resource type. -/
def ids (tenantId resourceType : String) : Finset String :=
  ((m.get? tenantId).bind fun d => d.get? resourceType).getD ∅

/-- Make sure that there is a set for the tenant and the resource type. -/
def ensure (tenantId resourceType : String) : TenantTokens :=
  m.set tenantId
    (((m.get? tenantId).getD .empty).set resourceType (m.ids tenantId resourceType))

/-- Track an id for a tenant. -/
def track (tenantId resourceType id : String) : TenantTokens :=
  m.set tenantId
    (((m.get? tenantId).getD .empty).set resourceType (insert id (m.ids tenantId resourceType)))

/-- `discard` an id of a tenant, if the tenant is tracked. -/
def discard (tenantId resourceType id : String) : TenantTokens :=
  match m.get? tenantId with
  | none => m
  | some d =>
    match d.get? resourceType with
    | none => m
    | some ids => m.set tenantId (d.set resourceType (ids.erase id))

theorem ids_set (t r : String) (ids : Finset String) (t' r' : String) :
    TenantTokens.ids (m.set t (((m.get? t).getD .empty).set r ids)) t' r' =
      if t' = t ∧ r' = r then ids else m.ids t' r' := by
  unfold TenantTokens.ids
  rw [Dict.get?_set]
  by_cases ht : t' = t
  · subst ht
    rw [if_pos rfl, Option.bind_some, Dict.get?_set]
    by_cases hr : r' = r
    · simp [hr]
    · rw [if_neg hr, if_neg fun h => hr h.2]
      cases m.get? t' <;> rfl
  · rw [if_neg ht, if_neg fun h => ht h.1]

theorem ids_ensure (t r t' r' : String) : (m.ensure t r).ids t' r' = m.ids t' r' := by
  unfold ensure
  rw [ids_set]
  split_ifs with h
  · rw [h.1, h.2]
  · rfl

theorem ids_track (t r id t' r' : String) : (m.track t r id).ids t' r' =
    if t' = t ∧ r' = r then insert id (m.ids t r) else m.ids t' r' :=
  ids_set m t r _ t' r'

theorem ids_discard (t r id t' r' : String) : (m.discard t r id).ids t' r' =
    if t' = t ∧ r' = r then (m.ids t r).erase id else m.ids t' r' := by
  unfold discard
  cases hd : m.get? t with
  | none =>
    have hnone : m.ids t r = ∅ := by simp [ids, hd]
    split_ifs with h
    · rw [h.1, h.2, hnone, Finset.erase_empty]
    · rfl
  | some d =>
    cases hids : d.get? r with
    | none =>
      have hnone : m.ids t r = ∅ := by simp [ids, hd, hids]
      dsimp only
      rw [hids]
      split_ifs with h
      · rw [h.1, h.2, hnone, Finset.erase_empty]
      · rfl
    | some old =>
      have hold : m.ids t r = old := by simp [ids, hd, hids]
      have hset := ids_set m t r (old.erase id) t' r'
      simp only [hd, Option.getD_some] at hset
      dsimp only
      rw [hids]
      dsimp only
      rw [hset, hold]

end TenantTokens

/-- The attributes of `ConcurrencyManager`. The pools stand with the calls made on them. -/
structure ConcurrencyManager where
  tokenPools : Dict String PoolSystem
  tenantLimits : Dict String ConcurrencyLimits := .empty
  tenantTokens : TenantTokens := .empty

/-- A step of the manager. `orders` are the orders in which `list` goes through the sets of
ids of a tenant, one for each resource type that is tracked for it. -/
inductive ManagerEvent
  | acquire (tenantId resourceType : String) (timeoutSeconds expiresIn : Option ℤ) (now : ℤ)
      (pick : String)
  | release (token : ConcurrencyToken) (now : ℤ)
  | forceRelease (tenantId : String) (orders : List (List String)) (now : ℤ)
  | cleanup (now : ℤ)
  | timeout (resourceType : String) (call : ℕ)
  | resume (resourceType : String) (call : ℕ)
  deriving DecidableEq, Repr

namespace ConcurrencyManager

variable (s : ConcurrencyManager)

/-- The default pools. -/
def defaultPools : List (String × ℕ) :=
  [("requests", 1000), ("agents", 100), ("workflows", 200), ("tools", 500)]

/-- `__init__` and `_initialize_default_pools`. -/
def new : ConcurrencyManager where
  tokenPools := defaultPools.foldl (fun d p => d.set p.1 { pool := .new p.1 p.2 }) .empty

/-- `set_tenant_limits`. -/
def setTenantLimits (s : ConcurrencyManager) (limits : ConcurrencyLimits) :
    ConcurrencyManager :=
  { s with
    tenantLimits := s.tenantLimits.set limits.tenantId limits
    tenantTokens := s.tokenPools.keys.foldl (fun m r => m.ensure limits.tenantId r)
      s.tenantTokens }

/-- `_check_tenant_limits`. -/
def checkTenantLimits (tenantId resourceType : String) : Bool :=
  match s.tenantLimits.get? tenantId with
  | none => true
  | some limits =>
    match limits.maxFor resourceType with
    | some max => decide (((s.tenantTokens.ids tenantId resourceType).card : ℤ) < max)
    | none => true

/-- The pool of a resource type went on to `p`. If its `c`-th call returned a token, the
manager tracks it for the tenant of the call. -/
def settle (resourceType : String) (p : PoolSystem) (c : ℕ) : ConcurrencyManager :=
  { s with
    tokenPools := s.tokenPools.set resourceType p
    tenantTokens :=
      match p.calls[c]? with
      | some ⟨tenantId, .returned (some token)⟩ =>
        s.tenantTokens.track tenantId resourceType token.tokenId
      | _ => s.tenantTokens }

/-- `acquire_token` up to its end or its suspension. -/
def acquireToken (tenantId resourceType : String) (timeoutSeconds expiresIn : Option ℤ)
    (now : ℤ) (pick : String) : Option ConcurrencyManager :=
  match s.tokenPools.get? resourceType with
  | none => some s
  | some p =>
    if s.checkTenantLimits tenantId resourceType then
      (p.acquireToken tenantId timeoutSeconds expiresIn now pick).map fun q =>
        s.settle resourceType q p.calls.length
    else some s

/-- Release an id in its pool, and on success discard it from the ids of the tenant. -/
def releaseFor (tenantId resourceType id : String) (now : ℤ) : ConcurrencyManager × Bool :=
  match s.tokenPools.get? resourceType with
  | none => (s, false)
  | some p =>
    let r := p.releaseToken id now
    ({ s with
        tokenPools := s.tokenPools.set resourceType r.1
        tenantTokens :=
          if r.2 then s.tenantTokens.discard tenantId resourceType id else s.tenantTokens },
      r.2)

/-- `release_token`, with its result. -/
def releaseToken (token : ConcurrencyToken) (now : ℤ) : ConcurrencyManager × Bool :=
  s.releaseFor token.tenantId token.resourceType token.tokenId now

/-- The ids tracked for a tenant with their resource types, in the given orders. -/
def trackedPairs (tenantId : String) (orders : List (List String)) : List (String × String) :=
  (((s.tenantTokens.get? tenantId).getD .empty).items.zip orders).flatMap fun x =>
    x.2.map fun id => (x.1.1, id)

/-- The orders go through the sets of ids tracked for the tenant. -/
def IsOrder (tenantId : String) (orders : List (List String)) : Prop :=
  List.Forall₂ (fun (x : String × Finset String) order => order.Nodup ∧ order.toFinset = x.2)
    ((s.tenantTokens.get? tenantId).getD .empty).items orders

instance (tenantId : String) (orders : List (List String)) :
    Decidable (s.IsOrder tenantId orders) :=
  inferInstanceAs (Decidable (List.Forall₂ _ _ _))

/-- The loops of `force_release_tenant_tokens`, with the count of the released tokens. -/
def releaseTracked (tenantId : String) (now : ℤ) :
    ConcurrencyManager × ℕ → List (String × String) → ConcurrencyManager × ℕ
  | s, [] => s
  | (s, released), (resourceType, id) :: rest =>
    let r := s.releaseFor tenantId resourceType id now
    releaseTracked tenantId now (r.1, if r.2 then released + 1 else released) rest

/-- `force_release_tenant_tokens`, with its result. -/
def forceReleaseTenantTokens (tenantId : String) (orders : List (List String)) (now : ℤ) :
    Option (ConcurrencyManager × ℕ) :=
  if s.IsOrder tenantId orders then
    some (releaseTracked tenantId now (s, 0) (s.trackedPairs tenantId orders))
  else none

/-- A round of `_cleanup_expired_tokens`. -/
def cleanupExpiredTokens (now : ℤ) : ConcurrencyManager :=
  { s with tokenPools := s.tokenPools.mapValues fun p => p.cleanupExpired now }

/-- One step. -/
def step : ManagerEvent → Option ConcurrencyManager
  | .acquire tenantId resourceType timeoutSeconds expiresIn now pick =>
    s.acquireToken tenantId resourceType timeoutSeconds expiresIn now pick
  | .release token now => some (s.releaseToken token now).1
  | .forceRelease tenantId orders now =>
    (s.forceReleaseTenantTokens tenantId orders now).map Prod.fst
  | .cleanup now => some (s.cleanupExpiredTokens now)
  | .timeout resourceType c =>
    (s.tokenPools.get? resourceType).bind fun p =>
      (p.step (.timeout c)).map fun q =>
        { s with tokenPools := s.tokenPools.set resourceType q }
  | .resume resourceType c =>
    (s.tokenPools.get? resourceType).bind fun p =>
      (p.step (.resume c)).map fun q => s.settle resourceType q c

end ConcurrencyManager

/-- A new manager with the limits of the given tenants. -/
def managerMachine (limits : List ConcurrencyLimits) :
    Machine ConcurrencyManager ManagerEvent where
  init := limits.foldl ConcurrencyManager.setTenantLimits .new
  step := ConcurrencyManager.step

/-! ## What a pool operation does -/

namespace PoolSystem

variable {p q : PoolSystem}

/-- The ways in which `acquire_token` of a pool begins. -/
theorem acquireToken_cases {tenantId pick : String} {timeoutSeconds expiresIn : Option ℤ}
    {now : ℤ} (h : p.acquireToken tenantId timeoutSeconds expiresIn now pick = some q) :
    (pick ∈ p.pool.availableTokens ∧ q = p.acquireNow tenantId expiresIn now pick) ∨
      q = p.refuse tenantId ∨ q = p.enqueue tenantId := by
  unfold acquireToken at h
  split_ifs at h with hne hpick
  · exact Or.inl ⟨hpick, (Option.some.inj h).symm⟩
  · cases timeoutSeconds with
    | none => exact Or.inr (Or.inl (Option.some.inj h).symm)
    | some d =>
      dsimp only at h
      split_ifs at h
      · exact Or.inr (Or.inl (Option.some.inj h).symm)
      · exact Or.inr (Or.inr (Option.some.inj h).symm)

/-- A release of a token that no caller has does nothing. -/
theorem releaseToken_of_not_mem {id : String} (now : ℤ) (h : id ∉ p.pool.acquiredTokens) :
    p.releaseToken id now = (p, false) := by
  simp [releaseToken, Dict.get?_eq_none.mpr h]

/-- A release in front of a quiet queue. -/
theorem releaseToken_of_quiet {id : String} (now : ℤ) (h : id ∈ p.pool.acquiredTokens)
    (hw : p.QuietQueue 1) : p.releaseToken id now =
      ({ p.putBack id with pool := { (p.putBack id).pool with
          waitingRequests := p.pool.waitingRequests.drop 1 } }, true) := by
  obtain ⟨token, hget⟩ := Dict.mem_iff_get?.mp h
  simp only [releaseToken, hget]
  rw [notify_of_not_pending (p.putBack id) token now hw]
  rfl

/-- The ids in `acquired_tokens` whose holder is the tenant. -/
def idsOf (p : PoolSystem) (tenantId : String) : Finset String :=
  ((p.pool.acquiredTokens.items.filter fun x => x.2.tenantId = tenantId).map Prod.fst).toFinset

theorem mem_idsOf {tenantId id : String} : id ∈ p.idsOf tenantId ↔
    ∃ token, p.pool.acquiredTokens.get? id = some token ∧ token.tenantId = tenantId := by
  unfold idsOf
  rw [List.mem_toFinset, List.mem_map]
  constructor
  · rintro ⟨⟨i, token⟩, hmem, rfl⟩
    obtain ⟨hmem, ht⟩ := List.mem_filter.mp hmem
    exact ⟨token, Dict.mem_items.mp hmem, of_decide_eq_true ht⟩
  · rintro ⟨token, hget, ht⟩
    exact ⟨(id, token), List.mem_filter.mpr ⟨Dict.mem_items.mpr hget, decide_eq_true ht⟩, rfl⟩

end PoolSystem

theorem run_snoc {limits : List ConcurrencyLimits}
    {ok : ConcurrencyManager → ManagerEvent → Prop} {es : List ManagerEvent} {e : ManagerEvent}
    {s u : ConcurrencyManager} (h : (managerMachine limits).Run ok es s) (hok : ok s e)
    (hst : s.step e = some u) : (managerMachine limits).Run ok (es ++ [e]) u :=
  h.snoc hok hst

namespace ConcurrencyManager

/-- How many tokens a step releases from the pool `p` of a resource type. -/
def releases (s : ConcurrencyManager) (resourceType : String) (p : PoolSystem) :
    ManagerEvent → ℕ
  | .release token _ =>
    if token.resourceType = resourceType ∧ token.tokenId ∈ p.pool.acquiredTokens then 1 else 0
  | .forceRelease tenantId orders _ =>
    (s.trackedPairs tenantId orders).countP fun x => x.1 = resourceType
  | .cleanup now => (p.expiredTokens now).length
  | _ => 0

/-- No release of the step finds a pending waiter. -/
def QuietReleases (s : ConcurrencyManager) (e : ManagerEvent) : Prop :=
  ∀ x ∈ s.tokenPools.items, x.2.QuietQueue (s.releases x.1 x.2 e)

instance (s : ConcurrencyManager) (e : ManagerEvent) : Decidable (s.QuietReleases e) :=
  inferInstanceAs (Decidable (∀ x ∈ _, _))

theorem get?_newPools {r : String} {p : PoolSystem} (h : new.tokenPools.get? r = some p) :
    ∃ n, p = { pool := .new r n } := by
  simp only [new, defaultPools, List.foldl_cons, List.foldl_nil, Dict.get?_set] at h
  split_ifs at h with h1 h2 h3 h4
  · exact ⟨500, by rw [h1, Option.some.inj h]⟩
  · exact ⟨200, by rw [h2, Option.some.inj h]⟩
  · exact ⟨100, by rw [h3, Option.some.inj h]⟩
  · exact ⟨1000, by rw [h4, Option.some.inj h]⟩
  · simp at h

theorem tokenPools_configured (limits : List ConcurrencyLimits) :
    (managerMachine limits).init.tokenPools = new.tokenPools := by
  have hfold : ∀ (ls : List ConcurrencyLimits) (s : ConcurrencyManager),
      (ls.foldl setTenantLimits s).tokenPools = s.tokenPools := by
    intro ls
    induction ls with
    | nil => exact fun _ => rfl
    | cons l ls ih => exact fun s => ih (s.setTenantLimits l)
  exact hfold limits new

/-- The ways in which `acquire_token` of the manager begins. -/
theorem acquireToken_cases {s u : ConcurrencyManager} {t r pick : String}
    {timeoutSeconds expiresIn : Option ℤ} {now : ℤ}
    (h : s.acquireToken t r timeoutSeconds expiresIn now pick = some u) :
    u = s ∨ ∃ p, s.tokenPools.get? r = some p ∧
      (s.checkTenantLimits t r = true ∧ pick ∈ p.pool.availableTokens ∧
          u = { s with
            tokenPools := s.tokenPools.set r (p.acquireNow t expiresIn now pick)
            tenantTokens := s.tenantTokens.track t r pick } ∨
        u = { s with tokenPools := s.tokenPools.set r (p.refuse t) } ∨
        u = { s with tokenPools := s.tokenPools.set r (p.enqueue t) }) := by
  unfold acquireToken at h
  cases hp : s.tokenPools.get? r with
  | none =>
    simp only [hp] at h
    exact Or.inl (Option.some.inj h).symm
  | some p =>
    simp only [hp] at h
    split_ifs at h with hcheck
    · obtain ⟨q, hq, rfl⟩ := Option.map_eq_some_iff.mp h
      refine Or.inr ⟨p, rfl, ?_⟩
      rcases PoolSystem.acquireToken_cases hq with ⟨hpick, rfl⟩ | rfl | rfl
      · refine Or.inl ⟨hcheck, hpick, ?_⟩
        simp [settle, PoolSystem.acquireNow, PoolSystem.newToken]
      · exact Or.inr (Or.inl (by simp [settle, PoolSystem.refuse]))
      · exact Or.inr (Or.inr (by simp [settle, PoolSystem.enqueue]))
    · exact Or.inl (Option.some.inj h).symm

/-- A release changes one pool, and discards an id that its pool had handed out. -/
theorem releaseFor_cases (s : ConcurrencyManager) (t r id : String) (now : ℤ) :
    (s.releaseFor t r id now).1 = s ∨ ∃ p, s.tokenPools.get? r = some p ∧
      ((s.releaseFor t r id now).1 = { s with tokenPools := s.tokenPools.set r p } ∨
        id ∈ p.pool.acquiredTokens ∧ (s.releaseFor t r id now).1 = { s with
          tokenPools := s.tokenPools.set r (p.releaseToken id now).1
          tenantTokens := s.tenantTokens.discard t r id }) := by
  unfold releaseFor
  cases hp : s.tokenPools.get? r with
  | none => exact Or.inl rfl
  | some p =>
    refine Or.inr ⟨p, rfl, ?_⟩
    by_cases hid : id ∈ p.pool.acquiredTokens
    · obtain ⟨token, hget⟩ := Dict.mem_iff_get?.mp hid
      exact Or.inr ⟨hid, by simp [PoolSystem.releaseToken, hget]⟩
    · exact Or.inl (by simp [PoolSystem.releaseToken_of_not_mem now hid])

/-- A pool that goes on tracks no id for another resource type, and forgets none. -/
theorem ids_settle (s : ConcurrencyManager) (r : String) (p : PoolSystem) (c : ℕ) (t r' : String) :
    s.tenantTokens.ids t r' ⊆ (s.settle r p c).tenantTokens.ids t r' ∧
      (r' ≠ r → (s.settle r p c).tenantTokens.ids t r' = s.tenantTokens.ids t r') := by
  unfold settle
  dsimp only
  split
  · rw [TenantTokens.ids_track]
    split_ifs with h
    · rw [h.1, h.2]
      exact ⟨Finset.subset_insert _ _, fun hr => absurd rfl hr⟩
    · exact ⟨subset_rfl, fun _ => rfl⟩
  · exact ⟨subset_rfl, fun _ => rfl⟩

/-- An acquire that finds a token. -/
theorem step_acquireNow {s : ConcurrencyManager} {p : PoolSystem} {t r pick : String}
    (timeoutSeconds expiresIn : Option ℤ) (now : ℤ) (hp : s.tokenPools.get? r = some p)
    (hcheck : s.checkTenantLimits t r = true) (hpick : pick ∈ p.pool.availableTokens) :
    s.step (.acquire t r timeoutSeconds expiresIn now pick) =
      some (s.settle r (p.acquireNow t expiresIn now pick) p.calls.length) := by
  have hne : p.pool.availableTokens.Nonempty := ⟨pick, hpick⟩
  simp only [ConcurrencyManager.step, ConcurrencyManager.acquireToken, hp, hcheck, if_true,
    PoolSystem.acquireToken]
  rw [if_pos hne, if_pos hpick]
  rfl

/-- The pool of the agents when it is new. -/
def newAgents : PoolSystem :=
  { pool := .new "agents" 100 }

theorem get?_newAgents : new.tokenPools.get? "agents" = some newAgents := by
  simp [new, defaultPools, Dict.get?_set, newAgents]

theorem mem_newAgents {i : ℕ} (h : i < 100) :
    tokenId "agents" i ∈ newAgents.pool.availableTokens :=
  Finset.mem_image_of_mem _ (Finset.mem_range.mpr h)

end ConcurrencyManager

end ConcurrencyTokens

end MultiAgent
