import MultiAgent.Security.ConcurrencyManager

/-!
# The two tables of the concurrency manager

Two tables say who holds a token, `tenant_tokens` of the manager and `acquired_tokens` of
the pool. The cleanup updates only the second, a token that is handed to a waiter is never
put in it, and a release takes the tenant from the token object that the caller passes in.
The tables agree in the runs in which nothing of this happens (`tracksHolders`), and a
single expired token is enough to make them differ (`not_tracksHolders`).
-/

namespace MultiAgent

namespace ConcurrencyTokens

/-! ## The two tables -/

/-- The sets of ids agree with the pool : they are the acquired ids of each tenant. No
token is on its way to a waiter. -/
structure PoolTracked (ids : String → Finset String) (p : PoolSystem) : Prop where
  partition : ∃ resourceType n, Partition resourceType n p
  tracks : ∀ t, ids t = p.idsOf t
  undelivered : ∀ (c : ℕ) (t : String) (token : ConcurrencyToken),
    p.calls[c]? ≠ some ⟨t, .waiting (.result token)⟩

namespace PoolTracked

variable {ids : String → Finset String} {p : PoolSystem}

theorem start (resourceType : String) (n : ℕ) :
    PoolTracked (fun _ => ∅) { pool := .new resourceType n } where
  partition := ⟨resourceType, n, .start⟩
  tracks _ := rfl
  undelivered c t token h := by simp at h

theorem acquireNow (h : PoolTracked ids p) {pick : String}
    (hpick : pick ∈ p.pool.availableTokens) (t : String) (expiresIn : Option ℤ) (now : ℤ) :
    PoolTracked (fun t' => if t' = t then insert pick (ids t) else ids t')
      (p.acquireNow t expiresIn now pick) where
  partition := by
    obtain ⟨r, n, hp⟩ := h.partition
    exact ⟨r, n, hp.acquireNow hpick t expiresIn now⟩
  tracks t' := by
    obtain ⟨r, n, hp⟩ := h.partition
    have hfree : p.pool.acquiredTokens.get? pick = none :=
      Dict.get?_eq_none.mpr (hp.disjoint pick hpick)
    ext id
    have hmem : id ∈ (p.acquireNow t expiresIn now pick).idsOf t' ↔
        (id = pick ∧ t' = t) ∨ id ∈ p.idsOf t' := by
      rw [PoolSystem.mem_idsOf, PoolSystem.mem_idsOf]
      simp only [PoolSystem.acquireNow, Dict.get?_set]
      by_cases hid : id = pick
      · subst hid
        simp [hfree, PoolSystem.newToken, eq_comm]
      · simp [hid]
    rw [hmem]
    by_cases ht : t' = t
    · subst ht
      rw [if_pos rfl, Finset.mem_insert, h.tracks t']
      simp
    · rw [if_neg ht, h.tracks t']
      simp [ht]
  undelivered c t' token hc := by
    rcases getElem?_concat_cases hc with hc | ⟨-, he⟩
    · exact h.undelivered c t' token hc
    · cases he

/-- The tables do not read the queue, nor the calls beside the tokens on their way. -/
theorem congr (h : PoolTracked ids p) {q : PoolSystem}
    (havail : q.pool.availableTokens = p.pool.availableTokens)
    (hacq : q.pool.acquiredTokens = p.pool.acquiredTokens) (hheld : q.held = p.held)
    (hten : ∀ (i : ℕ) (x : String), p.tenants[i]? = some x → q.tenants[i]? = some x)
    (hcalls : ∀ (c : ℕ) (t : String) (token : ConcurrencyToken),
      q.calls[c]? = some ⟨t, .waiting (.result token)⟩ →
        p.calls[c]? = some ⟨t, .waiting (.result token)⟩) : PoolTracked ids q where
  partition := by
    obtain ⟨r, n, hp⟩ := h.partition
    exact ⟨r, n, hp.congr havail hacq hheld hten⟩
  tracks t := by
    rw [h.tracks t, PoolSystem.idsOf, PoolSystem.idsOf, hacq]
  undelivered c t token hc := h.undelivered c t token (hcalls c t token hc)

/-- A call that joins without a token. -/
theorem append (h : PoolTracked ids p) {x : AcquireCall} (pool : ConcurrencyTokenPool)
    (havail : pool.availableTokens = p.pool.availableTokens)
    (hacq : pool.acquiredTokens = p.pool.acquiredTokens)
    (hx : ∀ token, x.state ≠ .waiting (.result token)) :
    PoolTracked ids ⟨pool, p.calls ++ [x], p.held⟩ := by
  refine h.congr havail hacq rfl (tenants_append p x _ _) fun c t token hc => ?_
  rcases getElem?_concat_cases hc with hc | ⟨-, rfl⟩
  · exact hc
  · exact absurd rfl (hx token)

/-- A call that goes on without a token. -/
theorem setState (h : PoolTracked ids p) (c : ℕ) (state : AcquireState)
    (hstate : ∀ token, state ≠ .waiting (.result token)) :
    PoolTracked ids (p.setState c state) := by
  refine h.congr rfl rfl rfl (fun _ _ hx => by rwa [PoolSystem.tenants_setState])
    fun c' t token hc => ?_
  simp only [PoolSystem.setState, List.getElem?_modify] at hc
  obtain ⟨x, hx, hxe⟩ := Option.map_eq_some_iff.mp hc
  by_cases hcc : c = c'
  · simp only [hcc, if_true] at hxe
    exact absurd (congrArg AcquireCall.state hxe) (hstate token)
  · simp only [hcc, if_false] at hxe
    rw [hx]
    exact congrArg some hxe

/-- A release of a token of the tenant, after which the id is discarded. -/
theorem release (h : PoolTracked ids p) {id t : String} (now : ℤ)
    (hid : id ∈ p.pool.acquiredTokens) (hw : p.QuietQueue 1)
    (hown : ∀ token, p.pool.acquiredTokens.get? id = some token → token.tenantId = t) :
    PoolTracked (fun t' => if t' = t then (ids t).erase id else ids t')
      (p.releaseToken id now).1 where
  partition := by
    obtain ⟨r, n, hp⟩ := h.partition
    exact ⟨r, n, hp.releaseToken hw⟩
  tracks t' := by
    rw [PoolSystem.releaseToken_of_quiet now hid hw]
    ext i
    have hmem : i ∈ PoolSystem.idsOf { p.putBack id with pool := { (p.putBack id).pool with
        waitingRequests := p.pool.waitingRequests.drop 1 } } t' ↔ i ≠ id ∧ i ∈ p.idsOf t' := by
      rw [PoolSystem.mem_idsOf, PoolSystem.mem_idsOf]
      simp only [PoolSystem.putBack, Dict.get?_erase]
      by_cases hi : i = id <;> simp [hi]
    rw [hmem]
    by_cases ht : t' = t
    · subst ht
      rw [if_pos rfl, Finset.mem_erase, h.tracks t']
    · rw [if_neg ht, h.tracks t']
      refine ⟨fun hi => ⟨?_, hi⟩, And.right⟩
      rintro rfl
      obtain ⟨token, hget, htok⟩ := PoolSystem.mem_idsOf.mp hi
      exact ht (htok.symm.trans (hown token hget))
  undelivered c t' token hc := by
    rw [(releaseToken_queue p id now hw).1] at hc
    exact h.undelivered c t' token hc

end PoolTracked

namespace ConcurrencyManager

/-- No acquire is suspended. -/
def Settled (s : ConcurrencyManager) : Prop :=
  ∀ r p, s.tokenPools.get? r = some p → ∀ x ∈ p.calls, ∃ token, x.state = .returned token

/-- The tenant that holds an acquired id. -/
def holderOf (s : ConcurrencyManager) (resourceType id : String) : Option String :=
  (s.tokenPools.get? resourceType).bind fun p =>
    (p.pool.acquiredTokens.get? id).map ConcurrencyToken.tenantId

/-- No release of the step finds a pending waiter, a token is released in the name of the
tenant that holds it, and the cleanup finds no expired token. -/
def Attributed (s : ConcurrencyManager) (e : ManagerEvent) : Prop :=
  s.QuietReleases e ∧
    match e with
    | .release token _ =>
      ∀ t ∈ s.holderOf token.resourceType token.tokenId, t = token.tenantId
    | .cleanup now => ∀ x ∈ s.tokenPools.items, x.2.expiredTokens now = []
    | _ => True

/-- Every table of a pool agrees with the ids tracked for it. -/
structure Tracked (s : ConcurrencyManager) : Prop where
  pool : ∀ r p, s.tokenPools.get? r = some p → PoolTracked (fun t => s.tenantTokens.ids t r) p

namespace Tracked

variable {s u : ConcurrencyManager}

/-- A step that changes one pool, and the ids tracked for it. -/
theorem update (h : s.Tracked) {r : String} {q : PoolSystem}
    (hpools : u.tokenPools = s.tokenPools.set r q)
    (hids : ∀ t r', r' ≠ r → u.tenantTokens.ids t r' = s.tenantTokens.ids t r')
    (hq : PoolTracked (fun t => u.tenantTokens.ids t r) q) : u.Tracked := by
  refine ⟨fun r' p' hp' => ?_⟩
  rw [hpools, Dict.get?_set] at hp'
  split_ifs at hp' with hr
  · obtain rfl := Option.some.inj hp'
    exact hr ▸ hq
  · simpa only [hids _ r' hr] using h.pool r' p' hp'

theorem acquireToken (h : s.Tracked) {t r pick : String}
    {timeoutSeconds expiresIn : Option ℤ} {now : ℤ}
    (hst : s.acquireToken t r timeoutSeconds expiresIn now pick = some u) : u.Tracked := by
  obtain rfl | ⟨p, hp, ⟨-, hpick, rfl⟩ | rfl | rfl⟩ := acquireToken_cases hst
  · exact h
  · refine h.update rfl (fun t' r' hr => ?_) ?_
    · simp [TenantTokens.ids_track, hr]
    · have hnew := (h.pool r p hp).acquireNow hpick t expiresIn now
      simpa [TenantTokens.ids_track] using hnew
  · exact h.update rfl (fun _ _ _ => rfl)
      ((h.pool r p hp).append (x := ⟨t, .returned none⟩) p.pool rfl rfl (by simp))
  · exact h.update rfl (fun _ _ _ => rfl)
      ((h.pool r p hp).append (x := ⟨t, .waiting .pending⟩) (p.enqueue t).pool rfl rfl (by simp))

theorem releaseFor (h : s.Tracked) {t r id : String} {now : ℤ}
    (hw : ∀ p, s.tokenPools.get? r = some p → id ∈ p.pool.acquiredTokens → p.QuietQueue 1)
    (hown : ∀ t' ∈ s.holderOf r id, t' = t) : (s.releaseFor t r id now).1.Tracked := by
  obtain hs | ⟨p, hp, hs | ⟨hid, hs⟩⟩ := releaseFor_cases s t r id now <;> rw [hs]
  · exact h
  · exact h.update rfl (fun _ _ _ => rfl) (h.pool r p hp)
  · refine h.update rfl (fun t' r' hr => ?_) ?_
    · simp [TenantTokens.ids_discard, hr]
    · have hnew := (h.pool r p hp).release (t := t) now hid (hw p hp hid) fun token hget =>
        hown token.tenantId (by simp [holderOf, hp, hget])
      simpa [TenantTokens.ids_discard] using hnew

/-- A release takes a holder away at most. -/
theorem holderOf_releaseFor {t r id r' id' : String} {now : ℤ}
    (hw : ∀ p, s.tokenPools.get? r = some p → id ∈ p.pool.acquiredTokens → p.QuietQueue 1)
    {t' : String} (ht : t' ∈ (s.releaseFor t r id now).1.holderOf r' id') :
    t' ∈ s.holderOf r' id' := by
  obtain hs | ⟨p, hp, hs | ⟨hid, hs⟩⟩ := releaseFor_cases s t r id now <;> rw [hs] at ht
  · exact ht
  · by_cases hr : r' = r
    · subst hr
      simpa [holderOf, hp] using ht
    · simpa [holderOf, Dict.get?_set, hr] using ht
  · by_cases hr : r' = r
    · subst hr
      rw [PoolSystem.releaseToken_of_quiet now hid (hw p hp hid)] at ht
      simp only [holderOf, Dict.get?_set_self, PoolSystem.putBack, Option.bind_some,
        Dict.get?_erase] at ht
      split_ifs at ht
      · simp at ht
      · simpa [holderOf, hp] using ht
    · simpa [holderOf, Dict.get?_set, hr] using ht

/-- Releases in the name of the tenant that holds the tokens, in front of quiet queues. -/
theorem releaseTracked (t : String) (now : ℤ) : ∀ (ps : List (String × String))
    {s : ConcurrencyManager} (n : ℕ), s.Tracked →
      (∀ r p, s.tokenPools.get? r = some p → p.QuietQueue (ps.countP fun x => x.1 = r)) →
      (∀ x ∈ ps, ∀ t' ∈ s.holderOf x.1 x.2, t' = t) →
      (ConcurrencyManager.releaseTracked t now (s, n) ps).1.Tracked
  | [], _, _, h, _, _ => h
  | (r, id) :: ps, s, n, h, hw, hown => by
    have hfirst : ∀ p, s.tokenPools.get? r = some p → id ∈ p.pool.acquiredTokens →
        p.QuietQueue 1 := fun p hp _ => (hw r p hp).mono (by simp)
    refine releaseTracked t now ps _ (h.releaseFor hfirst (hown (r, id) (by simp)))
      (fun r' p' hp' => ?_) fun x hx t' ht' =>
        hown x (List.mem_cons_of_mem _ hx) t' (holderOf_releaseFor hfirst ht')
    unfold ConcurrencyManager.releaseFor at hp'
    cases hp : s.tokenPools.get? r with
    | none =>
      simp only [hp] at hp'
      exact (hw r' p' hp').mono (List.countP_cons .. ▸ Nat.le_add_right _ _)
    | some p =>
      simp only [hp, Dict.get?_set] at hp'
      split_ifs at hp' with hr
      · obtain rfl := Option.some.inj hp'
        subst hr
        have hq := hw r' p hp
        rw [List.countP_cons, if_pos (by simp)] at hq
        exact hq.releaseToken id now
      · exact (hw r' p' hp').mono (List.countP_cons .. ▸ Nat.le_add_right _ _)

/-- The pairs that a forced release goes through are tracked for the tenant. -/
theorem mem_ids_of_trackedPairs {t : String} {orders : List (List String)}
    (ho : s.IsOrder t orders) {x : String × String} (hx : x ∈ s.trackedPairs t orders) :
    x.2 ∈ s.tenantTokens.ids t x.1 := by
  obtain ⟨⟨⟨r, set⟩, order⟩, hzip, hx⟩ := List.mem_flatMap.mp hx
  obtain ⟨id, hid, rfl⟩ := List.mem_map.mp hx
  obtain ⟨-, hset⟩ := List.forall₂_zip ho hzip
  dsimp only at hset hid ⊢
  have hget := Dict.mem_items.mp (List.of_mem_zip hzip).1
  have hids : s.tenantTokens.ids t r = set := by
    unfold TenantTokens.ids
    cases hd : s.tenantTokens.get? t with
    | none =>
      rw [hd, Option.getD_none, Dict.get?_empty] at hget
      cases hget
    | some d =>
      rw [hd, Option.getD_some] at hget
      simp [hget]
  rw [hids, ← hset]
  exact List.mem_toFinset.mpr hid

/-- A tracked id is held by its tenant. -/
theorem holderOf_of_mem_ids (h : s.Tracked) {t r id t' : String}
    (hid : id ∈ s.tenantTokens.ids t r) (ht : t' ∈ s.holderOf r id) : t' = t := by
  obtain ⟨p, hp, ht⟩ := Option.bind_eq_some_iff.mp ht
  obtain ⟨token, hget, rfl⟩ := Option.map_eq_some_iff.mp ht
  have htracks : s.tenantTokens.ids t r = p.idsOf t := (h.pool r p hp).tracks t
  rw [htracks] at hid
  obtain ⟨token', hget', rfl⟩ := PoolSystem.mem_idsOf.mp hid
  rw [Option.some.inj (hget.symm.trans hget')]

theorem forceRelease (h : s.Tracked) {t : String} {orders : List (List String)} {now : ℤ}
    (hw : s.QuietReleases (.forceRelease t orders now)) {v : ConcurrencyManager × ℕ}
    (hst : s.forceReleaseTenantTokens t orders now = some v) : v.1.Tracked := by
  unfold forceReleaseTenantTokens at hst
  split_ifs at hst with ho
  obtain rfl := Option.some.inj hst
  refine releaseTracked t now _ 0 h (fun r p hp => hw (r, p) (Dict.mem_items.mpr hp))
    fun x hx t' ht' => ?_
  exact h.holderOf_of_mem_ids (mem_ids_of_trackedPairs ho hx) ht'

theorem cleanup (h : s.Tracked) {now : ℤ}
    (hnone : ∀ x ∈ s.tokenPools.items, x.2.expiredTokens now = []) :
    (s.cleanupExpiredTokens now).Tracked := by
  refine ⟨fun r p' hp' => ?_⟩
  simp only [cleanupExpiredTokens, Dict.get?_mapValues] at hp'
  obtain ⟨p, hp, rfl⟩ := Option.map_eq_some_iff.mp hp'
  have hsame : p.cleanupExpired now = p := by
    unfold PoolSystem.cleanupExpired
    rw [hnone (r, p) (Dict.mem_items.mpr hp)]
    rfl
  rw [hsame]
  exact h.pool r p hp

theorem timeout (h : s.Tracked) {r : String} {p q : PoolSystem} {c : ℕ}
    (hp : s.tokenPools.get? r = some p) (hq : p.step (.timeout c) = some q) :
    ({ s with tokenPools := s.tokenPools.set r q } : ConcurrencyManager).Tracked := by
  refine h.update rfl (fun _ _ _ => rfl) ?_
  simp only [PoolSystem.step] at hq
  split at hq
  · obtain rfl := Option.some.inj hq
    exact (h.pool r p hp).setState c _ (by simp)
  · cases hq

theorem resume (h : s.Tracked) {r : String} {p q : PoolSystem} {c : ℕ}
    (hp : s.tokenPools.get? r = some p) (hq : p.step (.resume c) = some q) :
    (s.settle r q c).Tracked := by
  have hold := h.pool r p hp
  simp only [PoolSystem.step] at hq
  split at hq
  · exact absurd ‹_› (hold.undelivered c _ _)
  · rename_i t hc
    obtain rfl := Option.some.inj hq
    have hend : (p.finish c none).calls[c]? = some ⟨t, .returned none⟩ := by
      simp [PoolSystem.finish, PoolSystem.setState, hc]
    have hsame : (s.settle r (p.finish c none) c).tenantTokens = s.tenantTokens := by
      simp [settle, hend]
    refine h.update rfl (fun _ _ _ => by rw [hsame]) ?_
    rw [hsame]
    exact (hold.setState c (.returned none) (by simp)).congr rfl rfl rfl
      (fun _ _ hx => hx) fun _ _ _ hx => hx
  · cases hq

/-- Every attributed step keeps the two tables together. -/
theorem step (h : s.Tracked) {e : ManagerEvent} (hok : s.Attributed e)
    (hst : s.step e = some u) : u.Tracked := by
  obtain ⟨hw, hok⟩ := hok
  cases e with
  | acquire t r timeoutSeconds expiresIn now pick => exact h.acquireToken hst
  | release token now =>
    obtain rfl := Option.some.inj hst
    refine h.releaseFor (fun p hp hid => ?_) hok
    have hq := hw _ (Dict.mem_items.mpr hp)
    simpa [releases, hid] using hq
  | forceRelease t orders now =>
    obtain ⟨v, hv, rfl⟩ := Option.map_eq_some_iff.mp hst
    exact h.forceRelease hw hv
  | cleanup now =>
    obtain rfl := Option.some.inj hst
    exact h.cleanup hok
  | timeout r c =>
    obtain ⟨p, hp, hst⟩ := Option.bind_eq_some_iff.mp hst
    obtain ⟨q, hq, rfl⟩ := Option.map_eq_some_iff.mp hst
    exact h.timeout hp hq
  | resume r c =>
    obtain ⟨p, hp, hst⟩ := Option.bind_eq_some_iff.mp hst
    obtain ⟨q, hq, rfl⟩ := Option.map_eq_some_iff.mp hst
    exact h.resume hp hq

/-- The limits of a tenant do not change what is tracked. -/
theorem setTenantLimits (h : s.Tracked) (limits : ConcurrencyLimits) :
    (s.setTenantLimits limits).Tracked := by
  have hids : ∀ (rs : List String) (m : TenantTokens) (t r : String),
      (rs.foldl (fun m r => m.ensure limits.tenantId r) m).ids t r = m.ids t r := by
    intro rs
    induction rs with
    | nil => exact fun _ _ _ => rfl
    | cons r' rs ih =>
      intro m t r
      rw [List.foldl_cons, ih, TenantTokens.ids_ensure]
  refine ⟨fun r p hp => ?_⟩
  simpa only [ConcurrencyManager.setTenantLimits, hids] using h.pool r p hp

end Tracked

theorem tracked_init (limits : List ConcurrencyLimits) : (managerMachine limits).init.Tracked := by
  have hnew : new.Tracked := by
    refine ⟨fun r p hp => ?_⟩
    obtain ⟨n, rfl⟩ := get?_newPools hp
    exact .start r n
  have hfold : ∀ (ls : List ConcurrencyLimits) (s : ConcurrencyManager), s.Tracked →
      (ls.foldl ConcurrencyManager.setTenantLimits s).Tracked := by
    intro ls
    induction ls with
    | nil => exact fun _ h => h
    | cons l ls ih => exact fun _ h => ih _ (h.setTenantLimits l)
  exact hfold limits new hnew

/-- In the runs over `ok`, whenever no acquire is suspended, the ids tracked for a tenant
are the acquired ids that the tenant holds, for every tenant with tracking and every
resource type. -/
def TracksHolders (limits : List ConcurrencyLimits)
    (ok : ConcurrencyManager → ManagerEvent → Prop) : Prop :=
  ∀ es s, (managerMachine limits).Run ok es s → s.Settled → ∀ t ∈ s.tenantTokens,
    ∀ r p, s.tokenPools.get? r = some p → s.tenantTokens.ids t r = p.idsOf t

/-- The two tables agree in every run of attributed steps. -/
theorem tracksHolders (limits : List ConcurrencyLimits) : TracksHolders limits Attributed := by
  intro es s hrun _ t _ r p hp
  have hinv : s.Tracked := hrun.invariant (tracked_init limits) fun _ _ _ hs hok hst =>
    hs.step hok hst
  exact (hinv.pool r p hp).tracks t

/-- The cleanup takes an expired token out of the pool, and leaves its id tracked. -/
theorem not_tracksHolders :
    ¬∀ limits : List ConcurrencyLimits, TracksHolders limits fun _ _ => True := by
  intro h
  let pick := tokenId "agents" 0
  let p := newAgents.acquireNow "a" (some 1) 0 pick
  let s := new.settle "agents" p 0
  have hcheck : new.checkTenantLimits "a" "agents" = true := by decide
  have hst : new.step (.acquire "a" "agents" none (some 1) 0 pick) = some s :=
    step_acquireNow none (some 1) 0 get?_newAgents hcheck (mem_newAgents (by decide))
  have hclean : s.step (.cleanup 5) = some (s.cleanupExpiredTokens 5) := rfl
  have hnil : (managerMachine []).Run (fun _ _ => True) [] new := .nil
  have hrun := run_snoc (run_snoc hnil trivial hst) trivial hclean
  have hpool : (s.cleanupExpiredTokens 5).tokenPools.get? "agents" =
      some (p.cleanupExpired 5) := by
    simp [cleanupExpiredTokens, s, settle, Dict.get?_mapValues]
  have hsettled : (s.cleanupExpiredTokens 5).Settled := by
    intro r q hq x hx
    simp only [cleanupExpiredTokens, s, settle, Dict.get?_mapValues, Dict.get?_set] at hq
    obtain ⟨q', hq', rfl⟩ := Option.map_eq_some_iff.mp hq
    split_ifs at hq' with hr
    · obtain rfl := Option.some.inj hq'
      have hcalls : (p.cleanupExpired 5).calls = p.calls := rfl
      rw [hcalls] at hx
      obtain rfl : x = ⟨"a", .returned (some (newAgents.newToken "a" (some 1) 0 pick))⟩ := by
        simpa [p, PoolSystem.acquireNow, newAgents] using hx
      exact ⟨_, rfl⟩
    · obtain ⟨n, rfl⟩ := get?_newPools hq'
      have hcalls : (PoolSystem.cleanupExpired { pool := .new r n } 5).calls = [] := rfl
      simp [hcalls] at hx
  have hids : (s.cleanupExpiredTokens 5).tenantTokens.ids "a" "agents" = {pick} := by
    have htokens : (s.cleanupExpiredTokens 5).tenantTokens =
        TenantTokens.track .empty "a" "agents" pick := rfl
    rw [htokens, TenantTokens.ids_track, if_pos ⟨rfl, rfl⟩]
    rfl
  have hnone : (p.cleanupExpired 5).idsOf "a" = ∅ := by
    have hitems : (p.cleanupExpired 5).pool.acquiredTokens.items = [] := by decide
    simp [PoolSystem.idsOf, hitems]
  have heq := h [] _ _ hrun hsettled "a" (by decide) "agents" _ hpool
  rw [hids, hnone] at heq
  exact Finset.singleton_ne_empty _ heq

end ConcurrencyManager

end ConcurrencyTokens

end MultiAgent
