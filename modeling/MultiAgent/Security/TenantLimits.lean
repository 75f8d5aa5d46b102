import MultiAgent.Security.ConcurrencyManager

/-!
# The limits of the tenants

`acquire_token` of the manager compares the limit of a tenant with the ids that are
tracked for it, and only then waits in the pool; the token it waited for is tracked when
it goes on. Calls that wait at the same time all saw the count from before, so each of
them passes, however low the limit is (`not_keepsLimits`).

A call that does not wait is checked and tracked in one step. So a tenant never holds
more than its limit in the runs in which no release hands its token to a call that waits
(`keepsLimits`).
-/

namespace MultiAgent

namespace ConcurrencyTokens

namespace PoolSystem

/-- The tokens in the hands of the callers of a tenant. -/
def heldBy (p : PoolSystem) (tenantId : String) : List Holding :=
  p.held.filter fun h => p.tenants[h.call]? = some tenantId

end PoolSystem

/-- Every token that a caller holds is tracked for its tenant, and no tenant holds more
than its limit. -/
structure PoolLimited (limit : String → Option ℤ) (ids : String → Finset String)
    (p : PoolSystem) : Prop where
  partition : ∃ resourceType n, Partition resourceType n p
  tracked : ∀ h ∈ p.held, h.token.tokenId ∈ ids h.token.tenantId
  limited : ∀ t max, limit t = some max → 0 ≤ max → (p.heldBy t).length ≤ max

namespace PoolLimited

variable {limit : String → Option ℤ} {ids : String → Finset String} {p q : PoolSystem}

theorem start (limit : String → Option ℤ) (ids : String → Finset String) (resourceType : String)
    (n : ℕ) : PoolLimited limit ids { pool := .new resourceType n } where
  partition := ⟨resourceType, n, .start⟩
  tracked h hh := by simp at hh
  limited t max _ hmax := by simpa [PoolSystem.heldBy] using hmax

/-- More ids may be tracked. -/
theorem mono (h : PoolLimited limit ids p) {ids' : String → Finset String}
    (hsub : ∀ t, ids t ⊆ ids' t) : PoolLimited limit ids' p :=
  ⟨h.partition, fun x hx => hsub _ (h.tracked x hx), h.limited⟩

/-- The tokens of a tenant are tracked for it, so they are no more than its ids. -/
theorem length_heldBy_le (h : PoolLimited limit ids p) (t : String) :
    (p.heldBy t).length ≤ (ids t).card := by
  obtain ⟨r, n, hp⟩ := h.partition
  have hnodup : ((p.heldBy t).map fun x => x.token.tokenId).Nodup :=
    hp.unique.sublist (List.filter_sublist.map _)
  rw [← List.length_map (f := fun x : Holding => x.token.tokenId),
    ← List.toFinset_card_of_nodup hnodup]
  refine Finset.card_le_card fun id hid => ?_
  obtain ⟨x, hx, rfl⟩ := List.mem_map.mp (List.mem_toFinset.mp hid)
  obtain ⟨hmem, ht⟩ := List.mem_filter.mp hx
  obtain rfl := Option.some.inj ((hp.held x hmem).2.symm.trans (of_decide_eq_true ht))
  exact h.tracked x hmem

/-- The callers of a tenant hold the same tokens after other calls came or went on. -/
theorem heldBy_congr (h : PoolLimited limit ids p) (t : String)
    (hten : ∀ (i : ℕ) (x : String), p.tenants[i]? = some x → q.tenants[i]? = some x) :
    (p.held.filter fun h => q.tenants[h.call]? = some t) = p.heldBy t := by
  obtain ⟨r, n, hp⟩ := h.partition
  refine List.filter_congr fun x hx => ?_
  rw [(hp.held x hx).2, hten _ _ (hp.held x hx).2]

theorem congr (h : PoolLimited limit ids p)
    (havail : q.pool.availableTokens = p.pool.availableTokens)
    (hacq : q.pool.acquiredTokens = p.pool.acquiredTokens) (hheld : q.held = p.held)
    (hten : ∀ (i : ℕ) (x : String), p.tenants[i]? = some x → q.tenants[i]? = some x) :
    PoolLimited limit ids q where
  partition := by
    obtain ⟨r, n, hp⟩ := h.partition
    exact ⟨r, n, hp.congr havail hacq hheld hten⟩
  tracked x hx := h.tracked x (hheld ▸ hx)
  limited t max hmax hpos := by
    rw [PoolSystem.heldBy, hheld, h.heldBy_congr t hten]
    exact h.limited t max hmax hpos

theorem acquireNow (h : PoolLimited limit ids p) {pick t : String}
    (hpick : pick ∈ p.pool.availableTokens)
    (hcheck : ∀ max, limit t = some max → ((ids t).card : ℤ) < max) (expiresIn : Option ℤ)
    (now : ℤ) : PoolLimited limit (fun t' => if t' = t then insert pick (ids t) else ids t')
      (p.acquireNow t expiresIn now pick) where
  partition := by
    obtain ⟨r, n, hp⟩ := h.partition
    exact ⟨r, n, hp.acquireNow hpick t expiresIn now⟩
  tracked x hx := by
    rcases List.mem_append.mp hx with hx | hx
    · have hold := h.tracked x hx
      split_ifs with ht
      · exact Finset.mem_insert_of_mem (ht ▸ hold)
      · exact hold
    · obtain rfl := List.mem_singleton.mp hx
      simp [PoolSystem.newToken]
  limited t' max hmax hpos := by
    have hheld : (p.acquireNow t expiresIn now pick).heldBy t' = p.heldBy t' ++
        if t' = t then [⟨p.calls.length, p.newToken t expiresIn now pick⟩] else [] := by
      simp only [PoolSystem.heldBy, PoolSystem.acquireNow, List.filter_append]
      congr 1
      · exact h.heldBy_congr t' (tenants_append p _ _ _)
      · by_cases ht : t' = t
        · simp [PoolSystem.tenants, ht]
        · simp [PoolSystem.tenants, ht, Ne.symm ht]
    rw [hheld, List.length_append]
    have hold := h.limited t' max hmax hpos
    split_ifs with ht
    · have hlt := hcheck max (ht ▸ hmax)
      have hle := h.length_heldBy_le t
      rw [ht, List.length_singleton]
      omega
    · simpa using hold

/-- A release in front of a quiet queue, after which the id is discarded for a tenant. -/
theorem release (h : PoolLimited limit ids p) {id : String} (t : String) (now : ℤ)
    (hid : id ∈ p.pool.acquiredTokens) (hw : p.QuietQueue 1) :
    PoolLimited limit (fun t' => if t' = t then (ids t).erase id else ids t')
      (p.releaseToken id now).1 where
  partition := by
    obtain ⟨r, n, hp⟩ := h.partition
    exact ⟨r, n, hp.releaseToken hw⟩
  tracked x hx := by
    rw [PoolSystem.releaseToken_of_quiet now hid hw] at hx
    obtain ⟨hmem, hne⟩ := List.mem_filter.mp hx
    have hold := h.tracked x hmem
    split_ifs with ht
    · exact Finset.mem_erase.mpr ⟨of_decide_eq_true hne, ht ▸ hold⟩
    · exact hold
  limited t' max hmax hpos := by
    have hsub : ((p.releaseToken id now).1.heldBy t').length ≤ (p.heldBy t').length := by
      rw [PoolSystem.releaseToken_of_quiet now hid hw]
      exact (List.filter_sublist.filter _).length_le
    have hold := h.limited t' max hmax hpos
    omega

end PoolLimited

namespace ConcurrencyManager

/-- The limit of a tenant for a resource type. -/
def limitFor (s : ConcurrencyManager) (resourceType tenantId : String) : Option ℤ :=
  (s.tenantLimits.get? tenantId).bind fun l => l.maxFor resourceType

/-- An acquire, a release or a step of a waiting call, with no release that finds a pending
waiter. -/
def KeepsTokens (s : ConcurrencyManager) (e : ManagerEvent) : Prop :=
  s.QuietReleases e ∧
    match e with
    | .forceRelease _ _ _ => False
    | .cleanup _ => False
    | _ => True

/-- The callers of every tenant stay within its limits. -/
structure Limited (s : ConcurrencyManager) : Prop where
  pool : ∀ r p, s.tokenPools.get? r = some p →
    PoolLimited (s.limitFor r) (fun t => s.tenantTokens.ids t r) p

theorem card_lt_of_checkTenantLimits {s : ConcurrencyManager} {t r : String}
    (h : s.checkTenantLimits t r = true) {max : ℤ} (hmax : s.limitFor r t = some max) :
    ((s.tenantTokens.ids t r).card : ℤ) < max := by
  obtain ⟨l, hl, hm⟩ := Option.bind_eq_some_iff.mp hmax
  simpa [checkTenantLimits, hl, hm] using h

namespace Limited

variable {s u : ConcurrencyManager}

/-- A step that changes one pool, and the ids tracked for it. -/
theorem update (h : s.Limited) {r : String} {q : PoolSystem}
    (hpools : u.tokenPools = s.tokenPools.set r q) (hlimits : u.tenantLimits = s.tenantLimits)
    (hids : ∀ t r', r' ≠ r → u.tenantTokens.ids t r' = s.tenantTokens.ids t r')
    (hq : PoolLimited (s.limitFor r) (fun t => u.tenantTokens.ids t r) q) : u.Limited := by
  have hfor : ∀ r', u.limitFor r' = s.limitFor r' := fun r' => by
    funext t
    simp only [limitFor, hlimits]
  refine ⟨fun r' p' hp' => ?_⟩
  rw [hpools, Dict.get?_set] at hp'
  rw [hfor]
  split_ifs at hp' with hr
  · obtain rfl := Option.some.inj hp'
    exact hr ▸ hq
  · simpa only [hids _ r' hr] using h.pool r' p' hp'

theorem acquireToken (h : s.Limited) {t r pick : String} {timeoutSeconds expiresIn : Option ℤ}
    {now : ℤ} (hst : s.acquireToken t r timeoutSeconds expiresIn now pick = some u) :
    u.Limited := by
  obtain rfl | ⟨p, hp, ⟨hcheck, hpick, rfl⟩ | rfl | rfl⟩ := acquireToken_cases hst
  · exact h
  · refine h.update rfl rfl (fun t' r' hr => ?_) ?_
    · simp [TenantTokens.ids_track, hr]
    · have hnew := (h.pool r p hp).acquireNow hpick
        (fun _ => card_lt_of_checkTenantLimits hcheck) expiresIn now
      simpa [TenantTokens.ids_track] using hnew
  · exact h.update rfl rfl (fun _ _ _ => rfl)
      ((h.pool r p hp).congr rfl rfl rfl (tenants_append p _ _ _))
  · exact h.update rfl rfl (fun _ _ _ => rfl)
      ((h.pool r p hp).congr rfl rfl rfl (tenants_append p _ _ _))

theorem releaseFor (h : s.Limited) {t r id : String} {now : ℤ}
    (hw : ∀ p, s.tokenPools.get? r = some p → id ∈ p.pool.acquiredTokens → p.QuietQueue 1) :
    (s.releaseFor t r id now).1.Limited := by
  obtain hs | ⟨p, hp, hs | ⟨hid, hs⟩⟩ := releaseFor_cases s t r id now <;> rw [hs]
  · exact h
  · exact h.update rfl rfl (fun _ _ _ => rfl) (h.pool r p hp)
  · refine h.update rfl rfl (fun t' r' hr => ?_) ?_
    · simp [TenantTokens.ids_discard, hr]
    · have hnew := (h.pool r p hp).release t now hid (hw p hp hid)
      simpa [TenantTokens.ids_discard] using hnew

/-- A waiting call goes on or is timed out : nothing changes hands. -/
theorem wait (h : s.Limited) {r : String} {p : PoolSystem} (hp : s.tokenPools.get? r = some p)
    (c : ℕ) (state : AcquireState) {queue : List ℕ} {tokens : TenantTokens}
    (hids : ∀ t r', s.tenantTokens.ids t r' ⊆ tokens.ids t r' ∧
      (r' ≠ r → tokens.ids t r' = s.tenantTokens.ids t r')) :
    ({ s with
        tokenPools := s.tokenPools.set r { p.setState c state with
          pool := { p.pool with waitingRequests := queue } }
        tenantTokens := tokens } : ConcurrencyManager).Limited :=
  h.update rfl rfl (fun t r' hr => (hids t r').2 hr)
    (((h.pool r p hp).mono fun t => (hids t r).1).congr rfl rfl rfl
      fun _ _ hx => (PoolSystem.tenants_setState p c state).symm ▸ hx)

theorem step (h : s.Limited) {e : ManagerEvent} (hok : s.KeepsTokens e)
    (hst : s.step e = some u) : u.Limited := by
  obtain ⟨hw, hok⟩ := hok
  cases e with
  | acquire t r timeoutSeconds expiresIn now pick => exact h.acquireToken hst
  | release token now =>
    obtain rfl := Option.some.inj hst
    refine h.releaseFor fun p hp hid => ?_
    have hq := hw _ (Dict.mem_items.mpr hp)
    simpa [releases, hid] using hq
  | forceRelease t orders now => exact hok.elim
  | cleanup now => exact hok.elim
  | timeout r c =>
    obtain ⟨p, hp, hst⟩ := Option.bind_eq_some_iff.mp hst
    obtain ⟨q, hq, rfl⟩ := Option.map_eq_some_iff.mp hst
    simp only [PoolSystem.step] at hq
    split at hq
    · obtain rfl := Option.some.inj hq
      exact h.wait hp c (.waiting .timedOut) fun _ _ => ⟨subset_rfl, fun _ => rfl⟩
    · cases hq
  | resume r c =>
    obtain ⟨p, hp, hst⟩ := Option.bind_eq_some_iff.mp hst
    obtain ⟨q, hq, rfl⟩ := Option.map_eq_some_iff.mp hst
    simp only [PoolSystem.step] at hq
    split at hq
    · obtain rfl := Option.some.inj hq
      exact h.wait hp c _ (s.ids_settle r _ c)
    · obtain rfl := Option.some.inj hq
      exact h.wait hp c _ (s.ids_settle r _ c)
    · cases hq

end Limited

/-- In the runs over `ok`, no tenant holds more tokens of a resource type than its limit,
if that is not negative. -/
def KeepsLimits (limits : List ConcurrencyLimits)
    (ok : ConcurrencyManager → ManagerEvent → Prop) : Prop :=
  ∀ es s, (managerMachine limits).Run ok es s → ∀ t r p max,
    s.tokenPools.get? r = some p → s.limitFor r t = some max → 0 ≤ max →
    (p.heldBy t).length ≤ max

/-- The limits hold in every run in which no release hands its token to a waiting call. -/
theorem keepsLimits (limits : List ConcurrencyLimits) : KeepsLimits limits KeepsTokens := by
  intro es s hrun t r p max hp hmax hpos
  have hinit : (managerMachine limits).init.Limited := by
    refine ⟨fun r p hp => ?_⟩
    rw [tokenPools_configured] at hp
    obtain ⟨n, rfl⟩ := get?_newPools hp
    exact .start _ _ r n
  have hinv : s.Limited := hrun.invariant hinit fun _ _ _ hs hok hst => hs.step hok hst
  exact (hinv.pool r p hp).limited t max hmax hpos

end ConcurrencyManager

/-! ## Calls that wait together -/

namespace PoolSystem

variable {p : PoolSystem}

theorem tenants_finish (p : PoolSystem) (c : ℕ) (token : Option ConcurrencyToken) :
    (p.finish c token).tenants = p.tenants :=
  tenants_setState p c (.returned token)

/-- A release that finds a pending waiter hands it the token. -/
theorem releaseToken_of_pending {id : String} {token : ConcurrencyToken} {w : ℕ} {ws : List ℕ}
    (now : ℤ) (hget : p.pool.acquiredTokens.get? id = some token)
    (hqueue : p.pool.waitingRequests = w :: ws) (hpend : p.isPending w = true) :
    ∃ copy : ConcurrencyToken, copy.tokenId = token.tokenId ∧
      (p.releaseToken id now).1.held =
        (p.held.filter fun h => h.token.tokenId ≠ id) ++ [⟨w, copy⟩] ∧
      (p.releaseToken id now).1.calls = (p.setState w (.waiting (.result copy))).calls ∧
      (p.releaseToken id now).1.pool.waitingRequests = ws ∧
      (p.releaseToken id now).1.pool.acquiredTokens = p.pool.acquiredTokens.erase id := by
  obtain ⟨⟨resourceType, n, avail, acq, queue⟩, calls, held⟩ := p
  dsimp only at hget hqueue hpend
  subst hqueue
  have hpend' : ∀ pool held, PoolSystem.isPending ⟨pool, calls, held⟩ w = true :=
    fun _ _ => hpend
  refine ⟨{ token with resourceType := resourceType, acquiredAt := now, status := .acquired },
    rfl, ?_⟩
  simp [releaseToken, hget, notify, putBack, hpend', setState]

theorem modify_append_right {α : Type*} (f : α → α) (m : List α) (k : ℕ) :
    ∀ l : List α, (l ++ m).modify (l.length + k) f = l ++ m.modify k f
  | [] => by simp
  | a :: l => by
    rw [List.length_cons, Nat.add_right_comm, List.cons_append, List.modify_succ_cons,
      modify_append_right f m k l, List.cons_append]

/-- Two calls of a tenant join an empty queue, and two releases hand each of them a token. -/
theorem handOver_two {x y t : String} {tx ty : ConcurrencyToken} (now : ℤ)
    (hx : p.pool.acquiredTokens.get? x = some tx) (hy : p.pool.acquiredTokens.get? y = some ty)
    (htx : tx.tokenId = x) (hne : x ≠ y) (hqueue : p.pool.waitingRequests = []) :
    ∃ (held : List Holding) (cx cy : ConcurrencyToken) (q : PoolSystem),
      q = ((((p.enqueue t).enqueue t).releaseToken x now).1.releaseToken y now).1 ∧
      q.held = held ++ [⟨p.calls.length, cx⟩, ⟨p.calls.length + 1, cy⟩] ∧
      q.calls = p.calls ++ [⟨t, .waiting (.result cx)⟩, ⟨t, .waiting (.result cy)⟩] := by
  have hpend : ((p.enqueue t).enqueue t).isPending p.calls.length = true := by
    simp [isPending, enqueue]
  have hqueue₂ : ((p.enqueue t).enqueue t).pool.waitingRequests =
      [p.calls.length, p.calls.length + 1] := by
    simp [enqueue, hqueue]
  obtain ⟨cx, hcx, hheld, hcalls, hqueue₃, hacq⟩ :=
    releaseToken_of_pending now (p := (p.enqueue t).enqueue t) hx hqueue₂ hpend
  generalize (((p.enqueue t).enqueue t).releaseToken x now).1 = r at hheld hcalls hqueue₃ hacq
  have hcalls₃ : r.calls = p.calls ++ [⟨t, .waiting (.result cx)⟩, ⟨t, .waiting .pending⟩] := by
    rw [hcalls]
    have hmodify := modify_append_right
      (fun k : AcquireCall => { k with state := .waiting (.result cx) })
      [⟨t, .waiting .pending⟩, ⟨t, .waiting .pending⟩] 0 p.calls
    simpa [setState, enqueue] using hmodify
  have hpend₃ : r.isPending (p.calls.length + 1) = true := by
    simp [isPending, hcalls₃]
  have hy₃ : r.pool.acquiredTokens.get? y = some ty := by
    rw [hacq, Dict.get?_erase, if_neg (Ne.symm hne)]
    exact hy
  obtain ⟨cy, -, hheld₄, hcalls₄, -⟩ := releaseToken_of_pending now hy₃ hqueue₃ hpend₃
  refine ⟨((((p.enqueue t).enqueue t).held.filter fun h => h.token.tokenId ≠ x).filter
    fun h => h.token.tokenId ≠ y), cx, cy, _, rfl, ?_, ?_⟩
  · rw [hheld₄, hheld, List.filter_append, List.append_assoc]
    have hkeep : List.filter (fun h : Holding => decide (h.token.tokenId ≠ y))
        [⟨p.calls.length, cx⟩] = [⟨p.calls.length, cx⟩] := by
      simp [hcx, htx, hne]
    rw [hkeep]
    simp
  · rw [hcalls₄]
    have hmodify := modify_append_right
      (fun k : AcquireCall => { k with state := .waiting (.result cy) })
      [⟨t, .waiting (.result cx)⟩, ⟨t, .waiting .pending⟩] 1 p.calls
    simpa [setState, hcalls₃] using hmodify

/-- The two calls go on, and the tenant holds what they were handed. -/
theorem two_le_heldBy {held : List Holding} {cx cy : ConcurrencyToken} {q : PoolSystem} {t : String}
    (hheld : q.held = held ++ [⟨p.calls.length, cx⟩, ⟨p.calls.length + 1, cy⟩])
    (hcalls : q.calls = p.calls ++ [⟨t, .waiting (.result cx)⟩, ⟨t, .waiting (.result cy)⟩]) :
    2 ≤ (((q.finish p.calls.length (some cx)).finish (p.calls.length + 1) (some cy)).heldBy
      t).length := by
  have hlen : p.tenants.length = p.calls.length := List.length_map _
  have hten : ((q.finish p.calls.length (some cx)).finish (p.calls.length + 1)
      (some cy)).tenants = p.tenants ++ [t, t] := by
    rw [tenants_finish, tenants_finish, tenants, hcalls, List.map_append]
    rfl
  have hboth : (q.held.filter fun x => (p.tenants ++ [t, t])[x.call]? = some t).length =
      (held.filter fun x => (p.tenants ++ [t, t])[x.call]? = some t).length + 2 := by
    rw [hheld, List.filter_append, List.length_append]
    congr 1
    simp [← hlen]
  rw [heldBy, hten]
  exact hboth ▸ Nat.le_add_left 2 _

/-- The first step of a waiting call. -/
theorem acquireToken_of_empty (t pick : String) {d : ℤ} (expiresIn : Option ℤ) (now : ℤ)
    (havail : p.pool.availableTokens = ∅) (hd : 0 < d) :
    p.acquireToken t (some d) expiresIn now pick = some (p.enqueue t) := by
  simp [acquireToken, havail, Int.not_le.mpr hd]

end PoolSystem

namespace ConcurrencyManager

/-- A tenant that may have one agent. -/
def oneAgent : ConcurrencyLimits where
  tenantId := "a"
  maxConcurrentRequests := 1
  maxConcurrentAgents := 1
  maxConcurrentWorkflows := 1
  maxConcurrentTools := 1

/-- Another tenant has taken the first `k` tokens of the agents. -/
structure Taken (k : ℕ) (s : ConcurrencyManager) (p : PoolSystem) : Prop where
  pool : s.tokenPools.get? "agents" = some p
  available : ∀ id ∈ p.pool.availableTokens, ∃ i, k ≤ i ∧ i < 100 ∧ id = tokenId "agents" i
  rest : ∀ i, k ≤ i → i < 100 → tokenId "agents" i ∈ p.pool.availableTokens
  queue : p.pool.waitingRequests = []
  acquired : ∀ i < k, ∃ token, p.pool.acquiredTokens.get? (tokenId "agents" i) = some token ∧
    token.tokenId = tokenId "agents" i
  limits : s.tenantLimits.items = [("a", oneAgent)]
  free : s.tenantTokens.ids "a" "agents" = ∅

theorem Taken.acquire {k : ℕ} {s : ConcurrencyManager} {p : PoolSystem} (h : Taken k s p)
    (hk : k < 100) :
    ∃ u q, s.step (.acquire "b" "agents" none none 0 (tokenId "agents" k)) = some u ∧
      Taken (k + 1) u q := by
  have hnone : s.tenantLimits.get? "b" = none := by
    unfold Dict.get?
    rw [h.limits]
    rfl
  have hcheck : s.checkTenantLimits "b" "agents" = true := by
    simp [checkTenantLimits, hnone]
  refine ⟨_, p.acquireNow "b" none 0 (tokenId "agents" k),
    step_acquireNow none none 0 h.pool hcheck (h.rest k le_rfl hk), ?_⟩
  refine ⟨Dict.get?_set_self _ _ _, fun id hid => ?_, fun i hi hlt => ?_, h.queue,
    fun i hi => ?_, h.limits, ?_⟩
  · obtain ⟨hne, hid⟩ := Finset.mem_erase.mp hid
    obtain ⟨i, hi, hlt, rfl⟩ := h.available id hid
    exact ⟨i, Nat.lt_of_le_of_ne hi fun he => hne (he ▸ rfl), hlt, rfl⟩
  · refine Finset.mem_erase.mpr ⟨fun he => ?_, h.rest i (Nat.le_of_succ_le hi) hlt⟩
    have := tokenId_injective "agents" he
    omega
  · simp only [PoolSystem.acquireNow, Dict.get?_set]
    split_ifs with he
    · exact ⟨_, rfl, he.symm⟩
    · exact h.acquired i (Nat.lt_of_le_of_ne (Nat.le_of_lt_succ hi) fun hik => he (hik ▸ rfl))
  · simp [settle, PoolSystem.acquireNow, TenantTokens.ids_track, h.free]

theorem exists_taken (k : ℕ) (hk : k ≤ 100) : ∃ es s p,
    (managerMachine [oneAgent]).Run (fun _ _ => True) es s ∧ Taken k s p := by
  induction k with
  | zero =>
    refine ⟨[], _, newAgents, .nil, ?_, fun id hid => ?_, fun i _ hi => mem_newAgents hi, rfl,
      fun i hi => absurd hi (Nat.not_lt_zero i), rfl, rfl⟩
    · rw [tokenPools_configured]
      exact get?_newAgents
    · obtain ⟨i, hi, rfl⟩ := Finset.mem_image.mp hid
      exact ⟨i, Nat.zero_le i, Finset.mem_range.mp hi, rfl⟩
  | succ k ih =>
    obtain ⟨es, s, p, hrun, h⟩ := ih (Nat.le_of_succ_le hk)
    obtain ⟨u, q, hst, hq⟩ := h.acquire hk
    exact ⟨_, u, q, run_snoc hrun trivial hst, hq⟩

/-- A call that is let through and waits. -/
theorem step_enqueue {s : ConcurrencyManager} {p : PoolSystem} {t r : String}
    (now : ℤ) (hp : s.tokenPools.get? r = some p) (hcheck : s.checkTenantLimits t r = true)
    (havail : p.pool.availableTokens = ∅) :
    ∃ u, s.step (.acquire t r (some 5) none now "") = some u ∧
      u.tokenPools.get? r = some (p.enqueue t) ∧ u.tenantLimits = s.tenantLimits ∧
      u.tenantTokens = s.tenantTokens := by
  have hwait := PoolSystem.acquireToken_of_empty t "" (d := 5) none now havail (by decide)
  refine ⟨s.settle r (p.enqueue t) p.calls.length, ?_, Dict.get?_set_self _ _ _, rfl, ?_⟩
  · simp [ConcurrencyManager.step, ConcurrencyManager.acquireToken, hp, hcheck, hwait]
  · simp [settle, PoolSystem.enqueue]

theorem step_release {s : ConcurrencyManager} {p : PoolSystem} (token : ConcurrencyToken)
    (now : ℤ) (hp : s.tokenPools.get? token.resourceType = some p) :
    ∃ u, s.step (.release token now) = some u ∧
      u.tokenPools.get? token.resourceType = some (p.releaseToken token.tokenId now).1 ∧
      u.tenantLimits = s.tenantLimits := by
  refine ⟨(s.releaseToken token now).1, rfl, ?_, ?_⟩ <;>
    simp [ConcurrencyManager.releaseToken, releaseFor, hp]

theorem step_resume {s : ConcurrencyManager} {p : PoolSystem} {t r : String} (c : ℕ)
    (token : ConcurrencyToken) (hp : s.tokenPools.get? r = some p)
    (hc : p.calls[c]? = some ⟨t, .waiting (.result token)⟩) :
    ∃ u, s.step (.resume r c) = some u ∧
      u.tokenPools.get? r = some (p.finish c (some token)) ∧ u.tenantLimits = s.tenantLimits := by
  refine ⟨s.settle r (p.finish c (some token)) c, ?_, Dict.get?_set_self _ _ _, rfl⟩
  simp [ConcurrencyManager.step, hp, PoolSystem.step, hc]

/-- Two calls of a tenant that may have one token wait together, and two releases hand each
of them one. -/
theorem not_keepsLimits :
    ¬∀ limits : List ConcurrencyLimits, KeepsLimits limits fun _ _ => True := by
  intro h
  obtain ⟨es, s, p, hrun, hs⟩ := exists_taken 100 le_rfl
  have hempty : p.pool.availableTokens = ∅ := by
    refine Finset.eq_empty_iff_forall_notMem.mpr fun id hid => ?_
    obtain ⟨i, hi, hlt, -⟩ := hs.available id hid
    omega
  have hlimit : s.tenantLimits.get? "a" = some oneAgent := by
    unfold Dict.get?
    rw [hs.limits]
    rfl
  have hcheck : s.checkTenantLimits "a" "agents" = true := by
    simp [checkTenantLimits, hlimit, hs.free, oneAgent, ConcurrencyLimits.maxFor]
  obtain ⟨tx, hx, htx⟩ := hs.acquired 0 (by decide)
  obtain ⟨ty, hy, -⟩ := hs.acquired 1 (by decide)
  have hne : tokenId "agents" 0 ≠ tokenId "agents" 1 := fun he =>
    absurd (tokenId_injective "agents" he) (by decide)
  obtain ⟨held, cx, cy, q, hq, hheld, hcalls⟩ :=
    PoolSystem.handOver_two (t := "a") 3 hx hy htx hne hs.queue
  -- both calls are checked before either has a token
  obtain ⟨s₁, hst₁, hpool₁, hlim₁, htok₁⟩ := step_enqueue 1 hs.pool hcheck hempty
  have hcheck₁ : s₁.checkTenantLimits "a" "agents" = true := by
    simpa only [checkTenantLimits, hlim₁, htok₁] using hcheck
  obtain ⟨s₂, hst₂, hpool₂, hlim₂, -⟩ := step_enqueue 2 hpool₁ hcheck₁ hempty
  -- the other tenant gives its first two tokens back, and the calls go on
  obtain ⟨s₃, hst₃, hpool₃, hlim₃⟩ :=
    step_release ⟨tokenId "agents" 0, "b", "agents", 0, none, .acquired⟩ 3 hpool₂
  obtain ⟨s₄, hst₄, hpool₄, hlim₄⟩ :=
    step_release ⟨tokenId "agents" 1, "b", "agents", 0, none, .acquired⟩ 3 hpool₃
  rw [← hq] at hpool₄
  obtain ⟨s₅, hst₅, hpool₅, hlim₅⟩ :=
    step_resume (t := "a") p.calls.length cx hpool₄ (by simp [hcalls])
  obtain ⟨s₆, hst₆, hpool₆, hlim₆⟩ :=
    step_resume (t := "a") (p.calls.length + 1) cy hpool₅
      (by simp [PoolSystem.finish, PoolSystem.setState, hcalls])
  have hlimit₆ : s₆.limitFor "agents" "a" = some 1 := by
    simp [limitFor, hlim₆, hlim₅, hlim₄, hlim₃, hlim₂, hlim₁, hlimit, oneAgent,
      ConcurrencyLimits.maxFor]
  have hrun₃ := run_snoc (run_snoc (run_snoc hrun trivial hst₁) trivial hst₂) trivial hst₃
  have hrun₆ := run_snoc (run_snoc (run_snoc hrun₃ trivial hst₄) trivial hst₅) trivial hst₆
  have hle := h [oneAgent] _ s₆ hrun₆ "a" "agents" _ 1 hpool₆ hlimit₆ (by decide)
  have htwo := PoolSystem.two_le_heldBy hheld hcalls
  omega

end ConcurrencyManager

end ConcurrencyTokens

end MultiAgent
