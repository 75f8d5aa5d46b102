import Mathlib.Data.Finset.Card
import Mathlib.Data.Finset.Image
import Mathlib.Data.Int.Notation
import MultiAgent.Lib.Decimal
import MultiAgent.Lib.Dict
import MultiAgent.Lib.Machine

/-!
# Concurrency token pools

`ConcurrencyTokenPool` of `libs/security/concurrency_tokens.py`. A call of
`acquire_token` suspends at most once, in `wait_for` on its own future; everything
else in the pool runs without suspending, so the steps of `poolMachine` are : an
acquire up to its end or its suspension, a release, one round of the expiry cleanup,
the firing of a waiter's timer, and a waiter going on. A future is named by the
number of the call that waits on it.

`held` lists the tokens in the hands of callers : returned at once or delivered to
the call's future, and not released since.

`releaseToken` puts the token back on `available_tokens` and then delivers it to the
first waiter as well, without taking it off again (`not_partition_of_run`).
`partition_of_run` : the pool stays a partition in every run in which no release
finds a pending future at the head of the queue.
-/

namespace MultiAgent

namespace ConcurrencyTokens

/-- `ConcurrencyTokenStatus`. -/
inductive ConcurrencyTokenStatus
  | available
  | acquired
  | released
  | expired
  deriving DecidableEq, Repr

/-- `ConcurrencyToken`. Times are in microseconds. -/
structure ConcurrencyToken where
  tokenId : String
  tenantId : String
  resourceType : String
  acquiredAt : ℤ
  expiresAt : Option ℤ := none
  status : ConcurrencyTokenStatus := .available
  deriving DecidableEq, Repr

/-- `is_expired`, read at `now`. -/
def ConcurrencyToken.isExpired (t : ConcurrencyToken) (now : ℤ) : Bool :=
  match t.expiresAt with
  | none => false
  | some e => decide (e < now)

/-- The id of the `i`-th token of a pool. -/
def tokenId (resourceType : String) (i : ℕ) : String :=
  s!"{resourceType}_token_{i}"

/-- The attributes of `ConcurrencyTokenPool`. -/
structure ConcurrencyTokenPool where
  resourceType : String
  totalTokens : ℕ
  availableTokens : Finset String
  acquiredTokens : Dict String ConcurrencyToken
  waitingRequests : List ℕ

/-- The ids a pool is created with. -/
def initialIds (resourceType : String) (totalTokens : ℕ) : Finset String :=
  (Finset.range totalTokens).image (tokenId resourceType)

/-- `__init__`. -/
def ConcurrencyTokenPool.new (resourceType : String) (totalTokens : ℕ) :
    ConcurrencyTokenPool where
  resourceType := resourceType
  totalTokens := totalTokens
  availableTokens := initialIds resourceType totalTokens
  acquiredTokens := .empty
  waitingRequests := []

/-- The future of a waiting call. -/
inductive TokenFuture
  | pending
  | result (token : ConcurrencyToken)
  | timedOut
  deriving DecidableEq, Repr

/-- Where a call of `acquire_token` stands. -/
inductive AcquireState
  | waiting (future : TokenFuture)
  | returned (token : Option ConcurrencyToken)
  deriving DecidableEq, Repr

/-- A call of `acquire_token` by a tenant. -/
structure AcquireCall where
  tenantId : String
  state : AcquireState
  deriving DecidableEq, Repr

/-- The token `token` in the hands of the `call`-th call. -/
structure Holding where
  call : ℕ
  token : ConcurrencyToken
  deriving DecidableEq, Repr

/-- A pool, the calls made on it, and the tokens their callers hold. -/
structure PoolSystem where
  pool : ConcurrencyTokenPool
  calls : List AcquireCall := []
  held : List Holding := []

/-- A step of the pool. `pick` is the element that `set.pop` takes. -/
inductive PoolEvent
  | acquire (tenantId : String) (timeoutSeconds expiresIn : Option ℤ) (now : ℤ) (pick : String)
  | release (tokenId : String) (now : ℤ)
  | cleanup (now : ℤ)
  | timeout (call : ℕ)
  | resume (call : ℕ)
  deriving DecidableEq, Repr

namespace PoolSystem

variable (s : PoolSystem)

/-- The token that the immediate branch of `acquire_token` builds. -/
def newToken (tenantId : String) (expiresIn : Option ℤ) (now : ℤ) (pick : String) :
    ConcurrencyToken where
  tokenId := pick
  tenantId := tenantId
  resourceType := s.pool.resourceType
  acquiredAt := now
  expiresAt := match expiresIn with
    | some d => if d = 0 then none else some (now + d)
    | none => none
  status := .acquired

/-- The immediate branch : take `pick` off the set and hand it out. -/
def acquireNow (tenantId : String) (expiresIn : Option ℤ) (now : ℤ) (pick : String) :
    PoolSystem :=
  let token := s.newToken tenantId expiresIn now pick
  { pool := { s.pool with
      availableTokens := s.pool.availableTokens.erase pick
      acquiredTokens := s.pool.acquiredTokens.set pick token }
    calls := s.calls ++ [⟨tenantId, .returned (some token)⟩]
    held := s.held ++ [⟨s.calls.length, token⟩] }

/-- No token and no timeout : `None`. -/
def refuse (tenantId : String) : PoolSystem :=
  { s with calls := s.calls ++ [⟨tenantId, .returned none⟩] }

/-- Queue a new future and suspend on it. -/
def enqueue (tenantId : String) : PoolSystem :=
  { s with
    pool := { s.pool with waitingRequests := s.pool.waitingRequests ++ [s.calls.length] }
    calls := s.calls ++ [⟨tenantId, .waiting .pending⟩] }

/-- `acquire_token` up to its end or its suspension. -/
def acquireToken (tenantId : String) (timeoutSeconds expiresIn : Option ℤ) (now : ℤ)
    (pick : String) : Option PoolSystem :=
  if s.pool.availableTokens.Nonempty then
    if pick ∈ s.pool.availableTokens then some (s.acquireNow tenantId expiresIn now pick)
    else none
  else
    match timeoutSeconds with
    | none => some (s.refuse tenantId)
    | some d => if d ≤ 0 then some (s.refuse tenantId) else some (s.enqueue tenantId)

/-- The `c`-th call stands at `state` now. -/
def setState (c : ℕ) (state : AcquireState) : PoolSystem :=
  { s with calls := s.calls.modify c fun k => { k with state := state } }

/-- The future of the `w`-th call is not done. -/
def isPending (w : ℕ) : Bool :=
  match s.calls[w]? with
  | some ⟨_, .waiting .pending⟩ => true
  | _ => false

/-- Pop the first waiter of a release; unless its future is done, set its result to a
copy of the token that was released. -/
def notify (token : ConcurrencyToken) (now : ℤ) : PoolSystem :=
  match s.pool.waitingRequests with
  | [] => s
  | w :: ws =>
    let s := { s with pool := { s.pool with waitingRequests := ws } }
    if s.isPending w then
      let token := { token with
        resourceType := s.pool.resourceType, acquiredAt := now, status := .acquired }
      { s.setState w (.waiting (.result token)) with held := s.held ++ [⟨w, token⟩] }
    else s

/-- Move an acquired token back to the available ones. -/
def putBack (tokenId : String) : PoolSystem :=
  { s with
    pool := { s.pool with
      acquiredTokens := s.pool.acquiredTokens.erase tokenId
      availableTokens := insert tokenId s.pool.availableTokens }
    held := s.held.filter fun h => h.token.tokenId ≠ tokenId }

/-- `release_token`, with its result. -/
def releaseToken (tokenId : String) (now : ℤ) : PoolSystem × Bool :=
  match s.pool.acquiredTokens.get? tokenId with
  | none => (s, false)
  | some token => ((s.putBack tokenId).notify token now, true)

/-- The ids that a round of the cleanup collects before it releases them. -/
def expiredTokens (now : ℤ) : List String :=
  (s.pool.acquiredTokens.items.filter fun p => p.2.isExpired now).map Prod.fst

/-- Release the tokens in turn. -/
def releaseAll (now : ℤ) (s : PoolSystem) (ids : List String) : PoolSystem :=
  ids.foldl (fun s id => (s.releaseToken id now).1) s

/-- A round of `_cleanup_expired_tokens` over this pool. -/
def cleanupExpired (now : ℤ) : PoolSystem :=
  releaseAll now s (s.expiredTokens now)

/-- The end of a waiting call : the `finally` clause drops its future from the queue if
it is still there. -/
def finish (c : ℕ) (token : Option ConcurrencyToken) : PoolSystem :=
  { s.setState c (.returned token) with
    pool := { s.pool with waitingRequests := s.pool.waitingRequests.erase c } }

/-- One step. A timer that fires after the delivery, but before the waiter goes on,
makes the call return `None` all the same. -/
def step : PoolEvent → Option PoolSystem
  | .acquire tenantId timeoutSeconds expiresIn now pick =>
    s.acquireToken tenantId timeoutSeconds expiresIn now pick
  | .release tokenId now => some (s.releaseToken tokenId now).1
  | .cleanup now => some (s.cleanupExpired now)
  | .timeout c =>
    match s.calls[c]? with
    | some ⟨_, .waiting _⟩ => some (s.setState c (.waiting .timedOut))
    | _ => none
  | .resume c =>
    match s.calls[c]? with
    | some ⟨_, .waiting (.result token)⟩ => some (s.finish c (some token))
    | some ⟨_, .waiting .timedOut⟩ => some (s.finish c none)
    | _ => none

end PoolSystem

/-- A new pool and no calls. -/
def poolMachine (resourceType : String) (totalTokens : ℕ) : Machine PoolSystem PoolEvent where
  init := { pool := .new resourceType totalTokens }
  step := PoolSystem.step

/-! ## The partition -/

theorem tokenId_injective (resourceType : String) : Function.Injective (tokenId resourceType) := by
  intro i j h
  have hl := congrArg String.toList h
  simp only [tokenId, String.toList_append] at hl
  exact Decimal.toString_injective (String.toList_inj.mp (List.append_cancel_left hl))

/-- A pool is created with as many ids as tokens. -/
theorem card_initialIds (resourceType : String) (n : ℕ) :
    (initialIds resourceType n).card = n := by
  unfold initialIds
  rw [Finset.card_image_of_injective _ (tokenId_injective resourceType), Finset.card_range]

namespace PoolSystem

/-- The ids in the hands of callers, one for each holding. -/
def heldIds (s : PoolSystem) : List String :=
  s.held.map fun h => h.token.tokenId

/-- The tenants of the calls, in the order of the calls. -/
def tenants (s : PoolSystem) : List String :=
  s.calls.map AcquireCall.tenantId

@[simp] theorem tenants_setState (s : PoolSystem) (c : ℕ) (state : AcquireState) :
    (s.setState c state).tenants = s.tenants := by
  unfold setState tenants
  refine List.ext_getElem? fun i => ?_
  rw [List.getElem?_map, List.getElem?_map, List.getElem?_modify]
  cases s.calls[i]? <;> simp [apply_ite]

end PoolSystem

/-- The pool is a partition of its ids, and every token in the hands of a caller is an
acquired one, held by that caller's tenant and by no other call. -/
structure Partition (resourceType : String) (n : ℕ) (s : PoolSystem) : Prop where
  disjoint : ∀ id ∈ s.pool.availableTokens, id ∉ s.pool.acquiredTokens
  cover : ∀ id, id ∈ s.pool.availableTokens ∨ id ∈ s.pool.acquiredTokens ↔
    id ∈ initialIds resourceType n
  held : ∀ h ∈ s.held, s.pool.acquiredTokens.get? h.token.tokenId = some h.token ∧
    s.tenants[h.call]? = some h.token.tenantId
  unique : s.heldIds.Nodup

variable {resourceType : String} {n : ℕ} {s t : PoolSystem}

theorem Partition.start : Partition resourceType n { pool := .new resourceType n } where
  disjoint id _ := Dict.not_mem_empty id
  cover id := by simp [ConcurrencyTokenPool.new]
  held h hh := by simp at hh
  unique := List.nodup_nil

/-- The partition reads the two token sets, the holdings and the callers' tenants. -/
theorem Partition.congr (h : Partition resourceType n s)
    (havail : t.pool.availableTokens = s.pool.availableTokens)
    (hacq : t.pool.acquiredTokens = s.pool.acquiredTokens) (hheld : t.held = s.held)
    (hten : ∀ (i : ℕ) (x : String), s.tenants[i]? = some x → t.tenants[i]? = some x) :
    Partition resourceType n t where
  disjoint id hid := by
    rw [hacq]
    exact h.disjoint id (havail ▸ hid)
  cover id := by
    rw [havail, hacq]
    exact h.cover id
  held g hg := by
    obtain ⟨hget, hown⟩ := h.held g (hheld ▸ hg)
    exact ⟨hacq ▸ hget, hten _ _ hown⟩
  unique := by
    rw [PoolSystem.heldIds, hheld]
    exact h.unique

theorem Partition.held_mem (h : Partition resourceType n s) {g : Holding} (hg : g ∈ s.held) :
    g.token.tokenId ∈ s.pool.acquiredTokens :=
  Dict.mem_of_get? (h.held g hg).1

theorem tenants_append (s : PoolSystem) (k : AcquireCall) (pool : ConcurrencyTokenPool)
    (held : List Holding) (i : ℕ) (x : String) (h : s.tenants[i]? = some x) :
    (PoolSystem.mk pool (s.calls ++ [k]) held).tenants[i]? = some x := by
  have hi : i < s.tenants.length := (List.getElem?_eq_some_iff.mp h).1
  unfold PoolSystem.tenants at *
  rw [List.map_append, List.getElem?_append_left hi]
  exact h

/-- The direct path : a token that was available goes to the caller. -/
theorem Partition.acquireNow (h : Partition resourceType n s) {pick : String}
    (hpick : pick ∈ s.pool.availableTokens) (tenantId : String) (expiresIn : Option ℤ) (now : ℤ) :
    Partition resourceType n (s.acquireNow tenantId expiresIn now pick) where
  disjoint id hid := by
    obtain ⟨hne, hid⟩ := Finset.mem_erase.mp hid
    rw [PoolSystem.acquireNow, Dict.mem_set, not_or]
    exact ⟨hne, h.disjoint id hid⟩
  cover id := by
    simp only [PoolSystem.acquireNow, Finset.mem_erase, Dict.mem_set]
    rw [← h.cover id]
    by_cases hid : id = pick
    · simp [hid, hpick]
    · simp [hid]
  held g hg := by
    rcases List.mem_append.mp hg with hg | hg
    · obtain ⟨hget, hown⟩ := h.held g hg
      have hne : g.token.tokenId ≠ pick := fun he =>
        h.disjoint pick hpick (he ▸ h.held_mem hg)
      refine ⟨?_, tenants_append s _ _ _ _ _ hown⟩
      rw [PoolSystem.acquireNow, Dict.get?_set_ne _ _ hne]
      exact hget
    · obtain rfl := List.mem_singleton.mp hg
      refine ⟨Dict.get?_set_self _ _ _, ?_⟩
      simp [PoolSystem.tenants, PoolSystem.acquireNow, PoolSystem.newToken]
  unique := by
    simp only [PoolSystem.heldIds, PoolSystem.acquireNow, List.map_append]
    refine h.unique.append (List.nodup_singleton _) ?_
    rintro id hid hnew
    obtain ⟨g, hg, rfl⟩ := List.mem_map.mp hid
    have he : g.token.tokenId = pick := by simpa [PoolSystem.newToken] using hnew
    exact h.disjoint pick hpick (he ▸ h.held_mem hg)

/-- Putting an acquired token back, before anyone is notified. -/
theorem Partition.putBack (h : Partition resourceType n s) {id : String}
    (hid : id ∈ s.pool.acquiredTokens) : Partition resourceType n (s.putBack id) where
  disjoint id' hid' := by
    rw [PoolSystem.putBack, Dict.mem_erase, not_and]
    rcases Finset.mem_insert.mp hid' with rfl | hid'
    · exact fun hne => absurd rfl hne
    · exact fun _ => h.disjoint id' hid'
  cover id' := by
    simp only [PoolSystem.putBack, Finset.mem_insert, Dict.mem_erase]
    rw [← h.cover id']
    by_cases he : id' = id
    · simp [he, hid]
    · simp [he]
  held g hg := by
    obtain ⟨hg, hne⟩ := List.mem_filter.mp hg
    obtain ⟨hget, hown⟩ := h.held g hg
    refine ⟨?_, hown⟩
    rw [PoolSystem.putBack, Dict.get?_erase, if_neg (by simpa using hne)]
    exact hget
  unique := h.unique.sublist (List.filter_sublist.map _)

/-- Without a pending future at the head of the queue, `notify` only pops it. -/
theorem notify_of_not_pending (s : PoolSystem) (token : ConcurrencyToken) (now : ℤ)
    (hw : ∀ w ∈ s.pool.waitingRequests.take 1, s.isPending w = false) :
    s.notify token now =
      { s with pool := { s.pool with waitingRequests := s.pool.waitingRequests.drop 1 } } := by
  obtain ⟨⟨resourceType, n, avail, acq, queue⟩, calls, held⟩ := s
  cases queue with
  | nil => rfl
  | cons w ws =>
    have hdone : PoolSystem.isPending ⟨⟨resourceType, n, avail, acq, ws⟩, calls, held⟩ w = false :=
      hw w (by simp)
    simp [PoolSystem.notify, hdone]

/-- A release that finds no pending future at the head of the queue. -/
theorem Partition.releaseToken (h : Partition resourceType n s) {id : String} {now : ℤ}
    (hw : ∀ w ∈ s.pool.waitingRequests.take 1, s.isPending w = false) :
    Partition resourceType n (s.releaseToken id now).1 := by
  unfold PoolSystem.releaseToken
  cases hget : s.pool.acquiredTokens.get? id with
  | none => exact h
  | some token =>
    have hput := h.putBack (Dict.mem_of_get? hget)
    dsimp only
    rw [notify_of_not_pending (s.putBack id) token now hw]
    exact hput.congr rfl rfl rfl fun _ _ hx => hx

/-- A release that finds no pending future leaves the calls alone and pops the queue at
most once. -/
theorem releaseToken_queue (s : PoolSystem) (id : String) (now : ℤ)
    (hw : ∀ w ∈ s.pool.waitingRequests.take 1, s.isPending w = false) :
    (s.releaseToken id now).1.calls = s.calls ∧
      ((s.releaseToken id now).1.pool.waitingRequests = s.pool.waitingRequests ∨
        (s.releaseToken id now).1.pool.waitingRequests = s.pool.waitingRequests.drop 1) := by
  unfold PoolSystem.releaseToken
  cases s.pool.acquiredTokens.get? id with
  | none => exact ⟨rfl, Or.inl rfl⟩
  | some token =>
    dsimp only
    rw [notify_of_not_pending (s.putBack id) token now hw]
    exact ⟨rfl, Or.inr rfl⟩

/-- The first `k` waiters of the queue are not pending. -/
def PoolSystem.QuietQueue (s : PoolSystem) (k : ℕ) : Prop :=
  ∀ w ∈ s.pool.waitingRequests.take k, s.isPending w = false

instance (s : PoolSystem) (k : ℕ) : Decidable (s.QuietQueue k) :=
  inferInstanceAs (Decidable (∀ w ∈ _, _))

theorem PoolSystem.QuietQueue.mono {j k : ℕ} (h : s.QuietQueue k) (hjk : j ≤ k) :
    s.QuietQueue j :=
  fun w hmem => h w (List.take_subset_take_left _ hjk hmem)

/-- A release in front of a quiet queue uses up one waiter at most. -/
theorem PoolSystem.QuietQueue.releaseToken {k : ℕ} (h : s.QuietQueue (k + 1)) (id : String)
    (now : ℤ) : (s.releaseToken id now).1.QuietQueue k := by
  obtain ⟨hcalls, hqueue⟩ := releaseToken_queue s id now (h.mono (Nat.le_add_left 1 k))
  intro w hmem
  have hpend : (s.releaseToken id now).1.isPending w = s.isPending w := by
    simp only [PoolSystem.isPending, hcalls]
  rw [hpend]
  rcases hqueue with hq | hq
  · exact h.mono (Nat.le_succ k) w (hq ▸ hmem)
  · rw [hq, List.take_drop] at hmem
    have hin := List.mem_of_mem_drop hmem
    rw [Nat.add_comm] at hin
    exact h w hin

theorem Partition.releaseAll (now : ℤ) : ∀ (ids : List String) {s : PoolSystem},
    Partition resourceType n s → s.QuietQueue ids.length →
      Partition resourceType n (PoolSystem.releaseAll now s ids)
  | [], _, h, _ => h
  | id :: ids, _, h, hw =>
    Partition.releaseAll now ids (h.releaseToken (hw.mono (by simp))) (hw.releaseToken id now)

/-- How many tokens a step releases. -/
def PoolSystem.releases (s : PoolSystem) : PoolEvent → ℕ
  | .release id _ => if id ∈ s.pool.acquiredTokens then 1 else 0
  | .cleanup now => (s.expiredTokens now).length
  | _ => 0

/-- No release of the step finds a pending future at the head of the queue. -/
def NoHandover (s : PoolSystem) (e : PoolEvent) : Prop :=
  ∀ w ∈ s.pool.waitingRequests.take (s.releases e), s.isPending w = false

instance (s : PoolSystem) (e : PoolEvent) : Decidable (NoHandover s e) :=
  inferInstanceAs (Decidable (∀ w ∈ _, _))

theorem Partition.acquireToken (h : Partition resourceType n s) {tenantId pick : String}
    {timeoutSeconds expiresIn : Option ℤ} {now : ℤ}
    (hst : s.acquireToken tenantId timeoutSeconds expiresIn now pick = some t) :
    Partition resourceType n t := by
  have hrefuse : Partition resourceType n (s.refuse tenantId) :=
    h.congr rfl rfl rfl (tenants_append s _ _ _)
  have henqueue : Partition resourceType n (s.enqueue tenantId) :=
    h.congr rfl rfl rfl (tenants_append s _ _ _)
  unfold PoolSystem.acquireToken at hst
  split_ifs at hst with hne hpick
  · obtain rfl := Option.some.inj hst
    exact h.acquireNow hpick tenantId expiresIn now
  · cases timeoutSeconds with
    | none => exact Option.some.inj hst ▸ hrefuse
    | some d =>
      dsimp only at hst
      split_ifs at hst
      · exact Option.some.inj hst ▸ hrefuse
      · exact Option.some.inj hst ▸ henqueue

theorem Partition.setState (h : Partition resourceType n s) (c : ℕ) (state : AcquireState) :
    Partition resourceType n (s.setState c state) :=
  h.congr rfl rfl rfl fun _ _ hx => by rwa [PoolSystem.tenants_setState]

theorem Partition.finish (h : Partition resourceType n s) (c : ℕ)
    (token : Option ConcurrencyToken) : Partition resourceType n (s.finish c token) :=
  (h.setState c (.returned token)).congr rfl rfl rfl fun _ _ hx => hx

theorem Partition.step {e : PoolEvent} (h : Partition resourceType n s) (hok : NoHandover s e)
    (hst : s.step e = some t) : Partition resourceType n t := by
  cases e with
  | acquire tenantId timeoutSeconds expiresIn now pick => exact h.acquireToken hst
  | release id now =>
    obtain rfl := Option.some.inj hst
    by_cases hid : id ∈ s.pool.acquiredTokens
    · simp only [NoHandover, PoolSystem.releases, if_pos hid] at hok
      exact h.releaseToken hok
    · have hnone := Dict.get?_eq_none.mpr hid
      simpa [PoolSystem.releaseToken, hnone] using h
  | cleanup now =>
    obtain rfl := Option.some.inj hst
    exact h.releaseAll now _ hok
  | timeout c =>
    simp only [PoolSystem.step] at hst
    split at hst
    · exact Option.some.inj hst ▸ h.setState c _
    · cases hst
  | resume c =>
    simp only [PoolSystem.step] at hst
    split at hst
    · exact Option.some.inj hst ▸ h.finish c _
    · exact Option.some.inj hst ▸ h.finish c _
    · cases hst

/-- The pool stays a partition as long as no release hands its token to a waiter. -/
theorem partition_of_run (resourceType : String) (n : ℕ) (es : List PoolEvent) (s : PoolSystem)
    (h : (poolMachine resourceType n).Run NoHandover es s) : Partition resourceType n s :=
  h.invariant .start fun _ _ _ hs hok hst => hs.step hok hst

/-- A waiter times out, the token comes back, and a third caller gets it. -/
theorem partition_of_run_timeout : ∃ es s,
    (poolMachine "tools" 1).Run NoHandover es s ∧ s.held ≠ [] ∧ Partition "tools" 1 s := by
  obtain ⟨s, hrun, hheld⟩ := Machine.exists_run (poolMachine "tools" 1) NoHandover
    [.acquire "a" none none 0 "tools_token_0", .acquire "b" (some 5) none 1 "", .timeout 1,
      .release "tools_token_0" 6, .resume 1, .acquire "c" none none 7 "tools_token_0"]
    (fun s => decide (s.held ≠ [])) (by decide)
  exact ⟨_, s, hrun, by simpa using hheld, partition_of_run "tools" 1 _ s hrun⟩

/-- A token that a release delivers to a waiter is still available : the next caller
gets it too. -/
theorem not_partition_of_run : ¬∀ (resourceType : String) (n : ℕ) (es : List PoolEvent)
    (s : PoolSystem), (poolMachine resourceType n).Run (fun _ _ => True) es s →
      Partition resourceType n s := by
  intro h
  obtain ⟨s, hrun, htwice⟩ := Machine.exists_run (poolMachine "tools" 1) (fun _ _ => True)
    [.acquire "a" none none 0 "tools_token_0", .acquire "b" (some 5) none 1 "",
      .release "tools_token_0" 2, .resume 1, .acquire "c" none none 3 "tools_token_0"]
    (fun s => !decide s.heldIds.Nodup) (by decide)
  have hp := h "tools" 1 _ s hrun
  simp [hp.unique] at htwice

end ConcurrencyTokens

end MultiAgent
