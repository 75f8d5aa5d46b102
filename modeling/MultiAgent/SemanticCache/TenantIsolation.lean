import MultiAgent.SemanticCache.RedisFrames

/-!
# Isolation of tenants

What a tenant gets from `retrieve`, `get_stats` and `delete` is the same as if another tenant
had never stored or deleted anything (`Isolated`), if the two share no Redis key. Tenants that
share one are not isolated, unless the cache stores nothing. So different tenants are isolated
exactly when neither id is the other, a colon and something more (`isolated_iff_separated`).

The tenant's view of the service is kept by the steps of other tenants and determines its own
steps (`CacheService.SameView`), so that the general rule about purged runs applies.
-/

namespace MultiAgent

namespace SemanticCache

variable {α μ : Type*}

/-! ## What a tenant sees -/

namespace CacheService

variable (s t : CacheService α μ) (b : String)

/-- The calls of the tenant, by number. -/
def callsOf (i : ℕ) : Option (Call α μ) :=
  (s.calls[i]?).bind fun call => if call.1 = b then some call.2 else none

/-- What the `delete` calls of the tenant have returned. -/
def deletionsOf : List Bool :=
  (s.deletions.filter fun deletion => deletion.1 = b).map Prod.snd

/-- What the call number `i` has returned, if it is one of the tenant. -/
def resultOf (i : ℕ) : Option (CallResult μ) :=
  (s.callsOf b i).bind Call.result

/-- The tenant's calls of `retrieve`, `get_stats` and `delete` have returned the same in both. -/
structure SameResults : Prop where
  calls (i : ℕ) : s.resultOf b i = t.resultOf b i
  deletions : s.deletionsOf b = t.deletionsOf b

/-- The tenant can tell nothing about which of the two it is in. -/
structure SameView : Prop where
  redis : s.redis.SameOn (Owns b) t.redis
  tenants : s.calls.map Prod.fst = t.calls.map Prod.fst
  calls : s.callsOf b = t.callsOf b
  deletions : s.deletionsOf b = t.deletionsOf b

end CacheService

/-- The event is a `store` or a `delete` of the tenant. -/
def Writes (a : String) : ServiceEvent α μ → Prop
  | .store tenantId _ _ _ => tenantId = a
  | .delete tenantId _ => tenantId = a
  | _ => False

instance (a : String) : DecidablePred (Writes a : ServiceEvent α μ → Prop) := fun e => by
  unfold Writes
  split <;> infer_instance

/-- The event is one of `a` or `b`, or of a tenant that shares no key with `b`. -/
def OthersSeparated (a b : String) (s : CacheService α μ) (e : ServiceEvent α μ) : Prop :=
  ∀ d, s.tenantOf e = some d → d = a ∨ d = b ∨ Separated d b

section Isolation

variable (settings : Settings) (similarity : α → α → Option ℚ)
  (size : String × CacheEntry α μ → ℕ)

/-- In every run in which no third tenant shares a key with `b`, what `b` gets is the same as
without the stores and deletes of `a`. -/
def Isolated (a b : String) : Prop :=
  ∀ es s, (serviceMachine settings similarity size).Run (OthersSeparated a b) es s →
    ∃ t, (serviceMachine settings similarity size).Run (fun _ _ => True)
      (es.filter fun e => ¬Writes a e) t ∧ s.SameResults t b

end Isolation

namespace CacheService

variable {settings : Settings} {similarity : α → α → Option ℚ}
  {size : String × CacheEntry α μ → ℕ} {s s' t : CacheService α μ} {a b d : String}

theorem SameView.sameResults (h : s.SameView t b) : s.SameResults t b where
  calls i := by rw [resultOf, resultOf, h.calls]
  deletions := h.deletions

theorem SameView.symm (h : s.SameView t b) : t.SameView s b :=
  ⟨h.redis.symm, h.tenants.symm, h.calls.symm, h.deletions.symm⟩

/-- Redis changes only where the observer does not look. -/
theorem SameView.redis_left (h : s.SameView t b) {r : Redis α μ}
    (hr : r.SameOn (Owns b) t.redis) : SameView { s with redis := r } t b :=
  ⟨hr, h.tenants, h.calls, h.deletions⟩

/-- Another tenant's `delete` is recorded. -/
theorem SameView.delete_left (h : s.SameView t b) (hd : d ≠ b) {r : Redis α μ}
    (hr : r.SameOn (Owns b) t.redis) (result : Bool) :
    SameView { s with redis := r, deletions := s.deletions ++ [(d, result)] } t b := by
  refine ⟨hr, h.tenants, h.calls, ?_⟩
  rw [← h.deletions]
  simp [deletionsOf, hd]

/-- The calls of the observer after one call went on. -/
theorem callsOf_set {i : ℕ} {call : Call α μ} (hi : s.calls[i]? = some (d, call)) (r : Redis α μ)
    (next : Call α μ) :
    callsOf { s with redis := r, calls := s.calls.set i (d, next) } b =
      Function.update (s.callsOf b) i (if d = b then some next else none) :=
  bind_getElem?_set (fun _ (call : String × Call α μ) => if call.1 = b then some call.2 else none)
    hi (d, next)

/-- The calls of the observer after one arrived. -/
theorem callsOf_arrive (d : String) (call : Call α μ) :
    (s.arrive d call).callsOf b =
      Function.update (s.callsOf b) s.calls.length (if d = b then some call else none) :=
  bind_getElem?_concat
    (fun _ (call : String × Call α μ) => if call.1 = b then some call.2 else none) s.calls (d, call)

/-- Another tenant's call goes on. -/
theorem SameView.act_left (h : s.SameView t b) (hd : d ≠ b) {r : Redis α μ}
    (hr : r.SameOn (Owns b) t.redis) {i : ℕ} {call : Call α μ} (hi : s.calls[i]? = some (d, call))
    (next : Call α μ) :
    SameView { s with redis := r, calls := s.calls.set i (d, next) } t b := by
  refine ⟨hr, ?_, ?_, h.deletions⟩
  · have htenant : (s.calls.map Prod.fst)[i]? = some d := by simp [hi]
    obtain ⟨hlt, hd⟩ := List.getElem?_eq_some_iff.mp htenant
    have hset := List.set_getElem_self hlt
    rw [hd] at hset
    rw [← h.tenants, List.map_set]
    exact hset
  · rw [← h.calls, callsOf_set hi]
    refine Function.update_eq_self_iff.mpr ?_
    simp [callsOf, hi, hd]

/-- A call arrives in both. -/
theorem SameView.arrive (h : s.SameView t b) (d : String) (call : Call α μ) :
    (s.arrive d call).SameView (t.arrive d call) b := by
  have hlength : s.calls.length = t.calls.length := by
    simpa using congrArg List.length h.tenants
  refine ⟨h.redis, by simp [CacheService.arrive, h.tenants], ?_, h.deletions⟩
  rw [callsOf_arrive, callsOf_arrive, h.calls, hlength]

/-- The call with the same number is one of the same tenant, and the same if it is the
observer's. -/
theorem SameView.call (h : s.SameView t b) {i : ℕ} {call : Call α μ}
    (hi : s.calls[i]? = some (d, call)) :
    ∃ call', t.calls[i]? = some (d, call') ∧ (d = b → call' = call) := by
  have htenant : (t.calls[i]?).map Prod.fst = some d := by
    rw [← List.getElem?_map, ← h.tenants, List.getElem?_map, hi]
    rfl
  obtain ⟨⟨_, call'⟩, ht, rfl⟩ := Option.map_eq_some_iff.mp htenant
  refine ⟨call', ht, ?_⟩
  rintro rfl
  have hcalls := congrFun h.calls i
  simpa [callsOf, hi, ht, eq_comm] using hcalls

/-- The observer does not see a `store` or a `delete` of a separated tenant. -/
theorem SameView.writes_left (h : s.SameView t b) (hab : Separated a b) {e : ServiceEvent α μ}
    (he : Writes a e) (hst : s.step settings similarity size e = some s') : s'.SameView t b := by
  have hnot : ∀ key, Owns a key → ¬Owns b key := fun _ => hab.not_owns
  cases e with
  | store tenantId request embedding time =>
    obtain rfl : tenantId = a := he
    obtain rfl := Option.some.inj hst
    exact h.redis_left (h.redis.store_left hnot _ _ _ _)
  | delete tenantId key =>
    obtain rfl : tenantId = a := he
    obtain rfl := Option.some.inj hst
    exact h.delete_left hab.ne (h.redis.delete_left hnot key) _
  | retrieve => exact he.elim
  | getStats => exact he.elim
  | act => exact he.elim
  | wait => exact he.elim

theorem step_act {i : ℕ} {call : Call α μ} (hi : s.calls[i]? = some (d, call))
    (order : MemberOrder) :
    s.step settings similarity size (.act i order) =
      some { s with
        redis := (callStep similarity size order d s.redis call).2
        calls := s.calls.set i (d, (callStep similarity size order d s.redis call).1) } := by
  simp only [CacheService.step, hi]

/-- A step of the observer, or of a separated tenant, in both. -/
theorem SameView.step (h : s.SameView t b) {e : ServiceEvent α μ}
    (hother : ∀ d, s.tenantOf e = some d → d = b ∨ Separated d b)
    (hst : s.step settings similarity size e = some s') :
    ∃ t', t.step settings similarity size e = some t' ∧ s'.SameView t' b := by
  cases e with
  | store d request embedding time =>
    obtain rfl := Option.some.inj hst
    refine ⟨_, rfl, ?_⟩
    rcases hother d rfl with rfl | hsep
    · exact ⟨h.redis.store (fun _ => id) _ _ _ _, h.tenants, h.calls, h.deletions⟩
    · have hnot : ∀ key, Owns d key → ¬Owns b key := fun _ => hsep.not_owns
      have hleft := h.redis_left (h.redis.store_left hnot settings request embedding time)
      exact (hleft.symm.redis_left (hleft.symm.redis.store_left hnot _ _ _ _)).symm
  | delete d key =>
    obtain rfl := Option.some.inj hst
    refine ⟨_, rfl, ?_⟩
    rcases hother d rfl with rfl | hsep
    · refine ⟨h.redis.delete (fun _ => id) key, h.tenants, h.calls, ?_⟩
      have hdeletions := h.deletions
      unfold deletionsOf at hdeletions ⊢
      simp only [List.filter_append, List.map_append, hdeletions,
        h.redis.deletes (fun _ => id) key]
    · have hnot : ∀ key, Owns d key → ¬Owns b key := fun _ => hsep.not_owns
      have hleft := h.delete_left hsep.ne (h.redis.delete_left hnot key) (s.redis.deletes d key)
      exact (hleft.symm.delete_left hsep.ne (hleft.symm.redis.delete_left hnot key) _).symm
  | retrieve d query similarityThreshold =>
    obtain rfl := Option.some.inj hst
    exact ⟨_, rfl, h.arrive d _⟩
  | getStats d =>
    obtain rfl := Option.some.inj hst
    exact ⟨_, rfl, h.arrive d _⟩
  | act i order =>
    cases hi : s.calls[i]? with
    | none => simp [CacheService.step, hi] at hst
    | some call =>
      obtain ⟨d, call⟩ := call
      rw [step_act hi] at hst
      obtain rfl := Option.some.inj hst
      obtain ⟨call', hi', hsame⟩ := h.call hi
      refine ⟨_, step_act hi' order, ?_⟩
      rcases hother d (by simp [tenantOf, hi]) with rfl | hsep
      · obtain rfl := hsame rfl
        obtain ⟨hcall, hredis⟩ := callStep_congr similarity size h.redis (fun _ => id) order call'
        refine ⟨hredis, by simp [h.tenants], ?_, h.deletions⟩
        rw [callsOf_set hi, callsOf_set hi', hcall, h.calls]
      · have hnot : ∀ key, Owns d key → ¬Owns b key := fun _ => hsep.not_owns
        have hleft := h.act_left hsep.ne (callStep_left similarity size h.redis hnot order call) hi
          (callStep similarity size order d s.redis call).1
        exact (hleft.symm.act_left hsep.ne
          (callStep_left similarity size hleft.symm.redis hnot order call') hi' _).symm
  | wait milliseconds =>
    obtain rfl := Option.some.inj hst
    refine ⟨_, rfl, ⟨?_, h.redis.keys⟩, h.tenants, h.calls, h.deletions⟩
    exact congrArg (fun now => now + (milliseconds : ℤ)) h.redis.now

end CacheService

section Isolation

variable {settings : Settings} {similarity : α → α → Option ℚ}
  {size : String × CacheEntry α μ → ℕ} {a b : String}

/-- Separated tenants are isolated. -/
theorem isolated_of_separated (h : Separated a b) : Isolated settings similarity size a b := by
  intro es s hrun
  have hrefl : (serviceMachine settings similarity size).init.SameView
      (serviceMachine settings similarity size).init b := ⟨.refl _, rfl, rfl, rfl⟩
  obtain ⟨t, ht, hview⟩ : ∃ t, (serviceMachine settings similarity size).Run (fun _ _ => True)
      (es.filter fun e => ¬Writes a e) t ∧ s.SameView t b := by
    refine hrun.purge (R := fun s t => s.SameView t b) hrefl
      (fun s t e s' hview _ he hst => hview.writes_left h he hst) ?_
    intro s t e s' hview hok _ hst
    refine hview.step (fun d hd => ?_) hst
    rcases hok d hd with rfl | hd
    · exact Or.inr h
    · exact hd
  exact ⟨t, ht, hview.sameResults⟩

/-! ## Tenants with a key in common -/

/-- A `delete` finds an entry that was stored under its Redis key. -/
theorem deletes_store (r : Redis α μ) (request : CacheRequest μ) (embedding : α) (time : ℚ)
    (httl : 0 < effectiveTtl settings request.ttlSeconds) {key : String}
    (hkey : cacheKey a request.cacheKey = cacheKey b key) :
    (r.store settings a request embedding time).deletes b key = true := by
  have hpresent : (r.store settings a request embedding time).present
      (cacheKey a request.cacheKey) = true := by
    unfold Redis.store
    simp only [if_pos httl]
    rw [Redis.putSet, present_put, if_neg (cacheKey_ne_tenantKeysKey _ _ _), Redis.setex,
      present_put, if_neg (cacheKey_ne_embeddingKey _ _ _ _)]
    exact present_setex r _ httl _
  rw [hkey] at hpresent
  simp [Redis.deletes, hpresent]

theorem deletes_empty (key : String) : ({} : Redis α μ).deletes b key = false :=
  rfl

/-- With a key in common, a `delete` of one tenant finds what the other has stored. -/
theorem not_isolated_of_cacheKey_eq [Inhabited α] [Inhabited μ] (hab : a ≠ b)
    (hmax : 0 < settings.maxTtlSeconds) {key key' : String}
    (hkey : cacheKey a key = cacheKey b key') : ¬Isolated settings similarity size a b := by
  intro hisolated
  let request : CacheRequest μ :=
    { cacheKey := key, content := "", ttlSeconds := some 1, metadata := default }
  have hone : 0 < request.ttlSeconds.getD settings.defaultTtlSeconds := Int.one_pos
  have httl : 0 < effectiveTtl settings request.ttlSeconds := by
    rw [effectiveTtl_eq settings hone]
    exact lt_min hone hmax
  have hrun : (serviceMachine settings similarity size).Run (OthersSeparated a b)
      [.store a request default 0, .delete b key'] _ :=
    (Machine.Run.nil.snoc (fun d hd => Or.inl (Option.some.inj hd).symm) rfl).snoc
      (fun d hd => Or.inr (Or.inl (Option.some.inj hd).symm)) rfl
  have hpurged : (serviceMachine settings similarity size).Run (fun _ _ => True)
      [.delete b key'] _ := Machine.Run.nil.snoc trivial rfl
  have hfilter : [ServiceEvent.store a request default 0, .delete b key'].filter
      (fun e => ¬Writes a e) = ([.delete b key'] : List (ServiceEvent α μ)) := by
    simp [Writes, hab.symm]
  obtain ⟨t, ht, hsame⟩ := hisolated _ _ hrun
  rw [hfilter] at ht
  obtain rfl := ht.unique hpurged
  have hdeletes : (({} : Redis α μ).store settings a request default 0).deletes b key' =
      ({} : Redis α μ).deletes b key' := by
    simpa [CacheService.deletionsOf, serviceMachine] using hsame.deletions
  rw [deletes_store _ request default 0 httl hkey, deletes_empty] at hdeletes
  cases hdeletes

/-! ## A cache that stores nothing -/

/-- The `retrieve` has an entry that it may write back. -/
def Retrieve.holdsEntry : Retrieve α μ → Bool
  | .ttl _ _ _ => true
  | .setex _ _ _ _ => true
  | _ => false

/-- The call has an entry that it may write back. -/
def Call.holdsEntry : Call α μ → Bool
  | .retrieve call => call.1.holdsEntry
  | .getStats _ => false

/-- There is nothing in Redis. -/
def Redis.Vacant (r : Redis α μ) : Prop :=
  ∀ key, r.keyspace.get? key = none

theorem holdsEntry_ofKeys (query : α) (threshold : ℚ) (best : Best) (keys : List String) :
    (Retrieve.ofKeys query threshold best keys : Retrieve α μ).holdsEntry = false := by
  cases keys with
  | cons key rest => rfl
  | nil =>
    simp only [Retrieve.ofKeys, Retrieve.ofBest]
    split
    · split_ifs <;> rfl
    · rfl

namespace Redis.Vacant

variable {r r' : Redis α μ}

theorem sameOn (h : r.Vacant) (h' : r'.Vacant) (hnow : r.now = r'.now) (p : String → Prop) :
    r.SameOn p r' :=
  ⟨hnow, fun key _ => (h key).trans (h' key).symm⟩

theorem put_none (h : r.Vacant) (key : String) : (r.put key none).Vacant := by
  intro key'
  rw [Redis.put, Dict.get?_put, h key', ite_self]

theorem setAt (h : r.Vacant) (key : String) : r.setAt key = none := by
  simp [Redis.setAt, h key]

theorem entryAt (h : r.Vacant) (key : String) : r.entryAt key = none := by
  simp [Redis.entryAt, Expiry.getAt, h key, Timed.at?]

theorem store (h : r.Vacant) (hmax : settings.maxTtlSeconds ≤ 0) (tenantId : String)
    (request : CacheRequest μ) (embedding : α) (time : ℚ) :
    (r.store settings tenantId request embedding time).Vacant := by
  have httl : ¬0 < effectiveTtl settings request.ttlSeconds :=
    not_lt.mpr ((min_le_right _ _).trans hmax)
  simp only [Redis.store, Expiry.addExpire, if_neg httl]
  exact h.put_none _

theorem delete (h : r.Vacant) (tenantId key : String) : (r.delete tenantId key).Vacant := by
  have hdeleted := (h.put_none (cacheKey tenantId key)).put_none (embeddingKey tenantId key)
  simp only [Redis.delete, hdeleted.setAt, Expiry.remove]
  exact hdeleted.put_none _

theorem deletes (h : r.Vacant) (tenantId key : String) : r.deletes tenantId key = false := by
  simp [Redis.deletes, Redis.present, Redis.smembers, h.setAt, Expiry.getAt, Expiry.membersAt,
    h _, Timed.at?]

/-- A call that has no entry does not get one, and writes nothing. -/
theorem callStep (h : r.Vacant) {call : Call α μ} (hcall : call.holdsEntry = false)
    (order : MemberOrder) (tenantId : String) :
    (callStep similarity size order tenantId r call).1.holdsEntry = false ∧
      (callStep similarity size order tenantId r call).2 = r := by
  constructor
  · rcases call with ⟨call, owner⟩ | call
    · cases call with
      | smembers query threshold => exact holdsEntry_ofKeys _ _ _ _
      | getEmbedding query threshold key rest best => exact holdsEntry_ofKeys _ _ _ _
      | getEntry key score =>
        simp only [SemanticCache.callStep, retrieveStep, h.entryAt]
        rfl
      | ttl key score entry => cases hcall
      | setex key score entry seconds => cases hcall
      | returned response => rfl
    · rfl
  · rcases callStep_snd similarity size order tenantId r call with
      hsame | ⟨_, _, _, _, _, rfl, -⟩
    · exact hsame
    · cases hcall

end Redis.Vacant

/-- Nothing was stored, and the two differ in what other tenants' `delete` calls returned. -/
structure CacheService.BothVacant (b : String) (s t : CacheService α μ) : Prop where
  left : s.redis.Vacant
  right : t.redis.Vacant
  now : s.redis.now = t.redis.now
  calls : s.calls = t.calls
  holdsEntry : ∀ call ∈ s.calls, call.2.holdsEntry = false
  deletions : s.deletionsOf b = t.deletionsOf b

namespace CacheService

variable {s s' t : CacheService α μ}

theorem BothVacant.writes_left (h : BothVacant b s t) (hmax : settings.maxTtlSeconds ≤ 0)
    (hab : a ≠ b) {e : ServiceEvent α μ} (he : Writes a e)
    (hst : s.step settings similarity size e = some s') : BothVacant b s' t := by
  cases e with
  | store tenantId request embedding time =>
    obtain rfl := Option.some.inj hst
    exact ⟨h.left.store hmax _ _ _ _, h.right, (now_store _ _ _ _ _ _).trans h.now, h.calls,
      h.holdsEntry, h.deletions⟩
  | delete tenantId key =>
    obtain rfl : tenantId = a := he
    obtain rfl := Option.some.inj hst
    refine ⟨h.left.delete _ _, h.right, h.now, h.calls, h.holdsEntry, ?_⟩
    rw [← h.deletions]
    simp [deletionsOf, hab]
  | retrieve => exact he.elim
  | getStats => exact he.elim
  | act => exact he.elim
  | wait => exact he.elim

theorem BothVacant.arrive (h : BothVacant b s t) (d : String) {call : Call α μ}
    (hcall : call.holdsEntry = false) : BothVacant b (s.arrive d call) (t.arrive d call) := by
  refine ⟨h.left, h.right, h.now, by simp [CacheService.arrive, h.calls], ?_, h.deletions⟩
  intro call' hmem
  rcases List.mem_append.mp hmem with hmem | hmem
  · exact h.holdsEntry call' hmem
  · obtain rfl := List.mem_singleton.mp hmem
    exact hcall

theorem BothVacant.step (h : BothVacant b s t) (hmax : settings.maxTtlSeconds ≤ 0)
    {e : ServiceEvent α μ} (hst : s.step settings similarity size e = some s') :
    ∃ t', t.step settings similarity size e = some t' ∧ BothVacant b s' t' := by
  cases e with
  | store d request embedding time =>
    obtain rfl := Option.some.inj hst
    have hnow := ((now_store s.redis settings d request embedding time).trans h.now).trans
      (now_store t.redis settings d request embedding time).symm
    exact ⟨_, rfl, h.left.store hmax _ _ _ _, h.right.store hmax _ _ _ _, hnow, h.calls,
      h.holdsEntry, h.deletions⟩
  | delete d key =>
    obtain rfl := Option.some.inj hst
    refine ⟨_, rfl, h.left.delete _ _, h.right.delete _ _, h.now, h.calls, h.holdsEntry, ?_⟩
    have hdeletions := h.deletions
    unfold deletionsOf at hdeletions ⊢
    simp only [List.filter_append, List.map_append, hdeletions, h.left.deletes, h.right.deletes]
  | retrieve d query similarityThreshold =>
    obtain rfl := Option.some.inj hst
    exact ⟨_, rfl, h.arrive d rfl⟩
  | getStats d =>
    obtain rfl := Option.some.inj hst
    exact ⟨_, rfl, h.arrive d rfl⟩
  | act i order =>
    cases hi : s.calls[i]? with
    | none => simp [CacheService.step, hi] at hst
    | some call =>
      obtain ⟨d, call⟩ := call
      rw [step_act hi] at hst
      obtain rfl := Option.some.inj hst
      have hi' : t.calls[i]? = some (d, call) := h.calls ▸ hi
      have hcall := h.holdsEntry _ (List.mem_of_getElem? hi)
      obtain ⟨hnext, hleft⟩ := h.left.callStep hcall order d
      obtain ⟨-, hright⟩ := h.right.callStep hcall order d
      obtain ⟨hsame, -⟩ := callStep_congr similarity size
        (h.left.sameOn h.right h.now (Owns d)) (fun _ => id) order call
      refine ⟨_, step_act hi' order, ?_⟩
      rw [hsame, hleft, hright, h.calls]
      refine ⟨h.left, h.right, h.now, rfl, fun call' hmem => ?_, h.deletions⟩
      rcases List.mem_or_eq_of_mem_set hmem with hmem | rfl
      · exact h.holdsEntry call' (h.calls ▸ hmem)
      · rw [← hsame]
        exact hnext
  | wait milliseconds =>
    obtain rfl := Option.some.inj hst
    exact ⟨_, rfl, h.left, h.right, congrArg (fun now => now + (milliseconds : ℤ)) h.now, h.calls,
      h.holdsEntry, h.deletions⟩

end CacheService

/-- Tenants of a cache that stores nothing are isolated. -/
theorem isolated_of_maxTtlSeconds (hab : a ≠ b) (hmax : settings.maxTtlSeconds ≤ 0) :
    Isolated settings similarity size a b := by
  intro es s hrun
  have hrefl : CacheService.BothVacant b (serviceMachine settings similarity size).init
      (serviceMachine settings similarity size).init :=
    ⟨fun _ => rfl, fun _ => rfl, rfl, rfl, by simp [serviceMachine], rfl⟩
  obtain ⟨t, ht, hvacant⟩ : ∃ t, (serviceMachine settings similarity size).Run
      (fun _ _ => True) (es.filter fun e => ¬Writes a e) t ∧ CacheService.BothVacant b s t :=
    hrun.purge (R := CacheService.BothVacant b) hrefl
      (fun s t e s' hvacant _ he hst => hvacant.writes_left hmax hab he hst)
      (fun s t e s' hvacant _ _ hst => hvacant.step hmax hst)
  exact ⟨t, ht, fun i => by rw [CacheService.resultOf, CacheService.callsOf, hvacant.calls]; rfl,
    hvacant.deletions⟩

/-- The tenants `a` and `b` are isolated exactly when neither id is the other, a colon and
something more, or the cache stores nothing. -/
theorem isolated_iff_separated [Inhabited α] [Inhabited μ] (hab : a ≠ b) :
    Isolated settings similarity size a b ↔ Separated a b ∨ settings.maxTtlSeconds ≤ 0 := by
  constructor
  · intro hisolated
    refine or_iff_not_imp_left.mpr fun hsep => ?_
    obtain ⟨key, key', hkey⟩ := exists_cacheKey_eq hab hsep
    by_contra hmax
    exact not_isolated_of_cacheKey_eq hab (not_le.mp hmax) hkey hisolated
  · rintro (hsep | hmax)
    · exact isolated_of_separated hsep
    · exact isolated_of_maxTtlSeconds hab hmax

end Isolation

/-- The length of the JSON does not matter for what follows. -/
def noSize : String × CacheEntry (List ℚ) Unit → ℕ :=
  fun _ => 0

/-- Two tenants without colons in their ids are isolated. -/
theorem isolated_acme_globex : Isolated {} dot noSize "acme" "globex" := by
  refine (isolated_iff_separated (by decide)).mpr (Or.inl ⟨by decide, ?_, ?_⟩)
  · intro rest h
    simpa using congrArg String.toList h
  · intro rest h
    simpa using congrArg String.toList h

/-- The tenant `t:r` is not isolated from the tenant `t` : its `delete` of the key `k` finds
the entry that `t` has stored under `r:k`. -/
theorem not_isolated_of_colon : "t" ≠ "t:r" ∧ ¬Isolated {} dot noSize "t" "t:r" := by
  have hkey : cacheKey "t" "r:k" = cacheKey "t:r" "k" := rfl
  exact ⟨by decide, not_isolated_of_cacheKey_eq (by decide) (by decide) hkey⟩

end SemanticCache

end MultiAgent
