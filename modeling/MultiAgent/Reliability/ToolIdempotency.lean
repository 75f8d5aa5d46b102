import MultiAgent.Lib.Once
import MultiAgent.Reliability.ToolAdapter

/-!
# The idempotency of the tool adapter

The executes with one key share a cell, the entry of the key in the local cache : an
execute takes what `get_result` finds there unless it is `None`, or runs the tool and stores
the result. `Lookups.cell_steps` : a step of the adapter is, for every key, a sequence of steps of
the parties of its cell, as long as the local cache has whatever Redis has (`Lookups`).
-/

namespace MultiAgent

namespace BaseAdapter

open Json (Value)
open Once (Role Cell)

/-- What an execute does at its cell. -/
def Phase.role : Phase → Role Value
  | .lookup _ => .checking
  | .ended (.returned r) => .holding r
  | .loggingSuccess r => .holding r
  | .storing r _ => .stored r
  | .hit r => .hit r
  | .returned r => .returned r
  | .raised _ => .failed
  | .cancelled => .failed
  | _ => .working

theorem Phase.role_of_inside {x : Phase} (h : x.inside = true) : x.role = .working := by
  unfold inside at h
  split at h <;> first | rfl | cases h

theorem Phase.active_role (x : Phase) : x.role.active = x.inFlight := by
  cases x with
  | ended outcome => cases outcome <;> rfl
  | _ => rfl

/-- What an execute takes from the cache after `v` was stored : not `None`. -/
def keep (v : Value) : Option Value :=
  if v.isNone then none else some v

namespace ToolSystem

variable {s t u : ToolSystem} {k : ℕ} {key : String} {x y : Phase}

/-- The role of the `j`-th execute at the cell of a key, if it has that key. -/
def roleOf (s : ToolSystem) (key : String) (j : ℕ) : Option (Role Value) :=
  (s.calls[j]?).bind fun c => if c.key = key then some c.phase.role else none

/-- The cell of a key. -/
def cell (s : ToolSystem) (key : String) : Cell Value where
  cached := (s.adapter.localCache.get? key).bind keep
  outputs := (s.completions.filter fun c => c.1 = key).map Prod.snd
  role := s.roleOf key

theorem roleOf_self (hk : s.calls[k]? = some ⟨key, x⟩) : s.roleOf key k = some x.role := by
  simp [roleOf, hk]

theorem roleOf_set (hk : s.calls[k]? = some ⟨key, x⟩) (hcalls : t.calls = s.calls.set k ⟨key, y⟩)
    (key' : String) : t.roleOf key' = if key' = key then
      Function.update (s.roleOf key') k (some y.role) else s.roleOf key' := by
  have hset := bind_getElem?_set
    (fun _ (c : Execute) => if c.key = key' then some c.phase.role else none) hk ⟨key, y⟩
  unfold roleOf
  rw [hcalls, hset]
  split_ifs with hkey hkey' hkey'
  · rfl
  · exact absurd hkey.symm hkey'
  · exact absurd hkey'.symm hkey
  · simpa [hk] using Ne.symm hkey'

theorem cell_goTo (hk : s.calls[k]? = some ⟨key, x⟩) (y : Phase) (key' : String) :
    (s.goTo k key y).cell key' =
      if key' = key then (s.cell key').set k y.role else s.cell key' := by
  have hrole := roleOf_set hk (t := s.goTo k key y) rfl key'
  unfold cell
  rw [hrole]
  split_ifs <;> rfl

theorem cell_stay (hk : s.calls[k]? = some ⟨key, x⟩) (hy : y.role = x.role) (key' : String) :
    (s.goTo k key y).cell key' = s.cell key' := by
  rw [cell_goTo hk]
  split_ifs with hkey
  · refine Cell.set_eq_self ?_
    rw [hkey, hy]
    exact roleOf_self hk
  · rfl

theorem cell_congr (hcache : t.adapter.localCache = s.adapter.localCache)
    (hcalls : t.calls = s.calls) (hcompletions : t.completions = s.completions) (key : String) :
    t.cell key = s.cell key := by
  unfold cell roleOf
  rw [hcache, hcalls, hcompletions]

theorem cell_untouched (h : Untouched s u) (key : String) : u.cell key = s.cell key :=
  cell_congr h.cache h.calls h.completions key

variable {may : Cell Value → Prop} {good : Value → Prop}

/-- An execute that takes another role at the cell of its key. -/
theorem steps_goTo (hk : s.calls[k]? = some ⟨key, x⟩)
    (hst : Cell.Step keep may good (s.cell key) ((s.cell key).set k y.role)) (key' : String) :
    Relation.ReflTransGen (Cell.Step keep may good) (s.cell key') ((s.goTo k key y).cell key') := by
  rw [cell_goTo hk]
  split_ifs with hkey
  · subst hkey
    exact .single hst
  · exact .refl

theorem steps_succeed {r : Value} {served : Bool}
    (hk : s.calls[k]? = some ⟨key, .storing r served⟩) (key' : String) :
    Relation.ReflTransGen (Cell.Step keep may good) (s.cell key')
      ((s.succeed k key r).cell key') := by
  unfold succeed
  exact steps_goTo (y := .returned r) hk (.answer k r (roleOf_self hk)) key'

theorem steps_fail {e : ToolError} (hk : s.calls[k]? = some ⟨key, x⟩) (hx : x.role = .working)
    (key' : String) :
    Relation.ReflTransGen (Cell.Step keep may good) (s.cell key') ((s.fail k key e).cell key') := by
  unfold fail
  exact steps_goTo (y := .raised e) hk (.fail k ((roleOf_self hk).trans (congrArg some hx))) key'

theorem steps_storeResult {r : Value} (hk : s.calls[k]? = some ⟨key, x⟩)
    (hx : x.role = .holding r) (key' : String) :
    Relation.ReflTransGen (Cell.Step keep may good) (s.cell key')
      ((s.storeResult k key r).cell key') := by
  let u := s.update fun a => { a with localCache := a.localCache.set key r }
  have hstored : ∀ served, Relation.ReflTransGen (Cell.Step keep may good) (s.cell key')
      ((u.goTo k key (.storing r served)).cell key') := by
    intro served
    rw [cell_goTo (s := u) hk]
    split_ifs with hkey
    · subst hkey
      have hcached : (u.cell key').cached = keep r := by simp [cell, u, update]
      exact .single (.store k r (u.cell key').cached
        ((roleOf_self hk).trans (congrArg some hx)) (Or.inl hcached))
    · have hsame : u.cell key' = s.cell key' := by
        unfold cell
        simp only [u, update, Dict.get?_set_ne _ _ hkey]
        rfl
      rw [hsame]
  unfold storeResult
  dsimp only
  split_ifs
  · exact hstored false
  · refine (hstored true).trans ?_
    rw [← succeed_goTo (.storing r true)]
    exact steps_succeed (getElem?_goTo (s := u) hk _) key'

theorem steps_logRequest {v : Option Value} (hk : s.calls[k]? = some ⟨key, .lookup v⟩)
    (hc : (s.cell key).cached = none) (key' : String) :
    Relation.ReflTransGen (Cell.Step keep may good) (s.cell key')
      ((s.logRequest k key).cell key') := by
  unfold logRequest
  split_ifs
  · exact steps_goTo (y := .logging) hk (.miss k (roleOf_self hk) hc) key'
  · exact steps_goTo (y := .requested) hk (.miss k (roleOf_self hk) hc) key'

/-- The check finds in the cell what it goes on with. -/
theorem steps_checked {v : Option Value} (hk : s.calls[k]? = some ⟨key, .lookup v⟩) {w : Value}
    (hc : (s.cell key).cached = keep w) (key' : String) :
    Relation.ReflTransGen (Cell.Step keep may good) (s.cell key')
      ((s.checked k key w).cell key') := by
  unfold checked
  unfold keep at hc
  split_ifs at hc ⊢
  · exact steps_logRequest hk hc key'
  · exact steps_goTo (y := .hit w) hk (.hit k w (roleOf_self hk) hc) key'

theorem updateLog_eq (f : WriteAheadLog → WriteAheadLog) :
    (s.updateLog k f).adapter.localCache = s.adapter.localCache ∧
      (s.updateLog k f).completions = s.completions := by
  unfold updateLog
  split <;> exact ⟨rfl, rfl⟩

theorem cell_updateLog (f : WriteAheadLog → WriteAheadLog) (key' : String) :
    (s.updateLog k f).cell key' = s.cell key' :=
  cell_congr (updateLog_eq f).1 (updateLog_calls f) (updateLog_eq f).2 key'

theorem steps_report {outcome : TaskEnd} (hk : s.calls[k]? = some ⟨key, .ended outcome⟩)
    (key' : String) : Relation.ReflTransGen (Cell.Step keep may good) (s.cell key')
      ((s.report k key outcome).cell key') := by
  cases outcome with
  | returned r =>
    unfold report logSuccess
    rw [← cell_updateLog (s := s) (k := k) fun entry =>
      { entry with status := .succeeded, result := some r }]
    dsimp only
    split_ifs
    · rw [cell_stay (x := .ended (.returned r)) (y := .loggingSuccess r)
        ((updateLog_calls _).symm ▸ hk) rfl]
    · exact steps_storeResult ((updateLog_calls _).symm ▸ hk) rfl key'
  | raised e =>
    unfold report logFailure
    rw [← cell_updateLog (s := s) (k := k) fun entry =>
      { entry with status := .failed, error := some e.text }]
    dsimp only
    split_ifs
    · rw [cell_stay (x := .ended (.raised e)) (y := .loggingFailure e)
        ((updateLog_calls _).symm ▸ hk) rfl]
    · exact steps_fail ((updateLog_calls _).symm ▸ hk) rfl key'
  | cancelled => exact steps_goTo (y := .cancelled) hk (.fail k (roleOf_self hk)) key'

theorem steps_completed {r : Value} {n : ℕ} (hk : s.calls[k]? = some ⟨key, .running n⟩)
    (h : Completes s k key r t) (hgood : good r) (key' : String) :
    Relation.ReflTransGen (Cell.Step keep may good) (s.cell key') (t.cell key') := by
  have hrole := roleOf_set hk h.calls key'
  have hcache : t.adapter.localCache = s.adapter.localCache := h.untouched.cache
  by_cases hkey : key' = key
  · subst hkey
    have hcell : t.cell key' =
        { (s.cell key').set k (.holding r) with outputs := (s.cell key').outputs ++ [r] } := by
      unfold cell
      rw [hrole, hcache, h.completions]
      simp [Cell.set, Phase.role]
    rw [hcell]
    exact .single (.produce k r (roleOf_self hk) hgood)
  · have hcell : t.cell key' = s.cell key' := by
      unfold cell
      rw [hrole, hcache, h.completions, if_neg hkey]
      simp [Ne.symm hkey]
    rw [hcell]

/-! ### The local cache and Redis -/

/-- What Redis has, or is about to get, is in the local cache too, so an execute that looks
into Redis finds nothing. -/
structure Lookups (s : ToolSystem) : Prop where
  lookup : ∀ (j : ℕ) (key : String) (v : Option Value), s.calls[j]? = some ⟨key, .lookup v⟩ →
    s.adapter.localCache.get? key = none ∧ ∀ w, v = some w → w = .null
  storing : ∀ (j : ℕ) (key : String) (r : Value) (served : Bool),
    s.calls[j]? = some ⟨key, .storing r served⟩ → key ∈ s.adapter.localCache
  redis : ∀ (results : Dict String Value) (key : String), s.redis = some results →
    key ∈ results → key ∈ s.adapter.localCache

namespace Lookups

theorem init (cfg : AdapterConfig) (redis : Bool) : Lookups (toolMachine cfg redis).init where
  lookup j key v hj := by cases hj
  storing j key r served hj := by cases hj
  redis results key hr := by
    cases redis with
    | true =>
      obtain rfl := Option.some.inj hr
      simp
    | false => cases hr

theorem congr (h : Lookups s) (hcache : t.adapter.localCache = s.adapter.localCache)
    (hredis : t.redis = s.redis) (hcalls : t.calls = s.calls) : Lookups t where
  lookup := by rw [hcache, hcalls]; exact h.lookup
  storing := by rw [hcache, hcalls]; exact h.storing
  redis := by rw [hcache, hredis]; exact h.redis

/-- An execute goes on to a phase at which it neither looks into Redis nor stores there. -/
theorem goTo (h : Lookups s) (y : Phase) (hlookup : ∀ v, y ≠ .lookup v)
    (hstoring : ∀ r served, y ≠ .storing r served) : Lookups (s.goTo k key y) where
  lookup j key' v hj := by
    rcases getElem?_set_cases hj with ⟨-, hj⟩ | ⟨-, he⟩
    · exact h.lookup j key' v hj
    · exact absurd (Execute.mk.inj he).2.symm (hlookup v)
  storing j key' r served hj := by
    rcases getElem?_set_cases hj with ⟨-, hj⟩ | ⟨-, he⟩
    · exact h.storing j key' r served hj
    · exact absurd (Execute.mk.inj he).2.symm (hstoring r served)
  redis := h.redis

/-- A new execute. -/
theorem concat (h : Lookups s) (key : String) (hcache : t.adapter.localCache = s.adapter.localCache)
    (hredis : t.redis = s.redis) (hcalls : t.calls = s.calls ++ [⟨key, y⟩])
    (hlookup : ∀ v, y = .lookup v → s.adapter.localCache.get? key = none ∧ v = none)
    (hstoring : ∀ r served, y ≠ .storing r served) : Lookups t where
  lookup j key' v hj := by
    rw [hcalls] at hj
    rw [hcache]
    rcases getElem?_concat_cases hj with hj | ⟨-, he⟩
    · exact h.lookup j key' v hj
    · obtain ⟨rfl, rfl⟩ := Execute.mk.inj he
      obtain ⟨hnone, rfl⟩ := hlookup v rfl
      exact ⟨hnone, by simp⟩
  storing j key' r served hj := by
    rw [hcalls] at hj
    rw [hcache]
    rcases getElem?_concat_cases hj with hj | ⟨-, he⟩
    · exact h.storing j key' r served hj
    · exact absurd (Execute.mk.inj he).2.symm (hstoring r served)
  redis := by rw [hcache, hredis]; exact h.redis

theorem redisResult (h : Lookups s) {v : Option Value}
    (hk : s.calls[k]? = some ⟨key, .lookup v⟩) : s.redisResult key = .null := by
  unfold ToolSystem.redisResult
  split
  · rename_i results hr
    have hnot : key ∉ results := fun hmem => by
      obtain ⟨w, hw⟩ := Dict.mem_iff_get?.mp (h.redis results key hr hmem)
      exact absurd ((h.lookup k key v hk).1.symm.trans hw) (by simp)
    rw [Dict.get?_eq_none.mpr hnot]
    rfl
  · rfl

theorem served (h : Lookups s) {v : Option Value} (hk : s.calls[k]? = some ⟨key, .lookup v⟩) :
    Lookups (s.goTo k key (.lookup (some .null))) where
  lookup j key' w hj := by
    rcases getElem?_set_cases hj with ⟨-, hj⟩ | ⟨-, he⟩
    · exact h.lookup j key' w hj
    · obtain ⟨rfl, hphase⟩ := Execute.mk.inj he
      obtain rfl := Phase.lookup.inj hphase
      exact ⟨(h.lookup k key' v hk).1, by simp⟩
  storing j key' r served hj := by
    rcases getElem?_set_cases hj with ⟨-, hj⟩ | ⟨-, he⟩
    · exact h.storing j key' r served hj
    · cases (Execute.mk.inj he).2
  redis := h.redis

theorem checked (h : Lookups s) (v : Value) : Lookups (s.checked k key v) := by
  unfold ToolSystem.checked ToolSystem.logRequest
  split_ifs
  · exact (h.congr (t := s.update _) rfl rfl rfl).goTo .logging (by simp) (by simp)
  · exact (h.congr (t := s.update _) rfl rfl rfl).goTo .requested (by simp) (by simp)
  · exact h.goTo (.hit v) (by simp) (by simp)

theorem beginExecute (h : Lookups s) (key : String) : Lookups (s.beginExecute key) := by
  have hchecked : ∀ v, Lookups (({ s.update fun a => { a with totalCalls := a.totalCalls + 1 } with
      calls := s.calls ++ [Execute.mk key (.lookup none)] } : ToolSystem).checked s.calls.length
        key v) := by
    intro v
    unfold ToolSystem.checked ToolSystem.logRequest
    split_ifs
    · exact h.concat (y := .logging) key rfl rfl (by simp [ToolSystem.goTo, update])
        (by simp) (by simp)
    · exact h.concat (y := .requested) key rfl rfl (by simp [ToolSystem.goTo, update])
        (by simp) (by simp)
    · exact h.concat (y := .hit v) key rfl rfl (by simp [ToolSystem.goTo])
        (by simp) (by simp)
  unfold ToolSystem.beginExecute
  dsimp only
  split
  · exact hchecked _
  · rename_i hnone
    split_ifs
    · exact h.concat (y := .lookup none) key rfl rfl rfl
        (fun v hv => ⟨hnone, (Phase.lookup.inj hv).symm⟩) (by simp)
    · exact hchecked _

/-- The local cache gets a result while no other execute looks its key up. -/
theorem store (h : Lookups s) {r : Value}
    (halone : ∀ j v, j ≠ k → s.calls[j]? ≠ some ⟨key, .lookup v⟩) (y : Phase)
    (hy : ∀ v, y ≠ .lookup v) :
    Lookups ((s.update fun a => { a with localCache := a.localCache.set key r }).goTo k key y) where
  lookup j key' v hj := by
    rcases getElem?_set_cases hj with ⟨hne, hj⟩ | ⟨-, he⟩
    · have hkey : key' ≠ key := by
        rintro rfl
        exact halone j v hne hj
      obtain ⟨hnone, hnull⟩ := h.lookup j key' v hj
      exact ⟨(Dict.get?_set_ne _ _ hkey).trans hnone, hnull⟩
    · exact absurd (Execute.mk.inj he).2.symm (hy v)
  storing j key' r served hj := by
    rcases getElem?_set_cases hj with ⟨-, hj⟩ | ⟨-, he⟩
    · exact Dict.mem_set.mpr (Or.inr (h.storing j key' r served hj))
    · exact Dict.mem_set.mpr (Or.inl (Execute.mk.inj he).1)
  redis results key' hr hmem := Dict.mem_set.mpr (Or.inr (h.redis results key' hr hmem))

theorem succeed (h : Lookups s) (r : Value) : Lookups (s.succeed k key r) :=
  (h.congr (t := s.update _) rfl rfl rfl).goTo (.returned r) (by simp) (by simp)

theorem fail (h : Lookups s) (e : ToolError) : Lookups (s.fail k key e) :=
  (h.congr (t := s.update _) rfl rfl rfl).goTo (.raised e) (by simp) (by simp)

theorem storeResult (h : Lookups s) (r : Value)
    (halone : ∀ j v, j ≠ k → s.calls[j]? ≠ some ⟨key, .lookup v⟩) :
    Lookups (s.storeResult k key r) := by
  unfold ToolSystem.storeResult
  dsimp only
  split_ifs
  · exact h.store halone _ (by simp)
  · rw [← succeed_goTo (.storing r true)]
    exact (h.store halone (.storing r true) (by simp)).succeed r

theorem updateLog (h : Lookups s) (f : WriteAheadLog → WriteAheadLog) :
    Lookups (s.updateLog k f) := by
  unfold ToolSystem.updateLog
  split
  · exact h.congr rfl rfl rfl
  · exact h

theorem report (h : Lookups s) (outcome : TaskEnd)
    (halone : ∀ r, outcome = .returned r →
      ∀ j v, j ≠ k → s.calls[j]? ≠ some ⟨key, .lookup v⟩) :
    Lookups (s.report k key outcome) := by
  cases outcome with
  | returned r =>
    unfold ToolSystem.report logSuccess
    dsimp only
    split_ifs
    · exact (h.updateLog _).goTo _ (by simp) (by simp)
    · exact (h.updateLog _).storeResult r (by simpa using halone r rfl)
  | raised e =>
    unfold ToolSystem.report logFailure
    dsimp only
    split_ifs
    · exact (h.updateLog _).goTo _ (by simp) (by simp)
    · exact (h.updateLog _).fail e
  | cancelled => exact h.goTo _ (by simp) (by simp)

theorem redisStore (h : Lookups s) {r : Value} {served : Bool}
    (hk : s.calls[k]? = some ⟨key, .storing r served⟩) : Lookups (s.redisStore key r) := by
  unfold ToolSystem.redisStore
  split
  · refine ⟨h.lookup, h.storing, fun results key' hr hmem => ?_⟩
    obtain ⟨old, hold, rfl⟩ := Option.map_eq_some_iff.mp hr
    rcases Dict.mem_set.mp hmem with rfl | hmem
    · exact h.storing k key' r served hk
    · exact h.redis old key' hold hmem
  · exact h

/-- An execute that has stored goes on. -/
theorem stored (h : Lookups s) {r : Value} (served : Bool)
    (hk : s.calls[k]? = some ⟨key, .storing r served⟩) (b : Bool) :
    Lookups (s.goTo k key (.storing r b)) where
  lookup j key' v hj := by
    rcases getElem?_set_cases hj with ⟨-, hj⟩ | ⟨-, he⟩
    · exact h.lookup j key' v hj
    · cases (Execute.mk.inj he).2
  storing j key' w c hj := by
    rcases getElem?_set_cases hj with ⟨-, hj⟩ | ⟨-, he⟩
    · exact h.storing j key' w c hj
    · obtain ⟨rfl, -⟩ := Execute.mk.inj he
      exact h.storing k key' r served hk
  redis := h.redis

theorem alone (hex : (s.cell key).Exclusive) (hk : s.calls[k]? = some ⟨key, x⟩) {r : Value}
    (hx : x.role = .holding r) : ∀ j v, j ≠ k → s.calls[j]? ≠ some ⟨key, .lookup v⟩ :=
  fun j _ hne hj => absurd (hex k j r .checking ((roleOf_self hk).trans (congrArg some hx)) hne
    (roleOf_self hj)) (by simp [Role.active])

theorem step {e : ToolEvent} (h : Lookups s) (hex : ∀ key, (s.cell key).Exclusive)
    (hown : ∀ key v, e = .redis key v → v = none) (hst : s.step e = some t) : Lookups t := by
  cases e with
  | call key =>
    obtain rfl := Option.some.inj hst
    exact h.beginExecute key
  | redis key value =>
    obtain rfl := hown key value rfl
    obtain rfl := Option.some.inj hst
    refine ⟨h.lookup, h.storing, fun results key' hr hmem => ?_⟩
    obtain ⟨old, hold, rfl⟩ := Option.map_eq_some_iff.mp hr
    exact h.redis old key' hold (Dict.mem_erase.mp hmem).2
  | act k action =>
    simp only [ToolSystem.step] at hst
    split at hst
    · rename_i c hk
      obtain ⟨key, x⟩ := c
      cases effect_of_act hst with
      | served ok hs =>
        have hnull : (if ok then s.redisResult key else .null) = .null := by
          rw [h.redisResult hk, ite_self]
        rw [hs, hnull]
        exact h.served hk
      | checked v hs => exact hs ▸ h.checked v
      | within hx hw =>
        obtain ⟨u, y, hu, hy, rfl⟩ := hw
        refine (h.congr hu.cache hu.redis hu.calls).goTo y (fun v hv => ?_) fun r served hv => ?_
        · simp [hv, Phase.inside] at hy
        · simp [hv, Phase.inside] at hy
      | completed n r now hc =>
        have hmoved : Lookups (s.goTo k key (.ended (.returned r))) :=
          h.goTo _ (by simp) (by simp)
        exact hmoved.congr hc.untouched.cache hc.untouched.redis hc.calls
      | selfCancelled n now hs =>
        subst hs
        exact (h.congr (t := s.updateBulkhead _) rfl rfl rfl).goTo _ (by simp) (by simp)
      | reported outcome hs =>
        subst hs
        refine h.report outcome fun r hr => ?_
        subst hr
        exact alone (hex key) hk rfl
      | loggedSuccess r hs => exact hs ▸ h.storeResult r (alone (hex key) hk rfl)
      | stored r ok hs =>
        subst hs
        cases ok with
        | true =>
          refine (h.redisStore hk).stored false ?_ true
          rw [(s.redisStore_eq _ r).2.1]
          exact hk
        | false => exact h.stored _ hk true
      | succeeded r hs => exact hs ▸ h.succeed r
      | loggedFailure e hs => exact hs ▸ h.fail e
    · cases hst

end Lookups

theorem roleOf_concat (hcalls : t.calls = s.calls ++ [⟨key, x⟩]) (key' : String) :
    t.roleOf key' = if key' = key then
      Function.update (s.roleOf key') s.calls.length (some x.role) else s.roleOf key' := by
  have hconcat := bind_getElem?_concat
    (fun _ (c : Execute) => if c.key = key' then some c.phase.role else none) s.calls ⟨key, x⟩
  unfold roleOf
  rw [hcalls, hconcat]
  split_ifs with hkey hkey' hkey'
  · rfl
  · exact absurd hkey.symm hkey'
  · exact absurd hkey'.symm hkey
  · simp

theorem steps_beginExecute (hmay : may (s.cell key)) (key' : String) :
    Relation.ReflTransGen (Cell.Step keep may good) (s.cell key')
      ((s.beginExecute key).cell key') := by
  let u : ToolSystem := { s.update fun a => { a with totalCalls := a.totalCalls + 1 } with
    calls := s.calls ++ [Execute.mk key (.lookup none)] }
  have hnew : u.calls[s.calls.length]? = some ⟨key, .lookup none⟩ := by simp [u]
  have harrived : Relation.ReflTransGen (Cell.Step keep may good) (s.cell key') (u.cell key') := by
    have hrole := roleOf_concat (s := s) (t := u) rfl key'
    unfold cell
    rw [hrole]
    split_ifs with hkey
    · subst hkey
      refine .single (.arrive s.calls.length (fun j hj => ?_) hmay)
      simp [roleOf, List.getElem?_eq_none hj]
    · exact .refl
  have hchecked : ∀ w, (s.adapter.localCache.get? key).bind keep = keep w →
      Relation.ReflTransGen (Cell.Step keep may good) (s.cell key')
        ((u.checked s.calls.length key w).cell key') :=
    fun w hw => harrived.trans (steps_checked hnew hw key')
  unfold beginExecute
  dsimp only
  split
  · rename_i v hv
    exact hchecked v (congrArg (·.bind keep) hv)
  · rename_i hnone
    split_ifs
    · exact harrived
    · exact hchecked .null (congrArg (·.bind keep) hnone)

/-- A step of the adapter is a sequence of steps of the parties of each cell. -/
theorem Lookups.cell_steps {e : ToolEvent} (h : Lookups s) (hst : s.step e = some t)
    (hmay : ∀ key, e = .call key → may (s.cell key))
    (hgood : ∀ k r now, e = .act k (.ended (.returned r) now) → good r) (key' : String) :
    Relation.ReflTransGen (Cell.Step keep may good) (s.cell key') (t.cell key') := by
  cases e with
  | call key =>
    obtain rfl := Option.some.inj hst
    exact steps_beginExecute (hmay key rfl) key'
  | redis key value =>
    cases value with
    | none => rw [cell_congr (s := s) (t := t) (by rw [← Option.some.inj hst])
        (by rw [← Option.some.inj hst]) (by rw [← Option.some.inj hst])]
    | some v => rw [cell_congr (s := s) (t := t) (by rw [← Option.some.inj hst])
        (by rw [← Option.some.inj hst]) (by rw [← Option.some.inj hst])]
  | act k action =>
    simp only [ToolSystem.step] at hst
    split at hst
    · rename_i c hk
      obtain ⟨key, x⟩ := c
      cases effect_of_act hst with
      | served ok hs =>
        rw [hs, cell_stay (y := .lookup (some (if ok then s.redisResult key else .null))) hk rfl]
      | checked v hs =>
        subst hs
        obtain ⟨hnone, hnull⟩ := h.lookup k key _ hk
        obtain rfl := hnull v rfl
        refine steps_checked hk ?_ key'
        unfold cell
        rw [hnone]
        rfl
      | within hx hw =>
        obtain ⟨u, y, hu, hy, rfl⟩ := hw
        rw [cell_stay (s := u) (hu.calls.symm ▸ hk), cell_untouched hu]
        rw [Phase.role_of_inside hx, Phase.role_of_inside hy]
      | completed n r now hc => exact steps_completed hk hc (hgood k r now rfl) key'
      | selfCancelled n now hs =>
        subst hs
        unfold leave
        rw [cell_stay (s := s.updateBulkhead _) (x := .running n) (y := .ended .cancelled) hk rfl,
          cell_untouched (untouched_updateBulkhead s _)]
      | reported outcome hs => exact hs ▸ steps_report hk key'
      | loggedSuccess r hs => exact hs ▸ steps_storeResult hk rfl key'
      | stored r ok hs =>
        subst hs
        have hsame : (if ok then s.redisStore key r else s).cell key' = s.cell key' := by
          split_ifs
          · obtain ⟨ha, hc, hcompletions⟩ := s.redisStore_eq key r
            exact cell_congr (by rw [ha]) hc hcompletions key'
          · rfl
        have hk' : (if ok then s.redisStore key r else s).calls[k]? =
            some ⟨key, .storing r false⟩ := by
          split_ifs
          · rw [(s.redisStore_eq _ r).2.1]
            exact hk
          · exact hk
        rw [cell_stay (y := .storing r true) hk' rfl, hsame]
      | succeeded r hs => exact hs ▸ steps_succeed hk key'
      | loggedFailure e hs => exact hs ▸ steps_fail hk rfl key'
    · cases hst

end ToolSystem

/-! ## Runs -/

/-- No other client stores a result in Redis. -/
def OwnResults (_ : ToolSystem) : ToolEvent → Prop
  | .redis _ (some _) => False
  | _ => True

/-- An execute begins only while the result of its key is cached or no other execute with
its key is in flight, the tool returns something else than `None`, and no other client
stores a result. -/
def OneAtATime (s : ToolSystem) : ToolEvent → Prop
  | .call key => (s.cell key).cached ≠ none ∨
      ∀ c ∈ s.calls, c.key = key → c.phase.inFlight = false
  | .act _ (.ended (.returned r) _) => r.isNone = false
  | .redis _ (some _) => False
  | _ => True

/-- An execute begins only while no other is in flight, and no other client stores a
result. -/
def OneAfterTheOther (s : ToolSystem) : ToolEvent → Prop
  | .call _ => ∀ c ∈ s.calls, c.phase.inFlight = false
  | .redis _ (some _) => False
  | _ => True

instance (s : ToolSystem) : DecidablePred (OwnResults s)
  | .call _ => isTrue trivial
  | .act _ _ => isTrue trivial
  | .redis _ none => isTrue trivial
  | .redis _ (some _) => isFalse id

instance (s : ToolSystem) : DecidablePred (OneAfterTheOther s)
  | .call _ => inferInstanceAs (Decidable (∀ c ∈ s.calls, c.phase.inFlight = false))
  | .act _ _ => isTrue trivial
  | .redis _ none => isTrue trivial
  | .redis _ (some _) => isFalse id

namespace ToolSystem

variable {s t : ToolSystem} {key : String} {cfg : AdapterConfig} {redis : Bool}
  {es : List ToolEvent} {e : ToolEvent}

theorem cell_init (cfg : AdapterConfig) (redis : Bool) (key : String) :
    (toolMachine cfg redis).init.cell key = .empty := by
  cases redis <;> rfl

theorem quiet_of_calls (h : ∀ c ∈ s.calls, c.key = key → c.phase.inFlight = false) :
    (s.cell key).Quiet := by
  intro j x hj
  obtain ⟨c, hc, hx⟩ := Option.bind_eq_some_iff.mp hj
  split_ifs at hx with hkey
  obtain rfl := Option.some.inj hx
  rw [Phase.active_role]
  exact h c (List.mem_of_getElem? hc) hkey

/-- The executes of a key compute its result once. -/
theorem once_of_run (h : (toolMachine cfg redis).Run OneAtATime es s) :
    Lookups s ∧ ∀ key, Once keep (s.cell key) := by
  refine h.invariant (I := fun s => Lookups s ∧ ∀ key, Once keep (s.cell key))
    ⟨Lookups.init cfg redis, fun key => by rw [cell_init]; exact .empty⟩ ?_
  rintro s e t ⟨hlookups, honce⟩ hok hst
  refine ⟨hlookups.step (fun key => (honce key).exclusive) ?_ hst, fun key =>
    (honce key).steps (hlookups.cell_steps hst ?_ ?_ key)⟩
  · rintro key (_ | v) rfl
    · rfl
    · exact hok.elim
  · rintro key rfl
    exact hok.imp_right quiet_of_calls
  · rintro k r now rfl
    have hr : r.isNone = false := hok
    simp [keep, hr]

/-- A result other than `None` stays the result of its key. -/
theorem kept_of_run {r : Value} (hr : r.isNone = false)
    (h : (toolMachine cfg redis).Run OneAfterTheOther es s) :
    Lookups s ∧ ∀ key, Once.Kept r (s.cell key) := by
  refine h.invariant (I := fun s => Lookups s ∧ ∀ key, Once.Kept r (s.cell key))
    ⟨Lookups.init cfg redis, fun key => by rw [cell_init]; exact .empty⟩ ?_
  rintro s e t ⟨hlookups, hkept⟩ hok hst
  refine ⟨hlookups.step (fun key => (hkept key).exclusive) ?_ hst, fun key =>
    (hkept key).steps  (by simp [keep, hr])
      (hlookups.cell_steps hst ?_ (fun _ _ _ _ => trivial) key)⟩
  · rintro key (_ | v) rfl
    · rfl
    · exact hok.elim
  · rintro key rfl
    exact quiet_of_calls fun c hc _ => hok c hc

end ToolSystem

end BaseAdapter

end MultiAgent
