import MultiAgent.Lib.Once
import MultiAgent.Resilience.ToolRecovery

/-!
# The idempotency of the resilient tool adapter

The executes with one key share a cell, the result of the key in Redis : an execute takes
what it reads there if it is true, or runs the operation and stores the result.
`Replies.cell_steps` : as long as Redis answers the reads and writes of results and none of
them expires, a step of the adapter is, for every key, a sequence of steps of the parties of
its cell.
-/

namespace MultiAgent

namespace ToolResilience

open Json (Value)
open Once (Role Cell)

/-- What an execute does at its cell. -/
def Phase.role : Phase → Role Value
  | .lookup _ => .checking
  | .markGet r _ => .holding r
  | .markSet r _ _ => .holding r
  | .storing r false => .holding r
  | .storing r true => .stored r
  | .hit r => .hit r
  | .returned r => .returned r
  | .rejected => .failed
  | .failed => .failed
  | .cancelled => .failed
  | _ => .working

/-- The execute has neither returned nor raised. -/
def Phase.inFlight : Phase → Bool
  | .hit _ => false
  | .returned _ => false
  | .rejected => false
  | .failed => false
  | .cancelled => false
  | _ => true

/-- The execute awaits the read or the write of a result. -/
def Phase.awaitsResult : Phase → Bool
  | .lookup none => true
  | .storing _ false => true
  | _ => false

theorem Phase.active_role (x : Phase) : x.role.active = x.inFlight := by
  cases x with
  | storing r served => cases served <;> rfl
  | _ => rfl

/-- What an execute takes from Redis after `v` was stored : what comes back, if it is true. -/
def keep (v : Value) : Option Value :=
  v.reload.filter Value.truthy

/-- Redis answers the reads and writes of results, and no result expires. -/
def answered (s : ToolSystem) : ToolEvent → Bool
  | .act k (.serve false) => !(s.calls[k]?).any fun c => c.phase.awaitsResult
  | .expireResult _ => false
  | _ => true

theorem served_of_answered {s : ToolSystem} {k : ℕ} {c : Execute} {ok : Bool}
    (hk : s.calls[k]? = some c) (h : answered s (.act k (.serve ok)) = true)
    (hwaits : c.phase.awaitsResult = true) : ok = true := by
  cases ok with
  | true => rfl
  | false => simp [answered, hk, hwaits] at h

namespace ToolSystem

variable {s t u : ToolSystem} {k : ℕ} {c d : Execute} {y : Phase}

/-- The role of the `j`-th execute at the cell of a key, if it has that key. -/
def roleOf (s : ToolSystem) (key : String) (j : ℕ) : Option (Role Value) :=
  (s.calls[j]?).bind fun c => if c.key = some key then some c.phase.role else none

/-- The cell of a key. -/
def cell (s : ToolSystem) (key : String) : Cell Value where
  cached := (s.results.get? key).filter Value.truthy
  outputs := (s.completions.filter fun c => c.1 = some key).map Prod.snd
  role := s.roleOf key

theorem roleOf_self {key : String} (hk : s.calls[k]? = some c) (hc : c.key = some key) :
    s.roleOf key k = some c.phase.role := by
  simp [roleOf, hk, hc]

theorem roleOf_set (hk : s.calls[k]? = some c) (hd : d.key = c.key)
    (hcalls : t.calls = s.calls.set k d) (key : String) : t.roleOf key =
      if c.key = some key then Function.update (s.roleOf key) k (some d.phase.role)
      else s.roleOf key := by
  have hset := bind_getElem?_set
    (fun _ (c : Execute) => if c.key = some key then some c.phase.role else none) hk d
  unfold roleOf
  rw [hcalls, hset, hd]
  split_ifs with hkey
  · rfl
  · simp [hk, hkey]

theorem cell_congr (hresults : t.results = s.results) (hcalls : t.calls = s.calls)
    (hcompletions : t.completions = s.completions) (key : String) : t.cell key = s.cell key := by
  unfold cell roleOf
  rw [hresults, hcalls, hcompletions]

theorem cell_moved (hk : s.calls[k]? = some c) (hd : d.key = c.key) (h : Moved s k d y t)
    (key : String) :
    t.cell key = if c.key = some key then (s.cell key).set k y.role else s.cell key := by
  obtain ⟨u, hu, rfl⟩ := h
  have hrole := roleOf_set (t := u.goTo k d y) (d := { d with phase := y }) hk hd
    (by rw [← hu.calls]; rfl) key
  have hresults : (u.goTo k d y).results = s.results := hu.results
  have hcompletions : (u.goTo k d y).completions = s.completions := hu.completions
  unfold cell
  rw [hrole, hresults, hcompletions]
  split_ifs <;> rfl

theorem cell_stay (hk : s.calls[k]? = some c) (hd : d.key = c.key) (h : Moved s k d y t)
    (hy : y.role = c.phase.role) (key : String) : t.cell key = s.cell key := by
  rw [cell_moved hk hd h]
  split_ifs with hkey
  · exact Cell.set_eq_self (hy ▸ roleOf_self hk hkey)
  · rfl

variable {may : Cell Value → Prop} {good : Value → Prop}

/-- An execute that takes another role at the cell of its key. -/
theorem steps_moved (hk : s.calls[k]? = some c) (h : Moved s k c y t)
    (hst : ∀ key, c.key = some key →
      Cell.Step keep may good (s.cell key) ((s.cell key).set k y.role)) (key : String) :
    Relation.ReflTransGen (Cell.Step keep may good) (s.cell key) (t.cell key) := by
  rw [cell_moved hk rfl h]
  split_ifs with hkey
  · exact .single (hst key hkey)
  · exact .refl

/-! ### What was read -/

/-- An execute that has read its result in Redis goes on with what is there. -/
structure Replies (s : ToolSystem) : Prop where
  redis : s.hasRedis = true
  reply : ∀ (j : ℕ) (c : Execute) (key : String) (reply : Option Value), s.calls[j]? = some c →
    c.key = some key → c.phase = .lookup (some reply) →
    reply.filter Value.truthy = (s.cell key).cached

namespace Replies

theorem congr (h : Replies s) (hconfig : t.adapter.config = s.adapter.config)
    (hresults : t.results = s.results) (hcalls : t.calls = s.calls) : Replies t where
  redis := by
    unfold hasRedis
    rw [hconfig]
    exact h.redis
  reply j c key reply hj hkey hphase := by
    have hold := h.reply j c key reply (hcalls ▸ hj) hkey hphase
    unfold cell at hold ⊢
    rw [hresults]
    exact hold

/-- An execute goes on to a phase at which it has read nothing. -/
theorem moved (h : Replies s) (hy : ∀ reply, y ≠ .lookup (some reply)) (ht : Moved s k d y t) :
    Replies t := by
  obtain ⟨u, hu, rfl⟩ := ht
  have hstay := h.congr hu.config hu.results hu.calls
  refine ⟨hstay.redis, fun j e key reply hj hkey hphase => ?_⟩
  rcases getElem?_set_cases hj with ⟨-, hj⟩ | ⟨-, rfl⟩
  · exact hstay.reply j e key reply hj hkey hphase
  · exact absurd hphase (hy reply)

theorem wal (h : Replies s) (wal : Dict EntryId WalEntry) : Replies { s with wal := wal } :=
  h.congr rfl rfl rfl

theorem looked (h : Replies s) (c : Execute) :
    Replies (s.goTo k c (.lookup (some (c.key.bind s.results.get?)))) where
  redis := h.redis
  reply j e key reply hj hkey hphase := by
    rcases getElem?_set_cases hj with ⟨-, hj⟩ | ⟨-, rfl⟩
    · exact h.reply j e key reply hj hkey hphase
    · obtain rfl := Option.some.inj (Phase.lookup.inj hphase)
      have hckey : c.key = some key := hkey
      rw [hckey]
      rfl

/-- No other execute of the key has read while one holds a result. -/
theorem alone {key : String} (hex : (s.cell key).Exclusive) (hk : s.calls[k]? = some c)
    (hkey : c.key = some key) {r : Value} (hx : c.phase.role = .holding r) {j : ℕ} (hne : j ≠ k)
    {e : Execute} (hj : s.calls[j]? = some e) (hekey : e.key = some key) :
    e.phase.role.active = false :=
  hex k j r e.phase.role ((roleOf_self hk hkey).trans (congrArg some hx)) hne (roleOf_self hj hekey)

theorem stored (h : Replies s) (hex : ∀ key, (s.cell key).Exclusive)
    (hk : s.calls[k]? = some c) {r : Value} (hx : c.phase.role = .holding r) :
    Replies ((s.storeResult c r).goTo k c (.storing r true)) := by
  have hmoved := h.moved (k := k) (d := c) (y := .storing r true) (by simp) (moved_goTo _)
  unfold storeResult
  split
  · rename_i key v hkey hv
    refine ⟨h.redis, fun j e key' reply hj hekey hphase => ?_⟩
    have hread := hmoved.reply j e key' reply hj hekey hphase
    rcases getElem?_set_cases hj with ⟨hne, hj'⟩ | ⟨-, rfl⟩
    · have hkeys : key' ≠ key := by
        rintro rfl
        have hquiet := alone (hex key') hk hkey hx hne hj' hekey
        simp [hphase, Phase.role, Role.active] at hquiet
      unfold cell at hread ⊢
      dsimp only [goTo] at hread ⊢
      rw [Dict.get?_set_ne _ _ hkeys]
      exact hread
    · cases hphase
  · exact hmoved

theorem beginExecute (h : Replies s) (key : Option String) (operation : String) (payload : Value) :
    Replies (s.beginExecute key operation payload) where
  redis := h.redis
  reply j e key' reply hj hekey hphase := by
    rcases getElem?_concat_cases hj with hj | ⟨-, rfl⟩
    · exact h.reply j e key' reply hj hekey hphase
    · dsimp only at hphase
      split_ifs at hphase
      cases hphase

theorem act {a : ToolAction} (h : Replies s) (hex : ∀ key, (s.cell key).Exclusive)
    (hk : s.calls[k]? = some c) (hok : answered s (.act k a) = true) (hst : Effect s k c t a) :
    Replies t := by
  cases hst with
  | looked ok hx hs =>
    obtain rfl := served_of_answered hk hok (by rw [hx]; rfl)
    exact hs ▸ h.looked c
  | hit v now hx hv hm => exact h.moved (by simp) hm
  | missed v now hx hv hs => exact hs ▸ h.moved (by simp) (moved_goTo _)
  | slot y a hx hy hm => exact h.moved (by rcases hy with rfl | rfl | rfl <;> simp) hm
  | attempt a hx hm => exact h.moved (by split_ifs <;> simp) hm
  | refused now hx hm => exact h.moved (by simp) hm
  | logged ok hx hs =>
    obtain ⟨wal, hwal⟩ := logOperation_eq (s := s) (k := k) (c := c) .pending 0
    rw [hs, hwal]
    cases ok with
    | true => exact (h.wal wal).moved (by simp) (moved_goTo _)
    | false => exact h.moved (by simp) (moved_goTo _)
  | run now hx hs => exact hs ▸ h.moved (by simp) (moved_goTo _)
  | returned r now hx hs =>
    subst hs
    have hgone : Replies { s with
        completions := s.completions ++ [(c.key, r)]
        successes := s.successes ++ [c.entryId k] } := h.congr rfl rfl rfl
    unfold operationEnded
    dsimp only
    rw [if_pos h.redis]
    exact hgone.moved (by simp) (moved_goTo _)
  | raised retryable now hx hs =>
    subst hs
    unfold operationEnded
    dsimp only
    rw [if_pos h.redis]
    exact h.moved (by simp) (moved_goTo _)
  | selfCancelled now hx hm => exact h.moved (by simp) hm
  | markRead r ok hx hs => exact hs ▸ h.moved (by simp) (moved_goTo _)
  | marking r entry now hx hs => exact hs ▸ h.moved (by simp) (moved_goTo _)
  | markWritten r entry ok hx hs =>
    subst hs
    cases ok with
    | true => exact (h.wal _).moved (by simp) (moved_goTo _)
    | false => exact h.moved (by simp) (moved_goTo _)
  | marked r now hx hm => exact h.moved (by split_ifs <;> simp) hm
  | failureLogged retryable ok hx hs =>
    obtain ⟨wal, hwal⟩ := logOperation_eq (s := s) (k := k) (c := c) .failed 1
    rw [hs, hwal]
    cases ok with
    | true => exact (h.wal wal).moved (by simp) (moved_goTo _)
    | false => exact h.moved (by simp) (moved_goTo _)
  | attemptOver retryable y now hx hy hm =>
    exact h.moved (by rcases hy with rfl | rfl <;> simp) hm
  | stored r ok hx hs =>
    obtain rfl := served_of_answered hk hok (by rw [hx]; rfl)
    exact hs ▸ h.stored hex hk (by rw [hx]; rfl)
  | succeeded r now hx hm => exact h.moved (by simp) hm

/-- What an execute has read is in Redis after any step with answers. -/
theorem step {e : ToolEvent} (h : Replies s) (hex : ∀ key, (s.cell key).Exclusive)
    (hok : answered s e = true) (hst : s.step e = some t) : Replies t := by
  cases e with
  | call key operation payload =>
    obtain rfl := Option.some.inj hst
    exact h.beginExecute key operation payload
  | recover =>
    obtain rfl := Option.some.inj hst
    exact h.congr rfl rfl rfl
  | recoveryAct j action =>
    simp only [ToolSystem.step] at hst
    split at hst
    · obtain ⟨wal, successes, r', rfl⟩ := (effect_of_recoveryAct hst).eq
      exact h.congr rfl rfl rfl
    · cases hst
  | expireResult key => cases hok
  | expireEntry id =>
    obtain rfl := Option.some.inj hst
    exact h.wal _
  | act k action =>
    simp only [ToolSystem.step] at hst
    split at hst
    · exact h.act hex ‹_› hok (effect_of_act hst)
    · cases hst

theorem init {cfg : AdapterConfig} (hcfg : cfg.redis = true) (wal : Dict EntryId WalEntry) :
    Replies (toolMachine cfg wal).init where
  redis := hcfg
  reply j c key reply hj := by cases hj

end Replies

/-! ### What a step is to the cells -/

theorem steps_stay (hk : s.calls[k]? = some c) (hd : d.key = c.key) (h : Moved s k d y t)
    (hy : y.role = c.phase.role) (key : String) :
    Relation.ReflTransGen (Cell.Step keep may good) (s.cell key) (t.cell key) := by
  rw [cell_stay hk hd h hy]

/-- An execute that stays in its role, after the log was written. -/
theorem steps_logged (hk : s.calls[k]? = some c) (wal : Dict EntryId WalEntry)
    (hy : y.role = c.phase.role) (key : String) :
    Relation.ReflTransGen (Cell.Step keep may good) (s.cell key)
      ((({ s with wal := wal } : ToolSystem).goTo k c y).cell key) := by
  have hsame : ({ s with wal := wal } : ToolSystem).cell key = s.cell key :=
    cell_congr rfl rfl rfl key
  rw [← hsame]
  exact steps_stay (s := { s with wal := wal }) hk rfl (moved_goTo y) hy key

theorem steps_fail (hk : s.calls[k]? = some c) (h : Moved s k c y t) (hy : y.role = .failed)
    (hx : c.phase.role = .working) (key : String) :
    Relation.ReflTransGen (Cell.Step keep may good) (s.cell key) (t.cell key) := by
  refine steps_moved hk h (fun key' hkey => ?_) key
  rw [hy]
  exact .fail k ((roleOf_self hk hkey).trans (congrArg some hx))

theorem roleOf_concat (hcalls : t.calls = s.calls ++ [d]) (key : String) :
    t.roleOf key = if d.key = some key then
      Function.update (s.roleOf key) s.calls.length (some d.phase.role) else s.roleOf key := by
  have hconcat := bind_getElem?_concat
    (fun _ (c : Execute) => if c.key = some key then some c.phase.role else none) s.calls d
  unfold roleOf
  rw [hcalls, hconcat]
  split_ifs with hkey
  · rfl
  · simp

theorem cell_beginExecute (h : s.hasRedis = true) (key : Option String) (operation : String)
    (payload : Value) (key' : String) : (s.beginExecute key operation payload).cell key' =
      if key = some key' then (s.cell key').set s.calls.length .checking else s.cell key' := by
  have hrole := roleOf_concat (s := s) (t := s.beginExecute key operation payload) rfl key'
  unfold cell
  rw [hrole]
  dsimp only
  split_ifs with hkey hlookup
  · rfl
  · subst hkey
    have hredis : (s.hasRedis && (some key').isSome) = true := by rw [h]; rfl
    exact absurd hredis hlookup
  · rfl

theorem steps_beginExecute (h : s.hasRedis = true) {key : Option String} {operation : String}
    {payload : Value} (hmay : ∀ key', key = some key' → may (s.cell key')) (key' : String) :
    Relation.ReflTransGen (Cell.Step keep may good) (s.cell key')
      ((s.beginExecute key operation payload).cell key') := by
  rw [cell_beginExecute h]
  split_ifs with hkey
  · refine .single (.arrive s.calls.length (fun j hj => ?_) (hmay key' hkey))
    simp [cell, roleOf, List.getElem?_eq_none hj]
  · exact .refl

theorem steps_returned (h : s.hasRedis = true) (hk : s.calls[k]? = some c)
    (hx : c.phase = .running) {r : Value} {now : ℚ} (hgood : good r) (key : String) :
    Relation.ReflTransGen (Cell.Step keep may good) (s.cell key)
      ((s.operationEnded k c (.returned r) now).cell key) := by
  have hend : s.operationEnded k c (.returned r) now = ({ s with
      completions := s.completions ++ [(c.key, r)]
      successes := s.successes ++ [c.entryId k] } : ToolSystem).goTo k c (.markGet r none) :=
    if_pos h
  have hrole := roleOf_set (t := s.operationEnded k c (.returned r) now)
    (d := { c with phase := .markGet r none }) hk rfl (by rw [hend]; rfl) key
  have hresults : (s.operationEnded k c (.returned r) now).results = s.results := by rw [hend]; rfl
  have hcompletions : (s.operationEnded k c (.returned r) now).completions =
      s.completions ++ [(c.key, r)] := by rw [hend]; rfl
  by_cases hkey : c.key = some key
  · have hcell : (s.operationEnded k c (.returned r) now).cell key =
        { (s.cell key).set k (.holding r) with outputs := (s.cell key).outputs ++ [r] } := by
      unfold cell
      rw [hrole, hresults, hcompletions]
      simp [Cell.set, Phase.role, hkey]
    rw [hcell]
    exact .single (.produce k r ((roleOf_self hk hkey).trans (by rw [hx]; rfl)) hgood)
  · have hcell : (s.operationEnded k c (.returned r) now).cell key = s.cell key := by
      unfold cell
      rw [hrole, hresults, hcompletions, if_neg hkey]
      simp [hkey]
    rw [hcell]

theorem steps_stored (hk : s.calls[k]? = some c) {r : Value} (hx : c.phase = .storing r false)
    (key : String) : Relation.ReflTransGen (Cell.Step keep may good) (s.cell key)
      (((s.storeResult c r).goTo k c (.storing r true)).cell key) := by
  have hcalls : (s.storeResult c r).calls = s.calls := by
    unfold storeResult
    split <;> rfl
  have hcompletions : (s.storeResult c r).completions = s.completions := by
    unfold storeResult
    split <;> rfl
  have hrole := roleOf_set (t := (s.storeResult c r).goTo k c (.storing r true))
    (d := { c with phase := .storing r true }) hk rfl (by simp [goTo, hcalls]) key
  by_cases hkey : c.key = some key
  · have hstep : Cell.Step keep may good (s.cell key)
        { (s.cell key).set k (.stored r) with
          cached := ((s.storeResult c r).results.get? key).filter Value.truthy } := by
      refine .store k r _ ((roleOf_self hk hkey).trans (by rw [hx]; rfl)) ?_
      unfold storeResult keep
      rw [hkey]
      cases hr : r.reload with
      | some v => exact Or.inl (by simp)
      | none => exact Or.inr ⟨rfl, rfl⟩
    have hcell : ((s.storeResult c r).goTo k c (.storing r true)).cell key =
        { (s.cell key).set k (.stored r) with
          cached := ((s.storeResult c r).results.get? key).filter Value.truthy } := by
      unfold cell
      rw [hrole, if_pos hkey]
      simp [goTo, hcompletions, Cell.set, Phase.role]
    exact hcell ▸ .single hstep
  · have hget : (s.storeResult c r).results.get? key = s.results.get? key := by
      unfold storeResult
      split
      · rename_i key' v hkey' _
        exact Dict.get?_set_ne _ _ fun he => hkey (he ▸ hkey')
      · rfl
    have hcell : ((s.storeResult c r).goTo k c (.storing r true)).cell key = s.cell key := by
      unfold cell
      rw [hrole, if_neg hkey]
      simp [goTo, hcompletions, hget]
    rw [hcell]

/-- A step of an execute is a sequence of steps of the parties of each cell, as long as Redis
answers. -/
theorem Replies.cell_steps_act {a : ToolAction} (h : Replies s) (hk : s.calls[k]? = some c)
    (hok : answered s (.act k a) = true) (hgood : ∀ r now, a = .ended (.returned r) now → good r)
    (hst : Effect s k c t a) (key : String) :
    Relation.ReflTransGen (Cell.Step keep may good) (s.cell key) (t.cell key) := by
  cases hst with
  | looked ok hx hs => exact hs ▸ steps_stay hk rfl (moved_goTo _) (by rw [hx]; rfl) key
  | hit v now hx hv hm =>
    refine steps_moved hk hm (fun key' hkey => ?_) key
    have hread := h.reply k c key' _ hk hkey hx
    refine .hit k v ((roleOf_self hk hkey).trans (by rw [hx]; rfl)) ?_
    rw [← hread]
    simp [hv]
  | missed v now hx hv hs =>
    refine hs ▸ steps_moved hk (moved_goTo _) (fun key' hkey => ?_) key
    have hread := h.reply k c key' v hk hkey hx
    refine .miss k ((roleOf_self hk hkey).trans (by rw [hx]; rfl)) ?_
    rw [← hread, Option.filter_eq_none_iff]
    simpa using hv
  | slot y a hx hy hm =>
    have hworking : c.phase.role = .working := by rcases hx with hx | hx <;> rw [hx] <;> rfl
    rcases hy with rfl | rfl | rfl
    · exact steps_stay hk rfl hm hworking.symm key
    · exact steps_stay hk rfl hm hworking.symm key
    · exact steps_fail hk hm rfl hworking key
  | attempt a hx hm =>
    have hworking : c.phase.role = .working := by rcases hx with hx | hx <;> rw [hx] <;> rfl
    rw [if_pos h.redis] at hm
    exact steps_stay (d := { c with attempts := c.attempts + 1 }) hk rfl hm hworking.symm key
  | refused now hx hm => exact steps_fail hk hm rfl (by rw [hx]; rfl) key
  | logged ok hx hs =>
    obtain ⟨wal, hwal⟩ := logOperation_eq (s := s) (k := k) (c := c) .pending 0
    rw [hs, hwal]
    cases ok with
    | true => exact steps_logged hk wal (by rw [hx]; rfl) key
    | false => exact steps_logged hk s.wal (by rw [hx]; rfl) key
  | run now hx hs => exact hs ▸ steps_stay hk rfl (moved_goTo _) (by rw [hx]; rfl) key
  | returned r now hx hs => exact hs ▸ steps_returned h.redis hk hx (hgood r now rfl) key
  | raised retryable now hx hs =>
    have hnext : t = s.goTo k c (.logFailed retryable false) := by
      rw [hs]
      exact if_pos h.redis
    exact hnext ▸ steps_stay hk rfl (moved_goTo _) (by rw [hx]; rfl) key
  | selfCancelled now hx hm => exact steps_fail hk hm rfl (by rw [hx]; rfl) key
  | markRead r ok hx hs => exact hs ▸ steps_stay hk rfl (moved_goTo _) (by rw [hx]; rfl) key
  | marking r entry now hx hs =>
    exact hs ▸ steps_stay hk rfl (moved_goTo _) (by rw [hx]; rfl) key
  | markWritten r entry ok hx hs =>
    rw [hs]
    cases ok with
    | true => exact steps_logged hk _ (by rw [hx]; rfl) key
    | false => exact steps_logged hk s.wal (by rw [hx]; rfl) key
  | marked r now hx hm =>
    have hholding : c.phase.role = .holding r := by
      rcases hx with hx | ⟨entry, hx⟩ <;> rw [hx] <;> rfl
    rw [cell_moved hk rfl hm]
    split_ifs with hkey hredis
    · rw [Cell.set_eq_self ((roleOf_self hk hkey).trans (congrArg some hholding))]
    · exact absurd (by rw [h.redis, hkey]; rfl) hredis
    · exact .refl
  | failureLogged retryable ok hx hs =>
    obtain ⟨wal, hwal⟩ := logOperation_eq (s := s) (k := k) (c := c) .failed 1
    rw [hs, hwal]
    cases ok with
    | true => exact steps_logged hk wal (by rw [hx]; rfl) key
    | false => exact steps_logged hk s.wal (by rw [hx]; rfl) key
  | attemptOver retryable y now hx hy hm =>
    have hworking : c.phase.role = .working := by rw [hx]; rfl
    rcases hy with rfl | rfl
    · exact steps_stay hk rfl hm hworking.symm key
    · exact steps_fail hk hm rfl hworking key
  | stored r ok hx hs =>
    obtain rfl := served_of_answered hk hok (by rw [hx]; rfl)
    exact hs ▸ steps_stored hk hx key
  | succeeded r now hx hm =>
    refine steps_moved hk hm (fun key' hkey => ?_) key
    exact .answer k r ((roleOf_self hk hkey).trans (by rw [hx]; rfl))

/-- A step of the adapter is a sequence of steps of the parties of each cell, as long as
Redis answers. -/
theorem Replies.cell_steps {e : ToolEvent} (h : Replies s) (hok : answered s e = true)
    (hst : s.step e = some t)
    (hmay : ∀ key operation payload, e = .call (some key) operation payload → may (s.cell key))
    (hgood : ∀ k r now, e = .act k (.ended (.returned r) now) → good r) (key : String) :
    Relation.ReflTransGen (Cell.Step keep may good) (s.cell key) (t.cell key) := by
  cases e with
  | call key' operation payload =>
    obtain rfl := Option.some.inj hst
    refine steps_beginExecute h.redis (fun key'' hkey => ?_) key
    exact hmay key'' operation payload (by rw [hkey])
  | recover =>
    obtain rfl := Option.some.inj hst
    rw [cell_congr (s := s) (t := s.beginRecovery) rfl rfl rfl]
  | recoveryAct j action =>
    simp only [ToolSystem.step] at hst
    split at hst
    · obtain ⟨wal, successes, r', hs⟩ := (effect_of_recoveryAct hst).eq
      rw [cell_congr (s := s) (t := t) (by rw [hs]; rfl) (by rw [hs]; rfl) (by rw [hs]; rfl)]
    · cases hst
  | expireResult key' => cases hok
  | expireEntry id =>
    obtain rfl := Option.some.inj hst
    rw [cell_congr (s := s) (t := { s with wal := s.wal.erase id }) rfl rfl rfl]
  | act k action =>
    simp only [ToolSystem.step] at hst
    split at hst
    · refine h.cell_steps_act ‹_› hok (fun r now ha => ?_) (effect_of_act hst) key
      exact hgood k r now (ha ▸ rfl)
    · cases hst

end ToolSystem

/-! ## Runs -/

/-- An execute with a key begins only while the result of the key is cached or no other
execute with the key is in flight, an operation that returns has a result that is true and that
Redis gives back unchanged, and Redis answers. -/
def OneAtATime (s : ToolSystem) (e : ToolEvent) : Prop :=
  answered s e = true ∧
  match e with
  | .call (some key) _ _ => (s.cell key).cached ≠ none ∨
      ∀ c ∈ s.calls, c.key = some key → c.phase.inFlight = false
  | .act _ (.ended (.returned r) _) => keep r = some r
  | _ => True

/-- An execute begins only while no other is in flight, and Redis answers. -/
def OneAfterTheOther (s : ToolSystem) (e : ToolEvent) : Prop :=
  answered s e = true ∧
  match e with
  | .call _ _ _ => ∀ c ∈ s.calls, c.phase.inFlight = false
  | _ => True

instance (s : ToolSystem) : DecidablePred (OneAfterTheOther s)
  | .call _ _ _ =>
    inferInstanceAs (Decidable (_ ∧ ∀ c ∈ s.calls, c.phase.inFlight = false))
  | .act _ _ => inferInstanceAs (Decidable (_ ∧ True))
  | .recover => inferInstanceAs (Decidable (_ ∧ True))
  | .recoveryAct _ _ => inferInstanceAs (Decidable (_ ∧ True))
  | .expireResult _ => inferInstanceAs (Decidable (_ ∧ True))
  | .expireEntry _ => inferInstanceAs (Decidable (_ ∧ True))

namespace ToolSystem

variable {s t : ToolSystem} {key : String} {cfg : AdapterConfig} {wal : Dict EntryId WalEntry}
  {es : List ToolEvent}

theorem quiet_of_calls (h : ∀ c ∈ s.calls, c.key = some key → c.phase.inFlight = false) :
    (s.cell key).Quiet := by
  intro j x hj
  obtain ⟨c, hc, hx⟩ := Option.bind_eq_some_iff.mp hj
  split_ifs at hx with hkey
  obtain rfl := Option.some.inj hx
  rw [Phase.active_role]
  exact h c (List.mem_of_getElem? hc) hkey

/-- The executes of a key compute its result once. -/
theorem once_of_run (hcfg : cfg.redis = true) (h : (toolMachine cfg wal).Run OneAtATime es s) :
    Replies s ∧ ∀ key, Once keep (s.cell key) := by
  refine h.invariant (I := fun s => Replies s ∧ ∀ key, Once keep (s.cell key))
    ⟨Replies.init hcfg wal, fun _ => Once.empty⟩ ?_
  rintro s e t ⟨hreplies, honce⟩ ⟨hanswered, hok⟩ hst
  refine ⟨hreplies.step (fun key => (honce key).exclusive) hanswered hst, fun key =>
    (honce key).steps (hreplies.cell_steps hanswered hst ?_ ?_ key)⟩
  · rintro key operation payload rfl
    exact hok.imp_right quiet_of_calls
  · rintro k r now rfl
    exact hok

/-- A result that Redis gives back, and that is true, stays the result of its key. -/
theorem kept_of_run (hcfg : cfg.redis = true) {r : Value} (hr : keep r = some r)
    (h : (toolMachine cfg wal).Run OneAfterTheOther es s) : ∀ key, Once.Kept r (s.cell key) := by
  refine (h.invariant (I := fun s => Replies s ∧ ∀ key, Once.Kept r (s.cell key))
    ⟨Replies.init hcfg wal, fun _ => Once.Kept.empty⟩ ?_).2
  rintro s e t ⟨hreplies, hkept⟩ ⟨hanswered, hok⟩ hst
  refine ⟨hreplies.step (fun key => (hkept key).exclusive) hanswered hst, fun key =>
    (hkept key).steps hr (hreplies.cell_steps hanswered hst ?_ (fun _ _ _ _ => trivial) key)⟩
  rintro key operation payload rfl
  exact quiet_of_calls fun c hc _ => hok c hc

end ToolSystem

theorem keep_eq_self {r : Value} (hr : r.truthy = true) (hreload : r.reload = some r) :
    keep r = some r := by
  unfold keep
  rw [hreload]
  simp [hr]

end ToolResilience

end MultiAgent
