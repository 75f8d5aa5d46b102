import Mathlib.Data.Sum.Basic
import MultiAgent.Resilience.ToolRecovery

/-!
# The log of the resilient tool adapter

An entry of the log is a task : the execute in whose attempt it was logged works at it, and
so does a recovery that has the entry in hand. `Logged.task_steps` : a step of the
adapter is, for every entry, a sequence of steps of the workers of its task, as long as a
recovery reads an entry as pending only while nobody else has it in hand, and Redis answers
the commands of `mark_completed`. Then no entry is executed to success twice (`executesOnce`).

Nothing in the code sees to the former. A recovery that starts while an operation runs
finds its entry pending and runs the operation again (`not_executesOnce`).
-/

namespace MultiAgent

namespace ToolResilience

open Json (Value)

/-- The work of an execute at the entry of its current attempt. -/
def Phase.work : Phase → Option Work
  | .logging _ => some .working
  | .running => some .working
  | .logFailed _ _ => some .working
  | .markGet _ reply => some (workOfReply reply)
  | .markSet _ _ served => some (workOfWrite served)
  | _ => none

/-- The execute awaits a command of `mark_completed`. -/
def Phase.awaitsMark : Phase → Bool
  | .markGet _ none => true
  | .markSet _ _ false => true
  | _ => false

/-- The recovery awaits a command of `mark_completed`. -/
def Recovery.awaitsMark : Recovery → Bool
  | .markGet _ _ _ none => true
  | .markSet _ _ _ _ false => true
  | _ => false

/-- The log has the entry as pending. -/
def pendingIn (wal : Dict EntryId WalEntry) (id : EntryId) : Bool :=
  (wal.get? id).any fun entry => entry.state = .pending

theorem pendingIn_set_self {wal : Dict EntryId WalEntry} {id : EntryId} {entry : WalEntry} :
    pendingIn (wal.set id entry) id = decide (entry.state = .pending) := by
  simp [pendingIn]

theorem pendingIn_set_ne {wal : Dict EntryId WalEntry} {id id' : EntryId} {entry : WalEntry}
    (h : id' ≠ id) : pendingIn (wal.set id entry) id' = pendingIn wal id' := by
  unfold pendingIn
  rw [Dict.get?_set_ne _ _ h]

namespace ToolSystem

variable {s t u : ToolSystem} {k j : ℕ} {c d : Execute} {r r' : Recovery} {y : Phase}
  {id : EntryId} {wal : Dict EntryId WalEntry} {successes : List EntryId}

/-- The work of the `k`-th execute at an entry. -/
def callWork (s : ToolSystem) (id : EntryId) (k : ℕ) : Option Work :=
  (s.calls[k]?).bind fun c => if c.entryId k = id then c.phase.work else none

/-- The work of the `j`-th recovery at an entry. -/
def recoveryWork (s : ToolSystem) (id : EntryId) (j : ℕ) : Option Work :=
  (s.recoveries[j]?).bind fun r => r.work id

/-- The task of an entry. -/
def task (s : ToolSystem) (id : EntryId) : Task (ℕ ⊕ ℕ) where
  pending := pendingIn s.wal id
  successes := s.successes.count id
  work := Sum.elim (s.callWork id) (s.recoveryWork id)

/-- No execute is in the attempt that logged the entry, and no recovery has it in hand. -/
def Unclaimed (s : ToolSystem) (id : EntryId) : Prop :=
  (∀ (k : ℕ) (c : Execute), s.calls[k]? = some c → c.entryId k = id → c.phase.work = none) ∧
    ∀ r ∈ s.recoveries, id ∉ r.hand

theorem Unclaimed.free (h : s.Unclaimed id) : (s.task id).Free := by
  rintro (k | j)
  · unfold task callWork
    dsimp only [Sum.elim_inl]
    rw [Option.bind_eq_none_iff]
    intro c hc
    split_ifs with hid
    · exact h.1 k c hc hid
    · rfl
  · unfold task recoveryWork
    dsimp only [Sum.elim_inr]
    rw [Option.bind_eq_none_iff]
    exact fun r hr => Recovery.work_eq_none (h.2 r (List.mem_of_getElem? hr))

/-! ### What a step does to a task -/

theorem task_congr (hwal : t.wal = s.wal) (hcalls : t.calls = s.calls)
    (hrecoveries : t.recoveries = s.recoveries) (hsuccesses : t.successes = s.successes)
    (id : EntryId) : t.task id = s.task id := by
  unfold task callWork recoveryWork
  rw [hwal, hcalls, hrecoveries, hsuccesses]

theorem callWork_set (hk : s.calls[k]? = some c) (hcalls : t.calls = s.calls.set k d)
    (id : EntryId) : t.callWork id =
      Function.update (s.callWork id) k (if d.entryId k = id then d.phase.work else none) := by
  unfold callWork
  rw [hcalls]
  exact bind_getElem?_set
    (fun j (c : Execute) => if c.entryId j = id then c.phase.work else none) hk d

theorem recoveryWork_set (hj : s.recoveries[j]? = some r)
    (hrecoveries : t.recoveries = s.recoveries.set j r') (id : EntryId) :
    t.recoveryWork id = Function.update (s.recoveryWork id) j (r'.work id) := by
  unfold recoveryWork
  rw [hrecoveries]
  exact bind_getElem?_set (fun _ (r : Recovery) => r.work id) hj r'

theorem task_goTo (hk : s.calls[k]? = some c) (d : Execute) (y : Phase)
    (wal : Dict EntryId WalEntry) (successes : List EntryId) (id : EntryId) :
    (({ s with wal := wal, successes := successes } : ToolSystem).goTo k d y).task id =
      { (s.task id).set (.inl k) (if d.entryId k = id then y.work else none) with
        pending := pendingIn wal id
        successes := successes.count id } := by
  have hcalls := callWork_set (d := { d with phase := y })
    (t := ({ s with wal := wal, successes := successes } : ToolSystem).goTo k d y) hk rfl id
  refine Task.ext rfl rfl ?_
  unfold task Task.set
  dsimp only
  rw [hcalls, Sum.update_elim_inl]
  rfl

theorem task_recoverAt (hj : s.recoveries[j]? = some r) (r' : Recovery)
    (wal : Dict EntryId WalEntry) (successes : List EntryId) (id : EntryId) :
    (({ s with wal := wal, successes := successes } : ToolSystem).recoverAt j r').task id =
      { (s.task id).set (.inr j) (r'.work id) with
        pending := pendingIn wal id
        successes := successes.count id } := by
  have hrecoveries := recoveryWork_set
    (t := ({ s with wal := wal, successes := successes } : ToolSystem).recoverAt j r') hj rfl id
  refine Task.ext rfl rfl ?_
  unfold task Task.set
  dsimp only
  rw [hrecoveries, Sum.update_elim_inr]
  rfl

theorem work_call (hk : s.calls[k]? = some c) :
    (s.task id).work (.inl k) = if c.entryId k = id then c.phase.work else none := by
  simp [task, callWork, hk]

theorem work_recovery (hj : s.recoveries[j]? = some r) :
    (s.task id).work (.inr j) = r.work id := by
  simp [task, recoveryWork, hj]

/-! ### What the log has -/

/-- The entry is in the log, was executed, or a recovery has it in hand. -/
def Knows (s : ToolSystem) (id : EntryId) : Prop :=
  id ∈ s.wal ∨ id ∈ s.successes ∨ ∃ r ∈ s.recoveries, id ∈ r.hand

/-- An entry of an execute is known only from its attempt on, a recovery has an entry in hand
once, and `mark_completed` writes completed entries. -/
structure Logged (s : ToolSystem) : Prop where
  redis : s.hasRedis = true
  begun : ∀ k n, s.Knows (.attempt k n) → ∃ c, s.calls[k]? = some c ∧ n ≤ c.attempts
  once : ∀ r ∈ s.recoveries, r.hand.Nodup
  executes : ∀ c ∈ s.calls, ∀ r entry served, c.phase = .markSet r entry served →
    entry.state = .completed
  recoveries : ∀ id entry rest n served, .markSet id entry rest n served ∈ s.recoveries →
    entry.state = .completed

namespace Logged

theorem congr (h : Logged s) (hu : Untouched s u) : Logged u where
  redis := by
    unfold hasRedis
    rw [hu.config]
    exact h.redis
  begun k n hknows := by
    rw [hu.calls]
    refine h.begun k n ?_
    unfold Knows at hknows ⊢
    rwa [hu.wal, hu.successes, hu.recoveries] at hknows
  once := by rw [hu.recoveries]; exact h.once
  executes := by rw [hu.calls]; exact h.executes
  recoveries := by rw [hu.recoveries]; exact h.recoveries

/-- An execute goes on, and mentions no other entry than its own. -/
theorem goTo (h : Logged s) (wal : Dict EntryId WalEntry) (successes : List EntryId)
    (hk : s.calls[k]? = some c) (hd : c.attempts ≤ d.attempts)
    (hy : ∀ r entry served, y = .markSet r entry served → entry.state = .completed)
    (hwal : ∀ id ∈ wal, id ∈ s.wal ∨ id = d.entryId k)
    (hsuccesses : ∀ id ∈ successes, id ∈ s.successes ∨ id = d.entryId k) :
    Logged (({ s with wal := wal, successes := successes } : ToolSystem).goTo k d y) where
  redis := h.redis
  begun j n hknows := by
    obtain ⟨hlt, -⟩ := List.getElem?_eq_some_iff.mp hk
    have hold : s.Knows (.attempt j n) ∨ .attempt j n = d.entryId k := by
      rcases hknows with hknows | hknows | hknows
      · exact (hwal _ hknows).imp_left Or.inl
      · exact (hsuccesses _ hknows).imp_left fun hs => Or.inr (Or.inl hs)
      · exact Or.inl (Or.inr (Or.inr hknows))
    by_cases hj : j = k
    · subst hj
      refine ⟨{ d with phase := y }, List.getElem?_set_self hlt, ?_⟩
      rcases hold with hold | hold
      · obtain ⟨c', hc', hn⟩ := h.begun j n hold
        obtain rfl := Option.some.inj (hk.symm.trans hc')
        exact Nat.le_trans hn hd
      · exact Nat.le_of_eq (EntryId.attempt.inj hold).2
    · have hknown : s.Knows (.attempt j n) :=
        hold.resolve_right fun he => hj (EntryId.attempt.inj he).1
      obtain ⟨c', hc', hn⟩ := h.begun j n hknown
      exact ⟨c', (List.getElem?_set_ne (Ne.symm hj)).trans hc', hn⟩
  once := h.once
  executes e he r entry served hphase := by
    rcases List.mem_or_eq_of_mem_set he with he | rfl
    · exact h.executes e he r entry served hphase
    · exact hy r entry served hphase
  recoveries := h.recoveries

theorem moved (h : Logged s) (hk : s.calls[k]? = some c) (hd : c.attempts ≤ d.attempts)
    (hy : ∀ r entry served, y = .markSet r entry served → entry.state = .completed)
    (ht : Moved s k d y t) : Logged t := by
  obtain ⟨u, hu, rfl⟩ := ht
  exact (h.congr hu).goTo u.wal u.successes (hu.calls ▸ hk) hd hy
    (fun _ => Or.inl) (fun _ => Or.inl)

/-- A recovery goes on, with entries in hand that it had or has read in the log. -/
theorem recoverAt (h : Logged s) (wal : Dict EntryId WalEntry) (successes : List EntryId)
    (hj : s.recoveries[j]? = some r)
    (hwal : ∀ id ∈ wal, id ∈ s.wal ∨ id ∈ r.hand)
    (hsuccesses : ∀ id ∈ successes, id ∈ s.successes ∨ id ∈ r.hand)
    (hhand : ∀ id ∈ r'.hand, id ∈ r.hand ∨ id ∈ s.wal) (honce : r'.hand.Nodup)
    (hcompleted : ∀ id entry rest n served, r' = .markSet id entry rest n served →
      entry.state = .completed) :
    Logged (({ s with wal := wal, successes := successes } : ToolSystem).recoverAt j r') where
  redis := h.redis
  begun k n hknows := by
    have hmem : r ∈ s.recoveries := List.mem_of_getElem? hj
    have hin : ∀ id, id ∈ r.hand → s.Knows id := fun id hid => Or.inr (Or.inr ⟨r, hmem, hid⟩)
    refine h.begun k n ?_
    rcases hknows with hknows | hknows | ⟨r'', hr'', hid⟩
    · exact (hwal _ hknows).elim Or.inl (hin _)
    · exact (hsuccesses _ hknows).elim (fun hs => Or.inr (Or.inl hs)) (hin _)
    · rcases List.mem_or_eq_of_mem_set hr'' with hr'' | rfl
      · exact Or.inr (Or.inr ⟨r'', hr'', hid⟩)
      · exact (hhand _ hid).elim (hin _) Or.inl
  once r'' hr'' := by
    rcases List.mem_or_eq_of_mem_set hr'' with hr'' | rfl
    · exact h.once r'' hr''
    · exact honce
  executes := h.executes
  recoveries id entry rest n served hmem := by
    rcases List.mem_or_eq_of_mem_set hmem with hmem | he
    · exact h.recoveries id entry rest n served hmem
    · exact hcompleted id entry rest n served he.symm

end Logged

end ToolSystem

/-- A recovery reads an entry as pending only while no execute is in the attempt that logged it
and no recovery has it in hand, and Redis answers the commands of `mark_completed`. -/
def OneOwner (s : ToolSystem) : ToolEvent → Prop
  | .recoveryAct j (.serve true) => ∀ id todo found,
      s.recoveries[j]? = some (.reading (id :: todo) found none) →
        pendingIn s.wal id = true → s.Unclaimed id
  | .recoveryAct j (.serve false) => ∀ r, s.recoveries[j]? = some r → r.awaitsMark = false
  | .act k (.serve false) => ∀ c, s.calls[k]? = some c → c.phase.awaitsMark = false
  | _ => True

namespace ToolSystem

variable {s t : ToolSystem} {k j : ℕ} {c : Execute} {r : Recovery} {id : EntryId}
  {wal : Dict EntryId WalEntry}

/-- The log is `wal` now, which differs at most at the entry. -/
def Writes (s : ToolSystem) (id : EntryId) (wal : Dict EntryId WalEntry) : Prop :=
  wal = s.wal ∨ ∃ entry, wal = s.wal.set id entry

theorem Writes.mem (h : s.Writes id wal) : ∀ id' ∈ wal, id' ∈ s.wal ∨ id' = id := by
  rintro id' hid'
  rcases h with rfl | ⟨entry, rfl⟩
  · exact Or.inl hid'
  · exact (Dict.mem_set.mp hid').symm

theorem Writes.pendingIn_eq (h : s.Writes id wal) {id' : EntryId} (hne : id' ≠ id) :
    pendingIn wal id' = pendingIn s.wal id' := by
  rcases h with rfl | ⟨entry, rfl⟩
  · rfl
  · exact pendingIn_set_ne hne

theorem logOperation_writes (ok : Bool) (state : WalState) (n : ℕ) : ∃ wal,
    s.Writes (c.entryId k) wal ∧
      (if ok then s.logOperation k c state n else s) = { s with wal := wal } := by
  cases ok with
  | false => exact ⟨s.wal, Or.inl rfl, rfl⟩
  | true =>
    unfold logOperation
    rw [if_pos rfl]
    split
    · exact ⟨_, Or.inr ⟨_, rfl⟩, rfl⟩
    · exact ⟨s.wal, Or.inl rfl, rfl⟩

namespace Logged

theorem beginExecute (h : Logged s) (key : Option String) (operation : String) (payload : Value) :
    Logged (s.beginExecute key operation payload) where
  redis := h.redis
  begun k n hknows := by
    obtain ⟨c, hc, hn⟩ := h.begun k n hknows
    exact ⟨c, List.getElem?_append_left (List.getElem?_eq_some_iff.mp hc).1 ▸ hc, hn⟩
  once := h.once
  executes e he r entry served hphase := by
    rcases List.mem_append.mp he with he | he
    · exact h.executes e he r entry served hphase
    · obtain rfl := List.mem_singleton.mp he
      dsimp only at hphase
      split_ifs at hphase
  recoveries := h.recoveries

theorem beginRecovery (h : Logged s) : Logged s.beginRecovery where
  redis := h.redis
  begun k n hknows := by
    refine h.begun k n ?_
    rcases hknows with hknows | hknows | ⟨r, hr, hid⟩
    · exact Or.inl hknows
    · exact Or.inr (Or.inl hknows)
    · rcases List.mem_append.mp hr with hr | hr
      · exact Or.inr (Or.inr ⟨r, hr, hid⟩)
      · obtain rfl := List.mem_singleton.mp hr
        rw [if_pos h.redis] at hid
        cases hid
  once r hr := by
    rcases List.mem_append.mp hr with hr | hr
    · exact h.once r hr
    · obtain rfl := List.mem_singleton.mp hr
      rw [if_pos h.redis]
      exact List.nodup_nil
  executes := h.executes
  recoveries id entry rest n served hmem := by
    rcases List.mem_append.mp hmem with hmem | hmem
    · exact h.recoveries id entry rest n served hmem
    · have he := List.mem_singleton.mp hmem
      rw [if_pos h.redis] at he
      cases he

theorem expireEntry (h : Logged s) (id : EntryId) : Logged { s with wal := s.wal.erase id } where
  redis := h.redis
  begun k n hknows := h.begun k n (hknows.imp_left fun hmem => (Dict.mem_erase.mp hmem).2)
  once := h.once
  executes := h.executes
  recoveries := h.recoveries

theorem act {a : ToolAction} (h : Logged s) (hk : s.calls[k]? = some c)
    (hst : Effect s k c t a) : Logged t := by
  have hsame : ∀ id ∈ s.successes, id ∈ s.successes ∨ id = c.entryId k := fun _ => Or.inl
  have hle := Nat.le_refl c.attempts
  cases hst with
  | looked ok hx hs => exact hs ▸ h.moved hk hle (by simp) (moved_goTo _)
  | hit v now hx hv hm => exact h.moved hk hle (by simp) hm
  | missed v now hx hv hs => exact hs ▸ h.moved hk hle (by simp) (moved_goTo _)
  | slot y a hx hy hm => exact h.moved hk hle (by rcases hy with rfl | rfl | rfl <;> simp) hm
  | attempt a hx hm => exact h.moved hk (Nat.le_succ _) (by split_ifs <;> simp) hm
  | refused now hx hm => exact h.moved hk hle (by simp) hm
  | logged ok hx hs =>
    obtain ⟨wal, hwal, heq⟩ := logOperation_writes (s := s) (k := k) (c := c) ok .pending 0
    exact hs ▸ heq ▸ h.goTo _ _ hk hle (by simp) hwal.mem hsame
  | run now hx hs => exact hs ▸ h.moved hk hle (by simp) (moved_goTo _)
  | returned r now hx hs =>
    have hnext : t = ({ s with
        completions := s.completions ++ [(c.key, r)]
        successes := s.successes ++ [c.entryId k] } : ToolSystem).goTo k c (.markGet r none) := by
      rw [hs]
      exact if_pos h.redis
    have hgone := h.goTo (y := .markGet r none) s.wal (s.successes ++ [c.entryId k]) hk hle
      (by simp) (fun _ => Or.inl) (by simp)
    exact hnext ▸ ⟨hgone.redis, hgone.begun, hgone.once, hgone.executes, hgone.recoveries⟩
  | raised retryable now hx hs =>
    have hnext : t = s.goTo k c (.logFailed retryable false) := by
      rw [hs]
      exact if_pos h.redis
    exact hnext ▸ h.moved hk hle (by simp) (moved_goTo _)
  | selfCancelled now hx hm => exact h.moved hk hle (by simp) hm
  | markRead r ok hx hs => exact hs ▸ h.moved hk hle (by simp) (moved_goTo _)
  | marking r entry now hx hs =>
    refine hs ▸ h.moved hk hle (fun r' entry' served he => ?_) (moved_goTo _)
    rw [← (Phase.markSet.inj he).2.1]
  | markWritten r entry ok hx hs =>
    have hcompleted := h.executes c (List.mem_of_getElem? hk) r entry false hx
    have hy : ∀ r' entry' served, Phase.markSet r entry true = .markSet r' entry' served →
        entry'.state = .completed :=
      fun r' entry' served he => (Phase.markSet.inj he).2.1 ▸ hcompleted
    subst hs
    cases ok with
    | true =>
      exact h.goTo _ _ hk hle hy (Writes.mem (Or.inr ⟨entry, rfl⟩)) hsame
    | false => exact h.moved hk hle hy (moved_goTo _)
  | marked r now hx hm => exact h.moved hk hle (by split_ifs <;> simp) hm
  | failureLogged retryable ok hx hs =>
    obtain ⟨wal, hwal, heq⟩ := logOperation_writes (s := s) (k := k) (c := c) ok .failed 1
    exact hs ▸ heq ▸ h.goTo _ _ hk hle (by simp) hwal.mem hsame
  | attemptOver retryable y now hx hy hm =>
    exact h.moved hk hle (by rcases hy with rfl | rfl <;> simp) hm
  | stored r ok hx hs =>
    have hmoved := h.moved (d := c) (y := .storing r true) hk hle (by simp) (moved_goTo _)
    subst hs
    unfold storeResult
    split_ifs
    · split
      · exact ⟨hmoved.redis, hmoved.begun, hmoved.once, hmoved.executes, hmoved.recoveries⟩
      · exact hmoved
    · exact hmoved
  | succeeded r now hx hm => exact h.moved hk hle (by simp) hm

/-- Entries that are dropped from the hand. -/
theorem dropped (h : Logged s) (hj : s.recoveries[j]? = some r) {r' : Recovery}
    (hmarking : r'.marking = none) (hqueue : r'.queue.Sublist r.queue) :
    Logged (s.recoverAt j r') := by
  have hhand : r'.hand.Sublist r.hand := by
    unfold Recovery.hand
    rw [hmarking]
    exact hqueue.trans (List.sublist_append_right _ _)
  refine h.recoverAt s.wal s.successes hj (fun _ => Or.inl)
    (fun _ => Or.inl) (fun id hid => Or.inl (hhand.subset hid))
    ((h.once r (List.mem_of_getElem? hj)).sublist hhand) ?_
  rintro id entry rest n served rfl
  cases hmarking

/-- A recovery that goes on with what it has in hand. -/
theorem goesOn (h : Logged s) (wal : Dict EntryId WalEntry) (successes : List EntryId)
    (hj : s.recoveries[j]? = some r) (r' : Recovery) (hhand : r'.hand = r.hand)
    (hwal : ∀ id ∈ wal, id ∈ s.wal ∨ id ∈ r.hand)
    (hsuccesses : ∀ id ∈ successes, id ∈ s.successes ∨ id ∈ r.hand)
    (hcompleted : ∀ id entry rest n served, r' = .markSet id entry rest n served →
      entry.state = .completed) :
    Logged (({ s with wal := wal, successes := successes } : ToolSystem).recoverAt j r') :=
  h.recoverAt wal successes hj hwal hsuccesses (fun _ hid => Or.inl (hhand ▸ hid))
    (hhand ▸ h.once r (List.mem_of_getElem? hj)) hcompleted

theorem read (h : Logged s) {todo : List EntryId} {found : List (EntryId × WalEntry)}
    (hj : s.recoveries[j]? = some (.reading (id :: todo) found none)) {ok : Bool}
    (hfree : ok = true → pendingIn s.wal id = true → s.Unclaimed id) :
    Logged (s.recoverAt j (.reading (id :: todo) found
      (some (if ok then some (s.wal.get? id) else none)))) := by
  have hmem := List.mem_of_getElem? hj
  have honce := h.once _ hmem
  cases ok with
  | false => exact h.dropped hj rfl (List.Sublist.refl _)
  | true =>
    cases hget : s.wal.get? id with
    | none => exact h.dropped hj rfl (List.Sublist.refl _)
    | some entry =>
      by_cases hpending : entry.state = .pending
      · have hnot := (hfree rfl (by simp [pendingIn, hget, hpending])).2 _ hmem
        have hhand : (Recovery.reading (id :: todo) found (some (some (some entry)))).hand =
            (Recovery.reading (id :: todo) found none).hand ++ [id] :=
          Recovery.queue_pending todo found hpending
        refine h.recoverAt s.wal s.successes hj (fun _ => Or.inl)
          (fun _ => Or.inl) (fun id' hid' => ?_) ?_ (by simp)
        · rw [if_pos rfl, hhand, List.mem_append, List.mem_singleton] at hid'
          rcases hid' with hid' | rfl
          · exact Or.inl hid'
          · exact Or.inr (Dict.mem_of_get? hget)
        · rw [if_pos rfl, hhand]
          exact List.nodup_append.mpr ⟨honce, List.nodup_singleton id, by
            rintro a ha b hb rfl
            exact hnot (List.mem_singleton.mp hb ▸ ha)⟩
      · exact h.dropped hj rfl (Recovery.queue_settled todo found hpending ▸ List.Sublist.refl _)

theorem recoveryAct {a : RecoveryAction} (h : Logged s) (hj : s.recoveries[j]? = some r)
    (hok : OneOwner s (.recoveryAct j a)) (hst : RecoveryEffect s j r t a) : Logged t := by
  cases hst with
  | moved r' a hr hmarking hqueue hs => exact hs ▸ h.dropped hj hmarking hqueue
  | read id todo found ok hr hs =>
    subst hr
    refine hs ▸ h.read hj fun hserved hpending => ?_
    subst hserved
    exact hok id todo found hj hpending
  | returned id entry rest n v hr hs =>
    subst hr
    refine hs ▸ h.goesOn s.wal _ hj (.markGet id rest n none) rfl (fun _ => Or.inl)
      (fun id' hid' => ?_) (by simp)
    refine (List.mem_append.mp hid').imp_right fun hid' => ?_
    exact List.mem_singleton.mp hid' ▸ List.mem_cons_self
  | markRead id rest n ok hr hs =>
    subst hr
    exact hs ▸ h.goesOn s.wal s.successes hj
      (.markGet id rest n (some (if ok then s.wal.get? id else none))) rfl (fun _ => Or.inl)
      (fun _ => Or.inl) (by simp)
  | marking id entry rest n hr hs =>
    subst hr
    refine hs ▸ h.goesOn s.wal s.successes hj
      (.markSet id { entry with state := .completed } rest n false) rfl (fun _ => Or.inl)
      (fun _ => Or.inl) (fun id' entry' rest' n' served he => ?_)
    rw [← (Recovery.markSet.inj he).2.1]
  | markWritten id entry rest n ok hr hs =>
    subst hr hs
    have hcompleted := h.recoveries id entry rest n false (List.mem_of_getElem? hj)
    have hy : ∀ id' entry' rest' n' served, Recovery.markSet id entry rest n true =
        .markSet id' entry' rest' n' served → entry'.state = .completed :=
      fun id' entry' rest' n' served he => (Recovery.markSet.inj he).2.1 ▸ hcompleted
    cases ok with
    | true =>
      refine h.goesOn _ s.successes hj (.markSet id entry rest n true) rfl
        (fun id' hid' => ?_) (fun _ => Or.inl) hy
      have hin : id ∈ (Recovery.markSet id entry rest n false).hand := List.mem_cons_self
      have hwrites : s.Writes id (s.wal.set id entry) := Or.inr ⟨entry, rfl⟩
      rcases hwrites.mem id' hid' with hmem | he
      · exact Or.inl hmem
      · rw [he]
        exact Or.inr hin
    | false =>
      exact h.goesOn s.wal s.successes hj
        (.markSet id entry rest n true) rfl (fun _ => Or.inl) (fun _ => Or.inl) hy

/-- Every step in which the entries have one owner keeps what the log has. -/
theorem step {e : ToolEvent} (h : Logged s) (hok : OneOwner s e) (hst : s.step e = some t) :
    Logged t := by
  cases e with
  | call key operation payload =>
    obtain rfl := Option.some.inj hst
    exact h.beginExecute key operation payload
  | recover =>
    obtain rfl := Option.some.inj hst
    exact h.beginRecovery
  | expireResult key =>
    obtain rfl := Option.some.inj hst
    exact ⟨h.redis, h.begun, h.once, h.executes, h.recoveries⟩
  | expireEntry id =>
    obtain rfl := Option.some.inj hst
    exact h.expireEntry id
  | act k action =>
    simp only [ToolSystem.step] at hst
    split at hst
    · exact h.act ‹_› (effect_of_act hst)
    · cases hst
  | recoveryAct j action =>
    simp only [ToolSystem.step] at hst
    split at hst
    · exact h.recoveryAct ‹_› hok (effect_of_recoveryAct hst)
    · cases hst

theorem init {cfg : AdapterConfig} (hcfg : cfg.redis = true)
    (hwal : ∀ id ∈ wal, ∃ n, id = .earlier n) : Logged (toolMachine cfg wal).init where
  redis := hcfg
  begun k n hknows := by
    rcases hknows with hknows | hknows | ⟨r, hr, -⟩
    · obtain ⟨m, hm⟩ := hwal _ hknows
      cases hm
    · cases hknows
    · cases hr
  once r hr := by cases hr
  executes c hc := by cases hc
  recoveries id entry rest n served hmem := by cases hmem

end Logged

/-! ### What a step is to the tasks -/

theorem task_moved {d : Execute} {y : Phase} (hk : s.calls[k]? = some c) (ht : Moved s k d y t)
    (id : EntryId) :
    t.task id = (s.task id).set (.inl k) (if d.entryId k = id then y.work else none) := by
  obtain ⟨u, hu, rfl⟩ := ht
  have hsame : u.task id = s.task id :=
    task_congr hu.wal hu.calls hu.recoveries hu.successes id
  rw [← hsame]
  exact task_goTo (s := u) (hu.calls ▸ hk) d y u.wal u.successes id

/-- An execute that goes on with the entry of its attempt, and may write the log there. -/
theorem tasks_goTo {y : Phase} (successes : List EntryId) (hk : s.calls[k]? = some c)
    (hwal : s.Writes (c.entryId k) wal)
    (hsuccesses : ∀ id, id ≠ c.entryId k → successes.count id = s.successes.count id)
    (hown : Relation.ReflTransGen Task.Step (s.task (c.entryId k))
      { (s.task (c.entryId k)).set (.inl k) y.work with
        pending := pendingIn wal (c.entryId k)
        successes := successes.count (c.entryId k) }) (id : EntryId) :
    Relation.ReflTransGen Task.Step (s.task id)
      ((({ s with wal := wal, successes := successes } : ToolSystem).goTo k c y).task id) := by
  rw [task_goTo hk]
  by_cases hid : c.entryId k = id
  · subst hid
    rw [if_pos rfl]
    exact hown
  · have hnone : (s.task id).work (.inl k) = none := by rw [work_call hk, if_neg hid]
    rw [if_neg hid, Task.set_eq_self hnone, hwal.pendingIn_eq (Ne.symm hid),
      hsuccesses id (Ne.symm hid)]
    exact .refl

theorem tasks_moved {y : Phase} (hk : s.calls[k]? = some c) (ht : Moved s k c y t)
    (hown : Relation.ReflTransGen Task.Step (s.task (c.entryId k))
      ((s.task (c.entryId k)).set (.inl k) y.work)) (id : EntryId) :
    Relation.ReflTransGen Task.Step (s.task id) (t.task id) := by
  rw [task_moved hk ht]
  by_cases hid : c.entryId k = id
  · subst hid
    rw [if_pos rfl]
    exact hown
  · have hnone : (s.task id).work (.inl k) = none := by rw [work_call hk, if_neg hid]
    rw [if_neg hid, Task.set_eq_self hnone]

theorem work_own (hk : s.calls[k]? = some c) :
    (s.task (c.entryId k)).work (.inl k) = c.phase.work := by
  rw [work_call hk, if_pos rfl]

theorem tasks_stay {y : Phase} (hk : s.calls[k]? = some c) (ht : Moved s k c y t)
    (hy : y.work = c.phase.work) (id : EntryId) :
    Relation.ReflTransGen Task.Step (s.task id) (t.task id) := by
  refine tasks_moved hk ht ?_ id
  rw [Task.set_eq_self ((work_own hk).trans hy.symm)]

theorem tasks_leave {y : Phase} (hk : s.calls[k]? = some c) (ht : Moved s k c y t)
    (hy : y.work = none) (hx : c.phase.work ≠ some .marking) (id : EntryId) :
    Relation.ReflTransGen Task.Step (s.task id) (t.task id) := by
  refine tasks_moved hk ht ?_ id
  rw [hy]
  exact .single (.leave _ (work_own hk ▸ hx))

/-- An execute that works at its entry writes the log. -/
theorem tasks_log {y : Phase} (hk : s.calls[k]? = some c) (hwal : s.Writes (c.entryId k) wal)
    (hx : c.phase.work = some .working) (hy : y.work = some .working) (id : EntryId) :
    Relation.ReflTransGen Task.Step (s.task id)
      ((({ s with wal := wal } : ToolSystem).goTo k c y).task id) := by
  refine tasks_goTo s.successes hk hwal (fun _ _ => rfl) ?_ id
  have hworking := (work_own hk).trans hx
  rw [hy, Task.set_eq_self hworking]
  exact .single (.log (Sum.inl k) _ hworking)

/-- A new attempt takes its entry, which is not known yet. -/
theorem Logged.tasks_attempt {y : Phase} (h : Logged s) (hk : s.calls[k]? = some c)
    (ht : Moved s k { c with attempts := c.attempts + 1 } y t) (hx : c.phase.work = none)
    (hy : y.work = some .working) (id : EntryId) :
    Relation.ReflTransGen Task.Step (s.task id) (t.task id) := by
  have hnone : (s.task id).work (.inl k) = none := by rw [work_call hk, hx, ite_self]
  rw [task_moved hk ht]
  split_ifs with hid
  · -- the execute has begun no attempt of this number, so its entry is not known
    have hnew : ¬s.Knows id := by
      intro hknows
      rw [← hid] at hknows
      obtain ⟨c', hc', hn⟩ := h.begun k (c.attempts + 1) hknows
      obtain rfl := Option.some.inj (hk.symm.trans hc')
      exact Nat.not_succ_le_self _ hn
    have hunclaimed : s.Unclaimed id := by
      refine ⟨fun j d hj hdj => ?_, fun r hr hin => hnew (Or.inr (Or.inr ⟨r, hr, hin⟩))⟩
      obtain ⟨rfl, -⟩ := EntryId.attempt.inj (hdj.trans hid.symm)
      exact Option.some.inj (hk.symm.trans hj) ▸ hx
    have hzero : (s.task id).successes = 0 :=
      List.count_eq_zero.mpr fun hin => hnew (Or.inr (Or.inl hin))
    rw [hy]
    exact .single (.take _ hunclaimed.free (Or.inr hzero))
  · rw [Task.set_eq_self hnone]

theorem tasks_markRead {r : Value} (hk : s.calls[k]? = some c) (hx : c.phase = .markGet r none)
    (id : EntryId) : Relation.ReflTransGen Task.Step (s.task id)
      ((s.goTo k c (.markGet r (some (s.wal.get? (c.entryId k))))).task id) := by
  refine tasks_moved hk (moved_goTo _) ?_ id
  have hmarking : (s.task (c.entryId k)).work (.inl k) = some .marking := by
    rw [work_own hk, hx]
    rfl
  cases hget : s.wal.get? (c.entryId k) with
  | some entry =>
    have hy : Phase.work (.markGet r (some (some entry))) = some .marking := rfl
    rw [hy, Task.set_eq_self hmarking]
  | none =>
    have hpending : (s.task (c.entryId k)).pending = false := by simp [task, pendingIn, hget]
    have hmark := Task.Step.mark (Sum.inl k) hmarking
    rw [← hpending] at hmark
    exact .single hmark

theorem tasks_markWritten {r : Value} {entry : WalEntry} (hk : s.calls[k]? = some c)
    (hx : c.phase = .markSet r entry false) (hentry : entry.state = .completed) (id : EntryId) :
    Relation.ReflTransGen Task.Step (s.task id)
      ((({ s with wal := s.wal.set (c.entryId k) entry } : ToolSystem).goTo k c
        (.markSet r entry true)).task id) := by
  refine tasks_goTo s.successes hk (Or.inr ⟨entry, rfl⟩) (fun _ _ => rfl) ?_ id
  have hmarking : (s.task (c.entryId k)).work (.inl k) = some .marking := by
    rw [work_own hk, hx]
    rfl
  have hpending : pendingIn (s.wal.set (c.entryId k) entry) (c.entryId k) = false := by
    rw [pendingIn_set_self, hentry]
    rfl
  rw [hpending]
  exact .single (.mark (Sum.inl k) hmarking)

theorem Logged.tasks_returned {r : Value} {now : ℚ} (h : Logged s) (hk : s.calls[k]? = some c)
    (hx : c.phase = .running) (id : EntryId) : Relation.ReflTransGen Task.Step (s.task id)
      ((s.operationEnded k c (.returned r) now).task id) := by
  have hend : s.operationEnded k c (.returned r) now = ({ s with
      completions := s.completions ++ [(c.key, r)]
      successes := s.successes ++ [c.entryId k] } : ToolSystem).goTo k c (.markGet r none) :=
    if_pos h.redis
  have hsame : (s.operationEnded k c (.returned r) now).task id = (({ s with
      wal := s.wal
      successes := s.successes ++ [c.entryId k] } : ToolSystem).goTo k c
        (.markGet r none)).task id := by
    rw [hend]
    exact task_congr rfl rfl rfl rfl id
  rw [hsame]
  refine tasks_goTo _ hk (Or.inl rfl) (fun id' hid' => ?_) ?_ id
  · simp [Ne.symm hid']
  · have hworking : (s.task (c.entryId k)).work (.inl k) = some .working := by
      rw [work_own hk, hx]
      rfl
    have hcount : (s.successes ++ [c.entryId k]).count (c.entryId k) =
        s.successes.count (c.entryId k) + 1 := by simp
    rw [hcount]
    exact .single (.succeed (Sum.inl k) hworking)

/-- A step of an execute is a sequence of steps of the workers of each task. -/
theorem Logged.tasks_act {a : ToolAction} (h : Logged s) (hk : s.calls[k]? = some c)
    (hok : OneOwner s (.act k a)) (hst : Effect s k c t a) (id : EntryId) :
    Relation.ReflTransGen Task.Step (s.task id) (t.task id) := by
  have hserved : ∀ ok, a = .serve ok → c.phase.awaitsMark = true → ok = true := by
    rintro (_ | _) rfl hwaits
    · exact absurd hwaits (by simp [hok c hk])
    · rfl
  cases hst with
  | looked ok hx hs => exact hs ▸ tasks_stay hk (moved_goTo _) (by rw [hx]; rfl) id
  | hit v now hx hv hm => exact tasks_stay hk hm (by rw [hx]; rfl) id
  | missed v now hx hv hs => exact hs ▸ tasks_stay hk (moved_goTo _) (by rw [hx]; rfl) id
  | slot y a hx hy hm =>
    have hnone : c.phase.work = none := by rcases hx with hx | hx <;> rw [hx] <;> rfl
    exact tasks_stay hk hm (by rcases hy with rfl | rfl | rfl <;> exact hnone.symm) id
  | attempt a hx hm =>
    have hnone : c.phase.work = none := by rcases hx with hx | hx <;> rw [hx] <;> rfl
    rw [if_pos h.redis] at hm
    exact h.tasks_attempt hk hm hnone rfl id
  | refused now hx hm => exact tasks_stay hk hm (by rw [hx]; rfl) id
  | logged ok hx hs =>
    obtain ⟨wal, hwal, heq⟩ := logOperation_writes (s := s) (k := k) (c := c) ok .pending 0
    exact hs ▸ heq ▸ tasks_log hk hwal (by rw [hx]; rfl) rfl id
  | run now hx hs => exact hs ▸ tasks_stay hk (moved_goTo _) (by rw [hx]; rfl) id
  | returned r now hx hs => exact hs ▸ h.tasks_returned hk hx id
  | raised retryable now hx hs =>
    have hnext : t = s.goTo k c (.logFailed retryable false) := by
      rw [hs]
      exact if_pos h.redis
    exact hnext ▸ tasks_stay hk (moved_goTo _) (by rw [hx]; rfl) id
  | selfCancelled now hx hm => exact tasks_leave hk hm rfl (by rw [hx]; simp [Phase.work]) id
  | markRead r ok hx hs =>
    obtain rfl := hserved ok rfl (by rw [hx]; rfl)
    exact hs ▸ tasks_markRead hk hx id
  | marking r entry now hx hs => exact hs ▸ tasks_stay hk (moved_goTo _) (by rw [hx]; rfl) id
  | markWritten r entry ok hx hs =>
    obtain rfl := hserved ok rfl (by rw [hx]; rfl)
    exact hs ▸ tasks_markWritten hk hx (h.executes c (List.mem_of_getElem? hk) r entry false hx) id
  | marked r now hx hm =>
    have hmarked : c.phase.work = some .marked := by
      rcases hx with hx | ⟨entry, hx⟩ <;> rw [hx] <;> rfl
    exact tasks_leave hk hm (by split_ifs <;> rfl) (by simp [hmarked]) id
  | failureLogged retryable ok hx hs =>
    obtain ⟨wal, hwal, heq⟩ := logOperation_writes (s := s) (k := k) (c := c) ok .failed 1
    exact hs ▸ heq ▸ tasks_log hk hwal (by rw [hx]; rfl) rfl id
  | attemptOver retryable y now hx hy hm =>
    exact tasks_leave hk hm (by rcases hy with rfl | rfl <;> rfl) (by rw [hx]; simp [Phase.work]) id
  | stored r ok hx hs =>
    have hsame : t.task id = (s.goTo k c (.storing r true)).task id := by
      subst hs
      unfold storeResult
      split_ifs
      · split <;> exact task_congr rfl rfl rfl rfl id
      · rfl
    rw [hsame]
    exact tasks_stay hk (moved_goTo _) (by rw [hx]; rfl) id
  | succeeded r now hx hm => exact tasks_stay hk hm (by rw [hx]; rfl) id

/-! ### What a step of a recovery is to the tasks -/

theorem task_recovered (hj : s.recoveries[j]? = some r) (r' : Recovery) (id : EntryId) :
    (s.recoverAt j r').task id = (s.task id).set (.inr j) (r'.work id) :=
  task_recoverAt hj r' s.wal s.successes id

theorem tasks_recovery_stay (hj : s.recoveries[j]? = some r) {r' : Recovery}
    (hwork : r'.work id = r.work id) :
    Relation.ReflTransGen Task.Step (s.task id) ((s.recoverAt j r').task id) := by
  rw [task_recovered hj, Task.set_eq_self ((work_recovery hj).trans hwork.symm)]

/-- A recovery drops entries from its hand, and none that it still has to mark. -/
theorem Logged.tasks_dropped (h : Logged s) (hj : s.recoveries[j]? = some r) {r' : Recovery}
    (hr : ∀ p, r.marking = some p → p.2 = .marked) (hmarking : r'.marking = none)
    (hqueue : r'.queue.Sublist r.queue) (id : EntryId) :
    Relation.ReflTransGen Task.Step (s.task id) ((s.recoverAt j r').task id) := by
  by_cases hin : id ∈ r'.queue
  · -- the hand has the entry once, so it is not the one that was marked
    have honce := h.once r (List.mem_of_getElem? hj)
    have hnot : r.marking.map Prod.fst ≠ some id := by
      intro he
      unfold Recovery.hand at honce
      rw [he] at honce
      exact (List.nodup_cons.mp honce).1 (hqueue.subset hin)
    refine tasks_recovery_stay hj ?_
    unfold Recovery.work
    rw [if_neg hnot, if_pos (hqueue.subset hin), hmarking, if_neg (by simp), if_pos hin]
  · have hgone : r'.work id = none := by
      unfold Recovery.work
      rw [hmarking, if_neg (by simp), if_neg hin]
    have hnot : r.work id ≠ some .marking := by
      unfold Recovery.work
      split_ifs
      · cases hm : r.marking with
        | none => simp
        | some p => simp [hr p hm]
      · simp
      · simp
    rw [task_recovered hj, hgone]
    exact .single (.leave _ (work_recovery hj ▸ hnot))

theorem tasks_read {todo : List EntryId} {found : List (EntryId × WalEntry)} {id : EntryId}
    (hj : s.recoveries[j]? = some (.reading (id :: todo) found none)) {ok : Bool}
    (hfree : ok = true → pendingIn s.wal id = true → s.Unclaimed id) (id' : EntryId) :
    Relation.ReflTransGen Task.Step (s.task id') ((s.recoverAt j (.reading (id :: todo) found
      (some (if ok then some (s.wal.get? id) else none)))).task id') := by
  cases ok with
  | false => exact tasks_recovery_stay hj rfl
  | true =>
    rw [if_pos rfl]
    cases hget : s.wal.get? id with
    | none => exact tasks_recovery_stay hj rfl
    | some entry =>
      have hwork : ∀ reply, (Recovery.reading (id :: todo) found reply).work id' =
          if id' ∈ (Recovery.reading (id :: todo) found reply).queue then some .working else none :=
        fun reply => Recovery.work_of_ne (by simp [Recovery.marking])
      have hfound : (Recovery.reading (id :: todo) found none).work id' =
          if id' ∈ found.map Prod.fst then some .working else none := hwork none
      by_cases hpending : entry.state = .pending
      · have hnew := hwork (some (some (some entry)))
        rw [Recovery.queue_pending todo found hpending] at hnew
        by_cases hid : id' = id
        · subst hid
          have hpendingIn : pendingIn s.wal id' = true := by simp [pendingIn, hget, hpending]
          rw [task_recovered hj, hnew,
            if_pos (List.mem_append_right _ (List.mem_singleton_self id'))]
          exact .single (.take _ (hfree rfl hpendingIn).free (Or.inl hpendingIn))
        · refine tasks_recovery_stay hj ?_
          have hmem : id' ∈ found.map Prod.fst ++ [id] ↔ id' ∈ found.map Prod.fst := by simp [hid]
          rw [hnew, hfound]
          exact if_congr hmem rfl rfl
      · refine tasks_recovery_stay hj ?_
        rw [hwork, hfound, Recovery.queue_settled todo found hpending]

/-- A recovery that goes on to mark the entry it has run or marks, with the same queue. -/
theorem tasks_marks {w : Work} {id : EntryId} (r' : Recovery) (successes : List EntryId)
    (hj : s.recoveries[j]? = some r) (hr : ∀ id', id' ≠ id → r'.work id' = r.work id')
    (hr' : r'.work id = some w) (hwal : s.Writes id wal)
    (hsuccesses : ∀ id', id' ≠ id → successes.count id' = s.successes.count id')
    (hown : Relation.ReflTransGen Task.Step (s.task id) { (s.task id).set (.inr j) (some w) with
      pending := pendingIn wal id
      successes := successes.count id }) (id' : EntryId) :
    Relation.ReflTransGen Task.Step (s.task id')
      ((({ s with wal := wal, successes := successes } : ToolSystem).recoverAt j r').task id') := by
  rw [task_recoverAt hj]
  by_cases hid : id' = id
  · subst hid
    rw [hr']
    exact hown
  · rw [hwal.pendingIn_eq hid, hsuccesses id' hid,
      Task.set_eq_self ((work_recovery hj).trans (hr id' hid).symm)]
    exact .refl

theorem tasks_success {entry : WalEntry} {rest : List (EntryId × WalEntry)} {n : ℕ}
    {id : EntryId} (hj : s.recoveries[j]? = some (.executing id entry rest n)) (id' : EntryId) :
    Relation.ReflTransGen Task.Step (s.task id')
      ((({ s with successes := s.successes ++ [id] } : ToolSystem).recoverAt j
        (.markGet id rest n none)).task id') := by
  refine tasks_marks (w := .marking) (.markGet id rest n none) _ hj (fun id' hid => ?_)
    (Recovery.work_of_marking rfl) (Or.inl rfl) (fun id' hid => by simp [Ne.symm hid]) ?_ id'
  · have hmem : id' ∈ rest.map Prod.fst ↔ id' ∈ id :: rest.map Prod.fst := by simp [hid]
    rw [Recovery.work_of_ne (by simpa [Recovery.marking] using Ne.symm hid),
      Recovery.work_of_ne (by simp [Recovery.marking])]
    exact if_congr hmem rfl rfl
  · have hworking : (s.task id).work (.inr j) = some .working := by
      rw [work_recovery hj, Recovery.work_of_ne (by simp [Recovery.marking])]
      exact if_pos List.mem_cons_self
    have hcount : (s.successes ++ [id]).count id = s.successes.count id + 1 := by simp
    rw [hcount]
    exact .single (.succeed (Sum.inr j) hworking)

theorem tasks_recovery_markRead {rest : List (EntryId × WalEntry)} {n : ℕ} {id : EntryId}
    (hj : s.recoveries[j]? = some (.markGet id rest n none)) (id' : EntryId) :
    Relation.ReflTransGen Task.Step (s.task id')
      ((s.recoverAt j (.markGet id rest n (some (s.wal.get? id)))).task id') := by
  have hmarking : (s.task id).work (.inr j) = some .marking := by
    rw [work_recovery hj]
    exact Recovery.work_of_marking rfl
  refine tasks_marks (.markGet id rest n (some (s.wal.get? id))) s.successes hj
    (fun id' hid => Recovery.work_eq rfl rfl rfl hid) (Recovery.work_of_marking rfl) (Or.inl rfl)
    (fun _ _ => rfl) ?_ id'
  cases hget : s.wal.get? id with
  | some entry =>
    have hstay := Task.set_eq_self hmarking
    exact (congrArg (Relation.ReflTransGen Task.Step (s.task id)) hstay).mpr .refl
  | none =>
    have hpending : pendingIn s.wal id = false := by simp [pendingIn, hget]
    rw [hpending]
    exact .single (.mark (Sum.inr j) hmarking)

theorem tasks_recovery_markWritten {entry : WalEntry} {rest : List (EntryId × WalEntry)} {n : ℕ}
    {id : EntryId} (hj : s.recoveries[j]? = some (.markSet id entry rest n false))
    (hentry : entry.state = .completed) (id' : EntryId) :
    Relation.ReflTransGen Task.Step (s.task id')
      ((({ s with wal := s.wal.set id entry } : ToolSystem).recoverAt j
        (.markSet id entry rest n true)).task id') := by
  have hmarking : (s.task id).work (.inr j) = some .marking := by
    rw [work_recovery hj]
    exact Recovery.work_of_marking rfl
  refine tasks_marks (w := .marked) (.markSet id entry rest n true) s.successes hj
    (fun id' hid => Recovery.work_eq rfl rfl rfl hid) (Recovery.work_of_marking rfl)
    (Or.inr ⟨entry, rfl⟩) (fun _ _ => rfl) ?_ id'
  have hpending : pendingIn (s.wal.set id entry) id = false := by
    rw [pendingIn_set_self, hentry]
    rfl
  rw [hpending]
  exact .single (.mark (Sum.inr j) hmarking)

/-- A step of a recovery is a sequence of steps of the workers of each task. -/
theorem Logged.tasks_recoveryAct {a : RecoveryAction} (h : Logged s)
    (hj : s.recoveries[j]? = some r) (hok : OneOwner s (.recoveryAct j a))
    (hst : RecoveryEffect s j r t a) (id : EntryId) :
    Relation.ReflTransGen Task.Step (s.task id) (t.task id) := by
  cases hst with
  | moved r' a hr hmarking hqueue hs => exact hs ▸ h.tasks_dropped hj hr hmarking hqueue id
  | read id' todo found ok hr hs =>
    subst hr
    refine hs ▸ tasks_read hj (fun hserved hpending => ?_) id
    subst hserved
    exact hok id' todo found hj hpending
  | returned id' entry rest n v hr hs =>
    subst hr
    exact hs ▸ tasks_success hj id
  | markRead id' rest n ok hr hs =>
    subst hr
    cases ok with
    | true => exact hs ▸ tasks_recovery_markRead hj id
    | false => cases hok _ hj
  | marking id' entry rest n hr hs =>
    subst hr
    exact hs ▸ tasks_recovery_stay hj rfl
  | markWritten id' entry rest n ok hr hs =>
    subst hr
    cases ok with
    | true =>
      exact hs ▸ tasks_recovery_markWritten hj
        (h.recoveries id' entry rest n false (List.mem_of_getElem? hj)) id
    | false => cases hok _ hj

theorem task_beginExecute (key : Option String) (operation : String) (payload : Value)
    (id : EntryId) : (s.beginExecute key operation payload).task id = s.task id := by
  have hwork : (s.beginExecute key operation payload).callWork id = s.callWork id := by
    refine bind_getElem?_concat_none
      (f := fun j (c : Execute) => if c.entryId j = id then c.phase.work else none) ?_
    dsimp only
    split_ifs <;> rfl
  exact Task.ext rfl rfl (congrArg (Sum.elim · (s.recoveryWork id)) hwork)

theorem task_beginRecovery (h : s.hasRedis = true) (id : EntryId) :
    s.beginRecovery.task id = s.task id := by
  have hwork : s.beginRecovery.recoveryWork id = s.recoveryWork id := by
    refine bind_getElem?_concat_none (f := fun _ (r : Recovery) => r.work id) ?_
    rw [if_pos h]
    rfl
  exact Task.ext rfl rfl (congrArg (Sum.elim (s.callWork id)) hwork)

/-- A step of the adapter is a sequence of steps of the workers of each task. -/
theorem Logged.task_steps {e : ToolEvent} (h : Logged s) (hok : OneOwner s e)
    (hst : s.step e = some t) (id : EntryId) :
    Relation.ReflTransGen Task.Step (s.task id) (t.task id) := by
  cases e with
  | call key operation payload =>
    obtain rfl := Option.some.inj hst
    rw [task_beginExecute]
  | recover =>
    obtain rfl := Option.some.inj hst
    rw [task_beginRecovery h.redis]
  | expireResult key =>
    obtain rfl := Option.some.inj hst
    exact .refl
  | expireEntry id' =>
    obtain rfl := Option.some.inj hst
    by_cases hid : id = id'
    · have hpending : pendingIn (s.wal.erase id') id = false := by
        simp [pendingIn, Dict.get?_erase, hid]
      have hclear : ({ s with wal := s.wal.erase id' } : ToolSystem).task id =
          { s.task id with pending := false } := Task.ext hpending rfl rfl
      rw [hclear]
      exact .single .clear
    · have hpending : pendingIn (s.wal.erase id') id = pendingIn s.wal id := by
        simp [pendingIn, Dict.get?_erase, hid]
      have hsame : ({ s with wal := s.wal.erase id' } : ToolSystem).task id = s.task id :=
        Task.ext hpending rfl rfl
      rw [hsame]
  | act k action =>
    simp only [ToolSystem.step] at hst
    split at hst
    · exact h.tasks_act ‹_› hok (effect_of_act hst) id
    · cases hst
  | recoveryAct j action =>
    simp only [ToolSystem.step] at hst
    split at hst
    · exact h.tasks_recoveryAct ‹_› hok (effect_of_recoveryAct hst) id
    · cases hst

end ToolSystem

/-- In every run over `ok`, no entry of the log is executed to success twice. -/
def ExecutesOnce (cfg : AdapterConfig) (wal : Dict EntryId WalEntry)
    (ok : ToolSystem → ToolEvent → Prop) : Prop :=
  ∀ es s, (toolMachine cfg wal).Run ok es s → ∀ id, s.successes.count id ≤ 1

/-- Every entry is executed to success at most once, if it has one owner at a time. The log
begins with the entries that earlier processes have left. -/
theorem executesOnce (cfg : AdapterConfig) (wal : Dict EntryId WalEntry) (hcfg : cfg.redis = true)
    (hwal : ∀ id ∈ wal, ∃ n, id = .earlier n) : ExecutesOnce cfg wal OneOwner := by
  intro es s hrun id
  have hinit : ∀ id, ((toolMachine cfg wal).init.task id).Sound := fun id =>
    .of_free (by rintro (k | j) <;> rfl) rfl
  have hsound := (hrun.invariant (I := fun s => s.Logged ∧ ∀ id, (s.task id).Sound)
    ⟨.init hcfg hwal, hinit⟩ fun s e t ⟨hlogged, htasks⟩ hok hst =>
      ⟨hlogged.step hok hst, fun id => (htasks id).steps (hlogged.task_steps hok hst id)⟩).2
  exact (hsound id).successes_le_one

/-- A log with one entry that an earlier process has left pending. -/
theorem executesOnce_one :
    ExecutesOnce {} (Dict.empty.set (.earlier 0) ⟨"op", .null, .pending, 0⟩) OneOwner :=
  executesOnce {} _ rfl fun id hid => ⟨0, by simpa using hid⟩

/-- A recovery that starts while an operation runs executes its entry again. -/
theorem not_executesOnce : ¬∀ cfg wal, cfg.redis = true → (∀ id ∈ wal, ∃ n, id = .earlier n) →
    ExecutesOnce cfg wal fun _ _ => True := by
  intro h
  obtain ⟨s, hrun, hp⟩ := Machine.exists_run (toolMachine {} .empty) (fun _ _ => True)
    [.call none "op" .null, .act 0 .acquire, .act 0 (.start 0), .act 0 (.serve true),
      .act 0 (.proceed 0), .recover, .recoveryAct 0 (.list [.attempt 0 1]),
      .recoveryAct 0 .proceed, .recoveryAct 0 (.serve true), .recoveryAct 0 .proceed,
      .recoveryAct 0 (.ended (.returned .null)), .act 0 (.ended (.returned .null) 0)]
    (fun s : ToolSystem => decide (s.successes.count (.attempt 0 1) = 2)) (by decide)
  have hcount := h {} .empty rfl (by simp) _ s hrun (.attempt 0 1)
  rw [of_decide_eq_true hp] at hcount
  omega

end ToolResilience

end MultiAgent
