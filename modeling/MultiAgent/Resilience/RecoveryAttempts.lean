import MultiAgent.Resilience.ToolRecovery

/-!
# How often a recovery runs an entry

`recover_pending_operations` skips an entry that was retried `max_attempts` times, but nothing
that it does to an entry whose operation fails reaches the log, so the next recovery finds the
entry as the last one did.

One recovery runs an entry at most once : what it may still run, `Recovery.upcoming`, is a list
without repetitions from which every run takes the first entry (`recoveryAct_cases`). So an
entry is run at most as often as recoveries were called (`count_executed_le`), and it can be run as
often (`exists_run_executed`). The bound of the configuration holds for every run with at most `n`
recoveries exactly if `n` is within it, or no entry is run at all (`recoveryBounded_iff`).
-/

namespace MultiAgent

namespace ToolResilience

namespace Recovery

/-- The entries that the recovery may still run, once their keys are listed. -/
def upcoming : Recovery → List EntryId
  | .listing (some keys) => keys
  | .reading todo found _ => found.map Prod.fst ++ todo
  | .executing _ _ rest _ => rest.map Prod.fst
  | .markGet _ rest _ _ => rest.map Prod.fst
  | .markSet _ _ rest _ _ => rest.map Prod.fst
  | _ => []

/-- The entry that the recovery runs. -/
def running : Recovery → Option EntryId
  | .executing id _ _ _ => some id
  | _ => none

/-- Of what a recovery could run it may go on to run some, and what it runs it will not run
again. -/
structure Advances (upcoming : List EntryId) (maxAttempts : ℤ) (r : Recovery) : Prop where
  listed : r ≠ .listing none
  sublist : (r.running.toList ++ r.upcoming).Sublist upcoming
  positive : r.running ≠ none → 0 < maxAttempts

theorem Advances.of_sublist {l l' : List EntryId} {maxAttempts : ℤ} {r : Recovery}
    (h : Advances l maxAttempts r) (hl : l.Sublist l') : Advances l' maxAttempts r :=
  ⟨h.listed, h.sublist.trans hl, h.positive⟩

/-- A recovery that runs nothing. -/
theorem advances_of_idle {l : List EntryId} {maxAttempts : ℤ} {r : Recovery}
    (hlisted : r ≠ .listing none) (hidle : r.running = none) (hsublist : r.upcoming.Sublist l) :
    Advances l maxAttempts r where
  listed := hlisted
  sublist := by
    rw [hidle]
    exact hsublist
  positive h := absurd hidle h

end Recovery

namespace ToolSystem

open Recovery (Advances advances_of_idle)

variable {s t : ToolSystem} {j : ℕ} {r : Recovery}

/-- Recovery `j` alone goes on, with what it could run. -/
def GoesOn (s : ToolSystem) (j : ℕ) (upcoming : List EntryId) (t : ToolSystem) : Prop :=
  ∃ r', t.recoveries = s.recoveries.set j r' ∧ t.adapter = s.adapter ∧
    Advances upcoming s.adapter.config.maxAttempts r'

theorem GoesOn.of_sublist {l l' : List EntryId} (h : s.GoesOn j l t) (hl : l.Sublist l') :
    s.GoesOn j l' t := by
  obtain ⟨r', hrecoveries, hadapter, hadvances⟩ := h
  exact ⟨r', hrecoveries, hadapter, hadvances.of_sublist hl⟩

/-- A recovery that runs nothing yet. -/
theorem goesOn_of_idle {l : List EntryId} {r' : Recovery}
    (hrecoveries : t.recoveries = s.recoveries.set j r') (hadapter : t.adapter = s.adapter)
    (hlisted : r' ≠ .listing none) (hidle : r'.running = none) (hsublist : r'.upcoming.Sublist l) :
    s.GoesOn j l t :=
  ⟨r', hrecoveries, hadapter, advances_of_idle hlisted hidle hsublist⟩

theorem nextPending_goesOn (s : ToolSystem) (j : ℕ) (pending : List (EntryId × WalEntry))
    (n : ℕ) : s.GoesOn j (pending.map Prod.fst) (s.nextPending j pending n) := by
  have hsublist := ((List.dropWhile_suffix (l := pending)
    fun p => decide (s.adapter.config.maxAttempts ≤ p.2.retryCount)).sublist).map Prod.fst
  have hhead := List.head?_dropWhile_not
    (fun p : EntryId × WalEntry => decide (s.adapter.config.maxAttempts ≤ p.2.retryCount)) pending
  unfold nextPending
  split
  · exact goesOn_of_idle rfl rfl (by simp) rfl (List.nil_sublist _)
  · rename_i p rest hrest
    rw [hrest] at hsublist hhead
    refine ⟨.executing p.1 p.2 rest n, rfl, rfl, by simp, hsublist, fun _ => ?_⟩
    simp only [List.head?_cons, decide_eq_false_iff_not, Int.not_le] at hhead
    omega

theorem nextRead_goesOn (s : ToolSystem) (j : ℕ) (todo : List EntryId)
    (found : List (EntryId × WalEntry)) :
    s.GoesOn j (found.map Prod.fst ++ todo) (s.nextRead j todo found) := by
  unfold nextRead
  split_ifs
  · exact (nextPending_goesOn s j found 0).of_sublist (List.sublist_append_left _ _)
  · exact goesOn_of_idle rfl rfl (by simp) rfl (List.Sublist.refl _)

theorem entryRead_goesOn (s : ToolSystem) (j : ℕ) (id : EntryId) (todo : List EntryId)
    (found : List (EntryId × WalEntry)) (reply : EntryReply) :
    s.GoesOn j (found.map Prod.fst ++ id :: todo) (s.entryRead j id todo found reply) := by
  have hskipped : s.GoesOn j (found.map Prod.fst ++ id :: todo) (s.nextRead j todo found) :=
    (nextRead_goesOn s j todo found).of_sublist ((List.sublist_cons_self id todo).append_left _)
  rcases reply with _ | _ | entry
  · exact (nextPending_goesOn s j [] 0).of_sublist (List.nil_sublist _)
  · exact hskipped
  · by_cases hpending : entry.state = .pending
    · rw [entryRead, if_pos hpending]
      refine (nextRead_goesOn s j todo (found ++ [(id, entry)])).of_sublist ?_
      simp
    · rw [entryRead, if_neg hpending]
      exact hskipped

theorem recoveryEnded_goesOn (s : ToolSystem) (j : ℕ) (id : EntryId)
    (rest : List (EntryId × WalEntry)) (n : ℕ) (how : OperationEnd) :
    s.GoesOn j (rest.map Prod.fst) (s.recoveryEnded j id rest n how) := by
  cases how with
  | returned v => exact goesOn_of_idle rfl rfl (by simp) rfl (List.Sublist.refl _)
  | raised retryable => exact nextPending_goesOn s j rest n
  | cancelled => exact goesOn_of_idle rfl rfl (by simp) rfl (List.nil_sublist _)

/-- A step of a recovery lists the keys of the log, each once, or takes from what it could run. -/
theorem recoveryAct_cases {a : RecoveryAction} (h : s.recoveryAct j r a = some t) :
    (∃ r', t.recoveries = s.recoveries.set j r' ∧ t.adapter = s.adapter ∧ r = .listing none ∧
      r' ≠ .listing none ∧ r'.running = none ∧ r'.upcoming.Nodup) ∨ s.GoesOn j r.upcoming t := by
  unfold recoveryAct at h
  split at h
  · rename_i keys
    split_ifs at h with hperm
    obtain rfl := Option.some.inj h
    have hnodup : keys.Nodup := (List.isPerm_iff.mp hperm).nodup_iff.mpr s.wal.nodup
    exact Or.inl ⟨_, rfl, rfl, rfl, by simp, rfl, hnodup⟩
  · obtain rfl := Option.some.inj h
    exact Or.inl ⟨_, rfl, rfl, rfl, by simp, rfl, List.nodup_nil⟩
  · rename_i keys
    obtain rfl := Option.some.inj h
    exact Or.inr (nextRead_goesOn s j keys [])
  · obtain rfl := Option.some.inj h
    exact Or.inr (goesOn_of_idle rfl rfl (by simp) rfl (List.Sublist.refl _))
  · rename_i id todo found reply
    obtain rfl := Option.some.inj h
    exact Or.inr (entryRead_goesOn s j id todo found reply)
  · rename_i id entry rest n how
    obtain rfl := Option.some.inj h
    exact Or.inr (recoveryEnded_goesOn s j id rest n how)
  · obtain rfl := Option.some.inj h
    exact Or.inr (goesOn_of_idle rfl rfl (by simp) rfl (List.Sublist.refl _))
  · obtain rfl := Option.some.inj h
    exact Or.inr (goesOn_of_idle rfl rfl (by simp) rfl (List.Sublist.refl _))
  · rename_i id rest n
    obtain rfl := Option.some.inj h
    exact Or.inr (nextPending_goesOn s j rest (n + 1))
  · rename_i id entry rest n ok
    obtain rfl := Option.some.inj h
    refine Or.inr ⟨.markSet id entry rest n true, ?_, ?_,
      advances_of_idle (by simp) rfl (List.Sublist.refl _)⟩
    · cases ok <;> rfl
    · cases ok <;> rfl
  · rename_i id entry rest n
    obtain rfl := Option.some.inj h
    exact Or.inr (nextPending_goesOn s j rest (n + 1))
  · cases h

/-- An execute leaves the recoveries and the configuration alone. -/
theorem Moved.frame {k : ℕ} {c : Execute} {y : Phase} (h : Moved s k c y t) :
    t.recoveries = s.recoveries ∧ t.adapter.config = s.adapter.config := by
  obtain ⟨u, hu, rfl⟩ := h
  exact ⟨hu.recoveries, hu.config⟩

theorem logOperation_frame (s : ToolSystem) (k : ℕ) (c : Execute) (state : WalState) (n : ℕ) :
    (s.logOperation k c state n).recoveries = s.recoveries ∧
      (s.logOperation k c state n).adapter = s.adapter := by
  obtain ⟨wal, heq⟩ := logOperation_eq (s := s) (k := k) (c := c) state n
  rw [heq]
  exact ⟨rfl, rfl⟩

theorem Effect.frame {k : ℕ} {c : Execute} {a : ToolAction} (h : Effect s k c t a) :
    t.recoveries = s.recoveries ∧ t.adapter.config = s.adapter.config := by
  cases h with
  | looked ok _ hs => subst hs; exact ⟨rfl, rfl⟩
  | hit v now _ _ hm => exact hm.frame
  | missed v now _ _ hs => subst hs; exact ⟨rfl, rfl⟩
  | slot y a _ _ hm => exact hm.frame
  | attempt a _ hm => exact hm.frame
  | refused now _ hm => exact hm.frame
  | logged ok _ hs =>
    obtain ⟨hrecoveries, hadapter⟩ := s.logOperation_frame k c .pending 0
    subst hs
    cases ok with
    | true => exact ⟨hrecoveries, congrArg _ hadapter⟩
    | false => exact ⟨rfl, rfl⟩
  | run now _ hs => subst hs; exact ⟨rfl, rfl⟩
  | returned r now _ hs =>
    subst hs
    unfold operationEnded
    dsimp only
    split_ifs
    · exact ⟨rfl, rfl⟩
    · exact (moved_attemptsReturned r).frame
  | raised retryable now _ hs =>
    subst hs
    unfold operationEnded
    dsimp only
    split_ifs
    · exact ⟨rfl, rfl⟩
    · obtain ⟨y, -, hm⟩ := moved_attemptFailed (s := s) (k := k) (c := c) retryable now
      exact hm.frame
  | selfCancelled now _ hm => exact hm.frame
  | markRead r ok _ hs => subst hs; exact ⟨rfl, rfl⟩
  | marking r entry now _ hs => subst hs; exact ⟨rfl, rfl⟩
  | markWritten r entry ok _ hs =>
    subst hs
    cases ok with
    | true => exact ⟨rfl, rfl⟩
    | false => exact ⟨rfl, rfl⟩
  | marked r now _ hm => exact hm.frame
  | failureLogged retryable ok _ hs =>
    obtain ⟨hrecoveries, hadapter⟩ := s.logOperation_frame k c .failed 1
    subst hs
    cases ok with
    | true => exact ⟨hrecoveries, congrArg _ hadapter⟩
    | false => exact ⟨rfl, rfl⟩
  | attemptOver retryable y now _ _ hm => exact hm.frame
  | stored r ok _ hs =>
    have hstore : (s.storeResult c r).recoveries = s.recoveries ∧
        (s.storeResult c r).adapter = s.adapter := by
      unfold storeResult
      split
      · exact ⟨rfl, rfl⟩
      · exact ⟨rfl, rfl⟩
    subst hs
    cases ok with
    | true => exact ⟨hstore.1, congrArg _ hstore.2⟩
    | false => exact ⟨rfl, rfl⟩
  | succeeded r now _ hm => exact hm.frame

end ToolSystem

/-! ## Runs and what the recoveries ran -/

/-- The adapter, and what its recoveries have run, with the number of the recovery. -/
structure Recovering where
  system : ToolSystem
  executed : List (ℕ × EntryId) := []

/-- What a recovery begins to run with a step to `t`. -/
def beginsToRun (t : ToolSystem) : ToolEvent → List (ℕ × EntryId)
  | .recoveryAct j _ => ((t.recoveries[j]?).bind Recovery.running).toList.map fun id => (j, id)
  | _ => []

/-- One step, which counts what a recovery begins to run. -/
def Recovering.step (s : Recovering) (e : ToolEvent) : Option Recovering :=
  (s.system.step e).map fun t => ⟨t, s.executed ++ beginsToRun t e⟩

/-- A new adapter over a log that earlier processes have left. -/
def recoveringMachine (cfg : AdapterConfig) (wal : Dict EntryId WalEntry) :
    Machine Recovering ToolEvent where
  init := { system := (toolMachine cfg wal).init }
  step := Recovering.step

/-- No operation of a recovery returns. -/
def KeepsFailing (_ : Recovering) : ToolEvent → Prop
  | .recoveryAct _ (.ended how) => ∀ v, how ≠ .returned v
  | _ => True

/-- The event is a call of `recover_pending_operations`. -/
def isRecover : ToolEvent → Bool
  | .recover => true
  | _ => false

/-- In every run with at most `n` recoveries, whose operations keep failing, each entry of the log
is run at most `max_attempts` times by recoveries. -/
def RecoveryBounded (cfg : AdapterConfig) (n : ℕ) : Prop :=
  ∀ wal es s, (recoveringMachine cfg wal).Run KeepsFailing es s → es.countP isRecover ≤ n →
    ∀ id, (s.executed.map Prod.snd).count id ≤ cfg.maxAttempts.toNat

/-! ## At most once in each recovery -/

/-- No recovery may run an entry again that it has run, and none runs anything if the configuration
does not let it. -/
structure OncePerRecovery (cfg : AdapterConfig) (s : Recovering) : Prop where
  config : s.system.adapter.config = cfg
  nodup : s.executed.Nodup
  spent : ∀ j id, (j, id) ∈ s.executed →
    ∃ r, s.system.recoveries[j]? = some r ∧ r ≠ .listing none ∧ id ∉ r.upcoming
  upcoming : ∀ r ∈ s.system.recoveries, r.upcoming.Nodup
  idle : cfg.redis = false → ∀ r ∈ s.system.recoveries, r ≠ .listing none ∧ r.upcoming = []
  enabled : s.executed ≠ [] → 0 < cfg.maxAttempts ∧ cfg.redis = true

namespace OncePerRecovery

variable {cfg : AdapterConfig} {s : Recovering} {t : ToolSystem}

/-- The recoveries are as before. -/
theorem congr (h : OncePerRecovery cfg s) (hrecoveries : t.recoveries = s.system.recoveries)
    (hconfig : t.adapter.config = s.system.adapter.config) :
    OncePerRecovery cfg ⟨t, s.executed ++ []⟩ where
  config := hconfig.trans h.config
  nodup := by simpa using h.nodup
  spent j id hmem := by
    rw [List.append_nil] at hmem
    rw [hrecoveries]
    exact h.spent j id hmem
  upcoming := by
    rw [hrecoveries]
    exact h.upcoming
  idle := by
    rw [hrecoveries]
    exact h.idle
  enabled := by
    rw [List.append_nil]
    exact h.enabled

theorem recover (h : OncePerRecovery cfg s) :
    OncePerRecovery cfg ⟨s.system.beginRecovery, s.executed ++ []⟩ where
  config := h.config
  nodup := by simpa using h.nodup
  spent j id hmem := by
    rw [List.append_nil] at hmem
    obtain ⟨r, hj, hr⟩ := h.spent j id hmem
    exact ⟨r, (List.getElem?_append_left (List.getElem?_eq_some_iff.mp hj).1).trans hj, hr⟩
  upcoming r hr := by
    rcases List.mem_append.mp hr with hold | hnew
    · exact h.upcoming r hold
    · rw [List.mem_singleton.mp hnew]
      split_ifs <;> exact List.nodup_nil
  idle hredis r hr := by
    rcases List.mem_append.mp hr with hold | hnew
    · exact h.idle hredis r hold
    · have hnone : s.system.hasRedis = false := by
        unfold ToolSystem.hasRedis
        rw [h.config, hredis]
      rw [List.mem_singleton.mp hnew, hnone]
      exact ⟨by simp, rfl⟩
  enabled := by
    rw [List.append_nil]
    exact h.enabled

/-- A recovery goes on, and runs nothing that it or the configuration does not let it. -/
theorem recoverAt (h : OncePerRecovery cfg s) {j : ℕ} {r r' : Recovery}
    (hj : s.system.recoveries[j]? = some r)
    (hrecoveries : t.recoveries = s.system.recoveries.set j r')
    (hconfig : t.adapter = s.system.adapter) (hlisted : r' ≠ .listing none)
    (hnodup : (r'.running.toList ++ r'.upcoming).Nodup)
    (hspent : ∀ id, (j, id) ∈ s.executed → id ∉ r'.running.toList ++ r'.upcoming)
    (hidle : cfg.redis = false → r'.running.toList ++ r'.upcoming = [])
    (hpositive : r'.running ≠ none → 0 < cfg.maxAttempts) :
    OncePerRecovery cfg ⟨t, s.executed ++ r'.running.toList.map fun id => (j, id)⟩ where
  config := (congrArg _ hconfig).trans h.config
  nodup := by
    refine List.nodup_append'.mpr ⟨h.nodup, ?_, ?_⟩
    · exact (hnodup.of_append_left).map fun a b hab => (Prod.mk.inj hab).2
    · intro p hold hnew
      obtain ⟨id, hid, rfl⟩ := List.mem_map.mp hnew
      exact hspent id hold (List.mem_append_left _ hid)
  spent i id hmem := by
    obtain ⟨hlt, -⟩ := List.getElem?_eq_some_iff.mp hj
    have hself : t.recoveries[j]? = some r' := by
      rw [hrecoveries]
      exact List.getElem?_set_self hlt
    rcases List.mem_append.mp hmem with hold | hnew
    · by_cases hij : i = j
      · subst hij
        exact ⟨r', hself, hlisted, fun hup => hspent id hold (List.mem_append_right _ hup)⟩
      · obtain ⟨q, hi, hq⟩ := h.spent i id hold
        refine ⟨q, ?_, hq⟩
        rw [hrecoveries, List.getElem?_set_ne (Ne.symm hij)]
        exact hi
    · obtain ⟨id', hid, heq⟩ := List.mem_map.mp hnew
      obtain ⟨rfl, rfl⟩ := Prod.mk.inj heq
      exact ⟨r', hself, hlisted, fun hup => List.disjoint_of_nodup_append hnodup hid hup⟩
  upcoming q hq := by
    rw [hrecoveries] at hq
    rcases List.mem_or_eq_of_mem_set hq with hold | rfl
    · exact h.upcoming q hold
    · exact hnodup.of_append_right
  idle hredis q hq := by
    rw [hrecoveries] at hq
    rcases List.mem_or_eq_of_mem_set hq with hold | rfl
    · exact h.idle hredis q hold
    · exact ⟨hlisted, (List.append_eq_nil_iff.mp (hidle hredis)).2⟩
  enabled hne := by
    by_cases hrunning : r'.running = none
    · rw [hrunning] at hne
      exact h.enabled (by simpa using hne)
    · refine ⟨hpositive hrunning, ?_⟩
      by_contra hredis
      have hnil := (List.append_eq_nil_iff.mp (hidle (by simpa using hredis))).1
      exact hrunning (by simpa using hnil)

theorem recoveryAct (h : OncePerRecovery cfg s) {j : ℕ} {r : Recovery} {a : RecoveryAction}
    (hj : s.system.recoveries[j]? = some r) (hst : s.system.recoveryAct j r a = some t) :
    OncePerRecovery cfg ⟨t, s.executed ++ beginsToRun t (.recoveryAct j a)⟩ := by
  obtain ⟨hlt, -⟩ := List.getElem?_eq_some_iff.mp hj
  have hbegins : ∀ r' : Recovery, t.recoveries = s.system.recoveries.set j r' →
      beginsToRun t (.recoveryAct j a) = r'.running.toList.map fun id => (j, id) := by
    intro r' hrecoveries
    unfold beginsToRun
    dsimp only
    rw [hrecoveries, List.getElem?_set_self hlt]
    rfl
  have hspent : ∀ id, (j, id) ∈ s.executed → r ≠ .listing none ∧ id ∉ r.upcoming := by
    intro id hmem
    obtain ⟨q, hq, hspent⟩ := h.spent j id hmem
    obtain rfl := Option.some.inj (hj.symm.trans hq)
    exact hspent
  have hmem := List.mem_of_getElem? hj
  rcases ToolSystem.recoveryAct_cases hst with
    ⟨r', hrecoveries, hadapter, rfl, hlisted, hidle, hnodup⟩ |
    ⟨r', hrecoveries, hadapter, hadvances⟩
  · rw [hbegins r' hrecoveries]
    refine h.recoverAt hj hrecoveries hadapter hlisted ?_ (fun id hid => ?_) (fun hredis => ?_)
      fun hne => absurd hidle hne
    · rw [hidle]
      exact hnodup
    · exact absurd rfl (hspent id hid).1
    · exact absurd rfl (h.idle hredis _ hmem).1
  · rw [hbegins r' hrecoveries]
    refine h.recoverAt hj hrecoveries hadapter hadvances.listed ?_ (fun id hid => ?_)
      (fun hredis => ?_) ?_
    · exact hadvances.sublist.nodup (h.upcoming r hmem)
    · exact fun hup => (hspent id hid).2 (hadvances.sublist.subset hup)
    · have hsublist := hadvances.sublist
      rw [(h.idle hredis r hmem).2] at hsublist
      exact List.sublist_nil.mp hsublist
    · have hpositive := hadvances.positive
      rwa [h.config] at hpositive

theorem step {e : ToolEvent} {u : Recovering} (h : OncePerRecovery cfg s)
    (hst : s.step e = some u) : OncePerRecovery cfg u := by
  obtain ⟨t, ht, rfl⟩ := Option.map_eq_some_iff.mp hst
  cases e with
  | call key operation payload =>
    obtain rfl := Option.some.inj ht
    exact h.congr rfl rfl
  | act k action =>
    simp only [ToolSystem.step] at ht
    split at ht
    · obtain ⟨hrecoveries, hconfig⟩ := (ToolSystem.effect_of_act ht).frame
      exact h.congr hrecoveries hconfig
    · cases ht
  | recover =>
    obtain rfl := Option.some.inj ht
    exact h.recover
  | recoveryAct j action =>
    simp only [ToolSystem.step] at ht
    split at ht
    · exact h.recoveryAct ‹_› ht
    · cases ht
  | expireResult key =>
    obtain rfl := Option.some.inj ht
    exact h.congr rfl rfl
  | expireEntry id =>
    obtain rfl := Option.some.inj ht
    exact h.congr rfl rfl

end OncePerRecovery

section Bound

variable {cfg : AdapterConfig} {wal : Dict EntryId WalEntry}
  {ok : Recovering → ToolEvent → Prop} {es : List ToolEvent} {s : Recovering}

theorem once_of_run (h : (recoveringMachine cfg wal).Run ok es s) : OncePerRecovery cfg s := by
  refine h.invariant ⟨rfl, List.nodup_nil, ?_, ?_, ?_, fun hne => absurd rfl hne⟩
    fun _ _ _ hs _ hst => hs.step hst
  · exact fun j id hmem => absurd hmem List.not_mem_nil
  · exact fun r hr => absurd hr List.not_mem_nil
  · exact fun _ r hr => absurd hr List.not_mem_nil

theorem length_step {e : ToolEvent} {u : Recovering} (hst : s.step e = some u) :
    u.system.recoveries.length = s.system.recoveries.length + [e].countP isRecover := by
  obtain ⟨t, ht, rfl⟩ := Option.map_eq_some_iff.mp hst
  cases e with
  | call key operation payload =>
    obtain rfl := Option.some.inj ht
    rfl
  | act k action =>
    simp only [ToolSystem.step] at ht
    split at ht
    · exact congrArg List.length (ToolSystem.effect_of_act ht).frame.1
    · cases ht
  | recover =>
    obtain rfl := Option.some.inj ht
    exact List.length_append
  | recoveryAct j action =>
    simp only [ToolSystem.step] at ht
    split at ht
    · obtain ⟨r', hrecoveries, -⟩ | ⟨r', hrecoveries, -⟩ := ToolSystem.recoveryAct_cases ht
      · exact (congrArg List.length hrecoveries).trans List.length_set
      · exact (congrArg List.length hrecoveries).trans List.length_set
    · cases ht
  | expireResult key =>
    obtain rfl := Option.some.inj ht
    rfl
  | expireEntry id =>
    obtain rfl := Option.some.inj ht
    rfl

/-- The recoveries of a run are the calls of `recover_pending_operations`. -/
theorem length_recoveries (h : (recoveringMachine cfg wal).Run ok es s) :
    s.system.recoveries.length = es.countP isRecover := by
  induction h with
  | nil => rfl
  | snoc _ _ hst ih => rw [List.countP_append, ← ih, length_step hst]

/-- A list of pairs without repetitions has a second component at most once for each first. -/
theorem count_snd_le {l : List (ℕ × EntryId)} (hnodup : l.Nodup) {n : ℕ}
    (hlt : ∀ p ∈ l, p.1 < n) (id : EntryId) : (l.map Prod.snd).count id ≤ n := by
  have hcount : (l.map Prod.snd).count id =
      ((l.filter fun p => p.2 == id).map Prod.fst).length := by
    rw [List.count, List.countP_map, List.countP_eq_length_filter, List.length_map]
    rfl
  have hfirsts : ((l.filter fun p => p.2 == id).map Prod.fst).Nodup := by
    refine (hnodup.filter _).map_on fun p hp q hq hpq => ?_
    have hp2 := eq_of_beq (List.mem_filter.mp hp).2
    have hq2 := eq_of_beq (List.mem_filter.mp hq).2
    exact Prod.ext hpq (hp2.trans hq2.symm)
  have hsubset : ∀ i ∈ (l.filter fun p => p.2 == id).map Prod.fst, i ∈ List.range n := by
    intro i hi
    obtain ⟨p, hp, rfl⟩ := List.mem_map.mp hi
    exact List.mem_range.mpr (hlt p (List.mem_filter.mp hp).1)
  rw [hcount]
  simpa using (List.subperm_of_subset hfirsts hsubset).length_le

/-- An entry is run at most once in every recovery. -/
theorem count_executed_le (h : (recoveringMachine cfg wal).Run ok es s) (id : EntryId) :
    (s.executed.map Prod.snd).count id ≤ es.countP isRecover := by
  have honce := once_of_run h
  rw [← length_recoveries h]
  refine count_snd_le honce.nodup (fun p hp => ?_) id
  obtain ⟨r, hr, -⟩ := honce.spent p.1 p.2 hp
  exact (List.getElem?_eq_some_iff.mp hr).1

end Bound

/-! ## Once in each recovery -/

namespace ToolSystem

/-- The loop runs an entry with an attempt left. -/
theorem nextPending_cons (s : ToolSystem) (j : ℕ) (p : EntryId × WalEntry)
    (rest : List (EntryId × WalEntry)) (n : ℕ)
    (h : (p.2.retryCount : ℤ) < s.adapter.config.maxAttempts) :
    s.nextPending j (p :: rest) n = s.recoverAt j (.executing p.1 p.2 rest n) := by
  unfold nextPending
  rw [List.dropWhile_cons_of_neg (by simpa using h)]

/-- One more recovery, which is at `x`. -/
def withRecovery (s : ToolSystem) (x : Recovery) : ToolSystem :=
  { s with recoveries := s.recoveries ++ [x] }

variable (s : ToolSystem) (x y : Recovery)

theorem step_withRecovery (a : RecoveryAction) :
    (s.withRecovery x).step (.recoveryAct s.recoveries.length a) =
      (s.withRecovery x).recoveryAct s.recoveries.length x a := by
  have hget : (s.withRecovery x).recoveries[s.recoveries.length]? = some x :=
    List.getElem?_concat_length
  simp only [step, hget]

theorem recoverAt_withRecovery :
    (s.withRecovery x).recoverAt s.recoveries.length y = s.withRecovery y := by
  unfold recoverAt withRecovery
  simp

end ToolSystem

section Rounds

variable {cfg : AdapterConfig} {wal : Dict EntryId WalEntry} {es : List ToolEvent}
  {s : ToolSystem} {x y : Recovery} {l : List (ℕ × EntryId)}

/-- A step of the last recovery. -/
theorem run_recoveryAct {a : RecoveryAction}
    (h : (recoveringMachine cfg wal).Run KeepsFailing es ⟨s.withRecovery x, l⟩)
    (hok : ∀ how, a = .ended how → ∀ v, how ≠ .returned v)
    (hst : (s.withRecovery x).recoveryAct s.recoveries.length x a = some (s.withRecovery y)) :
    (recoveringMachine cfg wal).Run KeepsFailing (es ++ [.recoveryAct s.recoveries.length a])
      ⟨s.withRecovery y, l ++ y.running.toList.map fun id => (s.recoveries.length, id)⟩ := by
  have hbegins : beginsToRun (s.withRecovery y) (.recoveryAct s.recoveries.length a) =
      y.running.toList.map fun id => (s.recoveries.length, id) := by
    have hget : (s.withRecovery y).recoveries[s.recoveries.length]? = some y :=
      List.getElem?_concat_length
    unfold beginsToRun
    dsimp only
    rw [hget]
    rfl
  refine h.snoc ?_ ?_
  · cases a <;> first | trivial | exact hok _ rfl
  · rw [← hbegins]
    unfold recoveringMachine Recovering.step
    dsimp only
    rw [ToolSystem.step_withRecovery, hst]
    rfl

/-- An entry that an earlier process has left pending. -/
def pendingEntry : WalEntry :=
  ⟨"op", .null, .pending, 0⟩

/-- A log with this entry. -/
def pendingLog : Dict EntryId WalEntry :=
  Dict.empty.set (.earlier 0) pendingEntry

/-- The events of a recovery that runs the entry, which fails. -/
def failingRecovery (j : ℕ) : List ToolEvent :=
  [.recover, .recoveryAct j (.list [.earlier 0]), .recoveryAct j .proceed,
    .recoveryAct j (.serve true), .recoveryAct j .proceed,
    .recoveryAct j (.ended (.raised false))]

/-- One more recovery runs the entry of the log once more, and leaves it pending. -/
theorem run_failingRecovery (hredis : cfg.redis = true) (hmax : 0 < cfg.maxAttempts)
    (h : (recoveringMachine cfg pendingLog).Run KeepsFailing es ⟨s, l⟩)
    (hwal : s.wal = pendingLog) :
    (recoveringMachine cfg pendingLog).Run KeepsFailing
      (es ++ failingRecovery s.recoveries.length)
        ⟨s.withRecovery (.done 0), l ++ [(s.recoveries.length, .earlier 0)]⟩ := by
  have hconfig : s.adapter.config = cfg := (once_of_run h).config
  have hkeys : ([.earlier 0] : List EntryId).isPerm s.wal.keys = true := by
    rw [hwal]
    decide
  have hget : s.wal.get? (.earlier 0) = some pendingEntry := by
    rw [hwal]
    exact Dict.get?_set_self ..
  have hskip : (pendingEntry.retryCount : ℤ) < s.adapter.config.maxAttempts := by
    rw [hconfig]
    exact hmax
  have hbegin : (recoveringMachine cfg pendingLog).step ⟨s, l⟩ .recover =
      some ⟨s.withRecovery (.listing none), l⟩ := by
    simp [recoveringMachine, Recovering.step, ToolSystem.step, ToolSystem.beginRecovery,
      ToolSystem.withRecovery, ToolSystem.hasRedis, hconfig, hredis, beginsToRun]
  have hrun := h.snoc (e := .recover) (by trivial) hbegin
  have hlisted := run_recoveryAct (a := .list [.earlier 0]) (y := .listing (some [.earlier 0]))
    hrun (by simp) ((if_pos hkeys).trans (congrArg some (s.recoverAt_withRecovery _ _)))
  have hreading := run_recoveryAct (a := .proceed) (y := .reading [.earlier 0] [] none)
    hlisted (by simp) (congrArg some (s.recoverAt_withRecovery _ _))
  have hserved := run_recoveryAct (a := .serve true)
    (y := .reading [.earlier 0] [] (some (some (some pendingEntry)))) hreading (by simp) (by
      rw [← hget]
      exact congrArg some (s.recoverAt_withRecovery _ _))
  have hnext := (s.withRecovery (.reading [.earlier 0] []
    (some (some (some pendingEntry))))).nextPending_cons s.recoveries.length
      (.earlier 0, pendingEntry) [] 0 hskip
  have hexecuting := run_recoveryAct (a := .proceed)
    (y := .executing (.earlier 0) pendingEntry [] 0) hserved (by simp)
    (congrArg some (hnext.trans (s.recoverAt_withRecovery _ _)))
  have hdone := run_recoveryAct (a := .ended (.raised false)) (y := .done 0) hexecuting (by simp)
    (congrArg some (s.recoverAt_withRecovery _ _))
  simpa [failingRecovery, Recovery.running] using hdone

/-- Any number of recoveries can run the entry. -/
theorem exists_run_executed (hredis : cfg.redis = true) (hmax : 0 < cfg.maxAttempts) (n : ℕ) :
    ∃ es s, (recoveringMachine cfg pendingLog).Run KeepsFailing es s ∧
      s.system.wal = pendingLog ∧ es.countP isRecover = n ∧
        (s.executed.map Prod.snd).count (.earlier 0) = n := by
  induction n with
  | zero => exact ⟨[], _, .nil, rfl, rfl, rfl⟩
  | succ n ih =>
    obtain ⟨es, s, hrun, hwal, hrecoveries, hexecuted⟩ := ih
    refine ⟨_, _, run_failingRecovery hredis hmax hrun hwal, hwal, ?_, ?_⟩
    · rw [List.countP_append, hrecoveries]
      rfl
    · rw [List.map_append, List.count_append, hexecuted]
      rfl

end Rounds

/-- The bound of the configuration holds in all runs with at most `n` recoveries exactly if `n` is
within it, or no recovery runs anything. -/
theorem recoveryBounded_iff (cfg : AdapterConfig) (n : ℕ) :
    RecoveryBounded cfg n ↔
      (n : ℤ) ≤ cfg.maxAttempts ∨ cfg.maxAttempts ≤ 0 ∨ cfg.redis = false := by
  constructor
  · intro h
    by_contra hnot
    rw [not_or, not_or] at hnot
    obtain ⟨hmore, hmax, hredis⟩ := hnot
    obtain ⟨es, s, hrun, -, hrecoveries, hexecuted⟩ :=
      exists_run_executed (by simpa using hredis) (Int.not_le.mp hmax) n
    have hbound := h pendingLog es s hrun (Nat.le_of_eq hrecoveries) (.earlier 0)
    rw [hexecuted] at hbound
    omega
  · intro h wal es s hrun hn id
    have honce := once_of_run hrun
    by_cases hnil : s.executed = []
    · rw [hnil]
      exact Nat.zero_le _
    · obtain ⟨hmax, hredis⟩ := honce.enabled hnil
      have hcount := count_executed_le hrun id
      rcases h with hwithin | hnone | hoff
      · omega
      · omega
      · rw [hredis] at hoff
        cases hoff

/-- With three attempts an entry is run by four recoveries. -/
theorem not_recoveryBounded : ¬∀ cfg n, RecoveryBounded cfg n := by
  intro h
  have hmax : 0 < ({} : AdapterConfig).maxAttempts := by decide
  obtain ⟨es, s, hrun, -, hrecoveries, hexecuted⟩ := exists_run_executed rfl hmax 4
  have hbound := h {} 4 pendingLog es s hrun (Nat.le_of_eq hrecoveries) (.earlier 0)
  rw [hexecuted] at hbound
  revert hbound
  decide

end ToolResilience

end MultiAgent
