import MultiAgent.Lib.Dict
import MultiAgent.Lib.Machine

/-!
# Managers with background tasks

`NATSMirroringManager` and `PostgreSQLReplicationManager` do the same with their streams and
databases : a setup and a resumption start a health check and a sync task, each of which is
kept in one slot of its table under the name, and a pause cancels what is in the slots and
marks the name as `PAUSED`. They differ in what they await and in what a health check makes of
an answer (`Link`).

A task that is started while its slot is taken replaces the other one there, which goes on, and
a pause does not find it any more. So a name stays paused until the next call for it, if each
pause that returns finds all running tasks of the name in their slots, and neither a setup nor
a resumption of it under way (`pauseLaw_throughout`).
-/

namespace MultiAgent

namespace Replication

/-- `MirroringStatus` and `ReplicationStatus`. -/
inductive Status
  | active
  | paused
  | failed
  | syncing
  deriving DecidableEq

/-- What a manager knows of its configurations, and what it makes of the answers that a health
check gets. -/
structure Link (Config Answer : Type) where
  /-- the name of the stream or of the database -/
  name : Config → String
  /-- `sync_interval_seconds > 0` -/
  syncs : Config → Bool
  /-- `pause` and `resume` await a call before they do anything -/
  awaits : Config → Bool
  /-- the number of regions that a health check asks -/
  asks : Config → ℕ
  /-- the status that a health check writes for an answer, if it writes one -/
  judge : Config → Answer → Option Status

/-- What a background task does. -/
inductive TaskKind
  | healthCheck
  | sync
  deriving DecidableEq

/-- Where a background task is suspended. -/
inductive Phase (Config : Type)
  /-- not begun, or in its `asyncio.sleep` -/
  | idle
  /-- in a health check, which holds the statistics it began with, with the number of regions
  still to ask after this one -/
  | asking (config : Config) (stats remaining : ℕ)

/-- A health check with as many regions still to ask. -/
def Phase.ask {Config : Type} (config : Config) (stats : ℕ) : ℕ → Phase Config
  | 0 => .idle
  | n + 1 => .asking config stats n

/-- A background task. -/
structure Task (Config : Type) where
  kind : TaskKind
  name : String
  cancelled : Bool := false
  phase : Phase Config := .idle

/-- The statistics of a name, an object that a health check may hold although there is a newer
one. -/
structure Stats where
  name : String
  status : Status
  deriving DecidableEq

/-- The methods. -/
inductive Method
  | setup
  | resume
  | pause
  deriving DecidableEq

/-- A call that awaits something. -/
structure Call (Config : Type) where
  method : Method
  name : String
  config : Config

/-- A manager. The objects, the tasks and the calls are known by their number. `paused` are the
names for which a pause returned `True` and no call of the other methods came after. -/
structure Manager (Config : Type) where
  configs : Dict String Config := .empty
  stats : Dict String ℕ := .empty
  objects : List Stats := []
  healthCheckTasks : Dict String ℕ := .empty
  syncTasks : Dict String ℕ := .empty
  tasks : List (Task Config) := []
  calls : List (Option (Call Config)) := []
  paused : List String := []

/-- A step. -/
inductive Event (Config Answer : Type)
  | setup (config : Config)
  | resume (name : String)
  | pause (name : String)
  | callDone (call : ℕ) (returns : Bool)
  | run (task : ℕ)
  | answer (task : ℕ) (answer : Answer)

namespace Manager

variable {Config Answer : Type} (link : Link Config Answer) (s : Manager Config)

/-- The status of a name, as `get_mirroring_status` and `get_replication_status` read it. -/
def status (name : String) : Option Status :=
  ((s.stats.get? name).bind fun o => s.objects[o]?).map Stats.status

/-- The status of an object is written. -/
def write (o : ℕ) (status : Status) : Manager Config :=
  { s with objects := s.objects.modify o fun x => { x with status } }

/-- The status of a name is written, if it has statistics. -/
def setStatus (name : String) (status : Status) : Manager Config :=
  match s.stats.get? name with
  | some o => s.write o status
  | none => s

/-- `_start_health_check`. -/
def startHealthCheck (name : String) : Manager Config :=
  { s with
    tasks := s.tasks ++ [{ kind := .healthCheck, name }]
    healthCheckTasks := s.healthCheckTasks.set name s.tasks.length }

/-- `_start_sync_task`. -/
def startSyncTask (name : String) : Manager Config :=
  { s with
    tasks := s.tasks ++ [{ kind := .sync, name }]
    syncTasks := s.syncTasks.set name s.tasks.length }

/-- Both tasks are started, the second only if there is something to sync. -/
def startTasks (name : String) (config : Config) : Manager Config :=
  let s := s.startHealthCheck name
  if link.syncs config then s.startSyncTask name else s

/-- `setup_mirroring` or `setup_replication`, after what it awaits. -/
def finishSetup (name : String) (config : Config) : Manager Config :=
  startTasks link { s with
    stats := s.stats.set name s.objects.length
    objects := s.objects ++ [{ name, status := .active }] } name config

/-- `resume_mirroring` or `resume_replication`, after what it awaits. -/
def finishResume (name : String) (config : Config) : Manager Config :=
  (s.startTasks link name config).setStatus name .active

/-- `task.cancel()`, of the task in a slot. -/
def cancel (slot : Option ℕ) : Manager Config :=
  match slot with
  | some j => { s with tasks := s.tasks.modify j fun t => { t with cancelled := true } }
  | none => s

/-- `pause_mirroring` or `pause_replication`, after what it awaits. -/
def finishPause (name : String) : Manager Config :=
  let s := s.cancel (s.healthCheckTasks.get? name)
  let s := s.cancel (s.syncTasks.get? name)
  let s := { s with
    healthCheckTasks := s.healthCheckTasks.erase name
    syncTasks := s.syncTasks.erase name }
  let s := s.setStatus name .paused
  { s with paused := name :: s.paused }

/-- A call that is not a pause ends the pause of its name. -/
def unpause (name : String) : Manager Config :=
  { s with paused := s.paused.filter fun n => n ≠ name }

/-- A call begins to await. -/
def await (method : Method) (name : String) (config : Config) : Manager Config :=
  { s with calls := s.calls ++ [some { method, name, config }] }

/-- `setup_mirroring` or `setup_replication`, up to what it awaits. -/
def setup (config : Config) : Manager Config :=
  let s := s.unpause (link.name config)
  { s with configs := s.configs.set (link.name config) config }.await .setup (link.name config)
    config

/-- `resume_mirroring` or `resume_replication`. -/
def resume (name : String) : Manager Config :=
  match s.configs.get? name with
  | none => s
  | some config =>
    if link.awaits config then (s.unpause name).await .resume name config
    else (s.unpause name).finishResume link name config

/-- `pause_mirroring` or `pause_replication`. -/
def pause (name : String) : Manager Config :=
  match s.configs.get? name with
  | none => s
  | some config => if link.awaits config then s.await .pause name config else s.finishPause name

/-- What a call awaits is done. If that raises, the call returns `False`. -/
def callDone (i : ℕ) (returns : Bool) : Option (Manager Config) :=
  match s.calls[i]? with
  | some (some call) =>
    let s := { s with calls := s.calls.set i none }
    if returns then
      match call.method with
      | .setup => some (s.finishSetup link call.name call.config)
      | .resume => some (s.finishResume link call.name call.config)
      | .pause => some (s.finishPause call.name)
    else some s
  | _ => none

/-- `_perform_health_check`, up to its first answer. -/
def performHealthCheck (j : ℕ) (t : Task Config) : Manager Config :=
  match s.configs.get? t.name, s.stats.get? t.name with
  | some config, some o =>
    { s with tasks := s.tasks.set j { t with phase := .ask config o (link.asks config) } }
  | _, _ => s

/-- `_perform_sync`. -/
def performSync (name : String) : Manager Config :=
  match s.configs.get? name with
  | some _ => (s.setStatus name .syncing).setStatus name .active
  | none => s.setStatus name .failed

/-- A task begins its next round. -/
def run (j : ℕ) : Option (Manager Config) :=
  match s.tasks[j]? with
  | some t =>
    match t.cancelled, t.phase, t.kind with
    | false, .idle, .healthCheck => some (s.performHealthCheck link j t)
    | false, .idle, .sync => some (s.performSync t.name)
    | _, _, _ => none
  | none => none

/-- A health check gets an answer. -/
def answer (j : ℕ) (answer : Answer) : Option (Manager Config) :=
  match s.tasks[j]? with
  | some t =>
    match t.cancelled, t.phase with
    | false, .asking config o remaining =>
      let s := { s with tasks := s.tasks.set j { t with phase := .ask config o remaining } }
      match link.judge config answer with
      | some status => some (s.write o status)
      | none => some s
    | _, _ => none
  | none => none

/-- One step. -/
def step : Event Config Answer → Option (Manager Config)
  | .setup config => some (s.setup link config)
  | .resume name => some (s.resume link name)
  | .pause name => some (s.pause link name)
  | .callDone i returns => s.callDone link i returns
  | .run j => s.run link j
  | .answer j answer => s.answer link j answer

/-- A name stays paused after its pause. -/
def PauseLaw : Prop :=
  ∀ name ∈ s.paused, s.status name = some .paused

instance : Decidable s.PauseLaw :=
  inferInstanceAs (Decidable (∀ name ∈ s.paused, s.status name = some .paused))

/-- The name has statistics, its running tasks are in their slots, and no call is under way that
sets it up or resumes it. -/
structure Settled (name : String) : Prop where
  known : name ∈ s.stats
  slots : ∀ p ∈ s.tasks.zipIdx, p.1.name = name → p.1.cancelled = false →
    s.healthCheckTasks.get? name = some p.2 ∨ s.syncTasks.get? name = some p.2
  calls : ∀ c ∈ s.calls, ∀ call ∈ c, call.name = name → call.method = .pause

instance (name : String) : Decidable (s.Settled name) :=
  decidable_of_iff
    (name ∈ s.stats ∧
      (∀ p ∈ s.tasks.zipIdx, p.1.name = name → p.1.cancelled = false →
        s.healthCheckTasks.get? name = some p.2 ∨ s.syncTasks.get? name = some p.2) ∧
      ∀ c ∈ s.calls, ∀ call ∈ c, call.name = name → call.method = .pause)
    ⟨fun h => ⟨h.1, h.2.1, h.2.2⟩, fun h => ⟨h.known, h.slots, h.calls⟩⟩

/-- The name for which a step makes a pause return `True`. -/
def pausing : Event Config Answer → Option String
  | .pause name =>
    match s.configs.get? name with
    | some config => if link.awaits config then none else some name
    | none => none
  | .callDone i true =>
    match s.calls[i]? with
    | some (some call) => if call.method = .pause then some call.name else none
    | _ => none
  | _ => none

/-- A pause returns only when its name is settled. -/
def Orderly (e : Event Config Answer) : Prop :=
  ∀ name ∈ s.pausing link e, s.Settled name

instance (e : Event Config Answer) : Decidable (s.Orderly link e) :=
  inferInstanceAs (Decidable (∀ name ∈ s.pausing link e, s.Settled name))

end Manager

/-! ## What is kept -/

namespace Manager

variable {Config Answer : Type} {link : Link Config Answer} {s : Manager Config}
  {name : String} {o j : ℕ} {st : Status}

/-- A task that runs holds statistics of its own name. -/
def OwnStats (s : Manager Config) (t : Task Config) : Prop :=
  ∀ config o remaining, t.phase = .asking config o remaining →
    ∃ x, s.objects[o]? = some x ∧ x.name = t.name

/-- Nothing runs for a name that is paused, and its status says so. -/
structure Quiet (s : Manager Config) (name : String) : Prop where
  status : s.status name = some .paused
  tasks : ∀ t ∈ s.tasks, t.name = name → t.cancelled = true
  calls : ∀ c ∈ s.calls, ∀ call ∈ c, call.name = name → call.method = .pause

/-- Statistics are kept under their name, and paused names are quiet. -/
structure Kept (s : Manager Config) : Prop where
  stats : ∀ name o, s.stats.get? name = some o → ∃ x, s.objects[o]? = some x ∧ x.name = name
  tasks : ∀ t ∈ s.tasks, s.OwnStats t
  quiet : ∀ name ∈ s.paused, s.Quiet name

theorem ownStats_of_idle {t : Task Config} (h : t.phase = .idle) : s.OwnStats t := by
  intro config o remaining hphase
  rw [h] at hphase
  cases hphase

theorem ownStats_ask {t : Task Config} {x : Stats} (hx : s.objects[o]? = some x)
    (hname : x.name = t.name) (config : Config) (n : ℕ)
    (hphase : t.phase = .ask config o n) : s.OwnStats t := by
  intro config' o' remaining h
  rw [hphase] at h
  cases n with
  | zero => cases h
  | succ n =>
    cases h
    exact ⟨x, hx, hname⟩

theorem getElem?_write : (s.write o st).objects[j]? =
    (s.objects[j]?).map fun x => if o = j then { x with status := st } else x :=
  List.getElem?_modify ..

/-- Writing does not change whose an object is. -/
theorem name_write {x : Stats} (h : s.objects[j]? = some x) :
    ∃ y, (s.write o st).objects[j]? = some y ∧ y.name = x.name := by
  rw [getElem?_write, h]
  exact ⟨_, rfl, by split_ifs <;> rfl⟩

/-- Writing the statistics of another name does not change the status. -/
theorem status_write_of_ne (h : s.Kept) {x : Stats} (hx : s.objects[o]? = some x)
    (hne : x.name ≠ name) : (s.write o st).status name = s.status name := by
  unfold status
  change Option.map _ ((s.stats.get? name).bind fun j => (s.write o st).objects[j]?) = _
  cases hget : s.stats.get? name with
  | none => rfl
  | some j =>
    obtain ⟨y, hy, hname⟩ := h.stats name j hget
    have hoj : o ≠ j := by
      rintro rfl
      obtain rfl := Option.some.inj (hx.symm.trans hy)
      exact hne hname
    simp only [Option.bind_some, getElem?_write, if_neg hoj, Option.map_id_fun', id_eq]

/-- Statistics of a name that is not paused may be written. -/
theorem Kept.write (h : s.Kept) {x : Stats} (hx : s.objects[o]? = some x)
    (hpaused : x.name ∉ s.paused) : (s.write o st).Kept := by
  refine ⟨fun name j hj => ?_, fun t ht config j remaining hphase => ?_, fun name hname => ?_⟩
  · obtain ⟨y, hy, rfl⟩ := h.stats name j hj
    exact name_write hy
  · obtain ⟨y, hy, hyt⟩ := h.tasks t ht config j remaining hphase
    obtain ⟨z, hz, hzy⟩ : ∃ z, (s.write o st).objects[j]? = some z ∧ z.name = y.name :=
      name_write hy
    exact ⟨z, hz, hzy.trans hyt⟩
  · have hquiet := h.quiet name hname
    refine ⟨?_, hquiet.tasks, hquiet.calls⟩
    rw [status_write_of_ne h hx fun he => hpaused (he ▸ hname)]
    exact hquiet.status

theorem Kept.setStatus (h : s.Kept) (hpaused : name ∉ s.paused) (st : Status) :
    (s.setStatus name st).Kept := by
  unfold Manager.setStatus
  cases hget : s.stats.get? name with
  | none => exact h
  | some o =>
    obtain ⟨x, hx, rfl⟩ := h.stats name o hget
    exact h.write hx hpaused

theorem paused_setStatus (s : Manager Config) (name : String) (st : Status) :
    (s.setStatus name st).paused = s.paused := by
  unfold Manager.setStatus
  split <;> rfl

/-- The tasks may change as long as none runs for a paused name. -/
theorem Kept.withTasks (h : s.Kept) {t : Manager Config} (hstats : t.stats = s.stats)
    (hobjects : t.objects = s.objects) (hcalls : t.calls = s.calls) (hpaused : t.paused = s.paused)
    (htasks : ∀ x ∈ t.tasks, s.OwnStats x ∧ (x.name ∈ s.paused → x.cancelled = true)) :
    t.Kept := by
  have hstatus : ∀ name, t.status name = s.status name := fun name => by
    unfold status
    rw [hstats, hobjects]
  refine ⟨?_, fun x hx => ?_, fun name hname => ?_⟩
  · rw [hstats, hobjects]
    exact h.stats
  · unfold OwnStats
    rw [hobjects]
    exact (htasks x hx).1
  · rw [hpaused] at hname
    have hquiet := h.quiet name hname
    refine ⟨(hstatus name).trans hquiet.status, fun x hx he => (htasks x hx).2 (he ▸ hname), ?_⟩
    rw [hcalls]
    exact hquiet.calls

theorem Kept.running (h : s.Kept) {t : Task Config} (ht : t ∈ s.tasks) :
    s.OwnStats t ∧ (t.name ∈ s.paused → t.cancelled = true) :=
  ⟨h.tasks t ht, fun hname => (h.quiet t.name hname).tasks t ht rfl⟩

theorem Kept.startHealthCheck (h : s.Kept) (hpaused : name ∉ s.paused) :
    (s.startHealthCheck name).Kept := by
  refine h.withTasks rfl rfl rfl rfl fun x hx => ?_
  rcases List.mem_append.mp hx with hx | hx
  · exact h.running hx
  · obtain rfl := List.mem_singleton.mp hx
    exact ⟨ownStats_of_idle rfl, fun hname => absurd hname hpaused⟩

theorem Kept.startSyncTask (h : s.Kept) (hpaused : name ∉ s.paused) :
    (s.startSyncTask name).Kept := by
  refine h.withTasks rfl rfl rfl rfl fun x hx => ?_
  rcases List.mem_append.mp hx with hx | hx
  · exact h.running hx
  · obtain rfl := List.mem_singleton.mp hx
    exact ⟨ownStats_of_idle rfl, fun hname => absurd hname hpaused⟩

theorem Kept.startTasks (h : s.Kept) (hpaused : name ∉ s.paused) (config : Config) :
    (s.startTasks link name config).Kept := by
  unfold Manager.startTasks
  split_ifs
  · exact (h.startHealthCheck hpaused).startSyncTask hpaused
  · exact h.startHealthCheck hpaused

theorem paused_startTasks (s : Manager Config) (name : String) (config : Config) :
    (s.startTasks link name config).paused = s.paused := by
  unfold Manager.startTasks
  split_ifs <;> rfl

/-- New statistics of a name that is not paused. -/
theorem Kept.newStats (h : s.Kept) (hpaused : name ∉ s.paused) (st : Status) :
    Kept { s with
      stats := s.stats.set name s.objects.length
      objects := s.objects ++ [{ name, status := st }] } := by
  have hold : ∀ {j : ℕ} {x : Stats}, s.objects[j]? = some x →
      (s.objects ++ [⟨name, st⟩])[j]? = some x := fun hx =>
    (List.getElem?_append_left (List.getElem?_eq_some_iff.mp hx).1).trans hx
  refine ⟨fun name' j hj => ?_, fun t ht config j remaining hphase => ?_, fun name' hname => ?_⟩
  · simp only [Dict.get?_set] at hj
    split_ifs at hj with hself
    · obtain rfl := Option.some.inj hj
      exact ⟨_, List.getElem?_concat_length .., hself.symm⟩
    · obtain ⟨x, hx, hname⟩ := h.stats name' j hj
      exact ⟨x, hold hx, hname⟩
  · obtain ⟨x, hx, hname⟩ := h.tasks t ht config j remaining hphase
    exact ⟨x, hold hx, hname⟩
  · have hquiet := h.quiet name' hname
    have hne : name' ≠ name := fun he => hpaused (he ▸ hname)
    refine ⟨?_, hquiet.tasks, hquiet.calls⟩
    have hstatus := hquiet.status
    unfold status at hstatus ⊢
    simp only [Dict.get?_set_ne _ _ hne]
    obtain ⟨x, hx, hst⟩ := Option.map_eq_some_iff.mp hstatus
    obtain ⟨j, hj, hx⟩ := Option.bind_eq_some_iff.mp hx
    rw [hj, Option.bind_some, hold hx, Option.map_some, hst]

theorem Kept.finishSetup (h : s.Kept) (hpaused : name ∉ s.paused) (config : Config) :
    (s.finishSetup link name config).Kept :=
  (h.newStats hpaused .active).startTasks hpaused config

theorem Kept.finishResume (h : s.Kept) (hpaused : name ∉ s.paused) (config : Config) :
    (s.finishResume link name config).Kept := by
  refine (h.startTasks hpaused config).setStatus ?_ .active
  rw [paused_startTasks]
  exact hpaused

theorem Kept.unpause (h : s.Kept) (name : String) :
    (s.unpause name).Kept ∧ name ∉ (s.unpause name).paused := by
  refine ⟨⟨h.stats, h.tasks, fun name' hname => ?_⟩, ?_⟩
  · have hquiet := h.quiet name' (List.mem_filter.mp hname).1
    exact ⟨hquiet.status, hquiet.tasks, hquiet.calls⟩
  · intro hname
    have hne := (List.mem_filter.mp hname).2
    simp at hne

theorem Kept.await (h : s.Kept) {method : Method} (hcall : name ∈ s.paused → method = .pause)
    (config : Config) : (s.await method name config).Kept := by
  refine ⟨h.stats, h.tasks, fun name' hname => ?_⟩
  have hquiet := h.quiet name' hname
  refine ⟨hquiet.status, hquiet.tasks, fun c hc call hmem he => ?_⟩
  rcases List.mem_append.mp hc with hc | hc
  · exact hquiet.calls c hc call hmem he
  · obtain rfl := List.mem_singleton.mp hc
    obtain rfl := Option.some.inj hmem
    obtain rfl : name = name' := he
    exact hcall hname

theorem Kept.endCall (h : s.Kept) (i : ℕ) : Kept { s with calls := s.calls.set i none } := by
  refine ⟨h.stats, h.tasks, fun name hname => ?_⟩
  have hquiet := h.quiet name hname
  refine ⟨hquiet.status, hquiet.tasks, fun c hc call hmem he => ?_⟩
  rcases List.mem_or_eq_of_mem_set hc with hc | rfl
  · exact hquiet.calls c hc call hmem he
  · cases hmem

/-- What is left after the slots of a name were cancelled. -/
theorem Kept.cancel (h : s.Kept) (slot : Option ℕ) : (s.cancel slot).Kept := by
  cases slot with
  | none => exact h
  | some j =>
    refine h.withTasks rfl rfl rfl rfl fun x hx => ?_
    obtain ⟨i, hi⟩ := List.mem_iff_getElem?.mp hx
    change (s.tasks.modify j fun t => { t with cancelled := true })[i]? = some x at hi
    rw [List.getElem?_modify] at hi
    obtain ⟨t, ht, rfl⟩ := Option.map_eq_some_iff.mp hi
    have hrunning := h.running (List.mem_of_getElem? ht)
    split_ifs
    · exact ⟨hrunning.1, fun _ => rfl⟩
    · exact hrunning

/-- A task that still runs ran before and was in another place. -/
theorem of_mem_cancel {slot : Option ℕ} {i : ℕ} {t : Task Config}
    (ht : (s.cancel slot).tasks[i]? = some t) (hrun : t.cancelled = false) :
    s.tasks[i]? = some t ∧ slot ≠ some i := by
  cases slot with
  | none => exact ⟨ht, nofun⟩
  | some j =>
    change (s.tasks.modify j fun t => { t with cancelled := true })[i]? = some t at ht
    rw [List.getElem?_modify] at ht
    obtain ⟨x, hx, rfl⟩ := Option.map_eq_some_iff.mp ht
    split_ifs at hrun with hji
    exact ⟨by rw [hx, if_neg hji], fun he => hji (Option.some.inj he)⟩

theorem syncTasks_cancel (s : Manager Config) (slot : Option ℕ) :
    (s.cancel slot).syncTasks = s.syncTasks := by
  cases slot <;> rfl

theorem stats_cancel (s : Manager Config) (slot : Option ℕ) :
    (s.cancel slot).stats = s.stats := by
  cases slot <;> rfl

theorem calls_cancel (s : Manager Config) (slot : Option ℕ) :
    (s.cancel slot).calls = s.calls := by
  cases slot <;> rfl

/-- What a pause cancels. -/
def cancelSlots (s : Manager Config) (name : String) : Manager Config :=
  let s := (s.cancel (s.healthCheckTasks.get? name)).cancel (s.syncTasks.get? name)
  { s with
    healthCheckTasks := s.healthCheckTasks.erase name
    syncTasks := s.syncTasks.erase name }

theorem finishPause_eq (s : Manager Config) (name : String) :
    s.finishPause name =
      { (s.cancelSlots name).setStatus name .paused with
        paused := name :: ((s.cancelSlots name).setStatus name .paused).paused } := by
  simp only [finishPause, cancelSlots, syncTasks_cancel]

theorem Kept.cancelSlots (h : s.Kept) (name : String) : (s.cancelSlots name).Kept :=
  ((h.cancel _).cancel _).withTasks rfl rfl rfl rfl fun _ hx => ((h.cancel _).cancel _).running hx

/-- No task of a settled name goes on after its slots were cancelled. -/
theorem Settled.cancelled (h : s.Settled name) {t : Task Config}
    (ht : t ∈ (s.cancelSlots name).tasks) (hname : t.name = name) : t.cancelled = true := by
  by_contra hrun
  rw [Bool.not_eq_true] at hrun
  obtain ⟨i, hi⟩ := List.mem_iff_getElem?.mp ht
  obtain ⟨hi, hsync⟩ := of_mem_cancel hi hrun
  obtain ⟨hi, hhealth⟩ := of_mem_cancel hi hrun
  rcases h.slots (t, i) (List.mem_zipIdx_iff_getElem?.mpr hi) hname hrun with hslot | hslot
  · exact hhealth hslot
  · exact hsync hslot

/-- A pause leaves a settled name quiet. -/
theorem Kept.finishPause (h : s.Kept) (hs : s.Settled name) : (s.finishPause name).Kept := by
  rw [finishPause_eq]
  have hk := (h.cancelSlots name).unpause name
  have hcalls : (s.cancelSlots name).calls = s.calls :=
    (calls_cancel _ _).trans (calls_cancel _ _)
  have hstats : (s.cancelSlots name).stats = s.stats :=
    (stats_cancel _ _).trans (stats_cancel _ _)
  obtain ⟨o, ho⟩ := Dict.mem_iff_get?.mp hs.known
  rw [← hstats] at ho
  obtain ⟨x, hx, hname⟩ := (h.cancelSlots name).stats name o ho
  have hwrite : (s.cancelSlots name).setStatus name .paused =
      (s.cancelSlots name).write o .paused := by
    simp only [Manager.setStatus, ho]
  rw [hwrite]
  have hk' : (((s.cancelSlots name).unpause name).write o .paused).Kept :=
    hk.1.write hx (hname ▸ hk.2)
  refine ⟨hk'.stats, hk'.tasks, fun name' hname' => ?_⟩
  by_cases he : name' = name
  · subst he
    refine ⟨?_, fun t ht => hs.cancelled ht, ?_⟩
    · unfold status
      change Option.map _ (((s.cancelSlots name').stats.get? name').bind fun j =>
        ((s.cancelSlots name').write o .paused).objects[j]?) = _
      rw [ho, Option.bind_some, getElem?_write, hx, Option.map_some, if_pos rfl, Option.map_some]
    · change ∀ c ∈ (s.cancelSlots name').calls, _
      rw [hcalls]
      exact hs.calls
  · have hmem : name' ∈ (s.cancelSlots name).paused := (List.mem_cons.mp hname').resolve_left he
    have hquiet := hk'.quiet name' (List.mem_filter.mpr ⟨hmem, decide_eq_true he⟩)
    exact ⟨hquiet.status, hquiet.tasks, hquiet.calls⟩

/-- A running task is of no paused name. -/
theorem Kept.not_paused (h : s.Kept) {t : Task Config} (ht : s.tasks[j]? = some t)
    (hrun : t.cancelled = false) : t.name ∉ s.paused := by
  intro hname
  have hcancelled := (h.running (List.mem_of_getElem? ht)).2 hname
  rw [hrun] at hcancelled
  cases hcancelled

/-- A running task goes to another place. -/
theorem Kept.goTo (h : s.Kept) {t : Task Config} (ht : s.tasks[j]? = some t)
    (hrun : t.cancelled = false) (phase : Phase Config) (hown : s.OwnStats { t with phase }) :
    Kept { s with tasks := s.tasks.set j { t with phase } } := by
  have hpaused := h.not_paused ht hrun
  refine h.withTasks rfl rfl rfl rfl fun x hx => ?_
  rcases List.mem_or_eq_of_mem_set hx with hx | rfl
  · exact h.running hx
  · exact ⟨hown, fun hname => absurd hname hpaused⟩

theorem Kept.performHealthCheck (h : s.Kept) {t : Task Config} (ht : s.tasks[j]? = some t)
    (hrun : t.cancelled = false) : (s.performHealthCheck link j t).Kept := by
  unfold Manager.performHealthCheck
  split
  next config o _ ho =>
    obtain ⟨x, hx, hname⟩ := h.stats t.name o ho
    exact h.goTo ht hrun (.ask config o _) (ownStats_ask hx hname config _ rfl)
  next => exact h

theorem Kept.performSync (h : s.Kept) (hpaused : name ∉ s.paused) :
    (s.performSync name).Kept := by
  unfold Manager.performSync
  split
  · refine (h.setStatus hpaused .syncing).setStatus ?_ .active
    rw [paused_setStatus]
    exact hpaused
  · exact h.setStatus hpaused .failed

theorem Kept.run (h : s.Kept) {t : Manager Config} (hst : s.run link j = some t) : t.Kept := by
  unfold Manager.run at hst
  split at hst
  next x hx =>
    split at hst
    next hrun _ _ =>
      obtain rfl := Option.some.inj hst
      exact h.performHealthCheck hx hrun
    next hrun _ _ =>
      obtain rfl := Option.some.inj hst
      exact h.performSync (h.not_paused hx hrun)
    next => cases hst
  next => cases hst

theorem Kept.answer (h : s.Kept) {t : Manager Config} {answer : Answer}
    (hst : s.answer link j answer = some t) : t.Kept := by
  unfold Manager.answer at hst
  split at hst
  next x hx =>
    split at hst
    next config o remaining hrun hphase =>
      obtain ⟨y, hy, hname⟩ := h.tasks x (List.mem_of_getElem? hx) config o remaining hphase
      have hpaused := h.not_paused hx hrun
      have hgone := h.goTo hx hrun (.ask config o remaining)
        (ownStats_ask hy hname config remaining rfl)
      rw [← hname] at hpaused
      dsimp only at hst
      split at hst
      · obtain rfl := Option.some.inj hst
        exact hgone.write hy hpaused
      · obtain rfl := Option.some.inj hst
        exact hgone
    next => cases hst
  next => cases hst

theorem Kept.resume (h : s.Kept) (name : String) : (s.resume link name).Kept := by
  unfold Manager.resume
  have hun := h.unpause name
  split
  · exact h
  · split_ifs
    · exact hun.1.await (fun hname => absurd hname hun.2) _
    · exact hun.1.finishResume hun.2 _

theorem Kept.setup (h : s.Kept) (config : Config) : (s.setup link config).Kept := by
  have hun := h.unpause (link.name config)
  have hset : Kept { s.unpause (link.name config) with
      configs := s.configs.set (link.name config) config } :=
    hun.1.withTasks rfl rfl rfl rfl fun _ hx => hun.1.running hx
  exact hset.await (fun hname => absurd hname hun.2) _

theorem Kept.pause (h : s.Kept)
    (hsettled : ∀ n ∈ s.pausing link (.pause name : Event Config Answer), s.Settled n) :
    (s.pause link name).Kept := by
  unfold Manager.pause
  split
  · exact h
  next config hconfig =>
    split_ifs with hawaits
    · exact h.await (fun _ => rfl) _
    · exact h.finishPause (hsettled name (by simp only [pausing, hconfig, if_neg hawaits]; rfl))

theorem Kept.callDone (h : s.Kept) {i : ℕ} {returns : Bool} {t : Manager Config}
    (hsettled : ∀ n ∈ s.pausing link (.callDone i returns : Event Config Answer), s.Settled n)
    (hst : s.callDone link i returns = some t) : t.Kept := by
  unfold Manager.callDone at hst
  split at hst
  next call hcall =>
    have hend := h.endCall i
    -- A call that is not a pause is of no paused name.
    have hother : call.method ≠ .pause → call.name ∉ s.paused := fun hne hname =>
      hne ((h.quiet call.name hname).calls _ (List.mem_of_getElem? hcall) call rfl rfl)
    cases returns with
    | false =>
      obtain rfl := Option.some.inj hst
      exact hend
    | true =>
      simp only [if_true] at hst
      split at hst
      next hmethod =>
        obtain rfl := Option.some.inj hst
        exact hend.finishSetup (hother (by rw [hmethod]; nofun)) call.config
      next hmethod =>
        obtain rfl := Option.some.inj hst
        exact hend.finishResume (hother (by rw [hmethod]; nofun)) call.config
      next hmethod =>
        obtain rfl := Option.some.inj hst
        have hs : s.Settled call.name :=
          hsettled call.name (by simp only [pausing, hcall, if_pos hmethod]; rfl)
        refine hend.finishPause ⟨hs.known, hs.slots, fun c hc call' hmem => ?_⟩
        rcases List.mem_or_eq_of_mem_set hc with hc | rfl
        · exact hs.calls c hc call' hmem
        · cases hmem
  next => cases hst

theorem Kept.step (h : s.Kept) {e : Event Config Answer} (hok : s.Orderly link e)
    {t : Manager Config} (hst : s.step link e = some t) : t.Kept := by
  cases e with
  | setup config =>
    obtain rfl := Option.some.inj hst
    exact h.setup config
  | resume name =>
    obtain rfl := Option.some.inj hst
    exact h.resume name
  | pause name =>
    obtain rfl := Option.some.inj hst
    exact h.pause hok
  | callDone i returns => exact h.callDone hok hst
  | run j => exact h.run hst
  | answer j answer => exact h.answer hst

theorem Kept.pauseLaw (h : s.Kept) : s.PauseLaw :=
  fun name hname => (h.quiet name hname).status

end Manager

/-- A new manager. -/
def managerMachine {Config Answer : Type} (link : Link Config Answer) :
    Machine (Manager Config) (Event Config Answer) where
  init := {}
  step := Manager.step link

/-- If the steps of a run are orderly, names stay paused throughout it. -/
theorem pauseLaw_throughout {Config Answer : Type} {link : Link Config Answer}
    {es : List (Event Config Answer)} {s : Manager Config}
    (h : (managerMachine link).Run (Manager.Orderly link) es s) :
    (managerMachine link).Throughout Manager.PauseLaw es := by
  have hinit : (managerMachine link).init.Kept := by
    refine ⟨fun name o ho => ?_, fun t ht => ?_, fun name hname => ?_⟩
    · cases ho
    · cases ht
    · cases hname
  have hkept := h.throughout hinit fun s e t hs hok hst => hs.step hok hst
  exact fun fs u hfs hu => (hkept fs u hfs hu).pauseLaw

end Replication

end MultiAgent
