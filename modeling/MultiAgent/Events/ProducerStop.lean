import Mathlib.Data.List.Perm.Basic
import Mathlib.Data.List.Range
import MultiAgent.Events.EventProducer

/-!
# The events of a producer that is stopped

Runs of `EventProducer.publish` next to the batch processor and one call of `stop`, in which
no publish fills the batch. The lock is free whenever a task is suspended, so a flush is
suspended in `publish` of the event bus or before a further attempt only. `stop` cancels
the batch task, which then ends where it is suspended, waits for its end, and flushes what
is in the batch.

Every event that was accepted is counted, in the batch, in a flush that goes on, or lost
(`Ledger`), and lost are the events of the flush that `stop` interrupts. So all the events
that were accepted before are counted once when `stop` returns exactly when it interrupts
no flush (`events_accounted_iff`).
-/

namespace MultiAgent

/-- The events of a flush that are not counted yet. -/
def FlushState.pending {ε : Type*} : FlushState ε → List ε
  | .publishing event rest _ => event :: rest
  | .sleeping event rest _ => event :: rest
  | .ended => []

namespace EventProducer

variable {ε : Type*}

/-- `events_published + events_failed`. -/
def tally (p : EventProducer ε) : ℕ :=
  p.stats.eventsPublished + p.stats.eventsFailed

/-- Each event that a flush is done with is counted once. -/
theorem publishBatch_spec (l : List ε) (p : EventProducer ε) :
    ∃ settled, l = settled ++ (publishBatch l p).2.pending ∧
      (publishBatch l p).1.tally = p.tally + settled.length ∧
      (publishBatch l p).1.batch = p.batch ∧ (publishBatch l p).1.config = p.config := by
  induction l generalizing p with
  | nil => exact ⟨[], rfl, rfl, rfl, rfl⟩
  | cons event rest ih =>
    unfold publishBatch
    split_ifs
    · exact ⟨[], rfl, rfl, rfl, rfl⟩
    · obtain ⟨settled, hsettled, htally, hbatch, hconfig⟩ := ih p.countFailed
      refine ⟨event :: settled, ?_, ?_, hbatch, hconfig⟩
      · rw [List.cons_append, ← hsettled]
      · have hfailed : p.countFailed.tally = p.tally + 1 := rfl
        rw [htally, hfailed, List.length_cons]
        omega

theorem resumeFlush_spec (p : EventProducer ε) (success : Bool) (state : FlushState ε) :
    ∃ settled, state.pending = settled ++ (p.resumeFlush success state).2.pending ∧
      (p.resumeFlush success state).1.tally = p.tally + settled.length ∧
      (p.resumeFlush success state).1.batch = p.batch ∧
      (p.resumeFlush success state).1.config = p.config := by
  cases state with
  | ended => exact ⟨[], rfl, rfl, rfl, rfl⟩
  | sleeping event rest attempt => exact ⟨[], rfl, rfl, rfl, rfl⟩
  | publishing event rest attempt =>
    have hcounted : ∀ q : EventProducer ε, q.tally = p.tally + 1 → q.batch = p.batch →
        q.config = p.config → ∃ settled,
          event :: rest = settled ++ (publishBatch rest q).2.pending ∧
          (publishBatch rest q).1.tally = p.tally + settled.length ∧
          (publishBatch rest q).1.batch = p.batch ∧ (publishBatch rest q).1.config = p.config := by
      intro q hq hqbatch hqconfig
      obtain ⟨settled, hsettled, htally, hbatch, hconfig⟩ := publishBatch_spec rest q
      refine ⟨event :: settled, ?_, ?_, hbatch.trans hqbatch, hconfig.trans hqconfig⟩
      · rw [List.cons_append, ← hsettled]
      · rw [htally, hq, List.length_cons]
        omega
    unfold resumeFlush attempted
    dsimp only [FlushState.pending]
    split_ifs
    · exact hcounted p.countPublished (Nat.add_right_comm _ _ _) rfl rfl
    · exact ⟨[], rfl, rfl, rfl, rfl⟩
    · exact hcounted p.countFailed rfl rfl rfl

end EventProducer

/-- The batch task : not started, between two flushes, in one, or over. -/
inductive BatchTask
  | absent
  | sleeping
  | flushing (state : FlushState ℕ)
  | ended
  deriving DecidableEq

/-- The call of `stop` : still to come, waiting for the batch task, in its flush, or over. -/
inductive StopCall
  | uncalled
  | joining
  | flushing (state : FlushState ℕ)
  | returned
  deriving DecidableEq

/-- The producer with its batch task and the call of `stop`. Events are numbered in the order
in which they are accepted. `accepted` is their number, `counted` has those that are counted
in `events_published` or `events_failed`, `lost` those of a flush that was cancelled, and
`refused` says for how many publishes the event could not be made. -/
structure StopSystem where
  producer : EventProducer ℕ
  batchTask : BatchTask := .absent
  stopCall : StopCall := .uncalled
  accepted : ℕ := 0
  counted : List ℕ := []
  lost : List ℕ := []
  refused : ℕ := 0

/-- A step. `wake` ends a sleep of the batch task between two flushes, `resume` an await in
its flush, and `resumeStop` one in the flush of `stop`. -/
inductive StopEvent
  | start
  | publish
  | refuse
  | wake
  | resume (success : Bool)
  | stop
  | cancelled
  | joined
  | resumeStop (success : Bool)

namespace BatchTask

/-- The events of the flush that the task is in. -/
def pending : BatchTask → List ℕ
  | flushing state => state.pending
  | _ => []

/-- The batch task goes on after a part of its flush. -/
def ofFlush : FlushState ℕ → BatchTask
  | .ended => sleeping
  | state => flushing state

end BatchTask

namespace StopCall

/-- The events of the flush that the call is in. -/
def pending : StopCall → List ℕ
  | flushing state => state.pending
  | _ => []

/-- The call goes on after a part of its flush. -/
def ofFlush : FlushState ℕ → StopCall
  | .ended => returned
  | state => flushing state

end StopCall

namespace StopSystem

variable (s : StopSystem)

/-- A part of a flush of the events `before` is done. -/
def flushed (before : List ℕ) (r : EventProducer ℕ × FlushState ℕ) : StopSystem :=
  { s with
    producer := r.1
    counted := s.counted ++ before.take (before.length - r.2.pending.length) }

/-- `_flush_batch` up to its first suspension. -/
def flushBatch : StopSystem × FlushState ℕ :=
  if s.producer.batch.isEmpty then (s, .ended)
  else
    let r := EventProducer.publishBatch s.producer.batch s.producer.clear
    (s.flushed s.producer.batch r, r.2)

/-- One step. -/
def step : StopEvent → Option StopSystem
  | .start =>
    match s.batchTask, s.stopCall with
    | .absent, .uncalled => some { s with batchTask := .sleeping }
    | _, _ => none
  | .publish =>
    if (s.producer.batch.length : ℤ) + 1 < s.producer.config.batchSize then
      some { s with producer := s.producer.append s.accepted, accepted := s.accepted + 1 }
    else none
  | .refuse => some { s with producer := s.producer.countFailed, refused := s.refused + 1 }
  | .wake =>
    match s.batchTask, s.stopCall with
    | .sleeping, .uncalled =>
      some { s.flushBatch.1 with batchTask := .ofFlush s.flushBatch.2 }
    | _, _ => none
  | .resume success =>
    match s.batchTask, s.stopCall with
    | .flushing state, .uncalled =>
      let r := s.producer.resumeFlush success state
      some { s.flushed state.pending r with batchTask := .ofFlush r.2 }
    | _, _ => none
  | .stop =>
    match s.batchTask, s.stopCall with
    | .absent, .uncalled => some { s.flushBatch.1 with stopCall := .ofFlush s.flushBatch.2 }
    | _, .uncalled => some { s with stopCall := .joining }
    | _, _ => none
  | .cancelled =>
    match s.batchTask, s.stopCall with
    | .ended, _ => none
    | task, .joining => some { s with batchTask := .ended, lost := s.lost ++ task.pending }
    | _, _ => none
  | .joined =>
    match s.batchTask, s.stopCall with
    | .ended, .joining => some { s.flushBatch.1 with stopCall := .ofFlush s.flushBatch.2 }
    | _, _ => none
  | .resumeStop success =>
    match s.stopCall with
    | .flushing state =>
      let r := s.producer.resumeFlush success state
      some { s.flushed state.pending r with stopCall := .ofFlush r.2 }
    | _ => none

/-- The events that were accepted first are counted once each, and if no event was accepted
after them and none refused, the two counters add up to their number. -/
def Accounted (first : ℕ) : Prop :=
  (∀ id < first, s.counted.count id = 1) ∧
    (s.accepted = first → s.refused = 0 → s.producer.tally = first)

variable {s} {t : StopSystem} {e : StopEvent}

/-! ## What a flush does -/

@[simp] theorem pending_ofFlush_task (state : FlushState ℕ) :
    (BatchTask.ofFlush state).pending = state.pending := by
  cases state <;> rfl

@[simp] theorem pending_ofFlush_call (state : FlushState ℕ) :
    (StopCall.ofFlush state).pending = state.pending := by
  cases state <;> rfl

theorem ofFlush_ne (state : FlushState ℕ) :
    StopCall.ofFlush state ≠ .uncalled ∧ StopCall.ofFlush state ≠ .joining := by
  cases state <;> exact ⟨nofun, nofun⟩

theorem counted_flushed {before settled : List ℕ} {r : EventProducer ℕ × FlushState ℕ}
    (h : before = settled ++ r.2.pending) :
    (s.flushed before r).counted = s.counted ++ settled := by
  have hlength : before.length - r.2.pending.length = settled.length := by
    rw [h, List.length_append, Nat.add_sub_cancel]
  unfold flushed
  dsimp only
  rw [hlength, h, List.take_left]

/-- A part of a flush settles some of its events, and nothing else changes. -/
theorem flushed_spec (s : StopSystem) (success : Bool) (state : FlushState ℕ) :
    let r := s.producer.resumeFlush success state
    ∃ settled, state.pending = settled ++ r.2.pending ∧
      (s.flushed state.pending r).counted = s.counted ++ settled ∧
      (s.flushed state.pending r).producer.tally = s.producer.tally + settled.length ∧
      (s.flushed state.pending r).producer.batch = s.producer.batch := by
  obtain ⟨settled, hsettled, htally, hbatch, -⟩ := s.producer.resumeFlush_spec success state
  exact ⟨settled, hsettled, counted_flushed hsettled, htally, hbatch⟩

/-- A flush that begins empties the batch, and settles some of its events. -/
theorem flushBatch_spec (s : StopSystem) :
    ∃ settled producer, s.producer.batch = settled ++ s.flushBatch.2.pending ∧
      s.flushBatch.1 = { s with producer, counted := s.counted ++ settled } ∧
      producer.tally = s.producer.tally + settled.length ∧ producer.batch = [] := by
  unfold flushBatch
  split_ifs with hempty
  · rw [List.isEmpty_iff] at hempty
    exact ⟨[], s.producer, hempty, by simp, rfl, hempty⟩
  · obtain ⟨settled, hsettled, htally, hbatch, -⟩ :=
      EventProducer.publishBatch_spec s.producer.batch s.producer.clear
    refine ⟨settled, _, hsettled, ?_, htally, hbatch⟩
    rw [← counted_flushed hsettled]
    rfl

/-! ## What a step does -/

/-- What a step does : the batch task is started, wakes up, goes on with its flush, or is
cancelled, an event is accepted or refused, or `stop` is called, begins its flush, or goes on
with it. -/
inductive Effect (s : StopSystem) : StopSystem → Prop
  | started (htask : s.batchTask = .absent) (hcall : s.stopCall = .uncalled) :
      Effect s { s with batchTask := .sleeping }
  | accepted : Effect s
      { s with producer := s.producer.append s.accepted, accepted := s.accepted + 1 }
  | refused : Effect s { s with producer := s.producer.countFailed, refused := s.refused + 1 }
  | woken (htask : s.batchTask = .sleeping) (hcall : s.stopCall = .uncalled) :
      Effect s { s.flushBatch.1 with batchTask := .ofFlush s.flushBatch.2 }
  | resumed (success : Bool) (state : FlushState ℕ) (htask : s.batchTask = .flushing state)
      (hcall : s.stopCall = .uncalled) :
      Effect s { s.flushed state.pending (s.producer.resumeFlush success state) with
        batchTask := .ofFlush (s.producer.resumeFlush success state).2 }
  | called (hcall : s.stopCall = .uncalled) : Effect s { s with stopCall := .joining }
  | cancelled (hcall : s.stopCall = .joining) :
      Effect s { s with batchTask := .ended, lost := s.lost ++ s.batchTask.pending }
  | flushes (htask : s.batchTask.pending = []) (hcall : s.stopCall.pending = []) :
      Effect s { s.flushBatch.1 with stopCall := .ofFlush s.flushBatch.2 }
  | stopResumed (success : Bool) (state : FlushState ℕ) (hcall : s.stopCall = .flushing state) :
      Effect s { s.flushed state.pending (s.producer.resumeFlush success state) with
        stopCall := .ofFlush (s.producer.resumeFlush success state).2 }

theorem effect_step (hst : s.step e = some t) : s.Effect t := by
  cases e with
  | start =>
    simp only [step] at hst
    split at hst
    · rename_i htask hcall
      obtain rfl := Option.some.inj hst
      exact .started htask hcall
    · cases hst
  | publish =>
    simp only [step] at hst
    split_ifs at hst
    obtain rfl := Option.some.inj hst
    exact .accepted
  | refuse =>
    obtain rfl := Option.some.inj hst
    exact .refused
  | wake =>
    simp only [step] at hst
    split at hst
    · rename_i htask hcall
      obtain rfl := Option.some.inj hst
      exact .woken htask hcall
    · cases hst
  | resume success =>
    simp only [step] at hst
    split at hst
    · rename_i state htask hcall
      obtain rfl := Option.some.inj hst
      exact .resumed success state htask hcall
    · cases hst
  | stop =>
    simp only [step] at hst
    split at hst
    · rename_i htask hcall
      obtain rfl := Option.some.inj hst
      exact .flushes (by rw [htask]; rfl) (by rw [hcall]; rfl)
    · rename_i hcall _
      obtain rfl := Option.some.inj hst
      exact .called hcall
    · cases hst
  | cancelled =>
    simp only [step] at hst
    split at hst
    · cases hst
    · rename_i hcall _
      obtain rfl := Option.some.inj hst
      exact .cancelled hcall
    · cases hst
  | joined =>
    simp only [step] at hst
    split at hst
    · rename_i htask hcall
      obtain rfl := Option.some.inj hst
      exact .flushes (by rw [htask]; rfl) (by rw [hcall]; rfl)
    · cases hst
  | resumeStop success =>
    simp only [step] at hst
    split at hst
    · rename_i state hcall
      obtain rfl := Option.some.inj hst
      exact .stopResumed success state hcall
    · cases hst

/-! ## Every event is accounted for -/

/-- Every accepted event is counted, lost, in a flush or in the batch, and the counters are
those of the counted events and the refused ones. -/
structure Ledger (s : StopSystem) : Prop where
  once : ∀ id, s.counted.count id + s.lost.count id + s.batchTask.pending.count id +
    s.stopCall.pending.count id + s.producer.batch.count id = if id < s.accepted then 1 else 0
  tally : s.producer.tally = s.counted.length + s.refused
  kept : s.stopCall = .uncalled → s.lost = []

theorem Ledger.init (config : ProducerConfig) :
    Ledger { producer := { config } } where
  once id := by simp [BatchTask.pending, StopCall.pending]
  tally := rfl
  kept _ := rfl

/-- A flush begins, of the batch task or of `stop`. -/
theorem Ledger.flushBatch (h : s.Ledger) {task : BatchTask} {call : StopCall}
    (hpending : s.batchTask.pending = [] ∧ s.stopCall.pending = [])
    (hflush : ∀ id, task.pending.count id + call.pending.count id =
      s.flushBatch.2.pending.count id) (hkept : call = .uncalled → s.lost = []) :
    Ledger { s.flushBatch.1 with batchTask := task, stopCall := call } := by
  obtain ⟨settled, producer, hsettled, hflushed, htally, hbatch⟩ := s.flushBatch_spec
  have hcount := fun id => congrArg (List.count id) hsettled
  rw [hflushed]
  refine ⟨fun id => ?_, ?_, hkept⟩
  · have honce := h.once id
    have hid := hcount id
    have hnew := hflush id
    rw [hpending.1, hpending.2] at honce
    rw [List.count_append] at hid
    simp only [hbatch, List.count_append, List.count_nil] at honce ⊢
    omega
  · have hold := h.tally
    simp only [htally, hold, List.length_append]
    omega

/-- A flush goes on, of the batch task or of `stop`. -/
theorem Ledger.flushed (h : s.Ledger) (success : Bool) {state : FlushState ℕ} {task : BatchTask}
    {call : StopCall}
    (hflush : ∀ id, task.pending.count id + call.pending.count id + state.pending.count id =
      s.batchTask.pending.count id + s.stopCall.pending.count id +
        (s.producer.resumeFlush success state).2.pending.count id)
    (hkept : call = .uncalled → s.lost = []) :
    Ledger { s.flushed state.pending (s.producer.resumeFlush success state) with
      batchTask := task, stopCall := call } := by
  obtain ⟨settled, hsettled, hcounted, htally, hbatch⟩ := s.flushed_spec success state
  have hcount := fun id => congrArg (List.count id) hsettled
  refine ⟨fun id => ?_, ?_, hkept⟩
  · have honce := h.once id
    have hid := hcount id
    have hnew := hflush id
    rw [List.count_append] at hid
    have hlost : (s.flushed state.pending (s.producer.resumeFlush success state)).lost = s.lost :=
      rfl
    have haccepted :
        (s.flushed state.pending (s.producer.resumeFlush success state)).accepted = s.accepted :=
      rfl
    simp only [hcounted, hbatch, hlost, haccepted, List.count_append]
    omega
  · have hold := h.tally
    have hrefused :
        (s.flushed state.pending (s.producer.resumeFlush success state)).refused = s.refused :=
      rfl
    simp only [hcounted, htally, hrefused, hold, List.length_append]
    omega

theorem Ledger.step (h : s.Ledger) (hst : s.step e = some t) : t.Ledger := by
  cases effect_step hst with
  | started htask hcall =>
    refine ⟨fun id => ?_, h.tally, h.kept⟩
    have honce := h.once id
    rw [htask] at honce
    exact honce
  | accepted =>
    refine ⟨fun id => ?_, h.tally, h.kept⟩
    have honce := h.once id
    have hsingle : List.count id [s.accepted] = if s.accepted = id then 1 else 0 := by
      simp only [List.count_singleton, beq_iff_eq]
    simp only [EventProducer.append, List.count_append, hsingle]
    split_ifs at honce ⊢ <;> omega
  | refused =>
    refine ⟨h.once, ?_, h.kept⟩
    have hfailed : s.producer.countFailed.tally = s.producer.tally + 1 := rfl
    have hold := h.tally
    dsimp only
    omega
  | woken htask hcall =>
    have hsame : s.flushBatch.1.stopCall = .uncalled := by
      obtain ⟨settled, producer, -, hflushed, -⟩ := s.flushBatch_spec
      rw [hflushed]
      exact hcall
    refine h.flushBatch ⟨by rw [htask]; rfl, by rw [hcall]; rfl⟩ (fun id => ?_)
      fun _ => h.kept hcall
    rw [pending_ofFlush_task, hsame]
    exact Nat.add_zero _
  | resumed success state htask hcall =>
    refine h.flushed success (fun id => ?_) fun _ => h.kept hcall
    have hsame : (s.flushed state.pending (s.producer.resumeFlush success state)).stopCall =
        s.stopCall := rfl
    rw [pending_ofFlush_task, htask, hsame]
    simp only [BatchTask.pending]
    omega
  | called hcall =>
    refine ⟨fun id => ?_, h.tally, fun huncalled => ?_⟩
    · have honce := h.once id
      rw [hcall] at honce
      exact honce
    · cases huncalled
  | cancelled hcall =>
    refine ⟨fun id => ?_, h.tally, fun huncalled => ?_⟩
    · have honce := h.once id
      have hended : BatchTask.ended.pending = [] := rfl
      simp only [List.count_append, hended, List.count_nil]
      omega
    · cases hcall.symm.trans huncalled
  | flushes htask hcall =>
    have hsame : s.flushBatch.1.batchTask = s.batchTask := by
      obtain ⟨settled, producer, -, hflushed, -⟩ := s.flushBatch_spec
      rw [hflushed]
    refine h.flushBatch ⟨htask, hcall⟩ (fun id => ?_) fun huncalled => ?_
    · rw [pending_ofFlush_call, hsame, htask]
      exact Nat.zero_add _
    · exact absurd huncalled (ofFlush_ne _).1
  | stopResumed success state hcall =>
    refine h.flushed success (fun id => ?_) fun huncalled => ?_
    · have hsame : (s.flushed state.pending (s.producer.resumeFlush success state)).batchTask =
          s.batchTask := rfl
      rw [pending_ofFlush_call, hcall, hsame]
      simp only [StopCall.pending]
      omega
    · exact absurd huncalled (ofFlush_ne _).1

/-! ## After the call of `stop` -/

/-- After the call of `stop`, which found `first` events accepted and the batch task in a
flush of the events `taken` : those are lost or will be, and the other events are not in the
batch any more once `stop` flushes. -/
structure Stopping (first : ℕ) (taken : List ℕ) (s : StopSystem) : Prop where
  called : s.stopCall ≠ .uncalled
  taken : s.lost ++ s.batchTask.pending = taken
  joined : s.stopCall ≠ .joining →
    s.batchTask.pending = [] ∧ ∀ id ∈ s.producer.batch, first ≤ id
  le : first ≤ s.accepted

/-- `stop` is called. -/
theorem Ledger.stopping (h : s.Ledger) (hst : s.step .stop = some t) :
    t.Stopping s.accepted s.batchTask.pending := by
  simp only [StopSystem.step] at hst
  split at hst
  · rename_i htask hcall
    obtain rfl := Option.some.inj hst
    obtain ⟨settled, producer, -, hflushed, -, hbatch⟩ := s.flushBatch_spec
    rw [hflushed, htask]
    refine ⟨(ofFlush_ne _).1, ?_, fun _ => ⟨?_, ?_⟩, le_rfl⟩
    · dsimp only
      rw [h.kept hcall]
      rfl
    · rfl
    · dsimp only
      rw [hbatch]
      exact fun id hid => absurd hid List.not_mem_nil
  · rename_i hcall _
    obtain rfl := Option.some.inj hst
    refine ⟨nofun, ?_, fun hne => absurd rfl hne, le_rfl⟩
    dsimp only
    rw [h.kept hcall, List.nil_append]
  · cases hst

theorem Stopping.step {first : ℕ} {taken : List ℕ} (h : s.Stopping first taken)
    (hst : s.step e = some t) : t.Stopping first taken := by
  cases effect_step hst with
  | started htask hcall => exact absurd hcall h.called
  | accepted =>
    refine ⟨h.called, h.taken, fun hcall => ⟨(h.joined hcall).1, fun id hid => ?_⟩,
      h.le.trans (Nat.le_succ _)⟩
    rcases List.mem_append.mp hid with hid | hid
    · exact (h.joined hcall).2 id hid
    · rw [List.mem_singleton.mp hid]
      exact h.le
  | refused => exact ⟨h.called, h.taken, h.joined, h.le⟩
  | woken htask hcall => exact absurd hcall h.called
  | resumed success state htask hcall => exact absurd hcall h.called
  | called hcall => exact absurd hcall h.called
  | cancelled hcall =>
    refine ⟨h.called, ?_, fun hne => absurd hcall hne, h.le⟩
    rw [← h.taken]
    exact List.append_nil _
  | flushes htask hcall =>
    obtain ⟨settled, producer, -, hflushed, -, hbatch⟩ := s.flushBatch_spec
    rw [hflushed]
    refine ⟨(ofFlush_ne _).1, h.taken, fun _ => ⟨htask, ?_⟩, h.le⟩
    dsimp only
    rw [hbatch]
    exact fun id hid => absurd hid List.not_mem_nil
  | stopResumed success state hcall =>
    obtain ⟨hpending, hbatch⟩ := h.joined (by rw [hcall]; exact nofun)
    obtain ⟨-, -, -, -, hsame⟩ := s.flushed_spec success state
    refine ⟨(ofFlush_ne _).1, h.taken, fun _ => ⟨hpending, ?_⟩, h.le⟩
    dsimp only
    rw [hsame]
    exact hbatch

/-- When `stop` returns, the events that it found are counted exactly when it found the
batch task in no flush. -/
theorem Stopping.accounted {first : ℕ} {taken : List ℕ} (h : s.Stopping first taken)
    (hledger : s.Ledger) (htaken : ∀ id ∈ taken, id < first) (hreturned : s.stopCall = .returned) :
    s.Accounted first ↔ taken = [] := by
  obtain ⟨hpending, hbatch⟩ := h.joined (by rw [hreturned]; exact nofun)
  have hlost : s.lost = taken := by
    rw [← h.taken, hpending, List.append_nil]
  have honce : ∀ id, s.counted.count id + s.lost.count id + s.producer.batch.count id =
      if id < s.accepted then 1 else 0 := by
    intro id
    have hid := hledger.once id
    rw [hpending, hreturned] at hid
    exact hid
  constructor
  · rintro ⟨hcounted, -⟩
    rw [List.eq_nil_iff_forall_not_mem]
    intro id hid
    have hone := hcounted id (htaken id hid)
    have hid' := honce id
    have hpos : 0 < s.lost.count id := List.count_pos_iff.mpr (hlost ▸ hid)
    split_ifs at hid' <;> omega
  · rintro rfl
    have hnone : ∀ id < first, s.counted.count id = 1 := by
      intro id hid
      have hid' := honce id
      have hnot : s.producer.batch.count id = 0 :=
        List.count_eq_zero.mpr fun hmem => absurd hid (Nat.not_lt.mpr (hbatch id hmem))
      rw [hlost, List.count_nil, hnot, if_pos (hid.trans_le h.le)] at hid'
      exact hid'
    refine ⟨hnone, fun haccepted hrefused => ?_⟩
    have hperm : s.counted.Perm (List.range s.accepted) := by
      rw [List.perm_iff_count]
      intro id
      rw [List.count_range]
      by_cases hid : id < s.accepted
      · rw [if_pos hid]
        exact hnone id (haccepted ▸ hid)
      · have hid' := honce id
        rw [if_neg hid] at hid' ⊢
        omega
    rw [hledger.tally, hrefused, hperm.length_eq, List.length_range, haccepted]
    rfl

end StopSystem

/-- A new producer that is not started. -/
def stopMachine (config : ProducerConfig) : Machine StopSystem StopEvent where
  init := { producer := { config } }
  step := StopSystem.step

/-- When `stop` returns, every event that was accepted before its call is counted once
exactly when it was called while the batch task was in no flush. -/
theorem events_accounted_iff (config : ProducerConfig) (es fs : List StopEvent)
    (s t : StopSystem) (h : (stopMachine config).Run (fun _ _ => True) es s)
    (hstop : (stopMachine config).Run (fun _ _ => True) (es ++ .stop :: fs) t)
    (hreturned : t.stopCall = .returned) :
    t.Accounted s.accepted ↔ s.batchTask.pending = [] := by
  have hledger : ∀ {es : List StopEvent} {s : StopSystem},
      (stopMachine config).Run (fun _ _ => True) es s → s.Ledger := fun hrun =>
    hrun.invariant (StopSystem.Ledger.init config) fun _ _ _ hs _ hst => hs.step hst
  have hsplit : es ++ .stop :: fs = (es ++ [.stop]) ++ fs := by
    rw [List.append_assoc, List.singleton_append]
  rw [hsplit] at hstop
  obtain ⟨u, hu⟩ := hstop.of_prefix (List.prefix_append _ fs)
  obtain ⟨s', hs', -, hst⟩ := hu.snoc_inv
  obtain rfl := h.unique hs'
  have hstopping := hstop.invariant_append hu ((hledger h).stopping hst)
    fun _ _ _ hs _ hst => hs.step hst
  refine hstopping.accounted (hledger hstop) (fun id hid => ?_) hreturned
  have honce := (hledger h).once id
  have hpos : 0 < s.batchTask.pending.count id := List.count_pos_iff.mpr hid
  by_contra hlt
  rw [if_neg hlt] at honce
  omega

/-- Two events are published by the batch task, the second at its second attempt, and the
third by `stop`. -/
theorem events_accounted_between :
    ∃ t, (stopMachine {}).Run (fun _ _ => True)
      ([.start, .publish, .publish, .wake, .resume true, .resume false, .resume true, .resume true,
        .publish] ++ .stop :: [.cancelled, .joined, .resumeStop true]) t ∧
      t.stopCall = .returned ∧ t.Accounted 3 := by
  obtain ⟨s, hs, hbefore⟩ := Machine.exists_run (stopMachine {}) (fun _ _ => True)
    [.start, .publish, .publish, .wake, .resume true, .resume false, .resume true, .resume true,
      .publish] (fun s => decide (s.accepted = 3 ∧ s.batchTask.pending = [])) (by decide +kernel)
  obtain ⟨t, ht, hreturned⟩ := Machine.exists_run (stopMachine {}) (fun _ _ => True)
    ([.start, .publish, .publish, .wake, .resume true, .resume false, .resume true, .resume true,
      .publish] ++ .stop :: [.cancelled, .joined, .resumeStop true])
    (fun t => decide (t.stopCall = .returned)) (by decide +kernel)
  obtain ⟨haccepted, hpending⟩ := of_decide_eq_true hbefore
  have hcall := of_decide_eq_true hreturned
  refine ⟨t, ht, hcall, ?_⟩
  rw [← haccepted]
  exact (events_accounted_iff {} _ _ s t hs ht hcall).mpr hpending

/-- `stop` is called while the batch task publishes an event, which is not counted. -/
theorem not_events_accounted :
    ¬∀ (config : ProducerConfig) (es fs : List StopEvent) (s t : StopSystem),
      (stopMachine config).Run (fun _ _ => True) es s →
      (stopMachine config).Run (fun _ _ => True) (es ++ .stop :: fs) t →
      t.stopCall = .returned → t.Accounted s.accepted := by
  intro h
  obtain ⟨s, hs, hbefore⟩ := Machine.exists_run (stopMachine {}) (fun _ _ => True)
    [.start, .publish, .wake] (fun s => decide (s.accepted = 1)) (by decide +kernel)
  obtain ⟨t, ht, hafter⟩ := Machine.exists_run (stopMachine {}) (fun _ _ => True)
    ([.start, .publish, .wake] ++ .stop :: [.cancelled, .joined])
    (fun t => decide (t.stopCall = .returned ∧ t.counted = [])) (by decide +kernel)
  obtain ⟨hreturned, hcounted⟩ := of_decide_eq_true hafter
  have hcount := (h {} _ _ s t hs ht hreturned).1 0 (by rw [of_decide_eq_true hbefore]; decide)
  rw [hcounted] at hcount
  exact absurd hcount (by decide)

end MultiAgent
