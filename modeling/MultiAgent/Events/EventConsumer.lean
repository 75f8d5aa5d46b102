import Mathlib.Algebra.BigOperators.Group.List.Basic
import MultiAgent.Events.DLQRemovals
import MultiAgent.Lib.Permits

/-!
# Event consumers

`EventConsumer` of `libs/events/event_consumer.py`, with the dead letter queue that it makes for
itself. Every event is handled in a task of its own : it gets a permit of the semaphore, calls
the handler until a call returns or no attempt is left, sends the event to the dead letter queue
if none did, and gives the permit back. `consumerMachine` interleaves any number of tasks with
each other and with the loops of the queue. A task may be cancelled wherever it is suspended.

No event is lost without a trace (`accounted_of_run`). A dead letter is in the queue with its
event and its last reason, unless it was evicted or expired : the consumer gives its queue no
event bus, so nothing is ever retried from it. The counters agree with what became of the events,
and with what the queue counts (`counters_of_run`).

The table of `_get_subject_for_event_type` names types that `libs/events/event_types.py` does not
have, so the subject of an event is a parameter, and `none` if looking it up raises.
-/

namespace MultiAgent

namespace Consumers

open DLQ
open Semaphore (Stage Balances)

/-- `ConsumerConfig`. How long calls and sleeps take is up to the run. -/
structure ConsumerConfig where
  maxConcurrentEvents : ℕ := 10
  retryAttempts : ℤ := 3
  enableDlq : Bool := true
  dlqConfig : DLQConfig := {}

/-- `_stats`. -/
structure ConsumerStats where
  eventsProcessed : ℕ := 0
  eventsFailed : ℕ := 0
  eventsRetried : ℕ := 0
  eventsDlq : ℕ := 0
  concurrentEvents : ℕ := 0

/-- How `wait_for` of a call of the handler ends. -/
inductive HandlerEnd
  | returned
  | timedOut
  | raised (text : String)
  deriving DecidableEq

/-- How `_handle_event` ends : there is no handler; a call of it returned; the event went to the
dead letter queue, as the entry of the number; it was counted as failed, for want of a queue;
the configuration allows no attempt; an exception was raised; the task was cancelled. -/
inductive Ended
  | unhandled
  | processed
  | deadLettered (entry : ℕ)
  | failed
  | untried
  | raised
  | cancelled
  deriving DecidableEq

/-- Where a task is : it has not begun, waits for a permit, has one, or waits for the handler or
for the sleep between two attempts. -/
inductive Phase
  | entering
  | waiting
  | entered
  | handling
  | sleeping
  | ended (e : Ended)
  deriving DecidableEq

/-- The task of an event, with the number of calls of the handler, and why they failed. -/
structure Task (ε : Type*) where
  event : ε
  phase : Phase := .entering
  started : ℕ := 0
  reasons : List String := []

/-- What a task does next. The clock readings are those of `send_to_dlq`, if the call was the
last and failed : no task waits for the lock of the queue, so `send_to_dlq` does not suspend. -/
inductive Action
  | acquire
  | wake
  | handled (e : HandlerEnd) (timestamp nextRetry : ℚ)
  | slept
  | cancel

/-- A step : a handler is registered for a subject, an event is delivered, the task of the `k`-th
event goes on, or the queue does, to which only the consumer sends. -/
inductive Event (ε : Type*)
  | register (subject : String)
  | deliver (event : ε)
  | act (k : ℕ) (action : Action)
  | dlq (e : RetryEvent ε)

/-- The consumer : the subjects with a handler, the semaphore, the tasks in the order in which
their events came, and `dlq_handler`. -/
structure EventConsumer (ε : Type*) where
  handlers : List String := []
  semaphore : Semaphore ℕ
  tasks : List (Task ε) := []
  stats : ConsumerStats := {}
  dlq : Option (RetrySystem ε)

variable {ε : Type*}

namespace EventConsumer

variable (config : ConsumerConfig) (subjectOf : ε → Option String) (c : EventConsumer ε) (k : ℕ)
  (task : Task ε)

/-- The `k`-th task is now this one. -/
def goTo : EventConsumer ε :=
  { c with tasks := c.tasks.set k task }

/-- The task ends, and gives its permit back. -/
def leave (e : Ended) : EventConsumer ε :=
  { c.goTo k { task with phase := .ended e } with semaphore := c.semaphore.release }

/-- The task is cancelled before it has a permit. -/
def giveUp : EventConsumer ε :=
  { c.goTo k { task with phase := .ended .cancelled } with semaphore := c.semaphore.abandon k }

/-- The loop of `_process_event` comes to its next attempt, or is over. -/
def attempt : EventConsumer ε :=
  if (task.started : ℤ) < config.retryAttempts then
    c.goTo k { task with phase := .handling, started := task.started + 1 }
  else c.leave k task .untried

/-- `_process_event` up to its first suspension. -/
def processEvent : EventConsumer ε :=
  match subjectOf task.event with
  | none => c.leave k task .raised
  | some subject =>
    if subject ∈ c.handlers then c.attempt config k task else c.leave k task .unhandled

/-- `_handle_event` with a permit. What it counts as concurrent are the permits that are left. -/
def enter (semaphore : Semaphore ℕ) : EventConsumer ε :=
  let task := { task with phase := .entered }
  let c := { c.goTo k task with
    semaphore
    stats := { c.stats with concurrentEvents := semaphore.value } }
  c.processEvent config subjectOf k task

/-- `_send_to_dlq`, the last thing that a task does. -/
def sendToDlq (reason : String) (timestamp nextRetry : ℚ) : EventConsumer ε :=
  match c.dlq with
  | none =>
    { c.leave k task .failed with
      stats := { c.stats with eventsFailed := c.stats.eventsFailed + 1 } }
  | some dlq =>
    match dlq.handler.sendToDlq task.event reason timestamp nextRetry with
    | .error _ => c.leave k task .raised
    | .ok _ =>
      { c.leave k task (.deadLettered dlq.handler.dlqEvents.made) with
        stats := { c.stats with eventsDlq := c.stats.eventsDlq + 1 }
        dlq := some (dlq.send task.event reason timestamp nextRetry) }

/-- A call of the handler failed. -/
def fail (reason : String) (timestamp nextRetry : ℚ) : EventConsumer ε :=
  let task := { task with reasons := task.reasons ++ [reason] }
  if (task.started : ℤ) < config.retryAttempts then c.goTo k { task with phase := .sleeping }
  else c.sendToDlq k task reason timestamp nextRetry

/-- A step of the `k`-th task. -/
def act (action : Action) : Option (EventConsumer ε) :=
  match task.phase, action with
  | .entering, .acquire =>
    if c.semaphore.locked then
      some { c.goTo k { task with phase := .waiting } with semaphore := c.semaphore.wait k }
    else some (c.enter config subjectOf k task c.semaphore.take)
  | .waiting, .wake =>
    if c.semaphore.woken k then some (c.enter config subjectOf k task (c.semaphore.resume k))
    else none
  | .entering, .cancel => some (c.giveUp k task)
  | .waiting, .cancel => some (c.giveUp k task)
  | .handling, .handled .returned _ _ =>
    some { c.leave k task .processed with
      stats := { c.stats with eventsProcessed := c.stats.eventsProcessed + 1 } }
  | .handling, .handled .timedOut timestamp nextRetry =>
    some (c.fail config k task "timeout" timestamp nextRetry)
  | .handling, .handled (.raised text) timestamp nextRetry =>
    some (c.fail config k task text timestamp nextRetry)
  | .handling, .cancel => some (c.leave k task .cancelled)
  | .sleeping, .slept =>
    let stats := { c.stats with eventsRetried := c.stats.eventsRetried + 1 }
    some ({ c with stats }.attempt config k task)
  | .sleeping, .cancel => some (c.leave k task .cancelled)
  | _, _ => none

/-- A step of the loops of the queue. -/
def stepDlq : RetryEvent ε → Option (EventConsumer ε)
  | .send _ _ _ _ => none
  | e =>
    match c.dlq with
    | some dlq => (dlq.step e).map fun dlq => { c with dlq := some dlq }
    | none => none

/-- One step. -/
def step : Event ε → Option (EventConsumer ε)
  | .register subject => some { c with handlers := subject :: c.handlers }
  | .deliver event => some { c with tasks := c.tasks ++ [{ event }] }
  | .act k action =>
    match c.tasks[k]? with
    | some task => c.act config subjectOf k task action
    | none => none
  | .dlq e => c.stepDlq e

end EventConsumer

/-- A new consumer. -/
def consumerMachine (config : ConsumerConfig) (subjectOf : ε → Option String) :
    Machine (EventConsumer ε) (Event ε) where
  init := {
    semaphore := { value := config.maxConcurrentEvents }
    dlq := if config.enableDlq then some (retryMachine ε config.dlqConfig false).init else none }
  step c e := c.step config subjectOf e

/-! ## The dead letter queue of a consumer -/

/-- The queue has no event bus, so nothing waits for a retry and nothing was retried; what left
it was evicted or expired. -/
structure Quiet (d : RetrySystem ε) : Prop where
  bus : d.handler.eventBus = false
  passes : ∀ p ∈ d.passes, p = []
  republished : d.republished = []
  gone : d.Gone
  justified : d.Justified

namespace Quiet

variable {d d' : RetrySystem ε}

theorem new (dlqConfig : DLQConfig) :
    Quiet (retryMachine ε dlqConfig false).init where
  bus := rfl
  passes _ hp := absurd hp List.not_mem_nil
  republished := rfl
  gone _ hid := absurd hid List.not_mem_nil
  justified id hid := absurd hid (Nat.not_lt_zero id)

/-- No `publish` is waited for. -/
theorem answered (h : Quiet d) (pass : ℕ) (answer : Republish) (now : ℚ) :
    d.answered pass answer now = none := by
  unfold RetrySystem.answered
  split
  · rename_i index entry retries hpass
    exact absurd (h.passes _ (List.mem_of_getElem? hpass)) (by simp)
  · rfl

/-- An entry that left was evicted or expired. -/
theorem queued_or (h : Quiet d) {i : ℕ} (hi : i < d.handler.dlqEvents.made) :
    i ∈ d.queued ∨ i ∈ d.evicted ∨ i ∈ d.expired := by
  have hjust := h.justified i hi
  rw [h.republished] at hjust
  simpa using hjust

theorem step (h : Quiet d) {e : RetryEvent ε} (hst : d.step e = some d') : Quiet d' := by
  have hplace : d.InPlace e := by
    cases e with
    | answer pass answer now => simp [RetrySystem.step, h.answered] at hst
    | _ => trivial
  have hjust := (RetrySystem.justified_step_iff h.gone h.justified hst).mpr hplace
  have hgone := h.gone.step hst
  cases e with
  | send event reason timestamp nextRetry =>
    obtain rfl := Option.some.inj hst
    unfold RetrySystem.send DLQHandler.sendToDlq at hjust hgone ⊢
    dsimp only at hjust hgone ⊢
    split_ifs at hjust hgone ⊢
    all_goals exact ⟨h.bus, h.passes, h.republished, hgone, hjust⟩
  | cleanup now =>
    obtain rfl := Option.some.inj hst
    exact ⟨h.bus, h.passes, h.republished, hgone, hjust⟩
  | begin now =>
    obtain rfl := Option.some.inj hst
    refine ⟨h.bus, fun p hp => ?_, h.republished, hgone, hjust⟩
    rcases List.mem_append.mp hp with hp | hp
    · exact h.passes p hp
    · rw [List.mem_singleton.mp hp, DLQHandler.eventsToRetry, h.bus]
      rfl
  | answer pass answer now => simp [RetrySystem.step, h.answered] at hst

end Quiet

/-- What `send_to_dlq` leaves in the queue : what was in it, or the new entry. -/
theorem sendToDlq_ok {h h' : DLQHandler ε} {event : ε} {reason : String} {timestamp nextRetry : ℚ}
    (hsent : h.sendToDlq event reason timestamp nextRetry = .ok h') :
    h'.config = h.config ∧ h'.dlqEvents.made = h.dlqEvents.made + 1 ∧
    h'.stats.eventsReceived = h.stats.eventsReceived + 1 ∧
    ∀ e ∈ h'.dlqEvents.entries, e ∈ h.dlqEvents.entries ∨
      e = { id := h.dlqEvents.made, event, reason, timestamp, nextRetry } := by
  unfold DLQHandler.sendToDlq at hsent
  dsimp only at hsent
  split_ifs at hsent
  · obtain rfl := Except.ok.inj hsent
    refine ⟨rfl, rfl, rfl, fun e he => ?_⟩
    rcases List.mem_append.mp he with he | he
    · exact Or.inl (List.mem_of_mem_eraseIdx he)
    · exact Or.inr (List.mem_singleton.mp he)
  · obtain rfl := Except.ok.inj hsent
    refine ⟨rfl, rfl, rfl, fun e he => ?_⟩
    rcases List.mem_append.mp he with he | he
    · exact Or.inl he
    · exact Or.inr (List.mem_singleton.mp he)

/-- `send_to_dlq` raises only if no letter fits in the queue. -/
theorem sendToDlq_error {h : DLQHandler ε} {event : ε} {reason : String}
    {timestamp nextRetry : ℚ} {e : IndexError}
    (hsent : h.sendToDlq event reason timestamp nextRetry = .error e) :
    h.config.maxDlqSize ≤ 0 := by
  unfold DLQHandler.sendToDlq at hsent
  dsimp only at hsent
  split_ifs at hsent with hfull hempty
  simpa [DLQHandler.full, hempty] using hfull

/-- What the queue knows of the letters that the tasks sent : each made one entry, and an entry
that is still there has the event and the last reason of its task. -/
structure Letters (config : ConsumerConfig) (tasks : List (Task ε)) (sent : ℕ)
    (d : RetrySystem ε) : Prop where
  quiet : Quiet d
  config : d.handler.config = config.dlqConfig
  made : d.handler.dlqEvents.made = sent
  received : d.handler.stats.eventsReceived = sent
  one : ∀ i, tasks.countP (fun t => t.phase = .ended (.deadLettered i)) = if i < sent then 1 else 0
  own : ∀ e ∈ d.handler.dlqEvents.entries, ∃ t ∈ tasks,
    t.phase = .ended (.deadLettered e.id) ∧ t.event = e.event ∧ t.reasons.getLast? = some e.reason

namespace Letters

variable {config : ConsumerConfig} {tasks : List (Task ε)} {n k : ℕ} {d d' : RetrySystem ε}
  {x y : Task ε}

theorem new (config : ConsumerConfig) :
    Letters config [] 0 (retryMachine ε config.dlqConfig false).init where
  quiet := .new config.dlqConfig
  config := rfl
  made := rfl
  received := rfl
  one i := by simp
  own e he := absurd he List.not_mem_nil

/-- A task that did not end comes. -/
theorem add (h : Letters config tasks n d) (hx : ∀ i, x.phase ≠ .ended (.deadLettered i)) :
    Letters config (tasks ++ [x]) n d where
  quiet := h.quiet
  config := h.config
  made := h.made
  received := h.received
  one i := by
    rw [List.countP_append, h.one i]
    simp [hx i]
  own e he := by
    obtain ⟨t, ht, hown⟩ := h.own e he
    exact ⟨t, List.mem_append_left _ ht, hown⟩

/-- A task that sent a letter is still there after another one went on. -/
theorem mem_set (hk : tasks[k]? = some x) (hx : ∀ i, x.phase ≠ .ended (.deadLettered i))
    {t : Task ε} (ht : t ∈ tasks) {i : ℕ} (hphase : t.phase = .ended (.deadLettered i)) :
    t ∈ tasks.set k y := by
  obtain ⟨j, hj⟩ := List.mem_iff_getElem?.mp ht
  refine List.mem_of_getElem? (i := j) ?_
  rw [List.getElem?_set_ne, hj]
  rintro rfl
  obtain rfl := Option.some.inj (hk.symm.trans hj)
  exact hx i hphase

/-- A task that sent no letter goes on, and sends none. -/
theorem set (h : Letters config tasks n d) (hk : tasks[k]? = some x)
    (hx : ∀ i, x.phase ≠ .ended (.deadLettered i))
    (hy : ∀ i, y.phase ≠ .ended (.deadLettered i)) : Letters config (tasks.set k y) n d where
  quiet := h.quiet
  config := h.config
  made := h.made
  received := h.received
  one i := by
    have hcount := countP_set_add (fun t : Task ε => t.phase = .ended (.deadLettered i)) hk (y := y)
    simp only [decide_eq_true_eq, hx i, hy i, if_false, add_zero] at hcount
    rw [hcount, h.one i]
  own e he := by
    obtain ⟨t, ht, hphase, hown⟩ := h.own e he
    exact ⟨t, mem_set hk hx ht hphase, hphase, hown⟩

/-- A task sends its letter. -/
theorem send (h : Letters config tasks n d) (hk : tasks[k]? = some x)
    (hx : ∀ i, x.phase ≠ .ended (.deadLettered i)) {reason : String} {timestamp nextRetry : ℚ}
    (hphase : y.phase = .ended (.deadLettered n)) (hreason : y.reasons.getLast? = some reason)
    {handler : DLQHandler ε}
    (hsent : d.handler.sendToDlq y.event reason timestamp nextRetry = .ok handler) :
    Letters config (tasks.set k y) (n + 1) (d.send y.event reason timestamp nextRetry) := by
  have hquiet := h.quiet.step (e := .send y.event reason timestamp nextRetry) rfl
  have hhandler : (d.send y.event reason timestamp nextRetry).handler = handler := by
    unfold RetrySystem.send
    rw [hsent]
  obtain ⟨hconfig, hmade, hreceived, hentries⟩ := sendToDlq_ok hsent
  refine ⟨hquiet, ?_, ?_, ?_, fun i => ?_, fun e he => ?_⟩
  · rw [hhandler, hconfig, h.config]
  · rw [hhandler, hmade, h.made]
  · rw [hhandler, hreceived, h.received]
  · have hcount := countP_set_add (fun t : Task ε => t.phase = .ended (.deadLettered i)) hk (y := y)
    simp only [decide_eq_true_eq, hx i, hphase, if_false, add_zero, h.one i,
      Phase.ended.injEq, Ended.deadLettered.injEq] at hcount
    rw [hcount]
    split_ifs <;> omega
  · rw [hhandler] at he
    rcases hentries e he with he | rfl
    · obtain ⟨t, ht, hown⟩ := h.own e he
      exact ⟨t, mem_set hk hx ht hown.1, hown⟩
    · obtain ⟨hlt, -⟩ := List.getElem?_eq_some_iff.mp hk
      exact ⟨y, List.mem_set hlt y, by rw [hphase, h.made], rfl, hreason⟩

/-- A letter is of one task. -/
theorem unique (h : Letters config tasks n d) (hx : x ∈ tasks) (hy : y ∈ tasks) {i : ℕ}
    (hxi : x.phase = .ended (.deadLettered i)) (hyi : y.phase = .ended (.deadLettered i)) :
    x = y := by
  have hone := h.one i
  have hpos : 0 < tasks.countP fun t => t.phase = .ended (.deadLettered i) :=
    List.countP_pos_iff.mpr ⟨x, hx, decide_eq_true hxi⟩
  rw [List.countP_eq_length_filter] at hone hpos
  split_ifs at hone
  · obtain ⟨z, hz⟩ := List.length_eq_one_iff.mp hone
    have hmem : ∀ t ∈ tasks, t.phase = .ended (.deadLettered i) → t = z := fun t ht hti => by
      have hfilter : t ∈ tasks.filter fun t => t.phase = .ended (.deadLettered i) :=
        List.mem_filter.mpr ⟨ht, decide_eq_true hti⟩
      rw [hz] at hfilter
      exact List.mem_singleton.mp hfilter
    rw [hmem x hx hxi, hmem y hy hyi]
  · omega

/-- A letter is in the queue, was evicted or expired. -/
theorem found (h : Letters config tasks n d) (hx : x ∈ tasks) {i : ℕ}
    (hxi : x.phase = .ended (.deadLettered i)) :
    (∃ e ∈ d.handler.dlqEvents.entries,
      e.id = i ∧ e.event = x.event ∧ x.reasons.getLast? = some e.reason) ∨
    i ∈ d.evicted ∨ i ∈ d.expired := by
  have hlt : i < d.handler.dlqEvents.made := by
    have hone := h.one i
    have hpos : 0 < tasks.countP fun t => t.phase = .ended (.deadLettered i) :=
      List.countP_pos_iff.mpr ⟨x, hx, decide_eq_true hxi⟩
    rw [h.made]
    split_ifs at hone with hlt
    · exact hlt
    · omega
  rcases h.quiet.queued_or hlt with hqueued | hleft
  · obtain ⟨e, he, rfl⟩ := List.mem_map.mp hqueued
    obtain ⟨t, ht, hti, hevent, hreason⟩ := h.own e he
    obtain rfl := h.unique ht hx hti hxi
    exact Or.inl ⟨e, he, rfl, hevent.symm, hreason⟩
  · exact Or.inr hleft

/-- The loops of the queue go on. -/
theorem step (h : Letters config tasks n d) {e : RetryEvent ε}
    (he : ∀ event reason timestamp nextRetry, e ≠ .send event reason timestamp nextRetry)
    (hst : d.step e = some d') : Letters config tasks n d' := by
  have hquiet := h.quiet.step hst
  cases e with
  | send event reason timestamp nextRetry =>
    exact absurd rfl (he event reason timestamp nextRetry)
  | cleanup now =>
    obtain rfl := Option.some.inj hst
    refine ⟨hquiet, h.config, h.made, h.received, h.one, fun e he => h.own e ?_⟩
    exact (List.mem_filter.mp he).1
  | begin now =>
    obtain rfl := Option.some.inj hst
    exact ⟨hquiet, h.config, h.made, h.received, h.one, h.own⟩
  | answer pass answer now => simp [RetrySystem.step, h.quiet.answered] at hst

end Letters

/-! ## What becomes of an event -/

namespace Phase

/-- Where a task is at the semaphore. -/
def stage : Phase → Stage
  | .entering => .outside
  | .waiting => .waiting
  | .ended _ => .outside
  | _ => .inside

/-- The task has not ended. -/
def live : Phase → Bool
  | .ended _ => false
  | _ => true

/-- The task sent its event to the dead letter queue. -/
def isDead : Phase → Bool
  | .ended (.deadLettered _) => true
  | _ => false

theorem ne_ended {p : Phase} (h : p.live = true) (e : Ended) : p ≠ .ended e := by
  rintro rfl
  cases h

theorem isDead_of_live {p : Phase} (h : p.live = true) : p.isDead = false := by
  cases p with
  | ended e => cases h
  | _ => rfl

theorem ne_deadLettered {p : Phase} (h : p.isDead = false) (i : ℕ) :
    p ≠ .ended (.deadLettered i) := by
  rintro rfl
  cases h

end Phase

namespace Task

variable (config : ConsumerConfig) (subjectOf : ε → Option String) (t : Task ε)

/-- All attempts were made, and failed. -/
def Exhausted : Prop :=
  t.started = t.reasons.length ∧ 0 < t.started ∧ (t.started : ℤ) = config.retryAttempts

/-- What a task has done that is at its phase. -/
def Fits : Prop :=
  match t.phase with
  | .entering => t.started = 0 ∧ t.reasons = []
  | .waiting => t.started = 0 ∧ t.reasons = []
  | .entered => t.started = 0 ∧ t.reasons = []
  | .handling => t.started = t.reasons.length + 1 ∧ (t.started : ℤ) ≤ config.retryAttempts
  | .sleeping =>
    t.started = t.reasons.length ∧ 0 < t.started ∧ (t.started : ℤ) < config.retryAttempts
  | .ended .unhandled => t.started = 0
  | .ended .processed =>
    t.started = t.reasons.length + 1 ∧ (t.started : ℤ) ≤ config.retryAttempts
  | .ended (.deadLettered _) => t.Exhausted config ∧ config.enableDlq = true
  | .ended .failed => t.Exhausted config ∧ config.enableDlq = false
  | .ended .untried => t.started = 0 ∧ config.retryAttempts ≤ 0
  | .ended .raised =>
    t.started = 0 ∧ subjectOf t.event = none ∨
      t.Exhausted config ∧ config.enableDlq = true ∧ config.dlqConfig.maxDlqSize ≤ 0
  | .ended .cancelled => (t.started : ℤ) ≤ max 0 config.retryAttempts

end Task

/-- The counters count what the tasks did. -/
structure Counts (stats : ConsumerStats) (tasks : List (Task ε)) : Prop where
  processed : stats.eventsProcessed = tasks.countP fun t => t.phase = .ended .processed
  failed : stats.eventsFailed = tasks.countP fun t => t.phase = .ended .failed
  dead : stats.eventsDlq = tasks.countP fun t => t.phase.isDead
  retried : stats.eventsRetried = (tasks.map fun t => t.started - 1).sum

/-- A sum over the entries after one was replaced. -/
theorem sum_map_set_add {α : Type*} {l : List α} {x y : α} {k : ℕ} (f : α → ℕ)
    (h : l[k]? = some x) :
    ((l.set k y).map f).sum + f x = (l.map f).sum + f y := by
  obtain ⟨hlt, rfl⟩ := List.getElem?_eq_some_iff.mp h
  have hmap : k < (l.map f).length := by rwa [List.length_map]
  have hbefore := List.sum_set (l.map f) k (f l[k])
  have hafter := List.sum_set (l.map f) k (f y)
  rw [← List.map_set, List.set_getElem_self, if_pos hmap] at hbefore
  rw [← List.map_set, if_pos hmap] at hafter
  omega

/-- How the counters change when a task that has not ended goes on. -/
structure Tally (stats stats' : ConsumerStats) (x y : Task ε) : Prop where
  processed : stats'.eventsProcessed =
    stats.eventsProcessed + if y.phase = .ended .processed then 1 else 0
  failed : stats'.eventsFailed = stats.eventsFailed + if y.phase = .ended .failed then 1 else 0
  dead : stats'.eventsDlq = stats.eventsDlq + if y.phase.isDead then 1 else 0
  retried : stats'.eventsRetried + (x.started - 1) = stats.eventsRetried + (y.started - 1)

theorem Counts.set {stats stats' : ConsumerStats} {tasks : List (Task ε)} {k : ℕ} {x y : Task ε}
    (h : Counts stats tasks) (hk : tasks[k]? = some x) (hx : x.phase.live = true)
    (htally : Tally stats stats' x y) : Counts stats' (tasks.set k y) where
  processed := by
    have hcount := countP_set_add (fun t : Task ε => t.phase = .ended .processed) hk (y := y)
    have hbefore := h.processed
    have hafter := htally.processed
    simp only [decide_eq_true_eq, Phase.ne_ended hx, if_false] at hcount
    omega
  failed := by
    have hcount := countP_set_add (fun t : Task ε => t.phase = .ended .failed) hk (y := y)
    have hbefore := h.failed
    have hafter := htally.failed
    simp only [decide_eq_true_eq, Phase.ne_ended hx, if_false] at hcount
    omega
  dead := by
    have hcount := countP_set_add (fun t : Task ε => t.phase.isDead) hk (y := y)
    have hbefore := h.dead
    have hafter := htally.dead
    simp only [Phase.isDead_of_live hx, Bool.false_eq_true, if_false] at hcount
    omega
  retried := by
    have hsum := sum_map_set_add (fun t : Task ε => t.started - 1) hk (y := y)
    have hbefore := h.retried
    have hafter := htally.retried
    omega

/-- What every step keeps. -/
structure Kept (config : ConsumerConfig) (subjectOf : ε → Option String) (c : EventConsumer ε) :
    Prop where
  balances : Balances (fun t : Task ε => t.phase.stage) config.maxConcurrentEvents c.semaphore
    c.tasks
  fits : ∀ t ∈ c.tasks, t.Fits config subjectOf
  counts : Counts c.stats c.tasks
  enabled : c.dlq.isSome = config.enableDlq
  letters : ∀ d ∈ c.dlq, Letters config c.tasks c.stats.eventsDlq d

namespace Kept

variable {config : ConsumerConfig} {subjectOf : ε → Option String} {c c' : EventConsumer ε}
  {k : ℕ} {x y : Task ε}

/-- A task that has not ended goes on, and sends no letter. -/
theorem set (h : Kept config subjectOf c) (hk : c.tasks[k]? = some x) (hx : x.phase.live = true)
    (htasks : c'.tasks = c.tasks.set k y) (hdlq : c'.dlq = c.dlq)
    (hbalances : Balances (fun t : Task ε => t.phase.stage) config.maxConcurrentEvents
      c'.semaphore (c.tasks.set k y))
    (hfits : y.Fits config subjectOf) (htally : Tally c.stats c'.stats x y)
    (hy : y.phase.isDead = false) : Kept config subjectOf c' where
  balances := htasks ▸ hbalances
  fits t ht := by
    rw [htasks] at ht
    rcases List.mem_or_eq_of_mem_set ht with ht | rfl
    · exact h.fits t ht
    · exact hfits
  counts := htasks ▸ h.counts.set hk hx htally
  enabled := hdlq ▸ h.enabled
  letters d hd := by
    have hsame := htally.dead
    rw [hy] at hsame
    rw [htasks, hsame]
    exact (h.letters d (hdlq ▸ hd)).set hk (Phase.ne_deadLettered (Phase.isDead_of_live hx))
      (Phase.ne_deadLettered hy)

/-- A task with a permit ends. -/
theorem leave (h : Kept config subjectOf c) (hk : c.tasks[k]? = some x)
    (hx : x.phase.stage = .inside) {e : Ended} {stats : ConsumerStats}
    (hfits : Task.Fits config subjectOf { x with phase := .ended e })
    (htally : Tally c.stats stats x { x with phase := .ended e })
    (he : (Phase.ended e).isDead = false) :
    Kept config subjectOf { c.leave k x e with stats } := by
  have hlive : x.phase.live = true := by
    cases hphase : x.phase <;> first | rfl | (rw [hphase] at hx; cases hx)
  exact h.set hk hlive rfl rfl (h.balances.release hk hx rfl) hfits htally he

theorem giveUp (h : Kept config subjectOf c) (hk : c.tasks[k]? = some x)
    (hlive : x.phase.live = true) (hx : x.phase.stage ≠ .inside) (hstarted : x.started = 0) :
    Kept config subjectOf (c.giveUp k x) := by
  refine h.set hk hlive rfl rfl (h.balances.abandon hk hx rfl) ?_ ⟨rfl, rfl, rfl, rfl⟩ rfl
  have hle : ((0 : ℕ) : ℤ) ≤ max 0 config.retryAttempts := le_max_left 0 _
  rw [← hstarted] at hle
  exact hle

/-- A task that has a permit comes to its first attempt, if there is one. -/
theorem attempt (h : Kept config subjectOf c) (hk : c.tasks[k]? = some x)
    (hx : x.phase = .entered) : Kept config subjectOf (c.attempt config k x) := by
  have hfits := h.fits x (List.mem_of_getElem? hk)
  simp only [Task.Fits, hx] at hfits
  obtain ⟨hstarted, hreasons⟩ := hfits
  have hinside : x.phase.stage = .inside := by rw [hx]; rfl
  unfold EventConsumer.attempt
  split_ifs with hlt
  · refine h.set hk (by rw [hx]; rfl) rfl rfl (h.balances.stay hk hinside.symm) ?_
      ⟨rfl, rfl, rfl, ?_⟩ rfl
    · simp only [Task.Fits, hreasons, List.length_nil]
      omega
    · simp [hstarted, EventConsumer.goTo]
  · refine h.leave hk hinside ?_ ⟨rfl, rfl, rfl, rfl⟩ rfl
    simp only [Task.Fits]
    omega

theorem processEvent (h : Kept config subjectOf c) (hk : c.tasks[k]? = some x)
    (hx : x.phase = .entered) : Kept config subjectOf (c.processEvent config subjectOf k x) := by
  have hfits := h.fits x (List.mem_of_getElem? hk)
  simp only [Task.Fits, hx] at hfits
  have hinside : x.phase.stage = .inside := by rw [hx]; rfl
  unfold EventConsumer.processEvent
  split
  · rename_i hnone
    exact h.leave hk hinside (Or.inl ⟨hfits.1, hnone⟩) ⟨rfl, rfl, rfl, rfl⟩ rfl
  · split_ifs
    · exact h.attempt hk hx
    · exact h.leave hk hinside hfits.1 ⟨rfl, rfl, rfl, rfl⟩ rfl

/-- A task gets a permit. -/
theorem enter (h : Kept config subjectOf c) (hk : c.tasks[k]? = some x)
    (hlive : x.phase.live = true) (hnew : x.started = 0 ∧ x.reasons = []) {semaphore : Semaphore ℕ}
    (hbalances : Balances (fun t : Task ε => t.phase.stage) config.maxConcurrentEvents semaphore
      (c.tasks.set k { x with phase := .entered })) :
    Kept config subjectOf (c.enter config subjectOf k x semaphore) := by
  obtain ⟨hlt, -⟩ := List.getElem?_eq_some_iff.mp hk
  have hkept : Kept config subjectOf { c.goTo k { x with phase := .entered } with
      semaphore, stats := { c.stats with concurrentEvents := semaphore.value } } :=
    h.set hk hlive rfl rfl hbalances hnew ⟨rfl, rfl, rfl, rfl⟩ rfl
  exact hkept.processEvent (List.getElem?_set_self hlt) rfl

/-- A task whose attempts are used up sends its letter. -/
theorem sendToDlq (h : Kept config subjectOf c) (hk : c.tasks[k]? = some x)
    (hx : x.phase = .handling) {reason : String} {timestamp nextRetry : ℚ}
    (hy : y = { x with reasons := x.reasons ++ [reason] }) (hexhausted : y.Exhausted config) :
    Kept config subjectOf (c.sendToDlq k y reason timestamp nextRetry) := by
  obtain ⟨hlt, -⟩ := List.getElem?_eq_some_iff.mp hk
  have hlive : x.phase.live = true := by rw [hx]; rfl
  have hbalances : ∀ e, Balances (fun t : Task ε => t.phase.stage) config.maxConcurrentEvents
      c.semaphore.release (c.tasks.set k { y with phase := .ended e }) :=
    fun e => h.balances.release hk (by rw [hx]; rfl) rfl
  have hstarted : x.started = y.started := by rw [hy]
  have henabled := h.enabled
  unfold EventConsumer.sendToDlq
  split
  · rename_i hnone
    rw [hnone] at henabled
    exact h.set hk hlive rfl rfl (hbalances .failed) ⟨hexhausted, henabled.symm⟩
      ⟨rfl, rfl, rfl, by rw [hstarted]⟩ rfl
  · rename_i dlq hsome
    rw [hsome] at henabled
    have hletters := h.letters dlq hsome
    split
    · rename_i hsent
      have hsize := sendToDlq_error hsent
      rw [hletters.config] at hsize
      exact h.set hk hlive rfl rfl (hbalances .raised)
        (Or.inr ⟨hexhausted, henabled.symm, hsize⟩) ⟨rfl, rfl, rfl, by rw [hstarted]; rfl⟩ rfl
    · rename_i handler hsent
      refine ⟨hbalances _, fun t ht => ?_, h.counts.set hk hlive ⟨rfl, rfl, rfl, ?_⟩, henabled,
        fun d hd => ?_⟩
      · rcases List.mem_or_eq_of_mem_set ht with ht | rfl
        · exact h.fits t ht
        · exact ⟨hexhausted, henabled.symm⟩
      · rw [hstarted]
      · obtain rfl := Option.some.inj hd
        refine hletters.send (y := { y with phase := .ended (.deadLettered _) }) hk
          (Phase.ne_deadLettered (Phase.isDead_of_live hlive)) (by rw [hletters.made]) ?_ hsent
        rw [hy]
        simp

/-- A call failed. -/
theorem fail (h : Kept config subjectOf c) (hk : c.tasks[k]? = some x) (hx : x.phase = .handling)
    (reason : String) (timestamp nextRetry : ℚ) :
    Kept config subjectOf (c.fail config k x reason timestamp nextRetry) := by
  have hfits := h.fits x (List.mem_of_getElem? hk)
  simp only [Task.Fits, hx] at hfits
  obtain ⟨hstarted, hle⟩ := hfits
  have hlength : (x.reasons ++ [reason]).length = x.reasons.length + 1 := List.length_append
  unfold EventConsumer.fail
  dsimp only
  split_ifs with hlt
  · refine h.set hk (by rw [hx]; rfl) rfl rfl (h.balances.stay hk (by rw [hx]; rfl)) ?_
      ⟨rfl, rfl, rfl, rfl⟩ rfl
    simp only [Task.Fits]
    omega
  · refine h.sendToDlq hk hx rfl ⟨?_, ?_, ?_⟩
    all_goals dsimp only
    all_goals omega

theorem act (h : Kept config subjectOf c) (hk : c.tasks[k]? = some x) {action : Action}
    (hst : c.act config subjectOf k x action = some c') : Kept config subjectOf c' := by
  have hfits := h.fits x (List.mem_of_getElem? hk)
  unfold EventConsumer.act at hst
  split at hst
  · rename_i hx
    simp only [Task.Fits, hx] at hfits
    have hoff : x.phase.stage = .outside := by rw [hx]; rfl
    have hlive : x.phase.live = true := by rw [hx]; rfl
    split_ifs at hst with hlocked
    · obtain rfl := Option.some.inj hst
      exact h.set hk hlive rfl rfl (h.balances.wait hk hoff rfl) hfits ⟨rfl, rfl, rfl, rfl⟩ rfl
    · obtain rfl := Option.some.inj hst
      exact h.enter hk hlive hfits (h.balances.take hk hoff rfl (by simpa using hlocked))
  · rename_i hx
    simp only [Task.Fits, hx] at hfits
    split_ifs at hst with hwoken
    obtain rfl := Option.some.inj hst
    exact h.enter hk (by rw [hx]; rfl) hfits
      (h.balances.resume hk (by rw [hx]; rfl) rfl hwoken)
  · rename_i hx
    simp only [Task.Fits, hx] at hfits
    obtain rfl := Option.some.inj hst
    exact h.giveUp hk (by rw [hx]; rfl) (by rw [hx]; decide) hfits.1
  · rename_i hx
    simp only [Task.Fits, hx] at hfits
    obtain rfl := Option.some.inj hst
    exact h.giveUp hk (by rw [hx]; rfl) (by rw [hx]; decide) hfits.1
  · rename_i hx
    simp only [Task.Fits, hx] at hfits
    obtain rfl := Option.some.inj hst
    exact h.leave hk (by rw [hx]; rfl) hfits ⟨rfl, rfl, rfl, rfl⟩ rfl
  · exact Option.some.inj hst ▸ h.fail hk ‹_› _ _ _
  · exact Option.some.inj hst ▸ h.fail hk ‹_› _ _ _
  · rename_i hx
    simp only [Task.Fits, hx] at hfits
    obtain rfl := Option.some.inj hst
    exact h.leave hk (by rw [hx]; rfl) (hfits.2.trans (le_max_right 0 _)) ⟨rfl, rfl, rfl, rfl⟩ rfl
  · rename_i hx
    simp only [Task.Fits, hx] at hfits
    -- a task sleeps only if an attempt is left, so the loop goes on
    obtain ⟨hstarted, hpos, hlt⟩ := hfits
    obtain rfl := Option.some.inj hst
    dsimp only
    rw [EventConsumer.attempt, if_pos hlt]
    refine h.set hk (by rw [hx]; rfl) rfl rfl (h.balances.stay hk (by rw [hx]; rfl)) ?_
      ⟨rfl, rfl, rfl, ?_⟩ rfl
    · simp only [Task.Fits]
      omega
    · simp only [EventConsumer.goTo]
      omega
  · rename_i hx
    simp only [Task.Fits, hx] at hfits
    obtain rfl := Option.some.inj hst
    exact h.leave hk (by rw [hx]; rfl) (hfits.2.2.le.trans (le_max_right 0 _))
      ⟨rfl, rfl, rfl, rfl⟩ rfl
  · cases hst

theorem stepDlq (h : Kept config subjectOf c) {e : RetryEvent ε}
    (hst : c.stepDlq e = some c') : Kept config subjectOf c' := by
  have henabled := h.enabled
  unfold EventConsumer.stepDlq at hst
  split at hst
  · cases hst
  · rename_i hnot
    split at hst
    · rename_i dlq hsome
      obtain ⟨dlq', hdlq, rfl⟩ := Option.map_eq_some_iff.mp hst
      rw [hsome] at henabled
      refine ⟨h.balances, h.fits, h.counts, henabled, fun d hd => ?_⟩
      obtain rfl := Option.some.inj hd
      exact (h.letters dlq hsome).step hnot hdlq
    · cases hst

theorem step (h : Kept config subjectOf c) {e : Event ε}
    (hst : c.step config subjectOf e = some c') : Kept config subjectOf c' := by
  cases e with
  | register subject =>
    obtain rfl := Option.some.inj hst
    exact ⟨h.balances, h.fits, h.counts, h.enabled, h.letters⟩
  | deliver event =>
    obtain rfl := Option.some.inj hst
    refine ⟨h.balances.add rfl, fun t ht => ?_, ?_, h.enabled, fun d hd => ?_⟩
    · rcases List.mem_append.mp ht with ht | ht
      · exact h.fits t ht
      · rw [List.mem_singleton.mp ht]
        exact ⟨rfl, rfl⟩
    · obtain ⟨hprocessed, hfailed, hdead, hretried⟩ := h.counts
      constructor <;> simp_all [Phase.isDead]
    · exact (h.letters d hd).add fun i => by simp
  | act k action =>
    simp only [EventConsumer.step] at hst
    split at hst
    · exact h.act ‹_› hst
    · cases hst
  | dlq e => exact h.stepDlq hst

end Kept

theorem kept_init (config : ConsumerConfig) (subjectOf : ε → Option String) :
    Kept config subjectOf (consumerMachine config subjectOf).init where
  balances := .init _ _
  fits t ht := absurd ht List.not_mem_nil
  counts := ⟨rfl, rfl, rfl, rfl⟩
  enabled := by
    unfold consumerMachine
    dsimp only
    split_ifs with h <;> simp [h]
  letters d hd := by
    unfold consumerMachine at hd
    dsimp only at hd
    split_ifs at hd
    · obtain rfl := Option.some.inj hd
      exact .new config
    · cases hd

/-! ## The events that come -/

/-- A step of a task replaces it by one of the same event. -/
def Replaces (k : ℕ) (x : Task ε) (c c' : EventConsumer ε) : Prop :=
  ∃ y, c'.tasks = c.tasks.set k y ∧ y.event = x.event

section Replaces

variable {config : ConsumerConfig} {subjectOf : ε → Option String} {c c' : EventConsumer ε}
  {k : ℕ} {x : Task ε}

theorem replaces_processEvent (config : ConsumerConfig) (subjectOf : ε → Option String)
    (c : EventConsumer ε) (k : ℕ) (x : Task ε) :
    Replaces k x c (c.processEvent config subjectOf k x) := by
  unfold EventConsumer.processEvent EventConsumer.attempt
  split
  · exact ⟨_, rfl, rfl⟩
  · split_ifs <;> exact ⟨_, rfl, rfl⟩

theorem replaces_enter (semaphore : Semaphore ℕ) :
    Replaces k x c (c.enter config subjectOf k x semaphore) := by
  obtain ⟨y, htasks, hevent⟩ := replaces_processEvent config subjectOf
    { c.goTo k { x with phase := .entered } with
      semaphore, stats := { c.stats with concurrentEvents := semaphore.value } }
    k { x with phase := .entered }
  exact ⟨y, htasks.trans (List.set_set ..), hevent⟩

theorem replaces_fail (reason : String) (timestamp nextRetry : ℚ) :
    Replaces k x c (c.fail config k x reason timestamp nextRetry) := by
  unfold EventConsumer.fail EventConsumer.sendToDlq
  dsimp only
  split_ifs
  · exact ⟨_, rfl, rfl⟩
  · split
    · exact ⟨_, rfl, rfl⟩
    · split <;> exact ⟨_, rfl, rfl⟩

theorem replaces_act {action : Action}
    (hst : c.act config subjectOf k x action = some c') : Replaces k x c c' := by
  unfold EventConsumer.act at hst
  split at hst
  · split_ifs at hst
    · exact Option.some.inj hst ▸ ⟨_, rfl, rfl⟩
    · exact Option.some.inj hst ▸ replaces_enter _
  · split_ifs at hst
    exact Option.some.inj hst ▸ replaces_enter _
  · exact Option.some.inj hst ▸ ⟨_, rfl, rfl⟩
  · exact Option.some.inj hst ▸ ⟨_, rfl, rfl⟩
  · exact Option.some.inj hst ▸ ⟨_, rfl, rfl⟩
  · exact Option.some.inj hst ▸ replaces_fail _ _ _
  · exact Option.some.inj hst ▸ replaces_fail _ _ _
  · exact Option.some.inj hst ▸ ⟨_, rfl, rfl⟩
  · obtain rfl := Option.some.inj hst
    unfold EventConsumer.attempt
    split_ifs <;> exact ⟨_, rfl, rfl⟩
  · exact Option.some.inj hst ▸ ⟨_, rfl, rfl⟩
  · cases hst

theorem tasks_stepDlq {e : RetryEvent ε} (hst : c.stepDlq e = some c') : c'.tasks = c.tasks := by
  unfold EventConsumer.stepDlq at hst
  split at hst
  · cases hst
  · split at hst
    · obtain ⟨dlq, -, rfl⟩ := Option.map_eq_some_iff.mp hst
      rfl
    · cases hst

end Replaces

/-- The event that a step delivers. -/
def delivered : Event ε → Option ε
  | .deliver event => some event
  | _ => none

theorem map_event_step {config : ConsumerConfig} {subjectOf : ε → Option String}
    {c c' : EventConsumer ε} {e : Event ε} (hst : c.step config subjectOf e = some c') :
    c'.tasks.map Task.event = c.tasks.map Task.event ++ (delivered e).toList := by
  cases e with
  | register subject =>
    obtain rfl := Option.some.inj hst
    exact (List.append_nil _).symm
  | deliver event =>
    obtain rfl := Option.some.inj hst
    exact List.map_append
  | act k action =>
    simp only [EventConsumer.step] at hst
    split at hst
    · rename_i x hk
      obtain ⟨y, htasks, hevent⟩ := replaces_act hst
      obtain ⟨hlt, rfl⟩ := List.getElem?_eq_some_iff.mp hk
      have hself := List.set_getElem_self (show k < (c.tasks.map Task.event).length by simpa)
      rw [List.getElem_map] at hself
      rw [htasks, List.map_set, hevent, hself]
      exact (List.append_nil _).symm
    · cases hst
  | dlq e =>
    rw [tasks_stepDlq hst]
    exact (List.append_nil _).symm

/-- There is a task for each event that came, in the order in which they did. -/
theorem map_event_of_run {config : ConsumerConfig} {subjectOf : ε → Option String}
    {es : List (Event ε)} {c : EventConsumer ε}
    (h : (consumerMachine config subjectOf).Run (fun _ _ => True) es c) :
    c.tasks.map Task.event = es.filterMap delivered := by
  induction h with
  | nil => rfl
  | snoc _ _ hst ih =>
    rw [map_event_step hst, ih, List.filterMap_append, List.filterMap_cons]
    cases delivered _ <;> rfl

/-! ## What holds in every run -/

/-- A task has done what it had to, and the letter that it sent, if it did, is in the queue with
its event and its last reason, or was evicted from the full queue or expired. -/
structure Accounted (config : ConsumerConfig) (subjectOf : ε → Option String)
    (c : EventConsumer ε) (t : Task ε) : Prop where
  fits : t.Fits config subjectOf
  letter : ∀ i, t.phase = .ended (.deadLettered i) → ∃ d, c.dlq = some d ∧
    ((∃ e ∈ d.handler.dlqEvents.entries,
      e.id = i ∧ e.event = t.event ∧ t.reasons.getLast? = some e.reason) ∨
    i ∈ d.evicted ∨ i ∈ d.expired)

/-- The counters count what became of the events; the queue received as many letters as the
consumer counts, one each; at most so many tasks have a permit as are configured. -/
structure Counted (config : ConsumerConfig) (c : EventConsumer ε) : Prop where
  counts : Counts c.stats c.tasks
  apart : c.stats.eventsFailed = 0 ∨ c.stats.eventsDlq = 0
  bound : c.tasks.countP (fun t => t.phase.stage = .inside) ≤ config.maxConcurrentEvents
  received : ∀ d ∈ c.dlq, d.handler.stats.eventsReceived = c.stats.eventsDlq
  retried : ∀ d ∈ c.dlq, d.republished = []
  one : ∀ d ∈ c.dlq, ∀ i < d.handler.dlqEvents.made,
    c.tasks.countP (fun t => t.phase = .ended (.deadLettered i)) = 1

namespace Kept

variable {config : ConsumerConfig} {subjectOf : ε → Option String} {c : EventConsumer ε}

theorem accounted (h : Kept config subjectOf c) {t : Task ε} (ht : t ∈ c.tasks) :
    Accounted config subjectOf c t where
  fits := h.fits t ht
  letter i hi := by
    have hfits := h.fits t ht
    simp only [Task.Fits, hi] at hfits
    obtain ⟨d, hd⟩ := Option.isSome_iff_exists.mp (h.enabled.trans hfits.2)
    exact ⟨d, hd, (h.letters d hd).found ht hi⟩

/-- No event is counted as failed and another one as a dead letter. -/
theorem apart (h : Kept config subjectOf c) :
    c.stats.eventsFailed = 0 ∨ c.stats.eventsDlq = 0 := by
  rw [h.counts.failed, h.counts.dead, List.countP_eq_zero, List.countP_eq_zero]
  cases henabled : config.enableDlq with
  | true =>
    refine Or.inl fun t ht hphase => ?_
    have hfits := h.fits t ht
    simp only [Task.Fits, of_decide_eq_true hphase, henabled] at hfits
    exact absurd hfits.2 (by decide)
  | false =>
    refine Or.inr fun t ht hdead => ?_
    have hfits := h.fits t ht
    cases hphase : t.phase with
    | ended e =>
      cases e with
      | deadLettered i =>
        simp only [Task.Fits, hphase, henabled] at hfits
        exact absurd hfits.2 (by decide)
      | _ => simp [hphase, Phase.isDead] at hdead
    | _ => simp [hphase, Phase.isDead] at hdead

theorem counted (h : Kept config subjectOf c) : Counted config c where
  counts := h.counts
  apart := h.apart
  bound := h.balances.countP_inside_le
  received d hd := (h.letters d hd).received
  retried d hd := (h.letters d hd).quiet.republished
  one d hd i hi := by
    rw [(h.letters d hd).one i, if_pos ((h.letters d hd).made ▸ hi)]

end Kept

section Runs

variable {config : ConsumerConfig} {subjectOf : ε → Option String} {es : List (Event ε)}
  {c : EventConsumer ε}

theorem kept_of_run (h : (consumerMachine config subjectOf).Run (fun _ _ => True) es c) :
    Kept config subjectOf c :=
  h.invariant (kept_init config subjectOf) fun _ _ _ hkept _ hst => hkept.step hst

/-- Every event that came is accounted for, in every run. -/
theorem accounted_of_run
    (h : (consumerMachine config subjectOf).Run (fun _ _ => True) es c) :
    c.tasks.map Task.event = es.filterMap delivered ∧
    ∀ t ∈ c.tasks, Accounted config subjectOf c t :=
  ⟨map_event_of_run h, fun _ ht => (kept_of_run h).accounted ht⟩

/-- One event is processed at a time, in two attempts, and the queue has room for one letter. -/
def narrowConfig : ConsumerConfig :=
  { maxConcurrentEvents := 1, retryAttempts := 2, dlqConfig := { maxDlqSize := 1 } }

/-- The handler fails twice on the first event and on the third one, and not on the second. -/
def threeEvents : List (Event ℕ) :=
  [.register "orders", .deliver 7, .deliver 8, .deliver 9, .act 0 .acquire, .act 1 .acquire,
    .act 2 .acquire, .act 0 (.handled .timedOut 0 0), .act 0 .slept,
    .act 0 (.handled (.raised "full") 5 5), .act 1 .wake, .act 1 (.handled .returned 6 6),
    .act 2 .wake, .act 2 (.handled (.raised "full") 7 7), .act 2 .slept,
    .act 2 (.handled .timedOut 9 9)]

/-- The letter of the third event evicts that of the first. -/
theorem accounted_of_three : ∃ c : EventConsumer ℕ,
    c.tasks.map Task.phase =
      [.ended (.deadLettered 0), .ended .processed, .ended (.deadLettered 1)] ∧
    c.tasks.map Task.event = threeEvents.filterMap delivered ∧
    ∀ t ∈ c.tasks, Accounted narrowConfig (fun _ => some "orders") c t := by
  obtain ⟨c, hrun, hp⟩ := Machine.exists_run
    (consumerMachine narrowConfig fun _ : ℕ => some "orders") (fun _ _ => True) threeEvents
    (fun c => decide (c.tasks.map Task.phase =
      [.ended (.deadLettered 0), .ended .processed, .ended (.deadLettered 1)]))
    (by decide +kernel)
  exact ⟨c, of_decide_eq_true hp, accounted_of_run hrun⟩

/-- In every run the counters agree with what became of the events. -/
theorem counters_of_run
    (h : (consumerMachine config subjectOf).Run (fun _ _ => True) es c) : Counted config c :=
  (kept_of_run h).counted

theorem counters_of_three : ∃ c : EventConsumer ℕ,
    c.stats.eventsProcessed = 1 ∧ c.stats.eventsDlq = 2 ∧ c.stats.eventsRetried = 2 ∧
    Counted narrowConfig c := by
  obtain ⟨c, hrun, hp⟩ := Machine.exists_run
    (consumerMachine narrowConfig fun _ : ℕ => some "orders") (fun _ _ => True) threeEvents
    (fun c => decide (c.stats.eventsProcessed = 1 ∧ c.stats.eventsDlq = 2 ∧
      c.stats.eventsRetried = 2))
    (by decide +kernel)
  obtain ⟨hprocessed, hdlq, hretried⟩ := of_decide_eq_true hp
  exact ⟨c, hprocessed, hdlq, hretried, counters_of_run hrun⟩

end Runs

end Consumers

end MultiAgent
