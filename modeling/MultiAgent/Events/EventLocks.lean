import MultiAgent.Events.DLQHandler
import MultiAgent.Events.EventProducer
import MultiAgent.Events.EventStore

/-!
# Locks of the event library

The tasks of `DLQHandler`, and which tasks of the three components wait for a lock that they
hold (`noSelfWait_throughout_iff`) : a `store_event` whose event fills the batch, a
`publish` whose event fills the batch, and a `manual_retry` whose event bus returns.
`manual_retry` waits for `publish` with the lock in hand, so that other tasks may have to
wait for it, and `_retry_event` acquires the lock again unless `publish` raised.
-/

namespace MultiAgent

namespace DLQ

/-- What an await of the handler gives : what `publish` did, and what the clock reads. -/
structure Answer where
  republish : Republish := .raised
  now : ℚ := 0
  later : ℚ := 0

/-- Where a task of the handler is suspended : before a call, in the sleep of a processor,
or in `publish`. -/
inductive Label (ε : Type*)
  | sendToDlq (event : ε) (reason : String)
  | retryProcessor
  | retry (index : ℕ) (entry : DLQEntry ε) (rest : List (ℕ × DLQEntry ε))
  | cleanupProcessor
  | manualRetry (isEvent : ε → Bool)
  | manualPublish (index : ℕ) (entry : DLQEntry ε)
  | getDlqEvents
  | clearDlq

namespace DLQHandler

variable {ε : Type*}

/-- `clear_dlq`. -/
def clearDlq (h : DLQHandler ε) : DLQHandler ε :=
  { h with dlqEvents := h.dlqEvents.keepIf fun _ => false }

/-- The first entry of an event that `manual_retry` looks for, with its position. -/
def findEntry (h : DLQHandler ε) (isEvent : ε → Bool) : Option (DLQEntry ε × ℕ) :=
  h.dlqEvents.entries.zipIdx.find? fun p => isEvent p.1.event

/-- `_process_retries` goes on to its next event. -/
def nextRetry : List (ℕ × DLQEntry ε) → Code (DLQHandler ε) (Label ε)
  | [] => .suspend .retryProcessor
  | (index, entry) :: rest => .suspend (.retry index entry rest)

/-- The rest of `_retry_event`, once `publish` is done. -/
def retryCode (index : ℕ) (entry : DLQEntry ε) (a : Answer)
    (next : Code (DLQHandler ε) (Label ε)) : Code (DLQHandler ε) (Label ε) :=
  match a.republish with
  | .returned success =>
    .acquire (.write (fun h => h.retryEvent index entry (.returned success) a.now) (.release next))
  | .raised => next

/-- The code at a label. -/
def code : Label ε → Answer → Code (DLQHandler ε) (Label ε)
  | .sendToDlq event reason, a =>
    .acquire (.read fun h =>
      match h.sendToDlq event reason a.now a.later with
      | .ok h' => .write (fun _ => h') (.release .done)
      | .error _ => .release .done)
  | .retryProcessor, a =>
    .read fun h =>
      if h.eventBus && h.config.enableAutoRetry then
        .acquire (.read fun h => .release (nextRetry (h.eventsToRetry a.now)))
      else .suspend .retryProcessor
  | .retry index entry rest, a => retryCode index entry a (nextRetry rest)
  | .cleanupProcessor, a =>
    .acquire (.write (fun h => h.cleanupExpiredEvents a.now)
      (.release (.suspend .cleanupProcessor)))
  | .manualRetry isEvent, _ =>
    .read fun h =>
      if h.eventBus then
        .acquire (.read fun h =>
          match h.findEntry isEvent with
          | some (entry, index) => .suspend (.manualPublish index entry)
          | none => .release .done)
      else .done
  | .manualPublish index entry, a => retryCode index entry a (.release .done)
  | .getDlqEvents, _ => .acquire (.release .done)
  | .clearDlq, _ => .acquire (.write clearDlq (.release .done))

/-- `manual_retry` holds the lock while it publishes. -/
def holds : Label ε → Bool
  | .manualPublish _ _ => true
  | _ => false

/-- What a task does once it has the lock does not acquire it again. -/
def Once (next : Code (DLQHandler ε) (Label ε)) : Prop :=
  ∀ idle h, next.reacquires idle true h = false

theorem balanced_nextRetry (retries : List (ℕ × DLQEntry ε)) :
    (nextRetry retries).Balanced holds Once false := by
  cases retries <;> rfl

theorem reacquires_nextRetry (idle : Bool) (retries : List (ℕ × DLQEntry ε))
    (h : DLQHandler ε) : (nextRetry retries).reacquires idle false h = false := by
  cases retries <;> rfl

/-- The tasks of the handler. -/
def program (ε : Type*) : Program (DLQHandler ε) (Label ε) Answer Once where
  entry label :=
    match label with
    | .retry _ _ _ => false
    | .manualPublish _ _ => false
    | _ => true
  code := code
  holds := holds
  holds_entry label hentry := by
    cases label with
    | manualPublish index entry => cases hentry
    | _ => rfl
  balanced label a := by
    cases label with
    | sendToDlq event reason =>
      constructor
      · intro idle h
        dsimp only [Code.reacquires]
        split <;> rfl
      · intro h
        dsimp only
        split <;> exact ⟨rfl, rfl⟩
    | retryProcessor =>
      intro h
      dsimp only
      split_ifs
      · exact ⟨fun idle h => reacquires_nextRetry idle _ h, fun h => ⟨rfl, balanced_nextRetry _⟩⟩
      · rfl
    | retry index entry rest =>
      dsimp only [code, retryCode]
      split
      · exact ⟨fun idle h => reacquires_nextRetry idle rest _, rfl, balanced_nextRetry rest⟩
      · exact balanced_nextRetry rest
    | cleanupProcessor => exact ⟨fun _ _ => rfl, rfl, rfl⟩
    | manualRetry isEvent =>
      intro h
      dsimp only
      split_ifs
      · constructor
        · intro idle h
          dsimp only [Code.reacquires]
          split <;> rfl
        · intro h
          dsimp only
          split
          · rfl
          · exact ⟨rfl, rfl⟩
      · rfl
    | manualPublish index entry =>
      dsimp only [code, retryCode]
      split
      · trivial
      · exact ⟨rfl, rfl⟩
    | getDlqEvents => exact ⟨fun _ _ => rfl, rfl, rfl⟩
    | clearDlq => exact ⟨fun _ _ => rfl, rfl, rfl⟩

/-- `publish` of a manual retry does not return. -/
def Unanswered (_ : DLQHandler ε) : Label ε → Answer → Prop
  | .manualPublish _ _, a => a.republish = .raised
  | _, _ => True

theorem unanswered_iff (idle : Bool) (h : DLQHandler ε) (label : Label ε) (a : Answer) :
    h.Unanswered label a ↔ (code label a).reacquires idle (holds label) h = false := by
  cases label with
  | sendToDlq event reason =>
    refine iff_of_true trivial ?_
    dsimp only [code, holds, Code.reacquires]
    split <;> simp [Code.reacquires]
  | retryProcessor =>
    refine iff_of_true trivial ?_
    dsimp only [code, holds, Code.reacquires]
    split_ifs
    · simp [Code.reacquires, reacquires_nextRetry]
    · rfl
  | retry index entry rest =>
    refine iff_of_true trivial ?_
    dsimp only [code, retryCode]
    split
    · simp [holds, Code.reacquires, reacquires_nextRetry]
    · exact reacquires_nextRetry idle rest h
  | cleanupProcessor => exact iff_of_true trivial (by simp [code, holds, Code.reacquires])
  | manualRetry isEvent =>
    refine iff_of_true trivial ?_
    dsimp only [code, holds, Code.reacquires]
    split_ifs
    · rw [Code.reacquires, Code.reacquires]
      split <;> simp [Code.reacquires]
    · rfl
  | manualPublish index entry =>
    dsimp only [Unanswered, code, retryCode]
    cases a.republish with
    | returned success => simp [holds, Code.reacquires]
    | raised => simp [Code.reacquires]
  | getDlqEvents => exact iff_of_true trivial (by simp [code, holds, Code.reacquires])
  | clearDlq => exact iff_of_true trivial (by simp [code, holds, Code.reacquires])

instance (h : DLQHandler ε) (label : Label ε) (a : Answer) : Decidable (h.Unanswered label a) :=
  decidable_of_iff _ (h.unanswered_iff true label a).symm

end DLQHandler

end DLQ

/-! ## The three components -/

namespace EventLocks

open Tasks (machine NoSelfWait Answered)

/-- No task of the store, the producer or the handler waits for itself throughout a run
exactly when, in the run, no event that is stored fills the batch, no event that is
published fills the batch, and no manual retry gets an answer of `publish`. -/
theorem noSelfWait_throughout_iff (ε : Type*) :
    (∀ (store : EventStore ε) es s,
      (machine (EventStore.program ε) store).Run (fun _ _ => True) es s →
        ((machine (EventStore.program ε) store).Throughout NoSelfWait es ↔
          (machine (EventStore.program ε) store).Run (Answered EventStore.Fits) es s)) ∧
    (∀ (producer : EventProducer ε) es s,
      (machine (EventProducer.program ε) producer).Run (fun _ _ => True) es s →
        ((machine (EventProducer.program ε) producer).Throughout NoSelfWait es ↔
          (machine (EventProducer.program ε) producer).Run (Answered EventProducer.Fits) es s)) ∧
    ∀ (handler : DLQ.DLQHandler ε) es s,
      (machine (DLQ.DLQHandler.program ε) handler).Run (fun _ _ => True) es s →
        ((machine (DLQ.DLQHandler.program ε) handler).Throughout NoSelfWait es ↔
          (machine (DLQ.DLQHandler.program ε) handler).Run (Answered DLQ.DLQHandler.Unanswered)
            es s) := by
  refine ⟨fun store es s h => ?_, fun producer es s h => ?_, fun handler es s h => ?_⟩
  · exact Tasks.throughout_iff_of_free (fun label now _ => EventStore.frees_code label now)
      EventStore.fits_iff h
  · exact Tasks.throughout_iff_of_free EventProducer.frees_code EventProducer.fits_iff h
  · exact Tasks.throughout_iff_of_granted (fun next idle x hnext => hnext idle x)
      DLQ.DLQHandler.unanswered_iff h

/-- An event is stored. -/
def storing : List (TaskEvent (EventStore.Label String) ℚ) :=
  [.start (.storeEvent "a" 10), .resume 0 0]

/-- An event is published in a batch, at the second attempt. -/
def publishing : List (TaskEvent (EventProducer.Label String) Bool) :=
  [.start (.publish "a"), .resume 0 true, .start .batchProcessor, .resume 1 true,
    .resume 1 false, .resume 1 true, .resume 1 true]

/-- An event is sent to the dead letter queue and retried, and `publish` raises. -/
def retrying : List (TaskEvent (DLQ.Label String) DLQ.Answer) :=
  [.start (.sendToDlq "a" "failed"), .resume 0 {}, .start (.manualRetry fun event => event = "a"),
    .resume 1 {}, .resume 1 { republish := .raised }]

theorem noSelfWait_throughout_runs :
    (machine (EventStore.program String) {}).Throughout NoSelfWait storing ∧
      (machine (EventProducer.program String) {}).Throughout NoSelfWait publishing ∧
      (machine (DLQ.DLQHandler.program String) { eventBus := true }).Throughout NoSelfWait
        retrying := by
  obtain ⟨s, hstore, -⟩ := Machine.exists_run (machine (EventStore.program String) {})
    (Answered EventStore.Fits) storing (fun s => s.shared.events.length == 1) (by decide +kernel)
  obtain ⟨p, hproducer, -⟩ := Machine.exists_run (machine (EventProducer.program String) {})
    (Answered EventProducer.Fits) publishing (fun p => p.shared.stats.eventsPublished == 1)
    (by decide +kernel)
  obtain ⟨h, hhandler, -⟩ :=
    Machine.exists_run (machine (DLQ.DLQHandler.program String) { eventBus := true })
      (Answered DLQ.DLQHandler.Unanswered) retrying (fun h => h.shared.dlqEvents.made == 1)
      (by decide +kernel)
  obtain ⟨hs, hp, hh⟩ := noSelfWait_throughout_iff String
  exact ⟨(hs {} storing s (hstore.mono fun _ _ _ => trivial)).mpr hstore,
    (hp {} publishing p (hproducer.mono fun _ _ _ => trivial)).mpr hproducer,
    (hh { eventBus := true } retrying h (hhandler.mono fun _ _ _ => trivial)).mpr hhandler⟩

/-- A store and a producer with batches of one event, and a handler whose event bus returns. -/
theorem not_noSelfWait :
    (¬∀ (store : EventStore String) es s, 1 ≤ store.config.batchSize →
      (machine (EventStore.program String) store).Run (fun _ _ => True) es s → s.NoSelfWait) ∧
    (¬∀ (producer : EventProducer String) es s, 1 ≤ producer.config.batchSize →
      (machine (EventProducer.program String) producer).Run (fun _ _ => True) es s →
        s.NoSelfWait) ∧
    ¬∀ (handler : DLQ.DLQHandler String) es s,
      (machine (DLQ.DLQHandler.program String) handler).Run (fun _ _ => True) es s →
        s.NoSelfWait := by
  refine ⟨fun hall => ?_, fun hall => ?_, fun hall => ?_⟩
  · obtain ⟨s, hrun, hwaits⟩ :=
      Machine.exists_run (machine (EventStore.program String) { config := { batchSize := 1 } })
        (fun _ _ => True) storing (fun s => s.holder == some 0 && s.waiters == [0])
        (by decide +kernel)
    exact Tasks.selfWait_of_beq hwaits (hall _ _ s le_rfl hrun)
  · obtain ⟨s, hrun, hwaits⟩ :=
      Machine.exists_run (machine (EventProducer.program String) { config := { batchSize := 1 } })
        (fun _ _ => True) [.start (.publish "a"), .resume 0 true]
        (fun s => s.holder == some 0 && s.waiters == [0]) (by decide +kernel)
    exact Tasks.selfWait_of_beq hwaits (hall _ _ s le_rfl hrun)
  · obtain ⟨s, hrun, hwaits⟩ :=
      Machine.exists_run (machine (DLQ.DLQHandler.program String) { eventBus := true })
        (fun _ _ => True)
        [.start (.sendToDlq "a" "failed"), .resume 0 {}, .start (.manualRetry fun _ => true),
          .resume 1 {}, .resume 1 { republish := .returned true }]
        (fun s => s.holder == some 1 && s.waiters == [1]) (by decide +kernel)
    exact Tasks.selfWait_of_beq hwaits (hall _ _ s hrun)

end EventLocks

end MultiAgent
