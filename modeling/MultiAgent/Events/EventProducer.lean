import Mathlib.Algebra.Order.Ring.Int
import MultiAgent.Lib.TaskLock

/-!
# The event producer

`libs/events/event_producer.py`, with batching enabled. An event stands for the event and
its subject. `publish` of the event bus answers whether it returned `True`, and the two ways
of a failed attempt, `False` and an exception, are one, as they are in the source.

`_add_to_batch` calls `_flush_batch` with the lock in hand when the batch is full
(`reacquires_addToBatch`), and `_flush_batch` acquires it again.
-/

namespace MultiAgent

/-- `ProducerConfig`, as far as it is used. -/
structure ProducerConfig where
  batchSize : ℤ := 100
  retryAttempts : ℤ := 3

/-- `_stats`. -/
structure ProducerStats where
  eventsPublished : ℕ := 0
  eventsFailed : ℕ := 0
  batchesSent : ℕ := 0
  retries : ℕ := 0

/-- `EventProducer`. -/
structure EventProducer (ε : Type*) where
  config : ProducerConfig := {}
  batch : List ε := []
  stats : ProducerStats := {}

/-- Where `_flush_batch` is with the batch it took : it publishes an event for the time
`attempt`, it sleeps after that attempt failed, or it is over. -/
inductive FlushState (ε : Type*)
  | publishing (event : ε) (rest : List ε) (attempt : ℤ)
  | sleeping (event : ε) (rest : List ε) (attempt : ℤ)
  | ended
  deriving DecidableEq

namespace EventProducer

variable {ε : Type*} (p : EventProducer ε)

/-- `self._batch.append`. -/
def append (event : ε) : EventProducer ε :=
  { p with batch := p.batch ++ [event] }

/-- `len(self._batch) >= self.config.batch_size`. -/
def full : Bool :=
  decide (p.config.batchSize ≤ p.batch.length)

/-- `self._batch.clear`. -/
def clear : EventProducer ε :=
  { p with batch := [] }

/-- An event is published. -/
def countPublished : EventProducer ε :=
  { p with stats := { p.stats with eventsPublished := p.stats.eventsPublished + 1 } }

/-- An event has failed. -/
def countFailed : EventProducer ε :=
  { p with stats := { p.stats with eventsFailed := p.stats.eventsFailed + 1 } }

/-- A batch is sent. -/
def countBatch : EventProducer ε :=
  { p with stats := { p.stats with batchesSent := p.stats.batchesSent + 1 } }

/-- There is a further attempt. -/
def countRetry : EventProducer ε :=
  { p with stats := { p.stats with retries := p.stats.retries + 1 } }

/-- The loop of `_flush_batch` over the events that are left. -/
def publishBatch : List ε → EventProducer ε → EventProducer ε × FlushState ε
  | [], p => (p.countBatch, .ended)
  | event :: rest, p =>
    if 0 < p.config.retryAttempts then (p, .publishing event rest 0)
    else publishBatch rest p.countFailed

/-- `_publish_single` after an attempt. -/
def attempted (event : ε) (rest : List ε) (attempt : ℤ) (success : Bool) :
    EventProducer ε × FlushState ε :=
  if success then publishBatch rest p.countPublished
  else if attempt < p.config.retryAttempts - 1 then (p, .sleeping event rest attempt)
  else publishBatch rest p.countFailed

/-- What a suspended `_flush_batch` does next. -/
def resumeFlush (success : Bool) : FlushState ε → EventProducer ε × FlushState ε
  | .publishing event rest attempt => p.attempted event rest attempt success
  | .sleeping event rest attempt => (p.countRetry, .publishing event rest (attempt + 1))
  | .ended => (p, .ended)

/-! ## The tasks -/

/-- Who called `_flush_batch`. -/
inductive Caller
  | addToBatch
  | batchProcessor
  | stop
  deriving DecidableEq

/-- Where a task of the producer is suspended. -/
inductive Label (ε : Type*)
  | publish (event : ε)
  | batchProcessor
  | stop
  | flush (caller : Caller) (state : FlushState ε)

/-- What follows the call of `_flush_batch`. -/
def afterFlush : Caller → Code (EventProducer ε) (Label ε)
  | .addToBatch => .release .done
  | .batchProcessor => .suspend .batchProcessor
  | .stop => .done

/-- `_flush_batch` goes on. -/
def flushCode (caller : Caller) : FlushState ε → Code (EventProducer ε) (Label ε)
  | .ended => afterFlush caller
  | state => .suspend (.flush caller state)

/-- `_flush_batch`. -/
def flushBatch (caller : Caller) : Code (EventProducer ε) (Label ε) :=
  .acquire (.read fun p =>
    if p.batch.isEmpty then .release (afterFlush caller)
    else
      let flushed := publishBatch p.batch p.clear
      .write (fun _ => flushed.1) (.release (flushCode caller flushed.2)))

/-- `_add_to_batch`. -/
def addToBatch (event : ε) : Code (EventProducer ε) (Label ε) :=
  .acquire (.write (fun p => p.append event) (.read fun p =>
    if p.full then flushBatch .addToBatch else .release .done))

/-- The code at a label. -/
def code : Label ε → Bool → Code (EventProducer ε) (Label ε)
  | .publish event, _ => addToBatch event
  | .batchProcessor, _ => flushBatch .batchProcessor
  | .stop, _ => flushBatch .stop
  | .flush caller state, success =>
    .read fun p =>
      let flushed := p.resumeFlush success state
      .write (fun _ => flushed.1) (flushCode caller flushed.2)

/-- The lock is held in a flush that `_add_to_batch` called. -/
def holds : Label ε → Bool
  | .flush caller _ => decide (caller = .addToBatch)
  | _ => false

theorem balanced_flushCode {P : Code (EventProducer ε) (Label ε) → Prop} (caller : Caller)
    (state : FlushState ε) :
    (flushCode caller state).Balanced holds P (decide (caller = .addToBatch)) := by
  cases state with
  | publishing event rest attempt => rfl
  | sleeping event rest attempt => rfl
  | ended =>
    cases caller with
    | addToBatch => exact ⟨rfl, rfl⟩
    | batchProcessor => rfl
    | stop => rfl

theorem balanced_flushBatch {caller : Caller} (hcaller : caller ≠ .addToBatch) :
    (flushBatch caller : Code (EventProducer ε) (Label ε)).Balanced holds (fun _ => True)
      false := by
  have hflush : ∀ state : FlushState ε,
      (flushCode caller state).Balanced holds (fun _ => True) false := by
    intro state
    have hbalanced := balanced_flushCode (P := fun _ => True) caller state
    rwa [decide_eq_false hcaller] at hbalanced
  refine ⟨trivial, fun p => ?_⟩
  dsimp only
  split_ifs
  · exact ⟨rfl, hflush .ended⟩
  · exact ⟨rfl, hflush _⟩

/-- The tasks of the producer. -/
def program (ε : Type*) : Program (EventProducer ε) (Label ε) Bool fun _ => True where
  entry label :=
    match label with
    | .flush _ _ => false
    | _ => true
  code := code
  holds := holds
  holds_entry label hentry := by
    cases label with
    | flush caller state => cases hentry
    | publish event => rfl
    | batchProcessor => rfl
    | stop => rfl
  balanced label success := by
    cases label with
    | publish event =>
      refine ⟨trivial, fun p => ?_⟩
      dsimp only
      split_ifs
      · trivial
      · exact ⟨rfl, rfl⟩
    | batchProcessor => exact balanced_flushBatch (by decide)
    | stop => exact balanced_flushBatch (by decide)
    | flush caller state => exact fun p => balanced_flushCode caller _

/-- A flush that `_add_to_batch` did not call is not suspended with the lock. -/
theorem frees_flushCode {caller : Caller} (hcaller : caller ≠ .addToBatch)
    (state : FlushState ε) : (flushCode caller state).Frees false := by
  cases state with
  | publishing event rest attempt => rfl
  | sleeping event rest attempt => rfl
  | ended =>
    cases caller with
    | addToBatch => exact absurd rfl hcaller
    | batchProcessor => rfl
    | stop => rfl

theorem frees_flushBatch {caller : Caller} (hcaller : caller ≠ .addToBatch) :
    (flushBatch caller : Code (EventProducer ε) (Label ε)).Frees false := by
  intro p
  dsimp only
  split_ifs
  · exact frees_flushCode hcaller .ended
  · exact frees_flushCode hcaller _

theorem frees_code (label : Label ε) (success : Bool) (hlabel : holds label = false) :
    (code label success).Frees false := by
  cases label with
  | publish event =>
    intro p
    dsimp only
    split_ifs
    · trivial
    · rfl
  | batchProcessor => exact frees_flushBatch (by decide)
  | stop => exact frees_flushBatch (by decide)
  | flush caller state => exact fun p => frees_flushCode (of_decide_eq_false hlabel) _

theorem reacquires_flushCode (caller : Caller) (held : Bool) (state : FlushState ε) :
    (flushCode caller state).reacquires true held p = false := by
  cases state with
  | publishing event rest attempt => rfl
  | sleeping event rest attempt => rfl
  | ended => cases caller <;> cases held <;> rfl

theorem reacquires_flushBatch (caller : Caller) :
    (flushBatch caller).reacquires true false p = false := by
  unfold flushBatch
  simp only [Code.reacquires, Bool.true_and]
  split_ifs
  · exact reacquires_flushCode p caller false .ended
  · exact reacquires_flushCode _ caller false _

/-- `_add_to_batch` acquires the lock again when its event fills the batch. -/
theorem reacquires_addToBatch (event : ε) :
    (addToBatch event).reacquires true false p =
      decide (p.config.batchSize ≤ p.batch.length + 1) := by
  have hfull : (p.append event).full = decide (p.config.batchSize ≤ p.batch.length + 1) := by
    simp [full, append]
  rw [← hfull]
  unfold addToBatch
  simp only [Code.reacquires, Bool.true_and]
  cases (p.append event).full <;> rfl

/-- The event that is published does not fill the batch. -/
def Fits (p : EventProducer ε) : Label ε → Bool → Prop
  | .publish _, _ => (p.batch.length : ℤ) + 1 < p.config.batchSize
  | _, _ => True

theorem fits_iff (p : EventProducer ε) (label : Label ε) (success : Bool) :
    p.Fits label success ↔ (code label success).reacquires true false p = false := by
  cases label with
  | publish event =>
    rw [code, reacquires_addToBatch, decide_eq_false_iff_not, not_le]
    rfl
  | batchProcessor => exact iff_of_true trivial (reacquires_flushBatch p .batchProcessor)
  | stop => exact iff_of_true trivial (reacquires_flushBatch p .stop)
  | flush caller state => exact iff_of_true trivial (reacquires_flushCode _ caller false _)

instance (p : EventProducer ε) (label : Label ε) (success : Bool) :
    Decidable (p.Fits label success) :=
  decidable_of_iff _ (p.fits_iff label success).symm

end EventProducer

end MultiAgent
