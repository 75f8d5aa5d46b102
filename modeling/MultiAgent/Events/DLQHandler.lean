import Mathlib.Algebra.Order.Field.Rat
import Mathlib.Data.List.InsertIdx
import MultiAgent.Lib.Positions

/-!
# The dead letter queue

`DLQHandler` of `libs/events/dlq_handler.py`. The entries of `dlq_events` are dictionaries
that the retry loop keeps references to, so an entry here has the number under which it was
made, and a change of an entry finds it in the queue by that number. `EntryQueue` carries
the fact that no entry stands in the queue twice.

Events are of any type : `to_dict` and `from_dict` are taken to be inverse. What the event
bus answers to a republished event is given from outside.
-/

namespace MultiAgent

namespace DLQ

/-- `DLQConfig`. Times are in seconds. -/
structure DLQConfig where
  maxRetryAttempts : ℤ := 3
  retryDelay : ℚ := 300
  maxDlqSize : ℤ := 10000
  retentionPeriod : ℚ := 7 * 24 * 60 * 60
  enableAutoRetry : Bool := true
  retryBackoffMultiplier : ℚ := 2

/-- An entry of the queue, the `id`-th that was made. -/
structure DLQEntry (ε : Type*) where
  id : ℕ
  event : ε
  reason : String
  timestamp : ℚ
  retryCount : ℕ := 0
  nextRetry : ℚ

/-- `dlq_events`, with the number of entries made so far. -/
structure EntryQueue (ε : Type*) where
  entries : List (DLQEntry ε) := []
  made : ℕ := 0
  below : ∀ e ∈ entries, e.id < made := by simp
  nodup : (entries.map DLQEntry.id).Nodup := by simp

/-- `_stats`. -/
structure DLQStats where
  eventsReceived : ℕ := 0
  eventsRetried : ℕ := 0
  eventsExpired : ℕ := 0
  eventsProcessed : ℕ := 0

/-- What `publish` of the event bus did. -/
inductive Republish
  | returned (success : Bool)
  | raised
  deriving DecidableEq

/-- What `pop(0)` of an empty list raises. -/
inductive IndexError
  | popFromEmptyList

variable {ε : Type*}

namespace EntryQueue

variable (q : EntryQueue ε)

/-- The numbers of the entries. -/
def ids : List ℕ :=
  q.entries.map DLQEntry.id

/-- `pop(index)`, if there is such an entry. -/
def removeAt (index : ℕ) : EntryQueue ε where
  entries := q.entries.eraseIdx index
  made := q.made
  below e he := q.below e (List.mem_of_mem_eraseIdx he)
  nodup := q.nodup.sublist ((List.eraseIdx_sublist q.entries index).map DLQEntry.id)

/-- The entries for which `keep` holds. -/
def keepIf (keep : DLQEntry ε → Bool) : EntryQueue ε where
  entries := q.entries.filter keep
  made := q.made
  below e he := q.below e (List.mem_filter.mp he).1
  nodup := q.nodup.sublist (List.filter_sublist.map DLQEntry.id)

/-- A new entry at the end. -/
def push (event : ε) (reason : String) (timestamp nextRetry : ℚ) : EntryQueue ε where
  entries := q.entries ++ [{ id := q.made, event, reason, timestamp, nextRetry }]
  made := q.made + 1
  below e he := by
    rcases List.mem_append.mp he with he | he
    · exact (q.below e he).trans (Nat.lt_succ_self _)
    · rw [List.mem_singleton.mp he]
      exact Nat.lt_succ_self _
  nodup := by
    rw [List.map_append]
    refine q.nodup.append (List.nodup_singleton _) fun i hi hnew => ?_
    obtain ⟨e, he, rfl⟩ := List.mem_map.mp hi
    exact absurd (List.mem_singleton.mp hnew) (Nat.ne_of_lt (q.below e he))

/-- Set the retry fields of an entry, if it is in the queue. -/
def reschedule (id : ℕ) (retry : DLQEntry ε → ℕ × ℚ) : EntryQueue ε where
  entries := q.entries.map fun e =>
    if e.id = id then { e with retryCount := (retry e).1, nextRetry := (retry e).2 } else e
  made := q.made
  below e he := by
    obtain ⟨e', he', rfl⟩ := List.mem_map.mp he
    split_ifs <;> exact q.below e' he'
  nodup := by
    have hids : DLQEntry.id ∘ (fun e : DLQEntry ε =>
        if e.id = id then { e with retryCount := (retry e).1, nextRetry := (retry e).2 } else e) =
        DLQEntry.id := by
      funext e
      simp only [Function.comp_apply]
      split_ifs <;> rfl
    rw [List.map_map, hids]
    exact q.nodup

theorem id_lt_made {q : EntryQueue ε} {id : ℕ} (h : id ∈ q.ids) : id < q.made := by
  obtain ⟨e, he, rfl⟩ := List.mem_map.mp h
  exact q.below e he

@[simp] theorem ids_removeAt (index : ℕ) : (q.removeAt index).ids = q.ids.eraseIdx index :=
  (List.eraseIdx_map _ _ _).symm

@[simp] theorem ids_push (event : ε) (reason : String) (timestamp nextRetry : ℚ) :
    (q.push event reason timestamp nextRetry).ids = q.ids ++ [q.made] := by
  simp [ids, push]

@[simp] theorem ids_reschedule (id : ℕ) (retry : DLQEntry ε → ℕ × ℚ) :
    (q.reschedule id retry).ids = q.ids := by
  unfold ids reschedule
  rw [List.map_map]
  refine List.map_congr_left fun e _ => ?_
  simp only [Function.comp_apply]
  split_ifs <;> rfl

theorem mem_ids_keepIf {q : EntryQueue ε} {keep : DLQEntry ε → Bool} {id : ℕ} :
    id ∈ (q.keepIf keep).ids ↔ ∃ e ∈ q.entries, keep e = true ∧ e.id = id := by
  simp [ids, keepIf, and_assoc]

/-- An entry is kept or not. -/
theorem mem_ids_keepIf_not {q : EntryQueue ε} (keep : DLQEntry ε → Bool) {id : ℕ}
    (h : id ∈ q.ids) : id ∉ (q.keepIf keep).ids ↔ id ∈ (q.keepIf fun e => !keep e).ids := by
  obtain ⟨e, he, rfl⟩ := List.mem_map.mp h
  have hsame : ∀ e' ∈ q.entries, e'.id = e.id → e' = e := fun e' he' hid =>
    List.inj_on_of_nodup_map q.nodup he' he hid
  rw [mem_ids_keepIf, mem_ids_keepIf]
  constructor
  · intro hnot
    refine ⟨e, he, ?_, rfl⟩
    cases hkeep : keep e with
    | true => exact absurd ⟨e, he, hkeep, rfl⟩ hnot
    | false => rfl
  · rintro ⟨e', he', hkeep', hid'⟩ ⟨e'', he'', hkeep'', hid''⟩
    rw [hsame e' he' hid'] at hkeep'
    rw [hsame e'' he'' hid''] at hkeep''
    simp [hkeep''] at hkeep'

end EntryQueue

/-- The attributes of `DLQHandler`. -/
structure DLQHandler (ε : Type*) where
  config : DLQConfig := {}
  eventBus : Bool := false
  dlqEvents : EntryQueue ε := {}
  stats : DLQStats := {}

namespace DLQHandler

variable (h : DLQHandler ε)

/-- The queue is full. -/
def full : Bool :=
  h.config.maxDlqSize ≤ h.dlqEvents.entries.length

/-- `send_to_dlq`. The clock reads `timestamp`, then `nextRetry`. -/
def sendToDlq (event : ε) (reason : String) (timestamp nextRetry : ℚ) :
    Except IndexError (DLQHandler ε) :=
  let stats := { h.stats with eventsReceived := h.stats.eventsReceived + 1 }
  if h.full then
    if h.dlqEvents.entries = [] then .error .popFromEmptyList
    else
      let popped := h.dlqEvents.removeAt 0
      .ok { h with dlqEvents := popped.push event reason timestamp nextRetry, stats }
  else .ok { h with dlqEvents := h.dlqEvents.push event reason timestamp nextRetry, stats }

/-- An entry is ready for a retry. -/
def isReady (now : ℚ) (e : DLQEntry ε) : Bool :=
  e.nextRetry ≤ now && (e.retryCount : ℤ) < h.config.maxRetryAttempts

/-- `events_to_retry` of `_process_retries`, with their positions. -/
def eventsToRetry (now : ℚ) : List (ℕ × DLQEntry ε) :=
  if h.eventBus && h.config.enableAutoRetry then
    (h.dlqEvents.entries.zipIdx.filter fun p => h.isReady now p.1).map Prod.swap
  else []

/-- The retry fields of an entry after one more failure. -/
def backoff (now : ℚ) (e : DLQEntry ε) : ℕ × ℚ :=
  let delay := h.config.retryDelay * h.config.retryBackoffMultiplier ^ (e.retryCount + 1)
  (e.retryCount + 1, now + delay)

/-- The rest of `_retry_event`, once `publish` is done. -/
def retryEvent (index : ℕ) (entry : DLQEntry ε) (answer : Republish) (now : ℚ) : DLQHandler ε :=
  match answer with
  | .returned true =>
    { h with
      dlqEvents := h.dlqEvents.removeAt index
      stats := { h.stats with eventsProcessed := h.stats.eventsProcessed + 1 } }
  | .returned false =>
    { h with
      dlqEvents :=
        if index < h.dlqEvents.entries.length then h.dlqEvents.reschedule entry.id (h.backoff now)
        else h.dlqEvents
      stats := { h.stats with eventsRetried := h.stats.eventsRetried + 1 } }
  | .raised => h

/-- `_process_retries` with nothing in between : `answers` is what the bus answers to an
event, and `times` what the clock reads after that. -/
def processRetries (now : ℚ) (answers : ε → Republish) (times : ε → ℚ) : DLQHandler ε :=
  (h.eventsToRetry now).foldl
    (fun h p => h.retryEvent p.1 p.2 (answers p.2.event) (times p.2.event)) h

/-- An entry that is not expired at the cutoff time. -/
def isFresh (now : ℚ) (e : DLQEntry ε) : Bool :=
  now - h.config.retentionPeriod < e.timestamp

/-- `_cleanup_expired_events`. -/
def cleanupExpiredEvents (now : ℚ) : DLQHandler ε :=
  let kept := h.dlqEvents.keepIf (h.isFresh now)
  let removedCount := h.dlqEvents.entries.length - kept.entries.length
  { h with
    dlqEvents := kept
    stats := { h.stats with eventsExpired := h.stats.eventsExpired + removedCount } }

end DLQHandler

/-! ## One run of `_process_retries`

`_process_retries` collects the entries that are ready with their positions, and
`_retry_event` pops a position when its event was republished. The positions are those
before the first removal, so only the first entry that was republished is sure to go
(`events_processRetries`). The run removes the republished entries and no others exactly
when there is at most one (`removesRepublished_iff`). -/

namespace DLQHandler

variable (h : DLQHandler ε)

/-- The events in the queue. -/
def events : List ε :=
  h.dlqEvents.entries.map DLQEntry.event

/-- A run that starts at `now` republishes the event of the entry with success. -/
def republished (now : ℚ) (answers : ε → Republish) (e : DLQEntry ε) : Bool :=
  (h.eventBus && h.config.enableAutoRetry) && h.isReady now e &&
    decide (answers e.event = .returned true)

/-- The run removes exactly the entries whose event was republished with success, and keeps
the others once each and in their order. -/
def RemovesRepublished (now : ℚ) (answers : ε → Republish) (times : ε → ℚ) : Prop :=
  (h.processRetries now answers times).events =
    (h.dlqEvents.entries.filter fun e => !h.republished now answers e).map DLQEntry.event

/-- The positions that the run pops, in their order. -/
def poppedPositions (now : ℚ) (answers : ε → Republish) : List ℕ :=
  ((h.eventsToRetry now).filter fun p => answers p.2.event = .returned true).map Prod.fst

variable {h} {now : ℚ} {answers : ε → Republish} {times : ε → ℚ}

theorem events_reschedule (q : EntryQueue ε) (id : ℕ) (retry : DLQEntry ε → ℕ × ℚ) :
    (q.reschedule id retry).entries.map DLQEntry.event = q.entries.map DLQEntry.event := by
  unfold EntryQueue.reschedule
  rw [List.map_map]
  refine List.map_congr_left fun e _ => ?_
  simp only [Function.comp_apply]
  split_ifs <;> rfl

/-- A retry removes what stands at its position, if its event was republished. -/
theorem events_retryEvent (h : DLQHandler ε) (index : ℕ) (entry : DLQEntry ε)
    (answer : Republish) (now : ℚ) : (h.retryEvent index entry answer now).events =
      if answer = .returned true then h.events.eraseIdx index else h.events := by
  rcases answer with success | _
  · cases success with
    | true => exact (List.eraseIdx_map _ _ _).symm
    | false =>
      have hkept : (h.retryEvent index entry (.returned false) now).events = h.events := by
        unfold retryEvent events
        dsimp only
        by_cases hindex : index < h.dlqEvents.entries.length
        · rw [if_pos hindex, events_reschedule]
        · rw [if_neg hindex]
      rw [hkept, if_neg (by decide)]
  · rfl

/-- The run pops its positions one after the other. -/
theorem events_processRetries (h : DLQHandler ε) (now : ℚ) (answers : ε → Republish)
    (times : ε → ℚ) : (h.processRetries now answers times).events =
      Positions.removeAll h.events (h.poppedPositions now answers) := by
  unfold processRetries poppedPositions
  generalize h.eventsToRetry now = retries
  induction retries generalizing h with
  | nil => rfl
  | cons p retries ih =>
    rw [List.foldl_cons, ih, events_retryEvent, List.filter_cons]
    by_cases hp : answers p.2.event = .returned true
    · rw [if_pos hp, if_pos (by simpa using hp)]
      rfl
    · rw [if_neg hp, if_neg (by simpa using hp)]

theorem poppedPositions_eq (h : DLQHandler ε) (now : ℚ) (answers : ε → Republish) :
    h.poppedPositions now answers =
      (h.dlqEvents.entries.zipIdx.filter fun p => h.republished now answers p.1).map Prod.snd := by
  unfold poppedPositions eventsToRetry republished
  cases h.eventBus && h.config.enableAutoRetry with
  | false => simp
  | true =>
    rw [if_pos rfl, List.filter_map, List.map_map, List.filter_filter]
    refine congrArg₂ List.map rfl (List.filter_congr fun p _ => ?_)
    simp [Bool.and_comm]

theorem pairwise_poppedPositions (h : DLQHandler ε) (now : ℚ) (answers : ε → Republish) :
    (h.poppedPositions now answers).Pairwise (· < ·) := by
  rw [poppedPositions_eq]
  have hsub := (List.filter_sublist (p := fun p => h.republished now answers p.1)
    (l := h.dlqEvents.entries.zipIdx)).map Prod.snd
  rw [List.zipIdx_map_snd] at hsub
  exact (List.pairwise_lt_range').sublist hsub

theorem mem_poppedPositions {p : ℕ} : p ∈ h.poppedPositions now answers ↔
    ∃ e, h.dlqEvents.entries[p]? = some e ∧ h.republished now answers e = true := by
  rw [poppedPositions_eq]
  constructor
  · intro hp
    obtain ⟨⟨e, i⟩, hmem, rfl⟩ := List.mem_map.mp hp
    obtain ⟨hzip, hrepublished⟩ := List.mem_filter.mp hmem
    exact ⟨e, List.mk_mem_zipIdx_iff_getElem?.mp hzip, hrepublished⟩
  · rintro ⟨e, he, hrepublished⟩
    exact List.mem_map.mpr ⟨(e, p),
      List.mem_filter.mpr ⟨List.mk_mem_zipIdx_iff_getElem?.mpr he, hrepublished⟩, rfl⟩

theorem length_poppedPositions (h : DLQHandler ε) (now : ℚ) (answers : ε → Republish) :
    (h.poppedPositions now answers).length =
      h.dlqEvents.entries.countP (h.republished now answers) := by
  rw [poppedPositions_eq, List.length_map, ← List.countP_eq_length_filter]
  have hentries := List.zipIdx_map_fst 0 h.dlqEvents.entries
  conv_rhs => rw [← hentries, List.countP_map]
  rfl

/-- The run does what it should exactly when at most one event is republished with
success. -/
theorem removesRepublished_iff (h : DLQHandler ε) (now : ℚ) (answers : ε → Republish)
    (times : ε → ℚ) (hdistinct : h.events.Nodup) :
    h.RemovesRepublished now answers times ↔
      h.dlqEvents.entries.countP (h.republished now answers) ≤ 1 := by
  classical
  let keep : ε → Bool := fun x =>
    !decide (∃ e ∈ h.dlqEvents.entries, e.event = x ∧ h.republished now answers e = true)
  -- distinct events : what holds of the event of an entry holds of the entry
  have hkept : ∀ e ∈ h.dlqEvents.entries, keep e.event = !h.republished now answers e := by
    intro e he
    have hiff : (∃ e' ∈ h.dlqEvents.entries, e'.event = e.event ∧
        h.republished now answers e' = true) ↔ h.republished now answers e = true :=
      ⟨fun ⟨e', he', hevent, hrep⟩ => List.inj_on_of_nodup_map hdistinct he' he hevent ▸ hrep,
        fun hrep => ⟨e, he, rfl, hrep⟩⟩
    simp only [keep, hiff, Bool.decide_eq_true]
  have hfilter : (h.dlqEvents.entries.filter fun e => !h.republished now answers e).map
      DLQEntry.event = h.events.filter keep := by
    rw [events, List.filter_map]
    exact congrArg _ (List.filter_congr fun e he => (hkept e he).symm)
  have hgone : ∀ x ∈ h.events, keep x = false ↔
      ∃ p ∈ h.poppedPositions now answers, h.events[p]? = some x := by
    intro x _
    simp only [keep, Bool.not_eq_false', decide_eq_true_iff, mem_poppedPositions, events,
      List.getElem?_map, Option.map_eq_some_iff]
    constructor
    · rintro ⟨e, he, hevent, hrep⟩
      obtain ⟨p, hp⟩ := List.mem_iff_getElem?.mp he
      exact ⟨p, ⟨e, hp, hrep⟩, e, hp, hevent⟩
    · rintro ⟨p, ⟨e, hp, hrep⟩, e', hp', hevent⟩
      obtain rfl := Option.some.inj (hp.symm.trans hp')
      exact ⟨e, List.mem_of_getElem? hp, hevent, hrep⟩
  have hlt : ∀ p ∈ h.poppedPositions now answers, p < h.events.length := by
    intro p hp
    obtain ⟨e, he, -⟩ := mem_poppedPositions.mp hp
    rw [events, List.length_map]
    exact (List.getElem?_eq_some_iff.mp he).1
  unfold RemovesRepublished
  rw [events_processRetries, hfilter, ← length_poppedPositions]
  exact Positions.removeAll_eq_filter_iff hdistinct (pairwise_poppedPositions h now answers) hlt
    keep hgone

end DLQHandler

/-- A queue with two entries that are ready, and a bus to republish them on. -/
def twoReady : DLQHandler String where
  eventBus := true
  dlqEvents := ((({} : EntryQueue String).push "a" "failed" 0 0).push "b" "failed" 0 0)

/-- One event is republished, the other is not. -/
theorem removesRepublished_one :
    twoReady.RemovesRepublished 60 (fun event => .returned (event = "b")) fun _ => 61 :=
  (twoReady.removesRepublished_iff 60 (fun event => .returned (event = "b")) (fun _ => 61)
    (by decide)).mpr (by decide +kernel)

/-- Both events are republished, and the second stays in the queue. -/
theorem not_removesRepublished :
    ¬∀ (h : DLQHandler String) (now : ℚ) (answers : String → Republish) (times : String → ℚ),
      h.events.Nodup → h.RemovesRepublished now answers times := by
  intro h
  have hboth := h twoReady 60 (fun _ => .returned true) (fun _ => 61) (by decide)
  revert hboth
  unfold DLQHandler.RemovesRepublished
  decide +kernel

end DLQ

end MultiAgent
