import Mathlib.Algebra.BigOperators.Group.List.Basic
import Mathlib.Algebra.Order.BigOperators.Group.List
import Mathlib.Algebra.Order.Field.Rat
import Mathlib.Data.List.Perm.Basic
import MultiAgent.Lib.Machine
import MultiAgent.Lib.TaskLock

/-!
# The event store

`libs/events/event_store.py`, with its two background tasks. The queries differ in what they
count as retrieved, which is an argument here. An event that cannot be turned into a
dictionary is never stored, and is left out.

`store_event` calls `_flush_events` with the lock in hand when the store has `batch_size`
events (`reacquires_storeCode`), and `_flush_events` acquires it again.
-/

namespace MultiAgent

/-- `EventStoreConfig`, as far as it is used. -/
structure EventStoreConfig where
  batchSize : ℤ := 1000
  retentionDays : ℚ := 30

/-- An entry of `events`. -/
structure StoredEvent (ε : Type*) where
  event : ε
  storedAt : ℚ
  sizeBytes : ℤ

/-- `_stats`. -/
structure EventStoreStats where
  eventsStored : ℤ := 0
  eventsRetrieved : ℤ := 0
  eventsDeleted : ℤ := 0
  storageSizeBytes : ℤ := 0

/-- `EventStore`. -/
structure EventStore (ε : Type*) where
  config : EventStoreConfig := {}
  events : List (StoredEvent ε) := []
  stats : EventStoreStats := {}

namespace EventStore

variable {ε : Type*} (s : EventStore ε)

/-- The first part of `store_event`. -/
def append (event : ε) (sizeBytes : ℤ) (now : ℚ) : EventStore ε :=
  { s with
    events := s.events ++ [{ event, storedAt := now, sizeBytes }]
    stats := { s.stats with
      eventsStored := s.stats.eventsStored + 1
      storageSizeBytes := s.stats.storageSizeBytes + sizeBytes } }

/-- `len(self.events) >= self.config.batch_size`. -/
def full : Bool :=
  decide (s.config.batchSize ≤ s.events.length)

/-- `delete_event`. -/
def deleteEvent (isEvent : ε → Bool) : EventStore ε :=
  match s.events.findIdx? fun data => isEvent data.event with
  | none => s
  | some i =>
    { s with
      events := s.events.eraseIdx i
      stats := { s.stats with
        eventsDeleted := s.stats.eventsDeleted + 1
        storageSizeBytes :=
          s.stats.storageSizeBytes - ((s.events[i]?).map StoredEvent.sizeBytes).getD 0 } }

/-- `_cleanup_old_events`. -/
def cleanupOldEvents (now : ℚ) : EventStore ε :=
  let events := s.events.filter fun data => now - s.config.retentionDays * 86400 < data.storedAt
  { s with
    events
    stats := { s.stats with
      eventsDeleted := s.stats.eventsDeleted + (s.events.length - events.length) } }

/-- `get_event`, `get_events`, `get_events_by_correlation_id` and `get_event_statistics`. -/
def query (retrieved : List (StoredEvent ε) → ℕ) : EventStore ε :=
  { s with
    stats := { s.stats with eventsRetrieved := s.stats.eventsRetrieved + retrieved s.events } }

/-- Where a task of the store is suspended : before a call, or in the sleep of one of the
processors. The answer is the time. -/
inductive Label (ε : Type*)
  | storeEvent (event : ε) (sizeBytes : ℤ)
  | deleteEvent (isEvent : ε → Bool)
  | query (retrieved : List (StoredEvent ε) → ℕ)
  | flushProcessor
  | cleanupProcessor

/-- `_flush_events`, which only logs. -/
def flushEvents (next : Code (EventStore ε) (Label ε)) : Code (EventStore ε) (Label ε) :=
  .acquire (.release next)

/-- `store_event`. -/
def storeCode (event : ε) (sizeBytes : ℤ) (now : ℚ) : Code (EventStore ε) (Label ε) :=
  .acquire (.write (fun s => s.append event sizeBytes now) (.read fun s =>
    if s.full then flushEvents (.release .done) else .release .done))

/-- A call that changes the store while it holds the lock. -/
def lockedCode (f : EventStore ε → EventStore ε) (next : Code (EventStore ε) (Label ε)) :
    Code (EventStore ε) (Label ε) :=
  .acquire (.write f (.release next))

/-- The code at a label. -/
def code : Label ε → ℚ → Code (EventStore ε) (Label ε)
  | .storeEvent event sizeBytes, now => storeCode event sizeBytes now
  | .deleteEvent isEvent, _ => lockedCode (fun s => s.deleteEvent isEvent) .done
  | .query retrieved, _ => lockedCode (fun s => s.query retrieved) .done
  | .flushProcessor, _ => flushEvents (.suspend .flushProcessor)
  | .cleanupProcessor, now =>
    lockedCode (fun s => s.cleanupOldEvents now) (.suspend .cleanupProcessor)

/-- The tasks of the store. -/
def program (ε : Type*) : Program (EventStore ε) (Label ε) ℚ fun _ => True where
  entry _ := true
  code := code
  holds _ := false
  holds_entry _ _ := rfl
  balanced label now := by
    cases label with
    | storeEvent event sizeBytes =>
      refine ⟨trivial, fun s => ?_⟩
      dsimp only
      split_ifs
      · trivial
      · exact ⟨rfl, rfl⟩
    | deleteEvent isEvent => exact ⟨trivial, rfl, rfl⟩
    | query retrieved => exact ⟨trivial, rfl, rfl⟩
    | flushProcessor => exact ⟨trivial, rfl, rfl⟩
    | cleanupProcessor => exact ⟨trivial, rfl, rfl⟩

/-- No task of the store is suspended with the lock. -/
theorem frees_code (label : Label ε) (now : ℚ) : (code label now).Frees false := by
  cases label with
  | storeEvent event sizeBytes =>
    intro s
    dsimp only
    split_ifs
    · trivial
    · rfl
  | deleteEvent isEvent => rfl
  | query retrieved => rfl
  | flushProcessor => rfl
  | cleanupProcessor => rfl

/-- `store_event` acquires the lock again when its event fills the batch. -/
theorem reacquires_storeCode (event : ε) (sizeBytes : ℤ) (now : ℚ) :
    (storeCode event sizeBytes now).reacquires true false s =
      decide (s.config.batchSize ≤ s.events.length + 1) := by
  have hfull : (s.append event sizeBytes now).full =
      decide (s.config.batchSize ≤ s.events.length + 1) := by
    simp [full, append]
  rw [← hfull]
  unfold storeCode
  simp only [Code.reacquires, Bool.true_and]
  cases (s.append event sizeBytes now).full <;> rfl

/-- The event that is stored does not fill the batch. -/
def Fits (s : EventStore ε) : Label ε → ℚ → Prop
  | .storeEvent _ _, _ => (s.events.length : ℤ) + 1 < s.config.batchSize
  | _, _ => True

theorem fits_iff (s : EventStore ε) (label : Label ε) (now : ℚ) :
    s.Fits label now ↔ (code label now).reacquires true false s = false := by
  cases label with
  | storeEvent event sizeBytes =>
    rw [code, reacquires_storeCode, decide_eq_false_iff_not, not_le]
    rfl
  | deleteEvent isEvent => exact iff_of_true trivial rfl
  | query retrieved => exact iff_of_true trivial rfl
  | flushProcessor => exact iff_of_true trivial rfl
  | cleanupProcessor => exact iff_of_true trivial rfl

instance (s : EventStore ε) (label : Label ε) (now : ℚ) : Decidable (s.Fits label now) :=
  decidable_of_iff _ (s.fits_iff label now).symm

end EventStore

/-! ## Statistics of the event store

What `_stats` says about the events that the store holds, over its calls in the order in which
they get the lock. The size of an event is that of its JSON text, which is never empty.

`events_stored` and `events_deleted` count every event (`Counted.next`). The bytes of an event
are added when it is stored and subtracted when `delete_event` removes it, while
`_cleanup_old_events` subtracts nothing : `storage_size_bytes` is right exactly as long as no
cleanup has removed an event (`accounted_iff`), and never comes right again. -/

deriving instance DecidableEq for EventStoreConfig, StoredEvent, EventStoreStats, EventStore

namespace EventStore

variable {ε : Type*}

/-- The bytes of the events that are held. -/
def heldBytes (events : List (StoredEvent ε)) : ℤ :=
  (events.map StoredEvent.sizeBytes).sum

/-- A call of the store, with the time it reads. -/
inductive Call (ε : Type*)
  | storeEvent (event : ε) (now : ℚ)
  | deleteEvent (isEvent : ε → Bool)
  | cleanupOldEvents (now : ℚ)
  | query (retrieved : List (StoredEvent ε) → ℕ)

/-- The store, and whether a `store_event` waits for the lock that it holds, after which no call
gets it. -/
structure Served (ε : Type*) where
  store : EventStore ε := {}
  blocked : Bool := false
  deriving DecidableEq

/-- A call, once it has the lock. `store_event` is called with fewer than `batch_size` events
held. -/
def Served.next (toJson : ε → String) (s : Served ε) : Call ε → Option (Served ε)
  | .storeEvent event now =>
    if s.blocked || s.store.full then none
    else
      let store := s.store.append event (toJson event).utf8ByteSize now
      some { store, blocked := store.full }
  | .deleteEvent isEvent =>
    if s.blocked then none else some { s with store := s.store.deleteEvent isEvent }
  | .cleanupOldEvents now =>
    if s.blocked then none else some { s with store := s.store.cleanupOldEvents now }
  | .query retrieved =>
    if s.blocked then none else some { s with store := s.store.query retrieved }

/-- The calls of a store. -/
def machine (config : EventStoreConfig) (toJson : ε → String) : Machine (Served ε) (Call ε) where
  init := { store := { config } }
  step := Served.next toJson

/-- What `storage_size_bytes` is above the bytes that are held. -/
def excessBytes (s : EventStore ε) : ℤ :=
  s.stats.storageSizeBytes - heldBytes s.events

/-- `_stats` agrees with the events that are held. -/
structure Accounted (s : EventStore ε) : Prop where
  storageSizeBytes : s.stats.storageSizeBytes = heldBytes s.events
  counts : s.stats.eventsStored - s.stats.eventsDeleted = s.events.length

/-- What every call keeps : the counts are right, and no byte that is held is missing from
`storage_size_bytes`. -/
structure Counted (s : EventStore ε) : Prop where
  sizes : ∀ data ∈ s.events, 0 < data.sizeBytes
  bytes : 0 ≤ s.excessBytes
  counts : s.stats.eventsStored - s.stats.eventsDeleted = s.events.length

/-- Every event that is held is newer than the cutoff of a cleanup. -/
def KeepsAll (s : EventStore ε) : Call ε → Prop
  | .cleanupOldEvents now =>
    ∀ data ∈ s.events, now - s.config.retentionDays * 86400 < data.storedAt
  | _ => True

instance (s : EventStore ε) (c : Call ε) : Decidable (s.KeepsAll c) := by
  cases c <;> unfold KeepsAll <;> infer_instance

/-! ## Bytes held -/

variable {s : EventStore ε} {events : List (StoredEvent ε)}

@[simp] theorem heldBytes_nil : heldBytes ([] : List (StoredEvent ε)) = 0 :=
  rfl

theorem heldBytes_concat (data : StoredEvent ε) :
    heldBytes (events ++ [data]) = heldBytes events + data.sizeBytes := by
  simp [heldBytes]

/-- What goes with an event that is deleted. -/
theorem heldBytes_eraseIdx {i : ℕ} (hi : i < events.length) :
    heldBytes (events.eraseIdx i) = heldBytes events - events[i].sizeBytes := by
  have hperm := ((List.getElem_cons_eraseIdx_perm hi).map StoredEvent.sizeBytes).sum_eq
  rw [List.map_cons, List.sum_cons] at hperm
  unfold heldBytes
  omega

theorem heldBytes_nonneg (hsizes : ∀ data ∈ events, 0 < data.sizeBytes) :
    0 ≤ heldBytes events := by
  refine List.sum_nonneg fun size hsize => ?_
  obtain ⟨data, hdata, rfl⟩ := List.mem_map.mp hsize
  exact (hsizes data hdata).le

/-- A cleanup that removes an event removes some bytes. -/
theorem heldBytes_filter (hsizes : ∀ data ∈ events, 0 < data.sizeBytes)
    (keep : StoredEvent ε → Bool) :
    heldBytes (events.filter keep) ≤ heldBytes events ∧
      (heldBytes (events.filter keep) = heldBytes events ↔ ∀ data ∈ events, keep data = true) := by
  induction events with
  | nil => simp
  | cons data events ih =>
    obtain ⟨hle, heq⟩ := ih fun d hd => hsizes d (List.mem_cons_of_mem _ hd)
    have hpos := hsizes data List.mem_cons_self
    have hcons : heldBytes (data :: events) = data.sizeBytes + heldBytes events := by
      simp [heldBytes]
    rw [hcons, List.forall_mem_cons]
    cases hkeep : keep data with
    | false =>
      rw [List.filter_cons_of_neg (by simp [hkeep])]
      exact ⟨by omega, iff_of_false (by omega) (by simp)⟩
    | true =>
      have hfilter : heldBytes ((data :: events).filter keep) =
          data.sizeBytes + heldBytes (events.filter keep) := by
        rw [List.filter_cons_of_pos hkeep]
        simp [heldBytes]
      rw [hfilter, add_right_inj, heq]
      exact ⟨by omega, (and_iff_right rfl).symm⟩

/-! ## The calls -/

/-- `delete_event` finds no event of the id, or removes the first one. -/
theorem deleteEvent_cases (s : EventStore ε) (isEvent : ε → Bool) :
    s.deleteEvent isEvent = s ∨ ∃ i, ∃ hi : i < s.events.length,
      s.deleteEvent isEvent =
        { s with
          events := s.events.eraseIdx i
          stats := { s.stats with
            eventsDeleted := s.stats.eventsDeleted + 1
            storageSizeBytes := s.stats.storageSizeBytes - s.events[i].sizeBytes } } := by
  unfold deleteEvent
  cases hfind : s.events.findIdx? fun data => isEvent data.event with
  | none => exact Or.inl rfl
  | some i =>
    obtain ⟨hi, -⟩ := List.findIdx?_eq_some_iff_getElem.mp hfind
    exact Or.inr ⟨i, hi, by simp [List.getElem?_eq_getElem hi]⟩

theorem excessBytes_append (event : ε) (sizeBytes : ℤ) (now : ℚ) :
    (s.append event sizeBytes now).excessBytes = s.excessBytes := by
  simp only [excessBytes, append, heldBytes_concat]
  omega

theorem excessBytes_deleteEvent (isEvent : ε → Bool) :
    (s.deleteEvent isEvent).excessBytes = s.excessBytes := by
  rcases s.deleteEvent_cases isEvent with heq | ⟨i, hi, heq⟩
  · rw [heq]
  · rw [heq]
    simp only [excessBytes, heldBytes_eraseIdx hi]
    omega

/-- The bytes that a cleanup removes stay in `storage_size_bytes`. -/
theorem excessBytes_cleanupOldEvents (h : s.Counted) (now : ℚ) :
    s.excessBytes ≤ (s.cleanupOldEvents now).excessBytes ∧
      ((s.cleanupOldEvents now).excessBytes = s.excessBytes ↔
        s.KeepsAll (.cleanupOldEvents now)) := by
  obtain ⟨hle, heq⟩ := heldBytes_filter h.sizes
    fun data => decide (now - s.config.retentionDays * 86400 < data.storedAt)
  have hexcess : ∀ events : List (StoredEvent ε),
      (s.stats.storageSizeBytes - heldBytes events = s.stats.storageSizeBytes - heldBytes s.events
        ↔ heldBytes events = heldBytes s.events) := fun events => sub_right_inj
  constructor
  · exact sub_le_sub_left hle _
  · rw [excessBytes, excessBytes, cleanupOldEvents, hexcess, heq]
    simp only [decide_eq_true_eq, KeepsAll]

theorem Counted.append (h : s.Counted) (event : ε) {sizeBytes : ℤ} (hsize : 0 < sizeBytes)
    (now : ℚ) : (s.append event sizeBytes now).Counted where
  sizes := by
    intro data hdata
    rcases List.mem_append.mp hdata with hold | hnew
    · exact h.sizes data hold
    · obtain rfl := List.mem_singleton.mp hnew
      exact hsize
  bytes := by
    rw [excessBytes_append]
    exact h.bytes
  counts := by
    have hcounts := h.counts
    simp only [EventStore.append, List.length_append, List.length_singleton, Nat.cast_add,
      Nat.cast_one]
    omega

theorem Counted.deleteEvent (h : s.Counted) (isEvent : ε → Bool) :
    (s.deleteEvent isEvent).Counted := by
  have hbytes := excessBytes_deleteEvent (s := s) isEvent
  rcases s.deleteEvent_cases isEvent with heq | ⟨i, hi, heq⟩
  · rw [heq]
    exact h
  · have hcounts := h.counts
    have hlength := List.length_eraseIdx_add_one hi
    rw [heq] at hbytes ⊢
    exact ⟨fun data hdata => h.sizes data (List.mem_of_mem_eraseIdx hdata),
      h.bytes.trans_eq hbytes.symm, by dsimp only; omega⟩

theorem Counted.cleanupOldEvents (h : s.Counted) (now : ℚ) :
    (s.cleanupOldEvents now).Counted where
  sizes := fun data hdata => h.sizes data (List.mem_filter.mp hdata).1
  bytes := h.bytes.trans (excessBytes_cleanupOldEvents h now).1
  counts := by
    have hcounts := h.counts
    dsimp only [EventStore.cleanupOldEvents]
    omega

theorem Counted.query (h : s.Counted) (retrieved : List (StoredEvent ε) → ℕ) :
    (s.query retrieved).Counted :=
  ⟨h.sizes, h.bytes, h.counts⟩

theorem Counted.accounted_iff_excess (h : s.Counted) : s.Accounted ↔ s.excessBytes = 0 :=
  ⟨fun ha => sub_eq_zero.mpr ha.storageSizeBytes, fun hz => ⟨sub_eq_zero.mp hz, h.counts⟩⟩

/-! ## Runs -/

variable {config : EventStoreConfig} {toJson : ε → String}

/-- A call keeps what is `Counted`, and what is accounted for after it was so before, unless a
cleanup removed something. -/
theorem Counted.next (hjson : ∀ event, toJson event ≠ "") {p q : Served ε} {c : Call ε}
    (h : p.store.Counted) (hst : p.next toJson c = some q) :
    q.store.Counted ∧ (q.store.Accounted ↔ p.store.Accounted ∧ p.store.KeepsAll c) := by
  have hsame : ∀ t : EventStore ε, t.Counted → t.excessBytes = p.store.excessBytes →
      (t.Accounted ↔ p.store.Accounted ∧ True) := by
    intro t ht heq
    rw [and_true, ht.accounted_iff_excess, h.accounted_iff_excess, heq]
  cases c with
  | storeEvent event now =>
    simp only [Served.next, Option.ite_none_left_eq_some, Option.some.injEq] at hst
    obtain ⟨-, rfl⟩ := hst
    have hsize : (0 : ℤ) < (toJson event).utf8ByteSize := by
      have hne := hjson event
      rw [ne_eq, ← String.utf8ByteSize_eq_zero_iff] at hne
      omega
    have hcounted := h.append event hsize now
    exact ⟨hcounted, hsame _ hcounted (excessBytes_append ..)⟩
  | deleteEvent isEvent =>
    simp only [Served.next, Option.ite_none_left_eq_some, Option.some.injEq] at hst
    obtain ⟨-, rfl⟩ := hst
    have hcounted := h.deleteEvent isEvent
    exact ⟨hcounted, hsame _ hcounted (excessBytes_deleteEvent ..)⟩
  | cleanupOldEvents now =>
    simp only [Served.next, Option.ite_none_left_eq_some, Option.some.injEq] at hst
    obtain ⟨-, rfl⟩ := hst
    obtain ⟨hle, heq⟩ := excessBytes_cleanupOldEvents h now
    have hcounted := h.cleanupOldEvents now
    have hbytes := h.bytes
    refine ⟨hcounted, ?_⟩
    rw [hcounted.accounted_iff_excess, h.accounted_iff_excess, ← heq]
    omega
  | query retrieved =>
    simp only [Served.next, Option.ite_none_left_eq_some, Option.some.injEq] at hst
    obtain ⟨-, rfl⟩ := hst
    have hcounted := h.query retrieved
    exact ⟨hcounted, hsame _ hcounted rfl⟩

theorem counted_init (config : EventStoreConfig) : ({ config } : EventStore ε).Counted :=
  ⟨fun _ hdata => (List.not_mem_nil hdata).elim, le_refl 0, rfl⟩

/-- The statistics are right at the end of a run exactly when no cleanup removed an event. -/
theorem accounted_iff (hjson : ∀ event, toJson event ≠ "") {calls : List (Call ε)} {p : Served ε}
    (h : (machine config toJson).Run (fun _ _ => True) calls p) :
    p.store.Accounted ↔
      (machine config toJson).Run (fun q c => q.store.KeepsAll c) calls p := by
  have hinit : ({ config } : EventStore ε).Counted := counted_init config
  refine h.iff_run (I := fun q => q.store.Counted) (J := fun q => q.store.Accounted)
    ⟨hinit, hinit.accounted_iff_excess.mpr rfl⟩ ?_ ?_
  · exact fun q c r hq hst => (hq.next hjson hst).1
  · exact fun q c r hq hst => (hq.next hjson hst).2

/-- One of two events is deleted, and the cleanup comes before the other one is too old. -/
def freshCalls : List (Call ℕ) :=
  [.storeEvent 1 0, .storeEvent 2 100, .deleteEvent (· == 1), .cleanupOldEvents 2592000]

/-- Their store, which starts to remove events after thirty days. -/
def freshStore : Served ℕ where
  store := {
    events := [{ event := 2, storedAt := 100, sizeBytes := 8 }]
    stats := { eventsStored := 2, eventsDeleted := 1, storageSizeBytes := 8 } }

theorem accounted_iff_fresh :
    freshStore.store.Accounted ↔
      (machine {} fun id : ℕ => "\x7b\"id\":" ++ toString id ++ "\x7d").Run
        (fun q c => q.store.KeepsAll c) freshCalls freshStore :=
  accounted_iff (fun id => by simp [String.append_assoc])
    (Machine.run_of_execWith (by decide +kernel))

/-- After thirty-one days, the cleanup leaves the size of an event that is gone. -/
theorem not_accounted :
    ¬ ∀ (calls : List (Call ℕ)) (p : Served ℕ),
      (machine {} fun _ : ℕ => "\x7b\x7d").Run (fun _ _ => True) calls p → p.store.Accounted := by
  intro h
  obtain ⟨p, hrun, hp⟩ := Machine.exists_run (machine {} fun _ : ℕ => "\x7b\x7d")
    (fun _ _ => True) [.storeEvent 1 0, .cleanupOldEvents 2678400]
    (fun p => p.store.stats.storageSizeBytes != heldBytes p.store.events) (by decide +kernel)
  rw [(h _ p hrun).storageSizeBytes, bne_self_eq_false] at hp
  cases hp

end EventStore

end MultiAgent
