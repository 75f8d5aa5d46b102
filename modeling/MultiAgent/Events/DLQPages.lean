import MultiAgent.Events.DLQHandler
import MultiAgent.Events.EventStore
import MultiAgent.Lib.Paging

/-!
# Pages of the dead letter queue

`get_dlq_events` of `libs/events/dlq_handler.py` against `get_events` of
`libs/events/event_store.py`. `limit` and `offset` are not negative. What `Event.from_dict` makes
of an entry has the metadata `metadata`.

`EventStore.get_events` filters and then cuts the page, so that a client that reads page after
page gets every event that passes (`getEvents_pages`). `get_dlq_events` cuts the page and then
filters. A page with an entry of another type is short, and the client takes it for the last :
it gets the entries of its type if and only if none of them stands behind such a page
(`getDlqEvents_pages_iff`).
-/

namespace MultiAgent

open Paging

/-- `EventType`. -/
inductive EventType
  | agentRun
  | toolCall
  | ingestDoc
  | usageMetered
  | routerDecision
  | websocketMessage
  | billingEvent
  | auditLog
  deriving DecidableEq

/-- The metadata of an event, as far as the queries read it. -/
structure EventMetadata where
  eventType : EventType
  tenantId : String
  userId : String
  timestamp : ℚ

variable {ε : Type*} (metadata : ε → EventMetadata)

/-! ## The event store -/

namespace EventStore

/-- The filters of `get_events`. -/
structure EventFilter where
  eventType : Option EventType := none
  tenantId : Option String := none
  userId : Option String := none
  startTime : Option ℚ := none
  endTime : Option ℚ := none

/-- `tenant_id and metadata.tenant_id != tenant_id`, where an empty text filters nothing. -/
def otherText (wanted : Option String) (value : String) : Bool :=
  match wanted with
  | none => false
  | some text => text != "" && value != text

/-- The event is not skipped by a `continue`. -/
def EventFilter.passes (filter : EventFilter) (m : EventMetadata) : Bool :=
  !(filter.eventType.any (m.eventType != ·) ||
    otherText filter.tenantId m.tenantId ||
    otherText filter.userId m.userId ||
    filter.startTime.any (fun time => decide (m.timestamp < time)) ||
    filter.endTime.any (fun time => decide (time < m.timestamp)))

/-- `get_events`. -/
def getEvents (s : EventStore ε) (filter : EventFilter) (limit offset : ℕ) :
    List ε × EventStore ε :=
  let filteredEvents :=
    (s.events.map StoredEvent.event).filter fun event => filter.passes (metadata event)
  let events := (filteredEvents.drop offset).take limit
  (events, s.query fun _ => events.length)

/-- A client gets the events that pass, each once and in their order. -/
theorem getEvents_pages (s : EventStore ε) (filter : EventFilter) {n : ℕ} (h : 0 < n) :
    PagesInto (fun offset => (s.getEvents metadata filter n offset).1) n 0
      ((s.events.map StoredEvent.event).filter fun event => filter.passes (metadata event)) :=
  pagesInto_self h _

end EventStore

/-! ## The dead letter queue -/

namespace DLQ

/-- The entries that `event_type` asks for. -/
def ofType (eventType : Option EventType) (entry : DLQEntry ε) : Bool :=
  eventType.all fun t => decide ((metadata entry.event).eventType = t)

/-- `get_dlq_events`. -/
def getDlqEvents (q : EntryQueue ε) (limit offset : ℕ) (eventType : Option EventType) :
    List (DLQEntry ε) :=
  let events := (q.entries.drop offset).take limit
  match eventType with
  | none => events
  | some t => events.filter fun entry => (metadata entry.event).eventType = t

/-- Without a type every entry is asked for. -/
theorem getDlqEvents_eq (q : EntryQueue ε) (limit offset : ℕ) (eventType : Option EventType) :
    getDlqEvents metadata q limit offset eventType =
      ((q.entries.drop offset).take limit).filter (ofType metadata eventType) := by
  cases eventType with
  | none => exact (List.filter_eq_self.mpr fun _ _ => rfl).symm
  | some t => rfl

/-- The filter of the store asks for the same events. -/
theorem passes_eq_ofType (eventType : Option EventType) (entry : DLQEntry ε) :
    ({ eventType := eventType } : EventStore.EventFilter).passes (metadata entry.event) =
      ofType metadata eventType entry := by
  cases eventType with
  | none => rfl
  | some t =>
    simp [EventStore.EventFilter.passes, ofType, EventStore.otherText, bne, beq_eq_decide]

/-- The client of the queue gets the entries of the type, and their events are those that the
client of a store with the same events gets. -/
def PagesAgree (q : EntryQueue ε) (s : EventStore ε) (eventType : Option EventType) (n : ℕ) :
    Prop :=
  ∃ entries, PagesInto (fun offset => getDlqEvents metadata q n offset eventType) n 0 entries ∧
    entries = q.entries.filter (ofType metadata eventType) ∧
    PagesInto (fun offset => (s.getEvents metadata { eventType := eventType } n offset).1) n 0
      (entries.map DLQEntry.event)

/-- Pages of the queue are those of the store exactly if every page before one with an entry of
the type has only entries of the type. -/
theorem getDlqEvents_pages_iff (q : EntryQueue ε) (s : EventStore ε)
    (hsame : s.events.map StoredEvent.event = q.entries.map DLQEntry.event)
    (eventType : Option EventType) {n : ℕ} (h : 1 ≤ n) :
    PagesAgree metadata q s eventType n ↔
      ∀ (i j : ℕ) (x y : DLQEntry ε), q.entries[i]? = some x → q.entries[j]? = some y →
        i / n < j / n → ofType metadata eventType y = true →
          ofType metadata eventType x = true := by
  have hstore := s.getEvents_pages metadata { eventType := eventType } h
  have hfilter := List.filter_congr (l := q.entries) fun entry _ =>
    passes_eq_ofType metadata eventType entry
  rw [hsame, List.filter_map, Function.comp_def, hfilter] at hstore
  have hqueue := pagesInto_filter_iff h (ofType metadata eventType) q.entries
  unfold PagesAgree
  simp only [getDlqEvents_eq]
  constructor
  · rintro ⟨_, hpages, rfl, _⟩
    exact hqueue.mp hpages
  · intro hleading
    exact ⟨_, hqueue.mpr hleading, rfl, hstore⟩

/-- Two entries of the type, read one by one. -/
theorem getDlqEvents_pages_toolCalls :
    let event : EventMetadata := ⟨.toolCall, "t", "u", 0⟩
    let q : EntryQueue EventMetadata :=
      { entries := [⟨0, event, "r", 0, 0, 0⟩, ⟨1, event, "r", 0, 0, 0⟩], made := 2
        below := by decide, nodup := by decide }
    let s : EventStore EventMetadata := { events := [⟨event, 0, 1⟩, ⟨event, 0, 1⟩] }
    PagesAgree id q s (some .toolCall) 1 := by
  intro event q s
  refine (getDlqEvents_pages_iff id q s rfl (some .toolCall) (n := 1) le_rfl).mpr ?_
  intro i j x y hx _ _ _
  have hall : ∀ e ∈ q.entries, ofType id (some .toolCall) e = true := by decide
  exact hall x (List.mem_of_getElem? hx)

/-- A page of the queue with an entry of another type ends the reading, though the entry that
is asked for comes next. -/
theorem not_getDlqEvents_pages :
    let other : EventMetadata := ⟨.agentRun, "t", "u", 0⟩
    let wanted : EventMetadata := ⟨.toolCall, "t", "u", 0⟩
    let q : EntryQueue EventMetadata :=
      { entries := [⟨0, other, "r", 0, 0, 0⟩, ⟨1, wanted, "r", 0, 0, 0⟩], made := 2
        below := by decide, nodup := by decide }
    let s : EventStore EventMetadata := { events := [⟨other, 0, 1⟩, ⟨wanted, 0, 1⟩] }
    ¬PagesAgree id q s (some .toolCall) 1 := by
  rintro other wanted q s ⟨entries, hpages, hentries, _⟩
  have hlast : PagesInto (fun offset => getDlqEvents id q 1 offset (some .toolCall)) 1 0 [] :=
    .last (by decide)
  have hempty : ([] : List (DLQEntry EventMetadata)) = q.entries.filter _ :=
    hentries ▸ hlast.unique hpages
  exact absurd (congrArg List.length hempty) (by decide)

end DLQ

end MultiAgent
