import Mathlib.Data.Rat.Cast.Order
import MultiAgent.Events.NATSDeadLetters

/-!
# The dead letter processor

`DLQProcessor.process_dlq_message` of `libs/events/dlq_processor.py`, which takes the
dead letters that `_handle_dlq_message` passes on, with a database that accepts writes. The
outcome of the event's handler is given from outside, and `json.loads` is a parameter. The
wait before a retry is left out.

Both kinds of record get `str(UUID())` for an id, which raises, and the exception is only
logged : a message ends with a handler that returned, or without a trace
(`settled_iff`). The subjects of `publish_event` name no event type, so a message that
comes from there always ends without one (`processDlqMessage_publishSubject`).
-/

namespace MultiAgent

namespace NATS

open Json (Key Value)

/-- `EventType`. -/
inductive EventType
  | agentRun
  | toolCall
  | ingestDoc
  | usageMetered
  | routerDecision
  | websocketMessage
  | billingEvent
  | auditLog
  deriving DecidableEq

namespace EventType

/-- The value of a member. -/
def value : EventType → String
  | agentRun => "agent_run"
  | toolCall => "tool_call"
  | ingestDoc => "ingest_doc"
  | usageMetered => "usage_metered"
  | routerDecision => "router_decision"
  | websocketMessage => "websocket_message"
  | billingEvent => "billing_event"
  | auditLog => "audit_log"

/-- The members. -/
def all : List EventType :=
  [agentRun, toolCall, ingestDoc, usageMetered, routerDecision, websocketMessage, billingEvent,
    auditLog]

/-- `EventType(value)`, where `none` stands for the exception. -/
def ofValue (value : String) : Option EventType :=
  all.find? fun eventType => eventType.value = value

end EventType

/-- `EVENT_HANDLERS`, by the event types that have one. -/
def eventHandlers : List EventType :=
  [.agentRun, .toolCall, .ingestDoc, .usageMetered, .routerDecision, .websocketMessage,
    .billingEvent, .auditLog]

/-- `PermanentFailure`. -/
structure PermanentFailure where
  id : String
  tenantId : String
  eventType : String
  originalSubject : Value
  originalData : Value
  originalHeaders : Value
  error : Value
  failedAt : Value
  retryCount : Value
  createdAt : ℚ

/-- `DLQProcessingError`. -/
structure DLQProcessingError where
  id : String
  tenantId : String
  dlqData : Value
  error : String
  createdAt : ℚ

/-- What a call leaves behind : the event's handler returned, or a record is stored. -/
inductive Trace
  | handled (eventType : EventType) (originalData : Value)
  | permanentFailure (record : PermanentFailure)
  | processingError (record : DLQProcessingError)

/-- `str(UUID())`. `UUID` raises unless it is given one argument. -/
def emptyUUID : Option String :=
  none

/-- `d.get(key, default)`. -/
def getItem (d : List (Key × Value)) (key : String) (default : Value) : Value :=
  (d.lookup (.str key)).getD default

/-- The value as a string, where `none` stands for the exception that another type raises. -/
def asStr : Value → Option String
  | .str s => some s
  | _ => none

/-- `v >= n`. -/
def atLeast (n : ℤ) : Value → Option Bool
  | .bool b => some (decide (n ≤ if b then 1 else 0))
  | .int i => some (decide (n ≤ i))
  | .float q => some (decide ((n : ℚ) ≤ q))
  | _ => none

/-- `_extract_event_type`. -/
def extractEventType (subject : String) : Option EventType :=
  match Split.split '.' subject with
  | eventType :: _ :: _ => EventType.ofValue eventType
  | _ => none

/-- `_calculate_retry_delay` of a count below `retry_attempts` raises : the count is an
integer that is no float. -/
def delayRaises : Value → Bool
  | .int i => decide (i ≤ -(2 ^ 1024 - 2 ^ 970))
  | _ => false

/-- `retry_attempts`. -/
def retryAttempts : ℤ :=
  3

/-- `DLQProcessor`. -/
structure DLQProcessor where
  tenantId : String

namespace DLQProcessor

variable (p : DLQProcessor) (now : ℚ)

/-- The record that `_store_permanent_failure` stores. -/
def storePermanentFailure (d : List (Key × Value)) (eventType : EventType) (error : Value) :
    Option PermanentFailure := do
  let id ← emptyUUID
  return {
    id
    tenantId := p.tenantId
    eventType := eventType.value
    originalSubject := getItem d "original_subject" (.str "")
    originalData := getItem d "original_data" (.str "")
    originalHeaders := getItem d "original_headers" (.dict [])
    error
    failedAt := getItem d "failed_at" (.float now)
    retryCount := getItem d "retry_count" (.int 0)
    createdAt := now }

/-- The record that `_store_processing_error` stores. -/
def storeProcessingError (dlqData : Value) (error : String) : Option DLQProcessingError := do
  let id ← emptyUUID
  return { id, tenantId := p.tenantId, dlqData, error, createdAt := now }

/-- `_handle_final_failure`. -/
def handleFinalFailure (d : List (Key × Value)) (eventType : EventType) (error : Value) :
    List Trace :=
  match p.storePermanentFailure now d eventType error with
  | some record => [.permanentFailure record]
  | none => []

/-- `_handle_processing_error`. -/
def handleProcessingError (dlqData : Value) (error : String) : List Trace :=
  match p.storeProcessingError now dlqData error with
  | some record => [.processingError record]
  | none => []

variable (loads : String → Option Value) (handle : EventType → Value → Bool)

/-- The `try` block of `process_dlq_message`, where `none` stands for an exception. -/
def tryDlqMessage (dlqData : Value) : Option (List Trace) :=
  match dlqData with
  | .dict d => do
    let originalData ← loads (← asStr (getItem d "original_data" (.str "\x7b\x7d")))
    let error := getItem d "error" (.str "Unknown error")
    let retryCount := getItem d "retry_count" (.int 0)
    match extractEventType (← asStr (getItem d "original_subject" (.str ""))) with
    | none => return []
    | some eventType =>
      if ← atLeast retryAttempts retryCount then
        return p.handleFinalFailure now d eventType error
      else if delayRaises retryCount || !eventHandlers.contains eventType then none
      else if handle eventType originalData then return [.handled eventType originalData]
      else none
  | _ => none

/-- `process_dlq_message`. `errorText` is the text of an exception. -/
def processDlqMessage (errorText : String) (dlqData : Value) : List Trace :=
  match p.tryDlqMessage now loads handle dlqData with
  | some traces => traces
  | none => p.handleProcessingError now dlqData errorText

/-- The processor retries a dead letter with the handler of `eventType`. -/
def Retries (dlqData : Value) (eventType : EventType) (originalData : Value) : Prop :=
  ∃ d text subject, dlqData = .dict d ∧
    getItem d "original_data" (.str "\x7b\x7d") = .str text ∧ loads text = some originalData ∧
    getItem d "original_subject" (.str "") = .str subject ∧
    extractEventType subject = some eventType ∧
    atLeast retryAttempts (getItem d "retry_count" (.int 0)) = some false ∧
    delayRaises (getItem d "retry_count" (.int 0)) = false

variable {p now loads handle}

/-! ## What is stored -/

theorem handleFinalFailure_eq_nil (d : List (Key × Value)) (eventType : EventType)
    (error : Value) : p.handleFinalFailure now d eventType error = [] :=
  rfl

theorem handleProcessingError_eq_nil (dlqData : Value) (error : String) :
    p.handleProcessingError now dlqData error = [] :=
  rfl

theorem asStr_eq_some {v : Value} {s : String} : asStr v = some s ↔ v = .str s := by
  cases v <;> simp [asStr]

theorem tryDlqMessage_eq_singleton {dlqData : Value} {t : Trace} :
    p.tryDlqMessage now loads handle dlqData = some [t] ↔
      ∃ eventType originalData, Retries loads dlqData eventType originalData ∧
        handle eventType originalData = true ∧ t = .handled eventType originalData := by
  constructor
  · intro h
    unfold tryDlqMessage at h
    split at h
    · rename_i d
      obtain ⟨text, htext, h⟩ := Option.bind_eq_some_iff.mp h
      obtain ⟨originalData, hloads, h⟩ := Option.bind_eq_some_iff.mp h
      obtain ⟨subject, hsubject, h⟩ := Option.bind_eq_some_iff.mp h
      cases htype : extractEventType subject with
      | none => simp [htype] at h
      | some eventType =>
        simp only [htype] at h
        obtain ⟨exceeded, hcount, h⟩ := Option.bind_eq_some_iff.mp h
        cases exceeded with
        | true => simp [handleFinalFailure_eq_nil] at h
        | false =>
          simp only [Bool.false_eq_true, if_false] at h
          split_ifs at h with hdelay hreturns
          · rw [Bool.or_eq_true, not_or, Bool.not_eq_true] at hdelay
            refine ⟨eventType, originalData, ⟨d, text, subject, rfl, asStr_eq_some.1 htext, hloads,
              asStr_eq_some.1 hsubject, htype, hcount, hdelay.1⟩, hreturns, ?_⟩
            exact (List.singleton_inj.mp (Option.some.inj h)).symm
    · cases h
  · rintro ⟨eventType, originalData, ⟨d, text, subject, rfl, htext, hloads, hsubject, htype, hcount,
      hdelay⟩, hreturns, rfl⟩
    have hregistered : eventType ∈ eventHandlers := by
      cases eventType <;> decide
    simp [tryDlqMessage, htext, hsubject, asStr, hloads, htype, hcount, hdelay, hregistered,
      hreturns]

/-- A call leaves exactly one trace exactly when the processor retries the dead letter and
the event's handler returns. -/
theorem settled_iff (p : DLQProcessor) (now : ℚ) (loads : String → Option Value)
    (handle : EventType → Value → Bool) (errorText : String) (dlqData : Value) :
    (∃ t, p.processDlqMessage now loads handle errorText dlqData = [t]) ↔
      ∃ eventType originalData, Retries loads dlqData eventType originalData ∧
        handle eventType originalData = true := by
  have hprocess : ∀ t, p.processDlqMessage now loads handle errorText dlqData = [t] ↔
      p.tryDlqMessage now loads handle dlqData = some [t] := by
    intro t
    unfold processDlqMessage
    cases p.tryDlqMessage now loads handle dlqData with
    | none => simp [handleProcessingError_eq_nil]
    | some traces => simp
  constructor
  · rintro ⟨t, ht⟩
    obtain ⟨eventType, originalData, hretries, hreturns, -⟩ :=
      tryDlqMessage_eq_singleton.mp ((hprocess t).mp ht)
    exact ⟨eventType, originalData, hretries, hreturns⟩
  · rintro ⟨eventType, originalData, hretries, hreturns⟩
    exact ⟨_, (hprocess _).mpr
      (tryDlqMessage_eq_singleton.mpr ⟨eventType, originalData, hretries, hreturns, rfl⟩)⟩

/-- A dead letter of a usage event. -/
def usageLetter (retryCount : ℤ) : Value :=
  .dict [(.str "original_subject", .str "usage_metered.events"),
    (.str "original_data", .str "\x7b\x7d"), (.str "retry_count", .int retryCount)]

/-- `json.loads` of the text of an empty object. -/
def loadsEmpty (text : String) : Option Value :=
  if text = "\x7b\x7d" then some (.dict []) else none

/-- A dead letter that was retried three times ends without a record of its failure. -/
theorem not_settled :
    ¬∀ (p : DLQProcessor) (now : ℚ) (loads : String → Option Value)
      (handle : EventType → Value → Bool) (errorText : String) (dlqData : Value),
      ∃ t, p.processDlqMessage now loads handle errorText dlqData = [t] := by
  intro h
  obtain ⟨t, ht⟩ := h ⟨"t"⟩ 0 loadsEmpty (fun _ _ => true) "" (usageLetter 3)
  have hnone : (⟨"t"⟩ : DLQProcessor).processDlqMessage 0 loadsEmpty (fun _ _ => true) ""
      (usageLetter 3) = [] := by
    decide +kernel
  exact List.cons_ne_nil t [] (ht.symm.trans hnone)

/-! ## The dead letters of the client -/

/-- The subjects of `publish_event` name no event type. -/
theorem extractEventType_publishSubject (eventType : String) :
    extractEventType (publishSubject eventType) = none := by
  have hkey : EventType.ofValue (routingKey eventType) = none := by
    have htables : ∀ q ∈ routingKeys.items, EventType.ofValue q.2 = none := by decide
    unfold routingKey
    cases hget : routingKeys.get? eventType with
    | some key =>
      rw [Dict.getD_of_get? hget]
      exact htables (eventType, key) (Dict.mem_items.mpr hget)
    | none =>
      rw [Dict.getD, hget]
      decide
  have hhead := head?_split_publishSubject eventType
  unfold extractEventType
  split
  · rename_i first second rest hparts
    rw [hparts, List.head?_cons, Option.some_inj] at hhead
    rw [hhead, hkey]
  · rfl

/-- A dead letter whose subject names no event type is dropped. -/
theorem processDlqMessage_of_unknown {d : List (Key × Value)} {subject : String}
    (hsubject : getItem d "original_subject" (.str "") = .str subject)
    (htype : extractEventType subject = none) (errorText : String) :
    p.processDlqMessage now loads handle errorText (.dict d) = [] := by
  unfold processDlqMessage
  cases htry : p.tryDlqMessage now loads handle (.dict d) with
  | none => exact handleProcessingError_eq_nil _ _
  | some traces =>
    obtain ⟨text, -, htry⟩ := Option.bind_eq_some_iff.mp htry
    obtain ⟨originalData, -, htry⟩ := Option.bind_eq_some_iff.mp htry
    obtain ⟨subject', hstr, htry⟩ := Option.bind_eq_some_iff.mp htry
    obtain rfl : subject = subject' := Value.str.inj (hsubject.symm.trans (asStr_eq_some.1 hstr))
    rw [htype] at htry
    exact (Option.some.inj htry).symm

/-- So the dead letter of a message that `publish_event` published is dropped. -/
theorem processDlqMessage_publishSubject {message : Msg} {eventType : String}
    (hsubject : message.subject = publishSubject eventType) (originalData error : String)
    (failedAt : ℚ) (errorText : String) :
    p.processDlqMessage now loads handle errorText (dlqData message originalData error failedAt) =
      [] := by
  refine processDlqMessage_of_unknown ?_ (extractEventType_publishSubject eventType) errorText
  rw [← hsubject]
  rfl

end DLQProcessor

end NATS

end MultiAgent
