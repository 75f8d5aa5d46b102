import Mathlib.Algebra.Order.Field.Rat
import Mathlib.Data.Rat.Floor
import MultiAgent.Lib.Json
import MultiAgent.Lib.Split

/-!
# The NATS client

`publish_event`, `_send_to_dlq`, `subscribe_to_dlq` and `_handle_dlq_message` of
`libs/events/nats_client.py`, for a connected client. What JetStream and the handlers answer
is given from outside. The text of `json.dumps` is a parameter, as nothing reads it but
`json.loads`, which gives the reloaded value.
-/

namespace MultiAgent

namespace NATS

open Json (Key Value)

/-- `subjects`. -/
def subjects : Dict String String where
  items :=
    [("agent_run", "agent.run"), ("tool_call", "tool.call"), ("ingest_doc", "ingest.doc"),
      ("usage_metered", "usage.metered"), ("router_decision", "router.decision"),
      ("websocket_message", "websocket.message"), ("billing_event", "billing.event"),
      ("audit_log", "audit.log")]
  nodup := by decide

/-- `dlq_subjects`. -/
def dlqSubjects : Dict String String where
  items :=
    [("agent_run", "agent.run.dlq"), ("tool_call", "tool.call.dlq"),
      ("ingest_doc", "ingest.doc.dlq"), ("usage_metered", "usage.metered.dlq"),
      ("router_decision", "router.decision.dlq"),
      ("websocket_message", "websocket.message.dlq"), ("billing_event", "billing.event.dlq"),
      ("audit_log", "audit.log.dlq")]
  nodup := by decide

/-- The data of a message : bytes that are no text, a text that is no JSON, or one that is,
with its value. -/
inductive Payload
  | bytes
  | text (s : String)
  | json (s : String) (v : Value)

/-- `data.decode()`, where `none` stands for an exception. -/
def Payload.decode : Payload → Option String
  | .bytes => none
  | .text s => some s
  | .json s _ => some s

/-- `json.loads(data.decode())`. -/
def Payload.loads : Payload → Option Value
  | .json _ v => some v
  | _ => none

/-- `nats.Msg`. -/
structure Msg where
  subject : String
  data : Payload
  headers : Dict String String := .empty
  numDelivered : ℕ := 1

/-- `base_subject` of an event type. -/
def baseSubject (eventType : String) : String :=
  subjects.getD eventType "unknown"

/-- The subject that `publish_event` publishes to. -/
def publishSubject (eventType : String) : String :=
  baseSubject eventType ++ "." ++ eventType

/-- The dead letter subject of an event type. -/
def dlqSubject (eventType : String) : String :=
  dlqSubjects.getD eventType (eventType ++ ".dlq")

section Client

variable (dumps : Value → String)

/-- The message that `publish_event` publishes, unless `data` is not serializable. -/
def publishEvent (eventType : String) (data : Value) (tenantId eventId : String)
    (headers : Dict String String) (now : ℚ) : Option Msg :=
  let eventPayload : Value := .dict
    [(.str "event_id", .str eventId), (.str "event_type", .str eventType),
      (.str "tenant_id", .str tenantId), (.str "timestamp", .float now), (.str "data", data)]
  let eventHeaders : Dict String String :=
    (((Dict.empty.set "tenant_id" tenantId).set "event_type" eventType).set "timestamp"
      (toString ⌊now⌋)).set "event_id" eventId
  eventPayload.reload.map fun v =>
    { subject := publishSubject eventType
      data := .json (dumps eventPayload) v
      headers := headers.items.foldl (fun d p => d.set p.1 p.2) eventHeaders }

/-- An item of a dictionary of strings, as a value. -/
def stringItem (p : String × String) : Key × Value :=
  (.str p.1, .str p.2)

/-- The payload of a dead letter. -/
def dlqData (message : Msg) (originalData error : String) (failedAt : ℚ) : Value :=
  .dict
    [(.str "original_subject", .str message.subject), (.str "original_data", .str originalData),
      (.str "original_headers", .dict (message.headers.items.map stringItem)),
      (.str "error", .str error), (.str "failed_at", .float failedAt),
      (.str "retry_count", .int message.numDelivered)]

/-- The message that `_send_to_dlq` publishes, unless the data of the message is no text. -/
def sendToDlq (eventType : String) (message : Msg) (error : String) (failedAt : ℚ) :
    Option Msg := do
  let originalData ← message.data.decode
  let v ← (dlqData message originalData error failedAt).reload
  return {
    subject := dlqSubject eventType
    data := .json (dumps (dlqData message originalData error failedAt)) v
    headers := ((Dict.empty.set "original_subject" message.subject).set "error" error).set
      "failed_at" (toString ⌊failedAt⌋) }

theorem isJsonItems_map_stringItem : ∀ l : List (String × String),
    Value.isJsonItems (l.map stringItem) = true
  | [] => rfl
  | p :: l => by
    rw [List.map_cons, stringItem, Value.isJsonItems, isJsonItems_map_stringItem l]
    rfl

theorem isJson_stringItems (d : Dict String String) :
    (Value.dict (d.items.map stringItem)).isJson = true := by
  have hkeys : (d.items.map stringItem).map Prod.fst = (d.items.map Prod.fst).map Key.str := by
    rw [List.map_map, List.map_map]
    rfl
  have hnodup : ((d.items.map stringItem).map Prod.fst).Nodup := by
    rw [hkeys]
    exact d.nodup.map fun _ _ heq => Key.str.inj heq
  rw [Value.isJson, isJsonItems_map_stringItem, Bool.true_and, decide_eq_true_iff]
  exact hnodup

/-- The payload of a dead letter is what its reader loads. -/
theorem reload_dlqData (message : Msg) (originalData error : String) (failedAt : ℚ) :
    (dlqData message originalData error failedAt).reload =
      some (dlqData message originalData error failedAt) := by
  refine Value.reload_of_isJson ?_
  have hheaders := isJson_stringItems message.headers
  simp [dlqData, Value.isJson, Value.isJsonItems, Key.isStr] at hheaders ⊢
  exact hheaders

theorem isSome_sendToDlq (eventType : String) (message : Msg) (error : String) (failedAt : ℚ) :
    (sendToDlq dumps eventType message error failedAt).isSome = message.data.decode.isSome := by
  unfold sendToDlq
  cases message.data.decode with
  | none => rfl
  | some originalData =>
    simp only [reload_dlqData, Option.bind_eq_bind, Option.bind_some]
    rfl

end Client

section DLQHandlers

variable {η : Type*}

/-- `subscribe_to_dlq`, once JetStream has subscribed. -/
def subscribeToDlq (dlqHandlers : Dict String η) (eventType : String) (handler : η) :
    Dict String η :=
  dlqHandlers.set eventType handler

/-- What `_handle_dlq_message` does with a message. -/
inductive DLQAction (η : Type*)
  | call (handler : η) (dlqData : Value)
  | ack

/-- `dlq_data.get("original_subject", "").split(".")[0]`, where `none` stands for an
exception. -/
def dlqEventType : Value → Option String
  | .dict d =>
    match d.lookup (.str "original_subject") with
    | none => some ""
    | some (.str subject) => (Split.split '.' subject).head?
    | some _ => none
  | _ => none

/-- `_handle_dlq_message`. -/
def handleDlqMessage (dlqHandlers : Dict String η) (msg : Msg) (handlerReturns ackReturns : Bool) :
    List (DLQAction η) :=
  let acked := if ackReturns then [.ack] else []
  match msg.data.loads with
  | none => []
  | some dlqData =>
    match dlqEventType dlqData with
    | none => []
    | some eventType =>
      match dlqHandlers.get? eventType with
      | some handler => .call handler dlqData :: if handlerReturns then acked else []
      | none => acked

end DLQHandlers

end NATS

end MultiAgent
