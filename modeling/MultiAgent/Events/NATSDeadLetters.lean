import MultiAgent.Events.NATSClient

/-!
# Which handler gets a dead letter

A dead letter of an event type goes from `publish_event` over `_send_to_dlq` to
`_handle_dlq_message`. Handlers are registered under the event type, and looked up under the
first part of the subject the event was published to (`dlqEventType_sendToDlq`), which is
the first part of the type's base subject and never the type itself, but for a type that is
called `unknown`. So a message gets to the handler of its type exactly when that handler
is registered under the first part too (`passedFirst_iff`).
-/

namespace MultiAgent

namespace NATS

open Json (Key Value)

/-- The first parts of the base subjects. -/
def routingKeys : Dict String String where
  items :=
    [("agent_run", "agent"), ("tool_call", "tool"), ("ingest_doc", "ingest"),
      ("usage_metered", "usage"), ("router_decision", "router"),
      ("websocket_message", "websocket"), ("billing_event", "billing"), ("audit_log", "audit")]
  nodup := by decide

/-- What the handler of a message of an event type is looked up under. -/
def routingKey (eventType : String) : String :=
  routingKeys.getD eventType "unknown"

/-- The message is passed to `handler` before it is acknowledged, and to no other. -/
def PassedFirst {η : Type*} (dlqHandlers : Dict String η) (msg : Msg) (handler : η) : Prop :=
  ∀ handlerReturns ackReturns, ∃ dlqData rest, msg.data.loads = some dlqData ∧
    handleDlqMessage dlqHandlers msg handlerReturns ackReturns = .call handler dlqData :: rest ∧
      ∀ a ∈ rest, a = .ack

/-! ## The subject -/

theorem head?_split_baseSubject (eventType : String) :
    (Split.split '.' (baseSubject eventType)).head? = some (routingKey eventType) := by
  have htables : ∀ p ∈ subjects.items,
      (Split.split '.' p.2).head? = some (routingKey p.1) := by decide +kernel
  cases hbase : subjects.get? eventType with
  | some base =>
    rw [baseSubject, Dict.getD_of_get? hbase]
    exact htables (eventType, base) (Dict.mem_items.mpr hbase)
  | none =>
    have hkey : routingKeys.get? eventType = none := by
      rw [Dict.get?_eq_none] at hbase ⊢
      exact hbase
    rw [baseSubject, routingKey, Dict.getD, Dict.getD, hbase, hkey]
    decide +kernel

/-- The first part of the subject that a type is published to. -/
theorem head?_split_publishSubject (eventType : String) :
    (Split.split '.' (publishSubject eventType)).head? = some (routingKey eventType) := by
  rw [← head?_split_baseSubject]
  exact Split.head?_split_append (baseSubject eventType) eventType

/-- No event type but `unknown` is the first part of its own subject. -/
theorem routingKey_eq_self (eventType : String) :
    routingKey eventType = eventType ↔ eventType = "unknown" := by
  have htables : ∀ p ∈ routingKeys.items, p.2 ≠ p.1 := by decide
  constructor
  · intro heq
    cases hkey : routingKeys.get? eventType with
    | some key =>
      rw [routingKey, Dict.getD_of_get? hkey] at heq
      exact absurd heq (htables (eventType, key) (Dict.mem_items.mpr hkey))
    | none =>
      rw [routingKey, Dict.getD, hkey] at heq
      exact heq.symm
  · rintro rfl
    decide

/-! ## The dead letter -/

/-- A dead letter carries the subject of its message. -/
theorem dlqEventType_sendToDlq {dumps : Value → String} {eventType error : String}
    {message dlqMsg : Msg} {failedAt : ℚ}
    (h : sendToDlq dumps eventType message error failedAt = some dlqMsg) :
    ∃ dlqData, dlqMsg.data.loads = some dlqData ∧
      dlqEventType dlqData = (Split.split '.' message.subject).head? := by
  unfold sendToDlq at h
  obtain ⟨originalData, -, h⟩ := Option.bind_eq_some_iff.mp h
  rw [reload_dlqData] at h
  obtain rfl := Option.some.inj h
  exact ⟨_, rfl, rfl⟩

/-- What `_handle_dlq_message` does with a dead letter. -/
theorem passedFirst_iff_get? {η : Type*} {dlqHandlers : Dict String η} {handler : η} {msg : Msg}
    {dlqData : Value} {key : String} (hloads : msg.data.loads = some dlqData)
    (hkey : dlqEventType dlqData = some key) :
    PassedFirst dlqHandlers msg handler ↔ dlqHandlers.get? key = some handler := by
  unfold PassedFirst handleDlqMessage
  simp only [hloads, hkey]
  constructor
  · intro h
    obtain ⟨dlqData', rest, -, hactions, -⟩ := h true true
    cases hget : dlqHandlers.get? key with
    | none => simp [hget] at hactions
    | some handler' =>
      simp only [hget, List.cons.injEq, DLQAction.call.injEq] at hactions
      rw [hactions.1.1]
  · intro hget handlerReturns ackReturns
    simp only [hget]
    refine ⟨dlqData, _, rfl, rfl, fun a ha => ?_⟩
    cases handlerReturns <;> cases ackReturns <;> simp at ha
    exact ha

/-- A message of an event type that `_send_to_dlq` publishes is passed to the handler of the
type exactly when that handler is registered under the routing key of the type too. -/
theorem passedFirst_iff {η : Type*} (dumps : Value → String) (dlqHandlers : Dict String η)
    (eventType : String) (handler : η) (_hregistered : dlqHandlers.get? eventType = some handler)
    (data : Value) (tenantId eventId : String) (headers : Dict String String) (now : ℚ)
    (msg : Msg)
    (hpublished : publishEvent dumps eventType data tenantId eventId headers now = some msg)
    (numDelivered : ℕ) (error : String) (failedAt : ℚ) (dlqMsg : Msg)
    (hsent : sendToDlq dumps eventType { msg with numDelivered } error failedAt = some dlqMsg) :
    PassedFirst dlqHandlers dlqMsg handler ↔
      dlqHandlers.get? (routingKey eventType) = some handler := by
  have hsubject : msg.subject = publishSubject eventType := by
    obtain ⟨v, -, rfl⟩ := Option.map_eq_some_iff.mp hpublished
    rfl
  obtain ⟨dlqData, hloads, hkey⟩ := dlqEventType_sendToDlq hsent
  rw [hsubject, head?_split_publishSubject] at hkey
  exact passedFirst_iff_get? hloads hkey

/-- `json.dumps` of a payload and of the dead letter that carries it. -/
def sampleDumps (base eventType : String) : Value → String
  | .dict ((.str "event_id", _) :: _) =>
    "\x7b\"event_id\": \"e\", \"event_type\": \"" ++ eventType ++
      "\", \"tenant_id\": \"t\", \"timestamp\": 1.0, \"data\": \x7b\x7d\x7d"
  | _ =>
    "\x7b\"original_subject\": \"" ++ base ++ "." ++ eventType ++ "\", \"original_data\": \"" ++
      "\x7b\\\"event_id\\\": \\\"e\\\", \\\"event_type\\\": \\\"" ++ eventType ++
      "\\\", \\\"tenant_id\\\": \\\"t\\\", \\\"timestamp\\\": 1.0, \\\"data\\\": \x7b\x7d\x7d\", " ++
      "\"original_headers\": \x7b\"tenant_id\": \"t\", \"event_type\": \"" ++ eventType ++
      "\", \"timestamp\": \"1\", \"event_id\": \"e\"\x7d, " ++
      "\"error\": \"boom\", \"failed_at\": 2.0, \"retry_count\": 3\x7d"

/-- A message of a type that the client does not know, and that is called `unknown`. -/
theorem passedFirst_unknown : ∃ msg dlqMsg : Msg,
    publishEvent (sampleDumps "unknown" "unknown") "unknown" (.dict []) "t" "e" .empty 1 =
        some msg ∧
      sendToDlq (sampleDumps "unknown" "unknown") "unknown" { msg with numDelivered := 3 } "boom"
        2 = some dlqMsg ∧
      PassedFirst (subscribeToDlq .empty "unknown" "handler") dlqMsg "handler" :=
  ⟨_, _, rfl, rfl, (passedFirst_iff (sampleDumps "unknown" "unknown")
    (subscribeToDlq .empty "unknown" "handler") "unknown" "handler" (by decide) (.dict []) "t" "e"
    .empty 1 _ rfl 3 "boom" 2 _ rfl).mpr (by decide)⟩

/-- The dead letters of agent runs are acknowledged without a call. -/
theorem not_passedFirst :
    ¬∀ (dlqHandlers : Dict String String) (eventType handler : String),
      dlqHandlers.get? eventType = some handler →
      ∀ (dumps : Value → String) (data : Value) (tenantId eventId : String)
        (headers : Dict String String) (now : ℚ) (msg : Msg),
        publishEvent dumps eventType data tenantId eventId headers now = some msg →
        ∀ (numDelivered : ℕ) (error : String) (failedAt : ℚ) (dlqMsg : Msg),
          sendToDlq dumps eventType { msg with numDelivered } error failedAt = some dlqMsg →
            PassedFirst dlqHandlers dlqMsg handler := by
  intro h
  have hpassed := h (subscribeToDlq .empty "agent_run" "handler") "agent_run" "handler" (by decide)
    (sampleDumps "agent.run" "agent_run") (.dict []) "t" "e" .empty 1 _ rfl 3 "boom" 2 _ rfl
  have hget : (subscribeToDlq .empty "agent_run" "handler").get? "agent" = some "handler" :=
    (passedFirst_iff_get? rfl rfl).mp hpassed
  exact absurd hget (by decide)

end NATS

end MultiAgent
