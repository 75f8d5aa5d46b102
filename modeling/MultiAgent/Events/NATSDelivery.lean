import MultiAgent.Events.NATSClient
import MultiAgent.Lib.Machine

/-!
# When a message is acknowledged

`_process_messages` of `libs/events/nats_client.py`, with the `combined_handler` of
`subscribe_to_events` in `libs/events/event_bus.py`. A run registers handlers, subscribes,
and takes messages from JetStream, which may deliver a message any number of times; a
delivery is one step, and every answer of a handler and of JetStream comes with it.

`combined_handler` logs the exception of a handler and goes on, but for a handler without a
`__name__`, and `_send_to_dlq` logs all its exceptions. So a message is acknowledged too
early exactly in a delivery with an answer that is logged away (`acked_throughout_iff`).
-/

namespace MultiAgent

namespace NATS

open Json (Value)

/-- A handler of the bus, with or without the attribute `__name__`. -/
structure Handler where
  named : Bool

/-- What is answered during one delivery. `error` is the text of the exception. -/
structure Answers where
  handlerReturns : ℕ → Bool := fun _ => true
  ackReturns : Bool := true
  error : String := ""
  failedAt : ℚ := 0
  publishReturns : Bool := true
  lastAckReturns : Bool := true
  nakReturns : Bool := true

/-- What `_process_messages` asks of JetStream, when it is done. -/
inductive Call
  | ack
  | nak
  | publish (copy : Msg)

/-- `combined_handler` from the handler at a position on : does it return? -/
def combinedHandler (handlerReturns : ℕ → Bool) : ℕ → List Handler → Bool
  | _, [] => true
  | k, handler :: handlers =>
    if handlerReturns k then combinedHandler handlerReturns (k + 1) handlers
    -- the log entry has the name of the handler
    else handler.named && combinedHandler handlerReturns (k + 1) handlers

theorem combinedHandler_eq (handlerReturns : ℕ → Bool) (k : ℕ) (handlers : List Handler) :
    combinedHandler handlerReturns k handlers =
      (handlers.zipIdx k).all fun p => handlerReturns p.2 || p.1.named := by
  induction handlers generalizing k with
  | nil => rfl
  | cons handler handlers ih =>
    rw [combinedHandler, List.zipIdx_cons, List.all_cons, ih]
    cases handlerReturns k <;> simp

section Process

variable (dumps : Value → String) (eventType : String) (handlers : List Handler) (msg : Msg)
  (a : Answers)

/-- The `except` clause of a message, and whether it returns. -/
def handleFailure : List Call × Bool :=
  if 3 ≤ msg.numDelivered then
    let copy := if a.publishReturns then sendToDlq dumps eventType msg a.error a.failedAt else none
    ((copy.map Call.publish).toList ++ if a.lastAckReturns then [.ack] else [], a.lastAckReturns)
  else (if a.nakReturns then [.nak] else [], a.nakReturns)

/-- `_process_messages` for one message, and whether it goes on with the next one. -/
def processMessage : List Call × Bool :=
  match msg.data.loads with
  | none => handleFailure dumps eventType msg a
  | some eventData =>
    if combinedHandler a.handlerReturns 0 handlers && a.ackReturns then
      match eventData with
      | .dict _ => ([.ack], true)
      -- there is no `event_data.get` for the log
      | _ =>
        let failure := handleFailure dumps eventType msg a
        (.ack :: failure.1, failure.2)
    else handleFailure dumps eventType msg a

/-- The message parses, only handlers with a name raise, and the first `ack` returns. -/
def acksAtOnce : Bool :=
  msg.data.loads.isSome &&
    (handlers.zipIdx.all (fun p => a.handlerReturns p.2 || p.1.named) && a.ackReturns)

/-- Every handler got the message and returned. -/
def handled : Bool :=
  msg.data.loads.isSome && (List.range handlers.length).all a.handlerReturns

end Process

/-- A subscription, with the messages it has still to process. -/
structure Subscription where
  eventType : String
  messages : List (ℕ × Msg) := []

/-- An acknowledgement of a message : were its handlers done in that delivery, and had a
copy of it been published? -/
structure Ack where
  key : ℕ
  handled : Bool
  copied : Bool

/-- The event bus and its JetStream. A message is known by its place in the stream, and
`numDelivered` says how often it was delivered so far. -/
structure Bus where
  eventHandlers : Dict String (List Handler) := .empty
  subscriptions : List Subscription := []
  stream : List Msg := []
  copies : List (ℕ × Msg) := []
  acks : List Ack := []

/-- A step. -/
inductive BusEvent
  | register (eventType : String) (handler : Handler)
  | subscribe (eventType : String)
  | store (msg : Msg)
  | fetch (subscription : ℕ) (keys : List ℕ)
  | process (subscription : ℕ) (answers : Answers)

namespace Bus

variable (dumps : Value → String) (s : Bus)

/-- `register_handler`. -/
def registerHandler (eventType : String) (handler : Handler) : Bus :=
  { s with
    eventHandlers :=
      s.eventHandlers.set eventType (s.eventHandlers.getD eventType [] ++ [handler]) }

/-- `subscribe_to_events`. -/
def subscribeToEvents (eventType : String) : Bus :=
  match s.eventHandlers.getD eventType [] with
  | [] => s
  | _ :: _ => { s with subscriptions := s.subscriptions ++ [{ eventType }] }

/-- `subscription.fetch` gives some messages of the stream. -/
def fetch (subscription : ℕ) (keys : List ℕ) : Option Bus :=
  match s.subscriptions[subscription]? with
  | some ⟨eventType, []⟩ =>
    if keys.Nodup ∧ keys.length ≤ 10 then
      let stream := keys.foldl
        (fun l k => l.modify k fun msg => { msg with numDelivered := msg.numDelivered + 1 })
        s.stream
      let messages := keys.filterMap fun k => (stream[k]?).map (k, ·)
      some { s with
        stream
        subscriptions := s.subscriptions.set subscription ⟨eventType, messages⟩ }
    else none
  | _ => none

/-- A copy of the message was published. -/
def hasCopy (key : ℕ) : Bool :=
  decide (key ∈ s.copies.map Prod.fst)

/-- A call for the message `key` is done. -/
def call (key : ℕ) (handled : Bool) : Call → Bus
  | .ack => { s with acks := { key, handled, copied := s.hasCopy key } :: s.acks }
  | .nak => s
  | .publish copy => { s with copies := s.copies ++ [(key, copy)] }

/-- A subscription processes its next message. -/
def process (subscription : ℕ) (a : Answers) : Option Bus :=
  match s.subscriptions[subscription]? with
  | some ⟨eventType, (key, msg) :: messages⟩ =>
    let handlers := s.eventHandlers.getD eventType []
    let processed := processMessage dumps eventType handlers msg a
    let rest := if processed.2 then messages else []
    some (processed.1.foldl (fun t c => t.call key (handled handlers msg a) c)
      { s with subscriptions := s.subscriptions.set subscription ⟨eventType, rest⟩ })
  | _ => none

/-- One step. -/
def step : BusEvent → Option Bus
  | .register eventType handler => some (s.registerHandler eventType handler)
  | .subscribe eventType => some (s.subscribeToEvents eventType)
  | .store msg => some { s with stream := s.stream ++ [{ msg with numDelivered := 0 }] }
  | .fetch subscription keys => s.fetch subscription keys
  | .process subscription a => s.process dumps subscription a

/-- Every message that was acknowledged was handled in that delivery, or a copy of it had
been published. -/
def Justified : Prop :=
  ∀ ack ∈ s.acks, ack.handled = true ∨ ack.copied = true

/-- No answer is logged away : a message whose handlers are not all done, and that has no
copy yet, is not acknowledged at once, and it is not acknowledged in the `except` clause but
after the publication of its text. -/
def Heard : BusEvent → Prop
  | .process subscription a =>
    ∀ sub ∈ s.subscriptions[subscription]?, ∀ m ∈ sub.messages.head?,
      let handlers := s.eventHandlers.getD sub.eventType []
      handled handlers m.2 a = true ∨ s.hasCopy m.1 = true ∨
        (acksAtOnce handlers m.2 a = false ∧
          (3 ≤ m.2.numDelivered ∧ a.lastAckReturns = true →
            m.2.data.decode.isSome = true ∧ a.publishReturns = true))
  | _ => True

instance (e : BusEvent) : Decidable (s.Heard e) :=
  match e with
  | .process subscription a =>
    inferInstanceAs (Decidable (∀ sub ∈ s.subscriptions[subscription]?, ∀ m ∈ sub.messages.head?,
      handled (s.eventHandlers.getD sub.eventType []) m.2 a = true ∨ s.hasCopy m.1 = true ∨
        (acksAtOnce (s.eventHandlers.getD sub.eventType []) m.2 a = false ∧
          (3 ≤ m.2.numDelivered ∧ a.lastAckReturns = true →
            m.2.data.decode.isSome = true ∧ a.publishReturns = true))))
  | .register _ _ => isTrue trivial
  | .subscribe _ => isTrue trivial
  | .store _ => isTrue trivial
  | .fetch _ _ => isTrue trivial

/-! ## The calls of one delivery -/

/-- There is an acknowledgement that no publication comes before. -/
def acksUncopied : List Call → Bool
  | [] => false
  | .ack :: _ => true
  | .nak :: calls => acksUncopied calls
  | .publish _ :: _ => false

theorem acksUncopied_handleFailure (eventType : String) (msg : Msg) (a : Answers) :
    acksUncopied (handleFailure dumps eventType msg a).1 = false ↔
      (3 ≤ msg.numDelivered ∧ a.lastAckReturns = true →
        msg.data.decode.isSome = true ∧ a.publishReturns = true) := by
  have hcopy := isSome_sendToDlq dumps eventType msg a.error a.failedAt
  unfold handleFailure
  by_cases hdelivered : 3 ≤ msg.numDelivered
  · rw [if_pos hdelivered, ← hcopy]
    cases a.publishReturns with
    | false => cases a.lastAckReturns <;> simp [acksUncopied, hdelivered]
    | true =>
      cases sendToDlq dumps eventType msg a.error a.failedAt <;> cases a.lastAckReturns <;>
        simp [acksUncopied, hdelivered]
  · rw [if_neg hdelivered]
    refine iff_of_true ?_ (fun h => absurd h.1 hdelivered)
    cases a.nakReturns <;> rfl

theorem acksUncopied_processMessage (eventType : String) (handlers : List Handler) (msg : Msg)
    (a : Answers) :
    acksUncopied (processMessage dumps eventType handlers msg a).1 = false ↔
      acksAtOnce handlers msg a = false ∧
        (3 ≤ msg.numDelivered ∧ a.lastAckReturns = true →
          msg.data.decode.isSome = true ∧ a.publishReturns = true) := by
  rw [← acksUncopied_handleFailure dumps eventType]
  unfold processMessage acksAtOnce
  rw [← combinedHandler_eq]
  cases msg.data.loads with
  | none => simp
  | some eventData =>
    cases combinedHandler a.handlerReturns 0 handlers && a.ackReturns with
    | false => simp
    | true => cases eventData <;> simp [acksUncopied]

variable {s} {t : Bus} {e : BusEvent}

/-- The calls of a delivery are justified if the handlers were done, or the first of them
that matters is the publication of a copy. -/
theorem justified_foldl_call (key : ℕ) (done : Bool) (calls : List Call) :
    (calls.foldl (fun t c => t.call key done c) s).Justified ↔
      s.Justified ∧ (done = true ∨ s.hasCopy key = true ∨ acksUncopied calls = false) := by
  induction calls generalizing s with
  | nil => simp [acksUncopied]
  | cons c calls ih =>
    rw [List.foldl_cons, ih]
    cases c with
    | ack =>
      have hcons : (s.call key done .ack).Justified ↔
          (done = true ∨ s.hasCopy key = true) ∧ s.Justified := List.forall_mem_cons
      have hcopy : (s.call key done .ack).hasCopy key = s.hasCopy key := rfl
      rw [hcons, hcopy]
      simp only [acksUncopied]
      tauto
    | nak => rfl
    | publish copy =>
      have hsame : (s.call key done (.publish copy)).Justified ↔ s.Justified := Iff.rfl
      have hcopy : (s.call key done (.publish copy)).hasCopy key = true := by
        simp [hasCopy, call]
      rw [hsame, hcopy]
      simp [acksUncopied]

/-! ## Steps and runs -/

/-- A step keeps every acknowledgement justified exactly when no answer is logged away. -/
theorem justified_step_iff (h : s.Justified) (hst : s.step dumps e = some t) :
    t.Justified ↔ s.Heard e := by
  cases e with
  | register eventType handler =>
    obtain rfl := Option.some.inj hst
    exact iff_of_true h trivial
  | subscribe eventType =>
    obtain rfl := Option.some.inj hst
    refine iff_of_true ?_ trivial
    unfold subscribeToEvents
    cases s.eventHandlers.getD eventType [] <;> exact h
  | store msg =>
    obtain rfl := Option.some.inj hst
    exact iff_of_true h trivial
  | fetch subscription keys =>
    refine iff_of_true ?_ trivial
    simp only [step, fetch] at hst
    split at hst
    · split_ifs at hst
      obtain rfl := Option.some.inj hst
      exact h
    · cases hst
  | process subscription a =>
    simp only [step, process] at hst
    split at hst
    · rename_i eventType key msg messages hsub
      obtain rfl := Option.some.inj hst
      rw [justified_foldl_call, acksUncopied_processMessage]
      simp only [Heard, hsub, Option.mem_some_iff, forall_eq', List.head?_cons]
      exact and_iff_right h
    · cases hst

end Bus

/-- A new event bus that is connected. -/
def busMachine (dumps : Value → String) : Machine Bus BusEvent where
  init := {}
  step := Bus.step dumps

/-- The acknowledgements are justified throughout a run exactly when no answer is logged
away in it. -/
theorem acked_throughout_iff (dumps : Value → String) (es : List BusEvent) (s : Bus)
    (h : (busMachine dumps).Run (fun _ _ => True) es s) :
    (busMachine dumps).Throughout Bus.Justified es ↔ (busMachine dumps).Run Bus.Heard es s := by
  have hinit : True ∧ (busMachine dumps).init.Justified :=
    ⟨trivial, fun ack hack => absurd hack List.not_mem_nil⟩
  exact h.throughout_iff_run (I := fun _ => True) hinit (fun _ _ _ _ _ _ _ => trivial)
    fun _ _ _ _ hs hst => Bus.justified_step_iff dumps hs hst

/-- A usage event without data. -/
def usageMsg : Msg where
  subject := "usage.metered.usage_metered"
  data := .json "\x7b\x7d" (.dict [])

/-- Its handler, which has no `__name__`, fails three times. -/
def failingRun : List BusEvent :=
  let raises : Answers := { handlerReturns := fun _ => false, error := "boom", failedAt := 1 }
  [.register "usage_metered" ⟨false⟩, .subscribe "usage_metered", .store usageMsg,
    .fetch 0 [0], .process 0 raises, .fetch 0 [0], .process 0 raises, .fetch 0 [0],
    .process 0 raises]

/-- The dead letter of `failingRun`. -/
def usageDumps (_ : Value) : String :=
  "\x7b\"original_subject\": \"usage.metered.usage_metered\", \"original_data\": \"\x7b\x7d\", " ++
    "\"original_headers\": \x7b\x7d, \"error\": \"boom\", \"failed_at\": 1.0, \"retry_count\": 3\x7d"

/-- The message is acknowledged after its copy was published. -/
theorem acked_throughout_failing : (busMachine usageDumps).Throughout Bus.Justified failingRun := by
  obtain ⟨s, hrun, -⟩ := Machine.exists_run (busMachine usageDumps) Bus.Heard failingRun
    (fun s => s.acks.length == 1) (by decide +kernel)
  exact (acked_throughout_iff usageDumps failingRun s (hrun.mono fun _ _ _ => trivial)).mpr hrun

/-- The only handler raises, and the message is acknowledged at its first delivery. -/
theorem not_acked_throughout :
    ¬∀ (dumps : Value → String) (es : List BusEvent) (s : Bus),
      (busMachine dumps).Run (fun _ _ => True) es s → s.Justified := by
  intro h
  obtain ⟨s, hrun, hlost⟩ := Machine.exists_run (busMachine usageDumps) (fun _ _ => True)
    [.register "usage_metered" ⟨true⟩, .subscribe "usage_metered", .store usageMsg, .fetch 0 [0],
      .process 0 { handlerReturns := fun _ => false }]
    (fun s => decide (∃ ack ∈ s.acks, ack.handled = false ∧ ack.copied = false)) (by decide +kernel)
  obtain ⟨ack, hack, hhandled, hcopied⟩ := of_decide_eq_true hlost
  rcases h usageDumps _ s hrun ack hack with hdone | hdone
  · exact absurd (hhandled.symm.trans hdone) Bool.false_ne_true
  · exact absurd (hcopied.symm.trans hdone) Bool.false_ne_true

end NATS

end MultiAgent
