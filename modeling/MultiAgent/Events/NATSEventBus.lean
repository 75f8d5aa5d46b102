import MultiAgent.Events.NATSClient
import MultiAgent.Lib.Machine

/-!
# The event bus of the data plane

`NATSEventBus.subscribe` of `libs/data-plane/events/nats_event_bus.py`, and the `handle` of
`run_relay` in `event-relay-service/src/relay.py`. Every `await` of the loop of a subscription
is a step of its own, with what was answered, so the loops of any subscriptions interleave.
JetStream delivers a message whose subject matches to any one subscription of a durable name,
again if it likes, but never once the message was acknowledged for that name.

A message should be acknowledged only if a callback returned on it that the tenant filter let
it through to, or its bytes are in the dead letter stream; and the relay's handler should
return only if every endpoint answered with a 2xx status (`Kept`). A subscription acknowledges
the messages of other tenants without either, and the handler ignores what the endpoints
answer. These are the only losses (`kept_throughout_iff`).
-/

namespace MultiAgent

namespace NATSEventBus

open Json (Value)
open NATS (Payload)

/-! ## The relay's handler -/

/-- `for url in endpoints`, where `none` stands for an exception. -/
def iterate : Value → Option (List Value)
  | .list l | .tuple l => some l
  | .str s => some (s.toList.map fun c => .str (String.singleton c))
  | .dict d => some (d.filterMap fun p => p.1.text.map .str)
  | .null | .bool _ | .int _ | .float _ | .object _ _ => none

/-- The endpoints of a message, unless it is no dictionary or they are nothing to iterate. -/
def endpoints : Value → Option (List Value)
  | .dict d => iterate ((d.lookup (.str "_endpoints")).getD (.list []))
  | _ => none

/-- The `post` to each endpoint from a position on, with its status, or `none` if it raised.
Neither is looked at. -/
def postAll (answers : ℕ → Option ℕ) : ℕ → List Value → List (Option ℕ)
  | _, [] => []
  | k, _ :: urls => answers k :: postAll answers (k + 1) urls

/-- `handle`, with what the endpoints answered, unless it raises. -/
def handle (answers : ℕ → Option ℕ) (msg : Value) : Option (List (Option ℕ)) :=
  (endpoints msg).map (postAll answers 0)

/-- A 2xx status. -/
def isSuccess : Option ℕ → Bool
  | some status => 200 ≤ status ∧ status < 300
  | none => false

/-! ## Subscriptions -/

/-- The callback of a subscription. -/
inductive Callback
  /-- the `handle` of the relay -/
  | relay
  | other
  deriving DecidableEq

/-- Where the loop of a subscription waits, and with which message of the stream. -/
inductive Phase
  /-- for the next message -/
  | messages
  /-- for `msg.ack()`, as the message is of another tenant -/
  | skip (key : ℕ)
  /-- for the callback -/
  | callback (key : ℕ) (data : Value)
  /-- for `msg.ack()` after the callback -/
  | ack (key : ℕ)
  /-- for `js.publish` of the `except` clause -/
  | publish (key : ℕ)
  /-- for `msg.ack()` of the `except` clause -/
  | lastAck (key : ℕ)
  /-- for nothing, it ended -/
  | ended

/-- A call of `subscribe`. -/
structure Subscription where
  pattern : String
  durable : String := "worker"
  tenantId : Option String := none
  callback : Callback := .other
  phase : Phase := .messages

/-- `not (tenant_id and data.get("tenant_id") != tenant_id)`, where `none` stands for an
exception. -/
def accepts (tenantId : Option String) (data : Value) : Option Bool :=
  match tenantId with
  | none | some "" => some true
  | some tenant =>
    match data with
    | .dict d =>
      match d.lookup (.str "tenant_id") with
      | some (.str s) => some (s = tenant)
      | _ => some false
    | _ => none

/-- The loop got a message. -/
def received (tenantId : Option String) (key : ℕ) (data : Payload) : Phase :=
  match data.loads with
  | none => .publish key
  | some data =>
    match accepts tenantId data with
    | none => .publish key
    | some false => .skip key
    | some true => .callback key data

/-- The tokens of a pattern match those of a subject. -/
def tokensMatch : List String → List String → Bool
  | [], [] => true
  | [">"], _ :: _ => true
  | p :: ps, s :: ss => (p = "*" || p = s) && tokensMatch ps ss
  | _, _ => false

/-- A subject of NATS matches : `*` is any token and a last `>` one or more of them. A token
`**` is like any other. -/
def subjectMatches (pattern subject : String) : Bool :=
  tokensMatch (Split.split '.' pattern) (Split.split '.' subject)

/-! ## The bus -/

/-- A message of the stream. -/
structure Message where
  subject : String
  data : Payload

/-- A message of the dead letter stream, with the place of the one whose bytes it has. -/
structure DeadLetter where
  key : ℕ
  subject : String
  data : Payload

/-- The bus and its JetStream : the messages by their place in the stream, the dead letters,
who acknowledged which messages, the messages on which a callback returned, and what the
endpoints answered each time the relay's handler returned. -/
structure Bus where
  subscriptions : List Subscription := []
  stream : List Message := []
  deadLetters : List DeadLetter := []
  acked : List (String × ℕ) := []
  handled : List ℕ := []
  relayed : List (List (Option ℕ)) := []

/-- A step. What is sent may arrive although the call raises. -/
inductive BusEvent
  | subscribe (pattern durable : String) (tenantId : Option String) (callback : Callback)
  | publish (subject : String) (data : Payload)
  | deliver (subscription key : ℕ)
  | callbackDone (subscription : ℕ) (returns : Bool) (answers : ℕ → Option ℕ)
  | ackDone (subscription : ℕ) (arrives returns : Bool)
  | publishDone (subscription : ℕ) (arrives returns : Bool)
  | cancel (subscription : ℕ)

namespace Bus

variable (name : String) (s : Bus)

/-- The loop of a subscription goes on to a phase. -/
def goTo (i : ℕ) (phase : Phase) : Bus :=
  { s with subscriptions := s.subscriptions.modify i fun sub => { sub with phase } }

/-- The callback is done. -/
def callbackDone (i : ℕ) (returns : Bool) (answers : ℕ → Option ℕ) : Option Bus :=
  (s.subscriptions[i]?).bind fun sub =>
    match sub.phase, sub.callback with
    | .callback key data, .relay =>
      match handle answers data with
      | some statuses =>
        some { s.goTo i (.ack key) with
          handled := key :: s.handled
          relayed := statuses :: s.relayed }
      | none => some (s.goTo i (.publish key))
    | .callback key _, .other =>
      if returns then some { s.goTo i (.ack key) with handled := key :: s.handled }
      else some (s.goTo i (.publish key))
    | _, _ => none

/-- `msg.ack()` is done. -/
def ackDone (i : ℕ) (arrives returns : Bool) : Option Bus :=
  (s.subscriptions[i]?).bind fun sub =>
    let acked (key : ℕ) := if arrives then (sub.durable, key) :: s.acked else s.acked
    match sub.phase with
    | .skip key | .ack key =>
      some { s.goTo i (if returns then .messages else .publish key) with acked := acked key }
    | .lastAck key =>
      some { s.goTo i (if returns then .messages else .ended) with acked := acked key }
    | _ => none

/-- `js.publish` is done. It returns only when the stream has the message. -/
def publishDone (i : ℕ) (arrives returns : Bool) : Option Bus :=
  (s.subscriptions[i]?).bind fun sub =>
    match sub.phase with
    | .publish key =>
      (s.stream[key]?).bind fun msg =>
        if returns && !arrives then none
        else
          let letter : DeadLetter :=
            { key, subject := name ++ ".DLQ." ++ sub.pattern, data := msg.data }
          some { s.goTo i (if returns then .lastAck key else .ended) with
            deadLetters := if arrives then letter :: s.deadLetters else s.deadLetters }
    | _ => none

/-- A message is delivered to a subscription. -/
def deliver (i key : ℕ) : Option Bus :=
  (s.subscriptions[i]?).bind fun sub =>
    (s.stream[key]?).bind fun msg =>
      match sub.phase with
      | .messages =>
        if subjectMatches (name ++ "." ++ sub.pattern) msg.subject ∧
            (sub.durable, key) ∉ s.acked then
          some (s.goTo i (received sub.tenantId key msg.data))
        else none
      | _ => none

/-- One step. -/
def step : BusEvent → Option Bus
  | .subscribe pattern durable tenantId callback => some { s with
      subscriptions := s.subscriptions ++ [{ pattern, durable, tenantId, callback }] }
  | .publish subject data => some { s with
      stream := s.stream ++ [{ subject := name ++ "." ++ subject, data }] }
  | .deliver i key => s.deliver name i key
  | .callbackDone i returns answers => s.callbackDone i returns answers
  | .ackDone i arrives returns => s.ackDone i arrives returns
  | .publishDone i arrives returns => s.publishDone name i arrives returns
  | .cancel i => some (s.goTo i .ended)

/-- A callback returned on the message, or its bytes are in the dead letter stream. -/
def Settled (key : ℕ) : Prop :=
  key ∈ s.handled ∨ key ∈ s.deadLetters.map DeadLetter.key

instance (key : ℕ) : Decidable (s.Settled key) :=
  inferInstanceAs (Decidable (_ ∨ _))

/-- No event is lost. -/
def Kept : Prop :=
  (∀ a ∈ s.acked, s.Settled a.2) ∧ ∀ statuses ∈ s.relayed, ∀ a ∈ statuses, isSuccess a = true

/-- A message of another tenant is acknowledged only when it was settled before, and where the
relay's handler does not raise every endpoint answers with a 2xx status. -/
def Careful : BusEvent → Prop
  | .ackDone i arrives _ =>
    match s.subscriptions[i]? with
    | some ⟨_, _, _, _, .skip key⟩ => arrives = true → s.Settled key
    | _ => True
  | .callbackDone i _ answers =>
    match s.subscriptions[i]? with
    | some ⟨_, _, _, .relay, .callback _ data⟩ =>
      ∀ urls ∈ endpoints data, ∀ k < urls.length, isSuccess (answers k) = true
    | _ => True
  | _ => True

/-! ## Steps -/

/-- What a loop that waits for an acknowledgement has done before. -/
def Backed : Phase → Prop
  | .ack key => key ∈ s.handled
  | .lastAck key => key ∈ s.deadLetters.map DeadLetter.key
  | _ => True

/-- All loops have. -/
def Sound : Prop :=
  ∀ sub ∈ s.subscriptions, s.Backed sub.phase

variable {name s} {t : Bus} {e : BusEvent} {i key : ℕ} {phase : Phase} {sub : Subscription}

/-- No message is forgotten. -/
structure Grows (s t : Bus) : Prop where
  handled : s.handled ⊆ t.handled
  deadLetters : s.deadLetters ⊆ t.deadLetters

theorem Grows.of_eq (hhandled : s.handled = t.handled) (hletters : s.deadLetters = t.deadLetters) :
    Grows s t :=
  ⟨fun _ h => hhandled ▸ h, fun _ h => hletters ▸ h⟩

theorem Grows.settled (h : Grows s t) (hs : s.Settled key) : t.Settled key :=
  hs.imp (fun hk => h.handled hk) fun hk => List.map_subset _ h.deadLetters hk

theorem Grows.backed (h : Grows s t) (hs : s.Backed phase) : t.Backed phase := by
  cases phase with
  | ack key => exact h.handled hs
  | lastAck key => exact List.map_subset _ h.deadLetters hs
  | messages | skip _ | callback _ _ | publish _ | ended => trivial

theorem Sound.goTo (hs : s.Sound) (hgrows : Grows s t) (phase : Phase) (hphase : t.Backed phase)
    (hsub : t.subscriptions = (s.goTo i phase).subscriptions) : t.Sound := by
  intro sub hmem
  rw [hsub] at hmem
  obtain ⟨j, hj⟩ := List.mem_iff_getElem?.mp hmem
  simp only [Bus.goTo, List.getElem?_modify] at hj
  obtain ⟨old, hold, rfl⟩ := Option.map_eq_some_iff.mp hj
  split_ifs
  · exact hphase
  · exact hgrows.backed (hs old (List.mem_of_getElem? hold))

theorem backed_received (tenantId : Option String) (data : Payload) :
    s.Backed (received tenantId key data) := by
  unfold received
  split
  · trivial
  · split <;> trivial

theorem forall_mem_postAll (answers : ℕ → Option ℕ) (p : Option ℕ → Prop) (k : ℕ)
    (urls : List Value) :
    (∀ a ∈ postAll answers k urls, p a) ↔ ∀ j < urls.length, p (answers (k + j)) := by
  induction urls generalizing k with
  | nil => simp [postAll]
  | cons url urls ih =>
    rw [postAll, List.forall_mem_cons, ih, List.length_cons, Nat.forall_lt_succ_left]
    simp only [Nat.add_zero, Nat.add_right_comm, Nat.add_assoc]

/-- What matters of a step for what is kept. -/
theorem kept_iff (h : s.Kept) (hgrows : Grows s t) (acked : List (String × ℕ))
    (relayed : List (List (Option ℕ))) (hacked : t.acked = acked ++ s.acked)
    (hrelayed : t.relayed = relayed ++ s.relayed) :
    t.Kept ↔ (∀ a ∈ acked, t.Settled a.2) ∧
      ∀ statuses ∈ relayed, ∀ a ∈ statuses, isSuccess a = true := by
  unfold Kept
  rw [hacked, hrelayed, List.forall_mem_append, List.forall_mem_append]
  refine and_congr (and_iff_left fun a ha => hgrows.settled (h.1 a ha)) (and_iff_left h.2)

theorem callbackDone_spec {returns : Bool} {answers : ℕ → Option ℕ} (hs : s.Sound) (h : s.Kept)
    (hst : s.callbackDone i returns answers = some t) :
    t.Sound ∧ (t.Kept ↔ s.Careful (.callbackDone i returns answers)) := by
  obtain ⟨⟨pattern, durable, tenantId, callback, phase⟩, hsub, hst⟩ :=
    Option.bind_eq_some_iff.mp hst
  simp only [Careful, hsub]
  have hhandled : ∀ key, s.handled ⊆ key :: s.handled := fun key => List.subset_cons_self key _
  cases phase with
  | messages | skip _ | ack _ | publish _ | lastAck _ | ended => cases hst
  | callback key data =>
    have hraises : (s.goTo i (.publish key)).Sound ∧ (s.goTo i (.publish key)).Kept :=
      ⟨hs.goTo (.of_eq rfl rfl) (.publish key) trivial rfl, h⟩
    cases callback with
    | relay =>
      simp only [handle] at hst ⊢
      cases hurls : endpoints data with
      | none =>
        rw [hurls] at hst
        obtain rfl := Option.some.inj hst
        exact ⟨hraises.1, iff_of_true hraises.2 (by simp)⟩
      | some urls =>
        rw [hurls] at hst
        obtain rfl := Option.some.inj hst
        have hgrows : Grows s { s.goTo i (.ack key) with
            handled := key :: s.handled
            relayed := postAll answers 0 urls :: s.relayed } :=
          ⟨hhandled key, List.Subset.refl _⟩
        refine ⟨hs.goTo hgrows _ List.mem_cons_self rfl, ?_⟩
        rw [kept_iff h hgrows [] [postAll answers 0 urls] rfl rfl]
        simp [forall_mem_postAll]
    | other =>
      simp only at hst ⊢
      split_ifs at hst
      · obtain rfl := Option.some.inj hst
        have hgrows : Grows s { s.goTo i (.ack key) with handled := key :: s.handled } :=
          ⟨hhandled key, List.Subset.refl _⟩
        refine ⟨hs.goTo hgrows _ List.mem_cons_self rfl, ?_⟩
        rw [kept_iff h hgrows [] [] rfl rfl]
        simp
      · obtain rfl := Option.some.inj hst
        exact ⟨hraises.1, iff_of_true hraises.2 trivial⟩

theorem ackDone_spec {arrives returns : Bool} (hs : s.Sound) (h : s.Kept)
    (hst : s.ackDone i arrives returns = some t) :
    t.Sound ∧ (t.Kept ↔ s.Careful (.ackDone i arrives returns)) := by
  obtain ⟨⟨pattern, durable, tenantId, callback, phase⟩, hsub, hst⟩ :=
    Option.bind_eq_some_iff.mp hst
  have hbacked : s.Backed phase := hs _ (List.mem_of_getElem? hsub)
  simp only [Careful, hsub]
  have hacked : ∀ key next, s.Backed next →
      t = { s.goTo i next with
        acked := if arrives then (durable, key) :: s.acked else s.acked } →
      t.Sound ∧ (t.Kept ↔ (arrives = true → s.Settled key)) := by
    rintro key next hnext rfl
    refine ⟨hs.goTo (.of_eq rfl rfl) _ hnext rfl, ?_⟩
    cases arrives with
    | false => exact iff_of_true h (by simp)
    | true =>
      have hgrows : Grows s { s.goTo i next with acked := (durable, key) :: s.acked } :=
        .of_eq rfl rfl
      refine (kept_iff h hgrows [(durable, key)] [] rfl rfl).trans ?_
      simp
      rfl
  cases phase with
  | messages | callback _ _ | publish _ | ended => cases hst
  | skip key => exact hacked key _ (by cases returns <;> trivial) (Option.some.inj hst).symm
  | ack key =>
    have hspec := hacked key _ (by cases returns <;> trivial) (Option.some.inj hst).symm
    exact ⟨hspec.1, hspec.2.trans (iff_of_true (fun _ => Or.inl hbacked) trivial)⟩
  | lastAck key =>
    have hspec := hacked key _ (by cases returns <;> trivial) (Option.some.inj hst).symm
    exact ⟨hspec.1, hspec.2.trans (iff_of_true (fun _ => Or.inr hbacked) trivial)⟩

theorem publishDone_spec {arrives returns : Bool} (hs : s.Sound) (h : s.Kept)
    (hst : s.publishDone name i arrives returns = some t) : t.Sound ∧ t.Kept := by
  obtain ⟨sub, -, hst⟩ := Option.bind_eq_some_iff.mp hst
  split at hst
  · rename_i key hphase
    obtain ⟨msg, -, hst⟩ := Option.bind_eq_some_iff.mp hst
    obtain ⟨hlost, hst⟩ := Option.ite_none_left_eq_some.mp hst
    obtain rfl := Option.some.inj hst
    set letter : DeadLetter := { key, subject := name ++ ".DLQ." ++ sub.pattern, data := msg.data }
    have hgrows : Grows s { s.goTo i (if returns then .lastAck key else .ended) with
        deadLetters := if arrives then letter :: s.deadLetters else s.deadLetters } := by
      refine ⟨List.Subset.refl _, ?_⟩
      cases arrives with
      | false => exact List.Subset.refl _
      | true => exact List.subset_cons_self _ _
    refine ⟨hs.goTo hgrows _ ?_ rfl, (kept_iff h hgrows [] [] rfl rfl).mpr (by simp)⟩
    cases returns with
    | false => trivial
    | true =>
      cases arrives with
      | false => exact absurd rfl hlost
      | true => exact List.mem_cons_self
  · cases hst

theorem deliver_spec (hs : s.Sound) (h : s.Kept) (hst : s.deliver name i key = some t) :
    t.Sound ∧ t.Kept := by
  obtain ⟨sub, -, hst⟩ := Option.bind_eq_some_iff.mp hst
  obtain ⟨msg, -, hst⟩ := Option.bind_eq_some_iff.mp hst
  split at hst
  · split_ifs at hst
    obtain rfl := Option.some.inj hst
    exact ⟨hs.goTo (.of_eq rfl rfl) _ (backed_received sub.tenantId msg.data) rfl, h⟩
  · cases hst

/-- A step keeps the events exactly when it is careful. -/
theorem step_spec (hs : s.Sound) (h : s.Kept) (hst : s.step name e = some t) :
    t.Sound ∧ (t.Kept ↔ s.Careful e) := by
  cases e with
  | subscribe pattern durable tenantId callback =>
    obtain rfl := Option.some.inj hst
    refine ⟨List.forall_mem_append.mpr ⟨hs, ?_⟩, iff_of_true h trivial⟩
    rw [List.forall_mem_singleton]
    trivial
  | publish subject data =>
    obtain rfl := Option.some.inj hst
    exact ⟨hs, iff_of_true h trivial⟩
  | deliver i key =>
    have hspec := deliver_spec hs h hst
    exact ⟨hspec.1, iff_of_true hspec.2 trivial⟩
  | callbackDone i returns answers => exact callbackDone_spec hs h hst
  | ackDone i arrives returns => exact ackDone_spec hs h hst
  | publishDone i arrives returns =>
    have hspec := publishDone_spec hs h hst
    exact ⟨hspec.1, iff_of_true hspec.2 trivial⟩
  | cancel i =>
    obtain rfl := Option.some.inj hst
    exact ⟨hs.goTo (.of_eq rfl rfl) .ended trivial rfl, iff_of_true h trivial⟩

end Bus

/-- A started bus. -/
def busMachine (name : String) : Machine Bus BusEvent where
  init := {}
  step := Bus.step name

/-- No event is lost throughout a run if and only if all its steps are careful. -/
theorem kept_throughout_iff {name : String} {es : List BusEvent} {s : Bus}
    (h : (busMachine name).Run (fun _ _ => True) es s) :
    (busMachine name).Throughout Bus.Kept es ↔ (busMachine name).Run Bus.Careful es s := by
  have hinit : (busMachine name).init.Sound ∧ (busMachine name).init.Kept := by
    refine ⟨?_, ?_, ?_⟩ <;> exact fun _ hmem => absurd hmem List.not_mem_nil
  exact h.throughout_iff_run hinit (fun _ _ _ hs hk hst _ => (Bus.step_spec hs hk hst).1)
    fun _ _ _ hs hk hst => (Bus.step_spec hs hk hst).2

/-- An order of the tenant `globex`. -/
def globexOrder : Payload :=
  .json "\x7b\"tenant_id\": \"globex\"\x7d" (.dict [(.str "tenant_id", .str "globex")])

/-- An event with one endpoint. -/
def webhookEvent : Payload :=
  .json "\x7b\"_endpoints\": [\"https://hooks.example.com\"]\x7d"
    (.dict [(.str "_endpoints", .list [.str "https://hooks.example.com"])])

/-- Two workers of different tenants share their durable name, and the order goes to the wrong
one. -/
def wrongWorker : List BusEvent :=
  [.subscribe "orders.>" "worker" (some "acme") .other,
    .subscribe "orders.>" "worker" (some "globex") .other, .publish "orders.new" globexOrder,
    .deliver 0 0, .ackDone 0 true true]

/-- The relay posts an event whose endpoint answers with a status. -/
def relayedWith (status : ℕ) : List BusEvent :=
  [.subscribe "**" "event-relay" none .relay, .publish "**" webhookEvent, .deliver 0 0,
    .callbackDone 0 true fun _ => some status, .ackDone 0 true true]

/-- An endpoint that answers 204 loses nothing. -/
theorem kept_throughout_relayed : ∃ s, (busMachine "platform").Throughout Bus.Kept
    (relayedWith 204) ↔ (busMachine "platform").Run Bus.Careful (relayedWith 204) s := by
  obtain ⟨s, hrun, -⟩ := (busMachine "platform").exists_run (fun _ _ => True) (relayedWith 204)
    (fun s => decide (s.acked.length = 1)) (by decide +kernel)
  exact ⟨s, kept_throughout_iff hrun⟩

/-- The order is acknowledged though no callback had it, and the event though its endpoint
answered 500. -/
theorem not_kept :
    (¬∀ s, (busMachine "platform").Run (fun _ _ => True) wrongWorker s →
      ∀ a ∈ s.acked, s.Settled a.2) ∧
    ¬∀ s, (busMachine "platform").Run (fun _ _ => True) (relayedWith 500) s →
      ∀ statuses ∈ s.relayed, ∀ a ∈ statuses, isSuccess a = true := by
  constructor
  · intro hall
    obtain ⟨s, hrun, hany⟩ := (busMachine "platform").exists_run (fun _ _ => True) wrongWorker
      (fun s => s.acked.any fun a => !decide (s.Settled a.2)) (by decide +kernel)
    obtain ⟨a, ha, hlost⟩ := List.any_eq_true.mp hany
    rw [decide_eq_true (hall s hrun a ha)] at hlost
    cases hlost
  · intro hall
    obtain ⟨s, hrun, hany⟩ := (busMachine "platform").exists_run (fun _ _ => True)
      (relayedWith 500) (fun s => s.relayed.any fun statuses => statuses.any fun a => !isSuccess a)
      (by decide +kernel)
    obtain ⟨statuses, hstatuses, hany⟩ := List.any_eq_true.mp hany
    obtain ⟨a, ha, hfail⟩ := List.any_eq_true.mp hany
    rw [hall s hrun statuses hstatuses a ha] at hfail
    cases hfail

end NATSEventBus

end MultiAgent
