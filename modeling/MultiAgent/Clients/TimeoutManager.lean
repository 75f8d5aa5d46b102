import Mathlib.Algebra.Order.Field.Rat
import Mathlib.Data.List.Perm.Basic
import MultiAgent.Lib.Decimal
import MultiAgent.Lib.Dict
import MultiAgent.Lib.Machine
import MultiAgent.Lib.Split

/-!
# Operations with timeouts

`TimeoutManager.execute_with_timeout` of `libs/clients/http/timeout_manager.py`. A call runs from
its start to its only `await` that suspends it, and from there to its end. It enters its
operation in `active_operations` under its type and the millisecond of its start, and in the
`finally` block deletes whatever stands there.

The entries are the operations in flight in every state of a run exactly if no call starts in
the millisecond of one of the same type that is still in flight (`exact_throughout_iff`).
-/

namespace MultiAgent

namespace Timeouts

/-- `TimeoutType`. -/
inductive TimeoutType
  | connect
  | read
  | write
  | total
  | workflowStep
  deriving DecidableEq

/-- `TimeoutSeverity`. -/
inductive TimeoutSeverity
  | warning
  | critical
  | emergency

/-- `TimeoutConfig`. -/
structure TimeoutConfig where
  operationType : String
  connectTimeoutMs : ℤ := 1000
  readTimeoutMs : ℤ := 5000
  writeTimeoutMs : ℤ := 2000
  totalTimeoutMs : ℤ := 10000
  workflowStepTimeoutMs : ℤ := 30000
  retryTimeoutMs : ℤ := 1000
  maxRetries : ℤ := 3

/-- An entry of `active_operations`. -/
structure ActiveOperation (ν : Type*) where
  operationType : String
  timeoutType : TimeoutType
  startTime : ℚ
  timeoutValueMs : ℤ
  context : Dict String ν

/-- `TimeoutEvent`. -/
structure TimeoutEvent (ν : Type*) where
  eventId : String
  operationType : String
  timeoutType : TimeoutType
  timeoutValueMs : ℤ
  actualDurationMs : ℚ
  severity : TimeoutSeverity
  occurredAt : ℚ
  context : Dict String ν

/-- `TimeoutManager`. -/
structure TimeoutManager (ν : Type*) where
  timeoutConfigs : Dict String TimeoutConfig
  activeOperations : Dict String (ActiveOperation ν) := .empty
  timeoutEvents : List (TimeoutEvent ν) := []

/-- `_initialize_default_configs`. -/
def defaultConfigs : Dict String TimeoutConfig :=
  [({ operationType := "api_gateway", connectTimeoutMs := 500, readTimeoutMs := 2000,
      writeTimeoutMs := 1000, totalTimeoutMs := 5000, workflowStepTimeoutMs := 15000,
      maxRetries := 2 } : TimeoutConfig),
    { operationType := "llm_service", connectTimeoutMs := 1000, readTimeoutMs := 30000,
      writeTimeoutMs := 5000, totalTimeoutMs := 60000, workflowStepTimeoutMs := 120000,
      maxRetries := 1 },
    { operationType := "vector_service", connectTimeoutMs := 1000, readTimeoutMs := 10000,
      writeTimeoutMs := 2000, totalTimeoutMs := 15000, workflowStepTimeoutMs := 30000,
      maxRetries := 2 },
    { operationType := "router-service", connectTimeoutMs := 500, readTimeoutMs := 3000,
      writeTimeoutMs := 1000, totalTimeoutMs := 8000, workflowStepTimeoutMs := 10000,
      maxRetries := 3 },
    { operationType := "billing_service", connectTimeoutMs := 1000, readTimeoutMs := 5000,
      writeTimeoutMs := 2000, totalTimeoutMs := 10000, workflowStepTimeoutMs := 20000,
      maxRetries := 2 }].foldl
    (fun configs config => configs.set config.operationType config) .empty

/-- `_get_timeout_value`. -/
def getTimeoutValue (config : TimeoutConfig) : TimeoutType → ℤ
  | .connect => config.connectTimeoutMs
  | .read => config.readTimeoutMs
  | .write => config.writeTimeoutMs
  | .total => config.totalTimeoutMs
  | .workflowStep => config.workflowStepTimeoutMs

/-- `_determine_timeout_severity`. A division by zero is caught, and is a warning. -/
def determineTimeoutSeverity (actualDuration : ℚ) (timeoutValue : ℤ) : TimeoutSeverity :=
  if timeoutValue = 0 then .warning
  else if actualDuration / timeoutValue ≤ 1 then .warning
  else if actualDuration / timeoutValue ≤ 2 then .critical
  else .emergency

/-- `operation_id`, where `millis` is `int(time.time() * 1000)`. -/
def operationId (operationType : String) (millis : ℤ) : String :=
  operationType ++ "_" ++ toString millis

/-- The last underscore ends the type. -/
theorem operationId_inj {operationType operationType' : String} {millis millis' : ℤ} :
    operationId operationType millis = operationId operationType' millis' ↔
      operationType = operationType' ∧ millis = millis' := by
  constructor
  · intro h
    have hchars := congrArg String.toList h
    simp only [operationId, String.toList_append, List.append_assoc] at hchars
    obtain ⟨htype, hmillis⟩ := Split.append_cons_inj
      (Decimal.not_mem_int (by decide) (by decide) millis)
      (Decimal.not_mem_int (by decide) (by decide) millis') hchars
    exact ⟨String.toList_injective htype, Decimal.int_injective hmillis⟩
  · rintro ⟨rfl, rfl⟩
    rfl

namespace TimeoutManager

variable {ν : Type*} (m : TimeoutManager ν)

/-- The entry of an operation. -/
def operation (operationType : String) (timeoutType : TimeoutType)
    (context : Option (Dict String ν)) (startTime : ℚ) : ActiveOperation ν :=
  let config := (m.timeoutConfigs.get? operationType).getD { operationType }
  { operationType, timeoutType, startTime
    timeoutValueMs := getTimeoutValue config timeoutType
    context := context.getD .empty }

/-- `execute_with_timeout` up to the `await`. -/
def enter (id : String) (operation : ActiveOperation ν) : TimeoutManager ν :=
  { m with activeOperations := m.activeOperations.set id operation }

/-- `_handle_timeout`, which keeps the last thousand events. -/
def handleTimeout (id : String) (operation : ActiveOperation ν) (actualDuration occurredAt : ℚ) :
    TimeoutManager ν :=
  let events := m.timeoutEvents ++ [{
    eventId := "timeout_" ++ id
    operationType := operation.operationType
    timeoutType := operation.timeoutType
    timeoutValueMs := operation.timeoutValueMs
    actualDurationMs := actualDuration
    severity := determineTimeoutSeverity actualDuration operation.timeoutValueMs
    occurredAt
    context := operation.context }]
  { m with timeoutEvents := if 1000 < events.length then events.drop (events.length - 1000)
                            else events }

/-- The `finally` block. -/
def cleanup (id : String) : TimeoutManager ν :=
  { m with activeOperations := m.activeOperations.erase id }

end TimeoutManager

/-! ## Interleavings -/

/-- A call of `execute_with_timeout`. -/
structure Call (ν : Type*) where
  operationType : String
  millis : ℤ
  operation : ActiveOperation ν
  inFlight : Bool := true

/-- How `wait_for` ended. -/
inductive Outcome
  | returnedOrRaised
  | timedOut (now occurredAt : ℚ)

/-- What happens next. -/
inductive Event (ν : Type*)
  | start (operationType : String) (timeoutType : TimeoutType)
      (context : Option (Dict String ν)) (millis : ℤ) (startTime : ℚ)
  | finish (i : ℕ) (outcome : Outcome)

/-- The manager and the calls that were made, in their order. -/
structure World (ν : Type*) where
  manager : TimeoutManager ν
  calls : List (Call ν) := []

variable {ν : Type*}

/-- The identifier of the operation. -/
def Call.id (call : Call ν) : String :=
  operationId call.operationType call.millis

/-- The end of `execute_with_timeout`, after the `await`. -/
def TimeoutManager.leave (m : TimeoutManager ν) (call : Call ν) : Outcome → TimeoutManager ν
  | .returnedOrRaised => m.cleanup call.id
  | .timedOut now occurredAt =>
    let actualDuration := (now - call.operation.startTime) * 1000
    (m.handleTimeout call.id call.operation actualDuration occurredAt).cleanup call.id

/-- One step of one of the calls. -/
def World.step (s : World ν) : Event ν → Option (World ν)
  | .start operationType timeoutType context millis startTime =>
    let operation := s.manager.operation operationType timeoutType context startTime
    some {
      manager := s.manager.enter (operationId operationType millis) operation
      calls := s.calls ++ [{ operationType, millis, operation }] }
  | .finish i outcome =>
    match s.calls[i]? with
    | none => none
    | some call =>
      if call.inFlight then
        some {
          manager := s.manager.leave call outcome
          calls := s.calls.set i { call with inFlight := false } }
      else none

/-- All interleavings of calls of a manager with the configurations `configs`. -/
def machine (ν : Type*) (configs : Dict String TimeoutConfig) : Machine (World ν) (Event ν) where
  init := { manager := { timeoutConfigs := configs } }
  step := World.step

/-- The operations in flight, under their identifiers. -/
def World.inFlight (s : World ν) : List (String × ActiveOperation ν) :=
  (s.calls.filter Call.inFlight).map fun call => (call.id, call.operation)

/-- `active_operations` has one entry for each operation in flight, and no other. -/
def World.Exact (s : World ν) : Prop :=
  s.manager.activeOperations.items.Perm s.inFlight

/-- A call that starts has the millisecond to itself among those of its type in flight. -/
def World.Distinct (s : World ν) : Event ν → Prop
  | .start operationType _ _ millis _ =>
    ∀ call ∈ s.calls, call.inFlight = true →
      ¬(call.operationType = operationType ∧ call.millis = millis)
  | .finish _ _ => True

/-- Nothing but the clean-up of `finally` changes the entries when a call ends. -/
@[simp] theorem activeOperations_leave (m : TimeoutManager ν) (call : Call ν) (outcome : Outcome) :
    (m.leave call outcome).activeOperations = m.activeOperations.erase call.id := by
  cases outcome with
  | returnedOrRaised => rfl
  | timedOut now occurredAt => rfl

theorem mem_inFlight {s : World ν} {id : String} :
    id ∈ s.inFlight.map Prod.fst ↔ ∃ call ∈ s.calls, call.inFlight = true ∧ call.id = id := by
  simp [World.inFlight, and_assoc]

/-- In an exact state the keys are the identifiers of the operations in flight. -/
theorem World.Exact.mem_active_iff {s : World ν} (h : s.Exact) {id : String} :
    id ∈ s.manager.activeOperations ↔
      ∃ call ∈ s.calls, call.inFlight = true ∧ call.id = id := by
  rw [Dict.mem_def, (h.map Prod.fst).mem_iff, mem_inFlight]

/-- A new entry is exact if and only if it does not take the place of another. -/
theorem exact_start_iff {s t : World ν} {operationType : String} {timeoutType : TimeoutType}
    {context : Option (Dict String ν)} {millis : ℤ} {startTime : ℚ} (h : s.Exact)
    (hst : s.step (.start operationType timeoutType context millis startTime) = some t) :
    t.Exact ↔ s.Distinct (.start operationType timeoutType context millis startTime) := by
  obtain rfl := Option.some.inj hst
  have hdistinct : s.Distinct (.start operationType timeoutType context millis startTime) ↔
      operationId operationType millis ∉ s.manager.activeOperations := by
    rw [h.mem_active_iff]
    simp only [World.Distinct, Call.id, operationId_inj, not_exists, not_and]
  rw [hdistinct]
  unfold World.Exact World.inFlight TimeoutManager.enter
  rw [List.filter_append, List.map_append]
  constructor
  · intro ht hmem
    have hnodup := (ht.map Prod.fst).nodup_iff.mp (Dict.nodup _)
    rw [List.map_append, List.nodup_append] at hnodup
    exact hnodup.2.2 _ (mem_inFlight.mpr (h.mem_active_iff.mp hmem)) _ List.mem_cons_self rfl
  · intro hnot
    rw [Dict.items_set, Dict.setItem, if_neg (mt Dict.mem_def.mpr hnot)]
    exact h.append_right _

/-- The end of a call removes its own entry. -/
theorem exact_finish {s t : World ν} {i : ℕ} {outcome : Outcome} (h : s.Exact)
    (hst : s.step (.finish i outcome) = some t) : t.Exact := by
  unfold World.step at hst
  cases hcall : s.calls[i]? with
  | none => simp [hcall] at hst
  | some call =>
    simp only [hcall] at hst
    split_ifs at hst with hflight
    obtain rfl := Option.some.inj hst
    have hothers := (filter_perm_cons_filter_set (p := Call.inFlight)
      (y := { call with inFlight := false }) hcall hflight rfl).map
        fun call => (call.id, call.operation)
    have hentry : s.manager.activeOperations.get? call.id = some call.operation := by
      refine Dict.mem_items.mp (List.Perm.mem_iff h |>.mpr (hothers.mem_iff.mpr ?_))
      exact List.mem_cons_self
    unfold World.Exact World.inFlight
    rw [activeOperations_leave]
    exact (List.perm_cons _).mp ((Dict.items_perm_cons_erase hentry).symm.trans (h.trans hothers))

/-- In every state that a run goes through `active_operations` is exact, if and only if no call
starts in the millisecond of one of its type that is in flight. -/
theorem exact_throughout_iff {configs : Dict String TimeoutConfig} {es : List (Event ν)}
    {s : World ν} (h : (machine ν configs).Run (fun _ _ => True) es s) :
    (machine ν configs).Throughout World.Exact es ↔
      (machine ν configs).Run World.Distinct es s := by
  refine h.throughout_iff_run (I := fun _ => True) ⟨trivial, List.Perm.refl _⟩
    (fun _ _ _ _ _ _ _ => trivial) fun s e t _ hs hst => ?_
  cases e with
  | start operationType timeoutType context millis startTime => exact exact_start_iff hs hst
  | finish i outcome => exact iff_of_true (exact_finish hs hst) trivial

instance (s : World ν) (e : Event ν) : Decidable (s.Distinct e) :=
  match e with
  | .start operationType _ _ millis _ =>
    inferInstanceAs (Decidable (∀ call ∈ s.calls, call.inFlight = true →
      ¬(call.operationType = operationType ∧ call.millis = millis)))
  | .finish _ _ => inferInstanceAs (Decidable True)

/-- A call for a type without a configuration that is timed out, between those of another. -/
theorem exact_throughout_calls :
    (machine ℕ defaultConfigs).Throughout World.Exact
      [.start "llm_service" .total none 5 0, .start "search" .read none 5 0,
        .finish 1 (.timedOut 6 6), .start "llm_service" .total none 7 0,
        .finish 0 .returnedOrRaised] := by
  obtain ⟨s, hrun, -⟩ := Machine.exists_run (machine ℕ defaultConfigs) World.Distinct
    [.start "llm_service" .total none 5 0, .start "search" .read none 5 0,
      .finish 1 (.timedOut 6 6), .start "llm_service" .total none 7 0,
      .finish 0 .returnedOrRaised] (fun _ => true) (by decide)
  exact (exact_throughout_iff (hrun.mono fun _ _ _ => trivial)).mpr hrun

/-- Of two calls of one type in the same millisecond the first to end removes the entry that
both have. -/
theorem not_exact_throughout :
    ¬(machine ℕ defaultConfigs).Throughout World.Exact
      [.start "llm_service" .total none 5 0, .start "llm_service" .total none 5 0,
        .finish 0 .returnedOrRaised] := by
  intro hall
  obtain ⟨s, hrun, hend⟩ := Machine.exists_run (machine ℕ defaultConfigs) (fun _ _ => True)
    [.start "llm_service" .total none 5 0, .start "llm_service" .total none 5 0,
      .finish 0 .returnedOrRaised]
    (fun s => decide (s.manager.activeOperations.items.length ≠ s.inFlight.length)) (by decide)
  exact of_decide_eq_true hend (hall _ s List.prefix_rfl hrun).length_eq

end Timeouts

end MultiAgent
