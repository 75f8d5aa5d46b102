import Mathlib.Data.Rat.Init
import Mathlib.Order.Bounds.Defs
import Mathlib.Order.Lattice
import MultiAgent.Lib.Dict
import MultiAgent.Lib.PastTime

/-!
# The health checks of the adapters

`HealthChecker` and `HealthCheckManager` of `libs/adapters/health_checker.py`. A check, of the
loop or immediate, ends in an answer, and the answers come one at a time : `_on_success` and
`_on_failure` do not suspend, as nobody holds the lock while suspended.

The checker counts the answers in a row and compares the counts with its thresholds. What it
says is a formula about the answers so far (`statusOf`) : it is `UNHEALTHY` since the last time
that enough checks in a row had failed, unless enough in a row have been passed after that
(`status_after`). A checker whose first check failed is `DEGRADED` until it is `UNHEALTHY` for
the first time, whatever the checks in between say. The manager says the worst of what its
checkers say, each on its own answers (`overallStatus_isGreatest`).
-/

namespace MultiAgent

namespace HealthCheck

open PastTime

/-- `HealthStatus`, from the best to the worst in the order of `get_overall_status`. -/
inductive HealthStatus
  | healthy
  | unknown
  | degraded
  | unhealthy
  deriving DecidableEq

/-- How bad a status is. -/
def HealthStatus.severity : HealthStatus → ℕ
  | .healthy => 0
  | .unknown => 1
  | .degraded => 2
  | .unhealthy => 3

theorem HealthStatus.severity_injective : Function.Injective severity := by
  intro a b h
  cases a <;> cases b <;> first | rfl | simp [severity] at h

instance : LinearOrder HealthStatus :=
  .lift' HealthStatus.severity HealthStatus.severity_injective

/-- The fields of `HealthCheckConfig` that decide the status. -/
structure HealthCheckConfig where
  failureThreshold : ℤ := 3
  successThreshold : ℤ := 2

/-- The attributes of `HealthChecker`. Of the check function only whether there is one. -/
structure HealthChecker where
  config : HealthCheckConfig
  status : HealthStatus := .unknown
  lastCheck : Option ℚ := none
  lastSuccess : Option ℚ := none
  lastFailure : Option ℚ := none
  consecutiveFailures : ℕ := 0
  consecutiveSuccesses : ℕ := 0
  checkFunction : Bool := false

/-- What a check function returns : a `bool`, a dictionary with what `healthy` holds there as a
truth value, a text, or another object with its truth value. -/
inductive CheckResult
  | bool (b : Bool)
  | dict (healthy : Option Bool)
  | str (s : String)
  | other (truthy : Bool)

/-- How a check ends. -/
inductive CheckAnswer
  | returned (result : CheckResult)
  | timedOut
  | raised

variable (lower : String → String)

/-- `_evaluate_result`, with `str.lower` given. -/
def evaluateResult : CheckResult → Bool
  | .bool b => b
  | .dict healthy => healthy.getD false
  | .str s => lower s ∈ ["healthy", "ok", "up"]
  | .other truthy => truthy

/-- The check counts as passed. -/
def passed : CheckAnswer → Bool
  | .returned result => evaluateResult lower result
  | .timedOut => false
  | .raised => false

namespace HealthChecker

variable (h : HealthChecker)

/-- `_on_success`. -/
def onSuccess (now : ℚ) : HealthChecker :=
  let h := { h with
    lastSuccess := some now
    consecutiveSuccesses := h.consecutiveSuccesses + 1
    consecutiveFailures := 0 }
  if h.status = .unhealthy then
    if h.config.successThreshold ≤ h.consecutiveSuccesses then { h with status := .healthy } else h
  else if h.status = .unknown then { h with status := .healthy }
  else h

/-- `_on_failure`. -/
def onFailure (now : ℚ) : HealthChecker :=
  let h := { h with
    lastFailure := some now
    consecutiveFailures := h.consecutiveFailures + 1
    consecutiveSuccesses := 0 }
  if h.config.failureThreshold ≤ h.consecutiveFailures then
    if h.status ≠ .unhealthy then { h with status := .unhealthy } else h
  else if h.status = .unknown then { h with status := .degraded }
  else h

/-- What happens to a checker : it is given a check function, a check of the loop begins, or a
check ends. -/
inductive Event
  | setCheckFunction (given : Bool)
  | begun (now : ℚ)
  | answered (answer : CheckAnswer) (now : ℚ)

/-- `set_check_function`, and `_perform_check` and `check_now` up to and from their `await`. -/
def step : Event → HealthChecker
  | .setCheckFunction given => { h with checkFunction := given }
  | .begun now => if h.checkFunction then { h with lastCheck := some now } else h
  | .answered answer now => if passed lower answer then h.onSuccess now else h.onFailure now

/-- A new checker after the events. -/
def after (config : HealthCheckConfig) (events : List Event) : HealthChecker :=
  events.foldl (step lower) { config := config }

end HealthChecker

/-- The answers among the events, `true` for a check that was passed. -/
def answers (events : List HealthChecker.Event) : List Bool :=
  events.filterMap fun
    | .answered answer _ => some (passed lower answer)
    | _ => none

@[simp] theorem answers_append (events events' : List HealthChecker.Event) :
    answers lower (events ++ events') = answers lower events ++ answers lower events' :=
  List.filterMap_append

/-! ## What the status says of the answers -/

/-- The last check failed, as enough before it in a row. -/
def Failing (config : HealthCheckConfig) (l : List Bool) : Prop :=
  l.getLast? = some false ∧ config.failureThreshold ≤ streak (!·) l

/-- The last check was passed, as enough before it in a row. -/
def Recovered (config : HealthCheckConfig) (l : List Bool) : Prop :=
  l.getLast? = some true ∧ config.successThreshold ≤ streak id l

/-- Enough checks in a row had failed, and since then not enough in a row were passed. -/
def Down (config : HealthCheckConfig) : List Bool → Prop :=
  Since (fun l => ¬Recovered config l) (Failing config)

open Classical in
/-- The status that belongs to the answers. -/
noncomputable def statusOf (config : HealthCheckConfig) (l : List Bool) : HealthStatus :=
  if Down config l then .unhealthy
  else if l = [] then .unknown
  else if l.head? = some false ∧ ¬Sometime (Failing config) l then .degraded
  else .healthy

variable {config : HealthCheckConfig} {l : List Bool}

theorem not_failing_concat_true : ¬Failing config (l ++ [true]) := by
  simp [Failing]

theorem failing_concat_false :
    Failing config (l ++ [false]) ↔ config.failureThreshold ≤ (streak (!·) l : ℤ) + 1 := by
  simp [Failing, streak_concat_of_pos]

theorem not_recovered_concat_false : ¬Recovered config (l ++ [false]) := by
  simp [Recovered]

theorem recovered_concat_true :
    Recovered config (l ++ [true]) ↔ config.successThreshold ≤ (streak id l : ℤ) + 1 := by
  simp [Recovered, streak_concat_of_pos]

theorem not_down_nil : ¬Down config [] := by
  unfold Down
  rw [since_nil_iff]
  simp [Failing]

theorem down_concat_true : Down config (l ++ [true]) ↔
    ¬config.successThreshold ≤ (streak id l : ℤ) + 1 ∧ Down config l := by
  unfold Down
  rw [since_concat_iff, or_iff_right not_failing_concat_true, recovered_concat_true]

theorem down_concat_false : Down config (l ++ [false]) ↔
    config.failureThreshold ≤ (streak (!·) l : ℤ) + 1 ∨ Down config l := by
  unfold Down
  rw [since_concat_iff, failing_concat_false, and_iff_right not_recovered_concat_false]

theorem Down.sometime_failing (h : Down config l) : Sometime (Failing config) l :=
  Since.sometime h

/-- The status after one more check that was passed. -/
theorem statusOf_concat_true :
    statusOf config (l ++ [true]) =
      if statusOf config l = .unhealthy then
        if config.successThreshold ≤ (streak id l : ℤ) + 1 then .healthy else .unhealthy
      else if statusOf config l = .unknown then .healthy
      else statusOf config l := by
  have hsometime : Sometime (Failing config) (l ++ [true]) ↔ Sometime (Failing config) l := by
    rw [sometime_concat_iff, or_iff_right not_failing_concat_true]
  unfold statusOf
  rw [hsometime, down_concat_true]
  by_cases hdown : Down config l
  · have hfailed := hdown.sometime_failing
    by_cases hok : config.successThreshold ≤ (streak id l : ℤ) + 1
    · simp [hdown, hfailed, hok]
    · simp [hdown, hok]
  · cases l with
    | nil => simp [hdown]
    | cons b l =>
      cases b with
      | true => simp [hdown]
      | false => by_cases hfailed : Sometime (Failing config) (false :: l) <;>
          simp [hdown, hfailed]

/-- The status after one more check that failed. -/
theorem statusOf_concat_false :
    statusOf config (l ++ [false]) =
      if config.failureThreshold ≤ (streak (!·) l : ℤ) + 1 then .unhealthy
      else if statusOf config l = .unknown then .degraded
      else statusOf config l := by
  unfold statusOf
  rw [sometime_concat_iff, failing_concat_false, down_concat_false]
  by_cases hfail : config.failureThreshold ≤ (streak (!·) l : ℤ) + 1
  · simp only [hfail, true_or, if_true]
  by_cases hdown : Down config l
  · simp only [hfail, hdown, or_true, if_true, if_false, reduceCtorEq]
  simp only [hfail, hdown, false_or, if_false]
  cases l with
  | nil =>
    have hnever : ¬Sometime (Failing config) [] := by
      rw [sometime_nil_iff]
      simp [Failing]
    simpa [hnever] using hfail
  | cons b l =>
    cases b with
    | true => simp
    | false => by_cases hfailed : Sometime (Failing config) (false :: l) <;> simp [hfailed, hfail]

/-! ## The checker -/

namespace HealthChecker

/-- The checker counts the answers in a row and has the status that belongs to them. -/
structure Tracks (h : HealthChecker) (config : HealthCheckConfig) (l : List Bool) : Prop where
  config_eq : h.config = config
  failures : h.consecutiveFailures = streak (!·) l
  successes : h.consecutiveSuccesses = streak id l
  status : h.status = statusOf config l

variable {h : HealthChecker}

theorem tracks_nil (config : HealthCheckConfig) :
    Tracks { config := config } config [] where
  config_eq := rfl
  failures := by simp
  successes := by simp
  status := by simp [statusOf, not_down_nil]

theorem Tracks.onSuccess (ht : h.Tracks config l) (now : ℚ) :
    (h.onSuccess now).Tracks config (l ++ [true]) := by
  obtain ⟨rfl, hfailures, hsuccesses, hstatus⟩ := ht
  have hzero : streak (!·) (l ++ [true]) = 0 := streak_concat_of_neg l rfl
  have hcount : streak id (l ++ [true]) = streak id l + 1 := streak_concat_of_pos l rfl
  unfold HealthChecker.onSuccess
  simp only [hsuccesses, hstatus]
  refine ⟨?_, ?_, ?_, ?_⟩
  · split_ifs <;> rfl
  · rw [hzero]
    split_ifs <;> rfl
  · rw [hcount]
    split_ifs <;> rfl
  · rw [statusOf_concat_true]
    split_ifs <;> simp_all

theorem Tracks.onFailure (ht : h.Tracks config l) (now : ℚ) :
    (h.onFailure now).Tracks config (l ++ [false]) := by
  obtain ⟨rfl, hfailures, hsuccesses, hstatus⟩ := ht
  have hzero : streak id (l ++ [false]) = 0 := streak_concat_of_neg l rfl
  have hcount : streak (!·) (l ++ [false]) = streak (!·) l + 1 := streak_concat_of_pos l rfl
  unfold HealthChecker.onFailure
  simp only [hfailures, hstatus]
  refine ⟨?_, ?_, ?_, ?_⟩
  · split_ifs <;> rfl
  · rw [hcount]
    split_ifs <;> rfl
  · rw [hzero]
    split_ifs <;> rfl
  · rw [statusOf_concat_false]
    split_ifs <;> simp_all

/-- A checker keeps track of the answers through whatever happens to it. -/
theorem Tracks.step (lower : String → String) (ht : h.Tracks config l) (e : Event) :
    (h.step lower e).Tracks config (l ++ answers lower [e]) := by
  cases e with
  | setCheckFunction given =>
    rw [answers, List.filterMap_cons, List.filterMap_nil, List.append_nil]
    exact ⟨ht.config_eq, ht.failures, ht.successes, ht.status⟩
  | begun now =>
    rw [answers, List.filterMap_cons, List.filterMap_nil, List.append_nil]
    unfold HealthChecker.step
    split_ifs
    · exact ⟨ht.config_eq, ht.failures, ht.successes, ht.status⟩
    · exact ht
  | answered answer now =>
    cases hp : passed lower answer with
    | true => simpa [HealthChecker.step, answers, hp] using ht.onSuccess now
    | false => simpa [HealthChecker.step, answers, hp] using ht.onFailure now

theorem tracks_after (lower : String → String) (config : HealthCheckConfig)
    (events : List Event) : (after lower config events).Tracks config (answers lower events) := by
  induction events using List.reverseRecOn with
  | nil => exact tracks_nil config
  | append_singleton events e ih =>
    have hstep := ih.step lower e
    rw [answers_append]
    simpa only [HealthChecker.after, List.foldl_concat] using hstep

end HealthChecker

/-- After any events the status of a checker is the one that belongs to the answers of its
checks. -/
theorem status_after (lower : String → String) (config : HealthCheckConfig)
    (events : List HealthChecker.Event) :
    (HealthChecker.after lower config events).status = statusOf config (answers lower events) :=
  (HealthChecker.tracks_after lower config events).status

/-! ## The manager -/

/-- `get_overall_status` on the statuses of the checkers. -/
def overallStatus (statuses : List HealthStatus) : HealthStatus :=
  if statuses = [] then .unknown
  else if statuses.all (· = .healthy) then .healthy
  else if statuses.any (· = .unhealthy) then .unhealthy
  else if statuses.any (· = .degraded) then .degraded
  else .unknown

/-- The overall status is the worst of the statuses. -/
theorem overallStatus_isGreatest {statuses : List HealthStatus} (hne : statuses ≠ []) :
    IsGreatest {s | s ∈ statuses} (overallStatus statuses) := by
  unfold overallStatus
  rw [if_neg hne]
  split_ifs with hall hun hdeg
  · have hhealthy : ∀ s ∈ statuses, s = .healthy := by simpa using hall
    obtain ⟨s, hs⟩ := List.exists_mem_of_ne_nil statuses hne
    exact ⟨hhealthy s hs ▸ hs, fun t ht => le_of_eq (hhealthy t ht)⟩
  · exact ⟨by simpa using hun, fun t _ => by cases t <;> decide⟩
  · have hno : .unhealthy ∉ statuses := by simpa using hun
    refine ⟨by simpa using hdeg, fun t ht => ?_⟩
    cases t with
    | unhealthy => exact absurd ht hno
    | _ => decide
  · have hno : .unhealthy ∉ statuses := by simpa using hun
    have hno' : .degraded ∉ statuses := by simpa using hdeg
    have hworst : ∀ s ∈ statuses, s ≤ .unknown := by
      intro s hs
      cases s with
      | unhealthy => exact absurd hs hno
      | degraded => exact absurd hs hno'
      | _ => decide
    refine ⟨?_, hworst⟩
    obtain ⟨s, hs, hsick⟩ : ∃ s ∈ statuses, s ≠ .healthy := by simpa using hall
    have hunknown : s = .unknown := by
      have hle := hworst s hs
      cases s with
      | unknown => rfl
      | healthy => exact absurd rfl hsick
      | _ => exact absurd hle (by decide)
    exact hunknown ▸ hs

section Manager

variable {Obj : Type*} [DecidableEq Obj] (lower : String → String)
  (config : Obj → HealthCheckConfig)

/-- The checkers there are, and which of them `HealthCheckManager` has under which name. One
checker may be added under more names. -/
structure World (Obj : Type*) where
  checkers : Dict String Obj
  objects : Obj → HealthChecker

/-- What happens : to one of the checkers, or `add_checker`. -/
inductive Event (Obj : Type*)
  | checker (i : Obj) (e : HealthChecker.Event)
  | addChecker (name : String) (i : Obj)

/-- One step of the checkers and the manager. -/
def World.step (w : World Obj) : Event Obj → World Obj
  | .checker i e => { w with objects := Function.update w.objects i ((w.objects i).step lower e) }
  | .addChecker name i => { w with checkers := w.checkers.set name i }

/-- The events from checkers that are new and a manager that has none. -/
def World.after (events : List (Event Obj)) : World Obj :=
  events.foldl (step lower) ⟨.empty, fun i => { config := config i }⟩

/-- What happened to one checker. -/
def own (events : List (Event Obj)) (i : Obj) : List HealthChecker.Event :=
  events.filterMap fun
    | .checker j e => if j = i then some e else none
    | .addChecker _ _ => none

/-- The names under which checkers were added, with the one added last. -/
def added (events : List (Event Obj)) : Dict String Obj :=
  events.foldl (fun d e =>
    match e with
    | .checker _ _ => d
    | .addChecker name i => d.set name i) .empty

/-- `get_overall_status`. -/
def World.getOverallStatus (w : World Obj) : HealthStatus :=
  overallStatus (w.checkers.items.map fun p => (w.objects p.2).status)

theorem World.after_concat (events : List (Event Obj)) (e : Event Obj) :
    World.after lower config (events ++ [e]) = (World.after lower config events).step lower e :=
  List.foldl_concat ..

theorem own_concat_checker (events : List (Event Obj)) (i j : Obj) (e : HealthChecker.Event) :
    own (events ++ [.checker j e]) i = if j = i then own events i ++ [e] else own events i := by
  unfold own
  rw [List.filterMap_append]
  by_cases hj : j = i <;> simp [hj]

theorem own_concat_addChecker (events : List (Event Obj)) (i j : Obj) (name : String) :
    own (events ++ [.addChecker name j]) i = own events i := by
  unfold own
  rw [List.filterMap_append]
  simp

/-- Each checker is what its own events make of it. -/
theorem objects_after (events : List (Event Obj)) (i : Obj) :
    (World.after lower config events).objects i =
      HealthChecker.after lower (config i) (own events i) := by
  induction events using List.reverseRecOn with
  | nil => rfl
  | append_singleton events e ih =>
    rw [World.after_concat]
    cases e with
    | addChecker name j =>
      rw [own_concat_addChecker]
      exact ih
    | checker j e =>
      rw [own_concat_checker]
      simp only [World.step]
      by_cases hj : j = i
      · subst hj
        rw [if_pos rfl, Function.update_self, ih, HealthChecker.after, HealthChecker.after,
          List.foldl_concat]
      · rw [if_neg hj, Function.update_of_ne (Ne.symm hj), ih]

theorem checkers_after (events : List (Event Obj)) :
    (World.after lower config events).checkers = added events := by
  induction events using List.reverseRecOn with
  | nil => rfl
  | append_singleton events e ih =>
    rw [World.after_concat, added, List.foldl_concat]
    cases e with
    | checker j e => exact ih
    | addChecker name j => exact congrArg (·.set name j) ih

/-- After any events, with the checkers working independently and some of them added under
more names or in the place of others, the overall status is the worst of the statuses that
belong to what each checker of the manager was answered, and unknown if it has none. -/
theorem getOverallStatus_after (events : List (Event Obj)) :
    (added events = .empty → (World.after lower config events).getOverallStatus = .unknown) ∧
    (added events ≠ .empty →
      IsGreatest {s | ∃ name i, (added events).get? name = some i ∧
        s = statusOf (config i) (answers lower (own events i))}
        (World.after lower config events).getOverallStatus) := by
  unfold World.getOverallStatus
  rw [checkers_after]
  constructor
  · intro hnone
    simp [hnone, overallStatus]
  · intro hsome
    have hset : {s | ∃ name i, (added events).get? name = some i ∧
        s = statusOf (config i) (answers lower (own events i))} =
        {s | s ∈ (added events).items.map fun p =>
          ((World.after lower config events).objects p.2).status} := by
      ext s
      simp only [Set.mem_ofPred_eq, List.mem_map, Prod.exists, objects_after,
        (HealthChecker.tracks_after _ _ _).status, Dict.mem_items, eq_comm]
    rw [hset]
    refine overallStatus_isGreatest fun hmap => hsome ?_
    cases hd : added events with
    | mk items nodup =>
      simp only [hd, List.map_eq_nil_iff] at hmap
      subst hmap
      rfl

end Manager

end HealthCheck

end MultiAgent
