import MultiAgent.Lib.Permits
import MultiAgent.Reliability.ToolAdapter

/-!
# The calls of a bulkhead

`Bulkhead.call` of `libs/reliability/base_adapter.py`, for any function. It waits for a slot with
`wait_for`, runs the function, and gives the slot back in a `finally`; an outer handler turns the
`TimeoutError` of the wait into a rejection. `bulkheadMachine` interleaves any number of calls, as
`toolMachine` does for the executes of an adapter. A call may be cancelled while it waits; while
its function runs a cancellation is thrown into the function, and is part of how that ends.

No more functions run than there are slots, and `active_calls` counts them (`Kept`). But the
function runs inside the outer handler as well : a `TimeoutError` that the function raises is
taken for one of the wait. The law of the calls holds in exactly the runs without one
(`bulkheadLaw_iff`).
-/

namespace MultiAgent

namespace BaseAdapter

open Semaphore (Stage Balances)

/-- Where a call is : the task of its `acquire` has not begun, waits in the queue, or has ended
with a slot; the function runs; no slot became free in time; it was cancelled before it had one;
it ended after its function did. -/
inductive BulkheadCall
  | entering
  | waiting
  | granted
  | running
  | refused (outcome : TaskEnd)
  | cancelled
  | ended (function outcome : TaskEnd)

namespace BulkheadCall

/-- Where the call is at the semaphore. -/
def stage : BulkheadCall → Stage
  | .waiting => .waiting
  | .granted => .inside
  | .running => .inside
  | _ => .outside

/-- The function of the call runs. -/
def runs : BulkheadCall → Bool
  | .running => true
  | _ => false

/-- The function was never started, because no slot became free in time. -/
def isRefused : BulkheadCall → Bool
  | .refused _ => true
  | _ => false

/-- The function raised a `TimeoutError`. -/
def timesOut : BulkheadCall → Bool
  | .ended (.raised e) _ => e.isTimeout
  | _ => false

/-- A call whose function runs has a slot. -/
theorem stage_of_runs {x : BulkheadCall} (h : x.runs = true) : x.stage = .inside := by
  cases x <;> first | rfl | cases h

/-- The call has not ended. -/
def live : BulkheadCall → Bool
  | .refused _ => false
  | .cancelled => false
  | .ended _ _ => false
  | _ => true

end BulkheadCall

/-- What a call does next : its `acquire` begins, goes on after it was woken, or is given up; the
call is cancelled; its function starts, and ends. -/
inductive BulkheadAction
  | acquire
  | wake
  | reject
  | cancel
  | start
  | ended (function : TaskEnd)

/-- A new call, or a step of the `k`-th one. -/
inductive BulkheadEvent
  | call
  | act (k : ℕ) (action : BulkheadAction)

/-- The bulkhead and its calls, in the order in which they came. -/
structure BulkheadSystem where
  bulkhead : Bulkhead
  calls : List BulkheadCall := []

/-- The exception that a call raises instead of a `TimeoutError`. -/
def reported : TaskEnd → TaskEnd
  | .raised e => .raised (if e.isTimeout then bulkheadTimeout else e)
  | outcome => outcome

namespace Bulkhead

variable (b : Bulkhead)

/-- The `except` of `call`. -/
def reject : Bulkhead :=
  { b with rejectedCalls := b.rejectedCalls + 1 }

/-- The `finally` of `call`. -/
def leave : Bulkhead :=
  { b with activeCalls := b.activeCalls - 1, semaphore := b.semaphore.release }

/-- `call` after its function ended. -/
def finish : TaskEnd → Bulkhead
  | .raised e => if e.isTimeout then b.leave.reject else b.leave
  | _ => b.leave

end Bulkhead

namespace BulkheadSystem

variable (s : BulkheadSystem) (k : ℕ)

/-- The `k`-th call is at `y`, with the bulkhead `b`. -/
def goTo (b : Bulkhead) (y : BulkheadCall) : BulkheadSystem :=
  { bulkhead := b, calls := s.calls.set k y }

/-- Replace the semaphore. -/
def withSemaphore (sem : Semaphore ℕ) : Bulkhead :=
  { s.bulkhead with semaphore := sem }

/-- `call` up to its suspension. -/
def beginCall : BulkheadSystem :=
  { bulkhead := { s.bulkhead with totalCalls := s.bulkhead.totalCalls + 1 }
    calls := s.calls ++ [.entering] }

/-- `acquire` begins. -/
def acquire : BulkheadSystem :=
  if s.bulkhead.semaphore.locked then
    s.goTo k (s.withSemaphore (s.bulkhead.semaphore.wait k)) .waiting
  else s.goTo k (s.withSemaphore s.bulkhead.semaphore.take) .granted

/-- The time is over, and `acquire` is cancelled. -/
def reject : BulkheadSystem :=
  s.goTo k (s.withSemaphore (s.bulkhead.semaphore.abandon k)).reject
    (.refused (.raised bulkheadTimeout))

/-- The call is cancelled while it waits. -/
def cancel : BulkheadSystem :=
  s.goTo k (s.withSemaphore (s.bulkhead.semaphore.abandon k)) .cancelled

/-- The call goes on with its slot. -/
def start : BulkheadSystem :=
  s.goTo k { s.bulkhead with activeCalls := s.bulkhead.activeCalls + 1 } .running

/-- The function ended. -/
def finish (function : TaskEnd) : BulkheadSystem :=
  s.goTo k (s.bulkhead.finish function) (.ended function (reported function))

/-- A step of the `k`-th call, which is at the phase. -/
def act : BulkheadCall → BulkheadAction → Option BulkheadSystem
  | .entering, .acquire => some (s.acquire k)
  | .entering, .reject => some (s.reject k)
  | .entering, .cancel => some (s.cancel k)
  | .waiting, .wake =>
    if s.bulkhead.semaphore.woken k then
      some (s.goTo k (s.withSemaphore (s.bulkhead.semaphore.resume k)) .granted)
    else none
  | .waiting, .reject => some (s.reject k)
  | .waiting, .cancel => some (s.cancel k)
  | .granted, .start => some (s.start k)
  | .running, .ended function => some (s.finish k function)
  | _, _ => none

/-- One step of the calls. -/
def step : BulkheadEvent → Option BulkheadSystem
  | .call => some s.beginCall
  | .act k action =>
    match s.calls[k]? with
    | some x => s.act k x action
    | none => none

end BulkheadSystem

/-- A new bulkhead and no calls. -/
def bulkheadMachine (maxConcurrentCalls : ℕ) : Machine BulkheadSystem BulkheadEvent where
  init := { bulkhead := { semaphore := { value := maxConcurrentCalls } } }
  step := BulkheadSystem.step

/-- A call whose function was started ends as the function did; the rejections are the calls
whose function was not started for want of a slot; `active_calls` is the number of functions
that run, and within the bound. -/
structure BulkheadLaw (maxConcurrentCalls : ℕ) (s : BulkheadSystem) : Prop where
  own : ∀ function outcome, .ended function outcome ∈ s.calls → outcome = function
  rejected : s.bulkhead.rejectedCalls = s.calls.countP BulkheadCall.isRefused
  active : s.bulkhead.activeCalls = s.calls.countP BulkheadCall.runs
  bound : s.bulkhead.activeCalls ≤ maxConcurrentCalls

/-- No function raises a `TimeoutError` in the step. -/
def NoTimeout (_ : BulkheadSystem) : BulkheadEvent → Prop
  | .act _ (.ended (.raised e)) => e.isTimeout = false
  | _ => True

/-! ## What every step keeps -/

/-- The permits are balanced, the functions that run are counted, and so are the calls that were
refused together with those whose function raised a `TimeoutError`. -/
structure Kept (n : ℕ) (s : BulkheadSystem) : Prop where
  balances : Balances BulkheadCall.stage n s.bulkhead.semaphore s.calls
  active : s.bulkhead.activeCalls = s.calls.countP BulkheadCall.runs
  rejected : s.bulkhead.rejectedCalls =
    s.calls.countP BulkheadCall.isRefused + s.calls.countP BulkheadCall.timesOut
  outcome : ∀ function outcome, .ended function outcome ∈ s.calls → outcome = reported function

variable {n k : ℕ} {s : BulkheadSystem} {x y : BulkheadCall}

/-- How a call goes on that has not ended. -/
theorem countP_timesOut_goTo (hk : s.calls[k]? = some x) (hx : x.live = true) (b : Bulkhead)
    (y : BulkheadCall) : (s.goTo k b y).calls.countP BulkheadCall.timesOut =
      s.calls.countP BulkheadCall.timesOut + if y.timesOut then 1 else 0 := by
  have hcount := countP_set_add BulkheadCall.timesOut hk (y := y)
  have hnot : x.timesOut = false := by
    cases x <;> first | rfl | cases hx
  rw [hnot] at hcount
  exact hcount

namespace Kept

/-- A call that has not ended goes on. -/
theorem goTo (h : Kept n s) (hk : s.calls[k]? = some x) (hx : x.live = true) {b : Bulkhead}
    (hbalances : Balances BulkheadCall.stage n b.semaphore (s.calls.set k y))
    (hactive : b.activeCalls + (if x.runs then 1 else 0) =
      s.bulkhead.activeCalls + if y.runs then 1 else 0)
    (hrejected : b.rejectedCalls = s.bulkhead.rejectedCalls +
      ((if y.isRefused then 1 else 0) + if y.timesOut then 1 else 0))
    (houtcome : ∀ function outcome, y = .ended function outcome → outcome = reported function) :
    Kept n (s.goTo k b y) where
  balances := hbalances
  active := by
    have hcount := countP_set_add BulkheadCall.runs hk (y := y)
    have hbefore := h.active
    change b.activeCalls = ((s.calls.set k y).countP BulkheadCall.runs : ℕ)
    split_ifs at hcount hactive <;> omega
  rejected := by
    have hrefused := countP_set_add BulkheadCall.isRefused hk (y := y)
    have htimes := countP_timesOut_goTo hk hx b y
    have hbefore := h.rejected
    have hnot : x.isRefused = false := by
      cases x <;> first | rfl | cases hx
    simp only [hnot, Bool.false_eq_true, if_false] at hrefused
    rw [htimes]
    change b.rejectedCalls = (s.calls.set k y).countP _ + _
    omega
  outcome function outcome hmem := by
    rcases List.mem_or_eq_of_mem_set hmem with hmem | heq
    · exact h.outcome function outcome hmem
    · exact houtcome function outcome heq.symm

theorem beginCall (h : Kept n s) : Kept n s.beginCall where
  balances := h.balances.add rfl
  active := by
    simpa [BulkheadSystem.beginCall, BulkheadCall.runs] using h.active
  rejected := by
    simpa [BulkheadSystem.beginCall, BulkheadCall.isRefused, BulkheadCall.timesOut] using h.rejected
  outcome function outcome hmem := by
    rcases List.mem_append.mp hmem with hmem | hmem
    · exact h.outcome function outcome hmem
    · cases List.mem_singleton.mp hmem

theorem acquire (h : Kept n s) (hk : s.calls[k]? = some .entering) : Kept n (s.acquire k) := by
  unfold BulkheadSystem.acquire
  split_ifs with hlocked
  · exact h.goTo hk rfl (h.balances.wait hk rfl rfl) rfl rfl nofun
  · exact h.goTo hk rfl (h.balances.take hk rfl rfl (by simpa using hlocked)) rfl rfl nofun

theorem reject (h : Kept n s) (hk : s.calls[k]? = some x) (hx : x.live = true)
    (hstage : x.stage ≠ .inside) : Kept n (s.reject k) := by
  have hruns : x.runs = false := Bool.eq_false_iff.mpr fun hx =>
    hstage (BulkheadCall.stage_of_runs hx)
  exact h.goTo hk hx (h.balances.abandon hk hstage rfl) (by rw [hruns]; rfl) rfl nofun

theorem cancel (h : Kept n s) (hk : s.calls[k]? = some x) (hx : x.live = true)
    (hstage : x.stage ≠ .inside) : Kept n (s.cancel k) := by
  have hruns : x.runs = false := Bool.eq_false_iff.mpr fun hx =>
    hstage (BulkheadCall.stage_of_runs hx)
  exact h.goTo hk hx (h.balances.abandon hk hstage rfl) (by rw [hruns]; rfl) rfl nofun

theorem finish (h : Kept n s) (hk : s.calls[k]? = some .running) (function : TaskEnd) :
    Kept n (s.finish k function) := by
  have hbalances : Balances BulkheadCall.stage n s.bulkhead.semaphore.release
      (s.calls.set k (.ended function (reported function))) := h.balances.release hk rfl rfl
  have houtcome : ∀ f o, BulkheadCall.ended function (reported function) = .ended f o →
      o = reported f := by
    rintro f o heq
    cases heq
    rfl
  have hactive : s.bulkhead.activeCalls - 1 + 1 = s.bulkhead.activeCalls + 0 := by omega
  unfold BulkheadSystem.finish Bulkhead.finish
  cases function with
  | returned r => exact h.goTo hk rfl hbalances hactive rfl houtcome
  | cancelled => exact h.goTo hk rfl hbalances hactive rfl houtcome
  | raised e =>
    dsimp only
    split_ifs with htimeout
    · refine h.goTo hk rfl hbalances hactive ?_ houtcome
      simp [Bulkhead.reject, Bulkhead.leave, BulkheadCall.isRefused, BulkheadCall.timesOut,
        htimeout]
    · refine h.goTo hk rfl hbalances hactive ?_ houtcome
      simp [Bulkhead.leave, BulkheadCall.isRefused, BulkheadCall.timesOut, htimeout]

theorem act (h : Kept n s) (hk : s.calls[k]? = some x) {action : BulkheadAction}
    {t : BulkheadSystem} (hst : s.act k x action = some t) : Kept n t := by
  unfold BulkheadSystem.act at hst
  split at hst
  · exact Option.some.inj hst ▸ h.acquire hk
  · exact Option.some.inj hst ▸ h.reject hk rfl (by decide)
  · exact Option.some.inj hst ▸ h.cancel hk rfl (by decide)
  · split_ifs at hst with hwoken
    rw [← Option.some.inj hst]
    exact h.goTo hk rfl (h.balances.resume hk rfl rfl hwoken) rfl rfl fun _ _ heq => by cases heq
  · exact Option.some.inj hst ▸ h.reject hk rfl (by decide)
  · exact Option.some.inj hst ▸ h.cancel hk rfl (by decide)
  · rw [← Option.some.inj hst]
    exact h.goTo hk rfl (h.balances.stay hk rfl) (by simp [BulkheadCall.runs]) rfl
      fun _ _ heq => by cases heq
  · exact Option.some.inj hst ▸ h.finish hk _
  · cases hst

theorem step (h : Kept n s) {e : BulkheadEvent} {t : BulkheadSystem} (hst : s.step e = some t) :
    Kept n t := by
  cases e with
  | call => exact Option.some.inj hst ▸ h.beginCall
  | act k action =>
    simp only [BulkheadSystem.step] at hst
    split at hst
    · exact h.act ‹_› hst
    · cases hst

/-- In every state the functions that run are counted, and within the bound. -/
theorem bound (h : Kept n s) : s.bulkhead.activeCalls ≤ n := by
  have hinside := h.balances.countP_inside_le
  have hruns : s.calls.countP BulkheadCall.runs ≤
      s.calls.countP fun x => x.stage = .inside :=
    List.countP_mono_left fun x _ hx => decide_eq_true (BulkheadCall.stage_of_runs hx)
  rw [h.active]
  omega

/-- The law holds exactly while no function has raised a `TimeoutError`. -/
theorem law_iff (h : Kept n s) :
    BulkheadLaw n s ↔ s.calls.countP BulkheadCall.timesOut = 0 := by
  constructor
  · intro hlaw
    have hboth := hlaw.rejected.symm.trans h.rejected
    omega
  · intro hzero
    refine ⟨fun function outcome hmem => ?_, ?_, h.active, h.bound⟩
    · rw [h.outcome function outcome hmem]
      have hnot := List.countP_eq_zero.mp hzero _ hmem
      cases function with
      | raised e =>
        rw [reported, if_neg (by simpa [BulkheadCall.timesOut] using hnot)]
      | _ => rfl
    · rw [h.rejected, hzero]
      rfl

end Kept

/-! ## The runs in which the law holds -/

theorem timesOut_eq_zero_of_act {action : BulkheadAction} {t : BulkheadSystem}
    (hk : s.calls[k]? = some x) (hst : s.act k x action = some t) :
    t.calls.countP BulkheadCall.timesOut = 0 ↔
      s.calls.countP BulkheadCall.timesOut = 0 ∧ NoTimeout s (.act k action) := by
  have hkept : ∀ (b : Bulkhead) (y : BulkheadCall), x.live = true → y.timesOut = false →
      ((s.goTo k b y).calls.countP BulkheadCall.timesOut = 0 ↔
        s.calls.countP BulkheadCall.timesOut = 0) := fun b y hx hy => by
    rw [countP_timesOut_goTo hk hx, hy]
    rfl
  unfold BulkheadSystem.act at hst
  split at hst
  · rw [← Option.some.inj hst, BulkheadSystem.acquire]
    split_ifs
    · exact (hkept _ _ rfl rfl).trans (and_iff_left trivial).symm
    · exact (hkept _ _ rfl rfl).trans (and_iff_left trivial).symm
  · exact Option.some.inj hst ▸ (hkept _ _ rfl rfl).trans (and_iff_left trivial).symm
  · exact Option.some.inj hst ▸ (hkept _ _ rfl rfl).trans (and_iff_left trivial).symm
  · split_ifs at hst
    exact Option.some.inj hst ▸ (hkept _ _ rfl rfl).trans (and_iff_left trivial).symm
  · exact Option.some.inj hst ▸ (hkept _ _ rfl rfl).trans (and_iff_left trivial).symm
  · exact Option.some.inj hst ▸ (hkept _ _ rfl rfl).trans (and_iff_left trivial).symm
  · exact Option.some.inj hst ▸ (hkept _ _ rfl rfl).trans (and_iff_left trivial).symm
  · rename_i function
    rw [← Option.some.inj hst, BulkheadSystem.finish]
    cases function with
    | returned r => exact (hkept _ _ rfl rfl).trans (and_iff_left trivial).symm
    | cancelled => exact (hkept _ _ rfl rfl).trans (and_iff_left trivial).symm
    | raised e =>
      rw [countP_timesOut_goTo hk rfl]
      change _ + (if e.isTimeout = true then 1 else 0) = 0 ↔ _ ∧ e.isTimeout = false
      split_ifs with htimeout <;> simp [htimeout]
  · cases hst

/-- One step of a run in which the law may fail. -/
theorem timesOut_eq_zero_of_step {e : BulkheadEvent} {t : BulkheadSystem}
    (hst : s.step e = some t) :
    t.calls.countP BulkheadCall.timesOut = 0 ↔
      s.calls.countP BulkheadCall.timesOut = 0 ∧ NoTimeout s e := by
  cases e with
  | call =>
    rw [← Option.some.inj hst]
    simp [BulkheadSystem.beginCall, BulkheadCall.timesOut, NoTimeout]
  | act k action =>
    simp only [BulkheadSystem.step] at hst
    split at hst
    · exact timesOut_eq_zero_of_act ‹_› hst
    · cases hst

theorem kept_init (n : ℕ) : Kept n (bulkheadMachine n).init :=
  ⟨.init _ n, rfl, rfl, fun _ _ h => absurd h List.not_mem_nil⟩

/-- In every run `active_calls` is the number of functions that run, and within the bound. -/
theorem active_of_run {es : List BulkheadEvent}
    (h : (bulkheadMachine n).Run (fun _ _ => True) es s) :
    s.bulkhead.activeCalls = s.calls.countP BulkheadCall.runs ∧ s.bulkhead.activeCalls ≤ n := by
  have hkept : Kept n s := h.invariant (kept_init n) fun _ _ _ hs _ hst => hs.step hst
  exact ⟨hkept.active, hkept.bound⟩

/-- The law of the calls holds at the end of a run exactly when no function raised a
`TimeoutError` in it. -/
theorem bulkheadLaw_iff (maxConcurrentCalls : ℕ) (es : List BulkheadEvent) (s : BulkheadSystem)
    (h : (bulkheadMachine maxConcurrentCalls).Run (fun _ _ => True) es s) :
    BulkheadLaw maxConcurrentCalls s ↔ (bulkheadMachine maxConcurrentCalls).Run NoTimeout es s := by
  have hkept : Kept maxConcurrentCalls s :=
    h.invariant (kept_init maxConcurrentCalls) fun _ _ _ hs _ hst => hs.step hst
  rw [hkept.law_iff]
  exact h.iff_run (I := fun _ => True) (J := fun s => s.calls.countP BulkheadCall.timesOut = 0)
    ⟨trivial, rfl⟩ (fun _ _ _ _ _ => trivial) fun _ _ _ _ hst => timesOut_eq_zero_of_step hst

/-- One slot : the second call is refused while the function of the first runs, which then
returns. -/
theorem bulkheadLaw_iff_refused :
    ∃ s, (bulkheadMachine 1).Run (fun _ _ => True)
        [.call, .act 0 .acquire, .act 0 .start, .call, .act 1 .acquire, .act 1 .reject,
          .act 0 (.ended (.returned (.int 7)))] s ∧
      s.bulkhead.rejectedCalls = 1 ∧
      (BulkheadLaw 1 s ↔ (bulkheadMachine 1).Run NoTimeout
        [.call, .act 0 .acquire, .act 0 .start, .call, .act 1 .acquire, .act 1 .reject,
          .act 0 (.ended (.returned (.int 7)))] s) := by
  obtain ⟨s, hrun, hs⟩ := Machine.exists_run (bulkheadMachine 1) (fun _ _ => True)
    [.call, .act 0 .acquire, .act 0 .start, .call, .act 1 .acquire, .act 1 .reject,
      .act 0 (.ended (.returned (.int 7)))]
    (fun s => decide (s.bulkhead.rejectedCalls = 1)) (by decide +kernel)
  exact ⟨s, hrun, of_decide_eq_true hs, bulkheadLaw_iff 1 _ s hrun⟩

/-- The function of the only call raises a `TimeoutError`, and the call is counted as rejected. -/
theorem not_bulkheadLaw :
    ¬ ∀ (maxConcurrentCalls : ℕ) (es : List BulkheadEvent) (s : BulkheadSystem),
      (bulkheadMachine maxConcurrentCalls).Run (fun _ _ => True) es s →
        BulkheadLaw maxConcurrentCalls s := by
  intro h
  obtain ⟨s, hrun, hs⟩ := Machine.exists_run (bulkheadMachine 10) (fun _ _ => True)
    [.call, .act 0 .acquire, .act 0 .start, .act 0 (.ended (.raised totalTimeout))]
    (fun s => decide (s.bulkhead.rejectedCalls ≠ s.calls.countP BulkheadCall.isRefused))
    (by decide +kernel)
  exact of_decide_eq_true hs (h 10 _ s hrun).rejected

end BaseAdapter

end MultiAgent
