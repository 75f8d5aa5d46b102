import Mathlib.Algebra.Order.Field.Basic
import Mathlib.Tactic.Linarith
import MultiAgent.Security.FairQueue

/-!
# Weighted fairness over an interval

An interval of a run, in which each dequeued request is completed before the next
dequeue, with the processing time it charges to each tenant. Over an interval in which
both tenants always have a request queued, each service goes to a tenant whose virtual
time is not above the other's, so the difference of the two virtual times moves towards
zero or past it by one request. If it starts within one request, the charges differ by at
most one request of each tenant (`fairShare_of_balanced`).

Virtual time is the processing time since the scheduler was made. A tenant that was idle,
or is new, keeps its low virtual time, and is then served alone until it caught up
(`not_fairShare`).
-/

namespace MultiAgent

namespace Fairness

open WeightedFairScheduler

namespace WeightedFairScheduler

variable {s : WeightedFairScheduler} {t u : String}

theorem weightOf_setTenantWeight {w : TenantWeight} (h : u ≠ w.tenantId) :
    (s.setTenantWeight w).weightOf u = s.weightOf u := by
  unfold weightOf setTenantWeight
  rw [Dict.get?_set_ne _ _ h]

theorem virtualTime_setTenantWeight {w : TenantWeight} (h : u ≠ w.tenantId) :
    (s.setTenantWeight w).virtualTime u = s.virtualTime u := by
  rw [virtualTime, weightOf_setTenantWeight h, stats_setTenantWeight, virtualTime]

@[simp] theorem virtualTime_accept {e : FairQueueEntry} {now : ℚ} :
    (s.accept e now).virtualTime u = s.virtualTime u := by
  rw [virtualTime, totalProcessingTime_accept]
  rfl

theorem virtualTime_completeRequest {requestId : String} {p : ℚ} :
    (s.completeRequest t requestId p).virtualTime u =
      s.virtualTime u + if u = t then p / s.weightOf u else 0 := by
  unfold virtualTime
  rw [totalProcessingTime_completeRequest]
  change _ / s.weightOf u = _
  split_ifs with h
  · rw [h, add_div]
  · rw [add_zero]

end WeightedFairScheduler

/-! ## Intervals -/

/-- A run since the start of an interval : the request that is out, and the processing time
charged to each tenant. -/
structure Interval where
  run : SchedulerRun
  pending : Option FairQueueEntry := none
  charged : String → ℚ := fun _ => 0

/-- One operation. A dequeue waits for the completion of the request that is out. -/
def Interval.step (i : Interval) : SchedulerEvent → Option Interval
  | .setTenantWeight w => some { i with run := i.run.next (.setTenantWeight w) }
  | .enqueue t requestId metadata now =>
    some { i with run := i.run.next (.enqueue t requestId metadata now) }
  | .dequeue =>
    match i.pending with
    | some _ => none
    | none =>
      some { i with
        run := i.run.next .dequeue
        pending := (handedOut i.run.scheduler.dequeueRequest.2).head? }
  | .complete t requestId p =>
    match i.pending with
    | none => none
    | some e =>
      if e.tenantId = t ∧ e.requestId = requestId then
        some
          { run := i.run.next (.complete t requestId p)
            pending := none
            charged := Function.update i.charged t (i.charged t + p) }
      else none

/-- The intervals that start after the run `r`. -/
def intervalMachine (r : SchedulerRun) : Machine Interval SchedulerEvent where
  init := { run := r }
  step := Interval.step

/-- Both tenants have a request in their queue. -/
def Interval.Backlogged (i : Interval) (a b : String) : Prop :=
  i.run.scheduler.queue a ≠ [] ∧ i.run.scheduler.queue b ≠ []

/-- The processing times are at most `C`, and the weights of the two tenants stay. -/
def Charges (a b : String) (C : ℚ) : SchedulerEvent → Prop
  | .setTenantWeight w => 0 < w.weight ∧ w.tenantId ≠ a ∧ w.tenantId ≠ b
  | .enqueue _ _ _ _ => True
  | .dequeue => True
  | .complete _ _ p => 0 ≤ p ∧ p ≤ C

/-- A step of an interval in which both tenants are backlogged. -/
def Throughout (a b : String) (C : ℚ) (i : Interval) (e : SchedulerEvent) : Prop :=
  i.Backlogged a b ∧ Charges a b C e

/-- The two shares differ by at most one request of each tenant. -/
def Interval.Fair (i : Interval) (a b : String) (C : ℚ) : Prop :=
  |i.charged a / i.run.scheduler.weightOf a - i.charged b / i.run.scheduler.weightOf b| ≤
    C / i.run.scheduler.weightOf a + C / i.run.scheduler.weightOf b

/-! ## Balance -/

/-- The virtual times of `a` and `b` differ by at most one request of length `C`. -/
def WeightedFairScheduler.Balanced (s : WeightedFairScheduler) (a b : String) (C : ℚ) : Prop :=
  -(C / s.weightOf b) ≤ s.virtualTime a - s.virtualTime b ∧
    s.virtualTime a - s.virtualTime b ≤ C / s.weightOf a

instance (s : WeightedFairScheduler) (a b : String) (C : ℚ) : Decidable (s.Balanced a b C) :=
  inferInstanceAs (Decidable (_ ∧ _))

/-- What an interval keeps that starts in `s` : the weights of the two tenants, the virtual
times up to what was charged, and the balance. -/
structure Keeps (s : WeightedFairScheduler) (a b : String) (C : ℚ) (i : Interval) : Prop where
  consistent : Consistent i.run
  positive : i.run.scheduler.Positive
  weight : ∀ t, t = a ∨ t = b → i.run.scheduler.weightOf t = s.weightOf t
  charged : ∀ t, t = a ∨ t = b →
    i.run.scheduler.virtualTime t = s.virtualTime t + i.charged t / s.weightOf t
  balanced : i.run.scheduler.Balanced a b C
  pending : ∀ e, i.pending = some e →
    (e.tenantId = a → i.run.scheduler.virtualTime a ≤ i.run.scheduler.virtualTime b) ∧
    (e.tenantId = b → i.run.scheduler.virtualTime b ≤ i.run.scheduler.virtualTime a)

section Keeps

variable {s : WeightedFairScheduler} {a b : String} {C : ℚ} {i j : Interval}

/-- A step that moves no virtual time of the two tenants keeps the balance. -/
theorem Keeps.frame (h : Keeps s a b C i) (hc : Consistent j.run)
    (hp : j.run.scheduler.Positive) (hch : j.charged = i.charged)
    (hw : ∀ t, t = a ∨ t = b → j.run.scheduler.weightOf t = i.run.scheduler.weightOf t)
    (hv : ∀ t, t = a ∨ t = b → j.run.scheduler.virtualTime t = i.run.scheduler.virtualTime t)
    (hpend : ∀ e, j.pending = some e →
      (e.tenantId = a → i.run.scheduler.virtualTime a ≤ i.run.scheduler.virtualTime b) ∧
      (e.tenantId = b → i.run.scheduler.virtualTime b ≤ i.run.scheduler.virtualTime a)) :
    Keeps s a b C j where
  consistent := hc
  positive := hp
  weight t ht := (hw t ht).trans (h.weight t ht)
  charged t ht := by rw [hv t ht, h.charged t ht, hch]
  balanced := by
    unfold WeightedFairScheduler.Balanced
    rw [hv a (Or.inl rfl), hv b (Or.inr rfl), hw a (Or.inl rfl), hw b (Or.inr rfl)]
    exact h.balanced
  pending e he := by
    rw [hv a (Or.inl rfl), hv b (Or.inr rfl)]
    exact hpend e he

theorem Keeps.setTenantWeight (h : Keeps s a b C i) {w : TenantWeight} (hw : 0 < w.weight)
    (ha : w.tenantId ≠ a) (hb : w.tenantId ≠ b) :
    Keeps s a b C { i with run := i.run.next (.setTenantWeight w) } := by
  have hne : ∀ t, t = a ∨ t = b → t ≠ w.tenantId := by
    rintro t (rfl | rfl)
    · exact Ne.symm ha
    · exact Ne.symm hb
  exact h.frame (h.consistent.next (.setTenantWeight w))
    (Positive.next (e := .setTenantWeight w) h.positive hw) rfl
    (fun t ht => weightOf_setTenantWeight (hne t ht))
    (fun t ht => virtualTime_setTenantWeight (hne t ht)) h.pending

theorem Keeps.enqueue (h : Keeps s a b C i) (t requestId : String) (metadata : Option Items)
    (now : ℚ) :
    Keeps s a b C { i with run := i.run.next (.enqueue t requestId metadata now) } := by
  refine h.frame (h.consistent.next (.enqueue t requestId metadata now))
    (Positive.next (e := .enqueue t requestId metadata now) h.positive trivial) rfl
    (fun u _ => ?_) (fun u _ => ?_) h.pending
  · rcases i.run.next_enqueue_cases t requestId metadata now with heq | ⟨cfg, -, heq⟩
    · simp only [heq]
    · simp only [heq]
      rfl
  · rcases i.run.next_enqueue_cases t requestId metadata now with heq | ⟨cfg, -, heq⟩
    · simp only [heq]
    · simp only [heq]
      exact virtualTime_accept

/-- The tenant that is served has no higher virtual time than one that waits. -/
theorem virtualTime_le_of_handedOut {r : SchedulerRun} (hc : Consistent r) {e : FairQueueEntry}
    (he : (handedOut r.scheduler.dequeueRequest.2).head? = some e) {t : String}
    (ht : r.scheduler.queue t ≠ []) :
    r.scheduler.virtualTime e.tenantId ≤ r.scheduler.virtualTime t := by
  rcases r.scheduler.dequeueRequest_cases with
    ⟨-, hd⟩ | ⟨-, hd⟩ | ⟨-, u, first, rest, hu, hq, hd⟩
  · simp [hd, handedOut] at he
  · simp [hd, handedOut] at he
  · obtain rfl : first = e := by simpa [hd, handedOut] using he
    have hfirst : first.tenantId = u := hc.tenantId_of_mem (by simp [hq])
    have hrank := (nextTenant_spec hu).2 t ⟨ht, hc.mem_of_queue ht⟩
    rw [hfirst]
    rcases Prod.Lex.toLex_le_toLex.mp hrank with hlt | ⟨heq, -⟩
    · exact le_of_lt hlt
    · exact le_of_eq heq

theorem Keeps.dequeue (h : Keeps s a b C i) (hback : i.Backlogged a b) :
    Keeps s a b C { i with
      run := i.run.next .dequeue
      pending := (handedOut i.run.scheduler.dequeueRequest.2).head? } := by
  refine h.frame (h.consistent.next .dequeue)
    (Positive.next (e := .dequeue) h.positive trivial) rfl
    (fun u _ => ?_) (fun u _ => ?_) fun e he => ⟨?_, ?_⟩
  · rcases i.run.next_dequeue_cases with ⟨-, heq⟩ | ⟨-, t, first, rest, -, -, heq⟩
    · simp only [heq]
    · simp only [heq]
      rfl
  · rcases i.run.next_dequeue_cases with ⟨-, heq⟩ | ⟨-, t, first, rest, -, -, heq⟩
    · simp only [heq]
    · simp only [heq]
      rfl
  · rintro rfl
    exact virtualTime_le_of_handedOut h.consistent he hback.2
  · rintro rfl
    exact virtualTime_le_of_handedOut h.consistent he hback.1

/-- A completion of the tenant that was not ahead keeps the balance. -/
theorem WeightedFairScheduler.Balanced.completeRequest (h : s.Balanced a b C) (hpos : s.Positive)
    (hab : a ≠ b) {t : String} (ha : t = a → s.virtualTime a ≤ s.virtualTime b)
    (hb : t = b → s.virtualTime b ≤ s.virtualTime a) {p : ℚ} (hp : 0 ≤ p) (hpC : p ≤ C)
    (requestId : String) : (s.completeRequest t requestId p).Balanced a b C := by
  obtain ⟨hlow, hhigh⟩ := h
  have hnonneg : ∀ u, 0 ≤ p / s.weightOf u := fun u =>
    div_nonneg hp (Positive.weightOf_nonneg hpos u)
  have hle : ∀ u, p / s.weightOf u ≤ C / s.weightOf u := fun u =>
    div_le_div_of_nonneg_right hpC (Positive.weightOf_nonneg hpos u)
  have hA := hnonneg a
  have hB := hnonneg b
  have hCA := hle a
  have hCB := hle b
  change -(C / s.weightOf b) ≤
      (s.completeRequest t requestId p).virtualTime a -
        (s.completeRequest t requestId p).virtualTime b ∧
    (s.completeRequest t requestId p).virtualTime a -
      (s.completeRequest t requestId p).virtualTime b ≤ C / s.weightOf a
  rw [virtualTime_completeRequest, virtualTime_completeRequest]
  -- one request takes the tenant at most `C` ahead
  by_cases hta : a = t
  · have hbt : b ≠ t := fun hbt => hab (hta.trans hbt.symm)
    have hlead := ha hta.symm
    rw [if_pos hta, if_neg hbt]
    constructor <;> linarith
  · by_cases htb : b = t
    · have hlead := hb htb.symm
      rw [if_neg hta, if_pos htb]
      constructor <;> linarith
    · rw [if_neg hta, if_neg htb, add_zero, add_zero]
      exact ⟨hlow, hhigh⟩

theorem Keeps.complete (h : Keeps s a b C i) (hab : a ≠ b) {e : FairQueueEntry}
    (he : i.pending = some e) {p : ℚ} (hp : 0 ≤ p) (hpC : p ≤ C) (requestId : String) :
    Keeps s a b C
      { run := i.run.next (.complete e.tenantId requestId p)
        pending := none
        charged := Function.update i.charged e.tenantId (i.charged e.tenantId + p) } := by
  obtain ⟨hservedA, hservedB⟩ := h.pending e he
  refine ⟨h.consistent.next (.complete e.tenantId requestId p),
    Positive.next (e := .complete e.tenantId requestId p) h.positive trivial, h.weight,
    fun u hu => ?_, h.balanced.completeRequest h.positive hab hservedA hservedB hp hpC requestId,
    by simp⟩
  change (i.run.scheduler.completeRequest _ _ _).virtualTime u = _
  rw [virtualTime_completeRequest, h.charged u hu, ← h.weight u hu]
  dsimp only
  by_cases heq : u = e.tenantId
  · rw [if_pos heq, heq, Function.update_self, add_div, add_assoc]
  · rw [if_neg heq, Function.update_of_ne heq, add_zero]

end Keeps

theorem keeps_of_run {r : SchedulerRun} (hc : Consistent r) (hp : r.scheduler.Positive)
    {a b : String} (hab : a ≠ b) {C : ℚ} (hstart : r.scheduler.Balanced a b C)
    {es : List SchedulerEvent} {i : Interval}
    (h : (intervalMachine r).Run (Throughout a b C) es i) : Keeps r.scheduler a b C i := by
  refine h.invariant ⟨hc, hp, fun _ _ => rfl, fun t _ => ?_, hstart, by simp [intervalMachine]⟩
    fun i e j hi hok hst => ?_
  · simp [intervalMachine]
  · obtain ⟨hback, hcharges⟩ := hok
    cases e with
    | setTenantWeight w =>
      obtain rfl := Option.some.inj hst
      exact hi.setTenantWeight hcharges.1 hcharges.2.1 hcharges.2.2
    | enqueue t requestId metadata now =>
      obtain rfl := Option.some.inj hst
      exact hi.enqueue t requestId metadata now
    | dequeue =>
      cases hpend : i.pending with
      | some e => simp [intervalMachine, Interval.step, hpend] at hst
      | none =>
        simp only [intervalMachine, Interval.step, hpend, Option.some.injEq] at hst
        obtain rfl := hst
        exact hi.dequeue hback
    | complete t requestId p =>
      cases hpend : i.pending with
      | none => simp [intervalMachine, Interval.step, hpend] at hst
      | some e =>
        simp only [intervalMachine, Interval.step, hpend] at hst
        split_ifs at hst with hmatch
        obtain rfl := Option.some.inj hst
        obtain ⟨rfl, -⟩ := hmatch
        exact hi.complete hab hpend hcharges.1 hcharges.2 requestId

/-- Over an interval that starts with the virtual times within one request of each other,
two backlogged tenants get fair shares. -/
theorem fairShare_of_balanced {hist : List SchedulerEvent} {r : SchedulerRun}
    (hr : schedulerMachine.Run PositiveWeights hist r) {a b : String} (hab : a ≠ b) {C : ℚ}
    (hstart : r.scheduler.Balanced a b C) {es : List SchedulerEvent} {i : Interval}
    (h : (intervalMachine r).Run (Throughout a b C) es i) : i.Fair a b C := by
  have hkeeps := keeps_of_run (schedulerConsistent_of_run hr) (positive_of_run hr) hab hstart h
  have hA := hkeeps.charged a (Or.inl rfl)
  have hB := hkeeps.charged b (Or.inr rfl)
  obtain ⟨hlow, hhigh⟩ := hkeeps.balanced
  obtain ⟨hlow', hhigh'⟩ := hstart
  have hwa := hkeeps.weight a (Or.inl rfl)
  have hwb := hkeeps.weight b (Or.inr rfl)
  rw [hwa] at hhigh
  rw [hwb] at hlow
  unfold Interval.Fair
  rw [hwa, hwb, abs_le]
  constructor <;> linarith

/-! ## A late joiner -/

instance (a b : String) (C : ℚ) : DecidablePred (Charges a b C)
  | .setTenantWeight _ => inferInstanceAs (Decidable (_ ∧ _))
  | .enqueue _ _ _ _ => isTrue trivial
  | .dequeue => isTrue trivial
  | .complete _ _ _ => inferInstanceAs (Decidable (_ ∧ _))

instance (i : Interval) (a b : String) : Decidable (i.Backlogged a b) :=
  inferInstanceAs (Decidable (_ ∧ _))

instance (a b : String) (C : ℚ) (i : Interval) (e : SchedulerEvent) :
    Decidable (Throughout a b C i e) :=
  inferInstanceAs (Decidable (_ ∧ _))

instance (i : Interval) (a b : String) (C : ℚ) : Decidable (i.Fair a b C) :=
  inferInstanceAs (Decidable (_ ≤ _))

/-- A queued request of length one, served and completed. -/
def serveOne (t requestId : String) : List SchedulerEvent :=
  [.dequeue, .complete t requestId 1]

/-- Tenant `a` was served four times before `b` queued its first request. -/
def lateJoin : List SchedulerEvent :=
  [.setTenantWeight ⟨"a", .free, 1, 5, 10, 0⟩, .setTenantWeight ⟨"b", .free, 1, 5, 10, 0⟩,
    .enqueue "a" "r1" none 0, .enqueue "a" "r2" none 0, .enqueue "a" "r3" none 0,
    .enqueue "a" "r4" none 0, .enqueue "a" "r5" none 0] ++
  serveOne "a" "r1" ++ serveOne "a" "r2" ++ serveOne "a" "r3" ++ serveOne "a" "r4" ++
  [.enqueue "b" "q1" none 5, .enqueue "b" "q2" none 5, .enqueue "b" "q3" none 5,
    .enqueue "b" "q4" none 5]

/-- A queued tenant that was served before a new one joined gets nothing while the new
tenant is served three times in a row. -/
theorem not_fairShare : ¬∀ hist r, schedulerMachine.Run PositiveWeights hist r →
    ∀ a b, a ≠ b → ∀ C es i, (intervalMachine r).Run (Throughout a b C) es i →
      i.Backlogged a b → i.Fair a b C := by
  intro h
  obtain ⟨r, hr, hp⟩ := Machine.exists_run schedulerMachine PositiveWeights lateJoin
    (fun r => ((intervalMachine r).execWith (Throughout "a" "b" 1) (intervalMachine r).init
      (serveOne "b" "q1" ++ serveOne "b" "q2" ++ serveOne "b" "q3")).any fun (i : Interval) =>
        decide (i.Backlogged "a" "b") && decide (¬i.Fair "a" "b" 1)) (by decide +kernel)
  obtain ⟨i, hi, hunfair⟩ := Machine.exists_run (intervalMachine r) (Throughout "a" "b" 1) _ _ hp
  simp only [Bool.and_eq_true, decide_eq_true_eq] at hunfair
  exact hunfair.2 (h _ r hr "a" "b" (by decide) 1 _ i hi hunfair.1)

/-- Two tenants that start together are served in turn. -/
theorem fairShare_of_fresh : ∃ i : Interval, i.Fair "a" "b" 1 ∧
    (i.charged "a" = 1 ∧ i.charged "b" = 2) := by
  obtain ⟨r, hr, hp⟩ := Machine.exists_run schedulerMachine PositiveWeights
    [.setTenantWeight ⟨"a", .free, 1, 5, 10, 0⟩, .setTenantWeight ⟨"b", .standard, 2, 5, 10, 0⟩,
      .enqueue "a" "r1" none 0, .enqueue "a" "r2" none 0, .enqueue "b" "q1" none 0,
      .enqueue "b" "q2" none 0, .enqueue "b" "q3" none 0]
    (fun r => decide (r.scheduler.Balanced "a" "b" 1) &&
      ((intervalMachine r).execWith (Throughout "a" "b" 1) (intervalMachine r).init
        (serveOne "a" "r1" ++ serveOne "b" "q1" ++ serveOne "b" "q2")).any fun (i : Interval) =>
          decide (i.charged "a" = 1) && decide (i.charged "b" = 2))
    (by decide +kernel)
  simp only [Bool.and_eq_true, decide_eq_true_eq] at hp
  obtain ⟨i, hi, hcharged⟩ :=
    Machine.exists_run (intervalMachine r) (Throughout "a" "b" 1) _ _ hp.2
  simp only [Bool.and_eq_true, decide_eq_true_eq] at hcharged
  exact ⟨i, fairShare_of_balanced hr (by decide) hp.1 hi, hcharged⟩

end Fairness

end MultiAgent
