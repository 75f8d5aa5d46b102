import Mathlib.Algebra.Order.Field.Rat
import MultiAgent.Lib.Dict
import MultiAgent.Lib.Machine

/-!
# The misroute rate of the router

`update_metrics` of `EnhancedRouterBase` in `libs/router/router_base.py`, call after call.
Arithmetic is exact.

Of every call with an expected tier one cell of `expected_vs_actual` counts it, but for an empty
expected tier, which is taken for none. The rate is computed for a misroute only, and from the
row of its expected tier only. So it is the rate of all calls after each of them if and only if
there is no hit after a misroute and every misroute is in a row whose own rate is that of all
rows (`misrouteRate_throughout_iff`).
-/

namespace MultiAgent

namespace Misroutes

/-- `RouterMetrics`. -/
structure RouterMetrics where
  routerDecisionLatencyMs : ℚ := 0
  routerMisrouteRate : ℚ := 0
  expectedVsActual : Dict String (Dict String ℕ) := .empty
  tierDistribution : Dict String ℕ := .empty
  confidenceDistribution : Dict String ℕ := .empty
  featureImportance : Dict String ℚ := .empty

/-- A call of `update_metrics`. -/
structure MetricsCall where
  decisionTime : ℚ
  tier : String
  confidence : ℚ
  expectedTier : Option String := none

/-- `f"{int(confidence * 10) * 10}%"`. -/
def confidenceBucket (confidence : ℚ) : String :=
  let tenths := confidence * 10
  toString (tenths.num.tdiv tenths.den * 10) ++ "%"

/-- One more in `d`. -/
def countUp (d : Dict String ℕ) (key : String) : Dict String ℕ :=
  d.set key (d.getD key 0 + 1)

/-- `1.0 - row.get(expected_tier, 0) / max(total_requests, 1)`. -/
def rateOfRow (row : Dict String ℕ) (expectedTier : String) : ℚ :=
  1 - (row.getD expectedTier 0 : ℚ) / (max (row.sum id) 1 : ℕ)

/-- `update_metrics`. -/
def RouterMetrics.update (m : RouterMetrics) (call : MetricsCall) : RouterMetrics :=
  let m := { m with
    routerDecisionLatencyMs := call.decisionTime * 1000
    tierDistribution := countUp m.tierDistribution call.tier
    confidenceDistribution := countUp m.confidenceDistribution (confidenceBucket call.confidence) }
  match call.expectedTier with
  | none => m
  | some expectedTier =>
    if expectedTier = "" then m
    else
      let row := countUp (m.expectedVsActual.getD expectedTier .empty) call.tier
      { m with
        expectedVsActual := m.expectedVsActual.set expectedTier row
        routerMisrouteRate :=
          if expectedTier ≠ call.tier then rateOfRow row expectedTier
          else m.routerMisrouteRate }

/-! ## What the calls amount to -/

/-- The calls whose expected tier was given. -/
def expectedCalls (calls : List MetricsCall) : ℕ :=
  calls.countP fun call => call.expectedTier.isSome

/-- The calls whose expected tier was given and differed from the chosen one. -/
def misroutes (calls : List MetricsCall) : ℕ :=
  calls.countP fun call => call.expectedTier.any (· ≠ call.tier)

/-- The cell of the confusion matrix. -/
def confusion (calls : List MetricsCall) (expectedTier tier : String) : ℕ :=
  calls.countP fun call => call.expectedTier = some expectedTier ∧ call.tier = tier

/-- The sum of a row. -/
def rowTotal (calls : List MetricsCall) (expectedTier : String) : ℕ :=
  calls.countP fun call => call.expectedTier = some expectedTier

/-- The misroutes of a row. -/
def rowMisroutes (calls : List MetricsCall) (expectedTier : String) : ℕ :=
  calls.countP fun call => call.expectedTier = some expectedTier ∧ call.tier ≠ expectedTier

/-- The entry of `expected_vs_actual` for two tiers. -/
def cell (d : Dict String (Dict String ℕ)) (expectedTier tier : String) : Option ℕ :=
  (d.get? expectedTier).bind fun row => row.get? tier

/-- There is an entry for what has happened, with how often it has, and no other, and no row
without an entry. -/
structure ExactMatrix (d : Dict String (Dict String ℕ)) (calls : List MetricsCall) : Prop where
  cells : ∀ expectedTier tier, cell d expectedTier tier =
    if confusion calls expectedTier tier = 0 then none
    else some (confusion calls expectedTier tier)
  rows : ∀ expectedTier ∈ d, 0 < rowTotal calls expectedTier

/-- The metrics, and the calls so far. -/
structure MetricsHistory where
  metrics : RouterMetrics := {}
  calls : List MetricsCall := []

namespace MetricsHistory

variable (s : MetricsHistory)

/-- The calls with one more. -/
def after (call : MetricsCall) : MetricsHistory where
  metrics := s.metrics.update call
  calls := s.calls ++ [call]

/-- The rate is that of all calls, and `expected_vs_actual` is their confusion matrix. -/
def Exact : Prop :=
  s.metrics.routerMisrouteRate = (misroutes s.calls : ℚ) / expectedCalls s.calls ∧
    ExactMatrix s.metrics.expectedVsActual s.calls

/-- The call has no expected tier; or it is a hit and there was no misroute; or it is a misroute,
with which the rate of its row is that of all rows. The expected tier is not empty. -/
def Keeps (call : MetricsCall) : Prop :=
  match call.expectedTier with
  | none => True
  | some expectedTier =>
    expectedTier ≠ "" ∧
      if expectedTier = call.tier then misroutes s.calls = 0
      else
        rowMisroutes (s.after call).calls expectedTier * expectedCalls (s.after call).calls =
          misroutes (s.after call).calls * rowTotal (s.after call).calls expectedTier

end MetricsHistory

/-- All sequences of calls. -/
def metricsMachine : Machine MetricsHistory MetricsCall where
  init := {}
  step s call := some (s.after call)

/-! ## Counting -/

variable {calls : List MetricsCall} {call : MetricsCall} {expectedTier tier : String}
  {d : Dict String (Dict String ℕ)}

theorem expectedCalls_concat : expectedCalls (calls ++ [call]) =
    expectedCalls calls + if call.expectedTier.isSome then 1 else 0 := by
  simp [expectedCalls, List.countP_append, List.countP_cons]

theorem misroutes_concat : misroutes (calls ++ [call]) =
    misroutes calls + if call.expectedTier.any (· ≠ call.tier) then 1 else 0 := by
  simp [misroutes, List.countP_append, List.countP_cons]

theorem confusion_concat : confusion (calls ++ [call]) expectedTier tier =
    confusion calls expectedTier tier +
      if call.expectedTier = some expectedTier ∧ call.tier = tier then 1 else 0 := by
  simp [confusion, List.countP_append, List.countP_cons]

theorem rowTotal_concat : rowTotal (calls ++ [call]) expectedTier =
    rowTotal calls expectedTier + if call.expectedTier = some expectedTier then 1 else 0 := by
  simp [rowTotal, List.countP_append, List.countP_cons]

theorem misroutes_le (calls : List MetricsCall) : misroutes calls ≤ expectedCalls calls :=
  List.countP_mono_left fun call _ h => by
    cases hexpected : call.expectedTier with
    | none => simp [hexpected] at h
    | some e => rfl

/-- A row has hits and misroutes. -/
theorem rowTotal_eq (calls : List MetricsCall) (expectedTier : String) :
    rowTotal calls expectedTier =
      confusion calls expectedTier expectedTier + rowMisroutes calls expectedTier :=
  countP_add_of_disjoint fun call _ => by
    by_cases h : call.expectedTier = some expectedTier <;>
      by_cases ht : call.tier = expectedTier <;> simp [h, ht]

/-! ## The table -/

theorem get?_countUp (row : Dict String ℕ) (key key' : String) :
    (countUp row key).get? key' =
      if key' = key then some (row.getD key 0 + 1) else row.get? key' :=
  Dict.get?_set _ _ _ _

theorem sum_countUp (row : Dict String ℕ) (key : String) :
    (countUp row key).sum id = row.sum id + 1 := by
  have hset := Dict.sum_set row key (row.getD key 0 + 1) (w := 0) (f := id) rfl
  simp only [id] at hset
  unfold countUp
  omega

theorem cell_set (row : Dict String ℕ) (expectedTier' tier' : String) :
    cell (d.set expectedTier row) expectedTier' tier' =
      if expectedTier' = expectedTier then row.get? tier' else cell d expectedTier' tier' := by
  unfold cell
  rw [Dict.get?_set]
  split_ifs <;> rfl

theorem get?_row (d : Dict String (Dict String ℕ)) (expectedTier tier : String) :
    (d.getD expectedTier .empty).get? tier = cell d expectedTier tier := by
  unfold cell Dict.getD
  cases d.get? expectedTier <;> rfl

theorem ExactMatrix.getD_row (h : ExactMatrix d calls) (expectedTier tier : String) :
    (d.getD expectedTier .empty).getD tier 0 = confusion calls expectedTier tier := by
  rw [Dict.getD, get?_row, h.cells]
  split_ifs with hzero
  · exact hzero.symm
  · rfl

/-- What is counted for a call makes the table exact for it as well. -/
theorem ExactMatrix.countUp (h : ExactMatrix d calls)
    (hcall : call.expectedTier = some expectedTier) :
    ExactMatrix (d.set expectedTier (countUp (d.getD expectedTier .empty) call.tier))
      (calls ++ [call]) where
  cells expectedTier' tier' := by
    rw [cell_set, confusion_concat, hcall, get?_countUp, get?_row, h.getD_row]
    by_cases he : expectedTier' = expectedTier
    · subst he
      by_cases ht : tier' = call.tier
      · simp [ht]
      · simp [ht, Ne.symm ht, h.cells]
    · have hne : ¬(some expectedTier = some expectedTier' ∧ call.tier = tier') := fun heq =>
        he (Option.some.inj heq.1).symm
      rw [if_neg he, if_neg hne, Nat.add_zero, h.cells]
  rows expectedTier' hmem := by
    rw [rowTotal_concat, hcall]
    rcases Dict.mem_set.mp hmem with rfl | hmem
    · simp
    · exact Nat.lt_of_lt_of_le (h.rows expectedTier' hmem) (Nat.le_add_right _ _)

/-- A call without an expected tier is in no cell. -/
theorem exactMatrix_concat_none (hcall : call.expectedTier = none) :
    ExactMatrix d (calls ++ [call]) ↔ ExactMatrix d calls := by
  have hconfusion : ∀ e t, confusion (calls ++ [call]) e t = confusion calls e t := fun e t => by
    simp [confusion_concat, hcall]
  have hrow : ∀ e, rowTotal (calls ++ [call]) e = rowTotal calls e := fun e => by
    simp [rowTotal_concat, hcall]
  constructor
  · exact fun h => ⟨fun e t => by rw [h.cells, hconfusion], fun e he => hrow e ▸ h.rows e he⟩
  · exact fun h => ⟨fun e t => by rw [h.cells, hconfusion], fun e he => hrow e ▸ h.rows e he⟩

/-- What the table has after any calls : no row for the empty tier, and the sums of the others. -/
structure Tracked (d : Dict String (Dict String ℕ)) (calls : List MetricsCall) : Prop where
  not_mem_empty : "" ∉ d
  sum_row : ∀ expectedTier, expectedTier ≠ "" →
    (d.getD expectedTier .empty).sum id = rowTotal calls expectedTier

namespace MetricsHistory

variable {s : MetricsHistory}

/-- Without an expected tier, or with an empty one, nothing is compared. -/
theorem update_of_getD_eq (m : RouterMetrics) (h : call.expectedTier.getD "" = "") :
    (m.update call).expectedVsActual = m.expectedVsActual ∧
      (m.update call).routerMisrouteRate = m.routerMisrouteRate := by
  unfold RouterMetrics.update
  cases hcall : call.expectedTier with
  | none => exact ⟨rfl, rfl⟩
  | some e =>
    rw [hcall, Option.getD_some] at h
    simp [h]

theorem update_of_some (m : RouterMetrics) (hcall : call.expectedTier = some expectedTier)
    (hne : expectedTier ≠ "") :
    (m.update call).expectedVsActual = m.expectedVsActual.set expectedTier
        (countUp (m.expectedVsActual.getD expectedTier .empty) call.tier) ∧
      (m.update call).routerMisrouteRate =
        if expectedTier ≠ call.tier then
          rateOfRow (countUp (m.expectedVsActual.getD expectedTier .empty) call.tier) expectedTier
        else m.routerMisrouteRate := by
  unfold RouterMetrics.update
  rw [hcall]
  simp only [if_neg hne, and_self]

theorem tracked_after (h : Tracked s.metrics.expectedVsActual s.calls) (call : MetricsCall) :
    Tracked (s.after call).metrics.expectedVsActual (s.after call).calls := by
  unfold after
  by_cases hempty : call.expectedTier.getD "" = ""
  · rw [(update_of_getD_eq _ hempty).1]
    refine ⟨h.not_mem_empty, fun e he => ?_⟩
    have hother : call.expectedTier ≠ some e := fun heq => he (by rw [heq] at hempty; exact hempty)
    rw [h.sum_row e he, rowTotal_concat, if_neg hother, Nat.add_zero]
  · obtain ⟨expectedTier, hcall⟩ : ∃ e, call.expectedTier = some e := by
      cases hcall : call.expectedTier with
      | none => simp [hcall] at hempty
      | some e => exact ⟨e, rfl⟩
    rw [hcall, Option.getD_some] at hempty
    rw [(update_of_some _ hcall hempty).1]
    refine ⟨fun hmem => ?_, fun e he => ?_⟩
    · exact (Dict.mem_set.mp hmem).elim (fun heq => hempty heq.symm) h.not_mem_empty
    · rw [Dict.getD_set, rowTotal_concat, hcall]
      by_cases heq : e = expectedTier
      · subst heq
        rw [if_pos rfl, if_pos rfl, sum_countUp, h.sum_row e he]
      · rw [if_neg heq, if_neg fun hsome => heq (Option.some.inj hsome).symm, h.sum_row e he,
          Nat.add_zero]

/-- One more call leaves the quotient as it is if and only if that is zero. -/
theorem div_succ_eq_iff {m n : ℕ} (h : m ≤ n) :
    (m : ℚ) / n = (m : ℚ) / (n + 1 : ℕ) ↔ m = 0 := by
  rcases Nat.eq_zero_or_pos n with rfl | hn
  · obtain rfl := Nat.le_zero.mp h
    simp
  · have hn' : (n : ℚ) ≠ 0 := by exact_mod_cast hn.ne'
    have hn1 : ((n + 1 : ℕ) : ℚ) ≠ 0 := by exact_mod_cast Nat.succ_ne_zero n
    rw [div_eq_div_iff hn' hn1]
    norm_cast
    rw [Nat.mul_succ, Nat.add_eq_left]

/-- The rate of a row. -/
theorem rateOfRow_eq (hmatrix : ExactMatrix d calls) (htracked : Tracked d calls)
    (hne : expectedTier ≠ "") (hpos : 0 < rowTotal calls expectedTier) :
    rateOfRow (d.getD expectedTier .empty) expectedTier =
      (rowMisroutes calls expectedTier : ℚ) / rowTotal calls expectedTier := by
  have hpos' : (rowTotal calls expectedTier : ℚ) ≠ 0 := by exact_mod_cast hpos.ne'
  have htotal : (rowTotal calls expectedTier : ℚ) =
      confusion calls expectedTier expectedTier + rowMisroutes calls expectedTier := by
    exact_mod_cast rowTotal_eq calls expectedTier
  rw [rateOfRow, hmatrix.getD_row, htracked.sum_row expectedTier hne, Nat.max_eq_left hpos,
    eq_div_iff hpos', sub_mul, one_mul, div_mul_cancel₀ _ hpos', htotal]
  exact add_sub_cancel_left _ _

/-- An empty expected tier is not counted. -/
theorem not_exact_after (h : Tracked s.metrics.expectedVsActual s.calls)
    (hcall : call.expectedTier = some "") : ¬(s.after call).Exact := by
  rintro ⟨-, hmatrix⟩
  have hcell := hmatrix.cells "" call.tier
  have hnone : cell (s.after call).metrics.expectedVsActual "" call.tier = none := by
    rw [cell, Dict.get?_eq_none.mpr (tracked_after h call).not_mem_empty]
    rfl
  have hpos : confusion (s.after call).calls "" call.tier ≠ 0 := by
    rw [after, confusion_concat, if_pos ⟨hcall, rfl⟩]
    exact Nat.succ_ne_zero _
  rw [hnone, if_neg hpos] at hcell
  cases hcell

/-- What a call with an expected tier makes of the rate. -/
theorem exact_after_iff_of_some (h : Tracked s.metrics.expectedVsActual s.calls) (hs : s.Exact)
    (hcall : call.expectedTier = some expectedTier) (hne : expectedTier ≠ "") :
    (s.after call).Exact ↔ s.Keeps call := by
  have htracked := tracked_after h call
  have hmatrix : ExactMatrix (s.after call).metrics.expectedVsActual (s.after call).calls := by
    rw [after, (update_of_some _ hcall hne).1]
    exact hs.2.countUp hcall
  have hkeeps : s.Keeps call ↔ if expectedTier = call.tier then misroutes s.calls = 0 else
      rowMisroutes (s.after call).calls expectedTier * expectedCalls (s.after call).calls =
        misroutes (s.after call).calls * rowTotal (s.after call).calls expectedTier := by
    unfold Keeps
    simp only [hcall]
    exact and_iff_right hne
  have hexact : (s.after call).Exact ↔ (s.after call).metrics.routerMisrouteRate =
      (misroutes (s.after call).calls : ℚ) / expectedCalls (s.after call).calls :=
    and_iff_left hmatrix
  have hcalls : expectedCalls (s.after call).calls = expectedCalls s.calls + 1 := by
    rw [after, expectedCalls_concat, hcall]
    rfl
  rw [hexact, hkeeps]
  by_cases htier : expectedTier = call.tier
  · have hmisroutes : misroutes (s.after call).calls = misroutes s.calls := by
      simp [after, misroutes_concat, hcall, htier]
    have hrate : (s.after call).metrics.routerMisrouteRate = s.metrics.routerMisrouteRate := by
      rw [after, (update_of_some _ hcall hne).2]
      exact if_neg (not_not.mpr htier)
    rw [if_pos htier, hrate, hs.1, hmisroutes, hcalls]
    exact div_succ_eq_iff (misroutes_le s.calls)
  · have hpos : 0 < rowTotal (s.after call).calls expectedTier := by
      rw [after, rowTotal_concat, if_pos hcall]
      exact Nat.succ_pos _
    have hrate : (s.after call).metrics.routerMisrouteRate =
        (rowMisroutes (s.after call).calls expectedTier : ℚ) /
          rowTotal (s.after call).calls expectedTier := by
      rw [← rateOfRow_eq hmatrix htracked hne hpos, after, (update_of_some _ hcall hne).2,
        (update_of_some _ hcall hne).1, if_pos htier, Dict.getD_set_self]
    have hpos' : (rowTotal (s.after call).calls expectedTier : ℚ) ≠ 0 := by
      exact_mod_cast hpos.ne'
    have hcalls' : (expectedCalls (s.after call).calls : ℚ) ≠ 0 := by
      rw [hcalls]
      exact_mod_cast Nat.succ_ne_zero (expectedCalls s.calls)
    rw [if_neg htier, hrate, div_eq_div_iff hpos' hcalls']
    norm_cast

theorem exact_after_iff (h : Tracked s.metrics.expectedVsActual s.calls) (hs : s.Exact)
    (call : MetricsCall) : (s.after call).Exact ↔ s.Keeps call := by
  cases hcall : call.expectedTier with
  | none =>
    have hempty : call.expectedTier.getD "" = "" := by rw [hcall]; rfl
    have hupdate := update_of_getD_eq s.metrics hempty
    have hkeeps : s.Keeps call := by
      unfold Keeps
      simp only [hcall]
    refine iff_of_true ⟨?_, ?_⟩ hkeeps
    · rw [after, hupdate.2, misroutes_concat, expectedCalls_concat, hcall]
      exact hs.1
    · rw [after, hupdate.1]
      exact (exactMatrix_concat_none hcall).mpr hs.2
  | some expectedTier =>
    by_cases hne : expectedTier = ""
    · subst hne
      refine iff_of_false (not_exact_after h hcall) fun hkeeps => ?_
      unfold Keeps at hkeeps
      simp only [hcall] at hkeeps
      exact hkeeps.1 rfl
    · exact exact_after_iff_of_some h hs hcall hne

end MetricsHistory

open MetricsHistory

/-- After each of the calls the rate is that of all of them and the table is their confusion
matrix, if and only if each call keeps it so. -/
theorem misrouteRate_throughout_iff {calls : List MetricsCall} {s : MetricsHistory}
    (h : metricsMachine.Run (fun _ _ => True) calls s) :
    metricsMachine.Throughout Exact calls ↔ metricsMachine.Run Keeps calls s := by
  refine h.throughout_iff_run (I := fun s => Tracked s.metrics.expectedVsActual s.calls)
    ⟨⟨Dict.not_mem_empty _, fun _ _ => rfl⟩, ⟨?_, ⟨fun _ _ => rfl, fun _ hmem => ?_⟩⟩⟩
    (fun s call t hI _ hst _ => ?_) fun s call t hI hs hst => ?_
  · simp [metricsMachine, misroutes, expectedCalls]
  · exact absurd hmem (Dict.not_mem_empty _)
  · obtain rfl := Option.some.inj hst
    exact tracked_after hI call
  · obtain rfl := Option.some.inj hst
    exact exact_after_iff hI hs call

instance (s : MetricsHistory) (call : MetricsCall) : Decidable (s.Keeps call) :=
  match hcall : call.expectedTier with
  | none => .isTrue (by unfold Keeps; simp only [hcall])
  | some expectedTier =>
    decidable_of_iff (expectedTier ≠ "" ∧
      if expectedTier = call.tier then misroutes s.calls = 0
      else
        rowMisroutes (s.after call).calls expectedTier * expectedCalls (s.after call).calls =
          misroutes (s.after call).calls * rowTotal (s.after call).calls expectedTier)
      (by unfold Keeps; simp only [hcall])

/-- A hit, a call without an expected tier, and a misroute in the row of the hit. -/
theorem misrouteRate_throughout_row :
    metricsMachine.Throughout Exact
      [{ decisionTime := 1, tier := "slm", confidence := 1, expectedTier := some "slm" },
        { decisionTime := 1, tier := "llm", confidence := 1 },
        { decisionTime := 1, tier := "llm", confidence := 1, expectedTier := some "slm" }] := by
  obtain ⟨s, hrun, -⟩ := Machine.exists_run metricsMachine Keeps
    [{ decisionTime := 1, tier := "slm", confidence := 1, expectedTier := some "slm" },
      { decisionTime := 1, tier := "llm", confidence := 1 },
      { decisionTime := 1, tier := "llm", confidence := 1, expectedTier := some "slm" }]
    (fun _ => true) (by decide +kernel)
  exact (misrouteRate_throughout_iff (hrun.mono fun _ _ _ => trivial)).mpr hrun

/-- After a misroute and a hit the rate is still 1. -/
theorem not_misrouteRate_throughout :
    ¬metricsMachine.Throughout Exact
      [{ decisionTime := 1, tier := "llm", confidence := 1, expectedTier := some "slm" },
        { decisionTime := 1, tier := "slm", confidence := 1, expectedTier := some "slm" }] := by
  intro hall
  obtain ⟨s, hrun, hend⟩ := Machine.exists_run metricsMachine (fun _ _ => True)
    [{ decisionTime := 1, tier := "llm", confidence := 1, expectedTier := some "slm" },
      { decisionTime := 1, tier := "slm", confidence := 1, expectedTier := some "slm" }]
    (fun s => decide (s.metrics.routerMisrouteRate ≠
      (misroutes s.calls : ℚ) / expectedCalls s.calls)) (by decide +kernel)
  exact of_decide_eq_true hend (hall _ s List.prefix_rfl hrun).1

end Misroutes

end MultiAgent
