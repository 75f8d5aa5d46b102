import Mathlib.Algebra.Order.Field.Basic
import Mathlib.Algebra.Order.Floor.Semiring
import Mathlib.Data.List.Pairwise

/-!
# Sliding windows

A limiter is asked at one time after the other. The exact `policy` lets a request through if
fewer than the limit of requests were let through in the half-open window that ends with it. A
limiter that keeps the times it let through, drops those that have left the window and counts the
rest answers as the policy does (`Prunes.answers_eq`), at nondecreasing times. Whatever the times
lie in, if it is shorter than the window, no more of them are let through there than the limit
rounded up (`countP_allowed_le`).

A limiter that is asked one step at a time carries along that its windows are within the limit
(`Prunes.charged_step`). A limiter for many clients that keeps a state for each of them answers
each client as a limiter of its own would (`answersTo_eq`).
-/

namespace MultiAgent

namespace SlidingWindow

/-! ## Limiters -/

section Limiters

variable {σ τ ρ π : Type*}

/-- The answers of a limiter that is asked in turn. -/
def answers (ask : σ → ρ → σ × Bool) : σ → List ρ → List Bool
  | _, [] => []
  | s, r :: rs => (ask s r).2 :: answers ask (ask s r).1 rs

/-- The answers to the requests of one client. -/
def answersTo (mine : ρ → Bool) (ask : σ → ρ → σ × Bool) : σ → List ρ → List Bool
  | _, [] => []
  | s, r :: rs =>
    if mine r then (ask s r).2 :: answersTo mine ask (ask s r).1 rs
    else answersTo mine ask (ask s r).1 rs

/-- What was let through. -/
def allowed : List ρ → List Bool → List ρ
  | r :: rs, true :: as => r :: allowed rs as
  | _ :: rs, false :: as => allowed rs as
  | _, _ => []

variable {ask : σ → ρ → σ × Bool} {ask' : τ → π → τ × Bool} {mine : ρ → Bool}

/-- A client is answered from its part of the state alone. -/
theorem answersTo_eq (view : σ → τ) (time : ρ → π)
    (hmine : ∀ s r, mine r = true → (view (ask s r).1, (ask s r).2) = ask' (view s) (time r))
    (hother : ∀ s r, mine r = false → view (ask s r).1 = view s) (s : σ) (rs : List ρ) :
    answersTo mine ask s rs = answers ask' (view s) ((rs.filter mine).map time) := by
  induction rs generalizing s with
  | nil => rfl
  | cons r rs ih =>
    rw [answersTo]
    cases hr : mine r with
    | false => rw [List.filter_cons_of_neg (by simp [hr]), ih, hother s r hr, if_neg (by simp)]
    | true =>
      rw [List.filter_cons_of_pos hr, List.map_cons, answers, ← hmine s r hr, ih, if_pos rfl]

end Limiters

/-! ## The policy -/

variable {K : Type*} [Field K] [LinearOrder K]

/-- How many of the times lie in the window `(t - window, t]`. -/
def count (window : K) (times : List K) (t : K) : ℕ :=
  times.countP fun u => decide (t - window < u ∧ u ≤ t)

/-- A request at time `t` after those that were let through. -/
def policy (window limit : K) (past : List K) (t : K) : List K × Bool :=
  if count window past t < limit then (past ++ [t], true) else (past, false)

/-- The requests at `times` were answered by the policy, which keeps every window within the
limit. -/
structure Exact [FloorSemiring K] (window limit : K) (times : List K) (as : List Bool) :
    Prop where
  policy : as = answers (policy window limit) [] times
  within : ∀ t, count window (allowed times as) t ≤ ⌈limit⌉₊

/-! ## Limiters that prune -/

/-- The times that have not left the window at `t`. -/
def recent (window : K) (times : List K) (t : K) : List K :=
  times.filter fun u => decide (t - window < u)

/-- A limiter in a `Good` state drops the times it keeps that have left the window, compares the
number of the others with the limit, and keeps the time of the request that it lets through. -/
def Prunes {σ : Type*} (ask : σ → K → σ × Bool) (Good : σ → Prop) (kept : σ → List K)
    (window limit : K) : Prop :=
  ∀ s t, Good s → (kept s).Pairwise (· ≤ ·) → (∀ u ∈ kept s, u ≤ t) →
    Good (ask s t).1 ∧
      (ask s t).2 = decide (((recent window (kept s) t).length : K) < limit) ∧
      kept (ask s t).1 = recent window (kept s) t ++ if (ask s t).2 then [t] else []

variable {window limit : K} {past times : List K} {t : K}

theorem count_eq_length (h : ∀ u ∈ past, u ≤ t) :
    count window past t = (recent window past t).length := by
  rw [count, recent, ← List.countP_eq_length_filter]
  exact List.countP_congr fun u hu => by simp [h u hu]

/-- What a limiter keeps and what was let through, once the clock shows `clock`. -/
structure Agrees (window : K) (kept past : List K) (clock : K) : Prop where
  sorted : kept.Pairwise (· ≤ ·)
  kept_le : ∀ u ∈ kept, u ≤ clock
  past_le : ∀ u ∈ past, u ≤ clock
  recent : ∀ t, clock ≤ t → recent window kept t = recent window past t

theorem Agrees.mono {kept : List K} {clock : K} (h : Agrees window kept past clock)
    (ht : clock ≤ t) : Agrees window kept past t where
  sorted := h.sorted
  kept_le u hu := (h.kept_le u hu).trans ht
  past_le u hu := (h.past_le u hu).trans ht
  recent t' ht' := h.recent t' (ht.trans ht')

/-- In a sorted list the times that have left the window are in front. -/
theorem dropWhile_eq_recent (h : times.Pairwise (· ≤ ·)) :
    (times.dropWhile fun u => decide (u ≤ t - window)) = recent window times t := by
  induction times with
  | nil => rfl
  | cons u us ih =>
    obtain ⟨hlater, hus⟩ := List.pairwise_cons.mp h
    unfold recent at ih ⊢
    rcases lt_or_ge (t - window) u with hu | hu
    · have hall : ∀ v ∈ us, decide (t - window < v) = true := fun v hv =>
        decide_eq_true (hu.trans_le (hlater v hv))
      rw [List.dropWhile_cons_of_neg (by simpa using hu),
        List.filter_cons_of_pos (by simpa using hu), List.filter_eq_self.mpr hall]
    · rw [List.dropWhile_cons_of_pos (by simpa using hu),
        List.filter_cons_of_neg (by simpa using hu), ih hus]

variable [IsStrictOrderedRing K]

theorem recent_recent {t' : K} (h : t ≤ t') :
    recent window (recent window times t) t' = recent window times t' := by
  unfold recent
  rw [List.filter_filter]
  refine List.filter_congr fun u _ => ?_
  have hle : t - window ≤ t' - window := sub_le_sub_right h window
  by_cases hu : t' - window < u
  · simp [hu, hle.trans_lt hu]
  · simp [hu]

/-- Both drop what is old, and both keep the time of a request that is let through. -/
theorem Agrees.step {kept : List K} (h : Agrees window kept past t) (new : List K)
    (hnew : new = [] ∨ new = [t]) :
    Agrees window (SlidingWindow.recent window kept t ++ new) (past ++ new) t := by
  have hle : ∀ u ∈ new, u = t := by
    rcases hnew with rfl | rfl <;> simp
  have hkept : ∀ u ∈ SlidingWindow.recent window kept t, u ≤ t := fun u hu =>
    h.kept_le u (List.mem_filter.mp hu).1
  have hpair : new.Pairwise (· ≤ ·) := by
    rcases hnew with rfl | rfl <;> simp
  refine ⟨List.pairwise_append.mpr ⟨h.sorted.filter _, hpair, fun u hu v hv => ?_⟩,
    fun u hu => ?_, fun u hu => ?_, fun t' ht' => ?_⟩
  · rw [hle v hv]
    exact hkept u hu
  · rcases List.mem_append.mp hu with hu | hu
    · exact hkept u hu
    · exact (hle u hu).le
  · rcases List.mem_append.mp hu with hu | hu
    · exact h.past_le u hu
    · exact (hle u hu).le
  · have hold : SlidingWindow.recent window (SlidingWindow.recent window kept t) t' =
        SlidingWindow.recent window kept t' := recent_recent ht'
    have hsame := h.recent t' ht'
    unfold SlidingWindow.recent at hold hsame ⊢
    rw [List.filter_append, List.filter_append, hold, hsame]

/-- A limiter that prunes answers as the policy does. -/
theorem Prunes.answers_eq {σ : Type*} {ask : σ → K → σ × Bool} {Good : σ → Prop}
    {kept : σ → List K} (h : Prunes ask Good kept window limit) {s : σ} (hs : Good s)
    {clock : K} (hagrees : Agrees window (kept s) past clock) (hclock : ∀ t ∈ times, clock ≤ t)
    (htimes : times.Pairwise (· ≤ ·)) :
    answers ask s times = answers (policy window limit) past times := by
  induction times generalizing s past clock with
  | nil => rfl
  | cons t ts ih =>
    have hnow := hagrees.mono (hclock t List.mem_cons_self)
    obtain ⟨hgood, hanswer, hkept⟩ := h s t hs hnow.sorted hnow.kept_le
    obtain ⟨hlater, hts⟩ := List.pairwise_cons.mp htimes
    rw [hnow.recent t le_rfl, ← count_eq_length hnow.past_le] at hanswer
    by_cases hlt : (count window past t : K) < limit
    · have hpolicy : policy window limit past t = (past ++ [t], true) := if_pos hlt
      have hstep := hnow.step [t] (Or.inr rfl)
      simp only [hlt, decide_true] at hanswer
      rw [hanswer, if_pos rfl] at hkept
      rw [answers, answers, hpolicy, hanswer, ih hgood (hkept ▸ hstep) hlater hts]
    · have hpolicy : policy window limit past t = (past, false) := if_neg hlt
      have hstep := hnow.step [] (Or.inl rfl)
      simp only [hlt, decide_false] at hanswer
      rw [hanswer, if_neg Bool.false_ne_true] at hkept
      rw [List.append_nil past] at hstep
      rw [answers, answers, hpolicy, hanswer, ih hgood (hkept ▸ hstep) hlater hts]

/-! ## What is let through -/

variable [FloorSemiring K]

omit [IsStrictOrderedRing K] in
/-- Where any two times are closer than the window, the policy lets no more requests through
than the limit rounded up. -/
theorem countP_allowed_le {inside : K → Bool}
    (hinside : ∀ u v, inside u = true → inside v = true → v - window < u)
    (hpast : past.countP inside ≤ ⌈limit⌉₊) (hle : ∀ u ∈ past, ∀ t ∈ times, u ≤ t)
    (htimes : times.Pairwise (· ≤ ·)) :
    past.countP inside +
      (allowed times (answers (policy window limit) past times)).countP inside ≤ ⌈limit⌉₊ := by
  induction times generalizing past with
  | nil => exact hpast
  | cons t ts ih =>
    obtain ⟨hlater, hts⟩ := List.pairwise_cons.mp htimes
    have hold : ∀ u ∈ past, u ≤ t := fun u hu => hle u hu t List.mem_cons_self
    by_cases hlt : (count window past t : K) < limit
    · have hpolicy : policy window limit past t = (past ++ [t], true) := if_pos hlt
      have hnext : (past ++ [t]).countP inside ≤ ⌈limit⌉₊ := by
        rw [List.countP_append, List.countP_singleton]
        split_ifs with ht
        · -- what lies inside with `t` lies in the window that ends with `t`
          have hcount : past.countP inside ≤ count window past t :=
            List.countP_mono_left fun u hu hin => by
              simpa [hold u hu] using hinside u t hin ht
          exact hcount.trans_lt (Nat.lt_ceil.mpr hlt)
        · exact hpast
      have hrest := ih hnext (fun u hu t' ht' => by
        rcases List.mem_append.mp hu with hu | hu
        · exact hle u hu t' (List.mem_cons_of_mem _ ht')
        · rw [List.mem_singleton.mp hu]
          exact hlater t' ht') hts
      rw [List.countP_append, List.countP_singleton, add_assoc] at hrest
      rw [answers, hpolicy, allowed, List.countP_cons, Nat.add_comm _ (ite _ _ _)]
      exact hrest
    · have hpolicy : policy window limit past t = (past, false) := if_neg hlt
      rw [answers, hpolicy, allowed]
      exact ih hpast (fun u hu t' ht' => hle u hu t' (List.mem_cons_of_mem _ ht')) hts

/-- A limiter that prunes, and keeps nothing at first, is exact. -/
theorem Prunes.exact {σ : Type*} {ask : σ → K → σ × Bool} {Good : σ → Prop}
    {kept : σ → List K} (h : Prunes ask Good kept window limit) {s : σ} (hs : Good s)
    (hempty : kept s = []) (htimes : times.Pairwise (· ≤ ·)) :
    Exact window limit times (answers ask s times) := by
  have hpolicy : answers ask s times = answers (policy window limit) [] times := by
    cases times with
    | nil => rfl
    | cons t ts =>
      have hagrees : Agrees window (kept s) [] t := by
        rw [hempty]
        exact ⟨List.Pairwise.nil, by simp, by simp, fun _ _ => rfl⟩
      refine h.answers_eq hs hagrees (fun u hu => ?_) htimes
      rcases List.mem_cons.mp hu with rfl | hu
      · exact le_rfl
      · exact (List.pairwise_cons.mp htimes).1 u hu
  refine ⟨hpolicy, fun t => ?_⟩
  have hinside : ∀ u v, decide (t - window < u ∧ u ≤ t) = true →
      decide (t - window < v ∧ v ≤ t) = true → v - window < u := by
    intro u v hu hv
    rw [decide_eq_true_eq] at hu hv
    exact (sub_le_sub_right hv.2 window).trans_lt hu.1
  have hnone : ([] : List K).countP (fun u => decide (t - window < u ∧ u ≤ t)) ≤ ⌈limit⌉₊ :=
    Nat.zero_le _
  have hbound := countP_allowed_le hinside hnone (List.forall_mem_nil _) htimes
  rwa [List.countP_nil, zero_add, ← hpolicy] at hbound

/-- A limiter that prunes, after it let requests through at the times `past`, which keep every
window within the limit. -/
structure Charged {σ : Type*} (Good : σ → Prop) (kept : σ → List K) (window limit : K) (s : σ)
    (past : List K) (clock : K) : Prop where
  good : Good s
  agrees : Agrees window (kept s) past clock
  within : ∀ t, count window past t ≤ ⌈limit⌉₊

/-- A request that finds room in the window that ends with it leaves every window within the
limit. -/
theorem count_concat_le (hpast : ∀ t, count window past t ≤ ⌈limit⌉₊)
    (hle : ∀ u ∈ past, u ≤ t) (hroom : (count window past t : K) < limit) (t' : K) :
    count window (past ++ [t]) t' ≤ ⌈limit⌉₊ := by
  unfold count at hpast hroom ⊢
  rw [List.countP_append, List.countP_singleton]
  split_ifs with hin
  · have hsooner : t ≤ t' := (of_decide_eq_true hin).2
    have hfewer : past.countP (fun u => decide (t' - window < u ∧ u ≤ t')) ≤
        past.countP fun u => decide (t - window < u ∧ u ≤ t) := by
      refine List.countP_mono_left fun u hu hin' => ?_
      have hafter := (of_decide_eq_true hin').1
      exact decide_eq_true ⟨(sub_le_sub_right hsooner window).trans_lt hafter, hle u hu⟩
    exact hfewer.trans_lt (Nat.lt_ceil.mpr hroom)
  · exact hpast t'

/-- It is one after one more request. -/
theorem Prunes.charged_step {σ : Type*} {ask : σ → K → σ × Bool} {Good : σ → Prop}
    {kept : σ → List K} (h : Prunes ask Good kept window limit) {s : σ} {clock : K}
    (hs : Charged Good kept window limit s past clock) (ht : clock ≤ t) :
    Charged Good kept window limit (ask s t).1 (past ++ if (ask s t).2 then [t] else []) t := by
  have hnow := hs.agrees.mono ht
  obtain ⟨hgood, hanswer, hkept⟩ := h s t hs.good hnow.sorted hnow.kept_le
  rw [hnow.recent t le_rfl, ← count_eq_length hnow.past_le] at hanswer
  refine ⟨hgood, ?_, ?_⟩
  · rw [hkept]
    refine hnow.step _ ?_
    cases (ask s t).2 <;> simp
  · cases hallowed : (ask s t).2 with
    | false => simpa using hs.within
    | true =>
      rw [hallowed] at hanswer
      exact count_concat_le hs.within hnow.past_le (of_decide_eq_true hanswer.symm)

end SlidingWindow

end MultiAgent
