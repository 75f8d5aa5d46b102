import Mathlib.Algebra.Order.Field.Basic
import Mathlib.Tactic.Linarith

/-!
# Token buckets

A bucket of bounded capacity that refills at a constant rate. Refilling in two steps is
refilling in one (`refill_refill`), so the level depends only on what was taken out :
`level` is the level of the bucket that starts full, given the grants so far. Tokens that are
not there are there after the time to `wait` for them, and no earlier (`le_refill_iff`).

Grants `Conform` if each found its tokens in the bucket. Then the bucket is never empty
below zero (`Conform.level_nonneg`), and over any window of time the grants are at most
the capacity and what was refilled in the window (`Conform.granted_le`).
-/

namespace MultiAgent

/-- A bucket of `capacity` tokens that refills at `rate` tokens per unit of time. -/
structure BucketRate (K : Type*) where
  capacity : K
  rate : K

/-- Tokens taken out of a bucket. -/
structure Grant (K : Type*) where
  time : K
  amount : K
  deriving DecidableEq

namespace BucketRate

variable {K : Type*} [Field K] [LinearOrder K] (b : BucketRate K)

/-- The level after `elapsed` units of time. -/
def refill (level elapsed : K) : K :=
  min b.capacity (level + elapsed * b.rate)

/-- The level at time `t` of a bucket that started full, with the newest grant first. -/
def level : List (Grant K) → K → K
  | [], _ => b.capacity
  | g :: older, t => b.refill (level older g.time - g.amount) (t - g.time)

/-- The time until `n` tokens are there, if they are not there now. -/
def wait (level n : K) : K :=
  (n - level) / b.rate

/-- The requests that the bucket grants when it grants what it holds, newest first. -/
def serve : List (Grant K) → List (Grant K)
  | [] => []
  | g :: older =>
    if g.amount ≤ b.level (serve older) g.time then g :: serve older else serve older

/-- What was granted from `s` to `t`. -/
def granted (s t : K) : List (Grant K) → K
  | [] => 0
  | g :: older => (if s ≤ g.time ∧ g.time ≤ t then g.amount else 0) + granted s t older

/-- Grants in order of time, each of which the bucket held. -/
def Conform : List (Grant K) → Prop
  | [] => True
  | g :: older =>
    Conform older ∧ g.amount ≤ b.level older g.time ∧ ∀ g' ∈ older, g'.time ≤ g.time

section Refill

variable {b}

theorem refill_le (x d : K) : b.refill x d ≤ b.capacity :=
  min_le_left _ _

theorem refill_le_add (x d : K) : b.refill x d ≤ x + d * b.rate :=
  min_le_right _ _

theorem refill_zero {x : K} (h : x ≤ b.capacity) : b.refill x 0 = x := by
  rw [refill, zero_mul, add_zero, min_eq_right h]

theorem level_le (gs : List (Grant K)) (t : K) : b.level gs t ≤ b.capacity := by
  cases gs with
  | nil => exact le_refl _
  | cons g older => exact refill_le _ _

/-- A bucket that would be full by then is full. -/
theorem refill_eq_capacity {x d : K} (h : b.capacity ≤ x + d * b.rate) :
    b.refill x d = b.capacity :=
  min_eq_left h

theorem granted_of_lt {s t : K} {gs : List (Grant K)} (h : ∀ g ∈ gs, g.time < s) :
    granted s t gs = 0 := by
  induction gs with
  | nil => rfl
  | cons g older ih =>
    have hg : ¬(s ≤ g.time ∧ g.time ≤ t) := fun hin =>
      absurd hin.1 (not_le.mpr (h g List.mem_cons_self))
    rw [granted, if_neg hg, zero_add, ih fun g' hg' => h g' (List.mem_cons_of_mem _ hg')]

/-- The end of a window does not matter once every grant is behind it. -/
theorem granted_of_le {s t u : K} {gs : List (Grant K)} (ht : ∀ g ∈ gs, g.time ≤ t)
    (hu : ∀ g ∈ gs, g.time ≤ u) : granted s t gs = granted s u gs := by
  induction gs with
  | nil => rfl
  | cons g older ih =>
    rw [granted, granted, ih (fun g' hg' => ht g' (List.mem_cons_of_mem _ hg'))
      fun g' hg' => hu g' (List.mem_cons_of_mem _ hg')]
    simp [ht g List.mem_cons_self, hu g List.mem_cons_self]

theorem wait_inj (hr : 0 < b.rate) {x y n : K} : b.wait x n = b.wait y n ↔ x = y := by
  rw [wait, wait, div_left_inj' hr.ne', sub_right_inj]

variable [IsStrictOrderedRing K]

/-- The tokens are there once the time to wait for them is over. -/
theorem le_refill_iff (hr : 0 < b.rate) {x n d : K} (hn : n ≤ b.capacity) :
    n ≤ b.refill x d ↔ b.wait x n ≤ d := by
  rw [refill, le_min_iff, and_iff_right hn, wait, div_le_iff₀ hr, sub_le_iff_le_add']

theorem wait_pos_iff (hr : 0 < b.rate) {x n : K} : 0 < b.wait x n ↔ x < n := by
  rw [wait, div_pos_iff_of_pos_right hr, sub_pos]

theorem refill_full (hr : 0 ≤ b.rate) {d : K} (hd : 0 ≤ d) :
    b.refill b.capacity d = b.capacity :=
  refill_eq_capacity (le_add_of_nonneg_right (mul_nonneg hd hr))

theorem le_refill (hr : 0 ≤ b.rate) {x d : K} (hd : 0 ≤ d) : min b.capacity x ≤ b.refill x d :=
  min_le_min_left _ (le_add_of_nonneg_right (mul_nonneg hd hr))

/-- Refilling in two steps is refilling in one. -/
theorem refill_refill (hr : 0 ≤ b.rate) (x d : K) {e : K} (he : 0 ≤ e) :
    b.refill (b.refill x d) e = b.refill x (d + e) := by
  have hgain : 0 ≤ e * b.rate := mul_nonneg he hr
  unfold refill
  rw [← min_add_add_right, add_mul, ← add_assoc, ← min_assoc,
    min_eq_left (le_add_of_nonneg_right hgain)]

theorem level_advance (hr : 0 ≤ b.rate) (gs : List (Grant K)) {t t' : K} (h : t ≤ t') :
    b.level gs t' = b.refill (b.level gs t) (t' - t) := by
  cases gs with
  | nil => exact (refill_full hr (sub_nonneg.mpr h)).symm
  | cons g older =>
    rw [level, level, refill_refill hr _ _ (sub_nonneg.mpr h)]
    congr 1
    exact (sub_add_sub_cancel' t g.time t').symm

/-- The level right after a grant. -/
theorem level_cons_self {g : Grant K} (hg : 0 ≤ g.amount) (older : List (Grant K)) :
    b.level (g :: older) g.time = b.level older g.time - g.amount := by
  rw [level, sub_self, refill_zero]
  exact (sub_le_self _ hg).trans (level_le older g.time)

end Refill

section Conform

variable {b} [IsStrictOrderedRing K]

theorem Conform.level_nonneg (hc : 0 ≤ b.capacity) (hr : 0 ≤ b.rate) {gs : List (Grant K)}
    (h : b.Conform gs) {t : K} (ht : ∀ g ∈ gs, g.time ≤ t) : 0 ≤ b.level gs t := by
  cases gs with
  | nil => exact hc
  | cons g older =>
    have hleft : 0 ≤ b.level older g.time - g.amount := sub_nonneg.mpr h.2.1
    have htime : 0 ≤ t - g.time := sub_nonneg.mpr (ht g List.mem_cons_self)
    exact (le_min hc hleft).trans (le_refill hr htime)

/-- The level and the grants since `s` come out of a full bucket and what was refilled
since `s`. -/
theorem Conform.level_add_granted_le (hr : 0 ≤ b.rate) {gs : List (Grant K)}
    (h : b.Conform gs) {s t : K} (hst : s ≤ t) (ht : ∀ g ∈ gs, g.time ≤ t) :
    b.level gs t + granted s t gs ≤ b.capacity + b.rate * (t - s) := by
  induction gs generalizing t with
  | nil =>
    have hgain : 0 ≤ b.rate * (t - s) := mul_nonneg hr (sub_nonneg.mpr hst)
    simpa [level, granted] using hgain
  | cons g older ih =>
    obtain ⟨hold, hamount, htimes⟩ := h
    have hgt : g.time ≤ t := ht g List.mem_cons_self
    rcases lt_or_ge g.time s with hgs | hgs
    · have hgain : 0 ≤ b.rate * (t - s) := mul_nonneg hr (sub_nonneg.mpr hst)
      have hzero : granted s t (g :: older) = 0 := granted_of_lt fun g' hg' => by
        rcases List.mem_cons.mp hg' with rfl | hg'
        · exact hgs
        · exact (htimes g' hg').trans_lt hgs
      rw [hzero, add_zero]
      exact (level_le _ _).trans (le_add_of_nonneg_right hgain)
    · have hih := ih hold hgs htimes
      have hwindow : granted s t older = granted s g.time older :=
        granted_of_le (fun g' hg' => ht g' (List.mem_cons_of_mem _ hg')) htimes
      have hle := refill_le_add (b := b) (b.level older g.time - g.amount) (t - g.time)
      rw [granted, if_pos ⟨hgs, hgt⟩, hwindow, level]
      linarith

/-- Over a window, at most the capacity and what is refilled in the window is granted. -/
theorem Conform.granted_le (hc : 0 ≤ b.capacity) (hr : 0 ≤ b.rate) {gs : List (Grant K)}
    (h : b.Conform gs) {s t : K} (hst : s ≤ t) :
    granted s t gs ≤ b.capacity + b.rate * (t - s) := by
  induction gs with
  | nil => exact add_nonneg hc (mul_nonneg hr (sub_nonneg.mpr hst))
  | cons g older ih =>
    rcases le_or_gt g.time t with hgt | hgt
    · have hin : ∀ g' ∈ g :: older, g'.time ≤ t := fun g' hg' => by
        rcases List.mem_cons.mp hg' with rfl | hg'
        · exact hgt
        · exact (h.2.2 g' hg').trans hgt
      have hlevel := h.level_nonneg hc hr hin
      have hsum := h.level_add_granted_le hr hst hin
      linarith
    · rw [granted, if_neg fun hin => absurd hin.2 (not_le.mpr hgt), zero_add]
      exact ih h.1

end Conform

end BucketRate

end MultiAgent
