import Mathlib.Data.List.Basic
import Mathlib.Data.Nat.Find

/-!
# Loops with an early exit

`forLoop` is a `for` over a list whose body goes on with a new state or leaves the loop with a
result. If it is known of the first passes under which condition each goes on, and one pass always
leaves, then the property of the result is decided by these conditions (`forLoop_iff`). What every
pass keeps or turns into a property of the result is the loop's (`forLoop_rule`).

A loop that tries again makes passes until one is the last (`IsLast`) : the first that is not to
be repeated, or the last that is allowed.
-/

namespace MultiAgent

namespace ForLoop

variable {ι σ ρ : Type*}

/-- `for i in l` : the body leaves with a result or goes on, and after the last pass there is
`after`. -/
def forLoop (body : ι → σ → ρ ⊕ σ) (after : σ → ρ) : List ι → σ → ρ
  | [], s => after s
  | i :: l, s =>
    match body i s with
    | .inl r => r
    | .inr t => forLoop body after l t

theorem forLoop_cons_inl {body : ι → σ → ρ ⊕ σ} {after : σ → ρ} {i : ι} {l : List ι} {s : σ} {r : ρ}
    (h : body i s = .inl r) : forLoop body after (i :: l) s = r := by
  rw [forLoop, h]

/-- `range(1, n + 1)`. -/
theorem range'_one (n : ℕ) : List.range' 1 n = (List.range' 0 n).map (· + 1) := by
  simpa only [Nat.add_comm, Nat.zero_add] using (List.map_add_range' (a := 1) 0 n 1).symm

section Passes

variable {body : ι → σ → ρ ⊕ σ} {after : σ → ρ} {number : ℕ → ι} {I : ℕ → σ → Prop}
  {good : ℕ → Prop} {P : ρ → Prop} {C : Prop} {p : ℕ}

/-- Let pass `p` leave with a result that has the property just if `C`, and let an earlier pass
go on if it is good, and leave with a result without the property otherwise. Then the loop has the
property exactly if all of them are good and `C`. -/
theorem forLoop_iff_from
    (hgood : ∀ i < p, good i → ∀ s, I i s → ∃ t, body (number i) s = .inr t ∧ I (i + 1) t)
    (hbad : ∀ i < p, ¬good i → ∀ s, I i s → ∃ r, body (number i) s = .inl r ∧ ¬P r)
    (hlast : ∀ s, I p s → ∃ r, body (number p) s = .inl r ∧ (P r ↔ C)) :
    ∀ (k i : ℕ) (s : σ), I i s → i ≤ p → p < i + k →
      (P (forLoop body after ((List.range' i k).map number) s) ↔
        (∀ j, i ≤ j → j < p → good j) ∧ C)
  | 0, i, s, _, hi, hk => absurd hk (by omega)
  | k + 1, i, s, hs, hi, hk => by
    rw [List.range'_succ, List.map_cons, forLoop]
    rcases Nat.eq_or_lt_of_le hi with rfl | hlt
    · obtain ⟨r, hr, hP⟩ := hlast s hs
      rw [hr]
      exact hP.trans (and_iff_right fun j hj hj' => absurd hj' (by omega)).symm
    · by_cases hi' : good i
      · obtain ⟨t, ht, htinv⟩ := hgood i hlt hi' s hs
        rw [ht]
        refine (forLoop_iff_from hgood hbad hlast k (i + 1) t htinv hlt (by omega)).trans ?_
        refine and_congr_left fun _ => ⟨fun h j hj hj' => ?_, fun h j hj hj' => ?_⟩
        · rcases Nat.eq_or_lt_of_le hj with rfl | hj
          · exact hi'
          · exact h j hj hj'
        · exact h j (by omega) hj'
      · obtain ⟨r, hr, hP⟩ := hbad i hlt hi' s hs
        rw [hr]
        exact iff_of_false hP fun h => hi' (h.1 i le_rfl hlt)

theorem forLoop_iff {n : ℕ} (hp : p < n)
    (hgood : ∀ i < p, good i → ∀ s, I i s → ∃ t, body (number i) s = .inr t ∧ I (i + 1) t)
    (hbad : ∀ i < p, ¬good i → ∀ s, I i s → ∃ r, body (number i) s = .inl r ∧ ¬P r)
    (hlast : ∀ s, I p s → ∃ r, body (number p) s = .inl r ∧ (P r ↔ C)) {s : σ}
    (hs : I 0 s) :
    P (forLoop body after ((List.range' 0 n).map number) s) ↔ (∀ i < p, good i) ∧ C := by
  have hfrom : P (forLoop body after ((List.range' 0 n).map number) s) ↔
      (∀ j, 0 ≤ j → j < p → good j) ∧ C :=
    forLoop_iff_from hgood hbad hlast n 0 s hs (Nat.zero_le p) (by omega)
  simpa using hfrom

theorem forLoop_rule_from {n : ℕ}
    (hbody : ∀ i < n, ∀ s, I i s → Sum.elim P (I (i + 1)) (body (number i) s))
    (hafter : ∀ s, I n s → P (after s)) :
    ∀ (k i : ℕ) (s : σ), i + k = n → I i s →
      P (forLoop body after ((List.range' i k).map number) s)
  | 0, i, s, hn, hs => by
    obtain rfl : i = n := by omega
    exact hafter s hs
  | k + 1, i, s, hn, hs => by
    rw [List.range'_succ, List.map_cons, forLoop]
    have hpass := hbody i (by omega) s hs
    cases heq : body (number i) s with
    | inl r =>
      rw [heq] at hpass
      exact hpass
    | inr t =>
      rw [heq] at hpass
      exact forLoop_rule_from hbody hafter k (i + 1) t (by omega) hpass

/-- The invariant `I` holds before every pass, and a pass that leaves does so with a result that has
the property `P`. -/
theorem forLoop_rule {n : ℕ}
    (hbody : ∀ i < n, ∀ s, I i s → Sum.elim P (I (i + 1)) (body (number i) s))
    (hafter : ∀ s, I n s → P (after s)) {s : σ} (hs : I 0 s) :
    P (forLoop body after ((List.range' 0 n).map number) s) :=
  forLoop_rule_from hbody hafter n 0 s (Nat.zero_add n) hs

end Passes

/-! ## The last pass -/

/-- Pass `p` is the last of at most `n` : those before it are repeated, and it is not or cannot
be. -/
structure IsLast (repeated : ℕ → Bool) (n p : ℕ) : Prop where
  lt : p < n
  before : ∀ i < p, repeated i = true
  stops : p + 1 < n → repeated p = false

variable {repeated : ℕ → Bool} {n p q : ℕ}

theorem exists_isLast (repeated : ℕ → Bool) (hn : 0 < n) : ∃ p, IsLast repeated n p := by
  have hexists : ∃ p, p + 1 = n ∨ repeated p = false := ⟨n - 1, Or.inl (by omega)⟩
  have hmin : ∀ i < Nat.find hexists, i + 1 ≠ n ∧ repeated i = true := fun i hi => by
    have hnot := Nat.find_min hexists hi
    push Not at hnot
    exact ⟨hnot.1, by simpa using hnot.2⟩
  refine ⟨Nat.find hexists, ?_, fun i hi => (hmin i hi).2, fun hlt => ?_⟩
  · by_contra hge
    exact (hmin (n - 1) (by omega)).1 (by omega)
  · exact (Nat.find_spec hexists).resolve_left (by omega)

/-- The passes before the last are those that are repeated together with all before them. -/
theorem IsLast.lt_iff (h : IsLast repeated n p) (i : ℕ) :
    i < p ↔ i + 1 < n ∧ ∀ j ≤ i, repeated j = true := by
  have hlt := h.lt
  constructor
  · intro hi
    exact ⟨by omega, fun j hj => h.before j (by omega)⟩
  · rintro ⟨hi, hall⟩
    by_contra hge
    have hstop := h.stops (by omega)
    rw [hall p (by omega)] at hstop
    cases hstop

theorem IsLast.unique (h : IsLast repeated n p) (h' : IsLast repeated n q) : p = q := by
  rcases Nat.lt_trichotomy p q with hlt | heq | hgt
  · exact absurd ((h.lt_iff p).mpr ((h'.lt_iff p).mp hlt)) (lt_irrefl p)
  · exact heq
  · exact absurd ((h'.lt_iff q).mpr ((h.lt_iff q).mp hgt)) (lt_irrefl q)

/-- If pass `q` is the first that is not repeated, the passes up to the last number the smaller of
`n` and the position of `q`. -/
theorem IsLast.eq_min (h : IsLast repeated n p) (hbefore : ∀ i < q, repeated i = true)
    (hstop : repeated q = false) : p + 1 = min n (q + 1) := by
  have hlt := h.lt
  have hle : p ≤ q := by
    by_contra hgt
    rw [h.before q (by omega)] at hstop
    cases hstop
  have hend : p + 1 < n → q ≤ p := fun hp => by
    by_contra hgt
    have hfalse := h.stops hp
    rw [hbefore p (by omega)] at hfalse
    cases hfalse
  omega

end ForLoop

end MultiAgent
