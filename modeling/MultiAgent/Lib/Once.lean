import Mathlib.Data.Nat.Notation
import Mathlib.Logic.Function.Basic
import Mathlib.Logic.Relation

/-!
# Computing a value once

Parties that share a cell : a party looks into the cell and takes what is cached there, or
works out a value of its own, stores it and returns it. The work of a party and what it
stores are steps apart, so nothing but the order of the arrivals keeps two parties from
working at once. `keep v` is what the cell holds after `v` was stored in it, which may be
another value; if it is nothing, the cell may also stay as it was.

`Cell.Step` is one step of one party, where `may` says when a party may arrive, and `good`
which outputs it may have. `Once` holds of parties that arrive only while the cell is full
or no other party is active, and whose outputs the cell keeps : there is at most one
output, and every result is that output (`Once.result`). `Kept` holds of parties that arrive
one after the other, whatever their outputs : a result that the cell keeps is what every
later party finds.
-/

namespace MultiAgent

namespace Once

/-- What a party does : it looks into the cell, works, holds an output that is not stored
yet, has stored it, has returned what it found in the cell or its own output, or has
failed. -/
inductive Role (V : Type*)
  | checking
  | working
  | holding (v : V)
  | stored (v : V)
  | hit (v : V)
  | returned (v : V)
  | failed

namespace Role

variable {V : Type*}

/-- The party is not done. -/
def active : Role V → Bool
  | .checking => true
  | .working => true
  | .holding _ => true
  | .stored _ => true
  | .hit _ => false
  | .returned _ => false
  | .failed => false

/-- What the party has returned. -/
def result : Role V → Option V
  | .hit v => some v
  | .returned v => some v
  | _ => none

/-- A role that goes with an empty cell. -/
inductive Fresh : Role V → Prop
  | checking : Fresh .checking
  | working : Fresh .working
  | holding (v : V) : Fresh (.holding v)
  | failed : Fresh .failed

/-- A role that goes with the cell that holds `v`. -/
inductive Settled (v : V) : Role V → Prop
  | checking : Settled v .checking
  | stored : Settled v (.stored v)
  | hit : Settled v (.hit v)
  | returned : Settled v (.returned v)
  | failed : Settled v .failed

theorem active_of_result {x : Role V} {v : V} (h : x.result = some v) : x.active = false := by
  cases x <;> first | rfl | cases h

end Role

/-- The content of a cell, the outputs of its parties so far, and their roles. -/
@[ext] structure Cell (V : Type*) where
  cached : Option V
  outputs : List V
  role : ℕ → Option (Role V)

namespace Cell

variable {V : Type*} (c : Cell V) (i : ℕ)

/-- The cell before any party arrives. -/
def empty : Cell V where
  cached := none
  outputs := []
  role _ := none

/-- No party is active. -/
def Quiet : Prop :=
  ∀ j x, c.role j = some x → x.active = false

/-- While a party holds an output, no other is active. -/
def Exclusive : Prop :=
  ∀ i j v x, c.role i = some (.holding v) → j ≠ i → c.role j = some x → x.active = false

/-- The `i`-th party takes a role. -/
def set (x : Role V) : Cell V :=
  { c with role := Function.update c.role i (some x) }

/-- A step of a party of the cell. -/
inductive Step (keep : V → Option V) (may : Cell V → Prop) (good : V → Prop) :
    Cell V → Cell V → Prop
  | arrive {c : Cell V} (i : ℕ) : (∀ j, i ≤ j → c.role j = none) → may c →
      Step keep may good c (c.set i .checking)
  | miss {c : Cell V} (i : ℕ) : c.role i = some .checking → c.cached = none →
      Step keep may good c (c.set i .working)
  | hit {c : Cell V} (i : ℕ) (v : V) : c.role i = some .checking → c.cached = some v →
      Step keep may good c (c.set i (.hit v))
  | fail {c : Cell V} (i : ℕ) : c.role i = some .working → Step keep may good c (c.set i .failed)
  | produce {c : Cell V} (i : ℕ) (v : V) : c.role i = some .working → good v →
      Step keep may good c { c.set i (.holding v) with outputs := c.outputs ++ [v] }
  | store {c : Cell V} (i : ℕ) (v : V) (content : Option V) : c.role i = some (.holding v) →
      content = keep v ∨ keep v = none ∧ content = c.cached →
      Step keep may good c { c.set i (.stored v) with cached := content }
  | answer {c : Cell V} (i : ℕ) (v : V) : c.role i = some (.stored v) →
      Step keep may good c (c.set i (.returned v))

variable {c i} {x y z : Role V} {j : ℕ}

theorem role_set (h : (c.set i y).role j = some z) :
    j = i ∧ z = y ∨ j ≠ i ∧ c.role j = some z := by
  unfold set at h
  dsimp only at h
  by_cases hj : j = i
  · subst hj
    rw [Function.update_self] at h
    exact Or.inl ⟨rfl, (Option.some.inj h).symm⟩
  · rw [Function.update_of_ne hj] at h
    exact Or.inr ⟨hj, h⟩

@[simp] theorem role_set_self : (c.set i y).role i = some y := by
  simp [set]

theorem role_set_ne (h : j ≠ i) : (c.set i y).role j = c.role j := by
  simp [set, h]

/-- A party that keeps its role. -/
theorem set_eq_self (h : c.role i = some y) : c.set i y = c := by
  unfold set
  rw [← h, Function.update_eq_self]

end Cell

end Once

open Once (Role Cell)

/-- A cell whose parties arrive only while it is full or no other is active, and which keeps
their outputs. -/
structure Once {V : Type*} (keep : V → Option V) (c : Cell V) : Prop where
  kept : ∀ i v, c.role i = some (.holding v) → keep v = some v
  alone : c.cached = none → ∀ i j x y, c.role i = some x → c.role j = some y →
    x.active = true → y.active = true → i = j
  fresh : c.cached = none → ∀ i x, c.role i = some x → x.Fresh
  output : c.cached = none → (c.outputs = [] ∧ ∀ i v, c.role i ≠ some (.holding v)) ∨
    ∃ i v, c.outputs = [v] ∧ c.role i = some (.holding v)
  settled : ∀ v, c.cached = some v → c.outputs = [v] ∧ ∀ i x, c.role i = some x → x.Settled v

namespace Once

variable {V : Type*} {keep : V → Option V} {c d : Cell V} {i : ℕ} {v : V} {x y : Role V}

theorem empty : Once keep .empty where
  kept i v hi := by cases hi
  alone _ i j x y hx := by cases hx
  fresh _ i x hx := by cases hx
  output _ := Or.inl ⟨rfl, fun i v hi => by cases hi⟩
  settled v hv := by cases hv

theorem length_outputs (h : Once keep c) : c.outputs.length ≤ 1 := by
  cases hc : c.cached with
  | none => rcases h.output hc with ⟨ho, -⟩ | ⟨_, _, ho, -⟩ <;> simp [ho]
  | some w => simp [(h.settled w hc).1]

/-- Every result is the one output. -/
theorem result (h : Once keep c) (hi : c.role i = some x) (hx : x.result = some v) :
    c.outputs = [v] := by
  cases hc : c.cached with
  | none => cases h.fresh hc i x hi <;> cases hx
  | some w =>
    obtain ⟨ho, hroles⟩ := h.settled w hc
    cases hroles i x hi with
    | hit => exact Option.some.inj hx ▸ ho
    | returned => exact Option.some.inj hx ▸ ho
    | checking => cases hx
    | stored => cases hx
    | failed => cases hx

/-- While the cell is empty, an active party is the only one. -/
theorem others (h : Once keep c) (hi : c.role i = some x) (hx : x.active = true)
    (hc : c.cached = none) : ∀ j z, j ≠ i → c.role j = some z → z.active = false := by
  intro j z hne hj
  rw [← Bool.not_eq_true]
  exact fun hz => hne (h.alone hc j i z x hj hi hz hx)

/-- A party works or holds an output only while the cell is empty. -/
theorem cached_eq_none (h : Once keep c) (hi : c.role i = some x)
    (hx : x = .working ∨ ∃ v, x = .holding v) : c.cached = none := by
  cases hc : c.cached with
  | none => rfl
  | some w =>
    have hs := (h.settled w hc).2 i x hi
    rcases hx with rfl | ⟨v, rfl⟩ <;> cases hs

theorem exclusive (h : Once keep c) : c.Exclusive := by
  intro i j v x hi hne hj
  exact h.others hi rfl (h.cached_eq_none hi (Or.inr ⟨v, rfl⟩)) j x hne hj

/-- A party takes a role with which it holds no output, and held none before. -/
theorem set (h : Once keep c) (y : Role V)
    (halone : c.cached = none → y.active = true →
      ∀ j z, j ≠ i → c.role j = some z → z.active = false)
    (hfresh : c.cached = none → y.Fresh)
    (hold : c.cached = none → ∀ v, c.role i ≠ some (.holding v)) (hnew : ∀ v, y ≠ .holding v)
    (hsettled : ∀ v, c.cached = some v → y.Settled v) : Once keep (c.set i y) where
  kept j v hj := by
    rcases Cell.role_set hj with ⟨-, he⟩ | ⟨-, hj⟩
    · exact absurd he.symm (hnew v)
    · exact h.kept j v hj
  alone hc j k a b ha hb haa hba := by
    rcases Cell.role_set ha with ⟨hji, hay⟩ | ⟨hji, ha⟩
    · rcases Cell.role_set hb with ⟨hki, -⟩ | ⟨hki, hb⟩
      · exact hji.trans hki.symm
      · rw [hay] at haa
        simp [halone hc haa k b hki hb] at hba
    · rcases Cell.role_set hb with ⟨-, hby⟩ | ⟨-, hb⟩
      · rw [hby] at hba
        simp [halone hc hba j a hji ha] at haa
      · exact h.alone hc j k a b ha hb haa hba
  fresh hc j a ha := by
    rcases Cell.role_set ha with ⟨-, rfl⟩ | ⟨-, ha⟩
    · exact hfresh hc
    · exact h.fresh hc j a ha
  output hc := by
    rcases h.output hc with ⟨ho, hnone⟩ | ⟨j, v, ho, hj⟩
    · refine Or.inl ⟨ho, fun j v hj => ?_⟩
      rcases Cell.role_set hj with ⟨-, he⟩ | ⟨-, hj⟩
      · exact hnew v he.symm
      · exact hnone j v hj
    · have hne : j ≠ i := fun he => hold hc v (he ▸ hj)
      exact Or.inr ⟨j, v, ho, by rw [Cell.role_set_ne hne, hj]⟩
  settled v hc := by
    obtain ⟨ho, hroles⟩ := h.settled v hc
    refine ⟨ho, fun j a ha => ?_⟩
    rcases Cell.role_set ha with ⟨-, rfl⟩ | ⟨-, ha⟩
    · exact hsettled v hc
    · exact hroles j a ha

theorem produce (h : Once keep c) (hi : c.role i = some .working) (hv : keep v = some v) :
    Once keep { c.set i (.holding v) with outputs := c.outputs ++ [v] } := by
  have hc := h.cached_eq_none hi (Or.inl rfl)
  have hothers := h.others hi rfl hc
  have hnone : c.outputs = [] := by
    rcases h.output hc with ⟨ho, -⟩ | ⟨j, w, -, hj⟩
    · exact ho
    · have hne : j ≠ i := by
        rintro rfl
        simp [hi] at hj
      exact absurd (hothers j _ hne hj) (by simp [Role.active])
  refine ⟨fun j w hj => ?_, fun _ j k a b ha hb haa hba => ?_, fun _ j a ha => ?_, fun _ => ?_,
    fun w hw => ?_⟩
  · rcases Cell.role_set hj with ⟨-, he⟩ | ⟨-, hj⟩
    · cases he
      exact hv
    · exact h.kept j w hj
  · rcases Cell.role_set ha with ⟨hji, -⟩ | ⟨hji, ha⟩
    · rcases Cell.role_set hb with ⟨hki, -⟩ | ⟨hki, hb⟩
      · exact hji.trans hki.symm
      · simp [hothers k b hki hb] at hba
    · simp [hothers j a hji ha] at haa
  · rcases Cell.role_set ha with ⟨-, rfl⟩ | ⟨-, ha⟩
    · exact .holding v
    · exact h.fresh hc j a ha
  · exact Or.inr ⟨i, v, by simp [hnone], Cell.role_set_self⟩
  · exact absurd (hc.symm.trans hw) (by simp)

theorem store (h : Once keep c) (hi : c.role i = some (.holding v)) :
    Once keep { c.set i (.stored v) with cached := keep v } := by
  have hc := h.cached_eq_none hi (Or.inr ⟨v, rfl⟩)
  have hothers := h.others hi rfl hc
  rw [h.kept i v hi]
  have hfull : some v ≠ none := Option.some_ne_none v
  refine ⟨fun j w hj => ?_, fun hn => absurd hn hfull, fun hn => absurd hn hfull,
    fun hn => absurd hn hfull, fun w hw => ?_⟩
  · rcases Cell.role_set hj with ⟨-, he⟩ | ⟨-, hj⟩
    · cases he
    · exact h.kept j w hj
  obtain rfl := Option.some.inj hw
  constructor
  · rcases h.output hc with ⟨-, hnone⟩ | ⟨j, w, ho, hj⟩
    · exact absurd hi (hnone i v)
    · obtain rfl := h.alone hc j i _ _ hj hi rfl rfl
      obtain rfl : w = v := by simpa [hi] using hj.symm
      exact ho
  · intro j a ha
    rcases Cell.role_set ha with ⟨-, rfl⟩ | ⟨hne, ha⟩
    · exact .stored
    · have hquiet := hothers j a hne ha
      cases h.fresh hc j a ha with
      | failed => exact .failed
      | checking => cases hquiet
      | working => cases hquiet
      | holding => cases hquiet

/-- A party may arrive while the cell is full or no party is active. -/
def Free (c : Cell V) : Prop :=
  c.cached ≠ none ∨ c.Quiet

theorem step (h : Once keep c)
    (hst : Cell.Step keep Free (fun v => keep v = some v) c d) : Once keep d := by
  cases hst with
  | arrive i hnew hmay =>
    refine h.set .checking (fun hc _ j z _ hj => ?_) (fun _ => .checking)
      (fun _ v => by simp [hnew i (Nat.le_refl i)]) (by simp) (fun _ _ => .checking)
    exact hmay.resolve_left (not_not_intro hc) j z hj
  | miss i hi hc =>
    exact h.set .working (fun _ _ => h.others hi rfl hc) (fun _ => .working)
      (fun _ v => by simp [hi]) (by simp) (fun v hv => by simp [hc] at hv)
  | hit i v hi hc =>
    exact h.set (.hit v) (fun hn => by simp [hc] at hn) (fun hn => by simp [hc] at hn)
      (fun _ v => by simp [hi]) (by simp)
      (fun w hw => by obtain rfl := Option.some.inj (hc.symm.trans hw); exact .hit)
  | fail i hi =>
    exact h.set .failed (fun _ hf => by cases hf) (fun _ => .failed) (fun _ v => by simp [hi])
      (by simp) (fun _ _ => .failed)
  | produce i v hi hv => exact h.produce hi hv
  | store i v content hi hcontent =>
    have hkeep := h.kept i v hi
    obtain rfl : content = keep v := hcontent.resolve_right fun hn => by simp [hkeep] at hn
    exact h.store hi
  | answer i v hi =>
    have hnot : c.cached ≠ none := fun hc => by cases h.fresh hc i _ hi
    refine h.set (.returned v) (fun hc => absurd hc hnot) (fun hc => absurd hc hnot)
      (fun hc => absurd hc hnot) (by simp) fun w hw => ?_
    cases (h.settled w hw).2 i _ hi
    exact .returned

theorem steps (h : Once keep c)
    (hst : Relation.ReflTransGen (Cell.Step keep Free fun v => keep v = some v) c d) :
    Once keep d := by
  induction hst with
  | refl => exact h
  | tail _ hlast ih => exact ih.step hlast

/-! ## One party after the other -/

/-- A cell that keeps `r`, and whose parties arrive only while no other is active. -/
structure Kept (r : V) (c : Cell V) : Prop where
  last : ∀ i x, c.role i = some x → x.active = true → ∀ j, i < j → c.role j = none
  stored : ∀ i, c.role i = some (.stored r) → c.cached = some r
  found : ∀ i x, c.role i = some x → x.result = some r → c.cached = some r ∧
    ∀ j y, i < j → c.role j = some y → y = .checking ∨ y = .hit r

namespace Kept

variable {r : V}

theorem empty : Kept r (.empty : Cell V) where
  last i x hx := by cases hx
  stored i hi := by cases hi
  found i x hi := by cases hi

theorem arrive (h : Kept r c) (hnew : ∀ j, i ≤ j → c.role j = none) (hquiet : c.Quiet) :
    Kept r (c.set i .checking) where
  last j x hj hx k hk := by
    rcases Cell.role_set hj with ⟨rfl, -⟩ | ⟨-, hj⟩
    · rw [Cell.role_set_ne (Nat.ne_of_gt hk), hnew k (Nat.le_of_lt hk)]
    · simp [hquiet j x hj] at hx
  stored j hj := by
    rcases Cell.role_set hj with ⟨-, he⟩ | ⟨-, hj⟩
    · cases he
    · exact h.stored j hj
  found j x hj hx := by
    rcases Cell.role_set hj with ⟨-, rfl⟩ | ⟨-, hj⟩
    · cases hx
    · obtain ⟨hc, hlater⟩ := h.found j x hj hx
      refine ⟨hc, fun k y hk hy => ?_⟩
      rcases Cell.role_set hy with ⟨-, rfl⟩ | ⟨-, hy⟩
      · exact Or.inl rfl
      · exact hlater k y hk hy

/-- A party that works, or has an output, comes after no result that the cell keeps. -/
theorem unanswered (h : Kept r c) (hi : c.role i = some x) (hx : x.active = true)
    (hcheck : x ≠ .checking) : ∀ j y, c.role j = some y → y.result ≠ some r := by
  intro j y hj hy
  rcases Nat.lt_trichotomy i j with hlt | rfl | hgt
  · simp [h.last i x hi hx j hlt] at hj
  · obtain rfl := Option.some.inj (hi.symm.trans hj)
    simp [Role.active_of_result hy] at hx
  · rcases (h.found j y hj hy).2 i x hgt hi with rfl | rfl
    · exact hcheck rfl
    · cases hx

theorem exclusive (h : Kept r c) : c.Exclusive := by
  intro i j v x hi hne hj
  rw [← Bool.not_eq_true]
  intro hx
  rcases Nat.lt_or_gt_of_ne hne with hlt | hgt
  · simp [h.last j x hj hx i hlt] at hi
  · simp [h.last i _ hi rfl j hgt] at hj

theorem congr (h : Kept r c) (hcached : d.cached = c.cached) (hrole : d.role = c.role) :
    Kept r d where
  last := by rw [hrole]; exact h.last
  stored := by rw [hrole, hcached]; exact h.stored
  found := by rw [hrole, hcached]; exact h.found

/-- An active party takes another role; the content of the cell changes only if no result
was kept. -/
theorem set (h : Kept r c) (content : Option V) (hi : c.role i = some x) (hx : x.active = true)
    (y : Role V)
    (hstored : y = .stored r ∨ y.result = some r → content = some r)
    (hfound : ∀ j z, c.role j = some z → z.result = some r →
      content = c.cached ∧ (y = .checking ∨ y = .hit r))
    (hkeep : ∀ j, j ≠ i → c.role j = some (.stored r) → content = c.cached) :
    Kept r { c.set i y with cached := content } where
  last j z hj hz k hk := by
    rcases Cell.role_set hj with ⟨rfl, -⟩ | ⟨hji, hj⟩
    · exact (Cell.role_set_ne (Nat.ne_of_gt hk)).trans (h.last j x hi hx k hk)
    · have hnone := h.last j z hj hz
      have hki : k ≠ i := fun he => by simp [hnone i (he ▸ hk)] at hi
      exact (Cell.role_set_ne hki).trans (hnone k hk)
  stored j hj := by
    rcases Cell.role_set hj with ⟨-, he⟩ | ⟨hji, hj⟩
    · exact hstored (Or.inl he.symm)
    · exact (hkeep j hji hj).trans (h.stored j hj)
  found j z hj hz := by
    rcases Cell.role_set hj with ⟨hji, he⟩ | ⟨hji, hj⟩
    · subst hji
      refine ⟨hstored (Or.inr (he ▸ hz)), fun k w hk hw => ?_⟩
      have hnone := h.last j x hi hx k hk
      rcases Cell.role_set hw with ⟨rfl, -⟩ | ⟨-, hw⟩
      · exact absurd hk (Nat.lt_irrefl k)
      · simp [hnone] at hw
    · obtain ⟨hsame, hy⟩ := hfound j z hj hz
      obtain ⟨hc, hlater⟩ := h.found j z hj hz
      refine ⟨hsame.trans hc, fun k w hk hw => ?_⟩
      rcases Cell.role_set hw with ⟨-, rfl⟩ | ⟨-, hw⟩
      · exact hy
      · exact hlater k w hk hw

/-- A party that works fails, or works out an output. -/
theorem work (h : Kept r c) (hi : c.role i = some .working) (y : Role V)
    (hy : y ≠ .stored r) (hy' : y.result = none) :
    Kept r { c.set i y with cached := c.cached } :=
  h.set c.cached hi rfl y (fun he => he.elim (absurd · hy) fun he => by simp [hy'] at he)
    (fun j z hj hz => absurd hz (h.unanswered hi rfl (by simp) j z hj)) (fun _ _ _ => rfl)

theorem step {good : V → Prop} (h : Kept r c) (hr : keep r = some r)
    (hst : Cell.Step keep Cell.Quiet good c d) : Kept r d := by
  cases hst with
  | arrive i hnew hmay => exact h.arrive hnew hmay
  | miss i hi hc =>
    refine h.set c.cached hi rfl .working (by simp [Role.result]) (fun j z hj hz => ?_)
      (fun _ _ _ => rfl)
    simp [(h.found j z hj hz).1] at hc
  | hit i v hi hc =>
    refine h.set c.cached hi rfl (.hit v) (fun he => ?_) (fun j z hj hz => ⟨rfl, ?_⟩)
      (fun _ _ _ => rfl)
    · rcases he with he | he
      · cases he
      · cases he
        exact hc
    · obtain rfl := Option.some.inj (hc.symm.trans (h.found j z hj hz).1)
      exact Or.inr rfl
  | fail i hi => exact h.work hi .failed (by simp) rfl
  | produce i v hi _ => exact (h.work hi (.holding v) (by simp) rfl).congr rfl rfl
  | store i v content hi hcontent =>
    refine h.set content hi rfl (.stored v) (fun he => ?_)
      (fun j z hj hz => absurd hz (h.unanswered hi rfl (by simp) j z hj)) (fun j hj hst => ?_)
    · rcases he with he | he
      · cases he
        exact (hcontent.resolve_right fun hn => by simp [hr] at hn).trans hr
      · cases he
    · rcases Nat.lt_or_gt_of_ne hj with hlt | hgt
      · simp [h.last j _ hst rfl i hlt] at hi
      · simp [h.last i _ hi rfl j hgt] at hst
  | answer i v hi =>
    refine h.set c.cached hi rfl (.returned v) (fun he => ?_)
      (fun j z hj hz => absurd hz (h.unanswered hi rfl (by simp) j z hj)) (fun _ _ _ => rfl)
    rcases he with he | he
    · cases he
    · cases he
      exact h.stored i hi

theorem steps {good : V → Prop} (h : Kept r c) (hr : keep r = some r)
    (hst : Relation.ReflTransGen (Cell.Step keep Cell.Quiet good) c d) : Kept r d := by
  induction hst with
  | refl => exact h
  | tail _ hlast ih => exact ih.step hr hlast

end Kept

end Once

end MultiAgent
