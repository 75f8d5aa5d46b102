import Mathlib.Data.List.Nodup
import Mathlib.Data.List.TakeWhile

/-!
# One pass over items with dependencies

A pass runs through a list of items once and in order. An item whose dependencies are all
done is run, any other one is left out for good; a run item is done under its key, and the
pass stops at the first item that fails. Which items come to be run is `ready`, whatever
fails (`attempt_eq`), and every item is run exactly when each has its dependencies before
it (`ready_eq_self_iff`).

If no other item has the key of one that was run, the items that were run are found again by
their keys (`filter_key_eq`).
-/

namespace MultiAgent

namespace ReadyPass

variable {α κ : Type*} [DecidableEq κ] (key : α → κ) (deps : α → List κ)

/-- The items that a pass without failures runs. -/
def ready : List α → List κ → List α
  | [], _ => []
  | x :: l, done =>
    if ∀ d ∈ deps x, d ∈ done then x :: ready l (done ++ [key x]) else ready l done

/-- The items that are run with success, and the one that fails. -/
def attempt (ok : α → Bool) : List α → List κ → List α × Option α
  | [], _ => ([], none)
  | x :: l, done =>
    if ∀ d ∈ deps x, d ∈ done then
      if ok x then
        let rest := attempt ok l (done ++ [key x])
        (x :: rest.1, rest.2)
      else ([], some x)
    else attempt ok l done

variable {key deps}

theorem ready_sublist : ∀ (l : List α) (done : List κ), (ready key deps l done).Sublist l
  | [], _ => List.Sublist.refl _
  | x :: l, done => by
    unfold ready
    split_ifs
    · exact (ready_sublist l _).cons_cons x
    · exact (ready_sublist l done).cons x

/-- A pass runs the items that are ready, up to the first that fails. -/
theorem attempt_eq (ok : α → Bool) : ∀ (l : List α) (done : List κ),
    attempt key deps ok l done =
      ((ready key deps l done).takeWhile ok, (ready key deps l done).find? fun x => !ok x)
  | [], _ => rfl
  | x :: l, done => by
    unfold attempt ready
    split_ifs with hdeps hok
    · simp [attempt_eq ok l, hok]
    · simp [hok]
    · exact attempt_eq ok l done

/-- The pass ends without a failure : everything that is ready was run. -/
theorem attempt_none {ok : α → Bool} {l ran : List α} {done : List κ}
    (h : attempt key deps ok l done = (ran, none)) :
    ran = ready key deps l done ∧ ∀ x ∈ ran, ok x = true := by
  rw [attempt_eq, Prod.mk.injEq] at h
  obtain ⟨hran, hnone⟩ := h
  have hall : ∀ x ∈ ready key deps l done, ok x = true := by simpa using hnone
  have htake : (ready key deps l done).takeWhile ok = ready key deps l done :=
    List.takeWhile_eq_self_iff.mpr hall
  have heq : ran = ready key deps l done := hran.symm.trans htake
  exact ⟨heq, by rwa [heq]⟩

/-- The pass ends with a failure : the item that failed comes next after those that were run. -/
theorem attempt_some {ok : α → Bool} {l ran : List α} {done : List κ} {x : α}
    (h : attempt key deps ok l done = (ran, some x)) :
    ok x = false ∧ (∀ y ∈ ran, ok y = true) ∧
      ∃ rest, ready key deps l done = ran ++ x :: rest := by
  rw [attempt_eq, Prod.mk.injEq] at h
  obtain ⟨rfl, hsome⟩ := h
  obtain ⟨hx, before, rest, hready, hbefore⟩ := List.find?_eq_some_iff_append.mp hsome
  have hok : ∀ y ∈ before, ok y = true := by simpa using hbefore
  have hx' : ok x = false := by simpa using hx
  have htake : (ready key deps l done).takeWhile ok = before := by
    rw [hready, List.takeWhile_append_of_pos hok]
    simp [hx']
  exact ⟨hx', by rwa [htake], rest, by rw [htake, hready]⟩

/-- Every item is run exactly when each has its dependencies before it. -/
theorem ready_eq_self_iff : ∀ {l : List α} {done : List κ}, ready key deps l done = l ↔
    ∀ before x after, l = before ++ x :: after →
      ∀ d ∈ deps x, d ∈ done ∨ d ∈ before.map key
  | [], done => by simp [ready]
  | x :: l, done => by
    unfold ready
    split_ifs with hdeps
    · rw [List.cons_inj_right, ready_eq_self_iff]
      constructor
      · rintro h (_ | ⟨y, before⟩) z after hl d hd
        · obtain ⟨rfl, rfl⟩ := List.cons.inj hl
          exact Or.inl (hdeps d hd)
        · obtain ⟨rfl, rfl⟩ := List.cons.inj hl
          simpa [or_assoc] using h before z after rfl d hd
      · rintro h before z after rfl d hd
        simpa [or_assoc] using h (x :: before) z after rfl d hd
    · have hlength : (ready key deps l done).length ≤ l.length :=
        (ready_sublist l done).length_le
      refine ⟨fun h => ?_, fun h => absurd (fun d hd => ?_) hdeps⟩
      · rw [h, List.length_cons] at hlength
        omega
      · simpa using h [] x l rfl d hd

theorem filter_mem_sublist [DecidableEq α] {l ran : List α} (hl : l.Nodup)
    (h : ran.Sublist l) : (l.filter fun x => decide (x ∈ ran)) = ran := by
  induction h with
  | slnil => rfl
  | @cons ran l x h ih =>
    rw [List.nodup_cons] at hl
    have hx : x ∉ ran := fun hx => hl.1 (h.subset hx)
    rw [List.filter_cons_of_neg (by simpa using hx), ih hl.2]
  | @cons_cons ran l x h ih =>
    rw [List.nodup_cons] at hl
    have hfilter : (l.filter fun y => decide (y ∈ x :: ran)) = ran := by
      rw [← ih hl.2]
      refine List.filter_congr fun y hy => ?_
      have hyx : y ≠ x := fun hyx => hl.1 (hyx ▸ hy)
      simp [hyx, ih hl.2]
    rw [List.filter_cons_of_pos (by simp), hfilter]

variable (key) in
/-- Items that were run, found again by key : no others are found if none of the others has
the key of one that was run. -/
theorem filter_key_eq {l ran : List α} (hl : l.Nodup) (h : ran.Sublist l) {p : α → Bool}
    (hshared : ∀ x ∈ l, p x = true → key x ∈ ran.map key → x ∈ ran) :
    (l.filter fun x => decide (key x ∈ ran.map key) && p x) = ran.filter p := by
  classical
  have hran := filter_mem_sublist hl h
  rw [← hran, List.filter_filter, hran]
  refine List.filter_congr fun x hx => ?_
  by_cases hp : p x = true
  · have hiff : key x ∈ ran.map key ↔ x ∈ ran :=
      ⟨hshared x hx hp, fun hmem => List.mem_map_of_mem hmem⟩
    rw [hp, Bool.and_true, Bool.true_and, decide_eq_decide]
    exact hiff
  · simp [hp]

end ReadyPass

end MultiAgent
