import MultiAgent.Lib.Dict

/-!
# Fair semaphores

A counting semaphore with a first-in-first-out queue of waiters, as `asyncio.Semaphore`
has it. A release hands the permit to the first waiter that has none; the waiter is woken,
and keeps its place in the queue until it runs again. A waiter that is cancelled leaves
the queue, and gives back the permit it was handed, if it was.

A permit is free (`value`), or handed to a waiter that has not run yet (`handed`), or
held by a task that went on. The lemmas on `permits` say how each operation moves the sum
of the first two, so that a program that uses a semaphore only has to count its holders.
-/

namespace MultiAgent

/-- The free permits, and the waiters in the order in which they came : a waiter is woken
when it was handed a permit. -/
structure Semaphore (τ : Type*) where
  value : ℕ
  waiters : Dict τ Bool := .empty

namespace Semaphore

variable {τ : Type*} [DecidableEq τ] (s : Semaphore τ)

/-- No permit can be had at once. -/
def locked : Bool :=
  s.value = 0 || !s.waiters.items.isEmpty

/-- Hand a permit to the first waiter that has none. -/
def wakeUpNext : Semaphore τ :=
  match s.waiters.items.find? fun p => !p.2 with
  | some p => { value := s.value - 1, waiters := s.waiters.set p.1 true }
  | none => s

/-- Take a free permit. -/
def take : Semaphore τ :=
  { s with value := s.value - 1 }

/-- Join the queue. -/
def wait (t : τ) : Semaphore τ :=
  { s with waiters := s.waiters.set t false }

/-- `t` waits and was handed a permit. -/
def woken (t : τ) : Bool :=
  (s.waiters.get? t).any id

/-- A woken waiter goes on with its permit, and wakes the next one if it can. -/
def resume (t : τ) : Semaphore τ :=
  let s := { s with waiters := s.waiters.erase t }
  if 0 < s.value then s.wakeUpNext else s

/-- A waiter is cancelled. -/
def abandon (t : τ) : Semaphore τ :=
  let rest := { s with waiters := s.waiters.erase t }
  if s.woken t then { rest with value := rest.value + 1 }.wakeUpNext else rest

/-- Give a permit back. -/
def release : Semaphore τ :=
  { s with value := s.value + 1 }.wakeUpNext

/-! ## The queue -/

theorem mem_waiters_wakeUpNext {t : τ} : t ∈ s.wakeUpNext.waiters ↔ t ∈ s.waiters := by
  unfold wakeUpNext
  split
  · rename_i p hp
    have hmem : p.1 ∈ s.waiters := List.mem_map_of_mem (List.mem_of_find?_eq_some hp)
    rw [Dict.mem_set]
    exact or_iff_right_of_imp fun h => h ▸ hmem
  · rfl

omit [DecidableEq τ] in
@[simp] theorem mem_waiters_take {t : τ} : t ∈ s.take.waiters ↔ t ∈ s.waiters := Iff.rfl

@[simp] theorem mem_waiters_wait {t u : τ} :
    u ∈ (s.wait t).waiters ↔ u = t ∨ u ∈ s.waiters :=
  Dict.mem_set

@[simp] theorem mem_waiters_resume {t u : τ} :
    u ∈ (s.resume t).waiters ↔ u ≠ t ∧ u ∈ s.waiters := by
  unfold resume
  dsimp only
  split_ifs <;> simp [mem_waiters_wakeUpNext]

@[simp] theorem mem_waiters_abandon {t u : τ} :
    u ∈ (s.abandon t).waiters ↔ u ≠ t ∧ u ∈ s.waiters := by
  unfold abandon
  dsimp only
  split_ifs <;> simp [mem_waiters_wakeUpNext]

@[simp] theorem mem_waiters_release {t : τ} : t ∈ s.release.waiters ↔ t ∈ s.waiters :=
  mem_waiters_wakeUpNext _

/-! ## The permits -/

/-- The permits handed to waiters that have not run since. -/
def handed : ℕ :=
  s.waiters.countP id

/-- The permits that no task has gone on with. -/
def permits : ℕ :=
  s.value + s.handed

/-- The woken tasks of a list that covers the queue. -/
theorem countP_woken {l : List τ} (hl : l.Nodup) (hcover : ∀ t ∈ s.waiters, t ∈ l) :
    l.countP s.woken = s.handed :=
  s.waiters.countP_keys id hl hcover

theorem permits_wakeUpNext (h : 0 < s.value) : s.wakeUpNext.permits = s.permits := by
  unfold wakeUpNext
  split
  · rename_i p hp
    have hget : s.waiters.get? p.1 = some p.2 :=
      Dict.mem_items.mp (List.mem_of_find?_eq_some hp)
    have hasleep : p.2 = false := by simpa using List.find?_some hp
    unfold permits handed
    rw [Dict.countP_set, Dict.countP_erase id hget, hasleep]
    simp only [id, if_true, Bool.false_eq_true, if_false]
    omega
  · rfl

omit [DecidableEq τ] in
theorem permits_take (h : s.locked = false) : s.take.permits + 1 = s.permits := by
  have hpos : 0 < s.value := by
    simp only [locked, Bool.or_eq_false_iff, decide_eq_false_iff_not] at h
    omega
  unfold permits handed take
  dsimp only
  omega

theorem permits_wait {t : τ} (h : t ∉ s.waiters) : (s.wait t).permits = s.permits := by
  unfold permits handed wait
  dsimp only
  rw [Dict.countP_set_of_not_mem _ _ h]
  rfl

theorem permits_resume {t : τ} (h : s.woken t = true) :
    (s.resume t).permits + 1 = s.permits := by
  obtain ⟨b, hget, hb⟩ := (Option.any_eq_true _ _).mp h
  have hrest : ({ s with waiters := s.waiters.erase t } : Semaphore τ).permits + 1 =
      s.permits := by
    unfold permits handed
    rw [Dict.countP_erase id hget, if_pos hb]
    dsimp only
    omega
  unfold resume
  dsimp only
  split_ifs with hpos
  · have hwake := permits_wakeUpNext { s with waiters := s.waiters.erase t } hpos
    rw [hwake, hrest]
  · exact hrest

theorem permits_abandon (t : τ) : (s.abandon t).permits = s.permits := by
  unfold abandon
  dsimp only
  split_ifs with hw
  · obtain ⟨b, hget, hb⟩ := (Option.any_eq_true _ _).mp hw
    rw [permits_wakeUpNext _ (Nat.succ_pos _)]
    unfold permits handed
    rw [Dict.countP_erase id hget, if_pos hb]
    dsimp only
    omega
  · unfold permits handed
    dsimp only
    by_cases hmem : t ∈ s.waiters
    · obtain ⟨b, hget⟩ := Dict.mem_iff_get?.mp hmem
      have hb : b = false := by simpa [woken, hget] using hw
      rw [Dict.countP_erase id hget, hb]
      rfl
    · rw [Dict.countP_erase_of_not_mem _ hmem]

theorem permits_release : s.release.permits = s.permits + 1 := by
  unfold release
  rw [permits_wakeUpNext _ (Nat.succ_pos _)]
  unfold permits handed
  dsimp only
  omega

end Semaphore

end MultiAgent
