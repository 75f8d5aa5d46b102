import Mathlib.Algebra.Order.Ring.Int
import MultiAgent.Lib.Dict

/-!
# Values that expire

Dictionaries and sets whose values have a deadline, as Redis has them : a value is there as
long as the time is not after its deadline, and `TTL` is what is left, in seconds. Times are
in milliseconds.

An operation gets the time it runs at.
-/

namespace MultiAgent

/-- A value with its deadline. -/
structure Timed (ν : Type*) where
  value : ν
  deadline : ℤ

namespace Timed

variable {ν : Type*}

/-- The value, if its deadline is not over. -/
def at? (now : ℤ) (x : Option (Timed ν)) : Option ν :=
  (x.filter fun x => now ≤ x.deadline).map value

theorem at?_eq_some {now : ℤ} {x : Option (Timed ν)} {v : ν} :
    at? now x = some v ↔ ∃ d, x = some ⟨v, d⟩ ∧ now ≤ d := by
  constructor
  · intro h
    obtain ⟨⟨v', d⟩, hx, rfl⟩ := Option.map_eq_some_iff.mp h
    obtain ⟨hx, hd⟩ := Option.filter_eq_some_iff.mp hx
    exact ⟨d, hx, of_decide_eq_true hd⟩
  · rintro ⟨d, rfl, hd⟩
    simp [at?, Option.filter, hd]

end Timed

namespace Expiry

variable {κ ν : Type*} [DecidableEq κ]

/-- `GET`. -/
def getAt (now : ℤ) (d : Dict κ (Timed ν)) (k : κ) : Option ν :=
  Timed.at? now (d.get? k)

/-- `SETEX`, for a time to live that is positive. -/
def setex (now ttl : ℤ) (d : Dict κ (Timed ν)) (k : κ) (v : ν) : Dict κ (Timed ν) :=
  d.set k ⟨v, now + 1000 * ttl⟩

/-- `TTL` : the seconds that are left, rounded, or `-2`. -/
def ttlAt (now : ℤ) (d : Dict κ (Timed ν)) (k : κ) : ℤ :=
  match d.get? k with
  | some x => if now ≤ x.deadline then (x.deadline - now + 500) / 1000 else -2
  | none => -2

theorem get?_setex (now ttl : ℤ) (d : Dict κ (Timed ν)) (k k' : κ) (v : ν) :
    (setex now ttl d k v).get? k' =
      if k' = k then some ⟨v, now + 1000 * ttl⟩ else d.get? k' :=
  Dict.get?_set ..

theorem getAt_setex {now ttl : ℤ} (httl : 0 < ttl) (d : Dict κ (Timed ν)) (k k' : κ) (v : ν) :
    getAt now (setex now ttl d k v) k' = if k' = k then some v else getAt now d k' := by
  unfold getAt
  rw [get?_setex]
  split_ifs
  · exact Timed.at?_eq_some.mpr ⟨_, rfl, by omega⟩
  · rfl

theorem getAt_erase (now : ℤ) (d : Dict κ (Timed ν)) (k k' : κ) :
    getAt now (d.erase k) k' = if k' = k then none else getAt now d k' := by
  unfold getAt
  rw [Dict.get?_erase]
  split_ifs <;> rfl

/-- A key that is there for a second or more has a positive `TTL`. -/
theorem ttlAt_pos {now : ℤ} {d : Dict κ (Timed ν)} {k : κ} {x : Timed ν}
    (hx : d.get? k = some x) (hlong : now + 1000 ≤ x.deadline) : 0 < ttlAt now d k := by
  unfold ttlAt
  rw [hx]
  dsimp only
  rw [if_pos (by omega)]
  omega

section Sets

variable {α : Type*} [DecidableEq α]

/-- `SMEMBERS`, in the order in which the members came. -/
def membersAt (now : ℤ) (x : Option (Timed (List α))) : List α :=
  (Timed.at? now x).getD []

/-- `SADD` and `EXPIRE` : a time to live that is not positive removes the set. -/
def addExpire (now ttl : ℤ) (x : Option (Timed (List α))) (a : α) : Option (Timed (List α)) :=
  if 0 < ttl then
    let members := membersAt now x
    some ⟨if a ∈ members then members else members ++ [a], now + 1000 * ttl⟩
  else none

/-- `SREM`, which removes the set with its last member. -/
def remove (now : ℤ) (x : Option (Timed (List α))) (a : α) : Option (Timed (List α)) :=
  match x with
  | some x =>
    let members := (membersAt now (some x)).filter fun b => b ≠ a
    if members.isEmpty then none else some { x with value := members }
  | none => none

omit [DecidableEq α] in
theorem mem_membersAt {now : ℤ} {x : Option (Timed (List α))} {a : α} :
    a ∈ membersAt now x ↔ ∃ l d, x = some ⟨l, d⟩ ∧ now ≤ d ∧ a ∈ l := by
  unfold membersAt
  constructor
  · intro h
    cases hx : Timed.at? now x with
    | none => simp [hx] at h
    | some l =>
      obtain ⟨d, hd, hle⟩ := Timed.at?_eq_some.mp hx
      rw [hx] at h
      exact ⟨l, d, hd, hle, h⟩
  · rintro ⟨l, d, rfl, hle, ha⟩
    rw [Timed.at?_eq_some.mpr ⟨d, rfl, hle⟩]
    exact ha

theorem mem_membersAt_addExpire {now ttl : ℤ} (httl : 0 < ttl) (x : Option (Timed (List α)))
    {a b : α} : b ∈ membersAt now (addExpire now ttl x a) ↔ b = a ∨ b ∈ membersAt now x := by
  have hlive : Timed.at? now (addExpire now ttl x a) =
      some (if a ∈ membersAt now x then membersAt now x else membersAt now x ++ [a]) := by
    unfold addExpire
    rw [if_pos httl]
    exact Timed.at?_eq_some.mpr ⟨_, rfl, by omega⟩
  rw [membersAt, hlive, Option.getD_some]
  split_ifs with hmem
  · constructor
    · exact Or.inr
    · rintro (rfl | hb)
      · exact hmem
      · exact hb
  · rw [List.mem_append, List.mem_singleton, or_comm]

theorem mem_membersAt_remove {now : ℤ} {x : Option (Timed (List α))} {a b : α} :
    b ∈ membersAt now (remove now x a) ↔ b ≠ a ∧ b ∈ membersAt now x := by
  cases x with
  | none => simp [remove, membersAt, Timed.at?]
  | some x =>
    unfold remove
    dsimp only
    split_ifs with hempty
    · rw [List.isEmpty_iff, List.filter_eq_nil_iff] at hempty
      constructor
      · intro hb
        exact absurd hb (by simp [membersAt, Timed.at?])
      · rintro ⟨hne, hb⟩
        exact absurd (decide_eq_true hne) (hempty b hb)
    · by_cases hlive : now ≤ x.deadline
      · have hfilter : membersAt now
            (some { x with value := (membersAt now (some x)).filter fun b => b ≠ a }) =
            (membersAt now (some x)).filter fun b => b ≠ a := by
          simp [membersAt, Timed.at?, Option.filter, hlive]
        rw [hfilter, List.mem_filter, decide_eq_true_iff, and_comm]
      · simp [membersAt, Timed.at?, Option.filter, hlive]

end Sets

end Expiry

end MultiAgent
