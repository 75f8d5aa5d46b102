import MultiAgent.Lib.LoggedTask
import MultiAgent.Resilience.ToolAdapter

/-!
# The recovery of the resilient tool adapter

What a recovery has in hand : the entries that it has read as pending, until it is done with
them. It runs their operations one after the other, and marks an entry once its operation
was a success. `RecoveryEffect` says what each step does to what it has in hand.
-/

namespace MultiAgent

namespace ToolResilience

open Json (Value)

/-- The work of `mark_completed` once Redis has answered its `get`. -/
def workOfReply : Option (Option WalEntry) → Work
  | some none => .marked
  | _ => .marking

/-- The work of `mark_completed` at its `setex`. -/
def workOfWrite (served : Bool) : Work :=
  if served then .marked else .marking

namespace Recovery

/-- The entry that the recovery marks, with its work. -/
def marking : Recovery → Option (EntryId × Work)
  | .markGet id _ _ reply => some (id, workOfReply reply)
  | .markSet id _ _ _ served => some (id, workOfWrite served)
  | _ => none

/-- The entries that the recovery has read as pending and has not run to success. -/
def queue : Recovery → List EntryId
  | .reading (id :: _) found (some (some (some entry))) =>
    found.map Prod.fst ++ if entry.state = .pending then [id] else []
  | .reading _ found _ => found.map Prod.fst
  | .executing id _ rest _ => id :: rest.map Prod.fst
  | .markGet _ rest _ _ => rest.map Prod.fst
  | .markSet _ _ rest _ _ => rest.map Prod.fst
  | _ => []

/-- The entries that the recovery has read as pending and is not done with. -/
def hand (r : Recovery) : List EntryId :=
  (r.marking.map Prod.fst).toList ++ r.queue

/-- The work of a recovery at an entry. -/
def work (r : Recovery) (id : EntryId) : Option Work :=
  if r.marking.map Prod.fst = some id then r.marking.map Prod.snd
  else if id ∈ r.queue then some .working else none

/-- The work at an entry that the recovery marks. -/
theorem work_of_marking {r : Recovery} {id : EntryId} {w : Work} (h : r.marking = some (id, w)) :
    r.work id = some w := by
  simp [work, h]

/-- The work at an entry that the recovery does not mark. -/
theorem work_of_ne {r : Recovery} {id : EntryId} (h : r.marking.map Prod.fst ≠ some id) :
    r.work id = if id ∈ r.queue then some .working else none :=
  if_neg h

/-- Two recoveries that mark the same entry, with the same queue. -/
theorem work_eq {r r' : Recovery} {id id' : EntryId} {w w' : Work} (h : r.marking = some (id, w))
    (h' : r'.marking = some (id, w')) (hqueue : r'.queue = r.queue) (hne : id' ≠ id) :
    r'.work id' = r.work id' := by
  have hne' : some id ≠ some id' := fun he => hne (Option.some.inj he).symm
  rw [work_of_ne (r := r) (by rw [h]; exact hne'), work_of_ne (r := r') (by rw [h']; exact hne'),
    hqueue]

theorem work_eq_none {r : Recovery} {id : EntryId} (h : id ∉ r.hand) : r.work id = none := by
  unfold hand at h
  rw [List.mem_append, Option.mem_toList, not_or] at h
  rw [work_of_ne h.1, if_neg h.2]

theorem queue_pending {id : EntryId} {entry : WalEntry} (todo : List EntryId)
    (found : List (EntryId × WalEntry)) (h : entry.state = .pending) :
    (reading (id :: todo) found (some (some (some entry)))).queue = found.map Prod.fst ++ [id] := by
  simp [queue, h]

theorem queue_settled {id : EntryId} {entry : WalEntry} (todo : List EntryId)
    (found : List (EntryId × WalEntry)) (h : entry.state ≠ .pending) :
    (reading (id :: todo) found (some (some (some entry)))).queue = found.map Prod.fst := by
  simp [queue, h]

theorem queue_reading (todo : List EntryId) (found : List (EntryId × WalEntry)) :
    (reading todo found none).queue = found.map Prod.fst := by
  cases todo <;> rfl

end Recovery

namespace ToolSystem

variable {s t : ToolSystem} {j : ℕ} {r : Recovery}

/-- What a step of the `j`-th recovery does. -/
inductive RecoveryEffect (s : ToolSystem) (j : ℕ) (r : Recovery) (t : ToolSystem) :
    RecoveryAction → Prop
  | moved (r' : Recovery) (a : RecoveryAction) : (∀ p, r.marking = some p → p.2 = .marked) →
      r'.marking = none → r'.queue.Sublist r.queue → t = s.recoverAt j r' →
      RecoveryEffect s j r t a
  | read (id : EntryId) (todo : List EntryId) (found : List (EntryId × WalEntry)) (ok : Bool) :
      r = .reading (id :: todo) found none →
      t = s.recoverAt j (.reading (id :: todo) found
        (some (if ok then some (s.wal.get? id) else none))) →
      RecoveryEffect s j r t (.serve ok)
  | returned (id : EntryId) (entry : WalEntry) (rest : List (EntryId × WalEntry)) (n : ℕ)
      (v : Value) : r = .executing id entry rest n →
      t = ({ s with successes := s.successes ++ [id] } : ToolSystem).recoverAt j
        (.markGet id rest n none) → RecoveryEffect s j r t (.ended (.returned v))
  | markRead (id : EntryId) (rest : List (EntryId × WalEntry)) (n : ℕ) (ok : Bool) :
      r = .markGet id rest n none →
      t = s.recoverAt j (.markGet id rest n (some (if ok then s.wal.get? id else none))) →
      RecoveryEffect s j r t (.serve ok)
  | marking (id : EntryId) (entry : WalEntry) (rest : List (EntryId × WalEntry)) (n : ℕ) :
      r = .markGet id rest n (some (some entry)) →
      t = s.recoverAt j (.markSet id { entry with state := .completed } rest n false) →
      RecoveryEffect s j r t .proceed
  | markWritten (id : EntryId) (entry : WalEntry) (rest : List (EntryId × WalEntry)) (n : ℕ)
      (ok : Bool) : r = .markSet id entry rest n false →
      t = (if ok then { s with wal := s.wal.set id entry } else s).recoverAt j
        (.markSet id entry rest n true) → RecoveryEffect s j r t (.serve ok)

theorem nextPending_eq (pending : List (EntryId × WalEntry)) (n : ℕ) : ∃ r',
    r'.marking = none ∧ r'.queue.Sublist (pending.map Prod.fst) ∧
      s.nextPending j pending n = s.recoverAt j r' := by
  have hsuffix := List.dropWhile_suffix (l := pending)
    fun p => decide (s.adapter.config.maxAttempts ≤ p.2.retryCount)
  have hsublist := hsuffix.sublist.map Prod.fst
  unfold nextPending
  split
  · exact ⟨.done n, rfl, List.nil_sublist _, rfl⟩
  · rename_i p rest hrest
    rw [hrest] at hsublist
    exact ⟨.executing p.1 p.2 rest n, rfl, hsublist, rfl⟩

theorem nextRead_eq (todo : List EntryId) (found : List (EntryId × WalEntry)) : ∃ r',
    r'.marking = none ∧ r'.queue.Sublist (found.map Prod.fst) ∧
      s.nextRead j todo found = s.recoverAt j r' := by
  unfold nextRead
  split_ifs
  · exact nextPending_eq found 0
  · exact ⟨_, rfl, Recovery.queue_reading todo found ▸ List.Sublist.refl _, rfl⟩

theorem entryRead_eq (id : EntryId) (todo : List EntryId) (found : List (EntryId × WalEntry))
    (reply : EntryReply) : ∃ r', r'.marking = none ∧
      r'.queue.Sublist (Recovery.reading (id :: todo) found (some reply)).queue ∧
        s.entryRead j id todo found reply = s.recoverAt j r' := by
  rcases reply with _ | _ | entry
  · obtain ⟨r', hmarking, hqueue, heq⟩ := nextPending_eq (s := s) (j := j) [] 0
    exact ⟨r', hmarking, hqueue.trans (List.nil_sublist _), heq⟩
  · exact nextRead_eq todo found
  · have hfound : (Recovery.reading (id :: todo) found (some (some (some entry)))).queue =
        (if entry.state = .pending then found ++ [(id, entry)] else found).map Prod.fst := by
      by_cases hpending : entry.state = .pending <;> simp [Recovery.queue, hpending]
    rw [hfound]
    exact nextRead_eq todo _

theorem effect_of_recoveryAct {a : RecoveryAction} (h : s.recoveryAct j r a = some t) :
    RecoveryEffect s j r t a := by
  unfold recoveryAct at h
  split at h
  · rename_i keys
    split_ifs at h
    exact .moved (.listing (some keys)) _ (by simp [Recovery.marking]) rfl (List.nil_sublist _)
      (Option.some.inj h).symm
  · exact .moved (.listing (some [])) _ (by simp [Recovery.marking]) rfl (List.nil_sublist _)
      (Option.some.inj h).symm
  · rename_i keys
    obtain ⟨r', hmarking, hqueue, heq⟩ := nextRead_eq (s := s) (j := j) keys []
    exact .moved r' _ (by simp [Recovery.marking]) hmarking hqueue
      ((Option.some.inj h).symm.trans heq)
  · exact .read _ _ _ _ rfl (Option.some.inj h).symm
  · rename_i id todo found reply
    obtain ⟨r', hmarking, hqueue, heq⟩ := entryRead_eq (s := s) (j := j) id todo found reply
    exact .moved r' _ (by simp [Recovery.marking]) hmarking hqueue
      ((Option.some.inj h).symm.trans heq)
  · rename_i id entry rest n how
    obtain rfl := Option.some.inj h
    cases how with
    | returned v => exact .returned id entry rest n v rfl rfl
    | raised retryable =>
      obtain ⟨r', hmarking, hqueue, heq⟩ := nextPending_eq (s := s) (j := j) rest n
      exact .moved r' _ (by simp [Recovery.marking]) hmarking
        (hqueue.trans (List.sublist_cons_self id _)) heq
    | cancelled =>
      exact .moved .cancelled _ (by simp [Recovery.marking]) rfl (List.nil_sublist _) rfl
  · exact .markRead _ _ _ _ rfl (Option.some.inj h).symm
  · exact .marking _ _ _ _ rfl (Option.some.inj h).symm
  · rename_i id rest n
    obtain ⟨r', hmarking, hqueue, heq⟩ := nextPending_eq (s := s) (j := j) rest (n + 1)
    exact .moved r' _ (by simp [Recovery.marking, workOfReply]) hmarking hqueue
      ((Option.some.inj h).symm.trans heq)
  · exact .markWritten _ _ _ _ _ rfl (Option.some.inj h).symm
  · rename_i id entry rest n
    obtain ⟨r', hmarking, hqueue, heq⟩ := nextPending_eq (s := s) (j := j) rest (n + 1)
    exact .moved r' _ (by simp [Recovery.marking, workOfWrite]) hmarking hqueue
      ((Option.some.inj h).symm.trans heq)
  · cases h

/-- A recovery changes nothing but its own state, the log, and what was executed. -/
theorem RecoveryEffect.eq {a : RecoveryAction} (h : RecoveryEffect s j r t a) :
    ∃ wal successes r',
      t = ({ s with wal := wal, successes := successes } : ToolSystem).recoverAt j r' := by
  cases h with
  | moved r' a _ _ _ hs => exact ⟨s.wal, s.successes, r', hs⟩
  | read id todo found ok _ hs => exact ⟨s.wal, s.successes, _, hs⟩
  | returned id entry rest n v _ hs => exact ⟨s.wal, s.successes ++ [id], _, hs⟩
  | markRead id rest n ok _ hs => exact ⟨s.wal, s.successes, _, hs⟩
  | marking id entry rest n _ hs => exact ⟨s.wal, s.successes, _, hs⟩
  | markWritten id entry rest n ok _ hs =>
    cases ok with
    | true => exact ⟨s.wal.set id entry, s.successes, _, hs⟩
    | false => exact ⟨s.wal, s.successes, _, hs⟩

end ToolSystem

end ToolResilience

end MultiAgent
