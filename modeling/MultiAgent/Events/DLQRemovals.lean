import MultiAgent.Events.DLQHandler
import MultiAgent.Lib.Machine

/-!
# Why an entry leaves the dead letter queue

Runs of `_process_retries` next to `send_to_dlq` and `_cleanup_expired_events`. No lock is
held while a task is suspended, so every block under the lock is one step, and the only
suspension is in `publish` : an answer comes, the entry is popped or rescheduled, and the
next event of the pass is published. In between the queue may lose its first entry or its
expired ones, and the positions of the pass are of another list.

`Justified` : every entry that left was republished with success, evicted from a full queue
or expired. A step keeps it exactly when the position it pops, if it pops one, holds an
entry whose own event was republished (`justified_step_iff`).
-/

namespace MultiAgent

namespace DLQ

variable {ε : Type*}

/-- A handler, the retries that each pass has left, and the entries that were republished
with success, evicted or expired. -/
structure RetrySystem (ε : Type*) where
  handler : DLQHandler ε
  passes : List (List (ℕ × DLQEntry ε)) := []
  republished : List ℕ := []
  evicted : List ℕ := []
  expired : List ℕ := []

/-- A step. `answer` ends the `publish` that a pass waits for. -/
inductive RetryEvent (ε : Type*)
  | send (event : ε) (reason : String) (timestamp nextRetry : ℚ)
  | cleanup (now : ℚ)
  | begin (now : ℚ)
  | answer (pass : ℕ) (answer : Republish) (now : ℚ)

namespace RetrySystem

variable (s : RetrySystem ε)

/-- The numbers of the entries in the queue. -/
abbrev queued : List ℕ :=
  s.handler.dlqEvents.ids

/-- `send_to_dlq`. -/
def send (event : ε) (reason : String) (timestamp nextRetry : ℚ) : RetrySystem ε :=
  match s.handler.sendToDlq event reason timestamp nextRetry with
  | .error _ => s
  | .ok handler =>
    { s with
      handler
      evicted := if s.handler.full then s.queued.take 1 ++ s.evicted else s.evicted }

/-- `_cleanup_expired_events`. -/
def cleanup (now : ℚ) : RetrySystem ε :=
  { s with
    handler := s.handler.cleanupExpiredEvents now
    expired := (s.handler.dlqEvents.keepIf fun e => !s.handler.isFresh now e).ids ++ s.expired }

/-- `publish` of a pass is done. -/
def answered (pass : ℕ) (answer : Republish) (now : ℚ) : Option (RetrySystem ε) :=
  match s.passes[pass]? with
  | some ((index, entry) :: retries) =>
    some { s with
      handler := s.handler.retryEvent index entry answer now
      passes := s.passes.set pass retries
      republished :=
        if answer = .returned true then entry.id :: s.republished else s.republished }
  | _ => none

/-- One step. -/
def step : RetryEvent ε → Option (RetrySystem ε)
  | .send event reason timestamp nextRetry => some (s.send event reason timestamp nextRetry)
  | .cleanup now => some (s.cleanup now)
  | .begin now => some { s with passes := s.passes ++ [s.handler.eventsToRetry now] }
  | .answer pass answer now => s.answered pass answer now

/-- Every entry that left the queue was republished, evicted or expired. -/
def Justified : Prop :=
  ∀ id < s.handler.dlqEvents.made,
    id ∈ s.queued ∨ id ∈ s.republished ∨ id ∈ s.evicted ∨ id ∈ s.expired

/-- A position that is popped holds the entry of the retry, or one whose event was
republished before. -/
def InPlace : RetryEvent ε → Prop
  | .answer pass (.returned true) _ =>
    ∀ retry ∈ (s.passes[pass]?).bind List.head?, ∀ id ∈ s.queued[retry.1]?,
      id = retry.2.id ∨ id ∈ s.republished
  | _ => True

instance (e : RetryEvent ε) : Decidable (s.InPlace e) :=
  match e with
  | .answer pass (.returned true) _ =>
    inferInstanceAs (Decidable (∀ retry ∈ (s.passes[pass]?).bind List.head?,
      ∀ id ∈ s.queued[retry.1]?, id = retry.2.id ∨ id ∈ s.republished))
  | .answer _ (.returned false) _ => isTrue trivial
  | .answer _ .raised _ => isTrue trivial
  | .send _ _ _ _ => isTrue trivial
  | .cleanup _ => isTrue trivial
  | .begin _ => isTrue trivial

variable {s} {t : RetrySystem ε} {e : RetryEvent ε}

/-! ## What a step does to the queue -/

/-- What a step does : nothing, a new entry after an eviction or without one, a cleanup, or
the removal of a position for an entry that was republished. -/
inductive Effect (s t : RetrySystem ε) (e : RetryEvent ε) : Prop
  | idle (hqueued : t.queued = s.queued)
      (hmade : t.handler.dlqEvents.made = s.handler.dlqEvents.made)
      (hrepublished : t.republished = s.republished) (hevicted : t.evicted = s.evicted)
      (hexpired : t.expired = s.expired) (hok : s.InPlace e)
  | sent (out rest : List ℕ) (hout : s.queued = out ++ rest)
      (hqueued : t.queued = rest ++ [s.handler.dlqEvents.made])
      (hmade : t.handler.dlqEvents.made = s.handler.dlqEvents.made + 1)
      (hrepublished : t.republished = s.republished) (hevicted : t.evicted = out ++ s.evicted)
      (hexpired : t.expired = s.expired) (hok : s.InPlace e)
  | cleaned (keep : DLQEntry ε → Bool)
      (hqueued : t.queued = (s.handler.dlqEvents.keepIf keep).ids)
      (hmade : t.handler.dlqEvents.made = s.handler.dlqEvents.made)
      (hrepublished : t.republished = s.republished) (hevicted : t.evicted = s.evicted)
      (hexpired : t.expired = (s.handler.dlqEvents.keepIf fun e => !keep e).ids ++ s.expired)
      (hok : s.InPlace e)
  | popped (index : ℕ) (entry : DLQEntry ε) (hqueued : t.queued = s.queued.eraseIdx index)
      (hmade : t.handler.dlqEvents.made = s.handler.dlqEvents.made)
      (hrepublished : t.republished = entry.id :: s.republished)
      (hevicted : t.evicted = s.evicted) (hexpired : t.expired = s.expired)
      (hok : s.InPlace e ↔ ∀ id ∈ s.queued[index]?, id = entry.id ∨ id ∈ s.republished)

theorem effect_send (s : RetrySystem ε) (event : ε) (reason : String) (timestamp nextRetry : ℚ) :
    Effect s (s.send event reason timestamp nextRetry)
      (.send event reason timestamp nextRetry) := by
  unfold send DLQHandler.sendToDlq
  dsimp only
  cases hfull : s.handler.full with
  | false =>
    simp only [Bool.false_eq_true, if_false]
    exact .sent [] s.queued rfl (EntryQueue.ids_push ..) rfl rfl rfl rfl trivial
  | true =>
    simp only [if_true]
    split_ifs with hempty
    · exact .idle rfl rfl rfl rfl rfl trivial
    · refine .sent (s.queued.take 1) (s.queued.drop 1) (List.take_append_drop ..).symm ?_ rfl rfl
        rfl rfl trivial
      have hpush := EntryQueue.ids_push (s.handler.dlqEvents.removeAt 0) event reason timestamp
        nextRetry
      rw [EntryQueue.ids_removeAt, List.eraseIdx_zero, ← List.drop_one] at hpush
      exact hpush

theorem effect_answered {pass : ℕ} {answer : Republish} {now : ℚ}
    (hst : s.answered pass answer now = some t) : Effect s t (.answer pass answer now) := by
  unfold answered at hst
  split at hst
  · rename_i index entry retries hpass
    obtain rfl := Option.some.inj hst
    rcases answer with success | _
    · cases success with
      | true =>
        refine .popped index entry (EntryQueue.ids_removeAt ..) rfl rfl rfl rfl ?_
        simp [InPlace, hpass]
      | false =>
        have hids : (s.handler.retryEvent index entry (.returned false) now).dlqEvents.ids =
            s.queued ∧ (s.handler.retryEvent index entry (.returned false) now).dlqEvents.made =
            s.handler.dlqEvents.made := by
          unfold DLQHandler.retryEvent
          dsimp only
          split_ifs
          · exact ⟨EntryQueue.ids_reschedule .., rfl⟩
          · exact ⟨rfl, rfl⟩
        exact .idle hids.1 hids.2 rfl rfl rfl trivial
    · exact .idle rfl rfl rfl rfl rfl trivial
  · cases hst

theorem effect_step (hst : s.step e = some t) : Effect s t e := by
  cases e with
  | send event reason timestamp nextRetry =>
    obtain rfl := Option.some.inj hst
    exact effect_send s event reason timestamp nextRetry
  | cleanup now =>
    obtain rfl := Option.some.inj hst
    exact .cleaned (s.handler.isFresh now) rfl rfl rfl rfl rfl trivial
  | begin now =>
    obtain rfl := Option.some.inj hst
    exact .idle rfl rfl rfl rfl rfl trivial
  | answer pass answer now => exact effect_answered hst

/-! ## Entries that left -/

/-- What was evicted or expired is not in the queue, and never comes back. -/
def Gone (s : RetrySystem ε) : Prop :=
  ∀ id ∈ s.evicted ++ s.expired, id ∉ s.queued ∧ id < s.handler.dlqEvents.made

theorem Gone.step (h : s.Gone) (hst : s.step e = some t) : t.Gone := by
  intro id hid
  cases effect_step hst with
  | idle hqueued hmade _ hevicted hexpired _ =>
    rw [hevicted, hexpired] at hid
    rw [hqueued, hmade]
    exact h id hid
  | sent out rest hout hqueued hmade _ hevicted hexpired _ =>
    have hnodup : (out ++ rest).Nodup := hout ▸ s.handler.dlqEvents.nodup
    rw [hevicted, hexpired, List.append_assoc] at hid
    rw [hqueued, hmade, List.mem_append, List.mem_singleton]
    rcases List.mem_append.mp hid with hid | hid
    · have hmem : id ∈ s.queued := by
        rw [hout]
        exact List.mem_append_left rest hid
      have hlt := EntryQueue.id_lt_made hmem
      have hrest := List.disjoint_of_nodup_append hnodup hid
      exact ⟨by rintro (hmem | rfl); exacts [hrest hmem, lt_irrefl _ hlt], by omega⟩
    · obtain ⟨hnot, hlt⟩ := h id hid
      rw [hout, List.mem_append, not_or] at hnot
      exact ⟨by rintro (hmem | rfl); exacts [hnot.2 hmem, lt_irrefl _ hlt], by omega⟩
  | cleaned keep hqueued hmade _ hevicted hexpired _ =>
    rw [hqueued, hmade]
    rw [hevicted, hexpired, List.mem_append, List.mem_append] at hid
    have hold : id ∈ s.evicted ++ s.expired →
        id ∉ (s.handler.dlqEvents.keepIf keep).ids ∧ id < s.handler.dlqEvents.made := by
      intro hid
      refine ⟨fun hmem => (h id hid).1 ?_, (h id hid).2⟩
      obtain ⟨e, he, -, rfl⟩ := EntryQueue.mem_ids_keepIf.mp hmem
      exact List.mem_map_of_mem he
    rcases hid with hid | hid | hid
    · exact hold (List.mem_append_left _ hid)
    · obtain ⟨e, he, -, rfl⟩ := EntryQueue.mem_ids_keepIf.mp hid
      have hmem : e.id ∈ s.queued := List.mem_map_of_mem he
      exact ⟨(EntryQueue.mem_ids_keepIf_not keep hmem).mpr hid, EntryQueue.id_lt_made hmem⟩
    · exact hold (List.mem_append_right _ hid)
  | popped index entry hqueued hmade _ hevicted hexpired _ =>
    rw [hevicted, hexpired] at hid
    rw [hqueued, hmade]
    exact ⟨fun hmem => (h id hid).1 (List.mem_of_mem_eraseIdx hmem), (h id hid).2⟩

/-- A step keeps the account of the entries that left exactly when the position it pops
holds an entry that was republished. -/
theorem justified_step_iff (hgone : s.Gone) (h : s.Justified) (hst : s.step e = some t) :
    t.Justified ↔ s.InPlace e := by
  have hgone' := hgone.step hst
  cases effect_step hst with
  | idle hqueued hmade hrepublished hevicted hexpired hok =>
    refine iff_of_true (fun id hid => ?_) hok
    rw [hqueued, hrepublished, hevicted, hexpired]
    exact h id (hmade ▸ hid)
  | sent out rest hout hqueued hmade hrepublished hevicted hexpired hok =>
    refine iff_of_true (fun id hid => ?_) hok
    rw [hmade] at hid
    rw [hqueued, hrepublished, hevicted, hexpired, List.mem_append, List.mem_append,
      List.mem_singleton]
    rcases Nat.lt_succ_iff_lt_or_eq.mp hid with hlt | rfl
    · have hold := h id hlt
      rw [hout, List.mem_append] at hold
      tauto
    · exact Or.inl (Or.inr rfl)
  | cleaned keep hqueued hmade hrepublished hevicted hexpired hok =>
    refine iff_of_true (fun id hid => ?_) hok
    rw [hmade] at hid
    rw [hqueued, hrepublished, hevicted, hexpired, List.mem_append]
    rcases h id hid with hmem | hold
    · by_cases hkept : id ∈ (s.handler.dlqEvents.keepIf keep).ids
      · exact Or.inl hkept
      · exact Or.inr (Or.inr (Or.inr (Or.inl
          ((EntryQueue.mem_ids_keepIf_not keep hmem).mp hkept))))
    · tauto
  | popped index entry hqueued hmade hrepublished hevicted hexpired hok =>
    rw [hok]
    constructor
    · intro ht id hid
      have hmem : id ∈ s.queued := List.mem_of_getElem? hid
      -- the entry is out of the queue now, and it was not evicted and did not expire
      have hout : id ∉ t.queued := by
        rw [hqueued]
        intro hin
        obtain ⟨i, hi, hget⟩ := List.mem_eraseIdx_iff_getElem?.mp hin
        have hlt := (List.getElem?_eq_some_iff.mp hget).1
        exact hi ((List.getElem?_inj hlt s.handler.dlqEvents.nodup).mp (hget.trans hid.symm))
      have hnot : id ∉ s.evicted ++ s.expired := fun hold => (hgone id hold).1 hmem
      rw [List.mem_append, not_or] at hnot
      have hleft := ht id (hmade ▸ EntryQueue.id_lt_made hmem)
      rw [hrepublished, hevicted, hexpired, List.mem_cons] at hleft
      tauto
    · intro hin id hid
      rw [hmade] at hid
      rw [hqueued, hrepublished, hevicted, hexpired, List.mem_cons]
      rcases h id hid with hmem | hold
      · by_cases hpopped : s.queued[index]? = some id
        · have hrep := hin id hpopped
          tauto
        · obtain ⟨i, hi⟩ := List.mem_iff_getElem?.mp hmem
          refine Or.inl (List.mem_eraseIdx_iff_getElem?.mpr ⟨i, fun heq => ?_, hi⟩)
          exact hpopped (heq ▸ hi)
      · tauto

end RetrySystem

/-- A new handler. -/
def retryMachine (ε : Type*) (config : DLQConfig) (eventBus : Bool) :
    Machine (RetrySystem ε) (RetryEvent ε) where
  init := { handler := { config, eventBus } }
  step := RetrySystem.step

/-- Entries leave the queue as they should throughout a run exactly when every step that
pops a position finds an entry there that was republished. -/
theorem justified_throughout_iff (config : DLQConfig) (eventBus : Bool)
    (es : List (RetryEvent ε)) (s : RetrySystem ε)
    (h : (retryMachine ε config eventBus).Run (fun _ _ => True) es s) :
    (retryMachine ε config eventBus).Throughout RetrySystem.Justified es ↔
      (retryMachine ε config eventBus).Run RetrySystem.InPlace es s := by
  have hinit : (retryMachine ε config eventBus).init.Gone ∧
      (retryMachine ε config eventBus).init.Justified :=
    ⟨fun id hid => absurd hid List.not_mem_nil, fun id hid => absurd hid (Nat.not_lt_zero id)⟩
  exact h.throughout_iff_run hinit (fun _ _ _ hgone _ hst _ => hgone.step hst)
    fun _ _ _ hgone hs hst => RetrySystem.justified_step_iff hgone hs hst

/-- The steps of a new handler that make two entries, republish the first with success, and
expire the second. -/
def expiringRun : List (RetryEvent String) :=
  [.send "a" "failed" 0 0, .send "b" "failed" 0 0, .begin 60, .answer 0 (.returned true) 61,
    .cleanup 1000000, .answer 0 (.returned true) 1000001]

/-- The second entry expires while its event is republished. -/
theorem justified_throughout_expiring :
    (retryMachine String {} true).Throughout RetrySystem.Justified expiringRun := by
  obtain ⟨s, hrun, -⟩ := Machine.exists_run (retryMachine String {} true) RetrySystem.InPlace
    expiringRun (fun _ => true) (by decide +kernel)
  exact (justified_throughout_iff {} true expiringRun s (hrun.mono fun _ _ _ => trivial)).mpr hrun

/-- Of three entries the first two are republished, and the last one is lost. -/
theorem not_justified_throughout :
    ¬∀ (config : DLQConfig) (eventBus : Bool) (es : List (RetryEvent String))
      (s : RetrySystem String), (retryMachine String config eventBus).Run (fun _ _ => True) es s →
        s.Justified := by
  intro h
  obtain ⟨s, hrun, hlost⟩ := Machine.exists_run (retryMachine String {} true) (fun _ _ => True)
    [.send "a" "failed" 0 0, .send "b" "failed" 0 0, .send "c" "failed" 0 0, .begin 60,
      .answer 0 (.returned true) 61, .answer 0 (.returned true) 62]
    (fun s => decide (2 < s.handler.dlqEvents.made ∧ 2 ∉ s.queued ∧ 2 ∉ s.republished ∧
      2 ∉ s.evicted ∧ 2 ∉ s.expired)) (by decide +kernel)
  obtain ⟨hmade, hlost⟩ := of_decide_eq_true hlost
  have hkept := h {} true _ s hrun 2 hmade
  tauto

end DLQ

end MultiAgent
