import MultiAgent.Lib.Machine

/-!
# Tasks that share a lock

Tasks of an event loop that share a state and a lock that is not reentrant, as
`asyncio.Lock` is none. A task runs alone until it is suspended at a label, is done, or has
to wait for the lock, and one step of the machine is what it does until then. A task that
is cancelled lets the lock go. Waiters get the lock in the order in which they came.

A task that acquires the lock while it holds it waits for itself for ever
(`NoSelfWait`). If every label says whether the lock is held there (`Code.Balanced`), a step
leads to such a wait exactly when what the task does in it acquires the lock twice
(`Code.reacquires`, `noSelfWait_step_iff`). The two theorems on runs are for programs whose
tasks do not acquire the lock twice right after they waited for it
(`throughout_iff_of_granted`), and for those whose tasks are never suspended with the lock,
so that none has to wait for another one (`throughout_iff_of_free`).
-/

namespace MultiAgent

/-- What a task does until it is suspended at a label or done. -/
inductive Code (σ π : Type*)
  | done
  | suspend (label : π)
  | read (next : σ → Code σ π)
  | write (f : σ → σ) (next : Code σ π)
  | acquire (next : Code σ π)
  | release (next : Code σ π)

/-- A task waits for an answer at a label, or for the lock, or it is over. -/
inductive TaskState (σ π : Type*)
  | suspended (label : π)
  | waiting (next : Code σ π)
  | finished

/-- Tasks by number, their shared state, and the lock with its holder and its waiters. -/
structure Tasks (σ π : Type*) where
  shared : σ
  holder : Option ℕ := none
  waiters : List ℕ := []
  tasks : List (TaskState σ π) := []

/-- A step. -/
inductive TaskEvent (π ρ : Type*)
  | start (label : π)
  | resume (task : ℕ) (answer : ρ)
  | grant
  | cancel (task : ℕ)

namespace Code

variable {σ π : Type*}

/-- The task acquires the lock while it holds it. `idle` says that no other task has to do
with the lock, and the next argument that the task itself holds it. -/
def reacquires (idle : Bool) : Bool → Code σ π → σ → Bool
  | _, done, _ => false
  | _, suspend _, _ => false
  | held, read next, x => reacquires idle held (next x) x
  | held, write f next, x => reacquires idle held next (f x)
  | true, acquire _, _ => true
  | false, acquire next, x => idle && reacquires idle true next x
  | _, release next, x => reacquires idle false next x

/-- The lock is held at the labels that `holds` says, released only by a task that holds it,
and what a task does once it has the lock meets `P`. -/
def Balanced (holds : π → Bool) (P : Code σ π → Prop) : Bool → Code σ π → Prop
  | held, done => held = false
  | held, suspend label => holds label = held
  | held, read next => ∀ x, Balanced holds P held (next x)
  | held, write _ next => Balanced holds P held next
  | true, acquire _ => True
  | false, acquire next => P next ∧ Balanced holds P true next
  | held, release next => held = true ∧ Balanced holds P false next

/-- The task is not suspended while it holds the lock, unless it acquires it twice. -/
def Frees : Bool → Code σ π → Prop
  | held, done => held = false
  | held, suspend _ => held = false
  | held, read next => ∀ x, Frees held (next x)
  | held, write _ next => Frees held next
  | true, acquire _ => True
  | false, acquire next => Frees true next
  | _, release next => Frees false next

end Code

/-- The code of the tasks : what one does that gets an answer at a label. `holds` says at
which labels the lock is held, and a task starts at an `entry`, where it is not. What a task
does once it has the lock meets `P`. -/
structure Program (σ π ρ : Type*) (P : Code σ π → Prop) where
  entry : π → Bool
  code : π → ρ → Code σ π
  holds : π → Bool
  holds_entry : ∀ label, entry label = true → holds label = false
  balanced : ∀ label answer, (code label answer).Balanced holds P (holds label)

namespace Tasks

variable {σ π ρ : Type*} {P : Code σ π → Prop} (program : Program σ π ρ P) (s : Tasks σ π)

/-- Replace the state of a task. -/
def put (i : ℕ) (state : TaskState σ π) : Tasks σ π :=
  { s with tasks := s.tasks.set i state }

/-- A task runs. -/
def exec (i : ℕ) : Code σ π → Tasks σ π → Tasks σ π
  | .done, s => s.put i .finished
  | .suspend label, s => s.put i (.suspended label)
  | .read next, s => exec i (next s.shared) s
  | .write f next, s => exec i next { s with shared := f s.shared }
  | .acquire next, s =>
    if s.holder = none ∧ s.waiters = [] then exec i next { s with holder := some i }
    else { s with waiters := s.waiters ++ [i] }.put i (.waiting next)
  | .release next, s => exec i next { s with holder := none }

/-- One step of the tasks of a program. -/
def step : TaskEvent π ρ → Option (Tasks σ π)
  | .start label =>
    if program.entry label then some { s with tasks := s.tasks ++ [.suspended label] } else none
  | .resume i answer =>
    match s.tasks[i]? with
    | some (.suspended label) => some (exec i (program.code label answer) s)
    | _ => none
  | .grant =>
    match s.holder, s.waiters with
    | none, i :: waiters =>
      match s.tasks[i]? with
      | some (.waiting next) => some (exec i next { s with holder := some i, waiters })
      | _ => none
    | _, _ => none
  | .cancel i =>
    match s.tasks[i]? with
    | none => none
    | some .finished => none
    | some _ =>
      some ({ s with
        holder := if s.holder = some i then none else s.holder
        waiters := s.waiters.filter fun j => j ≠ i }.put i .finished)

/-- No task waits for the lock that it holds. -/
def NoSelfWait : Prop :=
  ∀ i, s.holder = some i → i ∉ s.waiters

/-- No task but `i` has to do with the lock. -/
def idle (i : ℕ) : Bool :=
  decide (s.waiters = [] ∧ (s.holder = none ∨ s.holder = some i))

/-- In this step a task acquires the lock while it holds it. -/
def reenters : TaskEvent π ρ → Bool
  | .resume i answer =>
    match s.tasks[i]? with
    | some (.suspended label) =>
      (program.code label answer).reacquires (s.idle i) (decide (s.holder = some i)) s.shared
    | _ => false
  | .grant =>
    match s.holder, s.waiters with
    | none, i :: waiters =>
      match s.tasks[i]? with
      | some (.waiting next) => next.reacquires (decide (waiters = [])) true s.shared
      | _ => false
    | _, _ => false
  | _ => false

/-- Who holds the lock is suspended where it is held, who waits is in the queue, and so on
for every task but one. -/
structure Owned (but : Option ℕ) : Prop where
  waiters : ∀ j ∈ s.waiters, but ≠ some j ∧ ∃ next, s.tasks[j]? = some (.waiting next)
  nodup : s.waiters.Nodup
  waiting : ∀ j next, but ≠ some j → s.tasks[j]? = some (.waiting next) →
    P next ∧ next.Balanced program.holds P true
  holder : ∀ j, but ≠ some j → s.holder = some j →
    ∃ label, s.tasks[j]? = some (.suspended label) ∧ program.holds label = true
  suspended : ∀ j label, but ≠ some j → s.tasks[j]? = some (.suspended label) →
    program.holds label = true → s.holder = some j

variable {program s} {t : Tasks σ π} {i : ℕ}

/-! ## What a step does -/

theorem step_start {label : π} (hst : s.step program (.start label) = some t) :
    program.entry label = true ∧ t = { s with tasks := s.tasks ++ [.suspended label] } := by
  simp only [step] at hst
  split_ifs at hst with hentry
  exact ⟨hentry, (Option.some.inj hst).symm⟩

theorem step_resume {answer : ρ} (hst : s.step program (.resume i answer) = some t) :
    ∃ label, s.tasks[i]? = some (.suspended label) ∧
      t = exec i (program.code label answer) s := by
  simp only [step] at hst
  split at hst
  · rename_i label hget
    exact ⟨label, hget, (Option.some.inj hst).symm⟩
  · cases hst

theorem step_grant (hst : s.step program .grant = some t) :
    ∃ i waiters next, s.holder = none ∧ s.waiters = i :: waiters ∧
      s.tasks[i]? = some (.waiting next) ∧
        t = exec i next { s with holder := some i, waiters } := by
  simp only [step] at hst
  split at hst
  · rename_i i waiters hfree hwaiters
    split at hst
    · rename_i next hget
      exact ⟨i, waiters, next, hfree, hwaiters, hget, (Option.some.inj hst).symm⟩
    · cases hst
  · cases hst

theorem step_cancel (hst : s.step program (.cancel i) = some t) :
    i < s.tasks.length ∧ t = ({ s with
      holder := if s.holder = some i then none else s.holder
      waiters := s.waiters.filter fun j => j ≠ i } : Tasks σ π).put i .finished := by
  simp only [step] at hst
  split at hst
  · cases hst
  · cases hst
  · rename_i state hne hget
    exact ⟨(List.getElem?_eq_some_iff.mp hget).1, (Option.some.inj hst).symm⟩

/-! ## A task runs -/

/-- The task that ran is suspended, or it is done. -/
theorem Owned.put (h : s.Owned program (some i)) (hi : i < s.tasks.length)
    {state : TaskState σ π} (hwaiting : ∀ next, state ≠ .waiting next)
    (hholder : s.holder = some i ↔ ∃ label, state = .suspended label ∧ program.holds label = true) :
    (s.put i state).Owned program none where
  waiters j hj := by
    obtain ⟨hne, next, hnext⟩ := h.waiters j hj
    refine ⟨Option.some_ne_none j |>.symm, next, ?_⟩
    rw [← hnext]
    exact List.getElem?_set_ne fun heq => hne (congrArg some heq)
  nodup := h.nodup
  waiting j next _ hj := by
    rcases getElem?_set_cases hj with ⟨hne, hj⟩ | ⟨-, heq⟩
    · exact h.waiting j next (fun heq => hne (Option.some.inj heq).symm) hj
    · exact absurd heq.symm (hwaiting next)
  holder j _ hj := by
    by_cases hne : j = i
    · subst hne
      obtain ⟨label, rfl, hlabel⟩ := hholder.mp hj
      exact ⟨label, List.getElem?_set_self hi, hlabel⟩
    · obtain ⟨label, hget, hlabel⟩ := h.holder j (fun heq => hne (Option.some.inj heq).symm) hj
      exact ⟨label, (List.getElem?_set_ne (Ne.symm hne)).trans hget, hlabel⟩
  suspended j label _ hj hlabel := by
    rcases getElem?_set_cases hj with ⟨hne, hj⟩ | ⟨rfl, rfl⟩
    · exact h.suspended j label (fun heq => hne (Option.some.inj heq).symm) hj hlabel
    · exact hholder.mpr ⟨label, rfl, hlabel⟩

/-- The task that ran has to wait for the lock. -/
theorem Owned.enqueue (h : s.Owned program (some i)) (hi : i < s.tasks.length)
    (hfree : s.holder ≠ some i) {next : Code σ π}
    (hnext : P next ∧ next.Balanced program.holds P true) :
    ({ s with waiters := s.waiters ++ [i] }.put i (.waiting next)).Owned program none where
  waiters j hj := by
    refine ⟨Option.some_ne_none j |>.symm, ?_⟩
    rcases List.mem_append.mp hj with hj | hj
    · obtain ⟨hne, next', hnext'⟩ := h.waiters j hj
      exact ⟨next', (List.getElem?_set_ne fun heq => hne (congrArg some heq)).trans hnext'⟩
    · obtain rfl := List.mem_singleton.mp hj
      exact ⟨next, List.getElem?_set_self hi⟩
  nodup := by
    refine List.nodup_append.mpr ⟨h.nodup, by simp, fun j hj k hk => ?_⟩
    obtain rfl := List.mem_singleton.mp hk
    exact fun heq => (h.waiters j hj).1 (congrArg some heq.symm)
  waiting j next' _ hj := by
    rcases getElem?_set_cases hj with ⟨hne, hj⟩ | ⟨-, heq⟩
    · exact h.waiting j next' (fun heq => hne (Option.some.inj heq).symm) hj
    · obtain rfl := TaskState.waiting.inj heq
      exact hnext
  holder j _ hj := by
    have hne : j ≠ i := fun heq => hfree (heq ▸ hj)
    obtain ⟨label, hget, hlabel⟩ := h.holder j (fun heq => hne (Option.some.inj heq).symm) hj
    exact ⟨label, (List.getElem?_set_ne hne.symm).trans hget, hlabel⟩
  suspended j label _ hj hlabel := by
    rcases getElem?_set_cases hj with ⟨hne, hj⟩ | ⟨-, heq⟩
    · exact h.suspended j label (fun heq => hne (Option.some.inj heq).symm) hj hlabel
    · cases heq

/-- The lock changes hands between the task that runs and nobody. -/
theorem Owned.setHolder (h : s.Owned program (some i)) {holder : Option ℕ}
    (hs : s.holder = none ∨ s.holder = some i) (hholder : holder = none ∨ holder = some i) :
    ({ s with holder } : Tasks σ π).Owned program (some i) where
  waiters := h.waiters
  nodup := h.nodup
  waiting := h.waiting
  holder j hj heq := by
    rcases hholder with rfl | rfl
    · cases heq
    · exact absurd heq hj
  suspended j label hj hget hlabel := by
    have heq := h.suspended j label hj hget hlabel
    rcases hs with hs | hs
    · exact absurd (hs.symm.trans heq) (Option.some_ne_none j).symm
    · exact absurd (hs.symm.trans heq) hj

theorem idle_eq_true : s.idle i = true ↔
    s.waiters = [] ∧ (s.holder = none ∨ s.holder = some i) :=
  decide_eq_true_iff

/-- A task that does not acquire the lock twice leaves it in order. -/
theorem owned_exec (c : Code σ π) {held : Bool} (h : s.Owned program (some i))
    (hi : i < s.tasks.length) (hheld : s.holder = some i ↔ held = true)
    (hc : c.Balanced program.holds P held) (hre : c.reacquires (s.idle i) held s.shared = false) :
    (exec i c s).Owned program none := by
  induction c generalizing held s with
  | done =>
    refine h.put hi (fun _ heq => nomatch heq) ?_
    rw [hheld, show held = false from hc]
    simp
  | suspend label =>
    refine h.put hi (fun _ heq => nomatch heq) ?_
    rw [hheld, ← show program.holds label = held from hc]
    simp
  | read next ih => exact ih s.shared h hi hheld (hc s.shared) hre
  | write f next ih =>
    exact ih (s := { s with shared := f s.shared }) ⟨h.1, h.2, h.3, h.4, h.5⟩ hi hheld hc hre
  | acquire next ih =>
    cases held with
    | true => cases hre
    | false =>
      unfold exec
      split_ifs with hfree
      · refine ih (h.setHolder (Or.inl hfree.1) (Or.inr rfl)) hi (by simp) hc.2 ?_
        have hidle : s.idle i = true := idle_eq_true.2 ⟨hfree.2, Or.inl hfree.1⟩
        have hidle' : ({ s with holder := some i } : Tasks σ π).idle i = true :=
          idle_eq_true.2 ⟨hfree.2, Or.inr rfl⟩
        rw [hidle']
        simpa [Code.reacquires, hidle] using hre
      · exact h.enqueue hi (fun heq => Bool.false_ne_true (hheld.mp heq)) hc
  | release next ih =>
    obtain ⟨rfl, hc⟩ := hc
    have hs := hheld.mpr rfl
    refine ih (h.setHolder (Or.inr hs) (Or.inl rfl)) hi (by simp) hc ?_
    have hidle : ({ s with holder := none } : Tasks σ π).idle i = s.idle i := by
      simp [idle, hs]
    rw [hidle]
    exact hre

/-- A task that acquires the lock twice waits for itself. -/
theorem selfWait_exec (c : Code σ π) {held : Bool} (hheld : s.holder = some i ↔ held = true)
    (hc : c.Balanced program.holds P held) (hre : c.reacquires (s.idle i) held s.shared = true) :
    (exec i c s).holder = some i ∧ i ∈ (exec i c s).waiters := by
  induction c generalizing held s with
  | done => cases hre
  | suspend label => cases hre
  | read next ih => exact ih s.shared hheld (hc s.shared) hre
  | write f next ih => exact ih (s := { s with shared := f s.shared }) hheld hc hre
  | acquire next ih =>
    cases held with
    | true =>
      have hs := hheld.mpr rfl
      unfold exec
      rw [if_neg (by simp [hs])]
      exact ⟨hs, List.mem_append_right _ (List.mem_singleton_self i)⟩
    | false =>
      rw [Code.reacquires, Bool.and_eq_true, idle_eq_true] at hre
      obtain ⟨⟨hempty, hholder⟩, hre⟩ := hre
      have hfree : s.holder = none :=
        hholder.resolve_right fun heq => Bool.false_ne_true (hheld.mp heq)
      unfold exec
      rw [if_pos ⟨hfree, hempty⟩]
      refine ih (by simp) hc.2 ?_
      have hidle' : ({ s with holder := some i } : Tasks σ π).idle i = true :=
        idle_eq_true.2 ⟨hempty, Or.inr rfl⟩
      rw [hidle']
      simpa [idle_eq_true.2 ⟨hempty, Or.inl hfree⟩] using hre
  | release next ih =>
    obtain ⟨rfl, hc⟩ := hc
    have hs := hheld.mpr rfl
    refine ih (by simp) hc ?_
    have hidle : ({ s with holder := none } : Tasks σ π).idle i = s.idle i := by
      simp [idle, hs]
    rw [hidle]
    exact hre

/-! ## Steps -/

theorem owned_init (x : σ) : ({ shared := x } : Tasks σ π).Owned program none where
  waiters _ hj := absurd hj List.not_mem_nil
  nodup := List.nodup_nil
  waiting _ _ _ hj := absurd hj (by simp)
  holder _ _ hj := absurd hj (by simp)
  suspended _ _ _ hj := absurd hj (by simp)

theorem Owned.noSelfWait (h : s.Owned program none) : s.NoSelfWait := by
  intro i hi hmem
  obtain ⟨label, hlabel, -⟩ := h.holder i (Option.some_ne_none i).symm hi
  obtain ⟨-, next, hnext⟩ := h.waiters i hmem
  cases hlabel.symm.trans hnext

/-- A task that holds the lock and is the only one in the queue. -/
theorem selfWait_of_beq (h : (s.holder == some i && s.waiters == [i]) = true) :
    ¬s.NoSelfWait := by
  rw [Bool.and_eq_true, beq_iff_eq, beq_iff_eq] at h
  intro hnone
  refine hnone i h.1 ?_
  rw [h.2]
  exact List.mem_singleton_self i

theorem Owned.lt_length {j : ℕ} {state : TaskState σ π} (hj : s.tasks[j]? = some state) :
    j < s.tasks.length :=
  (List.getElem?_eq_some_iff.mp hj).1

/-- A new task has nothing to do with the lock. -/
theorem Owned.start (h : s.Owned program none) {label : π} (hlabel : program.holds label = false) :
    ({ s with tasks := s.tasks ++ [.suspended label] } : Tasks σ π).Owned program none where
  waiters j hj := by
    obtain ⟨hne, next, hnext⟩ := h.waiters j hj
    exact ⟨hne, next, (List.getElem?_append_left (lt_length hnext)).trans hnext⟩
  nodup := h.nodup
  waiting j next hne hj := by
    rcases getElem?_concat_cases hj with hj | ⟨-, heq⟩
    · exact h.waiting j next hne hj
    · cases heq
  holder j hne hj := by
    obtain ⟨label', hget, hlabel'⟩ := h.holder j hne hj
    exact ⟨label', (List.getElem?_append_left (lt_length hget)).trans hget, hlabel'⟩
  suspended j label' hne hj hlabel' := by
    rcases getElem?_concat_cases hj with hj | ⟨-, heq⟩
    · exact h.suspended j label' hne hj hlabel'
    · obtain rfl := TaskState.suspended.inj heq
      exact absurd (hlabel.symm.trans hlabel') Bool.false_ne_true

/-- A task that is resumed is no waiter. -/
theorem Owned.resume (h : s.Owned program none) {label : π}
    (hget : s.tasks[i]? = some (.suspended label)) :
    s.Owned program (some i) ∧ (s.holder = some i ↔ program.holds label = true) := by
  refine ⟨⟨fun j hj => ?_, h.nodup, fun j next _ => h.waiting j next (Option.some_ne_none j).symm,
    fun j _ => h.holder j (Option.some_ne_none j).symm,
    fun j label' _ => h.suspended j label' (Option.some_ne_none j).symm⟩, fun hi => ?_,
    h.suspended i label (Option.some_ne_none i).symm hget⟩
  · obtain ⟨-, next, hnext⟩ := h.waiters j hj
    refine ⟨fun heq => ?_, next, hnext⟩
    obtain rfl := Option.some.inj heq
    cases hget.symm.trans hnext
  · obtain ⟨label', hget', hlabel'⟩ := h.holder i (Option.some_ne_none i).symm hi
    obtain rfl := TaskState.suspended.inj (Option.some.inj (hget.symm.trans hget'))
    exact hlabel'

/-- The first waiter gets the lock. -/
theorem Owned.grant (h : s.Owned program none) {waiters : List ℕ} (hfree : s.holder = none)
    (hwaiters : s.waiters = i :: waiters) :
    ({ s with holder := some i, waiters } : Tasks σ π).Owned program (some i) where
  waiters j hj := by
    have hnodup : (i :: waiters).Nodup := hwaiters ▸ h.nodup
    obtain ⟨-, hnext⟩ := h.waiters j (hwaiters ▸ List.mem_cons_of_mem i hj)
    refine ⟨fun heq => ?_, hnext⟩
    obtain rfl := Option.some.inj heq
    exact (List.nodup_cons.mp hnodup).1 hj
  nodup := (List.nodup_cons.mp (hwaiters ▸ h.nodup)).2
  waiting j next _ := h.waiting j next (Option.some_ne_none j).symm
  holder j hne heq := absurd heq hne
  suspended j label hne hj hlabel := by
    have heq := h.suspended j label (Option.some_ne_none j).symm hj hlabel
    rw [hfree] at heq
    cases heq

/-- A task is over, whatever it waited for. -/
theorem Owned.cancel (h : s.Owned program none) (hi : i < s.tasks.length) :
    ({ s with
      holder := if s.holder = some i then none else s.holder
      waiters := s.waiters.filter fun j => j ≠ i }.put i .finished : Tasks σ π).Owned
        program none := by
  refine Owned.put ?_ (by exact hi) (fun _ heq => nomatch heq) ?_
  · refine ⟨fun j hj => ?_, h.nodup.filter _,
      fun j next _ => h.waiting j next (Option.some_ne_none j).symm, fun j _ hj => ?_,
      fun j label hne hj hlabel => ?_⟩
    · obtain ⟨hj, hne⟩ := List.mem_filter.mp hj
      exact ⟨fun heq => of_decide_eq_true hne (Option.some.inj heq).symm, (h.waiters j hj).2⟩
    · dsimp only at hj
      split_ifs at hj
      exact h.holder j (Option.some_ne_none j).symm hj
    · have heq := h.suspended j label (Option.some_ne_none j).symm hj hlabel
      dsimp only
      rw [if_neg fun heq' => hne (heq'.symm.trans heq), heq]
  · simp

variable {e : TaskEvent π ρ}

/-- A resumed task holds the lock just if it is held where it is suspended. -/
theorem Owned.reenters_resume (h : s.Owned program none) {label : π} (answer : ρ)
    (hget : s.tasks[i]? = some (.suspended label)) :
    s.reenters program (.resume i answer) =
      (program.code label answer).reacquires (s.idle i) (program.holds label) s.shared := by
  have heq : decide (s.holder = some i) = program.holds label := by
    rw [Bool.eq_iff_iff, decide_eq_true_iff]
    exact (h.resume hget).2
  simp only [reenters, hget, heq]

/-- A waiter that is granted the lock goes on as its holder. -/
theorem reenters_grant {waiters : List ℕ} {next : Code σ π} (hfree : s.holder = none)
    (hwaiters : s.waiters = i :: waiters) (hget : s.tasks[i]? = some (.waiting next)) :
    s.reenters program .grant =
      next.reacquires (({ s with holder := some i, waiters } : Tasks σ π).idle i) true
        s.shared := by
  have hidle : ({ s with holder := some i, waiters } : Tasks σ π).idle i =
      decide (waiters = []) := by
    simp [idle]
  simp only [reenters, hfree, hwaiters, hget, ← hidle]

/-- A step in which no task acquires the lock twice leaves it in order. -/
theorem Owned.step (h : s.Owned program none) (hst : s.step program e = some t)
    (hre : s.reenters program e = false) : t.Owned program none := by
  cases e with
  | start label =>
    obtain ⟨hentry, rfl⟩ := step_start hst
    exact h.start (program.holds_entry label hentry)
  | resume i answer =>
    obtain ⟨label, hget, rfl⟩ := step_resume hst
    obtain ⟨hbut, hheld⟩ := h.resume hget
    rw [h.reenters_resume answer hget] at hre
    exact owned_exec _ hbut (lt_length hget) hheld (program.balanced label answer) hre
  | grant =>
    obtain ⟨i, waiters, next, hfree, hwaiters, hget, rfl⟩ := step_grant hst
    obtain ⟨-, hnext⟩ := h.waiting i next (Option.some_ne_none i).symm hget
    rw [reenters_grant hfree hwaiters hget] at hre
    exact owned_exec next (h.grant hfree hwaiters) (lt_length hget) (by simp) hnext hre
  | cancel i =>
    obtain ⟨hi, rfl⟩ := step_cancel hst
    exact h.cancel hi

/-- A step leads to a task that waits for itself exactly when a task acquires the lock twice
in it. -/
theorem noSelfWait_step_iff (h : s.Owned program none) (hst : s.step program e = some t) :
    t.NoSelfWait ↔ s.reenters program e = false := by
  refine ⟨fun hno => ?_, fun hre => (h.step hst hre).noSelfWait⟩
  rw [← Bool.not_eq_true]
  intro hre
  cases e with
  | start label => cases hre
  | resume i answer =>
    obtain ⟨label, hget, rfl⟩ := step_resume hst
    obtain ⟨-, hheld⟩ := h.resume hget
    rw [h.reenters_resume answer hget] at hre
    obtain ⟨hholder, hwaits⟩ := selfWait_exec _ hheld (program.balanced label answer) hre
    exact hno i hholder hwaits
  | grant =>
    obtain ⟨i, waiters, next, hfree, hwaiters, hget, rfl⟩ := step_grant hst
    obtain ⟨-, hnext⟩ := h.waiting i next (Option.some_ne_none i).symm hget
    rw [reenters_grant hfree hwaiters hget] at hre
    obtain ⟨hholder, hwaits⟩ :=
      selfWait_exec (s := { s with holder := some i, waiters }) next (by simp) hnext hre
    exact hno i hholder hwaits
  | cancel i => cases hre

/-! ## Runs -/

/-- Every answer that a suspended task gets meets `c`, which may depend on the shared state
and on the label. -/
def Answered (c : σ → π → ρ → Prop) (s : Tasks σ π) : TaskEvent π ρ → Prop
  | .resume i answer =>
    match s.tasks[i]? with
    | some (.suspended label) => c s.shared label answer
    | _ => True
  | _ => True

instance (c : σ → π → ρ → Prop) [∀ x label answer, Decidable (c x label answer)]
    (s : Tasks σ π) (e : TaskEvent π ρ) : Decidable (s.Answered c e) := by
  unfold Answered
  split
  · split <;> infer_instance
  · infer_instance

variable (program) in
/-- The tasks of a program, with none at the start. -/
def machine (x : σ) : Machine (Tasks σ π) (TaskEvent π ρ) where
  init := { shared := x }
  step := step program

variable {c : σ → π → ρ → Prop} {x : σ} {es : List (TaskEvent π ρ)}

section Granted

variable (hgranted : ∀ next idle x, P next → next.reacquires idle true x = false)
  (hc : ∀ idle x label answer, c x label answer ↔
    (program.code label answer).reacquires idle (program.holds label) x = false)

include hgranted hc

theorem reenters_iff_of_granted (h : s.Owned program none) (hst : s.step program e = some t) :
    s.reenters program e = false ↔ s.Answered c e := by
  cases e with
  | start label => exact iff_of_true rfl trivial
  | resume i answer =>
    obtain ⟨label, hget, rfl⟩ := step_resume hst
    have heq : decide (s.holder = some i) = program.holds label := by
      rw [Bool.eq_iff_iff, decide_eq_true_iff]
      exact (h.resume hget).2
    simp [reenters, Answered, hget, heq, hc (s.idle i)]
  | grant =>
    obtain ⟨i, waiters, next, hfree, hwaiters, hget, rfl⟩ := step_grant hst
    have hnext := (h.waiting i next (Option.some_ne_none i).symm hget).1
    refine iff_of_true ?_ trivial
    simp only [reenters, hfree, hwaiters, hget]
    exact hgranted next _ _ hnext
  | cancel i => exact iff_of_true rfl trivial

/-- If a task that got the lock does not acquire it again before it is suspended, no task
ever waits for itself exactly when no answer makes one acquire the lock twice. -/
theorem throughout_iff_of_granted (h : (machine program x).Run (fun _ _ => True) es s) :
    (machine program x).Throughout NoSelfWait es ↔ (machine program x).Run (Answered c) es s := by
  have hinit : (machine program x).init.Owned program none := owned_init x
  exact h.throughout_iff_run ⟨hinit, hinit.noSelfWait⟩
    (fun _ _ _ hs _ hst ht => hs.step hst ((noSelfWait_step_iff hs hst).mp ht))
    fun _ _ _ hs _ hst =>
      (noSelfWait_step_iff hs hst).trans (reenters_iff_of_granted hgranted hc hs hst)

end Granted

/-! ## Programs whose tasks are never suspended with the lock -/

/-- If no other task has to do with the lock, and the task that runs acquires it once, it is
free after it, and nobody waits. -/
theorem free_exec (c : Code σ π) {held : Bool} (hidle : s.idle i = true)
    (hheld : s.holder = some i ↔ held = true) (hc : c.Frees held)
    (hre : c.reacquires true held s.shared = false) :
    (exec i c s).holder = none ∧ (exec i c s).waiters = [] := by
  have hlock := idle_eq_true.1 hidle
  induction c generalizing held s with
  | done =>
    rw [show held = false from hc] at hheld
    exact ⟨hlock.2.resolve_right fun heq => Bool.false_ne_true (hheld.mp heq), hlock.1⟩
  | suspend label =>
    rw [show held = false from hc] at hheld
    exact ⟨hlock.2.resolve_right fun heq => Bool.false_ne_true (hheld.mp heq), hlock.1⟩
  | read next ih => exact ih s.shared hidle hheld (hc s.shared) hre hlock
  | write f next ih => exact ih (s := { s with shared := f s.shared }) hidle hheld hc hre hlock
  | acquire next ih =>
    cases held with
    | true => cases hre
    | false =>
      have hfree := hlock.2.resolve_right fun heq => Bool.false_ne_true (hheld.mp heq)
      unfold exec
      rw [if_pos ⟨hfree, hlock.1⟩]
      exact ih (idle_eq_true.2 ⟨hlock.1, Or.inr rfl⟩) (by simp) hc hre ⟨hlock.1, Or.inr rfl⟩
  | release next ih =>
    exact ih (idle_eq_true.2 ⟨hlock.1, Or.inl rfl⟩) (by simp) hc hre ⟨hlock.1, Or.inl rfl⟩

section Free

variable (hfrees : ∀ label answer, program.holds label = false →
    (program.code label answer).Frees false)

include hfrees

/-- As long as no task acquires the lock twice, it is free whenever all tasks are
suspended. -/
theorem free_step (h : s.Owned program none) (hfree : s.holder = none ∧ s.waiters = [])
    (hst : s.step program e = some t) (hre : s.reenters program e = false) :
    t.holder = none ∧ t.waiters = [] := by
  obtain ⟨hholder, hwaiters⟩ := hfree
  cases e with
  | start label =>
    obtain ⟨-, rfl⟩ := step_start hst
    exact ⟨hholder, hwaiters⟩
  | resume i answer =>
    obtain ⟨label, hget, rfl⟩ := step_resume hst
    have hidle : s.idle i = true := idle_eq_true.2 ⟨hwaiters, Or.inl hholder⟩
    have hlabel : program.holds label = false := by
      rw [← Bool.not_eq_true, ← (h.resume hget).2, hholder]
      exact (Option.some_ne_none i).symm
    refine free_exec _ hidle (by simp [hholder]) (hfrees label answer hlabel) ?_
    simpa [reenters, hget, hidle, hholder] using hre
  | grant => simp [step, hholder, hwaiters] at hst
  | cancel i =>
    obtain ⟨-, rfl⟩ := step_cancel hst
    simp [put, hholder, hwaiters]

variable (hc : ∀ x label answer, c x label answer ↔
    (program.code label answer).reacquires true false x = false)

include hc

omit hfrees in
theorem reenters_iff_of_free (hfree : s.holder = none ∧ s.waiters = [])
    (hst : s.step program e = some t) : s.reenters program e = false ↔ s.Answered c e := by
  obtain ⟨hholder, hwaiters⟩ := hfree
  cases e with
  | start label => exact iff_of_true rfl trivial
  | resume i answer =>
    obtain ⟨label, hget, rfl⟩ := step_resume hst
    have hidle : s.idle i = true := idle_eq_true.2 ⟨hwaiters, Or.inl hholder⟩
    simp [reenters, Answered, hget, hidle, hholder, hc]
  | grant => simp [step, hholder, hwaiters] at hst
  | cancel i => exact iff_of_true rfl trivial

/-- If no task is suspended with the lock, no task ever waits for itself exactly when no
answer makes one acquire the lock twice. -/
theorem throughout_iff_of_free (h : (machine program x).Run (fun _ _ => True) es s) :
    (machine program x).Throughout NoSelfWait es ↔ (machine program x).Run (Answered c) es s := by
  have hinit : (machine program x).init.Owned program none := owned_init x
  exact h.throughout_iff_run
    (I := fun s => s.Owned program none ∧ s.holder = none ∧ s.waiters = [])
    ⟨⟨hinit, rfl, rfl⟩, hinit.noSelfWait⟩
    (fun _ _ _ hs _ hst ht =>
      have hre := (noSelfWait_step_iff hs.1 hst).mp ht
      ⟨hs.1.step hst hre, free_step hfrees hs.1 hs.2 hst hre⟩)
    fun _ _ _ hs _ hst =>
      (noSelfWait_step_iff hs.1 hst).trans (reenters_iff_of_free hc hs.2 hst)

end Free

end Tasks

end MultiAgent
