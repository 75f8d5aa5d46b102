import Mathlib.Data.List.TakeWhile
import MultiAgent.Security.Authentication

/-!
# When an account is locked

An account should be locked exactly while `max_failed_attempts` failed attempts of it are
recorded after its last success and within the last `lockout_duration` seconds. The manager
counts others as well : attempts of the email address in another tenant (`foreign`), and
attempts that are no longer recent (`stale`), since nothing is dropped until an attempt is
recorded, and of a locked account none is. And it misses the attempts that a success of the
email address in another tenant dropped (`forgotten`).

Both counts are made up of these (`length_held`, `length_recentFailures`), so a look at the
lock is right exactly when what is held too much and too little does not matter to the bound,
and all looks of a run are exactly when this is so at each (`lawful_run_iff`).
-/

namespace MultiAgent

namespace Authentication

variable (settings : LockoutSettings) (log : List Attempt) (account : Account) (now : ℚ)

/-- The recent failures of the account that the manager holds. -/
def own : ℕ :=
  (held settings log account.email).countP fun a =>
    recent settings now a && ofAccount account a

/-- The recent failures that the manager holds of the same email address in other tenants. -/
def foreign : ℕ :=
  (held settings log account.email).countP fun a =>
    recent settings now a && !ofAccount account a

/-- The failures that the manager holds although they are not recent any more. -/
def stale : ℕ :=
  (held settings log account.email).countP fun a => !recent settings now a

/-- The attempt is no success of the email address. -/
def noSuccess (email : String) (a : Attempt) : Bool :=
  !(ofEmail email a && !a.failed)

/-- The log up to the last success of the email address in any tenant. -/
def upToSuccess : List Attempt :=
  log.dropWhile (noSuccess account.email)

/-- The recent failures of the account that came before a success of the same email address
in another tenant, and after the last one of the account. -/
def forgotten : ℕ :=
  (recentFailures settings (upToSuccess log account) account now).length

/-- Every look at the lock found it locked exactly when there were enough recent failures. -/
def Lawful (s : AuthSystem) : Prop :=
  ∀ a ∈ s.answers, a.locked = true ↔ settings.maxFailedAttempts ≤ a.recentFailures

/-- At a look at the lock, the attempts that are held too much do not reach the bound without
the ones that are forgotten, nor the other way round. -/
def Undistorted (s : AuthSystem) : AuthEvent → Prop
  | .start account now =>
    let n := own settings s.log account now
    settings.maxFailedAttempts ≤ n + (foreign settings s.log account now +
        stale settings s.log account now) ↔
      settings.maxFailedAttempts ≤ n + forgotten settings s.log account now
  | .finish _ _ _ _ => True

instance (s : AuthSystem) (e : AuthEvent) : Decidable (Undistorted settings s e) :=
  match e with
  | .start account now =>
    inferInstanceAs (Decidable (settings.maxFailedAttempts ≤ own settings s.log account now +
        (foreign settings s.log account now + stale settings s.log account now) ↔
      settings.maxFailedAttempts ≤
        own settings s.log account now + forgotten settings s.log account now))
  | .finish _ _ _ _ => isTrue trivial

/-! ## The two counts -/

variable {settings log account now}

variable (account) in
/-- Attempts of one email address since a success among them : those after the last success
of the address, and then those since one before. -/
theorem sinceSuccess_eq {p : Attempt → Bool} (hp : ∀ a, p a = true → ofEmail account.email a) :
    sinceSuccess p log = (log.takeWhile (noSuccess account.email)).filter p ++
      sinceSuccess p (upToSuccess log account) := by
  have hlog : log.takeWhile (noSuccess account.email) ++ upToSuccess log account = log :=
    List.takeWhile_append_dropWhile
  unfold sinceSuccess
  conv_lhs => rw [← hlog, List.filter_append]
  refine List.takeWhile_append_of_pos fun a ha => ?_
  obtain ⟨ha, hpa⟩ := List.mem_filter.mp ha
  have hno := List.mem_takeWhile_imp ha
  simpa [noSuccess, hp a hpa] using hno

/-- The success that the log was cut at is the last attempt of its address. -/
theorem sinceSuccess_upToSuccess : sinceSuccess (ofEmail account.email) (upToSuccess log account) =
    [] := by
  cases hcut : upToSuccess log account with
  | nil => rfl
  | cons a rest =>
    have hhead : noSuccess account.email a = false := by
      unfold upToSuccess at hcut
      have hne : log.dropWhile (noSuccess account.email) ≠ [] := hcut ▸ List.cons_ne_nil a rest
      have hnot := List.head_dropWhile_not (noSuccess account.email) hne
      simpa only [hcut, List.head_cons] using hnot
    simp only [noSuccess, Bool.not_eq_false', Bool.and_eq_true, Bool.not_eq_true'] at hhead
    exact sinceSuccess_success hhead.1 hhead.2

theorem sinceSuccess_ofEmail : sinceSuccess (ofEmail account.email) log =
    (log.takeWhile (noSuccess account.email)).filter (ofEmail account.email) := by
  rw [sinceSuccess_eq account fun _ ha => ha, sinceSuccess_upToSuccess,
    List.append_nil]

theorem ofEmail_of_ofAccount {a : Attempt} (h : ofAccount account a = true) :
    ofEmail account.email a = true := by
  have ha : a.account = account := of_decide_eq_true h
  simp [ofEmail, ha]

variable (now) in
/-- What the manager holds is the account's own and what is too much. -/
theorem length_held : (held settings log account.email).length =
    own settings log account now +
      (foreign settings log account now + stale settings log account now) := by
  have hrecent := List.length_eq_countP_add_countP (recent settings now)
    (l := held settings log account.email)
  have hown : (held settings log account.email).countP (recent settings now) =
      own settings log account now + foreign settings log account now := by
    refine countP_add_of_disjoint fun a _ => ?_
    cases recent settings now a <;> cases ofAccount account a <;> rfl
  have hstale : stale settings log account now =
      (held settings log account.email).countP fun a => decide ¬recent settings now a = true := by
    unfold stale
    congr 1
    funext a
    cases recent settings now a <;> rfl
  omega

/-- The account's own recent failures are all held since the last success of its address. -/
theorem own_eq (hpast : ∀ a ∈ log, a.time ≤ now) : own settings log account now =
    (log.takeWhile (noSuccess account.email)).countP fun a =>
      recent settings now a && ofAccount account a := by
  have hfilter : own settings log account now =
      (sinceSuccess (ofEmail account.email) log).countP fun a =>
        recent settings now a && ofAccount account a := by
    unfold own
    cases hsince : sinceSuccess (ofEmail account.email) log with
    | nil => rw [held_of_nil hsince]
    | cons a rest =>
      rw [held_of_cons hsince, List.countP_filter]
      refine List.countP_congr fun b _ => ?_
      have hle : a.time ≤ now := hpast a (mem_of_mem_sinceSuccess (hsince ▸ List.mem_cons_self))
      simp only [Bool.and_eq_true]
      exact ⟨And.left, fun h => ⟨h, recent_of_le hle h.1⟩⟩
  rw [hfilter, sinceSuccess_ofEmail, List.countP_filter]
  refine List.countP_congr fun b _ => ?_
  simp only [Bool.and_eq_true]
  exact ⟨And.left, fun h => ⟨h, ofEmail_of_ofAccount h.2⟩⟩

/-- The recent failures are those that are held and those that were forgotten. -/
theorem length_recentFailures (hpast : ∀ a ∈ log, a.time ≤ now) :
    (recentFailures settings log account now).length =
      own settings log account now + forgotten settings log account now := by
  rw [own_eq hpast, forgotten, recentFailures,
    sinceSuccess_eq account fun _ ha => ofEmail_of_ofAccount ha, List.filter_append,
    List.length_append, ← List.countP_eq_length_filter, List.countP_filter]
  rfl

/-! ## Runs -/

variable {s t : AuthSystem} {e : AuthEvent}

theorem lawful_step_iff (h : Recorded settings s) (hst : s.step settings e = some t) :
    Lawful settings t ↔ Lawful settings s ∧ Undistorted settings s e := by
  cases e with
  | start account now =>
    simp only [AuthSystem.step, Option.ite_none_right_eq_some] at hst
    obtain ⟨hnow, hst⟩ := hst
    obtain rfl := Option.some.inj hst
    have hpast : ∀ a ∈ s.log, a.time ≤ now := fun a ha => (h.past a ha).trans hnow
    refine List.forall_mem_cons.trans (and_comm.trans (and_congr_right fun _ => ?_))
    simp only [h.isLockedOut, length_held now, length_recentFailures hpast]
    rfl
  | finish call lookup closes now =>
    simp only [AuthSystem.step] at hst
    split at hst
    · cases hst
    · split_ifs at hst
      obtain rfl := Option.some.inj hst
      exact (and_iff_left trivial).symm

/-- Accounts are locked in a run exactly when they should be, if and only if at no look at a
lock the attempts held too much, or the ones forgotten, matter to the bound. -/
theorem lawful_run_iff {es : List AuthEvent}
    (h : (authMachine settings).Run (fun _ _ => True) es s) :
    Lawful settings s ↔ (authMachine settings).Run (Undistorted settings) es s := by
  have hinit : Recorded settings (authMachine settings).init ∧
      Lawful settings (authMachine settings).init :=
    ⟨⟨fun _ => rfl, List.Pairwise.nil, fun a ha => absurd ha List.not_mem_nil⟩,
      fun a ha => absurd ha List.not_mem_nil⟩
  exact h.iff_run hinit (fun _ _ _ hs hst => hs.step hst)
    fun _ _ _ hs hst => lawful_step_iff hs hst

/-- Attempts with a wrong password, one after the other. -/
def wrongPasswords (account : Account) (start : ℚ) : ℕ → List AuthEvent
  | 0 => []
  | n + 1 => .start account start :: .finish 0 (.found false) true start ::
      wrongPasswords account (start + 1) n

/-- An account of `alice`. -/
def alice (tenantId : String) : Account :=
  ⟨"alice@example.com", tenantId⟩

/-- Five wrong passwords lock the account. -/
theorem lawful_run_alice : ∃ s, Lawful {} s ↔ (authMachine {}).Run (Undistorted {})
    (wrongPasswords (alice "acme") 1 5 ++ [.start (alice "acme") 7]) s := by
  obtain ⟨s, hrun, -⟩ := (authMachine {}).exists_run (fun _ _ => True)
    (wrongPasswords (alice "acme") 1 5 ++ [.start (alice "acme") 7])
    (fun s => s.answers.any LockAnswer.locked) (by decide +kernel)
  exact ⟨s, lawful_run_iff hrun⟩

/-- The lock is still there a day later, and it is there in another tenant. -/
theorem not_lawful :
    (¬∀ s, (authMachine {}).Run (fun _ _ => True)
      (wrongPasswords (alice "acme") 1 5 ++ [.start (alice "acme") 86400]) s → Lawful {} s) ∧
      ¬∀ s, (authMachine {}).Run (fun _ _ => True)
        (wrongPasswords (alice "acme") 1 5 ++ [.start (alice "globex") 7]) s → Lawful {} s := by
  have hwrong : ∀ s : AuthSystem, (s.answers.any fun a =>
      a.locked && decide (a.recentFailures < 5)) = true → ¬Lawful {} s := by
    intro s hany hlawful
    obtain ⟨a, ha, hlocked⟩ := List.any_eq_true.mp hany
    rw [Bool.and_eq_true, decide_eq_true_eq] at hlocked
    exact absurd ((hlawful a ha).mp hlocked.1) (Nat.not_le.mpr hlocked.2)
  constructor
  · intro hall
    obtain ⟨s, hrun, hany⟩ := (authMachine {}).exists_run (fun _ _ => True)
      (wrongPasswords (alice "acme") 1 5 ++ [.start (alice "acme") 86400])
      (fun s => s.answers.any fun a => a.locked && decide (a.recentFailures < 5))
      (by decide +kernel)
    exact hwrong s hany (hall s hrun)
  · intro hall
    obtain ⟨s, hrun, hany⟩ := (authMachine {}).exists_run (fun _ _ => True)
      (wrongPasswords (alice "acme") 1 5 ++ [.start (alice "globex") 7])
      (fun s => s.answers.any fun a => a.locked && decide (a.recentFailures < 5))
      (by decide +kernel)
    exact hwrong s hany (hall s hrun)

end Authentication

end MultiAgent
