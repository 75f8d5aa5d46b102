import Mathlib.Algebra.Order.Ring.Rat
import Mathlib.Tactic.Linarith
import MultiAgent.Lib.Dict
import MultiAgent.Lib.Machine

/-!
# Failed attempts and the lock of an account

`AuthenticationManager.authenticate_user` of `libs/security/auth.py`. A call first looks at
the lock and then awaits the database, so other calls run in between : the look at the lock
and the rest of a call are two steps. What the database answers, whether its session closes
without an exception, and the time come with the events.

The attempts are kept by email address. Recording a failed attempt drops the attempts that
are `lockout_duration` old, a look at the lock drops none. The log is not part of the
manager : it has every attempt with its tenant, and says what the manager holds
(`Recorded.length_attempts`).
-/

namespace MultiAgent

namespace Authentication

/-- The attributes of the manager that say when an account is locked. -/
structure LockoutSettings where
  maxFailedAttempts : ℕ := 5
  lockoutDuration : ℚ := 300
  enabled : 0 < maxFailedAttempts := by decide

/-- An account : an email address of a tenant. -/
structure Account where
  email : String
  tenantId : String
  deriving DecidableEq

/-- What the database answers : no user, a user whose password is verified or not, or an
exception. -/
inductive Lookup
  | absent
  | found (verified : Bool)
  | raises

/-- How a call ends : with status 423, with `None`, with the user, or with status 500. -/
inductive AuthResult
  | locked
  | refused
  | authenticated
  | failed
  deriving DecidableEq

/-- The manager. -/
structure AuthenticationManager where
  failedAttempts : Dict String (List ℚ) := .empty

namespace AuthenticationManager

variable (settings : LockoutSettings) (m : AuthenticationManager)

/-- `_is_locked_out`. -/
def isLockedOut (email : String) : Bool :=
  match m.failedAttempts.get? email with
  | none => false
  | some attempts => settings.maxFailedAttempts ≤ attempts.length

/-- `_record_failed_attempt`. -/
def recordFailedAttempt (email : String) (now : ℚ) : AuthenticationManager :=
  let attempts := m.failedAttempts.getD email [] ++ [now]
  let cutoff := now - settings.lockoutDuration
  { m with failedAttempts := m.failedAttempts.set email (attempts.filter fun t => cutoff < t) }

/-- `_reset_failed_attempts`. -/
def resetFailedAttempts (email : String) : AuthenticationManager :=
  { m with failedAttempts := m.failedAttempts.erase email }

/-- `authenticate_user` below the look at the lock. -/
def checkUser (email : String) (lookup : Lookup) (closes : Bool) (now : ℚ) :
    AuthenticationManager × AuthResult :=
  match lookup with
  | .absent | .found false =>
    (m.recordFailedAttempt settings email now, if closes then .refused else .failed)
  | .found true => (m.resetFailedAttempts email, if closes then .authenticated else .failed)
  | .raises => (m, .failed)

end AuthenticationManager

/-! ## The log -/

/-- An attempt whose password was looked at. -/
structure Attempt where
  account : Account
  time : ℚ
  failed : Bool

/-- The attempts with `p` after the last success among them, newest first. -/
def sinceSuccess (p : Attempt → Bool) (log : List Attempt) : List Attempt :=
  (log.filter p).takeWhile Attempt.failed

/-- The attempts of an email address. -/
def ofEmail (email : String) (a : Attempt) : Bool :=
  a.account.email = email

/-- The attempts of an account. -/
def ofAccount (account : Account) (a : Attempt) : Bool :=
  a.account = account

/-- The attempt was made within the last `lockout_duration` seconds. -/
def recent (settings : LockoutSettings) (now : ℚ) (a : Attempt) : Bool :=
  now - settings.lockoutDuration < a.time

/-- The failed attempts of an account after its last success and within the last
`lockout_duration` seconds. -/
def recentFailures (settings : LockoutSettings) (log : List Attempt) (account : Account)
    (now : ℚ) : List Attempt :=
  (sinceSuccess (ofAccount account) log).filter (recent settings now)

/-- The attempts that the manager holds for an email address : those since its last success
in any tenant, that were recent when the last of them was made. -/
def held (settings : LockoutSettings) (log : List Attempt) (email : String) : List Attempt :=
  match sinceSuccess (ofEmail email) log with
  | [] => []
  | a :: rest => (a :: rest).filter (recent settings a.time)

/-! ## The system -/

/-- A look at the lock, with the number of failures that should decide it. -/
structure LockAnswer where
  account : Account
  recentFailures : ℕ
  locked : Bool

/-- The manager with the calls that are under way, the log and the looks at the lock, newest
first. -/
structure AuthSystem where
  manager : AuthenticationManager := {}
  clock : ℚ := 0
  calls : List Account := []
  log : List Attempt := []
  answers : List LockAnswer := []

/-- A step of a call : up to the database, or from there to its end. -/
inductive AuthEvent
  | start (account : Account) (now : ℚ)
  | finish (call : ℕ) (lookup : Lookup) (closes : Bool) (now : ℚ)

/-- What a call leaves in the log. -/
def logged (account : Account) (now : ℚ) : Lookup → List Attempt
  | .absent => [⟨account, now, true⟩]
  | .found verified => [⟨account, now, !verified⟩]
  | .raises => []

namespace AuthSystem

variable (settings : LockoutSettings) (s : AuthSystem)

/-- One step. -/
def step : AuthEvent → Option AuthSystem
  | .start account now =>
    if s.clock ≤ now then
      let locked := s.manager.isLockedOut settings account.email
      some { s with
        clock := now
        calls := if locked then s.calls else s.calls ++ [account]
        answers :=
          ⟨account, (recentFailures settings s.log account now).length, locked⟩ :: s.answers }
    else none
  | .finish call lookup closes now =>
    match s.calls[call]? with
    | none => none
    | some account =>
      if s.clock ≤ now then
        some { s with
          manager := (s.manager.checkUser settings account.email lookup closes now).1
          clock := now
          calls := s.calls.eraseIdx call
          log := logged account now lookup ++ s.log }
      else none

end AuthSystem

/-- A new manager. -/
def authMachine (settings : LockoutSettings) : Machine AuthSystem AuthEvent where
  init := {}
  step := AuthSystem.step settings

/-! ## What the manager holds -/

section Log

variable {settings : LockoutSettings} {log : List Attempt} {p : Attempt → Bool} {a : Attempt}

theorem sinceSuccess_cons_of_neg (h : p a = false) :
    sinceSuccess p (a :: log) = sinceSuccess p log := by
  unfold sinceSuccess
  rw [List.filter_cons_of_neg (by simp [h])]

theorem sinceSuccess_failure (h : p a = true) (hfailed : a.failed = true) :
    sinceSuccess p (a :: log) = a :: sinceSuccess p log := by
  unfold sinceSuccess
  rw [List.filter_cons_of_pos h, List.takeWhile_cons_of_pos hfailed]

theorem sinceSuccess_success (h : p a = true) (hfailed : a.failed = false) :
    sinceSuccess p (a :: log) = [] := by
  unfold sinceSuccess
  rw [List.filter_cons_of_pos h, List.takeWhile_cons_of_neg (by simp [hfailed])]

theorem mem_of_mem_sinceSuccess (h : a ∈ sinceSuccess p log) : a ∈ log :=
  List.mem_of_mem_filter ((List.takeWhile_sublist _).subset h)

theorem held_of_nil {email : String} (h : sinceSuccess (ofEmail email) log = []) :
    held settings log email = [] := by
  unfold held
  rw [h]

theorem held_of_cons {email : String} {rest : List Attempt}
    (h : sinceSuccess (ofEmail email) log = a :: rest) :
    held settings log email = (a :: rest).filter (recent settings a.time) := by
  unfold held
  rw [h]

theorem held_congr {log' : List Attempt} {email : String}
    (h : sinceSuccess (ofEmail email) log' = sinceSuccess (ofEmail email) log) :
    held settings log' email = held settings log email := by
  unfold held
  rw [h]

/-- What is recent was recent before. -/
theorem recent_of_le {now later : ℚ} (h : now ≤ later) (ha : recent settings later a = true) :
    recent settings now a = true := by
  unfold recent at ha ⊢
  rw [decide_eq_true_eq] at ha ⊢
  linarith

end Log

/-- The manager holds what the log says, which is in the order of time. -/
structure Recorded (settings : LockoutSettings) (s : AuthSystem) : Prop where
  attempts : ∀ email, s.manager.failedAttempts.get? email =
    if sinceSuccess (ofEmail email) s.log = [] then none
    else some ((held settings s.log email).map Attempt.time).reverse
  ordered : s.log.Pairwise fun a b => b.time ≤ a.time
  past : ∀ a ∈ s.log, a.time ≤ s.clock

section Steps

variable {settings : LockoutSettings} {s t : AuthSystem} {e : AuthEvent}

theorem Recorded.getD_attempts (h : Recorded settings s) (email : String) :
    s.manager.failedAttempts.getD email [] =
      ((held settings s.log email).map Attempt.time).reverse := by
  unfold Dict.getD
  rw [h.attempts email]
  split_ifs with hnil
  · rw [held_of_nil hnil]
    rfl
  · rfl

theorem Recorded.isLockedOut (h : Recorded settings s) (email : String) :
    s.manager.isLockedOut settings email = true ↔
      settings.maxFailedAttempts ≤ (held settings s.log email).length := by
  unfold AuthenticationManager.isLockedOut
  rw [h.attempts email]
  by_cases hnil : sinceSuccess (ofEmail email) s.log = []
  · rw [if_pos hnil, held_of_nil hnil]
    exact iff_of_false Bool.false_ne_true (Nat.not_le.mpr settings.enabled)
  · simp [hnil]

/-- What the manager holds after a failure : the attempts that are still recent, and the new
one. -/
theorem Recorded.held_failure (h : Recorded settings s) (account : Account) {now : ℚ}
    (hnow : s.clock ≤ now) :
    held settings (⟨account, now, true⟩ :: s.log) account.email =
      (⟨account, now, true⟩ :: held settings s.log account.email).filter
        (recent settings now) := by
  rw [held_of_cons (sinceSuccess_failure (by simp [ofEmail]) rfl)]
  cases hsince : sinceSuccess (ofEmail account.email) s.log with
  | nil => rw [held_of_nil hsince]
  | cons a rest =>
    have hle : a.time ≤ now := by
      have ha : a ∈ s.log := mem_of_mem_sinceSuccess (hsince ▸ List.mem_cons_self)
      exact (h.past a ha).trans hnow
    have hfilter : (a :: rest).filter (recent settings now) = (a :: rest).filter fun b =>
        recent settings now b && recent settings a.time b := by
      refine List.filter_congr fun b _ => ?_
      cases hb : recent settings now b with
      | false => rfl
      | true => rw [recent_of_le hle hb, Bool.and_true]
    have hheld : (held settings s.log account.email).filter (recent settings now) =
        (a :: rest).filter (recent settings now) := by
      rw [held_of_cons hsince, List.filter_filter, ← hfilter]
    change List.filter (recent settings now) ([⟨account, now, true⟩] ++ (a :: rest)) =
      List.filter (recent settings now)
        ([⟨account, now, true⟩] ++ held settings s.log account.email)
    rw [List.filter_append, List.filter_append, hheld]

/-- An attempt concerns the attempts of its own email only. -/
theorem Recorded.cons (h : Recorded settings s) {manager : AuthenticationManager}
    (a : Attempt) (hnow : s.clock ≤ a.time) (calls : List Account)
    (hothers : ∀ email, email ≠ a.account.email →
      manager.failedAttempts.get? email = s.manager.failedAttempts.get? email)
    (hown : manager.failedAttempts.get? a.account.email =
      if sinceSuccess (ofEmail a.account.email) (a :: s.log) = [] then none
      else some ((held settings (a :: s.log) a.account.email).map Attempt.time).reverse) :
    Recorded settings { s with manager, clock := a.time, calls, log := a :: s.log } where
  attempts email := by
    by_cases he : email = a.account.email
    · subst he
      exact hown
    · have hsame : sinceSuccess (ofEmail email) (a :: s.log) =
          sinceSuccess (ofEmail email) s.log :=
        sinceSuccess_cons_of_neg (by simp [ofEmail, Ne.symm he])
      rw [hothers email he, hsame, held_congr hsame]
      exact h.attempts email
  ordered := List.pairwise_cons.mpr ⟨fun b hb => (h.past b hb).trans hnow, h.ordered⟩
  past b hb := by
    rcases List.mem_cons.mp hb with rfl | hb
    · exact le_rfl
    · exact (h.past b hb).trans hnow

theorem Recorded.recordFailedAttempt (h : Recorded settings s) (account : Account) {now : ℚ}
    (hnow : s.clock ≤ now) (calls : List Account) :
    Recorded settings { s with
      manager := s.manager.recordFailedAttempt settings account.email now
      clock := now
      calls
      log := ⟨account, now, true⟩ :: s.log } := by
  have hlist : s.manager.failedAttempts.getD account.email [] ++ [now] =
      ((⟨account, now, true⟩ :: held settings s.log account.email).map Attempt.time).reverse := by
    rw [h.getD_attempts, List.map_cons, List.reverse_cons]
  refine h.cons ⟨account, now, true⟩ hnow calls (fun email he => ?_) ?_
  · simp only [AuthenticationManager.recordFailedAttempt, Dict.get?_set, if_neg he]
  · simp only [AuthenticationManager.recordFailedAttempt, Dict.get?_set_self]
    rw [sinceSuccess_failure (by simp [ofEmail]) rfl, if_neg (by simp),
      h.held_failure account hnow, hlist, List.filter_reverse, List.filter_map]
    rfl

theorem Recorded.resetFailedAttempts (h : Recorded settings s) (account : Account) {now : ℚ}
    (hnow : s.clock ≤ now) (calls : List Account) :
    Recorded settings { s with
      manager := s.manager.resetFailedAttempts account.email
      clock := now
      calls
      log := ⟨account, now, false⟩ :: s.log } := by
  refine h.cons ⟨account, now, false⟩ hnow calls (fun email he => ?_) ?_
  · simp only [AuthenticationManager.resetFailedAttempts, Dict.get?_erase, if_neg he]
  · simp only [AuthenticationManager.resetFailedAttempts, Dict.get?_erase]
    rw [sinceSuccess_success (by simp [ofEmail]) rfl]
    rfl

theorem Recorded.step (h : Recorded settings s) (hst : s.step settings e = some t) :
    Recorded settings t := by
  cases e with
  | start account now =>
    simp only [AuthSystem.step, Option.ite_none_right_eq_some] at hst
    obtain ⟨hnow, hst⟩ := hst
    obtain rfl := Option.some.inj hst
    exact ⟨h.attempts, h.ordered, fun a ha => (h.past a ha).trans hnow⟩
  | finish call lookup closes now =>
    simp only [AuthSystem.step] at hst
    split at hst
    · cases hst
    · rename_i account hcall
      split_ifs at hst with hnow
      obtain rfl := Option.some.inj hst
      cases lookup with
      | absent => exact h.recordFailedAttempt account hnow _
      | found verified =>
        cases verified with
        | false => exact h.recordFailedAttempt account hnow _
        | true => exact h.resetFailedAttempts account hnow _
      | raises => exact ⟨h.attempts, h.ordered, fun a ha => (h.past a ha).trans hnow⟩

end Steps

end Authentication

end MultiAgent
