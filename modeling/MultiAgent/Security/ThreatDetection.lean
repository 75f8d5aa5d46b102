import Mathlib.Algebra.Order.Field.Rat
import Mathlib.Algebra.Order.Group.Defs
import MultiAgent.Lib.BoundedDeque
import MultiAgent.Lib.Dict

/-!
# Brute force detection

`detect_brute_force` of `libs/security/threat_detection.py`. A failure is flagged if five
failures of the address, this one included, lie less than 300 seconds back. The detector keeps
the last ten failures of each address since its last success, in a deque.

At nondecreasing times the recent failures are the last ones, and ten of them are enough to see
whether there are five. So the detector flags what the whole history says (`flagged`), and counts
what it flagged (`detects`).
-/

namespace MultiAgent

namespace ThreatDetection

open BoundedDeque

/-- A call of `detect_brute_force` at the time `now`. -/
structure Call where
  now : ℚ
  ipAddress : String
  success : Bool := false
  deriving DecidableEq

/-- The tables of `ThreatDetector` that `detect_brute_force` uses. -/
structure ThreatDetector where
  failedAttempts : Dict String (List ℚ) := .empty
  suspiciousIps : Dict String ℕ := .empty

/-- A failure at the time `attempt` is recent at the time `now`. -/
def recent (now attempt : ℚ) : Bool :=
  now - attempt < 300

namespace ThreatDetector

/-- `detect_brute_force`. -/
def detectBruteForce (d : ThreatDetector) (c : Call) : ThreatDetector × Bool :=
  if c.success then
    ({ d with failedAttempts := d.failedAttempts.set c.ipAddress [] }, false)
  else
    let attempts := push 10 (d.failedAttempts.getD c.ipAddress []) c.now
    let failedAttempts := d.failedAttempts.set c.ipAddress attempts
    let recentFailures := attempts.filter (recent c.now)
    if 5 ≤ recentFailures.length then
      let count := d.suspiciousIps.getD c.ipAddress 0 + 1
      ({ failedAttempts, suspiciousIps := d.suspiciousIps.set c.ipAddress count }, true)
    else ({ d with failedAttempts }, false)

/-- The detector after some calls. -/
def after (calls : List Call) : ThreatDetector :=
  calls.foldl (fun d c => (d.detectBruteForce c).1) {}

end ThreatDetector

/-! ## The whole history -/

/-- The times of the failures of an address after its last success. -/
def failures (ipAddress : String) (calls : List Call) : List ℚ :=
  ((calls.filter fun c => c.ipAddress = ipAddress).rtakeWhile fun c => !c.success).map Call.now

/-- The call is a failure after which at least five failures of its address since the last
success are recent. -/
def flagged (before : List Call) (c : Call) : Bool :=
  !c.success && 5 ≤ (failures c.ipAddress (before ++ [c])).countP (recent c.now)

/-- The number of flagged failures of an address. -/
def flaggedCount (ipAddress : String) (calls : List Call) : ℕ :=
  (List.range calls.length).countP fun k =>
    (calls[k]?).any fun c => c.ipAddress = ipAddress && flagged (calls.take k) c

/-- Each call is answered as the whole history says, and the flagged failures are counted, from
at most ten failures for each address. -/
structure Detects (calls : List Call) : Prop where
  bounded : ∀ before rest ipAddress, calls = before ++ rest →
    ((ThreatDetector.after before).failedAttempts.getD ipAddress []).length ≤ 10
  answers : ∀ before c rest, calls = before ++ c :: rest →
    ((ThreatDetector.after before).detectBruteForce c).2 = flagged before c
  counts : ∀ before rest ipAddress, calls = before ++ rest →
    (ThreatDetector.after before).suspiciousIps.getD ipAddress 0 = flaggedCount ipAddress before

variable {calls before : List Call} {c : Call} {ip : String}

theorem failures_append_of_ne (h : c.ipAddress ≠ ip) :
    failures ip (calls ++ [c]) = failures ip calls := by
  unfold failures
  rw [List.filter_append, List.filter_cons_of_neg (by simpa using h), List.filter_nil,
    List.append_nil]

theorem failures_append_success (h : c.success = true) :
    failures c.ipAddress (calls ++ [c]) = [] := by
  unfold failures
  rw [List.filter_append, List.filter_cons_of_pos (by simp), List.filter_nil,
    List.rtakeWhile_concat_neg _ _ _ (by simp [h]), List.map_nil]

theorem failures_append_failure (h : c.success = false) :
    failures c.ipAddress (calls ++ [c]) = failures c.ipAddress calls ++ [c.now] := by
  unfold failures
  rw [List.filter_append, List.filter_cons_of_pos (by simp), List.filter_nil,
    List.rtakeWhile_concat_pos _ _ _ (by simp [h]), List.map_append, List.map_singleton]

/-- The failures are in the order of their times. -/
theorem pairwise_failures (h : calls.Pairwise fun a b => a.now ≤ b.now) :
    (failures ip calls).Pairwise (· ≤ ·) := by
  unfold failures
  rw [List.pairwise_map]
  exact (h.sublist List.filter_sublist).sublist (List.rtakeWhile_suffix _ _).sublist

theorem recent_of_le {now a b : ℚ} (hab : a ≤ b) (h : recent now a = true) :
    recent now b = true := by
  unfold recent at h ⊢
  rw [decide_eq_true_eq] at h ⊢
  exact lt_of_le_of_lt (sub_le_sub_left hab now) h

/-- Ten failures are enough to see whether five are recent. -/
theorem five_le_recent_iff {l : List ℚ} (h : l.Pairwise (· ≤ ·)) (now : ℚ) :
    5 ≤ ((l.rtake 10).filter (recent now)).length ↔ 5 ≤ l.countP (recent now) := by
  have hrecent : l.Pairwise fun a b => recent now a = true → recent now b = true :=
    h.imp fun hab => recent_of_le hab
  rw [← List.countP_eq_length_filter, countP_rtake hrecent]
  omega

theorem flaggedCount_append : flaggedCount ip (calls ++ [c]) =
    flaggedCount ip calls + if c.ipAddress = ip ∧ flagged calls c = true then 1 else 0 := by
  unfold flaggedCount
  rw [List.length_append, List.length_singleton, List.range_succ, List.countP_append,
    List.countP_singleton]
  have hlast : ((calls ++ [c])[calls.length]?).any (fun a =>
      decide (a.ipAddress = ip) && flagged ((calls ++ [c]).take calls.length) a) = true ↔
        c.ipAddress = ip ∧ flagged calls c = true := by
    rw [List.getElem?_concat_length, List.take_left]
    simp
  have hbefore : ∀ k ∈ List.range calls.length,
      ((calls ++ [c])[k]?).any (fun a =>
        decide (a.ipAddress = ip) && flagged ((calls ++ [c]).take k) a) = true ↔
          (calls[k]?).any (fun a =>
            decide (a.ipAddress = ip) && flagged (calls.take k) a) = true := by
    intro k hk
    have hlt := List.mem_range.mp hk
    rw [List.getElem?_append_left hlt, List.take_append_of_le_length hlt.le]
  rw [List.countP_congr hbefore]
  simp only [hlast]

namespace ThreatDetector

/-- What the detector keeps of a history. -/
structure Keeps (d : ThreatDetector) (calls : List Call) : Prop where
  attempts : ∀ ip, d.failedAttempts.getD ip [] = (failures ip calls).rtake 10
  counts : ∀ ip, d.suspiciousIps.getD ip 0 = flaggedCount ip calls

/-- A call is answered from what the detector keeps, which stays up to date. -/
theorem Keeps.detect {d : ThreatDetector} (h : d.Keeps calls)
    (htimes : (calls ++ [c]).Pairwise fun a b => a.now ≤ b.now) :
    (d.detectBruteForce c).2 = flagged calls c ∧
      (d.detectBruteForce c).1.Keeps (calls ++ [c]) := by
  cases hsuccess : c.success with
  | true =>
    have hnot : flagged calls c = false := by simp [flagged, hsuccess]
    unfold detectBruteForce
    rw [if_pos hsuccess, hnot]
    refine ⟨rfl, fun ip => ?_, fun ip => ?_⟩
    · rw [Dict.getD_set]
      split_ifs with hip
      · rw [hip, failures_append_success hsuccess, List.rtake_nil]
      · rw [failures_append_of_ne (Ne.symm hip), h.attempts]
    · rw [flaggedCount_append, hnot, h.counts]
      simp
  | false =>
    have hattempts : push 10 (d.failedAttempts.getD c.ipAddress []) c.now =
        (failures c.ipAddress (calls ++ [c])).rtake 10 := by
      rw [h.attempts, push_rtake, failures_append_failure hsuccess]
    have hstored : ∀ ip, (d.failedAttempts.set c.ipAddress
        ((failures c.ipAddress (calls ++ [c])).rtake 10)).getD ip [] =
          (failures ip (calls ++ [c])).rtake 10 := by
      intro ip
      rw [Dict.getD_set]
      split_ifs with hip
      · rw [hip]
      · rw [failures_append_of_ne (Ne.symm hip), h.attempts]
    have hflagged : 5 ≤ (((failures c.ipAddress (calls ++ [c])).rtake 10).filter
        (recent c.now)).length ↔ flagged calls c = true := by
      rw [five_le_recent_iff (pairwise_failures htimes)]
      simp [flagged, hsuccess]
    unfold detectBruteForce
    rw [if_neg (by simp [hsuccess])]
    dsimp only
    rw [hattempts]
    split_ifs with hfive
    · have hyes := hflagged.mp hfive
      refine ⟨hyes.symm, hstored, fun ip => ?_⟩
      rw [Dict.getD_set, flaggedCount_append, hyes]
      split_ifs with hip hip' hip'
      · rw [hip, h.counts]
      · exact absurd ⟨hip.symm, rfl⟩ hip'
      · exact absurd hip'.1.symm hip
      · exact h.counts ip
    · have hno : flagged calls c = false := Bool.eq_false_iff.mpr (mt hflagged.mpr hfive)
      refine ⟨hno.symm, hstored, fun ip => ?_⟩
      rw [flaggedCount_append, hno, h.counts]
      simp

theorem after_append (calls : List Call) (c : Call) :
    after (calls ++ [c]) = ((after calls).detectBruteForce c).1 := by
  unfold after
  rw [List.foldl_append]
  rfl

theorem keeps_after (h : calls.Pairwise fun a b => a.now ≤ b.now) : (after calls).Keeps calls := by
  induction calls using List.reverseRecOn with
  | nil => exact ⟨fun _ => rfl, fun _ => rfl⟩
  | append_singleton calls c ih =>
    rw [after_append]
    exact ((ih (List.pairwise_append.mp h).1).detect h).2

end ThreatDetector

/-- At nondecreasing times the detector answers and counts as the whole history says. -/
theorem detects (h : calls.Pairwise fun a b => a.now ≤ b.now) : Detects calls where
  bounded before rest ip hcalls := by
    rw [hcalls] at h
    rw [(ThreatDetector.keeps_after (List.pairwise_append.mp h).1).attempts]
    exact length_rtake_le 10 _
  answers before c rest hcalls := by
    rw [hcalls] at h
    have hc : (before ++ [c]).Pairwise fun a b => a.now ≤ b.now :=
      h.sublist (List.Sublist.append_left (by simp) before)
    exact ((ThreatDetector.keeps_after (List.pairwise_append.mp h).1).detect hc).1
  counts before rest ip hcalls := by
    rw [hcalls] at h
    exact (ThreatDetector.keeps_after (List.pairwise_append.mp h).1).counts ip

/-- Twelve failures ten seconds apart. -/
def attack : List Call :=
  (List.range 12).map fun k => { now := 10 * k, ipAddress := "192.0.2.7" }

theorem detects_attack : attack.Pairwise (fun a b => a.now ≤ b.now) ∧ Detects attack := by
  have htimes : attack.Pairwise fun a b => a.now ≤ b.now := by decide +kernel
  exact ⟨htimes, detects htimes⟩

end ThreatDetection

end MultiAgent
