import MultiAgent.Reliability.ToolAdapter

/-!
# The ledgers of the tool adapter

Three ledgers tell how the executes stand : the local write-ahead log, the counters, and
the executes themselves. `Ledgers` says how they agree at any moment, and
`keepsLedgers` that in every state in which no execute is between its log update and its
counter update the requested entries are the executes in flight past the check, and the
others add up.

An execute that ends with a `CancelledError` leaves all three as they are : no handler of
`execute` sees it. `NeverCancelled` excludes that, also where the tool raises it of its own
accord (`not_keepsLedgers`).
-/

namespace MultiAgent

namespace BaseAdapter

namespace Phase

/-- The execute is in flight and past the idempotency check. -/
def pastCheck : Phase → Bool
  | .lookup _ => false
  | x => x.inFlight

/-- The execute is between its log update and its counter update. -/
def updating : Phase → Bool
  | .loggingSuccess _ => true
  | .storing _ _ => true
  | .loggingFailure _ => true
  | _ => false

/-- The execute returned a cached result. -/
def isHit : Phase → Bool
  | .hit _ => true
  | _ => false

/-- The execute returned a result of its own. -/
def isReturned : Phase → Bool
  | .returned _ => true
  | _ => false

/-- The execute raised. -/
def isRaised : Phase → Bool
  | .raised _ => true
  | _ => false

/-- The execute was cancelled, or its task was. -/
def isCancelled : Phase → Bool
  | .ended .cancelled => true
  | .cancelled => true
  | _ => false

/-- The status of the entry of the execute. -/
def logStatus : Phase → Option LogStatus
  | .lookup _ => none
  | .hit _ => none
  | .loggingSuccess _ => some .succeeded
  | .storing _ _ => some .succeeded
  | .returned _ => some .succeeded
  | .loggingFailure _ => some .failed
  | .raised _ => some .failed
  | _ => some .requested

theorem logStatus_of_inside {x : Phase} (h : x.inside = true) :
    x.logStatus = some .requested ∧ x.isReturned = false ∧ x.isRaised = false := by
  unfold inside at h
  split at h <;> simp_all [logStatus, isReturned, isRaised]

theorem isCancelled_of_inside {x : Phase} (h : x.inside = true) : x.isCancelled = false := by
  unfold inside at h
  split at h <;> simp_all [isCancelled]

end Phase

namespace ToolSystem

/-- The number of entries of the local log with a status. -/
def entries (s : ToolSystem) (status : LogStatus) : ℕ :=
  s.adapter.localLog.countP fun entry => entry.status = status

/-- The number of executes at a kind of phase. -/
def count (s : ToolSystem) (p : Phase → Bool) : ℕ :=
  s.calls.countP fun c => p c.phase

/-- The ledgers agree. -/
structure LedgersAgree (s : ToolSystem) : Prop where
  requested : s.entries .requested = s.count Phase.pastCheck
  succeeded : s.entries .succeeded = s.adapter.successfulCalls
  failed : s.entries .failed = s.adapter.failedCalls
  total : s.adapter.totalCalls = s.adapter.successfulCalls + s.adapter.failedCalls +
    s.count Phase.isHit + s.count Phase.inFlight

end ToolSystem

/-- In the runs over `ok`, the ledgers agree in every state in which no execute is between
its log update and its counter update. -/
def KeepsLedgers (cfg : AdapterConfig) (redis : Bool) (ok : ToolSystem → ToolEvent → Prop) :
    Prop :=
  ∀ es s, (toolMachine cfg redis).Run ok es s → (∀ c ∈ s.calls, c.phase.updating = false) →
    s.LedgersAgree

/-- No tool ends with a `CancelledError` of its own. -/
def NeverCancelled (_ : ToolSystem) : ToolEvent → Prop
  | .act _ (.ended .cancelled _) => False
  | _ => True

/-- Each entry of the log is that of the execute with its number, each execute is counted,
and none was cancelled. -/
structure Ledgers (s : ToolSystem) : Prop where
  log : ∀ j, (s.adapter.localLog.get? j).map WriteAheadLog.status =
    (s.calls[j]?).bind fun c => c.phase.logStatus
  total : s.adapter.totalCalls = s.calls.length
  successful : s.adapter.successfulCalls = s.count Phase.isReturned
  failed : s.adapter.failedCalls = s.count Phase.isRaised
  never : ∀ c ∈ s.calls, c.phase.isCancelled = false

namespace Ledgers

open Json (Value)

variable {s t u : ToolSystem} {k : ℕ} {key : String} {x y : Phase}

theorem congr (h : Ledgers s) (ha : t.adapter = s.adapter) (hc : t.calls = s.calls) :
    Ledgers t where
  log j := by rw [ha, hc, h.log]
  total := by rw [ha, hc, h.total]
  successful := by
    unfold ToolSystem.count
    rw [ha, hc, h.successful]
    rfl
  failed := by
    unfold ToolSystem.count
    rw [ha, hc, h.failed]
    rfl
  never := by rw [hc]; exact h.never

theorem untouched (h : Ledgers s) (hu : s.Untouched u) : Ledgers u where
  log j := by rw [hu.log, hu.calls, h.log]
  total := by rw [hu.total, hu.calls, h.total]
  successful := by
    unfold ToolSystem.count
    rw [hu.successful, hu.calls, h.successful]
    rfl
  failed := by
    unfold ToolSystem.count
    rw [hu.failed, hu.calls, h.failed]
    rfl
  never := by rw [hu.calls]; exact h.never

theorem log_at (h : Ledgers s) (hk : s.calls[k]? = some ⟨key, x⟩) :
    (s.adapter.localLog.get? k).map WriteAheadLog.status = x.logStatus := by
  rw [h.log k, hk, Option.bind_some]

/-- The `k`-th execute goes from `x` to `y`, and log and counters follow. -/
theorem change (h : Ledgers s) (hk : s.calls[k]? = some ⟨key, x⟩)
    (hcalls : t.calls = s.calls.set k ⟨key, y⟩) (hy : y.isCancelled = false)
    (hlog : ∀ j, (t.adapter.localLog.get? j).map WriteAheadLog.status =
      if j = k then y.logStatus else (s.adapter.localLog.get? j).map WriteAheadLog.status)
    (htotal : t.adapter.totalCalls = s.adapter.totalCalls)
    (hsuccessful : t.adapter.successfulCalls + (if x.isReturned then 1 else 0) =
      s.adapter.successfulCalls + if y.isReturned then 1 else 0)
    (hfailed : t.adapter.failedCalls + (if x.isRaised then 1 else 0) =
      s.adapter.failedCalls + if y.isRaised then 1 else 0) : Ledgers t where
  log j := by
    obtain ⟨hlt, -⟩ := List.getElem?_eq_some_iff.mp hk
    rw [hlog, hcalls]
    by_cases hj : j = k
    · subst hj
      rw [if_pos rfl, List.getElem?_set_self hlt, Option.bind_some]
    · rw [if_neg hj, List.getElem?_set_ne (Ne.symm hj), h.log]
  total := by rw [htotal, hcalls, List.length_set, h.total]
  successful := by
    have hcount := countP_set_add (fun c : Execute => c.phase.isReturned) hk (y := ⟨key, y⟩)
    have hold := h.successful
    unfold ToolSystem.count at hold ⊢
    rw [hcalls]
    dsimp only at hcount
    omega
  failed := by
    have hcount := countP_set_add (fun c : Execute => c.phase.isRaised) hk (y := ⟨key, y⟩)
    have hold := h.failed
    unfold ToolSystem.count at hold ⊢
    rw [hcalls]
    dsimp only at hcount
    omega
  never c hc := by
    rw [hcalls] at hc
    rcases List.mem_or_eq_of_mem_set hc with hc | rfl
    · exact h.never c hc
    · exact hy

/-- The log and the counters stay as they are. -/
theorem goTo (h : Ledgers s) (hk : s.calls[k]? = some ⟨key, x⟩) (hy : y.isCancelled = false)
    (hlog : y.logStatus = x.logStatus) (hreturned : y.isReturned = x.isReturned)
    (hraised : y.isRaised = x.isRaised) : Ledgers (s.goTo k key y) := by
  refine h.change hk rfl hy (fun j => ?_) rfl (by rw [hreturned]; rfl) (by rw [hraised]; rfl)
  split_ifs with hj
  · rw [hj, hlog]
    exact h.log_at hk
  · rfl

theorem within (h : Ledgers s) (hk : s.calls[k]? = some ⟨key, x⟩) (hx : x.inside = true)
    (hw : s.Within k key t) : Ledgers t := by
  obtain ⟨u, y, hu, hy, rfl⟩ := hw
  obtain ⟨hxlog, hxr, hxe⟩ := Phase.logStatus_of_inside hx
  obtain ⟨hylog, hyr, hye⟩ := Phase.logStatus_of_inside hy
  refine (h.untouched hu).goTo (by rw [hu.calls, hk]) ?_ (by rw [hxlog, hylog]) (by rw [hxr, hyr])
    (by rw [hxe, hye])
  exact Phase.isCancelled_of_inside hy

theorem logRequest (h : Ledgers s) {v : Option Value} (hk : s.calls[k]? = some ⟨key, .lookup v⟩) :
    Ledgers (s.logRequest k key) := by
  have hlogged : ∀ y : Phase, y.inside = true → Ledgers ((s.update fun a =>
      { a with localLog := a.localLog.set k { status := .requested } }).goTo k key y) := by
    intro y hy
    obtain ⟨hlog, hreturned, hraised⟩ := Phase.logStatus_of_inside hy
    refine h.change hk rfl (Phase.isCancelled_of_inside hy) (fun j => ?_) rfl ?_ ?_
    · simp only [ToolSystem.goTo, ToolSystem.update, Dict.get?_set, hlog]
      split_ifs <;> rfl
    · rw [hreturned]
      rfl
    · rw [hraised]
      rfl
  exact hlogged _ (by split_ifs <;> rfl)

theorem checked (h : Ledgers s) {v : Option Value} (hk : s.calls[k]? = some ⟨key, .lookup v⟩)
    (w : Value) : Ledgers (s.checked k key w) := by
  unfold ToolSystem.checked
  split_ifs
  · exact h.logRequest hk
  · exact h.goTo hk rfl rfl rfl rfl

theorem succeed (h : Ledgers s) (hk : s.calls[k]? = some ⟨key, x⟩)
    (hx : x.logStatus = some .succeeded) (hnot : x.isReturned = false ∧ x.isRaised = false)
    (r : Value) : Ledgers (s.succeed k key r) := by
  refine h.change hk rfl rfl (fun j => ?_) rfl ?_ ?_
  · split_ifs with hj
    · rw [hj]
      exact (h.log_at hk).trans hx
    · rfl
  · rw [hnot.1]
    rfl
  · rw [hnot.2]
    rfl

theorem storeResult (h : Ledgers s) {r : Value}
    (hk : s.calls[k]? = some ⟨key, .loggingSuccess r⟩) : Ledgers (s.storeResult k key r) := by
  have hcached : Ledgers (s.update fun a => { a with localCache := a.localCache.set key r }) :=
    ⟨h.log, h.total, h.successful, h.failed, h.never⟩
  unfold ToolSystem.storeResult
  dsimp only
  split_ifs
  · exact hcached.goTo hk rfl rfl rfl rfl
  · exact hcached.succeed hk rfl ⟨rfl, rfl⟩ r

theorem fail (h : Ledgers s) {e : ToolError} (hk : s.calls[k]? = some ⟨key, .loggingFailure e⟩) :
    Ledgers (s.fail k key e) := by
  refine h.change hk rfl rfl (fun j => ?_) rfl rfl rfl
  split_ifs with hj
  · rw [hj]
    exact (h.log_at hk).trans rfl
  · rfl

/-- The entry of an execute whose task has ended gets its final status. -/
theorem updateLog (h : Ledgers s) {outcome : TaskEnd}
    (hk : s.calls[k]? = some ⟨key, .ended outcome⟩) {f : WriteAheadLog → WriteAheadLog}
    {status : LogStatus} (hf : ∀ entry, (f entry).status = status)
    (hy : y.isCancelled = false ∧ y.isReturned = false ∧ y.isRaised = false)
    (hlog : y.logStatus = some status) : Ledgers ((s.updateLog k f).goTo k key y) := by
  have hold : (s.adapter.localLog.get? k).map WriteAheadLog.status = some .requested :=
    h.log_at hk
  obtain ⟨entry, hentry, -⟩ := Option.map_eq_some_iff.mp hold
  unfold ToolSystem.updateLog
  rw [hentry]
  refine h.change hk rfl hy.1 (fun j => ?_) rfl ?_ ?_
  · simp only [ToolSystem.goTo, ToolSystem.update, Dict.get?_set]
    split_ifs
    · rw [Option.map_some, hf, hlog]
    · rfl
  · rw [hy.2.1]
    rfl
  · rw [hy.2.2]
    rfl

theorem logSuccess (h : Ledgers s) {r : Value}
    (hk : s.calls[k]? = some ⟨key, .ended (.returned r)⟩) : Ledgers (s.logSuccess k key r) := by
  have hlogged := h.updateLog hk (y := .loggingSuccess r) (f := fun entry =>
    { entry with status := .succeeded, result := some r }) (fun _ => rfl) ⟨rfl, rfl, rfl⟩ rfl
  unfold ToolSystem.logSuccess
  dsimp only
  split_ifs
  · exact hlogged
  · rw [← ToolSystem.storeResult_goTo (.loggingSuccess r)]
    exact hlogged.storeResult (ToolSystem.getElem?_goTo (by simpa using hk) _)

theorem logFailure (h : Ledgers s) {outcome : TaskEnd}
    (hk : s.calls[k]? = some ⟨key, .ended outcome⟩) (e : ToolError) :
    Ledgers (s.logFailure k key e) := by
  have hlogged := h.updateLog hk (y := .loggingFailure e) (f := fun entry =>
    { entry with status := .failed, error := some e.text }) (fun _ => rfl) ⟨rfl, rfl, rfl⟩ rfl
  unfold ToolSystem.logFailure
  dsimp only
  split_ifs
  · exact hlogged
  · rw [← ToolSystem.fail_goTo (.loggingFailure e)]
    exact hlogged.fail (ToolSystem.getElem?_goTo (by simpa using hk) _)

theorem beginExecute (h : Ledgers s) (key : String) : Ledgers (s.beginExecute key) := by
  let u : ToolSystem := { s.update fun a => { a with totalCalls := a.totalCalls + 1 } with
    calls := s.calls ++ [Execute.mk key (.lookup none)] }
  have hnew : u.calls[s.calls.length]? = some ⟨key, .lookup none⟩ := by simp [u]
  have hcount : ∀ p : Phase → Bool, p (.lookup none) = false → u.count p = s.count p :=
    fun p hp => by simp [u, ToolSystem.count, hp]
  have hu : Ledgers u := by
    refine ⟨fun j => ?_, ?_, ?_, ?_, fun c hc => ?_⟩
    · have hold := h.log j
      rcases Nat.lt_trichotomy j s.calls.length with hj | hj | hj
      · simpa [u, ToolSystem.update, List.getElem?_append_left hj] using hold
      · subst hj
        simpa [u, ToolSystem.update, Phase.logStatus] using hold
      · have hge : s.calls.length + 1 ≤ j := hj
        have hnone : s.calls[j]? = none := List.getElem?_eq_none (Nat.le_of_lt hj)
        have hnone' : u.calls[j]? = none := List.getElem?_eq_none (by simpa [u] using hge)
        rw [hnone] at hold
        rw [hnone']
        exact hold
    · simp [u, ToolSystem.update, h.total]
    · rw [hcount _ rfl]
      exact h.successful
    · rw [hcount _ rfl]
      exact h.failed
    · rcases List.mem_append.mp hc with hc | hc
      · exact h.never c hc
      · rw [List.mem_singleton.mp hc]
        rfl
  unfold ToolSystem.beginExecute
  dsimp only
  split
  · exact hu.checked hnew _
  · split_ifs
    · exact hu
    · exact hu.checked hnew _

theorem step {e : ToolEvent} (h : Ledgers s) (hok : NeverCancelled s e)
    (hst : s.step e = some t) : Ledgers t := by
  cases e with
  | call key =>
    obtain rfl := Option.some.inj hst
    exact h.beginExecute key
  | redis key value =>
    cases value with
    | none => exact h.congr (Option.some.inj hst ▸ rfl) (Option.some.inj hst ▸ rfl)
    | some v => exact h.congr (Option.some.inj hst ▸ rfl) (Option.some.inj hst ▸ rfl)
  | act k action =>
    simp only [ToolSystem.step] at hst
    split at hst
    · rename_i c hk
      obtain ⟨key, x⟩ := c
      cases ToolSystem.effect_of_act hst with
      | served ok hs => exact hs ▸ h.goTo hk rfl rfl rfl rfl
      | checked v hs => exact hs ▸ h.checked hk v
      | within hx hw => exact h.within hk hx hw
      | completed n r now hc =>
        refine h.change hk hc.calls rfl (fun j => ?_) hc.untouched.total ?_ ?_
        · have hlog : t.adapter.localLog = s.adapter.localLog := hc.untouched.log
          rw [hlog]
          split_ifs with hj
          · rw [hj]
            exact (h.log_at hk).trans rfl
          · rfl
        · exact congrArg (· + 0) hc.untouched.successful
        · exact congrArg (· + 0) hc.untouched.failed
      | selfCancelled n now hs => exact hok.elim
      | reported outcome hs =>
        subst hs
        cases outcome with
        | returned r => exact h.logSuccess hk
        | raised e => exact h.logFailure hk e
        | cancelled =>
          exact absurd (h.never _ (List.mem_of_getElem? hk)) (by simp [Phase.isCancelled])
      | loggedSuccess r hs => exact hs ▸ h.storeResult hk
      | stored r ok hs =>
        subst hs
        obtain ⟨ha, hc, -⟩ := s.redisStore_eq key r
        cases ok with
        | true => exact (h.congr ha hc).goTo (x := .storing r false) (hc ▸ hk) rfl rfl rfl rfl
        | false => exact h.goTo (x := .storing r false) hk rfl rfl rfl rfl
      | succeeded r hs => exact hs ▸ h.succeed hk rfl ⟨rfl, rfl⟩ r
      | loggedFailure e hs => exact hs ▸ h.fail hk
    · cases hst

theorem init (cfg : AdapterConfig) (redis : Bool) : Ledgers (toolMachine cfg redis).init where
  log j := by
    cases redis <;> rfl
  total := rfl
  successful := rfl
  failed := rfl
  never c hc := by cases hc

theorem of_run {cfg : AdapterConfig} {redis : Bool} {es : List ToolEvent}
    (h : (toolMachine cfg redis).Run NeverCancelled es s) : Ledgers s :=
  h.invariant (init cfg redis) fun _ _ _ hs hok hst => hs.step hok hst

/-- The entries with a status are the executes at a phase that has it. -/
theorem entries_eq (h : Ledgers s) (status : LogStatus) :
    s.entries status = s.count fun x => x.logStatus = some status := by
  unfold ToolSystem.entries ToolSystem.count
  rw [← Dict.countP_keys _ _ List.nodup_range (l := List.range s.calls.length),
    ← countP_range_getElem? (fun c : Execute => decide (c.phase.logStatus = some status)) s.calls]
  · refine List.countP_congr fun j _ => ?_
    have hlog := h.log j
    cases hentry : s.adapter.localLog.get? j with
    | none =>
      rw [hentry] at hlog
      cases hcall : s.calls[j]? with
      | none => simp
      | some c =>
        rw [hcall] at hlog
        have hnone : c.phase.logStatus = none := hlog.symm
        simp [hnone]
    | some entry =>
      rw [hentry] at hlog
      cases hcall : s.calls[j]? with
      | none =>
        rw [hcall] at hlog
        cases hlog
      | some c =>
        rw [hcall] at hlog
        have hsome : c.phase.logStatus = some entry.status := hlog.symm
        simp [hsome]
  · intro j hj
    obtain ⟨entry, hentry⟩ := Dict.mem_iff_get?.mp hj
    have hlog := h.log j
    rw [hentry] at hlog
    cases hcall : s.calls[j]? with
    | none =>
      rw [hcall] at hlog
      cases hlog
    | some c => exact List.mem_range.mpr (List.getElem?_eq_some_iff.mp hcall).1

/-- Every execute is in flight, a hit, or counted, unless it was cancelled. -/
theorem length_eq (h : Ledgers s) : s.calls.length = s.count Phase.isReturned +
    s.count Phase.isRaised + s.count Phase.isHit + s.count Phase.inFlight := by
  have hnever := h.never
  unfold ToolSystem.count
  generalize s.calls = l at hnever ⊢
  induction l with
  | nil => rfl
  | cons c l ih =>
    have hl := ih fun c' hc' => hnever c' (List.mem_cons_of_mem c hc')
    have hc := hnever c List.mem_cons_self
    have hone : (if c.phase.isReturned then 1 else 0) + (if c.phase.isRaised then 1 else 0) +
        (if c.phase.isHit then 1 else 0) + (if c.phase.inFlight then 1 else 0) = 1 := by
      cases hphase : c.phase with
      | cancelled => simp [hphase, Phase.isCancelled] at hc
      | _ => rfl
    simp only [List.countP_cons, List.length_cons]
    omega

end Ledgers

/-- The ledgers agree in every quiet state of a run in which no tool cancels itself. -/
theorem keepsLedgers (cfg : AdapterConfig) (redis : Bool) :
    KeepsLedgers cfg redis NeverCancelled := by
  intro es s hrun hquiet
  have h := Ledgers.of_run hrun
  have hcount : ∀ p q : Phase → Bool, (∀ c ∈ s.calls, p c.phase = q c.phase) →
      s.count p = s.count q := fun p q hpq => List.countP_congr fun c hc => by rw [hpq c hc]
  refine ⟨?_, ?_, ?_, ?_⟩
  · rw [h.entries_eq]
    refine hcount _ _ fun c hc => ?_
    have hq := hquiet c hc
    have hn := h.never c hc
    cases hphase : c.phase <;> simp_all [Phase.logStatus, Phase.pastCheck, Phase.inFlight,
      Phase.updating, Phase.isCancelled]
  · rw [h.entries_eq, h.successful]
    refine hcount _ _ fun c hc => ?_
    have hq := hquiet c hc
    cases hphase : c.phase <;> simp_all [Phase.logStatus, Phase.isReturned, Phase.updating]
  · rw [h.entries_eq, h.failed]
    refine hcount _ _ fun c hc => ?_
    have hq := hquiet c hc
    cases hphase : c.phase <;> simp_all [Phase.logStatus, Phase.isRaised, Phase.updating]
  · rw [h.total, h.successful, h.failed]
    exact h.length_eq

/-- A tool that raises `CancelledError` leaves its entry requested : no execute is in
flight then, and `total_calls` counts one that nothing else does. -/
theorem not_keepsLedgers : ¬∀ cfg redis, KeepsLedgers cfg redis fun _ _ => True := by
  intro h
  obtain ⟨s, hrun, hp⟩ := Machine.exists_run (toolMachine {} false) (fun _ _ => True)
    [.call "a", .act 0 .begin, .act 0 .acquire, .act 0 (.start 0),
      .act 0 (.ended .cancelled 0), .act 0 .report]
    (fun s => decide (s.entries .requested = 1) && decide (s.count Phase.pastCheck = 0) &&
      s.calls.all fun c => !c.phase.updating) (by decide)
  simp only [Bool.and_eq_true, decide_eq_true_eq, List.all_eq_true, Bool.not_eq_true'] at hp
  obtain ⟨⟨hentries, hflight⟩, hquiet⟩ := hp
  have hlaw := (h {} false _ s hrun hquiet).requested
  rw [hentries, hflight] at hlaw
  cases hlaw

end BaseAdapter

end MultiAgent
