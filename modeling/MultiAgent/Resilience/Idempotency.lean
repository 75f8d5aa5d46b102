import MultiAgent.Reliability.ToolIdempotency
import MultiAgent.Resilience.ToolIdempotency

/-!
# One key, one result

What an idempotency key promises, for both tool adapters. `CompletesOnce` : the tool
completes at most once in the executes with a key, and every one of them that returns
returns that result. `KeepsResult` : when the executes come one after the other, a result
that one of them returned is what every later one with its key returns, without another run
of the tool.

Both adapters look the key up before the whole call and store the result after it, with
nothing in between to keep another execute out, so `CompletesOnce` needs executes that do not
overlap. And what they store they do not always find : the one takes `None` for a result that
was never stored, the other anything that is not true.
-/

namespace MultiAgent

open Json (Value)

namespace BaseAdapter

/-- What the execute has returned. -/
def Phase.result : Phase → Option Value
  | .hit r => some r
  | .returned r => some r
  | _ => none

theorem Phase.result_role (x : Phase) : x.role.result = x.result := by
  cases x with
  | ended outcome => cases outcome <;> rfl
  | _ => rfl

/-- The results with which the tool completed in the executes of a key. -/
def ToolSystem.resultsOf (s : ToolSystem) (key : String) : List Value :=
  (s.completions.filter fun c => c.1 = key).map Prod.snd

/-- In every run over `ok`, the tool completes at most once for each key, and every execute
that returns returns that result. -/
def CompletesOnce (cfg : AdapterConfig) (redis : Bool) (ok : ToolSystem → ToolEvent → Prop) :
    Prop :=
  ∀ es s, (toolMachine cfg redis).Run ok es s → ∀ key,
    (s.resultsOf key).length ≤ 1 ∧
    ∀ c ∈ s.calls, c.key = key → ∀ v, c.phase.result = some v → s.resultsOf key = [v]

/-- In every run whose executes come one after the other, each execute with the key of an
earlier one that returned `r` looks its key up, or has returned `r` from there. -/
def KeepsResult (r : Value) : Prop :=
  ∀ cfg redis es s, (toolMachine cfg redis).Run OneAfterTheOther es s →
    ∀ (i j : ℕ) (c d : Execute), i < j → s.calls[i]? = some c → s.calls[j]? = some d →
      d.key = c.key → c.phase.result = some r →
        (∃ reply, d.phase = .lookup reply) ∨ d.phase = .hit r

theorem completesOnce_of_oneAtATime (cfg : AdapterConfig) (redis : Bool) :
    CompletesOnce cfg redis OneAtATime := by
  intro es s hrun key
  obtain ⟨-, honce⟩ := ToolSystem.once_of_run hrun
  refine ⟨(honce key).length_outputs, fun c hc hkey v hv => ?_⟩
  obtain ⟨k, hk⟩ := List.mem_iff_getElem?.mp hc
  subst hkey
  exact (honce c.key).result (ToolSystem.roleOf_self hk) ((Phase.result_role _).trans hv)

/-- Two executes with one key that begin together both run the tool. -/
theorem not_completesOnce_overlapping : ¬CompletesOnce {} false OwnResults := by
  intro h
  obtain ⟨s, hrun, hp⟩ := Machine.exists_run (toolMachine {} false) OwnResults
    [.call "a", .call "a", .act 0 .begin, .act 0 .acquire, .act 0 (.start 0), .act 1 .begin,
      .act 1 .acquire, .act 1 (.start 0), .act 0 (.ended (.returned (.int 1)) 0),
      .act 1 (.ended (.returned (.int 2)) 0)]
    (fun s : ToolSystem => decide ((s.resultsOf "a").length = 2)) (by decide)
  have hlength := (h _ s hrun "a").1
  rw [of_decide_eq_true hp] at hlength
  omega

theorem keepsResult_of_ne_none {r : Value} (hr : r.isNone = false) : KeepsResult r := by
  intro cfg redis es s hrun i j c d hij hi hj hkey hc
  obtain ⟨-, hkept⟩ := ToolSystem.kept_of_run hr hrun
  have hlater := ((hkept c.key).found i c.phase.role (ToolSystem.roleOf_self hi)
    ((Phase.result_role _).trans hc)).2 j d.phase.role hij
    (hkey ▸ ToolSystem.roleOf_self hj)
  obtain ⟨key, x⟩ := d
  rcases hlater with hx | hx
  · cases x with
    | lookup reply => exact Or.inl ⟨reply, rfl⟩
    | ended outcome => cases outcome <;> cases hx
    | _ => cases hx
  · cases x with
    | hit v => exact Or.inr (by simpa [Phase.role] using hx)
    | ended outcome => cases outcome <;> cases hx
    | _ => cases hx

/-- A second execute runs the tool again after the first one returned `None`. -/
theorem not_keepsResult_null : ¬KeepsResult .null := by
  intro h
  obtain ⟨s, hrun, hcalls⟩ : ∃ s, (toolMachine {} false).Run OneAfterTheOther
      [.call "a", .act 0 .begin, .act 0 .acquire, .act 0 (.start 0),
        .act 0 (.ended (.returned .null) 0), .act 0 .report, .call "a"] s ∧
      s.calls = [⟨"a", .returned .null⟩, ⟨"a", .requested⟩] :=
    ⟨_, Machine.run_of_execWith rfl, rfl⟩
  have hsecond := h {} false _ s hrun 0 1 ⟨"a", .returned .null⟩ ⟨"a", .requested⟩ (by omega)
    (by rw [hcalls]; rfl) (by rw [hcalls]; rfl) rfl rfl
  rcases hsecond with ⟨_, hsecond⟩ | hsecond <;> cases hsecond

theorem keepsResult_iff_ne_none (r : Value) : KeepsResult r ↔ r.isNone = false := by
  refine ⟨fun h => ?_, keepsResult_of_ne_none⟩
  cases r with
  | null => exact absurd h not_keepsResult_null
  | _ => rfl

end BaseAdapter

namespace ToolResilience

/-- What the execute has returned. -/
def Phase.result : Phase → Option Value
  | .hit r => some r
  | .returned r => some r
  | _ => none

theorem Phase.result_role (x : Phase) : x.role.result = x.result := by
  cases x with
  | storing r served => cases served <;> rfl
  | _ => rfl

/-- The results with which the operation completed in the executes of a key. -/
def ToolSystem.resultsOf (s : ToolSystem) (key : String) : List Value :=
  (s.completions.filter fun c => c.1 = some key).map Prod.snd

/-- In every run over `ok`, the operation completes at most once for each key, and every
execute that returns returns that result. -/
def CompletesOnce (cfg : AdapterConfig) (wal : Dict EntryId WalEntry)
    (ok : ToolSystem → ToolEvent → Prop) : Prop :=
  ∀ es s, (toolMachine cfg wal).Run ok es s → ∀ key,
    (s.resultsOf key).length ≤ 1 ∧
    ∀ c ∈ s.calls, c.key = some key → ∀ v, c.phase.result = some v → s.resultsOf key = [v]

/-- In every run of an adapter with Redis whose executes come one after the other, each execute
with the key of an earlier one that returned `r` looks its key up, or has returned `r` from
there. -/
def KeepsResult (r : Value) : Prop :=
  ∀ cfg wal es s, cfg.redis = true → (toolMachine cfg wal).Run OneAfterTheOther es s →
    ∀ (i j : ℕ) (c d : Execute) (key : String), i < j → s.calls[i]? = some c →
      s.calls[j]? = some d → c.key = some key → d.key = some key → c.phase.result = some r →
        (∃ reply, d.phase = .lookup reply) ∨ d.phase = .hit r

theorem completesOnce_of_oneAtATime {cfg : AdapterConfig} (hcfg : cfg.redis = true)
    (wal : Dict EntryId WalEntry) : CompletesOnce cfg wal OneAtATime := by
  intro es s hrun key
  obtain ⟨-, honce⟩ := ToolSystem.once_of_run hcfg hrun
  refine ⟨(honce key).length_outputs, fun c hc hkey v hv => ?_⟩
  obtain ⟨k, hk⟩ := List.mem_iff_getElem?.mp hc
  exact (honce key).result (ToolSystem.roleOf_self hk hkey) ((Phase.result_role _).trans hv)

/-- Two executes with one key that begin together both run the operation. -/
theorem not_completesOnce_overlapping :
    ¬CompletesOnce {} .empty fun s e => answered s e = true := by
  intro h
  obtain ⟨s, hrun, hp⟩ := Machine.exists_run (toolMachine {} .empty)
    (fun s e => answered s e = true)
    [.call (some "a") "op" .null, .call (some "a") "op" .null, .act 0 (.serve true),
      .act 1 (.serve true), .act 0 (.proceed 0), .act 1 (.proceed 0), .act 0 .acquire,
      .act 1 .acquire, .act 0 (.start 0), .act 1 (.start 0), .act 0 (.serve true),
      .act 1 (.serve true), .act 0 (.proceed 0), .act 1 (.proceed 0),
      .act 0 (.ended (.returned (.int 1)) 0), .act 1 (.ended (.returned (.int 2)) 0)]
    (fun s : ToolSystem => decide ((s.resultsOf "a").length = 2)) (by decide)
  have hlength := (h _ s hrun "a").1
  rw [of_decide_eq_true hp] at hlength
  omega

theorem keepsResult_of_truthy {r : Value} (hr : r.truthy = true) (hreload : r.reload = some r) :
    KeepsResult r := by
  intro cfg wal es s hcfg hrun i j c d key hij hi hj hc hd hresult
  have hkept := ToolSystem.kept_of_run hcfg (keep_eq_self hr hreload) hrun key
  have hlater := (hkept.found i c.phase.role (ToolSystem.roleOf_self hi hc)
    ((Phase.result_role _).trans hresult)).2 j d.phase.role hij (ToolSystem.roleOf_self hj hd)
  generalize d.phase = x at hlater ⊢
  rcases hlater with hx | hx
  · cases x with
    | lookup reply => exact Or.inl ⟨reply, rfl⟩
    | storing v served => cases served <;> cases hx
    | _ => cases hx
  · cases x with
    | hit v => exact Or.inr (by simpa [Phase.role] using hx)
    | storing v served => cases served <;> cases hx
    | _ => cases hx

/-- A first execute, up to the write of its result. -/
theorem exists_storing (r : Value) : ∃ es s, (toolMachine {} .empty).Run OneAfterTheOther es s ∧
    s.calls = [⟨some "a", "op", .null, 1, .storing r false⟩] ∧ s.hasRedis = true :=
  ⟨[.call (some "a") "op" .null, .act 0 (.serve true), .act 0 (.proceed 0), .act 0 .acquire,
      .act 0 (.start 0), .act 0 (.serve true), .act 0 (.proceed 0),
      .act 0 (.ended (.returned r) 0), .act 0 (.serve true), .act 0 (.proceed 0),
      .act 0 (.serve true), .act 0 (.proceed 0)], _, Machine.run_of_execWith rfl, rfl, rfl⟩

/-- The first execute returns, and a second one looks the key up. -/
theorem exists_lookup {s : ToolSystem} {r : Value}
    (hcalls : s.calls = [⟨some "a", "op", .null, 1, .storing r true⟩])
    (hredis : s.hasRedis = true) :
    ∃ t, (toolMachine {} .empty).execWith OneAfterTheOther s
        [.act 0 (.proceed 0), .call (some "a") "op" .null, .act 1 (.serve true)] = some t ∧
      t.calls = [⟨some "a", "op", .null, 1, .returned r⟩,
        ⟨some "a", "op", .null, 0, .lookup (some (s.results.get? "a"))⟩] := by
  obtain ⟨⟨⟨_, _, _, redis⟩, _, _, _⟩, _, _, calls, _, _, _⟩ := s
  cases hcalls
  cases hredis
  exact ⟨_, rfl, rfl⟩

theorem calls_checked (s : ToolSystem) (k : ℕ) (c : Execute) (w : Value) :
    (s.checked k c (some w)).calls =
      s.calls.set k { c with phase := if w.truthy then .hit w else .requested } := by
  unfold ToolSystem.checked
  dsimp only
  split_ifs <;> rfl

/-- A run of two executes, the second of which goes on with what JSON made of the result of
the first. -/
theorem exists_second {r w : Value} (hw : r.reload = some w) :
    ∃ es s, (toolMachine {} .empty).Run OneAfterTheOther es s ∧
      s.calls = [⟨some "a", "op", .null, 1, .returned r⟩,
        ⟨some "a", "op", .null, 0, if w.truthy then .hit w else .requested⟩] := by
  obtain ⟨es, s, hrun, hcalls, hredis⟩ := exists_storing r
  let c : Execute := ⟨some "a", "op", .null, 1, .storing r false⟩
  let t : ToolSystem :=
    ({ s with results := s.results.set "a" w } : ToolSystem).goTo 0 c (.storing r true)
  have hstored : (toolMachine {} .empty).Run OneAfterTheOther (es ++ [.act 0 (.serve true)]) t := by
    refine hrun.snoc ⟨rfl, trivial⟩ ?_
    simp [toolMachine, ToolSystem.step, hcalls, ToolSystem.act, ToolSystem.serve,
      ToolSystem.storeResult, hw, t, c]
  have hcallst : t.calls = [⟨some "a", "op", .null, 1, .storing r true⟩] := by
    simp [t, c, ToolSystem.goTo, hcalls]
  have hget : t.results.get? "a" = some w := Dict.get?_set_self _ _ _
  obtain ⟨u, hu, hcallsu⟩ := exists_lookup hcallst hredis
  rw [hget] at hcallsu
  refine ⟨_, _, (hstored.append_execWith hu).snoc (e := .act 1 (.proceed 0)) (t := u.checked 1
    ⟨some "a", "op", .null, 0, .lookup (some (some w))⟩ (some w)) ⟨rfl, trivial⟩ ?_, ?_⟩
  · simp [toolMachine, ToolSystem.step, hcallsu, ToolSystem.act, ToolSystem.proceed]
  · rw [calls_checked, hcallsu]
    rfl

/-- Of the results that can be encoded, those that are true and come back unchanged are kept. -/
theorem keepsResult_iff_truthy {r : Value} (h : r.reload.isSome = true) :
    KeepsResult r ↔ r.truthy = true ∧ r.reload = some r := by
  refine ⟨fun hkeeps => ?_, fun ⟨hr, hreload⟩ => keepsResult_of_truthy hr hreload⟩
  obtain ⟨w, hw⟩ := Option.isSome_iff_exists.mp h
  obtain ⟨es, s, hrun, hcalls⟩ := exists_second hw
  have hsecond := hkeeps {} .empty es s rfl hrun 0 1 _ _ "a" (by omega) (by rw [hcalls]; rfl)
    (by rw [hcalls]; rfl) rfl rfl rfl
  dsimp only at hsecond
  split_ifs at hsecond with htruthy
  · rcases hsecond with ⟨_, hsecond⟩ | hsecond
    · cases hsecond
    · obtain rfl := Phase.hit.inj hsecond
      exact ⟨htruthy, hw⟩
  · rcases hsecond with ⟨_, hsecond⟩ | hsecond <;> cases hsecond

end ToolResilience

/-- The tool of either adapter completes at most once for each key, in runs in which an execute
begins only while the result of its key is cached or no other with its key is in flight. -/
theorem completesOnce (cfg : BaseAdapter.AdapterConfig) (redis : Bool)
    (cfg' : ToolResilience.AdapterConfig)
    (wal : Dict ToolResilience.EntryId ToolResilience.WalEntry) (hredis : cfg'.redis = true) :
    BaseAdapter.CompletesOnce cfg redis BaseAdapter.OneAtATime ∧
      ToolResilience.CompletesOnce cfg' wal ToolResilience.OneAtATime :=
  ⟨BaseAdapter.completesOnce_of_oneAtATime cfg redis,
    ToolResilience.completesOnce_of_oneAtATime hredis wal⟩

/-- Adapters with the defaults of the source. -/
theorem completesOnce_default : BaseAdapter.CompletesOnce {} true BaseAdapter.OneAtATime ∧
    ToolResilience.CompletesOnce {} .empty ToolResilience.OneAtATime :=
  completesOnce {} true {} .empty rfl

/-- Executes that overlap run the tool more than once. -/
theorem not_completesOnce :
    (¬∀ cfg redis, BaseAdapter.CompletesOnce cfg redis BaseAdapter.OwnResults) ∧
      ¬∀ cfg wal, cfg.redis = true →
        ToolResilience.CompletesOnce cfg wal fun s e => ToolResilience.answered s e = true :=
  ⟨fun h => BaseAdapter.not_completesOnce_overlapping (h {} false),
    fun h => ToolResilience.not_completesOnce_overlapping (h {} .empty rfl)⟩

/-- The results that an idempotency key keeps. -/
theorem keepsResult_iff (r : Value) (h : r.reload.isSome = true) :
    (BaseAdapter.KeepsResult r ↔ r.isNone = false) ∧
      (ToolResilience.KeepsResult r ↔ r.truthy = true ∧ r.reload = some r) :=
  ⟨BaseAdapter.keepsResult_iff_ne_none r, ToolResilience.keepsResult_iff_truthy h⟩

/-- Both adapters keep a dictionary with a list in it. -/
theorem keepsResult_dict :
    BaseAdapter.KeepsResult (.dict [(.str "found", .list [.int 0, .null])]) ∧
      ToolResilience.KeepsResult (.dict [(.str "found", .list [.int 0, .null])]) := by
  have hreload : Value.reload (.dict [(.str "found", .list [.int 0, .null])]) =
      some (.dict [(.str "found", .list [.int 0, .null])]) :=
    Value.reload_of_isJson (by decide)
  have h := keepsResult_iff _ (by rw [hreload]; rfl)
  exact ⟨h.1.mpr rfl, h.2.mpr ⟨rfl, hreload⟩⟩

/-- Neither adapter keeps `None`, and the resilient one keeps no empty dictionary. -/
theorem not_keepsResult : (¬∀ r : Value, r.reload.isSome = true → BaseAdapter.KeepsResult r) ∧
    ¬∀ r : Value, r.reload.isSome = true → ToolResilience.KeepsResult r :=
  ⟨fun h => BaseAdapter.not_keepsResult_null (h .null rfl), fun h => by
    have hempty := (ToolResilience.keepsResult_iff_truthy rfl).mp (h (.dict []) rfl)
    cases hempty.1⟩

end MultiAgent
