import MultiAgent.Lib.ListIteration
import MultiAgent.Lib.Machine

/-!
# The connections of the realtime gateway

`ConnectionManager` and the endpoint `/realtime` of
`apps/data-plane/realtime-gateway/src/main.py`. Each connection has a task of its own, and
`broadcast` goes over `active_connections` in the task of the sender, suspended in every
`send_text`. Meanwhile other connections come and go, and other broadcasts remove the ones that
do not work any more, so the list changes under the loop.

A connection is sent a message at most once. Of the connections that are there when a broadcast
ends, at most as many did not get the message as were removed while it ran (`broadcasts_of_run`).
If a broadcast runs alone, it passes over the connection after each broken one that it comes to
(`broadcast_alone`).

Connections are numbered in the order in which they are accepted. The endpoint `/ws` differs only
in that it sends to its own connection, which the manager keeps no record of.
-/

namespace MultiAgent

namespace Realtime

/-- A loop of `broadcast` : the next position, the connections whose `send_text` was called and
those for which it returned, and how many connections had been removed when it began. -/
structure Loop where
  index : ℕ := 0
  tried : List ℕ := []
  delivered : List ℕ := []
  removedBefore : ℕ
  deriving DecidableEq

/-- The task of a connection : it waits for a message, or broadcasts one and waits for `current`
to be sent it, or has ended. -/
inductive Task
  | receiving
  | broadcasting (current : ℕ) (loop : Loop)
  | ended
  deriving DecidableEq

/-- A broadcast that came to the end of the list, with the list then, and how many connections
were removed while it ran. -/
structure Finished where
  sender : ℕ
  tried : List ℕ
  delivered : List ℕ
  active : List ℕ
  removed : ℕ
  deriving DecidableEq

/-- `active_connections`, the tasks of all connections, the number of removals, and the broadcasts
that ended, newest first. -/
structure Gateway where
  active : List ℕ := []
  tasks : List Task := []
  removed : ℕ := 0
  finished : List Finished := []
  deriving DecidableEq

/-- What happens : a connection is accepted; its task receives a message and broadcasts it; the
`send_text` that its broadcast waits for returns or raises; it is told of the disconnection, or
ends with another exception. -/
inductive Event
  | connect
  | broadcast (c : ℕ)
  | sent (c : ℕ) (ok : Bool)
  | disconnected (c : ℕ)
  | failed (c : ℕ)
  deriving DecidableEq

namespace Gateway

variable (g : Gateway)

/-- `active_connections.remove`. -/
def remove (c : ℕ) : Gateway :=
  { g with active := g.active.erase c, removed := g.removed + 1 }

/-- `disconnect`. -/
def disconnect (c : ℕ) : Gateway :=
  if c ∈ g.active then g.remove c else g

/-- The loop of the task of `c` goes on to the next connection, or is over. -/
def advance (c : ℕ) (loop : Loop) : Gateway :=
  match g.active[loop.index]? with
  | some connection => { g with
      tasks := g.tasks.set c (.broadcasting connection
        { loop with index := loop.index + 1, tried := loop.tried ++ [connection] }) }
  | none => { g with
      tasks := g.tasks.set c .receiving
      finished := {
        sender := c
        tried := loop.tried
        delivered := loop.delivered
        active := g.active
        removed := g.removed - loop.removedBefore } :: g.finished }

/-- One step. A `remove` of a connection that is not there any more raises a `ValueError`, which
ends the task without a `disconnect`. -/
def step : Event → Option Gateway
  | .connect => some { g with
      active := g.active ++ [g.tasks.length], tasks := g.tasks ++ [.receiving] }
  | .broadcast c =>
    if g.tasks[c]? = some .receiving then some (g.advance c { removedBefore := g.removed })
    else none
  | .sent c ok =>
    match g.tasks[c]? with
    | some (.broadcasting connection loop) =>
      if ok then some (g.advance c { loop with delivered := loop.delivered ++ [connection] })
      else if connection ∈ g.active then some ((g.remove connection).advance c loop)
      else some { g with tasks := g.tasks.set c .ended }
    | _ => none
  | .disconnected c =>
    if g.tasks[c]? = some .receiving then
      some { g.disconnect c with tasks := g.tasks.set c .ended }
    else none
  | .failed c =>
    if g.tasks[c]? = some .receiving then some { g with tasks := g.tasks.set c .ended } else none

end Gateway

/-- A gateway without connections. -/
def gatewayMachine : Machine Gateway Event where
  init := {}
  step g e := g.step e

/-! ## A loop while the list changes -/

/-- A loop over the active connections, with the one it waits for, if it does, among the first
`n` connections : what it came to and is still there it has delivered to, unless it waits for it,
and it has passed over at most as many as were removed since it began. -/
structure LoopInv (active : List ℕ) (n removed : ℕ) (waits : Option ℕ) (loop : Loop) : Prop where
  sound : Cursor.Sound ⟨active, loop.index, loop.tried⟩
  numbered : ∀ c ∈ loop.tried, c < n
  delivered : ∀ c ∈ loop.tried, c ∈ active → c ∈ loop.delivered ∨ waits = some c
  debt : Cursor.debt ⟨active, loop.index, loop.tried⟩ + loop.removedBefore ≤ removed

namespace LoopInv

variable {active : List ℕ} {n removed : ℕ} {waits : Option ℕ} {loop : Loop}

theorem start (hn : active.Nodup) :
    LoopInv active n removed none { removedBefore := removed } where
  sound := Cursor.sound_start hn
  numbered := by simp
  delivered := by simp
  debt := by simp

theorem connect (h : LoopInv active n removed waits loop) (hactive : n ∉ active) :
    LoopInv (active ++ [n]) (n + 1) removed waits loop where
  sound := h.sound.append hactive fun hn => absurd (h.numbered n hn) (by omega)
  numbered c hc := Nat.lt_succ_of_lt (h.numbered c hc)
  delivered c hc hin := by
    have hlt := h.numbered c hc
    refine h.delivered c hc ?_
    rcases List.mem_append.mp hin with hin | hin
    · exact hin
    · rw [List.mem_singleton] at hin
      omega
  debt := by
    have hle := Cursor.debt_append_le (c := ⟨active, loop.index, loop.tried⟩) n
    exact Nat.le_trans (Nat.add_le_add_right hle _) h.debt

theorem remove (h : LoopInv active n removed waits loop) (c : ℕ) :
    LoopInv (active.erase c) n (removed + 1) waits loop where
  sound := h.sound.erase c
  numbered := h.numbered
  delivered d hd hin := h.delivered d hd (List.mem_of_mem_erase hin)
  debt := by
    have hle : Cursor.debt ⟨active.erase c, loop.index, loop.tried⟩ ≤ _ :=
      Cursor.debt_erase_le (c := ⟨active, loop.index, loop.tried⟩) c
    have := h.debt
    omega

theorem advance (h : LoopInv active n removed none loop) {c : ℕ}
    (hc : active[loop.index]? = some c) (hlt : c < n) :
    LoopInv active n removed (some c)
      { loop with index := loop.index + 1, tried := loop.tried ++ [c] } where
  sound := h.sound.advance hc
  numbered d hd := by
    rcases List.mem_append.mp hd with hd | hd
    · exact h.numbered d hd
    · rw [List.mem_singleton] at hd
      omega
  delivered d hd hin := by
    rcases List.mem_append.mp hd with hd | hd
    · exact Or.inl ((h.delivered d hd hin).resolve_right (by simp))
    · exact Or.inr (by rw [List.mem_singleton.mp hd])
  debt := by
    have hle := Cursor.debt_advance_le (c := ⟨active, loop.index, loop.tried⟩) hc
    exact Nat.le_trans (Nat.add_le_add_right hle _) h.debt

theorem deliver {c : ℕ} (h : LoopInv active n removed (some c) loop) :
    LoopInv active n removed none { loop with delivered := loop.delivered ++ [c] } where
  sound := h.sound
  numbered := h.numbered
  delivered d hd hin := by
    rcases h.delivered d hd hin with hd | hd
    · exact Or.inl (List.mem_append_left _ hd)
    · obtain rfl := Option.some.inj hd
      exact Or.inl (by simp)
  debt := h.debt

/-- The connection that the loop waits for is gone. -/
theorem drop {c : ℕ} (h : LoopInv active n removed (some c) loop) (hc : c ∉ active) :
    LoopInv active n removed none loop where
  sound := h.sound
  numbered := h.numbered
  delivered d hd hin := by
    refine Or.inl ((h.delivered d hd hin).resolve_right ?_)
    rintro ⟨⟩
    exact hc hin
  debt := h.debt

/-- At the end of the list. -/
theorem countP_le (h : LoopInv active n removed none loop) (hend : active[loop.index]? = none) :
    active.countP (· ∉ loop.delivered) ≤ removed - loop.removedBefore := by
  have hmono : active.countP (· ∉ loop.delivered) ≤ active.countP (· ∉ loop.tried) := by
    refine List.countP_mono_left fun c hc hout => ?_
    simp only [decide_eq_true_eq] at hout ⊢
    exact fun htried => hout ((h.delivered c htried hc).resolve_right (by simp))
  have hdebt := Cursor.countP_le_debt (c := ⟨active, loop.index, loop.tried⟩) hend
  have := h.debt
  exact Nat.le_trans hmono (Nat.le_trans hdebt (by omega))

end LoopInv

/-! ## Runs -/

/-- A broadcast that ended : nobody was sent the message twice, and at most as many of the
connections that were there did not get it as were removed while it ran. -/
structure Finished.Fair (f : Finished) : Prop where
  tried_nodup : f.tried.Nodup
  missed : f.active.countP (· ∉ f.delivered) ≤ f.removed

/-- What holds of the gateway at all times. -/
structure Gateway.Inv (g : Gateway) : Prop where
  nodup : g.active.Nodup
  numbered : ∀ c ∈ g.active, c < g.tasks.length
  loops : ∀ (c connection : ℕ) (loop : Loop),
    g.tasks[c]? = some (.broadcasting connection loop) →
    LoopInv g.active g.tasks.length g.removed (some connection) loop
  finished : ∀ f ∈ g.finished, f.Fair

namespace Gateway

variable {g : Gateway}

theorem Inv.remove (h : g.Inv) (c : ℕ) : (g.remove c).Inv where
  nodup := h.nodup.erase c
  numbered d hd := h.numbered d (List.mem_of_mem_erase hd)
  loops d connection loop hd := (h.loops d connection loop hd).remove c
  finished := h.finished

theorem Inv.disconnect (h : g.Inv) (c : ℕ) : (g.disconnect c).Inv := by
  unfold Gateway.disconnect
  split_ifs
  · exact h.remove c
  · exact h

@[simp] theorem tasks_disconnect (c : ℕ) : (g.disconnect c).tasks = g.tasks := by
  unfold Gateway.disconnect
  split_ifs <;> rfl

/-- A task ends, or waits for a message. -/
theorem Inv.set (h : g.Inv) (c : ℕ) (task : Task)
    (htask : ∀ connection loop, task ≠ .broadcasting connection loop) :
    Inv { g with tasks := g.tasks.set c task } where
  nodup := h.nodup
  numbered d hd := by
    rw [List.length_set]
    exact h.numbered d hd
  loops d connection loop hd := by
    rw [List.length_set]
    rcases getElem?_set_cases hd with ⟨-, hd⟩ | ⟨-, heq⟩
    · exact h.loops d connection loop hd
    · exact absurd heq.symm (htask connection loop)
  finished := h.finished

theorem Inv.advance (h : g.Inv) (c : ℕ) {loop : Loop}
    (hloop : LoopInv g.active g.tasks.length g.removed none loop) : (g.advance c loop).Inv := by
  unfold Gateway.advance
  split
  · next connection hc =>
    have hlt := h.numbered connection (List.mem_of_getElem? hc)
    refine ⟨h.nodup, fun d hd => ?_, fun d connection' loop' hd => ?_, h.finished⟩
    · rw [List.length_set]
      exact h.numbered d hd
    · rw [List.length_set]
      rcases getElem?_set_cases hd with ⟨-, hd⟩ | ⟨-, heq⟩
      · exact h.loops d connection' loop' hd
      · injection heq with hconnection hloop'
        rw [hconnection, hloop']
        exact hloop.advance hc hlt
  · next hend =>
    have hset := h.set c .receiving (by simp)
    refine ⟨hset.nodup, hset.numbered, hset.loops, List.forall_mem_cons.mpr ⟨?_, h.finished⟩⟩
    exact ⟨hloop.sound.seen_nodup, hloop.countP_le hend⟩

theorem Inv.connect (h : g.Inv) : Inv { g with
    active := g.active ++ [g.tasks.length], tasks := g.tasks ++ [.receiving] } := by
  have hnew : g.tasks.length ∉ g.active := fun hin => absurd (h.numbered _ hin) (by omega)
  refine ⟨h.nodup.append (List.nodup_singleton _) (by simpa using hnew), fun c hc => ?_,
    fun c connection loop hc => ?_, h.finished⟩
  · rw [List.length_append, List.length_singleton]
    rcases List.mem_append.mp hc with hc | hc
    · exact Nat.lt_succ_of_lt (h.numbered c hc)
    · rw [List.mem_singleton] at hc
      omega
  · rw [List.length_append, List.length_singleton]
    rcases getElem?_concat_cases hc with hc | ⟨-, heq⟩
    · exact (h.loops c connection loop hc).connect hnew
    · simp at heq

theorem Inv.step (h : g.Inv) {e : Event} {g' : Gateway} (hst : g.step e = some g') : g'.Inv := by
  cases e with
  | connect => exact Option.some.inj hst ▸ h.connect
  | broadcast c =>
    simp only [Gateway.step] at hst
    split_ifs at hst with hc
    exact Option.some.inj hst ▸ h.advance c (.start h.nodup)
  | sent c ok =>
    simp only [Gateway.step] at hst
    split at hst
    · next connection loop hc =>
      have hloop := h.loops c connection loop hc
      split_ifs at hst with hok hin
      · exact Option.some.inj hst ▸ h.advance c hloop.deliver
      · have hgone : connection ∉ g.active.erase connection := h.nodup.not_mem_erase
        exact Option.some.inj hst ▸
          (h.remove connection).advance c ((hloop.remove connection).drop hgone)
      · exact Option.some.inj hst ▸ h.set c _ (by simp)
    · contradiction
  | disconnected c =>
    simp only [Gateway.step] at hst
    split_ifs at hst with hc
    have hset := (h.disconnect c).set c .ended (by simp)
    rw [tasks_disconnect] at hset
    exact Option.some.inj hst ▸ hset
  | failed c =>
    simp only [Gateway.step] at hst
    split_ifs at hst with hc
    exact Option.some.inj hst ▸ h.set c _ (by simp)

theorem inv_of_run {es : List Event} (h : gatewayMachine.Run (fun _ _ => True) es g) : g.Inv := by
  refine h.invariant (I := Inv) ⟨List.nodup_nil, by simp [gatewayMachine],
    by simp [gatewayMachine], by simp [gatewayMachine]⟩ fun s e t hs _ hst => hs.step hst

end Gateway

/-- In every run, with any number of broadcasts at once and connections coming and going, a
broadcast that came to its end sent nobody the message twice, and at most as many of the
connections that were there at its end did not get it as were removed while it ran. -/
theorem broadcasts_of_run {es : List Event} {g : Gateway}
    (h : gatewayMachine.Run (fun _ _ => True) es g) {f : Finished} (hf : f ∈ g.finished) :
    f.tried.Nodup ∧ f.active.countP (· ∉ f.delivered) ≤ f.removed :=
  ⟨((Gateway.inv_of_run h).finished f hf).tried_nodup,
    ((Gateway.inv_of_run h).finished f hf).missed⟩

/-! ## A broadcast that runs alone -/

/-- The events of a broadcast of `c` in which nothing else happens and the connections with
`broken` raise. -/
def aloneEvents (broken : ℕ → Bool) (c : ℕ) (active : List ℕ) : List Event :=
  .broadcast c :: (walk broken active).map fun d => .sent c (!broken d)

/-- What such a broadcast leaves. -/
def Gateway.alone (g : Gateway) (broken : ℕ → Bool) (c : ℕ) : Gateway where
  active := walkLeft broken g.active
  tasks := g.tasks
  removed := g.removed + (walk broken g.active).countP broken
  finished := {
    sender := c
    tried := walk broken g.active
    delivered := (walk broken g.active).filter (!broken ·)
    active := walkLeft broken g.active
    removed := (walk broken g.active).countP broken } :: g.finished

namespace Gateway

/-- The loop of `c` after it came to the connection `d`. -/
def tryNext (loop : Loop) (d : ℕ) : Loop :=
  { loop with index := loop.index + 1, tried := loop.tried ++ [d] }

variable {g : Gateway} {c d : ℕ} {loop : Loop}

theorem advance_of_some (hd : g.active[loop.index]? = some d) :
    g.advance c loop = { g with tasks := g.tasks.set c (.broadcasting d (tryNext loop d)) } := by
  unfold Gateway.advance
  rw [hd]
  rfl

/-- The connection that the loop comes to works, or does not. -/
theorem step_advance (hd : g.active[loop.index]? = some d) (hc : c < g.tasks.length) (ok : Bool) :
    (g.advance c loop).step (.sent c ok) = some (
      let g' := { g with tasks := g.tasks.set c (.broadcasting d (tryNext loop d)) }
      if ok then g'.advance c { tryNext loop d with delivered := loop.delivered ++ [d] }
      else (g'.remove d).advance c (tryNext loop d)) := by
  rw [advance_of_some hd]
  simp only [Gateway.step, List.getElem?_set_self hc, List.mem_of_getElem? hd, if_true]
  cases ok <;> rfl

theorem execWith_sent (hd : g.active[loop.index]? = some d) (hc : c < g.tasks.length) (ok : Bool)
    (es : List Event) :
    gatewayMachine.execWith (fun _ _ => True) (g.advance c loop) (.sent c ok :: es) =
      gatewayMachine.execWith (fun _ _ => True) (
        let g' := { g with tasks := g.tasks.set c (.broadcasting d (tryNext loop d)) }
        if ok then g'.advance c { tryNext loop d with delivered := loop.delivered ++ [d] }
        else (g'.remove d).advance c (tryNext loop d)) es := by
  have hstep : gatewayMachine.step (g.advance c loop) (.sent c ok) = _ := step_advance hd hc ok
  rw [Machine.execWith, if_pos trivial, hstep]

/-- A loop that has come to the end of `done` and goes on over `rest` alone. -/
theorem execWith_advance (broken : ℕ → Bool) (c : ℕ) (rest : List ℕ) {g : Gateway}
    {done : List ℕ} {loop : Loop} (hactive : g.active = done ++ rest)
    (hindex : loop.index = done.length) (hn : g.active.Nodup) (hc : c < g.tasks.length)
    (hbefore : loop.removedBefore ≤ g.removed) :
    gatewayMachine.execWith (fun _ _ => True) (g.advance c loop)
        ((walk broken rest).map fun d => .sent c (!broken d)) = some {
      active := done ++ walkLeft broken rest
      tasks := g.tasks.set c .receiving
      removed := g.removed + (walk broken rest).countP broken
      finished := {
        sender := c
        tried := loop.tried ++ walk broken rest
        delivered := loop.delivered ++ (walk broken rest).filter (!broken ·)
        active := done ++ walkLeft broken rest
        removed := g.removed + (walk broken rest).countP broken - loop.removedBefore } ::
          g.finished } := by
  have hnot : ∀ x ∈ rest, x ∉ done := by
    rw [hactive, List.nodup_append] at hn
    exact fun x hx hin => hn.2.2 x hin x hx rfl
  induction rest using walk.induct generalizing g done loop with
  | case1 => simp [walk, walkLeft, Machine.execWith, Gateway.advance, hactive, hindex]
  | case2 x =>
    have hx : g.active[loop.index]? = some x := by simp [hactive, hindex]
    rw [walk, List.map_singleton, execWith_sent hx hc]
    cases hb : broken x with
    | false => simp [walkLeft, hb, Machine.execWith, Gateway.advance, hactive, hindex, tryNext]
    | true =>
      simp [walkLeft, hb, Machine.execWith, Gateway.advance, Gateway.remove, hactive, hindex,
        tryNext, List.erase_append_right _ (hnot x (by simp))]
  | case3 x y l ihl ihy =>
    have hx : g.active[loop.index]? = some x := by simp [hactive, hindex]
    cases hb : broken x with
    | true =>
      -- the connection `y` moves to the position of `x`, which the loop has been at
      have herase : g.active.erase x = (done ++ [y]) ++ l := by
        rw [hactive, List.erase_append_right _ (hnot x (by simp))]
        simp
      have hindex' : (tryNext loop x).index = (done ++ [y]).length := by simp [tryNext, hindex]
      have hn' := hn.erase x
      rw [walk, hb, if_pos rfl, List.map_cons, execWith_sent hx hc, walkLeft, hb, if_pos rfl]
      have hrest := ihl (g := (Gateway.mk g.active
        (g.tasks.set c (.broadcasting x (tryNext loop x))) g.removed g.finished).remove x)
        herase hindex' hn' (by simpa [Gateway.remove] using hc) (Nat.le_succ_of_le hbefore) (by
          rw [herase, List.nodup_append] at hn'
          exact fun z hz hin => hn'.2.2 z hin z hz rfl)
      simpa [Gateway.remove, tryNext, hb, Nat.add_assoc, Nat.add_comm 1] using hrest
    | false =>
      have hfalse : ¬false = true := Bool.false_ne_true
      rw [walk, walkLeft, hb, if_neg hfalse, if_neg hfalse, List.map_cons, execWith_sent hx hc]
      have hactive' : g.active = (done ++ [x]) ++ y :: l := by simpa using hactive
      have hindex' : { tryNext loop x with delivered := loop.delivered ++ [x] }.index =
          (done ++ [x]).length := by simp [tryNext, hindex]
      have hrest := ihy (g := Gateway.mk g.active
        (g.tasks.set c (.broadcasting x (tryNext loop x))) g.removed g.finished)
        hactive' hindex' hn (by simpa using hc) hbefore (by
          rw [hactive', List.nodup_append] at hn
          exact fun z hz hin => hn.2.2 z hin z hz rfl)
      simpa [tryNext, hb] using hrest

end Gateway

/-- In every run, if a connection broadcasts and nothing else happens until the broadcast ends,
the loop comes to the connections of `walk`, each broken one of which is removed and hides the
connection after it from the loop. -/
theorem broadcast_alone {es : List Event} {g : Gateway}
    (h : gatewayMachine.Run (fun _ _ => True) es g) {c : ℕ} (hc : g.tasks[c]? = some .receiving)
    (broken : ℕ → Bool) :
    gatewayMachine.execWith (fun _ _ => True) g (aloneEvents broken c g.active) =
      some (g.alone broken c) := by
  obtain ⟨hlt, hreceiving⟩ := List.getElem?_eq_some_iff.mp hc
  have hstep : gatewayMachine.step g (.broadcast c) =
      some (g.advance c { removedBefore := g.removed }) := if_pos hc
  rw [aloneEvents, Machine.execWith, if_pos trivial, hstep]
  have hactive : g.active = [] ++ g.active := rfl
  dsimp only
  rw [Gateway.execWith_advance broken c g.active hactive rfl (Gateway.inv_of_run h).nodup hlt
    (Nat.le_refl _)]
  have hset : g.tasks.set c .receiving = g.tasks := hreceiving ▸ List.set_getElem_self hlt
  simp [Gateway.alone, hset]

/-- Of three connections the last broadcasts while the first is broken : the second does not get
the message. -/
theorem broadcast_skips : ∃ (es : List Event) (g : Gateway),
    gatewayMachine.Run (fun _ _ => True) es g ∧
    gatewayMachine.execWith (fun _ _ => True) g (aloneEvents (· = 0) 2 g.active) =
      some (g.alone (· = 0) 2) ∧ (g.alone (· = 0) 2).finished.map (·.delivered) = [[2]] := by
  obtain ⟨g, hrun, hp⟩ := Machine.exists_run gatewayMachine (fun _ _ => True)
    [.connect, .connect, .connect]
    (fun g => decide (g.tasks[2]? = some Task.receiving ∧
      (g.alone (· = 0) 2).finished.map (·.delivered) = [[2]])) (by decide)
  obtain ⟨hreceiving, hdelivered⟩ := of_decide_eq_true hp
  exact ⟨_, g, hrun, broadcast_alone hrun hreceiving _, hdelivered⟩

/-- The same broadcast as a run : one connection was removed, and one did not get the message. -/
theorem broadcasts_of_skip : ∃ (es : List Event) (g : Gateway) (f : Finished),
    gatewayMachine.Run (fun _ _ => True) es g ∧ (f ∈ g.finished ∧ f.removed = 1) ∧
    f.tried.Nodup ∧ f.active.countP (· ∉ f.delivered) ≤ f.removed := by
  obtain ⟨g, hrun, hp⟩ := Machine.exists_run gatewayMachine (fun _ _ => True)
    [.connect, .connect, .connect, .broadcast 2, .sent 2 false, .sent 2 true]
    (fun g => decide (∃ f ∈ g.finished, f.removed = 1)) (by decide)
  obtain ⟨f, hf, hremoved⟩ := of_decide_eq_true hp
  exact ⟨_, g, f, hrun, ⟨hf, hremoved⟩, broadcasts_of_run hrun hf⟩

end Realtime

end MultiAgent
