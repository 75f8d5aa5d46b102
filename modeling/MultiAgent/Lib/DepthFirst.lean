import Mathlib.Data.Finset.Card
import Mathlib.Data.List.Basic
import Mathlib.Logic.Relation

/-!
# Depth-first search for a cycle

A recursive search marks the nodes it has visited and keeps the nodes of the path it
is on apart, and reports a cycle when an edge leads back to that path. A node that is
visited but no longer on the path is finished. The invariant of the search is that the
finished nodes are closed under edges and that no walk leads from one of them back to
itself (`Search.Sound`); `hasCycle_sound` is the step of the recursion, `fromRoots_sound`
the loop over all roots. A search that reports nothing has finished every root, so no
root lies on a cycle (`not_transGen_of_fromRoots`). Every node of the path leads to the node
the search is at, so an edge back to the path is a cycle (`exists_transGen_of_fromRoots`).

Looking at a neighbour may fail (`next : α → Except ε ν` turns what an edge stores into
a node), and a chain of calls longer than the given depth fails with `overflow`, which does
not happen if the depth is that of the number of nodes (`fromRoots_ne_overflow`).
-/

set_option linter.unusedSectionVars false

namespace MultiAgent

namespace DepthFirst

variable {α ν ε : Type*} [DecidableEq ν]

/-- What the recursive calls share : the nodes seen so far, and those on the path. -/
structure Search (ν : Type*) where
  visited : List ν
  recStack : List ν

/-- Enter a node. -/
def Search.enter (s : Search ν) (n : ν) : Search ν :=
  ⟨s.visited.insert n, s.recStack.insert n⟩

/-- Leave a node. -/
def Search.leave (s : Search ν) (n : ν) : Search ν :=
  { s with recStack := s.recStack.filter (· ≠ n) }

/-- The loop over the neighbours of a node; `recur` visits one of them. -/
def scan (next : α → Except ε ν) (recur : ν → Search ν → Except ε (Bool × Search ν)) :
    List α → Search ν → Except ε (Bool × Search ν)
  | [], s => .ok (false, s)
  | a :: l, s =>
    match next a with
    | .error e => .error e
    | .ok n =>
      if n ∉ s.visited then
        match recur n s with
        | .error e => .error e
        | .ok (true, s') => .ok (true, s')
        | .ok (false, s') => scan next recur l s'
      else if n ∈ s.recStack then .ok (true, s)
      else scan next recur l s

/-- Search from `n`, with room for so many nested calls. -/
def hasCycle (overflow : ε) (next : α → Except ε ν) (succs : ν → List α) :
    ℕ → ν → Search ν → Except ε (Bool × Search ν)
  | 0, _, _ => .error overflow
  | d + 1, n, s =>
    match scan next (hasCycle overflow next succs d) (succs n) (s.enter n) with
    | .error e => .error e
    | .ok (true, s') => .ok (true, s')
    | .ok (false, s') => .ok (false, s'.leave n)

/-- Search from every root that an earlier one did not reach. -/
def fromRoots (visit : ν → Search ν → Except ε (Bool × Search ν)) :
    List ν → Search ν → Except ε (Bool × Search ν)
  | [], s => .ok (false, s)
  | n :: roots, s =>
    if n ∈ s.visited then fromRoots visit roots s
    else
      match visit n s with
      | .error e => .error e
      | .ok (true, s') => .ok (true, s')
      | .ok (false, s') => fromRoots visit roots s'

/-! ## What the search knows -/

/-- `n` has been visited and is not on the path. -/
def Search.Finished (s : Search ν) (n : ν) : Prop :=
  n ∈ s.visited ∧ n ∉ s.recStack

/-- The edge relation of a successor function. -/
def Edge (next : α → Except ε ν) (succs : ν → List α) (a b : ν) : Prop :=
  ∃ x ∈ succs a, next x = .ok b

/-- The invariant : the path was visited, and no edge and no cycle leaves the finished
nodes. -/
structure Search.Sound (E : ν → ν → Prop) (s : Search ν) : Prop where
  onPath : ∀ n ∈ s.recStack, n ∈ s.visited
  closed : ∀ a b, s.Finished a → E a b → s.Finished b
  acyclic : ∀ a, s.Finished a → ¬ Relation.TransGen E a a

variable {E : ν → ν → Prop} {s t u : Search ν}

theorem sound_empty : (⟨[], []⟩ : Search ν).Sound E where
  onPath _ hn := hn
  closed _ _ ha := absurd ha.1 List.not_mem_nil
  acyclic _ ha := absurd ha.1 List.not_mem_nil

/-- A walk that starts at a finished node stays among the finished nodes. -/
theorem Search.Sound.walk (hs : s.Sound E) {a b : ν} (ha : s.Finished a)
    (hab : Relation.TransGen E a b) : s.Finished b := by
  induction hab with
  | single h => exact hs.closed _ _ ha h
  | tail _ h ih => exact hs.closed _ _ ih h

theorem finished_enter {n : ν} (hn : n ∉ s.visited) (m : ν) :
    (s.enter n).Finished m ↔ s.Finished m := by
  unfold Search.Finished Search.enter
  simp only [List.mem_insert_iff, not_or]
  constructor
  · rintro ⟨hv, hne, hm⟩
    exact ⟨hv.resolve_left hne, hm⟩
  · rintro ⟨hv, hm⟩
    exact ⟨Or.inr hv, fun he => hn (he ▸ hv), hm⟩

/-- Entering a new node finishes nothing and spoils nothing. -/
theorem Search.Sound.enter (hs : s.Sound E) {n : ν} (hn : n ∉ s.visited) :
    (s.enter n).Sound E where
  onPath m hm := by
    rcases List.mem_insert_iff.mp hm with rfl | h
    · exact List.mem_insert_self
    · exact List.mem_insert_of_mem (hs.onPath m h)
  closed a b ha hab :=
    (finished_enter hn b).mpr (hs.closed a b ((finished_enter hn a).mp ha) hab)
  acyclic a ha := hs.acyclic a ((finished_enter hn a).mp ha)

/-- What one call may do to the search : visit more, and leave the path as it was. -/
structure Search.Extends (s t : Search ν) : Prop where
  visited : ∀ n ∈ s.visited, n ∈ t.visited
  recStack : ∀ n, n ∈ t.recStack ↔ n ∈ s.recStack

theorem Search.Extends.refl (s : Search ν) : s.Extends s :=
  ⟨fun _ h => h, fun _ => Iff.rfl⟩

theorem Search.Extends.trans (h : s.Extends t) (h' : t.Extends u) : s.Extends u :=
  ⟨fun n hn => h'.visited n (h.visited n hn), fun n => (h'.recStack n).trans (h.recStack n)⟩

theorem Search.Extends.finished (h : s.Extends t) {n : ν} (hn : s.Finished n) : t.Finished n :=
  ⟨h.visited n hn.1, fun hp => hn.2 ((h.recStack n).mp hp)⟩

/-- Between entering a node and leaving it again the path comes back to what it was. -/
theorem Search.Extends.leave_of_enter {n : ν} (h : (s.enter n).Extends t)
    (hn : n ∉ s.recStack) : s.Extends (t.leave n) where
  visited m hm := h.visited m (List.mem_insert_of_mem hm)
  recStack m := by
    have hm := h.recStack m
    unfold Search.enter at hm
    unfold Search.leave
    rw [List.mem_filter, hm, List.mem_insert_iff]
    constructor
    · rintro ⟨hmn | hms, hne⟩
      · exact absurd hmn (of_decide_eq_true hne)
      · exact hms
    · intro hms
      exact ⟨Or.inr hms, decide_eq_true fun he => hn (he ▸ hms)⟩

theorem finished_leave {n : ν} (hn : n ∈ s.visited) (m : ν) :
    (s.leave n).Finished m ↔ m = n ∨ s.Finished m := by
  unfold Search.Finished Search.leave
  simp only [List.mem_filter, decide_eq_true_eq, not_and]
  constructor
  · rintro ⟨hv, hm⟩
    by_cases he : m = n
    · exact Or.inl he
    · exact Or.inr ⟨hv, fun hp => hm hp he⟩
  · rintro (rfl | ⟨hv, hm⟩)
    · exact ⟨hn, fun _ hne => hne rfl⟩
    · exact ⟨hv, fun hp => absurd hp hm⟩

/-- A node whose neighbours are all finished can be finished. -/
theorem Search.Sound.leave (hs : s.Sound E) {n : ν} (hn : n ∈ s.recStack)
    (hsucc : ∀ b, E n b → s.Finished b) : (s.leave n).Sound E := by
  have hv : n ∈ s.visited := hs.onPath n hn
  refine ⟨?_, ?_, ?_⟩
  · intro m hm
    exact hs.onPath m (List.mem_filter.mp hm).1
  · intro a b ha hab
    rw [finished_leave hv] at ha ⊢
    rcases ha with rfl | ha
    · exact Or.inr (hsucc b hab)
    · exact Or.inr (hs.closed a b ha hab)
  · intro a ha hcyc
    rcases (finished_leave hv a).mp ha with rfl | ha
    · -- a walk from the node back to itself would leave the finished nodes
      rcases Relation.TransGen.head'_iff.mp hcyc with ⟨b, hab, hba⟩
      have hb : s.Finished b := hsucc b hab
      rcases Relation.reflTransGen_iff_eq_or_transGen.mp hba with he | hba
      · exact hb.2 (he ▸ hn)
      · exact (hs.walk hb hba).2 hn
    · exact hs.acyclic a ha hcyc

/-! ## The recursion -/

variable {overflow : ε} {next : α → Except ε ν} {succs : ν → List α}

/-- What a call that finds nothing guarantees. -/
def Visits (E : ν → ν → Prop) (visit : ν → Search ν → Except ε (Bool × Search ν)) : Prop :=
  ∀ n s t, s.Sound E → n ∉ s.visited → visit n s = .ok (false, t) →
    t.Sound E ∧ s.Extends t ∧ t.Finished n

/-- After a loop over neighbours that finds nothing, all of them are finished. -/
theorem scan_sound {recur : ν → Search ν → Except ε (Bool × Search ν)}
    (hrec : Visits E recur) : ∀ (l : List α) (s t : Search ν), s.Sound E →
      scan next recur l s = .ok (false, t) →
      t.Sound E ∧ s.Extends t ∧ ∀ a ∈ l, ∃ n, next a = .ok n ∧ t.Finished n
  | [], s, t, hs, h => by
    obtain ⟨-, rfl⟩ : false = false ∧ s = t := by simpa [scan] using h
    exact ⟨hs, Search.Extends.refl s, fun a ha => absurd ha List.not_mem_nil⟩
  | a :: l, s, t, hs, h => by
    unfold scan at h
    cases hn : next a with
    | error e => simp [hn] at h
    | ok n =>
      simp only [hn] at h
      by_cases hv : n ∈ s.visited
      · rw [if_neg (not_not.mpr hv)] at h
        by_cases hp : n ∈ s.recStack
        · simp [hp] at h
        · rw [if_neg hp] at h
          obtain ⟨ht, hext, hl⟩ := scan_sound hrec l s t hs h
          refine ⟨ht, hext, ?_⟩
          rintro b (_ | ⟨_, hb⟩)
          · exact ⟨n, hn, hext.finished ⟨hv, hp⟩⟩
          · exact hl b hb
      · rw [if_pos hv] at h
        split at h
        · cases h
        · cases h
        · next s' hr =>
          obtain ⟨hs', hext', hfin⟩ := hrec n s s' hs hv hr
          obtain ⟨ht, hext, hl⟩ := scan_sound hrec l s' t hs' h
          refine ⟨ht, hext'.trans hext, ?_⟩
          rintro b (_ | ⟨_, hb⟩)
          · exact ⟨n, hn, hext.finished hfin⟩
          · exact hl b hb

/-- A search from a new node that finds nothing finishes it, at every depth. -/
theorem hasCycle_sound (hE : ∀ a b, E a b → Edge next succs a b) :
    ∀ d, Visits E (hasCycle overflow next succs d)
  | 0, n, s, t, _, _, h => by simp [hasCycle] at h
  | d + 1, n, s, t, hs, hn, h => by
    unfold hasCycle at h
    split at h
    · cases h
    · cases h
    · next s' hscan =>
      obtain ⟨-, rfl⟩ : false = false ∧ s'.leave n = t := by simpa using h
      obtain ⟨hs', hext, hl⟩ :=
        scan_sound (hasCycle_sound hE d) (succs n) (s.enter n) s' (hs.enter hn) hscan
      have hpath : n ∈ s'.recStack := (hext.recStack n).mpr List.mem_insert_self
      have hsucc : ∀ b, E n b → s'.Finished b := by
        intro b hb
        obtain ⟨x, hx, hxb⟩ := hE n b hb
        obtain ⟨m, hm, hfin⟩ := hl x hx
        rw [hxb] at hm
        exact Except.ok.inj hm ▸ hfin
      exact ⟨hs'.leave hpath hsucc, hext.leave_of_enter fun hp => hn (hs.onPath n hp),
        (finished_leave (hs'.onPath n hpath) n).mpr (Or.inl rfl)⟩

/-- After a loop over roots that finds nothing, all of them are finished. -/
theorem fromRoots_sound {visit : ν → Search ν → Except ε (Bool × Search ν)}
    (hvisit : Visits E visit) : ∀ (roots : List ν) (s t : Search ν), s.Sound E →
      (∀ n, n ∉ s.recStack) → fromRoots visit roots s = .ok (false, t) →
      t.Sound E ∧ s.Extends t ∧ ∀ n ∈ roots, t.Finished n
  | [], s, t, hs, _, h => by
    obtain ⟨-, rfl⟩ : false = false ∧ s = t := by simpa [fromRoots] using h
    exact ⟨hs, Search.Extends.refl s, fun n hn => absurd hn List.not_mem_nil⟩
  | n :: roots, s, t, hs, hp, h => by
    unfold fromRoots at h
    by_cases hv : n ∈ s.visited
    · rw [if_pos hv] at h
      obtain ⟨ht, hext, hl⟩ := fromRoots_sound hvisit roots s t hs hp h
      refine ⟨ht, hext, ?_⟩
      rintro m (_ | ⟨_, hm⟩)
      · exact hext.finished ⟨hv, hp n⟩
      · exact hl m hm
    · rw [if_neg hv] at h
      split at h
      · cases h
      · cases h
      · next s' hr =>
        obtain ⟨hs', hext', hfin⟩ := hvisit n s s' hs hv hr
        have hp' : ∀ m, m ∉ s'.recStack := fun m hm => hp m ((hext'.recStack m).mp hm)
        obtain ⟨ht, hext, hl⟩ := fromRoots_sound hvisit roots s' t hs' hp' h
        refine ⟨ht, hext'.trans hext, ?_⟩
        rintro m (_ | ⟨_, hm⟩)
        · exact hext.finished hfin
        · exact hl m hm

/-- A search from all roots that finds nothing : no root lies on a cycle. -/
theorem not_transGen_of_fromRoots (hE : ∀ a b, E a b → Edge next succs a b) {d : ℕ}
    {roots : List ν} {t : Search ν}
    (h : fromRoots (hasCycle overflow next succs d) roots ⟨[], []⟩ = .ok (false, t))
    {n : ν} (hn : n ∈ roots) : ¬ Relation.TransGen E n n := by
  obtain ⟨ht, -, hl⟩ := fromRoots_sound (hasCycle_sound hE d) roots ⟨[], []⟩ t sound_empty
    (fun _ => List.not_mem_nil) h
  exact ht.acyclic n (hl n hn)

/-! ## A cycle that is reported -/

/-- Every node of the path leads to `n`. -/
def Search.LeadsTo (E : ν → ν → Prop) (s : Search ν) (n : ν) : Prop :=
  ∀ m ∈ s.recStack, Relation.ReflTransGen E m n

theorem Search.LeadsTo.step {n b : ν} (h : s.LeadsTo E n) (hb : E n b) : s.LeadsTo E b :=
  fun m hm => (h m hm).tail hb

theorem Search.LeadsTo.enter {n : ν} (h : s.LeadsTo E n) : (s.enter n).LeadsTo E n := by
  intro m hm
  rcases List.mem_insert_iff.mp hm with rfl | hm
  · exact .refl
  · exact h m hm

theorem Search.LeadsTo.of_extends {n : ν} (h : s.LeadsTo E n) (hst : s.Extends t) :
    t.LeadsTo E n :=
  fun m hm => h m ((hst.recStack m).mp hm)

/-- What a call that reports a cycle guarantees. -/
def Reports (E : ν → ν → Prop) (visit : ν → Search ν → Except ε (Bool × Search ν)) : Prop :=
  ∀ n s t, s.Sound E → n ∉ s.visited → s.LeadsTo E n → visit n s = .ok (true, t) →
    ∃ m, Relation.TransGen E m m

/-- A loop over neighbours of a node that the path leads to. -/
theorem scan_reports {recur : ν → Search ν → Except ε (Bool × Search ν)} {n : ν}
    (hvisits : Visits E recur) (hrec : Reports E recur) :
    ∀ (l : List α) (s t : Search ν), (∀ a ∈ l, ∀ b, next a = .ok b → E n b) → s.Sound E →
      s.LeadsTo E n → scan next recur l s = .ok (true, t) → ∃ m, Relation.TransGen E m m
  | [], s, t, _, _, _, h => by simp [scan] at h
  | a :: l, s, t, hedge, hs, hn, h => by
    have hrest : ∀ x ∈ l, ∀ b, next x = .ok b → E n b := fun x hx =>
      hedge x (List.mem_cons_of_mem a hx)
    unfold scan at h
    cases hb : next a with
    | error e => simp [hb] at h
    | ok b =>
      have hnb : E n b := hedge a List.mem_cons_self b hb
      simp only [hb] at h
      by_cases hv : b ∈ s.visited
      · rw [if_neg (not_not.mpr hv)] at h
        by_cases hp : b ∈ s.recStack
        · -- the edge leads back to the path, which leads here
          exact ⟨b, .tail' (hn b hp) hnb⟩
        · rw [if_neg hp] at h
          exact scan_reports hvisits hrec l s t hrest hs hn h
      · rw [if_pos hv] at h
        split at h
        · cases h
        · next s' hr => exact hrec b s s' hs hv (hn.step hnb) hr
        · next s' hr =>
          obtain ⟨hs', hext, -⟩ := hvisits b s s' hs hv hr
          exact scan_reports hvisits hrec l s' t hrest hs' (hn.of_extends hext) h

theorem hasCycle_reports (hE : ∀ a b, E a b ↔ Edge next succs a b) :
    ∀ d, Reports E (hasCycle overflow next succs d)
  | 0, n, s, t, _, _, _, h => by simp [hasCycle] at h
  | d + 1, n, s, t, hs, hnew, hn, h => by
    have hvisits : Visits E (hasCycle overflow next succs d) :=
      hasCycle_sound (fun a b => (hE a b).mp) d
    unfold hasCycle at h
    split at h
    · cases h
    · next s' hscan =>
      exact scan_reports hvisits (hasCycle_reports hE d) (succs n) (s.enter n) s'
        (fun x hx b hb => (hE n b).mpr ⟨x, hx, hb⟩) (hs.enter hnew) hn.enter hscan
    · cases h

/-- A search from all roots that reports a cycle has found one. -/
theorem exists_transGen_of_fromRoots (hE : ∀ a b, E a b ↔ Edge next succs a b) {d : ℕ} :
    ∀ (roots : List ν) (s t : Search ν), s.Sound E → (∀ n, n ∉ s.recStack) →
      fromRoots (hasCycle overflow next succs d) roots s = .ok (true, t) →
      ∃ m, Relation.TransGen E m m
  | [], s, t, _, _, h => by simp [fromRoots] at h
  | n :: roots, s, t, hs, hp, h => by
    unfold fromRoots at h
    by_cases hv : n ∈ s.visited
    · rw [if_pos hv] at h
      exact exists_transGen_of_fromRoots hE roots s t hs hp h
    · rw [if_neg hv] at h
      split at h
      · cases h
      · next s' hr =>
        exact hasCycle_reports hE d n s s' hs hv (fun m hm => absurd hm (hp m)) hr
      · next s' hr =>
        obtain ⟨hs', hext, -⟩ := hasCycle_sound (fun a b => (hE a b).mp) d n s s' hs hv hr
        exact exists_transGen_of_fromRoots hE roots s' t hs'
          (fun m hm => hp m ((hext.recStack m).mp hm)) h

/-! ## Enough room -/

/-- The search visits more and more. -/
def Grows (visit : ν → Search ν → Except ε (Bool × Search ν)) : Prop :=
  ∀ n s found t, visit n s = .ok (found, t) → ∀ m ∈ s.visited, m ∈ t.visited

theorem scan_grows {recur : ν → Search ν → Except ε (Bool × Search ν)} (hrec : Grows recur) :
    ∀ (l : List α) (s : Search ν) {found : Bool} {t : Search ν},
      scan next recur l s = .ok (found, t) → ∀ m ∈ s.visited, m ∈ t.visited
  | [], s, found, t, h => by
    obtain ⟨-, rfl⟩ := Prod.mk.inj (Except.ok.inj h)
    exact fun _ hm => hm
  | a :: l, s, found, t, h => by
    unfold scan at h
    split at h
    · cases h
    next n _ =>
      split_ifs at h
      · obtain ⟨-, rfl⟩ := Prod.mk.inj (Except.ok.inj h)
        exact fun _ hm => hm
      · exact scan_grows hrec l s h
      · split at h
        · cases h
        next s' hr =>
          obtain ⟨-, rfl⟩ := Prod.mk.inj (Except.ok.inj h)
          exact hrec n s true s' hr
        next s' hr =>
          exact fun m hm => scan_grows hrec l s' h m (hrec n s false s' hr m hm)

theorem hasCycle_grows : ∀ d, Grows (hasCycle overflow next succs d)
  | 0, n, s, found, t, h => nomatch h
  | d + 1, n, s, found, t, h => by
    unfold hasCycle at h
    have hscan : ∀ {found : Bool} {s' : Search ν},
        scan next (hasCycle overflow next succs d) (succs n) (s.enter n) = .ok (found, s') →
        ∀ m ∈ s.visited, m ∈ s'.visited := fun hs m hm =>
      scan_grows (hasCycle_grows d) (succs n) _ hs m (List.mem_insert_of_mem hm)
    split at h
    · cases h
    next s' hs =>
      obtain ⟨-, rfl⟩ := Prod.mk.inj (Except.ok.inj h)
      exact hscan hs
    next s' hs =>
      obtain ⟨-, rfl⟩ := Prod.mk.inj (Except.ok.inj h)
      change ∀ m ∈ s.visited, m ∈ s'.visited
      exact hscan hs

/-- How many of the nodes are not visited. -/
def Search.left (s : Search ν) (nodes : Finset ν) : ℕ :=
  (nodes.filter (· ∉ s.visited)).card

theorem left_le_of_visited {nodes : Finset ν} (h : ∀ m ∈ s.visited, m ∈ t.visited) :
    t.left nodes ≤ s.left nodes := by
  refine Finset.card_le_card fun m hm => ?_
  obtain ⟨hnode, hnew⟩ := Finset.mem_filter.mp hm
  exact Finset.mem_filter.mpr ⟨hnode, fun hs => hnew (h m hs)⟩

theorem left_enter_lt {nodes : Finset ν} {n : ν} (hn : n ∈ nodes) (hnew : n ∉ s.visited) :
    (s.enter n).left nodes < s.left nodes := by
  refine Finset.card_lt_card (Finset.ssubset_iff_subset_ne.mpr ⟨fun m hm => ?_, fun he => ?_⟩)
  · obtain ⟨hnode, hm⟩ := Finset.mem_filter.mp hm
    exact Finset.mem_filter.mpr ⟨hnode, fun hs => hm (List.mem_insert_of_mem hs)⟩
  · have hmem : n ∈ nodes.filter (· ∉ (s.enter n).visited) :=
      he ▸ Finset.mem_filter.mpr ⟨hn, hnew⟩
    exact (Finset.mem_filter.mp hmem).2 List.mem_insert_self

/-- The search of a finite graph : from one of the nodes only nodes are found, and looking at
them does not overflow. -/
structure Within (overflow : ε) (next : α → Except ε ν) (succs : ν → List α)
    (nodes : Finset ν) : Prop where
  closed : ∀ n ∈ nodes, ∀ a ∈ succs n, ∀ m, next a = .ok m → m ∈ nodes
  next : ∀ a, next a ≠ .error overflow

/-- The loop overflows only if a call for one of its nodes does. -/
theorem scan_ne_overflow {recur : ν → Search ν → Except ε (Bool × Search ν)} {nodes : Finset ν}
    {d : ℕ} (hgrows : Grows recur) (hnext : ∀ a, next a ≠ .error overflow)
    (hrec : ∀ n ∈ nodes, ∀ s : Search ν, n ∉ s.visited → s.left nodes ≤ d →
      recur n s ≠ .error overflow) :
    ∀ (l : List α) (s : Search ν), (∀ a ∈ l, ∀ m, next a = .ok m → m ∈ nodes) →
      s.left nodes ≤ d → scan next recur l s ≠ .error overflow
  | [], s, _, _ => nofun
  | a :: l, s, hl, hd => by
    have hrest : ∀ t : Search ν, t.left nodes ≤ d → scan next recur l t ≠ .error overflow :=
      fun t => scan_ne_overflow hgrows hnext hrec l t fun b hb => hl b (List.mem_cons_of_mem a hb)
    unfold scan
    split
    next e he =>
      intro h
      obtain rfl := Except.error.inj h
      exact hnext a he
    next n hn =>
      split_ifs with hnew
      · exact nofun
      · exact hrest s hd
      · split
        next e he =>
          exact fun h => hrec n (hl a List.mem_cons_self n hn) s hnew hd (he.trans h)
        next => exact nofun
        next s' hs =>
          exact hrest s' ((left_le_of_visited (hgrows n s false s' hs)).trans hd)

/-- A search does not overflow with room for a call for each node that is not visited. -/
theorem hasCycle_ne_overflow {nodes : Finset ν} (h : Within overflow next succs nodes) :
    ∀ d, ∀ n ∈ nodes, ∀ s : Search ν, n ∉ s.visited → s.left nodes ≤ d →
      hasCycle overflow next succs d n s ≠ .error overflow
  | 0, n, hn, s, hnew, hd => absurd (left_enter_lt hn hnew) (by omega)
  | d + 1, n, hn, s, hnew, hd => by
    have hscan := scan_ne_overflow (hasCycle_grows d) h.next (hasCycle_ne_overflow h d) (succs n)
      (s.enter n) (h.closed n hn) (by have := left_enter_lt hn hnew; omega)
    unfold hasCycle
    split
    next e he => exact fun heq => hscan (he.trans heq)
    next => exact nofun
    next => exact nofun

/-- The search from all roots does not overflow with room for a call for each node. -/
theorem fromRoots_ne_overflow {nodes : Finset ν} {d : ℕ}
    (h : Within overflow next succs nodes) (hd : nodes.card ≤ d) :
    ∀ (roots : List ν) (s : Search ν), (∀ n ∈ roots, n ∈ nodes) →
      fromRoots (hasCycle overflow next succs d) roots s ≠ .error overflow
  | [], s, _ => nofun
  | n :: roots, s, hroots => by
    have hleft : s.left nodes ≤ d := (Finset.card_filter_le nodes _).trans hd
    have hrest := fun t => fromRoots_ne_overflow h hd roots t fun m hm =>
      hroots m (List.mem_cons_of_mem n hm)
    unfold fromRoots
    split_ifs with hnew
    · exact hrest s
    · split
      next e he =>
        exact fun heq => hasCycle_ne_overflow h d n (hroots n List.mem_cons_self) s hnew hleft
          (he.trans heq)
      next => exact nofun
      next s' _ => exact hrest s'

/-! ## Other errors -/

theorem scan_ne_error {recur : ν → Search ν → Except ε (Bool × Search ν)} {e : ε}
    (hrec : ∀ n s, recur n s ≠ .error e) :
    ∀ (l : List α) (s : Search ν), (∀ a ∈ l, next a ≠ .error e) →
      scan next recur l s ≠ .error e
  | [], s, _ => nofun
  | a :: l, s, hnext => by
    have hrest := fun t => scan_ne_error hrec l t fun b hb => hnext b (List.mem_cons_of_mem a hb)
    unfold scan
    split
    next e' he =>
      intro h
      obtain rfl := Except.error.inj h
      exact hnext a List.mem_cons_self he
    next n _ =>
      split_ifs
      · exact nofun
      · exact hrest s
      · split
        next e' he => exact fun h => hrec n s (he.trans h)
        next => exact nofun
        next s' _ => exact hrest s'

theorem hasCycle_ne_error {e : ε} (he : e ≠ overflow)
    (hnext : ∀ n, ∀ a ∈ succs n, next a ≠ .error e) :
    ∀ d n s, hasCycle overflow next succs d n s ≠ .error e
  | 0, n, s => fun h => he (Except.error.inj h).symm
  | d + 1, n, s => by
    have hscan := scan_ne_error (hasCycle_ne_error he hnext d) (succs n) (s.enter n) (hnext n)
    unfold hasCycle
    split
    next e' he' => exact fun h => hscan (he'.trans h)
    next => exact nofun
    next => exact nofun

/-- The search raises no error but `overflow` and those of looking at a neighbour. -/
theorem fromRoots_ne_error {e : ε} (he : e ≠ overflow)
    (hnext : ∀ n, ∀ a ∈ succs n, next a ≠ .error e) (d : ℕ) :
    ∀ (roots : List ν) (s : Search ν),
      fromRoots (hasCycle overflow next succs d) roots s ≠ .error e
  | [], s => nofun
  | n :: roots, s => by
    have hrest := fromRoots_ne_error he hnext d roots
    unfold fromRoots
    split_ifs
    · exact hrest s
    · split
      next e' he' => exact fun h => hasCycle_ne_error he hnext d n s (he'.trans h)
      next => exact nofun
      next s' _ => exact hrest s'

end DepthFirst

end MultiAgent
