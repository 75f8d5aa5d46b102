import MultiAgent.Lib.ObjectValues
import MultiAgent.Workflows.WorkflowAliasing
import MultiAgent.Workflows.WorkflowMerge

/-!
# Merging dictionaries that are objects

`_deep_merge` recurses where a dictionary meets a dictionary, so it needs a call for each level
of the second one (`levels`). With room for these, what it returns denotes the merge of what its
arguments denote, and no object is modified (`deepMerge_denotes`).
-/

namespace MultiAgent

namespace WorkflowObjects

open ObjectHeap

mutual

/-- How deep a value is nested. -/
def levels : PyValue → ℕ
  | .obj d => levelsItems d + 1
  | _ => 0
termination_by structural v => v

/-- How deep the values of a dictionary are nested. -/
def levelsItems : Items → ℕ
  | [] => 0
  | (_, v) :: d => max (levels v) (levelsItems d)
termination_by structural d => d

end

/-- The computation gives what denotes the document, and only allocates. -/
def Gives (x : Mem Fields) (h : Heap) (d : Items) : Prop :=
  ∃ fields g, x h = (.ok fields, g) ∧ h <+: g ∧ DenotesFields g fields d

/-- Merges with room for `n` levels give what the merges of the documents are. -/
def Merges (merge : Fields → Fields → Mem Fields) (n : ℕ) : Prop :=
  ∀ h base override a b, DenotesFields h base a → DenotesFields h override b →
    levelsItems b < n → Gives (merge base override) h (WorkflowLoader.deepMerge a b)

theorem mergeField_denotes {merge : Fields → Fields → Mem Fields} {n : ℕ} (hmerge : Merges merge n)
    {h : Heap} {old : Option Val} {value : Val} {o : Option PyValue} {x : PyValue}
    (hold : DenotesOption h old o) (hvalue : Denotes h value x) (hlevels : levels x ≤ n) :
    ∃ v g, mergeField merge old value h = (.ok v, g) ∧ h <+: g ∧
      Denotes g v (WorkflowLoader.mergeValue o x) := by
  cases hold with
  | none =>
    refine ⟨value, h, rfl, List.prefix_refl h, ?_⟩
    rw [WorkflowLoader.mergeValue_none]
    exact hvalue
  | some hv =>
    next v y =>
      unfold mergeField
      simp only [bind_apply, look]
      by_cases hboth : WorkflowLoader.IsDict x ∧ ∃ z, some y = some z ∧ WorkflowLoader.IsDict z
      · obtain ⟨⟨b, rfl⟩, _, hz, a, rfl⟩ := hboth
        obtain rfl := Option.some.inj hz
        obtain ⟨base, hbase, ha⟩ := exists_view hv
        obtain ⟨override, hoverride, hb⟩ := exists_view hvalue
        obtain ⟨merged, g, hrun, hgrown, hd⟩ := hmerge h base override a b ha hb hlevels
        rw [hbase, hoverride, WorkflowLoader.mergeValue_obj]
        refine ⟨.ref g.length, g ++ [.dict merged], ?_, hgrown.trans (List.prefix_append _ _),
          denotes_alloc hd⟩
        simp only [bind_apply, hrun]
        rfl
      · refine ⟨value, h, ?_, List.prefix_refl h, ?_⟩
        · cases hbase : view h v with
          | dict base =>
            cases hoverride : view h value with
            | dict override =>
              obtain ⟨a, rfl, -⟩ := exists_obj hv hbase
              obtain ⟨b, rfl, -⟩ := exists_obj hvalue hoverride
              exact absurd ⟨⟨b, rfl⟩, _, rfl, a, rfl⟩ hboth
            | _ => rfl
          | _ => rfl
        · rw [WorkflowLoader.mergeValue_of_not_isDict hboth]
          exact hvalue

theorem mergeFields_denotes {merge : Fields → Fields → Mem Fields} {n : ℕ}
    (hmerge : Merges merge n) : ∀ {h : Heap} {base override : Fields} {a b : Items},
      DenotesFields h base a → DenotesFields h override b → levelsItems b ≤ n →
        Gives (mergeFields merge base override) h (WorkflowLoader.deepMerge a b)
  | h, base, [], a, [], ha, _, _ => by
    rw [WorkflowLoader.deepMerge]
    exact ⟨base, h, rfl, List.prefix_refl h, ha⟩
  | h, base, (k, value) :: override, a, (k', x) :: b, ha, hb, hlevels => by
    obtain ⟨hk, hvalue, hrest⟩ := hb
    obtain rfl : k = k' := hk
    rw [levelsItems, max_le_iff] at hlevels
    obtain ⟨v, g, hrun, hgrown, hv⟩ := mergeField_denotes hmerge (ha.lookup k) hvalue hlevels.1
    obtain ⟨fields, g', hrun', hgrown', hd⟩ :=
      mergeFields_denotes hmerge ((ha.mono hgrown).setItem k hv) (hrest.mono hgrown) hlevels.2
    rw [WorkflowLoader.deepMerge]
    refine ⟨fields, g', ?_, hgrown.trans hgrown', hd⟩
    unfold mergeFields
    rw [bind_apply, hrun]
    exact hrun'

/-- With room for a call for each level a merge gives the merge of the documents. -/
theorem deepMerge_denotes : ∀ limit, Merges (deepMerge limit) limit
  | 0, _, _, _, _, _, _, _, hlevels => absurd hlevels (Nat.not_lt_zero _)
  | limit + 1, _, _, _, _, _, ha, hb, hlevels =>
    mergeFields_denotes (deepMerge_denotes limit) ha hb (Nat.le_of_lt_succ hlevels)

/-- `_deep_merge`, with room for its calls, returns the least surprising merge of its arguments.
It modifies no object, also without room. Merging the second again or an empty dictionary
changes nothing, and merges associate where dictionaries meet only dictionaries. -/
theorem deepMerge_laws {h : Heap} {base override : Fields} {a b : Items}
    (hbase : DenotesFields h base a) (hoverride : DenotesFields h override b)
    (ha : WorkflowLoader.WellFormed (.obj a)) (hb : WorkflowLoader.WellFormed (.obj b)) :
    (∀ limit, levelsItems b < limit →
      Gives (deepMerge limit base override) h (WorkflowLoader.deepMerge a b)) ∧
    (∀ limit, h <+: (deepMerge limit base override h).2) ∧
    WorkflowLoader.LeastMerge a b (WorkflowLoader.deepMerge a b) ∧
    WorkflowLoader.deepMerge (WorkflowLoader.deepMerge a b) b = WorkflowLoader.deepMerge a b ∧
    WorkflowLoader.deepMerge a [] = a ∧
    ∀ c, WorkflowLoader.WellFormed (.obj c) → WorkflowLoader.MeetDicts a b →
      WorkflowLoader.MeetDicts b c → WorkflowLoader.MeetDicts a c →
      WorkflowLoader.deepMerge (WorkflowLoader.deepMerge a b) c =
        WorkflowLoader.deepMerge a (WorkflowLoader.deepMerge b c) := by
  have hitems := ha
  rw [WorkflowLoader.WellFormed] at hitems
  refine ⟨fun limit hlimit => ?_, fun limit => ?_, ?_, ?_, ?_, fun c hc hab hbc hac => ?_⟩
  · exact deepMerge_denotes limit h base override a b hbase hoverride hlimit
  · exact allocates_of_tame (tame_deepMerge limit base override) h
  · exact WorkflowLoader.leastMerge_deepMerge hb
  · exact WorkflowLoader.deepMerge_deepMerge_self hitems.1 hb hitems.2
  · exact WorkflowLoader.deepMerge_nil a
  · exact WorkflowLoader.deepMerge_assoc ha hb hc hab hbc hac

/-- Two dictionaries of settings. -/
def settingsHeap : Heap :=
  [.dict [(.str "timeout", .atom (.int 30)), (.str "retries", .atom (.int 3))],
    .dict [(.str "timeout", .atom (.int 60))]]

/-- Settings that are overridden in part. -/
theorem deepMerge_laws_settings :
    Gives (deepMerge 2 [(.str "settings", .ref 0)] [(.str "settings", .ref 1)]) settingsHeap
      [(.str "settings", .obj [(.str "timeout", .int 60), (.str "retries", .int 3)])] := by
  have hbase : DenotesFields settingsHeap [(.str "settings", .ref 0)]
      [(.str "settings", .obj [(.str "timeout", .int 30), (.str "retries", .int 3)])] :=
    ⟨rfl, Or.inr ⟨0, _, rfl, rfl, rfl, rfl, rfl, rfl, trivial⟩, trivial⟩
  have hoverride : DenotesFields settingsHeap [(.str "settings", .ref 1)]
      [(.str "settings", .obj [(.str "timeout", .int 60)])] :=
    ⟨rfl, Or.inr ⟨1, _, rfl, rfl, rfl, rfl, trivial⟩, trivial⟩
  exact (deepMerge_laws hbase hoverride ⟨by decide, ⟨by decide, trivial, trivial, trivial⟩, trivial⟩
    ⟨by decide, ⟨by decide, trivial, trivial⟩, trivial⟩).1 2 (by decide)

end WorkflowObjects

end MultiAgent
