import Mathlib.Data.Fintype.EquivFin
import MultiAgent.Security.CVEGates

/-!
# Which gates are sound and monotone

A gate should fail for every blocked vulnerability of a listed component, count every other open
one that is not below its threshold and not allowed (`Sound`), and not give a better verdict for
more components or a more severe vulnerability (`Monotone`).

The filter of the gate drops what is *above* the threshold, and what is allowed before it is
looked up among the blocked. So some databases and components break every gate but those whose
threshold is `CRITICAL` and which allow nothing that they block (`sound_iff` says which). And a
vulnerability that gets more severe leaves one count for another, which lowers the verdict
unless one of the higher severity is too much already. Hence the gates that keep the law are
those with no tolerance above `LOW`, and those that look at no component (`lawful_iff`).
-/

namespace MultiAgent

namespace CVEGates

variable (lower : String → String) (rule : CVEGateRule) (m : CVEGatesManager)
  (components : List Component)

/-- The status that `evaluate_gate` returns. -/
def gateStatus : Option GateStatus :=
  (m.evaluateGate lower rule.ruleId components).map GateResult.status

/-- Both gates have a verdict, and the second is not better. -/
def NotLowered (status status' : Option GateStatus) : Prop :=
  ∃ a b, status = some a ∧ status' = some b ∧ a.rank ≤ b.rank

/-- No vulnerability gets past the gate. -/
structure Sound : Prop where
  blocked : ∀ x, Exposed lower rule m components x →
    x.vulnerability.cveId ∈ rule.blockedCveIds → gateStatus lower rule m components = some .fail
  counted : ∀ x, Exposed lower rule m components x → x.vulnerability.status = .opened →
    x.vulnerability.cveId ∉ rule.blockedCveIds → x.vulnerability.cveId ∉ rule.allowedCveIds →
      severityLevel rule.severityThreshold ≤ severityLevel x.vulnerability.severity →
        x ∈ m.counted lower rule components

/-- The manager after the severity of a vulnerability was changed. -/
def CVEGatesManager.withSeverity (id : String) (v : Vulnerability)
    (severity : VulnerabilitySeverity) : CVEGatesManager :=
  { m with vulnerabilities := m.vulnerabilities.set id { v with severity } }

/-- More components or a more severe vulnerability do not lower the verdict. -/
structure Monotone : Prop where
  more : ∀ components', components.Sublist components' →
    NotLowered (gateStatus lower rule m components) (gateStatus lower rule m components')
  worse : ∀ id v severity, m.vulnerabilities.get? id = some v →
    severityLevel v.severity ≤ severityLevel severity →
      NotLowered (gateStatus lower rule m components)
        (gateStatus lower rule (m.withSeverity id v severity) components)

/-- The gate of the rule is sound and monotone, whatever is in the database and listed. -/
def Lawful : Prop :=
  ∀ m : CVEGatesManager, m.gateRules.get? rule.ruleId = some rule → ∀ components,
    Sound lower rule m components ∧ Monotone lower rule m components

/-- No component passes the filters, or the threshold is the highest, nothing above `LOW` is
tolerated, and nothing is both blocked and allowed. -/
def Strict : Prop :=
  (∀ componentName, componentName ≠ "" → ¬Passes rule componentName) ∨
    rule.severityThreshold = .critical ∧ rule.maxCriticalVulnerabilities = 0 ∧
      rule.maxHighVulnerabilities = 0 ∧ rule.maxMediumVulnerabilities = 0 ∧
        ∀ id ∈ rule.blockedCveIds, id ∉ rule.allowedCveIds

variable {lower rule m components} {l l' : List ComponentVulnerability}

theorem gateStatus_eq (h : m.gateRules.get? rule.ruleId = some rule) :
    gateStatus lower rule m components =
      some (statusOf rule (m.counted lower rule components)) := by
  unfold gateStatus CVEGatesManager.evaluateGate
  rw [h]
  rfl

theorem notLowered_iff {a b : GateStatus} : NotLowered (some a) (some b) ↔ a.rank ≤ b.rank := by
  simp [NotLowered]

/-! ## Soundness -/

/-- What the gate misses : an open vulnerability above the threshold that is neither blocked nor
allowed, or blocked ones that are all allowed or above the threshold, with no limit exceeded for
which the gate fails. -/
theorem sound_iff (h : m.gateRules.get? rule.ruleId = some rule) :
    Sound lower rule m components ↔
      (∀ x, Exposed lower rule m components x → x.vulnerability.status = .opened →
        x.vulnerability.cveId ∉ rule.blockedCveIds → x.vulnerability.cveId ∉ rule.allowedCveIds →
          severityLevel x.vulnerability.severity ≤ severityLevel rule.severityThreshold) ∧
      ∀ x, Exposed lower rule m components x → x.vulnerability.cveId ∈ rule.blockedCveIds →
        Fails rule (m.counted lower rule components) := by
  constructor
  · intro hsound
    refine ⟨fun x hx hopen hblocked hallowed => ?_, fun x hx hblocked => ?_⟩
    · rcases Nat.le_total (severityLevel rule.severityThreshold)
        (severityLevel x.vulnerability.severity) with hle | hle
      · exact (mem_counted_iff.mp (hsound.counted x hx hopen hblocked hallowed hle)).2.1
      · exact hle
    · have hfail := hsound.blocked x hx hblocked
      rw [gateStatus_eq h] at hfail
      exact statusOf_eq_fail_iff.mp (Option.some.inj hfail)
  · rintro ⟨hcounted, hblocked⟩
    refine ⟨fun x hx hx' => ?_, fun x hx hopen hx' hallowed _ => ?_⟩
    · rw [gateStatus_eq h, statusOf_eq_fail_iff.mpr (hblocked x hx hx')]
    · exact mem_counted_iff.mpr ⟨hx, hcounted x hx hopen hx' hallowed, hallowed⟩

/-! ## Raised severities -/

/-- The same vulnerability of the same component, but for its severity. -/
structure Raised (x y : ComponentVulnerability) : Prop where
  componentName : y.componentName = x.componentName
  cveId : y.vulnerability.cveId = x.vulnerability.cveId
  severity : severityLevel x.vulnerability.severity ≤ severityLevel y.vulnerability.severity

theorem severity_eq_critical {s : VulnerabilitySeverity} (h : 4 ≤ severityLevel s) :
    s = .critical := by
  cases s <;> simp [severityLevel] at h ⊢

theorem severityLevel_le_critical (s : VulnerabilitySeverity) :
    severityLevel s ≤ severityLevel .critical := by
  cases s <;> simp [severityLevel]

/-- The same vulnerability, but for its severity. -/
structure Worse (v w : Vulnerability) : Prop where
  cveId : w.cveId = v.cveId
  affectedComponents : w.affectedComponents = v.affectedComponents
  severity : severityLevel v.severity ≤ severityLevel w.severity

theorem items_worse {d : Dict String Vulnerability} {id : String} {v : Vulnerability}
    {severity : VulnerabilitySeverity} (hv : d.get? id = some v)
    (hle : severityLevel v.severity ≤ severityLevel severity) :
    List.Forall₂ Worse (d.items.map Prod.snd)
      ((d.set id { v with severity }).items.map Prod.snd) := by
  have hmem : id ∈ d.items.map Prod.fst := Dict.mem_of_get? hv
  rw [Dict.items_set, Dict.setItem, if_pos hmem, Dict.replaceItem, List.map_map,
    List.forall₂_map_left_iff, List.forall₂_map_right_iff, List.forall₂_same]
  rintro ⟨key, w⟩ hw
  by_cases hkey : key = id
  · subst hkey
    obtain rfl : w = v := Option.some.inj ((Dict.mem_items.mp hw).symm.trans hv)
    simpa using ⟨rfl, rfl, hle⟩
  · simpa [hkey] using ⟨rfl, rfl, Nat.le_refl _⟩

/-- Raising a severity raises the vulnerabilities that a gate counts, if its threshold is the
highest. -/
theorem counted_raised (hthreshold : rule.severityThreshold = .critical) {id : String}
    {v : Vulnerability} {severity : VulnerabilitySeverity}
    (hv : m.vulnerabilities.get? id = some v)
    (hle : severityLevel v.severity ≤ severityLevel severity) :
    List.Forall₂ Raised (m.counted lower rule components)
      ((m.withSeverity id v severity).counted lower rule components) := by
  have hscan : ∀ name version, List.Forall₂ Raised
      (m.scanComponentVulnerabilities lower name version)
      ((m.withSeverity id v severity).scanComponentVulnerabilities lower name version) := by
    intro name version
    refine List.rel_map (R := Worse) (fun _ _ h => ⟨rfl, h.cveId, h.severity⟩)
      (List.rel_filter (fun v w h => ?_) (items_worse hv hle))
    change CVEGatesManager.affects lower v name = true ↔ CVEGatesManager.affects lower w name = true
    unfold CVEGatesManager.affects
    rw [h.affectedComponents]
  have hcomponent : ∀ component, List.Forall₂ Raised (m.scanComponent lower component)
      ((m.withSeverity id v severity).scanComponent lower component) := by
    intro component
    unfold CVEGatesManager.scanComponent
    rcases component with ⟨_ | name, _ | version⟩
    · exact .nil
    · exact .nil
    · exact .nil
    · dsimp only
      split_ifs
      · exact hscan name version
      · exact .nil
  refine List.rel_filter (fun x y h => ?_) (List.rel_flatMap (R := Eq)
    (List.forall₂_eq_eq_eq ▸ rfl) fun c _ hc => hc ▸ hcomponent c)
  change keeps rule x = true ↔ keeps rule y = true
  rw [keeps_iff, keeps_iff, h.componentName, h.cveId, hthreshold]
  simp only [severityLevel_le_critical, true_and]

theorem exists_raised {x : ComponentVulnerability} (h : List.Forall₂ Raised l l') (hx : x ∈ l) :
    ∃ y ∈ l', Raised x y := by
  induction h with
  | nil => exact absurd hx List.not_mem_nil
  | cons hxy _ ih =>
    rcases List.mem_cons.mp hx with rfl | hx
    · exact ⟨_, List.mem_cons_self, hxy⟩
    · obtain ⟨y, hy, hraised⟩ := ih hx
      exact ⟨y, List.mem_cons_of_mem _ hy, hraised⟩

/-- The low vulnerabilities are still low, unless one is above. -/
theorem count_low_le (h : List.Forall₂ Raised l l')
    (hlow : ∀ y ∈ l', severityLevel y.vulnerability.severity ≤ 1) :
    countBySeverity l .low ≤ countBySeverity l' .low := by
  induction h with
  | nil => exact Nat.le_refl _
  | @cons x y l l' hxy _ ih =>
    rw [List.forall_mem_cons] at hlow
    have htail := ih hlow.2
    unfold countBySeverity at htail ⊢
    rw [List.countP_cons, List.countP_cons]
    have hhead : x.vulnerability.severity = .low → y.vulnerability.severity = .low := by
      intro hx
      have hraised := hxy.severity
      have hle := hlow.1
      rw [hx] at hraised
      cases hy : y.vulnerability.severity <;> simp [hy, severityLevel] at hraised hle ⊢
    by_cases hx : x.vulnerability.severity = .low
    · simp only [hx, hhead hx, decide_true, if_true]
      omega
    · simp only [hx, decide_false, Bool.false_eq_true, if_false]
      omega

theorem exists_of_count_pos {severity : VulnerabilitySeverity} {n : ℤ} (hn : n = 0)
    (h : n < countBySeverity l severity) : ∃ x ∈ l, x.vulnerability.severity = severity := by
  have hpos : 0 < countBySeverity l severity := by omega
  obtain ⟨x, hx, hseverity⟩ := List.countP_pos_iff.mp hpos
  exact ⟨x, hx, of_decide_eq_true hseverity⟩

theorem count_pos_of_mem {x : ComponentVulnerability} (hx : x ∈ l) :
    (0 : ℤ) < countBySeverity l x.vulnerability.severity := by
  have hpos : 0 < countBySeverity l x.vulnerability.severity :=
    List.countP_pos_iff.mpr ⟨x, hx, decide_eq_true rfl⟩
  omega

/-- Where nothing above `LOW` is tolerated, raised severities do not lower the verdict. -/
theorem rank_le_of_raised (hcritical : rule.maxCriticalVulnerabilities = 0)
    (hhigh : rule.maxHighVulnerabilities = 0) (hmedium : rule.maxMediumVulnerabilities = 0)
    (h : List.Forall₂ Raised l l') : (statusOf rule l).rank ≤ (statusOf rule l').rank := by
  have hfails : ∀ y ∈ l', 3 ≤ severityLevel y.vulnerability.severity → Fails rule l' := by
    intro y hy hle
    have hpos := count_pos_of_mem hy
    cases hy' : y.vulnerability.severity <;> rw [hy'] at hle hpos <;>
      simp only [severityLevel] at hle
    · exact Or.inr (Or.inl (hcritical ▸ hpos))
    · exact Or.inr (Or.inr (hhigh ▸ hpos))
    all_goals omega
  have hwarns : ∀ y ∈ l', 2 ≤ severityLevel y.vulnerability.severity →
      Fails rule l' ∨ Warns rule l' := by
    intro y hy hle
    rcases Nat.lt_or_ge 2 (severityLevel y.vulnerability.severity) with hlt | hge
    · exact Or.inl (hfails y hy hlt)
    · have hpos := count_pos_of_mem hy
      cases hy' : y.vulnerability.severity <;> rw [hy'] at hle hge hpos <;>
        simp only [severityLevel] at hle hge
      case medium => exact Or.inr (Or.inl (hmedium ▸ hpos))
      all_goals omega
  rw [rank_statusOf_le_iff]
  constructor
  · rintro (⟨x, hx, hblocked⟩ | hcount | hcount)
    · obtain ⟨y, hy, hraised⟩ := exists_raised h hx
      exact Or.inl ⟨y, hy, hraised.cveId ▸ hblocked⟩
    · obtain ⟨x, hx, hseverity⟩ := exists_of_count_pos hcritical hcount
      obtain ⟨y, hy, hraised⟩ := exists_raised h hx
      have hle := hraised.severity
      rw [hseverity] at hle
      exact hfails y hy ((by decide : 3 ≤ severityLevel .critical).trans hle)
    · obtain ⟨x, hx, hseverity⟩ := exists_of_count_pos hhigh hcount
      obtain ⟨y, hy, hraised⟩ := exists_raised h hx
      have hle := hraised.severity
      rw [hseverity] at hle
      exact hfails y hy hle
  · rintro (hcount | hcount)
    · obtain ⟨x, hx, hseverity⟩ := exists_of_count_pos hmedium hcount
      obtain ⟨y, hy, hraised⟩ := exists_raised h hx
      have hle := hraised.severity
      rw [hseverity] at hle
      exact hwarns y hy hle
    · by_cases hlow : ∀ y ∈ l', severityLevel y.vulnerability.severity ≤ 1
      · have hle := count_low_le h hlow
        exact Or.inr (Or.inr (by omega))
      · push Not at hlow
        obtain ⟨y, hy, hlt⟩ := hlow
        exact hwarns y hy hlt

/-! ## Rules that keep the law -/

theorem counted_eq_nil (h : ∀ componentName, componentName ≠ "" → ¬Passes rule componentName) :
    m.counted lower rule components = [] := by
  rw [List.eq_nil_iff_forall_not_mem]
  intro x hx
  have hexposed := (mem_counted_iff.mp hx).1
  exact h x.componentName hexposed.named.1 hexposed.passes

theorem lawful_of_strict (h : Strict rule) : Lawful lower rule := by
  intro m hrule components
  have hrule' : ∀ id v severity, (m.withSeverity id v severity).gateRules.get? rule.ruleId =
      some rule := fun _ _ _ => hrule
  rw [sound_iff hrule]
  rcases h with hnone | ⟨hthreshold, hcritical, hhigh, hmedium, hdisjoint⟩
  · have hnot : ∀ x, ¬Exposed lower rule m components x :=
      fun x hx => hnone x.componentName hx.named.1 hx.passes
    refine ⟨⟨fun x hx => absurd hx (hnot x), fun x hx => absurd hx (hnot x)⟩, ?_, ?_⟩
    · intro components' _
      rw [gateStatus_eq hrule, gateStatus_eq hrule, notLowered_iff, counted_eq_nil hnone,
        counted_eq_nil hnone]
    · intro id v severity _ _
      rw [gateStatus_eq hrule, gateStatus_eq (hrule' id v severity), notLowered_iff,
        counted_eq_nil hnone, counted_eq_nil hnone]
  · have hle : ∀ x : ComponentVulnerability, severityLevel x.vulnerability.severity ≤
        severityLevel rule.severityThreshold := by
      intro x
      rw [hthreshold]
      exact severityLevel_le_critical _
    refine ⟨⟨fun x _ _ _ _ => hle x, fun x hx hblocked => ?_⟩, ?_, ?_⟩
    · exact Or.inl ⟨x, mem_counted_iff.mpr ⟨hx, hle x, hdisjoint _ hblocked⟩, hblocked⟩
    · intro components' hsub
      rw [gateStatus_eq hrule, gateStatus_eq hrule, notLowered_iff]
      exact status_le_of_sublist (counted_sublist hsub)
    · intro id v severity hv hraise
      rw [gateStatus_eq hrule, gateStatus_eq (hrule' id v severity), notLowered_iff]
      exact rank_le_of_raised hcritical hhigh hmedium (counted_raised hthreshold hv hraise)

/-! ## Databases that break a rule -/

/-- A flaw of one component. -/
def flaw (componentName cveId : String) (severity : VulnerabilitySeverity) : Vulnerability where
  cveId
  severity
  affectedComponents := [componentName]

/-- Flaws of one component, the first with a severity of its own. -/
def flawItems (componentName cveId first : String) (others : List String)
    (severity severity' : VulnerabilitySeverity) : List (String × Vulnerability) :=
  (first, flaw componentName cveId severity) ::
    others.map fun id => (id, flaw componentName cveId severity')

/-- The database that has them. -/
def flaws (componentName cveId first : String) (others : List String)
    (h : (first :: others).Nodup) (severity severity' : VulnerabilitySeverity) :
    Dict String Vulnerability where
  items := flawItems componentName cveId first others severity severity'
  nodup := by simpa [flawItems, Function.comp_def] using h

/-- A manager with one rule. -/
def gateOf (rule : CVEGateRule) (d : Dict String Vulnerability) : CVEGatesManager where
  vulnerabilities := d
  gateRules := Dict.empty.set rule.ruleId rule

/-- A list of one component. -/
def only (componentName : String) : List Component :=
  [⟨some componentName, some "1"⟩]

section Flaws

variable {name cveId first : String} {others : List String} {h : (first :: others).Nodup}
  {s s' t : VulnerabilitySeverity}

theorem get?_gateOf (rule : CVEGateRule) (d : Dict String Vulnerability) :
    (gateOf rule d).gateRules.get? rule.ruleId = some rule :=
  Dict.get?_set_self ..

theorem get?_flaws : (flaws name cveId first others h s s').get? first =
    some (flaw name cveId s) :=
  Dict.lookup_cons_self (first, flaw name cveId s) _

theorem exposed_flaws (hname : name ≠ "") (hpasses : Passes rule name) :
    Exposed lower rule (gateOf rule (flaws name cveId first others h s s')) (only name)
      ⟨name, "1", flaw name cveId s⟩ where
  listed := ⟨_, List.mem_singleton_self _, rfl, rfl⟩
  named := ⟨hname, (by decide : "1" ≠ "")⟩
  known := ⟨first, Dict.lookup_cons_self (first, flaw name cveId s) _⟩
  affected := List.mem_singleton_self _
  passes := hpasses

theorem items_set_flaws : ((flaws name cveId first others h s s').set first
    { flaw name cveId s with severity := t }).items = flawItems name cveId first others t s' := by
  have hmem : first ∈ (flaws name cveId first others h s s').items.map Prod.fst :=
    List.mem_cons_self
  have hfirst : ∀ id ∈ others, id ≠ first := fun id hid he => (List.nodup_cons.mp h).1 (he ▸ hid)
  rw [Dict.items_set, Dict.setItem, if_pos hmem]
  simp only [flaws, flawItems, Dict.replaceItem, List.map_cons, List.map_map, if_true]
  refine congrArg₂ _ rfl (List.map_congr_left fun id hid => ?_)
  simp [hfirst id hid]

variable (lower) in
/-- All flaws count. -/
theorem counted_flaws {d : Dict String Vulnerability} (hname : name ≠ "")
    (hpasses : Passes rule name) (hthreshold : rule.severityThreshold = .critical)
    (hallowed : cveId ∉ rule.allowedCveIds)
    (hitems : d.items = flawItems name cveId first others s s') :
    (gateOf rule d).counted lower rule (only name) =
      ⟨name, "1", flaw name cveId s⟩ ::
        List.replicate others.length ⟨name, "1", flaw name cveId s'⟩ := by
  have hkeeps : ∀ severity, keeps rule ⟨name, "1", flaw name cveId severity⟩ = true := by
    intro severity
    rw [keeps_iff, hthreshold]
    exact ⟨hpasses, severityLevel_le_critical _, hallowed⟩
  have hscan : (gateOf rule d).scanComponentVulnerabilities lower name "1" =
      ⟨name, "1", flaw name cveId s⟩ ::
        List.replicate others.length ⟨name, "1", flaw name cveId s'⟩ := by
    unfold CVEGatesManager.scanComponentVulnerabilities gateOf
    rw [hitems, List.filter_eq_self.mpr]
    · simp [flawItems, Function.comp_def]
    · simp [flawItems, CVEGatesManager.affects, flaw]
  unfold CVEGatesManager.counted filterVulnerabilities only
  rw [List.flatMap_singleton, CVEGatesManager.scanComponent]
  simp only [if_pos (show name ≠ "" ∧ "1" ≠ "" from ⟨hname, by decide⟩), hscan]
  refine List.filter_eq_self.mpr ?_
  simp [hkeeps]

variable (lower h) in
/-- All flaws count after one of them got another severity. -/
theorem counted_withSeverity (hname : name ≠ "") (hpasses : Passes rule name)
    (hthreshold : rule.severityThreshold = .critical) (hallowed : cveId ∉ rule.allowedCveIds) :
    ((gateOf rule (flaws name cveId first others h s s')).withSeverity first
        (flaw name cveId s) t).counted lower rule (only name) =
      ⟨name, "1", flaw name cveId t⟩ ::
        List.replicate others.length ⟨name, "1", flaw name cveId s'⟩ :=
  counted_flaws lower hname hpasses hthreshold hallowed
    (d := (flaws name cveId first others h s s').set first { flaw name cveId s with severity := t })
    items_set_flaws

theorem limits_nonneg (hvalid : validateGateRule rule = true) :
    0 ≤ rule.maxCriticalVulnerabilities ∧ 0 ≤ rule.maxHighVulnerabilities ∧
      0 ≤ rule.maxMediumVulnerabilities ∧ 0 ≤ rule.maxLowVulnerabilities := by
  simp only [validateGateRule, Bool.and_eq_true, Bool.not_eq_true', Bool.or_eq_false_iff,
    decide_eq_false_iff_not, not_lt] at hvalid
  tauto

theorem not_fails_nil (hvalid : validateGateRule rule = true) : ¬Fails rule [] := by
  obtain ⟨hcritical, hhigh, -⟩ := limits_nonneg hvalid
  rintro (⟨x, hx, -⟩ | hcount | hcount)
  · exact List.not_mem_nil hx
  · exact absurd hcount (by simpa [countBySeverity] using hcritical)
  · exact absurd hcount (by simpa [countBySeverity] using hhigh)

theorem threshold_eq_critical (hlawful : Lawful lower rule) (hname : name ≠ "")
    (hpasses : Passes rule name) (hblocked : cveId ∉ rule.blockedCveIds)
    (hallowed : cveId ∉ rule.allowedCveIds) : rule.severityThreshold = .critical := by
  have hsound := (hlawful (gateOf rule (flaws name cveId "1" [] (by simp) .critical .info))
    (get?_gateOf ..) (only name)).1
  have hle := ((sound_iff (get?_gateOf ..)).mp hsound).1 _ (exposed_flaws hname hpasses) rfl
    hblocked hallowed
  exact severity_eq_critical hle

theorem not_allowed_of_blocked (hvalid : validateGateRule rule = true)
    (hlawful : Lawful lower rule) (hname : name ≠ "") (hpasses : Passes rule name)
    (hblocked : cveId ∈ rule.blockedCveIds) : cveId ∉ rule.allowedCveIds := by
  intro hallowed
  have hsound := (hlawful (gateOf rule (flaws name cveId "1" [] (by simp) .info .info))
    (get?_gateOf ..) (only name)).1
  have hfails := ((sound_iff (get?_gateOf ..)).mp hsound).2 _ (exposed_flaws hname hpasses)
    hblocked
  have hnil : (gateOf rule (flaws name cveId "1" [] (by simp) .info .info)).counted lower rule
      (only name) = [] := by
    rw [List.eq_nil_iff_forall_not_mem]
    intro x hx
    obtain ⟨hexposed, -, hnot⟩ := mem_counted_iff.mp hx
    obtain ⟨id, hid⟩ := hexposed.known
    have hitem := List.mem_singleton.mp (Dict.mem_items.mpr hid)
    have hcve : x.vulnerability.cveId = cveId := by rw [(Prod.mk.inj hitem).2, flaw]
    exact hnot (hcve ▸ hallowed)
  rw [hnil] at hfails
  exact not_fails_nil hvalid hfails

theorem countBySeverity_flaws (n : ℕ) :
    countBySeverity (⟨name, "1", flaw name cveId s⟩ ::
      List.replicate n ⟨name, "1", flaw name cveId s'⟩) t =
        (if s' = t then n else 0) + if s = t then 1 else 0 := by
  unfold countBySeverity
  rw [List.countP_cons, List.countP_replicate]
  by_cases hs : s = t <;> by_cases hs' : s' = t <;> simp [flaw, hs, hs']

end Flaws

/-- Of one low vulnerability more than tolerated, one gets more severe : a limit for the higher
severity is exceeded then. -/
theorem exceeds_of_lawful (hvalid : validateGateRule rule = true) (hlawful : Lawful lower rule)
    {name cveId : String} (hname : name ≠ "") (hpasses : Passes rule name)
    (hblocked : cveId ∉ rule.blockedCveIds) (hallowed : cveId ∉ rule.allowedCveIds)
    (severity : VulnerabilitySeverity) (hseverity : 1 < severityLevel severity) :
    rule.maxCriticalVulnerabilities < ((if severity = .critical then 1 else 0 : ℕ) : ℤ) ∨
      rule.maxHighVulnerabilities < ((if severity = .high then 1 else 0 : ℕ) : ℤ) ∨
        rule.maxMediumVulnerabilities < ((if severity = .medium then 1 else 0 : ℕ) : ℤ) := by
  have hthreshold := threshold_eq_critical hlawful hname hpasses hblocked hallowed
  obtain ⟨-, -, -, hlow⟩ := limits_nonneg hvalid
  obtain ⟨ids, hids⟩ := Infinite.exists_subset_card_eq String
    (rule.maxLowVulnerabilities.toNat + 1)
  obtain ⟨first, others, hcons⟩ := List.exists_cons_of_length_pos
    (l := ids.toList) (by rw [Finset.length_toList, hids]; exact Nat.succ_pos _)
  have hnodup : (first :: others).Nodup := hcons ▸ ids.nodup_toList
  have hlength : others.length = rule.maxLowVulnerabilities.toNat := by
    have h := congrArg List.length hcons
    rw [Finset.length_toList, hids, List.length_cons] at h
    omega
  have hmore := (hlawful (gateOf rule (flaws name cveId first others hnodup .low .low))
    (get?_gateOf ..) (only name)).2.worse first (flaw name cveId .low) severity
      (get?_flaws (h := hnodup)) (Nat.le_of_lt hseverity)
  have hrule : ((gateOf rule (flaws name cveId first others hnodup .low .low)).withSeverity first
      (flaw name cveId .low) severity).gateRules.get? rule.ruleId = some rule := get?_gateOf ..
  rw [gateStatus_eq (get?_gateOf ..), gateStatus_eq hrule, notLowered_iff, rank_statusOf_le_iff,
    counted_flaws lower hname hpasses hthreshold hallowed rfl,
    counted_withSeverity lower hnodup hname hpasses hthreshold hallowed] at hmore
  have hwarns : Warns rule (⟨name, "1", flaw name cveId .low⟩ ::
      List.replicate others.length ⟨name, "1", flaw name cveId .low⟩) := by
    right
    rw [countBySeverity_flaws, hlength, if_pos rfl, if_pos rfl]
    omega
  have hnotLow : severity ≠ .low := by
    rintro rfl
    exact absurd hseverity (by decide)
  rcases hmore.2 hwarns with (⟨x, hx, hblocked'⟩ | hcount | hcount) | hcount | hcount
  · have hcve : x.vulnerability.cveId = cveId := by
      rcases List.mem_cons.mp hx with rfl | hx
      · rfl
      · rw [List.eq_of_mem_replicate hx]
        rfl
    exact absurd (hcve ▸ hblocked') hblocked
  all_goals
    rw [countBySeverity_flaws] at hcount
    simp only [reduceCtorEq, if_true, if_false, Nat.zero_add, hnotLow, hlength] at hcount
  · exact Or.inl hcount
  · exact Or.inr (Or.inl hcount)
  · exact Or.inr (Or.inr hcount)
  · omega

theorem strict_of_lawful (hvalid : validateGateRule rule = true) (hlawful : Lawful lower rule) :
    Strict rule := by
  by_cases hnone : ∀ componentName, componentName ≠ "" → ¬Passes rule componentName
  · exact Or.inl hnone
  · push Not at hnone
    obtain ⟨name, hname, hpasses⟩ := hnone
    obtain ⟨cveId, hfresh⟩ := Infinite.exists_notMem_finset
      (rule.blockedCveIds ++ rule.allowedCveIds).toFinset
    rw [List.mem_toFinset, List.mem_append, not_or] at hfresh
    obtain ⟨hblocked, hallowed⟩ := hfresh
    have hexceeds := exceeds_of_lawful hvalid hlawful hname hpasses hblocked hallowed
    obtain ⟨hcritical, hhigh, hmedium, -⟩ := limits_nonneg hvalid
    refine Or.inr ⟨threshold_eq_critical hlawful hname hpasses hblocked hallowed, ?_, ?_, ?_,
      fun id hid => not_allowed_of_blocked hvalid hlawful hname hpasses hid⟩
    · have h := hexceeds .critical (by decide)
      simp only [reduceCtorEq, if_true, if_false] at h
      omega
    · have h := hexceeds .high (by decide)
      simp only [reduceCtorEq, if_true, if_false] at h
      omega
    · have h := hexceeds .medium (by decide)
      simp only [reduceCtorEq, if_true, if_false] at h
      omega

/-- The gate of an accepted rule is sound and monotone if and only if the rule is strict. -/
theorem lawful_iff (hvalid : validateGateRule rule = true) : Lawful lower rule ↔ Strict rule :=
  ⟨strict_of_lawful hvalid, lawful_of_strict⟩

/-- A rule of a threshold that tolerates nothing above `LOW`. -/
def productionRule (threshold : VulnerabilitySeverity) : CVEGateRule where
  ruleId := "production"
  name := "Production"
  severityThreshold := threshold
  maxHighVulnerabilities := 0
  maxMediumVulnerabilities := 0

/-- With the highest threshold it is strict. -/
theorem lawful_production :
    Lawful id (productionRule .critical) ↔ Strict (productionRule .critical) :=
  lawful_iff (by decide)

/-- The manager with the rule of threshold `HIGH` and a vulnerability of `requests`. -/
def requestsGate (severity : VulnerabilitySeverity) : CVEGatesManager :=
  gateOf (productionRule .high) (flaws "requests" "CVE-2023-1234" "CVE-2023-1234" [] (by simp)
    severity .info)

/-- A critical vulnerability is not counted, and a high one that gets critical lets the gate
pass. -/
theorem not_lawful_of_threshold :
    (¬∀ rule, validateGateRule rule = true → ∀ m : CVEGatesManager,
      m.gateRules.get? rule.ruleId = some rule → ∀ components, Sound id rule m components) ∧
    ¬∀ rule, validateGateRule rule = true → ∀ m : CVEGatesManager,
      m.gateRules.get? rule.ruleId = some rule → ∀ components, Monotone id rule m components := by
  have hpasses : Passes (productionRule .high) "requests" := ⟨Or.inl rfl, List.not_mem_nil⟩
  constructor
  · intro hall
    have hsound := hall (productionRule .high) (by decide) (requestsGate .critical)
      (get?_gateOf ..) (only "requests")
    have hcounted := hsound.counted _ (exposed_flaws (by decide) hpasses) rfl List.not_mem_nil
      List.not_mem_nil (by decide)
    exact absurd hcounted List.not_mem_nil
  · intro hall
    have hmonotone := hall (productionRule .high) (by decide) (requestsGate .high)
      (get?_gateOf ..) (only "requests")
    obtain ⟨a, b, ha, hb, hle⟩ := hmonotone.worse "CVE-2023-1234" _ .critical
      (get?_flaws (h := by simp)) (by decide)
    have hfail : gateStatus id (productionRule .high) (requestsGate .high) (only "requests") =
        some .fail := by decide +kernel
    have hpass : gateStatus id (productionRule .high) ((requestsGate .high).withSeverity
        "CVE-2023-1234" (flaw "requests" "CVE-2023-1234" .high) .critical) (only "requests") =
          some .pass := by decide +kernel
    obtain rfl := Option.some.inj (ha.symm.trans hfail)
    obtain rfl := Option.some.inj (hb.symm.trans hpass)
    exact absurd hle (by decide)

end CVEGates

end MultiAgent
