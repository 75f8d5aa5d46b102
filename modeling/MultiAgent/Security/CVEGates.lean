import Mathlib.Data.Int.Notation
import Mathlib.Data.List.Flatten
import Mathlib.Data.List.Forall2
import MultiAgent.Lib.Dict

/-!
# CVE gates

`CVEGatesManager` of `libs/security/cve_gates.py` : `create_gate_rule` and `evaluate_gate` with
the scan, the filter and the counts. An empty set of a rule is no restriction, like `None`, so
the sets are lists that may be empty. What `str.lower` makes of a name comes from outside.

A verdict only gets worse with more vulnerabilities (`status_le_of_sublist`), so it does with
more components. A vulnerability counts if it is not allowed and its severity is *not above*
the threshold (`mem_counted_iff`).
-/

namespace MultiAgent

namespace CVEGates

/-- Vulnerability severity levels. -/
inductive VulnerabilitySeverity
  | critical
  | high
  | medium
  | low
  | info
  deriving DecidableEq

/-- Gate status. -/
inductive GateStatus
  | pass
  | fail
  | warn
  | skip
  deriving DecidableEq

/-- Status of a vulnerability, which the gate does not look at. -/
inductive VulnerabilityStatus
  | opened
  | fixed
  | mitigated
  | accepted
  | falsePositive
  deriving DecidableEq

/-- `_get_severity_level`. -/
def severityLevel : VulnerabilitySeverity → ℕ
  | .critical => 4
  | .high => 3
  | .medium => 2
  | .low => 1
  | .info => 0

/-- Vulnerability definition. -/
structure Vulnerability where
  cveId : String
  severity : VulnerabilitySeverity
  affectedComponents : List String
  status : VulnerabilityStatus := .opened

/-- Component vulnerability mapping. -/
structure ComponentVulnerability where
  componentName : String
  componentVersion : String
  vulnerability : Vulnerability

/-- CVE gate rule definition. -/
structure CVEGateRule where
  ruleId : String
  name : String
  severityThreshold : VulnerabilitySeverity
  maxCriticalVulnerabilities : ℤ := 0
  maxHighVulnerabilities : ℤ := 5
  maxMediumVulnerabilities : ℤ := 20
  maxLowVulnerabilities : ℤ := 50
  allowedCveIds : List String := []
  blockedCveIds : List String := []
  componentWhitelist : List String := []
  componentBlacklist : List String := []

/-- Gate evaluation result. -/
structure GateResult where
  ruleId : String
  status : GateStatus
  totalVulnerabilities : ℕ
  criticalVulnerabilities : ℕ
  highVulnerabilities : ℕ
  mediumVulnerabilities : ℕ
  lowVulnerabilities : ℕ
  blockedVulnerabilities : List String
  allowedVulnerabilities : List String
  message : String

/-- What `evaluate_gate` reads of a component. -/
structure Component where
  name : Option String
  version : Option String

/-- The vulnerabilities and the rules of the manager. -/
structure CVEGatesManager where
  vulnerabilities : Dict String Vulnerability := .empty
  gateRules : Dict String CVEGateRule := .empty

/-- `_validate_gate_rule`. -/
def validateGateRule (rule : CVEGateRule) : Bool :=
  rule.ruleId ≠ "" && rule.name ≠ "" &&
    !(rule.maxCriticalVulnerabilities < 0 || rule.maxHighVulnerabilities < 0 ||
      rule.maxMediumVulnerabilities < 0 || rule.maxLowVulnerabilities < 0)

/-- `_filter_vulnerabilities` keeps the vulnerability. -/
def keeps (rule : CVEGateRule) (x : ComponentVulnerability) : Bool :=
  !(!rule.componentWhitelist.isEmpty && x.componentName ∉ rule.componentWhitelist) &&
  !(!rule.componentBlacklist.isEmpty && x.componentName ∈ rule.componentBlacklist) &&
  !decide (severityLevel rule.severityThreshold < severityLevel x.vulnerability.severity) &&
  !(!rule.allowedCveIds.isEmpty && x.vulnerability.cveId ∈ rule.allowedCveIds)

/-- `_filter_vulnerabilities`. -/
def filterVulnerabilities (rule : CVEGateRule) (vulnerabilities : List ComponentVulnerability) :
    List ComponentVulnerability :=
  vulnerabilities.filter (keeps rule)

/-- `_count_vulnerabilities_by_severity`, for a severity. -/
def countBySeverity (vulnerabilities : List ComponentVulnerability)
    (severity : VulnerabilitySeverity) : ℕ :=
  vulnerabilities.countP fun x => x.vulnerability.severity = severity

/-- `_determine_gate_status`. -/
def determineGateStatus (counts : VulnerabilitySeverity → ℕ) (rule : CVEGateRule)
    (blockedVulnerabilities : List String) : GateStatus :=
  if !blockedVulnerabilities.isEmpty then .fail
  else if rule.maxCriticalVulnerabilities < counts .critical then .fail
  else if rule.maxHighVulnerabilities < counts .high then .fail
  else if rule.maxMediumVulnerabilities < counts .medium then .warn
  else if rule.maxLowVulnerabilities < counts .low then .warn
  else .pass

/-- `_generate_gate_message`. -/
def generateGateMessage : GateStatus → String
  | .pass => "Gate passed: All vulnerability thresholds met"
  | .warn => "Gate warning: Some vulnerability thresholds exceeded"
  | .fail => "Gate failed: Critical or high severity vulnerabilities exceed thresholds"
  | .skip => "Gate skipped: No vulnerabilities found"

/-- The vulnerability is blocked by the rule. -/
def isBlocked (rule : CVEGateRule) (x : ComponentVulnerability) : Bool :=
  !rule.blockedCveIds.isEmpty && x.vulnerability.cveId ∈ rule.blockedCveIds

/-- The vulnerability is allowed by the rule. -/
def isAllowed (rule : CVEGateRule) (x : ComponentVulnerability) : Bool :=
  !rule.allowedCveIds.isEmpty && x.vulnerability.cveId ∈ rule.allowedCveIds

/-- The identifiers of the blocked vulnerabilities. -/
def blockedIn (rule : CVEGateRule) (vulnerabilities : List ComponentVulnerability) : List String :=
  (vulnerabilities.filter (isBlocked rule)).map fun x => x.vulnerability.cveId

/-- The status for the vulnerabilities that the filter kept. -/
def statusOf (rule : CVEGateRule) (vulnerabilities : List ComponentVulnerability) : GateStatus :=
  determineGateStatus (countBySeverity vulnerabilities) rule (blockedIn rule vulnerabilities)

namespace CVEGatesManager

variable (lower : String → String) (m : CVEGatesManager)

/-- `create_gate_rule`. -/
def createGateRule (rule : CVEGateRule) : CVEGatesManager × Bool :=
  if validateGateRule rule then
    ({ m with gateRules := m.gateRules.set rule.ruleId rule }, true)
  else (m, false)

/-- The vulnerability affects a component of the name. -/
def affects (v : Vulnerability) (componentName : String) : Bool :=
  lower componentName ∈ v.affectedComponents.map lower

/-- `scan_component_vulnerabilities`. -/
def scanComponentVulnerabilities (componentName componentVersion : String) :
    List ComponentVulnerability :=
  ((m.vulnerabilities.items.map Prod.snd).filter fun v => affects lower v componentName).map
    fun v => { componentName, componentVersion, vulnerability := v }

/-- The vulnerabilities of one entry of the list of components. -/
def scanComponent (component : Component) : List ComponentVulnerability :=
  match component.name, component.version with
  | some name, some version =>
    if name ≠ "" ∧ version ≠ "" then m.scanComponentVulnerabilities lower name version else []
  | _, _ => []

/-- The vulnerabilities of all components that the filter of the rule keeps. -/
def counted (rule : CVEGateRule) (components : List Component) : List ComponentVulnerability :=
  filterVulnerabilities rule (components.flatMap (m.scanComponent lower))

/-- `evaluate_gate`, where `none` stands for the `ValueError` of a rule that is not there. -/
def evaluateGate (ruleId : String) (components : List Component) : Option GateResult :=
  (m.gateRules.get? ruleId).map fun rule =>
    let filtered := m.counted lower rule components
    let counts := countBySeverity filtered
    let blocked := blockedIn rule filtered
    let status := determineGateStatus counts rule blocked
    { ruleId
      status
      totalVulnerabilities := filtered.length
      criticalVulnerabilities := counts .critical
      highVulnerabilities := counts .high
      mediumVulnerabilities := counts .medium
      lowVulnerabilities := counts .low
      blockedVulnerabilities := blocked
      allowedVulnerabilities :=
        (filtered.filter fun x => !isBlocked rule x && isAllowed rule x).map
          fun x => x.vulnerability.cveId
      message := generateGateMessage status }

end CVEGatesManager

/-! ## What counts -/

/-- The component passes the filters of the rule. -/
def Passes (rule : CVEGateRule) (componentName : String) : Prop :=
  (rule.componentWhitelist = [] ∨ componentName ∈ rule.componentWhitelist) ∧
    componentName ∉ rule.componentBlacklist

/-- The vulnerability is in the database and affects a listed component that passes the
filters. -/
structure Exposed (lower : String → String) (rule : CVEGateRule) (m : CVEGatesManager)
    (components : List Component) (x : ComponentVulnerability) : Prop where
  listed : ∃ component ∈ components,
    component.name = some x.componentName ∧ component.version = some x.componentVersion
  named : x.componentName ≠ "" ∧ x.componentVersion ≠ ""
  known : ∃ id, m.vulnerabilities.get? id = some x.vulnerability
  affected : lower x.componentName ∈ x.vulnerability.affectedComponents.map lower
  passes : Passes rule x.componentName

variable {lower : String → String} {rule : CVEGateRule} {m : CVEGatesManager}
  {components components' : List Component} {x : ComponentVulnerability}

/-- Each rule is stored under its own id, and was accepted. -/
def CVEGatesManager.Accepted (m : CVEGatesManager) : Prop :=
  ∀ id rule, m.gateRules.get? id = some rule → rule.ruleId = id ∧ validateGateRule rule = true

theorem CVEGatesManager.Accepted.createGateRule (h : m.Accepted) (rule : CVEGateRule) :
    (m.createGateRule rule).1.Accepted := by
  intro id rule' hget
  unfold CVEGatesManager.createGateRule at hget
  split_ifs at hget with hvalid
  · rw [Dict.get?_set] at hget
    split_ifs at hget with hid
    · obtain rfl := Option.some.inj hget
      exact ⟨hid.symm, hvalid⟩
    · exact h id rule' hget
  · exact h id rule' hget

theorem keeps_iff : keeps rule x = true ↔ Passes rule x.componentName ∧
    severityLevel x.vulnerability.severity ≤ severityLevel rule.severityThreshold ∧
      x.vulnerability.cveId ∉ rule.allowedCveIds := by
  have hnot : ∀ (l : List String) (s : String), (!(!l.isEmpty && s ∈ l)) = true ↔ s ∉ l := by
    intro l s
    cases l <;> simp
  have hwhite : (!(!rule.componentWhitelist.isEmpty &&
      x.componentName ∉ rule.componentWhitelist)) = true ↔
        rule.componentWhitelist = [] ∨ x.componentName ∈ rule.componentWhitelist := by
    cases rule.componentWhitelist <;> simp
  unfold keeps Passes
  rw [Bool.and_eq_true, Bool.and_eq_true, Bool.and_eq_true, hwhite, hnot, hnot, and_assoc]
  simp

theorem mem_scanComponentVulnerabilities {name version : String} :
    x ∈ m.scanComponentVulnerabilities lower name version ↔
      x.componentName = name ∧ x.componentVersion = version ∧
        (∃ id, m.vulnerabilities.get? id = some x.vulnerability) ∧
        lower name ∈ x.vulnerability.affectedComponents.map lower := by
  unfold CVEGatesManager.scanComponentVulnerabilities
  have hknown : ∀ v, v ∈ m.vulnerabilities.items.map Prod.snd ↔
      ∃ id, m.vulnerabilities.get? id = some v := by
    intro v
    simp only [List.mem_map, Prod.exists, exists_eq_right]
    exact exists_congr fun id => Dict.mem_items
  simp only [List.mem_map, List.mem_filter, hknown, CVEGatesManager.affects, decide_eq_true_eq]
  constructor
  · rintro ⟨v, ⟨hv, haffects⟩, rfl⟩
    exact ⟨rfl, rfl, hv, haffects⟩
  · rintro ⟨rfl, rfl, hv, haffects⟩
    exact ⟨x.vulnerability, ⟨hv, haffects⟩, rfl⟩

theorem mem_scanComponent {component : Component} : x ∈ m.scanComponent lower component ↔
    (component.name = some x.componentName ∧ component.version = some x.componentVersion) ∧
      (x.componentName ≠ "" ∧ x.componentVersion ≠ "") ∧
      (∃ id, m.vulnerabilities.get? id = some x.vulnerability) ∧
      lower x.componentName ∈ x.vulnerability.affectedComponents.map lower := by
  unfold CVEGatesManager.scanComponent
  rcases component with ⟨_ | name, version⟩
  · simp
  · cases version with
    | none => simp
    | some version =>
      simp only [Option.some.injEq]
      split_ifs with hgiven
      · rw [mem_scanComponentVulnerabilities]
        constructor
        · rintro ⟨rfl, rfl, hknown, haffected⟩
          exact ⟨⟨rfl, rfl⟩, hgiven, hknown, haffected⟩
        · rintro ⟨⟨rfl, rfl⟩, -, hknown, haffected⟩
          exact ⟨rfl, rfl, hknown, haffected⟩
      · refine iff_of_false List.not_mem_nil ?_
        rintro ⟨⟨rfl, rfl⟩, hnamed, -⟩
        exact hgiven hnamed

/-- What counts is what is exposed, not above the threshold and not allowed. -/
theorem mem_counted_iff : x ∈ m.counted lower rule components ↔
    Exposed lower rule m components x ∧
      severityLevel x.vulnerability.severity ≤ severityLevel rule.severityThreshold ∧
        x.vulnerability.cveId ∉ rule.allowedCveIds := by
  unfold CVEGatesManager.counted filterVulnerabilities
  rw [List.mem_filter, List.mem_flatMap, keeps_iff]
  constructor
  · rintro ⟨⟨component, hmem, hscan⟩, hpasses, hrest⟩
    obtain ⟨hlisted, hnamed, hknown, haffected⟩ := mem_scanComponent.mp hscan
    exact ⟨⟨⟨component, hmem, hlisted⟩, hnamed, hknown, haffected, hpasses⟩, hrest⟩
  · rintro ⟨⟨⟨component, hmem, hlisted⟩, hnamed, hknown, haffected, hpasses⟩, hrest⟩
    exact ⟨⟨component, hmem, mem_scanComponent.mpr ⟨hlisted, hnamed, hknown, haffected⟩⟩,
      hpasses, hrest⟩

/-! ## Verdicts -/

/-- How bad a verdict is. -/
def GateStatus.rank : GateStatus → ℕ
  | .pass | .skip => 0
  | .warn => 1
  | .fail => 2

/-- A vulnerability is blocked, or a limit is exceeded for which the gate fails. -/
def Fails (rule : CVEGateRule) (l : List ComponentVulnerability) : Prop :=
  (∃ x ∈ l, x.vulnerability.cveId ∈ rule.blockedCveIds) ∨
    rule.maxCriticalVulnerabilities < countBySeverity l .critical ∨
      rule.maxHighVulnerabilities < countBySeverity l .high

/-- A limit is exceeded for which the gate warns. -/
def Warns (rule : CVEGateRule) (l : List ComponentVulnerability) : Prop :=
  rule.maxMediumVulnerabilities < countBySeverity l .medium ∨
    rule.maxLowVulnerabilities < countBySeverity l .low

variable {l l' : List ComponentVulnerability}

theorem isBlocked_iff : isBlocked rule x = true ↔ x.vulnerability.cveId ∈ rule.blockedCveIds := by
  unfold isBlocked
  cases rule.blockedCveIds <;> simp

theorem blockedIn_isEmpty : (!(blockedIn rule l).isEmpty) = true ↔
    ∃ x ∈ l, x.vulnerability.cveId ∈ rule.blockedCveIds := by
  unfold blockedIn
  rw [List.isEmpty_map, Bool.not_eq_true', List.isEmpty_eq_false_iff_exists_mem]
  simp only [List.mem_filter, isBlocked_iff]

open Classical in
theorem statusOf_eq : statusOf rule l =
    if Fails rule l then .fail else if Warns rule l then .warn else .pass := by
  unfold statusOf determineGateStatus Fails Warns
  simp only [blockedIn_isEmpty]
  by_cases hblocked : ∃ x ∈ l, x.vulnerability.cveId ∈ rule.blockedCveIds
  · simp only [if_pos hblocked, if_pos (Or.inl hblocked)]
  · simp only [hblocked, false_or]
    split_ifs <;> first | rfl | omega

theorem statusOf_eq_fail_iff : statusOf rule l = .fail ↔ Fails rule l := by
  rw [statusOf_eq]
  split_ifs <;> simp [*]

/-- A verdict is not lowered if what fails still fails, and what warns still warns or fails. -/
theorem rank_statusOf_le_iff : (statusOf rule l).rank ≤ (statusOf rule l').rank ↔
    (Fails rule l → Fails rule l') ∧ (Warns rule l → Fails rule l' ∨ Warns rule l') := by
  rw [statusOf_eq, statusOf_eq]
  by_cases hf : Fails rule l <;> by_cases hf' : Fails rule l' <;>
    by_cases hw : Warns rule l <;> by_cases hw' : Warns rule l' <;>
      simp [hf, hf', hw, hw', GateStatus.rank]

theorem countBySeverity_le (h : l.Sublist l') (severity : VulnerabilitySeverity) :
    countBySeverity l severity ≤ countBySeverity l' severity :=
  h.countP_le

/-- More vulnerabilities do not lower the verdict. -/
theorem status_le_of_sublist (h : l.Sublist l') :
    (statusOf rule l).rank ≤ (statusOf rule l').rank := by
  have hcount := countBySeverity_le h
  rw [rank_statusOf_le_iff]
  constructor
  · rintro (⟨x, hx, hblocked⟩ | hcritical | hhigh)
    · exact Or.inl ⟨x, h.subset hx, hblocked⟩
    · have hle := hcount .critical
      exact Or.inr (Or.inl (by omega))
    · have hle := hcount .high
      exact Or.inr (Or.inr (by omega))
  · rintro (hmedium | hlow)
    · have hle := hcount .medium
      exact Or.inr (Or.inl (by omega))
    · have hle := hcount .low
      exact Or.inr (Or.inr (by omega))

/-- More components have more vulnerabilities. -/
theorem counted_sublist (h : components.Sublist components') :
    (m.counted lower rule components).Sublist (m.counted lower rule components') :=
  (h.flatMap _).filter _

end CVEGates

end MultiAgent
