import Mathlib.Data.List.Induction
import MultiAgent.Security.CVEGates

/-!
# Marked vulnerabilities

`sync_vulnerability_database`, `scan_component_vulnerabilities` and the two marks of
`libs/security/cve_gates.py`, with the records by reference. An entry for a component points to
the record of its CVE in the database, and a mark changes that record. A sync makes new records
for the database, and the entries keep theirs until they are scanned again.

So a mark is seen by every entry that points to the record, and it is lost when a scan after a
sync finds the entry again. An entry keeps its own marks throughout a run exactly if no mark
changes a record that another entry points to, and no scan exchanges a record for one that is
marked otherwise (`marks_kept_iff`).
-/

namespace MultiAgent

namespace CVEGates

/-! ## Records by reference -/

/-- What a mark changes of a vulnerability. -/
structure Marking where
  status : VulnerabilityStatus := .opened
  falsePositiveReason : Option String := none
  mitigation : Option String := none
  deriving DecidableEq

/-- A vulnerability with its marking. -/
structure VulnerabilityRecord extends Marking, Vulnerability

/-- Component vulnerability mapping, with the vulnerability by reference. -/
structure ComponentEntry where
  componentName : String
  componentVersion : String
  vulnerability : ℕ

/-- The tables of the manager, and the records that they point to. -/
structure CVETables where
  records : List VulnerabilityRecord := []
  vulnerabilities : Dict String ℕ := .empty
  componentVulnerabilities : Dict String ComponentEntry := .empty

/-- A CVE, a component and its version. -/
structure Target where
  cveId : String
  componentName : String
  componentVersion : String
  deriving DecidableEq

/-- `vuln_key`. -/
def Target.key (t : Target) : String :=
  t.componentName ++ "@" ++ t.componentVersion ++ "#" ++ t.cveId

/-- The simulated vulnerabilities of every source. -/
def simulatedVulnerabilities : List Vulnerability :=
  [{ cveId := "CVE-2023-1234", severity := .critical,
     affectedComponents := ["requests", "urllib3"] },
   { cveId := "CVE-2023-5678", severity := .high, affectedComponents := ["sqlalchemy"] },
   { cveId := "CVE-2023-9012", severity := .medium,
     affectedComponents := ["fastapi", "starlette"] }]

/-- The sources of a sync. -/
def vulnerabilityDatabases : List String :=
  ["https://cve.mitre.org/data/downloads/allitems.xml",
   "https://nvd.nist.gov/feeds/xml/cve/2.0/nvdcve-2.0-modified.xml",
   "https://nvd.nist.gov/feeds/xml/cve/2.0/nvdcve-2.0-recent.xml"]

/-- `status` and `false_positive_reason` of a false positive. -/
def Marking.falsePositive (reason : String) (k : Marking) : Marking :=
  { k with status := .falsePositive, falsePositiveReason := some reason }

/-- `status` and `mitigation` of a mitigated vulnerability. -/
def Marking.mitigated (mitigation : String) (k : Marking) : Marking :=
  { k with status := .mitigated, mitigation := some mitigation }

namespace CVETables

variable (lower : String → String) (m : CVETables)

/-- A new record for the database. -/
def storeVulnerability (v : Vulnerability) : CVETables :=
  { m with
    records := m.records ++ [{ v with }]
    vulnerabilities := m.vulnerabilities.set v.cveId m.records.length }

/-- `_sync_from_source`, the same for every source. -/
def syncFromSource (_sourceUrl : String) : CVETables :=
  simulatedVulnerabilities.foldl storeVulnerability m

/-- `sync_vulnerability_database`. -/
def syncVulnerabilityDatabase : CVETables :=
  vulnerabilityDatabases.foldl syncFromSource m

/-- The body of the loop of `scan_component_vulnerabilities`, for an item of the database. -/
def scanItem (componentName componentVersion : String) (acc : CVETables × List ComponentEntry)
    (item : String × ℕ) : CVETables × List ComponentEntry :=
  match acc.1.records[item.2]? with
  | some v =>
    if CVEGatesManager.affects lower v.toVulnerability componentName then
      let entry : ComponentEntry := { componentName, componentVersion, vulnerability := item.2 }
      let key := Target.key ⟨item.1, componentName, componentVersion⟩
      ({ acc.1 with
         componentVulnerabilities := acc.1.componentVulnerabilities.set key entry },
        acc.2 ++ [entry])
    else acc
  | none => acc

/-- `scan_component_vulnerabilities`. -/
def scanComponentVulnerabilities (componentName componentVersion : String) :
    CVETables × List ComponentEntry :=
  m.vulnerabilities.items.foldl (scanItem lower componentName componentVersion) (m, [])

/-- Mark the record of an entry. -/
def mark (f : Marking → Marking) (t : Target) : CVETables × Bool :=
  match m.componentVulnerabilities.get? t.key with
  | some e =>
    ({ m with records := m.records.modify e.vulnerability fun v =>
        { v with toMarking := f v.toMarking } }, true)
  | none => (m, false)

/-- `mark_vulnerability_false_positive`. -/
def markVulnerabilityFalsePositive (t : Target) (reason : String) : CVETables × Bool :=
  m.mark (Marking.falsePositive reason) t

/-- `mark_vulnerability_mitigated`. -/
def markVulnerabilityMitigated (t : Target) (mitigation : String) : CVETables × Bool :=
  m.mark (Marking.mitigated mitigation) t

end CVETables

/-! ## Runs -/

/-- A call of the manager. -/
inductive CVECall
  | sync
  | scan (componentName componentVersion : String)
  | falsePositive (t : Target) (reason : String)
  | mitigated (t : Target) (mitigation : String)

namespace CVETables

variable (lower : String → String) (m : CVETables)

/-- One call. -/
def step (m : CVETables) : CVECall → CVETables
  | .sync => m.syncVulnerabilityDatabase
  | .scan name version => (m.scanComponentVulnerabilities lower name version).1
  | .falsePositive t reason => (m.markVulnerabilityFalsePositive t reason).1
  | .mitigated t mitigation => (m.markVulnerabilityMitigated t mitigation).1

/-- The tables after some calls. -/
def after (calls : List CVECall) : CVETables :=
  calls.foldl (step lower) {}

/-- The entry of the target and its record. -/
structure IsEntry (t : Target) (e : ComponentEntry) (v : VulnerabilityRecord) : Prop where
  stored : m.componentVulnerabilities.get? t.key = some e
  record : m.records[e.vulnerability]? = some v
  named : t = ⟨v.cveId, e.componentName, e.componentVersion⟩

/-- The marking of the entry of a target. -/
def markingOf (t : Target) : Option Marking :=
  (m.componentVulnerabilities.get? t.key).bind fun e =>
    (m.records[e.vulnerability]?).bind fun v =>
      if t = ⟨v.cveId, e.componentName, e.componentVersion⟩ then some v.toMarking else none

end CVETables

/-- What a call should make of the marking of an entry. -/
def CVECall.intended (t : Target) (k : Marking) : CVECall → Marking
  | .sync | .scan _ _ => k
  | .falsePositive t' reason => if t' = t then k.falsePositive reason else k
  | .mitigated t' mitigation => if t' = t then k.mitigated mitigation else k

/-- From any point of the run on, an entry has the marking that the marks of just this entry
give it. -/
def Kept (lower : String → String) (calls : List CVECall) : Prop :=
  ∀ before between rest, calls = before ++ between ++ rest →
    ∀ t k, (CVETables.after lower before).markingOf t = some k →
      (CVETables.after lower (before ++ between)).markingOf t =
        some (between.foldl (CVECall.intended t) k)

namespace CVETables

variable (lower : String → String) (m : CVETables)

/-- The mark changes nothing, or no entry but that of the target points to the record. -/
def MarksOwn (f : Marking → Marking) (t : Target) : Prop :=
  ∀ e v, m.componentVulnerabilities.get? t.key = some e → m.records[e.vulnerability]? = some v →
    f v.toMarking = v.toMarking ∨
      ∀ key e', m.componentVulnerabilities.get? key = some e' →
        e'.vulnerability = e.vulnerability →
          t = ⟨v.cveId, e'.componentName, e'.componentVersion⟩

/-- What the scan finds again is the entry of the same component, version and CVE, with a record
that is marked like the one in the database. -/
def FindsMarked (componentName componentVersion : String) : Prop :=
  ∀ cveId r v, m.vulnerabilities.get? cveId = some r → m.records[r]? = some v →
    CVEGatesManager.affects lower v.toVulnerability componentName = true →
      ∀ e w, m.componentVulnerabilities.get?
          (Target.key ⟨cveId, componentName, componentVersion⟩) = some e →
        m.records[e.vulnerability]? = some w →
          IsEntry m ⟨cveId, componentName, componentVersion⟩ e w ∧ w.toMarking = v.toMarking

/-- The call keeps to its own entries. -/
def Separate : CVECall → Prop
  | .sync => True
  | .scan name version => m.FindsMarked lower name version
  | .falsePositive t reason => m.MarksOwn (Marking.falsePositive reason) t
  | .mitigated t mitigation => m.MarksOwn (Marking.mitigated mitigation) t

end CVETables

variable {lower : String → String} {m : CVETables} {t t' : Target} {k : Marking}

theorem Target.key_inj {id id' name version : String}
    (h : Target.key ⟨id, name, version⟩ = Target.key ⟨id', name, version⟩) : id = id' := by
  unfold Target.key at h
  exact String.append_right_inj _ |>.mp h

namespace CVETables

theorem markingOf_eq_some : m.markingOf t = some k ↔ ∃ e v, m.IsEntry t e v ∧ v.toMarking = k := by
  unfold markingOf
  simp only [Option.bind_eq_some_iff, Option.ite_none_right_eq_some, Option.some.injEq]
  constructor
  · rintro ⟨e, he, v, hv, hnamed, hk⟩
    exact ⟨e, v, ⟨he, hv, hnamed⟩, hk⟩
  · rintro ⟨e, v, ⟨he, hv, hnamed⟩, hk⟩
    exact ⟨e, he, v, hv, hnamed, hk⟩

theorem IsEntry.markingOf {e : ComponentEntry} {v : VulnerabilityRecord} (h : m.IsEntry t e v) :
    m.markingOf t = some v.toMarking :=
  markingOf_eq_some.2 ⟨e, v, h, rfl⟩

/-- The references of the tables lead to records, and each entry is stored under its own key. -/
structure Linked (m : CVETables) : Prop where
  database : ∀ id r, m.vulnerabilities.get? id = some r →
    ∃ v, m.records[r]? = some v ∧ v.cveId = id
  entries : ∀ key e, m.componentVulnerabilities.get? key = some e →
    ∃ v, m.records[e.vulnerability]? = some v ∧
      key = Target.key ⟨v.cveId, e.componentName, e.componentVersion⟩

theorem Linked.isEntry (h : m.Linked) {key : String} {e : ComponentEntry}
    (he : m.componentVulnerabilities.get? key = some e) {v : VulnerabilityRecord}
    (hv : m.records[e.vulnerability]? = some v) :
    m.IsEntry ⟨v.cveId, e.componentName, e.componentVersion⟩ e v := by
  obtain ⟨w, hw, rfl⟩ := h.entries key e he
  obtain rfl := Option.some.inj (hv.symm.trans hw)
  exact ⟨he, hv, rfl⟩

/-! ### Syncs -/

theorem Linked.storeVulnerability (h : m.Linked) (v : Vulnerability) :
    (m.storeVulnerability v).Linked := by
  have hold : ∀ {r w}, m.records[r]? = some w → (m.storeVulnerability v).records[r]? = some w :=
    fun hr => List.getElem?_append_left (List.getElem?_eq_some_iff.mp hr).1 |>.trans hr
  refine ⟨fun id r hget => ?_, fun key e hget => ?_⟩
  · unfold CVETables.storeVulnerability at hget
    rw [Dict.get?_set] at hget
    split_ifs at hget with hid
    · obtain rfl := Option.some.inj hget
      exact ⟨{ v with }, List.getElem?_concat_length, hid.symm⟩
    · obtain ⟨w, hw, hcve⟩ := h.database id r hget
      exact ⟨w, hold hw, hcve⟩
  · obtain ⟨w, hw, hkey⟩ := h.entries key e hget
    exact ⟨w, hold hw, hkey⟩

theorem IsEntry.storeVulnerability {e : ComponentEntry} {w : VulnerabilityRecord}
    (h : m.IsEntry t e w) (v : Vulnerability) : (m.storeVulnerability v).IsEntry t e w :=
  ⟨h.stored, (List.getElem?_append_left (List.getElem?_eq_some_iff.mp h.record).1).trans h.record,
    h.named⟩

theorem syncVulnerabilityDatabase_of {P : CVETables → Prop} (h : P m)
    (hstore : ∀ m, P m → ∀ v, P (m.storeVulnerability v)) : P m.syncVulnerabilityDatabase :=
  List.foldlRecOn _ _ h fun _ hm _ _ => List.foldlRecOn _ _ hm fun m hm v _ => hstore m hm v

/-! ### Scans -/

section

variable {name version : String}

/-- The item of the database affects the component. -/
def Affected (lower : String → String) (m : CVETables) (name : String) (item : String × ℕ) : Prop :=
  ∃ v, m.records[item.2]? = some v ∧
    CVEGatesManager.affects lower v.toVulnerability name = true

theorem scanItem_of_affected {acc : CVETables × List ComponentEntry} {item : String × ℕ}
    (h : Affected lower acc.1 name item) : (scanItem lower name version acc item).1 =
      { acc.1 with
        componentVulnerabilities := acc.1.componentVulnerabilities.set
          (Target.key ⟨item.1, name, version⟩) ⟨name, version, item.2⟩ } := by
  obtain ⟨v, hv, haffects⟩ := h
  unfold scanItem
  rw [hv]
  dsimp only
  rw [if_pos haffects]

theorem scanItem_of_not_affected {acc : CVETables × List ComponentEntry} {item : String × ℕ}
    (h : ¬Affected lower acc.1 name item) : scanItem lower name version acc item = acc := by
  unfold scanItem
  split
  next v hv => exact if_neg fun haffects => h ⟨v, hv, haffects⟩
  · rfl

/-- A scan stores an entry for each item that affects the component, and nothing else. -/
structure Scanned (lower : String → String) (name version : String) (items : List (String × ℕ))
    (m m' : CVETables) : Prop where
  records : m'.records = m.records
  vulnerabilities : m'.vulnerabilities = m.vulnerabilities
  stored : ∀ key, (∃ item ∈ items, Affected lower m name item ∧
      key = Target.key ⟨item.1, name, version⟩ ∧
        m'.componentVulnerabilities.get? key = some ⟨name, version, item.2⟩) ∨
    (∀ item ∈ items, Affected lower m name item → key ≠ Target.key ⟨item.1, name, version⟩) ∧
      m'.componentVulnerabilities.get? key = m.componentVulnerabilities.get? key

theorem scanned_foldl (items : List (String × ℕ)) (acc : CVETables × List ComponentEntry) :
    Scanned lower name version items acc.1
      (items.foldl (scanItem lower name version) acc).1 := by
  induction items using List.reverseRecOn with
  | nil => exact ⟨rfl, rfl, fun key => Or.inr ⟨by simp, rfl⟩⟩
  | append_singleton items item ih =>
    rw [List.foldl_append, List.foldl_cons, List.foldl_nil]
    generalize items.foldl (scanItem lower name version) acc = acc' at ih
    have hsame : Affected lower acc'.1 name item ↔ Affected lower acc.1 name item := by
      unfold Affected
      rw [ih.records]
    by_cases haffected : Affected lower acc'.1 name item
    · rw [scanItem_of_affected haffected]
      refine ⟨ih.records, ih.vulnerabilities, fun key => ?_⟩
      by_cases hkey : key = Target.key ⟨item.1, name, version⟩
      · refine Or.inl ⟨item, by simp, hsame.mp haffected, hkey, ?_⟩
        rw [hkey]
        exact Dict.get?_set_self _ _ _
      · have hget := Dict.get?_set_ne acc'.1.componentVulnerabilities
          (⟨name, version, item.2⟩ : ComponentEntry) hkey
        refine (ih.stored key).imp ?_ ?_
        · rintro ⟨item', hmem, haff, hk, hstored⟩
          exact ⟨item', List.mem_append_left _ hmem, haff, hk, hget.trans hstored⟩
        · rintro ⟨hnone, hstored⟩
          refine ⟨fun item' hmem haff => ?_, hget.trans hstored⟩
          rcases List.mem_append.mp hmem with hmem | hmem
          · exact hnone item' hmem haff
          · obtain rfl := List.mem_singleton.mp hmem
            exact hkey
    · rw [scanItem_of_not_affected haffected]
      refine ⟨ih.records, ih.vulnerabilities, fun key => (ih.stored key).imp ?_ ?_⟩
      · rintro ⟨item', hmem, hrest⟩
        exact ⟨item', List.mem_append_left _ hmem, hrest⟩
      · rintro ⟨hnone, hstored⟩
        refine ⟨fun item' hmem haff => ?_, hstored⟩
        rcases List.mem_append.mp hmem with hmem | hmem
        · exact hnone item' hmem haff
        · obtain rfl := List.mem_singleton.mp hmem
          exact absurd (hsame.mpr haff) haffected

theorem scanned (lower : String → String) (name version : String) (m : CVETables) :
    Scanned lower name version m.vulnerabilities.items m
      (m.scanComponentVulnerabilities lower name version).1 :=
  scanned_foldl _ (m, [])

theorem Linked.scan (h : m.Linked) :
    (m.scanComponentVulnerabilities lower name version).1.Linked := by
  have hscan := scanned lower name version m
  refine ⟨fun id r hget => ?_, fun key e hget => ?_⟩
  · rw [hscan.vulnerabilities] at hget
    rw [hscan.records]
    exact h.database id r hget
  · rw [hscan.records]
    rcases hscan.stored key with ⟨item, hmem, -, rfl, hstored⟩ | ⟨-, hstored⟩
    · obtain rfl := Option.some.inj (hget.symm.trans hstored)
      obtain ⟨v, hv, hcve⟩ := h.database item.1 item.2 (Dict.mem_items.mp hmem)
      exact ⟨v, hv, by rw [hcve]⟩
    · exact h.entries key e (hstored.symm.trans hget)

/-- The entries keep their markings exactly if the scan finds them again with the same one. -/
theorem Linked.scan_keeps_iff (h : m.Linked) :
    (∀ t k, m.markingOf t = some k →
      (m.scanComponentVulnerabilities lower name version).1.markingOf t = some k) ↔
        m.FindsMarked lower name version := by
  have hscan := scanned lower name version m
  generalize (m.scanComponentVulnerabilities lower name version).1 = m' at hscan
  constructor
  · intro hkeeps id r v hr hv haffects e w he hw
    have hentry := h.isEntry he hw
    obtain ⟨e', v', hentry', hmarking⟩ := markingOf_eq_some.1 (hkeeps _ _ hentry.markingOf)
    -- The entry under the key is the one that the scan stored.
    have hkey : Target.key ⟨w.cveId, e.componentName, e.componentVersion⟩ =
        Target.key ⟨id, name, version⟩ := by
      obtain ⟨w', hw', hkey⟩ := h.entries _ e he
      obtain rfl := Option.some.inj (hw.symm.trans hw')
      exact hkey.symm
    have hstored := hentry'.stored
    rw [hkey] at hstored
    have he' : e' = ⟨name, version, r⟩ := by
      rcases hscan.stored (Target.key ⟨id, name, version⟩) with
        ⟨⟨id', r'⟩, hmem, -, hid, hget⟩ | ⟨hnone, -⟩
      · obtain rfl : id = id' := Target.key_inj hid
        obtain rfl := Option.some.inj (hr.symm.trans (Dict.mem_items.mp hmem))
        exact Option.some.inj (hstored.symm.trans hget)
      · exact absurd rfl (hnone ⟨id, r⟩ (Dict.mem_items.mpr hr) ⟨v, hv, haffects⟩)
    subst he'
    have hrecord := hentry'.record
    rw [hscan.records] at hrecord
    obtain rfl : v = v' := Option.some.inj (hv.symm.trans hrecord)
    obtain ⟨v', hv', hcve⟩ := h.database id r hr
    obtain rfl := Option.some.inj (hv.symm.trans hv')
    obtain ⟨hcve', hname, hversion⟩ := Target.mk.inj hentry'.named
    exact ⟨⟨he, hw, by rw [hcve', hname, hversion, hcve]⟩, hmarking.symm⟩
  · intro hfinds t k hk
    obtain ⟨e, w, hentry, rfl⟩ := markingOf_eq_some.1 hk
    rcases hscan.stored t.key with ⟨⟨id, r⟩, hmem, ⟨v, hv, haffects⟩, hkey, hget⟩ | ⟨-, hget⟩
    · have hr := Dict.mem_items.mp hmem
      obtain ⟨hfound, hmarking⟩ :=
        hfinds id r v hr hv haffects e w (hkey ▸ hentry.stored) hentry.record
      obtain ⟨v', hv', hcve⟩ := h.database id r hr
      obtain rfl := Option.some.inj (hv.symm.trans hv')
      refine markingOf_eq_some.2 ⟨_, v, ⟨hget, ?_, ?_⟩, hmarking.symm⟩
      · rw [hscan.records]
        exact hv
      · rw [hentry.named, ← hfound.named, hcve]
    · exact markingOf_eq_some.2 ⟨e, w, ⟨hget.trans hentry.stored,
        by rw [hscan.records]; exact hentry.record, hentry.named⟩, rfl⟩

end

/-! ### Marks -/

section

variable {f : Marking → Marking} {e : ComponentEntry}

theorem mark_of_none (h : m.componentVulnerabilities.get? t.key = none) :
    (m.mark f t).1 = m := by
  unfold mark
  rw [h]

theorem mark_of_some (h : m.componentVulnerabilities.get? t.key = some e) :
    (m.mark f t).1 = { m with records := m.records.modify e.vulnerability fun v =>
      { v with toMarking := f v.toMarking } } := by
  unfold mark
  rw [h]

/-- The record of a reference after a mark. -/
theorem getElem?_mark (h : m.componentVulnerabilities.get? t.key = some e) (r : ℕ) :
    (m.mark f t).1.records[r]? = (m.records[r]?).map fun v =>
      if e.vulnerability = r then { v with toMarking := f v.toMarking } else v := by
  rw [mark_of_some h]
  exact List.getElem?_modify _ _ _ _

theorem Linked.mark (h : m.Linked) (f : Marking → Marking) (t : Target) :
    (m.mark f t).1.Linked := by
  cases he : m.componentVulnerabilities.get? t.key with
  | none =>
    rw [mark_of_none he]
    exact h
  | some e =>
    have hrecord : ∀ {r : ℕ} {v : VulnerabilityRecord}, m.records[r]? = some v →
        ∃ w, (m.mark f t).1.records[r]? = some w ∧ w.cveId = v.cveId := by
      intro r v hv
      refine ⟨_, by rw [getElem?_mark he, hv]; rfl, ?_⟩
      split_ifs <;> rfl
    refine ⟨fun id r hget => ?_, fun key e' hget => ?_⟩
    · rw [mark_of_some he] at hget
      obtain ⟨v, hv, rfl⟩ := h.database id r hget
      exact hrecord hv
    · rw [mark_of_some he] at hget
      obtain ⟨v, hv, rfl⟩ := h.entries key e' hget
      obtain ⟨w, hw, hcve⟩ := hrecord hv
      exact ⟨w, hw, by rw [hcve]⟩

/-- The marking of an entry after a mark, which may have found the record of another entry. -/
theorem IsEntry.markingOf_mark {e e' : ComponentEntry} {v : VulnerabilityRecord}
    (h : m.IsEntry t' e' v) (he : m.componentVulnerabilities.get? t.key = some e) :
    (m.mark f t).1.markingOf t' =
      some (if e.vulnerability = e'.vulnerability then f v.toMarking else v.toMarking) := by
  have hget := getElem?_mark (f := f) he e'.vulnerability
  rw [h.record, Option.map_some] at hget
  have hstored : (m.mark f t).1.componentVulnerabilities.get? t'.key = some e' := by
    rw [mark_of_some he]
    exact h.stored
  split_ifs at hget ⊢ with hsame
  · exact IsEntry.markingOf ⟨hstored, hget, h.named⟩
  · exact IsEntry.markingOf ⟨hstored, hget, h.named⟩

/-- The other entries keep their markings exactly if the mark keeps to its own. -/
theorem Linked.mark_keeps_iff (h : m.Linked) :
    (∀ t' k, m.markingOf t' = some k →
      (m.mark f t).1.markingOf t' = some (if t = t' then f k else k)) ↔ m.MarksOwn f t := by
  cases he : m.componentVulnerabilities.get? t.key with
  | none =>
    rw [mark_of_none he]
    refine iff_of_true (fun t' k hk => ?_) fun e v he' => by simp [he] at he'
    obtain ⟨e', v, hentry, -⟩ := markingOf_eq_some.1 hk
    have hne : t ≠ t' := by
      rintro rfl
      cases he.symm.trans hentry.stored
    rw [if_neg hne, hk]
  | some e =>
    constructor
    · intro hkeeps e₁ v he₁ hv
      obtain rfl := Option.some.inj (he.symm.trans he₁)
      by_contra hnot
      obtain ⟨hchanged, hother⟩ := not_or.mp hnot
      refine hother fun key e' he' hsame => ?_
      by_contra hne
      rw [← hsame] at hv
      have hentry := h.isEntry he' hv
      have hkept := hkeeps _ _ hentry.markingOf
      rw [hentry.markingOf_mark he, if_pos hsame.symm, if_neg hne] at hkept
      exact hchanged (Option.some.inj hkept)
    · intro hown t' k hk
      obtain ⟨e', v, hentry, rfl⟩ := markingOf_eq_some.1 hk
      rw [hentry.markingOf_mark he]
      by_cases hsame : e.vulnerability = e'.vulnerability
      · rw [if_pos hsame]
        rcases hown e v he (hsame ▸ hentry.record) with heq | hown
        · rw [heq, ite_self]
        · rw [hown t'.key e' hentry.stored hsame.symm, ← hentry.named, if_pos rfl]
      · have hne : t ≠ t' := by
          rintro rfl
          exact hsame (congrArg _ (Option.some.inj (he.symm.trans hentry.stored)))
        rw [if_neg hsame, if_neg hne]

end

/-! ### Runs -/

theorem Linked.step (h : m.Linked) (call : CVECall) : (m.step lower call).Linked := by
  cases call with
  | sync => exact syncVulnerabilityDatabase_of h fun m hm v => hm.storeVulnerability v
  | scan name version => exact h.scan
  | falsePositive t reason => exact h.mark _ t
  | mitigated t mitigation => exact h.mark _ t

theorem Linked.empty : Linked {} where
  database _ _ h := by cases h
  entries _ _ h := by cases h

theorem linked_after (lower : String → String) (calls : List CVECall) :
    (after lower calls).Linked :=
  List.foldlRecOn _ _ Linked.empty fun _ hm call _ => hm.step call

/-- A call keeps the markings exactly if it keeps to its own entries. -/
theorem Linked.step_keeps_iff (h : m.Linked) (call : CVECall) :
    (∀ t k, m.markingOf t = some k →
      (m.step lower call).markingOf t = some (call.intended t k)) ↔ m.Separate lower call := by
  cases call with
  | sync =>
    refine iff_of_true (fun t k hk => ?_) trivial
    obtain ⟨e, v, hentry, rfl⟩ := markingOf_eq_some.1 hk
    have hsync := @syncVulnerabilityDatabase_of m (fun m => m.IsEntry t e v) hentry
      fun m hm w => hm.storeVulnerability w
    exact hsync.markingOf
  | scan name version => exact h.scan_keeps_iff
  | falsePositive t reason => exact h.mark_keeps_iff
  | mitigated t mitigation => exact h.mark_keeps_iff

theorem after_append (before between : List CVECall) :
    after lower (before ++ between) = between.foldl (CVETables.step lower) (after lower before) :=
  List.foldl_append

end CVETables

/-- Throughout a run, the entries keep their own markings exactly if every call keeps to its own
entries. -/
theorem marks_kept_iff (lower : String → String) (calls : List CVECall) :
    Kept lower calls ↔ ∀ before call rest, calls = before ++ call :: rest →
      (CVETables.after lower before).Separate lower call := by
  have hstep : ∀ before call, _ ↔ (CVETables.after lower before).Separate lower call :=
    fun before call => (CVETables.linked_after lower before).step_keeps_iff call
  constructor
  · rintro hkept before call rest rfl
    refine (hstep before call).mp fun t k hk => ?_
    have hone := hkept before [call] rest (by simp) t k hk
    rwa [CVETables.after_append] at hone
  · intro hseparate before between rest hcalls t k hk
    induction between using List.reverseRecOn generalizing rest with
    | nil => rwa [List.append_nil]
    | append_singleton between call ih =>
      have hbefore := ih (call :: rest) (by rw [hcalls]; simp)
      have hnext := (hstep _ call).mpr
        (hseparate (before ++ between) call rest (by rw [hcalls]; simp)) t _ hbefore
      rw [← List.append_assoc, CVETables.after_append, List.foldl_append]
      exact hnext

/-! ## A mark that is seen elsewhere, and one that is lost -/

/-- The critical vulnerability in `requests`. -/
def requestsTarget : Target := ⟨"CVE-2023-1234", "requests", "2.31.0"⟩

/-- The same vulnerability in `urllib3`. -/
def urllibTarget : Target := ⟨"CVE-2023-1234", "urllib3", "1.26"⟩

/-- A mark is seen by the entry of another component, and it is lost when the component is
scanned again after a sync. -/
theorem marks_not_kept :
    ¬Kept id [.sync, .scan "requests" "2.31.0", .scan "urllib3" "1.26",
      .falsePositive requestsTarget "not reachable"] ∧
    ¬Kept id [.sync, .scan "requests" "2.31.0", .falsePositive requestsTarget "not reachable",
      .sync, .scan "requests" "2.31.0"] := by
  constructor
  · intro h
    have hkept := h [.sync, .scan "requests" "2.31.0", .scan "urllib3" "1.26"]
      [.falsePositive requestsTarget "not reachable"] [] rfl urllibTarget {} (by decide +kernel)
    exact absurd hkept (by decide +kernel)
  · intro h
    have hkept := h [.sync, .scan "requests" "2.31.0"]
      [.falsePositive requestsTarget "not reachable", .sync, .scan "requests" "2.31.0"] []
      rfl requestsTarget {} (by decide +kernel)
    exact absurd hkept (by decide +kernel)

end CVEGates

end MultiAgent
