import Mathlib.Data.List.Forall2
import MultiAgent.Middleware.PrivacyMiddleware

/-!
# What the redaction leaves

`_protect_string` keeps those detections whose type is on the allow list of the tenant, and
redacts these. The comment above the filter says that it filters out the types that are not
allowed, and `PrivacyValidator`, in the same file, reports the detections whose type is not
on the list.

The code points of a redacted text are followed to their places in the text
(`redactionTrace`). A disallowed span is no longer there exactly when the edits of the
allowed ones happen to cut it, and an allowed span never stays as it is. So the redaction
does what it is for exactly when every allowed detection overlaps a disallowed one, and
every disallowed one is cut by an allowed one (`protects_iff`). The keys of an object are
never looked at (`keysProtected_iff`).
-/

namespace MultiAgent

namespace Privacy

namespace PrivacyMiddleware

variable (m : PrivacyMiddleware) (tenantId : Option Text)

/-- The redaction of a text, each code point of the text by its place there. -/
def redactionTrace (content : Text) : List (ℕ ⊕ CodePoint) :=
  Splice.applyAll (Splice.positions CodePoint content.length)
    ((m.edits tenantId content).map (Splice.Edit.map .inr))

/-- `shown` consists of the code points of `content` that the trace says, and of masks. -/
def Shows (content : Text) (trace : List (ℕ ⊕ CodePoint)) (shown : Text) : Prop :=
  shown.map some = trace.map (Sum.elim (fun i => content[i]?) some)

/-- The span of a detection is still there. -/
def Remains {content : Text} (d : PIIDetection content) (trace : List (ℕ ⊕ CodePoint)) : Prop :=
  Splice.Survives d.start d.length trace

/-- No disallowed span is still there, and every allowed span that overlaps none of them is. -/
def Protects (content : Text) (trace : List (ℕ ⊕ CodePoint)) : Prop :=
  ∀ d ∈ m.detectPii content,
    (d.piiType ∉ getAllowedPiiTypes tenantId → ¬Remains d trace) ∧
    (d.piiType ∈ getAllowedPiiTypes tenantId →
      (∀ e ∈ m.detectPii content, e.piiType ∉ getAllowedPiiTypes tenantId → ¬d.Overlaps e) →
        Remains d trace)

/-- Every allowed detection overlaps a disallowed one, and every disallowed one is cut by the
edits, which redact the allowed ones. -/
structure CutsDisallowed (content : Text) : Prop where
  allowed : ∀ d ∈ m.detectPii content, d.piiType ∈ getAllowedPiiTypes tenantId →
    ∃ e ∈ m.detectPii content, e.piiType ∉ getAllowedPiiTypes tenantId ∧ d.Overlaps e
  disallowed : ∀ d ∈ m.detectPii content, d.piiType ∉ getAllowedPiiTypes tenantId →
    Splice.cuts d.length d.start (m.edits tenantId content) = true

/-! ## One text -/

theorem shows_protectString (content : Text) :
    Shows content (m.redactionTrace tenantId content) (m.protectString tenantId content) := by
  rw [Shows, protectString_eq, Splice.applyAll_positions]
  rfl

theorem shows_self (content : Text) :
    Shows content (Splice.positions CodePoint content.length) content := by
  have hread := Splice.applyAll_positions content []
  exact hread

variable {m tenantId}

theorem length_pos {content : Text} (d : PIIDetection content) : 0 < d.length := by
  have := d.start_lt
  unfold PIIDetection.length
  omega

theorem start_add_length_le {content : Text} (d : PIIDetection content) :
    d.start + d.length ≤ content.length := by
  have := d.start_lt
  have := d.stop_le
  unfold PIIDetection.length
  omega

theorem remains_iff {content : Text} (d : PIIDetection content) :
    Remains d (m.redactionTrace tenantId content) ↔
      Splice.cuts d.length d.start (m.edits tenantId content) = false :=
  Splice.survives_iff (length_pos d) (start_add_length_le d) fun _ he => (edit_bounds he).1

/-- What is redacted does not stay as it is. -/
theorem not_remains_of_mem {content : Text} {d : PIIDetection content}
    (hd : d ∈ m.filteredDetections tenantId content) :
    ¬Remains d (m.redactionTrace tenantId content) := by
  have hedit : d.edit ∈ m.edits tenantId content := mem_edits.mpr ⟨d, hd, rfl⟩
  refine Splice.not_survives_of_mem (length_pos d) (edits_sorted content)
    (fun e he => (edit_bounds he).1) (fun e he => ?_) hedit
  have := edit_bounds he
  omega

theorem remains_positions {content : Text} (d : PIIDetection content) :
    Remains d (Splice.positions CodePoint content.length) := by
  have hnone : ∀ e ∈ ([] : List (Splice.Edit CodePoint)), e.start < e.stop := by simp
  exact (Splice.survives_iff (length_pos d) (start_add_length_le d) hnone).mpr rfl

/-- The redaction of a text leaves what it should exactly when its edits cut what they should
leave. -/
theorem protects_iff (content : Text) :
    m.Protects tenantId content (m.redactionTrace tenantId content) ↔
      m.CutsDisallowed tenantId content := by
  constructor
  · intro h
    refine ⟨fun d hd hallowed => ?_, fun d hd hallowed => ?_⟩
    · by_contra hnone
      push Not at hnone
      exact not_remains_of_mem (mem_filteredDetections.mpr ⟨hd, hallowed⟩)
        ((h d hd).2 hallowed hnone)
    · have hgone := (h d hd).1 hallowed
      rwa [remains_iff, Bool.not_eq_false] at hgone
  · rintro ⟨hoverlap, hcut⟩ d hd
    refine ⟨fun hallowed => ?_, fun hallowed hnone => ?_⟩
    · rw [remains_iff, hcut d hd hallowed]
      simp
    · obtain ⟨e, he, hdisallowed, hde⟩ := hoverlap d hd hallowed
      exact absurd hde (hnone e he hdisallowed)

/-- A text that is left as it is. -/
theorem protects_positions_iff (content : Text) :
    m.Protects tenantId content (Splice.positions CodePoint content.length) ↔
      ∀ d ∈ m.detectPii content, d.piiType ∈ getAllowedPiiTypes tenantId := by
  constructor
  · intro h d hd
    by_contra hallowed
    exact (h d hd).1 hallowed (remains_positions d)
  · exact fun h d hd =>
      ⟨fun hallowed => absurd (h d hd) hallowed, fun _ _ => remains_positions d⟩

/-! ## The texts of a response -/

/-- The strings among texts. -/
def OpenText.values (texts : List OpenText) : List Text :=
  texts.filterMap fun
    | .key _ => none
    | .value s => some s

/-- The keys among texts. -/
def OpenText.keys (texts : List OpenText) : List Text :=
  texts.filterMap fun
    | .key s => some s
    | .value _ => none

variable (m tenantId)

/-- Every string of the content is shown without its disallowed spans and with its allowed
ones. -/
def ValuesProtected (content : Content) : Prop :=
  List.Forall₂
    (fun s shown => Shows s (m.redactionTrace tenantId s) shown ∧
      m.Protects tenantId s (m.redactionTrace tenantId s))
    (OpenText.values (m.openTexts content))
    (OpenText.values (m.openTexts (m.protectContent tenantId content)))

/-- So is every key. -/
def KeysProtected (content : Content) : Prop :=
  List.Forall₂
    (fun s shown => Shows s (Splice.positions CodePoint s.length) shown ∧
      m.Protects tenantId s (Splice.positions CodePoint s.length))
    (OpenText.keys (m.openTexts content))
    (OpenText.keys (m.openTexts (m.protectContent tenantId content)))

theorem values_protectContent (content : Content) :
    OpenText.values (m.openTexts (m.protectContent tenantId content)) =
      (OpenText.values (m.openTexts content)).map (m.protectString tenantId) := by
  rw [openTexts_protectContent, OpenText.values, OpenText.values, List.filterMap_map,
    List.map_filterMap]
  refine List.filterMap_congr fun t _ => ?_
  cases t <;> rfl

theorem keys_protectContent (content : Content) :
    OpenText.keys (m.openTexts (m.protectContent tenantId content)) =
      OpenText.keys (m.openTexts content) := by
  rw [openTexts_protectContent, OpenText.keys, OpenText.keys, List.filterMap_map]
  refine List.filterMap_congr fun t _ => ?_
  cases t <;> rfl

theorem valuesProtected_iff (content : Content) :
    m.ValuesProtected tenantId content ↔
      ∀ s ∈ OpenText.values (m.openTexts content), m.CutsDisallowed tenantId s := by
  rw [ValuesProtected, values_protectContent, List.forall₂_map_right_iff, List.forall₂_same]
  refine forall₂_congr fun s _ => ?_
  rw [← protects_iff]
  exact ⟨And.right, fun h => ⟨m.shows_protectString tenantId s, h⟩⟩

theorem keysProtected_iff (content : Content) :
    m.KeysProtected tenantId content ↔
      ∀ s ∈ OpenText.keys (m.openTexts content), ∀ d ∈ m.detectPii s,
        d.piiType ∈ getAllowedPiiTypes tenantId := by
  rw [KeysProtected, keys_protectContent, List.forall₂_same]
  refine forall₂_congr fun s _ => ?_
  rw [← protects_positions_iff]
  exact ⟨And.right, fun h => ⟨shows_self s, h⟩⟩

/-- The strings of a content are protected exactly when in each every allowed detection
overlaps a disallowed one and every disallowed one is cut by the redaction of the allowed
ones ; its keys exactly when no key has a disallowed detection. -/
theorem contentProtected_iff (content : Content) :
    (m.ValuesProtected tenantId content ↔
        ∀ s ∈ OpenText.values (m.openTexts content), m.CutsDisallowed tenantId s) ∧
      (m.KeysProtected tenantId content ↔
        ∀ s ∈ OpenText.keys (m.openTexts content), ∀ d ∈ m.detectPii s,
          d.piiType ∈ getAllowedPiiTypes tenantId) :=
  ⟨m.valuesProtected_iff tenantId content, m.keysProtected_iff tenantId content⟩

/-- A detector that finds one address of the internet and one of a mailbox. -/
def detectAddresses (s : Text) : List (PIIDetection s) :=
  if hs : s = text "1.1.1.1" then
    [{ piiType := .ipAddress, start := 0, stop := 7, redactionMask := text "***.***.***.***"
       start_lt := by decide, stop_le := by rw [hs]; decide +kernel }]
  else if hs : s = text "a@b.cd" then
    [{ piiType := .email, start := 0, stop := 6, redactionMask := text "***@***.***"
       start_lt := by decide, stop_le := by rw [hs]; decide +kernel }]
  else []

/-- The middleware with this detector. -/
def addresses : PrivacyMiddleware :=
  { detectPii := detectAddresses, encryptField := fun _ _ _ => none, lower := id
    publicLevel := .string (text "public") }

/-- Without a tenant, an address of the internet is not allowed and stays, and that of a
mailbox is allowed and goes. -/
theorem not_contentProtected :
    (addresses.protectString none (text "1.1.1.1") = text "1.1.1.1" ∧
        ¬addresses.ValuesProtected none (.object [(text "host", .string (text "1.1.1.1"))])) ∧
      addresses.protectString none (text "a@b.cd") = text "***@***.***" ∧
        ¬addresses.ValuesProtected none (.object [(text "contact", .string (text "a@b.cd"))]) := by
  refine ⟨⟨by decide +kernel, fun h => ?_⟩, by decide +kernel, fun h => ?_⟩
  · have hcut := (addresses.valuesProtected_iff none _).mp h (text "1.1.1.1") (by decide +kernel)
    have hall : (addresses.detectPii (text "1.1.1.1")).all (fun d =>
        decide (d.piiType ∈ getAllowedPiiTypes none) ||
          Splice.cuts d.length d.start (addresses.edits none (text "1.1.1.1"))) = true := by
      refine List.all_eq_true.mpr fun d hd => ?_
      by_cases hallowed : d.piiType ∈ getAllowedPiiTypes none
      · simp [hallowed]
      · simp [hcut.disallowed d hd hallowed]
    exact absurd hall (by decide +kernel)
  · have hcut := (addresses.valuesProtected_iff none _).mp h (text "a@b.cd") (by decide +kernel)
    have hall : (addresses.detectPii (text "a@b.cd")).all (fun d =>
        decide (d.piiType ∉ getAllowedPiiTypes none) ||
          (addresses.detectPii (text "a@b.cd")).any fun e =>
            decide (e.piiType ∉ getAllowedPiiTypes none)) = true := by
      refine List.all_eq_true.mpr fun d hd => ?_
      by_cases hallowed : d.piiType ∈ getAllowedPiiTypes none
      · obtain ⟨e, he, hdisallowed, -⟩ := hcut.allowed d hd hallowed
        have hany : ((addresses.detectPii (text "a@b.cd")).any fun e =>
            decide (e.piiType ∉ getAllowedPiiTypes none)) = true :=
          List.any_eq_true.mpr ⟨e, he, decide_eq_true hdisallowed⟩
        rw [hany, Bool.or_true]
      · simp [hallowed]
    exact absurd hall (by decide +kernel)

end PrivacyMiddleware

end Privacy

end MultiAgent
