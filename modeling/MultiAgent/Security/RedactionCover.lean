import MultiAgent.Lib.SpliceCover
import MultiAgent.Middleware.PrivacyRedaction
import MultiAgent.Security.PIIDetector

/-!
# What a redaction hides

`_apply_redaction` of the privacy middleware and `detect_pii` of the detector replace the spans
of their detections by masks, those that start last first. A span is one of the text as it was,
and the text behind an earlier replacement has moved if the mask is longer or shorter than its
span. The detections of several patterns overlap, so a later span may start before such a
replacement and end behind it.

The redaction hides the code points of the spans and no others exactly when every place that
some replacement reaches, where it then stands, is in a span, and every place in a span is reached
(`redaction_iff`). That is so if no spans overlap (`hidesExactly_of_disjoint`), as those of one
pattern (`hidesExactly_detectionsOf`), and if every mask is as long as its span
(`hidesExactly_of_length_eq`).
-/

namespace MultiAgent

namespace Privacy

open Splice (Edit Reached backward kept positions uncovered)

/-- `_apply_redaction`, which reads the span and the mask of a detection. -/
def redact {α : Type*} (content : List α) (detections : List (Edit α)) : List α :=
  Splice.applyAll content (backward detections)

/-- The redaction of a text of length `n`, each code point of the text by its place there. -/
def redactedPlaces (n : ℕ) (detections : List (Edit CodePoint)) : List (ℕ ⊕ CodePoint) :=
  redact (positions CodePoint n) (detections.map (Edit.map .inr))

/-- The text consists of masks and of the code points that are in no span, in their order. -/
structure HidesExactly (content : Text) (detections : List (Edit CodePoint)) (shown : Text) :
    Prop where
  shows : PrivacyMiddleware.Shows content (redactedPlaces content.length detections) shown
  kept : kept (redactedPlaces content.length detections) = uncovered content.length detections

/-- The places that the replacements reach are those in the spans. -/
def ReachesCovered (n : ℕ) (detections : List (Edit CodePoint)) : Prop :=
  ∀ i < n, Reached (backward detections) i ↔ ∃ d ∈ detections, d.Covers i

instance (n : ℕ) (detections : List (Edit CodePoint)) : Decidable (ReachesCovered n detections) :=
  inferInstanceAs (Decidable (∀ i < n, _))

variable {content : Text} {detections : List (Edit CodePoint)}

theorem shows_redact (content : Text) (detections : List (Edit CodePoint)) :
    PrivacyMiddleware.Shows content (redactedPlaces content.length detections)
      (redact content detections) := by
  unfold PrivacyMiddleware.Shows redactedPlaces redact
  rw [Splice.applyAll_positions, Splice.map_backward]

theorem redact_iff (h : ∀ d ∈ detections, d.start ≤ d.stop) :
    HidesExactly content detections (redact content detections) ↔
      ReachesCovered content.length detections := by
  have hkept := Splice.kept_applyAll_eq_uncovered_iff (n := content.length) h
  rw [Splice.map_backward] at hkept
  exact ⟨fun hides => hkept.mp hides.kept, fun hreaches =>
    ⟨shows_redact content detections, hkept.mpr hreaches⟩⟩

/-- The detections of the detector are redacted as any others. -/
theorem applyRedaction_eq {s : Text} (content : Text) (detections : List (PIIDetection s)) :
    applyRedaction content detections = redact content (detections.map PIIDetection.edit) := by
  rw [applyRedaction, redact, map_sortedDetections]

theorem start_le_stop {s : Text} {detections : List (PIIDetection s)} :
    ∀ d ∈ detections.map PIIDetection.edit, d.start ≤ d.stop := by
  intro d hd
  obtain ⟨d, -, rfl⟩ := List.mem_map.mp hd
  exact d.start_lt.le

theorem applyRedaction_iff {s : Text} (detections : List (PIIDetection s)) :
    HidesExactly s (detections.map PIIDetection.edit) (applyRedaction s detections) ↔
      ReachesCovered s.length (detections.map PIIDetection.edit) := by
  rw [applyRedaction_eq, redact_iff start_le_stop]

/-! ## When spans do not disturb one another -/

/-- Spans that do not overlap. -/
theorem hidesExactly_of_disjoint {s : Text} {detections : List (PIIDetection s)}
    (h : detections.Pairwise fun d e => ¬d.Overlaps e) :
    HidesExactly s (detections.map PIIDetection.edit) (applyRedaction s detections) := by
  have hsymm : ∀ {d e : PIIDetection s}, ¬d.Overlaps e → ¬e.Overlaps d :=
    fun hde hed => hde ⟨hed.2, hed.1⟩
  have hdisjoint : (sortedDetections detections).Pairwise fun d e => ¬d.Overlaps e :=
    (List.mergeSort_perm _ _).symm.pairwise h hsymm
  have hsorted := Splice.pairwise_backward (detections.map PIIDetection.edit)
  rw [← map_sortedDetections, List.pairwise_map] at hsorted
  rw [applyRedaction_iff, ReachesCovered]
  intro i _
  have hbackward : (backward (detections.map PIIDetection.edit)).Pairwise fun e f =>
      f.stop ≤ e.start := by
    rw [← map_sortedDetections, List.pairwise_map]
    refine (hdisjoint.and hsorted).imp fun {d e} hde => ?_
    have hlt := d.start_lt
    have hnot := hde.1
    have hle : e.start ≤ d.start := hde.2
    unfold PIIDetection.Overlaps at hnot
    change e.stop ≤ d.start
    omega
  rw [Splice.reached_iff_of_pairwise hbackward]
  simp only [Splice.mem_backward]

/-- The matches of one pattern. -/
theorem hidesExactly_detectionsOf (s : Text) (piiType : PIIType) (p : PIIDetector.Pattern) :
    HidesExactly s ((PIIDetector.detectionsOf s piiType p).map PIIDetection.edit)
      (applyRedaction s (PIIDetector.detectionsOf s piiType p)) := by
  refine hidesExactly_of_disjoint ?_
  unfold PIIDetector.detectionsOf
  have hpairwise : (p.1.finditer s).Pairwise fun m m' => m.2 ≤ m'.1 :=
    Regex.pairwise_finditer p.2
  rw [← List.attach_map_subtype_val (p.1.finditer s), List.pairwise_map] at hpairwise
  rw [List.pairwise_map]
  exact hpairwise.imp fun hle hoverlap => absurd hoverlap.2 (Nat.not_lt.mpr hle)

/-- Masks that are as long as what they hide. -/
theorem hidesExactly_of_length_eq
    (h : ∀ d ∈ detections, d.start + d.text.length = d.stop) :
    HidesExactly content detections (redact content detections) := by
  rw [redact_iff fun d hd => (h d hd) ▸ Nat.le_add_right _ _, ReachesCovered]
  intro i _
  rw [Splice.reached_iff_of_length_eq fun d hd => h d (Splice.mem_backward.mp hd)]
  simp only [Splice.mem_backward]

/-- Both redactions hide what is in the spans and nothing else exactly when the replacements reach
the places in the spans and no others. -/
theorem redaction_iff (tables : CharTables) (allowedTypes : Option (List PIIType)) (content : Text)
    (detections : List (Edit CodePoint)) (h : ∀ d ∈ detections, d.start ≤ d.stop) :
    (HidesExactly content detections (redact content detections) ↔
        ReachesCovered content.length detections) ∧
      (HidesExactly content
          ((PIIDetector.detections tables content allowedTypes).map PIIDetection.edit)
          (PIIDetector.detectPii tables content allowedTypes).redactedText ↔
        ReachesCovered content.length
          ((PIIDetector.detections tables content allowedTypes).map PIIDetection.edit)) :=
  ⟨redact_iff h, applyRedaction_iff (PIIDetector.detections tables content allowedTypes)⟩

/-- The tables for texts in ASCII. -/
def asciiTables : CharTables :=
  { isDecimal := PIIDetector.between '0' '9'
    isWord := fun c => PIIDetector.between '0' '9' c || PIIDetector.between 'A' 'Z' c ||
      PIIDetector.between 'a' 'z' c || PIIDetector.among "_" c }

/-- A span in another one, whose mask is as long as it. -/
theorem redaction_nested :
    HidesExactly (text "a bcd e") [⟨2, 5, text "*"⟩, ⟨3, 4, text "*"⟩]
      (redact (text "a bcd e") [⟨2, 5, text "*"⟩, ⟨3, 4, text "*"⟩]) := by
  refine (redaction_iff asciiTables none _ _ (by decide)).1.mpr ?_
  unfold ReachesCovered
  rw [Splice.backward_pair (by decide)]
  decide +kernel

/-- The digits of a mailbox are a phone number. Their mask is longer, so the end of the address
stays. -/
theorem not_redaction :
    (PIIDetector.detectPii asciiTables (text "a12345678@b.cd") none).redactedText =
        text "***@***.***b.cd" ∧
      ¬HidesExactly (text "a12345678@b.cd")
        ((PIIDetector.detections asciiTables (text "a12345678@b.cd") none).map PIIDetection.edit)
        (PIIDetector.detectPii asciiTables (text "a12345678@b.cd") none).redactedText ∧
      ¬HidesExactly (text "a12345678@b.cd")
        [⟨0, 14, text "***@***.***"⟩, ⟨1, 9, text "***-***-****"⟩]
        (redact (text "a12345678@b.cd")
          [⟨0, 14, text "***@***.***"⟩, ⟨1, 9, text "***-***-****"⟩]) := by
  have hdetections :
      (PIIDetector.detections asciiTables (text "a12345678@b.cd") none).map PIIDetection.edit =
        [⟨0, 14, text "***@***.***"⟩, ⟨1, 9, text "***-***-****"⟩] := by decide +kernel
  have hredact : ∀ {α : Type} (content mask mask' : List α),
      redact content [⟨0, 14, mask⟩, ⟨1, 9, mask'⟩] =
        Splice.applyAll content [⟨1, 9, mask'⟩, ⟨0, 14, mask⟩] := fun content mask mask' => by
    rw [redact, Splice.backward_pair Nat.zero_lt_one]
  have hnot : ∀ shown, ¬HidesExactly (text "a12345678@b.cd")
      [⟨0, 14, text "***@***.***"⟩, ⟨1, 9, text "***-***-****"⟩] shown := by
    rintro shown ⟨-, hkept⟩
    have hplaces : redactedPlaces (text "a12345678@b.cd").length
        [⟨0, 14, text "***@***.***"⟩, ⟨1, 9, text "***-***-****"⟩] =
      Splice.applyAll (positions CodePoint 14)
        [⟨1, 9, (text "***-***-****").map .inr⟩, ⟨0, 14, (text "***@***.***").map .inr⟩] :=
      hredact _ _ _
    rw [hplaces] at hkept
    exact absurd hkept (by decide +kernel)
  rw [PIIDetector.detectPii_redactedText, applyRedaction_eq, hdetections]
  refine ⟨?_, hnot _, hnot _⟩
  rw [hredact]
  decide +kernel

end Privacy

end MultiAgent
