import Mathlib.Data.Nat.Notation

namespace ResearchWorkbench

/-!
# Claims and their support

`lib/domain/research.ts`: how well the evidence linked to a claim supports it.

* `SourceFreshnessStatus`, `EvidenceRelationship`, `EvidenceVerificationStatus`,
  `EvidenceSupportExtent`, `ClaimSupportStatus` — the enumerations;
* `calculateClaimSupportStatus` — the support of a claim by assessed evidence;
* `calculateClaimSupportStatus_unverified`, `calculateClaimSupportStatus_supports` — its value when
  no evidence is verified, and when all of it supports the claim.
-/

inductive SourceFreshnessStatus
  | current | aging | outdated | unknown
  deriving DecidableEq, Repr

inductive EvidenceRelationship
  | supports | refutes | context
  deriving DecidableEq, Repr

inductive EvidenceVerificationStatus
  | pending | verified | rejected
  deriving DecidableEq, Repr

inductive EvidenceSupportExtent
  | full | partly
  deriving DecidableEq, Repr

inductive ClaimSupportStatus
  | supported | partiallySupported | contested | unsupported | outdated | notVerifiable
  deriving DecidableEq, Repr

/-- `ClaimEvidenceAssessment`. -/
structure ClaimEvidenceAssessment where
  relationship : EvidenceRelationship
  verificationStatus : EvidenceVerificationStatus
  sourceFreshness : SourceFreshnessStatus
  supportExtent : EvidenceSupportExtent := .full
  deriving DecidableEq, Repr

/-- The evidence is full, and its source is not too old. -/
def ClaimEvidenceAssessment.isFullUsable (item : ClaimEvidenceAssessment) : Bool :=
  item.supportExtent = .full ∧ (item.sourceFreshness = .current ∨ item.sourceFreshness = .aging)

/-- `calculateClaimSupportStatus({ evidence, verificationPossible })`. -/
def calculateClaimSupportStatus (evidence : List ClaimEvidenceAssessment)
    (verificationPossible : Bool) : ClaimSupportStatus :=
  if ¬ verificationPossible then .notVerifiable
  else
    let verified := evidence.filter fun item =>
      item.verificationStatus = .verified ∧ item.relationship ≠ .context
    let supporting := verified.filter (·.relationship = .supports)
    let refuting := verified.filter (·.relationship = .refutes)
    if supporting ≠ [] ∧ refuting ≠ [] then .contested
    else if supporting = [] then .unsupported
    else if supporting.all (·.sourceFreshness = .outdated) then .outdated
    else if supporting.any (·.isFullUsable) then .supported
    else .partiallySupported

/-- Evidence that is not verified does not count. -/
theorem calculateClaimSupportStatus_unverified {evidence : List ClaimEvidenceAssessment}
    (h : ∀ item ∈ evidence, item.verificationStatus ≠ .verified) :
    calculateClaimSupportStatus evidence true = .unsupported := by
  have hnone : (evidence.filter fun item =>
      decide (item.verificationStatus = .verified ∧ item.relationship ≠ .context)) = [] :=
    List.filter_eq_nil_iff.mpr fun item hitem => by simp [h item hitem]
  simp only [calculateClaimSupportStatus, hnone]
  rfl

/-- Evidence that all supports the claim, some of it verified, makes it `SUPPORTED` exactly when
    some verified evidence is full and not too old. -/
theorem calculateClaimSupportStatus_supports {evidence : List ClaimEvidenceAssessment}
    (h : ∀ item ∈ evidence, item.relationship = .supports) :
    calculateClaimSupportStatus evidence true = .supported ↔
      ∃ item ∈ evidence, item.verificationStatus = .verified ∧ item.isFullUsable := by
  have hverified : (evidence.filter fun item =>
      decide (item.verificationStatus = .verified ∧ item.relationship ≠ .context)) =
      evidence.filter (·.verificationStatus = .verified) :=
    List.filter_congr fun item hitem => by simp [h item hitem]
  have hsupporting : (evidence.filter (·.verificationStatus = .verified)).filter
      (·.relationship = .supports) = evidence.filter (·.verificationStatus = .verified) :=
    List.filter_eq_self.mpr fun item hitem => by simp [h item ((List.mem_filter.mp hitem).1)]
  have hrefuting : (evidence.filter (·.verificationStatus = .verified)).filter
      (·.relationship = .refutes) = [] :=
    List.filter_eq_nil_iff.mpr fun item hitem => by simp [h item ((List.mem_filter.mp hitem).1)]
  simp only [calculateClaimSupportStatus, hverified, hsupporting, hrefuting]
  generalize hlist : evidence.filter (·.verificationStatus = .verified) = verified
  have hmem (item : ClaimEvidenceAssessment) :
      item ∈ verified ↔ item ∈ evidence ∧ item.verificationStatus = .verified := by
    rw [← hlist, List.mem_filter, decide_eq_true_eq]
  have hany : (∃ item ∈ evidence, item.verificationStatus = .verified ∧ item.isFullUsable) ↔
      ∃ item ∈ verified, item.isFullUsable := by
    simp only [hmem, and_assoc]
  rw [hany]
  simp only [not_true_eq_false, if_false, ne_eq, and_false, List.all_eq_true, decide_eq_true_eq,
    List.any_eq_true]
  split
  · simp_all
  · split
    · rename_i houtdated
      refine iff_of_false nofun ?_
      rintro ⟨item, hitem, husable⟩
      simp [ClaimEvidenceAssessment.isFullUsable, houtdated item hitem] at husable
    · split
      · exact iff_of_true rfl ‹_›
      · exact iff_of_false nofun ‹_›

end ResearchWorkbench
