import ResearchWorkbench.Domain.Research
import ResearchWorkbench.Store.Schema

namespace ResearchWorkbench

/-!
# The domain tables

Sources, evidence, claims and findings (`migrations/001_initial.sql`, `003`, `006` and `015`), as
lists of rows whose ids are their positions.

* `SourceRow`, `DocumentRow`, `EvidenceRow`, `ClaimRow`, `ClaimEvidenceRow`, `FindingRow`,
  `QaFindingRow`, `ResearchQuestionRow`;
* `ResearchTables` — the tables, a `DomainStore`;
* `markGeneratedDomainEffectsNonCurrent` — the rows that given stage rows generated are superseded;
* `ResearchTables.currentGenerators` — the stage rows whose rows are current.

A row is generated by a stage row of the pipeline, or by nobody (a human row).  Texts, locations,
confidences and times, which no modelled function reads, are left out.
-/

/-! ### Rows -/

/-- A row of `sources`. -/
structure SourceRow where
  projectId : ℕ
  freshnessStatus : SourceFreshnessStatus
  deriving DecidableEq, Repr

/-- A row of `documents`: its source, and whether it is deleted and its status is `READY`. -/
structure DocumentRow where
  sourceId : ℕ
  projectId : ℕ
  deleted : Bool
  ready : Bool
  deriving DecidableEq, Repr

/-- A row of `evidence`. -/
structure EvidenceRow where
  sourceId : ℕ
  verificationStatus : EvidenceVerificationStatus
  supportExtent : EvidenceSupportExtent := .full
  generatedByRunStageId : Option ℕ := none
  isCurrent : Bool := true
  deriving DecidableEq, Repr

/-- A row of `claims`. -/
structure ClaimRow where
  projectId : ℕ
  supportStatus : ClaimSupportStatus
  verificationPossible : Bool := true
  generatedByRunStageId : Option ℕ := none
  isCurrent : Bool := true
  deriving DecidableEq, Repr

/-- A row of `claim_evidence`. -/
structure ClaimEvidenceRow where
  claimId : ℕ
  evidenceId : ℕ
  relationship : EvidenceRelationship
  deriving DecidableEq, Repr

/-- A row of `findings`. -/
structure FindingRow where
  projectId : ℕ
  generatedByRunStageId : Option ℕ := none
  isCurrent : Bool := true
  deriving DecidableEq, Repr

inductive Severity
  | blocker | high | medium | low
  deriving DecidableEq, Repr

inductive ResolutionStatus
  | «open» | resolved | acceptedRisk
  deriving DecidableEq, Repr

/-- `qa_findings.rule_code`. -/
inductive RuleCode
  | aiSourceConflict | aiQaRevision | other (rule : ℕ)
  deriving DecidableEq, Repr

/-- A row of `qa_findings`. -/
structure QaFindingRow where
  projectId : ℕ
  ruleCode : RuleCode
  severity : Severity
  resolutionStatus : ResolutionStatus := .open
  generatedByRunStageId : Option ℕ := none
  isCurrent : Bool := true
  deriving DecidableEq, Repr

inductive GapStatus
  | none | «open» | accepted | resolved
  deriving DecidableEq, Repr

/-- A row of `research_questions`: its gap. -/
structure ResearchQuestionRow where
  projectId : ℕ
  researchGap : Option String := .none
  gapStatus : GapStatus := .none
  gapGeneratedByRunStageId : Option ℕ := .none
  deriving DecidableEq, Repr

/-- The domain tables. -/
structure ResearchTables where
  sources : List SourceRow := []
  documents : List DocumentRow := []
  evidence : List EvidenceRow := []
  claims : List ClaimRow := []
  claimEvidence : List ClaimEvidenceRow := []
  findings : List FindingRow := []
  qaFindings : List QaFindingRow := []
  questions : List ResearchQuestionRow := []
  deriving DecidableEq, Repr

/-! ### Supersession -/

/-- `generated_by_run_stage_id = ANY(runStageIds) AND is_current`. -/
def generatedByAny (runStageIds : List ℕ) (generatedBy : Option ℕ) : Bool :=
  generatedBy.any (· ∈ runStageIds)

/-- The gap of the question is removed. -/
def ResearchQuestionRow.clearGap (question : ResearchQuestionRow) : ResearchQuestionRow :=
  { question with researchGap := .none, gapStatus := .none, gapGeneratedByRunStageId := .none }

/-- `markGeneratedDomainEffectsNonCurrent(client, runStageIds)`. -/
def markGeneratedDomainEffectsNonCurrent (runStageIds : List ℕ) (t : ResearchTables) :
    ResearchTables :=
  { t with
    evidence := updateWhere
      (fun _ e => generatedByAny runStageIds e.generatedByRunStageId ∧ e.isCurrent)
      (fun e => { e with isCurrent := false }) t.evidence
    claims := updateWhere
      (fun _ c => generatedByAny runStageIds c.generatedByRunStageId ∧ c.isCurrent)
      (fun c => { c with isCurrent := false }) t.claims
    findings := updateWhere
      (fun _ f => generatedByAny runStageIds f.generatedByRunStageId ∧ f.isCurrent)
      (fun f => { f with isCurrent := false }) t.findings
    qaFindings := updateWhere
      (fun _ q => generatedByAny runStageIds q.generatedByRunStageId ∧ q.isCurrent)
      (fun q => { q with isCurrent := false }) t.qaFindings
    questions := updateWhere
      (fun _ q => generatedByAny runStageIds q.gapGeneratedByRunStageId ∧ q.gapStatus = .open)
      (·.clearGap) t.questions }

instance : DomainStore ResearchTables where
  hasOpenBlocker projectId t := t.qaFindings.any fun q =>
    q.projectId = projectId ∧ q.isCurrent ∧ q.resolutionStatus ≠ .resolved ∧ q.severity = .blocker
  sourceCount projectId t := t.sources.countP (·.projectId = projectId)
  markGeneratedDomainEffectsNonCurrent := markGeneratedDomainEffectsNonCurrent

/-! ### Generations -/

section
variable {α : Type} (generatedBy : α → Option ℕ) (isCurrent : α → Bool)

/-- The stage rows that generated current rows of a table. -/
def currentGeneratorsOf (rows : List α) : List ℕ :=
  (rows.filter isCurrent).filterMap generatedBy

variable {generatedBy isCurrent} {rows : List α} {i : ℕ}

theorem mem_currentGeneratorsOf :
    i ∈ currentGeneratorsOf generatedBy isCurrent rows ↔
      ∃ row ∈ rows, isCurrent row ∧ generatedBy row = some i := by
  simp [currentGeneratorsOf, and_assoc]

/-- Superseded rows are not current, and no row becomes so. -/
theorem currentGeneratorsOf_updateWhere {ids : List ℕ} {f : α → α}
    (hcurrent : ∀ row, isCurrent (f row) = false)
    (hi : i ∈ currentGeneratorsOf generatedBy isCurrent (updateWhere
      (fun _ row => decide (generatedByAny ids (generatedBy row) ∧ isCurrent row)) f rows)) :
    i ∈ currentGeneratorsOf generatedBy isCurrent rows ∧ i ∉ ids := by
  obtain ⟨row, hrow, hcur, hgen⟩ := mem_currentGeneratorsOf.mp hi
  obtain ⟨k, hk⟩ := List.mem_iff_getElem?.mp hrow
  rw [getElem?_updateWhere, Option.map_eq_some_iff] at hk
  obtain ⟨row₀, hk, rfl⟩ := hk
  revert hcur hgen
  split
  · intro hcur
    rw [hcurrent] at hcur
    cases hcur
  · rename_i hnot
    intro hcur hgen
    refine ⟨mem_currentGeneratorsOf.mpr ⟨row₀, List.mem_of_getElem? hk, hcur, hgen⟩, fun hmem => ?_⟩
    exact hnot (by simp [generatedByAny, hgen, hmem, hcur])

end

/-- The stage rows that generated current evidence, claims or findings. -/
def ResearchTables.currentGenerators (t : ResearchTables) : List ℕ :=
  currentGeneratorsOf EvidenceRow.generatedByRunStageId EvidenceRow.isCurrent t.evidence ++
    currentGeneratorsOf ClaimRow.generatedByRunStageId ClaimRow.isCurrent t.claims ++
    currentGeneratorsOf FindingRow.generatedByRunStageId FindingRow.isCurrent t.findings ++
    currentGeneratorsOf QaFindingRow.generatedByRunStageId QaFindingRow.isCurrent t.qaFindings

/-- **Supersession.**  What the given stage rows generated is not current any more. -/
theorem mem_currentGenerators_mark {ids : List ℕ} {t : ResearchTables} {i : ℕ}
    (h : i ∈ (markGeneratedDomainEffectsNonCurrent ids t).currentGenerators) :
    i ∈ t.currentGenerators ∧ i ∉ ids := by
  simp only [ResearchTables.currentGenerators, List.mem_append] at h ⊢
  obtain ((h | h) | h) | h := h
  all_goals
    obtain ⟨h, hids⟩ := currentGeneratorsOf_updateWhere (fun _ => rfl) h
    exact ⟨by simp [h], hids⟩

end ResearchWorkbench
