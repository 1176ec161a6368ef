import ResearchWorkbench.Services.DraftCitations
import ResearchWorkbench.Services.EligibleSources
import ResearchWorkbench.Services.Ledger

namespace ResearchWorkbench.Records

/-!
# The records that the stages read

`loadResearchOrchestrationBundle` (`lib/services/research-orchestrator.ts`) over the tables of the
ledger, and `addFinding` (`lib/services/ledger.ts`), which links findings to claims.

* `FindingClaimRow`, `RecordDb`, `addFinding` — the ledger with `finding_claims`;
* `RecordAct`, `RecordDb.step` — the services;
* `RowTexts` — the columns of the rows that the tables leave out, and the orders of the queries;
* `sourcesOfClaim`, `sourcesOfFinding`, `arrayAgg` — `source_ids`;
* `loadResearchOrchestrationBundle` — the bundle of a stage.
-/

open Contracts

/-! ### Findings -/

/-- A row of `finding_claims`. -/
structure FindingClaimRow where
  findingId : ℕ
  claimId : ℕ
  deriving DecidableEq, Repr

/-- The ledger, with the links of findings. -/
structure RecordDb where
  ledger : LedgerSys
  findingClaims : List FindingClaimRow

/-- `INSERT INTO finding_claims … ON CONFLICT DO NOTHING`, which must insert a row. -/
def linkFinding (t : ResearchTables) (projectId findingId : ℕ) (links : List FindingClaimRow)
    (claimId : ℕ) : Except ServiceError (List FindingClaimRow) := do
  ensure ((t.claims[claimId]?.any fun c => c.projectId = projectId ∧ c.isCurrent) ∧
      (⟨findingId, claimId⟩ : FindingClaimRow) ∉ links)
    (notFound "Finding claim")
  return links ++ [⟨findingId, claimId⟩]

/-- `addFinding`, for a project that is there. -/
def addFinding (db : RecordDb) (projectId : ℕ) (questionId : Option ℕ) (claimIds : List ℕ) :
    Except ServiceError RecordDb := do
  let t := db.ledger.tables
  ensure (∀ q ∈ questionId, t.questions[q]?.any (·.projectId = projectId))
    (notFound "Research question")
  let findingClaims ← claimIds.foldlM (linkFinding t projectId t.findings.length) db.findingClaims
  return {
    ledger := { db.ledger with
      tables := { t with findings := t.findings ++ [{ projectId := projectId }] } }
    findingClaims }

/-! ### The services -/

/-- What can happen. -/
inductive RecordAct
  | ledger (act : LedgerAct)
  | addFinding (projectId : ℕ) (questionId : Option ℕ) (claimIds : List ℕ)

/-- What an action does. -/
def RecordDb.step (db : RecordDb) : RecordAct → RecordDb
  | .ledger act => { db with ledger := db.ledger.step act }
  | .addFinding projectId questionId claimIds =>
    match Records.addFinding db projectId questionId claimIds with
    | .ok db' => db'
    | .error _ => db

/-- The tables before any service was called. -/
def RecordDb.initial : RecordDb where
  ledger := .initial
  findingClaims := []

/-! ### The bundle -/

/-- The columns of the rows that the stages read, and the orders of the queries: `created_at, id`,
    and the collation of the database. -/
structure RowTexts where
  sourceId : ℕ → SourceId
  claimId : ℕ → Text
  claimContent : ℕ → Text
  findingId : ℕ → Text
  finding : ℕ → Text
  evidenceSummary : ℕ → Text
  evidenceBefore : ℕ → ℕ → Bool
  claimBefore : ℕ → ℕ → Bool
  findingBefore : ℕ → ℕ → Bool
  collation : Text → Text → Bool

section

variable (texts : RowTexts) (db : RecordDb) (projectId : ℕ)

/-- The query of the evidence. -/
def evidenceRows (eligibleIds : List Text) : List ℕ :=
  (idsWhere (fun _ e => (db.ledger.tables.sources[e.sourceId]?.any (·.projectId = projectId)) ∧
    (texts.sourceId e.sourceId).text ∈ eligibleIds ∧ e.isCurrent)
    db.ledger.tables.evidence).mergeSort texts.evidenceBefore

/-- `domainEvidence`. -/
def domainEvidence (eligibleIds : List Text) : List DomainEvidence :=
  (evidenceRows texts db projectId eligibleIds).filterMap fun i =>
    db.ledger.tables.evidence[i]?.map fun e =>
      ⟨(texts.sourceId e.sourceId).text, texts.evidenceSummary i⟩

/-- The source of linked evidence, in the project. -/
def sourceOfLink (t : ResearchTables) (ce : ClaimEvidenceRow) : Option ℕ := do
  let e ← t.evidence[ce.evidenceId]?
  let s ← t.sources[e.sourceId]?
  if s.projectId = projectId then some e.sourceId else none

/-- The sources that the claim is joined with. -/
def sourcesOfClaim (t : ResearchTables) (claimId : ℕ) : List ℕ :=
  (t.claimEvidence.filter (·.claimId = claimId)).filterMap (sourceOfLink projectId t)

/-- The sources that the finding is joined with. -/
def sourcesOfFinding (findingId : ℕ) : List ℕ :=
  (db.findingClaims.filter (·.findingId = findingId)).flatMap fun fc =>
    sourcesOfClaim projectId db.ledger.tables fc.claimId

/-- `ARRAY_AGG(DISTINCT s.id) FILTER (WHERE s.id IS NOT NULL)`. -/
def arrayAgg (ids : List ℕ) : Option (List Text) :=
  if ids = [] then none
  else some ((firsts (ids.map fun id => (texts.sourceId id).text)).mergeSort texts.collation)

/-- The current claims of the project, in their order. -/
def currentClaims : List ℕ :=
  (idsWhere (fun _ c => c.projectId = projectId ∧ c.isCurrent)
    db.ledger.tables.claims).mergeSort texts.claimBefore

/-- The row of a claim. -/
def domainClaim (claimId : ℕ) : DomainClaim :=
  ⟨texts.claimId claimId, texts.claimContent claimId,
    arrayAgg texts (sourcesOfClaim projectId db.ledger.tables claimId)⟩

/-- The current findings of the project, in their order. -/
def currentFindings : List ℕ :=
  (idsWhere (fun _ f => f.projectId = projectId ∧ f.isCurrent)
    db.ledger.tables.findings).mergeSort texts.findingBefore

/-- The row of a finding. -/
def domainFinding (findingId : ℕ) : DomainFinding :=
  ⟨texts.findingId findingId, texts.finding findingId,
    arrayAgg texts (sourcesOfFinding db projectId findingId)⟩

/-- `loadResearchOrchestrationBundle`, from the rows of the query of the sources; the other fields
    are those of the run. -/
def loadResearchOrchestrationBundle (rows : List EligibleRow)
    (run : Contracts.ResearchOrchestrationBundle) : Contracts.ResearchOrchestrationBundle :=
  let groupedSources := groupEligibleSources rows
  { run with
    eligibleSources := groupedSources.eligible.map (·.toEligibleResearchSource)
    excludedDocumentSourceIds := groupedSources.excludedDocumentSourceIds
    domainEvidence := domainEvidence texts db projectId (groupedSources.eligible.map (·.id))
    domainClaims := (currentClaims texts db projectId).map (domainClaim texts db projectId)
    domainFindings := (currentFindings texts db projectId).map (domainFinding texts db projectId) }

end

end ResearchWorkbench.Records
