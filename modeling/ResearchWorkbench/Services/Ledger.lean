import ResearchWorkbench.Library.Transition
import ResearchWorkbench.Services.DomainEffects

namespace ResearchWorkbench

/-!
# The claim ledger

`lib/services/ledger.ts`, and the other services that write what the support of a claim depends on.

Services that lock the project's row (the scope update, stage commits and restarts) or insert rows
only run one after the other.  `linkClaimEvidence` locks nothing, and is modelled statement by
statement: it sees what was committed before each statement and its own link.  Its last statements
(the update of the claim and that of the project) and its commit are one step, since the row locks
they take are held until then.

* `claimAssessments`, `refreshClaimSupport`, `refreshProjectClaimSupport` — the cached status;
* `LinkInput`, `LinkPhase`, `LedgerSys` — links in progress, and the system;
* `LedgerAct`, `LedgerSys.step` — the services.
-/

/-! ### The cached status -/

/-- The assessment of linked evidence that is current. -/
def ClaimEvidenceRow.assess (t : ResearchTables) (ce : ClaimEvidenceRow) :
    Option ClaimEvidenceAssessment := do
  let e ← t.evidence[ce.evidenceId]?
  let s ← t.sources[e.sourceId]?
  if e.isCurrent then
    some ⟨ce.relationship, e.verificationStatus, s.freshnessStatus, e.supportExtent⟩
  else none

/-- The evidence linked to a claim that is current, with the freshness of its sources. -/
def claimAssessments (t : ResearchTables) (claimId : ℕ) : List ClaimEvidenceAssessment :=
  (t.claimEvidence.filter (·.claimId = claimId)).filterMap (·.assess t)

/-- The status of a claim is stored. -/
def ClaimRow.setSupport (claim : ClaimRow) (status : ClaimSupportStatus) : ClaimRow :=
  { claim with supportStatus := status }

/-- `verification_possible`, or `true` if there is no such claim. -/
def verificationPossible (t : ResearchTables) (claimId : ℕ) : Bool :=
  (t.claims[claimId]?.map (·.verificationPossible)).getD true

/-- `refreshClaimSupport(client, claimId)`. -/
def refreshClaimSupport (t : ResearchTables) (claimId : ℕ) : ResearchTables :=
  { t with
    claims := t.claims.modify claimId (·.setSupport
      (calculateClaimSupportStatus (claimAssessments t claimId) (verificationPossible t claimId))) }

/-- `refreshProjectClaimSupport(client, projectId)`. -/
def refreshProjectClaimSupport (t : ResearchTables) (projectId : ℕ) : ResearchTables :=
  (idsWhere (fun _ c => c.projectId = projectId ∧ c.isCurrent) t.claims).foldl refreshClaimSupport t

/-! ### Services that run alone -/

/-- The insert of `addClaim`. -/
def addClaim (t : ResearchTables) (projectId : ℕ) (verificationPossible : Bool) : ResearchTables :=
  { t with
    claims := t.claims ++ [{
      projectId := projectId
      supportStatus := if verificationPossible then .unsupported else .notVerifiable
      verificationPossible := verificationPossible }] }

/-- `addEvidence`. -/
def addEvidence (t : ResearchTables) (sourceId : ℕ)
    (verificationStatus : EvidenceVerificationStatus) (supportExtent : EvidenceSupportExtent) :
    Except ServiceError ResearchTables := do
  let _ ← require t.sources[sourceId]? (notFound "Source")
  return { t with
    evidence := t.evidence ++ [{
      sourceId := sourceId
      verificationStatus := verificationStatus
      supportExtent := supportExtent }] }

/-- `updateProjectScope`: the freshness of the project's sources is assessed anew, and the support
    of its claims refreshed. -/
def updateProjectScope (t : ResearchTables) (projectId : ℕ)
    (freshness : ℕ → SourceFreshnessStatus) : ResearchTables :=
  refreshProjectClaimSupport
    { t with
      sources := t.sources.mapIdx fun id source =>
        if source.projectId = projectId then { source with freshnessStatus := freshness id }
        else source }
    projectId

/-! ### `linkClaimEvidence` -/

/-- The arguments of `linkClaimEvidence`. -/
structure LinkInput where
  projectId : ℕ
  claimId : ℕ
  evidenceId : ℕ
  relationship : EvidenceRelationship
  deriving DecidableEq, Repr

/-- The check of `linkClaimEvidence`. -/
def LinkInput.check (t : ResearchTables) (input : LinkInput) : Bool :=
  (t.claims[input.claimId]?.any fun c => c.projectId = input.projectId ∧ c.isCurrent) ∧
    (t.evidence[input.evidenceId]?.any fun e => e.isCurrent ∧
      t.sources[e.sourceId]?.any fun s => s.projectId = input.projectId)

/-- `INSERT INTO claim_evidence … ON CONFLICT DO UPDATE`. -/
def LinkInput.upsert (input : LinkInput) (links : List ClaimEvidenceRow) : List ClaimEvidenceRow :=
  let isPair (ce : ClaimEvidenceRow) :=
    decide (ce.claimId = input.claimId ∧ ce.evidenceId = input.evidenceId)
  if links.any isPair then
    updateWhere (fun _ ce => isPair ce) (fun ce => { ce with relationship := input.relationship })
      links
  else links ++ [⟨input.claimId, input.evidenceId, input.relationship⟩]

/-- The tables as the transaction sees them that has inserted its link. -/
def LinkInput.view (input : LinkInput) (t : ResearchTables) : ResearchTables :=
  { t with claimEvidence := input.upsert t.claimEvidence }

/-- How far a `linkClaimEvidence` is. -/
inductive LinkPhase
  /-- The claim and the evidence are there. -/
  | checked
  /-- The link is inserted. -/
  | inserted
  /-- The evidence of the claim has been read. -/
  | assessed (evidence : List ClaimEvidenceAssessment)
  | returned
  | aborted
  deriving DecidableEq, Repr

/-- A `linkClaimEvidence` in progress. -/
structure LinkTransaction where
  input : LinkInput
  phase : LinkPhase
  deriving DecidableEq, Repr

/-- The committed tables, and the calls of `linkClaimEvidence`, oldest first. -/
structure LedgerSys where
  tables : ResearchTables
  links : List LinkTransaction

/-- The link is inserted, and the transaction in progress. -/
def LinkPhase.holds : LinkPhase → Bool
  | .inserted => true
  | .assessed _ => true
  | _ => false

/-- The transaction holds the link of a claim with evidence. -/
def LinkTransaction.holds (link : LinkTransaction) (input : LinkInput) : Bool :=
  link.input.claimId = input.claimId ∧ link.input.evidenceId = input.evidenceId ∧ link.phase.holds

/-- The update of the claim, and the commit. -/
def LinkInput.commit (input : LinkInput) (evidence : List ClaimEvidenceAssessment)
    (t : ResearchTables) : ResearchTables :=
  { input.view t with
    claims := t.claims.modify input.claimId (·.setSupport
      (calculateClaimSupportStatus evidence (verificationPossible t input.claimId))) }

/-! ### The system -/

/-- What can happen. -/
inductive LedgerAct
  | addSource (source : SourceRow)
  | addEvidence (sourceId : ℕ) (verificationStatus : EvidenceVerificationStatus)
      (supportExtent : EvidenceSupportExtent)
  | addClaim (projectId : ℕ) (verificationPossible : Bool)
  | updateProjectScope (projectId : ℕ) (freshness : ℕ → SourceFreshnessStatus)
  /-- A change of the documents of sources. -/
  | setDocuments (documents : List DocumentRow)
  /-- The commit of a stage, which supersedes what the given stage rows generated. -/
  | commitStage (prior : List ℕ) (bundle : StageBundle) (output : StageDocument)
  /-- The restart of a stage, or of what follows it. -/
  | restart (runStageIds : List ℕ)
  /-- A `linkClaimEvidence` begins. -/
  | link (input : LinkInput)
  /-- Its next statement. -/
  | next (k : ℕ)
  /-- It fails. -/
  | abort (k : ℕ)

/-- The call goes on to a phase. -/
def LedgerSys.setPhase (s : LedgerSys) (k : ℕ) (link : LinkTransaction) (phase : LinkPhase) :
    LedgerSys :=
  { s with links := s.links.set k { link with phase := phase } }

/-- The next statement of a `linkClaimEvidence`.  Its insert waits for another transaction that has
    inserted the same link. -/
def LedgerSys.next (s : LedgerSys) (k : ℕ) (link : LinkTransaction) : LedgerSys :=
  match link.phase with
  | .checked =>
    if s.links.any (·.holds link.input) then s else s.setPhase k link .inserted
  | .inserted =>
    s.setPhase k link (.assessed (claimAssessments (link.input.view s.tables) link.input.claimId))
  | .assessed evidence =>
    { s with tables := link.input.commit evidence s.tables }.setPhase k link .returned
  | _ => s

/-- A service that runs alone: if it throws, the tables are as they were. -/
def LedgerSys.transact (s : LedgerSys) (result : Except ServiceError ResearchTables) : LedgerSys :=
  match result with
  | .ok t => { s with tables := t }
  | .error _ => s

/-- What an action does. -/
def LedgerSys.step (s : LedgerSys) : LedgerAct → LedgerSys
  | .addSource source => s.transact (.ok { s.tables with sources := s.tables.sources ++ [source] })
  | .addEvidence sourceId verificationStatus supportExtent =>
    s.transact (addEvidence s.tables sourceId verificationStatus supportExtent)
  | .addClaim projectId verificationPossible =>
    s.transact (.ok (addClaim s.tables projectId verificationPossible))
  | .updateProjectScope projectId freshness =>
    s.transact (.ok (updateProjectScope s.tables projectId freshness))
  | .setDocuments documents => s.transact (.ok { s.tables with documents := documents })
  | .commitStage prior bundle output =>
    s.transact (commitDomainEffects prior bundle output s.tables)
  | .restart runStageIds =>
    s.transact (.ok (markGeneratedDomainEffectsNonCurrent runStageIds s.tables))
  | .link input =>
    if input.check s.tables then { s with links := s.links ++ [⟨input, .checked⟩] } else s
  | .next k =>
    match s.links[k]? with
    | some link => s.next k link
    | none => s
  | .abort k =>
    match s.links[k]? with
    | some link =>
      match link.phase with
      | .returned => s
      | _ => s.setPhase k link .aborted
    | none => s

/-- The system before any service was called. -/
def LedgerSys.initial : LedgerSys where
  tables := {}
  links := []

end ResearchWorkbench
