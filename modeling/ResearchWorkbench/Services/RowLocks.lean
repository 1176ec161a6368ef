import ResearchWorkbench.Library.RowLocks
import ResearchWorkbench.Services.RunStages
import ResearchWorkbench.Services.DomainEffects
import ResearchWorkbench.Services.Projects

namespace ResearchWorkbench.RowLocks

/-!
# The rows a transaction locks

Which rows each transaction of the services locks, in the order of its statements.  A
`SELECT … FOR UPDATE`, an `UPDATE` and a `DELETE` lock the rows they find, one after the other;
an `INSERT` locks no row that another transaction can see.

* `Row`, `References` — the rows, and the columns that say to what each row belongs;
* `lockJobProjectFirst`, `lockStageProjectFirst`, `lockDocument` — the shared prologues;
* `reconcileLinkedJobFailure`, `reconcileLinkedJobCancellation`,
  `commitResearchStageDomainEffects`, `invalidateDownstreamReview` — the shared parts;
* `Operation`, `Operation.plan` — the transactions and the locks they ask for.

Where the rows of a statement depend on columns that change, the operation carries the rows that
the statement finds, and the ids among its conditions are checked here.  A transaction that throws
or returns early is one that ends before the end of its plan.
-/

/-! ### Rows -/

/-- The rows that are locked. -/
inductive Row
  | project (id : ℕ)
  | researchRun (id : ℕ)
  | researchRunStage (id : ℕ)
  | job (id : ℕ)
  | jobAttempt (jobId attemptNumber : ℕ)
  | document (id : ℕ)
  | storageObject (id : ℕ)
  | source (id : ℕ)
  | citationAnchor (id : ℕ)
  | evidence (id : ℕ)
  | claim (id : ℕ)
  | claimEvidence (claimId evidenceId : ℕ)
  | finding (id : ℕ)
  | qaFinding (id : ℕ)
  | question (id : ℕ)
  | deliverable (id : ℕ)
  | projectExport (id : ℕ)
  deriving DecidableEq, Repr

/-- The columns that link rows.  They are written when the row is inserted and not afterwards, so
    they are the same for all transactions. -/
structure Columns where
  runProject : ℕ → ℕ
  stageRun : ℕ → ℕ
  jobProject : ℕ → Option ℕ
  jobRun : ℕ → Option ℕ
  jobStage : ℕ → Option ℕ
  documentProject : ℕ → ℕ
  documentSource : ℕ → Option ℕ
  rawObject : ℕ → ℕ
  /-- The id that `prepareCleanSourceObject` derives for a document. -/
  cleanObject : ℕ → ℕ
  /-- The id that `prepareExtractionArtifact` derives for a version of a document. -/
  extractionArtifact : ℕ → ℕ → ℕ
  objectProject : ℕ → Option ℕ
  anchorDocument : ℕ → ℕ
  sourceProject : ℕ → ℕ
  evidenceSource : ℕ → ℕ
  evidenceAnchor : ℕ → Option ℕ
  claimProject : ℕ → ℕ
  findingProject : ℕ → ℕ
  qaFindingProject : ℕ → ℕ
  questionProject : ℕ → ℕ
  deliverableProject : ℕ → ℕ
  exportProject : ℕ → ℕ
  /-- The run stages that `generated_by_run_stage_id` or `gap_generated_by_run_stage_id` of the
      row ever names. -/
  generatedBy : Row → List ℕ

/-- The row of a project that owns something. -/
def ownerOr (projectId : Option ℕ) (row : Row) : Row := projectId.elim row .project

/-- The project's row above a row, or the row itself where no project owns it. -/
def Columns.root (c : Columns) : Row → Row
  | .project id => .project id
  | .researchRun id => .project (c.runProject id)
  | .researchRunStage id => .project (c.runProject (c.stageRun id))
  | .job id => ownerOr (c.jobProject id) (.job id)
  | .jobAttempt jobId _ => ownerOr (c.jobProject jobId) (.job jobId)
  | .document id => .project (c.documentProject id)
  | .storageObject id => ownerOr (c.objectProject id) (.storageObject id)
  | .source id => .project (c.sourceProject id)
  | .citationAnchor id => .project (c.documentProject (c.anchorDocument id))
  | .evidence id => .project (c.sourceProject (c.evidenceSource id))
  | .claim id => .project (c.claimProject id)
  | .claimEvidence claimId _ => .project (c.claimProject claimId)
  | .finding id => .project (c.findingProject id)
  | .qaFinding id => .project (c.qaFindingProject id)
  | .question id => .project (c.questionProject id)
  | .deliverable id => .project (c.deliverableProject id)
  | .projectExport id => .project (c.exportProject id)

/-- **The references of the schema.**  Rows that refer to each other are of one project. -/
structure References extends Columns where
  /-- `jobs_run_fkey (project_id, run_id)`; every submission with a run names its project. -/
  job_run : ∀ jobId, ∀ runId ∈ jobRun jobId, jobProject jobId = some (runProject runId)
  /-- `jobs_run_stage_fkey (run_id, run_stage_id)`. -/
  job_stage : ∀ jobId, ∀ stageId ∈ jobStage jobId, jobRun jobId = some (stageRun stageId)
  document_source : ∀ documentId, ∀ sourceId ∈ documentSource documentId,
    sourceProject sourceId = documentProject documentId
  rawObject_project : ∀ documentId,
    objectProject (rawObject documentId) = some (documentProject documentId)
  cleanObject_project : ∀ documentId,
    objectProject (cleanObject documentId) = some (documentProject documentId)
  artifact_project : ∀ documentId version,
    objectProject (extractionArtifact documentId version) = some (documentProject documentId)
  /-- Evidence cites an anchor of its own source's document. -/
  evidence_anchor : ∀ evidenceId, ∀ anchorId ∈ evidenceAnchor evidenceId,
    sourceProject (evidenceSource evidenceId) = documentProject (anchorDocument anchorId)
  /-- A stage generates rows of its run's project. -/
  generated_project : ∀ row, ∀ stageId ∈ generatedBy row,
    toColumns.root row = .project (runProject (stageRun stageId))

/-! ### Prologues -/

/-- `lockJobProjectFirst(client, jobId)`, also the locks of `lockOwnedJob`. -/
def lockJobProjectFirst (refs : References) (jobId : ℕ) : List Row :=
  (refs.jobProject jobId).toList.map .project ++ [.job jobId]

/-- `lockStageProjectFirst(client, runStageId, fence, allowDifferentFenceStage)` and what the
    transaction does `next`.  A fence whose job is not one of the run's stage ends it. -/
def lockStageProjectFirst (refs : References) (runStageId : ℕ) (fence : Option RunStageJobFence)
    (allowDifferentFenceStage : Bool) (next : List Row) : List Row :=
  let runId := refs.stageRun runStageId
  .project (refs.runProject runId) ::
    match fence with
    | none => .researchRun runId :: .researchRunStage runStageId :: next
    | some fence =>
      if (allowDifferentFenceStage ∨ fence.runStageId = runStageId) ∧
          refs.jobRun fence.jobId = some runId ∧
          refs.jobStage fence.jobId = some fence.runStageId then
        .job fence.jobId :: .researchRun runId :: .researchRunStage runStageId :: next
      else []

/-- `lockDocument(client, projectId, documentId)` and what the transaction does `next`. -/
def lockDocument (refs : References) (projectId documentId : ℕ) (next : List Row) : List Row :=
  .project projectId ::
    if refs.documentProject documentId = projectId then
      .document documentId :: .storageObject (refs.rawObject documentId) :: next
    else []

/-- `assertDocumentJobFence(client, projectId, documentId, jobType, fence)` and what the
    transaction does `next`. -/
def assertDocumentJobFence (refs : References) (projectId : ℕ) (fence : Option ℕ)
    (next : List Row) : List Row :=
  match fence with
  | none => next
  | some jobId => if refs.jobProject jobId = some projectId then .job jobId :: next else []

/-! ### Shared parts -/

/-- The run and the stage row of a job. -/
def lockLinkedResearchState (refs : References) (jobId : ℕ) : List Row :=
  (refs.jobRun jobId).toList.map .researchRun ++ (refs.jobStage jobId).toList.map .researchRunStage

/-- `reconcileLinkedJobFailure(client, job, …)`: the stage, and with it the run, may fail. -/
def reconcileLinkedJobFailure (refs : References) (jobId : ℕ) (stageFails runFails : Bool) :
    List Row :=
  lockLinkedResearchState refs jobId ++
    if stageFails then
      (refs.jobStage jobId).toList.map .researchRunStage ++
        if runFails then (refs.jobRun jobId).toList.map .researchRun else []
    else []

/-- The stage rows among those found that are of the run. -/
def stagesOfRun (refs : References) (runId : ℕ) (found : List ℕ) : List Row :=
  (found.filter fun stageId => refs.stageRun stageId = runId).map .researchRunStage

/-- What `reconcileLinkedJobCancellation` finds. -/
structure CancellationBranch where
  /-- The run has ended already. -/
  ended : Bool
  /-- The run becomes `CANCELLING`. -/
  cancelling : Bool
  /-- The job is `CANCELLED`. -/
  jobCancelled : Bool
  /-- The job's stage is still open. -/
  stageCancelled : Bool
  /-- No job of the run is active any more; the open stage rows found. -/
  acknowledged : Option (List ℕ)
  deriving DecidableEq

/-- `reconcileLinkedJobCancellation(client, job, requestedBy)`. -/
def reconcileLinkedJobCancellation (refs : References) (jobId : ℕ) (branch : CancellationBranch) :
    List Row :=
  lockLinkedResearchState refs jobId ++
    if branch.ended then [] else
      (if branch.cancelling then (refs.jobRun jobId).toList.map .researchRun else []) ++
        if branch.jobCancelled then
          (if branch.stageCancelled then (refs.jobStage jobId).toList.map .researchRunStage
            else []) ++
            match branch.acknowledged with
            | none => []
            | some stages =>
              (refs.jobRun jobId).toList.flatMap fun runId =>
                stagesOfRun refs runId stages ++ [.researchRun runId]
        else []

/-- Generated rows that the five `UPDATE`s of `markGeneratedDomainEffectsNonCurrent` find. -/
structure GeneratedRows where
  evidence : List ℕ := []
  claims : List ℕ := []
  findings : List ℕ := []
  qaFindings : List ℕ := []
  questions : List ℕ := []

/-- `markGeneratedDomainEffectsNonCurrent(client, runStageIds)`. -/
def markGeneratedDomainEffectsNonCurrent (refs : References) (runStageIds : List ℕ)
    (found : GeneratedRows) : List Row :=
  (found.evidence.map Row.evidence ++ found.claims.map Row.claim ++
    found.findings.map Row.finding ++ found.qaFindings.map Row.qaFinding ++
    found.questions.map Row.question).filter fun row =>
      (refs.generatedBy row).any fun stageId => stageId ∈ runStageIds

/-- What `commitResearchStageDomainEffects` finds. -/
structure StageEffects where
  /-- The rows of the stage in the project's runs. -/
  prior : List ℕ
  generated : GeneratedRows
  /-- The approved questions that a gap may be recorded for. -/
  questions : List ℕ
  /-- The latest deliverable. -/
  deliverable : Option ℕ

/-- `commitResearchStageDomainEffects(client, bundle, output)`. -/
def commitResearchStageDomainEffects (refs : References) (projectId runStageId : ℕ)
    (stage : AIStage) (effects : StageEffects) : List Row :=
  (if stage.supersedes then
    markGeneratedDomainEffectsNonCurrent refs
      (effects.prior.filter fun prior =>
        refs.runProject (refs.stageRun prior) = projectId ∧ prior ≠ runStageId)
      effects.generated
  else []) ++
    match stage with
    | .gapDetection =>
      (effects.questions.filter fun id => refs.questionProject id = projectId).map .question
    | .draftGeneration =>
      (effects.deliverable.toList.filter fun id => refs.deliverableProject id = projectId).flatMap
        fun id => [.deliverable id, .deliverable id]
    | _ => []

/-- Deliverables and current exports that `invalidateDownstreamReview` finds. -/
structure ReviewRows where
  deliverables : List ℕ := []
  exports : List ℕ := []

/-- `refreshProjectProgress(client, projectId)`. -/
def refreshProjectProgress (projectId : ℕ) : List Row := [.project projectId]

/-- `invalidateDownstreamReview(client, projectId, fallbackStatus)`. -/
def invalidateDownstreamReview (refs : References) (projectId : ℕ) (review : ReviewRows) :
    List Row :=
  .project projectId ::
    ((review.deliverables.filter fun id => refs.deliverableProject id = projectId).map .deliverable
      ++ (review.exports.filter fun id => refs.exportProject id = projectId).map .projectExport
      ++ refreshProjectProgress projectId)

/-! ### Transactions -/

/-- How `recoverExpiredJobs` ends the attempt of a job. -/
inductive AttemptEnd
  | retry
  | dead (stageFails runFails : Bool)
  | cancelled (branch : CancellationBranch)

/-- The linked rows that have to be reconciled when an attempt ends. -/
def AttemptEnd.reconcile (refs : References) (jobId : ℕ) : AttemptEnd → List Row
  | .retry => []
  | .dead stageFails runFails => reconcileLinkedJobFailure refs jobId stageFails runFails
  | .cancelled branch => reconcileLinkedJobCancellation refs jobId branch

/-- One transaction of the services, with its arguments and the rows its statements find. -/
inductive Operation
  -- jobs
  | submitJob (projectId : Option ℕ)
  | claimJobs (candidates : List ℕ)
  | startJob (jobId attempt : ℕ)
  | heartbeatJob (jobId : ℕ)
  | completeJob (jobId attempt : ℕ)
  | failJob (jobId attempt : ℕ) (dead : Option (Bool × Bool))
  | requestJobCancellation (jobId : ℕ) (branch : CancellationBranch)
  | acknowledgeJobCancellation (jobId attempt : ℕ) (branch : CancellationBranch)
  | releaseJobLease (jobId attempt : ℕ) (cancelled : Option CancellationBranch)
  | recoverExpiredJob (jobId attempt : ℕ) (outcome : AttemptEnd)
  | manualRetryJob (jobId : ℕ)
  -- run stages
  | assertRunStageJobFence (runStageId : ℕ) (fence : RunStageJobFence)
  | startRunStage (runStageId : ℕ) (fence : RunStageJobFence) (queued : Bool)
  | recordRunStageProviderAttempt (runStageId : ℕ) (fence : RunStageJobFence)
  | queueRunStage (runStageId : ℕ) (fence : RunStageJobFence) (stale : Bool)
  | commitRunStage (runStageId : ℕ) (fence : RunStageJobFence) (stage : AIStage)
      (effects : StageEffects)
  | blockRunStage (runStageId : ℕ) (fence : RunStageJobFence)
  | setResearchRunBoundary (runStageId : ℕ) (fence : RunStageJobFence)
  | failRunStage (runStageId : ℕ) (fence : RunStageJobFence)
  | markDownstreamStagesStale (runStageId : ℕ) (downstream : List ℕ) (generated : GeneratedRows)
  | restartRunStage (runStageId latest : ℕ) (downstream : List ℕ) (generated : GeneratedRows)
  -- research runs
  | captureApprovalRevision (projectId : ℕ)
  | createResearchRun (projectId : ℕ)
  | requestResearchRunCancellation (runId : ℕ) (jobs : List ℕ) (cancellable : ℕ → Bool)
      (stages : List ℕ) (openStages : Option (List ℕ))
  | finalizeResearchRunCancellation (runId : ℕ) (stages : List ℕ)
  | resumeResearchRun (runId runStageId : ℕ)
  -- document jobs
  | enqueueDocumentScan (projectId documentId : ℕ)
  | enqueueDocumentExtraction (projectId documentId : ℕ) (parentJob : Option ℕ)
  | startScan (projectId documentId : ℕ) (fence : Option ℕ)
  | finishScan (projectId documentId : ℕ) (fence : Option ℕ) (clean : Bool)
  | startExtraction (projectId documentId : ℕ) (fence : Option ℕ)
  | recordExtractionFailure (projectId documentId : ℕ) (fence : Option ℕ)
  | finishOcrRequired (projectId documentId version : ℕ) (fence : Option ℕ)
  | finishExtraction (projectId documentId version : ℕ) (fence : Option ℕ)
      (anchors evidence : List ℕ) (review : ReviewRows)
  | claimDeletionCandidates (objectIds : List ℕ)
  | deleteClaimed (objectId : ℕ)
  | markDeleteFailed (objectId : ℕ)
  -- approvals and QA
  | runApprovalAction (projectId : ℕ) (action : Workflow.ApprovalAction)
      (deliverable run : Option ℕ)
  | runProjectQa (projectId : ℕ) (review : ReviewRows) (findings : List ℕ)
  | resolveQaFinding (projectId findingId : ℕ) (review : ReviewRows)
  -- the ledger
  | addClaim (projectId : ℕ) (review : ReviewRows)
  | linkClaimEvidence (projectId claimId evidenceId : ℕ) (linked : Bool) (review : ReviewRows)
  | updateClaimReview (projectId claimId : ℕ) (review : ReviewRows)
  | addFinding (projectId : ℕ) (review : ReviewRows)

/-- A transaction on a run, with the project locked before the run. -/
def lockRunProjectFirst (refs : References) (runId : ℕ) (next : List Row) : List Row :=
  .project (refs.runProject runId) :: .researchRun runId :: next

/-- The rows an operation locks one after the other.  The rows that `claimJobs` and
    `claimDeletionCandidates` pass over are not among them. -/
def Operation.rows (refs : References) : Operation → List Row
  | .submitJob projectId => projectId.toList.map .project
  | .claimJobs candidates => candidates.map .job
  | .startJob jobId attempt | .completeJob jobId attempt =>
    lockJobProjectFirst refs jobId ++ [.job jobId, .jobAttempt jobId attempt]
  | .heartbeatJob jobId | .manualRetryJob jobId => lockJobProjectFirst refs jobId ++ [.job jobId]
  | .failJob jobId attempt dead =>
    lockJobProjectFirst refs jobId ++ [.job jobId, .jobAttempt jobId attempt] ++
      dead.elim [] fun fails =>
        reconcileLinkedJobFailure refs jobId fails.1 fails.2
  | .releaseJobLease jobId attempt cancelled =>
    lockJobProjectFirst refs jobId ++ [.job jobId, .jobAttempt jobId attempt] ++
      cancelled.elim [] (reconcileLinkedJobCancellation refs jobId)
  | .recoverExpiredJob jobId attempt outcome =>
    lockJobProjectFirst refs jobId ++ [.job jobId, .jobAttempt jobId attempt] ++
      outcome.reconcile refs jobId
  | .requestJobCancellation jobId branch =>
    lockJobProjectFirst refs jobId ++ [.job jobId] ++
      reconcileLinkedJobCancellation refs jobId branch
  | .acknowledgeJobCancellation jobId attempt branch =>
    lockJobProjectFirst refs jobId ++ [.job jobId, .jobAttempt jobId attempt] ++
      reconcileLinkedJobCancellation refs jobId branch
  | .assertRunStageJobFence runStageId fence =>
    lockStageProjectFirst refs runStageId (some fence) false []
  | .startRunStage runStageId fence queued =>
    let run := Row.researchRun (refs.stageRun runStageId)
    lockStageProjectFirst refs runStageId (some fence) false
      (.researchRunStage runStageId :: (if queued then [run] else []) ++ [run])
  | .recordRunStageProviderAttempt runStageId fence | .blockRunStage runStageId fence
  | .failRunStage runStageId fence =>
    lockStageProjectFirst refs runStageId (some fence) false
      [.researchRunStage runStageId, .researchRun (refs.stageRun runStageId)]
  | .queueRunStage runStageId fence stale =>
    lockStageProjectFirst refs runStageId (some fence) true
      (if stale then [] else [.researchRunStage runStageId])
  | .commitRunStage runStageId fence stage effects =>
    let runId := refs.stageRun runStageId
    lockStageProjectFirst refs runStageId (some fence) false
      (commitResearchStageDomainEffects refs (refs.runProject runId) runStageId stage effects ++
        [.researchRunStage runStageId, .researchRun runId])
  | .setResearchRunBoundary runStageId fence =>
    lockStageProjectFirst refs runStageId (some fence) false
      [.researchRun (refs.stageRun runStageId)]
  | .markDownstreamStagesStale runStageId downstream generated =>
    let runId := refs.stageRun runStageId
    let stale := downstream.filter fun id => refs.stageRun id = runId
    lockStageProjectFirst refs runStageId none false
      (stale.map .researchRunStage ++ stale.map .researchRunStage ++
        markGeneratedDomainEffectsNonCurrent refs stale generated ++ [.researchRun runId])
  | .restartRunStage runStageId latest downstream generated =>
    let runId := refs.stageRun runStageId
    let stale := downstream.filter fun id => refs.stageRun id = runId
    lockStageProjectFirst refs runStageId none false
      (stagesOfRun refs runId [latest] ++
        stale.map .researchRunStage ++ stale.map .researchRunStage ++
        markGeneratedDomainEffectsNonCurrent refs (runStageId :: stale) generated ++
        [.researchRun runId])
  | .captureApprovalRevision projectId => [.project projectId, .project projectId]
  | .createResearchRun projectId => [.project projectId, .project projectId, .project projectId]
  | .requestResearchRunCancellation runId jobs cancellable stages openStages =>
    let linked := jobs.filter fun jobId => refs.jobRun jobId = some runId
    lockRunProjectFirst refs runId
      ((linked.flatMap fun jobId => lockJobProjectFirst refs jobId ++
          if cancellable jobId then [.job jobId] else []) ++
        (stages.filter fun id => linked.any fun jobId => refs.jobStage jobId = some id).map
          .researchRunStage ++
        (openStages.toList.flatMap fun found => stagesOfRun refs runId found) ++ [.researchRun runId])
  | .finalizeResearchRunCancellation runId stages =>
    lockRunProjectFirst refs runId (stagesOfRun refs runId stages ++ [.researchRun runId])
  | .resumeResearchRun runId runStageId =>
    lockRunProjectFirst refs runId
      (stagesOfRun refs runId [runStageId, runStageId] ++ [.researchRun runId])
  | .enqueueDocumentScan projectId documentId => lockDocument refs projectId documentId []
  | .enqueueDocumentExtraction projectId documentId parentJob =>
    .project projectId :: assertDocumentJobFence refs projectId parentJob
      (if refs.documentProject documentId = projectId then
        .document documentId :: .storageObject (refs.rawObject documentId) ::
          assertDocumentJobFence refs projectId parentJob []
      else [])
  | .startScan projectId documentId fence =>
    lockDocument refs projectId documentId <| assertDocumentJobFence refs projectId fence <|
      .document documentId :: assertDocumentJobFence refs projectId fence []
  | .finishScan projectId documentId fence clean =>
    lockDocument refs projectId documentId <| assertDocumentJobFence refs projectId fence <|
      (if clean then [.storageObject (refs.cleanObject documentId)] else []) ++
        .document documentId :: .storageObject (refs.rawObject documentId) ::
        ((if clean then (refs.documentSource documentId).toList.map .source else []) ++
          assertDocumentJobFence refs projectId fence [])
  | .startExtraction projectId documentId fence
  | .recordExtractionFailure projectId documentId fence =>
    lockDocument refs projectId documentId <| assertDocumentJobFence refs projectId fence <|
      .document documentId :: .storageObject (refs.rawObject documentId) ::
        assertDocumentJobFence refs projectId fence []
  | .finishOcrRequired projectId documentId version fence =>
    lockDocument refs projectId documentId <| assertDocumentJobFence refs projectId fence <|
      .storageObject (refs.extractionArtifact documentId version) ::
        .document documentId :: .storageObject (refs.rawObject documentId) ::
        assertDocumentJobFence refs projectId fence []
  | .finishExtraction projectId documentId version fence anchors evidence review =>
    lockDocument refs projectId documentId <| assertDocumentJobFence refs projectId fence <|
      .storageObject (refs.extractionArtifact documentId version) ::
        ((anchors.filter fun id => refs.anchorDocument id = documentId).map .citationAnchor ++
          (evidence.filter fun id => (refs.evidenceAnchor id).any fun anchorId =>
            refs.anchorDocument anchorId = documentId).map .evidence ++
          (refs.documentSource documentId).toList.map .source ++
          [.document documentId, .storageObject (refs.rawObject documentId)] ++
          invalidateDownstreamReview refs projectId review ++
          assertDocumentJobFence refs projectId fence [])
  | .claimDeletionCandidates objectIds => objectIds.map .storageObject
  | .deleteClaimed objectId => [.storageObject objectId, .storageObject objectId]
  | .markDeleteFailed objectId => [.storageObject objectId]
  | .runApprovalAction projectId action deliverable run =>
    .project projectId :: (match action with
      | .request | .deliver => [.project projectId]
      | .approve _ => .project projectId ::
          ((deliverable.toList.filter fun id => refs.deliverableProject id = projectId).map
              .deliverable ++
            (run.toList.filter fun id => refs.runProject id = projectId).map .researchRun)) ++
      refreshProjectProgress projectId
  | .runProjectQa projectId review findings =>
    .project projectId :: (invalidateDownstreamReview refs projectId review ++
      (findings.filter fun id => refs.qaFindingProject id = projectId).map .qaFinding ++
      [.project projectId] ++ refreshProjectProgress projectId)
  | .resolveQaFinding projectId findingId review =>
    .project projectId :: if refs.qaFindingProject findingId = projectId then
      .qaFinding findingId :: (invalidateDownstreamReview refs projectId review ++
        [.qaFinding findingId, .project projectId] ++ refreshProjectProgress projectId)
    else []
  | .addClaim projectId review =>
    invalidateDownstreamReview refs projectId review ++ refreshProjectProgress projectId
  | .linkClaimEvidence projectId claimId evidenceId linked review =>
    if refs.claimProject claimId = projectId ∧
        refs.sourceProject (refs.evidenceSource evidenceId) = projectId then
      (if linked then [.claimEvidence claimId evidenceId] else []) ++
        .claim claimId :: (invalidateDownstreamReview refs projectId review ++
          refreshProjectProgress projectId)
    else []
  | .updateClaimReview projectId claimId review =>
    if refs.claimProject claimId = projectId then
      .claim claimId :: .claim claimId :: (invalidateDownstreamReview refs projectId review ++
        refreshProjectProgress projectId)
    else []
  | .addFinding projectId review => invalidateDownstreamReview refs projectId review

/-- The statement takes its rows with `FOR UPDATE SKIP LOCKED`. -/
def Operation.skipsLocked : Operation → Bool
  | .claimJobs _ | .claimDeletionCandidates _ => true
  | _ => false

/-- The locks an operation asks for. -/
def Operation.plan (refs : References) (op : Operation) : List (LockRequest Row) :=
  (op.rows refs).map (if op.skipsLocked then .skip else .wait)

end ResearchWorkbench.RowLocks
