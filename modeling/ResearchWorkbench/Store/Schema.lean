import Mathlib.Data.List.MinMax
import ResearchWorkbench.Library.Table
import ResearchWorkbench.Domain.ResearchRuns

namespace ResearchWorkbench

/-!
# The database

The tables the run and job services share (`migrations/005_durable_execution.sql`), as lists of
rows whose ids are their positions.

* `JobRow`, `JobAttemptRow`, `ResearchRunRow`, `RunStageRow`, `StageCommitRow`, `ProjectRow`;
* `Db δ` — the tables, `NOW()` and a domain store `δ`;
* `DomainStore δ` — what runs ask of the domain tables;
* `latestStage`, `UniqueGenerations` — the newest generation of a stage.

Columns that no modelled function reads back (hashes of stored documents, provider names, token
counts of a stage, creation times) are left out.  A content hash is the content it is taken of, so
two hashes agree exactly when the contents do.
-/

/-! ### References and keys -/

/-- A stage output as the database stores it: the document, whether one of its issues has severity
    `BLOCKER`, and — for the proofs only, no function reads it — how many stage commits had
    happened when the provider's input was built. -/
structure StageOutput where
  document : ℕ
  blocker : Bool
  builtAt : ℕ
  deriving DecidableEq, Repr

/-- `inputHash(output)`. -/
def StageOutput.hash (output : StageOutput) : ℕ × Bool := (output.document, output.blocker)

/-- The documents jobs and stages are submitted with. -/
inductive InputReference
  /-- `initialInput` of `createResearchRun`. -/
  | initial (projectId runId : ℕ) (stage : AIStage) (scopeRevisionId planRevisionId : ℕ)
  /-- `safeStageJobInput({ run, stage, previousStage })`. -/
  | stageJob (projectId runId runStageId : ℕ) (stage : AIStage) (generation : ℕ)
      (scopeRevisionId planRevisionId : ℕ) (previousStageId : ℕ)
      (previousOutputHash : Option (ℕ × Bool))
  /-- `{ runId, stage, resume: true }`. -/
  | resume (runId : ℕ) (stage : AIStage)
  /-- The payload of a source search. -/
  | sourceSearch (projectId : ℕ) (runId : Option ℕ) (query count : ℕ)
  /-- `{ documentId, expectedObjectSha256, autoExtract }`. -/
  | documentScan (documentId expectedObjectSha256 : ℕ) (autoExtract : Bool)
  /-- `{ documentId, expectedObjectSha256, expectedExtractionId }`. -/
  | documentExtract (documentId expectedObjectSha256 : ℕ) (expectedExtractionId : Option ℕ)
  /-- `{ deleteUntracked: false, limit: 1000, objectIds }`. -/
  | storageCleanup (objectIds : List ℕ)
  /-- Any other document. -/
  | document (content : ℕ)
  deriving DecidableEq, Repr

/-- `jobs.idempotency_key`. -/
inductive JobKey
  /-- `run:R:stage:S:generation:G`. -/
  | stage (runId : ℕ) (stage : AIStage) (generation : ℕ)
  /-- `run:R:stage:S:generation:G:resume:V`. -/
  | resume (runId : ℕ) (stage : AIStage) (generation version : ℕ)
  /-- `source-search:R:key`. -/
  | sourceSearch (runId : Option ℕ) (callerKey : ℕ)
  /-- `document:D:scan:key`. -/
  | documentScan (documentId callerKey : ℕ)
  /-- `document:D:extract:key`. -/
  | documentExtract (documentId callerKey : ℕ)
  /-- `document-delete:D:storage-cleanup`. -/
  | documentDelete (documentId : ℕ)
  /-- A key of any other form. -/
  | custom (key : ℕ)
  deriving DecidableEq, Repr

/-- `stage_domain_commits.idempotency_key`. -/
inductive CommitKey
  /-- `run:R:stage:S:generation:G:commit`. -/
  | stage (runId : ℕ) (stage : AIStage) (generation : ℕ)
  /-- A key of any other form. -/
  | custom (key : ℕ)
  deriving DecidableEq, Repr

/-- `jobs.job_type`. -/
inductive JobType
  | researchPipelineStage | sourceSearch | documentScan | documentExtract | storageCleanup
  | other (name : ℕ)
  deriving DecidableEq, Repr

/-! ### Rows -/

/-- A row of `jobs`. -/
structure JobRow where
  projectId : Option ℕ
  runId : Option ℕ
  runStageId : Option ℕ
  stage : Option AIStage
  jobType : JobType
  status : JobStatus
  priority : ℤ
  idempotencyKey : JobKey
  inputReference : InputReference
  outputReference : Option ℕ
  attempts : ℕ
  maxAttempts : ℕ
  scheduledAt : ℕ
  claimedAt : Option ℕ
  startedAt : Option ℕ
  completedAt : Option ℕ
  leaseOwner : Option ℕ
  leaseExpiresAt : Option ℕ
  heartbeatAt : Option ℕ
  timeoutMs : ℕ
  retryPolicy : JobRetryPolicy
  errorClass : Option JobErrorClass
  sanitizedError : Option String
  cancellationRequestedAt : Option ℕ
  parentJobId : Option ℕ
  version : ℕ
  deriving Repr

/-- The statuses of `job_attempts`. -/
inductive JobAttemptStatus
  | claimed | running | succeeded | failed | retryWait | cancelled | deadLetter | leaseExpired
  deriving DecidableEq, Repr

/-- A row of `job_attempts`. -/
structure JobAttemptRow where
  jobId : ℕ
  attemptNumber : ℕ
  workerId : ℕ
  status : JobAttemptStatus
  errorClass : Option JobErrorClass
  sanitizedError : Option String
  retryAfterMs : Option ℕ
  completedAt : Option ℕ
  deriving Repr

/-- `requestSnapshot` of `createResearchRun`, which `request_hash` is taken of. -/
structure RunRequest where
  mode : ResearchRunMode
  pipelineVersion : ℕ
  scopeRevisionId : ℕ
  planRevisionId : ℕ
  providerConfig : ℕ
  modelConfig : ℕ
  searchConfig : ℕ
  budget : BudgetSnapshot
  deriving DecidableEq, Repr

/-- A row of `research_runs`. -/
structure ResearchRunRow where
  projectId : ℕ
  mode : ResearchRunMode
  status : ResearchRunStatus
  scopeRevisionId : ℕ
  planRevisionId : ℕ
  budget : BudgetSnapshot
  request : RunRequest
  idempotencyKey : ℕ
  currentStage : Option AIStage
  progress : ℕ
  totalAttempts : ℕ
  totalProviderRequests : ℕ
  totalSearchRequests : ℕ
  totalInputTokens : ℕ
  totalOutputTokens : ℕ
  estimatedCost : Option ℚ
  costStatus : CostStatus
  failureReason : Option String
  blockReason : Option String
  cancelledBy : Option String
  startedAt : Option ℕ
  completedAt : Option ℕ
  version : ℕ
  deriving Repr

/-- A row of `research_run_stages`. -/
structure RunStageRow where
  runId : ℕ
  stageId : AIStage
  ordinal : ℕ
  generation : ℕ
  status : RunStageStatus
  inputReference : Option InputReference
  outputReference : Option StageOutput
  attemptCount : ℕ
  providerExecutionId : Option ℕ
  errorClass : Option JobErrorClass
  sanitizedError : Option String
  startedAt : Option ℕ
  completedAt : Option ℕ
  staleAt : Option ℕ
  version : ℕ
  deriving Repr

/-- A row of `stage_domain_commits`; the order of the rows is that of `committed_at`. -/
structure StageCommitRow where
  runStageId : ℕ
  generation : ℕ
  idempotencyKey : CommitKey
  outputHash : ℕ × Bool
  deriving DecidableEq, Repr

/-- What run creation reads of a project: its approvals, the revisions its approved scope and plan
    are captured in, and the readiness of its questions. -/
structure ProjectRow where
  scopeApproved : Bool
  planApproved : Bool
  scopeRevisionId : ℕ
  planRevisionId : ℕ
  questionCount : ℕ
  missingPlanCount : ℕ
  unapprovedCount : ℕ
  deriving Repr

/-! ### The database -/

/-- `NOW()` and the tables.  Each transaction runs alone on them: every service locks the rows it
    reads, so the runs of the system are the serial ones. -/
structure Db (δ : Type) where
  now : ℕ
  projects : List ProjectRow
  runs : List ResearchRunRow
  stages : List RunStageRow
  commits : List StageCommitRow
  jobs : List JobRow
  jobAttempts : List JobAttemptRow
  domain : δ

/-- What runs ask of the domain tables: whether a project has an unresolved `BLOCKER` finding, how
    many sources it has, and the supersession of what given stage rows generated. -/
class DomainStore (δ : Type) where
  hasOpenBlocker : ℕ → δ → Bool
  sourceCount : ℕ → δ → ℕ
  markGeneratedDomainEffectsNonCurrent : List ℕ → δ → δ

/-- The domain store that keeps nothing. -/
instance : DomainStore Unit where
  hasOpenBlocker _ _ := false
  sourceCount _ _ := 0
  markGeneratedDomainEffectsNonCurrent _ _ := ()

namespace Db

variable {δ : Type}

/-- `UPDATE jobs … WHERE id = jobId`. -/
@[simps] def updateJob (db : Db δ) (jobId : ℕ) (f : JobRow → JobRow) : Db δ :=
  { db with jobs := db.jobs.modify jobId f }

/-- `UPDATE job_attempts … WHERE job_id = jobId AND attempt_number = attempt`. -/
@[simps] def updateJobAttempt (db : Db δ) (jobId attempt : ℕ)
    (f : JobAttemptRow → JobAttemptRow) : Db δ :=
  { db with
    jobAttempts := updateWhere (fun _ a => a.jobId = jobId ∧ a.attemptNumber = attempt) f
      db.jobAttempts }

/-- `UPDATE research_runs … WHERE id = runId`. -/
@[simps] def updateRun (db : Db δ) (runId : ℕ) (f : ResearchRunRow → ResearchRunRow) : Db δ :=
  { db with runs := db.runs.modify runId f }

/-- `UPDATE research_run_stages … WHERE id = runStageId`. -/
@[simps] def updateStage (db : Db δ) (runStageId : ℕ) (f : RunStageRow → RunStageRow) : Db δ :=
  { db with stages := db.stages.modify runStageId f }

/-- `UPDATE research_run_stages … WHERE p`. -/
@[simps] def updateStagesWhere (db : Db δ) (p : ℕ → RunStageRow → Bool)
    (f : RunStageRow → RunStageRow) : Db δ :=
  { db with stages := updateWhere p f db.stages }

/-- `INSERT INTO jobs`. -/
@[simps] def insertJob (db : Db δ) (job : JobRow) : Db δ := { db with jobs := db.jobs ++ [job] }

/-- `INSERT INTO research_runs`. -/
@[simps] def insertRun (db : Db δ) (run : ResearchRunRow) : Db δ :=
  { db with runs := db.runs ++ [run] }

/-- `INSERT INTO research_run_stages`, of several rows. -/
@[simps] def insertStages (db : Db δ) (stages : List RunStageRow) : Db δ :=
  { db with stages := db.stages ++ stages }

/-- `INSERT INTO stage_domain_commits`. -/
@[simps] def insertCommit (db : Db δ) (commit : StageCommitRow) : Db δ :=
  { db with commits := db.commits ++ [commit] }

/-- The jobs are replaced. -/
@[simps] def setJobs (db : Db δ) (jobs : List JobRow) : Db δ := { db with jobs := jobs }

/-- The domain tables are replaced. -/
@[simps] def setDomain (db : Db δ) (domain : δ) : Db δ := { db with domain := domain }

/-- The jobs of a run that a worker holds a lease on. -/
def activeJobCount (db : Db δ) (runId : ℕ) : ℕ :=
  db.jobs.countP fun job => job.runId = some runId ∧ job.status.isActive

end Db

/-! ### The newest generation of a stage -/

/-- No other row of the same run and stage has a higher generation. -/
def isLatestGeneration (stages : List RunStageRow) (stage : RunStageRow) : Bool :=
  stages.all fun other => decide (other.runId = stage.runId → other.stageId = stage.stageId →
    other.generation ≤ stage.generation)

/-- `SELECT … WHERE run_id AND stage_id ORDER BY generation DESC LIMIT 1`. -/
def latestStage (stages : List RunStageRow) (runId : ℕ) (stageId : AIStage) :
    Option (ℕ × RunStageRow) :=
  findRow (fun s => s.runId = runId ∧ s.stageId = stageId ∧ isLatestGeneration stages s) stages

/-- The index `UNIQUE (run_id, stage_id, generation)`. -/
def UniqueGenerations (stages : List RunStageRow) : Prop :=
  ∀ (i j : ℕ) (s s' : RunStageRow), stages[i]? = some s → stages[j]? = some s' →
    s.runId = s'.runId → s.stageId = s'.stageId → s.generation = s'.generation → i = j

theorem isLatestGeneration_iff {stages : List RunStageRow} {stage : RunStageRow} :
    isLatestGeneration stages stage ↔ ∀ other ∈ stages, other.runId = stage.runId →
      other.stageId = stage.stageId → other.generation ≤ stage.generation := by
  simp only [isLatestGeneration, List.all_eq_true, decide_eq_true_eq]

theorem latestStage_eq_some {stages : List RunStageRow} {runId i : ℕ} {stageId : AIStage}
    {s : RunStageRow} (h : latestStage stages runId stageId = some (i, s)) :
    stages[i]? = some s ∧ s.runId = runId ∧ s.stageId = stageId ∧
      isLatestGeneration stages s := by
  obtain ⟨hi, hp⟩ := findRow_eq_some h
  simp only [Bool.decide_and, Bool.and_eq_true, decide_eq_true_eq] at hp
  exact ⟨hi, hp.1, hp.2.1, by simpa using hp.2.2⟩

/-- Among unique generations the newest row of a stage is the one that `latestStage` finds. -/
theorem UniqueGenerations.latestStage_eq {stages : List RunStageRow} (hu : UniqueGenerations stages)
    {i : ℕ} {s : RunStageRow} (hi : stages[i]? = some s) (hl : isLatestGeneration stages s) :
    latestStage stages s.runId s.stageId = some (i, s) := by
  cases h : latestStage stages s.runId s.stageId with
  | none =>
    have := findRow_eq_none.mp h s (List.mem_of_getElem? hi)
    simp [hl] at this
  | some js =>
    obtain ⟨j, s'⟩ := js
    obtain ⟨hj, hr, hs, hl'⟩ := latestStage_eq_some h
    have h₁ := isLatestGeneration_iff.mp hl s' (List.mem_of_getElem? hj) hr hs
    have h₂ := isLatestGeneration_iff.mp hl' s (List.mem_of_getElem? hi) hr.symm hs.symm
    obtain rfl := hu i j s s' hi hj hr.symm hs.symm (le_antisymm h₂ h₁)
    rw [hi] at hj
    cases hj
    rfl

/-- A stage that has a row has a newest one. -/
theorem exists_latestStage {stages : List RunStageRow} {s : RunStageRow} (hs : s ∈ stages) :
    ∃ i t, latestStage stages s.runId s.stageId = some (i, t) := by
  cases h : latestStage stages s.runId s.stageId with
  | some it => exact ⟨it.1, it.2, rfl⟩
  | none =>
    let siblings := stages.filter fun t => t.runId = s.runId ∧ t.stageId = s.stageId
    cases ht : siblings.argmax (·.generation) with
    | none =>
      have : s ∈ siblings := by simpa [siblings] using hs
      simp [List.argmax_eq_none.mp ht] at this
    | some t =>
      have hmem := List.argmax_mem ht
      simp only [siblings, List.mem_filter, Bool.decide_and, Bool.and_eq_true,
        decide_eq_true_eq] at hmem
      have hlatest : isLatestGeneration stages t := by
        refine isLatestGeneration_iff.mpr fun u hu hr hs => List.le_of_mem_argmax ?_ ht
        simp [siblings, hu, hr, hs, hmem.2.1, hmem.2.2]
      have := findRow_eq_none.mp h t hmem.1
      simp [hlatest, hmem.2.1, hmem.2.2] at this

end ResearchWorkbench
