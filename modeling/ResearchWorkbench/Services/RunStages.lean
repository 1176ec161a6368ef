import ResearchWorkbench.Services.ResearchRuns

namespace ResearchWorkbench

/-!
# The run-stage service

The transactions of `lib/services/run-stages.ts`, most of them fenced by the job attempt that calls
them.

* `RunStageJobFence`, `assertCurrentRunStageJob`, `lockStageProjectFirst` — the fence;
* `startRunStage`, `recordRunStageProviderAttempt`, `commitRunStage` — executing a stage;
* `queueRunStage`, `restartRunStage`, `markDownstreamStagesStale` — stage generations;
* `blockRunStage`, `failRunStage`, `setResearchRunBoundary` — where a run stops.
-/

variable {δ : Type}

/-! ### The fence -/

/-- `RunStageJobFence`. -/
structure RunStageJobFence where
  jobId : ℕ
  runStageId : ℕ
  attempt : ℕ
  workerId : ℕ
  deriving DecidableEq, Repr

/-- The `WHERE` clause of `assertCurrentRunStageJob`. -/
def JobRow.matchesFence (job : JobRow) (now runId : ℕ) (fence : RunStageJobFence) : Bool :=
  job.runId = some runId && job.runStageId = some fence.runStageId &&
    job.attempts = fence.attempt && job.leaseOwner = some fence.workerId &&
    job.status = .running && job.leaseCurrent now

/-- `assertCurrentRunStageJob(client, runId, fence)`. -/
def assertCurrentRunStageJob (db : Db δ) (runId : ℕ) (fence : RunStageJobFence) :
    Except ServiceError Unit :=
  ensure (∃ job ∈ db.jobs[fence.jobId]?, job.matchesFence db.now runId fence)
    (conflict .JOB_LEASE_LOST
      "The worker no longer owns the current research stage job attempt.")

/-- `LockedStage`. -/
structure LockedStage where
  run : ResearchRunRow
  stage : RunStageRow

/-- `lockStageProjectFirst(client, runStageId, fence, allowDifferentFenceStage)`. -/
def lockStageProjectFirst (db : Db δ) (runStageId : ℕ) (fence : Option RunStageJobFence)
    (allowDifferentFenceStage : Bool) : Except ServiceError LockedStage := do
  let stage ← require db.stages[runStageId]? (notFound "Research run stage")
  let run ← require db.runs[stage.runId]? (notFound "Research run stage")
  ensure (run.projectId < db.projects.length) (notFound "Project")
  match fence with
  | some fence => do
    ensure (allowDifferentFenceStage ∨ fence.runStageId = runStageId)
      (conflict .JOB_LEASE_LOST "The job lease does not belong to this research run stage.")
    assertCurrentRunStageJob db stage.runId fence
  | none => pure ()
  return { run, stage }

/-- `assertRunStageJobFence(runStageId, fence)`. -/
def assertRunStageJobFence (db : Db δ) (runStageId : ℕ) (fence : RunStageJobFence) :
    Except ServiceError Unit := do
  let _ ← lockStageProjectFirst db runStageId (some fence) false
  return ()

/-- The newest row of a stage in a run has succeeded. -/
def stageSucceeded (stages : List RunStageRow) (runId : ℕ) (stageId : AIStage) : Bool :=
  (latestStage stages runId stageId).any fun (_, row) => row.status = .succeeded

/-- `assertDependenciesSucceeded(client, stage)`. -/
def assertDependenciesSucceeded (db : Db δ) (stage : RunStageRow) : Except ServiceError Unit :=
  let missing := (getPipelineStageDefinition stage.stageId).dependencies.filter fun dependency =>
    !stageSucceeded db.stages stage.runId dependency
  ensure (missing = [])
    (conflict .STAGE_DEPENDENCY_INCOMPLETE
      ("Complete these pipeline stages first: " ++ ", ".intercalate (missing.map (·.name)) ++ "."))

/-! ### Executing a stage -/

/-- The stage is `RUNNING`. -/
def RunStageRow.start (stage : RunStageRow) (now : ℕ) : RunStageRow :=
  { stage with
    status := .running
    attemptCount := stage.attemptCount + 1
    startedAt := some (stage.startedAt.getD now)
    completedAt := none
    version := stage.version + 1 }

/-- The run is `RUNNING`. -/
def ResearchRunRow.start (run : ResearchRunRow) (now : ℕ) (stage : AIStage) : ResearchRunRow :=
  { run with
    status := .running
    currentStage := some stage
    startedAt := some (run.startedAt.getD now)
    completedAt := none
    version := run.version + 1 }

/-- The two `UPDATE`s of the run: a queued one starts, and one more attempt is counted. -/
def ResearchRunRow.startStage (run : ResearchRunRow) (now : ℕ) (stage : AIStage) :
    ResearchRunRow :=
  let run := if run.status = .queued then run.start now stage else run
  { run with totalAttempts := run.totalAttempts + 1, version := run.version + 1 }

/-- The check of the run in `startRunStage`. -/
def assertRunStarts (status : ResearchRunStatus) : Except ServiceError Unit :=
  if status = .queued then
    assertResearchRunTransition status .running
  else
    ensure (status = .running)
      (conflict .RUN_NOT_EXECUTABLE "The research run is not queued or running.")

/-- `startRunStage(runStageId, fence)`. -/
def startRunStage (db : Db δ) (runStageId : ℕ) (fence : RunStageJobFence) :
    Except ServiceError (Db δ) := do
  let { run, stage } ← lockStageProjectFirst db runStageId (some fence) false
  assertDependenciesSucceeded db stage
  assertRunStageReaches stage.status .running
  assertRunStarts run.status
  return (db.updateStage runStageId (·.start db.now)).updateRun stage.runId
    (·.startStage db.now stage.stageId)

/-- The arguments of `recordRunStageProviderAttempt`; the error's text is given sanitized, and the
    estimate at the eight decimals of its column. -/
structure ProviderAttempt where
  providerExecutionId : ℕ
  inputTokens : ℕ := 0
  outputTokens : ℕ := 0
  costStatus : CostStatus := .unknown
  estimatedCostUsd : Option ℚ := none
  outputReference : Option StageOutput := none
  errorClass : Option JobErrorClass := none
  sanitizedError : Option String := none

/-- The provider attempt is recorded; a missing output keeps the stored one. -/
def RunStageRow.recordAttempt (stage : RunStageRow) (input : ProviderAttempt) : RunStageRow :=
  { stage with
    providerExecutionId := some input.providerExecutionId
    outputReference := input.outputReference.or stage.outputReference
    errorClass := input.errorClass
    sanitizedError := input.sanitizedError
    version := stage.version + 1 }

/-- `CASE WHEN total_provider_requests = 0 …`: the cost status of a run after one more request. -/
def combinedCostStatus (totalProviderRequests : ℕ) (current attempt : CostStatus) : CostStatus :=
  if totalProviderRequests = 0 then attempt
  else if current = .unknown ∨ attempt = .unknown then .unknown
  else if current = .estimated ∨ attempt = .estimated then .estimated
  else .known

/-- The provider attempt is charged to the run. -/
def ResearchRunRow.recordAttempt (run : ResearchRunRow) (input : ProviderAttempt) :
    ResearchRunRow :=
  { run with
    totalProviderRequests := run.totalProviderRequests + 1
    totalInputTokens := run.totalInputTokens + input.inputTokens
    totalOutputTokens := run.totalOutputTokens + input.outputTokens
    estimatedCost := match input.estimatedCostUsd with
      | none => run.estimatedCost
      | some cost => some (run.estimatedCost.getD 0 + cost)
    costStatus := combinedCostStatus run.totalProviderRequests run.costStatus input.costStatus
    version := run.version + 1 }

/-- `recordRunStageProviderAttempt(input)`. -/
def recordRunStageProviderAttempt (db : Db δ) (runStageId : ℕ) (fence : RunStageJobFence)
    (input : ProviderAttempt) : Except ServiceError (Db δ) := do
  let { stage, .. } ← lockStageProjectFirst db runStageId (some fence) false
  ensure (stage.status = .running)
    (conflict .STAGE_NOT_RUNNING "Provider results can only be recorded for a running stage.")
  if stage.providerExecutionId = some input.providerExecutionId then
    return db
  else
    return (db.updateStage runStageId (·.recordAttempt input)).updateRun stage.runId
      (·.recordAttempt input)

/-- The share of `succeeded` in `total`, in percent. -/
def percentage (succeeded total : ℕ) : ℕ := (mathRound ((succeeded : ℚ) / total * 100)).toNat

/-- The share of the run's stages whose newest row has succeeded, in percent. -/
def runProgress (stages : List RunStageRow) (runId : ℕ) : ℕ :=
  let latest := stages.filter fun s => s.runId = runId && isLatestGeneration stages s
  percentage (latest.countP (·.status = .succeeded)) latest.length

/-- The stage is `SUCCEEDED` with its output. -/
def RunStageRow.succeed (stage : RunStageRow) (now : ℕ) (output : StageOutput) : RunStageRow :=
  { stage with
    status := .succeeded
    outputReference := some output
    completedAt := some now
    errorClass := none
    sanitizedError := none
    version := stage.version + 1 }

/-- The run moves past a committed stage. -/
def ResearchRunRow.commit (run : ResearchRunRow) (target : ResearchRunStatus) (stage : AIStage)
    (progress : ℕ) : ResearchRunRow :=
  { run with
    status := target
    currentStage := some stage
    progress := progress
    version := run.version + 1 }

/-- The commit that a stage row already has under a key. -/
def existingCommit (db : Db δ) (runStageId generation : ℕ) (key : CommitKey) :
    Option StageCommitRow :=
  db.commits.find? fun commit =>
    commit.runStageId = runStageId ∧ commit.generation = generation ∧ commit.idempotencyKey = key

/-- What `commitRunStage` returns. -/
structure CommittedStage (δ : Type) where
  created : Bool
  db : Db δ

/-- `commitRunStage({ runStageId, fence, idempotencyKey, outputReference, domainCommit })`. -/
def commitRunStage (db : Db δ) (runStageId : ℕ) (fence : RunStageJobFence)
    (idempotencyKey : CommitKey) (output : StageOutput)
    (domainCommit : δ → Except ServiceError δ) : Except ServiceError (CommittedStage δ) := do
  let { run, stage } ← lockStageProjectFirst db runStageId (some fence) false
  match existingCommit db runStageId stage.generation idempotencyKey with
  | some commit =>
    ensure (commit.outputHash = output.hash)
      (conflict .IDEMPOTENCY_KEY_REUSED
        "The stage commit key is already associated with different output.")
    return { created := false, db }
  | none =>
    ensure (stage.status = .running)
      (conflict .STAGE_NOT_RUNNING "Only a running stage can commit output.")
    assertDependenciesSucceeded db stage
    let domain ← domainCommit db.domain
    let commit : StageCommitRow :=
      { runStageId, generation := stage.generation, idempotencyKey, outputHash := output.hash }
    assertRunStageTransition stage.status .succeeded
    let db := ((db.setDomain domain).insertCommit commit).updateStage runStageId
      (·.succeed db.now output)
    let next := pipelineStageAt (stage.ordinal + 1)
    let target := if next.isSome then .running else .qaRequired
    assertResearchRunReaches run.status target
    return {
      created := true
      db := db.updateRun stage.runId (·.commit target (next.getD stage.stageId)
        (runProgress db.stages stage.runId)) }

/-! ### Where a run stops -/

/-- The stage is `BLOCKED`. -/
def RunStageRow.block (stage : RunStageRow) (now : ℕ) (errorClass : JobErrorClass)
    (reason : String) : RunStageRow :=
  { stage with
    status := .blocked
    errorClass := some errorClass
    sanitizedError := some reason
    completedAt := some now
    version := stage.version + 1 }

/-- The run is `BLOCKED`. -/
def ResearchRunRow.block (run : ResearchRunRow) (reason : String) : ResearchRunRow :=
  { run with
    status := .blocked
    blockReason := some reason
    completedAt := none
    version := run.version + 1 }

/-- `blockRunStage({ runStageId, fence, errorClass, reason })`. -/
def blockRunStage (db : Db δ) (runStageId : ℕ) (fence : RunStageJobFence)
    (errorClass : JobErrorClass) (reason : String) : Except ServiceError (Db δ) := do
  let { run, stage } ← lockStageProjectFirst db runStageId (some fence) false
  if stage.status = .blocked ∧ run.status = .blocked then
    return db
  else
    assertRunStageReaches stage.status .blocked
    assertResearchRunReaches run.status .blocked
    return (db.updateStage runStageId (·.block db.now errorClass reason)).updateRun stage.runId
      (·.block reason)

/-- The statuses `setResearchRunBoundary` may set. -/
inductive RunBoundary
  | paused | qaRequired | approvalRequired | blocked
  deriving DecidableEq, Repr

/-- A boundary as a run status. -/
def RunBoundary.status : RunBoundary → ResearchRunStatus
  | .paused => .paused
  | .qaRequired => .qaRequired
  | .approvalRequired => .approvalRequired
  | .blocked => .blocked

/-- The run reaches a boundary. -/
def ResearchRunRow.reachBoundary (run : ResearchRunRow) (boundary : RunBoundary)
    (reason : Option String) : ResearchRunRow :=
  { run with
    status := boundary.status
    blockReason := if boundary = .blocked then reason else none
    failureReason := none
    version := run.version + 1 }

/-- `setResearchRunBoundary({ runStageId, fence, status, reason })`. -/
def setResearchRunBoundary (db : Db δ) (runStageId : ℕ) (fence : RunStageJobFence)
    (boundary : RunBoundary) (reason : Option String) : Except ServiceError (Db δ) := do
  let { run, stage } ← lockStageProjectFirst db runStageId (some fence) false
  ensure (stage.status = .succeeded)
    (conflict .STAGE_NOT_SUCCEEDED "A run boundary can only follow a committed stage.")
  if run.status = boundary.status then
    return db
  else
    assertResearchRunTransition run.status boundary.status
    return db.updateRun stage.runId (·.reachBoundary boundary reason)

/-- `failRunStage({ runStageId, fence, errorClass, error })`. -/
def failRunStage (db : Db δ) (runStageId : ℕ) (fence : RunStageJobFence)
    (errorClass : JobErrorClass) (sanitizedError : String) : Except ServiceError (Db δ) := do
  let { run, stage } ← lockStageProjectFirst db runStageId (some fence) false
  assertRunStageTransition stage.status .failed
  assertResearchRunReaches run.status .failed
  return (db.updateStage runStageId (·.fail db.now errorClass sanitizedError)).updateRun stage.runId
    (·.fail db.now sanitizedError)

/-! ### Stage generations -/

/-- `INSERT INTO research_run_stages` under its unique index. -/
def insertRunStage (db : Db δ) (row : RunStageRow) : Except ServiceError (Db δ) := do
  ensure (∀ stage ∈ db.stages, ¬ (stage.runId = row.runId ∧ stage.stageId = row.stageId ∧
      stage.generation = row.generation))
    (.constraint "research_run_stages_run_id_stage_id_generation_key")
  return db.insertStages [row]

/-- The next generation of a stage, `QUEUED`. -/
def RunStageRow.nextGeneration (stage : RunStageRow) (inputReference : InputReference) :
    RunStageRow :=
  newRunStage stage.runId stage.stageId stage.ordinal (stage.generation + 1) .queued
    (some inputReference)

/-- The stage is `QUEUED` again, in place and without its output. -/
def RunStageRow.requeue (stage : RunStageRow) (inputReference : InputReference) : RunStageRow :=
  { stage with
    status := .queued
    inputReference := some inputReference
    outputReference := none
    errorClass := none
    sanitizedError := none
    startedAt := none
    completedAt := none
    version := stage.version + 1 }

/-- `queueRunStage({ runStageId, fence, inputReference, idempotencyKey })`. -/
def queueRunStage (db : Db δ) (runStageId : ℕ) (fence : RunStageJobFence)
    (inputReference : InputReference) (idempotencyKey : JobKey) :
    Except ServiceError (SubmittedJob δ) := do
  let { run, stage } ← lockStageProjectFirst db runStageId (some fence) true
  ensure (run.status = .queued ∨ run.status = .running)
    (conflict .RUN_NOT_EXECUTABLE "The research run is not queued or running.")
  assertDependenciesSucceeded db stage
  assertRunStageReaches stage.status .queued
  if stage.status = .stale then
    let queuedStageId := db.stages.length
    let db ← insertRunStage db (stage.nextGeneration inputReference)
    submitJobInTransaction db
      (pipelineStageJob stage.runId run queuedStageId stage.stageId inputReference idempotencyKey)
  else
    submitJobInTransaction (db.updateStage runStageId (·.requeue inputReference))
      (pipelineStageJob stage.runId run runStageId stage.stageId inputReference idempotencyKey)

/-- The stage is `STALE`. -/
def RunStageRow.markStale (stage : RunStageRow) (now : ℕ) : RunStageRow :=
  { stage with status := .stale, staleAt := some now, version := stage.version + 1 }

/-- The newest rows of the later stages of the run that have succeeded. -/
def succeededDownstream (stages : List RunStageRow) (runId ordinal : ℕ) : List ℕ :=
  idsWhere (fun _ s => s.runId = runId ∧ ordinal < s.ordinal ∧ isLatestGeneration stages s ∧
    s.status = .succeeded) stages

/-- The `UPDATE` of the downstream stages, and `markGeneratedDomainEffectsNonCurrent` of what the
    given rows generated. -/
@[simps!] def markStagesStale [DomainStore δ] (db : Db δ) (ids generatedBy : List ℕ) : Db δ :=
  (db.updateStagesWhere (fun id _ => id ∈ ids) (·.markStale db.now)).setDomain
    (DomainStore.markGeneratedDomainEffectsNonCurrent generatedBy db.domain)

/-- The run's progress and stage after its downstream stages went stale; here the progress counts
    every generation. -/
def ResearchRunRow.markDownstreamStale (run : ResearchRunRow) (stage : AIStage) (progress : ℕ) :
    ResearchRunRow :=
  { run with currentStage := some stage, progress := progress, version := run.version + 1 }

/-- `markDownstreamStagesStale(runStageId)`. -/
def markDownstreamStagesStale [DomainStore δ] (db : Db δ) (runStageId : ℕ) :
    Except ServiceError (Db δ) := do
  let { stage, .. } ← lockStageProjectFirst db runStageId none false
  let ids := succeededDownstream db.stages stage.runId stage.ordinal
  if ids = [] then
    return db
  else
    let db := markStagesStale db ids ids
    let rows := db.stages.filter (·.runId = stage.runId)
    return db.updateRun stage.runId (·.markDownstreamStale stage.stageId
      (percentage (rows.countP (·.status = .succeeded)) rows.length))

/-- The run is `QUEUED` at a restarted stage. -/
def ResearchRunRow.restart (run : ResearchRunRow) (stage : AIStage) (progress : ℕ) :
    ResearchRunRow :=
  { run with
    status := .queued
    currentStage := some stage
    progress := progress
    failureReason := none
    blockReason := none
    completedAt := none
    version := run.version + 1 }

/-- `restartRunStage({ runStageId, idempotencyKey, inputReference, requestedBy })`. -/
def restartRunStage [DomainStore δ] (db : Db δ) (runStageId : ℕ) (idempotencyKey : JobKey)
    (inputReference : InputReference) : Except ServiceError (SubmittedJob δ) := do
  let { run, stage } ← lockStageProjectFirst db runStageId none false
  match (jobByKey db (some run.projectId) idempotencyKey).bind fun (jobId, job) =>
      (job.runStageId.bind (db.stages[·]?)).map fun existing => (jobId, job, existing) with
  | some (jobId, job, existing) =>
    ensure (job.runId = some stage.runId ∧ existing.stageId = stage.stageId)
      (conflict .IDEMPOTENCY_KEY_REUSED "The stage restart key belongs to another run stage.")
    return { jobId, created := false, db }
  | none =>
    ensure ((latestStage db.stages stage.runId stage.stageId).any fun (id, _) => id = runStageId)
      (conflict .STALE_STAGE_GENERATION "Restart the latest generation of this run stage.")
    ensure (stage.status ∈ [.succeeded, .failed, .blocked, .stale, .cancelled])
      (conflict .STAGE_NOT_RESTARTABLE "Only a terminal or stale run stage can be restarted.")
    ensure (db.activeJobCount stage.runId = 0)
      (conflict .RUN_HAS_ACTIVE_JOB
        "Wait for active run jobs to finish before restarting a stage.")
    let ids := succeededDownstream db.stages stage.runId stage.ordinal
    let db := markStagesStale db ids (runStageId :: ids)
    let restartedId := db.stages.length
    let db ← insertRunStage db (stage.nextGeneration inputReference)
    assertResearchRunReaches run.status .queued
    submitJobInTransaction
      (db.updateRun stage.runId (·.restart stage.stageId (runProgress db.stages stage.runId)))
      (pipelineStageJob stage.runId run restartedId stage.stageId inputReference idempotencyKey)

end ResearchWorkbench
