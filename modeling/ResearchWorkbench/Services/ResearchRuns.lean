import ResearchWorkbench.Services.Jobs

namespace ResearchWorkbench

/-!
# The run service

The transactions of `lib/services/research-runs.ts`.

* `createResearchRun` — a run, its eleven stage rows and the job of the first;
* `requestResearchRunCancellation`, `finalizeResearchRunCancellation`;
* `resumeResearchRun` — the first stage that has not succeeded is queued again, in place;
* `requestJobCancellations_ok` — the cancellation loop in closed form.
-/

variable {δ : Type}

/-! ### Creation -/

/-- `CreateResearchRunInput`. -/
structure CreateResearchRunInput where
  projectId : ℕ
  mode : ResearchRunMode
  idempotencyKey : ℕ
  pipelineVersion : ℕ := 0
  providerConfig : ℕ := 0
  modelConfig : ℕ := 0
  searchConfig : ℕ := 0
  budget : BudgetSnapshot := defaultRunBudget

/-- The row that `createResearchRun` inserts. -/
def newResearchRun (input : CreateResearchRunInput) (request : RunRequest) : ResearchRunRow where
  projectId := input.projectId
  mode := input.mode
  status := .queued
  scopeRevisionId := request.scopeRevisionId
  planRevisionId := request.planRevisionId
  budget := request.budget
  request := request
  idempotencyKey := input.idempotencyKey
  currentStage := some .intakeAnalysis
  progress := 0
  totalAttempts := 0
  totalProviderRequests := 0
  totalSearchRequests := 0
  totalInputTokens := 0
  totalOutputTokens := 0
  estimatedCost := none
  costStatus := .unknown
  failureReason := none
  blockReason := none
  cancelledBy := none
  startedAt := none
  completedAt := none
  version := 0

/-- A stage row as it is inserted: never started, without output. -/
def newRunStage (runId : ℕ) (stageId : AIStage) (ordinal generation : ℕ) (status : RunStageStatus)
    (inputReference : Option InputReference) : RunStageRow where
  runId := runId
  stageId := stageId
  ordinal := ordinal
  generation := generation
  status := status
  inputReference := inputReference
  outputReference := none
  attemptCount := 0
  providerExecutionId := none
  errorClass := none
  sanitizedError := none
  startedAt := none
  completedAt := none
  staleAt := none
  version := 0

/-- The stage rows of a new run: the first is `QUEUED` with the initial input. -/
def initialStages (runId : ℕ) (initialInput : InputReference) : List RunStageRow :=
  pipelineStageCatalog.map fun stage =>
    if stage.id = .intakeAnalysis then
      newRunStage runId stage.id stage.ordinal 1 .queued (some initialInput)
    else
      newRunStage runId stage.id stage.ordinal 1 .pending none

/-- The job of a stage row, as every service submits it. -/
def pipelineStageJob (runId : ℕ) (run : ResearchRunRow) (runStageId : ℕ) (stage : AIStage)
    (inputReference : InputReference) (idempotencyKey : JobKey) : SubmitJobInput where
  projectId := some run.projectId
  runId := some runId
  runStageId := some runStageId
  stage := some stage
  jobType := .researchPipelineStage
  inputReference := inputReference
  idempotencyKey := idempotencyKey
  maxAttempts := min (getPipelineStageDefinition stage).maxAttempts run.budget.maxStageAttempts
  timeoutMs := (getPipelineStageDefinition stage).timeoutMs

/-- The run with an idempotency key within a project. -/
def runByKey (db : Db δ) (projectId key : ℕ) : Option (ℕ × ResearchRunRow) :=
  findRow (fun run => run.projectId = projectId ∧ run.idempotencyKey = key) db.runs

/-- What `createResearchRun` returns. -/
structure CreatedRun (δ : Type) where
  runId : ℕ
  created : Bool
  db : Db δ

/-- `createResearchRun(input)`. -/
def createResearchRun (db : Db δ) (input : CreateResearchRunInput) :
    Except ServiceError (CreatedRun δ) := do
  let budget ← validateBudget input.budget
  let project ← require db.projects[input.projectId]? (notFound "Project")
  ensure project.scopeApproved
    (conflict .SCOPE_APPROVAL_REQUIRED "Approve the research scope before creating a run.")
  ensure project.planApproved
    (conflict .PLAN_APPROVAL_REQUIRED "Approve every research plan before creating a run.")
  ensure (project.questionCount ≠ 0 ∧ project.missingPlanCount = 0 ∧ project.unapprovedCount = 0)
    (conflict .PLAN_INCOMPLETE "Every research question must have a human-approved plan.")
  let request : RunRequest :=
    { mode := input.mode
      pipelineVersion := input.pipelineVersion
      scopeRevisionId := project.scopeRevisionId
      planRevisionId := project.planRevisionId
      providerConfig := input.providerConfig
      modelConfig := input.modelConfig
      searchConfig := input.searchConfig
      budget := budget }
  match runByKey db input.projectId input.idempotencyKey with
  | some (runId, run) =>
    ensure (run.request = request)
      (conflict .IDEMPOTENCY_KEY_REUSED
        "The idempotency key is already associated with different run input.")
    return { runId, created := false, db }
  | none =>
    let runId := db.runs.length
    let run := newResearchRun input request
    let initialInput := InputReference.initial input.projectId runId .intakeAnalysis
      project.scopeRevisionId project.planRevisionId
    let submitted ← submitJobInTransaction
      ((db.insertRun run).insertStages (initialStages runId initialInput))
      (pipelineStageJob runId run db.stages.length .intakeAnalysis initialInput
        (.stage runId .intakeAnalysis 1))
    return { runId, created := true, db := submitted.db }

/-! ### Cancellation -/

/-- The `for` loop of `requestResearchRunCancellation`: the status of each job afterwards. -/
def requestJobCancellations (cancelledBy : String) :
    Db δ → List ℕ → Except ServiceError (List (ℕ × JobStatus) × Db δ)
  | db, [] => return ([], db)
  | db, jobId :: rest => do
    let (status, db) ← requestJobCancellationInTransaction db jobId cancelledBy false
    let (statuses, db) ← requestJobCancellations cancelledBy db rest
    return ((jobId, status) :: statuses, db)

/-- The run is `CANCELLING` or `CANCELLED` at an operator's request. -/
def ResearchRunRow.requestCancellation (run : ResearchRunRow) (now : ℕ)
    (target : ResearchRunStatus) (cancelledBy : String) : ResearchRunRow :=
  { run with
    status := target
    cancelledBy := some cancelledBy
    completedAt := if target = .cancelled then some now else none
    version := run.version + 1 }

/-- The stages `requestResearchRunCancellation` cancels at once: those of the jobs that are
    `CANCELLED` after the loop. -/
def immediatelyCancelledStages (db : Db δ) (statuses : List (ℕ × JobStatus)) : List ℕ :=
  statuses.filterMap fun (jobId, status) =>
    if status = .cancelled then db.jobs[jobId]?.bind (·.runStageId) else none

/-- The last `UPDATE`s of `requestResearchRunCancellation`: the run moves to the target, which
    takes its open stages along if it is `CANCELLED`. -/
def moveCancelledRun (db : Db δ) (runId : ℕ) (target : ResearchRunStatus) (cancelledBy : String) :
    Db δ :=
  let db := if target = .cancelled then
      db.updateStagesWhere (fun _ stage => stage.runId = runId ∧ stage.status.isOpen)
        (·.cancel db.now)
    else db
  db.updateRun runId (·.requestCancellation db.now target cancelledBy)

/-- `requestResearchRunCancellation(runId, cancelledBy, idempotencyKey)`. -/
def requestResearchRunCancellation (db : Db δ) (runId : ℕ) (cancelledBy : String) :
    Except ServiceError (Db δ) := do
  let run ← require db.runs[runId]? (notFound "Research run")
  ensure (run.projectId < db.projects.length) (notFound "Project")
  if run.status ∈ [.cancelling, .cancelled, .completed, .failed] then
    return db
  else
    let jobIds := idsWhere (fun _ job => job.runId = some runId) db.jobs
    let (statuses, db) ← requestJobCancellations cancelledBy db jobIds
    let cooperativeCancellation := statuses.any fun (_, status) => status = .cancellationRequested
    let cancelledStages := immediatelyCancelledStages db statuses
    let db := db.updateStagesWhere
      (fun id stage => id ∈ cancelledStages ∧ stage.status ∈ [.pending, .queued])
      (·.cancel db.now)
    let target := if cooperativeCancellation then .cancelling else .cancelled
    assertResearchRunTransition run.status target
    return moveCancelledRun db runId target cancelledBy

/-- `finalizeResearchRunCancellation(runId)`. -/
def finalizeResearchRunCancellation (db : Db δ) (runId : ℕ) : Except ServiceError (Db δ) := do
  let run ← require db.runs[runId]? (notFound "Research run")
  if run.status = .cancelled then
    return db
  else
    ensure (run.status = .cancelling)
      (conflict .RUN_NOT_CANCELLING "The research run is not cancelling.")
    ensure (db.activeJobCount runId = 0)
      (conflict .RUN_CANCELLATION_PENDING
        "Workers have not acknowledged every cancellation request.")
    assertResearchRunTransition run.status .cancelled
    return finishRunCancellation db runId

/-! ### Resume -/

/-- The first stage of the run, by ordinal, whose newest row has not succeeded. -/
def firstUnfinishedStage (stages : List RunStageRow) (runId : ℕ) : Option (ℕ × RunStageRow) :=
  aiStages.findSome? fun stage =>
    (latestStage stages runId stage).filter fun (_, row) => row.status ≠ .succeeded

/-- The stage is `QUEUED` again, in place: its generation and its output stay. -/
def RunStageRow.resume (stage : RunStageRow) (stageInput : InputReference) : RunStageRow :=
  { stage with
    status := .queued
    inputReference := some (stage.inputReference.getD stageInput)
    errorClass := none
    sanitizedError := none
    startedAt := none
    completedAt := none
    version := stage.version + 1 }

/-- The run is `QUEUED` again. -/
def ResearchRunRow.resume (run : ResearchRunRow) (stage : AIStage) : ResearchRunRow :=
  { run with
    status := .queued
    currentStage := some stage
    failureReason := none
    blockReason := none
    cancelledBy := none
    completedAt := none
    version := run.version + 1 }

/-- `resumeResearchRun(runId, requestedBy, idempotencyKey)`. -/
def resumeResearchRun (db : Db δ) (runId : ℕ) : Except ServiceError (SubmittedJob δ) := do
  let run ← require db.runs[runId]? (notFound "Research run")
  ensure (run.status ∈ [.cancelled, .failed, .paused, .blocked])
    (conflict .RUN_NOT_RESUMABLE
      "Only cancelled, failed, paused, or blocked runs can be resumed.")
  let (runStageId, stage) ← require (firstUnfinishedStage db.stages runId)
    (conflict .RUN_ALREADY_COMPLETE "Every pipeline stage already succeeded.")
  assertRunStageReaches stage.status .queued
  let stageInput := stage.inputReference.getD (.resume runId stage.stageId)
  assertResearchRunTransition run.status .queued
  submitJobInTransaction
    ((db.updateStage runStageId (·.resume stageInput)).updateRun runId (·.resume stage.stageId))
    (pipelineStageJob runId run runStageId stage.stageId stageInput
      (.resume runId stage.stageId stage.generation (run.version + 1)))

end ResearchWorkbench
