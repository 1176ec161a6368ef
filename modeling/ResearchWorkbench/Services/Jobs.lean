import Mathlib.Data.List.Sort
import ResearchWorkbench.Store.Schema

namespace ResearchWorkbench

/-!
# The job service

The transactions of `lib/services/jobs.ts`.  Each `UPDATE jobs` is a named function on the row; a
transaction reads its guards through `ensure` and `require` and returns the new database, so an
error rolls everything back.

* `lockOwnedJob` — the lease guard of the worker calls;
* `submitJobInTransaction`, `claimJobs`, `startJob`, `heartbeatJob`, `completeJob`, `failJob`;
* `requestJobCancellationInTransaction`, `acknowledgeJobCancellation`, `releaseJobLease`;
* `recoverExpiredJob`, one candidate of `recoverExpiredJobs`, and `manualRetryJob`;
* `reconcileLinkedJobFailure`, `reconcileLinkedJobCancellation` — what a dying job does to its run.
-/

variable {δ : Type}

/-! ### Guards -/

/-- `boundedInteger(value, name, minimum, maximum)`. -/
def boundedInteger (value : ℤ) (name : String) (minimum maximum : ℤ) : Except ServiceError Unit :=
  ensure (minimum ≤ value ∧ value ≤ maximum)
    (.app 400 .INVALID_JOB_CONFIGURATION (name ++ " must be an integer between "
      ++ toString minimum ++ " and " ++ toString maximum ++ "."))

/-- `boundedRunIds(values)`. -/
def boundedRunIds (values : Option (List ℕ)) : Except ServiceError Unit := do
  ensure (∀ runIds ∈ values, runIds.length ≤ 1000)
    (.app 400 .INVALID_JOB_CONFIGURATION "runIds must contain at most 1000 entries.")
  ensure (∀ runIds ∈ values, runIds.Nodup)
    (.app 400 .INVALID_JOB_CONFIGURATION "runIds must not contain duplicates.")

/-- `lease_expires_at > NOW()`. -/
def JobRow.leaseCurrent (job : JobRow) (now : ℕ) : Bool :=
  job.leaseExpiresAt.any fun expiry => now < expiry

/-- `lease_expires_at <= NOW()`. -/
def JobRow.leaseExpired (job : JobRow) (now : ℕ) : Bool :=
  job.leaseExpiresAt.any fun expiry => expiry ≤ now

/-- `lockJobProjectFirst(client, jobId)`. -/
def lockJobProjectFirst (db : Db δ) (jobId : ℕ) : Except ServiceError JobRow := do
  let job ← require db.jobs[jobId]? (notFound "Job")
  ensure (∀ projectId ∈ job.projectId, projectId < db.projects.length) (notFound "Project")
  return job

/-- `lockOwnedJob(client, jobId, workerId, allowedStatuses, expectedVersion)`. -/
def lockOwnedJob (db : Db δ) (jobId workerId : ℕ) (allowedStatuses : List JobStatus)
    (expectedVersion : Option ℕ) : Except ServiceError JobRow := do
  let job ← lockJobProjectFirst db jobId
  ensure (job.leaseOwner = some workerId ∧ job.leaseCurrent db.now ∧ job.status ∈ allowedStatuses)
    (conflict .JOB_LEASE_LOST "The worker no longer owns a current lease for this job.")
  ensure (∀ version ∈ expectedVersion, job.version = version)
    (conflict .STALE_JOB_VERSION "The job changed after it was read.")
  return job

/-! ### The linked run -/

/-- What `lockLinkedResearchState` returns: the job's run and, if it has one, its stage row. -/
structure LinkedResearchState where
  runId : ℕ
  run : ResearchRunRow
  stage : Option (ℕ × RunStageRow)

/-- `lockLinkedResearchState(client, job)`. -/
def lockLinkedResearchState (db : Db δ) (job : JobRow) :
    Except ServiceError (Option LinkedResearchState) :=
  match job.runId with
  | none => return none
  | some runId => do
    let run ← require db.runs[runId]?
      (conflict .JOB_RUN_LINK_BROKEN "The job no longer has a complete research run linkage.")
    match job.runStageId with
    | none => return some { runId, run, stage := none }
    | some runStageId => do
      let stage ← require (db.stages[runStageId]?.filter fun stage => stage.runId = runId)
        (conflict .JOB_RUN_LINK_BROKEN "The job no longer has a complete research run linkage.")
      return some { runId, run, stage := some (runStageId, stage) }

/-- The stage is `FAILED`. -/
def RunStageRow.fail (stage : RunStageRow) (now : ℕ) (errorClass : JobErrorClass)
    (sanitizedError : String) : RunStageRow :=
  { stage with
    status := .failed
    errorClass := some errorClass
    sanitizedError := some sanitizedError
    completedAt := some now
    version := stage.version + 1 }

/-- The run is `FAILED`. -/
def ResearchRunRow.fail (run : ResearchRunRow) (now : ℕ) (reason : String) : ResearchRunRow :=
  { run with
    status := .failed
    failureReason := some reason
    completedAt := some now
    version := run.version + 1 }

/-- The `UPDATE`s of `reconcileLinkedJobFailure`: an executing stage fails, and its run with it
    where the run can. -/
def failLinkedStage (db : Db δ) (linked : LinkedResearchState) (errorClass : JobErrorClass)
    (sanitizedError : String) : Db δ :=
  match linked.stage with
  | some (stageId, stage) =>
    if (stage.status = .queued ∨ stage.status = .running) ∧
        canTransitionRunStage stage.status .failed then
      let db := db.updateStage stageId (·.fail db.now errorClass sanitizedError)
      if linked.run.status ≠ .failed ∧ canTransitionResearchRun linked.run.status .failed then
        db.updateRun linked.runId (·.fail db.now sanitizedError)
      else
        db
    else
      db
  | none => db

/-- `reconcileLinkedJobFailure(client, job, { errorClass, sanitizedError })`. -/
def reconcileLinkedJobFailure (db : Db δ) (job : JobRow) (errorClass : JobErrorClass)
    (sanitizedError : String) : Except ServiceError (Db δ) := do
  match ← lockLinkedResearchState db job with
  | none => return db
  | some linked => return failLinkedStage db linked errorClass sanitizedError

/-- The run is `CANCELLING`. -/
def ResearchRunRow.startCancelling (run : ResearchRunRow) (requestedBy : String) :
    ResearchRunRow :=
  { run with
    status := .cancelling
    cancelledBy := some (run.cancelledBy.getD requestedBy)
    completedAt := none
    version := run.version + 1 }

/-- The run is `CANCELLED`. -/
def ResearchRunRow.finishCancelling (run : ResearchRunRow) (now : ℕ) : ResearchRunRow :=
  { run with
    status := .cancelled
    completedAt := some now
    version := run.version + 1 }

/-- The stage is `CANCELLED` with its run. -/
def RunStageRow.cancel (stage : RunStageRow) (now : ℕ) : RunStageRow :=
  { stage with
    status := .cancelled
    completedAt := some now
    version := stage.version + 1 }

/-- The stage is `CANCELLED` with its job. -/
def RunStageRow.cancelWithJob (stage : RunStageRow) (now : ℕ) : RunStageRow :=
  { stage with
    status := .cancelled
    completedAt := some now
    errorClass := some .cancelled
    sanitizedError := some "The linked durable job was cancelled."
    version := stage.version + 1 }

/-- `status IN ('PENDING', 'QUEUED', 'RUNNING')`. -/
def RunStageStatus.isOpen (status : RunStageStatus) : Bool :=
  status ∈ [.pending, .queued, .running]

/-- The first `UPDATE` of `reconcileLinkedJobCancellation`: the run starts cancelling where it
    can.  Returns the run's status after it. -/
def beginRunCancellation (db : Db δ) (runId : ℕ) (run : ResearchRunRow) (requestedBy : String) :
    Db δ × ResearchRunStatus :=
  if run.status ≠ .cancelling ∧ canTransitionResearchRun run.status .cancelling then
    (db.updateRun runId (·.startCancelling requestedBy), .cancelling)
  else
    (db, run.status)

/-- The second `UPDATE` of `reconcileLinkedJobCancellation`: the stage of the cancelled job. -/
def cancelLinkedStage (db : Db δ) : Option (ℕ × RunStageRow) → Db δ
  | some (stageId, stage) =>
    if stage.status.isOpen ∧ canTransitionRunStage stage.status .cancelled then
      db.updateStage stageId (·.cancelWithJob db.now)
    else
      db
  | none => db

/-- Every open stage of the run and the run itself are `CANCELLED`. -/
def finishRunCancellation (db : Db δ) (runId : ℕ) : Db δ :=
  (db.updateStagesWhere (fun _ stage => stage.runId = runId ∧ stage.status.isOpen)
    (·.cancel db.now)).updateRun runId (·.finishCancelling db.now)

/-- The `UPDATE`s of `reconcileLinkedJobCancellation`, `jobStatus` being that of the updated
    job. -/
def cancelLinkedRun (db : Db δ) (linked : LinkedResearchState) (jobStatus : JobStatus)
    (requestedBy : String) : Db δ :=
  if linked.run.status ∈ [.completed, .failed, .cancelled] then
    db
  else
    let (db, runStatus) := beginRunCancellation db linked.runId linked.run requestedBy
    if jobStatus ≠ .cancelled then
      db
    else
      let db := cancelLinkedStage db linked.stage
      if 0 < db.activeJobCount linked.runId ∨ runStatus ≠ .cancelling then
        db
      else
        finishRunCancellation db linked.runId

/-- `reconcileLinkedJobCancellation(client, job, requestedBy)`, `job` being the updated row. -/
def reconcileLinkedJobCancellation (db : Db δ) (job : JobRow) (requestedBy : String) :
    Except ServiceError (Db δ) := do
  match ← lockLinkedResearchState db job with
  | none => return db
  | some linked => return cancelLinkedRun db linked job.status requestedBy

/-! ### Submission -/

/-- `SubmitJobInput`, with the defaults of `submitJobInTransaction`. -/
structure SubmitJobInput where
  projectId : Option ℕ := none
  runId : Option ℕ := none
  runStageId : Option ℕ := none
  stage : Option AIStage := none
  jobType : JobType
  inputReference : InputReference
  idempotencyKey : JobKey
  parentJobId : Option ℕ := none
  priority : ℤ := 0
  maxAttempts : ℕ := 3
  timeoutMs : ℕ := 300000
  retryPolicy : JobRetryPolicy := defaultJobRetryPolicy
  scheduledAt : Option ℕ := none

/-- The row that `INSERT INTO jobs` adds. -/
def SubmitJobInput.row (input : SubmitJobInput) (now : ℕ) : JobRow where
  projectId := input.projectId
  runId := input.runId
  runStageId := input.runStageId
  stage := input.stage
  jobType := input.jobType
  status := .queued
  priority := input.priority
  idempotencyKey := input.idempotencyKey
  inputReference := input.inputReference
  outputReference := none
  attempts := 0
  maxAttempts := input.maxAttempts
  scheduledAt := input.scheduledAt.getD now
  claimedAt := none
  startedAt := none
  completedAt := none
  leaseOwner := none
  leaseExpiresAt := none
  heartbeatAt := none
  timeoutMs := input.timeoutMs
  retryPolicy := input.retryPolicy
  errorClass := none
  sanitizedError := none
  cancellationRequestedAt := none
  parentJobId := input.parentJobId
  version := 0

/-- The foreign keys of `jobs`; one with a `NULL` column is not checked. -/
def jobReferencesExist (db : Db δ) (input : SubmitJobInput) : Prop :=
  (∀ projectId ∈ input.projectId, projectId < db.projects.length) ∧
  (∀ projectId ∈ input.projectId, ∀ runId ∈ input.runId,
    ∃ run ∈ db.runs[runId]?, run.projectId = projectId) ∧
  (∀ runId ∈ input.runId, ∀ runStageId ∈ input.runStageId,
    ∃ stage ∈ db.stages[runStageId]?, stage.runId = runId) ∧
  (∀ jobId ∈ input.parentJobId, jobId < db.jobs.length)

instance (db : Db δ) (input : SubmitJobInput) : Decidable (jobReferencesExist db input) :=
  inferInstanceAs (Decidable (_ ∧ _ ∧ _ ∧ _))

/-- The job that holds an idempotency key within a project. -/
def jobByKey (db : Db δ) (projectId : Option ℕ) (key : JobKey) : Option (ℕ × JobRow) :=
  findRow (fun job => job.projectId = projectId ∧ job.idempotencyKey = key) db.jobs

/-- What `submitJobInTransaction` returns. -/
structure SubmittedJob (δ : Type) where
  jobId : ℕ
  created : Bool
  db : Db δ

/-- `submitJobInTransaction(client, input)`. -/
def submitJobInTransaction (db : Db δ) (input : SubmitJobInput) :
    Except ServiceError (SubmittedJob δ) := do
  boundedInteger input.priority "priority" (-1000) 1000
  boundedInteger input.maxAttempts "maxAttempts" 1 100
  boundedInteger input.timeoutMs "timeoutMs" 1 86400000
  let _ ← parseJobRetryPolicy input.retryPolicy
  match jobByKey db input.projectId input.idempotencyKey with
  | none =>
    ensure (jobReferencesExist db input) (.constraint "jobs_foreign_keys")
    return { jobId := db.jobs.length, created := true, db := db.insertJob (input.row db.now) }
  | some (jobId, job) =>
    ensure (job.jobType = input.jobType ∧ job.inputReference = input.inputReference ∧
        job.runId = input.runId ∧ job.runStageId = input.runStageId)
      (conflict .IDEMPOTENCY_KEY_REUSED
        "The idempotency key is already associated with different job input.")
    return { jobId, created := false, db }

/-- `submitJob(input)`. -/
def submitJob (db : Db δ) (input : SubmitJobInput) : Except ServiceError (SubmittedJob δ) := do
  ensure (∀ projectId ∈ input.projectId, projectId < db.projects.length) (notFound "Project")
  submitJobInTransaction db input

/-! ### Claiming -/

/-- The arguments of `claimJobs`. -/
structure ClaimJobsInput where
  workerId : ℕ
  limit : ℕ := 1
  leaseDurationMs : ℕ
  jobTypes : Option (List JobType) := none
  runIds : Option (List ℕ) := none

/-- The `WHERE` clause of `claimJobs`. -/
def ClaimJobsInput.candidate (input : ClaimJobsInput) (now : ℕ) (job : JobRow) : Bool :=
  job.status.isWaiting && job.scheduledAt ≤ now && job.attempts < job.maxAttempts &&
    input.jobTypes.all (fun jobTypes => job.jobType ∈ jobTypes) &&
    input.runIds.all (fun runIds => job.runId.any fun runId => runId ∈ runIds)

/-- `ORDER BY priority DESC, scheduled_at, id`. -/
def claimOrder (x y : JobRow × ℕ) : Prop :=
  y.1.priority < x.1.priority ∨ x.1.priority = y.1.priority ∧
    (x.1.scheduledAt < y.1.scheduledAt ∨ x.1.scheduledAt = y.1.scheduledAt ∧ x.2 ≤ y.2)

instance : DecidableRel claimOrder := fun _ _ => inferInstanceAs (Decidable (_ ∨ _ ∧ (_ ∨ _ ∧ _)))

/-- The ids `claimJobs` takes; `locked` are the rows other transactions hold, which
    `FOR UPDATE SKIP LOCKED` skips. -/
def claimCandidates (db : Db δ) (input : ClaimJobsInput) (locked : List ℕ) : List ℕ :=
  (((db.jobs.zipIdx.filter fun (job, id) => input.candidate db.now job && id ∉ locked)
    |>.insertionSort claimOrder).take input.limit).map (·.2)

/-- The job is `CLAIMED`. -/
def JobRow.claim (job : JobRow) (now workerId leaseDurationMs : ℕ) : JobRow :=
  { job with
    status := .claimed
    attempts := job.attempts + 1
    claimedAt := some now
    leaseOwner := some workerId
    leaseExpiresAt := some (now + leaseDurationMs)
    heartbeatAt := some now
    errorClass := none
    sanitizedError := none
    version := job.version + 1 }

/-- The `INSERT INTO job_attempts` of `claimJobs`, for a job before it is claimed. -/
def claimedAttempt (jobId : ℕ) (job : JobRow) (workerId : ℕ) : JobAttemptRow where
  jobId := jobId
  attemptNumber := job.attempts + 1
  workerId := workerId
  status := .claimed
  errorClass := none
  sanitizedError := none
  retryAfterMs := none
  completedAt := none

/-- `claimJobs({ workerId, limit, leaseDurationMs, jobTypes, runIds })`. -/
def claimJobs (db : Db δ) (input : ClaimJobsInput) (locked : List ℕ) :
    Except ServiceError (Db δ) := do
  boundedInteger input.limit "limit" 1 100
  boundedInteger input.leaseDurationMs "leaseDurationMs" 1 86400000
  boundedRunIds input.runIds
  ensure (∀ jobTypes ∈ input.jobTypes, jobTypes.Nodup)
    (.app 400 .INVALID_JOB_CONFIGURATION "jobTypes must not contain duplicates.")
  let ids := claimCandidates db input locked
  return { db with
    jobs := updateWhere (fun id _ => id ∈ ids)
      (·.claim db.now input.workerId input.leaseDurationMs) db.jobs
    jobAttempts := db.jobAttempts ++ ids.filterMap fun id =>
      db.jobs[id]?.map fun job => claimedAttempt id job input.workerId }

/-! ### Execution -/

/-- The two `UPDATE`s that follow the guard of a worker call: the job's row, and the row of the
    attempt it is in. -/
@[simps!] def Db.settleAttempt (db : Db δ) (jobId : ℕ) (job job' : JobRow)
    (f : JobAttemptRow → JobAttemptRow) : Db δ :=
  (db.updateJob jobId fun _ => job').updateJobAttempt jobId job.attempts f

/-- The attempt is `RUNNING`. -/
def JobAttemptRow.start (attempt : JobAttemptRow) : JobAttemptRow :=
  { attempt with status := .running }

/-- The attempt has ended. -/
def JobAttemptRow.finish (attempt : JobAttemptRow) (now : ℕ) (status : JobAttemptStatus) :
    JobAttemptRow :=
  { attempt with status := status, completedAt := some now }

/-- The job is `RUNNING`. -/
def JobRow.start (job : JobRow) (now : ℕ) : JobRow :=
  { job with
    status := .running
    startedAt := some (job.startedAt.getD now)
    heartbeatAt := some now
    version := job.version + 1 }

/-- `startJob(jobId, workerId, expectedVersion)`. -/
def startJob (db : Db δ) (jobId workerId : ℕ) (expectedVersion : Option ℕ) :
    Except ServiceError (Db δ) := do
  let job ← lockOwnedJob db jobId workerId [.claimed] expectedVersion
  assertJobTransition job.status .running
  return db.settleAttempt jobId job (job.start db.now) (·.start)

/-- The lease is extended. -/
def JobRow.heartbeat (job : JobRow) (now leaseDurationMs : ℕ) : JobRow :=
  { job with
    heartbeatAt := some now
    leaseExpiresAt := some (now + leaseDurationMs)
    version := job.version + 1 }

/-- `heartbeatJob({ jobId, workerId, leaseDurationMs })`. -/
def heartbeatJob (db : Db δ) (jobId workerId leaseDurationMs : ℕ) :
    Except ServiceError (Db δ) := do
  boundedInteger leaseDurationMs "leaseDurationMs" 1 86400000
  let _ ← lockOwnedJob db jobId workerId [.claimed, .running, .cancellationRequested] none
  return db.updateJob jobId (·.heartbeat db.now leaseDurationMs)

/-- The job no longer has a lease. -/
def JobRow.dropLease (job : JobRow) : JobRow :=
  { job with
    leaseOwner := none
    leaseExpiresAt := none
    heartbeatAt := none
    version := job.version + 1 }

/-- The job is `SUCCEEDED`. -/
def JobRow.succeed (job : JobRow) (now output : ℕ) : JobRow :=
  { job.dropLease with
    status := .succeeded
    outputReference := some output
    completedAt := some now }

/-- `completeJob({ jobId, workerId, outputReference })`. -/
def completeJob (db : Db δ) (jobId workerId output : ℕ) : Except ServiceError (Db δ) := do
  let job ← lockOwnedJob db jobId workerId [.running] none
  assertJobTransition job.status .succeeded
  return db.settleAttempt jobId job (job.succeed db.now output) (·.finish db.now .succeeded)

/-- The status of an attempt that ends with its job. -/
def endedAttemptStatus : JobStatus → JobAttemptStatus
  | .retryWait => .retryWait
  | .deadLetter => .deadLetter
  | .cancelled => .cancelled
  | _ => .failed

/-- `target` when it is `RETRY_WAIT` is reached after the delay. -/
def JobRow.scheduledFor (job : JobRow) (target : JobStatus) (now : ℕ) (retryDelayMs : Option ℕ) :
    ℕ :=
  if target = .retryWait then now + retryDelayMs.getD 0 else job.scheduledAt

/-- The attempt failed and the job is in `target`. -/
def JobRow.failAttempt (job : JobRow) (now : ℕ) (target : JobStatus) (retryDelayMs : Option ℕ)
    (errorClass : JobErrorClass) (sanitizedError : String) : JobRow :=
  { job.dropLease with
    status := target
    scheduledAt := job.scheduledFor target now retryDelayMs
    completedAt := if target ∈ [.failed, .deadLetter] then some now else none
    errorClass := some errorClass
    sanitizedError := some sanitizedError }

/-- The attempt failed. -/
def JobAttemptRow.fail (attempt : JobAttemptRow) (now : ℕ) (target : JobStatus)
    (retryDelayMs : Option ℕ) (errorClass : JobErrorClass) (sanitizedError : String) :
    JobAttemptRow :=
  { attempt.finish now (endedAttemptStatus target) with
    errorClass := some errorClass
    sanitizedError := some sanitizedError
    retryAfterMs := retryDelayMs }

/-- The largest `INTEGER`. -/
def maxInteger : ℕ := 2147483647

/-- The delay before a retry: none unless the target is `RETRY_WAIT`.  It is written to
    `job_attempts.retry_after_ms INTEGER`, without which the transaction fails. -/
def retryDelay (target : JobStatus) (attempt : ℕ) (policy : JobRetryPolicy)
    (retryAfterMs : Option ℕ) (random : ℚ) : Except ServiceError (Option ℕ) :=
  if target = .retryWait then do
    let delay ← calculateRetryDelayMs attempt policy retryAfterMs random
    ensure (delay ≤ maxInteger) (.error "integer out of range")
    return some delay
  else
    return none

/-- The arguments of `failJob`; the error's text is given sanitized. -/
structure FailJobInput where
  jobId : ℕ
  workerId : ℕ
  errorClass : JobErrorClass
  sanitizedError : String := ""
  retryAfterMs : Option ℕ := none
  random : ℚ := 0

/-- `failJob({ jobId, workerId, errorClass, error, retryAfterMs, random })`. -/
def failJob (db : Db δ) (input : FailJobInput) : Except ServiceError (Db δ) := do
  let job ← lockOwnedJob db input.jobId input.workerId [.claimed, .running] none
  let target ← failureJobStatus input.errorClass job.attempts job.maxAttempts
  assertJobTransition job.status target
  let retryDelayMs ← retryDelay target job.attempts job.retryPolicy input.retryAfterMs input.random
  let failed :=
    job.failAttempt db.now target retryDelayMs input.errorClass input.sanitizedError
  let db := db.settleAttempt input.jobId job failed
    (·.fail db.now target retryDelayMs input.errorClass input.sanitizedError)
  if target ∈ [.failed, .deadLetter] then
    reconcileLinkedJobFailure db failed input.errorClass input.sanitizedError
  else
    return db

/-! ### Cancellation and release -/

/-- Cancellation of the job is requested. -/
def JobRow.requestCancellation (job : JobRow) (now : ℕ) (target : JobStatus) : JobRow :=
  { job with
    status := target
    cancellationRequestedAt := some now
    completedAt := if target = .cancelled then some now else job.completedAt
    leaseOwner := if target = .cancelled then none else job.leaseOwner
    leaseExpiresAt := if target = .cancelled then none else job.leaseExpiresAt
    heartbeatAt := if target = .cancelled then none else job.heartbeatAt
    version := job.version + 1 }

/-- Where a requested cancellation sends a job: at once if no worker has it, else cooperatively. -/
def cancellationTarget (status : JobStatus) : JobStatus :=
  if status ∈ [.queued, .retryWait] then .cancelled else .cancellationRequested

/-- `requestJobCancellationInTransaction(client, jobId, requestedBy, audit, { reconcileLinked })`:
    the job's status afterwards and the new database. -/
def requestJobCancellationInTransaction (db : Db δ) (jobId : ℕ) (requestedBy : String)
    (reconcileLinked : Bool) : Except ServiceError (JobStatus × Db δ) := do
  let job ← lockJobProjectFirst db jobId
  if isTerminalJobStatus job.status ∨ job.status = .cancellationRequested then
    return (job.status, db)
  else
    let target := cancellationTarget job.status
    assertJobTransition job.status target
    let requested := job.requestCancellation db.now target
    let db := db.updateJob jobId fun _ => requested
    if reconcileLinked then
      let db ← reconcileLinkedJobCancellation db requested requestedBy
      return (target, db)
    else
      return (target, db)

/-- `requestJobCancellation(jobId, requestedBy, audit)`. -/
def requestJobCancellation (db : Db δ) (jobId : ℕ) (requestedBy : String) :
    Except ServiceError (Db δ) := do
  let (_, db) ← requestJobCancellationInTransaction db jobId requestedBy true
  return db

/-- The worker acknowledged the cancellation. -/
def JobRow.acknowledgeCancellation (job : JobRow) (now : ℕ) : JobRow :=
  { job.dropLease with
    status := .cancelled
    completedAt := some now
    errorClass := some .cancelled
    sanitizedError := some "Cancellation acknowledged by worker." }

/-- The attempt was cancelled. -/
def JobAttemptRow.cancel (attempt : JobAttemptRow) (now : ℕ) : JobAttemptRow :=
  { attempt.finish now .cancelled with errorClass := some .cancelled }

/-- `acknowledgeJobCancellation({ jobId, workerId })`. -/
def acknowledgeJobCancellation (db : Db δ) (jobId workerId : ℕ) : Except ServiceError (Db δ) := do
  let job ← lockOwnedJob db jobId workerId [.cancellationRequested] none
  assertJobTransition job.status .cancelled
  let acknowledged := job.acknowledgeCancellation db.now
  let db := db.settleAttempt jobId job acknowledged (·.cancel db.now)
  reconcileLinkedJobCancellation db acknowledged "Cancellation acknowledged by worker"

/-- The lease is given back and the job is in `target`. -/
def JobRow.release (job : JobRow) (now : ℕ) (target : JobStatus) : JobRow :=
  { job.dropLease with
    status := target
    scheduledAt := job.scheduledFor target now none
    completedAt := if target = .cancelled then some now else none
    errorClass := if target = .cancelled then some .cancelled else job.errorClass }

/-- `releaseJobLease({ jobId, workerId })`. -/
def releaseJobLease (db : Db δ) (jobId workerId : ℕ) : Except ServiceError (Db δ) := do
  let job ← lockOwnedJob db jobId workerId [.claimed, .running, .cancellationRequested] none
  let target := if job.status = .cancellationRequested then .cancelled else .retryWait
  assertJobTransition job.status target
  let released := job.release db.now target
  let db := db.settleAttempt jobId job released (·.finish db.now (endedAttemptStatus target))
  if target = .cancelled then
    reconcileLinkedJobCancellation db released "Cancellation completed during worker shutdown"
  else
    return db

/-! ### Recovery and manual retry -/

/-- The lease expired and the job is in `target`. -/
def JobRow.expire (job : JobRow) (now : ℕ) (target : JobStatus) (retryDelayMs : Option ℕ) :
    JobRow :=
  { job.dropLease with
    status := target
    scheduledAt := job.scheduledFor target now retryDelayMs
    completedAt := if target ∈ [.cancelled, .deadLetter] then some now else none
    errorClass := some (if target = .cancelled then .cancelled else .unknown)
    sanitizedError := some (if target = .cancelled then
        "Cancellation completed after the worker lease expired."
      else "Worker lease expired before completion.") }

/-- The attempt ended with its lease. -/
def JobAttemptRow.expire (attempt : JobAttemptRow) (now : ℕ) (target : JobStatus)
    (retryDelayMs : Option ℕ) : JobAttemptRow :=
  { attempt.finish now .leaseExpired with
    errorClass := some (if target = .cancelled then .cancelled else .unknown)
    sanitizedError := some "Worker lease expired before completion."
    retryAfterMs := retryDelayMs }

/-- Where `recoverExpiredJobs` sends a job. -/
def recoveredStatus (job : JobRow) : JobStatus :=
  if job.status = .cancellationRequested then .cancelled
  else if job.attempts < job.maxAttempts then .retryWait
  else .deadLetter

/-- The transaction of `recoverExpiredJobs` for one candidate. -/
def recoverExpiredJob (db : Db δ) (jobId : ℕ) (runIds : Option (List ℕ)) (random : ℚ) :
    Except ServiceError (Db δ) := do
  let job ← lockJobProjectFirst db jobId
  if job.leaseExpired db.now ∧ (∀ ids ∈ runIds, ∃ runId ∈ job.runId, runId ∈ ids) ∧
      job.status.isActive then
    let target := recoveredStatus job
    assertJobTransition job.status target
    let retryDelayMs ← retryDelay target (max 1 job.attempts) job.retryPolicy none random
    let expired := job.expire db.now target retryDelayMs
    let db := db.settleAttempt jobId job expired (·.expire db.now target retryDelayMs)
    if target = .deadLetter then
      reconcileLinkedJobFailure db expired .unknown "Worker lease expired before completion."
    else if target = .cancelled then
      reconcileLinkedJobCancellation db expired "Cancellation completed after worker lease expiry"
    else
      return db
  else
    return db

/-- `ORDER BY lease_expires_at, id`. -/
def expiryOrder (x y : JobRow × ℕ) : Prop :=
  x.1.leaseExpiresAt.getD 0 < y.1.leaseExpiresAt.getD 0 ∨
    x.1.leaseExpiresAt.getD 0 = y.1.leaseExpiresAt.getD 0 ∧ x.2 ≤ y.2

instance : DecidableRel expiryOrder := fun _ _ => inferInstanceAs (Decidable (_ ∨ _ ∧ _))

/-- The candidates `recoverExpiredJobs` reads before it recovers them one by one. -/
def expiredCandidates (db : Db δ) (limit : ℕ) (runIds : Option (List ℕ)) : List ℕ :=
  (((db.jobs.zipIdx.filter fun (job, _) => job.status.isActive && job.leaseExpired db.now &&
      runIds.all (fun ids => job.runId.any fun runId => runId ∈ ids))
    |>.insertionSort expiryOrder).take limit).map (·.2)

/-- The loop of `recoverExpiredJobs`: one transaction for each candidate, with the number the
    generator returns for it.  A missing row is skipped, any other error ends the loop; what the
    earlier transactions did stays. -/
def recoverCandidates (runIds : Option (List ℕ)) :
    Db δ → List (ℕ × ℚ) → Db δ × Except ServiceError Unit
  | db, [] => (db, .ok ())
  | db, (jobId, random) :: rest =>
    match recoverExpiredJob db jobId runIds random with
    | .ok db => recoverCandidates runIds db rest
    | .error e => if e.isNotFound then recoverCandidates runIds db rest else (db, .error e)

/-- `recoverExpiredJobs({ limit, random, runIds })`, run alone; `random` is the generator's
    sequence. -/
def recoverExpiredJobs (db : Db δ) (limit : ℕ) (runIds : Option (List ℕ)) (random : ℕ → ℚ) :
    Db δ × Except ServiceError Unit :=
  match (do boundedInteger limit "limit" 1 1000; boundedRunIds runIds) with
  | .error e => (db, .error e)
  | .ok _ =>
    recoverCandidates runIds db
      ((expiredCandidates db limit runIds).zipIdx.map fun (id, i) => (id, random i))

/-- The operator retries the job. -/
def JobRow.manualRetry (job : JobRow) (now : ℕ) : JobRow :=
  { job.dropLease with
    status := .queued
    maxAttempts := job.attempts + 1
    scheduledAt := now
    claimedAt := none
    startedAt := none
    completedAt := none
    errorClass := none
    sanitizedError := none
    cancellationRequestedAt := none }

/-- `manualRetryJob(jobId, requestedBy, audit)`. -/
def manualRetryJob (db : Db δ) (jobId : ℕ) : Except ServiceError (Db δ) := do
  let job ← lockJobProjectFirst db jobId
  ensure (¬ (job.runStageId.isSome ∨ job.jobType = .researchPipelineStage))
    (conflict .PIPELINE_STAGE_RESTART_REQUIRED
      "Retry research pipeline work by restarting the latest stage generation.")
  ensure (job.status ∈ [.failed, .deadLetter])
    (conflict .JOB_NOT_RETRYABLE "Only failed or dead-letter jobs can be retried manually.")
  assertJobTransition job.status .queued
  return db.updateJob jobId (·.manualRetry db.now)

end ResearchWorkbench
