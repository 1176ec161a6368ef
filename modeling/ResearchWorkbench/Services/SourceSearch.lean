import ResearchWorkbench.Services.ResearchRuns

namespace ResearchWorkbench

/-!
# Run-linked source searches

The transactions of `lib/services/source-search-jobs.ts` that touch jobs and runs.

* `submitSourceSearchJob` — a search job, linked to a run or to the project alone;
* `reserveSourceSearchAttempt` — the budget check before the provider is called;
* `commitSourceSearchResults` — the checkpoint of its results.
-/

variable {δ : Type}

/-- The arguments of `submitSourceSearchJob`; attempts and time limit come from the
    configuration. -/
structure SourceSearchInput where
  projectId : ℕ
  runId : Option ℕ := none
  query : ℕ
  count : ℕ
  callerKey : ℕ
  maxAttempts : ℕ := 3
  timeoutMs : ℕ := 300000

/-- The job that `submitSourceSearchJob` submits. -/
def sourceSearchJob (input : SourceSearchInput) : SubmitJobInput where
  projectId := some input.projectId
  runId := input.runId
  jobType := .sourceSearch
  inputReference := .sourceSearch input.projectId input.runId input.query input.count
  idempotencyKey := .sourceSearch input.runId input.callerKey
  priority := 15
  maxAttempts := input.maxAttempts
  timeoutMs := input.timeoutMs

/-- `submitSourceSearchJob({ projectId, rawInput, actor, requestIdempotencyKey })`. -/
def submitSourceSearchJob (db : Db δ) (input : SourceSearchInput) :
    Except ServiceError (SubmittedJob δ) := do
  ensure (input.projectId < db.projects.length) (notFound "Project")
  match input.runId with
  | some runId => do
    let run ← require (db.runs[runId]?.filter fun run => run.projectId = input.projectId)
      (notFound "Research run")
    ensure (run.status ∉ [.cancelling, .cancelled, .failed, .completed])
      (conflict .RUN_NOT_SEARCHABLE
        "Search work cannot be added to a terminal or cancelling research run.")
  | none => pure ()
  submitJobInTransaction db (sourceSearchJob input)

/-- `parseSourceSearchJob(job)`: the project, the run and the number of results asked for. -/
def parseSourceSearchJob (job : JobRow) : Except ServiceError (ℕ × Option ℕ × ℕ) :=
  match job.inputReference with
  | .sourceSearch projectId runId _ count => do
    ensure (job.jobType = .sourceSearch ∧ job.projectId = some projectId ∧ job.runId = runId)
      (.search .INVALID_SEARCH_JOB "The job is not a source-search job." .nonRetryableValidation)
    return (projectId, runId, count)
  | _ => .error (.search .INVALID_SEARCH_JOB "The job is not a source-search job."
      .nonRetryableValidation)

/-- `lockFencedSearchJob(client, job, workerId)`. -/
def lockFencedSearchJob (db : Db δ) (jobId attempt workerId : ℕ) : Except ServiceError JobRow :=
  require (db.jobs[jobId]?.filter fun job => job.jobType = .sourceSearch ∧ job.status = .running ∧
      job.leaseOwner = some workerId ∧ job.attempts = attempt ∧ job.leaseCurrent db.now)
    (.search .JOB_LEASE_LOST "The worker no longer owns the current source-search attempt."
      .unknown)

/-- `lockSearchRun(client, payload)`. -/
def lockSearchRun (db : Db δ) (projectId : ℕ) (runId : Option ℕ) :
    Except ServiceError (Option (ℕ × ResearchRunRow)) :=
  match runId with
  | none => return none
  | some runId => do
    let run ← require (db.runs[runId]?.filter fun run => run.projectId = projectId)
      (.search .SEARCH_RUN_DELETED "The linked research run no longer exists." .cancelled)
    ensure (run.status ∉ [.cancelling, .cancelled])
      (.search .SEARCH_RUN_CANCELLED "The linked research run is cancelling or cancelled."
        .cancelled)
    ensure (run.status ∉ [.failed, .completed])
      (.search .SEARCH_RUN_TERMINAL "The linked research run is already terminal."
        .nonRetryableUserInput)
    return some (runId, run)

/-- The run is `BLOCKED` by its search budget. -/
def ResearchRunRow.blockForSearch (run : ResearchRunRow) (reason : String) : ResearchRunRow :=
  { run with status := .blocked, blockReason := some reason, version := run.version + 1 }

/-- `blockRunForSearchBudget(client, run, { violations })`. -/
def blockRunForSearchBudget (db : Db δ) (runId : ℕ) (run : ResearchRunRow)
    (violations : List String) : Db δ :=
  if run.status ≠ .blocked ∧ canTransitionResearchRun run.status .blocked then
    db.updateRun runId
      (·.blockForSearch ("Source search budget exceeded: " ++ ", ".intercalate violations ++ "."))
  else
    db

/-- One more search request of the run is counted. -/
def ResearchRunRow.countSearch (run : ResearchRunRow) : ResearchRunRow :=
  { run with totalSearchRequests := run.totalSearchRequests + 1, version := run.version + 1 }

/-- `reserveSourceSearchAttempt({ job, workerId })`, of the attempt the worker holds.  A budget
    violation is committed with the run it blocks. -/
def reserveSourceSearchAttempt [DomainStore δ] (db : Db δ) (jobId attempt workerId : ℕ) :
    Except ServiceError (Db δ) := do
  let job ← lockFencedSearchJob db jobId attempt workerId
  let (projectId, runId, count) ← parseSourceSearchJob job
  ensure (projectId < db.projects.length)
    (.search .PROJECT_DELETED "The project was deleted before source search completed." .cancelled)
  let reserve (db : Db δ) : Except ServiceError (Db δ) := do
    ensure (∃ a ∈ db.jobAttempts, a.jobId = jobId ∧ a.attemptNumber = attempt ∧ a.status = .running)
      (.search .SEARCH_ATTEMPT_NOT_RUNNING "The source-search job attempt is not running." .unknown)
    return db
  match ← lockSearchRun db projectId runId with
  | none => reserve db
  | some (runId, run) =>
    let sourceCount := DomainStore.sourceCount projectId db.domain
    let violations :=
      (if run.budget.maxSearchRequests < run.totalSearchRequests + 1 then ["MAX_SEARCH_REQUESTS"]
        else []) ++
      if run.budget.maxSources < sourceCount + count then ["MAX_SOURCES"] else []
    if violations ≠ [] then
      return blockRunForSearchBudget db runId run violations
    else do
      let db ← reserve db
      return db.updateRun runId (·.countSearch)

/-- The results are checkpointed on the job. -/
def JobRow.checkpoint (job : JobRow) (output : ℕ) : JobRow :=
  { job with outputReference := some output, version := job.version + 1 }

/-- `commitSourceSearchResults({ job, workerId, executionId, response })`: `newCount` sources are
    new, and `register` adds them to the domain tables. -/
def commitSourceSearchResults [DomainStore δ] (db : Db δ) (jobId attempt workerId output : ℕ)
    (newCount : ℕ) (register : δ → Except ServiceError δ) : Except ServiceError (Db δ) := do
  let job ← lockFencedSearchJob db jobId attempt workerId
  let (projectId, runId, _) ← parseSourceSearchJob job
  ensure (projectId < db.projects.length)
    (.search .PROJECT_DELETED "The project was deleted before source search completed." .cancelled)
  let commit : Except ServiceError (Db δ) := do
    let domain ← register db.domain
    return (db.setDomain domain).updateJob jobId (·.checkpoint output)
  match ← lockSearchRun db projectId runId with
  | none => commit
  | some (runId, run) =>
    if run.budget.maxSources < DomainStore.sourceCount projectId db.domain + newCount then
      return blockRunForSearchBudget db runId run ["MAX_SOURCES"]
    else
      commit

end ResearchWorkbench
