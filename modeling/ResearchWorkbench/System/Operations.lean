import ResearchWorkbench.Library.Transition
import ResearchWorkbench.Services.Orchestrator
import ResearchWorkbench.Services.SourceSearch

namespace ResearchWorkbench

/-!
# The system of all services

Every transaction of the job and run services is one operation on the database; an operation that
throws is rolled back.  The clock and the rest of the application are operations too.

* `Op δ`, `perform` — the operations and what they do;
* `transact` — an operation as the database sees it, rolled back if it throws;
* `Db.Initial`, `Db.Reachable` — the states of the system;
* `recoverExpiredJobs_run` — the recovery loop is a run of single recoveries.
-/

variable {δ : Type}

/-- The operations of the system.  `tick`, `setProject`, `approveRun` and `editDomain` are the
    clock, the project services, the approval service and the domain services. -/
inductive Op (δ : Type)
  | tick (ms : ℕ)
  | setProject (projectId : ℕ) (project : ProjectRow)
  | editDomain (edit : δ → δ)
  | approveRun (projectId : ℕ)
  | submitJob (input : SubmitJobInput)
  | claimJobs (input : ClaimJobsInput) (locked : List ℕ)
  | startJob (jobId workerId : ℕ) (expectedVersion : Option ℕ)
  | heartbeatJob (jobId workerId leaseDurationMs : ℕ)
  | completeJob (jobId workerId output : ℕ)
  | failJob (input : FailJobInput)
  | requestJobCancellation (jobId : ℕ) (requestedBy : String)
  | acknowledgeJobCancellation (jobId workerId : ℕ)
  | releaseJobLease (jobId workerId : ℕ)
  | recoverExpiredJob (jobId : ℕ) (runIds : Option (List ℕ)) (random : ℚ)
  | manualRetryJob (jobId : ℕ)
  | createResearchRun (input : CreateResearchRunInput)
  | requestResearchRunCancellation (runId : ℕ) (cancelledBy : String)
  | finalizeResearchRunCancellation (runId : ℕ)
  | resumeResearchRun (runId : ℕ)
  | startRunStage (runStageId : ℕ) (fence : RunStageJobFence)
  | recordRunStageProviderAttempt (runStageId : ℕ) (fence : RunStageJobFence)
      (input : ProviderAttempt)
  | queueRunStage (runStageId : ℕ) (fence : RunStageJobFence) (inputReference : InputReference)
      (idempotencyKey : JobKey)
  | commitRunStage (runStageId : ℕ) (fence : RunStageJobFence) (idempotencyKey : CommitKey)
      (output : StageOutput) (domainCommit : δ → Except ServiceError δ)
  | blockRunStage (runStageId : ℕ) (fence : RunStageJobFence) (errorClass : JobErrorClass)
      (reason : String)
  | setResearchRunBoundary (runStageId : ℕ) (fence : RunStageJobFence) (boundary : RunBoundary)
      (reason : Option String)
  | failRunStage (runStageId : ℕ) (fence : RunStageJobFence) (errorClass : JobErrorClass)
      (sanitizedError : String)
  | markDownstreamStagesStale (runStageId : ℕ)
  | restartRunStage (runStageId : ℕ) (idempotencyKey : JobKey) (inputReference : InputReference)
  | submitSourceSearchJob (input : SourceSearchInput)
  | reserveSourceSearchAttempt (jobId attempt workerId : ℕ)
  | commitSourceSearchResults (jobId attempt workerId output newCount : ℕ)
      (register : δ → Except ServiceError δ)

/-- The run is `COMPLETED` by human approval. -/
def ResearchRunRow.complete (run : ResearchRunRow) (now : ℕ) : ResearchRunRow :=
  { run with
    status := .completed
    progress := 100
    currentStage := none
    blockReason := none
    failureReason := none
    completedAt := some now
    version := run.version + 1 }

/-- What `runApprovalAction` does to runs when a project is approved: the newest run that waits for
    approval is completed. -/
def approveRun (db : Db δ) (projectId : ℕ) : Db δ :=
  match (idsWhere (fun _ run => run.projectId = projectId ∧ run.status = .approvalRequired)
      db.runs).getLast? with
  | some runId => db.updateRun runId (·.complete db.now)
  | none => db

/-- A project row is added or replaced. -/
def setProject (db : Db δ) (projectId : ℕ) (project : ProjectRow) : Db δ :=
  if projectId < db.projects.length then { db with projects := db.projects.set projectId project }
  else { db with projects := db.projects ++ [project] }

/-- A database without runs and jobs, at any time, with any projects and domain tables. -/
structure Db.Initial (db : Db δ) : Prop where
  runs : db.runs = []
  stages : db.stages = []
  commits : db.commits = []
  jobs : db.jobs = []
  jobAttempts : db.jobAttempts = []

/-- The database before anything was submitted to it. -/
def Db.initial (projects : List ProjectRow) (domain : δ) : Db δ where
  now := 0
  projects := projects
  runs := []
  stages := []
  commits := []
  jobs := []
  jobAttempts := []
  domain := domain

/-- A project whose scope and whose one research plan are approved. -/
def approvedProject : ProjectRow where
  scopeApproved := true
  planApproved := true
  scopeRevisionId := 0
  planRevisionId := 0
  questionCount := 1
  missingPlanCount := 0
  unapprovedCount := 0

theorem Db.initial_initial (projects : List ProjectRow) (domain : δ) :
    (Db.initial projects domain).Initial :=
  ⟨rfl, rfl, rfl, rfl, rfl⟩

section
variable [DomainStore δ]

/-- What an operation does. -/
def perform (db : Db δ) : Op δ → Except ServiceError (Db δ)
  | .tick ms => return { db with now := db.now + ms }
  | .setProject projectId project => return setProject db projectId project
  | .editDomain edit => return db.setDomain (edit db.domain)
  | .approveRun projectId => return approveRun db projectId
  | .submitJob input => SubmittedJob.db <$> submitJob db input
  | .claimJobs input locked => claimJobs db input locked
  | .startJob jobId workerId expectedVersion => startJob db jobId workerId expectedVersion
  | .heartbeatJob jobId workerId leaseDurationMs => heartbeatJob db jobId workerId leaseDurationMs
  | .completeJob jobId workerId output => completeJob db jobId workerId output
  | .failJob input => failJob db input
  | .requestJobCancellation jobId requestedBy => requestJobCancellation db jobId requestedBy
  | .acknowledgeJobCancellation jobId workerId => acknowledgeJobCancellation db jobId workerId
  | .releaseJobLease jobId workerId => releaseJobLease db jobId workerId
  | .recoverExpiredJob jobId runIds random => recoverExpiredJob db jobId runIds random
  | .manualRetryJob jobId => manualRetryJob db jobId
  | .createResearchRun input => CreatedRun.db <$> createResearchRun db input
  | .requestResearchRunCancellation runId cancelledBy =>
    requestResearchRunCancellation db runId cancelledBy
  | .finalizeResearchRunCancellation runId => finalizeResearchRunCancellation db runId
  | .resumeResearchRun runId => SubmittedJob.db <$> resumeResearchRun db runId
  | .startRunStage runStageId fence => startRunStage db runStageId fence
  | .recordRunStageProviderAttempt runStageId fence input =>
    recordRunStageProviderAttempt db runStageId fence input
  | .queueRunStage runStageId fence inputReference idempotencyKey =>
    SubmittedJob.db <$> queueRunStage db runStageId fence inputReference idempotencyKey
  | .commitRunStage runStageId fence idempotencyKey output domainCommit =>
    CommittedStage.db <$> commitRunStage db runStageId fence idempotencyKey output domainCommit
  | .blockRunStage runStageId fence errorClass reason =>
    blockRunStage db runStageId fence errorClass reason
  | .setResearchRunBoundary runStageId fence boundary reason =>
    setResearchRunBoundary db runStageId fence boundary reason
  | .failRunStage runStageId fence errorClass sanitizedError =>
    failRunStage db runStageId fence errorClass sanitizedError
  | .markDownstreamStagesStale runStageId => markDownstreamStagesStale db runStageId
  | .restartRunStage runStageId idempotencyKey inputReference =>
    SubmittedJob.db <$> restartRunStage db runStageId idempotencyKey inputReference
  | .submitSourceSearchJob input => SubmittedJob.db <$> submitSourceSearchJob db input
  | .reserveSourceSearchAttempt jobId attempt workerId =>
    reserveSourceSearchAttempt db jobId attempt workerId
  | .commitSourceSearchResults jobId attempt workerId output newCount register =>
    commitSourceSearchResults db jobId attempt workerId output newCount register

/-- `withTransaction`: an operation that throws leaves the database as it was. -/
def transact (db : Db δ) (op : Op δ) : Db δ :=
  match perform db op with
  | .ok db' => db'
  | .error _ => db

/-- The states reached by operations that each met `ok`. -/
def Db.ReachableBy (ok : Db δ → Op δ → Prop) (db : Db δ) : Prop :=
  ∃ db₀ : Db δ, db₀.Initial ∧ Reach transact ok db₀ db

/-- The states reached by any operations. -/
def Db.Reachable (db : Db δ) : Prop := db.ReachableBy Always

theorem transact_of_ok {db db' : Db δ} {op : Op δ} (h : perform db op = .ok db') :
    transact db op = db' := by
  simp [transact, h]

theorem transact_of_error {db : Db δ} {op : Op δ} {e : ServiceError} (h : perform db op = .error e) :
    transact db op = db := by
  simp [transact, h]

/-- **The invariant rule.**  What holds without runs and jobs and is kept by every operation that
    meets the guard and succeeds, holds in every reachable state. -/
theorem Db.ReachableBy.invariant {ok : Db δ → Op δ → Prop} {I : Db δ → Prop} {db : Db δ}
    (h : db.ReachableBy ok) (h₀ : ∀ db, db.Initial → I db)
    (hstep : ∀ db op db', I db → ok db op → perform db op = .ok db' → I db') : I db := by
  obtain ⟨db₀, hinit, hreach⟩ := h
  refine hreach.invariant (h₀ db₀ hinit) fun db op hI hok => ?_
  cases hrun : perform db op with
  | ok db' => rw [transact_of_ok hrun]; exact hstep db op db' hI hok hrun
  | error e => rwa [transact_of_error hrun]

/-- What operations that met the guard one after the other make of an initial database. -/
theorem Db.reachableBy_ofTrace {ok : Db δ → Op δ → Prop} {db : Db δ} {ops : List (Op δ)}
    (h₀ : db.Initial) (h : TraceOk transact ok db ops) : (ops.foldl transact db).ReachableBy ok :=
  ⟨db, h₀, .ofTrace h⟩

theorem Db.reachable_ofActions {db : Db δ} (h₀ : db.Initial) (ops : List (Op δ)) :
    (ops.foldl transact db).Reachable :=
  ⟨db, h₀, .ofActions db ops⟩

theorem recoverCandidates_run (runIds : Option (List ℕ)) (db : Db δ) (candidates : List (ℕ × ℚ)) :
    ∃ taken, List.Sublist taken candidates ∧ (recoverCandidates runIds db candidates).1 =
      (taken.map fun c => Op.recoverExpiredJob c.1 runIds c.2).foldl transact db := by
  induction candidates generalizing db with
  | nil => exact ⟨[], .slnil, rfl⟩
  | cons c rest ih =>
    obtain ⟨jobId, random⟩ := c
    simp only [recoverCandidates]
    cases h : recoverExpiredJob db jobId runIds random with
    | ok db' =>
      have hrun : perform db (.recoverExpiredJob jobId runIds random) = .ok db' := h
      rcases ih db' with ⟨taken, hsublist, hloop⟩
      refine ⟨(jobId, random) :: taken, hsublist.cons_cons _, ?_⟩
      rw [List.map_cons, List.foldl_cons, transact_of_ok hrun]
      exact hloop
    | error e =>
      -- a job that is gone is passed over, and any other error ends the loop
      simp only
      split
      · rcases ih db with ⟨taken, hsublist, hloop⟩
        exact ⟨taken, hsublist.cons _, hloop⟩
      · exact ⟨[], List.nil_sublist _, rfl⟩

/-- **The recovery loop.**  `recoverExpiredJobs` is a run of single recoveries, at most as many as were
    asked for: of jobs that had expired when it began, in their order. -/
theorem recoverExpiredJobs_run (db : Db δ) (limit : ℕ) (runIds : Option (List ℕ))
    (random : ℕ → ℚ) :
    ∃ taken : List (ℕ × ℚ), List.Sublist (taken.map (·.1)) (expiredCandidates db limit runIds) ∧
      taken.length ≤ limit ∧ (recoverExpiredJobs db limit runIds random).1 =
        (taken.map fun c => Op.recoverExpiredJob c.1 runIds c.2).foldl transact db := by
  unfold recoverExpiredJobs
  split
  · exact ⟨[], List.nil_sublist _, Nat.zero_le _, rfl⟩
  · rcases recoverCandidates_run runIds db ((expiredCandidates db limit runIds).zipIdx.map
      fun (id, i) => (id, random i)) with ⟨taken, hsublist, hloop⟩
    have hids := hsublist.map (·.1)
    rw [List.map_map, show (·.1) ∘ (fun p : ℕ × ℕ => (p.1, random p.2)) = Prod.fst from rfl,
      List.zipIdx_map_fst] at hids
    refine ⟨taken, hids, ?_, hloop⟩
    have hlength := hids.length_le
    rw [List.length_map] at hlength
    refine hlength.trans ?_
    unfold expiredCandidates
    rw [List.length_map]
    exact List.length_take_le _ _

end

end ResearchWorkbench
