import ResearchWorkbench.System.Frame

namespace ResearchWorkbench

/-!
# What an operation does to jobs

Everything an operation can do to a row of `jobs`, said once.

* `JobStep db op i job job'` — `op` may turn the job `i` from `job` into `job'`;
* `NewJob db op i job` — `op` may insert `job` with the id `i`;
* `perform_jobs` — a successful operation changes the jobs in these ways only;
-/

variable {δ : Type}

/-! ### Jobs -/

/-- `op` may change the job `i` so. -/
inductive JobStep (db : Db δ) : Op δ → ℕ → JobRow → JobRow → Prop
  | keep (op : Op δ) (i : ℕ) (job : JobRow) : JobStep db op i job job
  | claim {input : ClaimJobsInput} {locked : List ℕ} {i : ℕ} {job : JobRow}
      (candidate : i ∈ claimCandidates db input locked)
      (waiting : job.status.isWaiting) (attemptsLeft : job.attempts < job.maxAttempts) :
      JobStep db (.claimJobs input locked) i job
        (job.claim db.now input.workerId input.leaseDurationMs)
  | start {i workerId : ℕ} {version : Option ℕ} {job : JobRow}
      (owned : job.OwnedBy workerId db.now) (status : job.status = .claimed) :
      JobStep db (.startJob i workerId version) i job (job.start db.now)
  | heartbeat {i workerId leaseDurationMs : ℕ} {job : JobRow}
      (owned : job.OwnedBy workerId db.now) (status : job.status.isActive) :
      JobStep db (.heartbeatJob i workerId leaseDurationMs) i job
        (job.heartbeat db.now leaseDurationMs)
  | succeed {i workerId output : ℕ} {job : JobRow}
      (owned : job.OwnedBy workerId db.now) (status : job.status = .running) :
      JobStep db (.completeJob i workerId output) i job (job.succeed db.now output)
  | failAttempt {input : FailJobInput} {job : JobRow} (target : JobStatus) (delay : Option ℕ)
      (owned : job.OwnedBy input.workerId db.now) (status : job.status ∈ [.claimed, .running])
      (goal : target = .retryWait ∧ job.attempts < job.maxAttempts ∨
        target ∈ [.failed, .deadLetter]) :
      JobStep db (.failJob input) input.jobId job
        (job.failAttempt db.now target delay input.errorClass input.sanitizedError)
  | requestCancellation {i : ℕ} {requestedBy : String} {job : JobRow}
      (status : job.status ∈ [.queued, .retryWait, .claimed, .running]) :
      JobStep db (.requestJobCancellation i requestedBy) i job
        (job.requestCancellation db.now (cancellationTarget job.status))
  | cancelWithRun {i runId : ℕ} {cancelledBy : String} {job : JobRow}
      (run : job.runId = some runId)
      (status : job.status ∈ [.queued, .retryWait, .claimed, .running]) :
      JobStep db (.requestResearchRunCancellation runId cancelledBy) i job
        (job.requestCancellation db.now (cancellationTarget job.status))
  | acknowledge {i workerId : ℕ} {job : JobRow}
      (owned : job.OwnedBy workerId db.now) (status : job.status = .cancellationRequested) :
      JobStep db (.acknowledgeJobCancellation i workerId) i job
        (job.acknowledgeCancellation db.now)
  | release {i workerId : ℕ} {job : JobRow}
      (owned : job.OwnedBy workerId db.now) (status : job.status ∈ [.claimed, .running]) :
      JobStep db (.releaseJobLease i workerId) i job (job.release db.now .retryWait)
  | releaseCancelled {i workerId : ℕ} {job : JobRow}
      (owned : job.OwnedBy workerId db.now) (status : job.status = .cancellationRequested) :
      JobStep db (.releaseJobLease i workerId) i job (job.release db.now .cancelled)
  | expire {i : ℕ} {runIds : Option (List ℕ)} {random : ℚ} {job : JobRow} (delay : Option ℕ)
      (expired : job.leaseExpired db.now)
      (selected : ∀ ids ∈ runIds, ∃ runId ∈ job.runId, runId ∈ ids)
      (status : job.status.isActive) :
      JobStep db (.recoverExpiredJob i runIds random) i job
        (job.expire db.now (recoveredStatus job) delay)
  | manualRetry {i : ℕ} {job : JobRow} (stage : job.runStageId = none)
      (status : job.status ∈ [.failed, .deadLetter]) :
      JobStep db (.manualRetryJob i) i job (job.manualRetry db.now)
  | checkpoint {i attempt workerId output newCount : ℕ} {register : δ → Except ServiceError δ}
      {job : JobRow} (status : job.status = .running) :
      JobStep db (.commitSourceSearchResults i attempt workerId output newCount register) i job
        (job.checkpoint output)

/-- `op` may insert the job so. -/
inductive NewJob (db : Db δ) : Op δ → SubmitJobInput → Prop
  | submit (input : SubmitJobInput) : NewJob db (.submitJob input) input
  | search {input : SourceSearchInput}
      (run : ∀ runId ∈ input.runId, ∃ run, db.runs[runId]? = some run ∧
        run.status ∉ [.cancelling, .cancelled, .failed, .completed]) :
      NewJob db (.submitSourceSearchJob input) (sourceSearchJob input)
  | create (input : CreateResearchRunInput) (request : RunRequest) (initial : InputReference) :
      NewJob db (.createResearchRun input)
        (pipelineStageJob db.runs.length (newResearchRun input request) db.stages.length
          .intakeAnalysis initial (.stage db.runs.length .intakeAnalysis 1))
  | resume {runId i : ℕ} {run : ResearchRunRow} {stage : RunStageRow} (input : InputReference)
      (runRow : db.runs[runId]? = some run)
      (first : firstUnfinishedStage db.stages runId = some (i, stage)) :
      NewJob db (.resumeResearchRun runId)
        (pipelineStageJob runId run i stage.stageId input
          (.resume runId stage.stageId stage.generation (run.version + 1)))
  | requeue {i : ℕ} {fence : RunStageJobFence} {input : InputReference} {key : JobKey}
      {run : ResearchRunRow} {stage : RunStageRow} (fenced : FencedStage db i fence run stage)
      (status : stage.status ≠ .stale) :
      NewJob db (.queueRunStage i fence input key)
        (pipelineStageJob stage.runId run i stage.stageId input key)
  | queueNext {i : ℕ} {fence : RunStageJobFence} {input : InputReference} {key : JobKey}
      {run : ResearchRunRow} {stage : RunStageRow} (fenced : FencedStage db i fence run stage)
      (status : stage.status = .stale) :
      NewJob db (.queueRunStage i fence input key)
        (pipelineStageJob stage.runId run db.stages.length stage.stageId input key)
  | restart {i : ℕ} {key : JobKey} {input : InputReference} {run : ResearchRunRow}
      {stage : RunStageRow} (stageRow : db.stages[i]? = some stage)
      (runRow : db.runs[stage.runId]? = some run) :
      NewJob db (.restartRunStage i key input)
        (pipelineStageJob stage.runId run db.stages.length stage.stageId input key)

/-- `op` may insert the row `job` with the id `i`, the database becoming `db'`: with the next free
    id, under a key not yet taken, and with the rows it refers to. -/
def InsertsJob (db db' : Db δ) (op : Op δ) (i : ℕ) (job : JobRow) : Prop :=
  i = db.jobs.length ∧ ∃ input, NewJob db op input ∧ 1 ≤ input.maxAttempts ∧
    jobByKey db input.projectId input.idempotencyKey = none ∧ jobReferencesExist db' input ∧
    job = input.row db.now

/-! ### Where a job goes -/

theorem cancellationTarget_cases (status : JobStatus) :
    cancellationTarget status = .cancelled ∧ status.isWaiting ∨
      cancellationTarget status = .cancellationRequested ∧ ¬ status.isWaiting := by
  cases status <;> decide

theorem recoveredStatus_cases (job : JobRow) :
    recoveredStatus job = .cancelled ∧ job.status = .cancellationRequested ∨
      recoveredStatus job = .retryWait ∧ job.status ≠ .cancellationRequested ∧
        job.attempts < job.maxAttempts ∨
      recoveredStatus job = .deadLetter ∧ job.status ≠ .cancellationRequested := by
  unfold recoveredStatus
  split
  · exact .inl ⟨rfl, ‹_›⟩
  split
  · exact .inr (.inl ⟨rfl, ‹_›, ‹_›⟩)
  · exact .inr (.inr ⟨rfl, ‹_›⟩)

/-- What no step of a job changes. -/
structure SameLinks (job job' : JobRow) : Prop where
  projectId : job'.projectId = job.projectId
  runId : job'.runId = job.runId
  runStageId : job'.runStageId = job.runStageId
  jobType : job'.jobType = job.jobType
  idempotencyKey : job'.idempotencyKey = job.idempotencyKey
  inputReference : job'.inputReference = job.inputReference

theorem JobStep.sameLinks {db : Db δ} {op : Op δ} {i : ℕ} {job job' : JobRow}
    (h : JobStep db op i job job') : SameLinks job job' := by
  cases h <;> exact ⟨rfl, rfl, rfl, rfl, rfl, rfl⟩

/-- Only a job without a stage comes back to life, and only by hand. -/
theorem JobStep.isLive {db : Db δ} {op : Op δ} {i : ℕ} {job job' : JobRow}
    (h : JobStep db op i job job') (hlive : job'.status.isLive) :
    job.status.isLive ∨ op = .manualRetryJob i ∧ job.runStageId = none := by
  cases h with
  | keep => exact .inl hlive
  | claim _ hwaiting _ => exact .inl ((isLive_iff _).mpr (.inr hwaiting))
  | start _ hstatus => exact .inl (by rw [hstatus]; rfl)
  | heartbeat _ hactive => exact .inl ((isLive_iff _).mpr (.inl hactive))
  | succeed _ hstatus => exact .inl (by rw [hstatus]; rfl)
  | failAttempt _ _ _ hstatus _ =>
    exact .inl ((isLive_iff _).mpr (.inl (isActive_of_executing hstatus)))
  | requestCancellation hstatus => exact .inl (isLive_of_cancellable hstatus)
  | cancelWithRun _ hstatus => exact .inl (isLive_of_cancellable hstatus)
  | acknowledge _ hstatus => exact .inl (by rw [hstatus]; rfl)
  | release _ hstatus =>
    exact .inl ((isLive_iff _).mpr (.inl (isActive_of_executing hstatus)))
  | releaseCancelled _ hstatus => exact .inl (by rw [hstatus]; rfl)
  | expire _ _ _ hactive => exact .inl ((isLive_iff _).mpr (.inl hactive))
  | manualRetry hstage _ => exact .inr ⟨rfl, hstage⟩
  | checkpoint _ => exact .inl hlive

/-! ### The operations -/

section
variable {db db' : Db δ}

/-- What a submission into a database with the same jobs does to them. -/
theorem Submits.jobs {db₁ : Db δ} {op : Op δ} {input : SubmitJobInput} {r : SubmittedJob δ}
    (h : Submits db₁ input r) (hjobs : db₁.jobs = db.jobs) (hnow : db₁.now = db.now)
    (hnew : NewJob db op input) :
    TableStep (JobStep db op) (InsertsJob db r.db op) db.jobs r.db.jobs := by
  cases h with
  | inserted key references max =>
    have hkey : jobByKey db input.projectId input.idempotencyKey = none := by
      simpa only [jobByKey, hjobs] using key
    have href : jobReferencesExist (db₁.insertJob (input.row db₁.now)) input := by
      refine ⟨references.1, references.2.1, references.2.2.1, fun jobId hjobId => ?_⟩
      have := references.2.2.2 jobId hjobId
      simp only [Db.insertJob_jobs, List.length_append]
      omega
    simp only [Db.insertJob_jobs, hjobs]
    refine TableStep.append_singleton (.refl (.keep op) _) ?_
    exact ⟨rfl, input, hnew, max, hkey, href, by rw [hnow]⟩
  | existing _ _ _ =>
    simp only [hjobs]
    exact .refl (.keep op) _

/-- One job changes as `JobStep` allows. -/
theorem JobStep.modify {op : Op δ} {N : ℕ → JobRow → Prop} {i : ℕ} {job : JobRow}
    {f : JobRow → JobRow} (hjob : db.jobs[i]? = some job) (hstep : JobStep db op i job (f job)) :
    TableStep (JobStep db op) N db.jobs (db.jobs.modify i f) :=
  .modify (.keep op) hjob hstep

variable [DomainStore δ] {op : Op δ}

/-- **Jobs.**  Every successful operation changes and inserts jobs only as `JobStep` and
    `NewJob` allow. -/
theorem perform_jobs (h : perform db op = .ok db') :
    TableStep (JobStep db op) (InsertsJob db db' op) db.jobs db'.jobs := by
  have hkeep {N : ℕ → JobRow → Prop} : TableStep (JobStep db op) N db.jobs db.jobs :=
    .refl (.keep op) _
  cases op with
  | submitJob input =>
    obtain ⟨r, hr, rfl⟩ := map_eq_ok.mp h
    exact (submitJob_ok hr).jobs rfl rfl (.submit input)
  | claimJobs input locked =>
    obtain rfl := claimJobs_ok h
    refine .updateWhere (.keep _) fun i job hjob hi => ?_
    have hmem : i ∈ claimCandidates db input locked := by simpa using hi
    obtain ⟨job', hjob', hcand⟩ := mem_claimCandidates hmem
    obtain rfl : job = job' := Option.some.inj (hjob.symm.trans hjob')
    simp only [ClaimJobsInput.candidate, Bool.and_eq_true, decide_eq_true_eq] at hcand
    exact .claim hmem hcand.1.1.1.1 hcand.1.1.2
  | startJob jobId workerId version =>
    obtain ⟨job, hjob, howned, hstatus, rfl⟩ := startJob_ok h
    exact JobStep.modify hjob (.start howned hstatus)
  | heartbeatJob jobId workerId lease =>
    obtain ⟨job, hjob, howned, hstatus, rfl⟩ := heartbeatJob_ok h
    exact JobStep.modify hjob (.heartbeat howned hstatus)
  | completeJob jobId workerId output =>
    obtain ⟨job, hjob, howned, hstatus, rfl⟩ := completeJob_ok h
    exact JobStep.modify hjob (.succeed howned hstatus)
  | failJob input =>
    obtain ⟨job, target, delay, hjob, howned, hstatus, ⟨ht, hlt, rfl⟩ | ⟨ht, hrec⟩⟩ := failJob_ok h
    · exact JobStep.modify hjob (.failAttempt target delay howned hstatus (.inl ⟨ht, hlt⟩))
    · rw [(reconcileLinkedJobFailure_runsOnly hrec).jobs]
      exact JobStep.modify hjob (.failAttempt target delay howned hstatus (.inr ht))
  | requestJobCancellation jobId requestedBy =>
    obtain ⟨job, hjob, ⟨rfl, _⟩ | ⟨hstatus, hrec⟩⟩ := requestJobCancellation_ok h
    · exact hkeep
    · rw [(reconcileLinkedJobCancellation_runsOnly hrec).jobs]
      exact JobStep.modify hjob (.requestCancellation hstatus)
  | acknowledgeJobCancellation jobId workerId =>
    obtain ⟨job, hjob, howned, hstatus, hrec⟩ := acknowledgeJobCancellation_ok h
    rw [(reconcileLinkedJobCancellation_runsOnly hrec).jobs]
    exact JobStep.modify hjob (.acknowledge howned hstatus)
  | releaseJobLease jobId workerId =>
    obtain ⟨job, hjob, howned, ⟨hstatus, rfl⟩ | ⟨hstatus, hrec⟩⟩ := releaseJobLease_ok h
    · exact JobStep.modify hjob (.release howned hstatus)
    · rw [(reconcileLinkedJobCancellation_runsOnly hrec).jobs]
      exact JobStep.modify hjob (.releaseCancelled howned hstatus)
  | recoverExpiredJob jobId runIds random =>
    obtain ⟨rfl, _⟩ | ⟨job, delay, hjob, hexpired, hids, hstatus, hcase⟩ :=
      recoverExpiredJob_ok h
    · exact hkeep
    have hstep {N : ℕ → JobRow → Prop} :
        TableStep (JobStep db (.recoverExpiredJob jobId runIds random)) N db.jobs
          (db.jobs.modify jobId fun _ => job.expire db.now (recoveredStatus job) delay) :=
      JobStep.modify hjob (.expire delay hexpired hids hstatus)
    obtain ⟨_, hrec⟩ | ⟨_, hrec⟩ | ⟨_, rfl⟩ := hcase
    · rw [(reconcileLinkedJobFailure_runsOnly hrec).jobs]
      exact hstep
    · rw [(reconcileLinkedJobCancellation_runsOnly hrec).jobs]
      exact hstep
    · exact hstep
  | manualRetryJob jobId =>
    obtain ⟨job, hjob, hstage, hstatus, rfl⟩ := manualRetryJob_ok h
    exact JobStep.modify hjob (.manualRetry hstage hstatus)
  | createResearchRun input =>
    obtain ⟨r, hr, rfl⟩ := map_eq_ok.mp h
    obtain hsame | ⟨request, initial, s, _, hsubmit, hdb⟩ := createResearchRun_ok hr
    · rw [hsame]; exact hkeep
    · rw [hdb]; exact hsubmit.jobs rfl rfl (.create input request initial)
  | requestResearchRunCancellation runId cancelledBy =>
    obtain ⟨run, _, rfl | ⟨_, _, _, _, hruns, _⟩⟩ := requestResearchRunCancellation_ok h
    · exact hkeep
    · rw [hruns.jobs]
      refine .updateWhere (.keep _) fun i job _ hi => ?_
      unfold JobRow.cancelWithRun
      split
      · exact .cancelWithRun (by simpa using hi) ‹_›
      · exact .keep _ _ _
  | resumeResearchRun runId =>
    obtain ⟨r, hr, rfl⟩ := map_eq_ok.mp h
    obtain ⟨run, i, stage, input, hrun, _, hfirst, _, hsubmit⟩ := resumeResearchRun_ok hr
    exact hsubmit.jobs rfl rfl (.resume input hrun hfirst)
  | queueRunStage i fence input key =>
    obtain ⟨r, hr, rfl⟩ := map_eq_ok.mp h
    obtain ⟨run, stage, hfenced, _, _, ⟨hstale, _, hsubmit⟩ | ⟨hstatus, hsubmit⟩⟩ :=
      queueRunStage_ok hr
    · exact hsubmit.jobs rfl rfl (.queueNext hfenced hstale)
    · refine hsubmit.jobs rfl rfl (.requeue hfenced ?_)
      rintro hstale
      simp [hstale] at hstatus
  | restartRunStage i key input =>
    obtain ⟨r, hr, rfl⟩ := map_eq_ok.mp h
    obtain ⟨run, stage, hstage, hrun, hsame | ⟨_, _, _, _, _, hsubmit⟩⟩ := restartRunStage_ok hr
    · rw [hsame]; exact hkeep
    · exact hsubmit.jobs rfl rfl (.restart hstage hrun)
  | submitSourceSearchJob input =>
    obtain ⟨r, hr, rfl⟩ := map_eq_ok.mp h
    obtain ⟨hsubmit, hrun⟩ := submitSourceSearchJob_ok hr
    exact hsubmit.jobs rfl rfl (.search hrun)
  | commitSourceSearchResults jobId attempt workerId output newCount register =>
    obtain ⟨_, _, _, _, _, rfl⟩ | ⟨job, _, hjob, hstatus, _, rfl⟩ := commitSourceSearchResults_ok h
    · unfold blockRunForSearchBudget
      split <;> exact hkeep
    · exact JobStep.modify hjob (.checkpoint hstatus)
  | _ =>
    rw [(perform_framed h).jobs rfl]
    exact hkeep

end

end ResearchWorkbench
