import ResearchWorkbench.Services.JobEffects
import ResearchWorkbench.Services.Orchestrator
import ResearchWorkbench.Services.SourceSearch

namespace ResearchWorkbench

/-!
# What the run calls do

One inversion lemma for each transaction of the run, run-stage and source-search services.

* `FenceValid`, `FencedStage` — the fence and the rows it opens;
* `requestJobCancellations_ok` — the cancellation loop in closed form;
* `createResearchRun_ok`, `resumeResearchRun_ok`, `commitRunStage_ok`, … — the calls.
-/

variable {δ : Type} {db db' : Db δ} {runId runStageId : ℕ} {fence : RunStageJobFence}

/-! ### The fence -/

/-- The fence satisfies `assertCurrentRunStageJob`. -/
def FenceValid (db : Db δ) (runId : ℕ) (fence : RunStageJobFence) : Prop :=
  assertCurrentRunStageJob db runId fence = .ok ()

theorem fenceValid_iff :
    FenceValid db runId fence ↔
      ∃ job, db.jobs[fence.jobId]? = some job ∧ job.matchesFence db.now runId fence := by
  simp [FenceValid, assertCurrentRunStageJob, ensure_eq_ok]

theorem matchesFence_iff {job : JobRow} {now : ℕ} :
    job.matchesFence now runId fence ↔ job.runId = some runId ∧
      job.runStageId = some fence.runStageId ∧ job.attempts = fence.attempt ∧
      job.leaseOwner = some fence.workerId ∧ job.status = .running ∧ job.leaseCurrent now := by
  simp only [JobRow.matchesFence, Bool.and_eq_true, decide_eq_true_eq, and_assoc]

/-- The rows that a fenced call works on. -/
structure FencedStage (db : Db δ) (runStageId : ℕ) (fence : RunStageJobFence)
    (run : ResearchRunRow) (stage : RunStageRow) : Prop where
  stageRow : db.stages[runStageId]? = some stage
  runRow : db.runs[stage.runId]? = some run
  valid : FenceValid db stage.runId fence

theorem lockStageProjectFirst_ok {allow : Bool} {locked : LockedStage}
    (h : lockStageProjectFirst db runStageId (some fence) allow = .ok locked) :
    FencedStage db runStageId fence locked.run locked.stage ∧
      (allow ∨ fence.runStageId = runStageId) := by
  simp only [lockStageProjectFirst, bind_eq_ok, require_eq_ok, ensure_eq_ok, pure_eq_ok] at h
  obtain ⟨stage, hstage, run, hrun, _, _, _, hallow, _, hvalid, rfl⟩ := h
  exact ⟨⟨hstage, hrun, hvalid⟩, hallow⟩

theorem lockStageProjectFirst_none_ok {allow : Bool} {locked : LockedStage}
    (h : lockStageProjectFirst db runStageId none allow = .ok locked) :
    db.stages[runStageId]? = some locked.stage ∧ db.runs[locked.stage.runId]? = some locked.run := by
  simp only [lockStageProjectFirst, bind_eq_ok, require_eq_ok, ensure_eq_ok, pure_eq_ok] at h
  obtain ⟨stage, hstage, run, hrun, _, _, _, _, rfl⟩ := h
  exact ⟨hstage, hrun⟩

/-- Every stage that the given one depends on has succeeded in its newest generation. -/
def DependenciesSucceeded (db : Db δ) (stage : RunStageRow) : Prop :=
  ∀ dependency ∈ (getPipelineStageDefinition stage.stageId).dependencies,
    stageSucceeded db.stages stage.runId dependency

theorem assertDependenciesSucceeded_eq_ok {stage : RunStageRow} {u : Unit} :
    assertDependenciesSucceeded db stage = .ok u ↔ DependenciesSucceeded db stage := by
  simp only [assertDependenciesSucceeded, ensure_eq_ok, DependenciesSucceeded,
    List.filter_eq_nil_iff, Bool.not_eq_true', Bool.not_eq_false]

/-! ### Executing a stage -/

theorem assertRunStarts_ok {status : ResearchRunStatus} {u : Unit}
    (h : assertRunStarts status = .ok u) : status ∈ [.queued, .running] := by
  unfold assertRunStarts at h
  split at h
  · simp_all
  · simp_all [ensure_eq_ok]

theorem startRunStage_ok (h : startRunStage db runStageId fence = .ok db') :
    ∃ run stage, FencedStage db runStageId fence run stage ∧ fence.runStageId = runStageId ∧
      DependenciesSucceeded db stage ∧ stage.status ∈ [.queued, .running] ∧
      run.status ∈ [.queued, .running] ∧
      db' = (db.updateStage runStageId (·.start db.now)).updateRun stage.runId
        (·.startStage db.now stage.stageId) := by
  simp only [startRunStage, bind_eq_ok, pure_eq_ok, assertRunStageReaches_eq_ok] at h
  obtain ⟨⟨run, stage⟩, hlock, _, hdeps, _, hstage, _, hrun, rfl⟩ := h
  obtain ⟨hfenced, hid⟩ := lockStageProjectFirst_ok hlock
  exact ⟨run, stage, hfenced, by simpa using hid, assertDependenciesSucceeded_eq_ok.mp hdeps,
    reaches_running.mp hstage, assertRunStarts_ok hrun, rfl⟩

theorem recordRunStageProviderAttempt_ok {input : ProviderAttempt}
    (h : recordRunStageProviderAttempt db runStageId fence input = .ok db') :
    ∃ run stage, FencedStage db runStageId fence run stage ∧ fence.runStageId = runStageId ∧
      stage.status = .running ∧ (stage.providerExecutionId = some input.providerExecutionId ∧
        db' = db ∨ stage.providerExecutionId ≠ some input.providerExecutionId ∧
        db' = (db.updateStage runStageId (·.recordAttempt input)).updateRun stage.runId
          (·.recordAttempt input)) := by
  simp only [recordRunStageProviderAttempt, bind_eq_ok, ensure_eq_ok] at h
  obtain ⟨⟨run, stage⟩, hlock, _, hstatus, h⟩ := h
  obtain ⟨hfenced, hid⟩ := lockStageProjectFirst_ok hlock
  refine ⟨run, stage, hfenced, by simpa using hid, hstatus, ?_⟩
  split at h
  · exact .inl ⟨‹_›, (pure_eq_ok.mp h).symm⟩
  · exact .inr ⟨‹_›, (pure_eq_ok.mp h).symm⟩

/-- The status of a run whose stage of the given ordinal was committed. -/
def committedRunStatus (ordinal : ℕ) : ResearchRunStatus :=
  if (pipelineStageAt (ordinal + 1)).isSome then .running else .qaRequired

/-- A commit finds its key taken and changes nothing, or it moves a running stage to `SUCCEEDED`. -/
theorem commitRunStage_ok {key : CommitKey} {output : StageOutput}
    {domainCommit : δ → Except ServiceError δ} {r : CommittedStage δ}
    (h : commitRunStage db runStageId fence key output domainCommit = .ok r) :
    ∃ run stage, FencedStage db runStageId fence run stage ∧ fence.runStageId = runStageId ∧
      (r = ⟨false, db⟩ ∧
        (∃ commit, existingCommit db runStageId stage.generation key = some commit) ∨
      existingCommit db runStageId stage.generation key = none ∧ stage.status = .running ∧
        DependenciesSucceeded db stage ∧
        (run.status = committedRunStatus stage.ordinal ∨
          canTransitionResearchRun run.status (committedRunStatus stage.ordinal)) ∧
        ∃ domain currentStage progress, domainCommit db.domain = .ok domain ∧ r = ⟨true,
          (((db.setDomain domain).insertCommit
            ⟨runStageId, stage.generation, key, output.hash⟩).updateStage runStageId
              (·.succeed db.now output)).updateRun stage.runId
                (·.commit (committedRunStatus stage.ordinal) currentStage progress)⟩) := by
  simp only [commitRunStage, bind_eq_ok] at h
  obtain ⟨⟨run, stage⟩, hlock, h⟩ := h
  obtain ⟨hfenced, hid⟩ := lockStageProjectFirst_ok hlock
  refine ⟨run, stage, hfenced, by simpa using hid, ?_⟩
  split at h
  · simp only [bind_eq_ok, pure_eq_ok] at h
    obtain ⟨_, _, rfl⟩ := h
    exact .inl ⟨rfl, _, ‹_›⟩
  · simp only [bind_eq_ok, ensure_eq_ok, pure_eq_ok, assertResearchRunReaches_eq_ok] at h
    obtain ⟨_, hstatus, _, hdeps, domain, hdomain, _, _, _, hrun, rfl⟩ := h
    exact .inr ⟨‹_›, hstatus, assertDependenciesSucceeded_eq_ok.mp hdeps, hrun, domain, _, _, hdomain, rfl⟩

/-! ### Where a run stops -/

theorem blockRunStage_ok {errorClass : JobErrorClass} {reason : String}
    (h : blockRunStage db runStageId fence errorClass reason = .ok db') :
    ∃ run stage, FencedStage db runStageId fence run stage ∧ fence.runStageId = runStageId ∧
      (db' = db ∧ stage.status = .blocked ∧ run.status = .blocked ∨
        stage.status ∈ [.pending, .queued, .running, .blocked] ∧
        (run.status = .blocked ∨ canTransitionResearchRun run.status .blocked) ∧
        db' = (db.updateStage runStageId (·.block db.now errorClass reason)).updateRun stage.runId
          (·.block reason)) := by
  simp only [blockRunStage, bind_eq_ok] at h
  obtain ⟨⟨run, stage⟩, hlock, h⟩ := h
  obtain ⟨hfenced, hid⟩ := lockStageProjectFirst_ok hlock
  refine ⟨run, stage, hfenced, by simpa using hid, ?_⟩
  split at h
  · rename_i hboth
    exact .inl ⟨(pure_eq_ok.mp h).symm, hboth⟩
  · simp only [bind_eq_ok, pure_eq_ok, assertRunStageReaches_eq_ok,
      assertResearchRunReaches_eq_ok] at h
    obtain ⟨_, hstage, _, hrun, rfl⟩ := h
    exact .inr ⟨reaches_blocked.mp hstage, hrun, rfl⟩

theorem setResearchRunBoundary_ok {boundary : RunBoundary} {reason : Option String}
    (h : setResearchRunBoundary db runStageId fence boundary reason = .ok db') :
    ∃ run stage, FencedStage db runStageId fence run stage ∧ fence.runStageId = runStageId ∧
      stage.status = .succeeded ∧ (run.status = boundary.status ∧ db' = db ∨
        run.status ≠ boundary.status ∧ canTransitionResearchRun run.status boundary.status ∧
        db' = db.updateRun stage.runId (·.reachBoundary boundary reason)) := by
  simp only [setResearchRunBoundary, bind_eq_ok, ensure_eq_ok] at h
  obtain ⟨⟨run, stage⟩, hlock, _, hstatus, h⟩ := h
  obtain ⟨hfenced, hid⟩ := lockStageProjectFirst_ok hlock
  refine ⟨run, stage, hfenced, by simpa using hid, hstatus, ?_⟩
  split at h
  · exact .inl ⟨‹_›, (pure_eq_ok.mp h).symm⟩
  · simp only [bind_eq_ok, pure_eq_ok, assertResearchRunTransition, ensure_eq_ok] at h
    obtain ⟨_, hrun, rfl⟩ := h
    exact .inr ⟨‹_›, hrun, rfl⟩

theorem failRunStage_ok {errorClass : JobErrorClass} {sanitizedError : String}
    (h : failRunStage db runStageId fence errorClass sanitizedError = .ok db') :
    ∃ run stage, FencedStage db runStageId fence run stage ∧ fence.runStageId = runStageId ∧
      stage.status ∈ [.queued, .running] ∧
      (run.status = .failed ∨ canTransitionResearchRun run.status .failed) ∧
      db' = (db.updateStage runStageId (·.fail db.now errorClass sanitizedError)).updateRun
        stage.runId (·.fail db.now sanitizedError) := by
  simp only [failRunStage, bind_eq_ok, pure_eq_ok, assertRunStageTransition, ensure_eq_ok,
    assertResearchRunReaches_eq_ok] at h
  obtain ⟨⟨run, stage⟩, hlock, _, hstage, _, hrun, rfl⟩ := h
  obtain ⟨hfenced, hid⟩ := lockStageProjectFirst_ok hlock
  exact ⟨run, stage, hfenced, by simpa using hid, reaches_failed.mp hstage, hrun, rfl⟩

/-! ### Stage generations -/

theorem insertRunStage_ok {row : RunStageRow} (h : insertRunStage db row = .ok db') :
    (∀ stage ∈ db.stages, ¬ (stage.runId = row.runId ∧ stage.stageId = row.stageId ∧
      stage.generation = row.generation)) ∧ db' = db.insertStages [row] := by
  simp only [insertRunStage, bind_eq_ok, ensure_eq_ok, pure_eq_ok] at h
  obtain ⟨_, hunique, rfl⟩ := h
  exact ⟨hunique, rfl⟩

/-- A stage is queued as a new generation if it was stale, else in place. -/
theorem queueRunStage_ok {inputReference : InputReference} {key : JobKey} {r : SubmittedJob δ}
    (h : queueRunStage db runStageId fence inputReference key = .ok r) :
    ∃ run stage, FencedStage db runStageId fence run stage ∧ run.status ∈ [.queued, .running] ∧
      DependenciesSucceeded db stage ∧
      (stage.status = .stale ∧
        (∀ other ∈ db.stages, ¬ (other.runId = stage.runId ∧ other.stageId = stage.stageId ∧
          other.generation = stage.generation + 1)) ∧
        Submits (db.insertStages [stage.nextGeneration inputReference])
          (pipelineStageJob stage.runId run db.stages.length stage.stageId inputReference key) r ∨
      stage.status ∈ [.pending, .queued, .failed, .cancelled, .blocked] ∧
        Submits (db.updateStage runStageId (·.requeue inputReference))
          (pipelineStageJob stage.runId run runStageId stage.stageId inputReference key) r) := by
  simp only [queueRunStage, bind_eq_ok, ensure_eq_ok, assertRunStageReaches_eq_ok] at h
  obtain ⟨⟨run, stage⟩, hlock, _, hrun, _, hdeps, _, hstage, h⟩ := h
  obtain ⟨hfenced, _⟩ := lockStageProjectFirst_ok hlock
  refine ⟨run, stage, hfenced, by simpa using hrun, assertDependenciesSucceeded_eq_ok.mp hdeps, ?_⟩
  split at h
  · simp only [bind_eq_ok] at h
    obtain ⟨_, hinsert, h⟩ := h
    obtain ⟨hunique, rfl⟩ := insertRunStage_ok hinsert
    exact .inl ⟨‹_›, hunique, submitJobInTransaction_ok h⟩
  · refine .inr ⟨?_, submitJobInTransaction_ok h⟩
    have := reaches_queued.mp hstage
    simp_all

theorem mem_succeededDownstream {stages : List RunStageRow} {ordinal id : ℕ} :
    id ∈ succeededDownstream stages runId ordinal ↔ ∃ s, stages[id]? = some s ∧ s.runId = runId ∧
      ordinal < s.ordinal ∧ isLatestGeneration stages s ∧ s.status = .succeeded := by
  simp [succeededDownstream, mem_idsWhere]

section
variable [DomainStore δ]

theorem markDownstreamStagesStale_ok (h : markDownstreamStagesStale db runStageId = .ok db') :
    ∃ run stage, db.stages[runStageId]? = some stage ∧ db.runs[stage.runId]? = some run ∧
      (db' = db ∨ let ids := succeededDownstream db.stages stage.runId stage.ordinal
      ∃ progress, db' = (markStagesStale db ids ids).updateRun stage.runId
        (·.markDownstreamStale stage.stageId progress)) := by
  simp only [markDownstreamStagesStale, bind_eq_ok] at h
  obtain ⟨⟨run, stage⟩, hlock, h⟩ := h
  obtain ⟨hstage, hrun⟩ := lockStageProjectFirst_none_ok hlock
  refine ⟨run, stage, hstage, hrun, ?_⟩
  split at h
  · exact .inl (pure_eq_ok.mp h).symm
  · exact .inr ⟨_, (pure_eq_ok.mp h).symm⟩

/-- The database in which a restarted stage is submitted: its later stages are stale, its next
    generation is queued, and so is its run. -/
def restartedDb (db : Db δ) (runStageId : ℕ) (stage : RunStageRow)
    (inputReference : InputReference) (progress : ℕ) : Db δ :=
  let ids := succeededDownstream db.stages stage.runId stage.ordinal
  ((markStagesStale db ids (runStageId :: ids)).insertStages
    [stage.nextGeneration inputReference]).updateRun stage.runId (·.restart stage.stageId progress)

/-- A restart finds its key taken, or it queues the next generation of a newest row in a run
    without active jobs. -/
theorem restartRunStage_ok {key : JobKey} {inputReference : InputReference} {r : SubmittedJob δ}
    (h : restartRunStage db runStageId key inputReference = .ok r) :
    ∃ run stage, db.stages[runStageId]? = some stage ∧ db.runs[stage.runId]? = some run ∧
      (r.db = db ∨
        isLatestGeneration db.stages stage ∧
        stage.status ∈ [.succeeded, .failed, .blocked, .stale, .cancelled] ∧
        db.activeJobCount stage.runId = 0 ∧
        (run.status = .queued ∨ canTransitionResearchRun run.status .queued) ∧
        ∃ progress, Submits (restartedDb db runStageId stage inputReference progress)
          (pipelineStageJob stage.runId run db.stages.length stage.stageId inputReference key)
          r) := by
  simp only [restartRunStage, bind_eq_ok] at h
  obtain ⟨⟨run, stage⟩, hlock, h⟩ := h
  obtain ⟨hstage, hrun⟩ := lockStageProjectFirst_none_ok hlock
  refine ⟨run, stage, hstage, hrun, ?_⟩
  split at h
  · simp only [bind_eq_ok, pure_eq_ok] at h
    obtain ⟨_, _, rfl⟩ := h
    exact .inl rfl
  · simp only [bind_eq_ok, ensure_eq_ok, assertResearchRunReaches_eq_ok] at h
    obtain ⟨_, hlatest, _, hstatus, _, hactive, _, hinsert, _, hreach, h⟩ := h
    obtain ⟨_, rfl⟩ := insertRunStage_ok hinsert
    obtain ⟨⟨id, row⟩, hrow, hid⟩ := (Option.any_eq_true _ _).mp hlatest
    obtain rfl : id = runStageId := by simpa using hid
    obtain ⟨hget, _, _, hmax⟩ := latestStage_eq_some hrow
    obtain rfl : stage = row := Option.some.inj (hstage.symm.trans hget)
    have hsubmit := submitJobInTransaction_ok h
    simp only [markStagesStale_stages, length_updateWhere] at hsubmit
    exact .inr ⟨hmax, hstatus, hactive, hreach, _, hsubmit⟩

end

/-! ### Runs -/

/-- A new run comes with its stages and the job of the first of them. -/
theorem createResearchRun_ok {input : CreateResearchRunInput} {r : CreatedRun δ}
    (h : createResearchRun db input = .ok r) :
    r.db = db ∨ ∃ request initialInput s, input.projectId < db.projects.length ∧
      Submits ((db.insertRun (newResearchRun input request)).insertStages
          (initialStages db.runs.length initialInput))
        (pipelineStageJob db.runs.length (newResearchRun input request) db.stages.length
          .intakeAnalysis initialInput (.stage db.runs.length .intakeAnalysis 1)) s ∧
      r.db = s.db := by
  simp only [createResearchRun, bind_eq_ok, require_eq_ok] at h
  obtain ⟨budget, _, project, hproject, _, _, _, _, _, _, h⟩ := h
  split at h
  · simp only [bind_eq_ok, pure_eq_ok] at h
    obtain ⟨_, _, rfl⟩ := h
    exact .inl rfl
  · simp only [bind_eq_ok, pure_eq_ok] at h
    obtain ⟨s, hsubmit, rfl⟩ := h
    exact .inr ⟨_, _, s, (List.getElem?_eq_some_iff.mp hproject).1,
      submitJobInTransaction_ok hsubmit, rfl⟩

/-- What the cancellation of its run does to a job. -/
def JobRow.cancelWithRun (job : JobRow) (now : ℕ) : JobRow :=
  if job.status ∈ [.queued, .retryWait, .claimed, .running] then
    job.requestCancellation now (cancellationTarget job.status)
  else
    job

/-- One step of the cancellation loop. -/
theorem requestJobCancellation_step {requestedBy : String} {jobId : ℕ} {r : JobStatus × Db δ}
    (h : requestJobCancellationInTransaction db jobId requestedBy false = .ok r) :
    ∃ job, db.jobs[jobId]? = some job ∧ r.1 = (job.cancelWithRun db.now).status ∧
      r.2 = db.updateJob jobId (·.cancelWithRun db.now) := by
  obtain ⟨job, hjob, ⟨hdead, rfl⟩ | ⟨hlive, hstatus, hdb⟩⟩ :=
    requestJobCancellationInTransaction_ok h
  · have hsame : job.cancelWithRun db.now = job := by
      have : job.status ∉ [JobStatus.queued, .retryWait, .claimed, .running] := by
        revert hdead; cases job.status <;> decide
      simp [JobRow.cancelWithRun, this]
    refine ⟨job, hjob, by rw [hsame], ?_⟩
    have : db.jobs.modify jobId (·.cancelWithRun db.now) = db.jobs := by
      refine List.ext_getElem? fun i => ?_
      by_cases hi : jobId = i
      · subst hi
        rw [getElem?_modify_eq hjob, hsame, hjob]
      · rw [getElem?_modify_ne hi]
    simp [Db.updateJob, this]
  · have hmoved : job.cancelWithRun db.now =
        job.requestCancellation db.now (cancellationTarget job.status) := by
      simp only [JobRow.cancelWithRun, hlive, ↓reduceIte]
    refine ⟨job, hjob, by rw [hstatus, hmoved]; rfl, ?_⟩
    simp only [Bool.false_eq_true, ↓reduceIte] at hdb
    rw [hdb]
    have : (db.jobs.modify jobId fun _ =>
        job.requestCancellation db.now (cancellationTarget job.status)) =
        db.jobs.modify jobId (·.cancelWithRun db.now) := by
      refine List.ext_getElem? fun i => ?_
      by_cases hi : jobId = i
      · subst hi
        rw [getElem?_modify_eq hjob, getElem?_modify_eq hjob, hmoved]
      · rw [getElem?_modify_ne hi, getElem?_modify_ne hi]
    simp [Db.updateJob, this]

/-- **The cancellation loop.**  It cancels each of the jobs once and reports their statuses. -/
theorem requestJobCancellations_ok {cancelledBy : String} {jobIds : List ℕ}
    {r : List (ℕ × JobStatus) × Db δ} (hnodup : jobIds.Nodup)
    (h : requestJobCancellations cancelledBy db jobIds = .ok r) :
    r.2 = db.setJobs (updateWhere (fun id _ => id ∈ jobIds) (·.cancelWithRun db.now) db.jobs) ∧
    ∀ id status, (id, status) ∈ r.1 ↔ id ∈ jobIds ∧
      ∃ job, db.jobs[id]? = some job ∧ status = (job.cancelWithRun db.now).status := by
  induction jobIds generalizing db r with
  | nil =>
    simp only [requestJobCancellations, pure_eq_ok] at h
    subst h
    refine ⟨?_, by simp⟩
    have hsame : updateWhere (fun _ _ => false) (·.cancelWithRun db.now) db.jobs = db.jobs := by
      refine List.ext_getElem? fun i => ?_
      simp
    simp [Db.setJobs, hsame]
  | cons jobId rest ih =>
    simp only [requestJobCancellations, bind_eq_ok, pure_eq_ok] at h
    obtain ⟨⟨status, db₁⟩, hstep, r', hrest, rfl⟩ := h
    obtain ⟨job, hjob, rfl, rfl⟩ := requestJobCancellation_step hstep
    obtain ⟨hnotin, hnodup⟩ := List.nodup_cons.mp hnodup
    obtain ⟨hdb, hmem⟩ := ih hnodup hrest
    refine ⟨?_, fun id status => ?_⟩
    · rw [hdb]
      have hjobs : updateWhere (fun id _ => id ∈ rest) (·.cancelWithRun db.now)
          (db.jobs.modify jobId (·.cancelWithRun db.now)) =
          updateWhere (fun id _ => id ∈ jobId :: rest) (·.cancelWithRun db.now) db.jobs := by
        refine List.ext_getElem? fun i => ?_
        by_cases hi : jobId = i
        · subst hi
          simp [hnotin, hjob]
        · simp [hi, Ne.symm hi]
      simp [Db.setJobs, hjobs]
    · simp only [List.mem_cons, Prod.mk.injEq, hmem]
      constructor
      · rintro (⟨rfl, rfl⟩ | ⟨hin, job', hjob', rfl⟩)
        · exact ⟨.inl rfl, job, hjob, rfl⟩
        · refine ⟨.inr hin, job', ?_, rfl⟩
          have hne : jobId ≠ id := fun he => hnotin (he ▸ hin)
          simpa [List.getElem?_modify, hne] using hjob'
      · rintro ⟨rfl | hin, job', hjob', rfl⟩
        · rw [hjob] at hjob'
          cases hjob'
          exact .inl ⟨rfl, rfl⟩
        · refine .inr ⟨hin, job', ?_, rfl⟩
          have hne : jobId ≠ id := fun he => hnotin (he ▸ hin)
          simpa [List.getElem?_modify, hne] using hjob'

/-- The stage row is untouched, or open and cancelled with its run. -/
def CancelsOpen (now : ℕ) (stage stage' : RunStageRow) : Prop :=
  stage' = stage ∨ stage.status.isOpen ∧ stage' = stage.cancel now

theorem CancelsOpen.updateWhere {stages : List RunStageRow} {now : ℕ}
    {p : ℕ → RunStageRow → Bool} (hp : ∀ i s, p i s → s.status.isOpen) :
    TableStep (fun _ => CancelsOpen now) (fun _ _ => False) stages
      (updateWhere p (·.cancel now) stages) :=
  .updateWhere (fun _ _ => .inl rfl) fun i s _ h => .inr ⟨hp i s h, rfl⟩

theorem CancelsOpen.trans {now : ℕ} {s s' s'' : RunStageRow} (h : CancelsOpen now s s')
    (h' : CancelsOpen now s' s'') : CancelsOpen now s s'' := by
  obtain rfl | ⟨hopen, rfl⟩ := h
  · exact h'
  · obtain rfl | ⟨hopen', _⟩ := h'
    · exact .inr ⟨hopen, rfl⟩
    · cases hopen'

theorem moveCancelledRun_runsOnly {target : ResearchRunStatus} {cancelledBy : String} :
    RunsOnly db (moveCancelledRun db runId target cancelledBy) := by
  unfold moveCancelledRun
  split <;> exact ⟨rfl, rfl, rfl, rfl, rfl, rfl⟩

theorem moveCancelledRun_runs {target : ResearchRunStatus} {cancelledBy : String} :
    (moveCancelledRun db runId target cancelledBy).runs =
      db.runs.modify runId (·.requestCancellation db.now target cancelledBy) := by
  unfold moveCancelledRun
  split <;> rfl

theorem moveCancelledRun_stages {target : ResearchRunStatus} {cancelledBy : String} {now : ℕ}
    (hnow : db.now = now) : TableStep (fun _ => CancelsOpen now) (fun _ _ => False) db.stages
      (moveCancelledRun db runId target cancelledBy).stages := by
  subst hnow
  unfold moveCancelledRun
  split
  · exact CancelsOpen.updateWhere fun i s h => by simp_all
  · exact .refl (fun _ _ => .inl rfl) _

/-- **Run cancellation.**  Every live job of the run is cancelled or asked to, and the run is
    `CANCELLING` exactly if some job still has to acknowledge. -/
theorem requestResearchRunCancellation_ok {cancelledBy : String}
    (h : requestResearchRunCancellation db runId cancelledBy = .ok db') :
    ∃ run, db.runs[runId]? = some run ∧ (db' = db ∨
      run.status ∉ [.cancelling, .cancelled, .completed, .failed] ∧
      ∃ target,
        (target = .cancelling ∨ target = .cancelled) ∧
        (target = .cancelling ↔ ∃ job ∈ db.jobs, job.runId = some runId ∧
          (job.cancelWithRun db.now).status = .cancellationRequested) ∧
        RunsOnly (db.setJobs (updateWhere (fun _ job => job.runId = some runId)
          (·.cancelWithRun db.now) db.jobs)) db' ∧
        db'.runs = db.runs.modify runId (·.requestCancellation db.now target cancelledBy) ∧
        TableStep (fun _ => CancelsOpen db.now) (fun _ _ => False) db.stages db'.stages) := by
  simp only [requestResearchRunCancellation, bind_eq_ok, require_eq_ok] at h
  obtain ⟨run, hrun, _, _, h⟩ := h
  refine ⟨run, hrun, ?_⟩
  split at h
  · exact .inl (pure_eq_ok.mp h).symm
  rename_i hstatus
  simp only [bind_eq_ok, pure_eq_ok] at h
  obtain ⟨⟨statuses, db₁⟩, hloop, _, _, rfl⟩ := h
  obtain ⟨rfl, hmem⟩ := requestJobCancellations_ok nodup_idsWhere hloop
  simp only [updateWhere_idsWhere]
  have hcooperative : (statuses.any fun entry => entry.2 = .cancellationRequested) ↔
      ∃ job ∈ db.jobs, job.runId = some runId ∧
        (job.cancelWithRun db.now).status = .cancellationRequested := by
    simp only [List.any_eq_true, decide_eq_true_eq, Prod.exists, hmem, mem_idsWhere]
    constructor
    · rintro ⟨id, _, ⟨⟨job, hjob, hrunId⟩, job', hjob', rfl⟩, hreq⟩
      rw [hjob] at hjob'
      cases hjob'
      exact ⟨job, List.mem_of_getElem? hjob, hrunId, hreq⟩
    · rintro ⟨job, hjob, hrunId, hreq⟩
      obtain ⟨id, hid⟩ := List.mem_iff_getElem?.mp hjob
      exact ⟨id, _, ⟨⟨job, hid, hrunId⟩, job, hid, rfl⟩, hreq⟩
  refine .inr ⟨hstatus, _, ?_, ?_, ?_, moveCancelledRun_runs, ?_⟩
  · split
    · exact .inl rfl
    · exact .inr rfl
  · refine Iff.trans ?_ hcooperative
    split
    · exact iff_of_true rfl ‹_›
    · exact iff_of_false (by intro h; cases h) ‹_›
  · refine RunsOnly.trans ?_ moveCancelledRun_runsOnly
    exact ⟨rfl, rfl, rfl, rfl, rfl, rfl⟩
  · refine .trans (fun _ _ _ _ => .trans) (fun _ _ _ h => h.elim) ?_
      (moveCancelledRun_stages rfl)
    exact CancelsOpen.updateWhere fun i s h => by
      simp only [decide_eq_true_eq] at h
      obtain hs | hs := by simpa using h.2
      all_goals rw [hs]; rfl

theorem finalizeResearchRunCancellation_ok
    (h : finalizeResearchRunCancellation db runId = .ok db') :
    db' = db ∨ ∃ run, db.runs[runId]? = some run ∧ run.status = .cancelling ∧
      db.activeJobCount runId = 0 ∧ db' = finishRunCancellation db runId := by
  simp only [finalizeResearchRunCancellation, bind_eq_ok, require_eq_ok] at h
  obtain ⟨run, hrun, h⟩ := h
  split at h
  · exact .inl (pure_eq_ok.mp h).symm
  · simp only [bind_eq_ok, ensure_eq_ok, pure_eq_ok] at h
    obtain ⟨_, hstatus, _, hactive, _, _, rfl⟩ := h
    exact .inr ⟨run, hrun, hstatus, hactive, rfl⟩

/-- The first unfinished stage is a newest row, and every earlier stage has succeeded. -/
theorem firstUnfinishedStage_eq_some {stages : List RunStageRow} {i : ℕ} {s : RunStageRow}
    (h : firstUnfinishedStage stages runId = some (i, s)) :
    stages[i]? = some s ∧ s.runId = runId ∧ isLatestGeneration stages s ∧ s.status ≠ .succeeded ∧
      ∀ earlier : AIStage, earlier.ordinal < s.stageId.ordinal →
        ∀ row, latestStage stages runId earlier = some row → row.2.status = .succeeded := by
  obtain ⟨l₁, stage, l₂, hsplit, hstage, hbefore⟩ := List.findSome?_eq_some_iff.mp h
  obtain ⟨hlatest, hstatus⟩ := Option.filter_eq_some_iff.mp hstage
  obtain ⟨hi, hrun, rfl, hmax⟩ := latestStage_eq_some hlatest
  refine ⟨hi, hrun, hmax, by simpa using hstatus, fun earlier hlt row hrow => ?_⟩
  have hnone := hbefore earlier (mem_of_ordinal_lt hsplit hlt)
  by_contra hne
  simp [hrow, hne] at hnone

/-- Resuming re-queues the first unfinished stage in place, whatever jobs it still has. -/
theorem resumeResearchRun_ok {r : SubmittedJob δ} (h : resumeResearchRun db runId = .ok r) :
    ∃ run runStageId stage stageInput, db.runs[runId]? = some run ∧
      run.status ∈ [.cancelled, .failed, .paused, .blocked] ∧
      firstUnfinishedStage db.stages runId = some (runStageId, stage) ∧
      stage.status ∈ [.pending, .queued, .failed, .cancelled, .blocked, .stale] ∧
      Submits ((db.updateStage runStageId (·.resume stageInput)).updateRun runId
          (·.resume stage.stageId))
        (pipelineStageJob runId run runStageId stage.stageId stageInput
          (.resume runId stage.stageId stage.generation (run.version + 1))) r := by
  simp only [resumeResearchRun, bind_eq_ok, require_eq_ok, ensure_eq_ok,
    assertRunStageReaches_eq_ok] at h
  obtain ⟨run, hrun, _, hstatus, ⟨runStageId, stage⟩, hfirst, _, hstage, _, _, h⟩ := h
  exact ⟨run, runStageId, stage, _, hrun, hstatus, hfirst, reaches_queued.mp hstage,
    submitJobInTransaction_ok h⟩

/-! ### Source searches -/

theorem submitSourceSearchJob_ok {input : SourceSearchInput} {r : SubmittedJob δ}
    (h : submitSourceSearchJob db input = .ok r) :
    Submits db (sourceSearchJob input) r ∧ ∀ runId ∈ input.runId, ∃ run,
      db.runs[runId]? = some run ∧ run.status ∉ [.cancelling, .cancelled, .failed, .completed] := by
  simp only [submitSourceSearchJob, bind_eq_ok] at h
  obtain ⟨_, _, h⟩ := h
  split at h
  · rename_i runId hrunId
    simp only [bind_eq_ok, require_eq_ok, ensure_eq_ok, Option.filter_eq_some_iff] at h
    obtain ⟨run, ⟨hrun, _⟩, _, hstatus, h⟩ := h
    refine ⟨submitJobInTransaction_ok h, fun id hid => ?_⟩
    obtain rfl : runId = id := by simpa [hrunId] using hid
    exact ⟨run, hrun, hstatus⟩
  · rename_i hnone
    exact ⟨submitJobInTransaction_ok h, fun id hid => by simp [hnone] at hid⟩

theorem lockSearchRun_ok {projectId : ℕ} {searchRun : Option ℕ} {r : Option (ℕ × ResearchRunRow)}
    (h : lockSearchRun db projectId searchRun = .ok r) :
    ∀ runId run, r = some (runId, run) → searchRun = some runId ∧ db.runs[runId]? = some run ∧
      run.status ∉ [.cancelling, .cancelled, .failed, .completed] := by
  rintro runId run rfl
  unfold lockSearchRun at h
  split at h
  · simp [pure_eq_ok] at h
  · simp only [bind_eq_ok, require_eq_ok, ensure_eq_ok, pure_eq_ok, Option.filter_eq_some_iff,
      Option.some.injEq, Prod.mk.injEq] at h
    obtain ⟨run, ⟨hrun, _⟩, _, h₁, _, h₂, rfl, rfl⟩ := h
    exact ⟨rfl, hrun, by simp_all⟩

/-- A search attempt blocks its run, counts a request of it, or has no run. -/
theorem reserveSourceSearchAttempt_ok [DomainStore δ] {jobId attempt workerId : ℕ}
    (h : reserveSourceSearchAttempt db jobId attempt workerId = .ok db') :
    db' = db ∨ ∃ runId run, db.runs[runId]? = some run ∧
      run.status ∉ [.cancelling, .cancelled, .failed, .completed] ∧
      ((∃ violations, db' = blockRunForSearchBudget db runId run violations) ∨
        db' = db.updateRun runId (·.countSearch)) := by
  simp only [reserveSourceSearchAttempt, bind_eq_ok] at h
  obtain ⟨_, _, ⟨projectId, searchRun, count⟩, _, _, _, r, hlock, h⟩ := h
  split at h
  · simp only [bind_eq_ok, pure_eq_ok] at h
    obtain ⟨_, _, rfl⟩ := h
    exact .inl rfl
  rename_i runId run
  obtain ⟨_, hrun, hstatus⟩ := lockSearchRun_ok hlock runId run rfl
  refine .inr ⟨runId, run, hrun, hstatus, ?_⟩
  generalize (_ ++ _ : List String) = violations at h
  split at h
  · exact .inl ⟨_, (pure_eq_ok.mp h).symm⟩
  · simp only [bind_eq_ok, pure_eq_ok] at h
    obtain ⟨_, ⟨_, _, rfl⟩, rfl⟩ := h
    exact .inr rfl

/-- The results of a search are checkpointed on its running job, or its run is blocked. -/
theorem commitSourceSearchResults_ok [DomainStore δ] {jobId attempt workerId output newCount : ℕ}
    {register : δ → Except ServiceError δ}
    (h : commitSourceSearchResults db jobId attempt workerId output newCount register = .ok db') :
    (∃ runId run violations, db.runs[runId]? = some run ∧
      run.status ∉ [.cancelling, .cancelled, .failed, .completed] ∧
      db' = blockRunForSearchBudget db runId run violations) ∨
    ∃ job domain, db.jobs[jobId]? = some job ∧ job.status = .running ∧
      register db.domain = .ok domain ∧
      db' = (db.setDomain domain).updateJob jobId (·.checkpoint output) := by
  simp only [commitSourceSearchResults, bind_eq_ok] at h
  obtain ⟨job, hjob, ⟨projectId, searchRun, count⟩, _, _, _, r, hlock, h⟩ := h
  simp only [lockFencedSearchJob, require_eq_ok, Option.filter_eq_some_iff,
    decide_eq_true_eq] at hjob
  split at h
  · simp only [bind_eq_ok, pure_eq_ok] at h
    obtain ⟨domain, hregister, rfl⟩ := h
    exact .inr ⟨job, domain, hjob.1, hjob.2.2.1, hregister, rfl⟩
  rename_i runId run
  obtain ⟨_, hrun, hstatus⟩ := lockSearchRun_ok hlock runId run rfl
  split at h
  · exact .inl ⟨runId, run, _, hrun, hstatus, (pure_eq_ok.mp h).symm⟩
  · simp only [bind_eq_ok, pure_eq_ok] at h
    obtain ⟨domain, hregister, rfl⟩ := h
    exact .inr ⟨job, domain, hjob.1, hjob.2.2.1, hregister, rfl⟩

/-! ### Advancing -/

/-- The bundle holds what was read. -/
theorem loadResearchOrchestrationBundle_ok [DomainStore δ] {bundle : ResearchOrchestrationBundle}
    (h : loadResearchOrchestrationBundle db runStageId = .ok bundle) :
    bundle.runStageId = runStageId ∧ db.stages[runStageId]? = some bundle.stage ∧
      db.runs[bundle.stage.runId]? = some bundle.run ∧
      bundle.latestStages = latestStage db.stages bundle.stage.runId := by
  simp only [loadResearchOrchestrationBundle, bind_eq_ok, require_eq_ok, pure_eq_ok] at h
  obtain ⟨stage, hstage, run, hrun, rfl⟩ := h
  exact ⟨rfl, hstage, hrun, rfl⟩

end ResearchWorkbench
