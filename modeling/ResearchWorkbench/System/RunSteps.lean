import ResearchWorkbench.System.JobSteps

namespace ResearchWorkbench

/-!
# What an operation does to runs

Everything an operation can do to a row of `research_runs`, said once.

* `RunStep db db' op r run run'` — `op`, from `db` to `db'`, may turn the run `r` from `run` into
  `run'`;
* `perform_runs` — a successful operation changes the runs in these ways only;
* `perform_cancellation` — what the cancellation of a single job makes of its run;
* `InsertsJob.run_status` — a job is only added to a run that is not being cancelled.
-/

variable {δ : Type}

/-! ### Runs -/

/-- What no step of a run changes. -/
structure SameRun (run run' : ResearchRunRow) : Prop where
  projectId : run'.projectId = run.projectId
  mode : run'.mode = run.mode
  budget : run'.budget = run.budget

/-- What a run has been charged for its provider calls. -/
structure RunCharges where
  providerRequests : ℕ
  inputTokens : ℕ
  outputTokens : ℕ
  estimatedCost : Option ℚ
  costStatus : CostStatus

/-- The charges of a run. -/
def ResearchRunRow.charges (run : ResearchRunRow) : RunCharges :=
  ⟨run.totalProviderRequests, run.totalInputTokens, run.totalOutputTokens, run.estimatedCost,
    run.costStatus⟩

/-- What only a charge changes: the charges for provider calls, and the search requests. -/
structure Uncharged (run run' : ResearchRunRow) : Prop extends SameRun run run' where
  charges : run'.charges = run.charges
  searchRequests : run'.totalSearchRequests = run.totalSearchRequests

theorem Uncharged.refl (run : ResearchRunRow) : Uncharged run run := ⟨⟨rfl, rfl, rfl⟩, rfl, rfl⟩

/-- The statuses in which a run is cancelled with one of its jobs. -/
def ResearchRunStatus.isCancellable (status : ResearchRunStatus) : Bool :=
  status = .cancelling || canTransitionResearchRun status .cancelling

/-- The job that an operation cancels by itself, not with its run. -/
def Op.cancellation (db : Db δ) : Op δ → Option ℕ
  | .requestJobCancellation i _ =>
    if ∃ job ∈ db.jobs[i]?, job.status ∈ [.queued, .retryWait, .claimed, .running] then some i
    else none
  | .acknowledgeJobCancellation i _ | .releaseJobLease i _ =>
    if ∃ job ∈ db.jobs[i]?, job.status = .cancellationRequested then some i else none
  | .recoverExpiredJob i runIds _ =>
    if ∃ job ∈ db.jobs[i]?, job.status = .cancellationRequested ∧ job.leaseExpired db.now ∧
        ∀ ids ∈ runIds, ∃ runId ∈ job.runId, runId ∈ ids then some i
    else none
  | _ => none

/-- The status of a run whose job was cancelled, or asked to: `CANCELLED` when the job is and no
    other is active. -/
def cancelledWithJob (jobStatus : JobStatus) (activeJobCount : ℕ) : ResearchRunStatus :=
  if jobStatus = .cancelled ∧ activeJobCount = 0 then .cancelled else .cancelling

/-- `op` may change the run `r` so, the database becoming `db'`. -/
inductive RunStep (db db' : Db δ) : Op δ → ℕ → ResearchRunRow → ResearchRunRow → Prop
  | keep {op : Op δ} {r : ℕ} {run run' : ResearchRunRow} (same : Uncharged run run')
      (status : run'.status = run.status) : RunStep db db' op r run run'
  | record {i : ℕ} {fence : RunStageJobFence} {input : ProviderAttempt} {run : ResearchRunRow}
      {stage : RunStageRow} (fenced : FencedStage db i fence run stage)
      (unrecorded : stage.providerExecutionId ≠ some input.providerExecutionId) :
      RunStep db db' (.recordRunStageProviderAttempt i fence input) stage.runId run
        (run.recordAttempt input)
  | countSearch {j attempt workerId r : ℕ} {run : ResearchRunRow} :
      RunStep db db' (.reserveSourceSearchAttempt j attempt workerId) r run run.countSearch
  | start {i : ℕ} {fence : RunStageJobFence} {run : ResearchRunRow} {stage : RunStageRow}
      (fenced : FencedStage db i fence run stage) (status : run.status ∈ [.queued, .running]) :
      RunStep db db' (.startRunStage i fence) stage.runId run
        (run.startStage db.now stage.stageId)
  | commit {i : ℕ} {fence : RunStageJobFence} {key : CommitKey} {output : StageOutput}
      {domainCommit : δ → Except ServiceError δ} {run : ResearchRunRow} {stage : RunStageRow}
      (currentStage : AIStage) (progress : ℕ) (fenced : FencedStage db i fence run stage)
      (able : run.status = committedRunStatus stage.ordinal ∨
        canTransitionResearchRun run.status (committedRunStatus stage.ordinal)) :
      RunStep db db' (.commitRunStage i fence key output domainCommit) stage.runId run
        (run.commit (committedRunStatus stage.ordinal) currentStage progress)
  | boundary {i : ℕ} {fence : RunStageJobFence} {boundary : RunBoundary} {reason : Option String}
      {run : ResearchRunRow} {stage : RunStageRow} (fenced : FencedStage db i fence run stage)
      (stageStatus : stage.status = .succeeded)
      (able : canTransitionResearchRun run.status boundary.status) :
      RunStep db db' (.setResearchRunBoundary i fence boundary reason) stage.runId run
        (run.reachBoundary boundary reason)
  | block {i : ℕ} {fence : RunStageJobFence} {errorClass : JobErrorClass} {reason : String}
      {run : ResearchRunRow} {stage : RunStageRow} (fenced : FencedStage db i fence run stage)
      (able : run.status = .blocked ∨ canTransitionResearchRun run.status .blocked) :
      RunStep db db' (.blockRunStage i fence errorClass reason) stage.runId run (run.block reason)
  | blockForSearch {op : Op δ} {r : ℕ} {run : ResearchRunRow} (reason : String)
      (able : canTransitionResearchRun run.status .blocked) :
      RunStep db db' op r run (run.blockForSearch reason)
  | fail {i : ℕ} {fence : RunStageJobFence} {errorClass : JobErrorClass} {sanitizedError : String}
      {run : ResearchRunRow} {stage : RunStageRow} (fenced : FencedStage db i fence run stage)
      (able : run.status = .failed ∨ canTransitionResearchRun run.status .failed) :
      RunStep db db' (.failRunStage i fence errorClass sanitizedError) stage.runId run
        (run.fail db.now sanitizedError)
  | failWithJob {op : Op δ} {j r : ℕ} {job : JobRow} {run : ResearchRunRow}
      (sanitizedError : String) (jobRow : db.jobs[j]? = some job)
      (jobStatus : job.status.isActive) (notRequested : job.status ≠ .cancellationRequested)
      (jobRun : job.runId = some r) (able : canTransitionResearchRun run.status .failed) :
      RunStep db db' op r run (run.fail db.now sanitizedError)
  | cancelWithJob {op : Op δ} {j r : ℕ} {job job' : JobRow} {run run' : ResearchRunRow}
      (cancellation : op.cancellation db = some j) (jobRow : db.jobs[j]? = some job)
      (jobRow' : db'.jobs[j]? = some job') (jobRun : job.runId = some r)
      (able : run.status.isCancellable) (same : Uncharged run run')
      (status : run'.status = cancelledWithJob job'.status (db'.activeJobCount r)) :
      RunStep db db' op r run run'
  | cancel {r : ℕ} {cancelledBy : String} {run : ResearchRunRow} (target : ResearchRunStatus)
      (status : run.status ∉ [.cancelling, .cancelled, .completed, .failed])
      (targets : target = .cancelling ∨ target = .cancelled)
      (pending : target = .cancelling ↔ 0 < db'.activeJobCount r)
      (requested : ∀ job ∈ db'.jobs, job.runId = some r → job.status.isLive →
        job.status = .cancellationRequested) :
      RunStep db db' (.requestResearchRunCancellation r cancelledBy) r run
        (run.requestCancellation db.now target cancelledBy)
  | finalize {r : ℕ} {run : ResearchRunRow} (status : run.status = .cancelling)
      (inactive : db.activeJobCount r = 0) :
      RunStep db db' (.finalizeResearchRunCancellation r) r run (run.finishCancelling db.now)
  | resume {r : ℕ} {run : ResearchRunRow} (stage : AIStage)
      (status : run.status ∈ [.cancelled, .failed, .paused, .blocked]) :
      RunStep db db' (.resumeResearchRun r) r run (run.resume stage)
  | restart {i : ℕ} {key : JobKey} {input : InputReference} {run : ResearchRunRow}
      {stage : RunStageRow} (progress : ℕ) (stageRow : db.stages[i]? = some stage)
      (inactive : db.activeJobCount stage.runId = 0)
      (able : run.status = .queued ∨ canTransitionResearchRun run.status .queued) :
      RunStep db db' (.restartRunStage i key input) stage.runId run
        (run.restart stage.stageId progress)
  | approve {projectId r : ℕ} {run : ResearchRunRow} (status : run.status = .approvalRequired) :
      RunStep db db' (.approveRun projectId) r run (run.complete db.now)

/-- `op` may insert the run so. -/
inductive NewRun : Op δ → ResearchRunRow → Prop
  | create (input : CreateResearchRunInput) (request : RunRequest) :
      NewRun (.createResearchRun input) (newResearchRun input request)

theorem RunStep.refl {db db' : Db δ} {op : Op δ} (r : ℕ) (run : ResearchRunRow) :
    RunStep db db' op r run run :=
  .keep (.refl run) rfl

theorem RunStep.sameRun {db db' : Db δ} {op : Op δ} {r : ℕ} {run run' : ResearchRunRow}
    (h : RunStep db db' op r run run') : SameRun run run' := by
  cases h with
  | keep hsame _ => exact hsame.toSameRun
  | start _ _ =>
    unfold ResearchRunRow.startStage
    split <;> exact ⟨rfl, rfl, rfl⟩
  | cancelWithJob _ _ _ _ _ hsame _ => exact hsame.toSameRun
  | _ => exact ⟨rfl, rfl, rfl⟩

/-! ### Linked runs -/

section
variable {db db' : Db δ} {op : Op δ} {r : ℕ} {run run' : ResearchRunRow}

/-- Two updates of one row. -/
theorem modify_modify_same {α : Type*} {t : List α} {i : ℕ} {f g : α → α} :
    (t.modify i f).modify i g = t.modify i (g ∘ f) := by
  simp [List.modify_modify_eq]

theorem activeJobCount_congr {db₁ : Db δ} (h : db₁.jobs = db.jobs) (r : ℕ) :
    db₁.activeJobCount r = db.activeJobCount r := by
  simp only [Db.activeJobCount, h]

theorem activeJobCount_pos :
    0 < db.activeJobCount r ↔ ∃ job ∈ db.jobs, job.runId = some r ∧ job.status.isActive := by
  simp [Db.activeJobCount, List.countP_pos_iff]

theorem cancelLinkedStage_runs (stage : Option (ℕ × RunStageRow)) :
    (cancelLinkedStage db stage).runs = db.runs := by
  unfold cancelLinkedStage
  repeat' split
  all_goals rfl

/-- A stage that dies with its job takes its run along where the run can fail. -/
theorem failLinkedStage_runs (db : Db δ) (l : LinkedResearchState) (e : JobErrorClass) (m : String) :
    (failLinkedStage db l e m).runs = db.runs ∨
      canTransitionResearchRun l.run.status .failed ∧
        (failLinkedStage db l e m).runs = db.runs.modify l.runId (·.fail db.now m) := by
  unfold failLinkedStage
  split
  · split
    · simp only
      split
      · exact .inr ⟨by simp_all, rfl⟩
      · exact .inl rfl
    · exact .inl rfl
  · exact .inl rfl

/-- A run that can be cancelled is cancelling from the first update on. -/
theorem beginRunCancellation_of_able (db : Db δ) (r : ℕ) (h : run.status.isCancellable) (m : String) :
    (beginRunCancellation db r run m).2 = .cancelling ∧ ∃ f : ResearchRunRow → ResearchRunRow,
      (beginRunCancellation db r run m).1.runs = db.runs.modify r f ∧
      (∀ run, Uncharged run (f run)) ∧ (f run).status = .cancelling := by
  unfold beginRunCancellation
  split
  · exact ⟨rfl, _, rfl, fun _ => ⟨⟨rfl, rfl, rfl⟩, rfl, rfl⟩, rfl⟩
  · rename_i hnot
    have hstatus : run.status = .cancelling := by
      simp only [ResearchRunStatus.isCancellable, Bool.or_eq_true, decide_eq_true_eq] at h
      obtain h | h := h
      · exact h
      · by_contra hne
        exact hnot ⟨hne, h⟩
    exact ⟨hstatus, id, by simp [List.modify_id], .refl, hstatus⟩

theorem beginRunCancellation_of_not_able (db : Db δ) (r : ℕ) (h : ¬ run.status.isCancellable) (m : String) :
    beginRunCancellation db r run m = (db, run.status) ∧ run.status ≠ .cancelling := by
  simp only [ResearchRunStatus.isCancellable, Bool.or_eq_true, decide_eq_true_eq, not_or] at h
  exact ⟨by simp [beginRunCancellation, h.2], h.1⟩

/-- **The run of a cancelled job.**  It stays if it cannot be cancelled; else it is cancelling, or
    cancelled with its last active job. -/
theorem cancelLinkedRun_runs (l : LinkedResearchState) (status : JobStatus) (m : String) :
    (¬ l.run.status.isCancellable ∧ (cancelLinkedRun db l status m).runs = db.runs) ∨
      l.run.status.isCancellable ∧ ∃ f : ResearchRunRow → ResearchRunRow,
        (cancelLinkedRun db l status m).runs = db.runs.modify l.runId f ∧
        (∀ run, Uncharged run (f run)) ∧
        (f l.run).status = cancelledWithJob status (db.activeJobCount l.runId) := by
  by_cases hable : l.run.status.isCancellable
  · right
    obtain ⟨hstatus, f, hruns, hsame, hf⟩ :=
      beginRunCancellation_of_able db l.runId hable m
    have hrunsOnly := (beginRunCancellation_runsOnly db l.runId l.run m).trans
      (cancelLinkedStage_runsOnly _ l.stage)
    have hcount := activeJobCount_congr hrunsOnly.jobs l.runId
    have hlive : l.run.status ∉ [.completed, .failed, .cancelled] := by
      intro hdead
      obtain h | h | h := by simpa using hdead
      all_goals rw [h] at hable; cases hable
    refine ⟨hable, ?_⟩
    simp only [cancelLinkedRun, hlive, ↓reduceIte, hstatus, hcount, ne_eq, not_true_eq_false,
      or_false]
    by_cases hc : status = .cancelled
    · by_cases hactive : db.activeJobCount l.runId = 0
      · -- the last active job is gone: both updates of the run
        refine ⟨(·.finishCancelling db.now) ∘ f, ?_, fun run => ?_, ?_⟩
        · simp only [hc, not_true_eq_false, ↓reduceIte, hactive, lt_irrefl, finishRunCancellation,
            Db.updateRun_runs, Db.updateStagesWhere_runs, cancelLinkedStage_runs, hruns,
            hrunsOnly.now, modify_modify_same]
        · exact ⟨⟨(hsame run).projectId, (hsame run).mode, (hsame run).budget⟩,
            (hsame run).charges, (hsame run).searchRequests⟩
        · simp [cancelledWithJob, hc, hactive, ResearchRunRow.finishCancelling]
      · refine ⟨f, ?_, hsame, by simp [cancelledWithJob, hactive, hf]⟩
        simp [hc, Nat.pos_of_ne_zero hactive, cancelLinkedStage_runs, hruns]
    · exact ⟨f, by simp [hc, hruns], hsame, by simp [cancelledWithJob, hc, hf]⟩
  · left
    obtain ⟨hbegin, hstatus⟩ :=
      beginRunCancellation_of_not_able db l.runId hable m
    refine ⟨hable, ?_⟩
    unfold cancelLinkedRun
    split
    · rfl
    simp only [hbegin]
    split
    · rfl
    split
    · exact cancelLinkedStage_runs _
    · rename_i hnot
      simp [hstatus] at hnot

/-! ### Single cancellations -/

/-- What the cancellation of a run-linked job makes of the runs, the job being `job'` afterwards. -/
def CancelsRun (db db' : Db δ) (job job' : JobRow) : Prop :=
  ∃ r run, job.runId = some r ∧ db.runs[r]? = some run ∧
    (¬ run.status.isCancellable ∧ db'.runs = db.runs ∨
      run.status.isCancellable ∧ ∃ f : ResearchRunRow → ResearchRunRow,
        db'.runs = db.runs.modify r f ∧ (∀ run, Uncharged run (f run)) ∧
        (f run).status = cancelledWithJob job'.status (db'.activeJobCount r))

/-- The operation cancels the job `j`, or asks its worker to, and its run with it. -/
structure CancelsJob (db db' : Db δ) (op : Op δ) (j : ℕ) (job job' : JobRow) : Prop where
  cancellation : op.cancellation db = some j
  jobRow : db.jobs[j]? = some job
  jobs : db'.jobs = db.jobs.modify j fun _ => job'
  links : SameLinks job job'
  status : job'.status = .cancelled ∨
    job'.status = .cancellationRequested ∧ job.status ≠ .cancellationRequested
  runs : job.runId = none ∧ db'.runs = db.runs ∨ CancelsRun db db' job job'

theorem CancelsJob.jobRow' {j : ℕ} {job job' : JobRow} (h : CancelsJob db db' op j job job') :
    db'.jobs[j]? = some job' := by
  rw [h.jobs]
  exact getElem?_modify_eq h.jobRow

/-- The runs after a job was updated and its cancellation reconciled. -/
theorem reconcileLinkedJobCancellation_runs {db₁ : Db δ} {job job' : JobRow} {m : String}
    (h : reconcileLinkedJobCancellation db₁ job' m = .ok db') (hruns : db₁.runs = db.runs)
    (hlinks : SameLinks job job') :
    job.runId = none ∧ db'.runs = db.runs ∨ CancelsRun db db' job job' := by
  obtain ⟨hnone, rfl⟩ | ⟨l, hl, rfl⟩ := reconcileLinkedJobCancellation_ok h
  · exact .inl ⟨hlinks.runId.symm.trans hnone, hruns⟩
  · refine .inr ⟨l.runId, l.run, hlinks.runId.symm.trans hl.jobRun, hruns ▸ hl.runRow, ?_⟩
    rw [activeJobCount_congr (cancelLinkedRun_runsOnly db₁ l job'.status m).jobs, ← hruns]
    exact cancelLinkedRun_runs l job'.status m

/-- A call that updates the job and reconciles its cancellation. -/
theorem CancelsJob.ofReconcile {db₁ : Db δ} {j : ℕ} {job job' : JobRow} {m : String}
    (hop : op.cancellation db = some j) (hjob : db.jobs[j]? = some job)
    (hrec : reconcileLinkedJobCancellation db₁ job' m = .ok db')
    (hjobs : db₁.jobs = db.jobs.modify j fun _ => job') (hruns : db₁.runs = db.runs)
    (hlinks : SameLinks job job') (hstatus : job'.status = .cancelled ∨
      job'.status = .cancellationRequested ∧ job.status ≠ .cancellationRequested) :
    CancelsJob db db' op j job job' :=
  ⟨hop, hjob, (reconcileLinkedJobCancellation_runsOnly hrec).jobs.trans hjobs, hlinks, hstatus,
    reconcileLinkedJobCancellation_runs hrec hruns hlinks⟩

theorem requestJobCancellation_cancels {j : ℕ} {m : String}
    (h : requestJobCancellation db j m = .ok db') :
    db' = db ∧ (Op.requestJobCancellation j m).cancellation db = none ∨
      ∃ job job', CancelsJob db db' (.requestJobCancellation j m) j job job' := by
  obtain ⟨job, hjob, ⟨rfl, hdead⟩ | ⟨hstatus, hrec⟩⟩ := requestJobCancellation_ok h
  · refine .inl ⟨rfl, ?_⟩
    simp [Op.cancellation, hjob, by simpa using hdead]
  · refine .inr ⟨job, _, .ofReconcile ?_ hjob hrec rfl rfl ⟨rfl, rfl, rfl, rfl, rfl, rfl⟩ ?_⟩
    · simp [Op.cancellation, hjob, by simpa using hstatus]
    · refine (cancellationTarget_cases job.status).imp (·.1) fun ⟨h, _⟩ => ⟨h, ?_⟩
      rintro hreq
      simp [hreq] at hstatus

theorem acknowledgeJobCancellation_cancels {j workerId : ℕ}
    (h : acknowledgeJobCancellation db j workerId = .ok db') :
    ∃ job job', CancelsJob db db' (.acknowledgeJobCancellation j workerId) j job job' := by
  obtain ⟨job, hjob, _, hstatus, hrec⟩ := acknowledgeJobCancellation_ok h
  refine ⟨job, _, .ofReconcile ?_ hjob hrec rfl rfl ⟨rfl, rfl, rfl, rfl, rfl, rfl⟩ ?_⟩
  · simp [Op.cancellation, hjob, hstatus]
  · exact .inl rfl

theorem releaseJobLease_cancels {j workerId : ℕ} (h : releaseJobLease db j workerId = .ok db') :
    db'.runs = db.runs ∧ (Op.releaseJobLease j workerId).cancellation db = none ∨
      ∃ job job', CancelsJob db db' (.releaseJobLease j workerId) j job job' := by
  obtain ⟨job, hjob, _, ⟨hstatus, rfl⟩ | ⟨hstatus, hrec⟩⟩ := releaseJobLease_ok h
  · refine .inl ⟨rfl, ?_⟩
    obtain hs | hs := by simpa using hstatus
    all_goals simp [Op.cancellation, hjob, hs]
  · refine .inr ⟨job, _, .ofReconcile ?_ hjob hrec rfl rfl ⟨rfl, rfl, rfl, rfl, rfl, rfl⟩ ?_⟩
    · simp [Op.cancellation, hjob, hstatus]
    · exact .inl rfl

/-- Recovery leaves the runs alone, or a dead job fails its run, or a cancelled one cancels it. -/
theorem recoverExpiredJob_cancels {j : ℕ} {runIds : Option (List ℕ)} {random : ℚ}
    (h : recoverExpiredJob db j runIds random = .ok db') :
    (Op.recoverExpiredJob j runIds random).cancellation db = none ∧ (db'.runs = db.runs ∨
      ∃ job job' db₁ e m, db.jobs[j]? = some job ∧ job.status.isActive ∧
        job.status ≠ .cancellationRequested ∧ SameLinks job job' ∧ db₁.runs = db.runs ∧
        db₁.now = db.now ∧ reconcileLinkedJobFailure db₁ job' e m = .ok db') ∨
      ∃ job job', CancelsJob db db' (.recoverExpiredJob j runIds random) j job job' := by
  obtain ⟨rfl, hnot⟩ | ⟨job, delay, hjob, hexpired, hids, hactive, hcase⟩ :=
    recoverExpiredJob_ok h
  · refine .inl ⟨?_, .inl rfl⟩
    simp only [Op.cancellation, ite_eq_right_iff, reduceCtorEq, imp_false]
    rintro ⟨job, hjob, hstatus, hexpired, hids⟩
    exact hnot job hjob ⟨hexpired, hids, by rw [hstatus]; rfl⟩
  have hop : job.status ≠ .cancellationRequested →
      (Op.recoverExpiredJob j runIds random).cancellation db = none := by
    intro hne
    simp [Op.cancellation, hjob, hne]
  obtain ⟨hdead, hrec⟩ | ⟨hcancelled, hrec⟩ | ⟨hretry, rfl⟩ := hcase
  · obtain ⟨h, _⟩ | ⟨h, _⟩ | ⟨_, hne⟩ := recoveredStatus_cases job
    · simp [hdead] at h
    · simp [hdead] at h
    refine .inl ⟨hop hne, .inr ⟨job, _, _, _, _, hjob, hactive, hne, ?_, ?_, ?_, hrec⟩⟩
    · exact ⟨rfl, rfl, rfl, rfl, rfl, rfl⟩
    · rfl
    · rfl
  · obtain ⟨_, hreq⟩ | ⟨h, _⟩ | ⟨h, _⟩ := recoveredStatus_cases job
    · refine .inr ⟨job, _, .ofReconcile ?_ hjob hrec rfl rfl ⟨rfl, rfl, rfl, rfl, rfl, rfl⟩ ?_⟩
      · simpa [Op.cancellation, hjob, hreq, hexpired] using hids
      · exact .inl hcancelled
    · simp [hcancelled] at h
    · simp [hcancelled] at h
  · obtain ⟨h, _⟩ | ⟨_, hne, _⟩ | ⟨h, _⟩ := recoveredStatus_cases job
    · simp [hretry] at h
    · exact .inl ⟨hop hne, .inl rfl⟩
    · simp [hretry] at h

/-! ### The operations -/

theorem TableStep.keepRuns {N : ℕ → ResearchRunRow → Prop} :
    TableStep (RunStep db db' op) N db.runs db.runs :=
  .refl RunStep.refl _

theorem CancelsJob.runSteps {N : ℕ → ResearchRunRow → Prop} {j : ℕ} {job job' : JobRow}
    (h : CancelsJob db db' op j job job') : TableStep (RunStep db db' op) N db.runs db'.runs := by
  obtain ⟨_, hruns⟩ | ⟨r, run, hrunId, hrun, ⟨_, hruns⟩ | ⟨hable, f, hruns, hsame, hstatus⟩⟩ := h.runs
  · rw [hruns]
    exact .keepRuns
  · rw [hruns]
    exact .keepRuns
  · rw [hruns]
    exact .modify RunStep.refl hrun
      (.cancelWithJob h.cancellation h.jobRow h.jobRow' hrunId hable (hsame run) hstatus)

/-- The runs after a job was updated and its failure reconciled. -/
theorem reconcileLinkedJobFailure_runSteps {N : ℕ → ResearchRunRow → Prop} {db₁ : Db δ} {j : ℕ}
    {job job' : JobRow} {e : JobErrorClass} {m : String} (hjob : db.jobs[j]? = some job)
    (hactive : job.status.isActive) (hne : job.status ≠ .cancellationRequested)
    (h : reconcileLinkedJobFailure db₁ job' e m = .ok db') (hlinks : SameLinks job job')
    (hruns : db₁.runs = db.runs) (hnow : db₁.now = db.now) :
    TableStep (RunStep db db' op) N db.runs db'.runs := by
  obtain ⟨_, rfl⟩ | ⟨l, hl, rfl⟩ := reconcileLinkedJobFailure_ok h
  · rw [hruns]
    exact .keepRuns
  obtain hkeep | ⟨hable, hfail⟩ := failLinkedStage_runs db₁ l e m
  · rw [hkeep, hruns]
    exact .keepRuns
  · rw [hfail, hruns, hnow]
    exact .modify RunStep.refl (hruns ▸ hl.runRow)
      (.failWithJob m hjob hactive hne (hlinks.runId.symm.trans hl.jobRun) hable)

theorem Submits.runs {input : SubmitJobInput} {s : SubmittedJob δ} (h : Submits db input s) :
    s.db.runs = db.runs := by
  cases h <;> rfl

/-- A run that a search may block. -/
theorem blockRunForSearchBudget_runSteps {N : ℕ → ResearchRunRow → Prop} {violations : List String}
    (hrun : db.runs[r]? = some run) :
    TableStep (RunStep db db' op) N db.runs
      (blockRunForSearchBudget db r run violations).runs := by
  unfold blockRunForSearchBudget
  split
  · exact .modify RunStep.refl hrun (.blockForSearch _ (by simp_all))
  · exact .keepRuns

/-- A job that is cancelled with its run is dead or waits for its worker. -/
theorem isLive_cancelWithRun {job : JobRow} {now : ℕ} (h : (job.cancelWithRun now).status.isLive) :
    (job.cancelWithRun now).status = .cancellationRequested := by
  unfold JobRow.cancelWithRun at h ⊢
  by_cases hstatus : job.status ∈ [.queued, .retryWait, .claimed, .running]
  · rw [if_pos hstatus] at h ⊢
    obtain ⟨hc, _⟩ | ⟨hc, _⟩ := cancellationTarget_cases job.status
    · simp [JobRow.requestCancellation, hc, JobStatus.isLive, isTerminalJobStatus] at h
    · rw [hc]
      rfl
  · rw [if_neg hstatus] at h ⊢
    revert h hstatus
    cases job.status <;> decide

theorem cancelWithRun_runId {job : JobRow} {now : ℕ} : (job.cancelWithRun now).runId = job.runId := by
  unfold JobRow.cancelWithRun
  split <;> rfl

/-- The jobs of a run after they were cancelled with it. -/
theorem mem_cancelledJobs {jobs : List JobRow} {job' : JobRow} {now : ℕ} :
    job' ∈ updateWhere (fun _ job => job.runId = some r) (·.cancelWithRun now) jobs ∧
        job'.runId = some r ↔
      ∃ job ∈ jobs, job.runId = some r ∧ job' = job.cancelWithRun now := by
  simp only [List.mem_iff_getElem?, getElem?_updateWhere, Option.map_eq_some_iff]
  constructor
  · rintro ⟨⟨i, job, hjob, rfl⟩, hrunId⟩
    by_cases hlink : job.runId = some r
    · exact ⟨job, ⟨i, hjob⟩, hlink, by simp [hlink]⟩
    · simp [hlink] at hrunId
  · rintro ⟨job, ⟨i, hjob⟩, hlink, rfl⟩
    exact ⟨⟨i, job, hjob, by simp [hlink]⟩, cancelWithRun_runId.trans hlink⟩

variable [DomainStore δ]

/-- **Runs.**  A successful operation changes and inserts runs only as `RunStep` and `NewRun`
    allow. -/
theorem perform_runs (h : perform db op = .ok db') :
    TableStep (RunStep db db' op) (fun _ => NewRun op) db.runs db'.runs := by
  cases op with
  | approveRun projectId =>
    obtain rfl := pure_eq_ok.mp h
    unfold approveRun
    split
    · rename_i r hlast
      obtain ⟨run, hrun, hp⟩ := mem_idsWhere.mp (List.mem_of_getLast? hlast)
      simp only [decide_eq_true_eq] at hp
      exact .modify RunStep.refl hrun (.approve hp.2)
    · exact .keepRuns
  | failJob input =>
    obtain ⟨job, _, _, hjob, _, hstatus, ⟨_, _, rfl⟩ | ⟨_, hrec⟩⟩ := failJob_ok h
    · exact .keepRuns
    · have hne : job.status ≠ .cancellationRequested := by
        rintro hreq
        simp [hreq] at hstatus
      exact reconcileLinkedJobFailure_runSteps hjob (isActive_of_executing hstatus) hne hrec
        ⟨rfl, rfl, rfl, rfl, rfl, rfl⟩ rfl rfl
  | requestJobCancellation i m =>
    obtain ⟨rfl, _⟩ | ⟨_, _, hc⟩ := requestJobCancellation_cancels h
    · exact .keepRuns
    · exact hc.runSteps
  | acknowledgeJobCancellation i workerId =>
    obtain ⟨_, _, hc⟩ := acknowledgeJobCancellation_cancels h
    exact hc.runSteps
  | releaseJobLease i workerId =>
    obtain ⟨hruns, _⟩ | ⟨_, _, hc⟩ := releaseJobLease_cancels h
    · rw [hruns]
      exact .keepRuns
    · exact hc.runSteps
  | recoverExpiredJob i runIds random =>
    obtain ⟨_, hruns | ⟨_, _, _, _, _, hjob, hactive, hne, hlinks, hruns, hnow, hrec⟩⟩ | ⟨_, _, hc⟩ :=
      recoverExpiredJob_cancels h
    · rw [hruns]
      exact .keepRuns
    · exact reconcileLinkedJobFailure_runSteps hjob hactive hne hrec hlinks hruns hnow
    · exact hc.runSteps
  | createResearchRun input =>
    obtain ⟨s, hs, rfl⟩ := map_eq_ok.mp h
    obtain hsame | ⟨request, _, _, _, hsubmit, hdb⟩ := createResearchRun_ok hs
    · rw [hsame]
      exact .keepRuns
    · rw [hdb, hsubmit.runs]
      exact TableStep.append_singleton .keepRuns (.create input request)
  | requestResearchRunCancellation r m =>
    obtain ⟨run, hrun, rfl | ⟨hstatus, target, htargets, hpending, hruns, hdb, _⟩⟩ :=
      requestResearchRunCancellation_ok h
    · exact .keepRuns
    have hjobs := hruns.jobs
    simp only [Db.setJobs_jobs] at hjobs
    have hlive : ∀ job ∈ db'.jobs, job.runId = some r → job.status.isLive →
        job.status = .cancellationRequested := by
      intro job' hmem hrunId hlive
      rw [hjobs] at hmem
      obtain ⟨job, _, _, rfl⟩ := mem_cancelledJobs.mp ⟨hmem, hrunId⟩
      exact isLive_cancelWithRun hlive
    rw [hdb]
    refine .modify RunStep.refl hrun (.cancel target hstatus htargets ?_ hlive)
    rw [hpending, activeJobCount_pos]
    constructor
    · rintro ⟨job, hjob, hrunId, hreq⟩
      obtain ⟨hmem, hrunId'⟩ := mem_cancelledJobs.mpr ⟨job, hjob, hrunId, rfl⟩
      exact ⟨_, hjobs ▸ hmem, hrunId', by rw [hreq]; rfl⟩
    · rintro ⟨job', hmem, hrunId, hactive⟩
      have hreq := hlive job' hmem hrunId ((isLive_iff _).mpr (.inl hactive))
      rw [hjobs] at hmem
      obtain ⟨job, hjob, hlink, rfl⟩ := mem_cancelledJobs.mp ⟨hmem, hrunId⟩
      exact ⟨job, hjob, hlink, hreq⟩
  | finalizeResearchRunCancellation r =>
    obtain rfl | ⟨run, hrun, hstatus, hactive, rfl⟩ := finalizeResearchRunCancellation_ok h
    · exact .keepRuns
    · exact .modify RunStep.refl hrun (.finalize hstatus hactive)
  | resumeResearchRun r =>
    obtain ⟨s, hs, rfl⟩ := map_eq_ok.mp h
    obtain ⟨run, _, stage, _, hrun, hstatus, _, _, hsubmit⟩ := resumeResearchRun_ok hs
    rw [hsubmit.runs]
    exact .modify RunStep.refl hrun (.resume stage.stageId hstatus)
  | startRunStage i fence =>
    obtain ⟨_, _, hfenced, _, _, _, hstatus, rfl⟩ := startRunStage_ok h
    exact .modify RunStep.refl hfenced.runRow (.start hfenced hstatus)
  | recordRunStageProviderAttempt i fence input =>
    obtain ⟨_, _, hfenced, _, _, ⟨_, rfl⟩ | ⟨hne, rfl⟩⟩ := recordRunStageProviderAttempt_ok h
    · exact .keepRuns
    · exact .modify RunStep.refl hfenced.runRow (.record hfenced hne)
  | queueRunStage i fence input key =>
    obtain ⟨s, hs, rfl⟩ := map_eq_ok.mp h
    obtain ⟨_, _, _, _, _, ⟨_, _, hsubmit⟩ | ⟨_, hsubmit⟩⟩ := queueRunStage_ok hs
    all_goals
      rw [hsubmit.runs]
      exact .keepRuns
  | commitRunStage i fence key output domainCommit =>
    obtain ⟨s, hs, rfl⟩ := map_eq_ok.mp h
    obtain ⟨_, _, hfenced, _, ⟨rfl, _⟩ | ⟨_, _, _, hable, _, stage, progress, _, rfl⟩⟩ :=
      commitRunStage_ok hs
    · exact .keepRuns
    · exact .modify RunStep.refl hfenced.runRow (.commit stage progress hfenced hable)
  | blockRunStage i fence errorClass reason =>
    obtain ⟨_, _, hfenced, _, ⟨rfl, _⟩ | ⟨_, hable, rfl⟩⟩ := blockRunStage_ok h
    · exact .keepRuns
    · exact .modify RunStep.refl hfenced.runRow (.block hfenced hable)
  | setResearchRunBoundary i fence boundary reason =>
    obtain ⟨_, _, hfenced, _, hstage, ⟨_, rfl⟩ | ⟨_, hable, rfl⟩⟩ := setResearchRunBoundary_ok h
    · exact .keepRuns
    · exact .modify RunStep.refl hfenced.runRow (.boundary hfenced hstage hable)
  | failRunStage i fence errorClass m =>
    obtain ⟨_, _, hfenced, _, _, hable, rfl⟩ := failRunStage_ok h
    exact .modify RunStep.refl hfenced.runRow (.fail hfenced hable)
  | markDownstreamStagesStale i =>
    obtain ⟨_, _, _, hrun, rfl | ⟨_, rfl⟩⟩ := markDownstreamStagesStale_ok h
    · exact .keepRuns
    · exact .modify RunStep.refl hrun (.keep ⟨⟨rfl, rfl, rfl⟩, rfl, rfl⟩ rfl)
  | restartRunStage i key input =>
    obtain ⟨s, hs, rfl⟩ := map_eq_ok.mp h
    obtain ⟨_, _, hstage, hrun, hsame | ⟨_, _, hactive, hable, progress, hsubmit⟩⟩ :=
      restartRunStage_ok hs
    · rw [hsame]
      exact .keepRuns
    · rw [hsubmit.runs]
      exact .modify RunStep.refl hrun (.restart progress hstage hactive hable)
  | reserveSourceSearchAttempt i attempt workerId =>
    obtain rfl | ⟨_, _, hrun, _, ⟨_, rfl⟩ | rfl⟩ := reserveSourceSearchAttempt_ok h
    · exact .keepRuns
    · exact blockRunForSearchBudget_runSteps hrun
    · exact .modify RunStep.refl hrun .countSearch
  | commitSourceSearchResults i attempt workerId output newCount register =>
    obtain ⟨_, _, _, hrun, _, rfl⟩ | ⟨_, _, _, _, _, rfl⟩ := commitSourceSearchResults_ok h
    · exact blockRunForSearchBudget_runSteps hrun
    · exact .keepRuns
  | _ =>
    rw [(perform_framed h).runs rfl]
    exact .keepRuns

/-- **Single cancellations.**  A successful call that cancels a job cancels its run as
    `CancelsRun` says. -/
theorem perform_cancelsJob {j : ℕ} (h : perform db op = .ok db')
    (hop : op.cancellation db = some j) : ∃ job job', CancelsJob db db' op j job job' := by
  have hsome {o : Option ℕ} (hnone : o = none) : o ≠ some j := by rw [hnone]; nofun
  cases op with
  | requestJobCancellation i m =>
    obtain ⟨_, hnone⟩ | ⟨job, job', hc⟩ := requestJobCancellation_cancels h
    · exact absurd hop (hsome hnone)
    · cases hop.symm.trans hc.cancellation
      exact ⟨job, job', hc⟩
  | acknowledgeJobCancellation i workerId =>
    obtain ⟨job, job', hc⟩ := acknowledgeJobCancellation_cancels h
    cases hop.symm.trans hc.cancellation
    exact ⟨job, job', hc⟩
  | releaseJobLease i workerId =>
    obtain ⟨_, hnone⟩ | ⟨job, job', hc⟩ := releaseJobLease_cancels h
    · exact absurd hop (hsome hnone)
    · cases hop.symm.trans hc.cancellation
      exact ⟨job, job', hc⟩
  | recoverExpiredJob i runIds random =>
    obtain ⟨hnone, _⟩ | ⟨job, job', hc⟩ := recoverExpiredJob_cancels h
    · exact absurd hop (hsome hnone)
    · cases hop.symm.trans hc.cancellation
      exact ⟨job, job', hc⟩
  | _ => cases hop

/-- `queueRunStage` leaves the runs alone, and its run executes. -/
theorem queueRunStage_run {i : ℕ} {fence : RunStageJobFence} {input : InputReference}
    {key : JobKey} {stage : RunStageRow}
    (h : perform db (.queueRunStage i fence input key) = .ok db')
    (hfenced : FencedStage db i fence run stage) :
    db'.runs = db.runs ∧ run.status ∈ [.queued, .running] := by
  obtain ⟨s, hs, rfl⟩ := map_eq_ok.mp h
  obtain ⟨_, _, hfenced', hstatus, _, hsubmit⟩ := queueRunStage_ok hs
  cases hfenced.stageRow.symm.trans hfenced'.stageRow
  cases hfenced.runRow.symm.trans hfenced'.runRow
  refine ⟨?_, hstatus⟩
  obtain ⟨_, _, hsubmit⟩ | ⟨_, hsubmit⟩ := hsubmit
  all_goals rw [hsubmit.runs]; rfl

/-- A job that is added to a run by a service other than the queue itself finds a run that is not
    being cancelled. -/
theorem InsertsJob.run_status {i : ℕ} {job : JobRow} (hins : InsertsJob db db' op i job)
    (hjob : db'.jobs[i]? = some job) (h : perform db op = .ok db') (hrunId : job.runId = some r)
    (hrun : db'.runs[r]? = some run) :
    (∃ input, op = .submitJob input ∧ input.runId = some r ∧ db'.runs = db.runs) ∨
      run.status ∉ [.cancelling, .cancelled] := by
  obtain ⟨hi, input, hnew, _, _, _, rfl⟩ := hins
  have hinserted : db' ≠ db := by
    rintro rfl
    simp [hi] at hjob
  have hqueued {f : ResearchRunRow → ResearchRunRow} (hruns : db'.runs = db.runs.modify r f)
      (hf : ∀ run, (f run).status = .queued) : run.status ∉ [.cancelling, .cancelled] := by
    rw [hruns, List.getElem?_modify_eq, Option.map_eq_map, Option.map_eq_some_iff] at hrun
    obtain ⟨run₀, _, rfl⟩ := hrun
    simp [hf]
  have hexecuting {run₀ : ResearchRunRow}
      (hq : db'.runs = db.runs ∧ run₀.status ∈ [.queued, .running]) (hrun₀ : db.runs[r]? = some run₀) :
      run.status ∉ [.cancelling, .cancelled] := by
    rw [hq.1, hrun₀] at hrun
    cases hrun
    obtain hs | hs := by simpa using hq.2
    all_goals simp [hs]
  cases hnew with
  | submit input => exact .inl ⟨input, rfl, hrunId, (perform_framed h).runs rfl⟩
  | search hopen =>
    obtain ⟨run₀, hrun₀, hstatus⟩ := hopen r hrunId
    rw [(perform_framed h).runs rfl, hrun₀] at hrun
    cases hrun
    refine .inr fun hmem => hstatus ?_
    obtain hs | hs := by simpa using hmem
    all_goals simp [hs]
  | create input request initial =>
    obtain rfl : db.runs.length = r := Option.some.inj hrunId
    obtain ⟨s, hs, rfl⟩ := map_eq_ok.mp h
    obtain hsame | ⟨_, _, _, _, hsubmit, hdb⟩ := createResearchRun_ok hs
    · exact absurd hsame hinserted
    · rw [hdb, hsubmit.runs, Db.insertStages_runs, Db.insertRun_runs,
        getElem?_concat_length] at hrun
      cases hrun
      exact .inr (by simp [newResearchRun])
  | resume input _ _ =>
    cases hrunId
    obtain ⟨s, hs, rfl⟩ := map_eq_ok.mp h
    obtain ⟨_, _, stage, _, _, _, _, _, hsubmit⟩ := resumeResearchRun_ok hs
    exact .inr (hqueued hsubmit.runs fun _ => rfl)
  | requeue hfenced _ =>
    cases hrunId
    exact .inr (hexecuting (queueRunStage_run h hfenced) hfenced.runRow)
  | queueNext hfenced _ =>
    cases hrunId
    exact .inr (hexecuting (queueRunStage_run h hfenced) hfenced.runRow)
  | restart hstage _ =>
    cases hrunId
    obtain ⟨s, hs, rfl⟩ := map_eq_ok.mp h
    obtain ⟨_, stage, hstage', _, hsame | ⟨_, _, _, _, _, hsubmit⟩⟩ := restartRunStage_ok hs
    · exact absurd hsame hinserted
    · cases hstage.symm.trans hstage'
      exact .inr (hqueued hsubmit.runs fun _ => rfl)

end

end ResearchWorkbench
