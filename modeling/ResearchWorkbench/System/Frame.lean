import ResearchWorkbench.Services.RunEffects
import ResearchWorkbench.System.Operations

namespace ResearchWorkbench

/-!
# What operations leave alone

* `Op.tables` — the tables an operation may write to;
* `Framed` — the clock moves forward, and the other tables stay;
* `perform_framed` — every successful operation is framed.
-/

variable {δ : Type}

/-- The tables of runs and jobs. -/
inductive Table
  | runs | stages | commits | jobs | jobAttempts
  deriving DecidableEq

/-- The tables an operation may write to. -/
def Op.tables : Op δ → List Table
  | .tick .. | .setProject .. | .editDomain .. => []
  | .approveRun .. | .setResearchRunBoundary .. | .reserveSourceSearchAttempt .. => [.runs]
  | .submitJob .. | .submitSourceSearchJob .. | .heartbeatJob .. | .manualRetryJob .. => [.jobs]
  | .claimJobs .. | .startJob .. | .completeJob .. => [.jobs, .jobAttempts]
  | .failJob .. | .acknowledgeJobCancellation .. | .releaseJobLease .. | .recoverExpiredJob .. =>
    [.runs, .stages, .jobs, .jobAttempts]
  | .requestJobCancellation .. | .createResearchRun .. | .requestResearchRunCancellation ..
  | .resumeResearchRun .. | .queueRunStage .. | .restartRunStage .. => [.runs, .stages, .jobs]
  | .finalizeResearchRunCancellation .. | .startRunStage .. | .recordRunStageProviderAttempt ..
  | .blockRunStage .. | .failRunStage .. | .markDownstreamStagesStale .. => [.runs, .stages]
  | .commitRunStage .. => [.runs, .stages, .commits]
  | .commitSourceSearchResults .. => [.runs, .jobs]

/-- Whether an operation may write to a table. -/
def Op.writes (op : Op δ) (table : Table) : Bool := table ∈ op.tables

/-- The clock moves forward, no project goes away, and the tables that `op` does not write to
    stay. -/
structure Framed (op : Op δ) (db db' : Db δ) : Prop where
  now : db.now ≤ db'.now
  projects : db.projects.length ≤ db'.projects.length
  runs : op.writes .runs = false → db'.runs = db.runs
  stages : op.writes .stages = false → db'.stages = db.stages
  commits : op.writes .commits = false → db'.commits = db.commits
  jobs : op.writes .jobs = false → db'.jobs = db.jobs
  jobAttempts : op.writes .jobAttempts = false → db'.jobAttempts = db.jobAttempts

section
variable {db db' : Db δ} {op : Op δ}

theorem Framed.refl (op : Op δ) (db : Db δ) : Framed op db db :=
  ⟨le_rfl, le_rfl, fun _ => rfl, fun _ => rfl, fun _ => rfl, fun _ => rfl, fun _ => rfl⟩

/-- A step that is followed by changes of runs and stages. -/
theorem Framed.trans_runsOnly {db₁ : Db δ} (h : Framed op db db₁) (hruns : RunsOnly db₁ db')
    (h₁ : op.writes .runs) (h₂ : op.writes .stages) : Framed op db db' where
  now := hruns.now ▸ h.now
  projects := hruns.projects ▸ h.projects
  runs hop := by rw [h₁] at hop; cases hop
  stages hop := by rw [h₂] at hop; cases hop
  commits hop := hruns.commits.trans (h.commits hop)
  jobs hop := hruns.jobs.trans (h.jobs hop)
  jobAttempts hop := hruns.jobAttempts.trans (h.jobAttempts hop)

/-- A step that is followed by a submission. -/
theorem Framed.submits {db₁ : Db δ} {input : SubmitJobInput} {r : SubmittedJob δ}
    (h : Framed op db db₁) (hsubmit : Submits db₁ input r) (hop : op.writes .jobs) :
    Framed op db r.db := by
  cases hsubmit with
  | inserted _ _ _ =>
    refine ⟨h.now, h.projects, h.runs, h.stages, h.commits, fun hnot => ?_, h.jobAttempts⟩
    rw [hop] at hnot
    cases hnot
  | existing _ _ _ => exact h

theorem reconcileLinkedJobFailure_runsOnly {job : JobRow} {e : JobErrorClass} {m : String}
    (h : reconcileLinkedJobFailure db job e m = .ok db') : RunsOnly db db' := by
  obtain ⟨_, rfl⟩ | ⟨l, _, rfl⟩ := reconcileLinkedJobFailure_ok h
  · exact .refl _
  · exact failLinkedStage_runsOnly _ l e m

theorem reconcileLinkedJobCancellation_runsOnly {job : JobRow} {m : String}
    (h : reconcileLinkedJobCancellation db job m = .ok db') : RunsOnly db db' := by
  obtain ⟨_, rfl⟩ | ⟨l, _, rfl⟩ := reconcileLinkedJobCancellation_ok h
  · exact .refl _
  · exact cancelLinkedRun_runsOnly _ l job.status m

/-- The two updates of a worker call. -/
theorem Framed.settleAttempt {jobId : ℕ} {job job' : JobRow} {f : JobAttemptRow → JobAttemptRow}
    (h₁ : op.writes .jobs) (h₂ : op.writes .jobAttempts) :
    Framed op db (db.settleAttempt jobId job job' f) where
  now := le_rfl
  projects := le_rfl
  runs _ := rfl
  stages _ := rfl
  commits _ := rfl
  jobs hop := by rw [h₁] at hop; cases hop
  jobAttempts hop := by rw [h₂] at hop; cases hop

variable [DomainStore δ]

/-- **Frame.**  A successful operation writes to its own tables only. -/
theorem perform_framed (h : perform db op = .ok db') : Framed op db db' := by
  cases op with
  | tick ms =>
    obtain rfl := pure_eq_ok.mp h
    exact ⟨Nat.le_add_right _ _, le_rfl, fun _ => rfl, fun _ => rfl, fun _ => rfl, fun _ => rfl,
      fun _ => rfl⟩
  | setProject projectId project =>
    obtain rfl := pure_eq_ok.mp h
    unfold setProject
    split
    · exact ⟨le_rfl, by simp, fun _ => rfl, fun _ => rfl, fun _ => rfl, fun _ => rfl, fun _ => rfl⟩
    · exact ⟨le_rfl, by simp, fun _ => rfl, fun _ => rfl, fun _ => rfl, fun _ => rfl, fun _ => rfl⟩
  | editDomain edit =>
    obtain rfl := pure_eq_ok.mp h
    exact ⟨le_rfl, le_rfl, fun _ => rfl, fun _ => rfl, fun _ => rfl, fun _ => rfl, fun _ => rfl⟩
  | approveRun projectId =>
    obtain rfl := pure_eq_ok.mp h
    unfold approveRun
    split <;> exact ⟨le_rfl, le_rfl, nofun, fun _ => rfl, fun _ => rfl, fun _ => rfl, fun _ => rfl⟩
  | submitJob input =>
    obtain ⟨r, hr, rfl⟩ := map_eq_ok.mp h
    exact (Framed.refl _ _).submits (submitJob_ok hr) rfl
  | claimJobs input locked =>
    obtain rfl := claimJobs_ok h
    exact ⟨le_rfl, le_rfl, fun _ => rfl, fun _ => rfl, fun _ => rfl, nofun, nofun⟩
  | startJob jobId workerId version =>
    obtain ⟨_, _, _, _, rfl⟩ := startJob_ok h
    exact ⟨le_rfl, le_rfl, fun _ => rfl, fun _ => rfl, fun _ => rfl, nofun, nofun⟩
  | heartbeatJob jobId workerId lease =>
    obtain ⟨_, _, _, _, rfl⟩ := heartbeatJob_ok h
    exact ⟨le_rfl, le_rfl, fun _ => rfl, fun _ => rfl, fun _ => rfl, nofun, fun _ => rfl⟩
  | completeJob jobId workerId output =>
    obtain ⟨_, _, _, _, rfl⟩ := completeJob_ok h
    exact ⟨le_rfl, le_rfl, fun _ => rfl, fun _ => rfl, fun _ => rfl, nofun, nofun⟩
  | failJob input =>
    obtain ⟨_, _, _, _, _, _, ⟨_, _, rfl⟩ | ⟨_, hrec⟩⟩ := failJob_ok h
    · exact .settleAttempt rfl rfl
    · exact (Framed.settleAttempt rfl rfl).trans_runsOnly
        (reconcileLinkedJobFailure_runsOnly hrec) rfl rfl
  | requestJobCancellation jobId requestedBy =>
    obtain ⟨_, _, ⟨rfl, _⟩ | ⟨_, hrec⟩⟩ := requestJobCancellation_ok h
    · exact .refl _ _
    · refine Framed.trans_runsOnly ?_ (reconcileLinkedJobCancellation_runsOnly hrec) rfl rfl
      exact ⟨le_rfl, le_rfl, nofun, nofun, fun _ => rfl, nofun, fun _ => rfl⟩
  | acknowledgeJobCancellation jobId workerId =>
    obtain ⟨_, _, _, _, hrec⟩ := acknowledgeJobCancellation_ok h
    exact (Framed.settleAttempt rfl rfl).trans_runsOnly
      (reconcileLinkedJobCancellation_runsOnly hrec) rfl rfl
  | releaseJobLease jobId workerId =>
    obtain ⟨_, _, _, ⟨_, rfl⟩ | ⟨_, hrec⟩⟩ := releaseJobLease_ok h
    · exact .settleAttempt rfl rfl
    · exact (Framed.settleAttempt rfl rfl).trans_runsOnly
        (reconcileLinkedJobCancellation_runsOnly hrec) rfl rfl
  | recoverExpiredJob jobId runIds random =>
    obtain ⟨rfl, _⟩ | ⟨_, _, _, _, _, _, ⟨_, hrec⟩ | ⟨_, hrec⟩ | ⟨_, rfl⟩⟩ := recoverExpiredJob_ok h
    · exact .refl _ _
    · exact (Framed.settleAttempt rfl rfl).trans_runsOnly
        (reconcileLinkedJobFailure_runsOnly hrec) rfl rfl
    · exact (Framed.settleAttempt rfl rfl).trans_runsOnly
        (reconcileLinkedJobCancellation_runsOnly hrec) rfl rfl
    · exact .settleAttempt rfl rfl
  | manualRetryJob jobId =>
    obtain ⟨_, _, _, _, rfl⟩ := manualRetryJob_ok h
    exact ⟨le_rfl, le_rfl, fun _ => rfl, fun _ => rfl, fun _ => rfl, nofun, fun _ => rfl⟩
  | createResearchRun input =>
    obtain ⟨r, hr, rfl⟩ := map_eq_ok.mp h
    obtain hsame | ⟨_, _, _, _, hsubmit, hdb⟩ := createResearchRun_ok hr
    · rw [hsame]
      exact .refl _ _
    · rw [hdb]
      refine Framed.submits ?_ hsubmit rfl
      exact ⟨le_rfl, le_rfl, nofun, nofun, fun _ => rfl, nofun, fun _ => rfl⟩
  | requestResearchRunCancellation runId cancelledBy =>
    obtain ⟨_, _, rfl | ⟨_, _, _, _, hruns, _⟩⟩ := requestResearchRunCancellation_ok h
    · exact .refl _ _
    · refine Framed.trans_runsOnly ?_ hruns rfl rfl
      exact ⟨le_rfl, le_rfl, nofun, nofun, fun _ => rfl, nofun, fun _ => rfl⟩
  | finalizeResearchRunCancellation runId =>
    obtain rfl | ⟨_, _, _, _, rfl⟩ := finalizeResearchRunCancellation_ok h
    · exact .refl _ _
    · exact ⟨le_rfl, le_rfl, nofun, nofun, fun _ => rfl, fun _ => rfl, fun _ => rfl⟩
  | resumeResearchRun runId =>
    obtain ⟨r, hr, rfl⟩ := map_eq_ok.mp h
    obtain ⟨_, _, _, _, _, _, _, _, hsubmit⟩ := resumeResearchRun_ok hr
    refine Framed.submits ?_ hsubmit rfl
    exact ⟨le_rfl, le_rfl, nofun, nofun, fun _ => rfl, nofun, fun _ => rfl⟩
  | startRunStage i fence =>
    obtain ⟨_, _, _, _, _, _, _, rfl⟩ := startRunStage_ok h
    exact ⟨le_rfl, le_rfl, nofun, nofun, fun _ => rfl, fun _ => rfl, fun _ => rfl⟩
  | recordRunStageProviderAttempt i fence input =>
    obtain ⟨_, _, _, _, _, ⟨_, rfl⟩ | ⟨_, rfl⟩⟩ := recordRunStageProviderAttempt_ok h
    · exact .refl _ _
    · exact ⟨le_rfl, le_rfl, nofun, nofun, fun _ => rfl, fun _ => rfl, fun _ => rfl⟩
  | queueRunStage i fence input key =>
    obtain ⟨r, hr, rfl⟩ := map_eq_ok.mp h
    obtain ⟨_, _, _, _, _, ⟨_, _, hsubmit⟩ | ⟨_, hsubmit⟩⟩ := queueRunStage_ok hr
    all_goals
      refine Framed.submits ?_ hsubmit rfl
      exact ⟨le_rfl, le_rfl, nofun, nofun, fun _ => rfl, nofun, fun _ => rfl⟩
  | commitRunStage i fence key output domainCommit =>
    obtain ⟨r, hr, rfl⟩ := map_eq_ok.mp h
    obtain ⟨_, _, _, _, ⟨rfl, _⟩ | ⟨_, _, _, _, _, _, _, _, rfl⟩⟩ := commitRunStage_ok hr
    · exact .refl _ _
    · exact ⟨le_rfl, le_rfl, nofun, nofun, nofun, fun _ => rfl, fun _ => rfl⟩
  | blockRunStage i fence errorClass reason =>
    obtain ⟨_, _, _, _, ⟨rfl, _⟩ | ⟨_, _, rfl⟩⟩ := blockRunStage_ok h
    · exact .refl _ _
    · exact ⟨le_rfl, le_rfl, nofun, nofun, fun _ => rfl, fun _ => rfl, fun _ => rfl⟩
  | setResearchRunBoundary i fence boundary reason =>
    obtain ⟨_, _, _, _, _, ⟨_, rfl⟩ | ⟨_, _, rfl⟩⟩ := setResearchRunBoundary_ok h
    · exact .refl _ _
    · exact ⟨le_rfl, le_rfl, nofun, fun _ => rfl, fun _ => rfl, fun _ => rfl, fun _ => rfl⟩
  | failRunStage i fence errorClass error =>
    obtain ⟨_, _, _, _, _, _, rfl⟩ := failRunStage_ok h
    exact ⟨le_rfl, le_rfl, nofun, nofun, fun _ => rfl, fun _ => rfl, fun _ => rfl⟩
  | markDownstreamStagesStale i =>
    obtain ⟨_, _, _, _, rfl | ⟨_, rfl⟩⟩ := markDownstreamStagesStale_ok h
    · exact .refl _ _
    · exact ⟨le_rfl, le_rfl, nofun, nofun, fun _ => rfl, fun _ => rfl, fun _ => rfl⟩
  | restartRunStage i key input =>
    obtain ⟨r, hr, rfl⟩ := map_eq_ok.mp h
    obtain ⟨_, _, _, _, hsame | ⟨_, _, _, _, _, hsubmit⟩⟩ := restartRunStage_ok hr
    · rw [hsame]
      exact .refl _ _
    · refine Framed.submits ?_ hsubmit rfl
      exact ⟨le_rfl, le_rfl, nofun, nofun, fun _ => rfl, nofun, fun _ => rfl⟩
  | submitSourceSearchJob input =>
    obtain ⟨r, hr, rfl⟩ := map_eq_ok.mp h
    exact (Framed.refl _ _).submits (submitSourceSearchJob_ok hr).1 rfl
  | reserveSourceSearchAttempt jobId attempt workerId =>
    obtain rfl | ⟨_, _, _, _, ⟨_, rfl⟩ | rfl⟩ := reserveSourceSearchAttempt_ok h
    · exact .refl _ _
    · unfold blockRunForSearchBudget
      split <;> exact ⟨le_rfl, le_rfl, nofun, fun _ => rfl, fun _ => rfl, fun _ => rfl, fun _ => rfl⟩
    · exact ⟨le_rfl, le_rfl, nofun, fun _ => rfl, fun _ => rfl, fun _ => rfl, fun _ => rfl⟩
  | commitSourceSearchResults jobId attempt workerId output newCount register =>
    obtain ⟨_, _, _, _, _, rfl⟩ | ⟨_, _, _, _, _, rfl⟩ := commitSourceSearchResults_ok h
    · unfold blockRunForSearchBudget
      split <;> exact ⟨le_rfl, le_rfl, nofun, fun _ => rfl, fun _ => rfl, nofun, fun _ => rfl⟩
    · exact ⟨le_rfl, le_rfl, nofun, fun _ => rfl, fun _ => rfl, nofun, fun _ => rfl⟩

/-- The clock only moves forward. -/
theorem perform_now (h : perform db op = .ok db') : db.now ≤ db'.now := (perform_framed h).now

end

end ResearchWorkbench
