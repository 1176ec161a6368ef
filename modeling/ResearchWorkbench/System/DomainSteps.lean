import ResearchWorkbench.System.StageSteps

namespace ResearchWorkbench

/-!
# What an operation does to the domain tables

* `DomainStep db db' op` — `op` may change the domain tables so, and adds a stage commit exactly
  when it performs a domain commit;
* `perform_domain` — a successful operation changes them in these ways only.
-/

variable {δ : Type}

/-- `op` may change the domain tables and the commits so. -/
inductive DomainStep [DomainStore δ] (db db' : Db δ) : Op δ → Prop
  | keep (op : Op δ) (domain : db'.domain = db.domain) (commits : db'.commits = db.commits) :
      DomainStep db db' op
  /-- An edit by another service. -/
  | edit {edit : δ → δ} (domain : db'.domain = edit db.domain) (commits : db'.commits = db.commits) :
      DomainStep db db' (.editDomain edit)
  /-- The results of a source search. -/
  | register {jobId attempt workerId output newCount : ℕ} {register : δ → Except ServiceError δ}
      (domain : register db.domain = .ok db'.domain) (commits : db'.commits = db.commits) :
      DomainStep db db'
        (.commitSourceSearchResults jobId attempt workerId output newCount register)
  /-- What the given rows generated is superseded. -/
  | supersede {op : Op δ} (ids : List ℕ)
      (invalidates : (∃ i, op = .markDownstreamStagesStale i) ∨
        ∃ i key input, op = .restartRunStage i key input)
      (domain : db'.domain = DomainStore.markGeneratedDomainEffectsNonCurrent ids db.domain)
      (commits : db'.commits = db.commits) : DomainStep db db' op
  /-- The effects of a stage, with its commit. -/
  | commit {i : ℕ} {fence : RunStageJobFence} {key : CommitKey} {output : StageOutput}
      {domainCommit : δ → Except ServiceError δ} {stage : RunStageRow}
      (stageRow : db.stages[i]? = some stage)
      (free : existingCommit db i stage.generation key = none)
      (domain : domainCommit db.domain = .ok db'.domain)
      (commits : db'.commits = db.commits ++ [⟨i, stage.generation, key, output.hash⟩])
      (succeeded : db'.stages[i]? = some (stage.succeed db.now output)) :
      DomainStep db db' (.commitRunStage i fence key output domainCommit)

section
variable {db db' : Db δ} {op : Op δ}

theorem Submits.domain {input : SubmitJobInput} {r : SubmittedJob δ} (h : Submits db input r) :
    r.db.domain = db.domain := by
  cases h <;> rfl

theorem blockRunForSearchBudget_domain (runId : ℕ) (run : ResearchRunRow)
    (violations : List String) :
    (blockRunForSearchBudget db runId run violations).domain = db.domain := by
  unfold blockRunForSearchBudget
  split <;> rfl

variable [DomainStore δ]

/-- An operation that commits no stage leaves the commits alone. -/
theorem perform_commits_same (h : perform db op = .ok db') (hop : op.writes .commits = false) :
    db'.commits = db.commits := (perform_framed h).commits hop

/-- **Domain.**  Every successful operation changes the domain tables as `DomainStep` allows. -/
theorem perform_domain (h : perform db op = .ok db') : DomainStep db db' op := by
  have hcommits := perform_commits_same h
  have hsettle {jobId : ℕ} {job job' : JobRow} {f : JobAttemptRow → JobAttemptRow}
      (hruns : RunsOnly (db.settleAttempt jobId job job' f) db') : db'.domain = db.domain :=
    hruns.domain
  cases op with
  | tick ms => exact .keep _ (by obtain rfl := pure_eq_ok.mp h; rfl) (hcommits rfl)
  | setProject projectId project =>
    obtain rfl := pure_eq_ok.mp h
    exact .keep _ (by unfold setProject; split <;> rfl) (hcommits rfl)
  | editDomain edit => exact .edit (by obtain rfl := pure_eq_ok.mp h; rfl) (hcommits rfl)
  | approveRun projectId =>
    obtain rfl := pure_eq_ok.mp h
    exact .keep _ (by unfold approveRun; split <;> rfl) (hcommits rfl)
  | submitJob input =>
    obtain ⟨r, hr, rfl⟩ := map_eq_ok.mp h
    exact .keep _ (submitJob_ok hr).domain (hcommits rfl)
  | claimJobs input locked => exact .keep _ (by obtain rfl := claimJobs_ok h; rfl) (hcommits rfl)
  | startJob jobId workerId version =>
    obtain ⟨_, _, _, _, rfl⟩ := startJob_ok h
    exact .keep _ rfl (hcommits rfl)
  | heartbeatJob jobId workerId lease =>
    obtain ⟨_, _, _, _, rfl⟩ := heartbeatJob_ok h
    exact .keep _ rfl (hcommits rfl)
  | completeJob jobId workerId output =>
    obtain ⟨_, _, _, _, rfl⟩ := completeJob_ok h
    exact .keep _ rfl (hcommits rfl)
  | failJob input =>
    obtain ⟨_, _, _, _, _, _, ⟨_, _, rfl⟩ | ⟨_, hrec⟩⟩ := failJob_ok h
    · exact .keep _ rfl (hcommits rfl)
    · exact .keep _ (hsettle (reconcileLinkedJobFailure_runsOnly hrec)) (hcommits rfl)
  | requestJobCancellation jobId requestedBy =>
    obtain ⟨_, _, ⟨rfl, _⟩ | ⟨_, hrec⟩⟩ := requestJobCancellation_ok h
    · exact .keep _ rfl rfl
    · exact .keep _ (reconcileLinkedJobCancellation_runsOnly hrec).domain (hcommits rfl)
  | acknowledgeJobCancellation jobId workerId =>
    obtain ⟨_, _, _, _, hrec⟩ := acknowledgeJobCancellation_ok h
    exact .keep _ (hsettle (reconcileLinkedJobCancellation_runsOnly hrec)) (hcommits rfl)
  | releaseJobLease jobId workerId =>
    obtain ⟨_, _, _, ⟨_, rfl⟩ | ⟨_, hrec⟩⟩ := releaseJobLease_ok h
    · exact .keep _ rfl (hcommits rfl)
    · exact .keep _ (hsettle (reconcileLinkedJobCancellation_runsOnly hrec)) (hcommits rfl)
  | recoverExpiredJob jobId runIds random =>
    obtain ⟨rfl, _⟩ | ⟨_, _, _, _, _, _, ⟨_, hrec⟩ | ⟨_, hrec⟩ | ⟨_, rfl⟩⟩ := recoverExpiredJob_ok h
    · exact .keep _ rfl rfl
    · exact .keep _ (hsettle (reconcileLinkedJobFailure_runsOnly hrec)) (hcommits rfl)
    · exact .keep _ (hsettle (reconcileLinkedJobCancellation_runsOnly hrec)) (hcommits rfl)
    · exact .keep _ rfl (hcommits rfl)
  | manualRetryJob jobId =>
    obtain ⟨_, _, _, _, rfl⟩ := manualRetryJob_ok h
    exact .keep _ rfl (hcommits rfl)
  | createResearchRun input =>
    obtain ⟨r, hr, rfl⟩ := map_eq_ok.mp h
    obtain hsame | ⟨_, _, _, _, hsubmit, hdb⟩ := createResearchRun_ok hr
    · exact .keep _ (by rw [hsame]) (hcommits rfl)
    · exact .keep _ (by rw [hdb]; exact hsubmit.domain) (hcommits rfl)
  | requestResearchRunCancellation runId cancelledBy =>
    obtain ⟨_, _, rfl | ⟨_, _, _, _, hruns, _⟩⟩ := requestResearchRunCancellation_ok h
    · exact .keep _ rfl rfl
    · exact .keep _ hruns.domain (hcommits rfl)
  | finalizeResearchRunCancellation runId =>
    obtain rfl | ⟨_, _, _, _, rfl⟩ := finalizeResearchRunCancellation_ok h
    · exact .keep _ rfl rfl
    · exact .keep _ rfl (hcommits rfl)
  | resumeResearchRun runId =>
    obtain ⟨r, hr, rfl⟩ := map_eq_ok.mp h
    obtain ⟨_, _, _, _, _, _, _, _, hsubmit⟩ := resumeResearchRun_ok hr
    exact .keep _ hsubmit.domain (hcommits rfl)
  | startRunStage i fence =>
    obtain ⟨_, _, _, _, _, _, _, rfl⟩ := startRunStage_ok h
    exact .keep _ rfl (hcommits rfl)
  | recordRunStageProviderAttempt i fence input =>
    obtain ⟨_, _, _, _, _, ⟨_, rfl⟩ | ⟨_, rfl⟩⟩ := recordRunStageProviderAttempt_ok h
    all_goals exact .keep _ rfl (hcommits rfl)
  | queueRunStage i fence input key =>
    obtain ⟨r, hr, rfl⟩ := map_eq_ok.mp h
    obtain ⟨_, _, _, _, _, ⟨_, _, hsubmit⟩ | ⟨_, hsubmit⟩⟩ := queueRunStage_ok hr
    all_goals exact .keep _ hsubmit.domain (hcommits rfl)
  | commitRunStage i fence key output domainCommit =>
    obtain ⟨r, hr, rfl⟩ := map_eq_ok.mp h
    obtain ⟨_, stage, hfenced, _, ⟨rfl, _⟩ | ⟨hfree, _, _, _, _, _, _, hdomain, rfl⟩⟩ :=
      commitRunStage_ok hr
    · exact .keep _ rfl rfl
    · exact .commit hfenced.stageRow hfree hdomain rfl (getElem?_modify_eq hfenced.stageRow)
  | blockRunStage i fence errorClass reason =>
    obtain ⟨_, _, _, _, ⟨rfl, _⟩ | ⟨_, _, rfl⟩⟩ := blockRunStage_ok h
    all_goals exact .keep _ rfl (hcommits rfl)
  | setResearchRunBoundary i fence boundary reason =>
    obtain ⟨_, _, _, _, _, ⟨_, rfl⟩ | ⟨_, _, rfl⟩⟩ := setResearchRunBoundary_ok h
    all_goals exact .keep _ rfl (hcommits rfl)
  | failRunStage i fence errorClass error =>
    obtain ⟨_, _, _, _, _, _, rfl⟩ := failRunStage_ok h
    exact .keep _ rfl (hcommits rfl)
  | markDownstreamStagesStale i =>
    obtain ⟨_, _, _, _, rfl | ⟨_, rfl⟩⟩ := markDownstreamStagesStale_ok h
    · exact .keep _ rfl rfl
    · exact .supersede _ (.inl ⟨i, rfl⟩) rfl (hcommits rfl)
  | restartRunStage i key input =>
    obtain ⟨r, hr, rfl⟩ := map_eq_ok.mp h
    obtain ⟨_, _, _, _, hsame | ⟨_, _, _, _, _, hsubmit⟩⟩ := restartRunStage_ok hr
    · exact .keep _ (by rw [hsame]) (hcommits rfl)
    · exact .supersede _ (.inr ⟨i, key, input, rfl⟩) hsubmit.domain (hcommits rfl)
  | submitSourceSearchJob input =>
    obtain ⟨r, hr, rfl⟩ := map_eq_ok.mp h
    exact .keep _ (submitSourceSearchJob_ok hr).1.domain (hcommits rfl)
  | reserveSourceSearchAttempt jobId attempt workerId =>
    obtain rfl | ⟨_, _, _, _, ⟨_, rfl⟩ | rfl⟩ := reserveSourceSearchAttempt_ok h
    · exact .keep _ rfl rfl
    · exact .keep _ (blockRunForSearchBudget_domain _ _ _) (hcommits rfl)
    · exact .keep _ rfl (hcommits rfl)
  | commitSourceSearchResults jobId attempt workerId output newCount register =>
    obtain ⟨_, _, _, _, _, rfl⟩ | ⟨_, _, _, _, hregister, rfl⟩ := commitSourceSearchResults_ok h
    · exact .keep _ (blockRunForSearchBudget_domain _ _ _) (hcommits rfl)
    · exact .register hregister (hcommits rfl)

end

end ResearchWorkbench
