import ResearchWorkbench.System.JobSteps

namespace ResearchWorkbench

/-!
# What an operation does to stages and commits

Everything an operation can do to a row of `research_run_stages`, said once, and the one operation
that adds to `stage_domain_commits`.

* `StageStep db db' op i stage stage'` — `op`, from `db` to `db'`, may turn the stage row `i` from
  `stage` into `stage'`;
* `NewStage db op stage` — `op` may insert the row `stage`;
* `perform_stages` — a successful operation changes the stages in these ways only;
* `perform_commits` — only `commitRunStage` adds a commit, of a running stage that then succeeds.
-/

variable {δ : Type}

/-! ### Stages -/

/-- `op` may change the stage row `i` so, the database becoming `db'`. -/
inductive StageStep (db db' : Db δ) : Op δ → ℕ → RunStageRow → RunStageRow → Prop
  | keep (op : Op δ) (i : ℕ) (stage : RunStageRow) : StageStep db db' op i stage stage
  | start {i : ℕ} {fence : RunStageJobFence} {stage : RunStageRow}
      (status : stage.status ∈ [.queued, .running]) (deps : DependenciesSucceeded db stage) :
      StageStep db db' (.startRunStage i fence) i stage (stage.start db.now)
  | record {i : ℕ} {fence : RunStageJobFence} {input : ProviderAttempt} {stage : RunStageRow}
      (status : stage.status = .running) :
      StageStep db db' (.recordRunStageProviderAttempt i fence input) i stage
        (stage.recordAttempt input)
  | succeed {i : ℕ} {fence : RunStageJobFence} {key : CommitKey} {output : StageOutput}
      {domainCommit : δ → Except ServiceError δ} {stage : RunStageRow}
      (status : stage.status = .running) (deps : DependenciesSucceeded db stage)
      (commits : db'.commits = db.commits ++ [⟨i, stage.generation, key, output.hash⟩]) :
      StageStep db db' (.commitRunStage i fence key output domainCommit) i stage
        (stage.succeed db.now output)
  | fail {op : Op δ} {i : ℕ} {stage : RunStageRow} (errorClass : JobErrorClass)
      (sanitizedError : String) (status : stage.status ∈ [.queued, .running]) :
      StageStep db db' op i stage (stage.fail db.now errorClass sanitizedError)
  | block {i : ℕ} {fence : RunStageJobFence} {errorClass : JobErrorClass} {reason : String}
      {stage : RunStageRow} (status : stage.status ∈ [.pending, .queued, .running, .blocked]) :
      StageStep db db' (.blockRunStage i fence errorClass reason) i stage
        (stage.block db.now errorClass reason)
  | cancel {op : Op δ} {i : ℕ} {stage : RunStageRow} (status : stage.status.isOpen) :
      StageStep db db' op i stage (stage.cancel db.now)
  | cancelWithJob {op : Op δ} {i : ℕ} {stage : RunStageRow} (status : stage.status.isOpen) :
      StageStep db db' op i stage (stage.cancelWithJob db.now)
  | requeue {i : ℕ} {fence : RunStageJobFence} {input : InputReference} {key : JobKey}
      {stage : RunStageRow} (deps : DependenciesSucceeded db stage)
      (status : stage.status ∈ [.pending, .queued, .failed, .cancelled, .blocked]) :
      StageStep db db' (.queueRunStage i fence input key) i stage (stage.requeue input)
  | resume {runId i : ℕ} {input : InputReference} {stage : RunStageRow}
      (first : firstUnfinishedStage db.stages runId = some (i, stage))
      (status : stage.status ∈ [.pending, .queued, .failed, .cancelled, .blocked, .stale]) :
      StageStep db db' (.resumeResearchRun runId) i stage (stage.resume input)
  | markStale {op : Op δ} {i : ℕ} {stage : RunStageRow} (j : ℕ) (earlier : RunStageRow)
      (downstreamOf : op = .markDownstreamStagesStale j ∨
        ∃ key input, op = .restartRunStage j key input)
      (earlierRow : db.stages[j]? = some earlier) (run : stage.runId = earlier.runId)
      (ordinal : earlier.ordinal < stage.ordinal) (latest : isLatestGeneration db.stages stage)
      (status : stage.status = .succeeded) :
      StageStep db db' op i stage (stage.markStale db.now)

/-- What no step of a stage row changes. -/
structure SameStage (stage stage' : RunStageRow) : Prop where
  runId : stage'.runId = stage.runId
  stageId : stage'.stageId = stage.stageId
  ordinal : stage'.ordinal = stage.ordinal
  generation : stage'.generation = stage.generation

theorem StageStep.sameStage {db db' : Db δ} {op : Op δ} {i : ℕ} {stage stage' : RunStageRow}
    (h : StageStep db db' op i stage stage') : SameStage stage stage' := by
  cases h <;> exact ⟨rfl, rfl, rfl, rfl⟩

/-- `op` may insert the row `stage`. -/
inductive NewStage (db : Db δ) : Op δ → RunStageRow → Prop
  | create (input : CreateResearchRunInput) (initial : InputReference) {stage : RunStageRow}
      (mem : stage ∈ initialStages db.runs.length initial) :
      NewStage db (.createResearchRun input) stage
  | next {i : ℕ} {fence : RunStageJobFence} {input : InputReference} {key : JobKey}
      {run : ResearchRunRow} {stage : RunStageRow} (fenced : FencedStage db i fence run stage)
      (deps : DependenciesSucceeded db stage) (status : stage.status = .stale)
      (unique : ∀ other ∈ db.stages, ¬ (other.runId = stage.runId ∧
        other.stageId = stage.stageId ∧ other.generation = stage.generation + 1)) :
      NewStage db (.queueRunStage i fence input key) (stage.nextGeneration input)
  | restart {i : ℕ} {key : JobKey} {input : InputReference} {stage : RunStageRow}
      (stageRow : db.stages[i]? = some stage) (latest : isLatestGeneration db.stages stage)
      (status : stage.status ∈ [.succeeded, .failed, .blocked, .stale, .cancelled])
      (inactive : db.activeJobCount stage.runId = 0) :
      NewStage db (.restartRunStage i key input) (stage.nextGeneration input)

/-- The changes of a stage row that a linked job causes when it dies. -/
def LinkedChange (now : ℕ) (stage stage' : RunStageRow) : Prop :=
  stage' = stage ∨
    (∃ e m, stage.status ∈ [.queued, .running] ∧ stage' = stage.fail now e m) ∨
    (stage.status.isOpen ∧ (stage' = stage.cancel now ∨ stage' = stage.cancelWithJob now))

section
variable {db db' : Db δ}

theorem LinkedChange.stageStep {op : Op δ} {i : ℕ} {stage stage' : RunStageRow}
    (h : LinkedChange db.now stage stage') : StageStep db db' op i stage stage' := by
  obtain rfl | ⟨e, m, hstatus, rfl⟩ | ⟨hopen, rfl | rfl⟩ := h
  · exact .keep _ _ _
  · exact .fail e m hstatus
  · exact .cancel hopen
  · exact .cancelWithJob hopen

theorem failLinkedStage_stages {job : JobRow} {l : LinkedResearchState} (hl : Linked db job l)
    (e : JobErrorClass) (m : String) :
    TableStep (fun _ => LinkedChange db.now) (fun _ _ => False) db.stages
      (failLinkedStage db l e m).stages := by
  have hkeep : TableStep (fun _ => LinkedChange db.now) (fun _ _ => False) db.stages db.stages :=
    .refl (fun _ _ => .inl rfl) _
  unfold failLinkedStage
  split
  · rename_i stageId stage hstage
    obtain ⟨hrow, _⟩ := hl.stageRow stageId stage hstage
    split
    · rename_i hstatus
      have hfail : TableStep (fun _ => LinkedChange db.now) (fun _ _ => False) db.stages
          (db.stages.modify stageId (·.fail db.now e m)) :=
        .modify (fun _ _ => .inl rfl) hrow (.inr (.inl ⟨e, m, by simpa using hstatus.1, rfl⟩))
      split <;> exact hfail
    · exact hkeep
  · exact hkeep

theorem beginRunCancellation_stages (db : Db δ) (runId : ℕ) (run : ResearchRunRow) (m : String) :
    (beginRunCancellation db runId run m).1.stages = db.stages := by
  unfold beginRunCancellation
  split <;> rfl

theorem finishRunCancellation_stages (db : Db δ) (runId : ℕ) :
    TableStep (fun _ => LinkedChange db.now) (fun _ _ => False) db.stages
      (finishRunCancellation db runId).stages := by
  refine .updateWhere (fun _ _ => .inl rfl) fun i stage _ hp => .inr (.inr ⟨?_, .inl rfl⟩)
  simp only [Bool.decide_and, Bool.and_eq_true, decide_eq_true_eq] at hp
  exact hp.2

theorem LinkedChange.trans {now : ℕ} {s s' s'' : RunStageRow} (h : LinkedChange now s s')
    (h' : LinkedChange now s' s'') : LinkedChange now s s'' := by
  obtain rfl | ⟨e, m, hstatus, rfl⟩ | ⟨hopen, hs⟩ := h
  · exact h'
  · obtain rfl | ⟨_, _, hstatus', _⟩ | ⟨hopen', _⟩ := h'
    · exact .inr (.inl ⟨e, m, hstatus, rfl⟩)
    · simp [RunStageRow.fail] at hstatus'
    · cases hopen'
  · -- a cancelled row is neither executing nor open
    have hcancelled : s'.status = .cancelled := by obtain rfl | rfl := hs <;> rfl
    obtain rfl | ⟨_, _, hstatus', _⟩ | ⟨hopen', _⟩ := h'
    · exact .inr (.inr ⟨hopen, hs⟩)
    · simp [hcancelled] at hstatus'
    · rw [hcancelled] at hopen'
      cases hopen'

theorem cancelLinkedRun_stages {job : JobRow} {l : LinkedResearchState} (hl : Linked db job l)
    (status : JobStatus) (m : String) :
    TableStep (fun _ => LinkedChange db.now) (fun _ _ => False) db.stages
      (cancelLinkedRun db l status m).stages := by
  have hkeep : TableStep (fun _ => LinkedChange db.now) (fun _ _ => False) db.stages db.stages :=
    .refl (fun _ _ => .inl rfl) _
  have hnow := (beginRunCancellation_runsOnly db l.runId l.run m).now
  have hstages := beginRunCancellation_stages db l.runId l.run m
  unfold cancelLinkedRun
  split
  · exact hkeep
  simp only
  split
  · rw [hstages]
    exact hkeep
  have hstage : TableStep (fun _ => LinkedChange db.now) (fun _ _ => False) db.stages
      (cancelLinkedStage (beginRunCancellation db l.runId l.run m).1 l.stage).stages := by
    unfold cancelLinkedStage
    split
    · rename_i stageId stage hstage
      obtain ⟨hrow, _⟩ := hl.stageRow stageId stage hstage
      split
      · rename_i hopen
        simp only [Db.updateStage_stages, hstages, hnow]
        exact .modify (fun _ _ => .inl rfl) hrow (.inr (.inr ⟨hopen.1, .inr rfl⟩))
      · rw [hstages]
        exact hkeep
    · rw [hstages]
      exact hkeep
  split
  · exact hstage
  · have hnow' := (beginRunCancellation_runsOnly db l.runId l.run m).trans
      (cancelLinkedStage_runsOnly _ l.stage)
    have hfinish := finishRunCancellation_stages
      (cancelLinkedStage (beginRunCancellation db l.runId l.run m).1 l.stage) l.runId
    rw [hnow'.now] at hfinish
    exact .trans (fun _ _ _ _ => .trans) (fun _ _ _ h => h.elim) hstage hfinish

theorem reconcileLinkedJobFailure_stages {job : JobRow} {e : JobErrorClass} {m : String}
    (h : reconcileLinkedJobFailure db job e m = .ok db') :
    TableStep (fun _ => LinkedChange db.now) (fun _ _ => False) db.stages db'.stages := by
  obtain ⟨_, rfl⟩ | ⟨l, hl, rfl⟩ := reconcileLinkedJobFailure_ok h
  · exact .refl (fun _ _ => .inl rfl) _
  · exact failLinkedStage_stages hl e m

theorem reconcileLinkedJobCancellation_stages {job : JobRow} {m : String}
    (h : reconcileLinkedJobCancellation db job m = .ok db') :
    TableStep (fun _ => LinkedChange db.now) (fun _ _ => False) db.stages db'.stages := by
  obtain ⟨_, rfl⟩ | ⟨l, hl, rfl⟩ := reconcileLinkedJobCancellation_ok h
  · exact .refl (fun _ _ => .inl rfl) _
  · exact cancelLinkedRun_stages hl job.status m

theorem Submits.stages {input : SubmitJobInput} {r : SubmittedJob δ} (h : Submits db input r) :
    r.db.stages = db.stages := by
  cases h <;> rfl

variable {op : Op δ}

/-- The downstream rows of a stage become stale. -/
theorem markStale_step {i j : ℕ} {earlier row : RunStageRow}
    (hop : op = .markDownstreamStagesStale j ∨ ∃ key input, op = .restartRunStage j key input)
    (hearlier : db.stages[j]? = some earlier) (hrow : db.stages[i]? = some row)
    (hi : decide (i ∈ succeededDownstream db.stages earlier.runId earlier.ordinal)) :
    StageStep db db' op i row (row.markStale db.now) := by
  obtain ⟨row', hrow', hrun, hordinal, hlatest, hstatus⟩ :=
    mem_succeededDownstream.mp (of_decide_eq_true hi)
  obtain rfl : row = row' := Option.some.inj (hrow.symm.trans hrow')
  exact .markStale j earlier hop hearlier hrun hordinal hlatest hstatus

/-- The changes that linked jobs cause, as steps of an operation. -/
theorem stageSteps_of_linked {now : ℕ} {stages stages' : List RunStageRow}
    (h : TableStep (fun _ => LinkedChange now) (fun _ _ => False) stages stages')
    (hnow : now = db.now) (hstages : stages = db.stages) :
    TableStep (StageStep db db' op) (fun _ => NewStage db op) db.stages stages' := by
  subst hnow hstages
  exact h.mono (fun _ _ _ _ h => h.stageStep) fun _ _ _ h => h.elim

variable [DomainStore δ]

/-- **Stages.**  A successful operation changes and inserts stage rows only as `StageStep` and
    `NewStage` allow. -/
theorem perform_stages (h : perform db op = .ok db') :
    TableStep (StageStep db db' op) (fun _ => NewStage db op) db.stages db'.stages := by
  have hkeep {N : ℕ → RunStageRow → Prop} {db'' : Db δ} :
      TableStep (StageStep db db'' op) N db.stages db.stages := .refl (.keep op) _
  cases op with
  | failJob input =>
    obtain ⟨_, _, _, _, _, _, ⟨_, _, rfl⟩ | ⟨_, hrec⟩⟩ := failJob_ok h
    · exact hkeep
    · exact stageSteps_of_linked (reconcileLinkedJobFailure_stages hrec) rfl rfl
  | requestJobCancellation jobId requestedBy =>
    obtain ⟨_, _, ⟨rfl, _⟩ | ⟨_, hrec⟩⟩ := requestJobCancellation_ok h
    · exact hkeep
    · exact stageSteps_of_linked (reconcileLinkedJobCancellation_stages hrec) rfl rfl
  | acknowledgeJobCancellation jobId workerId =>
    obtain ⟨_, _, _, _, hrec⟩ := acknowledgeJobCancellation_ok h
    exact stageSteps_of_linked (reconcileLinkedJobCancellation_stages hrec) rfl rfl
  | releaseJobLease jobId workerId =>
    obtain ⟨_, _, _, ⟨_, rfl⟩ | ⟨_, hrec⟩⟩ := releaseJobLease_ok h
    · exact hkeep
    · exact stageSteps_of_linked (reconcileLinkedJobCancellation_stages hrec) rfl rfl
  | recoverExpiredJob jobId runIds random =>
    obtain ⟨rfl, _⟩ | ⟨_, _, _, _, _, _, ⟨_, hrec⟩ | ⟨_, hrec⟩ | ⟨_, rfl⟩⟩ := recoverExpiredJob_ok h
    · exact hkeep
    · exact stageSteps_of_linked (reconcileLinkedJobFailure_stages hrec) rfl rfl
    · exact stageSteps_of_linked (reconcileLinkedJobCancellation_stages hrec) rfl rfl
    · exact hkeep
  | createResearchRun input =>
    obtain ⟨r, hr, rfl⟩ := map_eq_ok.mp h
    obtain hsame | ⟨_, initial, _, _, hsubmit, hdb⟩ := createResearchRun_ok hr
    · rw [hsame]
      exact hkeep
    · rw [hdb, hsubmit.stages]
      refine TableStep.append hkeep fun _ stage hstage => ?_
      exact .create input initial (List.mem_of_getElem? hstage)
  | requestResearchRunCancellation runId cancelledBy =>
    obtain ⟨_, _, rfl | ⟨_, _, _, _, _, _, hstages⟩⟩ := requestResearchRunCancellation_ok h
    · exact hkeep
    · refine hstages.mono (fun _ _ _ _ hc => ?_) fun _ _ _ h => h.elim
      obtain rfl | ⟨hopen, rfl⟩ := hc
      · exact .keep _ _ _
      · exact .cancel hopen
  | finalizeResearchRunCancellation runId =>
    obtain rfl | ⟨_, _, _, _, rfl⟩ := finalizeResearchRunCancellation_ok h
    · exact hkeep
    · exact stageSteps_of_linked (finishRunCancellation_stages db runId) rfl rfl
  | resumeResearchRun runId =>
    obtain ⟨r, hr, rfl⟩ := map_eq_ok.mp h
    obtain ⟨_, i, stage, _, _, _, hfirst, hstatus, hsubmit⟩ := resumeResearchRun_ok hr
    rw [hsubmit.stages]
    exact .modify (.keep _) (firstUnfinishedStage_eq_some hfirst).1 (.resume hfirst hstatus)
  | startRunStage i fence =>
    obtain ⟨_, stage, hfenced, _, hdeps, hstatus, _, rfl⟩ := startRunStage_ok h
    exact .modify (.keep _) hfenced.stageRow (.start hstatus hdeps)
  | recordRunStageProviderAttempt i fence input =>
    obtain ⟨_, stage, hfenced, _, hstatus, ⟨_, rfl⟩ | ⟨_, rfl⟩⟩ :=
      recordRunStageProviderAttempt_ok h
    · exact hkeep
    · exact .modify (.keep _) hfenced.stageRow (.record hstatus)
  | queueRunStage i fence input key =>
    obtain ⟨r, hr, rfl⟩ := map_eq_ok.mp h
    obtain ⟨_, stage, hfenced, _, hdeps, ⟨hstale, hunique, hsubmit⟩ | ⟨hstatus, hsubmit⟩⟩ :=
      queueRunStage_ok hr
    · rw [hsubmit.stages]
      exact TableStep.append_singleton hkeep (.next hfenced hdeps hstale hunique)
    · rw [hsubmit.stages]
      exact .modify (.keep _) hfenced.stageRow (.requeue hdeps hstatus)
  | commitRunStage i fence key output domainCommit =>
    obtain ⟨r, hr, rfl⟩ := map_eq_ok.mp h
    obtain ⟨_, stage, hfenced, _, ⟨rfl, _⟩ | ⟨_, hstatus, hdeps, _, _, _, _, _, rfl⟩⟩ :=
      commitRunStage_ok hr
    · exact hkeep
    · exact .modify (.keep _) hfenced.stageRow (.succeed hstatus hdeps rfl)
  | blockRunStage i fence errorClass reason =>
    obtain ⟨_, stage, hfenced, _, ⟨rfl, _⟩ | ⟨hstatus, _, rfl⟩⟩ := blockRunStage_ok h
    · exact hkeep
    · exact .modify (.keep _) hfenced.stageRow (.block hstatus)
  | failRunStage i fence errorClass error =>
    obtain ⟨_, stage, hfenced, _, hstatus, _, rfl⟩ := failRunStage_ok h
    exact .modify (.keep _) hfenced.stageRow (.fail errorClass error hstatus)
  | markDownstreamStagesStale j =>
    obtain ⟨_, stage, hstage, _, rfl | ⟨_, rfl⟩⟩ := markDownstreamStagesStale_ok h
    · exact hkeep
    · exact .updateWhere (.keep _) fun i row hrow hi => markStale_step (.inl rfl) hstage hrow hi
  | restartRunStage j key input =>
    obtain ⟨r, hr, rfl⟩ := map_eq_ok.mp h
    obtain ⟨_, stage, hstage, _, hsame | ⟨hlatest, hstatus, hactive, _, _, hsubmit⟩⟩ :=
      restartRunStage_ok hr
    · rw [hsame]
      exact hkeep
    · rw [hsubmit.stages]
      refine TableStep.append_singleton ?_ (.restart hstage hlatest hstatus hactive)
      exact .updateWhere (.keep _) fun i row hrow hi =>
        markStale_step (.inr ⟨key, input, rfl⟩) hstage hrow hi
  | _ =>
    rw [(perform_framed h).stages rfl]
    exact hkeep

/-- **Commits.**  A stage is committed at most once by an operation, and only by `commitRunStage`,
    while it runs. -/
theorem perform_commits (h : perform db op = .ok db') :
    db'.commits = db.commits ∨ ∃ i fence key output domainCommit stage,
      op = .commitRunStage i fence key output domainCommit ∧ db.stages[i]? = some stage ∧
      stage.status = .running ∧
      db'.commits = db.commits ++ [⟨i, stage.generation, key, output.hash⟩] ∧
      db'.stages[i]? = some (stage.succeed db.now output) := by
  cases op with
  | commitRunStage i fence key output domainCommit =>
    obtain ⟨r, hr, rfl⟩ := map_eq_ok.mp h
    obtain ⟨_, stage, hfenced, _, ⟨rfl, _⟩ | ⟨_, hstatus, _, _, _, _, _, _, rfl⟩⟩ :=
      commitRunStage_ok hr
    · exact .inl rfl
    · exact .inr ⟨i, fence, key, output, domainCommit, stage, rfl, hfenced.stageRow, hstatus, rfl,
        getElem?_modify_eq hfenced.stageRow⟩
  | _ => exact .inl ((perform_framed h).commits rfl)

end

end ResearchWorkbench
