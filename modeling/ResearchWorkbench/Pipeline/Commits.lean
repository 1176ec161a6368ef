import ResearchWorkbench.System.StageSteps

namespace ResearchWorkbench

/-!
# Stage commits and stage statuses

A stage row is committed when it moves to `SUCCEEDED`, and it is only re-queued under a new
generation once it was.  `resumeResearchRun` alone re-queues a committed row in place.

* `CommitsAgree` — a row has a commit of its generation exactly if it is `SUCCEEDED` or `STALE`;
* `StageStep.isCommitted` — the step lemma;
* `commit_iff_committed` — where no stale row is resumed, commits and statuses agree;
* `resumed_stale_stage_disagrees` — a resumed stale row is `QUEUED` with a commit.
-/

variable {δ : Type}

/-- The statuses of a committed stage. -/
def RunStageStatus.isCommitted (status : RunStageStatus) : Bool := status ∈ [.succeeded, .stale]

/-- The stage row `i` has a commit of its own generation. -/
def HasCommit (commits : List StageCommitRow) (i : ℕ) (stage : RunStageRow) : Prop :=
  ∃ commit ∈ commits, commit.runStageId = i ∧ commit.generation = stage.generation

/-- Commits belong to stage rows, and to those that are committed. -/
structure CommitsAgree (db : Db δ) : Prop where
  linked : ∀ commit ∈ db.commits, commit.runStageId < db.stages.length
  agree : ∀ (i : ℕ) (stage : RunStageRow), db.stages[i]? = some stage →
    (HasCommit db.commits i stage ↔ stage.status.isCommitted)

/-- The run an operation resumes. -/
def Op.resumedRun : Op δ → Option ℕ
  | .resumeResearchRun runId => some runId
  | _ => none

/-- No run is resumed at a stale stage row. -/
def ResumesNoStale (db : Db δ) (op : Op δ) : Prop :=
  ∀ runId ∈ op.resumedRun, ∀ row ∈ firstUnfinishedStage db.stages runId, row.2.status ≠ .stale

instance (db : Db δ) (op : Op δ) : Decidable (ResumesNoStale db op) :=
  inferInstanceAs (Decidable (∀ runId ∈ op.resumedRun, _))

section
variable {db db' : Db δ} {op : Op δ} {i : ℕ} {stage stage' : RunStageRow}

/-- A step keeps a row committed or not, or it commits it. -/
theorem StageStep.isCommitted (h : StageStep db db' op i stage stage')
    (hok : ResumesNoStale db op) :
    stage'.status.isCommitted = stage.status.isCommitted ∨
      ∃ key hash, stage'.status.isCommitted ∧
        db'.commits = db.commits ++ [⟨i, stage.generation, key, hash⟩] := by
  cases h with
  | keep => exact .inl rfl
  | start hstatus _ =>
    obtain h | h := by simpa using hstatus
    all_goals rw [h]; exact .inl rfl
  | record _ => exact .inl rfl
  | succeed _ _ hcommits => exact .inr ⟨_, _, rfl, hcommits⟩
  | fail _ _ hstatus =>
    obtain h | h := by simpa using hstatus
    all_goals rw [h]; exact .inl rfl
  | block hstatus =>
    obtain h | h | h | h := by simpa using hstatus
    all_goals rw [h]; exact .inl rfl
  | cancel hopen =>
    obtain h | h | h := by simpa [RunStageStatus.isOpen] using hopen
    all_goals rw [h]; exact .inl rfl
  | cancelWithJob hopen =>
    obtain h | h | h := by simpa [RunStageStatus.isOpen] using hopen
    all_goals rw [h]; exact .inl rfl
  | requeue _ hstatus =>
    obtain h | h | h | h | h := by simpa using hstatus
    all_goals rw [h]; exact .inl rfl
  | resume hfirst hstatus =>
    have hfresh := hok _ rfl _ hfirst
    obtain h | h | h | h | h | h := by simpa using hstatus
    case inr.inr.inr.inr.inr => exact absurd h hfresh
    all_goals rw [h]; exact .inl rfl
  | markStale _ _ _ _ _ _ _ hstatus =>
    rw [hstatus]
    exact .inl rfl

/-- A new row is not committed. -/
theorem NewStage.isCommitted (h : NewStage db op stage) : stage.status.isCommitted = false := by
  cases h with
  | create input initial hmem =>
    obtain ⟨definition, _, rfl⟩ := List.mem_map.mp hmem
    split <;> rfl
  | next _ _ _ _ => rfl
  | restart _ _ _ _ => rfl

theorem hasCommit_congr {commits : List StageCommitRow} (h : SameStage stage stage') :
    HasCommit commits i stage' ↔ HasCommit commits i stage := by
  simp only [HasCommit, h.generation]

variable [DomainStore δ]

/-- **The step lemma.**  Where no stale row is resumed, commits keep agreeing with statuses. -/
theorem perform_commitsAgree (hrun : perform db op = .ok db') (hok : ResumesNoStale db op)
    (h : CommitsAgree db) : CommitsAgree db' := by
  have hstages := perform_stages hrun
  obtain hsame | ⟨k, fence, key, output, dc, committed, hop, hk, _, hcommits, hk'⟩ :=
    perform_commits hrun
  · refine ⟨fun commit hc => ?_, fun i stage' hstage' => ?_⟩
    · rw [hsame] at hc
      exact lt_of_lt_of_le (h.linked commit hc) hstages.length_le
    rw [hsame]
    obtain ⟨stage, hstage, hstep⟩ | ⟨hi, hnew⟩ := hstages.cases hstage'
    · rw [hasCommit_congr hstep.sameStage, h.agree i stage hstage]
      obtain heq | ⟨_, _, _, hadded⟩ := hstep.isCommitted hok
      · rw [heq]
      · simp [hsame] at hadded
    · refine iff_of_false ?_ (by simp [hnew.isCommitted])
      rintro ⟨commit, hc, rfl, _⟩
      exact absurd (h.linked commit hc) (Nat.not_lt.mpr hi)
  · -- the row `k` is committed, and every other row keeps its commits
    have hkLt := (List.getElem?_eq_some_iff.mp hk).1
    refine ⟨fun commit hc => ?_, fun i stage' hstage' => ?_⟩
    · rw [hcommits, List.mem_append, List.mem_singleton] at hc
      obtain hc | rfl := hc
      · exact lt_of_lt_of_le (h.linked commit hc) hstages.length_le
      · exact lt_of_lt_of_le hkLt hstages.length_le
    by_cases hik : i = k
    · subst hik
      obtain rfl : committed.succeed db.now output = stage' := by simpa [hk'] using hstage'
      refine iff_of_true ⟨⟨i, committed.generation, key, output.hash⟩, ?_, rfl, rfl⟩ rfl
      rw [hcommits]
      exact List.mem_append_right _ (List.mem_singleton_self _)
    obtain ⟨stage, hstage, hstep⟩ | ⟨_, hnew⟩ := hstages.cases hstage'
    · have hother : HasCommit db'.commits i stage' ↔ HasCommit db.commits i stage := by
        rw [hasCommit_congr hstep.sameStage, hcommits]
        simp [HasCommit, or_and_right, exists_or, Ne.symm hik]
      rw [hother, h.agree i stage hstage]
      obtain heq | ⟨_, _, _, hadded⟩ := hstep.isCommitted hok
      · rw [heq]
      · rw [hcommits] at hadded
        simp [Ne.symm hik] at hadded
    · rw [hop] at hnew
      cases hnew

theorem Db.ReachableBy.commitsAgree (h : db.ReachableBy ResumesNoStale) : CommitsAgree db := by
  refine h.invariant (I := CommitsAgree) (fun db h₀ => ⟨?_, ?_⟩)
    fun _ _ _ hI hok hrun => perform_commitsAgree hrun hok hI
  · simp [h₀.commits]
  · simp [h₀.stages]

/-- **Commits and statuses agree.**  Where no stale row is resumed, a stage row has a commit of its
    generation exactly if it is `SUCCEEDED` or `STALE`; so a commit of a `QUEUED` or `RUNNING` row
    that does not fail performs the domain commit and moves the row to `SUCCEEDED`. -/
theorem commit_iff_committed (h : db.ReachableBy ResumesNoStale)
    (hstage : db.stages[i]? = some stage) :
    ((∃ commit ∈ db.commits, commit.runStageId = i ∧ commit.generation = stage.generation) ↔
      stage.status ∈ [.succeeded, .stale]) ∧
    ∀ fence key output domainCommit r, stage.status ∈ [.queued, .running] →
      commitRunStage db i fence key output domainCommit = .ok r →
      r.created = true ∧ domainCommit db.domain = .ok r.db.domain ∧
        r.db.stages[i]? = some (stage.succeed db.now output) := by
  have hagree := h.commitsAgree.agree i stage hstage
  refine ⟨by simpa [HasCommit, RunStageStatus.isCommitted] using hagree, ?_⟩
  intro fence key output domainCommit r hstatus hr
  have hnone : ¬ HasCommit db.commits i stage := by
    rw [hagree]
    obtain h | h := by simpa using hstatus
    all_goals rw [h]; exact nofun
  obtain ⟨_, stage', hfenced, _, ⟨_, commit, hexisting⟩ | ⟨_, _, _, _, _, _, _, hdomain, rfl⟩⟩ :=
    commitRunStage_ok hr
  all_goals obtain rfl : stage = stage' := Option.some.inj (hstage.symm.trans hfenced.stageRow)
  · refine absurd ⟨commit, List.mem_of_find?_eq_some hexisting, ?_⟩ hnone
    have := List.find?_some hexisting
    simp only [decide_eq_true_eq] at this
    exact ⟨this.1, this.2.1⟩
  · exact ⟨rfl, hdomain, getElem?_modify_eq hstage⟩

end

/-! ### A stale stage that is resumed -/

/-- Worker 0 claims the job, starts it, and executes and commits its stage row. -/
def executeStage (jobId runStageId : ℕ) (stage : AIStage) (generation : ℕ) : List (Op Unit) :=
  let fence : RunStageJobFence := ⟨jobId, runStageId, 1, 0⟩
  [.claimJobs { workerId := 0, leaseDurationMs := 1000 } [],
    .startJob jobId 0 none,
    .startRunStage runStageId fence,
    .commitRunStage runStageId fence (.stage 0 stage generation) ⟨0, false, 0⟩ .ok]

/-- The boundary of assisted mode after a stage, and the end of its job. -/
def pauseAfterStage (jobId runStageId : ℕ) : List (Op Unit) :=
  [.setResearchRunBoundary runStageId ⟨jobId, runStageId, 1, 0⟩ .paused none,
    .completeJob jobId 0 0]

/-- The first two stages of an assisted run, with the pauses after them. -/
def twoStages : List (Op Unit) :=
  .createResearchRun { projectId := 0, mode := .assisted, idempotencyKey := 0 } ::
    executeStage 0 0 .intakeAnalysis 1 ++ pauseAfterStage 0 0 ++
    .resumeResearchRun 0 :: executeStage 1 1 .questionDecomposition 1 ++ pauseAfterStage 1 1

/-- The first stage is restarted and committed again, and the run is resumed at the second, which
    went stale. -/
def resumedStale : List (Op Unit) :=
  twoStages ++ .restartRunStage 0 (.custom 0) (.document 0) ::
    executeStage 2 11 .intakeAnalysis 2 ++ pauseAfterStage 2 11 ++ [.resumeResearchRun 0]

/-- After the resumption the second stage is `QUEUED` with the commit of its only generation. -/
theorem resumed_stale_stage_disagrees :
    ¬ ∀ db : Db Unit, db.Reachable → ∀ (i : ℕ) (stage : RunStageRow), db.stages[i]? = some stage →
      ((∃ commit ∈ db.commits, commit.runStageId = i ∧ commit.generation = stage.generation) ↔
        stage.status ∈ [.succeeded, .stale]) := by
  intro hall
  let db := resumedStale.foldl transact (Db.initial [approvedProject] ())
  have hreach : db.Reachable := Db.reachable_ofActions (Db.initial_initial _ ()) _
  have hqueued : ∃ stage ∈ db.stages[1]?, stage.status = .queued ∧
      ∃ commit ∈ db.commits, commit.runStageId = 1 ∧ commit.generation = stage.generation := by
    decide +kernel
  obtain ⟨stage, hstage, hstatus, hcommit⟩ := hqueued
  have := (hall db hreach 1 stage hstage).mp hcommit
  simp [hstatus] at this

/-- After the first two stages of a run, both are committed and `SUCCEEDED`. -/
theorem commit_iff_committed_twoStages :
    ∃ stage, (twoStages.foldl transact (Db.initial [approvedProject] ())).stages[1]? = some stage ∧
      ∃ commit ∈ (twoStages.foldl transact (Db.initial [approvedProject] ())).commits,
        commit.runStageId = 1 ∧ commit.generation = stage.generation := by
  have hsucceeded : ∃ stage ∈ (twoStages.foldl transact
      (Db.initial [approvedProject] ())).stages[1]?, stage.status = .succeeded := by
    decide +kernel
  obtain ⟨stage, hstage, hstatus⟩ := hsucceeded
  refine ⟨stage, hstage, (commit_iff_committed ?_ hstage).1.mpr (by simp [hstatus])⟩
  exact Db.reachableBy_ofTrace (Db.initial_initial _ ()) (by decide +kernel)

end ResearchWorkbench
