import ResearchWorkbench.System.RunSteps
import ResearchWorkbench.Pipeline.Commits

namespace ResearchWorkbench

/-!
# Replays of a committed stage

A worker that dies between advancing the run and completing its job leaves the job to be delivered
again, and the handler then only advances the run once more.  It reads the run in one transaction
and acts in another, and its fence covers the job, not the place of the stage in the run.

* `replayCommittedStage` — the replay, with whatever happens between reading and acting;
* `boundaryAfter`, `planAdvancement_ok` — what is decided from what was read;
* `ReachesBoundary`, `QueuesStage` — when acting on it does something;
* `replay_unmoved_iff` — exactly when a replay changes nothing;
* `replay_pauses_resumed_run` — in assisted mode it pauses a run that executes the next stage.
-/

variable {δ : Type}

/-! ### The decision -/

/-- The statuses in which a run is not advanced. -/
def ResearchRunStatus.isStopped (status : ResearchRunStatus) : Bool :=
  status ∈ [.cancelling, .cancelled, .failed, .blocked]

/-- The boundary that a run of the given mode reaches after a stage. -/
def boundaryAfter (mode : ResearchRunMode) (stage : AIStage) (blocker : Bool) : Option RunBoundary :=
  if stage = .qaRevision then some (if blocker then .blocked else .approvalRequired)
  else if mode = .draftOnly ∧ stage = .draftGeneration then some .qaRequired
  else if mode = .assisted then some .paused
  else none

/-- The key under which the next stage of a run is queued. -/
def nextStageKey (runId : ℕ) (nextStage : RunStageRow) : JobKey :=
  .stage runId nextStage.stageId
    (if nextStage.status = .stale then nextStage.generation + 1 else nextStage.generation)

/-- What is decided for a stage that has succeeded. -/
inductive Plans (bundle : ResearchOrchestrationBundle) (output : StageOutput) : Advancement → Prop
  | nothing (stopped : bundle.run.status.isStopped) : Plans bundle output .nothing
  | boundary {boundary : RunBoundary} (reason : Option String)
      (running : ¬ bundle.run.status.isStopped)
      (ends : boundaryAfter bundle.run.mode bundle.stage.stageId
        (bundle.openBlocker || output.blocker) = some boundary) :
      Plans bundle output (.boundary boundary reason)
  | alreadyQueued {next : AIStage} {nextStageId : ℕ} {nextStage : RunStageRow}
      (running : ¬ bundle.run.status.isStopped)
      (ends : boundaryAfter bundle.run.mode bundle.stage.stageId
        (bundle.openBlocker || output.blocker) = none)
      (follows : nextPipelineStage bundle.stage.stageId = some next)
      (latest : bundle.latestStages next = some (nextStageId, nextStage))
      (status : nextStage.status ∈ [.queued, .running, .succeeded]) :
      Plans bundle output (.alreadyQueued nextStageId)
  | queue {next : AIStage} {nextStageId : ℕ} {nextStage : RunStageRow}
      (running : ¬ bundle.run.status.isStopped)
      (ends : boundaryAfter bundle.run.mode bundle.stage.stageId
        (bundle.openBlocker || output.blocker) = none)
      (follows : nextPipelineStage bundle.stage.stageId = some next)
      (latest : bundle.latestStages next = some (nextStageId, nextStage))
      (status : nextStage.status ∉ [.queued, .running, .succeeded]) :
      Plans bundle output (.queue nextStageId (safeStageJobInput bundle nextStageId nextStage)
        (nextStageKey bundle.stage.runId nextStage))

/-- Only the last stage has no next one, and it always ends at a boundary. -/
theorem nextPipelineStage_of_no_boundary {mode : ResearchRunMode} {stage : AIStage} {blocker : Bool}
    (h : boundaryAfter mode stage blocker = none) : ∃ next, nextPipelineStage stage = some next := by
  cases stage with
  | qaRevision => simp [boundaryAfter] at h
  | _ => exact ⟨_, rfl⟩

theorem planAdvancement_ok {bundle : ResearchOrchestrationBundle} {output : StageOutput}
    {advancement : Advancement} (h : planAdvancement bundle output = .ok advancement) :
    bundle.stage.status = .succeeded ∧ Plans bundle output advancement := by
  simp only [planAdvancement, bind_eq_ok, ensure_eq_ok] at h
  obtain ⟨_, hstatus, h⟩ := h
  refine ⟨hstatus, ?_⟩
  split at h
  · rename_i hstopped
    obtain rfl := pure_eq_ok.mp h
    exact .nothing (by simpa [ResearchRunStatus.isStopped] using hstopped)
  rename_i hrunning
  have hrunning : ¬ bundle.run.status.isStopped := by
    simpa [ResearchRunStatus.isStopped] using hrunning
  split at h
  · rename_i hqa
    split at h
    · obtain rfl := pure_eq_ok.mp h
      exact .boundary _ hrunning (by simp_all [boundaryAfter])
    · obtain rfl := pure_eq_ok.mp h
      exact .boundary _ hrunning (by simp_all [boundaryAfter])
  split at h
  · obtain rfl := pure_eq_ok.mp h
    exact .boundary _ hrunning (by simp_all [boundaryAfter])
  split at h
  · obtain rfl := pure_eq_ok.mp h
    exact .boundary _ hrunning (by simp_all [boundaryAfter])
  have hends : boundaryAfter bundle.run.mode bundle.stage.stageId
      (bundle.openBlocker || output.blocker) = none := by simp_all [boundaryAfter]
  obtain ⟨next, hnext⟩ := nextPipelineStage_of_no_boundary hends
  simp only [hnext, bind_eq_ok, require_eq_ok] at h
  obtain ⟨⟨nextStageId, nextStage⟩, hlatest, h⟩ := h
  split at h
  · obtain rfl := pure_eq_ok.mp h
    exact .alreadyQueued hrunning hends hnext hlatest ‹_›
  · obtain rfl := pure_eq_ok.mp h
    exact .queue hrunning hends hnext hlatest ‹_›

/-- A decision is made for a stage that has succeeded, if the next stage has a row or is not
    needed. -/
theorem planAdvancement_isOk {bundle : ResearchOrchestrationBundle} {output : StageOutput}
    (hstatus : bundle.stage.status = .succeeded)
    (hnext : boundaryAfter bundle.run.mode bundle.stage.stageId
        (bundle.openBlocker || output.blocker) = none →
      ∀ next, nextPipelineStage bundle.stage.stageId = some next →
        (bundle.latestStages next).isSome) :
    ∃ advancement, planAdvancement bundle output = .ok advancement := by
  simp only [planAdvancement, ensure, hstatus, ↓reduceIte, bind, Except.bind]
  split
  · exact ⟨_, rfl⟩
  split
  · split <;> exact ⟨_, rfl⟩
  split
  · exact ⟨_, rfl⟩
  split
  · exact ⟨_, rfl⟩
  split
  · exact ⟨_, rfl⟩
  · rename_i hqa hdraft hassisted _ next hfollows
    obtain ⟨row, hrow⟩ := Option.isSome_iff_exists.mp
      (hnext (by simp [boundaryAfter, hqa, hdraft, hassisted]) next hfollows)
    simp only [hrow, require]
    split <;> exact ⟨_, rfl⟩

/-! ### Acting on it -/

section
variable {db db' : Db δ} {i : ℕ} {fence : RunStageJobFence} {run : ResearchRunRow}
  {stage : RunStageRow} {output : StageOutput}

/-- The rows that a fenced call opens, and their project. -/
structure OpensStage (db : Db δ) (i : ℕ) (fence : RunStageJobFence) (run : ResearchRunRow)
    (stage : RunStageRow) : Prop extends FencedStage db i fence run stage where
  project : run.projectId < db.projects.length

theorem lockStageProjectFirst_eq_ok {allow : Bool} {locked : LockedStage} :
    lockStageProjectFirst db i (some fence) allow = .ok locked ↔
      OpensStage db i fence locked.run locked.stage ∧ (allow ∨ fence.runStageId = i) := by
  simp only [lockStageProjectFirst, bind_eq_ok, require_eq_ok, ensure_eq_ok, pure_eq_ok]
  constructor
  · rintro ⟨stage, hstage, run, hrun, _, hproject, _, hallow, _, hvalid, rfl⟩
    exact ⟨⟨⟨hstage, hrun, hvalid⟩, hproject⟩, hallow⟩
  · rintro ⟨hopens, hallow⟩
    exact ⟨_, hopens.stageRow, _, hopens.runRow, (), hopens.project, (), hallow, (), hopens.valid,
      rfl⟩

/-- The stage of the fence has succeeded and its run can move to the boundary. -/
def ReachesBoundary (db : Db δ) (i : ℕ) (fence : RunStageJobFence) (boundary : RunBoundary) : Prop :=
  ∃ run stage, OpensStage db i fence run stage ∧ fence.runStageId = i ∧ stage.status = .succeeded ∧
    run.status ≠ boundary.status ∧ canTransitionResearchRun run.status boundary.status

theorem setResearchRunBoundary_eq_ok {boundary : RunBoundary} {reason : Option String} :
    setResearchRunBoundary db i fence boundary reason = .ok db' ↔
      ∃ run stage, OpensStage db i fence run stage ∧ fence.runStageId = i ∧
        stage.status = .succeeded ∧ (run.status = boundary.status ∧ db' = db ∨
          run.status ≠ boundary.status ∧ canTransitionResearchRun run.status boundary.status ∧
          db' = db.updateRun stage.runId (·.reachBoundary boundary reason)) := by
  simp only [setResearchRunBoundary, bind_eq_ok, ensure_eq_ok, lockStageProjectFirst_eq_ok]
  constructor
  · rintro ⟨⟨run, stage⟩, ⟨hopens, hid⟩, _, hstatus, h⟩
    refine ⟨run, stage, hopens, by simpa using hid, hstatus, ?_⟩
    split at h
    · exact .inl ⟨‹_›, (pure_eq_ok.mp h).symm⟩
    · simp only [bind_eq_ok, pure_eq_ok, assertResearchRunTransition, ensure_eq_ok] at h
      obtain ⟨_, hable, rfl⟩ := h
      exact .inr ⟨‹_›, hable, rfl⟩
  · rintro ⟨run, stage, hopens, hid, hstatus, ⟨hsame, rfl⟩ | ⟨hne, hable, rfl⟩⟩
    · exact ⟨⟨run, stage⟩, ⟨hopens, .inr hid⟩, (), hstatus, by rw [if_pos hsame]; rfl⟩
    · refine ⟨⟨run, stage⟩, ⟨hopens, .inr hid⟩, (), hstatus, ?_⟩
      rw [if_neg hne]
      simp only [bind_eq_ok, pure_eq_ok, assertResearchRunTransition, ensure_eq_ok]
      exact ⟨(), hable, trivial⟩

/-- A job that holds the key already is the one that would be submitted. -/
def KeyAccepts (db : Db δ) (input : SubmitJobInput) : Prop :=
  ∀ held ∈ jobByKey db input.projectId input.idempotencyKey,
    held.2.jobType = input.jobType ∧ held.2.inputReference = input.inputReference ∧
      held.2.runId = input.runId ∧ held.2.runStageId = input.runStageId

/-- A stage job is accepted if its run allows an attempt and its key is free or its own. -/
theorem submitStageJob_isOk {runId target : ℕ} {stageId : AIStage} {input : InputReference}
    {key : JobKey} (hproject : run.projectId < db.projects.length)
    (hrun : db.runs[runId]? = some run) (hstage : db.stages[target]? = some stage)
    (hrunId : stage.runId = runId) :
    (∃ r, submitJobInTransaction db (pipelineStageJob runId run target stageId input key) = .ok r) ↔
      1 ≤ run.budget.maxStageAttempts ∧
        KeyAccepts db (pipelineStageJob runId run target stageId input key) := by
  have hdefinition : (getPipelineStageDefinition stageId).maxAttempts ≤ 3 ∧
      1 ≤ (getPipelineStageDefinition stageId).maxAttempts ∧
      1 ≤ (getPipelineStageDefinition stageId).timeoutMs ∧
      (getPipelineStageDefinition stageId).timeoutMs ≤ 86400000 := by
    cases stageId <;> decide
  have hreferences : jobReferencesExist db (pipelineStageJob runId run target stageId input key) := by
    refine ⟨?_, ?_, ?_, nofun⟩
    · simpa [pipelineStageJob] using hproject
    · simp [pipelineStageJob, hrun]
    · simp [pipelineStageJob, hstage, hrunId]
  have hmax : (pipelineStageJob runId run target stageId input key).maxAttempts =
      min (getPipelineStageDefinition stageId).maxAttempts run.budget.maxStageAttempts := rfl
  simp only [submitJobInTransaction, boundedInteger, bind_eq_ok, ensure_eq_ok, KeyAccepts]
  constructor
  · rintro ⟨r, _, _, _, hattempts, _, _, _, _, h⟩
    refine ⟨by omega, fun held hheld => ?_⟩
    rw [Option.mem_def] at hheld
    simp only [hheld, bind_eq_ok, ensure_eq_ok] at h
    exact h.choose_spec.1
  · rintro ⟨hattempts, hkey⟩
    have hbounds : (1 : ℤ) ≤ (pipelineStageJob runId run target stageId input key).maxAttempts ∧
        ((pipelineStageJob runId run target stageId input key).maxAttempts : ℤ) ≤ 100 := by
      omega
    have htimeout : (1 : ℤ) ≤ (pipelineStageJob runId run target stageId input key).timeoutMs ∧
        ((pipelineStageJob runId run target stageId input key).timeoutMs : ℤ) ≤ 86400000 := by
      simp only [pipelineStageJob]
      omega
    cases hheld : jobByKey db (pipelineStageJob runId run target stageId input key).projectId
        (pipelineStageJob runId run target stageId input key).idempotencyKey with
    | none =>
      refine ⟨⟨db.jobs.length, true,
        db.insertJob ((pipelineStageJob runId run target stageId input key).row db.now)⟩, (),
        by simp [pipelineStageJob], (), hbounds, (), htimeout, _, parseJobRetryPolicy_default, ?_⟩
      simp only [bind_eq_ok, ensure_eq_ok]
      exact ⟨(), hreferences, rfl⟩
    | some held =>
      refine ⟨⟨held.1, false, db⟩, (), by simp [pipelineStageJob], (), hbounds, (), htimeout, _,
        parseJobRetryPolicy_default, ?_⟩
      simp only [bind_eq_ok, ensure_eq_ok]
      exact ⟨(), hkey held hheld, rfl⟩

/-- A fenced worker can queue the stage row. -/
structure QueuesStage (db : Db δ) (i : ℕ) (fence : RunStageJobFence) (inputReference : InputReference)
    (key : JobKey) (run : ResearchRunRow) (stage : RunStageRow) : Prop where
  opens : OpensStage db i fence run stage
  executing : run.status ∈ [.queued, .running]
  dependencies : DependenciesSucceeded db stage
  status : stage.status ∈ [.pending, .queued, .failed, .cancelled, .blocked, .stale]
  free : stage.status = .stale → ∀ other ∈ db.stages, ¬ (other.runId = stage.runId ∧
    other.stageId = stage.stageId ∧ other.generation = stage.generation + 1)
  attempts : 1 ≤ run.budget.maxStageAttempts
  key : KeyAccepts db (pipelineStageJob stage.runId run
    (if stage.status = .stale then db.stages.length else i) stage.stageId inputReference key)

/-- A new generation is submitted like the row it follows. -/
theorem submitNextStage_isOk {inputReference : InputReference} {key : JobKey}
    (h : OpensStage db i fence run stage) :
    (∃ r, submitJobInTransaction (db.insertStages [stage.nextGeneration inputReference])
        (pipelineStageJob stage.runId run db.stages.length stage.stageId inputReference key)
          = .ok r) ↔
      1 ≤ run.budget.maxStageAttempts ∧ KeyAccepts db
        (pipelineStageJob stage.runId run db.stages.length stage.stageId inputReference key) :=
  submitStageJob_isOk h.project h.runRow (getElem?_concat_length _ _) rfl

/-- And so is a row that is queued in place. -/
theorem submitRequeuedStage_isOk {inputReference : InputReference} {key : JobKey}
    (h : OpensStage db i fence run stage) :
    (∃ r, submitJobInTransaction (db.updateStage i (·.requeue inputReference))
        (pipelineStageJob stage.runId run i stage.stageId inputReference key) = .ok r) ↔
      1 ≤ run.budget.maxStageAttempts ∧ KeyAccepts db
        (pipelineStageJob stage.runId run i stage.stageId inputReference key) :=
  submitStageJob_isOk h.project h.runRow (getElem?_modify_eq h.stageRow) rfl

theorem queueRunStage_isOk {inputReference : InputReference} {key : JobKey} :
    (∃ r, queueRunStage db i fence inputReference key = .ok r) ↔
      ∃ run stage, QueuesStage db i fence inputReference key run stage := by
  simp only [queueRunStage, bind_eq_ok, ensure_eq_ok, assertRunStageReaches_eq_ok,
    lockStageProjectFirst_eq_ok]
  constructor
  · rintro ⟨r, ⟨run, stage⟩, ⟨hopens, _⟩, _, hrun, _, hdeps, _, hstage, h⟩
    have hdeps := assertDependenciesSucceeded_eq_ok.mp hdeps
    by_cases hstale : stage.status = .stale
    · simp only [hstale, ↓reduceIte, bind_eq_ok] at h
      obtain ⟨_, hinsert, h⟩ := h
      obtain ⟨hfree, rfl⟩ := insertRunStage_ok hinsert
      obtain ⟨hattempts, hkey⟩ := (submitNextStage_isOk hopens).mp ⟨r, h⟩
      exact ⟨run, stage, hopens, by simpa using hrun, hdeps, reaches_queued.mp hstage,
        fun _ => hfree, hattempts, by rwa [if_pos hstale]⟩
    · simp only [hstale, ↓reduceIte] at h
      obtain ⟨hattempts, hkey⟩ := (submitRequeuedStage_isOk hopens).mp ⟨r, h⟩
      exact ⟨run, stage, hopens, by simpa using hrun, hdeps, reaches_queued.mp hstage,
        fun h => absurd h hstale, hattempts, by rwa [if_neg hstale]⟩
  · rintro ⟨run, stage, h⟩
    have hkey := h.key
    by_cases hstale : stage.status = .stale
    · rw [if_pos hstale] at hkey
      obtain ⟨r, hr⟩ := (submitNextStage_isOk h.opens).mpr ⟨h.attempts, hkey⟩
      refine ⟨r, ⟨run, stage⟩, ⟨h.opens, .inl trivial⟩, (), by simpa using h.executing, (),
        assertDependenciesSucceeded_eq_ok.mpr h.dependencies, (), reaches_queued.mpr h.status, ?_⟩
      simp only [hstale, ↓reduceIte, bind_eq_ok]
      refine ⟨_, ?_, hr⟩
      simp only [insertRunStage, bind_eq_ok, ensure_eq_ok, pure_eq_ok]
      exact ⟨(), h.free hstale, trivial⟩
    · rw [if_neg hstale] at hkey
      obtain ⟨r, hr⟩ := (submitRequeuedStage_isOk h.opens).mpr ⟨h.attempts, hkey⟩
      refine ⟨r, ⟨run, stage⟩, ⟨h.opens, .inl trivial⟩, (), by simpa using h.executing, (),
        assertDependenciesSucceeded_eq_ok.mpr h.dependencies, (), reaches_queued.mpr h.status, ?_⟩
      simpa only [hstale, ↓reduceIte] using hr

/-- Queuing a stage row changes the rows: it is touched, or a new generation is added. -/
theorem queueRunStage_moves {inputReference : InputReference} {key : JobKey} {r : SubmittedJob δ}
    (h : queueRunStage db i fence inputReference key = .ok r) : r.db.stages ≠ db.stages := by
  obtain ⟨_, stage, hfenced, _, _, ⟨_, _, hsubmit⟩ | ⟨_, hsubmit⟩⟩ := queueRunStage_ok h
  all_goals rw [hsubmit.stages]
  · intro heq
    simpa using congrArg List.length heq
  · intro heq
    have := congrArg (·[i]?) heq
    simp only [Db.updateStage_stages, getElem?_modify_eq hfenced.stageRow, hfenced.stageRow,
      Option.some.injEq] at this
    have := congrArg RunStageRow.version this
    simp [RunStageRow.requeue] at this

/-! ### The replay -/

/-- The statuses of the runs, the stage rows and the jobs are as before. -/
structure Unmoved (db db' : Db δ) : Prop where
  runs : db'.runs.map (·.status) = db.runs.map (·.status)
  stages : db'.stages = db.stages
  jobs : db'.jobs = db.jobs

theorem Unmoved.refl (db : Db δ) : Unmoved db db := ⟨rfl, rfl, rfl⟩

/-- Carrying a decision out would do something. -/
def Advancement.Moves (db : Db δ) (i : ℕ) (fence : RunStageJobFence) : Advancement → Prop
  | .nothing => False
  | .boundary target _ => ReachesBoundary db i fence target
  | .alreadyQueued _ => False
  | .queue nextStageId inputReference key =>
    ∃ run stage, QueuesStage db nextStageId fence inputReference key run stage

/-- What carrying a decision out makes of the database. -/
def carryOut (db : Db δ) (i : ℕ) (fence : RunStageJobFence) (advancement : Advancement) : Db δ :=
  match performAdvancement db i fence advancement with
  | .ok db' => db'
  | .error _ => db

theorem carryOut_of_ok {advancement : Advancement}
    (h : performAdvancement db i fence advancement = .ok db') :
    carryOut db i fence advancement = db' := by
  simp [carryOut, h]

theorem carryOut_of_error {advancement : Advancement} {e : ServiceError}
    (h : performAdvancement db i fence advancement = .error e) :
    carryOut db i fence advancement = db := by
  simp [carryOut, h]

/-- A run whose boundary is set changes its status. -/
theorem setBoundary_unmoved_iff (boundary : RunBoundary) (reason : Option String) :
    Unmoved db (carryOut db i fence (.boundary boundary reason)) ↔
      ¬ ReachesBoundary db i fence boundary := by
  cases hset : performAdvancement db i fence (.boundary boundary reason) with
  | error e =>
    rw [carryOut_of_error hset]
    refine iff_of_true (.refl db) ?_
    rintro ⟨run, stage, hopens, hid, hstatus, hne, hable⟩
    have hok : setResearchRunBoundary db i fence boundary reason =
        .ok (db.updateRun stage.runId (·.reachBoundary boundary reason)) :=
      setResearchRunBoundary_eq_ok.mpr
        ⟨run, stage, hopens, hid, hstatus, .inr ⟨hne, hable, rfl⟩⟩
    cases hok.symm.trans hset
  | ok db' =>
    rw [carryOut_of_ok hset]
    obtain ⟨run, stage, hopens, hid, hstatus, ⟨hsame, rfl⟩ | ⟨hne, hable, rfl⟩⟩ :=
      setResearchRunBoundary_eq_ok.mp hset
    · refine iff_of_true (.refl _) ?_
      rintro ⟨run', stage', hopens', _, _, hne, _⟩
      cases hopens.stageRow.symm.trans hopens'.stageRow
      cases hopens.runRow.symm.trans hopens'.runRow
      exact hne hsame
    · refine iff_of_false (fun hunmoved => ?_) fun hnot =>
        hnot ⟨run, stage, hopens, hid, hstatus, hne, hable⟩
      have := congrArg (·[stage.runId]?) hunmoved.runs
      simp only [Db.updateRun_runs, List.getElem?_map, getElem?_modify_eq hopens.runRow,
        hopens.runRow, Option.map_some, Option.some.injEq] at this
      exact hne this.symm

/-- **Acting.**  Carrying a decision out leaves everything as it was exactly if it has nothing to
    do. -/
theorem carryOut_unmoved_iff (advancement : Advancement) :
    Unmoved db (carryOut db i fence advancement) ↔ ¬ advancement.Moves db i fence := by
  cases advancement with
  | nothing => exact iff_of_true (.refl db) id
  | alreadyQueued _ => exact iff_of_true (.refl db) id
  | boundary boundary reason => exact setBoundary_unmoved_iff boundary reason
  | queue nextStageId inputReference key =>
    simp only [Advancement.Moves, ← queueRunStage_isOk]
    cases hqueue : queueRunStage db nextStageId fence inputReference key with
    | error e =>
      have : performAdvancement db i fence (.queue nextStageId inputReference key) = .error e := by
        simp [performAdvancement, hqueue, bind, Except.bind]
      rw [carryOut_of_error this]
      exact iff_of_true (.refl db) (by simp)
    | ok r =>
      have : performAdvancement db i fence (.queue nextStageId inputReference key) = .ok r.db := by
        simp only [performAdvancement, bind_eq_ok, pure_eq_ok]
        exact ⟨r, hqueue, rfl⟩
      rw [carryOut_of_ok this]
      exact iff_of_false (fun hunmoved => queueRunStage_moves hqueue hunmoved.stages) (by simp)

theorem assertRunStageJobFence_isOk :
    assertRunStageJobFence db i fence = .ok () ↔
      ∃ run stage, OpensStage db i fence run stage ∧ fence.runStageId = i := by
  simp only [assertRunStageJobFence, bind_eq_ok, lockStageProjectFirst_eq_ok]
  constructor
  · rintro ⟨⟨run, stage⟩, ⟨hopens, hid⟩, _⟩
    exact ⟨run, stage, hopens, by simpa using hid⟩
  · rintro ⟨run, stage, hopens, hid⟩
    exact ⟨⟨run, stage⟩, ⟨hopens, .inr hid⟩, rfl⟩

/-- What the bundle says is left to do. -/
def LeavesToDo (act : Db δ) (fence : RunStageJobFence) (bundle : ResearchOrchestrationBundle)
    (output : StageOutput) : Prop :=
  match boundaryAfter bundle.run.mode bundle.stage.stageId (bundle.openBlocker || output.blocker) with
  | some boundary => ReachesBoundary act bundle.runStageId fence boundary
  | none => ∃ next ∈ nextPipelineStage bundle.stage.stageId,
      ∃ nextStage ∈ bundle.latestStages next, nextStage.2.status ∉ [.queued, .running, .succeeded] ∧
        ∃ run stage, QueuesStage act nextStage.1 fence
          (safeStageJobInput bundle nextStage.1 nextStage.2)
          (nextStageKey bundle.stage.runId nextStage.2) run stage

/-- A decision does something exactly if the bundle leaves something to do. -/
theorem moves_iff {bundle : ResearchOrchestrationBundle} {act : Db δ} {advancement : Advancement}
    (hplan : planAdvancement bundle output = .ok advancement) :
    advancement.Moves act bundle.runStageId fence ↔
      ¬ bundle.run.status.isStopped ∧ LeavesToDo act fence bundle output := by
  obtain ⟨_, hplans⟩ := planAdvancement_ok hplan
  cases hplans with
  | nothing hstopped => exact iff_of_false id fun h => h.1 hstopped
  | boundary reason hrunning hends =>
    simp only [LeavesToDo, hends]
    exact ⟨fun h => ⟨hrunning, h⟩, fun h => h.2⟩
  | alreadyQueued hrunning hends hnext hlatest hstatus =>
    refine iff_of_false id ?_
    simp only [LeavesToDo, hends, hnext, Option.mem_def, Option.some.injEq, exists_eq_left',
      hlatest]
    exact fun h => h.2.1 hstatus
  | queue hrunning hends hnext hlatest hstatus =>
    simp only [LeavesToDo, hends, hnext, Option.mem_def, Option.some.injEq, exists_eq_left',
      hlatest]
    exact ⟨fun h => ⟨hrunning, hstatus, h⟩, fun h => h.2.2⟩

/-- Something is left to do only if the decision does not fail. -/
theorem LeavesToDo.plan_isOk {bundle : ResearchOrchestrationBundle} {act : Db δ}
    (h : LeavesToDo act fence bundle output) (hstatus : bundle.stage.status = .succeeded) :
    ∃ advancement, planAdvancement bundle output = .ok advancement := by
  refine planAdvancement_isOk hstatus fun hends next hnext => ?_
  simp only [LeavesToDo, hends] at h
  obtain ⟨_, hnext', row, hrow, _⟩ := h
  obtain rfl := Option.some.inj (hnext.symm.trans hnext')
  exact Option.isSome_iff_exists.mpr ⟨row, hrow⟩

variable [DomainStore δ]

/-- `advanceResearchPipelineStage` with other transactions in between: the fence is checked in
    `fenced`, the bundle is read in `read`, and the decision is carried out in `act`. -/
def advanceAcross (fenced read act : Db δ) (i : ℕ) (fence : RunStageJobFence)
    (output : StageOutput) : Db δ :=
  match (do
    assertRunStageJobFence fenced i fence
    let bundle ← loadResearchOrchestrationBundle read i
    planAdvancement bundle output) with
  | .ok advancement => carryOut act i fence advancement
  | .error _ => act

/-- A replay does something: the fence was valid, the run had not stopped when it was read, and
    there is something left to do. -/
def ReplayMoves (fenced read act : Db δ) (i : ℕ) (fence : RunStageJobFence) (output : StageOutput) :
    Prop :=
  (∃ run stage, OpensStage fenced i fence run stage ∧ fence.runStageId = i) ∧
  ∃ bundle, loadResearchOrchestrationBundle read i = .ok bundle ∧
    bundle.stage.status = .succeeded ∧ ¬ bundle.run.status.isStopped ∧
    LeavesToDo act fence bundle output

/-- **Replays.**  A replay leaves the run statuses, the stage rows and the jobs as they were exactly
    if it has nothing to do. -/
theorem replay_unmoved_iff (fenced read act : Db δ) (i : ℕ) (fence : RunStageJobFence)
    (output : StageOutput) :
    Unmoved act (advanceAcross fenced read act i fence output) ↔
      ¬ ReplayMoves fenced read act i fence output := by
  unfold advanceAcross
  cases hassert : assertRunStageJobFence fenced i fence with
  | error e =>
    refine iff_of_true (.refl act) fun h => ?_
    cases hassert.symm.trans (assertRunStageJobFence_isOk.mpr h.1)
  | ok _ =>
    have hfence := assertRunStageJobFence_isOk.mp hassert
    cases hload : loadResearchOrchestrationBundle read i with
    | error e =>
      refine iff_of_true (.refl act) ?_
      rintro ⟨_, bundle, hbundle, _⟩
      cases hload.symm.trans hbundle
    | ok bundle =>
      obtain ⟨rfl, _⟩ := loadResearchOrchestrationBundle_ok hload
      cases hplan : planAdvancement bundle output with
      | error e =>
        refine iff_of_true (by simpa [bind, Except.bind, hplan] using .refl act) ?_
        rintro ⟨_, bundle', hbundle, hstatus, _, htodo⟩
        cases hload.symm.trans hbundle
        obtain ⟨_, hok⟩ := htodo.plan_isOk hstatus
        cases hplan.symm.trans hok
      | ok advancement =>
        have hstatus := (planAdvancement_ok hplan).1
        simp only [bind, Except.bind, hplan, carryOut_unmoved_iff, moves_iff hplan]
        refine not_congr ⟨fun h => ⟨hfence, bundle, hload, hstatus, h⟩, ?_⟩
        rintro ⟨_, bundle', hbundle, _, h⟩
        cases hload.symm.trans hbundle
        exact h

end

/-! ### A replay after a resumption -/

/-- The run has been advanced past the committed stage row: a newer generation of the stage was
    started, or the next stage is queued or was executed. -/
def AdvancedPast (db : Db δ) (stage : RunStageRow) : Prop :=
  ¬ isLatestGeneration db.stages stage ∨ ∃ next ∈ nextPipelineStage stage.stageId,
    ∃ nextStage ∈ latestStage db.stages stage.runId next,
      nextStage.2.status ∈ [.queued, .running, .succeeded]

/-- The first stage of an assisted run is committed and the run is paused, and the worker dies.  The
    run is resumed, another worker executes the second stage, and the first job is delivered
    again. -/
def replayedPause : List (Op Unit) :=
  .createResearchRun { projectId := 0, mode := .assisted, idempotencyKey := 0 } ::
    executeStage 0 0 .intakeAnalysis 1 ++
    [.setResearchRunBoundary 0 ⟨0, 0, 1, 0⟩ .paused none,
      .resumeResearchRun 0,
      .tick 1000,
      .recoverExpiredJob 0 none 0,
      .tick 60000,
      .claimJobs { workerId := 0, leaseDurationMs := 1000 } [0],
      .startJob 1 0 none,
      .startRunStage 1 ⟨1, 1, 1, 0⟩,
      .claimJobs { workerId := 1, leaseDurationMs := 1000 } [],
      .startJob 0 1 none]

/-- The replay pauses the run that executes the second stage. -/
theorem replay_pauses_resumed_run :
    ¬ ∀ db : Db Unit, db.Reachable → ∀ (i : ℕ) (stage : RunStageRow) (fence : RunStageJobFence),
      ∀ output : StageOutput, db.stages[i]? = some stage → stage.status = .succeeded →
        stage.outputReference = some output → AdvancedPast db stage →
        Unmoved db (advanceAcross db db db i fence output) := by
  intro hall
  let db := replayedPause.foldl transact (Db.initial [approvedProject] ())
  have hreach : db.Reachable := Db.reachable_ofActions (Db.initial_initial _ ()) _
  have hrunning : ∃ stage ∈ db.stages[0]?, stage.status = .succeeded ∧
      stage.outputReference = some ⟨0, false, 0⟩ ∧
      (∃ next ∈ nextPipelineStage stage.stageId, ∃ nextStage ∈ latestStage db.stages stage.runId next,
        nextStage.2.status ∈ [.queued, .running, .succeeded]) ∧
      db.runs.map (·.status) = [.running] ∧
      (advanceAcross db db db 0 ⟨0, 0, 2, 1⟩ ⟨0, false, 0⟩).runs.map (·.status) = [.paused] := by
    decide +kernel
  obtain ⟨stage, hstage, hstatus, houtput, hnext, hbefore, hafter⟩ := hrunning
  have hunmoved := hall db hreach 0 stage ⟨0, 0, 2, 1⟩ _ hstage hstatus houtput (.inr hnext)
  have := hunmoved.runs
  rw [hbefore, hafter] at this
  cases this

end ResearchWorkbench
