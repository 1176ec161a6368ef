import ResearchWorkbench.Queue.Fences
import ResearchWorkbench.Pipeline.Commits

namespace ResearchWorkbench

/-!
# Live jobs of a stage row

Every new generation of a stage comes with its own job.  Re-queuing a row in place submits another
one, and neither `resumeResearchRun` nor `queueRunStage` looks whether the row still has a live job.

* `ResubmitsIdleRows` — a row is re-queued in place only when it has no live job;
* `OneLiveJob` — the invariant: job links exist, and a row has at most one live job;
* `live_job_unique` — under the guard no two workers execute the same row;
* `resumed_row_has_two_live_jobs` — a resumed run whose blocked job still runs has two.
-/

variable {δ : Type}

/-- The row an operation re-queues in place, with the project and the key of the job it submits. -/
def Op.resubmission (db : Db δ) : Op δ → Option (ℕ × ℕ × JobKey)
  | .resumeResearchRun runId => do
    let run ← db.runs[runId]?
    let (i, stage) ← firstUnfinishedStage db.stages runId
    return (i, run.projectId, .resume runId stage.stageId stage.generation (run.version + 1))
  | .queueRunStage i _ _ key => do
    let stage ← db.stages[i]?.filter fun stage => stage.status ≠ .stale
    let run ← db.runs[stage.runId]?
    return (i, run.projectId, key)
  | _ => none

/-- The input of a direct submission. -/
def Op.submission : Op δ → Option SubmitJobInput
  | .submitJob input => some input
  | _ => none

/-- A row that is re-queued in place has no live job, unless its job's key is taken already; and no
    stage job is submitted directly. -/
def ResubmitsIdleRows (db : Db δ) (op : Op δ) : Prop :=
  (∀ input ∈ op.submission, input.runStageId = none) ∧
  ∀ r ∈ op.resubmission db, (jobByKey db (some r.2.1) r.2.2).isSome ∨
    ∀ job ∈ db.jobs, job.runStageId = some r.1 → ¬ job.status.isLive

instance (db : Db δ) (op : Op δ) : Decidable (ResubmitsIdleRows db op) :=
  inferInstanceAs (Decidable ((∀ input ∈ op.submission, _) ∧ ∀ r ∈ op.resubmission db, _))

/-- Stage jobs belong to stage rows, and a row has at most one live job. -/
structure OneLiveJob (db : Db δ) : Prop where
  linked : ∀ (j i : ℕ) (job : JobRow), db.jobs[j]? = some job → job.runStageId = some i →
    i < db.stages.length
  unique : ∀ (j k i : ℕ) (job job' : JobRow), db.jobs[j]? = some job → db.jobs[k]? = some job' →
    job.status.isLive → job'.status.isLive → job.runStageId = some i → job'.runStageId = some i →
    j = k

section
variable {db db' : Db δ} {op : Op δ} {i j k : ℕ} {job job' : JobRow}

/-- A new stage job belongs to a new row or to one that is re-queued in place. -/
theorem NewJob.runStageId {input : SubmitJobInput} (h : NewJob db op input)
    (hok : ResubmitsIdleRows db op) (hi : input.runStageId = some i) :
    (∃ runId, input.runId = some runId) ∧ (i = db.stages.length ∨
      ∃ projectId, input.projectId = some projectId ∧
        op.resubmission db = some (i, projectId, input.idempotencyKey)) := by
  cases h with
  | submit input =>
    rw [hok.1 input rfl] at hi
    cases hi
  | search _ => cases hi
  | create _ _ _ => exact ⟨⟨_, rfl⟩, .inl (Option.some.inj hi).symm⟩
  | resume _ hrun hfirst =>
    cases hi
    refine ⟨⟨_, rfl⟩, .inr ⟨_, rfl, ?_⟩⟩
    simp [Op.resubmission, hrun, hfirst, pipelineStageJob]
  | requeue hfenced hstatus =>
    cases hi
    refine ⟨⟨_, rfl⟩, .inr ⟨_, rfl, ?_⟩⟩
    simp [Op.resubmission, hfenced.stageRow, hfenced.runRow, hstatus, pipelineStageJob,
      Option.filter]
  | queueNext _ _ => exact ⟨⟨_, rfl⟩, .inl (Option.some.inj hi).symm⟩
  | restart _ _ => exact ⟨⟨_, rfl⟩, .inl (Option.some.inj hi).symm⟩

/-- The row of a new stage job had no live job. -/
theorem InsertsJob.row_idle (h : InsertsJob db db' op k job') (hok : ResubmitsIdleRows db op)
    (hone : OneLiveJob db) (hi : job'.runStageId = some i) (hjob : db.jobs[j]? = some job)
    (hrow : job.runStageId = some i) : ¬ job.status.isLive := by
  obtain ⟨_, input, hnew, _, hkey, _, rfl⟩ := h
  obtain ⟨_, rfl | ⟨projectId, hproject, hresubmission⟩⟩ := hnew.runStageId hok hi
  · exact absurd (hone.linked j _ job hjob hrow) (Nat.lt_irrefl _)
  · obtain htaken | hidle := hok.2 _ hresubmission
    · rw [hproject] at hkey
      simp [hkey] at htaken
    · exact hidle job (List.mem_of_getElem? hjob) hrow

variable [DomainStore δ]

/-- **The step lemma.**  Operations that re-queue idle rows only keep one live job for each row. -/
theorem perform_oneLiveJob (hrun : perform db op = .ok db') (hok : ResubmitsIdleRows db op)
    (h : OneLiveJob db) : OneLiveJob db' := by
  have hjobs := perform_jobs hrun
  -- a live job of a row was one before, or it is new and the row was idle
  have hlive {j i : ℕ} {job' : JobRow} (hjob' : db'.jobs[j]? = some job') (hl : job'.status.isLive)
      (hi : job'.runStageId = some i) :
      (∃ job, db.jobs[j]? = some job ∧ job.status.isLive ∧ job.runStageId = some i) ∨
        InsertsJob db db' op j job' := by
    obtain ⟨job, hjob, hstep⟩ | ⟨_, hnew⟩ := hjobs.cases hjob'
    · have hrow := hstep.sameLinks.runStageId.symm.trans hi
      refine .inl ⟨job, hjob, (hstep.isLive hl).resolve_right fun ⟨_, hnone⟩ => ?_, hrow⟩
      rw [hnone] at hrow
      cases hrow
    · exact .inr hnew
  refine ⟨fun j i job' hjob' hi => ?_, fun j k i job job' hj hk hl hl' hi hi' => ?_⟩
  · obtain ⟨job, hjob, hstep⟩ | ⟨_, hnew⟩ := hjobs.cases hjob'
    · exact lt_of_lt_of_le (h.linked j i job hjob (hstep.sameLinks.runStageId.symm.trans hi))
        (perform_stages hrun).length_le
    · obtain ⟨_, input, hnew, _, _, href, rfl⟩ := hnew
      obtain ⟨⟨runId, hrunId⟩, _⟩ := hnew.runStageId hok hi
      obtain ⟨stage, hstage, _⟩ := href.2.2.1 runId hrunId i hi
      exact (List.getElem?_eq_some_iff.mp hstage).1
  · obtain ⟨job₁, h₁, hl₁, hi₁⟩ | hnew₁ := hlive hj hl hi
    · obtain ⟨job₂, h₂, hl₂, hi₂⟩ | hnew₂ := hlive hk hl' hi'
      · exact h.unique j k i job₁ job₂ h₁ h₂ hl₁ hl₂ hi₁ hi₂
      · exact absurd hl₁ (hnew₂.row_idle hok h hi' h₁ hi₁)
    · obtain ⟨job₂, h₂, hl₂, hi₂⟩ | hnew₂ := hlive hk hl' hi'
      · exact absurd hl₂ (hnew₁.row_idle hok h hi h₂ hi₂)
      · exact hnew₁.1.trans hnew₂.1.symm

theorem Db.ReachableBy.oneLiveJob (h : db.ReachableBy ResubmitsIdleRows) : OneLiveJob db := by
  refine h.invariant (I := OneLiveJob) (fun db h₀ => ⟨?_, ?_⟩)
    fun _ _ _ hI hok hrun => perform_oneLiveJob hrun hok hI
  · simp [h₀.jobs]
  · simp [h₀.jobs]

/-- **At most one live job per stage.**  Where rows are re-queued in place only when they are idle,
    a stage row has at most one live job, so no two fences of it are valid at the same time. -/
theorem live_job_unique (h : db.ReachableBy ResubmitsIdleRows) (hj : db.jobs[j]? = some job)
    (hlive : job.status.isLive) (hrow : job.runStageId = some i) :
    (∀ (k : ℕ) (job' : JobRow), db.jobs[k]? = some job' → job'.status.isLive →
      job'.runStageId = some i → k = j) ∧
    ∀ fence fence', FenceHolds db fence → FenceHolds db fence' → fence.runStageId = i →
      fence'.runStageId = i → fence = fence' := by
  have hone := h.oneLiveJob
  refine ⟨fun k job' hk hlive' hrow' => hone.unique k j i job' job hk hj hlive' hlive hrow' hrow, ?_⟩
  intro fence fence' hvalid hvalid' hstage hstage'
  refine fenceHolds_unique hvalid hvalid' ?_
  obtain ⟨job₁, h₁, runId₁, _, hmatch₁⟩ := fenceHolds_iff.mp hvalid
  obtain ⟨job₂, h₂, runId₂, _, hmatch₂⟩ := fenceHolds_iff.mp hvalid'
  obtain ⟨_, hrow₁, _, _, hstatus₁, _⟩ := matchesFence_iff.mp hmatch₁
  obtain ⟨_, hrow₂, _, _, hstatus₂, _⟩ := matchesFence_iff.mp hmatch₂
  exact hone.unique _ _ i job₁ job₂ h₁ h₂ (by rw [hstatus₁]; rfl) (by rw [hstatus₂]; rfl)
    (hstage ▸ hrow₁) (hstage' ▸ hrow₂)

end

/-! ### A blocked stage that is resumed -/

/-- The first stage of a run is blocked by its budget, and the run is resumed before the job that
    blocked it has ended. -/
def resumedBlocked : List (Op Unit) :=
  [.createResearchRun { projectId := 0, mode := .orchestrated, idempotencyKey := 0 },
    .claimJobs { workerId := 0, leaseDurationMs := 1000 } [],
    .startJob 0 0 none,
    .startRunStage 0 ⟨0, 0, 1, 0⟩,
    .blockRunStage 0 ⟨0, 0, 1, 0⟩ .nonRetryableBudget "",
    .resumeResearchRun 0]

/-- The running job of the blocked stage and the queued one of the resumption are both live. -/
theorem resumed_row_has_two_live_jobs :
    ¬ ∀ db : Db Unit, db.Reachable → ∀ (j k i : ℕ) (job job' : JobRow), db.jobs[j]? = some job →
      db.jobs[k]? = some job' → job.status.isLive → job'.status.isLive → job.runStageId = some i →
      job'.runStageId = some i → j = k := by
  intro hall
  let db := resumedBlocked.foldl transact (Db.initial [approvedProject] ())
  have hreach : db.Reachable := Db.reachable_ofActions (Db.initial_initial _ ()) _
  have htwo : ∃ job ∈ db.jobs[0]?, ∃ job' ∈ db.jobs[1]?, job.status.isLive ∧ job'.status.isLive ∧
      job.runStageId = some 0 ∧ job'.runStageId = some 0 := by decide +kernel
  obtain ⟨job, hj, job', hk, hl, hl', hi, hi'⟩ := htwo
  exact absurd (hall db hreach 0 1 0 job job' hj hk hl hl' hi hi') (by decide)

/-- A run that is resumed after each pause, when the job of the last stage has ended. -/
def resumedPaused : List (Op Unit) := twoStages ++ [.resumeResearchRun 0]

/-- The queued job of the resumed stage is the only live one of its row. -/
theorem live_job_unique_resumed :
    ∃ job, (resumedPaused.foldl transact (Db.initial [approvedProject] ())).jobs[2]? = some job ∧
      ∀ (k : ℕ) (job' : JobRow), (resumedPaused.foldl transact
        (Db.initial [approvedProject] ())).jobs[k]? = some job' → job'.status.isLive →
        job'.runStageId = some 2 → k = 2 := by
  have hqueued : ∃ job ∈ (resumedPaused.foldl transact
      (Db.initial [approvedProject] ())).jobs[2]?, job.status.isLive ∧ job.runStageId = some 2 := by
    decide +kernel
  obtain ⟨job, hjob, hlive, hrow⟩ := hqueued
  refine ⟨job, hjob, (live_job_unique ?_ hjob hlive hrow).1⟩
  exact Db.reachableBy_ofTrace (Db.initial_initial _ ()) (by decide +kernel)

end ResearchWorkbench
