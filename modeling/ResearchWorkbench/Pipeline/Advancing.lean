import ResearchWorkbench.Pipeline.Prefix
import ResearchWorkbench.Pipeline.LateFailures

namespace ResearchWorkbench

/-!
# Advancing a run

A run that has committed a stage is advanced to the next one, whose newest row is queued under the
key `run:R:stage:S:generation:G` unless it is under way already.  The key does not name the commit
that the job works on, so that it may be taken by an older job of the same row.

* `RunsReady` — a run has rows of all stages, and its budget allows an attempt;
* `HasJobFor`, `GoesOn`, `Continues` — the next stage is under way for the commit;
* `advancing_continues_iff` — exactly when advancing gets the next stage under way;
* `restarted_stage_cannot_advance` — a stage is restarted after the next one has failed.
-/

variable {δ : Type}

/-! ### What every run has -/

/-- Every run has rows of all stages, and its budget allows an attempt. -/
structure RunsReady (db : Db δ) : Prop where
  stages : ∀ r < db.runs.length, ∀ stageId, ∃ s ∈ db.stages, s.runId = r ∧ s.stageId = stageId
  attempts : ∀ run ∈ db.runs, 1 ≤ run.budget.maxStageAttempts

theorem exists_initialStage (runId : ℕ) (initialInput : InputReference) (stageId : AIStage) :
    ∃ s ∈ initialStages runId initialInput, s.runId = runId ∧ s.stageId = stageId := by
  have hmem : getPipelineStageDefinition stageId ∈ pipelineStageCatalog :=
    List.mem_map_of_mem (mem_aiStages stageId)
  have hid : (getPipelineStageDefinition stageId).id = stageId := by cases stageId <;> rfl
  refine ⟨_, List.mem_map_of_mem hmem, ?_⟩
  split <;> exact ⟨rfl, hid⟩

/-! ### A stage that is under way -/

/-- The run goes on after the stage. -/
def ResearchRunMode.GoesOnAfter (mode : ResearchRunMode) (stage : AIStage) : Prop :=
  mode ≠ .assisted ∧ ¬ (mode = .draftOnly ∧ stage = .draftGeneration)

/-- The input of a job refers to the commit of the stage row. -/
def InputReference.Follows (i : ℕ) (stage : RunStageRow) : InputReference → Prop
  | .stageJob _ _ _ _ _ _ _ previousStageId previousOutputHash =>
    previousStageId = i ∧ previousOutputHash = stage.outputReference.map (·.hash)
  | _ => False

/-- A live job of the row `n` works on the commit of the row `i`. -/
def HasJobFor (db : Db δ) (i : ℕ) (stage : RunStageRow) (n : ℕ) : Prop :=
  ∃ job ∈ db.jobs, job.status.isLive ∧ job.runStageId = some n ∧ job.inputReference.Follows i stage

/-- The run goes on after a row that has succeeded: the row's own job has yet to advance the run, or
    the next stage waits or executes with a job for its commit, or it has succeeded and goes on. -/
inductive GoesOn (db : Db δ) : ℕ → RunStageRow → Prop
  | own {i : ℕ} {stage : RunStageRow} {job : JobRow} (mem : job ∈ db.jobs) (live : job.status.isLive)
      (row : job.runStageId = some i) : GoesOn db i stage
  | queued {i n : ℕ} {stage row : RunStageRow} {next : AIStage}
      (follows : nextPipelineStage stage.stageId = some next)
      (latest : latestStage db.stages stage.runId next = some (n, row))
      (status : row.status ∈ [.queued, .running]) (job : HasJobFor db i stage n) : GoesOn db i stage
  | succeeded {i n : ℕ} {stage row : RunStageRow} {next : AIStage}
      (follows : nextPipelineStage stage.stageId = some next)
      (latest : latestStage db.stages stage.runId next = some (n, row))
      (status : row.status = .succeeded) (goesOn : GoesOn db n row) : GoesOn db i stage

/-- The row `n` is under way for the commit of the row `i`: it has succeeded and goes on, or waits or
    executes with a job for the commit. -/
def UnderWay (db : Db δ) (i : ℕ) (stage : RunStageRow) (n : ℕ) (row : RunStageRow) : Prop :=
  row.status = .succeeded ∧ GoesOn db n row ∨
    row.status ∈ [.queued, .running] ∧ HasJobFor db i stage n

/-- A worker holds the job of the newest row of a stage that has succeeded, and its run is running
    and goes on with the stage `next`. -/
structure HasCommitted (db : Db δ) (i : ℕ) (fence : RunStageJobFence) (run : ResearchRunRow)
    (stage : RunStageRow) (next : AIStage) : Prop extends OpensStage db i fence run stage where
  fenceStage : fence.runStageId = i
  latest : isLatestGeneration db.stages stage
  status : stage.status = .succeeded
  running : run.status = .running
  goesOn : run.mode.GoesOnAfter stage.stageId
  follows : nextPipelineStage stage.stageId = some next

/-- The job that advancing submits for the row `n` of the next stage. -/
def nextStageJob (db : Db δ) (i : ℕ) (run : ResearchRunRow) (stage : RunStageRow) (n : ℕ)
    (row : RunStageRow) : SubmitJobInput :=
  pipelineStageJob stage.runId run (if row.status = .stale then db.stages.length else n) row.stageId
    (.stageJob run.projectId stage.runId n row.stageId row.generation run.scopeRevisionId
      run.planRevisionId i (stage.outputReference.map (·.hash)))
    (nextStageKey stage.runId row)

/-- The key of the next stage is free, or its job is the one to be submitted and has not ended. -/
def KeyFree (db : Db δ) (input : SubmitJobInput) : Prop :=
  KeyAccepts db input ∧
    ∀ held ∈ jobByKey db input.projectId input.idempotencyKey, held.2.status.isLive

/-- What the run needs to go on: the next stage is under way for the commit already, or it is not
    under way and its key is free. -/
def CanGoOn (db : Db δ) (i : ℕ) (run : ResearchRunRow) (stage : RunStageRow) (next : AIStage) :
    Prop :=
  ∃ newest ∈ latestStage db.stages stage.runId next,
    UnderWay db i stage newest.1 newest.2 ∨
    newest.2.status ∉ [.queued, .running, .succeeded] ∧
      KeyFree db (nextStageJob db i run stage newest.1 newest.2)

section
variable {db db' : Db δ} {i n : ℕ} {fence : RunStageJobFence} {run : ResearchRunRow}
  {stage row : RunStageRow} {next : AIStage}

/-- The only dependency of the next stage is the stage before it. -/
theorem HasCommitted.dependencies (h : HasCommitted db i fence run stage next)
    (hu : UniqueGenerations db.stages)
    (hlatest : latestStage db.stages stage.runId next = some (n, row)) :
    DependenciesSucceeded db row := by
  rcases latestStage_eq_some hlatest with ⟨_, hrunId, hstageId, _⟩
  intro dep hdep
  rw [hstageId, mem_dependencies] at hdep
  obtain rfl : stage.stageId = dep := by
    apply ordinal_injective
    have h₁ := ordinal_nextPipelineStage hdep
    have h₂ := ordinal_nextPipelineStage h.follows
    omega
  rw [hrunId]
  exact hu.stageSucceeded_iff.mpr ⟨i, stage, h.stageRow, rfl, rfl, h.latest, h.status⟩

/-- A worker that holds its fence, in terms of what can be evaluated. -/
theorem HasCommitted.ofFence
    (hfence : (assertRunStageJobFence db i fence).toOption = some ())
    (hstage : db.stages[i]? = some stage) (hrun : db.runs[stage.runId]? = some run)
    (hlatest : isLatestGeneration db.stages stage) (hstatus : stage.status = .succeeded)
    (hrunning : run.status = .running) (hmode : run.mode = .orchestrated)
    (hnext : nextPipelineStage stage.stageId = some next) :
    HasCommitted db i fence run stage next := by
  rcases assertRunStageJobFence_isOk.mp (toOption_eq_some.mp hfence) with
    ⟨run', stage', hopens, hid⟩
  obtain rfl : stage = stage' := Option.some.inj (hstage.symm.trans hopens.stageRow)
  obtain rfl : run = run' := Option.some.inj (hrun.symm.trans hopens.runRow)
  have hgoesOn : run.mode.GoesOnAfter stage.stageId := by
    rw [hmode]
    refine ⟨by decide, ?_⟩
    rintro ⟨hdraft, _⟩
    cases hdraft
  exact ⟨hopens, hid, hlatest, hstatus, hrunning, hgoesOn, hnext⟩

/-- A job that is submitted under a free key is there and has not ended. -/
theorem Submits.live {input : SubmitJobInput} {r : SubmittedJob δ} (h : Submits db input r)
    (hfree : KeyFree db input) :
    (∃ job ∈ r.db.jobs, job.status.isLive ∧ job.runStageId = input.runStageId ∧
      job.inputReference = input.inputReference) ∧
    ∀ held ∈ jobByKey r.db input.projectId input.idempotencyKey, held.2.status.isLive := by
  cases h with
  | inserted hkey _ _ =>
    refine ⟨⟨_, List.mem_append_right _ (List.mem_singleton_self _), rfl, rfl, rfl⟩, ?_⟩
    rintro ⟨j, job⟩ hheld
    rcases findRow_eq_some hheld with ⟨hjob, hmatches⟩
    rcases getElem?_concat_cases hjob with hold | ⟨_, rfl⟩
    · exact absurd hmatches (findRow_eq_none.mp hkey job (List.mem_of_getElem? hold))
    · rfl
  | @existing j job hkey _ hstage =>
    have hheld : (j, job) ∈ jobByKey db input.projectId input.idempotencyKey := hkey
    refine ⟨⟨job, List.mem_of_getElem? (findRow_eq_some hkey).1, hfree.2 _ hheld, hstage,
      (hfree.1 _ hheld).2.1⟩, hfree.2⟩

/-- And if such a key is held already, nothing is inserted. -/
theorem Submits.keyLive {input : SubmitJobInput} {r : SubmittedJob δ} (h : Submits db input r)
    (hlive : ∀ held ∈ jobByKey r.db input.projectId input.idempotencyKey, held.2.status.isLive) :
    ∀ held ∈ jobByKey db input.projectId input.idempotencyKey, held.2.status.isLive := by
  cases h with
  | inserted hkey _ _ =>
    intro held hheld
    cases hkey.symm.trans hheld
  | existing _ _ _ => exact hlive

end

variable [DomainStore δ]

section
variable {db db' : Db δ} {op : Op δ}

/-- Operations keep the rows of a run and its budget, and a new run gets its rows and a job. -/
theorem perform_runsReady (hrun : perform db op = .ok db')
    (hjobs : ∀ job ∈ db.jobs, WellLinked db job) (h : RunsReady db) : RunsReady db' := by
  have hold {r : ℕ} (hr : r < db.runs.length) (stageId : AIStage) :
      ∃ s ∈ db'.stages, s.runId = r ∧ s.stageId = stageId := by
    rcases h.stages r hr stageId with ⟨s, hs, hrunId, hstageId⟩
    rcases List.mem_iff_getElem?.mp hs with ⟨i, hi⟩
    rcases (perform_stages hrun).old i s hi with ⟨s', hi', hstep⟩
    exact ⟨s', List.mem_of_getElem? hi', hstep.sameStage.runId.trans hrunId,
      hstep.sameStage.stageId.trans hstageId⟩
  have hnew {r : ℕ} {run' : ResearchRunRow} (hrow' : db'.runs[r]? = some run')
      (hr : db.runs.length ≤ r) : (∀ stageId, ∃ s ∈ db'.stages, s.runId = r ∧ s.stageId = stageId) ∧
        1 ≤ run'.budget.maxStageAttempts := by
    rcases (perform_runs hrun).cases hrow' with ⟨run, hrow, _⟩ | ⟨_, hcreated⟩
    · exact absurd (List.getElem?_eq_some_iff.mp hrow).1 (Nat.not_lt.mpr hr)
    cases hcreated with
    | create input request' =>
      rcases map_eq_ok.mp hrun with ⟨created, hcreate, rfl⟩
      rcases createResearchRun_ok hcreate with hsame | ⟨request, initial, s, _, hsubmit, hdb⟩
      · rw [hsame] at hrow'
        exact absurd (List.getElem?_eq_some_iff.mp hrow').1 (Nat.not_lt.mpr hr)
      rw [hdb, hsubmit.runs] at hrow'
      rcases getElem?_concat_cases hrow' with hrow' | ⟨rfl, heq⟩
      · exact absurd (List.getElem?_eq_some_iff.mp hrow').1 (Nat.not_lt.mpr hr)
      refine ⟨fun stageId => ?_, ?_⟩
      · rw [hdb, hsubmit.stages]
        rcases exists_initialStage db.runs.length initial stageId with ⟨s, hs, hrunId, hstageId⟩
        exact ⟨s, List.mem_append_right _ hs, hrunId, hstageId⟩
      · rw [heq]
        cases hsubmit with
        | inserted _ _ hmax =>
          simp only [pipelineStageJob] at hmax
          omega
        | existing hkey hrunId hstageId =>
          -- no job is linked to a row that is not there yet
          have hjob := hjobs _ (List.mem_of_getElem? (findRow_eq_some hkey).1)
          rcases hjob.stage _ hrunId _ hstageId with ⟨stage, hstage, _⟩
          exact absurd (List.getElem?_eq_some_iff.mp hstage).1 (Nat.lt_irrefl _)
  constructor
  · intro r hr stageId
    by_cases hlt : r < db.runs.length
    · exact hold hlt stageId
    · exact (hnew (List.getElem?_eq_getElem hr) (Nat.not_lt.mp hlt)).1 stageId
  · intro run' hmem
    rcases List.mem_iff_getElem?.mp hmem with ⟨r, hrow'⟩
    rcases (perform_runs hrun).cases hrow' with ⟨run, hrow, hstep⟩ | ⟨hr, _⟩
    · rw [hstep.sameRun.budget]
      exact h.attempts run (List.mem_of_getElem? hrow)
    · exact (hnew hrow' hr).2

theorem Db.ReachableBy.runsReady {ok : Db δ → Op δ → Prop} (h : db.ReachableBy ok) :
    RunsReady db := by
  have hboth : (∀ job ∈ db.jobs, WellLinked db job) ∧ RunsReady db := by
    refine h.invariant (I := fun db => (∀ job ∈ db.jobs, WellLinked db job) ∧ RunsReady db)
      (fun db h₀ => ⟨by simp [h₀.jobs], ?_, ?_⟩)
      fun _ _ _ hI _ hrun => ⟨perform_wellLinked hrun hI.1, perform_runsReady hrun hI.1 hI.2⟩
    · simp [h₀.runs]
    · simp [h₀.runs]
  exact hboth.2

end

/-! ### Advancing -/

section
variable {db : Db δ} {i n : ℕ} {fence : RunStageJobFence} {run : ResearchRunRow}
  {stage row : RunStageRow} {next : AIStage} {output : StageOutput}

/-- What advancing does in a run that goes on. -/
theorem HasCommitted.advance_eq (h : HasCommitted db i fence run stage next)
    (hlatest : latestStage db.stages stage.runId next = some (n, row)) (output : StageOutput) :
    advanceResearchPipelineStage db i fence output =
      if row.status ∈ [.queued, .running, .succeeded] then .ok db
      else SubmittedJob.db <$> queueRunStage db n fence
        (nextStageJob db i run stage n row).inputReference (nextStageKey stage.runId row) := by
  have hassert : assertRunStageJobFence db i fence = .ok () :=
    assertRunStageJobFence_isOk.mpr ⟨run, stage, h.toOpensStage, h.fenceStage⟩
  have hlast : stage.stageId ≠ .qaRevision := by
    intro heq
    have := h.follows
    rw [heq] at this
    cases this
  let bundle : ResearchOrchestrationBundle :=
    ⟨i, run, stage, latestStage db.stages stage.runId,
      DomainStore.hasOpenBlocker run.projectId db.domain⟩
  have hload : loadResearchOrchestrationBundle db i = .ok bundle := by
    simp only [loadResearchOrchestrationBundle, bind_eq_ok, require_eq_ok, pure_eq_ok]
    exact ⟨stage, h.stageRow, run, h.runRow, rfl⟩
  have hplan : planAdvancement bundle output = .ok
      (if row.status ∈ [.queued, .running, .succeeded] then .alreadyQueued n
      else .queue n (nextStageJob db i run stage n row).inputReference
        (nextStageKey stage.runId row)) := by
    have hrunning : run.status ∉ [.cancelling, .cancelled, .failed, .blocked] := by
      rw [h.running]
      decide
    simp only [planAdvancement, bundle, bind_eq_ok, ensure_eq_ok, h.status, hrunning, hlast,
      h.goesOn.1, h.goesOn.2, h.follows, hlatest, ↓reduceIte]
    refine ⟨(), trivial, (n, row), rfl, ?_⟩
    split <;> rfl
  unfold advanceResearchPipelineStage
  rw [hassert]
  show (do
    let bundle ← loadResearchOrchestrationBundle db i
    let advancement ← planAdvancement bundle output
    performAdvancement db i fence advancement) = _
  rw [hload]
  show (planAdvancement bundle output >>= performAdvancement db i fence) = _
  rw [hplan]
  split
  · rfl
  · show (queueRunStage db n fence _ _ >>= fun queued => pure queued.db) = _
    rw [bind_pure_comp]

/-- Advancing succeeds and leaves the next stage under way, with a job that has not ended if it was
    queued for it. -/
def GetsUnderWay (db : Db δ) (i : ℕ) (fence : RunStageJobFence) (output : StageOutput)
    (run : ResearchRunRow) (stage : RunStageRow) (next : AIStage) : Prop :=
  ∃ db', advanceResearchPipelineStage db i fence output = .ok db' ∧
    (∃ newest ∈ latestStage db'.stages stage.runId next, UnderWay db' i stage newest.1 newest.2) ∧
    ∀ newest ∈ latestStage db.stages stage.runId next,
      newest.2.status ∉ [.queued, .running, .succeeded] →
      ∀ held ∈ jobByKey db' (some run.projectId) (nextStageKey stage.runId newest.2),
        held.2.status.isLive

/-- A row that is queued is the newest of its stage, or its next generation is. -/
theorem queueRunStage_newest {input : InputReference} {key : JobKey} {r : SubmittedJob δ}
    (hdb : db.Reachable) (hqueue : queueRunStage db n fence input key = .ok r)
    (hrow : db.stages[n]? = some row) (hnewest : isLatestGeneration db.stages row) :
    ∃ row', latestStage r.db.stages row.runId row.stageId =
        some (if row.status = .stale then db.stages.length else n, row') ∧
      row'.status = .queued := by
  have hperform : perform db (.queueRunStage n fence input key) = .ok r.db :=
    map_eq_ok.mpr ⟨r, hqueue, rfl⟩
  have hunique := (perform_wellGenerated hperform hdb.wellGenerated).unique
  rcases queueRunStage_ok hqueue with ⟨_, row₁, hfenced, _, _, hcase⟩
  obtain rfl : row = row₁ := Option.some.inj (hrow.symm.trans hfenced.stageRow)
  rcases hcase with ⟨hstale, _, hsubmit⟩ | ⟨hstatus, hsubmit⟩
  · rw [if_pos hstale]
    refine ⟨row.nextGeneration input, ?_, rfl⟩
    refine hunique.latestStage_eq (s := row.nextGeneration input) ?_ ?_
    · rw [hsubmit.stages]
      exact getElem?_concat_length _ _
    · rw [hsubmit.stages]
      exact isLatestGeneration_next hnewest input
  · have hnot : row.status ≠ .stale := by
      intro heq
      rw [heq] at hstatus
      simp at hstatus
    rw [if_neg hnot]
    refine ⟨row.requeue input, ?_, rfl⟩
    refine hunique.latestStage_eq (s := row.requeue input) ?_ ?_
    · rw [hsubmit.stages]
      exact getElem?_modify_eq hrow
    · rw [hsubmit.stages]
      refine (isLatestGeneration_congr ?_ rfl).mpr hnewest
      exact map_modify_same fun _ => rfl

/-- The newest row of the next stage is queued under its key exactly if the key is free. -/
theorem HasCommitted.queue_iff (hdb : db.Reachable) (h : HasCommitted db i fence run stage next)
    (hlatest : latestStage db.stages stage.runId next = some (n, row))
    (hidle : row.status ∉ [.queued, .running, .succeeded]) :
    (∃ r, queueRunStage db n fence (nextStageJob db i run stage n row).inputReference
        (nextStageKey stage.runId row) = .ok r ∧
      (∃ newest ∈ latestStage r.db.stages stage.runId next,
        UnderWay r.db i stage newest.1 newest.2) ∧
      ∀ held ∈ jobByKey r.db (some run.projectId) (nextStageKey stage.runId row),
        held.2.status.isLive) ↔
      KeyFree db (nextStageJob db i run stage n row) := by
  rcases latestStage_eq_some hlatest with ⟨hrow, hrunId, hstageId, hnewest⟩
  have hopens : OpensStage db n fence run row :=
    ⟨⟨hrow, by rw [hrunId]; exact h.runRow, by rw [hrunId]; exact h.valid⟩, h.project⟩
  have hjob : pipelineStageJob row.runId run (if row.status = .stale then db.stages.length else n)
      row.stageId (nextStageJob db i run stage n row).inputReference
        (nextStageKey stage.runId row) = nextStageJob db i run stage n row := by
    rw [hrunId]
    rfl
  -- whether a new generation is added or the row is queued in place, the jobs are those of `db`
  have hsubmits {r : SubmittedJob δ} (hqueue : queueRunStage db n fence
      (nextStageJob db i run stage n row).inputReference (nextStageKey stage.runId row) = .ok r) :
      ∃ db₁ : Db δ, db₁.jobs = db.jobs ∧ Submits db₁ (nextStageJob db i run stage n row) r := by
    rcases queueRunStage_ok hqueue with ⟨run₁, row₁, hfenced, _, _, hcase⟩
    obtain rfl : row = row₁ := Option.some.inj (hrow.symm.trans hfenced.stageRow)
    obtain rfl : run = run₁ := Option.some.inj (hopens.runRow.symm.trans hfenced.runRow)
    rw [← hjob]
    rcases hcase with ⟨hstale, _, hsubmit⟩ | ⟨hstatus, hsubmit⟩
    · rw [if_pos hstale]
      exact ⟨db.insertStages _, rfl, hsubmit⟩
    · rw [if_neg (by rintro heq; simp [heq] at hstatus)]
      exact ⟨db.updateStage n _, rfl, hsubmit⟩
  have hkey {db₁ : Db δ} (hjobs : db₁.jobs = db.jobs) :
      jobByKey db₁ (some run.projectId) (nextStageKey stage.runId row) =
        jobByKey db (some run.projectId) (nextStageKey stage.runId row) := by
    simp only [jobByKey, hjobs]
  constructor
  · rintro ⟨r, hqueue, _, hlive⟩
    rcases hsubmits hqueue with ⟨db₁, hjobs, hsubmit⟩
    rcases queueRunStage_isOk.mp ⟨r, hqueue⟩ with ⟨run₁, row₁, hqueues⟩
    obtain rfl : row = row₁ := Option.some.inj (hrow.symm.trans hqueues.opens.stageRow)
    obtain rfl : run = run₁ := Option.some.inj (hopens.runRow.symm.trans hqueues.opens.runRow)
    refine ⟨hjob ▸ hqueues.key, ?_⟩
    intro held hheld
    exact hsubmit.keyLive hlive held ((hkey hjobs).symm ▸ hheld)
  · intro hfree
    have hstatus : row.status ∈ [.pending, .queued, .failed, .cancelled, .blocked, .stale] := by
      revert hidle
      cases row.status <;> decide
    have hnext : row.status = .stale → ∀ other ∈ db.stages, ¬ (other.runId = row.runId ∧
        other.stageId = row.stageId ∧ other.generation = row.generation + 1) := by
      rintro _ other hother ⟨hrun, hstage, hgeneration⟩
      have := isLatestGeneration_iff.mp hnewest other hother hrun hstage
      omega
    have hqueues : QueuesStage db n fence (nextStageJob db i run stage n row).inputReference
        (nextStageKey stage.runId row) run row :=
      ⟨hopens, by simp [h.running], h.dependencies hdb.wellGenerated.unique hlatest, hstatus, hnext,
        hdb.runsReady.attempts run (List.mem_of_getElem? h.runRow), hjob.symm ▸ hfree.1⟩
    rcases queueRunStage_isOk.mpr ⟨run, row, hqueues⟩ with ⟨r, hqueue⟩
    rcases hsubmits hqueue with ⟨db₁, hjobs, hsubmit⟩
    have hfree₁ : KeyFree db₁ (nextStageJob db i run stage n row) :=
      ⟨fun held hheld => hfree.1 held ((hkey hjobs) ▸ hheld),
        fun held hheld => hfree.2 held ((hkey hjobs) ▸ hheld)⟩
    rcases hsubmit.live hfree₁ with ⟨⟨job, hmem, hlive, hjobRow, hinput⟩, hheld⟩
    rcases queueRunStage_newest hdb hqueue hrow hnewest with ⟨row', hlatest', hqueued⟩
    rw [hrunId, hstageId] at hlatest'
    refine ⟨r, hqueue, ⟨_, hlatest', .inr ⟨by simp [hqueued], job, hmem, hlive, hjobRow, ?_⟩⟩, hheld⟩
    rw [hinput]
    exact ⟨rfl, rfl⟩

/-- **Advancing.**  In every reachable state a worker that has committed the newest row of a stage
    gets the next stage under way exactly if it is under way for this commit already, or is not
    under way and its key is free. -/
theorem advancing_continues_iff (hdb : db.Reachable) (h : HasCommitted db i fence run stage next)
    (output : StageOutput) :
    GetsUnderWay db i fence output run stage next ↔ CanGoOn db i run stage next := by
  have hlt := (List.getElem?_eq_some_iff.mp h.runRow).1
  rcases hdb.runsReady.stages stage.runId hlt next with ⟨s, hs, hrunId, rfl⟩
  rcases exists_latestStage hs with ⟨n, row, hlatest⟩
  rw [hrunId] at hlatest
  have hadvance := h.advance_eq hlatest output
  by_cases hstatus : row.status ∈ [.queued, .running, .succeeded]
  · rw [if_pos hstatus] at hadvance
    constructor
    · rintro ⟨db', hok, hnewest, _⟩
      obtain rfl : db = db' := Except.ok.inj (hadvance.symm.trans hok)
      rcases hnewest with ⟨newest, hlatest', hunder⟩
      exact ⟨newest, hlatest', .inl hunder⟩
    · rintro ⟨newest, hlatest', hunder⟩
      obtain rfl : (n, row) = newest := Option.some.inj (hlatest.symm.trans hlatest')
      have hunder := hunder.resolve_right fun hidle => hidle.1 hstatus
      refine ⟨db, hadvance, ⟨_, hlatest, hunder⟩, ?_⟩
      rintro newest hlatest' hidle
      obtain rfl : (n, row) = newest := Option.some.inj (hlatest.symm.trans hlatest')
      exact absurd hstatus hidle
  · rw [if_neg hstatus] at hadvance
    have hunder : ¬ UnderWay db i stage n row := by
      rintro (⟨heq, _⟩ | ⟨hqueued, _⟩)
      · simp [heq] at hstatus
      · rcases (by simpa using hqueued) with heq | heq <;> simp [heq] at hstatus
    have hiff := h.queue_iff hdb hlatest hstatus
    constructor
    · rintro ⟨db', hok, hnewest, hlive⟩
      rw [hadvance] at hok
      rcases map_eq_ok.mp hok with ⟨r, hqueue, rfl⟩
      exact ⟨_, hlatest, .inr ⟨hstatus, hiff.mp ⟨r, hqueue, hnewest, hlive _ hlatest hstatus⟩⟩⟩
    · rintro ⟨newest, hlatest', hcan⟩
      obtain rfl : (n, row) = newest := Option.some.inj (hlatest.symm.trans hlatest')
      rcases hiff.mpr (hcan.resolve_left hunder).2 with ⟨r, hqueue, hnewest, hlive⟩
      refine ⟨r.db, by rw [hadvance, hqueue]; rfl, hnewest, ?_⟩
      intro newest hlatest' _
      obtain rfl : (n, row) = newest := Option.some.inj (hlatest.symm.trans hlatest')
      exact hlive

end

/-! ### A stage that is restarted after the next one has failed -/

/-- The first stage of an orchestrated run is committed. -/
def firstCommitted : List (Op Unit) :=
  .createResearchRun { projectId := 0, mode := .orchestrated, idempotencyKey := 0 } ::
    executeStage 0 0 .intakeAnalysis 1

/-- The run is advanced, and the job of the second stage fails; then the first stage is restarted,
    and its second generation is committed. -/
def failedAndRestarted : List (Op Unit) :=
  firstCommitted ++
    [.queueRunStage 1 ⟨0, 0, 1, 0⟩
        (.stageJob 0 0 1 .questionDecomposition 1 0 0 0 (some (StageOutput.hash ⟨0, false, 0⟩)))
        (.stage 0 .questionDecomposition 1),
      .completeJob 0 0 0,
      .claimJobs { workerId := 0, leaseDurationMs := 1000 } [],
      .startJob 1 0 none,
      .startRunStage 1 ⟨1, 1, 1, 0⟩,
      .failJob ⟨1, 0, .nonRetryableValidation, "", none, 0⟩,
      .restartRunStage 0 (.custom 0) (.document 0)] ++
    executeStage 2 11 .intakeAnalysis 2

/-- The database after the operations. -/
def databaseAfter (ops : List (Op Unit)) : Db Unit :=
  ops.foldl transact (Db.initial [approvedProject] ())

theorem databaseAfter_reachable (ops : List (Op Unit)) : (databaseAfter ops).Reachable :=
  Db.reachable_ofActions (Db.initial_initial _ ()) ops

/-- The first commit of a run finds the key of the next stage free. -/
theorem advancing_continues_first :
    ∃ run stage, HasCommitted (databaseAfter firstCommitted) 0 ⟨0, 0, 1, 0⟩ run stage
        .questionDecomposition ∧
      GetsUnderWay (databaseAfter firstCommitted) 0 ⟨0, 0, 1, 0⟩ ⟨0, false, 0⟩ run stage
        .questionDecomposition := by
  have hstate : ∃ stage ∈ (databaseAfter firstCommitted).stages[0]?,
      ∃ run ∈ (databaseAfter firstCommitted).runs[stage.runId]?,
        (assertRunStageJobFence (databaseAfter firstCommitted) 0 ⟨0, 0, 1, 0⟩).toOption = some () ∧
        isLatestGeneration (databaseAfter firstCommitted).stages stage ∧
        stage.status = .succeeded ∧ run.status = .running ∧ run.mode = .orchestrated ∧
        nextPipelineStage stage.stageId = some .questionDecomposition ∧
        ∃ newest ∈ latestStage (databaseAfter firstCommitted).stages stage.runId
            .questionDecomposition, newest.2.status ∉ [.queued, .running, .succeeded] ∧
          jobByKey (databaseAfter firstCommitted) (some run.projectId)
            (nextStageKey stage.runId newest.2) = none := by
    decide +kernel
  rcases hstate with ⟨stage, hstage, run, hrun, hfence, hlatest, hstatus, hrunning, hmode, hnext,
    newest, hnewest, hidle, hkey⟩
  have hcommitted := HasCommitted.ofFence hfence hstage hrun hlatest hstatus hrunning hmode hnext
  refine ⟨run, stage, hcommitted,
    (advancing_continues_iff (databaseAfter_reachable _) hcommitted _).mpr
      ⟨newest, hnewest, .inr ⟨hidle, ?_, ?_⟩⟩⟩
  · intro held hheld
    cases hkey.symm.trans hheld
  · intro held hheld
    cases hkey.symm.trans hheld

/-- The second generation of the first stage cannot queue the second stage: the key belongs to the
    job that has failed. -/
theorem restarted_stage_cannot_advance :
    ¬ ∀ (db : Db Unit) (i : ℕ) (fence : RunStageJobFence) (run : ResearchRunRow)
      (stage : RunStageRow) (next : AIStage) (output : StageOutput), db.Reachable →
        HasCommitted db i fence run stage next → GetsUnderWay db i fence output run stage next := by
  intro hall
  have hstate : ∃ stage ∈ (databaseAfter failedAndRestarted).stages[11]?,
      ∃ run ∈ (databaseAfter failedAndRestarted).runs[stage.runId]?,
        (assertRunStageJobFence (databaseAfter failedAndRestarted) 11 ⟨2, 11, 1, 0⟩).toOption
          = some () ∧
        isLatestGeneration (databaseAfter failedAndRestarted).stages stage ∧
        stage.status = .succeeded ∧ run.status = .running ∧ run.mode = .orchestrated ∧
        nextPipelineStage stage.stageId = some .questionDecomposition ∧
        (advanceResearchPipelineStage (databaseAfter failedAndRestarted) 11 ⟨2, 11, 1, 0⟩
          ⟨0, false, 0⟩).toOption.isNone := by
    decide +kernel
  rcases hstate with
    ⟨stage, hstage, run, hrun, hfence, hlatest, hstatus, hrunning, hmode, hnext, hfails⟩
  have hcommitted := HasCommitted.ofFence hfence hstage hrun hlatest hstatus hrunning hmode hnext
  rcases hall _ 11 _ run stage _ ⟨0, false, 0⟩ (databaseAfter_reachable _) hcommitted with
    ⟨db', hok, _⟩
  rw [hok] at hfails
  cases hfails

end ResearchWorkbench
