import ResearchWorkbench.System.Links
import ResearchWorkbench.System.RunSteps
import ResearchWorkbench.Pipeline.LiveJobs

namespace ResearchWorkbench

/-!
# Cancellation

Cancelling a run asks every live job of it to stop.  Cancelling a single job takes its run along,
but not the other jobs of the run, and only the active ones of them are counted.

* `CancelsLoneJobs` — no job is cancelled singly while another job of its run stays live;
* `CancelsAll` — the invariant: a cancelled run has no live job, and a cancelling run only such as
  are to be cancelled, and at least one;
* `cancellation_complete` — under the guard each acknowledgement or expiry brings a cancelling run
  closer to `CANCELLED`;
* `lone_cancellation_incomplete` — a queued job is cancelled singly, and its run is `CANCELLED` with
  another job still queued.
-/

variable {δ : Type}

/-- A run that is being cancelled or was. -/
def ResearchRunStatus.isCancelled (status : ResearchRunStatus) : Bool :=
  status ∈ [.cancelling, .cancelled]

/-- The job an operation retries by hand. -/
def Op.manualRetry : Op δ → Option ℕ
  | .manualRetryJob jobId => some jobId
  | _ => none

/-- Every other live job of the run is to be cancelled. -/
def OthersRequested (db : Db δ) (runId jobId : ℕ) : Prop :=
  ∀ k < db.jobs.length, ∀ job ∈ db.jobs[k]?, k ≠ jobId → job.runId = some runId →
    job.status.isLive → job.status = .cancellationRequested

instance (db : Db δ) (runId jobId : ℕ) : Decidable (OthersRequested db runId jobId) :=
  inferInstanceAs (Decidable (∀ k < db.jobs.length, _))

/-- A job whose run would start to be cancelled with it is cancelled singly only when every other
    live job of the run is to be cancelled; and no job is submitted or retried into a run that is
    being cancelled. -/
def CancelsLoneJobs (db : Db δ) (op : Op δ) : Prop :=
  (∀ input ∈ op.submission, ∀ runId ∈ input.runId, ∀ run ∈ db.runs[runId]?,
    ¬ run.status.isCancelled) ∧
  (∀ jobId ∈ op.manualRetry, ∀ job ∈ db.jobs[jobId]?, ∀ runId ∈ job.runId,
    ∀ run ∈ db.runs[runId]?, ¬ run.status.isCancelled) ∧
  ∀ jobId ∈ op.cancellation db, ∀ job ∈ db.jobs[jobId]?, ∀ runId ∈ job.runId,
    ∀ run ∈ db.runs[runId]?, canTransitionResearchRun run.status .cancelling →
      OthersRequested db runId jobId

instance (db : Db δ) (op : Op δ) : Decidable (CancelsLoneJobs db op) :=
  inferInstanceAs (Decidable ((∀ input ∈ op.submission, _) ∧ (∀ jobId ∈ op.manualRetry, _) ∧
    ∀ jobId ∈ op.cancellation db, _))

/-- Every live job of the run is to be cancelled. -/
def JobsRequested (db : Db δ) (r : ℕ) : Prop :=
  ∀ job ∈ db.jobs, job.runId = some r → job.status.isLive → job.status = .cancellationRequested

/-- The live jobs of a run that is being cancelled, or was, are to be cancelled; and it is
    `CANCELLING` exactly while there are such jobs. -/
def CancelsAll (db : Db δ) : Prop :=
  ∀ (r : ℕ) (run : ResearchRunRow), db.runs[r]? = some run → run.status.isCancelled →
    JobsRequested db r ∧ (run.status = .cancelling ↔ 0 < db.activeJobCount r)

section
variable {db db' : Db δ} {op : Op δ} {i j r : ℕ} {job job' : JobRow} {run run' : ResearchRunRow}

/-- A job that is to be cancelled stays so until its cancellation ends it. -/
theorem JobStep.requested (h : JobStep db op j job job') (hjob : db.jobs[j]? = some job)
    (hreq : job.status = .cancellationRequested) :
    job'.status = .cancellationRequested ∨ op.cancellation db = some j ∧ job'.status = .cancelled := by
  cases h with
  | keep => exact .inl hreq
  | claim _ hwaiting _ => simp [hreq, JobStatus.isWaiting] at hwaiting
  | start _ hstatus => simp [hreq] at hstatus
  | heartbeat _ _ => exact .inl hreq
  | succeed _ hstatus => simp [hreq] at hstatus
  | failAttempt _ _ _ hstatus _ => simp [hreq] at hstatus
  | requestCancellation hstatus => simp [hreq] at hstatus
  | cancelWithRun _ hstatus => simp [hreq] at hstatus
  | acknowledge _ _ => exact .inr ⟨by simp [Op.cancellation, hjob, hreq], rfl⟩
  | release _ hstatus => simp [hreq] at hstatus
  | releaseCancelled _ _ => exact .inr ⟨by simp [Op.cancellation, hjob, hreq], rfl⟩
  | expire _ hexpired hselected _ =>
    refine .inr ⟨?_, by simp [JobRow.expire, recoveredStatus, hreq]⟩
    exact if_pos ⟨job, hjob, hreq, hexpired, hselected⟩
  | manualRetry _ hstatus => simp [hreq] at hstatus
  | checkpoint hstatus => simp [hreq] at hstatus

theorem not_isLive_cancelled (h : job.status = .cancelled) : ¬ job.status.isLive := by
  rw [h]
  exact nofun

/-- The other live jobs of a run that is cancelled with one of them are to be cancelled. -/
theorem CancelsAll.othersRequested (h : CancelsAll db) (hok : CancelsLoneJobs db op)
    (hop : op.cancellation db = some j) (hjob : db.jobs[j]? = some job)
    (hlink : job.runId = some r) (hrow : db.runs[r]? = some run)
    (hable : run.status.isCancellable) : OthersRequested db r j := by
  simp only [ResearchRunStatus.isCancellable, Bool.or_eq_true, decide_eq_true_eq] at hable
  obtain hcancelling | hable := hable
  · intro k _ other hother _
    refine (h r run hrow (by rw [hcancelling]; rfl)).1 other (List.mem_of_getElem? hother)
  · exact hok.2.2 j hop job hjob r hlink run hrow hable

/-- The cancellation of an active job leaves one active job less. -/
theorem CancelsJob.activeJobCount (h : CancelsJob db db' op j job job') (hlink : job.runId = some r)
    (hactive : job.status.isActive) (hdead : ¬ job'.status.isActive) :
    db'.activeJobCount r + 1 = db.activeJobCount r := by
  have hpos : 0 < db.activeJobCount r :=
    activeJobCount_pos.mpr ⟨job, List.mem_of_getElem? h.jobRow, hlink, hactive⟩
  obtain ⟨hj, hget⟩ := List.getElem?_eq_some_iff.mp h.jobRow
  simp only [Db.activeJobCount] at hpos ⊢
  rw [h.jobs, List.modify_eq_set_getElem?, h.jobRow]
  simp only [Option.map_eq_map, Option.map_some, Option.getD_some]
  rw [List.countP_set hj, hget, if_pos (by simp [hlink, hactive]), if_neg (by simp [hdead])]
  omega

/-- A run whose jobs are all to be cancelled has no fence and no job that could fail it. -/
theorem JobsRequested.not_fenceValid {fence : RunStageJobFence} (h : JobsRequested db r)
    (hvalid : FenceValid db r fence) : False := by
  obtain ⟨job, hjob, hmatch⟩ := fenceValid_iff.mp hvalid
  obtain ⟨hlink, _, _, _, hrunning, _⟩ := matchesFence_iff.mp hmatch
  have := h job (List.mem_of_getElem? hjob) hlink (by rw [hrunning]; rfl)
  simp [hrunning] at this

/-- A run that executes is not being cancelled. -/
theorem startStage_status {now : ℕ} {stage : AIStage} (h : run.status ∈ [.queued, .running]) :
    (run.startStage now stage).status = .running := by
  unfold ResearchRunRow.startStage
  split
  · rfl
  · obtain hs | hs := by simpa using h
    · contradiction
    · exact hs

theorem not_isCancelled_committed (ordinal : ℕ) : ¬ (committedRunStatus ordinal).isCancelled := by
  unfold committedRunStatus
  split <;> exact nofun

theorem not_isCancelled_boundary (boundary : RunBoundary) : ¬ boundary.status.isCancelled := by
  cases boundary <;> exact nofun

variable [DomainStore δ]

/-- The live jobs of a run that is being cancelled were live before. -/
theorem live_job_old (hok : CancelsLoneJobs db op) (hrun : perform db op = .ok db')
    (hrow : db'.runs[r]? = some run') (hc : run'.status.isCancelled)
    (hjob : db'.jobs[j]? = some job') (hrunId : job'.runId = some r) (hlive : job'.status.isLive) :
    ∃ job, db.jobs[j]? = some job ∧ job.runId = some r ∧ job.status.isLive ∧
      JobStep db op j job job' := by
  obtain ⟨job, hold, hstep⟩ | ⟨_, hins⟩ := (perform_jobs hrun).cases hjob
  · have hlink := hstep.sameLinks.runId.symm.trans hrunId
    refine ⟨job, hold, hlink, ?_, hstep⟩
    obtain hlive | ⟨rfl, _⟩ := hstep.isLive hlive
    · exact hlive
    · rw [(perform_framed hrun).runs rfl] at hrow
      exact absurd hc (hok.2.1 j rfl job hold r hlink run' hrow)
  · obtain ⟨input, rfl, hlink, hruns⟩ | hnot := hins.run_status hjob hrun hrunId hrow
    · rw [hruns] at hrow
      exact absurd hc (hok.1 input rfl r hlink run' hrow)
    · refine absurd ?_ hnot
      simpa [ResearchRunStatus.isCancelled] using hc

/-- Jobs that are all to be cancelled stay so. -/
theorem JobsRequested.perform (h : JobsRequested db r) (hok : CancelsLoneJobs db op)
    (hrun : perform db op = .ok db') (hrow : db'.runs[r]? = some run')
    (hc : run'.status.isCancelled) : JobsRequested db' r := by
  intro job' hmem hrunId hlive
  obtain ⟨j, hj⟩ := List.mem_iff_getElem?.mp hmem
  obtain ⟨job, hjob, hlink, hlive₀, hstep⟩ := live_job_old hok hrun hrow hc hj hrunId hlive
  obtain hreq | ⟨_, hdead⟩ := hstep.requested hjob (h job (List.mem_of_getElem? hjob) hlink hlive₀)
  · exact hreq
  · exact absurd hlive (not_isLive_cancelled hdead)

/-- The run of a job that is cancelled singly. -/
theorem cancellation_run (hrun : perform db op = .ok db') (hop : op.cancellation db = some j)
    (hjob : db.jobs[j]? = some job) (hlink : job.runId = some r) (hrow : db.runs[r]? = some run)
    (hable : run.status.isCancellable) :
    ∃ job' run', CancelsJob db db' op j job job' ∧ db'.runs[r]? = some run' ∧
      run'.status = cancelledWithJob job'.status (db'.activeJobCount r) := by
  obtain ⟨job₁, job', hcancels⟩ := perform_cancelsJob hrun hop
  obtain rfl : job₁ = job := Option.some.inj (hcancels.jobRow.symm.trans hjob)
  obtain ⟨hnone, _⟩ | ⟨r₁, run₁, hlink₁, hrow₁, hcase⟩ := hcancels.runs
  · rw [hnone] at hlink
    cases hlink
  obtain rfl : r₁ = r := Option.some.inj (hlink₁.symm.trans hlink)
  obtain rfl : run₁ = run := Option.some.inj (hrow₁.symm.trans hrow)
  obtain ⟨hnot, _⟩ | ⟨_, f, hruns, _, hstatus⟩ := hcase
  · exact absurd hable hnot
  · exact ⟨job', f run₁, hcancels, by rw [hruns]; exact getElem?_modify_eq hrow, hstatus⟩

/-- A run stays `CANCELLING` exactly while it has an active job. -/
theorem cancelling_iff_active (h : JobsRequested db r) (hok : CancelsLoneJobs db op)
    (hrun : perform db op = .ok db') (hrow : db.runs[r]? = some run)
    (hrow' : db'.runs[r]? = some run') (hstatus : run'.status = run.status)
    (hc : run.status.isCancelled) (hiff : run.status = .cancelling ↔ 0 < db.activeJobCount r) :
    run'.status = .cancelling ↔ 0 < db'.activeJobCount r := by
  rw [hstatus, hiff]
  constructor
  · intro hpos
    obtain ⟨job, hmem, hlink, hactive⟩ := activeJobCount_pos.mp hpos
    obtain ⟨j, hj⟩ := List.mem_iff_getElem?.mp hmem
    obtain ⟨job', hj', hstep⟩ := (perform_jobs hrun).old j job hj
    have hreq := h job hmem hlink ((isLive_iff _).mpr (.inl hactive))
    obtain hreq' | ⟨hop, hdead⟩ := hstep.requested hj hreq
    · exact activeJobCount_pos.mpr ⟨job', List.mem_of_getElem? hj',
        hstep.sameLinks.runId.trans hlink, by rw [hreq']; rfl⟩
    -- the job was cancelled and its run is still cancelling, so another one is active
    have hcancelling := hiff.mpr hpos
    obtain ⟨job₁, run₁, hcancels, hrow₁, hend⟩ := cancellation_run hrun hop hj hlink hrow
      (by rw [hcancelling]; rfl)
    obtain rfl : job₁ = job' := Option.some.inj (hcancels.jobRow'.symm.trans hj')
    obtain rfl : run₁ = run' := Option.some.inj (hrow₁.symm.trans hrow')
    refine Nat.pos_of_ne_zero fun hzero => ?_
    simp [cancelledWithJob, hdead, hzero, hstatus, hcancelling] at hend
  · intro hpos
    obtain ⟨job', hmem, hrunId, hactive⟩ := activeJobCount_pos.mp hpos
    obtain ⟨j, hj⟩ := List.mem_iff_getElem?.mp hmem
    obtain ⟨job, hjob, hlink, hlive, _⟩ := live_job_old hok hrun hrow' (by rwa [hstatus]) hj hrunId
      ((isLive_iff _).mpr (.inl hactive))
    have hreq := h job (List.mem_of_getElem? hjob) hlink hlive
    exact activeJobCount_pos.mpr ⟨job, List.mem_of_getElem? hjob, hlink, by rw [hreq]; rfl⟩

/-- **The step lemma.**  Where jobs are cancelled singly only when they are the last ones, runs are
    cancelled with all their jobs. -/
theorem perform_cancelsAll (hrun : perform db op = .ok db') (hok : CancelsLoneJobs db op)
    (h : CancelsAll db) : CancelsAll db' := by
  intro r run' hrow' hc
  obtain ⟨run, hrow, hstep⟩ | ⟨_, hnew⟩ := (perform_runs hrun).cases hrow'
  swap
  · cases hnew
    cases hc
  have hkeep (hstatus : run'.status = run.status) :
      JobsRequested db' r ∧ (run'.status = .cancelling ↔ 0 < db'.activeJobCount r) := by
    have hc₀ : run.status.isCancelled := hstatus ▸ hc
    obtain ⟨hreq, hiff⟩ := h r run hrow hc₀
    exact ⟨hreq.perform hok hrun hrow' hc,
      cancelling_iff_active hreq hok hrun hrow hrow' hstatus hc₀ hiff⟩
  cases hstep with
  | keep _ hstatus => exact hkeep hstatus
  | record _ _ => exact hkeep rfl
  | countSearch => exact hkeep rfl
  | start _ hstatus =>
    rw [startStage_status hstatus] at hc
    cases hc
  | commit _ _ _ _ => exact absurd hc (not_isCancelled_committed _)
  | boundary _ _ _ => exact absurd hc (not_isCancelled_boundary _)
  | block _ _ => cases hc
  | blockForSearch _ _ => cases hc
  | fail _ _ => cases hc
  | failWithJob _ _ _ _ _ _ => cases hc
  | @cancelWithJob _ j _ job job' _ _ hop hjob hjob' hlink hable _ hstatus =>
    have hothers := h.othersRequested hok hop hjob hlink hrow hable
    obtain ⟨job₁, _, hcancels, _⟩ := cancellation_run hrun hop hjob hlink hrow hable
    obtain rfl : job₁ = job' := Option.some.inj (hcancels.jobRow'.symm.trans hjob')
    have hreq : JobsRequested db' r := by
      intro other' hmem hrunId hlive
      obtain ⟨k, hk⟩ := List.mem_iff_getElem?.mp hmem
      by_cases hkj : k = j
      · subst hkj
        obtain rfl : job₁ = other' := Option.some.inj (hjob'.symm.trans hk)
        obtain hdead | ⟨hreq, _⟩ := hcancels.status
        · exact absurd hlive (not_isLive_cancelled hdead)
        · exact hreq
      · obtain ⟨other, hother, hlink₂, hlive₂, hstep⟩ :=
          live_job_old hok hrun hrow' hc hk hrunId hlive
        have := hothers k (List.getElem?_eq_some_iff.mp hother).1 other hother hkj hlink₂ hlive₂
        obtain hreq | ⟨_, hdead⟩ := hstep.requested hother this
        · exact hreq
        · exact absurd hlive (not_isLive_cancelled hdead)
    refine ⟨hreq, ?_⟩
    rw [hstatus]
    constructor
    · intro hcancelling
      obtain hdead | ⟨hreq', _⟩ := hcancels.status
      · refine Nat.pos_of_ne_zero fun hzero => ?_
        simp [cancelledWithJob, hdead, hzero] at hcancelling
      · exact activeJobCount_pos.mpr ⟨job₁, List.mem_of_getElem? hjob',
          hcancels.links.runId.trans hlink, by rw [hreq']; rfl⟩
    · intro hpos
      simp [cancelledWithJob, Nat.ne_of_gt hpos]
  | cancel target _ htargets hpending hreq => exact ⟨hreq, hpending⟩
  | finalize hstatus hinactive =>
    have := (h r run hrow (by rw [hstatus]; rfl)).2.mp hstatus
    omega
  | resume _ _ => cases hc
  | restart _ _ _ _ => cases hc
  | approve _ => cases hc

theorem Db.ReachableBy.cancelsAll (h : db.ReachableBy CancelsLoneJobs) : CancelsAll db := by
  refine h.invariant (I := CancelsAll) (fun db h₀ r run hrow => ?_)
    fun _ _ _ hI hok hrun => perform_cancelsAll hrun hok hI
  simp [h₀.runs] at hrow

/-- The cancellation of a job that its worker was asked for brings its run closer to
    `CANCELLED`. -/
theorem perform_requested (hrun : perform db op = .ok db') (hop : op.cancellation db = some j)
    (hjob : db.jobs[j]? = some job) (hreq : job.status = .cancellationRequested)
    (hlink : job.runId = some r) (hrow : db.runs[r]? = some run) (hable : run.status.isCancellable) :
    ∃ run', db'.runs[r]? = some run' ∧ db'.activeJobCount r + 1 = db.activeJobCount r ∧
      run'.status = if db'.activeJobCount r = 0 then .cancelled else .cancelling := by
  obtain ⟨job', run', hcancels, hrow', hstatus⟩ := cancellation_run hrun hop hjob hlink hrow hable
  have hdead : job'.status = .cancelled := hcancels.status.resolve_right fun h => h.2 hreq
  refine ⟨run', hrow', hcancels.activeJobCount hlink (by rw [hreq]; rfl) (by rw [hdead]; exact nofun),
    ?_⟩
  simpa [cancelledWithJob, hdead] using hstatus

/-- A cancelling run stays so or is cancelled. -/
theorem perform_cancelling (hrun : perform db op = .ok db') (hrow : db.runs[r]? = some run)
    (hreq : JobsRequested db r) (hstatus : run.status = .cancelling) :
    ∃ run', db'.runs[r]? = some run' ∧ run'.status ∈ [.cancelling, .cancelled] := by
  obtain ⟨run', hrow', hstep⟩ := (perform_runs hrun).old r run hrow
  refine ⟨run', hrow', ?_⟩
  have hstuck : ∀ {target}, run.status = target ∨ canTransitionResearchRun run.status target →
      target ∈ [.cancelling, .cancelled, .failed] := by
    intro target h
    rw [hstatus] at h
    revert h
    cases target <;> decide
  cases hstep with
  | keep _ hkeep => simp [hkeep, hstatus]
  | record _ _ => simp [ResearchRunRow.recordAttempt, hstatus]
  | countSearch => simp [ResearchRunRow.countSearch, hstatus]
  | start _ hstart => simp [hstatus] at hstart
  | @commit _ _ _ _ _ _ stage _ _ _ hable =>
    have := hstuck hable
    unfold committedRunStatus at this
    split at this <;> simp at this
  | @boundary _ _ boundary _ _ _ _ _ hable =>
    have := hstuck (.inr hable)
    cases boundary <;> simp [RunBoundary.status] at this
  | block _ hable => simpa using hstuck hable
  | blockForSearch _ hable => simpa using hstuck (.inr hable)
  | fail hfenced _ => exact (hreq.not_fenceValid hfenced.valid).elim
  | failWithJob _ hjob hactive hne hlink _ =>
    exact absurd (hreq _ (List.mem_of_getElem? hjob) hlink ((isLive_iff _).mpr (.inl hactive))) hne
  | cancelWithJob _ _ _ _ _ _ hend =>
    rw [hend]
    unfold cancelledWithJob
    split <;> simp
  | cancel _ hopen _ _ _ => simp [hstatus] at hopen
  | finalize _ _ => simp [ResearchRunRow.finishCancelling]
  | resume _ hstopped => simp [hstatus] at hstopped
  | restart _ _ _ hable => simpa using hstuck hable
  | approve hwaiting => simp [hstatus] at hwaiting

/-- **Cancellation is complete and finishes.**  Where jobs are cancelled singly only when they are
    the last ones, a `CANCELLED` run has no live job.  A `CANCELLING` run has a job that is to be
    cancelled, and never goes anywhere but to `CANCELLED`; each of its live jobs is to be cancelled,
    and the acknowledgement of its worker, or the expiry of its lease, leaves one of them less and
    ends the cancellation with the last. -/
theorem cancellation_complete (h : db.ReachableBy CancelsLoneJobs) (hrow : db.runs[r]? = some run) :
    (run.status = .cancelled → ∀ job ∈ db.jobs, job.runId = some r → ¬ job.status.isLive) ∧
    (run.status = .cancelling →
      (∃ job ∈ db.jobs, job.runId = some r ∧ job.status = .cancellationRequested) ∧
      (∀ op, ∃ run', (transact db op).runs[r]? = some run' ∧
        run'.status ∈ [.cancelling, .cancelled]) ∧
      ∀ (j : ℕ) (job : JobRow), db.jobs[j]? = some job → job.runId = some r → job.status.isLive →
        job.status = .cancellationRequested ∧ ∃ workerId, job.leaseOwner = some workerId ∧
        ∀ op, op = (if job.leaseCurrent db.now then .acknowledgeJobCancellation j workerId
            else .recoverExpiredJob j none 0) →
          (transact db op).activeJobCount r + 1 = db.activeJobCount r ∧
          ∃ run', (transact db op).runs[r]? = some run' ∧ run'.status =
            if (transact db op).activeJobCount r = 0 then .cancelled else .cancelling) := by
  have hall := h.cancelsAll r run hrow
  refine ⟨fun hstatus job hmem hlink hlive => ?_, fun hstatus => ?_⟩
  · obtain ⟨hreq, hiff⟩ := hall (by rw [hstatus]; rfl)
    have := hiff.mpr (activeJobCount_pos.mpr
      ⟨job, hmem, hlink, by rw [hreq job hmem hlink hlive]; rfl⟩)
    simp [hstatus] at this
  obtain ⟨hreq, hiff⟩ := hall (by rw [hstatus]; rfl)
  refine ⟨?_, fun op => ?_, fun j job hjob hlink hlive => ?_⟩
  · obtain ⟨job, hmem, hlink, hactive⟩ := activeJobCount_pos.mp (hiff.mp hstatus)
    exact ⟨job, hmem, hlink, hreq job hmem hlink ((isLive_iff _).mpr (.inl hactive))⟩
  · cases hrun : perform db op with
    | error e =>
      rw [transact_of_error hrun]
      exact ⟨run, hrow, by simp [hstatus]⟩
    | ok db' =>
      rw [transact_of_ok hrun]
      exact perform_cancelling hrun hrow hreq hstatus
  have hrequested := hreq job (List.mem_of_getElem? hjob) hlink hlive
  refine ⟨hrequested, ?_⟩
  have hlinked := h.wellLinked job (List.mem_of_getElem? hjob)
  obtain ⟨howner, hexpiry⟩ := hlinked.leased (by rw [hrequested]; rfl)
  obtain ⟨workerId, howner⟩ := Option.isSome_iff_exists.mp howner
  have hruns : ∀ runId ∈ job.runId, ∃ run, db.runs[runId]? = some run := by
    intro runId hrunId
    obtain rfl : r = runId := Option.some.inj (hlink.symm.trans hrunId)
    exact ⟨run, hrow⟩
  have hable : run.status.isCancellable := by rw [hstatus]; rfl
  refine ⟨workerId, howner, ?_⟩
  rintro op rfl
  split
  · rename_i hlease
    obtain ⟨db', hok⟩ := acknowledgeJobCancellation_isOk hlinked hruns hjob hrequested
      ⟨howner, hlease⟩
    have hrun : perform db (.acknowledgeJobCancellation j workerId) = .ok db' := hok
    rw [transact_of_ok hrun]
    obtain ⟨run', hrow', hcount, hend⟩ := perform_requested hrun
      (by simp [Op.cancellation, hjob, hrequested]) hjob hrequested hlink hrow hable
    exact ⟨hcount, run', hrow', hend⟩
  · rename_i hlease
    have hexpired : job.leaseExpired db.now := by
      obtain ⟨expiry, hexp⟩ := Option.isSome_iff_exists.mp hexpiry
      simpa [JobRow.leaseExpired, JobRow.leaseCurrent, hexp] using hlease
    obtain ⟨db', hok⟩ := recoverExpiredJob_isOk hlinked 0 hruns hjob hrequested hexpired
    have hrun : perform db (.recoverExpiredJob j none 0) = .ok db' := hok
    rw [transact_of_ok hrun]
    obtain ⟨run', hrow', hcount, hend⟩ := perform_requested hrun
      (by simp [Op.cancellation, hjob, hrequested, hexpired]) hjob hrequested hlink hrow hable
    exact ⟨hcount, run', hrow', hend⟩

end

/-! ### A job that is cancelled alone -/

/-- The first job of a run and a search for it are queued, and the job is cancelled. -/
def loneCancellation : List (Op Unit) :=
  [.createResearchRun { projectId := 0, mode := .orchestrated, idempotencyKey := 0 },
    .submitSourceSearchJob { projectId := 0, runId := some 0, query := 0, count := 1, callerKey := 0 },
    .requestJobCancellation 0 ""]

/-- The run is `CANCELLED` and the search is still `QUEUED`. -/
theorem lone_cancellation_incomplete :
    ¬ ∀ db : Db Unit, db.Reachable → ∀ (r : ℕ) (run : ResearchRunRow), db.runs[r]? = some run →
      (run.status = .cancelled → ∀ job ∈ db.jobs, job.runId = some r → ¬ job.status.isLive) ∧
      (run.status = .cancelling →
        ∃ job ∈ db.jobs, job.runId = some r ∧ job.status = .cancellationRequested) := by
  intro hall
  let db := loneCancellation.foldl transact (Db.initial [approvedProject] ())
  have hreach : db.Reachable := Db.reachable_ofActions (Db.initial_initial _ ()) _
  have hqueued : ∃ run ∈ db.runs[0]?, run.status = .cancelled ∧
      ∃ job ∈ db.jobs, job.runId = some 0 ∧ job.status.isLive := by decide +kernel
  obtain ⟨run, hrow, hstatus, job, hjob, hlink, hlive⟩ := hqueued
  exact (hall db hreach 0 run hrow).1 hstatus job hjob hlink hlive

/-- The run itself is cancelled, while a worker has started the job and the search waits. -/
def cancelledRun : List (Op Unit) :=
  [.createResearchRun { projectId := 0, mode := .orchestrated, idempotencyKey := 0 },
    .claimJobs { workerId := 0, leaseDurationMs := 1000 } [],
    .startJob 0 0 none,
    .submitSourceSearchJob { projectId := 0, runId := some 0, query := 0, count := 1, callerKey := 0 },
    .requestResearchRunCancellation 0 ""]

theorem cancellation_complete_run : ∃ job ∈ (cancelledRun.foldl transact
    (Db.initial [approvedProject] ())).jobs, job.runId = some 0 ∧
      job.status = .cancellationRequested := by
  have hcancelling : ∃ run ∈ (cancelledRun.foldl transact
      (Db.initial [approvedProject] ())).runs[0]?, run.status = .cancelling := by decide +kernel
  obtain ⟨run, hrow, hstatus⟩ := hcancelling
  refine ((cancellation_complete ?_ hrow).2 hstatus).1
  exact Db.reachableBy_ofTrace (Db.initial_initial _ ()) (by decide +kernel)

end ResearchWorkbench
