import ResearchWorkbench.System.StageSteps

namespace ResearchWorkbench

/-!
# Links and leases

What every job row of every reachable database satisfies: the rows it refers to are there, and a
worker that holds it has a lease on it.

* `WellLinked` — the invariant of one job;
* `JobStep.leased`, `perform_wellLinked` — the step lemmas;
* `Db.ReachableBy.wellLinked` — the invariant along any run;
* `lockLinkedResearchState_isOk` — so the run of a job is found when it has to be reconciled.
-/

variable {δ : Type}

/-- A worker holds the job under a lease. -/
def JobRow.Leased (job : JobRow) : Prop :=
  job.status.isActive → job.leaseOwner.isSome ∧ job.leaseExpiresAt.isSome

/-- The project and the stage row of a job exist, the stage row is one of its run, and the job is
    leased while it is active. -/
structure WellLinked (db : Db δ) (job : JobRow) : Prop where
  project : ∀ projectId ∈ job.projectId, projectId < db.projects.length
  stage : ∀ runId ∈ job.runId, ∀ runStageId ∈ job.runStageId,
    ∃ stage, db.stages[runStageId]? = some stage ∧ stage.runId = runId
  leased : job.Leased

section
variable {db db' : Db δ} {op : Op δ} {i : ℕ} {job job' : JobRow}

/-- A dead job needs no lease. -/
theorem JobRow.leased_of_not_active (h : job.status.isActive = false) : job.Leased := by
  intro hactive
  rw [h] at hactive
  cases hactive

theorem JobRow.Leased.requestCancellation {now : ℕ} (h : job.Leased)
    (hstatus : job.status ∈ [.queued, .retryWait, .claimed, .running]) :
    (job.requestCancellation now (cancellationTarget job.status)).Leased := by
  obtain ⟨hc, _⟩ | ⟨hc, hwaiting⟩ := cancellationTarget_cases job.status
  · rw [hc]
    exact JobRow.leased_of_not_active rfl
  · rw [hc]
    have hactive := ((isLive_iff _).mp (isLive_of_cancellable hstatus)).resolve_right hwaiting
    exact fun _ => by simpa [JobRow.requestCancellation] using h hactive

theorem JobStep.leased (h : JobStep db op i job job') (hleased : job.Leased) : job'.Leased := by
  cases h with
  | keep => exact hleased
  | claim _ _ _ => exact fun _ => ⟨rfl, rfl⟩
  | start _ hstatus => exact fun _ => hleased (by rw [hstatus]; rfl)
  | heartbeat _ hactive => exact fun _ => ⟨(hleased hactive).1, rfl⟩
  | succeed _ _ => exact JobRow.leased_of_not_active rfl
  | failAttempt target _ _ _ hgoal =>
    refine JobRow.leased_of_not_active ?_
    obtain ⟨rfl, _⟩ | hdead := hgoal
    · rfl
    · obtain rfl | rfl := by simpa using hdead
      all_goals rfl
  | requestCancellation hstatus => exact hleased.requestCancellation hstatus
  | cancelWithRun _ hstatus => exact hleased.requestCancellation hstatus
  | acknowledge _ _ => exact JobRow.leased_of_not_active rfl
  | release _ _ => exact JobRow.leased_of_not_active rfl
  | releaseCancelled _ _ => exact JobRow.leased_of_not_active rfl
  | expire _ _ _ _ =>
    refine JobRow.leased_of_not_active ?_
    obtain ⟨h, _⟩ | ⟨h, _⟩ | ⟨h, _⟩ := recoveredStatus_cases job
    all_goals simp [JobRow.expire, h, JobStatus.isActive]
  | manualRetry _ _ => exact JobRow.leased_of_not_active rfl
  | checkpoint _ => exact hleased

variable [DomainStore δ]

/-- Stage rows stay, with their run. -/
theorem perform_stage_run {stage : RunStageRow} (h : perform db op = .ok db')
    (hstage : db.stages[i]? = some stage) :
    ∃ stage', db'.stages[i]? = some stage' ∧ SameStage stage stage' := by
  obtain ⟨stage', hstage', hstep⟩ := (perform_stages h).old i stage hstage
  exact ⟨stage', hstage', hstep.sameStage⟩

/-- **The step lemma.**  Every operation keeps all jobs well linked. -/
theorem perform_wellLinked (hrun : perform db op = .ok db')
    (h : ∀ job ∈ db.jobs, WellLinked db job) : ∀ job ∈ db'.jobs, WellLinked db' job := by
  intro job' hmem
  obtain ⟨i, hi⟩ := List.mem_iff_getElem?.mp hmem
  obtain ⟨job, hjob, hstep⟩ | ⟨_, hins⟩ := (perform_jobs hrun).cases hi
  · have hlinked := h job (List.mem_of_getElem? hjob)
    have hlinks := hstep.sameLinks
    refine ⟨fun p hp => ?_, fun r hr s hs => ?_, hstep.leased hlinked.leased⟩
    · exact lt_of_lt_of_le (hlinked.project p (hlinks.projectId ▸ hp)) (perform_framed hrun).projects
    · obtain ⟨stage, hstage, rfl⟩ := hlinked.stage r (hlinks.runId ▸ hr) s (hlinks.runStageId ▸ hs)
      obtain ⟨stage', hstage', hsame⟩ := perform_stage_run hrun hstage
      exact ⟨stage', hstage', hsame.runId⟩
  · obtain ⟨_, input, _, _, _, href, rfl⟩ := hins
    refine ⟨href.1, fun r hr s hs => ?_, JobRow.leased_of_not_active rfl⟩
    obtain ⟨stage, hstage, hrunId⟩ := href.2.2.1 r hr s hs
    exact ⟨stage, hstage, hrunId⟩

theorem Db.ReachableBy.wellLinked {ok : Db δ → Op δ → Prop} (h : db.ReachableBy ok) :
    ∀ job ∈ db.jobs, WellLinked db job := by
  refine h.invariant (I := fun db => ∀ job ∈ db.jobs, WellLinked db job) (fun db h₀ => ?_)
    fun _ _ _ hI _ hrun => perform_wellLinked hrun hI
  simp [h₀.jobs]

end

/-! ### Cancellations succeed -/

section
variable {db : Db δ} {j workerId : ℕ} {job : JobRow}

/-- The run of a well linked job is found. -/
theorem lockLinkedResearchState_isOk (h : WellLinked db job)
    (hrun : ∀ runId ∈ job.runId, ∃ run, db.runs[runId]? = some run) :
    ∃ linked, lockLinkedResearchState db job = .ok linked := by
  unfold lockLinkedResearchState
  cases hr : job.runId with
  | none => exact ⟨none, rfl⟩
  | some r =>
    obtain ⟨run, hrow⟩ := hrun r hr
    cases hs : job.runStageId with
    | none => exact ⟨some ⟨r, run, none⟩, by simp [hrow, require]⟩
    | some s =>
      obtain ⟨stage, hstage, hrunId⟩ := h.stage r hr s hs
      refine ⟨some ⟨r, run, some (s, stage)⟩, ?_⟩
      simp only [bind_eq_ok, require_eq_ok, pure_eq_ok]
      exact ⟨run, hrow, stage, by simp [hstage, hrunId], rfl⟩

/-- So its cancellation can be reconciled once the job itself is updated. -/
theorem reconcileLinkedJobCancellation_isOk (db₁ : Db δ) (job' : JobRow) (m : String)
    (h : WellLinked db job) (hrun : ∀ runId ∈ job.runId, ∃ run, db.runs[runId]? = some run)
    (hlinks : SameLinks job job') (hleased : job'.Leased) (hprojects : db₁.projects = db.projects)
    (hruns : db₁.runs = db.runs) (hstages : db₁.stages = db.stages) :
    ∃ db', reconcileLinkedJobCancellation db₁ job' m = .ok db' := by
  have hlinked : WellLinked db₁ job' := by
    refine ⟨?_, ?_, hleased⟩
    · rw [hlinks.projectId, hprojects]
      exact h.project
    · rw [hlinks.runId, hlinks.runStageId, hstages]
      exact h.stage
  obtain ⟨linked, hok⟩ := lockLinkedResearchState_isOk hlinked (by rwa [hlinks.runId, hruns])
  refine ⟨linked.elim db₁ fun l => cancelLinkedRun db₁ l job'.status m, ?_⟩
  simp only [reconcileLinkedJobCancellation, bind_eq_ok]
  refine ⟨linked, hok, ?_⟩
  cases linked <;> rfl

theorem lockJobProjectFirst_isOk (h : WellLinked db job) (hjob : db.jobs[j]? = some job) :
    lockJobProjectFirst db j = .ok job := by
  simp only [lockJobProjectFirst, bind_eq_ok, require_eq_ok, ensure_eq_ok, pure_eq_ok]
  exact ⟨job, hjob, (), h.project, rfl⟩

/-- The owner of a job that is to be cancelled can acknowledge it while its lease is current. -/
theorem acknowledgeJobCancellation_isOk (h : WellLinked db job)
    (hrun : ∀ runId ∈ job.runId, ∃ run, db.runs[runId]? = some run) (hjob : db.jobs[j]? = some job)
    (hstatus : job.status = .cancellationRequested) (howned : job.OwnedBy workerId db.now) :
    ∃ db', acknowledgeJobCancellation db j workerId = .ok db' := by
  obtain ⟨db', hrec⟩ := reconcileLinkedJobCancellation_isOk
    (db.settleAttempt j job (job.acknowledgeCancellation db.now) (·.cancel db.now))
    (job.acknowledgeCancellation db.now) "Cancellation acknowledged by worker" h hrun
    ⟨rfl, rfl, rfl, rfl, rfl, rfl⟩ (JobRow.leased_of_not_active rfl) rfl rfl rfl
  refine ⟨db', ?_⟩
  simp only [acknowledgeJobCancellation, lockOwnedJob, assertJobTransition, bind_eq_ok,
    ensure_eq_ok, pure_eq_ok]
  exact ⟨job, ⟨job, lockJobProjectFirst_isOk h hjob, (), ⟨howned.1, howned.2, by simp [hstatus]⟩,
    (), (by intro _ h; cases h), rfl⟩, (), by rw [hstatus]; rfl, hrec⟩

/-- Once its lease has run out, recovery cancels it. -/
theorem recoverExpiredJob_isOk (h : WellLinked db job) (random : ℚ)
    (hrun : ∀ runId ∈ job.runId, ∃ run, db.runs[runId]? = some run) (hjob : db.jobs[j]? = some job)
    (hstatus : job.status = .cancellationRequested) (hexpired : job.leaseExpired db.now) :
    ∃ db', recoverExpiredJob db j none random = .ok db' := by
  have htarget : recoveredStatus job = .cancelled := by simp [recoveredStatus, hstatus]
  obtain ⟨db', hrec⟩ := reconcileLinkedJobCancellation_isOk
    (db.settleAttempt j job (job.expire db.now .cancelled none) (·.expire db.now .cancelled none))
    (job.expire db.now .cancelled none) "Cancellation completed after worker lease expiry" h hrun
    ⟨rfl, rfl, rfl, rfl, rfl, rfl⟩ (JobRow.leased_of_not_active rfl) rfl rfl rfl
  refine ⟨db', ?_⟩
  have hcand : job.leaseExpired db.now ∧ (∀ ids ∈ (none : Option (List ℕ)),
      ∃ runId ∈ job.runId, runId ∈ ids) ∧ job.status.isActive :=
    ⟨hexpired, (by intro _ h; cases h), by rw [hstatus]; rfl⟩
  simp only [recoverExpiredJob, bind_eq_ok]
  refine ⟨job, lockJobProjectFirst_isOk h hjob, ?_⟩
  rw [if_pos hcand, htarget]
  simp only [bind_eq_ok, assertJobTransition, ensure_eq_ok]
  exact ⟨(), by rw [hstatus]; rfl, none, rfl, by simpa using hrec⟩

end

end ResearchWorkbench
