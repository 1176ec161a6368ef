import ResearchWorkbench.Services.Jobs

namespace ResearchWorkbench

/-!
# What the job calls do

One inversion lemma for each transaction of the job service: if it succeeds, these guards held and
this is the new database.

* `lockOwnedJob_ok`, `lockLinkedResearchState_ok` — the guards;
* `RunsOnly` — the linked updates touch runs and stages only;
* `submitJobInTransaction_ok`, `claimJobs_ok`, … — the calls.
-/

variable {δ : Type}

/-! ### Guards -/

/-- The worker owns a current lease on the job. -/
def JobRow.OwnedBy (job : JobRow) (workerId now : ℕ) : Prop :=
  job.leaseOwner = some workerId ∧ job.leaseCurrent now

section
variable {db db' : Db δ} {jobId workerId : ℕ} {job : JobRow}

theorem lockJobProjectFirst_ok (h : lockJobProjectFirst db jobId = .ok job) :
    db.jobs[jobId]? = some job := by
  simp only [lockJobProjectFirst, bind_eq_ok, require_eq_ok, ensure_eq_ok, pure_eq_ok] at h
  obtain ⟨_, hjob, _, _, rfl⟩ := h
  exact hjob

theorem lockOwnedJob_ok {allowed : List JobStatus} {version : Option ℕ}
    (h : lockOwnedJob db jobId workerId allowed version = .ok job) :
    db.jobs[jobId]? = some job ∧ job.OwnedBy workerId db.now ∧ job.status ∈ allowed := by
  simp only [lockOwnedJob, bind_eq_ok, ensure_eq_ok, pure_eq_ok] at h
  obtain ⟨_, hjob, _, ⟨howner, hlease, hstatus⟩, _, _, rfl⟩ := h
  exact ⟨lockJobProjectFirst_ok hjob, ⟨howner, hlease⟩, hstatus⟩

/-- The rows a job is linked to. -/
structure Linked (db : Db δ) (job : JobRow) (linked : LinkedResearchState) : Prop where
  jobRun : job.runId = some linked.runId
  runRow : db.runs[linked.runId]? = some linked.run
  jobStage : job.runStageId = linked.stage.map (·.1)
  stageRow : ∀ stageId stage, linked.stage = some (stageId, stage) →
    db.stages[stageId]? = some stage ∧ stage.runId = linked.runId

theorem lockLinkedResearchState_ok {linked : Option LinkedResearchState}
    (h : lockLinkedResearchState db job = .ok linked) :
    (job.runId = none ∧ linked = none) ∨ ∃ l, linked = some l ∧ Linked db job l := by
  unfold lockLinkedResearchState at h
  cases hrun : job.runId with
  | none =>
    simp only [hrun, pure_eq_ok] at h
    exact .inl ⟨rfl, h.symm⟩
  | some runId =>
    simp only [hrun, bind_eq_ok, require_eq_ok] at h
    obtain ⟨run, hget, h⟩ := h
    cases hstage : job.runStageId with
    | none =>
      simp only [hstage, pure_eq_ok] at h
      exact .inr ⟨_, h.symm, hrun, hget, hstage, fun _ _ h => by cases h⟩
    | some stageId =>
      simp only [hstage, bind_eq_ok, require_eq_ok, pure_eq_ok, Option.filter_eq_some_iff,
        decide_eq_true_eq] at h
      obtain ⟨stage, ⟨hs, hr⟩, rfl⟩ := h
      exact .inr ⟨_, rfl, hrun, hget, hstage, fun _ _ h => by cases h; exact ⟨hs, hr⟩⟩

theorem reconcileLinkedJobFailure_ok {errorClass : JobErrorClass} {sanitizedError : String}
    (h : reconcileLinkedJobFailure db job errorClass sanitizedError = .ok db') :
    (job.runId = none ∧ db' = db) ∨
      ∃ l, Linked db job l ∧ db' = failLinkedStage db l errorClass sanitizedError := by
  simp only [reconcileLinkedJobFailure, bind_eq_ok] at h
  obtain ⟨linked, hlinked, h⟩ := h
  obtain ⟨hnone, rfl⟩ | ⟨l, rfl, hl⟩ := lockLinkedResearchState_ok hlinked
  · exact .inl ⟨hnone, (pure_eq_ok.mp h).symm⟩
  · exact .inr ⟨l, hl, (pure_eq_ok.mp h).symm⟩

theorem reconcileLinkedJobCancellation_ok {requestedBy : String}
    (h : reconcileLinkedJobCancellation db job requestedBy = .ok db') :
    (job.runId = none ∧ db' = db) ∨
      ∃ l, Linked db job l ∧ db' = cancelLinkedRun db l job.status requestedBy := by
  simp only [reconcileLinkedJobCancellation, bind_eq_ok] at h
  obtain ⟨linked, hlinked, h⟩ := h
  obtain ⟨hnone, rfl⟩ | ⟨l, rfl, hl⟩ := lockLinkedResearchState_ok hlinked
  · exact .inl ⟨hnone, (pure_eq_ok.mp h).symm⟩
  · exact .inr ⟨l, hl, (pure_eq_ok.mp h).symm⟩

/-! ### The linked run -/

/-- Only runs and stages changed. -/
structure RunsOnly (db db' : Db δ) : Prop where
  now : db'.now = db.now
  projects : db'.projects = db.projects
  commits : db'.commits = db.commits
  jobs : db'.jobs = db.jobs
  jobAttempts : db'.jobAttempts = db.jobAttempts
  domain : db'.domain = db.domain

theorem RunsOnly.refl (db : Db δ) : RunsOnly db db := ⟨rfl, rfl, rfl, rfl, rfl, rfl⟩

theorem RunsOnly.trans {db'' : Db δ} (h : RunsOnly db db') (h' : RunsOnly db' db'') :
    RunsOnly db db'' :=
  ⟨h'.now.trans h.now, h'.projects.trans h.projects, h'.commits.trans h.commits,
    h'.jobs.trans h.jobs, h'.jobAttempts.trans h.jobAttempts, h'.domain.trans h.domain⟩

theorem failLinkedStage_runsOnly (db : Db δ) (l : LinkedResearchState) (e : JobErrorClass)
    (m : String) :
    RunsOnly db (failLinkedStage db l e m) := by
  unfold failLinkedStage
  repeat' split
  all_goals exact ⟨rfl, rfl, rfl, rfl, rfl, rfl⟩

theorem beginRunCancellation_runsOnly (db : Db δ) (runId : ℕ) (run : ResearchRunRow) (m : String) :
    RunsOnly db (beginRunCancellation db runId run m).1 := by
  unfold beginRunCancellation
  split <;> exact ⟨rfl, rfl, rfl, rfl, rfl, rfl⟩

theorem cancelLinkedStage_runsOnly (db : Db δ) (stage : Option (ℕ × RunStageRow)) :
    RunsOnly db (cancelLinkedStage db stage) := by
  unfold cancelLinkedStage
  repeat' split
  all_goals exact ⟨rfl, rfl, rfl, rfl, rfl, rfl⟩

theorem cancelLinkedRun_runsOnly (db : Db δ) (l : LinkedResearchState) (status : JobStatus)
    (m : String) :
    RunsOnly db (cancelLinkedRun db l status m) := by
  have hbegin := beginRunCancellation_runsOnly db l.runId l.run m
  unfold cancelLinkedRun
  split
  · exact .refl db
  simp only
  split
  · exact hbegin
  have hstage := hbegin.trans (cancelLinkedStage_runsOnly _ l.stage)
  split
  · exact hstage
  · exact hstage.trans ⟨rfl, rfl, rfl, rfl, rfl, rfl⟩

/-! ### The calls -/

/-- What a submission does: it inserts the job, or finds one with its key and its input. -/
inductive Submits (db : Db δ) (input : SubmitJobInput) : SubmittedJob δ → Prop
  | inserted (key : jobByKey db input.projectId input.idempotencyKey = none)
      (references : jobReferencesExist db input) (maxAttempts : 1 ≤ input.maxAttempts) :
      Submits db input ⟨db.jobs.length, true, db.insertJob (input.row db.now)⟩
  | existing {jobId : ℕ} {job : JobRow}
      (key : jobByKey db input.projectId input.idempotencyKey = some (jobId, job))
      (run : job.runId = input.runId) (stage : job.runStageId = input.runStageId) :
      Submits db input ⟨jobId, false, db⟩

theorem submitJobInTransaction_ok {input : SubmitJobInput} {r : SubmittedJob δ}
    (h : submitJobInTransaction db input = .ok r) : Submits db input r := by
  simp only [submitJobInTransaction, boundedInteger, bind_eq_ok, ensure_eq_ok] at h
  obtain ⟨_, _, _, hmax, _, _, _, _, h⟩ := h
  split at h
  · simp only [bind_eq_ok, ensure_eq_ok, pure_eq_ok] at h
    obtain ⟨_, href, rfl⟩ := h
    exact .inserted ‹_› href (by omega)
  · simp only [bind_eq_ok, ensure_eq_ok, pure_eq_ok] at h
    obtain ⟨_, ⟨_, _, hrun, hstage⟩, rfl⟩ := h
    exact .existing ‹_› hrun hstage

theorem submitJob_ok {input : SubmitJobInput} {r : SubmittedJob δ}
    (h : submitJob db input = .ok r) : Submits db input r := by
  simp only [submitJob, bind_eq_ok] at h
  obtain ⟨_, _, h⟩ := h
  exact submitJobInTransaction_ok h

theorem mem_claimCandidates {input : ClaimJobsInput} {locked : List ℕ} {id : ℕ}
    (h : id ∈ claimCandidates db input locked) :
    ∃ job, db.jobs[id]? = some job ∧ input.candidate db.now job := by
  simp only [claimCandidates, List.mem_map] at h
  obtain ⟨⟨job, _⟩, hmem, rfl⟩ := h
  have hmem := List.mem_of_mem_take hmem
  simp only [List.mem_insertionSort, List.mem_filter, List.mem_zipIdx_iff_getElem?,
    Bool.and_eq_true] at hmem
  exact ⟨job, hmem.1, hmem.2.1⟩

theorem claimJobs_ok {input : ClaimJobsInput} {locked : List ℕ}
    (h : claimJobs db input locked = .ok db') :
    db' = { db with
      jobs := updateWhere (fun id _ => id ∈ claimCandidates db input locked)
        (·.claim db.now input.workerId input.leaseDurationMs) db.jobs
      jobAttempts := db.jobAttempts ++ (claimCandidates db input locked).filterMap fun id =>
        db.jobs[id]?.map fun job => claimedAttempt id job input.workerId } := by
  simp only [claimJobs, bind_eq_ok, pure_eq_ok] at h
  obtain ⟨_, _, _, _, _, _, _, _, h⟩ := h
  exact h.symm

theorem startJob_ok {version : Option ℕ} (h : startJob db jobId workerId version = .ok db') :
    ∃ job, db.jobs[jobId]? = some job ∧ job.OwnedBy workerId db.now ∧ job.status = .claimed ∧
      db' = db.settleAttempt jobId job (job.start db.now) (·.start) := by
  simp only [startJob, bind_eq_ok, pure_eq_ok] at h
  obtain ⟨job, hlock, _, _, rfl⟩ := h
  obtain ⟨hjob, howned, hstatus⟩ := lockOwnedJob_ok hlock
  exact ⟨job, hjob, howned, by simpa using hstatus, rfl⟩

theorem heartbeatJob_ok {leaseDurationMs : ℕ}
    (h : heartbeatJob db jobId workerId leaseDurationMs = .ok db') :
    ∃ job, db.jobs[jobId]? = some job ∧ job.OwnedBy workerId db.now ∧ job.status.isActive ∧
      db' = db.updateJob jobId (·.heartbeat db.now leaseDurationMs) := by
  simp only [heartbeatJob, bind_eq_ok, pure_eq_ok] at h
  obtain ⟨_, _, job, hlock, rfl⟩ := h
  obtain ⟨hjob, howned, hstatus⟩ := lockOwnedJob_ok hlock
  exact ⟨job, hjob, howned, by simpa [JobStatus.isActive] using hstatus, rfl⟩

theorem completeJob_ok {output : ℕ} (h : completeJob db jobId workerId output = .ok db') :
    ∃ job, db.jobs[jobId]? = some job ∧ job.OwnedBy workerId db.now ∧ job.status = .running ∧
      db' = db.settleAttempt jobId job (job.succeed db.now output)
        (·.finish db.now .succeeded) := by
  simp only [completeJob, bind_eq_ok, pure_eq_ok] at h
  obtain ⟨job, hlock, _, _, rfl⟩ := h
  obtain ⟨hjob, howned, hstatus⟩ := lockOwnedJob_ok hlock
  exact ⟨job, hjob, howned, by simpa using hstatus, rfl⟩

/-- `failJob` sends an owned job to a retry while attempts remain, else to its death, which its
    linked stage shares. -/
theorem failJob_ok {input : FailJobInput} (h : failJob db input = .ok db') :
    ∃ job target delay, db.jobs[input.jobId]? = some job ∧ job.OwnedBy input.workerId db.now ∧
      job.status ∈ [.claimed, .running] ∧
      let failed := job.failAttempt db.now target delay input.errorClass input.sanitizedError
      let db₁ := db.settleAttempt input.jobId job failed
        (·.fail db.now target delay input.errorClass input.sanitizedError)
      (target = .retryWait ∧ job.attempts < job.maxAttempts ∧ db' = db₁ ∨
        target ∈ [.failed, .deadLetter] ∧
          reconcileLinkedJobFailure db₁ failed input.errorClass input.sanitizedError = .ok db') := by
  simp only [failJob, bind_eq_ok] at h
  obtain ⟨job, hlock, target, htarget, _, _, delay, _, h⟩ := h
  obtain ⟨hjob, howned, hstatus⟩ := lockOwnedJob_ok hlock
  refine ⟨job, target, delay, hjob, howned, hstatus, ?_⟩
  split at h
  · exact .inr ⟨‹_›, h⟩
  · obtain ⟨rfl, hlt⟩ | rfl | rfl := failureJobStatus_spec htarget
    · exact .inl ⟨rfl, hlt, (pure_eq_ok.mp h).symm⟩
    · contradiction
    · contradiction

/-- A live job that is not already being cancelled moves; any other stays. -/
theorem requestJobCancellationInTransaction_ok {requestedBy : String} {reconcile : Bool}
    {r : JobStatus × Db δ}
    (h : requestJobCancellationInTransaction db jobId requestedBy reconcile = .ok r) :
    ∃ job, db.jobs[jobId]? = some job ∧
      ((isTerminalJobStatus job.status ∨ job.status = .cancellationRequested) ∧
        r = (job.status, db) ∨
      job.status ∈ [.queued, .retryWait, .claimed, .running] ∧
        r.1 = cancellationTarget job.status ∧
        let requested := job.requestCancellation db.now (cancellationTarget job.status)
        let db₁ := db.updateJob jobId fun _ => requested
        if reconcile then reconcileLinkedJobCancellation db₁ requested requestedBy = .ok r.2
        else r.2 = db₁) := by
  simp only [requestJobCancellationInTransaction, bind_eq_ok] at h
  obtain ⟨job, hlock, h⟩ := h
  refine ⟨job, lockJobProjectFirst_ok hlock, ?_⟩
  split at h
  · exact .inl ⟨‹_›, (pure_eq_ok.mp h).symm⟩
  rename_i hlive
  simp only [bind_eq_ok] at h
  obtain ⟨_, _, h⟩ := h
  have hstatus : job.status ∈ [JobStatus.queued, .retryWait, .claimed, .running] := by
    revert hlive; cases job.status <;> decide
  cases reconcile with
  | true =>
    simp only [↓reduceIte, bind_eq_ok, pure_eq_ok] at h
    obtain ⟨_, hrec, rfl⟩ := h
    exact .inr ⟨hstatus, rfl, hrec⟩
  | false =>
    simp only [Bool.false_eq_true, ↓reduceIte, pure_eq_ok] at h
    subst h
    exact .inr ⟨hstatus, rfl, rfl⟩

theorem requestJobCancellation_ok {requestedBy : String}
    (h : requestJobCancellation db jobId requestedBy = .ok db') :
    ∃ job, db.jobs[jobId]? = some job ∧
      (db' = db ∧ job.status ∉ [.queued, .retryWait, .claimed, .running] ∨
      job.status ∈ [.queued, .retryWait, .claimed, .running] ∧
        let requested := job.requestCancellation db.now (cancellationTarget job.status)
        reconcileLinkedJobCancellation (db.updateJob jobId fun _ => requested) requested
          requestedBy = .ok db') := by
  simp only [requestJobCancellation, bind_eq_ok, pure_eq_ok] at h
  obtain ⟨r, hr, rfl⟩ := h
  obtain ⟨job, hjob, ⟨hdead, rfl⟩ | ⟨hstatus, _, hrec⟩⟩ :=
    requestJobCancellationInTransaction_ok hr
  · refine ⟨job, hjob, .inl ⟨rfl, ?_⟩⟩
    revert hdead
    cases job.status <;> decide
  · exact ⟨job, hjob, .inr ⟨hstatus, hrec⟩⟩

theorem acknowledgeJobCancellation_ok (h : acknowledgeJobCancellation db jobId workerId = .ok db') :
    ∃ job, db.jobs[jobId]? = some job ∧ job.OwnedBy workerId db.now ∧
      job.status = .cancellationRequested ∧
      reconcileLinkedJobCancellation
        (db.settleAttempt jobId job (job.acknowledgeCancellation db.now) (·.cancel db.now))
        (job.acknowledgeCancellation db.now) "Cancellation acknowledged by worker" = .ok db' := by
  simp only [acknowledgeJobCancellation, bind_eq_ok] at h
  obtain ⟨job, hlock, _, _, h⟩ := h
  obtain ⟨hjob, howned, hstatus⟩ := lockOwnedJob_ok hlock
  exact ⟨job, hjob, howned, by simpa using hstatus, h⟩

/-- A released job waits again, whatever its attempts; a job being cancelled is cancelled. -/
theorem releaseJobLease_ok (h : releaseJobLease db jobId workerId = .ok db') :
    ∃ job, db.jobs[jobId]? = some job ∧ job.OwnedBy workerId db.now ∧
      (job.status ∈ [.claimed, .running] ∧
        db' = db.settleAttempt jobId job (job.release db.now .retryWait)
          (·.finish db.now .retryWait) ∨
      job.status = .cancellationRequested ∧ reconcileLinkedJobCancellation
        (db.settleAttempt jobId job (job.release db.now .cancelled) (·.finish db.now .cancelled))
        (job.release db.now .cancelled) "Cancellation completed during worker shutdown"
          = .ok db') := by
  simp only [releaseJobLease, bind_eq_ok] at h
  obtain ⟨job, hlock, _, _, h⟩ := h
  obtain ⟨hjob, howned, hstatus⟩ := lockOwnedJob_ok hlock
  refine ⟨job, hjob, howned, ?_⟩
  by_cases hreq : job.status = .cancellationRequested
  · exact .inr ⟨hreq, by simpa [hreq, endedAttemptStatus] using h⟩
  · refine .inl ⟨by simpa [hreq] using hstatus, ?_⟩
    simp only [hreq, ↓reduceIte, endedAttemptStatus] at h
    exact (pure_eq_ok.mp h).symm

/-- An expired active job goes where `recoveredStatus` says, and its attempt is ended. -/
theorem recoverExpiredJob_ok {runIds : Option (List ℕ)} {random : ℚ}
    (h : recoverExpiredJob db jobId runIds random = .ok db') :
    (db' = db ∧ ∀ job, db.jobs[jobId]? = some job → ¬ (job.leaseExpired db.now ∧
      (∀ ids ∈ runIds, ∃ runId ∈ job.runId, runId ∈ ids) ∧ job.status.isActive)) ∨
    ∃ job delay, db.jobs[jobId]? = some job ∧ job.leaseExpired db.now ∧
      (∀ ids ∈ runIds, ∃ runId ∈ job.runId, runId ∈ ids) ∧ job.status.isActive ∧
      let expired := job.expire db.now (recoveredStatus job) delay
      let db₁ := db.settleAttempt jobId job expired (·.expire db.now (recoveredStatus job) delay)
      (recoveredStatus job = .deadLetter ∧ reconcileLinkedJobFailure db₁ expired .unknown
          "Worker lease expired before completion." = .ok db' ∨
        recoveredStatus job = .cancelled ∧ reconcileLinkedJobCancellation db₁ expired
          "Cancellation completed after worker lease expiry" = .ok db' ∨
        recoveredStatus job = .retryWait ∧ db' = db₁) := by
  simp only [recoverExpiredJob, bind_eq_ok] at h
  obtain ⟨job, hlock, h⟩ := h
  split at h
  · rename_i hcand
    simp only [bind_eq_ok] at h
    obtain ⟨_, _, delay, _, h⟩ := h
    refine .inr ⟨job, delay, lockJobProjectFirst_ok hlock, hcand.1, hcand.2.1, hcand.2.2, ?_⟩
    split at h
    · exact .inl ⟨‹_›, h⟩
    split at h
    · exact .inr (.inl ⟨‹_›, h⟩)
    · refine .inr (.inr ⟨?_, (pure_eq_ok.mp h).symm⟩)
      simp_all [recoveredStatus]
  · refine .inl ⟨(pure_eq_ok.mp h).symm, fun job' hjob' => ?_⟩
    obtain rfl : job' = job := Option.some.inj (hjob'.symm.trans (lockJobProjectFirst_ok hlock))
    assumption

theorem manualRetryJob_ok (h : manualRetryJob db jobId = .ok db') :
    ∃ job, db.jobs[jobId]? = some job ∧ job.runStageId = none ∧
      job.status ∈ [.failed, .deadLetter] ∧
      db' = db.updateJob jobId (·.manualRetry db.now) := by
  simp only [manualRetryJob, bind_eq_ok, ensure_eq_ok, pure_eq_ok] at h
  obtain ⟨job, hlock, _, hstage, _, hstatus, _, _, rfl⟩ := h
  refine ⟨job, lockJobProjectFirst_ok hlock, ?_, hstatus, rfl⟩
  simpa using (not_or.mp hstage).1

end

end ResearchWorkbench
