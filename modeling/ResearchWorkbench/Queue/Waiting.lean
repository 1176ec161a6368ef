import ResearchWorkbench.System.JobSteps

namespace ResearchWorkbench

/-!
# Waiting jobs can be claimed

A job that waits (`QUEUED` or `RETRY_WAIT`) is only ever moved by `claimJobs`, which asks for an
attempt to be left.

* `JobRow.Claimable` — the invariant of a job row;
* `JobStep.claimable` — every step keeps it but a release after the last attempt;
* `waiting_job_claimable` — where no such release happens, no job is stranded;
* `releaseJobLease_strands_job` — a release after the last attempt strands its job.
-/

variable {δ : Type}

/-- A job has made at most its attempts, and fewer while it waits. -/
structure JobRow.Claimable (job : JobRow) : Prop where
  attempts_le : job.attempts ≤ job.maxAttempts
  attemptsLeft : job.status.isWaiting → job.attempts < job.maxAttempts

/-- The job an operation releases. -/
def Op.releasedJob : Op δ → Option ℕ
  | .releaseJobLease jobId _ => some jobId
  | _ => none

/-- No job that made its last attempt is released for another one. -/
def ReleasesKeepAttempts (db : Db δ) (op : Op δ) : Prop :=
  ∀ jobId ∈ op.releasedJob, ∀ job ∈ db.jobs[jobId]?, job.status ∈ [.claimed, .running] →
    job.attempts < job.maxAttempts

instance (db : Db δ) (op : Op δ) : Decidable (ReleasesKeepAttempts db op) :=
  inferInstanceAs (Decidable (∀ jobId ∈ op.releasedJob, _))

section
variable {db : Db δ} {op : Op δ} {i : ℕ} {job job' : JobRow}

theorem not_isWaiting_target (status : JobStatus) : ¬ (cancellationTarget status).isWaiting := by
  obtain ⟨h, _⟩ | ⟨h, _⟩ := cancellationTarget_cases status
  all_goals rw [h]; exact nofun

theorem JobStep.claimable (h : JobStep db op i job job') (hjob : db.jobs[i]? = some job)
    (hok : ReleasesKeepAttempts db op) (hc : job.Claimable) : job'.Claimable := by
  obtain ⟨hle, hleft⟩ := hc
  cases h with
  | keep => exact ⟨hle, hleft⟩
  | claim _ _ hlt => exact ⟨hlt, nofun⟩
  | start _ _ => exact ⟨hle, nofun⟩
  | heartbeat _ _ => exact ⟨hle, hleft⟩
  | succeed _ _ => exact ⟨hle, nofun⟩
  | failAttempt target delay _ _ hgoal =>
    refine ⟨hle, fun hwait => ?_⟩
    obtain ⟨_, hlt⟩ | hdead := hgoal
    · exact hlt
    · obtain rfl | rfl := by simpa using hdead
      all_goals cases hwait
  | requestCancellation _ => exact ⟨hle, fun hwait => absurd hwait (not_isWaiting_target _)⟩
  | cancelWithRun _ _ => exact ⟨hle, fun hwait => absurd hwait (not_isWaiting_target _)⟩
  | acknowledge _ _ => exact ⟨hle, nofun⟩
  | release _ hstatus => exact ⟨hle, fun _ => hok i rfl job hjob hstatus⟩
  | releaseCancelled _ _ => exact ⟨hle, nofun⟩
  | expire delay _ _ _ =>
    refine ⟨hle, fun hwait => ?_⟩
    have hwait : (recoveredStatus job).isWaiting := hwait
    obtain ⟨h, _⟩ | ⟨_, _, hlt⟩ | ⟨h, _⟩ := recoveredStatus_cases job
    · rw [h] at hwait; cases hwait
    · exact hlt
    · rw [h] at hwait; cases hwait
  | manualRetry _ _ => exact ⟨Nat.le_succ _, fun _ => Nat.lt_succ_self _⟩
  | checkpoint _ => exact ⟨hle, hleft⟩

theorem InsertsJob.claimable {db' : Db δ} (h : InsertsJob db db' op i job) : job.Claimable := by
  obtain ⟨_, input, _, hmax, _, _, rfl⟩ := h
  exact ⟨Nat.zero_le _, fun _ => hmax⟩

variable [DomainStore δ]

/-- Where no release happens after a last attempt, every job is claimable while it waits. -/
theorem Db.ReachableBy.claimable (h : db.ReachableBy ReleasesKeepAttempts) :
    ∀ (i : ℕ) (job : JobRow), db.jobs[i]? = some job → job.Claimable := by
  refine h.invariant (I := fun db => ∀ (i : ℕ) (job : JobRow), db.jobs[i]? = some job →
    job.Claimable) (fun db h₀ i job hjob => by simp [h₀.jobs] at hjob) ?_
  intro db op db' hall hok hrun i job' hjob'
  obtain ⟨job, hjob, hstep⟩ | ⟨_, hnew⟩ := (perform_jobs hrun).cases hjob'
  · exact hstep.claimable hjob hok (hall i job hjob)
  · exact hnew.claimable

/-- **No stranded job.**  Where no release happens after a last attempt, every waiting job has an
    attempt left, and once it is due it is a candidate of every claim that is not restricted to
    other types or runs. -/
theorem waiting_job_claimable (h : db.ReachableBy ReleasesKeepAttempts)
    (hjob : db.jobs[i]? = some job) (hwait : job.status.isWaiting) :
    job.attempts < job.maxAttempts ∧
      ∀ (input : ClaimJobsInput) (now : ℕ), job.scheduledAt ≤ now → input.jobTypes = none →
        input.runIds = none → input.candidate now job := by
  have hlt := (h.claimable i job hjob).attemptsLeft hwait
  refine ⟨hlt, fun input now hdue htypes hruns => ?_⟩
  simp [ClaimJobsInput.candidate, hwait, hdue, hlt, htypes, hruns]

end

/-! ### A released last attempt -/

/-- A job of one attempt that is submitted, claimed, started and released. -/
def releasedLastAttempt : List (Op Unit) :=
  [.submitJob
      { jobType := .other 0, inputReference := .document 0, idempotencyKey := .custom 0
        maxAttempts := 1 },
    .claimJobs { workerId := 0, leaseDurationMs := 60000 } [],
    .startJob 0 0 none,
    .releaseJobLease 0 0]

/-- The shutdown path of a worker leaves a job waiting that has made its last attempt. -/
theorem releaseJobLease_strands_job :
    ¬ ∀ db : Db Unit, db.Reachable → ∀ (i : ℕ) (job : JobRow), db.jobs[i]? = some job →
      job.status.isWaiting → job.attempts < job.maxAttempts := by
  intro hall
  have hbad : ∃ job ∈ (releasedLastAttempt.foldl transact (Db.initial [] ())).jobs[0]?,
      job.status.isWaiting ∧ ¬ job.attempts < job.maxAttempts := by decide +kernel
  obtain ⟨job, hjob, hwait, hnot⟩ := hbad
  exact hnot (hall _ (Db.reachable_ofActions (Db.initial_initial [] ()) _) 0 job hjob hwait)

/-- A job of two attempts, released after its first. -/
def releasedFirstAttempt : List (Op Unit) :=
  .submitJob { jobType := .other 0, inputReference := .document 0, idempotencyKey := .custom 0
               maxAttempts := 2 } :: releasedLastAttempt.tail

theorem waiting_job_claimable_released :
    ∃ job, (releasedFirstAttempt.foldl transact (Db.initial [] ())).jobs[0]? = some job ∧
      job.status.isWaiting ∧ job.attempts < job.maxAttempts := by
  have hjob : ∃ job ∈ (releasedFirstAttempt.foldl transact (Db.initial [] ())).jobs[0]?,
      job.status.isWaiting := by decide +kernel
  obtain ⟨job, hjob, hwait⟩ := hjob
  refine ⟨job, hjob, hwait, (waiting_job_claimable ?_ hjob hwait).1⟩
  exact Db.reachableBy_ofTrace (Db.initial_initial [] ()) (by decide +kernel)

end ResearchWorkbench
