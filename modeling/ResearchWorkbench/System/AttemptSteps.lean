import ResearchWorkbench.System.JobSteps

namespace ResearchWorkbench

/-!
# What an operation does to attempts

Everything an operation can do to a row of `job_attempts`, said once.

* `AttemptStep db db' a a'` — an operation from `db` to `db'` may turn the attempt `a` into `a'`;
* `ClaimsAttempt db' op a` — `op` may insert the attempt `a`;
* `perform_jobAttempts` — a successful operation changes the attempts in these ways only.
-/

variable {δ : Type}

/-- `op` may change a row of `job_attempts` so, the database becoming `db'`. -/
inductive AttemptStep (db db' : Db δ) : JobAttemptRow → JobAttemptRow → Prop
  | keep (a : JobAttemptRow) : AttemptStep db db' a a
  | settle {a a' : JobAttemptRow} {job : JobRow} (jobRow : db.jobs[a.jobId]? = some job)
      (number : a.attemptNumber = job.attempts) (active : job.status.isActive)
      (jobId : a'.jobId = a.jobId) (attemptNumber : a'.attemptNumber = a.attemptNumber)
      (status : a'.status ≠ .leaseExpired) : AttemptStep db db' a a'
  | expire {a : JobAttemptRow} {job' : JobRow} (target : JobStatus) (delay : Option ℕ)
      (jobRow : db'.jobs[a.jobId]? = some job') (number : a.attemptNumber = job'.attempts)
      (owner : job'.leaseOwner = none) (ended : ¬ job'.status.isActive) :
      AttemptStep db db' a (a.expire db.now target delay)

/-- `op` may insert the attempt `a` so, the database becoming `db'`: of a job it just claimed. -/
def ClaimsAttempt (db' : Db δ) (op : Op δ) (a : JobAttemptRow) : Prop :=
  ∃ input locked job, op = .claimJobs input locked ∧ a.status = .claimed ∧
    db'.jobs[a.jobId]? = some job ∧ a.attemptNumber = job.attempts

section
variable {db db' : Db δ} {op : Op δ}

/-- The attempt of an active job is settled. -/
theorem AttemptStep.settleAttempt {jobId : ℕ} {job job' : JobRow}
    {f : JobAttemptRow → JobAttemptRow} (hjob : db.jobs[jobId]? = some job)
    (hactive : job.status.isActive)
    (hattempts : db'.jobAttempts = (db.settleAttempt jobId job job' f).jobAttempts)
    (hf : ∀ a, (f a).jobId = a.jobId ∧ (f a).attemptNumber = a.attemptNumber ∧
      (f a).status ≠ .leaseExpired) :
    TableStep (fun _ => AttemptStep db db') (fun _ => ClaimsAttempt db' op) db.jobAttempts
      db'.jobAttempts := by
  rw [hattempts]
  refine .updateWhere (fun _ => .keep) fun k a _ hp => ?_
  obtain ⟨rfl, hnumber⟩ : a.jobId = jobId ∧ a.attemptNumber = job.attempts := by simpa using hp
  obtain ⟨h₁, h₂, h₃⟩ := hf a
  exact .settle hjob hnumber hactive h₁ h₂ h₃

theorem endedAttemptStatus_ne (target : JobStatus) : endedAttemptStatus target ≠ .leaseExpired := by
  cases target <;> decide

variable [DomainStore δ]

/-- **Attempts.**  A successful operation changes and inserts attempts only as `AttemptStep` and
    `ClaimsAttempt` allow. -/
theorem perform_jobAttempts (h : perform db op = .ok db') :
    TableStep (fun _ => AttemptStep db db') (fun _ => ClaimsAttempt db' op) db.jobAttempts
      db'.jobAttempts := by
  have hkeep : db'.jobAttempts = db.jobAttempts →
      TableStep (fun _ => AttemptStep db db') (fun _ => ClaimsAttempt db' op) db.jobAttempts
        db'.jobAttempts := fun heq => heq ▸ .refl (fun _ => .keep) _
  cases op with
  | claimJobs input locked =>
    obtain rfl := claimJobs_ok h
    refine TableStep.append (.refl (fun _ => .keep) _) fun k a ha => ?_
    obtain ⟨id, hid, ha⟩ := List.mem_filterMap.mp (List.mem_of_getElem? ha)
    obtain ⟨job, hjob, rfl⟩ := Option.map_eq_some_iff.mp ha
    refine ⟨input, locked, job.claim db.now input.workerId input.leaseDurationMs, rfl, rfl, ?_, rfl⟩
    simp [claimedAttempt, hjob, hid]
  | startJob jobId workerId version =>
    obtain ⟨job, hjob, _, hstatus, rfl⟩ := startJob_ok h
    exact AttemptStep.settleAttempt hjob (by simp [hstatus, JobStatus.isActive]) rfl
      fun a => ⟨rfl, rfl, by simp [JobAttemptRow.start]⟩
  | completeJob jobId workerId output =>
    obtain ⟨job, hjob, _, hstatus, rfl⟩ := completeJob_ok h
    exact AttemptStep.settleAttempt hjob (by simp [hstatus, JobStatus.isActive]) rfl
      fun a => ⟨rfl, rfl, by simp [JobAttemptRow.finish]⟩
  | failJob input =>
    obtain ⟨job, target, delay, hjob, _, hstatus, hcase⟩ := failJob_ok h
    have hattempts : db'.jobAttempts = (db.settleAttempt input.jobId job
        (job.failAttempt db.now target delay input.errorClass input.sanitizedError)
        (·.fail db.now target delay input.errorClass input.sanitizedError)).jobAttempts := by
      obtain ⟨_, _, rfl⟩ | ⟨_, hrec⟩ := hcase
      · rfl
      · exact (reconcileLinkedJobFailure_runsOnly hrec).jobAttempts
    exact AttemptStep.settleAttempt hjob (isActive_of_executing hstatus) hattempts
      fun a => ⟨rfl, rfl, endedAttemptStatus_ne target⟩
  | acknowledgeJobCancellation jobId workerId =>
    obtain ⟨job, hjob, _, hstatus, hrec⟩ := acknowledgeJobCancellation_ok h
    exact AttemptStep.settleAttempt hjob (by simp [hstatus, JobStatus.isActive])
      (reconcileLinkedJobCancellation_runsOnly hrec).jobAttempts
      fun a => ⟨rfl, rfl, by simp [JobAttemptRow.cancel, JobAttemptRow.finish]⟩
  | releaseJobLease jobId workerId =>
    obtain ⟨job, hjob, _, ⟨hstatus, rfl⟩ | ⟨hstatus, hrec⟩⟩ := releaseJobLease_ok h
    · exact AttemptStep.settleAttempt hjob (isActive_of_executing hstatus) rfl
        fun a => ⟨rfl, rfl, by simp [JobAttemptRow.finish]⟩
    · exact AttemptStep.settleAttempt hjob (by simp [hstatus, JobStatus.isActive])
        (reconcileLinkedJobCancellation_runsOnly hrec).jobAttempts
        fun a => ⟨rfl, rfl, by simp [JobAttemptRow.finish]⟩
  | recoverExpiredJob jobId runIds random =>
    obtain ⟨rfl, _⟩ | ⟨job, delay, hjob, _, _, _, hcase⟩ := recoverExpiredJob_ok h
    · exact hkeep rfl
    have hruns : RunsOnly (db.settleAttempt jobId job (job.expire db.now (recoveredStatus job) delay)
        (·.expire db.now (recoveredStatus job) delay)) db' := by
      obtain ⟨_, hrec⟩ | ⟨_, hrec⟩ | ⟨_, rfl⟩ := hcase
      · exact reconcileLinkedJobFailure_runsOnly hrec
      · exact reconcileLinkedJobCancellation_runsOnly hrec
      · exact .refl _
    have hended : ¬ (recoveredStatus job).isActive := by
      obtain ⟨h, _⟩ | ⟨h, _⟩ | ⟨h, _⟩ := recoveredStatus_cases job
      all_goals rw [h]; decide
    have hjob' : db'.jobs[jobId]? = some (job.expire db.now (recoveredStatus job) delay) := by
      rw [hruns.jobs, Db.settleAttempt_jobs, getElem?_modify_eq hjob]
    rw [hruns.jobAttempts]
    refine .updateWhere (fun _ => .keep) fun k a _ hp => ?_
    obtain ⟨rfl, hnumber⟩ : a.jobId = jobId ∧ a.attemptNumber = job.attempts := by simpa using hp
    exact .expire _ _ hjob' hnumber rfl hended
  | _ => exact hkeep ((perform_framed h).jobAttempts rfl)

end

end ResearchWorkbench
