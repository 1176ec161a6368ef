import ResearchWorkbench.System.AttemptSteps

namespace ResearchWorkbench

/-!
# Attempts ended by recovery

`lockOwnedJob` knows a worker by its id alone.  A worker that recovery took an attempt from is shut
out of the job exactly as long as the same worker id does not claim the job again.

* `ClaimsAvoidExpired` — no worker claims a job again that recovery took from it;
* `Db.ExpiredFenced` — the invariant of the attempts and their jobs;
* `expired_attempt_fenced` — under it an expired attempt changes nothing any more;
* `expired_attempt_not_fenced` — a worker that claimed its job again completes the later attempt
  with a call of the expired one.
-/

variable {δ : Type}

/-- The job and the worker of a call that a job's execution makes. -/
def Op.workerCall : Op δ → Option (ℕ × ℕ)
  | .startJob jobId workerId _ => some (jobId, workerId)
  | .heartbeatJob jobId workerId _ => some (jobId, workerId)
  | .completeJob jobId workerId _ => some (jobId, workerId)
  | .failJob input => some (input.jobId, input.workerId)
  | .acknowledgeJobCancellation jobId workerId => some (jobId, workerId)
  | .releaseJobLease jobId workerId => some (jobId, workerId)
  | _ => none

/-- The arguments of a claim. -/
def Op.claim : Op δ → Option (ClaimJobsInput × List ℕ)
  | .claimJobs input locked => some (input, locked)
  | _ => none

/-- No worker claims a job of which recovery has ended an attempt of its own. -/
def ClaimsAvoidExpired (db : Db δ) (op : Op δ) : Prop :=
  ∀ c ∈ op.claim, ∀ a ∈ db.jobAttempts, a.status = .leaseExpired →
    a.jobId ∈ claimCandidates db c.1 c.2 → a.workerId ≠ c.1.workerId

instance (db : Db δ) (op : Op δ) : Decidable (ClaimsAvoidExpired db op) :=
  inferInstanceAs (Decidable (∀ c ∈ op.claim, _))

/-- An attempt belongs to a job that has made at least as many; one that recovery ended is not the
    current one of an active job, and its worker does not own the job. -/
structure JobAttemptRow.FencedFrom (a : JobAttemptRow) (job : JobRow) : Prop where
  number_le : a.attemptNumber ≤ job.attempts
  superseded : a.status = .leaseExpired → job.status.isActive → a.attemptNumber < job.attempts
  owner_ne : a.status = .leaseExpired → job.leaseOwner ≠ some a.workerId

/-- Every attempt is fenced from its job. -/
def Db.ExpiredFenced (db : Db δ) : Prop :=
  ∀ (k : ℕ) (a : JobAttemptRow), db.jobAttempts[k]? = some a →
    ∃ job, db.jobs[a.jobId]? = some job ∧ a.FencedFrom job

section
variable {db db' : Db δ} {op : Op δ} {i : ℕ} {job job' : JobRow} {a : JobAttemptRow}

/-- A step of its job keeps an attempt fenced, if a claim is not by the worker of an expired one. -/
theorem JobStep.fencedFrom (h : JobStep db op i job job') (hfenced : a.FencedFrom job)
    (hok : ∀ input locked, op = .claimJobs input locked → i ∈ claimCandidates db input locked →
      a.status = .leaseExpired → a.workerId ≠ input.workerId) : a.FencedFrom job' := by
  obtain ⟨hle, hlt, hne⟩ := hfenced
  have hinactive {status : JobStatus} (h : ¬ status.isActive) : a.status = .leaseExpired →
      status.isActive → a.attemptNumber < job.attempts := fun _ hactive => absurd hactive h
  have hrequested (h : job.status ∈ [.queued, .retryWait, .claimed, .running]) :
      a.FencedFrom (job.requestCancellation db.now (cancellationTarget job.status)) := by
    obtain ⟨ht, _⟩ | ⟨ht, hw⟩ := cancellationTarget_cases job.status
    · rw [ht]
      exact ⟨hle, hinactive nofun, by simp [JobRow.requestCancellation]⟩
    · rw [ht]
      refine ⟨hle, fun hexp _ => hlt hexp (isActive_of_executing ?_), hne⟩
      revert h hw
      cases job.status <;> decide
  cases h with
  | keep => exact ⟨hle, hlt, hne⟩
  | claim hi _ _ =>
    refine ⟨Nat.le_succ_of_le hle, fun _ _ => Nat.lt_succ_of_le hle, fun hexp howner => ?_⟩
    exact hok _ _ rfl hi hexp (Option.some.inj howner).symm
  | start _ hstatus => exact ⟨hle, fun hexp _ => hlt hexp (by rw [hstatus]; rfl), hne⟩
  | heartbeat _ _ => exact ⟨hle, hlt, hne⟩
  | succeed _ _ => exact ⟨hle, hinactive nofun, nofun⟩
  | failAttempt target _ _ _ hgoal =>
    obtain ⟨rfl, _⟩ | hdead := hgoal
    · exact ⟨hle, hinactive nofun, nofun⟩
    · obtain rfl | rfl := by simpa using hdead
      all_goals exact ⟨hle, hinactive nofun, nofun⟩
  | requestCancellation hstatus => exact hrequested hstatus
  | cancelWithRun _ hstatus => exact hrequested hstatus
  | acknowledge _ _ => exact ⟨hle, hinactive nofun, nofun⟩
  | release _ _ => exact ⟨hle, hinactive nofun, nofun⟩
  | releaseCancelled _ _ => exact ⟨hle, hinactive nofun, nofun⟩
  | expire _ _ _ _ =>
    obtain ⟨h, _⟩ | ⟨h, _⟩ | ⟨h, _⟩ := recoveredStatus_cases job
    all_goals rw [h]; exact ⟨hle, hinactive nofun, nofun⟩
  | manualRetry _ _ => exact ⟨hle, hinactive nofun, nofun⟩
  | checkpoint _ => exact ⟨hle, hlt, hne⟩

variable [DomainStore δ]

/-- **The step lemma.**  Claims that avoid expired attempts keep every attempt fenced. -/
theorem perform_expiredFenced (hrun : perform db op = .ok db') (hok : ClaimsAvoidExpired db op)
    (h : db.ExpiredFenced) : db'.ExpiredFenced := by
  intro k a' ha'
  obtain ⟨a, ha, hstep⟩ | ⟨_, hnew⟩ := (perform_jobAttempts hrun).cases ha'
  · obtain ⟨job, hjob, hfenced⟩ := h k a ha
    obtain ⟨job', hjob', hjobStep⟩ := (perform_jobs hrun).old _ _ hjob
    have hfenced' : a.FencedFrom job' := by
      refine hjobStep.fencedFrom hfenced fun input locked hop hi hexp => ?_
      exact hok (input, locked) (by rw [hop]; rfl) a (List.mem_of_getElem? ha) hexp hi
    cases hstep with
    | keep => exact ⟨job', hjob', hfenced'⟩
    | settle _ _ _ hjobId hnumber hstatus =>
      rw [hjobId]
      exact ⟨job', hjob', hnumber ▸ hfenced'.number_le, fun h => absurd h hstatus,
        fun h => absurd h hstatus⟩
    | expire target delay hrow hnumber howner hended =>
      refine ⟨_, hrow, hnumber.le, fun _ hactive => absurd hactive hended, fun _ => ?_⟩
      rw [howner]
      exact nofun
  · obtain ⟨_, _, job, _, hstatus, hjob, hnumber⟩ := hnew
    have hne : a'.status ≠ .leaseExpired := by rw [hstatus]; decide
    exact ⟨job, hjob, hnumber.le, fun h => absurd h hne, fun h => absurd h hne⟩

theorem Db.ReachableBy.expiredFenced (h : db.ReachableBy ClaimsAvoidExpired) :
    db.ExpiredFenced :=
  h.invariant (I := Db.ExpiredFenced) (fun db h₀ k a ha => by simp [h₀.jobAttempts] at ha)
    fun _ _ _ hI hok hrun => perform_expiredFenced hrun hok hI

/-- An attempt that recovery has ended stays as it is. -/
theorem perform_leaseExpired {k : ℕ} (hrun : perform db op = .ok db') (h : db.ExpiredFenced)
    (ha : db.jobAttempts[k]? = some a) (hexp : a.status = .leaseExpired) :
    ∃ a', db'.jobAttempts[k]? = some a' ∧ a'.status = .leaseExpired ∧ a'.jobId = a.jobId ∧
      a'.workerId = a.workerId := by
  obtain ⟨a', ha', hstep⟩ := (perform_jobAttempts hrun).old k a ha
  refine ⟨a', ha', ?_⟩
  cases hstep with
  | keep => exact ⟨hexp, rfl, rfl⟩
  | settle hjob hnumber hactive _ _ _ =>
    obtain ⟨job', hjob', hfenced⟩ := h k a ha
    rw [hjob] at hjob'
    cases hjob'
    have := hfenced.superseded hexp hactive
    omega
  | expire => exact ⟨rfl, rfl, rfl⟩

/-- A worker call needs the lease. -/
theorem perform_workerCall {jobId workerId : ℕ} (hcall : op.workerCall = some (jobId, workerId))
    (hrun : perform db op = .ok db') :
    ∃ job, db.jobs[jobId]? = some job ∧ job.leaseOwner = some workerId := by
  cases op <;> simp only [Op.workerCall, Option.some.injEq, Prod.mk.injEq, reduceCtorEq] at hcall
  all_goals obtain ⟨rfl, rfl⟩ := hcall
  case startJob =>
    obtain ⟨job, hjob, howned, _⟩ := startJob_ok hrun
    exact ⟨job, hjob, howned.1⟩
  case heartbeatJob =>
    obtain ⟨job, hjob, howned, _⟩ := heartbeatJob_ok hrun
    exact ⟨job, hjob, howned.1⟩
  case completeJob =>
    obtain ⟨job, hjob, howned, _⟩ := completeJob_ok hrun
    exact ⟨job, hjob, howned.1⟩
  case failJob =>
    obtain ⟨job, _, _, hjob, howned, _⟩ := failJob_ok hrun
    exact ⟨job, hjob, howned.1⟩
  case acknowledgeJobCancellation =>
    obtain ⟨job, hjob, howned, _⟩ := acknowledgeJobCancellation_ok hrun
    exact ⟨job, hjob, howned.1⟩
  case releaseJobLease =>
    obtain ⟨job, hjob, howned, _⟩ := releaseJobLease_ok hrun
    exact ⟨job, hjob, howned.1⟩

/-- **Attempt fencing.**  Where no worker claims a job again that recovery took from it, the
    execution of an attempt that recovery has ended never changes the database again. -/
theorem expired_attempt_fenced {k : ℕ} (h : db.ReachableBy ClaimsAvoidExpired)
    (ha : db.jobAttempts[k]? = some a) (hexp : a.status = .leaseExpired)
    (hrun : Reach transact ClaimsAvoidExpired db db')
    (hcall : op.workerCall = some (a.jobId, a.workerId)) : transact db' op = db' := by
  have hinv : db'.ExpiredFenced ∧ ∃ a', db'.jobAttempts[k]? = some a' ∧ a'.status = .leaseExpired ∧
      a'.jobId = a.jobId ∧ a'.workerId = a.workerId := by
    refine hrun.invariant (I := fun db => db.ExpiredFenced ∧ ∃ a', db.jobAttempts[k]? = some a' ∧
        a'.status = .leaseExpired ∧ a'.jobId = a.jobId ∧ a'.workerId = a.workerId)
      ⟨h.expiredFenced, a, ha, hexp, rfl, rfl⟩ ?_
    rintro u op ⟨hu, a', ha', hexp', hjobId, hworker⟩ hok
    cases hstep : perform u op with
    | error e =>
      rw [transact_of_error hstep]
      exact ⟨hu, a', ha', hexp', hjobId, hworker⟩
    | ok u' =>
      rw [transact_of_ok hstep]
      obtain ⟨a'', ha'', hexp'', hjobId', hworker'⟩ := perform_leaseExpired hstep hu ha' hexp'
      exact ⟨perform_expiredFenced hstep hok hu, a'', ha'', hexp'', hjobId'.trans hjobId,
        hworker'.trans hworker⟩
  obtain ⟨hfenced, a', ha', hexp', hjobId, hworker⟩ := hinv
  cases hstep : perform db' op with
  | error e => exact transact_of_error hstep
  | ok u =>
    obtain ⟨job, hjob, howner⟩ := perform_workerCall hcall hstep
    obtain ⟨job', hjob', hjobFenced⟩ := hfenced k a' ha'
    rw [hjobId, hjob] at hjob'
    cases hjob'
    exact absurd (hworker ▸ howner) (hjobFenced.owner_ne hexp')

end

/-! ### A job claimed again by the same worker -/

/-- Worker 0 starts attempt 1 of a job and loses it to recovery; `workerId` starts attempt 2. -/
def reclaimedBy (workerId : ℕ) : List (Op Unit) :=
  [.submitJob { jobType := .other 0, inputReference := .document 0, idempotencyKey := .custom 0 },
    .claimJobs { workerId := 0, leaseDurationMs := 1000 } [],
    .startJob 0 0 none,
    .tick 1000,
    .recoverExpiredJob 0 none 0,
    .tick 60000,
    .claimJobs { workerId := workerId, leaseDurationMs := 1000 } [],
    .startJob 0 workerId none]

/-- The execution of attempt 1 completes attempt 2 of the same worker id. -/
theorem expired_attempt_not_fenced :
    ¬ ∀ db : Db Unit, db.Reachable → ∀ (k : ℕ) (a : JobAttemptRow), db.jobAttempts[k]? = some a →
      a.status = .leaseExpired → ∀ op : Op Unit, op.workerCall = some (a.jobId, a.workerId) →
      (transact db op).jobs[a.jobId]? = db.jobs[a.jobId]? ∧
      ∀ (k' : ℕ) (b : JobAttemptRow), db.jobAttempts[k']? = some b → b.jobId = a.jobId →
        a.attemptNumber < b.attemptNumber → (transact db op).jobAttempts[k']? = some b := by
  intro hall
  let db := (reclaimedBy 0).foldl transact (Db.initial [] ())
  have hreach : db.Reachable := Db.reachable_ofActions (Db.initial_initial [] ()) _
  have hexpired : ∃ a ∈ db.jobAttempts[0]?, a.status = .leaseExpired ∧ a.jobId = 0 ∧
      a.workerId = 0 ∧ a.attemptNumber = 1 := by decide +kernel
  have hcurrent : ∃ b ∈ db.jobAttempts[1]?, b.jobId = 0 ∧ b.attemptNumber = 2 ∧
      b.status = .running := by decide +kernel
  have hcompleted : ∃ b ∈ (transact db (.completeJob 0 0 0)).jobAttempts[1]?,
      b.status = .succeeded := by decide +kernel
  obtain ⟨a, ha, hstatus, hjobId, hworker, hnumber⟩ := hexpired
  obtain ⟨b, hb, hbJob, hbNumber, hbStatus⟩ := hcurrent
  obtain ⟨b', hb', hbStatus'⟩ := hcompleted
  have hsame := (hall db hreach 0 a ha hstatus (.completeJob 0 0 0)
    (by rw [hjobId, hworker]; rfl)).2 1 b hb (by rw [hbJob, hjobId]) (by omega)
  obtain rfl : b' = b := Option.some.inj (hb'.symm.trans hsame)
  rw [hbStatus] at hbStatus'
  cases hbStatus'

/-- When another worker has attempt 2, the execution of attempt 1 cannot complete it. -/
theorem expired_attempt_fenced_other :
    transact ((reclaimedBy 1).foldl transact (Db.initial [] ())) (.completeJob 0 0 0) =
      (reclaimedBy 1).foldl transact (Db.initial [] ()) := by
  have hreach : ((reclaimedBy 1).foldl transact (Db.initial [] ())).ReachableBy
      ClaimsAvoidExpired :=
    Db.reachableBy_ofTrace (Db.initial_initial [] ()) (by decide +kernel)
  have hexpired : ∃ a ∈ ((reclaimedBy 1).foldl transact (Db.initial [] ())).jobAttempts[0]?,
      a.status = .leaseExpired ∧ a.jobId = 0 ∧ a.workerId = 0 := by decide +kernel
  obtain ⟨a, ha, hstatus, hjobId, hworker⟩ := hexpired
  exact expired_attempt_fenced hreach ha hstatus .refl (by rw [hjobId, hworker]; rfl)

end ResearchWorkbench
