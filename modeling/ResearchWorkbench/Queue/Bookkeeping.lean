import ResearchWorkbench.System.AttemptSteps
import ResearchWorkbench.Queue.Waiting

namespace ResearchWorkbench

/-!
# Leases and attempts

A job is leased while a worker has it, and each time it is claimed one row of `job_attempts` is
added, which stays open until the job is put down.

* `JobRow.Booked` — leases and attempts of one job; `JobStep.booked` keeps it;
* `JobStep.transition` — the status of a job moves along the table of transitions;
* `BookStep`, `perform_books` — what an operation does to jobs and attempts together;
* `AttemptsBooked`, `BookStep.attemptsBooked` — one row an attempt, the last one open with the job;
* `lease_attempt_bookkeeping` — all of it, in every reachable state.
-/

variable {δ : Type}

/-! ### One job -/

/-- A job is leased exactly while it is active, and has made at most its attempts. -/
structure JobRow.Booked (job : JobRow) : Prop where
  owner : job.leaseOwner.isSome = job.status.isActive
  expiry : job.leaseExpiresAt.isSome = job.status.isActive
  attempts_le : job.attempts ≤ job.maxAttempts

section
variable {db db' : Db δ} {op : Op δ} {i : ℕ} {job job' : JobRow}

/-- A job that is put down has no lease. -/
theorem JobRow.Booked.dropLease (h : job.Booked) (howner : job'.leaseOwner = none)
    (hexpiry : job'.leaseExpiresAt = none) (hactive : job'.status.isActive = false)
    (hattempts : job'.attempts = job.attempts) (hmax : job'.maxAttempts = job.maxAttempts) :
    job'.Booked :=
  ⟨by rw [howner, hactive]; rfl, by rw [hexpiry, hactive]; rfl, by
    rw [hattempts, hmax]; exact h.attempts_le⟩

theorem JobRow.Booked.requestCancellation {now : ℕ} (h : job.Booked)
    (hstatus : job.status ∈ [.queued, .retryWait, .claimed, .running]) :
    (job.requestCancellation now (cancellationTarget job.status)).Booked := by
  obtain ⟨htarget, _⟩ | ⟨htarget, hwaiting⟩ := cancellationTarget_cases job.status
  · rw [htarget]
    exact h.dropLease rfl rfl rfl rfl rfl
  · have hactive := ((isLive_iff _).mp (isLive_of_cancellable hstatus)).resolve_right hwaiting
    rw [htarget]
    exact ⟨h.owner.trans hactive, h.expiry.trans hactive, h.attempts_le⟩

theorem recoveredStatus_not_isActive (job : JobRow) : (recoveredStatus job).isActive = false := by
  obtain ⟨h, _⟩ | ⟨h, _⟩ | ⟨h, _⟩ := recoveredStatus_cases job
  all_goals rw [h]; rfl

/-- Every step of a job keeps its lease and its attempts in order. -/
theorem JobStep.booked (h : JobStep db op i job job') (hbooked : job.Booked) : job'.Booked := by
  cases h with
  | keep => exact hbooked
  | claim _ _ hlt => exact ⟨rfl, rfl, hlt⟩
  | start _ hclaimed =>
    have hactive : job.status.isActive = true := by rw [hclaimed]; rfl
    exact ⟨hbooked.owner.trans hactive, hbooked.expiry.trans hactive, hbooked.attempts_le⟩
  | heartbeat _ hactive =>
    exact ⟨hbooked.owner, (show _ = _ from hactive).symm, hbooked.attempts_le⟩
  | succeed _ _ => exact hbooked.dropLease rfl rfl rfl rfl rfl
  | failAttempt target _ _ _ hgoal =>
    refine hbooked.dropLease rfl rfl ?_ rfl rfl
    obtain ⟨rfl, _⟩ | hdead := hgoal
    · rfl
    · obtain rfl | rfl := by simpa using hdead
      all_goals rfl
  | requestCancellation hstatus => exact hbooked.requestCancellation hstatus
  | cancelWithRun _ hstatus => exact hbooked.requestCancellation hstatus
  | acknowledge _ _ => exact hbooked.dropLease rfl rfl rfl rfl rfl
  | release _ _ => exact hbooked.dropLease rfl rfl rfl rfl rfl
  | releaseCancelled _ _ => exact hbooked.dropLease rfl rfl rfl rfl rfl
  | expire _ _ _ _ => exact hbooked.dropLease rfl rfl (recoveredStatus_not_isActive job) rfl rfl
  | manualRetry _ _ => exact ⟨rfl, rfl, Nat.le_succ _⟩
  | checkpoint _ => exact ⟨hbooked.owner, hbooked.expiry, hbooked.attempts_le⟩

/-- A job that is inserted waits. -/
theorem InsertsJob.waits (h : InsertsJob db db' op i job) :
    job.Booked ∧ job.attempts = 0 ∧ job.status.isActive = false := by
  obtain ⟨_, input, _, _, _, _, rfl⟩ := h
  exact ⟨⟨rfl, rfl, Nat.zero_le _⟩, rfl, rfl⟩

/-- **Transitions.**  The status of a job stays or moves along the table. -/
theorem JobStep.transition (h : JobStep db op i job job') :
    job'.status = job.status ∨ canTransitionJob job.status job'.status := by
  have hcancel (hstatus : job.status ∈ [.queued, .retryWait, .claimed, .running]) :
      canTransitionJob job.status (cancellationTarget job.status) := by
    revert hstatus
    cases job.status <;> decide
  have hreleased (hstatus : job.status ∈ [.claimed, .running]) {target : JobStatus}
      (htarget : target ∈ [.retryWait, .failed, .deadLetter]) :
      canTransitionJob job.status target := by
    revert hstatus htarget
    cases job.status <;> cases target <;> decide
  cases h with
  | keep => exact .inl rfl
  | claim _ hwaiting _ =>
    refine .inr (show canTransitionJob job.status .claimed from ?_)
    revert hwaiting
    cases job.status <;> decide
  | start _ hclaimed => exact .inr (by rw [hclaimed]; rfl)
  | heartbeat _ _ => exact .inl rfl
  | succeed _ hrunning => exact .inr (by rw [hrunning]; rfl)
  | failAttempt target _ _ hstatus hgoal =>
    refine .inr (hreleased hstatus (show target ∈ _ from ?_))
    obtain ⟨rfl, _⟩ | hdead := hgoal
    · simp
    · exact List.mem_cons_of_mem _ hdead
  | requestCancellation hstatus => exact .inr (hcancel hstatus)
  | cancelWithRun _ hstatus => exact .inr (hcancel hstatus)
  | acknowledge _ hrequested => exact .inr (by rw [hrequested]; rfl)
  | release _ hstatus => exact .inr (hreleased hstatus (by simp [JobRow.release]))
  | releaseCancelled _ hrequested => exact .inr (by rw [hrequested]; rfl)
  | expire _ _ _ hactive =>
    refine .inr (show canTransitionJob job.status (recoveredStatus job) from ?_)
    obtain ⟨h, hrequested⟩ | ⟨h, hnot, _⟩ | ⟨h, hnot⟩ := recoveredStatus_cases job
    · rw [h, hrequested]; rfl
    · rw [h]; revert hactive hnot; cases job.status <;> decide
    · rw [h]; revert hactive hnot; cases job.status <;> decide
  | manualRetry _ hdead =>
    refine .inr (show canTransitionJob job.status .queued from ?_)
    revert hdead
    cases job.status <;> decide
  | checkpoint _ => exact .inl rfl

end

/-! ### Jobs and attempts together -/

/-- The attempt has not ended. -/
def JobAttemptStatus.isOpen (status : JobAttemptStatus) : Bool := status ∈ [.claimed, .running]

/-- How often the job `i` was claimed. -/
def attemptsMade (jobs : List JobRow) (i : ℕ) : ℕ := (jobs[i]?.map (·.attempts)).getD 0

/-- The number of rows for an attempt. -/
def attemptRows (attempts : List JobAttemptRow) (jobId number : ℕ) : ℕ :=
  attempts.countP fun a => a.jobId = jobId ∧ a.attemptNumber = number

/-- What the attempts of a job depend on stays. -/
structure SameBook (job job' : JobRow) : Prop where
  attempts : job'.attempts = job.attempts
  isActive : job'.status.isActive = job.status.isActive

/-- What an operation may do to jobs and attempts. -/
inductive BookStep (jobs : List JobRow) (attempts : List JobAttemptRow) :
    List JobRow → List JobAttemptRow → Prop
  | keep {jobs' : List JobRow} (rows : TableStep (fun _ => SameBook)
      (fun _ job => job.attempts = 0 ∧ job.status.isActive = false) jobs jobs') :
      BookStep jobs attempts jobs' attempts
  /-- The rows of claimed jobs. -/
  | claim {ids : List ℕ} (now workerId leaseDurationMs : ℕ) (nodup : ids.Nodup)
      (waiting : ∀ i ∈ ids, ∃ job, jobs[i]? = some job ∧ job.status.isWaiting) :
      BookStep jobs attempts
        (updateWhere (fun i _ => i ∈ ids) (·.claim now workerId leaseDurationMs) jobs)
        (attempts ++ ids.filterMap fun i => jobs[i]?.map fun job => claimedAttempt i job workerId)
  /-- An active job and the row of the attempt that it is in. -/
  | settle {j : ℕ} {job job' : JobRow} {f : JobAttemptRow → JobAttemptRow}
      (row : jobs[j]? = some job) (active : job.status.isActive)
      (number : job'.attempts = job.attempts)
      (same : ∀ a, (f a).jobId = a.jobId ∧ (f a).attemptNumber = a.attemptNumber)
      (open_iff : ∀ a, (f a).status.isOpen = job'.status.isActive) :
      BookStep jobs attempts (jobs.modify j fun _ => job')
        (updateWhere (fun _ a => a.jobId = j ∧ a.attemptNumber = job.attempts) f attempts)

section
variable {db db' : Db δ} {op : Op δ} {i : ℕ} {job job' : JobRow}

/-- A job step of an operation that leaves the attempts alone. -/
theorem JobStep.sameBook (h : JobStep db op i job job') (hop : op.writes .jobAttempts = false) :
    SameBook job job' := by
  cases h with
  | keep => exact ⟨rfl, rfl⟩
  | heartbeat _ _ => exact ⟨rfl, rfl⟩
  | checkpoint _ => exact ⟨rfl, rfl⟩
  | requestCancellation hstatus =>
    refine ⟨rfl, show (cancellationTarget job.status).isActive = _ from ?_⟩
    revert hstatus
    cases job.status <;> decide
  | cancelWithRun _ hstatus =>
    refine ⟨rfl, show (cancellationTarget job.status).isActive = _ from ?_⟩
    revert hstatus
    cases job.status <;> decide
  | manualRetry _ hdead =>
    refine ⟨rfl, show false = _ from ?_⟩
    revert hdead
    cases job.status <;> decide
  | _ => cases hop

/-- Each candidate of a claim is one job. -/
theorem nodup_claimCandidates (input : ClaimJobsInput) (locked : List ℕ) :
    (claimCandidates db input locked).Nodup := by
  have hids (p : JobRow × ℕ → Bool) : ((db.jobs.zipIdx.filter p).map (·.2)).Nodup := by
    refine List.Nodup.sublist (List.filter_sublist.map _) ?_
    rw [List.zipIdx_map_snd]
    exact List.nodup_range'
  refine List.Nodup.sublist ((List.take_sublist _ _).map _) ?_
  exact ((List.perm_insertionSort _ _).map _).nodup_iff.mpr (hids _)

theorem endedAttemptStatus_not_isOpen (target : JobStatus) :
    (endedAttemptStatus target).isOpen = false := by
  cases target <;> rfl

variable [DomainStore δ]

/-- **Books.**  Every operation changes jobs and attempts as `BookStep` allows. -/
theorem perform_books (h : perform db op = .ok db') :
    BookStep db.jobs db.jobAttempts db'.jobs db'.jobAttempts := by
  have hkeep (hop : op.writes .jobAttempts = false) :
      BookStep db.jobs db.jobAttempts db'.jobs db'.jobAttempts := by
    rw [(perform_framed h).jobAttempts hop]
    exact .keep ((perform_jobs h).mono (fun _ _ _ _ hstep => hstep.sameBook hop)
      fun _ _ _ hnew => hnew.waits.2)
  have hsettle {j : ℕ} {job job' : JobRow} {f : JobAttemptRow → JobAttemptRow}
      (hruns : RunsOnly (db.settleAttempt j job job' f) db') (hjob : db.jobs[j]? = some job)
      (hactive : job.status.isActive) (hnumber : job'.attempts = job.attempts)
      (hsame : ∀ a, (f a).jobId = a.jobId ∧ (f a).attemptNumber = a.attemptNumber)
      (hopen : ∀ a, (f a).status.isOpen = job'.status.isActive) :
      BookStep db.jobs db.jobAttempts db'.jobs db'.jobAttempts := by
    rw [hruns.jobs, hruns.jobAttempts]
    exact .settle hjob hactive hnumber hsame hopen
  cases op with
  | claimJobs input locked =>
    obtain rfl := claimJobs_ok h
    refine .claim db.now input.workerId input.leaseDurationMs (nodup_claimCandidates input locked)
      fun i hi => ?_
    obtain ⟨job, hjob, hcand⟩ := mem_claimCandidates hi
    simp only [ClaimJobsInput.candidate, Bool.and_eq_true, decide_eq_true_eq] at hcand
    exact ⟨job, hjob, hcand.1.1.1.1⟩
  | startJob jobId workerId version =>
    obtain ⟨job, hjob, _, hstatus, rfl⟩ := startJob_ok h
    exact hsettle (.refl _) hjob (by rw [hstatus]; rfl) rfl (fun _ => ⟨rfl, rfl⟩) fun _ => rfl
  | completeJob jobId workerId output =>
    obtain ⟨job, hjob, _, hstatus, rfl⟩ := completeJob_ok h
    exact hsettle (.refl _) hjob (by rw [hstatus]; rfl) rfl (fun _ => ⟨rfl, rfl⟩) fun _ => rfl
  | failJob input =>
    obtain ⟨job, target, delay, hjob, _, hstatus, hcase⟩ := failJob_ok h
    have hended (htarget : target.isActive = false) (a : JobAttemptRow) :
        (a.fail db.now target delay input.errorClass input.sanitizedError).status.isOpen =
          target.isActive := (endedAttemptStatus_not_isOpen target).trans htarget.symm
    obtain ⟨rfl, _, rfl⟩ | ⟨htarget, hrec⟩ := hcase
    · exact hsettle (.refl _) hjob (isActive_of_executing hstatus) rfl (fun _ => ⟨rfl, rfl⟩)
        (hended rfl)
    · refine hsettle (reconcileLinkedJobFailure_runsOnly hrec) hjob
        (isActive_of_executing hstatus) rfl (fun _ => ⟨rfl, rfl⟩) (hended ?_)
      obtain rfl | rfl := by simpa using htarget
      all_goals rfl
  | acknowledgeJobCancellation jobId workerId =>
    obtain ⟨job, hjob, _, hstatus, hrec⟩ := acknowledgeJobCancellation_ok h
    exact hsettle (reconcileLinkedJobCancellation_runsOnly hrec) hjob (by rw [hstatus]; rfl) rfl
      (fun _ => ⟨rfl, rfl⟩) fun _ => rfl
  | releaseJobLease jobId workerId =>
    obtain ⟨job, hjob, _, ⟨hstatus, rfl⟩ | ⟨hstatus, hrec⟩⟩ := releaseJobLease_ok h
    · exact hsettle (.refl _) hjob (isActive_of_executing hstatus) rfl (fun _ => ⟨rfl, rfl⟩)
        fun _ => rfl
    · exact hsettle (reconcileLinkedJobCancellation_runsOnly hrec) hjob (by rw [hstatus]; rfl) rfl
        (fun _ => ⟨rfl, rfl⟩) fun _ => rfl
  | recoverExpiredJob jobId runIds random =>
    obtain ⟨rfl, _⟩ | ⟨job, delay, hjob, _, _, hactive, hcase⟩ := recoverExpiredJob_ok h
    · exact .keep (.refl (fun _ _ => ⟨rfl, rfl⟩) _)
    have hruns : RunsOnly (db.settleAttempt jobId job (job.expire db.now (recoveredStatus job) delay)
        (·.expire db.now (recoveredStatus job) delay)) db' := by
      obtain ⟨_, hrec⟩ | ⟨_, hrec⟩ | ⟨_, rfl⟩ := hcase
      · exact reconcileLinkedJobFailure_runsOnly hrec
      · exact reconcileLinkedJobCancellation_runsOnly hrec
      · exact .refl _
    exact hsettle hruns hjob hactive rfl (fun _ => ⟨rfl, rfl⟩)
      fun _ => (recoveredStatus_not_isActive job).symm
  | _ => exact hkeep rfl

end

/-! ### One row an attempt -/

/-- Each job has one row for each attempt that it has made, and the row of the last one is open as
    long as the job is active. -/
structure AttemptsBooked (jobs : List JobRow) (attempts : List JobAttemptRow) : Prop where
  rows : ∀ i n, attemptRows attempts i n = if 1 ≤ n ∧ n ≤ attemptsMade jobs i then 1 else 0
  isOpen : ∀ a ∈ attempts, ∀ job, jobs[a.jobId]? = some job →
    (a.status.isOpen ↔ a.attemptNumber = job.attempts ∧ job.status.isActive)

section
variable {jobs jobs' : List JobRow} {attempts attempts' : List JobAttemptRow} {i j n : ℕ}
  {job : JobRow}

theorem attemptsMade_eq (h : jobs[i]? = some job) : attemptsMade jobs i = job.attempts := by
  simp [attemptsMade, h]

/-- A row belongs to an attempt that its job has made. -/
theorem AttemptsBooked.number (h : AttemptsBooked jobs attempts) {a : JobAttemptRow}
    (hmem : a ∈ attempts) :
    1 ≤ a.attemptNumber ∧ a.attemptNumber ≤ attemptsMade jobs a.jobId := by
  have hpos : 0 < attemptRows attempts a.jobId a.attemptNumber :=
    List.countP_pos_iff.mpr ⟨a, hmem, by simp⟩
  rw [h.rows] at hpos
  by_contra hnot
  simp [hnot] at hpos

/-- The row of an attempt belongs to a job. -/
theorem AttemptsBooked.jobRow (h : AttemptsBooked jobs attempts) {a : JobAttemptRow}
    (hmem : a ∈ attempts) : ∃ job, jobs[a.jobId]? = some job := by
  have hnumber := h.number hmem
  cases hjob : jobs[a.jobId]? with
  | some job => exact ⟨job, rfl⟩
  | none =>
    simp only [attemptsMade, hjob, Option.map_none, Option.getD_none] at hnumber
    omega

/-- Rows that change without their keys are counted alike. -/
theorem attemptRows_updateWhere {p : ℕ → JobAttemptRow → Bool} {f : JobAttemptRow → JobAttemptRow}
    (hf : ∀ a, (f a).jobId = a.jobId ∧ (f a).attemptNumber = a.attemptNumber) :
    attemptRows (updateWhere p f attempts) i n = attemptRows attempts i n := by
  have hkeys : (updateWhere p f attempts).map (fun a => (a.jobId, a.attemptNumber)) =
      attempts.map fun a => (a.jobId, a.attemptNumber) := by
    refine List.ext_getElem? fun k => ?_
    simp only [List.getElem?_map, getElem?_updateWhere, Option.map_map]
    congr 1
    funext a
    simp only [Function.comp_apply]
    split
    · rw [(hf a).1, (hf a).2]
    · rfl
  have hcount (t : List JobAttemptRow) : attemptRows t i n =
      (t.map fun a => (a.jobId, a.attemptNumber)).countP fun k => k.1 = i ∧ k.2 = n := by
    simp only [attemptRows, List.countP_map]
    rfl
  rw [hcount, hcount, hkeys]

/-- Each claimed job gets a row for its next attempt. -/
theorem attemptRows_claimed {ids : List ℕ} {workerId : ℕ} (hnodup : ids.Nodup)
    (hrows : ∀ i ∈ ids, ∃ job, jobs[i]? = some job) :
    attemptRows (ids.filterMap fun i => jobs[i]?.map fun job => claimedAttempt i job workerId) i n =
      if i ∈ ids ∧ n = attemptsMade jobs i + 1 then 1 else 0 := by
  induction ids with
  | nil => simp [attemptRows]
  | cons k ids ih =>
    obtain ⟨job, hjob⟩ := hrows k List.mem_cons_self
    obtain ⟨hk, hnodup⟩ := List.nodup_cons.mp hnodup
    have ih := ih hnodup fun i hi => hrows i (List.mem_cons_of_mem _ hi)
    simp only [attemptRows] at ih ⊢
    simp only [List.filterMap_cons, hjob, Option.map_some, List.countP_cons, ih, List.mem_cons]
    by_cases hik : i = k
    · subst hik
      simp [hk, attemptsMade_eq hjob, claimedAttempt, eq_comm]
    · have hki : k ≠ i := fun h => hik h.symm
      simp [hik, hki, claimedAttempt]

/-- A step of jobs that changes no attempts. -/
theorem AttemptsBooked.keep (h : AttemptsBooked jobs attempts)
    (hrows : TableStep (fun _ => SameBook)
      (fun _ job => job.attempts = 0 ∧ job.status.isActive = false) jobs jobs') :
    AttemptsBooked jobs' attempts := by
  have hmade (i : ℕ) : attemptsMade jobs' i = attemptsMade jobs i := by
    cases hjob : jobs[i]? with
    | some job =>
      obtain ⟨job', hjob', hsame⟩ := hrows.old i job hjob
      rw [attemptsMade_eq hjob', attemptsMade_eq hjob, hsame.attempts]
    | none =>
      simp only [attemptsMade, hjob, Option.map_none, Option.getD_none]
      cases hjob' : jobs'[i]? with
      | none => rfl
      | some job' => exact (hrows.new i job' hjob' (List.getElem?_eq_none_iff.mp hjob)).1
  refine ⟨fun i n => by rw [hmade, h.rows], fun a hmem job' hjob' => ?_⟩
  obtain ⟨job, hjob⟩ := h.jobRow hmem
  obtain ⟨job'', hjob'', hsame⟩ := hrows.old _ _ hjob
  obtain rfl := Option.some.inj (hjob'.symm.trans hjob'')
  rw [h.isOpen a hmem job hjob, hsame.attempts, hsame.isActive]

/-- A claim. -/
theorem AttemptsBooked.claim (h : AttemptsBooked jobs attempts) {ids : List ℕ}
    {now workerId leaseDurationMs : ℕ} (hnodup : ids.Nodup)
    (hwaiting : ∀ i ∈ ids, ∃ job, jobs[i]? = some job ∧ job.status.isWaiting) :
    AttemptsBooked (updateWhere (fun i _ => i ∈ ids) (·.claim now workerId leaseDurationMs) jobs)
      (attempts ++ ids.filterMap fun i =>
        jobs[i]?.map fun job => claimedAttempt i job workerId) := by
  have hrows : ∀ i ∈ ids, ∃ job, jobs[i]? = some job := fun i hi =>
    (hwaiting i hi).imp fun _ => And.left
  refine ⟨fun i n => ?_, fun a hmem job' hjob' => ?_⟩
  · have hmade : attemptsMade
        (updateWhere (fun i _ => i ∈ ids) (·.claim now workerId leaseDurationMs) jobs) i =
          if i ∈ ids then attemptsMade jobs i + 1 else attemptsMade jobs i := by
      by_cases hi : i ∈ ids
      · obtain ⟨job, hjob⟩ := hrows i hi
        simp [attemptsMade, hjob, hi, JobRow.claim]
      · simp [attemptsMade, hi]
    have happend : attemptRows (attempts ++ ids.filterMap fun i =>
        jobs[i]?.map fun job => claimedAttempt i job workerId) i n =
        attemptRows attempts i n + if i ∈ ids ∧ n = attemptsMade jobs i + 1 then 1 else 0 := by
      rw [← attemptRows_claimed hnodup hrows]
      exact List.countP_append
    rw [happend, h.rows, hmade]
    by_cases hi : i ∈ ids
    · simp only [hi, true_and, if_true]
      split_ifs <;> omega
    · simp [hi]
  · have hnew {k : ℕ} {job : JobRow} (hjob : jobs[k]? = some job) :
        (updateWhere (fun i _ => i ∈ ids) (·.claim now workerId leaseDurationMs) jobs)[k]? =
          some (if k ∈ ids then job.claim now workerId leaseDurationMs else job) := by
      simp [hjob]
    obtain hmem | hmem := List.mem_append.mp hmem
    · obtain ⟨job, hjob⟩ := h.jobRow hmem
      have hnumber := (h.number hmem).2
      rw [attemptsMade_eq hjob] at hnumber
      obtain rfl := Option.some.inj ((hnew hjob).symm.trans hjob')
      rw [h.isOpen a hmem job hjob]
      split
      · -- the rows of a job that waits have ended
        obtain ⟨job₀, hjob₀, hwait⟩ := hwaiting _ ‹_›
        obtain rfl := Option.some.inj (hjob.symm.trans hjob₀)
        have hinactive : job.status.isActive = false := by
          revert hwait
          cases job.status <;> decide
        simp only [hinactive, JobRow.claim]
        constructor
        · rintro ⟨_, hfalse⟩
          cases hfalse
        · rintro ⟨hlast, _⟩
          omega
      · rfl
    · obtain ⟨k, hk, ha⟩ := List.mem_filterMap.mp hmem
      obtain ⟨job, hjob, rfl⟩ := Option.map_eq_some_iff.mp ha
      obtain rfl := Option.some.inj ((hnew hjob).symm.trans hjob')
      simp [claimedAttempt, JobAttemptStatus.isOpen, hk, JobRow.claim, JobStatus.isActive]

/-- The end of an attempt, or its start. -/
theorem AttemptsBooked.settle (h : AttemptsBooked jobs attempts) {job' : JobRow}
    {f : JobAttemptRow → JobAttemptRow} (hjob : jobs[j]? = some job)
    (hnumber : job'.attempts = job.attempts)
    (hsame : ∀ a, (f a).jobId = a.jobId ∧ (f a).attemptNumber = a.attemptNumber)
    (hopen : ∀ a, (f a).status.isOpen = job'.status.isActive) :
    AttemptsBooked (jobs.modify j fun _ => job')
      (updateWhere (fun _ a => a.jobId = j ∧ a.attemptNumber = job.attempts) f attempts) := by
  refine ⟨fun i n => ?_, fun a' hmem job₁ hjob₁ => ?_⟩
  · have hmade : attemptsMade (jobs.modify j fun _ => job') i = attemptsMade jobs i := by
      by_cases hij : j = i
      · subst hij
        rw [attemptsMade_eq (getElem?_modify_eq hjob), attemptsMade_eq hjob, hnumber]
      · simp only [attemptsMade, getElem?_modify_ne hij]
    rw [attemptRows_updateWhere hsame, h.rows, hmade]
  · obtain ⟨k, hk⟩ := List.mem_iff_getElem?.mp hmem
    simp only [getElem?_updateWhere, Option.map_eq_some_iff] at hk
    obtain ⟨a, ha, rfl⟩ := hk
    have hmem := List.mem_of_getElem? ha
    by_cases hj : a.jobId = j
    · rw [← hj] at hjob
      have hstatus := h.isOpen a hmem job hjob
      by_cases hlast : a.attemptNumber = job.attempts
      · simp only [hj, hlast, and_self, decide_true, if_true] at hjob₁ ⊢
        rw [(hsame a).1, hj, getElem?_modify_eq (hj ▸ hjob)] at hjob₁
        obtain rfl := Option.some.inj hjob₁
        rw [hopen, (hsame a).2, hlast, hnumber]
        simp
      · simp only [hlast, and_false, decide_false, Bool.false_eq_true, if_false] at hjob₁ ⊢
        rw [hj, getElem?_modify_eq (hj ▸ hjob)] at hjob₁
        obtain rfl := Option.some.inj hjob₁
        rw [hstatus, hnumber]
        simp [hlast]
    · simp only [hj, false_and, decide_false, Bool.false_eq_true, if_false] at hjob₁ ⊢
      rw [getElem?_modify_ne (fun h => hj h.symm)] at hjob₁
      exact h.isOpen a hmem job₁ hjob₁

/-- **The step lemma.** -/
theorem BookStep.attemptsBooked (h : BookStep jobs attempts jobs' attempts')
    (hbooked : AttemptsBooked jobs attempts) : AttemptsBooked jobs' attempts' := by
  cases h with
  | keep hrows => exact hbooked.keep hrows
  | claim _ _ _ hnodup hwaiting => exact hbooked.claim hnodup hwaiting
  | settle hjob _ hnumber hsame hopen => exact hbooked.settle hjob hnumber hsame hopen

end

/-! ### Every reachable state -/

section
variable [DomainStore δ] {db db' : Db δ} {op : Op δ} {i : ℕ} {job : JobRow}

theorem Db.ReachableBy.booked {ok : Db δ → Op δ → Prop} (h : db.ReachableBy ok) :
    (∀ job ∈ db.jobs, job.Booked) ∧ AttemptsBooked db.jobs db.jobAttempts := by
  refine h.invariant
    (I := fun db => (∀ job ∈ db.jobs, job.Booked) ∧ AttemptsBooked db.jobs db.jobAttempts)
    (fun db h₀ => ?_) fun db op db' hI _ hrun => ⟨fun job' hmem => ?_, ?_⟩
  · rw [h₀.jobs, h₀.jobAttempts]
    refine ⟨by simp, fun i n => ?_, by simp⟩
    simp only [attemptRows, attemptsMade, List.countP_nil, List.getElem?_nil, Option.map_none,
      Option.getD_none]
    exact (if_neg (by omega)).symm
  · obtain ⟨i, hi⟩ := List.mem_iff_getElem?.mp hmem
    obtain ⟨job, hjob, hstep⟩ | ⟨_, hnew⟩ := (perform_jobs hrun).cases hi
    · exact hstep.booked (hI.1 job (List.mem_of_getElem? hjob))
    · exact hnew.waits.1
  · exact (perform_books hrun).attemptsBooked hI.2

/-- **Leases and attempts.**  In every reachable state a job has a lease exactly while it is
    `CLAIMED`, `RUNNING` or `CANCELLATION_REQUESTED`, and at most its attempts; it has one row for
    each of them and no other, and a row is `CLAIMED` or `RUNNING` exactly if it is that of the
    current attempt of a job in one of the three statuses.  And every operation moves a status along
    the table of transitions. -/
theorem lease_attempt_bookkeeping (h : db.Reachable) (hjob : db.jobs[i]? = some job) :
    ((job.leaseOwner.isSome ↔ job.status ∈ [.claimed, .running, .cancellationRequested]) ∧
      (job.leaseExpiresAt.isSome ↔ job.status ∈ [.claimed, .running, .cancellationRequested])) ∧
    job.attempts ≤ job.maxAttempts ∧
    ((∀ n, attemptRows db.jobAttempts i n = if 1 ≤ n ∧ n ≤ job.attempts then 1 else 0) ∧
      ∀ a ∈ db.jobAttempts, a.jobId = i → (a.status ∈ [.claimed, .running] ↔
        a.attemptNumber = job.attempts ∧
          job.status ∈ [.claimed, .running, .cancellationRequested])) ∧
    ∀ op db', perform db op = .ok db' → ∃ job', db'.jobs[i]? = some job' ∧
      (job'.status = job.status ∨ canTransitionJob job.status job'.status) := by
  have hactive : job.status.isActive ↔
      job.status ∈ [.claimed, .running, .cancellationRequested] := by
    simp [JobStatus.isActive]
  obtain ⟨hbooked, hattempts⟩ := h.booked
  have hbook := hbooked job (List.mem_of_getElem? hjob)
  refine ⟨⟨?_, ?_⟩, hbook.attempts_le, ⟨fun n => ?_, ?_⟩, fun op db' hrun => ?_⟩
  · rw [hbook.owner, hactive]
  · rw [hbook.expiry, hactive]
  · rw [hattempts.rows, attemptsMade_eq hjob]
  · rintro a hmem rfl
    rw [← hactive, ← hattempts.isOpen a hmem job hjob]
    simp [JobAttemptStatus.isOpen]
  · obtain ⟨job', hjob', hstep⟩ := (perform_jobs hrun).old i job hjob
    exact ⟨job', hjob', hstep.transition⟩

end

/-- A job that was released after its first attempt is claimed again. -/
def reclaimedJob : List (Op Unit) :=
  releasedFirstAttempt ++ [.claimJobs { workerId := 1, leaseDurationMs := 1000 } []]

/-- It is leased, and has two rows. -/
theorem lease_attempt_bookkeeping_reclaimed :
    ∃ job, (reclaimedJob.foldl transact (Db.initial [] ())).jobs[0]? = some job ∧
      job.leaseOwner.isSome ∧
      ∀ n, attemptRows (reclaimedJob.foldl transact (Db.initial [] ())).jobAttempts 0 n =
        if 1 ≤ n ∧ n ≤ 2 then 1 else 0 := by
  have hjob : ∃ job ∈ (reclaimedJob.foldl transact (Db.initial [] ())).jobs[0]?,
      job.status = .claimed ∧ job.attempts = 2 := by
    decide +kernel
  obtain ⟨job, hjob, hstatus, hattempts⟩ := hjob
  have hbook := lease_attempt_bookkeeping (Db.reachable_ofActions (Db.initial_initial [] ()) _) hjob
  refine ⟨job, hjob, hbook.1.1.mpr (by simp [hstatus]), fun n => ?_⟩
  rw [← hattempts]
  exact hbook.2.2.1.1 n

end ResearchWorkbench
