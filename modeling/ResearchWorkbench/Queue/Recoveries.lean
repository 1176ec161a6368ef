import ResearchWorkbench.Queue.RetryDelays
import ResearchWorkbench.System.JobSteps

namespace ResearchWorkbench

/-!
# Recoveries

`recoverExpiredJobs` recovers its candidates one by one.  Of the errors of one recovery it swallows
only a missing row; any other ends the call.

* `ExpiredJob` — the jobs it is about;
* `RecoveryFails`, `RecoveryThrows` — when the recovery of a job fails: its project is deleted, its
  run linkage broken, or its retry delay cannot be computed or written;
* `SameLinkage` — what recoveries leave alone;
* `recoverExpiredJob_spec`, `recoverCandidates_spec` — one recovery and the loop.
-/

variable {δ : Type} {db db' : Db δ} {runIds : Option (List ℕ)} {i : ℕ} {job : JobRow} {random : ℚ}

/-! ### Expired jobs and failing recoveries -/

/-- `WHERE status IN ('CLAIMED', …) AND lease_expires_at <= NOW() AND run_id = ANY($2)`. -/
def JobRow.Recoverable (job : JobRow) (now : ℕ) (runIds : Option (List ℕ)) : Prop :=
  job.status.isActive ∧ job.leaseExpired now ∧ ∀ ids ∈ runIds, ∃ runId ∈ job.runId, runId ∈ ids

/-- An expired job in the scope of the call. -/
def ExpiredJob (db : Db δ) (runIds : Option (List ℕ)) (i : ℕ) (job : JobRow) : Prop :=
  db.jobs[i]? = some job ∧ job.Recoverable db.now runIds

/-- The project of the job is deleted. -/
def ProjectDeleted (db : Db δ) (job : JobRow) : Prop :=
  ∃ projectId ∈ job.projectId, db.projects.length ≤ projectId

/-- The job ends, and its run or its stage in that run is missing. -/
def LinkageBroken (db : Db δ) (job : JobRow) : Prop :=
  recoveredStatus job ≠ .retryWait ∧ ∃ runId ∈ job.runId, (db.runs[runId]? = none ∨
    ∃ stageId ∈ job.runStageId, ∀ stage ∈ db.stages[stageId]?, stage.runId ≠ runId)

/-- The job is to be retried, and its policy is not admitted or its delay is no `INTEGER`. -/
def PolicyUnusable (job : JobRow) (random : ℚ) : Prop :=
  recoveredStatus job = .retryWait ∧
    ¬ (parseJobRetryPolicy job.retryPolicy = .ok job.retryPolicy ∧
      job.attempts ≤ maxSafeInteger ∧
      jitteredDelay (max 1 job.attempts) job.retryPolicy random ≤ maxInteger)

/-- The recovery of the job fails, with the number the generator returns for it. -/
def RecoveryFails (db : Db δ) (job : JobRow) (random : ℚ) : Prop :=
  ProjectDeleted db job ∨ LinkageBroken db job ∨ PolicyUnusable job random

/-- The recovery of the job fails with another error than a missing row. -/
def RecoveryThrows (db : Db δ) (job : JobRow) (random : ℚ) : Prop :=
  RecoveryFails db job random ∧ ¬ ProjectDeleted db job

/-- The job was recovered: it is where `recoveredStatus` says, after the delay of its policy. -/
def RecoveredTo (now : ℕ) (job : JobRow) (random : ℚ) (job' : JobRow) : Prop :=
  ∃ delay, retryDelay (recoveredStatus job) (max 1 job.attempts) job.retryPolicy none random =
    .ok delay ∧ job' = job.expire now (recoveredStatus job) delay

theorem recoveredStatus_transition (h : job.status.isActive) :
    canTransitionJob job.status (recoveredStatus job) := by
  unfold recoveredStatus
  split
  · rename_i hrequested
    rw [hrequested]
    rfl
  · rename_i hrequested
    have hstatus : job.status = .claimed ∨ job.status = .running := by
      revert h hrequested
      cases job.status <;> decide
    rcases hstatus with hstatus | hstatus
    all_goals
      rw [hstatus]
      split <;> rfl

/-- What the recovery leaves is not active. -/
theorem RecoveredTo.not_active {now : ℕ} {job' : JobRow} (h : RecoveredTo now job random job') :
    job'.status.isActive = false := by
  rcases h with ⟨delay, _, rfl⟩
  show (recoveredStatus job).isActive = false
  unfold recoveredStatus
  repeat' split
  all_goals rfl

theorem jitteredDelay_mono {attempt : ℕ} {policy : JobRetryPolicy}
    (h : parseJobRetryPolicy policy = .ok policy) (h₀ : 0 ≤ random) (h₁ : random ≤ 1) :
    jitteredDelay attempt policy random ≤ jitteredDelay attempt policy 1 := by
  rcases parseJobRetryPolicy_eq_ok h with ⟨_, _, _, hratio, hratio'⟩
  have hnonneg := jitterMultiplier_nonneg hratio' hratio h₀
  have hproduct := mul_le_mul_of_nonneg_left (jitterMultiplier_le hratio hratio' h₀ h₁)
    (Nat.cast_nonneg (α := ℚ) (min policy.maxDelayMs (policy.baseDelayMs * 2 ^ min (attempt - 1) 30)))
  have hround := mathRound_mono
    (toDouble_mono (mul_nonneg (Nat.cast_nonneg _) hnonneg) hproduct)
  simp only [jitteredDelay]
  omega

/-- The largest number of the generator is the worst. -/
theorem RecoveryFails.worst (h : RecoveryFails db job random) (h₀ : 0 ≤ random)
    (h₁ : random ≤ 1) : RecoveryFails db job 1 := by
  rcases h with hdeleted | hbroken | ⟨htarget, hunusable⟩
  · exact .inl hdeleted
  · exact .inr (.inl hbroken)
  · refine .inr (.inr ⟨htarget, ?_⟩)
    rintro ⟨hpolicy, hattempts, hdelay⟩
    exact hunusable ⟨hpolicy, hattempts, (jitteredDelay_mono hpolicy h₀ h₁).trans hdelay⟩

/-! ### One recovery -/

/-- The delay of the recovery is computed and can be written unless the policy is unusable. -/
theorem retryDelay_of_usable (h₀ : 0 ≤ random) (h₁ : random ≤ 1)
    (h : ¬ PolicyUnusable job random) :
    ∃ delay, retryDelay (recoveredStatus job) (max 1 job.attempts) job.retryPolicy none random =
      .ok delay := by
  unfold retryDelay
  split
  · rename_i htarget
    have husable := not_not.mp fun hnot => h ⟨htarget, hnot⟩
    have hattempt : max 1 job.attempts ≤ maxSafeInteger := by
      have hone : 1 ≤ maxSafeInteger := by decide
      exact max_le hone husable.2.1
    have hdelay := calculateRetryDelayMs_eq husable.1 (le_max_left 1 job.attempts) hattempt h₀ h₁
      (show (none : Option ℕ).getD 0 ≤ maxSafeInteger from Nat.zero_le _)
    simp only [bind_eq_ok, ensure_eq_ok, pure_eq_ok]
    exact ⟨_, _, hdelay, (), max_le husable.2.2 (Nat.zero_le _), rfl⟩
  · exact ⟨none, rfl⟩

theorem parseJobRetryPolicy_same {policy policy' : JobRetryPolicy}
    (h : parseJobRetryPolicy policy = .ok policy') : policy' = policy := by
  simp only [parseJobRetryPolicy, finiteInteger, bind_eq_ok, ensure_eq_ok, pure_eq_ok] at h
  rcases h with ⟨_, ⟨_, _, rfl⟩, _, ⟨_, _, rfl⟩, _, _, rfl⟩
  rfl

theorem retryDelay_of_unusable (h : PolicyUnusable job random) {delay : Option ℕ} :
    retryDelay (recoveredStatus job) (max 1 job.attempts) job.retryPolicy none random ≠
      .ok delay := by
  intro hdelay
  rw [h.1, retryDelay, if_pos rfl] at hdelay
  simp only [bind_eq_ok, ensure_eq_ok, pure_eq_ok] at hdelay
  rcases hdelay with ⟨delay, hdelay, _, hinteger, _⟩
  have hcomputed := hdelay
  simp only [calculateRetryDelayMs, finiteInteger, bind_eq_ok, ensure_eq_ok, pure_eq_ok] at hdelay
  rcases hdelay with ⟨_, ⟨_, hattempt, rfl⟩, policy, hpolicy, _, hrandom, _, _, _⟩
  rw [parseJobRetryPolicy_same hpolicy] at hpolicy
  have heq := calculateRetryDelayMs_eq hpolicy (le_max_left 1 job.attempts) hattempt.1 hrandom.1
    hrandom.2 (show (none : Option ℕ).getD 0 ≤ maxSafeInteger from Nat.zero_le _)
  rw [heq] at hcomputed
  cases hcomputed
  exact h.2 ⟨hpolicy, (le_max_right _ _).trans hattempt.1, (le_max_left _ _).trans hinteger⟩

theorem finiteInteger_error {value minimum : ℕ} {name : String} {e : ServiceError}
    (h : finiteInteger value name minimum = .error e) : e.isNotFound = false := by
  simp only [finiteInteger, bind_eq_error, ensure_eq_error, pure_ne_error, and_false, exists_false,
    or_false] at h
  rw [← h.2]
  rfl

/-- No missing row is reported for a delay. -/
theorem retryDelay_error {target : JobStatus} {attempt : ℕ} {policy : JobRetryPolicy}
    {e : ServiceError} (h : retryDelay target attempt policy none random = .error e) :
    e.isNotFound = false := by
  unfold retryDelay at h
  split at h
  · simp only [calculateRetryDelayMs, parseJobRetryPolicy, bind_eq_error, ensure_eq_error,
      pure_ne_error, and_false, exists_false, or_false] at h
    rcases h with (h | ⟨_, _, h | ⟨_, _, h⟩⟩) | ⟨_, _, _, rfl⟩
    · exact finiteInteger_error h
    · rcases h with h | ⟨_, _, h | ⟨_, _, _, rfl⟩⟩
      · exact finiteInteger_error h
      · exact finiteInteger_error h
      · rfl
    · rcases h with ⟨_, rfl⟩ | ⟨_, _, _, rfl⟩ <;> rfl
    · rfl
  · exact absurd h pure_ne_error

/-- Recoveries change neither the time, nor the projects, nor which runs and stages there are. -/
structure SameLinkage (db db' : Db δ) : Prop where
  now : db'.now = db.now
  projects : db'.projects = db.projects
  runs : db'.runs.length = db.runs.length
  stages : db'.stages.map (·.runId) = db.stages.map (·.runId)

theorem SameLinkage.refl (db : Db δ) : SameLinkage db db := ⟨rfl, rfl, rfl, rfl⟩

theorem SameLinkage.trans {db'' : Db δ} (h : SameLinkage db db') (h' : SameLinkage db' db'') :
    SameLinkage db db'' :=
  ⟨h'.now.trans h.now, h'.projects.trans h.projects, h'.runs.trans h.runs,
    h'.stages.trans h.stages⟩

theorem SameLinkage.projectDeleted (h : SameLinkage db db') :
    ProjectDeleted db' job ↔ ProjectDeleted db job := by
  unfold ProjectDeleted
  rw [h.projects]

theorem SameLinkage.linkageBroken (h : SameLinkage db db') :
    LinkageBroken db' job ↔ LinkageBroken db job := by
  have hrun : ∀ runId : ℕ, db'.runs[runId]? = none ↔ db.runs[runId]? = none := by
    intro runId
    rw [List.getElem?_eq_none_iff, List.getElem?_eq_none_iff, h.runs]
  have hstage : ∀ stageId runId : ℕ, (∀ stage ∈ db'.stages[stageId]?, stage.runId ≠ runId) ↔
      ∀ stage ∈ db.stages[stageId]?, stage.runId ≠ runId := by
    intro stageId runId
    have hget : (db'.stages[stageId]?).map (·.runId) = (db.stages[stageId]?).map (·.runId) := by
      rw [← List.getElem?_map, ← List.getElem?_map, h.stages]
    cases hold : db.stages[stageId]? with
    | none =>
      cases hnew : db'.stages[stageId]? with
      | none => rfl
      | some stage => simp [hold, hnew] at hget
    | some stage =>
      cases hnew : db'.stages[stageId]? with
      | none => simp [hold, hnew] at hget
      | some stage' =>
        simp only [hold, hnew, Option.map_some, Option.some.injEq] at hget
        simp [hget]
  unfold LinkageBroken
  simp only [hrun, hstage]

theorem SameLinkage.recoveryFails (h : SameLinkage db db') :
    RecoveryFails db' job random ↔ RecoveryFails db job random := by
  unfold RecoveryFails
  rw [h.projectDeleted, h.linkageBroken]

theorem SameLinkage.recoveryThrows (h : SameLinkage db db') :
    RecoveryThrows db' job random ↔ RecoveryThrows db job random := by
  unfold RecoveryThrows
  rw [h.projectDeleted, h.recoveryFails]

theorem failLinkedStage_sameLinkage (db : Db δ) (l : LinkedResearchState) (e : JobErrorClass)
    (m : String) : SameLinkage db (failLinkedStage db l e m) := by
  have hframe := failLinkedStage_runsOnly db l e m
  refine ⟨hframe.now, hframe.projects, ?_, ?_⟩
  all_goals
    unfold failLinkedStage
    repeat' split
  all_goals simp [map_modify_same, RunStageRow.fail]

theorem updateWhere_runIds {stages : List RunStageRow} {p : ℕ → RunStageRow → Bool}
    {f : RunStageRow → RunStageRow} (h : ∀ stage, (f stage).runId = stage.runId) :
    (updateWhere p f stages).map (·.runId) = stages.map (·.runId) := by
  refine List.ext_getElem? fun j => ?_
  rw [List.getElem?_map, List.getElem?_map, getElem?_updateWhere]
  cases stages[j]? with
  | none => rfl
  | some stage => by_cases hp : p j stage <;> simp [hp, h]

theorem beginRunCancellation_sameLinkage (db : Db δ) (runId : ℕ) (run : ResearchRunRow)
    (m : String) : SameLinkage db (beginRunCancellation db runId run m).1 := by
  unfold beginRunCancellation
  split
  · exact ⟨rfl, rfl, List.length_modify _ _ _, rfl⟩
  · exact .refl db

theorem cancelLinkedStage_sameLinkage (db : Db δ) (stage : Option (ℕ × RunStageRow)) :
    SameLinkage db (cancelLinkedStage db stage) := by
  unfold cancelLinkedStage
  repeat' split
  · exact ⟨rfl, rfl, rfl, map_modify_same fun _ => rfl⟩
  all_goals exact .refl db

theorem finishRunCancellation_sameLinkage (db : Db δ) (runId : ℕ) :
    SameLinkage db (finishRunCancellation db runId) :=
  ⟨rfl, rfl, List.length_modify _ _ _, updateWhere_runIds fun _ => rfl⟩

theorem cancelLinkedRun_sameLinkage (db : Db δ) (l : LinkedResearchState) (status : JobStatus)
    (m : String) : SameLinkage db (cancelLinkedRun db l status m) := by
  have hbegin := beginRunCancellation_sameLinkage db l.runId l.run m
  unfold cancelLinkedRun
  split
  · exact .refl db
  simp only
  split
  · exact hbegin
  have hstage := hbegin.trans (cancelLinkedStage_sameLinkage _ l.stage)
  split
  · exact hstage
  · exact hstage.trans (finishRunCancellation_sameLinkage _ _)

/-! ### The linked run -/

/-- A run linkage that is not broken is locked. -/
theorem lockLinkedResearchState_of_intact
    (h : ∀ runId ∈ job.runId, ∃ run, db.runs[runId]? = some run ∧
      ∀ stageId ∈ job.runStageId, ∃ stage ∈ db.stages[stageId]?, stage.runId = runId) :
    ∃ linked, lockLinkedResearchState db job = .ok linked := by
  unfold lockLinkedResearchState
  cases hrunId : job.runId with
  | none => exact ⟨none, rfl⟩
  | some runId =>
    rcases h runId hrunId with ⟨run, hrun, hstages⟩
    cases hstageId : job.runStageId with
    | none => exact ⟨some ⟨runId, run, none⟩, by simp [hrun, require]⟩
    | some stageId =>
      rcases hstages stageId hstageId with ⟨stage, hstage, hlinked⟩
      refine ⟨some ⟨runId, run, some (stageId, stage)⟩, ?_⟩
      simp only [bind_eq_ok, require_eq_ok, pure_eq_ok, Option.filter_eq_some_iff,
        decide_eq_true_eq]
      exact ⟨run, hrun, stage, ⟨hstage, hlinked⟩, rfl⟩

/-- A broken run linkage is a conflict. -/
theorem lockLinkedResearchState_of_broken {runId : ℕ} (hrunId : job.runId = some runId)
    (h : db.runs[runId]? = none ∨
      ∃ stageId ∈ job.runStageId, ∀ stage ∈ db.stages[stageId]?, stage.runId ≠ runId) :
    lockLinkedResearchState db job = .error (conflict .JOB_RUN_LINK_BROKEN
      "The job no longer has a complete research run linkage.") := by
  simp only [lockLinkedResearchState, hrunId]
  rcases h with hnone | ⟨stageId, hstageId, hother⟩
  · rw [hnone]
    rfl
  · cases db.runs[runId]? with
    | none => rfl
    | some run =>
      have hfilter : (db.stages[stageId]?.filter fun stage => stage.runId = runId) = none := by
        rw [Option.filter_eq_none_iff]
        intro stage hstage
        simpa using hother stage hstage
      rw [Option.mem_def.mp hstageId]
      simp only [hfilter]
      rfl

/-- The links of the job are intact. -/
theorem links_of_not_broken (h : ¬ LinkageBroken db job) (htarget : recoveredStatus job ≠ .retryWait) :
    ∀ runId ∈ job.runId, ∃ run, db.runs[runId]? = some run ∧
      ∀ stageId ∈ job.runStageId, ∃ stage ∈ db.stages[stageId]?, stage.runId = runId := by
  intro runId hrunId
  cases hrun : db.runs[runId]? with
  | none => exact absurd ⟨htarget, runId, hrunId, .inl hrun⟩ h
  | some run =>
    refine ⟨run, rfl, ?_⟩
    intro stageId hstageId
    by_contra hnone
    refine h ⟨htarget, runId, hrunId, .inr ⟨stageId, hstageId, ?_⟩⟩
    intro stage hstage hlinked
    exact hnone ⟨stage, hstage, hlinked⟩

/-! ### One recovery -/

/-- What the recovery does once the delay is there. -/
theorem settled_recovery (i : ℕ) (delay : Option ℕ) (hbroken : ¬ LinkageBroken db job) :
    let expired := job.expire db.now (recoveredStatus job) delay
    let db₁ := db.settleAttempt i job expired (·.expire db.now (recoveredStatus job) delay)
    ∃ db', (if recoveredStatus job = .deadLetter then
        reconcileLinkedJobFailure db₁ expired .unknown "Worker lease expired before completion."
      else if recoveredStatus job = .cancelled then
        reconcileLinkedJobCancellation db₁ expired
          "Cancellation completed after worker lease expiry"
      else pure db₁) = .ok db' ∧
      SameLinkage db db' ∧ db'.jobs = db.jobs.modify i fun _ => expired := by
  intro expired db₁
  have hsettled : SameLinkage db db₁ := ⟨rfl, rfl, rfl, rfl⟩
  by_cases htarget : recoveredStatus job = .retryWait
  · rw [htarget, if_neg (by decide), if_neg (by decide)]
    exact ⟨db₁, rfl, hsettled, rfl⟩
  · have hlinks := links_of_not_broken hbroken htarget
    have hlinked : ∃ linked, lockLinkedResearchState db₁ expired = .ok linked :=
      lockLinkedResearchState_of_intact hlinks
    rcases hlinked with ⟨linked, hlinked⟩
    split
    · simp only [reconcileLinkedJobFailure, hlinked]
      cases linked with
      | none => exact ⟨db₁, rfl, hsettled, rfl⟩
      | some l =>
        refine ⟨_, rfl, hsettled.trans (failLinkedStage_sameLinkage ..), ?_⟩
        exact (failLinkedStage_runsOnly ..).jobs
    · split
      · simp only [reconcileLinkedJobCancellation, hlinked]
        cases linked with
        | none => exact ⟨db₁, rfl, hsettled, rfl⟩
        | some l =>
          refine ⟨_, rfl, hsettled.trans (cancelLinkedRun_sameLinkage ..), ?_⟩
          exact (cancelLinkedRun_runsOnly ..).jobs
      · exact ⟨db₁, rfl, hsettled, rfl⟩

/-- **One recovery.**  The recovery of an expired job moves the job and leaves the other jobs and
    all links alone, or it fails, with a missing row if the project is deleted. -/
theorem recoverExpiredJob_spec (h : ExpiredJob db runIds i job) (h₀ : 0 ≤ random)
    (h₁ : random ≤ 1) :
    (¬ RecoveryFails db job random ∧ ∃ db' job',
      recoverExpiredJob db i runIds random = .ok db' ∧ SameLinkage db db' ∧
      RecoveredTo db.now job random job' ∧ db'.jobs = db.jobs.modify i fun _ => job') ∨
    (RecoveryFails db job random ∧ ∃ e, recoverExpiredJob db i runIds random = .error e ∧
      (e.isNotFound = true ↔ ProjectDeleted db job)) := by
  rcases h with ⟨hjob, hactive, hexpired, hscope⟩
  by_cases hdeleted : ProjectDeleted db job
  · refine .inr ⟨.inl hdeleted, notFound "Project", ?_, fun _ => hdeleted, fun _ => rfl⟩
    rcases hdeleted with ⟨projectId, hproject, hmissing⟩
    have hnot : ¬ ∀ projectId ∈ job.projectId, projectId < db.projects.length := by
      intro hall
      exact absurd (hall projectId hproject) (not_lt.mpr hmissing)
    have hlock : lockJobProjectFirst db i = .error (notFound "Project") := by
      simp only [lockJobProjectFirst, bind_eq_error]
      exact .inr ⟨job, require_eq_ok.mpr hjob, .inl (ensure_eq_error.mpr ⟨hnot, rfl⟩)⟩
    rw [recoverExpiredJob, hlock]
    rfl
  · have hlock : lockJobProjectFirst db i = .ok job := by
      simp only [lockJobProjectFirst, bind_eq_ok, require_eq_ok, ensure_eq_ok, pure_eq_ok]
      refine ⟨job, hjob, (), ?_, rfl⟩
      intro projectId hproject
      by_contra hmissing
      exact hdeleted ⟨projectId, hproject, not_lt.mp hmissing⟩
    have htransition : assertJobTransition job.status (recoveredStatus job) = .ok () :=
      ensure_eq_ok.mpr (recoveredStatus_transition hactive)
    by_cases hunusable : PolicyUnusable job random
    · refine .inr ⟨.inr (.inr hunusable), ?_⟩
      cases hdelay : retryDelay (recoveredStatus job) (max 1 job.attempts) job.retryPolicy none
          random with
      | ok delay => exact absurd hdelay (retryDelay_of_unusable hunusable)
      | error e =>
        refine ⟨e, ?_, by simp [hdeleted, retryDelay_error hdelay]⟩
        simp only [recoverExpiredJob, bind_eq_error]
        refine .inr ⟨job, hlock, ?_⟩
        rw [if_pos ⟨hexpired, hscope, hactive⟩]
        simp only [bind_eq_error]
        exact .inr ⟨(), htransition, .inl hdelay⟩
    · rcases retryDelay_of_usable h₀ h₁ hunusable with ⟨delay, hdelay⟩
      by_cases hbroken : LinkageBroken db job
      · refine .inr ⟨.inr (.inl hbroken), conflict .JOB_RUN_LINK_BROKEN
          "The job no longer has a complete research run linkage.", ?_,
          by simp [hdeleted, conflict, ServiceError.isNotFound]⟩
        rcases hbroken with ⟨htarget, runId, hrunId, hmissing⟩
        simp only [recoverExpiredJob, bind_eq_error]
        refine .inr ⟨job, hlock, ?_⟩
        rw [if_pos ⟨hexpired, hscope, hactive⟩]
        simp only [bind_eq_error]
        refine .inr ⟨(), htransition, .inr ⟨delay, hdelay, ?_⟩⟩
        have hlinked : lockLinkedResearchState (db.settleAttempt i job
            (job.expire db.now (recoveredStatus job) delay)
            (·.expire db.now (recoveredStatus job) delay))
            (job.expire db.now (recoveredStatus job) delay) = _ :=
          lockLinkedResearchState_of_broken hrunId hmissing
        split
        · rw [reconcileLinkedJobFailure, hlinked]
          rfl
        · rw [if_pos ((recoveredStatus_cases job).elim And.left fun hcase => ?_),
            reconcileLinkedJobCancellation, hlinked]
          · rfl
          · rcases hcase with ⟨hretry, _⟩ | ⟨hdead, _⟩
            · exact absurd hretry htarget
            · exact absurd hdead (by assumption)
      · rcases settled_recovery i delay hbroken with ⟨db', hrun, hlinks, hjobs⟩
        refine .inl ⟨?_, db', _, ?_, hlinks, ⟨delay, hdelay, rfl⟩, hjobs⟩
        · rintro (hd | hb | hu)
          · exact hdeleted hd
          · exact hbroken hb
          · exact hunusable hu
        · simp only [recoverExpiredJob, bind_eq_ok]
          refine ⟨job, hlock, ?_⟩
          rw [if_pos ⟨hexpired, hscope, hactive⟩]
          simp only [bind_eq_ok]
          exact ⟨(), htransition, delay, hdelay, hrun⟩

/-! ### The loop -/

section
open Classical

/-- The candidates that the loop recovers: those whose recovery does not fail, up to the first that
    ends the loop. -/
noncomputable def recoveredCandidates (db : Db δ) (l : List (ℕ × ℚ)) : List (ℕ × ℚ) :=
  (l.takeWhile fun p => ¬ ∃ job ∈ db.jobs[p.1]?, RecoveryThrows db job p.2).filter
    fun p => ¬ ∃ job ∈ db.jobs[p.1]?, RecoveryFails db job p.2

theorem recoveredCandidates_recovered {l : List (ℕ × ℚ)} (hjob : db.jobs[i]? = some job)
    (h : ¬ RecoveryFails db job random) :
    recoveredCandidates db ((i, random) :: l) = (i, random) :: recoveredCandidates db l := by
  have hthrows : ¬ RecoveryThrows db job random := fun hthrows => h hthrows.1
  simp [recoveredCandidates, hjob, h, hthrows]

theorem recoveredCandidates_skipped {l : List (ℕ × ℚ)} (hjob : db.jobs[i]? = some job)
    (h : RecoveryFails db job random) (hdeleted : ProjectDeleted db job) :
    recoveredCandidates db ((i, random) :: l) = recoveredCandidates db l := by
  have hthrows : ¬ RecoveryThrows db job random := fun hthrows => hthrows.2 hdeleted
  simp [recoveredCandidates, hjob, h, hthrows]

theorem recoveredCandidates_thrown {l : List (ℕ × ℚ)} (hjob : db.jobs[i]? = some job)
    (h : RecoveryThrows db job random) : recoveredCandidates db ((i, random) :: l) = [] := by
  simp [recoveredCandidates, hjob, h]

end

/-- What the loop did to the row of a job. -/
def Recovered (l : List (ℕ × ℚ)) (now i : ℕ) (job job' : JobRow) : Prop :=
  (∃ random, (i, random) ∈ l ∧ RecoveredTo now job random job') ∨
    (∀ random, (i, random) ∉ l) ∧ job' = job

/-- **The loop.**  It recovers these candidates and leaves all other jobs and all links alone. -/
theorem recoverCandidates_spec {db₀ : Db δ} {l : List (ℕ × ℚ)} (hsame : SameLinkage db₀ db)
    (hrows : ∀ p ∈ l, db.jobs[p.1]? = db₀.jobs[p.1]?) (hnodup : (l.map (·.1)).Nodup)
    (hexpired : ∀ p ∈ l, ∃ job, ExpiredJob db₀ runIds p.1 job)
    (hrandom : ∀ p ∈ l, 0 ≤ p.2 ∧ p.2 ≤ 1) :
    SameLinkage db (recoverCandidates runIds db l).1 ∧
      (recoverCandidates runIds db l).1.jobs.length = db.jobs.length ∧
      ∀ i job, db.jobs[i]? = some job →
        ∃ job', (recoverCandidates runIds db l).1.jobs[i]? = some job' ∧
          Recovered (recoveredCandidates db₀ l) db.now i job job' := by
  induction l generalizing db with
  | nil =>
    refine ⟨.refl db, rfl, ?_⟩
    intro i job hjob
    exact ⟨job, hjob, .inr ⟨by simp [recoveredCandidates], rfl⟩⟩
  | cons p rest ih =>
    rcases p with ⟨j, r⟩
    rw [List.map_cons, List.nodup_cons] at hnodup
    have hrest : ∀ p ∈ rest, p ∈ (j, r) :: rest := fun p hp => List.mem_cons_of_mem _ hp
    rcases hexpired (j, r) List.mem_cons_self with ⟨job₀, hrow₀, hcandidate⟩
    have hrow : db.jobs[j]? = some job₀ := (hrows (j, r) List.mem_cons_self).trans hrow₀
    have hjobs : ExpiredJob db runIds j job₀ := ⟨hrow, hsame.now ▸ hcandidate⟩
    rcases hrandom (j, r) List.mem_cons_self with ⟨h₀, h₁⟩
    have hih := fun (db₁ : Db δ) (h : SameLinkage db₀ db₁) h' => ih h h' hnodup.2
      (fun p hp => hexpired p (hrest p hp)) (fun p hp => hrandom p (hrest p hp))
    rcases recoverExpiredJob_spec hjobs h₀ h₁ with
      ⟨hok, db₁, job₁, hrun, hlinks, hmoved, hset⟩ | ⟨hfails, e, hrun, hdeleted⟩
    · -- the first candidate is recovered
      have hother : ∀ k, k ≠ j → db₁.jobs[k]? = db.jobs[k]? := by
        intro k hk
        rw [hset, getElem?_modify_ne (Ne.symm hk)]
      have hrows₁ : ∀ p ∈ rest, db₁.jobs[p.1]? = db₀.jobs[p.1]? := by
        intro p hp
        have hne : p.1 ≠ j := fun heq => hnodup.1 (List.mem_map.mpr ⟨p, hp, heq⟩)
        rw [hother p.1 hne]
        exact hrows p (hrest p hp)
      rcases hih db₁ (hsame.trans hlinks) hrows₁ with ⟨hshape, hlength, hall⟩
      simp only [recoverCandidates, hrun]
      refine ⟨hlinks.trans hshape, ?_, ?_⟩
      · rw [hlength, hset, List.length_modify]
      · intro i job hjob
        rw [recoveredCandidates_recovered hrow₀ (by rwa [← hsame.recoveryFails])]
        by_cases hij : i = j
        · subst hij
          obtain rfl : job = job₀ := Option.some.inj (hjob.symm.trans hrow)
          have hnew : db₁.jobs[i]? = some job₁ := by
            rw [hset, getElem?_modify_eq hrow]
          rcases hall i job₁ hnew with ⟨job', hjob', ⟨r', hr', _⟩ | ⟨_, rfl⟩⟩
          · -- no id comes twice
            refine absurd ?_ hnodup.1
            simp only [recoveredCandidates, List.mem_filter] at hr'
            exact List.mem_map.mpr ⟨(i, r'), (List.takeWhile_prefix _).subset hr'.1, rfl⟩
          · exact ⟨job', hjob', .inl ⟨r, List.mem_cons_self, hmoved⟩⟩
        · rcases hall i job ((hother i hij).trans hjob) with ⟨job', hjob', hcase⟩
          refine ⟨job', hjob', ?_⟩
          rcases hcase with ⟨r', hr', hto⟩ | ⟨hnone, hsame'⟩
          · exact .inl ⟨r', List.mem_cons_of_mem _ hr', hlinks.now ▸ hto⟩
          · refine .inr ⟨?_, hsame'⟩
            intro r' hr'
            rcases List.mem_cons.mp hr' with heq | hr'
            · exact hij (congrArg Prod.fst heq)
            · exact hnone r' hr'
    · by_cases hdel : ProjectDeleted db job₀
      · -- the missing project is skipped
        simp only [recoverCandidates, hrun, hdeleted.mpr hdel, ↓reduceIte]
        rw [recoveredCandidates_skipped hrow₀ (hsame.recoveryFails.mp hfails)
          (hsame.projectDeleted.mp hdel)]
        exact hih db hsame fun p hp => hrows p (hrest p hp)
      · -- any other error ends the loop
        have hthrown : e.isNotFound = false := by
          rw [← Bool.not_eq_true, hdeleted]
          exact hdel
        have hloop : recoverCandidates runIds db ((j, r) :: rest) = (db, .error e) := by
          simp only [recoverCandidates, hrun, hthrown, Bool.false_eq_true, ↓reduceIte]
        rw [hloop, recoveredCandidates_thrown hrow₀ (hsame.recoveryThrows.mp ⟨hfails, hdel⟩)]
        refine ⟨.refl db, rfl, ?_⟩
        intro i job hjob
        exact ⟨job, hjob, .inr ⟨by simp, rfl⟩⟩

end ResearchWorkbench
