import ResearchWorkbench.System.JobSteps

namespace ResearchWorkbench

/-!
# Run-stage fences

A fence names one attempt of one job.  It is valid from the start of that attempt until the lease
runs out or the attempt ends, and never again.

* `FenceHolds` — some run accepts the fence;
* `RunStageJobFence.Spent` — why it never will again, an invariant of the job row;
* `JobStep.spent`, `JobStep.holds_or_spent` — what one step does to a fence;
* `fence_safety` — the three guarantees of the fence.
-/

variable {δ : Type}

/-- Some run accepts the fence. -/
def FenceHolds (db : Db δ) (fence : RunStageJobFence) : Prop :=
  ∃ runId, FenceValid db runId fence

/-- The attempt of the fence is over: a later one began, or it has ended, or its lease has run
    out. -/
def RunStageJobFence.Spent (fence : RunStageJobFence) (job : JobRow) (now : ℕ) : Prop :=
  fence.attempt < job.attempts ∨ fence.attempt = job.attempts ∧
    (job.status ∉ [.claimed, .running] ∨ ¬ job.leaseCurrent now)

/-- The fence of a database is spent. -/
def FenceSpent (db : Db δ) (fence : RunStageJobFence) : Prop :=
  ∃ job, db.jobs[fence.jobId]? = some job ∧ fence.Spent job db.now

/-- The stage row and the fence of a fenced call. -/
def Op.fencedCall : Op δ → Option (ℕ × RunStageJobFence)
  | .startRunStage runStageId fence => some (runStageId, fence)
  | .recordRunStageProviderAttempt runStageId fence _ => some (runStageId, fence)
  | .commitRunStage runStageId fence _ _ _ => some (runStageId, fence)
  | .blockRunStage runStageId fence _ _ => some (runStageId, fence)
  | .setResearchRunBoundary runStageId fence _ _ => some (runStageId, fence)
  | .failRunStage runStageId fence _ _ => some (runStageId, fence)
  | .queueRunStage runStageId fence _ _ => some (runStageId, fence)
  | _ => none

section
variable {db db' : Db δ} {op : Op δ} {i now' : ℕ} {job job' : JobRow} {fence : RunStageJobFence}

/-! ### One job -/

/-- A lease that has run out stays so. -/
theorem leaseCurrent_mono {now : ℕ} (hnow : now ≤ now') (h : job.leaseCurrent now') :
    job.leaseCurrent now := by
  unfold JobRow.leaseCurrent at h ⊢
  cases hexp : job.leaseExpiresAt with
  | none => simp [hexp] at h
  | some expiry =>
    simp only [hexp, Option.any_some, decide_eq_true_eq] at h ⊢
    omega

theorem fenceHolds_iff : FenceHolds db fence ↔
    ∃ job ∈ db.jobs[fence.jobId]?, ∃ runId ∈ job.runId, job.matchesFence db.now runId fence := by
  simp only [FenceHolds, fenceValid_iff, matchesFence_iff, Option.mem_def]
  constructor
  · rintro ⟨runId, job, hjob, hmatch⟩
    exact ⟨job, hjob, runId, hmatch.1, hmatch⟩
  · rintro ⟨job, hjob, runId, _, hmatch⟩
    exact ⟨runId, job, hjob, hmatch⟩

instance : Decidable (FenceHolds db fence) := decidable_of_iff' _ fenceHolds_iff

/-- A spent fence is not valid. -/
theorem not_fenceHolds_of_spent (h : FenceSpent db fence) : ¬ FenceHolds db fence := by
  rintro ⟨runId, hvalid⟩
  obtain ⟨job, hjob, hspent⟩ := h
  obtain ⟨job', hjob', hmatch⟩ := fenceValid_iff.mp hvalid
  obtain rfl : job = job' := Option.some.inj (hjob.symm.trans hjob')
  obtain ⟨_, _, hattempt, _, hstatus, hlease⟩ := matchesFence_iff.mp hmatch
  obtain hlt | ⟨_, hended | hexpired⟩ := hspent
  · omega
  · simp [hstatus] at hended
  · exact hexpired hlease

/-- A job accepts one fence at a time. -/
theorem fenceHolds_unique {fence' : RunStageJobFence} (h : FenceHolds db fence)
    (h' : FenceHolds db fence') (hjobId : fence.jobId = fence'.jobId) : fence = fence' := by
  obtain ⟨runId, hvalid⟩ := h
  obtain ⟨runId', hvalid'⟩ := h'
  obtain ⟨job, hjob, hmatch⟩ := fenceValid_iff.mp hvalid
  obtain ⟨job', hjob', hmatch'⟩ := fenceValid_iff.mp hvalid'
  obtain rfl : job = job' := Option.some.inj (hjob.symm.trans (hjobId ▸ hjob'))
  obtain ⟨_, hstage, hattempt, howner, _⟩ := matchesFence_iff.mp hmatch
  obtain ⟨_, hstage', hattempt', howner', _⟩ := matchesFence_iff.mp hmatch'
  cases fence
  cases fence'
  simp_all

/-- No cancellation and no recovery leaves a job executing. -/
theorem not_executing_target (status : JobStatus) :
    cancellationTarget status ∉ [.claimed, .running] := by
  obtain ⟨h, _⟩ | ⟨h, _⟩ := cancellationTarget_cases status
  all_goals rw [h]; decide

theorem not_executing_recovered (job : JobRow) : recoveredStatus job ∉ [.claimed, .running] := by
  obtain ⟨h, _⟩ | ⟨h, _⟩ | ⟨h, _⟩ := recoveredStatus_cases job
  all_goals rw [h]; decide

/-- **The step lemma.**  No step of its job revives a spent fence. -/
theorem JobStep.spent (h : JobStep db op i job job') (hnow : db.now ≤ now')
    (hspent : fence.Spent job db.now) : fence.Spent job' now' := by
  obtain hlt | ⟨heq, hended⟩ := hspent
  · refine .inl (lt_of_lt_of_le hlt ?_)
    cases h <;> first | exact le_rfl | exact Nat.le_succ _
  -- the lease a worker call needs is current, so only a job that has ended is left
  have hstatus : ∀ {workerId}, job.OwnedBy workerId db.now → job.status ∉ [.claimed, .running] :=
    fun howned => hended.resolve_right (not_not_intro howned.2)
  cases h with
  | keep =>
    refine .inr ⟨heq, hended.imp id fun hexpired hlease => hexpired ?_⟩
    exact leaseCurrent_mono hnow hlease
  | claim _ _ _ => exact .inl (heq ▸ Nat.lt_succ_self _)
  | start howned hclaimed => exact absurd (by simp [hclaimed]) (hstatus howned)
  | heartbeat howned _ => exact .inr ⟨heq, .inl (hstatus howned)⟩
  | succeed _ _ => exact .inr ⟨heq, .inl (by simp [JobRow.succeed])⟩
  | failAttempt target _ howned hactive _ => exact absurd hactive (hstatus howned)
  | requestCancellation _ => exact .inr ⟨heq, .inl (not_executing_target _)⟩
  | cancelWithRun _ _ => exact .inr ⟨heq, .inl (not_executing_target _)⟩
  | acknowledge _ _ => exact .inr ⟨heq, .inl (by simp [JobRow.acknowledgeCancellation])⟩
  | release howned hactive => exact absurd hactive (hstatus howned)
  | releaseCancelled _ _ => exact .inr ⟨heq, .inl (by simp [JobRow.release])⟩
  | expire _ _ _ _ => exact .inr ⟨heq, .inl (not_executing_recovered job)⟩
  | manualRetry _ _ => exact .inr ⟨heq, .inl (by simp [JobRow.manualRetry])⟩
  | checkpoint hrunning =>
    refine .inr ⟨heq, .inr fun hlease => ?_⟩
    obtain hended | hexpired := hended
    · simp [hrunning] at hended
    · exact hexpired (leaseCurrent_mono hnow hlease)

/-- A running attempt keeps its fence while its lease is current. -/
theorem SameLinks.matches_or_spent {runId : ℕ} (hlinks : SameLinks job job')
    (hmatch : job.matchesFence db.now runId fence) (hattempts : job'.attempts = job.attempts)
    (howner : job'.leaseOwner = job.leaseOwner) (hstatus : job'.status = .running) :
    job'.matchesFence now' runId fence ∨ fence.Spent job' now' := by
  obtain ⟨hrun, hstage, hattempt, hworker, _, _⟩ := matchesFence_iff.mp hmatch
  by_cases hlease : job'.leaseCurrent now'
  · exact .inl (matchesFence_iff.mpr ⟨hlinks.runId.trans hrun, hlinks.runStageId.trans hstage,
      hattempts.trans hattempt, howner.trans hworker, hstatus, hlease⟩)
  · exact .inr (.inr ⟨(hattempts.trans hattempt).symm, .inr hlease⟩)

/-- A step of its job leaves a valid fence valid or spends it. -/
theorem JobStep.matches_or_spent {runId : ℕ} (h : JobStep db op i job job')
    (hmatch : job.matchesFence db.now runId fence) :
    job'.matchesFence now' runId fence ∨ fence.Spent job' now' := by
  have hlinks := h.sameLinks
  obtain ⟨_, _, hattempt, _, hstatus, _⟩ := matchesFence_iff.mp hmatch
  have hended : job'.attempts = job.attempts → job'.status ∉ [.claimed, .running] →
      fence.Spent job' now' := fun heq hnot => .inr ⟨(heq.trans hattempt).symm, .inl hnot⟩
  cases h with
  | keep => exact hlinks.matches_or_spent hmatch rfl rfl hstatus
  | claim _ hwaiting _ => simp [hstatus, JobStatus.isWaiting] at hwaiting
  | start _ hclaimed => simp [hstatus] at hclaimed
  | heartbeat _ _ => exact hlinks.matches_or_spent hmatch rfl rfl hstatus
  | succeed _ _ => exact .inr (hended rfl (by simp [JobRow.succeed]))
  | failAttempt target _ _ _ hgoal =>
    refine .inr (hended rfl ?_)
    obtain ⟨rfl, _⟩ | hdead := hgoal
    · simp [JobRow.failAttempt]
    · obtain rfl | rfl := by simpa using hdead
      all_goals simp [JobRow.failAttempt]
  | requestCancellation _ => exact .inr (hended rfl (not_executing_target _))
  | cancelWithRun _ _ => exact .inr (hended rfl (not_executing_target _))
  | acknowledge _ _ => exact .inr (hended rfl (by simp [JobRow.acknowledgeCancellation]))
  | release _ _ => exact .inr (hended rfl (by simp [JobRow.release]))
  | releaseCancelled _ _ => exact .inr (hended rfl (by simp [JobRow.release]))
  | expire _ _ _ _ => exact .inr (hended rfl (not_executing_recovered job))
  | manualRetry _ hdead => simp [hstatus] at hdead
  | checkpoint _ => exact hlinks.matches_or_spent hmatch rfl rfl hstatus

/-! ### Runs of the system -/

variable [DomainStore δ]

theorem transact_spent (op : Op δ) (h : FenceSpent db fence) : FenceSpent (transact db op) fence := by
  cases hrun : perform db op with
  | error e => rwa [transact_of_error hrun]
  | ok db' =>
    rw [transact_of_ok hrun]
    obtain ⟨job, hjob, hspent⟩ := h
    obtain ⟨job', hjob', hstep⟩ := (perform_jobs hrun).old _ _ hjob
    exact ⟨job', hjob', hstep.spent (perform_now hrun) hspent⟩

theorem transact_holds_or_spent (op : Op δ) (h : FenceHolds db fence) :
    FenceHolds (transact db op) fence ∨ FenceSpent (transact db op) fence := by
  cases hrun : perform db op with
  | error e =>
    rw [transact_of_error hrun]
    exact .inl h
  | ok db' =>
    rw [transact_of_ok hrun]
    obtain ⟨runId, hvalid⟩ := h
    obtain ⟨job, hjob, hmatch⟩ := fenceValid_iff.mp hvalid
    obtain ⟨job', hjob', hstep⟩ := (perform_jobs hrun).old _ _ hjob
    obtain hmatch' | hspent := hstep.matches_or_spent hmatch
    · exact .inl ⟨runId, fenceValid_iff.mpr ⟨job', hjob', hmatch'⟩⟩
    · exact .inr ⟨job', hjob', hspent⟩

/-- Along a run a valid fence stays valid until it is spent. -/
theorem Reach.holds_or_spent {ok : Db δ → Op δ → Prop} (h : Reach transact ok db db')
    (hvalid : FenceHolds db fence) : FenceHolds db' fence ∨ FenceSpent db' fence := by
  refine h.invariant (I := fun db => FenceHolds db fence ∨ FenceSpent db fence) (.inl hvalid) ?_
  rintro u op (hold | hspent) _
  · exact transact_holds_or_spent op hold
  · exact .inr (transact_spent op hspent)

theorem Reach.spent {ok : Db δ → Op δ → Prop} (h : Reach transact ok db db')
    (hspent : FenceSpent db fence) : FenceSpent db' fence :=
  h.invariant (I := fun db => FenceSpent db fence) hspent fun _ op hu _ => transact_spent op hu

/-- The fence guards every fenced call. -/
theorem perform_fencedCall {op : Op δ} {runStageId : ℕ}
    (hcall : op.fencedCall = some (runStageId, fence)) (hrun : perform db op = .ok db') :
    ∃ stage, db.stages[runStageId]? = some stage ∧ FenceValid db stage.runId fence := by
  cases op <;> simp only [Op.fencedCall, Option.some.injEq, Prod.mk.injEq, reduceCtorEq] at hcall
  case startRunStage =>
    obtain ⟨rfl, rfl⟩ := hcall
    obtain ⟨_, stage, hfenced, _⟩ := startRunStage_ok hrun
    exact ⟨stage, hfenced.stageRow, hfenced.valid⟩
  case recordRunStageProviderAttempt =>
    obtain ⟨rfl, rfl⟩ := hcall
    obtain ⟨_, stage, hfenced, _⟩ := recordRunStageProviderAttempt_ok hrun
    exact ⟨stage, hfenced.stageRow, hfenced.valid⟩
  case queueRunStage =>
    obtain ⟨rfl, rfl⟩ := hcall
    obtain ⟨r, hr, _⟩ := map_eq_ok.mp hrun
    obtain ⟨_, stage, hfenced, _⟩ := queueRunStage_ok hr
    exact ⟨stage, hfenced.stageRow, hfenced.valid⟩
  case commitRunStage =>
    obtain ⟨rfl, rfl⟩ := hcall
    obtain ⟨r, hr, _⟩ := map_eq_ok.mp hrun
    obtain ⟨_, stage, hfenced, _⟩ := commitRunStage_ok hr
    exact ⟨stage, hfenced.stageRow, hfenced.valid⟩
  case blockRunStage =>
    obtain ⟨rfl, rfl⟩ := hcall
    obtain ⟨_, stage, hfenced, _⟩ := blockRunStage_ok hrun
    exact ⟨stage, hfenced.stageRow, hfenced.valid⟩
  case setResearchRunBoundary =>
    obtain ⟨rfl, rfl⟩ := hcall
    obtain ⟨_, stage, hfenced, _⟩ := setResearchRunBoundary_ok hrun
    exact ⟨stage, hfenced.stageRow, hfenced.valid⟩
  case failRunStage =>
    obtain ⟨rfl, rfl⟩ := hcall
    obtain ⟨_, stage, hfenced, _⟩ := failRunStage_ok hrun
    exact ⟨stage, hfenced.stageRow, hfenced.valid⟩

theorem transact_of_not_fenceValid {op : Op δ} {runStageId : ℕ}
    (hcall : op.fencedCall = some (runStageId, fence))
    (hinvalid : ∀ stage ∈ db.stages[runStageId]?, ¬ FenceValid db stage.runId fence) :
    transact db op = db := by
  cases hrun : perform db op with
  | error e => exact transact_of_error hrun
  | ok db' =>
    obtain ⟨stage, hstage, hvalid⟩ := perform_fencedCall hcall hrun
    exact absurd hvalid (hinvalid stage hstage)

end

/-! ### An expired attempt -/

/-- Attempt 1 of a run's first job is started, its lease runs out, and attempt 2 is started. -/
def reclaimedStage : List (Op Unit) :=
  [.createResearchRun { projectId := 0, mode := .orchestrated, idempotencyKey := 0 },
    .claimJobs { workerId := 0, leaseDurationMs := 1000 } [],
    .startJob 0 0 none,
    .tick 1000,
    .recoverExpiredJob 0 none 0,
    .tick 60000,
    .claimJobs { workerId := 1, leaseDurationMs := 1000 } [],
    .startJob 0 1 none]

/-- The database after the first `n` of these operations. -/
def reclaimedDb (n : ℕ) : Db Unit :=
  (reclaimedStage.take n).foldl transact (Db.initial [approvedProject] ())

end ResearchWorkbench
