import ResearchWorkbench.Pipeline.LiveJobs

namespace ResearchWorkbench

/-!
# Failures of old jobs

A stage row keeps its id when it is re-queued in place, so the job that failed may not be the one
its stage is queued for.  `reconcileLinkedJobFailure` looks at the status of the row only.

* `DiesLinked` — `failJob` or `recoverExpiredJob` moves a linked job to `FAILED` or `DEAD_LETTER`;
* `DiesLinked.failsStage_iff` — the stage fails exactly if it is `QUEUED` or `RUNNING`;
* `failure_spares_newer_work_iff` — so newer work is spared exactly if it is neither, or if there
  is no newer work;
* `old_failure_kills_resumed_stage` — a blocked stage that is resumed fails with its old job.
-/

variable {δ : Type}

/-- The job that an operation may move to `FAILED` or `DEAD_LETTER`. -/
def Op.failingJob : Op δ → Option ℕ
  | .failJob input => some input.jobId
  | .recoverExpiredJob jobId _ _ => some jobId
  | _ => none

/-- `op` moves the job `j`, which is linked to the stage row `i` of a run, to `FAILED` or
    `DEAD_LETTER`. -/
structure DiesLinked (db db' : Db δ) (op : Op δ) (j i : ℕ) : Prop where
  failing : op.failingJob = some j
  moved : ∃ job job' : JobRow, db.jobs[j]? = some job ∧ db'.jobs[j]? = some job' ∧
    job.status ∉ [.failed, .deadLetter] ∧ job'.status ∈ [.failed, .deadLetter] ∧
    job.runId.isSome ∧ job.runStageId = some i

/-- The stage row `i` is set to `FAILED`, or its run is. -/
def FailsStage (db db' : Db δ) (i : ℕ) : Prop :=
  ∃ stage stage' : RunStageRow, db.stages[i]? = some stage ∧ db'.stages[i]? = some stage' ∧
    (stage.status ≠ .failed ∧ stage'.status = .failed ∨
      ∃ run run' : ResearchRunRow, db.runs[stage.runId]? = some run ∧
        db'.runs[stage.runId]? = some run' ∧ run.status ≠ .failed ∧ run'.status = .failed)

/-- A job other than `j` that is not terminal refers to the stage row `i`. -/
def HasNewerWork (db : Db δ) (j i : ℕ) : Prop :=
  ∃ (k : ℕ) (job : JobRow), db.jobs[k]? = some job ∧ k ≠ j ∧ job.status.isLive ∧
    job.runStageId = some i

/-- The stage row `i` is `QUEUED` or `RUNNING`. -/
def StageExecutes (db : Db δ) (i : ℕ) : Prop :=
  ∃ stage ∈ db.stages[i]?, stage.status ∈ [.queued, .running]

section
variable {db db' : Db δ} {op : Op δ} {i j : ℕ}

/-- What the `UPDATE`s of `reconcileLinkedJobFailure` do to the linked stage. -/
theorem failLinkedStage_failsStage_iff {job : JobRow} {l : LinkedResearchState}
    (hl : Linked db job l) (hrow : job.runStageId = some i) (e : JobErrorClass) (m : String) :
    FailsStage db (failLinkedStage db l e m) i ↔ StageExecutes db i := by
  obtain ⟨⟨i', stage⟩, hstage, rfl⟩ := Option.map_eq_some_iff.mp (hl.jobStage.symm.trans hrow)
  obtain ⟨hi, hrun⟩ := hl.stageRow i' stage hstage
  unfold failLinkedStage
  rw [hstage]
  dsimp only
  by_cases hstatus : stage.status = .queued ∨ stage.status = .running
  · have hable : canTransitionRunStage stage.status .failed := by
      rcases hstatus with h | h <;> rw [h] <;> rfl
    refine iff_of_true ⟨stage, stage.fail db.now e m, hi, ?_, .inl ⟨?_, rfl⟩⟩
      ⟨stage, hi, by simpa using hstatus⟩
    · rw [if_pos ⟨hstatus, hable⟩]
      split <;> exact getElem?_modify_eq hi
    · rcases hstatus with h | h <;> rw [h] <;> decide
  · rw [if_neg (by tauto)]
    refine iff_of_false ?_ ?_
    · rintro ⟨s, s', hs, hs', ⟨hne, heq⟩ | ⟨run, run', hr, hr', hne, heq⟩⟩
      · obtain rfl : s = s' := Option.some.inj (hs.symm.trans hs')
        exact hne heq
      · obtain rfl : run = run' := Option.some.inj (hr.symm.trans hr')
        exact hne heq
    · rintro ⟨s, hs, hexecutes⟩
      obtain rfl : stage = s := Option.some.inj (hi.symm.trans hs)
      exact hstatus (by simpa using hexecutes)

variable [DomainStore δ]

/-- A job that dies ends its attempt, and then its stage is reconciled. -/
theorem DiesLinked.reconciled (h : DiesLinked db db' op j i) (hrun : perform db op = .ok db') :
    ∃ (job job' : JobRow) (f : JobAttemptRow → JobAttemptRow) (l : LinkedResearchState)
      (e : JobErrorClass) (m : String), db.jobs[j]? = some job ∧ job.status.isLive ∧
      job.runStageId = some i ∧ job'.runStageId = some i ∧
      Linked (db.settleAttempt j job job' f) job' l ∧
      db' = failLinkedStage (db.settleAttempt j job job' f) l e m := by
  obtain ⟨hop, job, job', hjob, hjob', hlive, hdead, hrunId, hrow⟩ := h
  -- the stages of a job that is reconciled are those its row is linked to
  have hfail {f : JobAttemptRow → JobAttemptRow} {job₁ : JobRow} {e : JobErrorClass} {m : String}
      (hrec : reconcileLinkedJobFailure (db.settleAttempt j job job₁ f) job₁ e m = .ok db')
      (hsame : SameLinks job job₁) :
      ∃ (job' : JobRow) (f : JobAttemptRow → JobAttemptRow) (l : LinkedResearchState)
        (e : JobErrorClass) (m : String), job'.runStageId = some i ∧
        Linked (db.settleAttempt j job job' f) job' l ∧
        db' = failLinkedStage (db.settleAttempt j job job' f) l e m := by
    rcases reconcileLinkedJobFailure_ok hrec with ⟨hnone, _⟩ | ⟨l, hl, heq⟩
    · rw [hsame.runId] at hnone
      rw [hnone] at hrunId
      cases hrunId
    · exact ⟨job₁, f, l, e, m, hsame.runStageId.trans hrow, hl, heq⟩
  cases op with
  | failJob input =>
    obtain rfl : input.jobId = j := Option.some.inj hop
    obtain ⟨job₀, target, delay, hjob₀, _, hstatus, ⟨rfl, _, rfl⟩ | ⟨_, hrec⟩⟩ := failJob_ok hrun
    · obtain rfl : job = job₀ := Option.some.inj (hjob.symm.trans hjob₀)
      rw [Db.settleAttempt_jobs, getElem?_modify_eq hjob] at hjob'
      obtain rfl := Option.some.inj hjob'
      simp [JobRow.failAttempt] at hdead
    · obtain rfl : job = job₀ := Option.some.inj (hjob.symm.trans hjob₀)
      obtain ⟨job₁, f, l, e, m, hfailed⟩ := hfail hrec ⟨rfl, rfl, rfl, rfl, rfl, rfl⟩
      have hactive := isActive_of_executing hstatus
      exact ⟨job, job₁, f, l, e, m, hjob, (isLive_iff _).mpr (.inl hactive), hrow, hfailed⟩
  | recoverExpiredJob jobId runIds random =>
    obtain rfl : jobId = j := Option.some.inj hop
    rcases recoverExpiredJob_ok hrun with ⟨rfl, _⟩ | ⟨job₀, delay, hjob₀, _, _, hactive, h⟩
    · obtain rfl : job = job' := Option.some.inj (hjob.symm.trans hjob')
      exact absurd hdead hlive
    obtain rfl : job = job₀ := Option.some.inj (hjob.symm.trans hjob₀)
    rcases h with ⟨_, hrec⟩ | ⟨htarget, hrec⟩ | ⟨htarget, rfl⟩
    · obtain ⟨job₁, f, l, e, m, hfailed⟩ := hfail hrec ⟨rfl, rfl, rfl, rfl, rfl, rfl⟩
      exact ⟨job, job₁, f, l, e, m, hjob, (isLive_iff _).mpr (.inl hactive), hrow, hfailed⟩
    · rw [(reconcileLinkedJobCancellation_runsOnly hrec).jobs, Db.settleAttempt_jobs,
        getElem?_modify_eq hjob] at hjob'
      obtain rfl := Option.some.inj hjob'
      simp [JobRow.expire, htarget] at hdead
    · rw [Db.settleAttempt_jobs, getElem?_modify_eq hjob] at hjob'
      obtain rfl := Option.some.inj hjob'
      simp [JobRow.expire, htarget] at hdead
  | _ => cases hop

/-- The stage of a job that dies fails exactly if it is `QUEUED` or `RUNNING`. -/
theorem DiesLinked.failsStage_iff (h : DiesLinked db db' op j i) (hrun : perform db op = .ok db') :
    FailsStage db db' i ↔ StageExecutes db i := by
  obtain ⟨job, job', f, l, e, m, _, _, _, hrow, hl, rfl⟩ := h.reconciled hrun
  exact failLinkedStage_failsStage_iff hl hrow e m

/-- The other jobs of its stage stay. -/
theorem DiesLinked.hasNewerWork_iff (h : DiesLinked db db' op j i) (hrun : perform db op = .ok db') :
    HasNewerWork db' j i ↔ HasNewerWork db j i := by
  obtain ⟨job, job', f, l, e, m, _, _, _, _, _, rfl⟩ := h.reconciled hrun
  have hjobs {k : ℕ} (hk : k ≠ j) :
      (failLinkedStage (db.settleAttempt j job job' f) l e m).jobs[k]? = db.jobs[k]? := by
    rw [(failLinkedStage_runsOnly _ l e m).jobs, Db.settleAttempt_jobs,
      getElem?_modify_ne (Ne.symm hk)]
  constructor
  · rintro ⟨k, other, hother, hk, hlive, hrow⟩
    exact ⟨k, other, (hjobs hk).symm.trans hother, hk, hlive, hrow⟩
  · rintro ⟨k, other, hother, hk, hlive, hrow⟩
    exact ⟨k, other, (hjobs hk).trans hother, hk, hlive, hrow⟩

/-- **Failure of an old job.**  When a linked job dies, its stage and run fail only without newer
    work exactly if the stage is neither `QUEUED` nor `RUNNING`, or has no newer work. -/
theorem failure_spares_newer_work_iff (h : DiesLinked db db' op j i)
    (hrun : perform db op = .ok db') :
    (FailsStage db db' i → ¬ HasNewerWork db' j i) ↔ (StageExecutes db i → ¬ HasNewerWork db j i) := by
  rw [h.failsStage_iff hrun, h.hasNewerWork_iff hrun]

end

/-! ### A blocked stage that is resumed -/

/-- The blocked job of the first stage still runs. -/
def blockedDb : Db Unit :=
  (resumedBlocked.take 5).foldl transact (Db.initial [approvedProject] ())

/-- As long as the run is not resumed, the failure of the job leaves the stage `BLOCKED`. -/
theorem failure_spares_newer_work_blocked :
    ∃ db', perform blockedDb (.failJob ⟨0, 0, .nonRetryableBudget, "", none, 0⟩) = .ok db' ∧
      (FailsStage blockedDb db' 0 → ¬ HasNewerWork db' 0 0) := by
  have hdies : ∃ db' ∈ (perform blockedDb
        (.failJob ⟨0, 0, .nonRetryableBudget, "", none, 0⟩)).toOption,
      (∃ job ∈ blockedDb.jobs[0]?, ∃ job' ∈ db'.jobs[0]?, job.status ∉ [.failed, .deadLetter] ∧
        job'.status ∈ [.failed, .deadLetter] ∧ job.runId.isSome ∧ job.runStageId = some 0) ∧
      ∀ stage ∈ blockedDb.stages[0]?, stage.status ∉ [.queued, .running] := by
    decide +kernel
  obtain ⟨db', hrun, ⟨job, hjob, job', hjob', hmoved⟩, hblocked⟩ := hdies
  have hok := toOption_eq_some.mp hrun
  refine ⟨db', hok, (failure_spares_newer_work_iff ⟨rfl, job, job', hjob, hjob', hmoved⟩ hok).mpr ?_⟩
  rintro ⟨stage, hstage, hexecutes⟩
  exact absurd hexecutes (hblocked stage hstage)

/-- The blocked job of the first stage still runs, and the resumed run has queued the stage anew. -/
def resumedDb : Db Unit := resumedBlocked.foldl transact (Db.initial [approvedProject] ())

theorem resumedDb_reachable : resumedDb.Reachable :=
  Db.reachable_ofActions (Db.initial_initial _ ()) _

/-- The job that blocked its stage fails: the stage that is queued for the new job fails with it,
    and so does the run. -/
theorem old_failure_kills_resumed_stage :
    ¬ ∀ (db db' : Db Unit) (op : Op Unit) (j i : ℕ), db.Reachable → DiesLinked db db' op j i →
      perform db op = .ok db' → FailsStage db db' i → ¬ HasNewerWork db' j i := by
  intro hall
  let op : Op Unit := .failJob ⟨0, 0, .nonRetryableBudget, "", none, 0⟩
  have hdies : ∃ db' ∈ (perform resumedDb op).toOption,
      (∃ job ∈ resumedDb.jobs[0]?, ∃ job' ∈ db'.jobs[0]?, job.status ∉ [.failed, .deadLetter] ∧
        job'.status ∈ [.failed, .deadLetter] ∧ job.runId.isSome ∧ job.runStageId = some 0) ∧
      (∃ stage ∈ resumedDb.stages[0]?, ∃ stage' ∈ db'.stages[0]?, stage.status ≠ .failed ∧
        stage'.status = .failed) ∧
      ∃ job ∈ db'.jobs[1]?, job.status.isLive ∧ job.runStageId = some 0 := by
    decide +kernel
  obtain ⟨db', hrun, ⟨job, hjob, job', hjob', hmoved⟩, ⟨stage, hi, stage', hi', hfails⟩, newer,
    hnewer, hlive, hrow⟩ := hdies
  exact hall resumedDb db' op 0 0 resumedDb_reachable ⟨rfl, job, job', hjob, hjob', hmoved⟩
    (toOption_eq_some.mp hrun) ⟨stage, stage', hi, hi', .inl hfails⟩
    ⟨1, newer, hnewer, by decide, hlive, hrow⟩

end ResearchWorkbench
