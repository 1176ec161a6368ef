import ResearchWorkbench.Pipeline.Generations
import ResearchWorkbench.System.AttemptSteps
import ResearchWorkbench.System.Links

namespace ResearchWorkbench

/-!
# Histories

What holds whatever operations were carried out, one after the other.

* `StatusesFollow`, `statuses_follow_tables` — statuses move as the transition tables say;
* `FinishedJobsStay`, `finished_jobs_stay` — a finished job is not written to any more;
* `Consistent`, `history_consistent` — rows refer to rows, keys and generations are unique, and no run
  has asked for more searches than its budget allows;
* `Stands`, `submissions_stand` — a submission is answered with its job ever after;
* `ClaimedInOrder`, `claims_in_order` — no job is passed over by a claim.
-/

variable {δ : Type} [DomainStore δ]

/-- The database after operations. -/
def history (projects : List ProjectRow) (domain : δ) (ops : List (Op δ)) : Db δ :=
  ops.foldl transact (Db.initial projects domain)

theorem history_reachable (projects : List ProjectRow) (domain : δ) (ops : List (Op δ)) :
    (history projects domain ops).Reachable :=
  Db.reachable_ofActions (Db.initial_initial projects domain) ops

/-! ### Statuses -/

/-- The status stays, or makes a transition of the table. -/
def Moves {σ : Type} (allowed : σ → σ → Bool) (a b : σ) : Prop := a = b ∨ allowed a b = true

/-- The status of a run stays, makes a transition of its table, or makes two of them: a run whose
    last active job is cancelled passes through `CANCELLING`. -/
def RunMoves (a b : ResearchRunStatus) : Prop :=
  Moves canTransitionResearchRun a b ∨
    canTransitionResearchRun a .cancelling = true ∧ b = .cancelled

/-- No job, no stage row and no run goes away, their statuses move as the tables say, and new ones
    have an initial status. -/
structure StatusesFollow (db db' : Db δ) : Prop where
  jobs : TableStep (fun _ job job' => Moves canTransitionJob job.status job'.status)
    (fun _ job => job.status = .queued) db.jobs db'.jobs
  stages : TableStep (fun _ stage stage' => Moves canTransitionRunStage stage.status stage'.status)
    (fun _ stage => stage.status = .pending ∨ stage.status = .queued) db.stages db'.stages
  runs : TableStep (fun _ run run' => RunMoves run.status run'.status)
    (fun _ run => run.status = .queued) db.runs db'.runs

section
variable {db db' : Db δ} {op : Op δ} {i : ℕ}

omit [DomainStore δ] in
theorem JobStep.moves {job job' : JobRow} (h : JobStep db op i job job') :
    Moves canTransitionJob job.status job'.status := by
  have hclaim : ∀ s : JobStatus, s.isWaiting → canTransitionJob s .claimed := by
    intro s
    cases s <;> decide
  have hactive : ∀ s : JobStatus, s.isActive → s ≠ .cancellationRequested →
      canTransitionJob s .retryWait ∧ canTransitionJob s .deadLetter := by
    intro s
    cases s <;> decide
  have hfail : ∀ s ∈ [JobStatus.claimed, .running], ∀ t ∈ [JobStatus.retryWait, .failed, .deadLetter],
      canTransitionJob s t := by decide
  have hcancel : ∀ s ∈ [JobStatus.queued, .retryWait, .claimed, .running],
      canTransitionJob s (cancellationTarget s) := by decide
  have hretry : ∀ s ∈ [JobStatus.failed, .deadLetter], canTransitionJob s .queued := by decide
  cases h with
  | keep => exact .inl rfl
  | claim _ hwaiting _ => exact .inr (hclaim _ hwaiting)
  | start _ hstatus => exact .inr (by rw [hstatus]; rfl)
  | heartbeat _ _ => exact .inl rfl
  | succeed _ hstatus => exact .inr (by rw [hstatus]; rfl)
  | failAttempt target _ _ hstatus hgoal =>
    refine .inr (hfail _ hstatus target ?_)
    rcases hgoal with ⟨rfl, _⟩ | hdead
    · exact List.mem_cons_self
    · exact List.mem_cons_of_mem _ hdead
  | requestCancellation hstatus => exact .inr (hcancel _ hstatus)
  | cancelWithRun _ hstatus => exact .inr (hcancel _ hstatus)
  | acknowledge _ hstatus => exact .inr (by rw [hstatus]; rfl)
  | release _ hstatus => exact .inr (hfail _ hstatus .retryWait List.mem_cons_self)
  | releaseCancelled _ hstatus => exact .inr (by rw [hstatus]; rfl)
  | expire _ _ _ hstatus =>
    refine .inr ?_
    show canTransitionJob job.status (recoveredStatus job)
    rcases recoveredStatus_cases job with ⟨h, hcancelled⟩ | ⟨h, hne, _⟩ | ⟨h, hne⟩
    · rw [h, hcancelled]
      rfl
    · rw [h]
      exact (hactive _ hstatus hne).1
    · rw [h]
      exact (hactive _ hstatus hne).2
  | manualRetry _ hstatus => exact .inr (hretry _ hstatus)
  | checkpoint _ => exact .inl rfl

omit [DomainStore δ] in
theorem StageStep.moves {stage stage' : RunStageRow} (h : StageStep db db' op i stage stage') :
    Moves canTransitionRunStage stage.status stage'.status := by
  have hmoves : ∀ (s t : RunStageStatus) (l : List RunStageStatus), s ∈ l →
      (∀ c ∈ l, c = t ∨ canTransitionRunStage c t = true) → Moves canTransitionRunStage s t :=
    fun s t l hs hl => hl s hs
  cases h with
  | keep => exact .inl rfl
  | start hstatus _ => exact hmoves _ .running _ hstatus (by decide)
  | record _ => exact .inl rfl
  | succeed hstatus _ _ => exact .inr (by rw [hstatus]; rfl)
  | fail _ _ hstatus => exact hmoves _ .failed _ hstatus (by decide)
  | block hstatus => exact hmoves _ .blocked _ hstatus (by decide)
  | cancel hopen => exact hmoves _ .cancelled _ (of_decide_eq_true hopen) (by decide)
  | cancelWithJob hopen => exact hmoves _ .cancelled _ (of_decide_eq_true hopen) (by decide)
  | requeue _ hstatus => exact hmoves _ .queued _ hstatus (by decide)
  | resume _ hstatus => exact hmoves _ .queued _ hstatus (by decide)
  | markStale _ _ _ _ _ _ _ hstatus => exact .inr (by rw [hstatus]; rfl)

/-- A run that waits to be planned is of no history. -/
def ResearchRunStatus.IsStarted (status : ResearchRunStatus) : Prop :=
  status ≠ .created ∧ status ≠ .waitingForPlanApproval

omit [DomainStore δ] in
theorem RunStep.moves {run run' : ResearchRunRow} (h : RunStep db db' op i run run')
    (hstarted : run.status.IsStarted) : RunMoves run.status run'.status := by
  have hcancel : ∀ s : ResearchRunStatus, s.IsStarted →
      s ∉ [.cancelling, .cancelled, .completed, .failed] →
        canTransitionResearchRun s .cancelling ∧ canTransitionResearchRun s .cancelled := by
    intro s
    cases s <;> simp [ResearchRunStatus.IsStarted, canTransitionResearchRun,
      ResearchRunStatus.transitions]
  have hresume : ∀ s ∈ [ResearchRunStatus.cancelled, .failed, .paused, .blocked],
      canTransitionResearchRun s .queued := by decide
  cases h with
  | keep _ hstatus => exact .inl (.inl hstatus.symm)
  | record _ _ => exact .inl (.inl rfl)
  | countSearch => exact .inl (.inl rfl)
  | start _ hstatus =>
    have hqueued : ∀ s ∈ [ResearchRunStatus.queued, .running], s = .queued ∨ s = .running := by decide
    unfold ResearchRunRow.startStage
    rcases hqueued _ hstatus with h | h
    · refine .inl (.inr ?_)
      rw [if_pos h, h]
      rfl
    · refine .inl (.inl ?_)
      rw [if_neg (by rw [h]; decide)]
  | commit _ _ _ hable => exact .inl hable
  | boundary _ _ hable => exact .inl (.inr hable)
  | block _ hable => exact .inl hable
  | blockForSearch _ hable => exact .inl (.inr hable)
  | fail _ hable => exact .inl hable
  | failWithJob _ _ _ _ _ hable => exact .inl (.inr hable)
  | cancelWithJob _ _ _ _ hable _ hstatus =>
    rw [hstatus, cancelledWithJob]
    rcases Bool.or_eq_true_iff.mp hable with h | h
    · rw [of_decide_eq_true h]
      split
      · exact .inl (.inr rfl)
      · exact .inl (.inl rfl)
    · split
      · exact .inr ⟨h, rfl⟩
      · exact .inl (.inr h)
  | cancel target hstatus htarget _ _ =>
    rcases htarget with rfl | rfl
    · exact .inl (.inr (hcancel _ hstarted hstatus).1)
    · exact .inl (.inr (hcancel _ hstarted hstatus).2)
  | finalize hstatus _ => exact .inl (.inr (by rw [hstatus]; rfl))
  | resume _ hstatus => exact .inl (.inr (hresume _ hstatus))
  | restart _ _ _ hable => exact .inl hable
  | approve hstatus => exact .inl (.inr (by rw [hstatus]; rfl))

/-- A run that has started stays so. -/
theorem RunMoves.isStarted {a b : ResearchRunStatus} (h : RunMoves a b) (ha : a.IsStarted) :
    b.IsStarted := by
  have hmoves : ∀ a b : ResearchRunStatus, canTransitionResearchRun a b = true → a.IsStarted →
      b.IsStarted := by
    intro a b
    cases a <;> cases b <;> simp [canTransitionResearchRun, ResearchRunStatus.transitions,
      ResearchRunStatus.IsStarted]
  rcases h with (rfl | h) | ⟨_, rfl⟩
  · exact ha
  · exact hmoves a b h ha
  · exact ⟨by decide, by decide⟩

theorem perform_statusesFollow (h : perform db op = .ok db')
    (hstarted : ∀ run ∈ db.runs, run.status.IsStarted) : StatusesFollow db db' where
  jobs := (perform_jobs h).mono (fun _ _ _ _ hstep => hstep.moves) fun _ _ _ hnew => by
    rcases hnew with ⟨_, input, _, _, _, _, rfl⟩
    rfl
  stages := (perform_stages h).mono (fun _ _ _ _ hstep => hstep.moves) fun _ _ _ hnew => by
    cases hnew with
    | create input initial hmem =>
      rcases List.mem_map.mp hmem with ⟨stage, _, rfl⟩
      split
      · exact .inr rfl
      · exact .inl rfl
    | next _ _ _ _ => exact .inr rfl
    | restart _ _ _ _ => exact .inr rfl
  runs := (perform_runs h).mono
    (fun _ _ _ hrun hstep => hstep.moves (hstarted _ (List.mem_of_getElem? hrun))) fun _ _ _ hnew => by
    cases hnew
    rfl

/-- In a history, every run has started. -/
theorem started_of_history (projects : List ProjectRow) (domain : δ) (ops : List (Op δ)) :
    ∀ run ∈ (history projects domain ops).runs, run.status.IsStarted := by
  refine (history_reachable projects domain ops).invariant
    (I := fun db => ∀ run ∈ db.runs, run.status.IsStarted) (fun db h₀ => ?_) ?_
  · rw [h₀.runs]
    exact fun _ hmem => absurd hmem List.not_mem_nil
  · intro db op db' hI _ h run hmem
    rcases List.mem_iff_getElem?.mp hmem with ⟨i, hi⟩
    rcases (perform_statusesFollow h hI).runs.cases hi with ⟨old, hold, hmoves⟩ | ⟨_, hqueued⟩
    · exact hmoves.isStarted (hI _ (List.mem_of_getElem? hold))
    · rw [hqueued]
      exact ⟨by decide, by decide⟩

end

/-- **The state machines.**  After every history, every operation moves the statuses of jobs, stage
    rows and runs as their transition tables say. -/
theorem statuses_follow_tables (projects : List ProjectRow) (domain : δ) (ops : List (Op δ))
    (op : Op δ) :
    StatusesFollow (history projects domain ops) (transact (history projects domain ops) op) := by
  cases h : perform (history projects domain ops) op with
  | ok db' =>
    rw [transact_of_ok h]
    exact perform_statusesFollow h (started_of_history projects domain ops)
  | error e =>
    rw [transact_of_error h]
    exact ⟨.refl (fun _ _ => .inl rfl) _, .refl (fun _ _ => .inl rfl) _,
      .refl (fun _ _ => .inl (.inl rfl)) _⟩

/-! ### Finished jobs -/

/-- The jobs that have succeeded or were cancelled are as they were. -/
def FinishedJobsStay (db db' : Db δ) : Prop :=
  ∀ (i : ℕ) (job : JobRow), db.jobs[i]? = some job → job.status ∈ [.succeeded, .cancelled] →
    db'.jobs[i]? = some job

omit [DomainStore δ] in
theorem JobStep.finished {db : Db δ} {op : Op δ} {i : ℕ} {job job' : JobRow}
    (h : JobStep db op i job job') (hfinished : job.status ∈ [.succeeded, .cancelled]) :
    job' = job := by
  have hnot : ∀ s ∈ [JobStatus.succeeded, .cancelled], s.isWaiting = false ∧ s.isActive = false ∧
      s ∉ [.queued, .retryWait, .claimed, .running] ∧ s ∉ [.claimed, .running] ∧
      s ∉ [.failed, .deadLetter] ∧ s ≠ .claimed ∧ s ≠ .running ∧ s ≠ .cancellationRequested := by
    decide
  rcases hnot _ hfinished with ⟨hw, ha, hq, he, hf, hc, hr, hx⟩
  cases h with
  | keep => rfl
  | claim _ hwaiting _ => exact absurd hwaiting (by rw [hw]; decide)
  | start _ hstatus => exact absurd hstatus hc
  | heartbeat _ hactive => exact absurd hactive (by rw [ha]; decide)
  | succeed _ hstatus => exact absurd hstatus hr
  | failAttempt _ _ _ hstatus _ => exact absurd hstatus he
  | requestCancellation hstatus => exact absurd hstatus hq
  | cancelWithRun _ hstatus => exact absurd hstatus hq
  | acknowledge _ hstatus => exact absurd hstatus hx
  | release _ hstatus => exact absurd hstatus he
  | releaseCancelled _ hstatus => exact absurd hstatus hx
  | expire _ _ _ hactive => exact absurd hactive (by rw [ha]; decide)
  | manualRetry _ hstatus => exact absurd hstatus hf
  | checkpoint hstatus => exact absurd hstatus hr

/-- **Finished jobs** are not written to any more, whatever is carried out. -/
theorem finished_jobs_stay (db : Db δ) (ops : List (Op δ)) :
    FinishedJobsStay db (ops.foldl transact db) := by
  intro i job hjob hfinished
  have hreach : Reach transact Always db (ops.foldl transact db) := .ofActions db ops
  refine hreach.invariant (I := fun db => db.jobs[i]? = some job) hjob fun db op hI _ => ?_
  cases h : perform db op with
  | error e =>
    rw [transact_of_error h]
    exact hI
  | ok db' =>
    rw [transact_of_ok h]
    rcases (perform_jobs h).old i job hI with ⟨job', hjob', hstep⟩
    rw [hjob', hstep.finished hfinished]

/-! ### Consistency -/

/-- No run has asked for more searches than its budget allows. -/
def SearchesWithin (db : Db δ) : Prop :=
  ∀ run ∈ db.runs, run.totalSearchRequests ≤ run.budget.maxSearchRequests

/-- What holds of the tables: jobs, stage rows, attempts and commits refer to rows that are there,
    a commit has the generation of its row, the generations of a stage are numbered without gaps and
    repetitions, no two jobs of a project have one idempotency key, and the searches of a run are
    within its budget. -/
structure Consistent (db : Db δ) : Prop where
  jobs : ∀ job ∈ db.jobs, WellLinked db job
  keys : ∀ (i j : ℕ) (job job' : JobRow), db.jobs[i]? = some job → db.jobs[j]? = some job' →
    job.projectId = job'.projectId → job.idempotencyKey = job'.idempotencyKey → i = j
  attempts : ∀ attempt ∈ db.jobAttempts, attempt.jobId < db.jobs.length
  stages : WellGenerated db.runs.length db.stages
  commits : ∀ commit ∈ db.commits, ∃ stage, db.stages[commit.runStageId]? = some stage ∧
    stage.generation = commit.generation
  searches : SearchesWithin db

section
variable {db db' : Db δ} {op : Op δ}

omit [DomainStore δ] in
theorem searchesWithin_updateRun (hdb : SearchesWithin db) {r : ℕ} {f : ResearchRunRow → ResearchRunRow}
    (hf : ∀ run, db.runs[r]? = some run →
      (f run).totalSearchRequests ≤ (f run).budget.maxSearchRequests) :
    SearchesWithin (db.updateRun r f) := by
  intro run' hmem
  rcases List.mem_iff_getElem?.mp hmem with ⟨k, hk⟩
  rw [show (db.updateRun r f).runs = db.runs.modify r f from rfl, List.getElem?_modify] at hk
  rcases Option.map_eq_some_iff.mp hk with ⟨run, hrun, rfl⟩
  split
  · rename_i heq
    exact hf run (heq ▸ hrun)
  · exact hdb run (List.mem_of_getElem? hrun)

/-- A search is only counted if the budget has room for it. -/
theorem reserve_searchesWithin {jobId attempt workerId : ℕ}
    (h : reserveSourceSearchAttempt db jobId attempt workerId = .ok db') (hdb : SearchesWithin db) :
    SearchesWithin db' := by
  simp only [reserveSourceSearchAttempt, bind_eq_ok] at h
  rcases h with ⟨_, _, ⟨projectId, searchRun, count⟩, _, _, _, locked, hlock, h⟩
  split at h
  · simp only [bind_eq_ok, pure_eq_ok] at h
    rcases h with ⟨_, _, rfl⟩
    exact hdb
  rename_i r run
  rcases lockSearchRun_ok hlock r run rfl with ⟨_, hrun, _⟩
  generalize hviolations : (_ ++ _ : List String) = violations at h
  split at h
  · obtain rfl := pure_eq_ok.mp h
    unfold blockRunForSearchBudget
    split
    · exact searchesWithin_updateRun hdb fun run' hrun' => hdb run' (List.mem_of_getElem? hrun')
    · exact hdb
  · rename_i hroom
    simp only [bind_eq_ok, pure_eq_ok] at h
    rcases h with ⟨_, ⟨_, _, rfl⟩, rfl⟩
    refine searchesWithin_updateRun hdb fun run' hrun' => ?_
    obtain rfl := Option.some.inj (hrun.symm.trans hrun')
    have hmax := (List.append_eq_nil_iff.mp (hviolations.trans (not_not.mp hroom))).1
    by_contra hover
    have hlt : run.budget.maxSearchRequests < run.totalSearchRequests + 1 := not_le.mp hover
    rw [if_pos hlt] at hmax
    cases hmax

omit [DomainStore δ] in
/-- Only a reservation counts a search. -/
theorem RunStep.searches {r : ℕ} {run run' : ResearchRunRow} (h : RunStep db db' op r run run') :
    run'.totalSearchRequests = run.totalSearchRequests ∨
      ∃ jobId attempt workerId, op = .reserveSourceSearchAttempt jobId attempt workerId := by
  cases h with
  | keep hsame _ => exact .inl hsame.searchRequests
  | countSearch => exact .inr ⟨_, _, _, rfl⟩
  | start _ _ =>
    unfold ResearchRunRow.startStage
    split <;> exact .inl rfl
  | cancelWithJob _ _ _ _ _ hsame _ => exact .inl hsame.searchRequests
  | _ => exact .inl rfl

theorem perform_searchesWithin (h : perform db op = .ok db') (hdb : SearchesWithin db) :
    SearchesWithin db' := by
  by_cases hop : ∃ jobId attempt workerId, op = .reserveSourceSearchAttempt jobId attempt workerId
  · rcases hop with ⟨jobId, attempt, workerId, rfl⟩
    exact reserve_searchesWithin h hdb
  intro run' hmem
  rcases List.mem_iff_getElem?.mp hmem with ⟨r, hr⟩
  rcases (perform_runs h).cases hr with ⟨run, hrun, hstep⟩ | ⟨_, hnew⟩
  · rw [hstep.searches.resolve_right hop, hstep.sameRun.budget]
    exact hdb run (List.mem_of_getElem? hrun)
  · cases hnew
    exact Nat.zero_le _

/-- A job is inserted only if its key is free. -/
theorem perform_keys (h : perform db op = .ok db')
    (hdb : ∀ (i j : ℕ) (job job' : JobRow), db.jobs[i]? = some job → db.jobs[j]? = some job' →
      job.projectId = job'.projectId → job.idempotencyKey = job'.idempotencyKey → i = j) :
    ∀ (i j : ℕ) (job job' : JobRow), db'.jobs[i]? = some job → db'.jobs[j]? = some job' →
      job.projectId = job'.projectId → job.idempotencyKey = job'.idempotencyKey → i = j := by
  have hfree : ∀ {i j : ℕ} {job job' old : JobRow}, InsertsJob db db' op i job →
      db.jobs[j]? = some old → SameLinks old job' → job.projectId = job'.projectId →
        job.idempotencyKey ≠ job'.idempotencyKey := by
    rintro i j job job' old ⟨_, input, _, _, hnone, _, rfl⟩ hold hsame hproject hkey
    refine findRow_eq_none.mp hnone old (List.mem_of_getElem? hold) (decide_eq_true ⟨?_, ?_⟩)
    · rw [← hsame.projectId, ← hproject]
      rfl
    · rw [← hsame.idempotencyKey, ← hkey]
      rfl
  intro i j job job' hi hj hproject hkey
  rcases (perform_jobs h).cases hi with ⟨old, hold, hstep⟩ | ⟨_, hnew⟩
  · rcases (perform_jobs h).cases hj with ⟨old', hold', hstep'⟩ | ⟨_, hnew'⟩
    · have hsame := hstep.sameLinks
      have hsame' := hstep'.sameLinks
      refine hdb i j old old' hold hold' ?_ ?_
      · rw [← hsame.projectId, ← hsame'.projectId, hproject]
      · rw [← hsame.idempotencyKey, ← hsame'.idempotencyKey, hkey]
    · exact absurd hkey.symm (hfree hnew' hold hstep.sameLinks hproject.symm)
  · rcases (perform_jobs h).cases hj with ⟨old', hold', hstep'⟩ | ⟨_, hnew'⟩
    · exact absurd hkey (hfree hnew hold' hstep'.sameLinks hproject)
    · rw [hnew.1, hnew'.1]

theorem perform_consistent (h : perform db op = .ok db') (hdb : Consistent db) : Consistent db' where
  jobs := perform_wellLinked h hdb.jobs
  keys := perform_keys h hdb.keys
  attempts := by
    intro attempt hmem
    rcases List.mem_iff_getElem?.mp hmem with ⟨k, hk⟩
    rcases (perform_jobAttempts h).cases hk with ⟨old, hold, hstep⟩ | ⟨_, hnew⟩
    · have hid : attempt.jobId = old.jobId := by
        cases hstep with
        | keep => rfl
        | settle _ _ _ hid _ _ => exact hid
        | expire => rfl
      rw [hid]
      exact (hdb.attempts old (List.mem_of_getElem? hold)).trans_le (perform_jobs h).length_le
    · rcases hnew with ⟨_, _, job, _, _, hjob, _⟩
      exact (List.getElem?_eq_some_iff.mp hjob).1
  stages := perform_wellGenerated h hdb.stages
  commits := by
    intro commit hmem
    have hold : ∀ commit ∈ db.commits, ∃ stage, db'.stages[commit.runStageId]? = some stage ∧
        stage.generation = commit.generation := by
      intro commit hmem
      rcases hdb.commits commit hmem with ⟨stage, hstage, hgeneration⟩
      rcases perform_stage_run h hstage with ⟨stage', hstage', hsame⟩
      exact ⟨stage', hstage', hsame.generation.trans hgeneration⟩
    rcases perform_commits h with hsame | ⟨i, _, _, output, _, stage, _, _, _, hcommits, hstage⟩
    · rw [hsame] at hmem
      exact hold commit hmem
    · rw [hcommits] at hmem
      rcases List.mem_append.mp hmem with hmem | hmem
      · exact hold commit hmem
      · obtain rfl := List.mem_singleton.mp hmem
        exact ⟨_, hstage, rfl⟩
  searches := perform_searchesWithin h hdb.searches

end

/-- **Consistency.**  After every history the tables are consistent. -/
theorem history_consistent (projects : List ProjectRow) (domain : δ) (ops : List (Op δ)) :
    Consistent (history projects domain ops) := by
  refine (history_reachable projects domain ops).invariant (fun db h₀ => ?_)
    fun _ _ _ hI _ h => perform_consistent h hI
  have hinitial : db.ReachableBy Always := ⟨db, h₀, .refl⟩
  have hstages := hinitial.wellGenerated
  refine ⟨?_, ?_, ?_, hstages, ?_, ?_⟩
  · simp [h₀.jobs]
  · simp [h₀.jobs]
  · simp [h₀.jobAttempts]
  · simp [h₀.commits]
  · simp [SearchesWithin, h₀.runs]

/-! ### Submissions -/

/-- The job `jobId` is the one that the key of the submission names, and is what it asks for. -/
def HoldsKey (db : Db δ) (input : SubmitJobInput) (jobId : ℕ) : Prop :=
  ∃ job, jobByKey db input.projectId input.idempotencyKey = some (jobId, job) ∧
    job.jobType = input.jobType ∧ job.inputReference = input.inputReference ∧
    job.runId = input.runId ∧ job.runStageId = input.runStageId

/-- A submission stands: it is answered with the job `jobId`, nothing being written, and so is every
    other under its key, which is refused unless it asks for the same. -/
structure Stands (db : Db δ) (input : SubmitJobInput) (jobId : ℕ) : Prop where
  again : submitJob db input = .ok ⟨jobId, false, db⟩
  others : ∀ (other : SubmitJobInput) (result : SubmittedJob δ), other.projectId = input.projectId →
    other.idempotencyKey = input.idempotencyKey → submitJob db other = .ok result →
      result = ⟨jobId, false, db⟩ ∧ other.jobType = input.jobType ∧
        other.inputReference = input.inputReference ∧ other.runId = input.runId ∧
        other.runStageId = input.runStageId

section
variable {db db' : Db δ} {op : Op δ} {input : SubmitJobInput} {jobId : ℕ}

/-- **The step lemma.**  No operation changes what a key names. -/
theorem perform_holdsKey (h : perform db op = .ok db') (hkey : HoldsKey db input jobId) :
    HoldsKey db' input jobId := by
  rcases hkey with ⟨job, hfind, htype, hreference, hrun, hstage⟩
  obtain ⟨job', hfind', hstep⟩ := (perform_jobs h).findRow (fun i a b hstep => by
    rw [hstep.sameLinks.projectId, hstep.sameLinks.idempotencyKey]) hfind
  have hsame := hstep.sameLinks
  exact ⟨job', hfind', hsame.jobType.trans htype, hsame.inputReference.trans hreference,
    hsame.runId.trans hrun, hsame.runStageId.trans hstage⟩

omit [DomainStore δ] in
/-- A submission that succeeds holds its key. -/
theorem submitJob_holdsKey {submitted : SubmittedJob δ} (h : submitJob db input = .ok submitted) :
    HoldsKey submitted.db input submitted.jobId := by
  simp only [submitJob, submitJobInTransaction, bind_eq_ok, ensure_eq_ok] at h
  rcases h with ⟨_, _, _, _, _, _, _, _, _, _, h⟩
  split at h
  · rename_i hnone
    simp only [bind_eq_ok, ensure_eq_ok, pure_eq_ok] at h
    rcases h with ⟨_, _, rfl⟩
    exact ⟨input.row db.now, findRow_concat hnone (decide_eq_true ⟨rfl, rfl⟩), rfl, rfl, rfl, rfl⟩
  · rename_i job hfind
    simp only [bind_eq_ok, ensure_eq_ok, pure_eq_ok] at h
    rcases h with ⟨_, hsame, rfl⟩
    exact ⟨job, hfind, hsame⟩

omit [DomainStore δ] in
/-- A valid submission stands while the job holds its key. -/
theorem HoldsKey.stands {submitted : SubmittedJob δ} (h : submitJob db input = .ok submitted)
    (hprojects : db.projects.length ≤ db'.projects.length) (hkey : HoldsKey db' input jobId) :
    Stands db' input jobId := by
  rcases hkey with ⟨job, hfind, hsame⟩
  constructor
  · simp only [submitJob, submitJobInTransaction, bind_eq_ok, ensure_eq_ok] at h ⊢
    rcases h with ⟨u, hproject, u₁, h₁, u₂, h₂, u₃, h₃, u₄, h₄, _⟩
    refine ⟨u, fun projectId hid => (hproject projectId hid).trans_le hprojects,
      u₁, h₁, u₂, h₂, u₃, h₃, u₄, h₄, ?_⟩
    simp only [hfind, bind_eq_ok, ensure_eq_ok, pure_eq_ok]
    exact ⟨(), hsame, trivial⟩
  · intro other result hproject hother h
    simp only [submitJob, submitJobInTransaction, bind_eq_ok, ensure_eq_ok, hproject, hother,
      hfind, pure_eq_ok] at h
    rcases h with ⟨_, _, _, _, _, _, _, _, _, _, _, ⟨htype, hreference, hrun, hstage⟩, rfl⟩
    exact ⟨rfl, htype.symm.trans hsame.1, hreference.symm.trans hsame.2.1,
      hrun.symm.trans hsame.2.2.1, hstage.symm.trans hsame.2.2.2⟩

end

/-- **Submissions are exactly once.**  Whatever happened before and happens after it, a submission
    that succeeded stands. -/
theorem submissions_stand (projects : List ProjectRow) (domain : δ) (before after : List (Op δ))
    {input : SubmitJobInput} {submitted : SubmittedJob δ}
    (h : submitJob (history projects domain before) input = .ok submitted) :
    Stands (history projects domain (before ++ .submitJob input :: after)) input
      submitted.jobId := by
  have hperform : perform (history projects domain before) (.submitJob input) =
      .ok submitted.db := by
    show SubmittedJob.db <$> submitJob _ input = _
    rw [h]
    rfl
  -- The key is held, and no project goes away, in all that follows.
  have hafter : ∀ (ops : List (Op δ)) (db : Db δ), HoldsKey db input submitted.jobId →
      HoldsKey (ops.foldl transact db) input submitted.jobId ∧
        db.projects.length ≤ (ops.foldl transact db).projects.length := by
    intro ops
    induction ops with
    | nil => exact fun db hkey => ⟨hkey, le_rfl⟩
    | cons op ops ih =>
      intro db hkey
      rw [List.foldl_cons]
      cases hop : perform db op with
      | ok db' =>
        rw [transact_of_ok hop]
        have hrest := ih db' (perform_holdsKey hop hkey)
        exact ⟨hrest.1, (perform_framed hop).projects.trans hrest.2⟩
      | error e =>
        rw [transact_of_error hop]
        exact ih db hkey
  have hrest := hafter after submitted.db (submitJob_holdsKey h)
  unfold history at hperform h ⊢
  rw [List.foldl_append, List.foldl_cons, transact_of_ok hperform]
  exact hrest.1.stands h ((perform_framed hperform).projects.trans hrest.2)

/-- A job outside of projects and runs. -/
def customSubmission : SubmitJobInput where
  jobType := .other 0
  inputReference := .document 0
  idempotencyKey := .custom 0

/-- The submission of a job that is done stands. -/
theorem submission_of_finished_job_stands :
    Stands (history [] () ([] ++ .submitJob customSubmission ::
      [.claimJobs { workerId := 0, leaseDurationMs := 60000 } [], .startJob 0 0 none,
        .completeJob 0 0 0])) customSubmission 0 := by
  have hsubmit : submitJob (history [] () []) customSubmission =
      .ok ⟨0, true, (Db.initial [] ()).insertJob (customSubmission.row 0)⟩ := by
    simp only [submitJob, submitJobInTransaction, bind_eq_ok, ensure_eq_ok]
    refine ⟨(), ?_, (), rfl, (), rfl, (), rfl, _, parseJobRetryPolicy_default, rfl⟩
    simp [customSubmission]
  exact submissions_stand [] () [] _ hsubmit

/-! ### Claims -/

/-- What a claim takes: at most as many jobs as were asked for, each once; and a job that could have
    been taken and was not comes after all of them, and there were as many as were asked for. -/
structure ClaimedInOrder (db : Db δ) (input : ClaimJobsInput) (locked : List ℕ) : Prop where
  nodup : (claimCandidates db input locked).Nodup
  limit : (claimCandidates db input locked).length ≤ input.limit
  order : ∀ (j : ℕ) (job : JobRow), db.jobs[j]? = some job → input.candidate db.now job → j ∉ locked →
    j ∉ claimCandidates db input locked →
      (claimCandidates db input locked).length = input.limit ∧
        ∀ i ∈ claimCandidates db input locked, ∃ claimed, db.jobs[i]? = some claimed ∧
          claimOrder (claimed, i) (job, j)

instance : Std.Total claimOrder where
  total x y := by
    unfold claimOrder
    omega

instance : IsTrans (JobRow × ℕ) claimOrder where
  trans x y z := by
    unfold claimOrder
    omega

omit [DomainStore δ] in
/-- **No job is passed over**: claims take jobs by priority, then by their time, then by id. -/
theorem claims_in_order (db : Db δ) (input : ClaimJobsInput) (locked : List ℕ) :
    ClaimedInOrder db input locked := by
  set due := db.jobs.zipIdx.filter fun entry =>
    input.candidate db.now entry.1 && entry.2 ∉ locked with hdue
  set queue := due.insertionSort claimOrder with hqueue
  have hsorted : queue.Pairwise claimOrder := due.pairwise_insertionSort claimOrder
  -- The ids of the table are distinct, and neither the filter nor the sort repeats one.
  have hids : (queue.map (·.2)).Nodup := by
    refine (List.Perm.nodup_iff ((due.perm_insertionSort claimOrder).map _)).mpr ?_
    refine List.Nodup.sublist (List.filter_sublist.map _) ?_
    rw [List.zipIdx_map_snd]
    exact List.nodup_range'
  refine ⟨?_, ?_, ?_⟩
  · exact hids.sublist ((List.take_sublist _ _).map _)
  · show ((queue.take input.limit).map (·.2)).length ≤ input.limit
    rw [List.length_map]
    exact List.length_take_le _ _
  · intro j job hj hcandidate hlocked hpassed
    have hmem : (job, j) ∈ queue := by
      refine (due.mem_insertionSort claimOrder).mpr (List.mem_filter.mpr ⟨?_, ?_⟩)
      · exact List.mk_mem_zipIdx_iff_getElem?.mpr hj
      · simp [hcandidate, hlocked]
    -- What is not among the first `limit` comes after all of them.
    have hrest : (job, j) ∈ queue.drop input.limit := by
      rw [← List.take_append_drop input.limit queue, List.mem_append] at hmem
      rcases hmem with htaken | hrest
      · exact absurd (List.mem_map_of_mem htaken) hpassed
      · exact hrest
    rw [← List.take_append_drop input.limit queue, List.pairwise_append] at hsorted
    constructor
    · show ((queue.take input.limit).map (·.2)).length = input.limit
      have hpos := List.length_pos_of_mem hrest
      rw [List.length_drop] at hpos
      rw [List.length_map, List.length_take]
      omega
    · intro i hi
      rcases List.mem_map.mp hi with ⟨⟨claimed, i'⟩, htaken, rfl⟩
      have hclaimed : (claimed, i') ∈ due :=
        (due.mem_insertionSort claimOrder).mp (List.mem_of_mem_take htaken)
      refine ⟨claimed, ?_, hsorted.2.2 _ htaken _ hrest⟩
      exact List.mk_mem_zipIdx_iff_getElem?.mp (List.mem_filter.mp hclaimed).1

end ResearchWorkbench
