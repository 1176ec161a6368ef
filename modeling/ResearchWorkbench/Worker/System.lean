import ResearchWorkbench.System.RunSteps
import ResearchWorkbench.System.Links
import ResearchWorkbench.Queue.Fences
import ResearchWorkbench.Worker.Handler

namespace ResearchWorkbench

/-!
# Workers on the database

The database with the handlers that workers have started.  A started job attempt has an execution of
the handler, which may go on even after its job was taken away; only its fence stops it.

* `Sys`, `Act`, `Sys.step` — the system: service calls, starts, handler steps and completions;
* `SysStep`, `Sys.step_cases` — everything a step can do, said once;
* `Sys.ReachableBy` — the states of the system, `Sys.ReachableBy.db` those of its database;
* `Execution.Current` — the attempt of an execution still runs: `perform_current` is its step lemma;
* `Execution.Linked` — what ties an execution to its job, along any run.
-/

variable {δ : Type}

/-- The database and the executions of the pipeline handler, oldest first. -/
structure Sys (δ : Type) where
  db : Db δ
  executions : List Execution

/-- What can happen. -/
inductive Act (δ : Type)
  /-- A call of a service. -/
  | operate (op : Op δ)
  /-- `DurableWorker.execute` starts a claimed job, and calls the handler of a pipeline job. -/
  | start (jobId workerId : ℕ) (expectedVersion : Option ℕ)
  /-- The handler of an execution goes on, or is told something. -/
  | handle (k : ℕ) (event : HandlerEvent δ)
  /-- `DurableWorker.execute` completes the job of a handler that has returned. -/
  | complete (k output : ℕ)

/-- The handler has returned. -/
def HandlerPhase.hasReturned : HandlerPhase → Bool
  | .returned => true
  | _ => false

/-- The call of the handler for a started job. -/
def JobRow.execution (job : JobRow) (jobId workerId : ℕ) : Option Execution :=
  match job.jobType, job.runId, job.runStageId, job.stage with
  | .researchPipelineStage, some runId, some runStageId, some stage =>
    some ⟨runId, stage, ⟨jobId, runStageId, job.attempts, workerId⟩, .loading⟩
  | _, _, _, _ => none

section
variable [DomainStore δ]

/-- What an action does. -/
def Sys.step (s : Sys δ) : Act δ → Sys δ
  | .operate op => { s with db := transact s.db op }
  | .start jobId workerId expectedVersion =>
    match perform s.db (.startJob jobId workerId expectedVersion) with
    | .ok db =>
      { db, executions :=
          s.executions ++ (db.jobs[jobId]?.bind (·.execution jobId workerId)).toList }
    | .error _ => s
  | .handle k event =>
    match s.executions[k]? with
    | some e =>
      let (db, phase) := e.step s.db event
      { db, executions := s.executions.set k { e with phase } }
    | none => s
  | .complete k output =>
    match s.executions[k]? with
    | some e =>
      if e.phase.hasReturned then
        { s with db := transact s.db (.completeJob e.fence.jobId e.fence.workerId output) }
      else s
    | none => s

/-- What an action may do. -/
inductive SysStep (s : Sys δ) : Act δ → Sys δ → Prop
  | idle (a : Act δ) : SysStep s a s
  | operate {op : Op δ} {db' : Db δ} (run : perform s.db op = .ok db') :
      SysStep s (.operate op) ⟨db', s.executions⟩
  | start {jobId workerId : ℕ} {expectedVersion : Option ℕ} {db' : Db δ} {started : List Execution}
      (run : perform s.db (.startJob jobId workerId expectedVersion) = .ok db')
      (started_iff : ∀ e, e ∈ started ↔
        ∃ job, db'.jobs[jobId]? = some job ∧ job.execution jobId workerId = some e) :
      SysStep s (.start jobId workerId expectedVersion) ⟨db', s.executions ++ started⟩
  | handle {k : ℕ} {event : HandlerEvent δ} {e : Execution} {db' : Db δ} {phase : HandlerPhase}
      (row : s.executions[k]? = some e) (step : HandlerStep s.db e event db' phase) :
      SysStep s (.handle k event) ⟨db', s.executions.set k { e with phase := phase }⟩
  | complete {k output : ℕ} {e : Execution} {db' : Db δ} (row : s.executions[k]? = some e)
      (returned : e.phase = .returned)
      (run : perform s.db (.completeJob e.fence.jobId e.fence.workerId output) = .ok db') :
      SysStep s (.complete k output) ⟨db', s.executions⟩

/-- **Steps.**  Every action does what `SysStep` allows. -/
theorem Sys.step_cases (s : Sys δ) (a : Act δ) : SysStep s a (s.step a) := by
  cases a with
  | operate op =>
    simp only [Sys.step]
    cases hrun : perform s.db op with
    | ok db' => simpa only [transact_of_ok hrun] using .operate hrun
    | error e => simpa only [transact_of_error hrun] using .idle _
  | start jobId workerId expectedVersion =>
    simp only [Sys.step]
    split
    · refine .start ‹_› fun e => ?_
      simp [Option.mem_toList, Option.bind_eq_some_iff]
    · exact .idle _
  | handle k event =>
    simp only [Sys.step]
    split
    · exact .handle ‹_› (Execution.step_cases _ _ event)
    · exact .idle _
  | complete k output =>
    simp only [Sys.step]
    split
    · rename_i e hrow
      split
      · rename_i hreturned
        have hphase : e.phase = .returned := by
          revert hreturned
          cases e.phase <;> simp [HandlerPhase.hasReturned]
        cases hrun : perform s.db (.completeJob e.fence.jobId e.fence.workerId output) with
        | ok db' => simpa only [transact_of_ok hrun] using .complete hrow hphase hrun
        | error err => simpa only [transact_of_error hrun] using .idle _
      · exact .idle _
    · exact .idle _

/-! ### The database of the system -/

variable {db db' : Db δ} {s s' : Sys δ} {e : Execution} {a : Act δ} {op : Op δ}

/-- A handler changes the database by fenced calls only. -/
theorem HandlerStep.performs {event : HandlerEvent δ} {phase : HandlerPhase}
    (h : HandlerStep db e event db' phase) :
    db' = db ∨ ∃ i op, perform db op = .ok db' ∧ op.fencedCall = some (i, e.fence) := by
  cases h with
  | start _ hrun => exact .inr ⟨_, _, hrun, rfl⟩
  | record _ hrun => exact .inr ⟨_, _, hrun, rfl⟩
  | commit _ _ hrun => exact .inr ⟨_, _, hrun, rfl⟩
  | boundary _ hrun => exact .inr ⟨_, _, hrun, rfl⟩
  | queue _ hrun => exact .inr ⟨_, _, hrun, rfl⟩
  | blocked _ hrun => exact .inr ⟨_, _, hrun, rfl⟩
  | _ => exact .inl rfl

/-- A step leaves the database as it was, or performs one operation on it. -/
theorem SysStep.performs (h : SysStep s a s') :
    s'.db = s.db ∨ ∃ op, perform s.db op = .ok s'.db := by
  cases h with
  | idle => exact .inl rfl
  | operate hrun => exact .inr ⟨_, hrun⟩
  | start hrun _ => exact .inr ⟨_, hrun⟩
  | handle _ hstep =>
    obtain hsame | ⟨_, op, hrun, _⟩ := hstep.performs
    · exact .inl hsame
    · exact .inr ⟨op, hrun⟩
  | complete _ _ hrun => exact .inr ⟨_, hrun⟩

/-- The states reached by actions that each met `ok`. -/
def Sys.ReachableBy (ok : Sys δ → Act δ → Prop) (s : Sys δ) : Prop :=
  ∃ db₀ : Db δ, db₀.Initial ∧ Reach Sys.step ok ⟨db₀, []⟩ s

/-- **The invariant rule.** -/
theorem Sys.ReachableBy.invariant {ok : Sys δ → Act δ → Prop} {I : Sys δ → Prop}
    (h : s.ReachableBy ok) (h₀ : ∀ db, db.Initial → I ⟨db, []⟩)
    (hstep : ∀ s a s', I s → ok s a → SysStep s a s' → I s') : I s := by
  obtain ⟨db₀, hinit, hreach⟩ := h
  exact hreach.invariant (h₀ db₀ hinit) fun s a hI hok => hstep s a _ hI hok (s.step_cases a)

theorem Sys.ReachableBy.next {ok : Sys δ → Act δ → Prop} (h : s.ReachableBy ok) (ha : ok s a) :
    (s.step a).ReachableBy ok := by
  obtain ⟨db₀, hinit, hreach⟩ := h
  exact ⟨db₀, hinit, hreach.tail' a ha⟩

/-- The invariant rule, with what is known of the states that the system reaches. -/
theorem Sys.ReachableBy.invariant_of_reachable {ok : Sys δ → Act δ → Prop} {I : Sys δ → Prop}
    (h : s.ReachableBy ok) (h₀ : ∀ db, db.Initial → I ⟨db, []⟩)
    (hstep : ∀ s a s', s.ReachableBy ok → I s → ok s a → SysStep s a s' → I s') : I s := by
  obtain ⟨db₀, hinit, hreach⟩ := h
  have hboth := hreach.invariant (I := fun s => s.ReachableBy ok ∧ I s)
    ⟨⟨db₀, hinit, .refl⟩, h₀ db₀ hinit⟩
    fun s a hI ha => ⟨hI.1.next ha, hstep s a _ hI.1 hI.2 ha (s.step_cases a)⟩
  exact hboth.2

/-- What actions that met the guard one after the other make of an initial database. -/
theorem Sys.reachableBy_ofTrace {ok : Sys δ → Act δ → Prop} {acts : List (Act δ)}
    (h₀ : db.Initial) (h : TraceOk Sys.step ok ⟨db, []⟩ acts) :
    (acts.foldl Sys.step ⟨db, []⟩).ReachableBy ok :=
  ⟨db, h₀, .ofTrace h⟩

/-- The database of the system is one of the service calls. -/
theorem Sys.ReachableBy.reachable_db {ok : Sys δ → Act δ → Prop} (h : s.ReachableBy ok) :
    s.db.Reachable := by
  refine h.invariant (I := fun s => s.db.Reachable) (fun db h₀ => Db.reachable_ofActions h₀ []) ?_
  intro s a s' hI _ hstep
  obtain hsame | ⟨op, hrun⟩ := hstep.performs
  · rwa [hsame]
  · obtain ⟨db₀, hinit, hreach⟩ := hI
    exact ⟨db₀, hinit, hreach.tail ⟨op, trivial, transact_of_ok hrun⟩⟩

end

/-! ### The attempt of an execution -/

section
variable {db db' : Db δ} {s s' : Sys δ} {e : Execution} {a : Act δ} {op : Op δ}
  {i : ℕ} {job job' : JobRow}

/-- The attempt of the execution runs. -/
def Execution.Current (db : Db δ) (e : Execution) : Prop :=
  ∃ job, db.jobs[e.fence.jobId]? = some job ∧ job.status = .running ∧
    job.attempts = e.fence.attempt

/-- The execution is of an attempt of its job that has begun, and knows the job's run and stage
    row. -/
structure Execution.LinkedTo (e : Execution) (job : JobRow) : Prop where
  run : job.runId = some e.runId
  stage : job.runStageId = some e.fence.runStageId
  begun : e.fence.attempt < job.attempts ∨ e.fence.attempt = job.attempts ∧ job.status ≠ .claimed

/-- The job of the execution is there. -/
def Execution.Linked (db : Db δ) (e : Execution) : Prop :=
  ∃ job, db.jobs[e.fence.jobId]? = some job ∧ e.LinkedTo job

theorem Execution.Linked.setPhase (h : e.Linked db) (phase : HandlerPhase) :
    Execution.Linked db { e with phase := phase } := by
  obtain ⟨job, hjob, hlink⟩ := h
  exact ⟨job, hjob, hlink.run, hlink.stage, hlink.begun⟩

/-- A valid fence is one of a running attempt. -/
theorem FenceValid.current {r : ℕ} (h : FenceValid db r e.fence) : e.Current db := by
  obtain ⟨job, hjob, hmatch⟩ := fenceValid_iff.mp h
  obtain ⟨_, _, hattempt, _, hstatus, _⟩ := matchesFence_iff.mp hmatch
  exact ⟨job, hjob, hstatus, hattempt⟩

/-- The run of a running attempt has an active job. -/
theorem Execution.Current.activeJobCount (h : e.Current db) (hlinked : e.Linked db) :
    0 < db.activeJobCount e.runId := by
  obtain ⟨job, hjob, hstatus, _⟩ := h
  obtain ⟨job', hjob', hlink⟩ := hlinked
  obtain rfl := Option.some.inj (hjob.symm.trans hjob')
  exact activeJobCount_pos.mpr
    ⟨job, List.mem_of_getElem? hjob, hlink.run, by rw [hstatus]; rfl⟩

/-- The stage row of an execution is one of its run. -/
theorem Execution.Linked.stageRow (h : e.Linked db) (hwell : ∀ job ∈ db.jobs, WellLinked db job)
    {stage : RunStageRow} (hstage : db.stages[e.fence.runStageId]? = some stage) :
    stage.runId = e.runId := by
  obtain ⟨job, hjob, hlink⟩ := h
  obtain ⟨stage', hstage', hrun⟩ :=
    (hwell job (List.mem_of_getElem? hjob)).stage e.runId hlink.run _ hlink.stage
  obtain rfl := Option.some.inj (hstage.symm.trans hstage')
  exact hrun

/-- Attempts are only counted up, by a claim. -/
theorem JobStep.attempts (h : JobStep db op i job job') :
    job'.attempts = job.attempts ∧ (job'.status = .claimed → job.status = .claimed) ∨
      job'.attempts = job.attempts + 1 ∧ job'.status = .claimed := by
  cases h with
  | keep => exact .inl ⟨rfl, id⟩
  | claim _ _ _ => exact .inr ⟨rfl, rfl⟩
  | start _ _ => exact .inl ⟨rfl, nofun⟩
  | heartbeat _ _ => exact .inl ⟨rfl, id⟩
  | succeed _ _ => exact .inl ⟨rfl, nofun⟩
  | failAttempt target _ _ _ hgoal =>
    refine .inl ⟨rfl, fun hclaimed => ?_⟩
    have htarget : target = .claimed := hclaimed
    subst htarget
    simp at hgoal
  | requestCancellation _ =>
    refine .inl ⟨rfl, fun hclaimed => ?_⟩
    obtain ⟨h, _⟩ | ⟨h, _⟩ := cancellationTarget_cases job.status
    all_goals exact nomatch h.symm.trans hclaimed
  | cancelWithRun _ _ =>
    refine .inl ⟨rfl, fun hclaimed => ?_⟩
    obtain ⟨h, _⟩ | ⟨h, _⟩ := cancellationTarget_cases job.status
    all_goals exact nomatch h.symm.trans hclaimed
  | acknowledge _ _ => exact .inl ⟨rfl, nofun⟩
  | release _ _ => exact .inl ⟨rfl, nofun⟩
  | releaseCancelled _ _ => exact .inl ⟨rfl, nofun⟩
  | expire _ _ _ _ =>
    refine .inl ⟨rfl, fun hclaimed => ?_⟩
    obtain ⟨h, _⟩ | ⟨h, _⟩ | ⟨h, _⟩ := recoveredStatus_cases job
    all_goals exact nomatch h.symm.trans hclaimed
  | manualRetry _ _ => exact .inl ⟨rfl, nofun⟩
  | checkpoint _ => exact .inl ⟨rfl, id⟩

/-- A job runs if it ran before, or was claimed and starts. -/
theorem JobStep.running (h : JobStep db op i job job') (hrunning : job'.status = .running) :
    job'.attempts = job.attempts ∧ (job.status = .running ∨ job.status = .claimed) := by
  cases h with
  | keep => exact ⟨rfl, .inl hrunning⟩
  | start _ hclaimed => exact ⟨rfl, .inr hclaimed⟩
  | heartbeat _ _ => exact ⟨rfl, .inl hrunning⟩
  | checkpoint _ => exact ⟨rfl, .inl hrunning⟩
  | failAttempt target _ _ _ hgoal =>
    have htarget : target = .running := hrunning
    subst htarget
    simp at hgoal
  | requestCancellation _ =>
    obtain ⟨h, _⟩ | ⟨h, _⟩ := cancellationTarget_cases job.status
    all_goals exact nomatch h.symm.trans hrunning
  | cancelWithRun _ _ =>
    obtain ⟨h, _⟩ | ⟨h, _⟩ := cancellationTarget_cases job.status
    all_goals exact nomatch h.symm.trans hrunning
  | expire _ _ _ _ =>
    obtain ⟨h, _⟩ | ⟨h, _⟩ | ⟨h, _⟩ := recoveredStatus_cases job
    all_goals exact nomatch h.symm.trans hrunning
  | _ => cases hrunning

variable [DomainStore δ]

/-- An execution stays tied to its job. -/
theorem perform_linked (hrun : perform db op = .ok db') (h : e.Linked db) : e.Linked db' := by
  obtain ⟨job, hjob, hlink⟩ := h
  obtain ⟨job', hjob', hstep⟩ := (perform_jobs hrun).old _ _ hjob
  have hsame := hstep.sameLinks
  refine ⟨job', hjob', hsame.runId.trans hlink.run, hsame.runStageId.trans hlink.stage, ?_⟩
  obtain ⟨hattempts, hclaimed⟩ | ⟨hattempts, _⟩ := hstep.attempts
  · rw [hattempts]
    exact hlink.begun.imp id (And.imp id fun hnot h => hnot (hclaimed h))
  · refine .inl ?_
    obtain h | ⟨h, _⟩ := hlink.begun
    all_goals omega

/-- **The step lemma.**  An attempt that has ended does not run again. -/
theorem perform_current (hrun : perform db op = .ok db') (hlinked : e.Linked db)
    (h : e.Current db') : e.Current db := by
  obtain ⟨job, hjob, hlink⟩ := hlinked
  obtain ⟨job', hjob', hstep⟩ := (perform_jobs hrun).old _ _ hjob
  obtain ⟨job'', hjob'', hrunning, hattempt⟩ := h
  obtain rfl := Option.some.inj (hjob'.symm.trans hjob'')
  obtain ⟨hattempts, hstatus⟩ := hstep.running hrunning
  refine ⟨job, hjob, hstatus.resolve_right fun hclaimed => ?_, hattempts.symm.trans hattempt⟩
  obtain h | ⟨_, h⟩ := hlink.begun
  · omega
  · exact h hclaimed

/-! ### The executions of the system -/

/-- An execution that has just begun is tied to its job, and loads. -/
theorem started_linked {jobId workerId : ℕ} {version : Option ℕ}
    (hrun : perform db (.startJob jobId workerId version) = .ok db')
    (hjob : db'.jobs[jobId]? = some job) (he : job.execution jobId workerId = some e) :
    e.Linked db' ∧ e.phase = .loading := by
  obtain ⟨job₀, hjob₀, _, _, rfl⟩ := startJob_ok hrun
  obtain rfl : job₀.start db.now = job := by
    simpa [Db.settleAttempt, getElem?_modify_eq hjob₀] using hjob
  unfold JobRow.execution at he
  split at he
  · obtain rfl := Option.some.inj he
    exact ⟨⟨_, hjob, ‹_›, ‹_›, .inr ⟨rfl, nofun⟩⟩, rfl⟩
  · cases he

/-- Where an execution of the system after a step comes from: it is as before, or has made a step,
    or has begun. -/
theorem SysStep.execution (h : SysStep s a s') (he : e ∈ s'.executions) :
    e ∈ s.executions ∨
      (∃ e₀ ∈ s.executions, ∃ phase, e = { e₀ with phase := phase } ∧
        ∃ event, HandlerStep s.db e₀ event s'.db phase) ∨
      e.Linked s'.db ∧ e.phase = .loading := by
  cases h with
  | idle => exact .inl he
  | operate _ => exact .inl he
  | start hrun hstarted =>
    obtain he | he := List.mem_append.mp he
    · exact .inl he
    · obtain ⟨job, hjob, hexec⟩ := (hstarted e).mp he
      exact .inr (.inr (started_linked hrun hjob hexec))
  | handle hrow hstep =>
    obtain he | rfl := List.mem_or_eq_of_mem_set he
    · exact .inl he
    · exact .inr (.inl ⟨_, List.mem_of_getElem? hrow, _, rfl, _, hstep⟩)
  | complete _ _ _ => exact .inl he

theorem SysStep.linked (h : SysStep s a s') (hI : ∀ e ∈ s.executions, e.Linked s.db) :
    ∀ e ∈ s'.executions, e.Linked s'.db := by
  have hkeep {e : Execution} (he : e.Linked s.db) : e.Linked s'.db := by
    obtain hsame | ⟨op, hrun⟩ := h.performs
    · rwa [hsame]
    · exact perform_linked hrun he
  intro e he
  obtain he | ⟨e₀, he₀, phase, rfl, _⟩ | ⟨he, _⟩ := h.execution he
  · exact hkeep (hI e he)
  · exact (hkeep (hI e₀ he₀)).setPhase phase
  · exact he

theorem Sys.ReachableBy.linked {ok : Sys δ → Act δ → Prop} (h : s.ReachableBy ok) :
    ∀ e ∈ s.executions, e.Linked s.db := by
  refine h.invariant (I := fun s => ∀ e ∈ s.executions, e.Linked s.db) (fun db _ e he => ?_)
    fun _ _ _ hI _ hstep => hstep.linked hI
  cases he

end

end ResearchWorkbench
