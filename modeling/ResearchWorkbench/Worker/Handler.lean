import ResearchWorkbench.System.Frame

namespace ResearchWorkbench

/-!
# The pipeline handler

`createResearchPipelineStageHandler` of `worker/research-pipeline-handler.ts`, one transaction at a
time: between two of them anything else may happen, and the handler may never go on.

* `HandlerPhase` — what the handler does next, with what it has read so far;
* `HandlerEvent` — what it is told: to go on, or the outcome of something outside the database;
* `Execution.step` — one transaction of the handler of one job attempt;
* `HandlerStep`, `Execution.step_cases` — everything a step can do, said once.
-/

variable {δ : Type}

/-- What the handler does next. -/
inductive HandlerPhase
  /-- The first `loadResearchOrchestrationBundle`. -/
  | loading
  /-- `startRunStage`. -/
  | starting
  /-- The second `loadResearchOrchestrationBundle`, which the provider's input is built from. -/
  | building
  /-- The budget, the permit and `assertRunStageJobFence` before the provider call. -/
  | preparing (key : CommitKey) (builtAt : ℕ)
  /-- `provider.run`. -/
  | calling (key : CommitKey) (builtAt : ℕ)
  /-- `recordRunStageProviderAttempt`. -/
  | recording (key : CommitKey) (attempt : ProviderAttempt)
  /-- The budget after the provider call. -/
  | recorded (key : CommitKey) (output : StageOutput)
  /-- `commitRunStage`. -/
  | committing (key : CommitKey) (output : StageOutput)
  /-- `assertRunStageJobFence` of `advanceResearchPipelineStage`. -/
  | fencing (output : StageOutput)
  /-- Its `loadResearchOrchestrationBundle`, and the decision. -/
  | planning (output : StageOutput)
  /-- The transaction that carries the decision out. -/
  | advancing (advancement : Advancement)
  /-- `blockRunStage`, before the handler throws. -/
  | blocking (errorClass : JobErrorClass) (reason : String)
  | returned
  | thrown

/-- What a handler is told. -/
inductive HandlerEvent (δ : Type)
  /-- To go on with the next transaction. -/
  | next
  /-- The provider's answer: its output or its error. -/
  | answer (attempt : ProviderAttempt)
  /-- The effects of the output on the domain, which the commit performs. -/
  | commit (domainCommit : δ → Except ServiceError δ)
  /-- The budget or the run's configuration stops the stage. -/
  | block (errorClass : JobErrorClass) (reason : String)
  /-- Anything else that throws. -/
  | throw

/-- The handler of one attempt of a stage job, as `createResearchPipelineStageHandler` is called:
    the run and the stage of the job, and its fence. -/
structure Execution where
  runId : ℕ
  stage : AIStage
  fence : RunStageJobFence
  phase : HandlerPhase

/-! ### One transaction -/

section
variable [DomainStore δ]

/-- A transaction of the handler: if it throws, the handler throws. -/
def attempt (db : Db δ) (op : Op δ) (phase : HandlerPhase) : Db δ × HandlerPhase :=
  match perform db op with
  | .ok db' => (db', phase)
  | .error _ => (db, .thrown)

/-- A transaction of the handler that only reads. -/
def readOnly (db : Db δ) (phase : Except ServiceError HandlerPhase) : Db δ × HandlerPhase :=
  match phase with
  | .ok phase => (db, phase)
  | .error _ => (db, .thrown)

/-- The first load: the handler checks the references of its job, and replays a stage that has
    succeeded. -/
def Execution.load (db : Db δ) (e : Execution) : Except ServiceError HandlerPhase := do
  let bundle ← loadResearchOrchestrationBundle db e.fence.runStageId
  ensure (bundle.stage.runId = e.runId ∧ bundle.stage.stageId = e.stage)
    (.error "The job references do not match the stored research run stage.")
  match bundle.stage.status, bundle.stage.outputReference with
  | .succeeded, some output => return .fencing output
  | _, _ => return .starting

/-- The second load: a stored output is committed as it is, else the provider's input is built. -/
def Execution.build (db : Db δ) (e : Execution) : Except ServiceError HandlerPhase := do
  let bundle ← loadResearchOrchestrationBundle db e.fence.runStageId
  let key := CommitKey.stage bundle.stage.runId bundle.stage.stageId bundle.stage.generation
  match bundle.stage.outputReference with
  | some output => return .committing key output
  | none => return .preparing key db.commits.length

/-- What follows the record of a provider attempt: an error is thrown, after a block if the
    provider's budget is exhausted. -/
def ProviderAttempt.recordedPhase (attempt : ProviderAttempt) (key : CommitKey) : HandlerPhase :=
  match attempt.outputReference with
  | some output => .recorded key output
  | none =>
    if attempt.errorClass = some .nonRetryableBudget then
      .blocking .nonRetryableBudget (attempt.sanitizedError.getD "")
    else
      .thrown

/-- The decision of `advanceResearchPipelineStage`. -/
def Execution.plan (db : Db δ) (e : Execution) (output : StageOutput) :
    Except ServiceError HandlerPhase := do
  let bundle ← loadResearchOrchestrationBundle db e.fence.runStageId
  let advancement ← planAdvancement bundle output
  return .advancing advancement

/-- The next transaction of the handler. -/
def Execution.next (db : Db δ) (e : Execution) : Db δ × HandlerPhase :=
  let runStageId := e.fence.runStageId
  match e.phase with
  | .loading => readOnly db (e.load db)
  | .starting => attempt db (.startRunStage runStageId e.fence) .building
  | .building => readOnly db (e.build db)
  | .preparing key builtAt => readOnly db do
    assertRunStageJobFence db runStageId e.fence
    return .calling key builtAt
  | .recording key input =>
    attempt db (.recordRunStageProviderAttempt runStageId e.fence input) (input.recordedPhase key)
  | .recorded key output => (db, .committing key output)
  | .fencing output => readOnly db do
    assertRunStageJobFence db runStageId e.fence
    return .planning output
  | .planning output => readOnly db (e.plan db output)
  | .advancing .nothing => (db, .returned)
  | .advancing (.alreadyQueued _) => (db, .returned)
  | .advancing (.boundary boundary reason) =>
    attempt db (.setResearchRunBoundary runStageId e.fence boundary reason) .returned
  | .advancing (.queue nextStageId inputReference key) =>
    attempt db (.queueRunStage nextStageId e.fence inputReference key) .returned
  | .blocking errorClass reason =>
    attempt db (.blockRunStage runStageId e.fence errorClass reason) .thrown
  | phase => (db, phase)

/-- An output of the provider, built from the input of the given moment. -/
def ProviderAttempt.builtFrom (attempt : ProviderAttempt) (builtAt : ℕ) : ProviderAttempt :=
  { attempt with
    outputReference := attempt.outputReference.map fun output => { output with builtAt := builtAt } }

/-- What a handler does when it is told something. -/
def Execution.step (db : Db δ) (e : Execution) : HandlerEvent δ → Db δ × HandlerPhase
  | .next => e.next db
  | .answer input =>
    match e.phase with
    | .calling key builtAt => (db, .recording key (input.builtFrom builtAt))
    | phase => (db, phase)
  | .commit domainCommit =>
    match e.phase with
    | .committing key output =>
      attempt db (.commitRunStage e.fence.runStageId e.fence key output domainCommit)
        (.fencing output)
    | phase => (db, phase)
  | .block errorClass reason =>
    match e.phase with
    | .preparing .. | .recorded .. => (db, .blocking errorClass reason)
    | phase => (db, phase)
  | .throw =>
    match e.phase with
    | .returned => (db, .returned)
    | _ => (db, .thrown)

/-! ### What a step does -/

/-- Told `event`, the handler may change the database from `db` and then be in the phase. -/
inductive HandlerStep (db : Db δ) (e : Execution) (event : HandlerEvent δ) :
    Db δ → HandlerPhase → Prop
  | keep : HandlerStep db e event db e.phase
  | throw : HandlerStep db e event db .thrown
  | block (errorClass : JobErrorClass) (reason : String) :
      HandlerStep db e event db (.blocking errorClass reason)
  | load {stage : RunStageRow} (phase : e.phase = .loading)
      (stageRow : db.stages[e.fence.runStageId]? = some stage) (run : stage.runId = e.runId) :
      HandlerStep db e event db .starting
  | replay (output : StageOutput) (phase : e.phase = .loading) : HandlerStep db e event db (.fencing output)
  | start {db' : Db δ} (phase : e.phase = .starting)
      (run : perform db (.startRunStage e.fence.runStageId e.fence) = .ok db') :
      HandlerStep db e event db' .building
  | reuse {stage : RunStageRow} {output : StageOutput} (phase : e.phase = .building)
      (stageRow : db.stages[e.fence.runStageId]? = some stage)
      (stored : stage.outputReference = some output) :
      HandlerStep db e event db (.committing (.stage stage.runId stage.stageId stage.generation) output)
  | build {stage : RunStageRow} (phase : e.phase = .building)
      (stageRow : db.stages[e.fence.runStageId]? = some stage) :
      HandlerStep db e event db
        (.preparing (.stage stage.runId stage.stageId stage.generation) db.commits.length)
  | call {key : CommitKey} {builtAt : ℕ} (phase : e.phase = .preparing key builtAt) :
      HandlerStep db e event db (.calling key builtAt)
  | answer {key : CommitKey} {builtAt : ℕ} (input : ProviderAttempt)
      (phase : e.phase = .calling key builtAt) :
      HandlerStep db e event db (.recording key (input.builtFrom builtAt))
  | record {db' : Db δ} {key : CommitKey} {input : ProviderAttempt}
      (phase : e.phase = .recording key input)
      (run : perform db (.recordRunStageProviderAttempt e.fence.runStageId e.fence input) =
        .ok db') :
      HandlerStep db e event db' (input.recordedPhase key)
  | finish {key : CommitKey} {output : StageOutput} (phase : e.phase = .recorded key output) :
      HandlerStep db e event db (.committing key output)
  | commit {db' : Db δ} {key : CommitKey} {output : StageOutput}
      {domainCommit : δ → Except ServiceError δ} (told : event = .commit domainCommit)
      (phase : e.phase = .committing key output)
      (run : perform db (.commitRunStage e.fence.runStageId e.fence key output domainCommit) =
        .ok db') :
      HandlerStep db e event db' (.fencing output)
  | fence {output : StageOutput} (phase : e.phase = .fencing output)
      (valid : assertRunStageJobFence db e.fence.runStageId e.fence = .ok ()) :
      HandlerStep db e event db (.planning output)
  | plan {output : StageOutput} {bundle : ResearchOrchestrationBundle} {advancement : Advancement}
      (phase : e.phase = .planning output)
      (load : loadResearchOrchestrationBundle db e.fence.runStageId = .ok bundle)
      (plan : planAdvancement bundle output = .ok advancement) :
      HandlerStep db e event db (.advancing advancement)
  | nothing (phase : e.phase = .advancing .nothing) : HandlerStep db e event db .returned
  | alreadyQueued {nextStageId : ℕ} (phase : e.phase = .advancing (.alreadyQueued nextStageId)) :
      HandlerStep db e event db .returned
  | boundary {db' : Db δ} {boundary : RunBoundary} {reason : Option String}
      (phase : e.phase = .advancing (.boundary boundary reason))
      (run : perform db (.setResearchRunBoundary e.fence.runStageId e.fence boundary reason) =
        .ok db') :
      HandlerStep db e event db' .returned
  | queue {db' : Db δ} {nextStageId : ℕ} {inputReference : InputReference} {key : JobKey}
      (phase : e.phase = .advancing (.queue nextStageId inputReference key))
      (run : perform db (.queueRunStage nextStageId e.fence inputReference key) = .ok db') :
      HandlerStep db e event db' .returned
  | blocked {db' : Db δ} {errorClass : JobErrorClass} {reason : String}
      (phase : e.phase = .blocking errorClass reason)
      (run : perform db (.blockRunStage e.fence.runStageId e.fence errorClass reason) = .ok db') :
      HandlerStep db e event db' .thrown

variable {db db' : Db δ} {e : Execution} {op : Op δ} {phase phase' : HandlerPhase}
  {event : HandlerEvent δ}

/-- A transaction of the handler succeeds, or the handler throws. -/
theorem HandlerStep.ofAttempt
    (h : ∀ db', perform db op = .ok db' → HandlerStep db e event db' phase) :
    HandlerStep db e event (attempt db op phase).1 (attempt db op phase).2 := by
  unfold attempt
  split
  · exact h _ ‹_›
  · exact .throw

theorem HandlerStep.ofRead {read : Except ServiceError HandlerPhase}
    (h : ∀ phase, read = .ok phase → HandlerStep db e event db phase) :
    HandlerStep db e event (readOnly db read).1 (readOnly db read).2 := by
  unfold readOnly
  split
  · exact h _ rfl
  · exact .throw

/-- **Going on.**  Every transaction of the handler is one of `HandlerStep`. -/
theorem Execution.next_cases (db : Db δ) (e : Execution) :
    HandlerStep db e .next (e.next db).1 (e.next db).2 := by
  unfold Execution.next
  split
  case h_1 hphase =>
    refine .ofRead fun phase hread => ?_
    simp only [Execution.load, bind_eq_ok, ensure_eq_ok] at hread
    obtain ⟨bundle, hload, _, hrefs, hread⟩ := hread
    split at hread
    · obtain rfl := pure_eq_ok.mp hread
      exact .replay _ hphase
    · obtain rfl := pure_eq_ok.mp hread
      exact .load hphase (loadResearchOrchestrationBundle_ok hload).2.1 hrefs.1
  case h_2 hphase => exact .ofAttempt fun _ => .start hphase
  case h_3 hphase =>
    refine .ofRead fun phase hread => ?_
    simp only [Execution.build, bind_eq_ok] at hread
    obtain ⟨bundle, hload, hread⟩ := hread
    split at hread
    · obtain rfl := pure_eq_ok.mp hread
      exact .reuse hphase (loadResearchOrchestrationBundle_ok hload).2.1 ‹_›
    · obtain rfl := pure_eq_ok.mp hread
      exact .build hphase (loadResearchOrchestrationBundle_ok hload).2.1
  case h_4 hphase =>
    refine .ofRead fun phase hread => ?_
    simp only [bind_eq_ok, pure_eq_ok] at hread
    obtain ⟨_, _, rfl⟩ := hread
    exact .call hphase
  case h_5 hphase => exact .ofAttempt fun _ => .record hphase
  case h_6 hphase => exact .finish hphase
  case h_7 hphase =>
    refine .ofRead fun phase hread => ?_
    simp only [bind_eq_ok, pure_eq_ok] at hread
    obtain ⟨_, hvalid, rfl⟩ := hread
    exact .fence hphase hvalid
  case h_8 hphase =>
    refine .ofRead fun phase hread => ?_
    simp only [Execution.plan, bind_eq_ok, pure_eq_ok] at hread
    obtain ⟨bundle, hload, advancement, hplan, rfl⟩ := hread
    exact .plan hphase hload hplan
  case h_9 hphase => exact .nothing hphase
  case h_10 hphase => exact .alreadyQueued hphase
  case h_11 hphase => exact .ofAttempt fun _ => .boundary hphase
  case h_12 hphase => exact .ofAttempt fun _ => .queue hphase
  case h_13 hphase => exact .ofAttempt fun _ => .blocked hphase
  case h_14 => exact .keep

/-- **Steps.**  Whatever a handler is told, it does what `HandlerStep` allows. -/
theorem Execution.step_cases (db : Db δ) (e : Execution) (event : HandlerEvent δ) :
    HandlerStep db e event (e.step db event).1 (e.step db event).2 := by
  cases event with
  | next => exact e.next_cases db
  | answer input =>
    simp only [Execution.step]
    split
    · exact .answer input ‹_›
    · exact .keep
  | commit domainCommit =>
    simp only [Execution.step]
    split
    · exact .ofAttempt fun _ => .commit rfl ‹_›
    · exact .keep
  | block errorClass reason =>
    simp only [Execution.step]
    split
    · exact .block _ _
    · exact .block _ _
    · exact .keep
  | throw =>
    simp only [Execution.step]
    split
    · rename_i hphase
      rw [← hphase]
      exact .keep
    · exact .throw

end

end ResearchWorkbench
