import ResearchWorkbench.Services.RunStages

namespace ResearchWorkbench

/-!
# Advancing a run past a committed stage

`advanceResearchPipelineStage` of `lib/services/research-orchestrator.ts` reads a bundle in one
transaction and acts on it in another.

* `loadResearchOrchestrationBundle` — what the decision reads;
* `planAdvancement` — the decision;
* `performAdvancement` — the transaction that follows it;
* `advanceResearchPipelineStage` — the three in sequence, undisturbed.
-/

variable {δ : Type}

/-- `ResearchOrchestrationBundle`, as far as advancing a run reads it. -/
structure ResearchOrchestrationBundle where
  runStageId : ℕ
  run : ResearchRunRow
  stage : RunStageRow
  latestStages : AIStage → Option (ℕ × RunStageRow)
  openBlocker : Bool

/-- `loadResearchOrchestrationBundle(runStageId)`. -/
def loadResearchOrchestrationBundle [DomainStore δ] (db : Db δ) (runStageId : ℕ) :
    Except ServiceError ResearchOrchestrationBundle := do
  let stage ← require db.stages[runStageId]? (notFound "Research run stage")
  let run ← require db.runs[stage.runId]? (notFound "Research run stage")
  return {
    runStageId, run, stage
    latestStages := latestStage db.stages stage.runId
    openBlocker := DomainStore.hasOpenBlocker run.projectId db.domain }

/-- `safeStageJobInput({ run, stage, previousStage })`. -/
def safeStageJobInput (bundle : ResearchOrchestrationBundle) (nextStageId : ℕ)
    (nextStage : RunStageRow) : InputReference :=
  .stageJob bundle.run.projectId bundle.stage.runId nextStageId nextStage.stageId
    nextStage.generation bundle.run.scopeRevisionId bundle.run.planRevisionId bundle.runStageId
    (bundle.stage.outputReference.map (·.hash))

/-- What a run does after a stage. -/
inductive Advancement
  /-- The run is cancelling or has stopped. -/
  | nothing
  /-- The run reaches a boundary. -/
  | boundary (boundary : RunBoundary) (reason : Option String)
  /-- The next stage is queued, running or done. -/
  | alreadyQueued (nextStageId : ℕ)
  /-- The next stage is to be queued. -/
  | queue (nextStageId : ℕ) (inputReference : InputReference) (idempotencyKey : JobKey)

/-- The decision of `advanceResearchPipelineStage`. -/
def planAdvancement (bundle : ResearchOrchestrationBundle) (output : StageOutput) :
    Except ServiceError Advancement := do
  ensure (bundle.stage.status = .succeeded)
    (conflict .STAGE_NOT_SUCCEEDED "Commit the stage before advancing the run.")
  let stage := bundle.stage.stageId
  if bundle.run.status ∈ [.cancelling, .cancelled, .failed, .blocked] then
    return .nothing
  else if stage = .qaRevision then
    if bundle.openBlocker || output.blocker then
      return .boundary .blocked
        (some "QA blocker findings require human resolution before approval.")
    else
      return .boundary .approvalRequired none
  else if bundle.run.mode = .draftOnly ∧ stage = .draftGeneration then
    return .boundary .qaRequired
      (some "Draft-only mode stops before QA revision and human approval.")
  else if bundle.run.mode = .assisted then
    return .boundary .paused (some ("Assisted mode requires review after " ++ stage.name ++ "."))
  else
    match nextPipelineStage stage with
    | none => return .boundary .qaRequired none
    | some next =>
      let (nextStageId, nextStage) ← require (bundle.latestStages next)
        (conflict .MISSING_RUN_STAGE "The next pipeline stage was not created.")
      if nextStage.status ∈ [.queued, .running, .succeeded] then
        return .alreadyQueued nextStageId
      else
        return .queue nextStageId (safeStageJobInput bundle nextStageId nextStage)
          (.stage bundle.stage.runId nextStage.stageId
            (if nextStage.status = .stale then nextStage.generation + 1 else nextStage.generation))

/-- The transaction that carries the decision out. -/
def performAdvancement (db : Db δ) (runStageId : ℕ) (fence : RunStageJobFence) :
    Advancement → Except ServiceError (Db δ)
  | .nothing => return db
  | .boundary boundary reason => setResearchRunBoundary db runStageId fence boundary reason
  | .alreadyQueued _ => return db
  | .queue nextStageId inputReference idempotencyKey => do
    let queued ← queueRunStage db nextStageId fence inputReference idempotencyKey
    return queued.db

/-- `advanceResearchPipelineStage({ runStageId, fence, output })`. -/
def advanceResearchPipelineStage [DomainStore δ] (db : Db δ) (runStageId : ℕ)
    (fence : RunStageJobFence) (output : StageOutput) : Except ServiceError (Db δ) := do
  assertRunStageJobFence db runStageId fence
  let bundle ← loadResearchOrchestrationBundle db runStageId
  let advancement ← planAdvancement bundle output
  performAdvancement db runStageId fence advancement

end ResearchWorkbench
