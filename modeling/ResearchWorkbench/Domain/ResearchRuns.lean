import ResearchWorkbench.Domain.Jobs

namespace ResearchWorkbench

/-!
# Research runs — statuses, transitions and the pipeline catalogue

The pure part of research runs (`lib/domain/research-runs.ts`, `lib/execution/stages.ts` and the
budget of `lib/budgets`).

* `ResearchRunStatus`, `RunStageStatus` and their transition tables;
* `AIStage`, `pipelineStageCatalog` — the eleven stages, each depending on the one before it;
* `previousStage`, `nextPipelineStage` — the neighbours of a stage in the catalogue.
-/

/-! ### Statuses -/

/-- `RESEARCH_RUN_STATUSES`. -/
inductive ResearchRunStatus
  | created | waitingForPlanApproval | queued | running | paused | cancelling | cancelled
  | failed | qaRequired | approvalRequired | completed | blocked
  deriving DecidableEq, Repr

/-- `RUN_STAGE_STATUSES`. -/
inductive RunStageStatus
  | pending | queued | running | succeeded | failed | cancelled | blocked | stale
  deriving DecidableEq, Repr

/-- `ResearchRunMode`. -/
inductive ResearchRunMode
  | assisted | orchestrated | draftOnly
  deriving DecidableEq, Repr

/-- `runTransitions`. -/
def ResearchRunStatus.transitions : ResearchRunStatus → List ResearchRunStatus
  | .created => [.waitingForPlanApproval, .queued, .cancelled]
  | .waitingForPlanApproval => [.queued, .cancelled]
  | .queued => [.running, .paused, .cancelling, .cancelled, .failed, .blocked]
  | .running => [.paused, .cancelling, .cancelled, .failed, .qaRequired, .approvalRequired,
      .completed, .blocked]
  | .paused => [.queued, .cancelling, .cancelled]
  | .cancelling => [.cancelled, .failed]
  | .cancelled => [.queued]
  | .failed => [.queued]
  | .qaRequired => [.queued, .running, .approvalRequired, .cancelling, .cancelled, .blocked]
  | .approvalRequired => [.queued, .running, .completed, .cancelling, .cancelled, .blocked]
  | .completed => [.queued]
  | .blocked => [.queued, .cancelling, .cancelled, .failed]

/-- `stageTransitions`. -/
def RunStageStatus.transitions : RunStageStatus → List RunStageStatus
  | .pending => [.queued, .cancelled, .blocked]
  | .queued => [.running, .failed, .cancelled, .blocked]
  | .running => [.succeeded, .failed, .cancelled, .blocked]
  | .succeeded => [.stale]
  | .failed => [.queued, .cancelled]
  | .cancelled => [.queued]
  | .blocked => [.queued, .cancelled]
  | .stale => [.queued, .cancelled]

/-- The name of a run status. -/
def ResearchRunStatus.name : ResearchRunStatus → String
  | .created => "CREATED"
  | .waitingForPlanApproval => "WAITING_FOR_PLAN_APPROVAL"
  | .queued => "QUEUED"
  | .running => "RUNNING"
  | .paused => "PAUSED"
  | .cancelling => "CANCELLING"
  | .cancelled => "CANCELLED"
  | .failed => "FAILED"
  | .qaRequired => "QA_REQUIRED"
  | .approvalRequired => "APPROVAL_REQUIRED"
  | .completed => "COMPLETED"
  | .blocked => "BLOCKED"

/-- The name of a stage status. -/
def RunStageStatus.name : RunStageStatus → String
  | .pending => "PENDING"
  | .queued => "QUEUED"
  | .running => "RUNNING"
  | .succeeded => "SUCCEEDED"
  | .failed => "FAILED"
  | .cancelled => "CANCELLED"
  | .blocked => "BLOCKED"
  | .stale => "STALE"

/-- `canTransitionResearchRun(from, to)`. -/
def canTransitionResearchRun (source target : ResearchRunStatus) : Bool :=
  target ∈ source.transitions

/-- `assertResearchRunTransition(from, to)`. -/
def assertResearchRunTransition (source target : ResearchRunStatus) : Except ServiceError Unit :=
  ensure (canTransitionResearchRun source target)
    (.error ("Research run cannot transition from " ++ source.name ++ " to " ++ target.name ++ "."))

/-- `canTransitionRunStage(from, to)`. -/
def canTransitionRunStage (source target : RunStageStatus) : Bool :=
  target ∈ source.transitions

/-- `assertRunStageTransition(from, to)`. -/
def assertRunStageTransition (source target : RunStageStatus) : Except ServiceError Unit :=
  ensure (canTransitionRunStage source target)
    (.error ("Run stage cannot transition from " ++ source.name ++ " to " ++ target.name ++ "."))

/-- `if (from !== to) assertResearchRunTransition(from, to)`. -/
def assertResearchRunReaches (source target : ResearchRunStatus) : Except ServiceError Unit :=
  if source = target then .ok () else assertResearchRunTransition source target

/-- `if (from !== to) assertRunStageTransition(from, to)`. -/
def assertRunStageReaches (source target : RunStageStatus) : Except ServiceError Unit :=
  if source = target then .ok () else assertRunStageTransition source target

theorem assertResearchRunReaches_eq_ok {source target : ResearchRunStatus} {u : Unit} :
    assertResearchRunReaches source target = .ok u ↔
      source = target ∨ canTransitionResearchRun source target := by
  unfold assertResearchRunReaches assertResearchRunTransition
  split <;> simp_all [ensure_eq_ok]

theorem assertRunStageReaches_eq_ok {source target : RunStageStatus} {u : Unit} :
    assertRunStageReaches source target = .ok u ↔
      source = target ∨ canTransitionRunStage source target := by
  unfold assertRunStageReaches assertRunStageTransition
  split <;> simp_all [ensure_eq_ok]

/-! Which statuses a guard on the target lets through. -/

theorem reaches_running {status : RunStageStatus} :
    (status = .running ∨ canTransitionRunStage status .running) ↔ status ∈ [.queued, .running] := by
  cases status <;> decide

theorem reaches_blocked {status : RunStageStatus} :
    (status = .blocked ∨ canTransitionRunStage status .blocked) ↔
      status ∈ [.pending, .queued, .running, .blocked] := by
  cases status <;> decide

theorem reaches_queued {status : RunStageStatus} :
    (status = .queued ∨ canTransitionRunStage status .queued) ↔
      status ∈ [.pending, .queued, .failed, .cancelled, .blocked, .stale] := by
  cases status <;> decide

theorem reaches_failed {status : RunStageStatus} :
    canTransitionRunStage status .failed ↔ status ∈ [.queued, .running] := by
  cases status <;> decide

/-! ### The pipeline catalogue -/

/-- `AI_STAGES`. -/
inductive AIStage
  | intakeAnalysis | questionDecomposition | researchPlan | sourceSummary | evidenceExtraction
  | claimGeneration | gapDetection | conflictDetection | reportOutline | draftGeneration
  | qaRevision
  deriving DecidableEq, Repr

/-- The name of a stage. -/
def AIStage.name : AIStage → String
  | .intakeAnalysis => "intake_analysis"
  | .questionDecomposition => "question_decomposition"
  | .researchPlan => "research_plan"
  | .sourceSummary => "source_summary"
  | .evidenceExtraction => "evidence_extraction"
  | .claimGeneration => "claim_generation"
  | .gapDetection => "gap_detection"
  | .conflictDetection => "conflict_detection"
  | .reportOutline => "report_outline"
  | .draftGeneration => "draft_generation"
  | .qaRevision => "qa_revision"

/-- `PipelineStageDefinition`.  The prompt and schema versions, which only a provider reads, are
    left out. -/
structure PipelineStageDefinition where
  id : AIStage
  ordinal : ℕ
  dependencies : List AIStage
  timeoutMs : ℕ
  maxAttempts : ℕ
  deriving Repr

/-- `getPipelineStageDefinition(stage)`. -/
def getPipelineStageDefinition : AIStage → PipelineStageDefinition
  | .intakeAnalysis => ⟨.intakeAnalysis, 1, [], 60000, 3⟩
  | .questionDecomposition => ⟨.questionDecomposition, 2, [.intakeAnalysis], 60000, 3⟩
  | .researchPlan => ⟨.researchPlan, 3, [.questionDecomposition], 90000, 3⟩
  | .sourceSummary => ⟨.sourceSummary, 4, [.researchPlan], 90000, 3⟩
  | .evidenceExtraction => ⟨.evidenceExtraction, 5, [.sourceSummary], 120000, 3⟩
  | .claimGeneration => ⟨.claimGeneration, 6, [.evidenceExtraction], 90000, 3⟩
  | .gapDetection => ⟨.gapDetection, 7, [.claimGeneration], 60000, 2⟩
  | .conflictDetection => ⟨.conflictDetection, 8, [.gapDetection], 60000, 2⟩
  | .reportOutline => ⟨.reportOutline, 9, [.conflictDetection], 60000, 3⟩
  | .draftGeneration => ⟨.draftGeneration, 10, [.reportOutline], 120000, 3⟩
  | .qaRevision => ⟨.qaRevision, 11, [.draftGeneration], 90000, 2⟩

/-- The stages in the order of the catalogue. -/
def aiStages : List AIStage :=
  [.intakeAnalysis, .questionDecomposition, .researchPlan, .sourceSummary, .evidenceExtraction,
    .claimGeneration, .gapDetection, .conflictDetection, .reportOutline, .draftGeneration,
    .qaRevision]

/-- `PIPELINE_STAGE_CATALOG`. -/
def pipelineStageCatalog : List PipelineStageDefinition := aiStages.map getPipelineStageDefinition

/-- The ordinal of a stage. -/
def AIStage.ordinal (stage : AIStage) : ℕ := (getPipelineStageDefinition stage).ordinal

/-- `PIPELINE_STAGE_CATALOG.find((item) => item.ordinal === ordinal)`. -/
def pipelineStageAt (ordinal : ℕ) : Option AIStage :=
  (pipelineStageCatalog.find? fun item => item.ordinal = ordinal).map (·.id)

/-- The stage that follows `stage` in the catalogue. -/
def nextPipelineStage (stage : AIStage) : Option AIStage := pipelineStageAt (stage.ordinal + 1)

theorem pipelineStageAt_eq_some {ordinal : ℕ} {stage : AIStage}
    (h : pipelineStageAt ordinal = some stage) : stage.ordinal = ordinal := by
  simp only [pipelineStageAt, pipelineStageCatalog, Option.map_eq_some_iff] at h
  obtain ⟨item, hitem, rfl⟩ := h
  obtain ⟨stage, _, rfl⟩ := List.mem_map.mp (List.mem_of_find?_eq_some hitem)
  have hord := List.find?_some hitem
  simp only [decide_eq_true_eq] at hord
  rw [← hord]
  cases stage <;> rfl

theorem ordinal_nextPipelineStage {stage next : AIStage} (h : nextPipelineStage stage = some next) :
    next.ordinal = stage.ordinal + 1 :=
  pipelineStageAt_eq_some h

theorem ordinal_injective {s s' : AIStage} (h : s.ordinal = s'.ordinal) : s = s' := by
  cases s <;> cases s' <;> first | rfl | exact absurd h (by decide)

theorem mem_aiStages (stage : AIStage) : stage ∈ aiStages := by cases stage <;> decide

/-- The catalogue lists the stages by ordinal: what comes before a stage is what is smaller. -/
theorem mem_of_ordinal_lt {l₁ l₂ : List AIStage} {stage smaller : AIStage}
    (h : aiStages = l₁ ++ stage :: l₂) (hlt : smaller.ordinal < stage.ordinal) : smaller ∈ l₁ := by
  have hsorted : aiStages.Pairwise fun a b => a.ordinal < b.ordinal := by decide
  have hmem := mem_aiStages smaller
  rw [h] at hsorted hmem
  rw [List.pairwise_append, List.pairwise_cons] at hsorted
  simp only [List.mem_append, List.mem_cons] at hmem
  obtain hmem | rfl | hmem := hmem
  · exact hmem
  · omega
  · have := hsorted.2.1.1 smaller hmem
    omega

/-- **The catalogue is a chain.**  A stage depends exactly on the stage it follows. -/
theorem mem_dependencies {stage dep : AIStage} :
    dep ∈ (getPipelineStageDefinition stage).dependencies ↔ nextPipelineStage dep = some stage := by
  cases stage <;> cases dep <;> decide

/-! ### Budgets -/

/-- `CostStatus`. -/
inductive CostStatus
  | known | estimated | unknown
  deriving DecidableEq, Repr

/-- `BudgetSnapshot`.  Counts are naturals, so the sign checks of the source are their type. -/
structure BudgetSnapshot where
  maxProviderRequests : ℕ
  maxSearchRequests : ℕ
  maxInputTokens : ℕ
  maxOutputTokens : ℕ
  maxElapsedMs : ℕ
  maxStageAttempts : ℕ
  maxSources : ℕ
  maxDocumentChunks : ℕ
  maxEstimatedCostUsd : ℚ
  deriving DecidableEq, Repr

/-- `DEFAULT_RUN_BUDGET`. -/
def defaultRunBudget : BudgetSnapshot where
  maxProviderRequests := 40
  maxSearchRequests := 30
  maxInputTokens := 500000
  maxOutputTokens := 100000
  maxElapsedMs := 3600000
  maxStageAttempts := 3
  maxSources := 100
  maxDocumentChunks := 2000
  maxEstimatedCostUsd := 25

/-- `positiveBudgetInteger(value, name)`. -/
def positiveBudgetInteger (value : ℕ) (name : String) : Except ServiceError Unit :=
  ensure (value ≤ maxSafeInteger ∧ 1 ≤ value) (.error (name ++ " must be a positive safe integer."))

/-- `nonNegativeBudgetInteger(value, name)`. -/
def nonNegativeBudgetInteger (value : ℕ) (name : String) : Except ServiceError Unit :=
  ensure (value ≤ maxSafeInteger) (.error (name ++ " must be a non-negative safe integer."))

/-- `validateBudget(value)`. -/
def validateBudget (value : BudgetSnapshot) : Except ServiceError BudgetSnapshot := do
  nonNegativeBudgetInteger value.maxProviderRequests "maxProviderRequests"
  nonNegativeBudgetInteger value.maxSearchRequests "maxSearchRequests"
  nonNegativeBudgetInteger value.maxInputTokens "maxInputTokens"
  nonNegativeBudgetInteger value.maxOutputTokens "maxOutputTokens"
  positiveBudgetInteger value.maxElapsedMs "maxElapsedMs"
  positiveBudgetInteger value.maxStageAttempts "maxStageAttempts"
  nonNegativeBudgetInteger value.maxSources "maxSources"
  nonNegativeBudgetInteger value.maxDocumentChunks "maxDocumentChunks"
  ensure (0 ≤ value.maxEstimatedCostUsd)
    (.error "maxEstimatedCostUsd must be a non-negative finite number.")
  return value

end ResearchWorkbench
