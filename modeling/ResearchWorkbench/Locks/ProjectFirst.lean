import ResearchWorkbench.Services.RowLocks

namespace ResearchWorkbench.RowLocks

/-!
# The project's row is locked first

Which transactions follow the rule that the project is locked before the rows below it, and what
that is good for: transactions that follow it cannot wait for each other in a circle.

* `Below`, `LedBy` — rows of one project, and lock lists that begin with its row;
* `Operation.ledBy`, `Operation.rootFirst` — every operation but two follows the rule;
* `Operation.ClaimFirst` — the two that lock a claim and then its project;
* `lock_order_kept_iff` — no circle, and the project first everywhere, exactly without those two;
* `review_deadlocks_with_commit` — a claim review and a stage commit that wait for each other.
-/

variable {refs : References} {r : Row} {rows rows' next : List Row}

/-! ### Rows of one project -/

/-- All rows have the same root. -/
def Below (refs : References) (r : Row) (rows : List Row) : Prop := ∀ x ∈ rows, refs.root x = r

@[simp] theorem below_nil : Below refs r [] := fun _ h => absurd h List.not_mem_nil

@[simp] theorem below_cons {x : Row} :
    Below refs r (x :: rows) ↔ refs.root x = r ∧ Below refs r rows := by
  simp [Below]

@[simp] theorem below_append :
    Below refs r (rows ++ rows') ↔ Below refs r rows ∧ Below refs r rows' := by
  simp only [Below, List.mem_append]
  exact ⟨fun h => ⟨fun x hx => h x (Or.inl hx), fun x hx => h x (Or.inr hx)⟩,
    fun h x hx => hx.elim (h.1 x) (h.2 x)⟩

theorem below_ite {p : Prop} [Decidable p] (h : p → Below refs r rows)
    (h' : ¬p → Below refs r rows') : Below refs r (if p then rows else rows') := by
  split
  · exact h ‹_›
  · exact h' ‹_›

/-- Rows selected by id. -/
theorem below_map {α : Type} {l : List α} {row : α → Row} (h : ∀ a ∈ l, refs.root (row a) = r) :
    Below refs r (l.map row) := by
  intro x hx
  obtain ⟨a, ha, rfl⟩ := List.mem_map.mp hx
  exact h a ha

theorem below_flatMap {α : Type} {l : List α} {f : α → List Row}
    (h : ∀ a ∈ l, Below refs r (f a)) : Below refs r (l.flatMap f) := by
  intro x hx
  obtain ⟨a, ha, hx⟩ := List.mem_flatMap.mp hx
  exact h a ha x hx

/-- `WHERE project_id = $1`. -/
theorem below_filter {projectId : ℕ} {l : List ℕ} {owner : ℕ → ℕ} {row : ℕ → Row}
    (h : ∀ id, refs.root (row id) = .project (owner id)) :
    Below refs (.project projectId) ((l.filter fun id => owner id = projectId).map row) := by
  refine below_map fun id hid => ?_
  rw [h id, of_decide_eq_true (List.mem_filter.mp hid).2]

/-- The rows are of one project, whose row is the first of them. -/
def LedBy (refs : References) (r : Row) (rows : List Row) : Prop :=
  rows.head? = some r ∧ Below refs r rows

theorem LedBy.append (h : LedBy refs r rows) (h' : Below refs r rows') :
    LedBy refs r (rows ++ rows') :=
  ⟨by rw [List.head?_append, h.1, Option.some_or], below_append.mpr ⟨h.2, h'⟩⟩

theorem ledBy_project {projectId : ℕ} (h : Below refs (.project projectId) rows) :
    LedBy refs (.project projectId) (.project projectId :: rows) :=
  ⟨rfl, below_cons.mpr ⟨rfl, h⟩⟩

/-! ### Jobs -/

section
variable {jobId runId stageId attempt : ℕ}

theorem root_jobAttempt : refs.root (.jobAttempt jobId attempt) = refs.root (.job jobId) := rfl

theorem root_run_of_job (h : runId ∈ refs.jobRun jobId) :
    refs.root (.researchRun runId) = refs.root (.job jobId) := by
  show Row.project (refs.runProject runId) = ownerOr (refs.jobProject jobId) (.job jobId)
  rw [refs.job_run jobId runId h]
  rfl

theorem root_stage_of_job (h : stageId ∈ refs.jobStage jobId) :
    refs.root (.researchRunStage stageId) = refs.root (.job jobId) :=
  root_run_of_job (refs.job_stage jobId stageId h)

theorem root_job_of_run (h : refs.jobRun jobId = some runId) :
    refs.root (.job jobId) = .project (refs.runProject runId) :=
  (root_run_of_job h).symm

/-- **Jobs.**  The lock list of a job begins with the job's project, or with the job where it has
    none. -/
theorem ledBy_lockJobProjectFirst :
    LedBy refs (refs.root (.job jobId)) (lockJobProjectFirst refs jobId) := by
  show LedBy refs (ownerOr (refs.jobProject jobId) (.job jobId)) _
  unfold lockJobProjectFirst
  cases hp : refs.jobProject jobId with
  | none => exact ⟨rfl, by simp [Columns.root, ownerOr, hp]⟩
  | some projectId => exact ⟨rfl, by simp [Columns.root, ownerOr, hp]⟩

theorem below_runOfJob : Below refs (refs.root (.job jobId))
    ((refs.jobRun jobId).toList.map .researchRun) :=
  below_map fun _ h => root_run_of_job (Option.mem_toList.mp h)

theorem below_stageOfJob : Below refs (refs.root (.job jobId))
    ((refs.jobStage jobId).toList.map .researchRunStage) :=
  below_map fun _ h => root_stage_of_job (Option.mem_toList.mp h)

theorem below_lockLinkedResearchState :
    Below refs (refs.root (.job jobId)) (lockLinkedResearchState refs jobId) :=
  below_append.mpr ⟨below_runOfJob, below_stageOfJob⟩

theorem below_reconcileLinkedJobFailure {stageFails runFails : Bool} :
    Below refs (refs.root (.job jobId))
      (reconcileLinkedJobFailure refs jobId stageFails runFails) :=
  below_append.mpr ⟨below_lockLinkedResearchState, below_ite
    (fun _ => below_append.mpr ⟨below_stageOfJob, below_ite (fun _ => below_runOfJob)
      fun _ => below_nil⟩) fun _ => below_nil⟩

theorem below_stagesOfRun {found : List ℕ} :
    Below refs (refs.root (.researchRun runId)) (stagesOfRun refs runId found) := by
  refine below_map fun id hid => ?_
  show Row.project (refs.runProject (refs.stageRun id)) = _
  rw [of_decide_eq_true (List.mem_filter.mp hid).2]
  rfl

theorem below_reconcileLinkedJobCancellation {branch : CancellationBranch} :
    Below refs (refs.root (.job jobId)) (reconcileLinkedJobCancellation refs jobId branch) := by
  refine below_append.mpr
    ⟨below_lockLinkedResearchState, below_ite (fun _ => below_nil) fun _ => ?_⟩
  refine below_append.mpr ⟨below_ite (fun _ => below_runOfJob) fun _ => below_nil, ?_⟩
  refine below_ite (fun _ => ?_) fun _ => below_nil
  refine below_append.mpr ⟨below_ite (fun _ => below_stageOfJob) fun _ => below_nil, ?_⟩
  cases branch.acknowledged with
  | none => exact below_nil
  | some stages =>
    refine below_flatMap fun runId hrun => ?_
    rw [← root_run_of_job (Option.mem_toList.mp hrun)]
    exact below_append.mpr ⟨below_stagesOfRun, below_cons.mpr ⟨rfl, below_nil⟩⟩

theorem AttemptEnd.below_reconcile {outcome : AttemptEnd} :
    Below refs (refs.root (.job jobId)) (outcome.reconcile refs jobId) := by
  cases outcome with
  | retry => exact below_nil
  | dead _ _ => exact below_reconcileLinkedJobFailure
  | cancelled _ => exact below_reconcileLinkedJobCancellation

end

/-! ### Runs, stages and domain effects -/

section
variable {runId runStageId projectId : ℕ}

/-- **Stages.**  The lock list of a stage begins with the project of its run. -/
theorem ledBy_lockStageProjectFirst (runStageId : ℕ) (fence : Option RunStageJobFence)
    (allow : Bool)
    (h : Below refs (.project (refs.runProject (refs.stageRun runStageId))) next) :
    LedBy refs (.project (refs.runProject (refs.stageRun runStageId)))
      (lockStageProjectFirst refs runStageId fence allow next) := by
  refine ledBy_project ?_
  cases fence with
  | none => exact below_cons.mpr ⟨rfl, below_cons.mpr ⟨rfl, h⟩⟩
  | some fence =>
    refine below_ite (fun hfence => ?_) fun _ => below_nil
    exact below_cons.mpr ⟨root_job_of_run hfence.2.1,
      below_cons.mpr ⟨rfl, below_cons.mpr ⟨rfl, h⟩⟩⟩

theorem ledBy_lockRunProjectFirst
    (h : Below refs (.project (refs.runProject runId)) next) :
    LedBy refs (.project (refs.runProject runId)) (lockRunProjectFirst refs runId next) :=
  ledBy_project (below_cons.mpr ⟨rfl, h⟩)

/-- Rows generated by stages of the project. -/
theorem below_markGeneratedDomainEffectsNonCurrent {stageIds : List ℕ} {found : GeneratedRows}
    (h : ∀ id ∈ stageIds, refs.runProject (refs.stageRun id) = projectId) :
    Below refs (.project projectId) (markGeneratedDomainEffectsNonCurrent refs stageIds found) := by
  intro row hrow
  obtain ⟨stageId, hgenerated, hmem⟩ := List.any_eq_true.mp (List.mem_filter.mp hrow).2
  rw [refs.generated_project row stageId hgenerated, h stageId (of_decide_eq_true hmem)]

theorem below_commitResearchStageDomainEffects {stage : AIStage} {effects : StageEffects} :
    Below refs (.project projectId)
      (commitResearchStageDomainEffects refs projectId runStageId stage effects) := by
  refine below_append.mpr ⟨below_ite (fun _ => ?_) fun _ => below_nil, ?_⟩
  · refine below_markGeneratedDomainEffectsNonCurrent fun id hid => ?_
    exact (of_decide_eq_true (List.mem_filter.mp hid).2).1
  · cases stage with
    | gapDetection => exact below_filter fun _ => rfl
    | draftGeneration =>
      refine below_flatMap fun id hid => ?_
      have hproject : refs.root (.deliverable id) = .project projectId :=
        congrArg Row.project (of_decide_eq_true (List.mem_filter.mp hid).2)
      exact below_cons.mpr ⟨hproject, below_cons.mpr ⟨hproject, below_nil⟩⟩
    | _ => exact below_nil

/-- Stage rows of one run. -/
theorem below_staleStages {downstream : List ℕ} :
    Below refs (.project (refs.runProject runId))
      ((downstream.filter fun id => refs.stageRun id = runId).map .researchRunStage) :=
  below_stagesOfRun

theorem runProject_of_stale {downstream : List ℕ} :
    ∀ id ∈ downstream.filter (fun id => refs.stageRun id = runId),
      refs.runProject (refs.stageRun id) = refs.runProject runId := by
  intro id hid
  rw [of_decide_eq_true (List.mem_filter.mp hid).2]

end

/-! ### Documents and reviews -/

section
variable {projectId documentId : ℕ}

theorem below_invalidateDownstreamReview {review : ReviewRows} :
    Below refs (.project projectId) (invalidateDownstreamReview refs projectId review) := by
  refine below_cons.mpr ⟨rfl, below_append.mpr ⟨below_append.mpr ⟨?_, ?_⟩, ?_⟩⟩
  · exact below_filter fun _ => rfl
  · exact below_filter fun _ => rfl
  · exact below_cons.mpr ⟨rfl, below_nil⟩

theorem below_assertDocumentJobFence {fence : Option ℕ} (h : Below refs (.project projectId) next) :
    Below refs (.project projectId) (assertDocumentJobFence refs projectId fence next) := by
  cases fence with
  | none => exact h
  | some jobId =>
    refine below_ite (fun hjob => below_cons.mpr ⟨?_, h⟩) fun _ => below_nil
    show ownerOr (refs.jobProject jobId) (.job jobId) = _
    rw [hjob]
    rfl

theorem root_rawObject (h : refs.documentProject documentId = projectId) :
    refs.root (.storageObject (refs.rawObject documentId)) = .project projectId := by
  show ownerOr (refs.objectProject (refs.rawObject documentId)) _ = _
  rw [refs.rawObject_project, h]
  rfl

theorem root_cleanObject (h : refs.documentProject documentId = projectId) :
    refs.root (.storageObject (refs.cleanObject documentId)) = .project projectId := by
  show ownerOr (refs.objectProject (refs.cleanObject documentId)) _ = _
  rw [refs.cleanObject_project, h]
  rfl

theorem root_extractionArtifact {version : ℕ} (h : refs.documentProject documentId = projectId) :
    refs.root (.storageObject (refs.extractionArtifact documentId version)) =
      .project projectId := by
  show ownerOr (refs.objectProject (refs.extractionArtifact documentId version)) _ = _
  rw [refs.artifact_project, h]
  rfl

theorem below_documentSource (h : refs.documentProject documentId = projectId) :
    Below refs (.project projectId) ((refs.documentSource documentId).toList.map .source) := by
  refine below_map fun id hid => ?_
  show Row.project (refs.sourceProject id) = _
  rw [refs.document_source documentId id (Option.mem_toList.mp hid), h]

/-- **Documents.**  The lock list of a document begins with the project. -/
theorem ledBy_lockDocument
    (h : refs.documentProject documentId = projectId → Below refs (.project projectId) next) :
    LedBy refs (.project projectId) (lockDocument refs projectId documentId next) := by
  refine ledBy_project (below_ite (fun hproject => ?_) fun _ => below_nil)
  exact below_cons.mpr ⟨congrArg Row.project hproject, below_cons.mpr
    ⟨root_rawObject hproject, h hproject⟩⟩

/-- The document and its raw object, between two fences. -/
theorem below_documentRows {fence : Option ℕ} (h : refs.documentProject documentId = projectId) :
    Below refs (.project projectId) (.document documentId ::
      .storageObject (refs.rawObject documentId) ::
        assertDocumentJobFence refs projectId fence []) :=
  below_cons.mpr ⟨congrArg Row.project h, below_cons.mpr ⟨root_rawObject h,
    below_assertDocumentJobFence below_nil⟩⟩

end

/-! ### Every operation -/

/-- The operation locks a claim and afterwards its project: a review of a claim that is there. -/
def Operation.ClaimFirst (refs : References) : Operation → Prop
  | .linkClaimEvidence projectId claimId evidenceId _ _ =>
    refs.claimProject claimId = projectId ∧
      refs.sourceProject (refs.evidenceSource evidenceId) = projectId
  | .updateClaimReview projectId claimId _ => refs.claimProject claimId = projectId
  | _ => False

/-- The operation locks one storage object and nothing else. -/
def Operation.onlyObject : Operation → Option ℕ
  | .deleteClaimed objectId | .markDeleteFailed objectId => some objectId
  | _ => none

theorem Operation.rows_of_onlyObject {op : Operation} {objectId : ℕ}
    (h : op.onlyObject = some objectId) : ∀ x ∈ op.rows refs, x = .storageObject objectId := by
  cases op with
  | deleteClaimed _ | markDeleteFailed _ =>
    cases h
    simp [Operation.rows]
  | _ => cases h

/-- **The rule.**  All operations that wait for more than one storage object, the claim reviews
    apart, lock the root of their rows first, if they lock anything. -/
theorem Operation.ledBy {op : Operation} (hskip : op.skipsLocked = false)
    (hobject : op.onlyObject = none) (hclaim : ¬op.ClaimFirst refs) :
    op.rows refs = [] ∨ ∃ r, LedBy refs r (op.rows refs) := by
  have hjob : ∀ jobId attempt : ℕ, Below refs (refs.root (.job jobId))
      [.job jobId, .jobAttempt jobId attempt] :=
    fun jobId attempt => below_cons.mpr ⟨rfl, below_cons.mpr ⟨root_jobAttempt, below_nil⟩⟩
  cases op with
  | submitJob projectId =>
    cases projectId with
    | none => exact Or.inl rfl
    | some projectId => exact Or.inr ⟨_, ledBy_project below_nil⟩
  | claimJobs _ | claimDeletionCandidates _ => cases hskip
  | startJob jobId attempt | completeJob jobId attempt =>
    exact Or.inr ⟨_, ledBy_lockJobProjectFirst.append (hjob jobId attempt)⟩
  | heartbeatJob jobId | manualRetryJob jobId =>
    exact Or.inr ⟨_, ledBy_lockJobProjectFirst.append (below_cons.mpr ⟨rfl, below_nil⟩)⟩
  | failJob jobId attempt dead =>
    refine Or.inr ⟨_, (ledBy_lockJobProjectFirst.append (hjob jobId attempt)).append ?_⟩
    cases dead with
    | none => exact below_nil
    | some fails => exact below_reconcileLinkedJobFailure
  | requestJobCancellation jobId branch =>
    exact Or.inr ⟨_, (ledBy_lockJobProjectFirst.append (below_cons.mpr ⟨rfl, below_nil⟩)).append
      below_reconcileLinkedJobCancellation⟩
  | acknowledgeJobCancellation jobId attempt branch =>
    exact Or.inr ⟨_, (ledBy_lockJobProjectFirst.append (hjob jobId attempt)).append
      below_reconcileLinkedJobCancellation⟩
  | releaseJobLease jobId attempt cancelled =>
    refine Or.inr ⟨_, (ledBy_lockJobProjectFirst.append (hjob jobId attempt)).append ?_⟩
    cases cancelled with
    | none => exact below_nil
    | some branch => exact below_reconcileLinkedJobCancellation
  | recoverExpiredJob jobId attempt outcome =>
    exact Or.inr ⟨_, (ledBy_lockJobProjectFirst.append (hjob jobId attempt)).append
      outcome.below_reconcile⟩
  | assertRunStageJobFence runStageId fence =>
    exact Or.inr ⟨_, ledBy_lockStageProjectFirst runStageId (some fence) false below_nil⟩
  | startRunStage runStageId fence queued =>
    refine Or.inr ⟨_, ledBy_lockStageProjectFirst runStageId (some fence) false
      (below_append.mpr ⟨below_cons.mpr ⟨rfl, ?_⟩, ?_⟩)⟩
    · exact below_ite (fun _ => below_cons.mpr ⟨rfl, below_nil⟩) fun _ => below_nil
    · exact below_cons.mpr ⟨rfl, below_nil⟩
  | recordRunStageProviderAttempt runStageId fence | blockRunStage runStageId fence
  | failRunStage runStageId fence =>
    exact Or.inr ⟨_, ledBy_lockStageProjectFirst runStageId (some fence) false
      (below_cons.mpr ⟨rfl, below_cons.mpr ⟨rfl, below_nil⟩⟩)⟩
  | queueRunStage runStageId fence stale =>
    exact Or.inr ⟨_, ledBy_lockStageProjectFirst runStageId (some fence) true
      (below_ite (fun _ => below_nil) fun _ => below_cons.mpr ⟨rfl, below_nil⟩)⟩
  | commitRunStage runStageId fence stage effects =>
    exact Or.inr ⟨_, ledBy_lockStageProjectFirst runStageId (some fence) false (below_append.mpr
      ⟨below_commitResearchStageDomainEffects,
        below_cons.mpr ⟨rfl, below_cons.mpr ⟨rfl, below_nil⟩⟩⟩)⟩
  | setResearchRunBoundary runStageId fence =>
    exact Or.inr ⟨_, ledBy_lockStageProjectFirst runStageId (some fence) false
      (below_cons.mpr ⟨rfl, below_nil⟩)⟩
  | markDownstreamStagesStale runStageId downstream generated =>
    refine Or.inr ⟨_, ledBy_lockStageProjectFirst runStageId none false ?_⟩
    simp only [below_append, below_cons, below_nil, and_true]
    exact ⟨⟨⟨below_staleStages, below_staleStages⟩,
      below_markGeneratedDomainEffectsNonCurrent runProject_of_stale⟩, rfl⟩
  | restartRunStage runStageId latest downstream generated =>
    refine Or.inr ⟨_, ledBy_lockStageProjectFirst runStageId none false ?_⟩
    simp only [below_append, below_cons, below_nil, and_true]
    refine ⟨⟨⟨⟨below_stagesOfRun, below_staleStages⟩, below_staleStages⟩,
      below_markGeneratedDomainEffectsNonCurrent fun id hid => ?_⟩, rfl⟩
    rcases List.mem_cons.mp hid with rfl | hid
    · rfl
    · exact runProject_of_stale id hid
  | captureApprovalRevision projectId | createResearchRun projectId =>
    exact Or.inr ⟨.project projectId, by simp [LedBy, Operation.rows, Columns.root]⟩
  | requestResearchRunCancellation runId jobs cancellable stages openStages =>
    have hlinked : ∀ jobId ∈ jobs.filter (fun jobId => refs.jobRun jobId = some runId),
        refs.root (.job jobId) = .project (refs.runProject runId) := fun jobId hjobId =>
      root_job_of_run (of_decide_eq_true (List.mem_filter.mp hjobId).2)
    refine Or.inr ⟨_, ledBy_lockRunProjectFirst ?_⟩
    simp only [below_append]
    refine ⟨⟨⟨below_flatMap fun jobId hjobId => ?_, below_map fun id hid => ?_⟩,
      below_flatMap fun found _ => below_stagesOfRun⟩, below_cons.mpr ⟨rfl, below_nil⟩⟩
    · rw [← hlinked jobId hjobId]
      exact below_append.mpr ⟨ledBy_lockJobProjectFirst.2,
        below_ite (fun _ => below_cons.mpr ⟨rfl, below_nil⟩) fun _ => below_nil⟩
    · obtain ⟨jobId, hjobId, hstage⟩ := List.any_eq_true.mp (List.mem_filter.mp hid).2
      rw [root_stage_of_job (of_decide_eq_true hstage), hlinked jobId hjobId]
  | finalizeResearchRunCancellation runId stages =>
    exact Or.inr ⟨_, ledBy_lockRunProjectFirst
      (below_append.mpr ⟨below_stagesOfRun, below_cons.mpr ⟨rfl, below_nil⟩⟩)⟩
  | resumeResearchRun runId runStageId =>
    exact Or.inr ⟨_, ledBy_lockRunProjectFirst
      (below_append.mpr ⟨below_stagesOfRun, below_cons.mpr ⟨rfl, below_nil⟩⟩)⟩
  | enqueueDocumentScan projectId documentId =>
    exact Or.inr ⟨_, ledBy_lockDocument fun _ => below_nil⟩
  | enqueueDocumentExtraction projectId documentId parentJob =>
    refine Or.inr ⟨_, ledBy_project (below_assertDocumentJobFence
      (below_ite (fun hproject => ?_) fun _ => below_nil))⟩
    exact below_documentRows hproject
  | startScan projectId documentId fence =>
    exact Or.inr ⟨_, ledBy_lockDocument fun hproject => below_assertDocumentJobFence
      (below_cons.mpr ⟨congrArg Row.project hproject, below_assertDocumentJobFence below_nil⟩)⟩
  | finishScan projectId documentId fence clean =>
    refine Or.inr ⟨_, ledBy_lockDocument fun hproject => below_assertDocumentJobFence ?_⟩
    simp only [below_append, below_cons]
    refine ⟨below_ite (fun _ => ?_) fun _ => below_nil, congrArg Row.project hproject,
      root_rawObject hproject, below_ite (fun _ => below_documentSource hproject)
        fun _ => below_nil, below_assertDocumentJobFence below_nil⟩
    exact below_cons.mpr ⟨root_cleanObject hproject, below_nil⟩
  | startExtraction projectId documentId fence
  | recordExtractionFailure projectId documentId fence =>
    exact Or.inr ⟨_, ledBy_lockDocument fun hproject => below_assertDocumentJobFence
      (below_documentRows hproject)⟩
  | finishOcrRequired projectId documentId version fence =>
    exact Or.inr ⟨_, ledBy_lockDocument fun hproject => below_assertDocumentJobFence
      (below_cons.mpr ⟨root_extractionArtifact hproject, below_documentRows hproject⟩)⟩
  | finishExtraction projectId documentId version fence anchors evidence review =>
    refine Or.inr ⟨_, ledBy_lockDocument fun hproject => below_assertDocumentJobFence ?_⟩
    simp only [below_append, below_cons, below_nil, and_true]
    refine ⟨root_extractionArtifact hproject, ⟨⟨⟨⟨below_map fun id hid => ?_,
      below_map fun id hid => ?_⟩, below_documentSource hproject⟩,
      congrArg Row.project hproject, root_rawObject hproject⟩, below_invalidateDownstreamReview⟩,
      below_assertDocumentJobFence below_nil⟩
    · show Row.project (refs.documentProject (refs.anchorDocument id)) = _
      rw [of_decide_eq_true (List.mem_filter.mp hid).2, hproject]
    · -- evidence that cites an anchor of the document
      have hcites := (List.mem_filter.mp hid).2
      rcases hanchor : refs.evidenceAnchor id with _ | anchorId
      · simp [hanchor] at hcites
      · have hdocument : refs.anchorDocument anchorId = documentId := by
          simpa [hanchor] using hcites
        show Row.project (refs.sourceProject (refs.evidenceSource id)) = _
        rw [refs.evidence_anchor id anchorId hanchor, hdocument, hproject]
  | deleteClaimed _ | markDeleteFailed _ => cases hobject
  | runApprovalAction projectId action deliverable run =>
    refine Or.inr ⟨_, (ledBy_project ?_).append (below_cons.mpr ⟨rfl, below_nil⟩)⟩
    cases action with
    | request | deliver => exact below_cons.mpr ⟨rfl, below_nil⟩
    | approve _ =>
      exact below_cons.mpr ⟨rfl, below_append.mpr
        ⟨below_filter fun _ => rfl, below_filter fun _ => rfl⟩⟩
  | runProjectQa projectId review findings =>
    refine Or.inr ⟨_, ledBy_project ?_⟩
    simp only [below_append]
    exact ⟨⟨⟨below_invalidateDownstreamReview, below_filter fun _ => rfl⟩,
      below_cons.mpr ⟨rfl, below_nil⟩⟩, below_cons.mpr ⟨rfl, below_nil⟩⟩
  | resolveQaFinding projectId findingId review =>
    refine Or.inr ⟨_, ledBy_project (below_ite (fun hproject => ?_) fun _ => below_nil)⟩
    have hfinding : refs.root (.qaFinding findingId) = .project projectId :=
      congrArg Row.project hproject
    simp only [below_append, below_cons, below_nil, and_true]
    exact ⟨hfinding, ⟨below_invalidateDownstreamReview, hfinding, rfl⟩,
      below_cons.mpr ⟨rfl, below_nil⟩⟩
  | addClaim projectId review =>
    exact Or.inr ⟨.project projectId, rfl, below_append.mpr
      ⟨below_invalidateDownstreamReview, below_cons.mpr ⟨rfl, below_nil⟩⟩⟩
  | linkClaimEvidence projectId claimId evidenceId linked review => exact Or.inl (if_neg hclaim)
  | updateClaimReview projectId claimId review => exact Or.inl (if_neg hclaim)
  | addFinding projectId review =>
    exact Or.inr ⟨.project projectId, rfl, below_invalidateDownstreamReview⟩

/-- A list of rows led by their root is a plan that takes the root first. -/
theorem LedBy.rootFirst (h : LedBy refs r rows) : RootFirst refs.root (rows.map .wait) := by
  obtain ⟨hhead, hbelow⟩ := h
  obtain ⟨rest, rfl⟩ := List.head?_eq_some_iff.mp hhead
  refine Or.inr (Or.inr ⟨r, rest.map .wait, rfl, fun q hq => ?_⟩)
  obtain ⟨x, hx, rfl⟩ := List.mem_map.mp hq
  exact hbelow x hx

/-- Every operation follows the discipline, the claim reviews apart. -/
theorem Operation.rootFirst {op : Operation} (hclaim : ¬op.ClaimFirst refs) :
    RootFirst refs.root (op.plan refs) := by
  unfold Operation.plan
  cases hskip : op.skipsLocked with
  | true =>
    refine Or.inl fun q hq => ?_
    obtain ⟨x, -, rfl⟩ := List.mem_map.mp hq
    rfl
  | false =>
    rcases hobject : op.onlyObject with _ | objectId
    · rcases Operation.ledBy hskip hobject hclaim with hnil | ⟨r, hled⟩
      · rw [hnil]
        exact Or.inl fun q hq => absurd hq List.not_mem_nil
      · exact hled.rootFirst
    · refine Or.inr (Or.inl ⟨.storageObject objectId, fun q hq => ?_⟩)
      obtain ⟨x, hx, rfl⟩ := List.mem_map.mp hq
      rw [Operation.rows_of_onlyObject hobject x hx]
      rfl

/-! ### The project first -/

/-- **The project first.**  A transaction that locks a project's row locks it before all other
    rows. -/
def ProjectFirst (plan : List (LockRequest Row)) : Prop :=
  ∀ projectId, .wait (.project projectId) ∈ plan → plan.head? = some (.wait (.project projectId))

/-- The discipline puts the project first. -/
theorem projectFirst_of_rootFirst {plan : List (LockRequest Row)}
    (h : RootFirst refs.root plan) : ProjectFirst plan := by
  intro projectId hmem
  rcases h with hfree | ⟨r, hsingle⟩ | ⟨r, rest, hplan, hroot⟩
  · exact absurd (hfree _ hmem) (by simp)
  · rcases plan with _ | ⟨q, plan⟩
    · cases hmem
    · obtain rfl := LockRequest.wait.inj (hsingle _ hmem)
      rw [hsingle q List.mem_cons_self]
      rfl
  · obtain rfl : Row.project projectId = r := hroot _ hmem
    rw [hplan]
    rfl

/-- A claim review does not. -/
theorem Operation.ClaimFirst.not_projectFirst {op : Operation} (h : op.ClaimFirst refs) :
    ¬ProjectFirst (op.plan refs) := by
  intro hfirst
  cases op with
  | linkClaimEvidence projectId claimId evidenceId linked review =>
    obtain ⟨hclaim, hevidence⟩ := h
    have hproject := hfirst projectId
    cases linked
    all_goals
      simp [Operation.plan, Operation.rows, Operation.skipsLocked, hclaim, hevidence,
        invalidateDownstreamReview] at hproject
  | updateClaimReview projectId claimId review =>
    have hproject := hfirst projectId
    have hclaim : refs.claimProject claimId = projectId := h
    simp [Operation.plan, Operation.rows, Operation.skipsLocked, hclaim,
      invalidateDownstreamReview] at hproject
  | _ => cases h

/-- The plans of the operations that may be running. -/
def plansOf (refs : References) (operations : Set Operation) : Set (List (LockRequest Row)) :=
  {plan | ∃ op ∈ operations, op.plan refs = plan}

/-- **No circle, project first.**  In no state that a run of the operations reaches is there a
    cycle of transactions that wait for each other, and each of them locks a project before the
    rows below it. -/
def LockOrderKept (refs : References) (operations : Set Operation) : Prop :=
  (∀ t, Reach lockStep (StartsWith (plansOf refs operations)) [] t → ¬Deadlocked t) ∧
    ∀ op ∈ operations, ProjectFirst (op.plan refs)

/-- **The lock order.**  Any set of operations, run concurrently any number of times, keeps the
    lock order exactly if no `linkClaimEvidence` and no `updateClaimReview` of a claim that is
    there is among them. -/
theorem lock_order_kept_iff (refs : References) (operations : Set Operation) :
    LockOrderKept refs operations ↔ ∀ op ∈ operations, ¬op.ClaimFirst refs := by
  constructor
  · intro h op hop hclaim
    exact hclaim.not_projectFirst (h.2 op hop)
  · intro h
    have hroot : ∀ plan ∈ plansOf refs operations, RootFirst refs.root plan := by
      rintro plan ⟨op, hop, rfl⟩
      exact Operation.rootFirst (h op hop)
    exact ⟨fun t ht => ht.not_deadlocked hroot,
      fun op hop => projectFirst_of_rootFirst (hroot _ ⟨op, hop, rfl⟩)⟩

/-! ### A review during a commit -/

/-- One project with one run; stage row 0 generated claim 0, and job 0 executes stage row 1. -/
def oneProject : References where
  runProject _ := 0
  stageRun _ := 0
  jobProject _ := some 0
  jobRun _ := some 0
  jobStage _ := some 1
  documentProject _ := 0
  documentSource _ := none
  rawObject _ := 0
  cleanObject _ := 1
  extractionArtifact _ _ := 2
  objectProject _ := some 0
  anchorDocument _ := 0
  sourceProject _ := 0
  evidenceSource _ := 0
  evidenceAnchor _ := none
  claimProject _ := 0
  findingProject _ := 0
  qaFindingProject _ := 0
  questionProject _ := 0
  deliverableProject _ := 0
  exportProject _ := 0
  generatedBy row := if row = .claim 0 then [0] else []
  job_run _ _ _ := rfl
  job_stage _ _ _ := rfl
  document_source _ _ _ := rfl
  rawObject_project _ := rfl
  cleanObject_project _ := rfl
  artifact_project _ _ := rfl
  evidence_anchor _ _ _ := rfl
  generated_project row stageId h := by
    split at h
    · rename_i hrow
      rw [hrow]
      rfl
    · cases h

/-- The commit of a new generation of the claims, which supersedes claim 0. -/
def supersedingCommit : Operation :=
  .commitRunStage 1 { jobId := 0, runStageId := 1, attempt := 1, workerId := 7 } .claimGeneration
    { prior := [0], generated := { claims := [0] }, questions := [], deliverable := none }

/-- An operator takes claim 0 out of the report. -/
def claimReview : Operation := .updateClaimReview 0 0 {}

/-- The commit locks the project, the job, the run and the stage; the review locks the claim. -/
def reviewDuringCommit : List (LockAction Row) :=
  [.start (supersedingCommit.plan oneProject), .start (claimReview.plan oneProject),
    .advance 0, .advance 0, .advance 0, .advance 0, .advance 1, .advance 1]

/-- The two transactions afterwards. -/
theorem reviewDuringCommit_sessions :
    reviewDuringCommit.foldl lockStep [] =
      [{ held := [.researchRunStage 1, .researchRun 0, .job 0, .project 0],
         plan := [.wait (.claim 0), .wait (.researchRunStage 1), .wait (.researchRun 0)] },
       { held := [.claim 0, .claim 0],
         plan := [.wait (.project 0), .wait (.project 0), .wait (.project 0)] }] := by
  decide

/-- **The circle.**  A stage commit that has locked the project waits for the claim that a review
    has locked, and the review waits for the project. -/
theorem review_deadlocks_with_commit :
    (∃ t, Reach lockStep (StartsWith (plansOf oneProject {supersedingCommit, claimReview})) [] t ∧
      Deadlocked t) ∧ ¬ProjectFirst (claimReview.plan oneProject) := by
  refine ⟨⟨_, Reach.ofTrace (l := reviewDuringCommit) ?_, ?_⟩, ?_⟩
  · exact ⟨⟨_, Or.inl rfl, rfl⟩, ⟨_, Or.inr rfl, rfl⟩, trivial, trivial, trivial, trivial, trivial,
      trivial, trivial⟩
  · rw [reviewDuringCommit_sessions]
    refine ⟨0, .tail (.single (b := 1) ?_) ?_⟩
    · exact ⟨_, _, .claim 0, rfl, rfl, by decide, rfl, by decide⟩
    · exact ⟨_, _, .project 0, rfl, rfl, by decide, rfl, by decide⟩
  · exact fun h => absurd (h 0 (by decide)) (by decide)

end ResearchWorkbench.RowLocks
