import ResearchWorkbench.Store.Research

namespace ResearchWorkbench.Workflow

/-!
# Projects, their plans, and their approvals

* `ScopeContent`, `PlanContent`, `ResearchProject`, `ResearchQuestion`, `ResearchPlan` — the tables;
* `createProject`, `updateProjectScope`, `approveScope`, `approvePlan` — `lib/services/projects.ts`;
* `addResearchQuestion`, `updateResearchQuestion`, `addResearchPlan` — `lib/services/workflow.ts`;
* `ApprovalSnapshot`, `ensureApprovalRevision`, `captureApprovalRevision` —
  `lib/services/approval-revisions.ts`;
* `invalidateDownstreamReview`, `runProjectQa`, `resolveQaFinding`, `runApprovalAction` — the review.

Every transaction first locks its project (`SELECT … FOR UPDATE`) and writes rows of this project
only, so it is a function of the tables.  The id of a row is its position.
-/

/-! ### Tables -/

/-- `research_projects.status`. -/
inductive ProjectStatus
  | intake | scoping | planning | researching | synthesizing | qa | approvalRequired | approved
  | delivered | archived
  deriving DecidableEq, Repr

/-- `research_projects.approval_status`. -/
inductive ProjectApprovalStatus
  | notRequested | pending | approved | rejected
  deriving DecidableEq, Repr

/-- The columns of `scopeSnapshot`. -/
structure ScopeContent where
  coreQuestion : String
  background : Option String
  purpose : String
  audience : String
  scope : String
  exclusions : Option String
  jurisdiction : Option String
  researchDate : String
  sourceMaxAgeDays : ℕ
  deadline : Option String
  deliverableFormats : List String
  specialRequirements : Option String
  deriving DecidableEq, Repr

/-- A row of `research_projects`, and the scope that was approved last, which is not a column. -/
structure ResearchProject where
  scope : ScopeContent
  status : ProjectStatus := .intake
  approvalStatus : ProjectApprovalStatus := .notRequested
  scopeApprovedAt : Option ℕ := none
  planApprovedAt : Option ℕ := none
  qaPassedAt : Option ℕ := none
  approvedAt : Option ℕ := none
  deliveredAt : Option ℕ := none
  scopeApprovedRevisionId : Option ℕ := none
  planApprovedRevisionId : Option ℕ := none
  approvedScope : Option ScopeContent := none
  deriving DecidableEq, Repr

/-- `research_questions.status`. -/
inductive QuestionStatus
  | open | planned | researching | complete | blocked
  deriving DecidableEq, Repr

/-- `research_questions.priority`. -/
inductive QuestionPriority
  | critical | high | medium | low
  deriving DecidableEq, Repr

/-- A row of `research_questions`. -/
structure ResearchQuestion where
  projectId : ℕ
  parentId : Option ℕ
  question : String
  priority : QuestionPriority
  completionCriteria : String
  researchGap : Option String
  gapStatus : GapStatus
  status : QuestionStatus := .open
  deriving DecidableEq, Repr

/-- What a plan says. -/
structure PlanContent where
  searchStrategy : String
  searchQueries : List String
  primarySourceTypes : List String
  secondarySourceTypes : List String
  comparisonTargets : List String
  expectedOutput : String
  completionCondition : String
  expectedRisks : List String
  researchGap : Option String
  deriving DecidableEq, Repr

/-- A row of `research_plans`, and the content that was approved last, which is not a column. -/
structure ResearchPlan where
  projectId : ℕ
  questionId : ℕ
  content : PlanContent
  assignedStage : String := "RESEARCHING"
  aiSuggested : Bool
  humanApproved : Bool := false
  approvedAt : Option ℕ := none
  approvedContent : Option PlanContent := none
  deriving DecidableEq, Repr

/-- A plan in a snapshot. -/
structure PlanSnapshot where
  id : ℕ
  content : PlanContent
  assignedStage : String
  humanApproved : Bool
  approvedAt : Option ℕ
  deriving DecidableEq, Repr

/-- A question in a snapshot. -/
structure QuestionSnapshot where
  id : ℕ
  parentId : Option ℕ
  question : String
  priority : QuestionPriority
  completionCriteria : String
  plan : Option PlanSnapshot
  deriving DecidableEq, Repr

/-- `ApprovalRevisionKind`. -/
inductive ApprovalRevisionKind
  | scope | plan
  deriving DecidableEq, Repr

/-- `approval_revisions.snapshot`. -/
inductive ApprovalSnapshot
  | scope (content : ScopeContent)
  | plan (questions : List QuestionSnapshot)
  deriving DecidableEq, Repr

/-- `inputHash`, which tells snapshots apart. -/
structure SnapshotHashing where
  inputHash : ApprovalSnapshot → ℕ
  inputHash_injective : Function.Injective inputHash

/-- A row of `approval_revisions`. -/
structure ApprovalRevision where
  projectId : ℕ
  kind : ApprovalRevisionKind
  revisionNumber : ℕ
  snapshot : ApprovalSnapshot
  contentHash : ℕ
  approvedAt : ℕ
  deriving DecidableEq, Repr

/-- A row of `qa_findings`; a row that is deleted is marked. -/
structure ProjectQaFinding where
  projectId : ℕ
  isBlocker : Bool
  resolutionStatus : ResolutionStatus := .open
  isCurrent : Bool := true
  byQaEngine : Bool := true
  isDeleted : Bool := false
  deriving DecidableEq, Repr

/-- The tables. -/
structure WorkflowTables where
  projects : List ResearchProject
  questions : List ResearchQuestion
  plans : List ResearchPlan
  revisions : List ApprovalRevision
  qaFindings : List ProjectQaFinding
  deriving DecidableEq, Repr

/-- `UPDATE research_projects … WHERE id = $1`. -/
def WorkflowTables.updateProject (db : WorkflowTables) (projectId : ℕ)
    (f : ResearchProject → ResearchProject) : WorkflowTables :=
  { db with projects := db.projects.modify projectId f }

/-- `SELECT … FROM research_projects WHERE id = $1 FOR UPDATE`. -/
def WorkflowTables.lockProject (db : WorkflowTables) (projectId : ℕ) :
    Except ServiceError ResearchProject :=
  require db.projects[projectId]? (notFound "Project")

/-! ### Review state -/

/-- The statuses from which the review starts anew. -/
def ProjectStatus.isReview : ProjectStatus → Bool
  | .qa | .approvalRequired | .approved | .delivered => true
  | _ => false

/-- `invalidateDownstreamReview(client, projectId, fallbackStatus)` on the project. -/
def ResearchProject.invalidate (project : ResearchProject) (fallbackStatus : ProjectStatus) :
    ResearchProject :=
  { project with
    qaPassedAt := none
    approvalStatus := .notRequested
    approvedAt := none
    deliveredAt := none
    status := if project.status.isReview then fallbackStatus else project.status }

/-- `invalidateDownstreamReview(client, projectId, fallbackStatus)`. -/
def invalidateDownstreamReview (projectId : ℕ) (fallbackStatus : ProjectStatus)
    (db : WorkflowTables) : WorkflowTables :=
  db.updateProject projectId (·.invalidate fallbackStatus)

/-! ### Projects -/

/-- `value || null`. -/
def emptyToNull (value : String) : Option String := if value = "" then none else some value

/-- `ProjectIntake`, as far as it is scope. -/
structure ProjectIntake where
  coreQuestion : String
  background : String
  purpose : String
  audience : String
  scope : String
  exclusions : String
  jurisdiction : String
  researchDate : String
  sourceMaxAgeDays : ℕ
  deadline : Option String
  deliverableFormats : List String
  specialRequirements : String
  deriving DecidableEq, Repr

/-- The scope that `createProject` writes. -/
def ProjectIntake.scopeContent (input : ProjectIntake) : ScopeContent where
  coreQuestion := input.coreQuestion
  background := emptyToNull input.background
  purpose := input.purpose
  audience := input.audience
  scope := input.scope
  exclusions := emptyToNull input.exclusions
  jurisdiction := emptyToNull input.jurisdiction
  researchDate := input.researchDate
  sourceMaxAgeDays := input.sourceMaxAgeDays
  deadline := input.deadline
  deliverableFormats := input.deliverableFormats
  specialRequirements := emptyToNull input.specialRequirements

/-- `createProject(input)`. -/
def createProject (input : ProjectIntake) (db : WorkflowTables) : WorkflowTables :=
  { db with projects := db.projects ++ [{ scope := input.scopeContent }] }

/-- `projectScopeUpdateSchema`. -/
structure ProjectScopeUpdate where
  coreQuestion : Option String := none
  background : Option String := none
  purpose : Option String := none
  audience : Option String := none
  scope : Option String := none
  exclusions : Option String := none
  jurisdiction : Option String := none
  researchDate : Option String := none
  sourceMaxAgeDays : Option ℕ := none
  deadline : Option String := none
  specialRequirements : Option String := none
  deriving DecidableEq, Repr

/-- `input.x ?? current.x`, column by column. -/
def ProjectScopeUpdate.apply (input : ProjectScopeUpdate) (current : ScopeContent) :
    ScopeContent where
  coreQuestion := input.coreQuestion.getD current.coreQuestion
  background := input.background <|> current.background
  purpose := input.purpose.getD current.purpose
  audience := input.audience.getD current.audience
  scope := input.scope.getD current.scope
  exclusions := input.exclusions <|> current.exclusions
  jurisdiction := input.jurisdiction <|> current.jurisdiction
  researchDate := input.researchDate.getD current.researchDate
  sourceMaxAgeDays := input.sourceMaxAgeDays.getD current.sourceMaxAgeDays
  deadline := input.deadline <|> current.deadline
  deliverableFormats := current.deliverableFormats
  specialRequirements := input.specialRequirements <|> current.specialRequirements

/-- `updateProjectScope(projectId, input)`. -/
def updateProjectScope (projectId : ℕ) (input : ProjectScopeUpdate) (db : WorkflowTables) :
    Except ServiceError WorkflowTables := do
  let _ ← db.lockProject projectId
  let db := db.updateProject projectId fun project => { project with
    scope := input.apply project.scope
    scopeApprovedAt := none
    planApprovedAt := none
    qaPassedAt := none
    approvedAt := none
    approvalStatus := .notRequested
    status := .scoping }
  let db := { db with
    plans := updateWhere (fun _ plan => plan.projectId = projectId)
      (fun plan => { plan with humanApproved := false, approvedAt := none }) db.plans }
  return invalidateDownstreamReview projectId .researching db

/-- `approveScope(projectId)`. -/
def approveScope (projectId now : ℕ) (db : WorkflowTables) :
    Except ServiceError WorkflowTables := do
  let project ← db.lockProject projectId
  ensure (project.status ∈ [ProjectStatus.intake, .scoping])
    (conflict .INVALID_PROJECT_STATE "Scope approval is only allowed during intake or scoping.")
  return db.updateProject projectId fun project => { project with
    scopeApprovedAt := some now
    status := .planning
    approvedScope := some project.scope }

/-- `LEFT JOIN research_plans rp ON rp.question_id = rq.id AND rp.project_id = rq.project_id`. -/
def WorkflowTables.planOf (db : WorkflowTables) (questionId projectId : ℕ) :
    Option (ℕ × ResearchPlan) :=
  findRow (fun plan => plan.questionId = questionId && plan.projectId = projectId) db.plans

/-- `planReadiness`: the project has questions, and each of them has an approved plan. -/
def WorkflowTables.isPlanReady (db : WorkflowTables) (projectId : ℕ) : Bool :=
  let ids := idsWhere (fun _ question => question.projectId = projectId) db.questions
  decide (0 < ids.length) &&
    decide (ids.countP (fun id => (db.planOf id projectId).isNone) = 0) &&
    decide (ids.countP (fun id =>
      (db.planOf id projectId).any fun (_, plan) => !plan.humanApproved) = 0)

/-- A plan is approved. -/
def ResearchPlan.approve (plan : ResearchPlan) (now : ℕ) : ResearchPlan :=
  { plan with humanApproved := true, approvedAt := some now, approvedContent := some plan.content }

/-- The `UPDATE research_plans` of `approvePlan`. -/
def approvePlans (projectId : ℕ) (planId : Option ℕ) (now : ℕ) (db : WorkflowTables) :
    Except ServiceError WorkflowTables :=
  match planId with
  | some planId => do
    ensure (db.plans[planId]?.any (·.projectId = projectId)) (notFound "Research plan")
    return { db with plans := db.plans.modify planId (·.approve now) }
  | none =>
    return { db with
      plans := updateWhere (fun _ plan => plan.projectId = projectId) (·.approve now) db.plans }

/-- `approvePlan(projectId, planId)`. -/
def approvePlan (projectId : ℕ) (planId : Option ℕ) (now : ℕ) (db : WorkflowTables) :
    Except ServiceError WorkflowTables := do
  let project ← db.lockProject projectId
  ensure (project.status ∈ [ProjectStatus.planning, .researching])
    (conflict .INVALID_PROJECT_STATE "Plan approval is only allowed during planning or research.")
  ensure project.scopeApprovedAt.isSome
    (conflict .SCOPE_APPROVAL_REQUIRED "Approve the scope before approving a plan.")
  let db ← approvePlans projectId planId now db
  if db.isPlanReady projectId then
    return db.updateProject projectId fun project => { project with
      planApprovedAt := some now, status := .researching }
  else do
    ensure planId.isSome
      (conflict .PLAN_INCOMPLETE "Every research question must have a human-approved plan.")
    return db

/-! ### Questions and plans -/

/-- `researchQuestionSchema`. -/
structure ResearchQuestionInput where
  parentId : Option ℕ
  question : String
  priority : QuestionPriority
  completionCriteria : String
  researchGap : Option String
  deriving DecidableEq, Repr

/-- The question is one of the project. -/
def WorkflowTables.hasQuestion (db : WorkflowTables) (projectId questionId : ℕ) : Bool :=
  db.questions[questionId]?.any (·.projectId = projectId)

/-- The row of a new question; an empty gap is none. -/
def ResearchQuestionInput.row (input : ResearchQuestionInput) (projectId : ℕ) :
    ResearchQuestion where
  projectId := projectId
  parentId := input.parentId
  question := input.question
  priority := input.priority
  completionCriteria := input.completionCriteria
  researchGap := input.researchGap
  gapStatus := if (input.researchGap.bind emptyToNull).isSome then .open else .none

/-- `addResearchQuestion(projectId, input)`. -/
def addResearchQuestion (projectId : ℕ) (input : ResearchQuestionInput) (db : WorkflowTables) :
    Except ServiceError WorkflowTables := do
  let _ ← db.lockProject projectId
  ensure (input.parentId.all (db.hasQuestion projectId ·)) (notFound "Parent research question")
  let db := { db with questions := db.questions ++ [input.row projectId] }
  let db := db.updateProject projectId fun project => { project with planApprovedAt := none }
  return invalidateDownstreamReview projectId .researching db

/-- The input of `updateResearchQuestion`. -/
structure ResearchQuestionUpdate where
  status : Option QuestionStatus := none
  gapStatus : Option GapStatus := none
  researchGap : Option String := none
  deriving DecidableEq, Repr

/-- `updateResearchQuestion(projectId, questionId, input)`. -/
def updateResearchQuestion (projectId questionId : ℕ) (input : ResearchQuestionUpdate)
    (db : WorkflowTables) : Except ServiceError WorkflowTables := do
  let _ ← db.lockProject projectId
  ensure (db.hasQuestion projectId questionId) (notFound "Research question")
  let db := { db with
    questions := db.questions.modify questionId fun question => { question with
      status := input.status.getD question.status
      gapStatus := input.gapStatus.getD question.gapStatus
      researchGap := input.researchGap <|> question.researchGap } }
  return invalidateDownstreamReview projectId .researching db

/-- `researchPlanSchema`. -/
structure ResearchPlanInput where
  questionId : ℕ
  content : PlanContent
  aiSuggested : Bool
  deriving DecidableEq, Repr

/-- `INSERT INTO research_plans … ON CONFLICT (question_id) DO UPDATE …`. -/
def savePlan (projectId : ℕ) (input : ResearchPlanInput) (plans : List ResearchPlan) :
    List ResearchPlan :=
  if plans.any (·.questionId = input.questionId) then
    updateWhere (fun _ plan => plan.questionId = input.questionId) (fun plan => { plan with
      content := input.content
      aiSuggested := input.aiSuggested
      humanApproved := false
      approvedAt := none }) plans
  else
    plans ++ [{
      projectId, questionId := input.questionId, content := input.content,
      aiSuggested := input.aiSuggested }]

/-- `addResearchPlan(projectId, input)`. -/
def addResearchPlan (projectId : ℕ) (input : ResearchPlanInput) (db : WorkflowTables) :
    Except ServiceError WorkflowTables := do
  let _ ← db.lockProject projectId
  ensure (db.hasQuestion projectId input.questionId) (notFound "Research question")
  let db := { db with plans := savePlan projectId input db.plans }
  let db := db.updateProject projectId fun project => { project with planApprovedAt := none }
  let db := invalidateDownstreamReview projectId .researching db
  return { db with
    questions := db.questions.modify input.questionId fun question => { question with
      status := if question.status = .open then .planned else question.status } }

/-! ### Approval revisions -/

/-- A plan as `planSnapshot` selects it. -/
def ResearchPlan.snapshot (id : ℕ) (plan : ResearchPlan) : PlanSnapshot where
  id := id
  content := plan.content
  assignedStage := plan.assignedStage
  humanApproved := plan.humanApproved
  approvedAt := plan.approvedAt

/-- `planSnapshot(client, projectId)`. -/
def planSnapshot (projectId : ℕ) (db : WorkflowTables) : List QuestionSnapshot :=
  (db.questions.zipIdx.filter fun (question, _) => question.projectId = projectId).map
    fun (question, id) => {
      id, parentId := question.parentId, question := question.question,
      priority := question.priority, completionCriteria := question.completionCriteria,
      plan := (db.planOf id projectId).map fun (planId, plan) => plan.snapshot planId }

/-- The snapshot of a kind. -/
def approvalSnapshot (projectId : ℕ) (project : ResearchProject) (db : WorkflowTables) :
    ApprovalRevisionKind → ApprovalSnapshot
  | .scope => .scope project.scope
  | .plan => .plan (planSnapshot projectId db)

/-- When the approval of a kind was given. -/
def ResearchProject.kindApprovedAt (project : ResearchProject) : ApprovalRevisionKind → Option ℕ
  | .scope => project.scopeApprovedAt
  | .plan => project.planApprovedAt

/-- The error of a project without the approval. -/
def approvalRequired : ApprovalRevisionKind → ServiceError
  | .scope => conflict .SCOPE_APPROVAL_REQUIRED
    "A current scope approval is required before capturing a revision."
  | .plan => conflict .PLAN_APPROVAL_REQUIRED
    "A current plan approval is required before capturing a revision."

/-- The last `UPDATE` of `ensureApprovalRevision`. -/
def ResearchProject.withRevision (project : ResearchProject) (revisionId : ℕ) :
    ApprovalRevisionKind → ResearchProject
  | .scope => { project with scopeApprovedRevisionId := some revisionId }
  | .plan => { project with planApprovedRevisionId := some revisionId }

/-- The revisions of a project and a kind. -/
def revisionsOf (projectId : ℕ) (kind : ApprovalRevisionKind)
    (revisions : List ApprovalRevision) : List ApprovalRevision :=
  revisions.filter fun revision => revision.projectId = projectId && revision.kind = kind

/-- `COALESCE(MAX(revision_number), 0) + 1`. -/
def nextRevisionNumber (revisions : List ApprovalRevision) : ℕ :=
  (revisions.map (·.revisionNumber)).foldl max 0 + 1

/-- `ensureApprovalRevision(client, project, kind, …)`, with the id of the revision. -/
def ensureApprovalRevision (hashing : SnapshotHashing) (projectId : ℕ) (project : ResearchProject)
    (kind : ApprovalRevisionKind) (db : WorkflowTables) :
    Except ServiceError (ApprovalRevision × WorkflowTables) := do
  let approvedAt ← require (project.kindApprovedAt kind) (approvalRequired kind)
  let snapshot := approvalSnapshot projectId project db kind
  let contentHash := hashing.inputHash snapshot
  match findRow (fun revision => revision.projectId = projectId && revision.kind = kind &&
      revision.contentHash = contentHash) db.revisions with
  | some (revisionId, revision) =>
    return (revision, db.updateProject projectId (·.withRevision revisionId kind))
  | none =>
    let revision := {
      projectId, kind, revisionNumber := nextRevisionNumber (revisionsOf projectId kind db.revisions),
      snapshot, contentHash, approvedAt }
    let db' := { db with revisions := db.revisions ++ [revision] }
    return (revision, db'.updateProject projectId (·.withRevision db.revisions.length kind))

/-- `captureApprovalRevision(projectId, kind)`. -/
def captureApprovalRevision (hashing : SnapshotHashing) (projectId : ℕ)
    (kind : ApprovalRevisionKind) (db : WorkflowTables) :
    Except ServiceError (ApprovalRevision × WorkflowTables) := do
  let project ← db.lockProject projectId
  ensureApprovalRevision hashing projectId project kind db

/-! ### Quality assurance and approval -/

/-- An unresolved `BLOCKER` of the project. -/
def ProjectQaFinding.isOpenBlocker (projectId : ℕ) (finding : ProjectQaFinding) : Bool :=
  finding.projectId = projectId && finding.isCurrent && finding.isBlocker && !finding.isDeleted &&
    finding.resolutionStatus ≠ .resolved

/-- A finding of `runQaRules`. -/
def ProjectQaFinding.ofEngine (projectId : ℕ) (isBlocker : Bool) : ProjectQaFinding :=
  { projectId, isBlocker }

/-- `runProjectQa(projectId)`; `findings` are the ones that `runQaRules` returns, each a `BLOCKER` or
    not. -/
def runProjectQa (projectId : ℕ) (findings : List Bool) (now : ℕ) (db : WorkflowTables) :
    Except ServiceError WorkflowTables := do
  let _ ← db.lockProject projectId
  let db := invalidateDownstreamReview projectId .qa db
  let kept := updateWhere (fun _ finding => finding.projectId = projectId &&
      finding.resolutionStatus = .open && finding.byQaEngine)
    (fun finding => { finding with isDeleted := true }) db.qaFindings
  let qaFindings := kept ++ findings.map (ProjectQaFinding.ofEngine projectId)
  let passed := !qaFindings.any (·.isOpenBlocker projectId)
  let db := { db with qaFindings }
  return db.updateProject projectId fun project => { project with
    qaPassedAt := if passed then some now else none
    status := if passed then .approvalRequired else .qa }

/-- The finding can be resolved. -/
def WorkflowTables.hasFinding (db : WorkflowTables) (projectId findingId : ℕ) : Bool :=
  db.qaFindings[findingId]?.any fun finding =>
    finding.projectId = projectId && finding.isCurrent && !finding.isDeleted

/-- `resolveQaFinding(projectId, findingId, resolutionStatus)`. -/
def resolveQaFinding (projectId findingId : ℕ) (resolved : Bool) (db : WorkflowTables) :
    Except ServiceError WorkflowTables := do
  let _ ← db.lockProject projectId
  ensure (db.hasFinding projectId findingId) (notFound "QA finding")
  let isBlocker := db.qaFindings[findingId]?.any (·.isBlocker)
  let db := invalidateDownstreamReview projectId .qa db
  let db := { db with
    qaFindings := db.qaFindings.modify findingId fun finding => { finding with
      resolutionStatus := if resolved then .resolved else .acceptedRisk } }
  if isBlocker && !resolved then
    return db.updateProject projectId fun project => { project with
      qaPassedAt := none, status := .qa }
  else return db

/-- The gates of `WorkflowReadiness` that look at claims, findings and the report. -/
structure ContentReadiness where
  claimsReady : Bool
  findingsReady : Bool
  reportReady : Bool
  hasFinalExport : Bool
  deriving DecidableEq, Repr

/-- `questions_ready`. -/
def WorkflowTables.areQuestionsReady (db : WorkflowTables) (projectId : ℕ) : Bool :=
  db.questions.any (·.projectId = projectId) &&
    db.questions.all fun question => question.projectId ≠ projectId ||
      question.status = .complete || question.gapStatus ∈ [GapStatus.accepted, .resolved]

/-- `plan_ready`. -/
def WorkflowTables.isPlanStillReady (db : WorkflowTables) (projectId : ℕ)
    (project : ResearchProject) : Bool :=
  project.planApprovedAt.isSome && db.questions.any (·.projectId = projectId) &&
    (idsWhere (fun _ question => question.projectId = projectId) db.questions).all fun id =>
      db.plans.any fun plan =>
        plan.questionId = id && plan.projectId = projectId && plan.humanApproved

/-- The names of the gates that are missing, in the order of the query. -/
def missingGates (db : WorkflowTables) (projectId : ℕ) (project : ResearchProject)
    (content : ContentReadiness) : List String :=
  ([(project.scopeApprovedAt.isSome, "scope"), (db.isPlanStillReady projectId project, "plan"),
    (db.areQuestionsReady projectId, "questions"), (content.claimsReady, "claims"),
    (content.findingsReady, "findings"), (content.reportReady, "report")].filter
      fun (ready, _) => !ready).map (·.2)

/-- `ApprovalAction`. -/
inductive ApprovalAction
  | request | approve (confirmation : Bool) | deliver
  deriving DecidableEq, Repr

/-- What an approval action does to the project. -/
def ResearchProject.act (project : ResearchProject) (action : ApprovalAction)
    (hasFinalExport : Bool) (now : ℕ) : Except ServiceError ResearchProject :=
  match action with
  | .request => do
    ensure (project.approvalStatus ≠ .approved ∧ project.status ≠ .delivered)
      (conflict .INVALID_APPROVAL_STATE
        "An approved or delivered project cannot return to approval request without a material revision.")
    if project.approvalStatus ≠ .pending then
      return { project with
        approvalStatus := .pending, status := .approvalRequired, approvedAt := none,
        deliveredAt := none }
    else return project
  | .approve confirmation => do
    ensure (confirmation = true) (conflict .EXPLICIT_CONFIRMATION_REQUIRED
      "Human approval requires an explicit confirmation.")
    ensure (project.approvalStatus = .pending)
      (conflict .APPROVAL_NOT_REQUESTED "Request approval before approving.")
    return { project with
      approvalStatus := .approved, status := .approved, approvedAt := some now }
  | .deliver => do
    ensure (project.status = .approved)
      (conflict .INVALID_APPROVAL_STATE "Only an approved project can be marked delivered.")
    ensure (project.approvalStatus = .approved)
      (conflict .APPROVAL_REQUIRED "Approve the project before marking it delivered.")
    ensure (hasFinalExport = true)
      (conflict .DELIVERY_PACKAGE_REQUIRED "Generate the final ZIP before delivery.")
    return { project with status := .delivered, deliveredAt := some now }

/-- `runApprovalAction(projectId, action, confirmation)`. -/
def runApprovalAction (projectId : ℕ) (action : ApprovalAction) (content : ContentReadiness)
    (now : ℕ) (db : WorkflowTables) : Except ServiceError WorkflowTables := do
  let project ← db.lockProject projectId
  ensure (¬ db.qaFindings.any (·.isOpenBlocker projectId) ∧ project.qaPassedAt.isSome)
    (conflict .QA_BLOCKED "The project must pass QA with no open blockers.")
  let missing := missingGates db projectId project content
  ensure (missing = []) (conflict .WORKFLOW_INCOMPLETE
    ("Complete the required workflow before approval: " ++ ", ".intercalate missing ++ "."))
  let acted ← project.act action content.hasFinalExport now
  return db.updateProject projectId fun _ => acted

end ResearchWorkbench.Workflow
