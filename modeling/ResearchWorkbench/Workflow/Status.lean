import ResearchWorkbench.Workflow.Approvals

namespace ResearchWorkbench.Workflow

/-!
# The status of a project and its approvals

* `Admits`, `NeverWedged` — an approval that is missing can be given in the status of the project;
* `approveScope_of_admits`, `approvePlan_of_admits` — what this means for the two approvals;
* `KeepsAdmitting` — the steps that set the status, or withdraw an approval, in step with the other;
* `StatusOk` — the invariant: a project with an approved scope has left the first two statuses;
* `neverWedged_iff` — a run keeps every project from being wedged exactly as long as
  `KeepsAdmitting` holds.

`runProjectQa` and `resolveQaFinding` set the status whatever is approved, and
`invalidateDownstreamReview` leaves `SYNTHESIZING`, where no plan can be approved, when a question or
a plan withdraws the approval of the plan.
-/

variable {hashing : SnapshotHashing} {db db' : WorkflowTables} {i : ℕ} {project : ResearchProject}
  {f : ResearchProject → ResearchProject}

/-! ### The property -/

/-- The status admits the next approval that is missing. -/
structure Admits (project : ResearchProject) : Prop where
  scope : project.scopeApprovedAt = none → project.status ∈ [ProjectStatus.intake, .scoping]
  plan : project.scopeApprovedAt.isSome → project.planApprovedAt = none →
    project.status ∈ [ProjectStatus.planning, .researching]

/-- **No project is wedged.** -/
def NeverWedged (db : WorkflowTables) : Prop := ∀ project ∈ db.projects, Admits project

theorem admits_iff : Admits project ↔
    (project.scopeApprovedAt = none → project.status ∈ [ProjectStatus.intake, .scoping]) ∧
      (project.scopeApprovedAt.isSome → project.planApprovedAt = none →
        project.status ∈ [ProjectStatus.planning, .researching]) :=
  ⟨fun h => ⟨h.scope, h.plan⟩, fun h => ⟨h.1, h.2⟩⟩

instance : Decidable (Admits project) := decidable_of_iff _ admits_iff.symm

instance : Decidable (NeverWedged db) :=
  inferInstanceAs (Decidable (∀ project ∈ db.projects, Admits project))

/-! ### The condition -/

/-- The approval of the plan can be withdrawn: the status is not `SYNTHESIZING`. -/
def MayWithdrawPlan (db : WorkflowTables) (projectId : ℕ) : Prop :=
  ∀ project ∈ db.projects[projectId]?, project.status ≠ .synthesizing

/-- The scope and the plan are approved. -/
def IsApproved (db : WorkflowTables) (projectId : ℕ) : Prop :=
  ∀ project ∈ db.projects[projectId]?,
    project.scopeApprovedAt.isSome ∧ project.planApprovedAt.isSome

/-- A question is not added in `SYNTHESIZING`. -/
def AddsQuestion (db : WorkflowTables) (projectId : ℕ) (input : ResearchQuestionInput) : Prop :=
  input.parentId.all (db.hasQuestion projectId ·) → MayWithdrawPlan db projectId

/-- A plan is not added in `SYNTHESIZING`. -/
def AddsPlan (db : WorkflowTables) (projectId : ℕ) (input : ResearchPlanInput) : Prop :=
  db.hasQuestion projectId input.questionId → MayWithdrawPlan db projectId

/-- **The condition.**  Questions and plans are not added in `SYNTHESIZING`, and the quality
    assurance does not run, nor is the risk of a `BLOCKER` accepted, before the approvals. -/
def KeepsAdmitting (s : WorkflowSys) : WorkflowAct → Prop
  | .addResearchQuestion projectId input => AddsQuestion s.db projectId input
  | .addResearchPlan projectId input => AddsPlan s.db projectId input
  | .runProjectQa projectId _ _ => IsApproved s.db projectId
  | .resolveQaFinding projectId findingId resolved =>
    s.db.hasFinding projectId findingId → s.db.qaFindings[findingId]?.any (·.isBlocker) →
      resolved = false → IsApproved s.db projectId
  | .generate i _ =>
    match s.generators[i]? with
    | some (projectId, .addingQuestions (input :: _)) => AddsQuestion s.db projectId input
    | some (projectId, .addingPlans (input :: _)) =>
      AddsPlan s.db projectId { input with aiSuggested := true }
    | _ => True
  | _ => True

/-! ### What the transactions do to the project -/

/-- A project that has got a question or a plan. -/
def ResearchProject.withdrawPlan (project : ResearchProject) : ResearchProject :=
  ({ project with planApprovedAt := none } : ResearchProject).invalidate .researching

theorem updateProjectScope_projects {input : ProjectScopeUpdate}
    (h : updateProjectScope i input db = .ok db') :
    ∃ f, db'.projects = db.projects.modify i f ∧
      ∀ project, (f project).status = .scoping ∧ (f project).scopeApprovedAt = none := by
  simp only [updateProjectScope, bind_eq_ok, pure_eq_ok] at h
  obtain ⟨_, _, rfl⟩ := h
  exact ⟨_, updateProject_modify, fun _ => ⟨rfl, rfl⟩⟩

theorem approveScope_projects {now : ℕ} (h : approveScope i now db = .ok db') :
    ∃ f, db'.projects = db.projects.modify i f ∧
      ∀ project, (f project).status = .planning ∧ (f project).scopeApprovedAt.isSome := by
  simp only [approveScope, bind_eq_ok, pure_eq_ok] at h
  obtain ⟨_, _, _, _, rfl⟩ := h
  exact ⟨_, rfl, fun _ => ⟨rfl, rfl⟩⟩

/-- The approval of a plan leaves the project alone, or is the last one. -/
theorem approvePlan_projects {planId : Option ℕ} {now : ℕ}
    (h : approvePlan i planId now db = .ok db') :
    db'.projects = db.projects ∨ ∃ f, db'.projects = db.projects.modify i f ∧
      ∀ project, (f project).status = .researching ∧ (f project).planApprovedAt.isSome ∧
        (db.projects[i]? = some project → (f project).scopeApprovedAt.isSome) := by
  simp only [approvePlan, bind_eq_ok, ensure_eq_ok, WorkflowTables.lockProject,
    require_eq_ok] at h
  obtain ⟨project, hproject, _, _, _, hscope, db₁, hplans, h⟩ := h
  obtain ⟨heq, _⟩ := approvePlans_mem hplans
  have hprojects : db₁.projects = db.projects := by rw [heq]
  split at h
  · obtain rfl := pure_eq_ok.mp h
    refine .inr ⟨_, congrArg (List.modify · i _) hprojects, fun project' => ⟨rfl, rfl, fun hi => ?_⟩⟩
    obtain rfl : project = project' := Option.some.inj (hproject.symm.trans hi)
    exact hscope
  · simp only [bind_eq_ok, pure_eq_ok] at h
    obtain ⟨_, _, rfl⟩ := h
    exact .inl hprojects

theorem addResearchQuestion_projects {input : ResearchQuestionInput}
    (h : addResearchQuestion i input db = .ok db') :
    input.parentId.all (db.hasQuestion i ·) ∧
      db'.projects = db.projects.modify i ResearchProject.withdrawPlan := by
  simp only [addResearchQuestion, bind_eq_ok, ensure_eq_ok, pure_eq_ok] at h
  obtain ⟨_, _, _, hparent, rfl⟩ := h
  exact ⟨hparent, updateProject_modify⟩

theorem updateResearchQuestion_projects {questionId : ℕ} {input : ResearchQuestionUpdate}
    (h : updateResearchQuestion i questionId input db = .ok db') :
    db'.projects = db.projects.modify i (·.invalidate .researching) := by
  simp only [updateResearchQuestion, bind_eq_ok, pure_eq_ok] at h
  obtain ⟨_, _, _, _, rfl⟩ := h
  rfl

theorem addResearchPlan_projects {input : ResearchPlanInput}
    (h : addResearchPlan i input db = .ok db') :
    db.hasQuestion i input.questionId ∧
      db'.projects = db.projects.modify i ResearchProject.withdrawPlan := by
  simp only [addResearchPlan, bind_eq_ok, ensure_eq_ok, pure_eq_ok] at h
  obtain ⟨_, _, _, hquestion, rfl⟩ := h
  exact ⟨hquestion, updateProject_modify⟩

theorem captureApprovalRevision_projects {kind : ApprovalRevisionKind}
    {revision : ApprovalRevision}
    (h : captureApprovalRevision hashing i kind db = .ok (revision, db')) :
    ∃ revisionId, db'.projects = db.projects.modify i (·.withRevision revisionId kind) := by
  simp only [captureApprovalRevision, ensureApprovalRevision, bind_eq_ok] at h
  obtain ⟨_, _, _, _, h⟩ := h
  split at h <;> obtain ⟨rfl, rfl⟩ := Prod.ext_iff.mp (pure_eq_ok.mp h) <;> exact ⟨_, rfl⟩

theorem runProjectQa_projects {findings : List Bool} {now : ℕ}
    (h : runProjectQa i findings now db = .ok db') :
    ∃ f, db'.projects = db.projects.modify i f ∧ ∀ project,
      (f project).status ∈ [ProjectStatus.approvalRequired, .qa] ∧
      (f project).scopeApprovedAt = project.scopeApprovedAt ∧
      (f project).planApprovedAt = project.planApprovedAt := by
  simp only [runProjectQa, bind_eq_ok, pure_eq_ok] at h
  obtain ⟨_, _, rfl⟩ := h
  refine ⟨_, updateProject_modify (f := fun project => project.invalidate .qa), fun project =>
    ⟨?_, rfl, rfl⟩⟩
  dsimp only
  split <;> simp

/-- The resolution of a finding sets the status only if the risk of a `BLOCKER` is accepted. -/
theorem resolveQaFinding_projects {findingId : ℕ} {resolved : Bool}
    (h : resolveQaFinding i findingId resolved db = .ok db') :
    db.hasFinding i findingId ∧
      if db.qaFindings[findingId]?.any (·.isBlocker) ∧ resolved = false then
        ∃ f, db'.projects = db.projects.modify i f ∧ ∀ project,
          (f project).status = .qa ∧ (f project).scopeApprovedAt = project.scopeApprovedAt ∧
          (f project).planApprovedAt = project.planApprovedAt
      else db'.projects = db.projects.modify i (·.invalidate .qa) := by
  simp only [resolveQaFinding, bind_eq_ok, ensure_eq_ok] at h
  obtain ⟨_, _, _, hfinding, h⟩ := h
  refine ⟨hfinding, ?_⟩
  simp only [Bool.and_eq_true, Bool.not_eq_true'] at h
  split at h
  · rename_i hrisk
    obtain rfl := pure_eq_ok.mp h
    rw [if_pos hrisk]
    exact ⟨_, updateProject_modify (f := fun project => project.invalidate .qa),
      fun _ => ⟨rfl, rfl, rfl⟩⟩
  · rename_i hrisk
    obtain rfl := pure_eq_ok.mp h
    rw [if_neg hrisk]
    rfl

/-- An approval action needs both approvals. -/
theorem runApprovalAction_projects {action : ApprovalAction} {content : ContentReadiness} {now : ℕ}
    (h : runApprovalAction i action content now db = .ok db') :
    ∃ project acted, db.projects[i]? = some project ∧
      project.scopeApprovedAt.isSome ∧ project.planApprovedAt.isSome ∧
      project.act action content.hasFinalExport now = .ok acted ∧
      db'.projects = db.projects.modify i fun _ => acted := by
  simp only [runApprovalAction, bind_eq_ok, ensure_eq_ok, require_eq_ok,
    WorkflowTables.lockProject, pure_eq_ok] at h
  obtain ⟨project, hproject, _, _, _, hmissing, acted, hacted, rfl⟩ := h
  simp only [missingGates, List.map_eq_nil_iff, List.filter_eq_nil_iff, List.mem_cons,
    List.not_mem_nil, or_false, forall_eq_or_imp, forall_eq, Bool.not_eq_true', Bool.not_eq_false,
    WorkflowTables.isPlanStillReady, Bool.and_eq_true] at hmissing
  exact ⟨project, acted, hproject, hmissing.1, hmissing.2.1.1.1, hacted, rfl⟩

theorem ResearchProject.act_status {action : ApprovalAction} {hasFinalExport : Bool} {now : ℕ}
    {acted : ResearchProject} (h : project.act action hasFinalExport now = .ok acted) :
    (acted.status = project.status ∨
        acted.status ∈ [ProjectStatus.approvalRequired, .approved, .delivered]) ∧
      acted.scopeApprovedAt = project.scopeApprovedAt ∧
      acted.planApprovedAt = project.planApprovedAt := by
  cases action with
  | request =>
    simp only [ResearchProject.act, bind_eq_ok] at h
    obtain ⟨_, _, h⟩ := h
    split at h <;> obtain rfl := pure_eq_ok.mp h
    · exact ⟨.inr (by simp), rfl, rfl⟩
    · exact ⟨.inl rfl, rfl, rfl⟩
  | approve confirmation =>
    simp only [ResearchProject.act, bind_eq_ok, pure_eq_ok] at h
    obtain ⟨_, _, _, _, rfl⟩ := h
    exact ⟨.inr (by simp), rfl, rfl⟩
  | deliver =>
    simp only [ResearchProject.act, bind_eq_ok, pure_eq_ok] at h
    obtain ⟨_, _, _, _, _, _, rfl⟩ := h
    exact ⟨.inr (by simp), rfl, rfl⟩

/-! ### One project -/

/-- A project with an approved scope has left the first two statuses, and is never archived. -/
def StatusOk (project : ResearchProject) : Prop :=
  project.scopeApprovedAt.isSome → project.status ∉ [ProjectStatus.intake, .scoping, .archived]

theorem StatusOk.invalidate (h : StatusOk project) {fallbackStatus : ProjectStatus}
    (hfallback : fallbackStatus.isFallback) : StatusOk (project.invalidate fallbackStatus) := by
  intro hscope
  have hstatus := h hscope
  simp only [ResearchProject.invalidate]
  split
  · cases fallbackStatus <;> simp [ProjectStatus.isFallback] at hfallback ⊢
  · exact hstatus

theorem StatusOk.withdrawPlan (h : StatusOk project) : StatusOk project.withdrawPlan :=
  @StatusOk.invalidate { project with planApprovedAt := none } h _ rfl

/-- Without both approvals no review has started. -/
theorem Admits.invalidate (h : Admits project) (fallbackStatus : ProjectStatus) :
    Admits (project.invalidate fallbackStatus) := by
  have hsame (hstatus : ¬ project.status.isReview) :
      (project.invalidate fallbackStatus).status = project.status := if_neg hstatus
  have hearly : ∀ status ∈ [ProjectStatus.intake, .scoping], ¬ status.isReview := by decide
  have hlate : ∀ status ∈ [ProjectStatus.planning, .researching], ¬ status.isReview := by decide
  refine ⟨fun hscope => ?_, fun hscope hplan => ?_⟩
  · rw [hsame (hearly _ (h.scope hscope))]
    exact h.scope hscope
  · rw [hsame (hlate _ (h.plan hscope hplan))]
    exact h.plan hscope hplan

/-- A project that is not in `SYNTHESIZING` admits the approval that it has just lost. -/
theorem admits_withdrawPlan_iff (h : Admits project) (hok : StatusOk project) :
    Admits project.withdrawPlan ↔ project.status ≠ .synthesizing := by
  constructor
  · intro hadmits hsynthesizing
    have hstatus : project.withdrawPlan.status = .synthesizing := by
      simp [ResearchProject.withdrawPlan, ResearchProject.invalidate, hsynthesizing,
        ProjectStatus.isReview]
    cases hscope : project.scopeApprovedAt with
    | none =>
      have := hadmits.scope hscope
      rw [hstatus] at this
      simp at this
    | some at_ =>
      have := hadmits.plan (by rw [show project.withdrawPlan.scopeApprovedAt = _ from hscope]; rfl) rfl
      rw [hstatus] at this
      simp at this
  · intro hstatus
    refine ⟨fun hscope => ?_, fun hscope _ => ?_⟩
    · have hearly := h.scope hscope
      have : ¬ project.status.isReview :=
        (by decide : ∀ status ∈ [ProjectStatus.intake, .scoping], ¬ status.isReview) _ hearly
      rw [show project.withdrawPlan.status = project.status from if_neg this]
      exact hearly
    · have hlate := hok hscope
      simp only [ResearchProject.withdrawPlan, ResearchProject.invalidate]
      cases hproject : project.status <;>
        simp_all [ProjectStatus.isReview]

/-- A project in a status of the review admits every missing approval only if none is missing. -/
theorem admits_review_iff
    (hstatus : project.status ∈ [ProjectStatus.approvalRequired, .qa]) :
    Admits project ↔ project.scopeApprovedAt.isSome ∧ project.planApprovedAt.isSome := by
  have hno : project.status ∉ [ProjectStatus.intake, .scoping] ∧
      project.status ∉ [ProjectStatus.planning, .researching] := by
    simp only [List.mem_cons, List.not_mem_nil, or_false] at hstatus
    obtain hstatus | hstatus := hstatus <;> rw [hstatus] <;> decide
  simp only [Option.isSome_iff_ne_none]
  constructor
  · intro h
    have hscope : project.scopeApprovedAt ≠ none := fun hscope => hno.1 (h.scope hscope)
    exact ⟨hscope, fun hplan => hno.2 (h.plan (Option.isSome_iff_ne_none.mpr hscope) hplan)⟩
  · rintro ⟨hscope, hplan⟩
    exact ⟨fun h => absurd h hscope, fun _ h => absurd h hplan⟩

/-! ### Steps -/

theorem forall_mem_modify_iff {P : ResearchProject → Prop} {projects : List ResearchProject}
    (h : ∀ project ∈ projects, P project) :
    (∀ project ∈ projects.modify i f, P project) ↔
      ∀ project ∈ projects[i]?, P (f project) := by
  constructor
  · intro hall project hi
    exact hall _ (List.mem_of_getElem? (getElem?_modify_eq hi))
  · intro hf project hproject
    obtain ⟨j, hj⟩ := List.mem_iff_getElem?.mp hproject
    by_cases hij : i = j
    · obtain rfl := hij
      cases hi : projects[i]? with
      | none => simp [hi] at hj
      | some project' =>
        rw [getElem?_modify_eq hi] at hj
        rw [← Option.some.inj hj]
        exact hf project' hi
    · rw [getElem?_modify_ne hij] at hj
      exact h project (List.mem_of_getElem? hj)

/-- Every project is as `StatusOk` says. -/
def StatusesOk (db : WorkflowTables) : Prop := ∀ project ∈ db.projects, StatusOk project

theorem StatusesOk.modify (h : StatusesOk db) (hprojects : db'.projects = db.projects.modify i f)
    (hf : ∀ project, db.projects[i]? = some project → StatusOk project → StatusOk (f project)) :
    StatusesOk db' := by
  rw [StatusesOk, hprojects, forall_mem_modify_iff h]
  exact fun project hi => hf project hi (h project (List.mem_of_getElem? hi))

theorem StatusOk.of_status (h : project.status ∉ [ProjectStatus.intake, .scoping, .archived]) :
    StatusOk project := fun _ => h

theorem orUnchanged_statusesOk (h : StatusesOk db) {result : Except ServiceError WorkflowTables}
    (hresult : ∀ db', result = .ok db' → StatusesOk db') : StatusesOk (orUnchanged db result) := by
  cases result with
  | ok db' => exact hresult db' rfl
  | error e => exact h

theorem stepGenerator_statusesOk {s : WorkflowSys} (h : StatusesOk s.db) (answer : ProviderAnswer)
    (phase : GeneratorPhase) : StatusesOk (s.stepGenerator i answer phase).1 := by
  unfold WorkflowSys.stepGenerator
  split
  case h_4 =>
    split
    · exact h.modify (addResearchQuestion_projects ‹_›).2 fun _ _ => StatusOk.withdrawPlan
    · exact h
  case h_7 =>
    split
    · exact h.modify (addResearchPlan_projects ‹_›).2 fun _ _ => StatusOk.withdrawPlan
    · exact h
  all_goals
    repeat' split
    all_goals exact h

variable {s : WorkflowSys}

/-- **Steps** keep `StatusOk`, under no condition. -/
theorem step_statusesOk (h : StatusesOk s.db) (a : WorkflowAct) :
    StatusesOk (s.step hashing a).db := by
  cases a with
  | createProject input =>
    intro project hproject
    obtain hold | hnew := List.mem_append.mp hproject
    · exact h project hold
    · rw [List.mem_singleton.mp hnew]
      exact nofun
  | updateProjectScope =>
    refine orUnchanged_statusesOk h fun db' hdb => ?_
    obtain ⟨f, hprojects, hf⟩ := updateProjectScope_projects hdb
    refine h.modify hprojects fun project _ _ hscope => ?_
    rw [(hf project).2] at hscope
    cases hscope
  | approveScope =>
    refine orUnchanged_statusesOk h fun db' hdb => ?_
    obtain ⟨f, hprojects, hf⟩ := approveScope_projects hdb
    refine h.modify hprojects fun project _ _ => .of_status ?_
    rw [(hf project).1]
    decide
  | approvePlan =>
    refine orUnchanged_statusesOk h fun db' hdb => ?_
    obtain hprojects | ⟨f, hprojects, hf⟩ := approvePlan_projects hdb
    · rw [StatusesOk, hprojects]
      exact h
    · refine h.modify hprojects fun project _ _ => .of_status ?_
      rw [(hf project).1]
      decide
  | addResearchQuestion =>
    exact orUnchanged_statusesOk h fun db' hdb =>
      h.modify (addResearchQuestion_projects hdb).2 fun _ _ => StatusOk.withdrawPlan
  | updateResearchQuestion =>
    exact orUnchanged_statusesOk h fun db' hdb =>
      h.modify (updateResearchQuestion_projects hdb) fun _ _ hok => hok.invalidate rfl
  | addResearchPlan =>
    exact orUnchanged_statusesOk h fun db' hdb =>
      h.modify (addResearchPlan_projects hdb).2 fun _ _ => StatusOk.withdrawPlan
  | captureApprovalRevision projectId kind =>
    refine orUnchanged_statusesOk h fun db' hdb => ?_
    obtain ⟨⟨revision, _⟩, hcapture, rfl⟩ := map_eq_ok.mp hdb
    obtain ⟨revisionId, hprojects⟩ := captureApprovalRevision_projects hcapture
    refine h.modify hprojects fun project _ hok => ?_
    cases kind <;> exact hok
  | runProjectQa =>
    refine orUnchanged_statusesOk h fun db' hdb => ?_
    obtain ⟨f, hprojects, hf⟩ := runProjectQa_projects hdb
    refine h.modify hprojects fun project _ _ => .of_status fun hmem => ?_
    exact (by decide : ∀ status ∈ [ProjectStatus.approvalRequired, .qa],
      status ∉ [ProjectStatus.intake, .scoping, .archived]) _ (hf project).1 hmem
  | resolveQaFinding =>
    refine orUnchanged_statusesOk h fun db' hdb => ?_
    have hprojects := (resolveQaFinding_projects hdb).2
    split at hprojects
    · obtain ⟨f, hprojects, hf⟩ := hprojects
      refine h.modify hprojects fun project _ _ => .of_status ?_
      rw [(hf project).1]
      decide
    · exact h.modify hprojects fun _ _ hok => hok.invalidate rfl
  | runApprovalAction =>
    refine orUnchanged_statusesOk h fun db' hdb => ?_
    obtain ⟨project, acted, hi, _, _, hacted, hprojects⟩ := runApprovalAction_projects hdb
    refine h.modify hprojects fun project' hi' hok => ?_
    obtain rfl : project = project' := Option.some.inj (hi.symm.trans hi')
    obtain ⟨hstatus | hstatus, hscope, _⟩ := ResearchProject.act_status hacted
    · rw [StatusOk, hstatus, hscope]
      exact hok
    · exact .of_status fun hmem => (by decide :
        ∀ status ∈ [ProjectStatus.approvalRequired, .approved, .delivered],
          status ∉ [ProjectStatus.intake, .scoping, .archived]) _ hstatus hmem
  | changeContent projectId fallbackStatus =>
    simp only [WorkflowSys.step]
    split
    · exact h.modify rfl fun _ _ hok => hok.invalidate ‹_›
    · exact h
  | startGenerator => exact h
  | generate i answer =>
    simp only [WorkflowSys.step]
    split
    · exact stepGenerator_statusesOk h answer _
    · exact h

theorem neverWedged_modify_iff (h : NeverWedged db)
    (hprojects : db'.projects = db.projects.modify i f) :
    NeverWedged db' ↔ ∀ project ∈ db.projects[i]?, Admits (f project) := by
  rw [NeverWedged, hprojects]
  exact forall_mem_modify_iff h

theorem NeverWedged.modify (h : NeverWedged db) (hprojects : db'.projects = db.projects.modify i f)
    (hf : ∀ project, Admits project → Admits (f project)) : NeverWedged db' :=
  (neverWedged_modify_iff h hprojects).mpr fun project hi =>
    hf project (h project (List.mem_of_getElem? hi))

theorem NeverWedged.orUnchanged (h : NeverWedged db)
    {result : Except ServiceError WorkflowTables}
    (hresult : ∀ db', result = .ok db' → NeverWedged db') : NeverWedged (orUnchanged db result) := by
  cases result with
  | ok db' => exact hresult db' rfl
  | error e => exact h

/-- A transaction that fails changes nothing, so that its condition has to hold. -/
theorem orUnchanged_iff (h : NeverWedged db) {result : Except ServiceError WorkflowTables}
    {condition : Prop} (hok : ∀ db', result = .ok db' → (NeverWedged db' ↔ condition))
    (hex : ¬ condition → ∃ db', result = .ok db') :
    NeverWedged (orUnchanged db result) ↔ condition := by
  cases result with
  | ok db' => exact hok db' rfl
  | error e =>
    refine ⟨fun _ => ?_, fun _ => h⟩
    by_contra hnot
    obtain ⟨_, hresult⟩ := hex hnot
    cases hresult

theorem exists_of_not_forall {α : Type} {o : Option α} {q : α → Prop} (h : ¬ ∀ a ∈ o, q a) :
    ∃ a, o = some a := by
  cases o with
  | none => exact absurd (fun _ ha => by cases ha) h
  | some a => exact ⟨a, rfl⟩

theorem withdrawPlan_iff (h : NeverWedged db) (hok : StatusesOk db)
    (hprojects : db'.projects = db.projects.modify i ResearchProject.withdrawPlan) :
    NeverWedged db' ↔ MayWithdrawPlan db i := by
  rw [neverWedged_modify_iff h hprojects]
  refine forall_congr' fun project => forall_congr' fun hi => ?_
  have hmem := List.mem_of_getElem? hi
  exact admits_withdrawPlan_iff (h project hmem) (hok project hmem)

theorem addResearchQuestion_iff (h : NeverWedged db) (hok : StatusesOk db)
    (input : ResearchQuestionInput) :
    NeverWedged (orUnchanged db (addResearchQuestion i input db)) ↔ AddsQuestion db i input := by
  refine orUnchanged_iff h (fun db' hdb => ?_) fun hnot => ?_
  · obtain ⟨hparent, hprojects⟩ := addResearchQuestion_projects hdb
    rw [withdrawPlan_iff h hok hprojects]
    exact ⟨fun hmay _ => hmay, fun hadds => hadds hparent⟩
  · obtain ⟨hparent, hmay⟩ := Classical.not_imp.mp hnot
    obtain ⟨project, hi⟩ := exists_of_not_forall hmay
    simp only [addResearchQuestion, bind_eq_ok, ensure_eq_ok, pure_eq_ok,
      WorkflowTables.lockProject, require_eq_ok]
    exact ⟨_, project, hi, (), hparent, rfl⟩

theorem addResearchPlan_iff (h : NeverWedged db) (hok : StatusesOk db)
    (input : ResearchPlanInput) :
    NeverWedged (orUnchanged db (addResearchPlan i input db)) ↔ AddsPlan db i input := by
  refine orUnchanged_iff h (fun db' hdb => ?_) fun hnot => ?_
  · obtain ⟨hquestion, hprojects⟩ := addResearchPlan_projects hdb
    rw [withdrawPlan_iff h hok hprojects]
    exact ⟨fun hmay _ => hmay, fun hadds => hadds hquestion⟩
  · obtain ⟨hquestion, hmay⟩ := Classical.not_imp.mp hnot
    obtain ⟨project, hi⟩ := exists_of_not_forall hmay
    simp only [addResearchPlan, bind_eq_ok, ensure_eq_ok, pure_eq_ok, WorkflowTables.lockProject,
      require_eq_ok]
    exact ⟨_, project, hi, (), hquestion, rfl⟩

/-- A status of the review, with the approvals as they are. -/
theorem setReview_iff (h : NeverWedged db) (hprojects : db'.projects = db.projects.modify i f)
    (hf : ∀ project, (f project).status ∈ [ProjectStatus.approvalRequired, .qa] ∧
      (f project).scopeApprovedAt = project.scopeApprovedAt ∧
      (f project).planApprovedAt = project.planApprovedAt) :
    NeverWedged db' ↔ IsApproved db i := by
  rw [neverWedged_modify_iff h hprojects]
  refine forall_congr' fun project => forall_congr' fun _ => ?_
  rw [admits_review_iff (hf project).1, (hf project).2.1, (hf project).2.2]

theorem runProjectQa_iff (h : NeverWedged db) (findings : List Bool) (now : ℕ) :
    NeverWedged (orUnchanged db (runProjectQa i findings now db)) ↔ IsApproved db i := by
  refine orUnchanged_iff h (fun db' hdb => ?_) fun hnot => ?_
  · obtain ⟨f, hprojects, hf⟩ := runProjectQa_projects hdb
    exact setReview_iff h hprojects hf
  · obtain ⟨project, hi⟩ := exists_of_not_forall hnot
    simp only [runProjectQa, bind_eq_ok, pure_eq_ok, WorkflowTables.lockProject, require_eq_ok]
    exact ⟨_, project, hi, rfl⟩

theorem resolveQaFinding_iff (h : NeverWedged db) (findingId : ℕ) (resolved : Bool) :
    NeverWedged (orUnchanged db (resolveQaFinding i findingId resolved db)) ↔
      (db.hasFinding i findingId → db.qaFindings[findingId]?.any (·.isBlocker) →
        resolved = false → IsApproved db i) := by
  refine orUnchanged_iff h (fun db' hdb => ?_) fun hnot => ?_
  · obtain ⟨hfinding, hprojects⟩ := resolveQaFinding_projects hdb
    split at hprojects
    · rename_i hrisk
      obtain ⟨f, hprojects, hf⟩ := hprojects
      rw [setReview_iff h hprojects fun project => ⟨by rw [(hf project).1]; decide, (hf project).2⟩]
      exact ⟨fun happroved _ _ _ => happroved, fun hcond => hcond hfinding hrisk.1 hrisk.2⟩
    · rename_i hrisk
      refine ⟨fun _ _ hblocker hresolved => absurd ⟨hblocker, hresolved⟩ hrisk, fun _ => ?_⟩
      exact h.modify hprojects fun project hproject => hproject.invalidate .qa
  · obtain ⟨hfinding, hnot⟩ := Classical.not_imp.mp hnot
    obtain ⟨hblocker, hnot⟩ := Classical.not_imp.mp hnot
    obtain ⟨hresolved, hnot⟩ := Classical.not_imp.mp hnot
    obtain ⟨project, hi⟩ := exists_of_not_forall hnot
    simp only [resolveQaFinding, bind_eq_ok, ensure_eq_ok, WorkflowTables.lockProject,
      require_eq_ok]
    exact ⟨_, project, hi, (), hfinding, if_pos (by simp [hblocker, hresolved])⟩

/-- Without any condition. -/
theorem iff_of_neverWedged (h : NeverWedged db) : NeverWedged db ↔ True := ⟨fun _ => trivial, fun _ => h⟩

/-- A step of a call of `generateProviderPlan`. -/
theorem stepGenerator_iff (h : NeverWedged s.db) (hok : StatusesOk s.db) {k : ℕ}
    (answer : ProviderAnswer) {phase : GeneratorPhase} (hk : s.generators[k]? = some (i, phase)) :
    NeverWedged (s.stepGenerator i answer phase).1 ↔ KeepsAdmitting s (.generate k answer) := by
  simp only [KeepsAdmitting, hk]
  unfold WorkflowSys.stepGenerator
  split
  case h_4 input inputs =>
    refine Iff.trans ?_ (addResearchQuestion_iff h hok input)
    split <;> rename_i hresult <;> rw [hresult] <;> rfl
  case h_7 input inputs =>
    refine Iff.trans ?_ (addResearchPlan_iff h hok { input with aiSuggested := true })
    split <;> rename_i hresult <;> rw [hresult] <;> rfl
  all_goals
    change NeverWedged _ ↔ True
    repeat' split
    all_goals exact iff_of_neverWedged h

/-- **Steps.**  A step wedges a project exactly if it violates the condition. -/
theorem step_neverWedged_iff (h : NeverWedged s.db) (hok : StatusesOk s.db) (a : WorkflowAct) :
    NeverWedged (s.step hashing a).db ↔ KeepsAdmitting s a := by
  have hkeeps {t : WorkflowSys} (ht : NeverWedged t.db) : NeverWedged t.db ↔ True :=
    iff_of_neverWedged ht
  cases a with
  | createProject input =>
    refine hkeeps (t := s.step hashing (.createProject input)) fun project hproject => ?_
    obtain hold | hnew := List.mem_append.mp hproject
    · exact h project hold
    · rw [List.mem_singleton.mp hnew]
      exact ⟨fun _ => by simp, nofun⟩
  | updateProjectScope =>
    refine hkeeps (h.orUnchanged fun db' hdb => ?_)
    obtain ⟨f, hprojects, hf⟩ := updateProjectScope_projects hdb
    refine h.modify hprojects fun project _ => ⟨fun _ => ?_, fun hscope => ?_⟩
    · rw [(hf project).1]
      decide
    · rw [(hf project).2] at hscope
      cases hscope
  | approveScope =>
    refine hkeeps (h.orUnchanged fun db' hdb => ?_)
    obtain ⟨f, hprojects, hf⟩ := approveScope_projects hdb
    refine h.modify hprojects fun project _ => ⟨fun hscope => ?_, fun _ _ => ?_⟩
    · have := (hf project).2
      rw [hscope] at this
      cases this
    · rw [(hf project).1]
      decide
  | approvePlan projectId =>
    refine hkeeps (h.orUnchanged fun db' hdb => ?_)
    obtain hprojects | ⟨f, hprojects, hf⟩ := approvePlan_projects hdb
    · rw [NeverWedged, hprojects]
      exact h
    · refine (neverWedged_modify_iff h hprojects).mpr fun project hi => ?_
      obtain ⟨hstatus, hplan, hscope⟩ := hf project
      refine ⟨fun hnone => ?_, fun _ _ => ?_⟩
      · rw [hnone] at hscope
        cases hscope hi
      · rw [hstatus]
        decide
  | addResearchQuestion _ input => exact addResearchQuestion_iff h hok input
  | updateResearchQuestion =>
    exact hkeeps (h.orUnchanged fun db' hdb =>
      h.modify (updateResearchQuestion_projects hdb) fun _ hproject => hproject.invalidate _)
  | addResearchPlan _ input => exact addResearchPlan_iff h hok input
  | captureApprovalRevision projectId kind =>
    refine hkeeps (h.orUnchanged fun db' hdb => ?_)
    obtain ⟨⟨revision, _⟩, hcapture, rfl⟩ := map_eq_ok.mp hdb
    obtain ⟨revisionId, hprojects⟩ := captureApprovalRevision_projects hcapture
    refine h.modify hprojects fun project hproject => ?_
    cases kind <;> exact ⟨hproject.scope, hproject.plan⟩
  | runProjectQa _ findings now => exact runProjectQa_iff h findings now
  | resolveQaFinding _ findingId resolved => exact resolveQaFinding_iff h findingId resolved
  | runApprovalAction =>
    refine hkeeps (h.orUnchanged fun db' hdb => ?_)
    obtain ⟨project, acted, hi, hscope, hplan, hacted, hprojects⟩ := runApprovalAction_projects hdb
    refine (neverWedged_modify_iff h hprojects).mpr fun _ _ => ?_
    obtain ⟨_, hscope', hplan'⟩ := ResearchProject.act_status hacted
    rw [← hscope'] at hscope
    rw [← hplan'] at hplan
    refine ⟨fun hnone => ?_, fun _ hnone => ?_⟩
    · rw [hnone] at hscope
      cases hscope
    · rw [hnone] at hplan
      cases hplan
  | changeContent projectId fallbackStatus =>
    refine hkeeps (t := s.step hashing (.changeContent projectId fallbackStatus)) ?_
    simp only [WorkflowSys.step]
    split
    · exact h.modify rfl fun _ hproject => hproject.invalidate _
    · exact h
  | startGenerator => exact hkeeps h
  | generate k answer =>
    simp only [WorkflowSys.step]
    split
    · rename_i projectId phase hk
      exact stepGenerator_iff h hok answer hk
    · rename_i hk
      simp only [KeepsAdmitting, hk]
      exact hkeeps h

/-- **No project is ever wedged exactly as long as `KeepsAdmitting` holds.** -/
theorem neverWedged_iff (hashing : SnapshotHashing) (trace : List WorkflowAct) :
    (∀ n, NeverWedged ((trace.take n).foldl (WorkflowSys.step hashing) .initial).db) ↔
      TraceOk (WorkflowSys.step hashing) KeepsAdmitting .initial trace :=
  forall_take_iff_traceOk (I := fun s : WorkflowSys => StatusesOk s.db)
    (P := fun s : WorkflowSys => NeverWedged s.db)
    (fun _ a hI => step_statusesOk hI a) (fun _ a hI h => step_neverWedged_iff h hI a)
    (fun _ h => absurd h List.not_mem_nil) (fun _ h => absurd h List.not_mem_nil) trace

/-- The quality assurance of a project whose scope nobody has approved. -/
def qaBeforeScope : List WorkflowAct := [.createProject exampleIntake, .runProjectQa 0 [] 1]

/-- The scope of the project is not approved, and cannot be. -/
theorem qaBeforeScope_wedged :
    let s := qaBeforeScope.foldl (WorkflowSys.step encodeHashing) .initial
    Reach (WorkflowSys.step encodeHashing) Always .initial s ∧ ¬ NeverWedged s.db ∧
      approveScope 0 2 s.db = .error (conflict .INVALID_PROJECT_STATE
        "Scope approval is only allowed during intake or scoping.") :=
  ⟨.ofActions _ _, by decide +kernel, rfl⟩

end ResearchWorkbench.Workflow
