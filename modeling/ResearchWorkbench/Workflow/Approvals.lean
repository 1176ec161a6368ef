import Mathlib.Logic.Equiv.List
import Mathlib.Tactic.DeriveEncodable
import ResearchWorkbench.Library.Transition
import ResearchWorkbench.Services.Projects

namespace ResearchWorkbench.Workflow

/-!
# Approvals stand for what was approved

* `WorkflowSys`, `WorkflowAct`, `WorkflowSys.step` — any number of projects under all operations of
  the workflow, with calls of `generateProviderPlan` that are under way;
* `ApprovalsCurrent`, `CapturesCurrent` — what holds of approvals and of revisions;
* `ApprovalInv` — the invariant;
* `approvals_current` — both, in every reachable state.
-/

/-! ### The machine -/

/-- Where a call of `generateProviderPlan` is. -/
inductive GeneratorPhase
  /-- Before it reads the questions. -/
  | started
  /-- There are none: the provider is asked for some. -/
  | decomposing
  | addingQuestions (inputs : List ResearchQuestionInput)
  /-- The questions are read: the provider is asked for their plans. -/
  | planning (questionIds : List ℕ)
  | addingPlans (inputs : List ResearchPlanInput)
  /-- Returned, or thrown. -/
  | ended
  deriving DecidableEq, Repr

/-- What a provider answers, if it does. -/
structure ProviderAnswer where
  questions : Option (List ResearchQuestionInput)
  plans : Option (List ResearchPlanInput)
  deriving DecidableEq, Repr

/-- The tables, and the calls of `generateProviderPlan` with their projects. -/
structure WorkflowSys where
  db : WorkflowTables
  generators : List (ℕ × GeneratorPhase)
  deriving DecidableEq, Repr

/-- What may happen next, at the time `now`. -/
inductive WorkflowAct
  | createProject (input : ProjectIntake)
  | updateProjectScope (projectId : ℕ) (input : ProjectScopeUpdate)
  | approveScope (projectId now : ℕ)
  | approvePlan (projectId : ℕ) (planId : Option ℕ) (now : ℕ)
  | addResearchQuestion (projectId : ℕ) (input : ResearchQuestionInput)
  | updateResearchQuestion (projectId questionId : ℕ) (input : ResearchQuestionUpdate)
  | addResearchPlan (projectId : ℕ) (input : ResearchPlanInput)
  | captureApprovalRevision (projectId : ℕ) (kind : ApprovalRevisionKind)
  | runProjectQa (projectId : ℕ) (findings : List Bool) (now : ℕ)
  | resolveQaFinding (projectId findingId : ℕ) (resolved : Bool)
  | runApprovalAction (projectId : ℕ) (action : ApprovalAction) (content : ContentReadiness)
      (now : ℕ)
  /-- A change of the report, of claims, of sources or of evidence. -/
  | changeContent (projectId : ℕ) (fallbackStatus : ProjectStatus)
  | startGenerator (projectId : ℕ)
  /-- The next step of a call of `generateProviderPlan`. -/
  | generate (i : ℕ) (answer : ProviderAnswer)
  deriving DecidableEq, Repr

/-- The status that `invalidateDownstreamReview` is called with. -/
def ProjectStatus.isFallback : ProjectStatus → Bool
  | .researching | .synthesizing | .qa => true
  | _ => false

/-- The tables after a transaction; an error rolls it back. -/
def orUnchanged (db : WorkflowTables) : Except ServiceError WorkflowTables → WorkflowTables
  | .ok db => db
  | .error _ => db

/-- The plans that the provider returns have exactly one step for every question. -/
def areValidSteps (questionIds : List ℕ) (inputs : List ResearchPlanInput) : Bool :=
  inputs.length = questionIds.length && decide (inputs.map (·.questionId)).Nodup &&
    inputs.all (·.questionId ∈ questionIds)

namespace WorkflowSys

/-- The ids of the questions of a project. -/
def questionIds (s : WorkflowSys) (projectId : ℕ) : List ℕ :=
  idsWhere (fun _ question => question.projectId = projectId) s.db.questions

/-- The tables and the phase after the next step of `generateProviderPlan(projectId)`. -/
def stepGenerator (s : WorkflowSys) (projectId : ℕ) (answer : ProviderAnswer) :
    GeneratorPhase → WorkflowTables × GeneratorPhase
  | .started =>
    if s.db.projects.length ≤ projectId then (s.db, .ended)
    else if s.questionIds projectId = [] then (s.db, .decomposing)
    else (s.db, .planning (s.questionIds projectId))
  | .decomposing =>
    match answer.questions with
    | some inputs => (s.db, .addingQuestions inputs)
    | none => (s.db, .ended)
  | .addingQuestions [] => (s.db, .planning (s.questionIds projectId))
  | .addingQuestions (input :: inputs) =>
    match Workflow.addResearchQuestion projectId input s.db with
    | .ok db => (db, .addingQuestions inputs)
    | .error _ => (s.db, .ended)
  | .planning questionIds =>
    match answer.plans with
    | some inputs =>
      if areValidSteps questionIds inputs then (s.db, .addingPlans inputs) else (s.db, .ended)
    | none => (s.db, .ended)
  | .addingPlans [] => (s.db, .ended)
  | .addingPlans (input :: inputs) =>
    match Workflow.addResearchPlan projectId { input with aiSuggested := true } s.db with
    | .ok db => (db, .addingPlans inputs)
    | .error _ => (s.db, .ended)
  | .ended => (s.db, .ended)

section

variable (hashing : SnapshotHashing)

/-- The tables after a transaction. -/
def transact (s : WorkflowSys) (result : Except ServiceError WorkflowTables) : WorkflowSys :=
  { s with db := orUnchanged s.db result }

/-- One step. -/
def step (s : WorkflowSys) : WorkflowAct → WorkflowSys
  | .createProject input => { s with db := Workflow.createProject input s.db }
  | .updateProjectScope projectId input =>
    s.transact (Workflow.updateProjectScope projectId input s.db)
  | .approveScope projectId now => s.transact (Workflow.approveScope projectId now s.db)
  | .approvePlan projectId planId now =>
    s.transact (Workflow.approvePlan projectId planId now s.db)
  | .addResearchQuestion projectId input =>
    s.transact (Workflow.addResearchQuestion projectId input s.db)
  | .updateResearchQuestion projectId questionId input =>
    s.transact (Workflow.updateResearchQuestion projectId questionId input s.db)
  | .addResearchPlan projectId input =>
    s.transact (Workflow.addResearchPlan projectId input s.db)
  | .captureApprovalRevision projectId kind =>
    s.transact (Prod.snd <$> Workflow.captureApprovalRevision hashing projectId kind s.db)
  | .runProjectQa projectId findings now =>
    s.transact (Workflow.runProjectQa projectId findings now s.db)
  | .resolveQaFinding projectId findingId resolved =>
    s.transact (Workflow.resolveQaFinding projectId findingId resolved s.db)
  | .runApprovalAction projectId action content now =>
    s.transact (Workflow.runApprovalAction projectId action content now s.db)
  | .changeContent projectId fallbackStatus =>
    if fallbackStatus.isFallback then
      { s with db := invalidateDownstreamReview projectId fallbackStatus s.db }
    else s
  | .startGenerator projectId => { s with generators := s.generators ++ [(projectId, .started)] }
  | .generate i answer =>
    match s.generators[i]? with
    | some (projectId, phase) =>
      let (db, phase) := s.stepGenerator projectId answer phase
      { db, generators := s.generators.set i (projectId, phase) }
    | none => s

end

/-- The first state: no project yet. -/
def initial : WorkflowSys := ⟨⟨[], [], [], [], []⟩, []⟩

end WorkflowSys

/-! ### The property -/

/-- Every question of the project has an approved plan whose content is the approved one. -/
structure PlanApproved (db : WorkflowTables) (projectId : ℕ) : Prop where
  nonempty : ∃ question ∈ db.questions, question.projectId = projectId
  approved : ∀ (questionId : ℕ) (question : ResearchQuestion),
    db.questions[questionId]? = some question → question.projectId = projectId →
      ∃ plan ∈ db.plans, plan.questionId = questionId ∧ plan.projectId = projectId ∧
        plan.humanApproved ∧ plan.approvedContent = some plan.content

/-- **Approvals are current.** -/
structure ApprovalsCurrent (db : WorkflowTables) : Prop where
  plan : ∀ (projectId : ℕ) (project : ResearchProject), db.projects[projectId]? = some project →
    project.planApprovedAt.isSome → project.scopeApprovedAt.isSome ∧ PlanApproved db projectId
  scope : ∀ project ∈ db.projects, project.scopeApprovedAt.isSome →
    project.approvedScope = some project.scope
  /-- Revisions are numbered without gaps, and have different contents. -/
  numbers : ∀ (projectId : ℕ) (kind : ApprovalRevisionKind),
    (revisionsOf projectId kind db.revisions).map (·.revisionNumber) =
      List.range' 1 (revisionsOf projectId kind db.revisions).length
  hashes : ∀ (projectId : ℕ) (kind : ApprovalRevisionKind),
    ((revisionsOf projectId kind db.revisions).map (·.contentHash)).Nodup

/-- A capture succeeds with the approval only, and returns a revision with the current content, to
    which the project refers from then on. -/
def CapturesCurrent (hashing : SnapshotHashing) (db : WorkflowTables) : Prop :=
  ∀ (projectId : ℕ) (kind : ApprovalRevisionKind) (revision : ApprovalRevision)
    (db' : WorkflowTables),
    captureApprovalRevision hashing projectId kind db = .ok (revision, db') →
      ∃ (project : ResearchProject) (revisionId : ℕ), db.projects[projectId]? = some project ∧
        (project.kindApprovedAt kind).isSome ∧
        revision.snapshot = approvalSnapshot projectId project db kind ∧
        db'.revisions[revisionId]? = some revision ∧
        revision.projectId = projectId ∧ revision.kind = kind ∧
        db'.projects[projectId]? = some (project.withRevision revisionId kind)

/-! ### The invariant -/

variable {hashing : SnapshotHashing} {db db' : WorkflowTables} {projectId i : ℕ}
  {project : ResearchProject} {f : ResearchProject → ResearchProject}

/-- The project has questions, each with an approved plan. -/
def PlanReady (db : WorkflowTables) (projectId : ℕ) : Prop :=
  (∃ question ∈ db.questions, question.projectId = projectId) ∧
    ∀ (questionId : ℕ) (question : ResearchQuestion), db.questions[questionId]? = some question →
      question.projectId = projectId → ∃ plan ∈ db.plans, plan.questionId = questionId ∧
        plan.projectId = projectId ∧ plan.humanApproved

/-- The approvals of a project are current. -/
structure ProjectOk (db : WorkflowTables) (projectId : ℕ) (project : ResearchProject) : Prop where
  plan : project.planApprovedAt.isSome → project.scopeApprovedAt.isSome ∧ PlanReady db projectId
  scope : project.scopeApprovedAt.isSome → project.approvedScope = some project.scope

/-- Revisions are numbered, and have different contents. -/
structure RevisionsOk (hashing : SnapshotHashing) (revisions : List ApprovalRevision) : Prop where
  numbers : ∀ (projectId : ℕ) (kind : ApprovalRevisionKind),
    (revisionsOf projectId kind revisions).map (·.revisionNumber) =
      List.range' 1 (revisionsOf projectId kind revisions).length
  hashes : ∀ (projectId : ℕ) (kind : ApprovalRevisionKind),
    ((revisionsOf projectId kind revisions).map (·.contentHash)).Nodup
  snapshots : ∀ revision ∈ revisions, revision.contentHash = hashing.inputHash revision.snapshot

/-- **The invariant.** -/
structure ApprovalInv (hashing : SnapshotHashing) (db : WorkflowTables) : Prop where
  projects : ∀ (projectId : ℕ) (project : ResearchProject),
    db.projects[projectId]? = some project → ProjectOk db projectId project
  contents : ∀ plan ∈ db.plans, plan.humanApproved → plan.approvedContent = some plan.content
  revisions : RevisionsOk hashing db.revisions

/-- A change of one project; the others keep their approved plans. -/
theorem ApprovalInv.modify (hI : ApprovalInv hashing db)
    (hprojects : db'.projects = db.projects.modify i f)
    (hother : ∀ j, j ≠ i → PlanReady db j → PlanReady db' j)
    (hself : ∀ project, db.projects[i]? = some project → ProjectOk db' i (f project))
    (hcontents : ∀ plan ∈ db'.plans, plan.humanApproved → plan.approvedContent = some plan.content)
    (hrevisions : RevisionsOk hashing db'.revisions) : ApprovalInv hashing db' := by
  refine ⟨fun j project hj => ?_, hcontents, hrevisions⟩
  rw [hprojects] at hj
  by_cases hij : i = j
  · obtain rfl := hij
    cases hi : db.projects[i]? with
    | none => simp [hi] at hj
    | some project' =>
      rw [getElem?_modify_eq hi] at hj
      rw [← Option.some.inj hj]
      exact hself project' hi
  · rw [getElem?_modify_ne hij] at hj
    have hok := hI.projects j project hj
    exact ⟨fun h => ⟨(hok.plan h).1, hother j (Ne.symm hij) (hok.plan h).2⟩, hok.scope⟩

/-- A change of a project that neither approves anything nor changes its scope. -/
structure KeepsApprovals (project project' : ResearchProject) : Prop where
  scope : project'.scope = project.scope
  approvedScope : project'.approvedScope = project.approvedScope
  scopeApprovedAt : project'.scopeApprovedAt = project.scopeApprovedAt
  planApprovedAt : project'.planApprovedAt.isSome → project.planApprovedAt.isSome

theorem ProjectOk.keeps {project' : ResearchProject} (hok : ProjectOk db i project)
    (h : KeepsApprovals project project') (hready : PlanReady db i → PlanReady db' i) :
    ProjectOk db' i project' where
  plan hplan := by
    obtain ⟨hscope, hplans⟩ := hok.plan (h.planApprovedAt hplan)
    rw [h.scopeApprovedAt]
    exact ⟨hscope, hready hplans⟩
  scope hscope := by
    rw [h.scopeApprovedAt] at hscope
    rw [h.approvedScope, h.scope]
    exact hok.scope hscope

/-- A project whose plan is not approved. -/
theorem ProjectOk.withdrawn {project' : ResearchProject} (hok : ProjectOk db i project)
    (h : KeepsApprovals project project') (hnone : project'.planApprovedAt = none) :
    ProjectOk db' i project' where
  plan hplan := by
    rw [hnone] at hplan
    cases hplan
  scope hscope := by
    rw [h.scopeApprovedAt] at hscope
    rw [h.approvedScope, h.scope]
    exact hok.scope hscope

theorem KeepsApprovals.refl (project : ResearchProject) : KeepsApprovals project project :=
  ⟨rfl, rfl, rfl, id⟩

theorem ResearchProject.invalidate_keeps (project : ResearchProject)
    (fallbackStatus : ProjectStatus) : KeepsApprovals project (project.invalidate fallbackStatus) :=
  ⟨rfl, rfl, rfl, id⟩

/-- Rows of other tables do not matter. -/
theorem ApprovalInv.updateProject (hI : ApprovalInv hashing db)
    (hf : ∀ project, KeepsApprovals project (f project)) :
    ApprovalInv hashing (db.updateProject i f) :=
  hI.modify rfl (fun _ _ h => h)
    (fun project hi => (hI.projects i project hi).keeps (hf project) id) hI.contents hI.revisions

theorem ApprovalInv.setFindings (hI : ApprovalInv hashing db) (qaFindings : List ProjectQaFinding) :
    ApprovalInv hashing { db with qaFindings } :=
  ⟨fun j project hj => ⟨(hI.projects j project hj).plan, (hI.projects j project hj).scope⟩,
    hI.contents, hI.revisions⟩

theorem ApprovalInv.invalidate (hI : ApprovalInv hashing db) {fallbackStatus : ProjectStatus} :
    ApprovalInv hashing (invalidateDownstreamReview i fallbackStatus db) :=
  hI.updateProject fun project => project.invalidate_keeps fallbackStatus

theorem updateProject_modify {g : ResearchProject → ResearchProject} :
    ((db.updateProject i f).updateProject i g).projects =
      db.projects.modify i (fun project => g (f project)) := by
  simp only [WorkflowTables.updateProject, List.modify_modify_eq]
  rfl

/-! ### Transactions -/

theorem createProject_inv (hI : ApprovalInv hashing db) (input : ProjectIntake) :
    ApprovalInv hashing (createProject input db) := by
  refine ⟨fun j project hj => ?_, hI.contents, hI.revisions⟩
  obtain hj | ⟨_, rfl⟩ := getElem?_concat_cases hj
  · exact ⟨(hI.projects j project hj).plan, (hI.projects j project hj).scope⟩
  · exact ⟨nofun, nofun⟩

theorem updateProjectScope_inv (hI : ApprovalInv hashing db) {input : ProjectScopeUpdate}
    (h : updateProjectScope i input db = .ok db') : ApprovalInv hashing db' := by
  simp only [updateProjectScope, bind_eq_ok, pure_eq_ok] at h
  obtain ⟨_, _, rfl⟩ := h
  refine hI.modify updateProject_modify (fun j hij hready => ?_) (fun project _ => ⟨nofun, nofun⟩)
    (fun plan hplan happroved => ?_) hI.revisions
  · refine ⟨hready.1, fun questionId question hquestion hproject => ?_⟩
    obtain ⟨plan, hplan, hid, hplanProject, happroved⟩ :=
      hready.2 questionId question hquestion hproject
    obtain ⟨k, hk⟩ := List.mem_iff_getElem?.mp hplan
    have hkept : decide (plan.projectId = i) = false :=
      decide_eq_false (by rw [hplanProject]; exact hij)
    refine ⟨plan, List.mem_of_getElem? (i := k) ?_, hid, hplanProject, happroved⟩
    simp only [invalidateDownstreamReview, WorkflowTables.updateProject, getElem?_updateWhere, hk,
      Option.map_some, hkept]
    rfl
  · obtain ⟨k, hk⟩ := List.mem_iff_getElem?.mp hplan
    simp only [invalidateDownstreamReview, WorkflowTables.updateProject, getElem?_updateWhere,
      Option.map_eq_some_iff] at hk
    obtain ⟨plan', hplan', rfl⟩ := hk
    split at happroved
    · cases happroved
    · rename_i hkept
      rw [if_neg hkept]
      exact hI.contents plan' (List.mem_of_getElem? hplan') happroved

theorem approveScope_inv (hI : ApprovalInv hashing db) {now : ℕ}
    (h : approveScope i now db = .ok db') : ApprovalInv hashing db' := by
  simp only [approveScope, bind_eq_ok, pure_eq_ok] at h
  obtain ⟨_, _, _, _, rfl⟩ := h
  refine hI.modify rfl (fun _ _ h => h) (fun project hi => ⟨fun hplan => ?_, fun _ => rfl⟩)
    hI.contents hI.revisions
  exact ⟨rfl, ((hI.projects i project hi).plan hplan).2⟩

/-- The plans after an approval: they are what they were, or approved as they are. -/
theorem approvePlans_mem {planId : Option ℕ} {now : ℕ}
    (h : approvePlans i planId now db = .ok db') :
    db' = { db with plans := db'.plans } ∧
      (∀ plan ∈ db.plans, ∃ plan' ∈ db'.plans, plan'.questionId = plan.questionId ∧
        plan'.projectId = plan.projectId ∧ (plan.humanApproved → plan'.humanApproved)) ∧
      ∀ plan' ∈ db'.plans, plan' ∈ db.plans ∨ plan'.approvedContent = some plan'.content := by
  unfold approvePlans at h
  split at h
  · rename_i planId
    simp only [bind_eq_ok, pure_eq_ok] at h
    obtain ⟨_, _, rfl⟩ := h
    refine ⟨rfl, fun plan hplan => ?_, fun plan' hplan' => ?_⟩
    · obtain ⟨k, hk⟩ := List.mem_iff_getElem?.mp hplan
      by_cases hkid : planId = k
      · obtain rfl := hkid
        exact ⟨_, List.mem_of_getElem? (getElem?_modify_eq hk), rfl, rfl, fun _ => rfl⟩
      · exact ⟨plan, List.mem_of_getElem? ((getElem?_modify_ne hkid).trans hk), rfl, rfl, id⟩
    · obtain ⟨k, hk⟩ := List.mem_iff_getElem?.mp hplan'
      by_cases hkid : planId = k
      · obtain rfl := hkid
        cases hplan : db.plans[planId]? with
        | none => simp [hplan] at hk
        | some plan =>
          rw [getElem?_modify_eq hplan] at hk
          obtain rfl := Option.some.inj hk
          exact .inr rfl
      · rw [getElem?_modify_ne hkid] at hk
        exact .inl (List.mem_of_getElem? hk)
  · obtain rfl := pure_eq_ok.mp h
    refine ⟨rfl, fun plan hplan => ?_, fun plan' hplan' => ?_⟩
    · obtain ⟨k, hk⟩ := List.mem_iff_getElem?.mp hplan
      refine ⟨_, List.mem_of_getElem? (i := k) (by rw [getElem?_updateWhere, hk]; rfl), ?_⟩
      dsimp only
      split
      · exact ⟨rfl, rfl, fun _ => rfl⟩
      · exact ⟨rfl, rfl, id⟩
    · obtain ⟨k, hk⟩ := List.mem_iff_getElem?.mp hplan'
      rw [getElem?_updateWhere, Option.map_eq_some_iff] at hk
      obtain ⟨plan, hplan, rfl⟩ := hk
      split
      · exact .inr rfl
      · exact .inl (List.mem_of_getElem? hplan)

/-- What `planReadiness` counts. -/
theorem isPlanReady_iff (h : db.isPlanReady i) : PlanReady db i := by
  simp only [WorkflowTables.isPlanReady, Bool.and_eq_true, decide_eq_true_eq,
    List.countP_eq_zero] at h
  obtain ⟨⟨hlength, hmissing⟩, hunapproved⟩ := h
  obtain ⟨questionId, hquestion⟩ := List.length_pos_iff_exists_mem.mp hlength
  obtain ⟨question, hrow, hproject⟩ := mem_idsWhere.mp hquestion
  refine ⟨⟨question, List.mem_of_getElem? hrow, of_decide_eq_true hproject⟩, ?_⟩
  intro questionId question hquestion hproject
  have hmem := (mem_idsWhere (p := fun _ question => decide (question.projectId = i))).mpr
    ⟨question, hquestion, decide_eq_true hproject⟩
  have hsome := hmissing questionId hmem
  have happroved := hunapproved questionId hmem
  cases hplan : db.planOf questionId i with
  | none =>
    rw [hplan] at hsome
    exact absurd rfl hsome
  | some row =>
    obtain ⟨hrow, hq⟩ := findRow_eq_some hplan
    simp only [Bool.and_eq_true, decide_eq_true_eq] at hq
    rw [hplan, Option.any_some, Bool.not_eq_true', Bool.not_eq_false] at happroved
    exact ⟨row.2, List.mem_of_getElem? hrow, hq.1, hq.2, happroved⟩

theorem approvePlan_inv (hI : ApprovalInv hashing db) {planId : Option ℕ} {now : ℕ}
    (h : approvePlan i planId now db = .ok db') : ApprovalInv hashing db' := by
  simp only [approvePlan, bind_eq_ok, ensure_eq_ok] at h
  obtain ⟨project, hproject, _, _, _, hscope, db₁, hplans, h⟩ := h
  obtain ⟨heq, hkept, hcontents⟩ := approvePlans_mem hplans
  have hquestions : db₁.questions = db.questions := by rw [heq]
  have hready {j : ℕ} (hj : PlanReady db j) : PlanReady db₁ j := by
    rw [PlanReady, hquestions]
    refine ⟨hj.1, fun questionId question hquestion hid => ?_⟩
    obtain ⟨plan, hplan, hplanId, hplanProject, happroved⟩ := hj.2 questionId question hquestion hid
    obtain ⟨plan', hplan', hid', hproject', happroved'⟩ := hkept plan hplan
    exact ⟨plan', hplan', hid'.trans hplanId, hproject'.trans hplanProject, happroved' happroved⟩
  have hI₁ : ApprovalInv hashing db₁ := by
    refine ⟨fun j project hj => ?_, fun plan hplan happroved => ?_, ?_⟩
    · rw [heq] at hj
      exact (hI.projects j project hj).keeps (.refl project) hready
    · obtain hold | hnew := hcontents plan hplan
      · exact hI.contents plan hold happroved
      · exact hnew
    · rw [heq]
      exact hI.revisions
  split at h
  · rename_i hisReady
    obtain rfl := pure_eq_ok.mp h
    refine hI₁.modify rfl (fun _ _ h => h) (fun project' hi => ⟨fun _ => ⟨?_, ?_⟩, ?_⟩)
      hI₁.contents hI₁.revisions
    · rw [heq] at hi
      obtain rfl : project = project' :=
        Option.some.inj ((require_eq_ok.mp hproject).symm.trans hi)
      exact hscope
    · exact isPlanReady_iff hisReady
    · exact (hI₁.projects i project' hi).scope
  · simp only [bind_eq_ok, ensure_eq_ok, pure_eq_ok] at h
    obtain ⟨_, _, rfl⟩ := h
    exact hI₁

/-- A withdrawal of the approval of the plan, with the review. -/
theorem withdraw_keeps (project : ResearchProject) (fallbackStatus : ProjectStatus) :
    KeepsApprovals project
      (({ project with planApprovedAt := none } : ResearchProject).invalidate fallbackStatus) :=
  ⟨rfl, rfl, rfl, nofun⟩

theorem addResearchQuestion_inv (hI : ApprovalInv hashing db) {input : ResearchQuestionInput}
    (h : addResearchQuestion i input db = .ok db') : ApprovalInv hashing db' := by
  simp only [addResearchQuestion, bind_eq_ok, pure_eq_ok] at h
  obtain ⟨_, _, _, _, rfl⟩ := h
  refine hI.modify updateProject_modify (fun j hij hready => ⟨?_, ?_⟩) (fun project hi =>
    (hI.projects i project hi).withdrawn (withdraw_keeps project .researching) rfl)
    hI.contents hI.revisions
  · obtain ⟨question, hquestion, hproject⟩ := hready.1
    exact ⟨question, List.mem_append_left _ hquestion, hproject⟩
  · intro questionId question hquestion hproject
    obtain hold | ⟨_, rfl⟩ := getElem?_concat_cases hquestion
    · exact hready.2 questionId question hold hproject
    · exact absurd hproject.symm hij

/-- Questions keep their projects, and plans are not touched. -/
theorem PlanReady.modifyQuestion {g : ResearchQuestion → ResearchQuestion} {questionId : ℕ}
    {plans : List ResearchPlan} {projects : List ResearchProject}
    (h : PlanReady { db with plans, projects } i)
    (hg : ∀ question, (g question).projectId = question.projectId) :
    PlanReady { db with plans, projects, questions := db.questions.modify questionId g } i := by
  have hrow {id : ℕ} {question : ResearchQuestion}
      (hquestion : (db.questions.modify questionId g)[id]? = some question) :
      ∃ question', db.questions[id]? = some question' ∧
        question.projectId = question'.projectId := by
    by_cases hid : questionId = id
    · obtain rfl := hid
      cases hold : db.questions[questionId]? with
      | none => simp [hold] at hquestion
      | some question' =>
        rw [getElem?_modify_eq hold] at hquestion
        obtain rfl := Option.some.inj hquestion
        exact ⟨question', rfl, hg question'⟩
    · rw [getElem?_modify_ne hid] at hquestion
      exact ⟨question, hquestion, rfl⟩
  refine ⟨?_, fun id question hquestion hproject => ?_⟩
  · obtain ⟨question, hquestion, hproject⟩ := h.1
    obtain ⟨id, hid⟩ := List.mem_iff_getElem?.mp hquestion
    by_cases hquestionId : questionId = id
    · obtain rfl := hquestionId
      exact ⟨_, List.mem_of_getElem? (getElem?_modify_eq hid), (hg question).trans hproject⟩
    · exact ⟨question, List.mem_of_getElem? ((getElem?_modify_ne hquestionId).trans hid), hproject⟩
  · obtain ⟨question', hold, hsame⟩ := hrow hquestion
    exact h.2 id question' hold (hsame.symm.trans hproject)

theorem updateResearchQuestion_inv (hI : ApprovalInv hashing db) {questionId : ℕ}
    {input : ResearchQuestionUpdate} (h : updateResearchQuestion i questionId input db = .ok db') :
    ApprovalInv hashing db' := by
  simp only [updateResearchQuestion, bind_eq_ok, pure_eq_ok] at h
  obtain ⟨_, _, _, _, rfl⟩ := h
  refine ApprovalInv.invalidate ?_
  refine ⟨fun j project hj => ?_, hI.contents, hI.revisions⟩
  exact (hI.projects j project hj).keeps (.refl project) fun hready =>
    hready.modifyQuestion fun _ => rfl

theorem savePlan_mem {input : ResearchPlanInput} {plans : List ResearchPlan} :
    (∀ plan ∈ plans, plan.questionId ≠ input.questionId → plan ∈ savePlan i input plans) ∧
      ∀ plan ∈ savePlan i input plans, plan ∈ plans ∨ plan.humanApproved = false := by
  unfold savePlan
  split
  · refine ⟨fun plan hplan hne => mem_updateWhere_of_not hplan fun _ => decide_eq_false hne,
      fun plan hplan => ?_⟩
    obtain ⟨k, hk⟩ := List.mem_iff_getElem?.mp hplan
    rw [getElem?_updateWhere, Option.map_eq_some_iff] at hk
    obtain ⟨plan', hplan', rfl⟩ := hk
    split
    · exact .inr rfl
    · exact .inl (List.mem_of_getElem? hplan')
  · refine ⟨fun plan hplan _ => List.mem_append_left _ hplan, fun plan hplan => ?_⟩
    obtain hplan | hplan := List.mem_append.mp hplan
    · exact .inl hplan
    · rw [List.mem_singleton.mp hplan]
      exact .inr rfl

theorem addResearchPlan_inv (hI : ApprovalInv hashing db) {input : ResearchPlanInput}
    (h : addResearchPlan i input db = .ok db') : ApprovalInv hashing db' := by
  simp only [addResearchPlan, bind_eq_ok, ensure_eq_ok, pure_eq_ok] at h
  obtain ⟨_, _, _, hquestion, rfl⟩ := h
  obtain ⟨question, hrow, hproject⟩ := (Option.any_eq_true _ _).mp hquestion
  refine hI.modify updateProject_modify (fun j hij hready => ?_) (fun project hi =>
    (hI.projects i project hi).withdrawn (withdraw_keeps project .researching) rfl)
    (fun plan hplan happroved => ?_) hI.revisions
  · refine PlanReady.modifyQuestion ⟨hready.1, fun questionId question' hquestion' hproject' => ?_⟩
      fun _ => rfl
    obtain ⟨plan, hplan, hid, hplanProject, happroved⟩ :=
      hready.2 questionId question' hquestion' hproject'
    refine ⟨plan, savePlan_mem.1 plan hplan fun heq => hij ?_, hid, hplanProject, happroved⟩
    -- a question of another project is another one
    rw [hid] at heq
    obtain rfl := heq
    obtain rfl : question = question' := Option.some.inj (hrow.symm.trans hquestion')
    exact hproject'.symm.trans (of_decide_eq_true hproject)
  · obtain hold | hfalse := savePlan_mem.2 plan hplan
    · exact hI.contents plan hold happroved
    · rw [hfalse] at happroved
      cases happroved

theorem foldl_max_range' (n m : ℕ) : (List.range' m n).foldl max 0 = if n = 0 then 0 else m + n - 1 := by
  induction n with
  | zero => rfl
  | succ n ih =>
    rw [List.range'_concat, List.foldl_append, ih]
    split
    · subst_vars
      simp
    · simp

theorem revisionsOf_append {revision : ApprovalRevision} {revisions : List ApprovalRevision}
    {kind : ApprovalRevisionKind} :
    revisionsOf projectId kind (revisions ++ [revision]) = revisionsOf projectId kind revisions ++
      if revision.projectId = projectId ∧ revision.kind = kind then [revision] else [] := by
  simp only [revisionsOf, List.filter_append, List.filter_cons, List.filter_nil, Bool.and_eq_true,
    decide_eq_true_eq]

/-- A revision of new content is numbered next. -/
theorem RevisionsOk.append {revisions : List ApprovalRevision} {kind : ApprovalRevisionKind}
    {snapshot : ApprovalSnapshot} {approvedAt : ℕ} (h : RevisionsOk hashing revisions)
    (hnew : ∀ revision ∈ revisionsOf i kind revisions,
      revision.contentHash ≠ hashing.inputHash snapshot) :
    RevisionsOk hashing (revisions ++ [⟨i, kind, nextRevisionNumber (revisionsOf i kind revisions),
      snapshot, hashing.inputHash snapshot, approvedAt⟩]) := by
  refine ⟨fun j kind' => ?_, fun j kind' => ?_, fun revision hrevision => ?_⟩
  · rw [revisionsOf_append]
    split
    · rename_i hsame
      obtain ⟨rfl, rfl⟩ := hsame
      rw [List.map_append, h.numbers, List.length_append, List.length_singleton,
        List.range'_concat]
      simp only [List.map_cons, List.map_nil, nextRevisionNumber, h.numbers, foldl_max_range']
      congr 2
      split <;> omega
    · rw [List.append_nil]
      exact h.numbers j kind'
  · rw [revisionsOf_append]
    split
    · rename_i hsame
      obtain ⟨rfl, rfl⟩ := hsame
      rw [List.map_append, List.nodup_append]
      refine ⟨h.hashes _ _, List.pairwise_singleton _ _, ?_⟩
      rintro a ha b hb rfl
      obtain ⟨revision, hrevision, rfl⟩ := List.mem_map.mp ha
      exact hnew revision hrevision (List.mem_singleton.mp hb)
    · rw [List.append_nil]
      exact h.hashes j kind'
  · obtain hrevision | hrevision := List.mem_append.mp hrevision
    · exact h.snapshots revision hrevision
    · rw [List.mem_singleton.mp hrevision]

theorem withRevision_keeps (project : ResearchProject) (revisionId : ℕ)
    (kind : ApprovalRevisionKind) : KeepsApprovals project (project.withRevision revisionId kind) := by
  cases kind <;> exact ⟨rfl, rfl, rfl, id⟩

/-- **Captures.** -/
theorem captureApprovalRevision_inv (hI : ApprovalInv hashing db) {kind : ApprovalRevisionKind}
    {revision : ApprovalRevision} (h : captureApprovalRevision hashing i kind db = .ok (revision, db')) :
    ApprovalInv hashing db' ∧ ∃ (project : ResearchProject) (revisionId : ℕ),
      db.projects[i]? = some project ∧ (project.kindApprovedAt kind).isSome ∧
      revision.snapshot = approvalSnapshot i project db kind ∧
      db'.revisions[revisionId]? = some revision ∧ revision.projectId = i ∧ revision.kind = kind ∧
      db'.projects[i]? = some (project.withRevision revisionId kind) := by
  simp only [captureApprovalRevision, ensureApprovalRevision, bind_eq_ok, require_eq_ok,
    WorkflowTables.lockProject] at h
  obtain ⟨project, hproject, approvedAt, happroved, h⟩ := h
  have hsome : (project.kindApprovedAt kind).isSome := by rw [happroved]; rfl
  split at h
  · rename_i revisionId found hfind
    obtain ⟨rfl, rfl⟩ := Prod.ext_iff.mp (pure_eq_ok.mp h)
    obtain ⟨hrow, hq⟩ := findRow_eq_some hfind
    simp only [Bool.and_eq_true, decide_eq_true_eq] at hq
    refine ⟨hI.updateProject fun project => withRevision_keeps project revisionId kind, project,
      revisionId, hproject, hsome, ?_, hrow, hq.1.1, hq.1.2, getElem?_modify_eq hproject⟩
    have hhash := hI.revisions.snapshots _ (List.mem_of_getElem? hrow)
    exact hashing.inputHash_injective (hhash.symm.trans hq.2)
  · rename_i hfind
    obtain ⟨rfl, rfl⟩ := Prod.ext_iff.mp (pure_eq_ok.mp h)
    refine ⟨?_, project, db.revisions.length, hproject, hsome, rfl,
      getElem?_concat_length _ _, rfl, rfl, getElem?_modify_eq hproject⟩
    refine hI.modify rfl (fun _ _ h => h) (fun project hi => (hI.projects i project hi).keeps
      (withRevision_keeps project db.revisions.length kind) id) hI.contents
      (hI.revisions.append fun revision hrevision heq => ?_)
    obtain ⟨hmem, hsame⟩ := List.mem_filter.mp hrevision
    exact findRow_eq_none.mp hfind revision hmem (by simp [hsame, heq])

theorem runProjectQa_inv (hI : ApprovalInv hashing db) {findings : List Bool} {now : ℕ}
    (h : runProjectQa i findings now db = .ok db') : ApprovalInv hashing db' := by
  simp only [runProjectQa, bind_eq_ok, pure_eq_ok] at h
  obtain ⟨_, _, rfl⟩ := h
  have hI' : ApprovalInv hashing (invalidateDownstreamReview i .qa db) := hI.invalidate
  refine ApprovalInv.updateProject ?_ fun project => ⟨rfl, rfl, rfl, id⟩
  exact hI'.setFindings _

theorem resolveQaFinding_inv (hI : ApprovalInv hashing db) {findingId : ℕ} {resolved : Bool}
    (h : resolveQaFinding i findingId resolved db = .ok db') : ApprovalInv hashing db' := by
  simp only [resolveQaFinding, bind_eq_ok] at h
  obtain ⟨_, _, _, _, h⟩ := h
  have hI' : ApprovalInv hashing (invalidateDownstreamReview i .qa db) := hI.invalidate
  split at h
  · obtain rfl := pure_eq_ok.mp h
    refine ApprovalInv.updateProject ?_ fun project => ⟨rfl, rfl, rfl, id⟩
    exact hI'.setFindings _
  · obtain rfl := pure_eq_ok.mp h
    exact hI'.setFindings _

theorem ResearchProject.act_keeps {action : ApprovalAction} {hasFinalExport : Bool} {now : ℕ}
    {acted : ResearchProject} (h : project.act action hasFinalExport now = .ok acted) :
    KeepsApprovals project acted := by
  cases action with
  | request =>
    simp only [ResearchProject.act, bind_eq_ok] at h
    obtain ⟨_, _, h⟩ := h
    split at h <;> cases pure_eq_ok.mp h <;> exact ⟨rfl, rfl, rfl, id⟩
  | approve confirmation =>
    simp only [ResearchProject.act, bind_eq_ok, pure_eq_ok] at h
    obtain ⟨_, _, _, _, rfl⟩ := h
    exact ⟨rfl, rfl, rfl, id⟩
  | deliver =>
    simp only [ResearchProject.act, bind_eq_ok, pure_eq_ok] at h
    obtain ⟨_, _, _, _, _, _, rfl⟩ := h
    exact ⟨rfl, rfl, rfl, id⟩

theorem runApprovalAction_inv (hI : ApprovalInv hashing db) {action : ApprovalAction}
    {content : ContentReadiness} {now : ℕ}
    (h : runApprovalAction i action content now db = .ok db') : ApprovalInv hashing db' := by
  simp only [runApprovalAction, bind_eq_ok, require_eq_ok, WorkflowTables.lockProject,
    pure_eq_ok] at h
  obtain ⟨project, hproject, _, _, _, _, acted, hacted, rfl⟩ := h
  refine hI.modify rfl (fun _ _ h => h) (fun project' hi => ?_) hI.contents hI.revisions
  obtain rfl : project = project' := Option.some.inj (hproject.symm.trans hi)
  exact (hI.projects i project hi).keeps (ResearchProject.act_keeps hacted) id

/-! ### The machine -/

theorem transact_inv (hI : ApprovalInv hashing db) {result : Except ServiceError WorkflowTables}
    (h : ∀ db', result = .ok db' → ApprovalInv hashing db') :
    ApprovalInv hashing (orUnchanged db result) := by
  cases result with
  | ok db' => exact h db' rfl
  | error e => exact hI

theorem stepGenerator_inv {s : WorkflowSys} (hI : ApprovalInv hashing s.db)
    (answer : ProviderAnswer) (phase : GeneratorPhase) :
    ApprovalInv hashing (s.stepGenerator i answer phase).1 := by
  unfold WorkflowSys.stepGenerator
  split
  case h_4 =>
    split
    · exact addResearchQuestion_inv hI ‹_›
    · exact hI
  case h_7 =>
    split
    · exact addResearchPlan_inv hI ‹_›
    · exact hI
  all_goals
    repeat' split
    all_goals exact hI

/-- **Steps.** -/
theorem step_approvalInv {s : WorkflowSys} (hI : ApprovalInv hashing s.db) (a : WorkflowAct) :
    ApprovalInv hashing (s.step hashing a).db := by
  cases a with
  | createProject input => exact createProject_inv hI input
  | updateProjectScope => exact transact_inv hI fun db' h => updateProjectScope_inv hI h
  | approveScope => exact transact_inv hI fun db' h => approveScope_inv hI h
  | approvePlan => exact transact_inv hI fun db' h => approvePlan_inv hI h
  | addResearchQuestion => exact transact_inv hI fun db' h => addResearchQuestion_inv hI h
  | updateResearchQuestion => exact transact_inv hI fun db' h => updateResearchQuestion_inv hI h
  | addResearchPlan => exact transact_inv hI fun db' h => addResearchPlan_inv hI h
  | captureApprovalRevision projectId kind =>
    refine transact_inv hI fun db' h => ?_
    obtain ⟨⟨revision, _⟩, hcapture, rfl⟩ := map_eq_ok.mp h
    exact (captureApprovalRevision_inv hI hcapture).1
  | runProjectQa => exact transact_inv hI fun db' h => runProjectQa_inv hI h
  | resolveQaFinding => exact transact_inv hI fun db' h => resolveQaFinding_inv hI h
  | runApprovalAction => exact transact_inv hI fun db' h => runApprovalAction_inv hI h
  | changeContent projectId fallbackStatus =>
    simp only [WorkflowSys.step]
    split
    · exact hI.invalidate
    · exact hI
  | startGenerator => exact hI
  | generate i answer =>
    simp only [WorkflowSys.step]
    split
    · exact stepGenerator_inv hI answer _
    · exact hI

theorem initial_approvalInv : ApprovalInv hashing WorkflowSys.initial.db where
  projects projectId project h := by simp [WorkflowSys.initial] at h
  contents plan h := absurd h List.not_mem_nil
  revisions := ⟨fun _ _ => rfl, fun _ _ => .nil, fun revision h => absurd h List.not_mem_nil⟩

theorem approvalInv_of_reach {s : WorkflowSys}
    (hs : Reach (WorkflowSys.step hashing) Always .initial s) : ApprovalInv hashing s.db :=
  hs.invariant (I := fun s => ApprovalInv hashing s.db) initial_approvalInv
    fun _ a hI _ => step_approvalInv hI a

/-- **Approvals are current** in every reachable state, and so is what a capture returns. -/
theorem approvals_current (hashing : SnapshotHashing) (s : WorkflowSys)
    (hs : Reach (WorkflowSys.step hashing) Always .initial s) :
    ApprovalsCurrent s.db ∧ CapturesCurrent hashing s.db := by
  have hI := approvalInv_of_reach hs
  refine ⟨⟨fun projectId project hproject hplan => ?_, fun project hproject => ?_,
    hI.revisions.numbers, hI.revisions.hashes⟩, fun projectId kind revision db' h =>
      (captureApprovalRevision_inv hI h).2⟩
  · obtain ⟨hscope, hready⟩ := (hI.projects projectId project hproject).plan hplan
    refine ⟨hscope, hready.1, fun questionId question hquestion hid => ?_⟩
    obtain ⟨plan, hmem, hplanId, hplanProject, happroved⟩ :=
      hready.2 questionId question hquestion hid
    exact ⟨plan, hmem, hplanId, hplanProject, happroved, hI.contents plan hmem happroved⟩
  · obtain ⟨projectId, hid⟩ := List.mem_iff_getElem?.mp hproject
    exact (hI.projects projectId project hid).scope

instance encodableChar : Encodable Char := .ofLeftInverse Char.toNat Char.ofNat fun c => by simp

instance encodableString : Encodable String := .ofLeftInverse String.toList String.ofList fun s => by simp

deriving instance Encodable for ScopeContent
deriving instance Encodable for PlanContent
deriving instance Encodable for PlanSnapshot
deriving instance Encodable for QuestionPriority
deriving instance Encodable for QuestionSnapshot
deriving instance Encodable for ApprovalSnapshot

/-- Snapshots as numbers. -/
def encodeHashing : SnapshotHashing := ⟨Encodable.encode, Encodable.encode_injective⟩

/-- An intake. -/
def exampleIntake : ProjectIntake :=
  ⟨"question", "", "purpose", "audience", "scope", "", "", "2026-01-01", 365, none, ["PDF"], ""⟩

/-- A question. -/
def exampleQuestion : ResearchQuestionInput := ⟨none, "question", .high, "criteria", none⟩

/-- A plan for the first question. -/
def examplePlan : ResearchPlanInput :=
  ⟨0, ⟨"strategy", ["query"], [], [], [], "output", "condition", [], none⟩, false⟩

/-- A project with an approved scope and an approved plan, and revisions of both. -/
def approvedAndCaptured : List WorkflowAct :=
  [.createProject exampleIntake, .approveScope 0 1, .addResearchQuestion 0 exampleQuestion,
    .addResearchPlan 0 examplePlan, .approvePlan 0 none 2, .captureApprovalRevision 0 .scope,
    .captureApprovalRevision 0 .plan]

theorem approvals_current_captured :
    let s := approvedAndCaptured.foldl (WorkflowSys.step encodeHashing) .initial
    s.db.projects.map (fun project => (project.scopeApprovedAt, project.planApprovedAt)) =
        [(some 1, some 2)] ∧
      s.db.revisions.map (fun revision => (revision.kind, revision.revisionNumber)) =
        [(.scope, 1), (.plan, 1)] ∧
      ApprovalsCurrent s.db ∧ CapturesCurrent encodeHashing s.db :=
  ⟨by decide +kernel, by decide +kernel, approvals_current encodeHashing _ (.ofActions _ _)⟩

end ResearchWorkbench.Workflow
