import ResearchWorkbench.Services.DomainEffects
import ResearchWorkbench.System.DomainSteps
import ResearchWorkbench.Worker.System

namespace ResearchWorkbench

/-!
# One current generation

The commit of a stage supersedes what the other rows of the stage have generated in the project, in
all of its runs; the restart of a stage supersedes what the run's own rows have generated.  Human
rows have no generating stage row, and neither touches them.

* `StageOf` — a stage row is one of a stage of a project;
* `OneGeneration`, `perform_oneGeneration` — the invariant and its step lemma;
* `HumanRowsKept` — human rows stay as they are;
* `one_current_generation` — both, along every run of the system.
-/

/-! ### What a commit generates -/

/-- `t'` may have current rows generated by the row `i`, and no other ones that `t` has not. -/
def Generates (i : ℕ) (t t' : ResearchTables) : Prop :=
  ∀ j ∈ t'.currentGenerators, j ∈ t.currentGenerators ∨ j = i

section
variable {α : Type} {generatedBy : α → Option ℕ} {isCurrent : α → Bool} {rows new : List α}
  {i j : ℕ} {bundle : StageBundle} {output : StageDocument} {t t' : ResearchTables}

theorem currentGeneratorsOf_append (hnew : ∀ row ∈ new, generatedBy row = some i)
    (h : j ∈ currentGeneratorsOf generatedBy isCurrent (rows ++ new)) :
    j ∈ currentGeneratorsOf generatedBy isCurrent rows ∨ j = i := by
  obtain ⟨row, hrow, hcur, hgen⟩ := mem_currentGeneratorsOf.mp h
  obtain hrow | hrow := List.mem_append.mp hrow
  · exact .inl (mem_currentGeneratorsOf.mpr ⟨row, hrow, hcur, hgen⟩)
  · exact .inr (Option.some.inj (hgen.symm.trans (hnew row hrow)))

theorem mem_currentGenerators : j ∈ t.currentGenerators ↔
    j ∈ currentGeneratorsOf EvidenceRow.generatedByRunStageId EvidenceRow.isCurrent t.evidence ∨
    j ∈ currentGeneratorsOf ClaimRow.generatedByRunStageId ClaimRow.isCurrent t.claims ∨
    j ∈ currentGeneratorsOf FindingRow.generatedByRunStageId FindingRow.isCurrent t.findings ∨
    j ∈ currentGeneratorsOf QaFindingRow.generatedByRunStageId QaFindingRow.isCurrent
      t.qaFindings := by
  simp [ResearchTables.currentGenerators]

theorem Generates.refl (i : ℕ) (t : ResearchTables) : Generates i t t := fun _ => .inl

theorem Generates.trans {t'' : ResearchTables} (h : Generates i t t') (h' : Generates i t' t'') :
    Generates i t t'' := fun j hj => (h' j hj).elim (h j) .inr

theorem generates_evidence {new : List EvidenceRow}
    (hnew : ∀ row ∈ new, row.generatedByRunStageId = some i) :
    Generates i t { t with evidence := t.evidence ++ new } := by
  intro j hj
  rw [mem_currentGenerators] at hj ⊢
  obtain hj | hj := hj
  · exact (currentGeneratorsOf_append hnew hj).imp .inl id
  · exact .inl (.inr hj)

theorem generates_claims {new : List ClaimRow} {links : List ClaimEvidenceRow}
    (hnew : ∀ row ∈ new, row.generatedByRunStageId = some i) :
    Generates i t { t with claims := t.claims ++ new, claimEvidence := links } := by
  intro j hj
  rw [mem_currentGenerators] at hj ⊢
  obtain hj | hj | hj := hj
  · exact .inl (.inl hj)
  · exact (currentGeneratorsOf_append hnew hj).imp (.inr ∘ .inl) id
  · exact .inl (.inr (.inr hj))

theorem generates_qaFindings {new : List QaFindingRow}
    (hnew : ∀ row ∈ new, row.generatedByRunStageId = some i) :
    Generates i t { t with qaFindings := t.qaFindings ++ new } := by
  intro j hj
  rw [mem_currentGenerators] at hj ⊢
  obtain hj | hj | hj | hj := hj
  · exact .inl (.inl hj)
  · exact .inl (.inr (.inl hj))
  · exact .inl (.inr (.inr (.inl hj)))
  · exact (currentGeneratorsOf_append hnew hj).imp (.inr ∘ .inr ∘ .inr) id

/-- A stage's inserts are generated by its row. -/
theorem commitStageOutput_generates (h : commitStageOutput bundle output t = .ok t') :
    Generates bundle.runStageId t t' := by
  unfold commitStageOutput at h
  split at h
  · refine foldlM_eq_ok (P := Generates bundle.runStageId t) h (.refl _ _) ?_
    intro evidence _ t₁ t₂ h₁ h₂
    simp only [bind_eq_ok, pure_eq_ok] at h₂
    obtain ⟨_, _, rfl⟩ := h₂
    exact h₁.trans (generates_evidence fun row hrow => by rw [List.mem_singleton.mp hrow])
  · obtain rfl := pure_eq_ok.mp h
    refine List.foldlRecOn _ _ (motive := Generates bundle.runStageId t) (.refl _ _) ?_
    intro t₁ h₁ questionId _
    exact h₁.trans fun j => .inl
  · obtain rfl := pure_eq_ok.mp h
    exact generates_qaFindings fun row hrow => by
      obtain ⟨_, _, rfl⟩ := List.mem_map.mp hrow
      rfl
  · obtain rfl := pure_eq_ok.mp h
    refine List.foldlRecOn _ _ (motive := Generates bundle.runStageId t) (.refl _ _) ?_
    intro t₁ h₁ claim _
    exact h₁.trans (generates_claims fun row hrow => by rw [List.mem_singleton.mp hrow])
  · obtain rfl := pure_eq_ok.mp h
    exact generates_qaFindings fun row hrow => by
      obtain ⟨_, _, rfl⟩ := List.mem_map.mp hrow
      rfl
  · obtain rfl := pure_eq_ok.mp h
    exact .refl _ _

/-- A stage that does not supersede inserts nothing. -/
theorem commitStageOutput_same (hstage : bundle.stage.supersedes = false)
    (h : commitStageOutput bundle output t = .ok t') : t' = t := by
  unfold commitStageOutput at h
  split at h <;> first
    | exact (pure_eq_ok.mp h).symm
    | simp_all [AIStage.supersedes]

/-! ### Human rows -/

/-- The rows that no stage row generated are as they were. -/
def KeepsUngenerated (generatedBy : α → Option ℕ) (rows rows' : List α) : Prop :=
  ∀ (k : ℕ) (row : α), rows[k]? = some row → generatedBy row = none → rows'[k]? = some row

/-- Evidence, claims and findings of no stage row are as they were. -/
structure HumanRowsKept (t t' : ResearchTables) : Prop where
  evidence : KeepsUngenerated EvidenceRow.generatedByRunStageId t.evidence t'.evidence
  claims : KeepsUngenerated ClaimRow.generatedByRunStageId t.claims t'.claims
  findings : KeepsUngenerated FindingRow.generatedByRunStageId t.findings t'.findings
  qaFindings : KeepsUngenerated QaFindingRow.generatedByRunStageId t.qaFindings t'.qaFindings

theorem KeepsUngenerated.refl (rows : List α) : KeepsUngenerated generatedBy rows rows :=
  fun _ _ hrow _ => hrow

theorem KeepsUngenerated.append (rows new : List α) :
    KeepsUngenerated generatedBy rows (rows ++ new) :=
  fun _ _ hrow _ => getElem?_append_of_some hrow

theorem KeepsUngenerated.trans {rows' rows'' : List α} (h : KeepsUngenerated generatedBy rows rows')
    (h' : KeepsUngenerated generatedBy rows' rows'') : KeepsUngenerated generatedBy rows rows'' :=
  fun k row hrow hgen => h' k row (h k row hrow hgen) hgen

theorem KeepsUngenerated.supersede {ids : List ℕ} {f : α → α} (rows : List α) :
    KeepsUngenerated generatedBy rows (updateWhere
      (fun _ row => decide (generatedByAny ids (generatedBy row) ∧ isCurrent row)) f rows) := by
  intro k row hrow hgen
  rw [getElem?_updateWhere, hrow]
  simp [generatedByAny, hgen]

theorem HumanRowsKept.refl (t : ResearchTables) : HumanRowsKept t t :=
  ⟨.refl _, .refl _, .refl _, .refl _⟩

theorem HumanRowsKept.trans {t'' : ResearchTables} (h : HumanRowsKept t t')
    (h' : HumanRowsKept t' t'') : HumanRowsKept t t'' :=
  ⟨h.evidence.trans h'.evidence, h.claims.trans h'.claims, h.findings.trans h'.findings,
    h.qaFindings.trans h'.qaFindings⟩

theorem markGeneratedDomainEffectsNonCurrent_kept (ids : List ℕ) (t : ResearchTables) :
    HumanRowsKept t (markGeneratedDomainEffectsNonCurrent ids t) :=
  ⟨.supersede _, .supersede _, .supersede _, .supersede _⟩

theorem commitStageOutput_kept (h : commitStageOutput bundle output t = .ok t') :
    HumanRowsKept t t' := by
  unfold commitStageOutput at h
  split at h
  · refine foldlM_eq_ok (P := HumanRowsKept t) h (.refl _) ?_
    intro evidence _ t₁ t₂ h₁ h₂
    simp only [bind_eq_ok, pure_eq_ok] at h₂
    obtain ⟨_, _, rfl⟩ := h₂
    exact h₁.trans ⟨.append _ _, .refl _, .refl _, .refl _⟩
  · obtain rfl := pure_eq_ok.mp h
    refine List.foldlRecOn _ _ (motive := HumanRowsKept t) (.refl _) ?_
    intro t₁ h₁ questionId _
    exact h₁.trans ⟨.refl _, .refl _, .refl _, .refl _⟩
  · obtain rfl := pure_eq_ok.mp h
    exact ⟨.refl _, .refl _, .refl _, .append _ _⟩
  · obtain rfl := pure_eq_ok.mp h
    refine List.foldlRecOn _ _ (motive := HumanRowsKept t) (.refl _) ?_
    intro t₁ h₁ claim _
    exact h₁.trans ⟨.refl _, .append _ _, .refl _, .refl _⟩
  · obtain rfl := pure_eq_ok.mp h
    exact ⟨.refl _, .refl _, .refl _, .append _ _⟩
  · obtain rfl := pure_eq_ok.mp h
    exact .refl _

end

/-! ### The invariant -/

/-- The stage row `i` is one of a stage of a project. -/
def StageOf (db : Db ResearchTables) (projectId : ℕ) (stage : AIStage) (i : ℕ) : Prop :=
  ∃ row run, db.stages[i]? = some row ∧ db.runs[row.runId]? = some run ∧
    run.projectId = projectId ∧ row.stageId = stage

/-- The stage rows with current rows are there, and no two of them are of one stage of a project. -/
structure OneGeneration (db : Db ResearchTables) : Prop where
  linked : ∀ i ∈ db.domain.currentGenerators, ∃ projectId stage, StageOf db projectId stage i
  unique : ∀ i ∈ db.domain.currentGenerators, ∀ j ∈ db.domain.currentGenerators,
    ∀ projectId stage, StageOf db projectId stage i → StageOf db projectId stage j → i = j

section
variable {db db' : Db ResearchTables} {op : Op ResearchTables} {i j projectId projectId' : ℕ}
  {stage stage' : AIStage} {bundle : StageBundle} {output : StageDocument} {t' : ResearchTables}

theorem StageOf.unique (h : StageOf db projectId stage i) (h' : StageOf db projectId' stage' i) :
    projectId = projectId' ∧ stage = stage' := by
  obtain ⟨row, run, hrow, hrun, rfl, rfl⟩ := h
  obtain ⟨row', run', hrow', hrun', rfl, rfl⟩ := h'
  obtain rfl := Option.some.inj (hrow.symm.trans hrow')
  obtain rfl := Option.some.inj (hrun.symm.trans hrun')
  exact ⟨rfl, rfl⟩

/-- A stage row stays one of its stage and its project. -/
theorem StageOf.perform (hrun : perform db op = .ok db') (h : StageOf db projectId stage i) :
    StageOf db' projectId stage i := by
  obtain ⟨row, run, hrow, hr, rfl, rfl⟩ := h
  obtain ⟨row', hrow', hsame⟩ := perform_stage_run hrun hrow
  obtain ⟨run', hr', hstep⟩ := (perform_runs hrun).old _ run hr
  exact ⟨row', run', hrow', hsame.runId ▸ hr', hstep.sameRun.projectId, hsame.stageId⟩

/-- Rows of the stage and the project that are not the current one are superseded. -/
theorem eq_of_not_mem_priorStages (h : StageOf db projectId stage j)
    (hj : j ∉ priorStages db projectId stage i) : j = i := by
  obtain ⟨row, run, hrow, hrun, hproject, hstage⟩ := h
  by_contra hne
  refine hj (mem_idsWhere.mpr ⟨row, hrow, ?_⟩)
  simp [hrun, hproject, hstage, hne]

/-- A step that adds no current generator. -/
theorem OneGeneration.shrink (h : OneGeneration db) (hrun : perform db op = .ok db')
    (hsub : ∀ j ∈ db'.domain.currentGenerators, j ∈ db.domain.currentGenerators) :
    OneGeneration db' := by
  have hback {i : ℕ} {p : ℕ} {st : AIStage} (hi : i ∈ db'.domain.currentGenerators)
      (hof : StageOf db' p st i) : StageOf db p st i := by
    obtain ⟨p₀, st₀, hof₀⟩ := h.linked i (hsub i hi)
    obtain ⟨rfl, rfl⟩ := (hof₀.perform hrun).unique hof
    exact hof₀
  refine ⟨fun i hi => ?_, fun i hi j hj p st hofi hofj => ?_⟩
  · obtain ⟨p, st, hof⟩ := h.linked i (hsub i hi)
    exact ⟨p, st, hof.perform hrun⟩
  · exact h.unique i (hsub i hi) j (hsub j hj) p st (hback hi hofi) (hback hj hofj)

/-- What a domain commit does to the current generators. -/
theorem commitResearchStageDomainEffects_generates {t : ResearchTables}
    (h : commitResearchStageDomainEffects db bundle output t = .ok t')
    (hj : j ∈ t'.currentGenerators) :
    j ∈ t.currentGenerators ∧ (bundle.stage.supersedes →
        j ∉ priorStages db bundle.projectId bundle.stage bundle.runStageId) ∨
      j = bundle.runStageId ∧ bundle.stage.supersedes := by
  simp only [commitResearchStageDomainEffects, commitDomainEffects, bind_eq_ok] at h
  obtain ⟨_, _, h⟩ := h
  cases hs : bundle.stage.supersedes with
  | false =>
    rw [hs] at h
    obtain rfl := commitStageOutput_same hs h
    exact .inl ⟨hj, nofun⟩
  | true =>
    rw [hs] at h
    obtain hold | rfl := commitStageOutput_generates h j hj
    · obtain ⟨hold, hids⟩ := mem_currentGenerators_mark hold
      exact .inl ⟨hold, fun _ => hids⟩
    · exact .inr ⟨rfl, rfl⟩

/-- The commit of a stage row leaves at most its own rows current, of its stage and its project. -/
theorem OneGeneration.commit (h : OneGeneration db) (hrun : perform db op = .ok db')
    (hof : StageOf db bundle.projectId bundle.stage bundle.runStageId)
    (hdomain : commitResearchStageDomainEffects db bundle output db.domain = .ok db'.domain) :
    OneGeneration db' := by
  have hgen {j : ℕ} (hj : j ∈ db'.domain.currentGenerators) :=
    commitResearchStageDomainEffects_generates hdomain hj
  have hlinked {j : ℕ} (hj : j ∈ db'.domain.currentGenerators) :
      ∃ p st, StageOf db p st j := by
    obtain ⟨hold, _⟩ | ⟨rfl, _⟩ := hgen hj
    · exact h.linked j hold
    · exact ⟨_, _, hof⟩
  have hback {i : ℕ} {p : ℕ} {st : AIStage} (hi : i ∈ db'.domain.currentGenerators)
      (hofi : StageOf db' p st i) : StageOf db p st i := by
    obtain ⟨p₀, st₀, hof₀⟩ := hlinked hi
    obtain ⟨rfl, rfl⟩ := (hof₀.perform hrun).unique hofi
    exact hof₀
  -- an old generator of the committed stage is the committed row itself
  have hcommitted {j : ℕ} (hj : j ∈ db'.domain.currentGenerators)
      (hofj : StageOf db bundle.projectId bundle.stage j) (hs : bundle.stage.supersedes) :
      j = bundle.runStageId := by
    obtain ⟨_, hids⟩ | ⟨rfl, _⟩ := hgen hj
    · exact eq_of_not_mem_priorStages hofj (hids hs)
    · rfl
  refine ⟨fun i hi => ?_, fun i hi j hj p st hofi hofj => ?_⟩
  · obtain ⟨p, st, hofi⟩ := hlinked hi
    exact ⟨p, st, hofi.perform hrun⟩
  · replace hofi := hback hi hofi
    replace hofj := hback hj hofj
    obtain ⟨holdi, _⟩ | ⟨rfl, hs⟩ := hgen hi
    · obtain ⟨holdj, _⟩ | ⟨rfl, hs⟩ := hgen hj
      · exact h.unique i holdi j holdj p st hofi hofj
      · obtain ⟨rfl, rfl⟩ := hof.unique hofj
        exact hcommitted hi hofi hs
    · obtain ⟨rfl, rfl⟩ := hof.unique hofi
      exact (hcommitted hj hofj hs).symm

end

/-! ### Runs -/

/-- Handlers commit the domain effects of their stage; no other service commits a stage or makes
    generated rows current. -/
def CommitsDomainEffects (s : Sys ResearchTables) : Act ResearchTables → Prop
  | .handle k (.commit domainCommit) => ∀ e ∈ s.executions[k]?, ∃ bundle output,
      StageOf s.db bundle.projectId bundle.stage bundle.runStageId ∧
      bundle.runStageId = e.fence.runStageId ∧
      domainCommit = commitResearchStageDomainEffects s.db bundle output
  | .operate (.commitRunStage ..) => False
  | .operate (.editDomain edit) =>
    ∀ j ∈ (edit s.db.domain).currentGenerators, j ∈ s.db.domain.currentGenerators
  | .operate (.commitSourceSearchResults _ _ _ _ _ register) => ∀ t,
      register s.db.domain = .ok t → ∀ j ∈ t.currentGenerators, j ∈ s.db.domain.currentGenerators
  | _ => True

/-- The action is one of a service outside the pipeline that edits domain tables. -/
def Act.editsDomain : Act ResearchTables → Bool
  | .operate (.editDomain _) => true
  | .operate (.commitSourceSearchResults ..) => true
  | _ => false

/-- The states reached from tables without generated rows. -/
def Sys.GeneratedReachable (s : Sys ResearchTables) : Prop :=
  ∃ db₀ : Db ResearchTables, db₀.Initial ∧ db₀.domain.currentGenerators = [] ∧
    Reach Sys.step CommitsDomainEffects ⟨db₀, []⟩ s

section
variable {s s' : Sys ResearchTables} {a : Act ResearchTables} {db' : Db ResearchTables}
  {op : Op ResearchTables}

theorem OneGeneration.ofOperation (h : OneGeneration s.db) (hrun : perform s.db op = .ok db')
    (hop : CommitsDomainEffects s (.operate op)) : OneGeneration db' := by
  refine h.shrink hrun fun j hj => ?_
  cases perform_domain hrun with
  | keep _ hdomain _ => exact hdomain ▸ hj
  | edit hdomain _ => exact hop j (hdomain ▸ hj)
  | register hdomain _ => exact hop _ hdomain j hj
  | supersede ids _ hdomain _ =>
    rw [hdomain] at hj
    exact (mem_currentGenerators_mark hj).1
  | commit _ _ _ _ _ => exact hop.elim

theorem HumanRowsKept.ofOperation (hrun : perform s.db op = .ok db')
    (hop : CommitsDomainEffects s (.operate op)) (hedits : Act.editsDomain (.operate op) = false) :
    HumanRowsKept s.db.domain db'.domain := by
  cases perform_domain hrun with
  | keep _ hdomain _ => exact hdomain ▸ .refl _
  | edit => cases hedits
  | register => cases hedits
  | supersede ids _ hdomain _ =>
    rw [hdomain]
    exact markGeneratedDomainEffectsNonCurrent_kept ids _
  | commit _ _ _ _ _ => exact hop.elim

/-- A handler's commit performs the domain effects of its stage. -/
theorem commit_domain {k : ℕ} {e : Execution} {key : CommitKey} {output : StageOutput}
    {domainCommit : ResearchTables → Except ServiceError ResearchTables}
    (ha : CommitsDomainEffects s (.handle k (.commit domainCommit)))
    (hrow : s.executions[k]? = some e)
    (hrun : perform s.db (.commitRunStage e.fence.runStageId e.fence key output domainCommit) =
      .ok db') :
    db'.domain = s.db.domain ∨ ∃ bundle output,
      StageOf s.db bundle.projectId bundle.stage bundle.runStageId ∧
      commitResearchStageDomainEffects s.db bundle output s.db.domain = .ok db'.domain := by
  obtain ⟨bundle, document, hof, _, rfl⟩ := ha e hrow
  cases perform_domain hrun with
  | keep _ hdomain _ => exact .inl hdomain
  | supersede _ hop _ _ =>
    obtain ⟨_, hop⟩ | ⟨_, _, _, hop⟩ := hop
    all_goals cases hop
  | commit _ _ hdomain _ _ => exact .inr ⟨bundle, document, hof, hdomain⟩

/-- **The step lemma.**  Every step leaves one current generation of a stage of a project. -/
theorem SysStep.oneGeneration (h : SysStep s a s') (ha : CommitsDomainEffects s a)
    (hI : OneGeneration s.db) : OneGeneration s'.db := by
  cases h with
  | idle => exact hI
  | operate hrun => exact hI.ofOperation hrun ha
  | start hrun _ => exact hI.ofOperation hrun trivial
  | complete _ _ hrun => exact hI.ofOperation hrun trivial
  | handle hrow hstep =>
    cases hstep with
    | start _ hrun => exact hI.ofOperation hrun trivial
    | record _ hrun => exact hI.ofOperation hrun trivial
    | boundary _ hrun => exact hI.ofOperation hrun trivial
    | queue _ hrun => exact hI.ofOperation hrun trivial
    | blocked _ hrun => exact hI.ofOperation hrun trivial
    | commit htold _ hrun =>
      subst htold
      obtain hsame | ⟨bundle, output, hof, hdomain⟩ := commit_domain ha hrow hrun
      · exact hI.shrink hrun fun j hj => hsame ▸ hj
      · exact hI.commit hrun hof hdomain
    | _ => exact hI

/-- Every step of the pipeline leaves human rows alone. -/
theorem SysStep.humanRowsKept (h : SysStep s a s') (ha : CommitsDomainEffects s a)
    (hedits : a.editsDomain = false) : HumanRowsKept s.db.domain s'.db.domain := by
  cases h with
  | idle => exact .refl _
  | operate hrun => exact .ofOperation hrun ha hedits
  | start hrun _ => exact .ofOperation hrun trivial rfl
  | complete _ _ hrun => exact .ofOperation hrun trivial rfl
  | handle hrow hstep =>
    cases hstep with
    | start _ hrun => exact .ofOperation hrun trivial rfl
    | record _ hrun => exact .ofOperation hrun trivial rfl
    | boundary _ hrun => exact .ofOperation hrun trivial rfl
    | queue _ hrun => exact .ofOperation hrun trivial rfl
    | blocked _ hrun => exact .ofOperation hrun trivial rfl
    | commit htold _ hrun =>
      subst htold
      obtain hsame | ⟨bundle, output, _, hdomain⟩ := commit_domain ha hrow hrun
      · exact hsame ▸ .refl _
      · simp only [commitResearchStageDomainEffects, commitDomainEffects, bind_eq_ok] at hdomain
        obtain ⟨_, _, hdomain⟩ := hdomain
        refine HumanRowsKept.trans ?_ (commitStageOutput_kept hdomain)
        split
        · exact markGeneratedDomainEffectsNonCurrent_kept _ _
        · exact .refl _
    | _ => exact .refl _

theorem Sys.GeneratedReachable.oneGeneration (h : s.GeneratedReachable) : OneGeneration s.db := by
  obtain ⟨db₀, hinit, hnone, hreach⟩ := h
  refine hreach.invariant (I := fun s => OneGeneration s.db) ⟨?_, ?_⟩
    fun s a hI ha => (s.step_cases a).oneGeneration ha hI
  all_goals
    rw [hnone]
    nofun

/-- **One current generation.**  In every reachable state, all current evidence, claims and findings
    that one stage has generated in a project are those of one stage row; and no step of the
    pipeline changes a human row. -/
theorem one_current_generation (h : s.GeneratedReachable) :
    (∀ projectId stage, ∀ i ∈ s.db.domain.currentGenerators,
      ∀ j ∈ s.db.domain.currentGenerators, StageOf s.db projectId stage i →
        StageOf s.db projectId stage j → i = j) ∧
    ∀ a, CommitsDomainEffects s a → a.editsDomain = false →
      HumanRowsKept s.db.domain (s.step a).db.domain :=
  ⟨fun projectId stage i hi j hj => h.oneGeneration.unique i hi j hj projectId stage,
    fun a ha hedits => (s.step_cases a).humanRowsKept ha hedits⟩

end

/-! ### Two runs of a project -/

/-- A step of the pipeline, a commit being given by the parsed output. -/
inductive PipelineAct
  | act (a : Act ResearchTables)
  | commit (k : ℕ) (output : StageDocument)

/-- The bundle an execution has loaded, with the sources that are eligible. -/
def Execution.bundle (db : Db ResearchTables) (e : Execution) : Option StageBundle := do
  let row ← db.stages[e.fence.runStageId]?
  let run ← db.runs[row.runId]?
  return ⟨run.projectId, e.fence.runStageId, row.stageId, List.range db.domain.sources.length, []⟩

/-- The step of the system. -/
def PipelineAct.toAct (s : Sys ResearchTables) : PipelineAct → Act ResearchTables
  | .act a => a
  | .commit k output =>
    match s.executions[k]?.bind (·.bundle s.db) with
    | some bundle => .handle k (.commit (commitResearchStageDomainEffects s.db bundle output))
    | none => .operate (.tick 0)

/-- The action brings no change of domain tables of its own. -/
def Act.plain : Act ResearchTables → Bool
  | .handle _ (.commit _) => false
  | .operate (.commitRunStage ..) => false
  | .operate (.editDomain _) => false
  | .operate (.commitSourceSearchResults ..) => false
  | _ => true

/-- The step meets the guard of the system. -/
def PipelineAct.plain : PipelineAct → Bool
  | .act a => a.plain
  | .commit .. => true

theorem Act.plain_guarded (s : Sys ResearchTables) {a : Act ResearchTables} (h : a.plain) :
    CommitsDomainEffects s a := by
  cases a with
  | operate op => cases op <;> trivial
  | handle k event => cases event <;> trivial
  | start => trivial
  | complete => trivial

theorem PipelineAct.guarded (s : Sys ResearchTables) (b : PipelineAct) (h : b.plain) :
    GuardedStep Sys.step CommitsDomainEffects s (s.step (b.toAct s)) := by
  refine ⟨b.toAct s, ?_, rfl⟩
  cases b with
  | act a => exact Act.plain_guarded s h
  | commit k output =>
    simp only [PipelineAct.toAct]
    split
    · rename_i bundle hbundle
      intro e he
      simp only [Option.mem_def] at he
      simp only [he, Option.bind_some, Execution.bundle, bind, Option.bind_eq_some_iff, pure,
        Option.some.injEq] at hbundle
      obtain ⟨row, hrow, run, hrun, rfl⟩ := hbundle
      exact ⟨_, output, ⟨row, run, hrow, hrun, rfl, rfl⟩, rfl, rfl⟩
    · exact trivial

/-- Worker 0 claims the job, and its handler executes the stage and commits the output. -/
def handleStage (k : ℕ) (output : StageDocument) : List PipelineAct :=
  [.act (.operate (.claimJobs { workerId := 0, leaseDurationMs := 1000 } [])),
    .act (.start k 0 none),
    .act (.handle k .next),
    .act (.handle k .next),
    .act (.handle k .next),
    .act (.handle k .next),
    .act (.handle k (.answer { providerExecutionId := k, outputReference := some ⟨k, false, 0⟩ })),
    .act (.handle k .next),
    .act (.handle k .next),
    .commit k output]

/-- The handler queues the next stage and returns. -/
def advanceStage (k : ℕ) : List PipelineAct :=
  [.act (.handle k .next), .act (.handle k .next), .act (.handle k .next), .act (.complete k 0)]

/-- A run up to the commit of its extracted evidence; its first execution is the given one. -/
def runToEvidence (key first : ℕ) : List PipelineAct :=
  .act (.operate (.createResearchRun
    { projectId := 0, mode := .orchestrated, idempotencyKey := key })) ::
    (List.range 4).flatMap (fun k => handleStage (first + k) {} ++ advanceStage (first + k)) ++
    handleStage (first + 4) { evidence := [⟨0⟩] }

/-- A source with evidence of a human. -/
def reviewedSource : ResearchTables where
  sources := [⟨0, .current⟩]
  evidence := [{ sourceId := 0, verificationStatus := .verified }]

/-- Two runs of the project have extracted evidence. -/
def twoRuns : Sys ResearchTables :=
  (runToEvidence 0 0 ++ runToEvidence 1 5).foldl (fun s b => s.step (b.toAct s))
    ⟨Db.initial [approvedProject] reviewedSource, []⟩

/-- The evidence of the second run is current, that of the first is not, and the human's is. -/
theorem one_current_generation_twoRuns :
    twoRuns.db.domain.evidence.map (fun e => (e.generatedByRunStageId, e.isCurrent)) =
        [(none, true), (some 4, false), (some 15, true)] ∧
      (∀ projectId stage, ∀ i ∈ twoRuns.db.domain.currentGenerators,
        ∀ j ∈ twoRuns.db.domain.currentGenerators, StageOf twoRuns.db projectId stage i →
          StageOf twoRuns.db projectId stage j → i = j) := by
  have hreach : twoRuns.GeneratedReachable := by
    refine ⟨_, Db.initial_initial [approvedProject] reviewedSource, rfl, ?_⟩
    have h : Reach (fun s b => s.step (PipelineAct.toAct s b)) (fun _ b => b.plain)
        ⟨Db.initial [approvedProject] reviewedSource, []⟩ twoRuns :=
      Reach.ofTrace (by decide +kernel)
    exact h.simulate fun s b hb => b.guarded s hb
  exact ⟨by decide +kernel, (one_current_generation hreach).1⟩

end ResearchWorkbench
