import ResearchWorkbench.System.RunSteps
import ResearchWorkbench.System.StageSteps

namespace ResearchWorkbench

/-!
# Generations of stage rows

A stage of a run has a row for each of its generations.  Rows are only added for the generation
after the newest one, and what follows a restarted stage goes stale in the same transaction.

* `WellGenerated` — generations are unique and without gaps, and rows carry their stage's ordinal;
* `InPlace`, `Appended`, `perform_rows` — what an operation does to the table of stage rows;
* `perform_wellGenerated`, `perform_succeededPrefix` — the step lemmas;
* `Db.ReachableBy.succeededPrefix` — the stages that have succeeded form a prefix;
* `perform_openLatest` — only a newest row executes, if only newest rows are queued.
-/

variable {δ : Type}

/-! ### Keys -/

/-- What identifies a stage row. -/
structure StageKey where
  runId : ℕ
  stageId : AIStage
  ordinal : ℕ
  generation : ℕ

/-- The key of a row. -/
def RunStageRow.key (stage : RunStageRow) : StageKey :=
  ⟨stage.runId, stage.stageId, stage.ordinal, stage.generation⟩

/-- The rows of one stage of one run. -/
def RunStageRow.Sibling (stage other : RunStageRow) : Prop :=
  other.runId = stage.runId ∧ other.stageId = stage.stageId

theorem SameStage.key {stage stage' : RunStageRow} (h : SameStage stage stage') :
    stage'.key = stage.key := by
  simp only [RunStageRow.key, h.runId, h.stageId, h.ordinal, h.generation]

section
variable {stages t : List RunStageRow} {stage stage' : RunStageRow}

/-- Whether a row is the newest depends on the keys only. -/
theorem isLatestGeneration_congr (hkeys : t.map (·.key) = stages.map (·.key))
    (hkey : stage'.key = stage.key) :
    isLatestGeneration t stage' ↔ isLatestGeneration stages stage := by
  simp only [RunStageRow.key, StageKey.mk.injEq] at hkey
  simp only [isLatestGeneration_iff]
  rw [hkey.1, hkey.2.1, hkey.2.2.2]
  constructor
  · intro h other hmem hrun hstage
    have hmem : other.key ∈ t.map (·.key) := hkeys ▸ List.mem_map_of_mem hmem
    obtain ⟨other', hmem', hother⟩ := List.mem_map.mp hmem
    simp only [RunStageRow.key, StageKey.mk.injEq] at hother
    rw [← hother.2.2.2]
    exact h other' hmem' (hother.1.trans hrun) (hother.2.1.trans hstage)
  · intro h other hmem hrun hstage
    have hmem : other.key ∈ stages.map (·.key) := hkeys ▸ List.mem_map_of_mem hmem
    obtain ⟨other', hmem', hother⟩ := List.mem_map.mp hmem
    simp only [RunStageRow.key, StageKey.mk.injEq] at hother
    rw [← hother.2.2.2]
    exact h other' hmem' (hother.1.trans hrun) (hother.2.1.trans hstage)

/-- A newest row stays one if the rows that are added belong to other stages. -/
theorem isLatestGeneration_append {rows : List RunStageRow}
    (h : ∀ row ∈ rows, ¬ stage.Sibling row) :
    isLatestGeneration (t ++ rows) stage ↔ isLatestGeneration t stage := by
  simp only [isLatestGeneration_iff, List.mem_append]
  constructor
  · exact fun hl other hmem => hl other (.inl hmem)
  · rintro hl other (hmem | hmem) hrun hstage
    · exact hl other hmem hrun hstage
    · exact absurd ⟨hrun, hstage⟩ (h other hmem)

theorem isLatestGeneration_of_append {rows : List RunStageRow}
    (h : isLatestGeneration (t ++ rows) stage) : isLatestGeneration t stage := by
  simp only [isLatestGeneration_iff, List.mem_append] at h ⊢
  exact fun other hmem => h other (.inl hmem)

/-- Two newest rows of one stage are the same row. -/
theorem UniqueGenerations.latest_unique (hu : UniqueGenerations stages) {i j : ℕ}
    (hi : stages[i]? = some stage) (hj : stages[j]? = some stage') (hsib : stage.Sibling stage')
    (hl : isLatestGeneration stages stage) (hl' : isLatestGeneration stages stage') : i = j := by
  have h₁ := isLatestGeneration_iff.mp hl stage' (List.mem_of_getElem? hj) hsib.1 hsib.2
  have h₂ := isLatestGeneration_iff.mp hl' stage (List.mem_of_getElem? hi) hsib.1.symm hsib.2.symm
  exact hu i j stage stage' hi hj hsib.1.symm hsib.2.symm (le_antisymm h₂ h₁)

/-- A stage has succeeded if its newest row has. -/
theorem UniqueGenerations.stageSucceeded_iff (hu : UniqueGenerations stages) {r : ℕ} {s : AIStage} :
    stageSucceeded stages r s ↔ ∃ (i : ℕ) (row : RunStageRow), stages[i]? = some row ∧
      row.runId = r ∧ row.stageId = s ∧ isLatestGeneration stages row ∧ row.status = .succeeded := by
  unfold stageSucceeded
  constructor
  · intro h
    obtain ⟨⟨i, row⟩, hrow, hstatus⟩ := (Option.any_eq_true _ _).mp h
    obtain ⟨hi, hr, hs, hl⟩ := latestStage_eq_some hrow
    exact ⟨i, row, hi, hr, hs, hl, by simpa using hstatus⟩
  · rintro ⟨i, row, hi, rfl, rfl, hl, hstatus⟩
    rw [hu.latestStage_eq hi hl]
    simpa using hstatus

end

/-! ### The table of stage rows -/

/-- The rows after everything after a stage row went stale. -/
def invalidated (db : Db δ) (earlier : RunStageRow) : List RunStageRow :=
  updateWhere (fun i _ => decide (i ∈ succeededDownstream db.stages earlier.runId earlier.ordinal))
    (·.markStale db.now) db.stages

/-- The rows that are there when an operation starts, after it. -/
inductive InPlace (db db' : Db δ) (op : Op δ) (t : List RunStageRow) : Prop
  /-- Each row changes by itself. -/
  | steps (rows : TableStep (StageStep db db' op) (fun _ _ => False) db.stages t)
      (kept : ∀ (i : ℕ) (stage : RunStageRow), db.stages[i]? = some stage →
        stage.status = .succeeded → t[i]? = some stage)
  /-- Everything after the stage row `j` goes stale. -/
  | invalidate {j : ℕ} {earlier : RunStageRow} (row : db.stages[j]? = some earlier)
      (rows : t = invalidated db earlier)

/-- The rows that an operation adds. -/
inductive Appended (db db' : Db δ) (op : Op δ) (t : List RunStageRow) : List RunStageRow → Prop
  | nothing : Appended db db' op t []
  | run {input : CreateResearchRunInput} (initial : InputReference)
      (create : op = .createResearchRun input)
      (count : db'.runs.length = db.runs.length + 1) :
      Appended db db' op t (initialStages db.runs.length initial)
  /-- A stale row of the queued stage gets a successor. -/
  | queue {i : ℕ} {fence : RunStageJobFence} {input : InputReference} {key : JobKey}
      {stage : RunStageRow} (queue : op = .queueRunStage i fence input key)
      (stageRow : db.stages[i]? = some stage) (status : stage.status = .stale)
      (unique : ∀ other ∈ db.stages, ¬ (other.runId = stage.runId ∧
        other.stageId = stage.stageId ∧ other.generation = stage.generation + 1)) :
      Appended db db' op t [stage.nextGeneration input]
  /-- A newest row is restarted. -/
  | restart {j : ℕ} {key : JobKey} {input : InputReference} {stage : RunStageRow}
      (restart : op = .restartRunStage j key input) (stageRow : db.stages[j]? = some stage)
      (latest : isLatestGeneration db.stages stage)
      (status : stage.status ∈ [.succeeded, .failed, .blocked, .stale, .cancelled])
      (downstream : t = invalidated db stage) :
      Appended db db' op t [stage.nextGeneration input]

section
variable {db db' : Db δ} {op : Op δ} {i : ℕ} {stage stage' : RunStageRow} {t : List RunStageRow}

/-- An operation that appends stage rows or makes some stale. -/
def Op.regenerates : Op δ → Bool
  | .createResearchRun .. | .queueRunStage .. | .markDownstreamStagesStale ..
  | .restartRunStage .. => true
  | _ => false

theorem NewStage.regenerates (h : NewStage db op stage) : op.regenerates := by
  cases h <;> rfl

/-- Only an invalidation takes a row out of `SUCCEEDED`. -/
theorem StageStep.kept (h : StageStep db db' op i stage stage') (hstatus : stage.status = .succeeded) :
    stage' = stage ∨ (∃ j, op = .markDownstreamStagesStale j) ∨
      ∃ j key input, op = .restartRunStage j key input := by
  cases h with
  | keep => exact .inl rfl
  | markStale j _ hop _ _ _ _ _ => exact .inr (hop.imp (fun h => ⟨j, h⟩) fun h => ⟨j, h⟩)
  | start hother _ => simp [hstatus] at hother
  | record hother => simp [hstatus] at hother
  | succeed hother _ _ => simp [hstatus] at hother
  | fail _ _ hother => simp [hstatus] at hother
  | block hother => simp [hstatus] at hother
  | cancel hother => simp [hstatus, RunStageStatus.isOpen] at hother
  | cancelWithJob hother => simp [hstatus, RunStageStatus.isOpen] at hother
  | requeue _ hother => simp [hstatus] at hother
  | resume hfirst _ => exact absurd hstatus (firstUnfinishedStage_eq_some hfirst).2.2.2.1

/-- The rows of an operation that adds none and invalidates none. -/
theorem InPlace.ofSteps (h : TableStep (StageStep db db' op) (fun _ _ => False) db.stages t)
    (hmark : ∀ j, op ≠ .markDownstreamStagesStale j)
    (hrestart : ∀ j key input, op ≠ .restartRunStage j key input) : InPlace db db' op t := by
  refine .steps h fun i stage hi hstatus => ?_
  obtain ⟨stage', hi', hstep⟩ := h.old i stage hi
  obtain rfl | ⟨j, hop⟩ | ⟨j, key, input, hop⟩ := hstep.kept hstatus
  · exact hi'
  · exact absurd hop (hmark j)
  · exact absurd hop (hrestart j key input)

/-- The rows in place keep their keys. -/
theorem InPlace.keys (h : InPlace db db' op t) : t.map (·.key) = db.stages.map (·.key) := by
  cases h with
  | steps hrows _ =>
    refine List.ext_getElem? fun i => ?_
    simp only [List.getElem?_map]
    cases hi : t[i]? with
    | none =>
      have hlen := hrows.length_le
      have := List.getElem?_eq_none_iff.mp hi
      rw [List.getElem?_eq_none_iff.mpr (by omega)]
    | some stage' =>
      obtain ⟨stage, hstage, hstep⟩ | ⟨_, hnew⟩ := hrows.cases hi
      · simp [hstage, hstep.sameStage.key]
      · exact hnew.elim
  | invalidate _ hrows =>
    subst hrows
    refine List.ext_getElem? fun i => ?_
    simp only [invalidated, List.getElem?_map, getElem?_updateWhere, Option.map_map]
    congr 1
    funext stage
    simp only [Function.comp_apply]
    split <;> rfl

/-- A row in place comes from the row with its id. -/
theorem InPlace.row (h : InPlace db db' op t) (hi : t[i]? = some stage') :
    ∃ stage, db.stages[i]? = some stage ∧ stage'.key = stage.key := by
  have hkeys := congrArg (·[i]?) h.keys
  simp only [List.getElem?_map, hi, Option.map_some] at hkeys
  obtain ⟨stage, hstage, hkey⟩ := Option.map_eq_some_iff.mp hkeys.symm
  exact ⟨stage, hstage, hkey.symm⟩

variable [DomainStore δ]

theorem InPlace.ofPerform (h : perform db op = .ok db') (hop : op.regenerates = false) :
    InPlace db db' op db'.stages := by
  refine .ofSteps ((perform_stages h).mono (fun _ _ _ _ h => h) fun _ _ _ hnew => ?_) ?_ ?_
  · rw [hnew.regenerates] at hop
    cases hop
  · rintro j rfl
    cases hop
  · rintro j key input rfl
    cases hop

/-- **Rows.**  An operation changes rows in place and appends rows as `InPlace` and `Appended`
    say. -/
theorem perform_rows (h : perform db op = .ok db') :
    ∃ t rows, InPlace db db' op t ∧ Appended db db' op t rows ∧ db'.stages = t ++ rows := by
  have hkeep : TableStep (StageStep db db' op) (fun _ _ => False) db.stages db.stages :=
    .refl (.keep op) _
  cases op with
  | createResearchRun input =>
    have hplace : InPlace db db' (.createResearchRun input) db.stages := .ofSteps hkeep nofun nofun
    obtain ⟨r, hr, rfl⟩ := map_eq_ok.mp h
    obtain hsame | ⟨_, initial, _, _, hsubmit, hdb⟩ := createResearchRun_ok hr
    · exact ⟨_, _, hplace, .nothing, by rw [hsame, List.append_nil]⟩
    · refine ⟨_, _, hplace, .run initial rfl ?_, by rw [hdb, hsubmit.stages]; rfl⟩
      rw [hdb, hsubmit.runs]
      simp
  | queueRunStage i fence input key =>
    have hplace {t : List RunStageRow}
        (ht : TableStep (StageStep db db' (.queueRunStage i fence input key)) (fun _ _ => False)
          db.stages t) : InPlace db db' (.queueRunStage i fence input key) t :=
      .ofSteps ht nofun nofun
    obtain ⟨r, hr, rfl⟩ := map_eq_ok.mp h
    obtain ⟨_, stage, hfenced, _, hdeps, ⟨hstale, hunique, hsubmit⟩ | ⟨hstatus, hsubmit⟩⟩ :=
      queueRunStage_ok hr
    · exact ⟨_, _, hplace hkeep, .queue rfl hfenced.stageRow hstale hunique, hsubmit.stages⟩
    · refine ⟨(db.updateStage i (·.requeue input)).stages, _, hplace ?_, .nothing, ?_⟩
      · exact .modify (.keep _) hfenced.stageRow (.requeue hdeps hstatus)
      · rw [hsubmit.stages, List.append_nil]
  | markDownstreamStagesStale j =>
    obtain ⟨_, stage, hstage, _, rfl | ⟨_, rfl⟩⟩ := markDownstreamStagesStale_ok h
    · refine ⟨_, _, .steps hkeep fun _ _ hi _ => hi, .nothing, (List.append_nil _).symm⟩
    · exact ⟨_, _, .invalidate hstage rfl, .nothing, (List.append_nil _).symm⟩
  | restartRunStage j key input =>
    obtain ⟨r, hr, rfl⟩ := map_eq_ok.mp h
    obtain ⟨_, stage, hstage, _, hsame | ⟨hlatest, hstatus, _, _, _, hsubmit⟩⟩ :=
      restartRunStage_ok hr
    · refine ⟨_, _, .steps hkeep fun _ _ hi _ => hi, .nothing, ?_⟩
      rw [hsame, List.append_nil]
    · exact ⟨_, _, .invalidate hstage rfl, .restart rfl hstage hlatest hstatus rfl,
        hsubmit.stages⟩
  | _ => exact ⟨_, _, .ofPerform h rfl, .nothing, (List.append_nil _).symm⟩

end

/-! ### Well-generated rows -/

/-- The rows of `runCount` runs, generation by generation: no generation twice, none left out, and
    each with the ordinal of its stage. -/
structure WellGenerated (runCount : ℕ) (stages : List RunStageRow) : Prop where
  unique : UniqueGenerations stages
  contiguous : ∀ s ∈ stages, ¬ isLatestGeneration stages s →
    ∃ u ∈ stages, s.Sibling u ∧ u.generation = s.generation + 1
  ordinal : ∀ s ∈ stages, s.ordinal = s.stageId.ordinal
  run : ∀ s ∈ stages, s.runId < runCount

section
variable {db db' : Db δ} {op : Op δ} {n : ℕ} {stages t rows : List RunStageRow}

/-- The successor of a newest row gets a generation that is not taken. -/
theorem WellGenerated.latest_of_free (h : WellGenerated n stages) {stage : RunStageRow}
    (hmem : stage ∈ stages) (hfree : ∀ other ∈ stages, ¬ (other.runId = stage.runId ∧
      other.stageId = stage.stageId ∧ other.generation = stage.generation + 1)) :
    isLatestGeneration stages stage := by
  by_contra hnot
  obtain ⟨u, hu, hsib, hgen⟩ := h.contiguous stage hmem hnot
  exact hfree u hu ⟨hsib.1, hsib.2, hgen⟩

/-- The rows of a new run: one for each stage, with the ordinal of the catalogue. -/
theorem mem_initialStages {r : ℕ} {initial : InputReference} {row : RunStageRow}
    (h : row ∈ initialStages r initial) : row.runId = r ∧ row.ordinal = row.stageId.ordinal ∧
      row.generation = 1 ∧ row.status ∈ [.pending, .queued] := by
  simp only [initialStages, pipelineStageCatalog, List.map_map, List.mem_map,
    Function.comp_apply] at h
  obtain ⟨stage, _, rfl⟩ := h
  have hid : (getPipelineStageDefinition stage).id = stage := by cases stage <;> rfl
  split <;> simp [newRunStage, hid, AIStage.ordinal]

/-- A new run has one row for each stage. -/
theorem initialStages_unique (r : ℕ) (initial : InputReference) :
    UniqueGenerations (initialStages r initial) := by
  have hids : (initialStages r initial).map (·.stageId) = aiStages := by
    simp only [initialStages, pipelineStageCatalog, List.map_map]
    conv_rhs => rw [← List.map_id aiStages]
    refine List.map_congr_left fun stage _ => ?_
    cases stage <;> rfl
  have hnodup : aiStages.Nodup := by decide
  intro i j s s' hi hj _ hstage _
  have hi' := congrArg (·[i]?) hids
  have hj' := congrArg (·[j]?) hids
  simp only [List.getElem?_map, hi, hj, Option.map_some] at hi' hj'
  have hlt := (List.getElem?_eq_some_iff.mp hi'.symm).1
  exact (List.getElem?_inj hlt hnodup).mp (by rw [← hi', ← hj', hstage])

/-- A row with a given key among rows with the same keys. -/
theorem exists_of_keys (hkeys : t.map (·.key) = stages.map (·.key)) {stage : RunStageRow}
    (hmem : stage ∈ t) : ∃ stage' ∈ stages, stage'.key = stage.key := by
  have : stage.key ∈ stages.map (·.key) := hkeys ▸ List.mem_map_of_mem hmem
  simpa using this

/-- Rows with the same keys are well generated together. -/
theorem WellGenerated.congr {n' : ℕ} (h : WellGenerated n stages) (hn : n ≤ n')
    (hkeys : t.map (·.key) = stages.map (·.key)) : WellGenerated n' t where
  unique i j s s' hi hj hrun hstage hgen := by
    have hi' := congrArg (·[i]?) hkeys
    have hj' := congrArg (·[j]?) hkeys
    simp only [List.getElem?_map, hi, hj, Option.map_some] at hi' hj'
    obtain ⟨u, hu, hukey⟩ := Option.map_eq_some_iff.mp hi'.symm
    obtain ⟨u', hu', hukey'⟩ := Option.map_eq_some_iff.mp hj'.symm
    simp only [RunStageRow.key, StageKey.mk.injEq] at hukey hukey'
    exact h.unique i j u u' hu hu' (by rw [hukey.1, hukey'.1, hrun])
      (by rw [hukey.2.1, hukey'.2.1, hstage]) (by rw [hukey.2.2.2, hukey'.2.2.2, hgen])
  contiguous s hs hnot := by
    obtain ⟨s', hs', hkey⟩ := exists_of_keys hkeys hs
    rw [isLatestGeneration_congr hkeys hkey.symm] at hnot
    obtain ⟨u', hu', hsib, hgen⟩ := h.contiguous s' hs' hnot
    obtain ⟨u, hu, hukey⟩ := exists_of_keys hkeys.symm hu'
    simp only [RunStageRow.key, StageKey.mk.injEq] at hkey hukey
    refine ⟨u, hu, ⟨?_, ?_⟩, ?_⟩
    · rw [hukey.1, hsib.1, hkey.1]
    · rw [hukey.2.1, hsib.2, hkey.2.1]
    · rw [hukey.2.2.2, hgen, hkey.2.2.2]
  ordinal s hs := by
    obtain ⟨s', hs', hkey⟩ := exists_of_keys hkeys hs
    simp only [RunStageRow.key, StageKey.mk.injEq] at hkey
    rw [← hkey.2.2.1, ← hkey.2.1]
    exact h.ordinal s' hs'
  run s hs := by
    obtain ⟨s', hs', hkey⟩ := exists_of_keys hkeys hs
    simp only [RunStageRow.key, StageKey.mk.injEq] at hkey
    rw [← hkey.1]
    exact lt_of_lt_of_le (h.run s' hs') hn

/-- Rows that are appended under other keys leave the generations unique. -/
theorem UniqueGenerations.append (h : UniqueGenerations stages) (hrows : UniqueGenerations rows)
    (hnew : ∀ s ∈ stages, ∀ s' ∈ rows, s.Sibling s' → s.generation ≠ s'.generation) :
    UniqueGenerations (stages ++ rows) := by
  intro i j s s' hi hj hrun hstage hgen
  rw [List.getElem?_append] at hi hj
  split at hi <;> split at hj
  · exact h i j s s' hi hj hrun hstage hgen
  · exact absurd hgen (hnew s (List.mem_of_getElem? hi) s' (List.mem_of_getElem? hj)
      ⟨hrun.symm, hstage.symm⟩)
  · exact absurd hgen.symm (hnew s' (List.mem_of_getElem? hj) s (List.mem_of_getElem? hi)
      ⟨hrun, hstage⟩)
  · have := hrows _ _ s s' hi hj hrun hstage hgen
    omega

/-- The successor of a newest row is the newest. -/
theorem isLatestGeneration_next {stage : RunStageRow} (hlatest : isLatestGeneration stages stage)
    (input : InputReference) :
    isLatestGeneration (stages ++ [stage.nextGeneration input]) (stage.nextGeneration input) := by
  refine isLatestGeneration_iff.mpr fun other hother hrun hstage => ?_
  obtain hother | hother := List.mem_append.mp hother
  · exact (isLatestGeneration_iff.mp hlatest other hother hrun hstage).trans (Nat.le_succ _)
  · rw [List.mem_singleton.mp hother]

/-- Every row of a new run is the newest. -/
theorem WellGenerated.latest_initial (h : WellGenerated n stages) {initial : InputReference}
    {s : RunStageRow} (hs : s ∈ initialStages n initial) :
    isLatestGeneration (stages ++ initialStages n initial) s := by
  refine isLatestGeneration_iff.mpr fun u hu hrun _ => ?_
  obtain hu | hu := List.mem_append.mp hu
  · have := h.run u hu
    rw [hrun, (mem_initialStages hs).1] at this
    omega
  · rw [(mem_initialStages hs).2.2.1, (mem_initialStages hu).2.2.1]

/-- The successor of a newest row is the newest one, and takes no generation twice. -/
theorem WellGenerated.append_next (h : WellGenerated n stages) {stage : RunStageRow}
    (hmem : stage ∈ stages) (hlatest : isLatestGeneration stages stage) (input : InputReference) :
    WellGenerated n (stages ++ [stage.nextGeneration input]) := by
  have hmax := isLatestGeneration_iff.mp hlatest
  refine ⟨h.unique.append (fun i j _ _ hi hj _ _ _ => ?_) fun s hs s' hs' hsib hgen => ?_,
    fun s hs hnot => ?_, fun s hs => ?_, fun s hs => ?_⟩
  · have hi := (List.getElem?_eq_some_iff.mp hi).1
    have hj := (List.getElem?_eq_some_iff.mp hj).1
    simp only [List.length_singleton] at hi hj
    omega
  · obtain rfl := List.mem_singleton.mp hs'
    have := hmax s hs hsib.1.symm hsib.2.symm
    simp only [RunStageRow.nextGeneration, newRunStage] at hgen
    omega
  · by_cases hsib : s.Sibling (stage.nextGeneration input)
    · -- a sibling that was the newest has the generation of `stage`
      obtain hs | hs := List.mem_append.mp hs
      · by_cases hl : isLatestGeneration stages s
        · have h₁ := hmax s hs hsib.1.symm hsib.2.symm
          have h₂ := isLatestGeneration_iff.mp hl stage hmem hsib.1 hsib.2
          refine ⟨_, List.mem_append_right _ (List.mem_singleton_self _), hsib, ?_⟩
          simp only [RunStageRow.nextGeneration, newRunStage]
          omega
        · obtain ⟨u, hu, hu'⟩ := h.contiguous s hs hl
          exact ⟨u, List.mem_append_left _ hu, hu'⟩
      · obtain rfl := List.mem_singleton.mp hs
        exact absurd (isLatestGeneration_next hlatest input) hnot
    · obtain hs | hs := List.mem_append.mp hs
      · rw [isLatestGeneration_append (by simpa using hsib)] at hnot
        obtain ⟨u, hu, hu'⟩ := h.contiguous s hs hnot
        exact ⟨u, List.mem_append_left _ hu, hu'⟩
      · rw [List.mem_singleton.mp hs] at hsib
        exact absurd ⟨rfl, rfl⟩ hsib
  · obtain hs | hs := List.mem_append.mp hs
    · exact h.ordinal s hs
    · rw [List.mem_singleton.mp hs]
      exact h.ordinal stage hmem
  · obtain hs | hs := List.mem_append.mp hs
    · exact h.run s hs
    · rw [List.mem_singleton.mp hs]
      exact h.run stage hmem

/-- And so are the rows of a new run. -/
theorem WellGenerated.append_run (h : WellGenerated n stages) (initial : InputReference) :
    WellGenerated (n + 1) (stages ++ initialStages n initial) := by
  have hother : ∀ s ∈ stages, ∀ s' ∈ initialStages n initial, ¬ s.Sibling s' := by
    intro s hs s' hs' hsib
    have := h.run s hs
    rw [← hsib.1, (mem_initialStages hs').1] at this
    omega
  refine ⟨h.unique.append (initialStages_unique n initial) fun s hs s' hs' hsib =>
    absurd hsib (hother s hs s' hs'), fun s hs hnot => ?_, fun s hs => ?_, fun s hs => ?_⟩
  · obtain hs | hs := List.mem_append.mp hs
    · rw [isLatestGeneration_append (hother s hs)] at hnot
      obtain ⟨u, hu, hu'⟩ := h.contiguous s hs hnot
      exact ⟨u, List.mem_append_left _ hu, hu'⟩
    · exact absurd (h.latest_initial hs) hnot
  · obtain hs | hs := List.mem_append.mp hs
    · exact h.ordinal s hs
    · exact (mem_initialStages hs).2.1
  · obtain hs | hs := List.mem_append.mp hs
    · exact Nat.lt_succ_of_lt (h.run s hs)
    · rw [(mem_initialStages hs).1]
      exact Nat.lt_succ_self n

variable [DomainStore δ]

/-- **The step lemma.**  Every operation keeps the rows well generated. -/
theorem perform_wellGenerated (hrun : perform db op = .ok db')
    (h : WellGenerated db.runs.length db.stages) : WellGenerated db'.runs.length db'.stages := by
  obtain ⟨t, rows, hplace, happ, hstages⟩ := perform_rows hrun
  have hlen := (perform_runs hrun).length_le
  -- the newest row in the database is the newest row in `t`
  have hrow {i : ℕ} {stage : RunStageRow} (hi : db.stages[i]? = some stage)
      (hl : isLatestGeneration db.stages stage) (input : InputReference) :
      WellGenerated db'.runs.length (t ++ [stage.nextGeneration input]) := by
    have hkeys := congrArg (·[i]?) hplace.keys
    simp only [List.getElem?_map, hi, Option.map_some] at hkeys
    obtain ⟨stage', hi', hkey⟩ := Option.map_eq_some_iff.mp hkeys
    have hnext : stage.nextGeneration input = stage'.nextGeneration input := by
      simp only [RunStageRow.key, StageKey.mk.injEq] at hkey
      simp only [RunStageRow.nextGeneration, hkey.1, hkey.2.1, hkey.2.2.1, hkey.2.2.2]
    rw [hnext]
    exact (h.congr hlen hplace.keys).append_next (List.mem_of_getElem? hi')
      ((isLatestGeneration_congr hplace.keys hkey).mpr hl) input
  rw [hstages]
  cases happ with
  | nothing =>
    rw [List.append_nil]
    exact h.congr hlen hplace.keys
  | run initial _ hcount =>
    rw [hcount]
    exact (h.congr le_rfl hplace.keys).append_run initial
  | queue _ hi _ hunique =>
    exact hrow hi (h.latest_of_free (List.mem_of_getElem? hi) hunique) _
  | restart _ hi hlatest _ _ => exact hrow hi hlatest _

theorem Db.ReachableBy.wellGenerated {ok : Db δ → Op δ → Prop} (h : db.ReachableBy ok) :
    WellGenerated db.runs.length db.stages := by
  refine h.invariant (I := fun db => WellGenerated db.runs.length db.stages) (fun db h₀ => ?_)
    fun _ _ _ hI _ hrun => perform_wellGenerated hrun hI
  refine ⟨?_, ?_, ?_, ?_⟩
  · intro i j s s' hi
    simp [h₀.stages] at hi
  all_goals simp [h₀.stages]

end

/-! ### The prefix -/

/-- A stage has only succeeded if the stage before it has. -/
def SucceededPrefix (stages : List RunStageRow) : Prop :=
  ∀ (r : ℕ) (stage next : AIStage), nextPipelineStage stage = some next →
    stageSucceeded stages r next → stageSucceeded stages r stage

section
variable {db db' : Db δ} {op : Op δ} {n : ℕ} {stages t rows : List RunStageRow}

/-- Every stage but the first follows one. -/
theorem exists_previousStage {stage : AIStage} (h : 1 < stage.ordinal) :
    ∃ previous, nextPipelineStage previous = some stage := by
  have : stage = .intakeAnalysis ∨ ∃ previous ∈ aiStages, nextPipelineStage previous = some stage := by
    cases stage <;> decide
  obtain rfl | ⟨previous, _, hnext⟩ := this
  · cases h
    contradiction
  · exact ⟨previous, hnext⟩

/-- The stages before one that has succeeded. -/
theorem SucceededPrefix.of_le (h : SucceededPrefix stages) {r : ℕ} {stage later : AIStage}
    (hle : stage.ordinal ≤ later.ordinal) (hlater : stageSucceeded stages r later) :
    stageSucceeded stages r stage := by
  induction hn : later.ordinal - stage.ordinal generalizing later with
  | zero => rwa [ordinal_injective (show stage.ordinal = later.ordinal by omega)]
  | succ n ih =>
    have hpos : 0 < stage.ordinal := by cases stage <;> decide
    obtain ⟨previous, hnext⟩ := exists_previousStage (show 1 < later.ordinal by omega)
    have hordinal := ordinal_nextPipelineStage hnext
    exact ih (by omega) (h r previous later hnext hlater) (by omega)

/-- A row that has succeeded had, or is committed after the stages that it depends on. -/
theorem StageStep.succeeded {i : ℕ} {stage stage' : RunStageRow}
    (h : StageStep db db' op i stage stage') (hstatus : stage'.status = .succeeded) :
    stage.status = .succeeded ∨ DependenciesSucceeded db stage := by
  cases h with
  | keep => exact .inl hstatus
  | succeed _ hdeps _ => exact .inr hdeps
  | record hrunning => exact .inl hstatus
  | _ => cases hstatus

/-- A row that went stale has not succeeded. -/
theorem invalidated_succeeded {earlier : RunStageRow} {i : ℕ} {row : RunStageRow}
    (hi : (invalidated db earlier)[i]? = some row) (hstatus : row.status = .succeeded) :
    db.stages[i]? = some row ∧ i ∉ succeededDownstream db.stages earlier.runId earlier.ordinal := by
  simp only [invalidated, getElem?_updateWhere, Option.map_eq_some_iff] at hi
  obtain ⟨stage, hstage, hrow⟩ := hi
  split at hrow
  · subst hrow
    cases hstatus
  · rename_i hnot
    subst hrow
    exact ⟨hstage, by simpa using hnot⟩

theorem invalidated_keep {earlier : RunStageRow} {i : ℕ} {row : RunStageRow}
    (hi : db.stages[i]? = some row)
    (hnot : i ∉ succeededDownstream db.stages earlier.runId earlier.ordinal) :
    (invalidated db earlier)[i]? = some row := by
  simp [invalidated, hi, hnot]

/-- Rows that are appended wait. -/
theorem Appended.status (h : Appended db db' op t rows) {row : RunStageRow} (hmem : row ∈ rows) :
    row.status ∈ [.pending, .queued] := by
  cases h with
  | nothing => cases hmem
  | run initial _ _ => exact (mem_initialStages hmem).2.2.2
  | queue _ _ _ _ =>
    rw [List.mem_singleton.mp hmem]
    simp [RunStageRow.nextGeneration, newRunStage]
  | restart _ _ _ _ _ =>
    rw [List.mem_singleton.mp hmem]
    simp [RunStageRow.nextGeneration, newRunStage]

/-- A newest row is superseded in the queue, once it is stale, or by its restart. -/
theorem Appended.supersedes (h : Appended db db' op t rows)
    (hwell : WellGenerated db.runs.length db.stages) {j : ℕ} {d : RunStageRow}
    (hd : db.stages[j]? = some d) (hl : isLatestGeneration db.stages d) {row : RunStageRow}
    (hmem : row ∈ rows) (hsib : d.Sibling row) :
    ((∃ i fence input key, op = .queueRunStage i fence input key) ∧ d.status = .stale) ∨
      (∃ key input, op = .restartRunStage j key input) ∧
        d.status ∈ [.succeeded, .failed, .blocked, .stale, .cancelled] ∧ t = invalidated db d := by
  cases h with
  | nothing => cases hmem
  | run initial _ _ =>
    have := hwell.run d (List.mem_of_getElem? hd)
    rw [← hsib.1, (mem_initialStages hmem).1] at this
    omega
  | queue hop hrow hstale hunique =>
    rw [List.mem_singleton.mp hmem] at hsib
    have hlatest := hwell.latest_of_free (List.mem_of_getElem? hrow) hunique
    obtain rfl := hwell.unique.latest_unique hd hrow ⟨hsib.1, hsib.2⟩ hl hlatest
    rw [hd] at hrow
    cases hrow
    exact .inl ⟨⟨_, _, _, _, hop⟩, hstale⟩
  | restart hop hrow hlatest hstatus hdownstream =>
    rw [List.mem_singleton.mp hmem] at hsib
    obtain rfl := hwell.unique.latest_unique hd hrow ⟨hsib.1, hsib.2⟩ hl hlatest
    rw [hd] at hrow
    cases hrow
    exact .inr ⟨⟨_, _, hop⟩, hstatus, hdownstream⟩

variable [DomainStore δ]

/-- **The step lemma.**  Every operation keeps the succeeded stages a prefix. -/
theorem perform_succeededPrefix (hrun : perform db op = .ok db')
    (hwell : WellGenerated db.runs.length db.stages) (h : SucceededPrefix db.stages) :
    SucceededPrefix db'.stages := by
  have hwell' := perform_wellGenerated hrun hwell
  obtain ⟨t, rows, hplace, happ, hstages⟩ := perform_rows hrun
  intro r stage next hnext hsucceeded
  obtain ⟨i, row', hi', rfl, rfl, hl', hstatus'⟩ := hwell'.unique.stageSucceeded_iff.mp hsucceeded
  rw [hstages] at hi' hl'
  -- the row that has succeeded is not a new one
  have hi : t[i]? = some row' := by
    rw [List.getElem?_append] at hi'
    split at hi'
    · exact hi'
    · have := happ.status (List.mem_of_getElem? hi')
      simp [hstatus'] at this
  obtain ⟨row, hrow, hkey⟩ := hplace.row hi
  have hl : isLatestGeneration db.stages row :=
    (isLatestGeneration_congr hplace.keys hkey).mp (isLatestGeneration_of_append hl')
  simp only [RunStageRow.key, StageKey.mk.injEq] at hkey
  have hdown {earlier : RunStageRow} (hrun : earlier.runId = row'.runId)
      (hlt : earlier.ordinal < row.ordinal) (hdb : db.stages[i]? = some row') :
      i ∈ succeededDownstream db.stages earlier.runId earlier.ordinal := by
    have hsame : row = row' := Option.some.inj (hrow.symm.trans hdb)
    exact mem_succeededDownstream.mpr
      ⟨row', hdb, hrun.symm, hsame ▸ hlt, hsame ▸ hl, hstatus'⟩
  -- the stage before it had succeeded
  have hdep : stageSucceeded db.stages row'.runId stage := by
    have hprefix (hstatus : row.status = .succeeded) :
        stageSucceeded db.stages row'.runId stage := by
      refine h row'.runId stage row'.stageId hnext ?_
      exact hwell.unique.stageSucceeded_iff.mpr
        ⟨i, row, hrow, hkey.1.symm, hkey.2.1.symm, hl, hstatus⟩
    cases hplace with
    | steps hrows _ =>
      obtain ⟨row₀, hrow₀, hstep⟩ | ⟨_, hnew⟩ := hrows.cases hi
      · obtain rfl := Option.some.inj (hrow.symm.trans hrow₀)
        obtain hstatus | hdeps := hstep.succeeded hstatus'
        · exact hprefix hstatus
        · rw [hkey.1]
          exact hdeps stage (mem_dependencies.mpr (by rw [hnext, hkey.2.1]))
      · exact hnew.elim
    | invalidate _ hrows =>
      subst hrows
      obtain ⟨hdb, _⟩ := invalidated_succeeded hi hstatus'
      obtain rfl := Option.some.inj (hrow.symm.trans hdb)
      exact hprefix hstatus'
  -- and it still has
  obtain ⟨j, d, hj, hdrun, rfl, hdl, hdstatus⟩ := hwell.unique.stageSucceeded_iff.mp hdep
  have hordinal : d.ordinal < row.ordinal := by
    rw [hwell.ordinal d (List.mem_of_getElem? hj), hwell.ordinal row (List.mem_of_getElem? hrow),
      ← hkey.2.1, ordinal_nextPipelineStage hnext]
    exact Nat.lt_succ_self _
  have htj : t[j]? = some d := by
    cases hplace with
    | steps _ hkept => exact hkept j d hj hdstatus
    | invalidate _ hrows =>
      subst hrows
      refine invalidated_keep hj fun hmem => ?_
      obtain ⟨hdb, hnot⟩ := invalidated_succeeded hi hstatus'
      obtain ⟨d', hd', hrun', hlt, _⟩ := mem_succeededDownstream.mp hmem
      obtain rfl := Option.some.inj (hj.symm.trans hd')
      exact hnot (hdown (hrun'.symm.trans hdrun) (hlt.trans hordinal) hdb)
  refine hwell'.unique.stageSucceeded_iff.mpr ⟨j, d, ?_, hdrun, rfl, ?_, hdstatus⟩
  · rw [hstages]
    exact getElem?_append_of_some htj
  · rw [hstages, isLatestGeneration_append fun new hnew hsib => ?_]
    · exact (isLatestGeneration_congr hplace.keys rfl).mpr hdl
    · obtain ⟨_, hstale⟩ | ⟨_, _, rfl⟩ := happ.supersedes hwell hj hdl hnew hsib
      · rw [hdstatus] at hstale
        cases hstale
      obtain ⟨hdb, hnot⟩ := invalidated_succeeded hi hstatus'
      exact hnot (hdown hdrun hordinal hdb)

theorem Db.ReachableBy.succeededPrefix {ok : Db δ → Op δ → Prop} (h : db.ReachableBy ok) :
    SucceededPrefix db.stages := by
  have hboth : WellGenerated db.runs.length db.stages ∧ SucceededPrefix db.stages := by
    refine h.invariant
      (I := fun db => WellGenerated db.runs.length db.stages ∧ SucceededPrefix db.stages)
      (fun db h₀ => ⟨(Db.reachable_ofActions h₀ []).wellGenerated, ?_⟩)
      fun _ _ _ hI _ hrun => ⟨perform_wellGenerated hrun hI.1, perform_succeededPrefix hrun hI.1 hI.2⟩
    intro r stage next _ hsucceeded
    rw [h₀.stages] at hsucceeded
    cases hsucceeded
  exact hboth.2

end

/-! ### Open rows -/

/-- Only the newest row of a stage waits or executes. -/
def OpenLatest (stages : List RunStageRow) : Prop :=
  ∀ stage ∈ stages, stage.status.isOpen → isLatestGeneration stages stage

/-- `op` queues a row in place only if it is the newest. -/
def QueuesLatest (db : Db δ) (op : Op δ) : Prop :=
  ∀ i fence input key, op = .queueRunStage i fence input key → ∀ stage, db.stages[i]? = some stage →
    stage.status = .stale ∨ isLatestGeneration db.stages stage

section
variable {db db' : Db δ} {op : Op δ} {n : ℕ} {t rows : List RunStageRow}

theorem QueuesLatest.ofRegenerates (h : op.regenerates = false) : QueuesLatest db op := by
  intro i fence input key hop
  subst hop
  cases h

/-- A row is opened by a resumption, of a newest row, or in the queue. -/
theorem StageStep.isOpen {i : ℕ} {stage stage' : RunStageRow}
    (h : StageStep db db' op i stage stage') (hopen : stage'.status.isOpen) :
    stage.status.isOpen ∨ (∃ r, op = .resumeResearchRun r) ∧ isLatestGeneration db.stages stage ∨
      (∃ fence input key, op = .queueRunStage i fence input key) ∧ stage.status ≠ .stale := by
  cases h with
  | keep => exact .inl hopen
  | start hstatus _ =>
    obtain h | h := by simpa using hstatus
    all_goals exact .inl (by rw [h]; rfl)
  | record _ => exact .inl hopen
  | requeue _ hstatus =>
    refine .inr (.inr ⟨⟨_, _, _, rfl⟩, ?_⟩)
    rintro hstale
    simp [hstale] at hstatus
  | resume hfirst _ => exact .inr (.inl ⟨⟨_, rfl⟩, (firstUnfinishedStage_eq_some hfirst).2.2.1⟩)
  | _ => cases hopen

/-- Rows that are appended are the newest of their stages. -/
theorem Appended.latest (h : Appended db db' op t rows) (hplace : InPlace db db' op t)
    (hwell : WellGenerated db.runs.length db.stages) {row : RunStageRow} (hmem : row ∈ rows) :
    isLatestGeneration (t ++ rows) row := by
  have hnext {stage : RunStageRow} (hl : isLatestGeneration db.stages stage)
      (input : InputReference) :
      isLatestGeneration (t ++ [stage.nextGeneration input]) (stage.nextGeneration input) :=
    isLatestGeneration_next ((isLatestGeneration_congr hplace.keys rfl).mpr hl) input
  cases h with
  | nothing => cases hmem
  | run initial _ _ => exact (hwell.congr le_rfl hplace.keys).latest_initial hmem
  | queue _ hrow _ hunique =>
    rw [List.mem_singleton.mp hmem]
    exact hnext (hwell.latest_of_free (List.mem_of_getElem? hrow) hunique) _
  | restart _ _ hlatest _ _ =>
    rw [List.mem_singleton.mp hmem]
    exact hnext hlatest _

/-- A row in place that is open was the newest. -/
theorem InPlace.open_latest (hplace : InPlace db db' op t) (hqueue : QueuesLatest db op)
    (h : OpenLatest db.stages) {i : ℕ} {row row' : RunStageRow} (hrow : db.stages[i]? = some row)
    (hi : t[i]? = some row') (hopen : row'.status.isOpen) :
    isLatestGeneration db.stages row ∧ (row.status.isOpen ∨
      (∃ r, op = .resumeResearchRun r) ∨
        (∃ fence input key, op = .queueRunStage i fence input key) ∧ row.status ≠ .stale) := by
  have hmem := List.mem_of_getElem? hrow
  cases hplace with
  | steps hrows _ =>
    obtain ⟨row₀, hrow₀, hstep⟩ | ⟨_, hnew⟩ := hrows.cases hi
    · obtain rfl := Option.some.inj (hrow.symm.trans hrow₀)
      obtain hwas | ⟨hop, hl⟩ | ⟨⟨fence, input, key, hop⟩, hstale⟩ := hstep.isOpen hopen
      · exact ⟨h row hmem hwas, .inl hwas⟩
      · exact ⟨hl, .inr (.inl hop)⟩
      · have hl := (hqueue i fence input key hop row hrow).resolve_left hstale
        exact ⟨hl, .inr (.inr ⟨⟨fence, input, key, hop⟩, hstale⟩)⟩
    · exact hnew.elim
  | invalidate _ hrows =>
    subst hrows
    simp only [invalidated, getElem?_updateWhere, hrow, Option.map_some, Option.some.injEq] at hi
    split at hi
    · subst hi
      cases hopen
    · subst hi
      exact ⟨h row hmem hopen, .inl hopen⟩

variable [DomainStore δ]

/-- **The step lemma.**  Where only newest rows are queued, only newest rows are open. -/
theorem perform_openLatest (hrun : perform db op = .ok db')
    (hwell : WellGenerated db.runs.length db.stages) (hqueue : QueuesLatest db op)
    (h : OpenLatest db.stages) : OpenLatest db'.stages := by
  obtain ⟨t, rows, hplace, happ, hstages⟩ := perform_rows hrun
  intro row' hmem hopen
  rw [hstages] at hmem ⊢
  obtain hmem | hmem := List.mem_append.mp hmem
  · obtain ⟨i, hi⟩ := List.mem_iff_getElem?.mp hmem
    obtain ⟨row, hrow, hkey⟩ := hplace.row hi
    obtain ⟨hl, hcause⟩ := hplace.open_latest hqueue h hrow hi hopen
    have hl' := (isLatestGeneration_congr hplace.keys hkey).mpr hl
    rwa [isLatestGeneration_append fun new hnew hsib => ?_]
    -- a row that can be open is not superseded
    simp only [RunStageRow.key, StageKey.mk.injEq] at hkey
    obtain ⟨⟨_, _, _, _, hop⟩, hstale⟩ | ⟨⟨_, _, hop⟩, hdone, _⟩ :=
      happ.supersedes hwell hrow hl hnew ⟨hsib.1.trans hkey.1, hsib.2.trans hkey.2.1⟩
    · obtain hwas | ⟨_, hop'⟩ | ⟨_, hne⟩ := hcause
      · rw [hstale] at hwas
        cases hwas
      · rw [hop] at hop'
        cases hop'
      · exact hne hstale
    · obtain hwas | ⟨_, hop'⟩ | ⟨⟨_, _, _, hop'⟩, _⟩ := hcause
      · revert hwas hdone
        cases row.status <;> decide
      · rw [hop] at hop'
        cases hop'
      · rw [hop] at hop'
        cases hop'
  · exact happ.latest hplace hwell hmem

end

/-! ### The last commit -/

section
variable [DomainStore δ] {db : Db δ}

/-- A run only reaches `QA_REQUIRED` by the commit of its last stage, and if the row is the newest
    of that stage, every stage has succeeded then. -/
theorem commit_qaRequired {i : ℕ} {fence : RunStageJobFence} {key : CommitKey}
    {output : StageOutput} {domainCommit : δ → Except ServiceError δ} {r : CommittedStage δ}
    {row : RunStageRow} {run' : ResearchRunRow}
    (hwell : WellGenerated db.runs.length db.stages) (hsucceeded : SucceededPrefix db.stages)
    (hlatest : OpenLatest db.stages)
    (hcommit : commitRunStage db i fence key output domainCommit = .ok r)
    (hcreated : r.created = true) (hrow : db.stages[i]? = some row)
    (hrun' : r.db.runs[row.runId]? = some run') (hstatus : run'.status = .qaRequired)
    (stage : AIStage) : stageSucceeded r.db.stages row.runId stage := by
  have hrun : perform db (.commitRunStage i fence key output domainCommit) = .ok r.db :=
    map_eq_ok.mpr ⟨r, hcommit, rfl⟩
  have hmem := List.mem_of_getElem? hrow
  have hplace := InPlace.ofPerform hrun rfl
  have hunique := (perform_wellGenerated hrun hwell).unique
  obtain ⟨run, row₀, hfenced, _, ⟨rfl, _⟩ | ⟨_, hrunning, _, _, _, _, _, _, rfl⟩⟩ :=
    commitRunStage_ok hcommit
  · cases hcreated
  obtain rfl := Option.some.inj (hrow.symm.trans hfenced.stageRow)
  have hl := hlatest row hmem (by rw [hrunning]; rfl)
  -- the run is only sent to `QA_REQUIRED` after the last stage of the catalogue
  have hlast : row.stageId = .qaRevision := by
    simp only [Db.updateRun_runs, Db.updateStage_runs, Db.insertCommit_runs, Db.setDomain_runs,
      getElem?_modify_eq hfenced.runRow, Option.some.injEq] at hrun'
    subst hrun'
    simp only [ResearchRunRow.commit, committedRunStatus, hwell.ordinal row hmem] at hstatus
    revert hstatus
    cases row.stageId <;> decide
  have hle : stage.ordinal ≤ AIStage.qaRevision.ordinal := by cases stage <;> decide
  refine (perform_succeededPrefix hrun hwell hsucceeded).of_le hle ?_
  refine hunique.stageSucceeded_iff.mpr ⟨i, row.succeed db.now output, ?_, rfl, hlast, ?_, rfl⟩
  · exact getElem?_modify_eq hrow
  · exact (isLatestGeneration_congr hplace.keys rfl).mpr hl

end

end ResearchWorkbench
