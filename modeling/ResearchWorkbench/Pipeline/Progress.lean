import Mathlib.Data.Finset.Card
import ResearchWorkbench.Pipeline.Commits
import ResearchWorkbench.Pipeline.Generations

namespace ResearchWorkbench

/-!
# The progress of a run

`research_runs.progress` is written by three operations, each with a query of its own.  The commit
and the restart count the newest row of each stage; `markDownstreamStagesStale` counts the rows of
all generations.

* `stageProgress` — the progress as a function of the stages of the run;
* `runProgress_eq` — what the commit and the restart count;
* `CountsNewest` — when the rows of all generations show the same share as the newest ones;
* `run_progress_iff` — progress is `stageProgress` after a write exactly then;
* `UniqueGenerations.sharesAgree` — nothing is superseded in a run without restarted stages;
* `superseded_generation_counts` — a restarted stage is counted twice.
-/

variable {δ : Type}

/-! ### Progress as a function of the stages -/

/-- The stages of a run. -/
def stagesOf (stages : List RunStageRow) (runId : ℕ) : Finset AIStage :=
  ((stages.filter (·.runId = runId)).map (·.stageId)).toFinset

/-- The stages of a run whose newest row has succeeded. -/
def succeededStages (stages : List RunStageRow) (runId : ℕ) : Finset AIStage :=
  (stagesOf stages runId).filter fun stage => stageSucceeded stages runId stage

/-- The share of the stages of a run whose newest row has succeeded, in percent. -/
def stageProgress (stages : List RunStageRow) (runId : ℕ) : ℤ :=
  round (100 * (succeededStages stages runId).card / (stagesOf stages runId).card : ℚ)

/-! ### What the commit and the restart count -/

/-- The newest rows of a run. -/
def newestRows (stages : List RunStageRow) (runId : ℕ) : List RunStageRow :=
  stages.filter fun s => s.runId = runId && isLatestGeneration stages s

/-- The rows of a run, of all generations. -/
def rowsOf (stages : List RunStageRow) (runId : ℕ) : List RunStageRow :=
  stages.filter (·.runId = runId)

section
variable {stages : List RunStageRow} {r : ℕ} {s : AIStage}

theorem mem_newestRows {row : RunStageRow} :
    row ∈ newestRows stages r ↔ row ∈ stages ∧ row.runId = r ∧ isLatestGeneration stages row := by
  simp [newestRows]

/-- The percentage is a rounded share. -/
theorem percentage_eq (succeeded total : ℕ) :
    (percentage succeeded total : ℤ) = round (100 * succeeded / total : ℚ) := by
  have hnonneg : (0 : ℚ) ≤ (succeeded : ℚ) / total * 100 + 1 / 2 := by positivity
  have hround : 0 ≤ mathRound ((succeeded : ℚ) / total * 100) := Int.floor_nonneg.mpr hnonneg
  rw [percentage, Int.toNat_of_nonneg hround, mathRound, round_eq]
  congr 2
  ring

/-- Two newest rows of a run belong to different stages. -/
theorem UniqueGenerations.nodup_newestRows (hu : UniqueGenerations stages) :
    ((newestRows stages r).map (·.stageId)).Nodup := by
  have hpair : stages.Pairwise fun s s' =>
      s.runId = s'.runId → s.stageId = s'.stageId → s.generation ≠ s'.generation := by
    refine List.pairwise_iff_getElem.mpr fun i j hi hj hij hrun hstage hgen => ?_
    have := hu i j _ _ (List.getElem?_eq_getElem hi) (List.getElem?_eq_getElem hj) hrun hstage hgen
    omega
  refine List.pairwise_map.mpr ((hpair.filter _).imp_of_mem fun {a b} ha hb h hstage => ?_)
  obtain ⟨ha, hra, hla⟩ := mem_newestRows.mp ha
  obtain ⟨hb, hrb, hlb⟩ := mem_newestRows.mp hb
  have h₁ := isLatestGeneration_iff.mp hla b hb (hrb.trans hra.symm) hstage.symm
  have h₂ := isLatestGeneration_iff.mp hlb a ha (hra.trans hrb.symm) hstage
  exact h (hra.trans hrb.symm) hstage (le_antisymm h₂ h₁)

/-- The newest rows show the stages of the run. -/
theorem stagesOf_eq : stagesOf stages r = ((newestRows stages r).map (·.stageId)).toFinset := by
  ext s
  simp only [stagesOf, List.mem_toFinset, List.mem_map, mem_newestRows, List.mem_filter,
    decide_eq_true_eq]
  constructor
  · rintro ⟨row, ⟨hrow, rfl⟩, rfl⟩
    obtain ⟨i, t, ht⟩ := exists_latestStage hrow
    obtain ⟨hi, hr, hs, hl⟩ := latestStage_eq_some ht
    exact ⟨t, ⟨List.mem_of_getElem? hi, hr, hl⟩, hs⟩
  · rintro ⟨row, ⟨hrow, hr, _⟩, hs⟩
    exact ⟨row, ⟨hrow, hr⟩, hs⟩

/-- The newest rows that have succeeded show the succeeded stages of the run. -/
theorem UniqueGenerations.succeededStages_eq (hu : UniqueGenerations stages) :
    succeededStages stages r =
      (((newestRows stages r).filter (·.status = .succeeded)).map (·.stageId)).toFinset := by
  ext s
  simp only [succeededStages, stagesOf_eq, Finset.mem_filter, List.mem_toFinset, List.mem_map,
    List.mem_filter, mem_newestRows, decide_eq_true_eq]
  constructor
  · rintro ⟨_, hsucceeded⟩
    obtain ⟨i, row, hi, hr, hs, hl, hstatus⟩ := hu.stageSucceeded_iff.mp hsucceeded
    exact ⟨row, ⟨⟨List.mem_of_getElem? hi, hr, hl⟩, hstatus⟩, hs⟩
  · rintro ⟨row, ⟨⟨hrow, hr, hl⟩, hstatus⟩, hs⟩
    obtain ⟨i, hi⟩ := List.mem_iff_getElem?.mp hrow
    exact ⟨⟨row, ⟨hrow, hr, hl⟩, hs⟩, hu.stageSucceeded_iff.mpr ⟨i, row, hi, hr, hs, hl, hstatus⟩⟩

theorem UniqueGenerations.card_stagesOf (hu : UniqueGenerations stages) :
    (stagesOf stages r).card = (newestRows stages r).length := by
  rw [stagesOf_eq, List.toFinset_card_of_nodup hu.nodup_newestRows, List.length_map]

theorem UniqueGenerations.card_succeededStages (hu : UniqueGenerations stages) :
    (succeededStages stages r).card = (newestRows stages r).countP (·.status = .succeeded) := by
  have hnodup := hu.nodup_newestRows.sublist
    ((List.filter_sublist (l := newestRows stages r) (p := (·.status = .succeeded))).map
      (·.stageId))
  rw [hu.succeededStages_eq, List.toFinset_card_of_nodup hnodup, List.length_map,
    List.countP_eq_length_filter]

/-- **Newest rows only.**  The query of the commit and of the restart is `stageProgress`. -/
theorem runProgress_eq (hu : UniqueGenerations stages) :
    (runProgress stages r : ℤ) = stageProgress stages r := by
  rw [stageProgress, hu.card_stagesOf, hu.card_succeededStages, ← percentage_eq]
  rfl

end

/-! ### The three writes -/

/-- The job that a restart finds under its key, with its stage row. -/
def restartedJob (db : Db δ) (projectId : ℕ) (key : JobKey) : Option (ℕ × JobRow × RunStageRow) :=
  (jobByKey db (some projectId) key).bind fun (jobId, job) =>
    (job.runStageId.bind (db.stages[·]?)).map fun existing => (jobId, job, existing)

/-- The run whose progress an operation writes, from the state it starts in. -/
def Op.progressRun (db : Db δ) : Op δ → Option ℕ
  | .commitRunStage i _ key _ _ => do
    let stage ← db.stages[i]?.filter fun stage => (existingCommit db i stage.generation key).isNone
    return stage.runId
  | .markDownstreamStagesStale i => do
    let stage ← db.stages[i]?.filter fun stage =>
      succeededDownstream db.stages stage.runId stage.ordinal ≠ []
    return stage.runId
  | .restartRunStage i key _ => do
    let stage ← db.stages[i]?
    let _ ← db.runs[stage.runId]?.filter fun run => (restartedJob db run.projectId key).isNone
    return stage.runId
  | _ => none

/-- After the later stages of a row go stale, the rows of all generations of its run show the same
    share as the newest ones. -/
def SharesAgree (stages : List RunStageRow) (stage : RunStageRow) : Prop :=
  let rows := rowsOf stages stage.runId
  let stale := (succeededDownstream stages stage.runId stage.ordinal).length
  percentage (rows.countP (·.status = .succeeded) - stale) rows.length =
    percentage ((succeededStages stages stage.runId).card - stale) (stagesOf stages stage.runId).card

/-- Superseded rows do not change the share that an operation writes. -/
def CountsNewest (db : Db δ) : Op δ → Prop
  | .markDownstreamStagesStale i => ∀ stage ∈ db.stages[i]?, SharesAgree db.stages stage
  | _ => True

section
variable {db db' : Db δ} {i : ℕ} {fence : RunStageJobFence} {stage : RunStageRow}
  {run : ResearchRunRow}

/-- A commit that is not repeated writes the share of the newest rows. -/
theorem commitRunStage_progress {key : CommitKey} {output : StageOutput}
    {domainCommit : δ → Except ServiceError δ} {r : CommittedStage δ}
    (h : commitRunStage db i fence key output domainCommit = .ok r)
    (hstage : db.stages[i]? = some stage)
    (hnew : existingCommit db i stage.generation key = none)
    (hrun : r.db.runs[stage.runId]? = some run) :
    run.progress = runProgress r.db.stages stage.runId := by
  simp only [commitRunStage, bind_eq_ok] at h
  obtain ⟨⟨run₀, stage₀⟩, hlock, h⟩ := h
  obtain ⟨hfenced, _⟩ := lockStageProjectFirst_ok hlock
  obtain rfl : stage = stage₀ := Option.some.inj (hstage.symm.trans hfenced.stageRow)
  simp only [hnew, bind_eq_ok, pure_eq_ok] at h
  obtain ⟨_, _, _, _, _, _, _, _, _, _, rfl⟩ := h
  obtain ⟨_, _, ⟨_, rfl⟩ | ⟨hne, _⟩⟩ := getElem?_modify_cases hrun
  · rfl
  · exact absurd rfl hne

variable [DomainStore δ]

/-- A restart whose key is new writes the share of the newest rows. -/
theorem restartRunStage_progress {key : JobKey} {inputReference : InputReference}
    {r : SubmittedJob δ} {run₀ : ResearchRunRow}
    (h : restartRunStage db i key inputReference = .ok r)
    (hstage : db.stages[i]? = some stage) (hrun₀ : db.runs[stage.runId]? = some run₀)
    (hnew : restartedJob db run₀.projectId key = none)
    (hrun : r.db.runs[stage.runId]? = some run) :
    run.progress = runProgress r.db.stages stage.runId := by
  simp only [restartRunStage, bind_eq_ok] at h
  obtain ⟨⟨run₁, stage₀⟩, hlock, h⟩ := h
  obtain ⟨hstage₀, hrun₁⟩ := lockStageProjectFirst_none_ok hlock
  obtain rfl : stage = stage₀ := Option.some.inj (hstage.symm.trans hstage₀)
  obtain rfl : run₀ = run₁ := Option.some.inj (hrun₀.symm.trans hrun₁)
  rw [restartedJob] at hnew
  simp only [hnew, bind_eq_ok] at h
  obtain ⟨_, _, _, _, _, _, _, hinsert, _, _, h⟩ := h
  obtain ⟨_, rfl⟩ := insertRunStage_ok hinsert
  have hsubmit := submitJobInTransaction_ok h
  rw [hsubmit.runs] at hrun
  rw [hsubmit.stages]
  obtain ⟨_, _, ⟨_, rfl⟩ | ⟨hne, _⟩⟩ := getElem?_modify_cases hrun
  · rfl
  · exact absurd rfl hne

/-- `markDownstreamStagesStale` writes the share of the rows of all generations. -/
theorem markDownstreamStagesStale_progress (h : markDownstreamStagesStale db i = .ok db')
    (hstage : db.stages[i]? = some stage)
    (hdownstream : succeededDownstream db.stages stage.runId stage.ordinal ≠ [])
    (hrun : db'.runs[stage.runId]? = some run) :
    db'.stages = invalidated db stage ∧ run.progress = percentage
      ((rowsOf db'.stages stage.runId).countP (·.status = .succeeded))
      (rowsOf db'.stages stage.runId).length := by
  simp only [markDownstreamStagesStale, bind_eq_ok] at h
  obtain ⟨⟨run₀, stage₀⟩, hlock, h⟩ := h
  obtain ⟨hstage₀, _⟩ := lockStageProjectFirst_none_ok hlock
  obtain rfl : stage = stage₀ := Option.some.inj (hstage.symm.trans hstage₀)
  rw [if_neg hdownstream, pure_eq_ok] at h
  subst h
  obtain ⟨_, _, ⟨_, rfl⟩ | ⟨hne, _⟩⟩ := getElem?_modify_cases hrun
  · exact ⟨rfl, rfl⟩
  · exact absurd rfl hne

end

/-! ### Rows that go stale -/

section
variable {db : Db δ} {stage : RunStageRow} {p : RunStageRow → Bool}

theorem invalidated_eq (db : Db δ) (stage : RunStageRow) :
    invalidated db stage = updateWhere (fun _ s => s.runId = stage.runId ∧
      stage.ordinal < s.ordinal ∧ isLatestGeneration db.stages s ∧ s.status = .succeeded)
      (·.markStale db.now) db.stages :=
  updateWhere_idsWhere

/-- The later stages of a row leave the succeeded rows. -/
theorem countP_invalidated
    (hp : ∀ row, row.runId = stage.runId → isLatestGeneration db.stages row → p row) :
    (invalidated db stage).countP (fun row => row.status = .succeeded ∧ p row) =
      db.stages.countP (fun row => row.status = .succeeded ∧ p row) -
        (succeededDownstream db.stages stage.runId stage.ordinal).length := by
  have hcount := @countP_updateWhere_cleared _ (fun _ s => decide (s.runId = stage.runId ∧
      stage.ordinal < s.ordinal ∧ isLatestGeneration db.stages s ∧ s.status = .succeeded))
    (·.markStale db.now) db.stages (fun row => row.status = .succeeded ∧ p row) ?_
  · rw [invalidated_eq, ← hcount, succeededDownstream]
    omega
  · intro i row _ hrow
    obtain ⟨hrun, _, hl, hstatus⟩ := of_decide_eq_true hrow
    exact ⟨by simp [hstatus, hp row hrun hl], by simp [RunStageRow.markStale]⟩

/-- They stay rows of their run. -/
theorem countP_invalidated_same (hmark : ∀ row, p (row.markStale db.now) = p row) :
    (invalidated db stage).countP p = db.stages.countP p := by
  rw [invalidated_eq]
  exact countP_updateWhere_same fun _ row _ _ => hmark row

theorem newestRows_invalidated (r : ℕ) :
    newestRows (invalidated db stage) r =
      (invalidated db stage).filter fun s => s.runId = r && isLatestGeneration db.stages s := by
  have hkeys : (invalidated db stage).map (·.key) = db.stages.map (·.key) := by
    rw [invalidated_eq]
    refine List.ext_getElem? fun i => ?_
    simp only [List.getElem?_map, getElem?_updateWhere, Option.map_map]
    congr 1
    funext s
    simp only [Function.comp_apply]
    split <;> rfl
  refine List.filter_congr fun s _ => ?_
  rw [Bool.eq_iff_iff]
  simp only [Bool.and_eq_true, @isLatestGeneration_congr _ _ s s hkeys rfl]

/-- After the later stages of a row went stale, fewer stages have succeeded. -/
theorem UniqueGenerations.stageProgress_invalidated (hu : UniqueGenerations db.stages)
    (hu' : UniqueGenerations (invalidated db stage)) :
    stageProgress (invalidated db stage) stage.runId =
      (percentage ((succeededStages db.stages stage.runId).card -
          (succeededDownstream db.stages stage.runId stage.ordinal).length)
        (stagesOf db.stages stage.runId).card : ℤ) := by
  have hcard : (stagesOf (invalidated db stage) stage.runId).card =
      (stagesOf db.stages stage.runId).card := by
    rw [hu'.card_stagesOf, hu.card_stagesOf, newestRows_invalidated, newestRows,
      ← List.countP_eq_length_filter, ← List.countP_eq_length_filter]
    exact countP_invalidated_same fun row => rfl
  have hsucceeded : (succeededStages (invalidated db stage) stage.runId).card =
      (succeededStages db.stages stage.runId).card -
        (succeededDownstream db.stages stage.runId stage.ordinal).length := by
    rw [hu'.card_succeededStages, hu.card_succeededStages, newestRows_invalidated, newestRows,
      List.countP_filter, List.countP_filter]
    have := @countP_invalidated _ db stage
      (fun s => s.runId = stage.runId && isLatestGeneration db.stages s) (by simp +contextual)
    simpa using this
  rw [stageProgress, hcard, hsucceeded, percentage_eq]

/-- `markDownstreamStagesStale` writes the share of the newest rows exactly if all rows show it. -/
theorem percentage_rowsOf_invalidated :
    percentage ((rowsOf (invalidated db stage) stage.runId).countP (·.status = .succeeded))
        (rowsOf (invalidated db stage) stage.runId).length =
      percentage ((rowsOf db.stages stage.runId).countP (·.status = .succeeded) -
          (succeededDownstream db.stages stage.runId stage.ordinal).length)
        (rowsOf db.stages stage.runId).length := by
  have hlength : (rowsOf (invalidated db stage) stage.runId).length =
      (rowsOf db.stages stage.runId).length := by
    rw [rowsOf, rowsOf, ← List.countP_eq_length_filter, ← List.countP_eq_length_filter]
    exact countP_invalidated_same fun row => rfl
  have hcount := @countP_invalidated _ db stage (fun s => s.runId = stage.runId)
    (by simp +contextual)
  rw [hlength, rowsOf, rowsOf, List.countP_filter, List.countP_filter]
  congr 1
  simpa using hcount

end

/-! ### Progress after a write -/

section
variable {db db' : Db δ} {op : Op δ} {r : ℕ} {run : ResearchRunRow} [DomainStore δ]

/-- **Progress is one function of the stages** where superseded rows do not change the share, and
    only there. -/
theorem run_progress_iff (hdb : db.Reachable) (h : perform db op = .ok db')
    (hwrites : op.progressRun db = some r) (hrun : db'.runs[r]? = some run) :
    (run.progress : ℤ) = stageProgress db'.stages r ↔ CountsNewest db op := by
  have hwell : WellGenerated db.runs.length db.stages := Db.ReachableBy.wellGenerated hdb
  have hunique : UniqueGenerations db'.stages := (perform_wellGenerated h hwell).unique
  cases op with
  | commitRunStage i fence key output domainCommit =>
    simp only [Op.progressRun, Option.bind_eq_bind, Option.bind_eq_some_iff,
      Option.filter_eq_some_iff, Option.isNone_iff_eq_none, Option.pure_def,
      Option.some.injEq] at hwrites
    obtain ⟨stage, ⟨hstage, hnew⟩, rfl⟩ := hwrites
    obtain ⟨committed, hcommit, rfl⟩ := map_eq_ok.mp h
    rw [commitRunStage_progress hcommit hstage hnew hrun]
    exact iff_of_true (runProgress_eq hunique) trivial
  | restartRunStage i key inputReference =>
    simp only [Op.progressRun, Option.bind_eq_bind, Option.bind_eq_some_iff,
      Option.filter_eq_some_iff, Option.isNone_iff_eq_none, Option.pure_def,
      Option.some.injEq] at hwrites
    obtain ⟨stage, hstage, run₀, ⟨hrun₀, hnew⟩, rfl⟩ := hwrites
    obtain ⟨submitted, hrestart, rfl⟩ := map_eq_ok.mp h
    rw [restartRunStage_progress hrestart hstage hrun₀ hnew hrun]
    exact iff_of_true (runProgress_eq hunique) trivial
  | markDownstreamStagesStale i =>
    simp only [Op.progressRun, Option.bind_eq_bind, Option.bind_eq_some_iff,
      Option.filter_eq_some_iff, decide_eq_true_eq, Option.pure_def,
      Option.some.injEq] at hwrites
    obtain ⟨stage, ⟨hstage, hdownstream⟩, rfl⟩ := hwrites
    obtain ⟨hstages, hprogress⟩ := markDownstreamStagesStale_progress h hstage hdownstream hrun
    rw [hstages] at hunique hprogress ⊢
    rw [hprogress, percentage_rowsOf_invalidated, hwell.unique.stageProgress_invalidated hunique,
      Nat.cast_inj]
    simp only [CountsNewest, SharesAgree, hstage, Option.mem_def, Option.some.injEq, forall_eq']
  | _ => cases hwrites

end

/-! ### A restarted stage -/

/-- The second stage is restarted and committed again. -/
def recommittedStage : List (Op Unit) :=
  twoStages ++ .restartRunStage 1 (.custom 0) (.document 0) ::
    executeStage 2 11 .questionDecomposition 2

/-- The state before what follows the first stage goes stale. -/
def recommitted : Db Unit := recommittedStage.foldl transact (Db.initial [approvedProject] ())

theorem recommitted_reachable : recommitted.Reachable :=
  Db.reachable_ofActions (Db.initial_initial _ ()) _

/-- Both generations of the second stage count: progress is 17, and one of eleven stages has
    succeeded. -/
theorem superseded_generation_counts :
    ¬ ∀ (db db' : Db Unit) (op : Op Unit) (r : ℕ) (run : ResearchRunRow), db.Reachable →
      perform db op = .ok db' → op.progressRun db = some r → db'.runs[r]? = some run →
      (run.progress : ℤ) = stageProgress db'.stages r := by
  intro hall
  have hstale : ∃ db' ∈ (perform recommitted (.markDownstreamStagesStale 0)).toOption,
      (Op.markDownstreamStagesStale 0 : Op Unit).progressRun recommitted = some 0 ∧
      ∃ run ∈ db'.runs[0]?, run.progress = 17 ∧ stageProgress db'.stages 0 = 9 := by
    decide +kernel
  obtain ⟨db', hdb', hwrites, run, hrun, hprogress, hnewest⟩ := hstale
  have := hall recommitted db' _ 0 run recommitted_reachable (toOption_eq_some.mp hdb') hwrites hrun
  omega

/-- The restart of the second stage leaves one of eleven stages succeeded. -/
theorem run_progress_restarted :
    ∃ db', perform (twoStages.foldl transact (Db.initial [approvedProject] ()))
        (.restartRunStage 1 (.custom 0) (.document 0)) = .ok db' ∧
      ∃ run, db'.runs[0]? = some run ∧ (run.progress : ℤ) = stageProgress db'.stages 0 := by
  have hrestart : ∃ db' ∈ (perform (twoStages.foldl transact (Db.initial [approvedProject] ()))
        (.restartRunStage 1 (.custom 0) (.document 0))).toOption,
      (Op.restartRunStage 1 (.custom 0) (.document 0) : Op Unit).progressRun
        (twoStages.foldl transact (Db.initial [approvedProject] ())) = some 0 ∧
      (db'.runs[0]?).isSome := by
    decide +kernel
  obtain ⟨db', hdb', hwrites, hrun⟩ := hrestart
  obtain ⟨run, hrun⟩ := Option.isSome_iff_exists.mp hrun
  have hok := toOption_eq_some.mp hdb'
  refine ⟨db', hok, run, hrun, (run_progress_iff ?_ hok hwrites hrun).mpr trivial⟩
  exact Db.reachable_ofActions (Db.initial_initial _ ()) _

end ResearchWorkbench
