import ResearchWorkbench.System.DomainSteps
import ResearchWorkbench.Worker.System

namespace ResearchWorkbench

/-!
# Domain effects of stages

A stage job is delivered at least once, and its handler may die between any two transactions.  The
effects of a stage row are applied by the transaction that writes its commit, under a key that all
handlers of the row compute alike, so they are applied once.

* `Logged δ` — a domain store that remembers which rows' effects were applied to it;
* `LogsEffects` — the guard of its runs: handlers log, other services do not;
* `EffectsAgree`, `SysStep.effectsAgree` — the log is the table of commits: the step lemma;
* `effects_exactly_once` — effects are applied at most once, and exactly with the commit.
-/

variable {δ : Type}

/-! ### The log -/

/-- A domain store, and the stage rows whose effects were applied to it. -/
structure Logged (δ : Type) where
  store : δ
  applied : List ℕ

instance [DomainStore δ] : DomainStore (Logged δ) where
  hasOpenBlocker projectId d := DomainStore.hasOpenBlocker projectId d.store
  sourceCount projectId d := DomainStore.sourceCount projectId d.store
  markGeneratedDomainEffectsNonCurrent ids d :=
    { d with store := DomainStore.markGeneratedDomainEffectsNonCurrent ids d.store }

/-- The effects of the row `i`, logged. -/
def logEffects (i : ℕ) (effects : δ → Except ServiceError δ) (d : Logged δ) :
    Except ServiceError (Logged δ) := do
  let store ← effects d.store
  return ⟨store, d.applied ++ [i]⟩

/-- A handler's commit logs its row, only handlers commit, and no other service writes the log. -/
def LogsEffects (s : Sys (Logged δ)) : Act (Logged δ) → Prop
  | .handle k (.commit domainCommit) => ∀ e ∈ s.executions[k]?, ∀ d d', domainCommit d = .ok d' →
      d'.applied = d.applied ++ [e.fence.runStageId]
  | .operate (.commitRunStage ..) => False
  | .operate (.editDomain edit) => ∀ d, (edit d).applied = d.applied
  | .operate (.commitSourceSearchResults _ _ _ _ _ register) => ∀ d d', register d = .ok d' →
      d'.applied = d.applied
  | _ => True

/-- The states in which nothing was applied at first and every commit was logged. -/
def Sys.LoggedReachable [DomainStore δ] (s : Sys (Logged δ)) : Prop :=
  ∃ db₀ : Db (Logged δ), db₀.Initial ∧ db₀.domain.applied = [] ∧
    Reach Sys.step LogsEffects ⟨db₀, []⟩ s

/-! ### Keys -/

/-- `run:R:stage:S:generation:G:commit`, the key under which a row is committed. -/
def RunStageRow.commitKey (stage : RunStageRow) : CommitKey :=
  .stage stage.runId stage.stageId stage.generation

/-- The key under which an execution is going to commit its row. -/
def HandlerPhase.commitKey : HandlerPhase → Option CommitKey
  | .preparing key _ => some key
  | .calling key _ => some key
  | .recording key _ => some key
  | .recorded key _ => some key
  | .committing key _ => some key
  | _ => none

/-- The key is that of the stage row. -/
def KeyOf (stages : List RunStageRow) (i : ℕ) (key : CommitKey) : Prop :=
  ∃ stage, stages[i]? = some stage ∧ key = stage.commitKey

/-- The log is the table of commits, which has one commit for a row, under its key, and so have the
    executions. -/
structure EffectsAgree (s : Sys (Logged δ)) : Prop where
  log : s.db.domain.applied = s.db.commits.map (·.runStageId)
  unique : (s.db.commits.map (·.runStageId)).Nodup
  keyed : ∀ commit ∈ s.db.commits, ∃ stage, s.db.stages[commit.runStageId]? = some stage ∧
    commit.generation = stage.generation ∧ commit.idempotencyKey = stage.commitKey
  executions : ∀ e ∈ s.executions, ∀ key ∈ e.phase.commitKey,
    KeyOf s.db.stages e.fence.runStageId key

section
variable [DomainStore δ] {db db' : Db δ} {op : Op δ} {e : Execution} {phase : HandlerPhase}
  {event : HandlerEvent δ} {i : ℕ} {key : CommitKey}

theorem SameStage.commitKey {stage stage' : RunStageRow} (h : SameStage stage stage') :
    stage'.commitKey = stage.commitKey := by
  simp only [RunStageRow.commitKey, h.runId, h.stageId, h.generation]

/-- Rows keep their keys. -/
theorem perform_keyOf (hrun : perform db op = .ok db') (h : KeyOf db.stages i key) :
    KeyOf db'.stages i key := by
  obtain ⟨stage, hstage, rfl⟩ := h
  obtain ⟨stage', hstage', hsame⟩ := perform_stage_run hrun hstage
  exact ⟨stage', hstage', hsame.commitKey.symm⟩

/-- A handler computes its key from its row, and keeps it. -/
theorem HandlerStep.commitKey (h : HandlerStep db e event db' phase) (hkey : phase.commitKey = some key) :
    e.phase.commitKey = some key ∨ KeyOf db.stages e.fence.runStageId key := by
  cases h with
  | keep => exact .inl hkey
  | reuse _ hstage _ => exact .inr ⟨_, hstage, (Option.some.inj hkey).symm⟩
  | build _ hstage => exact .inr ⟨_, hstage, (Option.some.inj hkey).symm⟩
  | call hphase => exact .inl (by rw [hphase]; exact hkey)
  | answer _ hphase => exact .inl (by rw [hphase]; exact hkey)
  | finish hphase => exact .inl (by rw [hphase]; exact hkey)
  | record hphase _ =>
    refine .inl ?_
    rw [hphase]
    revert hkey
    unfold ProviderAttempt.recordedPhase
    repeat' split
    · exact id
    all_goals nofun
  | _ => cases hkey

end

/-! ### The step lemma -/

section
variable [DomainStore δ] {s s' : Sys (Logged δ)} {a : Act (Logged δ)}

/-- What a step does to the log and the commits: nothing, or the effects of a row are applied with
    its commit. -/
inductive LogStep (s s' : Sys (Logged δ)) : Prop
  | keep (log : s'.db.domain.applied = s.db.domain.applied)
      (commits : s'.db.commits = s.db.commits)
  | commit {e : Execution} {key : CommitKey} {output : StageOutput} {stage : RunStageRow}
      (execution : e ∈ s.executions) (phase : e.phase = .committing key output)
      (stageRow : s.db.stages[e.fence.runStageId]? = some stage)
      (free : existingCommit s.db e.fence.runStageId stage.generation key = none)
      (log : s'.db.domain.applied = s.db.domain.applied ++ [e.fence.runStageId])
      (commits : s'.db.commits =
        s.db.commits ++ [⟨e.fence.runStageId, stage.generation, key, output.hash⟩])

/-- An operation that commits no stage applies no effects. -/
theorem LogStep.ofOperation {db' : Db (Logged δ)} {op : Op (Logged δ)}
    {executions : List Execution} (hrun : perform s.db op = .ok db')
    (hop : LogsEffects s (.operate op)) : LogStep s ⟨db', executions⟩ := by
  cases perform_domain hrun with
  | keep _ hdomain hcommits => exact .keep (by rw [hdomain]) hcommits
  | edit hdomain hcommits => exact .keep (by rw [hdomain]; exact hop _) hcommits
  | register hdomain hcommits => exact .keep (hop _ _ hdomain) hcommits
  | supersede ids _ hdomain hcommits => exact .keep (by rw [hdomain]; rfl) hcommits
  | commit _ _ _ _ _ => exact hop.elim

theorem SysStep.logs (h : SysStep s a s') (ha : LogsEffects s a) : LogStep s s' := by
  cases h with
  | idle => exact .keep rfl rfl
  | operate hrun => exact .ofOperation hrun ha
  | start hrun _ => exact .ofOperation hrun trivial
  | complete _ _ hrun => exact .ofOperation hrun trivial
  | handle hrow hstep =>
    cases hstep with
    | start _ hrun => exact .ofOperation hrun trivial
    | record _ hrun => exact .ofOperation hrun trivial
    | boundary _ hrun => exact .ofOperation hrun trivial
    | queue _ hrun => exact .ofOperation hrun trivial
    | blocked _ hrun => exact .ofOperation hrun trivial
    | commit htold hphase hrun =>
      subst htold
      cases perform_domain hrun with
      | keep _ hdomain hcommits => exact .keep (by rw [hdomain]) hcommits
      | supersede _ hop _ _ =>
        obtain ⟨_, hop⟩ | ⟨_, _, _, hop⟩ := hop
        all_goals cases hop
      | commit hstage hfree hdomain hcommits _ =>
        exact .commit (List.mem_of_getElem? hrow) hphase hstage hfree (ha _ hrow _ _ hdomain)
          hcommits
    | _ => exact .keep rfl rfl

omit [DomainStore δ] in
/-- A row whose commit is free under its key has no commit. -/
theorem EffectsAgree.not_committed (h : EffectsAgree s) {i : ℕ} {stage : RunStageRow}
    (hstage : s.db.stages[i]? = some stage)
    (hfree : existingCommit s.db i stage.generation stage.commitKey = none) :
    i ∉ s.db.commits.map (·.runStageId) := by
  intro hmem
  obtain ⟨commit, hcommit, rfl⟩ := List.mem_map.mp hmem
  obtain ⟨stage', hstage', hgeneration, hkey⟩ := h.keyed commit hcommit
  obtain rfl := Option.some.inj (hstage.symm.trans hstage')
  have := List.find?_eq_none.mp hfree commit hcommit
  simp [hgeneration, hkey] at this

/-- Every step keeps the keys of rows. -/
theorem SysStep.keyOf (h : SysStep s a s') {i : ℕ} {key : CommitKey}
    (hkey : KeyOf s.db.stages i key) : KeyOf s'.db.stages i key := by
  obtain hsame | ⟨op, hrun⟩ := h.performs
  · rwa [hsame]
  · exact perform_keyOf hrun hkey

/-- **The step lemma.**  The log stays the table of commits. -/
theorem SysStep.effectsAgree (h : SysStep s a s') (ha : LogsEffects s a) (hI : EffectsAgree s) :
    EffectsAgree s' := by
  have hkeyed : ∀ commit ∈ s.db.commits, ∃ stage, s'.db.stages[commit.runStageId]? = some stage ∧
      commit.generation = stage.generation ∧ commit.idempotencyKey = stage.commitKey := by
    intro commit hcommit
    obtain ⟨stage, hstage, hgeneration, hkey⟩ := hI.keyed commit hcommit
    obtain hsame | ⟨op, hrun⟩ := h.performs
    · exact ⟨stage, by rwa [hsame], hgeneration, hkey⟩
    · obtain ⟨stage', hstage', hsame⟩ := perform_stage_run hrun hstage
      exact ⟨stage', hstage', hgeneration.trans hsame.generation.symm,
        hkey.trans hsame.commitKey.symm⟩
  have hexecutions : ∀ e ∈ s'.executions, ∀ key ∈ e.phase.commitKey,
      KeyOf s'.db.stages e.fence.runStageId key := by
    intro e he key hkey
    obtain he | ⟨e₀, he₀, phase, rfl, _, hstep⟩ | ⟨_, hphase⟩ := h.execution he
    · exact h.keyOf (hI.executions e he key hkey)
    · obtain hold | hnew := hstep.commitKey hkey
      · exact h.keyOf (hI.executions e₀ he₀ key hold)
      · exact h.keyOf hnew
    · rw [hphase] at hkey
      cases hkey
  cases h.logs ha with
  | keep hlog hcommits =>
    refine ⟨?_, ?_, ?_, hexecutions⟩
    · rw [hlog, hcommits, hI.log]
    · rw [hcommits]
      exact hI.unique
    · rw [hcommits]
      exact hkeyed
  | @commit e key output stage he hphase hstage hfree hlog hcommits =>
    -- the key is that of the row, so the row had no commit
    obtain ⟨stage', hstage', rfl⟩ := hI.executions e he key (by rw [hphase]; rfl)
    obtain rfl := Option.some.inj (hstage.symm.trans hstage')
    have hnew := hI.not_committed hstage hfree
    refine ⟨?_, ?_, fun commit hmem => ?_, hexecutions⟩
    · rw [hlog, hcommits, hI.log, List.map_append]
      rfl
    · rw [hcommits, List.map_append, List.nodup_append]
      refine ⟨hI.unique, by simp, fun x hx y hy => ?_⟩
      obtain rfl : y = e.fence.runStageId := by simpa using hy
      rintro rfl
      exact hnew hx
    · rw [hcommits] at hmem
      obtain hmem | hmem := List.mem_append.mp hmem
      · exact hkeyed commit hmem
      · obtain rfl := List.mem_singleton.mp hmem
        obtain hsame | ⟨op, hrun⟩ := h.performs
        · exact ⟨stage, by rwa [hsame], rfl, rfl⟩
        · obtain ⟨stage'', hstage'', hsame⟩ := perform_stage_run hrun hstage
          exact ⟨stage'', hstage'', hsame.generation.symm, hsame.commitKey.symm⟩

theorem Sys.LoggedReachable.effectsAgree (h : s.LoggedReachable) : EffectsAgree s := by
  obtain ⟨db₀, hinit, hlog, hreach⟩ := h
  refine hreach.invariant (I := EffectsAgree) ⟨?_, ?_, ?_, ?_⟩
    fun s a hI ha => (s.step_cases a).effectsAgree ha hI
  · rw [hlog, hinit.commits]
    rfl
  · simp [hinit.commits]
  · simp [hinit.commits]
  · simp

/-! ### Exactly once -/

/-- **Exactly once.**  In every reachable state the effects of a stage row were applied at most
    once, and they were exactly if the row has a commit; and a commit of a handler either leaves the
    whole database as it was, or applies the effects, writes the commit and moves the row to
    `SUCCEEDED` together. -/
theorem effects_exactly_once (h : s.LoggedReachable) :
    (∀ i, s.db.domain.applied.count i ≤ 1 ∧ (0 < s.db.domain.applied.count i ↔
      ∃ commit ∈ s.db.commits, commit.runStageId = i)) ∧
    ∀ k domainCommit, (s.step (.handle k (.commit domainCommit))).db = s.db ∨
      ∃ e key output stage, s.executions[k]? = some e ∧ e.phase = .committing key output ∧
        s.db.stages[e.fence.runStageId]? = some stage ∧
        domainCommit s.db.domain = .ok (s.step (.handle k (.commit domainCommit))).db.domain ∧
        (s.step (.handle k (.commit domainCommit))).db.commits =
          s.db.commits ++ [⟨e.fence.runStageId, stage.generation, key, output.hash⟩] ∧
        (s.step (.handle k (.commit domainCommit))).db.stages[e.fence.runStageId]? =
          some (stage.succeed s.db.now output) := by
  have hagree := h.effectsAgree
  refine ⟨fun i => ?_, fun k domainCommit => ?_⟩
  · rw [hagree.log]
    refine ⟨List.nodup_iff_count_le_one.mp hagree.unique i, ?_⟩
    rw [List.count_pos_iff, List.mem_map]
  · simp only [Sys.step]
    split
    · rename_i e hrow
      simp only [Execution.step]
      split
      · rename_i key output hphase
        cases hrun : perform s.db
          (.commitRunStage e.fence.runStageId e.fence key output domainCommit) with
        | error err => exact .inl (by simp only [attempt, hrun])
        | ok db' =>
          simp only [attempt, hrun]
          obtain ⟨r, hr, rfl⟩ := map_eq_ok.mp hrun
          obtain ⟨_, stage, hfenced, _, ⟨rfl, _⟩ | ⟨_, _, _, _, _, _, _, hdomain, rfl⟩⟩ :=
            commitRunStage_ok hr
          · exact .inl rfl
          · exact .inr ⟨e, key, output, stage, hrow, hphase, hfenced.stageRow, hdomain, rfl,
              getElem?_modify_eq hfenced.stageRow⟩
      · exact .inl rfl
    · exact .inl rfl

end

/-! ### A commit that is taken over -/

/-- The handler of the first attempt is about to commit when its lease expires, and the handler of
    the second attempt finds its output. -/
def takenOver : List (Act (Logged Unit)) :=
  [.operate (.createResearchRun { projectId := 0, mode := .assisted, idempotencyKey := 0 }),
    .operate (.claimJobs { workerId := 0, leaseDurationMs := 1000 } []),
    .start 0 0 none,
    .handle 0 .next,
    .handle 0 .next,
    .handle 0 .next,
    .handle 0 .next,
    .handle 0 (.answer { providerExecutionId := 0, outputReference := some ⟨0, false, 0⟩ }),
    .handle 0 .next,
    .handle 0 .next,
    .operate (.tick 1000),
    .operate (.recoverExpiredJob 0 none 0),
    .operate (.tick 60000),
    .operate (.claimJobs { workerId := 1, leaseDurationMs := 1000 } []),
    .start 0 1 none,
    .handle 1 .next,
    .handle 1 .next,
    .handle 1 .next]

/-- The state before the two handlers commit. -/
def beforeCommits : Sys (Logged Unit) :=
  takenOver.foldl Sys.step ⟨Db.initial [approvedProject] ⟨(), []⟩, []⟩

theorem logEffects_ok {i : ℕ} {effects : δ → Except ServiceError δ} {d d' : Logged δ}
    (h : logEffects i effects d = .ok d') : d'.applied = d.applied ++ [i] := by
  simp only [logEffects, bind_eq_ok, pure_eq_ok] at h
  obtain ⟨_, _, rfl⟩ := h
  rfl

/-- Both handlers commit the row, and its effects are applied once. -/
theorem effects_exactly_once_takenOver :
    (∃ commit ∈ ((beforeCommits.step (.handle 1 (.commit (logEffects 0 .ok)))).step
        (.handle 0 (.commit (logEffects 0 .ok)))).db.commits, commit.runStageId = 0) ∧
      ((beforeCommits.step (.handle 1 (.commit (logEffects 0 .ok)))).step
        (.handle 0 (.commit (logEffects 0 .ok)))).db.domain.applied.count 0 = 1 := by
  have hlogs {s : Sys (Logged Unit)} {k : ℕ}
      (hrow : ∀ e ∈ s.executions[k]?, e.fence.runStageId = 0) :
      LogsEffects s (.handle k (.commit (logEffects 0 .ok))) := by
    intro e he d d' hd
    rw [hrow e he]
    exact logEffects_ok hd
  have hreach : ((beforeCommits.step (.handle 1 (.commit (logEffects 0 .ok)))).step
      (.handle 0 (.commit (logEffects 0 .ok)))).LoggedReachable := by
    refine ⟨_, Db.initial_initial [approvedProject] ⟨(), []⟩, rfl, ?_⟩
    refine Reach.tail' (Reach.tail' (Reach.ofTrace (l := takenOver) ?_) _ (hlogs ?_)) _ (hlogs ?_)
    · simp [TraceOk, takenOver, LogsEffects]
    · decide +kernel
    · decide +kernel
  have hcommit : ∃ commit ∈ ((beforeCommits.step (.handle 1 (.commit (logEffects 0 .ok)))).step
      (.handle 0 (.commit (logEffects 0 .ok)))).db.commits, commit.runStageId = 0 := by
    decide +kernel
  obtain ⟨hle, hpos⟩ := (effects_exactly_once hreach).1 0
  exact ⟨hcommit, le_antisymm hle (hpos.mpr hcommit)⟩

end ResearchWorkbench
