import ResearchWorkbench.Domain.Budgets
import ResearchWorkbench.Worker.System

namespace ResearchWorkbench

/-!
# Provider calls of the workers

The handler of a stage job around its call of the AI provider, as
`createResearchPipelineStageHandler` makes it: the usage it has loaded, the budget it checks, the
call itself, and the record of the call after it has ended.  A handler may stop at any point, and
then the call is never recorded.

* `ProviderSys`, `ProviderAct`, `ProviderSys.step` — the workers with their calls;
* `ProviderStep`, `ProviderSys.step_cases` — everything a step can do, said once;
* `ProviderStep.sysStep` — it is a system of workers: the calls only restrict what a handler does.
-/

variable {δ : Type}

/-- A call of the provider: the execution that made it, its run, and whether
    `recordRunStageProviderAttempt` has charged it to the run.  Its place in the list of calls is
    the id of its provider execution. -/
structure ProviderCall where
  execution : ℕ
  runId : ℕ
  recorded : Bool
  deriving DecidableEq, Repr

/-- What a handler has read for its call: the rows of the run and of the stage, and how many
    eligible sources and document chunks there are; whether the budget has been checked since; and
    the calls of all workers at that time. -/
structure LoadedUsage where
  runId : ℕ
  run : ResearchRunRow
  stage : RunStageRow
  sources : ℕ
  documentChunks : ℕ
  checked : Bool
  calls : List ProviderCall

/-- `runUsage(bundle)`, at the given time. -/
def LoadedUsage.usage (loaded : LoadedUsage) (now : ℕ) : RunUsage where
  providerRequests := loaded.run.totalProviderRequests
  searchRequests := loaded.run.totalSearchRequests
  inputTokens := loaded.run.totalInputTokens
  outputTokens := loaded.run.totalOutputTokens
  estimatedCostUsd := loaded.run.estimatedCost.getD 0
  costStatus := loaded.run.costStatus
  elapsedMs := (loaded.run.startedAt.map (now - ·)).getD 0
  stageAttempts := loaded.stage.attemptCount
  sources := loaded.sources
  documentChunks := loaded.documentChunks

/-- The check before the call: one more request, at a price of the given status. -/
def LoadedUsage.preflight (loaded : LoadedUsage) (now : ℕ) (costStatus : CostStatus) : List String :=
  checkRunBudget loaded.run.budget (loaded.usage now)
    { providerRequests := 1, costStatus := some costStatus }

/-- The workers, what each execution has loaded, and the provider calls, oldest first. -/
structure ProviderSys (δ : Type) where
  sys : Sys δ
  loaded : ℕ → Option LoadedUsage
  calls : List ProviderCall

/-- What can happen. -/
inductive ProviderAct (δ : Type)
  /-- Anything that is none of the steps below. -/
  | act (a : Act δ)
  /-- The handler of execution `k` loads its bundle for the second time. -/
  | load (k sources documentChunks : ℕ)
  /-- It checks the run's budget, the price of its model having the given status. -/
  | check (k : ℕ) (costStatus : CostStatus)
  /-- It asserts its fence. -/
  | fence (k : ℕ)
  /-- `startProviderExecution`, and the call of the provider. -/
  | call (k : ℕ)
  /-- The call has ended, with an output or an error. -/
  | answer (k : ℕ) (attempt : ProviderAttempt)
  /-- `recordRunStageProviderAttempt`. -/
  | record (k : ℕ)

/-- The phases in which a handler goes on by a step of its own. -/
def HandlerPhase.isCalling : HandlerPhase → Bool
  | .building | .preparing .. | .calling .. | .recording .. => true
  | _ => false

/-- Anything but the steps of a handler around its call.  Only the handler calls
    `recordRunStageProviderAttempt`. -/
def Act.isOther (s : Sys δ) : Act δ → Bool
  | .operate (.recordRunStageProviderAttempt ..) => false
  | .handle _ (.answer _) => false
  | .handle k .next => (s.executions[k]?.map (·.phase.isCalling)).getD false = false
  | _ => true

/-- The text of a budget violation. -/
def budgetReason (violations : List String) : String :=
  "Run budget prevents another provider call: " ++ ", ".intercalate violations ++ "."

/-! ### How a handler goes on -/

/-- Before the call of the provider. -/
def HandlerPhase.isBeforeCall : HandlerPhase → Bool
  | .loading | .starting | .building | .preparing .. => true
  | _ => false

/-- The provider's answer is recorded, or there will be none. -/
def HandlerPhase.isSettled : HandlerPhase → Bool
  | .loading | .starting | .building | .preparing .. | .calling .. | .recording .. => false
  | _ => true

/-- A handler that does not call goes on to another phase before its call, or settles. -/
def HandlerPhase.Follows (phase phase' : HandlerPhase) : Prop :=
  phase' = phase ∨ phase.isBeforeCall ∧ phase'.isBeforeCall ∨ phase'.isSettled

/-- `recordRunStageProviderAttempt`. -/
def Op.isRecord : Op δ → Bool
  | .recordRunStageProviderAttempt .. => true
  | _ => false

theorem HandlerPhase.Follows.refl (phase : HandlerPhase) : phase.Follows phase := .inl rfl

theorem HandlerPhase.Follows.settled {phase phase' : HandlerPhase} (h : phase'.isSettled) :
    phase.Follows phase' := .inr (.inr h)

/-- What is read leads to a phase that follows, or the handler throws. -/
theorem HandlerPhase.Follows.readOnly {db : Db δ} {read : Except ServiceError HandlerPhase} {phase : HandlerPhase}
    (h : ∀ phase', read = .ok phase' → phase.Follows phase') :
    phase.Follows (readOnly db read).2 := by
  unfold ResearchWorkbench.readOnly
  split
  · exact h _ rfl
  · exact .settled rfl

/-! ### One step -/

/-- The phase of an execution. -/
def ProviderSys.phase (s : ProviderSys δ) (k : ℕ) : Option HandlerPhase :=
  s.sys.executions[k]?.map (·.phase)

theorem ProviderSys.phase_eq_some {s : ProviderSys δ} {k : ℕ} {phase : HandlerPhase}
    (h : s.phase k = some phase) : ∃ e, s.sys.executions[k]? = some e ∧ e.phase = phase :=
  Option.map_eq_some_iff.mp h

section
variable [DomainStore δ]

/-- What an execution reads when it loads its bundle. -/
def ProviderSys.bundle (s : ProviderSys δ) (k : ℕ) : Option ResearchOrchestrationBundle :=
  s.sys.executions[k]?.bind fun e =>
    (loadResearchOrchestrationBundle s.sys.db e.fence.runStageId).toOption

/-- What an action does. -/
def ProviderSys.step (s : ProviderSys δ) : ProviderAct δ → ProviderSys δ
  | .act a => if a.isOther s.sys then { s with sys := s.sys.step a } else s
  | .load k sources documentChunks =>
    match s.phase k, s.bundle k with
    | some .building, some bundle =>
      { s with
        sys := s.sys.step (.handle k .next)
        loaded := Function.update s.loaded k (some
          ⟨bundle.stage.runId, bundle.run, bundle.stage, sources, documentChunks, false, s.calls⟩) }
    | some .building, none => { s with sys := s.sys.step (.handle k .next) }
    | _, _ => s
  | .check k costStatus =>
    match s.phase k, s.loaded k with
    | some (.preparing ..), some loaded =>
      let violations := loaded.preflight s.sys.db.now costStatus
      if violations = [] then
        { s with loaded := Function.update s.loaded k (some { loaded with checked := true }) }
      else
        { s with
          sys := s.sys.step (.handle k (.block .nonRetryableBudget (budgetReason violations))) }
    | _, _ => s
  | .fence k =>
    match s.phase k, s.loaded k with
    | some (.preparing ..), some loaded =>
      if loaded.checked then { s with sys := s.sys.step (.handle k .next) } else s
    | _, _ => s
  | .call k =>
    match s.phase k, s.loaded k with
    | some (.calling ..), some loaded =>
      if ∀ call ∈ s.calls, call.execution ≠ k then
        { s with calls := s.calls ++ [⟨k, loaded.runId, false⟩] }
      else s
    | _, _ => s
  | .answer k attempt =>
    match s.phase k, findRow (·.execution = k) s.calls with
    | some (.calling ..), some (id, _) =>
      { s with
        sys := s.sys.step (.handle k (.answer { attempt with providerExecutionId := id })) }
    | _, _ => s
  | .record k =>
    match s.sys.executions[k]? with
    | some e =>
      match e.phase with
      | .recording _ attempt =>
        { s with
          sys := s.sys.step (.handle k .next)
          calls :=
            match perform s.sys.db
              (.recordRunStageProviderAttempt e.fence.runStageId e.fence attempt) with
            | .ok _ => s.calls.modify attempt.providerExecutionId ({ · with recorded := true })
            | .error _ => s.calls }
      | _ => s
    | none => s

/-- The system before any worker has started. -/
def ProviderSys.initial (projects : List ProjectRow) (domain : δ) : ProviderSys δ where
  sys := ⟨.initial projects domain, []⟩
  loaded _ := none
  calls := []

/-! ### What a step does -/

/-- The database stays, or another operation than `recordRunStageProviderAttempt` changes it. -/
def Uncalled (db db' : Db δ) : Prop :=
  db' = db ∨ ∃ op, perform db op = .ok db' ∧ op.isRecord = false

/-- What the workers do apart from their calls. -/
structure OtherStep (sys sys' : Sys δ) : Prop where
  db : Uncalled sys.db sys'.db
  old : ∀ (k : ℕ) (e : Execution), sys.executions[k]? = some e →
    ∃ e', sys'.executions[k]? = some e' ∧ e'.fence = e.fence ∧ e.phase.Follows e'.phase
  new : ∀ (k : ℕ) (e' : Execution), sys'.executions[k]? = some e' →
    (sys.executions[k]? = none → e'.phase = .loading)

/-- What an action may do. -/
inductive ProviderStep (s : ProviderSys δ) : ProviderAct δ → ProviderSys δ → Prop
  | idle (a : ProviderAct δ) : ProviderStep s a s
  | other (a : ProviderAct δ) {sys' : Sys δ} (step : OtherStep s.sys sys') :
      ProviderStep s a { s with sys := sys' }
  | load {k sources documentChunks : ℕ} {e : Execution} {bundle : ResearchOrchestrationBundle}
      {sys' : Sys δ} (row : s.sys.executions[k]? = some e) (phase : e.phase = .building)
      (read : loadResearchOrchestrationBundle s.sys.db e.fence.runStageId = .ok bundle)
      (step : OtherStep s.sys sys') :
      ProviderStep s (.load k sources documentChunks)
        { s with
          sys := sys'
          loaded := Function.update s.loaded k (some ⟨bundle.stage.runId, bundle.run, bundle.stage,
            sources, documentChunks, false, s.calls⟩) }
  | check {k : ℕ} {costStatus : CostStatus} {loaded : LoadedUsage} (read : s.loaded k = some loaded)
      (allowed : loaded.preflight s.sys.db.now costStatus = []) :
      ProviderStep s (.check k costStatus)
        { s with loaded := Function.update s.loaded k (some { loaded with checked := true }) }
  | fence {k builtAt : ℕ} {e : Execution} {key : CommitKey} {loaded : LoadedUsage}
      (row : s.sys.executions[k]? = some e) (phase : e.phase = .preparing key builtAt)
      (read : s.loaded k = some loaded) (checked : loaded.checked) :
      ProviderStep s (.fence k)
        { s with
          sys := ⟨s.sys.db, s.sys.executions.set k { e with phase := .calling key builtAt }⟩ }
  | call {k builtAt : ℕ} {e : Execution} {key : CommitKey} {loaded : LoadedUsage}
      (row : s.sys.executions[k]? = some e) (phase : e.phase = .calling key builtAt)
      (read : s.loaded k = some loaded) (first : ∀ call ∈ s.calls, call.execution ≠ k) :
      ProviderStep s (.call k) { s with calls := s.calls ++ [⟨k, loaded.runId, false⟩] }
  | answer {k builtAt : ℕ} {e : Execution} {key : CommitKey} {call : ProviderCall}
      {attempt answer : ProviderAttempt} (row : s.sys.executions[k]? = some e)
      (phase : e.phase = .calling key builtAt)
      (made : s.calls[answer.providerExecutionId]? = some call) (own : call.execution = k) :
      ProviderStep s (.answer k attempt)
        { s with
          sys := ⟨s.sys.db, s.sys.executions.set k { e with phase := .recording key answer }⟩ }
  | record {k : ℕ} {e : Execution} {key : CommitKey} {attempt : ProviderAttempt} {db' : Db δ}
      (row : s.sys.executions[k]? = some e) (phase : e.phase = .recording key attempt)
      (run : perform s.sys.db
        (.recordRunStageProviderAttempt e.fence.runStageId e.fence attempt) = .ok db') :
      ProviderStep s (.record k)
        { s with
          sys := ⟨db', s.sys.executions.set k { e with phase := attempt.recordedPhase key }⟩
          calls := s.calls.modify attempt.providerExecutionId ({ · with recorded := true }) }

variable {db db' : Db δ} {sys sys' : Sys δ} {s s' : ProviderSys δ} {k : ℕ} {e : Execution}
  {phase : HandlerPhase} {event : HandlerEvent δ}

/-- Only the database changes. -/
theorem OtherStep.ofDb (hdb : Uncalled sys.db db') : OtherStep sys ⟨db', sys.executions⟩ :=
  ⟨hdb, fun _ e h => ⟨e, h, rfl, .refl _⟩, fun _ _ h hnone => by rw [hnone] at h; cases h⟩

theorem OtherStep.refl (sys : Sys δ) : OtherStep sys sys := .ofDb (.inl rfl)

/-- One handler goes on. -/
theorem OtherStep.set (hrow : sys.executions[k]? = some e) (hdb : Uncalled sys.db db')
    (hphase : e.phase.Follows phase) :
    OtherStep sys ⟨db', sys.executions.set k { e with phase := phase }⟩ := by
  refine ⟨hdb, fun j e₀ hj => ?_, fun j e' hj hnone => ?_⟩
  · obtain rfl | hne := eq_or_ne k j
    · obtain rfl := Option.some.inj (hrow.symm.trans hj)
      refine ⟨{ e with phase := phase }, ?_, rfl, hphase⟩
      rw [List.getElem?_set_self (List.getElem?_eq_some_iff.mp hrow).1]
    · refine ⟨e₀, ?_, rfl, .refl _⟩
      rw [List.getElem?_set_ne hne]
      exact hj
  · obtain ⟨hlt, _⟩ := List.getElem?_eq_some_iff.mp hj
    rw [List.length_set] at hlt
    rw [List.getElem?_eq_none_iff] at hnone
    omega

/-- A transaction of a handler other than `recordRunStageProviderAttempt`. -/
theorem attempt_uncalled {op : Op δ} (hop : op.isRecord = false) :
    Uncalled db (attempt db op phase).1 := by
  unfold attempt
  split
  · exact .inr ⟨op, ‹_›, hop⟩
  · exact .inl rfl

theorem readOnly_uncalled {read : Except ServiceError HandlerPhase} :
    Uncalled db (readOnly db read).1 := by
  unfold readOnly
  split <;> exact .inl rfl

/-- A transaction leads to a phase that follows, or the handler throws. -/
theorem HandlerPhase.Follows.attempt {op : Op δ} {phase phase' : HandlerPhase}
    (h : phase.Follows phase') : phase.Follows (attempt db op phase').2 := by
  unfold ResearchWorkbench.attempt
  split
  · exact h
  · exact .settled rfl

/-- A handler that goes on neither calls nor records, unless it is about to. -/
theorem Execution.next_other (hprepared : ∀ key builtAt, e.phase ≠ .preparing key builtAt)
    (hrecording : ∀ key attempt, e.phase ≠ .recording key attempt) :
    Uncalled db (e.next db).1 ∧ e.phase.Follows (e.next db).2 := by
  unfold Execution.next
  split
  case h_1 hphase =>
    refine ⟨readOnly_uncalled, .readOnly fun phase hread => ?_⟩
    simp only [Execution.load, bind_eq_ok] at hread
    obtain ⟨_, _, _, _, hread⟩ := hread
    split at hread
    · obtain rfl := pure_eq_ok.mp hread
      exact .settled rfl
    · obtain rfl := pure_eq_ok.mp hread
      rw [hphase]
      exact .inr (.inl ⟨rfl, rfl⟩)
  case h_2 hphase =>
    rw [hphase]
    exact ⟨attempt_uncalled rfl, .attempt (.inr (.inl ⟨rfl, rfl⟩))⟩
  case h_3 hphase =>
    refine ⟨readOnly_uncalled, .readOnly fun phase hread => ?_⟩
    simp only [Execution.build, bind_eq_ok] at hread
    obtain ⟨_, _, hread⟩ := hread
    split at hread
    · obtain rfl := pure_eq_ok.mp hread
      exact .settled rfl
    · obtain rfl := pure_eq_ok.mp hread
      rw [hphase]
      exact .inr (.inl ⟨rfl, rfl⟩)
  case h_4 hphase => exact absurd hphase (hprepared _ _)
  case h_5 hphase => exact absurd hphase (hrecording _ _)
  case h_6 hphase => exact ⟨.inl rfl, .settled rfl⟩
  case h_7 hphase =>
    refine ⟨readOnly_uncalled, .readOnly fun phase hread => ?_⟩
    simp only [bind_eq_ok, pure_eq_ok] at hread
    obtain ⟨_, _, rfl⟩ := hread
    exact .settled rfl
  case h_8 hphase =>
    refine ⟨readOnly_uncalled, .readOnly fun phase hread => ?_⟩
    simp only [Execution.plan, bind_eq_ok, pure_eq_ok] at hread
    obtain ⟨_, _, _, _, rfl⟩ := hread
    exact .settled rfl
  case h_14 => exact ⟨.inl rfl, .refl _⟩
  -- carrying the decision out, or a block
  case h_9 => exact ⟨.inl rfl, .settled rfl⟩
  case h_10 => exact ⟨.inl rfl, .settled rfl⟩
  all_goals exact ⟨attempt_uncalled rfl, .attempt (.settled rfl)⟩

/-- A handler that is told anything but an answer neither calls nor records. -/
theorem Execution.step_other (hanswer : ∀ attempt, event ≠ .answer attempt)
    (hnext : event = .next → (∀ key builtAt, e.phase ≠ .preparing key builtAt) ∧
      ∀ key attempt, e.phase ≠ .recording key attempt) :
    Uncalled db (e.step db event).1 ∧ e.phase.Follows (e.step db event).2 := by
  cases event with
  | next => exact e.next_other (hnext rfl).1 (hnext rfl).2
  | answer attempt => exact absurd rfl (hanswer attempt)
  | commit domainCommit =>
    simp only [Execution.step]
    split
    · exact ⟨attempt_uncalled rfl, .attempt (.settled rfl)⟩
    · exact ⟨.inl rfl, .refl _⟩
  | block errorClass reason =>
    simp only [Execution.step]
    split
    · exact ⟨.inl rfl, .settled rfl⟩
    · exact ⟨.inl rfl, .settled rfl⟩
    · exact ⟨.inl rfl, .refl _⟩
  | throw =>
    simp only [Execution.step]
    split <;> exact ⟨.inl rfl, .settled rfl⟩

/-- A handler that neither calls nor records. -/
theorem Sys.handle_other (hrow : sys.executions[k]? = some e)
    (hanswer : ∀ attempt, event ≠ .answer attempt)
    (hnext : event = .next → (∀ key builtAt, e.phase ≠ .preparing key builtAt) ∧
      ∀ key attempt, e.phase ≠ .recording key attempt) :
    OtherStep sys (sys.step (.handle k event)) := by
  obtain ⟨hdb, hphase⟩ := @Execution.step_other _ _ sys.db _ _ hanswer hnext
  simp only [Sys.step, hrow]
  exact .set hrow hdb hphase

/-- Workers start, and jobs are completed. -/
theorem OtherStep.append {started : List Execution} (hdb : Uncalled sys.db db')
    (hstarted : ∀ e ∈ started, e.phase = .loading) :
    OtherStep sys ⟨db', sys.executions ++ started⟩ := by
  refine ⟨hdb, fun j e hj => ⟨e, getElem?_append_of_some hj, rfl, .refl _⟩, fun j e hj hnone => ?_⟩
  rw [List.getElem?_eq_none_iff] at hnone
  rw [List.getElem?_append_right hnone] at hj
  exact hstarted e (List.mem_of_getElem? hj)

theorem transact_uncalled {op : Op δ} (hop : op.isRecord = false) :
    Uncalled db (transact db op) := by
  cases hrun : perform db op with
  | ok db' => rw [transact_of_ok hrun]; exact .inr ⟨op, hrun, hop⟩
  | error e => rw [transact_of_error hrun]; exact .inl rfl

/-- Anything else that happens to the workers. -/
theorem Sys.step_other {a : Act δ} (h : a.isOther sys) : OtherStep sys (sys.step a) := by
  cases a with
  | operate op =>
    have hop : op.isRecord = false := by
      cases op with
      | recordRunStageProviderAttempt => cases h
      | _ => rfl
    exact .ofDb (transact_uncalled hop)
  | start jobId workerId expectedVersion =>
    simp only [Sys.step]
    split
    · rename_i db' hrun
      refine .append (.inr ⟨_, hrun, rfl⟩) fun e he => ?_
      obtain ⟨job, _, he⟩ := Option.bind_eq_some_iff.mp (Option.mem_toList.mp he)
      unfold JobRow.execution at he
      split at he
      · obtain rfl := Option.some.inj he
        rfl
      · cases he
    · exact .refl _
  | handle k event =>
    cases hrow : sys.executions[k]? with
    | none =>
      simp only [Sys.step, hrow]
      exact .refl _
    | some e =>
      refine Sys.handle_other hrow ?_ ?_
      · rintro attempt rfl
        cases h
      · rintro rfl
        have hphase : e.phase.isCalling = false := by simpa [Act.isOther, hrow] using h
        constructor
        all_goals
          intro _ _ hcalling
          rw [hcalling] at hphase
          cases hphase
  | complete k output =>
    simp only [Sys.step]
    split
    · split
      · exact .ofDb (transact_uncalled rfl)
      · exact .refl _
    · exact .refl _

/-- The second load is a step like others, which reads. -/
theorem Sys.load_other (hrow : sys.executions[k]? = some e) (hphase : e.phase = .building) :
    OtherStep sys (sys.step (.handle k .next)) := by
  refine Sys.handle_other hrow (fun _ h => nomatch h) fun _ => ?_
  rw [hphase]
  constructor
  all_goals
    intro _ _ h
    cases h

/-- The fence holds and the handler calls, or it throws. -/
theorem ProviderStep.ofFence {builtAt : ℕ} {key : CommitKey} {loaded : LoadedUsage}
    (hrow : s.sys.executions[k]? = some e) (hphase : e.phase = .preparing key builtAt)
    (hread : s.loaded k = some loaded) (hchecked : loaded.checked) :
    ProviderStep s (.fence k) { s with sys := s.sys.step (.handle k .next) } := by
  simp only [Sys.step, hrow, Execution.step, Execution.next, hphase, readOnly]
  cases hfence : assertRunStageJobFence s.sys.db e.fence.runStageId e.fence with
  | ok _ => exact .fence hrow hphase hread hchecked
  | error _ => exact .other _ (.set hrow (.inl rfl) (.settled rfl))

/-- The call is recorded, or the handler throws. -/
theorem ProviderStep.ofRecord {key : CommitKey} {attempt : ProviderAttempt}
    (hrow : s.sys.executions[k]? = some e) (hphase : e.phase = .recording key attempt) :
    ProviderStep s (.record k) (s.step (.record k)) := by
  simp only [ProviderSys.step, hrow, hphase, Sys.step, Execution.step, Execution.next,
    ResearchWorkbench.attempt]
  cases hrun : perform s.sys.db
      (.recordRunStageProviderAttempt e.fence.runStageId e.fence attempt) with
  | ok db' => exact .record hrow hphase hrun
  | error _ => exact .other _ (.set hrow (.inl rfl) (.settled rfl))

/-- **Steps.**  Every action does what `ProviderStep` allows. -/
theorem ProviderSys.step_cases (s : ProviderSys δ) (a : ProviderAct δ) :
    ProviderStep s a (s.step a) := by
  cases a with
  | act a =>
    simp only [ProviderSys.step]
    split
    · exact .other _ (Sys.step_other ‹_›)
    · exact .idle _
  | load k sources documentChunks =>
    simp only [ProviderSys.step]
    split
    · rename_i bundle hphase hbundle
      obtain ⟨e, hrow, hphase⟩ := ProviderSys.phase_eq_some hphase
      have hread : loadResearchOrchestrationBundle s.sys.db e.fence.runStageId = .ok bundle := by
        simpa [ProviderSys.bundle, hrow, toOption_eq_some] using hbundle
      exact .load hrow hphase hread (Sys.load_other hrow hphase)
    · rename_i hphase _
      obtain ⟨e, hrow, hphase⟩ := ProviderSys.phase_eq_some hphase
      exact .other _ (Sys.load_other hrow hphase)
    · exact .idle _
  | check k costStatus =>
    simp only [ProviderSys.step]
    split
    · rename_i key builtAt loaded hphase hread
      split
      · exact .check hread ‹_›
      · obtain ⟨e, hrow, _⟩ := ProviderSys.phase_eq_some hphase
        exact .other _ (Sys.handle_other hrow (fun _ h => nomatch h) fun h => nomatch h)
    · exact .idle _
  | fence k =>
    simp only [ProviderSys.step]
    split
    · rename_i key builtAt loaded hphase hread
      split
      · obtain ⟨e, hrow, hphase⟩ := ProviderSys.phase_eq_some hphase
        exact .ofFence hrow hphase hread ‹_›
      · exact .idle _
    · exact .idle _
  | call k =>
    simp only [ProviderSys.step]
    split
    · rename_i key builtAt loaded hphase hread
      split
      · obtain ⟨e, hrow, hphase⟩ := ProviderSys.phase_eq_some hphase
        exact .call hrow hphase hread ‹_›
      · exact .idle _
    · exact .idle _
  | answer k attempt =>
    simp only [ProviderSys.step]
    split
    · rename_i key builtAt id call hphase hfound
      obtain ⟨e, hrow, hphase⟩ := ProviderSys.phase_eq_some hphase
      obtain ⟨hcall, hown⟩ := findRow_eq_some hfound
      simp only [Sys.step, hrow, Execution.step, hphase]
      exact @ProviderStep.answer _ _ _ _ _ _ _ call _ _ hrow hphase hcall (by simpa using hown)
    · exact .idle _
  | record k =>
    cases hrow : s.sys.executions[k]? with
    | none =>
      simp only [ProviderSys.step, hrow]
      exact .idle _
    | some e =>
      cases hphase : e.phase with
      | recording key attempt => exact .ofRecord hrow hphase
      | _ =>
        simp only [ProviderSys.step, hrow, hphase]
        exact .idle _

end

end ResearchWorkbench
