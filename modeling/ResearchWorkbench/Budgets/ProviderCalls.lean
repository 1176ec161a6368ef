import ResearchWorkbench.Worker.ProviderCalls

namespace ResearchWorkbench

/-!
# The budget of provider calls

A run may make `maxProviderRequests` calls.  The handler checks this against the usage that it has
loaded, which counts the calls that have been recorded; a call that is under way, or that was lost
with its worker, is missed.

* `ProviderSys.Accounted` — the run counts exactly the recorded calls, along any run;
* `ProviderSys.missedCalls` — what a handler's reading does not count;
* `provider_calls_within_budget_iff` — exactly when no run makes more calls than its budget allows;
* `lost_call_exceeds_budget` — a worker dies during the only call that its run may make.
-/

variable {δ : Type}

/-! ### Counting calls -/

/-- The calls made for a run. -/
def callsOf (runId : ℕ) (calls : List ProviderCall) : ℕ := calls.countP (·.runId = runId)

/-- The calls of a run that have been recorded. -/
def recordedCallsOf (runId : ℕ) (calls : List ProviderCall) : ℕ :=
  calls.countP fun call => call.runId = runId ∧ call.recorded

theorem recordedCallsOf_le (runId : ℕ) (calls : List ProviderCall) :
    recordedCallsOf runId calls ≤ callsOf runId calls :=
  List.countP_mono_left fun _ _ h => by
    simp only [decide_eq_true_eq] at h ⊢
    exact h.1

variable {r : ℕ} {calls : List ProviderCall} {call : ProviderCall}

theorem callsOf_append (k runId : ℕ) :
    callsOf r (calls ++ [⟨k, runId, false⟩]) = callsOf r calls + if runId = r then 1 else 0 := by
  simp [callsOf, List.countP_append, List.countP_cons]

theorem recordedCallsOf_append (k runId : ℕ) :
    recordedCallsOf r (calls ++ [⟨k, runId, false⟩]) = recordedCallsOf r calls := by
  simp [recordedCallsOf, List.countP_append]

theorem callsOf_modify (i : ℕ) :
    callsOf r (calls.modify i ({ · with recorded := true })) = callsOf r calls :=
  countP_modify_same fun _ _ => rfl

/-- The record of a call counts it for its run, and for no other. -/
theorem recordedCallsOf_modify {i : ℕ} (hcall : calls[i]? = some call)
    (hnew : call.recorded = false) :
    recordedCallsOf r (calls.modify i ({ · with recorded := true })) =
      recordedCallsOf r calls + if call.runId = r then 1 else 0 := by
  split
  · exact countP_modify_of_not hcall (by simp [hnew]) (by simpa)
  · rename_i hother
    refine countP_modify_same fun call' hcall' => ?_
    obtain rfl := Option.some.inj (hcall.symm.trans hcall')
    simp [hother]

/-- No call is made for a run that is not there yet. -/
theorem recordedCallsOf_eq_zero (h : ∀ call ∈ calls, call.runId < r) :
    callsOf r calls = 0 ∧ recordedCallsOf r calls = 0 := by
  have hzero : callsOf r calls = 0 := by
    refine List.countP_eq_zero.mpr fun call hcall => ?_
    have := h call hcall
    simp only [decide_eq_true_eq]
    omega
  exact ⟨hzero, Nat.le_zero.mp (hzero ▸ recordedCallsOf_le r calls)⟩

/-! ### Accounts -/

/-- What an operation that records no call leaves of the accounts of the runs. -/
structure SameAccounts (db db' : Db δ) : Prop where
  old : ∀ (r : ℕ) (run : ResearchRunRow), db.runs[r]? = some run → ∃ run', db'.runs[r]? = some run' ∧
    run'.budget = run.budget
  runs : ∀ (r : ℕ) (run' : ResearchRunRow), db'.runs[r]? = some run' →
    (∃ run, db.runs[r]? = some run ∧ run'.budget = run.budget ∧
      run'.totalProviderRequests = run.totalProviderRequests) ∨
    db.runs.length ≤ r ∧ run'.totalProviderRequests = 0
  length : db.runs.length ≤ db'.runs.length
  stageRuns : ∀ (i : ℕ) (stage : RunStageRow), db.stages[i]? = some stage →
    ∃ stage', db'.stages[i]? = some stage' ∧ stage'.runId = stage.runId
  stages : ∀ (i : ℕ) (stage' : RunStageRow) (id : ℕ), db'.stages[i]? = some stage' →
    stage'.providerExecutionId = some id →
    ∃ stage ∈ db.stages, stage.providerExecutionId = some id

section
variable {db db' : Db δ} {op : Op δ} {i : ℕ}

theorem SameAccounts.refl (db : Db δ) : SameAccounts db db where
  old _ run h := ⟨run, h, rfl⟩
  runs _ run h := .inl ⟨run, h, rfl, rfl⟩
  length := Nat.le_refl _
  stageRuns _ stage h := ⟨stage, h, rfl⟩
  stages _ stage _ h hid := ⟨stage, List.mem_of_getElem? h, hid⟩

/-- Only the record of a call charges a run for it. -/
theorem RunStep.charges {run run' : ResearchRunRow} (h : RunStep db db' op r run run')
    (hop : op.isRecord = false) : run'.charges = run.charges := by
  cases h with
  | keep hsame _ => exact hsame.charges
  | record _ _ => cases hop
  | start _ _ =>
    unfold ResearchRunRow.startStage
    split <;> rfl
  | cancelWithJob _ _ _ _ _ hsame _ => exact hsame.charges
  | _ => rfl

theorem RunStep.providerRequests {run run' : ResearchRunRow} (h : RunStep db db' op r run run')
    (hop : op.isRecord = false) : run'.totalProviderRequests = run.totalProviderRequests :=
  congrArg RunCharges.providerRequests (h.charges hop)

/-- Only the record of a call leaves its id on a stage row. -/
theorem StageStep.providerExecutionId {stage stage' : RunStageRow}
    (h : StageStep db db' op i stage stage') (hop : op.isRecord = false) :
    stage'.providerExecutionId = stage.providerExecutionId := by
  cases h with
  | record _ => cases hop
  | _ => rfl

theorem NewStage.providerExecutionId {stage : RunStageRow} (h : NewStage db op stage) :
    stage.providerExecutionId = none := by
  cases h with
  | create input initial hmem =>
    simp only [initialStages, List.mem_map] at hmem
    obtain ⟨definition, _, rfl⟩ := hmem
    split <;> rfl
  | next _ _ _ _ => rfl
  | restart _ _ _ _ => rfl

variable [DomainStore δ]

theorem perform_sameAccounts (hrun : perform db op = .ok db') (hop : op.isRecord = false) :
    SameAccounts db db' where
  old r run hrow := by
    obtain ⟨run', hrow', hstep⟩ := (perform_runs hrun).old r run hrow
    exact ⟨run', hrow', hstep.sameRun.budget⟩
  runs r run' hrow' := by
    obtain ⟨run, hrow, hstep⟩ | ⟨hnew, hinserted⟩ := (perform_runs hrun).cases hrow'
    · exact .inl ⟨run, hrow, hstep.sameRun.budget, hstep.providerRequests hop⟩
    · refine .inr ⟨hnew, ?_⟩
      cases hinserted
      rfl
  length := (perform_runs hrun).length_le
  stageRuns i stage hrow := by
    obtain ⟨stage', hrow', hstep⟩ := (perform_stages hrun).old i stage hrow
    exact ⟨stage', hrow', hstep.sameStage.runId⟩
  stages i stage' id hrow' hid := by
    obtain ⟨stage, hrow, hstep⟩ | ⟨_, hinserted⟩ := (perform_stages hrun).cases hrow'
    · exact ⟨stage, List.mem_of_getElem? hrow, (hstep.providerExecutionId hop).symm.trans hid⟩
    · rw [hinserted.providerExecutionId] at hid
      cases hid

theorem Uncalled.sameAccounts (h : Uncalled db db') : SameAccounts db db' := by
  obtain rfl | ⟨op, hrun, hop⟩ := h
  · exact .refl _
  · exact perform_sameAccounts hrun hop

end

/-! ### The invariant -/

/-- An execution works on a stage row of the run. -/
def Sys.WorksOn (sys : Sys δ) (k runId : ℕ) : Prop :=
  ∃ e stage, sys.executions[k]? = some e ∧ sys.db.stages[e.fence.runStageId]? = some stage ∧
    stage.runId = runId

/-- What an execution has loaded is right about its run: the run had then counted the recorded
    calls, and a budget that has been checked has room for one more. -/
structure LoadedUsage.Right (loaded : LoadedUsage) (s : ProviderSys δ) (k : ℕ) : Prop where
  worksOn : s.sys.WorksOn k loaded.runId
  budget : ∃ run, s.sys.db.runs[loaded.runId]? = some run ∧ run.budget = loaded.run.budget
  counted : loaded.run.totalProviderRequests = recordedCallsOf loaded.runId loaded.calls
  made : recordedCallsOf loaded.runId loaded.calls ≤ callsOf loaded.runId s.calls
  room : loaded.checked →
    loaded.run.totalProviderRequests + 1 ≤ loaded.run.budget.maxProviderRequests

/-- The calls of an execution in a phase: none before its call, and none recorded before the
    record of its call. -/
structure PhaseRight (s : ProviderSys δ) (k : ℕ) (phase : HandlerPhase) : Prop where
  before : phase.isBeforeCall → ∀ call ∈ s.calls, call.execution ≠ k
  unrecorded : phase.isSettled = false → ∀ call ∈ s.calls, call.execution = k →
    call.recorded = false
  calling : ∀ key builtAt, phase = .calling key builtAt →
    ∃ loaded, s.loaded k = some loaded ∧ loaded.checked
  recording : ∀ key attempt, phase = .recording key attempt →
    ∃ call, s.calls[attempt.providerExecutionId]? = some call ∧ call.execution = k

/-- **Accounts.**  Every run has counted exactly its recorded calls. -/
structure ProviderSys.Accounted (s : ProviderSys δ) : Prop where
  runs : ∀ (r : ℕ) (run : ResearchRunRow), s.sys.db.runs[r]? = some run →
    run.totalProviderRequests = recordedCallsOf r s.calls
  calls : ∀ call ∈ s.calls, call.runId < s.sys.db.runs.length ∧
    s.sys.WorksOn call.execution call.runId
  stages : ∀ stage ∈ s.sys.db.stages, ∀ id, stage.providerExecutionId = some id →
    ∃ call, s.calls[id]? = some call ∧ call.recorded
  loaded : ∀ (k : ℕ) (loaded : LoadedUsage), s.loaded k = some loaded → loaded.Right s k
  phases : ∀ (k : ℕ) (e : Execution), s.sys.executions[k]? = some e → PhaseRight s k e.phase

section
variable {s s' : ProviderSys δ} {sys sys' : Sys δ} {db db' : Db δ} {k : ℕ} {e : Execution}
  {phase : HandlerPhase}

/-- Executions keep their fences. -/
def SameFences (executions executions' : List Execution) : Prop :=
  ∀ (k : ℕ) (e : Execution), executions[k]? = some e →
    ∃ e', executions'[k]? = some e' ∧ e'.fence = e.fence

theorem SameFences.refl (executions : List Execution) : SameFences executions executions :=
  fun _ e h => ⟨e, h, rfl⟩

theorem SameFences.set (hrow : sys.executions[k]? = some e) :
    SameFences sys.executions (sys.executions.set k { e with phase := phase }) := by
  intro j e₀ hj
  obtain rfl | hne := eq_or_ne k j
  · obtain rfl := Option.some.inj (hrow.symm.trans hj)
    exact ⟨{ e with phase := phase },
      List.getElem?_set_self (List.getElem?_eq_some_iff.mp hrow).1, rfl⟩
  · exact ⟨e₀, by rwa [List.getElem?_set_ne hne], rfl⟩

theorem Sys.WorksOn.mono (h : sys.WorksOn k r) (hfences : SameFences sys.executions sys'.executions)
    (hstages : ∀ (i : ℕ) (stage : RunStageRow), sys.db.stages[i]? = some stage →
      ∃ stage', sys'.db.stages[i]? = some stage' ∧ stage'.runId = stage.runId) :
    sys'.WorksOn k r := by
  obtain ⟨e, stage, hrow, hstage, hrun⟩ := h
  obtain ⟨e', hrow', hfence⟩ := hfences k e hrow
  obtain ⟨stage', hstage', hrun'⟩ := hstages _ stage hstage
  exact ⟨e', stage', hrow', by rwa [hfence], hrun'.trans hrun⟩

/-- What was loaded stays right. -/
theorem LoadedUsage.Right.mono {loaded : LoadedUsage} (h : loaded.Right s k)
    (hfences : SameFences s.sys.executions s'.sys.executions)
    (hruns : ∀ (r : ℕ) (run : ResearchRunRow), s.sys.db.runs[r]? = some run →
      ∃ run', s'.sys.db.runs[r]? = some run' ∧ run'.budget = run.budget)
    (hstages : ∀ (i : ℕ) (stage : RunStageRow), s.sys.db.stages[i]? = some stage →
      ∃ stage', s'.sys.db.stages[i]? = some stage' ∧ stage'.runId = stage.runId)
    (hcalls : callsOf loaded.runId s.calls ≤ callsOf loaded.runId s'.calls) :
    loaded.Right s' k where
  worksOn := h.worksOn.mono hfences hstages
  budget := by
    obtain ⟨run, hrow, hbudget⟩ := h.budget
    obtain ⟨run', hrow', hbudget'⟩ := hruns _ run hrow
    exact ⟨run', hrow', hbudget'.trans hbudget⟩
  counted := h.counted
  made := h.made.trans hcalls
  room := h.room

/-- A handler whose call is recorded. -/
theorem PhaseRight.ofSettled (hsettled : phase.isSettled) : PhaseRight s k phase := by
  refine ⟨fun hbefore => ?_, fun hnot => ?_, ?_, ?_⟩
  · revert hsettled hbefore
    cases phase <;> simp [HandlerPhase.isSettled, HandlerPhase.isBeforeCall]
  · rw [hsettled] at hnot
    cases hnot
  all_goals
    rintro key _ rfl
    cases hsettled

/-- Another phase without a call. -/
theorem PhaseRight.follows {phase' : HandlerPhase} (h : PhaseRight s k phase)
    (hfollows : phase.Follows phase') : PhaseRight s k phase' := by
  obtain rfl | ⟨hbefore, hbefore'⟩ | hsettled := hfollows
  · exact h
  · refine ⟨fun _ => h.before hbefore, fun _ call hcall hown => ?_, ?_, ?_⟩
    · exact absurd hown (h.before hbefore call hcall)
    all_goals
      rintro key _ rfl
      cases hbefore'
  · exact .ofSettled hsettled

/-- An execution that has just begun has made no call. -/
theorem ProviderSys.Accounted.no_calls (hI : s.Accounted) (hnone : s.sys.executions[k]? = none) :
    ∀ call ∈ s.calls, call.execution ≠ k := by
  rintro call hcall rfl
  obtain ⟨_, e, _, hrow, _⟩ := hI.calls call hcall
  cases hnone.symm.trans hrow

/-- What was loaded stays right under a step that leaves the database and the calls. -/
theorem LoadedUsage.Right.ofSame {loaded : LoadedUsage} (h : loaded.Right s k)
    (hdb : s'.sys.db = s.sys.db) (hcalls : s'.calls = s.calls)
    (hfences : SameFences s.sys.executions s'.sys.executions) : loaded.Right s' k :=
  h.mono hfences (fun _ run h => ⟨run, by rwa [hdb], rfl⟩) (fun _ stage h => ⟨stage, by rwa [hdb], rfl⟩)
    (by rw [hcalls])

/-- A step that leaves the database, the calls and the fences keeps the accounts if the phases and
    what was loaded stay right. -/
theorem ProviderSys.Accounted.ofPhases (hI : s.Accounted) (hdb : s'.sys.db = s.sys.db)
    (hcalls : s'.calls = s.calls) (hfences : SameFences s.sys.executions s'.sys.executions)
    (hloaded : ∀ (k : ℕ) (loaded : LoadedUsage), s'.loaded k = some loaded → loaded.Right s' k)
    (hphases : ∀ (k : ℕ) (e : Execution), s'.sys.executions[k]? = some e →
      PhaseRight s' k e.phase) : s'.Accounted := by
  refine ⟨?_, ?_, ?_, hloaded, hphases⟩
  · rw [hdb, hcalls]
    exact hI.runs
  · rw [hdb, hcalls]
    intro call hcall
    obtain ⟨hlt, hworks⟩ := hI.calls call hcall
    exact ⟨hlt, hworks.mono hfences fun i stage h => ⟨stage, by rwa [hdb], rfl⟩⟩
  · rw [hdb, hcalls]
    exact hI.stages

/-- A budget that has been checked has room for one more call. -/
theorem ProviderSys.Accounted.check {loaded : LoadedUsage} {costStatus : CostStatus}
    (hI : s.Accounted) (hread : s.loaded k = some loaded)
    (hallowed : loaded.preflight s.sys.db.now costStatus = []) :
    ProviderSys.Accounted
      { s with loaded := Function.update s.loaded k (some { loaded with checked := true }) } := by
  refine hI.ofPhases rfl rfl (.refl _) (fun j loaded' hloaded => ?_) fun j e hrow => ?_
  · simp only [Function.update_apply] at hloaded
    split at hloaded
    · rename_i hj
      obtain rfl := Option.some.inj hloaded
      subst hj
      obtain ⟨hworks, hbudget, hcounted, hmade, _⟩ := hI.loaded j loaded hread
      exact ⟨hworks, hbudget, hcounted, hmade,
        fun _ => checkRunBudget_providerRequests hallowed⟩
    · exact (hI.loaded j loaded' hloaded).ofSame rfl rfl (.refl _)
  · obtain ⟨h₁, h₂, h₃, h₄⟩ := hI.phases j e hrow
    refine ⟨h₁, h₂, fun key builtAt hcalling => ?_, h₄⟩
    obtain rfl | hne := eq_or_ne j k
    · exact ⟨_, Function.update_self _ _ _, rfl⟩
    · simpa only [Function.update_of_ne hne] using h₃ key builtAt hcalling

/-- A handler goes on to another phase. -/
theorem ProviderSys.Accounted.setPhase (hI : s.Accounted) (hrow : s.sys.executions[k]? = some e)
    (hphase : PhaseRight s k phase) :
    ProviderSys.Accounted
      { s with sys := ⟨s.sys.db, s.sys.executions.set k { e with phase := phase }⟩ } := by
  have hfences : SameFences s.sys.executions (s.sys.executions.set k { e with phase := phase }) :=
    .set hrow
  refine hI.ofPhases rfl rfl hfences
    (fun j loaded hloaded => (hI.loaded j loaded hloaded).ofSame rfl rfl hfences) fun j e' hrow' => ?_
  have hright : PhaseRight s j e'.phase := by
    obtain ⟨rfl, rfl⟩ | ⟨_, hrow'⟩ := getElem?_set_cases hrow'
    · exact hphase
    · exact hI.phases j e' hrow'
  exact ⟨hright.before, hright.unrecorded, hright.calling, hright.recording⟩

/-- A call is made for the run of its handler. -/
theorem ProviderSys.Accounted.makeCall {builtAt : ℕ} {key : CommitKey} {loaded : LoadedUsage}
    (hI : s.Accounted) (hrow : s.sys.executions[k]? = some e)
    (hphase : e.phase = .calling key builtAt) (hread : s.loaded k = some loaded) :
    ProviderSys.Accounted { s with calls := s.calls ++ [⟨k, loaded.runId, false⟩] } := by
  have hright := hI.loaded k loaded hread
  constructor
  · intro r run hrun
    rw [recordedCallsOf_append]
    exact hI.runs r run hrun
  · intro call hcall
    obtain hcall | hcall := List.mem_append.mp hcall
    · exact hI.calls call hcall
    · obtain rfl := List.mem_singleton.mp hcall
      obtain ⟨run, hrun, _⟩ := hright.budget
      exact ⟨(List.getElem?_eq_some_iff.mp hrun).1, hright.worksOn⟩
  · intro stage hstage id hid
    obtain ⟨call, hcall, hrecorded⟩ := hI.stages stage hstage id hid
    exact ⟨call, getElem?_append_of_some hcall, hrecorded⟩
  · intro j loaded' hloaded
    refine (hI.loaded j loaded' hloaded).mono (.refl _) (fun _ run h => ⟨run, h, rfl⟩)
      (fun _ stage h => ⟨stage, h, rfl⟩) ?_
    rw [callsOf_append]
    exact Nat.le_add_right _ _
  · intro j e' hrow'
    obtain ⟨h₁, h₂, h₃, h₄⟩ := hI.phases j e' hrow'
    refine ⟨fun hbefore call hcall => ?_, fun hnot call hcall hown => ?_, h₃, ?_⟩
    · obtain hcall | hcall := List.mem_append.mp hcall
      · exact h₁ hbefore call hcall
      · obtain rfl := List.mem_singleton.mp hcall
        rintro rfl
        obtain rfl := Option.some.inj (hrow.symm.trans hrow')
        rw [hphase] at hbefore
        cases hbefore
    · obtain hcall | hcall := List.mem_append.mp hcall
      · exact h₂ hnot call hcall hown
      · obtain rfl := List.mem_singleton.mp hcall
        rfl
    · intro key' attempt hrecording
      obtain ⟨call, hcall, hown⟩ := h₄ key' attempt hrecording
      exact ⟨call, getElem?_append_of_some hcall, hown⟩

/-- A call after one was recorded. -/
theorem mem_recorded {i : ℕ} {call' : ProviderCall}
    (h : call' ∈ calls.modify i ({ · with recorded := true })) :
    ∃ call ∈ calls, call'.execution = call.execution ∧ call'.runId = call.runId := by
  obtain ⟨j, hj⟩ := List.mem_iff_getElem?.mp h
  obtain ⟨call, hcall, ⟨_, rfl⟩ | ⟨_, rfl⟩⟩ := getElem?_modify_cases hj
  · exact ⟨call, List.mem_of_getElem? hcall, rfl, rfl⟩
  · exact ⟨_, List.mem_of_getElem? hcall, rfl, rfl⟩

/-- The calls stay when one is recorded. -/
theorem getElem?_recorded {i j : ℕ} (h : calls[j]? = some call) :
    ∃ call', (calls.modify i ({ · with recorded := true }))[j]? = some call' ∧
      call'.execution = call.execution ∧ (call.recorded → call'.recorded) := by
  rw [List.getElem?_modify, h]
  refine ⟨_, rfl, ?_⟩
  split
  · exact ⟨rfl, fun _ => rfl⟩
  · exact ⟨rfl, id⟩

/-- The record of a call leaves the other executions as they were. -/
theorem PhaseRight.recordOther {i j : ℕ} (h : PhaseRight s j phase) (hcall : s.calls[i]? = some call)
    (hother : call.execution ≠ j) (hloaded : s'.loaded = s.loaded)
    (hcalls : s'.calls = s.calls.modify i ({ · with recorded := true })) : PhaseRight s' j phase := by
  obtain ⟨h₁, h₂, h₃, h₄⟩ := h
  refine ⟨fun hbefore call' hcall' => ?_, fun hnot call' hcall' hown => ?_, by rwa [hloaded], ?_⟩
  · rw [hcalls] at hcall'
    obtain ⟨call₀, hcall₀, hexecution, _⟩ := mem_recorded hcall'
    rw [hexecution]
    exact h₁ hbefore call₀ hcall₀
  · rw [hcalls] at hcall'
    obtain ⟨n, hn⟩ := List.mem_iff_getElem?.mp hcall'
    obtain ⟨call₀, hcall₀, ⟨rfl, rfl⟩ | ⟨_, rfl⟩⟩ := getElem?_modify_cases hn
    · obtain rfl := Option.some.inj (hcall.symm.trans hcall₀)
      exact absurd hown hother
    · exact h₂ hnot _ (List.mem_of_getElem? hcall₀) hown
  · intro key attempt hrecording
    obtain ⟨call₀, hcall₀, hown⟩ := h₄ key attempt hrecording
    obtain ⟨call', hcall', hexecution, _⟩ := getElem?_recorded (i := i) hcall₀
    exact ⟨call', by rwa [hcalls], hexecution.trans hown⟩

variable [DomainStore δ]

theorem OtherStep.sameFences (h : OtherStep sys sys') :
    SameFences sys.executions sys'.executions := by
  intro k e hrow
  obtain ⟨e', hrow', hfence, _⟩ := h.old k e hrow
  exact ⟨e', hrow', hfence⟩

/-- Where an execution comes from: it has gone on, or it has just begun. -/
theorem OtherStep.cases {e' : Execution} (h : OtherStep sys sys')
    (hrow' : sys'.executions[k]? = some e') :
    (∃ e, sys.executions[k]? = some e ∧ e.phase.Follows e'.phase) ∨
      sys.executions[k]? = none ∧ e'.phase = .loading := by
  cases hrow : sys.executions[k]? with
  | none => exact .inr ⟨rfl, h.new k e' hrow' hrow⟩
  | some e =>
    obtain ⟨e'', hrow'', _, hfollows⟩ := h.old k e hrow
    obtain rfl := Option.some.inj (hrow'.symm.trans hrow'')
    exact .inl ⟨e, rfl, hfollows⟩

/-- What workers do apart from their calls keeps the accounts. -/
theorem OtherStep.accounted (h : OtherStep s.sys sys') (hI : s.Accounted) :
    ProviderSys.Accounted { s with sys := sys' } := by
  have hdb := h.db.sameAccounts
  constructor
  · intro r run' hrow'
    obtain ⟨run, hrow, _, hcount⟩ | ⟨hnew, hzero⟩ := hdb.runs r run' hrow'
    · exact hcount.trans (hI.runs r run hrow)
    · rw [hzero, (recordedCallsOf_eq_zero fun call hcall => ?_).2]
      exact Nat.lt_of_lt_of_le (hI.calls call hcall).1 hnew
  · intro call hcall
    obtain ⟨hlt, hworks⟩ := hI.calls call hcall
    exact ⟨Nat.lt_of_lt_of_le hlt hdb.length, hworks.mono h.sameFences hdb.stageRuns⟩
  · intro stage' hstage' id hid
    obtain ⟨i, hi⟩ := List.mem_iff_getElem?.mp hstage'
    obtain ⟨stage, hstage, hid⟩ := hdb.stages i stage' id hi hid
    exact hI.stages stage hstage id hid
  · intro k loaded hread
    exact (hI.loaded k loaded hread).mono h.sameFences hdb.old hdb.stageRuns (Nat.le_refl _)
  · intro k e' hrow'
    obtain ⟨e, hrow, hfollows⟩ | ⟨hnone, hphase⟩ := h.cases hrow'
    · obtain ⟨h₁, h₂, h₃, h₄⟩ := (hI.phases k e hrow).follows hfollows
      exact ⟨h₁, h₂, h₃, h₄⟩
    · have hno := hI.no_calls hnone
      rw [hphase]
      refine ⟨fun _ => hno, fun _ call hcall hown => absurd hown (hno call hcall), ?_, ?_⟩
      all_goals
        intro _ _ h
        cases h

/-- The bundle that a handler loads is right. -/
theorem ProviderSys.Accounted.load {bundle : ResearchOrchestrationBundle} {sources chunks : ℕ}
    (hI : s.Accounted) (hrow : s.sys.executions[k]? = some e) (hphase : e.phase.isBeforeCall)
    (hread : loadResearchOrchestrationBundle s.sys.db e.fence.runStageId = .ok bundle)
    (hstep : OtherStep s.sys sys') :
    ProviderSys.Accounted
      { s with
        sys := sys'
        loaded := Function.update s.loaded k (some ⟨bundle.stage.runId, bundle.run, bundle.stage,
          sources, chunks, false, s.calls⟩) } := by
  have hother := hstep.accounted hI
  have hdb := hstep.db.sameAccounts
  obtain ⟨_, hstage, hrun, _⟩ := loadResearchOrchestrationBundle_ok hread
  refine hother.ofPhases rfl rfl (.refl _) (fun j loaded hloaded => ?_) fun j e' hrow' => ?_
  · simp only [Function.update_apply] at hloaded
    split at hloaded
    · rename_i hj
      obtain rfl := Option.some.inj hloaded
      subst hj
      refine ⟨@Sys.WorksOn.mono _ _ s.sys _ _ ⟨e, _, hrow, hstage, rfl⟩ hstep.sameFences
        hdb.stageRuns, hdb.old _ _ hrun, hI.runs _ _ hrun, recordedCallsOf_le _ _, nofun⟩
    · exact (hother.loaded j loaded hloaded).ofSame rfl rfl (.refl _)
  · obtain ⟨h₁, h₂, h₃, h₄⟩ := hother.phases j e' hrow'
    refine ⟨h₁, h₂, fun key builtAt hcalling => ?_, h₄⟩
    -- the handler that has loaded is not calling yet
    have hne : j ≠ k := by
      rintro rfl
      obtain ⟨e₀, hrow₀, hfollows⟩ | ⟨hnone, _⟩ := hstep.cases hrow'
      · obtain rfl := Option.some.inj (hrow.symm.trans hrow₀)
        rw [hcalling] at hfollows
        obtain hsame | ⟨_, hbefore⟩ | hsettled := hfollows
        · rw [← hsame] at hphase
          cases hphase
        · cases hbefore
        · cases hsettled
      · cases hnone.symm.trans hrow
    simpa only [Function.update_of_ne hne] using h₃ key builtAt hcalling

/-- The record of a call counts it for its run. -/
theorem ProviderSys.Accounted.record {key : CommitKey} {attempt : ProviderAttempt} (hI : s.Accounted)
    (hrow : s.sys.executions[k]? = some e) (hphase : e.phase = .recording key attempt)
    (hrun : perform s.sys.db
      (.recordRunStageProviderAttempt e.fence.runStageId e.fence attempt) = .ok db')
    (hsettled : phase.isSettled) :
    ProviderSys.Accounted
      { s with
        sys := ⟨db', s.sys.executions.set k { e with phase := phase }⟩
        calls := s.calls.modify attempt.providerExecutionId ({ · with recorded := true }) } := by
  have hright := hI.phases k e hrow
  rw [hphase] at hright
  obtain ⟨call, hcall, hown⟩ := hright.recording key attempt rfl
  have hunrecorded := hright.unrecorded rfl call (List.mem_of_getElem? hcall) hown
  obtain ⟨_, e₀, stage, hrow₀, hstage, hruns⟩ := hI.calls call (List.mem_of_getElem? hcall)
  rw [hown] at hrow₀
  obtain rfl := Option.some.inj (hrow.symm.trans hrow₀)
  obtain ⟨run, stage₀, hfenced, _, _, hcase⟩ := recordRunStageProviderAttempt_ok hrun
  obtain rfl := Option.some.inj (hstage.symm.trans hfenced.stageRow)
  -- the id of the call is new to the stage row
  obtain ⟨hsame, _⟩ | ⟨_, rfl⟩ := hcase
  · obtain ⟨call', hcall', hrecorded⟩ :=
      hI.stages stage (List.mem_of_getElem? hstage) _ hsame
    obtain rfl := Option.some.inj (hcall.symm.trans hcall')
    rw [hunrecorded] at hrecorded
    cases hrecorded
  have hfences : SameFences s.sys.executions (s.sys.executions.set k { e with phase := phase }) :=
    .set hrow
  have hstages : ∀ (i : ℕ) (row : RunStageRow), s.sys.db.stages[i]? = some row →
      ∃ row', (s.sys.db.stages.modify e.fence.runStageId (·.recordAttempt attempt))[i]? = some row' ∧
        row'.runId = row.runId := by
    intro i row hi
    rw [List.getElem?_modify, hi]
    refine ⟨_, rfl, ?_⟩
    split <;> rfl
  constructor
  · intro r run' hrow'
    rw [recordedCallsOf_modify hcall hunrecorded]
    obtain ⟨run₀, hrun₀, ⟨rfl, rfl⟩ | ⟨hne, rfl⟩⟩ := getElem?_modify_cases hrow'
    · rw [if_pos hruns.symm, ← hI.runs _ _ hrun₀]
      rfl
    · rw [if_neg fun h => hne (hruns.trans h)]
      exact hI.runs r _ hrun₀
  · intro call' hcall'
    obtain ⟨call₀, hcall₀, hexecution, hrunId⟩ := mem_recorded hcall'
    obtain ⟨hlt, hworks⟩ := hI.calls call₀ hcall₀
    rw [hexecution, hrunId]
    exact ⟨by simpa using hlt, hworks.mono hfences hstages⟩
  · intro stage' hstage' id hid
    obtain ⟨i, hi⟩ := List.mem_iff_getElem?.mp hstage'
    obtain ⟨stage₀, hstage₀, ⟨_, rfl⟩ | ⟨_, rfl⟩⟩ := getElem?_modify_cases hi
    · obtain rfl := Option.some.inj hid
      exact ⟨_, getElem?_modify_eq hcall, rfl⟩
    · obtain ⟨call₀, hcall₀, hrecorded⟩ := hI.stages _ (List.mem_of_getElem? hstage₀) id hid
      obtain ⟨call', hcall', _, hkeep⟩ := getElem?_recorded (i := attempt.providerExecutionId) hcall₀
      exact ⟨call', hcall', hkeep hrecorded⟩
  · intro j loaded hloaded
    refine (hI.loaded j loaded hloaded).mono hfences (fun r run hr => ?_) hstages ?_
    · simp only [Db.updateRun_runs, Db.updateStage_runs]
      rw [List.getElem?_modify, hr]
      refine ⟨_, rfl, ?_⟩
      split <;> rfl
    · rw [callsOf_modify]
  · intro j e' hrow'
    obtain ⟨rfl, rfl⟩ | ⟨hne, hrow'⟩ := getElem?_set_cases hrow'
    · exact .ofSettled hsettled
    · exact (hI.phases j e' hrow').recordOther hcall (by rwa [hown]) rfl rfl

theorem ProviderAttempt.recordedPhase_isSettled (attempt : ProviderAttempt) (key : CommitKey) :
    (attempt.recordedPhase key).isSettled := by
  unfold ProviderAttempt.recordedPhase
  split
  · rfl
  · split <;> rfl

/-- **The step lemma.**  Every step keeps the accounts. -/
theorem ProviderStep.accounted {a : ProviderAct δ} (h : ProviderStep s a s') (hI : s.Accounted) :
    s'.Accounted := by
  cases h with
  | idle => exact hI
  | other _ hstep => exact hstep.accounted hI
  | load hrow hphase hread hstep => exact hI.load hrow (by rw [hphase]; rfl) hread hstep
  | check hread hallowed => exact hI.check hread hallowed
  | @fence k builtAt e key loaded hrow hphase hread hchecked =>
    obtain ⟨hbefore, _⟩ := hI.phases k e hrow
    have hno := hbefore (by rw [hphase]; rfl)
    refine hI.setPhase hrow ⟨nofun, fun _ call hcall hown => absurd hown (hno call hcall),
      fun _ _ _ => ⟨loaded, hread, hchecked⟩, ?_⟩
    intro _ _ hrecording
    cases hrecording
  | call hrow hphase hread _ => exact hI.makeCall hrow hphase hread
  | @answer k builtAt e key call attempt answer hrow hphase hmade hown =>
    obtain ⟨_, hunrecorded, _, _⟩ := hI.phases k e hrow
    refine hI.setPhase hrow ⟨nofun, fun _ => hunrecorded (by rw [hphase]; rfl), ?_, ?_⟩
    · intro _ _ hcalling
      cases hcalling
    · intro _ _ hrecording
      cases hrecording
      exact ⟨call, hmade, hown⟩
  | record hrow hphase hrun =>
    exact hI.record hrow hphase hrun (ProviderAttempt.recordedPhase_isSettled _ _)

end

/-! ### The budget -/

/-- No run has made more calls than its budget allows. -/
def ProviderSys.WithinBudget (s : ProviderSys δ) : Prop :=
  ∀ (r : ℕ) (run : ResearchRunRow), s.sys.db.runs[r]? = some run →
    callsOf r s.calls ≤ run.budget.maxProviderRequests

/-- The calls of its run that a handler's reading does not count: they were made, but not recorded
    when it loaded its bundle. -/
def LoadedUsage.missedCalls (loaded : LoadedUsage) (calls : List ProviderCall) : ℕ :=
  callsOf loaded.runId calls - recordedCallsOf loaded.runId loaded.calls

/-- The calls that its reading leaves to a run after one more. -/
def LoadedUsage.remainingCalls (loaded : LoadedUsage) : ℕ :=
  loaded.run.budget.maxProviderRequests - (loaded.run.totalProviderRequests + 1)

/-- The handler of execution `k` is about to call the provider with what it has loaded. -/
def ProviderSys.MakesCall (s : ProviderSys δ) (k : ℕ) (loaded : LoadedUsage) : Prop :=
  (∃ key builtAt, s.phase k = some (.calling key builtAt)) ∧ s.loaded k = some loaded ∧
    ∀ call ∈ s.calls, call.execution ≠ k

/-- A call is made only where the calls that the handler has missed fit into what is left after
    it. -/
def CoversMissedCalls (s : ProviderSys δ) : ProviderAct δ → Prop
  | .call k => ∀ loaded, s.MakesCall k loaded → loaded.missedCalls s.calls ≤ loaded.remainingCalls
  | _ => True

section
variable {s s' : ProviderSys δ} {k : ℕ}

theorem ProviderSys.initial_accounted (projects : List ProjectRow) (domain : δ) :
    (ProviderSys.initial projects domain).Accounted := by
  constructor
  · intro r run h
    cases h
  · intro call h
    cases h
  · intro stage h
    cases h
  · intro k loaded h
    cases h
  · intro k e h
    cases h

/-- A call stays within the budget of its run exactly if it covers the missed ones. -/
theorem ProviderSys.Accounted.withinBudget_call {loaded : LoadedUsage} (hI : s.Accounted)
    (hP : s.WithinBudget) (hcall : s.MakesCall k loaded) :
    ProviderSys.WithinBudget { s with calls := s.calls ++ [⟨k, loaded.runId, false⟩] } ↔
      loaded.missedCalls s.calls ≤ loaded.remainingCalls := by
  obtain ⟨⟨key, builtAt, hphase⟩, hread, _⟩ := hcall
  obtain ⟨e, hrow, hphase⟩ := ProviderSys.phase_eq_some hphase
  have hright := hI.loaded k loaded hread
  obtain ⟨run, hrun, hbudget⟩ := hright.budget
  have hroom : loaded.run.totalProviderRequests + 1 ≤ loaded.run.budget.maxProviderRequests := by
    obtain ⟨loaded', hread', hchecked⟩ := (hI.phases k e hrow).calling key builtAt hphase
    obtain rfl := Option.some.inj (hread.symm.trans hread')
    exact hright.room hchecked
  have hmade := hright.made
  have hcounted := hright.counted
  simp only [LoadedUsage.missedCalls, LoadedUsage.remainingCalls]
  constructor
  · intro h
    have hle := h loaded.runId run hrun
    rw [callsOf_append, if_pos rfl, hbudget] at hle
    omega
  · intro hle r run' hrow'
    rw [callsOf_append]
    split
    · rename_i heq
      subst heq
      obtain rfl := Option.some.inj (hrun.symm.trans hrow')
      rw [hbudget]
      omega
    · exact hP r run' hrow'

variable [DomainStore δ]

/-- A call is made, or nothing happens. -/
theorem ProviderSys.step_call (s : ProviderSys δ) (k : ℕ) :
    (∃ loaded, s.MakesCall k loaded ∧
      s.step (.call k) = { s with calls := s.calls ++ [⟨k, loaded.runId, false⟩] }) ∨
    s.step (.call k) = s ∧ ∀ loaded, ¬ s.MakesCall k loaded := by
  simp only [ProviderSys.step]
  split
  · rename_i key builtAt loaded hphase hread
    split
    · exact .inl ⟨loaded, ⟨⟨key, builtAt, hphase⟩, hread, ‹_›⟩, rfl⟩
    · exact .inr ⟨rfl, fun _ h => absurd h.2.2 ‹_›⟩
  · rename_i hnot
    exact .inr ⟨rfl, fun loaded h => by
      obtain ⟨⟨key, builtAt, hphase⟩, hread, _⟩ := h
      exact hnot key builtAt loaded hphase hread⟩

/-- Budgets and calls stay under the steps that call nobody. -/
theorem ProviderStep.withinBudget {a : ProviderAct δ} (h : ProviderStep s a s')
    (hcall : ∀ k, a ≠ .call k) (hI : s.Accounted) (hP : s.WithinBudget) : s'.WithinBudget := by
  have hother {sys' : Sys δ} (hstep : OtherStep s.sys sys') (r : ℕ) (run' : ResearchRunRow)
      (hrow' : sys'.db.runs[r]? = some run') :
      callsOf r s.calls ≤ run'.budget.maxProviderRequests := by
    obtain ⟨run, hrow, hbudget, _⟩ | ⟨hnew, _⟩ := hstep.db.sameAccounts.runs r run' hrow'
    · rw [hbudget]
      exact hP r run hrow
    · rw [(recordedCallsOf_eq_zero fun call hcall =>
        Nat.lt_of_lt_of_le (hI.calls call hcall).1 hnew).1]
      exact Nat.zero_le _
  cases h with
  | idle => exact hP
  | other _ hstep => exact hother hstep
  | load _ _ _ hstep => exact hother hstep
  | check _ _ => exact hP
  | fence _ _ _ _ => exact hP
  | call _ _ _ _ => exact absurd rfl (hcall _)
  | answer _ _ _ _ => exact hP
  | record _ _ hrun =>
    intro r run' hrow'
    rw [callsOf_modify]
    obtain ⟨run, hrow, hstep⟩ | ⟨_, hnew⟩ := (perform_runs hrun).cases hrow'
    · rw [hstep.sameRun.budget]
      exact hP r run hrow
    · cases hnew

/-- **The budget of provider calls.**  No run ever makes more calls of the provider than its budget
    allows, exactly if every call covers the calls that its handler's reading has missed. -/
theorem provider_calls_within_budget_iff (projects : List ProjectRow) (domain : δ)
    (acts : List (ProviderAct δ)) :
    (∀ n, ((acts.take n).foldl ProviderSys.step (.initial projects domain)).WithinBudget) ↔
      TraceOk ProviderSys.step CoversMissedCalls (.initial projects domain) acts := by
  refine forall_take_iff_traceOk (I := ProviderSys.Accounted)
    (fun s a hI => (s.step_cases a).accounted hI) (fun s a hI hP => ?_)
    (ProviderSys.initial_accounted projects domain) (fun r run h => by cases h) acts
  have hkeep (hcall : ∀ k, a ≠ .call k) : (s.step a).WithinBudget ↔ True :=
    iff_true_intro ((s.step_cases a).withinBudget hcall hI hP)
  cases a with
  | call k =>
    obtain ⟨loaded, hcall, hstep⟩ | ⟨hstep, hnot⟩ := s.step_call k
    · rw [hstep, hI.withinBudget_call hP hcall]
      refine ⟨fun hle loaded' hcall' => ?_, fun h => h loaded hcall⟩
      obtain rfl := Option.some.inj (hcall.2.1.symm.trans hcall'.2.1)
      exact hle
    · rw [hstep]
      exact iff_of_true hP fun loaded hcall => absurd hcall (hnot loaded)
  | _ => exact hkeep (by intro _ h; cases h)

end

/-! ### A call that is lost with its worker -/

/-- The first job of a run is delivered to a worker, whose handler calls the provider. -/
def callOfAttempt (k workerId : ℕ) : List (ProviderAct Unit) :=
  [.act (.operate (.claimJobs { workerId := workerId, leaseDurationMs := 1000 } [])),
    .act (.start 0 workerId none),
    .act (.handle k .next),
    .act (.handle k .next),
    .load k 0 0,
    .check k .known,
    .fence k,
    .call k]

/-- A run may make one call.  The worker dies after it, and the job is delivered again. -/
def lostCall : List (ProviderAct Unit) :=
  .act (.operate (.createResearchRun
      { projectId := 0, mode := .orchestrated, idempotencyKey := 0,
        budget := { defaultRunBudget with maxProviderRequests := 1 } })) ::
    callOfAttempt 0 0 ++
    [.act (.operate (.tick 1000)),
      .act (.operate (.recoverExpiredJob 0 none 0)),
      .act (.operate (.tick 60000))] ++
    callOfAttempt 1 1

/-- The workers after it. -/
def afterLostCall : ProviderSys Unit :=
  lostCall.foldl ProviderSys.step (.initial [approvedProject] ())

/-- The run makes two calls. -/
theorem lost_call_exceeds_budget :
    ¬ ∀ acts : List (ProviderAct Unit),
      (acts.foldl ProviderSys.step (.initial [approvedProject] ())).WithinBudget := by
  intro hall
  have hwithin : afterLostCall.WithinBudget := hall lostCall
  have hcalls : ∃ run ∈ afterLostCall.sys.db.runs[0]?,
      run.budget.maxProviderRequests < callsOf 0 afterLostCall.calls := by decide +kernel
  obtain ⟨run, hrun, hlt⟩ := hcalls
  exact Nat.not_le_of_lt hlt (hwithin 0 run hrun)

end ResearchWorkbench
