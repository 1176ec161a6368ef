import ResearchWorkbench.Budgets.ProviderCalls
import ResearchWorkbench.Pipeline.Replay

namespace ResearchWorkbench

/-!
# The usage of a run

`recordRunStageProviderAttempt` adds the usage of a provider execution to the totals of the run.  A
repeated delivery is recognised by the execution id that the stage row keeps, which is the id of the
last execution only.

* `executionsOf` — the distinct executions that were recorded for a run;
* `UsageExact` — the totals of a run are those of its executions;
* `UsageExact.record`, `UsageExact.perm` — one more execution, and any order of them;
* `run_usage_exact_iff` — the totals are exact exactly as long as a repeated delivery finds its
  execution as the last one of its stage row;
* `interleaved_delivery_counts_twice` — a delivery that is repeated after another execution.
-/

variable {δ : Type}

/-! ### Exact totals -/

/-- The sum of the known estimates. -/
def knownCost (executions : List ProviderAttempt) : Option ℚ :=
  let known := executions.filterMap (·.estimatedCostUsd)
  if known = [] then none else some known.sum

/-- The worst cost status: `UNKNOWN` over `ESTIMATED` over `KNOWN`. -/
def worstCostStatus (executions : List ProviderAttempt) : CostStatus :=
  if ∃ a ∈ executions, a.costStatus = .unknown then .unknown
  else if ∃ a ∈ executions, a.costStatus = .estimated then .estimated
  else .known

/-- The charges are those of the executions. -/
structure UsageExact (charges : RunCharges) (executions : List ProviderAttempt) : Prop where
  providerRequests : charges.providerRequests = executions.length
  inputTokens : charges.inputTokens = (executions.map (·.inputTokens)).sum
  outputTokens : charges.outputTokens = (executions.map (·.outputTokens)).sum
  estimatedCost : charges.estimatedCost = knownCost executions
  costStatus : executions ≠ [] → charges.costStatus = worstCostStatus executions

section
variable {executions executions' : List ProviderAttempt} {a : ProviderAttempt}

theorem knownCost_append :
    knownCost (executions ++ [a]) = match a.estimatedCostUsd with
      | none => knownCost executions
      | some cost => some ((knownCost executions).getD 0 + cost) := by
  unfold knownCost
  cases hcost : a.estimatedCostUsd with
  | none => simp [List.filterMap_append, hcost]
  | some cost =>
    simp only [List.filterMap_append, List.filterMap_cons, hcost, List.filterMap_nil]
    by_cases hknown : executions.filterMap (·.estimatedCostUsd) = []
    · simp [hknown]
    · simp [hknown]

theorem combinedCostStatus_eq (hne : executions ≠ []) :
    combinedCostStatus executions.length (worstCostStatus executions) a.costStatus =
      worstCostStatus (executions ++ [a]) := by
  have hlength : executions.length ≠ 0 := by simpa using hne
  simp only [combinedCostStatus, if_neg hlength, worstCostStatus, List.mem_append,
    List.mem_singleton, or_and_right, exists_or, exists_eq_left]
  by_cases hunknown : ∃ b ∈ executions, b.costStatus = .unknown
  · simp [hunknown]
  by_cases hestimated : ∃ b ∈ executions, b.costStatus = .estimated
  · simp [hunknown, hestimated]
  · simp [hunknown, hestimated]

/-- The first execution sets the cost status, and the others are combined with it. -/
theorem UsageExact.record {run : ResearchRunRow} (h : UsageExact run.charges executions)
    (a : ProviderAttempt) : UsageExact (run.recordAttempt a).charges (executions ++ [a]) where
  providerRequests := by
    rw [List.length_append]
    exact congrArg (· + 1) h.providerRequests
  inputTokens := by
    rw [List.map_append, List.sum_append, ← h.inputTokens]
    simp [ResearchRunRow.charges, ResearchRunRow.recordAttempt]
  outputTokens := by
    rw [List.map_append, List.sum_append, ← h.outputTokens]
    simp [ResearchRunRow.charges, ResearchRunRow.recordAttempt]
  estimatedCost := by
    rw [knownCost_append, ← h.estimatedCost]
    rfl
  costStatus _ := by
    have hrequests : run.totalProviderRequests = executions.length := h.providerRequests
    show combinedCostStatus run.totalProviderRequests run.costStatus a.costStatus = _
    rw [hrequests]
    by_cases hnil : executions = []
    · subst hnil
      cases hstatus : a.costStatus <;> simp [combinedCostStatus, worstCostStatus, hstatus]
    · have hcost : run.costStatus = worstCostStatus executions := h.costStatus hnil
      rw [hcost, combinedCostStatus_eq hnil]

end

/-! ### Deliveries -/

/-- A delivery that was recorded: the run of its stage, and what was delivered. -/
structure Delivery where
  runId : ℕ
  attempt : ProviderAttempt

/-- An execution has been delivered for a run. -/
def Delivered (deliveries : List Delivery) (runId providerExecutionId : ℕ) : Prop :=
  ∃ d ∈ deliveries, d.runId = runId ∧ d.attempt.providerExecutionId = providerExecutionId

/-- Of several deliveries of one execution the first counts. -/
def addExecution (executions : List ProviderAttempt) (a : ProviderAttempt) :
    List ProviderAttempt :=
  if ∃ b ∈ executions, b.providerExecutionId = a.providerExecutionId then executions
  else executions ++ [a]

/-- The distinct executions that were recorded for a run, oldest first. -/
def executionsOf (runId : ℕ) (deliveries : List Delivery) : List ProviderAttempt :=
  ((deliveries.filter (·.runId = runId)).map (·.attempt)).foldl addExecution []

section
variable {r id : ℕ} {deliveries : List Delivery} {d : Delivery}

theorem delivered_append :
    Delivered (deliveries ++ [d]) r id ↔
      Delivered deliveries r id ∨ d.runId = r ∧ d.attempt.providerExecutionId = id := by
  simp only [Delivered, List.mem_append, List.mem_singleton, or_and_right, exists_or,
    exists_eq_left]

theorem executionsOf_append :
    executionsOf r (deliveries ++ [d]) =
      if d.runId = r then addExecution (executionsOf r deliveries) d.attempt
      else executionsOf r deliveries := by
  by_cases hrun : d.runId = r
  · simp [executionsOf, List.filter_append, List.foldl_append, hrun]
  · simp [executionsOf, List.filter_append, hrun]

/-- The executions of a run are those that were delivered for it. -/
theorem delivered_iff :
    Delivered deliveries r id ↔ ∃ a ∈ executionsOf r deliveries, a.providerExecutionId = id := by
  induction deliveries using List.reverseRecOn with
  | nil => simp [Delivered, executionsOf]
  | append_singleton deliveries d ih =>
    rw [delivered_append, executionsOf_append, ih]
    by_cases hrun : d.runId = r
    · rw [if_pos hrun, addExecution]
      split
      · rename_i hknown
        refine or_iff_left_of_imp ?_
        rintro ⟨_, rfl⟩
        exact hknown
      · simp [hrun, or_and_right, exists_or]
    · simp [hrun]

end

/-! ### The machine -/

/-- The database, and the deliveries that were recorded in it, oldest first. -/
structure UsageSys (δ : Type) where
  db : Db δ
  deliveries : List Delivery

/-- What an operation delivers. -/
def Op.delivery (db : Db δ) : Op δ → Option Delivery
  | .recordRunStageProviderAttempt i _ input => db.stages[i]?.map fun stage => ⟨stage.runId, input⟩
  | _ => none

/-- Before anything runs. -/
def UsageSys.initial (projects : List ProjectRow) (domain : δ) : UsageSys δ :=
  ⟨Db.initial projects domain, []⟩

/-- The totals of every run are those of its executions. -/
def UsageSys.Exact (s : UsageSys δ) : Prop :=
  ∀ (r : ℕ) (run : ResearchRunRow), s.db.runs[r]? = some run →
    UsageExact run.charges (executionsOf r s.deliveries)

/-- A stage row keeps an execution of its run, and nothing is delivered for a run that is not
    there yet. -/
structure UsageSys.Kept (s : UsageSys δ) : Prop where
  executions : ∀ (i : ℕ) (stage : RunStageRow) (id : ℕ), s.db.stages[i]? = some stage →
    stage.providerExecutionId = some id → Delivered s.deliveries stage.runId id
  runs : ∀ d ∈ s.deliveries, d.runId < s.db.runs.length

/-- A delivery to a running stage finds its execution, if it is a repeated one, as the last one of
    the stage row. -/
def FindsLast (s : UsageSys δ) : Op δ → Prop
  | .recordRunStageProviderAttempt i fence input =>
    ∀ run stage, OpensStage s.db i fence run stage → fence.runStageId = i →
      stage.status = .running →
      Delivered s.deliveries stage.runId input.providerExecutionId →
      stage.providerExecutionId = some input.providerExecutionId
  | _ => True

/-- A delivery is admitted on the rows that it opens, for a running stage. -/
theorem recordRunStageProviderAttempt_eq_ok {db db' : Db δ} {i : ℕ} {fence : RunStageJobFence}
    {input : ProviderAttempt} :
    recordRunStageProviderAttempt db i fence input = .ok db' ↔
      ∃ run stage, OpensStage db i fence run stage ∧ fence.runStageId = i ∧
        stage.status = .running ∧
        db' = if stage.providerExecutionId = some input.providerExecutionId then db
          else (db.updateStage i (·.recordAttempt input)).updateRun stage.runId
            (·.recordAttempt input) := by
  simp only [recordRunStageProviderAttempt, bind_eq_ok, ensure_eq_ok, lockStageProjectFirst_eq_ok]
  constructor
  · rintro ⟨⟨run, stage⟩, ⟨hopens, hid⟩, _, hstatus, h⟩
    refine ⟨run, stage, hopens, by simpa using hid, hstatus, ?_⟩
    split at h
    · rw [if_pos ‹_›]
      exact (pure_eq_ok.mp h).symm
    · rw [if_neg ‹_›]
      exact (pure_eq_ok.mp h).symm
  · rintro ⟨run, stage, hopens, hid, hstatus, rfl⟩
    refine ⟨⟨run, stage⟩, ⟨hopens, .inr hid⟩, (), hstatus, ?_⟩
    dsimp only
    split <;> rfl

section
variable {s : UsageSys δ} {i : ℕ} {fence : RunStageJobFence} {input : ProviderAttempt}
  {run : ResearchRunRow} {stage : RunStageRow}

/-- No execution was delivered for a run that is not there yet. -/
theorem executionsOf_eq_nil {r : ℕ} (hs : s.Kept) (hr : s.db.runs.length ≤ r) :
    executionsOf r s.deliveries = [] := by
  rw [executionsOf, List.filter_eq_nil_iff.mpr]
  · rfl
  intro d hd
  have := hs.runs d hd
  simp only [decide_eq_true_eq]
  omega

/-- A delivery that finds its execution on the stage row. -/
theorem UsageSys.Kept.again (hs : s.Kept) (hopens : OpensStage s.db i fence run stage) :
    UsageSys.Kept ⟨s.db, s.deliveries ++ [⟨stage.runId, input⟩]⟩ where
  executions j row id hrow hid := delivered_append.mpr (.inl (hs.executions j row id hrow hid))
  runs d hd := by
    rcases List.mem_append.mp hd with hd | hd
    · exact hs.runs d hd
    · rw [List.mem_singleton.mp hd]
      exact (List.getElem?_eq_some_iff.mp hopens.runRow).1

/-- A delivery that is charged to its run. -/
theorem UsageSys.Kept.charge (hs : s.Kept) (hopens : OpensStage s.db i fence run stage) :
    UsageSys.Kept ⟨(s.db.updateStage i (·.recordAttempt input)).updateRun stage.runId
      (·.recordAttempt input), s.deliveries ++ [⟨stage.runId, input⟩]⟩ where
  executions j row' id hrow' hid := by
    rw [delivered_append]
    rcases getElem?_modify_cases hrow' with ⟨row, hrow, ⟨rfl, rfl⟩ | ⟨_, rfl⟩⟩
    · obtain rfl : stage = row := Option.some.inj (hopens.stageRow.symm.trans hrow)
      exact .inr ⟨rfl, Option.some.inj hid⟩
    · exact .inl (hs.executions j _ id hrow hid)
  runs d hd := by
    show d.runId < (s.db.runs.modify stage.runId _).length
    rw [List.length_modify]
    exact (hs.again hopens).runs d hd

/-- The totals stay exact when the execution is known, and nothing is charged. -/
theorem UsageSys.Exact.again (hexact : s.Exact)
    (hknown : Delivered s.deliveries stage.runId input.providerExecutionId) :
    UsageSys.Exact ⟨s.db, s.deliveries ++ [⟨stage.runId, input⟩]⟩ := by
  intro r row hrow
  rw [executionsOf_append]
  split
  · rename_i hown
    dsimp only at hown
    subst hown
    rw [addExecution, if_pos (delivered_iff.mp hknown)]
    exact hexact _ row hrow
  · exact hexact r row hrow

/-- A charge keeps the totals exact if and only if the execution is a new one. -/
theorem UsageSys.Exact.charge_iff (hexact : s.Exact) (hopens : OpensStage s.db i fence run stage) :
    UsageSys.Exact ⟨(s.db.updateStage i (·.recordAttempt input)).updateRun stage.runId
      (·.recordAttempt input), s.deliveries ++ [⟨stage.runId, input⟩]⟩ ↔
      ¬ Delivered s.deliveries stage.runId input.providerExecutionId := by
  have hcharged : (s.db.runs.modify stage.runId (·.recordAttempt input))[stage.runId]? =
      some (run.recordAttempt input) := getElem?_modify_eq hopens.runRow
  constructor
  · intro hnext hknown
    have hrequests := (hnext stage.runId _ hcharged).providerRequests
    rw [executionsOf_append, if_pos rfl, addExecution, if_pos (delivered_iff.mp hknown),
      ← (hexact _ run hopens.runRow).providerRequests] at hrequests
    exact absurd hrequests (Nat.succ_ne_self _)
  · intro hnew r row' hrow'
    rw [executionsOf_append]
    rcases getElem?_modify_cases hrow' with ⟨row, hrow, ⟨rfl, rfl⟩ | ⟨hother, rfl⟩⟩
    · rw [if_pos rfl, addExecution, if_neg (fun h => hnew (delivered_iff.mpr h))]
      exact (hexact _ row hrow).record input
    · rw [if_neg hother]
      exact hexact r _ hrow

end

section
variable {s : UsageSys δ} {op : Op δ}

theorem Op.isRecord_cases (op : Op δ) :
    op.isRecord = false ∨
      ∃ i fence input, op = .recordRunStageProviderAttempt i fence input := by
  cases op with
  | recordRunStageProviderAttempt i fence input => exact .inr ⟨i, fence, input, rfl⟩
  | _ => exact .inl rfl

theorem Op.delivery_eq_none (hop : op.isRecord = false) (db : Db δ) : op.delivery db = none := by
  cases op with
  | recordRunStageProviderAttempt => cases hop
  | _ => rfl

theorem findsLast_of_not_isRecord (hop : op.isRecord = false) : FindsLast s op := by
  cases op with
  | recordRunStageProviderAttempt => cases hop
  | _ => trivial

end

variable [DomainStore δ]

/-- A transaction that fails records nothing. -/
def UsageSys.step (s : UsageSys δ) (op : Op δ) : UsageSys δ :=
  match perform s.db op with
  | .ok db' => ⟨db', s.deliveries ++ (op.delivery s.db).toList⟩
  | .error _ => s

section
variable {s : UsageSys δ} {db' : Db δ} {op : Op δ}

/-- An operation that records nothing. -/
theorem UsageSys.Kept.other (hs : s.Kept) (hrun : perform s.db op = .ok db')
    (hop : op.isRecord = false) : UsageSys.Kept ⟨db', s.deliveries⟩ where
  executions i stage' id hrow' hid := by
    rcases (perform_stages hrun).cases hrow' with ⟨stage, hrow, hstep⟩ | ⟨_, hnew⟩
    · rw [hstep.sameStage.runId]
      exact hs.executions i stage id hrow ((hstep.providerExecutionId hop).symm.trans hid)
    · rw [hnew.providerExecutionId] at hid
      cases hid
  runs d hd := Nat.lt_of_lt_of_le (hs.runs d hd) (perform_runs hrun).length_le

theorem UsageSys.Exact.other (hs : s.Kept) (hexact : s.Exact) (hrun : perform s.db op = .ok db')
    (hop : op.isRecord = false) : UsageSys.Exact ⟨db', s.deliveries⟩ := by
  intro r run' hrow'
  rcases (perform_runs hrun).cases hrow' with ⟨run, hrow, hstep⟩ | ⟨hr, hnew⟩
  · rw [hstep.charges hop]
    exact hexact r run hrow
  · show UsageExact run'.charges (executionsOf r s.deliveries)
    rw [executionsOf_eq_nil hs hr]
    cases hnew
    exact ⟨rfl, rfl, rfl, rfl, fun hne => absurd rfl hne⟩

/-- An operation that fails records nothing, and another one only adds what it delivers. -/
theorem UsageSys.step_of_not_isRecord (s : UsageSys δ) (hop : op.isRecord = false) :
    s.step op = s ∨ ∃ db', perform s.db op = .ok db' ∧ s.step op = ⟨db', s.deliveries⟩ := by
  unfold UsageSys.step
  split
  · rename_i db' hrun
    rw [op.delivery_eq_none hop, Option.toList_none, List.append_nil]
    exact .inr ⟨db', hrun, rfl⟩
  · exact .inl rfl

/-- A delivery that is not admitted changes nothing, and one that is finds its execution or is
    charged to its run. -/
theorem UsageSys.step_record (s : UsageSys δ) (i : ℕ) (fence : RunStageJobFence)
    (input : ProviderAttempt) :
    let op : Op δ := .recordRunStageProviderAttempt i fence input
    s.step op = s ∧ FindsLast s op ∨
      ∃ run stage, OpensStage s.db i fence run stage ∧
        (FindsLast s op ↔ (Delivered s.deliveries stage.runId input.providerExecutionId →
          stage.providerExecutionId = some input.providerExecutionId)) ∧
        (stage.providerExecutionId = some input.providerExecutionId ∧
          s.step op = ⟨s.db, s.deliveries ++ [⟨stage.runId, input⟩]⟩ ∨
        stage.providerExecutionId ≠ some input.providerExecutionId ∧
          s.step op = ⟨(s.db.updateStage i (·.recordAttempt input)).updateRun stage.runId
            (·.recordAttempt input), s.deliveries ++ [⟨stage.runId, input⟩]⟩) := by
  intro op
  simp only [UsageSys.step]
  split
  · rename_i db' hrun
    rcases recordRunStageProviderAttempt_eq_ok.mp hrun with ⟨run, stage, hopens, hid, hstatus, rfl⟩
    refine .inr ⟨run, stage, hopens, ⟨fun h => h run stage hopens hid hstatus, ?_⟩, ?_⟩
    · intro h run' stage' hopens' _ _
      obtain rfl : stage = stage' := Option.some.inj (hopens.stageRow.symm.trans hopens'.stageRow)
      exact h
    · simp only [op, Op.delivery, hopens.stageRow, Option.map_some, Option.toList_some]
      by_cases hlast : stage.providerExecutionId = some input.providerExecutionId
      · exact .inl ⟨hlast, by rw [if_pos hlast]⟩
      · exact .inr ⟨hlast, by rw [if_neg hlast]⟩
  · rename_i hfails
    refine .inl ⟨rfl, ?_⟩
    intro run stage hopens hid hstatus _
    have hok : perform s.db op = .ok _ :=
      recordRunStageProviderAttempt_eq_ok.mpr ⟨run, stage, hopens, hid, hstatus, rfl⟩
    cases hok.symm.trans hfails

theorem UsageSys.step_kept (s : UsageSys δ) (op : Op δ) (hs : s.Kept) : (s.step op).Kept := by
  rcases op.isRecord_cases with hop | ⟨i, fence, input, rfl⟩
  · rcases s.step_of_not_isRecord hop with hstep | ⟨_, hrun, hstep⟩
    · rwa [hstep]
    · rw [hstep]
      exact hs.other hrun hop
  · rcases s.step_record i fence input with
      ⟨hstep, _⟩ | ⟨_, _, hopens, _, ⟨_, hstep⟩ | ⟨_, hstep⟩⟩
    · rwa [hstep]
    · rw [hstep]
      exact hs.again hopens
    · rw [hstep]
      exact hs.charge hopens

/-- A step from exact totals leads to exact totals if and only if the delivery finds its
    execution. -/
theorem UsageSys.step_exact_iff (s : UsageSys δ) (op : Op δ) (hs : s.Kept) (hexact : s.Exact) :
    (s.step op).Exact ↔ FindsLast s op := by
  rcases op.isRecord_cases with hop | ⟨i, fence, input, rfl⟩
  · refine iff_of_true ?_ (findsLast_of_not_isRecord hop)
    rcases s.step_of_not_isRecord hop with hstep | ⟨_, hrun, hstep⟩
    · rwa [hstep]
    · rw [hstep]
      exact hexact.other hs hrun hop
  · rcases s.step_record i fence input with
      ⟨hstep, hfinds⟩ | ⟨_, stage, hopens, hfinds, ⟨hlast, hstep⟩ | ⟨hlast, hstep⟩⟩
    · rw [hstep]
      exact iff_of_true hexact hfinds
    · rw [hstep, hfinds]
      exact iff_of_true (hexact.again (hs.executions i stage _ hopens.stageRow hlast)) fun _ => hlast
    · rw [hstep, hfinds, hexact.charge_iff hopens]
      exact ⟨fun hnew hknown => absurd hknown hnew, fun h hknown => hlast (h hknown)⟩

/-- **Usage of a run.**  Along any operations the totals of every run are those of its distinct
    executions exactly if every repeated delivery to a running stage finds its execution as the last
    one of the stage row. -/
theorem run_usage_exact_iff (projects : List ProjectRow) (domain : δ) (ops : List (Op δ)) :
    (∀ n, ((ops.take n).foldl UsageSys.step (.initial projects domain)).Exact) ↔
      TraceOk UsageSys.step FindsLast (.initial projects domain) ops := by
  refine forall_take_iff_traceOk (I := UsageSys.Kept) UsageSys.step_kept UsageSys.step_exact_iff
    ⟨?_, ?_⟩ ?_ ops
  · intro i stage id hrow
    cases hrow
  · intro d hd
    cases hd
  · intro r run hrow
    cases hrow

end

/-! ### A delivery that is repeated after another one -/

/-- On the running first stage two executions are delivered, and then the first one again. -/
def interleavedDeliveries : List (Op Unit) :=
  [.createResearchRun { projectId := 0, mode := .orchestrated, idempotencyKey := 0 },
    .claimJobs { workerId := 0, leaseDurationMs := 1000 } [],
    .startJob 0 0 none,
    .startRunStage 0 ⟨0, 0, 1, 0⟩,
    .recordRunStageProviderAttempt 0 ⟨0, 0, 1, 0⟩ { providerExecutionId := 0 },
    .recordRunStageProviderAttempt 0 ⟨0, 0, 1, 0⟩ { providerExecutionId := 1 },
    .recordRunStageProviderAttempt 0 ⟨0, 0, 1, 0⟩ { providerExecutionId := 0 }]

/-- The accounts after it. -/
def afterInterleaved : UsageSys Unit :=
  interleavedDeliveries.foldl UsageSys.step (.initial [approvedProject] ())

/-- The run is charged for three executions, and there are two. -/
theorem interleaved_delivery_counts_twice :
    ¬ ∀ ops : List (Op Unit),
      (ops.foldl UsageSys.step (.initial [approvedProject] ())).Exact := by
  intro hall
  have hexact : afterInterleaved.Exact := hall interleavedDeliveries
  have hcounts : ∃ run ∈ afterInterleaved.db.runs[0]?, run.totalProviderRequests = 3 ∧
      (executionsOf 0 afterInterleaved.deliveries).length = 2 := by
    decide +kernel
  rcases hcounts with ⟨run, hrun, hcharged, hlength⟩
  have hrequests : run.totalProviderRequests = _ := (hexact 0 run hrun).providerRequests
  omega

end ResearchWorkbench
