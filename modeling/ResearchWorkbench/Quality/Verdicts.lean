import ResearchWorkbench.Library.Transition
import ResearchWorkbench.Services.Qa

namespace ResearchWorkbench.Qa

/-!
# Verdicts

A run of the quality rules replaces the open findings of earlier runs, keeps all others and counts
what blocks.  Over every history of edits, findings of other origins, decisions on findings and
runs, the verdict is that of the current content, of the findings of other origins and of the
risks that were accepted.

* `QaAction`, `perform`, `Allowed` — the histories;
* `runProjectQa_ok` — what one run does;
* `EngineCurrent`, `engineCurrent` — findings of the engine stay current;
* `countP_blocks_eq_zero` — what blocks after a run;
* `runProjectQa_again` — a second run;
* `qa_verdict` — the verdict, and `accepted_risk_blocks` — a risk that was accepted once.
-/

open Reports

variable {db db' start : QaDb} {projectId : ℕ} {r : QaResult} {row : QaFindingRow}

/-! ### Histories -/

/-- A finding of the engine. -/
def QaFindingRow.isEngine (row : QaFindingRow) : Bool := row.generatedBy = some "qa-engine"

/-- What happens to the tables. -/
inductive QaAction
  /-- The content is edited, in any way. -/
  | edit (content : QaDb)
  /-- A finding of another origin is inserted. -/
  | insertFinding (row : QaFindingRow)
  /-- `markGeneratedDomainEffectsNonCurrent(client, runStageIds)`. -/
  | supersede (runStageIds : List ℕ)
  | resolve (projectId findingId : ℕ) (resolutionStatus : QaResolutionStatus)
  | run (projectId : ℕ)

/-- The tables after an action; one that fails is rolled back. -/
def perform (db : QaDb) : QaAction → QaDb
  | .edit content => { content with qaFindings := db.qaFindings, nextFindingId := db.nextFindingId }
  | .insertFinding row =>
    { db with
      qaFindings := db.qaFindings ++ [{ row with id := db.nextFindingId }]
      nextFindingId := db.nextFindingId + 1 }
  | .supersede runStageIds =>
    { db with
      qaFindings := db.qaFindings.map fun row =>
        if row.generatedByRunStageId.any (· ∈ runStageIds) then { row with isCurrent := false }
        else row }
  | .resolve projectId findingId resolutionStatus =>
    match resolveQaFinding db projectId findingId resolutionStatus with
    | .ok db' => db'
    | .error _ => db
  | .run projectId =>
    match runProjectQa db projectId with
    | .ok (db', _) => db'
    | .error _ => db

/-- Only the engine inserts findings of its own, and findings are resolved or their risk is
    accepted. -/
def Allowed (_ : QaDb) : QaAction → Prop
  | .insertFinding row => row.isEngine = false
  | .resolve _ _ resolutionStatus => resolutionStatus ≠ .opened
  | _ => True

/-! ### One run -/

/-- What the engine inserts for its findings. -/
def insertedRows (projectId deliverableId nextId : ℕ) (findings : List QaFinding) :
    List QaFindingRow :=
  findings.mapIdx fun i finding => findingRow projectId deliverableId (nextId + i) finding

/-- The rows that a run keeps. -/
def keptRows (projectId : ℕ) (rows : List QaFindingRow) : List QaFindingRow :=
  rows.filter fun row => !row.isReplaced projectId

/-- **One run.**  The open findings of the engine are replaced by those of the current content, and
    the verdict counts what blocks then. -/
theorem runProjectQa_ok (h : runProjectQa db projectId = .ok (db', r)) :
    ∃ rows deliverableId, buildQaContext db projectId = .ok (rows, deliverableId) ∧
      runQaRules rows.context = .ok r.findings ∧
      db' = { db with
        qaFindings := keptRows projectId db.qaFindings ++
          insertedRows projectId deliverableId db.nextFindingId r.findings
        nextFindingId := db.nextFindingId + r.findings.length } ∧
      r.passed = decide (db'.qaFindings.countP (·.blocks projectId) = 0) := by
  simp only [runProjectQa, bind_eq_ok, pure_eq_ok, Prod.mk.injEq] at h
  rcases h with ⟨⟨rows, deliverableId⟩, hcontext, findings, hrules, rfl, rfl⟩
  refine ⟨rows, deliverableId, hcontext, ?_, rfl, rfl⟩
  cases hfindings : runQaRules rows.context with
  | error message =>
    rw [hfindings] at hrules
    cases hrules
  | ok found =>
    rw [hfindings] at hrules
    cases hrules
    rfl

/-- A run of rules that do not fail succeeds. -/
theorem runProjectQa_of_rules {rows : QaRows} {deliverableId : ℕ} {findings : List QaFinding}
    (hcontext : buildQaContext db projectId = .ok (rows, deliverableId))
    (hrules : runQaRules rows.context = .ok findings) :
    ∃ db' passed, runProjectQa db projectId = .ok (db', ⟨passed, findings⟩) := by
  unfold runProjectQa
  rw [hcontext]
  show ∃ db' passed, ((runQaRules rows.context).mapError ServiceError.error >>= _) =
    Except.ok (db', QaResult.mk passed findings)
  rw [hrules]
  exact ⟨_, _, rfl⟩

theorem mem_insertedRows {deliverableId nextId : ℕ} {findings : List QaFinding}
    (h : row ∈ insertedRows projectId deliverableId nextId findings) :
    ∃ i finding, findings[i]? = some finding ∧
      row = findingRow projectId deliverableId (nextId + i) finding := by
  rcases List.mem_mapIdx.mp h with ⟨i, hi, rfl⟩
  exact ⟨i, findings[i], List.getElem?_eq_getElem hi, rfl⟩

/-! ### Findings of the engine stay current -/

/-- Findings of the engine are current, and belong to no stage of a run. -/
def EngineCurrent (db : QaDb) : Prop :=
  ∀ row ∈ db.qaFindings, row.isEngine = true →
    row.isCurrent = true ∧ row.generatedByRunStageId = none

theorem EngineCurrent.run (h : EngineCurrent db) (hrun : runProjectQa db projectId = .ok (db', r)) :
    EngineCurrent db' := by
  rcases runProjectQa_ok hrun with ⟨rows, deliverableId, _, _, rfl, _⟩
  intro row hrow hengine
  rcases List.mem_append.mp hrow with hkept | hinserted
  · exact h row (List.mem_filter.mp hkept).1 hengine
  · rcases mem_insertedRows hinserted with ⟨i, finding, _, rfl⟩
    exact ⟨rfl, rfl⟩

theorem EngineCurrent.resolve (h : EngineCurrent db) {findingId : ℕ}
    {resolutionStatus : QaResolutionStatus}
    (hresolve : resolveQaFinding db projectId findingId resolutionStatus = .ok db') :
    EngineCurrent db' := by
  simp only [resolveQaFinding, bind_eq_ok, pure_eq_ok] at hresolve
  rcases hresolve with ⟨_, _, _, _, rfl⟩
  intro row hrow hengine
  rcases List.mem_map.mp hrow with ⟨old, hold, rfl⟩
  revert hengine
  split
  · exact h old hold
  · exact h old hold

theorem EngineCurrent.perform (h : EngineCurrent db) {action : QaAction}
    (hallowed : Allowed db action) : EngineCurrent (perform db action) := by
  cases action with
  | edit content => exact h
  | insertFinding row =>
    intro found hfound hengine
    rcases List.mem_append.mp hfound with hold | hnew
    · exact h found hold hengine
    · rw [List.mem_singleton] at hnew
      subst hnew
      have hother : row.isEngine = true := hengine
      rw [show row.isEngine = false from hallowed] at hother
      cases hother
  | supersede runStageIds =>
    intro found hfound hengine
    rcases List.mem_map.mp hfound with ⟨old, hold, rfl⟩
    revert hengine
    split
    · rename_i hstage
      intro hengine
      rw [(h old hold hengine).2] at hstage
      cases hstage
    · exact h old hold
  | resolve projectId findingId resolutionStatus =>
    simp only [Qa.perform]
    split
    · exact h.resolve ‹_›
    · exact h
  | run projectId =>
    simp only [Qa.perform]
    split
    · exact h.run ‹_›
    · exact h

/-- Findings of the engine are current in every history. -/
theorem engineCurrent (hstart : start.qaFindings = []) (h : Reach perform Allowed start db) :
    EngineCurrent db := by
  refine h.invariant ?_ fun db action hdb hallowed => hdb.perform hallowed
  intro row hrow
  rw [hstart] at hrow
  cases hrow

/-! ### What blocks after a run -/

theorem blocks_iff : row.blocks projectId = true ↔ row.projectId = projectId ∧
    row.isCurrent = true ∧ row.severity = .blocker ∧ row.resolutionStatus ≠ .resolved := by
  simp only [QaFindingRow.blocks, Bool.and_eq_true, decide_eq_true_eq, and_assoc]

theorem blocks_findingRow {deliverableId id : ℕ} {finding : QaFinding} :
    (findingRow projectId deliverableId id finding).blocks projectId = true ↔
      finding.severity = .blocker := by
  rw [blocks_iff]
  show (projectId = projectId ∧ true = true ∧ finding.severity = .blocker ∧
    QaResolutionStatus.opened ≠ .resolved) ↔ _
  simp

/-- A kept finding of the engine that blocks is one whose risk was accepted. -/
theorem acceptedRisk_of_kept (hrow : row ∈ keptRows projectId db.qaFindings)
    (hengine : row.isEngine = true) (hblocks : row.blocks projectId = true) :
    row ∈ db.qaFindings ∧ row.resolutionStatus = .acceptedRisk := by
  rcases List.mem_filter.mp hrow with ⟨hmem, hkept⟩
  rcases blocks_iff.mp hblocks with ⟨hproject, _, _, hresolved⟩
  refine ⟨hmem, ?_⟩
  simp only [QaFindingRow.isEngine, decide_eq_true_eq] at hengine
  cases hstatus : row.resolutionStatus with
  | opened => simp [QaFindingRow.isReplaced, hproject, hstatus, hengine] at hkept
  | resolved => exact absurd hstatus hresolved
  | acceptedRisk => rfl

/-- Nothing blocks after a run exactly if no rule blocks, no finding of another origin does, and no
    risk of a blocker of the engine was accepted. -/
theorem countP_blocks_eq_zero (hcurrent : EngineCurrent db) {deliverableId : ℕ}
    {findings : List QaFinding} :
    (keptRows projectId db.qaFindings ++
        insertedRows projectId deliverableId db.nextFindingId findings).countP
          (·.blocks projectId) = 0 ↔
      (∀ f ∈ findings, f.severity ≠ .blocker) ∧
        (∀ row ∈ db.qaFindings, row.isEngine = false → row.blocks projectId = false) ∧
        ∀ row ∈ db.qaFindings, row.isEngine = true → row.projectId = projectId →
          row.severity = .blocker → row.resolutionStatus ≠ .acceptedRisk := by
  rw [List.countP_eq_zero, List.forall_mem_append]
  constructor
  · rintro ⟨hkept, hinserted⟩
    refine ⟨fun f hf hblocker => ?_, fun row hrow hother => ?_,
      fun row hrow hengine hproject hblocker haccepted => ?_⟩
    · rcases List.getElem?_of_mem hf with ⟨i, hi⟩
      rcases List.getElem?_eq_some_iff.mp hi with ⟨hlt, rfl⟩
      exact hinserted _ (List.mem_mapIdx.mpr ⟨i, hlt, rfl⟩) (blocks_findingRow.mpr hblocker)
    · by_contra hblocks
      rw [Bool.not_eq_false] at hblocks
      refine hkept row (List.mem_filter.mpr ⟨hrow, ?_⟩) hblocks
      simp only [QaFindingRow.isEngine, decide_eq_false_iff_not] at hother
      simp [QaFindingRow.isReplaced, hother]
    · refine hkept row (List.mem_filter.mpr ⟨hrow, ?_⟩) (blocks_iff.mpr ⟨hproject, ?_, hblocker, ?_⟩)
      · simp [QaFindingRow.isReplaced, haccepted]
      · exact (hcurrent row hrow hengine).1
      · rw [haccepted]
        exact QaResolutionStatus.noConfusion
  · rintro ⟨hrules, hother, haccepted⟩
    refine ⟨fun row hrow hblocks => ?_, fun row hrow hblocks => ?_⟩
    · cases hengine : row.isEngine with
      | false =>
        have hnot := hother row (List.mem_filter.mp hrow).1 hengine
        rw [hblocks] at hnot
        cases hnot
      | true =>
        rcases acceptedRisk_of_kept hrow hengine hblocks with ⟨hmem, hstatus⟩
        rcases blocks_iff.mp hblocks with ⟨hproject, _, hblocker, _⟩
        exact haccepted row hmem hengine hproject hblocker hstatus
    · rcases mem_insertedRows hrow with ⟨i, finding, hfinding, rfl⟩
      exact hrules finding (List.mem_of_getElem? hfinding) (blocks_findingRow.mp hblocks)

/-! ### A second run -/

/-- The open findings of the engine, apart from their ids. -/
def openEngineFindings (projectId : ℕ) (db : QaDb) : List QaFindingRow :=
  (db.qaFindings.filter (·.isReplaced projectId)).map fun row => { row with id := 0 }

theorem isReplaced_findingRow {deliverableId id : ℕ} {finding : QaFinding} :
    (findingRow projectId deliverableId id finding).isReplaced projectId = true := by
  simp [QaFindingRow.isReplaced, findingRow]

theorem filter_insertedRows {deliverableId nextId : ℕ} {findings : List QaFinding} :
    (insertedRows projectId deliverableId nextId findings).filter (·.isReplaced projectId) =
      insertedRows projectId deliverableId nextId findings := by
  refine List.filter_eq_self.mpr fun row hrow => ?_
  rcases mem_insertedRows hrow with ⟨i, finding, _, rfl⟩
  exact isReplaced_findingRow

theorem keptRows_insertedRows {deliverableId nextId : ℕ} {findings : List QaFinding} :
    keptRows projectId (insertedRows projectId deliverableId nextId findings) = [] := by
  refine List.filter_eq_nil_iff.mpr fun row hrow => ?_
  rcases mem_insertedRows hrow with ⟨i, finding, _, rfl⟩
  rw [isReplaced_findingRow]
  exact Bool.false_ne_true

theorem filter_keptRows (rows : List QaFindingRow) :
    (keptRows projectId rows).filter (·.isReplaced projectId) = [] := by
  refine List.filter_eq_nil_iff.mpr fun row hrow hreplaced => ?_
  have hkept := (List.mem_filter.mp hrow).2
  rw [hreplaced] at hkept
  cases hkept

/-- After a run the open findings of the engine are those that it inserted. -/
theorem openEngineFindings_run {rows : List QaFindingRow} {deliverableId nextId n : ℕ}
    {findings : List QaFinding} :
    openEngineFindings projectId { db with
        qaFindings := keptRows projectId rows ++
          insertedRows projectId deliverableId nextId findings
        nextFindingId := n } =
      findings.map (findingRow projectId deliverableId 0) := by
  rw [openEngineFindings, List.filter_append, filter_keptRows, filter_insertedRows, List.nil_append]
  refine List.ext_getElem? fun i => ?_
  rw [List.getElem?_map, List.getElem?_map, insertedRows, List.getElem?_mapIdx, Option.map_map]
  rfl

/-- What is inserted blocks as the findings do, whatever its ids are. -/
theorem countP_insertedRows {deliverableId nextId : ℕ} {findings : List QaFinding} :
    (insertedRows projectId deliverableId nextId findings).countP (·.blocks projectId) =
      findings.countP (·.severity = .blocker) := by
  induction findings generalizing nextId with
  | nil => rfl
  | cons f findings ih =>
    have htail : insertedRows projectId deliverableId nextId (f :: findings) =
        findingRow projectId deliverableId nextId f ::
          insertedRows projectId deliverableId (nextId + 1) findings := by
      rw [insertedRows, List.mapIdx_cons, insertedRows]
      refine congrArg _ (List.ext_getElem? fun i => ?_)
      rw [List.getElem?_mapIdx, List.getElem?_mapIdx, show nextId + (i + 1) = nextId + 1 + i by omega]
    rw [htail, List.countP_cons, List.countP_cons, ih]
    refine congrArg _ (if_congr ?_ rfl rfl)
    rw [blocks_findingRow, decide_eq_true_eq]

/-- **A second run** of the same content gives the same verdict and the same findings. -/
theorem runProjectQa_again (h : runProjectQa db projectId = .ok (db', r)) :
    ∃ db'', runProjectQa db' projectId = .ok (db'', r) ∧
      openEngineFindings projectId db'' = openEngineFindings projectId db' := by
  rcases runProjectQa_ok h with ⟨rows, deliverableId, hcontext, hrules, rfl, hpassed⟩
  rcases @runProjectQa_of_rules { db with
        qaFindings := keptRows projectId db.qaFindings ++
          insertedRows projectId deliverableId db.nextFindingId r.findings
        nextFindingId := db.nextFindingId + r.findings.length } projectId rows deliverableId
    r.findings hcontext hrules with ⟨db'', passed, hagain⟩
  rcases runProjectQa_ok hagain with ⟨rows', deliverableId', hcontext', _, hdb, hpassed'⟩
  obtain ⟨rfl, rfl⟩ := Prod.mk.inj (Except.ok.inj (hcontext.symm.trans hcontext'))
  have hkept : keptRows projectId (keptRows projectId db.qaFindings ++
      insertedRows projectId deliverableId db.nextFindingId r.findings) =
        keptRows projectId db.qaFindings := by
    rw [keptRows, List.filter_append]
    show (keptRows projectId db.qaFindings).filter _ ++ keptRows projectId _ = _
    rw [keptRows_insertedRows, List.append_nil, keptRows, List.filter_filter]
    simp only [Bool.and_self]
  simp only [hkept] at hdb
  subst hdb
  have hverdict : passed = r.passed := by
    refine (show passed = _ from hpassed').trans (Eq.trans ?_ hpassed.symm)
    simp only [List.countP_append, countP_insertedRows]
  refine ⟨_, by rw [hagain, hverdict], ?_⟩
  rw [openEngineFindings_run, openEngineFindings_run]

/-! ### The verdict -/

/-- No rule blocks. -/
def NoRuleBlocks (findings : List QaFinding) : Prop := ∀ f ∈ findings, f.severity ≠ .blocker

/-- No current blocker of another origin is unresolved. -/
def OthersResolved (db : QaDb) (projectId : ℕ) : Prop :=
  ∀ row ∈ db.qaFindings, row.isEngine = false → row.blocks projectId = false

/-- The risk of no blocker of the engine is accepted. -/
def NoRiskAccepted (db : QaDb) (projectId : ℕ) : Prop :=
  ∀ row ∈ db.qaFindings, row.isEngine = true → row.projectId = projectId →
    row.severity = .blocker → row.resolutionStatus ≠ .acceptedRisk

/-- **The verdict.**  In every history, a run passes exactly if no rule blocks on the current
    content, no current blocker of another origin is unresolved and the risk of no blocker of the
    engine is accepted; a second run says the same; and of the engine's findings of earlier runs only
    those whose risk was accepted block when no rule does. -/
theorem qa_verdict (hstart : start.qaFindings = []) (hreach : Reach perform Allowed start db)
    (h : runProjectQa db projectId = .ok (db', r)) :
    (∃ rows deliverableId, buildQaContext db projectId = .ok (rows, deliverableId) ∧
      runQaRules rows.context = .ok r.findings) ∧
    (r.passed = true ↔
      NoRuleBlocks r.findings ∧ OthersResolved db projectId ∧ NoRiskAccepted db projectId) ∧
    (∃ db'', runProjectQa db' projectId = .ok (db'', r) ∧
      openEngineFindings projectId db'' = openEngineFindings projectId db') ∧
    (NoRuleBlocks r.findings → ∀ row ∈ db'.qaFindings, row.isEngine = true →
      row.blocks projectId = true → row ∈ db.qaFindings ∧ row.resolutionStatus = .acceptedRisk) := by
  have hcurrent := engineCurrent hstart hreach
  have hagain := runProjectQa_again h
  rcases runProjectQa_ok h with ⟨rows, deliverableId, hcontext, hrules, rfl, hpassed⟩
  refine ⟨⟨rows, deliverableId, hcontext, hrules⟩, ?_, hagain, fun hnone row hrow hengine hblocks => ?_⟩
  · rw [hpassed, decide_eq_true_eq]
    exact countP_blocks_eq_zero hcurrent
  · rcases List.mem_append.mp hrow with hkept | hinserted
    · exact acceptedRisk_of_kept hkept hengine hblocks
    · rcases mem_insertedRows hinserted with ⟨i, finding, hfinding, rfl⟩
      exact absurd (blocks_findingRow.mp hblocks) (hnone finding (List.mem_of_getElem? hfinding))

/-! ### A risk that was accepted -/

/-- A report all of whose sections have a text, the methodology apart. -/
def exampleSections (methodology : Text) : StoredSections
  | .methodology => some methodology
  | _ => some (asciiText "Text.")

/-- A project with this report. -/
def exampleContent (methodology : Text) : QaDb where
  projects := [⟨asciiText "2026-01-01", 365⟩]
  sources := []
  evidence := []
  claims := []
  links := []
  questions := []
  reports :=
    { now := 0
      projects := 1
      deliverables := [⟨0, 1, asciiText "Report", exampleSections methodology, none⟩]
      revisions := [] }
  qaFindings := []
  nextFindingId := 0

/-- The methodology is missing, the risk is accepted, and then the methodology is written. -/
def acceptedHistory : QaDb :=
  perform (perform (perform (exampleContent []) (.run 0)) (.resolve 0 0 .acceptedRisk))
    (.edit (exampleContent (asciiText "Desk research.")))

theorem acceptedHistory_reach : Reach perform Allowed (exampleContent []) acceptedHistory :=
  ((Relation.ReflTransGen.refl.tail ⟨.run 0, trivial, rfl⟩).tail
    ⟨.resolve 0 0 .acceptedRisk, QaResolutionStatus.noConfusion, rfl⟩).tail ⟨.edit _, trivial, rfl⟩

/-- **A risk that was accepted once blocks a report that was corrected since.** -/
theorem accepted_risk_blocks : ¬∀ (start db db' : QaDb) (projectId : ℕ) (r : QaResult),
    start.qaFindings = [] → Reach perform Allowed start db →
      runProjectQa db projectId = .ok (db', r) →
        (r.passed = true ↔ NoRuleBlocks r.findings ∧ OthersResolved db projectId) := by
  intro hall
  have hrun : ∃ result ∈ (runProjectQa acceptedHistory 0).toOption, result.2.passed = false ∧
      result.2.findings = [] ∧ acceptedHistory.qaFindings.all (·.isEngine) = true := by
    decide +kernel
  rcases hrun with ⟨⟨db', r⟩, hrun, hpassed, hfindings, hengine⟩
  have hiff := hall _ _ db' 0 r rfl acceptedHistory_reach (toOption_eq_some.mp hrun)
  have hpass : r.passed = true := by
    refine hiff.mpr ⟨?_, fun row hrow hother => ?_⟩
    · rw [NoRuleBlocks, show r.findings = [] from hfindings]
      exact fun f hf => absurd hf List.not_mem_nil
    · rw [List.all_eq_true.mp hengine row hrow] at hother
      cases hother
  rw [show r.passed = false from hpassed] at hpass
  cases hpass

/-- The first run of that history says what is missing. -/
theorem first_verdict : ∃ result ∈ (runProjectQa (exampleContent []) 0).toOption,
    result.2.passed = false ∧ ∃ f ∈ result.2.findings, f.ruleCode = .emptyRequiredSection ∧
      (result.2.passed = true ↔ NoRuleBlocks result.2.findings ∧
        OthersResolved (exampleContent []) 0 ∧ NoRiskAccepted (exampleContent []) 0) := by
  have hrun : ∃ result ∈ (runProjectQa (exampleContent []) 0).toOption,
      result.2.passed = false ∧ ∃ f ∈ result.2.findings, f.ruleCode = .emptyRequiredSection := by
    decide +kernel
  rcases hrun with ⟨⟨db', r⟩, hrun, hpassed, f, hf, hrule⟩
  have hverdict := qa_verdict rfl Relation.ReflTransGen.refl (toOption_eq_some.mp hrun)
  exact ⟨(db', r), hrun, hpassed, f, hf, hrule, hverdict.2.1⟩

end ResearchWorkbench.Qa
