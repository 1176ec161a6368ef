import ResearchWorkbench.Store.Research

namespace ResearchWorkbench

/-!
# Domain effects of a stage

`lib/services/research-domain-effects.ts` and the domain commits of
`lib/services/research-orchestrator.ts`, which `commitRunStage` performs in its transaction.

* `StageDocument` — the parsed output of a stage; `StageBundle` — what its handler had loaded;
* `supersedeCurrentGeneratedDomainEffects` — earlier generations of a stage are superseded;
* `commitEvidence`, `commitClaims`, `commitResearchGaps`, `commitSourceConflicts`,
  `commitQaSuggestions` — what the stages insert;
* `commitResearchStageDomainEffects` — the whole domain commit.

The report draft (`commitDraftSuggestion`) is kept in tables of its own and left out.
-/

/-! ### Outputs -/

structure ExtractedEvidence where
  sourceId : ℕ
  deriving DecidableEq, Repr

structure GeneratedClaim where
  sourceIds : List ℕ
  deriving DecidableEq, Repr

structure DetectedGap where
  questionId : ℕ
  severity : String
  description : String
  nextSearches : List String
  deriving DecidableEq, Repr

structure SourceConflict where
  materiality : Severity
  sourceIds : List ℕ
  deriving DecidableEq, Repr

structure QaIssue where
  severity : Severity
  sourceIds : List ℕ
  deriving DecidableEq, Repr

/-- The parsed output of a stage: of the lists, a stage has its own.  `cited` are the sources
    cited in its texts and by its other items. -/
structure StageDocument where
  evidence : List ExtractedEvidence := []
  claims : List GeneratedClaim := []
  gaps : List DetectedGap := []
  conflicts : List SourceConflict := []
  issues : List QaIssue := []
  cited : List ℕ := []
  deriving DecidableEq, Repr

/-- `sourceIdsIn(output)`. -/
def sourceIdsIn (output : StageDocument) : List ℕ :=
  output.evidence.map (·.sourceId) ++ output.claims.flatMap (·.sourceIds) ++
    output.conflicts.flatMap (·.sourceIds) ++ output.issues.flatMap (·.sourceIds) ++ output.cited

/-- What the domain commits read of a `ResearchOrchestrationBundle`. -/
structure StageBundle where
  projectId : ℕ
  runStageId : ℕ
  stage : AIStage
  eligibleSources : List ℕ
  approvedQuestions : List ℕ
  deriving DecidableEq, Repr

/-! ### Supersession -/

/-- The other rows of the stage, in all runs of the project. -/
def priorStages {δ : Type} (db : Db δ) (projectId : ℕ) (stage : AIStage)
    (currentRunStageId : ℕ) : List ℕ :=
  idsWhere (fun id row => (db.runs[row.runId]?.any (·.projectId = projectId)) ∧
    row.stageId = stage ∧ id ≠ currentRunStageId) db.stages

/-- `supersedeCurrentGeneratedDomainEffects({ projectId, stage, currentRunStageId })`, given the
    prior rows. -/
def supersedeCurrentGeneratedDomainEffects (prior : List ℕ) (t : ResearchTables) :
    ResearchTables :=
  markGeneratedDomainEffectsNonCurrent prior t

/-- The stages whose commit supersedes. -/
def AIStage.supersedes (stage : AIStage) : Bool :=
  stage ∈ [.evidenceExtraction, .claimGeneration, .gapDetection, .conflictDetection, .qaRevision]

/-! ### Commits -/

/-- The source still belongs to the project, and its document, if it has one, is `READY`. -/
def sourceStillEligible (projectId : ℕ) (t : ResearchTables) (sourceId : ℕ) : Bool :=
  let isOf (d : DocumentRow) := d.sourceId = sourceId ∧ d.projectId = projectId
  t.sources[sourceId]?.any (·.projectId = projectId) ∧
    (t.documents.all (fun d => ¬ isOf d) ∨ t.documents.any fun d => isOf d ∧ ¬ d.deleted ∧ d.ready)

/-- `assertReferencedSourcesStillEligible(client, bundle, output)`. -/
def assertReferencedSourcesStillEligible (bundle : StageBundle) (output : StageDocument)
    (t : ResearchTables) : Except ServiceError Unit :=
  ensure (∀ sourceId ∈ sourceIdsIn output, sourceStillEligible bundle.projectId t sourceId)
    (conflict .SOURCE_ELIGIBILITY_CHANGED
      "A referenced source no longer belongs to the run project or its document is not READY.")

/-- `commitEvidence(client, bundle, output)`. -/
def commitEvidence (bundle : StageBundle) (output : StageDocument) (t : ResearchTables) :
    Except ServiceError ResearchTables :=
  output.evidence.foldlM (fun t evidence => do
    ensure (evidence.sourceId ∈ bundle.eligibleSources)
      (conflict .UNKNOWN_SOURCE_ID
        "Evidence output references a source outside the eligible project allowlist.")
    return { t with
      evidence := t.evidence ++ [{
        sourceId := evidence.sourceId
        verificationStatus := .pending
        generatedByRunStageId := some bundle.runStageId }] }) t

/-- The current evidence of a claim's sources in the project. -/
def evidenceOfSources (projectId : ℕ) (sourceIds : List ℕ) (t : ResearchTables) : List ℕ :=
  idsWhere (fun _ e => (t.sources[e.sourceId]?.any (·.projectId = projectId)) ∧ e.isCurrent ∧
    e.sourceId ∈ sourceIds) t.evidence

/-- Some of the evidence is verified. -/
def anyVerified (t : ResearchTables) (evidence : List ℕ) : Bool :=
  evidence.any fun i => t.evidence[i]?.any (·.verificationStatus = .verified)

/-- One round of the loop of `commitClaims`.  The claim is inserted as `UNSUPPORTED`, linked, and
    then `SUPPORTED` if any evidence is verified. -/
def commitClaim (bundle : StageBundle) (t : ResearchTables) (claim : GeneratedClaim) :
    ResearchTables :=
  let claimId := t.claims.length
  let evidence := evidenceOfSources bundle.projectId claim.sourceIds t
  { t with
    claims := t.claims ++ [{
      projectId := bundle.projectId
      supportStatus := if anyVerified t evidence then .supported else .unsupported
      generatedByRunStageId := some bundle.runStageId }]
    claimEvidence := t.claimEvidence ++ evidence.map (⟨claimId, ·, .supports⟩) }

/-- `commitClaims(client, bundle, output)`. -/
def commitClaims (bundle : StageBundle) (output : StageDocument) (t : ResearchTables) :
    ResearchTables :=
  output.claims.foldl (commitClaim bundle) t

/-- The line of a gap. -/
def DetectedGap.line (gap : DetectedGap) : String :=
  "[" ++ gap.severity ++ "] " ++ gap.description ++
    if gap.nextSearches = [] then ""
    else " Next searches: " ++ String.intercalate "; " gap.nextSearches

/-- The description of the gaps of a question. -/
def gapDescription (gaps : List DetectedGap) : Option String :=
  if gaps = [] then none
  else some (String.ofList ((String.intercalate "\n" (gaps.map (·.line))).toList.take 20000))

/-- The gap of the question may be replaced: nobody accepted or resolved it, and it was generated or
    there is none. -/
def ResearchQuestionRow.gapReplaceable (question : ResearchQuestionRow) : Bool :=
  question.gapStatus ∉ [.accepted, .resolved] ∧
    (question.gapGeneratedByRunStageId.isSome ∨
      question.gapStatus = .none ∧ (question.researchGap.getD "").toList.all (· = ' '))

/-- `commitResearchGaps(client, bundle, output)`. -/
def commitResearchGaps (bundle : StageBundle) (output : StageDocument) (t : ResearchTables) :
    ResearchTables :=
  bundle.approvedQuestions.foldl (fun t questionId =>
    let description := gapDescription (output.gaps.filter (·.questionId = questionId))
    { t with
      questions := updateWhere
        (fun id question => id = questionId ∧ question.projectId = bundle.projectId ∧
          question.gapReplaceable)
        (fun question => { question with
          researchGap := description
          gapStatus := if description.isSome then .open else .none
          gapGeneratedByRunStageId := description.map fun _ => bundle.runStageId })
        t.questions }) t

/-- A generated row of `qa_findings`. -/
def generatedFinding (bundle : StageBundle) (ruleCode : RuleCode) (severity : Severity) :
    QaFindingRow where
  projectId := bundle.projectId
  ruleCode := ruleCode
  severity := severity
  generatedByRunStageId := some bundle.runStageId

/-- `commitSourceConflicts(client, bundle, output)`. -/
def commitSourceConflicts (bundle : StageBundle) (output : StageDocument) (t : ResearchTables) :
    ResearchTables :=
  { t with
    qaFindings := t.qaFindings ++
      output.conflicts.map fun c => generatedFinding bundle .aiSourceConflict c.materiality }

/-- `commitQaSuggestions(client, bundle, output)`. -/
def commitQaSuggestions (bundle : StageBundle) (output : StageDocument) (t : ResearchTables) :
    ResearchTables :=
  { t with
    qaFindings := t.qaFindings ++
      output.issues.map fun issue => generatedFinding bundle .aiQaRevision issue.severity }

/-- The `switch` over the stage. -/
def commitStageOutput (bundle : StageBundle) (output : StageDocument) (t : ResearchTables) :
    Except ServiceError ResearchTables :=
  match bundle.stage with
  | .evidenceExtraction => commitEvidence bundle output t
  | .gapDetection => return commitResearchGaps bundle output t
  | .conflictDetection => return commitSourceConflicts bundle output t
  | .claimGeneration => return commitClaims bundle output t
  | .qaRevision => return commitQaSuggestions bundle output t
  | _ => return t

/-- `commitResearchStageDomainEffects(client, bundle, output)`, given the prior rows of the stage. -/
def commitDomainEffects (prior : List ℕ) (bundle : StageBundle) (output : StageDocument)
    (t : ResearchTables) : Except ServiceError ResearchTables := do
  assertReferencedSourcesStillEligible bundle output t
  commitStageOutput bundle output
    (if bundle.stage.supersedes then supersedeCurrentGeneratedDomainEffects prior t else t)

/-- `commitResearchStageDomainEffects(client, bundle, output)`. -/
def commitResearchStageDomainEffects (db : Db ResearchTables) (bundle : StageBundle) :
    StageDocument → ResearchTables → Except ServiceError ResearchTables :=
  commitDomainEffects (priorStages db bundle.projectId bundle.stage bundle.runStageId) bundle

end ResearchWorkbench
