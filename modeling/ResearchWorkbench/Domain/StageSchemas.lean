import ResearchWorkbench.Domain.Content
import ResearchWorkbench.Domain.ResearchRuns
import ResearchWorkbench.Library.Schemas

namespace ResearchWorkbench.Contracts

/-!
# Schemas of the stages

`lib/providers/types.ts`, and the fields of `projectIntakeSchema` (`lib/validation.ts`) that the
inputs of the stages are built from.  Lengths count UTF-16 code units, as `.length` does.

* `nonBlank`, `shortText`, `longText`, `identifier`, `sourceIds` — the texts;
* `ProjectScope`, `projectIntakeSchema`, `researchQuestionText` — what the intake accepts;
* `StageOutput`, `aiStageOutputSchemas` — the outputs of the stages;
* `StageInput`, `aiStageInputSchemas`, `StageInput.sourceIds` — their inputs.

Objects are strict: a structure has no other keys.
-/

open Schema

/-! ### Texts -/

/-- `.trim()`. -/
def trimmed : Schema Text Text := fun value => .ok (trimText value)

/-- `nonBlank`. -/
def nonBlank : Schema Text Text := trimmed >=> atLeast 1

/-- `shortText`. -/
def shortText : Schema Text Text := nonBlank >=> atMost 4000

/-- `longText`. -/
def longText : Schema Text Text := atMost 200000

/-- `identifier`. -/
def identifier : Schema Text Text := nonBlank >=> atMost 200

/-- `sourceIds`. -/
def sourceIds : Schema (List Text) (List Text) :=
  array identifier >=> atMost 200 >=> refine List.Nodup (.custom "Source IDs must be unique.")

/-- `z.string().trim().min(m).max(n)`. -/
def trimmedBetween (m n : ℕ) : Schema Text Text := trimmed >=> atLeast m >=> atMost n

/-- `/^\d{4}-\d{2}-\d{2}$/`. -/
def isIsoDate (value : Text) : Bool :=
  match value with
  | [a, b, c, d, e, f, g, h, i, j] =>
    [a, b, c, d, f, g, i, j].all (fun u => 48 ≤ u && u ≤ 57) && e = 45 && h = 45
  | _ => false

/-- `z.string().regex(/^\d{4}-\d{2}-\d{2}$/)`. -/
def isoDate : Schema Text Text := refine (fun value => isIsoDate value = true) .invalidFormat

/-! ### What the intake accepts -/

/-- The fields of the intake that the stages read. -/
structure ProjectScope where
  coreQuestion : Text
  background : Text
  purpose : Text
  audience : Text
  scope : Text
  exclusions : Text
  jurisdiction : Text
  researchDate : Text
  specialRequirements : Text
  deriving DecidableEq, Repr

/-- These fields in `projectIntakeSchema`, and in `projectScopeUpdateSchema`. -/
def projectIntakeSchema : Schema ProjectScope ProjectScope := fun intake => do
  let coreQuestion ← trimmedBetween 10 2000 intake.coreQuestion
  let background ← (trimmed >=> atMost 10000) intake.background
  let purpose ← trimmedBetween 3 4000 intake.purpose
  let audience ← trimmedBetween 2 1000 intake.audience
  let scope ← trimmedBetween 3 10000 intake.scope
  let exclusions ← (trimmed >=> atMost 10000) intake.exclusions
  let jurisdiction ← (trimmed >=> atMost 500) intake.jurisdiction
  let researchDate ← isoDate intake.researchDate
  let specialRequirements ← (trimmed >=> atMost 10000) intake.specialRequirements
  return ⟨coreQuestion, background, purpose, audience, scope, exclusions, jurisdiction,
    researchDate, specialRequirements⟩

/-- `question` in `researchQuestionSchema`. -/
def researchQuestionText : Schema Text Text := trimmedBetween 5 4000

/-- `finding` in `findingInputSchema`. -/
def findingText : Schema Text Text := trimmedBetween 3 20000

/-! ### Outputs -/

/-- `"HIGH" | "MEDIUM" | "LOW"`. -/
inductive Level
  | high | medium | low
  deriving DecidableEq, Repr

/-- `"BLOCKER" | "HIGH" | "MEDIUM" | "LOW"`. -/
inductive FindingSeverity
  | blocker | high | medium | low
  deriving DecidableEq, Repr

/-- The name of a severity. -/
def FindingSeverity.name : FindingSeverity → String
  | .blocker => "BLOCKER"
  | .high => "HIGH"
  | .medium => "MEDIUM"
  | .low => "LOW"

/-- `stance`. -/
inductive Stance
  | supports | contradicts | context
  deriving DecidableEq, Repr

/-- `type` of a claim. -/
inductive ClaimType
  | fact | interpretation | inference | recommendation
  deriving DecidableEq, Repr

/-- `importance` of a claim. -/
inductive ClaimImportance
  | critical | high | medium | low
  deriving DecidableEq, Repr

/-- The output of `intake_analysis`. -/
structure IntakeAnalysis where
  refinedQuestion : Text
  ambiguousTerms : List Text
  exclusions : List Text
  freshnessRequirement : Text
  expectedSources : List Text
  completionCriteria : List Text
  risks : List Text
  deriving DecidableEq, Repr

/-- A question of `question_decomposition`. -/
structure DecomposedQuestion where
  id : Text
  question : Text
  priority : Level
  completionCriteria : List Text
  deriving DecidableEq, Repr

/-- A step of `research_plan`. -/
structure PlanStep where
  id : Text
  questionId : Text
  searchStrategy : Text
  queries : List Text
  primarySourceTypes : List Text
  secondarySourceTypes : List Text
  comparisonTargets : List Text
  expectedOutput : Text
  completionCondition : Text
  risks : List Text
  researchGap : Option Text
  deriving DecidableEq, Repr

/-- The output of `source_summary`. -/
structure SourceSummary where
  sourceId : Text
  summary : Text
  keyPoints : List Text
  limitations : List Text
  promptInjectionSuspected : Bool
  deriving DecidableEq, Repr

/-- A piece of evidence of `evidence_extraction`. -/
structure ExtractedEvidence where
  sourceId : Text
  summary : Text
  minimalQuote : Text
  location : Text
  stance : Stance
  confidence : Level
  deriving DecidableEq, Repr

/-- A claim of `claim_generation`. -/
structure GeneratedClaim where
  id : Text
  text : Text
  type : ClaimType
  importance : ClaimImportance
  sourceIds : List Text
  deriving DecidableEq, Repr

/-- A gap of `gap_detection`. -/
structure DetectedGap where
  questionId : Text
  description : Text
  severity : FindingSeverity
  nextSearches : List Text
  deriving DecidableEq, Repr

/-- A conflict of `conflict_detection`. -/
structure DetectedConflict where
  description : Text
  sourceIds : List Text
  materiality : Level
  resolutionNeeded : Bool
  deriving DecidableEq, Repr

/-- A section of `report_outline`. -/
structure OutlineSection where
  title : Text
  purpose : Text
  claimIds : List Text
  sourceIds : List Text
  deriving DecidableEq, Repr

/-- The output of `draft_generation`. -/
structure Draft where
  title : Text
  markdown : Text
  citationSourceIds : List Text
  limitations : List Text
  deriving DecidableEq, Repr

/-- An issue of `qa_revision`. -/
structure QaIssue where
  severity : FindingSeverity
  location : Text
  problem : Text
  suggestion : Text
  sourceIds : List Text
  deriving DecidableEq, Repr

/-- `AIStageOutputMap`. -/
inductive StageOutput
  | intakeAnalysis (output : IntakeAnalysis)
  | questionDecomposition (questions : List DecomposedQuestion)
  | researchPlan (steps : List PlanStep)
  | sourceSummary (output : SourceSummary)
  | evidenceExtraction (evidence : List ExtractedEvidence)
  | claimGeneration (claims : List GeneratedClaim)
  | gapDetection (gaps : List DetectedGap)
  | conflictDetection (conflicts : List DetectedConflict)
  | reportOutline (sections : List OutlineSection)
  | draftGeneration (draft : Draft)
  | qaRevision (issues : List QaIssue) (revisedText : Text)
  deriving DecidableEq, Repr

/-- `intake_analysis`. -/
def intakeAnalysisSchema : Schema IntakeAnalysis IntakeAnalysis := fun x => do
  let refinedQuestion ← nonBlank x.refinedQuestion
  let ambiguousTerms ← array nonBlank x.ambiguousTerms
  let exclusions ← array nonBlank x.exclusions
  let freshnessRequirement ← nonBlank x.freshnessRequirement
  let expectedSources ← array nonBlank x.expectedSources
  let completionCriteria ← array nonBlank x.completionCriteria
  let risks ← array nonBlank x.risks
  return ⟨refinedQuestion, ambiguousTerms, exclusions, freshnessRequirement, expectedSources,
    completionCriteria, risks⟩

/-- The length of `criteria.join(" ")`. -/
def joinedLength (criteria : List Text) : ℕ := (List.intercalate [32] criteria).length

/-- A question of `question_decomposition`. -/
def decomposedQuestionSchema : Schema DecomposedQuestion DecomposedQuestion := fun x => do
  let id ← identifier x.id
  let question ← trimmedBetween 5 4000 x.question
  let completionCriteria ← (array (trimmedBetween 3 4000) >=> atLeast 1 >=> atMost 100 >=>
    refine (fun criteria => joinedLength criteria ≤ 4000)
      (.custom "Combined completion criteria must not exceed 4000 characters.")) x.completionCriteria
  return ⟨id, question, x.priority, completionCriteria⟩

/-- A step of `research_plan`. -/
def planStepSchema : Schema PlanStep PlanStep := fun x => do
  let id ← identifier x.id
  let questionId ← identifier x.questionId
  let searchStrategy ← trimmedBetween 3 10000 x.searchStrategy
  let queries ← (array (trimmedBetween 1 500) >=> atMost 30) x.queries
  let primarySourceTypes ← (array (trimmedBetween 1 100) >=> atMost 20) x.primarySourceTypes
  let secondarySourceTypes ← (array (trimmedBetween 1 100) >=> atMost 20) x.secondarySourceTypes
  let comparisonTargets ← (array (trimmedBetween 1 500) >=> atMost 20) x.comparisonTargets
  let expectedOutput ← trimmedBetween 3 4000 x.expectedOutput
  let completionCondition ← trimmedBetween 3 4000 x.completionCondition
  let risks ← (array (trimmedBetween 1 1000) >=> atMost 30) x.risks
  let researchGap ← optional (trimmed >=> atMost 4000) x.researchGap
  return ⟨id, questionId, searchStrategy, queries, primarySourceTypes, secondarySourceTypes,
    comparisonTargets, expectedOutput, completionCondition, risks, researchGap⟩

/-- `source_summary`. -/
def sourceSummarySchema : Schema SourceSummary SourceSummary := fun x => do
  let sourceId ← nonBlank x.sourceId
  let summary ← nonBlank x.summary
  let keyPoints ← array nonBlank x.keyPoints
  let limitations ← array nonBlank x.limitations
  return ⟨sourceId, summary, keyPoints, limitations, x.promptInjectionSuspected⟩

/-- A piece of evidence of `evidence_extraction`. -/
def extractedEvidenceSchema : Schema ExtractedEvidence ExtractedEvidence := fun x => do
  let sourceId ← nonBlank x.sourceId
  let summary ← nonBlank x.summary
  let location ← nonBlank x.location
  return { x with sourceId, summary, location }

/-- A claim of `claim_generation`. -/
def generatedClaimSchema : Schema GeneratedClaim GeneratedClaim := fun x => do
  let id ← nonBlank x.id
  let text ← nonBlank x.text
  let sourceIds ← sourceIds x.sourceIds
  return { x with id, text, sourceIds }

/-- A gap of `gap_detection`. -/
def detectedGapSchema : Schema DetectedGap DetectedGap := fun x => do
  let questionId ← nonBlank x.questionId
  let description ← nonBlank x.description
  let nextSearches ← array nonBlank x.nextSearches
  return { x with questionId, description, nextSearches }

/-- A conflict of `conflict_detection`. -/
def detectedConflictSchema : Schema DetectedConflict DetectedConflict := fun x => do
  let description ← nonBlank x.description
  let sourceIds ← sourceIds x.sourceIds
  return { x with description, sourceIds }

/-- A section of `report_outline`. -/
def outlineSectionSchema : Schema OutlineSection OutlineSection := fun x => do
  let title ← nonBlank x.title
  let purpose ← nonBlank x.purpose
  let claimIds ← array nonBlank x.claimIds
  let sourceIds ← sourceIds x.sourceIds
  return ⟨title, purpose, claimIds, sourceIds⟩

/-- `draft_generation`. -/
def draftSchema : Schema Draft Draft := fun x => do
  let title ← nonBlank x.title
  let markdown ← nonBlank x.markdown
  let citationSourceIds ← sourceIds x.citationSourceIds
  let limitations ← array nonBlank x.limitations
  return ⟨title, markdown, citationSourceIds, limitations⟩

/-- An issue of `qa_revision`. -/
def qaIssueSchema : Schema QaIssue QaIssue := fun x => do
  let location ← nonBlank x.location
  let problem ← nonBlank x.problem
  let suggestion ← nonBlank x.suggestion
  let sourceIds ← sourceIds x.sourceIds
  return { x with location, problem, suggestion, sourceIds }

/-- `aiStageOutputSchemas`. -/
def aiStageOutputSchemas : AIStage → Schema StageOutput StageOutput
  | .intakeAnalysis, .intakeAnalysis x => .intakeAnalysis <$> intakeAnalysisSchema x
  | .questionDecomposition, .questionDecomposition x =>
    .questionDecomposition <$> (array decomposedQuestionSchema >=> atLeast 1 >=> atMost 100) x
  | .researchPlan, .researchPlan x =>
    .researchPlan <$> (array planStepSchema >=> atLeast 1 >=> atMost 100) x
  | .sourceSummary, .sourceSummary x => .sourceSummary <$> sourceSummarySchema x
  | .evidenceExtraction, .evidenceExtraction x =>
    .evidenceExtraction <$> array extractedEvidenceSchema x
  | .claimGeneration, .claimGeneration x => .claimGeneration <$> array generatedClaimSchema x
  | .gapDetection, .gapDetection x => .gapDetection <$> array detectedGapSchema x
  | .conflictDetection, .conflictDetection x =>
    .conflictDetection <$> array detectedConflictSchema x
  | .reportOutline, .reportOutline x => .reportOutline <$> array outlineSectionSchema x
  | .draftGeneration, .draftGeneration x => .draftGeneration <$> draftSchema x
  | .qaRevision, .qaRevision issues revisedText => do
    return .qaRevision (← array qaIssueSchema issues) revisedText
  | _, _ => .error .invalidType

/-! ### Inputs -/

/-- The input of `intake_analysis`. -/
structure IntakeInput where
  brief : Text
  audience : Option Text
  jurisdiction : Option Text
  asOfDate : Option Text
  deriving DecidableEq, Repr

/-- The input of `question_decomposition`. -/
structure DecompositionInput where
  coreQuestion : Text
  scope : Text
  completionCriteria : List Text
  deriving DecidableEq, Repr

/-- A question of an input. -/
structure StageQuestion where
  id : Text
  question : Text
  deriving DecidableEq, Repr

/-- `sourceMetadata`, whose values no schema constrains. -/
structure SourceMetadata where
  title : Text
  publisher : Option Text
  author : Option Text
  publishedAt : Option Text
  sourceType : Text
  contentHash : Option Text
  documentId : Option Text
  untrustedExternalData : Bool
  promptInjectionSuspected : Bool
  securitySignals : List Text
  deriving DecidableEq, Repr

/-- A source and its content. -/
structure SourceContent where
  sourceId : Text
  content : Text
  deriving DecidableEq, Repr

/-- A source and what it says. -/
structure SourceEvidence where
  sourceId : Text
  summary : Text
  deriving DecidableEq, Repr

/-- A claim in the input of `gap_detection`. -/
structure QuestionClaim where
  questionId : Option Text
  text : Text
  sourceIds : List Text
  deriving DecidableEq, Repr

/-- A claim in the input of `conflict_detection`. -/
structure CitedText where
  text : Text
  sourceIds : List Text
  deriving DecidableEq, Repr

/-- A finding in the input of `report_outline`, whose text is its `summary`, or a claim in that of
    `draft_generation`. -/
structure CitedStatement where
  id : Text
  text : Text
  sourceIds : List Text
  deriving DecidableEq, Repr

/-- A section in the input of `draft_generation`. -/
structure SectionPurpose where
  title : Text
  purpose : Text
  deriving DecidableEq, Repr

/-- A finding in the input of `qa_revision`. -/
structure QaFindingInput where
  severity : Text
  location : Text
  problem : Text
  deriving DecidableEq, Repr

/-- `AIStageInputMap`. -/
inductive StageInput
  | intakeAnalysis (input : IntakeInput)
  | questionDecomposition (input : DecompositionInput)
  | researchPlan (questions : List StageQuestion) (constraints : List Text)
  | sourceSummary (source : SourceContent) (sourceMetadata : Option SourceMetadata)
  | evidenceExtraction (sources : List SourceContent) (claimHint : Option Text)
  | claimGeneration (evidence : List SourceEvidence) (researchQuestion : Text)
  | gapDetection (questions : List StageQuestion) (claims : List QuestionClaim)
  | conflictDetection (claims : List CitedText) (evidence : List SourceEvidence)
  | reportOutline (findings : List CitedStatement) (claimIds : List Text)
  | draftGeneration (title : Text) (outline : List SectionPurpose) (claims : List CitedStatement)
  | qaRevision (draft : Text) (qaFindings : List QaFindingInput)
  deriving DecidableEq, Repr

/-- `intake_analysis`. -/
def intakeInputSchema : Schema IntakeInput IntakeInput := fun x => do
  let brief ← (longText >=> nonBlank) x.brief
  let audience ← optional shortText x.audience
  let jurisdiction ← optional shortText x.jurisdiction
  let asOfDate ← optional isoDate x.asOfDate
  return ⟨brief, audience, jurisdiction, asOfDate⟩

/-- `question_decomposition`. -/
def decompositionInputSchema : Schema DecompositionInput DecompositionInput := fun x => do
  let coreQuestion ← shortText x.coreQuestion
  let scope ← (longText >=> nonBlank) x.scope
  let completionCriteria ← (array shortText >=> atMost 100) x.completionCriteria
  return ⟨coreQuestion, scope, completionCriteria⟩

/-- A question of an input. -/
def stageQuestionSchema : Schema StageQuestion StageQuestion := fun x => do
  let id ← identifier x.id
  let question ← shortText x.question
  return ⟨id, question⟩

/-- A source and its content. -/
def sourceContentSchema : Schema SourceContent SourceContent := fun x => do
  let sourceId ← identifier x.sourceId
  let content ← longText x.content
  return ⟨sourceId, content⟩

/-- A source and what it says. -/
def sourceEvidenceSchema : Schema SourceEvidence SourceEvidence := fun x => do
  let sourceId ← identifier x.sourceId
  let summary ← longText x.summary
  return ⟨sourceId, summary⟩

/-- A claim in the input of `gap_detection`. -/
def questionClaimSchema : Schema QuestionClaim QuestionClaim := fun x => do
  let questionId ← optional identifier x.questionId
  let text ← longText x.text
  let sourceIds ← sourceIds x.sourceIds
  return ⟨questionId, text, sourceIds⟩

/-- A claim in the input of `conflict_detection`. -/
def citedTextSchema : Schema CitedText CitedText := fun x => do
  let text ← longText x.text
  let sourceIds ← sourceIds x.sourceIds
  return ⟨text, sourceIds⟩

/-- A finding of `report_outline`, or a claim of `draft_generation`. -/
def citedStatementSchema : Schema CitedStatement CitedStatement := fun x => do
  let id ← identifier x.id
  let text ← longText x.text
  let sourceIds ← sourceIds x.sourceIds
  return ⟨id, text, sourceIds⟩

/-- A section in the input of `draft_generation`. -/
def sectionPurposeSchema : Schema SectionPurpose SectionPurpose := fun x => do
  let title ← shortText x.title
  let purpose ← shortText x.purpose
  return ⟨title, purpose⟩

/-- A finding in the input of `qa_revision`. -/
def qaFindingInputSchema : Schema QaFindingInput QaFindingInput := fun x => do
  let severity ← shortText x.severity
  let location ← shortText x.location
  let problem ← longText x.problem
  return ⟨severity, location, problem⟩

/-- `aiStageInputSchemas`. -/
def aiStageInputSchemas : AIStage → Schema StageInput StageInput
  | .intakeAnalysis, .intakeAnalysis x => .intakeAnalysis <$> intakeInputSchema x
  | .questionDecomposition, .questionDecomposition x =>
    .questionDecomposition <$> decompositionInputSchema x
  | .researchPlan, .researchPlan questions constraints => do
    let questions ← (array stageQuestionSchema >=> atLeast 1 >=> atMost 100) questions
    let constraints ← (array shortText >=> atMost 100) constraints
    return .researchPlan questions constraints
  | .sourceSummary, .sourceSummary source sourceMetadata => do
    return .sourceSummary (← sourceContentSchema source) sourceMetadata
  | .evidenceExtraction, .evidenceExtraction sources claimHint => do
    let sources ← (array sourceContentSchema >=> atLeast 1 >=> atMost 100) sources
    let claimHint ← optional shortText claimHint
    return .evidenceExtraction sources claimHint
  | .claimGeneration, .claimGeneration evidence researchQuestion => do
    let evidence ← (array sourceEvidenceSchema >=> atMost 200) evidence
    let researchQuestion ← shortText researchQuestion
    return .claimGeneration evidence researchQuestion
  | .gapDetection, .gapDetection questions claims => do
    let questions ← (array stageQuestionSchema >=> atMost 100) questions
    let claims ← (array questionClaimSchema >=> atMost 500) claims
    return .gapDetection questions claims
  | .conflictDetection, .conflictDetection claims evidence => do
    let claims ← (array citedTextSchema >=> atMost 500) claims
    let evidence ← (array sourceEvidenceSchema >=> atMost 500) evidence
    return .conflictDetection claims evidence
  | .reportOutline, .reportOutline findings claimIds => do
    let findings ← (array citedStatementSchema >=> atMost 500) findings
    let claimIds ← (array identifier >=> atMost 500) claimIds
    return .reportOutline findings claimIds
  | .draftGeneration, .draftGeneration title outline claims => do
    let title ← shortText title
    let outline ← (array sectionPurposeSchema >=> atMost 100) outline
    let claims ← (array citedStatementSchema >=> atMost 500) claims
    return .draftGeneration title outline claims
  | .qaRevision, .qaRevision draft qaFindings => do
    let draft ← longText draft
    let qaFindings ← (array qaFindingInputSchema >=> atMost 500) qaFindings
    return .qaRevision draft qaFindings
  | _, _ => .error .invalidType

/-- The source ids in an input: the values of `sourceId` and `sourceIds`. -/
def StageInput.sourceIds : StageInput → List Text
  | .intakeAnalysis _ | .questionDecomposition _ | .researchPlan _ _ | .qaRevision _ _ => []
  | .sourceSummary source _ => [source.sourceId]
  | .evidenceExtraction sources _ => sources.map (·.sourceId)
  | .claimGeneration evidence _ => evidence.map (·.sourceId)
  | .gapDetection _ claims => claims.flatMap (·.sourceIds)
  | .conflictDetection claims evidence =>
    claims.flatMap (·.sourceIds) ++ evidence.map (·.sourceId)
  | .reportOutline findings _ => findings.flatMap (·.sourceIds)
  | .draftGeneration _ _ claims => claims.flatMap (·.sourceIds)

end ResearchWorkbench.Contracts
