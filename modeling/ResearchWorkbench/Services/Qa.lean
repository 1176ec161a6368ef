import ResearchWorkbench.Domain.Qa
import ResearchWorkbench.Library.Patterns
import ResearchWorkbench.Services.Reports

namespace ResearchWorkbench.Qa

/-!
# The quality check of a project

`lib/services/qa.ts`: what the rules read is loaded from the database and parsed out of texts, and
what they find is stored.

* `citationIdsIn`, `numberTokens`, `unitTokens`, `dateTokens`, `sentences` — the texts;
* `SourceRow`, `EvidenceRow`, `ClaimRow`, `LinkRow`, `QuestionRow`, `QaRows` — the rows that the
  queries return, in any order;
* `QaRows.context`, `buildQaContext` — what the rules read;
* `runProjectQa`, `resolveQaFinding` — the two calls.

The review columns of projects, deliverables and exports, the audit events and the progress are left
out: nothing here reads them.
-/

open Reports

/-! ### Citations -/

/-- `/\[([^\]]+)\]/`. -/
def bracketPattern : Pattern Text := do
  let _ ← Pattern.unit (· = 91)
  let content ← Pattern.many (· ≠ 93) 1 none
  let _ ← Pattern.unit (· = 93)
  return content

/-- A citation without its prefix. -/
def withoutPrefix (value : Text) : Text :=
  if (asciiText "source:").isPrefixOf value then value.drop 7
  else if (asciiText "@").isPrefixOf value then value.drop 1
  else value

/-- `citationIdsIn(value)`. -/
def citationIdsIn (value : Text) : List Text :=
  ((bracketPattern.matchAll value).map withoutPrefix).filter (· ≠ [])

/-- `value.replace(/\[[^\]]+\]/g, "")`. -/
def withoutBrackets (value : Text) : Text := bracketPattern.removeAll value

/-- `Object.values(sections)`: the database keeps keys ordered by their lengths. -/
def storedSectionOrder : List ReportSectionKey :=
  [.appendix, .references, .keyFindings, .methodology, .researchScope, .comparisonTable,
    .recommendations, .researchPurpose, .detailedAnalysis, .executiveSummary,
    .risksAndLimitations]

/-- `uniqueCitations(sections)`. -/
def uniqueCitations (sections : StoredSections) : List Text :=
  firsts ((storedSectionOrder.filterMap sections).flatMap citationIdsIn)

/-! ### Numbers, units and dates -/

/-- `\d`. -/
def isDigitUnit (c : ℕ) : Bool := 48 ≤ c && c ≤ 57

/-- `[A-Za-z]`. -/
def isLetterUnit (c : ℕ) : Bool := (65 ≤ c && c ≤ 90) || (97 ≤ c && c ≤ 122)

/-- `/\d+(?:\.\d+)?/`. -/
def decimalPattern : Pattern Text := do
  let whole ← Pattern.many isDigitUnit 1 none
  let fraction ← Pattern.optional do
    let _ ← Pattern.unit (· = 46)
    Pattern.many isDigitUnit 1 none
  return whole ++ fraction.elim [] (46 :: ·)

/-- `/(?<![A-Za-z])\d+(?:\.\d+)?/`. -/
def numberPattern : Pattern Text := do
  let _ ← Pattern.notBehind isLetterUnit
  decimalPattern

/-- `numberTokens(value)`. -/
def numberTokens (value : Text) : List Text := numberPattern.matchAll value

/-- A code unit in `value.toLowerCase()`, as far as ASCII letters come out: those of ASCII, the
    Kelvin sign and `İ`. -/
def lowerCaseUnit (c : ℕ) : Text :=
  if c = 0x212A then [107] else if c = 0x130 then [105, 0x307] else [lowerUnit c]

/-- `normalized` in `unitTokens`. -/
def normalizedUnits (value : Text) : Text :=
  (value.flatMap lowerCaseUnit).flatMap fun c => if c = 37 then asciiText " percent " else [c]

/-- `text.includes(part)`. -/
def includes (text part : Text) : Bool := decide (part <:+: text)

/-- The units that `unitTokens` looks for. -/
def unitNames : List Text :=
  [asciiText "percent", asciiText "hour", asciiText "day", asciiText "month", asciiText "year",
    asciiText "usd", asciiText "dollar", asciiText "kg", asciiText "km"]

/-- `unitTokens(value)`. -/
def unitTokens (value : Text) : List Text := unitNames.filter (includes (normalizedUnits value))

/-- `/\b(?:19|20)\d{2}(?:-\d{2}-\d{2})?\b/`. -/
def datePattern : Pattern Text := do
  Pattern.boundary
  let century ← Pattern.alt
    (do Pattern.word false (asciiText "19"); return asciiText "19")
    (do Pattern.word false (asciiText "20"); return asciiText "20")
  let year ← Pattern.many isDigitUnit 2 (some 2)
  let monthAndDay ← Pattern.optional do
    let _ ← Pattern.unit (· = 45)
    let month ← Pattern.many isDigitUnit 2 (some 2)
    let _ ← Pattern.unit (· = 45)
    let day ← Pattern.many isDigitUnit 2 (some 2)
    return 45 :: month ++ 45 :: day
  Pattern.boundary
  return century ++ year ++ monthAndDay.getD []

/-- `dateTokens(value)`. -/
def dateTokens (value : Text) : List Text := datePattern.matchAll value

/-- `/\n+|(?<=[.!?])\s+/`. -/
def sentenceBreak : Pattern Text :=
  Pattern.alt (Pattern.many (· = 10) 1 none) do
    Pattern.behind fun c => c = 46 || c = 33 || c = 63
    Pattern.many isSpaceUnit 1 none

/-- `value.split(/\n+|(?<=[.!?])\s+/).map((text) => text.trim())`. -/
def sentences (value : Text) : List Text := (sentenceBreak.splitAll value).map trimText

/-! ### Rows -/

/-- A row of `sources`. -/
structure SourceRow where
  id : Text
  projectId : ℕ
  title : Text
  publisher : Option Text
  publishedAt : Option Text
  contentHash : Option Text
  duplicateOfSourceId : Option Text
  deriving DecidableEq, Repr

/-- A row of `evidence`. -/
structure EvidenceRow where
  id : Text
  sourceId : Text
  verificationStatus : EvidenceVerificationStatus
  supportExtent : EvidenceSupportExtent
  minimalQuote : Option Text
  summary : Text
  isCurrent : Bool
  deriving DecidableEq, Repr

/-- `"FACT" | "INFERENCE"`. -/
inductive FactOrInference
  | fact | inference
  deriving DecidableEq, Repr

/-- A row of `claims`. -/
structure ClaimRow where
  id : Text
  projectId : ℕ
  content : Text
  importance : Contracts.ClaimImportance
  includeInReport : Bool
  claimType : Contracts.ClaimType
  factOrInference : FactOrInference
  verificationPossible : Bool
  withinScope : Bool
  questionId : Option Text
  resolutionNotes : Option Text
  isCurrent : Bool
  deriving DecidableEq, Repr

/-- A row of `claim_evidence`. -/
structure LinkRow where
  claimId : Text
  evidenceId : Text
  relationship : EvidenceRelationship
  deriving DecidableEq, Repr

/-- A row of `research_questions`. -/
structure QuestionRow where
  id : Text
  projectId : ℕ
  gapStatus : ResearchGapStatus
  researchGap : Option Text
  deriving DecidableEq, Repr

/-- The columns of `research_projects` that are read. -/
structure ProjectRow where
  researchDate : Text
  sourceMaxAgeDays : ℤ
  deriving DecidableEq, Repr

/-- What the queries of `buildQaContext` return for a project. -/
structure QaRows where
  project : ProjectRow
  sources : List SourceRow
  evidence : List EvidenceRow
  claims : List ClaimRow
  links : List LinkRow
  questions : List QuestionRow
  sections : StoredSections

namespace QaRows

/-- `sourceById.get(id)`. -/
def sourceById (rows : QaRows) (id : Text) : Option SourceRow := lookup (·.id) rows.sources id

/-- `evidenceById.get(id)`. -/
def evidenceById (rows : QaRows) (id : Text) : Option EvidenceRow :=
  lookup (·.id) rows.evidence id

/-- `supportLinks.get(claimId) ?? []`. -/
def supportLinks (rows : QaRows) (claimId : Text) : List LinkRow :=
  rows.links.filter (·.claimId = claimId)

/-! ### Quantitative assertions -/

/-- The texts of an evidence that numbers are looked for in: its summary, its quote and the date of
    its source. -/
def evidenceTexts (rows : QaRows) (evidence : EvidenceRow) : List Text :=
  ([some evidence.summary, evidence.minimalQuote,
    (rows.sourceById evidence.sourceId).bind (·.publishedAt)].reduceOption).filter (· ≠ [])

/-- `sourceText`. -/
def sourceText (rows : QaRows) (supporting : List EvidenceRow) : Text :=
  List.intercalate [32] (supporting.map fun evidence =>
    List.intercalate [32] (rows.evidenceTexts evidence))

/-- The assertion of a text whose numbers, units and dates in `checked` are compared with the
    supporting evidence. -/
def assertion (rows : QaRows) (id location text checked : Text) (supporting : List EvidenceRow) :
    QaQuantitativeAssertion :=
  let sourceText := rows.sourceText supporting
  { id
    location
    text
    evidenceId := supporting.head?.map (·.id)
    valueMatchesSource := if supporting = [] then none
      else some ((numberTokens checked).all fun number => number ∈ numberTokens sourceText)
    unitMatchesSource := if supporting = [] ∨ unitTokens checked = [] then none
      else some ((unitTokens checked).all fun unit => unit ∈ unitTokens sourceText)
    dateMatchesSource := if supporting = [] ∨ dateTokens checked = [] then none
      else some ((dateTokens checked).all fun date => includes sourceText date) }

/-- The verified evidence that supports a claim. -/
def claimSupport (rows : QaRows) (claim : ClaimRow) : List EvidenceRow :=
  (((rows.supportLinks claim.id).filter (·.relationship = .supports)).filterMap fun link =>
    rows.evidenceById link.evidenceId).filter (·.verificationStatus = .verified)

/-- `claimQuantitativeAssertions`. -/
def claimAssertions (rows : QaRows) : List QaQuantitativeAssertion :=
  (rows.claims.filter fun claim =>
    claim.includeInReport && numberTokens claim.content ≠ []).map fun claim =>
    rows.assertion claim.id (asciiText "claim:" ++ claim.id) claim.content claim.content
      (rows.claimSupport claim)

/-- The claims of the report all of whose numbers are in a sentence. -/
def matchingClaims (rows : QaRows) (text : Text) : List ClaimRow :=
  rows.claims.filter fun claim =>
    claim.includeInReport && numberTokens claim.content ≠ [] &&
      (numberTokens claim.content).all fun number => number ∈ numberTokens text

/-- The verified evidence that a sentence cites, or that supports a matching claim. -/
def sentenceSupport (rows : QaRows) (text : Text) : List EvidenceRow :=
  let claimIds := (rows.matchingClaims text).map (·.id)
  let claimEvidenceIds := (rows.links.filter fun link =>
    link.claimId ∈ claimIds && link.relationship = .supports).map (·.evidenceId)
  rows.evidence.filter fun evidence =>
    evidence.verificationStatus = .verified &&
      (evidence.sourceId ∈ citationIdsIn text || evidence.id ∈ claimEvidenceIds)

end QaRows

/-- The name of a section. -/
def sectionName : ReportSectionKey → String
  | .researchPurpose => "researchPurpose"
  | .executiveSummary => "executiveSummary"
  | .researchScope => "researchScope"
  | .methodology => "methodology"
  | .keyFindings => "keyFindings"
  | .detailedAnalysis => "detailedAnalysis"
  | .comparisonTable => "comparisonTable"
  | .risksAndLimitations => "risksAndLimitations"
  | .recommendations => "recommendations"
  | .references => "references"
  | .appendix => "appendix"

/-- `reportSectionNames`. -/
def reportSectionNames : List (ReportSectionKey × String × Bool) :=
  [(.researchPurpose, "Research purpose", true), (.executiveSummary, "Executive summary", true),
    (.researchScope, "Research scope", true), (.methodology, "Methodology", true),
    (.keyFindings, "Key findings", true), (.detailedAnalysis, "Detailed analysis", true),
    (.comparisonTable, "Comparison table", false),
    (.risksAndLimitations, "Risks and limitations", true),
    (.recommendations, "Recommendations", true), (.references, "References", true),
    (.appendix, "Appendix", false)]

/-- `quantitativeReportSections`. -/
def quantitativeReportSections : List ReportSectionKey :=
  [.executiveSummary, .keyFindings, .detailedAnalysis, .comparisonTable, .risksAndLimitations,
    .recommendations]

namespace QaRows

/-- The sentences of a section that have a number outside of brackets. -/
def numericSentences (rows : QaRows) (key : ReportSectionKey) : List Text :=
  (sentences (sectionText rows.sections key)).filter fun text =>
    numberTokens (withoutBrackets text) ≠ []

/-- `reportQuantitativeAssertions`. -/
def reportAssertions (rows : QaRows) : List QaQuantitativeAssertion :=
  quantitativeReportSections.flatMap fun key =>
    (rows.numericSentences key).mapIdx fun index text =>
      rows.assertion (asciiText (sectionName key) ++ 45 :: numeralText 10 index)
        (asciiText "report:section:" ++ asciiText (sectionName key)) text (withoutBrackets text)
        (rows.sentenceSupport text)

/-! ### What the rules read -/

/-- The statement of a claim. -/
def statement (rows : QaRows) (claim : ClaimRow) : QaReportStatement where
  id := claim.id
  location := asciiText "claim:" ++ claim.id
  text := claim.content
  classification :=
    if claim.claimType = .fact ∧ claim.factOrInference = .fact then .fact
    else if claim.claimType ≠ .fact ∧ claim.factOrInference = .inference then .inference
    else .mixed
  withinScope := claim.withinScope &&
    match claim.questionId with
    | none => true
    | some questionId => questionId = [] || (rows.questions.map (·.id)).contains questionId

/-- A claim has a link of the kind to verified evidence. -/
def hasVerifiedLink (rows : QaRows) (claim : ClaimRow) (relationship : EvidenceRelationship) :
    Bool :=
  (rows.supportLinks claim.id).any fun link =>
    link.relationship = relationship &&
      (rows.evidenceById link.evidenceId).any (·.verificationStatus = .verified)

/-- `conflicts`. -/
def conflicts (rows : QaRows) : List QaSourceConflict :=
  (rows.claims.filter fun claim =>
    rows.hasVerifiedLink claim .supports && rows.hasVerifiedLink claim .refutes).map fun claim =>
    { id := asciiText "conflict-" ++ claim.id
      claimId := some claim.id
      location := asciiText "claim:" ++ claim.id
      description := "Verified sources both support and refute this claim."
      resolved := claim.resolutionNotes.any fun notes => trimText notes ≠ [] }

/-- `context`. -/
def context (rows : QaRows) : QaContext where
  researchDate := rows.project.researchDate
  sourceMaxAgeDays := rows.project.sourceMaxAgeDays
  sources := rows.sources.map fun source =>
    { id := source.id
      title := source.title
      publisher := source.publisher
      publishedAt := source.publishedAt
      contentHash := source.contentHash
      duplicateOfSourceId := source.duplicateOfSourceId }
  evidence := rows.evidence.map fun evidence =>
    { id := evidence.id
      sourceId := evidence.sourceId
      verificationStatus := evidence.verificationStatus }
  claims := rows.claims.map fun claim =>
    { id := claim.id
      content := claim.content
      importance := claim.importance
      includeInReport := claim.includeInReport
      verificationPossible := claim.verificationPossible }
  claimEvidence := rows.links.map fun link =>
    { claimId := link.claimId
      evidenceId := link.evidenceId
      relationship := link.relationship
      supportExtent := (rows.evidenceById link.evidenceId).map (·.supportExtent) }
  conflicts := rows.conflicts
  researchGaps := rows.questions.map fun question =>
    { id := question.id
      location := asciiText "question:" ++ question.id
      description := question.researchGap.getD []
      gapStatus := question.gapStatus }
  report :=
    { citationIds := uniqueCitations rows.sections
      sections := reportSectionNames.map fun (key, title, required) =>
        { id := asciiText (sectionName key)
          title
          required
          content := sectionText rows.sections key }
      statements := (rows.claims.filter (·.includeInReport)).map rows.statement
      quantitativeAssertions := rows.claimAssertions ++ rows.reportAssertions }

end QaRows

/-! ### The database -/

/-- A row of `qa_findings`; its metadata are kept apart from their `generatedBy`. -/
structure QaFindingRow where
  id : ℕ
  projectId : ℕ
  deliverableId : Option ℕ
  ruleCode : String
  severity : QaSeverity
  location : Text
  problem : String
  remediation : String
  resolutionStatus : QaResolutionStatus
  metadata : List (String × QaMetadataValue)
  generatedBy : Option String
  generatedByRunStageId : Option ℕ
  isCurrent : Bool
  deriving DecidableEq

/-- The tables; a project's id is its place. -/
structure QaDb where
  projects : List ProjectRow
  sources : List SourceRow
  evidence : List EvidenceRow
  claims : List ClaimRow
  links : List LinkRow
  questions : List QuestionRow
  reports : ReportDb
  qaFindings : List QaFindingRow
  nextFindingId : ℕ

/-- The queries of `buildQaContext`. -/
def loadRows (db : QaDb) (projectId : ℕ) (project : ProjectRow) (sections : StoredSections) :
    QaRows where
  project
  sources := db.sources.filter (·.projectId = projectId)
  evidence := db.evidence.filter fun e =>
    e.isCurrent && db.sources.any fun s => s.id = e.sourceId && s.projectId = projectId
  claims := db.claims.filter fun c => c.projectId = projectId && c.isCurrent
  links := db.links.filter fun l =>
    (db.claims.any fun c => c.id = l.claimId && c.projectId = projectId && c.isCurrent) &&
      db.evidence.any fun e => e.id = l.evidenceId && e.isCurrent
  questions := db.questions.filter (·.projectId = projectId)
  sections

/-- `buildQaContext(client, projectId)`: the rows, and the id of the deliverable. -/
def buildQaContext (db : QaDb) (projectId : ℕ) : Except ServiceError (QaRows × ℕ) := do
  let project ← require db.projects[projectId]? (notFound "Project")
  let (deliverableId, deliverable) ← require (currentDeliverable db.reports projectId)
    (conflict .NO_DELIVERABLE "Create a report before running QA.")
  return (loadRows db projectId project deliverable.sections, deliverableId)

/-! ### The calls -/

/-- A finding of the engine, as it is inserted. -/
def findingRow (projectId deliverableId id : ℕ) (finding : QaFinding) : QaFindingRow where
  id
  projectId
  deliverableId := some deliverableId
  ruleCode := finding.ruleCode.name
  severity := finding.severity
  location := finding.location
  problem := finding.problem
  remediation := finding.remediation
  resolutionStatus := .opened
  metadata := finding.metadata
  generatedBy := some "qa-engine"
  generatedByRunStageId := none
  isCurrent := true

/-- The rows that a run deletes: open findings of the engine. -/
def QaFindingRow.isReplaced (projectId : ℕ) (row : QaFindingRow) : Bool :=
  row.projectId = projectId && row.resolutionStatus = .opened && row.generatedBy = some "qa-engine"

/-- The rows that `blockers` counts. -/
def QaFindingRow.blocks (projectId : ℕ) (row : QaFindingRow) : Bool :=
  row.projectId = projectId && row.isCurrent && row.severity = .blocker &&
    row.resolutionStatus ≠ .resolved

/-- What `runProjectQa` returns. -/
structure QaResult where
  passed : Bool
  findings : List QaFinding

/-- `runProjectQa(projectId)`. -/
def runProjectQa (db : QaDb) (projectId : ℕ) : Except ServiceError (QaDb × QaResult) := do
  let (rows, deliverableId) ← buildQaContext db projectId
  let findings ← (runQaRules rows.context).mapError .error
  let kept := db.qaFindings.filter fun row => !row.isReplaced projectId
  let inserted := findings.mapIdx fun i finding =>
    findingRow projectId deliverableId (db.nextFindingId + i) finding
  let qaFindings := kept ++ inserted
  let passed := decide (qaFindings.countP (·.blocks projectId) = 0)
  return ({ db with qaFindings, nextFindingId := db.nextFindingId + findings.length },
    { passed, findings })

/-- `resolveQaFinding(projectId, findingId, resolutionStatus)`. -/
def resolveQaFinding (db : QaDb) (projectId findingId : ℕ) (resolutionStatus : QaResolutionStatus) :
    Except ServiceError QaDb := do
  let _ ← require db.projects[projectId]? (notFound "Project")
  ensure (db.qaFindings.any fun row =>
      row.id = findingId && row.projectId = projectId && row.isCurrent) (notFound "QA finding")
  return { db with
    qaFindings := db.qaFindings.map fun row =>
      if row.id = findingId ∧ row.projectId = projectId then { row with resolutionStatus } else row }

end ResearchWorkbench.Qa
