import ResearchWorkbench.Domain.Research
import ResearchWorkbench.Domain.StageSchemas
import ResearchWorkbench.Library.Keyed
import ResearchWorkbench.Library.Numerals

namespace ResearchWorkbench.Qa

/-!
# Quality rules

`lib/domain/qa.ts`, and what it uses of `lib/domain/research.ts`.

* `utcDay`, `assessSourceFreshness` — how old a source is;
* `isCitationId`, `findCitationIdIssues` — citation ids;
* `QaRuleCode`, `QaFinding`, `QaContext` — the rules, what they report and what they read;
* `claimAssessments`, `citedSources`, `duplicateSources` and the other rules, one by one;
* `runQaRules` — all rules in their order.

A date that cannot be read makes `runQaRules` fail as a whole.
-/

/-! ### Dates -/

/-- Whether a year has a 29th of February. -/
def isLeapYear (year : ℕ) : Bool := year % 4 = 0 && (year % 100 ≠ 0 || year % 400 = 0)

/-- The days of a month, from 1 to 12. -/
def daysInMonth (year month : ℕ) : ℕ :=
  if month = 2 then if isLeapYear year then 29 else 28
  else if month ∈ [4, 6, 9, 11] then 30 else 31

/-- The days before a date of the Gregorian calendar. -/
def dayNumber (year month day : ℕ) : ℕ :=
  let past := year - 1
  365 * past + past / 4 - past / 100 + past / 400 +
    ((List.range (month - 1)).map fun i => daysInMonth year (i + 1)).sum + day

/-- `utcDay(value, label)` in days.  `Date.UTC` takes a year before 100 for one of the twentieth
    century, so such a date is not read back. -/
def utcDay (value : Text) (label : String) : Except String ℕ := do
  ensure (Contracts.isIsoDate value = true) (label ++ " must use YYYY-MM-DD")
  let year := numeral 10 (value.take 4)
  let month := numeral 10 ((value.drop 5).take 2)
  let day := numeral 10 (value.drop 8)
  ensure (100 ≤ year ∧ 1 ≤ month ∧ month ≤ 12 ∧ 1 ≤ day ∧ day ≤ daysInMonth year month)
    (label ++ " must be a valid date")
  return dayNumber year month day

/-- `assessSourceFreshness({ publishedAt, researchDate, maxAgeDays })`; four fifths of an integer are
    rounded up as the double `maxAgeDays * 0.8` is. -/
def assessSourceFreshness (publishedAt : Option Text) (researchDate : Text) (maxAgeDays : ℤ) :
    Except String SourceFreshnessStatus := do
  ensure (0 ≤ maxAgeDays) "maxAgeDays must be a non-negative integer"
  match publishedAt with
  | none => return .unknown
  | some publishedAt =>
    let publishedDay ← utcDay publishedAt "publishedAt"
    let researchDay ← utcDay researchDate "researchDate"
    let ageDays : ℤ := researchDay - publishedDay
    return if ageDays < 0 then .unknown
      else if maxAgeDays < ageDays then .outdated
      else if 0 < maxAgeDays ∧ (4 * maxAgeDays + 4) / 5 ≤ ageDays then .aging
      else .current

/-! ### Citation ids -/

/-- `[A-Za-z0-9]`. -/
def isAlphanumericUnit (c : ℕ) : Bool :=
  (48 ≤ c && c ≤ 57) || (65 ≤ c && c ≤ 90) || (97 ≤ c && c ≤ 122)

/-- `[A-Za-z0-9._:-]`. -/
def isCitationUnit (c : ℕ) : Bool :=
  isAlphanumericUnit c || c = 46 || c = 95 || c = 58 || c = 45

/-- `isCitationId(value)`: `CITATION_ID_PATTERN`. -/
def isCitationId : Text → Bool
  | [] => false
  | c :: rest => isAlphanumericUnit c && rest.all isCitationUnit && decide (rest.length ≤ 127)

/-- `CitationIdIssueCode`. -/
inductive CitationIdIssueCode
  | malformed | duplicate | unknown
  deriving DecidableEq, Repr

/-- The name of an issue. -/
def CitationIdIssueCode.name : CitationIdIssueCode → String
  | .malformed => "MALFORMED"
  | .duplicate => "DUPLICATE"
  | .unknown => "UNKNOWN"

/-- `CitationIdIssue`. -/
structure CitationIdIssue where
  code : CitationIdIssueCode
  index : ℕ
  citationId : Text
  deriving DecidableEq, Repr

/-- The issues of the citation ids from `index` on, after those that were seen. -/
def citationIdIssuesFrom (known seen : List Text) (index : ℕ) : List Text → List CitationIdIssue
  | [] => []
  | value :: rest =>
    if ¬isCitationId value then
      ⟨.malformed, index, value⟩ :: citationIdIssuesFrom known seen (index + 1) rest
    else
      (if value ∈ seen then [⟨.duplicate, index, value⟩] else []) ++
        (if value ∉ known then [⟨.unknown, index, value⟩] else []) ++
          citationIdIssuesFrom known (value :: seen) (index + 1) rest

/-- `findCitationIdIssues(citationIds, knownCitationIds)`. -/
def findCitationIdIssues (citationIds known : List Text) : List CitationIdIssue :=
  citationIdIssuesFrom known [] 0 citationIds

/-! ### Findings -/

/-- `QaSeverity`. -/
inductive QaSeverity
  | blocker | high | medium | low
  deriving DecidableEq, Repr

/-- `QaResolutionStatus`. -/
inductive QaResolutionStatus
  | opened | resolved | acceptedRisk
  deriving DecidableEq, Repr

/-- `QaRuleCode`. -/
inductive QaRuleCode
  | unsourcedKeyClaim | invalidCitationId | outdatedSource | duplicateSource | sourceConcentration
  | unresolvedSourceConflict | factInferenceMix | unsupportedNumber | dateOrUnitMismatch
  | outOfScopeContent | unreferencedSource | sourceNumberMismatch | openResearchGap
  | emptyRequiredSection
  deriving DecidableEq, Repr

/-- The name of a rule. -/
def QaRuleCode.name : QaRuleCode → String
  | .unsourcedKeyClaim => "UNSOURCED_KEY_CLAIM"
  | .invalidCitationId => "INVALID_CITATION_ID"
  | .outdatedSource => "OUTDATED_SOURCE"
  | .duplicateSource => "DUPLICATE_SOURCE"
  | .sourceConcentration => "SOURCE_CONCENTRATION"
  | .unresolvedSourceConflict => "UNRESOLVED_SOURCE_CONFLICT"
  | .factInferenceMix => "FACT_INFERENCE_MIX"
  | .unsupportedNumber => "UNSUPPORTED_NUMBER"
  | .dateOrUnitMismatch => "DATE_OR_UNIT_MISMATCH"
  | .outOfScopeContent => "OUT_OF_SCOPE_CONTENT"
  | .unreferencedSource => "UNREFERENCED_SOURCE"
  | .sourceNumberMismatch => "SOURCE_NUMBER_MISMATCH"
  | .openResearchGap => "OPEN_RESEARCH_GAP"
  | .emptyRequiredSection => "EMPTY_REQUIRED_SECTION"

/-- `QA_RULE_DEFINITIONS`. -/
def QaRuleCode.severity : QaRuleCode → QaSeverity
  | .unsourcedKeyClaim | .invalidCitationId | .unresolvedSourceConflict | .unsupportedNumber
  | .sourceNumberMismatch | .openResearchGap | .emptyRequiredSection => .blocker
  | .outdatedSource | .sourceConcentration | .factInferenceMix | .dateOrUnitMismatch
  | .outOfScopeContent => .high
  | .duplicateSource => .medium
  | .unreferencedSource => .low

/-- `QaMetadataValue`. -/
inductive QaMetadataValue
  | string (value : Text)
  | number (value : ℚ)
  | boolean (value : Bool)
  | null
  deriving DecidableEq

/-- A value that may be missing. -/
def QaMetadataValue.ofOption : Option Text → QaMetadataValue
  | some value => .string value
  | none => .null

/-- `QaFinding`. -/
structure QaFinding where
  id : Text
  ruleCode : QaRuleCode
  severity : QaSeverity
  location : Text
  problem : String
  remediation : String
  resolutionStatus : QaResolutionStatus
  metadata : List (String × QaMetadataValue)
  deriving DecidableEq

/-- `qaFinding(ruleCode, key, location, problem, remediation, metadata)`. -/
def qaFinding (ruleCode : QaRuleCode) (key location : Text) (problem remediation : String)
    (metadata : List (String × QaMetadataValue)) : QaFinding where
  id := asciiText ruleCode.name ++ 58 :: key
  ruleCode
  severity := ruleCode.severity
  location
  problem
  remediation
  resolutionStatus := .opened
  metadata

/-! ### What the rules read -/

/-- `QaSource`. -/
structure QaSource where
  id : Text
  title : Text
  publisher : Option Text
  publishedAt : Option Text
  contentHash : Option Text
  duplicateOfSourceId : Option Text
  deriving DecidableEq, Repr

/-- `QaEvidence`. -/
structure QaEvidence where
  id : Text
  sourceId : Text
  verificationStatus : EvidenceVerificationStatus
  deriving DecidableEq, Repr

/-- `QaClaimEvidenceLink`. -/
structure QaClaimEvidenceLink where
  claimId : Text
  evidenceId : Text
  relationship : EvidenceRelationship
  supportExtent : Option EvidenceSupportExtent
  deriving DecidableEq, Repr

/-- `QaClaim`. -/
structure QaClaim where
  id : Text
  content : Text
  importance : Contracts.ClaimImportance
  includeInReport : Bool
  verificationPossible : Bool
  deriving DecidableEq, Repr

/-- `QaSourceConflict`. -/
structure QaSourceConflict where
  id : Text
  claimId : Option Text
  location : Text
  description : String
  resolved : Bool
  deriving DecidableEq, Repr

/-- `QaStatementClassification`. -/
inductive QaStatementClassification
  | fact | inference | mixed
  deriving DecidableEq, Repr

/-- `QaReportStatement`. -/
structure QaReportStatement where
  id : Text
  location : Text
  text : Text
  classification : QaStatementClassification
  withinScope : Bool
  deriving DecidableEq, Repr

/-- `QaQuantitativeAssertion`. -/
structure QaQuantitativeAssertion where
  id : Text
  location : Text
  text : Text
  evidenceId : Option Text
  dateMatchesSource : Option Bool
  unitMatchesSource : Option Bool
  valueMatchesSource : Option Bool
  deriving DecidableEq, Repr

/-- `QaReportSection`. -/
structure QaReportSection where
  id : Text
  title : String
  required : Bool
  content : Text
  deriving DecidableEq, Repr

/-- `ResearchGapStatus`. -/
inductive ResearchGapStatus
  | none | opened | accepted | resolved
  deriving DecidableEq, Repr

/-- `QaResearchGap`. -/
structure QaResearchGap where
  id : Text
  location : Text
  description : Text
  gapStatus : ResearchGapStatus
  deriving DecidableEq, Repr

/-- `QaReport`. -/
structure QaReport where
  citationIds : List Text
  sections : List QaReportSection
  statements : List QaReportStatement
  quantitativeAssertions : List QaQuantitativeAssertion
  deriving DecidableEq, Repr

/-- `QaContext`. -/
structure QaContext where
  researchDate : Text
  sourceMaxAgeDays : ℤ
  sources : List QaSource
  evidence : List QaEvidence
  claims : List QaClaim
  claimEvidence : List QaClaimEvidenceLink
  conflicts : List QaSourceConflict
  researchGaps : List QaResearchGap
  report : QaReport
  deriving DecidableEq, Repr

/-- `sourceById.get(id)`. -/
def QaContext.sourceById (context : QaContext) (id : Text) : Option QaSource :=
  lookup (·.id) context.sources id

/-- `evidenceById.get(id)`. -/
def QaContext.evidenceById (context : QaContext) (id : Text) : Option QaEvidence :=
  lookup (·.id) context.evidence id

/-- `sourceFreshness(source, context)`. -/
def sourceFreshness (context : QaContext) (source : QaSource) :
    Except String SourceFreshnessStatus :=
  assessSourceFreshness source.publishedAt context.researchDate context.sourceMaxAgeDays

/-! ### Claims -/

/-- What a link says about its claim, where its evidence and its source are known. -/
def linkAssessment (context : QaContext) (link : QaClaimEvidenceLink) :
    Except String (Option ClaimEvidenceAssessment) :=
  match context.evidenceById link.evidenceId with
  | none => .ok none
  | some evidence =>
    match context.sourceById evidence.sourceId with
    | none => .ok none
    | some source => do
      let sourceFreshness ← sourceFreshness context source
      return some
        { relationship := link.relationship
          verificationStatus := evidence.verificationStatus
          sourceFreshness
          supportExtent := link.supportExtent.getD .full }

/-- The assessments of a claim's links. -/
def claimAssessments (context : QaContext) (claim : QaClaim) :
    Except String (List ClaimEvidenceAssessment) := do
  let assessments ← (context.claimEvidence.filter (·.claimId = claim.id)).mapM
    (linkAssessment context)
  return assessments.reduceOption

/-- A claim with the assessments of its links. -/
structure AssessedClaim where
  claim : QaClaim
  assessments : List ClaimEvidenceAssessment
  deriving DecidableEq, Repr

/-- The support status of a claim. -/
def AssessedClaim.supportStatus (assessed : AssessedClaim) : ClaimSupportStatus :=
  calculateClaimSupportStatus assessed.assessments assessed.claim.verificationPossible

/-- `KEY_CLAIM_IMPORTANCE.has(importance)`. -/
def isKeyImportance (importance : Contracts.ClaimImportance) : Bool :=
  importance = .critical || importance = .high

/-- The name of a support status. -/
def supportStatusName : ClaimSupportStatus → String
  | .supported => "SUPPORTED"
  | .partiallySupported => "PARTIALLY_SUPPORTED"
  | .contested => "CONTESTED"
  | .unsupported => "UNSUPPORTED"
  | .outdated => "OUTDATED"
  | .notVerifiable => "NOT_VERIFIABLE"

/-- `UNSOURCED_KEY_CLAIM`. -/
def unsourcedKeyClaims (claims : List AssessedClaim) : List QaFinding :=
  (claims.filter fun assessed =>
    assessed.claim.includeInReport && isKeyImportance assessed.claim.importance &&
      !assessed.assessments.any fun a =>
        a.relationship = .supports && a.verificationStatus = .verified).map fun assessed =>
    qaFinding .unsourcedKeyClaim assessed.claim.id (asciiText "claim:" ++ assessed.claim.id)
      "A key report claim has no verified supporting evidence."
      "Link and verify supporting evidence, or remove the claim from the report."
      [("claimId", .string assessed.claim.id),
        ("supportStatus", .string (asciiText (supportStatusName assessed.supportStatus)))]

/-! ### Citations and sources -/

/-- `INVALID_CITATION_ID`. -/
def invalidCitations (context : QaContext) : List QaFinding :=
  (findCitationIdIssues context.report.citationIds (context.sources.map (·.id))).map fun issue =>
    let index := numeralText 10 issue.index
    qaFinding .invalidCitationId (index ++ 45 :: asciiText issue.code.name)
      (asciiText "report:citations[" ++ index ++ asciiText "]")
      ("A report citation ID is " ++ issue.code.name.toLower ++ ".")
      "Use one unique, well-formed citation ID that matches an existing source."
      [("citationId", .string issue.citationId), ("issueType", .string (asciiText issue.code.name)),
        ("citationIndex", .number issue.index)]

/-- `citedSourceIds`, as the sources with these ids. -/
def citedSources (context : QaContext) : List QaSource :=
  (firsts (context.report.citationIds.filter fun id => isCitationId id)).filterMap
    context.sourceById

/-- `OUTDATED_SOURCE`. -/
def outdatedSources (cited : List (QaSource × SourceFreshnessStatus)) : List QaFinding :=
  (cited.filter fun source => source.2 = .outdated).map fun source =>
    qaFinding .outdatedSource source.1.id (asciiText "source:" ++ source.1.id)
      "A source cited by the report is older than the project's maximum age."
      "Replace it with a current source or document why the older source remains necessary."
      [("sourceId", .string source.1.id)]

/-- A source is marked as a duplicate. -/
def QaSource.isMarked (source : QaSource) : Bool := source.duplicateOfSourceId.any (· ≠ [])

/-- `source.contentHash?.trim()`, if it is not empty. -/
def QaSource.trimmedHash (source : QaSource) : Option Text :=
  (source.contentHash.map trimText).filter (· ≠ [])

/-- The finding about a duplicate of another source. -/
def duplicateFinding (source : QaSource) (problem : String) (duplicateOfSourceId : Text) :
    QaFinding :=
  qaFinding .duplicateSource source.id (asciiText "source:" ++ source.id) problem
    "Keep one canonical source record and relink its evidence before removing the duplicate."
    [("sourceId", .string source.id), ("duplicateOfSourceId", .string duplicateOfSourceId)]

/-- The variables of the loop over the hashes. -/
structure HashPass where
  firstSourceByHash : List (Text × QaSource)
  duplicateSourceIds : List Text
  findings : List QaFinding

/-- One source in the loop over the hashes. -/
def hashStep (state : HashPass) (source : QaSource) : HashPass :=
  match source.trimmedHash with
  | none => state
  | some contentHash =>
    match state.firstSourceByHash.lookup contentHash with
    | none =>
      { state with firstSourceByHash := state.firstSourceByHash ++ [(contentHash, source)] }
    | some canonical =>
      if source.id ∈ state.duplicateSourceIds then state
      else
        { state with
          duplicateSourceIds := source.id :: state.duplicateSourceIds
          findings := state.findings ++ [duplicateFinding source
            "Two source records have the same content hash." canonical.id] }

/-- `DUPLICATE_SOURCE`: the sources that are marked, then those with the hash of an earlier one. -/
def duplicateSources (sources : List QaSource) : List QaFinding :=
  let marked := sources.filter (·.isMarked)
  let findings := marked.map fun source =>
    duplicateFinding source "A source is marked as a duplicate of another project source."
      (source.duplicateOfSourceId.getD [])
  (sources.foldl hashStep ⟨[], marked.map (·.id), findings⟩).findings

/-- The publishers of the cited sources that name one. -/
def citedPublishers (cited : List QaSource) : List Text :=
  (cited.filterMap fun source => source.publisher.map trimText).filter (· ≠ [])

/-- `SOURCE_CONCENTRATION`. -/
def sourceConcentration (cited : List QaSource) : List QaFinding :=
  let publishers := citedPublishers cited
  let share (publisher : Text) : ℚ := publishers.count publisher / publishers.length
  if 3 ≤ publishers.length then
    ((firsts publishers).filter fun publisher => 1 / 2 < share publisher).map fun publisher =>
      qaFinding .sourceConcentration publisher (asciiText "report:sources")
        "The report relies on one publishing organization for a majority of cited sources."
        "Add independent sources or explain why this concentration is unavoidable."
        [("publisher", .string publisher), ("sourceCount", .number (publishers.count publisher)),
          ("sourceShare", .number (share publisher))]
  else []

/-- `UNREFERENCED_SOURCE`. -/
def unreferencedSources (context : QaContext) : List QaFinding :=
  (context.sources.filter fun source => source.id ∉ (citedSources context).map (·.id)).map
    fun source => qaFinding .unreferencedSource source.id (asciiText "source:" ++ source.id)
      "A project source is not referenced by the report."
      "Cite the source where it is used or remove it from the delivery source list."
      [("sourceId", .string source.id)]

/-! ### Conflicts -/

/-- `UNRESOLVED_SOURCE_CONFLICT`, of the conflicts. -/
def unresolvedConflicts (conflicts : List QaSourceConflict) : List QaFinding :=
  (conflicts.filter fun conflict => !conflict.resolved).map fun conflict =>
    qaFinding .unresolvedSourceConflict conflict.id conflict.location
      "Conflicting source evidence has not been resolved or explained."
      "Resolve the conflict or document its effect on the finding and report conclusion."
      [("conflictId", .string conflict.id), ("claimId", .ofOption conflict.claimId)]

/-- `UNRESOLVED_SOURCE_CONFLICT`, of the claims without a recorded conflict. -/
def contestedClaims (conflicts : List QaSourceConflict) (claims : List AssessedClaim) :
    List QaFinding :=
  (claims.filter fun assessed =>
    ((lookup (·.claim.id) claims assessed.claim.id).any fun last =>
      last.supportStatus = .contested) &&
    -- a conflict without a claim id, or with an empty one, is not recorded
    !conflicts.any fun conflict =>
      assessed.claim.id ≠ [] && conflict.claimId = some assessed.claim.id).map fun assessed =>
    qaFinding .unresolvedSourceConflict (asciiText "claim-" ++ assessed.claim.id)
      (asciiText "claim:" ++ assessed.claim.id)
      "Verified evidence both supports and refutes this claim, but no conflict resolution is recorded."
      "Record the conflict and resolve it or explain its effect on the report conclusion."
      [("claimId", .string assessed.claim.id)]

/-! ### The report -/

/-- `FACT_INFERENCE_MIX` and `OUT_OF_SCOPE_CONTENT`. -/
def statementFindings (statement : QaReportStatement) : List QaFinding :=
  (if statement.classification = .mixed then
    [qaFinding .factInferenceMix statement.id statement.location
      "A report statement mixes fact and inference without distinguishing them."
      "Split the factual statement from the inference and label each explicitly."
      [("statementId", .string statement.id)]]
  else []) ++
  if ¬statement.withinScope then
    [qaFinding .outOfScopeContent statement.id statement.location
      "Report content falls outside the approved research scope."
      "Remove the content or obtain explicit approval to expand the scope."
      [("statementId", .string statement.id)]]
  else []

/-- The date and the unit of an assertion, if they do not match. -/
def mismatches (assertion : QaQuantitativeAssertion) : List String :=
  (if assertion.dateMatchesSource = some false then ["date"] else []) ++
    if assertion.unitMatchesSource = some false then ["unit"] else []

/-- An assertion names evidence that is verified; an empty id names none. -/
def hasVerifiedEvidence (context : QaContext) (assertion : QaQuantitativeAssertion) : Bool :=
  ((assertion.evidenceId.filter (· ≠ [])).bind context.evidenceById).any fun evidence =>
    evidence.verificationStatus = .verified

/-- `UNSUPPORTED_NUMBER`, `DATE_OR_UNIT_MISMATCH` and `SOURCE_NUMBER_MISMATCH`. -/
def assertionFindings (context : QaContext) (assertion : QaQuantitativeAssertion) :
    List QaFinding :=
  (if ¬hasVerifiedEvidence context assertion then
    [qaFinding .unsupportedNumber assertion.id assertion.location
      "A numeric statement has no verified supporting evidence."
      "Link the number to verified evidence or remove it from the report."
      [("assertionId", .string assertion.id), ("evidenceId", .ofOption assertion.evidenceId)]]
  else []) ++
  (if mismatches assertion ≠ [] then
    [qaFinding .dateOrUnitMismatch assertion.id assertion.location
      "A numeric statement uses a date or unit that does not match its source."
      "Correct the date and unit to match the cited evidence."
      [("assertionId", .string assertion.id),
        ("mismatches", .string (asciiText (String.intercalate "," (mismatches assertion))))]]
  else []) ++
  if assertion.valueMatchesSource = some false then
    [qaFinding .sourceNumberMismatch assertion.id assertion.location
      "A number in the report does not match the value in its source evidence."
      "Correct the reported value and recheck any calculation based on it."
      [("assertionId", .string assertion.id), ("evidenceId", .ofOption assertion.evidenceId)]]
  else []

/-- `OPEN_RESEARCH_GAP`. -/
def openGaps (researchGaps : List QaResearchGap) : List QaFinding :=
  let openGaps := researchGaps.filter (·.gapStatus = .opened)
  openGaps.map fun gap =>
    qaFinding .openResearchGap gap.id gap.location "A research gap remains unresolved."
      "Resolve the gap or explicitly accept and disclose the limitation before approval."
      [("gapId", .string gap.id), ("openGapCount", .number openGaps.length)]

/-- `EMPTY_REQUIRED_SECTION`; `section` is a word of Lean. -/
def emptySections (sections : List QaReportSection) : List QaFinding :=
  (sections.filter fun s => s.required && trimText s.content = []).map fun s =>
    qaFinding .emptyRequiredSection s.id (asciiText "report:section:" ++ s.id)
      "A required report section is empty." "Complete the section before requesting approval."
      [("sectionId", .string s.id), ("sectionTitle", .string (asciiText s.title))]

/-! ### All rules -/

/-- `runQaRules(context)`. -/
def runQaRules (context : QaContext) : Except String (List QaFinding) := do
  let claims ← context.claims.mapM fun claim => do
    let assessments ← claimAssessments context claim
    return { claim, assessments : AssessedClaim }
  let cited := citedSources context
  let freshness ← cited.mapM fun source => do
    let status ← sourceFreshness context source
    return (source, status)
  return unsourcedKeyClaims claims ++ invalidCitations context ++ outdatedSources freshness ++
    duplicateSources context.sources ++ sourceConcentration cited ++
    unresolvedConflicts context.conflicts ++ contestedClaims context.conflicts claims ++
    context.report.statements.flatMap statementFindings ++
    context.report.quantitativeAssertions.flatMap (assertionFindings context) ++
    unreferencedSources context ++ openGaps context.researchGaps ++
    emptySections context.report.sections

end ResearchWorkbench.Qa
