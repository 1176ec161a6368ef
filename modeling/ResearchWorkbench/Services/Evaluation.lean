import ResearchWorkbench.Library.Keyed
import ResearchWorkbench.Library.Patterns
import ResearchWorkbench.Services.ContentHashes

namespace ResearchWorkbench.Evaluation

/-!
# The reproducibility hash of an evaluation

`lib/evaluation/types.ts` and `lib/evaluation/metrics.ts`.

* `EvalRunObservation` — what is observed of a run;
* `sorted`, `canonicalOutput` — values in an order of their own;
* `SnapshotList`, `entries` — the lists of the snapshot, before they are sorted;
* `evalObservationSnapshot`, `hashEvalObservation`.

Values are compared by `localeCompare`, which is a parameter.
-/

/-! ### Observations -/

/-- `EvalFixtureId`. -/
inductive EvalFixtureId
  | supported | conflict | stale | numericUnits | irrelevant | promptInjection | insufficient
  | partialAnswer | duplicateSource | closedCorpus
  deriving DecidableEq

def EvalFixtureId.text : EvalFixtureId → Text
  | .supported => asciiText "supported"
  | .conflict => asciiText "conflict"
  | .stale => asciiText "stale"
  | .numericUnits => asciiText "numeric-units"
  | .irrelevant => asciiText "irrelevant"
  | .promptInjection => asciiText "prompt-injection"
  | .insufficient => asciiText "insufficient"
  | .partialAnswer => asciiText "partial-answer"
  | .duplicateSource => asciiText "duplicate-source"
  | .closedCorpus => asciiText "closed-corpus"

/-- `EvalImportance`, and the severity `BLOCKER` of findings. -/
inductive EvalSeverity
  | BLOCKER | CRITICAL | HIGH | MEDIUM | LOW
  deriving DecidableEq

def EvalSeverity.text : EvalSeverity → Text
  | .BLOCKER => asciiText "BLOCKER"
  | .CRITICAL => asciiText "CRITICAL"
  | .HIGH => asciiText "HIGH"
  | .MEDIUM => asciiText "MEDIUM"
  | .LOW => asciiText "LOW"

structure EvalObservedSource where
  id : Text
  key : Option Text
  projectId : Text
  freshnessStatus : Text
  promptInjectionFlag : Bool
  duplicateOfSourceKey : Option Text

structure EvalObservedEvidence where
  id : Text
  sourceId : Text
  sourceKey : Option Text
  sourceProjectId : Option Text
  summary : Text
  verificationStatus : Text

structure EvalObservedEvidenceLink where
  evidenceId : Text
  evidenceExists : Bool
  relationship : Text
  sourceId : Option Text
  sourceKey : Option Text
  sourceProjectId : Option Text

structure EvalObservedClaim where
  id : Text
  questionKey : Option Text
  content : Text
  importance : EvalSeverity
  withinScope : Bool
  evidenceLinks : List EvalObservedEvidenceLink

structure EvalObservedFinding where
  id : Text
  withinScope : Bool

structure EvalObservedGap where
  questionKey : Option Text
  severity : Text
  description : Text

structure EvalObservedConflict where
  sourceKeys : List (Option Text)
  sourceProjectIds : List (Option Text)
  description : Text
  resolutionNeeded : Bool

structure EvalObservedQaFinding where
  ruleCode : Text
  severity : EvalSeverity
  location : Text
  problem : Text
  resolutionStatus : Text
  evalKey : Option Text
  sourceKeys : List (Option Text)

structure EvalObservedCitation where
  sourceId : Text
  sourceKey : Option Text
  sourceProjectId : Option Text

/-- `EvalRunObservation`.  Records are their entries in order. -/
structure EvalRunObservation where
  fixtureId : EvalFixtureId
  projectId : Text
  runId : Text
  runStatus : Text
  provider : Text
  model : Text
  pipelineVersion : Text
  promptVersion : Text
  succeededStageIds : List Text
  normalizedStageOutputs : List (Text × Json)
  sources : List EvalObservedSource
  evidence : List EvalObservedEvidence
  claims : List EvalObservedClaim
  findings : List EvalObservedFinding
  gaps : List EvalObservedGap
  conflicts : List EvalObservedConflict
  qaFindings : List EvalObservedQaFinding
  reportSections : List (Text × Text)
  citations : List EvalObservedCitation
  providerRequestCount : Decimal
  inputTokens : Decimal
  outputTokens : Decimal
  estimatedCostUsd : Option Decimal

/-! ### Canonical values -/

/-- A text as a value. -/
def textValue (t : Text) : Json := .leaf (.string t)

/-- A text or `null`. -/
def nullable : Option Text → Json
  | none => .leaf .null
  | some t => textValue t

def boolValue (b : Bool) : Json := .leaf (.bool b)

/-- `values.sort()`, of texts. -/
def defaultSort (values : List Text) : List Text := values.mergeSort fun x y => decide (x ≤ y)

/-- `values.sort()`, of texts and `null`, which is compared as `"null"`. -/
def nullableSort (values : List (Option Text)) : List (Option Text) :=
  values.mergeSort fun x y => decide (x.getD (asciiText "null") ≤ y.getD (asciiText "null"))

section
variable (localeCompare : Text → Text → ℤ)

/-- `stableJson(left).localeCompare(stableJson(right)) <= 0`. -/
def valueLe (left right : Json) : Bool :=
  localeLe localeCompare (stableJson localeCompare (ofJson left))
    (stableJson localeCompare (ofJson right))

/-- `sorted(values)`. -/
def sorted (values : List Json) : List Json := values.mergeSort (valueLe localeCompare)

/-- `/\[@?[^\]]+\]/`. -/
def citationPattern : Pattern Unit := do
  let _ ← Pattern.unit (· = 91)
  let _ ← Pattern.optional (Pattern.unit (· = 64))
  let _ ← Pattern.many (· ≠ 93) 1 none
  let _ ← Pattern.unit (· = 93)
  return ()

/-- `/Ids$/i.test(key)`. -/
def endsWithIds (key : Text) : Bool := (asciiText "ids").isSuffixOf (key.map lowerUnit)

mutual

/-- `canonicalOutput(value, key)`. -/
def canonicalOutput (key : Text) : Json → Json
  | .leaf (.string s) => textValue (citationPattern.replaceAll (asciiText "[@citation]") s)
  | .leaf a => .leaf a
  | .array items =>
    .array (if endsWithIds key then sorted localeCompare (canonicalItems items)
      else canonicalItems items)
  | .object fields => .object (sortedObject (localeLe localeCompare) (canonicalFields fields))

/-- The items of an array. -/
def canonicalItems : List Json → List Json
  | [] => []
  | x :: items => canonicalOutput [] x :: canonicalItems items

/-- The fields of an object before they are sorted. -/
def canonicalFields : List (Text × Json) → List (Text × Json)
  | [] => []
  | (k, x) :: fields => (k, canonicalOutput k x) :: canonicalFields fields

end

/-! ### The snapshot -/

/-- `sourceProjectId === projectId ? "fixture" : "external"`. -/
def scopeOf (projectId : Text) (sourceProjectId : Option Text) : Text :=
  if sourceProjectId = some projectId then asciiText "fixture" else asciiText "external"

/-- The same, with `"missing"` for `null` and for the empty text. -/
def scopeOrMissing (projectId : Text) (sourceProjectId : Option Text) : Text :=
  if sourceProjectId = some projectId then asciiText "fixture"
  else if sourceProjectId.getD [] ≠ [] then asciiText "external"
  else asciiText "missing"

/-- The entry of a source. -/
def sourceEntry (projectId : Text) (source : EvalObservedSource) : Json :=
  .object
    [(asciiText "key", nullable source.key),
      (asciiText "projectScope", textValue (scopeOf projectId (some source.projectId))),
      (asciiText "freshnessStatus", textValue source.freshnessStatus),
      (asciiText "promptInjectionFlag", boolValue source.promptInjectionFlag),
      (asciiText "duplicateOfSourceKey", nullable source.duplicateOfSourceKey)]

def evidenceEntry (projectId : Text) (evidence : EvalObservedEvidence) : Json :=
  .object
    [(asciiText "sourceKey", nullable evidence.sourceKey),
      (asciiText "sourceScope", textValue (scopeOf projectId evidence.sourceProjectId)),
      (asciiText "summary", textValue evidence.summary),
      (asciiText "verificationStatus", textValue evidence.verificationStatus)]

def linkEntry (projectId : Text) (link : EvalObservedEvidenceLink) : Json :=
  .object
    [(asciiText "evidenceExists", boolValue link.evidenceExists),
      (asciiText "relationship", textValue link.relationship),
      (asciiText "sourceKey", nullable link.sourceKey),
      (asciiText "sourceScope", textValue (scopeOf projectId link.sourceProjectId))]

def claimEntry (projectId : Text) (claim : EvalObservedClaim) : Json :=
  .object
    [(asciiText "questionKey", nullable claim.questionKey),
      (asciiText "content", textValue claim.content),
      (asciiText "importance", textValue claim.importance.text),
      (asciiText "withinScope", boolValue claim.withinScope),
      (asciiText "evidenceLinks",
        .array (sorted localeCompare (claim.evidenceLinks.map (linkEntry projectId))))]

def findingEntry (finding : EvalObservedFinding) : Json :=
  .object [(asciiText "withinScope", boolValue finding.withinScope)]

def gapEntry (gap : EvalObservedGap) : Json :=
  .object
    [(asciiText "questionKey", nullable gap.questionKey),
      (asciiText "severity", textValue gap.severity),
      (asciiText "description", textValue gap.description)]

def conflictEntry (projectId : Text) (conflict : EvalObservedConflict) : Json :=
  .object
    [(asciiText "sourceKeys", .array ((nullableSort conflict.sourceKeys).map nullable)),
      (asciiText "sourceScopes", .array ((defaultSort
        (conflict.sourceProjectIds.map (scopeOrMissing projectId))).map textValue)),
      (asciiText "description", textValue conflict.description),
      (asciiText "resolutionNeeded", boolValue conflict.resolutionNeeded)]

def qaFindingEntry (finding : EvalObservedQaFinding) : Json :=
  .object
    [(asciiText "ruleCode", textValue finding.ruleCode),
      (asciiText "severity", textValue finding.severity.text),
      (asciiText "location", textValue finding.location),
      (asciiText "problem", textValue finding.problem),
      (asciiText "resolutionStatus", textValue finding.resolutionStatus),
      (asciiText "evalKey", nullable finding.evalKey),
      (asciiText "sourceKeys", .array ((nullableSort finding.sourceKeys).map nullable))]

def citationEntry (projectId : Text) (citation : EvalObservedCitation) : Json :=
  .object
    [(asciiText "sourceKey", nullable citation.sourceKey),
      (asciiText "sourceScope", textValue (scopeOrMissing projectId citation.sourceProjectId))]

/-- The lists of the snapshot that are sorted by the texts of their entries. -/
inductive SnapshotList
  | sources | evidence | claims | findings | gaps | conflicts | qaFindings | citations
  deriving DecidableEq

/-- The entries of a list, before they are sorted. -/
def entries (observation : EvalRunObservation) : SnapshotList → List Json
  | .sources => observation.sources.map (sourceEntry observation.projectId)
  | .evidence => observation.evidence.map (evidenceEntry observation.projectId)
  | .claims => observation.claims.map (claimEntry localeCompare observation.projectId)
  | .findings => observation.findings.map findingEntry
  | .gaps => observation.gaps.map gapEntry
  | .conflicts => observation.conflicts.map (conflictEntry observation.projectId)
  | .qaFindings => observation.qaFindings.map qaFindingEntry
  | .citations => observation.citations.map (citationEntry observation.projectId)

/-- A list of the snapshot. -/
def sortedEntries (observation : EvalRunObservation) (list : SnapshotList) : Json :=
  .array (sorted localeCompare (entries localeCompare observation list))

/-- `[...new Set(succeededStageIds)].sort()`. -/
def succeededStages (observation : EvalRunObservation) : List Text :=
  defaultSort (firsts observation.succeededStageIds)

/-- `evalObservationSnapshot(observation)`. -/
def evalObservationSnapshot (observation : EvalRunObservation) : Json :=
  .object
    [(asciiText "fixtureId", textValue observation.fixtureId.text),
      (asciiText "runStatus", textValue observation.runStatus),
      (asciiText "provider", textValue observation.provider),
      (asciiText "model", textValue observation.model),
      (asciiText "pipelineVersion", textValue observation.pipelineVersion),
      (asciiText "promptVersion", textValue observation.promptVersion),
      (asciiText "succeededStageIds", .array ((succeededStages observation).map textValue)),
      (asciiText "stageOutputs",
        canonicalOutput localeCompare [] (.object observation.normalizedStageOutputs)),
      (asciiText "sources", sortedEntries localeCompare observation .sources),
      (asciiText "evidence", sortedEntries localeCompare observation .evidence),
      (asciiText "claims", sortedEntries localeCompare observation .claims),
      (asciiText "findings", sortedEntries localeCompare observation .findings),
      (asciiText "gaps", sortedEntries localeCompare observation .gaps),
      (asciiText "conflicts", sortedEntries localeCompare observation .conflicts),
      (asciiText "qaFindings", sortedEntries localeCompare observation .qaFindings),
      (asciiText "reportSections", canonicalOutput localeCompare []
        (.object (observation.reportSections.map fun e => (e.1, textValue e.2)))),
      (asciiText "citations", sortedEntries localeCompare observation .citations),
      (asciiText "providerRequestCount", .leaf (.number observation.providerRequestCount)),
      (asciiText "inputTokens", .leaf (.number observation.inputTokens)),
      (asciiText "outputTokens", .leaf (.number observation.outputTokens)),
      (asciiText "estimatedCostUsd",
        (observation.estimatedCostUsd.map fun cost => .leaf (.number cost)).getD (.leaf .null))]

/-- `hashEvalObservation(observation)`, with `sha256` from a text to the digest. -/
def hashEvalObservation (sha256 : Text → Text) (observation : EvalRunObservation) : Text :=
  sha256 (stableJson localeCompare (ofJson (evalObservationSnapshot localeCompare observation)))

end

end ResearchWorkbench.Evaluation
