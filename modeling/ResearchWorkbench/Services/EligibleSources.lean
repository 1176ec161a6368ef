import ResearchWorkbench.Library.Json
import ResearchWorkbench.Library.Keyed
import ResearchWorkbench.Services.StageInputs

namespace ResearchWorkbench.Contracts

/-!
# Eligible sources

`groupEligibleSources` (`lib/services/research-orchestrator.ts`): the rows of the sources of a
project with their documents and chunks become the sources that the stages may read.

* `SourceId`, `EligibleRow` — the rows, in any order;
* `securitySignals`, `chunksOf`, `rawContentOf` — what the rows of one source give;
* `GroupedSource`, `GroupedSources`, `groupEligibleSources` — the function.
-/

/-- A unit of the ids of sources: UUIDs, and `search-` with hexadecimal digits. -/
def isIdUnit (c : ℕ) : Bool := 97 ≤ c && c ≤ 122 || 48 ≤ c && c ≤ 57 || c = 45

/-- The id of a source. -/
structure SourceId where
  text : Text
  units : ∀ c ∈ text, isIdUnit c = true
  length_le : text.length ≤ 64
  deriving DecidableEq

/-- `SourceRow`: a source, its document and one chunk of the document. -/
structure EligibleRow where
  id : SourceId
  title : Text
  publisher : Option Text
  author : Option Text
  publishedAt : Option Text
  sourceType : Text
  language : Text
  ingestionMethod : Text
  contentHash : Option Text
  contentSummary : Option Text
  sanitizedContent : Option Text
  sourceInjection : Bool
  documentId : Option Text
  documentStatus : Option Text
  extractionId : Option Text
  chunkId : Option Text
  chunkOrdinal : Option ℤ
  chunkText : Option Text
  chunkInjection : Option Bool
  securitySignals : Json
  citationAnchorId : Option Text

/-- The text of a signal that is a text. -/
def signalText : Json → Option Text
  | .leaf (.string s) => some (trimText s)
  | _ => none

/-- `securitySignals(value)`. -/
def securitySignals : Json → List Text
  | .array items => (items.filterMap signalText).filter (· ≠ [])
  | _ => []

/-- A text that is neither missing nor empty. -/
def isPresent (t : Option Text) : Bool := decide (t.getD [] ≠ [])

/-- The rows with a chunk, in the order of the chunks. -/
def chunksOf (sourceRows : List EligibleRow) : List EligibleRow :=
  (sourceRows.filter fun row => isPresent row.chunkId && row.chunkText.isSome).mergeSort
    fun left right => decide (left.chunkOrdinal.getD 0 ≤ right.chunkOrdinal.getD 0)

/-- `rawContent`. -/
def rawContentOf (source : EligibleRow) (sourceRows : List EligibleRow) : Text :=
  let joined := [10, 10].intercalate ((chunksOf sourceRows).map fun chunk => chunk.chunkText.getD [])
  if joined ≠ [] then joined
  else if isPresent source.sanitizedContent then source.sanitizedContent.getD []
  else source.contentSummary.getD []

/-- `EligibleResearchSource`, with what the stage inputs do not read. -/
structure GroupedSource extends EligibleResearchSource where
  language : Text
  ingestionMethod : Text
  extractionId : Option Text
  firstChunkId : Option Text
  firstCitationAnchorId : Option Text
  documentChunkCount : ℕ

/-- `groupEligibleSources`. -/
structure GroupedSources where
  eligible : List GroupedSource
  excludedDocumentSourceIds : List Text
  documentChunkCount : ℕ

/-- `[...grouped.values()]`: the rows of each source, with the first of them. -/
def groupsOf (rows : List EligibleRow) : List (EligibleRow × List EligibleRow) :=
  (firsts (rows.map (·.id))).filterMap fun id =>
    let sourceRows := rows.filter fun row => decide (row.id = id)
    sourceRows.head?.map fun source => (source, sourceRows)

/-- The document of the source is not ready. -/
def isExcluded (source : EligibleRow) : Bool :=
  isPresent source.documentId && decide (source.documentStatus ≠ some (asciiText "READY"))

/-- The source of a group. -/
def groupedSource (source : EligibleRow) (sourceRows : List EligibleRow) : GroupedSource :=
  let chunks := chunksOf sourceRows
  let signals := firsts (chunks.flatMap fun chunk => securitySignals chunk.securitySignals)
  { id := source.id.text
    title := source.title
    publisher := source.publisher
    author := source.author
    publishedAt := source.publishedAt
    sourceType := source.sourceType
    language := source.language
    ingestionMethod := source.ingestionMethod
    contentHash := source.contentHash
    documentId := source.documentId
    extractionId := source.extractionId
    firstChunkId := chunks.head?.bind (·.chunkId)
    firstCitationAnchorId := chunks.head?.bind (·.citationAnchorId)
    documentChunkCount := chunks.length
    content := sourceDataContent source.id.text (rawContentOf source sourceRows)
    promptInjectionSuspected := source.sourceInjection ||
      chunks.any (fun chunk => chunk.chunkInjection.getD false) || !signals.isEmpty
    securitySignals := signals }

/-- The groups of the sources that are not excluded. -/
def eligibleGroups (rows : List EligibleRow) : List (EligibleRow × List EligibleRow) :=
  (groupsOf rows).filter fun group => !isExcluded group.1

/-- `groupEligibleSources(rows)`. -/
def groupEligibleSources (rows : List EligibleRow) : GroupedSources where
  eligible := (eligibleGroups rows).map fun group => groupedSource group.1 group.2
  excludedDocumentSourceIds :=
    ((groupsOf rows).filter fun group => isExcluded group.1).map fun group => group.1.id.text
  documentChunkCount := ((eligibleGroups rows).map fun group => (chunksOf group.2).length).sum

end ResearchWorkbench.Contracts
