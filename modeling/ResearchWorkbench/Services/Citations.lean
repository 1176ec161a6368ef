import ResearchWorkbench.Services.Documents
import ResearchWorkbench.Services.Projects

namespace ResearchWorkbench.Documents

/-!
# Chunks, citation anchors and evidence

What the transactions of `lib/services/documents.ts` do besides to what hangs on an extraction, and
how evidence comes to cite it.

* `BlockRow`, `ChunkRow`, `CitationAnchorRow`, `EvidenceRow`, `CitationTables` — the tables;
* `insertExtracted`, `moveCitations` — the success branch of `extractDocument`;
* `withdrawCitations` — `deleteDocument`;
* `addEvidence` — `lib/services/sources.ts`;
* `loadEligibleSources`, `commitEvidence` — `lib/services/research-orchestrator.ts`.

Ids are positions.  The chunks of an extraction are inserted in the order of their ordinals, and each
has one anchor.
-/

/-! ### Tables -/

/-- A row of `document_blocks`. -/
structure BlockRow where
  extractionId : ℕ
  block : DocumentBlock

/-- A chunk, as `chunkExtraction` returns it, with its anchor. -/
structure DocumentChunk where
  text : String
  startOffset : ℤ
  endOffset : ℤ
  contentHash : ℕ
  deriving DecidableEq, Repr

/-- A row of `document_chunks`. -/
structure ChunkRow where
  extractionId : ℕ
  chunk : DocumentChunk
  deriving DecidableEq, Repr

/-- `citation_anchors.status`. -/
inductive AnchorStatus
  | current | stale | needsReview
  deriving DecidableEq, Repr

/-- A row of `citation_anchors`. -/
structure CitationAnchorRow where
  sourceId : ℕ
  documentId : ℕ
  extractionId : ℕ
  chunkId : ℕ
  startOffset : ℤ
  endOffset : ℤ
  contentHash : ℕ
  status : AnchorStatus
  deriving DecidableEq, Repr

/-- `evidence.citation_status`. -/
inductive CitationStatus
  | legacy | current | stale | needsReview
  deriving DecidableEq, Repr

/-- A row of `evidence`. -/
structure EvidenceRow where
  sourceId : ℕ
  documentId : Option ℕ := none
  chunkId : Option ℕ := none
  citationAnchorId : Option ℕ := none
  citationStatus : CitationStatus := .legacy
  deriving DecidableEq, Repr

/-- The tables, with the projects whose review a change withdraws. -/
structure CitationTables where
  blocks : List BlockRow
  chunks : List ChunkRow
  anchors : List CitationAnchorRow
  evidence : List EvidenceRow
  projects : List Workflow.ResearchProject

/-! ### Documents -/

/-- `invalidateDownstreamReview(client, projectId, "RESEARCHING")`. -/
def CitationTables.invalidate (t : CitationTables) (projectId : ℕ) : CitationTables :=
  { t with projects := t.projects.modify projectId (·.invalidate .researching) }

/-- The anchor of the chunk with the given id. -/
def DocumentChunk.anchor (chunk : DocumentChunk) (sourceId documentId extractionId chunkId : ℕ) :
    CitationAnchorRow where
  sourceId := sourceId
  documentId := documentId
  extractionId := extractionId
  chunkId := chunkId
  startOffset := chunk.startOffset
  endOffset := chunk.endOffset
  contentHash := chunk.contentHash
  status := .current

/-- The blocks, the chunks and the anchors of a new extraction. -/
def insertExtracted (t : CitationTables) (sourceId documentId extractionId : ℕ)
    (blocks : List DocumentBlock) (chunks : List DocumentChunk) : CitationTables :=
  { t with
    blocks := t.blocks ++ blocks.map fun block => ⟨extractionId, block⟩
    chunks := t.chunks ++ chunks.map fun chunk => ⟨extractionId, chunk⟩
    anchors := t.anchors ++ chunks.zipIdx.map fun (chunk, ordinal) =>
      chunk.anchor sourceId documentId extractionId (t.chunks.length + ordinal) }

/-- An anchor needs a review. -/
def CitationAnchorRow.review (anchor : CitationAnchorRow) : CitationAnchorRow :=
  { anchor with status := .needsReview }

/-- An evidence row needs a review. -/
def EvidenceRow.review (evidence : EvidenceRow) : EvidenceRow :=
  { evidence with citationStatus := .needsReview }

/-- The anchor of an evidence row. -/
def EvidenceRow.anchor (evidence : EvidenceRow) (anchors : List CitationAnchorRow) :
    Option CitationAnchorRow :=
  evidence.citationAnchorId.bind fun id => anchors[id]?

/-- The two `UPDATE`s of the success branch: what cites another extraction of the document needs a
    review. -/
def moveCitations (t : CitationTables) (documentId extractionId : ℕ) : CitationTables :=
  { t with
    anchors := updateWhere (fun _ a => a.documentId = documentId && a.extractionId ≠ extractionId &&
      a.status = AnchorStatus.current) (·.review) t.anchors
    evidence := updateWhere (fun _ e => (e.anchor t.anchors).any fun a =>
      a.documentId = documentId && a.extractionId ≠ extractionId) (·.review) t.evidence }

/-- What `commitExtraction` does besides: the branch that needs OCR does nothing of it. -/
def persistExtraction (t : CitationTables) (document : DocumentRow) (documentId extractionId : ℕ)
    (result : DocumentExtractionResult) (chunks : List DocumentChunk) : CitationTables :=
  if result.ocrRequired then t
  else
    let t := insertExtracted t (document.sourceId.getD 0) documentId extractionId result.blocks chunks
    (moveCitations t documentId extractionId).invalidate document.projectId

/-- What `deleteDocument` does besides, to a document that is not deleted yet. -/
def withdrawCitations (t : CitationTables) (projectId documentId : ℕ) : CitationTables :=
  let t := { t with
    anchors := updateWhere (fun _ a => a.documentId = documentId && a.status = AnchorStatus.current) (·.review)
      t.anchors
    evidence := updateWhere (fun _ e => e.documentId = some documentId) (·.review) t.evidence }
  t.invalidate projectId

/-! ### Evidence -/

/-- The row of evidence that a person adds, which cites no anchor. -/
def EvidenceRow.ofSource (sourceId : ℕ) : EvidenceRow := { sourceId }

/-- `addEvidence(input)`. -/
def addEvidence (db : Tables) (t : CitationTables) (sourceId : ℕ) :
    Except ServiceError CitationTables := do
  let source ← require db.sources[sourceId]? (notFound "Source")
  let t := { t with evidence := t.evidence ++ [EvidenceRow.ofSource sourceId] }
  return t.invalidate source.projectId

/-- `EligibleResearchSource`, as far as evidence refers to it. -/
structure EligibleSource where
  id : ℕ
  documentId : Option ℕ
  firstChunkId : Option ℕ
  firstCitationAnchorId : Option ℕ
  deriving DecidableEq, Repr

/-- The document of a source. -/
def documentOfSource (db : Tables) (projectId sourceId : ℕ) : Option (ℕ × DocumentRow) :=
  findRow (fun d => d.sourceId = some sourceId && d.projectId = projectId) db.documents

/-- The source with the first chunk of its document's current extraction, and the `CURRENT` anchor
    of this chunk; `none` if the document is not `READY`. -/
def eligibleSource (db : Tables) (t : CitationTables) (projectId sourceId : ℕ) :
    Option EligibleSource :=
  match documentOfSource db projectId sourceId with
  | none => some ⟨sourceId, none, none, none⟩
  | some (documentId, document) =>
    if document.status ≠ .ready then none
    else
      let chunk := findRow (fun c => some c.extractionId = document.currentExtractionId) t.chunks
      let anchor := chunk.bind fun (chunkId, _) =>
        findRow (fun a => a.sourceId = sourceId && a.chunkId = chunkId && a.status = AnchorStatus.current)
          t.anchors
      some ⟨sourceId, some documentId, chunk.map (·.1), anchor.map (·.1)⟩

/-- The eligible sources of `loadResearchOrchestrationBundle`. -/
def loadEligibleSources (db : Tables) (t : CitationTables) (projectId : ℕ) : List EligibleSource :=
  (idsWhere (fun _ source => source.projectId = projectId) db.sources).filterMap
    (eligibleSource db t projectId)

/-- The condition of `assertReferencedSourcesStillEligible` on one source. -/
def isStillEligible (db : Tables) (projectId sourceId : ℕ) : Bool :=
  let ofSource := fun (d : DocumentRow) => d.sourceId = some sourceId && d.projectId = projectId
  db.sources[sourceId]?.any (·.projectId = projectId) &&
    (!db.documents.any ofSource || db.documents.any fun d => ofSource d && d.status = DocumentStatus.ready)

/-- The row that `commitEvidence` inserts. -/
def EligibleSource.evidence (source : EligibleSource) : EvidenceRow where
  sourceId := source.id
  documentId := source.documentId
  chunkId := source.firstChunkId
  citationAnchorId := source.firstCitationAnchorId
  citationStatus := if source.firstCitationAnchorId.isSome then .current else .legacy

/-- `assertReferencedSourcesStillEligible` and `commitEvidence`, for the sources that the provider's
    evidence refers to. -/
def commitEvidence (db : Tables) (t : CitationTables) (projectId : ℕ)
    (eligibleSources : List EligibleSource) (output : List ℕ) :
    Except ServiceError CitationTables := do
  ensure (output.all (isStillEligible db projectId)) (conflict .SOURCE_ELIGIBILITY_CHANGED
    "A referenced source no longer belongs to the run project or its document is not READY.")
  let rows ← output.mapM fun sourceId =>
    require (eligibleSources.find? (·.id = sourceId)) (conflict .UNKNOWN_SOURCE_ID
      "Evidence output references a source outside the eligible project allowlist.")
  return { t with evidence := t.evidence ++ rows.map (·.evidence) }

end ResearchWorkbench.Documents
