import Mathlib.Data.Nat.Digits.Defs
import ResearchWorkbench.Domain.Content
import ResearchWorkbench.Domain.Jobs
import ResearchWorkbench.Library.Spans

namespace ResearchWorkbench.Chunking

/-!
# Extractions and their chunks

`finalizeExtraction` (`lib/documents/extraction/types.ts`) and `chunkExtraction`
(`lib/documents/chunking.ts`).  Texts are lists of UTF-16 code units, and offsets count them.

* `utf8`, `decimal`, `digest` — what is hashed; SHA-256 is a parameter;
* `BlockDraft`, `ExtractionBlock`, `finalizeExtraction` — the blocks of a document and its text;
* `validateExtractionResult` (`lib/services/documents.ts`) — what is checked before it is stored;
* `ChunkingOptions`, `validateOptions` — the options;
* `trimSegment`, `splitBlock` — a block in units;
* `GroupState`, `addUnit`, `groupUnits`, `chunkExtraction` — the units in chunks, and their anchors.

The `metadata` of blocks and extractions is passed on unread, and left out.
-/

/-! ### Digests -/

/-- The bytes of a code point. -/
def utf8CodePoint (n : ℕ) : List UInt8 :=
  if n < 0x80 then [n.toUInt8]
  else if n < 0x800 then [(0xC0 + n / 64).toUInt8, (0x80 + n % 64).toUInt8]
  else if n < 0x10000 then
    [(0xE0 + n / 4096).toUInt8, (0x80 + n / 64 % 64).toUInt8, (0x80 + n % 64).toUInt8]
  else [(0xF0 + n / 262144).toUInt8, (0x80 + n / 4096 % 64).toUInt8, (0x80 + n / 64 % 64).toUInt8,
    (0x80 + n % 64).toUInt8]

/-- The bytes of a code unit that is no part of a pair; half a pair becomes U+FFFD. -/
def utf8Unit (c : ℕ) : List UInt8 :=
  utf8CodePoint (if isHighSurrogate c || isLowSurrogate c then 0xFFFD else c)

/-- `new TextEncoder().encode(value)`, and the bytes of a string that is hashed. -/
def utf8 : Text → List UInt8
  | [] => []
  | [c] => utf8Unit c
  | c :: d :: rest =>
    if isHighSurrogate c && isLowSurrogate d then
      utf8CodePoint (0x10000 + (c - 0xD800) * 0x400 + (d - 0xDC00)) ++ utf8 rest
    else utf8Unit c ++ utf8 (d :: rest)

/-- `String(n)`. -/
def decimal (n : ℕ) : Text :=
  if n = 0 then [48] else (Nat.digits 10 n).reverse.map (48 + ·)

/-- `createHash("sha256").update(…).digest("hex")`. -/
abbrev Sha256 := List UInt8 → Text

/-- `digest(parts)`, and `stableId(parts)`: parts that are missing are empty. -/
def digest (sha256Hex : Sha256) (parts : List Text) : Text :=
  (sha256Hex (utf8 (List.intercalate [0] parts))).take 40

/-! ### Extractions -/

/-- `ExtractableDocumentFormat`. -/
inductive ExtractableDocumentFormat
  | pdf | docx | txt | html
  deriving DecidableEq, Repr

/-- `ExtractionBlockKind`. -/
inductive ExtractionBlockKind
  | heading | paragraph | table | footnote | page
  deriving DecidableEq, Repr

/-- `ExtractionConfidence`. -/
inductive ExtractionConfidence
  | high | medium | low | unknown
  deriving DecidableEq, Repr

/-- `DocumentExtractionResult["status"]`. -/
inductive ExtractionStatus
  | ready | ocrRequiredUnsupported
  deriving DecidableEq, Repr

/-- The limits that `finalizeExtraction` reads. -/
structure ExtractionLimits where
  maxBytes : ℕ
  maxBlocks : ℕ
  maxTextChars : ℕ
  deriving DecidableEq, Repr

/-- These fields of `DEFAULT_EXTRACTION_LIMITS`. -/
def defaultExtractionLimits : ExtractionLimits where
  maxBytes := 25000000
  maxBlocks := 20000
  maxTextChars := 2000000

/-- `ExtractionErrorCode`, as far as `finalizeExtraction` uses it. -/
inductive ExtractionErrorCode
  | documentTooLarge | documentMalformed | extractionLimitExceeded
  deriving DecidableEq, Repr

/-- `ExtractionError`. -/
structure ExtractionError where
  code : ExtractionErrorCode
  message : String
  deriving DecidableEq, Repr

/-- `BlockDraft`. -/
structure BlockDraft where
  kind : ExtractionBlockKind
  text : Text
  pageNumber : Option ℕ := none
  sectionPath : Option Text := none
  paragraphIndex : Option ℕ := none
  language : Option Text := none
  confidence : Option ExtractionConfidence := none
  deriving DecidableEq, Repr

/-- `ExtractionBlock`. -/
structure ExtractionBlock where
  id : Text
  ordinal : ℕ
  kind : ExtractionBlockKind
  pageNumber : Option ℕ
  sectionPath : Option Text
  paragraphIndex : Option ℕ
  text : Text
  startOffset : ℕ
  endOffset : ℕ
  stableAnchor : Text
  language : Option Text
  contentHash : Text
  confidence : ExtractionConfidence
  deriving DecidableEq, Repr

/-- `FinalizeExtractionInput`. -/
structure FinalizeExtractionInput where
  format : ExtractableDocumentFormat
  bytes : List UInt8
  extractorName : Text
  extractorVersion : Text
  drafts : List BlockDraft
  limits : ExtractionLimits
  pageCount : Option ℕ := none
  language : Option Text := none
  confidence : Option ExtractionConfidence := none
  warnings : List Text := []
  deriving DecidableEq, Repr

/-- `DocumentExtractionResult`. -/
structure DocumentExtractionResult where
  format : ExtractableDocumentFormat
  status : ExtractionStatus
  extractorName : Text
  extractorVersion : Text
  documentHash : Text
  contentHash : Text
  text : Text
  blocks : List ExtractionBlock
  pageCount : Option ℕ
  language : Option Text
  confidence : ExtractionConfidence
  warnings : List Text
  securitySignals : PromptInjectionAssessment
  deriving DecidableEq, Repr

/-- `assertDocumentByteLimit(bytes, limits)`. -/
def assertDocumentByteLimit (bytes : List UInt8) (limits : ExtractionLimits) :
    Except ExtractionError Unit := do
  ensure (bytes.length ≠ 0) ⟨.documentMalformed, "Document is empty."⟩
  ensure (bytes.length ≤ limits.maxBytes)
    ⟨.documentTooLarge, "Document exceeds its extraction byte limit."⟩

/-- `draft.text.replace(/[\t ]+\n/g, "\n").trim()`. -/
def draftText (text : Text) : Text :=
  trimText ((Regex.seq (.many (fun c => c = 9 || c = 32) 1 none)
    (.unit (· = 10))).replaceAll [10] text)

/-- One draft in the loop of `finalizeExtraction`, after some blocks that end at `offset`. -/
def addBlock (sha256Hex : Sha256) (input : FinalizeExtractionInput)
    (state : List ExtractionBlock × ℕ) (draft : BlockDraft) :
    Except ExtractionError (List ExtractionBlock × ℕ) := do
  let (blocks, offset) := state
  let text := draftText draft.text
  if text = [] then return (blocks, offset)
  let startOffset := if 0 < blocks.length then offset + 2 else offset
  let endOffset := startOffset + text.length
  ensure (endOffset ≤ input.limits.maxTextChars)
    ⟨.extractionLimitExceeded, "Extracted text is too large."⟩
  let contentHash := sha256Hex (utf8 text)
  let ordinal := blocks.length
  let stableAnchor := digest sha256Hex
    [sha256Hex input.bytes, input.extractorVersion, decimal ordinal,
      draft.pageNumber.elim [] decimal, draft.sectionPath.getD [], contentHash]
  return (blocks ++ [
    { id := asciiText "block-" ++ stableAnchor, ordinal, kind := draft.kind
      pageNumber := draft.pageNumber, sectionPath := draft.sectionPath
      paragraphIndex := draft.paragraphIndex, text, startOffset, endOffset, stableAnchor
      language := draft.language <|> input.language, contentHash
      confidence := (draft.confidence <|> input.confidence).getD .high }], endOffset)

/-- The text of an extraction: its blocks with a blank line between them. -/
def joinBlocks (blocks : List ExtractionBlock) : Text :=
  List.intercalate [10, 10] (blocks.map (·.text))

/-- `finalizeExtraction(input)`. -/
def finalizeExtraction (sha256Hex : Sha256) (input : FinalizeExtractionInput) :
    Except ExtractionError DocumentExtractionResult := do
  assertDocumentByteLimit input.bytes input.limits
  ensure (input.drafts.length ≤ input.limits.maxBlocks)
    ⟨.extractionLimitExceeded, "Document has too many text blocks."⟩
  let (blocks, _) ← input.drafts.foldlM (addBlock sha256Hex input) ([], 0)
  let text := joinBlocks blocks
  return {
    format := input.format
    status := .ready
    extractorName := input.extractorName
    extractorVersion := input.extractorVersion
    documentHash := sha256Hex input.bytes
    contentHash := sha256Hex (utf8 text)
    text
    blocks
    pageCount := input.pageCount
    language := input.language
    confidence := input.confidence.getD .high
    warnings := input.warnings
    securitySignals := assessPromptInjection text }

/-- One block in the loop of `validateExtractionResult`: the anchors of the blocks before it, and
    where the last of them ends. -/
def checkBlock (sha256Hex : Sha256) (state : List Text × ℤ) (block : ExtractionBlock) :
    Except String (List Text × ℤ) := do
  let (anchors, previousEnd) := state
  ensure (¬(block.text = [] ∨ block.endOffset < block.startOffset ∨
      (block.startOffset : ℤ) < previousEnd ∨ block.contentHash ≠ sha256Hex (utf8 block.text) ∨
      block.stableAnchor ∈ anchors))
    "Extractor block provenance is invalid."
  return (block.stableAnchor :: anchors, block.endOffset)

/-- `validateExtractionResult(result, format, objectSha256, maxTextChars)`. -/
def validateExtractionResult (sha256Hex : Sha256) (result : DocumentExtractionResult)
    (format : ExtractableDocumentFormat) (objectSha256 : Text) (maxTextChars : ℕ) :
    Except String Unit := do
  ensure (¬(result.format ≠ format ∨ result.documentHash ≠ objectSha256))
    "Extractor result does not match the stored document."
  if result.status = .ocrRequiredUnsupported then
    ensure (¬(format ≠ .pdf ∨ result.blocks.length ≠ 0 ∨ result.text ≠ []))
      "OCR-required result is inconsistent."
  else
    ensure (¬(result.contentHash = [] ∨ result.contentHash ≠ sha256Hex (utf8 result.text)))
      "Extractor content hash is invalid."
    ensure (¬(maxTextChars < result.text.length ∨ result.blocks.length = 0))
      "Extractor result exceeds the usable content boundary."
    let _ ← result.blocks.foldlM (checkBlock sha256Hex) ([], -1)

/-! ### Options -/

/-- `ChunkingOptions`; a number that is not finite is no safe integer either. -/
structure ChunkingOptions where
  maxChars : Option ℚ := none
  overlapChars : Option ℚ := none
  maxChunks : Option ℚ := none
  deriving DecidableEq

/-- `Number.isSafeInteger(value)`. -/
def isSafeInteger (value : ℚ) : Prop := value.den = 1 ∧ value.num.natAbs ≤ maxSafeInteger

instance decidableIsSafeInteger (value : ℚ) : Decidable (isSafeInteger value) :=
  inferInstanceAs (Decidable (_ ∧ _))

/-- `Required<ChunkingOptions>`, after validation. -/
structure ValidOptions where
  maxChars : ℕ
  overlapChars : ℕ
  maxChunks : ℕ
  deriving DecidableEq, Repr

/-- `validateOptions(options)`. -/
def validateOptions (options : ChunkingOptions) : Except String ValidOptions := do
  let maxChars := options.maxChars.getD 4000
  let overlapChars := options.overlapChars.getD 300
  let maxChunks := options.maxChunks.getD 2000
  ensure (isSafeInteger maxChars ∧ 100 ≤ maxChars) "maxChars must be an integer of at least 100."
  ensure (isSafeInteger overlapChars ∧ 0 ≤ overlapChars ∧ overlapChars < maxChars / 2)
    "overlapChars must be non-negative and less than half of maxChars."
  ensure (isSafeInteger maxChunks ∧ 1 ≤ maxChunks) "maxChunks must be a positive integer."
  return ⟨maxChars.num.toNat, overlapChars.num.toNat, maxChunks.num.toNat⟩

/-! ### Units -/

/-- `ChunkUnit`. -/
structure ChunkUnit where
  text : Text
  startOffset : ℕ
  endOffset : ℕ
  block : ExtractionBlock
  deriving DecidableEq, Repr

/-- `trimSegment(value, rawStart, rawEnd)`: where the segment is, without the blanks at its ends. -/
def trimSegment (value : Text) (rawStart rawEnd : ℕ) : Option Span :=
  let raw := slice value rawStart rawEnd
  let left := raw.length - (raw.dropWhile isSpaceUnit).length
  let right := raw.length - (raw.reverse.dropWhile isSpaceUnit).length
  let start := rawStart + left
  let stop := rawEnd - right
  if stop ≤ start then none else some ⟨start, stop⟩

/-- `value.lastIndexOf(" ", position)`. -/
def lastSpace (value : Text) (position : ℕ) : Option ℕ :=
  (List.range (position + 1)).reverse.find? fun i => value[i]? = some 32

/-- Where `splitBlock` ends the unit that begins at `start`: at a space of its second half, or after
    `maxChars` units. -/
def cutEnd (value : Text) (maxChars start : ℕ) : ℕ :=
  let stop := min value.length (start + maxChars)
  if stop < value.length then
    match lastSpace value stop with
    | some boundary => if start + maxChars / 2 < boundary then boundary else stop
    | none => stop
  else stop

/-- The loop of `splitBlock` from `start` on: the raw segments. -/
def rawSegments (value : Text) (maxChars overlapChars start : ℕ) : List Span :=
  if start < value.length then
    let stop := cutEnd value maxChars start
    ⟨start, stop⟩ :: if value.length ≤ stop then []
      else rawSegments value maxChars overlapChars (max (start + 1) (stop - overlapChars))
  else []
termination_by value.length - start
decreasing_by omega

/-- The unit of a block that a segment is. -/
def segmentUnit (block : ExtractionBlock) (segment : Span) : ChunkUnit where
  text := slice block.text segment.start segment.stop
  startOffset := block.startOffset + segment.start
  endOffset := block.startOffset + segment.stop
  block

/-- `splitBlock(block, maxChars, overlapChars)`. -/
def splitBlock (block : ExtractionBlock) (maxChars overlapChars : ℕ) : List ChunkUnit :=
  if block.text.length ≤ maxChars then
    [{ text := block.text, startOffset := block.startOffset, endOffset := block.endOffset, block }]
  else
    ((rawSegments block.text maxChars overlapChars 0).filterMap fun raw =>
      trimSegment block.text raw.start raw.stop).map (segmentUnit block)

/-! ### Groups -/

/-- `sameStructure(left, right)`. -/
def sameStructure (left right : ChunkUnit) : Prop :=
  left.block.pageNumber = right.block.pageNumber ∧
    left.block.sectionPath = right.block.sectionPath ∧ right.block.kind ≠ .heading

instance decidableSameStructure (left right : ChunkUnit) : Decidable (sameStructure left right) :=
  inferInstanceAs (Decidable (_ ∧ _ ∧ _))

/-- The variables of the grouping loop. -/
structure GroupState where
  grouped : List (List ChunkUnit)
  current : List ChunkUnit
  currentChars : ℕ
  deriving DecidableEq, Repr

/-- `current.length > 0 && (!fits || !sameStructure(current[current.length - 1], unit))`. -/
def closesGroup (maxChars : ℕ) (state : GroupState) (unit : ChunkUnit) : Bool :=
  match state.current.getLast? with
  | none => false
  | some last =>
    !decide (state.currentChars + 2 + unit.text.length ≤ maxChars) ||
      !decide (sameStructure last unit)

/-- One step of the grouping loop. -/
def addUnit (maxChars : ℕ) (state : GroupState) (unit : ChunkUnit) : GroupState :=
  let state := if closesGroup maxChars state unit then
      { grouped := state.grouped ++ [state.current], current := [], currentChars := 0 }
    else state
  let current := state.current ++ [unit]
  { grouped := state.grouped
    current
    currentChars := state.currentChars + ((if 1 < current.length then 2 else 0) + unit.text.length) }

/-- The grouping loop. -/
def groupUnits (maxChars : ℕ) (units : List ChunkUnit) : List (List ChunkUnit) :=
  let state := units.foldl (addUnit maxChars) ⟨[], [], 0⟩
  if 0 < state.current.length then state.grouped ++ [state.current] else state.grouped

/-! ### Chunks -/

/-- `CHUNKER_VERSION`. -/
def chunkerVersion : Text := asciiText "structure-char-v1"

/-- `DocumentChunk`. -/
structure DocumentChunk where
  id : Text
  ordinal : ℕ
  extractionId : Text
  text : Text
  startOffset : ℕ
  endOffset : ℕ
  startBlockId : Text
  endBlockId : Text
  pageNumber : Option ℕ
  sectionPath : Option Text
  charCount : ℕ
  contentHash : Text
  chunkerVersion : Text
  securitySignals : PromptInjectionAssessment
  deriving DecidableEq, Repr

/-- `CitationAnchor["status"]`. -/
inductive AnchorStatus
  | current | stale | needsReview
  deriving DecidableEq, Repr

/-- `CitationAnchor`. -/
structure CitationAnchor where
  id : Text
  sourceId : Text
  documentId : Text
  extractionId : Text
  chunkId : Text
  pageNumber : Option ℕ
  sectionPath : Option Text
  startOffset : ℕ
  endOffset : ℕ
  contentHash : Text
  status : AnchorStatus
  deriving DecidableEq, Repr

/-- `ChunkedDocument`. -/
structure ChunkedDocument where
  chunks : List DocumentChunk
  anchors : List CitationAnchor
  deriving DecidableEq, Repr

/-- The argument of `chunkExtraction`. -/
structure ChunkExtractionInput where
  sourceId : Text
  documentId : Text
  extractionId : Text
  extraction : DocumentExtractionResult
  options : ChunkingOptions := {}
  deriving DecidableEq

/-- The text of a group. -/
def groupText (group : List ChunkUnit) : Text := List.intercalate [10, 10] (group.map (·.text))

/-- What the id of a chunk is the digest of. -/
def chunkKey (extraction : DocumentExtractionResult) (ordinal startOffset endOffset : ℕ)
    (contentHash : Text) : List Text :=
  [extraction.documentHash, extraction.extractorVersion, chunkerVersion, decimal ordinal,
    decimal startOffset, decimal endOffset, contentHash]

/-- The chunk of a group that begins with `first` and ends with `last`. -/
def groupChunk (sha256Hex : Sha256) (input : ChunkExtractionInput) (ordinal : ℕ)
    (group : List ChunkUnit) (first last : ChunkUnit) : DocumentChunk :=
  let text := groupText group
  let contentHash := sha256Hex (utf8 text)
  { id := asciiText "chunk-" ++ digest sha256Hex
      (chunkKey input.extraction ordinal first.startOffset last.endOffset contentHash)
    ordinal
    extractionId := input.extractionId
    text
    startOffset := first.startOffset
    endOffset := last.endOffset
    startBlockId := first.block.id
    endBlockId := last.block.id
    pageNumber := first.block.pageNumber
    sectionPath := first.block.sectionPath
    charCount := text.length
    contentHash
    chunkerVersion
    securitySignals := assessPromptInjection text }

/-- The chunk of a group; every group has a first and a last unit. -/
def toChunk (sha256Hex : Sha256) (input : ChunkExtractionInput) (ordinal : ℕ)
    (group : List ChunkUnit) : Option DocumentChunk :=
  match group.head?, group.getLast? with
  | some first, some last => some (groupChunk sha256Hex input ordinal group first last)
  | _, _ => none

/-- What the id of an anchor is the digest of. -/
def anchorKey (input : ChunkExtractionInput) (chunk : DocumentChunk) : List Text :=
  [input.sourceId, input.documentId, input.extractionId, chunk.id, decimal chunk.startOffset,
    decimal chunk.endOffset, chunk.contentHash]

/-- The anchor of a chunk. -/
def toAnchor (sha256Hex : Sha256) (input : ChunkExtractionInput) (chunk : DocumentChunk) :
    CitationAnchor where
  id := asciiText "anchor-" ++ digest sha256Hex (anchorKey input chunk)
  sourceId := input.sourceId
  documentId := input.documentId
  extractionId := input.extractionId
  chunkId := chunk.id
  pageNumber := chunk.pageNumber
  sectionPath := chunk.sectionPath
  startOffset := chunk.startOffset
  endOffset := chunk.endOffset
  contentHash := chunk.contentHash
  status := .current

/-- `chunkExtraction(input)`. -/
def chunkExtraction (sha256Hex : Sha256) (input : ChunkExtractionInput) :
    Except String ChunkedDocument := do
  ensure (input.extraction.status = .ready) "Only READY extractions can be chunked."
  let options ← validateOptions input.options
  let units := input.extraction.blocks.flatMap fun block =>
    splitBlock block options.maxChars options.overlapChars
  let grouped := groupUnits options.maxChars units
  ensure (grouped.length ≤ options.maxChunks)
    "Document exceeds the configured chunk count limit."
  let chunks := (grouped.mapIdx (toChunk sha256Hex input)).reduceOption
  return ⟨chunks, chunks.map (toAnchor sha256Hex input)⟩

end ResearchWorkbench.Chunking
