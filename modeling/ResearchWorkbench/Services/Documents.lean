import ResearchWorkbench.Library.Table
import ResearchWorkbench.Store.Documents

namespace ResearchWorkbench.Documents

/-!
# The document services

The transactions of `lib/services/documents.ts`, and what happens to the bytes between them.

* `assertDocumentJobFence`, `lockDocument` — what every transaction starts with;
* `quarantineDocument` — the metadata of an upload;
* `beginScan`, `scanObject`, `commitScan` — the three parts of `scanDocument`;
* `beginExtraction`, `extractObject`, `commitExtraction`, `recordExtractionFailure` — the parts of
  `extractDocument`;
* `deleteDocument`, `addSource`, `reuseSource`.

A transaction locks the project, the document and its object, so it is one function on the tables.
It sees the clock twice, at its first and at its last fence check, and whether the call's signal
was aborted by then (`Moment`).  Blocks, chunks, citations and audit events are left out: nothing
here reads them back.
-/

variable {db db' : Tables}

/-! ### Locks and fences -/

/-- What a transaction sees of its surroundings: when it starts, when it ends, and whether the
    call's signal is aborted by its last check. -/
structure Moment where
  start : ℕ
  finish : ℕ
  aborted : Bool

/-- `signal.throwIfAborted()`. -/
def throwIfAborted (aborted : Bool) : Except ServiceError Unit :=
  ensure (aborted = false) (.error "This operation was aborted")

/-- `LockedDocument`: a document joined with its raw object. -/
structure LockedDocument where
  documentId : ℕ
  document : DocumentRow
  object : StorageObjectRow

/-- `DocumentJobFence`. -/
structure DocumentJobFence where
  jobId : ℕ
  workerId : ℕ
  attempt : ℕ
  version : ℕ
  deriving DecidableEq, Repr

/-- `lockProject(client, projectId)`. -/
def lockProject (db : Tables) (projectId : ℕ) : Except ServiceError Unit :=
  ensure (projectId < db.projectCount) (notFound "Project")

/-- `lockDocument(client, projectId, documentId)`. -/
def lockDocument (db : Tables) (projectId documentId : ℕ) : Except ServiceError LockedDocument := do
  lockProject db projectId
  let document ← require db.documents[documentId]? (notFound "Document")
  ensure (document.projectId = projectId) (notFound "Document")
  let object ← require (findObject document.rawObjectId db.objects) (notFound "Document")
  return { documentId, document, object }

/-- Whether the row is the fenced attempt of the job, at the time `now`. -/
def DocumentJobFence.holds (fence : DocumentJobFence) (now projectId documentId : ℕ)
    (jobType : JobType) (job : JobRow) : Prop :=
  job.projectId = some projectId ∧ job.jobType = jobType ∧ job.documentId = some documentId ∧
    job.status = .running ∧ job.leaseOwner = some fence.workerId ∧ job.attempts = fence.attempt ∧
    fence.version ≤ job.version ∧ ∃ t ∈ job.leaseExpiresAt, now < t

instance (fence : DocumentJobFence) (now projectId documentId : ℕ) (jobType : JobType)
    (job : JobRow) : Decidable (fence.holds now projectId documentId jobType job) :=
  inferInstanceAs (Decidable (_ ∧ _))

/-- `assertDocumentJobFence(client, projectId, documentId, jobType, fence)` at the time `now`. -/
def assertDocumentJobFence (db : Tables) (now projectId documentId : ℕ) (jobType : JobType)
    (fence : Option DocumentJobFence) : Except ServiceError Unit :=
  match fence with
  | none => .ok ()
  | some fence =>
    ensure (∃ job ∈ db.jobs[fence.jobId]?, fence.holds now projectId documentId jobType job)
      (conflict .JOB_LEASE_LOST "The document worker no longer owns the current job attempt.")

/-- `ensureStorageProvider(storage, provider)`. -/
def ensureStorageProvider (storage provider : StorageProviderKind) : Except ServiceError Unit :=
  ensure (storage = provider) (.app 503 .STORAGE_PROVIDER_MISMATCH
    "The document storage provider is not available.")

/-! ### Uploads -/

/-- `QuarantineDocumentInput`, with the identifier that `randomUUID()` returns. -/
structure QuarantineDocumentInput where
  projectId : ℕ
  provider : StorageProviderKind
  bucket : ℕ
  contentType : ContentType
  bytes : Bytes
  idempotencyKey : Option ℕ
  uploadInputHash : ℕ
  randomUUID : ℕ

/-- The id of the upload's object. -/
def QuarantineDocumentInput.objectId (input : QuarantineDocumentInput) (hashing : Hashing) : ℕ :=
  match input.idempotencyKey with
  | some key => hashing.deterministicUploadUuid input.projectId key .object
  | none => input.randomUUID

/-- The row of the upload's object. -/
def QuarantineDocumentInput.objectRow (input : QuarantineDocumentInput) (hashing : Hashing)
    (sourceId : ℕ) : StorageObjectRow where
  id := input.objectId hashing
  provider := input.provider
  bucket := input.bucket
  objectKey := createObjectKey .quarantine (input.objectId hashing)
  contentType := input.contentType
  byteSize := some input.bytes.length
  sha256 := some (hashing.sha256Hex input.bytes)
  integrityStatus := .verified
  uploadStatus := .available
  projectId := some input.projectId
  sourceId := some sourceId

/-- The document an earlier upload under the same idempotency key made. -/
def existingDocumentUpload (db : Tables) (input : QuarantineDocumentInput) :
    Option (ℕ × DocumentRow) :=
  match input.idempotencyKey with
  | some key =>
    findRow (fun d => d.projectId = input.projectId ∧ d.uploadIdempotencyKey = some key)
      db.documents
  | none => none

/-- The transaction of `quarantineDocument`: the tables and the id of the document. -/
def quarantineDocument (hashing : Hashing) (db : Tables) (input : QuarantineDocumentInput) :
    Except ServiceError (ℕ × Tables) := do
  lockProject db input.projectId
  match existingDocumentUpload db input with
  | some (documentId, document) =>
    ensure (document.uploadInputHash = some input.uploadInputHash)
      (conflict .IDEMPOTENCY_KEY_REUSED
        "The document upload idempotency key was already used for different input.")
    return (documentId, db)
  | none =>
    let sourceId := db.sources.length
    let objects ← insertObject (input.objectRow hashing sourceId) db.objects
    let source : SourceRow :=
      { projectId := input.projectId, sanitizedContent := none,
        storageObjectId := some (input.objectId hashing), reusedFromSourceId := none }
    let document : DocumentRow :=
      { projectId := input.projectId, sourceId := some sourceId,
        rawObjectId := input.objectId hashing, status := .quarantined, scanBypassed := false,
        currentExtractionId := none, uploadIdempotencyKey := input.idempotencyKey,
        uploadInputHash := input.idempotencyKey.map fun _ => input.uploadInputHash }
    return (db.documents.length,
      { db with
        objects := objects, sources := db.sources ++ [source],
        documents := db.documents ++ [document] })

/-! ### Reading stored bytes -/

/-- What `storage.read` throws for the reasons the services distinguish. -/
inductive StorageErrorCode
  | objectNotFound | objectTooLarge | integrityMismatch
  deriving DecidableEq, Repr

/-- `storage.read(location, { maxBytes, expectedSha256 })`, where `stored` is what the storage
    holds at the location. -/
def storageRead (hashing : Hashing) (stored : Option Bytes) (maxBytes : ℕ)
    (expectedSha256 : Option ℕ) : Except StorageErrorCode Bytes := do
  let bytes ← require stored .objectNotFound
  ensure (bytes.length ≤ maxBytes) .objectTooLarge
  ensure (∀ sha256 ∈ expectedSha256, hashing.sha256Hex bytes = sha256) .integrityMismatch
  return bytes

/-- What is read has the expected hash. -/
theorem storageRead_sha256 {hashing : Hashing} {stored : Option Bytes} {maxBytes : ℕ}
    {expectedSha256 : Option ℕ} {bytes : Bytes}
    (h : storageRead hashing stored maxBytes expectedSha256 = .ok bytes) :
    ∀ sha256 ∈ expectedSha256, hashing.sha256Hex bytes = sha256 := by
  simp only [storageRead, bind_eq_ok, ensure_eq_ok, require_eq_ok, pure_eq_ok] at h
  obtain ⟨_, _, _, _, _, hsha, rfl⟩ := h
  exact hsha

/-! ### Scans -/

/-- `ScanDocumentOptions`, with the arguments of `scanDocument` and the provider of its storage. -/
structure ScanRequest where
  projectId : ℕ
  documentId : ℕ
  provider : StorageProviderKind
  maxBytes : ℕ
  disposition : ScanDispositionOptions
  resumeInProgress : Bool
  jobFence : Option DocumentJobFence

/-- The first transaction of `scanDocument`: the document is `SCANNING`. -/
def beginScan (db : Tables) (moment : Moment) (request : ScanRequest) :
    Except ServiceError (LockedDocument × Tables) := do
  let locked ← lockDocument db request.projectId request.documentId
  assertDocumentJobFence db moment.start request.projectId request.documentId .documentScan
    request.jobFence
  let resume := decide (locked.document.status = .scanning) && request.resumeInProgress
  ensure (resume ∨ locked.document.status ∈ [.quarantined, .blockedScannerUnavailable])
    (conflict .DOCUMENT_NOT_SCANNABLE "Document is not waiting for a malware scan.")
  if !resume then assertDocumentTransition locked.document.status .scanning
  throwIfAborted moment.aborted
  assertDocumentJobFence db moment.finish request.projectId request.documentId .documentScan
    request.jobFence
  return (locked, if resume then db else
    db.updateDocument request.documentId fun d => { d with status := .scanning })

/-- The scan of a stored object, and the bytes that were scanned.  `answer` is what the scanner
    returned, if it did not throw. -/
def scanObject (hashing : Hashing) (snapshot : LockedDocument) (maxBytes : ℕ)
    (stored : Option Bytes) (answer : Option MalwareScanResult) :
    MalwareScanResult × Option Bytes :=
  let failed : MalwareScanResult :=
    { status := .error, byteSize := snapshot.object.byteSize.getD 0,
      objectSha256 := snapshot.object.sha256.getD 0 }
  match storageRead hashing stored maxBytes snapshot.object.sha256 with
  | .error _ => (failed, none)
  | .ok bytes =>
    match answer with
    | none => (failed, some bytes)
    | some scan =>
      if some scan.objectSha256 ≠ snapshot.object.sha256 ∨
          scan.byteSize ≠ snapshot.object.byteSize.getD 0 then
        ({ scan with status := .error }, some bytes)
      else (scan, some bytes)

/-- A clean result is about the stored object. -/
theorem scanObject_clean {hashing : Hashing} {snapshot : LockedDocument} {maxBytes : ℕ}
    {stored : Option Bytes} {answer : Option MalwareScanResult}
    (h : (scanObject hashing snapshot maxBytes stored answer).1.status = .clean) :
    snapshot.object.sha256 =
      some (scanObject hashing snapshot maxBytes stored answer).1.objectSha256 := by
  unfold scanObject at h ⊢
  split
  · rename_i hread
    rw [hread] at h
    cases h
  · rename_i bytes hread
    rw [hread] at h
    cases answer with
    | none => cases h
    | some scan =>
      simp only at h ⊢
      split at h
      · cases h
      · rename_i hmatch
        rw [if_neg hmatch]
        simp only [not_or, not_not] at hmatch
        exact hmatch.1.symm

/-- `PreparedCleanSourceObject`. -/
structure PreparedCleanSourceObject where
  id : ℕ
  bucket : ℕ
  objectKey : ObjectKey
  byteSize : ℕ
  sha256 : ℕ

/-- `prepareCleanSourceObject`, up to the storage write; `none` where it throws. -/
def prepareCleanSourceObject (hashing : Hashing) (projectId : ℕ) (snapshot : LockedDocument)
    (bytes : Bytes) (maxBytes : ℕ) : Option PreparedCleanSourceObject :=
  let id := hashing.deterministicUploadUuid projectId snapshot.document.rawObjectId
    .cleanSourceObject
  if bytes.length > maxBytes ∨ some (hashing.sha256Hex bytes) ≠ snapshot.object.sha256 ∨
      bytes.length ≠ snapshot.object.byteSize.getD 0 then none
  else some
    { id, bucket := snapshot.object.bucket, objectKey := createObjectKey .sources id,
      byteSize := bytes.length, sha256 := hashing.sha256Hex bytes }

/-- The row of a clean source object. -/
def PreparedCleanSourceObject.objectRow (clean : PreparedCleanSourceObject)
    (locked : LockedDocument) : StorageObjectRow where
  id := clean.id
  provider := locked.object.provider
  bucket := clean.bucket
  objectKey := clean.objectKey
  contentType := locked.object.contentType
  byteSize := some clean.byteSize
  sha256 := some clean.sha256
  integrityStatus := .verified
  uploadStatus := .available
  scanStatus := .clean
  projectId := some locked.document.projectId
  sourceId := locked.document.sourceId

/-- `catalogCleanSourceObject(client, clean, document, actor)`. -/
def catalogCleanSourceObject (objects : List StorageObjectRow) (clean : PreparedCleanSourceObject)
    (locked : LockedDocument) : Except ServiceError (List StorageObjectRow) := do
  let objects ← insertObjectIfNew (clean.objectRow locked) objects
  let failure := conflict .CLEAN_SOURCE_OBJECT_CONFLICT
    "The clean source object identity conflicts with stored metadata."
  let row ← require (findObject clean.id objects) failure
  ensure (row.provider = locked.object.provider ∧ row.bucket = clean.bucket ∧
    row.objectKey = clean.objectKey ∧ row.byteSize.getD 0 = clean.byteSize ∧
    row.sha256 = some clean.sha256 ∧ row.scanStatus = .clean ∧ row.retentionStatus = .active) failure
  return objects

/-- The catalog after a scan: with the clean source object, where one was prepared. -/
def catalogIfClean (objects : List StorageObjectRow) (clean : Option PreparedCleanSourceObject)
    (locked : LockedDocument) : Except ServiceError (List StorageObjectRow) :=
  match clean with
  | some clean => catalogCleanSourceObject objects clean locked
  | none => .ok objects

/-- The second transaction of `scanDocument`. -/
def commitScan (db : Tables) (moment : Moment) (request : ScanRequest) (snapshot : LockedDocument)
    (scan : MalwareScanResult) (clean : Option PreparedCleanSourceObject) :
    Except ServiceError Tables := do
  let disposition := resolveScanDisposition scan request.disposition
  let current ← lockDocument db request.projectId request.documentId
  assertDocumentJobFence db moment.start request.projectId request.documentId .documentScan
    request.jobFence
  ensure (current.document.status = .scanning ∧
    current.document.rawObjectId = snapshot.document.rawObjectId)
    (conflict .DOCUMENT_SCAN_STALE "Document changed while malware scanning was running.")
  let objects ← catalogIfClean db.objects clean current
  assertDocumentTransition .scanning disposition.documentStatus
  throwIfAborted moment.aborted
  assertDocumentJobFence db moment.finish request.projectId request.documentId .documentScan
    request.jobFence
  let result : ScanResultRow :=
    { documentId := request.documentId, objectId := current.document.rawObjectId,
      objectSha256 := scan.objectSha256, result := scan.status, byteSize := scan.byteSize }
  let db := { db with objects := objects, scanResults := db.scanResults ++ [result] }
  let db := db.updateDocument request.documentId fun d =>
    { d with status := disposition.documentStatus, scanBypassed := disposition.bypassed }
  let db := db.updateObject current.document.rawObjectId fun o =>
    { o with scanStatus := scan.status }
  return match clean, current.document.sourceId with
    | some clean, some sourceId =>
      db.updateSource sourceId fun s => { s with storageObjectId := some clean.id }
    | _, _ => db

/-! ### Extractions -/

/-- `ExtractableDocumentFormat`. -/
inductive ExtractableDocumentFormat
  | pdf | docx | txt | html
  deriving DecidableEq, Repr

/-- `formatFor(document)`. -/
def formatFor (object : StorageObjectRow) : Except ServiceError ExtractableDocumentFormat :=
  match object.contentType with
  | .pdf => .ok .pdf
  | .docx => .ok .docx
  | .json | .csv | .markdown | .plain => .ok .txt
  | .html => .ok .html
  | .other _ =>
    .error (.app 422 .UNSUPPORTED_DOCUMENT_FORMAT "Document format is not extractable.")

/-- `ExtractDocumentOptions`, with the arguments of `extractDocument` and the provider of its
    storage.  `production` is optional in the source. -/
structure ExtractRequest where
  projectId : ℕ
  documentId : ℕ
  provider : StorageProviderKind
  maxBytes : ℕ
  maxTextChars : Option ℕ
  production : Option Bool
  allowExplicitDemoBypass : Bool
  resumeInProgress : Bool
  jobFence : Option DocumentJobFence

/-- What the first transaction of `extractDocument` returns. -/
structure StartedExtraction where
  locked : LockedDocument
  version : ℕ
  format : ExtractableDocumentFormat

/-- `SELECT COALESCE(MAX(version), 0) + 1 FROM document_extractions WHERE document_id = $1`. -/
def nextVersion (db : Tables) (documentId : ℕ) : ℕ :=
  ((db.extractions.filter (·.documentId = documentId)).map (·.version)).foldl max 0 + 1

/-- The first transaction of `extractDocument`: the document is `EXTRACTING`. -/
def beginExtraction (db : Tables) (moment : Moment) (request : ExtractRequest) :
    Except ServiceError (StartedExtraction × Tables) := do
  let locked ← lockDocument db request.projectId request.documentId
  assertDocumentJobFence db moment.start request.projectId request.documentId .documentExtract
    request.jobFence
  let clean := locked.object.scanStatus = .clean
  let explicitBypass := request.production = some false ∧ locked.document.scanBypassed = true ∧
    request.allowExplicitDemoBypass = true
  ensure (clean ∨ explicitBypass)
    (conflict .DOCUMENT_SCAN_REQUIRED
      "Only a document with a clean malware scan can be extracted.")
  let resume := decide (locked.document.status = .extracting) && request.resumeInProgress
  ensure (resume ∨
    locked.document.status ∈ [.clean, .ready, .extractionFailed, .ocrRequiredUnsupported])
    (conflict .DOCUMENT_NOT_EXTRACTABLE "Document is not ready for extraction.")
  if !resume then assertDocumentTransition locked.document.status .extracting
  throwIfAborted moment.aborted
  assertDocumentJobFence db moment.finish request.projectId request.documentId .documentExtract
    request.jobFence
  let format ← formatFor locked.object
  let version := nextVersion db request.documentId
  let db := db.updateDocument request.documentId fun d => { d with status := .extracting }
  let db := db.updateObject locked.document.rawObjectId fun o =>
    { o with extractionStatus := .pending }
  return ({ locked, version, format }, db)

/-- A block of an extraction. -/
structure DocumentBlock where
  text : String
  startOffset : ℤ
  endOffset : ℤ
  contentHash : ℕ
  stableAnchor : ℕ

/-- `DocumentExtractionResult`. -/
structure DocumentExtractionResult where
  ocrRequired : Bool
  format : ExtractableDocumentFormat
  documentHash : ℕ
  contentHash : Option ℕ
  text : String
  blocks : List DocumentBlock

/-- The loop of `validateExtractionResult` over the blocks. -/
def validateBlocks (hashing : Hashing) :
    List DocumentBlock → List ℕ → ℤ → Except ServiceError Unit
  | [], _, _ => .ok ()
  | block :: blocks, anchors, previousEnd => do
    ensure (block.text ≠ "" ∧ block.startOffset ≤ block.endOffset ∧
      previousEnd ≤ block.startOffset ∧ block.contentHash = hashing.textSha256 block.text ∧
      block.stableAnchor ∉ anchors)
      (.error "Extractor block provenance is invalid.")
    validateBlocks hashing blocks (block.stableAnchor :: anchors) block.endOffset

/-- `validateExtractionResult(result, format, objectSha256, maxTextChars)`. -/
def validateExtractionResult (hashing : Hashing) (result : DocumentExtractionResult)
    (format : ExtractableDocumentFormat) (objectSha256 : Option ℕ) (maxTextChars : ℕ) :
    Except ServiceError Unit := do
  ensure (result.format = format ∧ some result.documentHash = objectSha256)
    (.error "Extractor result does not match the stored document.")
  if result.ocrRequired then
    ensure (format = .pdf ∧ result.blocks = [] ∧ result.text = "")
      (.error "OCR-required result is inconsistent.")
  else
    ensure (result.contentHash = some (hashing.textSha256 result.text))
      (.error "Extractor content hash is invalid.")
    ensure (utf16Length result.text ≤ maxTextChars ∧ result.blocks ≠ [])
      (.error "Extractor result exceeds the usable content boundary.")
    validateBlocks hashing result.blocks [] (-1)

/-- The bytes read and what the extractor makes of them, where neither step throws.  `answer` is
    what the extractor returned. -/
def extractObject (hashing : Hashing) (request : ExtractRequest) (started : StartedExtraction)
    (stored : Option Bytes) (answer : Option DocumentExtractionResult) :
    Option (Bytes × DocumentExtractionResult) :=
  match storageRead hashing stored request.maxBytes started.locked.object.sha256, answer with
  | .ok bytes, some result =>
    match validateExtractionResult hashing result started.format started.locked.object.sha256
        (request.maxTextChars.getD 2000000) with
    | .ok () => some (bytes, result)
    | .error _ => none
  | _, _ => none

/-- What is extracted was read from bytes of the hash that the object had at the start. -/
theorem extractObject_sha256 {hashing : Hashing} {request : ExtractRequest}
    {started : StartedExtraction} {stored : Option Bytes}
    {answer : Option DocumentExtractionResult} {bytes : Bytes} {result : DocumentExtractionResult}
    (h : extractObject hashing request started stored answer = some (bytes, result)) :
    ∀ sha256 ∈ started.locked.object.sha256, hashing.sha256Hex bytes = sha256 := by
  unfold extractObject at h
  split at h
  · rename_i hread
    split at h
    · cases h
      exact storageRead_sha256 hread
    · cases h
  · cases h

/-- `PreparedExtractionArtifact`. -/
structure PreparedExtractionArtifact where
  id : ℕ
  bucket : ℕ
  objectKey : ObjectKey
  byteSize : ℕ
  sha256 : ℕ

/-- `prepareExtractionArtifact` of the given payload, up to the storage write; `none` where it
    throws. -/
def prepareExtractionArtifact (hashing : Hashing) (projectId extractionId maxBytes : ℕ)
    (locked : LockedDocument) (payload : Bytes) : Option PreparedExtractionArtifact :=
  let id := hashing.deterministicUploadUuid projectId extractionId .extractionArtifact
  if payload.length > maxBytes then none
  else some
    { id, bucket := locked.object.bucket, objectKey := createObjectKey .extractions id,
      byteSize := payload.length, sha256 := hashing.sha256Hex payload }

/-- The row of an extraction artifact. -/
def PreparedExtractionArtifact.objectRow (artifact : PreparedExtractionArtifact)
    (locked : LockedDocument) : StorageObjectRow where
  id := artifact.id
  provider := locked.object.provider
  bucket := artifact.bucket
  objectKey := artifact.objectKey
  contentType := .json
  byteSize := some artifact.byteSize
  sha256 := some artifact.sha256
  integrityStatus := .verified
  uploadStatus := .available
  projectId := some locked.document.projectId
  sourceId := locked.document.sourceId

/-- `catalogExtractionArtifact(client, artifact, document, actor)`. -/
def catalogExtractionArtifact (objects : List StorageObjectRow)
    (artifact : PreparedExtractionArtifact) (locked : LockedDocument) :
    Except ServiceError (List StorageObjectRow) := do
  let objects ← insertObjectIfNew (artifact.objectRow locked) objects
  let failure := conflict .EXTRACTION_ARTIFACT_CONFLICT
    "The generated extraction artifact metadata conflicts with stored state."
  let row ← require (findObject artifact.id objects) failure
  ensure (row.provider = locked.object.provider ∧ row.bucket = artifact.bucket ∧
    row.objectKey = artifact.objectKey ∧ row.byteSize.getD 0 = artifact.byteSize ∧
    row.sha256 = some artifact.sha256 ∧ row.retentionStatus = .active) failure
  return objects

/-- `INSERT INTO document_extractions`, whose pair `(document_id, version)` is unique. -/
def insertExtraction (db : Tables) (row : ExtractionRow) : Except ServiceError Tables := do
  ensure (∀ e ∈ db.extractions, ¬ (e.documentId = row.documentId ∧ e.version = row.version))
    (.constraint "document_extractions_document_id_version_key")
  return { db with extractions := db.extractions ++ [row] }

/-- `INSERT INTO document_extractions … ON CONFLICT (document_id, version) DO NOTHING`. -/
def insertExtractionIfNew (db : Tables) (row : ExtractionRow) : Tables :=
  match insertExtraction db row with
  | .ok db => db
  | .error _ => db

/-- Only the extractions change. -/
theorem insertExtractionIfNew_eq (db : Tables) (row : ExtractionRow) :
    ∃ extractions, insertExtractionIfNew db row = { db with extractions := extractions } := by
  unfold insertExtractionIfNew
  split
  · rename_i h
    simp only [insertExtraction, bind_eq_ok, pure_eq_ok] at h
    obtain ⟨_, _, rfl⟩ := h
    exact ⟨_, rfl⟩
  · exact ⟨db.extractions, rfl⟩

/-- The last transaction of `extractDocument`: of a document that needs OCR, and of one whose text
    becomes the content of its source. -/
def commitExtraction (db : Tables) (moment : Moment) (request : ExtractRequest)
    (started : StartedExtraction) (bytes : Bytes) (result : DocumentExtractionResult)
    (artifact : PreparedExtractionArtifact) : Except ServiceError Tables := do
  let current ← lockDocument db request.projectId request.documentId
  assertDocumentJobFence db moment.start request.projectId request.documentId .documentExtract
    request.jobFence
  let stale := conflict .DOCUMENT_EXTRACTION_STALE "Document changed during extraction."
  ensure (current.document.status = .extracting ∧
    current.document.rawObjectId = started.locked.document.rawObjectId) stale
  let row : ExtractionRow :=
    { documentId := request.documentId, objectId := current.document.rawObjectId,
      version := started.version,
      status := if result.ocrRequired then .ocrRequiredUnsupported else .succeeded }
  let extractionId := db.extractions.length
  if result.ocrRequired then
    let objects ← catalogExtractionArtifact db.objects artifact current
    let db ← insertExtraction { db with objects := objects } row
    assertDocumentTransition .extracting .ocrRequiredUnsupported
    throwIfAborted moment.aborted
    assertDocumentJobFence db moment.finish request.projectId request.documentId .documentExtract
      request.jobFence
    let db := db.updateDocument request.documentId fun d =>
      { d with status := .ocrRequiredUnsupported, currentExtractionId := some extractionId }
    return db.updateObject current.document.rawObjectId fun o =>
      { o with extractionStatus := .ocrRequiredUnsupported }
  else
    ensure (current.object.sha256 = started.locked.object.sha256 ∧
      (current.document.scanBypassed = true ∨ current.object.scanStatus = .clean)) stale
    let sourceId ← require current.document.sourceId
      (conflict .DOCUMENT_SOURCE_MISSING "Document source no longer exists.")
    let objects ← catalogExtractionArtifact db.objects artifact current
    let db ← insertExtraction { db with objects := objects } row
    assertDocumentTransition .extracting .ready
    throwIfAborted moment.aborted
    assertDocumentJobFence db moment.finish request.projectId request.documentId .documentExtract
      request.jobFence
    let db := db.updateSource sourceId fun s =>
      { s with sanitizedContent := some ⟨result.text, some (request.documentId, bytes)⟩ }
    let db := db.updateDocument request.documentId fun d =>
      { d with status := .ready, currentExtractionId := some extractionId }
    return db.updateObject current.document.rawObjectId fun o => { o with extractionStatus := .ready }

/-- `recordExtractionFailure(input)`. -/
def recordExtractionFailure (db : Tables) (moment : Moment) (request : ExtractRequest)
    (version : ℕ) : Except ServiceError Tables := do
  let current ← lockDocument db request.projectId request.documentId
  assertDocumentJobFence db moment.start request.projectId request.documentId .documentExtract
    request.jobFence
  if current.document.status ≠ .extracting then
    return db
  else
    let row : ExtractionRow :=
      { documentId := request.documentId, objectId := current.document.rawObjectId, version,
        status := .failed }
    assertDocumentTransition .extracting .extractionFailed
    assertDocumentJobFence db moment.finish request.projectId request.documentId .documentExtract
      request.jobFence
    let db := insertExtractionIfNew db row
    let db := db.updateDocument request.documentId fun d => { d with status := .extractionFailed }
    return db.updateObject current.document.rawObjectId fun o => { o with extractionStatus := .failed }

/-! ### Deletion and reuse -/

/-- The statuses of a job that has not ended. -/
def JobRow.isActive (job : JobRow) : Bool :=
  job.status ∈ [.queued, .claimed, .running, .retryWait, .cancellationRequested]

/-- `isCancellableDocumentJob(job)`. -/
def JobRow.isCancellableDocumentJob (documentId : ℕ) (job : JobRow) : Bool :=
  job.status ∈ [.queued, .retryWait] && job.jobType ∈ [.documentScan, .documentExtract] &&
    job.documentId = some documentId

/-- The objects `deleteDocument` hands over to cleanup. -/
def associatedObject (locked : LockedDocument) (projectId : ℕ) (o : StorageObjectRow) : Bool :=
  o.projectId = some projectId &&
    (o.id = locked.document.rawObjectId ||
      (locked.document.sourceId.isSome && o.sourceId = locked.document.sourceId))

/-- `retention_status = 'PENDING_DELETE'` without a lease, of a row that is `ACTIVE` or
    `PENDING_DELETE` already. -/
def requestDeletion (p : StorageObjectRow → Bool) (objects : List StorageObjectRow) :
    List StorageObjectRow :=
  updateObjects (fun o => p o && o.retentionStatus ∈ [.active, .pendingDelete])
    (fun o => { o with
      retentionStatus := .pendingDelete, cleanupLeaseOwner := none, cleanupLeaseExpiresAt := none })
    objects

/-- `deleteDocument(projectId, documentId, actor)`. -/
def deleteDocument (db : Tables) (projectId documentId : ℕ) : Except ServiceError Tables := do
  let locked ← lockDocument db projectId documentId
  let activeJob := fun (job : JobRow) => job.projectId = some projectId ∧ job.isActive
  ensure (locked.document.status = .deleted ∨
    ∀ job ∈ db.jobs, activeJob job → job.isCancellableDocumentJob documentId)
    (conflict .DOCUMENT_JOBS_ACTIVE ("Cancel active project jobs, wait for their workers to drain, "
      ++ "and retry document deletion."))
  ensure (∀ o ∈ db.objects, associatedObject locked projectId o → o.retentionStatus ≠ .legalHold)
    (conflict .DOCUMENT_LEGAL_HOLD "Document is under legal hold and cannot be deleted.")
  let jobs := db.jobs.map fun job =>
    if activeJob job ∧ job.isCancellableDocumentJob documentId then
      { job with status := .cancelled, version := job.version + 1 } else job
  let db := { db with
    jobs := jobs
    objects := requestDeletion
      (fun o => decide (o.id = locked.document.rawObjectId) || associatedObject locked projectId o)
      db.objects }
  if locked.document.status = .deleted then
    return db
  else
    assertDocumentTransition locked.document.status .deleted
    let db := db.updateDocument documentId fun d => { d with status := .deleted }
    return match locked.document.sourceId with
      | some sourceId => db.updateSource sourceId fun s =>
          { s with sanitizedContent := none, storageObjectId := none }
      | none => db

/-- `addSource(projectId, input)`. -/
def addSource (db : Tables) (projectId : ℕ) (content : Option SourceText)
    (reusedFromSourceId : Option ℕ) : Except ServiceError Tables := do
  lockProject db projectId
  ensure (∀ i ∈ reusedFromSourceId, i < db.sources.length) (notFound "Reusable source")
  return { db with
    sources := db.sources ++
      [{ projectId, sanitizedContent := content, storageObjectId := none, reusedFromSourceId }] }

/-- `reuseSource(projectId, sourceId)`: the content is copied into a new source, through
    `externalHtmlToText(sanitizeExternalHtml(content))` where it looks like HTML. -/
def reuseSource (db : Tables) (projectId sourceId : ℕ) (sanitize : String → String) :
    Except ServiceError Tables := do
  let row ← require db.sources[sourceId]? (notFound "Source")
  addSource db projectId (row.sanitizedContent.map fun c => { c with text := sanitize c.text })
    (some sourceId)

end ResearchWorkbench.Documents
