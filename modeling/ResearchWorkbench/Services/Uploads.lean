import ResearchWorkbench.Storage.System

namespace ResearchWorkbench.Uploads

/-!
# Uploads under an idempotency key

The calls of `quarantineDocument` (`lib/services/documents.ts`) with one project and one key, step
by step: between any two steps of a call the others take theirs, a step may throw, and the process
of a call may die.

* `UploadSite`, `UploadInput` — what the calls share, and what one is called with;
* `ExistingDocumentUpload`, `existingUpload`, `QuarantinedDocument` — the row the key identifies,
  and what a call returns;
* `putObject`, `writeFile`, `readObject` — `LocalObjectStorage.put` and `read`
  (`lib/storage/local.ts`);
* `transact` — the transaction, with the document it returns;
* `UploadPhase`, `UploadAct`, `stepUpload` — the call;
* `UploadSys`, `UploadAction`, `UploadSys.step` — all calls.

A call begins after its file and its source passed validation, which reads nothing.
-/

/-! ### Inputs -/

/-- What is hashed into `upload_input_hash`. -/
structure UploadIdentity where
  projectId : ℕ
  sha256 : ℕ
  originalFilename : ℕ
  safeFilename : ℕ
  mimeType : ContentType
  source : ℕ
  deriving DecidableEq, Repr

/-- The hash functions of an upload, which tell bytes apart and inputs apart. -/
structure UploadHashing extends Hashing where
  uploadInputHash : UploadIdentity → ℕ
  sha256Hex_injective : Function.Injective sha256Hex
  uploadInputHash_injective : Function.Injective uploadInputHash

/-- What the calls share: the project, the key, and the storage of the deployment. -/
structure UploadSite where
  hashing : UploadHashing
  projectId : ℕ
  idempotencyKey : ℕ
  provider : StorageProviderKind
  bucket : ℕ
  maxReadBytes : ℕ

/-- `QuarantineDocumentInput`, after validation. -/
structure UploadInput where
  bytes : Bytes
  originalFilename : ℕ
  safeFilename : ℕ
  mimeType : ContentType
  source : ℕ
  bucket : Option ℕ
  maxBytes : ℕ
  deriving DecidableEq, Repr

namespace UploadSite

variable (site : UploadSite)

/-- What the hash of an input is taken of. -/
def identity (input : UploadInput) : UploadIdentity where
  projectId := site.projectId
  sha256 := site.hashing.sha256Hex input.bytes
  originalFilename := input.originalFilename
  safeFilename := input.safeFilename
  mimeType := input.mimeType
  source := input.source

/-- `uploadInputHash`. -/
def uploadInputHash (input : UploadInput) : ℕ := site.hashing.uploadInputHash (site.identity input)

/-- The id of the object. -/
def objectId : ℕ :=
  site.hashing.deterministicUploadUuid site.projectId site.idempotencyKey .object

/-- The location of the object in the configured bucket. -/
def location : StorageLocation := (site.provider, site.bucket, createObjectKey .quarantine site.objectId)

/-- The place of the object. -/
def target : StorageTarget := .object site.location

/-- The transaction's input: `storage.put` has resolved the bucket. -/
def row (input : UploadInput) : Documents.QuarantineDocumentInput where
  projectId := site.projectId
  provider := site.provider
  bucket := site.bucket
  contentType := input.mimeType
  bytes := input.bytes
  idempotencyKey := some site.idempotencyKey
  uploadInputHash := site.uploadInputHash input
  randomUUID := 0

/-- Inputs of one hash have the same bytes and the same metadata. -/
theorem uploadInputHash_inj {site : UploadSite} {input input' : UploadInput}
    (h : site.uploadInputHash input = site.uploadInputHash input') :
    site.identity input = site.identity input' ∧ input.bytes = input'.bytes := by
  have hid := site.hashing.uploadInputHash_injective h
  exact ⟨hid, site.hashing.sha256Hex_injective (congrArg UploadIdentity.sha256 hid)⟩

end UploadSite

/-! ### The upload of a key -/

/-- `QuarantinedDocument`. -/
structure QuarantinedDocument where
  id : ℕ
  projectId : ℕ
  sourceId : Option ℕ
  objectId : ℕ
  status : DocumentStatus
  location : StorageLocation
  sha256 : ℕ
  byteSize : ℕ
  deriving DecidableEq, Repr

/-- `ExistingDocumentUpload`: a document joined with its raw object. -/
structure ExistingDocumentUpload where
  id : ℕ
  document : Documents.DocumentRow
  object : StorageObjectRow
  deriving DecidableEq, Repr

/-- What a replay returns. -/
def ExistingDocumentUpload.result (existing : ExistingDocumentUpload) : QuarantinedDocument where
  id := existing.id
  projectId := existing.document.projectId
  sourceId := existing.document.sourceId
  objectId := existing.document.rawObjectId
  status := existing.document.status
  location := existing.object.location
  sha256 := existing.object.sha256.getD 0
  byteSize := existing.object.byteSize.getD 0

section

variable (site : UploadSite)

/-- `SELECT … FROM documents d JOIN storage_objects o … WHERE d.project_id = $1 AND
    d.upload_idempotency_key = $2`. -/
def existingUpload (db : Documents.Tables) : Option ExistingDocumentUpload := do
  let (id, document) ← findRow (fun d => d.projectId = site.projectId ∧
    d.uploadIdempotencyKey = some site.idempotencyKey) db.documents
  let object ← findObject document.rawObjectId db.objects
  return ⟨id, document, object⟩

/-- The checks of `existingDocumentUpload` on the row it found, before it reads the object. -/
def assertReusable (input : UploadInput) (existing : ExistingDocumentUpload) :
    Except ServiceError Unit := do
  ensure (existing.document.uploadInputHash = some (site.uploadInputHash input))
    (conflict .IDEMPOTENCY_KEY_REUSED
      "The document upload idempotency key was already used for different input.")
  ensure (existing.object.uploadStatus = .available ∧ existing.object.retentionStatus = .active ∧
      existing.document.status ≠ .deleted)
    (conflict .DOCUMENT_UPLOAD_NOT_REUSABLE
      "The prior document upload is no longer an active reusable object.")
  Documents.ensureStorageProvider site.provider existing.object.provider

/-- The transaction, and the document it returns: that of an earlier upload, or its own. -/
def transact (db : Documents.Tables) (input : UploadInput) :
    Except ServiceError (Documents.Tables × QuarantinedDocument) := do
  let (documentId, db') ← Documents.quarantineDocument site.hashing.toHashing db (site.row input)
  match existingUpload site db with
  | some existing => return (db', existing.result)
  | none =>
    return (db',
      { id := documentId, projectId := site.projectId, sourceId := some db.sources.length,
        objectId := site.objectId, status := .quarantined, location := site.location,
        sha256 := site.hashing.sha256Hex input.bytes, byteSize := input.bytes.length })

end

/-! ### The storage -/

/-- The tables and the stored files. -/
structure UploadStores where
  db : Documents.Tables
  files : Files

namespace UploadStores

variable (site : UploadSite)

/-- The bytes stored at the location of the key. -/
def stored (stores : UploadStores) : Option Bytes := (stores.files site.target).map (·.bytes)

/-- `storage.read(location, { maxBytes, expectedSha256 })`. -/
def readObject (stores : UploadStores) (location : StorageLocation) (maxBytes : ℕ)
    (expectedSha256 : Option ℕ) : Except Documents.StorageErrorCode Bytes :=
  Documents.storageRead site.hashing.toHashing ((stores.files (.object location)).map (·.bytes))
    (min maxBytes site.maxReadBytes) expectedSha256

/-- The file of the key, as another one or none. -/
def setFile (stores : UploadStores) (file : Option StoredFile) : UploadStores :=
  { stores with files := Function.update stores.files site.target file }

/-- Other files stay. -/
theorem files_setFile (stores : UploadStores) (file : Option StoredFile) {target : StorageTarget}
    (h : target ≠ site.target) : (stores.setFile site file).files target = stores.files target :=
  Function.update_of_ne h _ _

/-- `if (done) await unlink(…)`, or `storage.delete(location)`. -/
def remove (stores : UploadStores) (done : Bool) : UploadStores :=
  if done then stores.setFile site none else stores

/-- The call `i` writes to the file it has created, if that is still there. -/
def writeFile (stores : UploadStores) (i n : ℕ) (input : UploadInput) : UploadStores :=
  match stores.files site.target with
  | some f =>
    if f.creator = i ∧ f.bytes.length < n ∧ n ≤ input.bytes.length then
      stores.setFile site (some { f with bytes := input.bytes.take n, lastModified := stores.db.now })
    else stores
  | none => stores

end UploadStores

/-! ### One call -/

/-- Where a call is. -/
inductive UploadPhase
  /-- Before the query of `existingDocumentUpload`. -/
  | looking
  /-- `existingDocumentUpload` has found a reusable row, before it reads the object. -/
  | replaying (existing : ExistingDocumentUpload)
  /-- Before the query of the project. -/
  | checking
  /-- Before `storage.put`. -/
  | putting
  /-- `storage.put` has created the file. -/
  | creating
  /-- `storage.put` has failed since. -/
  | unlinking
  /-- `OBJECT_EXISTS`: so many attempts to read the object have failed. -/
  | existing (attempt : ℕ)
  /-- The stored upload failed the integrity checks, before its `storage.delete`. -/
  | unverified
  /-- The bytes are verified; whether this call created the object. -/
  | stored (createdObject : Bool)
  /-- The transaction threw. -/
  | failed (createdObject : Bool)
  /-- No row was found: before the `storage.delete` of the compensation. -/
  | compensating
  | returned (document : QuarantinedDocument)
  | threw
  | crashed
  deriving DecidableEq, Repr

/-- The next step of a call. -/
inductive UploadAct
  | lookup
  | replay
  | preflight
  | put
  /-- The file has its first `n` bytes. -/
  | writeFile (n : ℕ)
  /-- `storage.put` reads the file back. -/
  | verify
  | failPut
  /-- The file is removed; whether that works. -/
  | unlink (done : Bool)
  | read
  /-- The transaction; whether the call is told that it is committed. -/
  | commit (acknowledged : Bool)
  | abort
  /-- The query of the catalog; whether it is answered. -/
  | reconcile (answered : Bool)
  /-- A query, or a call of the storage, throws. -/
  | fail
  | crash
  deriving DecidableEq, Repr

variable (site : UploadSite)

/-- `storage.put` opens the file, for the call `i`. -/
def putObject (i : ℕ) (stores : UploadStores) (input : UploadInput) : UploadStores × UploadPhase :=
  if input.bucket.getD site.bucket ≠ site.bucket ∨ site.maxReadBytes < input.bytes.length then
    (stores, .threw)
  else
    match stores.files site.target with
    | some _ => (stores, .existing 0)
    | none =>
      (stores.setFile site
        (some ⟨createdBytes site.provider input.bytes, stores.db.now, i⟩), .creating)

/-- `readIdempotentUploadObject`, one attempt: it gives up after 40. -/
def readAttempt (stores : UploadStores) (input : UploadInput) (attempt : ℕ) : UploadPhase :=
  match stores.readObject site site.location input.maxBytes
      (some (site.hashing.sha256Hex input.bytes)) with
  | .ok bytes =>
    -- the bucket of the input stands in the place of the one `storage.put` returns
    if input.bucket = none ∨ bytes.length ≠ input.bytes.length then .unverified else .stored false
  | .error .objectTooLarge => .threw
  | .error _ => if attempt + 1 < 40 then .existing (attempt + 1) else .threw

/-- The lookup of `existingDocumentUpload`. -/
def lookupUpload (stores : UploadStores) (input : UploadInput) : UploadPhase :=
  match existingUpload site stores.db with
  | none => .checking
  | some existing =>
    match assertReusable site input existing with
    | .ok () => .replaying existing
    | .error _ => .threw

/-- A step of the call `i`. -/
def stepUpload (i : ℕ) (stores : UploadStores) (input : UploadInput) :
    UploadPhase → UploadAct → UploadStores × UploadPhase
  | .looking, .lookup => (stores, lookupUpload site stores input)
  | .replaying existing, .replay =>
    match stores.readObject site existing.object.location input.maxBytes existing.object.sha256 with
    | .ok _ => (stores, .returned existing.result)
    | .error _ => (stores, .threw)
  | .checking, .preflight =>
    if site.projectId < stores.db.projectCount then (stores, .putting) else (stores, .threw)
  | .putting, .put => putObject site i stores input
  | .creating, .writeFile n => (stores.writeFile site i n input, .creating)
  | .creating, .verify =>
    match stores.readObject site site.location site.maxReadBytes
        (some (site.hashing.sha256Hex input.bytes)) with
    | .ok _ => (stores, .stored true)
    | .error _ => (stores, .unlinking)
  | .creating, .failPut => (stores, .unlinking)
  | .unlinking, .unlink done => (stores.remove site done, .threw)
  | .existing attempt, .read => (stores, readAttempt site stores input attempt)
  | .unverified, .unlink done => (stores.remove site done, .threw)
  | .stored created, .commit acknowledged =>
    match transact site stores.db input with
    | .ok (db, document) =>
      ({ stores with db }, if acknowledged then .returned document else .failed created)
    | .error _ => (stores, .failed created)
  | .stored created, .abort => (stores, .failed created)
  | .failed created, .reconcile answered =>
    if answered ∧ created ∧ ∀ o ∈ stores.db.objects, o.location ≠ site.location then
      (stores, .compensating)
    else (stores, .threw)
  | .compensating, .unlink done => (stores.remove site done, .threw)
  | .looking, .fail | .replaying _, .fail | .checking, .fail | .putting, .fail | .existing _, .fail =>
    (stores, .threw)
  | .returned document, _ => (stores, .returned document)
  | .threw, _ => (stores, .threw)
  | _, .crash => (stores, .crashed)
  | phase, _ => (stores, phase)

/-! ### All calls -/

/-- A call of `quarantineDocument`. -/
structure UploadCall where
  input : UploadInput
  phase : UploadPhase
  deriving DecidableEq, Repr

/-- The stores and the calls so far. -/
structure UploadSys where
  stores : UploadStores
  calls : List UploadCall

/-- A new call, or a step of one. -/
inductive UploadAction
  | call (input : UploadInput)
  | step (i : ℕ) (act : UploadAct)
  deriving DecidableEq, Repr

/-- One action. -/
def UploadSys.step (s : UploadSys) : UploadAction → UploadSys
  | .call input => { s with calls := s.calls ++ [⟨input, .looking⟩] }
  | .step i act =>
    match s.calls[i]? with
    | none => s
    | some c =>
      let (stores, phase) := stepUpload site i s.stores c.input c.phase act
      ⟨stores, s.calls.set i { c with phase }⟩

end ResearchWorkbench.Uploads
