import ResearchWorkbench.Services.StorageObjects

namespace ResearchWorkbench

/-!
# The catalog and the storage under many processes

Everything that writes objects or deletes them, step by step: between any two steps of a process
the others take theirs, and a process may die.

* `ObjectWrite`, `WritePhase`, `stepWrite` — uploads with their compensation, clean sources,
  extraction artifacts and generated artifacts;
* `DiscardPhase`, `stepDiscard` — `discardGeneratedArtifact`;
* `CleanupPhase`, `stepCleanup` — the tracked part of `cleanupOrphanObjects`;
* `SweepPhase`, `stepSweep` — its untracked part;
* `CatalogAct`, `stepCatalog` — deletion requests, legal holds, and what exports do;
* `StorageSys`, `StorageAct`, `StorageSys.step` — the machine.

A row lock is held from its `SELECT … FOR UPDATE` to the end of the transaction; a statement that
needs the row waits for it.  The storage itself creates a file only where there is none, and shows
a file that is still being written.
-/

/-- The clock, the committed rows of `storage_objects`, and the files. -/
structure Stores where
  now : ℕ
  objects : List StorageObjectRow
  files : Files

namespace Stores

/-- `storage.delete(location)`. -/
def delete (stores : Stores) (target : StorageTarget) : Stores :=
  { stores with files := Function.update stores.files target none }

/-- The bytes at a place. -/
def bytesAt (stores : Stores) (target : StorageTarget) : Option Bytes :=
  (stores.files target).map (·.bytes)

end Stores

/-! ### Writes -/

section Write

variable (hashing : Hashing)

/-- The service that writes an object. -/
inductive WriteService
  | upload (input : Documents.QuarantineDocumentInput) (sourceId : ℕ)
  | cleanSource (clean : Documents.PreparedCleanSourceObject) (locked : Documents.LockedDocument)
  | extractionArtifact (artifact : Documents.PreparedExtractionArtifact)
      (locked : Documents.LockedDocument)
  | generatedArtifact (input : GeneratedArtifactInput)

/-- The row it catalogues. -/
def WriteService.row : WriteService → StorageObjectRow
  | .upload input sourceId => input.objectRow hashing sourceId
  | .cleanSource clean locked => clean.objectRow locked
  | .extractionArtifact artifact locked => artifact.objectRow locked
  | .generatedArtifact input => input.objectRow hashing

/-- The statements on `storage_objects` of its transaction. -/
def WriteService.catalog (service : WriteService) (objects : List StorageObjectRow) :
    Except ServiceError (List StorageObjectRow) :=
  match service with
  | .cleanSource clean locked => Documents.catalogCleanSourceObject objects clean locked
  | .extractionArtifact artifact locked => Documents.catalogExtractionArtifact objects artifact locked
  | .upload _ _ | .generatedArtifact _ => insertObject (service.row hashing) objects

/-- An upload under an idempotency key, and every other write, reuses an object that exists. -/
def WriteService.reuses : WriteService → Bool
  | .upload input _ => input.idempotencyKey.isSome
  | _ => true

/-- Whether the service is `quarantineDocument`. -/
def WriteService.isUpload : WriteService → Bool
  | .upload _ _ => true
  | _ => false

/-- A write of bytes, whose row has their size and hash. -/
structure ObjectWrite where
  service : WriteService
  bytes : Bytes
  maxBytes : ℕ
  byteSize_eq : (service.row hashing).byteSize = some bytes.length
  sha256_eq : (service.row hashing).sha256 = some (hashing.sha256Hex bytes)

/-- The row of a write. -/
abbrev ObjectWrite.row (w : ObjectWrite hashing) : StorageObjectRow := w.service.row hashing

/-- Where a write puts its bytes. -/
abbrev ObjectWrite.target (w : ObjectWrite hashing) : StorageTarget := .object w.row.location

/-- What a service is called with. -/
inductive WriteRequest
  | upload (input : Documents.QuarantineDocumentInput) (maxBytes sourceId : ℕ)
  | cleanSource (projectId : ℕ) (snapshot : Documents.LockedDocument) (bytes : Bytes)
      (maxBytes : ℕ)
  | extractionArtifact (projectId extractionId : ℕ) (locked : Documents.LockedDocument)
      (payload : Bytes) (maxBytes : ℕ)
  | generatedArtifact (input : GeneratedArtifactInput)

theorem prepareCleanSourceObject_eq_some {projectId maxBytes : ℕ}
    {snapshot : Documents.LockedDocument} {bytes : Bytes}
    {clean : Documents.PreparedCleanSourceObject}
    (h : Documents.prepareCleanSourceObject hashing projectId snapshot bytes maxBytes = some clean) :
    clean.byteSize = bytes.length ∧ clean.sha256 = hashing.sha256Hex bytes := by
  unfold Documents.prepareCleanSourceObject at h
  split at h
  · cases h
  · cases h
    exact ⟨rfl, rfl⟩

theorem prepareExtractionArtifact_eq_some {projectId extractionId maxBytes : ℕ}
    {locked : Documents.LockedDocument} {payload : Bytes}
    {artifact : Documents.PreparedExtractionArtifact}
    (h : Documents.prepareExtractionArtifact hashing projectId extractionId maxBytes locked payload =
      some artifact) :
    artifact.byteSize = payload.length ∧ artifact.sha256 = hashing.sha256Hex payload := by
  unfold Documents.prepareExtractionArtifact at h
  split at h
  · cases h
  · cases h
    exact ⟨rfl, rfl⟩

/-- What a service does before it touches the storage; `none` where it throws. -/
def WriteRequest.prepare : WriteRequest → Option (ObjectWrite hashing)
  | .upload input maxBytes sourceId =>
    some ⟨.upload input sourceId, input.bytes, maxBytes, rfl, rfl⟩
  | .cleanSource projectId snapshot bytes maxBytes =>
    match h : Documents.prepareCleanSourceObject hashing projectId snapshot bytes maxBytes with
    | some clean =>
      have hclean := prepareCleanSourceObject_eq_some hashing h
      some ⟨.cleanSource clean snapshot, bytes, maxBytes, congrArg some hclean.1,
        congrArg some hclean.2⟩
    | none => none
  | .extractionArtifact projectId extractionId locked payload maxBytes =>
    match h : Documents.prepareExtractionArtifact hashing projectId extractionId maxBytes locked
        payload with
    | some artifact =>
      have hartifact := prepareExtractionArtifact_eq_some hashing h
      some ⟨.extractionArtifact artifact locked, payload, maxBytes, congrArg some hartifact.1,
        congrArg some hartifact.2⟩
    | none => none
  | .generatedArtifact input =>
    if input.bytes = [] ∨ input.maxBytes < input.bytes.length then none
    else some ⟨.generatedArtifact input, input.bytes, input.maxBytes, rfl, rfl⟩

end Write

/-- Where a write is. -/
inductive WritePhase
  /-- `persistGeneratedArtifact`, before its `SELECT … FOR UPDATE`. -/
  | selecting
  /-- `persistGeneratedArtifact` with a matching row, before it reads the object. -/
  | checking
  /-- Before `storage.put`. -/
  | putting
  /-- `storage.put` has created the file. -/
  | creating
  /-- `storage.put` has failed since. -/
  | unlinking
  /-- `OBJECT_EXISTS`: before the object is read. -/
  | existing
  /-- The bytes are verified; whether this write created the file. -/
  | stored (created : Bool)
  /-- An upload found bytes of another length, which it deletes. -/
  | unverified
  /-- The transaction of an upload threw. -/
  | failed (created : Bool)
  /-- The upload found no row: before its `storage.delete`. -/
  | compensating
  deriving DecidableEq, Repr

/-- The next step of a write. -/
inductive WriteAct
  | select
  | put
  /-- The file has its first `n` bytes. -/
  | writeFile (n : ℕ)
  /-- `storage.put` reads the file back. -/
  | verify
  | failPut
  /-- The file is removed; whether that works. -/
  | unlink (done : Bool)
  | read
  /-- The transaction; whether an upload finds the document of an earlier one. -/
  | commit (replay : Bool)
  /-- The transaction throws; whether it is committed all the same. -/
  | failCommit (committed : Bool)
  | queryCatalog
  | compensate (done : Bool)
  deriving DecidableEq, Repr

/-- What a file contains when `storage.put` has created it: an S3 object is whole. -/
def createdBytes (provider : StorageProviderKind) (bytes : Bytes) : Bytes :=
  match provider with
  | .localFiles => []
  | .s3 => bytes

section

variable {hashing : Hashing}

/-- The phase after the bytes were read: an upload compares their length. -/
def ObjectWrite.afterRead (w : ObjectWrite hashing) (created : Bool) (bytes : Bytes) : WritePhase :=
  if w.service.isUpload && bytes.length ≠ w.bytes.length then .unverified else .stored created

/-- `storage.read` of the object of a write, with the expected hash. -/
def ObjectWrite.read (w : ObjectWrite hashing) (stores : Stores) :
    Except Documents.StorageErrorCode Bytes :=
  Documents.storageRead hashing (stores.bytesAt w.target) w.maxBytes
    (some (hashing.sha256Hex w.bytes))

/-- `if (done) await unlink(…)`. -/
def ObjectWrite.remove (w : ObjectWrite hashing) (stores : Stores) (done : Bool) : Stores :=
  if done then stores.delete w.target else stores

/-- `storage.put` opens the file, for the process `i`. -/
def ObjectWrite.put (w : ObjectWrite hashing) (i : ℕ) (stores : Stores) :
    Stores × Option WritePhase :=
  match stores.files w.target with
  | some _ => (stores, if w.service.reuses then some .existing else none)
  | none =>
    ({ stores with
      files := Function.update stores.files w.target
        (some ⟨createdBytes w.row.provider w.bytes, stores.now, i⟩) }, some .creating)

/-- The process `i` writes to the file it has created, if that is still there. -/
def ObjectWrite.writeFile (w : ObjectWrite hashing) (i n : ℕ) (stores : Stores) : Stores :=
  match stores.files w.target with
  | some f =>
    if f.creator = i ∧ f.bytes.length ≤ n ∧ w.row.provider = .localFiles then
      { stores with
        files := Function.update stores.files w.target
          (some { f with bytes := w.bytes.take n, lastModified := stores.now }) }
    else stores
  | none => stores

/-- The transaction of a write that its row does not wait for. -/
def ObjectWrite.commit (w : ObjectWrite hashing) (created replay : Bool) (stores : Stores) :
    Stores × Option WritePhase :=
  if replay && w.service.isUpload && w.service.reuses then (stores, none)
  else
    match w.service.catalog hashing stores.objects with
    | .ok objects => ({ stores with objects }, none)
    | .error _ => (stores, if w.service.isUpload then some (.failed created) else none)

/-- The transaction of a write throws, before or after it is committed. -/
def ObjectWrite.failCommit (w : ObjectWrite hashing) (created committed : Bool) (stores : Stores) :
    Stores × Option WritePhase :=
  let phase := if w.service.isUpload then some (.failed created) else none
  if committed then
    match w.service.catalog hashing stores.objects with
    | .ok objects => ({ stores with objects }, phase)
    | .error _ => (stores, phase)
  else (stores, phase)

/-- A step of the write of process `i`; `none` as its phase after the last one.  `free` says which
    rows no other transaction has locked. -/
def stepWrite (i : ℕ) (free : ℕ → Bool) (stores : Stores) (w : ObjectWrite hashing) :
    WritePhase → WriteAct → Stores × Option WritePhase
  | .selecting, .select =>
    if free w.row.id then
      match findObject w.row.id stores.objects with
      | none => (stores, some .putting)
      | some row =>
        match assertMatchingArtifact row w.row with
        | .ok () => (stores, some .checking)
        | .error _ => (stores, none)
    else (stores, some .selecting)
  | .checking, .read => (stores, none)
  | .putting, .put => w.put i stores
  | .creating, .writeFile n => (w.writeFile i n stores, some .creating)
  | .creating, .verify =>
    match w.read stores with
    | .ok bytes => (stores, some (w.afterRead true bytes))
    | .error _ => (stores, some .unlinking)
  | .creating, .failPut => (stores, some .unlinking)
  | .unlinking, .unlink done => (w.remove stores done, none)
  | .existing, .read =>
    match w.read stores with
    | .ok bytes => (stores, some (w.afterRead false bytes))
    | .error _ => (stores, some .existing)
  | .stored created, .commit replay =>
    if free w.row.id then w.commit created replay stores else (stores, some (.stored created))
  | .stored created, .failCommit committed =>
    if free w.row.id then w.failCommit created committed stores
    else (stores, some (.stored created))
  | .unverified, .compensate done => (w.remove stores done, none)
  | .failed created, .queryCatalog =>
    if created ∧ ∀ o ∈ stores.objects, o.location ≠ w.row.location then (stores, some .compensating)
    else (stores, none)
  | .compensating, .compensate done => (w.remove stores done, none)
  | phase, _ => (stores, some phase)

end

/-! ### Discards -/

/-- Where a discard is. -/
inductive DiscardPhase
  | started
  /-- The row is `PENDING_DELETE`. -/
  | reserved
  | deleted
  deriving DecidableEq, Repr

/-- A step of a discard. -/
def stepDiscard (free : ℕ → Bool) (stores : Stores) (reference : GeneratedArtifactReference) :
    DiscardPhase → Stores × Option DiscardPhase
  | .started =>
    if free reference.objectId then
      match reserveDiscard reference stores.objects with
      | .ok (some objects) => ({ stores with objects }, some .reserved)
      | _ => (stores, none)
    else (stores, some .started)
  | .reserved => (stores.delete reference.target, some .deleted)
  | .deleted =>
    if free reference.objectId then
      ({ stores with objects := finishDiscard reference.objectId stores.objects }, none)
    else (stores, some .deleted)

/-! ### Tracked cleanup -/

/-- Where a cleaner is. -/
inductive CleanupPhase
  /-- Before it claims the next batch. -/
  | ready
  /-- In the loop over the candidates. -/
  | working (candidates : List CleanupCandidate)
  /-- `deleteClaimed` has locked the row of the candidate. -/
  | fenced (candidate : CleanupCandidate) (rest : List CleanupCandidate)
  /-- The object is deleted, and the row still locked. -/
  | deleted (candidate : CleanupCandidate) (rest : List CleanupCandidate)
  /-- `deleteClaimed` threw, after its `ROLLBACK`. -/
  | failing (candidate : CleanupCandidate) (rest : List CleanupCandidate)
  /-- The cleaner was aborted, and gives the claims back. -/
  | interrupted (candidates : List CleanupCandidate)
  deriving DecidableEq, Repr

/-- The next step of a cleaner. -/
inductive CleanupAct
  | claim (started : ℕ) (chosen : List ℕ)
  /-- The `SELECT … FOR UPDATE` of `deleteClaimed`. -/
  | fence
  | delete
  /-- The deletion throws; whether it has removed the object. -/
  | failDelete (removed : Bool)
  /-- The `UPDATE` and the `COMMIT` of `deleteClaimed`; whether the cleaner is told. -/
  | finish (acknowledged : Bool)
  | markDeleteFailed
  | interrupt
  | nextBatch
  deriving DecidableEq, Repr

/-- Whether the deletion of a candidate gets as far as the storage. -/
def CleanupOptions.canDelete (options : CleanupOptions) (c : CleanupCandidate) : Bool :=
  match c.legacyStoragePath with
  | some _ => options.hasLegacyStorageRoot
  | none => c.provider = options.provider

/-- A step of the cleaner whose owner is `owner`. -/
def stepCleanup (free : ℕ → Bool) (stores : Stores) (owner : ℕ) (options : CleanupOptions) :
    CleanupPhase → CleanupAct → Stores × CleanupPhase
  | .ready, .claim started chosen =>
    if started ≤ stores.now ∧ chosen.length ≤ options.limit ∧ chosen.all free then
      let (candidates, objects) :=
        claimDeletionCandidates options owner started chosen stores.objects
      ({ stores with objects }, .working candidates)
    else (stores, .ready)
  | .working (c :: rest), .fence =>
    if free c.id then
      if stores.objects.any (·.isFenced c.id owner stores.now) then (stores, .fenced c rest)
      else (stores, .working rest)
    else (stores, .working (c :: rest))
  | .fenced c rest, .delete =>
    if options.canDelete c then (stores.delete c.target, .deleted c rest)
    else (stores, .failing c rest)
  | .fenced c rest, .failDelete removed =>
    (if removed && options.canDelete c then stores.delete c.target else stores, .failing c rest)
  | .deleted c rest, .failDelete _ => (stores, .failing c rest)
  | .deleted c rest, .finish acknowledged =>
    match markDeleted c.id owner stores.objects with
    | some objects =>
      ({ stores with objects }, if acknowledged then .working rest else .failing c rest)
    | none => (stores, .failing c rest)
  | .failing c rest, .markDeleteFailed =>
    if free c.id then
      ({ stores with objects := markDeleteFailed c.id owner stores.objects }, .working rest)
    else (stores, .failing c rest)
  | .working candidates, .interrupt => (stores, .interrupted candidates)
  | .interrupted (c :: rest), .markDeleteFailed =>
    if free c.id then
      ({ stores with objects := markDeleteFailed c.id owner stores.objects }, .interrupted rest)
    else (stores, .interrupted (c :: rest))
  | .working [], .nextBatch => (stores, .ready)
  | phase, _ => (stores, phase)

/-! ### Untracked sweeps -/

/-- `OrphanCleanupOptions`, as far as untracked objects go, with the time the call has started. -/
structure SweepOptions where
  provider : StorageProviderKind
  bucket : ℕ
  graceMs : ℕ
  limit : ℕ
  startedAt : ℕ
  deriving DecidableEq, Repr

/-- Where a sweep is: it lists a page (each place with its last modification), or has looked up
    which places are tracked. -/
inductive SweepPhase
  | listing (page : List (StorageLocation × ℕ))
  | checked (page : List (StorageLocation × ℕ)) (tracked : List StorageLocation)
  deriving DecidableEq, Repr

/-- The next step of a sweep. -/
inductive SweepAct
  | list (location : StorageLocation)
  | checkTracked
  /-- The next object of the page. -/
  | next
  | nextPage
  deriving DecidableEq, Repr

/-- `oldEnough(object, cutoffMs)`. -/
def oldEnough (options : SweepOptions) (lastModified : ℕ) : Bool :=
  lastModified + options.graceMs ≤ options.startedAt

/-- A step of a sweep. -/
def stepSweep (stores : Stores) (options : SweepOptions) :
    SweepPhase → SweepAct → Stores × SweepPhase
  | .listing page, .list location =>
    match stores.files (.object location) with
    | some f =>
      if location.1 = options.provider ∧ location.2.1 = options.bucket ∧
          page.length < options.limit then
        (stores, .listing (page ++ [(location, f.lastModified)]))
      else (stores, .listing page)
    | none => (stores, .listing page)
  | .listing page, .checkTracked =>
    (stores, .checked page (trackedKeys stores.objects (page.map (·.1))))
  | .checked ((location, lastModified) :: page) tracked, .next =>
    if location ∈ tracked then (stores, .checked page tracked)
    else if oldEnough options lastModified then
      (stores.delete (.object location), .checked page tracked)
    else (stores, .checked page tracked)
  | .checked [] _, .nextPage => (stores, .listing [])
  | phase, _ => (stores, phase)

/-! ### Other transactions on the catalog -/

/-- A transaction that needs no other step to be seen, and the write of an export. -/
inductive CatalogAct
  /-- `deleteDocument` or `deleteProject` hand the rows over to cleanup. -/
  | requestDeletion (ids : List ℕ)
  /-- Columns that a scan or an extraction sets. -/
  | annotate (id : ℕ) (scanStatus : MalwareScanStatus) (extractionStatus : ExtractionStatus)
      (sourceId : Option ℕ)
  /-- The operator sets a legal hold, on a row that is not `DELETED`. -/
  | setLegalHold (id : ℕ)
  | releaseLegalHold (id : ℕ)
  | reactivateExport (id started : ℕ)
  | reserveExport (id started : ℕ) (contentType : ContentType) (byteSize sha256 : ℕ)
      (isAvailable : Bool)
  | insertExport (id projectId inputHash : ℕ) (provider : StorageProviderKind) (bucket : ℕ)
      (contentType : ContentType) (byteSize sha256 : ℕ)
  | finalizeExport (id : ℕ)
  | failExport (id : ℕ) (uploadFailed : Bool)
  | markMissing (id : ℕ)
  | putExport (location : StorageLocation) (bytes : Bytes)
  deriving DecidableEq

/-- The rows a transaction needs. -/
def CatalogAct.ids : CatalogAct → List ℕ
  | .requestDeletion ids => ids
  | .annotate id .. | .setLegalHold id | .releaseLegalHold id | .reactivateExport id _
  | .reserveExport id .. | .insertExport id .. | .finalizeExport id | .failExport id _
  | .markMissing id => [id]
  | .putExport .. => []

/-- The rows after a transaction; an error rolls it back. -/
def orElse (objects : List StorageObjectRow) (t : Except ServiceError (List StorageObjectRow)) :
    List StorageObjectRow :=
  match t with
  | .ok objects => objects
  | .error _ => objects

/-- The catalog after a transaction. -/
def CatalogAct.objects (now : ℕ) (objects : List StorageObjectRow) :
    CatalogAct → List StorageObjectRow
  | .requestDeletion ids => Documents.requestDeletion (fun o => o.id ∈ ids) objects
  | .annotate id scanStatus extractionStatus sourceId =>
    updateObjects (·.id = id) (fun o => { o with scanStatus, extractionStatus, sourceId }) objects
  | .setLegalHold id =>
    updateObjects (fun o => o.id = id && o.retentionStatus ≠ .deleted)
      (fun o => { o with retentionStatus := .legalHold }) objects
  | .releaseLegalHold id =>
    updateObjects (fun o => o.id = id && o.retentionStatus = .legalHold)
      (fun o => { o with retentionStatus := .active }) objects
  | .reactivateExport id started =>
    if started ≤ now then orElse objects (reactivateExportObject id started objects) else objects
  | .reserveExport id started contentType byteSize sha256 isAvailable =>
    if started ≤ now then
      orElse objects
        (reserveExportObject id started contentType byteSize sha256 isAvailable objects)
    else objects
  | .insertExport id projectId inputHash provider bucket contentType byteSize sha256 =>
    orElse objects (insertObject
      (exportObjectRow id projectId inputHash provider bucket contentType byteSize sha256) objects)
  | .finalizeExport id => finalizeExportObject id objects
  | .failExport id uploadFailed => failExportObject id uploadFailed objects
  | .markMissing id => ResearchWorkbench.markMissing id objects
  | .putExport .. => objects

/-- A transaction on the catalog, which waits for the rows it needs; `i` is nobody's position. -/
def stepCatalog (i : ℕ) (free : ℕ → Bool) (stores : Stores) (a : CatalogAct) : Stores :=
  match a with
  | .putExport location bytes =>
    if (stores.files (.object location)).isNone then
      { stores with
        files := Function.update stores.files (.object location) (some ⟨bytes, stores.now, i⟩) }
    else stores
  | a =>
    if a.ids.all free then { stores with objects := a.objects stores.now stores.objects } else stores

/-! ### The machine -/

section

variable {hashing : Hashing}

/-- A process; the owner of a cleaner is its position. -/
inductive StorageProcess (hashing : Hashing)
  | write (w : ObjectWrite hashing) (phase : WritePhase)
  | discard (reference : GeneratedArtifactReference) (phase : DiscardPhase)
  | cleanup (options : CleanupOptions) (phase : CleanupPhase)
  | sweep (options : SweepOptions) (phase : SweepPhase)
  | ended

/-- The row that a process has locked. -/
def StorageProcess.rowLock : StorageProcess hashing → Option ℕ
  | .write w .checking => some w.row.id
  | .cleanup _ (.fenced c _) | .cleanup _ (.deleted c _) => some c.id
  | _ => none

/-- The advisory lock `generated-artifact:<objectId>` that a process holds. -/
def StorageProcess.advisoryLock : StorageProcess hashing → Option ℕ
  | .write w _ =>
    match w.service with
    | .generatedArtifact input => some input.objectId
    | _ => none
  | .discard reference _ => some reference.objectId
  | _ => none

/-- A process in its next phase, or after its last one. -/
def orEnded {α : Type} (process : α → StorageProcess hashing) : Option α → StorageProcess hashing
  | some phase => process phase
  | none => .ended

/-- The clock, the catalog, the files, and the processes. -/
structure StorageSys (hashing : Hashing) extends Stores where
  processes : List (StorageProcess hashing)

/-- What may happen next. -/
inductive StorageAct
  | tick (ms : ℕ)
  | startWrite (request : WriteRequest)
  | startDiscard (reference : GeneratedArtifactReference)
  | startCleanup (options : CleanupOptions)
  | startSweep (provider : StorageProviderKind) (bucket graceMs limit : ℕ)
  | write (i : ℕ) (a : WriteAct)
  | discard (i : ℕ)
  | cleanup (i : ℕ) (a : CleanupAct)
  | sweep (i : ℕ) (a : SweepAct)
  | catalog (a : CatalogAct)
  /-- The process dies, or ends with an error. -/
  | crash (i : ℕ)

namespace StorageSys

/-- No process but `i` has locked the row. -/
def isFree (s : StorageSys hashing) (i id : ℕ) : Bool :=
  (List.range s.processes.length).all fun j =>
    j = i || (s.processes[j]?.bind (·.rowLock)) ≠ some id

/-- No process holds the advisory lock. -/
def isUnlocked (s : StorageSys hashing) (lock : Option ℕ) : Bool :=
  lock.isNone || s.processes.all fun p => p.advisoryLock ≠ lock

/-- A process starts, once its advisory lock is free. -/
def start (s : StorageSys hashing) (p : StorageProcess hashing) : StorageSys hashing :=
  if s.isUnlocked p.advisoryLock then { s with processes := s.processes ++ [p] } else s

/-- The process `i` goes on, or has ended. -/
def update (s : StorageSys hashing) (i : ℕ) (stores : Stores) (p : StorageProcess hashing) :
    StorageSys hashing :=
  { stores with processes := s.processes.set i p }

/-- The first phase of a write. -/
def firstPhase : WriteService → WritePhase
  | .generatedArtifact _ => .selecting
  | _ => .putting

/-- The least grace period and the limits of `cleanupOrphanObjects`. -/
def validSweep (graceMs limit : ℕ) : Bool := 60000 ≤ graceMs && 1 ≤ limit && limit ≤ 1000

/-- One step. -/
def step (s : StorageSys hashing) : StorageAct → StorageSys hashing
  | .tick ms => { s with now := s.now + ms }
  | .startWrite request =>
    match request.prepare hashing with
    | some w => s.start (.write w (firstPhase w.service))
    | none => s
  | .startDiscard reference => s.start (.discard reference .started)
  | .startCleanup options =>
    if 1000 ≤ options.leaseMs ∧ 1 ≤ options.limit ∧ options.limit ≤ 1000 then
      s.start (.cleanup options .ready)
    else s
  | .startSweep provider bucket graceMs limit =>
    if validSweep graceMs limit then
      s.start (.sweep ⟨provider, bucket, graceMs, limit, s.now⟩ (.listing []))
    else s
  | .write i a =>
    match s.processes[i]? with
    | some (.write w phase) =>
      let (stores, phase) := stepWrite i (s.isFree i) s.toStores w phase a
      s.update i stores (orEnded (.write w) phase)
    | _ => s
  | .discard i =>
    match s.processes[i]? with
    | some (.discard reference phase) =>
      let (stores, phase) := stepDiscard (s.isFree i) s.toStores reference phase
      s.update i stores (orEnded (.discard reference) phase)
    | _ => s
  | .cleanup i a =>
    match s.processes[i]? with
    | some (.cleanup options phase) =>
      let (stores, phase) := stepCleanup (s.isFree i) s.toStores i options phase a
      s.update i stores (.cleanup options phase)
    | _ => s
  | .sweep i a =>
    match s.processes[i]? with
    | some (.sweep options phase) =>
      let (stores, phase) := stepSweep s.toStores options phase a
      s.update i stores (.sweep options phase)
    | _ => s
  | .catalog a =>
    { stepCatalog s.processes.length (s.isFree s.processes.length) s.toStores a with
      processes := s.processes }
  | .crash i => s.update i s.toStores .ended

end StorageSys

/-- The catalog that the migration from v0.1 leaves behind: a row for every file of v0.1, none of
    them touched by a cleanup yet. -/
structure LegacyCatalog where
  rows : List StorageObjectRow
  files : ℕ → Option StoredFile
  now : ℕ
  ids_nodup : (rows.map (·.id)).Nodup
  locations_nodup : (rows.map (·.location)).Nodup
  paths_nodup : (rows.map (·.legacyStoragePath)).Nodup
  migrated : ∀ o ∈ rows, o.legacyStoragePath.isSome ∧ o.retentionStatus = .active

/-- The first state: nothing is stored yet but the files of v0.1. -/
def StorageSys.initial (catalog : LegacyCatalog) : StorageSys hashing where
  now := catalog.now
  objects := catalog.rows
  files
    | .object _ => none
    | .legacyFile path => catalog.files path
  processes := []

end

end ResearchWorkbench
