import ResearchWorkbench.Services.Documents

namespace ResearchWorkbench

/-!
# Stored objects and their catalog

What the services do to `storage_objects` outside the document pipeline, statement by statement,
and where the bytes of a row are.

* `StorageTarget`, `StoredFile`, `Files` — the object storage and the files of v0.1;
* `claimDeletionCandidates`, `isFenced`, `markDeleted`, `markDeleteFailed`, `trackedKeys` — the
  catalog functions of `lib/services/orphan-cleanup.ts`;
* `GeneratedArtifactInput`, `assertMatchingArtifact`, `reserveDiscard`, `finishDiscard` —
  `lib/services/generated-artifacts.ts`;
* `reactivateExportObject`, `reserveExportObject`, `finalizeExportObject`, … — the updates of
  `lib/export-storage.ts` on the object of an export.

`NOW()` is the time a transaction has started, which may lie before the time of its statements.
-/

/-! ### Where the bytes are -/

/-- `StorageLocation` of a provider. -/
abbrev StorageLocation := StorageProviderKind × ℕ × ObjectKey

/-- What a cleanup deletes: an object of the storage, or a file of v0.1. -/
inductive StorageTarget
  | object (location : StorageLocation)
  | legacyFile (path : ℕ)
  deriving DecidableEq, Repr

/-- The target with a location, unless a path of v0.1 is recorded. -/
def storageTarget (location : StorageLocation) : Option ℕ → StorageTarget
  | some path => .legacyFile path
  | none => .object location

/-- Where the bytes of a row are. -/
def StorageObjectRow.target (o : StorageObjectRow) : StorageTarget :=
  storageTarget o.location o.legacyStoragePath

/-- A file, with the process that created it. -/
structure StoredFile where
  bytes : Bytes
  lastModified : ℕ
  creator : ℕ
  deriving DecidableEq, Repr

/-- The files at their places. -/
abbrev Files := StorageTarget → Option StoredFile

/-! ### Tracked cleanup -/

/-- `CleanupCandidate`. -/
structure CleanupCandidate where
  id : ℕ
  provider : StorageProviderKind
  location : StorageLocation
  legacyStoragePath : Option ℕ
  deriving DecidableEq, Repr

/-- What the cleanup of a candidate deletes. -/
def CleanupCandidate.target (c : CleanupCandidate) : StorageTarget :=
  storageTarget c.location c.legacyStoragePath

/-- The columns that a claim returns. -/
def StorageObjectRow.candidate (o : StorageObjectRow) : CleanupCandidate :=
  ⟨o.id, o.provider, o.location, o.legacyStoragePath⟩

/-- `OrphanCleanupOptions`, as far as tracked objects go, with the provider of the storage. -/
structure CleanupOptions where
  provider : StorageProviderKind
  hasLegacyStorageRoot : Bool
  objectIds : Option (List ℕ)
  leaseMs : ℕ
  limit : ℕ
  deriving DecidableEq, Repr

/-- The `WHERE` of `claimDeletionCandidates`. -/
def StorageObjectRow.isDeletionCandidate (options : CleanupOptions) (now : ℕ)
    (o : StorageObjectRow) : Bool :=
  o.retentionStatus = .pendingDelete &&
    (match options.objectIds with
      | some ids => decide (o.id ∈ ids)
      | none => o.provider = options.provider || o.legacyStoragePath.isSome) &&
    (match o.cleanupLeaseExpiresAt with
      | none => true
      | some t => decide (t ≤ now))

/-- `claimDeletionCandidates(input)`; `chosen` are the rows that its order and its limit pick among
    those that no transaction has locked. -/
def claimDeletionCandidates (options : CleanupOptions) (owner now : ℕ) (chosen : List ℕ)
    (objects : List StorageObjectRow) : List CleanupCandidate × List StorageObjectRow :=
  let p := fun (o : StorageObjectRow) => decide (o.id ∈ chosen) && o.isDeletionCandidate options now
  ((objects.filter p).map (·.candidate),
    updateObjects p (fun o => { o with
      cleanupLeaseOwner := some owner, cleanupLeaseExpiresAt := some (now + options.leaseMs),
      deleteAttempts := o.deleteAttempts + 1 }) objects)

/-- The row is claimed by the owner and waits for its deletion. -/
def StorageObjectRow.isClaimed (id owner : ℕ) (o : StorageObjectRow) : Bool :=
  o.id = id && o.cleanupLeaseOwner = some owner && o.retentionStatus = .pendingDelete

/-- The `SELECT … FOR UPDATE` of `deleteClaimed`, at the time `clock_timestamp()`. -/
def StorageObjectRow.isFenced (id owner clock : ℕ) (o : StorageObjectRow) : Bool :=
  o.isClaimed id owner &&
    (match o.cleanupLeaseExpiresAt with
      | none => false
      | some t => decide (clock < t))

/-- The `UPDATE` of `deleteClaimed`; `none` if it changes no row. -/
def markDeleted (id owner : ℕ) (objects : List StorageObjectRow) :
    Option (List StorageObjectRow) :=
  if objects.any (·.isClaimed id owner) then
    some (updateObjects (·.isClaimed id owner) (fun o => { o with
      retentionStatus := .deleted, uploadStatus := .deleted, cleanupLeaseOwner := none,
      cleanupLeaseExpiresAt := none }) objects)
  else none

/-- `markDeleteFailed(id, owner, …)`. -/
def markDeleteFailed (id owner : ℕ) (objects : List StorageObjectRow) : List StorageObjectRow :=
  updateObjects (·.isClaimed id owner)
    (fun o => { o with cleanupLeaseOwner := none, cleanupLeaseExpiresAt := none }) objects

/-- `trackedKeys(input)`: which of the places are catalogued. -/
def trackedKeys (objects : List StorageObjectRow) (places : List StorageLocation) :
    List StorageLocation :=
  places.filter fun location =>
    objects.any fun o => o.location = location && o.retentionStatus ≠ .deleted

/-! ### Generated artifacts -/

/-- The input of `persistGeneratedArtifact`, with the id that `artifactObjectId` makes. -/
structure GeneratedArtifactInput where
  provider : StorageProviderKind
  bucket : ℕ
  category : ObjectCategory
  objectId : ℕ
  contentType : ContentType
  bytes : Bytes
  projectId : Option ℕ
  sourceId : Option ℕ
  maxBytes : ℕ
  deriving DecidableEq, Repr

/-- The row of a generated artifact. -/
def GeneratedArtifactInput.objectRow (input : GeneratedArtifactInput) (hashing : Hashing) :
    StorageObjectRow where
  id := input.objectId
  provider := input.provider
  bucket := input.bucket
  objectKey := createObjectKey input.category input.objectId
  contentType := input.contentType
  byteSize := some input.bytes.length
  sha256 := some (hashing.sha256Hex input.bytes)
  integrityStatus := .verified
  uploadStatus := .available
  projectId := input.projectId
  sourceId := input.sourceId

/-- `assertMatchingArtifact(row, expected)`. -/
def assertMatchingArtifact (row expected : StorageObjectRow) : Except ServiceError Unit :=
  ensure (row.provider = expected.provider ∧ row.bucket = expected.bucket ∧
      row.objectKey = expected.objectKey ∧ row.contentType = expected.contentType ∧
      row.byteSize = expected.byteSize ∧ row.sha256 = expected.sha256 ∧
      row.uploadStatus = .available ∧ row.integrityStatus = .verified ∧
      row.retentionStatus = .active)
    (conflict .GENERATED_ARTIFACT_CONFLICT
      "The generated artifact identity was already used for different content.")

/-- `GeneratedArtifactReference`, as far as `discardGeneratedArtifact` reads it. -/
structure GeneratedArtifactReference where
  objectId : ℕ
  provider : StorageProviderKind
  bucket : ℕ
  key : ObjectKey
  sha256 : ℕ
  deriving DecidableEq, Repr

/-- What `discardGeneratedArtifact` deletes. -/
def GeneratedArtifactReference.target (reference : GeneratedArtifactReference) : StorageTarget :=
  .object (reference.provider, reference.bucket, reference.key)

/-- The transaction of `discardGeneratedArtifact`; `none` if there is nothing to delete. -/
def reserveDiscard (reference : GeneratedArtifactReference) (objects : List StorageObjectRow) :
    Except ServiceError (Option (List StorageObjectRow)) :=
  match findObject reference.objectId objects with
  | none => return none
  | some row => do
    ensure (row.location = (reference.provider, reference.bucket, reference.key) ∧
        row.sha256 = some reference.sha256)
      (conflict .GENERATED_ARTIFACT_CONFLICT
        "Generated artifact cleanup metadata does not match the catalog.")
    ensure (row.retentionStatus ≠ .legalHold)
      (conflict .GENERATED_ARTIFACT_LEGAL_HOLD "The generated artifact is under legal hold.")
    if row.retentionStatus = .deleted then return none
    else
      return some (updateObjects (·.id = reference.objectId) (fun o => { o with
        retentionStatus := .pendingDelete, cleanupLeaseOwner := none,
        cleanupLeaseExpiresAt := none }) objects)

/-- A discard that deletes something is of the row with this location, which waits for its deletion
    from now on. -/
theorem reserveDiscard_eq_ok {reference : GeneratedArtifactReference}
    {objects objects' : List StorageObjectRow}
    (h : reserveDiscard reference objects = .ok (some objects')) :
    (∃ row, findObject reference.objectId objects = some row ∧
      row.location = (reference.provider, reference.bucket, reference.key) ∧
      row.retentionStatus ≠ .legalHold ∧ row.retentionStatus ≠ .deleted) ∧
    objects' = updateObjects (·.id = reference.objectId) (fun o => { o with
      retentionStatus := .pendingDelete, cleanupLeaseOwner := none,
      cleanupLeaseExpiresAt := none }) objects := by
  unfold reserveDiscard at h
  split at h
  · cases pure_eq_ok.mp h
  · rename_i row hfind
    simp only [bind_eq_ok, ensure_eq_ok] at h
    obtain ⟨_, ⟨hlocation, _⟩, _, hhold, h⟩ := h
    split at h
    · cases pure_eq_ok.mp h
    · exact ⟨⟨row, hfind, hlocation, hhold, ‹_›⟩, (Option.some.inj (pure_eq_ok.mp h)).symm⟩

/-- The last `UPDATE` of `discardGeneratedArtifact`. -/
def finishDiscard (id : ℕ) (objects : List StorageObjectRow) : List StorageObjectRow :=
  updateObjects (fun o => o.id = id && o.retentionStatus = .pendingDelete)
    (fun o => { o with retentionStatus := .deleted, uploadStatus := .deleted }) objects

/-! ### Exports -/

/-- `cleanup_lease_current`. -/
def StorageObjectRow.isLeaseCurrent (now : ℕ) (o : StorageObjectRow) : Bool :=
  match o.cleanupLeaseExpiresAt with
  | none => false
  | some t => decide (now < t)

/-- The error of an export whose object is being cleaned up. -/
def exportCleanupBusy : ServiceError :=
  conflict .EXPORT_CLEANUP_BUSY
    "The prior export object is currently being cleaned up. Retry after cleanup finishes."

/-- The rows that the reactivation of `findReusableExport` changes. -/
def StorageObjectRow.isReactivable (id now : ℕ) (o : StorageObjectRow) : Bool :=
  o.id = id && o.retentionStatus ∈ [.active, .pendingDelete] && o.uploadStatus ≠ .deleted &&
    (o.cleanupLeaseOwner.isNone ||
      (match o.cleanupLeaseExpiresAt with
        | none => false
        | some t => decide (t ≤ now)))

/-- The reactivation of `findReusableExport`. -/
def reactivateExportObject (id now : ℕ) (objects : List StorageObjectRow) :
    Except ServiceError (List StorageObjectRow) := do
  ensure (objects.any (·.isReactivable id now)) exportCleanupBusy
  return updateObjects (·.isReactivable id now) (fun o => { o with
    uploadStatus := .available, integrityStatus := .verified, retentionStatus := .active,
    cleanupLeaseOwner := none, cleanupLeaseExpiresAt := none }) objects

/-- `reserveExport` with an earlier export of the same input; `isAvailable` says whether the row of
    the export is current and `AVAILABLE`. -/
def reserveExportObject (id now : ℕ) (contentType : ContentType) (byteSize sha256 : ℕ)
    (isAvailable : Bool) (objects : List StorageObjectRow) :
    Except ServiceError (List StorageObjectRow) :=
  match findObject id objects with
  | none => .ok objects
  | some row => do
    ensure (row.isLeaseCurrent now = false) exportCleanupBusy
    if isAvailable ∧ row.uploadStatus = .available ∧ row.retentionStatus = .active then
      return objects
    else
      return updateObjects (·.id = id) (fun o => { o with
        contentType, byteSize := some byteSize, sha256 := some sha256,
        integrityStatus := .pendingVerification, uploadStatus := .uploading,
        retentionStatus := .active, cleanupLeaseOwner := none, cleanupLeaseExpiresAt := none })
        objects

/-- `reserveExport` without an earlier export. -/
def exportObjectRow (id projectId inputHash : ℕ) (provider : StorageProviderKind) (bucket : ℕ)
    (contentType : ContentType) (byteSize sha256 : ℕ) : StorageObjectRow where
  id := id
  provider := provider
  bucket := bucket
  objectKey := createObjectKey .exports inputHash
  contentType := contentType
  byteSize := some byteSize
  sha256 := some sha256
  integrityStatus := .pendingVerification
  uploadStatus := .uploading
  projectId := some projectId

/-- The export becomes available. -/
def finalizeExportObject (id : ℕ) (objects : List StorageObjectRow) : List StorageObjectRow :=
  updateObjects (·.id = id) (fun o => { o with
    uploadStatus := .available, integrityStatus := .verified, retentionStatus := .active }) objects

/-- The input of the export became stale (`uploadFailed = false`), or its persistence failed
    (`markPersistenceFailure`). -/
def failExportObject (id : ℕ) (uploadFailed : Bool) (objects : List StorageObjectRow) :
    List StorageObjectRow :=
  updateObjects (fun o => o.id = id && o.retentionStatus ∈ [.active, .pendingDelete])
    (fun o => { o with
      uploadStatus := if uploadFailed then .failed else o.uploadStatus,
      retentionStatus := .pendingDelete }) objects

/-- `markMissing(row, reason)`. -/
def markMissing (id : ℕ) (objects : List StorageObjectRow) : List StorageObjectRow :=
  updateObjects (·.id = id)
    (fun o => { o with integrityStatus := .missing, uploadStatus := .failed }) objects

end ResearchWorkbench
