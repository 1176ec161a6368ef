import ResearchWorkbench.Domain.Documents

namespace ResearchWorkbench

/-!
# The tables of the document pipeline

`storage_objects` and the tables that documents, their scans and their extractions live in
(`migrations/006_document_storage.sql`), with the columns the modelled functions read.

* `StorageObjectRow`, `findObject`, `updateObjects`, `insertObject` — the catalog of stored
  objects, whose ids and whose locations are unique;
* `Documents.DocumentRow`, `Documents.ScanResultRow`, `Documents.ExtractionRow`,
  `Documents.SourceRow`, `Documents.JobRow` — rows whose ids are their positions;
* `Documents.Tables` — all of them, with the clock.
-/

/-! ### The catalog of stored objects -/

/-- A row of `storage_objects`. -/
structure StorageObjectRow where
  id : ℕ
  provider : StorageProviderKind
  bucket : ℕ
  objectKey : ObjectKey
  contentType : ContentType
  byteSize : Option ℕ
  sha256 : Option ℕ
  integrityStatus : IntegrityStatus
  uploadStatus : UploadStatus
  scanStatus : MalwareScanStatus := .unscanned
  extractionStatus : ExtractionStatus := .notRequested
  retentionStatus : RetentionStatus := .active
  projectId : Option ℕ
  sourceId : Option ℕ := none
  legacyStoragePath : Option ℕ := none
  deleteAttempts : ℕ := 0
  cleanupLeaseOwner : Option ℕ := none
  cleanupLeaseExpiresAt : Option ℕ := none
  deriving DecidableEq, Repr

/-- The columns of the index `UNIQUE (provider, bucket, object_key)`. -/
def StorageObjectRow.location (o : StorageObjectRow) : StorageProviderKind × ℕ × ObjectKey :=
  (o.provider, o.bucket, o.objectKey)

/-- `SELECT … FROM storage_objects WHERE id = $1`. -/
def findObject (id : ℕ) (objects : List StorageObjectRow) : Option StorageObjectRow :=
  objects.find? (·.id = id)

/-- `UPDATE storage_objects … WHERE p`. -/
def updateObjects (p : StorageObjectRow → Bool) (f : StorageObjectRow → StorageObjectRow)
    (objects : List StorageObjectRow) : List StorageObjectRow :=
  objects.map fun o => if p o then f o else o

/-- `INSERT INTO storage_objects`. -/
def insertObject (row : StorageObjectRow) (objects : List StorageObjectRow) :
    Except ServiceError (List StorageObjectRow) := do
  ensure (∀ o ∈ objects, o.id ≠ row.id) (.constraint "storage_objects_pkey")
  ensure (∀ o ∈ objects, o.location ≠ row.location)
    (.constraint "storage_objects_provider_bucket_object_key_key")
  return objects ++ [row]

/-- `INSERT INTO storage_objects … ON CONFLICT (id) DO NOTHING`. -/
def insertObjectIfNew (row : StorageObjectRow) (objects : List StorageObjectRow) :
    Except ServiceError (List StorageObjectRow) :=
  if ∃ o ∈ objects, o.id = row.id then return objects else insertObject row objects

section
variable {objects objects' : List StorageObjectRow} {row o : StorageObjectRow} {id : ℕ}
  {p : StorageObjectRow → Bool} {f : StorageObjectRow → StorageObjectRow}

theorem findObject_eq_some (h : findObject id objects = some o) : o ∈ objects ∧ o.id = id :=
  ⟨List.mem_of_find?_eq_some h, by simpa using List.find?_some h⟩

/-- An update that keeps the ids updates the row that is found. -/
theorem findObject_updateObjects (hf : ∀ o, (f o).id = o.id) :
    findObject id (updateObjects p f objects) =
      (findObject id objects).map fun o => if p o then f o else o := by
  have hid (o : StorageObjectRow) : (if p o then f o else o).id = o.id := by
    split
    · exact hf o
    · rfl
  simp only [findObject, updateObjects, List.find?_map, Function.comp_def, hid]

theorem insertObject_eq_ok (h : insertObject row objects = .ok objects') :
    (∀ o ∈ objects, o.id ≠ row.id) ∧ (∀ o ∈ objects, o.location ≠ row.location) ∧
      objects' = objects ++ [row] := by
  simp only [insertObject, bind_eq_ok, ensure_eq_ok, pure_eq_ok] at h
  obtain ⟨_, hid, _, hlocation, rfl⟩ := h
  exact ⟨hid, hlocation, rfl⟩

/-- An insertion adds at most one row, of a new id and a new location. -/
theorem insertObjectIfNew_eq_ok (h : insertObjectIfNew row objects = .ok objects') :
    objects' = objects ∨ (∀ o ∈ objects, o.id ≠ row.id) ∧
      (∀ o ∈ objects, o.location ≠ row.location) ∧ objects' = objects ++ [row] := by
  unfold insertObjectIfNew at h
  split at h
  · exact .inl (pure_eq_ok.mp h).symm
  · exact .inr (insertObject_eq_ok h)

/-- Rows that are found stay found when others are added. -/
theorem findObject_append (h : findObject id objects = some o) (added : List StorageObjectRow) :
    findObject id (objects ++ added) = some o := by
  simp only [findObject] at h ⊢
  rw [List.find?_append, h]
  rfl

end

/-! ### Documents -/

namespace Documents

/-- The text of a source, and — for the proofs only, no function reads it — the document and the
    very bytes it was extracted from. -/
structure SourceText where
  text : String
  extractedFrom : Option (ℕ × Bytes)
  deriving DecidableEq, Repr

/-- A row of `sources`. -/
structure SourceRow where
  projectId : ℕ
  sanitizedContent : Option SourceText
  storageObjectId : Option ℕ
  reusedFromSourceId : Option ℕ
  deriving DecidableEq, Repr

/-- A row of `documents`. -/
structure DocumentRow where
  projectId : ℕ
  sourceId : Option ℕ
  rawObjectId : ℕ
  status : DocumentStatus
  scanBypassed : Bool
  currentExtractionId : Option ℕ
  uploadIdempotencyKey : Option ℕ
  uploadInputHash : Option ℕ
  deriving DecidableEq, Repr

/-- A row of `document_scan_results`. -/
structure ScanResultRow where
  documentId : ℕ
  objectId : ℕ
  objectSha256 : ℕ
  result : MalwareScanStatus
  byteSize : ℕ
  deriving DecidableEq, Repr

/-- The statuses of `document_extractions`. -/
inductive ExtractionRowStatus
  | succeeded | failed | ocrRequiredUnsupported
  deriving DecidableEq, Repr

/-- A row of `document_extractions`. -/
structure ExtractionRow where
  documentId : ℕ
  objectId : ℕ
  version : ℕ
  status : ExtractionRowStatus
  deriving DecidableEq, Repr

/-- `DOCUMENT_JOB_TYPES`, and the job types that are no document's. -/
inductive JobType
  | documentScan | documentExtract | other
  deriving DecidableEq, Repr

/-- The columns of a row of `jobs` that the document services read. -/
structure JobRow where
  projectId : Option ℕ
  jobType : JobType
  documentId : Option ℕ
  status : JobStatus
  leaseOwner : Option ℕ
  attempts : ℕ
  version : ℕ
  leaseExpiresAt : Option ℕ
  deriving DecidableEq, Repr

/-- The clock and the tables. -/
structure Tables where
  now : ℕ
  projectCount : ℕ
  jobs : List JobRow
  objects : List StorageObjectRow
  sources : List SourceRow
  documents : List DocumentRow
  scanResults : List ScanResultRow
  extractions : List ExtractionRow

/-- `UPDATE documents … WHERE id = documentId`. -/
@[simps] def Tables.updateDocument (db : Tables) (documentId : ℕ)
    (f : DocumentRow → DocumentRow) : Tables :=
  { db with documents := db.documents.modify documentId f }

/-- `UPDATE storage_objects … WHERE id = objectId`. -/
@[simps] def Tables.updateObject (db : Tables) (objectId : ℕ)
    (f : StorageObjectRow → StorageObjectRow) : Tables :=
  { db with objects := updateObjects (·.id = objectId) f db.objects }

/-- `UPDATE sources … WHERE id = sourceId`. -/
@[simps] def Tables.updateSource (db : Tables) (sourceId : ℕ) (f : SourceRow → SourceRow) :
    Tables :=
  { db with sources := db.sources.modify sourceId f }

/-- The empty tables. -/
def Tables.initial : Tables := ⟨0, 0, [], [], [], [], [], []⟩

end Documents

end ResearchWorkbench
