import ResearchWorkbench.Services.Documents
import ResearchWorkbench.Services.JobEffects

namespace ResearchWorkbench

open Documents (DocumentJobFence LockedDocument Moment Tables)

/-!
# Jobs of documents

The transactions of `lib/services/document-jobs.ts`, and what `deleteDocument` does to jobs.

* `JobRow.toDocuments`, `Tables.withQueue` — the queue as the document services see it;
* `existingIdempotentJob`, `assertNoActiveDocumentJob` — what stands against a submission;
* `enqueueDocumentScan`, `enqueueDocumentExtraction` — the submissions;
* `deleteDocumentJobs` — the jobs that a deletion cancels, and the one that it submits.

The tables of documents and of jobs are those of one database; the tables of documents are passed
with the queue's jobs in them.  `requestKey` only checks the form of a caller's key.
-/

variable {δ : Type}

/-! ### The queue in the tables of documents -/

/-- `input_reference ->> 'documentId'`. -/
def InputReference.documentId : InputReference → Option ℕ
  | .documentScan documentId _ _ => some documentId
  | .documentExtract documentId _ _ => some documentId
  | _ => none

/-- `inputRecord(job).autoExtract`. -/
def InputReference.autoExtract : InputReference → Option Bool
  | .documentScan _ _ autoExtract => some autoExtract
  | _ => none

/-- The types of `DOCUMENT_JOB_TYPES` that scan and extract. -/
def JobType.toDocuments : JobType → Documents.JobType
  | .documentScan => .documentScan
  | .documentExtract => .documentExtract
  | _ => .other

/-- The columns that the document services read. -/
def JobRow.toDocuments (job : JobRow) : Documents.JobRow where
  projectId := job.projectId
  jobType := job.jobType.toDocuments
  documentId := job.inputReference.documentId
  status := job.status
  leaseOwner := job.leaseOwner
  attempts := job.attempts
  version := job.version
  leaseExpiresAt := job.leaseExpiresAt

/-- The tables of documents with the clock, the projects and the jobs of the queue. -/
def Documents.Tables.withQueue (docs : Tables) (db : Db δ) : Tables :=
  { docs with
    now := db.now
    projectCount := db.projects.length
    jobs := db.jobs.map (·.toDocuments) }

/-! ### Submissions -/

/-- `existingIdempotentJob(client, projectId, idempotencyKey, jobType, documentId, autoExtract)`. -/
def existingIdempotentJob (db : Db δ) (projectId : ℕ) (idempotencyKey : JobKey)
    (jobType : JobType) (documentId : ℕ) (autoExtract : Option Bool) :
    Except ServiceError (Option ℕ) :=
  match jobByKey db (some projectId) idempotencyKey with
  | none => return none
  | some (jobId, job) => do
    ensure (job.jobType = jobType ∧ job.inputReference.documentId = some documentId ∧
        (autoExtract.isSome → job.inputReference.autoExtract = autoExtract))
      (conflict .IDEMPOTENCY_KEY_REUSED
        "The idempotency key is already associated with different document work.")
    return some jobId

/-- The job is of the given type and document, and `ACTIVE_JOB_STATUSES` contains its status. -/
def JobRow.isActiveDocumentJob (projectId documentId : ℕ) (jobType : JobType) (job : JobRow) :
    Bool :=
  job.projectId = some projectId && job.jobType = jobType &&
    job.inputReference.documentId = some documentId &&
    job.status ∈ [.queued, .claimed, .running, .retryWait, .cancellationRequested]

/-- `assertNoActiveDocumentJob(client, projectId, documentId, jobType)`. -/
def assertNoActiveDocumentJob (db : Db δ) (projectId documentId : ℕ) (jobType : JobType) :
    Except ServiceError Unit :=
  ensure (∀ job ∈ db.jobs, ¬ job.isActiveDocumentJob projectId documentId jobType)
    (conflict .DOCUMENT_JOB_ACTIVE "A document job of this type is already active.")

/-- The arguments of `enqueueDocumentScan`. -/
structure DocumentScanJobInput where
  projectId : ℕ
  documentId : ℕ
  idempotencyKey : ℕ
  autoExtract : Bool := true
  parentJobId : Option ℕ := none

/-- `enqueueDocumentScan(input)`. -/
def enqueueDocumentScan (db : Db δ) (docs : Tables) (input : DocumentScanJobInput) :
    Except ServiceError (SubmittedJob δ) := do
  let key := JobKey.documentScan input.documentId input.idempotencyKey
  Documents.lockProject docs input.projectId
  match ← existingIdempotentJob db input.projectId key .documentScan input.documentId
      (some input.autoExtract) with
  | some jobId => return { jobId, created := false, db }
  | none =>
    assertNoActiveDocumentJob db input.projectId input.documentId .documentScan
    let locked ← Documents.lockDocument docs input.projectId input.documentId
    ensure (locked.document.status ∈ [.quarantined, .blockedScannerUnavailable, .scanning])
      (conflict .DOCUMENT_NOT_SCANNABLE "Document is not waiting for a malware scan.")
    let sha256 ← require locked.object.sha256
      (conflict .DOCUMENT_INTEGRITY_PENDING "Document integrity metadata is unavailable.")
    submitJobInTransaction db
      { projectId := some input.projectId
        jobType := .documentScan
        inputReference := .documentScan input.documentId sha256 input.autoExtract
        idempotencyKey := key
        parentJobId := input.parentJobId
        priority := 20 }

/-- The arguments of `enqueueDocumentExtraction`. -/
structure DocumentExtractionJobInput where
  projectId : ℕ
  documentId : ℕ
  idempotencyKey : ℕ
  parentJobId : Option ℕ := none
  parentJobFence : Option DocumentJobFence := none

/-- `enqueueDocumentExtraction(input)`. -/
def enqueueDocumentExtraction (db : Db δ) (docs : Tables) (moment : Moment)
    (input : DocumentExtractionJobInput) : Except ServiceError (SubmittedJob δ) := do
  let key := JobKey.documentExtract input.documentId input.idempotencyKey
  Documents.lockProject docs input.projectId
  Documents.assertDocumentJobFence docs moment.start input.projectId input.documentId .documentScan
    input.parentJobFence
  match ← existingIdempotentJob db input.projectId key .documentExtract input.documentId none with
  | some jobId => return { jobId, created := false, db }
  | none =>
    assertNoActiveDocumentJob db input.projectId input.documentId .documentExtract
    let locked ← Documents.lockDocument docs input.projectId input.documentId
    ensure (locked.document.status ∈
        [.clean, .ready, .extractionFailed, .ocrRequiredUnsupported, .extracting])
      (conflict .DOCUMENT_NOT_EXTRACTABLE "Document is not ready for extraction.")
    let sha256 ← require locked.object.sha256
      (conflict .DOCUMENT_INTEGRITY_PENDING "Document integrity metadata is unavailable.")
    let submitted ← submitJobInTransaction db
      { projectId := some input.projectId
        jobType := .documentExtract
        inputReference :=
          .documentExtract input.documentId sha256 locked.document.currentExtractionId
        idempotencyKey := key
        parentJobId := input.parentJobId
        priority := 10 }
    Documents.assertDocumentJobFence (docs.withQueue submitted.db) moment.finish input.projectId
      input.documentId .documentScan input.parentJobFence
    return submitted

/-! ### Deletion -/

/-- The jobs of a document that `deleteDocument` cancels. -/
def cancellableDocumentJobs (db : Db δ) (projectId documentId : ℕ) : List ℕ :=
  idsWhere (fun _ job => job.projectId = some projectId &&
    job.toDocuments.isCancellableDocumentJob documentId) db.jobs

/-- `objectIds` of `deleteDocument`. -/
def documentObjectIds (docs : Tables) (locked : LockedDocument) (projectId : ℕ) : List ℕ :=
  let associatedObjects := docs.objects.filter (Documents.associatedObject locked projectId)
  (locked.document.rawObjectId :: associatedObjects.map (·.id)).dedup.insertionSort (· ≤ ·)

/-- What `deleteDocument` does to jobs. -/
def deleteDocumentJobs (db : Db δ) (docs : Tables) (projectId documentId : ℕ)
    (requestedBy : String) : Except ServiceError (Db δ) := do
  let locked ← Documents.lockDocument docs projectId documentId
  let db ← (cancellableDocumentJobs db projectId documentId).foldlM
    (fun db jobId => requestJobCancellation db jobId requestedBy) db
  let cleanup ← submitJobInTransaction db
    { projectId := some projectId
      jobType := .storageCleanup
      inputReference := .storageCleanup (documentObjectIds docs locked projectId)
      idempotencyKey := .documentDelete documentId
      priority := 50
      maxAttempts := 10 }
  return cleanup.db

/-! ### What the calls do -/

/-- A submission of a job of a document: the document is one of the project, and had no active job
    of this type. -/
structure SubmitsDocumentJob (db : Db δ) (docs : Tables) (projectId documentId : ℕ)
    (jobType : JobType) (r : SubmittedJob δ) : Prop where
  noActive : ∀ job ∈ db.jobs, ¬ job.isActiveDocumentJob projectId documentId jobType
  document : ∃ document ∈ docs.documents[documentId]?, document.projectId = projectId
  submitted : ∃ input : SubmitJobInput, input.projectId = some projectId ∧
    input.jobType = jobType ∧ input.inputReference.documentId = some documentId ∧
      submitJobInTransaction db input = .ok r

section
variable {db db' : Db δ} {docs : Tables} {r : SubmittedJob δ}

theorem lockDocument_document {projectId documentId : ℕ} {locked : LockedDocument}
    (h : Documents.lockDocument docs projectId documentId = .ok locked) :
    ∃ document ∈ docs.documents[documentId]?, document.projectId = projectId := by
  simp only [Documents.lockDocument, bind_eq_ok, require_eq_ok, ensure_eq_ok] at h
  obtain ⟨_, _, document, hdocument, _, hproject, _⟩ := h
  exact ⟨document, hdocument, hproject⟩

theorem enqueueDocumentScan_ok {input : DocumentScanJobInput}
    (h : enqueueDocumentScan db docs input = .ok r) :
    r.db = db ∨ SubmitsDocumentJob db docs input.projectId input.documentId .documentScan r := by
  simp only [enqueueDocumentScan, bind_eq_ok] at h
  obtain ⟨_, _, existing, _, h⟩ := h
  cases existing with
  | some jobId =>
    obtain rfl := pure_eq_ok.mp h
    exact .inl rfl
  | none =>
    simp only [assertNoActiveDocumentJob, bind_eq_ok, ensure_eq_ok] at h
    obtain ⟨_, hactive, locked, hlock, _, _, _, _, h⟩ := h
    exact .inr ⟨hactive, lockDocument_document hlock, _, rfl, rfl, rfl, h⟩

theorem enqueueDocumentExtraction_ok {moment : Moment} {input : DocumentExtractionJobInput}
    (h : enqueueDocumentExtraction db docs moment input = .ok r) :
    r.db = db ∨
      SubmitsDocumentJob db docs input.projectId input.documentId .documentExtract r := by
  simp only [enqueueDocumentExtraction, bind_eq_ok] at h
  obtain ⟨_, _, _, _, existing, _, h⟩ := h
  cases existing with
  | some jobId =>
    obtain rfl := pure_eq_ok.mp h
    exact .inl rfl
  | none =>
    simp only [assertNoActiveDocumentJob, bind_eq_ok, ensure_eq_ok, pure_eq_ok] at h
    obtain ⟨_, hactive, locked, hlock, _, _, _, _, _, h, _, _, rfl⟩ := h
    exact .inr ⟨hactive, lockDocument_document hlock, _, rfl, rfl, rfl, h⟩

end

end ResearchWorkbench
