import ResearchWorkbench.Domain.Jobs

namespace ResearchWorkbench

/-!
# Documents — states, malware scans and stored objects

The pure part of the document pipeline (`lib/documents/state.ts`, `lib/documents/scanner.ts`) and
the vocabulary of `storage_objects`.

* `DocumentStatus`, `DocumentStatus.transitions`, `assertDocumentTransition` — the document state
  machine;
* `MalwareScanResult`, `resolveScanDisposition` — where a scan sends its document;
* `resolveScanDisposition_clean` — a scan that found nothing is never a bypass, and a bypass is
  never recorded in production;
* `Bytes`, `ObjectKey`, `createObjectKey` — what is stored, and under which key.
-/

/-! ### The document state machine -/

/-- `DOCUMENT_STATUSES`. -/
inductive DocumentStatus
  | uploading | quarantined | scanning | rejected | clean | extracting | ready
  | extractionFailed | ocrRequiredUnsupported | blockedScannerUnavailable | deleted
  deriving DecidableEq, Repr

/-- `transitions`: the statuses a document may move to. -/
def DocumentStatus.transitions : DocumentStatus → List DocumentStatus
  | .uploading => [.quarantined, .rejected, .deleted]
  | .quarantined => [.scanning, .blockedScannerUnavailable, .deleted]
  | .scanning => [.clean, .rejected, .blockedScannerUnavailable, .deleted]
  | .rejected => [.deleted]
  | .clean => [.extracting, .deleted]
  | .extracting => [.ready, .extractionFailed, .ocrRequiredUnsupported, .deleted]
  | .ready => [.extracting, .deleted]
  | .extractionFailed => [.extracting, .deleted]
  | .ocrRequiredUnsupported => [.extracting, .deleted]
  | .blockedScannerUnavailable => [.scanning, .deleted]
  | .deleted => []

/-- `canTransitionDocument(from, to)`. -/
def canTransitionDocument (source target : DocumentStatus) : Bool := target ∈ source.transitions

/-- The name of a status. -/
def DocumentStatus.name : DocumentStatus → String
  | .uploading => "UPLOADING"
  | .quarantined => "QUARANTINED"
  | .scanning => "SCANNING"
  | .rejected => "REJECTED"
  | .clean => "CLEAN"
  | .extracting => "EXTRACTING"
  | .ready => "READY"
  | .extractionFailed => "EXTRACTION_FAILED"
  | .ocrRequiredUnsupported => "OCR_REQUIRED_UNSUPPORTED"
  | .blockedScannerUnavailable => "BLOCKED_SCANNER_UNAVAILABLE"
  | .deleted => "DELETED"

/-- `assertDocumentTransition(from, to)`. -/
def assertDocumentTransition (source target : DocumentStatus) : Except ServiceError Unit :=
  ensure (canTransitionDocument source target)
    (.error ("Document transition " ++ source.name ++ " -> " ++ target.name ++ " is not allowed."))

/-- The statuses a document has once a scan has let it through. -/
def DocumentStatus.isCleared (status : DocumentStatus) : Bool :=
  status ∈ [.clean, .extracting, .ready, .extractionFailed, .ocrRequiredUnsupported]

/-! ### Malware scans -/

/-- The bytes of an object. -/
abbrev Bytes := List UInt8

/-- `MalwareScanStatus`. -/
inductive MalwareScanStatus
  | clean | infected | error | timeout | unscanned
  deriving DecidableEq, Repr

/-- `MalwareScanResult`: the verdict, and the size and hash of the bytes it is about. -/
structure MalwareScanResult where
  status : MalwareScanStatus
  byteSize : ℕ
  objectSha256 : ℕ
  deriving DecidableEq, Repr

/-- `ScanDispositionOptions`. -/
structure ScanDispositionOptions where
  production : Bool
  allowExplicitDemoBypass : Bool
  deriving DecidableEq, Repr

/-- `ScanDisposition`. -/
structure ScanDisposition where
  documentStatus : DocumentStatus
  bypassed : Bool
  warning : Option String
  deriving DecidableEq, Repr

/-- `resolveScanDisposition(result, options)`. -/
def resolveScanDisposition (result : MalwareScanResult) (options : ScanDispositionOptions) :
    ScanDisposition :=
  if result.status = .clean then
    { documentStatus := .clean, bypassed := false, warning := none }
  else if result.status = .infected then
    { documentStatus := .rejected, bypassed := false, warning := none }
  else if !options.production && options.allowExplicitDemoBypass then
    { documentStatus := .clean, bypassed := true,
      warning := some "Malware scanning was explicitly bypassed in local demo mode." }
  else
    { documentStatus := .blockedScannerUnavailable, bypassed := false,
      warning := some "Malware scanning did not produce a clean result." }

/-- A document that a scan lets through was found clean, or the scan was bypassed outside
    production. -/
theorem resolveScanDisposition_clean {result : MalwareScanResult}
    {options : ScanDispositionOptions}
    (h : (resolveScanDisposition result options).documentStatus.isCleared) :
    result.status = .clean ∧ (resolveScanDisposition result options).bypassed = false ∨
      result.status ≠ .clean ∧ (resolveScanDisposition result options).bypassed = true ∧
        options.production = false := by
  unfold resolveScanDisposition at h ⊢
  split at h
  · rename_i hclean
    exact .inl ⟨hclean, by rw [if_pos hclean]⟩
  · rename_i hclean
    rw [if_neg hclean]
    split at h
    · cases h
    · rename_i hinfected
      rw [if_neg hinfected]
      split at h
      · rename_i hbypass
        rw [if_pos hbypass]
        simp only [Bool.and_eq_true, Bool.not_eq_true'] at hbypass
        exact .inr ⟨hclean, rfl, hbypass.1⟩
      · cases h

/-- A bypass is recorded outside production only. -/
theorem resolveScanDisposition_bypassed {result : MalwareScanResult}
    {options : ScanDispositionOptions} (h : (resolveScanDisposition result options).bypassed) :
    options.production = false := by
  unfold resolveScanDisposition at h
  split at h
  · cases h
  · split at h
    · cases h
    · split at h
      · rename_i hbypass
        simp only [Bool.and_eq_true, Bool.not_eq_true'] at hbypass
        exact hbypass.1
      · cases h

/-- The statuses a scan sends a document to are reachable from `SCANNING`. -/
theorem resolveScanDisposition_transition (result : MalwareScanResult)
    (options : ScanDispositionOptions) :
    canTransitionDocument .scanning (resolveScanDisposition result options).documentStatus := by
  unfold resolveScanDisposition
  split
  · rfl
  · split
    · rfl
    · split <;> rfl

/-! ### Stored objects -/

/-- `StorageProviderKind`. -/
inductive StorageProviderKind
  | localFiles | s3
  deriving DecidableEq, Repr

/-- `OBJECT_CATEGORIES`. -/
inductive ObjectCategory
  | debug | evaluations | exports | extractions | quarantine | sources
  deriving DecidableEq, Repr

/-- `storage_objects.object_key`: `category/xy/id`, where `xy` begins `id`. -/
structure ObjectKey where
  category : ObjectCategory
  objectId : ℕ
  deriving DecidableEq, Repr

/-- `createObjectKey(category, objectId)`. -/
def createObjectKey (category : ObjectCategory) (objectId : ℕ) : ObjectKey := ⟨category, objectId⟩

/-- `storage_objects.content_type`, up to its parameters and letter case. -/
inductive ContentType
  | pdf | docx | json | csv | markdown | plain | html | other (name : ℕ)
  deriving DecidableEq, Repr

/-- `storage_objects.integrity_status`. -/
inductive IntegrityStatus
  | pendingVerification | verified | mismatch | missing
  deriving DecidableEq, Repr

/-- `storage_objects.upload_status`. -/
inductive UploadStatus
  | uploading | available | failed | deleted
  deriving DecidableEq, Repr

/-- `storage_objects.extraction_status`. -/
inductive ExtractionStatus
  | notRequested | pending | ready | failed | ocrRequiredUnsupported
  deriving DecidableEq, Repr

/-- `storage_objects.retention_status`. -/
inductive RetentionStatus
  | active | pendingDelete | deleted | legalHold
  deriving DecidableEq, Repr

/-- The third argument of `deterministicUploadUuid`. -/
inductive UploadResource
  | object | document | source | cleanSourceObject | extraction | extractionArtifact
  deriving DecidableEq, Repr

/-- The hash functions the pipeline calls: `sha256Hex(bytes)`, and the identifiers
    `deterministicUploadUuid(projectId, key, resource)`. -/
structure Hashing where
  sha256Hex : Bytes → ℕ
  deterministicUploadUuid : ℕ → ℕ → UploadResource → ℕ

/-- `sha256Hex(new TextEncoder().encode(text))`. -/
def Hashing.textSha256 (hashing : Hashing) (text : String) : ℕ :=
  hashing.sha256Hex text.toUTF8.data.toList

/-- `text.length`, which counts UTF-16 code units. -/
def utf16Length (text : String) : ℕ :=
  (text.toList.map fun c => if c.toNat < 65536 then 1 else 2).sum

end ResearchWorkbench
