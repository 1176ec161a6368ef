import Mathlib.Data.Nat.Pairing
import ResearchWorkbench.Services.Documents

namespace ResearchWorkbench.Documents

/-!
# Uploads, scans and extractions by many processes

The document services as a machine: every call is a process of its own, whose transactions and
reads interleave with those of all other calls.

* `DocumentCall` — a call in flight, with what it has read so far;
* `GateEvent` — what the history of a run records;
* `GateSys`, `GateAct`, `GateSys.step` — the machine;
* `GateSys.Reachable` — its states.

Nothing ties a call to a worker: retries, requeues, resumes and stale workers are calls like any
other, with any options (the worker's handlers pass `resumeInProgress` according to a status they
read before).  The `jobs` table may change at any time and in any way, and the storage, the scanner
and the extractor may answer anything.
-/

/-! ### Calls and events -/

/-- Where a call of `scanDocument` is. -/
inductive ScanPhase
  | begun (snapshot : LockedDocument)
  | scanned (snapshot : LockedDocument) (scan : MalwareScanResult)
      (clean : Option PreparedCleanSourceObject)
  | ended

/-- Where a call of `extractDocument` is. -/
inductive ExtractPhase
  | begun (started : StartedExtraction)
  | extracted (started : StartedExtraction) (bytes : Bytes) (result : DocumentExtractionResult)
  /-- Before `recordExtractionFailure`. -/
  | failing (started : StartedExtraction)
  | ended

/-- A call in flight. -/
inductive DocumentCall
  | scan (request : ScanRequest) (phase : ScanPhase)
  | extract (request : ExtractRequest) (phase : ExtractPhase)

/-- What a run records, for the proofs only: bypasses, and extractions, with the `production` option
    of the call. -/
inductive GateEvent
  | bypassed (documentId : ℕ) (production : Bool)
  | extractionBegun (documentId : ℕ) (production : Option Bool)
  | extracted (documentId : ℕ) (production : Option Bool) (bytes : Bytes)
  deriving DecidableEq, Repr

/-- The tables, the calls that were made, and the history. -/
structure GateSys where
  db : Tables
  calls : List DocumentCall
  log : List GateEvent

/-- What may happen next.  A call names its options when it begins; its later steps name the call
    by its position, and what its surroundings answer. -/
inductive GateAct
  | tick (ms : ℕ)
  | setJobs (jobs : List JobRow)
  | createProject
  | quarantineDocument (input : QuarantineDocumentInput)
  | deleteDocument (projectId documentId : ℕ)
  | addSource (projectId : ℕ) (content : Option String)
  | reuseSource (projectId sourceId : ℕ) (sanitize : String → String)
  | beginScan (request : ScanRequest) (later : ℕ) (aborted : Bool)
  | scanObject (call : ℕ) (stored : Option Bytes) (answer : Option MalwareScanResult)
  | commitScan (call later : ℕ) (aborted : Bool)
  | beginExtraction (request : ExtractRequest) (later : ℕ) (aborted : Bool)
  | extractObject (call : ℕ) (stored : Option Bytes) (answer : Option DocumentExtractionResult)
  | commitExtraction (call : ℕ) (payload : Bytes) (later : ℕ) (aborted : Bool)
  /-- The text cannot be cut into chunks. -/
  | failChunking (call : ℕ)
  | recordExtractionFailure (call later : ℕ)
  /-- The call ends without another step: its process dies, its signal is aborted, or the storage
      fails. -/
  | abandon (call : ℕ)

/-! ### The machine -/

/-- Time passes. -/
def Tables.elapse (db : Tables) (ms : ℕ) : Tables := { db with now := db.now + ms }

/-- The moment of a transaction that takes `later` to its last check. -/
def Tables.moment (db : Tables) (later : ℕ) (aborted : Bool) : Moment :=
  ⟨db.now, db.now + later, aborted⟩

/-- The history after a scan. -/
def scanLog (log : List GateEvent) (request : ScanRequest) (scan : MalwareScanResult) :
    List GateEvent :=
  if (resolveScanDisposition scan request.disposition).bypassed then
    log ++ [.bypassed request.documentId request.disposition.production]
  else log

/-- The history after an extraction. -/
def extractLog (log : List GateEvent) (request : ExtractRequest) (bytes : Bytes)
    (result : DocumentExtractionResult) : List GateEvent :=
  if result.ocrRequired then log
  else log ++ [.extracted request.documentId request.production bytes]

namespace GateSys

/-- The phase of a call changes. -/
def setCall (s : GateSys) (call : ℕ) (c : DocumentCall) : GateSys :=
  { s with calls := s.calls.set call c }

/-- A transaction without a call: committed, or rolled back. -/
def transact (s : GateSys) (t : Except ServiceError Tables) : GateSys :=
  match t with
  | .ok db => { s with db := db }
  | .error _ => s

/-- The read and the scan of a call of `scanDocument`. -/
def scanObject (hashing : Hashing) (s : GateSys) (call : ℕ) (request : ScanRequest)
    (snapshot : LockedDocument) (stored : Option Bytes) (answer : Option MalwareScanResult) :
    GateSys :=
  match ensureStorageProvider request.provider snapshot.object.provider with
  | .error _ => s.setCall call (.scan request .ended)
  | .ok () =>
    let (scan, bytes) := Documents.scanObject hashing snapshot request.maxBytes stored answer
    match bytes with
    | some bytes =>
      if scan.status = .clean then
        match prepareCleanSourceObject hashing request.projectId snapshot bytes request.maxBytes with
        | some clean => s.setCall call (.scan request (.scanned snapshot scan (some clean)))
        | none => s.setCall call (.scan request .ended)
      else s.setCall call (.scan request (.scanned snapshot scan none))
    | none => s.setCall call (.scan request (.scanned snapshot scan none))

/-- The second transaction of a call of `scanDocument`. -/
def commitScan (s : GateSys) (call : ℕ) (request : ScanRequest) (snapshot : LockedDocument)
    (scan : MalwareScanResult) (clean : Option PreparedCleanSourceObject) (later : ℕ)
    (aborted : Bool) : GateSys :=
  match Documents.commitScan s.db (s.db.moment later aborted) request snapshot scan clean with
  | .error _ => { s with db := s.db.elapse later }.setCall call (.scan request .ended)
  | .ok db =>
    { s with db := db.elapse later, log := scanLog s.log request scan }.setCall call
      (.scan request .ended)

/-- The read and the extraction of a call of `extractDocument`. -/
def extractObject (hashing : Hashing) (s : GateSys) (call : ℕ) (request : ExtractRequest)
    (started : StartedExtraction) (stored : Option Bytes)
    (answer : Option DocumentExtractionResult) : GateSys :=
  match ensureStorageProvider request.provider started.locked.object.provider with
  | .error _ => s.setCall call (.extract request .ended)
  | .ok () =>
    match Documents.extractObject hashing request started stored answer with
    | some (bytes, result) => s.setCall call (.extract request (.extracted started bytes result))
    | none => s.setCall call (.extract request (.failing started))

/-- `isJobLeaseLost(error)`. -/
def isJobLeaseLost : ServiceError → Bool
  | .app _ .JOB_LEASE_LOST _ => true
  | _ => false

/-- The last transaction of a call of `extractDocument`. -/
def commitExtraction (hashing : Hashing) (s : GateSys) (call : ℕ) (request : ExtractRequest)
    (started : StartedExtraction) (bytes : Bytes) (result : DocumentExtractionResult)
    (payload : Bytes) (later : ℕ) (aborted : Bool) : GateSys :=
  match prepareExtractionArtifact hashing request.projectId
      (hashing.deterministicUploadUuid request.projectId
        (Nat.pair request.documentId started.version) .extraction)
      request.maxBytes started.locked payload with
  | none => s.setCall call (.extract request .ended)
  | some artifact =>
    match Documents.commitExtraction s.db (s.db.moment later aborted) request started bytes result
        artifact with
    | .error e =>
      { s with db := s.db.elapse later }.setCall call
        (.extract request (if isJobLeaseLost e then .ended else .failing started))
    | .ok db =>
      { s with db := db.elapse later, log := extractLog s.log request bytes result }.setCall call
        (.extract request .ended)

/-- The transaction of a call whose extraction failed. -/
def recordExtractionFailure (s : GateSys) (call : ℕ) (request : ExtractRequest)
    (started : StartedExtraction) (later : ℕ) : GateSys :=
  match Documents.recordExtractionFailure s.db (s.db.moment later false) request
      started.version with
  | .error _ => { s with db := s.db.elapse later }.setCall call (.extract request .ended)
  | .ok db => { s with db := db.elapse later }.setCall call (.extract request .ended)

/-- The call ends. -/
def abandon (s : GateSys) (call : ℕ) : DocumentCall → GateSys
  | .scan request _ => s.setCall call (.scan request .ended)
  | .extract request _ => s.setCall call (.extract request .ended)

/-- One step. -/
def step (hashing : Hashing) (s : GateSys) : GateAct → GateSys
  | .tick ms => { s with db := s.db.elapse ms }
  | .setJobs jobs => { s with db := { s.db with jobs := jobs } }
  | .createProject => { s with db := { s.db with projectCount := s.db.projectCount + 1 } }
  | .quarantineDocument input =>
    s.transact (Prod.snd <$> Documents.quarantineDocument hashing s.db input)
  | .deleteDocument projectId documentId =>
    s.transact (Documents.deleteDocument s.db projectId documentId)
  | .addSource projectId content =>
    s.transact (Documents.addSource s.db projectId (content.map fun text => ⟨text, none⟩) none)
  | .reuseSource projectId sourceId sanitize =>
    s.transact (Documents.reuseSource s.db projectId sourceId sanitize)
  | .beginScan request later aborted =>
    match Documents.beginScan s.db (s.db.moment later aborted) request with
    | .error _ => { s with db := s.db.elapse later }
    | .ok (snapshot, db) =>
      { s with db := db.elapse later, calls := s.calls ++ [.scan request (.begun snapshot)] }
  | .scanObject call stored answer =>
    match s.calls[call]? with
    | some (.scan request (.begun snapshot)) =>
      s.scanObject hashing call request snapshot stored answer
    | _ => s
  | .commitScan call later aborted =>
    match s.calls[call]? with
    | some (.scan request (.scanned snapshot scan clean)) =>
      s.commitScan call request snapshot scan clean later aborted
    | _ => s
  | .beginExtraction request later aborted =>
    match Documents.beginExtraction s.db (s.db.moment later aborted) request with
    | .error _ => { s with db := s.db.elapse later }
    | .ok (started, db) =>
      { db := db.elapse later, calls := s.calls ++ [.extract request (.begun started)],
        log := s.log ++ [.extractionBegun request.documentId request.production] }
  | .extractObject call stored answer =>
    match s.calls[call]? with
    | some (.extract request (.begun started)) =>
      s.extractObject hashing call request started stored answer
    | _ => s
  | .commitExtraction call payload later aborted =>
    match s.calls[call]? with
    | some (.extract request (.extracted started bytes result)) =>
      s.commitExtraction hashing call request started bytes result payload later aborted
    | _ => s
  | .failChunking call =>
    match s.calls[call]? with
    | some (.extract request (.extracted started _ _)) =>
      s.setCall call (.extract request (.failing started))
    | _ => s
  | .recordExtractionFailure call later =>
    match s.calls[call]? with
    | some (.extract request (.failing started)) =>
      s.recordExtractionFailure call request started later
    | _ => s
  | .abandon call =>
    match s.calls[call]? with
    | some c => s.abandon call c
    | none => s

/-- Nothing has been uploaded yet. -/
def initial : GateSys := ⟨.initial, [], []⟩

end GateSys

end ResearchWorkbench.Documents
