import ResearchWorkbench.Library.Doubles
import ResearchWorkbench.Library.Result

namespace ResearchWorkbench

/-!
# Durable jobs — statuses, transitions and retry arithmetic

The pure part of the job queue (`lib/domain/jobs.ts`) and the errors services throw.

* `JobStatus`, `JobStatus.transitions`, `assertJobTransition` — the job state machine;
* `isRetryableJobError`, `failureJobStatus` — where a failed attempt sends its job;
* `JobRetryPolicy`, `parseJobRetryPolicy`, `calculateRetryDelayMs` — the backoff before the
  next attempt, with its jitter in doubles.
-/

/-! ### Errors -/

/-- The machine-readable codes of the service errors the modelled functions raise. -/
inductive ErrorCode
  | NOT_FOUND | INVALID_JOB_CONFIGURATION | JOB_LEASE_LOST | STALE_JOB_VERSION
  | JOB_RUN_LINK_BROKEN | JOB_SUBMISSION_CONFLICT | IDEMPOTENCY_KEY_REUSED
  | PIPELINE_STAGE_RESTART_REQUIRED | JOB_NOT_RETRYABLE
  | SCOPE_APPROVAL_REQUIRED | PLAN_APPROVAL_REQUIRED | PLAN_INCOMPLETE
  | RUN_NOT_CANCELLING | RUN_CANCELLATION_PENDING | RUN_NOT_RESUMABLE | RUN_ALREADY_COMPLETE
  | STAGE_DEPENDENCY_INCOMPLETE | RUN_NOT_EXECUTABLE | STAGE_NOT_RUNNING | STAGE_NOT_SUCCEEDED
  | STALE_STAGE_GENERATION | STAGE_NOT_RESTARTABLE | RUN_HAS_ACTIVE_JOB | MISSING_RUN_STAGE
  | RUN_NOT_SEARCHABLE | INVALID_SEARCH_JOB | PROJECT_DELETED | SEARCH_RUN_DELETED
  | SEARCH_RUN_CANCELLED | SEARCH_RUN_TERMINAL | SEARCH_ATTEMPT_NOT_RUNNING
  | SEARCH_BUDGET_EXCEEDED | SEARCH_SOURCE_BUDGET_EXCEEDED | SEARCH_PROVIDER_MISMATCH
  | SEARCH_QUERY_MISMATCH | SEARCH_RESULT_LIMIT_EXCEEDED | SEARCH_SOURCE_ID_COLLISION
  | INVALID_SEARCH_CHECKPOINT | SEARCH_CHECKPOINT_SOURCE_MISSING
  | SEARCH_CHECKPOINT_PROVENANCE_MISSING
  | SOURCE_ELIGIBILITY_CHANGED | UNKNOWN_SOURCE_ID
  | IDEMPOTENCY_REQUEST_INCOMPLETE | IDEMPOTENCY_RESPONSE_INVALID | IDEMPOTENCY_RESPONSE_TOO_LARGE
  | DOCUMENT_NOT_SCANNABLE | DOCUMENT_SCAN_STALE | DOCUMENT_SCAN_REQUIRED
  | DOCUMENT_NOT_EXTRACTABLE | DOCUMENT_EXTRACTION_STALE | DOCUMENT_SOURCE_MISSING
  | UNSUPPORTED_DOCUMENT_FORMAT | STORAGE_PROVIDER_MISMATCH | CLEAN_SOURCE_OBJECT_CONFLICT
  | EXTRACTION_ARTIFACT_CONFLICT | DOCUMENT_JOBS_ACTIVE | DOCUMENT_LEGAL_HOLD
  | DOCUMENT_JOB_ACTIVE | DOCUMENT_INTEGRITY_PENDING
  | GENERATED_ARTIFACT_CONFLICT | GENERATED_ARTIFACT_LEGAL_HOLD | EXPORT_CLEANUP_BUSY
  | OPERATOR_EXISTS | AUTHENTICATION_REQUIRED | CSRF_INVALID
  | INVALID_PROJECT_STATE | QA_BLOCKED | WORKFLOW_INCOMPLETE | INVALID_APPROVAL_STATE
  | EXPLICIT_CONFIRMATION_REQUIRED | APPROVAL_NOT_REQUESTED | APPROVAL_REQUIRED
  | DELIVERY_PACKAGE_REQUIRED | DOCUMENT_UPLOAD_NOT_REUSABLE | PROJECT_LEGAL_HOLD
  | PROJECT_JOBS_ACTIVE | STAGE_INPUT_UNAVAILABLE | NO_DELIVERABLE
  deriving DecidableEq, Repr

/-- `JOB_ERROR_CLASSES`. -/
inductive JobErrorClass
  | retryableProviderRateLimit | retryableProviderServerError | retryableNetwork
  | retryableStorage | retryableTimeout | nonRetryableValidation | nonRetryableSecurity
  | nonRetryableBudget | nonRetryableUserInput | cancelled | unknown
  deriving DecidableEq, Repr

/-- What a service call throws: an `AppError`, a `SourceSearchJobError`, a plain `Error`, or a
    violated database constraint. -/
inductive ServiceError
  | app (status : ℕ) (code : ErrorCode) (message : String)
  | search (code : ErrorCode) (message : String) (errorClass : JobErrorClass)
  | error (message : String)
  | constraint (name : String)
  deriving Repr

/-- `notFound(resource)`. -/
def notFound (resource : String) : ServiceError :=
  .app 404 .NOT_FOUND (resource ++ " was not found.")

/-- `conflict(code, message)`. -/
def conflict (code : ErrorCode) (message : String) : ServiceError := .app 409 code message

/-- Whether `recoverExpiredJobs` swallows the error (only a missing row is). -/
def ServiceError.isNotFound : ServiceError → Bool
  | .app _ .NOT_FOUND _ => true
  | _ => false

/-! ### The job state machine -/

/-- `JOB_STATUSES`. -/
inductive JobStatus
  | queued | claimed | running | retryWait | cancellationRequested
  | cancelled | succeeded | failed | deadLetter
  deriving DecidableEq, Repr

/-- `transitions`: the statuses a job may move to. -/
def JobStatus.transitions : JobStatus → List JobStatus
  | .queued => [.claimed, .cancelled]
  | .claimed => [.running, .retryWait, .cancellationRequested, .cancelled, .failed, .deadLetter]
  | .running => [.succeeded, .retryWait, .cancellationRequested, .cancelled, .failed, .deadLetter]
  | .retryWait => [.claimed, .queued, .cancelled]
  | .cancellationRequested => [.cancelled]
  | .cancelled => []
  | .succeeded => []
  | .failed => [.queued]
  | .deadLetter => [.queued]

/-- `canTransitionJob(from, to)`. -/
def canTransitionJob (source target : JobStatus) : Bool := target ∈ source.transitions

/-- The name of a status. -/
def JobStatus.name : JobStatus → String
  | .queued => "QUEUED"
  | .claimed => "CLAIMED"
  | .running => "RUNNING"
  | .retryWait => "RETRY_WAIT"
  | .cancellationRequested => "CANCELLATION_REQUESTED"
  | .cancelled => "CANCELLED"
  | .succeeded => "SUCCEEDED"
  | .failed => "FAILED"
  | .deadLetter => "DEAD_LETTER"

/-- `assertJobTransition(from, to)`. -/
def assertJobTransition (source target : JobStatus) : Except ServiceError Unit :=
  ensure (canTransitionJob source target)
    (.error ("Job cannot transition from " ++ source.name ++ " to " ++ target.name ++ "."))

/-- `isTerminalJobStatus(status)`. -/
def isTerminalJobStatus (status : JobStatus) : Bool :=
  status ∈ [.cancelled, .succeeded, .failed, .deadLetter]

/-- The statuses a worker holds a lease in. -/
def JobStatus.isActive (status : JobStatus) : Bool :=
  status ∈ [.claimed, .running, .cancellationRequested]

/-- The statuses a job waits in until a worker claims it. -/
def JobStatus.isWaiting (status : JobStatus) : Bool := status ∈ [.queued, .retryWait]

/-- A job is live while its status is not terminal. -/
def JobStatus.isLive (status : JobStatus) : Bool := !isTerminalJobStatus status

theorem isLive_iff (status : JobStatus) :
    status.isLive ↔ status.isActive ∨ status.isWaiting := by
  cases status <;> decide

theorem isActive_of_executing {status : JobStatus} (h : status ∈ [.claimed, .running]) :
    status.isActive := by
  obtain rfl | rfl := by simpa using h
  all_goals rfl

theorem isLive_of_cancellable {status : JobStatus}
    (h : status ∈ [.queued, .retryWait, .claimed, .running]) : status.isLive := by
  obtain rfl | rfl | rfl | rfl := by simpa using h
  all_goals rfl

/-- `isRetryableJobError(errorClass)`. -/
def isRetryableJobError (errorClass : JobErrorClass) : Bool :=
  errorClass ∈ [.retryableProviderRateLimit, .retryableProviderServerError, .retryableNetwork,
    .retryableStorage, .retryableTimeout, .unknown]

/-! ### Retry arithmetic -/

/-- `Number.MAX_SAFE_INTEGER`. -/
def maxSafeInteger : ℕ := 9007199254740991

/-- `finiteInteger(value, name, minimum)`. -/
def finiteInteger (value : ℕ) (name : String) (minimum : ℕ) : Except ServiceError ℕ := do
  ensure (value ≤ maxSafeInteger ∧ minimum ≤ value)
    (.error (name ++ " must be a safe integer greater than or equal to " ++ toString minimum
      ++ "."))
  return value

/-- `JobRetryPolicy`, as stored with the job. -/
structure JobRetryPolicy where
  baseDelayMs : ℕ
  maxDelayMs : ℕ
  jitterRatio : ℚ
  deriving DecidableEq, Repr

/-- `DEFAULT_JOB_RETRY_POLICY`. -/
def defaultJobRetryPolicy : JobRetryPolicy where
  baseDelayMs := 1000
  maxDelayMs := 60000
  jitterRatio := toDouble (1 / 5)

/-- `parseJobRetryPolicy(value)`. -/
def parseJobRetryPolicy (value : JobRetryPolicy) : Except ServiceError JobRetryPolicy := do
  let baseDelayMs ← finiteInteger value.baseDelayMs "baseDelayMs" 1
  let maxDelayMs ← finiteInteger value.maxDelayMs "maxDelayMs" baseDelayMs
  ensure (0 ≤ value.jitterRatio ∧ value.jitterRatio ≤ 1)
    (.error "jitterRatio must be between 0 and 1.")
  return { baseDelayMs, maxDelayMs, jitterRatio := value.jitterRatio }

/-- The default policy passes its own check. -/
theorem parseJobRetryPolicy_default :
    parseJobRetryPolicy defaultJobRetryPolicy = .ok defaultJobRetryPolicy := by
  simp only [parseJobRetryPolicy, finiteInteger, bind_eq_ok, ensure_eq_ok, pure_eq_ok]
  exact ⟨1000, ⟨(), by decide, rfl⟩, 60000, ⟨(), by decide, rfl⟩, (), by decide +kernel, rfl⟩

/-- `Math.round`, which rounds halves up. -/
def mathRound (x : ℚ) : ℤ := ⌊x + 1 / 2⌋

/-- `1 - jitterRatio + randomValue * jitterRatio * 2`; each operation rounds. -/
def jitterMultiplier (policy : JobRetryPolicy) (randomValue : ℚ) : ℚ :=
  toDouble (toDouble (1 - policy.jitterRatio) +
    toDouble (toDouble (randomValue * policy.jitterRatio) * 2))

/-- `calculateRetryDelayMs({ attempt, policy, retryAfterMs, random })`, `random` being the
    number the generator returned.  The product with the power of two has at most 53 bits, and is
    not rounded. -/
def calculateRetryDelayMs (attempt : ℕ) (policy : JobRetryPolicy) (retryAfterMs : Option ℕ)
    (random : ℚ) : Except ServiceError ℕ := do
  let attempt ← finiteInteger attempt "attempt" 1
  let policy ← parseJobRetryPolicy policy
  ensure (0 ≤ random ∧ random ≤ 1) (.error "random must return a number between 0 and 1.")
  ensure (retryAfterMs.getD 0 ≤ maxSafeInteger)
    (.error "retryAfterMs must be a non-negative safe integer.")
  let exponent := min (attempt - 1) 30
  let exponential := min policy.maxDelayMs (policy.baseDelayMs * 2 ^ exponent)
  let jittered := max 0 (mathRound (toDouble (exponential * jitterMultiplier policy random)))
  return max jittered.toNat (retryAfterMs.getD 0)

/-- `failureJobStatus({ errorClass, attempts, maxAttempts })`. -/
def failureJobStatus (errorClass : JobErrorClass) (attempts maxAttempts : ℕ) :
    Except ServiceError JobStatus := do
  let attempts ← finiteInteger attempts "attempts" 1
  let maxAttempts ← finiteInteger maxAttempts "maxAttempts" 1
  if isRetryableJobError errorClass then
    return if attempts < maxAttempts then .retryWait else .deadLetter
  else
    return .failed

/-- A failed attempt waits for a retry only while attempts remain. -/
theorem failureJobStatus_spec {errorClass : JobErrorClass} {attempts maxAttempts : ℕ}
    {target : JobStatus} (h : failureJobStatus errorClass attempts maxAttempts = .ok target) :
    target = .retryWait ∧ attempts < maxAttempts ∨ target = .failed ∨ target = .deadLetter := by
  simp only [failureJobStatus, finiteInteger, bind_eq_ok, ensure_eq_ok, pure_eq_ok] at h
  obtain ⟨_, ⟨_, _, rfl⟩, _, ⟨_, _, rfl⟩, h⟩ := h
  split at h <;> simp only [pure_eq_ok] at h
  · split at h
    · exact .inl ⟨h.symm, ‹_›⟩
    · exact .inr (.inr h.symm)
  · exact .inr (.inl h.symm)

end ResearchWorkbench
