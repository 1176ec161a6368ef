import ResearchWorkbench.Hashes.ReadBack
import ResearchWorkbench.Services.RunEffects
import ResearchWorkbench.Services.SearchHits

namespace ResearchWorkbench.SearchHits

/-!
# Checkpoints of searches

`commitSourceSearchResults` and `reuseCommittedSourceSearchResults`
(`lib/services/source-search-jobs.ts`) with the texts that they store, hash and read back.

* `SearchResponse`, `SourceRow` — what a checkpoint is made of, and its JSON;
* `sourceSearchOutputSchema` — what is stored, and what is read;
* `SearchPayload`, `JobRow`, `SearchDb` — the rows that the services read and write;
* `commitSourceSearchResults` — the commit of a response;
* `reuseCommittedSourceSearchResults` — what a later attempt reads;
* `SearchAct`, `SearchDb.step` — the commits, and what else happens to the rows.

Audit events and the review state of the project are left out.
-/

open Contracts JsonTree JsonSchema

/-! ### JSON -/

/-- A text. -/
def textJson (t : Text) : Json := .leaf (.string t)

/-- A field that `JSON.stringify` leaves out if it is not there. -/
def optionalField (key : String) (value : Option Json) : List (Text × Json) :=
  (value.map fun v => (asciiText key, v)).toList

/-- The platform: that of the hits, `localeCompare`, and the order in which a value of type `jsonb`
    keeps the keys of its objects. -/
structure CheckpointPlatform extends SearchPlatform where
  localeCompare : Text → Text → ℤ
  keyOrder : Text → Text → Bool

/-- `inputHash(value)`. -/
def CheckpointPlatform.hash (p : CheckpointPlatform) (value : Json) : Text :=
  inputHash p.localeCompare p.digest (ofJson value)

mutual

/-- A value of type `jsonb` may have these texts. -/
def isStorableJson : Json → Bool
  | .leaf (.string t) => decide (isStorable t)
  | .leaf _ => true
  | .array items => areStorableItems items
  | .object fields => areStorableFields fields

/-- All items may be stored. -/
def areStorableItems : List Json → Bool
  | [] => true
  | x :: items => isStorableJson x && areStorableItems items

/-- All fields may be stored. -/
def areStorableFields : List (Text × Json) → Bool
  | [] => true
  | (k, x) :: fields => decide (isStorable k) && isStorableJson x && areStorableFields fields

end

/-! ### Responses -/

/-- `metadata.rateLimit` of a response. -/
structure RateLimit where
  limit : Option Text
  remaining : Option Text
  reset : Option Text

/-- `metadata` of a response.  A duration that is not a finite number is missing: JSON has `null`
    for it. -/
structure SearchMetadata where
  startedAt : Text
  durationMs : Option Decimal
  requestId : Option Text
  rateLimit : Option RateLimit

/-- `SearchResponse`. -/
structure SearchResponse where
  provider : Text
  query : Text
  results : List SearchHit
  metadata : SearchMetadata

/-- The JSON of the rate limit. -/
def RateLimit.json (r : RateLimit) : Json :=
  .object (optionalField "limit" (r.limit.map textJson) ++
    optionalField "remaining" (r.remaining.map textJson) ++
    optionalField "reset" (r.reset.map textJson))

/-- The JSON of the metadata. -/
def SearchMetadata.json (m : SearchMetadata) : Json :=
  .object ([(asciiText "startedAt", textJson m.startedAt),
      (asciiText "durationMs", .leaf ((m.durationMs.map JsonScalar.number).getD .null))] ++
    optionalField "requestId" (m.requestId.map textJson) ++
    optionalField "rateLimit" (m.rateLimit.map RateLimit.json))

/-- The JSON of a hit with the id of its source. -/
def hitJson (hit : CheckpointHit) : Json :=
  .object ([(asciiText "id", textJson hit.id), (asciiText "title", textJson hit.title),
      (asciiText "url", textJson hit.url), (asciiText "snippet", textJson hit.snippet)] ++
    optionalField "publishedAt" (hit.publishedAt.map textJson) ++
    optionalField "language" (hit.language.map textJson) ++
    [(asciiText "providerResultId", textJson hit.providerResultId)])

/-- `search`: the response with the hits of the candidates. -/
def searchJson (response : SearchResponse) (hits : List CheckpointHit) : Json :=
  .object [(asciiText "provider", textJson response.provider),
    (asciiText "query", textJson response.query),
    (asciiText "results", .array (hits.map hitJson)),
    (asciiText "metadata", response.metadata.json)]

/-! ### Rows of sources -/

/-- The columns of `sources`. -/
def sourceColumns : List String :=
  ["id", "project_id", "reused_from_source_id", "url", "title", "publisher", "author", "published_at",
    "accessed_at", "source_type", "language", "original_status", "reliability_grade",
    "freshness_status", "duplicate_of_source_id", "content_hash", "usage_restrictions",
    "ingestion_method", "mime_type", "content_summary", "sanitized_content",
    "prompt_injection_flag", "fetch_metadata", "created_at", "updated_at", "storage_object_id"]

/-- `SourceRow`: the columns that the services read, and the others.  `fetch_metadata` is of type
    `jsonb`, whose objects have distinct keys. -/
structure SourceRow where
  id : Text
  projectId : Text
  url : Option Text
  title : Text
  ingestionMethod : Text
  fetchMetadata : Json
  rest : String → JsLeaf
  distinct : fetchMetadata.DistinctKeys

/-- The JSON of a value that is no object; of a date, its `toISOString()`. -/
def leafJson : JsLeaf → Json
  | .scalar s => .leaf s
  | .date iso => textJson iso

/-- The JSON of a column. -/
def SourceRow.column (p : CheckpointPlatform) (row : SourceRow) (name : String) : Json :=
  if name = "id" then textJson row.id
  else if name = "project_id" then textJson row.projectId
  else if name = "url" then (row.url.map textJson).getD (.leaf .null)
  else if name = "title" then textJson row.title
  else if name = "ingestion_method" then textJson row.ingestionMethod
  else if name = "fetch_metadata" then row.fetchMetadata.sorted p.keyOrder
  else leafJson (row.rest name)

/-- The JSON of a row of `SELECT *` or `RETURNING *`. -/
def SourceRow.json (p : CheckpointPlatform) (row : SourceRow) : Json :=
  .object (sourceColumns.map fun name => (asciiText name, row.column p name))

/-- `{ search, registered }`. -/
def outputJson (p : CheckpointPlatform) (search : Json) (registered : List SourceRow) : Json :=
  .object [(asciiText "search", search),
    (asciiText "registered", .array (registered.map (·.json p)))]

/-! ### The schema -/

/-- A hit in `sourceSearchOutputSchema`. -/
def resultSchema (p : CheckpointPlatform) : Schema Json Json :=
  objectOf [⟨asciiText "id", false, textOf (trimmedBetween 1 200)⟩,
    ⟨asciiText "title", false, textOf (trimmedBetween 1 500)⟩,
    ⟨asciiText "url", false, textOf (urlText p.toSearchPlatform)⟩,
    ⟨asciiText "snippet", false, textOf (Schema.atMost 20000)⟩,
    ⟨asciiText "publishedAt", true, textOf .ok⟩,
    ⟨asciiText "language", true, textOf (trimmedBetween 2 20)⟩] true

/-- `metadata` in `sourceSearchOutputSchema`. -/
def metadataSchema : Schema Json Json :=
  objectOf [⟨asciiText "startedAt", false, textOf .ok⟩, ⟨asciiText "durationMs", false, nonnegative⟩,
    ⟨asciiText "requestId", true, textOf .ok⟩, ⟨asciiText "rateLimit", true, recordOf⟩] true

/-- `search` in `sourceSearchOutputSchema`. -/
def searchSchema (p : CheckpointPlatform) : Schema Json Json :=
  objectOf [⟨asciiText "provider", false, textOf (trimmedBetween 1 200)⟩,
    ⟨asciiText "query", false, textOf (trimmedBetween 1 400)⟩,
    ⟨asciiText "results", false, arrayOf (resultSchema p) 20⟩,
    ⟨asciiText "metadata", false, metadataSchema⟩] true

/-- `sourceSearchOutputSchema`. -/
def sourceSearchOutputSchema (p : CheckpointPlatform) : Schema Json Json :=
  objectOf [⟨asciiText "search", false, searchSchema p⟩,
    ⟨asciiText "registered", false, arrayOf recordOf 20⟩] false

/-! ### Payloads and rows -/

/-- The columns of the project that a commit reads. -/
structure SearchProject where
  researchDate : Text
  maxAgeDays : ℤ
  researchDay : ∃ day, Qa.utcDay researchDate "researchDate" = .ok day
  zero_le_maxAgeDays : 0 ≤ maxAgeDays

/-- A project for `sourceFromHit`, which reads nothing of it. -/
def SearchProject.unread : SearchProject where
  researchDate := asciiText "2000-01-01"
  maxAgeDays := 0
  researchDay := ⟨Qa.dayNumber 2000 1 1, by decide⟩
  zero_le_maxAgeDays := le_refl 0

/-- `SourceSearchJobPayload`, as its schema has parsed it. -/
structure SearchPayload where
  projectId : Text
  runId : Option Text
  providerId : Text
  query : Text
  request : SearchRequest
  provider_isTrimmed : IsTrimmed providerId
  query_isTrimmed : IsTrimmed query

/-- The job of the payload, in the project. -/
def SearchPayload.job (payload : SearchPayload) (project : SearchProject) : SearchJob where
  projectId := payload.projectId
  providerId := payload.providerId
  request := payload.request
  researchDate := project.researchDate
  maxAgeDays := project.maxAgeDays
  researchDay := project.researchDay
  zero_le_maxAgeDays := project.zero_le_maxAgeDays

/-- `JobRow`.  The payload is missing if the schema rejects `input_reference`, and the lease is
    current if `lease_expires_at > NOW()`. -/
structure JobRow where
  jobType : JobType
  projectId : Option Text
  runId : Option Text
  inputReference : Option SearchPayload
  status : JobStatus
  leaseOwner : Option Text
  leaseCurrent : Bool
  attempts : ℕ
  outputReference : Option Json
  outputHash : Option Text

/-- The columns of a research run that a search reads; the budget has no valid `maxSources` limit if
    it is missing. -/
structure SearchRun where
  projectId : Text
  status : ResearchRunStatus
  maxSources : Option ℕ
  blockReason : Option String

/-- `ProviderExecutionStatus`, and `STARTED`. -/
inductive ProviderExecutionStatus
  | started | succeeded | failed | cancelled | timedOut | rejected
  deriving DecidableEq, Repr

/-- A row of `provider_executions`. -/
structure ExecutionRow where
  jobId : ℕ
  status : ProviderExecutionStatus
  requestId : Option Text
  outputHash : Option Text

/-- The table `sources`, whose primary key is the id. -/
structure SourceTable where
  rows : List SourceRow
  nodup : (rows.map (·.id)).Nodup

/-- The rows that a search reads and writes. -/
structure SearchDb where
  projects : Text → Option SearchProject
  runs : Text → Option SearchRun
  jobs : ℕ → Option JobRow
  sources : SourceTable
  executions : List ExecutionRow

/-- `UPDATE jobs SET … WHERE id = $1`. -/
def SearchDb.updateJob (db : SearchDb) (jobId : ℕ) (f : JobRow → JobRow) : SearchDb :=
  { db with jobs := Function.update db.jobs jobId ((db.jobs jobId).map f) }

/-- `INSERT INTO sources … ON CONFLICT (id) DO NOTHING RETURNING *`. -/
def SourceTable.insert (sources : SourceTable) (row : SourceRow) : Option SourceTable :=
  if h : row.id ∈ sources.rows.map (·.id) then none
  else some
    { rows := sources.rows ++ [row]
      nodup := by
        rw [List.map_append]
        refine sources.nodup.append (List.nodup_singleton _) fun id hid hnew => h ?_
        obtain rfl := List.mem_singleton.mp hnew
        exact hid }

/-! ### Failures -/

/-- `SourceSearchJobError`. -/
structure SourceSearchJobError where
  code : String
  message : String
  errorClass : JobErrorClass
  deriving DecidableEq, Repr

/-- How the services fail: with a `SourceSearchJobError`, with what a hit, a column or the checkpoint
    fails with, or with an `Error`. -/
inductive CommitError
  | job (error : SourceSearchJobError)
  | hit (error : HitError)
  | error (message : String)

/-- `new SourceSearchJobError(code, message, errorClass)`. -/
def jobError (code message : String) (errorClass : JobErrorClass) : CommitError :=
  .job ⟨code, message, errorClass⟩

def invalidCheckpoint : CommitError :=
  jobError "INVALID_SEARCH_CHECKPOINT"
    "The committed source-search checkpoint failed integrity validation." .nonRetryableSecurity

def inconsistentIds : CommitError :=
  jobError "INVALID_SEARCH_CHECKPOINT"
    "The committed source-search checkpoint has inconsistent source IDs." .nonRetryableSecurity

/-! ### Locks -/

/-- `parseSourceSearchJob(job)`. -/
def parseSourceSearchJob (job : JobRow) : Except CommitError SearchPayload := do
  ensure (job.jobType = .sourceSearch)
    (jobError "INVALID_SEARCH_JOB" "The job is not a source-search job." .nonRetryableValidation)
  let payload ← require job.inputReference (.hit (.schema .invalidType))
  ensure (job.projectId = some payload.projectId ∧ job.runId = payload.runId)
    (jobError "SEARCH_JOB_LINK_MISMATCH"
      "The source-search payload does not match its durable job linkage." .nonRetryableSecurity)
  return payload

/-- `lockSearchProject(client, projectId)`. -/
def lockSearchProject (db : SearchDb) (projectId : Text) : Except CommitError SearchProject :=
  require (db.projects projectId)
    (jobError "PROJECT_DELETED" "The project was deleted before source search completed." .cancelled)

/-- `lockFencedSearchJob(client, job, workerId)`. -/
def lockFencedSearchJob (db : SearchDb) (jobId : ℕ) (job : JobRow) (workerId : Text) :
    Except CommitError JobRow :=
  require ((db.jobs jobId).filter fun current => current.projectId = job.projectId ∧
      current.jobType = .sourceSearch ∧ current.status = .running ∧
      current.leaseOwner = some workerId ∧ current.attempts = job.attempts ∧ current.leaseCurrent)
    (jobError "JOB_LEASE_LOST" "The worker no longer owns the current source-search attempt."
      .unknown)

/-- `lockSearchRun(client, payload)`. -/
def lockSearchRun (db : SearchDb) (payload : SearchPayload) :
    Except CommitError (Option (Text × SearchRun)) :=
  match payload.runId with
  | none => return none
  | some runId => do
    let run ← require ((db.runs runId).filter fun run => run.projectId = payload.projectId)
      (jobError "SEARCH_RUN_DELETED" "The linked research run no longer exists." .cancelled)
    ensure (run.status ∉ [.cancelling, .cancelled])
      (jobError "SEARCH_RUN_CANCELLED" "The linked research run is cancelling or cancelled."
        .cancelled)
    ensure (run.status ∉ [.failed, .completed])
      (jobError "SEARCH_RUN_TERMINAL" "The linked research run is already terminal."
        .nonRetryableUserInput)
    return some (runId, run)

/-- `blockRunForSearchBudget(client, run, { violations })`. -/
def blockRunForSearchBudget (db : SearchDb) (runId : Text) (run : SearchRun)
    (violations : List String) : SearchDb :=
  if run.status ≠ .blocked ∧ canTransitionResearchRun run.status .blocked then
    { db with runs := Function.update db.runs runId (some { run with
        status := .blocked
        blockReason := some
          ("Source search budget exceeded: " ++ ", ".intercalate violations ++ ".") }) }
  else db

/-- `finishProviderExecutionInTransaction(client, { id, status, requestId, outputHash })`. -/
def finishProviderExecution (executions : List ExecutionRow) (id : ℕ)
    (status : ProviderExecutionStatus) (requestId outputHash : Option Text) :
    Except CommitError (List ExecutionRow) := do
  let row ← require executions[id]? (.error "Provider execution was not found")
  ensure (row.status = .started) (.error "Provider execution is already terminal")
  return executions.modify id fun row =>
    { row with status := status, requestId := requestId, outputHash := outputHash }

/-! ### Commits -/

section
variable (p : CheckpointPlatform)

/-- What a commit is called with, besides the job: the execution, the response, the rows with the
    ids of its candidates when the first query read them, whether the signal is aborted at each of
    the places where that is asked, and the columns of new rows that have defaults. -/
structure SearchCall where
  executionId : ℕ
  response : SearchResponse
  existing : List SourceRow
  aborted : ℕ → Bool
  defaults : String → JsLeaf

/-- The candidates of a response: `[...unique.values()]`. -/
def uniqueCandidates (payload : SearchPayload) (response : SearchResponse) :
    Except CommitError (List SourceCandidate) := do
  ensure (response.provider = payload.providerId) (jobError "SEARCH_PROVIDER_MISMATCH"
    "The search response came from a provider other than the frozen provider."
    .nonRetryableSecurity)
  ensure (trimText response.query = payload.query) (jobError "SEARCH_QUERY_MISMATCH"
    "The search response does not match the frozen query." .nonRetryableSecurity)
  ensure (response.results.length ≤ payload.request.count) (jobError "SEARCH_RESULT_LIMIT_EXCEEDED"
    "The provider returned more results than the bounded search requested."
    .nonRetryableValidation)
  let candidates ← (response.results.mapM
    (sourceFromHit p.toSearchPlatform (payload.job .unread))).mapError .hit
  return firstsBy (·.id) candidates

/-- `freshness_status`. -/
def freshnessText : SourceFreshnessStatus → Text
  | .current => asciiText "CURRENT"
  | .aging => asciiText "AGING"
  | .outdated => asciiText "OUTDATED"
  | .unknown => asciiText "UNKNOWN"

/-- A column of the row that the candidate is inserted as; texts are stored as UTF-8. -/
def insertedColumn (source : SourceInput) (freshness : SourceFreshnessStatus)
    (defaults : String → JsLeaf) (name : String) : JsLeaf :=
  let string (t : Text) : JsLeaf := .scalar (.string (toWellFormed t))
  if name = "publisher" then string source.publisher
  else if name = "published_at" then
    (source.publishedAt.map JsLeaf.date).getD (.scalar .null)
  else if name = "source_type" then string source.sourceType
  else if name = "language" then string source.language
  else if name = "reliability_grade" then string (asciiText "UNRATED")
  else if name = "freshness_status" then string (freshnessText freshness)
  else if name = "mime_type" then string source.mimeType
  else if name = "content_summary" then (source.contentSummary.map string).getD (.scalar .null)
  else defaults name

/-- The row that the candidate is inserted as. -/
def insertedRow (payload : SearchPayload) (candidate : SourceCandidate)
    (freshness : SourceFreshnessStatus) (defaults : String → JsLeaf) : SourceRow where
  id := candidate.id
  projectId := payload.projectId
  url := some (toWellFormed candidate.source.url)
  title := toWellFormed candidate.source.title
  ingestionMethod := asciiText "SEARCH"
  fetchMetadata := .object []
  rest := insertedColumn candidate.source freshness defaults
  distinct := ⟨List.nodup_nil, trivial⟩

/-- The row was registered for the candidate before. -/
def isRegisteredFor (payload : SearchPayload) (candidate : SourceCandidate) (row : SourceRow) : Prop :=
  row.projectId = payload.projectId ∧ row.url = some candidate.source.url ∧
    row.ingestionMethod = asciiText "SEARCH"

instance (payload : SearchPayload) (candidate : SourceCandidate) (row : SourceRow) :
    Decidable (isRegisteredFor payload candidate row) :=
  inferInstanceAs (Decidable (_ ∧ _))

/-- The state of the loop over the candidates. -/
structure Registration where
  sources : SourceTable
  registered : List SourceRow

/-- The signal is not aborted. -/
def throwIfAborted (aborted : Bool) (message : String) : Except CommitError Unit :=
  ensure (aborted = false) (jobError "SEARCH_ABORTED" message .cancelled)

/-- One turn of the loop over the candidates. -/
def registerCandidate (payload : SearchPayload) (project : SearchProject) (call : SearchCall)
    (state : Registration) (candidate : SourceCandidate) : Except CommitError Registration := do
  throwIfAborted (call.aborted (state.registered.length + 1))
    "Source search was aborted while results were being committed."
  match call.existing.find? fun row => decide (row.id = candidate.id) with
  | some prior => do
    ensure (isRegisteredFor payload candidate prior) (jobError "SEARCH_SOURCE_ID_COLLISION"
      "A deterministic source ID was already used for different source data."
      .nonRetryableSecurity)
    return { state with registered := state.registered ++ [prior] }
  | none => do
    let freshness ← (Qa.assessSourceFreshness candidate.source.publishedAt project.researchDate
      project.maxAgeDays).mapError fun message => .hit (.date message)
    ensure (fitsColumns candidate.source) (.hit .column)
    let row := insertedRow payload candidate freshness call.defaults
    match state.sources.insert row with
    | some sources => return { sources, registered := state.registered ++ [row] }
    | none => do
      let collision := jobError "SEARCH_SOURCE_ID_COLLISION"
        "A deterministic source ID was concurrently used for different source data."
        .nonRetryableSecurity
      let row ← require (state.sources.rows.find? fun row => decide (row.id = candidate.id)) collision
      ensure (isRegisteredFor payload candidate row) collision
      return { state with registered := state.registered ++ [row] }

/-- The run, if the new sources are more than its budget allows. -/
def runOverBudget (db : SearchDb) (payload : SearchPayload) (run : Option (Text × SearchRun))
    (newCount : ℕ) : Except CommitError (Option (Text × SearchRun)) :=
  match run with
  | none => return none
  | some (runId, run) => do
    let maxSources ← require run.maxSources (jobError "INVALID_RUN_BUDGET"
      "The frozen run budget has no valid maxSources limit." .nonRetryableValidation)
    let currentCount := db.sources.rows.countP fun row => row.projectId = payload.projectId
    return if maxSources < currentCount + newCount then some (runId, run) else none

/-- The checkpoint of a job, with its hash. -/
def JobRow.checkpoint (job : JobRow) (output : Json) (hash : Text) : JobRow :=
  { job with outputReference := some (output.sorted p.keyOrder), outputHash := some hash }

/-- The end of the transaction: the execution is finished and the checkpoint is stored. -/
def storeCheckpoint (db : SearchDb) (jobId : ℕ) (call : SearchCall) (unique : List SourceCandidate)
    (state : Registration) : Except CommitError (Json × SearchDb) := do
  throwIfAborted (call.aborted (unique.length + 1))
    "Source search was aborted before provenance could be committed."
  let search := searchJson call.response (unique.map checkpointHit)
  let executions ← finishProviderExecution db.executions call.executionId .succeeded
    call.response.metadata.requestId (some (p.hash search))
  let checkpoint ← (sourceSearchOutputSchema p (outputJson p search state.registered)).mapError
    fun issue => .hit (.schema issue)
  ensure (isStorableJson checkpoint = true) (.hit .checkpoint)
  throwIfAborted (call.aborted (unique.length + 2))
    "Source search was aborted before its transaction completed."
  return (checkpoint, { db with sources := state.sources, executions }.updateJob jobId
    (JobRow.checkpoint p · checkpoint (p.hash checkpoint)))

/-- The transaction of a commit: what it returns, or an error that is thrown after its end. -/
def commitTransaction (db : SearchDb) (jobId : ℕ) (job : JobRow) (workerId : Text)
    (call : SearchCall) (payload : SearchPayload) (unique : List SourceCandidate) :
    Except CommitError (Except CommitError Json × SearchDb) := do
  throwIfAborted (call.aborted 0)
    "Source search was aborted before results could be committed."
  let project ← lockSearchProject db payload.projectId
  let _ ← lockFencedSearchJob db jobId job workerId
  let run ← lockSearchRun db payload
  let newCount := unique.countP fun candidate =>
    (call.existing.find? fun row => decide (row.id = candidate.id)).isNone
  match ← runOverBudget db payload run newCount with
  | some (runId, run) =>
    return (.error (jobError "SEARCH_SOURCE_BUDGET_EXCEEDED"
        "Run source budget changed before the search results could be committed."
        .nonRetryableBudget),
      blockRunForSearchBudget db runId run ["MAX_SOURCES"])
  | none => do
    let state ← unique.foldlM (registerCandidate payload project call) ⟨db.sources, []⟩
    let (checkpoint, db) ← storeCheckpoint p db jobId call unique state
    return (.ok checkpoint, db)

/-- `withTransaction(body)`: what throws leaves the database as it was. -/
def withTransaction {α : Type} (db : SearchDb)
    (body : Except CommitError (Except CommitError α × SearchDb)) : Except CommitError α × SearchDb :=
  match body with
  | .ok (outcome, db') => (outcome, db')
  | .error error => (.error error, db)

/-- `commitSourceSearchResults({ job, workerId, executionId, response, signal })`, for the job as
    the worker has claimed it. -/
def commitSourceSearchResults (db : SearchDb) (jobId : ℕ) (job : JobRow) (workerId : Text)
    (call : SearchCall) : Except CommitError Json × SearchDb :=
  withTransaction db do
    let payload ← parseSourceSearchJob job
    let unique ← uniqueCandidates p payload call.response
    commitTransaction p db jobId job workerId call payload unique

/-! ### Later attempts -/

/-- `parsed.data.search`. -/
def searchOf (output : Json) : Json := (output.field (asciiText "search")).getD (.leaf .null)

/-- `resultIds`. -/
def resultIds (output : Json) : List (Option Text) :=
  ((searchOf output).itemsField (asciiText "results")).map (textField (asciiText "id"))

/-- `registeredIds`: an id that is no text is missing. -/
def registeredIds (output : Json) : List (Option Text) :=
  (output.itemsField (asciiText "registered")).map (textField (asciiText "id"))

/-- The checkpoint of the row, if its hash, its provider and its query are right. -/
def readCheckpoint (payload : SearchPayload) (current : JobRow) : Except CommitError Json := do
  let stored ← require current.outputReference invalidCheckpoint
  let parsed ← (sourceSearchOutputSchema p stored).mapError fun _ => invalidCheckpoint
  let hash ← require current.outputHash invalidCheckpoint
  ensure (hash ≠ [] ∧ p.hash parsed = hash ∧
      (searchOf parsed).textField (asciiText "provider") = some payload.providerId ∧
      (searchOf parsed).textField (asciiText "query") = some payload.query) invalidCheckpoint
  return parsed

local instance : LawfulBEq (Option Text) := inferInstance

/-- `reuseCommittedSourceSearchResults({ job, workerId })`, for the job as the worker has claimed
    it. -/
def reuseCommittedSourceSearchResults (db : SearchDb) (jobId : ℕ) (job : JobRow)
    (workerId : Text) : Except CommitError (Option Json) :=
  if job.outputReference.isNone then return none
  else do
    let payload ← parseSourceSearchJob job
    let _ ← lockSearchProject db payload.projectId
    let current ← lockFencedSearchJob db jobId job workerId
    let parsed ← readCheckpoint p payload current
    ensure (none ∉ registeredIds parsed ∧ (resultIds parsed).Nodup ∧ (registeredIds parsed).Nodup ∧
        (resultIds parsed).length = (registeredIds parsed).length ∧
        ∀ id ∈ resultIds parsed, id ∈ registeredIds parsed) inconsistentIds
    ensure ((db.sources.rows.countP fun row =>
        row.projectId = payload.projectId ∧ some row.id ∈ resultIds parsed) =
        (resultIds parsed).length)
      (jobError "SEARCH_CHECKPOINT_SOURCE_MISSING"
        "A source referenced by the committed search checkpoint is missing." .nonRetryableSecurity)
    ensure (∃ row ∈ db.executions, row.jobId = jobId ∧ row.status = .succeeded)
      (jobError "SEARCH_CHECKPOINT_PROVENANCE_MISSING"
        "The committed search checkpoint has no successful provider provenance."
        .nonRetryableSecurity)
    return some parsed

/-! ### The system -/

/-- What happens to the rows: commits, and what other services write. -/
inductive SearchAct
  | commit (jobId : ℕ) (job : JobRow) (workerId : Text) (call : SearchCall)
  | submit (jobId : ℕ) (row : JobRow)
  | setLease (jobId : ℕ) (status : JobStatus) (leaseOwner : Option Text) (leaseCurrent : Bool)
      (attempts : ℕ)
  | complete (jobId : ℕ) (output : Json) (hash : Text)
  | deleteJob (jobId : ℕ)
  | startExecution (jobId : ℕ)
  | finishExecution (id : ℕ) (status : ProviderExecutionStatus) (requestId : Option Text)
  | writeSources (sources : SourceTable)
  | writeProject (projectId : Text) (project : Option SearchProject)
  | writeRun (runId : Text) (run : Option SearchRun)

/-- The job with a status and a lease: a claim, a start, a heartbeat, an expiry, a failure, a
    recovery, a cancellation. -/
def JobRow.withLease (job : JobRow) (status : JobStatus) (leaseOwner : Option Text)
    (leaseCurrent : Bool) (attempts : ℕ) : JobRow :=
  { job with status, leaseOwner, leaseCurrent, attempts }

/-- `completeJob`. -/
def JobRow.complete (job : JobRow) (output : Json) (hash : Text) : JobRow :=
  { job with
    status := .succeeded
    outputReference := some (output.sorted p.keyOrder)
    outputHash := some hash
    leaseOwner := none
    leaseCurrent := false }

/-- What an action does. -/
def SearchDb.step (db : SearchDb) : SearchAct → SearchDb
  | .commit jobId job workerId call => (commitSourceSearchResults p db jobId job workerId call).2
  | .submit jobId row =>
    if (db.jobs jobId).isSome then db
    else { db with jobs := Function.update db.jobs jobId (some row) }
  | .setLease jobId status leaseOwner leaseCurrent attempts =>
    db.updateJob jobId (·.withLease status leaseOwner leaseCurrent attempts)
  | .complete jobId output hash => db.updateJob jobId (JobRow.complete p · output hash)
  | .deleteJob jobId => { db with jobs := Function.update db.jobs jobId none }
  | .startExecution jobId =>
    { db with executions := db.executions ++ [⟨jobId, .started, none, none⟩] }
  | .finishExecution id status requestId =>
    match finishProviderExecution db.executions id status requestId none with
    | .ok executions => { db with executions }
    | .error _ => db
  | .writeSources sources => { db with sources }
  | .writeProject projectId project =>
    { db with projects := Function.update db.projects projectId project }
  | .writeRun runId run => { db with runs := Function.update db.runs runId run }

end

end ResearchWorkbench.SearchHits
