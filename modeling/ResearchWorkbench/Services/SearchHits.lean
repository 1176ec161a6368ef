import ResearchWorkbench.Domain.Qa
import ResearchWorkbench.Library.Json
import ResearchWorkbench.Services.SafeFetch

namespace ResearchWorkbench.SearchHits

/-!
# From a payload to sources

`lib/providers/brave.ts`, `lib/services/source-search-jobs.ts` and `sourceInputSchema`
(`lib/validation.ts`): what the search service returns becomes hits, sources and a checkpoint.

* `SearchPlatform`, `SearchRequest`, `SearchHit` — what is read;
* `publishedDate`, `readResult`, `parseResults`, `parseHits` — the parser of the provider;
* `SourceInput`, `sourceInputSchema`, `sourceFromHit` — the source of a hit;
* `hitOutputSchema` — the hit in the checkpoint;
* `fitsColumns`, `isStorable` — what the database takes;
* `commitHits` — the part of `commitSourceSearchResults` that depends on the hits.

The lease, the budget, the audit events and the execution are left out of `commitHits`.
-/

open Contracts SafeFetch

/-! ### What is read -/

/-- The platform: URLs and the package `sanitize-html`, SHA-256 as hexadecimal digits, and whether
    `Date.parse` gives a number. -/
structure SearchPlatform where
  rt : Runtime
  digest : Text → Text
  dateParses : Text → Bool

def isLetter (c : ℕ) : Bool := 65 ≤ c && c ≤ 90 || 97 ≤ c && c ≤ 122

/-- The request of a job, whose count and language were checked. -/
structure SearchRequest where
  count : ℕ
  searchLanguage : Option Text
  one_le_count : 1 ≤ count
  count_le : count ≤ 20
  language_length : ∀ t ∈ searchLanguage, 2 ≤ t.length ∧ t.length ≤ 8
  language_letters : ∀ t ∈ searchLanguage, ∀ c ∈ t, isLetter c = true

/-- `SearchHit`. -/
structure SearchHit where
  id : Text
  title : Text
  url : Text
  snippet : Text
  publishedAt : Option Text
  language : Option Text
  deriving DecidableEq, Repr

/-! ### The parser of the provider -/

/-- `record(value)`: the fields of an object. -/
def record : Option Json → Option (List (Text × Json))
  | some (.object fields) => some fields
  | _ => none

/-- `item?.name`. -/
def property (item : Option (List (Text × Json))) (name : String) : Option Json :=
  item.bind fun fields => (fields.find? fun field => decide (field.1 = asciiText name)).map (·.2)

/-- `stringValue(value)`. -/
def stringValue : Option Json → Option Text
  | some (.leaf (.string s)) => if trimText s ≠ [] then some (trimText s) else none
  | _ => none

/-- `/^\d{4}-\d{2}-\d{2}(?:T|$)/`. -/
def hasDateShape (t : Text) : Bool :=
  isIsoDate (t.take 10) && (decide ((t.drop 10).head? = some 84) || decide (t.drop 10 = []))

section
variable (p : SearchPlatform)

/-- `publishedDate(value)`. -/
def publishedDate (value : Option Json) : Option Text :=
  (stringValue value).filter fun candidate => hasDateShape candidate && p.dateParses candidate

/-- A result with a title and a URL that is allowed. -/
structure ReadResult where
  item : Option (List (Text × Json))
  url : Url
  title : Text

/-- The result, if it has a title and a URL that is allowed. -/
def readResult (raw : Json) : Option ReadResult := do
  let item := record (some raw)
  let rawUrl ← stringValue (property item "url")
  let rawTitle ← stringValue (property item "title")
  let url ← (validateExternalUrl p.rt rawUrl).toOption
  return { item, url, title := rawTitle }

/-- `publishedAt` of a hit. -/
def publishedAtOf (item : Option (List (Text × Json))) : Option Text :=
  (publishedDate p (property item "page_age")).or
    ((publishedDate p (property item "published_time")).or
      (publishedDate p (property item "publishedAt")))

/-- `resultId(url)`. -/
def resultId (url : Text) : Text := asciiText "brave-" ++ (p.digest url).take 20

/-- The hit of a result. -/
def hitOf (result : ReadResult) : SearchHit where
  id := resultId p result.url.toString
  title := externalHtmlToText p.rt.sanitizeHtml result.title
  url := result.url.toString
  snippet := externalHtmlToText p.rt.sanitizeHtml
    ((stringValue (property result.item "description")).getD [])
  publishedAt := publishedAtOf p result.item
  language := stringValue (property result.item "language")

/-- The loop of `parseHits`, with the URLs that it has seen. -/
def parseResults (count : ℕ) : List Json → List Text → List SearchHit → List SearchHit
  | [], _, hits => hits
  | raw :: results, seen, hits =>
    match readResult p raw with
    | none => parseResults count results seen hits
    | some result =>
      if result.url.toString ∈ seen then parseResults count results seen hits
      else
        let hits := hits ++ [hitOf p result]
        if hits.length ≥ count then hits
        else parseResults count results (seen ++ [result.url.toString]) hits

/-- `results`: `payload.web.results`, if it is an array. -/
def resultsOf (payload : Json) : List Json :=
  match property (record (property (record (some payload)) "web")) "results" with
  | some (.array items) => items
  | _ => []

/-- `parseHits(payload, count)`. -/
def parseHits (payload : Json) (count : ℕ) : List SearchHit :=
  parseResults p count (resultsOf payload) [] []

/-! ### The source of a hit -/

/-- Why a hit is not committed. -/
inductive HitError
  | url (error : SafeFetchError)
  | schema (issue : SchemaIssue)
  | date (message : String)
  | collision
  | column
  | checkpoint
  deriving DecidableEq

/-- The fields of `SourceInput` that a hit gives. -/
structure SourceInput where
  url : Text
  title : Text
  publisher : Text
  publishedAt : Option Text
  sourceType : Text
  language : Text
  contentSummary : Option Text
  mimeType : Text
  deriving DecidableEq

/-- `z.string().url()`. -/
def urlText : Schema Text Text := fun value => do
  let _ ← require (p.rt.parseUrl (trimText value) none) .invalidFormat
  return trimText value

/-- These fields in `sourceInputSchema`. -/
def sourceInputSchema : Schema SourceInput SourceInput := fun input => do
  let url ← urlText p input.url
  let title ← trimmedBetween 2 500 input.title
  let publisher ← (trimmed >=> Schema.atMost 500) input.publisher
  let publishedAt ← Schema.optional isoDate input.publishedAt
  let sourceType ← trimmedBetween 2 80 input.sourceType
  let language ← trimmedBetween 2 20 input.language
  let contentSummary ← Schema.optional (trimmed >=> Schema.atMost 20000) input.contentSummary
  let mimeType ← (trimmed >=> Schema.atMost 100) input.mimeType
  return { url, title, publisher, publishedAt, sourceType, language, contentSummary, mimeType }

/-- `publishedDate(value)` of the job: the date at the front of the text. -/
def dateAtFront (value : Option Text) : Option Text :=
  (value.map fun t => t.take 10).filter fun t => isIsoDate t

/-- `hit.snippet || undefined`. -/
def summaryOf (hit : SearchHit) : Option Text := if hit.snippet ≠ [] then some hit.snippet else none

/-- What `sourceFromHit` gives, with the hit. -/
structure SourceCandidate where
  id : Text
  providerResultId : Text
  source : SourceInput
  hit : SearchHit

/-- `deterministicSourceId(projectId, providerId, url)`. -/
def deterministicSourceId (projectId providerId url : Text) : Text :=
  asciiText "search-" ++ (p.digest (asciiText "source-search-v1" ++ [0] ++ projectId ++ [0] ++
    providerId ++ [0] ++ url)).take 48

/-- The project and the provider of the job, and the request. -/
structure SearchJob where
  projectId : Text
  providerId : Text
  request : SearchRequest
  /-- `project.research_date`, which is a date, and `project.source_max_age_days`. -/
  researchDate : Text
  maxAgeDays : ℤ
  researchDay : ∃ day, Qa.utcDay researchDate "researchDate" = .ok day
  zero_le_maxAgeDays : 0 ≤ maxAgeDays

/-- `sourceFromHit(projectId, providerId, hit, request)`. -/
def sourceFromHit (job : SearchJob) (hit : SearchHit) : Except HitError SourceCandidate := do
  let normalizedUrl ← (validateExternalUrl p.rt hit.url).mapError .url
  let url := { normalizedUrl with hash := [] }.toString
  let parsed ← require (p.rt.parseUrl url none) (.schema .invalidFormat)
  let source ← (sourceInputSchema p
    { url
      title := hit.title
      publisher := parsed.hostname
      publishedAt := dateAtFront hit.publishedAt
      sourceType := asciiText "SEARCH_RESULT"
      language := (hit.language.or job.request.searchLanguage).getD (asciiText "en")
      contentSummary := summaryOf hit
      mimeType := asciiText "text/html" }).mapError .schema
  return { id := deterministicSourceId p job.projectId job.providerId url
           providerResultId := hit.id, source, hit }

/-! ### The checkpoint and the database -/

/-- A hit in the checkpoint, with the id that the provider gave it. -/
structure CheckpointHit extends SearchHit where
  providerResultId : Text
  deriving DecidableEq

/-- A hit of the checkpoint, in `sourceSearchOutputSchema`. -/
def hitOutputSchema : Schema CheckpointHit CheckpointHit := fun hit => do
  let id ← trimmedBetween 1 200 hit.id
  let title ← trimmedBetween 1 500 hit.title
  let url ← urlText p hit.url
  let snippet ← Schema.atMost 20000 hit.snippet
  let language ← Schema.optional (trimmedBetween 2 20) hit.language
  return { hit with id, title, url, snippet, language }

/-- A text that a column of type `TEXT` takes. -/
def fitsText (t : Text) : Prop := 0 ∉ t

instance decidableFitsText (t : Text) : Decidable (fitsText t) :=
  inferInstanceAs (Decidable (0 ∉ t))

/-- A date of the calendar, which a column of type `DATE` takes. -/
def isCalendarDate (t : Text) : Bool :=
  let year := numeral 10 (t.take 4)
  let month := numeral 10 ((t.drop 5).take 2)
  let day := numeral 10 (t.drop 8)
  isIsoDate t && decide (1 ≤ year ∧ 1 ≤ month ∧ month ≤ 12 ∧ 1 ≤ day ∧
    day ≤ Qa.daysInMonth year month)

/-- The columns of `sources` take the values. -/
def fitsColumns (source : SourceInput) : Prop :=
  (∀ t ∈ [source.url, source.title, source.publisher, source.sourceType, source.language,
      source.contentSummary.getD [], source.mimeType], fitsText t) ∧
    ∀ t ∈ source.publishedAt, isCalendarDate t = true

instance decidableFitsColumns (source : SourceInput) : Decidable (fitsColumns source) :=
  inferInstanceAs (Decidable (_ ∧ _))

/-- A text that a value of type `jsonb` may have: it has no `U+0000`, and UTF-8 gives it back. -/
def isStorable (t : Text) : Prop := 0 ∉ t ∧ toWellFormed t = t

instance decidableIsStorable (t : Text) : Decidable (isStorable t) :=
  inferInstanceAs (Decidable (_ ∧ _))

/-- The hit of the checkpoint can be stored. -/
def fitsCheckpoint (hit : CheckpointHit) : Prop :=
  ∀ t ∈ [hit.id, hit.title, hit.url, hit.snippet, hit.publishedAt.getD [], hit.language.getD [],
    hit.providerResultId], isStorable t

instance decidableFitsCheckpoint (hit : CheckpointHit) : Decidable (fitsCheckpoint hit) :=
  inferInstanceAs (Decidable (∀ _ ∈ _, _))

/-- A row of `sources` that is there. -/
structure ExistingSource where
  id : Text
  projectId : Text
  url : Text
  ingestionMethod : Text

/-- The turn of a candidate: the id of its row. -/
def registerSource (job : SearchJob) (existing : List ExistingSource)
    (candidate : SourceCandidate) : Except HitError Text :=
  match existing.find? fun row => decide (row.id = candidate.id) with
  | some prior => do
    ensure (prior.projectId = job.projectId ∧ prior.url = candidate.source.url ∧
      prior.ingestionMethod = asciiText "SEARCH") .collision
    return prior.id
  | none => do
    let _ ← (Qa.assessSourceFreshness candidate.source.publishedAt job.researchDate
      job.maxAgeDays).mapError .date
    ensure (fitsColumns candidate.source) .column
    return candidate.id

/-- The hit of the candidate, with the id of its source. -/
def checkpointHit (candidate : SourceCandidate) : CheckpointHit :=
  { candidate.hit with id := candidate.id, providerResultId := candidate.providerResultId }

/-- The part of `commitSourceSearchResults` that depends on the hits: the ids of the rows and the
    hits of the checkpoint. -/
def commitHits (job : SearchJob) (existing : List ExistingSource) (hits : List SearchHit) :
    Except HitError (List Text × List CheckpointHit) := do
  let candidates ← hits.mapM (sourceFromHit p job)
  let unique := firstsBy (·.id) candidates
  let registered ← unique.mapM (registerSource job existing)
  let search ← (Schema.array (hitOutputSchema p) (unique.map checkpointHit)).mapError .schema
  ensure (∀ hit ∈ search, fitsCheckpoint hit) .checkpoint
  return (registered, search)

end

end ResearchWorkbench.SearchHits
