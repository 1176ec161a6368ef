import ResearchWorkbench.Domain.Content
import ResearchWorkbench.Store.Schema

namespace ResearchWorkbench

/-!
# The texts of the sources

What `lib/services/sources.ts`, `ingestion.ts`, `source-search-jobs.ts`, `documents.ts` and
`projects.ts` write into the columns `sanitized_content` and `prompt_injection_flag` of `sources`.

* `Sources.Tables` — the sources with these columns, the documents and the projects;
* `insertSource`, `addSources`, `reuseSource` — sources that are added with a text;
* `FetchedResponse`, `registerFetched`, `recordFetch` — the two writes of
  `fetchAndRegisterSource`;
* `registerSearchSource`, `quarantineUpload` — sources without a text;
* `registerExtraction`, `removeUpload`, `deleteProject` — what happens to them later.
-/

namespace Sources

/-! ### Tables -/

/-- A row of `sources`. -/
structure SourceRow where
  id : ℕ
  projectId : ℕ
  mimeType : Option Text
  sanitizedContent : Option Text
  promptInjectionFlag : Bool
  deriving DecidableEq, Repr

/-- A row of `documents`; its id is its position. -/
structure DocumentRow where
  projectId : ℕ
  sourceId : ℕ
  deleted : Bool
  deriving DecidableEq, Repr

/-- The tables, and the next id that `randomUUID()` returns. -/
structure Tables where
  nextId : ℕ
  projects : List ℕ
  sources : List SourceRow
  documents : List DocumentRow

/-- The empty tables. -/
def Tables.initial : Tables := ⟨0, [], [], []⟩

/-- `UPDATE sources … WHERE id = sourceId`. -/
def Tables.updateSource (db : Tables) (sourceId : ℕ) (f : SourceRow → SourceRow) : Tables :=
  { db with sources := db.sources.map fun row => if row.id = sourceId then f row else row }

/-- `INSERT INTO sources`. -/
def Tables.insertSource (db : Tables) (projectId : ℕ) (mimeType sanitizedContent : Option Text)
    (promptInjectionFlag : Bool) : Tables :=
  { db with
    nextId := db.nextId + 1
    sources := db.sources ++
      [{ id := db.nextId, projectId, mimeType, sanitizedContent, promptInjectionFlag }] }

/-- Text columns cannot hold the code unit 0. -/
def ensureStorable (texts : List (Option Text)) : Except ServiceError Unit :=
  ensure (∀ text ∈ texts.reduceOption, 0 ∉ text) (.constraint "invalid byte sequence for encoding")

/-! ### Sources with a text -/

/-- `SourceInput`, as far as the text depends on it. -/
structure SourceInput where
  mimeType : Option Text := none
  sanitizedContent : Option Text := none
  reusedFromSourceId : Option ℕ := none

/-- `sourceInputSchema.parse(input)`. -/
def parseSourceInput (input : SourceInput) : Except ServiceError SourceInput := do
  let mimeType := input.mimeType.map trimText
  ensure (∀ text ∈ mimeType, text.length ≤ 100) (.error "mimeType: Too big")
  ensure (∀ text ∈ input.sanitizedContent, text.length ≤ 200000) (.error "sanitizedContent: Too big")
  return { input with mimeType }

/-- `/<!doctype\s+html|<\/?[a-z][^>]*>/i`. -/
def htmlPattern : Regex :=
  .alt (.sequence [.literal "<!doctype", .many isSpaceUnit 1 none, .literal "html"])
    (.sequence [.literal "<", .many (fun c => c = 47) 0 (some 1),
      .unit (fun c => 97 ≤ lowerUnit c && lowerUnit c ≤ 122), .many (fun c => c ≠ 62) 0 none,
      .literal ">"])

/-- `contentLooksLikeHtml`. -/
def contentLooksLikeHtml (mimeType : Option Text) (content : Text) : Bool :=
  mimeType.any (Regex.literal "html").test || htmlPattern.test content

/-- The text that `insertSource` stores: HTML only as what is left of it. -/
def sanitizedText (sanitizeHtml : HtmlSanitizer) (input : SourceInput) : Option Text :=
  input.sanitizedContent.map fun content =>
    if content ≠ [] ∧ contentLooksLikeHtml input.mimeType content then
      externalHtmlToText sanitizeHtml (sanitizeExternalHtml sanitizeHtml content)
    else content

/-- `insertSource(client, projectId, project, input, actor)`. -/
def insertSource (sanitizeHtml : HtmlSanitizer) (db : Tables) (projectId : ℕ) (input : SourceInput) :
    Except ServiceError Tables := do
  ensure (∀ id ∈ input.reusedFromSourceId, ∃ row ∈ db.sources, row.id = id)
    (notFound "Reusable source")
  let sanitizedContent := sanitizedText sanitizeHtml input
  let injection := assessPromptInjection (sanitizedContent.getD [])
  ensureStorable [input.mimeType, sanitizedContent]
  return db.insertSource projectId (input.mimeType.map toWellFormed)
    (sanitizedContent.map toWellFormed) injection.flagged

/-- `addSources(projectId, inputs, actor)`. -/
def addSources (sanitizeHtml : HtmlSanitizer) (db : Tables) (projectId : ℕ)
    (inputs : List SourceInput) : Except ServiceError Tables := do
  ensure (1 ≤ inputs.length ∧ inputs.length ≤ 100) (.error "Too small or too big")
  let inputs ← inputs.mapM parseSourceInput
  ensure (projectId ∈ db.projects) (notFound "Project")
  inputs.foldlM (fun db input => insertSource sanitizeHtml db projectId input) db

/-- `value || undefined`. -/
def nonEmpty (value : Option Text) : Option Text := value.filter (· ≠ [])

/-- `reuseSource(projectId, sourceId, actor)`. -/
def reuseSource (sanitizeHtml : HtmlSanitizer) (db : Tables) (projectId sourceId : ℕ) :
    Except ServiceError Tables := do
  let row ← require (db.sources.find? (·.id = sourceId)) (notFound "Source")
  addSources sanitizeHtml db projectId
    [{ mimeType := nonEmpty row.mimeType
       sanitizedContent := nonEmpty row.sanitizedContent
       reusedFromSourceId := some sourceId }]

/-! ### Fetched sources -/

/-- The `allowedMimeTypes` of `fetchAndRegisterSource`. -/
inductive FetchMimeType
  | applicationJson | applicationXhtml | textCsv | textHtml | textMarkdown | textPlain
  deriving DecidableEq, Repr

/-- The name of a type. -/
def FetchMimeType.name : FetchMimeType → String
  | .applicationJson => "application/json"
  | .applicationXhtml => "application/xhtml+xml"
  | .textCsv => "text/csv"
  | .textHtml => "text/html"
  | .textMarkdown => "text/markdown"
  | .textPlain => "text/plain"

/-- A response that `safeFetch` accepts: its type and its body as `TextDecoder` reads it. -/
structure FetchedResponse where
  contentType : FetchMimeType
  body : Text
  deriving DecidableEq, Repr

/-- Whether the type is one of HTML. -/
def FetchMimeType.isHtml (contentType : FetchMimeType) : Bool :=
  contentType ∈ [.textHtml, .applicationXhtml]

/-- `fetched.text`. -/
def FetchedResponse.text (sanitizeHtml : HtmlSanitizer) (fetched : FetchedResponse) : Text :=
  if fetched.contentType.isHtml then
    externalHtmlToText sanitizeHtml (sanitizeExternalHtml sanitizeHtml fetched.body)
  else fetched.body

/-- `fetched.promptInjection`. -/
def FetchedResponse.promptInjection (sanitizeHtml : HtmlSanitizer) (fetched : FetchedResponse) :
    PromptInjectionAssessment :=
  assessPromptInjection (fetched.text sanitizeHtml)

/-- The input of `addSource` in `fetchAndRegisterSource`. -/
def FetchedResponse.input (sanitizeHtml : HtmlSanitizer) (maxFetchBytes : ℕ)
    (fetched : FetchedResponse) : SourceInput where
  mimeType := some (asciiText fetched.contentType.name)
  sanitizedContent := some <|
    if fetched.contentType.isHtml then externalHtmlToText sanitizeHtml (fetched.text sanitizeHtml)
    else ((fetched.text sanitizeHtml).filter (· ≠ 0)).take maxFetchBytes

/-- The text that this input leaves in the source, once it is parsed. -/
def FetchedResponse.storedText (sanitizeHtml : HtmlSanitizer) (maxFetchBytes : ℕ)
    (fetched : FetchedResponse) : Option Text :=
  let input := fetched.input sanitizeHtml maxFetchBytes
  sanitizedText sanitizeHtml { input with mimeType := input.mimeType.map trimText }

/-- The first write of `fetchAndRegisterSource(projectId, input, actor)`: `addSource`. -/
def registerFetched (sanitizeHtml : HtmlSanitizer) (maxFetchBytes : ℕ) (db : Tables)
    (projectId : ℕ) (fetched : FetchedResponse) : Except ServiceError Tables :=
  addSources sanitizeHtml db projectId [fetched.input sanitizeHtml maxFetchBytes]

/-- The second write: the flag of what was fetched. -/
def recordFetch (sanitizeHtml : HtmlSanitizer) (db : Tables) (sourceId : ℕ)
    (fetched : FetchedResponse) : Tables :=
  db.updateSource sourceId
    ({ · with promptInjectionFlag := (fetched.promptInjection sanitizeHtml).flagged })

/-! ### Sources without a text -/

/-- A new source of `commitSourceSearchResults`. -/
def registerSearchSource (db : Tables) (projectId : ℕ) (mimeType : Option Text) :
    Except ServiceError Tables := do
  ensure (projectId ∈ db.projects) (notFound "Project")
  ensureStorable [mimeType]
  return db.insertSource projectId (mimeType.map toWellFormed) none false

/-- The source and the document of `quarantineDocument`. -/
def quarantineUpload (db : Tables) (projectId : ℕ) (mimeType : Text) :
    Except ServiceError Tables := do
  ensure (projectId ∈ db.projects) (notFound "Project")
  ensureStorable [some mimeType]
  let sourceId := db.nextId
  let db := db.insertSource projectId (some (toWellFormed mimeType)) none false
  return { db with documents := db.documents ++ [{ projectId, sourceId, deleted := false }] }

/-- What a successful extraction writes to the source of its document. -/
def registerExtraction (db : Tables) (documentId : ℕ) (text : Text) : Except ServiceError Tables := do
  let document ← require db.documents[documentId]? (notFound "Document")
  ensure (document.deleted = false) (notFound "Document")
  let securitySignals := assessPromptInjection text
  ensureStorable [some text]
  return db.updateSource document.sourceId ({ · with
    sanitizedContent := some (toWellFormed text)
    promptInjectionFlag := securitySignals.flagged })

/-- What `deleteDocument` writes to the document and its source. -/
def removeUpload (db : Tables) (documentId : ℕ) : Except ServiceError Tables := do
  let document ← require db.documents[documentId]? (notFound "Document")
  if document.deleted then
    return db
  else
    let db := { db with documents := db.documents.modify documentId ({ · with deleted := true }) }
    return db.updateSource document.sourceId
      ({ · with sanitizedContent := none, promptInjectionFlag := false })

/-- `DELETE FROM research_projects WHERE id = projectId`, with what it takes along.  The documents
    stay as deleted ones, so that positions stay ids. -/
def deleteProject (db : Tables) (projectId : ℕ) : Tables :=
  { db with
    projects := db.projects.filter (· ≠ projectId)
    sources := db.sources.filter (·.projectId ≠ projectId)
    documents := db.documents.map fun document =>
      if document.projectId = projectId then { document with deleted := true } else document }

end Sources

end ResearchWorkbench
