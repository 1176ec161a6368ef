import ResearchWorkbench.Library.Table
import ResearchWorkbench.Services.StageInputs

namespace ResearchWorkbench.Reports

/-!
# Reports

The deliverable of a project and its revisions, as three calls write them: `createProject`
(`lib/services/projects.ts`), `updateDeliverable` (`lib/services/reports.ts`), the editor's, and
`commitDraftSuggestion` (`lib/services/research-orchestrator.ts`), which takes over the output of
`draft_generation`.

* `ReportSectionKey`, `DeliverableRow`, `DeliverableRevisionRow`, `ReportDb` — the tables;
* `deliverableUpdateSchema`, `updateDeliverable` — the editor;
* `generatedReportSections`, `commitDraftSuggestion` — the suggestion.
-/

open Schema Contracts

/-! ### The tables -/

/-- `reportSectionKeys`. -/
inductive ReportSectionKey
  | researchPurpose | executiveSummary | researchScope | methodology | keyFindings
  | detailedAnalysis | comparisonTable | risksAndLimitations | recommendations | references
  | appendix
  deriving DecidableEq, Repr

/-- `reportSectionKeys`, in their order. -/
def reportSectionKeys : List ReportSectionKey :=
  [.researchPurpose, .executiveSummary, .researchScope, .methodology, .keyFindings,
    .detailedAnalysis, .comparisonTable, .risksAndLimitations, .recommendations, .references,
    .appendix]

theorem mem_reportSectionKeys (key : ReportSectionKey) : key ∈ reportSectionKeys := by
  cases key <;> decide

/-- `deliverables.sections`, where what is no string is missing. -/
abbrev StoredSections := ReportSectionKey → Option Text

/-- `typeof sections[key] === "string" ? sections[key] : ""`. -/
def sectionText (sections : StoredSections) (key : ReportSectionKey) : Text :=
  (sections key).getD []

/-- The `actor_type` of a revision. -/
inductive ActorType
  | user | ai | system
  deriving DecidableEq, Repr

/-- A row of `deliverables`. -/
structure DeliverableRow where
  projectId : ℕ
  version : ℕ
  title : Text
  sections : StoredSections
  generatedAt : Option ℕ

/-- A row of `deliverable_revisions`. -/
structure DeliverableRevisionRow where
  deliverableId : ℕ
  actorType : ActorType
  changedSections : List ReportSectionKey
  previousSections : StoredSections
  newSections : StoredSections

/-- `NOW()`, the number of projects, and the tables. -/
structure ReportDb where
  now : ℕ
  projects : ℕ
  deliverables : List DeliverableRow
  revisions : List DeliverableRevisionRow

/-- `SELECT … FROM deliverables WHERE project_id = $1 ORDER BY version DESC LIMIT 1`. -/
def currentDeliverable (db : ReportDb) (projectId : ℕ) : Option (ℕ × DeliverableRow) :=
  findRow (fun d => d.projectId = projectId ∧
    db.deliverables.all fun other => other.projectId = projectId → other.version ≤ d.version)
    db.deliverables

/-- `INSERT INTO deliverables`. -/
def ReportDb.insertDeliverable (db : ReportDb) (d : DeliverableRow) : ReportDb :=
  { db with deliverables := db.deliverables ++ [d] }

/-- `UPDATE deliverables … WHERE id = $1`. -/
def ReportDb.updateDeliverable (db : ReportDb) (id : ℕ) (f : DeliverableRow → DeliverableRow) :
    ReportDb :=
  { db with deliverables := db.deliverables.modify id f }

/-- `INSERT INTO deliverable_revisions`. -/
def ReportDb.insertRevision (db : ReportDb) (revision : DeliverableRevisionRow) : ReportDb :=
  { db with revisions := db.revisions ++ [revision] }

/-! ### The editor -/

/-- The `.max(n)` of a section in `reportSectionsSchema`. -/
def maxSectionLength : ReportSectionKey → ℕ
  | .researchPurpose | .executiveSummary | .researchScope | .methodology => 50000
  | .detailedAnalysis => 200000
  | _ => 100000

/-- `reportSectionsSchema`; a section that is missing is empty. -/
def reportSectionsSchema : Schema StoredSections (ReportSectionKey → Text) := fun x => do
  let _ ← reportSectionKeys.mapM fun key => atMost (maxSectionLength key) ((x key).getD [])
  return fun key => (x key).getD []

/-- What `deliverableUpdateSchema` parses; `updateDeliverable` does not read `actorType`. -/
structure DeliverableUpdate (sections : Type) where
  title : Text
  sections : sections

/-- `deliverableUpdateSchema`. -/
def deliverableUpdateSchema : Schema (DeliverableUpdate StoredSections)
    (DeliverableUpdate (ReportSectionKey → Text)) := fun x => do
  let title ← trimmedBetween 3 500 x.title
  let sections ← reportSectionsSchema x.sections
  return { title, sections }

/-- How `updateDeliverable` fails. -/
inductive UpdateError
  | schema (issue : SchemaIssue)
  | service (error : ServiceError)
  deriving Repr

/-- `createProject(rawInput)`: a project and its first deliverable, which is empty. -/
def createProject (db : ReportDb) (name : Text) : ReportDb :=
  { db with projects := db.projects + 1 }.insertDeliverable
    { projectId := db.projects
      version := 1
      title := name
      sections := fun _ => some []
      generatedAt := none }

/-- `updateDeliverable(projectId, rawInput, actor)`. -/
def updateDeliverable (db : ReportDb) (projectId : ℕ)
    (rawInput : DeliverableUpdate StoredSections) (actor : ActorType) :
    Except UpdateError ReportDb := do
  let input ← (deliverableUpdateSchema rawInput).mapError .schema
  ensure (projectId < db.projects) (.service (notFound "Project"))
  let (id, current) ← require (currentDeliverable db projectId) (.service (notFound "Deliverable"))
  let newSections : StoredSections := fun key => some (input.sections key)
  let changedSections := reportSectionKeys.filter fun key => current.sections key ≠ newSections key
  let db := db.updateDeliverable id fun d =>
    { d with title := input.title, sections := newSections }
  return db.insertRevision
    { deliverableId := id
      actorType := actor
      changedSections
      previousSections := current.sections
      newSections }

/-! ### The suggestion -/

/-- `[@${sourceId}]`. -/
def citation (sourceId : Text) : Text := asciiText "[@" ++ sourceId ++ asciiText "]"

/-- The line of a claim, with the citations of its sources that the draft cites. -/
def claimLine (output : Draft) (claim : DomainClaim) : Text :=
  let sourceIds := (claim.sourceIds.getD []).filter (· ∈ output.citationSourceIds)
  let claimCitations := List.intercalate [32] (sourceIds.map citation)
  asciiText "- " ++ claim.content ++ (if claimCitations = [] then [] else 32 :: claimCitations)

/-- `value || fallback`. -/
def orElse (value fallback : Text) : Text := if value = [] then fallback else value

/-- `generatedReportSections(bundle, output)`. -/
def generatedReportSections (bundle : Contracts.ResearchOrchestrationBundle) (output : Draft) :
    ReportSectionKey → Text
  | .researchPurpose => text bundle.scopeSnapshot.purpose
      (asciiText "Human review of the approved research purpose is required.")
  | .executiveSummary => output.markdown
  | .researchScope => text bundle.scopeSnapshot.scope
      (asciiText "Use the frozen approved scope for this run.")
  | .methodology => asciiText
      "Generated from the frozen approved scope and plan using evidence restricted to this project."
  | .keyFindings => orElse (List.intercalate [10] (bundle.domainClaims.map (claimLine output)))
      (asciiText "No AI-proposed finding is ready for human inclusion.")
  | .detailedAnalysis => output.markdown
  | .comparisonTable => []
  | .risksAndLimitations => orElse (List.intercalate [10] output.limitations)
      (asciiText "Provider output requires human review.")
  | .recommendations => asciiText "Review all AI suggestions and evidence before approval."
  | .references => orElse (List.intercalate [10] (output.citationSourceIds.map citation))
      (asciiText "No source citation was proposed.")
  | .appendix => []

/-- The sections that revisions of a kind of actor have changed. -/
def ownedSections (db : ReportDb) (deliverableId : ℕ) (actor : ActorType) :
    List ReportSectionKey :=
  (db.revisions.filter fun r => r.deliverableId = deliverableId ∧ r.actorType = actor).flatMap
    (·.changedSections)

/-- The condition under which `commitDraftSuggestion` replaces a section. -/
def isReplaced (db : ReportDb) (deliverableId : ℕ) (sections : StoredSections)
    (generated : ReportSectionKey → Text) (key : ReportSectionKey) : Bool :=
  key ∉ ownedSections db deliverableId .user ∧
    (trimText (sectionText sections key) = [] ∨ key ∈ ownedSections db deliverableId .ai) ∧
    sectionText sections key ≠ generated key

/-- `nextSections`: the changed sections are replaced. -/
def nextSections (changedSections : List ReportSectionKey) (sections : StoredSections)
    (generated : ReportSectionKey → Text) : StoredSections := fun key =>
  if key ∈ changedSections then some (generated key) else sections key

/-- `commitDraftSuggestion(client, bundle, output)`, for the project of the bundle's run. -/
def commitDraftSuggestion (db : ReportDb) (projectId : ℕ)
    (bundle : Contracts.ResearchOrchestrationBundle) (output : Draft) : ReportDb :=
  let generated := generatedReportSections bundle output
  let stored : StoredSections := fun key => some (generated key)
  match currentDeliverable db projectId with
  | none =>
    (db.insertDeliverable
      { projectId
        version := 1
        title := output.title
        sections := stored
        generatedAt := some db.now }).insertRevision
      { deliverableId := db.deliverables.length
        actorType := .ai
        changedSections := reportSectionKeys.filter fun key => trimText (generated key) ≠ []
        previousSections := fun _ => none
        newSections := stored }
  | some (id, deliverable) =>
    let changedSections := reportSectionKeys.filter
      (isReplaced db id deliverable.sections generated)
    let nextSections := nextSections changedSections deliverable.sections generated
    if changedSections = [] then
      db
    else
      let db := db.updateDeliverable id fun d =>
        { d with sections := nextSections, generatedAt := some db.now }
      db.insertRevision
        { deliverableId := id
          actorType := .ai
          changedSections
          previousSections := deliverable.sections
          newSections := nextSections }

end ResearchWorkbench.Reports
