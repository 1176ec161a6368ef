import ResearchWorkbench.Services.Qa

namespace ResearchWorkbench.Qa

/-!
# The citations of a draft

What `lib/providers/ai-shared.ts` and `lib/services/research-orchestrator.ts` check of the sources
that a draft cites, and what `lib/evaluation/runner.ts` reads of them.

* `sourceIdPattern`, `sourceIdsInMarkdown`, `sourceIdsInDraft` — `sourceIdsIn`;
* `parseDraft`, `validateDraftReferences` — the two checks;
* `citationIds` — the evaluation.
-/

open Reports Contracts

/-! ### The checks of a draft -/

/-- `(?:source:|@)` with the flag `i`. -/
def citationPrefix : Pattern Unit :=
  Pattern.alt (Pattern.word true (asciiText "source:")) (Pattern.word true (asciiText "@"))

/-- `([A-Za-z0-9][A-Za-z0-9._:-]{0,127})\](?!\()`. -/
def closedIdPattern : Pattern Text := do
  let first ← Pattern.unit isAlphanumericUnit
  let rest ← Pattern.many isCitationUnit 0 (some 127)
  let _ ← Pattern.unit (· = 93)
  let _ ← Pattern.notAhead (· = 40)
  return first :: rest

/-- `/\[(?:source:|@)?([A-Za-z0-9][A-Za-z0-9._:-]{0,127})\](?!\()/gi`. -/
def sourceIdPattern : Pattern Text := do
  let _ ← Pattern.unit (· = 91)
  let _ ← Pattern.optional citationPrefix
  closedIdPattern

/-- `sourceIdsIn({ markdown })`. -/
def sourceIdsInMarkdown (markdown : Text) : List Text := sourceIdPattern.matchAll markdown

/-- `sourceIdsIn(draft)`: a draft has source ids in its markdown and under `citationSourceIds`. -/
def sourceIdsInDraft (draft : Draft) : List Text :=
  sourceIdsInMarkdown draft.markdown ++ draft.citationSourceIds

/-- How `parseStageOutput` fails. -/
inductive ParseError
  | schema (issue : SchemaIssue)
  | error (message : String)
  deriving DecidableEq, Repr

/-- `parseStageOutput("draft_generation", value)`. -/
def parseDraft (value : Draft) : Except ParseError Draft := do
  let draft ← (draftSchema value).mapError .schema
  let citedInMarkdown := firsts (sourceIdsInMarkdown draft.markdown)
  let declaredCitations := firsts draft.citationSourceIds
  ensure (citedInMarkdown.length = declaredCitations.length ∧
      ∀ sourceId ∈ citedInMarkdown, sourceId ∈ declaredCitations)
    (.error "Draft citations must exactly match citationSourceIds")
  return draft

/-- `validateResearchStageOutputReferences(bundle, output)`, for a draft. -/
def validateDraftReferences (bundle : ResearchOrchestrationBundle) (output : Draft) :
    Except Text Unit := do
  let allowedSources := bundle.eligibleSources.map (·.id)
  let unknownSources := (firsts (sourceIdsInDraft output)).filter (· ∉ allowedSources)
  ensure (unknownSources = [])
    (asciiText "Provider output referenced unknown or ineligible source IDs: " ++
      List.intercalate (asciiText ", ") unknownSources ++ asciiText ".")

/-! ### The evaluation -/

/-- `citationIds(sections)`, for `Object.values(sections)`. -/
def citationIds (sections : List Text) : List Text :=
  firsts (sections.flatMap fun text =>
    ((bracketPattern.matchAll text).map withoutPrefix).filter (· ≠ []))

end ResearchWorkbench.Qa
