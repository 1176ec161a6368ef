import ResearchWorkbench.Domain.Content
import ResearchWorkbench.Library.Csv
import ResearchWorkbench.Library.Json

namespace ResearchWorkbench.Exports

/-!
# CSV exports

`lib/export/render.ts`, as far as it writes CSV.

* `csvCell` — a value as a quoted field, with an apostrophe before what looks like a formula;
* `renderSourcesCsv`, `renderLedgerCsv` — the exports of sources and of claims with their evidence.
-/

/-- `ExportSource`. -/
structure ExportSource where
  id : Text
  url : Option Text
  title : Text
  publisher : Option Text
  author : Option Text
  publishedAt : Option Text
  accessedAt : Text
  sourceType : Text
  reliabilityGrade : Text
  freshnessStatus : Text
  usageRestrictions : Option Text
  deriving DecidableEq, Repr

/-- An item of `linked_evidence`. -/
structure LinkedEvidence where
  evidenceId : Text
  summary : Text
  quote : Option Text
  relationship : Text
  supportExtent : Text
  sourceId : Text
  sourceTitle : Text
  deriving DecidableEq, Repr

/-- `ExportClaim`. -/
structure ExportClaim where
  id : Text
  content : Text
  claimType : Text
  importance : Text
  supportStatus : Text
  factOrInference : Text
  withinScope : Bool
  includeInReport : Bool
  linkedEvidence : List LinkedEvidence
  deriving DecidableEq, Repr

/-- A string. -/
def string (text : Text) : Json := .leaf (.string text)

/-- A string or `null`. -/
def nullable (text : Option Text) : Json := text.elim (.leaf .null) string

/-- A boolean. -/
def boolean (b : Bool) : Json := .leaf (.bool b)

/-- The text of a value: `normalized`, before the guard. -/
def cellText : Json → Text
  | .leaf .null => []
  | .leaf (.string text) => text
  | value => stringify value

/-- `[=+\-@]`. -/
def isFormulaSign (c : ℕ) : Bool := c = 61 || c = 43 || c = 45 || c = 64

/-- `[\t\r ]`. -/
def isGuardedSpace (c : ℕ) : Bool := c = 9 || c = 13 || c = 32

/-- `/^[\t\r ]*[=+\-@]/.test(normalized)`. -/
def looksLikeFormula (normalized : Text) : Bool :=
  (normalized.dropWhile isGuardedSpace).head?.any isFormulaSign

/-- What stands in the field of a text. -/
def guarded (normalized : Text) : Text :=
  if looksLikeFormula normalized then 39 :: normalized else normalized

/-- `csvCell(value)`. -/
def csvCell (value : Json) : Text := quoteField (guarded (cellText value))

/-- `rows.map((row) => row.map(csvCell).join(",")).join("\r\n") + "\r\n"`. -/
def renderRows (rows : List (List Json)) : Text :=
  [13, 10].intercalate (rows.map fun row => [44].intercalate (row.map csvCell)) ++ [13, 10]

/-- The names of the columns. -/
def header (names : List String) : List Json := names.map fun name => string (asciiText name)

/-- The columns of `renderSourcesCsv`. -/
def sourceColumns : List String :=
  ["source_id", "title", "publisher", "author", "url", "published_at", "accessed_at", "source_type",
    "reliability", "freshness", "usage_restrictions"]

/-- The row of a source. -/
def sourceRow (source : ExportSource) : List Json :=
  [string source.id, string source.title, nullable source.publisher, nullable source.author,
    nullable source.url, nullable source.publishedAt, string source.accessedAt,
    string source.sourceType, string source.reliabilityGrade, string source.freshnessStatus,
    nullable source.usageRestrictions]

/-- `renderSourcesCsv(sources)`. -/
def renderSourcesCsv (sources : List ExportSource) : Text :=
  renderRows (header sourceColumns :: sources.map sourceRow)

/-- The columns of `renderLedgerCsv`. -/
def ledgerColumns : List String :=
  ["claim_id", "claim", "claim_type", "importance", "support_status", "fact_or_inference",
    "within_scope", "included", "relationship", "support_extent", "evidence_id", "evidence_summary",
    "minimal_quote", "source_id", "source_title"]

/-- The fields of a claim. -/
def claimFields (claim : ExportClaim) : List Json :=
  [string claim.id, string claim.content, string claim.claimType, string claim.importance,
    string claim.supportStatus, string claim.factOrInference, boolean claim.withinScope,
    boolean claim.includeInReport]

/-- The row of a claim without evidence. -/
def bareRow (claim : ExportClaim) : List Json :=
  claimFields claim ++
    [string [], string [], string [], string [], string [], string [], string []]

/-- The row of a claim with one of its evidence. -/
def evidenceRow (claim : ExportClaim) (evidence : LinkedEvidence) : List Json :=
  claimFields claim ++
    [string evidence.relationship, string evidence.supportExtent, string evidence.evidenceId,
      string evidence.summary, nullable evidence.quote, string evidence.sourceId,
      string evidence.sourceTitle]

/-- The loop body of `renderLedgerCsv`: what a claim adds to `rows`. -/
def pushClaim (rows : List (List Json)) (claim : ExportClaim) : List (List Json) :=
  if claim.linkedEvidence.isEmpty then rows ++ [bareRow claim]
  else claim.linkedEvidence.foldl (fun rows evidence => rows ++ [evidenceRow claim evidence]) rows

/-- `renderLedgerCsv(claims)`. -/
def renderLedgerCsv (claims : List ExportClaim) : Text :=
  renderRows (claims.foldl pushClaim [header ledgerColumns])

end ResearchWorkbench.Exports
