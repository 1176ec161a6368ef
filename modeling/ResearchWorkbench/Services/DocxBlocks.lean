import ResearchWorkbench.Library.Decimals
import ResearchWorkbench.Services.HtmlBlocks

namespace ResearchWorkbench.Extraction

open Chunking

/-!
# Blocks of a DOCX document

`lib/documents/extraction/docx.ts`, from the parsed `word/document.xml` on.

* `XmlNode` — the ordered trees of the XML parser, whose texts may be numbers or truth values;
* `nodesByTag`, `attributeOf`, `decodeEntities`, `visibleText` — the walks over a tree;
* `paragraphDraft`, `tableDraft`, `documentDrafts` — the blocks of the body.
-/

/-! ### Trees -/

/-- A text or an attribute as the parser gives it. -/
inductive XmlValue
  | string (s : Text)
  | number (n : Decimal)
  | bool (b : Bool)
  deriving DecidableEq

/-- A node of `new XMLParser({ preserveOrder: true, … }).parse(value)`: `{ "#text": value }`, or an
element with its attributes under `":@"`. -/
inductive XmlNode
  | text (value : XmlValue)
  | element (tag : Text) (attributes : List (Text × XmlValue)) (children : List XmlNode)

/-- `tagName(node)`. -/
def tagName : XmlNode → Option Text
  | .text _ => none
  | .element tag _ _ => some tag

/-- `childNodes(node)`. -/
def childNodes : XmlNode → List XmlNode
  | .text _ => []
  | .element _ _ children => children

mutual

/-- What one node adds to `nodesByTag(nodes, wanted)`. -/
def nodesByTagAt (wanted : Text) : XmlNode → List XmlNode
  | .text _ => []
  | .element tag attributes children =>
    (if tag = wanted then [.element tag attributes children] else []) ++ nodesByTag wanted children

/-- `nodesByTag(nodes, wanted)`. -/
def nodesByTag (wanted : Text) : List XmlNode → List XmlNode
  | [] => []
  | node :: nodes => nodesByTagAt wanted node ++ nodesByTag wanted nodes

end

/-- `attribute(node, name)`. -/
def attributeOf (node : XmlNode) (name : Text) : Option Text :=
  match node with
  | .text _ => none
  | .element _ attributes _ =>
    match (attributes.find? fun entry => entry.1 = name).map Prod.snd with
    | some (.string s) => some s
    | some (.number n) => some n.text
    | _ => none

/-! ### Visible text -/

/-- `value.replace(/word/g, replacement)` for a word without special characters. -/
def replaceWord (word replacement : String) (value : Text) : Text :=
  (Regex.sequence ((asciiText word).map fun k => .unit (· = k))).replaceAll (asciiText replacement)
    value

/-- `decodeEntities(value)`. -/
def decodeEntities (value : Text) : Text :=
  replaceWord "&amp;" "&" (replaceWord "&apos;" "'" (replaceWord "&quot;" "\""
    (replaceWord "&gt;" ">" (replaceWord "&lt;" "<" value))))

mutual

/-- What one node adds to `result` in `visit`. -/
def visitNode (insideText : Bool) : XmlNode → Text
  | .text (.string s) => if insideText then decodeEntities s else []
  | .text _ => []
  | .element tag _ children =>
    (if tag = asciiText "tab" then [9]
      else if tag = asciiText "br" ∨ tag = asciiText "cr" then [10]
      else []) ++ visit (insideText || tag = asciiText "t") children

/-- `visit(items, insideText)`. -/
def visit (insideText : Bool) : List XmlNode → Text
  | [] => []
  | node :: nodes => visitNode insideText node ++ visit insideText nodes

end

/-- `visibleText(nodes)`. -/
def visibleText (nodes : List XmlNode) : Text := blockText (visit false nodes)

/-! ### Blocks -/

/-- `style.match(/^Heading\s*([1-6])$/i)`, as the level. -/
def headingStyle (style : Text) : Option ℕ :=
  if (style.take 7).map lowerUnit = asciiText "heading" then
    match (style.drop 7).dropWhile isSpaceUnit with
    | [c] => if 49 ≤ c ∧ c ≤ 54 then some (c - 48) else none
    | _ => none
  else none

/-- The style of a paragraph: `w:pStyle` of the paragraph, or of the first node in it that has one. -/
def paragraphStyle (node : XmlNode) : Option Text :=
  (nodesByTag (asciiText "pStyle") (childNodes node)).head?.bind fun styleNode =>
    attributeOf styleNode (asciiText "val")

/-- `paragraphDraft(node, sectionStack, paragraphIndex)`, with the stack after it. -/
def paragraphDraft (node : XmlNode) (sectionStack : SectionStack) (paragraphIndex : ℕ) :
    Option BlockDraft × SectionStack :=
  let text := visibleText (childNodes node)
  if text = [] then (none, sectionStack)
  else
    let heading := (paragraphStyle node).bind headingStyle
    (some
      { kind := if heading.isSome then .heading else .paragraph
        text
        sectionPath := sectionPathOf sectionStack
        paragraphIndex := some paragraphIndex },
      match heading with
      | some level => openSection sectionStack level text
      | none => sectionStack)

/-- The rows of `tableDraft`, each with its cells. -/
def tableRows (node : XmlNode) : List Text :=
  (nodesByTag (asciiText "tr") (childNodes node)).map fun row =>
    List.intercalate [9] ((nodesByTag (asciiText "tc") (childNodes row)).map fun cell =>
      visibleText (childNodes cell))

/-- The text of `tableDraft`: `rows.filter(Boolean).join("\n").trim()`. -/
def tableText (node : XmlNode) : Text :=
  trimText (List.intercalate [10] ((tableRows node).filter fun row => row ≠ []))

/-- `tableDraft(node, sectionStack)`. -/
def tableDraft (node : XmlNode) (sectionStack : SectionStack) : Option BlockDraft :=
  let text := tableText node
  if text = [] then none
  else some { kind := .table, text, sectionPath := sectionPathOf sectionStack }

/-- The nodes of the body: the children of the first `body` element. -/
def bodyNodes (nodes : List XmlNode) : List XmlNode :=
  (nodesByTag (asciiText "body") nodes).head?.elim [] childNodes

/-- The variables of `documentDrafts`. -/
structure DocxState where
  drafts : List BlockDraft := []
  sectionStack : SectionStack := []
  sectionCount : ℕ := 1
  paragraphIndex : ℕ := 0

/-- One node of the body in the loop of `documentDrafts`. -/
def docxStep (s : DocxState) (node : XmlNode) : DocxState :=
  if tagName node = some (asciiText "p") then
    let (draft, sectionStack) := paragraphDraft node s.sectionStack s.paragraphIndex
    { drafts := s.drafts ++ draft.toList
      sectionStack
      sectionCount :=
        if 0 < (nodesByTag (asciiText "sectPr") (childNodes node)).length then s.sectionCount + 1
        else s.sectionCount
      paragraphIndex := s.paragraphIndex + 1 }
  else if tagName node = some (asciiText "tbl") then
    { s with drafts := s.drafts ++ (tableDraft node s.sectionStack).toList }
  else if tagName node = some (asciiText "sectPr") then
    { s with sectionCount := s.sectionCount + 1 }
  else s

/-- `documentDrafts(documentXml, limits)`, from what `parseXml` returns on. -/
def documentDrafts (nodes : List XmlNode) : Except ExtractionError (List BlockDraft × ℕ) :=
  match nodesByTag (asciiText "body") nodes with
  | [] => .error ⟨.documentMalformed, "DOCX has no document body."⟩
  | body :: _ =>
    let s := (childNodes body).foldl docxStep {}
    .ok (s.drafts, s.sectionCount)

end ResearchWorkbench.Extraction
