import ResearchWorkbench.Library.Numerals
import ResearchWorkbench.Library.Patterns
import ResearchWorkbench.Services.Chunking

namespace ResearchWorkbench.Extraction

open Chunking

/-!
# Blocks of an HTML document

`lib/documents/extraction/html.ts`: the blocks of a sanitized HTML document.

* `blockText`, `openSection`, `sectionPathOf` — the text of a block and the stack of open headings,
  which the extractors of HTML and of DOCX both have;
* `HtmlToken`, `htmlTokens` — tags and texts;
* `HtmlState`, `flush`, `htmlStep` — the loop of `structuredBlocks`; what it does with a block is a
  parameter `push`, so that the blocks can also be listed without their section paths;
* `structuredBlocks` — the loop as the program runs it.
-/

/-! ### What both extractors have -/

/-- `value.replace(/[\t ]+/g, " ").replace(/\s*\n\s*/g, "\n").trim()`. -/
def blockText (value : Text) : Text :=
  trimText ((Regex.sequence [.many isSpaceUnit 0 none, .unit (· = 10), .many isSpaceUnit 0 none]).replaceAll
    [10] ((Regex.many (fun c => c = 9 || c = 32) 1 none).replaceAll [32] value))

/-- `sectionStack`: the texts of headings by their level, with `none` for a level that was skipped. -/
abbrev SectionStack := List (Option Text)

/-- `sectionStack.splice(level - 1)` and then `sectionStack[level - 1] = text`, which leaves holes
before it where the stack is shorter. -/
def openSection (stack : SectionStack) (level : ℕ) (text : Text) : SectionStack :=
  let kept := stack.take (level - 1)
  kept ++ List.replicate (level - 1 - kept.length) none ++ [some text]

/-- `sectionStack.length ? sectionStack.join(" > ") : undefined`; `join` takes a hole for an empty
string. -/
def sectionPathOf (stack : SectionStack) : Option Text :=
  if stack = [] then none
  else some (List.intercalate (asciiText " > ") (stack.map fun entry => entry.getD []))

/-! ### Tokens -/

/-- A match of `/<[^>]+>|[^<]+/g`: a tag, by what stands between its brackets, or a text. -/
inductive HtmlToken
  | tag (content : Text)
  | text (value : Text)
  deriving DecidableEq, Repr

/-- `/<[^>]+>|[^<]+/g`. -/
def htmlTokenPattern : Pattern HtmlToken :=
  .alt
    (do let _ ← .unit (· = 60)
        let content ← .many (· ≠ 62) 1 none
        let _ ← .unit (· = 62)
        pure (.tag content))
    (do let value ← .many (· ≠ 60) 1 none
        pure (.text value))

/-- `sanitized.match(/<[^>]+>|[^<]+/g) ?? []`. -/
def htmlTokens (sanitized : Text) : List HtmlToken := htmlTokenPattern.matchAll sanitized

/-- `[a-z0-9]` with the flag `i`. -/
def isTagNameUnit (c : ℕ) : Bool :=
  isDecimalDigit c || (65 ≤ c && c ≤ 90) || (97 ≤ c && c ≤ 122)

/-- `/^\s*([a-z0-9]+)/i`, in lower case. -/
def tagNameAt (t : Text) : Option Text :=
  let name := (t.dropWhile isSpaceUnit).takeWhile isTagNameUnit
  if name = [] then none else some (name.map lowerUnit)

/-- `token.match(/^<\/\s*([a-z0-9]+)/i)?.[1]?.toLowerCase()`. -/
def closingTag (content : Text) : Option Text :=
  if content.head? = some 47 then tagNameAt content.tail else none

/-- `token.match(/^<\s*([a-z0-9]+)/i)?.[1]?.toLowerCase()`. -/
def openingTag (content : Text) : Option Text := tagNameAt content

/-- `Number(tag[1])` where `/^h[1-6]$/` matches the tag. -/
def headingTag (tag : Text) : Option ℕ :=
  if tag.length = 2 ∧ tag.head? = some 104 ∧ 49 ≤ tag.getD 1 0 ∧ tag.getD 1 0 ≤ 54 then
    some (tag.getD 1 0 - 48)
  else none

/-- The tags of blocks. -/
def blockTags : List Text :=
  [asciiText "p", asciiText "li", asciiText "blockquote", asciiText "pre", asciiText "div",
    asciiText "tr"]

/-- `textValue(value)`. -/
def textValue (sanitizeHtml : HtmlSanitizer) (value : Text) : Text :=
  sanitizeHtml { allowedTags := [], allowedAttributes := [] } value

/-! ### The loop -/

/-- A block that the loop comes to. -/
structure FoundBlock where
  kind : ExtractionBlockKind
  headingLevel : Option ℕ
  text : Text
  deriving DecidableEq, Repr

/-- The variables of `structuredBlocks`; `out` are those that only `flush` reads and writes. -/
structure HtmlState (σ : Type) where
  out : σ
  buffer : Text := []
  kind : ExtractionBlockKind := .paragraph
  headingLevel : Option ℕ := none

variable {σ : Type}

/-- `flush()`. -/
def flush (push : σ → FoundBlock → σ) (s : HtmlState σ) : HtmlState σ :=
  let text := blockText s.buffer
  if text = [] then { s with buffer := [] }
  else
    { out := push s.out { kind := s.kind, headingLevel := s.headingLevel, text }
      buffer := []
      kind := .paragraph
      headingLevel := none }

/-- One token of the loop. -/
def htmlStep (sanitizeHtml : HtmlSanitizer) (push : σ → FoundBlock → σ) (s : HtmlState σ) :
    HtmlToken → HtmlState σ
  | .text value => { s with buffer := s.buffer ++ textValue sanitizeHtml value }
  | .tag content =>
    let closing := closingTag content
    let opening := openingTag content
    match closing <|> opening with
    | none => s
    | some tag =>
      match headingTag tag with
      | some level =>
        if opening.isSome ∧ closing.isNone then
          { flush push s with kind := .heading, headingLevel := some level }
        else flush push s
      | none =>
        if tag ∈ blockTags then
          let s :=
            if closing.isSome then flush push s
            else if trimText s.buffer ≠ [] then flush push s
            else s
          if tag = asciiText "tr" then { s with kind := .table } else s
        else if (tag = asciiText "td" ∨ tag = asciiText "th") ∧ closing.isSome then
          { s with buffer := s.buffer ++ [9], kind := .table }
        else if tag = asciiText "br" then { s with buffer := s.buffer ++ [10] }
        else s

/-- The loop over all tokens and the `flush` after it. -/
def htmlRun (sanitizeHtml : HtmlSanitizer) (push : σ → FoundBlock → σ) (out : σ)
    (tokens : List HtmlToken) : σ :=
  (flush push (tokens.foldl (htmlStep sanitizeHtml push) { out })).out

/-- The drafts and the section stack after a block. -/
def pushDraft (state : List BlockDraft × SectionStack) (block : FoundBlock) :
    List BlockDraft × SectionStack :=
  let (drafts, sectionStack) := state
  let draft : BlockDraft :=
    { kind := block.kind, text := block.text, sectionPath := sectionPathOf sectionStack
      paragraphIndex := some drafts.length }
  (drafts ++ [draft],
    match block.kind, block.headingLevel with
    | .heading, some level => openSection sectionStack level block.text
    | _, _ => sectionStack)

/-- `structuredBlocks(sanitized)`. -/
def structuredBlocks (sanitizeHtml : HtmlSanitizer) (sanitized : Text) : List BlockDraft :=
  (htmlRun sanitizeHtml pushDraft ([], []) (htmlTokens sanitized)).1

end ResearchWorkbench.Extraction
