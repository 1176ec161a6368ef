import ResearchWorkbench.Extraction.HtmlText

namespace ResearchWorkbench.Extraction

open Chunking

/-!
# Kinds of blocks

The kind of a block against the place of its text in the markup.  The blocks have the visible
characters of the document in their order, so each character has a kind, that of its block, and a
place, by the headings and rows that are open where it stands.

* `OpenElements`, `shownPlaces`, `shownKinds` — the places and the kinds of all visible characters;
* `Fits` — a kind and a place that belong together;
* `stretches`, `lastMark` — each block with the tags since the block before it, and the kind that the
  last of them gives;
* `htmlRun_kinds` — the kinds of a run, without its texts;
* `block_kinds_iff` — the kinds fit the places exactly where the last mark of each block does;
* `empty_heading_marks_paragraph` — a heading without text gives its kind to what follows.
-/

/-! ### Places -/

/-- How many headings and rows are open. -/
structure OpenElements where
  headings : ℕ := 0
  rows : ℕ := 0
  deriving DecidableEq, Repr

/-- The place after a tag. -/
def OpenElements.after (place : OpenElements) : HtmlAction → OpenElements
  | .heading _ => { place with headings := place.headings + 1 }
  | .headingEnd => { place with headings := place.headings - 1 }
  | .block true false => { place with rows := place.rows + 1 }
  | .block true true => { place with rows := place.rows - 1 }
  | _ => place

/-- The places of the visible characters, from a place on. -/
def placesFrom : OpenElements → List HtmlAction → List OpenElements
  | _, [] => []
  | place, a :: actions =>
    List.replicate a.units.length place ++ placesFrom (place.after a) actions

/-- What the tokens of a document ask for. -/
def htmlActions (sanitizeHtml : HtmlSanitizer) (sanitized : Text) : List HtmlAction :=
  (htmlTokens sanitized).map (action sanitizeHtml)

/-- The places of all visible characters. -/
def shownPlaces (sanitizeHtml : HtmlSanitizer) (sanitized : Text) : List OpenElements :=
  placesFrom {} (htmlActions sanitizeHtml sanitized)

/-- The kinds of the blocks that have the visible characters. -/
def shownKinds (drafts : List BlockDraft) : List ExtractionBlockKind :=
  drafts.flatMap fun draft => List.replicate (visibleUnits draft.text).length draft.kind

/-- A character is in a block of kind `HEADING` if and only if it is inside a heading, `TABLE` if and
only if it is inside a row, and `PARAGRAPH` otherwise. -/
def Fits (kind : ExtractionBlockKind) (place : OpenElements) : Prop :=
  (kind = .heading ↔ 0 < place.headings) ∧ (kind = .table ↔ 0 < place.rows) ∧
    (kind = .paragraph ↔ place.headings = 0 ∧ place.rows = 0)

instance (kind : ExtractionBlockKind) (place : OpenElements) : Decidable (Fits kind place) :=
  inferInstanceAs (Decidable (_ ∧ _ ∧ _))

/-! ### Marks -/

/-- The tags at which a block ends: those of headings, and those of the tags of blocks. -/
def HtmlAction.isBoundary : HtmlAction → Bool
  | .heading _ => true
  | .headingEnd => true
  | .block _ _ => true
  | _ => false

/-- The tags that say a kind: the opening tag of a heading, a tag of a row, the closing tag of a cell. -/
def markOf : HtmlAction → Option ExtractionBlockKind
  | .heading _ => some .heading
  | .block true _ => some .table
  | .cellEnd => some .table
  | _ => none

/-- The kind that the last of the tags says that say one. -/
def lastMark (tags : List HtmlAction) : ExtractionBlockKind :=
  (tags.reverse.findSome? markOf).getD .paragraph

/-- The blocks of a document: each with the tokens after the block before it and up to its own end,
and with its place.  `since` are the tokens after the last block, `shown` says whether there is a
visible character among them. -/
def stretches : List HtmlAction → Bool → OpenElements → List HtmlAction → List (List HtmlAction × OpenElements)
  | since, shown, place, [] => if shown then [(since, place)] else []
  | since, shown, place, a :: actions =>
    if a.isBoundary then
      if shown then (since, place) :: stretches [a] false (place.after a) actions
      else stretches (since ++ [a]) false (place.after a) actions
    else stretches (since ++ [a]) (shown || a.units ≠ []) place actions

theorem lastMark_append (tags : List HtmlAction) (a : HtmlAction) :
    lastMark (tags ++ [a]) = (markOf a).getD (lastMark tags) := by
  unfold lastMark
  rw [List.reverse_append, List.reverse_singleton, List.singleton_append, List.findSome?_cons]
  cases markOf a <;> rfl

/-! ### The kinds of a run -/

/-- The kinds of the characters in the blocks of a run. -/
def pushKinds (out : List ExtractionBlockKind) (block : FoundBlock) : List ExtractionBlockKind :=
  out ++ List.replicate (visibleUnits block.text).length block.kind

/-- The kinds that a run comes to, from a state with `n` visible characters in its buffer. -/
def kindsFrom : ℕ → ExtractionBlockKind → List HtmlAction → List ExtractionBlockKind
  | n, kind, [] => List.replicate n kind
  | n, kind, a :: actions =>
    if a.isBoundary then
      List.replicate n kind ++
        kindsFrom 0 ((markOf a).getD (if n = 0 then kind else .paragraph)) actions
    else kindsFrom (n + a.units.length) ((markOf a).getD kind) actions

variable {sanitizeHtml : HtmlSanitizer} {s : HtmlState (List ExtractionBlockKind)}

/-- What `flush` does to the kinds: it gives all characters in the buffer the kind of the state, and
where there are none it leaves the kind as it is. -/
theorem flush_kinds :
    (flush pushKinds s).out = s.out ++ List.replicate (visibleUnits s.buffer).length s.kind ∧
      (flush pushKinds s).buffer = [] ∧
      (flush pushKinds s).kind = if (visibleUnits s.buffer).length = 0 then s.kind else .paragraph := by
  unfold flush
  simp only
  split
  · rename_i hblank
    simp [blockText_eq_nil_iff.mp hblank]
  · rename_i hblank
    have hbuffer : visibleUnits s.buffer ≠ [] := fun h => hblank (blockText_eq_nil_iff.mpr h)
    simp [pushKinds, hbuffer]

/-- What a tag at which a block ends does to the kinds. -/
theorem act_boundary {a : HtmlAction} (ha : a.isBoundary = true) :
    (act pushKinds s a).out = s.out ++ List.replicate (visibleUnits s.buffer).length s.kind ∧
      visibleUnits (act pushKinds s a).buffer = [] ∧
      (act pushKinds s a).kind =
        (markOf a).getD (if (visibleUnits s.buffer).length = 0 then s.kind else .paragraph) := by
  rcases flush_kinds (s := s) with ⟨hout, hbuffer, hkind⟩
  cases a with
  | append value => cases ha
  | heading level => exact ⟨hout, congrArg visibleUnits hbuffer, rfl⟩
  | headingEnd => exact ⟨hout, congrArg visibleUnits hbuffer, hkind⟩
  | block row closing =>
    -- an opening tag leaves a buffer of white space as it is
    have hblock : ∀ s' : HtmlState (List ExtractionBlockKind),
        s' = (if closing = true ∨ trimText s.buffer ≠ [] then flush pushKinds s else s) →
        s'.out = s.out ++ List.replicate (visibleUnits s.buffer).length s.kind ∧
          visibleUnits s'.buffer = [] ∧
          s'.kind = if (visibleUnits s.buffer).length = 0 then s.kind else .paragraph := by
      rintro s' rfl
      split
      · exact ⟨hout, congrArg visibleUnits hbuffer, hkind⟩
      · rename_i hblank
        have hnone : visibleUnits s.buffer = [] := by
          rw [← visibleUnits_trimText, not_not.mp fun h => hblank (.inr h)]
          rfl
        simp [hnone]
    rcases hblock _ rfl with ⟨hout', hbuffer', hkind'⟩
    cases row
    · exact ⟨hout', hbuffer', hkind'⟩
    · exact ⟨hout', hbuffer', rfl⟩
  | cellEnd => cases ha
  | ignored => cases ha

/-- What any other token does. -/
theorem act_inner {a : HtmlAction} (ha : a.isBoundary = false) :
    (act pushKinds s a).out = s.out ∧
      (visibleUnits (act pushKinds s a).buffer).length =
        (visibleUnits s.buffer).length + a.units.length ∧
      (act pushKinds s a).kind = (markOf a).getD s.kind := by
  cases a with
  | append value => simp [act, HtmlAction.units, markOf]
  | heading level => cases ha
  | headingEnd => cases ha
  | block row closing => cases ha
  | cellEnd =>
    refine ⟨rfl, ?_, rfl⟩
    show (visibleUnits (s.buffer ++ [9])).length = _
    rw [visibleUnits_append, List.length_append]
    rfl
  | ignored => exact ⟨rfl, rfl, rfl⟩

/-- **The kinds of a run**, without its texts. -/
theorem htmlRun_kinds (tokens : List HtmlToken) :
    htmlRun sanitizeHtml pushKinds [] tokens =
      kindsFrom 0 .paragraph (tokens.map (action sanitizeHtml)) := by
  have hrun : ∀ (actions : List HtmlAction) (s : HtmlState (List ExtractionBlockKind)),
      (flush pushKinds (actions.foldl (act pushKinds) s)).out =
        s.out ++ kindsFrom (visibleUnits s.buffer).length s.kind actions := by
    intro actions
    induction actions with
    | nil => exact fun s => flush_kinds.1
    | cons a actions ih =>
      intro s
      rw [List.foldl_cons, ih, kindsFrom]
      split
      · rename_i ha
        rcases act_boundary (s := s) ha with ⟨hout, hbuffer, hkind⟩
        rw [hout, hbuffer, hkind, List.append_assoc]
        rfl
      · rename_i ha
        rcases act_inner (s := s) ((Bool.not_eq_true _).mp ha) with ⟨hout, hbuffer, hkind⟩
        rw [hout, hbuffer, hkind]
  rw [htmlRun_eq, hrun]
  rfl

/-- The kinds of the drafts are those of the run. -/
theorem shownKinds_eq (sanitizeHtml : HtmlSanitizer) (sanitized : Text) :
    shownKinds (structuredBlocks sanitizeHtml sanitized) =
      kindsFrom 0 .paragraph (htmlActions sanitizeHtml sanitized) := by
  let R : List BlockDraft × SectionStack → List ExtractionBlockKind → Prop := fun state out =>
    shownKinds state.1 = out
  have hpush : ∀ state out block, (∀ n ∈ block.headingLevel, 1 ≤ n) → R state out →
      R (pushDraft state block) (pushKinds out block) := by
    rintro ⟨drafts, stack⟩ out block - hout
    have hdrafts : shownKinds drafts = out := hout
    show shownKinds (pushDraft (drafts, stack) block).1 = pushKinds out block
    rw [← hdrafts]
    simp [pushDraft, pushKinds, shownKinds]
  have hrun : R (htmlRun sanitizeHtml pushDraft ([], []) (htmlTokens sanitized))
      (htmlRun sanitizeHtml pushKinds [] (htmlTokens sanitized)) :=
    htmlRun_rel hpush rfl (htmlTokens sanitized)
  exact hrun.trans (htmlRun_kinds _)

/-! ### Kinds and places -/

theorem forall₂_replicate_append {α β : Type} {R : α → β → Prop} {n : ℕ} {a : α} {b : β}
    {l : List α} {l' : List β} :
    List.Forall₂ R (List.replicate n a ++ l) (List.replicate n b ++ l') ↔
      (0 < n → R a b) ∧ List.Forall₂ R l l' := by
  induction n with
  | zero => simp
  | succ n ih =>
    rw [List.replicate_succ, List.replicate_succ, List.cons_append, List.cons_append,
      List.forall₂_cons, ih]
    constructor
    · rintro ⟨hab, -, hl⟩
      exact ⟨fun _ => hab, hl⟩
    · rintro ⟨hab, hl⟩
      exact ⟨hab (by omega), fun _ => hab (by omega), hl⟩

/-- The kinds fit the places, from a state with `n` visible characters in its buffer whose kind is
that of the last mark since the last block. -/
theorem kindsFrom_fit_iff (actions : List HtmlAction) (n : ℕ) (since : List HtmlAction)
    (place : OpenElements) :
    List.Forall₂ Fits (kindsFrom n (lastMark since) actions)
        (List.replicate n place ++ placesFrom place actions) ↔
      ∀ p ∈ stretches since (decide (0 < n)) place actions, Fits (lastMark p.1) p.2 := by
  induction actions generalizing n since place with
  | nil =>
    have hblock := @forall₂_replicate_append _ _ Fits n (lastMark since) place [] []
    rw [List.append_nil] at hblock
    rw [kindsFrom, placesFrom, hblock, stretches]
    by_cases hn : 0 < n <;> simp [hn]
  | cons a actions ih =>
    rw [kindsFrom, placesFrom, stretches]
    split
    · rename_i ha
      -- a tag at which a block ends
      have hunits : a.units = [] := by
        cases a <;> first | rfl | cases ha
      rw [hunits, List.length_nil, List.replicate_zero, List.nil_append, forall₂_replicate_append]
      by_cases hn : 0 < n
      · have hmark : (markOf a).getD (if n = 0 then lastMark since else .paragraph) =
            lastMark [a] := by
          rw [if_neg (by omega), show [a] = [] ++ [a] from rfl, lastMark_append]
          rfl
        have hrest := ih 0 [a] (place.after a)
        rw [List.replicate_zero, List.nil_append] at hrest
        rw [hmark, hrest, if_pos (by simpa using hn), List.forall_mem_cons]
        simp [hn]
      · have hmark : (markOf a).getD (if n = 0 then lastMark since else .paragraph) =
            lastMark (since ++ [a]) := by
          rw [if_pos (by omega), lastMark_append]
        have hrest := ih 0 (since ++ [a]) (place.after a)
        rw [List.replicate_zero, List.nil_append] at hrest
        rw [hmark, hrest, if_neg (by simpa using hn)]
        simp [hn]
    · rename_i ha
      have hplace : place.after a = place := by
        cases a <;> first | rfl | exact absurd rfl ha
      rw [hplace, ← lastMark_append, ← List.append_assoc, ← List.replicate_add, ih]
      have hshown : decide (0 < n + a.units.length) =
          (decide (0 < n) || decide (a.units ≠ [])) := by
        rw [Bool.eq_iff_iff]
        simp only [decide_eq_true_eq, Bool.or_eq_true, ← List.length_pos_iff]
        omega
      rw [hshown]

/-- **When the kinds follow the markup.**  For every visible character of the document, the kind of
its block fits its place, exactly where for every block the last mark since the block before it fits
the place of the block. -/
theorem block_kinds_iff (sanitizeHtml : HtmlSanitizer) (sanitized : Text) :
    List.Forall₂ Fits (shownKinds (structuredBlocks sanitizeHtml sanitized))
        (shownPlaces sanitizeHtml sanitized) ↔
      ∀ p ∈ stretches [] false {} (htmlActions sanitizeHtml sanitized),
        Fits (lastMark p.1) p.2 := by
  rw [shownKinds_eq]
  exact kindsFrom_fit_iff (htmlActions sanitizeHtml sanitized) 0 [] {}

/-- **A heading without text** gives its kind to the paragraph after it. -/
theorem empty_heading_marks_paragraph :
    (structuredBlocks (fun _ value => value) (asciiText "<h1></h1><p>A</p>")).map (·.kind) =
        [.heading] ∧
      shownPlaces (fun _ value => value) (asciiText "<h1></h1><p>A</p>") =
        [{ headings := 0, rows := 0 }] ∧
      ¬ List.Forall₂ Fits
        (shownKinds (structuredBlocks (fun _ value => value) (asciiText "<h1></h1><p>A</p>")))
        (shownPlaces (fun _ value => value) (asciiText "<h1></h1><p>A</p>")) := by
  refine ⟨by decide +kernel, by decide +kernel, ?_⟩
  intro h
  rw [shownKinds_eq] at h
  have hmarks := (kindsFrom_fit_iff (htmlActions (fun _ value => value)
    (asciiText "<h1></h1><p>A</p>")) 0 [] {}).mp h
  revert hmarks
  decide +kernel

end ResearchWorkbench.Extraction
