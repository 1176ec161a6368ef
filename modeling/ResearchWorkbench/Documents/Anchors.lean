import Mathlib.Data.List.ReduceOption
import ResearchWorkbench.Documents.Chunks

namespace ResearchWorkbench.Chunking

/-!
# Anchors and what they point at

A chunk is the texts of its units with a blank line between any two of them, and its anchor has the
offsets of the first and the last one.  Units of different blocks have a blank line between them in
the extraction too; parts of one block have what the block has there, without the white space that
was trimmed.

* `groupsOf`, `exists_group`, `groupText_eq_slice_iff` — the groups, and the chunks that they
  become;
* `JoinsCleanly`, `anchors_exact_iff` — the chunks are what their anchors point at exactly if no
  part of a block is joined to the part before it, unless the block has a blank line between them;
* `anchor_misquotes` — a paragraph whose parts are joined.
-/

open Span

variable {sha256Hex : Sha256} {args : ChunkExtractionInput} {doc : ChunkedDocument}
  {options : ValidOptions} {text : Text} {blocks : List ExtractionBlock} {maxChars : ℕ}
  {units group : List ChunkUnit}

/-! ### From groups to chunks -/

/-- The groups of an extraction. -/
def groupsOf (blocks : List ExtractionBlock) (options : ValidOptions) : List (List ChunkUnit) :=
  groupUnits options.maxChars (unitsOf blocks options.maxChars options.overlapChars)

theorem ne_nil_of_mem_groups (h : group ∈ groupUnits maxChars units) : group ≠ [] := by
  rw [groupUnits_eq] at h
  exact (Grouping.formed_of_mem_groups h).ne_nil

/-- Where there is no error, there are the chunks of the groups, and their anchors. -/
theorem chunkExtraction_eq_ok (h : chunkExtraction sha256Hex args = .ok doc)
    (hoptions : validateOptions args.options = .ok options) :
    (groupsOf args.extraction.blocks options).length ≤ options.maxChunks ∧
      doc.chunks = ((groupsOf args.extraction.blocks options).mapIdx
        (toChunk sha256Hex args)).reduceOption ∧
      doc.anchors = doc.chunks.map (toAnchor sha256Hex args) := by
  simp only [chunkExtraction, bind_eq_ok, ensure_eq_ok, pure_eq_ok] at h
  rcases h with ⟨_, _, options', hoptions', _, hlength, rfl⟩
  cases hoptions.symm.trans hoptions'
  exact ⟨hlength, rfl, rfl⟩

theorem toChunk_isSome (sha256Hex : Sha256) (args : ChunkExtractionInput) (ordinal : ℕ)
    (h : group ≠ []) :
    ∃ first last, group.head? = some first ∧ group.getLast? = some last ∧
      toChunk sha256Hex args ordinal group =
        some (groupChunk sha256Hex args ordinal group first last) := by
  refine ⟨group.head h, group.getLast h, List.head?_eq_some_head h,
    List.getLast?_eq_some_getLast h, ?_⟩
  rw [toChunk, List.head?_eq_some_head h, List.getLast?_eq_some_getLast h]

/-- Where every value is there, dropping the missing ones moves nothing. -/
theorem getElem?_reduceOption {α : Type*} {l : List (Option α)} (h : ∀ o ∈ l, o ≠ none) (i : ℕ) :
    l.reduceOption[i]? = l[i]?.join := by
  induction l generalizing i with
  | nil => rfl
  | cons o l ih =>
    rw [List.forall_mem_cons] at h
    rcases Option.ne_none_iff_exists'.mp h.1 with ⟨a, rfl⟩
    rw [List.reduceOption_cons_of_some]
    cases i with
    | zero => rfl
    | succ i =>
      rw [List.getElem?_cons_succ, List.getElem?_cons_succ]
      exact ih h.2 i

/-- The chunks are those of the groups, one for one. -/
theorem chunks_getElem? (h : chunkExtraction sha256Hex args = .ok doc)
    (hoptions : validateOptions args.options = .ok options) (i : ℕ) :
    doc.chunks[i]? =
      (groupsOf args.extraction.blocks options)[i]?.bind (toChunk sha256Hex args i) := by
  rw [(chunkExtraction_eq_ok h hoptions).2.1]
  rw [getElem?_reduceOption ?_ i, List.getElem?_mapIdx]
  · cases (groupsOf args.extraction.blocks options)[i]? <;> rfl
  intro o ho
  rcases List.mem_mapIdx.mp ho with ⟨j, hj, rfl⟩
  have hne := ne_nil_of_mem_groups (List.getElem_mem hj)
  rcases toChunk_isSome sha256Hex args j hne with ⟨_, _, _, _, hchunk⟩
  rw [hchunk]
  exact Option.some_ne_none _

/-- Every chunk is that of a group. -/
theorem exists_group (h : chunkExtraction sha256Hex args = .ok doc)
    (hoptions : validateOptions args.options = .ok options) {i : ℕ} {chunk : DocumentChunk} :
    doc.chunks[i]? = some chunk ↔ ∃ group first last,
      (groupsOf args.extraction.blocks options)[i]? = some group ∧ group.head? = some first ∧
        group.getLast? = some last ∧ chunk = groupChunk sha256Hex args i group first last := by
  rw [chunks_getElem? h hoptions, Option.bind_eq_some_iff]
  constructor
  · rintro ⟨group, hgroup, hchunk⟩
    rcases toChunk_isSome sha256Hex args i
      (ne_nil_of_mem_groups (List.mem_of_getElem? hgroup)) with ⟨first, last, hfirst, hlast, hsome⟩
    exact ⟨group, first, last, hgroup, hfirst, hlast, Option.some.inj (hchunk.symm.trans hsome)⟩
  · rintro ⟨group, first, last, hgroup, hfirst, hlast, rfl⟩
    refine ⟨group, hgroup, ?_⟩
    rw [toChunk, hfirst, hlast]

/-! ### Groups of units -/

/-- A group of units that follow one another, and that fit together. -/
structure GroupIn (text : Text) (blocks : List ExtractionBlock) (maxChars : ℕ)
    (group : List ChunkUnit) : Prop where
  chain : group.IsChain (Next text)
  isIn : ∀ unit ∈ group, unit.IsIn text blocks maxChars
  formed : Grouping.Formed (fits maxChars) group

/-- The groups are parts of the units. -/
theorem groupIn_of_mem (h : Swept text blocks maxChars units)
    (hgroup : group ∈ groupUnits maxChars units) : GroupIn text blocks maxChars group := by
  have hflatten := Grouping.flatten_groups (fits maxChars) units
  rw [← groupUnits_eq] at hflatten
  have hne : [] ∉ groupUnits maxChars units := fun hnil => ne_nil_of_mem_groups hnil rfl
  have hchain := h.chain
  rw [← hflatten, List.isChain_flatten hne] at hchain
  refine ⟨hchain.1 group hgroup, fun unit hunit => ?_, ?_⟩
  · refine h.isIn unit ?_
    rw [← hflatten]
    exact List.mem_flatten.mpr ⟨group, hgroup, hunit⟩
  · rw [groupUnits_eq] at hgroup
    exact Grouping.formed_of_mem_groups hgroup

/-- The text of a group is the spans of its units, put together. -/
theorem groupText_eq (h : ∀ unit ∈ group, unit.IsIn text blocks maxChars) :
    groupText group = joined [10, 10] text (group.map ChunkUnit.span) := by
  rw [groupText, joined, List.map_map]
  exact congrArg _ (List.map_congr_left fun unit hunit => (h unit hunit).text_eq)

/-- The ends of a group. -/
theorem exists_rest {first last : ChunkUnit} (hfirst : group.head? = some first)
    (hlast : group.getLast? = some last) : ∃ rest, group = first :: rest ∧
      ((first.span :: rest.map ChunkUnit.span).getLast (List.cons_ne_nil _ _)).stop =
        last.endOffset := by
  rcases List.head?_eq_some_iff.mp hfirst with ⟨rest, rfl⟩
  refine ⟨rest, rfl, ?_⟩
  rw [List.getLast?_eq_some_getLast (List.cons_ne_nil first rest)] at hlast
  simp only [← List.map_cons, List.getLast_map]
  rw [Option.some.inj hlast]
  rfl

theorem spans_chain {first : ChunkUnit} {rest : List ChunkUnit}
    (h : List.IsChain (Next text) (first :: rest)) :
    List.IsChain (Follows isSpaceUnit text) (first.span :: rest.map ChunkUnit.span) := by
  rw [← List.map_cons, List.isChain_map]
  exact h.imp fun u v huv => huv.1

/-- The spans of a group. -/
theorem GroupIn.spans {first : ChunkUnit} {rest : List ChunkUnit}
    (h : GroupIn text blocks maxChars (first :: rest)) :
    List.IsChain (Follows isSpaceUnit text) (first.span :: rest.map ChunkUnit.span) ∧
      ∀ q ∈ first.span :: rest.map ChunkUnit.span, IsPiece isSpaceUnit text q := by
  refine ⟨spans_chain h.chain, ?_⟩
  rw [← List.map_cons, List.forall_mem_map]
  exact fun u hu => (h.isIn u hu).piece

/-- A group is what it spans exactly if its units touch. -/
theorem groupText_eq_slice_iff (h : GroupIn text blocks maxChars group) {first last : ChunkUnit}
    (hfirst : group.head? = some first) (hlast : group.getLast? = some last) :
    groupText group = slice text first.startOffset last.endOffset ↔
      group.IsChain fun u v => Touches [10, 10] text u.span v.span := by
  rcases exists_rest hfirst hlast with ⟨rest, rfl, hstop⟩
  rw [← List.isChain_map (f := ChunkUnit.span), groupText_eq h.isIn, ← hstop]
  exact joined_eq_slice_iff h.spans.1 h.spans.2

/-! ### Exactness -/

/-- In no step of the grouping loop is a part of a block put to the part before it, unless the text
    has a blank line between the two, and nothing else. -/
def JoinsCleanly (text : Text) (blocks : List ExtractionBlock) (options : ValidOptions) : Prop :=
  ∀ before unit next after, unitsOf blocks options.maxChars options.overlapChars =
      before ++ unit :: next :: after → unit.block = next.block →
    closesGroup options.maxChars (loopState options.maxChars (before ++ [unit])) next = false →
      Touches [10, 10] text unit.span next.span

/-- What holds of units with a blank line between them holds of all neighbours in a group exactly if
    it holds where a part of a block is put to the part before it. -/
theorem forall_groups_iff {R : ChunkUnit → ChunkUnit → Prop}
    (h : Swept text blocks options.maxChars (unitsOf blocks options.maxChars options.overlapChars))
    (hR : ∀ u v : ChunkUnit, Touches [10, 10] text u.span v.span → R u v) :
    (∀ group ∈ groupsOf blocks options, group.IsChain R) ↔
      ∀ before unit next after, unitsOf blocks options.maxChars options.overlapChars =
          before ++ unit :: next :: after → unit.block = next.block →
        closesGroup options.maxChars (loopState options.maxChars (before ++ [unit])) next = false →
          R unit next := by
  have hpairs : (∀ group ∈ groupsOf blocks options, group.IsChain R) ↔
      ∀ unit next, Grouping.Linked (groupsOf blocks options) unit next → R unit next := by
    simp only [List.isChain_iff_forall_rel_of_append_cons_cons]
    constructor
    · rintro hall unit next ⟨group, hgroup, before, after, rfl⟩
      exact hall _ hgroup
        (show before ++ [unit, next] ++ after = before ++ unit :: next :: after by simp)
    · rintro hall group hgroup unit next before after rfl
      exact hall unit next ⟨_, hgroup, before, after, by simp⟩
  rw [hpairs]
  simp only [groupsOf, linked_iff]
  constructor
  · intro hall before unit next after hunits _ hjoins
    exact hall unit next ⟨before, after, hunits, hjoins⟩
  · rintro hclean unit next ⟨before, after, hunits, hjoins⟩
    have hnext : Next text unit next := by
      have hchain := h.chain
      rw [hunits] at hchain
      exact (List.isChain_append_cons_cons.mp hchain).2.1
    rcases hnext.2 with hsame | htouches
    · exact hclean before unit next after hunits hsame hjoins
    · exact hR unit next htouches

/-- **Anchors point at their text exactly if parts of blocks are joined cleanly.** -/
theorem anchors_exact_iff {input : FinalizeExtractionInput}
    (hextraction : finalizeExtraction sha256Hex input = .ok args.extraction)
    (hoptions : validateOptions args.options = .ok options)
    (h : chunkExtraction sha256Hex args = .ok doc) :
    (∀ chunk ∈ doc.chunks,
        chunk.text = slice args.extraction.text chunk.startOffset chunk.endOffset) ↔
      JoinsCleanly args.extraction.text args.extraction.blocks options := by
  rcases validateOptions_spec hoptions with ⟨hmax, hoverlap, _⟩
  have hswept := unitsOf_spec (by omega) hoverlap (finalizeExtraction_spec hextraction).2
  rw [JoinsCleanly, ← forall_groups_iff hswept fun _ _ htouches => htouches]
  constructor
  · intro hall group hgroup
    rcases List.getElem?_of_mem hgroup with ⟨i, hi⟩
    rcases toChunk_isSome sha256Hex args i
      (ne_nil_of_mem_groups hgroup) with ⟨first, last, hfirst, hlast, _⟩
    have hchunk := (exists_group h hoptions).mpr ⟨group, first, last, hi, hfirst, hlast, rfl⟩
    exact (groupText_eq_slice_iff (groupIn_of_mem hswept hgroup) hfirst hlast).mp
      (hall _ (List.mem_of_getElem? hchunk))
  · intro hall chunk hchunk
    rcases List.getElem?_of_mem hchunk with ⟨i, hi⟩
    rcases (exists_group h hoptions).mp hi with ⟨group, first, last, hgroup, hfirst, hlast, rfl⟩
    have hmem := List.mem_of_getElem? hgroup
    exact (groupText_eq_slice_iff (groupIn_of_mem hswept hmem) hfirst hlast).mpr (hall group hmem)

/-! ### A chunk that is not what its anchor points at -/

/-- A document with one paragraph. -/
def exampleDocument (text : Text) : FinalizeExtractionInput where
  format := .txt
  bytes := [0]
  extractorName := []
  extractorVersion := []
  drafts := [{ kind := .paragraph, text }]
  limits := defaultExtractionLimits

/-- Its extraction, in chunks of 100 characters. -/
def exampleArgs (overlapChars : ℚ) (extraction : DocumentExtractionResult) :
    ChunkExtractionInput where
  sourceId := []
  documentId := []
  extractionId := []
  extraction
  options := { maxChars := some 100, overlapChars := some overlapChars }

/-- A paragraph of two words, with twenty spaces between them. -/
def spacedWords : Text := List.replicate 51 97 ++ List.replicate 20 32 ++ List.replicate 30 98

/-- The two words become one chunk, with a blank line in the place of the spaces. -/
theorem spacedWords_chunk : ∃ extraction ∈
      (finalizeExtraction (fun _ => []) (exampleDocument spacedWords)).toOption,
    ∃ doc ∈ (chunkExtraction (fun _ => []) (exampleArgs 0 extraction)).toOption,
      ∃ chunk ∈ doc.chunks,
        chunk.text ≠ slice extraction.text chunk.startOffset chunk.endOffset := by
  decide +kernel

/-- So its parts are not joined cleanly. -/
theorem spacedWords_not_joinsCleanly : ∃ extraction ∈
      (finalizeExtraction (fun _ => []) (exampleDocument spacedWords)).toOption,
    ¬JoinsCleanly extraction.text extraction.blocks ⟨100, 0, 2000⟩ := by
  rcases spacedWords_chunk with ⟨extraction, hextraction, doc, hdoc, chunk, hchunk, hne⟩
  refine ⟨extraction, hextraction, fun hclean => hne ?_⟩
  have hoptions : validateOptions ⟨some 100, some 0, none⟩ = .ok ⟨100, 0, 2000⟩ := by
    decide +kernel
  exact (anchors_exact_iff (toOption_eq_some.mp hextraction) hoptions
    (toOption_eq_some.mp hdoc)).mpr hclean chunk hchunk

/-- **An anchor can point at another text than that of its chunk.** -/
theorem anchor_misquotes : ¬∀ (sha256Hex : Sha256) (input : FinalizeExtractionInput)
    (args : ChunkExtractionInput) (doc : ChunkedDocument),
    finalizeExtraction sha256Hex input = .ok args.extraction →
      chunkExtraction sha256Hex args = .ok doc → ∀ chunk ∈ doc.chunks,
        chunk.text = slice args.extraction.text chunk.startOffset chunk.endOffset := by
  intro hall
  rcases spacedWords_chunk with ⟨extraction, hextraction, doc, hdoc, chunk, hchunk, hne⟩
  exact hne (hall _ _ (exampleArgs 0 extraction) doc (toOption_eq_some.mp hextraction)
    (toOption_eq_some.mp hdoc) chunk hchunk)

end ResearchWorkbench.Chunking
