import ResearchWorkbench.Documents.ChunkCoverage

namespace ResearchWorkbench.Chunking

/-!
# Offsets of an extraction

The loop of `finalizeExtraction` keeps a running offset while the text is joined only at its end.
The two agree for every list of drafts, and what comes out is what `validateExtractionResult` asks
for.

* `draftTexts`, `WithinLimits` — the texts that become blocks, and the limits on them;
* `addBlock_eq`, `foldlM_addBlock` — one draft, and all of them: the blocks of `placeBlocks`;
* `foldlM_checkBlock` — blocks in order with anchors of their own pass the loop of the validator;
* `OffsetsExact`, `finalizeExtraction_exact` — the result, and that the validator accepts it.
-/

variable {sha256Hex : Sha256} {input : FinalizeExtractionInput} {drafts : List BlockDraft}
  {blocks : List ExtractionBlock} {draft : BlockDraft} {block : ExtractionBlock}

/-! ### Drafts within the limits -/

/-- The texts of the drafts that are not blank. -/
def draftTexts (drafts : List BlockDraft) : List Text :=
  (drafts.map fun draft => draftText draft.text).filter (· ≠ [])

/-- The bytes, the drafts and their text are within the limits. -/
structure WithinLimits (input : FinalizeExtractionInput) : Prop where
  bytes_pos : 0 < input.bytes.length
  bytes_le : input.bytes.length ≤ input.limits.maxBytes
  drafts_le : input.drafts.length ≤ input.limits.maxBlocks
  text_le : (List.intercalate [10, 10] (draftTexts input.drafts)).length ≤ input.limits.maxTextChars

theorem draftTexts_cons_blank (h : draftText draft.text = []) :
    draftTexts (draft :: drafts) = draftTexts drafts := by
  rw [draftTexts, List.map_cons, List.filter_cons_of_neg (by simpa using h)]
  rfl

theorem draftTexts_cons (h : draftText draft.text ≠ []) :
    draftTexts (draft :: drafts) = draftText draft.text :: draftTexts drafts := by
  rw [draftTexts, List.map_cons, List.filter_cons_of_pos (by simpa using h)]
  rfl

/-- More texts make a longer text. -/
theorem length_intercalate_le (sep : Text) (texts more : List Text) :
    (List.intercalate sep texts).length ≤ (List.intercalate sep (texts ++ more)).length := by
  induction more using List.reverseRecOn with
  | nil => rw [List.append_nil]
  | append_singleton more t ih =>
    rw [← List.append_assoc]
    by_cases hnil : texts ++ more = []
    · rw [(List.append_eq_nil_iff.mp hnil).1]
      exact Nat.zero_le _
    · rw [intercalate_concat hnil, List.length_append, List.length_append]
      omega

/-! ### The loop of `finalizeExtraction` -/

/-- What the anchor of a block is the digest of. -/
def blockKey (sha256Hex : Sha256) (input : FinalizeExtractionInput) (block : ExtractionBlock) :
    List Text :=
  [sha256Hex input.bytes, input.extractorVersion, decimal block.ordinal,
    block.pageNumber.elim [] decimal, block.sectionPath.getD [], block.contentHash]

/-- A block has its number, its hash and its anchor. -/
structure ExtractionBlock.IsNumbered (sha256Hex : Sha256) (input : FinalizeExtractionInput)
    (ordinal : ℕ) (block : ExtractionBlock) : Prop where
  ordinal : block.ordinal = ordinal
  contentHash : block.contentHash = sha256Hex (utf8 block.text)
  stableAnchor : block.stableAnchor = digest sha256Hex (blockKey sha256Hex input block)

/-- The blocks are numbered from zero. -/
def Numbered (sha256Hex : Sha256) (input : FinalizeExtractionInput)
    (blocks : List ExtractionBlock) : Prop :=
  ∀ (i : ℕ) (block : ExtractionBlock), blocks[i]? = some block →
    block.IsNumbered sha256Hex input i

theorem Numbered.concat (h : Numbered sha256Hex input blocks)
    (hblock : block.IsNumbered sha256Hex input blocks.length) :
    Numbered sha256Hex input (blocks ++ [block]) := by
  intro i b hb
  rcases Nat.lt_trichotomy i blocks.length with hlt | heq | hgt
  · rw [List.getElem?_append_left hlt] at hb
    exact h i b hb
  · subst heq
    rw [List.getElem?_concat_length] at hb
    cases hb
    exact hblock
  · rw [List.getElem?_eq_none (by rw [List.length_append, List.length_singleton]; omega)] at hb
    cases hb

/-- A blank draft adds nothing. -/
theorem addBlock_blank {offset : ℕ} (h : draftText draft.text = []) :
    addBlock sha256Hex input (blocks, offset) draft = .ok (blocks, offset) := by
  simp only [addBlock, h, if_true]
  rfl

/-- A draft that still fits becomes the next block, and the offset is again the length of the text
    so far. -/
theorem addBlock_text {offset : ℕ} (h : draftText draft.text ≠ [])
    (hoffset : offset = (joinBlocks blocks).length) (hnumbered : Numbered sha256Hex input blocks)
    (hfits : (List.intercalate [10, 10] (blocks.map (·.text) ++ [draftText draft.text])).length ≤
      input.limits.maxTextChars) :
    ∃ block, block.text = draftText draft.text ∧
      addBlock sha256Hex input (blocks, offset) draft =
        .ok (blocks ++ [block], (joinBlocks (blocks ++ [block])).length) ∧
      Numbered sha256Hex input (blocks ++ [block]) := by
  have hend : (if 0 < blocks.length then offset + 2 else offset) + (draftText draft.text).length =
      (List.intercalate [10, 10] (blocks.map (·.text) ++ [draftText draft.text])).length := by
    by_cases hnil : blocks = []
    · subst hnil
      rw [hoffset, List.map_nil, List.nil_append, List.intercalate_singleton]
      exact Nat.zero_add _
    · rw [if_pos (List.length_pos_iff.mpr hnil), hoffset,
        intercalate_concat (List.map_eq_nil_iff.not.mpr hnil), List.length_append,
        List.length_append]
      rfl
  simp only [addBlock, if_neg h, ensure, hend, if_pos hfits]
  refine ⟨_, ?_, congrArg Except.ok (Prod.ext rfl ?_), hnumbered.concat ⟨rfl, rfl, rfl⟩⟩
  · rfl
  · rw [joinBlocks, List.map_append]
    rfl

/-- **All drafts within the limits.**  The loop ends with a block for each text. -/
theorem foldlM_addBlock {offset : ℕ} (hoffset : offset = (joinBlocks blocks).length)
    (hnumbered : Numbered sha256Hex input blocks)
    (hfits : (List.intercalate [10, 10] (blocks.map (·.text) ++ draftTexts drafts)).length ≤
      input.limits.maxTextChars) :
    ∃ blocks' offset', drafts.foldlM (addBlock sha256Hex input) (blocks, offset) =
        .ok (blocks', offset') ∧
      blocks'.map (·.text) = blocks.map (·.text) ++ draftTexts drafts ∧
      Numbered sha256Hex input blocks' := by
  induction drafts generalizing blocks offset with
  | nil => exact ⟨blocks, offset, rfl, (List.append_nil _).symm, hnumbered⟩
  | cons draft drafts ih =>
    rw [List.foldlM_cons]
    by_cases hblank : draftText draft.text = []
    · rw [draftTexts_cons_blank hblank] at hfits ⊢
      rw [addBlock_blank hblank]
      exact ih hoffset hnumbered hfits
    · rw [draftTexts_cons hblank] at hfits ⊢
      rw [List.append_cons] at hfits ⊢
      rcases addBlock_text hblank hoffset hnumbered
        ((length_intercalate_le _ _ _).trans hfits) with ⟨block, htext, hadd, hnext⟩
      have hmap : (blocks ++ [block]).map (·.text) = blocks.map (·.text) ++ [draftText draft.text] := by
        rw [List.map_append, List.map_singleton, htext]
      rw [hadd, ← hmap]
      rw [← hmap] at hfits
      exact ih rfl hnext hfits

/-! ### Anchors -/

theorem decimal_ne_nil (n : ℕ) : decimal n ≠ [] := by
  unfold decimal
  split
  · exact List.cons_ne_nil _ _
  · rename_i hzero
    rw [ne_eq, List.map_eq_nil_iff, List.reverse_eq_nil_iff]
    exact Nat.digits_ne_nil_iff_ne_zero.mpr hzero

/-- NUL is encoded for itself, whatever stands around it. -/
theorem utf8_append_nul : ∀ (t u : Text), utf8 (t ++ 0 :: u) = utf8 t ++ 0 :: utf8 u
  | [], u => utf8_ascii_cons (by omega)
  | [c], u => by
    have hlow : isLowSurrogate 0 = false := rfl
    simp only [List.singleton_append, utf8, hlow, Bool.and_false, Bool.false_eq_true, if_false]
    rw [utf8_ascii_cons (by omega)]
    rfl
  | c :: d :: t, u => by
    rw [List.cons_append, List.cons_append, utf8, utf8]
    split
    · rw [utf8_append_nul t u, List.append_assoc]
    · rw [← List.cons_append, utf8_append_nul (d :: t) u, List.append_assoc]

/-- Bytes without NUL are read back from before the first NUL. -/
theorem bytes_append_nul_inj {t u r r' : List UInt8} (ht : 0 ∉ t) (hu : 0 ∉ u)
    (h : t ++ 0 :: r = u ++ 0 :: r') : t = u := by
  have htake {t r : List UInt8} (ht : 0 ∉ t) : (t ++ 0 :: r).takeWhile (· ≠ 0) = t := by
    rw [List.takeWhile_append_of_pos fun c hc =>
      decide_eq_true (ne_of_mem_of_not_mem hc ht)]
    simp
  rw [← htake ht, h, htake hu]

/-- Blocks with the same key have the same number. -/
theorem ordinal_eq_of_blockKey {later : ExtractionBlock}
    (h : utf8 (List.intercalate [0] (blockKey sha256Hex input block)) =
      utf8 (List.intercalate [0] (blockKey sha256Hex input later))) :
    block.ordinal = later.ordinal := by
  have hsplit (block : ExtractionBlock) :
      utf8 (List.intercalate [0] (blockKey sha256Hex input block)) =
        utf8 (sha256Hex input.bytes) ++ 0 :: (utf8 input.extractorVersion ++ 0 ::
          (utf8 (decimal block.ordinal) ++ 0 :: utf8 (block.pageNumber.elim [] decimal ++
            0 :: (block.sectionPath.getD [] ++ 0 :: block.contentHash)))) := by
    rw [← utf8_append_nul, ← utf8_append_nul, ← utf8_append_nul]
    simp [blockKey, List.intercalate]
  have hplain (n : ℕ) : 0 ∉ utf8 (decimal n) := by
    rw [utf8_ascii fun c hc => (isPlain_decimal n c hc).2]
    intro hmem
    rcases List.mem_map.mp hmem with ⟨c, hc, hzero⟩
    have hpos := isPlain_decimal n c hc
    have := toUInt8_inj (d := 0) hpos.2 (by omega) hzero
    omega
  rw [hsplit, hsplit, List.append_cancel_left_eq, List.cons_eq_cons, and_iff_right rfl,
    List.append_cancel_left_eq, List.cons_eq_cons, and_iff_right rfl] at h
  have hdigits := bytes_append_nul_inj (hplain _) (hplain _) h
  refine decimal_inj (utf8_ascii_inj (t := []) ?_ ?_ hdigits)
  · exact fun c hc => (isPlain_decimal _ c hc).2
  · exact fun c hc => (isPlain_decimal _ c hc).2

/-- Numbered blocks have anchors of their own. -/
theorem Numbered.nodup (h : Numbered sha256Hex input blocks)
    (hfree : CollisionFree sha256Hex (blocks.map (blockKey sha256Hex input))) :
    (blocks.map (·.stableAnchor)).Nodup := by
  rw [List.Nodup, List.pairwise_map, List.pairwise_iff_getElem]
  intro i j hi hj hij heq
  have hnumber := h i _ (List.getElem?_eq_getElem hi)
  have hnumber' := h j _ (List.getElem?_eq_getElem hj)
  rw [hnumber.stableAnchor, hnumber'.stableAnchor] at heq
  have hordinal := ordinal_eq_of_blockKey (hfree _ (List.mem_map_of_mem (List.getElem_mem hi)) _
    (List.mem_map_of_mem (List.getElem_mem hj)) heq)
  rw [hnumber.ordinal, hnumber'.ordinal] at hordinal
  omega

/-! ### The validator -/

/-- Blocks that begin after the ones before them, with anchors of their own, pass the loop of
    `validateExtractionResult`. -/
theorem foldlM_checkBlock {anchors : List Text} {previousEnd : ℤ}
    (hblocks : ∀ block ∈ blocks, block.text ≠ [] ∧ block.startOffset ≤ block.endOffset ∧
      block.contentHash = sha256Hex (utf8 block.text))
    (hhead : ∀ block ∈ blocks.head?, previousEnd ≤ block.startOffset)
    (hchain : blocks.IsChain fun block next => block.endOffset ≤ next.startOffset)
    (hnodup : (blocks.map (·.stableAnchor)).Nodup)
    (hfresh : ∀ block ∈ blocks, block.stableAnchor ∉ anchors) :
    ∃ state, blocks.foldlM (checkBlock sha256Hex) (anchors, previousEnd) = .ok state := by
  induction blocks generalizing anchors previousEnd with
  | nil => exact ⟨_, rfl⟩
  | cons block blocks ih =>
    rw [List.forall_mem_cons] at hblocks hfresh
    rw [List.map_cons, List.nodup_cons] at hnodup
    rw [List.isChain_cons] at hchain
    rcases hblocks with ⟨⟨htext, hle, hhash⟩, hblocks⟩
    have hcheck : checkBlock sha256Hex (anchors, previousEnd) block =
        .ok (block.stableAnchor :: anchors, (block.endOffset : ℤ)) := by
      have hstart := hhead block rfl
      have hpass : ¬(block.text = [] ∨ block.endOffset < block.startOffset ∨
          (block.startOffset : ℤ) < previousEnd ∨ block.contentHash ≠ sha256Hex (utf8 block.text) ∨
          block.stableAnchor ∈ anchors) := by
        rw [not_or, not_or, not_or, not_or]
        exact ⟨htext, not_lt.mpr hle, not_lt.mpr hstart, not_not.mpr hhash, hfresh.1⟩
      simp only [checkBlock, ensure, if_pos hpass]
      rfl
    rw [List.foldlM_cons, hcheck]
    refine ih hblocks (fun next hnext => ?_) hchain.2 hnodup.2 (fun next hnext => ?_)
    · exact Int.ofNat_le.mpr (hchain.1 next hnext)
    · rw [List.mem_cons, not_or]
      refine ⟨fun heq => hnodup.1 ?_, hfresh.2 next hnext⟩
      rw [← heq]
      exact List.mem_map_of_mem hnext

/-! ### The offsets of an extraction -/

/-- The blocks lie in the text at their offsets, one after the other with two characters between
    them and nothing before or after, numbered in their order. -/
structure OffsetsExact (extraction : DocumentExtractionResult) : Prop where
  nonempty : extraction.blocks ≠ []
  slices : ∀ block ∈ extraction.blocks,
    block.startOffset < block.endOffset ∧ block.endOffset ≤ extraction.text.length ∧
      slice extraction.text block.startOffset block.endOffset = block.text
  disjoint : extraction.blocks.Pairwise fun block later => block.endOffset < later.startOffset
  separators : extraction.blocks.IsChain fun block next =>
    next.startOffset = block.endOffset + 2 ∧
      slice extraction.text block.endOffset next.startOffset = [10, 10]
  head : ∀ block ∈ extraction.blocks.head?, block.startOffset = 0
  last : ∀ block ∈ extraction.blocks.getLast?, block.endOffset = extraction.text.length
  ordinals : extraction.blocks.map (·.ordinal) = List.range extraction.blocks.length

theorem LaidOut.lt {text : Text} (h : LaidOut text blocks) (hblock : block ∈ blocks) :
    block.startOffset < block.endOffset := by
  have hin := h.isIn block hblock
  have hpos : 0 < block.text.length := hin.piece.lt
  rw [hin.endOffset]
  omega

theorem LaidOut.disjoint {text : Text} (h : LaidOut text blocks) :
    blocks.Pairwise fun block later => block.endOffset < later.startOffset := by
  have htrans : IsTrans ExtractionBlock fun block later =>
      block.endOffset < later.startOffset ∧ later.startOffset < later.endOffset :=
    ⟨fun _ _ _ hbc hcd => ⟨hbc.1.trans (hbc.2.trans hcd.1), hcd.2⟩⟩
  have hchain : blocks.IsChain fun block later =>
      block.endOffset < later.startOffset ∧ later.startOffset < later.endOffset := by
    refine h.chain.imp_of_mem_imp fun block later _ hlater htouches => ⟨?_, h.lt hlater⟩
    have hstart : later.startOffset = block.endOffset + 2 := htouches.1
    omega
  exact hchain.pairwise.imp And.left

theorem OffsetsExact.of_laidOut {extraction : DocumentExtractionResult}
    (h : LaidOut extraction.text extraction.blocks) (hne : extraction.blocks ≠ [])
    (hnumbered : Numbered sha256Hex input extraction.blocks) : OffsetsExact extraction where
  nonempty := hne
  slices := fun block hblock => by
    have hin := h.isIn block hblock
    have hle : block.startOffset ≤ block.endOffset := (h.lt hblock).le
    have hlength := hin.isPrefix.length_le
    rw [List.length_drop] at hlength
    have hpos : 0 < block.text.length := hin.piece.lt
    have hend := hin.endOffset
    refine ⟨h.lt hblock, by omega, ?_⟩
    rw [slice_eq, hend, Nat.add_sub_cancel_left]
    exact (List.prefix_iff_eq_take.mp hin.isPrefix).symm
  disjoint := h.disjoint
  separators := h.chain
  head := h.head
  last := h.last
  ordinals := by
    refine List.ext_getElem? fun i => ?_
    rw [List.getElem?_map]
    by_cases hi : i < extraction.blocks.length
    · rw [List.getElem?_range hi, List.getElem?_eq_getElem hi]
      exact congrArg some (hnumbered i _ (List.getElem?_eq_getElem hi)).ordinal
    · rw [List.getElem?_eq_none (not_lt.mp hi),
        List.getElem?_eq_none (by rw [List.length_range]; exact not_lt.mp hi)]
      rfl

/-- Drafts within the limits become an extraction, with a block for each text. -/
theorem finalizeExtraction_ok (hlimits : WithinLimits input) :
    ∃ extraction, finalizeExtraction sha256Hex input = .ok extraction ∧
      extraction.format = input.format ∧ extraction.documentHash = sha256Hex input.bytes ∧
      extraction.contentHash = sha256Hex (utf8 extraction.text) ∧
      extraction.blocks.map (·.text) = draftTexts input.drafts ∧
      Numbered sha256Hex input extraction.blocks := by
  have hempty : Numbered sha256Hex input [] := by
    intro _ _ hnone
    cases hnone
  have hzero : 0 = (joinBlocks []).length := rfl
  rcases foldlM_addBlock hzero hempty hlimits.text_le with ⟨blocks, offset, hfold, htexts, hnumbered⟩
  simp only [finalizeExtraction, assertDocumentByteLimit, ensure]
  rw [if_pos (Nat.pos_iff_ne_zero.mp hlimits.bytes_pos), if_pos hlimits.bytes_le,
    if_pos hlimits.drafts_le, hfold]
  exact ⟨_, rfl, rfl, rfl, rfl, htexts, hnumbered⟩

/-- The validator accepts exact offsets with the hashes of the document, of the text and of the
    blocks, and anchors of their own. -/
theorem validateExtractionResult_ok {extraction : DocumentExtractionResult}
    {format : ExtractableDocumentFormat} {objectSha256 : Text} {maxTextChars : ℕ}
    (hhash : ∀ bytes, sha256Hex bytes ≠ []) (hexact : OffsetsExact extraction)
    (hnumbered : Numbered sha256Hex input extraction.blocks)
    (hready : extraction.status = .ready) (hformat : extraction.format = format)
    (hdocument : extraction.documentHash = objectSha256)
    (hcontent : extraction.contentHash = sha256Hex (utf8 extraction.text))
    (hlength : extraction.text.length ≤ maxTextChars)
    (hnodup : (extraction.blocks.map (·.stableAnchor)).Nodup) :
    validateExtractionResult sha256Hex extraction format objectSha256 maxTextChars = .ok () := by
  have hblocks : ∀ block ∈ extraction.blocks, block.text ≠ [] ∧
      block.startOffset ≤ block.endOffset ∧ block.contentHash = sha256Hex (utf8 block.text) := by
    intro block hblock
    rcases hexact.slices block hblock with ⟨hlt, hle, hslice⟩
    rcases List.getElem?_of_mem hblock with ⟨i, hi⟩
    refine ⟨?_, hlt.le, (hnumbered i block hi).contentHash⟩
    rw [← hslice, ← List.length_pos_iff, length_slice hle]
    omega
  have hchain : extraction.blocks.IsChain fun block next => block.endOffset ≤ next.startOffset :=
    hexact.separators.imp fun block next hnext => by rw [hnext.1]; exact Nat.le_add_right _ _
  have hhead : ∀ block ∈ extraction.blocks.head?, (-1 : ℤ) ≤ block.startOffset := by
    intro block hblock
    rw [hexact.head block hblock]
    decide
  have hfresh : ∀ block ∈ extraction.blocks, block.stableAnchor ∉ ([] : List Text) :=
    fun _ _ => List.not_mem_nil
  rcases foldlM_checkBlock hblocks hhead hchain hnodup hfresh with ⟨state, hfold⟩
  have hcount : 0 < extraction.blocks.length := List.length_pos_iff.mpr hexact.nonempty
  simp only [validateExtractionResult, ensure]
  rw [if_pos (by rw [not_or]; exact ⟨not_not.mpr hformat, not_not.mpr hdocument⟩), hready, hfold,
    if_neg (by decide), if_pos (by rw [not_or]; exact ⟨hcontent ▸ hhash _, not_not.mpr hcontent⟩),
    if_pos (by omega)]
  rfl

/-- **Offsets are exact, and always accepted.**  Drafts within the limits that are not all blank
    become blocks at exact offsets; where the digests of the blocks' keys do not collide, they have
    anchors of their own and the validator accepts the result. -/
theorem finalizeExtraction_exact (hhash : ∀ bytes, sha256Hex bytes ≠ [])
    (hlimits : WithinLimits input) (hsome : draftTexts input.drafts ≠ []) :
    ∃ extraction, finalizeExtraction sha256Hex input = .ok extraction ∧
      extraction.blocks.map (·.text) = draftTexts input.drafts ∧ OffsetsExact extraction ∧
      (CollisionFree sha256Hex (extraction.blocks.map (blockKey sha256Hex input)) →
        (extraction.blocks.map (·.stableAnchor)).Nodup ∧
          validateExtractionResult sha256Hex extraction input.format (sha256Hex input.bytes)
            input.limits.maxTextChars = .ok ()) := by
  rcases @finalizeExtraction_ok sha256Hex input hlimits with
    ⟨extraction, hok, hformat, hdocument, hcontent, htexts, hnumbered⟩
  rcases finalizeExtraction_spec hok with ⟨hready, hlaid⟩
  have hne : extraction.blocks ≠ [] := by
    intro hnil
    rw [hnil, List.map_nil] at htexts
    exact hsome htexts.symm
  have hexact := OffsetsExact.of_laidOut hlaid hne hnumbered
  have hlength : extraction.text.length ≤ input.limits.maxTextChars := by
    rw [finalizeExtraction_text hok, joinBlocks, htexts]
    exact hlimits.text_le
  refine ⟨extraction, hok, htexts, hexact, fun hfree => ?_⟩
  have hnodup := hnumbered.nodup hfree
  exact ⟨hnodup, validateExtractionResult_ok hhash hexact hnumbered hready hformat hdocument
    hcontent hlength hnodup⟩

/-- A document of a heading, a blank paragraph and a paragraph. -/
def exampleDrafts : FinalizeExtractionInput where
  format := .txt
  bytes := [72, 105]
  extractorName := asciiText "text"
  extractorVersion := asciiText "1"
  drafts := [
    { kind := .heading, text := asciiText " Title " },
    { kind := .paragraph, text := asciiText "\t " },
    { kind := .paragraph, text := asciiText "Text.", sectionPath := some (asciiText "Title") }]
  limits := defaultExtractionLimits

/-- The blank paragraph takes no room. -/
theorem exampleDrafts_exact :
    ∃ extraction, finalizeExtraction exampleSha256 exampleDrafts = .ok extraction ∧
      extraction.blocks.map (·.text) = [asciiText "Title", asciiText "Text."] ∧
      OffsetsExact extraction ∧
      CollisionFree exampleSha256 (extraction.blocks.map (blockKey exampleSha256 exampleDrafts)) ∧
      (extraction.blocks.map (·.stableAnchor)).Nodup ∧
        validateExtractionResult exampleSha256 extraction .txt (exampleSha256 [72, 105]) 2000000 =
          .ok () := by
  have hhash : ∀ bytes, exampleSha256 bytes ≠ [] := fun bytes => decimal_ne_nil _
  have htexts : draftTexts exampleDrafts.drafts = [asciiText "Title", asciiText "Text."] := by
    decide +kernel
  have hlimits : WithinLimits exampleDrafts :=
    ⟨by decide, by decide, by decide, by decide +kernel⟩
  rcases finalizeExtraction_exact hhash hlimits (by rw [htexts]; exact List.cons_ne_nil _ _) with
    ⟨extraction, hok, hblocks, hexact, hrest⟩
  have hfree : CollisionFree exampleSha256
      (extraction.blocks.map (blockKey exampleSha256 exampleDrafts)) := by
    have hall : ∀ extraction ∈ (finalizeExtraction exampleSha256 exampleDrafts).toOption,
        ∀ key ∈ extraction.blocks.map (blockKey exampleSha256 exampleDrafts),
        ∀ key' ∈ extraction.blocks.map (blockKey exampleSha256 exampleDrafts),
          digest exampleSha256 key = digest exampleSha256 key' →
            utf8 (List.intercalate [0] key) = utf8 (List.intercalate [0] key') := by
      decide +kernel
    exact hall extraction (toOption_eq_some.mpr hok)
  exact ⟨extraction, hok, hblocks.trans htexts, hexact, hfree, hrest hfree⟩

end ResearchWorkbench.Chunking
