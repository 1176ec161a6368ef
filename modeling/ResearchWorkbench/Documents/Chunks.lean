import Mathlib.Data.List.TakeWhile
import ResearchWorkbench.Library.Grouping
import ResearchWorkbench.Services.Chunking

namespace ResearchWorkbench.Chunking

/-!
# Units and groups

The units of an extraction sweep over its text: each begins and ends with a character that is no
white space, and between two of them there is only white space.  The grouping loop puts them in
groups without losing or moving any.

* `trimSegment_spec`, `cutEnd_spec`, `rawSegments_spec` — the loop of `splitBlock`;
* `Segments`, `splitBlock_spec` — the units of a block;
* `LaidOut`, `finalizeExtraction_spec` — where the blocks of an extraction are in its text;
* `unitsOf_spec` — the units of an extraction;
* `groupUnits_eq` — the grouping loop is greedy grouping by `fits`.
-/

open Span

variable {value : Text} {maxChars overlapChars : ℕ} {s : ℕ} {p : Span}

/-! ### Segments -/

/-- How many blanks a list begins with. -/
theorem blanks_spec {p : ℕ → Bool} {l : Text} {n : ℕ}
    (hn : n = l.length - (l.dropWhile p).length) :
    n ≤ l.length ∧ (∀ i < n, ∀ c, l[i]? = some c → p c = true) ∧
      ∀ c, l[n]? = some c → p c = false := by
  have hsplit := List.takeWhile_append_dropWhile (p := p) (l := l)
  have hlength : (l.takeWhile p).length + (l.dropWhile p).length = l.length := by
    rw [← List.length_append, hsplit]
  have hn' : n = (l.takeWhile p).length := by omega
  refine ⟨by omega, fun i hi c hc => ?_, fun c hc => ?_⟩
  · rw [← hsplit, List.getElem?_append_left (by omega)] at hc
    exact List.mem_takeWhile_imp (List.mem_of_getElem? hc)
  · rw [← hsplit, List.getElem?_append_right (by omega), hn', Nat.sub_self] at hc
    cases hdrop : l.dropWhile p with
    | nil =>
      rw [hdrop] at hc
      cases hc
    | cons d m =>
      rw [hdrop] at hc
      cases hc
      exact dropWhile_eq_cons hdrop

/-- A trimmed segment is a piece, with white space around it; there is none where there is nothing
    but white space. -/
theorem trimSegment_spec (hle : p.start ≤ p.stop) (hlength : p.stop ≤ value.length) :
    (∀ q, trimSegment value p.start p.stop = some q → IsPiece isSpaceUnit value q ∧
        p.start ≤ q.start ∧ q.stop ≤ p.stop ∧ BlankOn isSpaceUnit value p.start q.start ∧
          BlankOn isSpaceUnit value q.stop p.stop) ∧
      (trimSegment value p.start p.stop = none → BlankOn isSpaceUnit value p.start p.stop) := by
  have hraw : (slice value p.start p.stop).length = p.stop - p.start := length_slice hlength
  have helement (i : ℕ) (hi : p.start ≤ i) (hi' : i < p.stop) :
      (slice value p.start p.stop)[i - p.start]? = value[i]? := by
    rw [getElem?_slice (by omega), Nat.add_sub_cancel' hi]
  have helement' (i : ℕ) (hi : p.start ≤ i) (hi' : i < p.stop) :
      (slice value p.start p.stop).reverse[p.stop - 1 - i]? = value[i]? := by
    rw [List.getElem?_reverse (by omega), hraw, ← helement i hi hi']
    congr 1
    omega
  rcases blanks_spec (p := isSpaceUnit) (l := slice value p.start p.stop) rfl with
    ⟨hleft, hleftBlank, hleftFirst⟩
  rcases blanks_spec (p := isSpaceUnit) (l := (slice value p.start p.stop).reverse) rfl with
    ⟨hright, hrightBlank, hrightFirst⟩
  unfold trimSegment
  rw [List.length_reverse] at hright hrightBlank hrightFirst
  simp only []
  generalize (slice value p.start p.stop).length -
    ((slice value p.start p.stop).dropWhile isSpaceUnit).length = left at *
  generalize (slice value p.start p.stop).length -
    ((slice value p.start p.stop).reverse.dropWhile isSpaceUnit).length = right at *
  have hfront (i : ℕ) (hi : p.start ≤ i) (hi' : i < p.start + left) (hstop : i < p.stop) :
      ∀ c, value[i]? = some c → isSpaceUnit c = true := by
    intro c hc
    exact hleftBlank (i - p.start) (by omega) c (by rw [helement i hi hstop, hc])
  have hback (i : ℕ) (hi : p.start ≤ i) (hi' : p.stop - right ≤ i) (hstop : i < p.stop) :
      ∀ c, value[i]? = some c → isSpaceUnit c = true := by
    intro c hc
    exact hrightBlank (p.stop - 1 - i) (by omega) c (by rw [helement' i hi hstop, hc])
  by_cases hempty : p.stop - right ≤ p.start + left
  · rw [if_pos hempty]
    refine ⟨fun q hq => (by cases hq), fun _ i hi hi' => ?_⟩
    by_cases hfirst : i < p.start + left
    · exact hfront i hi hfirst hi'
    · exact hback i hi (by omega) hi'
  · rw [if_neg hempty]
    refine ⟨fun q hq => ?_, fun hnone => by cases hnone⟩
    obtain rfl := Option.some.inj hq
    have hlt : p.start + left < p.stop - right := not_le.mp hempty
    refine ⟨⟨hlt, (Nat.sub_le _ _).trans hlength, fun c hc => ?_, fun c hc => ?_⟩,
      Nat.le_add_right _ _, Nat.sub_le _ _, fun i hi hi' => hfront i hi hi' ?_,
      fun i hi hi' => hback i ?_ hi hi'⟩
    · refine hleftFirst c ?_
      rw [← hc, ← helement (p.start + left) (by omega) (by omega), Nat.add_sub_cancel_left]
    · refine hrightFirst c ?_
      rw [← hc, ← helement' (p.stop - right - 1) (by omega) (by omega)]
      congr 1
      omega
    · exact hi'.trans (hlt.trans_le (Nat.sub_le _ _))
    · exact (Nat.le_add_right _ _).trans (hlt.le.trans hi)

/-! ### The loop of `splitBlock` -/

theorem le_of_lastSpace {position boundary : ℕ} (h : lastSpace value position = some boundary) :
    boundary ≤ position := by
  have hmem := List.mem_of_find?_eq_some h
  rw [List.mem_reverse, List.mem_range] at hmem
  omega

/-- A unit has more than half of the allowed characters, or ends with the text. -/
theorem cutEnd_spec (hmax : 0 < maxChars) (hs : s < value.length) :
    s < cutEnd value maxChars s ∧ cutEnd value maxChars s ≤ value.length ∧
      cutEnd value maxChars s ≤ s + maxChars ∧
        (cutEnd value maxChars s = value.length ∨ s + maxChars / 2 < cutEnd value maxChars s) := by
  unfold cutEnd
  simp only []
  split
  · split
    · rename_i boundary hboundary
      have hle := le_of_lastSpace hboundary
      split <;> omega
    · omega
  · omega

/-- The next unit does not end before this one: the overlap is less than half of the characters. -/
theorem cutEnd_mono (hmax : 0 < maxChars) (hoverlap : overlapChars ≤ maxChars / 2)
    (hs : s < value.length) (hnext : cutEnd value maxChars s < value.length) :
    max (s + 1) (cutEnd value maxChars s - overlapChars) < value.length ∧
      max (s + 1) (cutEnd value maxChars s - overlapChars) ≤ cutEnd value maxChars s ∧
      cutEnd value maxChars s ≤
        cutEnd value maxChars (max (s + 1) (cutEnd value maxChars s - overlapChars)) := by
  have hcut := cutEnd_spec hmax hs
  have hlt : max (s + 1) (cutEnd value maxChars s - overlapChars) < value.length := by omega
  have hcut' := cutEnd_spec hmax hlt
  omega

/-- The trimmed segments of a text. -/
def segmentsFrom (value : Text) (maxChars overlapChars start : ℕ) : List Span :=
  (rawSegments value maxChars overlapChars start).filterMap fun raw =>
    trimSegment value raw.start raw.stop

theorem segmentsFrom_of_lt (hs : s < value.length) :
    segmentsFrom value maxChars overlapChars s =
      (trimSegment value s (cutEnd value maxChars s)).toList ++
        if value.length ≤ cutEnd value maxChars s then []
        else segmentsFrom value maxChars overlapChars
          (max (s + 1) (cutEnd value maxChars s - overlapChars)) := by
  rw [segmentsFrom, rawSegments, if_pos hs, List.filterMap_cons]
  cases trimSegment value s (cutEnd value maxChars s) <;> simp only [] <;> split <;> rfl

/-- The segments that follow the last one, `p`, when the loop is at `s`. -/
theorem segmentsFrom_spec (hmax : 0 < maxChars) (hoverlap : overlapChars ≤ maxChars / 2)
    (hlast : ∀ c, value[value.length - 1]? = some c → isSpaceUnit c = false)
    (hs : s < value.length) (hbefore : BlankOn isSpaceUnit value p.stop s)
    (hstart : BlankOn isSpaceUnit value s p.start)
    (hstop : p.stop ≤ cutEnd value maxChars s) (hle : p.start ≤ value.length)
    (hend : p.stop = 0 ∨ ∀ c, value[p.stop - 1]? = some c → isSpaceUnit c = false) :
    List.IsChain (Follows isSpaceUnit value) (p :: segmentsFrom value maxChars overlapChars s) ∧
      (∀ q ∈ segmentsFrom value maxChars overlapChars s,
        IsPiece isSpaceUnit value q ∧ q.stop ≤ q.start + maxChars) ∧
      ((p :: segmentsFrom value maxChars overlapChars s).getLast (List.cons_ne_nil _ _)).stop =
        value.length := by
  induction hn : value.length - s using Nat.strong_induction_on generalizing s p with
  | _ n ih =>
    have hcut := cutEnd_spec hmax hs
    have hmono := cutEnd_mono hmax hoverlap hs
    have hlength : (⟨s, cutEnd value maxChars s⟩ : Span).stop ≤ value.length := hcut.2.1
    have htrim := trimSegment_spec (p := ⟨s, cutEnd value maxChars s⟩) hcut.1.le hlength
    have hnonblank {i : ℕ} (hi : i < value.length) : ¬BlankOn isSpaceUnit value i value.length := by
      intro hblank
      have hsome : value[value.length - 1]? = some value[value.length - 1] :=
        List.getElem?_eq_getElem (by omega)
      have htrue := hblank (value.length - 1) (by omega) (by omega) _ hsome
      rw [hlast _ hsome] at htrue
      cases htrue
    rw [segmentsFrom_of_lt hs]
    cases hsegment : trimSegment value s (cutEnd value maxChars s) with
    | none =>
      have hblank : BlankOn isSpaceUnit value s (cutEnd value maxChars s) := htrim.2 hsegment
      by_cases hdone : value.length ≤ cutEnd value maxChars s
      · rw [show cutEnd value maxChars s = value.length by omega] at hblank
        exact absurd hblank (hnonblank hs)
      · rw [if_neg hdone]
        have hnext := hmono (not_le.mp hdone)
        -- the last segment stays the last one
        exact ih _ (by omega) hnext.1 (hbefore.trans (hblank.mono le_rfl hnext.2.1))
          (hstart.mono (by omega) le_rfl) (by omega) hle hend rfl
    | some q =>
      rcases htrim.1 q hsegment with ⟨hq, hqstart, hqstop, hfront, hback⟩
      have hqlt := hq.lt
      have hqle := hq.le
      simp only [] at hqstart hqstop hfront hback
      have hfollows : Follows isSpaceUnit value p q := by
        refine ⟨?_, ?_, hbefore.trans hfront⟩
        · by_contra hlt
          have hsome : value[q.start]? = some value[q.start] :=
            List.getElem?_eq_getElem (by omega)
          have htrue := hstart q.start hqstart (not_le.mp hlt) _ hsome
          rw [hq.first _ hsome] at htrue
          cases htrue
        · by_contra hlt
          have hsome : value[p.stop - 1]? = some value[p.stop - 1] :=
            List.getElem?_eq_getElem (by omega)
          have htrue := hback (p.stop - 1) (by omega) (by omega) _ hsome
          rcases hend with hzero | hend
          · omega
          · rw [hend _ hsome] at htrue
            cases htrue
      have hlength : q.stop ≤ q.start + maxChars := by omega
      by_cases hdone : value.length ≤ cutEnd value maxChars s
      · rw [if_pos hdone, List.append_nil, Option.toList_some]
        refine ⟨List.isChain_pair.mpr hfollows, List.forall_mem_singleton.mpr ⟨hq, hlength⟩, ?_⟩
        rw [List.getLast_cons_cons, List.getLast_singleton]
        by_contra hne
        rw [show cutEnd value maxChars s = value.length by omega] at hback
        exact hnonblank (by omega) hback
      · rw [if_neg hdone, Option.toList_some, List.singleton_append, List.isChain_cons_cons,
          List.forall_mem_cons, List.getLast_cons_cons]
        have hnext := hmono (not_le.mp hdone)
        have hrest := ih _ (by omega) hnext.1 (hback.mono le_rfl hnext.2.1)
          (hfront.mono (by omega) le_rfl) (by omega) (by omega) (.inr hq.last) rfl
        exact ⟨⟨hfollows, hrest.1⟩, ⟨⟨hq, hlength⟩, hrest.2.1⟩, hrest.2.2⟩

/-! ### The units of a block -/

/-- The segments of a text: they begin and end with it, and follow one another. -/
structure Segments (value : Text) (maxChars : ℕ) (segments : List Span) : Prop where
  chain : List.IsChain (Follows isSpaceUnit value) segments
  pieces : ∀ q ∈ segments, IsPiece isSpaceUnit value q
  length_le : ∀ q ∈ segments, q.stop ≤ q.start + maxChars
  ne_nil : segments ≠ []
  head : ∀ q ∈ segments.head?, q.start = 0
  last : ∀ q ∈ segments.getLast?, q.stop = value.length

/-- The segments of a block: one that is not too long is not split. -/
def blockSegments (value : Text) (maxChars overlapChars : ℕ) : List Span :=
  if value.length ≤ maxChars then [⟨0, value.length⟩]
  else segmentsFrom value maxChars overlapChars 0

theorem blockSegments_spec (hmax : 0 < maxChars) (hoverlap : overlapChars ≤ maxChars / 2)
    (hvalue : IsPiece isSpaceUnit value ⟨0, value.length⟩) :
    Segments value maxChars (blockSegments value maxChars overlapChars) := by
  have hpos : 0 < value.length := hvalue.lt
  unfold blockSegments
  split
  · rename_i hle
    exact
      { chain := List.isChain_singleton _
        pieces := List.forall_mem_singleton.mpr hvalue
        length_le := List.forall_mem_singleton.mpr (by simpa using hle)
        ne_nil := List.cons_ne_nil _ _
        head := by rintro q ⟨⟩; rfl
        last := by rintro q ⟨⟩; rfl }
  · have hblank : BlankOn isSpaceUnit value 0 0 := fun i _ hi => absurd hi (Nat.not_lt_zero i)
    have hspec := segmentsFrom_spec (p := ⟨0, 0⟩) hmax hoverlap hvalue.last hpos hblank hblank
      (Nat.zero_le _) (Nat.zero_le _) (.inl rfl)
    generalize segmentsFrom value maxChars overlapChars 0 = segments at hspec
    rcases hspec with ⟨hchain, hpieces, hlast⟩
    cases segments with
    | nil => exact absurd hlast hpos.ne
    | cons q segments =>
      rw [List.isChain_cons_cons] at hchain
      rw [List.getLast_cons_cons] at hlast
      refine
        { chain := hchain.2
          pieces := fun r hr => (hpieces r hr).1
          length_le := fun r hr => (hpieces r hr).2
          ne_nil := List.cons_ne_nil _ _
          head := ?_
          last := ?_ }
      · rintro r ⟨⟩
        by_contra hne
        have hblank := hchain.1.blankOn 0 le_rfl (Nat.pos_of_ne_zero hne) _
          (List.getElem?_eq_getElem hpos)
        rw [hvalue.first _ (List.getElem?_eq_getElem hpos)] at hblank
        cases hblank
      · intro r hr
        rw [List.getLast?_eq_some_getLast (List.cons_ne_nil q segments)] at hr
        cases hr
        exact hlast

/-! ### The blocks of an extraction -/

/-- Where a block is in the text. -/
def ExtractionBlock.span (block : ExtractionBlock) : Span := ⟨block.startOffset, block.endOffset⟩

/-- Where a unit is in the text. -/
def ChunkUnit.span (unit : ChunkUnit) : Span := ⟨unit.startOffset, unit.endOffset⟩

/-- A block whose text is trimmed, and stands in the text of the extraction at its offset. -/
structure ExtractionBlock.IsIn (text : Text) (block : ExtractionBlock) : Prop where
  piece : IsPiece isSpaceUnit block.text ⟨0, block.text.length⟩
  endOffset : block.endOffset = block.startOffset + block.text.length
  isPrefix : block.text <+: text.drop block.startOffset

/-- The blocks stand in the text one after the other, with a blank line between them. -/
structure LaidOut (text : Text) (blocks : List ExtractionBlock) : Prop where
  isIn : ∀ block ∈ blocks, block.IsIn text
  chain : blocks.IsChain fun block next => Touches [10, 10] text block.span next.span
  head : ∀ block ∈ blocks.head?, block.startOffset = 0
  last : ∀ block ∈ blocks.getLast?, block.endOffset = text.length
  nil : blocks = [] → text = []

theorem joinBlocks_concat {blocks : List ExtractionBlock} (h : blocks ≠ [])
    (block : ExtractionBlock) :
    joinBlocks (blocks ++ [block]) = joinBlocks blocks ++ [10, 10] ++ block.text := by
  rw [joinBlocks, List.map_append, List.map_singleton,
    intercalate_concat (List.map_eq_nil_iff.not.mpr h), joinBlocks]

theorem isPiece_of_isTrimmed {t : Text} (h : IsTrimmed t) (hne : t ≠ []) :
    IsPiece isSpaceUnit t ⟨0, t.length⟩ := by
  rcases h.ends hne with ⟨c, m, d, n, hfront, hback, hc, hd⟩
  refine ⟨List.length_pos_iff.mpr hne, le_rfl, fun e he => ?_, fun e he => ?_⟩
  · rw [hfront] at he
    cases he
    exact hc
  · rw [hback] at he
    simp only [List.length_append, List.length_singleton, Nat.add_sub_cancel,
      List.getElem?_concat_length] at he
    cases he
    exact hd

theorem ExtractionBlock.IsIn.append {text rest : Text} {block : ExtractionBlock}
    (h : block.IsIn text) : block.IsIn (text ++ rest) where
  piece := h.piece
  endOffset := h.endOffset
  isPrefix := by
    rcases h.isPrefix with ⟨m, hm⟩
    by_cases hle : block.startOffset ≤ text.length
    · refine ⟨m ++ rest, ?_⟩
      rw [List.drop_append_of_le_length hle, ← hm, List.append_assoc]
    · rw [List.drop_eq_nil_of_le (not_le.mp hle).le, List.append_eq_nil_iff] at hm
      exact absurd h.piece.lt (by rw [hm.1]; exact lt_irrefl 0)

/-- One more block. -/
theorem LaidOut.concat {blocks : List ExtractionBlock} {block : ExtractionBlock}
    (h : LaidOut (joinBlocks blocks) blocks)
    (hpiece : IsPiece isSpaceUnit block.text ⟨0, block.text.length⟩)
    (hstart : block.startOffset =
      if 0 < blocks.length then (joinBlocks blocks).length + 2 else (joinBlocks blocks).length)
    (hend : block.endOffset = block.startOffset + block.text.length) :
    LaidOut (joinBlocks (blocks ++ [block])) (blocks ++ [block]) := by
  by_cases hne : blocks = []
  · subst hne
    have htext : joinBlocks [block] = block.text := List.intercalate_singleton
    have hzero : block.startOffset = 0 := hstart
    rw [List.nil_append, htext]
    refine
      { isIn := List.forall_mem_singleton.mpr ⟨hpiece, hend, ?_⟩
        chain := List.isChain_singleton _
        head := by rintro _ ⟨⟩; exact hzero
        last := ?_
        nil := fun hnil => by cases hnil }
    · rw [hzero, List.drop_zero]
    · rintro _ ⟨⟩
      show block.endOffset = block.text.length
      rw [hend, hzero, Nat.zero_add]
  · rw [if_pos (List.length_pos_iff.mpr hne)] at hstart
    rw [joinBlocks_concat hne]
    generalize joinBlocks blocks = text at h hstart
    have hlength : (text ++ [10, 10]).length = block.startOffset := by
      rw [List.length_append, hstart]
      rfl
    have hdrop : (text ++ [10, 10] ++ block.text).drop block.startOffset = block.text := by
      rw [← hlength, List.drop_left]
    refine
      { isIn := ?_, chain := ?_, head := ?_, last := ?_
        nil := fun hnil => absurd hnil (by simp) }
    · rw [List.forall_mem_append, List.forall_mem_singleton]
      refine ⟨fun b hb => ?_, hpiece, hend, ?_⟩
      · rw [List.append_assoc]
        exact (h.isIn b hb).append
      · rw [hdrop]
    · refine List.IsChain.append (h.chain.imp fun b c hbc => ?_) (List.isChain_singleton _) ?_
      · rw [List.append_assoc]
        exact hbc.append (List.cons_ne_nil _ _) _
      · rintro b hb _ ⟨⟩
        have hlast := h.last b hb
        refine ⟨?_, ?_⟩
        · show block.startOffset = b.endOffset + 2
          rw [hstart, hlast]
        · show slice _ b.endOffset block.startOffset = _
          rw [hlast, slice, ← hlength, List.take_left, List.drop_left]
    · intro b hb
      rw [List.head?_append_of_ne_nil _ hne] at hb
      exact h.head b hb
    · intro b hb
      rw [List.getLast?_concat] at hb
      cases hb
      rw [hend, hstart, List.length_append, List.length_append]
      rfl

/-- **The blocks of an extraction.**  Its text is its blocks with a blank line between them, and each
    block stands at its offset. -/
theorem finalizeExtraction_spec {sha256Hex : Sha256} {input : FinalizeExtractionInput}
    {extraction : DocumentExtractionResult}
    (h : finalizeExtraction sha256Hex input = .ok extraction) :
    extraction.status = .ready ∧ LaidOut extraction.text extraction.blocks := by
  simp only [finalizeExtraction, bind_eq_ok, ensure_eq_ok, pure_eq_ok] at h
  rcases h with ⟨_, _, _, _, state, hfold, rfl⟩
  have hlaid := foldlM_eq_ok
    (P := fun state : List ExtractionBlock × ℕ =>
      LaidOut (joinBlocks state.1) state.1 ∧ state.2 = (joinBlocks state.1).length) hfold ?_ ?_
  · exact ⟨rfl, hlaid.1⟩
  · exact ⟨⟨fun b hb => (by cases hb), List.isChain_nil, fun b hb => (by cases hb),
      fun b hb => (by cases hb), fun _ => rfl⟩, rfl⟩
  · rintro draft - ⟨blocks, offset⟩ state' ⟨hlaid, hoffset⟩ hadd
    simp only [] at hlaid hoffset
    simp only [addBlock] at hadd
    split at hadd
    · obtain rfl := pure_eq_ok.mp hadd
      exact ⟨hlaid, hoffset⟩
    · rename_i hne
      simp only [bind_eq_ok, ensure_eq_ok, pure_eq_ok, exists_and_left, exists_const] at hadd
      rcases hadd with ⟨_, rfl⟩
      subst hoffset
      refine (and_iff_left_of_imp fun hlaid' => hlaid'.last _ List.getLast?_concat).mpr ?_
      exact LaidOut.concat hlaid (isPiece_of_isTrimmed (isTrimmed_trimText _) hne) rfl rfl

/-- The text of an extraction is put together from its blocks. -/
theorem finalizeExtraction_text {sha256Hex : Sha256} {input : FinalizeExtractionInput}
    {extraction : DocumentExtractionResult}
    (h : finalizeExtraction sha256Hex input = .ok extraction) :
    extraction.text = joinBlocks extraction.blocks := by
  simp only [finalizeExtraction, bind_eq_ok, ensure_eq_ok, pure_eq_ok] at h
  rcases h with ⟨_, _, _, _, _, _, rfl⟩
  rfl

/-! ### The units of an extraction -/

section

variable {text : Text} {blocks : List ExtractionBlock} {block : ExtractionBlock}

theorem splitBlock_eq (h : block.IsIn text) : splitBlock block maxChars overlapChars =
    (blockSegments block.text maxChars overlapChars).map (segmentUnit block) := by
  unfold splitBlock blockSegments
  split
  · rw [List.map_singleton, segmentUnit, slice, List.take_length, List.drop_zero, h.endOffset]
    rfl
  · rfl

/-- A unit stands at its offset, in its block. -/
structure ChunkUnit.IsIn (text : Text) (blocks : List ExtractionBlock) (maxChars : ℕ)
    (unit : ChunkUnit) : Prop where
  block_mem : unit.block ∈ blocks
  piece : IsPiece isSpaceUnit text unit.span
  text_eq : unit.text = slice text unit.startOffset unit.endOffset
  length_le : unit.text.length ≤ maxChars
  start_le : unit.block.startOffset ≤ unit.startOffset
  le_stop : unit.endOffset ≤ unit.block.endOffset

/-- The one unit follows the other, in the same block or in the next one. -/
def Next (text : Text) (unit next : ChunkUnit) : Prop :=
  Follows isSpaceUnit text unit.span next.span ∧
    (unit.block = next.block ∨ Touches [10, 10] text unit.span next.span)

/-- The units of an extraction. -/
def unitsOf (blocks : List ExtractionBlock) (maxChars overlapChars : ℕ) : List ChunkUnit :=
  blocks.flatMap fun block => splitBlock block maxChars overlapChars

theorem segmentUnit_isIn (h : block.IsIn text) (hmem : block ∈ blocks) {q : Span}
    (hq : IsPiece isSpaceUnit block.text q) (hlength : q.stop ≤ q.start + maxChars) :
    (segmentUnit block q).IsIn text blocks maxChars where
  block_mem := hmem
  piece := hq.shift h.isPrefix
  text_eq := slice_of_prefix_drop h.isPrefix hq.le
  length_le := by
    rw [segmentUnit, hq.length_slice]
    omega
  start_le := Nat.le_add_right _ _
  le_stop := by
    rw [segmentUnit, h.endOffset]
    exact Nat.add_le_add_left hq.le _

/-- The units of a block: from its beginning to its end, one after the other. -/
theorem splitBlock_spec (hmax : 0 < maxChars) (hoverlap : overlapChars ≤ maxChars / 2)
    (h : block.IsIn text) (hmem : block ∈ blocks) :
    (splitBlock block maxChars overlapChars).IsChain (Next text) ∧
      (∀ unit ∈ splitBlock block maxChars overlapChars,
        unit.IsIn text blocks maxChars ∧ unit.block = block) ∧
      splitBlock block maxChars overlapChars ≠ [] ∧
      (∀ unit ∈ (splitBlock block maxChars overlapChars).head?,
        unit.startOffset = block.startOffset) ∧
      ∀ unit ∈ (splitBlock block maxChars overlapChars).getLast?,
        unit.endOffset = block.endOffset := by
  have hspec := blockSegments_spec hmax hoverlap h.piece
  rw [splitBlock_eq h]
  generalize blockSegments block.text maxChars overlapChars = segments at hspec
  refine ⟨?_, ?_, ?_, ?_, ?_⟩
  · rw [List.isChain_map]
    refine List.IsChain.imp_of_mem_imp (fun p q _ hq hpq => ?_) hspec.chain
    have hle := (hspec.pieces q hq).lt.le.trans (hspec.pieces q hq).le
    exact ⟨hpq.shift h.isPrefix hle, .inl rfl⟩
  · rw [List.forall_mem_map]
    intro q hq
    exact ⟨segmentUnit_isIn h hmem (hspec.pieces q hq) (hspec.length_le q hq), rfl⟩
  · exact List.map_eq_nil_iff.not.mpr hspec.ne_nil
  · intro unit hunit
    rw [List.head?_map] at hunit
    rcases Option.map_eq_some_iff.mp hunit with ⟨q, hq, rfl⟩
    show block.startOffset + q.start = block.startOffset
    rw [hspec.head q hq, Nat.add_zero]
  · intro unit hunit
    rw [List.getLast?_map] at hunit
    rcases Option.map_eq_some_iff.mp hunit with ⟨q, hq, rfl⟩
    show block.startOffset + q.stop = block.endOffset
    rw [hspec.last q hq, h.endOffset]

/-- The units of an extraction: from the beginning of its text to its end, one after the other. -/
structure Swept (text : Text) (blocks : List ExtractionBlock) (maxChars : ℕ)
    (units : List ChunkUnit) : Prop where
  chain : units.IsChain (Next text)
  isIn : ∀ unit ∈ units, unit.IsIn text blocks maxChars
  head : ∀ unit ∈ units.head?, unit.startOffset = 0
  last : ∀ unit ∈ units.getLast?, unit.endOffset = text.length
  nil : units = [] → text = []

/-- Blank lines are white space. -/
theorem isSpaceUnit_separator : ∀ c ∈ ([10, 10] : Text), isSpaceUnit c = true := by decide

/-- **The units sweep over the text.** -/
theorem unitsOf_spec (hmax : 0 < maxChars) (hoverlap : overlapChars ≤ maxChars / 2)
    (h : LaidOut text blocks) :
    Swept text blocks maxChars (unitsOf blocks maxChars overlapChars) := by
  have hblock (block : ExtractionBlock) (hmem : block ∈ blocks) :=
    splitBlock_spec hmax hoverlap (h.isIn block hmem) hmem
  have hnil : [] ∉ blocks.map fun block => splitBlock block maxChars overlapChars := by
    intro hmem
    rcases List.mem_map.mp hmem with ⟨block, hmem, hempty⟩
    exact (hblock block hmem).2.2.1 hempty
  refine
    { chain := ?_, isIn := ?_, head := ?_, last := ?_, nil := ?_ }
  · rw [unitsOf, List.flatMap_def, List.isChain_flatten hnil, List.forall_mem_map, List.isChain_map]
    refine ⟨fun block hmem => (hblock block hmem).1, ?_⟩
    refine List.IsChain.imp_of_mem_imp (fun b c hb hc hbc => ?_) h.chain
    intro u hu v hv
    -- the last unit of a block ends where the block ends, and the next one begins with its block
    have hub := (hblock b hb).2.1 u (List.mem_of_getLast? hu)
    have hvc := (hblock c hc).2.1 v (List.mem_of_head? hv)
    have htouches : Touches [10, 10] text u.span v.span := by
      have hstop := (hblock b hb).2.2.2.2 u hu
      have hstart := (hblock c hc).2.2.2.1 v hv
      rw [Touches, ChunkUnit.span, ChunkUnit.span, hstop, hstart]
      exact hbc
    exact ⟨htouches.follows hub.1.piece.lt.le hvc.1.piece.lt.le isSpaceUnit_separator,
      .inr htouches⟩
  · intro unit hunit
    rcases List.mem_flatMap.mp hunit with ⟨block, hmem, hunit⟩
    exact ((hblock block hmem).2.1 unit hunit).1
  · cases blocks with
    | nil => intro unit hunit; cases hunit
    | cons block blocks =>
      have hfirst := hblock block List.mem_cons_self
      intro unit hunit
      rw [unitsOf, List.flatMap_cons, List.head?_append_of_ne_nil _ hfirst.2.2.1] at hunit
      rw [hfirst.2.2.2.1 unit hunit]
      exact h.head block rfl
  · rcases List.eq_nil_or_concat blocks with rfl | ⟨blocks', block, rfl⟩
    · intro unit hunit; cases hunit
    · have hlast := hblock block (by simp)
      intro unit hunit
      rw [List.concat_eq_append, unitsOf, List.flatMap_append, List.flatMap_singleton,
        List.getLast?_append_of_ne_nil _ hlast.2.2.1] at hunit
      rw [hlast.2.2.2.2 unit hunit]
      exact h.last block (by simp)
  · intro hempty
    refine h.nil (List.eq_nil_iff_forall_not_mem.mpr fun block hmem => ?_)
    exact (hblock block hmem).2.2.1 (List.flatMap_eq_nil_iff.mp hempty block hmem)

end

/-! ### Groups -/

/-- The unit fits into the group, and continues its structure. -/
def fits (maxChars : ℕ) (group : List ChunkUnit) (unit : ChunkUnit) : Prop :=
  (groupText group).length + 2 + unit.text.length ≤ maxChars ∧
    ∀ last ∈ group.getLast?, sameStructure last unit

instance decidableFits (maxChars : ℕ) (group : List ChunkUnit) (unit : ChunkUnit) :
    Decidable (fits maxChars group unit) :=
  inferInstanceAs (Decidable (_ ∧ ∀ last ∈ group.getLast?, _))

theorem length_groupText_concat {group : List ChunkUnit} (h : group ≠ []) (unit : ChunkUnit) :
    (groupText (group ++ [unit])).length = (groupText group).length + 2 + unit.text.length := by
  rw [groupText, List.map_append, List.map_singleton,
    intercalate_concat (List.map_eq_nil_iff.not.mpr h), List.length_append, List.length_append]
  rfl

/-- The group is closed exactly if the unit does not fit. -/
theorem closesGroup_iff {state : GroupState} {unit : ChunkUnit}
    (hchars : state.currentChars = (groupText state.current).length) :
    closesGroup maxChars state unit = true ↔
      state.current ≠ [] ∧ ¬fits maxChars state.current unit := by
  unfold closesGroup fits
  rw [← hchars]
  cases hlast : state.current.getLast? with
  | none =>
    rw [List.getLast?_eq_none_iff.mp hlast]
    simp
  | some last =>
    have hne : state.current ≠ [] := by
      intro hnil
      rw [hnil] at hlast
      cases hlast
    simp only [Option.mem_def, Option.some.injEq, forall_eq', hne, ne_eq, not_false_eq_true,
      true_and, Bool.or_eq_true, Bool.not_eq_true', decide_eq_false_iff_not, not_and_or]

/-- The variables of the grouping loop, as those of greedy grouping. -/
def GroupState.toGrouping (state : GroupState) : Grouping ChunkUnit := ⟨state.grouped, state.current⟩

/-- One step of the loop is one of greedy grouping, and the characters are counted. -/
theorem addUnit_eq {state : GroupState} {unit : ChunkUnit}
    (hchars : state.currentChars = (groupText state.current).length) :
    (addUnit maxChars state unit).toGrouping = state.toGrouping.push (fits maxChars) unit ∧
      (addUnit maxChars state unit).currentChars =
        (groupText (addUnit maxChars state unit).current).length := by
  have hsingle : (groupText [unit]).length = unit.text.length := by
    rw [groupText, List.map_singleton, List.intercalate_singleton]
  unfold addUnit
  by_cases hcloses : closesGroup maxChars state unit = true
  · have hpush := (closesGroup_iff hchars).mp hcloses
    rw [if_pos hcloses]
    refine ⟨?_, ?_⟩
    · exact (if_pos (c := state.toGrouping.current ≠ [] ∧
        ¬fits maxChars state.toGrouping.current unit) hpush).symm
    · show 0 + (0 + unit.text.length) = (groupText [unit]).length
      rw [hsingle, Nat.zero_add, Nat.zero_add]
  · have hpush := (closesGroup_iff hchars).not.mp hcloses
    rw [if_neg hcloses]
    refine ⟨?_, ?_⟩
    · exact (if_neg (c := state.toGrouping.current ≠ [] ∧
        ¬fits maxChars state.toGrouping.current unit) hpush).symm
    · show state.currentChars + ((if 1 < (state.current ++ [unit]).length then 2 else 0) +
        unit.text.length) = (groupText (state.current ++ [unit])).length
      rw [hchars]
      by_cases hne : state.current = []
      · rw [hne, List.nil_append, hsingle]
        exact (Nat.zero_add _).trans (Nat.zero_add _)
      · have hpos := List.length_pos_iff.mpr hne
        rw [length_groupText_concat hne, List.length_append, List.length_singleton,
          if_pos (by omega), Nat.add_assoc]

/-- The loop after some units. -/
def loopState (maxChars : ℕ) (units : List ChunkUnit) : GroupState :=
  units.foldl (addUnit maxChars) ⟨[], [], 0⟩

theorem loopState_spec (maxChars : ℕ) (units : List ChunkUnit) :
    (loopState maxChars units).toGrouping = Grouping.of (fits maxChars) units ∧
      (loopState maxChars units).currentChars =
        (groupText (loopState maxChars units).current).length := by
  induction units using List.reverseRecOn with
  | nil => exact ⟨rfl, rfl⟩
  | append_singleton units unit ih =>
    rw [loopState, List.foldl_concat, Grouping.of_concat, ← ih.1]
    exact addUnit_eq ih.2

/-- **The loop groups greedily.** -/
theorem groupUnits_eq (maxChars : ℕ) (units : List ChunkUnit) :
    groupUnits maxChars units = (Grouping.of (fits maxChars) units).groups := by
  rw [← (loopState_spec maxChars units).1, Grouping.groups]
  show (if 0 < (loopState maxChars units).current.length then
    (loopState maxChars units).grouped ++ [(loopState maxChars units).current]
    else (loopState maxChars units).grouped) = _
  by_cases hne : (loopState maxChars units).current = []
  · rw [if_neg (by rw [hne]; exact lt_irrefl 0)]
    exact (if_pos hne).symm
  · rw [if_pos (List.length_pos_iff.mpr hne)]
    exact (if_neg hne).symm

/-- Two units are neighbours in a group exactly if the second does not close the group of the
    first. -/
theorem linked_iff {units : List ChunkUnit} {unit next : ChunkUnit} :
    Grouping.Linked (groupUnits maxChars units) unit next ↔
      ∃ before after, units = before ++ unit :: next :: after ∧
        closesGroup maxChars (loopState maxChars (before ++ [unit])) next = false := by
  rw [groupUnits_eq, Grouping.linked_iff]
  refine exists₂_congr fun before after => and_congr_right fun _ => ?_
  have hstate := loopState_spec maxChars (before ++ [unit])
  have hcurrent : (loopState maxChars (before ++ [unit])).current =
      (Grouping.of (fits maxChars) (before ++ [unit])).current :=
    congrArg Grouping.current hstate.1
  have hne : (loopState maxChars (before ++ [unit])).current ≠ [] := by
    rw [hcurrent, Grouping.of_concat]
    exact Grouping.push_current_ne_nil _ _
  rw [← Bool.not_eq_true, closesGroup_iff hstate.2, ← hcurrent]
  exact ⟨fun hfits hcloses => hcloses.2 hfits, fun hcloses =>
    not_not.mp fun hfits => hcloses ⟨hne, hfits⟩⟩

/-! ### Options -/

/-- What valid options are. -/
theorem validateOptions_spec {options : ChunkingOptions} {valid : ValidOptions}
    (h : validateOptions options = .ok valid) :
    100 ≤ valid.maxChars ∧ valid.overlapChars ≤ valid.maxChars / 2 ∧ 1 ≤ valid.maxChunks := by
  simp only [validateOptions, bind_eq_ok, ensure_eq_ok, pure_eq_ok] at h
  rcases h with ⟨_, ⟨hmaxInt, hmax⟩, _, ⟨hoverlapInt, hoverlap, hless⟩, _, ⟨hchunksInt, hchunks⟩, rfl⟩
  generalize options.maxChars.getD 4000 = maxChars at *
  generalize options.overlapChars.getD 300 = overlapChars at *
  generalize options.maxChunks.getD 2000 = maxChunks at *
  -- the numbers are integers
  have hmaxNum : (maxChars.num : ℚ) = maxChars := Rat.den_eq_one_iff _ |>.mp hmaxInt.1
  have hoverlapNum : (overlapChars.num : ℚ) = overlapChars :=
    Rat.den_eq_one_iff _ |>.mp hoverlapInt.1
  have hchunksNum : (maxChunks.num : ℚ) = maxChunks := Rat.den_eq_one_iff _ |>.mp hchunksInt.1
  rw [← hmaxNum] at hmax hless
  rw [← hoverlapNum] at hoverlap hless
  rw [← hchunksNum] at hchunks
  have hmax' : (100 : ℤ) ≤ maxChars.num := by exact_mod_cast hmax
  have hoverlap' : (0 : ℤ) ≤ overlapChars.num := by exact_mod_cast hoverlap
  have hchunks' : (1 : ℤ) ≤ maxChunks.num := by exact_mod_cast hchunks
  have hless' : overlapChars.num * 2 < maxChars.num := by
    have hmul := (lt_div_iff₀ (by norm_num : (0 : ℚ) < 2)).mp hless
    exact_mod_cast hmul
  refine ⟨?_, ?_, ?_⟩ <;> simp only [] <;> omega

end ResearchWorkbench.Chunking
