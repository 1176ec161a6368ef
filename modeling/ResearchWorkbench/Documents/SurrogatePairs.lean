import ResearchWorkbench.Documents.Anchors

namespace ResearchWorkbench.Chunking

/-!
# Chunks and surrogate pairs

A text is well formed if UTF-8 gives it back.  Cut in two, both parts are, unless the cut is between
the halves of a pair: then neither is.  The cuts of `splitBlock` count code units.

* `IsWellFormed`, `SplitsPair`, `isWellFormed_append_iff`, `isWellFormed_slice_iff` — cuts of a
  text;
* `isWellFormed_intercalate_iff` — blank lines between texts do no harm;
* `CutsWhole`, `chunks_wellFormed_iff` — the chunks are well formed exactly if no cut splits a pair;
* `pair_is_split` — a word that is too long.
-/

open Span

variable {t u : Text}

/-! ### Well-formed texts -/

/-- UTF-8 gives the text back: every half of a surrogate pair is next to the other one. -/
def IsWellFormed (t : Text) : Prop := toWellFormed t = t

instance decidableIsWellFormed (t : Text) : Decidable (IsWellFormed t) :=
  inferInstanceAs (Decidable (_ = _))

theorem isWellFormed_nil : IsWellFormed [] := rfl

theorem length_toWellFormed (t : Text) : (toWellFormed t).length = t.length :=
  (toWellFormed_stored t).length_eq.symm

theorem not_low_of_high {c : ℕ} (h : isHighSurrogate c = true) : isLowSurrogate c = false := by
  simp only [isHighSurrogate, isLowSurrogate, Bool.and_eq_true, decide_eq_true_eq,
    Bool.and_eq_false_iff, decide_eq_false_iff_not] at h ⊢
  omega

/-- White space is no half of a pair. -/
theorem not_surrogate_of_space {c : ℕ} (h : isSpaceUnit c = true) :
    isHighSurrogate c = false ∧ isLowSurrogate c = false := by
  simp only [isSpaceUnit, isHighSurrogate, isLowSurrogate, Bool.or_eq_true, Bool.and_eq_true,
    decide_eq_true_eq, Bool.and_eq_false_iff, decide_eq_false_iff_not] at h ⊢
  omega

/-- The first text ends with the first half of a pair, and the second begins with the other one. -/
def PairBetween (t u : Text) : Prop :=
  ∃ c d, t.getLast? = some c ∧ u.head? = some d ∧ isHighSurrogate c = true ∧ isLowSurrogate d = true

theorem not_pairBetween_nil : ¬PairBetween t [] := by
  rintro ⟨_, _, _, hnil, _⟩
  cases hnil

theorem toWellFormed_cons {c : ℕ} (h : ¬PairBetween [c] t) :
    toWellFormed (c :: t) =
      (if isHighSurrogate c || isLowSurrogate c then 0xFFFD else c) :: toWellFormed t := by
  cases t with
  | nil =>
    simp only [toWellFormed]
    split <;> rfl
  | cons d t =>
    have hpair : ¬(isHighSurrogate c && isLowSurrogate d) = true := by
      intro hpair
      rw [Bool.and_eq_true] at hpair
      exact h ⟨c, d, rfl, rfl, hpair.1, hpair.2⟩
    rw [toWellFormed, if_neg hpair]

/-- Texts that do not share a pair become well formed one by one. -/
theorem toWellFormed_append : ∀ {t : Text}, ¬PairBetween t u →
    toWellFormed (t ++ u) = toWellFormed t ++ toWellFormed u
  | [], _ => rfl
  | [c], h => by
    rw [List.singleton_append, toWellFormed_cons h,
      toWellFormed_cons (t := []) not_pairBetween_nil]
    rfl
  | c :: d :: t, h => by
    have hrest : ¬PairBetween (d :: t) u := by
      rintro ⟨e, f, he, hf, hhigh, hlow⟩
      exact h ⟨e, f, by rw [List.getLast?_cons_cons, he], hf, hhigh, hlow⟩
    by_cases hpair : (isHighSurrogate c && isLowSurrogate d) = true
    · have hrest' : ¬PairBetween t u := by
        rintro ⟨e, f, he, hf, hhigh, hlow⟩
        refine hrest ⟨e, f, ?_, hf, hhigh, hlow⟩
        rw [List.getLast?_cons, he]
        rfl
      rw [List.cons_append, List.cons_append, toWellFormed, if_pos hpair, toWellFormed,
        if_pos hpair, toWellFormed_append hrest']
      rfl
    · rw [List.cons_append, List.cons_append, toWellFormed, if_neg hpair, toWellFormed,
        if_neg hpair, ← List.cons_append, toWellFormed_append hrest]
      rfl

theorem not_isWellFormed_of_low {d : ℕ} (h : isLowSurrogate d = true) :
    ¬IsWellFormed (d :: t) := by
  intro hwf
  have hpair : ¬PairBetween [d] t := by
    rintro ⟨c, _, hc, _, hhigh, _⟩
    obtain rfl := Option.some.inj hc
    rw [List.getLast_singleton] at hhigh
    rw [not_low_of_high hhigh] at h
    cases h
  rw [IsWellFormed, toWellFormed_cons hpair, h, Bool.or_true, if_pos rfl] at hwf
  obtain ⟨rfl, _⟩ := List.cons_eq_cons.mp hwf
  exact absurd h (by decide)

theorem not_isWellFormed_of_high {c : ℕ} (h : isHighSurrogate c = true) :
    ¬IsWellFormed (t ++ [c]) := by
  intro hwf
  have hpair : ¬PairBetween t [c] := by
    rintro ⟨_, d, _, ⟨⟩, _, hlow⟩
    rw [not_low_of_high h] at hlow
    cases hlow
  rw [IsWellFormed, toWellFormed_append hpair,
    toWellFormed_cons (t := []) not_pairBetween_nil, h, Bool.true_or, if_pos rfl] at hwf
  have hlast := (List.append_inj' hwf rfl).2
  cases hlast
  exact absurd h (by decide)

/-- **A well-formed text is cut into well-formed ones exactly if no pair is split.** -/
theorem isWellFormed_append_iff (h : ¬PairBetween t u) :
    IsWellFormed (t ++ u) ↔ IsWellFormed t ∧ IsWellFormed u := by
  rw [IsWellFormed, toWellFormed_append h]
  constructor
  · intro happend
    exact List.append_inj happend (length_toWellFormed t)
  · rintro ⟨ht, hu⟩
    rw [ht, hu]

/-! ### Cuts -/

/-- The cut before position `i` is between the halves of a pair. -/
def SplitsPair (t : Text) (i : ℕ) : Prop := PairBetween (t.take i) (t.drop i)

theorem splitsPair_iff {i : ℕ} : SplitsPair t i ↔ ∃ c d, 0 < i ∧ t[i - 1]? = some c ∧
    t[i]? = some d ∧ isHighSurrogate c = true ∧ isLowSurrogate d = true := by
  unfold SplitsPair PairBetween
  refine exists₂_congr fun c d => ?_
  rw [List.head?_drop]
  constructor
  · rintro ⟨hc, hd, hhigh, hlow⟩
    have hi : i < t.length := (List.getElem?_eq_some_iff.mp hd).1
    rw [List.getLast?_eq_getElem?, List.length_take, Nat.min_eq_left hi.le] at hc
    have hpos : 0 < i := by
      by_contra hzero
      rw [Nat.eq_zero_of_not_pos hzero] at hc
      cases hc
    rw [List.getElem?_take_of_lt (by omega)] at hc
    exact ⟨hpos, hc, hd, hhigh, hlow⟩
  · rintro ⟨hpos, hc, hd, hhigh, hlow⟩
    have hi : i < t.length := (List.getElem?_eq_some_iff.mp hd).1
    refine ⟨?_, hd, hhigh, hlow⟩
    rw [List.getLast?_eq_getElem?, List.length_take, Nat.min_eq_left hi.le,
      List.getElem?_take_of_lt (by omega), hc]

/-- **A part of a well-formed text is well formed exactly if its ends split no pair.** -/
theorem isWellFormed_slice_iff (ht : IsWellFormed t) {i j : ℕ} (hij : i < j) (hj : j ≤ t.length) :
    IsWellFormed (slice t i j) ↔ ¬SplitsPair t i ∧ ¬SplitsPair t j := by
  constructor
  · intro hwf
    refine ⟨fun hsplit => ?_, fun hsplit => ?_⟩
    · rcases splitsPair_iff.mp hsplit with ⟨_, d, _, _, hd, _, hlow⟩
      -- the part begins with the second half
      have hhead : (slice t i j)[0]? = some d := by rw [getElem?_slice (by omega), Nat.add_zero, hd]
      rw [← List.head?_eq_getElem?] at hhead
      rcases List.head?_eq_some_iff.mp hhead with ⟨rest, hrest⟩
      rw [hrest] at hwf
      exact not_isWellFormed_of_low hlow hwf
    · rcases splitsPair_iff.mp hsplit with ⟨c, _, _, hc, _, hhigh, _⟩
      -- the part ends with the first half
      have hlast : (slice t i j)[j - i - 1]? = some c := by
        rw [getElem?_slice (by omega), show i + (j - i - 1) = j - 1 by omega, hc]
      have hlength : (slice t i j).length = j - i := length_slice hj
      rw [← hlength, ← List.getLast?_eq_getElem?] at hlast
      rcases List.getLast?_eq_some_iff.mp hlast with ⟨front, hfront⟩
      rw [hfront] at hwf
      exact not_isWellFormed_of_high hhigh hwf
  · rintro ⟨hi, hj'⟩
    have htake : IsWellFormed (t.take j) := by
      rw [← List.take_append_drop j t, isWellFormed_append_iff hj'] at ht
      exact ht.1
    have hsplit : ¬PairBetween ((t.take j).take i) ((t.take j).drop i) := by
      intro hpair
      rcases splitsPair_iff.mp hpair with ⟨c, d, hpos, hc, hd, hhigh, hlow⟩
      rw [List.getElem?_take_of_lt (by omega)] at hc hd
      exact hi (splitsPair_iff.mpr ⟨c, d, hpos, hc, hd, hhigh, hlow⟩)
    rw [← List.take_append_drop i (t.take j), isWellFormed_append_iff hsplit] at htake
    exact htake.2

/-- White space before or after the cut is no half of a pair. -/
theorem not_splitsPair_of_blankOn {i j k : ℕ} (h : BlankOn isSpaceUnit t i j) (hij : i < j)
    (hi : i ≤ k) (hk : k ≤ j) : ¬SplitsPair t k := by
  intro hsplit
  rcases splitsPair_iff.mp hsplit with ⟨c, d, hpos, hc, hd, hhigh, hlow⟩
  by_cases hkj : k < j
  · have hspace := not_surrogate_of_space (h k hi hkj d hd)
    rw [hspace.2] at hlow
    cases hlow
  · have hspace := not_surrogate_of_space (h (k - 1) (by omega) (by omega) c hc)
    rw [hspace.1] at hhigh
    cases hhigh

/-! ### Blank lines -/

/-- Blank lines between texts share no pair with them. -/
theorem isWellFormed_blankLine_iff : IsWellFormed (t ++ [10, 10] ++ u) ↔
    IsWellFormed t ∧ IsWellFormed u := by
  have hleft : ¬PairBetween t ([10, 10] ++ u) := by
    rintro ⟨_, d, _, hd, _, hlow⟩
    cases hd
    exact absurd hlow (by decide)
  have hright : ¬PairBetween [10, 10] u := by
    rintro ⟨c, _, hc, _, hhigh, _⟩
    cases hc
    exact absurd hhigh (by decide)
  rw [List.append_assoc, isWellFormed_append_iff hleft, isWellFormed_append_iff hright]
  exact and_congr_right' (and_iff_right (show IsWellFormed [10, 10] by decide))

/-- Texts with blank lines between them are well formed if each of them is. -/
theorem isWellFormed_intercalate_iff (ts : List Text) :
    IsWellFormed (List.intercalate [10, 10] ts) ↔ ∀ t ∈ ts, IsWellFormed t := by
  induction ts with
  | nil => exact iff_of_true isWellFormed_nil fun t ht => by cases ht
  | cons t ts ih =>
    cases ts with
    | nil => rw [List.intercalate_singleton, List.forall_mem_singleton]
    | cons u ts =>
      rw [List.intercalate_cons_cons, isWellFormed_blankLine_iff, ih, ← List.forall_mem_cons]

/-! ### The units of a block -/

variable {block : ExtractionBlock} {maxChars overlapChars : ℕ}

theorem rawSegments_lt (hmax : 0 < maxChars) {value : Text} {s : ℕ} {raw : Span}
    (h : raw ∈ rawSegments value maxChars overlapChars s) :
    raw.start < raw.stop ∧ raw.stop ≤ value.length := by
  induction hn : value.length - s using Nat.strong_induction_on generalizing s with
  | _ n ih =>
    rw [rawSegments] at h
    split at h
    · rename_i hs
      have hcut := cutEnd_spec hmax hs
      simp only [List.mem_cons] at h
      rcases h with rfl | h
      · exact ⟨hcut.1, hcut.2.1⟩
      · split at h
        · cases h
        · exact ih _ (by omega) h rfl
    · cases h

/-- Trimming moves no end of a segment from or to the middle of a pair. -/
theorem trimSegment_splits_iff {value : Text} {raw : Span} (hlt : raw.start < raw.stop)
    (hle : raw.stop ≤ value.length) :
    (¬SplitsPair value raw.start ∧ ¬SplitsPair value raw.stop) ↔
      ∀ q ∈ trimSegment value raw.start raw.stop,
        ¬SplitsPair value q.start ∧ ¬SplitsPair value q.stop := by
  have hspec := trimSegment_spec hlt.le hle
  cases htrim : trimSegment value raw.start raw.stop with
  | none =>
    have hblank := hspec.2 htrim
    refine iff_of_true ⟨?_, ?_⟩ fun q hq => by cases hq
    · exact not_splitsPair_of_blankOn hblank hlt le_rfl hlt.le
    · exact not_splitsPair_of_blankOn hblank hlt hlt.le le_rfl
  | some q =>
    rcases hspec.1 q htrim with ⟨_, hstart, hstop, hfront, hback⟩
    simp only [Option.mem_def, Option.some.injEq, forall_eq']
    have hstartIff : SplitsPair value raw.start ↔ SplitsPair value q.start := by
      rcases hstart.eq_or_lt with heq | hlt
      · rw [heq]
      · exact iff_of_false (not_splitsPair_of_blankOn hfront hlt le_rfl hlt.le)
          (not_splitsPair_of_blankOn hfront hlt hlt.le le_rfl)
    have hstopIff : SplitsPair value raw.stop ↔ SplitsPair value q.stop := by
      rcases hstop.eq_or_lt with heq | hlt
      · rw [heq]
      · exact iff_of_false (not_splitsPair_of_blankOn hback hlt hlt.le le_rfl)
          (not_splitsPair_of_blankOn hback hlt le_rfl hlt.le)
    rw [hstartIff, hstopIff]

/-- No cut of a block that is too long is between the halves of a pair. -/
def CutsWhole (block : ExtractionBlock) (options : ValidOptions) : Prop :=
  options.maxChars < block.text.length →
    ∀ raw ∈ rawSegments block.text options.maxChars options.overlapChars 0,
      ¬SplitsPair block.text raw.start ∧ ¬SplitsPair block.text raw.stop

/-- The units of a block are well formed exactly if no cut splits a pair. -/
theorem units_wellFormed_iff {options : ValidOptions} (hmax : 0 < options.maxChars)
    (hblock : IsWellFormed block.text) :
    (∀ unit ∈ splitBlock block options.maxChars options.overlapChars, IsWellFormed unit.text) ↔
      CutsWhole block options := by
  unfold splitBlock CutsWhole
  split
  · rename_i hle
    refine iff_of_true ?_ fun hlt => absurd hle (not_le.mpr hlt)
    rw [List.forall_mem_singleton]
    exact hblock
  · rename_i hle
    rw [List.forall_mem_map, forall_prop_of_true (not_le.mp hle)]
    have hraw (raw : Span)
        (hmem : raw ∈ rawSegments block.text options.maxChars options.overlapChars 0) :=
      rawSegments_lt hmax hmem
    have hunit {raw q : Span} (hlt : raw.start < raw.stop ∧ raw.stop ≤ block.text.length)
        (hq : trimSegment block.text raw.start raw.stop = some q) :
        IsWellFormed (segmentUnit block q).text ↔
          ¬SplitsPair block.text q.start ∧ ¬SplitsPair block.text q.stop := by
      have hpiece := ((trimSegment_spec hlt.1.le hlt.2).1 q hq).1
      exact isWellFormed_slice_iff hblock hpiece.lt hpiece.le
    constructor
    · intro hall raw hmem
      rw [trimSegment_splits_iff (hraw raw hmem).1 (hraw raw hmem).2]
      intro q hq
      exact (hunit (hraw raw hmem) hq).mp (hall q (List.mem_filterMap.mpr ⟨raw, hmem, hq⟩))
    · intro hall q hq
      rcases List.mem_filterMap.mp hq with ⟨raw, hmem, hq⟩
      have hwhole := (trimSegment_splits_iff (hraw raw hmem).1 (hraw raw hmem).2).mp
        (hall raw hmem)
      exact (hunit (hraw raw hmem) hq).mpr (hwhole q hq)

/-! ### The chunks of an extraction -/

variable {sha256Hex : Sha256} {args : ChunkExtractionInput} {doc : ChunkedDocument}
  {options : ValidOptions}

/-- The chunks are well formed exactly if their units are. -/
theorem chunks_units_wellFormed_iff (h : chunkExtraction sha256Hex args = .ok doc)
    (hoptions : validateOptions args.options = .ok options) :
    (∀ chunk ∈ doc.chunks, IsWellFormed chunk.text) ↔
      ∀ unit ∈ unitsOf args.extraction.blocks options.maxChars options.overlapChars,
        IsWellFormed unit.text := by
  have hgroup (group : List ChunkUnit) : IsWellFormed (groupText group) ↔
      ∀ unit ∈ group, IsWellFormed unit.text := by
    rw [groupText, isWellFormed_intercalate_iff, List.forall_mem_map]
  have hflatten : (groupsOf args.extraction.blocks options).flatten =
      unitsOf args.extraction.blocks options.maxChars options.overlapChars := by
    rw [groupsOf, groupUnits_eq]
    exact Grouping.flatten_groups _ _
  rw [← hflatten]
  constructor
  · intro hall unit hunit
    rcases List.mem_flatten.mp hunit with ⟨group, hmem, hunit⟩
    rcases List.getElem?_of_mem hmem with ⟨i, hi⟩
    rcases toChunk_isSome sha256Hex args i
      (ne_nil_of_mem_groups hmem) with ⟨first, last, hfirst, hlast, _⟩
    have hchunk := (exists_group h hoptions).mpr ⟨group, first, last, hi, hfirst, hlast, rfl⟩
    exact (hgroup group).mp (hall _ (List.mem_of_getElem? hchunk)) unit hunit
  · intro hall chunk hchunk
    rcases List.getElem?_of_mem hchunk with ⟨i, hi⟩
    rcases (exists_group h hoptions).mp hi with ⟨group, first, last, hmem, _, _, rfl⟩
    exact (hgroup group).mpr fun unit hunit =>
      hall unit (List.mem_flatten.mpr ⟨group, List.mem_of_getElem? hmem, hunit⟩)

/-- **The chunks of a well-formed extraction are well formed exactly if no cut splits a pair.** -/
theorem chunks_wellFormed_iff {input : FinalizeExtractionInput}
    (hextraction : finalizeExtraction sha256Hex input = .ok args.extraction)
    (hoptions : validateOptions args.options = .ok options)
    (h : chunkExtraction sha256Hex args = .ok doc)
    (htext : IsWellFormed args.extraction.text) :
    (∀ chunk ∈ doc.chunks, IsWellFormed chunk.text) ↔
      ∀ block ∈ args.extraction.blocks, CutsWhole block options := by
  rcases validateOptions_spec hoptions with ⟨hmax, _, _⟩
  rw [finalizeExtraction_text hextraction, joinBlocks, isWellFormed_intercalate_iff,
    List.forall_mem_map] at htext
  rw [chunks_units_wellFormed_iff h hoptions, unitsOf, List.forall_mem_flatMap]
  refine forall₂_congr fun block hblock => ?_
  exact units_wellFormed_iff (by omega) (htext block hblock)

/-- A word that is too long, with a pair where it is cut. -/
def longWord : Text := List.replicate 99 97 ++ [0xD83D, 0xDE00] ++ List.replicate 10 97

/-- The word is well formed, and the end of its first chunk is not. -/
theorem longWord_chunk : ∃ extraction ∈
      (finalizeExtraction (fun _ => []) (exampleDocument longWord)).toOption,
    IsWellFormed extraction.text ∧
      ∃ doc ∈ (chunkExtraction (fun _ => []) (exampleArgs 0 extraction)).toOption,
        ∃ chunk ∈ doc.chunks, ¬IsWellFormed chunk.text := by
  decide +kernel

/-- So one of its cuts splits a pair. -/
theorem longWord_not_cutsWhole : ∃ extraction ∈
      (finalizeExtraction (fun _ => []) (exampleDocument longWord)).toOption,
    ¬∀ block ∈ extraction.blocks, CutsWhole block ⟨100, 0, 2000⟩ := by
  rcases longWord_chunk with ⟨extraction, hextraction, htext, doc, hdoc, chunk, hchunk, hne⟩
  refine ⟨extraction, hextraction, fun hwhole => hne ?_⟩
  have hoptions : validateOptions ⟨some 100, some 0, none⟩ = .ok ⟨100, 0, 2000⟩ := by
    decide +kernel
  exact (chunks_wellFormed_iff (toOption_eq_some.mp hextraction) hoptions
    (toOption_eq_some.mp hdoc) htext).mpr hwhole chunk hchunk

/-- **A chunk can end with half a surrogate pair.** -/
theorem pair_is_split : ¬∀ (sha256Hex : Sha256) (input : FinalizeExtractionInput)
    (args : ChunkExtractionInput) (doc : ChunkedDocument),
    finalizeExtraction sha256Hex input = .ok args.extraction →
      chunkExtraction sha256Hex args = .ok doc → IsWellFormed args.extraction.text →
        ∀ chunk ∈ doc.chunks, IsWellFormed chunk.text := by
  intro hall
  rcases longWord_chunk with ⟨extraction, hextraction, htext, doc, hdoc, chunk, hchunk, hne⟩
  exact hne (hall _ _ (exampleArgs 0 extraction) doc (toOption_eq_some.mp hextraction)
    (toOption_eq_some.mp hdoc) htext chunk hchunk)

end ResearchWorkbench.Chunking
