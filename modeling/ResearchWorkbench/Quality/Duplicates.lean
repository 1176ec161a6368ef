import ResearchWorkbench.Quality.RowOrder

namespace ResearchWorkbench.Qa

/-!
# Duplicates

The rule about duplicates reports the sources that are marked, and then those whose hash an earlier
source has.  A marked source counts as an earlier one, too.

* `Repeats`, `HashPass.Ran` — the sources with an earlier hash, and what the loop has after some
  sources;
* `mem_reported_duplicateSources` — which sources are reported;
* `KeepsOriginals`, `OrderIndependent` — what the rule is for;
* `duplicates_iff` — when it is so;
* `marked_copy_first` — a marked copy before its original makes the original a duplicate.
-/

/-! ### The loop over the hashes -/

/-- What is reported about a source. -/
def duplicateReport (id : Text) : QaRuleCode × Text := (.duplicateSource, asciiText "source:" ++ id)

theorem duplicateReport_inj {id id' : Text} :
    duplicateReport id = duplicateReport id' ↔ id = id' := by
  rw [duplicateReport, duplicateReport, Prod.mk.injEq, List.append_right_inj, and_iff_right rfl]

/-- A source with the hash of an earlier one. -/
def Repeats (sources : List QaSource) (s : QaSource) : Prop :=
  ∃ before after, sources = before ++ s :: after ∧ s.trimmedHash ≠ none ∧
    ∃ first ∈ before, first.trimmedHash = s.trimmedHash

variable {sources : List QaSource} {s t : QaSource}

theorem Repeats.mem (h : Repeats sources s) : s ∈ sources := by
  rcases h with ⟨before, after, rfl, _⟩
  exact List.mem_append_right before List.mem_cons_self

/-- One more source repeats if an earlier one has its hash. -/
theorem repeats_concat : Repeats (sources ++ [t]) s ↔ Repeats sources s ∨
    s = t ∧ t.trimmedHash ≠ none ∧ ∃ first ∈ sources, first.trimmedHash = t.trimmedHash := by
  constructor
  · rintro ⟨before, after, heq, hhash, hfirst⟩
    rcases List.eq_nil_or_concat after with rfl | ⟨after, u, rfl⟩
    · rw [List.append_singleton_inj] at heq
      rcases heq with ⟨rfl, rfl⟩
      exact Or.inr ⟨rfl, hhash, hfirst⟩
    · rw [List.concat_eq_append, ← List.cons_append, ← List.append_assoc,
        List.append_singleton_inj] at heq
      exact Or.inl ⟨before, after, heq.1, hhash, hfirst⟩
  · rintro (⟨before, after, rfl, hhash, hfirst⟩ | ⟨rfl, hhash, hfirst⟩)
    · exact ⟨before, after ++ [t], by rw [List.append_assoc, List.cons_append], hhash, hfirst⟩
    · exact ⟨sources, [], rfl, hhash, hfirst⟩

/-- What the loop has after some sources. -/
structure HashPass.Ran (initial : List QaFinding) (seen : List QaSource) (state : HashPass) :
    Prop where
  hashes : ∀ hash, (state.firstSourceByHash.lookup hash).isSome ↔
    ∃ s ∈ seen, s.trimmedHash = some hash
  ids : ∀ id, id ∈ state.duplicateSourceIds ↔ duplicateReport id ∈ reported state.findings
  findings : ∀ x, x ∈ reported state.findings ↔ x ∈ reported initial ∨
    ∃ s, Repeats seen s ∧ x = duplicateReport s.id

variable {initial : List QaFinding} {state : HashPass}

/-- One source in the loop. -/
theorem HashPass.Ran.step (h : state.Ran initial sources) :
    (hashStep state t).Ran initial (sources ++ [t]) := by
  have hseen (hash : Text) : (∃ s ∈ sources ++ [t], s.trimmedHash = some hash) ↔
      (∃ s ∈ sources, s.trimmedHash = some hash) ∨ t.trimmedHash = some hash := by
    simp only [List.mem_append, List.mem_singleton, or_and_right, exists_or, exists_eq_left]
  have hrepeats (hnew : ¬(t.trimmedHash ≠ none ∧
      ∃ first ∈ sources, first.trimmedHash = t.trimmedHash)) (s : QaSource) :
      Repeats (sources ++ [t]) s ↔ Repeats sources s := by
    rw [repeats_concat, or_iff_left fun hs => hnew hs.2]
  unfold hashStep
  split
  · -- a source without a hash
    rename_i hnone
    refine ⟨fun hash => ?_, h.ids, fun x => ?_⟩
    · rw [h.hashes, hseen, hnone, or_iff_left (Option.some_ne_none hash).symm]
    · simp only [h.findings, hrepeats fun hnew => hnew.1 hnone]
  · rename_i contentHash hhash
    split
    · -- the first source with its hash
      rename_i hlookup
      have hfirst : ¬∃ s ∈ sources, s.trimmedHash = some contentHash := by
        rw [← h.hashes, hlookup]
        exact Bool.false_ne_true
      refine ⟨fun hash => ?_, h.ids, fun x => ?_⟩
      · rw [List.lookup_append, Option.isSome_or, Bool.or_eq_true, h.hashes, hseen, hhash,
          List.lookup_cons, Option.some.injEq]
        refine or_congr_right ?_
        by_cases heq : contentHash = hash
        · rw [heq, beq_self_eq_true]
          exact iff_of_true rfl rfl
        · rw [beq_eq_false_iff_ne.mpr (Ne.symm heq)]
          exact iff_of_false Bool.false_ne_true heq
      · simp only [h.findings, hrepeats fun hnew => hfirst (hhash ▸ hnew.2)]
    · rename_i canonical hlookup
      have hfirst : ∃ s ∈ sources, s.trimmedHash = some contentHash := by
        rw [← h.hashes, hlookup]
        rfl
      have hhashes (hash : Text) : (state.firstSourceByHash.lookup hash).isSome ↔
          ∃ s ∈ sources ++ [t], s.trimmedHash = some hash := by
        rw [h.hashes, hseen, iff_self_or, hhash]
        rintro heq
        exact heq ▸ hfirst
      have hfindings (x : QaRuleCode × Text) : (x ∈ reported initial ∨
            ∃ s, Repeats (sources ++ [t]) s ∧ x = duplicateReport s.id) ↔
          x ∈ reported state.findings ∨ x = duplicateReport t.id := by
        have hnew : t.trimmedHash ≠ none ∧
            ∃ first ∈ sources, first.trimmedHash = t.trimmedHash := by
          rw [hhash]
          exact ⟨Option.some_ne_none _, hfirst⟩
        simp only [repeats_concat, h.findings, and_iff_left hnew, or_and_right, exists_or,
          exists_eq_left, or_assoc]
      split
      · -- it is reported already
        rename_i hid
        refine ⟨hhashes, h.ids, fun x => ?_⟩
        rw [hfindings, iff_self_or]
        rintro rfl
        exact (h.ids t.id).mp hid
      · refine ⟨hhashes, fun id => ?_, fun x => ?_⟩
        · rw [reported_append, List.mem_append, List.mem_cons, h.ids, or_comm]
          refine or_congr_right ?_
          rw [← duplicateReport_inj]
          exact List.mem_singleton.symm
        · rw [hfindings, reported_append, List.mem_append]
          exact or_congr_right List.mem_singleton

/-- The whole loop. -/
theorem HashPass.Ran.run (h : state.Ran initial []) (sources : List QaSource) :
    (sources.foldl hashStep state).Ran initial sources := by
  induction sources using List.reverseRecOn with
  | nil => exact h
  | append_singleton sources t ih =>
    rw [List.foldl_append]
    exact ih.step

/-- **Which sources are reported.** -/
theorem mem_reported_duplicateSources {x : QaRuleCode × Text} :
    x ∈ reported (duplicateSources sources) ↔
      ∃ s ∈ sources, (s.isMarked = true ∨ Repeats sources s) ∧ x = duplicateReport s.id := by
  let marked := sources.filter (·.isMarked)
  let findings := marked.map fun source =>
    duplicateFinding source "A source is marked as a duplicate of another project source."
      (source.duplicateOfSourceId.getD [])
  have hmarked (x : QaRuleCode × Text) : x ∈ reported findings ↔
      ∃ s ∈ sources, s.isMarked = true ∧ x = duplicateReport s.id := by
    rw [mem_reported_filter_map]
    simp only [eq_comm]
    rfl
  have hstart : HashPass.Ran findings [] ⟨[], marked.map (·.id), findings⟩ := by
    refine ⟨fun hash => ?_, fun id => ?_, fun x => ?_⟩
    · exact iff_of_false Bool.false_ne_true (by simp)
    · rw [hmarked]
      simp only [duplicateReport_inj, marked, List.mem_map, List.mem_filter, and_assoc, eq_comm]
    · refine (or_iff_left ?_).symm
      rintro ⟨s, hrepeats, _⟩
      exact absurd hrepeats.mem List.not_mem_nil
  have hran := (hstart.run sources).findings x
  rw [duplicateSources, hran, hmarked]
  constructor
  · rintro (⟨s, hs, hmark, hx⟩ | ⟨s, hrepeats, hx⟩)
    · exact ⟨s, hs, Or.inl hmark, hx⟩
    · exact ⟨s, hrepeats.mem, Or.inr hrepeats, hx⟩
  · rintro ⟨s, hs, hmark | hrepeats, hx⟩
    · exact Or.inl ⟨s, hs, hmark, hx⟩
    · exact Or.inr ⟨s, hrepeats, hx⟩

/-! ### What the rule is for -/

/-- A source is reported as a duplicate. -/
def isFlagged (findings : List QaFinding) (s : QaSource) : Bool :=
  duplicateReport s.id ∈ reported findings

/-- Of the sources with a hash, one fewer than there are is reported at most. -/
def KeepsOriginals (sources : List QaSource) (findings : List QaFinding) : Prop :=
  ∀ hash, let same := sources.filter fun s => s.trimmedHash = some hash
    same.countP (isFlagged findings) ≤ same.length - 1

/-- Whatever the order of the rows, the rules report the same at the same places. -/
def OrderIndependent (rows : QaRows) (findings : List QaFinding) : Prop :=
  ∀ rows', rows.Reordered rows' → ∃ findings', runQaRules rows'.context = .ok findings' ∧
    ∀ x, x ∈ reported findings' ↔ x ∈ reported findings

/-- A source with a hash is not marked, and no other source has the hash. -/
def SeparateHashes (sources : List QaSource) : Prop :=
  ∀ s ∈ sources, s.trimmedHash ≠ none →
    s.isMarked = false ∧ ∀ t ∈ sources, t.trimmedHash = s.trimmedHash → t = s

/-- Where hashes are kept apart, no source repeats. -/
theorem SeparateHashes.not_repeats (h : SeparateHashes sources) (hnodup : sources.Nodup) :
    ¬Repeats sources s := by
  rintro ⟨before, after, rfl, hhash, first, hfirst, hsame⟩
  have hs : s ∈ before ++ s :: after := List.mem_append_right before List.mem_cons_self
  have heq : first = s := (h s hs hhash).2 first (List.mem_append_left _ hfirst) hsame
  exact List.disjoint_of_nodup_append hnodup (heq ▸ hfirst) List.mem_cons_self

theorem SeparateHashes.perm {sources' : List QaSource} (h : SeparateHashes sources)
    (hperm : sources.Perm sources') : SeparateHashes sources' := by
  intro s hs hhash
  rcases h s (hperm.mem_iff.mpr hs) hhash with ⟨hmark, hsame⟩
  exact ⟨hmark, fun t ht => hsame t (hperm.mem_iff.mpr ht)⟩

/-- Where hashes are kept apart, the marked sources are reported. -/
theorem SeparateHashes.mem_reported (h : SeparateHashes sources) (hnodup : sources.Nodup)
    {x : QaRuleCode × Text} : x ∈ reported (duplicateSources sources) ↔
      ∃ s ∈ sources, s.isMarked = true ∧ x = duplicateReport s.id := by
  rw [mem_reported_duplicateSources]
  refine exists_congr fun s => and_congr_right fun _ => and_congr_left fun _ => ?_
  exact or_iff_left (h.not_repeats hnodup)

/-- A source stands first in some order of the rows. -/
theorem exists_reordered_first {rows : QaRows} (hs : s ∈ rows.context.sources) :
    ∃ rows', rows.Reordered rows' ∧ ∃ others, rows'.context.sources = s :: others ∧
      rows.context.sources.Perm (s :: others) := by
  rcases List.mem_map.mp hs with ⟨row, hrow, rfl⟩
  rcases List.perm_cons_erase hrow with hperm
  refine ⟨{ rows with sources := row :: rows.sources.erase row }, ?_, _, rfl, hperm.map _⟩
  exact ⟨rfl, hperm, .refl _, .refl _, .refl _, rfl, rfl⟩

section

variable {rows : QaRows} {findings : List QaFinding} (hids : rows.Identified)
  (hok : runQaRules rows.context = .ok findings)
include hids hok

/-- A source of the project is reported exactly if it is marked or repeats. -/
theorem isFlagged_iff (hs : s ∈ rows.context.sources) : isFlagged findings s = true ↔
    s.isMarked = true ∨ Repeats rows.context.sources s := by
  have hcontext := context_reordered (.refl rows) hids
  rcases runQaRules_reordered hcontext hids.context hids.context hok with
    ⟨_, _, others, hothers, hreported, _⟩
  rw [isFlagged, decide_eq_true_eq, hreported, or_iff_right fun hx => hothers _ hx rfl,
    mem_reported_duplicateSources]
  constructor
  · rintro ⟨t, ht, hreason, heq⟩
    rw [duplicateReport_inj] at heq
    rw [List.inj_on_of_nodup_map hids.context.sources hs ht heq]
    exact hreason
  · intro hreason
    exact ⟨s, hs, hreason, rfl⟩

/-- Where originals are kept in any order of the rows, a hash belongs to one source. -/
theorem separateHashes_of (hkeeps : KeepsOriginals rows.context.sources findings)
    (horder : OrderIndependent rows findings) : SeparateHashes rows.context.sources := by
  intro s hs hhash
  rcases Option.ne_none_iff_exists'.mp hhash with ⟨hash, hhash⟩
  have hmem : s ∈ rows.context.sources.filter fun s => s.trimmedHash = some hash :=
    List.mem_filter.mpr ⟨hs, decide_eq_true hhash⟩
  have hlt := (hkeeps hash).trans_lt (Nat.sub_one_lt (List.length_pos_of_mem hmem).ne')
  -- one source with the hash is not reported
  have hkept : ∃ o ∈ rows.context.sources, o.trimmedHash = some hash ∧
      isFlagged findings o = false := by
    by_contra hnone
    refine hlt.ne (List.countP_eq_length.mpr fun o ho => ?_)
    rw [List.mem_filter, decide_eq_true_eq] at ho
    by_contra hflag
    exact hnone ⟨o, ho.1, ho.2, (Bool.not_eq_true _).mp hflag⟩
  rcases hkept with ⟨o, ho, hohash, hoflag⟩
  have hounmarked : o.isMarked = false := by
    rw [← Bool.not_eq_true]
    intro hmark
    rw [(isFlagged_iff hids hok ho).mpr (Or.inl hmark)] at hoflag
    cases hoflag
  -- any other one is made the first, and then the one that is not reported repeats
  have honly : ∀ t ∈ rows.context.sources, t.trimmedHash = some hash → t = o := by
    intro t ht hthash
    by_contra hne
    rcases exists_reordered_first ht with ⟨rows', hrows', others, hothers, hperm⟩
    rcases horder rows' hrows' with ⟨findings', hok', hsame⟩
    have hoin : o ∈ others := (List.mem_cons.mp (hperm.mem_iff.mp ho)).resolve_left (Ne.symm hne)
    rcases List.append_of_mem hoin with ⟨before, after, rfl⟩
    have hrepeats : Repeats rows'.context.sources o := by
      refine ⟨t :: before, after, hothers, ?_, t, List.mem_cons_self, hthash.trans hohash.symm⟩
      rw [hohash]
      exact Option.some_ne_none hash
    have hflag := (isFlagged_iff (hids.reordered hrows') hok' hrepeats.mem).mpr (Or.inr hrepeats)
    rw [isFlagged, decide_eq_true_eq, hsame] at hflag
    rw [isFlagged, decide_eq_false_iff_not] at hoflag
    exact hoflag hflag
  obtain rfl : s = o := honly s hs hhash
  exact ⟨hounmarked, fun t ht hsame => honly t ht (hsame.trans hhash)⟩

/-- **When originals are kept in any order of the rows**: if no two sources of the project have the
    same hash, and no source with a hash is marked. -/
theorem duplicates_iff : KeepsOriginals rows.context.sources findings ∧
    OrderIndependent rows findings ↔ SeparateHashes rows.context.sources := by
  refine ⟨fun h => separateHashes_of hids hok h.1 h.2, fun hseparate => ⟨fun hash => ?_, ?_⟩⟩
  · have hnone : (rows.context.sources.filter fun s => s.trimmedHash = some hash).countP
        (isFlagged findings) = 0 := by
      refine List.countP_eq_zero.mpr fun s hs hflag => ?_
      rw [List.mem_filter, decide_eq_true_eq] at hs
      have hhash : s.trimmedHash ≠ none := by
        rw [hs.2]
        exact Option.some_ne_none hash
      rcases (isFlagged_iff hids hok hs.1).mp hflag with hmark | hrepeats
      · rw [(hseparate s hs.1 hhash).1] at hmark
        cases hmark
      · exact hseparate.not_repeats hids.context.sources.of_map hrepeats
    show (rows.context.sources.filter fun s => s.trimmedHash = some hash).countP
      (isFlagged findings) ≤ _
    rw [hnone]
    exact Nat.zero_le _
  · intro rows' hrows'
    have hids' := hids.reordered hrows'
    have hcontext := context_reordered hrows' hids
    rcases runQaRules_reordered hcontext hids.context hids'.context hok with
      ⟨findings', hok', others, _, hreported, hreported'⟩
    refine ⟨findings', hok', fun x => ?_⟩
    rw [hreported, hreported', hseparate.mem_reported hids.context.sources.of_map,
      (hseparate.perm hcontext.sources).mem_reported hids'.context.sources.of_map]
    simp only [hcontext.sources.mem_iff]

end

/-! ### A marked copy -/

/-- Marks point to other sources of the project, and not in a circle. -/
structure WellMarked (rows : QaRows) : Prop where
  points : ∀ s ∈ rows.sources, ∀ id ∈ s.duplicateOfSourceId, ∃ t ∈ rows.sources, t.id = id ∧ t ≠ s
  acyclic : ∃ rank : Text → ℕ, ∀ s ∈ rows.sources, ∀ id ∈ s.duplicateOfSourceId, rank id < rank s.id

/-- A source with a hash. -/
def exampleOriginal : SourceRow where
  id := asciiText "a"
  projectId := 0
  title := asciiText "Report"
  publisher := none
  publishedAt := none
  contentHash := some (asciiText "cafe")
  duplicateOfSourceId := none

/-- A copy of it that is marked. -/
def exampleCopy : SourceRow :=
  { exampleOriginal with id := asciiText "copy", duplicateOfSourceId := some (asciiText "a") }

/-- A project with some sources. -/
def exampleRows (sources : List SourceRow) : QaRows where
  project := ⟨asciiText "2026-01-01", 365⟩
  sources
  evidence := []
  claims := []
  links := []
  questions := []
  sections := fun _ => none

theorem exampleRows_identified : (exampleRows [exampleCopy, exampleOriginal]).Identified where
  sources := (by decide +kernel :
    ([exampleCopy, exampleOriginal].map fun s : SourceRow => s.id).Nodup)
  evidence := List.nodup_nil
  claims := List.nodup_nil
  named e he := absurd he List.not_mem_nil

/-- **A marked copy that comes first makes the original a duplicate**; if the original comes first,
    it is none. -/
theorem marked_copy_first : ¬∀ (rows : QaRows) (findings : List QaFinding), rows.Identified →
    WellMarked rows → runQaRules rows.context = .ok findings →
      KeepsOriginals rows.context.sources findings ∧ OrderIndependent rows findings := by
  intro hall
  have hmarked : WellMarked (exampleRows [exampleCopy, exampleOriginal]) := by
    refine ⟨?_, List.length, ?_⟩
    · exact (by decide +kernel : ∀ s ∈ [exampleCopy, exampleOriginal],
        ∀ id ∈ s.duplicateOfSourceId, ∃ t ∈ [exampleCopy, exampleOriginal], t.id = id ∧ t ≠ s)
    · exact (by decide +kernel : ∀ s ∈ [exampleCopy, exampleOriginal],
        ∀ id ∈ s.duplicateOfSourceId, id.length < s.id.length)
  have hrun : ∃ findings ∈
      (runQaRules (exampleRows [exampleCopy, exampleOriginal]).context).toOption,
        ((exampleRows [exampleCopy, exampleOriginal]).context.sources.filter fun s =>
          s.trimmedHash = some (asciiText "cafe")).countP (isFlagged findings) = 2 := by
    decide +kernel
  rcases hrun with ⟨findings, hrun, hcount⟩
  have hkeeps := (hall _ findings exampleRows_identified hmarked
    (toOption_eq_some.mp hrun)).1 (asciiText "cafe")
  refine absurd (hcount.symm.trans_le hkeeps) ?_
  decide +kernel

theorem exampleRows_duplicates : ∃ findings ∈
    (runQaRules (exampleRows [exampleOriginal]).context).toOption,
      KeepsOriginals (exampleRows [exampleOriginal]).context.sources findings ∧
        OrderIndependent (exampleRows [exampleOriginal]) findings := by
  have hrun : ∃ findings, findings ∈
      (runQaRules (exampleRows [exampleOriginal]).context).toOption := by
    refine Option.isSome_iff_exists.mp ?_
    decide +kernel
  rcases hrun with ⟨findings, hrun⟩
  have hids : (exampleRows [exampleOriginal]).Identified :=
    ⟨List.nodup_singleton _, List.nodup_nil, List.nodup_nil, fun e he => absurd he List.not_mem_nil⟩
  refine ⟨findings, hrun, (duplicates_iff hids (toOption_eq_some.mp hrun)).mpr ?_⟩
  intro s hs hhash
  obtain rfl := List.mem_singleton.mp hs
  exact ⟨by decide +kernel, fun t ht _ => List.mem_singleton.mp ht⟩

end ResearchWorkbench.Qa
