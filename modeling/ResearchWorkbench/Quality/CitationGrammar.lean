import ResearchWorkbench.Quality.BracketGroups

namespace ResearchWorkbench.Qa

/-!
# One grammar of citations

The quality check and the evaluation read the same ids from brackets.  The validator of drafts reads
other ones: none from a link, and it takes off a prefix in any case.

* `mem_citationIdsIn`, `mem_sourceIdsInMarkdown` — what is read from the brackets of a text;
* `BracketGroup.isOtherCase`, `OneReading` — when the sets are the same nevertheless;
* `OneGrammar`, `one_grammar_iff` — what follows for drafts, and when it holds;
* `link_is_cited` — a link.
-/

open Reports Contracts

variable {text content id : Text} {g : BracketGroup}

/-! ### What is read -/

theorem mem_citationIdsIn : id ∈ citationIdsIn text ↔
    ∃ g ∈ bracketGroups text, withoutPrefix g.content = id ∧ id ≠ [] := by
  rw [citationIdsIn, bracketPattern_matchAll, List.map_map, List.mem_filter, List.mem_map,
    decide_eq_true_eq]
  constructor
  · rintro ⟨⟨g, hg, hid⟩, hne⟩
    exact ⟨g, hg, hid, hne⟩
  · rintro ⟨g, hg, hid, hne⟩
    exact ⟨⟨g, hg, hid⟩, hne⟩

theorem mem_sourceIdsInMarkdown : id ∈ sourceIdsInMarkdown text ↔
    ∃ g ∈ bracketGroups text, g.named = some id := by
  rw [sourceIdsInMarkdown, sourceIdPattern_matchAll, List.mem_filterMap]

/-- The evaluation reads what the quality check reads. -/
theorem mem_citationIds : id ∈ citationIds [text] ↔ id ∈ citationIdsIn text := by
  rw [citationIds, mem_firsts, List.flatMap_singleton, citationIdsIn]

theorem named_eq_some (h : g.named = some id) :
    g.next ≠ some 40 ∧ namedId (innermost g.content) = some id := by
  unfold BracketGroup.named at h
  split at h
  · cases h
  · exact ⟨‹_›, h⟩

/-- A content is what is cited, behind a prefix or not. -/
theorem withoutPrefix_cases (content : Text) :
    content = asciiText "source:" ++ withoutPrefix content ∨
      content = asciiText "@" ++ withoutPrefix content ∨
        withoutPrefix content = content ∧ ¬asciiText "source:" <+: content ∧
          ¬asciiText "@" <+: content := by
  unfold withoutPrefix
  by_cases hsource : (asciiText "source:").isPrefixOf content = true
  · left
    rw [if_pos hsource]
    rcases List.isPrefixOf_iff_prefix.mp hsource with ⟨id, rfl⟩
    rfl
  · right
    rw [if_neg hsource]
    by_cases hat : (asciiText "@").isPrefixOf content = true
    · left
      rw [if_pos hat]
      rcases List.isPrefixOf_iff_prefix.mp hat with ⟨id, rfl⟩
      rfl
    · right
      rw [if_neg hat]
      rw [List.isPrefixOf_iff_prefix] at hsource hat
      exact ⟨rfl, hsource, hat⟩

/-- An id behind `source:` in another case. -/
def BracketGroup.isOtherCase (g : BracketGroup) : Bool :=
  beginsWith (asciiText "source:") g.content && !(asciiText "source:").isPrefixOf g.content &&
    isCitationId (g.content.drop 7)

theorem isOtherCase_iff : g.isOtherCase = true ↔ beginsWith (asciiText "source:") g.content = true ∧
    ¬asciiText "source:" <+: g.content ∧ isCitationId (g.content.drop 7) = true := by
  rw [BracketGroup.isOtherCase, Bool.and_eq_true, Bool.and_eq_true, Bool.not_eq_true',
    ← Bool.not_eq_true, List.isPrefixOf_iff_prefix, and_assoc]

/-- A citation id that stands as it is, or behind a prefix as it is written, is named. -/
theorem named_of_isCitationId (hid : isCitationId (withoutPrefix g.content) = true)
    (hlink : g.next ≠ some 40) (hcase : g.isOtherCase = false) :
    g.named = some (withoutPrefix g.content) := by
  have hopen : 91 ∉ g.content := by
    have hmem := (notMem_of_isCitationId hid).1
    rcases withoutPrefix_cases g.content with heq | heq | ⟨heq, _⟩
    · rw [heq, List.mem_append, not_or]
      exact ⟨by decide +kernel, hmem⟩
    · rw [heq, List.mem_append, not_or]
      exact ⟨by decide +kernel, hmem⟩
    · rw [← heq]
      exact hmem
  rw [BracketGroup.named, if_neg hlink, innermost_of_notMem hopen]
  generalize hnone : withoutPrefix g.content = id at *
  have hcases := withoutPrefix_cases g.content
  rw [hnone] at hcases
  rw [← Bool.not_eq_true, isOtherCase_iff] at hcase
  generalize g.content = content at *
  rcases hcases with rfl | rfl | ⟨rfl, hsource, hat⟩
  · rw [namedId, if_pos ⟨rfl, hid⟩]
    rfl
  · have hbegins : ¬beginsWith (asciiText "source:") (asciiText "@" ++ id) = true := by
      intro hbegins
      have hhead := congrArg List.head? (of_decide_eq_true hbegins)
      cases hhead
    rw [namedId, if_neg fun hboth => hbegins hboth.1, if_pos ⟨rfl, hid⟩]
    rfl
  · rw [namedId, if_neg fun hboth => hcase ⟨hboth.1, hsource, hboth.2⟩, if_neg, if_pos hid]
    rintro ⟨hbegins, _⟩
    refine hat ?_
    cases id with
    | nil => cases hid
    | cons c id =>
      have hhead : lowerUnit c = 64 := (List.cons.inj (of_decide_eq_true hbegins)).1
      have hc : c = 64 := by
        unfold lowerUnit at hhead
        split at hhead
        · omega
        · exact hhead
      rw [hc]
      exact ⟨id, rfl⟩

/-- The id behind `source:` in another case is named, but the whole content is cited. -/
theorem named_of_isOtherCase (hlink : g.next ≠ some 40) (hcase : g.isOtherCase = true) :
    g.named = some (g.content.drop 7) := by
  rcases isOtherCase_iff.mp hcase with ⟨hbegins, _, hid⟩
  have hnamed : namedId g.content = some (g.content.drop 7) := if_pos ⟨hbegins, hid⟩
  rw [BracketGroup.named, if_neg hlink, innermost_of_notMem (namedId_eq_some hnamed).2, hnamed]

theorem isCitationId_of_named (h : g.named = some id) : isCitationId id = true :=
  (namedId_eq_some (named_eq_some h).2).1

theorem ne_nil_of_isCitationId (h : isCitationId id = true) : id ≠ [] := by
  rintro rfl
  cases h

/-! ### When the sets are the same -/

/-- What is cited is a citation id; what the validator does not read as it is cited it reads
    elsewhere, and what it reads otherwise is cited elsewhere. -/
structure OneReading (groups : List BracketGroup) : Prop where
  ids : ∀ g ∈ groups, withoutPrefix g.content ≠ [] → isCitationId (withoutPrefix g.content) = true
  links : ∀ g ∈ groups, withoutPrefix g.content ≠ [] → g.next = some 40 ∨ g.isOtherCase = true →
    ∃ g' ∈ groups, g'.named = some (withoutPrefix g.content)
  otherCase : ∀ g ∈ groups, g.next ≠ some 40 → g.isOtherCase = true →
    ∃ g' ∈ groups, withoutPrefix g'.content = g.content.drop 7
  bare : ∀ g ∈ groups, g.next ≠ some 40 → g.content = asciiText "source:" →
    ∃ g' ∈ groups, withoutPrefix g'.content = asciiText "source:"

/-- The sets are the same if the brackets have one reading. -/
theorem OneReading.same (h : OneReading (bracketGroups text)) (id : Text) :
    id ∈ citationIdsIn text ↔ id ∈ sourceIdsInMarkdown text := by
  rw [mem_citationIdsIn, mem_sourceIdsInMarkdown]
  constructor
  · rintro ⟨g, hg, rfl, hne⟩
    by_cases hother : g.next = some 40 ∨ g.isOtherCase = true
    · exact h.links g hg hne hother
    · rw [not_or, Bool.not_eq_true] at hother
      exact ⟨g, hg, named_of_isCitationId (h.ids g hg hne) hother.1 hother.2⟩
  · rintro ⟨g, hg, hnamed⟩
    have hne := ne_nil_of_isCitationId (isCitationId_of_named hnamed)
    rcases named_eq_some hnamed with ⟨hlink, hinner⟩
    by_cases hnil : withoutPrefix g.content = []
    · -- only the bare prefix names something
      have hbare : g.content = asciiText "source:" ∧ id = asciiText "source:" := by
        rcases withoutPrefix_cases g.content with heq | heq | ⟨heq, _⟩
        · rw [hnil, List.append_nil] at heq
          refine ⟨heq, ?_⟩
          rw [heq] at hinner
          exact Option.some.inj (hinner.symm.trans (by decide +kernel))
        · rw [hnil, List.append_nil] at heq
          have hnone : namedId (innermost (asciiText "@")) = none := by decide +kernel
          rw [heq, hnone] at hinner
          cases hinner
        · rw [← heq, hnil] at hinner
          cases hinner
      rcases h.bare g hg hlink hbare.1 with ⟨g', hg', hcites⟩
      exact ⟨g', hg', hcites.trans hbare.2.symm, hne⟩
    · cases hcase : g.isOtherCase with
      | true =>
        rw [named_of_isOtherCase hlink hcase, Option.some.injEq] at hnamed
        rcases h.otherCase g hg hlink hcase with ⟨g', hg', hcites⟩
        exact ⟨g', hg', hcites.trans hnamed, hne⟩
      | false =>
        rw [named_of_isCitationId (h.ids g hg hnil) hlink hcase, Option.some.injEq] at hnamed
        exact ⟨g, hg, hnamed, hne⟩

/-- Where the sets are the same, the brackets have one reading. -/
theorem oneReading_of_same (h : ∀ id, id ∈ citationIdsIn text ↔ id ∈ sourceIdsInMarkdown text) :
    OneReading (bracketGroups text) := by
  have hnames (g : BracketGroup) (hg : g ∈ bracketGroups text) (hne : withoutPrefix g.content ≠ []) :
      ∃ g' ∈ bracketGroups text, g'.named = some (withoutPrefix g.content) :=
    mem_sourceIdsInMarkdown.mp ((h _).mp (mem_citationIdsIn.mpr ⟨g, hg, rfl, hne⟩))
  have hcites {g : BracketGroup} {id : Text} (hg : g ∈ bracketGroups text)
      (hnamed : g.named = some id) : ∃ g' ∈ bracketGroups text, withoutPrefix g'.content = id := by
    rcases mem_citationIdsIn.mp ((h id).mpr (mem_sourceIdsInMarkdown.mpr ⟨g, hg, hnamed⟩)) with
      ⟨g', hg', hid, _⟩
    exact ⟨g', hg', hid⟩
  refine ⟨fun g hg hne => ?_, fun g hg hne _ => hnames g hg hne, fun g hg hlink hcase => ?_,
    fun g hg hlink hbare => ?_⟩
  · rcases hnames g hg hne with ⟨g', _, hnamed⟩
    exact isCitationId_of_named hnamed
  · exact hcites hg (named_of_isOtherCase hlink hcase)
  · refine hcites hg ?_
    rw [BracketGroup.named, if_neg hlink, hbare]
    decide +kernel

/-! ### Drafts -/

/-- An issue of citations that are all different is about an id that is malformed or unknown. -/
theorem of_mem_citationIdIssues {known seen values : List Text} {index : ℕ}
    (hnodup : values.Nodup) (hseen : ∀ value ∈ values, value ∉ seen) {issue : CitationIdIssue}
    (h : issue ∈ citationIdIssuesFrom known seen index values) :
    isCitationId issue.citationId = false ∨ issue.citationId ∉ known := by
  induction values generalizing seen index with
  | nil => cases h
  | cons value values ih =>
    rw [List.nodup_cons] at hnodup
    rw [List.forall_mem_cons] at hseen
    unfold citationIdIssuesFrom at h
    split at h
    · rename_i hmalformed
      rcases List.mem_cons.mp h with rfl | h
      · exact Or.inl ((Bool.not_eq_true _).mp hmalformed)
      · exact ih hnodup.2 hseen.2 h
    · rw [if_neg hseen.1, List.nil_append] at h
      rcases List.mem_append.mp h with h | h
      · split at h
        · rename_i hunknown
          rw [List.mem_singleton.mp h]
          exact Or.inr hunknown
        · cases h
      · refine ih hnodup.2 (fun other hother => ?_) h
        rw [List.mem_cons, not_or]
        refine ⟨?_, hseen.2 other hother⟩
        rintro rfl
        exact hnodup.1 hother

/-- No citation is invalid that is a citation id of a source. -/
theorem notMem_invalidCitations {rows : QaRows} (hid : isCitationId id = true)
    (hknown : id ∈ rows.sources.map (·.id)) {finding : QaFinding}
    (hfinding : finding ∈ invalidCitations rows.context) :
    ("citationId", QaMetadataValue.string id) ∉ finding.metadata := by
  rcases List.mem_map.mp hfinding with ⟨issue, hissue, rfl⟩
  have hsources : rows.context.sources.map (·.id) = rows.sources.map (·.id) := by
    rw [QaRows.context, List.map_map]
    rfl
  rw [hsources] at hissue
  have hreason := of_mem_citationIdIssues (nodup_firsts _) (fun _ _ => List.not_mem_nil) hissue
  intro hmem
  have hsame : id = issue.citationId := by
    simp only [qaFinding, List.mem_cons, Prod.mk.injEq, QaMetadataValue.string.injEq, true_and,
      List.not_mem_nil, or_false] at hmem
    rcases hmem with hmem | ⟨hkey, _⟩ | ⟨hkey, _⟩
    · exact hmem
    · exact absurd hkey (by decide)
    · exact absurd hkey (by decide)
  rw [← hsame] at hreason
  rcases hreason with hmalformed | hunknown
  · rw [hid] at hmalformed
    cases hmalformed
  · exact hunknown hknown

/-- The three parsers read the same ids from a text, and a draft with this text that the validator
    accepted cites sources on the allowlist only: none of its citations is reported. -/
structure OneGrammar (text : Text) : Prop where
  validator : ∀ id, id ∈ citationIdsIn text ↔ id ∈ sourceIdsInMarkdown text
  evaluation : ∀ id, id ∈ citationIds [text] ↔ id ∈ citationIdsIn text
  allowed : ∀ value draft bundle, parseDraft value = .ok draft → draft.markdown = text →
    validateDraftReferences bundle draft = .ok () →
      ∀ id ∈ citationIdsIn text, id ∈ bundle.eligibleSources.map (·.id)
  unreported : ∀ value draft bundle, parseDraft value = .ok draft → draft.markdown = text →
    validateDraftReferences bundle draft = .ok () → ∀ (db : ReportDb) (projectId i : ℕ) d,
      currentDeliverable (commitDraftSuggestion db projectId bundle draft) projectId = some (i, d) →
        ∀ rows : QaRows, rows.sections = d.sections →
          (∀ source ∈ bundle.eligibleSources, source.id ∈ rows.sources.map (·.id)) →
            ∀ finding ∈ invalidCitations rows.context, ∀ id ∈ citationIdsIn text,
              ("citationId", QaMetadataValue.string id) ∉ finding.metadata

/-- **When there is one grammar**: exactly if the brackets of the text have one reading. -/
theorem one_grammar_iff (text : Text) : OneGrammar text ↔ OneReading (bracketGroups text) := by
  refine ⟨fun h => oneReading_of_same h.validator, fun h => ?_⟩
  have hallowed (bundle : Contracts.ResearchOrchestrationBundle) (draft : Draft)
      (htext : draft.markdown = text) (hok : validateDraftReferences bundle draft = .ok ()) :
      ∀ id ∈ citationIdsIn text, id ∈ bundle.eligibleSources.map (·.id) := by
    intro id hid
    rw [h.same, ← htext] at hid
    simp only [validateDraftReferences, ensure_eq_ok, List.filter_eq_nil_iff, mem_firsts,
      decide_eq_true_eq, not_not] at hok
    exact hok id (List.mem_append_left _ hid)
  refine ⟨h.same, fun id => mem_citationIds, fun value draft bundle _ => hallowed bundle draft, ?_⟩
  intro value draft bundle _ htext hok db projectId i d _ rows _ hrows finding hfinding id hid
  refine notMem_invalidCitations ?_ ?_ hfinding
  · rcases mem_sourceIdsInMarkdown.mp ((h.same id).mp hid) with ⟨g, _, hnamed⟩
    exact isCitationId_of_named hnamed
  · rcases List.mem_map.mp (hallowed bundle draft htext hok id hid) with ⟨source, hsource, rfl⟩
    exact hrows source hsource

/-- **The text of a link is cited**, but the validator does not read it. -/
theorem link_is_cited : ¬∀ text, OneGrammar text := by
  intro hall
  have hsame := (hall (asciiText "[report](https://example.org)")).validator (asciiText "report")
  have hcited : asciiText "report" ∈ citationIdsIn (asciiText "[report](https://example.org)") := by
    decide +kernel
  have hread : asciiText "report" ∉
      sourceIdsInMarkdown (asciiText "[report](https://example.org)") := by
    decide +kernel
  exact hread (hsame.mp hcited)

end ResearchWorkbench.Qa
