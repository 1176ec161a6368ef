import ResearchWorkbench.Quality.CitationGrammar
import ResearchWorkbench.Quality.Numbers
import ResearchWorkbench.Quality.RowOrder

namespace ResearchWorkbench.Qa

/-!
# The gate for numbers

A report passes without a blocker only if its numbers are those of verified evidence.  The check
takes brackets out of a sentence and drops a digit that follows a letter; where neither changes a
number, the number is found in the evidence as it stands.

* `NoBlocker`, `brackets_cite` — without a blocker all brackets cite sources;
* `IsCited`, `Backs`, `IsSentenceOf` — numbers in citations, evidence behind a sentence;
* `sentence_backed` — a number of a sentence without its brackets;
* `numeric_gate` — a number of a section;
* `joined_number_passes` — a number that follows a letter.
-/

open Reports

variable {rows : QaRows} {findings : List QaFinding} {text p q run n sentence : Text}

/-! ### Without a blocker -/

/-- No finding is a `BLOCKER`. -/
def NoBlocker (findings : List QaFinding) : Prop := ∀ f ∈ findings, f.severity ≠ .blocker

/-- What is found about citations and about numbers is among the findings. -/
theorem mem_findings (hok : runQaRules rows.context = .ok findings) :
    (∀ f ∈ invalidCitations rows.context, f ∈ findings) ∧
      ∀ a ∈ rows.reportAssertions, ∀ f ∈ assertionFindings rows.context a, f ∈ findings := by
  simp only [runQaRules, bind_eq_ok, pure_eq_ok] at hok
  rcases hok with ⟨claims, _, freshness, _, rfl⟩
  refine ⟨fun f hf => ?_, fun a ha f hf => ?_⟩
  · simp only [List.mem_append]
    tauto
  · have hmem : f ∈ rows.context.report.quantitativeAssertions.flatMap
        (assertionFindings rows.context) :=
      List.mem_flatMap.mpr ⟨a, List.mem_append_right _ ha, hf⟩
    simp only [List.mem_append]
    tauto

/-- A citation that is no id of a source is an issue. -/
theorem citationIdIssues_ne_nil {known seen values : List Text} {index : ℕ} {id : Text}
    (hid : id ∈ values) (hbad : isCitationId id = false ∨ id ∉ known) :
    citationIdIssuesFrom known seen index values ≠ [] := by
  induction values generalizing seen index with
  | nil => cases hid
  | cons value values ih =>
    unfold citationIdIssuesFrom
    split
    · exact List.cons_ne_nil _ _
    · rename_i hwell
      rcases List.mem_cons.mp hid with rfl | hid
      · have hunknown : id ∉ known := by
          refine hbad.resolve_left fun hmalformed => hwell ?_
          rw [hmalformed]
          exact Bool.false_ne_true
        rw [if_pos hunknown]
        exact List.append_ne_nil_of_left_ne_nil
          (List.append_ne_nil_of_right_ne_nil _ (List.cons_ne_nil _ _)) _
      · exact List.append_ne_nil_of_right_ne_nil _ (ih hid)

/-- Without a blocker, what a section cites are ids of sources. -/
theorem cites_of_noBlocker (hok : runQaRules rows.context = .ok findings)
    (hnone : NoBlocker findings) {key : ReportSectionKey} {id : Text}
    (hid : id ∈ citationIdsIn (sectionText rows.sections key)) :
    isCitationId id = true ∧ id ∈ rows.sources.map (·.id) := by
  by_contra hbad
  rw [not_and_or, Bool.not_eq_true] at hbad
  have hunique : id ∈ uniqueCitations rows.sections := by
    rw [uniqueCitations, mem_firsts, List.mem_flatMap]
    have hkey : key ∈ storedSectionOrder := by cases key <;> decide
    cases hstored : rows.sections key with
    | none =>
      rw [sectionText, hstored] at hid
      have hempty : citationIdsIn [] = [] := by decide +kernel
      rw [Option.getD_none, hempty] at hid
      cases hid
    | some text =>
      rw [sectionText, hstored] at hid
      exact ⟨text, List.mem_filterMap.mpr ⟨key, hkey, hstored⟩, hid⟩
  have hsources : rows.context.sources.map (·.id) = rows.sources.map (·.id) := by
    rw [QaRows.context, List.map_map]
    rfl
  rw [← hsources] at hbad
  rcases List.exists_mem_of_ne_nil _ (@citationIdIssues_ne_nil _ [] _ 0 _ hunique hbad) with
    ⟨issue, hissue⟩
  exact hnone _ ((mem_findings hok).1 _ (List.mem_map_of_mem hissue)) rfl

/-- Without a blocker, a bracket that takes in something is a citation id of a source. -/
theorem brackets_cite (hok : runQaRules rows.context = .ok findings) (hnone : NoBlocker findings)
    {key : ReportSectionKey} {g : BracketGroup}
    (hg : g ∈ bracketGroups (sectionText rows.sections key)) : withoutPrefix g.content = [] ∨
      isCitationId (withoutPrefix g.content) = true ∧
        withoutPrefix g.content ∈ rows.sources.map (·.id) := by
  rw [or_iff_not_imp_left]
  intro hne
  exact cites_of_noBlocker hok hnone (mem_citationIdsIn.mpr ⟨g, hg, rfl, hne⟩)

/-- What is in a content and in no prefix is in what is cited. -/
theorem mem_withoutPrefix {content : Text} {c : ℕ} (hc : c ∈ content)
    (hfront : c ∉ asciiText "source:" ∧ c ∉ asciiText "@") : c ∈ withoutPrefix content := by
  rcases withoutPrefix_cases content with heq | heq | ⟨heq, _⟩
  · rw [heq] at hc
    exact (List.mem_append.mp hc).resolve_left hfront.1
  · rw [heq] at hc
    exact (List.mem_append.mp hc).resolve_left hfront.2
  · rw [heq]
    exact hc

/-- White space is in no prefix, and in no citation id. -/
theorem space_notMem {c : ℕ} (hc : isSpaceUnit c = true) : (c ∉ asciiText "source:" ∧
    c ∉ asciiText "@") ∧ isCitationUnit c = false ∧ c ≠ 91 ∧ c ≠ 93 := by
  have hall : ∀ d ∈ asciiText "source:" ++ asciiText "@" ++ [91, 93], isSpaceUnit d = false := by
    decide +kernel
  have hne {d : ℕ} (hd : d ∈ asciiText "source:" ++ asciiText "@" ++ [91, 93]) : c ≠ d := by
    rintro rfl
    rw [hall c hd] at hc
    cases hc
  refine ⟨⟨fun hmem => hne ?_ rfl, fun hmem => hne ?_ rfl⟩, ?_, hne (by simp [asciiText]),
    hne (by simp [asciiText])⟩
  · exact List.mem_append_left _ (List.mem_append_left _ hmem)
  · exact List.mem_append_left _ (List.mem_append_right _ hmem)
  · simp only [isSpaceUnit, Bool.or_eq_true, Bool.and_eq_true, decide_eq_true_eq] at hc
    simp only [isCitationUnit, isAlphanumericUnit, Bool.or_eq_false_iff, Bool.and_eq_false_iff,
      decide_eq_false_iff_not]
    omega

/-- Without a blocker no bracket has white space in it. -/
theorem brackets_tight (hok : runQaRules rows.context = .ok findings) (hnone : NoBlocker findings)
    {key : ReportSectionKey} {g : BracketGroup}
    (hg : g ∈ bracketGroups (sectionText rows.sections key)) {c : ℕ} (hc : c ∈ g.content) :
    isSpaceUnit c = false := by
  rw [← Bool.not_eq_true]
  intro hspace
  rcases space_notMem hspace with ⟨hfront, hunit, _⟩
  have hmem := mem_withoutPrefix hc hfront
  rcases brackets_cite hok hnone hg with hnil | ⟨hid, _⟩
  · rw [hnil] at hmem
    exact List.not_mem_nil hmem
  · rw [isCitationUnit_of_mem hid hmem] at hunit
    cases hunit

/-! ### Numbers and evidence -/

/-- A run stands in a bracket that cites one of the sources. -/
def IsCited (known : List Text) (p run q : Text) : Prop :=
  ∃ content c rest, openBracket none p = some content ∧ q = c ++ 93 :: rest ∧ 93 ∉ c ∧
    withoutPrefix (content ++ run ++ c) ∈ known

/-- Current verified evidence that a sentence cites, or that supports a matching claim. -/
def Backs (rows : QaRows) (sentence : Text) (e : EvidenceRow) : Prop :=
  e ∈ rows.evidence ∧ e.isCurrent = true ∧ e.verificationStatus = .verified ∧
    (e.sourceId ∈ citationIdsIn sentence ∨ ∃ claim ∈ rows.matchingClaims sentence,
      ∃ link ∈ rows.links, link.claimId = claim.id ∧ link.relationship = .supports ∧
        link.evidenceId = e.id)

/-- A sentence of a text around a run. -/
def IsSentenceOf (p run q sentence : Text) : Prop :=
  sentence ∈ sentences (p ++ (run ++ q)) ∧
    ∃ p₁ q₁, sentence = p₁ ++ (run ++ q₁) ∧ p₁ <:+ p ∧ q₁ <+: q

/-- **A number of a sentence without its brackets** is one of the evidence. -/
theorem sentence_backed (hok : runQaRules rows.context = .ok findings) (hnone : NoBlocker findings)
    {key : ReportSectionKey} (hkey : key ∈ quantitativeReportSections)
    (hsentence : sentence ∈ sentences (sectionText rows.sections key))
    (hn : n ∈ numberTokens (withoutBrackets sentence)) :
    ∃ e ∈ rows.sentenceSupport sentence, ∃ t ∈ rows.evidenceTexts e, n ∈ numberTokens t := by
  have hnumeric : sentence ∈ rows.numericSentences key := by
    rw [QaRows.numericSentences, List.mem_filter, decide_eq_true_eq]
    exact ⟨hsentence, List.ne_nil_of_mem hn⟩
  rcases List.getElem_of_mem hnumeric with ⟨index, hindex, rfl⟩
  let supporting := rows.sentenceSupport (rows.numericSentences key)[index]
  let assertion := rows.assertion (asciiText (sectionName key) ++ 45 :: numeralText 10 index)
    (asciiText "report:section:" ++ asciiText (sectionName key)) (rows.numericSentences key)[index]
    (withoutBrackets (rows.numericSentences key)[index]) supporting
  have hassertion : assertion ∈ rows.reportAssertions :=
    List.mem_flatMap.mpr ⟨key, hkey, List.mem_mapIdx.mpr ⟨index, hindex, rfl⟩⟩
  have hfindings := (mem_findings hok).2 assertion hassertion
  -- none of the two findings about numbers is made
  have hverified : hasVerifiedEvidence rows.context assertion = true := by
    by_contra hunverified
    rw [assertionFindings, if_pos hunverified] at hfindings
    exact hnone _ (hfindings _ (List.mem_append_left _ (List.mem_append_left _
      (List.mem_singleton.mpr rfl)))) rfl
  have hvalue : assertion.valueMatchesSource ≠ some false := by
    intro hmismatch
    rw [assertionFindings, if_pos hmismatch] at hfindings
    exact hnone _ (hfindings _ (List.mem_append_right _ (List.mem_singleton.mpr rfl))) rfl
  have hne : supporting ≠ [] := by
    intro hnil
    have hid : assertion.evidenceId = none := by
      show supporting.head?.map _ = none
      rw [hnil]
      rfl
    rw [hasVerifiedEvidence, hid] at hverified
    cases hverified
  have hall : (numberTokens (withoutBrackets (rows.numericSentences key)[index])).all
      (fun number => decide (number ∈ numberTokens (rows.sourceText supporting))) = true := by
    by_contra hmismatch
    refine hvalue ?_
    show (if supporting = [] then none else some _) = _
    rw [if_neg hne, (Bool.not_eq_true _).mp hmismatch]
  exact mem_numberTokens_sourceText.mp (of_decide_eq_true (List.all_eq_true.mp hall n hn))

/-! ### Sections and sentences -/

/-- A run with a number in it is not empty. -/
theorem run_ne_nil (hn : n ∈ numbersOf run) : run ≠ [] := by
  rintro rfl
  rw [numbersOf, Pattern.matchAll_eq_capturesFrom,
    Pattern.capturesFrom_nil decimalPattern_consumes] at hn
  cases hn

/-- No bracket and no white space is in a run. -/
theorem notMem_run (hrun : IsRun p run q) :
    91 ∉ run ∧ 93 ∉ run ∧ ∀ c ∈ run, isSpaceUnit c = false := by
  refine ⟨fun hmem => absurd (hrun.units 91 hmem) (by decide),
    fun hmem => absurd (hrun.units 93 hmem) (by decide), fun c hc => ?_⟩
  have hc' := hrun.units c hc
  simp only [isNumeralUnit, isDigitUnit, Bool.or_eq_true, Bool.and_eq_true, decide_eq_true_eq] at hc'
  simp only [isSpaceUnit, Bool.or_eq_false_iff, Bool.and_eq_false_iff, decide_eq_false_iff_not]
  omega

/-- No bracket is opened or closed in a run. -/
theorem openBracket_run (hrun : IsRun p run q) : openBracket none run = none := by
  have hopen := (notMem_run hrun).1
  clear hrun
  induction run with
  | nil => rfl
  | cons c run ih =>
    rw [List.mem_cons, not_or] at hopen
    rw [openBracket, if_neg (Ne.symm hopen.1)]
    exact ih hopen.2

/-- What is read last before white space is the white space. -/
theorem mem_of_openBracket {state : Option Text} {content : Text} {c : ℕ}
    (h : openBracket state (p ++ [c]) = some content) (hc : c ≠ 91) : c ∈ content := by
  rw [openBracket_append] at h
  cases hstate : openBracket state p with
  | none =>
    rw [hstate, openBracket, if_neg hc] at h
    cases h
  | some content' =>
    rw [hstate, openBracket] at h
    split at h
    · cases h
    · rw [openBracket, Option.some.injEq] at h
      rw [← h]
      exact List.mem_append_right _ (List.mem_singleton.mpr rfl)

section

variable (hok : runQaRules rows.context = .ok findings) (hnone : NoBlocker findings)
  {key : ReportSectionKey}
include hok hnone

/-- Without a blocker, a run that no bracket cites stands outside of all brackets. -/
theorem outside_of_noBlocker (htext : sectionText rows.sections key = p ++ (run ++ q))
    (hrun : IsRun p run q) (hne : run ≠ []) (hcited : ¬IsCited (rows.sources.map (·.id)) p run q) :
    openBracket none p = none ∨ 93 ∉ q := by
  by_contra hinside
  rw [not_or, not_not] at hinside
  rcases Option.ne_none_iff_exists'.mp hinside.1 with ⟨content, hcontent⟩
  rcases List.eq_append_cons_of_mem hinside.2 with ⟨c, rest, rfl, hc⟩
  have hclosed : 93 ∉ run ++ c := by
    rw [List.mem_append, not_or]
    exact ⟨(notMem_run hrun).2.1, hc⟩
  have hgroup := @mem_bracketGroupsFrom p (run ++ c) rest content none hcontent hclosed
    (List.append_ne_nil_of_right_ne_nil _ (List.append_ne_nil_of_left_ne_nil hne _))
  rw [List.append_assoc, ← htext] at hgroup
  rcases brackets_cite hok hnone hgroup with hnil | ⟨_, hknown⟩
  · -- the run is not part of a prefix
    rcases List.exists_mem_of_ne_nil _ hne with ⟨d, hd⟩
    have hd' : d ∉ asciiText "source:" ∧ d ∉ asciiText "@" := by
      have hall : ∀ e ∈ asciiText "source:" ++ asciiText "@", isNumeralUnit e = false := by
        decide +kernel
      have hunit := hrun.units d hd
      rw [← not_or, ← List.mem_append]
      intro hmem
      rw [hall d hmem] at hunit
      cases hunit
    have hmem := mem_withoutPrefix (List.mem_append_right content (List.mem_append_left c hd)) hd'
    rw [hnil] at hmem
    cases hmem
  · refine hcited ⟨content, c, rest, hcontent, rfl, hc, ?_⟩
    rw [List.append_assoc]
    exact hknown

/-- Without a blocker, brackets do not reach over white space. -/
theorem parted_of_noBlocker {u v : Text} (htext : sectionText rows.sections key = u ++ v)
    (hspace : ∀ content c rest, openBracket none u = some content → v = c ++ 93 :: rest → 93 ∉ c →
      ∃ d ∈ content ++ c, isSpaceUnit d = true) : openBracket none u = none ∨ 93 ∉ v := by
  by_contra hinside
  rw [not_or, not_not] at hinside
  rcases Option.ne_none_iff_exists'.mp hinside.1 with ⟨content, hcontent⟩
  rcases List.eq_append_cons_of_mem hinside.2 with ⟨c, rest, rfl, hc⟩
  rcases hspace content c rest hcontent rfl hc with ⟨d, hd, hdspace⟩
  have hgroup := @mem_bracketGroupsFrom u c rest content none hcontent hc (List.ne_nil_of_mem hd)
  rw [← htext] at hgroup
  rw [brackets_tight hok hnone hgroup hd] at hdspace
  cases hdspace

/-- White space before a place. -/
theorem parted_of_last {u v : Text} (htext : sectionText rows.sections key = u ++ v)
    (hlast : ∀ c ∈ u.getLast?, isSpaceUnit c = true) : openBracket none u = none ∨ 93 ∉ v := by
  refine parted_of_noBlocker hok hnone htext fun content c rest hcontent _ _ => ?_
  rcases List.eq_nil_or_concat u with rfl | ⟨u, d, rfl⟩
  · cases hcontent
  · rw [List.concat_eq_append] at hcontent hlast
    have hd := hlast d (by rw [List.getLast?_concat]; rfl)
    exact ⟨d, List.mem_append_left _ (mem_of_openBracket hcontent (space_notMem hd).2.2.1), hd⟩

/-- White space behind a place. -/
theorem parted_of_first {u v : Text} (htext : sectionText rows.sections key = u ++ v)
    (hfirst : ∀ c ∈ v.head?, isSpaceUnit c = true) : openBracket none u = none ∨ 93 ∉ v := by
  refine parted_of_noBlocker hok hnone htext fun content c rest _ hv hc => ?_
  cases c with
  | nil =>
    have hbad := hfirst 93 (by rw [hv]; rfl)
    exact absurd rfl (space_notMem hbad).2.2.2
  | cons d c =>
    exact ⟨d, List.mem_append_right _ List.mem_cons_self, hfirst d (by rw [hv]; rfl)⟩

/-- Without a blocker, a number that brackets do not touch stands in a sentence without its
    brackets. -/
theorem exists_sentence_of_run (htext : sectionText rows.sections key = p ++ (run ++ q))
    (hrun : IsRun p run q) (hn : n ∈ numbersOf run)
    (hcited : ¬IsCited (rows.sources.map (·.id)) p run q)
    (hleft : ∀ c ∈ (withoutBrackets p).getLast?, isLetterUnit c = false ∧ isNumeralUnit c = false)
    (hright : ∀ c ∈ (withoutBrackets q).head?, isNumeralUnit c = false) :
    ∃ sentence, IsSentenceOf p run q sentence ∧ n ∈ numberTokens (withoutBrackets sentence) := by
  have hne := run_ne_nil hn
  rcases notMem_run hrun with ⟨hopen, _, hspace⟩
  have houtside := outside_of_noBlocker hok hnone htext hrun hne hcited
  rcases @exists_sentence p q run hne hspace with
    ⟨p₀, p₁, q₁, q₀, rfl, rfl, hsentence, hlast, hfirst⟩
  refine ⟨p₁ ++ (run ++ q₁), ⟨?_, p₁, q₁, rfl, List.suffix_append _ _, List.prefix_append _ _⟩, ?_⟩
  · rw [← List.append_assoc p₁]
    exact hsentence
  -- the brackets of the section are those of the sentence
  have hp : withoutBrackets (p₀ ++ p₁) = withoutBrackets p₀ ++ withoutBrackets p₁ := by
    refine withoutBrackets_append ?_
    rw [List.append_assoc] at htext
    refine (parted_of_last hok hnone htext hlast).imp_right fun hclose hmem => hclose ?_
    exact List.mem_append_left _ hmem
  have hq : withoutBrackets (q₁ ++ q₀) = withoutBrackets q₁ ++ withoutBrackets q₀ := by
    refine withoutBrackets_append ?_
    rw [← List.append_assoc run, ← List.append_assoc (p₀ ++ p₁)] at htext
    refine (parted_of_first hok hnone htext hfirst).imp_left fun hnone => ?_
    rw [openBracket_append] at hnone
    have hrunq := openBracket_eq_none hnone
    rw [openBracket_append, openBracket_run hrun] at hrunq
    exact hrunq
  have hsplit : withoutBrackets (p₁ ++ (run ++ q₁)) =
      withoutBrackets p₁ ++ (run ++ withoutBrackets q₁) := by
    rw [withoutBrackets_append, withoutBrackets_eq (run ++ q₁), outsideFrom_none hopen,
      ← withoutBrackets_eq]
    rcases houtside with hclosed | hclose
    · rw [openBracket_append] at hclosed
      exact Or.inl (openBracket_eq_none hclosed)
    · refine Or.inr fun hmem => ?_
      rcases List.mem_append.mp hmem with hmem | hmem
      · exact (notMem_run hrun).2.1 hmem
      · exact hclose (List.mem_append_left _ hmem)
  have hleft' : ∀ c ∈ (withoutBrackets p₁).getLast?,
      isLetterUnit c = false ∧ isNumeralUnit c = false := by
    intro c hc
    refine hleft c ?_
    rw [hp, List.getLast?_append, show (withoutBrackets p₁).getLast? = some c from hc]
    rfl
  rw [hsplit]
  refine mem_numberTokens_of_run ⟨hrun.units, fun c hc => (hleft' c hc).2, fun c hc => ?_⟩ hn
    fun c hc => (hleft' c hc).1
  refine hright c ?_
  rw [hq, List.head?_append, show (withoutBrackets q₁).head? = some c from hc]
  rfl

end

/-! ### The gate -/

/-- The evidence of a project that is read is current. -/
theorem isCurrent_of_build {db : QaDb} {projectId deliverableId : ℕ}
    (hbuild : buildQaContext db projectId = .ok (rows, deliverableId)) :
    ∀ e ∈ rows.evidence, e.isCurrent = true := by
  simp only [buildQaContext, bind_eq_ok, require_eq_ok, pure_eq_ok] at hbuild
  rcases hbuild with ⟨project, _, deliverable, _, heq⟩
  cases heq
  intro e he
  have hmem := (List.mem_filter.mp he).2
  rw [Bool.and_eq_true] at hmem
  exact hmem.1

/-- **The gate for numbers.**  Without a blocker, a number outside of citations that follows no
    letter, and that no digits or points behind a bracket belong to, is one of current verified
    evidence, or of the date of its source. -/
theorem numeric_gate {db : QaDb} {projectId deliverableId : ℕ}
    (hbuild : buildQaContext db projectId = .ok (rows, deliverableId))
    (hok : runQaRules rows.context = .ok findings) (hnone : NoBlocker findings)
    {key : ReportSectionKey} (hkey : key ∈ quantitativeReportSections)
    (htext : sectionText rows.sections key = p ++ (run ++ q)) (hrun : IsRun p run q)
    (hn : n ∈ numbersOf run) (hcited : ¬IsCited (rows.sources.map (·.id)) p run q)
    (hleft : ∀ c ∈ (withoutBrackets p).getLast?, isLetterUnit c = false ∧ isNumeralUnit c = false)
    (hright : ∀ c ∈ (withoutBrackets q).head?, isNumeralUnit c = false) :
    ∃ sentence, IsSentenceOf p run q sentence ∧ ∃ e, Backs rows sentence e ∧
      ∃ t ∈ rows.evidenceTexts e, n ∈ numberTokens t ∧
        (hasJoinedDigit none t = false → n ∈ numbersOf t) := by
  rcases exists_sentence_of_run hok hnone htext hrun hn hcited hleft hright with
    ⟨sentence, hsentence, hmem⟩
  have hin : sentence ∈ sentences (sectionText rows.sections key) := by
    rw [htext]
    exact hsentence.1
  rcases sentence_backed hok hnone hkey hin hmem with ⟨e, he, t, ht, hnt⟩
  rcases mem_sentenceSupport.mp he with ⟨hevidence, hverified, hreason⟩
  refine ⟨sentence, hsentence, e,
    ⟨hevidence, isCurrent_of_build hbuild e hevidence, hverified, hreason⟩, t, ht, hnt, ?_⟩
  intro hjoined
  rw [← numberTokens_eq hjoined]
  exact hnt

/-! ### Examples -/

/-- A report with a summary, the other sections having a text without numbers. -/
def exampleSummary (summary : Text) : StoredSections
  | .executiveSummary => some summary
  | _ => some (asciiText "Text.")

/-- A project with this report and some evidence of one source. -/
def exampleNumbers (summary : Text) (evidence : List EvidenceRow) : QaDb where
  projects := [⟨asciiText "2026-01-01", 365⟩]
  sources :=
    [{ id := asciiText "s"
       projectId := 0
       title := asciiText "Report"
       publisher := none
       publishedAt := none
       contentHash := none
       duplicateOfSourceId := none }]
  evidence
  claims := []
  links := []
  questions := []
  reports :=
    { now := 0
      projects := 1
      deliverables := [⟨0, 1, asciiText "Report", exampleSummary summary, none⟩]
      revisions := [] }
  qaFindings := []
  nextFindingId := 0

/-- **A number that follows a letter passes** without any evidence. -/
theorem joined_number_passes : ¬∀ (db : QaDb) (projectId deliverableId : ℕ) (rows : QaRows)
    (findings : List QaFinding), buildQaContext db projectId = .ok (rows, deliverableId) →
      runQaRules rows.context = .ok findings → NoBlocker findings →
        ∀ key ∈ quantitativeReportSections, ∀ p run q,
          sectionText rows.sections key = p ++ (run ++ q) → IsRun p run q →
            ∀ n ∈ numbersOf run, ¬IsCited (rows.sources.map (·.id)) p run q →
              ∃ sentence, IsSentenceOf p run q sentence ∧ ∃ e, Backs rows sentence e ∧
                ∃ t ∈ e.summary :: e.minimalQuote.toList, n ∈ numbersOf t := by
  intro hall
  have hrun : ∃ built ∈ (buildQaContext (exampleNumbers (asciiText "USD5") []) 0).toOption,
      sectionText built.1.sections .executiveSummary = asciiText "USD5" ∧ built.1.evidence = [] ∧
        ∃ findings ∈ (runQaRules built.1.context).toOption,
          ∀ f ∈ findings, f.severity ≠ .blocker := by
    decide +kernel
  rcases hrun with ⟨⟨rows, deliverableId⟩, hbuild, htext, hevidence, findings, hok, hnone⟩
  have hisRun : IsRun (asciiText "USD") (asciiText "5") [] :=
    ⟨by decide +kernel, by decide +kernel, by decide +kernel⟩
  have hcited : ¬IsCited (rows.sources.map (·.id)) (asciiText "USD") (asciiText "5") [] := by
    rintro ⟨content, c, rest, hopen, -⟩
    have hnothing : openBracket none (asciiText "USD") = none := by decide +kernel
    rw [hnothing] at hopen
    cases hopen
  rcases hall _ _ _ rows findings (toOption_eq_some.mp hbuild) (toOption_eq_some.mp hok) hnone
    .executiveSummary (by decide) _ _ [] htext hisRun (asciiText "5") (by decide +kernel) hcited with
    ⟨sentence, _, e, hbacks, _⟩
  have hmem : e ∈ rows.evidence := hbacks.1
  rw [show rows.evidence = [] from hevidence] at hmem
  cases hmem

/-- Evidence of the source. -/
def exampleFigure : EvidenceRow where
  id := asciiText "e"
  sourceId := asciiText "s"
  verificationStatus := .verified
  supportExtent := .full
  minimalQuote := none
  summary := asciiText "It sold 5 units."
  isCurrent := true

theorem exampleNumbers_gate : ∃ built ∈
    (buildQaContext (exampleNumbers (asciiText "They sold 5 [s].") [exampleFigure]) 0).toOption,
      ∃ sentence, IsSentenceOf (asciiText "They sold ") (asciiText "5") (asciiText " [s].") sentence ∧
        ∃ e, Backs built.1 sentence e ∧ ∃ t ∈ built.1.evidenceTexts e,
          asciiText "5" ∈ numberTokens t ∧
            (hasJoinedDigit none t = false → asciiText "5" ∈ numbersOf t) := by
  have hrun : ∃ built ∈
      (buildQaContext (exampleNumbers (asciiText "They sold 5 [s].") [exampleFigure]) 0).toOption,
        sectionText built.1.sections .executiveSummary =
            asciiText "They sold " ++ (asciiText "5" ++ asciiText " [s].") ∧
          ∃ findings ∈ (runQaRules built.1.context).toOption,
            ∀ f ∈ findings, f.severity ≠ .blocker := by
    decide +kernel
  rcases hrun with ⟨⟨rows, deliverableId⟩, hbuild, htext, findings, hok, hnone⟩
  have hcited : ¬IsCited (rows.sources.map (·.id)) (asciiText "They sold ") (asciiText "5")
      (asciiText " [s].") := by
    rintro ⟨content, c, rest, hopen, -⟩
    have hnothing : openBracket none (asciiText "They sold ") = none := by decide +kernel
    rw [hnothing] at hopen
    cases hopen
  exact ⟨(rows, deliverableId), hbuild, numeric_gate (toOption_eq_some.mp hbuild)
    (toOption_eq_some.mp hok) hnone (by decide) htext
    ⟨by decide +kernel, by decide +kernel, by decide +kernel⟩ (by decide +kernel) hcited
    (by decide +kernel) (by decide +kernel)⟩

end ResearchWorkbench.Qa
