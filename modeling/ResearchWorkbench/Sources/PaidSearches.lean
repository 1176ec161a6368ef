import ResearchWorkbench.Documents.SafeNames
import ResearchWorkbench.Network.PublicTargets
import ResearchWorkbench.Pipeline.StageContracts
import ResearchWorkbench.Services.SearchHits

namespace ResearchWorkbench.SearchHits

/-!
# What one bad hit costs

A search is paid for before its results are committed.

* `takenResults`, `parseHits_eq` — the results that become hits;
* `LawfulPlatform`, `ReadsBack` — the URL of a hit is read back as it was;
* `ResultFits`, `hitAccepted_iff` — the results whose hits pass all filters;
* `CostsNothing`, `paid_searches_iff`.

A title of one letter passes the parser only: `short_title_costs_the_search`.
-/

open Contracts SafeFetch

variable {p : SearchPlatform} {job : SearchJob} {payload : Json} {count : ℕ} {result : ReadResult}

/-! ### The parser -/

/-- The text of the URL of a result. -/
def ReadResult.key (result : ReadResult) : Text := result.url.toString

/-- The results with a title and a URL that is allowed. -/
def readableResults (p : SearchPlatform) (payload : Json) : List ReadResult :=
  (resultsOf payload).filterMap (readResult p)

/-- The first results with each URL, up to the count. -/
def takenResults (p : SearchPlatform) (payload : Json) (count : ℕ) : List ReadResult :=
  (firstsBy ReadResult.key (readableResults p payload)).take count

/-- What the loop adds to its hits: the first results with URLs that it has not seen. -/
theorem parseResults_eq {results : List Json} {seen : List Text} {hits : List SearchHit}
    (h : hits.length < count) :
    parseResults p count results seen hits =
      hits ++ (((firstsBy ReadResult.key (results.filterMap (readResult p))).filter
        fun r => decide (r.key ∉ seen)).take (count - hits.length)).map (hitOf p) := by
  induction results generalizing seen hits with
  | nil => simp [parseResults, firstsBy]
  | cons raw results ih =>
    unfold parseResults
    cases hread : readResult p raw with
    | none =>
      rw [List.filterMap_cons_none hread]
      exact ih h
    | some result =>
      rw [List.filterMap_cons_some hread, firstsBy]
      dsimp only
      by_cases hseen : result.url.toString ∈ seen
      · -- the result is skipped, and so are the later ones with its URL
        have hsame : ((firstsBy ReadResult.key (results.filterMap (readResult p))).filter
            fun r => decide (r.key ≠ result.key)).filter (fun r => decide (r.key ∉ seen)) =
              (firstsBy ReadResult.key (results.filterMap (readResult p))).filter
                fun r => decide (r.key ∉ seen) := by
          rw [List.filter_filter]
          refine List.filter_congr fun r _ => ?_
          by_cases hr : r.key ∈ seen
          · rw [decide_eq_false (not_not.mpr hr), Bool.false_and]
          · have hne : r.key ≠ result.key := fun heq => hr (heq ▸ hseen)
            rw [decide_eq_true hne, Bool.and_true]
        have hnot : ¬decide (result.key ∉ seen) = true := fun hd => of_decide_eq_true hd hseen
        rw [if_pos hseen, List.filter_cons_of_neg (p := fun r : ReadResult => decide (r.key ∉ seen))
          hnot, hsame]
        exact ih h
      · have hfresh : decide (result.key ∉ seen) = true := decide_eq_true hseen
        rw [if_neg hseen,
          List.filter_cons_of_pos (p := fun r : ReadResult => decide (r.key ∉ seen)) hfresh]
        obtain ⟨n, hn⟩ : ∃ n, count - hits.length = n + 1 :=
          ⟨count - hits.length - 1, by omega⟩
        rw [hn, List.take_succ_cons, List.map_cons]
        by_cases hfull : (hits ++ [hitOf p result]).length ≥ count
        · have hzero : n = 0 := by
            rw [List.length_append, List.length_singleton] at hfull
            omega
          rw [if_pos hfull, hzero, List.take_zero, List.map_nil]
        · have hrest : count - (hits ++ [hitOf p result]).length = n := by
            rw [List.length_append, List.length_singleton]
            omega
          have hsame : ((firstsBy ReadResult.key (results.filterMap (readResult p))).filter
              fun r => decide (r.key ≠ result.key)).filter (fun r => decide (r.key ∉ seen)) =
                (firstsBy ReadResult.key (results.filterMap (readResult p))).filter
                  fun r => decide (r.key ∉ seen ++ [result.key]) := by
            rw [List.filter_filter]
            refine List.filter_congr fun r _ => ?_
            rw [← Bool.decide_and]
            refine decide_eq_decide.mpr ?_
            rw [List.mem_append, List.mem_singleton, not_or]
          rw [if_neg hfull, ih (not_le.mp hfull), hrest, hsame, List.append_assoc,
            List.singleton_append]
          rfl

/-- **The hits** are those of the first results with each URL, up to the count. -/
theorem parseHits_eq (hcount : 1 ≤ count) :
    parseHits p payload count = (takenResults p payload count).map (hitOf p) := by
  have hall : ∀ l : List ReadResult, (l.filter fun r => decide (r.key ∉ ([] : List Text))) = l := by
    intro l
    exact List.filter_eq_self.mpr fun r _ => decide_eq_true List.not_mem_nil
  unfold parseHits
  rw [parseResults_eq (by rw [List.length_nil]; omega), List.nil_append, hall]
  rfl

theorem length_parseHits_le (hcount : 1 ≤ count) : (parseHits p payload count).length ≤ count := by
  rw [parseHits_eq hcount, List.length_map]
  exact List.length_take_le _ _

theorem nodup_parseHits (hcount : 1 ≤ count) : ((parseHits p payload count).map (·.url)).Nodup := by
  rw [parseHits_eq hcount, List.map_map]
  exact (nodup_firstsBy ReadResult.key (readableResults p payload)).sublist
    ((List.take_sublist _ _).map _)

/-- Every result with a title and a URL is there, or there are as many as were asked for. -/
theorem readable_is_taken (h : result ∈ readableResults p payload) :
    (∃ r ∈ takenResults p payload count, r.key = result.key) ∨
      (takenResults p payload count).length = count := by
  obtain ⟨r, hr, hkey⟩ := exists_mem_firstsBy ReadResult.key h
  by_cases hlength : (firstsBy ReadResult.key (readableResults p payload)).length ≤ count
  · refine .inl ⟨r, ?_, hkey⟩
    unfold takenResults
    rwa [List.take_of_length_le hlength]
  · refine .inr ?_
    unfold takenResults
    rw [List.length_take]
    omega

/-! ### The platform -/

/-- A unit of ASCII that is visible. -/
def isVisibleUnit (c : ℕ) : Prop := 33 ≤ c ∧ c ≤ 126

/-- What is documented of the platform: that of `LawfulRuntime`; the text of an HTTP URL is visible
    ASCII; and a digest has hexadecimal digits. -/
structure LawfulPlatform (p : SearchPlatform) : Prop where
  rt : LawfulRuntime p.rt
  href : ∀ {input base url}, p.rt.parseUrl input base = some url →
    url.protocol = asciiText "http:" ∨ url.protocol = asciiText "https:" →
      ∀ c ∈ url.toString, isVisibleUnit c
  digest : ∀ t, ∀ c ∈ p.digest t, isVisibleUnit c

variable {t : Text}

theorem not_space_of_visible {c : ℕ} (h : isVisibleUnit c) : isSpaceUnit c = false := by
  obtain ⟨hlow, hhigh⟩ := h
  simp only [isSpaceUnit, Bool.or_eq_false_iff, Bool.and_eq_false_iff, decide_eq_false_iff_not]
  omega

theorem isTrimmed_of_visible (h : ∀ c ∈ t, isVisibleUnit c) : IsTrimmed t := by
  have hfront : t.dropWhile isSpaceUnit = t :=
    List.dropWhile_eq_self_iff.mpr fun hne => by
      rw [not_space_of_visible (h _ (List.getElem_mem _))]
      exact Bool.false_ne_true
  have hback : t.reverse.dropWhile isSpaceUnit = t.reverse :=
    List.dropWhile_eq_self_iff.mpr fun hne => by
      rw [not_space_of_visible (h _ (List.mem_reverse.mp (List.getElem_mem _)))]
      exact Bool.false_ne_true
  unfold IsTrimmed trimText
  rw [hfront, hback, List.reverse_reverse]

theorem isStorable_of_visible (h : ∀ c ∈ t, isVisibleUnit c) : isStorable t := by
  refine ⟨fun hzero => absurd (h 0 hzero).1 (by decide), ?_⟩
  have hpaired : FileNames.Paired t := by
    induction t with
    | nil => exact .nil
    | cons c t ih =>
      have hc := FileNames.isWholeUnit_of_lt (c := c) (by have := (h c List.mem_cons_self).2; omega)
      exact .unit hc.1 hc.2 (ih fun d hd => h d (List.mem_cons_of_mem _ hd))
  exact hpaired.isWellFormed

/-! ### The URL of a hit -/

/-- The URL of a result is read back as it was. -/
structure ReadsBack (p : SearchPlatform) (url : Url) : Prop where
  validate : validateExternalUrl p.rt url.toString = .ok url
  parse : p.rt.parseUrl url.toString none = some url
  hash : url.hash = []
  visible : ∀ c ∈ url.toString, isVisibleUnit c
  hostname : ∀ c ∈ url.hostname, isVisibleUnit c

theorem readsBack_of_validate (hp : LawfulPlatform p) {value : Text} {url : Url}
    (h : validateExternalUrl p.rt value = .ok url) : ReadsBack p url := by
  have htarget := validateExternalUrl_spec hp.rt h
  have hvalidate : validateExternalUrl p.rt url.toString = .ok url := by
    simp only [validateExternalUrl, bind_eq_ok, ensure_eq_ok, require_eq_ok, pure_eq_ok] at h ⊢
    obtain ⟨parsed, -, _, hprotocol, _, hcredentials, _, hname, _, hlocal, isPublic, hisPublic, _,
      hpublic, rfl⟩ := h
    exact ⟨_, htarget.parse_toString, (), hprotocol, (), hcredentials, (), hname, (), hlocal,
      isPublic, hisPublic, (), hpublic, rfl⟩
  have hvisible := hp.href htarget.parse_toString htarget.protocol
  refine ⟨hvalidate, htarget.parse_toString, htarget.hash, hvisible, fun c hc => hvisible c ?_⟩
  unfold Url.toString
  simp only [List.mem_append]
  exact .inl (.inl (.inl (.inl (.inr hc))))

theorem readsBack_of_readResult (hp : LawfulPlatform p) {raw : Json}
    (h : readResult p raw = some result) : ReadsBack p result.url := by
  simp only [readResult, Option.bind_eq_bind, Option.bind_eq_some_iff, Option.pure_def,
    Option.some.injEq] at h
  obtain ⟨rawUrl, -, rawTitle, -, url, hurl, rfl⟩ := h
  cases hvalid : validateExternalUrl p.rt rawUrl with
  | error e =>
    rw [hvalid] at hurl
    exact absurd hurl (by simp [Except.toOption])
  | ok url' =>
    rw [hvalid] at hurl
    obtain rfl := Option.some.inj hurl
    exact readsBack_of_validate hp hvalid

theorem readsBack_of_mem (hp : LawfulPlatform p) (h : result ∈ takenResults p payload count) :
    ReadsBack p result.url := by
  have hmem := (firstsBy_sublist ReadResult.key _).subset (List.mem_of_mem_take h)
  obtain ⟨raw, -, hread⟩ := List.mem_filterMap.mp hmem
  exact readsBack_of_readResult hp hread

/-! ### The source of a hit -/

/-- The title of a result, as a text. -/
def titleOf (p : SearchPlatform) (result : ReadResult) : Text :=
  externalHtmlToText p.rt.sanitizeHtml result.title

/-- The description of a result, as a text. -/
def snippetOf (p : SearchPlatform) (result : ReadResult) : Text :=
  externalHtmlToText p.rt.sanitizeHtml ((stringValue (property result.item "description")).getD [])

/-- The language of a result. -/
def languageOf (result : ReadResult) : Option Text := stringValue (property result.item "language")

theorem isTrimmed_htmlText (sanitizeHtml : HtmlSanitizer) (value : Text) :
    IsTrimmed (externalHtmlToText sanitizeHtml value) := isTrimmed_trimText _

theorem isTrimmed_stringValue {value : Option Json} (h : t ∈ stringValue value) : IsTrimmed t := by
  unfold stringValue at h
  split at h
  · split at h
    · obtain rfl := Option.some.inj h
      exact isTrimmed_trimText _
    · cases h
  · cases h

theorem hasDateShape_publishedDate {value : Option Json} (h : t ∈ publishedDate p value) :
    isIsoDate (t.take 10) = true := by
  have hshape := (Option.filter_eq_some_iff.mp h).2
  simp only [hasDateShape, Bool.and_eq_true] at hshape
  exact hshape.1.1

theorem isIsoDate_publishedAtOf {item : Option (List (Text × Json))} (h : t ∈ publishedAtOf p item) :
    isIsoDate (t.take 10) = true := by
  rcases Option.or_eq_some_iff.mp h with h | ⟨-, h⟩
  · exact hasDateShape_publishedDate h
  rcases Option.or_eq_some_iff.mp h with h | ⟨-, h⟩
  · exact hasDateShape_publishedDate h
  · exact hasDateShape_publishedDate h

/-- The date of the source of a result. -/
theorem dateAtFront_publishedAtOf (item : Option (List (Text × Json))) :
    dateAtFront (publishedAtOf p item) = (publishedAtOf p item).map fun t => t.take 10 := by
  unfold dateAtFront
  cases hdate : publishedAtOf p item with
  | none => rfl
  | some t => rw [Option.map_some, Option.filter_some, if_pos (isIsoDate_publishedAtOf hdate)]

/-- The fields of the source of a result. -/
def inputOf (p : SearchPlatform) (job : SearchJob) (result : ReadResult) : SourceInput where
  url := result.url.toString
  title := titleOf p result
  publisher := result.url.hostname
  publishedAt := dateAtFront (publishedAtOf p result.item)
  sourceType := asciiText "SEARCH_RESULT"
  language := ((languageOf result).or job.request.searchLanguage).getD (asciiText "en")
  contentSummary := summaryOf (hitOf p result)
  mimeType := asciiText "text/html"

/-- The candidate of a result. -/
def candidateOf (p : SearchPlatform) (job : SearchJob) (result : ReadResult) : SourceCandidate where
  id := deterministicSourceId p job.projectId job.providerId result.url.toString
  providerResultId := resultId p result.url.toString
  source := inputOf p job result
  hit := hitOf p result

theorem checks_trimmedBetween {m n : ℕ} (h : IsTrimmed t) :
    (trimmedBetween m n).Checks t (m ≤ t.length ∧ t.length ≤ n) :=
  ((checks_trimmed_of_isTrimmed h).andThen
    ((Schema.checks_atLeast m t).andThen (Schema.checks_atMost n t))).congr (by rw [true_and])

theorem checks_trimmedAtMost {n : ℕ} (h : IsTrimmed t) :
    Schema.Checks (trimmed >=> Schema.atMost n) t (t.length ≤ n) :=
  ((checks_trimmed_of_isTrimmed h).andThen (Schema.checks_atMost n t)).congr (by rw [true_and])

theorem checks_urlText {url : Url} (hr : ReadsBack p url) :
    (urlText p).Checks url.toString True := by
  refine Schema.Checks.of_eq_ok ?_
  have htrim := isTrimmed_of_visible hr.visible
  unfold IsTrimmed at htrim
  simp only [urlText, bind_eq_ok, require_eq_ok, pure_eq_ok, htrim]
  exact ⟨url, hr.parse, trivial⟩

/-- The language of the source of a result is trimmed, and of a length that fits if it is the
    request's or the default. -/
theorem language_inputOf (p : SearchPlatform) (job : SearchJob) (result : ReadResult) :
    IsTrimmed (inputOf p job result).language ∧
      ((2 ≤ (inputOf p job result).language.length ∧ (inputOf p job result).language.length ≤ 20) ↔
        ∀ t ∈ languageOf result, 2 ≤ t.length ∧ t.length ≤ 20) := by
  cases hlanguage : languageOf result with
  | some t =>
    have heq : (inputOf p job result).language = t := by
      unfold inputOf
      rw [hlanguage]
      rfl
    rw [heq]
    refine ⟨isTrimmed_stringValue hlanguage, ?_⟩
    constructor
    · rintro h _ ⟨⟩
      exact h
    · intro h
      exact h t rfl
  | none =>
    have hnone : (∀ t ∈ (none : Option Text), 2 ≤ t.length ∧ t.length ≤ 20) ↔ True :=
      iff_true_intro fun _ hmem => absurd hmem (by simp)
    rw [hnone, iff_true]
    cases hsearch : job.request.searchLanguage with
    | some t =>
      have heq : (inputOf p job result).language = t := by
        unfold inputOf
        rw [hlanguage, hsearch]
        rfl
      have hlength := job.request.language_length t hsearch
      rw [heq]
      refine ⟨isTrimmed_of_visible fun c hc => ?_, by omega⟩
      have hletter := job.request.language_letters t hsearch c hc
      simp only [isLetter, Bool.or_eq_true, Bool.and_eq_true, decide_eq_true_eq] at hletter
      unfold isVisibleUnit
      omega
    | none =>
      have heq : (inputOf p job result).language = asciiText "en" := by
        unfold inputOf
        rw [hlanguage, hsearch]
        rfl
      have htrim : trimText (asciiText "en") = asciiText "en" := by decide
      rw [heq]
      exact ⟨htrim, by simp [asciiText]⟩

/-- The lengths of a result fit. -/
structure LengthsFit (p : SearchPlatform) (result : ReadResult) : Prop where
  title : 2 ≤ (titleOf p result).length ∧ (titleOf p result).length ≤ 500
  hostname : result.url.hostname.length ≤ 500
  language : ∀ t ∈ languageOf result, 2 ≤ t.length ∧ t.length ≤ 20
  snippet : (snippetOf p result).length ≤ 20000

theorem checks_summary (result : ReadResult) :
    (Schema.optional (trimmed >=> Schema.atMost 20000)).Checks (summaryOf (hitOf p result))
      ((snippetOf p result).length ≤ 20000) := by
  unfold summaryOf
  split
  · have htrim : IsTrimmed (snippetOf p result) := isTrimmed_htmlText _ _
    refine (Schema.Checks.optional (P := fun t : Text => t.length ≤ 20000) fun t ht => ?_).congr ?_
    · obtain rfl := Option.some.inj ht
      exact checks_trimmedAtMost htrim
    · constructor
      · intro h
        exact h _ rfl
      · rintro h _ ⟨⟩
        exact h
  · rename_i hempty
    have hnil : snippetOf p result = [] := not_not.mp hempty
    rw [hnil]
    refine (Schema.Checks.optional (P := fun _ : Text => True) fun t ht => absurd ht (by simp)).congr ?_
    exact iff_of_true (fun _ _ => trivial) (Nat.zero_le _)

/-- The source of a result is accepted if its lengths fit. -/
theorem sourceInputSchema_inputOf (hr : ReadsBack p result.url) {source : SourceInput} :
    sourceInputSchema p (inputOf p job result) = .ok source ↔
      LengthsFit p result ∧ source = inputOf p job result := by
  have hlanguage := language_inputOf p job result
  have htype : trimText (asciiText "SEARCH_RESULT") = asciiText "SEARCH_RESULT" := by decide
  have hmime : trimText (asciiText "text/html") = asciiText "text/html" := by decide
  have hdate : (Schema.optional isoDate).Checks (inputOf p job result).publishedAt
      (∀ t ∈ (inputOf p job result).publishedAt, isIsoDate t = true) :=
    Schema.Checks.optional fun t _ => Schema.checks_refine t
  have hiso : ∀ t ∈ (inputOf p job result).publishedAt, isIsoDate t = true := fun t ht =>
    (Option.filter_eq_some_iff.mp ht).2
  have hall : (sourceInputSchema p).Checks (inputOf p job result)
      (True ∧ (2 ≤ (titleOf p result).length ∧ (titleOf p result).length ≤ 500) ∧
        result.url.hostname.length ≤ 500 ∧
        (∀ t ∈ (inputOf p job result).publishedAt, isIsoDate t = true) ∧
        (2 ≤ (asciiText "SEARCH_RESULT").length ∧ (asciiText "SEARCH_RESULT").length ≤ 80) ∧
        (2 ≤ (inputOf p job result).language.length ∧ (inputOf p job result).language.length ≤ 20) ∧
        (snippetOf p result).length ≤ 20000 ∧ (asciiText "text/html").length ≤ 100 ∧ True) :=
    (checks_urlText hr).bind ((checks_trimmedBetween (isTrimmed_htmlText _ _)).bind
      ((checks_trimmedAtMost (isTrimmed_of_visible hr.hostname)).bind (hdate.bind
        ((checks_trimmedBetween htype).bind ((checks_trimmedBetween hlanguage.1).bind
          ((checks_summary result).bind ((checks_trimmedAtMost hmime).bind
            (Schema.pure_eq_ok_iff _))))))))
  refine (hall source).trans (and_congr_left fun _ => ?_)
  have htypeLength : 2 ≤ (asciiText "SEARCH_RESULT").length ∧
      (asciiText "SEARCH_RESULT").length ≤ 80 := by simp [asciiText]
  have hmimeLength : (asciiText "text/html").length ≤ 100 := by simp [asciiText]
  constructor
  · rintro ⟨-, htitle, hhost, -, -, hlang, hsummary, -⟩
    exact ⟨htitle, hhost, hlanguage.2.mp hlang, hsummary⟩
  · rintro ⟨htitle, hhost, hlang, hsummary⟩
    exact ⟨trivial, htitle, hhost, hiso, htypeLength, hlanguage.2.mpr hlang, hsummary, hmimeLength,
      trivial⟩

/-- **The source of a hit**: there is one if the lengths fit. -/
theorem sourceFromHit_eq_ok_iff (hr : ReadsBack p result.url) {candidate : SourceCandidate} :
    sourceFromHit p job (hitOf p result) = .ok candidate ↔
      LengthsFit p result ∧ candidate = candidateOf p job result := by
  have hurl : { result.url with hash := [] } = result.url := by rw [← hr.hash]
  have hschema : ∀ source, sourceInputSchema p (inputOf p job result) = .ok source ↔
      LengthsFit p result ∧ source = inputOf p job result := fun _ => sourceInputSchema_inputOf hr
  unfold sourceFromHit
  simp only [hitOf, hr.validate, Except.mapError, bind_eq_ok, Except.ok.injEq, exists_eq_left', hurl,
    hr.parse, require, pure_eq_ok]
  constructor
  · rintro ⟨source, hsource, rfl⟩
    cases hparsed : sourceInputSchema p (inputOf p job result) with
    | error issue =>
      have heq : (Except.error (.schema issue) : Except HitError SourceInput) = .ok source := by
        rw [← hsource]
        show _ = (sourceInputSchema p (inputOf p job result)).mapError _
        rw [hparsed]
        rfl
      cases heq
    | ok parsed =>
      have heq : (Except.ok parsed : Except HitError SourceInput) = .ok source := by
        rw [← hsource]
        show _ = (sourceInputSchema p (inputOf p job result)).mapError _
        rw [hparsed]
        rfl
      obtain rfl := Except.ok.inj heq
      obtain ⟨hfit, rfl⟩ := (hschema _).mp hparsed
      exact ⟨hfit, rfl⟩
  · rintro ⟨hfit, rfl⟩
    refine ⟨inputOf p job result, ?_, rfl⟩
    show (sourceInputSchema p (inputOf p job result)).mapError _ = _
    rw [(hschema _).mpr ⟨hfit, rfl⟩]
    rfl

/-! ### The database and the checkpoint -/

/-- Dates that the job can read. -/
theorem freshness_ok_iff (job : SearchJob) (publishedAt : Option Text) :
    (∃ status, Qa.assessSourceFreshness publishedAt job.researchDate job.maxAgeDays = .ok status) ↔
      ∀ t ∈ publishedAt, ∃ day, Qa.utcDay t "publishedAt" = .ok day := by
  obtain ⟨researchDay, hresearch⟩ := job.researchDay
  unfold Qa.assessSourceFreshness
  cases publishedAt with
  | none =>
    refine iff_of_true ⟨.unknown, ?_⟩ fun _ hmem => absurd hmem (by simp)
    simp only [bind_eq_ok, ensure_eq_ok, pure_eq_ok]
    exact ⟨(), job.zero_le_maxAgeDays, trivial⟩
  | some t =>
    simp only [bind_eq_ok, ensure_eq_ok, pure_eq_ok, hresearch, Except.ok.injEq, exists_eq_left']
    constructor
    · rintro ⟨_, _, -, day, hday, -⟩ _ ⟨⟩
      exact ⟨day, hday⟩
    · intro h
      obtain ⟨day, hday⟩ := h t rfl
      exact ⟨_, (), job.zero_le_maxAgeDays, day, hday, rfl⟩

/-- A date that the job can read is one of the calendar. -/
theorem isCalendarDate_of_utcDay {label : String} {day : ℕ} (h : Qa.utcDay t label = .ok day) :
    isCalendarDate t = true := by
  simp only [Qa.utcDay, bind_eq_ok, ensure_eq_ok, pure_eq_ok] at h
  obtain ⟨-, hiso, -, ⟨hyear, hmonth, hmonth', hday, hday'⟩, -⟩ := h
  unfold isCalendarDate
  rw [Bool.and_eq_true, decide_eq_true_eq]
  exact ⟨hiso, by omega, hmonth, hmonth', hday, hday'⟩

theorem fitsText_of_visible (h : ∀ c ∈ t, isVisibleUnit c) : fitsText t :=
  (isStorable_of_visible h).1

/-- The texts and the date of a result fit the database. -/
structure ValuesFit (p : SearchPlatform) (result : ReadResult) : Prop where
  title : isStorable (titleOf p result)
  snippet : isStorable (snippetOf p result)
  language : ∀ t ∈ languageOf result, isStorable t
  date : ∀ t ∈ publishedAtOf p result.item,
    isStorable t ∧ ∃ day, Qa.utcDay (t.take 10) "publishedAt" = .ok day

theorem isStorable_nil : isStorable [] := ⟨List.not_mem_nil, rfl⟩

theorem isStorable_getD {o : Option Text} (h : ∀ t ∈ o, isStorable t) : isStorable (o.getD []) := by
  cases o with
  | none => exact isStorable_nil
  | some t => exact h t rfl

theorem summary_getD (result : ReadResult) :
    (summaryOf (hitOf p result)).getD [] = snippetOf p result := by
  unfold summaryOf
  split
  · rfl
  · rename_i hempty
    exact (not_not.mp hempty).symm

/-- The columns take what fits. -/
theorem fitsColumns_inputOf (hr : ReadsBack p result.url) (h : ValuesFit p result) :
    fitsColumns (inputOf p job result) := by
  have htype : 0 ∉ asciiText "SEARCH_RESULT" := by simp [asciiText]
  have hmime : 0 ∉ asciiText "text/html" := by simp [asciiText]
  have hdefault : 0 ∉ asciiText "en" := by simp [asciiText]
  refine ⟨?_, fun t ht => ?_⟩
  · simp only [List.forall_mem_cons]
    refine ⟨fitsText_of_visible hr.visible, h.title.1, fitsText_of_visible hr.hostname, htype, ?_,
      ?_, hmime, fun _ hmem => absurd hmem List.not_mem_nil⟩
    · unfold inputOf
      dsimp only
      cases hlanguage : languageOf result with
      | some t => exact (h.language t hlanguage).1
      | none =>
        cases hsearch : job.request.searchLanguage with
        | some t =>
          show 0 ∉ t
          intro hzero
          have hletter := job.request.language_letters t hsearch 0 hzero
          exact absurd hletter (by decide)
        | none => exact hdefault
    · show 0 ∉ (summaryOf (hitOf p result)).getD []
      rw [summary_getD]
      exact h.snippet.1
  · unfold inputOf at ht
    rw [dateAtFront_publishedAtOf] at ht
    obtain ⟨d, hd, rfl⟩ := Option.map_eq_some_iff.mp ht
    obtain ⟨day, hday⟩ := (h.date d hd).2
    exact isCalendarDate_of_utcDay hday

theorem visible_id (hp : LawfulPlatform p) (front url : Text) (n : ℕ)
    (hfront : ∀ c ∈ front, 33 ≤ c ∧ c ≤ 126) :
    ∀ c ∈ front ++ (p.digest url).take n, isVisibleUnit c := by
  intro c hc
  rcases List.mem_append.mp hc with hc | hc
  · exact hfront c hc
  · exact hp.digest url c (List.mem_of_mem_take hc)

theorem visible_resultId (hp : LawfulPlatform p) (url : Text) :
    ∀ c ∈ resultId p url, isVisibleUnit c :=
  visible_id hp _ _ _ (by simp [asciiText])

theorem visible_sourceId (hp : LawfulPlatform p) (projectId providerId url : Text) :
    ∀ c ∈ deterministicSourceId p projectId providerId url, isVisibleUnit c :=
  visible_id hp _ _ _ (by simp [asciiText])

theorem length_sourceId (p : SearchPlatform) (projectId providerId url : Text) :
    1 ≤ (deterministicSourceId p projectId providerId url).length ∧
      (deterministicSourceId p projectId providerId url).length ≤ 200 := by
  have hfront : (asciiText "search-").length = 7 := by simp [asciiText]
  unfold deterministicSourceId
  rw [List.length_append, hfront, List.length_take]
  omega

/-- The checkpoint takes a result whose lengths fit as it is. -/
theorem hitOutputSchema_checkpointHit (hp : LawfulPlatform p) (hr : ReadsBack p result.url)
    (h : LengthsFit p result) :
    hitOutputSchema p (checkpointHit (candidateOf p job result)) =
      .ok (checkpointHit (candidateOf p job result)) := by
  have hid := (checks_trimmedBetween (m := 1) (n := 200) (isTrimmed_of_visible
    (visible_sourceId hp job.projectId job.providerId result.url.toString))).eq_ok
      (length_sourceId p _ _ _)
  have htitle := (checks_trimmedBetween (m := 1) (n := 500)
    (isTrimmed_htmlText p.rt.sanitizeHtml result.title)).eq_ok
      ⟨(by decide : 1 ≤ 2).trans h.title.1, h.title.2⟩
  have hurl := (checks_urlText hr).eq_ok trivial
  have hsnippet := (Schema.checks_atMost 20000 (snippetOf p result)).eq_ok h.snippet
  have hlanguage : Schema.optional (trimmedBetween 2 20) (languageOf result) =
      .ok (languageOf result) :=
    (Schema.Checks.optional (P := fun t : Text => 2 ≤ t.length ∧ t.length ≤ 20) fun t ht =>
      checks_trimmedBetween (isTrimmed_stringValue ht)).eq_ok h.language
  simp only [hitOutputSchema, bind_eq_ok, pure_eq_ok]
  exact ⟨_, hid, _, htitle, _, hurl, _, hsnippet, _, hlanguage, rfl⟩

/-- The checkpoint can be stored if the values fit. -/
theorem fitsCheckpoint_checkpointHit (hp : LawfulPlatform p) (hr : ReadsBack p result.url)
    (h : ValuesFit p result) : fitsCheckpoint (checkpointHit (candidateOf p job result)) := by
  unfold fitsCheckpoint
  simp only [List.forall_mem_cons]
  refine ⟨isStorable_of_visible (visible_sourceId hp _ _ _), h.title,
    isStorable_of_visible hr.visible, h.snippet, isStorable_getD fun t ht => (h.date t ht).1,
    isStorable_getD h.language, isStorable_of_visible (visible_resultId hp _),
    fun _ hmem => absurd hmem List.not_mem_nil⟩

/-! ### Hits that pass all filters -/

/-- The hit is accepted by `sourceFromHit`, its date can be read, the columns of `sources` take its
    values, and so does the checkpoint. -/
def HitAccepted (p : SearchPlatform) (job : SearchJob) (hit : SearchHit) : Prop :=
  ∃ candidate, sourceFromHit p job hit = .ok candidate ∧
    (∃ status, Qa.assessSourceFreshness candidate.source.publishedAt job.researchDate
      job.maxAgeDays = .ok status) ∧
    fitsColumns candidate.source ∧
    ∃ output, hitOutputSchema p (checkpointHit candidate) = .ok output ∧ fitsCheckpoint output

/-- The lengths and the values of a result fit. -/
structure ResultFits (p : SearchPlatform) (result : ReadResult) : Prop where
  lengths : LengthsFit p result
  values : ValuesFit p result

/-- **A hit** passes all filters exactly if its result fits. -/
theorem hitAccepted_iff (hp : LawfulPlatform p) (hr : ReadsBack p result.url) :
    HitAccepted p job (hitOf p result) ↔ ResultFits p result := by
  constructor
  · rintro ⟨candidate, hcandidate, hfresh, -, output, houtput, hstored⟩
    obtain ⟨hfit, rfl⟩ := (sourceFromHit_eq_ok_iff hr).mp hcandidate
    rw [hitOutputSchema_checkpointHit hp hr hfit] at houtput
    obtain rfl := Except.ok.inj houtput
    have hdates := (freshness_ok_iff job _).mp hfresh
    unfold fitsCheckpoint at hstored
    simp only [List.forall_mem_cons] at hstored
    obtain ⟨-, htitle, -, hsnippet, hdate, hlanguage, -⟩ := hstored
    refine ⟨hfit, htitle, hsnippet, fun t ht => ?_, fun t ht => ⟨?_, ?_⟩⟩
    · have heq : (hitOf p result).language = some t := ht
      rw [show (checkpointHit (candidateOf p job result)).language = some t from heq] at hlanguage
      exact hlanguage
    · have heq : (hitOf p result).publishedAt = some t := ht
      rw [show (checkpointHit (candidateOf p job result)).publishedAt = some t from heq] at hdate
      exact hdate
    · refine hdates (t.take 10) ?_
      show dateAtFront (publishedAtOf p result.item) = _
      rw [dateAtFront_publishedAtOf, show publishedAtOf p result.item = some t from ht]
      rfl
  · rintro ⟨hlengths, hvalues⟩
    refine ⟨candidateOf p job result, (sourceFromHit_eq_ok_iff hr).mpr ⟨hlengths, rfl⟩,
      (freshness_ok_iff job _).mpr fun t ht => ?_, fitsColumns_inputOf hr hvalues, _,
      hitOutputSchema_checkpointHit hp hr hlengths, fitsCheckpoint_checkpointHit hp hr hvalues⟩
    have hpublished : t ∈ (publishedAtOf p result.item).map fun t => t.take 10 := by
      rw [← dateAtFront_publishedAtOf]
      exact ht
    obtain ⟨d, hd, rfl⟩ := Option.map_eq_some_iff.mp hpublished
    exact (hvalues.date d hd).2

/-! ### The commit -/

/-- The rows that are there with the ids of the hits are of the same sources. -/
def NoCollision (p : SearchPlatform) (job : SearchJob) (existing : List ExistingSource)
    (hits : List SearchHit) : Prop :=
  ∀ row ∈ existing, ∀ hit ∈ hits, ∀ candidate, sourceFromHit p job hit = .ok candidate →
    row.id = candidate.id → row.projectId = job.projectId ∧ row.url = candidate.source.url ∧
      row.ingestionMethod = asciiText "SEARCH"

variable {existing : List ExistingSource} {hits : List SearchHit} {candidate : SourceCandidate}

theorem registerSource_id {id : Text} (h : registerSource job existing candidate = .ok id) :
    id = candidate.id := by
  unfold registerSource at h
  split at h
  · rename_i prior hfind
    simp only [bind_eq_ok, ensure_eq_ok, pure_eq_ok] at h
    obtain ⟨-, -, rfl⟩ := h
    exact of_decide_eq_true
      (List.find?_some (p := fun row : ExistingSource => decide (row.id = candidate.id)) hfind)
  · simp only [bind_eq_ok, ensure_eq_ok, pure_eq_ok] at h
    obtain ⟨-, -, -, -, rfl⟩ := h
    rfl

/-- A candidate whose date can be read and that the columns take gets a row, or has one. -/
theorem exists_registerSource
    (hprior : ∀ row ∈ existing, row.id = candidate.id → row.projectId = job.projectId ∧
      row.url = candidate.source.url ∧ row.ingestionMethod = asciiText "SEARCH")
    (hfresh : ∃ status, Qa.assessSourceFreshness candidate.source.publishedAt job.researchDate
      job.maxAgeDays = .ok status) (hcolumns : fitsColumns candidate.source) :
    ∃ id, registerSource job existing candidate = .ok id := by
  unfold registerSource
  split
  · rename_i prior hfind
    have hid := List.find?_some
      (p := fun row : ExistingSource => decide (row.id = candidate.id)) hfind
    have hsame := hprior prior (List.mem_of_find?_eq_some hfind) (of_decide_eq_true hid)
    simp only [bind_eq_ok, ensure_eq_ok, pure_eq_ok]
    exact ⟨prior.id, (), hsame, rfl⟩
  · obtain ⟨status, hstatus⟩ := hfresh
    simp only [bind_eq_ok, ensure_eq_ok, pure_eq_ok, hstatus]
    exact ⟨candidate.id, status, rfl, (), hcolumns, rfl⟩

/-- **The commit** of hits that pass all filters: each of them is registered. -/
theorem commitHits_of_accepted (haccepted : ∀ hit ∈ hits, HitAccepted p job hit)
    (hrows : NoCollision p job existing hits) :
    ∃ registered search, commitHits p job existing hits = .ok (registered, search) ∧
      ∀ hit ∈ hits, ∃ candidate, sourceFromHit p job hit = .ok candidate ∧
        candidate.id ∈ registered := by
  obtain ⟨candidates, hcandidates⟩ := exists_mapM_eq_ok (f := sourceFromHit p job) (l := hits)
    fun hit hmem => by
      obtain ⟨candidate, hcandidate, -⟩ := haccepted hit hmem
      exact ⟨candidate, hcandidate⟩
  obtain ⟨hleft, hright⟩ := mapM_eq_ok hcandidates
  have hunique : ∀ c ∈ firstsBy (·.id) candidates, ∃ hit ∈ hits, sourceFromHit p job hit = .ok c :=
    fun c hmem => hright c ((firstsBy_sublist _ _).subset hmem)
  obtain ⟨registered, hregistered⟩ := exists_mapM_eq_ok
    (f := registerSource job existing) (l := firstsBy (·.id) candidates) fun c hmem => by
      obtain ⟨hit, hhit, hc⟩ := hunique c hmem
      obtain ⟨c', hc', hfresh, hcolumns, -⟩ := haccepted hit hhit
      obtain rfl := Except.ok.inj (hc.symm.trans hc')
      exact exists_registerSource (fun row hrow hid => hrows row hrow hit hhit c hc hid) hfresh
        hcolumns
  have houtput : ∀ c ∈ firstsBy (·.id) candidates,
      ∃ output, hitOutputSchema p (checkpointHit c) = .ok output ∧ fitsCheckpoint output := by
    intro c hmem
    obtain ⟨hit, hhit, hc⟩ := hunique c hmem
    obtain ⟨c', hc', -, -, houtput⟩ := haccepted hit hhit
    obtain rfl := Except.ok.inj (hc.symm.trans hc')
    exact houtput
  obtain ⟨search, hsearch⟩ := exists_mapM_eq_ok (f := hitOutputSchema p)
    (l := (firstsBy (·.id) candidates).map checkpointHit) fun hit hmem => by
      obtain ⟨c, hc, rfl⟩ := List.mem_map.mp hmem
      obtain ⟨output, houtput, -⟩ := houtput c hc
      exact ⟨output, houtput⟩
  have hstored : ∀ hit ∈ search, fitsCheckpoint hit := by
    intro hit hmem
    obtain ⟨input, hinput, heq⟩ := (mapM_eq_ok hsearch).2 hit hmem
    obtain ⟨c, hc, rfl⟩ := List.mem_map.mp hinput
    obtain ⟨output, houtput, hfits⟩ := houtput c hc
    obtain rfl := Except.ok.inj (heq.symm.trans houtput)
    exact hfits
  refine ⟨registered, search, ?_, fun hit hmem => ?_⟩
  · have houtputs : (Schema.array (hitOutputSchema p)
        ((firstsBy (·.id) candidates).map checkpointHit)).mapError HitError.schema = .ok search := by
      unfold Schema.array
      rw [hsearch]
      rfl
    simp only [commitHits, bind_eq_ok, ensure_eq_ok, pure_eq_ok]
    exact ⟨candidates, hcandidates, registered, hregistered, search, houtputs, (), hstored, rfl⟩
  · obtain ⟨c, hc, hcandidate⟩ := hleft hit hmem
    obtain ⟨b, hb, hid⟩ := exists_mem_firstsBy (·.id) hc
    obtain ⟨id, hin, hregister⟩ := (mapM_eq_ok hregistered).1 b hb
    refine ⟨c, hcandidate, ?_⟩
    rw [← hid, ← registerSource_id hregister]
    exact hin

/-! ### What a bad hit costs -/

/-- No hit of the payload costs the search: there are at most as many as were asked for, with
    distinct URLs; every result with a title and an allowed URL is one of them, or there are as many
    as were asked for; every hit passes all filters; and all of them are registered by the commit,
    whatever rows of the same sources are there. -/
structure CostsNothing (p : SearchPlatform) (job : SearchJob) (payload : Json) : Prop where
  length_le : (parseHits p payload job.request.count).length ≤ job.request.count
  nodup : ((parseHits p payload job.request.count).map (·.url)).Nodup
  complete : ∀ result ∈ readableResults p payload,
    (∃ hit ∈ parseHits p payload job.request.count, hit.url = result.url.toString) ∨
      (parseHits p payload job.request.count).length = job.request.count
  accepted : ∀ hit ∈ parseHits p payload job.request.count, HitAccepted p job hit
  commits : ∀ existing, NoCollision p job existing (parseHits p payload job.request.count) →
    ∃ registered search,
      commitHits p job existing (parseHits p payload job.request.count) =
          .ok (registered, search) ∧
        ∀ hit ∈ parseHits p payload job.request.count, ∃ candidate,
          sourceFromHit p job hit = .ok candidate ∧ candidate.id ∈ registered

/-- **One bad hit costs the search** unless every result that becomes a hit fits. -/
theorem paid_searches_iff (hp : LawfulPlatform p) (job : SearchJob) (payload : Json) :
    CostsNothing p job payload ↔
      ∀ result ∈ takenResults p payload job.request.count, ResultFits p result := by
  have hcount := job.request.one_le_count
  have hhits : parseHits p payload job.request.count =
      (takenResults p payload job.request.count).map (hitOf p) := parseHits_eq hcount
  constructor
  · intro h result hmem
    refine (hitAccepted_iff hp (readsBack_of_mem hp hmem)).mp (h.accepted _ ?_)
    rw [hhits]
    exact List.mem_map_of_mem hmem
  · intro hfits
    have haccepted : ∀ hit ∈ parseHits p payload job.request.count, HitAccepted p job hit := by
      intro hit hmem
      rw [hhits] at hmem
      obtain ⟨result, hresult, rfl⟩ := List.mem_map.mp hmem
      exact (hitAccepted_iff hp (readsBack_of_mem hp hresult)).mpr (hfits result hresult)
    refine ⟨length_parseHits_le hcount, nodup_parseHits hcount, fun result hmem => ?_, haccepted,
      fun existing hrows => commitHits_of_accepted haccepted hrows⟩
    rw [hhits, List.length_map]
    have htaken : (∃ r ∈ takenResults p payload job.request.count, r.key = result.key) ∨
        (takenResults p payload job.request.count).length = job.request.count :=
      readable_is_taken hmem
    rcases htaken with ⟨r, hr, hkey⟩ | hfull
    · exact .inl ⟨hitOf p r, List.mem_map_of_mem hr, hkey⟩
    · exact .inr hfull

/-! ### Payloads -/

/-- A platform that knows one URL. -/
def examplePlatform : SearchPlatform where
  rt := exampleRuntime
  digest _ := asciiText "0123456789abcdef"
  dateParses _ := true

theorem lawful_examplePlatform : LawfulPlatform examplePlatform := by
  have hvisible : ∀ url ∈ [exampleUrl "a.example", exampleUrl "8.8.8.8"],
      ∀ c ∈ url.toString, 33 ≤ c ∧ c ≤ 126 := by decide
  have hdigest : ∀ c ∈ asciiText "0123456789abcdef", 33 ≤ c ∧ c ≤ 126 := by simp [asciiText]
  refine ⟨lawful_exampleRuntime, fun {input base url} h _ => ?_, fun _ => hdigest⟩
  simp only [examplePlatform, exampleRuntime] at h
  split at h
  · obtain rfl := Option.some.inj h
    exact hvisible _ (by decide)
  · split at h
    · obtain rfl := Option.some.inj h
      exact hvisible _ (by decide)
    · cases h

def exampleJob : SearchJob where
  projectId := asciiText "p"
  providerId := asciiText "brave-search"
  request := ⟨10, none, by decide, by decide, by simp, by simp⟩
  researchDate := asciiText "2024-01-01"
  maxAgeDays := 365
  researchDay := ⟨Qa.dayNumber 2024 1 1, by decide⟩
  zero_le_maxAgeDays := by decide

/-- A payload with one result of this title. -/
def examplePayload (title : String) : Json :=
  .object [(asciiText "web", .object [(asciiText "results", .array [.object
    [(asciiText "url", .leaf (.string (asciiText "http://a.example/"))),
      (asciiText "title", .leaf (.string (asciiText title)))]])])]

/-- What of a result is checked: title, snippet, language, date and host. -/
def checkedValues (p : SearchPlatform) (result : ReadResult) :
    Text × Text × Option Text × Option Text × Text :=
  (titleOf p result, snippetOf p result, languageOf result, publishedAtOf p result.item,
    result.url.hostname)

theorem values_title : (takenResults examplePlatform (examplePayload "Title") 10).map
    (checkedValues examplePlatform) = [(asciiText "Title", [], none, none, asciiText "a.example")] := by
  decide

theorem values_letter : (takenResults examplePlatform (examplePayload "A") 10).map
    (checkedValues examplePlatform) = [(asciiText "A", [], none, none, asciiText "a.example")] := by
  decide

/-- A result with a title of five letters costs nothing. -/
theorem title_costs_nothing : CostsNothing examplePlatform exampleJob (examplePayload "Title") := by
  refine (paid_searches_iff lawful_examplePlatform exampleJob (examplePayload "Title")).mpr ?_
  intro result hmem
  have hvalues := List.mem_map_of_mem (f := checkedValues examplePlatform) hmem
  rw [show exampleJob.request.count = 10 from rfl, values_title, List.mem_singleton] at hvalues
  simp only [checkedValues, Prod.mk.injEq] at hvalues
  obtain ⟨htitle, hsnippet, hlanguage, hdate, hhost⟩ := hvalues
  refine ⟨⟨?_, ?_, ?_, ?_⟩, ⟨?_, ?_, ?_, ?_⟩⟩
  · rw [htitle]
    simp [asciiText]
  · rw [hhost]
    simp [asciiText]
  · rw [hlanguage]
    exact fun _ hmem => absurd hmem (by simp)
  · rw [hsnippet]
    decide
  · rw [htitle]
    decide
  · rw [hsnippet]
    exact isStorable_nil
  · rw [hlanguage]
    exact fun _ hmem => absurd hmem (by simp)
  · rw [hdate]
    exact fun _ hmem => absurd hmem (by simp)

/-- **A title of one letter** passes the parser, and no source is made of it: the search that was
    paid for is not committed. -/
theorem short_title_costs_the_search :
    LawfulPlatform examplePlatform ∧
      ¬CostsNothing examplePlatform exampleJob (examplePayload "A") := by
  refine ⟨lawful_examplePlatform, fun h => ?_⟩
  obtain ⟨result, hmem⟩ : ∃ result,
      result ∈ takenResults examplePlatform (examplePayload "A") 10 := by
    refine List.exists_mem_of_ne_nil _ fun hnil => ?_
    have hvalues := values_letter
    rw [hnil] at hvalues
    exact absurd hvalues (by simp)
  have hvalues := List.mem_map_of_mem (f := checkedValues examplePlatform) hmem
  rw [values_letter, List.mem_singleton] at hvalues
  simp only [checkedValues, Prod.mk.injEq] at hvalues
  have haccepted := h.accepted (hitOf examplePlatform result) (by
    rw [parseHits_eq exampleJob.request.one_le_count]
    exact List.mem_map_of_mem hmem)
  have hfits := (hitAccepted_iff lawful_examplePlatform
    (readsBack_of_mem lawful_examplePlatform hmem)).mp haccepted
  have hlength := hfits.lengths.title.1
  rw [hvalues.1] at hlength
  exact absurd hlength (by simp [asciiText])

end ResearchWorkbench.SearchHits
