import ResearchWorkbench.Extraction.HtmlRuns
import ResearchWorkbench.Services.DocxBlocks

namespace ResearchWorkbench.Extraction

open Chunking

/-!
# The text of an HTML document

What the blocks of an HTML document have of the text that a reader sees.  No text is lost, moved or
repeated, but `textValue` returns markup: the characters that markup escapes stay escaped.

* `visibleUnits` — a text up to white space; `visibleUnits_blockText`;
* `visibleUnits_htmlRun` — a run keeps what `textValue` makes of each text;
* `escapeHtml` — how the sanitizer writes a text; `flatMap_eq_self_iff`;
* `shownText`, `html_text_iff` — the text of a document, and when the blocks have it;
* `ampersand_stays_escaped` — one character that stays escaped.
-/

/-! ### Texts up to white space -/

/-- The code units of a text that are not white space. -/
def visibleUnits (t : Text) : Text := t.filter fun c => !isSpaceUnit c

variable {t u : Text}

@[simp] theorem visibleUnits_append : visibleUnits (t ++ u) = visibleUnits t ++ visibleUnits u :=
  List.filter_append ..

theorem visibleUnits_dropWhile : visibleUnits (t.dropWhile isSpaceUnit) = visibleUnits t := by
  induction t with
  | nil => rfl
  | cons c t ih =>
    by_cases hc : isSpaceUnit c = true
    · rw [List.dropWhile_cons_of_pos hc, ih]
      simp [visibleUnits, hc]
    · rw [List.dropWhile_cons_of_neg hc]

@[simp] theorem visibleUnits_trimText : visibleUnits (trimText t) = visibleUnits t := by
  have hreverse : ∀ u : Text, visibleUnits u.reverse = (visibleUnits u).reverse := fun u =>
    List.filter_reverse
  rw [trimText, hreverse, visibleUnits_dropWhile, hreverse, List.reverse_reverse,
    visibleUnits_dropWhile]

/-- The replacements of `blockText` are of white space only. -/
theorem visibleUnits_replaced :
    visibleUnits ((Regex.sequence [.many isSpaceUnit 0 none, .unit (· = 10),
      .many isSpaceUnit 0 none]).replaceAll [10]
        ((Regex.many (fun c => c = 9 || c = 32) 1 none).replaceAll [32] t)) = visibleUnits t := by
  have hblanks : (Regex.many (fun c => c = 9 || c = 32) 1 none).Within isSpaceUnit := by
    intro c hc
    simp only [Bool.or_eq_true, decide_eq_true_eq] at hc
    rcases hc with rfl | rfl <;> rfl
  have hlines : (Regex.sequence [.many isSpaceUnit 0 none, .unit (· = 10),
      .many isSpaceUnit 0 none]).Within isSpaceUnit := by
    refine ⟨fun _ hc => hc, fun c hc => ?_, fun _ hc => hc, trivial⟩
    rw [decide_eq_true_eq] at hc
    subst hc
    rfl
  unfold visibleUnits
  rw [Regex.filter_replaceAll hlines (by decide), Regex.filter_replaceAll hblanks (by decide)]

/-- The text of a block has all that is not white space. -/
@[simp] theorem visibleUnits_blockText : visibleUnits (blockText t) = visibleUnits t := by
  rw [blockText, visibleUnits_trimText, visibleUnits_replaced]

theorem trimText_eq_nil (h : visibleUnits t = []) : trimText t = [] := by
  have hspace : t.dropWhile isSpaceUnit = [] := by
    refine List.dropWhile_eq_nil_iff.mpr fun c hc => ?_
    simpa using List.filter_eq_nil_iff.mp h c hc
  rw [trimText, hspace]
  rfl

/-- A text without visible characters makes no block. -/
theorem blockText_eq_nil_iff : blockText t = [] ↔ visibleUnits t = [] := by
  constructor
  · intro h
    rw [← visibleUnits_blockText, h]
    rfl
  · intro h
    exact trimText_eq_nil (visibleUnits_replaced.trans h)

/-! ### What a run keeps -/

/-- What a token adds to the text of the blocks, up to white space. -/
def tokenUnits (sanitizeHtml : HtmlSanitizer) : HtmlToken → Text
  | .text value => visibleUnits (textValue sanitizeHtml value)
  | .tag _ => []

/-- What an action adds. -/
def HtmlAction.units : HtmlAction → Text
  | .append value => visibleUnits value
  | _ => []

/-- The texts of the blocks one after the other. -/
def appendText (out : Text) (block : FoundBlock) : Text := out ++ block.text

/-- What a state holds, in its blocks and in its buffer. -/
def HtmlState.units (s : HtmlState Text) : Text := visibleUnits (s.out ++ s.buffer)

variable {sanitizeHtml : HtmlSanitizer} {s : HtmlState Text}

theorem units_flush : (flush appendText s).units = s.units := by
  unfold flush HtmlState.units
  simp only
  split
  · rename_i hblank
    have hbuffer := blockText_eq_nil_iff.mp hblank
    rw [visibleUnits_append, visibleUnits_append, hbuffer]
    rfl
  · simp only [appendText, visibleUnits_append, visibleUnits_blockText, List.append_nil]

theorem units_act (a : HtmlAction) : (act appendText s a).units = s.units ++ a.units := by
  cases a with
  | append value => simp [act, HtmlState.units, HtmlAction.units]
  | heading level => exact units_flush.trans (List.append_nil _).symm
  | headingEnd => exact units_flush.trans (List.append_nil _).symm
  | block row closing =>
    have hflush : HtmlState.units
        (if closing = true ∨ trimText s.buffer ≠ [] then flush appendText s else s) = s.units := by
      split
      · exact units_flush
      · rfl
    refine Eq.trans ?_ (hflush.trans (List.append_nil _).symm)
    unfold act
    simp only
    split <;> rfl
  | cellEnd =>
    simp only [act, HtmlState.units, HtmlAction.units, List.append_nil, ← List.append_assoc]
    rw [visibleUnits_append]
    exact List.append_nil _
  | ignored => exact (List.append_nil _).symm

theorem units_action (token : HtmlToken) :
    (action sanitizeHtml token).units = tokenUnits sanitizeHtml token := by
  rcases token with content | value
  · show HtmlAction.units (action sanitizeHtml (.tag content)) = []
    unfold action
    simp only
    generalize closingTag content = closing
    generalize openingTag content = opening
    rcases closing <|> opening with _ | tag
    · rfl
    simp only
    rcases headingTag tag with _ | level
    · simp only
      split
      · rfl
      split
      · rfl
      split
      · rfl
      · rfl
    · simp only
      split <;> rfl
  · rfl

/-- **What a run keeps**: of each text, what `textValue` makes of it, in the order of the tokens. -/
theorem visibleUnits_htmlRun (tokens : List HtmlToken) :
    visibleUnits (htmlRun sanitizeHtml appendText [] tokens) =
      tokens.flatMap (tokenUnits sanitizeHtml) := by
  have hrun : ∀ (tokens : List HtmlToken) (s : HtmlState Text),
      ((tokens.map (action sanitizeHtml)).foldl (act appendText) s).units =
        s.units ++ tokens.flatMap (tokenUnits sanitizeHtml) := by
    intro tokens
    induction tokens with
    | nil => exact fun s => (List.append_nil _).symm
    | cons token tokens ih =>
      intro s
      rw [List.map_cons, List.foldl_cons, ih, units_act, units_action, List.flatMap_cons,
        List.append_assoc]
  have hfinal : ∀ s : HtmlState Text, visibleUnits (flush appendText s).out = s.units := by
    intro s
    rw [← units_flush, HtmlState.units]
    have hempty : (flush appendText s).buffer = [] := by
      unfold flush
      simp only
      split <;> rfl
    rw [hempty, List.append_nil]
  rw [htmlRun_eq, hfinal, hrun]
  rfl

/-! ### Escaped texts -/

/-- How the sanitizer writes a character: `&`, `<` and `>` as references. -/
def escapeHtmlUnit (c : ℕ) : Text :=
  if c = 38 then asciiText "&amp;"
  else if c = 60 then asciiText "&lt;"
  else if c = 62 then asciiText "&gt;"
  else [c]

/-- How the sanitizer writes a text. -/
def escapeHtml (t : Text) : Text := t.flatMap escapeHtmlUnit

/-- A character that markup escapes. -/
def isMarkupUnit (c : ℕ) : Bool := c = 38 || c = 60 || c = 62

/-- A text of which each code unit becomes itself or more than one is unchanged only where all are
themselves. -/
theorem flatMap_eq_self_iff {e : ℕ → Text} (he : ∀ c, e c = [c] ∨ 1 < (e c).length) :
    t.flatMap e = t ↔ ∀ c ∈ t, e c = [c] := by
  have hlength : ∀ t : Text, t.length ≤ (t.flatMap e).length := by
    intro t
    induction t with
    | nil => exact le_rfl
    | cons c t ih =>
      have hc : 1 ≤ (e c).length := by
        rcases he c with h | h
        · rw [h, List.length_singleton]
        · omega
      rw [List.flatMap_cons, List.length_append, List.length_cons]
      omega
  induction t with
  | nil => simp
  | cons c t ih =>
    rw [List.flatMap_cons, List.forall_mem_cons]
    rcases he c with h | h
    · rw [h, List.singleton_append, List.cons.injEq]
      exact and_congr (iff_of_true rfl rfl) ih
    · refine iff_of_false ?_ ?_
      · intro heq
        have hlen := congrArg List.length heq
        rw [List.length_append, List.length_cons] at hlen
        have := hlength t
        omega
      · rintro ⟨hself, -⟩
        rw [hself] at h
        exact absurd h (by simp)

theorem escapeHtmlUnit_eq_iff {c : ℕ} : escapeHtmlUnit c = [c] ↔ isMarkupUnit c = false := by
  unfold escapeHtmlUnit isMarkupUnit
  split
  · rename_i h
    subst h
    decide
  split
  · rename_i h
    subst h
    decide
  split
  · rename_i h
    subst h
    decide
  · simp_all

theorem escapeHtmlUnit_length (c : ℕ) : escapeHtmlUnit c = [c] ∨ 1 < (escapeHtmlUnit c).length := by
  unfold escapeHtmlUnit
  split
  · exact .inr (by decide)
  split
  · exact .inr (by decide)
  split
  · exact .inr (by decide)
  · exact .inl rfl

theorem visibleUnits_escapeHtml : visibleUnits (escapeHtml t) = (visibleUnits t).flatMap escapeHtmlUnit := by
  induction t with
  | nil => rfl
  | cons c t ih =>
    have hcons : visibleUnits (c :: t) = visibleUnits [c] ++ visibleUnits t :=
      visibleUnits_append (t := [c])
    have hunit : visibleUnits (escapeHtmlUnit c) = (visibleUnits [c]).flatMap escapeHtmlUnit := by
      unfold escapeHtmlUnit
      split
      · rename_i h
        subst h
        decide
      split
      · rename_i h
        subst h
        decide
      split
      · rename_i h
        subst h
        decide
      · rename_i h₁ h₂ h₃
        by_cases hc : isSpaceUnit c = true
        · simp [visibleUnits, hc]
        · simp [visibleUnits, hc, h₁, h₂, h₃]
    rw [hcons, List.flatMap_append, ← ih, ← hunit, ← visibleUnits_append]
    rfl

/-! ### The text of a document -/

/-- The text that a reader sees: the texts between the tags, with their references decoded. -/
def shownText (decode : Text → Text) (sanitized : Text) : Text :=
  (htmlTokens sanitized).flatMap fun
    | .tag _ => []
    | .text value => decode value

theorem no_tag_in_text {sanitized value : Text} (h : HtmlToken.text value ∈ htmlTokens sanitized) :
    ∀ c ∈ value, c ≠ 60 := by
  rcases Pattern.mem_matchAll h with ⟨place, found, hfound⟩
  rcases List.mem_append.mp hfound with hfound | hfound
  · rcases Pattern.mem_bind.mp hfound with ⟨r, -, hr⟩
    rcases Pattern.mem_bind.mp hr with ⟨r', -, hr'⟩
    rcases Pattern.mem_bind.mp hr' with ⟨r'', -, hr''⟩
    have := Pattern.mem_pure.mp hr''
    simp at this
  · rcases Pattern.mem_bind.mp hfound with ⟨r, hmany, hr⟩
    have hvalue := (Prod.mk.inj (Pattern.mem_pure.mp hr)).1
    rw [HtmlToken.text.injEq] at hvalue
    rw [hvalue]
    intro c hc
    simpa using (Pattern.mem_many hmany).2.1 c hc

/-- The texts of the drafts are those of the run. -/
theorem structuredBlocks_text (sanitizeHtml : HtmlSanitizer) (sanitized : Text) :
    (structuredBlocks sanitizeHtml sanitized).flatMap (·.text) =
      htmlRun sanitizeHtml appendText [] (htmlTokens sanitized) := by
  let R : List BlockDraft × SectionStack → Text → Prop := fun state out =>
    state.1.flatMap (·.text) = out
  have hpush : ∀ state out block, (∀ n ∈ block.headingLevel, 1 ≤ n) → R state out →
      R (pushDraft state block) (appendText out block) := by
    rintro ⟨drafts, stack⟩ out block - hout
    have hdrafts : drafts.flatMap (·.text) = out := hout
    show (pushDraft (drafts, stack) block).1.flatMap (·.text) = out ++ block.text
    rw [← hdrafts]
    simp [pushDraft]
  have hrun : R (htmlRun sanitizeHtml pushDraft ([], []) (htmlTokens sanitized))
      (htmlRun sanitizeHtml appendText [] (htmlTokens sanitized)) :=
    htmlRun_rel hpush rfl (htmlTokens sanitized)
  exact hrun

/-- **When the blocks have the text of the document.**  `decode` is what a browser makes of the
references in a text; a sanitizer without allowed tags decodes a text and escapes it again.  All that
a reader sees is in the blocks once and in its order, and it is there as text exactly where nothing
that is seen is a character that markup escapes. -/
theorem html_text_iff {sanitizeHtml : HtmlSanitizer} {decode : Text → Text}
    (hsanitize : ∀ value : Text, (∀ c ∈ value, c ≠ 60) →
      sanitizeHtml { allowedTags := [], allowedAttributes := [] } value = escapeHtml (decode value))
    (sanitized : Text) :
    visibleUnits ((structuredBlocks sanitizeHtml sanitized).flatMap (·.text)) =
        visibleUnits (shownText decode sanitized) ↔
      ∀ c ∈ shownText decode sanitized, isMarkupUnit c = false := by
  have hblocks : visibleUnits ((structuredBlocks sanitizeHtml sanitized).flatMap (·.text)) =
      (visibleUnits (shownText decode sanitized)).flatMap escapeHtmlUnit := by
    rw [structuredBlocks_text, visibleUnits_htmlRun, ← visibleUnits_escapeHtml, shownText]
    have htext := fun value => @no_tag_in_text sanitized value
    generalize htmlTokens sanitized = tokens at htext
    induction tokens with
    | nil => rfl
    | cons token tokens ih =>
      have hrest := ih fun value h => htext value (List.mem_cons_of_mem _ h)
      rw [List.flatMap_cons, List.flatMap_cons, hrest]
      rcases token with content | value
      · rfl
      · simp only [tokenUnits, textValue]
        rw [hsanitize value (htext value List.mem_cons_self), ← visibleUnits_append]
        unfold escapeHtml
        rw [List.flatMap_append]
  rw [hblocks, flatMap_eq_self_iff escapeHtmlUnit_length]
  constructor
  · intro h c hc
    by_cases hspace : isSpaceUnit c = true
    · -- no character that markup escapes is white space
      unfold isMarkupUnit
      by_contra hmarkup
      simp only [Bool.not_eq_false, Bool.or_eq_true, decide_eq_true_eq] at hmarkup
      rcases hmarkup with (rfl | rfl) | rfl <;> exact absurd hspace (by decide)
    · exact escapeHtmlUnit_eq_iff.mp (h c (List.mem_filter.mpr ⟨hc, by simpa using hspace⟩))
  · intro h c hc
    exact escapeHtmlUnit_eq_iff.mpr (h c (List.mem_filter.mp hc).1)

/-- A sanitizer that decodes the references of the DOCX extractor and escapes the text again. -/
def exampleSanitizer : HtmlSanitizer := fun _ value => escapeHtml (decodeEntities value)

/-- A text without references is extracted as it is seen. -/
theorem plain_text_kept :
    visibleUnits ((structuredBlocks exampleSanitizer (asciiText "<p>One <b>word</b></p>")).flatMap
      (·.text)) = visibleUnits (shownText decodeEntities (asciiText "<p>One <b>word</b></p>")) :=
  (html_text_iff (fun _ _ => rfl) _).mpr (by decide +kernel)

/-- **A character that stays escaped.**  A reader sees `AT&T`, and the block has the reference. -/
theorem ampersand_stays_escaped :
    (structuredBlocks exampleSanitizer (asciiText "<p>AT&amp;T</p>")).map (·.text) =
        [asciiText "AT&amp;T"] ∧
      shownText decodeEntities (asciiText "<p>AT&amp;T</p>") = asciiText "AT&T" ∧
      visibleUnits ((structuredBlocks exampleSanitizer (asciiText "<p>AT&amp;T</p>")).flatMap
        (·.text)) ≠ visibleUnits (shownText decodeEntities (asciiText "<p>AT&amp;T</p>")) := by
  decide +kernel

end ResearchWorkbench.Extraction
