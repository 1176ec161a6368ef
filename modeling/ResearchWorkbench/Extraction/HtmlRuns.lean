import ResearchWorkbench.Services.HtmlBlocks

namespace ResearchWorkbench.Extraction

open Chunking

/-!
# Runs over the tokens of an HTML document

What a token does to the variables of `structuredBlocks`, said once.

* `HtmlAction`, `action`, `act` — what a token asks for, whatever the state is, and what becomes of
  the state; `htmlStep_eq`;
* `htmlRun_eq` — a run as its actions;
* `htmlRun_rel` — two runs over the same tokens that do different things with a block.
-/

/-- What a token asks for. -/
inductive HtmlAction
  /-- A text, or a line break as a text. -/
  | append (value : Text)
  /-- The opening tag of a heading. -/
  | heading (level : ℕ)
  /-- The closing tag of a heading. -/
  | headingEnd
  /-- A tag of a block; `row` is for `tr`. -/
  | block (row closing : Bool)
  /-- The closing tag of a cell. -/
  | cellEnd
  /-- Any other tag. -/
  | ignored
  deriving DecidableEq, Repr

/-- What a token asks for. -/
def action (sanitizeHtml : HtmlSanitizer) : HtmlToken → HtmlAction
  | .text value => .append (textValue sanitizeHtml value)
  | .tag content =>
    match closingTag content <|> openingTag content with
    | none => .ignored
    | some tag =>
      match headingTag tag with
      | some level =>
        if (openingTag content).isSome ∧ (closingTag content).isNone then .heading level
        else .headingEnd
      | none =>
        if tag ∈ blockTags then .block (tag = asciiText "tr") (closingTag content).isSome
        else if (tag = asciiText "td" ∨ tag = asciiText "th") ∧ (closingTag content).isSome then
          .cellEnd
        else if tag = asciiText "br" then .append [10]
        else .ignored

variable {σ τ : Type}

/-- What becomes of the state. -/
def act (push : σ → FoundBlock → σ) (s : HtmlState σ) : HtmlAction → HtmlState σ
  | .append value => { s with buffer := s.buffer ++ value }
  | .heading level => { flush push s with kind := .heading, headingLevel := some level }
  | .headingEnd => flush push s
  | .block row closing =>
    let s' := if closing = true ∨ trimText s.buffer ≠ [] then flush push s else s
    if row then { s' with kind := .table } else s'
  | .cellEnd => { s with buffer := s.buffer ++ [9], kind := .table }
  | .ignored => s

variable {sanitizeHtml : HtmlSanitizer} {push : σ → FoundBlock → σ} {push' : τ → FoundBlock → τ}
  {s : HtmlState σ} {t : HtmlState τ}

/-- **What a token does.** -/
theorem htmlStep_eq (token : HtmlToken) :
    htmlStep sanitizeHtml push s token = act push s (action sanitizeHtml token) := by
  rcases token with content | value
  · unfold htmlStep action
    simp only
    generalize closingTag content = closing
    generalize openingTag content = opening
    rcases closing <|> opening with _ | tag
    · rfl
    simp only
    rcases headingTag tag with _ | level
    · simp only
      split
      · -- a block: its closing tag always ends a block, its opening tag where there is text
        rcases closing with _ | name
        · by_cases hrow : tag = asciiText "tr"
          · by_cases htext : trimText s.buffer ≠ [] <;> simp [act, hrow, htext]
          · by_cases htext : trimText s.buffer ≠ [] <;> simp [act, hrow, htext]
        · by_cases hrow : tag = asciiText "tr" <;> simp [act, hrow]
      split
      · rfl
      split
      · rfl
      · rfl
    · simp only
      split
      · rfl
      · rfl
  · rfl

/-- A run as its actions. -/
theorem htmlRun_eq (out : σ) (tokens : List HtmlToken) :
    htmlRun sanitizeHtml push out tokens =
      (flush push ((tokens.map (action sanitizeHtml)).foldl (act push) { out })).out := by
  unfold htmlRun
  rw [List.foldl_map]
  congr 3
  funext s token
  exact htmlStep_eq token

theorem headingTag_pos {tag : Text} {level : ℕ} (h : headingTag tag = some level) : 1 ≤ level := by
  unfold headingTag at h
  split at h
  · have := Option.some.inj h
    omega
  · cases h

/-- A heading has a level of at least 1. -/
theorem action_heading {token : HtmlToken} {level : ℕ}
    (h : action sanitizeHtml token = .heading level) : 1 ≤ level := by
  unfold action at h
  rcases token with content | value
  · simp only at h
    generalize closingTag content = closing at h
    generalize openingTag content = opening at h
    rcases hname : closing <|> opening with _ | tag
    · rw [hname] at h
      cases h
    rw [hname] at h
    simp only at h
    cases hheading : headingTag tag with
    | some n =>
      rw [hheading] at h
      simp only at h
      split at h
      · cases h
        exact headingTag_pos hheading
      · cases h
    | none =>
      rw [hheading] at h
      simp only at h
      split at h
      · cases h
      split at h
      · cases h
      split at h <;> cases h
  · cases h

/-! ### Two runs over the same tokens -/

/-- The same variables, apart from what `flush` keeps; a level is at least 1. -/
structure SameLoop (R : σ → τ → Prop) (s : HtmlState σ) (t : HtmlState τ) : Prop where
  out : R s.out t.out
  buffer : s.buffer = t.buffer
  kind : s.kind = t.kind
  headingLevel : s.headingLevel = t.headingLevel
  level_pos : ∀ n ∈ s.headingLevel, 1 ≤ n

variable {R : σ → τ → Prop}

section

variable (hpush : ∀ out out' block, (∀ n ∈ block.headingLevel, 1 ≤ n) →
  R out out' → R (push out block) (push' out' block))

include hpush

theorem SameLoop.flush (h : SameLoop R s t) : SameLoop R (flush push s) (flush push' t) := by
  unfold Extraction.flush
  simp only
  rw [← h.buffer]
  split
  · exact ⟨h.out, rfl, h.kind, h.headingLevel, h.level_pos⟩
  · refine ⟨?_, rfl, rfl, rfl, fun n hn => absurd hn (by simp)⟩
    rw [← h.kind, ← h.headingLevel]
    exact hpush _ _ _ h.level_pos h.out

theorem SameLoop.act (h : SameLoop R s t) (token : HtmlToken) :
    SameLoop R (act push s (action sanitizeHtml token)) (act push' t (action sanitizeHtml token)) := by
  have hflush := h.flush hpush
  have hlevel : ∀ level, action sanitizeHtml token = .heading level → 1 ≤ level :=
    fun level => action_heading
  generalize action sanitizeHtml token = a at hlevel
  cases a with
  | append value =>
    exact ⟨h.out, congrArg (· ++ value) h.buffer, h.kind, h.headingLevel, h.level_pos⟩
  | heading level =>
    refine ⟨hflush.out, hflush.buffer, rfl, rfl, fun n hn => ?_⟩
    rw [← Option.some.inj hn]
    exact hlevel level rfl
  | headingEnd => exact hflush
  | block row closing =>
    have hblock : SameLoop R
        (if closing = true ∨ trimText s.buffer ≠ [] then Extraction.flush push s else s)
        (if closing = true ∨ trimText t.buffer ≠ [] then Extraction.flush push' t else t) := by
      rw [← h.buffer]
      split
      · exact hflush
      · exact h
    unfold Extraction.act
    simp only
    split
    · exact ⟨hblock.out, hblock.buffer, rfl, hblock.headingLevel, hblock.level_pos⟩
    · exact hblock
  | cellEnd =>
    exact ⟨h.out, congrArg (· ++ [9]) h.buffer, rfl, h.headingLevel, h.level_pos⟩
  | ignored => exact h

/-- **Two runs over the same tokens** come to the same blocks. -/
theorem htmlRun_rel {out : σ} {out' : τ} (h : R out out') (tokens : List HtmlToken) :
    R (htmlRun sanitizeHtml push out tokens) (htmlRun sanitizeHtml push' out' tokens) := by
  have hstart : SameLoop R { out } { out := out' } :=
    ⟨h, rfl, rfl, rfl, fun n hn => absurd hn (by simp)⟩
  rw [htmlRun_eq, htmlRun_eq]
  generalize ({ out } : HtmlState σ) = s at hstart
  generalize ({ out := out' } : HtmlState τ) = t at hstart
  induction tokens generalizing s t with
  | nil => exact (hstart.flush hpush).out
  | cons token tokens ih =>
    rw [List.map_cons, List.foldl_cons, List.foldl_cons]
    exact ih _ _ (hstart.act hpush token)

end

end ResearchWorkbench.Extraction
