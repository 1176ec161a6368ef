import Mathlib.Algebra.GroupWithZero.Nat
import ResearchWorkbench.Library.Regex

namespace ResearchWorkbench

/-!
# External content

`lib/security/content.ts`, on texts as lists of UTF-16 code units.

* `HtmlSanitizer`, `sanitizeExternalHtml`, `externalHtmlToText` — HTML and what is left of it as a
  text;
* `promptInjectionPatterns`, `assessPromptInjection` — the signs of a prompt injection;
* `toWellFormed` — what the database makes of a text, which is not assessed otherwise:
  `assessPromptInjection_toWellFormed`.
-/

/-- A string as its code units. -/
abbrev Text := List ℕ

/-- Texts are compared unit by unit. -/
instance instLawfulBEqText : LawfulBEq Text := inferInstanceAs (LawfulBEq (List ℕ))

/-- The code units of an ASCII string. -/
def asciiText (s : String) : Text := s.toList.map Char.toNat

/-- `\s`. -/
def isSpaceUnit (c : ℕ) : Bool :=
  (9 ≤ c && c ≤ 13) || c = 32 || c = 0xA0 || c = 0x1680 || (0x2000 ≤ c && c ≤ 0x200A) ||
    c = 0x2028 || c = 0x2029 || c = 0x202F || c = 0x205F || c = 0x3000 || c = 0xFEFF

/-! ### HTML -/

/-- The options of `sanitizeHtml`; `linkRel` is the `rel` that `transformTags` gives every link. -/
structure SanitizeHtmlOptions where
  allowedTags : List String
  allowedAttributes : List (String × List String)
  allowedSchemes : Option (List String) := none
  allowProtocolRelative : Option Bool := none
  disallowedTagsMode : Option String := none
  enforceHtmlBoundary : Option Bool := none
  linkRel : Option String := none

/-- The package `sanitize-html`. -/
abbrev HtmlSanitizer := SanitizeHtmlOptions → Text → Text

/-- `RESEARCH_HTML_TAGS`. -/
def researchHtmlTags : List String :=
  ["a", "b", "blockquote", "br", "caption", "code", "dd", "del", "div", "dl", "dt", "em", "h1", "h2",
    "h3", "h4", "h5", "h6", "hr", "i", "li", "ol", "p", "pre", "s", "span", "strong", "sub", "sup",
    "table", "tbody", "td", "th", "thead", "tr", "u", "ul"]

/-- `sanitizeExternalHtml(value)`. -/
def sanitizeExternalHtml (sanitizeHtml : HtmlSanitizer) (value : Text) : Text :=
  sanitizeHtml
    { allowedTags := researchHtmlTags
      allowedAttributes := [("a", ["href", "title", "rel"])]
      allowedSchemes := some ["http", "https", "mailto"]
      allowProtocolRelative := some false
      disallowedTagsMode := some "discard"
      enforceHtmlBoundary := some true
      linkRel := some "noopener noreferrer nofollow" }
    value

/-- The closing tags of blocks. -/
def closingBlockTag : Regex :=
  .sequence [.literal "</",
    .anyOf [.literal "blockquote", .literal "caption", .literal "dd", .literal "div",
      .literal "dl", .literal "dt", .seq (.literal "h") (.unit fun c => 49 ≤ c && c ≤ 54),
      .literal "li", .literal "ol", .literal "p", .literal "pre", .literal "table",
      .literal "tbody", .literal "td", .literal "th", .literal "thead", .literal "tr",
      .literal "ul"],
    .literal ">"]

/-- `value.trim()`. -/
def trimText (value : Text) : Text :=
  ((value.dropWhile isSpaceUnit).reverse.dropWhile isSpaceUnit).reverse

/-- `externalHtmlToText(value)`. -/
def externalHtmlToText (sanitizeHtml : HtmlSanitizer) (value : Text) : Text :=
  let sanitized := closingBlockTag.replaceAll (asciiText " ") (sanitizeExternalHtml sanitizeHtml value)
  trimText ((Regex.many isSpaceUnit 1 none).replaceAll (asciiText " ")
    (sanitizeHtml { allowedTags := [], allowedAttributes := [] } sanitized))

/-! ### Prompt injections -/

/-- A sign of a prompt injection. -/
structure PromptInjectionPattern where
  id : String
  weight : ℕ
  pattern : Regex

/-- Whole words, `.{0,n}`, and whole words. -/
def wordsWithin (first second : Regex) (n : ℕ) : Regex :=
  .sequence [.boundary, first, .boundary, .many (fun _ => true) 0 (some n), .boundary, second,
    .boundary]

/-- The word, with or without an `s` at its end. -/
def plural (word : String) : Regex :=
  .seq (.literal word) (.many (fun c => lowerUnit c = 115) 0 (some 1))

/-- `PROMPT_INJECTION_PATTERNS`. -/
def promptInjectionPatterns : List PromptInjectionPattern :=
  [ { id := "instruction_override"
      weight := 3
      pattern := wordsWithin
        (.anyOf [.literal "ignore", .literal "disregard", .literal "forget", .literal "override"])
        (.anyOf [.literal "previous", .literal "prior", .literal "system", .literal "developer",
          plural "instruction", plural "rule", .literal "prompt"]) 48 },
    { id := "role_reassignment"
      weight := 2
      pattern := .sequence [.boundary,
        .anyOf [.literal "you are now", .literal "act as", .literal "new role",
          plural "switch role"], .boundary] },
    { id := "secret_exfiltration"
      weight := 3
      pattern := wordsWithin
        (.anyOf [.literal "reveal", .literal "print", .literal "return", .literal "send",
          .literal "exfiltrate", .literal "show"])
        (.anyOf [.literal "secret", .literal "token", .literal "password",
          .sequence [.literal "api", .many (fun c => c = 32 || c = 95 || c = 45) 0 (some 1),
            .literal "key"],
          .literal "credential", .literal "system prompt"]) 48 },
    { id := "system_prompt_probe"
      weight := 2
      pattern := .sequence [.boundary, .anyOf [.literal "system", .literal "developer"],
        .many isSpaceUnit 1 none,
        .anyOf [.literal "message", .literal "prompt", plural "instruction"], .boundary] },
    { id := "tool_execution"
      weight := 2
      pattern := wordsWithin
        (.anyOf [.literal "call", .literal "invoke", .literal "execute", .literal "run"])
        (.anyOf [.literal "tool", .literal "function", .literal "shell", .literal "command",
          .literal "browser"]) 32 },
    { id := "jailbreak_marker"
      weight := 2
      pattern := .sequence [.boundary,
        .anyOf [.literal "jailbreak", .literal "do anything now", .literal "DAN mode",
          .literal "bypass safety"], .boundary] },
    { id := "model_control_token"
      weight := 3
      pattern := .sequence [.literal "<|",
        .anyOf [.literal "system", .literal "assistant", .literal "developer", .literal "im_start",
          .literal "im_end"],
        .many (fun c => c ≠ 62) 0 none, .literal "|>"] } ]

/-- `PromptInjectionAssessment`. -/
structure PromptInjectionAssessment where
  flagged : Bool
  score : ℕ
  indicators : List String
  deriving DecidableEq, Repr

/-- `assessPromptInjection(value)`. -/
def assessPromptInjection (value : Text) : PromptInjectionAssessment :=
  let indicators := promptInjectionPatterns.filter (·.pattern.test value)
  let score := (indicators.map (·.weight)).sum
  { flagged := 2 ≤ score, score, indicators := indicators.map (·.id) }

/-! ### Trimmed texts -/

section

variable {t u : Text}

/-- The text has no white space at its ends. -/
def IsTrimmed (t : Text) : Prop := trimText t = t

theorem dropWhile_of_head {p : ℕ → Bool} {c : ℕ} {l : Text} (h : p c = false) :
    (c :: l).dropWhile p = c :: l := by
  rw [List.dropWhile_cons, h]
  rfl

theorem isTrimmed_nil : IsTrimmed [] := rfl

/-- A text whose ends are no white space. -/
theorem isTrimmed_of_ends {c d : ℕ} {m : Text} (hc : isSpaceUnit c = false)
    (hd : isSpaceUnit d = false) (h : t = c :: m) (h' : ∃ n, t = n ++ [d]) : IsTrimmed t := by
  rcases h' with ⟨n, hn⟩
  unfold IsTrimmed trimText
  rw [h, dropWhile_of_head hc, ← h, hn, List.reverse_concat, dropWhile_of_head hd,
    List.reverse_cons, List.reverse_reverse]

/-- What is left after the white space at the front does not begin with white space. -/
theorem dropWhile_eq_cons {p : ℕ → Bool} {c : ℕ} {l m : Text} (h : l.dropWhile p = c :: m) :
    p c = false := by
  have hc := List.head_dropWhile_not p (l := l) (by rw [h]; exact List.cons_ne_nil c m)
  simp only [h, List.head_cons] at hc
  simpa using hc

/-- A trimmed text is empty, or its ends are no white space. -/
theorem IsTrimmed.ends (h : IsTrimmed t) (hne : t ≠ []) :
    ∃ c m d n, t = c :: m ∧ t = n ++ [d] ∧ isSpaceUnit c = false ∧ isSpaceUnit d = false := by
  have hfront := List.dropWhile_suffix isSpaceUnit (l := t)
  have hback := List.dropWhile_suffix isSpaceUnit (l := (t.dropWhile isSpaceUnit).reverse)
  have hlength : t.length =
      ((t.dropWhile isSpaceUnit).reverse.dropWhile isSpaceUnit).length := by
    have hreverse := congrArg List.length h.symm
    rwa [trimText, List.length_reverse] at hreverse
  have hle := hback.length_le
  rw [List.length_reverse] at hle
  have hdrop : t.dropWhile isSpaceUnit = t :=
    hfront.eq_of_length_le (by omega)
  rw [hdrop] at hback hlength
  have hdrop' : t.reverse.dropWhile isSpaceUnit = t.reverse :=
    hback.eq_of_length (by rw [List.length_reverse]; exact hlength.symm)
  rcases List.exists_cons_of_ne_nil hne with ⟨c, m, hcm⟩
  rcases List.exists_cons_of_ne_nil (List.reverse_ne_nil_iff.mpr hne) with ⟨d, n, hdn⟩
  refine ⟨c, m, d, n.reverse, hcm, ?_, dropWhile_eq_cons (hdrop.trans hcm),
    dropWhile_eq_cons (hdrop'.trans hdn)⟩
  rw [← List.reverse_reverse t, hdn, List.reverse_cons]

theorem isTrimmed_trimText (t : Text) : IsTrimmed (trimText t) := by
  cases hback : (t.dropWhile isSpaceUnit).reverse.dropWhile isSpaceUnit with
  | nil =>
    have hnil : trimText t = [] := by rw [trimText, hback]; rfl
    rw [hnil]
    exact isTrimmed_nil
  | cons d n =>
    have htrim : trimText t = n.reverse ++ [d] := by rw [trimText, hback, List.reverse_cons]
    -- the trimmed text begins as the text without its front does
    have hprefix : trimText t <+: t.dropWhile isSpaceUnit := by
      rw [trimText, ← List.reverse_suffix, List.reverse_reverse]
      exact List.dropWhile_suffix isSpaceUnit
    rcases List.exists_cons_of_ne_nil (l := trimText t) (by rw [htrim]; simp) with ⟨c, m, hcm⟩
    rcases hprefix with ⟨rest, hrest⟩
    rw [hcm, List.cons_append] at hrest
    exact isTrimmed_of_ends (dropWhile_eq_cons hrest.symm) (dropWhile_eq_cons hback) hcm
      ⟨_, htrim⟩

/-- A text between two trimmed ones. -/
theorem IsTrimmed.append (ht : IsTrimmed t) (ht' : t ≠ []) (hu : IsTrimmed u) (hu' : u ≠ [])
    (m : Text) : IsTrimmed (t ++ m ++ u) := by
  rcases ht.ends ht' with ⟨c, m', _, _, rfl, _, hc, _⟩
  rcases hu.ends hu' with ⟨_, _, d, n, _, rfl, _, hd⟩
  refine isTrimmed_of_ends (m := m' ++ m ++ (n ++ [d])) hc hd rfl ⟨c :: m' ++ m ++ n, ?_⟩
  simp

end

/-! ### Stored texts -/

/-- A text as UTF-8 gives it back: a half without the other becomes U+FFFD. -/
def toWellFormed : Text → Text
  | [] => []
  | [c] => if isHighSurrogate c || isLowSurrogate c then [0xFFFD] else [c]
  | c :: d :: rest =>
    if isHighSurrogate c && isLowSurrogate d then c :: d :: toWellFormed rest
    else (if isHighSurrogate c || isLowSurrogate c then 0xFFFD else c) :: toWellFormed (d :: rest)

/-- A code unit and what is stored for it. -/
def StoredUnit (c d : ℕ) : Prop := c = d ∨ (0xD800 ≤ c ∧ c ≤ 0xDFFF) ∧ d = 0xFFFD

theorem storedUnit_single (c : ℕ) :
    StoredUnit c (if isHighSurrogate c || isLowSurrogate c then 0xFFFD else c) := by
  split
  · rename_i h
    simp only [isHighSurrogate, isLowSurrogate, Bool.or_eq_true, Bool.and_eq_true,
      decide_eq_true_eq] at h
    exact .inr ⟨by omega, rfl⟩
  · exact .inl rfl

theorem toWellFormed_stored : ∀ value : Text, List.Forall₂ StoredUnit value (toWellFormed value)
  | [] => .nil
  | [c] => by
    have hc := storedUnit_single c
    rw [toWellFormed]
    split <;> rename_i h
    · rw [if_pos h] at hc
      exact .cons hc .nil
    · rw [if_neg h] at hc
      exact .cons hc .nil
  | c :: d :: rest => by
    rw [toWellFormed]
    split
    · exact .cons (.inl rfl) (.cons (.inl rfl) (toWellFormed_stored rest))
    · exact .cons (storedUnit_single c) (toWellFormed_stored (d :: rest))

/-- A class that holds of U+FFFD exactly if it holds of the halves of surrogate pairs. -/
theorem respects_class {f : ℕ → Bool} (h : ∀ c, 0xD800 ≤ c → c ≤ 0xDFFF → f c = f 0xFFFD) :
    ∀ c d, StoredUnit c d → f c = f d := by
  rintro c d (rfl | ⟨hc, rfl⟩)
  · rfl
  · exact h c hc.1 hc.2

theorem lowerUnit_of_le {c : ℕ} (h : 91 ≤ c) : lowerUnit c = c := by
  unfold lowerUnit
  rw [if_neg (by omega)]

/-- The word has only ASCII characters. -/
def isAscii (word : String) : Bool := word.toList.all (·.toNat < 128)

/-- ASCII words do not occur in what is replaced. -/
theorem literal_stored {word : String} (hword : isAscii word = true) :
    (Regex.literal word).Respects StoredUnit := by
  have h : ∀ k ∈ word.toList, k.toNat < 128 := by
    simpa only [isAscii, List.all_eq_true, decide_eq_true_eq] using hword
  refine Regex.literal_respects ?_
  rintro k hk c d (rfl | ⟨hc, rfl⟩)
  · rfl
  · have hlower : lowerUnit k.toNat < 160 := by
      have := h k hk
      unfold lowerUnit
      split <;> omega
    have hc' : lowerUnit c = c := lowerUnit_of_le (by omega)
    have hd : lowerUnit 0xFFFD = 0xFFFD := rfl
    rw [hc', hd]
    exact iff_of_false (by omega) (by omega)

theorem boundary_stored : Regex.boundary.Respects StoredUnit :=
  respects_class fun c _ _ => by
    simp only [isWordUnit]
    have h₁ : ¬ c ≤ 57 := by omega
    have h₂ : ¬ c ≤ 90 := by omega
    have h₃ : ¬ c ≤ 122 := by omega
    have h₄ : c ≠ 95 := by omega
    simp [h₁, h₂, h₃, h₄]

theorem isSpaceUnit_stored : ∀ c d, StoredUnit c d → isSpaceUnit c = isSpaceUnit d :=
  respects_class fun c h h' => by
    unfold isSpaceUnit
    have h₁ : ¬ c ≤ 13 := by omega
    have h₂ : ¬ c ≤ 0x200A := by omega
    have h₃ : c ≠ 0xFEFF := by omega
    have h₄ : c ∉ [32, 0xA0, 0x1680, 0x2028, 0x2029, 0x202F, 0x205F, 0x3000] := by
      simp only [List.mem_cons, List.not_mem_nil, or_false]
      omega
    simp only [List.mem_cons, List.not_mem_nil, or_false, not_or] at h₄
    simp [h₁, h₂, h₃, h₄]

theorem plural_stored {word : String} (h : isAscii word = true) :
    (plural word).Respects StoredUnit := by
  refine ⟨literal_stored h, respects_class fun c h h' => ?_⟩
  have hc : lowerUnit c = c := lowerUnit_of_le (by omega)
  have hd : lowerUnit 0xFFFD = 0xFFFD := rfl
  rw [hc, hd, decide_eq_decide]
  omega

theorem wordsWithin_stored {first second : Regex} {n : ℕ} (h₁ : first.Respects StoredUnit)
    (h₂ : second.Respects StoredUnit) : (wordsWithin first second n).Respects StoredUnit :=
  ⟨boundary_stored, h₁, boundary_stored, fun _ _ _ => rfl, boundary_stored, h₂, boundary_stored,
    trivial⟩

theorem anyOf_stored (words : List String) (h : words.all isAscii = true) :
    (Regex.anyOf (words.map Regex.literal)).Respects StoredUnit := by
  refine Regex.anyOf_respects fun r hr => ?_
  rcases List.mem_map.mp hr with ⟨word, hword, rfl⟩
  exact literal_stored (List.all_eq_true.mp h word hword)

/-- No pattern tells a text from what is stored of it. -/
theorem promptInjectionPatterns_stored :
    ∀ item ∈ promptInjectionPatterns, item.pattern.Respects StoredUnit := by
  have hseparator : (Regex.many (fun c => c = 32 || c = 95 || c = 45) 0 (some 1)).Respects
      StoredUnit :=
    respects_class fun c h _ => by
      have h₁ : c ≠ 32 ∧ c ≠ 95 ∧ c ≠ 45 := by omega
      simp [h₁]
  simp only [promptInjectionPatterns, List.forall_mem_cons]
  refine ⟨wordsWithin_stored ?_ ?_, ⟨boundary_stored, ?_, boundary_stored, trivial⟩,
    wordsWithin_stored ?_ ?_, ⟨boundary_stored, ?_, isSpaceUnit_stored, ?_, boundary_stored, trivial⟩,
    wordsWithin_stored ?_ ?_, ⟨boundary_stored, ?_, boundary_stored, trivial⟩,
    ⟨literal_stored rfl, ?_, ?_, literal_stored rfl, trivial⟩, by simp⟩
  · exact anyOf_stored ["ignore", "disregard", "forget", "override"] rfl
  · refine Regex.anyOf_respects ?_
    simp only [List.forall_mem_cons]
    exact ⟨literal_stored rfl, literal_stored rfl, literal_stored rfl,
      literal_stored rfl, plural_stored rfl, plural_stored rfl,
      literal_stored rfl, by simp⟩
  · refine Regex.anyOf_respects ?_
    simp only [List.forall_mem_cons]
    exact ⟨literal_stored rfl, literal_stored rfl, literal_stored rfl,
      plural_stored rfl, by simp⟩
  · exact anyOf_stored ["reveal", "print", "return", "send", "exfiltrate", "show"] rfl
  · refine Regex.anyOf_respects ?_
    simp only [List.forall_mem_cons]
    exact ⟨literal_stored rfl, literal_stored rfl, literal_stored rfl,
      ⟨literal_stored rfl, hseparator, literal_stored rfl, trivial⟩,
      literal_stored rfl, literal_stored rfl, by simp⟩
  · exact anyOf_stored ["system", "developer"] rfl
  · refine Regex.anyOf_respects ?_
    simp only [List.forall_mem_cons]
    exact ⟨literal_stored rfl, literal_stored rfl, plural_stored rfl,
      by simp⟩
  · exact anyOf_stored ["call", "invoke", "execute", "run"] rfl
  · exact anyOf_stored ["tool", "function", "shell", "command", "browser"] rfl
  · exact anyOf_stored ["jailbreak", "do anything now", "DAN mode", "bypass safety"] rfl
  · exact anyOf_stored ["system", "assistant", "developer", "im_start", "im_end"] rfl
  · refine respects_class fun c h _ => ?_
    rw [decide_eq_decide]
    omega

/-- **Stored texts.**  What is stored of a text is assessed as the text is. -/
theorem assessPromptInjection_toWellFormed (value : Text) :
    assessPromptInjection (toWellFormed value) = assessPromptInjection value := by
  have hfilter : promptInjectionPatterns.filter (·.pattern.test (toWellFormed value)) =
      promptInjectionPatterns.filter (·.pattern.test value) :=
    List.filter_congr fun item hitem =>
      (Regex.test_congr (promptInjectionPatterns_stored item hitem) (toWellFormed_stored value)).symm
  simp only [assessPromptInjection, hfilter]

end ResearchWorkbench
