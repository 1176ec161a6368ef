import ResearchWorkbench.Services.DraftCitations

namespace ResearchWorkbench.Qa

/-!
# Brackets

The patterns for citations see the same brackets: a `[`, the next `]`, and what stands between and
behind.  The pattern of the quality check takes all of it, the one of the validator at most what
stands behind the last `[`, and only where no `(` follows.

* `BracketGroup`, `bracketGroups` — the brackets of a text;
* `text_cases` — a text up to its first `]`, and what follows;
* `bracketPattern_matchAll` — the quality check;
* `openBracket`, `withoutBrackets_append` — what is left of a text without its brackets;
* `namedId`, `BracketGroup.named`, `sourceIdPattern_matchAll` — the validator.
-/

/-! ### The brackets of a text -/

/-- What stands between a `[` and the next `]`, and the code unit behind that. -/
structure BracketGroup where
  content : Text
  next : Option ℕ
  deriving DecidableEq, Repr

/-- The brackets from a place on, given what was read since a `[`. -/
def bracketGroupsFrom : Option Text → Text → List BracketGroup
  | _, [] => []
  | none, c :: rest => bracketGroupsFrom (if c = 91 then some [] else none) rest
  | some content, c :: rest =>
    if c ≠ 93 then bracketGroupsFrom (some (content ++ [c])) rest
    else (if content = [] then [] else [⟨content, rest.head?⟩]) ++ bracketGroupsFrom none rest

/-- The brackets of a text; an empty one is none. -/
def bracketGroups (text : Text) : List BracketGroup := bracketGroupsFrom none text

variable {s t rest content : Text} {b : Option ℕ} {c : ℕ} {id : Text}

theorem bracketGroupsFrom_none (h : 91 ∉ s) :
    bracketGroupsFrom none (s ++ t) = bracketGroupsFrom none t := by
  induction s with
  | nil => rfl
  | cons c s ih =>
    rw [List.mem_cons, not_or] at h
    rw [List.cons_append, bracketGroupsFrom, if_neg (Ne.symm h.1), ih h.2]

theorem bracketGroupsFrom_some (h : 93 ∉ s) :
    bracketGroupsFrom (some content) (s ++ t) = bracketGroupsFrom (some (content ++ s)) t := by
  induction s generalizing content with
  | nil => rw [List.nil_append, List.append_nil]
  | cons c s ih =>
    rw [List.mem_cons, not_or] at h
    rw [List.cons_append, bracketGroupsFrom, if_pos (Ne.symm h.1), ih h.2, List.append_assoc,
      List.singleton_append]

/-- Without a `]` there is no bracket. -/
theorem bracketGroups_open (h : 93 ∉ s) : bracketGroups s = [] := by
  by_cases hopen : 91 ∈ s
  · rcases List.eq_append_cons_of_mem hopen with ⟨u, v, rfl, hu⟩
    rw [List.mem_append, List.mem_cons, not_or, not_or] at h
    rw [bracketGroups, bracketGroupsFrom_none hu, bracketGroupsFrom, if_pos rfl,
      ← List.append_nil v, bracketGroupsFrom_some h.2.2]
    rfl
  · rw [bracketGroups, ← List.append_nil s, bracketGroupsFrom_none hopen]
    rfl

/-- A `]` without a `[` before it. -/
theorem bracketGroups_unopened (h : 91 ∉ s) :
    bracketGroups (s ++ 93 :: rest) = bracketGroups rest := by
  rw [bracketGroups, bracketGroupsFrom_none h]
  rfl

/-- The first `[` up to the first `]`. -/
theorem bracketGroups_closed {u v : Text} (hu : 91 ∉ u) (hv : 93 ∉ v) :
    bracketGroups (u ++ 91 :: (v ++ 93 :: rest)) =
      (if v = [] then [] else [⟨v, rest.head?⟩]) ++ bracketGroups rest := by
  rw [bracketGroups, bracketGroupsFrom_none hu, bracketGroupsFrom, if_pos rfl,
    bracketGroupsFrom_some hv]
  rfl

/-- A text up to its first `]`, and what follows. -/
theorem text_cases {P : Text → Prop} (hopen : ∀ s, 93 ∉ s → P s)
    (hclosed : ∀ s rest, 93 ∉ s → P rest → P (s ++ 93 :: rest)) (text : Text) : P text := by
  generalize hn : text.length = n
  induction n using Nat.strongRecOn generalizing text with
  | _ n ih =>
    by_cases hmem : 93 ∈ text
    · rcases List.eq_append_cons_of_mem hmem with ⟨s, rest, rfl, hs⟩
      rw [List.length_append, List.length_cons] at hn
      exact hclosed s rest hs (ih rest.length (by omega) rest rfl)
    · exact hopen text hmem

/-- A match begins with a `[`. -/
def Opens {α : Type} (m : Pattern α) : Prop := ∀ b c rest, c ≠ 91 → m ⟨b, c :: rest⟩ = []

/-- What stands before a `[` is skipped. -/
theorem Opens.captures {α : Type} {m : Pattern α} (h : Opens m) (hs : 91 ∉ s) :
    ∃ b', m.capturesFrom ⟨b, s ++ t⟩ = m.capturesFrom ⟨b', t⟩ := by
  refine ⟨_, Pattern.capturesFrom_append_of_skips fun b u v huv hv => ?_⟩
  rcases List.exists_cons_of_ne_nil hv with ⟨c, v, rfl⟩
  refine h b c (v ++ t) ?_
  rintro rfl
  exact hs (huv ▸ List.mem_append_right u List.mem_cons_self)

/-! ### The quality check -/

theorem bracketPattern_opens : Opens bracketPattern := fun _ _ _ hc =>
  Pattern.unit_bind_of_neg (decide_eq_false hc)

theorem bracketPattern_consumes : bracketPattern.Consumes :=
  Pattern.Consumes.unit.bind fun _ => Pattern.Shrinks.many.bind fun _ =>
    Pattern.Consumes.unit.shrinks.bind fun _ => Pattern.Shrinks.pure _

/-- A bracket matches if it is closed and not empty. -/
theorem bracketPattern_closed (h : 93 ∉ s) : bracketPattern ⟨b, 91 :: (s ++ 93 :: rest)⟩ =
    if s = [] then [] else [(s, ⟨some 93, rest⟩)] := by
  unfold bracketPattern
  rw [Pattern.unit_bind_of_pos rfl, Pattern.many_unit (by simp) (fun c hc => ?_) rfl]
  · cases s with
    | nil => rfl
    | cons c s => rw [if_pos ⟨by simp, rfl⟩, if_neg (List.cons_ne_nil c s), Pattern.pure_apply]
  · exact decide_eq_true fun heq => h (heq ▸ hc)

theorem bracketPattern_open (h : 93 ∉ s) : bracketPattern ⟨b, 91 :: s⟩ = [] := by
  unfold bracketPattern
  rw [Pattern.unit_bind_of_pos rfl, ← List.append_nil s]
  refine Pattern.many_unit_nil (fun c hc => ?_) (Or.inl rfl)
  exact decide_eq_false fun heq => h (heq ▸ hc)

/-- **The quality check takes all brackets.** -/
theorem bracketPattern_matchAll (text : Text) :
    bracketPattern.matchAll text = (bracketGroups text).map (·.content) := by
  rw [Pattern.matchAll_eq_capturesFrom]
  generalize none = b
  induction text using text_cases generalizing b with
  | hopen s hs =>
    rw [bracketGroups_open hs, List.map_nil, ← List.append_nil s,
      Pattern.capturesFrom_append_of_skips, Pattern.capturesFrom_nil bracketPattern_consumes]
    intro b u v huv hv
    rcases List.exists_cons_of_ne_nil hv with ⟨c, v, rfl⟩
    rw [huv, List.mem_append, List.mem_cons, not_or, not_or] at hs
    by_cases hc : c = 91
    · rw [hc, List.cons_append, List.append_nil, bracketPattern_open hs.2.2]
    · exact bracketPattern_opens b c _ hc
  | hclosed s rest hs ih =>
    have hclose (b : Option ℕ) : bracketPattern.capturesFrom ⟨b, 93 :: rest⟩ =
        (bracketGroups rest).map (·.content) := by
      rw [Pattern.capturesFrom_skip (bracketPattern_opens b 93 rest (by decide)), ih]
    by_cases hopen : 91 ∈ s
    · rcases List.eq_append_cons_of_mem hopen with ⟨u, v, rfl, hu⟩
      rw [List.mem_append, List.mem_cons, not_or, not_or] at hs
      have hv : 93 ∉ v := hs.2.2
      rw [List.append_assoc, List.cons_append, bracketGroups_closed hu hv]
      rcases bracketPattern_opens.captures hu with ⟨b', hskip⟩
      rw [hskip]
      have hmatch := @bracketPattern_closed v rest b' hv
      by_cases hnil : v = []
      · rw [if_pos hnil] at hmatch ⊢
        rw [Pattern.capturesFrom_skip hmatch, hnil]
        exact hclose _
      · rw [if_neg hnil] at hmatch ⊢
        rw [Pattern.capturesFrom_found bracketPattern_consumes (by rw [hmatch]; rfl), ih]
        rfl
    · rw [bracketGroups_unopened hopen]
      rcases bracketPattern_opens.captures hopen with ⟨b', hskip⟩
      rw [hskip, hclose]

/-! ### What is left -/

/-- What was read since a `[` that is not closed yet. -/
def openBracket : Option Text → Text → Option Text
  | state, [] => state
  | none, c :: rest => openBracket (if c = 91 then some [] else none) rest
  | some content, c :: rest => openBracket (if c = 93 then none else some (content ++ [c])) rest

/-- A text without its brackets, given what was read since a `[`. -/
def outsideFrom : Option Text → Text → Text
  | none, [] => []
  | some content, [] => 91 :: content
  | none, c :: rest => if c = 91 then outsideFrom (some []) rest else c :: outsideFrom none rest
  | some content, c :: rest =>
    if c ≠ 93 then outsideFrom (some (content ++ [c])) rest
    else (if content = [] then [91, 93] else []) ++ outsideFrom none rest

variable {state : Option Text}

theorem openBracket_append : openBracket state (s ++ t) = openBracket (openBracket state s) t := by
  induction s generalizing state with
  | nil => cases state <;> rfl
  | cons c s ih =>
    cases state with
    | none => exact ih
    | some content => exact ih

theorem outsideFrom_none (h : 91 ∉ s) : outsideFrom none (s ++ t) = s ++ outsideFrom none t := by
  induction s with
  | nil => rfl
  | cons c s ih =>
    rw [List.mem_cons, not_or] at h
    rw [List.cons_append, outsideFrom, if_neg (Ne.symm h.1), ih h.2, List.cons_append]

theorem outsideFrom_some (h : 93 ∉ s) :
    outsideFrom (some content) (s ++ t) = outsideFrom (some (content ++ s)) t := by
  induction s generalizing content with
  | nil => rw [List.nil_append, List.append_nil]
  | cons c s ih =>
    rw [List.mem_cons, not_or] at h
    rw [List.cons_append, outsideFrom, if_pos (Ne.symm h.1), ih h.2, List.append_assoc,
      List.singleton_append]

/-- Without a `]` everything is left. -/
theorem outsideFrom_open (h : 93 ∉ s) : outsideFrom none s = s := by
  by_cases hopen : 91 ∈ s
  · rcases List.eq_append_cons_of_mem hopen with ⟨u, v, rfl, hu⟩
    rw [List.mem_append, List.mem_cons, not_or, not_or] at h
    rw [outsideFrom_none hu, outsideFrom, if_pos rfl]
    have hv := @outsideFrom_some v [] [] h.2.2
    rw [List.append_nil, List.nil_append] at hv
    rw [hv, outsideFrom]
  · have hs := @outsideFrom_none s [] hopen
    rw [List.append_nil] at hs
    rw [hs, outsideFrom, List.append_nil]

/-- What is left is read off in one pass. -/
theorem withoutBrackets_eq (text : Text) : withoutBrackets text = outsideFrom none text := by
  rw [withoutBrackets, Pattern.removeAll]
  generalize none = b
  have hinl (s : Text) : (s.map (Sum.inl (β := Text))).filterMap Sum.getLeft? = s := by
    rw [List.filterMap_map]
    exact List.filterMap_some
  have hskips {s : Text} (hs : 91 ∉ s) (b : Option ℕ) (t : Text) :
      ∃ b', (bracketPattern.scan ⟨b, s ++ t⟩).filterMap Sum.getLeft? =
        s ++ (bracketPattern.scan ⟨b', t⟩).filterMap Sum.getLeft? := by
    refine ⟨Pattern.lastBefore b s, ?_⟩
    rw [Pattern.scan_append_of_skips, List.filterMap_append, hinl]
    intro b u v huv hv
    rcases List.exists_cons_of_ne_nil hv with ⟨c, v, rfl⟩
    refine bracketPattern_opens b c (v ++ t) ?_
    rintro rfl
    exact hs (huv ▸ List.mem_append_right u List.mem_cons_self)
  induction text using text_cases generalizing b with
  | hopen s hs =>
    have hskip := @Pattern.scan_append_of_skips _ bracketPattern b s [] (by
      intro b u v huv hv
      rcases List.exists_cons_of_ne_nil hv with ⟨c, v, rfl⟩
      rw [huv, List.mem_append, List.mem_cons, not_or, not_or] at hs
      by_cases hc : c = 91
      · rw [hc, List.cons_append, List.append_nil, bracketPattern_open hs.2.2]
      · exact bracketPattern_opens b c _ hc)
    rw [List.append_nil, Pattern.scan_nil bracketPattern_consumes, List.append_nil] at hskip
    rw [hskip, hinl, outsideFrom_open hs]
  | hclosed s rest hs ih =>
    have hclose (b : Option ℕ) :
        (bracketPattern.scan ⟨b, 93 :: rest⟩).filterMap Sum.getLeft? =
          93 :: outsideFrom none rest := by
      rw [Pattern.scan_skip (bracketPattern_opens b 93 rest (by decide)), List.filterMap_cons, ih]
      rfl
    by_cases hopen : 91 ∈ s
    · rcases List.eq_append_cons_of_mem hopen with ⟨u, v, rfl, hu⟩
      rw [List.mem_append, List.mem_cons, not_or, not_or] at hs
      have hv : 93 ∉ v := hs.2.2
      rw [List.append_assoc, List.cons_append, outsideFrom_none hu]
      rcases hskips hu b (91 :: (v ++ 93 :: rest)) with ⟨b', hskip⟩
      rw [hskip, outsideFrom, if_pos rfl, outsideFrom_some hv, List.nil_append, outsideFrom,
        if_neg (not_not_intro rfl)]
      have hmatch := @bracketPattern_closed v rest b' hv
      by_cases hnil : v = []
      · rw [if_pos hnil] at hmatch ⊢
        rw [Pattern.scan_skip hmatch, hnil, List.nil_append, List.filterMap_cons, hclose]
        rfl
      · rw [if_neg hnil] at hmatch ⊢
        rw [Pattern.scan_found bracketPattern_consumes (by rw [hmatch]; rfl), List.filterMap_cons,
          ih]
        rfl
    · rcases hskips hopen b (93 :: rest) with ⟨b', hskip⟩
      rw [hskip, outsideFrom_none hopen, hclose, outsideFrom, if_neg (by decide)]

/-- Behind a place where no bracket is open the text is read on its own. -/
theorem outsideFrom_append (h : openBracket state s = none) :
    outsideFrom state (s ++ t) = outsideFrom state s ++ outsideFrom none t := by
  induction s generalizing state with
  | nil =>
    rw [openBracket] at h
    rw [h]
    rfl
  | cons c s ih =>
    cases state with
    | none =>
      rw [List.cons_append, outsideFrom, outsideFrom]
      rw [openBracket] at h
      split at h
      · rw [if_pos ‹_›, if_pos ‹_›, ih h]
      · rw [if_neg ‹_›, if_neg ‹_›, ih h, List.cons_append]
    | some content =>
      rw [List.cons_append, outsideFrom, outsideFrom]
      rw [openBracket] at h
      split at h
      · rw [if_neg (not_not_intro ‹_›), if_neg (not_not_intro ‹_›), ih h, List.append_assoc]
      · rw [if_pos ‹_›, if_pos ‹_›, ih h]

/-- A text without a `]` is left as it is. -/
theorem outsideFrom_append_open (h : 93 ∉ t) :
    outsideFrom state (s ++ t) = outsideFrom state s ++ t := by
  induction s generalizing state with
  | nil =>
    cases state with
    | none => exact outsideFrom_open h
    | some content =>
      have ht := @outsideFrom_some t [] content h
      rw [List.append_nil] at ht
      rw [List.nil_append, ht, outsideFrom, outsideFrom, List.cons_append]
  | cons c s ih =>
    cases state with
    | none =>
      rw [List.cons_append, outsideFrom, outsideFrom]
      split
      · exact ih
      · rw [ih, List.cons_append]
    | some content =>
      rw [List.cons_append, outsideFrom, outsideFrom]
      split
      · exact ih
      · rw [ih, List.append_assoc]

/-- **A place outside of the brackets** parts what is left of a text: no bracket is open there, or
    none is closed behind it. -/
theorem withoutBrackets_append (h : openBracket none s = none ∨ 93 ∉ t) :
    withoutBrackets (s ++ t) = withoutBrackets s ++ withoutBrackets t := by
  rw [withoutBrackets_eq, withoutBrackets_eq, withoutBrackets_eq]
  rcases h with hnone | hopen
  · exact outsideFrom_append hnone
  · rw [outsideFrom_append_open hopen, outsideFrom_open hopen]

/-- A bracket that is open is closed by the next `]`. -/
theorem mem_bracketGroupsFrom (h : openBracket state s = some content) (ht : 93 ∉ t)
    (hne : content ++ t ≠ []) :
    ⟨content ++ t, rest.head?⟩ ∈ bracketGroupsFrom state (s ++ (t ++ 93 :: rest)) := by
  induction s generalizing state with
  | nil =>
    rw [openBracket] at h
    rw [h, List.nil_append, bracketGroupsFrom_some ht, bracketGroupsFrom,
      if_neg (not_not_intro rfl), if_neg hne]
    exact List.mem_append_left _ (List.mem_singleton.mpr rfl)
  | cons c s ih =>
    cases state with
    | none => exact ih h
    | some content' =>
      rw [openBracket] at h
      rw [List.cons_append, bracketGroupsFrom]
      split at h
      · rw [if_neg (not_not_intro ‹_›)]
        exact List.mem_append_right _ (ih h)
      · rw [if_pos ‹_›]
        exact ih h

/-- A bracket that is open before a text and not behind it was closed there. -/
theorem openBracket_some (h : openBracket (some content) s = none) :
    openBracket none s = none ∧ ∀ other, openBracket (some other) s = none := by
  induction s generalizing content with
  | nil => cases h
  | cons c s ih =>
    rw [openBracket] at h
    split at h
    · rename_i hc
      subst hc
      exact ⟨h, fun other => h⟩
    · rename_i hc
      rcases ih h with ⟨hnone, hsome⟩
      refine ⟨?_, fun other => ?_⟩
      · rw [openBracket]
        split
        · exact hsome []
        · exact hnone
      · rw [openBracket, if_neg hc]
        exact hsome _

/-- Where no bracket is open, none is that was opened later. -/
theorem openBracket_eq_none (h : openBracket state s = none) : openBracket none s = none := by
  cases state with
  | none => exact h
  | some content => exact (openBracket_some h).1

/-! ### The validator -/

/-- What stands behind the last `[`. -/
def innermost : Text → Text
  | [] => []
  | c :: rest => if 91 ∈ rest then innermost rest else if c = 91 then rest else c :: rest

/-- A text begins with a word in any case. -/
def beginsWith (word text : Text) : Bool :=
  decide ((text.take word.length).map lowerUnit = word.map lowerUnit)

/-- The id that a content names: a prefix is taken off if an id follows. -/
def namedId (content : Text) : Option Text :=
  if beginsWith (asciiText "source:") content ∧ isCitationId (content.drop 7) then
    some (content.drop 7)
  else if beginsWith (asciiText "@") content ∧ isCitationId (content.drop 1) then
    some (content.drop 1)
  else if isCitationId content then some content
  else none

/-- The id that a bracket names for the validator; a link names none. -/
def BracketGroup.named (g : BracketGroup) : Option Text :=
  if g.next = some 40 then none else namedId (innermost g.content)

theorem innermost_of_notMem (h : 91 ∉ s) : innermost s = s := by
  cases s with
  | nil => rfl
  | cons c s =>
    rw [List.mem_cons, not_or] at h
    rw [innermost, if_neg h.2, if_neg (Ne.symm h.1)]

theorem innermost_append (u v : Text) : innermost (u ++ 91 :: v) = innermost (91 :: v) := by
  induction u with
  | nil => rfl
  | cons c u ih =>
    rw [List.cons_append, innermost, if_pos (List.mem_append_right u List.mem_cons_self), ih]

/-- A citation id has no brackets. -/
theorem isCitationUnit_of_mem (h : isCitationId id = true) (hc : c ∈ id) :
    isCitationUnit c = true := by
  cases id with
  | nil => cases hc
  | cons d id =>
    rw [isCitationId, Bool.and_eq_true, Bool.and_eq_true] at h
    rcases List.mem_cons.mp hc with rfl | hmem
    · simp only [isCitationUnit, h.1.1, Bool.true_or]
    · exact List.all_eq_true.mp h.1.2 c hmem

theorem notMem_of_isCitationId (h : isCitationId id = true) : 91 ∉ id ∧ 93 ∉ id := by
  refine ⟨fun hmem => ?_, fun hmem => ?_⟩
  · exact absurd (isCitationUnit_of_mem h hmem) (by decide)
  · exact absurd (isCitationUnit_of_mem h hmem) (by decide)

/-- What begins with a word that has no brackets has none there. -/
theorem notMem_take_of_beginsWith {word : Text} (h : beginsWith word s = true)
    (hc : lowerUnit c = c) (hword : c ∉ word.map lowerUnit) : c ∉ s.take word.length := by
  intro hmem
  rw [beginsWith, decide_eq_true_eq] at h
  refine hword (h ▸ ?_)
  rw [← hc]
  exact List.mem_map_of_mem hmem

/-- An id that is closed. -/
theorem closedIdPattern_closed (h : 93 ∉ s) : closedIdPattern ⟨b, s ++ 93 :: rest⟩ =
    if isCitationId s = true ∧ rest.head? ≠ some 40 then [(s, ⟨some 93, rest⟩)] else [] := by
  have hunit : ∀ c, isCitationUnit c = true → decide (c = 93) = false := by
    intro c hc
    refine decide_eq_false ?_
    rintro rfl
    exact absurd hc (by decide)
  unfold closedIdPattern
  cases s with
  | nil => exact Pattern.unit_bind_of_neg rfl
  | cons c s =>
    rw [List.mem_cons, not_or] at h
    rw [List.cons_append]
    cases hc : isAlphanumericUnit c with
    | false => simp only [Pattern.unit_bind_of_neg hc, isCitationId, hc, Bool.false_and,
        Bool.false_eq_true, false_and, if_false]
    | true =>
      have hs : ∀ d ∈ s, decide (d = 93) = false := fun d hd =>
        decide_eq_false fun heq => h.2 (heq ▸ hd)
      rw [Pattern.unit_bind_of_pos hc, Pattern.many_unit_first hunit hs rfl]
      simp only [isCitationId, hc, Bool.true_and, Bool.and_eq_true, decide_eq_true_eq, Nat.zero_le,
        true_and, Option.all_some]
      by_cases hid : s.all isCitationUnit = true ∧ s.length ≤ 127
      · rw [if_pos hid, Pattern.bind_apply, Pattern.notAhead]
        by_cases hlink : rest.head? = some 40
        · rw [if_pos (by rw [hlink]; rfl), if_neg fun hboth => hboth.2 hlink]
          rfl
        · rw [if_neg, if_pos ⟨hid, hlink⟩]
          · rfl
          · rw [Option.any_eq_true]
            rintro ⟨d, hd, h40⟩
            exact hlink (hd.trans (congrArg some (of_decide_eq_true h40)))
      · rw [if_neg hid, if_neg fun hboth => hid hboth.1]

/-- A prefix, and an id that is closed behind it. -/
theorem word_closedId {word : Text} (hs : 93 ∉ s) (hword : 93 ∉ word.map lowerUnit) :
    (Pattern.word true word ⟨b, s ++ 93 :: rest⟩).flatMap (fun r => closedIdPattern r.2) =
      if beginsWith word s = true ∧ isCitationId (s.drop word.length) = true ∧
        rest.head? ≠ some 40 then [(s.drop word.length, ⟨some 93, rest⟩)] else [] := by
  rw [Pattern.word_ignoreCase]
  by_cases hlength : word.length ≤ s.length
  · rw [List.take_append_of_le_length hlength, List.drop_append_of_le_length hlength]
    have hdrop : 93 ∉ s.drop word.length := fun hmem => hs (List.mem_of_mem_drop hmem)
    by_cases hbegins : beginsWith word s = true
    · rw [if_pos (of_decide_eq_true hbegins), List.flatMap_cons, List.flatMap_nil, List.append_nil,
        closedIdPattern_closed hdrop]
      simp only [hbegins, true_and]
    · rw [if_neg (fun heq => hbegins (decide_eq_true heq)), if_neg (fun hboth => hbegins hboth.1)]
      rfl
  · -- the word would take the bracket
    have hshort : ¬((s ++ 93 :: rest).take word.length).map lowerUnit = word.map lowerUnit := by
      intro heq
      refine hword (heq ▸ List.mem_map.mpr ⟨93, ?_, rfl⟩)
      rw [List.take_append]
      refine List.mem_append_right _ ?_
      rw [show word.length - s.length = word.length - s.length - 1 + 1 by omega, List.take_succ_cons]
      exact List.mem_cons_self
    have hbegins : ¬beginsWith word s = true := by
      intro heq
      have hlen := congrArg List.length (of_decide_eq_true heq)
      rw [List.length_map, List.length_map, List.length_take] at hlen
      omega
    rw [if_neg hshort, if_neg fun hboth => hbegins hboth.1]
    rfl

theorem sourceIdPattern_opens : Opens sourceIdPattern := fun _ _ _ hc =>
  Pattern.unit_bind_of_neg (decide_eq_false hc)

/-- The prefixes are tried one after the other, and then none. -/
theorem sourceIdPattern_bracket : sourceIdPattern ⟨b, 91 :: t⟩ =
    ((Pattern.word true (asciiText "source:") ⟨some 91, t⟩).flatMap fun r => closedIdPattern r.2) ++
      ((Pattern.word true (asciiText "@") ⟨some 91, t⟩).flatMap fun r => closedIdPattern r.2) ++
      closedIdPattern ⟨some 91, t⟩ := by
  unfold sourceIdPattern
  rw [Pattern.unit_bind_of_pos rfl, Pattern.bind_apply]
  show (((Pattern.word true _ _ ++ Pattern.word true _ _).flatMap fun r : Unit × Place =>
    [((some r.1 : Option Unit), r.2)]) ++ [(none, _)]).flatMap _ = _
  rw [List.flatMap_append, List.flatMap_assoc, List.flatMap_append]
  simp only [List.flatMap_cons, List.flatMap_nil, List.append_nil]

/-- What a `[` with its next `]` names. -/
theorem sourceIdPattern_closed (hs : 93 ∉ s) :
    (sourceIdPattern ⟨b, 91 :: (s ++ 93 :: rest)⟩).head? =
      if rest.head? = some 40 then none
      else (namedId s).map fun id => (id, ⟨some 93, rest⟩) := by
  have hsource := @word_closedId s rest (some 91) (asciiText "source:") hs (by decide +kernel)
  have hat := @word_closedId s rest (some 91) (asciiText "@") hs (by decide +kernel)
  have hplain := @closedIdPattern_closed s rest (some 91) hs
  rw [sourceIdPattern_bracket, hsource, hat, hplain]
  have h7 : (asciiText "source:").length = 7 := by simp [asciiText]
  have h1 : (asciiText "@").length = 1 := by simp [asciiText]
  rw [h7, h1, namedId]
  by_cases hlink : rest.head? = some 40
  · simp only [hlink, ne_eq, not_true_eq_false, and_false, if_false, if_true, List.append_nil,
      List.head?_nil]
  · simp only [hlink, ne_eq, not_false_eq_true, and_true, if_false]
    split
    · rfl
    · split
      · rfl
      · split
        · rfl
        · rfl

theorem closedIdPattern_open (h : 93 ∉ s) : closedIdPattern ⟨b, s⟩ = [] := by
  unfold closedIdPattern
  cases s with
  | nil => exact Pattern.unit_bind_nil
  | cons c s =>
    rw [List.mem_cons, not_or] at h
    cases hc : isAlphanumericUnit c with
    | false => exact Pattern.unit_bind_of_neg hc
    | true =>
      rw [Pattern.unit_bind_of_pos hc, ← List.append_nil s]
      refine Pattern.many_unit_nil (fun d hd => ?_) (Or.inl rfl)
      exact decide_eq_false fun heq => h.2 (heq ▸ hd)

theorem sourceIdPattern_open (h : 93 ∉ s) : sourceIdPattern ⟨b, 91 :: s⟩ = [] := by
  have hword (word : Text) :
      (Pattern.word true word ⟨some 91, s⟩).flatMap (fun r => closedIdPattern r.2) = [] := by
    rw [Pattern.word_ignoreCase]
    split
    · rw [List.flatMap_cons, closedIdPattern_open fun hmem => h (List.mem_of_mem_drop hmem)]
      rfl
    · rfl
  rw [sourceIdPattern_bracket, hword, hword, closedIdPattern_open h]
  rfl

theorem sourceIdPattern_consumes : sourceIdPattern.Consumes := by
  intro place r hr
  rcases place with ⟨b, _ | ⟨c, t⟩⟩
  · cases hr
  · by_cases hc : c = 91
    · have hclosed (place r) (hr : r ∈ closedIdPattern place) :
          r.2.rest.length < place.rest.length := by
        refine (Pattern.Consumes.unit.bind fun _ => Pattern.Shrinks.many.bind fun _ =>
          Pattern.Consumes.unit.shrinks.bind fun _ => ?_) place r hr
        refine Pattern.Shrinks.bind (fun place r hr => ?_) fun _ => Pattern.Shrinks.pure _
        unfold Pattern.notAhead at hr
        split at hr
        · cases hr
        · rw [List.mem_singleton.mp hr]
      have hword (word : Text) (hr : r ∈ (Pattern.word true word ⟨some 91, t⟩).flatMap
          fun r => closedIdPattern r.2) : r.2.rest.length < t.length + 1 := by
        rw [Pattern.word_ignoreCase] at hr
        split at hr
        · rw [List.flatMap_cons, List.flatMap_nil, List.append_nil] at hr
          have hlt := hclosed _ r hr
          rw [List.length_drop] at hlt
          omega
        · cases hr
      rw [hc, sourceIdPattern_bracket, List.mem_append, List.mem_append] at hr
      rcases hr with (hr | hr) | hr
      · exact hword _ hr
      · exact hword _ hr
      · exact (hclosed _ r hr).trans (Nat.lt_succ_self _)
    · rw [sourceIdPattern_opens b c t hc] at hr
      cases hr

/-- What is named is a citation id, and there is no `[` in the content then. -/
theorem namedId_eq_some (h : namedId s = some id) : isCitationId id = true ∧ 91 ∉ s := by
  have hdrop {word : Text} (hbegins : beginsWith word s = true)
      (hid : isCitationId (s.drop word.length) = true) (hword : 91 ∉ word.map lowerUnit) : 91 ∉ s := by
    rw [← List.take_append_drop word.length s, List.mem_append, not_or]
    exact ⟨notMem_take_of_beginsWith hbegins rfl hword, (notMem_of_isCitationId hid).1⟩
  unfold namedId at h
  split at h
  · rename_i hboth
    cases h
    exact ⟨hboth.2, hdrop hboth.1 hboth.2 (by decide +kernel)⟩
  · split at h
    · rename_i hboth
      cases h
      exact ⟨hboth.2, hdrop hboth.1 hboth.2 (by decide +kernel)⟩
    · split at h
      · rename_i hid
        cases h
        exact ⟨hid, (notMem_of_isCitationId hid).1⟩
      · cases h

theorem innermost_bracket : innermost (91 :: s) = innermost s := by
  by_cases h : 91 ∈ s
  · rw [innermost, if_pos h]
  · rw [innermost, if_neg h, if_pos rfl, innermost_of_notMem h]

/-- What is captured up to a `]`. -/
theorem sourceIdPattern_captures (hs : 93 ∉ s) {ids : List Text}
    (hrest : ∀ b, sourceIdPattern.capturesFrom ⟨b, rest⟩ = ids) :
    sourceIdPattern.capturesFrom ⟨b, s ++ 93 :: rest⟩ =
      (if 91 ∈ s ∧ rest.head? ≠ some 40 then (namedId (innermost s)).toList else []) ++ ids := by
  induction s generalizing b with
  | nil =>
    rw [List.nil_append, Pattern.capturesFrom_skip (sourceIdPattern_opens b 93 rest (by decide)),
      hrest, if_neg fun hboth => List.not_mem_nil hboth.1, List.nil_append]
  | cons c s ih =>
    rw [List.mem_cons, not_or] at hs
    rw [List.cons_append]
    by_cases hc : c = 91
    · subst hc
      have hfound := @sourceIdPattern_closed s rest b hs.2
      rw [if_congr (and_iff_right List.mem_cons_self) rfl rfl, innermost_bracket]
      -- nothing is named over another `[`
      have hnamed : 91 ∈ s → namedId s = none := by
        intro hmem
        cases hid : namedId s with
        | none => rfl
        | some id => exact absurd hmem (namedId_eq_some hid).2
      by_cases hlink : rest.head? = some 40
      · rw [if_pos hlink, List.head?_eq_none_iff] at hfound
        rw [Pattern.capturesFrom_skip hfound, ih hs.2, if_neg fun hboth => hboth.2 hlink,
          if_neg fun hne => hne hlink]
      · rw [if_neg hlink] at hfound
        rw [if_pos hlink]
        by_cases hmem : 91 ∈ s
        · rw [hnamed hmem, Option.map_none, List.head?_eq_none_iff] at hfound
          rw [Pattern.capturesFrom_skip hfound, ih hs.2, if_pos ⟨hmem, hlink⟩]
        · rw [innermost_of_notMem hmem]
          cases hid : namedId s with
          | none =>
            rw [hid, Option.map_none, List.head?_eq_none_iff] at hfound
            rw [Pattern.capturesFrom_skip hfound, ih hs.2, if_neg fun hboth => hmem hboth.1]
            rfl
          | some id =>
            rw [hid, Option.map_some] at hfound
            rw [Pattern.capturesFrom_found sourceIdPattern_consumes hfound, hrest]
            rfl
    · have hcons : 91 ∈ c :: s ↔ 91 ∈ s := by
        rw [List.mem_cons, or_iff_right (Ne.symm hc)]
      rw [Pattern.capturesFrom_skip (sourceIdPattern_opens b c _ hc), ih hs.2]
      by_cases hmem : 91 ∈ s
      · rw [innermost, if_pos hmem, if_congr (and_congr_left fun _ => hcons) rfl rfl]
      · rw [if_neg fun hboth => hmem hboth.1, if_neg fun hboth => hmem (hcons.mp hboth.1)]

/-- **The validator takes what brackets name.** -/
theorem sourceIdPattern_matchAll (text : Text) :
    sourceIdPattern.matchAll text = (bracketGroups text).filterMap (·.named) := by
  rw [Pattern.matchAll_eq_capturesFrom]
  generalize none = b
  induction text using text_cases generalizing b with
  | hopen s hs =>
    rw [bracketGroups_open hs, List.filterMap_nil, ← List.append_nil s,
      Pattern.capturesFrom_append_of_skips, Pattern.capturesFrom_nil sourceIdPattern_consumes]
    intro b u v huv hv
    rcases List.exists_cons_of_ne_nil hv with ⟨c, v, rfl⟩
    rw [huv, List.mem_append, List.mem_cons, not_or, not_or] at hs
    by_cases hc : c = 91
    · rw [hc, List.cons_append, List.append_nil, sourceIdPattern_open hs.2.2]
    · exact sourceIdPattern_opens b c _ hc
  | hclosed s rest hs ih =>
    rw [sourceIdPattern_captures hs ih]
    by_cases hopen : 91 ∈ s
    · rcases List.eq_append_cons_of_mem hopen with ⟨u, v, rfl, hu⟩
      rw [List.mem_append, List.mem_cons, not_or, not_or] at hs
      rw [if_congr (and_iff_right hopen) rfl rfl, innermost_append, innermost_bracket,
        List.append_assoc, List.cons_append, bracketGroups_closed hu hs.2.2, List.filterMap_append]
      congr 1
      by_cases hnil : v = []
      · rw [if_pos hnil, hnil]
        split
        · rfl
        · rfl
      · rw [if_neg hnil]
        by_cases hlink : rest.head? = some 40
        · rw [if_neg fun hne => hne hlink, List.filterMap_cons_none]
          · rfl
          · rw [BracketGroup.named, if_pos hlink]
        · rw [if_pos hlink]
          have hnamed : BracketGroup.named ⟨v, rest.head?⟩ = namedId (innermost v) := if_neg hlink
          cases hid : namedId (innermost v) with
          | none => rw [List.filterMap_cons_none (hnamed.trans hid)]; rfl
          | some id => rw [List.filterMap_cons_some (hnamed.trans hid)]; rfl
    · rw [if_neg fun hboth => hopen hboth.1, bracketGroups_unopened hopen, List.nil_append]

end ResearchWorkbench.Qa
