import ResearchWorkbench.Services.Qa

namespace ResearchWorkbench.Qa

/-!
# Texts that are put together

The texts of several evidence are joined with spaces before numbers, units and dates are looked for.
No number, unit or date has a space in it, so each is found in the whole exactly if it is found in
one of the parts.

* `infix_append_cons` — a part without a separator stands on one side of it;
* `numberPattern_consumes`, `numberPattern_stopsAt`, `numberTokens_append` — numbers;
* `normalizedUnits_append`, `mem_dateTokens` — units and dates;
* `mem_numberTokens_sourceText`, `mem_unitTokens_sourceText`, `includes_sourceText` — the text of the
  supporting evidence.
-/

variable {s t part : Text} {c : ℕ} {texts : List Text}

/-! ### Separators -/

/-- A part without a separator stands before it or behind it. -/
theorem infix_append_cons (h : c ∉ part) :
    part <:+: s ++ c :: t ↔ part <:+: s ∨ part <:+: t := by
  constructor
  · rintro ⟨x, y, hxy⟩
    rcases List.append_eq_append_iff.mp hxy with ⟨a, hs, -⟩ | ⟨a, hx, hy⟩
    · exact Or.inl ⟨x, a, hs.symm⟩
    · cases a with
      | nil => exact Or.inl ⟨x, [], by rw [List.append_nil, hx, List.append_nil]⟩
      | cons d a =>
        obtain ⟨rfl, rfl⟩ := List.cons.inj hy
        -- the part ends behind the separator, so it begins there
        rcases List.append_eq_append_iff.mp hx with ⟨u, -, hpart⟩ | ⟨u, hxs, hu⟩
        · exact absurd (hpart ▸ List.mem_append_right u List.mem_cons_self) h
        · cases u with
          | nil => exact absurd ((show c :: a = part from hu) ▸ List.mem_cons_self) h
          | cons e u =>
            obtain ⟨-, rfl⟩ := List.cons.inj hu
            exact Or.inr ⟨u, y, rfl⟩
  · rintro (⟨x, y, rfl⟩ | ⟨x, y, rfl⟩)
    · exact ⟨x, y ++ c :: t, by simp only [List.append_assoc]⟩
    · exact ⟨s ++ c :: x, y, by simp only [List.append_assoc, List.cons_append]⟩

/-- What holds of a joined text exactly if it holds of one of two parts holds of many so. -/
theorem intercalate_iff {P : Text → Prop} (hnil : ¬P [])
    (happend : ∀ s t, P (s ++ 32 :: t) ↔ P s ∨ P t) (texts : List Text) :
    P (List.intercalate [32] texts) ↔ ∃ t ∈ texts, P t := by
  induction texts with
  | nil => exact iff_of_false hnil (by simp)
  | cons t texts ih =>
    rw [List.exists_mem_cons_iff, ← ih]
    cases texts with
    | nil => rw [List.intercalate_singleton, List.intercalate_nil, or_iff_left hnil]
    | cons u texts =>
      rw [List.intercalate_cons_cons, List.append_assoc, List.singleton_append, happend]

/-! ### Numbers -/

theorem decimalPattern_consumes : decimalPattern.Consumes := by
  refine (Pattern.Consumes.many Nat.one_pos).bind fun whole => Pattern.Shrinks.bind ?_ fun _ =>
    Pattern.Shrinks.pure _
  exact ((Pattern.Consumes.unit.bind fun _ => Pattern.Shrinks.many).shrinks).optional

theorem numberPattern_consumes : numberPattern.Consumes :=
  Pattern.Shrinks.notBehind.bind_consumes fun _ => decimalPattern_consumes

/-- Numbers do not go on behind a code unit that is no digit and no dot. -/
theorem decimalPattern_stopsAt (hdigit : isDigitUnit c = false) (hdot : c ≠ 46) :
    decimalPattern.StopsAt c := by
  have hunit : (Pattern.unit fun d => decide (d = 46)).StopsAt c :=
    Pattern.StopsAt.unit (by simpa using hdot)
  refine (Pattern.StopsAt.many hdigit).bind fun whole => Pattern.StopsAt.bind ?_ fun _ =>
    Pattern.StopsAt.pure _
  exact (hunit.bind fun _ => Pattern.StopsAt.many hdigit).optional

theorem numberPattern_stopsAt (hdigit : isDigitUnit c = false) (hdot : c ≠ 46) :
    numberPattern.StopsAt c :=
  Pattern.StopsAt.notBehind.bind fun _ => decimalPattern_stopsAt hdigit hdot

theorem decimalPattern_before (b b' : Option ℕ) : decimalPattern ⟨b, t⟩ = decimalPattern ⟨b', t⟩ := by
  unfold decimalPattern
  rw [Pattern.bind_apply, Pattern.bind_apply, Pattern.many_before Nat.one_pos b b']

/-- Where no letter stands before, a number is searched as it is. -/
theorem numberPattern_of_not_letter {b : Option ℕ} (h : b.any isLetterUnit = false) :
    numberPattern ⟨b, t⟩ = decimalPattern ⟨b, t⟩ := by
  unfold numberPattern
  rw [Pattern.bind_apply, Pattern.notBehind, if_neg (by rw [h]; exact Bool.false_ne_true),
    List.flatMap_cons, List.flatMap_nil, List.append_nil]

/-- What stands before a number does not matter, if it is no letter. -/
theorem numberPattern_before (h : isLetterUnit c = false) :
    numberPattern ⟨some c, t⟩ = numberPattern ⟨none, t⟩ := by
  have hb : (some c).any isLetterUnit = false := h
  rw [numberPattern_of_not_letter hb, numberPattern_of_not_letter rfl]
  exact decimalPattern_before _ _

theorem numberTokens_append : numberTokens (s ++ 32 :: t) = numberTokens s ++ numberTokens t :=
  Pattern.matchAll_append_cons numberPattern_consumes (numberPattern_stopsAt rfl (by decide))
    (numberPattern_before rfl)

theorem numberTokens_nil : numberTokens [] = [] := by
  rw [numberTokens, Pattern.matchAll, Pattern.scan_nil numberPattern_consumes]
  rfl

/-! ### Units and dates -/

theorem normalizedUnits_append :
    normalizedUnits (s ++ 32 :: t) = normalizedUnits s ++ 32 :: normalizedUnits t := by
  simp only [normalizedUnits, List.flatMap_append, List.flatMap_cons]
  rfl

theorem mem_unitTokens : part ∈ unitTokens t ↔
    part ∈ unitNames ∧ part <:+: normalizedUnits t := by
  rw [unitTokens, List.mem_filter, includes, decide_eq_true_eq]

/-- No unit has a space in it, and none is empty. -/
theorem space_notMem_unitNames (h : part ∈ unitNames) : 32 ∉ part ∧ part ≠ [] := by
  have hall : ∀ unit ∈ unitNames, 32 ∉ unit ∧ unit ≠ [] := by decide +kernel
  exact hall part h

/-- A date has four digits at least, and no space in it. -/
theorem mem_dateTokens (h : part ∈ dateTokens t) : 32 ∉ part ∧ part ≠ [] := by
  have hdigits {u : Text} (hu : ∀ c ∈ u, isDigitUnit c = true) : 32 ∉ u := by
    intro hmem
    exact absurd (hu 32 hmem) (by decide)
  rcases Pattern.mem_matchAll h with ⟨place, found, hmatch⟩
  unfold datePattern at hmatch
  rcases Pattern.mem_bind.mp hmatch with ⟨_, _, hmatch⟩
  rcases Pattern.mem_bind.mp hmatch with ⟨century, hcentury, hmatch⟩
  rcases Pattern.mem_bind.mp hmatch with ⟨year, hyear, hmatch⟩
  rcases Pattern.mem_bind.mp hmatch with ⟨rest, hrest, hmatch⟩
  rcases Pattern.mem_bind.mp hmatch with ⟨_, _, hmatch⟩
  have hpart : part = century.1 ++ year.1 ++ rest.1.getD [] :=
    congrArg Prod.fst (Pattern.mem_pure.mp hmatch)
  have hcentury' : 32 ∉ century.1 ∧ century.1 ≠ [] := by
    rcases List.mem_append.mp hcentury with hword | hword
    · rcases Pattern.mem_bind.mp hword with ⟨_, _, hword⟩
      rw [Pattern.mem_pure.mp hword]
      exact (by simp [asciiText] : 32 ∉ asciiText "19" ∧ asciiText "19" ≠ [])
    · rcases Pattern.mem_bind.mp hword with ⟨_, _, hword⟩
      rw [Pattern.mem_pure.mp hword]
      exact (by simp [asciiText] : 32 ∉ asciiText "20" ∧ asciiText "20" ≠ [])
  have hrest' : 32 ∉ rest.1.getD [] := by
    rcases Pattern.mem_optional hrest with ⟨a, hsome, ha⟩ | hnone
    · rcases Pattern.mem_bind.mp ha with ⟨_, _, ha⟩
      rcases Pattern.mem_bind.mp ha with ⟨month, hmonth, ha⟩
      rcases Pattern.mem_bind.mp ha with ⟨_, _, ha⟩
      rcases Pattern.mem_bind.mp ha with ⟨day, hday, ha⟩
      have ha' : a = 45 :: month.1 ++ 45 :: day.1 := congrArg Prod.fst (Pattern.mem_pure.mp ha)
      rw [hsome, ha']
      simp only [Option.getD_some, List.cons_append, List.mem_cons, List.mem_append, not_or]
      exact ⟨by decide, hdigits (Pattern.mem_many hmonth).2.1, by decide,
        hdigits (Pattern.mem_many hday).2.1⟩
    · rw [hnone]
      exact List.not_mem_nil
  rw [hpart]
  refine ⟨?_, ?_⟩
  · rw [List.mem_append, List.mem_append, not_or, not_or]
    exact ⟨⟨hcentury'.1, hdigits (Pattern.mem_many hyear).2.1⟩, hrest'⟩
  · rw [List.append_assoc]
    exact List.append_ne_nil_of_left_ne_nil hcentury'.2 _

/-! ### The text of the supporting evidence -/

variable {rows : QaRows} {supporting : List EvidenceRow}

/-- What is found in joined texts exactly if it is found in one of two parts is found in the text of
    the evidence exactly if it is found in one of its texts. -/
theorem sourceText_iff (P : Text → Prop) (hnil : ¬P [])
    (happend : ∀ s t, P (s ++ 32 :: t) ↔ P s ∨ P t) :
    P (rows.sourceText supporting) ↔ ∃ e ∈ supporting, ∃ t ∈ rows.evidenceTexts e, P t := by
  rw [QaRows.sourceText, intercalate_iff hnil happend]
  constructor
  · rintro ⟨_, hmem, ht⟩
    rcases List.mem_map.mp hmem with ⟨e, he, rfl⟩
    exact ⟨e, he, (intercalate_iff hnil happend _).mp ht⟩
  · rintro ⟨e, he, ht⟩
    exact ⟨_, List.mem_map_of_mem he, (intercalate_iff hnil happend _).mpr ht⟩

theorem mem_numberTokens_sourceText {number : Text} :
    number ∈ numberTokens (rows.sourceText supporting) ↔
      ∃ e ∈ supporting, ∃ t ∈ rows.evidenceTexts e, number ∈ numberTokens t :=
  sourceText_iff (number ∈ numberTokens ·)
    (by rw [numberTokens_nil]; exact List.not_mem_nil)
    fun s t => by rw [numberTokens_append, List.mem_append]

theorem mem_unitTokens_sourceText {unit : Text} (h : unit ∈ unitNames) :
    unit ∈ unitTokens (rows.sourceText supporting) ↔
      ∃ e ∈ supporting, ∃ t ∈ rows.evidenceTexts e, unit ∈ unitTokens t := by
  rcases space_notMem_unitNames h with ⟨hspace, hne⟩
  refine sourceText_iff (unit ∈ unitTokens ·) (fun hmem => ?_) fun s t => ?_
  · exact hne (List.infix_nil.mp (mem_unitTokens.mp hmem).2)
  · rw [mem_unitTokens, mem_unitTokens, mem_unitTokens, normalizedUnits_append,
      infix_append_cons hspace, and_or_left]

theorem includes_sourceText {date : Text} (h : 32 ∉ date ∧ date ≠ []) :
    includes (rows.sourceText supporting) date = true ↔
      ∃ e ∈ supporting, ∃ t ∈ rows.evidenceTexts e, includes t date = true := by
  refine sourceText_iff (includes · date = true) (fun hmem => ?_) fun s t => ?_
  · rw [includes, decide_eq_true_eq, List.infix_nil] at hmem
    exact h.2 hmem
  · simp only [includes, decide_eq_true_eq]
    exact infix_append_cons h.1

end ResearchWorkbench.Qa
