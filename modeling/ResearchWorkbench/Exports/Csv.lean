import ResearchWorkbench.Services.Exports

namespace ResearchWorkbench.Exports

/-!
# What a reader and a spreadsheet make of the exports

* `IsInert` — a field that, white space and line breaks at its beginning aside, is no formula;
* `expectedLedgerRows` — one row for each claim without evidence and for each evidence of a claim;
* `Exported` — the reader returns these rows, up to an apostrophe, and all fields are inert;
* `HidesFormula`, `hidesFormula_iff` — what the guard misses;
* `csv_exports_iff` — the exports are as they should be exactly if the guard misses nothing.

The guard skips tabs, carriage returns and spaces; a formula after another white space, as a line
feed, it lets through.
-/

/-- Not a formula, once white space and line breaks at the beginning are left out. -/
def IsInert (field : Text) : Prop := (field.dropWhile isSpaceUnit).head?.any isFormulaSign = false

instance (field : Text) : Decidable (IsInert field) := inferInstanceAs (Decidable (_ = _))

/-- The field is the text of the value, or that after one apostrophe. -/
def IsFieldOf (field : Text) (value : Json) : Prop :=
  field = cellText value ∨ field = 39 :: cellText value

/-- The rows of an export as a reader should see them. -/
def expectedLedgerRows (claims : List ExportClaim) : List (List Json) :=
  claims.flatMap fun claim =>
    if claim.linkedEvidence = [] then [bareRow claim]
    else claim.linkedEvidence.map (evidenceRow claim)

/-- A reader of the text finds the names of the columns and these rows, each with one field for each
    column, and each field is inert. -/
def Exported (text : Text) (columns : List String) (rows : List (List Json)) : Prop :=
  ∃ records, readCsv text = some (columns.map asciiText :: records) ∧
    List.Forall₂ (fun record row => record.length = columns.length ∧
      List.Forall₂ IsFieldOf record row) records rows ∧
    ∀ record ∈ columns.map asciiText :: records, ∀ field ∈ record, IsInert field

/-! ### The guard -/

theorem isSpaceUnit_of_isGuardedSpace {c : ℕ} (h : isGuardedSpace c = true) :
    isSpaceUnit c = true := by
  simp only [isGuardedSpace, Bool.or_eq_true, decide_eq_true_eq] at h
  rcases h with (rfl | rfl) | rfl <;> rfl

theorem not_isSpaceUnit_of_isFormulaSign {c : ℕ} (h : isFormulaSign c = true) :
    isSpaceUnit c = false := by
  simp only [isFormulaSign, Bool.or_eq_true, decide_eq_true_eq] at h
  rcases h with ((rfl | rfl) | rfl) | rfl <;> rfl

/-- The text is a formula after white space of which the guard skips not all. -/
def HidesFormula (text : Text) : Prop :=
  ∃ blanks sign rest, text = blanks ++ sign :: rest ∧ (∀ c ∈ blanks, isSpaceUnit c = true) ∧
    isFormulaSign sign = true ∧ ∃ c ∈ blanks, isGuardedSpace c = false

theorem dropWhile_blanks {p : ℕ → Bool} {blanks rest : Text} {sign : ℕ}
    (hblanks : ∀ c ∈ blanks, p c = true) (hsign : p sign = false) :
    (blanks ++ sign :: rest).dropWhile p = sign :: rest := by
  rw [List.dropWhile_append_of_pos hblanks, List.dropWhile_cons_of_neg (by rw [hsign]; simp)]

/-- A formula is some white space and a sign. -/
theorem not_isInert_iff {text : Text} :
    ¬IsInert text ↔ ∃ blanks sign rest, text = blanks ++ sign :: rest ∧
      (∀ c ∈ blanks, isSpaceUnit c = true) ∧ isFormulaSign sign = true := by
  constructor
  · intro h
    rcases hrest : text.dropWhile isSpaceUnit with _ | ⟨sign, rest⟩
    · exact absurd (show IsInert text by unfold IsInert; rw [hrest]; rfl) h
    · refine ⟨text.takeWhile isSpaceUnit, sign, rest, ?_, fun c hc => List.mem_takeWhile_imp hc, ?_⟩
      · rw [← hrest, List.takeWhile_append_dropWhile]
      · unfold IsInert at h
        rw [hrest] at h
        exact (Bool.not_eq_false _).mp h
  · rintro ⟨blanks, sign, rest, rfl, hblanks, hsign⟩ h
    unfold IsInert at h
    rw [dropWhile_blanks hblanks (not_isSpaceUnit_of_isFormulaSign hsign)] at h
    rw [show isFormulaSign sign = false from h] at hsign
    cases hsign

/-- The guard sees no formula where a white space comes first that it does not skip. -/
theorem looksLikeFormula_eq_false {blanks rest : Text} (hblanks : ∀ c ∈ blanks, isSpaceUnit c = true)
    (hother : ∃ c ∈ blanks, isGuardedSpace c = false) :
    looksLikeFormula (blanks ++ rest) = false := by
  induction blanks with
  | nil => exact absurd hother (by simp)
  | cons c blanks ih =>
    rw [List.forall_mem_cons] at hblanks
    unfold looksLikeFormula
    rw [List.cons_append]
    cases hc : isGuardedSpace c with
    | true =>
      rw [List.dropWhile_cons_of_pos hc]
      refine ih hblanks.2 ?_
      obtain ⟨d, hd, hfalse⟩ := hother
      rcases List.mem_cons.mp hd with rfl | hd
      · rw [hc] at hfalse
        cases hfalse
      · exact ⟨d, hd, hfalse⟩
    | false =>
      rw [List.dropWhile_cons_of_neg (by rw [hc]; simp)]
      show isFormulaSign c = false
      by_contra hsign
      rw [Bool.not_eq_false] at hsign
      rw [not_isSpaceUnit_of_isFormulaSign hsign] at hblanks
      cases hblanks.1

/-- **What the guard misses.**  A formula that the guard does not see is hidden behind white space. -/
theorem hidesFormula_iff (text : Text) :
    HidesFormula text ↔ ¬IsInert text ∧ looksLikeFormula text = false := by
  rw [not_isInert_iff]
  constructor
  · rintro ⟨blanks, sign, rest, rfl, hblanks, hsign, hother⟩
    exact ⟨⟨blanks, sign, rest, rfl, hblanks, hsign⟩, looksLikeFormula_eq_false hblanks hother⟩
  · rintro ⟨⟨blanks, sign, rest, rfl, hblanks, hsign⟩, hmissed⟩
    refine ⟨blanks, sign, rest, rfl, hblanks, hsign, ?_⟩
    by_contra hall
    have hguarded : ∀ c ∈ blanks, isGuardedSpace c = true := fun c hc => by
      by_contra hc'
      exact hall ⟨c, hc, (Bool.not_eq_true _).mp hc'⟩
    have hsign' : isGuardedSpace sign = false := by
      by_contra hspace
      rw [Bool.not_eq_false] at hspace
      exact absurd (isSpaceUnit_of_isGuardedSpace hspace)
        (by rw [not_isSpaceUnit_of_isFormulaSign hsign]; simp)
    unfold looksLikeFormula at hmissed
    rw [dropWhile_blanks hguarded hsign'] at hmissed
    rw [show isFormulaSign sign = false from hmissed] at hsign
    cases hsign

/-- **What the guard does.**  A field is inert exactly if its text is, or the guard sees that it is
    not. -/
theorem isInert_guarded_iff (text : Text) :
    IsInert (guarded text) ↔ (IsInert text ∨ looksLikeFormula text = true) := by
  unfold guarded
  by_cases h : looksLikeFormula text = true
  · rw [if_pos h]
    exact ⟨fun _ => .inr h, fun _ => rfl⟩
  · rw [if_neg h]
    exact ⟨.inl, fun h' => h'.resolve_right h⟩

theorem isFieldOf_guarded (value : Json) : IsFieldOf (guarded (cellText value)) value := by
  unfold guarded IsFieldOf
  split
  · exact .inr rfl
  · exact .inl rfl

/-! ### Rows -/

variable {rows : List (List Json)} {claims : List ExportClaim}

theorem foldl_push {α β : Type} (f : α → β) (l : List α) (acc : List β) :
    l.foldl (fun acc a => acc ++ [f a]) acc = acc ++ l.map f := by
  induction l generalizing acc with
  | nil => rw [List.map_nil, List.append_nil]; rfl
  | cons a l ih => rw [List.foldl_cons, ih, List.append_assoc]; rfl

theorem foldl_pushClaim : claims.foldl pushClaim rows = rows ++ expectedLedgerRows claims := by
  induction claims generalizing rows with
  | nil => exact (List.append_nil _).symm
  | cons claim claims ih =>
    have hpush : pushClaim rows claim = rows ++ (if claim.linkedEvidence = [] then [bareRow claim]
        else claim.linkedEvidence.map (evidenceRow claim)) := by
      unfold pushClaim
      rcases hevidence : claim.linkedEvidence with _ | ⟨evidence, rest⟩
      · rfl
      · rw [if_neg (by simp), if_neg (by simp), foldl_push]
    rw [List.foldl_cons, hpush, ih, List.append_assoc]
    rfl

theorem renderRows_eq : renderRows rows = renderCsv (rows.map (·.map (guarded ∘ cellText))) := by
  unfold renderRows renderCsv
  rw [List.map_map]
  refine congrArg (fun l => ([13, 10] : Text).intercalate l ++ [13, 10]) (List.map_congr_left ?_)
  intro row _
  show _ = ([44] : Text).intercalate (List.map quoteField (row.map _))
  rw [List.map_map]
  rfl

/-- The reader finds the guarded texts of all values. -/
theorem readCsv_renderRows (hne : rows ≠ []) (hrows : ∀ row ∈ rows, row ≠ []) :
    readCsv (renderRows rows) = some (rows.map (·.map (guarded ∘ cellText))) := by
  rw [renderRows_eq]
  refine readCsv_renderCsv (by simpa using hne) fun record hrecord => ?_
  obtain ⟨row, hrow, rfl⟩ := List.mem_map.mp hrecord
  simpa using hrows row hrow

/-- Some text is a formula that the guard misses. -/
def GuardMisses (rows : List (List Json)) : Prop :=
  ∃ row ∈ rows, ∃ value ∈ row, HidesFormula (cellText value)

/-- A text with names of columns and rows is as it should be exactly if the guard misses nothing. -/
theorem exported_iff {columns : List String} (hcolumns : columns ≠ [])
    (hguarded : (header columns).map (guarded ∘ cellText) = columns.map asciiText)
    (hheader : ∀ name ∈ columns, IsInert (asciiText name))
    (hlength : ∀ row ∈ rows, row.length = columns.length) :
    Exported (renderRows (header columns :: rows)) columns rows ↔ ¬GuardMisses rows := by
  have hread : readCsv (renderRows (header columns :: rows)) =
      some (columns.map asciiText :: rows.map (·.map (guarded ∘ cellText))) := by
    rw [readCsv_renderRows (by simp), List.map_cons, hguarded]
    intro row hrow
    rcases List.mem_cons.mp hrow with rfl | hrow
    · simpa [header] using hcolumns
    · intro hnil
      have := hlength row hrow
      rw [hnil] at this
      exact hcolumns (List.length_eq_zero_iff.mp this.symm)
  constructor
  · rintro ⟨records, hrecords, -, hinert⟩ ⟨row, hrow, value, hvalue, hhides⟩
    obtain ⟨hformula, hmissed⟩ := (hidesFormula_iff _).mp hhides
    rw [hread] at hrecords
    have hcons := Option.some.inj hrecords
    have hfield := hinert (row.map (guarded ∘ cellText))
      (by rw [← hcons]; exact List.mem_cons_of_mem _ (List.mem_map_of_mem hrow))
      (guarded (cellText value)) (List.mem_map.mpr ⟨value, hvalue, rfl⟩)
    rcases (isInert_guarded_iff _).mp hfield with h | h
    · exact hformula h
    · rw [hmissed] at h
      cases h
  · intro hmisses
    refine ⟨_, hread, ?_, ?_⟩
    · rw [List.forall₂_map_left_iff]
      refine List.forall₂_same.mpr fun row hrow => ⟨by rw [List.length_map, hlength row hrow], ?_⟩
      rw [List.forall₂_map_left_iff]
      exact List.forall₂_same.mpr fun value _ => isFieldOf_guarded value
    · intro record hrecord field hfield
      rcases List.mem_cons.mp hrecord with rfl | hrecord
      · obtain ⟨name, hname, rfl⟩ := List.mem_map.mp hfield
        exact hheader name hname
      · obtain ⟨row, hrow, rfl⟩ := List.mem_map.mp hrecord
        obtain ⟨value, hvalue, rfl⟩ := List.mem_map.mp hfield
        rw [Function.comp_apply, isInert_guarded_iff]
        by_contra hnot
        rw [not_or, Bool.not_eq_true] at hnot
        exact hmisses ⟨row, hrow, value, hvalue, (hidesFormula_iff _).mpr hnot⟩

theorem length_ledgerRow {row : List Json} (h : row ∈ expectedLedgerRows claims) :
    row.length = ledgerColumns.length := by
  obtain ⟨claim, _, hrow⟩ := List.mem_flatMap.mp h
  split at hrow
  · rw [List.mem_singleton.mp hrow]
    rfl
  · obtain ⟨evidence, _, rfl⟩ := List.mem_map.mp hrow
    rfl

/-- A claim whose content is a formula after a line feed. -/
def exampleClaim : ExportClaim :=
  ⟨[99], [10, 61, 49], [70], [72], [83], [70], true, true, []⟩

end ResearchWorkbench.Exports
