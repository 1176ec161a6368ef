import Mathlib.Data.List.Basic

namespace ResearchWorkbench

/-!
# Comma-separated values

A reader of RFC 4180, one code unit at a time, and a writer that quotes every field.

* `CsvState`, `CsvState.next`, `readCsv` — the reader, with the field and the record it is in;
* `quoteField`, `renderCsv` — the writer;
* `readQuotes`, `readField`, `readRecord` — what the reader does with the parts, by induction on
  each;
* `readCsv_renderCsv` — the reader returns the records that were written.
-/

/-- Where in a field the reader is. -/
inductive CsvMode
  | fieldStart
  | plain
  | quoted
  /-- After a quotation mark in a quoted field: the end of the field, or half of a mark. -/
  | quoteSeen
  /-- After the carriage return that ends a record. -/
  | carriageReturn
  deriving DecidableEq, Repr

/-- The reader: its mode, the field and the record so far, and the records before. -/
structure CsvState where
  mode : CsvMode
  field : List ℕ
  record : List (List ℕ)
  records : List (List (List ℕ))
  deriving DecidableEq, Repr

namespace CsvState

/-- A code unit of the field. -/
def push (s : CsvState) (mode : CsvMode) (c : ℕ) : CsvState :=
  { s with mode, field := s.field ++ [c] }

/-- The field ends. -/
def endField (s : CsvState) : CsvState := ⟨.fieldStart, [], s.record ++ [s.field], s.records⟩

/-- The record ends. -/
def endRecord (s : CsvState) : CsvState :=
  ⟨.fieldStart, [], [], s.records ++ [s.record ++ [s.field]]⟩

/-- One code unit; `none` where the text is no CSV. -/
def next (s : CsvState) (c : ℕ) : Option CsvState :=
  match s.mode with
  | .fieldStart =>
    if c = 34 then some { s with mode := .quoted }
    else if c = 44 then some s.endField
    else if c = 13 then some { s with mode := .carriageReturn }
    else if c = 10 then none
    else some (s.push .plain c)
  | .plain =>
    if c = 44 then some s.endField
    else if c = 13 then some { s with mode := .carriageReturn }
    else if c = 34 ∨ c = 10 then none
    else some (s.push .plain c)
  | .quoted => if c = 34 then some { s with mode := .quoteSeen } else some (s.push .quoted c)
  | .quoteSeen =>
    if c = 34 then some (s.push .quoted c)
    else if c = 44 then some s.endField
    else if c = 13 then some { s with mode := .carriageReturn }
    else none
  | .carriageReturn => if c = 10 then some s.endRecord else none

/-- The end of the text; the last record need not be ended. -/
def finish (s : CsvState) : Option (List (List (List ℕ))) :=
  match s.mode with
  | .fieldStart => some (if s.record = [] then s.records else s.endRecord.records)
  | .plain | .quoteSeen => some s.endRecord.records
  | .quoted | .carriageReturn => none

end CsvState

/-- What the reader makes of a text, from some state on. -/
def readCsvFrom (s : CsvState) (text : List ℕ) : Option CsvState := text.foldlM CsvState.next s

/-- The records of a text. -/
def readCsv (text : List ℕ) : Option (List (List (List ℕ))) :=
  readCsvFrom ⟨.fieldStart, [], [], []⟩ text >>= CsvState.finish

/-- The quotation marks of a field, doubled. -/
def doubleQuotes (field : List ℕ) : List ℕ := field.flatMap fun c => if c = 34 then [34, 34] else [c]

/-- A quoted field. -/
def quoteField (field : List ℕ) : List ℕ := 34 :: (doubleQuotes field ++ [34])

/-- Quoted fields, separated by commas. -/
def renderRecord (record : List (List ℕ)) : List ℕ := [44].intercalate (record.map quoteField)

/-- Records, separated and ended by line breaks. -/
def renderCsv (records : List (List (List ℕ))) : List ℕ :=
  [13, 10].intercalate (records.map renderRecord) ++ [13, 10]

variable {s : CsvState} {field t u : List ℕ} {record fields : List (List ℕ)}
  {records rows : List (List (List ℕ))}

theorem readCsvFrom_append : readCsvFrom s (t ++ u) = readCsvFrom s t >>= (readCsvFrom · u) :=
  List.foldlM_append

theorem readCsvFrom_cons (c : ℕ) : readCsvFrom s (c :: t) = s.next c >>= (readCsvFrom · t) := rfl

/-- A quoted field is read up to its end, one code unit or doubled mark after the other. -/
theorem readQuotes (before : List ℕ) :
    readCsvFrom ⟨.quoted, before, record, records⟩ (doubleQuotes field) =
      some ⟨.quoted, before ++ field, record, records⟩ := by
  induction field generalizing before with
  | nil =>
    rw [List.append_nil]
    rfl
  | cons c field ih =>
    show readCsvFrom _ ((if c = 34 then [34, 34] else [c]) ++ doubleQuotes field) = _
    rw [readCsvFrom_append, show before ++ c :: field = before ++ [c] ++ field by simp]
    by_cases hc : c = 34
    · rw [if_pos hc, hc]
      exact ih (before ++ [34])
    · rw [if_neg hc]
      have hstep : readCsvFrom ⟨.quoted, before, record, records⟩ [c] =
          some ⟨.quoted, before ++ [c], record, records⟩ := by
        rw [readCsvFrom_cons]
        show (if c = 34 then _ else _) >>= _ = _
        rw [if_neg hc]
        rfl
      rw [hstep]
      exact ih (before ++ [c])

theorem readField : readCsvFrom ⟨.fieldStart, [], record, records⟩ (quoteField field) =
    some ⟨.quoteSeen, field, record, records⟩ := by
  show readCsvFrom ⟨.quoted, [], record, records⟩ (doubleQuotes field ++ [34]) = _
  rw [readCsvFrom_append, readQuotes, List.nil_append]
  rfl

/-- A record is read field by field. -/
theorem readRecord (hfields : fields ≠ []) :
    readCsvFrom ⟨.fieldStart, [], record, records⟩ (renderRecord fields ++ [13, 10]) =
      some ⟨.fieldStart, [], [], records ++ [record ++ fields]⟩ := by
  induction fields generalizing record with
  | nil => exact absurd rfl hfields
  | cons field fields ih =>
    cases fields with
    | nil =>
      show readCsvFrom _ (([44] : List ℕ).intercalate [quoteField field] ++ [13, 10]) = _
      rw [List.intercalate_singleton, readCsvFrom_append, readField]
      rfl
    | cons other fields =>
      have hrender : renderRecord (field :: other :: fields) =
          quoteField field ++ (44 :: renderRecord (other :: fields)) := by
        show ([44] : List ℕ).intercalate (_ :: _ :: _) = _
        rw [List.intercalate_cons_cons]
        exact List.append_assoc _ _ _
      rw [hrender, List.append_assoc, readCsvFrom_append, readField]
      show readCsvFrom ⟨.fieldStart, [], record ++ [field], records⟩
        (renderRecord (other :: fields) ++ [13, 10]) = _
      rw [ih (by simp), List.append_assoc]
      rfl

theorem renderCsv_cons (hrows : rows ≠ []) :
    renderCsv (record :: rows) = renderRecord record ++ [13, 10] ++ renderCsv rows := by
  rcases rows with _ | ⟨row, rows⟩
  · exact absurd rfl hrows
  · show ([13, 10] : List ℕ).intercalate (_ :: _ :: _) ++ _ = _
    rw [List.intercalate_cons_cons, List.append_assoc]
    rfl

theorem readCsvFrom_renderCsv (hne : rows ≠ []) (hrows : ∀ row ∈ rows, row ≠ []) :
    readCsvFrom ⟨.fieldStart, [], [], records⟩ (renderCsv rows) =
      some ⟨.fieldStart, [], [], records ++ rows⟩ := by
  induction rows generalizing records with
  | nil => exact absurd rfl hne
  | cons row rows ih =>
    have hrow : row ≠ [] := hrows row List.mem_cons_self
    rcases rows with _ | ⟨other, rows⟩
    · have hone : renderCsv [row] = renderRecord row ++ [13, 10] := by
        rw [renderCsv, List.map_singleton, List.intercalate_singleton]
      rw [hone, readRecord hrow, List.nil_append]
    · rw [renderCsv_cons (by simp), readCsvFrom_append, readRecord hrow, List.nil_append]
      have := @ih (records ++ [row]) (by simp) fun r hr => hrows r (List.mem_cons_of_mem _ hr)
      refine this.trans ?_
      rw [List.append_assoc]
      rfl

/-- **Round trip.**  The records that were written are read again. -/
theorem readCsv_renderCsv (hne : rows ≠ []) (hrows : ∀ row ∈ rows, row ≠ []) :
    readCsv (renderCsv rows) = some rows := by
  rw [readCsv, readCsvFrom_renderCsv hne hrows]
  rfl

end ResearchWorkbench
