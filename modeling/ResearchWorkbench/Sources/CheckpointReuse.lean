import ResearchWorkbench.Library.Transition
import ResearchWorkbench.Services.SearchCheckpoints
import ResearchWorkbench.Sources.PaidSearches

namespace ResearchWorkbench.SearchHits

/-!
# Checkpoints are reused

A search that was committed is not made again: a later attempt of its job reads the checkpoint back,
whatever has happened to the database in between.

* `LawfulCheckpoints` — what is documented of the platform;
* `rereads_sourceSearchOutputSchema`, `tiesAlike_output` — the checkpoint is parsed again, and has no
  keys whose order matters;
* `registered_ids` — the rows registered are those of the candidates;
* `Committed`, `Committed.step` — what stays in the database;
* `search_checkpoints_round_trip` — the reuse, and what a refused response changes.
-/

open Contracts JsonTree JsonSchema

/-! ### The platform -/

/-- A name of ASCII letters, digits and underscores. -/
def IsName (k : Text) : Prop := ∀ c ∈ k, isLetter c = true ∨ 48 ≤ c ∧ c ≤ 57 ∨ c = 95

/-- What is documented of the platform: `localeCompare` is a total preorder that tells different names
    apart; `jsonb` keeps keys in a total order; and a digest is a text of hexadecimal digits. -/
structure LawfulCheckpoints (p : CheckpointPlatform) : Prop where
  locale : IsLocaleOrder p.localeCompare
  names : ∀ k k', IsName k → IsName k' → p.localeCompare k k' = 0 → k = k'
  keyTrans : ∀ a b c, p.keyOrder a b = true → p.keyOrder b c = true → p.keyOrder a c = true
  keyTotal : ∀ a b, (p.keyOrder a b || p.keyOrder b a) = true
  keyAntisymm : ∀ a b, p.keyOrder a b = true → p.keyOrder b a = true → a = b
  digest : ∀ t, ∀ c ∈ p.digest t, isVisibleUnit c
  digest_ne_nil : ∀ t, p.digest t ≠ []

variable {p : CheckpointPlatform}

/-- Names are not tied. -/
theorem LawfulCheckpoints.tied (hp : LawfulCheckpoints p) (k k' : Text) (hk : IsName k)
    (hk' : IsName k') (hle : localeLe p.localeCompare k k' = true)
    (hge : localeLe p.localeCompare k' k = true) : k = k' := by
  simp only [localeLe, decide_eq_true_eq] at hle hge
  have hzero := (hp.locale.swap k k').mpr hge
  exact hp.names k k' hk hk' (by omega)

/-! ### The schema -/

theorem trimmedBetween_eq_ok {m n : ℕ} {t t' : Text} (h : trimmedBetween m n t = .ok t') :
    t' = trimText t ∧ m ≤ t'.length ∧ t'.length ≤ n := by
  simp only [trimmedBetween, Schema.andThen_eq_ok, Schema.atLeast_eq_ok, Schema.atMost_eq_ok,
    trimmed, Except.ok.injEq] at h
  rcases h with ⟨_, rfl, _, ⟨hmin, rfl⟩, hmax, rfl⟩
  exact ⟨rfl, hmin, hmax⟩

theorem trimmedBetween_again {m n : ℕ} {t t' : Text} (h : trimmedBetween m n t = .ok t') :
    trimmedBetween m n t' = .ok t' := by
  rcases trimmedBetween_eq_ok h with ⟨htrim, hlength⟩
  have ht' : IsTrimmed t' := by
    rw [htrim]
    exact isTrimmed_trimText t
  exact (checks_trimmedBetween ht').eq_ok hlength

theorem urlText_again {q : SearchPlatform} {t t' : Text} (h : urlText q t = .ok t') :
    urlText q t' = .ok t' := by
  simp only [urlText, bind_eq_ok, require_eq_ok, pure_eq_ok] at h ⊢
  rcases h with ⟨url, hurl, rfl⟩
  have htrim : trimText (trimText t) = trimText t := isTrimmed_trimText t
  rw [htrim]
  exact ⟨url, hurl, rfl⟩

theorem atMost_again {n : ℕ} {t t' : Text} (h : Schema.atMost n t = .ok t') :
    Schema.atMost n t' = .ok t' := by
  rcases Schema.atMost_eq_ok.mp h with ⟨hlength, rfl⟩
  exact Schema.atMost_eq_ok.mpr ⟨hlength, rfl⟩

theorem rereads_text : Rereads (textOf .ok) := rereads_textOf fun _ _ _ => rfl

theorem rereads_trimmedBetween (m n : ℕ) : Rereads (textOf (trimmedBetween m n)) :=
  rereads_textOf fun _ _ => trimmedBetween_again

theorem rereads_resultSchema (p : CheckpointPlatform) : Rereads (resultSchema p) := by
  refine rereads_objectOf (by simp [asciiText]) ?_
  simp only [List.forall_mem_cons]
  exact ⟨rereads_trimmedBetween 1 200, rereads_trimmedBetween 1 500,
    rereads_textOf fun _ _ => urlText_again, rereads_textOf fun _ _ => atMost_again, rereads_text,
    rereads_trimmedBetween 2 20, List.forall_mem_nil _⟩

theorem rereads_metadataSchema : Rereads metadataSchema := by
  refine rereads_objectOf (by simp [asciiText]) ?_
  simp only [List.forall_mem_cons]
  exact ⟨rereads_text, rereads_nonnegative, rereads_text, rereads_recordOf, List.forall_mem_nil _⟩

theorem rereads_searchSchema (p : CheckpointPlatform) : Rereads (searchSchema p) := by
  refine rereads_objectOf (by simp [asciiText]) ?_
  simp only [List.forall_mem_cons]
  exact ⟨rereads_trimmedBetween 1 200, rereads_trimmedBetween 1 400,
    rereads_arrayOf (rereads_resultSchema p) 20, rereads_metadataSchema, List.forall_mem_nil _⟩

/-- **The schema of the checkpoint** parses again what it has parsed. -/
theorem rereads_sourceSearchOutputSchema (p : CheckpointPlatform) :
    Rereads (sourceSearchOutputSchema p) := by
  refine rereads_objectOf (by simp [asciiText]) ?_
  simp only [List.forall_mem_cons]
  exact ⟨rereads_searchSchema p, rereads_arrayOf rereads_recordOf 20, List.forall_mem_nil _⟩

/-! ### The keys of the checkpoint -/

/-- The value has distinct keys, all of them names. -/
def IsNamed (v : Json) : Prop := v.DistinctKeys ∧ v.KeysIn IsName

theorem isNamed_leaf (a : JsonScalar) : IsNamed (.leaf a) := ⟨trivial, trivial⟩

theorem isNamed_array {items : List Json} (h : ∀ x ∈ items, IsNamed x) : IsNamed (.array items) :=
  ⟨distinctItems_iff.mpr fun x hx => (h x hx).1, itemKeysIn_iff.mpr fun x hx => (h x hx).2⟩

theorem isNamed_object {fields : List (Text × Json)} (hkeys : (fields.map Prod.fst).Nodup)
    (h : ∀ f ∈ fields, IsName f.1 ∧ IsNamed f.2) : IsNamed (.object fields) :=
  ⟨⟨hkeys, distinctFields_iff.mpr fun f hf => (h f hf).2.1⟩,
    fun f hf => (h f hf).1, fieldKeysIn_iff.mpr fun f hf => (h f hf).2.2⟩

theorem isNamed_textJson (t : Text) : IsNamed (textJson t) := isNamed_leaf _

instance decidableIsName (k : Text) : Decidable (IsName k) :=
  inferInstanceAs (Decidable (∀ c ∈ k, isLetter c = true ∨ 48 ≤ c ∧ c ≤ 57 ∨ c = 95))

theorem mem_optionalField {key : String} {value : Option Json} {f : Text × Json}
    (h : f ∈ optionalField key value) : f.1 = asciiText key ∧ f.2 ∈ value := by
  rw [optionalField, Option.mem_toList] at h
  rcases Option.map_eq_some_iff.mp h with ⟨v, hv, rfl⟩
  exact ⟨rfl, hv⟩

/-- An optional field with a name as its key. -/
theorem isNamed_optionalField {key : String} {value : Option Json} (hkey : IsName (asciiText key))
    (hvalue : ∀ v ∈ value, IsNamed v) : ∀ f ∈ optionalField key value, IsName f.1 ∧ IsNamed f.2 := by
  intro f hf
  rcases mem_optionalField hf with ⟨hk, hv⟩
  rw [hk]
  exact ⟨hkey, hvalue _ hv⟩

theorem isNamed_optionalText {key : String} (o : Option Text) (hkey : IsName (asciiText key)) :
    ∀ f ∈ optionalField key (o.map textJson), IsName f.1 ∧ IsNamed f.2 := by
  refine isNamed_optionalField hkey fun v hv => ?_
  rcases Option.map_eq_some_iff.mp hv with ⟨t, _, rfl⟩
  exact isNamed_textJson t

theorem isNamed_rateLimit (r : RateLimit) : IsNamed r.json := by
  refine isNamed_object ?_ ?_
  · rcases r with ⟨_ | _, _ | _, _ | _⟩ <;> simp [optionalField, asciiText]
  · simp only [List.forall_mem_append]
    exact ⟨⟨isNamed_optionalText _ (by decide), isNamed_optionalText _ (by decide)⟩,
      isNamed_optionalText _ (by decide)⟩

theorem isNamed_metadata (m : SearchMetadata) : IsNamed m.json := by
  refine isNamed_object ?_ ?_
  · rcases m with ⟨_, _, _ | _, _ | _⟩ <;> simp [optionalField, asciiText]
  · simp only [List.forall_mem_append, List.forall_mem_cons]
    refine ⟨⟨⟨⟨by decide, isNamed_textJson _⟩, ⟨by decide, isNamed_leaf _⟩, List.forall_mem_nil _⟩,
      isNamed_optionalText _ (by decide)⟩, isNamed_optionalField (by decide) fun v hv => ?_⟩
    rcases Option.map_eq_some_iff.mp hv with ⟨r, _, rfl⟩
    exact isNamed_rateLimit r

theorem isNamed_hitJson (hit : CheckpointHit) : IsNamed (hitJson hit) := by
  refine isNamed_object ?_ ?_
  · rcases hit with ⟨⟨_, _, _, _, _ | _, _ | _⟩, _⟩ <;> simp [optionalField, asciiText]
  · simp only [List.forall_mem_append, List.forall_mem_cons]
    exact ⟨⟨⟨⟨⟨by decide, isNamed_textJson _⟩, ⟨by decide, isNamed_textJson _⟩,
      ⟨by decide, isNamed_textJson _⟩, ⟨by decide, isNamed_textJson _⟩, List.forall_mem_nil _⟩,
      isNamed_optionalText _ (by decide)⟩, isNamed_optionalText _ (by decide)⟩,
      ⟨by decide, isNamed_textJson _⟩, List.forall_mem_nil _⟩

/-- **A response** has names as its keys. -/
theorem isNamed_searchJson (response : SearchResponse) (hits : List CheckpointHit) :
    IsNamed (searchJson response hits) := by
  refine isNamed_object ?_ ?_
  · simp [asciiText]
  · simp only [List.forall_mem_cons]
    refine ⟨⟨by decide, isNamed_textJson _⟩, ⟨by decide, isNamed_textJson _⟩, ⟨by decide, ?_⟩,
      ⟨by decide, isNamed_metadata _⟩, List.forall_mem_nil _⟩
    refine isNamed_array fun x hx => ?_
    rcases List.mem_map.mp hx with ⟨hit, _, rfl⟩
    exact isNamed_hitJson hit

theorem names_sourceColumns : ∀ name ∈ sourceColumns, IsName (asciiText name) := by
  decide

theorem nodup_sourceColumns : (sourceColumns.map asciiText).Nodup := by
  decide

/-- A column is a leaf, or `fetch_metadata` in the order in which it is kept. -/
theorem column_cases (p : CheckpointPlatform) (row : SourceRow) (name : String) :
    (∃ a, row.column p name = .leaf a) ∨
      row.column p name = row.fetchMetadata.sorted p.keyOrder := by
  unfold SourceRow.column
  split
  · exact .inl ⟨_, rfl⟩
  split
  · exact .inl ⟨_, rfl⟩
  split
  · cases row.url with
    | none => exact .inl ⟨_, rfl⟩
    | some url => exact .inl ⟨_, rfl⟩
  split
  · exact .inl ⟨_, rfl⟩
  split
  · exact .inl ⟨_, rfl⟩
  split
  · exact .inr rfl
  · cases row.rest name with
    | scalar s => exact .inl ⟨_, rfl⟩
    | date iso => exact .inl ⟨_, rfl⟩

theorem keys_row (p : CheckpointPlatform) (row : SourceRow) :
    (sourceColumns.map fun name => (asciiText name, row.column p name)).map Prod.fst =
      sourceColumns.map asciiText := by
  rw [List.map_map]
  rfl

theorem distinctKeys_row (p : CheckpointPlatform) (row : SourceRow) : (row.json p).DistinctKeys := by
  refine ⟨?_, distinctFields_iff.mpr fun f hf => ?_⟩
  · rw [keys_row]
    exact nodup_sourceColumns
  · rcases List.mem_map.mp hf with ⟨name, _, rfl⟩
    rcases column_cases p row name with ⟨a, ha⟩ | hkept
    · show (row.column p name).DistinctKeys
      rw [ha]
      trivial
    · show (row.column p name).DistinctKeys
      rw [hkept]
      exact distinctKeys_sorted p.keyOrder row.distinct

/-- A row has no keys whose order matters: its columns are names, and `fetch_metadata` is read in the
    order in which it is kept. -/
theorem tiesAlike_row (hp : LawfulCheckpoints p) (row : SourceRow) :
    (row.json p).TiesAlike (localeLe p.localeCompare) ((row.json p).sorted p.keyOrder) := by
  have hnames : ∀ f ∈ sourceColumns.map (fun name => (asciiText name, row.column p name)),
      IsName f.1 := by
    intro f hf
    rcases List.mem_map.mp hf with ⟨name, hname, rfl⟩
    exact names_sourceColumns name hname
  refine tiesAlike_sorted_object ?_ (fun f hf g hg => hp.tied _ _ (hnames f hf) (hnames g hg))
    fun f hf => ?_
  · rw [keys_row]
    exact nodup_sourceColumns
  · rcases List.mem_map.mp hf with ⟨name, _, rfl⟩
    rcases column_cases p row name with ⟨a, ha⟩ | hkept
    · show TiesAlike _ (row.column p name) _
      rw [ha]
      trivial
    · show TiesAlike _ (row.column p name) ((row.column p name).sorted p.keyOrder)
      rw [hkept, sorted_sorted hp.keyTrans hp.keyTotal hp.keyAntisymm row.distinct]
      exact tiesAlike_refl (distinctKeys_sorted p.keyOrder row.distinct)

theorem distinctKeys_output (p : CheckpointPlatform) {search : Json} (hsearch : search.DistinctKeys)
    (registered : List SourceRow) : (outputJson p search registered).DistinctKeys := by
  refine ⟨by simp [asciiText], distinctFields_iff.mpr ?_⟩
  simp only [List.forall_mem_cons]
  refine ⟨hsearch, distinctItems_iff.mpr fun x hx => ?_, List.forall_mem_nil _⟩
  rcases List.mem_map.mp hx with ⟨row, _, rfl⟩
  exact distinctKeys_row p row

/-! ### The parsed checkpoint -/

variable {search output : Json} {registered : List SourceRow}

theorem arrayOf_recordOf {n : ℕ} {items : List Json} {rows : Json}
    (h : arrayOf recordOf n (.array items) = .ok rows) : rows = .array items := by
  rcases arrayOf_eq_ok.mp h with ⟨items₁, items₂, heq, rfl, hitems, -⟩
  cases heq
  congr 1
  clear h
  induction hitems with
  | nil => rfl
  | cons hxy _ ih =>
    unfold recordOf at hxy
    split at hxy
    · rw [ih, Except.ok.inj hxy]
    · cases hxy

/-- The shape of the checkpoint. -/
def outputShape (p : CheckpointPlatform) : List FieldSchema :=
  [⟨asciiText "search", false, searchSchema p⟩, ⟨asciiText "registered", false, arrayOf recordOf 20⟩]

theorem nodup_outputShape (p : CheckpointPlatform) : ((outputShape p).map (·.key)).Nodup := by
  simp [outputShape, asciiText]

/-- The parts of a parsed checkpoint. -/
theorem parsed_parts (h : sourceSearchOutputSchema p (outputJson p search registered) = .ok output) :
    (∃ parsed, searchSchema p search = .ok parsed ∧ output.field (asciiText "search") = some parsed) ∧
      output.field (asciiText "registered") = some (.array (registered.map (·.json p))) := by
  constructor
  · exact field_of_objectOf (nodup_outputShape p) List.mem_cons_self h (x := search) rfl
  · rcases field_of_objectOf (nodup_outputShape p) (List.mem_cons_of_mem _ List.mem_cons_self) h
      (x := .array (registered.map (·.json p))) rfl with ⟨rows, hrows, hfield⟩
    rw [hfield, arrayOf_recordOf hrows]

/-- **A checkpoint** has no keys whose order matters. -/
theorem tiesAlike_output (hp : LawfulCheckpoints p) (hsearch : IsNamed search)
    (h : sourceSearchOutputSchema p (outputJson p search registered) = .ok output) :
    output.TiesAlike (localeLe p.localeCompare) (output.sorted p.keyOrder) := by
  rcases objectOf_eq_ok.mp h with ⟨fields, parsed, heq, hparsed, hothers, rfl⟩
  obtain rfl : fields = _ := (JsonTree.object.inj heq).symm
  have hempty := List.isEmpty_iff.mp (hothers.resolve_left Bool.false_ne_true)
  rw [hempty, List.append_nil]
  have hentry : ∀ e ∈ entriesOf parsed, IsName e.1 ∧
      e.2.TiesAlike (localeLe p.localeCompare) (e.2.sorted p.keyOrder) := by
    intro e he
    rcases parsed_of_mem hparsed he with ⟨f, hf, hkey, x, hx, hy⟩
    rw [hkey]
    rcases List.mem_cons.mp hf with rfl | hf
    · -- the search: all of its keys are names
      refine ⟨show IsName (asciiText "search") by decide, ?_⟩
      obtain rfl : search = x := Option.some.inj hx
      have hreads := rereads_searchSchema p
      exact tiesAlike_of_keysIn hp.tied (hreads.distinct hsearch.1 hy) (hreads.keys hsearch.2 hy) _
    · -- the rows, as they were
      obtain rfl := List.mem_singleton.mp hf
      refine ⟨show IsName (asciiText "registered") by decide, ?_⟩
      obtain rfl : .array (registered.map (·.json p)) = x := Option.some.inj hx
      rw [arrayOf_recordOf hy]
      refine tiesAlike_sorted_array fun row hrow => ?_
      rcases List.mem_map.mp hrow with ⟨source, _, rfl⟩
      exact tiesAlike_row hp source
  refine tiesAlike_sorted_object ?_
    (fun f hf g hg => hp.tied _ _ (hentry f hf).1 (hentry g hg).1) fun e he => (hentry e he).2
  have hnodup := nodup_outputShape p
  unfold outputShape at hnodup
  rw [← keys_parsed hparsed] at hnodup
  exact hnodup.sublist keys_entriesOf

/-- A text of the schema is trimmed. -/
theorem textField_of_objectOf {shape : List FieldSchema} {passthrough isOptional : Bool} {m n : ℕ}
    {v w : Json} {key t : Text} (hshape : (shape.map (·.key)).Nodup)
    (hf : ⟨key, isOptional, textOf (trimmedBetween m n)⟩ ∈ shape)
    (h : objectOf shape passthrough v = .ok w) (hv : v.field key = some (textJson t)) :
    w.textField key = some (trimText t) := by
  rcases field_of_objectOf hshape hf h hv with ⟨y, hy, hfield⟩
  have htext : textOf (trimmedBetween m n) (textJson t) = .ok y := hy
  rcases textOf_eq_ok.mp htext with ⟨_, t', heq, ht', rfl⟩
  cases heq
  obtain rfl := (trimmedBetween_eq_ok ht').1
  unfold JsonTree.textField
  rw [hfield]

/-! ### What the checkpoint says -/

section

variable {response : SearchResponse} {hits : List CheckpointHit}

/-- The keys of a shape. -/
theorem nodup_searchShape (p : CheckpointPlatform) :
    (([⟨asciiText "provider", false, textOf (trimmedBetween 1 200)⟩,
      ⟨asciiText "query", false, textOf (trimmedBetween 1 400)⟩,
      ⟨asciiText "results", false, arrayOf (resultSchema p) 20⟩,
      ⟨asciiText "metadata", false, metadataSchema⟩] : List FieldSchema).map (·.key)).Nodup := by
  simp [asciiText]

/-- **What a parsed search says**: its provider, its query and its ids are those of the response,
    trimmed. -/
theorem parsed_search {parsed : Json} (h : searchSchema p (searchJson response hits) = .ok parsed) :
    parsed.textField (asciiText "provider") = some (trimText response.provider) ∧
      parsed.textField (asciiText "query") = some (trimText response.query) ∧
      (parsed.itemsField (asciiText "results")).map (textField (asciiText "id")) =
        hits.map fun hit => some (trimText hit.id) := by
  have hshape := nodup_searchShape p
  refine ⟨textField_of_objectOf hshape List.mem_cons_self h rfl,
    textField_of_objectOf hshape (List.mem_cons_of_mem _ List.mem_cons_self) h rfl, ?_⟩
  rcases field_of_objectOf (f := ⟨asciiText "results", false, arrayOf (resultSchema p) 20⟩) hshape
    (List.mem_cons_of_mem _ (List.mem_cons_of_mem _ List.mem_cons_self)) h (x := .array (hits.map hitJson)) rfl with ⟨results, hresults, hfield⟩
  have harray : arrayOf (resultSchema p) 20 (.array (hits.map hitJson)) = .ok results := hresults
  rcases arrayOf_eq_ok.mp harray with ⟨_, items, heq, rfl, hitems, -⟩
  cases heq
  unfold itemsField
  rw [hfield]
  show items.map _ = _
  clear h hresults harray hfield
  induction hits generalizing items with
  | nil =>
    cases hitems
    rfl
  | cons hit hits ih =>
    cases hitems with
    | cons hxy hrest =>
      rw [List.map_cons, List.map_cons, ih _ hrest]
      congr 1
      exact textField_of_objectOf (by simp [asciiText]) List.mem_cons_self hxy rfl

end

/-! ### The commit -/

section

variable {db db' : SearchDb} {jobId : ℕ} {job : JobRow} {workerId : Text} {call : SearchCall}
  {payload : SearchPayload} {project : SearchProject} {unique : List SourceCandidate}
  {state state' : Registration} {candidate : SourceCandidate}

theorem find_id {rows : List SourceRow} {row : SourceRow} {id : Text}
    (h : rows.find? (fun row => decide (row.id = id)) = some row) : row.id = id :=
  of_decide_eq_true (List.find?_some (p := fun row : SourceRow => decide (row.id = id)) h)

/-- A turn of the loop registers one row, that of the candidate. -/
theorem registerCandidate_eq_ok
    (h : registerCandidate payload project call state candidate = .ok state') :
    ∃ row, row.id = candidate.id ∧ state'.registered = state.registered ++ [row] := by
  unfold registerCandidate at h
  rcases bind_eq_ok.mp h with ⟨_, _, h⟩
  split at h
  · rename_i prior hprior
    simp only [bind_eq_ok, pure_eq_ok] at h
    rcases h with ⟨_, _, rfl⟩
    exact ⟨prior, find_id hprior, rfl⟩
  · simp only [bind_eq_ok] at h
    rcases h with ⟨freshness, _, _, _, h⟩
    split at h
    · obtain rfl := pure_eq_ok.mp h
      exact ⟨_, rfl, rfl⟩
    · simp only [bind_eq_ok, require_eq_ok, pure_eq_ok] at h
      rcases h with ⟨row, hrow, _, _, rfl⟩
      exact ⟨row, find_id hrow, rfl⟩

/-- **The rows registered** are those of the candidates, in their order. -/
theorem registered_ids
    (h : unique.foldlM (registerCandidate payload project call) state = .ok state') :
    state'.registered.map (·.id) = state.registered.map (·.id) ++ unique.map (·.id) := by
  induction unique generalizing state with
  | nil =>
    obtain rfl := pure_eq_ok.mp h
    rw [List.map_nil, List.append_nil]
  | cons candidate unique ih =>
    rw [List.foldlM_cons] at h
    rcases bind_eq_ok.mp h with ⟨next, hnext, h⟩
    rcases registerCandidate_eq_ok hnext with ⟨row, hid, hregistered⟩
    rw [ih h, hregistered, List.map_append, List.map_cons, List.map_nil, hid, List.map_cons,
      List.append_assoc, List.singleton_append]

/-- What a successful commit has checked, and what it has written. -/
structure Commit (p : CheckpointPlatform) (db db' : SearchDb) (jobId : ℕ) (job : JobRow)
    (call : SearchCall) (output : Json) (payload : SearchPayload) (unique : List SourceCandidate)
    (registered : List SourceRow) (row : JobRow) : Prop where
  parsed : parseSourceSearchJob job = .ok payload
  provider : call.response.provider = payload.providerId
  query : trimText call.response.query = payload.query
  nodup : (unique.map (·.id)).Nodup
  candidate : ∀ c ∈ unique, ∃ url,
    c.id = deterministicSourceId p.toSearchPlatform payload.projectId payload.providerId url
  ids : registered.map (·.id) = unique.map (·.id)
  checkpoint : sourceSearchOutputSchema p (outputJson p
    (searchJson call.response (unique.map checkpointHit)) registered) = .ok output
  row_eq : db.jobs jobId = some row
  fenced : row.projectId = job.projectId ∧ row.jobType = .sourceSearch
  written : db'.jobs = Function.update db.jobs jobId (some (row.checkpoint p output (p.hash output)))
  execution : ∃ execution, db.executions[call.executionId]? = some execution ∧
    execution.status = .started ∧ db'.executions = db.executions.modify call.executionId fun row =>
      { row with
        status := .succeeded
        requestId := call.response.metadata.requestId
        outputHash := some (p.hash (searchJson call.response (unique.map checkpointHit))) }

theorem withTransaction_eq_ok {body : Except CommitError (Except CommitError Json × SearchDb)}
    {output : Json} (h : withTransaction db body = (.ok output, db')) :
    body = .ok (.ok output, db') := by
  unfold withTransaction at h
  split at h
  · rw [h]
  · cases h

theorem lockFencedSearchJob_eq_ok {row : JobRow} :
    lockFencedSearchJob db jobId job workerId = .ok row ↔ db.jobs jobId = some row ∧
      row.projectId = job.projectId ∧ row.jobType = .sourceSearch ∧ row.status = .running ∧
      row.leaseOwner = some workerId ∧ row.attempts = job.attempts ∧ row.leaseCurrent = true := by
  rw [lockFencedSearchJob, require_eq_ok, Option.filter_eq_some_iff, decide_eq_true_eq]

/-- The candidates of a response. -/
theorem uniqueCandidates_eq_ok {response : SearchResponse}
    (h : uniqueCandidates p payload response = .ok unique) :
    response.provider = payload.providerId ∧ trimText response.query = payload.query ∧
      (unique.map (·.id)).Nodup ∧ ∀ c ∈ unique, ∃ url,
        c.id = deterministicSourceId p.toSearchPlatform payload.projectId payload.providerId url := by
  simp only [uniqueCandidates, bind_eq_ok, ensure_eq_ok, pure_eq_ok] at h
  rcases h with ⟨_, hprovider, _, hquery, _, _, candidates, hcandidates, rfl⟩
  refine ⟨hprovider, hquery, nodup_firstsBy _ _, fun c hc => ?_⟩
  cases hmap : response.results.mapM (sourceFromHit p.toSearchPlatform (payload.job .unread)) with
  | error error =>
    rw [hmap] at hcandidates
    cases hcandidates
  | ok candidates' =>
    rw [hmap] at hcandidates
    obtain rfl : candidates' = candidates := Except.ok.inj hcandidates
    rcases (mapM_eq_ok hmap).2 c ((firstsBy_sublist _ _).subset hc) with ⟨hit, _, hhit⟩
    simp only [sourceFromHit, bind_eq_ok, pure_eq_ok] at hhit
    rcases hhit with ⟨url, _, _, _, _, _, rfl⟩
    exact ⟨_, rfl⟩

/-- What the end of the transaction writes. -/
theorem storeCheckpoint_eq_ok {output : Json}
    (h : storeCheckpoint p db jobId call unique state = .ok (output, db')) :
    sourceSearchOutputSchema p (outputJson p
        (searchJson call.response (unique.map checkpointHit)) state.registered) = .ok output ∧
      db'.jobs = Function.update db.jobs jobId
        ((db.jobs jobId).map (JobRow.checkpoint p · output (p.hash output))) ∧
      ∃ execution, db.executions[call.executionId]? = some execution ∧
        execution.status = .started ∧ db'.executions = db.executions.modify call.executionId fun row =>
          { row with
            status := .succeeded
            requestId := call.response.metadata.requestId
            outputHash := some (p.hash (searchJson call.response (unique.map checkpointHit))) } := by
  simp only [storeCheckpoint, bind_eq_ok, ensure_eq_ok, pure_eq_ok, finishProviderExecution,
    require_eq_ok] at h
  rcases h with ⟨_, _, executions, ⟨execution, hexecution, _, hstarted, rfl⟩, checkpoint, hcheckpoint, _, _,
    _, _, heq⟩
  obtain ⟨rfl, rfl⟩ := Prod.mk.inj heq
  refine ⟨?_, rfl, execution, hexecution, hstarted, rfl⟩
  cases hparsed : sourceSearchOutputSchema p (outputJson p
      (searchJson call.response (unique.map checkpointHit)) state.registered) with
  | error issue =>
    rw [hparsed] at hcheckpoint
    cases hcheckpoint
  | ok output' =>
    rw [hparsed] at hcheckpoint
    obtain rfl : output' = checkpoint := Except.ok.inj hcheckpoint
    rfl

/-- **A successful commit** has checked all of this. -/
theorem commit_of_eq_ok {output : Json}
    (h : commitSourceSearchResults p db jobId job workerId call = (.ok output, db')) :
    ∃ payload unique registered row,
      Commit p db db' jobId job call output payload unique registered row := by
  have hbody := withTransaction_eq_ok h
  simp only [bind_eq_ok, commitTransaction] at hbody
  rcases hbody with ⟨payload, hpayload, unique, hunique, _, _, project, _, row, hrow, run, _, exceeded,
    _, hstore⟩
  split at hstore
  · cases hstore
  · simp only [bind_eq_ok, pure_eq_ok] at hstore
    rcases hstore with ⟨state, hstate, ⟨output', db''⟩, hstore, heq⟩
    obtain ⟨hout, rfl⟩ := Prod.mk.inj heq
    obtain rfl := Except.ok.inj hout
    rcases storeCheckpoint_eq_ok hstore with ⟨hcheckpoint, hjobs, hexecution⟩
    rcases uniqueCandidates_eq_ok hunique with ⟨hprovider, hquery, hnodup, hcandidate⟩
    rcases lockFencedSearchJob_eq_ok.mp hrow with ⟨hjob, hproject, htype, _⟩
    refine ⟨payload, unique, state.registered, row, hpayload, hprovider, hquery, hnodup, hcandidate,
      registered_ids hstate, hcheckpoint, hjob, ⟨hproject, htype⟩, ?_, hexecution⟩
    rw [hjobs, hjob, Option.map_some]

/-- **A commit that fails** leaves the sources, the jobs and the executions as they were. -/
theorem commit_of_eq_error {error : CommitError}
    (h : commitSourceSearchResults p db jobId job workerId call = (.error error, db')) :
    db'.sources = db.sources ∧ db'.jobs = db.jobs ∧ db'.executions = db.executions := by
  unfold commitSourceSearchResults withTransaction at h
  split at h
  · rename_i outcome after hbody
    obtain ⟨rfl, rfl⟩ := Prod.mk.inj h
    simp only [bind_eq_ok, commitTransaction] at hbody
    rcases hbody with ⟨payload, _, unique, _, _, _, project, _, row, _, run, _, exceeded, _, hstore⟩
    split at hstore
    · -- the budget was exceeded, and the run is blocked
      obtain ⟨_, rfl⟩ := Prod.mk.inj (pure_eq_ok.mp hstore)
      unfold blockRunForSearchBudget
      split
      · exact ⟨rfl, rfl, rfl⟩
      · exact ⟨rfl, rfl, rfl⟩
    · simp only [bind_eq_ok, pure_eq_ok] at hstore
      rcases hstore with ⟨_, _, _, _, heq⟩
      cases (Prod.mk.inj heq).1
  · obtain ⟨_, rfl⟩ := Prod.mk.inj h
    exact ⟨rfl, rfl, rfl⟩

end

/-! ### What stays -/

/-- The job is not committed again, nor completed, nor deleted: what a crash before its completion
    leaves to a later attempt, which asks for the checkpoint before it searches. -/
def Leaves (p : CheckpointPlatform) (jobId : ℕ) (db : SearchDb) : SearchAct → Prop
  | .commit jobId' job workerId call =>
    jobId' = jobId → ∃ error, (commitSourceSearchResults p db jobId' job workerId call).1 = .error error
  | .complete jobId' _ _ => jobId' ≠ jobId
  | .deleteJob jobId' => jobId' ≠ jobId
  | _ => True

/-- The row of the job, with a checkpoint: its lease and its status may be others. -/
structure Checkpointed (p : CheckpointPlatform) (row : JobRow) (output : Json) (row' : JobRow) :
    Prop where
  jobType : row'.jobType = row.jobType
  projectId : row'.projectId = row.projectId
  runId : row'.runId = row.runId
  inputReference : row'.inputReference = row.inputReference
  outputReference : row'.outputReference = some (output.sorted p.keyOrder)
  outputHash : row'.outputHash = some (p.hash output)

/-- What stays of a commit: the checkpoint, and the execution that has succeeded. -/
structure Committed (p : CheckpointPlatform) (jobId : ℕ) (row : JobRow) (output : Json)
    (db : SearchDb) : Prop where
  job : ∃ row', db.jobs jobId = some row' ∧ Checkpointed p row output row'
  execution : ∃ execution ∈ db.executions, execution.jobId = jobId ∧ execution.status = .succeeded

section

variable {db db' : SearchDb} {jobId jobId' : ℕ} {row : JobRow} {output : Json}

/-- A write to a row of a job that keeps the checkpoint. -/
theorem Committed.updateJob (h : Committed p jobId row output db) {f : JobRow → JobRow}
    (hf : jobId' = jobId → ∀ row', Checkpointed p row output row' → Checkpointed p row output (f row')) :
    Committed p jobId row output (db.updateJob jobId' f) := by
  refine ⟨?_, h.execution⟩
  rcases h.job with ⟨row', hrow, hcheckpoint⟩
  by_cases heq : jobId' = jobId
  · refine ⟨f row', ?_, hf heq row' hcheckpoint⟩
    show Function.update db.jobs jobId' _ jobId = _
    rw [heq, Function.update_self, hrow, Option.map_some]
  · refine ⟨row', ?_, hcheckpoint⟩
    show Function.update db.jobs jobId' _ jobId = _
    rw [Function.update_of_ne (Ne.symm heq), hrow]

/-- An execution that has succeeded is not the one that is finished. -/
theorem succeeded_of_modify {executions : List ExecutionRow} {id : ℕ} {started : ExecutionRow}
    (hstarted : executions[id]? = some started) (hstatus : started.status = .started)
    (f : ExecutionRow → ExecutionRow)
    (h : ∃ e ∈ executions, e.jobId = jobId ∧ e.status = .succeeded) :
    ∃ e ∈ executions.modify id f, e.jobId = jobId ∧ e.status = .succeeded := by
  rcases h with ⟨e, he, hjob, hsucceeded⟩
  rcases List.mem_iff_getElem?.mp he with ⟨i, hi⟩
  have hne : id ≠ i := by
    rintro rfl
    obtain rfl := Option.some.inj (hi.symm.trans hstarted)
    rw [hsucceeded] at hstatus
    cases hstatus
  refine ⟨e, List.mem_iff_getElem?.mpr ⟨i, ?_⟩, hjob, hsucceeded⟩
  rw [List.getElem?_modify_ne _ _ hne, hi]

/-- **One step** keeps what stays of a commit. -/
theorem Committed.step (h : Committed p jobId row output db) {act : SearchAct}
    (hact : Leaves p jobId db act) : Committed p jobId row output (db.step p act) := by
  cases act with
  | commit jobId' job workerId call =>
    show Committed p jobId row output (commitSourceSearchResults p db jobId' job workerId call).2
    cases houtcome : commitSourceSearchResults p db jobId' job workerId call with
    | mk outcome db' =>
      cases outcome with
      | error error =>
        rcases commit_of_eq_error houtcome with ⟨_, hjobs, hexecutions⟩
        refine ⟨?_, ?_⟩
        · show ∃ row', db'.jobs jobId = some row' ∧ _
          rw [hjobs]
          exact h.job
        · show ∃ e ∈ db'.executions, _
          rw [hexecutions]
          exact h.execution
      | ok output' =>
        have hne : jobId' ≠ jobId := by
          intro heq
          rcases hact heq with ⟨error, herror⟩
          rw [houtcome] at herror
          cases herror
        rcases commit_of_eq_ok houtcome with ⟨_, _, _, _, hcommit⟩
        rcases hcommit.execution with ⟨started, hstarted, hstatus, hexecutions⟩
        refine ⟨?_, ?_⟩
        · show ∃ row', db'.jobs jobId = some row' ∧ _
          rw [hcommit.written, Function.update_of_ne (Ne.symm hne)]
          exact h.job
        · show ∃ e ∈ db'.executions, _
          rw [hexecutions]
          exact succeeded_of_modify hstarted hstatus _ h.execution
  | submit jobId' row' =>
    unfold SearchDb.step
    dsimp only
    split
    · exact h
    · rename_i hnone
      refine ⟨?_, h.execution⟩
      rcases h.job with ⟨row', hrow, hcheckpoint⟩
      refine ⟨row', ?_, hcheckpoint⟩
      show Function.update db.jobs jobId' _ jobId = _
      rw [Function.update_of_ne, hrow]
      rintro rfl
      rw [hrow] at hnone
      exact hnone rfl
  | setLease jobId' status leaseOwner leaseCurrent attempts =>
    refine h.updateJob fun _ row' hrow => ?_
    exact ⟨hrow.jobType, hrow.projectId, hrow.runId, hrow.inputReference, hrow.outputReference,
      hrow.outputHash⟩
  | complete jobId' output' hash => exact h.updateJob fun heq => absurd heq hact
  | deleteJob jobId' =>
    refine ⟨?_, h.execution⟩
    rcases h.job with ⟨row', hrow, hcheckpoint⟩
    refine ⟨row', ?_, hcheckpoint⟩
    show Function.update db.jobs jobId' none jobId = _
    rw [Function.update_of_ne (Ne.symm hact), hrow]
  | startExecution jobId' =>
    rcases h.execution with ⟨e, he, hsucceeded⟩
    exact ⟨h.job, e, List.mem_append_left _ he, hsucceeded⟩
  | finishExecution id status requestId =>
    unfold SearchDb.step
    dsimp only
    split
    · rename_i executions hfinish
      simp only [finishProviderExecution, bind_eq_ok, require_eq_ok, ensure_eq_ok, pure_eq_ok]
        at hfinish
      rcases hfinish with ⟨started, hstarted, _, hstatus, rfl⟩
      exact ⟨h.job, succeeded_of_modify hstarted hstatus _ h.execution⟩
    · exact h
  | writeSources sources => exact ⟨h.job, h.execution⟩
  | writeProject projectId project => exact ⟨h.job, h.execution⟩
  | writeRun runId run => exact ⟨h.job, h.execution⟩

/-- **A run** keeps what stays of a commit. -/
theorem Committed.run (h : Committed p jobId row output db)
    (hrun : Reach (SearchDb.step p) (Leaves p jobId) db db') : Committed p jobId row output db' :=
  hrun.invariant h fun _ _ hcommitted hact => hcommitted.step hact

end

/-! ### What a later attempt reads -/

section

variable {db db' : SearchDb} {jobId : ℕ} {job row row' : JobRow} {call : SearchCall}
  {payload : SearchPayload} {unique : List SourceCandidate}

theorem textField_id (p : CheckpointPlatform) (source : SourceRow) :
    (source.json p).textField (asciiText "id") = some source.id := by
  rfl

/-- The id of a candidate is trimmed. -/
theorem isTrimmed_sourceId (hp : LawfulCheckpoints p) (projectId providerId url : Text) :
    IsTrimmed (deterministicSourceId p.toSearchPlatform projectId providerId url) := by
  have hfront : ∀ c ∈ asciiText "search-", isVisibleUnit c := by simp [asciiText, isVisibleUnit]
  refine isTrimmed_of_visible fun c hc => ?_
  rcases List.mem_append.mp hc with hc | hc
  · exact hfront c hc
  · exact hp.digest _ c (List.mem_of_mem_take hc)

/-- The ids of a checkpoint. -/
theorem Commit.ids_output (hp : LawfulCheckpoints p)
    (h : Commit p db db' jobId job call output payload unique registered row) :
    ∃ search, output.field (asciiText "search") = some search ∧
      search.textField (asciiText "provider") = some payload.providerId ∧
      search.textField (asciiText "query") = some payload.query ∧
      (search.itemsField (asciiText "results")).map (textField (asciiText "id")) =
        unique.map (fun c => some c.id) ∧
      (output.itemsField (asciiText "registered")).map (textField (asciiText "id")) =
        unique.map fun c => some c.id := by
  rcases parsed_parts h.checkpoint with ⟨⟨search, hsearch, hfield⟩, hregistered⟩
  rcases parsed_search hsearch with ⟨hprovider, hquery, hids⟩
  refine ⟨search, hfield, ?_, ?_, ?_, ?_⟩
  · rw [hprovider, h.provider, payload.provider_isTrimmed]
  · rw [hquery, h.query]
  · rw [hids, List.map_map]
    refine List.map_congr_left fun c hc => ?_
    rcases h.candidate c hc with ⟨url, hid⟩
    show some (trimText c.id) = some c.id
    rw [hid, isTrimmed_sourceId hp]
  · unfold itemsField
    rw [hregistered]
    show (registered.map (·.json p)).map _ = _
    rw [List.map_map]
    calc registered.map (textField (asciiText "id") ∘ (·.json p))
        = registered.map (fun source => some source.id) :=
          List.map_congr_left fun source _ => textField_id p source
      _ = (registered.map (·.id)).map some := by rw [List.map_map]; rfl
      _ = unique.map fun c => some c.id := by rw [h.ids, List.map_map]; rfl

/-- **The checkpoint of a committed job** is read back: it is the value that was committed. -/
theorem Commit.readCheckpoint (hp : LawfulCheckpoints p)
    (h : Commit p db db' jobId job call output payload unique registered row)
    (hrow : Checkpointed p row output row') :
    ∃ parsed, readCheckpoint p payload row' = .ok parsed ∧ output.Same parsed ∧
      resultIds parsed = unique.map (fun c => some c.id) ∧
      registeredIds parsed = unique.map fun c => some c.id := by
  have hnamed : IsNamed (searchJson call.response (unique.map checkpointHit)) := isNamed_searchJson _ _
  have hreads := rereads_sourceSearchOutputSchema p
  have hinput := distinctKeys_output p hnamed.1 registered
  have hdistinct := hreads.distinct hinput h.checkpoint
  have hback : ∃ parsed, sourceSearchOutputSchema p (output.sorted p.keyOrder) = .ok parsed ∧
      parsed.DistinctKeys ∧ output.Same parsed ∧ p.hash parsed = p.hash output :=
    hreads.hash_eq hp.locale hinput h.checkpoint (tiesAlike_output hp hnamed h.checkpoint)
  rcases hback with ⟨parsed, hparsed, hdistinct', hsame, hhash⟩
  rcases h.ids_output hp with ⟨search, hsearch, hprovider, hquery, hresults, hregistered⟩
  -- the search of the value that is read is equal to that of the value that was committed
  have hrel := hsame.field hdistinct hdistinct' (asciiText "search")
  rw [hsearch] at hrel
  rcases exists_of_rel hrel with ⟨search', hsearch', hsame'⟩
  have hsearchOf : searchOf parsed = search' := by
    rw [searchOf, hsearch']
    rfl
  have hkeys := distinctKeys_field hdistinct hsearch
  have hkeys' := distinctKeys_field hdistinct' hsearch'
  refine ⟨parsed, ?_, hsame, ?_, ?_⟩
  · simp only [SearchHits.readCheckpoint, bind_eq_ok, require_eq_ok, ensure_eq_ok, pure_eq_ok]
    refine ⟨_, hrow.outputReference, parsed, ?_, _, hrow.outputHash, (), ⟨?_, hhash, ?_, ?_⟩, rfl⟩
    · rw [hparsed]
      rfl
    · exact hp.digest_ne_nil _
    · rw [hsearchOf, hsame'.textField hkeys hkeys', hprovider]
    · rw [hsearchOf, hsame'.textField hkeys hkeys', hquery]
  · rw [resultIds, hsearchOf, Same.texts (hsame'.itemsField hkeys hkeys')
      (distinctKeys_itemsField hkeys) (distinctKeys_itemsField hkeys'), hresults]
  · rw [registeredIds, Same.texts (hsame.itemsField hdistinct hdistinct')
      (distinctKeys_itemsField hdistinct) (distinctKeys_itemsField hdistinct'), hregistered]

theorem parseSourceSearchJob_eq_ok :
    parseSourceSearchJob job = .ok payload ↔ job.jobType = .sourceSearch ∧
      job.inputReference = some payload ∧ job.projectId = some payload.projectId ∧
      job.runId = payload.runId := by
  simp only [parseSourceSearchJob, bind_eq_ok, ensure_eq_ok, require_eq_ok, pure_eq_ok]
  constructor
  · rintro ⟨_, htype, _, hinput, _, ⟨hproject, hrun⟩, rfl⟩
    exact ⟨htype, hinput, hproject, hrun⟩
  · rintro ⟨htype, hinput, hproject, hrun⟩
    exact ⟨(), htype, payload, hinput, (), ⟨hproject, hrun⟩, rfl⟩

/-- As many rows as there are ids, if each id has a row. -/
theorem count_ids (sources : SourceTable) {projectId : Text} {ids : List Text} (hids : ids.Nodup)
    (h : ∀ id ∈ ids, ∃ source ∈ sources.rows, source.id = id ∧ source.projectId = projectId) :
    (sources.rows.countP fun source =>
      source.projectId = projectId ∧ some source.id ∈ ids.map some) = ids.length := by
  have hkept := sources.nodup.sublist ((List.filter_sublist (p := fun source : SourceRow =>
    decide (source.projectId = projectId ∧ some source.id ∈ ids.map some))).map fun source => source.id)
  rw [List.countP_eq_length_filter, ← List.length_map fun source : SourceRow => source.id]
  refine List.Perm.length_eq ((List.perm_ext_iff_of_nodup hkept hids).mpr fun id => ?_)
  rw [List.mem_map]
  constructor
  · rintro ⟨source, hsource, rfl⟩
    have hboth := of_decide_eq_true (List.mem_filter.mp hsource).2
    exact (List.mem_map_of_injective (Option.some_injective _)).mp hboth.2
  · intro hid
    rcases h id hid with ⟨source, hsource, rfl, hproject⟩
    exact ⟨source, List.mem_filter.mpr ⟨hsource,
      decide_eq_true ⟨hproject, List.mem_map_of_mem hid⟩⟩, rfl⟩

/-- The attempt runs: it has the lease of the job, and the project is there. -/
structure AttemptRuns (db : SearchDb) (jobId : ℕ) (attempt : JobRow) (workerId projectId : Text) :
    Prop where
  project : (db.projects projectId).isSome = true
  lease : ∃ current, db.jobs jobId = some current ∧ current.status = .running ∧
    current.leaseOwner = some workerId ∧ current.attempts = attempt.attempts ∧
    current.leaseCurrent = true

/-- The sources that are registered are there, in the project. -/
def SourcesPresent (db : SearchDb) (projectId : Text) (output : Json) : Prop :=
  ∀ id, some id ∈ registeredIds output →
    ∃ source ∈ db.sources.rows, source.id = id ∧ source.projectId = projectId

/-- **A later attempt** parses its payload as the committed one did. -/
theorem Commit.parse_attempt
    (h : Commit p db db' jobId job call output payload unique registered row)
    (hjob : row.inputReference = job.inputReference ∧ row.runId = job.runId) {attempt : JobRow}
    (hattempt : Checkpointed p row output attempt) : parseSourceSearchJob attempt = .ok payload := by
  rcases parseSourceSearchJob_eq_ok.mp h.parsed with ⟨_, hinput, hproject, hrun⟩
  refine parseSourceSearchJob_eq_ok.mpr ⟨?_, ?_, ?_, ?_⟩
  · rw [hattempt.jobType, h.fenced.2]
  · rw [hattempt.inputReference, hjob.1, hinput]
  · rw [hattempt.projectId, h.fenced.1, hproject]
  · rw [hattempt.runId, hjob.2, hrun]

/-- The ids of what is read back are consistent. -/
theorem Commit.consistent_ids
    (h : Commit p db db' jobId job call output payload unique registered row) {parsed : Json}
    (hresults : resultIds parsed = unique.map fun c => some c.id)
    (hregistered : registeredIds parsed = unique.map fun c => some c.id) :
    none ∉ registeredIds parsed ∧ (resultIds parsed).Nodup ∧ (registeredIds parsed).Nodup ∧
      (resultIds parsed).length = (registeredIds parsed).length ∧
      ∀ id ∈ resultIds parsed, id ∈ registeredIds parsed := by
  have hnodup : (unique.map fun c => some c.id).Nodup := by
    have hsome := h.nodup.map (Option.some_injective Text)
    rw [List.map_map] at hsome
    exact hsome
  rw [hresults, hregistered]
  refine ⟨fun hnone => ?_, hnodup, hnodup, rfl, fun _ hid => hid⟩
  rcases List.mem_map.mp hnone with ⟨_, _, hcontra⟩
  cases hcontra

/-- **The reuse** of what stays of a commit. -/
theorem Commit.reuse_eq_ok (hp : LawfulCheckpoints p)
    (h : Commit p db db' jobId job call output payload unique registered row)
    (hjob : row.inputReference = job.inputReference ∧ row.runId = job.runId) {later : SearchDb}
    (hlater : Committed p jobId row output later) {attempt : JobRow}
    (hattempt : Checkpointed p row output attempt) {workerId : Text}
    (hruns : AttemptRuns later jobId attempt workerId payload.projectId)
    (hpresent : SourcesPresent later payload.projectId output) :
    ∃ output', reuseCommittedSourceSearchResults p later jobId attempt workerId = .ok (some output') ∧
      output.Same output' := by
  rcases hlater.job with ⟨current, hcurrent, hcheckpoint⟩
  rcases h.readCheckpoint hp hcheckpoint with ⟨parsed, hread, hsame, hresults, hregistered⟩
  rcases h.ids_output hp with ⟨_, _, _, _, _, hids⟩
  rcases hruns.lease with ⟨current', hcurrent', hstatus, howner, hattempts, hlease⟩
  obtain rfl := Option.some.inj (hcurrent.symm.trans hcurrent')
  rcases Option.isSome_iff_exists.mp hruns.project with ⟨project, hproject⟩
  have hcount : (later.sources.rows.countP fun source => source.projectId = payload.projectId ∧
      some source.id ∈ resultIds parsed) = (resultIds parsed).length := by
    have heq : resultIds parsed = (unique.map (·.id)).map some := by
      rw [hresults, List.map_map]
      rfl
    rw [heq, List.length_map some]
    refine count_ids later.sources h.nodup fun id hid => hpresent id ?_
    rw [registeredIds, hids]
    rcases List.mem_map.mp hid with ⟨c, hc, rfl⟩
    exact List.mem_map_of_mem (f := fun c : SourceCandidate => some c.id) hc
  refine ⟨parsed, ?_, hsame⟩
  unfold reuseCommittedSourceSearchResults
  rw [hattempt.outputReference]
  simp only [Option.isNone_some, Bool.false_eq_true, if_false, bind_eq_ok, ensure_eq_ok, pure_eq_ok]
  refine ⟨payload, h.parse_attempt hjob hattempt, project, require_eq_ok.mpr hproject, current,
    lockFencedSearchJob_eq_ok.mpr ⟨hcurrent, ?_, ?_, hstatus, howner, hattempts, hlease⟩,
    parsed, hread, (), h.consistent_ids hresults hregistered, (), hcount, (), ?_, rfl⟩
  · rw [hcheckpoint.projectId, hattempt.projectId]
  · rw [hcheckpoint.jobType, h.fenced.2]
  · rcases hlater.execution with ⟨execution, hmem, hexecution⟩
    exact ⟨execution, hmem, hexecution⟩

/-- **Whatever else is wrong**, the checkpoint is not: the reuse fails with another code. -/
theorem Commit.reuse_code (hp : LawfulCheckpoints p)
    (h : Commit p db db' jobId job call output payload unique registered row)
    (hjob : row.inputReference = job.inputReference ∧ row.runId = job.runId) {later : SearchDb}
    (hlater : Committed p jobId row output later) {attempt : JobRow}
    (hattempt : Checkpointed p row output attempt) {workerId : Text} {error : SourceSearchJobError}
    (hreuse : reuseCommittedSourceSearchResults p later jobId attempt workerId = .error (.job error)) :
    error.code ≠ "INVALID_SEARCH_CHECKPOINT" := by
  unfold reuseCommittedSourceSearchResults at hreuse
  rw [hattempt.outputReference] at hreuse
  simp only [Option.isNone_some, Bool.false_eq_true, if_false, bind_eq_error, ensure_eq_error,
    pure_ne_error, ensure_eq_ok, h.parse_attempt hjob hattempt, Except.ok.injEq,
    exists_eq_left', false_or, reduceCtorEq] at hreuse
  rcases hreuse with hproject | ⟨project, _, hlease | ⟨current, hcurrent, hread | hrest⟩⟩
  · obtain rfl := CommitError.job.inj (require_eq_error.mp hproject).2
    simp
  · obtain rfl := CommitError.job.inj (require_eq_error.mp hlease).2
    simp
  · rcases hlater.job with ⟨current', hcurrent', hcheckpoint⟩
    obtain rfl := Option.some.inj (hcurrent'.symm.trans (lockFencedSearchJob_eq_ok.mp hcurrent).1)
    rcases h.readCheckpoint hp hcheckpoint with ⟨parsed, hparsed, _⟩
    rw [hparsed] at hread
    cases hread
  · rcases hlater.job with ⟨current', hcurrent', hcheckpoint⟩
    obtain rfl := Option.some.inj (hcurrent'.symm.trans (lockFencedSearchJob_eq_ok.mp hcurrent).1)
    rcases h.readCheckpoint hp hcheckpoint with ⟨parsed, hparsed, _, hresults, hregistered⟩
    rcases hrest with ⟨_, hparsed', hrest⟩
    obtain rfl := Except.ok.inj (hparsed.symm.trans hparsed')
    rcases hrest with ⟨hids, _⟩ | ⟨_, _, ⟨_, herror⟩ | ⟨_, _, ⟨_, herror⟩ | ⟨_, _, hfalse⟩⟩⟩
    · exact absurd (h.consistent_ids hresults hregistered) hids
    · obtain rfl := CommitError.job.inj herror
      simp
    · obtain rfl := CommitError.job.inj herror
      simp
    · exact hfalse.elim

/-- What a commit leaves behind. -/
theorem Commit.committed (h : Commit p db db' jobId job call output payload unique registered row)
    (hexecution : ∀ e, db.executions[call.executionId]? = some e → e.jobId = jobId) :
    Committed p jobId row output db' := by
  rcases h.execution with ⟨e, he, _, hexecutions⟩
  refine ⟨⟨row.checkpoint p output (p.hash output), ?_, ⟨rfl, rfl, rfl, rfl, rfl, rfl⟩⟩, ?_⟩
  · rw [h.written, Function.update_self]
  · refine ⟨{ e with
      status := .succeeded
      requestId := call.response.metadata.requestId
      outputHash := some (p.hash (searchJson call.response (unique.map checkpointHit))) },
      List.mem_iff_getElem?.mpr ⟨call.executionId, ?_⟩, hexecution e he, rfl⟩
    rw [hexecutions, List.getElem?_modify_eq, he]
    rfl

end

/-! ### The round trip -/

/-- What an attempt that comes after a commit of the output gets. -/
structure ReusesCheckpoint (p : CheckpointPlatform) (jobId : ℕ) (job : JobRow) (output : Json)
    (later : SearchDb) (attempt : JobRow) (workerId : Text) : Prop where
  reuses : ∀ projectId, job.projectId = some projectId →
    AttemptRuns later jobId attempt workerId projectId → SourcesPresent later projectId output →
      ∃ output', reuseCommittedSourceSearchResults p later jobId attempt workerId =
        .ok (some output') ∧ output.Same output'
  code : ∀ error, reuseCommittedSourceSearchResults p later jobId attempt workerId =
    .error (.job error) → error.code ≠ "INVALID_SEARCH_CHECKPOINT"

/-- **Search checkpoints round-trip.**  Let a worker commit a response to a search, for the job as it
    is in the database, under an execution of the job.  If the commit succeeds, then, whatever
    happens to the database in which the job is not committed again, completed or deleted, an attempt
    that claims the job later and reads its checkpoint gets the value that was committed, if it has
    the lease and the project and the registered sources are there; and it never finds the checkpoint
    invalid.  If the commit fails, the sources, the jobs and the executions are as they were. -/
theorem search_checkpoints_round_trip (hp : LawfulCheckpoints p) {db : SearchDb} {jobId : ℕ}
    {job : JobRow} {workerId : Text} {call : SearchCall}
    (hjob : ∀ row, db.jobs jobId = some row →
      row.inputReference = job.inputReference ∧ row.runId = job.runId)
    (hexecution : ∀ e, db.executions[call.executionId]? = some e → e.jobId = jobId) :
    (∀ output db', commitSourceSearchResults p db jobId job workerId call = (.ok output, db') →
      ∀ claimed later attempt workerId', Reach (SearchDb.step p) (Leaves p jobId) db' claimed →
        claimed.jobs jobId = some attempt → Reach (SearchDb.step p) (Leaves p jobId) claimed later →
        ReusesCheckpoint p jobId job output later attempt workerId') ∧
    ∀ error db', commitSourceSearchResults p db jobId job workerId call = (.error error, db') →
      db'.sources = db.sources ∧ db'.jobs = db.jobs ∧ db'.executions = db.executions := by
  refine ⟨fun output db' hcommit claimed later attempt workerId' hclaim hattempt hrun => ?_,
    fun error db' hcommit => commit_of_eq_error hcommit⟩
  rcases commit_of_eq_ok hcommit with ⟨payload, unique, registered, row, h⟩
  have hrow := hjob row h.row_eq
  have hclaimed := (h.committed hexecution).run hclaim
  have hlater := hclaimed.run hrun
  rcases hclaimed.job with ⟨attempt', hattempt', hcheckpoint⟩
  obtain rfl := Option.some.inj (hattempt'.symm.trans hattempt)
  refine ⟨fun projectId hproject hruns hpresent => ?_,
    fun error herror => h.reuse_code hp hrow hlater hcheckpoint herror⟩
  have hpayload := (parseSourceSearchJob_eq_ok.mp h.parsed).2.2.1
  obtain rfl := Option.some.inj (hpayload.symm.trans hproject)
  exact h.reuse_eq_ok hp hrow hlater hcheckpoint hruns hpresent

/-! ### A search that is reused -/

/-- A platform that keeps keys in the order of their units. -/
def exampleCheckpoints : CheckpointPlatform where
  toSearchPlatform := examplePlatform
  localeCompare := exampleLocaleCompare
  keyOrder a b := decide (a ≤ b)

theorem decomposed_of_isName {k : Text} (h : IsName k) : decomposed k = k := by
  unfold decomposed
  induction k with
  | nil => rfl
  | cons c k ih =>
    have hc : c ≠ 0xE9 := by
      rintro rfl
      exact absurd (h 0xE9 List.mem_cons_self) (by decide)
    rw [List.flatMap_cons, if_neg hc, ih fun d hd => h d (List.mem_cons_of_mem _ hd),
      List.singleton_append]

theorem lawful_exampleCheckpoints : LawfulCheckpoints exampleCheckpoints where
  locale := exampleLocaleOrder
  names := by
    intro k k' hk hk' hzero
    have hle : decomposed k ≤ decomposed k' :=
      (exampleLocaleCompare_le_iff k k').mp (le_of_eq hzero)
    have hge : decomposed k' ≤ decomposed k := (exampleLocaleCompare_le_iff k' k).mp
      ((exampleLocaleOrder.swap k k').mp (ge_of_eq hzero))
    rw [decomposed_of_isName hk, decomposed_of_isName hk'] at hle hge
    exact le_antisymm hle hge
  keyTrans a b c hab hbc := decide_eq_true ((of_decide_eq_true hab).trans (of_decide_eq_true hbc))
  keyTotal a b := by
    simp only [exampleCheckpoints, Bool.or_eq_true, decide_eq_true_eq]
    exact le_total a b
  keyAntisymm a b hab hba := le_antisymm (of_decide_eq_true hab) (of_decide_eq_true hba)
  digest _ := by simp [exampleCheckpoints, examplePlatform, asciiText, isVisibleUnit]
  digest_ne_nil _ := by simp [exampleCheckpoints, examplePlatform, asciiText]

/-- A search for one result. -/
def examplePayloadOf : SearchPayload where
  projectId := asciiText "p"
  runId := none
  providerId := asciiText "brave-search"
  query := asciiText "query"
  request := exampleJob.request
  provider_isTrimmed := show trimText (asciiText "brave-search") = _ by decide
  query_isTrimmed := show trimText (asciiText "query") = _ by decide

/-- Its job, as a worker has claimed it. -/
def exampleRow : JobRow where
  jobType := .sourceSearch
  projectId := some (asciiText "p")
  runId := none
  inputReference := some examplePayloadOf
  status := .running
  leaseOwner := some (asciiText "w1")
  leaseCurrent := true
  attempts := 1
  outputReference := none
  outputHash := none

/-- A source that another search has found before. -/
def exampleSource : SourceRow where
  id := asciiText "search-0123456789abcdef"
  projectId := asciiText "p"
  url := some (asciiText "http://a.example/")
  title := asciiText "Title"
  ingestionMethod := asciiText "SEARCH"
  fetchMetadata := .leaf .null
  rest _ := .scalar .null
  distinct := trivial

def exampleSearchDb : SearchDb where
  projects id := if id = asciiText "p" then some .unread else none
  runs _ := none
  jobs id := if id = 0 then some exampleRow else none
  sources := ⟨[exampleSource], List.nodup_singleton _⟩
  executions := [⟨0, .started, none, none⟩]

/-- A response with a query that is not trimmed, and one result, twice. -/
def exampleCall : SearchCall where
  executionId := 0
  response :=
    { provider := asciiText "brave-search"
      query := asciiText " query"
      results := List.replicate 2
        ⟨asciiText "r", asciiText "Title", asciiText "http://a.example/", [], none, none⟩
      metadata := ⟨asciiText "2024-01-01T00:00:00Z", some .zero, none, none⟩ }
  existing := [exampleSource]
  aborted _ := false
  defaults _ := .scalar .null

/-- Its commit. -/
def exampleCommitted : Except CommitError Json × SearchDb :=
  commitSourceSearchResults exampleCheckpoints exampleSearchDb 0 exampleRow (asciiText "w1") exampleCall

/-- What happens then: the lease expires, and another worker claims the job. -/
def exampleClaim : SearchAct := .setLease 0 .running (some (asciiText "w2")) true 2

def exampleLater : SearchDb := exampleCommitted.2.step exampleCheckpoints exampleClaim

theorem example_commits : exampleCommitted.1.toOption.map registeredIds =
    some [some (asciiText "search-0123456789abcdef")] := by
  decide

/-- **A response that is committed and reused** by the next attempt. -/
theorem example_checkpoint_is_reused :
    ∃ output db' attempt output', commitSourceSearchResults exampleCheckpoints exampleSearchDb 0
        exampleRow (asciiText "w1") exampleCall = (.ok output, db') ∧
      (db'.step exampleCheckpoints exampleClaim).jobs 0 = some attempt ∧
      reuseCommittedSourceSearchResults exampleCheckpoints (db'.step exampleCheckpoints exampleClaim)
        0 attempt (asciiText "w2") = .ok (some output') ∧ output.Same output' := by
  rcases Option.map_eq_some_iff.mp example_commits with ⟨output, houtput, hids⟩
  have hcommit : exampleCommitted = (.ok output, exampleCommitted.2) :=
    Prod.ext (toOption_eq_some.mp houtput) rfl
  have hrow : ∀ row, exampleSearchDb.jobs 0 = some row →
      row.inputReference = exampleRow.inputReference ∧ row.runId = exampleRow.runId := by
    intro row hrow
    obtain rfl := Option.some.inj hrow
    exact ⟨rfl, rfl⟩
  have hexecution : ∀ e, exampleSearchDb.executions[exampleCall.executionId]? = some e →
      e.jobId = 0 := by
    intro e he
    obtain rfl := Option.some.inj he
    rfl
  have hround := (search_checkpoints_round_trip lawful_exampleCheckpoints hrow hexecution).1 output _
    hcommit
  rcases commit_of_eq_ok hcommit with ⟨payload, unique, registered, row, h⟩
  have hjob : exampleLater.jobs 0 = some ((row.checkpoint exampleCheckpoints output
      (exampleCheckpoints.hash output)).withLease .running (some (asciiText "w2")) true 2) := by
    show Function.update exampleCommitted.2.jobs 0 ((exampleCommitted.2.jobs 0).map
      (·.withLease .running (some (asciiText "w2")) true 2)) 0 = _
    rw [Function.update_self, h.written, Function.update_self]
    rfl
  have hreach : Reach (SearchDb.step exampleCheckpoints) (Leaves exampleCheckpoints 0)
      exampleCommitted.2 exampleLater := Reach.tail' .refl exampleClaim trivial
  have hreuses := hround exampleLater exampleLater _ (asciiText "w2") hreach hjob .refl
  have hpresent : SourcesPresent exampleLater (asciiText "p") output := by
    intro id hid
    rw [hids, List.mem_singleton, Option.some.injEq] at hid
    exact ⟨exampleSource, List.mem_singleton_self _, hid.symm, rfl⟩
  rcases hreuses.reuses (asciiText "p") rfl ⟨rfl, _, hjob, rfl, rfl, rfl, rfl⟩ hpresent with
    ⟨output', hreuse, hsame⟩
  exact ⟨output, _, _, output', hcommit, hjob, hreuse, hsame⟩

end ResearchWorkbench.SearchHits
