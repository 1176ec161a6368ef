import ResearchWorkbench.Services.ContentHashes

namespace ResearchWorkbench

/-!
# Hashes of equal content

What `inputHash` and `exportContentHash` say of two JSON values.  Different values never have one
hash.  Equal values have one hash where the sort could tell their keys apart: keys that
`localeCompare` takes to be equal stay in the order in which they were inserted.

* `JsonTree.Same` — equal values, whatever the order of the keys;
* `JsonTree.TiesAlike` — tied keys come in one order, in all objects that correspond;
* `withSortedKeys_eq_iff` — when the sorted values are the same;
* `content_hash_iff` — when the hashes say whether two values are equal;
* `accents_hash_apart` — two spellings of one letter as the keys of an object.
-/

namespace JsonTree

variable {α : Type}

/-! ### Equal values -/

mutual

/-- No object has a key twice. -/
def DistinctKeys : JsonTree α → Prop
  | .leaf _ => True
  | .array items => DistinctItems items
  | .object fields => (fields.map Prod.fst).Nodup ∧ DistinctFields fields

/-- The same of all items. -/
def DistinctItems : List (JsonTree α) → Prop
  | [] => True
  | x :: items => DistinctKeys x ∧ DistinctItems items

/-- The same of the values of all fields. -/
def DistinctFields : List (Text × JsonTree α) → Prop
  | [] => True
  | (_, x) :: fields => DistinctKeys x ∧ DistinctFields fields

end

mutual

/-- Equal values, irrespective of the order of the keys at any depth. -/
def Same : JsonTree α → JsonTree α → Prop
  | .leaf a, w => w = .leaf a
  | .array items, w => ∃ items', w = .array items' ∧ SameItems items items'
  | .object fields, w =>
    ∃ fields', w = .object fields' ∧ fields.length = fields'.length ∧ SameFields fields fields'

/-- Equal items, one by one. -/
def SameItems : List (JsonTree α) → List (JsonTree α) → Prop
  | [], items' => items' = []
  | x :: items, items' => ∃ y rest, items' = y :: rest ∧ Same x y ∧ SameItems items rest

/-- Every field is among the others. -/
def SameFields : List (Text × JsonTree α) → List (Text × JsonTree α) → Prop
  | [], _ => True
  | (k, x) :: fields, fields' => (∃ y, (k, y) ∈ fields' ∧ Same x y) ∧ SameFields fields fields'

end

mutual

/-- In all objects that correspond, the keys that the comparison takes to be equal come in one
order. -/
def TiesAlike (le : Text → Text → Bool) : JsonTree α → JsonTree α → Prop
  | .leaf _, _ => True
  | .array items, w => ∀ items', w = .array items' → ItemsTiedAlike le items items'
  | .object fields, w => ∀ fields', w = .object fields' →
    TiedAlike le (fields.map Prod.fst) (fields'.map Prod.fst) ∧ FieldsTiedAlike le fields fields'

/-- The same of items at one place. -/
def ItemsTiedAlike (le : Text → Text → Bool) : List (JsonTree α) → List (JsonTree α) → Prop
  | [], _ => True
  | x :: items, items' =>
    ∀ y rest, items' = y :: rest → TiesAlike le x y ∧ ItemsTiedAlike le items rest

/-- The same of the values of one key. -/
def FieldsTiedAlike (le : Text → Text → Bool) :
    List (Text × JsonTree α) → List (Text × JsonTree α) → Prop
  | [], _ => True
  | (k, x) :: fields, fields' =>
    (∀ y, (k, y) ∈ fields' → TiesAlike le x y) ∧ FieldsTiedAlike le fields fields'

end

variable {le : Text → Text → Bool} {items items' : List (JsonTree α)}
  {fields fields' : List (Text × JsonTree α)} {v w : JsonTree α}

theorem distinctItems_iff : DistinctItems items ↔ ∀ x ∈ items, DistinctKeys x := by
  induction items with
  | nil => simp [DistinctItems]
  | cons x items ih => simp [DistinctItems, ih]

theorem distinctFields_iff : DistinctFields fields ↔ ∀ f ∈ fields, DistinctKeys f.2 := by
  induction fields with
  | nil => simp [DistinctFields]
  | cons f fields ih => rw [DistinctFields, ih, List.forall_mem_cons]

theorem sameFields_iff :
    SameFields fields fields' ↔ ∀ f ∈ fields, ∃ y, (f.1, y) ∈ fields' ∧ Same f.2 y := by
  induction fields with
  | nil => simp [SameFields]
  | cons f fields ih => rw [SameFields, ih, List.forall_mem_cons]

theorem fieldsTiedAlike_iff :
    FieldsTiedAlike le fields fields' ↔
      ∀ f ∈ fields, ∀ y, (f.1, y) ∈ fields' → TiesAlike le f.2 y := by
  induction fields with
  | nil => simp [FieldsTiedAlike]
  | cons f fields ih => rw [FieldsTiedAlike, ih, List.forall_mem_cons]

/-! ### Sorted values -/

/-- A value with the keys of its objects sorted. -/
def sorted (le : Text → Text → Bool) : JsonTree α → JsonTree α := withSortedKeys le .leaf

theorem sorted_array : sorted le (.array items) = .array (items.map (sorted le)) := by
  rw [sorted, withSortedKeys, itemsWithSortedKeys_eq]

theorem sorted_object :
    sorted le (.object fields) =
      .object (sortedObject le (fields.map fun f => (f.1, sorted le f.2))) := by
  rw [sorted, withSortedKeys, fieldsWithSortedKeys_eq]

theorem keys_sorted :
    (fields.map fun f => (f.1, sorted le f.2)).map Prod.fst = fields.map Prod.fst := by
  rw [List.map_map]
  rfl

/-- Two objects have the same entries if they have as many and all of the first are in the second. -/
theorem perm_iff {l l' : List (Text × JsonTree α)} (hkeys : (l.map Prod.fst).Nodup) :
    l.Perm l' ↔ l.length = l'.length ∧ l ⊆ l' := by
  constructor
  · intro h
    exact ⟨h.length_eq, h.subset⟩
  · rintro ⟨hlen, hsub⟩
    exact (List.subperm_of_subset hkeys.of_map hsub).perm_of_length_le hlen.ge

section Core

variable (trans : ∀ a b c, le a b = true → le b c = true → le a c = true)
  (total : ∀ a b, (le a b || le b a) = true)

/-- A statement about a value and any other one: they are the same when sorted if and only if they
are equal and their tied keys come in one order. -/
def SortsAlike (le : Text → Text → Bool) (v : JsonTree α) : Prop :=
  ∀ w, v.DistinctKeys → w.DistinctKeys →
    (sorted le v = sorted le w ↔ Same v w ∧ TiesAlike le v w)

theorem map_sorted_eq_iff (ih : ∀ x ∈ items, SortsAlike le x)
    (hitems : ∀ x ∈ items, DistinctKeys x) (hitems' : ∀ x ∈ items', DistinctKeys x) :
    items.map (sorted le) = items'.map (sorted le) ↔
      SameItems items items' ∧ ItemsTiedAlike le items items' := by
  induction items generalizing items' with
  | nil =>
    rcases items' with _ | ⟨y, items'⟩
    · simp [SameItems, ItemsTiedAlike]
    · simp [SameItems]
  | cons x items hrec =>
    rcases items' with _ | ⟨y, items'⟩
    · simp [SameItems]
    · rw [List.map_cons, List.map_cons, List.cons.injEq,
        ih x List.mem_cons_self y (hitems x List.mem_cons_self) (hitems' y List.mem_cons_self),
        hrec (fun z hz => ih z (List.mem_cons_of_mem _ hz))
          (fun z hz => hitems z (List.mem_cons_of_mem _ hz))
          (fun z hz => hitems' z (List.mem_cons_of_mem _ hz))]
      simp only [SameItems, ItemsTiedAlike, List.cons.injEq]
      constructor
      · rintro ⟨⟨hxy, htie⟩, hitem, hties⟩
        refine ⟨⟨y, items', ⟨rfl, rfl⟩, hxy, hitem⟩, ?_⟩
        rintro _ _ ⟨rfl, rfl⟩
        exact ⟨htie, hties⟩
      · rintro ⟨⟨_, _, ⟨rfl, rfl⟩, hxy, hitem⟩, hties⟩
        rcases hties y items' ⟨rfl, rfl⟩ with ⟨htie, hrest⟩
        exact ⟨⟨hxy, htie⟩, hitem, hrest⟩

theorem sorted_entries_perm_iff (ih : ∀ f ∈ fields, SortsAlike le f.2)
    (hkeys : (fields.map Prod.fst).Nodup) (hkeys' : (fields'.map Prod.fst).Nodup)
    (hfields : ∀ f ∈ fields, DistinctKeys f.2) (hfields' : ∀ f ∈ fields', DistinctKeys f.2) :
    (fields.map fun f => (f.1, sorted le f.2)).Perm (fields'.map fun f => (f.1, sorted le f.2)) ↔
      (fields.length = fields'.length ∧ SameFields fields fields') ∧
        FieldsTiedAlike le fields fields' := by
  rw [perm_iff (by rwa [keys_sorted]), List.length_map, List.length_map, sameFields_iff,
    fieldsTiedAlike_iff, and_assoc]
  refine and_congr_right fun _ => ?_
  constructor
  · intro hsub
    -- the value of a key in the second object is the one that the first value is equal to
    have hvalue : ∀ f ∈ fields, ∃ y, (f.1, y) ∈ fields' ∧ Same f.2 y ∧ TiesAlike le f.2 y := by
      intro f hf
      rcases List.mem_map.mp (hsub (List.mem_map.mpr ⟨f, hf, rfl⟩)) with ⟨g, hg, heq⟩
      rcases Prod.mk.inj heq with ⟨hkey, hsorted⟩
      have hboth := (ih f hf g.2 (hfields f hf) (hfields' g hg)).mp hsorted.symm
      refine ⟨g.2, ?_, hboth⟩
      rw [← hkey]
      exact hg
    refine ⟨fun f hf => ?_, fun f hf y hy => ?_⟩
    · rcases hvalue f hf with ⟨y, hy, hsame, -⟩
      exact ⟨y, hy, hsame⟩
    · rcases hvalue f hf with ⟨z, hz, -, htie⟩
      have hyz := eq_of_key_eq hkeys' hy hz rfl
      rw [(Prod.mk.inj hyz).2]
      exact htie
  · rintro ⟨hsame, htie⟩ e he
    rcases List.mem_map.mp he with ⟨f, hf, rfl⟩
    rcases hsame f hf with ⟨y, hy, hfy⟩
    refine List.mem_map.mpr ⟨(f.1, y), hy, ?_⟩
    rw [(ih f hf y (hfields f hf) (hfields' (f.1, y) hy)).mpr ⟨hfy, htie f hf y hy⟩]

include trans total

/-- **When two values are the same with their keys sorted**: they are equal, and keys that the
comparison takes to be equal come in one order. -/
theorem sorted_eq_iff (v : JsonTree α) : SortsAlike le v := by
  induction v using induct with
  | leaf a =>
    intro w _ _
    have hleaf : sorted le (.leaf a) = .leaf a := by rw [sorted, withSortedKeys]
    simp only [hleaf, Same, TiesAlike, and_true]
    rcases w with b | items | fields
    · rw [sorted, withSortedKeys, leaf.injEq, leaf.injEq]
      exact eq_comm
    · simp [sorted_array]
    · simp [sorted_object]
  | array items ih =>
    intro w hv hw
    rcases w with b | items' | fields'
    · simp [Same, sorted, withSortedKeys]
    · rw [sorted_array, sorted_array, array.injEq,
        map_sorted_eq_iff ih (distinctItems_iff.mp hv) (distinctItems_iff.mp hw)]
      simp [Same, TiesAlike]
    · simp [sorted_array, sorted_object, Same]
  | object fields ih =>
    intro w hv hw
    rcases w with b | items' | fields'
    · simp [Same, sorted, withSortedKeys]
    · simp [sorted_array, sorted_object, Same]
    · rw [sorted_object, sorted_object, object.injEq,
        sortedObject_eq_iff trans total (by rw [keys_sorted]; exact hv.1)
          (by rw [keys_sorted]; exact hw.1),
        keys_sorted, keys_sorted,
        sorted_entries_perm_iff ih hv.1 hw.1 (distinctFields_iff.mp hv.2)
          (distinctFields_iff.mp hw.2)]
      simp only [Same, TiesAlike, object.injEq, exists_eq_left', forall_eq']
      tauto

end Core

end JsonTree

/-! ### The hashes of two values -/

/-- What is assumed of `localeCompare`: a total preorder, in which other strings may be equal. -/
structure IsLocaleOrder (localeCompare : Text → Text → ℤ) : Prop where
  swap : ∀ a b, 0 ≤ localeCompare a b ↔ localeCompare b a ≤ 0
  trans : ∀ a b c, localeCompare a b ≤ 0 → localeCompare b c ≤ 0 → localeCompare a c ≤ 0

variable {localeCompare : Text → Text → ℤ} {sha256 : Text → Text} {v w : Json}

theorem IsLocaleOrder.le_trans (h : IsLocaleOrder localeCompare) (a b c : Text)
    (hab : localeLe localeCompare a b = true) (hbc : localeLe localeCompare b c = true) :
    localeLe localeCompare a c = true := by
  simp only [localeLe, decide_eq_true_eq] at hab hbc ⊢
  exact h.trans a b c hab hbc

theorem IsLocaleOrder.le_total (h : IsLocaleOrder localeCompare) (a b : Text) :
    (localeLe localeCompare a b || localeLe localeCompare b a) = true := by
  simp only [localeLe, Bool.or_eq_true, decide_eq_true_eq]
  rcases le_or_gt (localeCompare a b) 0 with hle | hlt
  · exact .inl hle
  · exact .inr ((h.swap a b).mp hlt.le)

/-- What the sort makes of the leaves of a JSON value is the leaves themselves. -/
theorem withSortedKeys_ofJson {le : Text → Text → Bool} {f : JsLeaf → Json}
    (hf : ∀ s, f (.scalar s) = .leaf s) (v : Json) :
    (ofJson v).withSortedKeys le f = v.sorted le := by
  unfold ofJson
  induction v using JsonTree.induct with
  | leaf s => exact hf s
  | array items ih =>
    rw [JsonTree.map, JsonTree.withSortedKeys, JsonTree.sorted_array]
    congr 1
    induction items with
    | nil => rfl
    | cons x items hrec =>
      rw [JsonTree.mapItems, JsonTree.itemsWithSortedKeys, ih x List.mem_cons_self,
        hrec fun y hy => ih y (List.mem_cons_of_mem _ hy), List.map_cons]
  | object fields ih =>
    rw [JsonTree.map, JsonTree.withSortedKeys, JsonTree.sorted_object]
    congr 2
    induction fields with
    | nil => rfl
    | cons e fields hrec =>
      rw [JsonTree.mapFields, JsonTree.fieldsWithSortedKeys, ih e List.mem_cons_self,
        hrec fun y hy => ih y (List.mem_cons_of_mem _ hy), List.map_cons]

theorem stableValue_ofJson (v : Json) :
    stableValue localeCompare (ofJson v) = v.sorted (localeLe localeCompare) :=
  withSortedKeys_ofJson (fun _ => rfl) v

theorem canonicalize_ofJson (v : Json) :
    canonicalize localeCompare (ofJson v) = v.sorted (localeLe localeCompare) :=
  withSortedKeys_ofJson (fun _ => rfl) v

theorem inputHash_eq_iff (hhash : Function.Injective sha256) :
    inputHash localeCompare sha256 (ofJson v) = inputHash localeCompare sha256 (ofJson w) ↔
      v.sorted (localeLe localeCompare) = w.sorted (localeLe localeCompare) := by
  unfold inputHash stableJson
  rw [hhash.eq_iff, stringify_injective.eq_iff, stableValue_ofJson, stableValue_ofJson]

theorem exportContentHash_eq_iff (hhash : Function.Injective sha256) :
    exportContentHash localeCompare sha256 (ofJson v) =
        exportContentHash localeCompare sha256 (ofJson w) ↔
      v.sorted (localeLe localeCompare) = w.sorted (localeLe localeCompare) := by
  unfold exportContentHash
  rw [hhash.eq_iff, stringify_injective.eq_iff, canonicalize_ofJson, canonicalize_ofJson]

/-- **When the hashes say whether two values are equal.**  They do unless the values are equal and
two keys of corresponding objects that `localeCompare` takes to be equal were inserted in one order
in the one and in the other order in the other. -/
theorem content_hash_iff (hlocale : IsLocaleOrder localeCompare)
    (hhash : Function.Injective sha256) (hv : v.DistinctKeys) (hw : w.DistinctKeys) :
    ((inputHash localeCompare sha256 (ofJson v) = inputHash localeCompare sha256 (ofJson w) ↔
        v.Same w) ∧
      (exportContentHash localeCompare sha256 (ofJson v) =
        exportContentHash localeCompare sha256 (ofJson w) ↔ v.Same w)) ↔
      (v.Same w → v.TiesAlike (localeLe localeCompare) w) := by
  rw [inputHash_eq_iff hhash, exportContentHash_eq_iff hhash,
    JsonTree.sorted_eq_iff hlocale.le_trans hlocale.le_total v w hv hw]
  tauto

/-! ### An order in which two spellings of a letter are equal -/

/-- The letter é as `e` and an accent. -/
def decomposed (t : Text) : Text := t.flatMap fun c => if c = 0xE9 then [0x65, 0x301] else [c]

/-- Texts compared by their decomposed letters. -/
def exampleLocaleCompare (a b : Text) : ℤ :=
  if decomposed a < decomposed b then -1 else if decomposed a = decomposed b then 0 else 1

theorem exampleLocaleCompare_le_iff (a b : Text) :
    exampleLocaleCompare a b ≤ 0 ↔ decomposed a ≤ decomposed b := by
  unfold exampleLocaleCompare
  split
  · rename_i h
    exact iff_of_true (by omega) h.le
  split
  · rename_i h
    exact iff_of_true le_rfl h.le
  · rename_i hlt hne
    refine iff_of_false (by omega) ?_
    intro hle
    exact hlt (lt_of_le_of_ne hle hne)

theorem exampleLocaleOrder : IsLocaleOrder exampleLocaleCompare where
  swap a b := by
    rw [exampleLocaleCompare_le_iff]
    unfold exampleLocaleCompare
    split
    · rename_i h
      simpa using h
    · rename_i h
      refine iff_of_true ?_ (not_lt.mp h)
      split <;> omega
  trans a b c hab hbc := by
    rw [exampleLocaleCompare_le_iff] at hab hbc ⊢
    exact hab.trans hbc

/-- An object with two fields. -/
def twoFields (k k' : Text) (b b' : Bool) : Json :=
  .object [(k, .leaf (.bool b)), (k', .leaf (.bool b'))]

theorem twoFields_distinct {k k' : Text} {b b' : Bool} (h : k ≠ k') :
    (twoFields k k' b b').DistinctKeys := by
  simpa [twoFields, JsonTree.DistinctKeys, JsonTree.DistinctFields] using h

theorem twoFields_same (k k' : Text) (b b' : Bool) :
    (twoFields k k' b b').Same (twoFields k' k b' b) := by
  refine ⟨_, rfl, rfl, ⟨.leaf (.bool b), by simp, rfl⟩, ⟨.leaf (.bool b'), by simp, rfl⟩, trivial⟩

/-- Two keys that the comparison can tell apart may be inserted in either order. -/
theorem letters_hash_alike :
    inputHash exampleLocaleCompare id (ofJson (twoFields [98] [97] true false)) =
      inputHash exampleLocaleCompare id (ofJson (twoFields [97] [98] false true)) := by
  refine ((content_hash_iff exampleLocaleOrder Function.injective_id
    (twoFields_distinct (by decide)) (twoFields_distinct (by decide))).mpr ?_).1.mpr
      (twoFields_same [98] [97] true false)
  rintro - fields' hfields'
  rcases JsonTree.object.inj hfields' with rfl
  refine ⟨?_, ?_⟩
  · intro k k' _ _ hle _ hsub
    rcases List.cons.inj (hsub.eq_of_length rfl) with ⟨rfl, hrest⟩
    rcases List.cons.inj hrest with ⟨rfl, -⟩
    exact absurd hle (by decide)
  · refine ⟨fun y _ => trivial, fun y _ => trivial, trivial⟩

/-- **Two spellings of one letter.**  The keys `é` and `e` with an accent make two fields of an
object; with the fields inserted in the other order the object is the same and its hash is not. -/
theorem accents_hash_apart :
    IsLocaleOrder exampleLocaleCompare ∧ Function.Injective (id : Text → Text) ∧
      (twoFields [0xE9] [0x65, 0x301] true false).DistinctKeys ∧
      (twoFields [0x65, 0x301] [0xE9] false true).DistinctKeys ∧
      (twoFields [0xE9] [0x65, 0x301] true false).Same
        (twoFields [0x65, 0x301] [0xE9] false true) ∧
      inputHash exampleLocaleCompare id (ofJson (twoFields [0xE9] [0x65, 0x301] true false)) ≠
        inputHash exampleLocaleCompare id (ofJson (twoFields [0x65, 0x301] [0xE9] false true)) ∧
      exportContentHash exampleLocaleCompare id
          (ofJson (twoFields [0xE9] [0x65, 0x301] true false)) ≠
        exportContentHash exampleLocaleCompare id
          (ofJson (twoFields [0x65, 0x301] [0xE9] false true)) := by
  have hv : (twoFields [0xE9] [0x65, 0x301] true false).DistinctKeys :=
    twoFields_distinct (by decide)
  have hw : (twoFields [0x65, 0x301] [0xE9] false true).DistinctKeys :=
    twoFields_distinct (by decide)
  -- the keys are tied, and come in the other order in the second object
  have hsorted : (twoFields [0xE9] [0x65, 0x301] true false).sorted
      (localeLe exampleLocaleCompare) ≠
        (twoFields [0x65, 0x301] [0xE9] false true).sorted (localeLe exampleLocaleCompare) := by
    intro h
    rw [JsonTree.sorted_eq_iff exampleLocaleOrder.le_trans exampleLocaleOrder.le_total _ _ hv hw] at h
    have htied := (h.2 _ rfl).1 [0xE9] [0x65, 0x301] (by decide) (by decide) (by decide) (by decide)
      (List.Sublist.refl _)
    exact absurd (htied.eq_of_length rfl) (by decide)
  refine ⟨exampleLocaleOrder, Function.injective_id, hv, hw, twoFields_same _ _ _ _, ?_, ?_⟩
  · rw [Ne, inputHash_eq_iff Function.injective_id]
    exact hsorted
  · rw [Ne, exportContentHash_eq_iff Function.injective_id]
    exact hsorted

end ResearchWorkbench
