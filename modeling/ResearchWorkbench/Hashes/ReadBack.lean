import ResearchWorkbench.Hashes.SameContent
import ResearchWorkbench.Library.Keyed
import ResearchWorkbench.Library.Schemas

namespace ResearchWorkbench

/-!
# Values that are read back

A database that keeps JSON values returns the keys of their objects in an order of its own, and a
schema parses what it returns.

* `JsonTree.field`, `JsonTree.same_object_iff` — equal objects, by their fields;
* `JsonTree.same_sorted` — another order of the keys is the same value;
* `JsonTree.KeysIn`, `tiesAlike_of_keysIn` — keys that a comparison tells apart;
* `textOf`, `arrayOf`, `recordOf`, `FieldSchema`, `objectOf` — schemas of JSON values;
* `Rereads` — what the schema has parsed it parses again, in any order of the keys;
* `Rereads.hash_eq` — and the hash is the same.
-/

namespace JsonTree

variable {α : Type} {v w w' : JsonTree α} {items items' : List (JsonTree α)}
  {fields fields' : List (Text × JsonTree α)} {k : Text}

/-! ### Fields -/

/-- The value of a key among entries. -/
def valueAt (k : Text) (fields : List (Text × JsonTree α)) : Option (JsonTree α) :=
  (fields.find? fun e => decide (e.1 = k)).map (·.2)

/-- `value[k]`. -/
def field (k : Text) : JsonTree α → Option (JsonTree α)
  | .object fields => valueAt k fields
  | _ => none

theorem mem_of_valueAt {x : JsonTree α} (h : valueAt k fields = some x) : (k, x) ∈ fields := by
  rcases Option.map_eq_some_iff.mp h with ⟨e, he, rfl⟩
  obtain rfl := of_decide_eq_true
    (List.find?_some (p := fun e : Text × JsonTree α => decide (e.1 = k)) he)
  exact List.mem_of_find?_eq_some he

theorem valueAt_eq_some_iff (hkeys : (fields.map Prod.fst).Nodup) {x : JsonTree α} :
    valueAt k fields = some x ↔ (k, x) ∈ fields := by
  refine ⟨mem_of_valueAt, fun hmem => ?_⟩
  unfold valueAt
  rw [Option.map_eq_some_iff]
  cases hfind : fields.find? fun e => decide (e.1 = k) with
  | none => exact absurd (decide_eq_true rfl) (List.find?_eq_none.mp hfind (k, x) hmem)
  | some e =>
    have hkey : e.1 = k := of_decide_eq_true
      (List.find?_some (p := fun e : Text × JsonTree α => decide (e.1 = k)) hfind)
    refine ⟨e, rfl, ?_⟩
    rw [eq_of_key_eq hkeys (List.mem_of_find?_eq_some hfind) hmem hkey]

theorem valueAt_eq_none_iff : valueAt k fields = none ↔ k ∉ fields.map Prod.fst := by
  unfold valueAt
  rw [Option.map_eq_none_iff, List.find?_eq_none, List.mem_map]
  constructor
  · rintro h ⟨e, he, rfl⟩
    exact h e he (decide_eq_true rfl)
  · intro h e he hkey
    exact h ⟨e, he, of_decide_eq_true hkey⟩

theorem isSome_valueAt : (valueAt k fields).isSome = true ↔ k ∈ fields.map Prod.fst := by
  rw [← not_iff_not, ← valueAt_eq_none_iff, Option.not_isSome_iff_eq_none]

theorem valueAt_append : valueAt k (fields ++ fields') = (valueAt k fields).or (valueAt k fields') := by
  unfold valueAt
  rw [List.find?_append]
  cases fields.find? fun e => decide (e.1 = k) <;> rfl

/-! ### Equal values -/

theorem isSome_eq_of_rel {β γ : Type} {r : β → γ → Prop} {o : Option β} {o' : Option γ}
    (h : Option.Rel r o o') : o.isSome = o'.isSome := by
  cases h <;> rfl

theorem eq_none_of_rel {β γ : Type} {r : β → γ → Prop} {o : Option γ}
    (h : Option.Rel r none o) : o = none := by
  cases h
  rfl

theorem exists_of_rel {β γ : Type} {r : β → γ → Prop} {b : β} {o : Option γ}
    (h : Option.Rel r (some b) o) : ∃ c, o = some c ∧ r b c := by
  cases h with
  | some hbc => exact ⟨_, rfl, hbc⟩

theorem sameItems_iff : SameItems items items' ↔ List.Forall₂ Same items items' := by
  induction items generalizing items' with
  | nil => rw [SameItems, List.forall₂_nil_left_iff]
  | cons x items ih =>
    simp only [SameItems, List.forall₂_cons_left_iff, ih]
    constructor
    · rintro ⟨y, rest, rfl, hxy, hrest⟩
      exact ⟨y, rest, hxy, hrest, rfl⟩
    · rintro ⟨y, rest, hxy, hrest, rfl⟩
      exact ⟨y, rest, rfl, hxy, hrest⟩

theorem same_leaf_iff {a : α} : Same (.leaf a) w ↔ w = .leaf a := Iff.rfl

theorem same_array_iff :
    Same (.array items) w ↔ ∃ items', w = .array items' ∧ List.Forall₂ Same items items' := by
  simp only [Same, sameItems_iff]

theorem same_refl (v : JsonTree α) : v.Same v := by
  induction v using induct with
  | leaf a => rfl
  | array items ih => exact same_array_iff.mpr ⟨items, rfl, List.forall₂_same.mpr ih⟩
  | object fields ih => exact ⟨fields, rfl, rfl, sameFields_iff.mpr fun f hf => ⟨f.2, hf, ih f hf⟩⟩

/-- **Equal objects** have equal values, or none, under every key. -/
theorem same_object_iff (hkeys : (fields.map Prod.fst).Nodup) (hkeys' : (fields'.map Prod.fst).Nodup) :
    Same (.object fields) (.object fields') ↔
      ∀ k, Option.Rel Same (valueAt k fields) (valueAt k fields') := by
  simp only [Same, object.injEq, exists_eq_left', sameFields_iff]
  constructor
  · rintro ⟨hlength, hsame⟩ k
    have hsub : fields.map Prod.fst ⊆ fields'.map Prod.fst := by
      intro k hk
      rcases List.mem_map.mp hk with ⟨e, he, rfl⟩
      rcases hsame e he with ⟨y, hy, _⟩
      exact List.mem_map.mpr ⟨(e.1, y), hy, rfl⟩
    -- as many distinct keys, so the keys of the second are those of the first
    have hperm : (fields.map Prod.fst).Perm (fields'.map Prod.fst) := by
      refine (List.subperm_of_subset hkeys hsub).perm_of_length_le ?_
      rw [List.length_map, List.length_map, hlength]
    cases hx : valueAt k fields with
    | none =>
      rw [valueAt_eq_none_iff, hperm.mem_iff, ← valueAt_eq_none_iff] at hx
      rw [hx]
      exact .none
    | some x =>
      rcases hsame (k, x) ((valueAt_eq_some_iff hkeys).mp hx) with ⟨y, hy, hxy⟩
      rw [(valueAt_eq_some_iff hkeys').mpr hy]
      exact .some hxy
  · intro h
    have hmem : ∀ k, k ∈ fields.map Prod.fst ↔ k ∈ fields'.map Prod.fst := by
      intro k
      rw [← isSome_valueAt, ← isSome_valueAt, isSome_eq_of_rel (h k)]
    have hlength := ((List.perm_ext_iff_of_nodup hkeys hkeys').mpr hmem).length_eq
    rw [List.length_map, List.length_map] at hlength
    refine ⟨hlength, fun e he => ?_⟩
    have hk := h e.1
    rw [(valueAt_eq_some_iff hkeys).mpr he] at hk
    rcases exists_of_rel hk with ⟨y, hy, hxy⟩
    exact ⟨y, (valueAt_eq_some_iff hkeys').mp hy, hxy⟩

/-- Equal values, in which tied keys come in one order. -/
def Alike (le : Text → Text → Bool) (v w : JsonTree α) : Prop := v.Same w ∧ v.TiesAlike le w

section

variable {le : Text → Text → Bool}

theorem alike_leaf_iff {a : α} : Alike le (.leaf a) w ↔ w = .leaf a := by
  rw [Alike, TiesAlike, and_true, same_leaf_iff]

theorem forall₂_alike_iff :
    List.Forall₂ (Alike le) items items' ↔ SameItems items items' ∧ ItemsTiedAlike le items items' := by
  induction items generalizing items' with
  | nil => simp [SameItems, ItemsTiedAlike]
  | cons x items ih =>
    simp only [List.forall₂_cons_left_iff, ih, Alike, SameItems, ItemsTiedAlike]
    constructor
    · rintro ⟨y, rest, ⟨hxy, htie⟩, ⟨hsame, hties⟩, rfl⟩
      refine ⟨⟨y, rest, rfl, hxy, hsame⟩, ?_⟩
      rintro _ _ ⟨⟩
      exact ⟨htie, hties⟩
    · rintro ⟨⟨y, rest, rfl, hxy, hsame⟩, htie⟩
      exact ⟨y, rest, ⟨hxy, (htie y rest rfl).1⟩, ⟨hsame, (htie y rest rfl).2⟩, rfl⟩

theorem alike_array_iff :
    Alike le (.array items) w ↔ ∃ items', w = .array items' ∧ List.Forall₂ (Alike le) items items' := by
  simp only [Alike, forall₂_alike_iff, Same, TiesAlike]
  constructor
  · rintro ⟨⟨items', rfl, hsame⟩, htie⟩
    exact ⟨items', rfl, hsame, htie items' rfl⟩
  · rintro ⟨items', rfl, hsame, htie⟩
    refine ⟨⟨items', rfl, hsame⟩, ?_⟩
    rintro _ ⟨⟩
    exact htie

/-- **Objects** are alike if their keys are tied alike and their values are alike. -/
theorem alike_object_iff (hkeys : (fields.map Prod.fst).Nodup)
    (hkeys' : (fields'.map Prod.fst).Nodup) :
    Alike le (.object fields) (.object fields') ↔
      TiedAlike le (fields.map Prod.fst) (fields'.map Prod.fst) ∧
        ∀ k, Option.Rel (Alike le) (valueAt k fields) (valueAt k fields') := by
  rw [Alike, same_object_iff hkeys hkeys']
  simp only [TiesAlike, object.injEq, forall_eq', fieldsTiedAlike_iff]
  constructor
  · rintro ⟨hsame, htied, hties⟩
    refine ⟨htied, fun k => ?_⟩
    have hk := hsame k
    cases hx : valueAt k fields with
    | none =>
      rw [hx] at hk
      rw [eq_none_of_rel hk]
      exact .none
    | some x =>
      rw [hx] at hk
      rcases exists_of_rel hk with ⟨y, hy, hxy⟩
      rw [hy]
      exact .some ⟨hxy, hties (k, x) (mem_of_valueAt hx) y (mem_of_valueAt hy)⟩
  · rintro ⟨htied, halike⟩
    refine ⟨fun k => ?_, htied, fun f hf y hy => ?_⟩
    · have hk := halike k
      cases hx : valueAt k fields with
      | none =>
        rw [hx] at hk
        rw [eq_none_of_rel hk]
        exact .none
      | some x =>
        rw [hx] at hk
        rcases exists_of_rel hk with ⟨y, hy, hxy⟩
        rw [hy]
        exact .some hxy.1
    · have hk := halike f.1
      rw [(valueAt_eq_some_iff hkeys).mpr hf, (valueAt_eq_some_iff hkeys').mpr hy] at hk
      rcases exists_of_rel hk with ⟨_, heq, hxy⟩
      cases heq
      exact hxy.2

end

/-- The fields of equal values are equal. -/
theorem Same.field (h : Same v w) (hv : v.DistinctKeys) (hw : w.DistinctKeys) (k : Text) :
    Option.Rel Same (v.field k) (w.field k) := by
  cases v with
  | leaf a =>
    obtain rfl := same_leaf_iff.mp h
    exact .none
  | array items =>
    rcases same_array_iff.mp h with ⟨_, rfl, _⟩
    exact .none
  | object fields =>
    rcases h with ⟨fields', rfl, hlength, hsame⟩
    exact (same_object_iff hv.1 hw.1).mp ⟨fields', rfl, hlength, hsame⟩ k

theorem distinctKeys_field {x : JsonTree α} (hv : v.DistinctKeys) (h : v.field k = some x) :
    x.DistinctKeys := by
  cases v with
  | leaf a => cases h
  | array items => cases h
  | object fields =>
    exact distinctFields_iff.mp hv.2 _ ((valueAt_eq_some_iff hv.1).mp h)

/-! ### Another order of the keys -/

theorem sortedObject_perm {β : Type} (le : Text → Text → Bool) (l : List (Text × β)) :
    (sortedObject le l).Perm l :=
  (fromEntries_perm _).trans (List.mergeSort_perm _ _)

/-- Sorting keeps the keys of every object distinct. -/
theorem distinctKeys_sorted (le : Text → Text → Bool) (h : v.DistinctKeys) :
    (v.sorted le).DistinctKeys := by
  induction v using induct with
  | leaf a => exact h
  | array items ih =>
    rw [sorted_array]
    refine distinctItems_iff.mpr fun x hx => ?_
    rcases List.mem_map.mp hx with ⟨y, hy, rfl⟩
    exact ih y hy (distinctItems_iff.mp h y hy)
  | object fields ih =>
    rw [sorted_object]
    have hperm := sortedObject_perm le (fields.map fun f => (f.1, sorted le f.2))
    refine ⟨?_, distinctFields_iff.mpr fun e he => ?_⟩
    · rw [(hperm.map Prod.fst).nodup_iff, keys_sorted]
      exact h.1
    · rcases List.mem_map.mp (hperm.subset he) with ⟨f, hf, rfl⟩
      exact ih f hf (distinctFields_iff.mp h.2 f hf)

/-- **Another order of the keys** is the same value. -/
theorem same_sorted (le : Text → Text → Bool) (v : JsonTree α) : Same v (v.sorted le) := by
  induction v using induct with
  | leaf a => rfl
  | array items ih =>
    rw [sorted_array]
    refine same_array_iff.mpr ⟨_, rfl, ?_⟩
    rw [List.forall₂_map_right_iff, List.forall₂_same]
    exact ih
  | object fields ih =>
    rw [sorted_object]
    have hperm := sortedObject_perm le (fields.map fun f => (f.1, sorted le f.2))
    refine ⟨_, rfl, ?_, sameFields_iff.mpr fun f hf => ?_⟩
    · rw [hperm.length_eq, List.length_map]
    · exact ⟨_, hperm.symm.subset (List.mem_map.mpr ⟨f, hf, rfl⟩), ih f hf⟩

/-! ### Keys that are told apart -/

mutual

/-- All keys of all objects are of one kind. -/
def KeysIn (P : Text → Prop) : JsonTree α → Prop
  | .leaf _ => True
  | .array items => ItemKeysIn P items
  | .object fields => (∀ f ∈ fields, P f.1) ∧ FieldKeysIn P fields

/-- The same of all items. -/
def ItemKeysIn (P : Text → Prop) : List (JsonTree α) → Prop
  | [] => True
  | x :: items => KeysIn P x ∧ ItemKeysIn P items

/-- The same of the values of all fields. -/
def FieldKeysIn (P : Text → Prop) : List (Text × JsonTree α) → Prop
  | [] => True
  | (_, x) :: fields => KeysIn P x ∧ FieldKeysIn P fields

end

variable {P : Text → Prop} {le : Text → Text → Bool}

theorem itemKeysIn_iff : ItemKeysIn P items ↔ ∀ x ∈ items, KeysIn P x := by
  induction items with
  | nil => simp [ItemKeysIn]
  | cons x items ih => rw [ItemKeysIn, ih, List.forall_mem_cons]

theorem fieldKeysIn_iff : FieldKeysIn P fields ↔ ∀ f ∈ fields, KeysIn P f.2 := by
  induction fields with
  | nil => simp [FieldKeysIn]
  | cons f fields ih => rw [FieldKeysIn, ih, List.forall_mem_cons]

theorem keysIn_true (v : JsonTree α) : v.KeysIn fun _ => True := by
  induction v using induct with
  | leaf a => trivial
  | array items ih => exact itemKeysIn_iff.mpr ih
  | object fields ih => exact ⟨fun _ _ => trivial, fieldKeysIn_iff.mpr ih⟩

theorem itemsTiedAlike_of_forall (h : ∀ x ∈ items, ∀ y, TiesAlike le x y) :
    ItemsTiedAlike le items items' := by
  induction items generalizing items' with
  | nil => trivial
  | cons x items ih =>
    rintro y rest rfl
    exact ⟨h x List.mem_cons_self y, ih fun z hz => h z (List.mem_cons_of_mem _ hz)⟩

/-- **Keys that the comparison tells apart** are not tied, whatever the other value. -/
theorem tiesAlike_of_keysIn (hP : ∀ k k', P k → P k' → le k k' = true → le k' k = true → k = k')
    (hv : v.DistinctKeys) (hkeys : v.KeysIn P) (w : JsonTree α) : TiesAlike le v w := by
  induction v using induct generalizing w with
  | leaf a => trivial
  | array items ih =>
    intro items' _
    exact itemsTiedAlike_of_forall fun x hx y =>
      ih x hx (distinctItems_iff.mp hv x hx) (itemKeysIn_iff.mp hkeys x hx) y
  | object fields ih =>
    intro fields' _
    refine ⟨fun k k' _ _ hle hle' hsub => ?_, fieldsTiedAlike_iff.mpr fun f hf y _ => ?_⟩
    · rcases List.mem_map.mp (hsub.subset (by simp : k ∈ [k, k'])) with ⟨f, hf, rfl⟩
      rcases List.mem_map.mp (hsub.subset (by simp : k' ∈ [f.1, k'])) with ⟨g, hg, rfl⟩
      exact absurd (hP _ _ (hkeys.1 f hf) (hkeys.1 g hg) hle hle') (pair_ne hv.1 hsub)
    · exact ih f hf (distinctFields_iff.mp hv.2 f hf) (fieldKeysIn_iff.mp hkeys.2 f hf) y

/-! ### Values that are kept in another order -/

section

variable {ko : Text → Text → Bool}

theorem tiesAlike_refl (hv : v.DistinctKeys) : TiesAlike le v v := by
  induction v using induct with
  | leaf a => trivial
  | array items ih =>
    rintro _ ⟨⟩
    have hall : List.Forall₂ (Alike le) items items := List.forall₂_same.mpr fun x hx =>
      ⟨same_refl x, ih x hx (distinctItems_iff.mp hv x hx)⟩
    exact (forall₂_alike_iff.mp hall).2
  | object fields ih =>
    rintro _ ⟨⟩
    refine ⟨fun _ _ _ _ _ _ hsub => hsub, fieldsTiedAlike_iff.mpr fun f hf y hy => ?_⟩
    obtain rfl : f.2 = y := congrArg Prod.snd (eq_of_key_eq hv.1 hf hy rfl)
    exact ih f hf (distinctFields_iff.mp hv.2 f hf)

/-- An array that is kept in another order of the keys. -/
theorem tiesAlike_sorted_array (h : ∀ x ∈ items, TiesAlike le x (x.sorted ko)) :
    TiesAlike le (.array items) ((JsonTree.array items).sorted ko) := by
  have hall : List.Forall₂ (Alike le) items (items.map (sorted ko)) := by
    rw [List.forall₂_map_right_iff, List.forall₂_same]
    exact fun x hx => ⟨same_sorted ko x, h x hx⟩
  rw [sorted_array]
  rintro _ ⟨⟩
  exact (forall₂_alike_iff.mp hall).2

/-- An object of keys that the comparison tells apart, kept in another order. -/
theorem tiesAlike_sorted_object (hkeys : (fields.map Prod.fst).Nodup)
    (hnames : ∀ f ∈ fields, ∀ g ∈ fields, le f.1 g.1 = true → le g.1 f.1 = true → f.1 = g.1)
    (h : ∀ f ∈ fields, TiesAlike le f.2 (f.2.sorted ko)) :
    TiesAlike le (.object fields) ((JsonTree.object fields).sorted ko) := by
  have hperm := sortedObject_perm ko (fields.map fun f => (f.1, sorted ko f.2))
  rw [sorted_object]
  rintro _ ⟨⟩
  refine ⟨fun k k' _ _ hle hle' hsub => ?_, fieldsTiedAlike_iff.mpr fun f hf y hy => ?_⟩
  · rcases List.mem_map.mp (hsub.subset (by simp : k ∈ [k, k'])) with ⟨f, hf, rfl⟩
    rcases List.mem_map.mp (hsub.subset (by simp : k' ∈ [f.1, k'])) with ⟨g, hg, rfl⟩
    exact absurd (hnames f hf g hg hle hle') (pair_ne hkeys hsub)
  · rcases List.mem_map.mp (hperm.subset hy) with ⟨g, hg, heq⟩
    obtain ⟨hkey, rfl⟩ := Prod.mk.inj heq
    obtain rfl := eq_of_key_eq hkeys hg hf hkey
    exact h _ hf

/-- What is kept in an order stays in it. -/
theorem sorted_sorted (htrans : ∀ a b c, ko a b = true → ko b c = true → ko a c = true)
    (htotal : ∀ a b, (ko a b || ko b a) = true)
    (hanti : ∀ a b, ko a b = true → ko b a = true → a = b) (hv : v.DistinctKeys) :
    (v.sorted ko).sorted ko = v.sorted ko := by
  have hties : TiesAlike ko v (v.sorted ko) :=
    tiesAlike_of_keysIn (P := fun _ => True) (fun a b _ _ => hanti a b) hv (keysIn_true v) _
  exact ((sorted_eq_iff htrans htotal v _ hv (distinctKeys_sorted ko hv)).mpr
    ⟨same_sorted ko v, hties⟩).symm

end

/-! ### What equal values have under a key -/

section

variable {v w : Json}

/-- The text under a key. -/
def textField (k : Text) (value : Json) : Option Text :=
  match value.field k with
  | some (.leaf (.string t)) => some t
  | _ => none

/-- The items under a key. -/
def itemsField (k : Text) (value : Json) : List Json :=
  match value.field k with
  | some (.array items) => items
  | _ => []

theorem Same.textField (h : Same v w) (hv : v.DistinctKeys) (hw : w.DistinctKeys) :
    w.textField k = v.textField k := by
  have hrel := h.field hv hw k
  unfold JsonTree.textField
  cases hx : v.field k with
  | none =>
    rw [hx] at hrel
    rw [eq_none_of_rel hrel]
  | some x =>
    rw [hx] at hrel
    rcases exists_of_rel hrel with ⟨y, hy, hxy⟩
    rw [hy]
    cases x with
    | leaf a => rw [same_leaf_iff.mp hxy]
    | array items =>
      rcases same_array_iff.mp hxy with ⟨_, rfl, _⟩
      rfl
    | object fields =>
      rcases hxy with ⟨_, rfl, _⟩
      rfl

theorem Same.itemsField (h : Same v w) (hv : v.DistinctKeys) (hw : w.DistinctKeys) :
    List.Forall₂ Same (v.itemsField k) (w.itemsField k) := by
  have hrel := h.field hv hw k
  unfold JsonTree.itemsField
  cases hx : v.field k with
  | none =>
    rw [hx] at hrel
    rw [eq_none_of_rel hrel]
    exact .nil
  | some x =>
    rw [hx] at hrel
    rcases exists_of_rel hrel with ⟨y, hy, hxy⟩
    rw [hy]
    cases x with
    | leaf a =>
      rw [same_leaf_iff.mp hxy]
      exact .nil
    | array items =>
      rcases same_array_iff.mp hxy with ⟨items', rfl, hitems⟩
      exact hitems
    | object fields =>
      rcases hxy with ⟨_, rfl, _⟩
      exact .nil

theorem distinctKeys_itemsField (hv : v.DistinctKeys) : ∀ x ∈ v.itemsField k, x.DistinctKeys := by
  intro x hx
  unfold JsonTree.itemsField at hx
  split at hx
  · rename_i items hitems
    have hdistinct : (JsonTree.array items).DistinctKeys := distinctKeys_field hv hitems
    exact distinctItems_iff.mp hdistinct x hx
  · cases hx

/-- Equal arrays of objects have the same texts under a key. -/
theorem Same.texts {items items' : List Json} (h : List.Forall₂ Same items items')
    (hv : ∀ x ∈ items, x.DistinctKeys) (hw : ∀ x ∈ items', x.DistinctKeys) :
    items'.map (JsonTree.textField k) = items.map (JsonTree.textField k) := by
  induction h with
  | nil => rfl
  | cons hxy _ ih =>
    rw [List.map_cons, List.map_cons,
      hxy.textField (hv _ List.mem_cons_self) (hw _ List.mem_cons_self),
      ih (fun x hx => hv x (List.mem_cons_of_mem _ hx)) fun x hx => hw x (List.mem_cons_of_mem _ hx)]

end

end JsonTree

/-! ### Schemas of JSON values -/

namespace JsonSchema

open JsonTree

/-- The schema of a text. -/
def textOf (s : Schema Text Text) : Schema Json Json
  | .leaf (.string t) => (fun t => .leaf (.string t)) <$> s t
  | _ => .error .invalidType

/-- The number is not below zero. -/
def isNonnegative : Decimal → Bool
  | .zero => true
  | .nonzero negative .. => !negative

/-- `z.number().nonnegative()`. -/
def nonnegative : Schema Json Json
  | .leaf (.number n) => do
    ensure (isNonnegative n = true) (.tooSmall 0)
    return .leaf (.number n)
  | _ => .error .invalidType

/-- `z.array(s).max(n)`. -/
def arrayOf (s : Schema Json Json) (n : ℕ) : Schema Json Json
  | .array items => .array <$> (Schema.array s >=> Schema.atMost n) items
  | _ => .error .invalidType

/-- `z.record(z.string(), z.unknown())`. -/
def recordOf : Schema Json Json
  | .object fields => .ok (.object fields)
  | _ => .error .invalidType

/-- A field of an object. -/
structure FieldSchema where
  key : Text
  isOptional : Bool
  schema : Schema Json Json

/-- The value of a field of the schema, from the entries of an object. -/
def parseField (fields : List (Text × Json)) (f : FieldSchema) :
    Except SchemaIssue (Text × Option Json) :=
  match valueAt f.key fields with
  | some x => (fun y => (f.key, some y)) <$> f.schema x
  | none => do
    ensure (f.isOptional = true) .invalidType
    return (f.key, none)

/-- The entries that are there. -/
def entriesOf (parsed : List (Text × Option Json)) : List (Text × Json) :=
  parsed.filterMap fun e => e.2.map fun y => (e.1, y)

/-- The entries that the schema does not name. -/
def otherFields (shape : List FieldSchema) (fields : List (Text × Json)) : List (Text × Json) :=
  fields.filter fun e => decide (e.1 ∉ shape.map (·.key))

/-- `z.object(shape)` with `.passthrough()`, or with `.strict()`. -/
def objectOf (shape : List FieldSchema) (passthrough : Bool) : Schema Json Json
  | .object fields => do
    let parsed ← Schema.array (parseField fields) shape
    ensure (passthrough = true ∨ (otherFields shape fields).isEmpty = true)
      (.custom "Unrecognized keys")
    return .object (entriesOf parsed ++ otherFields shape fields)
  | _ => .error .invalidType

/-! ### What the schema of an object makes of its fields -/

section

variable {shape : List FieldSchema} {passthrough : Bool} {fields l : List (Text × Json)} {v w : Json}
  {f : FieldSchema} {parsed : List (Text × Option Json)} {k : Text}

theorem parseField_eq_some {y : Json} :
    parseField fields f = .ok (k, some y) ↔
      k = f.key ∧ ∃ x, valueAt f.key fields = some x ∧ f.schema x = .ok y := by
  unfold parseField
  split
  · rename_i x hx
    rw [map_eq_ok]
    constructor
    · rintro ⟨y', hy', heq⟩
      obtain ⟨rfl, hy⟩ := Prod.mk.inj heq
      obtain rfl := Option.some.inj hy
      exact ⟨rfl, x, hx, hy'⟩
    · rintro ⟨rfl, x', hx', hy⟩
      rw [hx, Option.some.injEq] at hx'
      subst hx'
      exact ⟨y, hy, rfl⟩
  · rename_i hnone
    simp only [bind_eq_ok, pure_eq_ok, hnone]
    simp

theorem parseField_eq_none :
    parseField fields f = .ok (k, none) ↔
      k = f.key ∧ valueAt f.key fields = none ∧ f.isOptional = true := by
  unfold parseField
  split
  · rename_i x hx
    rw [map_eq_ok, hx]
    simp
  · rename_i hnone
    simp only [bind_eq_ok, ensure_eq_ok, pure_eq_ok, hnone, Prod.mk.injEq, and_true, true_and]
    constructor
    · rintro ⟨_, hoptional, rfl⟩
      exact ⟨rfl, hoptional⟩
    · rintro ⟨rfl, hoptional⟩
      exact ⟨(), hoptional, rfl⟩

theorem parseField_key {o : Option Json} (h : parseField fields f = .ok (k, o)) : k = f.key := by
  cases o with
  | none => exact (parseField_eq_none.mp h).1
  | some y => exact (parseField_eq_some.mp h).1

theorem objectOf_eq_ok :
    objectOf shape passthrough v = .ok w ↔ ∃ fields parsed, v = .object fields ∧
      List.Forall₂ (fun f e => parseField fields f = .ok e) shape parsed ∧
      (passthrough = true ∨ (otherFields shape fields).isEmpty = true) ∧
      w = .object (entriesOf parsed ++ otherFields shape fields) := by
  unfold objectOf
  split
  · rename_i fields
    simp only [bind_eq_ok, ensure_eq_ok, pure_eq_ok, Schema.array_eq_ok, object.injEq]
    constructor
    · rintro ⟨parsed, hparsed, _, hothers, rfl⟩
      exact ⟨fields, parsed, rfl, hparsed, hothers, rfl⟩
    · rintro ⟨_, parsed, rfl, hparsed, hothers, rfl⟩
      exact ⟨parsed, hparsed, (), hothers, rfl⟩
  · rename_i hnot
    refine ⟨fun h => (by cases h), ?_⟩
    rintro ⟨fields, _, rfl, _⟩
    exact absurd rfl (hnot fields)

theorem mem_entriesOf {y : Json} : (k, y) ∈ entriesOf parsed ↔ (k, some y) ∈ parsed := by
  unfold entriesOf
  rw [List.mem_filterMap]
  constructor
  · rintro ⟨⟨k', o⟩, he, heq⟩
    rcases Option.map_eq_some_iff.mp heq with ⟨y', rfl, hpair⟩
    obtain ⟨rfl, rfl⟩ := Prod.mk.inj hpair
    exact he
  · intro h
    exact ⟨_, h, rfl⟩

theorem keys_parsed (h : List.Forall₂ (fun f e => parseField fields f = .ok e) shape parsed) :
    parsed.map Prod.fst = shape.map (·.key) := by
  induction h with
  | nil => rfl
  | cons hf _ ih => rw [List.map_cons, List.map_cons, parseField_key hf, ih]

theorem keys_entriesOf : List.Sublist ((entriesOf parsed).map Prod.fst) (parsed.map Prod.fst) := by
  induction parsed with
  | nil => exact List.Sublist.refl _
  | cons e parsed ih =>
    rcases e with ⟨k, _ | y⟩
    · exact ih.cons k
    · exact ih.cons_cons k

/-- The entries of a parsed object have distinct keys. -/
theorem nodup_parsed (hshape : (shape.map (·.key)).Nodup) (hkeys : (fields.map Prod.fst).Nodup)
    (h : List.Forall₂ (fun f e => parseField fields f = .ok e) shape parsed) :
    ((entriesOf parsed ++ otherFields shape fields).map Prod.fst).Nodup := by
  rw [List.map_append]
  refine List.Nodup.append ?_ (hkeys.sublist (List.filter_sublist.map Prod.fst)) ?_
  · exact hshape.sublist (keys_parsed h ▸ keys_entriesOf)
  · intro k hk hother
    rcases List.mem_map.mp hother with ⟨e, he, rfl⟩
    refine of_decide_eq_true (List.mem_filter.mp he).2 ?_
    rw [← keys_parsed h]
    exact keys_entriesOf.subset hk

/-- **A field of the schema** is what its schema makes of it. -/
theorem valueAt_of_mem (hshape : (shape.map (·.key)).Nodup) (hf : f ∈ shape)
    (h : List.Forall₂ (fun f e => parseField fields f = .ok e) shape parsed) :
    parseField fields f = .ok (f.key, valueAt f.key (entriesOf parsed ++ otherFields shape fields)) := by
  obtain ⟨⟨k, o⟩, hmem, hparse⟩ : ∃ e ∈ parsed, parseField fields f = .ok e := by
    clear hshape
    induction h with
    | nil => cases hf
    | cons hfe _ ih =>
      rcases List.mem_cons.mp hf with rfl | hf
      · exact ⟨_, List.mem_cons_self, hfe⟩
      · rcases ih hf with ⟨e, he, hparse⟩
        exact ⟨e, List.mem_cons_of_mem _ he, hparse⟩
  obtain rfl : k = f.key := parseField_key hparse
  have hnodup : (parsed.map Prod.fst).Nodup := by
    rw [keys_parsed h]
    exact hshape
  have hother : valueAt f.key (otherFields shape fields) = none := by
    rw [valueAt_eq_none_iff, List.mem_map]
    rintro ⟨e, he, hkey⟩
    refine of_decide_eq_true (List.mem_filter.mp he).2 ?_
    rw [hkey]
    exact List.mem_map_of_mem hf
  rw [valueAt_append, hother, Option.or_none, hparse]
  congr 2
  cases o with
  | none =>
    refine (valueAt_eq_none_iff.mpr fun hk => ?_).symm
    rcases List.mem_map.mp hk with ⟨⟨_, y⟩, hy, rfl⟩
    have hsame := eq_of_key_eq hnodup (mem_entriesOf.mp hy) hmem rfl
    cases (Prod.mk.inj hsame).2
  | some y =>
    refine ((valueAt_eq_some_iff (hnodup.sublist keys_entriesOf)).mpr (mem_entriesOf.mpr hmem)).symm

/-- **A field that the schema does not name** is left as it is. -/
theorem valueAt_of_notMem (hk : k ∉ shape.map (·.key))
    (h : List.Forall₂ (fun f e => parseField fields f = .ok e) shape parsed) :
    valueAt k (entriesOf parsed ++ otherFields shape fields) = valueAt k fields := by
  have hentries : valueAt k (entriesOf parsed) = none := by
    rw [valueAt_eq_none_iff]
    intro hmem
    rw [← keys_parsed h] at hk
    exact hk (keys_entriesOf.subset hmem)
  rw [valueAt_append, hentries, Option.none_or]
  unfold valueAt otherFields
  rw [List.find?_filter]
  congr 2
  funext e
  by_cases hkey : e.1 = k
  · rw [hkey, decide_eq_true hk]
    simp
  · rw [decide_eq_false hkey]
    simp

theorem mem_entries_of_mem (hk : k ∈ shape.map (·.key))
    (hmem : k ∈ (entriesOf parsed ++ otherFields shape fields).map Prod.fst) :
    k ∈ (entriesOf parsed).map Prod.fst := by
  rw [List.map_append] at hmem
  refine (List.mem_append.mp hmem).resolve_right fun hother => ?_
  rcases List.mem_map.mp hother with ⟨e, he, rfl⟩
  exact of_decide_eq_true (List.mem_filter.mp he).2 hk

/-- A schema puts tied keys in one order: first those that it names, in its own order, and then the
    others, in theirs. -/
theorem tiedAlike_parsed {le : Text → Text → Bool} {fields' : List (Text × Json)}
    {again : List (Text × Option Json)} (hshape : (shape.map (·.key)).Nodup)
    (hparsed : List.Forall₂ (fun f e => parseField fields f = .ok e) shape parsed)
    (hagain : List.Forall₂ (fun f e => parseField fields' f = .ok e) shape again)
    (htied : TiedAlike le ((entriesOf parsed ++ otherFields shape fields).map Prod.fst)
      (fields'.map Prod.fst))
    (hsome : ∀ k, (valueAt k (entriesOf parsed ++ otherFields shape fields)).isSome =
      (valueAt k (entriesOf again ++ otherFields shape fields')).isSome) :
    TiedAlike le ((entriesOf parsed ++ otherFields shape fields).map Prod.fst)
      ((entriesOf again ++ otherFields shape fields').map Prod.fst) := by
  have hnamed : ∀ k ∈ (entriesOf parsed).map Prod.fst,
      k ∈ shape.map (·.key) ∧ k ∈ (entriesOf again).map Prod.fst := by
    intro k hk
    have hkey : k ∈ shape.map (·.key) := by
      rw [← keys_parsed hparsed]
      exact keys_entriesOf.subset hk
    have hmem : k ∈ (entriesOf again ++ otherFields shape fields').map Prod.fst := by
      rw [← isSome_valueAt, ← hsome, isSome_valueAt, List.map_append]
      exact List.mem_append_left _ hk
    exact ⟨hkey, mem_entries_of_mem hkey hmem⟩
  have hunnamed : ∀ k ∈ (otherFields shape fields).map Prod.fst, k ∉ shape.map (·.key) := by
    intro k hk
    rcases List.mem_map.mp hk with ⟨e, he, rfl⟩
    exact of_decide_eq_true (List.mem_filter.mp he).2
  intro k k' hk hk' hle hle' hsub
  have hsub' := htied k k' hk hk' hle hle' hsub
  rw [List.map_append] at hsub ⊢
  have hothers : k' ∈ (otherFields shape fields).map Prod.fst →
      k' ∈ (otherFields shape fields').map Prod.fst := by
    intro hmem
    rcases List.mem_map.mp (hsub'.subset (by simp : k' ∈ [k, k'])) with ⟨e, he, rfl⟩
    exact List.mem_map_of_mem (List.mem_filter.mpr ⟨he, decide_eq_true (hunnamed _ hmem)⟩)
  rcases List.sublist_append_iff.mp hsub with ⟨l₁, l₂, hsplit, h₁, h₂⟩
  rcases l₁ with _ | ⟨a, _ | ⟨b, l₁⟩⟩
  · -- the schema names neither
    rw [List.nil_append] at hsplit
    rw [← hsplit] at h₂
    refine List.Sublist.trans ?_ (List.sublist_append_right _ _)
    have hfilter := hsub'.filter fun k => decide (k ∉ shape.map (·.key))
    rw [List.filter_eq_self.mpr fun a ha => decide_eq_true (hunnamed a (h₂.subset ha)),
      List.filter_map] at hfilter
    exact hfilter
  · -- it names the first only
    rw [List.singleton_append, List.cons.injEq] at hsplit
    obtain ⟨rfl, rfl⟩ := hsplit
    exact (List.singleton_sublist.mpr (hnamed k (List.singleton_sublist.mp h₁)).2).append
      (List.singleton_sublist.mpr (hothers (List.singleton_sublist.mp h₂)))
  · -- it names both
    rw [List.cons_append, List.cons_append, List.cons.injEq, List.cons.injEq] at hsplit
    obtain ⟨rfl, rfl, hnil⟩ := hsplit
    obtain ⟨rfl, rfl⟩ := List.append_eq_nil_iff.mp hnil.symm
    have hfirst := hnamed k (h₁.subset (by simp))
    have hsecond := hnamed k' (h₁.subset (by simp))
    have horder : List.Sublist [k, k'] (shape.map (·.key)) := by
      rw [← keys_parsed hparsed]
      exact h₁.trans keys_entriesOf
    refine List.Sublist.trans ?_ (List.sublist_append_left _ _)
    refine (pair_sublist_or hfirst.2 hsecond.2 (pair_ne hshape horder)).resolve_right fun hswap => ?_
    refine not_pair_sublist_swap hshape horder ?_
    rw [← keys_parsed hagain]
    exact hswap.trans keys_entriesOf

end

/-! ### Parsing again -/

/-- **What the schema has parsed** has distinct keys, of the kinds that there were, and the schema
    parses it again to an equal value, whatever the order of the keys. -/
structure Rereads (s : Schema Json Json) : Prop where
  distinct : ∀ {v w}, v.DistinctKeys → s v = .ok w → w.DistinctKeys
  keys : ∀ {P : Text → Prop} {v w}, v.KeysIn P → s v = .ok w → w.KeysIn P
  again : ∀ {le v w w'}, v.DistinctKeys → s v = .ok w → w'.DistinctKeys → w.Alike le w' →
    ∃ w'', s w' = .ok w'' ∧ w.Alike le w''

section

variable {s : Schema Json Json} {shape : List FieldSchema} {passthrough : Bool}

/-- A schema of leaves that it parses to themselves once it has parsed them. -/
theorem rereads_of_leaf (hleaf : ∀ v w, s v = .ok w → ∃ a, w = .leaf a ∧ s w = .ok w) :
    Rereads s where
  distinct := by
    intro v w _ h
    rcases hleaf v w h with ⟨a, rfl, _⟩
    trivial
  keys := by
    intro P v w _ h
    rcases hleaf v w h with ⟨a, rfl, _⟩
    trivial
  again := by
    intro le v w w' _ h _ halike
    rcases hleaf v w h with ⟨a, rfl, hagain⟩
    obtain rfl := alike_leaf_iff.mp halike
    exact ⟨_, hagain, halike⟩

theorem textOf_eq_ok {s : Schema Text Text} {v w : Json} :
    textOf s v = .ok w ↔ ∃ t t', v = .leaf (.string t) ∧ s t = .ok t' ∧ w = .leaf (.string t') := by
  unfold textOf
  split
  · rename_i t
    rw [map_eq_ok]
    constructor
    · rintro ⟨t', ht', rfl⟩
      exact ⟨t, t', rfl, ht', rfl⟩
    · rintro ⟨_, t', heq, ht', rfl⟩
      cases heq
      exact ⟨t', ht', rfl⟩
  · rename_i hnot
    refine ⟨fun h => (by cases h), ?_⟩
    rintro ⟨t, _, rfl, _⟩
    exact absurd rfl (hnot t)

theorem rereads_textOf {s : Schema Text Text} (hs : ∀ t t', s t = .ok t' → s t' = .ok t') :
    Rereads (textOf s) := by
  refine rereads_of_leaf fun v w h => ?_
  rcases textOf_eq_ok.mp h with ⟨t, t', rfl, ht', rfl⟩
  exact ⟨_, rfl, textOf_eq_ok.mpr ⟨t', t', rfl, hs t t' ht', rfl⟩⟩

theorem rereads_nonnegative : Rereads nonnegative := by
  refine rereads_of_leaf fun v w h => ?_
  have hv := h
  unfold nonnegative at h
  split at h
  · simp only [bind_eq_ok, pure_eq_ok] at h
    rcases h with ⟨_, _, rfl⟩
    exact ⟨_, rfl, hv⟩
  · cases h

/-- A schema that leaves what it accepts as it is, and accepts it in any order. -/
theorem rereads_of_checks (hs : ∀ v w, s v = .ok w → w = v)
    (hsame : ∀ v v' : Json, s v = .ok v → v.Same v' → s v' = .ok v') : Rereads s where
  distinct := by
    intro v w hv h
    rw [hs v w h]
    exact hv
  keys := by
    intro P v w hv h
    rw [hs v w h]
    exact hv
  again := by
    intro le v w w' _ h _ halike
    obtain rfl := hs v w h
    exact ⟨w', hsame w w' h halike.1, halike⟩

theorem rereads_recordOf : Rereads recordOf := by
  refine rereads_of_checks (fun v w h => ?_) fun v v' h hsame => ?_
  · unfold recordOf at h
    split at h
    · exact (Except.ok.inj h).symm
    · cases h
  · unfold recordOf at h
    split at h
    · rcases hsame with ⟨fields', rfl, _⟩
      rfl
    · cases h

theorem arrayOf_eq_ok {n : ℕ} {v w : Json} :
    arrayOf s n v = .ok w ↔ ∃ items items', v = .array items ∧ w = .array items' ∧
      List.Forall₂ (fun x y => s x = .ok y) items items' ∧ items'.length ≤ n := by
  unfold arrayOf
  split
  · rename_i items
    simp only [map_eq_ok, Schema.andThen_eq_ok, Schema.atMost_eq_ok, Schema.array_eq_ok]
    constructor
    · rintro ⟨items', ⟨_, hitems, hlength, rfl⟩, rfl⟩
      exact ⟨items, items', rfl, rfl, hitems, hlength⟩
    · rintro ⟨_, items', heq, rfl, hitems, hlength⟩
      cases heq
      exact ⟨items', ⟨items', hitems, hlength, rfl⟩, rfl⟩
  · rename_i hnot
    refine ⟨fun h => (by cases h), ?_⟩
    rintro ⟨items, _, rfl, _⟩
    exact absurd rfl (hnot items)

/-- The items of an array, one by one. -/
theorem Rereads.items (hs : Rereads s) {le : Text → Text → Bool} {items items' rest : List Json}
    (hitems : List.Forall₂ (fun x y => s x = .ok y) items items')
    (hdistinct : ∀ x ∈ items, x.DistinctKeys) (hrest : ∀ x ∈ rest, x.DistinctKeys)
    (halike : List.Forall₂ (Alike le) items' rest) :
    ∃ again, List.Forall₂ (fun x y => s x = .ok y) rest again ∧
      List.Forall₂ (Alike le) items' again := by
  induction hitems generalizing rest with
  | nil =>
    cases halike
    exact ⟨[], .nil, .nil⟩
  | cons hxy _ ih =>
    cases halike with
    | cons hyz halike =>
      rcases hs.again (hdistinct _ List.mem_cons_self) hxy (hrest _ List.mem_cons_self) hyz with
        ⟨y', hy', halike'⟩
      rcases ih (fun x hx => hdistinct x (List.mem_cons_of_mem _ hx))
        (fun x hx => hrest x (List.mem_cons_of_mem _ hx)) halike with ⟨again, hagain, hall⟩
      exact ⟨y' :: again, .cons hy' hagain, .cons halike' hall⟩

theorem rereads_arrayOf (hs : Rereads s) (n : ℕ) : Rereads (arrayOf s n) where
  distinct := by
    intro v w hv h
    rcases arrayOf_eq_ok.mp h with ⟨items, items', rfl, rfl, hitems, _⟩
    refine distinctItems_iff.mpr fun y hy => ?_
    rcases Schema.exists_of_array_eq_ok (Schema.array_eq_ok.mpr hitems) hy with ⟨x, hx, hxy⟩
    exact hs.distinct (distinctItems_iff.mp hv x hx) hxy
  keys := by
    intro P v w hv h
    rcases arrayOf_eq_ok.mp h with ⟨items, items', rfl, rfl, hitems, _⟩
    refine itemKeysIn_iff.mpr fun y hy => ?_
    rcases Schema.exists_of_array_eq_ok (Schema.array_eq_ok.mpr hitems) hy with ⟨x, hx, hxy⟩
    exact hs.keys (itemKeysIn_iff.mp hv x hx) hxy
  again := by
    intro le v w w' hv h hw' halike
    rcases arrayOf_eq_ok.mp h with ⟨items, items', rfl, rfl, hitems, hlength⟩
    rcases alike_array_iff.mp halike with ⟨rest, rfl, hrest⟩
    rcases hs.items hitems (distinctItems_iff.mp hv) (distinctItems_iff.mp hw') hrest with
      ⟨again, hagain, hall⟩
    refine ⟨_, arrayOf_eq_ok.mpr ⟨rest, again, rfl, rfl, hagain, ?_⟩,
      alike_array_iff.mpr ⟨again, rfl, hall⟩⟩
    rw [← hall.length_eq]
    exact hlength

/-- An entry that the schema names is what its schema made of a field. -/
theorem parsed_of_mem {fields : List (Text × Json)} {parsed : List (Text × Option Json)}
    (hparsed : List.Forall₂ (fun f e => parseField fields f = .ok e) shape parsed)
    {e : Text × Json} (he : e ∈ entriesOf parsed) :
    ∃ f ∈ shape, e.1 = f.key ∧ ∃ x, valueAt f.key fields = some x ∧ f.schema x = .ok e.2 := by
  rcases Schema.exists_of_array_eq_ok (Schema.array_eq_ok.mpr hparsed)
    (mem_entriesOf (k := e.1) (y := e.2).mp he) with ⟨f, hf, hparse⟩
  exact ⟨f, hf, parseField_eq_some.mp hparse⟩

/-- **A field of a parsed object** is what its schema has made of the field. -/
theorem field_of_objectOf (hshape : (shape.map (·.key)).Nodup) {f : FieldSchema} (hf : f ∈ shape)
    {v w x : Json} (h : objectOf shape passthrough v = .ok w) (hx : v.field f.key = some x) :
    ∃ y, f.schema x = .ok y ∧ w.field f.key = some y := by
  rcases objectOf_eq_ok.mp h with ⟨fields, parsed, rfl, hparsed, _, rfl⟩
  have hparse := valueAt_of_mem hshape hf hparsed
  show ∃ y, _ ∧ valueAt f.key (entriesOf parsed ++ otherFields shape fields) = some y
  cases hy : valueAt f.key (entriesOf parsed ++ otherFields shape fields) with
  | none =>
    rw [hy] at hparse
    exact absurd (hx.symm.trans (parseField_eq_none.mp hparse).2.1) (by simp)
  | some y =>
    rw [hy] at hparse
    rcases (parseField_eq_some.mp hparse).2 with ⟨x', hx', hschema⟩
    obtain rfl := Option.some.inj (hx.symm.trans hx')
    exact ⟨y, hschema, rfl⟩

/-- **Objects** are parsed again, if their fields are. -/
theorem rereads_objectOf (hshape : (shape.map (·.key)).Nodup) (h : ∀ f ∈ shape, Rereads f.schema) :
    Rereads (objectOf shape passthrough) where
  distinct := by
    intro v w hv hw
    rcases objectOf_eq_ok.mp hw with ⟨fields, parsed, rfl, hparsed, _, rfl⟩
    refine ⟨nodup_parsed hshape hv.1 hparsed, distinctFields_iff.mpr fun e he => ?_⟩
    rcases List.mem_append.mp he with hentry | hother
    · rcases parsed_of_mem hparsed hentry with ⟨f, hf, _, x, hx, hy⟩
      exact (h f hf).distinct (distinctKeys_field hv hx) hy
    · exact distinctFields_iff.mp hv.2 e (List.mem_filter.mp hother).1
  keys := by
    intro P v w hv hw
    rcases objectOf_eq_ok.mp hw with ⟨fields, parsed, rfl, hparsed, _, rfl⟩
    have hall : ∀ e ∈ entriesOf parsed ++ otherFields shape fields, P e.1 ∧ e.2.KeysIn P := by
      intro e he
      rcases List.mem_append.mp he with hentry | hother
      · rcases parsed_of_mem hparsed hentry with ⟨f, hf, hkey, x, hx, hy⟩
        have hmem : (f.key, x) ∈ fields := mem_of_valueAt hx
        rw [hkey]
        exact ⟨hv.1 _ hmem, (h f hf).keys (fieldKeysIn_iff.mp hv.2 _ hmem) hy⟩
      · have hmem := (List.mem_filter.mp hother).1
        exact ⟨hv.1 e hmem, fieldKeysIn_iff.mp hv.2 e hmem⟩
    exact ⟨fun e he => (hall e he).1, fieldKeysIn_iff.mpr fun e he => (hall e he).2⟩
  again := by
    intro le v w w' hv hw hw' halike
    rcases objectOf_eq_ok.mp hw with ⟨fields, parsed, rfl, hparsed, hothers, rfl⟩
    rcases halike.1 with ⟨fields', rfl, _⟩
    have hkeys := nodup_parsed hshape hv.1 hparsed
    rcases (alike_object_iff hkeys hw'.1).mp halike with ⟨htied, hvalues⟩
    -- each field of the schema is parsed again
    have hfield : ∀ f ∈ shape, ∃ o, parseField fields' f = .ok (f.key, o) ∧ Option.Rel (Alike le)
        (valueAt f.key (entriesOf parsed ++ otherFields shape fields)) o := by
      intro f hf
      have hparse := valueAt_of_mem hshape hf hparsed
      have hrel := hvalues f.key
      cases hl : valueAt f.key (entriesOf parsed ++ otherFields shape fields) with
      | none =>
        rw [hl] at hparse hrel
        exact ⟨none, parseField_eq_none.mpr
          ⟨rfl, eq_none_of_rel hrel, (parseField_eq_none.mp hparse).2.2⟩, .none⟩
      | some y =>
        rw [hl] at hparse hrel
        rcases (parseField_eq_some.mp hparse).2 with ⟨x, hx, hy⟩
        rcases exists_of_rel hrel with ⟨y', hy', hyy⟩
        rcases (h f hf).again (distinctKeys_field hv hx) hy (distinctKeys_field hw' hy') hyy with
          ⟨y'', hagain, hsame⟩
        exact ⟨some y'', parseField_eq_some.mpr ⟨rfl, y', hy', hagain⟩, .some hsame⟩
    obtain ⟨again, hmap⟩ := exists_mapM_eq_ok (f := parseField fields') (l := shape) fun f hf => by
      rcases hfield f hf with ⟨o, ho, _⟩
      exact ⟨_, ho⟩
    have hagain := Schema.array_eq_ok.mp hmap
    have hvalues' : ∀ k, Option.Rel (Alike le)
        (valueAt k (entriesOf parsed ++ otherFields shape fields))
        (valueAt k (entriesOf again ++ otherFields shape fields')) := by
      intro k
      by_cases hk : k ∈ shape.map (·.key)
      · rcases List.mem_map.mp hk with ⟨f, hf, rfl⟩
        rcases hfield f hf with ⟨o, ho, hrel⟩
        rw [valueAt_of_mem hshape hf hagain, Except.ok.injEq, Prod.mk.injEq] at ho
        rw [ho.2]
        exact hrel
      · rw [valueAt_of_notMem hk hagain]
        exact hvalues k
    refine ⟨.object (entriesOf again ++ otherFields shape fields'),
      objectOf_eq_ok.mpr ⟨fields', again, rfl, hagain, ?_, rfl⟩,
      (alike_object_iff hkeys (nodup_parsed hshape hw'.1 hagain)).mpr
        ⟨tiedAlike_parsed hshape hparsed hagain htied fun k => isSome_eq_of_rel (hvalues' k), hvalues'⟩⟩
    refine hothers.imp id fun hempty => List.isEmpty_iff.mpr ?_
    refine List.filter_eq_nil_iff.mpr fun e he hother => ?_
    have hnot := of_decide_eq_true hother
    have hrel := isSome_eq_of_rel (hvalues e.1)
    rw [valueAt_of_notMem hnot hparsed, isSome_valueAt.mpr (List.mem_map_of_mem he),
      isSome_valueAt] at hrel
    rcases List.mem_map.mp hrel with ⟨e', he', hkey⟩
    refine List.filter_eq_nil_iff.mp (List.isEmpty_iff.mp hempty) e' he' ?_
    rw [hkey]
    exact hother

/-- **The hash of what is read back.**  A parsed value is kept in another order and parsed again: the
    value is equal, and so is its hash, if the order has changed nothing about tied keys. -/
theorem Rereads.hash_eq {localeCompare : Text → Text → ℤ} {sha256 : Text → Text}
    (hs : Rereads s) (hlocale : IsLocaleOrder localeCompare) {v w : Json} (hv : v.DistinctKeys)
    (h : s v = .ok w) {le : Text → Text → Bool}
    (hties : w.TiesAlike (localeLe localeCompare) (w.sorted le)) :
    ∃ w', s (w.sorted le) = .ok w' ∧ w'.DistinctKeys ∧ w.Same w' ∧
      inputHash localeCompare sha256 (ofJson w') = inputHash localeCompare sha256 (ofJson w) := by
  have hw := hs.distinct hv h
  have hstored := distinctKeys_sorted le hw
  rcases hs.again hv h hstored ⟨same_sorted le w, hties⟩ with ⟨w', hw', halike⟩
  have hdistinct := hs.distinct hstored hw'
  refine ⟨w', hw', hdistinct, halike.1, ?_⟩
  unfold inputHash stableJson
  rw [stableValue_ofJson, stableValue_ofJson,
    (sorted_eq_iff hlocale.le_trans hlocale.le_total w w' hw hdistinct).mpr halike]

end

end JsonSchema

end ResearchWorkbench
