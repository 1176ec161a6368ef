import Mathlib.Data.List.Dedup
import Mathlib.Data.List.Perm.Basic

namespace ResearchWorkbench

/-!
# Lists as maps and sets

`new Map(items.map((item) => [key(item), item]))` and `new Set(items)` of ECMAScript, for items in
a list: a map keeps the last item of each key, a set the first of equal items.

* `lookup`, `lookup_eq_some_iff` — `map.get(k)`, for keys that occur once;
* `lookup_perm` — the order of the items does not matter then;
* `firsts`, `mem_firsts`, `nodup_firsts` — the items of a set in the order of their insertion;
* `firstsBy`, `nodup_firstsBy`, `exists_mem_firstsBy` — the first item with each key.
-/

variable {α κ : Type} [DecidableEq κ]

/-! ### Maps -/

/-- `map.get(k)`: the last item with the key. -/
def lookup (key : α → κ) (items : List α) (k : κ) : Option α :=
  items.reverse.find? fun item => key item = k

variable {key : α → κ} {items items' : List α} {k : κ} {a : α}

theorem mem_of_lookup (h : lookup key items k = some a) : a ∈ items ∧ key a = k :=
  ⟨List.mem_reverse.mp (List.mem_of_find?_eq_some h), by simpa using List.find?_some h⟩

theorem lookup_eq_none_iff : lookup key items k = none ↔ ∀ a ∈ items, key a ≠ k := by
  simp only [lookup, List.find?_eq_none, List.mem_reverse, decide_eq_true_eq, ne_eq]

/-- Where keys occur once, the map has the item with the key. -/
theorem lookup_eq_some_iff (h : (items.map key).Nodup) :
    lookup key items k = some a ↔ a ∈ items ∧ key a = k := by
  refine ⟨mem_of_lookup, ?_⟩
  rintro ⟨ha, rfl⟩
  cases hb : lookup key items (key a) with
  | none => exact absurd rfl (lookup_eq_none_iff.mp hb a ha)
  | some b =>
    rcases mem_of_lookup hb with ⟨hmem, hkey⟩
    rw [List.inj_on_of_nodup_map h hmem ha hkey]

/-- Where keys occur once, the order of the items does not matter. -/
theorem lookup_perm (h : (items.map key).Nodup) (hperm : items.Perm items') (k : κ) :
    lookup key items' k = lookup key items k := by
  have h' : (items'.map key).Nodup := (hperm.map key).nodup_iff.mp h
  refine Option.ext fun a => ?_
  rw [lookup_eq_some_iff h, lookup_eq_some_iff h', hperm.mem_iff]

/-! ### Sets -/

/-- The items of a set, in the order of their insertion. -/
def firsts [DecidableEq α] : List α → List α
  | [] => []
  | a :: items => a :: (firsts items).filter (· ≠ a)

variable [DecidableEq α]

theorem mem_firsts : a ∈ firsts items ↔ a ∈ items := by
  induction items with
  | nil => exact Iff.rfl
  | cons b items ih =>
    rw [firsts, List.mem_cons, List.mem_cons, List.mem_filter, ih, decide_eq_true_eq]
    by_cases hab : a = b
    · exact iff_of_true (Or.inl hab) (Or.inl hab)
    · rw [and_iff_left hab]

theorem nodup_firsts (items : List α) : (firsts items).Nodup := by
  induction items with
  | nil => exact List.nodup_nil
  | cons a items ih =>
    refine List.nodup_cons.mpr ⟨fun hmem => ?_, ih.filter _⟩
    rw [List.mem_filter, decide_eq_true_eq] at hmem
    exact hmem.2 rfl

/-! ### The first item with each key -/

/-- The items of a map into which an item is put only if its key is not there yet. -/
def firstsBy (key : α → κ) : List α → List α
  | [] => []
  | a :: items => a :: (firstsBy key items).filter fun b => key b ≠ key a

omit [DecidableEq α] in
theorem firstsBy_sublist (key : α → κ) (items : List α) :
    List.Sublist (firstsBy key items) items := by
  induction items with
  | nil => exact .slnil
  | cons a items ih => exact (List.filter_sublist.trans ih).cons_cons a

omit [DecidableEq α] in
theorem nodup_firstsBy (key : α → κ) (items : List α) : ((firstsBy key items).map key).Nodup := by
  induction items with
  | nil => exact List.nodup_nil
  | cons a items ih =>
    rw [firstsBy, List.map_cons, List.nodup_cons]
    refine ⟨fun hmem => ?_, ih.sublist (List.filter_sublist.map key)⟩
    obtain ⟨b, hb, heq⟩ := List.mem_map.mp hmem
    exact of_decide_eq_true (List.mem_filter.mp hb).2 heq

omit [DecidableEq α] in
/-- Every key is there. -/
theorem exists_mem_firstsBy (key : α → κ) {items : List α} (h : a ∈ items) :
    ∃ b ∈ firstsBy key items, key b = key a := by
  induction items with
  | nil => exact absurd h List.not_mem_nil
  | cons c items ih =>
    by_cases heq : key a = key c
    · exact ⟨c, List.mem_cons_self, heq.symm⟩
    · rcases List.mem_cons.mp h with rfl | hrest
      · exact absurd rfl heq
      · obtain ⟨b, hb, hkey⟩ := ih hrest
        refine ⟨b, List.mem_cons_of_mem _ (List.mem_filter.mpr ⟨hb, decide_eq_true ?_⟩), hkey⟩
        rw [hkey]
        exact heq

end ResearchWorkbench
