import ResearchWorkbench.Library.Numerals

namespace ResearchWorkbench

/-!
# Sorted entries of an object

The entries of an object sorted by key and made into an object again.  An object lists the keys that
are array indices first and in ascending order, and all other keys in the order of insertion, so the
sort decides about the other keys only, and says nothing of keys that it takes to be equal.

* `filter_mergeSort_eq_iff` — when two orders of one list sort alike: what the sort ties is in the
  same order in both;
* `isArrayIndex`, `fromEntries`, `sortedObject` — array indices, `Object.fromEntries(entries)`, and
  the same of sorted entries;
* `sortedObject_eq_iff` — when two lists of entries give the same object in the same order.
-/

/-! ### Sorting two orders of one list -/

section Sorting

variable {α : Type} {le : α → α → Bool} {l l' : List α} {a b : α} {p : α → Bool}

theorem pair_sublist_or (ha : a ∈ l) (hb : b ∈ l) (hne : a ≠ b) :
    List.Sublist [a, b] l ∨ List.Sublist [b, a] l := by
  induction l with
  | nil => exact absurd ha List.not_mem_nil
  | cons x l ih =>
    rcases List.mem_cons.mp ha with rfl | hal
    · rcases List.mem_cons.mp hb with rfl | hbl
      · exact absurd rfl hne
      · exact .inl (List.Sublist.cons_cons a (List.singleton_sublist.mpr hbl))
    · rcases List.mem_cons.mp hb with rfl | hbl
      · exact .inr (List.Sublist.cons_cons b (List.singleton_sublist.mpr hal))
      · rcases ih hal hbl with h | h
        · exact .inl (h.cons x)
        · exact .inr (h.cons x)

theorem not_pair_sublist_swap (hnodup : l.Nodup) (h : List.Sublist [a, b] l)
    (hswap : List.Sublist [b, a] l) : False := by
  induction l with
  | nil => exact absurd h (by simp)
  | cons x l ih =>
    rcases List.nodup_cons.mp hnodup with ⟨hx, hl⟩
    rcases List.sublist_cons_iff.mp h with hsub | ⟨r, hr, hrl⟩
    · rcases List.sublist_cons_iff.mp hswap with hsub' | ⟨r, hr, -⟩
      · exact ih hl hsub hsub'
      · -- `b` is the first of the list and cannot come later as well
        rcases List.cons.inj hr with ⟨rfl, rfl⟩
        exact hx (hsub.subset (by simp))
    · rcases List.cons.inj hr with ⟨rfl, rfl⟩
      rcases List.sublist_cons_iff.mp hswap with hsub' | ⟨r, hr', -⟩
      · exact hx (hsub'.subset (by simp))
      · rcases List.cons.inj hr' with ⟨rfl, rfl⟩
        exact hx (List.singleton_sublist.mp hrl)

theorem pair_ne (hnodup : l.Nodup) (h : List.Sublist [a, b] l) : a ≠ b := by
  rintro rfl
  exact not_pair_sublist_swap hnodup h h

variable (trans : ∀ a b c, le a b = true → le b c = true → le a c = true)
  (total : ∀ a b, (le a b || le b a) = true)

include trans total

/-- What the sort ties is in the order in which it was. -/
theorem pair_of_mergeSort (hnodup : l.Nodup) (h : List.Sublist [a, b] (l.mergeSort le))
    (hba : le b a = true) : List.Sublist [a, b] l := by
  have hsorted : (l.mergeSort le).Nodup := (List.mergeSort_perm l le).nodup_iff.mpr hnodup
  have ha : a ∈ l := List.mem_mergeSort.mp (h.subset (by simp))
  have hb : b ∈ l := List.mem_mergeSort.mp (h.subset (by simp))
  rcases pair_sublist_or ha hb (pair_ne hsorted h) with hl | hl
  · exact hl
  · refine absurd (not_pair_sublist_swap hsorted h ?_) id
    exact List.pair_sublist_mergeSort trans total hba hl

/-- **When two orders of one list sort alike**, as far as a filter shows: what the sort ties is in
the same order in both. -/
theorem filter_mergeSort_eq_iff (hperm : l.Perm l') (hnodup : l.Nodup) :
    (l.mergeSort le).filter p = (l'.mergeSort le).filter p ↔
      ∀ a b, p a = true → p b = true → le a b = true → le b a = true →
        List.Sublist [a, b] l → List.Sublist [a, b] l' := by
  have hnodup' : l'.Nodup := hperm.nodup_iff.mp hnodup
  constructor
  · intro heq a b ha hb hab hba h
    have hfilter : List.Sublist [a, b] ((l.mergeSort le).filter p) := by
      have := (List.pair_sublist_mergeSort trans total hab h).filter p
      simpa [ha, hb] using this
    rw [heq] at hfilter
    exact pair_of_mergeSort trans total hnodup' (hfilter.trans List.filter_sublist) hba
  · intro h
    -- both are sorted, and what is tied is in the order of `l'` in both
    let R : α → α → Prop := fun a b => le a b = true ∧ (le b a = true → List.Sublist [a, b] l')
    have hR : ∀ a b, R a b → R b a → a = b := by
      intro a b hab hba
      exact (not_pair_sublist_swap hnodup' (hab.2 hba.1) (hba.2 hab.1)).elim
    refine @List.Perm.eq_of_pairwise α R _ _ (fun a b _ _ => hR a b) ?_ ?_ ?_
    · refine List.pairwise_iff_forall_sublist.mpr fun {a b} hsub => ?_
      have hmem : ∀ x ∈ [a, b], p x = true := fun x hx => (List.mem_filter.mp (hsub.subset hx)).2
      have hsort := hsub.trans List.filter_sublist
      have hle := List.pairwise_iff_forall_sublist.mp (List.pairwise_mergeSort trans total l) hsort
      exact ⟨hle, fun hba => h a b (hmem a (by simp)) (hmem b (by simp)) hle hba
        (pair_of_mergeSort trans total hnodup hsort hba)⟩
    · refine List.pairwise_iff_forall_sublist.mpr fun {a b} hsub => ?_
      have hsort := hsub.trans List.filter_sublist
      have hle := List.pairwise_iff_forall_sublist.mp (List.pairwise_mergeSort trans total l') hsort
      exact ⟨hle, pair_of_mergeSort trans total hnodup' hsort⟩
    · exact (((List.mergeSort_perm l le).trans hperm).trans (List.mergeSort_perm l' le).symm).filter p

end Sorting

/-! ### Objects -/

/-- `k` is an array index: the numeral of a number less than 2^32 - 1. -/
def isArrayIndex (k : List ℕ) : Bool :=
  numeralText 10 (numeral 10 k) = k && decide (numeral 10 k < 4294967295)

section Objects

variable {β : Type}

/-- `Object.entries(Object.fromEntries(entries))`, for entries with distinct keys. -/
def fromEntries (entries : List (List ℕ × β)) : List (List ℕ × β) :=
  (entries.filter fun e => isArrayIndex e.1).mergeSort
      (fun e f => numeral 10 e.1 ≤ numeral 10 f.1) ++
    entries.filter fun e => !isArrayIndex e.1

/-- The object of the entries sorted by key. -/
def sortedObject (le : List ℕ → List ℕ → Bool) (entries : List (List ℕ × β)) :
    List (List ℕ × β) :=
  fromEntries (entries.mergeSort fun e f => le e.1 f.1)

/-- Two keys, neither of them an array index, that the comparison takes to be equal come in the
second list in the order of the first. -/
def TiedAlike (le : List ℕ → List ℕ → Bool) (keys keys' : List (List ℕ)) : Prop :=
  ∀ k k', isArrayIndex k = false → isArrayIndex k' = false → le k k' = true → le k' k = true →
    List.Sublist [k, k'] keys → List.Sublist [k, k'] keys'

variable {le : List ℕ → List ℕ → Bool} {l l' : List (List ℕ × β)} {e f : List ℕ × β}

theorem eq_of_key_eq (hkeys : (l.map Prod.fst).Nodup) (he : e ∈ l) (hf : f ∈ l) (h : e.1 = f.1) :
    e = f :=
  List.inj_on_of_nodup_map hkeys he hf h

/-- Where the keys are distinct, the order of two entries is that of their keys. -/
theorem pair_sublist_iff_keys (hkeys : (l.map Prod.fst).Nodup) (he : e ∈ l) (hf : f ∈ l) :
    List.Sublist [e, f] l ↔ List.Sublist [e.1, f.1] (l.map Prod.fst) := by
  refine ⟨fun h => h.map Prod.fst, fun h => ?_⟩
  have hne : e ≠ f := by
    rintro rfl
    exact pair_ne hkeys h rfl
  rcases pair_sublist_or he hf hne with hef | hfe
  · exact hef
  · exact (not_pair_sublist_swap hkeys h (hfe.map Prod.fst)).elim

theorem fromEntries_perm (l : List (List ℕ × β)) : (fromEntries l).Perm l := by
  unfold fromEntries
  refine ((List.mergeSort_perm _ _).append_right _).trans ?_
  have := List.filter_append_perm (fun e : List ℕ × β => isArrayIndex e.1) l
  simpa using this

/-- Array indices come out in one order. -/
theorem indices_eq (hperm : l.Perm l') (hkeys : (l'.map Prod.fst).Nodup) :
    (l.filter fun e => isArrayIndex e.1).mergeSort
        (fun e f => numeral 10 e.1 ≤ numeral 10 f.1) =
      (l'.filter fun e => isArrayIndex e.1).mergeSort
        (fun e f => numeral 10 e.1 ≤ numeral 10 f.1) := by
  let le : List ℕ × β → List ℕ × β → Bool := fun e f => numeral 10 e.1 ≤ numeral 10 f.1
  have htrans : ∀ a b c, le a b = true → le b c = true → le a c = true := by
    intro a b c hab hbc
    simp only [le, decide_eq_true_eq] at hab hbc ⊢
    omega
  have htotal : ∀ a b, (le a b || le b a) = true := by
    intro a b
    simp only [le, Bool.or_eq_true, decide_eq_true_eq]
    omega
  have hfilter : (l.filter fun e => isArrayIndex e.1).Perm (l'.filter fun e => isArrayIndex e.1) :=
    hperm.filter _
  refine @List.Perm.eq_of_pairwise _ (fun a b => le a b = true) _ _ ?_
    (List.pairwise_mergeSort htrans htotal _) (List.pairwise_mergeSort htrans htotal _)
    (((List.mergeSort_perm _ _).trans hfilter).trans (List.mergeSort_perm _ _).symm)
  intro a b ha hb hab hba
  rcases List.mem_filter.mp (hfilter.subset (List.mem_mergeSort.mp ha)) with ⟨hal, hai⟩
  rcases List.mem_filter.mp (List.mem_mergeSort.mp hb) with ⟨hbl, hbi⟩
  refine eq_of_key_eq hkeys hal hbl ?_
  simp only [isArrayIndex, Bool.and_eq_true, decide_eq_true_eq] at hai hbi
  simp only [le, decide_eq_true_eq] at hab hba
  rw [← hai.1, ← hbi.1, show numeral 10 a.1 = numeral 10 b.1 by omega]

/-- **When two lists of entries give one object in one order.**  They have the same entries, and
keys that the comparison takes to be equal are in the same order in both. -/
theorem sortedObject_eq_iff (trans : ∀ a b c, le a b = true → le b c = true → le a c = true)
    (total : ∀ a b, (le a b || le b a) = true) (hkeys : (l.map Prod.fst).Nodup)
    (hkeys' : (l'.map Prod.fst).Nodup) :
    sortedObject le l = sortedObject le l' ↔
      l.Perm l' ∧ TiedAlike le (l.map Prod.fst) (l'.map Prod.fst) := by
  let byKey : List ℕ × β → List ℕ × β → Bool := fun e f => le e.1 f.1
  have hsame : l.Perm l' → ((l.mergeSort byKey).filter (fun e => !isArrayIndex e.1) =
      (l'.mergeSort byKey).filter (fun e => !isArrayIndex e.1) ↔
        TiedAlike le (l.map Prod.fst) (l'.map Prod.fst)) := by
    intro hperm
    rw [filter_mergeSort_eq_iff (fun a b c => trans a.1 b.1 c.1) (fun a b => total a.1 b.1) hperm
      hkeys.of_map]
    constructor
    · intro h k k' hk hk' hle hle' hsub
      rcases List.mem_map.mp (hsub.subset (by simp : k ∈ [k, k'])) with ⟨e, he, rfl⟩
      rcases List.mem_map.mp (hsub.subset (by simp : k' ∈ [e.1, k'])) with ⟨f, hf, rfl⟩
      refine (h e f (by simpa using hk) (by simpa using hk') hle hle' ?_).map Prod.fst
      exact (pair_sublist_iff_keys hkeys he hf).mpr hsub
    · intro h e f he hf hle hle' hsub
      have hmem : e ∈ l ∧ f ∈ l := ⟨hsub.subset (by simp), hsub.subset (by simp)⟩
      refine (pair_sublist_iff_keys hkeys' (hperm.subset hmem.1) (hperm.subset hmem.2)).mpr ?_
      exact h e.1 f.1 (by simpa using he) (by simpa using hf) hle hle' (hsub.map Prod.fst)
  have hindices : l.Perm l' →
      ((l.mergeSort byKey).filter fun e => isArrayIndex e.1).mergeSort
          (fun e f => numeral 10 e.1 ≤ numeral 10 f.1) =
        ((l'.mergeSort byKey).filter fun e => isArrayIndex e.1).mergeSort
          (fun e f => numeral 10 e.1 ≤ numeral 10 f.1) := by
    intro hperm
    refine indices_eq (((List.mergeSort_perm l _).trans hperm).trans
      (List.mergeSort_perm l' _).symm) ?_
    exact (((List.mergeSort_perm l' byKey).map Prod.fst).nodup_iff).mpr hkeys'
  constructor
  · intro h
    have hperm : l.Perm l' := by
      have hl := (fromEntries_perm (l.mergeSort byKey)).trans (List.mergeSort_perm l byKey)
      have hl' := (fromEntries_perm (l'.mergeSort byKey)).trans (List.mergeSort_perm l' byKey)
      refine hl.symm.trans ?_
      rw [show fromEntries (l.mergeSort byKey) = fromEntries (l'.mergeSort byKey) from h]
      exact hl'
    refine ⟨hperm, (hsame hperm).mp ?_⟩
    unfold sortedObject fromEntries at h
    rw [hindices hperm] at h
    exact List.append_cancel_left h
  · rintro ⟨hperm, htied⟩
    unfold sortedObject fromEntries
    rw [hindices hperm]
    congr 1
    exact (hsame hperm).mpr htied

end Objects

end ResearchWorkbench
