import Mathlib.Data.List.Perm.Basic
import Mathlib.Data.List.Sort

namespace ResearchWorkbench

/-!
# Ties of a sort

A stable sort by a total preorder: what ties stays in the order in which it was.

* `Separated` — no two different items tie;
* `filter_tied_mergeSort` — the items that tie with one are left in their order;
* `Separated.mergeSort_eq` — then the sort says nothing of the order;
* `exists_perm_mergeSort_ne` — otherwise two orders are sorted apart.
-/

variable {α β : Type} {le : α → α → Bool} {l l' : List α} {a b : α}

/-- No two different items tie. -/
def Separated (le : α → α → Bool) (l : List α) : Prop :=
  ∀ a ∈ l, ∀ b ∈ l, le a b = true → le b a = true → a = b

/-- The two items tie. -/
def tied (le : α → α → Bool) (a b : α) : Bool := le a b && le b a

theorem tied_iff : tied le a b = true ↔ le a b = true ∧ le b a = true := by
  rw [tied, Bool.and_eq_true]

variable (trans : ∀ a b c, le a b = true → le b c = true → le a c = true)
  (total : ∀ a b, (le a b || le b a) = true)

include trans total

/-- **What ties** is left in its order. -/
theorem filter_tied_mergeSort (a : α) :
    (l.mergeSort le).filter (tied le a) = l.filter (tied le a) := by
  have hpairwise : (l.filter (tied le a)).Pairwise fun x y => le x y = true := by
    refine List.pairwise_iff_forall_sublist.mpr fun {x y} hsub => ?_
    have hx := (List.mem_filter.mp (hsub.subset (by simp : x ∈ [x, y]))).2
    have hy := (List.mem_filter.mp (hsub.subset (by simp : y ∈ [x, y]))).2
    exact trans x a y (tied_iff.mp hx).2 (tied_iff.mp hy).1
  have hsub := (List.sublist_mergeSort trans total hpairwise List.filter_sublist).filter (tied le a)
  rw [List.filter_filter] at hsub
  simp only [Bool.and_self] at hsub
  exact (hsub.eq_of_length ((List.mergeSort_perm l le).filter _).length_eq.symm).symm

/-- Where no two different items tie, the order before the sort does not matter. -/
theorem Separated.mergeSort_eq (h : Separated le l) (hperm : l.Perm l') :
    l.mergeSort le = l'.mergeSort le := by
  refine @List.Perm.eq_of_pairwise α (fun a b => le a b = true) _ _ ?_
    (List.pairwise_mergeSort trans total l) (List.pairwise_mergeSort trans total l')
    (((List.mergeSort_perm l le).trans hperm).trans (List.mergeSort_perm l' le).symm)
  intro a b ha hb hab hba
  exact h a (List.mem_mergeSort.mp ha) b (hperm.mem_iff.mpr (List.mem_mergeSort.mp hb)) hab hba

/-- Where two different items tie, two orders are sorted apart: those with the one or the other of
    them first. -/
theorem exists_perm_mergeSort_ne {f : β → α} {l : List β} (h : ¬Separated le (l.map f)) :
    ∃ l₁ l₂, l.Perm l₁ ∧ l.Perm l₂ ∧
      (l₁.map f).mergeSort le ≠ (l₂.map f).mergeSort le := by
  unfold Separated at h
  push Not at h
  obtain ⟨_, ha, _, hb, hle, hge, hne⟩ := h
  obtain ⟨x, hx, rfl⟩ := List.mem_map.mp ha
  obtain ⟨y, hy, rfl⟩ := List.mem_map.mp hb
  have hxy : y ≠ x := fun heq => hne (congrArg f heq.symm)
  obtain ⟨s, t, rfl⟩ := List.append_of_mem hx
  have hy' : y ∈ s ++ t := by
    rcases List.mem_cons.mp (List.perm_middle.mem_iff.mp hy) with heq | hmem
    · exact absurd heq hxy
    · exact hmem
  obtain ⟨s', t', hsplit⟩ := List.append_of_mem hy'
  have hperm : (s ++ x :: t).Perm (x :: y :: (s' ++ t')) := by
    refine List.perm_middle.trans (List.Perm.cons x ?_)
    rw [hsplit]
    exact List.perm_middle
  refine ⟨_, _, hperm, hperm.trans (List.Perm.swap y x _), fun heq => hne ?_⟩
  -- in one order the first of the tied items is the one, in the other it is the other
  have hfilter := congrArg (List.filter (tied le (f x))) heq
  have hself : le (f x) (f x) = true := by simpa using total (f x) (f x)
  rw [filter_tied_mergeSort trans total, filter_tied_mergeSort trans total, List.map_cons,
    List.map_cons, List.map_cons, List.map_cons,
    List.filter_cons_of_pos (tied_iff.mpr ⟨hself, hself⟩),
    List.filter_cons_of_pos (tied_iff.mpr ⟨hle, hge⟩),
    List.filter_cons_of_pos (tied_iff.mpr ⟨hle, hge⟩)] at hfilter
  exact (List.cons.inj hfilter).1

end ResearchWorkbench
