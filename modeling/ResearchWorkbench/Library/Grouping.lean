import Mathlib.Data.List.Infix

namespace ResearchWorkbench

/-!
# Greedy grouping

A list is cut into groups by taking its elements one after the other: an element joins the group
that is being filled, or closes it and begins the next one.

* `Grouping`, `Grouping.push`, `Grouping.of`, `Grouping.groups` — the loop;
* `Grouping.Formed`, `formed_of_mem_groups` — what holds of an element alone, and is kept by joining,
  holds of every group;
* `flatten_groups` — nothing is lost or moved;
* `linked_iff` — two neighbours are in one group exactly if the second joined the group of the first.
-/

variable {α : Type*}

/-- The groups that are closed, and the one that is being filled. -/
structure Grouping (α : Type*) where
  closed : List (List α)
  current : List α

namespace Grouping

/-- The groups that can be filled: one element, and another one that joins. -/
inductive Formed (joins : List α → α → Prop) : List α → Prop
  | single (a : α) : Formed joins [a]
  | join {g : List α} {a : α} : Formed joins g → joins g a → Formed joins (g ++ [a])

theorem Formed.ne_nil {joins : List α → α → Prop} {g : List α} (h : Formed joins g) : g ≠ [] := by
  cases h with
  | single a => exact List.cons_ne_nil a []
  | join _ _ => exact List.append_ne_nil_of_right_ne_nil _ (List.cons_ne_nil _ _)

variable {joins : List α → α → Prop} [∀ g a, Decidable (joins g a)] {s : Grouping α} {as : List α}
  {a u v : α} {g : List α}

/-- An element joins the group, or begins the next one. -/
def push (joins : List α → α → Prop) [∀ g a, Decidable (joins g a)] (s : Grouping α) (a : α) :
    Grouping α :=
  if s.current ≠ [] ∧ ¬joins s.current a then ⟨s.closed ++ [s.current], [a]⟩
  else ⟨s.closed, s.current ++ [a]⟩

/-- The elements, one after the other. -/
def of (joins : List α → α → Prop) [∀ g a, Decidable (joins g a)] (as : List α) : Grouping α :=
  as.foldl (push joins) ⟨[], []⟩

/-- All groups, the last of which ends with the list. -/
def groups (s : Grouping α) : List (List α) :=
  if s.current = [] then s.closed else s.closed ++ [s.current]

theorem of_concat : of joins (as ++ [a]) = push joins (of joins as) a := List.foldl_concat ..

/-! ### What one element does -/

theorem push_current_ne_nil (s : Grouping α) (a : α) : (push joins s a).current ≠ [] := by
  unfold push
  split
  · exact List.cons_ne_nil a []
  · exact List.append_ne_nil_of_right_ne_nil _ (List.cons_ne_nil a [])

theorem getLast?_push (s : Grouping α) (a : α) : (push joins s a).current.getLast? = some a := by
  unfold push
  split
  · rfl
  · exact List.getLast?_concat

theorem groups_of_ne_nil (h : s.current ≠ []) : s.groups = s.closed ++ [s.current] := if_neg h

theorem flatten_push (s : Grouping α) (a : α) :
    (push joins s a).groups.flatten = s.groups.flatten ++ [a] := by
  rw [groups_of_ne_nil (push_current_ne_nil s a), groups]
  unfold push
  by_cases hcurrent : s.current = []
  · rw [if_neg (fun h => h.1 hcurrent), if_pos hcurrent, hcurrent]
    simp
  · rw [if_neg hcurrent]
    split <;> simp

/-! ### What holds of every group -/

theorem formed_push (hs : ∀ g ∈ s.groups, Formed joins g) :
    ∀ g ∈ (push joins s a).groups, Formed joins g := by
  rw [groups_of_ne_nil (push_current_ne_nil s a)]
  unfold push
  by_cases hcurrent : s.current = []
  · rw [groups, if_pos hcurrent] at hs
    rw [if_neg (fun h => h.1 hcurrent), hcurrent, List.nil_append, List.forall_mem_append]
    exact ⟨hs, List.forall_mem_singleton.mpr (.single a)⟩
  · rw [groups, if_neg hcurrent] at hs
    split
    · rw [List.forall_mem_append]
      exact ⟨hs, List.forall_mem_singleton.mpr (.single a)⟩
    · rename_i hjoins
      rw [List.forall_mem_append, List.forall_mem_singleton] at hs ⊢
      exact ⟨hs.1, .join hs.2 (not_not.mp fun h => hjoins ⟨hcurrent, h⟩)⟩

theorem of_spec (as : List α) :
    (of joins as).groups.flatten = as ∧ (∀ g ∈ (of joins as).groups, Formed joins g) ∧
      (of joins as).current.getLast? = as.getLast? := by
  induction as using List.reverseRecOn with
  | nil => exact ⟨rfl, fun g hg => (by cases hg), rfl⟩
  | append_singleton as a ih =>
    rw [of_concat, flatten_push, ih.1, getLast?_push, List.getLast?_concat]
    exact ⟨rfl, formed_push ih.2.1, rfl⟩

/-- **Nothing is lost or moved.** -/
theorem flatten_groups (joins : List α → α → Prop) [∀ g a, Decidable (joins g a)] (as : List α) :
    (of joins as).groups.flatten = as := (of_spec as).1

/-- **Every group is formed by joining.** -/
theorem formed_of_mem_groups (hg : g ∈ (of joins as).groups) : Formed joins g :=
  (of_spec as).2.1 g hg

theorem getLast?_current (joins : List α → α → Prop) [∀ g a, Decidable (joins g a)] (as : List α) :
    (of joins as).current.getLast? = as.getLast? := (of_spec as).2.2

/-! ### Neighbours -/

/-- The two are neighbours in a group. -/
def Linked (gs : List (List α)) (u v : α) : Prop := ∃ g ∈ gs, [u, v] <:+: g

theorem infix_concat_iff : [u, v] <:+: g ++ [a] ↔ [u, v] <:+: g ∨ v = a ∧ g.getLast? = some u := by
  constructor
  · rintro ⟨before, after, h⟩
    rcases List.eq_nil_or_concat after with rfl | ⟨after, b, rfl⟩
    · rw [List.append_nil, show before ++ [u, v] = (before ++ [u]) ++ [v] by simp] at h
      rcases List.append_inj' h rfl with ⟨rfl, hv⟩
      cases hv
      exact .inr ⟨rfl, List.getLast?_concat⟩
    · rw [List.concat_eq_append, ← List.append_assoc] at h
      exact .inl ⟨before, after, (List.append_inj' h rfl).1⟩
  · rintro (⟨before, after, rfl⟩ | ⟨rfl, hlast⟩)
    · exact ⟨before, after ++ [a], by simp⟩
    · rcases List.getLast?_eq_some_iff.mp hlast with ⟨before, rfl⟩
      exact ⟨before, [], by simp⟩

theorem linked_push : Linked (push joins s a).groups u v ↔
    Linked s.groups u v ∨ v = a ∧ s.current.getLast? = some u ∧ joins s.current a := by
  have hsingle : ¬[u, v] <:+: [a] := fun h => absurd h.length_le (by simp)
  rw [Linked, groups_of_ne_nil (push_current_ne_nil s a), groups, Linked]
  unfold push
  by_cases hcurrent : s.current = []
  · rw [if_neg (fun h => h.1 hcurrent), if_pos hcurrent, hcurrent]
    simp [hsingle]
  · rw [if_neg hcurrent]
    split
    · rename_i hcloses
      simp only [List.mem_append, List.mem_singleton, or_and_right, exists_or, exists_eq_left,
        hsingle, hcloses.2, and_false, or_false]
    · rename_i hjoins
      have hjoin : joins s.current a := not_not.mp fun h => hjoins ⟨hcurrent, h⟩
      simp only [List.mem_append, List.mem_singleton, or_and_right, exists_or, exists_eq_left,
        infix_concat_iff, hjoin, and_true]
      rw [or_assoc]

/-- **Two neighbours are in one group exactly if the second joined that of the first.** -/
theorem linked_iff : Linked (of joins as).groups u v ↔
    ∃ before after, as = before ++ u :: v :: after ∧
      joins (of joins (before ++ [u])).current v := by
  induction as using List.reverseRecOn with
  | nil =>
    refine iff_of_false ?_ ?_
    · rintro ⟨g, hg, _⟩
      cases hg
    · rintro ⟨before, after, h, _⟩
      exact absurd h (by simp)
  | append_singleton as a ih =>
    rw [of_concat, linked_push, ih, getLast?_current]
    constructor
    · rintro (⟨before, after, rfl, hjoins⟩ | ⟨rfl, hlast, hjoins⟩)
      · exact ⟨before, after ++ [a], by simp, hjoins⟩
      · rcases List.getLast?_eq_some_iff.mp hlast with ⟨before, rfl⟩
        exact ⟨before, [], by simp, hjoins⟩
    · rintro ⟨before, after, h, hjoins⟩
      rcases List.eq_nil_or_concat after with rfl | ⟨after, b, rfl⟩
      · rw [show before ++ [u, v] = (before ++ [u]) ++ [v] by simp] at h
        rcases List.append_inj' h rfl with ⟨rfl, hv⟩
        cases hv
        exact .inr ⟨rfl, List.getLast?_concat, hjoins⟩
      · rw [List.concat_eq_append, show before ++ u :: v :: (after ++ [b]) =
          (before ++ u :: v :: after) ++ [b] by simp] at h
        exact .inl ⟨before, after, (List.append_inj' h rfl).1, hjoins⟩

end Grouping

end ResearchWorkbench
