import Mathlib.Algebra.Order.Group.Nat
import Mathlib.Data.List.Infix

namespace ResearchWorkbench

/-!
# Occurrences of a part

How often a part occurs in a list, and what a separator that is not in the part does to it.

* `occurrences`, `occurrences_eq_zero_iff` — the places at which the part begins;
* `prefix_append_sep_iff` — no occurrence goes over a separator;
* `occurrences_append_sep`, `infix_append_sep_iff` — what is before it and what is after it.
-/

variable {α : Type} [DecidableEq α] {part l r : List α} {sep : α}

/-- The number of places at which the part, which is not empty, begins. -/
def occurrences (part : List α) : List α → ℕ
  | [] => 0
  | x :: l => (if part <+: x :: l then 1 else 0) + occurrences part l

theorem occurrences_eq_zero_iff (hpart : part ≠ []) : occurrences part l = 0 ↔ ¬part <:+: l := by
  induction l with
  | nil =>
    refine iff_of_true rfl fun h => hpart ?_
    exact List.infix_nil.mp h
  | cons x l ih =>
    unfold occurrences
    rw [List.infix_cons_iff, not_or, Nat.add_eq_zero_iff, ih]
    refine and_congr_left fun _ => ?_
    split
    · rename_i h
      exact iff_of_false one_ne_zero (not_not.mpr h)
    · rename_i h
      exact iff_of_true rfl h

omit [DecidableEq α] in
/-- A part without the separator begins before it only if it ends before it. -/
theorem prefix_append_sep_iff (hsep : sep ∉ part) : part <+: l ++ sep :: r ↔ part <+: l := by
  constructor
  · intro h
    by_cases hlength : part.length ≤ l.length
    · exact List.prefix_of_prefix_length_le h (List.prefix_append l _) hlength
    · have hover : l ++ [sep] <+: part := by
        have hshort : (l ++ [sep]).length ≤ part.length := by
          rw [List.length_append, List.length_singleton]
          omega
        refine List.prefix_of_prefix_length_le ?_ h hshort
        exact ⟨r, List.append_assoc l [sep] r⟩
      exact absurd (hover.subset (List.mem_append_right _ (List.mem_singleton_self sep))) hsep
  · intro h
    exact h.trans (List.prefix_append l _)

/-- **A separator** parts the occurrences into those before it and those after it. -/
theorem occurrences_append_sep (hpart : part ≠ []) (hsep : sep ∉ part) :
    occurrences part (l ++ sep :: r) = occurrences part l + occurrences part r := by
  have hnot : ¬part <+: sep :: r := by
    intro h
    have hnil : part <+: [] := (prefix_append_sep_iff (l := []) hsep).mp h
    exact hpart (List.prefix_nil.mp hnil)
  induction l with
  | nil =>
    show (if part <+: sep :: r then 1 else 0) + occurrences part r = 0 + occurrences part r
    rw [if_neg hnot]
  | cons x l ih =>
    have hiff : part <+: x :: (l ++ sep :: r) ↔ part <+: x :: l :=
      prefix_append_sep_iff (l := x :: l) hsep
    rw [List.cons_append, occurrences, occurrences, ih, add_assoc]
    simp only [hiff]

theorem infix_append_sep_iff (hpart : part ≠ []) (hsep : sep ∉ part) :
    part <:+: l ++ sep :: r ↔ part <:+: l ∨ part <:+: r := by
  rw [← not_iff_not, not_or, ← occurrences_eq_zero_iff hpart, ← occurrences_eq_zero_iff hpart,
    ← occurrences_eq_zero_iff hpart, occurrences_append_sep hpart hsep, Nat.add_eq_zero_iff]

end ResearchWorkbench
