import Mathlib.Algebra.Order.BigOperators.Group.List
import Mathlib.Algebra.Order.Field.Basic
import Mathlib.Tactic.Linarith
import Mathlib.Tactic.Ring

namespace ResearchWorkbench

/-!
# Averages of shares

* `average` — the exact average of a list, zero of an empty one;
* `bound_le_average_iff` — items below a bound reach it in the average only if each of them does;
* `half_sum_eq_iff` — the same for two of them.
-/

variable {values : List ℚ} {bound : ℚ}

/-- The average of the values. -/
def average (values : List ℚ) : ℚ := if values = [] then 0 else values.sum / values.length

theorem average_nil : average [] = 0 := if_pos rfl

theorem average_of_ne_nil (h : values ≠ []) : average values = values.sum / values.length :=
  if_neg h

theorem sum_le_bound (h : ∀ x ∈ values, x ≤ bound) : values.sum ≤ values.length * bound := by
  have hle := List.sum_le_card_nsmul values bound h
  rwa [nsmul_eq_mul] at hle

/-- Items below a bound whose sum reaches it: each of them does. -/
theorem eq_of_bound_le_sum (h : ∀ x ∈ values, x ≤ bound) (hsum : values.length * bound ≤ values.sum) :
    ∀ x ∈ values, x = bound := by
  induction values with
  | nil => exact fun _ hmem => absurd hmem List.not_mem_nil
  | cons y values ih =>
    rw [List.forall_mem_cons] at h ⊢
    rw [List.length_cons, List.sum_cons, Nat.cast_add, Nat.cast_one, add_mul, one_mul] at hsum
    have hrest := sum_le_bound h.2
    -- neither the first item nor the others can make up for what the rest lacks
    refine ⟨le_antisymm h.1 (by linarith), ih h.2 (by linarith [h.1])⟩

/-- **An average at its bound.**  Items below a positive bound reach it in the average if and only
    if there are some and each of them does. -/
theorem bound_le_average_iff (hpos : 0 < bound) (h : ∀ x ∈ values, x ≤ bound) :
    bound ≤ average values ↔ values ≠ [] ∧ ∀ x ∈ values, x = bound := by
  by_cases hnil : values = []
  · subst hnil
    rw [average_nil]
    exact iff_of_false (not_le.mpr hpos) fun hne => hne.1 rfl
  · have hlength : (0 : ℚ) < values.length := by
      exact_mod_cast List.length_pos_iff.mpr hnil
    rw [average_of_ne_nil hnil, le_div_iff₀ hlength, mul_comm]
    constructor
    · intro hsum
      exact ⟨hnil, eq_of_bound_le_sum h hsum⟩
    · rintro ⟨-, hall⟩
      have heq : values = List.replicate values.length bound := List.eq_replicate_iff.mpr ⟨rfl, hall⟩
      rw [heq, List.sum_replicate, List.length_replicate, nsmul_eq_mul]

/-- An average of two. -/
theorem half_sum_eq_iff {a b : ℚ} (ha : a ≤ bound) (hb : b ≤ bound) :
    (a + b) / 2 = bound ↔ a = bound ∧ b = bound := by
  constructor
  · intro h
    have hsum : a + b = bound * 2 := by rw [← h]; ring
    exact ⟨by linarith, by linarith⟩
  · rintro ⟨rfl, rfl⟩
    ring

end ResearchWorkbench
