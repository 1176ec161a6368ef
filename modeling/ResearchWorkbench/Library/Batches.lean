import Mathlib.Data.Finset.Sort

namespace ResearchWorkbench

/-!
# Batches of an ordered queue

A queue is served in batches of its first elements.  An element that fails stays in the queue, and
may end the batch; those that are not served wait for the next one.

* `batch` — the first elements;
* `Service`, `Service.served` — the elements that fail, those that end the batch, and what a batch
  serves;
* `Service.Advances`, `Service.Keeps` — the queue before and after a batch, up to an element;
* `Service.Unblocked` — what stands before an element leaves it a place in a batch;
* `Service.Unblocked.eventually_leaves`, `Service.never_served` — an element that does not fail is
  served in the end exactly if it is unblocked;
* `mem_take_iff_mem_batch`, `mem_takeWhile_iff` — the same for sorted lists.
-/

variable {α : Type} [LinearOrder α]

/-- The first `n` elements. -/
def batch (n : ℕ) (s : Finset α) : Finset α := s.filter fun a => (s.filter (· < a)).card < n

theorem mem_batch {n : ℕ} {s : Finset α} {a : α} :
    a ∈ batch n s ↔ a ∈ s ∧ (s.filter (· < a)).card < n := Finset.mem_filter

/-- The elements that fail, and those of them that end their batch. -/
structure Service (α : Type) where
  Fails : α → Prop
  Ends : α → Prop
  fails_of_ends : ∀ {a}, Ends a → Fails a

namespace Service

open Classical

variable (v : Service α) {n : ℕ} {s s' : Finset α} {a b : α}

/-- What a batch serves: what does not fail, up to an element that ends the batch. -/
noncomputable def served (n : ℕ) (s : Finset α) : Finset α :=
  (batch n s).filter fun a => ¬ v.Fails a ∧ ∀ b ∈ batch n s, b < a → ¬ v.Ends b

/-- The queue before and after a batch, up to `a`: what was served has left, and nothing came. -/
structure Advances (n : ℕ) (a : α) (s s' : Finset α) : Prop where
  left : ∀ b ∈ v.served n s, b ≤ a → b ∉ s'
  old : ∀ b ∈ s', b ≤ a → b ∈ s

/-- What was not served, up to `a`, is still in the queue. -/
def Keeps (n : ℕ) (a : α) (s s' : Finset α) : Prop :=
  ∀ b ∈ s, b ≤ a → b ∉ v.served n s → b ∈ s'

/-- No element before `a` ends a batch, and fewer than a batch fail. -/
def Unblocked (n : ℕ) (s : Finset α) (a : α) : Prop :=
  (∀ b ∈ s, b < a → ¬ v.Ends b) ∧ (s.filter fun b => b < a ∧ v.Fails b).card < n

variable {v}

theorem mem_served : a ∈ v.served n s ↔
    a ∈ batch n s ∧ ¬ v.Fails a ∧ ∀ b ∈ batch n s, b < a → ¬ v.Ends b := Finset.mem_filter

/-- Up to `a` it is only the elements up to `a` that matter. -/
theorem served_congr {w : Service α} (h : ∀ b ∈ s, b ≤ a → (v.Fails b ↔ w.Fails b))
    (h' : ∀ b ∈ s, b ≤ a → (v.Ends b ↔ w.Ends b)) (hb : b ≤ a) :
    b ∈ v.served n s ↔ b ∈ w.served n s := by
  rw [mem_served, mem_served]
  refine and_congr_right fun hmem => ?_
  rw [h b (mem_batch.mp hmem).1 hb]
  refine and_congr_right fun _ => forall₂_congr fun c hc => ?_
  refine forall_congr' fun hlt => ?_
  rw [h' c (mem_batch.mp hc).1 (hlt.le.trans hb)]

/-- An unblocked element is served, or one before it is. -/
theorem Unblocked.served_or (h : v.Unblocked n s a) (ha : a ∈ s) (hfails : ¬ v.Fails a) :
    a ∈ v.served n s ∨ ∃ b ∈ v.served n s, b < a := by
  by_cases hplace : (s.filter (· < a)).card < n
  · exact .inl (mem_served.mpr ⟨mem_batch.mpr ⟨ha, hplace⟩, hfails,
      fun b hb => h.1 b (mem_batch.mp hb).1⟩)
  · -- the first element that does not fail has only failing ones before it
    have hsome : (s.filter fun b => b < a ∧ ¬ v.Fails b).Nonempty := by
      by_contra hnone
      rw [Finset.not_nonempty_iff_eq_empty, Finset.filter_eq_empty_iff] at hnone
      refine hplace (lt_of_le_of_lt (Finset.card_le_card ?_) h.2)
      intro b hb
      rw [Finset.mem_filter] at hb ⊢
      refine ⟨hb.1, hb.2, ?_⟩
      by_contra hok
      exact hnone hb.1 ⟨hb.2, hok⟩
    have hmin := Finset.min'_mem _ hsome
    generalize hb : (s.filter fun b => b < a ∧ ¬ v.Fails b).min' hsome = b at hmin
    rw [Finset.mem_filter] at hmin
    refine .inr ⟨b, mem_served.mpr ⟨mem_batch.mpr ⟨hmin.1, ?_⟩, hmin.2.2, ?_⟩, hmin.2.1⟩
    · refine lt_of_le_of_lt (Finset.card_le_card ?_) h.2
      intro c hc
      rw [Finset.mem_filter] at hc ⊢
      refine ⟨hc.1, hc.2.trans hmin.2.1, ?_⟩
      by_contra hok
      have hle := Finset.min'_le _ c
        (Finset.mem_filter.mpr ⟨hc.1, hc.2.trans hmin.2.1, hok⟩ :
          c ∈ s.filter fun b => b < a ∧ ¬ v.Fails b)
      rw [hb] at hle
      exact absurd hc.2 (not_lt.mpr hle)
    · intro c hc hlt
      exact h.1 c (mem_batch.mp hc).1 (hlt.trans hmin.2.1)

/-- Where nothing fails, nothing is blocked. -/
theorem unblocked_of_no_failure (hn : 0 < n) (h : ∀ b ∈ s, ¬ v.Fails b) : v.Unblocked n s a := by
  refine ⟨fun b hb _ hends => h b hb (v.fails_of_ends hends), ?_⟩
  rw [Finset.filter_false_of_mem fun b hb hfails => h b hb hfails.2]
  exact hn

theorem Unblocked.advances (h : v.Unblocked n s a) (hs : v.Advances n a s s') :
    v.Unblocked n s' a := by
  refine ⟨fun b hb hlt => h.1 b (hs.old b hb hlt.le) hlt, ?_⟩
  refine lt_of_le_of_lt (Finset.card_le_card ?_) h.2
  intro b hb
  rw [Finset.mem_filter] at hb ⊢
  exact ⟨hs.old b hb.1 hb.2.1.le, hb.2⟩

/-- **Progress.**  An unblocked element is in the queue until it leaves with one of the batches to
    come. -/
theorem Unblocked.eventually_leaves {q : ℕ → Finset α}
    (hq : ∀ k, v.Advances n a (q k) (q (k + 1))) {k : ℕ} (h : v.Unblocked n (q k) a)
    (ha : a ∈ q k) (hfails : ¬ v.Fails a) :
    ∃ m, k ≤ m ∧ (∀ j, k ≤ j → j ≤ m → a ∈ q j) ∧ a ∉ q (m + 1) := by
  -- the elements before `a` that do not fail grow fewer
  induction hc : ((q k).filter fun b => b < a ∧ ¬ v.Fails b).card using Nat.strong_induction_on
    generalizing k with
  | _ c ih =>
    by_cases hleft : a ∈ q (k + 1)
    · rcases h.served_or ha hfails with hserved | ⟨b, hb, hlt⟩
      · exact absurd hleft ((hq k).left a hserved le_rfl)
      · have hfewer : ((q (k + 1)).filter fun b => b < a ∧ ¬ v.Fails b).card < c := by
          rw [← hc]
          refine Finset.card_lt_card ((Finset.ssubset_iff_of_subset ?_).mpr ⟨b, ?_, ?_⟩)
          · intro d hd
            rw [Finset.mem_filter] at hd ⊢
            exact ⟨(hq k).old d hd.1 hd.2.1.le, hd.2⟩
          · exact Finset.mem_filter.mpr
              ⟨(mem_batch.mp (mem_served.mp hb).1).1, hlt, (mem_served.mp hb).2.1⟩
          · intro hmem
            exact (hq k).left b hb hlt.le (Finset.mem_filter.mp hmem).1
        rcases ih _ hfewer (h.advances (hq k)) hleft rfl with ⟨m, hm, hin, hout⟩
        refine ⟨m, by omega, ?_, hout⟩
        intro j hj hjm
        rcases Nat.eq_or_lt_of_le hj with rfl | hlater
        · exact ha
        · exact hin j hlater hjm
    · refine ⟨k, le_rfl, ?_, hleft⟩
      intro j hj hjm
      rwa [Nat.le_antisymm hjm hj]

/-- A blocked element is not served, and stays blocked. -/
theorem not_served_of_blocked (h : ¬ v.Unblocked n s a) : a ∉ v.served n s := by
  intro hserved
  rcases mem_served.mp hserved with ⟨hbatch, _, hends⟩
  rcases mem_batch.mp hbatch with ⟨ha, hplace⟩
  refine h ⟨?_, ?_⟩
  · intro b hb hlt
    refine hends b (mem_batch.mpr ⟨hb, lt_of_le_of_lt (Finset.card_le_card ?_) hplace⟩) hlt
    intro c hc
    rw [Finset.mem_filter] at hc ⊢
    exact ⟨hc.1, hc.2.trans hlt⟩
  · refine lt_of_le_of_lt (Finset.card_le_card ?_) hplace
    intro b hb
    rw [Finset.mem_filter] at hb ⊢
    exact ⟨hb.1, hb.2.1⟩

theorem blocked_keeps (h : ¬ v.Unblocked n s a) (hs : v.Keeps n a s s') :
    ¬ v.Unblocked n s' a := by
  intro h'
  refine h ⟨?_, ?_⟩
  · intro b hb hlt hends
    refine h'.1 b (hs b hb hlt.le ?_) hlt hends
    intro hserved
    exact (mem_served.mp hserved).2.1 (v.fails_of_ends hends)
  · refine lt_of_le_of_lt (Finset.card_le_card ?_) h'.2
    intro b hb
    rw [Finset.mem_filter] at hb ⊢
    refine ⟨hs b hb.1 hb.2.1.le ?_, hb.2⟩
    intro hserved
    exact (mem_served.mp hserved).2.1 hb.2.2

/-- **Starvation.**  A blocked element is in the queue for ever. -/
theorem never_served {q : ℕ → Finset α} (hq : ∀ k, v.Keeps n a (q k) (q (k + 1)))
    (h : ¬ v.Unblocked n (q 0) a) (ha : a ∈ q 0) (k : ℕ) : a ∈ q k ∧ ¬ v.Unblocked n (q k) a := by
  induction k with
  | zero => exact ⟨ha, h⟩
  | succ k ih =>
    exact ⟨hq k a ih.1 le_rfl (not_served_of_blocked ih.2), blocked_keeps ih.2 (hq k)⟩

end Service

/-! ### Sorted lists -/

/-- The first elements of a sorted list are the batch of its elements. -/
theorem mem_take_iff_mem_batch {l : List α} (h : l.Pairwise (· < ·)) {n : ℕ} {a : α} :
    a ∈ l.take n ↔ a ∈ batch n l.toFinset := by
  induction l generalizing n with
  | nil => simp [batch]
  | cons x l ih =>
    rw [List.pairwise_cons] at h
    rw [mem_batch, List.toFinset_cons]
    cases n with
    | zero => simp
    | succ n =>
      rw [List.take_succ_cons, List.mem_cons, Finset.mem_insert]
      by_cases hx : a = x
      · -- nothing comes before the first element
        have hnone : (insert x l.toFinset).filter (· < a) = ∅ := by
          rw [Finset.filter_eq_empty_iff]
          intro b hb
          rw [Finset.mem_insert, List.mem_toFinset] at hb
          rcases hb with rfl | hb
          · rw [hx]
            exact lt_irrefl _
          · rw [hx]
            exact lt_asymm (h.1 b hb)
        simp only [hx, true_or, true_and, true_iff]
        rw [hx] at hnone
        rw [hnone, Finset.card_empty]
        exact Nat.succ_pos n
      · have hmem := ih h.2 (n := n)
        rw [mem_batch] at hmem
        have hnot : x ∉ l.toFinset.filter (· < a) := by
          intro hmem
          rw [Finset.mem_filter, List.mem_toFinset] at hmem
          exact lt_irrefl x (h.1 x hmem.1)
        rw [or_iff_right hx, hmem, or_iff_right hx]
        refine and_congr_right fun ha => ?_
        have hlt : x < a := h.1 a (List.mem_toFinset.mp ha)
        rw [Finset.filter_insert, if_pos hlt, Finset.card_insert_of_notMem hnot]
        omega

/-- What a sorted list has before the first element without a property. -/
theorem mem_takeWhile_iff {β : Type} {r : β → β → Prop} (hr : ∀ x y, r x y → ¬ r y x)
    {p : β → Bool} {l : List β} (h : l.Pairwise r) {a : β} :
    a ∈ l.takeWhile p ↔ a ∈ l ∧ p a ∧ ∀ b ∈ l, r b a → p b := by
  induction l with
  | nil => simp
  | cons x l ih =>
    rw [List.pairwise_cons] at h
    rw [List.takeWhile_cons]
    split
    · rename_i hx
      rw [List.mem_cons, List.mem_cons, ih h.2]
      constructor
      · rintro (rfl | ⟨ha, hpa, hbefore⟩)
        · refine ⟨.inl rfl, hx, ?_⟩
          intro b hb hlt
          rcases List.mem_cons.mp hb with rfl | hb
          · exact hx
          · exact absurd hlt (hr _ _ (h.1 b hb))
        · refine ⟨.inr ha, hpa, ?_⟩
          intro b hb hlt
          rcases List.mem_cons.mp hb with rfl | hb
          · exact hx
          · exact hbefore b hb hlt
      · rintro ⟨ha | ha, hpa, hbefore⟩
        · exact .inl ha
        · exact .inr ⟨ha, hpa, fun b hb hlt => hbefore b (List.mem_cons_of_mem _ hb) hlt⟩
    · rename_i hx
      constructor
      · intro ha
        cases ha
      · rintro ⟨ha, hpa, hbefore⟩
        rcases List.mem_cons.mp ha with rfl | ha
        · exact absurd hpa hx
        · exact absurd (hbefore x List.mem_cons_self (h.1 a ha)) hx

end ResearchWorkbench
