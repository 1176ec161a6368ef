import Mathlib.Data.List.Chain
import Mathlib.Data.List.DropRight
import Mathlib.Data.List.Infix

namespace ResearchWorkbench

/-!
# Runs in texts

Rewrites of a text that look for runs of units of a class `p`.

* `collapseRuns p d` — every run becomes one `d`; `Single p d` is what is left, and what is left
  alone (`single_collapseRuns`, `Single.collapseRuns_eq`);
* `stripEnds p` — runs at the ends are dropped;
* `Rewrite p d f` — `f` puts `d` for runs or for units, and leaves the rest alone: what holds of
  parts of the text and of `d` before such parts holds of the result (`Rewrite.invariant`).
-/

variable {α : Type*} {p q : α → Bool} {d : α} {t : List α}

/-! ### Collapsing -/

/-- The loop of a replacement of runs; `inRun` is set after a unit of a run. -/
def collapseFrom (p : α → Bool) (d : α) : Bool → List α → List α
  | _, [] => []
  | inRun, c :: t =>
    if p c then
      if inRun then collapseFrom p d true t else d :: collapseFrom p d true t
    else c :: collapseFrom p d false t

theorem collapseFrom_nil (inRun : Bool) : collapseFrom p d inRun [] = [] := rfl

theorem collapseFrom_cons (inRun : Bool) (c : α) (t : List α) :
    collapseFrom p d inRun (c :: t) =
      if p c then if inRun then collapseFrom p d true t else d :: collapseFrom p d true t
      else c :: collapseFrom p d false t := rfl

/-- Every run of units of the class `p` becomes one `d`. -/
def collapseRuns (p : α → Bool) (d : α) (t : List α) : List α := collapseFrom p d false t

theorem collapseRuns_cons_of_not {c : α} (h : p c = false) :
    collapseRuns p d (c :: t) = c :: collapseRuns p d t := by
  rw [collapseRuns, collapseFrom_cons, h]
  rfl

theorem collapseFrom_true : collapseFrom p d true t = collapseRuns p d (t.dropWhile p) := by
  induction t with
  | nil => rfl
  | cons c t ih =>
    cases hc : p c with
    | true => rw [collapseFrom_cons, if_pos hc, if_pos rfl, ih, List.dropWhile_cons_of_pos hc]
    | false =>
      rw [List.dropWhile_cons_of_neg (by rw [hc]; decide), collapseRuns_cons_of_not hc,
        collapseFrom_cons, hc]
      rfl

theorem collapseRuns_cons_of {c : α} (h : p c = true) :
    collapseRuns p d (c :: t) = d :: collapseRuns p d (t.dropWhile p) := by
  rw [collapseRuns, collapseFrom_cons, if_pos h, ← collapseFrom_true]
  rfl

theorem mem_collapseFrom {c : α} {inRun : Bool} (h : c ∈ collapseFrom p d inRun t) :
    c = d ∨ c ∈ t ∧ p c = false := by
  induction t generalizing inRun with
  | nil => exact absurd h List.not_mem_nil
  | cons e t ih =>
    have htail : ∀ b, c ∈ collapseFrom p d b t → c = d ∨ c ∈ e :: t ∧ p c = false :=
      fun b hb => (ih hb).imp_right fun h => ⟨List.mem_cons_of_mem _ h.1, h.2⟩
    rw [collapseFrom_cons] at h
    split at h
    · split at h
      · exact htail _ h
      · rcases List.mem_cons.mp h with heq | h
        · exact .inl heq
        · exact htail _ h
    · next hc =>
      rcases List.mem_cons.mp h with rfl | h
      · exact .inr ⟨List.mem_cons_self, by simpa using hc⟩
      · exact htail _ h

theorem mem_collapseRuns {c : α} (h : c ∈ collapseRuns p d t) : c = d ∨ c ∈ t ∧ p c = false :=
  mem_collapseFrom h

/-- No two units of the class stand side by side. -/
def NoTwo (p : α → Bool) (t : List α) : Prop := t.IsChain fun a b => ¬ (p a = true ∧ p b = true)

theorem NoTwo.infix {u : List α} (h : NoTwo p t) (hu : u <:+: t) : NoTwo p u :=
  List.IsChain.infix h hu

theorem noTwo_append {u : List α} (ht : NoTwo p t) (hu : NoTwo p u)
    (hjoin : ∀ a ∈ t.getLast?, ∀ b ∈ u.head?, ¬ (p a = true ∧ p b = true)) : NoTwo p (t ++ u) :=
  List.isChain_append.mpr ⟨ht, hu, hjoin⟩

theorem noTwo_collapseRuns : NoTwo p (collapseRuns p d t) := by
  have h : NoTwo p (collapseFrom p d true t) ∧
      (∀ y ∈ (collapseFrom p d true t).head?, p y = false) ∧ NoTwo p (collapseFrom p d false t) := by
    induction t with
    | nil => exact ⟨.nil, fun _ hy => absurd hy (by simp [collapseFrom_nil]), .nil⟩
    | cons c t ih =>
      obtain ⟨hrun, hhead, hfree⟩ := ih
      simp only [collapseFrom_cons]
      cases hc : p c with
      | true =>
        refine ⟨hrun, hhead, List.isChain_cons.mpr ⟨fun y hy hboth => ?_, hrun⟩⟩
        rw [hhead y hy] at hboth
        exact absurd hboth.2 (by decide)
      | false =>
        have hcons : NoTwo p (c :: collapseFrom p d false t) := by
          refine List.isChain_cons.mpr ⟨fun y _ hboth => ?_, hfree⟩
          rw [hc] at hboth
          exact absurd hboth.1 (by decide)
        refine ⟨hcons, fun y hy => ?_, hcons⟩
        obtain rfl : c = y := Option.some.inj hy
        exact hc
  exact h.2.2

theorem head?_collapseRuns {y : α} (h : y ∈ (collapseRuns p d t).head?) : y = d ∨ y ∈ t.head? := by
  cases t with
  | nil => exact absurd h (by simp [collapseRuns, collapseFrom_nil])
  | cons c t =>
    cases hc : p c with
    | true =>
      rw [collapseRuns_cons_of hc] at h
      exact .inl (Option.some.inj h).symm
    | false =>
      rw [collapseRuns_cons_of_not hc] at h
      exact .inr h

/-- Collapsing the runs of one class brings no units of another one side by side. -/
theorem NoTwo.collapseRuns (hd : q d = false) (h : NoTwo q t) : NoTwo q (collapseRuns p d t) := by
  have hboth : ∀ inRun, NoTwo q (collapseFrom p d inRun t) := by
    induction t with
    | nil => exact fun _ => .nil
    | cons c t ih =>
      obtain ⟨hhead, htail⟩ := List.isChain_cons.mp h
      intro inRun
      rw [collapseFrom_cons]
      split
      · split
        · exact ih htail true
        · refine List.isChain_cons.mpr ⟨fun y _ hy => ?_, ih htail true⟩
          rw [hd] at hy
          exact absurd hy.1 (by decide)
      · refine List.isChain_cons.mpr ⟨fun y hy hboth => ?_, ih htail false⟩
        rcases head?_collapseRuns hy with rfl | hy
        · rw [hd] at hboth
          exact absurd hboth.2 (by decide)
        · exact hhead y hy hboth
  exact hboth false

/-- The only unit of the class is `d`, and it never stands twice. -/
structure Single (p : α → Bool) (d : α) (t : List α) : Prop where
  only : ∀ c ∈ t, p c = true → c = d
  noTwo : NoTwo p t

theorem single_collapseRuns : Single p d (collapseRuns p d t) := by
  refine ⟨fun c hmem hc => ?_, noTwo_collapseRuns⟩
  rcases mem_collapseRuns hmem with heq | ⟨-, hnot⟩
  · exact heq
  · rw [hc] at hnot
    exact absurd hnot (by decide)

theorem Single.infix {u : List α} (h : Single p d t) (hu : u <:+: t) : Single p d u :=
  ⟨fun c hmem => h.only c (hu.subset hmem), h.noTwo.infix hu⟩

theorem Single.collapseRuns_eq (h : Single p d t) : collapseRuns p d t = t := by
  obtain ⟨honly, hchain⟩ := h
  induction t with
  | nil => rfl
  | cons c t ih =>
    obtain ⟨hhead, htail⟩ := List.isChain_cons.mp hchain
    rw [List.forall_mem_cons] at honly
    have hrest := ih honly.2 htail
    cases hc : p c with
    | false => rw [collapseRuns_cons_of_not hc, hrest]
    | true =>
      have hdrop : t.dropWhile p = t := by
        cases t with
        | nil => rfl
        | cons e t =>
          exact List.dropWhile_cons_of_neg fun he => hhead e rfl ⟨hc, he⟩
      rw [collapseRuns_cons_of hc, hdrop, hrest, honly.1 hc]

/-! ### Stripping -/

/-- The runs at both ends are dropped. -/
def stripEnds (p : α → Bool) (t : List α) : List α := (t.dropWhile p).rdropWhile p

theorem stripEnds_infix : stripEnds p t <:+: t :=
  (List.rdropWhile_prefix p (List.dropWhile p t)).isInfix.trans (List.dropWhile_suffix p).isInfix

theorem getLast?_rdropWhile {c : α} (h : c ∈ (t.rdropWhile p).getLast?) : p c = false := by
  have hne : t.rdropWhile p ≠ [] := by
    intro hnil
    rw [hnil] at h
    exact absurd h (by simp)
  have hlast := List.rdropWhile_last_not p t hne
  rw [List.getLast?_eq_some_getLast hne] at h
  rw [← Option.some.inj h]
  simpa using hlast

theorem head?_dropWhile {c : α} (h : c ∈ (t.dropWhile p).head?) : p c = false := by
  have hc := List.head?_dropWhile_not p t
  rw [h] at hc
  simpa using hc

theorem head?_stripEnds {c : α} (h : c ∈ (stripEnds p t).head?) : p c = false := by
  obtain ⟨rest, hrest⟩ := List.rdropWhile_prefix p (t.dropWhile p)
  refine head?_dropWhile (t := t) ?_
  rw [← hrest, List.head?_append]
  rw [stripEnds] at h
  rw [h]
  rfl

theorem getLast?_stripEnds {c : α} (h : c ∈ (stripEnds p t).getLast?) : p c = false :=
  getLast?_rdropWhile h

theorem stripEnds_eq (hhead : ∀ c ∈ t.head?, p c = false) (hlast : ∀ c ∈ t.getLast?, p c = false) :
    stripEnds p t = t := by
  have hdrop : t.dropWhile p = t := by
    cases t with
    | nil => rfl
    | cons c t => exact List.dropWhile_cons_of_neg (by rw [hhead c rfl]; decide)
  rw [stripEnds, hdrop, List.rdropWhile_eq_self_iff]
  intro hne
  rw [hlast _ (List.getLast?_eq_some_getLast hne)]
  decide

/-! ### Rewrites -/

/-- `f` leaves units outside of the class alone, and goes on after a `d` that it puts for the first
    unit of the class, from some later point of the text. -/
structure Rewrite (p : α → Bool) (d : α) (f : List α → List α) : Prop where
  free : ∀ t, (∀ c ∈ t, p c = false) → f t = t
  first : ∀ t c rest, (∀ e ∈ t, p e = false) → p c = true →
    ∃ rest', rest' <:+ rest ∧ f (t ++ c :: rest) = t ++ d :: f rest'

theorem rewrite_collapseRuns (p : α → Bool) (d : α) : Rewrite p d (collapseRuns p d) where
  free := fun t h => (⟨fun c hmem hc => absurd (h c hmem) (by rw [hc]; decide), by
    induction t with
    | nil => exact .nil
    | cons c t ih =>
      rw [List.forall_mem_cons] at h
      exact List.isChain_cons.mpr ⟨fun _ _ hboth => absurd hboth.1 (by rw [h.1]; decide), ih h.2⟩⟩ :
      Single p d t).collapseRuns_eq
  first := by
    intro t c rest ht hc
    refine ⟨rest.dropWhile p, List.dropWhile_suffix p, ?_⟩
    induction t with
    | nil => exact collapseRuns_cons_of hc
    | cons e t ih =>
      rw [List.forall_mem_cons] at ht
      rw [List.cons_append, collapseRuns_cons_of_not ht.1, ih ht.2, List.cons_append]

theorem rewrite_map (p : α → Bool) (d : α) : Rewrite p d (List.map fun c => if p c then d else c) where
  free := fun t h => (List.map_congr_left fun c hmem => by
    rw [h c hmem]
    rfl).trans (List.map_id' t)
  first := by
    intro t c rest ht hc
    refine ⟨rest, List.suffix_refl _, ?_⟩
    have hfree : t.map (fun c => if p c then d else c) = t :=
      (List.map_congr_left fun e hmem => by rw [ht e hmem]; rfl).trans (List.map_id' t)
    rw [List.map_append, hfree, List.map_cons, hc]
    rfl

/-- What holds of all parts of a text, and of a part before `d` and what holds after it, holds after
    a rewrite. -/
theorem Rewrite.invariant {f : List α → List α} (hf : Rewrite p d f) {P : List α → Prop}
    (hparts : ∀ t u : List α, u <:+: t → P t → P u)
    (hjoin : ∀ t u, P t → P u → P (t ++ d :: u)) : ∀ t, P t → P (f t) := by
  intro t
  induction hn : t.length using Nat.strong_induction_on generalizing t with
  | _ n ih =>
    intro ht
    by_cases hfree : ∀ c ∈ t, p c = false
    · rw [hf.free t hfree]
      exact ht
    · -- the part before the first unit of the class, and the rest
      have hsplit : t = t.takeWhile (fun c => !p c) ++ t.dropWhile (fun c => !p c) :=
        List.takeWhile_append_dropWhile.symm
      have hbefore : ∀ c ∈ t.takeWhile (fun c => !p c), p c = false := fun c hmem => by
        simpa using List.mem_takeWhile_imp hmem
      cases hdrop : t.dropWhile (fun c => !p c) with
      | nil =>
        rw [hdrop, List.append_nil] at hsplit
        exact absurd (hsplit ▸ hbefore) hfree
      | cons c rest =>
        have hc : p c = true := by
          have hhead := @head?_dropWhile _ (fun c => !p c) t c (by rw [hdrop]; rfl)
          simpa using hhead
        rw [hdrop] at hsplit
        obtain ⟨rest', hsuffix, heq⟩ := hf.first _ c rest hbefore hc
        rw [hsplit, heq]
        have hwhole : t.takeWhile (fun c => !p c) ++ c :: rest <:+: t := by rw [← hsplit]
        refine hjoin _ _ (hparts t _ ⟨[], c :: rest, by rw [List.nil_append, ← hsplit]⟩ ht) ?_
        have hrest : rest' <:+: t :=
          (hsuffix.isInfix.trans (List.suffix_cons c rest).isInfix).trans
            ((List.suffix_append _ _).isInfix.trans hwhole)
        refine ih _ ?_ rest' rfl (hparts t _ hrest ht)
        have hlength := congrArg List.length hsplit
        rw [List.length_append, List.length_cons] at hlength
        have hle := hsuffix.length_le
        omega

end ResearchWorkbench
