import ResearchWorkbench.Documents.FileNames
import ResearchWorkbench.Documents.SurrogatePairs

namespace ResearchWorkbench.FileNames

/-!
# Safe file names

* `IsNfkc`, `nfkc_rewrite` — what Unicode promises of the normalization, and that the replacements
  keep a normalized text without bidirectional controls normalized;
* `Paired`, `isWellFormed_rewrite` — the replacements split no pair of surrogates;
  `isWellFormed_boundedName_iff` says when the cut does;
* `safeFilename_eq_self`, `nfkc_safeFilename` — the names that a second application leaves alone;
* `IsSafeName`, `NamedSafely`, `safe_filenames_iff` — the name is safe exactly if what is kept of it
  is normalized and has no C1 control, and the cut spares the extension and pairs and leaves no
  device name.
-/

open Chunking

variable {t u s : Text}

/-! ### Normalization -/

/-- What Unicode promises of `normalize("NFKC")`. -/
structure IsNfkc (nfkc : Text → Text) : Prop where
  idempotent : ∀ t, nfkc (nfkc t) = nfkc t
  ascii : ∀ t : Text, (∀ c ∈ t, c < 128) → nfkc t = t
  /-- The parts of a normalized text are normalized. -/
  parts : ∀ t u, u <:+: t → nfkc t = t → nfkc u = u
  /-- An ASCII unit does not compose with what is before it. -/
  join : ∀ t c u, c < 128 → nfkc t = t → nfkc (c :: u) = c :: u → nfkc (t ++ c :: u) = t ++ c :: u
  /-- A dash or a space does not compose with what is after it. -/
  mark : ∀ c t, c = 45 ∨ c = 32 → nfkc t = t → nfkc (c :: t) = c :: t
  controls : ∀ t, (∀ c ∈ t, isBidiUnit c = false) → ∀ c ∈ nfkc t, isBidiUnit c = false
  wellFormed : ∀ t, IsWellFormed t → IsWellFormed (nfkc t)

variable {nfkc : Text → Text}

/-- A rewrite that puts dashes or spaces keeps a text normalized. -/
theorem IsNfkc.rewrite_eq (h : IsNfkc nfkc) {p : ℕ → Bool} {d : ℕ} {f : Text → Text}
    (hf : Rewrite p d f) (hd : d = 45 ∨ d = 32) (ht : nfkc t = t) : nfkc (f t) = f t := by
  refine hf.invariant (P := fun t => nfkc t = t) (fun t u hu => h.parts t u hu) ?_ t ht
  intro t u ht hu
  exact h.join t d u (by omega) ht (h.mark d u hd hu)

/-- **The replacements keep a text normalized** if it has no bidirectional control. -/
theorem nfkc_rewrite (h : IsNfkc nfkc) (ht : nfkc t = t) (hbidi : ∀ c ∈ t, isBidiUnit c = false) :
    nfkc (rewrite t) = rewrite t := by
  have hfilter : ((t.map fun c => if isForbiddenUnit c then 45 else c).filter fun c =>
      !isBidiUnit c) = t.map fun c => if isForbiddenUnit c then 45 else c := by
    refine List.filter_eq_self.mpr fun c hmem => ?_
    obtain ⟨e, he, rfl⟩ := List.mem_map.mp hmem
    split
    · decide
    · rw [hbidi e he]
      rfl
  have hmap : nfkc (t.map fun c => if isForbiddenUnit c then 45 else c) = _ :=
    h.rewrite_eq (rewrite_map isForbiddenUnit 45) (.inl rfl) ht
  have hspaces := h.rewrite_eq (rewrite_collapseRuns isSpaceUnit 32) (.inr rfl) hmap
  have hdashes := h.rewrite_eq (rewrite_collapseRuns isDash 45) (.inl rfl) hspaces
  rw [rewrite, hfilter]
  exact h.parts _ _ stripEnds_infix (h.parts _ _ stripEnds_infix hdashes)

theorem nfkc_upload (h : IsNfkc nfkc) : nfkc (asciiText "upload") = asciiText "upload" :=
  h.ascii _ (by decide)

variable {platform : TextPlatform} {value name : Text}

/-- The name before the cut is normalized if the normalized leaf has no bidirectional control. -/
theorem nfkc_unboundedName (h : IsNfkc platform.nfkc)
    (hbidi : ∀ c ∈ platform.nfkc (leafOf value), isBidiUnit c = false) :
    platform.nfkc (unboundedName platform value) = unboundedName platform value := by
  have hleaf : platform.nfkc (rewrittenLeaf platform value) = rewrittenLeaf platform value :=
    nfkc_rewrite h (h.idempotent _) hbidi
  have hif : ∀ (p : Prop) [Decidable p] (a b : Text), platform.nfkc a = a → platform.nfkc b = b →
      platform.nfkc (if p then a else b) = if p then a else b := by
    intro p _ a b ha hb
    split
    · exact ha
    · exact hb
  have hupload : asciiText "upload-" = asciiText "upload" ++ [45] := by simp [asciiText]
  simp only [unboundedName]
  refine hif _ _ _ ?_ (hif _ _ _ (nfkc_upload h) hleaf)
  rw [hupload, List.append_assoc, List.singleton_append]
  exact h.join _ 45 _ (by decide) (nfkc_upload h)
    (h.mark 45 _ (.inl rfl) (hif _ _ _ (nfkc_upload h) hleaf))

/-- What is kept of a name is normalized exactly if its stem and its extension are. -/
theorem nfkc_boundedName_iff (h : IsNfkc nfkc) (hs : Clean s) :
    nfkc (boundedName s) = boundedName s ↔
      nfkc (keptStem s) = keptStem s ∧ nfkc (keptExtension s) = keptExtension s := by
  rw [boundedName_eq]
  constructor
  · intro hname
    exact ⟨h.parts _ _ (List.prefix_append _ _).isInfix hname,
      h.parts _ _ (List.suffix_append _ _).isInfix hname⟩
  · rintro ⟨hstem, hext⟩
    have hdot : keptExtension s = [] ∨ ∃ suffix, keptExtension s = 46 :: suffix := by
      unfold keptExtension
      split
      · rcases boundedExtension_cases hs with ⟨hnil, -⟩ | ⟨suffix, hsuffix, -⟩
        · exact .inl hnil
        · exact .inr ⟨suffix, hsuffix⟩
      · exact .inl rfl
    rcases hdot with hnil | ⟨suffix, hsuffix⟩
    · rw [hnil, List.append_nil]
      exact hstem
    · rw [hsuffix] at hext ⊢
      exact h.join _ 46 suffix (by decide) hstem hext

/-- What is kept of a normalized name is normalized. -/
theorem nfkc_boundedName (h : IsNfkc nfkc) (hs : Clean s) (hname : nfkc s = s) :
    nfkc (boundedName s) = boundedName s := by
  rw [nfkc_boundedName_iff h hs]
  refine ⟨h.parts _ _ (prefix_keptStem s).isInfix hname, ?_⟩
  unfold keptExtension
  split
  · exact h.parts _ _ (infix_boundedExtension hs) hname
  · exact h.ascii _ (by simp)

/-! ### Names that stay -/

theorem leafOf_eq_self (h47 : 47 ∉ t) (h92 : 92 ∉ t) : leafOf t = t := by
  have hmap : (t.map fun c => if c = 92 then 47 else c) = t := by
    refine (List.map_congr_left fun c hmem => ?_).trans (List.map_id' t)
    exact if_neg fun heq : c = 92 => h92 (heq ▸ hmem)
  rw [leafOf, hmap, List.splitOn_eq_singleton h47]
  rfl

theorem safeFilename_ok (h : safeFilename platform value = .ok name) :
    isRefused value = false ∧ name = boundedName (unboundedName platform value) := by
  unfold safeFilename at h
  split at h
  · cases h
  · next hrefused =>
    rw [Bool.not_eq_true] at hrefused
    exact ⟨hrefused, (Except.ok.inj h).symm⟩

/-- **A second application** leaves a short and clean name alone that is normalized and no device
    name. -/
theorem safeFilename_eq_self (h : Clean t) (hne : t ≠ []) (hshort : t.length ≤ 120)
    (hfree : isReservedName t = false) (hnfkc : platform.nfkc t = t) :
    safeFilename platform t = .ok t := by
  have hnot : ∀ c, isForbiddenUnit c = true → c ∉ t := by
    intro c hc hmem
    rw [(h.allowed c hmem).1] at hc
    exact absurd hc (by decide)
  have hleaf : rewrittenLeaf platform t = t := by
    rw [rewrittenLeaf, leafOf_eq_self (hnot 47 (by decide)) (hnot 92 (by decide)), hnfkc,
      h.rewrite_eq]
  have hrefused : isRefused t = false := by
    rw [isRefused, Bool.or_eq_false_iff, List.any_eq_false]
    refine ⟨by simpa using hne, fun c hmem hc => ?_⟩
    refine hnot c ?_ hmem
    simp only [Bool.or_eq_true, decide_eq_true_eq] at hc
    rcases hc with (rfl | rfl) | rfl <;> decide
  have hdots : ¬ (t = [] ∨ t = [46] ∨ t = [46, 46]) := by
    rintro (rfl | rfl | rfl)
    · exact hne rfl
    · exact absurd (h.head 46 rfl) (by decide)
    · exact absurd (h.head 46 rfl) (by decide)
  rw [safeFilename, hrefused, if_neg (by decide)]
  simp only [unboundedName, hleaf, if_neg hdots, hfree]
  rw [if_neg (by decide), boundedName, if_neg (by omega)]

/-- The name of a leaf without bidirectional controls is normalized. -/
theorem nfkc_safeFilename (h : IsNfkc platform.nfkc) (hbidi : ∀ c ∈ leafOf value, isBidiUnit c = false)
    (hok : safeFilename platform value = .ok name) : platform.nfkc name = name := by
  rw [(safeFilename_ok hok).2]
  exact nfkc_boundedName h (unboundedName_spec platform value).1
    (nfkc_unboundedName h (h.controls _ hbidi))

/-! ### Pairs of surrogates -/

/-- A text of units outside of pairs and of whole pairs. -/
inductive Paired : Text → Prop
  | nil : Paired []
  | unit {c : ℕ} {t : Text} : isHighSurrogate c = false → isLowSurrogate c = false → Paired t →
      Paired (c :: t)
  | pair {c d : ℕ} {t : Text} : isHighSurrogate c = true → isLowSurrogate d = true → Paired t →
      Paired (c :: d :: t)

theorem Paired.isWellFormed (h : Paired t) : IsWellFormed t := by
  induction h with
  | nil => rfl
  | @unit c t hhigh hlow _ ih =>
    have hpair : ¬PairBetween [c] t := by
      rintro ⟨_, _, ⟨⟩, _, hc, _⟩
      rw [List.getLast_singleton, hhigh] at hc
      exact absurd hc (by decide)
    rw [IsWellFormed, toWellFormed_cons hpair, hhigh, hlow, ih]
    rfl
  | @pair c d t hhigh hlow _ ih =>
    rw [IsWellFormed, toWellFormed, if_pos (by rw [hhigh, hlow]; rfl), ih]

theorem paired_of_isWellFormed (h : IsWellFormed t) : Paired t := by
  induction hn : t.length using Nat.strong_induction_on generalizing t with
  | _ n ih =>
    cases t with
    | nil => exact .nil
    | cons c rest =>
      by_cases hpair : PairBetween [c] rest
      · obtain ⟨_, d, ⟨⟩, hd, hhigh, hlow⟩ := hpair
        obtain ⟨rest, rfl⟩ := List.head?_eq_some_iff.mp hd
        rw [List.getLast_singleton] at hhigh
        refine .pair hhigh hlow (ih rest.length ?_ ?_ rfl)
        · rw [← hn, List.length_cons, List.length_cons]
          omega
        · rw [IsWellFormed, toWellFormed, if_pos (by rw [hhigh, hlow]; rfl)] at h
          exact (List.cons.inj (List.cons.inj h).2).2
      · rw [← List.singleton_append, isWellFormed_append_iff hpair] at h
        have hlow : isLowSurrogate c = false := by
          by_contra hlow
          exact not_isWellFormed_of_low (by simpa using hlow) h.1
        have hhigh : isHighSurrogate c = false := by
          by_contra hhigh
          exact not_isWellFormed_of_high (t := []) (by simpa using hhigh) h.1
        refine .unit hhigh hlow (ih rest.length ?_ h.2 rfl)
        rw [← hn, List.length_cons]
        exact Nat.lt_succ_self _

/-- A unit that is no half of a pair. -/
def isWholeUnit (c : ℕ) : Prop := isHighSurrogate c = false ∧ isLowSurrogate c = false

/-- A text in which units outside of pairs are replaced by others. -/
theorem Paired.map {f : ℕ → ℕ} (h : Paired t) (hf : ∀ c, isWholeUnit c → isWholeUnit (f c))
    (hkeep : ∀ c, ¬ isWholeUnit c → f c = c) : Paired (t.map f) := by
  induction h with
  | nil => exact .nil
  | @unit c _ hhigh hlow _ ih => exact .unit (hf c ⟨hhigh, hlow⟩).1 (hf c ⟨hhigh, hlow⟩).2 ih
  | @pair c d _ hhigh hlow _ ih =>
    have hc : f c = c := hkeep c fun hc => by
      rw [hc.1] at hhigh
      cases hhigh
    have hd : f d = d := hkeep d fun hd => by
      rw [hd.2] at hlow
      cases hlow
    rw [List.map_cons, List.map_cons, hc, hd]
    exact .pair hhigh hlow ih

/-- A text in which units outside of pairs are dropped. -/
theorem Paired.filter {p : ℕ → Bool} (h : Paired t) (hp : ∀ c, p c = false → isWholeUnit c) :
    Paired (t.filter p) := by
  have hkeep : ∀ c, ¬ isWholeUnit c → p c = true := fun c hc => by
    by_contra hnot
    exact hc (hp c (by simpa using hnot))
  induction h with
  | nil => exact .nil
  | @unit c t hhigh hlow _ ih =>
    rw [List.filter_cons]
    split
    · exact .unit hhigh hlow ih
    · exact ih
  | @pair c d t hhigh hlow _ ih =>
    have hc : p c = true := hkeep c fun hc => by
      rw [hc.1] at hhigh
      cases hhigh
    have hd : p d = true := hkeep d fun hd => by
      rw [hd.2] at hlow
      cases hlow
    rw [List.filter_cons_of_pos hc, List.filter_cons_of_pos hd]
    exact .pair hhigh hlow ih

/-- A text in which runs of units outside of pairs become such a unit. -/
theorem Paired.collapseRuns {p : ℕ → Bool} {d : ℕ} (h : Paired t)
    (hp : ∀ c, p c = true → isWholeUnit c) (hd : isWholeUnit d) : Paired (collapseRuns p d t) := by
  have hfree : ∀ c, ¬ isWholeUnit c → ¬ p c = true := fun c hc hpc => hc (hp c hpc)
  have hboth : ∀ inRun, Paired (collapseFrom p d inRun t) := by
    induction h with
    | nil => exact fun _ => .nil
    | @unit c t hhigh hlow _ ih =>
      intro inRun
      rw [collapseFrom]
      split
      · split
        · exact ih true
        · exact .unit hd.1 hd.2 (ih true)
      · exact .unit hhigh hlow (ih false)
    | @pair c e t hhigh hlow _ ih =>
      have hc : ¬ p c = true := hfree c fun hc => by
        rw [hc.1] at hhigh
        cases hhigh
      have he : ¬ p e = true := hfree e fun he => by
        rw [he.2] at hlow
        cases hlow
      intro inRun
      rw [collapseFrom, if_neg hc, collapseFrom, if_neg he]
      exact .pair hhigh hlow (ih false)
  exact hboth false

/-- Units outside of pairs are dropped at the end. -/
theorem isWellFormed_rdropWhile {p : ℕ → Bool} (h : IsWellFormed t)
    (hp : ∀ c, p c = true → isWholeUnit c) : IsWellFormed (t.rdropWhile p) := by
  have hsplit : t.rdropWhile p ++ t.rtakeWhile p = t := List.rdropWhile_append_rtakeWhile
  rw [← hsplit] at h
  refine ((isWellFormed_append_iff ?_).mp h).1
  rintro ⟨_, d, _, hd, _, hlow⟩
  have hpd : p d = true := List.mem_rtakeWhile_imp (List.mem_of_head? hd)
  rw [(hp d hpd).2] at hlow
  exact absurd hlow (by decide)

/-- Units outside of pairs are dropped at both ends. -/
theorem isWellFormed_stripEnds {p : ℕ → Bool} (h : IsWellFormed t)
    (hp : ∀ c, p c = true → isWholeUnit c) : IsWellFormed (stripEnds p t) := by
  refine isWellFormed_rdropWhile ?_ hp
  rw [← List.takeWhile_append_dropWhile (p := p) (l := t)] at h
  refine ((isWellFormed_append_iff ?_).mp h).2
  rintro ⟨c, _, hc, _, hhigh, _⟩
  rw [(hp c (List.mem_takeWhile_imp (List.mem_of_getLast? hc))).1] at hhigh
  exact absurd hhigh (by decide)

theorem isWholeUnit_of_lt {c : ℕ} (h : c < 0xD800) : isWholeUnit c := by
  simp only [isWholeUnit, isHighSurrogate, isLowSurrogate, Bool.and_eq_false_iff,
    decide_eq_false_iff_not]
  omega

/-- **The replacements** split no pair. -/
theorem isWellFormed_rewrite (h : IsWellFormed t) : IsWellFormed (rewrite t) := by
  have hspace : ∀ c, isSpaceUnit c = true → isWholeUnit c := fun c hc => not_surrogate_of_space hc
  have hdash : ∀ c, isDash c = true → isWholeUnit c := fun c hc =>
    isWholeUnit_of_lt (by rw [isDash, decide_eq_true_eq] at hc; omega)
  have hdots : ∀ c, isDotOrSpace c = true → isWholeUnit c := fun c hc =>
    isWholeUnit_of_lt (by
      simp only [isDotOrSpace, Bool.or_eq_true, decide_eq_true_eq] at hc
      omega)
  have hforbidden : ∀ c, isForbiddenUnit c = true → isWholeUnit c := fun c hc =>
    isWholeUnit_of_lt (by
      simp only [isForbiddenUnit, Bool.or_eq_true, decide_eq_true_eq] at hc
      omega)
  have hbidi : ∀ c, (!isBidiUnit c) = false → isWholeUnit c := fun c hc =>
    isWholeUnit_of_lt (by
      simp only [isBidiUnit, Bool.not_eq_false', Bool.or_eq_true, Bool.and_eq_true,
        decide_eq_true_eq] at hc
      omega)
  have hmap := (paired_of_isWellFormed h).map (f := fun c => if isForbiddenUnit c then 45 else c)
    (fun c hc => by
      show isWholeUnit (if isForbiddenUnit c then 45 else c)
      split
      · exact isWholeUnit_of_lt (by decide)
      · exact hc)
    (fun c hc => if_neg fun hforbid => hc (hforbidden c hforbid))
  have hruns := ((hmap.filter hbidi).collapseRuns hspace (isWholeUnit_of_lt (c := 32) (by decide)))
    |>.collapseRuns hdash (isWholeUnit_of_lt (c := 45) (by decide))
  exact isWellFormed_stripEnds (isWellFormed_stripEnds hruns.isWellFormed hdots) hspace

/-- A unit between texts that is no half of a pair. -/
theorem isWellFormed_unit_iff {c : ℕ} (hc : isWholeUnit c) :
    IsWellFormed (t ++ c :: u) ↔ IsWellFormed t ∧ IsWellFormed u := by
  have hleft : ¬PairBetween t (c :: u) := by
    rintro ⟨_, d, _, hd, _, hlow⟩
    rw [← Option.some.inj hd, hc.2] at hlow
    exact absurd hlow (by decide)
  have hright : ¬PairBetween [c] u := by
    rintro ⟨d, _, hd, _, hhigh, _⟩
    rw [List.getLast?_singleton] at hd
    rw [← Option.some.inj hd, hc.1] at hhigh
    exact absurd hhigh (by decide)
  have hself : IsWellFormed [c] := (Paired.unit hc.1 hc.2 .nil).isWellFormed
  rw [isWellFormed_append_iff hleft, ← List.singleton_append, isWellFormed_append_iff hright]
  exact and_congr_right' (and_iff_right hself)

theorem isWellFormed_of_intercalate {ts : List Text} (h : IsWellFormed ([47].intercalate ts)) :
    ∀ t ∈ ts, IsWellFormed t := by
  induction ts with
  | nil => exact fun _ hmem => absurd hmem List.not_mem_nil
  | cons t ts ih =>
    cases ts with
    | nil =>
      rw [List.intercalate_singleton] at h
      exact fun u hmem => List.mem_singleton.mp hmem ▸ h
    | cons u ts =>
      rw [List.intercalate_cons_cons, List.append_assoc, List.singleton_append,
        isWellFormed_unit_iff (isWholeUnit_of_lt (by decide))] at h
      rw [List.forall_mem_cons]
      exact ⟨h.1, ih h.2⟩

/-- The leaf splits no pair. -/
theorem isWellFormed_leafOf (h : IsWellFormed value) : IsWellFormed (leafOf value) := by
  have hmap : IsWellFormed (value.map fun c => if c = 92 then 47 else c) := by
    refine ((paired_of_isWellFormed h).map (fun c hc => ?_) (fun c hc => ?_)).isWellFormed
    · split
      · exact isWholeUnit_of_lt (by decide)
      · exact hc
    · refine if_neg fun heq : c = 92 => hc ?_
      exact isWholeUnit_of_lt (by omega)
  have hjoin : [47].intercalate ((value.map fun c => if c = 92 then 47 else c).splitOn 47) =
      value.map fun c => if c = 92 then 47 else c := List.intercalate_splitOn 47
  rw [← hjoin] at hmap
  have hpieces := isWellFormed_of_intercalate hmap
  have hlast := List.getLast?_eq_some_getLast (List.splitOn_ne_nil 47
    (value.map fun c => if c = 92 then 47 else c))
  rw [leafOf, hlast]
  exact hpieces _ (List.getLast_mem _)

/-- The name before the cut splits no pair. -/
theorem isWellFormed_unboundedName (h : IsNfkc platform.nfkc) (hwf : IsWellFormed value) :
    IsWellFormed (unboundedName platform value) := by
  have hleaf : IsWellFormed (rewrittenLeaf platform value) :=
    isWellFormed_rewrite (h.wellFormed _ (isWellFormed_leafOf hwf))
  have hupload : IsWellFormed (asciiText "upload") := by decide +kernel
  have hif : ∀ (p : Prop) [Decidable p] (a b : Text), IsWellFormed a → IsWellFormed b →
      IsWellFormed (if p then a else b) := by
    intro p _ a b ha hb
    split
    · exact ha
    · exact hb
  have hdash : asciiText "upload-" = asciiText "upload" ++ [45] := by simp [asciiText]
  simp only [unboundedName]
  refine hif _ _ _ ?_ (hif _ _ _ hupload hleaf)
  rw [hdash, List.append_assoc, List.singleton_append,
    isWellFormed_unit_iff (isWholeUnit_of_lt (by decide))]
  exact ⟨hupload, hif _ _ _ hupload hleaf⟩

/-- **The cut splits a pair** exactly if one is where the stem ends. -/
theorem isWellFormed_cut_iff (hs : Clean s) (hwf : IsWellFormed s)
    (hext : (extname s).length ≤ 16) :
    IsWellFormed (boundedStem s ++ boundedExtension s) ↔ ¬SplitsPair s (stemLength s) := by
  have hkept : boundedExtension s = extname s := List.take_of_length_le hext
  have hjoin : IsWellFormed (boundedStem s ++ boundedExtension s) ↔ IsWellFormed (boundedStem s) := by
    have hdot : isWholeUnit 46 := isWholeUnit_of_lt (by decide)
    rw [hkept]
    rcases exists_extname (head_ne_dot hs) with ⟨-, hnil⟩ | ⟨stem, suffix, hsplit, -, -, -, hsuffix⟩
    · rw [hnil, List.append_nil]
    · rw [hsplit, isWellFormed_unit_iff hdot] at hwf
      rw [hsuffix, isWellFormed_unit_iff hdot]
      exact and_iff_left hwf.2
  rw [hjoin]
  constructor
  · rintro hstem ⟨c, d, hc, hd, hhigh, hlow⟩
    -- the first half is no dot or space, so that it stays
    have hnot : isDotOrSpace c = false := by
      simp only [isHighSurrogate, Bool.and_eq_true, decide_eq_true_eq] at hhigh
      simp only [isDotOrSpace, Bool.or_eq_false_iff, decide_eq_false_iff_not]
      omega
    obtain ⟨front, hfront⟩ := List.getLast?_eq_some_iff.mp hc
    have hstay : boundedStem s = front ++ [c] := by
      rw [boundedStem, hfront, List.rdropWhile_concat_neg _ _ _ (by rw [hnot]; decide)]
    rw [hstay] at hstem
    exact not_isWellFormed_of_high hhigh hstem
  · intro hsplit
    rw [← List.take_append_drop (stemLength s) s, isWellFormed_append_iff hsplit] at hwf
    refine isWellFormed_rdropWhile hwf.1 fun c hc => isWholeUnit_of_lt ?_
    simp only [isDotOrSpace, Bool.or_eq_true, decide_eq_true_eq] at hc
    omega

/-! ### Safe names -/

/-- A control character. -/
def isControl (c : ℕ) : Bool := c ≤ 0x1f || (0x7f ≤ c && c ≤ 0x9f)

/-- A control character that the replacements leave. -/
def isC1Control (c : ℕ) : Bool := 0x80 ≤ c && c ≤ 0x9f

/-- What is promised of the name of an upload. -/
structure IsSafeName (platform : TextPlatform) (value name : Text) : Prop where
  ne_nil : name ≠ []
  length_le : name.length ≤ 120
  separators : 47 ∉ name ∧ 92 ∉ name
  controls : ∀ c ∈ name, isControl c = false ∧ isBidiUnit c = false
  head : ∀ c ∈ name.head?, isDotOrSpace c = false
  last : ∀ c ∈ name.getLast?, isDotOrSpace c = false
  free : isReservedName name = false
  wellFormed : IsWellFormed value → IsWellFormed name
  fixed : safeFilename platform name = .ok name
  /-- The extension that `validateUploadedFile` checks is that of the name before the cut. -/
  extension : extname name = extname (unboundedName platform value)

/-- `safeFilename` refuses the name, or gives a safe one. -/
def GivesSafeName (platform : TextPlatform) (value : Text) : Prop :=
  (∃ e, safeFilename platform value = .error e ∧ e.code = .INVALID_FILENAME) ∨
    ∃ name, safeFilename platform value = .ok name ∧ IsSafeName platform value name

/-- **Where the name is safe**: what is kept of the name before the cut is normalized and has no C1
    control, and the cut spares the extension and the pairs, and leaves no device name. -/
structure NamedSafely (platform : TextPlatform) (value : Text) : Prop where
  stem : platform.nfkc (keptStem (unboundedName platform value)) =
    keptStem (unboundedName platform value)
  extension : platform.nfkc (keptExtension (unboundedName platform value)) =
    keptExtension (unboundedName platform value)
  controls : ∀ c ∈ keptStem (unboundedName platform value) ++
    keptExtension (unboundedName platform value), isC1Control c = false
  spared : 120 < (unboundedName platform value).length →
    (extname (unboundedName platform value)).length ≤ 16
  free : 120 < (unboundedName platform value).length →
    (boundedStem (unboundedName platform value)).map lowerUnit ∉ deviceNames
  whole : 120 < (unboundedName platform value).length → IsWellFormed value →
    ¬SplitsPair (unboundedName platform value) (stemLength (unboundedName platform value))

/-- What the replacements leave of the controls. -/
theorem Rewritten.isControl_iff (h : Rewritten t) {c : ℕ} (hmem : c ∈ t) :
    isControl c = false ↔ isC1Control c = false := by
  have hnot := (h.allowed c hmem).1
  simp only [isForbiddenUnit, isControl, isC1Control, Bool.or_eq_false_iff, Bool.and_eq_false_iff,
    decide_eq_false_iff_not] at hnot ⊢
  omega

theorem isSafeName_iff (h : IsNfkc platform.nfkc) :
    IsSafeName platform value (boundedName (unboundedName platform value)) ↔
      NamedSafely platform value := by
  obtain ⟨hs, hne, hreserved⟩ := unboundedName_spec platform value
  have hunbounded : IsWellFormed value → IsWellFormed (unboundedName platform value) :=
    isWellFormed_unboundedName h
  have hnfkc := nfkc_boundedName_iff h hs
  generalize hgen : unboundedName platform value = s at *
  constructor
  · intro hsafe
    have hsame := hsafe.extension
    rw [hgen] at hsame
    have hext := (extname_boundedName_iff hs hne).mp hsame
    have hclean := clean_boundedName hs hne hext
    have hleaf : leafOf (boundedName s) = boundedName s :=
      leafOf_eq_self hsafe.separators.1 hsafe.separators.2
    have hnormal := nfkc_safeFilename h
      (by rw [hleaf]; exact fun c hmem => (hsafe.controls c hmem).2) hsafe.fixed
    refine ⟨?_, ?_, ?_, ?_, ?_, ?_⟩ <;> rw [hgen]
    · exact (hnfkc.mp hnormal).1
    · exact (hnfkc.mp hnormal).2
    · rw [← boundedName_eq]
      exact fun c hmem => (hclean.isControl_iff hmem).mp (hsafe.controls c hmem).1
    · exact hext
    · exact (isReservedName_boundedName_iff hs hreserved).mp hsafe.free
    · intro hlong hwf
      rw [← isWellFormed_cut_iff hs (hunbounded hwf) (hext hlong)]
      have hname := hsafe.wellFormed hwf
      rwa [boundedName, if_pos hlong] at hname
  · rintro ⟨hstem, hext, hcontrols, hspared, hfree, hwhole⟩
    rw [hgen] at hstem hext hcontrols hspared hfree hwhole
    rw [← boundedName_eq] at hcontrols
    have hclean := clean_boundedName hs hne hspared
    have hne' := boundedName_ne_nil hs hne
    have hunreserved := (isReservedName_boundedName_iff hs hreserved).mpr hfree
    have hnot : ∀ c, isForbiddenUnit c = true → c ∉ boundedName s := by
      intro c hc hmem
      rw [(hclean.allowed c hmem).1] at hc
      exact absurd hc (by decide)
    refine ⟨hne', length_boundedName_le, ⟨hnot 47 (by decide), hnot 92 (by decide)⟩,
      fun c hmem => ?_, hclean.head, hclean.last, hunreserved, fun hwf => ?_, ?_, ?_⟩
    · exact ⟨(hclean.isControl_iff hmem).mpr (hcontrols c hmem), (hclean.allowed c hmem).2⟩
    · unfold boundedName
      split
      · next hlong =>
        exact (isWellFormed_cut_iff hs (hunbounded hwf) (hspared hlong)).mpr (hwhole hlong hwf)
      · exact hunbounded hwf
    · exact safeFilename_eq_self hclean hne' length_boundedName_le hunreserved
        (hnfkc.mpr ⟨hstem, hext⟩)
    · rw [hgen]
      exact (extname_boundedName_iff hs hne).mpr hspared

/-- **The name of an upload** is refused or safe exactly if it is empty or has a line break or NUL,
    or what is kept of the name is normalized, without C1 controls, and cut well. -/
theorem safe_filenames_iff (h : IsNfkc platform.nfkc) (value : Text) :
    GivesSafeName platform value ↔ isRefused value = true ∨ NamedSafely platform value := by
  unfold GivesSafeName safeFilename
  by_cases hrefused : isRefused value = true
  · rw [if_pos hrefused]
    exact iff_of_true (.inl ⟨_, rfl, rfl⟩) (.inl hrefused)
  · rw [if_neg hrefused, ← isSafeName_iff h]
    constructor
    · rintro (⟨_, hno, -⟩ | ⟨name, hok, hsafe⟩)
      · cases hno
      · rw [← Except.ok.inj hok] at hsafe
        exact .inr hsafe
    · rintro (hyes | hsafe)
      · exact absurd hyes hrefused
      · exact .inr ⟨_, rfl, hsafe⟩

/-- A platform for ASCII texts, which are normalized. -/
def asciiPlatform : TextPlatform :=
  { nfkc := id
    toLowerCase := List.map lowerUnit
    readsJson := fun _ => true }

theorem isNfkc_id : IsNfkc id where
  idempotent := fun _ => rfl
  ascii := fun _ _ => rfl
  parts := fun _ _ _ _ => rfl
  join := fun _ _ _ _ _ _ => rfl
  mark := fun _ _ _ _ => rfl
  controls := fun _ h => h
  wellFormed := fun _ h => h

/-- A name with characters that are not allowed. -/
def reportName : Text := asciiText "reports/2024: draft?.txt"

theorem report_is_safe : safeFilename asciiPlatform reportName = .ok (asciiText "2024- draft-.txt") ∧
    GivesSafeName asciiPlatform reportName := by
  have hshort : ¬120 < (unboundedName asciiPlatform reportName).length := by decide +kernel
  refine ⟨by decide +kernel, (safe_filenames_iff isNfkc_id reportName).mpr (.inr ?_)⟩
  exact ⟨rfl, rfl, by decide +kernel, fun hlong => absurd hlong hshort,
    fun hlong => absurd hlong hshort, fun hlong => absurd hlong hshort⟩

/-- `con`, then dots between spaces, then an extension. -/
def dottedName : Text :=
  asciiText "con" ++ (List.replicate 60 (asciiText " .")).flatten ++ asciiText ".txt"

/-- The cut drops the dots and spaces at the end of the stem, and `con.txt` is left, a device. -/
theorem cut_leaves_a_device : safeFilename asciiPlatform dottedName = .ok (asciiText "con.txt") ∧
    ¬GivesSafeName asciiPlatform dottedName := by
  have hname : safeFilename asciiPlatform dottedName = .ok (asciiText "con.txt") := by
    decide +kernel
  refine ⟨hname, ?_⟩
  rintro (⟨_, hno, -⟩ | ⟨name, hok, hsafe⟩)
  · rw [hname] at hno
    cases hno
  · rw [hname] at hok
    have hfree := hsafe.free
    rw [← Except.ok.inj hok] at hfree
    exact absurd hfree (by decide +kernel)

end ResearchWorkbench.FileNames
