import ResearchWorkbench.Services.FileNames

namespace ResearchWorkbench.FileNames

/-!
# File names before and after the cut

* `Clean`, `clean_rewrite`, `Clean.rewrite_eq` — what the replacements leave, and leave alone;
* `extname_append` — the extension after a stem;
* `isReservedName_append_iff` — a stem and an extension are a device name if the stem is one;
* `unboundedName_spec` — the name before the cut;
* `boundedName_eq` — a stem and an extension are kept of it, `keptStem` and `keptExtension`;
  `clean_boundedName`, `extname_boundedName`, `isReservedName_boundedName_iff` say what the cut does.
-/

variable {t u s : Text}

/-! ### Clean texts -/

/-- What the replacements of units and of runs leave. -/
structure Rewritten (t : Text) : Prop where
  allowed : ∀ c ∈ t, isForbiddenUnit c = false ∧ isBidiUnit c = false
  spaces : Single isSpaceUnit 32 t
  dashes : Single isDash 45 t

/-- A text that the replacements leave alone. -/
structure Clean (t : Text) : Prop extends Rewritten t where
  head : ∀ c ∈ t.head?, isDotOrSpace c = false
  last : ∀ c ∈ t.getLast?, isDotOrSpace c = false

theorem Rewritten.infix (h : Rewritten t) (hu : u <:+: t) : Rewritten u :=
  ⟨fun c hmem => h.allowed c (hu.subset hmem), h.spaces.infix hu, h.dashes.infix hu⟩

/-- The only white space that is left is the space. -/
theorem Rewritten.not_space (h : Rewritten t) {c : ℕ} (hmem : c ∈ t) (hc : isDotOrSpace c = false) :
    isSpaceUnit c = false := by
  by_contra hspace
  rw [Bool.not_eq_false] at hspace
  rw [h.spaces.only c hmem hspace] at hc
  exact absurd hc (by decide)

/-- Two texts side by side, unless white space or dashes meet. -/
theorem Rewritten.append (ht : Rewritten t) (hu : Rewritten u)
    (hspace : ∀ a ∈ t.getLast?, ∀ b ∈ u.head?, ¬ (isSpaceUnit a = true ∧ isSpaceUnit b = true))
    (hdash : ∀ a ∈ t.getLast?, ∀ b ∈ u.head?, ¬ (isDash a = true ∧ isDash b = true)) :
    Rewritten (t ++ u) := by
  refine ⟨fun c hmem => ?_, ⟨fun c hmem => ?_, noTwo_append ht.spaces.noTwo hu.spaces.noTwo hspace⟩,
    ⟨fun c hmem => ?_, noTwo_append ht.dashes.noTwo hu.dashes.noTwo hdash⟩⟩
  · exact (List.mem_append.mp hmem).elim (ht.allowed c) (hu.allowed c)
  · exact (List.mem_append.mp hmem).elim (ht.spaces.only c) (hu.spaces.only c)
  · exact (List.mem_append.mp hmem).elim (ht.dashes.only c) (hu.dashes.only c)

/-- **What the replacements leave** is clean. -/
theorem clean_rewrite (t : Text) : Clean (rewrite t) := by
  let a := (t.map fun c => if isForbiddenUnit c then 45 else c).filter fun c => !isBidiUnit c
  have ha : ∀ c ∈ a, isForbiddenUnit c = false ∧ isBidiUnit c = false := by
    intro c hmem
    obtain ⟨hmap, hbidi⟩ := List.mem_filter.mp hmem
    obtain ⟨e, -, rfl⟩ := List.mem_map.mp hmap
    refine ⟨?_, by simpa using hbidi⟩
    cases he : isForbiddenUnit e with
    | true =>
      show isForbiddenUnit 45 = false
      decide
    | false => exact he
  have hb : ∀ c ∈ collapseRuns isSpaceUnit 32 a, isForbiddenUnit c = false ∧ isBidiUnit c = false := by
    intro c hmem
    rcases mem_collapseRuns hmem with rfl | ⟨hold, -⟩
    · decide
    · exact ha c hold
  let b := collapseRuns isDash 45 (collapseRuns isSpaceUnit 32 a)
  have hrewritten : Rewritten b := by
    refine ⟨fun c hmem => ?_, ?_, single_collapseRuns⟩
    · rcases mem_collapseRuns hmem with rfl | ⟨hold, -⟩
      · decide
      · exact hb c hold
    · have hsingle : Single isSpaceUnit 32 (collapseRuns isSpaceUnit 32 a) := single_collapseRuns
      refine ⟨fun c hmem hc => ?_, hsingle.noTwo.collapseRuns (by decide)⟩
      rcases mem_collapseRuns hmem with rfl | ⟨hold, -⟩
      · exact absurd hc (by decide)
      · exact hsingle.only c hold hc
  have hstripped : Rewritten (stripEnds isDotOrSpace b) := hrewritten.infix stripEnds_infix
  -- what is stripped leaves no white space at the ends, so `trim` finds none
  have htrim : rewrite t = stripEnds isDotOrSpace b := by
    show stripEnds isSpaceUnit (stripEnds isDotOrSpace b) = _
    refine stripEnds_eq (fun c hc => ?_) (fun c hc => ?_)
    · exact hstripped.not_space (List.mem_of_head? hc) (head?_stripEnds hc)
    · exact hstripped.not_space (List.mem_of_getLast? hc) (getLast?_stripEnds hc)
  rw [htrim]
  exact ⟨hstripped, fun c => head?_stripEnds, fun c => getLast?_stripEnds⟩

/-- **What is clean** is left alone. -/
theorem Clean.rewrite_eq (h : Clean t) : rewrite t = t := by
  have hmap : (t.map fun c => if isForbiddenUnit c then 45 else c) = t :=
    (List.map_congr_left fun c hmem => by rw [(h.allowed c hmem).1]; rfl).trans (List.map_id' t)
  have hfilter : (t.filter fun c => !isBidiUnit c) = t :=
    List.filter_eq_self.mpr fun c hmem => by rw [(h.allowed c hmem).2]; rfl
  have hstrip : stripEnds isDotOrSpace t = t := stripEnds_eq h.head h.last
  have htrim : trimText t = t := by
    show stripEnds isSpaceUnit t = t
    refine stripEnds_eq (fun c hc => ?_) (fun c hc => ?_)
    · exact h.not_space (List.mem_of_head? hc) (h.head c hc)
    · exact h.not_space (List.mem_of_getLast? hc) (h.last c hc)
  rw [rewrite, hmap, hfilter, h.spaces.collapseRuns_eq, h.dashes.collapseRuns_eq, hstrip, htrim]

/-! ### Extensions -/

theorem notMem_afterLastDot (t : Text) : 46 ∉ afterLastDot t := by
  intro hmem
  exact absurd (List.mem_rtakeWhile_imp hmem) (by decide)

/-- The extension after a stem, which is not empty and does not begin with a dot. -/
theorem extname_append (hne : t ≠ []) (hhead : t.head? ≠ some 46) (hu : 46 ∉ u) :
    extname (t ++ 46 :: u) = 46 :: u := by
  have hafter : afterLastDot (t ++ 46 :: u) = u := by
    rw [afterLastDot, List.rtakeWhile, List.reverse_append, List.reverse_cons, List.append_assoc,
      List.singleton_append, List.takeWhile_append_of_pos, List.takeWhile_cons_of_neg (by decide),
      List.append_nil, List.reverse_reverse]
    intro c hmem
    rw [List.mem_reverse] at hmem
    exact decide_eq_true fun heq => hu (heq ▸ hmem)
  have hlength : 0 < t.length := List.length_pos_iff.mpr hne
  rw [extname, hafter, if_neg]
  rintro (h | h | h)
  · exact h (List.mem_append_right _ List.mem_cons_self)
  · rw [List.length_append, List.length_cons] at h
    omega
  · refine hhead ?_
    rw [← @List.head?_append_of_ne_nil _ t (46 :: u) hne, h]
    rfl

theorem extname_of_notMem (h : 46 ∉ t) : extname t = [] := if_pos (.inl h)

/-- A text that does not begin or end with a dot has no dot, or is a stem and an extension. -/
theorem exists_extname (hhead : t.head? ≠ some 46) :
    46 ∉ t ∧ extname t = [] ∨
      ∃ stem suffix, t = stem ++ 46 :: suffix ∧ stem ≠ [] ∧ stem.head? ≠ some 46 ∧ 46 ∉ suffix ∧
        extname t = 46 :: suffix := by
  by_cases hmem : 46 ∈ t
  · refine .inr ?_
    have hsplit : (t.rdropWhile fun c => decide (c ≠ 46)) ++ t.rtakeWhile (fun c => decide (c ≠ 46))
        = t := List.rdropWhile_append_rtakeWhile
    have hbefore : t.rdropWhile (fun c => decide (c ≠ 46)) ≠ [] := by
      rw [Ne, List.rdropWhile_eq_nil_iff]
      exact fun hall => absurd (hall 46 hmem) (by decide)
    have hdot : 46 ∈ (t.rdropWhile fun c => decide (c ≠ 46)).getLast? := by
      have hlast := List.getLast?_eq_some_getLast hbefore
      have hnot := getLast?_rdropWhile (show _ ∈ _ from hlast)
      rw [decide_eq_false_iff_not, not_not] at hnot
      rw [hnot] at hlast
      exact hlast
    obtain ⟨stem, hstem⟩ := List.getLast?_eq_some_iff.mp hdot
    have hsuffix : 46 ∉ t.rtakeWhile fun c => decide (c ≠ 46) := notMem_afterLastDot t
    rw [hstem, List.append_assoc, List.singleton_append] at hsplit
    have hne : stem ≠ [] := by
      rintro rfl
      rw [List.nil_append] at hsplit
      exact hhead (by rw [← hsplit]; rfl)
    have hstemHead : stem.head? ≠ some 46 := by
      rw [← List.head?_append_of_ne_nil _ hne, hsplit]
      exact hhead
    refine ⟨stem, _, hsplit.symm, hne, hstemHead, hsuffix, ?_⟩
    rw [← extname_append hne hstemHead hsuffix, hsplit]
  · exact .inl ⟨hmem, extname_of_notMem hmem⟩

/-! ### Device names -/

theorem deviceNames_spec : ∀ device ∈ deviceNames, 46 ∉ device ∧
    device.head?.any (fun c => c ≠ 117 && 97 ≤ c && c ≤ 122) = true := by
  decide +kernel

/-- The first unit of a device name is a letter, in lower case, and not that of `upload`. -/
theorem exists_device_head {device : Text} (h : device ∈ deviceNames) :
    ∃ c rest, device = c :: rest ∧ c ≠ 117 ∧ 97 ≤ c ∧ c ≤ 122 := by
  have hhead := (deviceNames_spec device h).2
  cases device with
  | nil => exact absurd hhead (by decide)
  | cons c rest =>
    simp only [List.head?_cons, Option.any_some, Bool.and_eq_true, decide_eq_true_eq] at hhead
    exact ⟨c, rest, rfl, hhead.1.1, hhead.1.2, hhead.2⟩

theorem isReservedName_iff : isReservedName t = true ↔ ∃ device ∈ deviceNames,
    device <+: t.map lowerUnit ∧ ∀ c ∈ (t.drop device.length).head?, c = 46 := by
  simp only [isReservedName, List.any_eq_true, Bool.and_eq_true, List.isPrefixOf_iff_prefix,
    Option.all_eq_true, decide_eq_true_eq, Option.mem_def]

/-- Where a text that is no device name is cut, with an extension after the stem, it has become one
    exactly if the stem is one. -/
theorem isReservedName_append_iff (hs : isReservedName s = false) (ht : t <+: s)
    (hu : u = [] ∨ u.head? = some 46) :
    isReservedName (t ++ u) = true ↔ t.map lowerUnit ∈ deviceNames := by
  rw [isReservedName_iff]
  constructor
  · rintro ⟨device, hdevice, hbegins, hnext⟩
    have hlength := hbegins.length_le
    rw [List.length_map, List.length_append] at hlength
    rcases Nat.lt_trichotomy device.length t.length with hlt | heq | hgt
    · -- the dot is in the stem, so that the whole text was a device name
      refine absurd ?_ (Bool.eq_false_iff.mp hs)
      obtain ⟨rest, rfl⟩ := ht
      rw [isReservedName_iff]
      refine ⟨device, hdevice, ?_, ?_⟩
      · rw [List.map_append] at hbegins ⊢
        refine (List.prefix_of_prefix_length_le hbegins (List.prefix_append _ _) ?_).trans
          (List.prefix_append _ _)
        rw [List.length_map]
        omega
      · intro c hc
        refine hnext c ?_
        rw [List.drop_append_of_le_length hlt.le] at hc ⊢
        have hne : t.drop device.length ≠ [] := by
          rw [Ne, List.drop_eq_nil_iff]
          omega
        rw [List.head?_append_of_ne_nil _ hne] at hc ⊢
        exact hc
    · rw [List.map_append] at hbegins
      have hsame := List.prefix_of_prefix_length_le (List.prefix_append (t.map lowerUnit) _) hbegins
        (by rw [List.length_map]; omega)
      have heq' : t.map lowerUnit = device :=
        hsame.eq_of_length (by rw [List.length_map]; omega)
      rw [heq']
      exact hdevice
    · -- the device name would have the dot of the extension
      rcases hu with rfl | hdot
      · rw [List.length_nil] at hlength
        omega
      · exfalso
        obtain ⟨rest, rfl⟩ := List.head?_eq_some_iff.mp hdot
        refine (deviceNames_spec device hdevice).1 ?_
        rw [List.map_append] at hbegins
        have hin : t.map lowerUnit ++ [46] <+: device := by
          refine List.prefix_of_prefix_length_le ?_ hbegins ?_
          · exact ⟨rest.map lowerUnit, by rw [List.append_assoc]; rfl⟩
          · rw [List.length_append, List.length_map, List.length_singleton]
            omega
        exact hin.subset (List.mem_append_right _ (List.mem_singleton_self _))
  · intro hdevice
    refine ⟨_, hdevice, ?_, fun c hc => ?_⟩
    · rw [List.map_append]
      exact List.prefix_append _ _
    · rw [List.length_map, List.drop_left] at hc
      rcases hu with rfl | hdot
      · exact absurd hc (by simp)
      · exact Option.some.inj (hc.symm.trans hdot)

/-! ### The name before the cut -/

/-- The name before the cut is clean, not empty and not a device name. -/
theorem unboundedName_spec (platform : TextPlatform) (value : Text) :
    Clean (unboundedName platform value) ∧ unboundedName platform value ≠ [] ∧
      isReservedName (unboundedName platform value) = false := by
  have hclean : Clean (if rewrittenLeaf platform value = [] ∨ rewrittenLeaf platform value = [46] ∨
      rewrittenLeaf platform value = [46, 46] then asciiText "upload"
      else rewrittenLeaf platform value) ∧
      (if rewrittenLeaf platform value = [] ∨ rewrittenLeaf platform value = [46] ∨
      rewrittenLeaf platform value = [46, 46] then asciiText "upload"
      else rewrittenLeaf platform value) ≠ [] := by
    split
    · refine ⟨?_, by decide⟩
      have hrewrite : rewrite (asciiText "upload") = asciiText "upload" := by decide +kernel
      rw [← hrewrite]
      exact clean_rewrite _
    · next hname => exact ⟨clean_rewrite _, fun hnil => hname (.inl hnil)⟩
  simp only [unboundedName]
  generalize (if rewrittenLeaf platform value = [] ∨ rewrittenLeaf platform value = [46] ∨
      rewrittenLeaf platform value = [46, 46] then asciiText "upload"
      else rewrittenLeaf platform value) = name at hclean
  obtain ⟨hclean, hne⟩ := hclean
  cases hreserved : isReservedName name with
  | false =>
    rw [if_neg (by decide)]
    exact ⟨hclean, hne, hreserved⟩
  | true =>
    rw [if_pos rfl]
    obtain ⟨device, hdevice, hbegins, -⟩ := isReservedName_iff.mp hreserved
    obtain ⟨c, rest, rfl, hc⟩ := exists_device_head hdevice
    obtain ⟨first, name, rfl⟩ := List.exists_cons_of_ne_nil hne
    have hfirst : c = lowerUnit first := (List.cons_prefix_cons.mp hbegins).1
    have hletter : isSpaceUnit first = false ∧ isDash first = false := by
      rw [lowerUnit] at hfirst
      simp only [isSpaceUnit, isDash, Bool.or_eq_false_iff, Bool.and_eq_false_iff,
        decide_eq_false_iff_not]
      split at hfirst <;> omega
    have hupload : Clean (asciiText "upload-") := by
      have hbefore : Clean (asciiText "upload") := by
        have hrewrite : rewrite (asciiText "upload") = asciiText "upload" := by decide +kernel
        rw [← hrewrite]
        exact clean_rewrite _
      have hdash : Rewritten [45] := ⟨by decide, ⟨by decide, .singleton _⟩, ⟨by decide, .singleton _⟩⟩
      refine ⟨hbefore.toRewritten.append hdash (by decide) (by decide), by decide, by decide⟩
    refine ⟨⟨hupload.toRewritten.append hclean.toRewritten ?_ ?_, by simp [asciiText]; decide, ?_⟩,
      by simp [asciiText], ?_⟩
    · rintro a - b hb ⟨-, hspace⟩
      obtain rfl : first = b := Option.some.inj hb
      rw [hletter.1] at hspace
      exact absurd hspace (by decide)
    · rintro a - b hb ⟨-, hdash⟩
      obtain rfl : first = b := Option.some.inj hb
      rw [hletter.2] at hdash
      exact absurd hdash (by decide)
    · rw [List.getLast?_append_of_ne_nil _ hne]
      exact hclean.last
    · -- no device name begins with a `u`
      rw [Bool.eq_false_iff, Ne, isReservedName_iff]
      rintro ⟨device', hdevice', hbegins', -⟩
      obtain ⟨c', rest', rfl, hc', -⟩ := exists_device_head hdevice'
      exact hc' (List.cons_prefix_cons.mp hbegins').1

/-! ### The cut -/

/-- What is kept of a name before its extension. -/
def keptStem (s : Text) : Text := if 120 < s.length then boundedStem s else s

/-- What is kept of the extension of a name that is cut. -/
def keptExtension (s : Text) : Text := if 120 < s.length then boundedExtension s else []

theorem boundedName_eq (s : Text) : boundedName s = keptStem s ++ keptExtension s := by
  unfold boundedName keptStem keptExtension
  split
  · rfl
  · rw [List.append_nil]

theorem prefix_boundedStem (s : Text) : boundedStem s <+: s :=
  (List.rdropWhile_prefix _ _).trans (List.take_prefix _ _)

theorem prefix_keptStem (s : Text) : keptStem s <+: s := by
  unfold keptStem
  split
  · exact prefix_boundedStem s
  · exact List.prefix_refl s

variable (hs : Clean s) (hne : s ≠ [])
include hs

theorem head_ne_dot : s.head? ≠ some 46 := fun hdot => absurd (hs.head 46 hdot) (by decide)

/-- The extension begins with the only dot in it. -/
theorem boundedExtension_cases : boundedExtension s = [] ∧ 46 ∉ s ∨
    ∃ suffix, boundedExtension s = 46 :: suffix ∧ 46 ∉ suffix := by
  rcases exists_extname (head_ne_dot hs) with ⟨hmem, hnil⟩ | ⟨_, suffix, -, -, -, hsuffix, hext⟩
  · exact .inl ⟨by rw [boundedExtension, hnil]; rfl, hmem⟩
  · refine .inr ⟨suffix.take 15, by rw [boundedExtension, hext]; rfl, fun hmem => ?_⟩
    exact hsuffix (List.mem_of_mem_take hmem)

theorem extname_suffix : extname s <:+ s := by
  rcases exists_extname (head_ne_dot hs) with ⟨-, hnil⟩ | ⟨stem, suffix, hsplit, -, -, -, hext⟩
  · rw [hnil]
    exact List.nil_suffix
  · rw [hext]
    exact ⟨stem, hsplit.symm⟩

theorem infix_boundedExtension : boundedExtension s <:+: s :=
  (List.take_prefix _ _).isInfix.trans (extname_suffix hs).isInfix

omit hs in
theorem getLast?_boundedStem {c : ℕ} (h : c ∈ (boundedStem s).getLast?) : isDotOrSpace c = false :=
  getLast?_rdropWhile h

include hne

theorem boundedStem_ne_nil : boundedStem s ≠ [] := by
  obtain ⟨c, rest, rfl⟩ := List.exists_cons_of_ne_nil hne
  have hc : isDotOrSpace c = false := hs.head c rfl
  rw [boundedStem, Ne, List.rdropWhile_eq_nil_iff]
  intro hall
  have hmem : c ∈ (c :: rest).take (stemLength (c :: rest)) := by
    obtain ⟨n, hn⟩ := Nat.exists_eq_add_of_lt (show 0 < stemLength (c :: rest) from
      (Nat.le_max_left 1 _))
    rw [hn, List.take_succ_cons]
    exact List.mem_cons_self
  rw [hall c hmem] at hc
  exact absurd hc (by decide)

theorem head?_boundedStem : (boundedStem s).head? = s.head? := by
  obtain ⟨rest, hrest⟩ := prefix_boundedStem s
  nth_rewrite 2 [← hrest]
  rw [List.head?_append_of_ne_nil _ (boundedStem_ne_nil hs hne)]

/-- The extension of what is kept. -/
theorem extname_cut : extname (boundedStem s ++ boundedExtension s) = boundedExtension s := by
  rcases boundedExtension_cases hs with ⟨hnil, hmem⟩ | ⟨suffix, hext, hsuffix⟩
  · rw [hnil, List.append_nil]
    exact extname_of_notMem fun hdot => hmem ((prefix_boundedStem s).subset hdot)
  · rw [hext]
    refine extname_append (boundedStem_ne_nil hs hne) ?_ hsuffix
    rw [head?_boundedStem hs hne]
    exact head_ne_dot hs

/-- **The cut keeps the extension** exactly if that has at most 16 units. -/
theorem extname_boundedName_iff : extname (boundedName s) = extname s ↔
    (120 < s.length → (extname s).length ≤ 16) := by
  unfold boundedName
  split
  · next hlong =>
    rw [extname_cut hs hne, boundedExtension, List.take_eq_self_iff]
    exact ⟨fun h _ => h, fun h => h hlong⟩
  · next hshort => exact iff_of_true rfl fun hlong => absurd hlong hshort

theorem boundedName_ne_nil : boundedName s ≠ [] := by
  unfold boundedName
  split
  · exact List.append_ne_nil_of_left_ne_nil (boundedStem_ne_nil hs hne) _
  · exact hne

omit hs hne in
theorem length_boundedName_le : (boundedName s).length ≤ 120 := by
  unfold boundedName
  split
  · have hstem : (boundedStem s).length ≤ stemLength s :=
      (List.rdropWhile_prefix _ _).length_le.trans (List.length_take_le _ _)
    have hext : (boundedExtension s).length ≤ 16 := List.length_take_le _ _
    rw [stemLength] at hstem
    rw [List.length_append]
    omega
  · next hshort => exact Nat.le_of_not_lt hshort

/-- The cut leaves a clean name if it keeps the extension. -/
theorem clean_boundedName (hext : 120 < s.length → (extname s).length ≤ 16) :
    Clean (boundedName s) := by
  unfold boundedName
  split
  · next hlong =>
    have hstem : Rewritten (boundedStem s) := hs.toRewritten.infix (prefix_boundedStem s).isInfix
    have hkept : boundedExtension s = extname s := List.take_of_length_le (hext hlong)
    have hsuffix : Rewritten (boundedExtension s) :=
      hs.toRewritten.infix (infix_boundedExtension hs)
    refine ⟨hstem.append hsuffix ?_ ?_, ?_, ?_⟩
    · rintro a ha b - ⟨hspace, -⟩
      rw [hstem.not_space (List.mem_of_getLast? ha) (getLast?_boundedStem ha)] at hspace
      exact absurd hspace (by decide)
    · rintro a - b hb ⟨-, hdash⟩
      rcases boundedExtension_cases hs with ⟨hnil, -⟩ | ⟨suffix, hdot, -⟩
      · rw [hnil] at hb
        exact absurd hb (by simp)
      · rw [hdot] at hb
        obtain rfl := Option.some.inj hb
        exact absurd hdash (by decide)
    · rw [List.head?_append_of_ne_nil _ (boundedStem_ne_nil hs hne), head?_boundedStem hs hne]
      exact hs.head
    · by_cases hnil : boundedExtension s = []
      · rw [hnil, List.append_nil]
        exact fun c => getLast?_boundedStem
      · obtain ⟨front, hfront⟩ := extname_suffix hs
        rw [List.getLast?_append_of_ne_nil _ hnil, hkept]
        rw [hkept] at hnil
        rw [← List.getLast?_append_of_ne_nil front hnil, hfront]
        exact hs.last
  · exact hs

omit hne in
/-- **The cut makes a device name** exactly of a long name whose stem becomes one. -/
theorem isReservedName_boundedName_iff (hfree : isReservedName s = false) :
    isReservedName (boundedName s) = false ↔
      (120 < s.length → (boundedStem s).map lowerUnit ∉ deviceNames) := by
  unfold boundedName
  split
  · next hlong =>
    have hdot : boundedExtension s = [] ∨ (boundedExtension s).head? = some 46 := by
      rcases boundedExtension_cases hs with ⟨hnil, -⟩ | ⟨suffix, hext, -⟩
      · exact .inl hnil
      · exact .inr (by rw [hext]; rfl)
    rw [Bool.eq_false_iff, Ne, isReservedName_append_iff hfree (prefix_boundedStem s) hdot]
    exact ⟨fun h _ => h, fun h => h hlong⟩
  · next hshort => exact iff_of_true hfree fun hlong => absurd hlong hshort

end ResearchWorkbench.FileNames
