import ResearchWorkbench.Extraction.HtmlRuns
import ResearchWorkbench.Services.DocxBlocks

namespace ResearchWorkbench.Extraction

open Chunking

/-!
# Section paths

The section path of a block against the outline of its document.  Both extractors take the path of a
heading before the heading closes the sections that it ends, and a heading whose level skips another
leaves an empty component behind.

* `OutlineBlock`, `docxOutline`, `htmlOutline` — the blocks of a document in their order, with the
  levels of the headings among them;
* `enclosingPaths` — the paths that the outline gives; `codePaths` — those that the stack gives;
* `sectionPathOf_eq_iff` — when the stack gives the path of the outline at one block;
* `InOrder` — the levels go 1, 2, 3, … up to the last block; `codePaths_eq_iff`;
* `docx_paths`, `html_paths` — both extractors compute `codePaths`;
* `section_paths_iff` — the paths are right exactly where the levels are in order, and the two
  extractors agree on every outline.
-/

/-! ### Outlines -/

/-- A block of a document; a heading has a level. -/
structure OutlineBlock where
  level : Option ℕ
  text : Text
  deriving DecidableEq, Repr

/-- The texts of the open headings. -/
def chain (headings : List (ℕ × Text)) : Option Text :=
  if headings = [] then none
  else some (List.intercalate (asciiText " > ") (headings.map Prod.snd))

/-- The paths of the outline: a heading closes the headings of its level and deeper before its own
path is taken. -/
def enclosingPaths : List (ℕ × Text) → List OutlineBlock → List (Option Text)
  | _, [] => []
  | headings, block :: blocks =>
    match block.level with
    | none => chain headings :: enclosingPaths headings blocks
    | some n =>
      chain (headings.filter fun h => h.1 < n) ::
        enclosingPaths ((headings.filter fun h => h.1 < n) ++ [(n, block.text)]) blocks

/-- The section stack after a block. -/
def stackAfter (stack : SectionStack) (block : OutlineBlock) : SectionStack :=
  match block.level with
  | none => stack
  | some n => openSection stack n block.text

/-- The paths that the stack gives. -/
def codePaths : SectionStack → List OutlineBlock → List (Option Text)
  | _, [] => []
  | stack, block :: blocks => sectionPathOf stack :: codePaths (stackAfter stack block) blocks

/-- The headings have the levels `depth + 1`, `depth + 2`, … in the order of the document, save that
a heading at its very end may be deeper. -/
def InOrder : ℕ → List OutlineBlock → Prop
  | _, [] => True
  | depth, block :: blocks =>
    match block.level with
    | none => InOrder depth blocks
    | some n => if blocks = [] then depth < n else n = depth + 1 ∧ InOrder (depth + 1) blocks

/-! ### The stack and the open headings -/

/-- The entries of the stack that are headings, with their levels; the first entry has the level
`base + 1`. -/
def openHeadings : ℕ → SectionStack → List (ℕ × Text)
  | _, [] => []
  | base, none :: stack => openHeadings (base + 1) stack
  | base, some text :: stack => (base + 1, text) :: openHeadings (base + 1) stack

variable {stack : SectionStack} {base m n depth : ℕ} {text : Text} {blocks : List OutlineBlock}

theorem level_of_mem_openHeadings {h : ℕ × Text} (hmem : h ∈ openHeadings base stack) :
    base < h.1 ∧ h.1 ≤ base + stack.length := by
  induction stack generalizing base with
  | nil => exact absurd hmem List.not_mem_nil
  | cons entry stack ih =>
    rw [List.length_cons]
    rcases entry with _ | text
    · have := @ih (base + 1) hmem
      omega
    · rcases List.mem_cons.mp hmem with rfl | hmem
      · simp only
        omega
      · have := ih hmem
        omega

theorem openHeadings_append (stack' : SectionStack) :
    openHeadings base (stack ++ stack') =
      openHeadings base stack ++ openHeadings (base + stack.length) stack' := by
  induction stack generalizing base with
  | nil => rfl
  | cons entry stack ih =>
    have hlen : base + (entry :: stack).length = base + 1 + stack.length := by
      rw [List.length_cons]
      omega
    rw [hlen]
    rcases entry with _ | text
    · exact ih
    · exact congrArg ((base + 1, text) :: ·) ih

theorem openHeadings_holes (k : ℕ) : openHeadings base (List.replicate k none) = [] := by
  induction k generalizing base with
  | zero => rfl
  | succ k ih => exact ih

/-- `splice` keeps the headings of the lower levels. -/
theorem openHeadings_take :
    openHeadings base (stack.take m) =
      (openHeadings base stack).filter fun h => h.1 < base + m + 1 := by
  have hsplit := @openHeadings_append (stack.take m) base (stack.drop m)
  rw [List.take_append_drop] at hsplit
  rw [hsplit, List.filter_append]
  have hkept : (openHeadings base (stack.take m)).filter (fun h => h.1 < base + m + 1) =
      openHeadings base (stack.take m) := by
    refine List.filter_eq_self.mpr fun h hmem => ?_
    have := level_of_mem_openHeadings hmem
    rw [List.length_take] at this
    rw [decide_eq_true_eq]
    omega
  have hclosed : (openHeadings (base + (stack.take m).length) (stack.drop m)).filter
      (fun h => h.1 < base + m + 1) = [] := by
    refine List.filter_eq_nil_iff.mpr fun h hmem => ?_
    have := level_of_mem_openHeadings hmem
    rw [List.length_take, List.length_drop] at this
    rw [decide_eq_true_eq]
    omega
  rw [hkept, hclosed, List.append_nil]

/-- A heading on the stack is a heading among the open ones. -/
theorem openHeadings_openSection (hn : 1 ≤ n) :
    openHeadings 0 (openSection stack n text) =
      ((openHeadings 0 stack).filter fun h => h.1 < n) ++ [(n, text)] := by
  unfold openSection
  simp only
  rw [openHeadings_append, openHeadings_append, openHeadings_take, openHeadings_holes,
    List.append_nil, List.length_append, List.length_replicate, List.length_take]
  have hlevel : 0 + (min (n - 1) stack.length + (n - 1 - min (n - 1) stack.length)) + 1 = n := by
    omega
  have hbound : 0 + (n - 1) + 1 = n := by omega
  rw [openHeadings, openHeadings, hlevel, hbound]

/-! ### Lengths of paths -/

theorem length_intercalate (separator : Text) (parts : List Text) (hne : parts ≠ []) :
    (List.intercalate separator parts).length + separator.length =
      (parts.map fun part => part.length + separator.length).sum := by
  induction parts with
  | nil => exact absurd rfl hne
  | cons part parts ih =>
    rcases parts with _ | ⟨next, parts⟩
    · simp
    · rw [List.intercalate_cons_cons, List.map_cons, List.sum_cons, ← ih (by simp)]
      simp only [List.length_append]
      omega

/-- What a heading adds to the length of a path, with a separator. -/
def headingsLength (headings : List (ℕ × Text)) : ℕ :=
  (headings.map fun h => h.2.length + 3).sum

/-- A hole adds a separator. -/
theorem stackLength_eq :
    (stack.map fun entry => (entry.getD []).length + 3).sum =
      headingsLength (openHeadings base stack) + 3 * stack.count none := by
  induction stack generalizing base with
  | nil => rfl
  | cons entry stack ih =>
    rw [List.map_cons, List.sum_cons, @ih (base + 1)]
    rcases entry with _ | text
    · rw [List.count_cons_self, openHeadings]
      simp only [Option.getD_none, List.length_nil]
      omega
    · rw [List.count_cons_of_ne (by simp)]
      simp only [headingsLength, openHeadings, Option.getD_some, List.map_cons, List.sum_cons]
      omega

theorem headingsLength_filter (p : ℕ × Text → Bool) (headings : List (ℕ × Text)) :
    headingsLength headings =
      headingsLength (headings.filter p) + headingsLength (headings.filter fun h => !p h) := by
  induction headings with
  | nil => rfl
  | cons h headings ih =>
    simp only [headingsLength] at ih ⊢
    by_cases hp : p h = true
    · simp only [List.filter_cons, hp, if_true, Bool.not_true, Bool.false_eq_true, if_false,
        List.map_cons, List.sum_cons]
      omega
    · simp only [List.filter_cons, hp, Bool.false_eq_true, if_false, Bool.not_false, if_true,
        List.map_cons, List.sum_cons]
      omega

theorem headingsLength_eq_zero (headings : List (ℕ × Text)) (h : headingsLength headings = 0) :
    headings = [] := by
  rcases headings with _ | ⟨h', headings⟩
  · rfl
  · simp only [headingsLength, List.map_cons, List.sum_cons] at h
    omega

/-! ### One block -/

/-- The last entry of the stack is a heading. -/
def EndsOpen (stack : SectionStack) : Prop := stack.getLast? ≠ some none

theorem texts_openHeadings (hfull : none ∉ stack) :
    (openHeadings base stack).map Prod.snd = stack.map fun entry => entry.getD [] := by
  induction stack generalizing base with
  | nil => rfl
  | cons entry stack ih =>
    rcases entry with _ | text
    · exact absurd List.mem_cons_self hfull
    · exact congrArg (text :: ·) (ih fun h => hfull (List.mem_cons_of_mem _ h))

/-- **When the stack gives the path of the outline** at a block whose path has the open headings of
a level less than `n`: no level was skipped, and no open heading has the level `n` or a deeper one. -/
theorem sectionPathOf_eq_iff (hlast : EndsOpen stack) (hn : 1 ≤ n) :
    sectionPathOf stack = chain ((openHeadings 0 stack).filter fun h => h.1 < n) ↔
      none ∉ stack ∧ stack.length < n := by
  rcases List.eq_nil_or_concat stack with rfl | ⟨front, last, rfl⟩
  · refine iff_of_true rfl ⟨List.not_mem_nil, ?_⟩
    rw [List.length_nil]
    omega
  rw [List.concat_eq_append] at hlast ⊢
  -- the last entry is a heading of the level that the stack is long
  rcases last with _ | text
  · exact absurd (by simp) hlast
  have hmem : (front.length + 1, text) ∈ openHeadings 0 (front ++ [some text]) := by
    rw [openHeadings_append]
    simp [openHeadings]
  have hlen : (front ++ [some text]).length = front.length + 1 := by simp
  generalize hstack : front ++ [some text] = stack at hmem hlen
  have hne : stack ≠ [] := by
    rintro rfl
    exact absurd hlen (by simp)
  have hpath : sectionPathOf stack = some (List.intercalate (asciiText " > ")
      (stack.map fun entry => entry.getD [])) := by
    rw [sectionPathOf, if_neg hne]
  rw [hlen]
  constructor
  · intro heq
    rw [hpath] at heq
    unfold chain at heq
    split at heq
    · exact absurd heq (by simp)
    · rename_i hkept
      -- the two texts have one length
      have hcode := length_intercalate (asciiText " > ")
        (stack.map fun entry => entry.getD []) (by simpa using hne)
      have hspec := length_intercalate (asciiText " > ")
        (((openHeadings 0 stack).filter fun h => h.1 < n).map Prod.snd) (by simpa using hkept)
      rw [← Option.some.inj heq, hcode, List.map_map, List.map_map] at hspec
      have htotal : headingsLength (openHeadings 0 stack) + 3 * stack.count none =
          headingsLength ((openHeadings 0 stack).filter fun h => h.1 < n) := by
        rw [← stackLength_eq]
        exact hspec
      have hsplit := headingsLength_filter (fun h => decide (h.1 < n)) (openHeadings 0 stack)
      refine ⟨List.count_eq_zero.mp (by omega), ?_⟩
      have hclosed := headingsLength_eq_zero ((openHeadings 0 stack).filter
        fun h => !decide (h.1 < n)) (by omega)
      have hnot := List.filter_eq_nil_iff.mp hclosed _ hmem
      simpa using hnot
  · rintro ⟨hfull, hlt⟩
    have hall : ((openHeadings 0 stack).filter fun h => h.1 < n) = openHeadings 0 stack := by
      refine List.filter_eq_self.mpr fun h hh => ?_
      have := level_of_mem_openHeadings hh
      rw [decide_eq_true_eq]
      omega
    rw [hall, hpath, chain, if_neg (List.ne_nil_of_mem hmem), texts_openHeadings hfull]

/-! ### A sequence of blocks -/

theorem endsOpen_openSection : EndsOpen (openSection stack n text) := by
  unfold EndsOpen openSection
  simp

theorem none_mem_openSection (h : stack.length + 1 < n) : none ∈ openSection stack n text := by
  unfold openSection
  simp only [List.mem_append, List.mem_replicate, List.length_take]
  exact .inl (.inr ⟨by omega, trivial⟩)

theorem openSection_next : openSection stack (stack.length + 1) text = stack ++ [some text] := by
  unfold openSection
  simp

/-- The path of the next block, whatever it is, is wrong after a level was skipped. -/
theorem codePaths_ne (hlast : EndsOpen stack) (hhole : none ∈ stack) (hblocks : blocks ≠ [])
    (hlevels : ∀ block ∈ blocks, ∀ n ∈ block.level, 1 ≤ n) :
    codePaths stack blocks ≠ enclosingPaths (openHeadings 0 stack) blocks := by
  intro h
  rcases blocks with _ | ⟨⟨level, text⟩, blocks⟩
  · exact hblocks rfl
  rcases level with _ | n
  · have hall : ((openHeadings 0 stack).filter fun h => h.1 < stack.length + 1) =
        openHeadings 0 stack := by
      refine List.filter_eq_self.mpr fun h hh => ?_
      have := level_of_mem_openHeadings hh
      rw [decide_eq_true_eq]
      omega
    have hpath := (List.cons.inj h).1
    rw [← hall, sectionPathOf_eq_iff hlast (by omega)] at hpath
    exact hpath.1 hhole
  · have hpath := (List.cons.inj h).1
    rw [sectionPathOf_eq_iff hlast (hlevels _ List.mem_cons_self n rfl)] at hpath
    exact hpath.1 hhole

/-- **When the stack gives the paths of the outline**, from a place where the open headings have the
levels from 1 on. -/
theorem codePaths_eq_iff (hfull : none ∉ stack)
    (hlevels : ∀ block ∈ blocks, ∀ n ∈ block.level, 1 ≤ n) :
    codePaths stack blocks = enclosingPaths (openHeadings 0 stack) blocks ↔
      InOrder stack.length blocks := by
  have hlast : ∀ stack : SectionStack, none ∉ stack → EndsOpen stack := by
    intro stack hfull h
    exact hfull (List.mem_of_getLast? h)
  induction blocks generalizing stack with
  | nil => exact iff_of_true rfl trivial
  | cons block blocks ih =>
    rcases block with ⟨level, text⟩
    have hrest : ∀ block ∈ blocks, ∀ n ∈ block.level, 1 ≤ n := fun block hb =>
      hlevels block (List.mem_cons_of_mem _ hb)
    rcases level with _ | n
    · have hall : ((openHeadings 0 stack).filter fun h => h.1 < stack.length + 1) =
          openHeadings 0 stack := by
        refine List.filter_eq_self.mpr fun h hh => ?_
        have := level_of_mem_openHeadings hh
        rw [decide_eq_true_eq]
        omega
      have hpath := (sectionPathOf_eq_iff (hlast stack hfull) (n := stack.length + 1)
        (by omega)).mpr ⟨hfull, by omega⟩
      rw [hall] at hpath
      show sectionPathOf stack :: codePaths stack blocks =
        chain (openHeadings 0 stack) :: enclosingPaths (openHeadings 0 stack) blocks ↔
          InOrder stack.length blocks
      rw [hpath, List.cons.injEq]
      simp only [true_and]
      exact ih hfull hrest
    · have hn : 1 ≤ n := hlevels _ List.mem_cons_self n rfl
      show sectionPathOf stack :: codePaths (openSection stack n text) blocks =
        chain ((openHeadings 0 stack).filter fun h => h.1 < n) ::
          enclosingPaths (((openHeadings 0 stack).filter fun h => h.1 < n) ++ [(n, text)]) blocks ↔
        if blocks = [] then stack.length < n
          else n = stack.length + 1 ∧ InOrder (stack.length + 1) blocks
      rw [List.cons.injEq, sectionPathOf_eq_iff (hlast stack hfull) hn, ← openHeadings_openSection hn]
      split
      · -- nothing comes after the heading, so only its own path matters
        rename_i hnil
        subst hnil
        exact ⟨fun h => h.1.2, fun h => ⟨⟨hfull, h⟩, rfl⟩⟩
      · rename_i hne
        constructor
        · rintro ⟨⟨-, hlt⟩, htail⟩
          have hnext : n = stack.length + 1 := by
            by_contra hskip
            exact codePaths_ne endsOpen_openSection (none_mem_openSection (by omega)) hne hrest htail
          subst hnext
          rw [openSection_next] at htail
          have hfull' : none ∉ stack ++ [some text] := by simpa using hfull
          have := (ih hfull' hrest).mp htail
          rw [List.length_append] at this
          exact ⟨rfl, this⟩
        · rintro ⟨rfl, horder⟩
          have hfull' : none ∉ stack ++ [some text] := by simpa using hfull
          refine ⟨⟨hfull, by omega⟩, ?_⟩
          rw [openSection_next]
          refine (ih hfull' hrest).mpr ?_
          rw [List.length_append]
          exact horder

/-! ### The paths of a DOCX document -/

/-- The block that a node of the body makes. -/
def docxBlock (node : XmlNode) : Option OutlineBlock :=
  if tagName node = some (asciiText "p") then
    if visibleText (childNodes node) = [] then none
    else some ⟨(paragraphStyle node).bind headingStyle, visibleText (childNodes node)⟩
  else if tagName node = some (asciiText "tbl") then
    if tableText node = [] then none else some ⟨none, tableText node⟩
  else none

/-- The blocks of a DOCX document: its paragraphs and tables with text, in their order. -/
def docxOutline (nodes : List XmlNode) : List OutlineBlock := (bodyNodes nodes).filterMap docxBlock

/-- The section paths of the drafts. -/
def docxSectionPaths (nodes : List XmlNode) : List (Option Text) :=
  match documentDrafts nodes with
  | .ok (drafts, _) => drafts.map (·.sectionPath)
  | .error _ => []

/-- One node of the body adds the path of its block. -/
theorem docxStep_paths (s : DocxState) (node : XmlNode) :
    (docxStep s node).drafts.map (·.sectionPath) = s.drafts.map (·.sectionPath) ++
        codePaths s.sectionStack (docxBlock node).toList ∧
      (docxStep s node).sectionStack =
        (docxBlock node).toList.foldl stackAfter s.sectionStack := by
  unfold docxStep docxBlock
  split
  · -- a paragraph
    unfold paragraphDraft
    simp only
    split
    · simp [codePaths]
    · refine ⟨by simp [codePaths], ?_⟩
      show _ = stackAfter s.sectionStack _
      unfold stackAfter
      rcases (paragraphStyle node).bind headingStyle with _ | level
      · rfl
      · rfl
  split
  · -- a table
    unfold tableDraft
    simp only
    split
    · simp [codePaths]
    · refine ⟨by simp [codePaths], rfl⟩
  split
  · simp [codePaths]
  · simp [codePaths]

theorem codePaths_append (blocks' : List OutlineBlock) :
    codePaths stack (blocks ++ blocks') =
      codePaths stack blocks ++ codePaths (blocks.foldl stackAfter stack) blocks' := by
  induction blocks generalizing stack with
  | nil => rfl
  | cons block blocks ih => exact congrArg (sectionPathOf stack :: ·) ih

/-- The DOCX extractor computes the paths of the stack. -/
theorem docx_paths (nodes : List XmlNode) :
    docxSectionPaths nodes = codePaths [] (docxOutline nodes) := by
  have hrun : ∀ (body : List XmlNode) (s : DocxState),
      (body.foldl docxStep s).drafts.map (·.sectionPath) =
        s.drafts.map (·.sectionPath) ++ codePaths s.sectionStack (body.filterMap docxBlock) := by
    intro body
    induction body with
    | nil => simp [codePaths]
    | cons node body ih =>
      intro s
      rcases docxStep_paths s node with ⟨hpaths, hstack⟩
      have hblocks : (node :: body).filterMap docxBlock =
          (docxBlock node).toList ++ body.filterMap docxBlock := by
        rw [List.filterMap_cons]
        cases docxBlock node <;> rfl
      rw [List.foldl_cons, ih, hpaths, hstack, hblocks, codePaths_append, List.append_assoc]
  unfold docxSectionPaths docxOutline bodyNodes documentDrafts
  rcases nodesByTag (asciiText "body") nodes with _ | ⟨body, rest⟩
  · rfl
  · exact hrun (childNodes body) {}

theorem docx_levels (nodes : List XmlNode) :
    ∀ block ∈ docxOutline nodes, ∀ n ∈ block.level, 1 ≤ n := by
  intro block hblock n hn
  rcases List.mem_filterMap.mp hblock with ⟨node, -, hnode⟩
  unfold docxBlock at hnode
  split at hnode
  · split at hnode
    · cases hnode
    · rw [← Option.some.inj hnode] at hn
      rcases Option.bind_eq_some_iff.mp hn with ⟨style, -, hstyle⟩
      unfold headingStyle at hstyle
      split at hstyle
      · split at hstyle
        · split at hstyle
          · have := Option.some.inj hstyle
            omega
          · cases hstyle
        · cases hstyle
      · cases hstyle
  split at hnode
  · split at hnode
    · cases hnode
    · rw [← Option.some.inj hnode] at hn
      cases hn
  · cases hnode

/-! ### The paths of an HTML document -/

/-- A block with the level of its heading, where it is one. -/
def FoundBlock.outline (block : FoundBlock) : OutlineBlock :=
  { level := if block.kind = .heading then block.headingLevel else none, text := block.text }

/-- The blocks of an HTML document. -/
def htmlOutline (sanitizeHtml : HtmlSanitizer) (sanitized : Text) : List OutlineBlock :=
  htmlRun sanitizeHtml (fun blocks block => blocks ++ [block.outline]) [] (htmlTokens sanitized)

/-- The section paths of the drafts. -/
def htmlSectionPaths (sanitizeHtml : HtmlSanitizer) (sanitized : Text) : List (Option Text) :=
  (structuredBlocks sanitizeHtml sanitized).map (·.sectionPath)

theorem pushDraft_stack (drafts : List BlockDraft) (block : FoundBlock) :
    (pushDraft (drafts, stack) block).2 = stackAfter stack block.outline := by
  rcases block with ⟨kind, headingLevel, text⟩
  cases kind <;> rcases headingLevel with _ | level <;> rfl

/-- The HTML extractor computes the paths of the stack. -/
theorem html_paths (sanitizeHtml : HtmlSanitizer) (sanitized : Text) :
    htmlSectionPaths sanitizeHtml sanitized =
        codePaths [] (htmlOutline sanitizeHtml sanitized) ∧
      ∀ block ∈ htmlOutline sanitizeHtml sanitized, ∀ n ∈ block.level, 1 ≤ n := by
  let R : List BlockDraft × SectionStack → List OutlineBlock → Prop := fun state blocks =>
    state.1.map (·.sectionPath) = codePaths [] blocks ∧ state.2 = blocks.foldl stackAfter [] ∧
      ∀ block ∈ blocks, ∀ n ∈ block.level, 1 ≤ n
  have hpush : ∀ state blocks block, (∀ n ∈ block.headingLevel, 1 ≤ n) → R state blocks →
      R (pushDraft state block) (blocks ++ [FoundBlock.outline block]) := by
    rintro ⟨drafts, stack⟩ blocks block hlevel ⟨hpaths, hstack, hlevels⟩
    refine ⟨?_, ?_, ?_⟩
    · rw [codePaths_append, ← hpaths, ← hstack]
      simp [pushDraft, codePaths]
    · rw [pushDraft_stack, List.foldl_append, ← hstack]
      rfl
    · intro b hb n hn
      rcases List.mem_append.mp hb with hb | hb
      · exact hlevels b hb n hn
      · rw [List.mem_singleton.mp hb] at hn
        unfold FoundBlock.outline at hn
        split at hn
        · exact hlevel n hn
        · cases hn
  have hstart : R ([], []) [] := ⟨rfl, rfl, fun block hb => absurd hb List.not_mem_nil⟩
  have hrun : R (htmlRun sanitizeHtml pushDraft ([], []) (htmlTokens sanitized))
      (htmlOutline sanitizeHtml sanitized) := htmlRun_rel hpush hstart (htmlTokens sanitized)
  exact ⟨hrun.1, hrun.2.2⟩

/-! ### Both extractors -/

/-- **When the section paths follow the outline.**  In either format they do exactly where the levels
of the headings go 1, 2, 3, … in the order of the document, save that a heading at its very end may
be deeper; and documents with one outline have the same section paths in both formats. -/
theorem section_paths_iff (sanitizeHtml : HtmlSanitizer) (nodes : List XmlNode) (sanitized : Text) :
    (docxSectionPaths nodes = enclosingPaths [] (docxOutline nodes) ↔
        InOrder 0 (docxOutline nodes)) ∧
      (htmlSectionPaths sanitizeHtml sanitized =
          enclosingPaths [] (htmlOutline sanitizeHtml sanitized) ↔
        InOrder 0 (htmlOutline sanitizeHtml sanitized)) ∧
      (docxOutline nodes = htmlOutline sanitizeHtml sanitized →
        docxSectionPaths nodes = htmlSectionPaths sanitizeHtml sanitized) := by
  rcases html_paths sanitizeHtml sanitized with ⟨hpaths, hlevels⟩
  rw [docx_paths, hpaths]
  refine ⟨codePaths_eq_iff List.not_mem_nil (docx_levels nodes),
    codePaths_eq_iff List.not_mem_nil hlevels, ?_⟩
  intro h
  rw [h]

/-- A paragraph of a DOCX document, with a style. -/
def docxParagraph (style text : String) : XmlNode :=
  .element (asciiText "p") []
    [.element (asciiText "pPr") []
      [.element (asciiText "pStyle") [(asciiText "val", .string (asciiText style))] []],
      .element (asciiText "r") [] [.element (asciiText "t") [] [.text (.string (asciiText text))]]]

/-- A DOCX document of two headings of the first level. -/
def twoHeadings : List XmlNode :=
  [.element (asciiText "document") []
    [.element (asciiText "body") [] [docxParagraph "Heading1" "A", docxParagraph "Heading1" "B"]]]

/-- **A second heading of one level.**  It closes the first, so neither has a section path; both
extractors say that the second is in the section of the first. -/
theorem second_heading_path :
    docxOutline twoHeadings =
        htmlOutline (fun _ value => value) (asciiText "<h1>A</h1><h1>B</h1>") ∧
      docxSectionPaths twoHeadings ≠ enclosingPaths [] (docxOutline twoHeadings) ∧
      htmlSectionPaths (fun _ value => value) (asciiText "<h1>A</h1><h1>B</h1>") ≠
        enclosingPaths [] (docxOutline twoHeadings) ∧
      enclosingPaths [] (docxOutline twoHeadings) = [none, none] ∧
      docxSectionPaths twoHeadings = [none, some (asciiText "A")] := by
  decide +kernel

end ResearchWorkbench.Extraction
