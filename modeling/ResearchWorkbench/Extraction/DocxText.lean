import ResearchWorkbench.Extraction.HtmlText

namespace ResearchWorkbench.Extraction

open Chunking

/-!
# The text of a DOCX document

Which texts of the document tree come into which block.  Each text node has a position, its number in
the order of the document, so that a text which two walks come to can be told from two equal texts.

* `decodeReferences`, `shownValue` — the text that a text node stands for; `readValue` — what the
  walks take of it;
* `textsAt`, `cellTextsAt`, `rowTextsAt` — the text nodes that the walks over a paragraph, a row and
  a table come to, with their positions;
* `documentTexts`, `blockTexts` — the texts of the document, and those of its blocks; `drafts_text`;
* `ReadRight`, `RowKept`, `TableKept`, `BodyKept` — where the walks come to each text once;
* `docx_text_iff` — the blocks have the texts of the document exactly there.
-/

/-! ### Text nodes -/

/-- The code units of a code point. -/
def codePointUnits (n : ℕ) : Text :=
  if n < 0x10000 then [n] else [0xD800 + (n - 0x10000) / 1024, 0xDC00 + (n - 0x10000) % 1024]

/-- What `&name;` stands for in XML, where it is a reference. -/
def referenceText (name : Text) : Option Text :=
  if name = asciiText "lt" then some [60]
  else if name = asciiText "gt" then some [62]
  else if name = asciiText "quot" then some [34]
  else if name = asciiText "apos" then some [39]
  else if name = asciiText "amp" then some [38]
  else if name.take 2 = asciiText "#x" ∧ name.drop 2 ≠ [] ∧ (name.drop 2).all isHexDigit then
    some (codePointUnits (numeral 16 (name.drop 2)))
  else if name.take 1 = asciiText "#" ∧ name.drop 1 ≠ [] ∧ (name.drop 1).all isDecimalDigit then
    some (codePointUnits (numeral 10 (name.drop 1)))
  else none

/-- A text with its references decoded, from inside a reference on where there is one. -/
def decodeFrom : Option Text → Text → Text
  | none, [] => []
  | some name, [] => 38 :: name
  | none, c :: t => if c = 38 then decodeFrom (some []) t else c :: decodeFrom none t
  | some name, c :: t =>
    if c = 59 then (referenceText name).getD (38 :: (name ++ [59])) ++ decodeFrom none t
    else if c = 38 then 38 :: (name ++ decodeFrom (some []) t)
    else decodeFrom (some (name ++ [c])) t

/-- A text with its references decoded, those by name and those by number. -/
def decodeReferences (value : Text) : Text := decodeFrom none value

/-- The text that a text node stands for. -/
def shownValue : XmlValue → Text
  | .string s => decodeReferences s
  | .number n => n.text
  | .bool b => asciiText (if b then "true" else "false")

/-- What `visibleText` takes of a text node. -/
def readValue : XmlValue → Text
  | .string s => decodeEntities s
  | _ => []

/-! ### The walks -/

mutual

/-- The number of text nodes below a node. -/
def countIn : XmlNode → ℕ
  | .text _ => 1
  | .element _ _ children => textCount children

/-- The number of text nodes. -/
def textCount : List XmlNode → ℕ
  | [] => 0
  | node :: nodes => countIn node + textCount nodes

end

mutual

/-- The text nodes of one node that are inside a `t` element. -/
def textsIn (inside : Bool) (n : ℕ) : XmlNode → List (ℕ × XmlValue)
  | .text value => if inside then [(n, value)] else []
  | .element tag _ children => textsAt (inside || tag = asciiText "t") n children

/-- The text nodes inside a `t` element, with their positions from `n` on; `inside` says that the
nodes are inside one already. -/
def textsAt (inside : Bool) (n : ℕ) : List XmlNode → List (ℕ × XmlValue)
  | [] => []
  | node :: nodes => textsIn inside n node ++ textsAt inside (n + countIn node) nodes

end

mutual

/-- The text nodes of one node that the walks over all cells come to. -/
def cellTextsIn (n : ℕ) : XmlNode → List (ℕ × XmlValue)
  | .text _ => []
  | .element tag _ children =>
    (if tag = asciiText "tc" then textsAt false n children else []) ++ cellTextsAt n children

/-- The text nodes that the walks over all cells come to. -/
def cellTextsAt (n : ℕ) : List XmlNode → List (ℕ × XmlValue)
  | [] => []
  | node :: nodes => cellTextsIn n node ++ cellTextsAt (n + countIn node) nodes

end

mutual

/-- The text nodes of one node that the walks over the cells of all rows come to. -/
def rowTextsIn (n : ℕ) : XmlNode → List (ℕ × XmlValue)
  | .text _ => []
  | .element tag _ children =>
    (if tag = asciiText "tr" then cellTextsAt n children else []) ++ rowTextsAt n children

/-- The text nodes that the walks over the cells of all rows come to. -/
def rowTextsAt (n : ℕ) : List XmlNode → List (ℕ × XmlValue)
  | [] => []
  | node :: nodes => rowTextsIn n node ++ rowTextsAt (n + countIn node) nodes

end

/-- The text nodes that the walks over a node of the body come to. -/
def bodyTextsAt (n : ℕ) (node : XmlNode) : List (ℕ × XmlValue) :=
  if tagName node = some (asciiText "p") then textsAt false n (childNodes node)
  else if tagName node = some (asciiText "tbl") then rowTextsAt n (childNodes node)
  else []

/-- The texts of some text nodes up to white space; those without a visible character are left
out. -/
def shownTexts (read : XmlValue → Text) (texts : List (ℕ × XmlValue)) : List (ℕ × Text) :=
  (texts.map fun p => (p.1, visibleUnits (read p.2))).filter fun p => p.2 ≠ []

/-- The texts of the document: those inside a `t` element below the body. -/
def documentTexts (body : List XmlNode) : List (ℕ × Text) :=
  shownTexts shownValue (textsAt false 0 body)

/-- The text nodes that the walks over the body come to. -/
def walkedTexts : ℕ → List XmlNode → List (ℕ × XmlValue)
  | _, [] => []
  | n, node :: body => bodyTextsAt n node ++ walkedTexts (n + countIn node) body

/-- What each node of the body adds, with the positions from `n` on. -/
def bodyTextsFrom : ℕ → List XmlNode → List (List (ℕ × Text))
  | _, [] => []
  | n, node :: body =>
    shownTexts readValue (bodyTextsAt n node) :: bodyTextsFrom (n + countIn node) body

/-- The texts of the blocks, block by block. -/
def blockTexts (body : List XmlNode) : List (List (ℕ × Text)) :=
  (bodyTextsFrom 0 body).filter fun texts => texts ≠ []

/-! ### What the blocks must be -/

/-- Induction over a list of nodes: what holds of the children of an element and of what comes after
it holds of the list. -/
@[elab_as_elim]
theorem nodes_induct {motive : List XmlNode → Prop} (nil : motive [])
    (text : ∀ value nodes, motive nodes → motive (.text value :: nodes))
    (element : ∀ tag attributes children nodes, motive children → motive nodes →
      motive (.element tag attributes children :: nodes)) (nodes : List XmlNode) : motive nodes := by
  refine @XmlNode.rec_1 (fun node => ∀ nodes, motive nodes → motive (node :: nodes)) motive ?_ ?_
    nil ?_ nodes
  · intro value nodes h
    exact text value nodes h
  · intro tag attributes children hchildren nodes h
    exact element tag attributes children nodes hchildren h
  · intro node nodes hnode h
    exact hnode nodes h

mutual

/-- The same of one node. -/
def NoTextIn (inside : Bool) : XmlNode → Prop
  | .text value => inside = true → visibleUnits (shownValue value) = []
  | .element tag _ children => NoText (inside || tag = asciiText "t") children

/-- No text inside a `t` element has a visible character. -/
def NoText (inside : Bool) : List XmlNode → Prop
  | [] => True
  | node :: nodes => NoTextIn inside node ∧ NoText inside nodes

end

mutual

/-- The same of one node. -/
def ReadRightIn (reads inside : Bool) : XmlNode → Prop
  | .text value =>
    if reads then visibleUnits (readValue value) = visibleUnits (shownValue value)
    else inside = true → visibleUnits (shownValue value) = []
  | .element tag _ children =>
    ReadRight (reads || tag = asciiText "t") (inside || tag = asciiText "t") children

/-- What `visibleText` takes of each text is what the text stands for.  `reads` says that the walk is
inside a `t` element, `inside` that the node is. -/
def ReadRight (reads inside : Bool) : List XmlNode → Prop
  | [] => True
  | node :: nodes => ReadRightIn reads inside node ∧ ReadRight reads inside nodes

end

/-- No cell has text. -/
def NoCellText (nodes : List XmlNode) : Prop :=
  ∀ cell ∈ nodesByTag (asciiText "tc") nodes, visibleText (childNodes cell) = []

/-- No row has a cell with text. -/
def NoRowText (nodes : List XmlNode) : Prop :=
  ∀ row ∈ nodesByTag (asciiText "tr") nodes, NoCellText (childNodes row)

mutual

/-- The same of one node. -/
def RowKeptIn (inside : Bool) : XmlNode → Prop
  | .text value => inside = true → visibleUnits (shownValue value) = []
  | .element tag _ children =>
    if tag = asciiText "tc" then NoCellText children ∧ ReadRight false inside children
    else RowKept (inside || tag = asciiText "t") children

/-- In a row: each text is in a cell, is read right, and is in no cell of a cell. -/
def RowKept (inside : Bool) : List XmlNode → Prop
  | [] => True
  | node :: nodes => RowKeptIn inside node ∧ RowKept inside nodes

end

mutual

/-- The same of one node. -/
def TableKeptIn (inside : Bool) : XmlNode → Prop
  | .text value => inside = true → visibleUnits (shownValue value) = []
  | .element tag _ children =>
    if tag = asciiText "tr" then NoRowText children ∧ RowKept inside children
    else TableKept (inside || tag = asciiText "t") children

/-- In a table: each text is in a row, is kept there, and is in no row of a row. -/
def TableKept (inside : Bool) : List XmlNode → Prop
  | [] => True
  | node :: nodes => TableKeptIn inside node ∧ TableKept inside nodes

end

/-- In the body: each text is in a paragraph or in a table of the body, and is kept there. -/
def BodyKept (body : List XmlNode) : Prop :=
  ∀ node ∈ body,
    if tagName node = some (asciiText "p") then ReadRight false false (childNodes node)
    else if tagName node = some (asciiText "tbl") then TableKept false (childNodes node)
    else NoText false [node]

/-! ### Positions -/

variable {nodes body : List XmlNode} {inside reads : Bool} {n k : ℕ} {p : ℕ × XmlValue}
  {read : XmlValue → Text}

theorem textsAt_range (h : p ∈ textsAt inside n nodes) : n ≤ p.1 ∧ p.1 < n + textCount nodes := by
  induction nodes using nodes_induct generalizing inside n with
  | nil => exact absurd h List.not_mem_nil
  | text value nodes ih =>
    rw [textCount, countIn]
    rcases List.mem_append.mp h with h | h
    · rw [textsIn] at h
      split at h
      · rw [List.mem_singleton.mp h]
        simp only
        omega
      · exact absurd h List.not_mem_nil
    · have := ih h
      rw [countIn] at this
      omega
  | element tag attributes children nodes ihc ih =>
    rw [textCount, countIn]
    rcases List.mem_append.mp h with h | h
    · have := ihc h
      omega
    · have := ih h
      rw [countIn] at this
      omega

/-- More is inside a `t` element where the walk begins inside one. -/
theorem textsAt_subset (himp : reads = true → inside = true) :
    textsAt reads n nodes ⊆ textsAt inside n nodes := by
  induction nodes using nodes_induct generalizing reads inside n with
  | nil => exact fun _ h => h
  | text value nodes ih =>
    refine List.append_subset.mpr ⟨?_, ?_⟩
    · intro p hp
      rw [textsIn] at hp
      split at hp
      · rename_i hreads
        rw [textsAt, textsIn, if_pos (himp hreads)]
        exact List.mem_append_left _ hp
      · exact absurd hp List.not_mem_nil
    · exact List.subset_append_of_subset_right _ (ih himp)
  | element tag attributes children nodes ihc ih =>
    refine List.append_subset.mpr ⟨?_, ?_⟩
    · refine List.subset_append_of_subset_left _ (ihc ?_)
      simp only [Bool.or_eq_true]
      rintro (h | h)
      · exact .inl (himp h)
      · exact .inr h
    · exact List.subset_append_of_subset_right _ (ih himp)

theorem cellTextsAt_subset : cellTextsAt n nodes ⊆ textsAt inside n nodes := by
  induction nodes using nodes_induct generalizing inside n with
  | nil => exact fun _ h => h
  | text value nodes ih => exact List.subset_append_of_subset_right _ ih
  | element tag attributes children nodes ihc ih =>
    refine List.append_subset.mpr ⟨List.append_subset.mpr ⟨?_, ?_⟩, ?_⟩
    · refine List.subset_append_of_subset_left _ ?_
      split
      · exact textsAt_subset (by simp)
      · exact List.nil_subset _
    · exact List.subset_append_of_subset_left _ ihc
    · exact List.subset_append_of_subset_right _ ih

theorem rowTextsAt_subset : rowTextsAt n nodes ⊆ cellTextsAt n nodes := by
  induction nodes using nodes_induct generalizing n with
  | nil => exact fun _ h => h
  | text value nodes ih => exact ih
  | element tag attributes children nodes ihc ih =>
    have hcells : cellTextsAt n children ⊆ (if tag = asciiText "tc" then
        textsAt false n children else []) ++ cellTextsAt n children :=
      List.subset_append_right _ _
    refine List.append_subset.mpr ⟨List.append_subset.mpr ⟨?_, ?_⟩, ?_⟩
    · refine List.subset_append_of_subset_left _ ?_
      split
      · exact hcells
      · exact List.nil_subset _
    · exact List.subset_append_of_subset_left _ (List.Subset.trans ihc hcells)
    · exact List.subset_append_of_subset_right _ ih

/-- No position comes twice. -/
theorem textsAt_pairwise : (textsAt inside n nodes).Pairwise fun p q => p.1 < q.1 := by
  induction nodes using nodes_induct generalizing inside n with
  | nil => exact .nil
  | text value nodes ih =>
    refine List.pairwise_append.mpr ⟨by rw [textsIn]; split <;> simp, ih, ?_⟩
    intro p hp q hq
    rw [textsIn] at hp
    split at hp
    · rw [List.mem_singleton.mp hp]
      have := textsAt_range hq
      rw [countIn] at this
      simp only
      omega
    · exact absurd hp List.not_mem_nil
  | element tag attributes children nodes ihc ih =>
    refine List.pairwise_append.mpr ⟨ihc, ih, ?_⟩
    intro p hp q hq
    have hfirst := textsAt_range hp
    have hrest := textsAt_range hq
    rw [countIn] at hrest
    omega

/-! ### Texts that are shown -/

theorem shownTexts_append (l l' : List (ℕ × XmlValue)) :
    shownTexts read (l ++ l') = shownTexts read l ++ shownTexts read l' := by
  unfold shownTexts
  rw [List.map_append, List.filter_append]

theorem mem_shownTexts {l : List (ℕ × XmlValue)} {q : ℕ × Text} (h : q ∈ shownTexts read l) :
    ∃ p ∈ l, (p.1, visibleUnits (read p.2)) = q := by
  rcases List.mem_map.mp (List.mem_filter.mp h).1 with ⟨p, hp, heq⟩
  exact ⟨p, hp, heq⟩

theorem shownTexts_subset {l l' : List (ℕ × XmlValue)} (h : l ⊆ l') :
    shownTexts read l ⊆ shownTexts read l' := by
  intro q hq
  rcases List.mem_filter.mp hq with ⟨hmem, hne⟩
  exact List.mem_filter.mpr ⟨List.map_subset _ h hmem, hne⟩

theorem shownTexts_nodup {l : List (ℕ × XmlValue)} (h : l.Pairwise fun p q => p.1 < q.1) :
    (shownTexts read l).Nodup := by
  refine List.Nodup.filter _ (List.pairwise_map.mpr ?_)
  refine h.imp fun hlt heq => ?_
  rw [(Prod.mk.inj heq).1] at hlt
  exact absurd hlt (lt_irrefl _)

/-- Two lists in two parts, with all positions of the first parts before those of the second. -/
theorem append_inj_of_lt {A B C D : List (ℕ × Text)} (hA : ∀ q ∈ A, q.1 < k) (hC : ∀ q ∈ C, q.1 < k)
    (hB : ∀ q ∈ B, k ≤ q.1) (hD : ∀ q ∈ D, k ≤ q.1) : A ++ B = C ++ D ↔ A = C ∧ B = D := by
  have hfirst : ∀ X Y : List (ℕ × Text), (∀ q ∈ X, q.1 < k) → (∀ q ∈ Y, k ≤ q.1) →
      (X ++ Y).filter (fun q => q.1 < k) = X := by
    intro X Y hX hY
    have hXs : X.filter (fun q => decide (q.1 < k)) = X :=
      List.filter_eq_self.mpr fun q hq => by simpa using hX q hq
    have hYs : Y.filter (fun q => decide (q.1 < k)) = [] :=
      List.filter_eq_nil_iff.mpr fun q hq => by simpa using hY q hq
    rw [List.filter_append, hXs, hYs, List.append_nil]
  constructor
  · intro h
    have hAC : A = C := by rw [← hfirst A B hA hB, h, hfirst C D hC hD]
    rw [hAC] at h
    exact ⟨hAC, List.append_cancel_left h⟩
  · rintro ⟨rfl, rfl⟩
    rfl

/-- Texts that come a second time are too many. -/
theorem shownTexts_append_eq_iff {l l' : List (ℕ × XmlValue)} {texts : List (ℕ × Text)}
    (hsub : l' ⊆ l) (hnodup : texts.Nodup) :
    shownTexts read (l ++ l') = texts ↔ shownTexts read l' = [] ∧ shownTexts read l = texts := by
  rw [shownTexts_append]
  constructor
  · intro h
    have hnone : shownTexts read l' = [] := by
      refine List.eq_nil_iff_forall_not_mem.mpr fun q hq => ?_
      rw [← h] at hnodup
      exact (List.nodup_append.mp hnodup).2.2 q (shownTexts_subset hsub hq) q hq rfl
    rw [hnone, List.append_nil] at h
    exact ⟨hnone, h⟩
  · rintro ⟨hnone, h⟩
    rw [hnone, List.append_nil, h]

/-! ### Where the walks come to each text once -/

theorem shownTexts_range {l : List (ℕ × XmlValue)} (hsub : l ⊆ textsAt inside n nodes)
    {q : ℕ × Text} (h : q ∈ shownTexts read l) : n ≤ q.1 ∧ q.1 < n + textCount nodes := by
  rcases mem_shownTexts h with ⟨p, hp, rfl⟩
  exact textsAt_range (hsub hp)

/-- What a walk comes to is what the document has if it is so in each node and in what comes after
it. -/
theorem shownTexts_cons_iff {node : XmlNode} {walked walked' : List (ℕ × XmlValue)}
    (hnode : walked ⊆ textsIn inside n node)
    (hrest : walked' ⊆ textsAt inside (n + countIn node) nodes) :
    shownTexts readValue (walked ++ walked') =
        shownTexts shownValue (textsAt inside n (node :: nodes)) ↔
      shownTexts readValue walked = shownTexts shownValue (textsIn inside n node) ∧
        shownTexts readValue walked' =
          shownTexts shownValue (textsAt inside (n + countIn node) nodes) := by
  have hone : textsIn inside n node ⊆ textsAt inside n [node] :=
    List.subset_append_left _ _
  have hfirst : ∀ {read : XmlValue → Text} {l : List (ℕ × XmlValue)}, l ⊆ textsIn inside n node →
      ∀ q ∈ shownTexts read l, q.1 < n + countIn node := by
    intro read l hl q hq
    have := shownTexts_range (List.Subset.trans hl hone) hq
    rw [textCount, textCount] at this
    omega
  rw [shownTexts_append, textsAt, shownTexts_append]
  exact append_inj_of_lt (hfirst hnode) (hfirst (List.Subset.refl _))
    (fun q hq => (shownTexts_range hrest hq).1)
    (fun q hq => (shownTexts_range (List.Subset.refl _) hq).1)

theorem shownTexts_single (value : XmlValue) :
    shownTexts read [(n, value)] = [] ↔ visibleUnits (read value) = [] := by
  simp [shownTexts]

theorem shownTexts_text_iff (value : XmlValue) :
    [] = shownTexts shownValue (textsIn inside n (.text value)) ↔
      (inside = true → visibleUnits (shownValue value) = []) := by
  rw [textsIn]
  split
  · rename_i h
    rw [eq_comm, shownTexts_single]
    simp [h]
  · rename_i h
    simp [h, shownTexts]

/-- Where nothing is walked. -/
theorem noText_iff : [] = shownTexts shownValue (textsAt inside n nodes) ↔ NoText inside nodes := by
  induction nodes using nodes_induct generalizing inside n with
  | nil => exact iff_of_true rfl trivial
  | text value nodes ih =>
    have hcons := @shownTexts_cons_iff nodes inside n (.text value) [] [] (List.nil_subset _)
      (List.nil_subset _)
    exact (hcons.trans (and_congr (shownTexts_text_iff value) ih))
  | element tag attributes children nodes ihc ih =>
    have hcons := @shownTexts_cons_iff nodes inside n (.element tag attributes children) [] []
      (List.nil_subset _) (List.nil_subset _)
    exact hcons.trans (and_congr ihc ih)

/-- The walk over a paragraph or a cell. -/
theorem readRight_iff (himp : reads = true → inside = true) :
    shownTexts readValue (textsAt reads n nodes) = shownTexts shownValue (textsAt inside n nodes) ↔
      ReadRight reads inside nodes := by
  induction nodes using nodes_induct generalizing reads inside n with
  | nil => exact iff_of_true rfl trivial
  | text value nodes ih =>
    have hnode : textsIn reads n (.text value) ⊆ textsIn inside n (.text value) := by
      rw [textsIn, textsIn]
      split
      · rename_i h
        rw [if_pos (himp h)]
        exact List.Subset.refl _
      · exact List.nil_subset _
    have hcons := shownTexts_cons_iff hnode (@textsAt_subset nodes inside reads
      (n + countIn (.text value)) himp)
    refine hcons.trans (and_congr ?_ (ih himp))
    rw [ReadRightIn]
    split
    · rename_i h
      rw [textsIn, textsIn, if_pos h, if_pos (himp h)]
      simp only [shownTexts, List.map_cons, List.map_nil, List.filter_cons, List.filter_nil]
      by_cases hread : visibleUnits (readValue value) = [] <;>
        by_cases hshown : visibleUnits (shownValue value) = [] <;>
        simp [hread, hshown, eq_comm]
    · rename_i h
      rw [show textsIn reads n (.text value) = [] by rw [textsIn, if_neg h]]
      exact shownTexts_text_iff value
  | element tag attributes children nodes ihc ih =>
    have himp' : (reads || decide (tag = asciiText "t")) = true →
        (inside || decide (tag = asciiText "t")) = true := by
      simp only [Bool.or_eq_true]
      rintro (h | h)
      · exact .inl (himp h)
      · exact .inr h
    have hnode : textsIn reads n (.element tag attributes children) ⊆
        textsIn inside n (.element tag attributes children) := textsAt_subset himp'
    have hcons := shownTexts_cons_iff hnode (@textsAt_subset nodes inside reads
      (n + countIn (.element tag attributes children)) himp)
    exact hcons.trans (and_congr (ihc himp') (ih himp))

/-! ### What the walks take -/

theorem flatMap_shownTexts (l : List (ℕ × XmlValue)) :
    (shownTexts read l).flatMap Prod.snd = l.flatMap fun p => visibleUnits (read p.2) := by
  induction l with
  | nil => rfl
  | cons p l ih =>
    have hsplit : shownTexts read (p :: l) = shownTexts read [p] ++ shownTexts read l :=
      shownTexts_append [p] l
    rw [hsplit, List.flatMap_append, ih, List.flatMap_cons]
    by_cases h : visibleUnits (read p.2) = [] <;> simp [shownTexts, h]

theorem shownTexts_eq_nil_iff (l : List (ℕ × XmlValue)) :
    shownTexts read l = [] ↔ (shownTexts read l).flatMap Prod.snd = [] := by
  constructor
  · intro h
    rw [h]
    rfl
  · intro h
    refine List.eq_nil_iff_forall_not_mem.mpr fun q hq => ?_
    have hne : q.2 ≠ [] := by simpa using (List.mem_filter.mp hq).2
    exact hne (List.flatMap_eq_nil_iff.mp h q hq)

/-- The walk over a paragraph or a cell takes the texts that it comes to. -/
theorem visit_text (n : ℕ) :
    visibleUnits (visit reads nodes) =
      (shownTexts readValue (textsAt reads n nodes)).flatMap Prod.snd := by
  rw [flatMap_shownTexts]
  induction nodes using nodes_induct generalizing reads n with
  | nil => rfl
  | text value nodes ih =>
    rw [visit, visibleUnits_append, ih (n + countIn (.text value)), textsAt, List.flatMap_append]
    congr 1
    rw [textsIn]
    rcases value with s | m | b
    · rw [visitNode]
      split
      · simp [readValue]
      · rfl
    · split <;> rfl
    · split <;> rfl
  | element tag attributes children nodes ihc ih =>
    rw [visit, visibleUnits_append, ih (n + countIn (.element tag attributes children)), textsAt,
      List.flatMap_append]
    congr 1
    rw [visitNode, visibleUnits_append, ihc n, textsIn]
    -- a tab and a line break are white space
    have hblank : visibleUnits (if tag = asciiText "tab" then [9]
        else if tag = asciiText "br" ∨ tag = asciiText "cr" then [10] else []) = [] := by
      split
      · rfl
      split <;> rfl
    rw [hblank, List.nil_append]

theorem visibleUnits_visibleText (n : ℕ) :
    visibleUnits (visibleText nodes) =
      (shownTexts readValue (textsAt false n nodes)).flatMap Prod.snd := by
  rw [visibleText, visibleUnits_blockText, visit_text n]

theorem visibleText_eq_nil_iff (n : ℕ) :
    visibleText nodes = [] ↔ shownTexts readValue (textsAt false n nodes) = [] := by
  rw [visibleText, blockText_eq_nil_iff, visit_text n, ← shownTexts_eq_nil_iff]

/-- What the cells have. -/
theorem cells_text (n : ℕ) :
    ((nodesByTag (asciiText "tc") nodes).flatMap fun cell =>
        visibleUnits (visibleText (childNodes cell))) =
      (shownTexts readValue (cellTextsAt n nodes)).flatMap Prod.snd := by
  induction nodes using nodes_induct generalizing n with
  | nil => rfl
  | text value nodes ih => exact ih (n + countIn (.text value))
  | element tag attributes children nodes ihc ih =>
    rw [nodesByTag, nodesByTagAt, cellTextsAt, cellTextsIn, shownTexts_append, shownTexts_append]
    simp only [List.flatMap_append]
    rw [ihc n, ih (n + countIn (.element tag attributes children))]
    congr 2
    split
    · rw [List.flatMap_singleton]
      exact visibleUnits_visibleText n
    · rfl

/-- What the cells of the rows have. -/
theorem rows_text (n : ℕ) :
    ((nodesByTag (asciiText "tr") nodes).flatMap fun row =>
        (nodesByTag (asciiText "tc") (childNodes row)).flatMap fun cell =>
          visibleUnits (visibleText (childNodes cell))) =
      (shownTexts readValue (rowTextsAt n nodes)).flatMap Prod.snd := by
  induction nodes using nodes_induct generalizing n with
  | nil => rfl
  | text value nodes ih => exact ih (n + countIn (.text value))
  | element tag attributes children nodes ihc ih =>
    rw [nodesByTag, nodesByTagAt, rowTextsAt, rowTextsIn, shownTexts_append, shownTexts_append]
    simp only [List.flatMap_append]
    rw [ihc n, ih (n + countIn (.element tag attributes children))]
    congr 2
    split
    · rw [List.flatMap_singleton]
      exact cells_text n
    · rfl

theorem noCellText_iff (n : ℕ) :
    shownTexts readValue (cellTextsAt n nodes) = [] ↔ NoCellText nodes := by
  rw [shownTexts_eq_nil_iff, ← cells_text n, List.flatMap_eq_nil_iff]
  refine forall₂_congr fun cell _ => ?_
  rw [visibleText, visibleUnits_blockText, blockText_eq_nil_iff]

theorem noRowText_iff (n : ℕ) :
    shownTexts readValue (rowTextsAt n nodes) = [] ↔ NoRowText nodes := by
  rw [shownTexts_eq_nil_iff, ← rows_text n, List.flatMap_eq_nil_iff]
  refine forall₂_congr fun row _ => ?_
  rw [cells_text 0, ← shownTexts_eq_nil_iff, noCellText_iff]

/-! ### Rows, tables and the body -/

theorem rowKept_iff :
    shownTexts readValue (cellTextsAt n nodes) = shownTexts shownValue (textsAt inside n nodes) ↔
      RowKept inside nodes := by
  induction nodes using nodes_induct generalizing inside n with
  | nil => exact iff_of_true rfl trivial
  | text value nodes ih =>
    have hcons := @shownTexts_cons_iff nodes inside n (.text value) [] _ (List.nil_subset _)
      cellTextsAt_subset
    exact hcons.trans (and_congr (shownTexts_text_iff value) ih)
  | element tag attributes children nodes ihc ih =>
    have hsub : cellTextsIn n (.element tag attributes children) ⊆
        textsIn inside n (.element tag attributes children) := by
      have hone := @cellTextsAt_subset [.element tag attributes children] inside n
      rwa [cellTextsAt, textsAt, cellTextsAt, textsAt, List.append_nil, List.append_nil] at hone
    have hcons := @shownTexts_cons_iff nodes inside n (.element tag attributes children) _ _ hsub
      cellTextsAt_subset
    refine hcons.trans (and_congr ?_ ih)
    rw [cellTextsIn, textsIn, RowKeptIn]
    split
    · -- the walk over the cell comes to all its texts, so a cell in it would repeat some
      rename_i htc
      have hinside : (inside || decide (tag = asciiText "t")) = inside := by
        subst htc
        simp [asciiText]
      rw [hinside, shownTexts_append_eq_iff cellTextsAt_subset (shownTexts_nodup textsAt_pairwise),
        noCellText_iff, readRight_iff (by simp)]
    · exact ihc

theorem rowTextsAt_subset_textsAt : rowTextsAt n nodes ⊆ textsAt inside n nodes :=
  List.Subset.trans rowTextsAt_subset cellTextsAt_subset

theorem tableKept_iff :
    shownTexts readValue (rowTextsAt n nodes) = shownTexts shownValue (textsAt inside n nodes) ↔
      TableKept inside nodes := by
  induction nodes using nodes_induct generalizing inside n with
  | nil => exact iff_of_true rfl trivial
  | text value nodes ih =>
    have hcons := @shownTexts_cons_iff nodes inside n (.text value) [] _ (List.nil_subset _)
      rowTextsAt_subset_textsAt
    exact hcons.trans (and_congr (shownTexts_text_iff value) ih)
  | element tag attributes children nodes ihc ih =>
    have hsub : rowTextsIn n (.element tag attributes children) ⊆
        textsIn inside n (.element tag attributes children) := by
      have hone := @rowTextsAt_subset_textsAt [.element tag attributes children] inside n
      rwa [rowTextsAt, textsAt, rowTextsAt, textsAt, List.append_nil, List.append_nil] at hone
    have hcons := @shownTexts_cons_iff nodes inside n (.element tag attributes children) _ _ hsub
      rowTextsAt_subset_textsAt
    refine hcons.trans (and_congr ?_ ih)
    rw [rowTextsIn, textsIn, TableKeptIn]
    split
    · -- the walk over the row comes to all its cells, so a row in it would repeat some
      rename_i htr
      have hinside : (inside || decide (tag = asciiText "t")) = inside := by
        subst htr
        simp [asciiText]
      rw [hinside, shownTexts_append_eq_iff rowTextsAt_subset (shownTexts_nodup textsAt_pairwise),
        noRowText_iff, rowKept_iff]
    · exact ihc

theorem bodyTextsAt_subset (n : ℕ) (node : XmlNode) : bodyTextsAt n node ⊆ textsIn false n node := by
  unfold bodyTextsAt
  rcases node with value | ⟨tag, attributes, children⟩
  · exact List.nil_subset _
  · split
    · exact textsAt_subset (by simp)
    split
    · exact rowTextsAt_subset_textsAt
    · exact List.nil_subset _

theorem walkedTexts_subset : walkedTexts n body ⊆ textsAt false n body := by
  induction body generalizing n with
  | nil => exact List.Subset.refl _
  | cons node body ih =>
    refine List.append_subset.mpr ⟨?_, ?_⟩
    · exact List.subset_append_of_subset_left _ (bodyTextsAt_subset n node)
    · exact List.subset_append_of_subset_right _ ih

/-- One node of the body. -/
theorem bodyTextsAt_iff (n : ℕ) (node : XmlNode) :
    shownTexts readValue (bodyTextsAt n node) = shownTexts shownValue (textsIn false n node) ↔
      if tagName node = some (asciiText "p") then ReadRight false false (childNodes node)
      else if tagName node = some (asciiText "tbl") then TableKept false (childNodes node)
      else NoText false [node] := by
  have hnone : [] = shownTexts shownValue (textsIn false n node) ↔ NoText false [node] := by
    have hone := @noText_iff [node] false n
    rwa [textsAt, textsAt, List.append_nil] at hone
  unfold bodyTextsAt
  rcases node with value | ⟨tag, attributes, children⟩
  · exact hnone
  · split
    · rename_i hp
      have htag : decide (tag = asciiText "t") = false := by
        rw [Option.some.inj hp]
        decide
      rw [textsIn, htag]
      exact readRight_iff (by simp)
    split
    · rename_i htbl
      have htag : decide (tag = asciiText "t") = false := by
        rw [Option.some.inj htbl]
        decide
      rw [textsIn, htag]
      exact tableKept_iff
    · exact hnone

theorem walkedTexts_iff :
    shownTexts readValue (walkedTexts n body) = shownTexts shownValue (textsAt false n body) ↔
      BodyKept body := by
  induction body generalizing n with
  | nil => exact iff_of_true rfl fun node h => absurd h List.not_mem_nil
  | cons node body ih =>
    rw [walkedTexts, shownTexts_cons_iff (bodyTextsAt_subset n node) walkedTexts_subset,
      bodyTextsAt_iff, ih]
    unfold BodyKept
    rw [List.forall_mem_cons]

theorem flatten_blockTexts : (blockTexts body).flatten = shownTexts readValue (walkedTexts 0 body) := by
  have hfrom : ∀ n, ((bodyTextsFrom n body).filter fun texts => texts ≠ []).flatten =
      shownTexts readValue (walkedTexts n body) := by
    induction body with
    | nil => exact fun _ => rfl
    | cons node body ih =>
      intro n
      rw [bodyTextsFrom, walkedTexts, shownTexts_append, List.filter_cons]
      split
      · rw [List.flatten_cons, ih]
      · rename_i h
        rw [ih, show shownTexts readValue (bodyTextsAt n node) = [] by simpa using h]
        rfl
  exact hfrom 0

/-! ### The blocks -/

theorem visibleUnits_intercalate {separator : Text} (hseparator : visibleUnits separator = [])
    (parts : List Text) :
    visibleUnits (List.intercalate separator parts) = parts.flatMap visibleUnits := by
  induction parts with
  | nil => rfl
  | cons part parts ih =>
    rcases parts with _ | ⟨next, parts⟩
    · simp
    · rw [List.intercalate_cons_cons, visibleUnits_append, visibleUnits_append, ih, hseparator,
        List.append_nil]
      rfl

/-- What a table has, before it is trimmed. -/
theorem visibleUnits_tableText (n : ℕ) (node : XmlNode) :
    visibleUnits (List.intercalate [10] ((tableRows node).filter fun row => row ≠ [])) =
      (shownTexts readValue (rowTextsAt n (childNodes node))).flatMap Prod.snd := by
  have hrows : ∀ rows : List Text,
      (rows.filter fun row => row ≠ []).flatMap visibleUnits = rows.flatMap visibleUnits := by
    intro rows
    induction rows with
    | nil => rfl
    | cons row rows ih =>
      rw [List.filter_cons]
      split
      · rw [List.flatMap_cons, ih, List.flatMap_cons]
      · rename_i h
        rw [ih, List.flatMap_cons, show row = [] by simpa using h]
        rfl
  rw [visibleUnits_intercalate rfl, hrows, tableRows, List.flatMap_map, ← rows_text n]
  refine List.flatMap_congr fun row _ => ?_
  rw [visibleUnits_intercalate rfl, List.flatMap_map]

theorem filter_single {texts : List (ℕ × Text)} (h : texts ≠ []) :
    ([texts].filter fun texts => texts ≠ []) = [texts] :=
  List.filter_eq_self.mpr fun l hl => by simpa [List.mem_singleton.mp hl] using h

/-- One node of the body adds a block where it has text. -/
theorem docxStep_text (s : DocxState) (n : ℕ) (node : XmlNode) :
    (docxStep s node).drafts.map (fun draft => visibleUnits draft.text) =
      s.drafts.map (fun draft => visibleUnits draft.text) ++
        ([shownTexts readValue (bodyTextsAt n node)].filter fun texts => texts ≠ []).map
          (·.flatMap Prod.snd) := by
  unfold docxStep bodyTextsAt
  split
  · -- a paragraph
    unfold paragraphDraft
    simp only
    split
    · rename_i hblank
      rw [(visibleText_eq_nil_iff n).mp hblank]
      simp
    · rename_i htext
      rw [filter_single fun h => htext ((visibleText_eq_nil_iff n).mpr h)]
      simp [visibleUnits_visibleText n]
  split
  · -- a table
    unfold tableDraft
    simp only
    have htable := visibleUnits_tableText n node
    split
    · rename_i hblank
      have hnone : shownTexts readValue (rowTextsAt n (childNodes node)) = [] := by
        rw [shownTexts_eq_nil_iff, ← htable, ← visibleUnits_trimText]
        exact congrArg visibleUnits hblank
      rw [hnone]
      simp
    · rename_i htext
      have hne : shownTexts readValue (rowTextsAt n (childNodes node)) ≠ [] := by
        intro h
        rw [shownTexts_eq_nil_iff, ← htable] at h
        exact htext (trimText_eq_nil h)
      have hunits : visibleUnits (tableText node) =
          (shownTexts readValue (rowTextsAt n (childNodes node))).flatMap Prod.snd := by
        rw [tableText, visibleUnits_trimText, htable]
      rw [filter_single hne]
      simp [hunits]
  split <;> simp [shownTexts]

/-- The blocks have the texts that the walks come to. -/
theorem drafts_text {drafts : List BlockDraft} {count : ℕ}
    (h : documentDrafts nodes = .ok (drafts, count)) :
    drafts.map (fun draft => visibleUnits draft.text) =
      (blockTexts (bodyNodes nodes)).map (·.flatMap Prod.snd) := by
  have hrun : ∀ (body : List XmlNode) (s : DocxState) (n : ℕ),
      (body.foldl docxStep s).drafts.map (fun draft => visibleUnits draft.text) =
        s.drafts.map (fun draft => visibleUnits draft.text) ++
          ((bodyTextsFrom n body).filter fun texts => texts ≠ []).map (·.flatMap Prod.snd) := by
    intro body
    induction body with
    | nil => simp [bodyTextsFrom]
    | cons node body ih =>
      intro s n
      have hone : (bodyTextsFrom n (node :: body)).filter (fun texts => texts ≠ []) =
          ([shownTexts readValue (bodyTextsAt n node)].filter fun texts => texts ≠ []) ++
            (bodyTextsFrom (n + countIn node) body).filter fun texts => texts ≠ [] := by
        rw [bodyTextsFrom, ← List.filter_append]
        rfl
      rw [List.foldl_cons, ih _ (n + countIn node), docxStep_text s n, hone, List.map_append,
        List.append_assoc]
  unfold documentDrafts at h
  unfold bodyNodes
  rcases hbody : nodesByTag (asciiText "body") nodes with _ | ⟨body, rest⟩
  · rw [hbody] at h
    cases h
  · rw [hbody] at h
    simp only [Except.ok.injEq, Prod.mk.injEq] at h
    rw [← h.1]
    exact hrun (childNodes body) {} 0

/-- **When the text of a DOCX document is neither lost nor repeated.**  Every block has the texts that
its walk comes to.  Each text of the document is in the blocks once, in its order and with its
references decoded, exactly where each is in a paragraph or a table of the body, each text of a table
is in one cell of one row, and each is a string that the walk reads right. -/
theorem docx_text_iff {nodes : List XmlNode} {drafts : List BlockDraft} {count : ℕ}
    (h : documentDrafts nodes = .ok (drafts, count)) :
    drafts.map (fun draft => visibleUnits draft.text) =
        (blockTexts (bodyNodes nodes)).map (·.flatMap Prod.snd) ∧
      ((blockTexts (bodyNodes nodes)).flatten = documentTexts (bodyNodes nodes) ↔
        BodyKept (bodyNodes nodes)) := by
  refine ⟨drafts_text h, ?_⟩
  rw [flatten_blockTexts, documentTexts]
  exact walkedTexts_iff

/-- A document with the nodes in its body. -/
def docxDocument (body : List XmlNode) : List XmlNode :=
  [.element (asciiText "document") [] [.element (asciiText "body") [] body]]

/-- A paragraph with one text. -/
def plainParagraph (value : XmlValue) : XmlNode :=
  .element (asciiText "p") []
    [.element (asciiText "r") [] [.element (asciiText "t") [] [.text value]]]

/-- A table with one cell. -/
def oneCellTable (cell : List XmlNode) : XmlNode :=
  .element (asciiText "tbl") []
    [.element (asciiText "tr") [] [.element (asciiText "tc") [] cell]]

/-- A paragraph and a table with a cell. -/
def plainDocument : List XmlNode :=
  docxDocument [plainParagraph (.string (asciiText "A")),
    oneCellTable [plainParagraph (.string (asciiText "B"))]]

/-- The texts of a paragraph and of a cell are kept. -/
theorem plainDocument_kept : BodyKept (bodyNodes plainDocument) := by
  have hdrafts : documentDrafts plainDocument =
      .ok ([{ kind := .paragraph, text := asciiText "A", paragraphIndex := some 0 },
        { kind := .table, text := asciiText "B" }], 1) := by
    decide +kernel
  exact (docx_text_iff hdrafts).2.mp (by decide +kernel)

/-- **A number and a table in a cell.**  A run whose whole text is a number is in no block, and the
text of a table in a cell is in its block three times. -/
theorem number_lost_and_cell_repeated :
    documentDrafts (docxDocument [plainParagraph (.number (.nonzero false 42 2 (by decide)))]) =
        .ok ([], 1) ∧
      documentTexts (bodyNodes
          (docxDocument [plainParagraph (.number (.nonzero false 42 2 (by decide)))])) =
        [(0, asciiText "42")] ∧
      (blockTexts (bodyNodes (docxDocument [oneCellTable
          [oneCellTable [plainParagraph (.string (asciiText "A"))]]]))).flatten =
        [(0, asciiText "A"), (0, asciiText "A"), (0, asciiText "A")] ∧
      documentTexts (bodyNodes (docxDocument [oneCellTable
          [oneCellTable [plainParagraph (.string (asciiText "A"))]]])) = [(0, asciiText "A")] := by
  decide +kernel

end ResearchWorkbench.Extraction
