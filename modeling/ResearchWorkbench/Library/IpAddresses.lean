import ResearchWorkbench.Library.Numerals
import ResearchWorkbench.Library.Spans

namespace ResearchWorkbench

/-!
# Textual IP addresses

How IPv4 and IPv6 addresses are written, on texts as lists of code units.

* `Octet`, `DottedQuad` — four decimal numbers with dots between them; a number has no leading zero;
* `HexGroup`, `Pieces`, `Ipv6Text` — groups with colons between them, of which `::` may leave out
  some that are zero, and of which a dotted quad may be the last two;
* `Ipv6Text.words`, `Ipv6Text.value` — what the address is;
* `isIpv4Text`, `isIpv6Text` — the texts that are so written: `isIpv4Text_iff`, `isIpv6Text_iff`.
-/

/-! ### Octets and groups -/

/-- One to three digits without a leading zero. -/
def isOctet (t : List ℕ) : Bool :=
  1 ≤ t.length && t.length ≤ 3 && t.all isDecimalDigit && numeral 10 t ≤ 255 &&
    (t.head? ≠ some 48 || t = [48])

/-- One to four hexadecimal digits. -/
def isGroup (t : List ℕ) : Bool := 1 ≤ t.length && t.length ≤ 4 && t.all isHexDigit

/-- A number of a dotted quad. -/
structure Octet where
  text : List ℕ
  isOctet_text : isOctet text = true

/-- A group of an IPv6 address. -/
structure HexGroup where
  text : List ℕ
  isGroup_text : isGroup text = true

/-- `a.b.c.d`. -/
structure DottedQuad where
  a : Octet
  b : Octet
  c : Octet
  d : Octet

def Octet.value (o : Octet) : ℕ := numeral 10 o.text

def HexGroup.value (g : HexGroup) : ℕ := numeral 16 g.text

namespace DottedQuad

def octets (q : DottedQuad) : List Octet := [q.a, q.b, q.c, q.d]

def text (q : DottedQuad) : List ℕ := [46].intercalate (q.octets.map Octet.text)

/-- The address as a number of 32 bits. -/
def value (q : DottedQuad) : ℕ := q.octets.foldl (fun v o => v * 256 + o.value) 0

/-- The address as two words. -/
def words (q : DottedQuad) : List ℕ := [q.value / 65536, q.value % 65536]

end DottedQuad

/-! ### IPv6 -/

/-- Groups, and a dotted quad after them, with colons between. -/
structure Pieces where
  groups : List HexGroup
  quad : Option DottedQuad

namespace Pieces

def texts (p : Pieces) : List (List ℕ) :=
  p.groups.map HexGroup.text ++ p.quad.toList.map DottedQuad.text

def text (p : Pieces) : List ℕ := [58].intercalate p.texts

def words (p : Pieces) : List ℕ :=
  p.groups.map HexGroup.value ++ p.quad.toList.flatMap DottedQuad.words

/-- Groups alone. -/
def ofGroups (groups : List HexGroup) : Pieces := ⟨groups, none⟩

end Pieces

/-- An IPv6 address as it is written: all eight words, or `::` for one or more of them. -/
inductive Ipv6Text
  | full (pieces : Pieces) (length_eq : pieces.words.length = 8)
  | short (left : List HexGroup) (right : Pieces)
      (length_le : left.length + right.words.length ≤ 7)

namespace Ipv6Text

def text : Ipv6Text → List ℕ
  | full pieces _ => pieces.text
  | short left right _ => (Pieces.ofGroups left).text ++ 58 :: 58 :: right.text

/-- The eight words of the address. -/
def words : Ipv6Text → List ℕ
  | full pieces _ => pieces.words
  | short left right _ =>
    (Pieces.ofGroups left).words ++
      List.replicate (8 - left.length - right.words.length) 0 ++ right.words

/-- The address as a number of 128 bits. -/
def value (a : Ipv6Text) : ℕ := a.words.foldl (fun v w => v * 65536 + w) 0

end Ipv6Text

/-! ### Reading -/

/-- The pieces between the colons of a text. -/
def colonPieces (t : List ℕ) : List (List ℕ) := if t = [] then [] else t.splitOn 58

/-- `a.b.c.d`. -/
def isIpv4Text (t : List ℕ) : Bool := (t.splitOn 46).length = 4 && (t.splitOn 46).all isOctet

/-- How many words the pieces are, if they are groups and a dotted quad at the end. -/
def wordCount : List (List ℕ) → Option ℕ
  | [] => some 0
  | [t] => if isGroup t then some 1 else if isIpv4Text t then some 2 else none
  | t :: u :: rest => if isGroup t then (wordCount (u :: rest)).map (· + 1) else none

/-- An IPv6 address without a zone. -/
def isIpv6Text (t : List ℕ) : Bool :=
  match splitPair 58 t with
  | [whole] => wordCount (colonPieces whole) = some 8
  | [left, right] =>
    (colonPieces left).all isGroup &&
      (wordCount (colonPieces right)).any fun n => (colonPieces left).length + n ≤ 7
  | _ => false

/-! ### The characters of the parts -/

section

variable {c : ℕ} {t : List ℕ}

theorem isOctet_iff : isOctet t = true ↔ (1 ≤ t.length ∧ t.length ≤ 3) ∧
    (∀ c ∈ t, isDecimalDigit c = true) ∧ numeral 10 t ≤ 255 ∧ (t.head? ≠ some 48 ∨ t = [48]) := by
  simp only [isOctet, Bool.and_eq_true, Bool.or_eq_true, decide_eq_true_eq, List.all_eq_true]
  tauto

theorem isGroup_iff : isGroup t = true ↔
    (1 ≤ t.length ∧ t.length ≤ 4) ∧ ∀ c ∈ t, isHexDigit c = true := by
  simp only [isGroup, Bool.and_eq_true, decide_eq_true_eq, List.all_eq_true]

theorem ne_of_isHexDigit (h : isHexDigit c = true) : c ≠ 37 ∧ c ≠ 46 ∧ c ≠ 58 := by
  refine ⟨?_, ?_, ?_⟩ <;> (rintro rfl; cases h)

end

namespace Octet

theorem value_le (o : Octet) : o.value ≤ 255 := (isOctet_iff.mp o.isOctet_text).2.2.1

theorem isDecimalDigit_of_mem (o : Octet) {c : ℕ} (hc : c ∈ o.text) : isDecimalDigit c = true :=
  (isOctet_iff.mp o.isOctet_text).2.1 c hc

theorem length_text (o : Octet) : 1 ≤ o.text.length ∧ o.text.length ≤ 3 :=
  (isOctet_iff.mp o.isOctet_text).1

theorem notMem_text (o : Octet) : 37 ∉ o.text ∧ 46 ∉ o.text ∧ 58 ∉ o.text := by
  have hmem : ∀ c ∈ o.text, c ≠ 37 ∧ c ≠ 46 ∧ c ≠ 58 := fun c hc =>
    ne_of_isHexDigit (isHexDigit_of_isDecimalDigit (o.isDecimalDigit_of_mem hc))
  exact ⟨fun h => (hmem _ h).1 rfl, fun h => (hmem _ h).2.1 rfl, fun h => (hmem _ h).2.2 rfl⟩

end Octet

namespace HexGroup

theorem isHexDigit_of_mem (g : HexGroup) {c : ℕ} (hc : c ∈ g.text) : isHexDigit c = true :=
  (isGroup_iff.mp g.isGroup_text).2 c hc

theorem length_text (g : HexGroup) : 1 ≤ g.text.length ∧ g.text.length ≤ 4 :=
  (isGroup_iff.mp g.isGroup_text).1

theorem text_ne_nil (g : HexGroup) : g.text ≠ [] :=
  List.ne_nil_of_length_pos g.length_text.1

theorem notMem_text (g : HexGroup) : 37 ∉ g.text ∧ 46 ∉ g.text ∧ 58 ∉ g.text := by
  have hmem : ∀ c ∈ g.text, c ≠ 37 ∧ c ≠ 46 ∧ c ≠ 58 := fun c hc =>
    ne_of_isHexDigit (g.isHexDigit_of_mem hc)
  exact ⟨fun h => (hmem _ h).1 rfl, fun h => (hmem _ h).2.1 rfl, fun h => (hmem _ h).2.2 rfl⟩

theorem value_lt (g : HexGroup) : g.value < 65536 :=
  lt_of_lt_of_le (numeral_lt fun _ => g.isHexDigit_of_mem)
    (Nat.pow_le_pow_right (by omega) g.length_text.2)

/-- The group of a word, as short as it can be. -/
def ofWord (w : ℕ) (h : w < 65536) : HexGroup where
  text := numeralText 16 w
  isGroup_text := isGroup_iff.mpr
    ⟨⟨List.length_pos_of_ne_nil numeralText_ne_nil,
        length_numeralText_le (by omega) (by omega) h⟩,
      fun _ => isHexDigit_of_mem_numeralText (by omega) (by omega)⟩

@[simp] theorem value_ofWord (w : ℕ) (h : w < 65536) : (ofWord w h).value = w :=
  numeral_numeralText 16 w

/-- The group in lower case. -/
def lower (g : HexGroup) : HexGroup where
  text := g.text.map lowerUnit
  isGroup_text := isGroup_iff.mpr
    ⟨by rw [List.length_map]; exact g.length_text,
      by
        intro c hc
        rcases List.mem_map.mp hc with ⟨d, hd, rfl⟩
        rw [isHexDigit_lowerUnit]
        exact g.isHexDigit_of_mem hd⟩

@[simp] theorem value_lower (g : HexGroup) : g.lower.value = g.value :=
  numeral_map_lowerUnit fun _ => g.isHexDigit_of_mem

end HexGroup

/-! ### Dotted quads -/

namespace DottedQuad

variable (q : DottedQuad)

theorem splitOn_text : q.text.splitOn 46 = q.octets.map Octet.text := by
  refine List.splitOn_intercalate 46 ?_ (by simp [octets])
  intro t ht
  rcases List.mem_map.mp ht with ⟨o, -, rfl⟩
  exact o.notMem_text.2.1

theorem notMem_text : 37 ∉ q.text ∧ 58 ∉ q.text := by
  have hmem : ∀ c ∈ q.text, c = 46 ∨ ∃ o : Octet, c ∈ o.text := by
    intro c hc
    rcases mem_intercalate hc with h | ⟨t, ht, hc⟩
    · exact .inl h
    · rcases List.mem_map.mp ht with ⟨o, -, rfl⟩
      exact .inr ⟨o, hc⟩
  constructor
  · intro h
    rcases hmem 37 h with h | ⟨o, ho⟩
    · cases h
    · exact o.notMem_text.1 ho
  · intro h
    rcases hmem 58 h with h | ⟨o, ho⟩
    · cases h
    · exact o.notMem_text.2.2 ho

theorem mem_text : 46 ∈ q.text := by
  simp [text, octets, List.intercalate_cons_of_ne_nil]

theorem text_ne_nil : q.text ≠ [] := List.ne_nil_of_mem q.mem_text

theorem value_eq :
    q.value = ((q.a.value * 256 + q.b.value) * 256 + q.c.value) * 256 + q.d.value := by
  simp [value, octets]

theorem value_lt : q.value < 2 ^ 32 := by
  have ha := q.a.value_le
  have hb := q.b.value_le
  have hc := q.c.value_le
  have hd := q.d.value_le
  rw [value_eq]
  omega

/-- Dotted quads are in decimal, without letters. -/
theorem map_lowerUnit_text : q.text.map lowerUnit = q.text := by
  have hsame : ∀ c ∈ q.text, lowerUnit c = id c := by
    intro c hc
    rcases mem_intercalate hc with rfl | ⟨t, ht, hc⟩
    · rfl
    · rcases List.mem_map.mp ht with ⟨o, -, rfl⟩
      exact lowerUnit_of_isDecimalDigit (o.isDecimalDigit_of_mem hc)
  rw [List.map_congr_left hsame, List.map_id]

end DottedQuad

/-- **The texts of IPv4 addresses.** -/
theorem isIpv4Text_iff {t : List ℕ} : isIpv4Text t = true ↔ ∃ q : DottedQuad, q.text = t := by
  simp only [isIpv4Text, Bool.and_eq_true, decide_eq_true_eq, List.all_eq_true]
  constructor
  · rintro ⟨hlen, hall⟩
    rcases List.length_eq_four.mp hlen with ⟨a, b, c, d, hcut⟩
    rw [hcut] at hall
    refine ⟨⟨⟨a, hall a (by simp)⟩, ⟨b, hall b (by simp)⟩, ⟨c, hall c (by simp)⟩,
      ⟨d, hall d (by simp)⟩⟩, ?_⟩
    show [46].intercalate [a, b, c, d] = t
    rw [← hcut, List.intercalate_splitOn]
  · rintro ⟨q, rfl⟩
    rw [q.splitOn_text]
    refine ⟨rfl, ?_⟩
    intro t ht
    rcases List.mem_map.mp ht with ⟨o, -, rfl⟩
    exact o.isOctet_text

/-! ### Pieces -/

namespace Pieces

variable (p : Pieces)

theorem notMem_of_mem_texts {t : List ℕ} (ht : t ∈ p.texts) : t ≠ [] ∧ 37 ∉ t ∧ 58 ∉ t := by
  rcases List.mem_append.mp ht with ht | ht
  · rcases List.mem_map.mp ht with ⟨g, -, rfl⟩
    exact ⟨g.text_ne_nil, g.notMem_text.1, g.notMem_text.2.2⟩
  · rcases List.mem_map.mp ht with ⟨q, -, rfl⟩
    exact ⟨q.text_ne_nil, q.notMem_text⟩

theorem singly_text : Singly 58 p.text :=
  singly_intercalate (fun _ ht => (p.notMem_of_mem_texts ht).1)
    (fun _ ht => (p.notMem_of_mem_texts ht).2.2)

theorem notMem_text : 37 ∉ p.text := by
  intro h
  rcases mem_intercalate h with h | ⟨t, ht, h⟩
  · cases h
  · exact (p.notMem_of_mem_texts ht).2.1 h

theorem text_eq_nil_iff : p.text = [] ↔ p.texts = [] := by
  unfold text
  constructor
  · intro h
    rcases hts : p.texts with _ | ⟨t, ts⟩
    · rfl
    · have hne : t ≠ [] := (p.notMem_of_mem_texts (by rw [hts]; simp)).1
      rw [hts] at h
      rcases ts with _ | ⟨u, us⟩
      · exact absurd (by simpa using h) hne
      · rw [List.intercalate_cons_of_ne_nil (by simp)] at h
        simp at h
  · intro h
    rw [h]
    rfl

/-- The pieces are what the colons leave. -/
@[simp] theorem colonPieces_text : colonPieces p.text = p.texts := by
  unfold colonPieces
  split
  · next h => exact (p.text_eq_nil_iff.mp h).symm
  · next h =>
    exact List.splitOn_intercalate 58 (fun _ ht => (p.notMem_of_mem_texts ht).2.2)
      (fun hnil => h (p.text_eq_nil_iff.mpr hnil))

@[simp] theorem texts_ofGroups (groups : List HexGroup) :
    (ofGroups groups).texts = groups.map HexGroup.text := by
  simp [ofGroups, texts]

@[simp] theorem words_ofGroups (groups : List HexGroup) :
    (ofGroups groups).words = groups.map HexGroup.value := by
  simp [ofGroups, words]

/-- One more group. -/
def cons (g : HexGroup) (p : Pieces) : Pieces := ⟨g :: p.groups, p.quad⟩

@[simp] theorem texts_cons (g : HexGroup) : (p.cons g).texts = g.text :: p.texts := rfl

@[simp] theorem words_cons (g : HexGroup) : (p.cons g).words = g.value :: p.words := rfl

end Pieces

/-- The words that are counted are those of some pieces. -/
theorem exists_pieces_of_wordCount {ts : List (List ℕ)} {n : ℕ} (h : wordCount ts = some n) :
    ∃ p : Pieces, p.texts = ts ∧ p.words.length = n := by
  fun_induction wordCount ts generalizing n with
  | case1 =>
    cases h
    exact ⟨⟨[], none⟩, rfl, rfl⟩
  | case2 t hgroup =>
    cases h
    exact ⟨⟨[⟨t, hgroup⟩], none⟩, rfl, rfl⟩
  | case3 t hgroup hquad =>
    cases h
    rcases isIpv4Text_iff.mp hquad with ⟨q, rfl⟩
    exact ⟨⟨[], some q⟩, rfl, rfl⟩
  | case4 t hgroup hquad => cases h
  | case5 t u rest hgroup ih =>
    rcases Option.map_eq_some_iff.mp h with ⟨m, hm, rfl⟩
    rcases ih hm with ⟨p, htexts, hwords⟩
    refine ⟨p.cons ⟨t, hgroup⟩, ?_, ?_⟩
    · rw [p.texts_cons, htexts]
    · rw [p.words_cons, List.length_cons, hwords]
  | case6 t u rest hgroup => cases h

/-- The words of pieces are counted. -/
@[simp] theorem Pieces.wordCount_texts (p : Pieces) : wordCount p.texts = some p.words.length := by
  rcases p with ⟨groups, quad⟩
  induction groups with
  | nil =>
    rcases quad with _ | q
    · rfl
    · have hgroup : isGroup q.text = false := by
        rw [Bool.eq_false_iff]
        intro h
        exact (ne_of_isHexDigit ((isGroup_iff.mp h).2 46 q.mem_text)).2.1 rfl
      show wordCount [q.text] = _
      rw [wordCount, if_neg (by simp [hgroup]), if_pos (isIpv4Text_iff.mpr ⟨q, rfl⟩)]
      rfl
  | cons g gs ih =>
    show wordCount (g.text :: (Pieces.mk gs quad).texts) = _
    rcases hts : (Pieces.mk gs quad).texts with _ | ⟨u, rest⟩
    · rw [hts] at ih
      rw [wordCount, if_pos g.isGroup_text]
      have hnil : 0 = (Pieces.mk gs quad).words.length := Option.some.inj ih
      show some 1 = some ((Pieces.mk gs quad).words.length + 1)
      rw [← hnil]
    · rw [wordCount, if_pos g.isGroup_text, ← hts, ih]
      rfl

/-- The texts of groups. -/
theorem exists_groups {ts : List (List ℕ)} (h : ts.all isGroup = true) :
    ∃ gs : List HexGroup, gs.map HexGroup.text = ts := by
  induction ts with
  | nil => exact ⟨[], rfl⟩
  | cons t ts ih =>
    rw [List.all_cons, Bool.and_eq_true] at h
    rcases ih h.2 with ⟨gs, rfl⟩
    exact ⟨⟨t, h.1⟩ :: gs, rfl⟩

/-- The pieces of a text, joined again. -/
theorem intercalate_colonPieces {t : List ℕ} : [58].intercalate (colonPieces t) = t := by
  unfold colonPieces
  split
  · next h => exact h.symm
  · exact List.intercalate_splitOn 58

/-! ### Addresses -/

namespace Ipv6Text

theorem notMem_text (a : Ipv6Text) : 37 ∉ a.text := by
  cases a with
  | full p _ => exact p.notMem_text
  | short left right _ => simp [text, (Pieces.ofGroups left).notMem_text, right.notMem_text]

theorem splitPair_full (p : Pieces) (h : p.words.length = 8) :
    splitPair 58 (full p h).text = [p.text] := p.singly_text.splitPair_eq

theorem splitPair_short (left : List HexGroup) (right : Pieces)
    (h : left.length + right.words.length ≤ 7) :
    splitPair 58 (short left right h).text = [(Pieces.ofGroups left).text, right.text] := by
  show splitPair 58 (_ ++ 58 :: 58 :: _) = _
  rw [(Pieces.ofGroups left).singly_text.splitPair_append, right.singly_text.splitPair_eq]

end Ipv6Text

/-- **The texts of IPv6 addresses.** -/
theorem isIpv6Text_iff {t : List ℕ} : isIpv6Text t = true ↔ ∃ a : Ipv6Text, a.text = t := by
  constructor
  · intro h
    have hjoin : [58, 58].intercalate (splitPair 58 t) = t := intercalate_splitPair
    unfold isIpv6Text at h
    split at h
    · next whole hcut =>
      rcases exists_pieces_of_wordCount (of_decide_eq_true h) with ⟨p, htexts, hwords⟩
      refine ⟨.full p hwords, ?_⟩
      show [58].intercalate p.texts = t
      rw [htexts, intercalate_colonPieces, ← hjoin, hcut]
      simp
    · next left right hcut =>
      rw [Bool.and_eq_true, Option.any_eq_true] at h
      rcases h with ⟨hleft, n, hcount, hle⟩
      rcases exists_groups hleft with ⟨gs, hgs⟩
      rcases exists_pieces_of_wordCount hcount with ⟨p, htexts, rfl⟩
      have hlen : gs.length + p.words.length ≤ 7 := by
        rw [← List.length_map (f := HexGroup.text), hgs]
        exact of_decide_eq_true hle
      refine ⟨.short gs p hlen, ?_⟩
      show [58].intercalate (Pieces.ofGroups gs).texts ++ 58 :: 58 :: [58].intercalate p.texts = t
      rw [Pieces.texts_ofGroups, hgs, htexts, intercalate_colonPieces, intercalate_colonPieces,
        ← hjoin, hcut, List.intercalate_cons_of_ne_nil (by simp)]
      simp
    · cases h
  · rintro ⟨a, rfl⟩
    unfold isIpv6Text
    cases a with
    | full p h =>
      rw [Ipv6Text.splitPair_full]
      show decide (wordCount (colonPieces p.text) = some 8) = true
      rw [p.colonPieces_text, p.wordCount_texts, h]
      rfl
    | short left right h =>
      rw [Ipv6Text.splitPair_short]
      show (_ && _) = true
      rw [Pieces.colonPieces_text, Pieces.colonPieces_text, right.wordCount_texts,
        Pieces.texts_ofGroups, List.length_map, Bool.and_eq_true, List.all_eq_true]
      refine ⟨?_, decide_eq_true h⟩
      intro t ht
      rcases List.mem_map.mp ht with ⟨g, -, rfl⟩
      exact g.isGroup_text

/-! ### Values -/

namespace Pieces

theorem lt_of_mem_words (p : Pieces) {w : ℕ} (hw : w ∈ p.words) : w < 65536 := by
  rcases List.mem_append.mp hw with hw | hw
  · rcases List.mem_map.mp hw with ⟨g, -, rfl⟩
    exact g.value_lt
  · rcases List.mem_flatMap.mp hw with ⟨q, -, hw⟩
    have hlt := q.value_lt
    rcases List.mem_pair.mp hw with rfl | rfl <;> omega

end Pieces

/-- Words make a number of as many digits. -/
theorem foldl_words_lt {ws : List ℕ} (h : ∀ w ∈ ws, w < 65536) :
    ws.foldl (fun v w => v * 65536 + w) 0 < 65536 ^ ws.length := by
  induction ws using List.reverseRecOn with
  | nil => simp
  | append_singleton ws w ih =>
    have hlt := ih (fun x hx => h x (by simp [hx]))
    have hw := h w (by simp)
    rw [List.foldl_append, List.length_append, List.length_singleton, pow_succ]
    show ws.foldl (fun v w => v * 65536 + w) 0 * 65536 + w < _
    omega

namespace Ipv6Text

variable (a : Ipv6Text)

theorem length_words : a.words.length = 8 := by
  cases a with
  | full p h => exact h
  | short left right h =>
    simp only [words, List.length_append, List.length_replicate, Pieces.words_ofGroups,
      List.length_map]
    omega

theorem lt_of_mem_words {w : ℕ} (hw : w ∈ a.words) : w < 65536 := by
  cases a with
  | full p h => exact p.lt_of_mem_words hw
  | short left right h =>
    rcases List.mem_append.mp hw with hw | hw
    · rcases List.mem_append.mp hw with hw | hw
      · exact (Pieces.ofGroups left).lt_of_mem_words hw
      · rw [List.eq_of_mem_replicate hw]
        omega
    · exact right.lt_of_mem_words hw

theorem value_lt : a.value < 2 ^ 128 := by
  have hlt := foldl_words_lt fun _ => a.lt_of_mem_words
  rw [a.length_words] at hlt
  exact hlt

end Ipv6Text

/-! ### Without dotted quads and capital letters -/

/-- Joined pieces, mapped. -/
theorem map_intercalate {f : ℕ → ℕ} {sep : ℕ} (pieces : List (List ℕ)) :
    ([sep].intercalate pieces).map f = [f sep].intercalate (pieces.map (List.map f)) := by
  induction pieces with
  | nil => rfl
  | cons p ps ih =>
    rcases ps with _ | ⟨q, qs⟩
    · simp
    · show _ = [f sep].intercalate (p.map f :: (q :: qs).map (List.map f))
      rw [List.intercalate_cons_of_ne_nil (by simp), List.map_append, List.map_append, ih,
        List.intercalate_cons_of_ne_nil (by simp)]
      rfl

namespace DottedQuad

variable (q : DottedQuad)

/-- The two groups that say the same as the dotted quad. -/
def groups : List HexGroup :=
  [.ofWord (q.value / 65536) (by have := q.value_lt; omega),
    .ofWord (q.value % 65536) (by omega)]

@[simp] theorem map_value_groups : q.groups.map HexGroup.value = q.words := by
  simp [groups, words]

end DottedQuad

namespace Pieces

variable (p : Pieces)

/-- The pieces in lower case. -/
def lower : Pieces := ⟨p.groups.map HexGroup.lower, p.quad⟩

/-- The pieces with groups for the dotted quad. -/
def plain : Pieces := ⟨p.groups ++ p.quad.toList.flatMap DottedQuad.groups, none⟩

@[simp] theorem words_lower : p.lower.words = p.words := by
  simp [lower, words, Function.comp_def]

@[simp] theorem words_plain : p.plain.words = p.words := by
  rcases p with ⟨groups, _ | q⟩ <;> simp [plain, words]

theorem map_lowerUnit_text : p.text.map lowerUnit = p.lower.text := by
  unfold text
  rw [map_intercalate]
  have hquad : p.quad.toList.map (List.map lowerUnit ∘ DottedQuad.text) =
      p.quad.toList.map DottedQuad.text :=
    List.map_congr_left fun q _ => q.map_lowerUnit_text
  simp only [texts, lower, List.map_append, List.map_map, hquad]
  rfl

end Pieces

namespace Ipv6Text

variable (a : Ipv6Text)

/-- The address in lower case. -/
def lower : Ipv6Text → Ipv6Text
  | full p h => full p.lower (by rw [p.words_lower]; exact h)
  | short left right h =>
    short (left.map HexGroup.lower) right.lower
      (by rw [right.words_lower, List.length_map]; exact h)

/-- The dotted quad at the end. -/
def quad : Ipv6Text → Option DottedQuad
  | full p _ => p.quad
  | short _ right _ => right.quad

/-- The address with groups for the dotted quad. -/
def plain : Ipv6Text → Ipv6Text
  | full p h => full p.plain (by rw [p.words_plain]; exact h)
  | short left right h => short left right.plain (by rw [right.words_plain]; exact h)

theorem map_lowerUnit_text : a.text.map lowerUnit = a.lower.text := by
  cases a with
  | full p h => exact p.map_lowerUnit_text
  | short left right h =>
    have hleft : (Pieces.ofGroups left).text.map lowerUnit =
        (Pieces.ofGroups (left.map HexGroup.lower)).text := (Pieces.ofGroups left).map_lowerUnit_text
    show ((Pieces.ofGroups left).text ++ 58 :: 58 :: right.text).map lowerUnit = _
    rw [List.map_append, hleft, List.map_cons, List.map_cons, right.map_lowerUnit_text]
    rfl

end Ipv6Text

/-- The dotted quad stands after a colon, or alone; and so do the groups for it. -/
theorem Pieces.text_of_quad {p : Pieces} {q : DottedQuad} (h : p.quad = some q) :
    ∃ before, (before = [] ∧ p.groups = [] ∨ ∃ s, before = s ++ [58]) ∧ p.text = before ++ q.text ∧
      p.plain.text = before ++ numeralText 16 (q.value / 65536) ++ [58] ++
        numeralText 16 (q.value % 65536) := by
  rcases p with ⟨groups, _ | r⟩
  · cases h
  · cases h
    have htexts : (Pieces.mk groups (some q)).texts = groups.map HexGroup.text ++ [q.text] := rfl
    have hplain : (Pieces.mk groups (some q)).plain.texts =
        groups.map HexGroup.text ++ [numeralText 16 (q.value / 65536)] ++
          [numeralText 16 (q.value % 65536)] := by
      simp [Pieces.plain, Pieces.texts, DottedQuad.groups, HexGroup.ofWord]
    have hlow : [58].intercalate (groups.map HexGroup.text ++ [numeralText 16 (q.value / 65536)] ++
          [numeralText 16 (q.value % 65536)]) =
        [58].intercalate (groups.map HexGroup.text ++ [numeralText 16 (q.value / 65536)]) ++ [58] ++
          numeralText 16 (q.value % 65536) := intercalate_concat (by simp)
    unfold Pieces.text
    rw [htexts, hplain, hlow]
    rcases groups with _ | ⟨g, gs⟩
    · exact ⟨[], .inl ⟨rfl, rfl⟩, by simp, by simp⟩
    · rw [intercalate_concat (by simp), intercalate_concat (by simp)]
      exact ⟨_, .inr ⟨_, rfl⟩, rfl, rfl⟩

/-- A full address has more than its dotted quad. -/
theorem Ipv6Text.text_of_quad {a : Ipv6Text} {q : DottedQuad} (h : a.quad = some q) :
    ∃ s, a.text = s ++ 58 :: q.text ∧
      a.plain.text = s ++ 58 :: (numeralText 16 (q.value / 65536) ++ [58] ++
        numeralText 16 (q.value % 65536)) := by
  cases a with
  | full p hwords =>
    have hquad : p.quad = some q := h
    rcases Pieces.text_of_quad hquad with ⟨before, hbefore, htext, hplain⟩
    rcases hbefore with ⟨-, hnil⟩ | ⟨s, rfl⟩
    · rw [Pieces.words, hnil, hquad] at hwords
      exact absurd hwords (by simp [DottedQuad.words])
    · refine ⟨s, ?_, ?_⟩
      · show p.text = _
        rw [htext, List.append_assoc]
        rfl
      · show p.plain.text = _
        rw [hplain]
        simp
  | short left right hle =>
    have hquad : right.quad = some q := h
    rcases Pieces.text_of_quad hquad with ⟨before, hbefore, htext, hplain⟩
    have hs : ∃ s, (Pieces.ofGroups left).text ++ 58 :: 58 :: before = s ++ [58] := by
      rcases hbefore with ⟨rfl, -⟩ | ⟨s, rfl⟩
      · exact ⟨(Pieces.ofGroups left).text ++ [58], by simp⟩
      · exact ⟨(Pieces.ofGroups left).text ++ 58 :: 58 :: s, by simp⟩
    rcases hs with ⟨s, hs⟩
    refine ⟨s, ?_, ?_⟩
    · show _ ++ 58 :: 58 :: right.text = _
      rw [htext, ← List.cons_append, ← List.cons_append, ← List.append_assoc, hs, List.append_assoc]
      rfl
    · show _ ++ 58 :: 58 :: right.plain.text = _
      rw [hplain, List.append_assoc, List.append_assoc, ← List.cons_append, ← List.cons_append,
        ← List.append_assoc, hs]
      simp

/-- Without a dotted quad there are no dots. -/
theorem Ipv6Text.notMem_of_quad {a : Ipv6Text} (h : a.quad = none) : 46 ∉ a.text := by
  have hpieces : ∀ p : Pieces, p.quad = none → 46 ∉ p.text := by
    intro p hp hmem
    rcases mem_intercalate hmem with hmem | ⟨t, ht, hmem⟩
    · cases hmem
    · rw [Pieces.texts, hp] at ht
      rcases List.mem_map.mp (by simpa using ht : t ∈ p.groups.map HexGroup.text) with ⟨g, -, rfl⟩
      exact g.notMem_text.2.1 hmem
  cases a with
  | full p _ => exact hpieces p h
  | short left right _ =>
    simp [text, hpieces (Pieces.ofGroups left) rfl, hpieces right h]

theorem Ipv6Text.plain_of_quad {a : Ipv6Text} (h : a.quad = none) : a.plain.text = a.text := by
  have hpieces : ∀ p : Pieces, p.quad = none → p.plain = p := by
    intro p hp
    rcases p with ⟨groups, _ | q⟩
    · simp [Pieces.plain]
    · cases hp
  cases a with
  | full p _ =>
    show p.plain.text = p.text
    rw [hpieces p h]
  | short left right _ =>
    show _ ++ 58 :: 58 :: right.plain.text = _
    rw [hpieces right h]
    rfl

/-- An IPv6 address has a colon. -/
theorem Ipv6Text.mem_text (a : Ipv6Text) : 58 ∈ a.text := by
  cases a with
  | full p hwords =>
    by_contra hmem
    have hmem : 58 ∉ p.text := hmem
    have hone : p.texts.length ≤ 1 := by
      rw [← p.colonPieces_text, colonPieces]
      split
      · simp
      · rw [List.splitOn_eq_singleton hmem, List.length_singleton]
    rcases p with ⟨groups, _ | q⟩
    · simp [Pieces.texts] at hone
      simp [Pieces.words] at hwords
      omega
    · simp [Pieces.texts] at hone
      simp [Pieces.words, DottedQuad.words, hone] at hwords
  | short left right _ => simp [text]

end ResearchWorkbench
