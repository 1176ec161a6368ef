import ResearchWorkbench.Services.PublicAddresses

namespace ResearchWorkbench.SafeFetch

/-!
# Addresses by value

What `isPublicIpAddress` says depends on the value of an address only.

* `isIP_eq_four_iff`, `isIP_eq_six_iff` — the texts that are addresses;
* `toNat_ipv4ToNumber`, `ipv6ToBigInt_text` — however an address is written, its value is read;
* `InBlock`, `ipv4Blocks`, `ipv6Blocks` — the blocks of addresses that are not public, as numbers;
* `isPublicIpAddress_ipv4`, `isPublicIpAddress_ipv6` — the addresses outside of them are public;
* `ipv6ToBigInt_of_zone` — addresses with a zone have no value, and are refused.
-/

/-! ### The texts that are addresses -/

variable {t : Text}

theorem isIP_eq_four_iff : isIP t = 4 ↔ ∃ q : DottedQuad, q.text = t := by
  rw [← isIpv4Text_iff]
  unfold isIP
  split
  · next h => simp [h]
  · next h => split <;> simp [h]

/-- A text with a colon is no IPv4 address. -/
theorem isIpv4Text_of_mem (h : 58 ∈ t) : isIpv4Text t = false := by
  rw [Bool.eq_false_iff]
  intro hipv4
  rcases isIpv4Text_iff.mp hipv4 with ⟨q, rfl⟩
  exact q.notMem_text.2 h

theorem takeWhile_append_zone {u zone : Text} (hu : 37 ∉ u) (hzone : isZone zone = true) :
    (u ++ zone).takeWhile (· ≠ 37) = u ∧ (u ++ zone).dropWhile (· ≠ 37) = zone := by
  have hall : ∀ c ∈ u, decide (c ≠ 37) = true := by
    intro c hc
    exact decide_eq_true fun h => hu (h ▸ hc)
  rw [List.takeWhile_append_of_pos hall, List.dropWhile_append_of_pos hall]
  rcases zone with _ | ⟨c, zone⟩
  · simp
  · simp only [isZone, Bool.and_eq_true, decide_eq_true_eq] at hzone
    simp [hzone.1.1]

/-- An IPv6 address may have a zone after it. -/
theorem isIP_eq_six_iff :
    isIP t = 6 ↔ ∃ (a : Ipv6Text) (zone : Text), isZone zone = true ∧ a.text ++ zone = t := by
  constructor
  · intro h
    unfold isIP at h
    split at h
    · cases h
    · split at h
      · next hsix =>
        rw [Bool.and_eq_true, isIpv6Text_iff] at hsix
        rcases hsix.1 with ⟨a, ha⟩
        exact ⟨a, _, hsix.2, by rw [ha, List.takeWhile_append_dropWhile]⟩
      · cases h
  · rintro ⟨a, zone, hzone, rfl⟩
    have hcut := takeWhile_append_zone a.notMem_text hzone
    unfold isIP
    rw [isIpv4Text_of_mem (List.mem_append_left _ a.mem_text), if_neg (by simp), hcut.1, hcut.2,
      isIpv6Text_iff.mpr ⟨a, rfl⟩, hzone]
    rfl

@[simp] theorem isIP_quad (q : DottedQuad) : isIP q.text = 4 := isIP_eq_four_iff.mpr ⟨q, rfl⟩

@[simp] theorem isIP_ipv6 (a : Ipv6Text) : isIP a.text = 6 :=
  isIP_eq_six_iff.mpr ⟨a, [], rfl, List.append_nil _⟩

/-- Without a zone, an IPv6 address is the address alone. -/
theorem exists_ipv6Text (h : isIP t = 6) (hzone : 37 ∉ t) : ∃ a : Ipv6Text, a.text = t := by
  rcases isIP_eq_six_iff.mp h with ⟨a, zone, hz, rfl⟩
  rcases zone with _ | ⟨c, zone⟩
  · exact ⟨a, by simp⟩
  · simp only [isZone, Bool.and_eq_true, decide_eq_true_eq] at hz
    exact absurd (by simp [hz.1.1]) hzone

/-! ### Values -/

/-- The number of an IPv4 address. -/
theorem toNat_ipv4ToNumber (q : DottedQuad) : (ipv4ToNumber q.text).toNat = q.value := by
  have hfold : (q.text.splitOn 46).foldl (fun value octet => value * 256 + numeral 10 octet) 0 =
      q.value := by
    rw [q.splitOn_text, List.foldl_map]
    rfl
  rw [ipv4ToNumber, hfold, BitVec.toNat_ofNat]
  exact Nat.mod_eq_of_lt q.value_lt

theorem mem_of_isDotted (h : isDotted t = true) : 46 ∈ t := by
  simp only [isDotted, Bool.and_eq_true, decide_eq_true_eq] at h
  by_contra hmem
  rw [List.splitOn_eq_singleton hmem] at h
  exact absurd h.1 (by simp)

/-- What is dotted has no colon. -/
theorem notMem_of_isDotted (h : isDotted t = true) : 58 ∉ t := by
  simp only [isDotted, Bool.and_eq_true, decide_eq_true_eq, List.all_eq_true] at h
  intro hmem
  have hjoin : [46].intercalate (t.splitOn 46) = t := List.intercalate_splitOn 46
  rw [← hjoin] at hmem
  rcases mem_intercalate hmem with hmem | ⟨p, hp, hmem⟩
  · cases hmem
  · exact absurd ((h.2 p hp).2 58 hmem) (by decide)

theorem isDotted_quad (q : DottedQuad) : isDotted q.text = true := by
  unfold isDotted
  rw [q.splitOn_text]
  simp only [Bool.and_eq_true, decide_eq_true_eq, List.all_eq_true]
  refine ⟨rfl, ?_⟩
  intro p hp
  rcases List.mem_map.mp hp with ⟨o, -, rfl⟩
  exact ⟨o.length_text, fun c hc => o.isDecimalDigit_of_mem hc⟩

/-- Texts after colons have no character of their own. -/
theorem mem_of_mem_afterColons {u : Text} (hu : u ∈ afterColons t) {c : ℕ} (hc : c ∈ u) : c ∈ t := by
  induction t with
  | nil => cases hu
  | cons d t ih =>
    rw [afterColons] at hu
    split at hu
    · rcases List.mem_cons.mp hu with rfl | hu
      · exact List.mem_cons_of_mem _ hc
      · exact List.mem_cons_of_mem _ (ih hu)
    · exact List.mem_cons_of_mem _ (ih hu)

theorem ipv4Match_eq_none (h : 46 ∉ t) : ipv4Match t = none := by
  refine List.find?_eq_none.mpr ?_
  intro u hu hdotted
  rcases List.mem_cons.mp hu with rfl | hu
  · exact h (mem_of_isDotted hdotted)
  · exact h (mem_of_mem_afterColons hu (mem_of_isDotted hdotted))

/-- The dotted quad after the last colon is found. -/
theorem ipv4Match_append {u : Text} (hu : isDotted u = true) (s : Text) :
    ipv4Match (s ++ 58 :: u) = some u := by
  -- as long as a colon follows, a text is not dotted
  have hpass : ∀ v : Text, 58 ∈ v → ipv4Match v = (afterColons v).find? isDotted := by
    intro v hv
    refine List.find?_cons_of_neg ?_
    intro hdotted
    exact notMem_of_isDotted hdotted hv
  induction s with
  | nil =>
    rw [List.nil_append, hpass _ (by simp), afterColons, if_pos rfl]
    exact List.find?_cons_of_pos hu
  | cons c s ih =>
    rw [List.cons_append, hpass _ (by simp), afterColons]
    split
    · exact ih
    · rw [← hpass _ (by simp)]
      exact ih

/-- The dotted quad is replaced by its two groups. -/
theorem replaceIpv4_text (a : Ipv6Text) : replaceIpv4 a.text = .ok a.plain.text := by
  unfold replaceIpv4
  rcases hquad : a.quad with _ | q
  · rw [ipv4Match_eq_none (Ipv6Text.notMem_of_quad hquad), Ipv6Text.plain_of_quad hquad]
  · rcases Ipv6Text.text_of_quad hquad with ⟨s, htext, hplain⟩
    have hmask : ∀ x : BitVec 32, (x &&& 0xffff).toNat = x.toNat % 65536 := by
      intro x
      rw [BitVec.toNat_and]
      exact Nat.and_two_pow_sub_one_eq_mod x.toNat 16
    have hhigh : ((ipv4ToNumber q.text >>> 16) &&& 0xffff).toNat = q.value / 65536 := by
      have hlt := q.value_lt
      rw [hmask, BitVec.toNat_ushiftRight, toNat_ipv4ToNumber, Nat.shiftRight_eq_div_pow]
      omega
    have hlow : (ipv4ToNumber q.text &&& 0xffff).toNat = q.value % 65536 := by
      rw [hmask, toNat_ipv4ToNumber]
    have htake : (s ++ 58 :: q.text).take ((s ++ 58 :: q.text).length - q.text.length) =
        s ++ [58] := by
      have hlength : (s ++ [58] ++ q.text).length = (s ++ [58]).length + q.text.length :=
        List.length_append
      rw [List.append_cons, hlength, Nat.add_sub_cancel]
      exact List.take_left' rfl
    rw [htext, ipv4Match_append (isDotted_quad q)]
    show (if isIP q.text ≠ 4 then _ else _) = _
    rw [if_neg (by simp), hplain]
    show Except.ok _ = _
    rw [hhigh, hlow, htake]
    simp

/-- Groups in lower case pass the last check. -/
theorem isLowerGroup_lower (g : HexGroup) : isLowerGroup g.lower.text = true := by
  have hlower : ∀ c, isHexDigit c = true →
      (isDecimalDigit (lowerUnit c) || (97 ≤ lowerUnit c && lowerUnit c ≤ 102)) = true := by
    intro c hc
    simp only [isHexDigit, isDecimalDigit, Bool.or_eq_true, Bool.and_eq_true, decide_eq_true_eq]
      at hc ⊢
    unfold lowerUnit
    split <;> omega
  simp only [isLowerGroup, Bool.and_eq_true, List.all_eq_true]
  refine ⟨by simpa using g.lower.length_text, ?_⟩
  intro c hc
  rcases List.mem_map.mp hc with ⟨d, hd, rfl⟩
  exact hlower d (g.isHexDigit_of_mem hd)

theorem isLowerGroup_ofWord (w : ℕ) (h : w < 65536) :
    isLowerGroup (HexGroup.ofWord w h).text = true := by
  have hsame : (HexGroup.ofWord w h).lower.text = (HexGroup.ofWord w h).text :=
    map_lowerUnit_numeralText
  rw [← hsame]
  exact isLowerGroup_lower _

/-- Eight groups in lower case. -/
theorem ipv6Groups_full (gs : List HexGroup) (hlen : gs.length = 8)
    (hlower : ∀ g ∈ gs, isLowerGroup g.text = true) :
    ipv6Groups (Pieces.ofGroups gs).text = .ok (gs.map HexGroup.text) := by
  have hsome : (gs.map HexGroup.text).any (fun group => !isLowerGroup group) = false := by
    simpa [List.any_eq_false] using hlower
  unfold ipv6Groups
  rw [(Pieces.ofGroups gs).singly_text.splitPair_eq]
  simp [hlen, hsome]

/-- Fewer groups in lower case, with `::` between them. -/
theorem ipv6Groups_short (ls rs : List HexGroup) (hle : ls.length + rs.length ≤ 7)
    (hlower : ∀ g ∈ ls ++ rs, isLowerGroup g.text = true) :
    ipv6Groups ((Pieces.ofGroups ls).text ++ 58 :: 58 :: (Pieces.ofGroups rs).text) =
      .ok (ls.map HexGroup.text ++ List.replicate (8 - ls.length - rs.length) (asciiText "0") ++
        rs.map HexGroup.text) := by
  have hmissing : ((8 : ℤ) - ls.length - rs.length).toNat = 8 - ls.length - rs.length := by omega
  have hzero : isLowerGroup (asciiText "0") = true := by decide
  have hsome : (ls.map HexGroup.text ++
      List.replicate (8 - ls.length - rs.length) (asciiText "0") ++ rs.map HexGroup.text).any
        (fun group => !isLowerGroup group) = false := by
    rw [List.any_eq_false]
    intro group hgroup
    rw [List.append_assoc, List.mem_append, List.mem_append] at hgroup
    rcases hgroup with hgroup | hgroup | hgroup
    · rcases List.mem_map.mp hgroup with ⟨g, hg, rfl⟩
      simp [hlower g (by simp [hg])]
    · simp [List.eq_of_mem_replicate hgroup, hzero]
    · rcases List.mem_map.mp hgroup with ⟨g, hg, rfl⟩
      simp [hlower g (by simp [hg])]
  unfold ipv6Groups
  rw [(Pieces.ofGroups ls).singly_text.splitPair_append,
    (Pieces.ofGroups rs).singly_text.splitPair_eq]
  simp only [List.length_cons, List.length_nil, List.getD_cons_zero, List.getD_cons_succ, zero_add,
    Nat.reduceAdd, reduceIte, Pieces.colonPieces_text, Pieces.texts_ofGroups, List.length_map,
    hmissing, gt_iff_lt, lt_self_iff_false]
  rw [if_neg (by omega), if_neg]
  rw [hsome, List.length_append, List.length_append, List.length_replicate, List.length_map,
    List.length_map]
  simp
  omega

/-- The eight groups are read. -/
theorem ipv6Groups_text (a : Ipv6Text) :
    ∃ groups, ipv6Groups a.lower.plain.text = .ok groups ∧ groups.map (numeral 16) = a.words := by
  have hgroups : ∀ p : Pieces, ∀ g ∈ p.lower.plain.groups, isLowerGroup g.text = true := by
    intro p g hg
    rcases List.mem_append.mp hg with hg | hg
    · rcases List.mem_map.mp hg with ⟨g, -, rfl⟩
      exact isLowerGroup_lower g
    · rcases List.mem_flatMap.mp hg with ⟨q, -, hg⟩
      rcases List.mem_pair.mp hg with rfl | rfl <;> exact isLowerGroup_ofWord _ _
  have hwords : ∀ p : Pieces, p.lower.plain.groups.map HexGroup.value = p.words := by
    intro p
    rw [← p.words_lower, ← p.lower.words_plain]
    exact (Pieces.words_ofGroups _).symm
  cases a with
  | full p h =>
    refine ⟨_, ipv6Groups_full p.lower.plain.groups ?_ (hgroups p), ?_⟩
    · rw [← List.length_map HexGroup.value, hwords, h]
    · rw [List.map_map]
      exact hwords p
  | short left right h =>
    have hright := hwords right
    refine ⟨_, ipv6Groups_short (left.map HexGroup.lower) right.lower.plain.groups ?_ ?_, ?_⟩
    · have hlen : right.lower.plain.groups.length = right.words.length := by
        rw [← hright, List.length_map]
      rw [List.length_map, hlen]
      exact h
    · intro g hg
      rcases List.mem_append.mp hg with hg | hg
      · rcases List.mem_map.mp hg with ⟨g, -, rfl⟩
        exact isLowerGroup_lower g
      · exact hgroups right g hg
    · have hlen : right.lower.plain.groups.length = right.words.length := by
        rw [← hright, List.length_map]
      have hvalue : ∀ gs : List HexGroup,
          (gs.map HexGroup.text).map (numeral 16) = gs.map HexGroup.value := by
        intro gs
        rw [List.map_map]
        rfl
      have hzero : numeral 16 (asciiText "0") = 0 := by decide
      rw [List.map_append, List.map_append, hvalue, hvalue, hright, List.map_replicate, hzero,
        hlen, List.length_map, List.map_map]
      simp [Ipv6Text.words, Function.comp_def]

/-- The number of an IPv6 address. -/
theorem ipv6ToBigInt_text (a : Ipv6Text) : ipv6ToBigInt a.text = .ok a.value := by
  rcases ipv6Groups_text a with ⟨groups, hgroups, hwords⟩
  have hzone : a.text.contains 37 = false := by
    simpa using a.notMem_text
  have hfold : ∀ (gs : List Text) (v : ℕ),
      gs.foldl (fun value group => (value <<< 16) + numeral 16 group) v =
        (gs.map (numeral 16)).foldl (fun v w => v * 65536 + w) v := by
    intro gs
    induction gs with
    | nil =>
      intro v
      rfl
    | cons g gs ih =>
      intro v
      rw [List.map_cons, List.foldl_cons, List.foldl_cons, ih, Nat.shiftLeft_eq]
  unfold ipv6ToBigInt
  rw [hzone, if_neg (by simp), a.map_lowerUnit_text, replaceIpv4_text]
  show (do let groups ← ipv6Groups a.lower.plain.text; return _) = _
  rw [hgroups]
  show Except.ok _ = _
  rw [hfold, hwords]
  rfl

/-- Addresses with a zone are refused. -/
theorem ipv6ToBigInt_of_zone (h : 37 ∈ t) :
    ipv6ToBigInt t =
      .error (safeFetchError .disallowedAddress "IPv6 zone identifiers are not allowed") := by
  unfold ipv6ToBigInt
  rw [if_pos (by simpa using h)]

/-! ### Blocks -/

/-- An address of so many bits is in a block: it begins with the same bits as the network. -/
def InBlock (width : ℕ) (block : ℕ × ℕ) (value : ℕ) : Prop :=
  value / 2 ^ (width - block.2) = block.1 / 2 ^ (width - block.2)

instance instDecidableInBlock (width : ℕ) (block : ℕ × ℕ) (value : ℕ) :
    Decidable (InBlock width block value) :=
  inferInstanceAs (Decidable (_ = _))

/-- The IPv4 addresses that are not public. -/
def ipv4Blocks : List (ℕ × ℕ) :=
  [(0x00000000, 8), (0x0a000000, 8), (0x64400000, 10), (0x7f000000, 8), (0xa9fe0000, 16),
    (0xac100000, 12), (0xc0000000, 24), (0xc0000200, 24), (0xc0586300, 24), (0xc0a80000, 16),
    (0xc6120000, 15), (0xc6336400, 24), (0xcb007100, 24), (0xe0000000, 4), (0xf0000000, 4)]

/-- The IPv6 addresses that are not public. -/
def ipv6Blocks : List (ℕ × ℕ) :=
  [(0, 96), (1, 128), (0xffff * 2 ^ 32, 96), (0x0064ff9b * 2 ^ 96, 96),
    (0x0064ff9b0001 * 2 ^ 80, 48), (0x0100 * 2 ^ 112, 64), (0x2001 * 2 ^ 112, 23),
    (0x20010db8 * 2 ^ 96, 32), (0x2002 * 2 ^ 112, 16), (0xfc00 * 2 ^ 112, 7),
    (0xfe80 * 2 ^ 112, 10), (0xfec0 * 2 ^ 112, 10), (0xff00 * 2 ^ 112, 8)]

/-- The address is in one of the blocks. -/
def Blocked (width : ℕ) (blocks : List (ℕ × ℕ)) (value : ℕ) : Prop :=
  ∃ block ∈ blocks, InBlock width block value

instance instDecidableBlocked (width : ℕ) (blocks : List (ℕ × ℕ)) (value : ℕ) :
    Decidable (Blocked width blocks value) :=
  inferInstanceAs (Decidable (∃ block ∈ blocks, _))

/-- A mask of ones keeps what the shift keeps. -/
theorem and_mask_eq_iff {w : ℕ} (x y : BitVec w) (s : ℕ) :
    x &&& (BitVec.allOnes w <<< s) = y &&& (BitVec.allOnes w <<< s) ↔ x >>> s = y >>> s := by
  constructor
  · intro h
    refine BitVec.eq_of_getLsbD_eq fun i hi => ?_
    have hbit := congrArg (fun z => z.getLsbD (s + i)) h
    by_cases hw : s + i < w
    · simpa [hw, show s + i - s < w by omega] using hbit
    · simp [BitVec.getLsbD_of_ge, Nat.le_of_not_lt hw]
  · intro h
    refine BitVec.eq_of_getLsbD_eq fun i hi => ?_
    by_cases hs : i < s
    · simp [hs]
    · have hbit := congrArg (fun z => z.getLsbD (i - s)) h
      simp only [BitVec.getLsbD_ushiftRight, show s + (i - s) = i by omega] at hbit
      simp [hbit]

/-- The masks of 32 bits keep the first bits. -/
theorem ipv4InCidr_iff (address network : BitVec 32) (prefixLength : ℕ) :
    ipv4InCidr address network prefixLength = true ↔
      InBlock 32 (network.toNat, prefixLength) address.toNat := by
  unfold ipv4InCidr InBlock
  split
  · next h =>
    have haddress : address.toNat / 2 ^ 32 = 0 := Nat.div_eq_of_lt address.isLt
    have hnetwork : network.toNat / 2 ^ 32 = 0 := Nat.div_eq_of_lt network.isLt
    simp only [h, Nat.sub_zero, haddress, hnetwork]
  · have hmask : (0xffffffff : BitVec 32) = BitVec.allOnes 32 := by decide
    rw [beq_iff_eq, hmask, and_mask_eq_iff, ← BitVec.toNat_inj, BitVec.toNat_ushiftRight,
      BitVec.toNat_ushiftRight, Nat.shiftRight_eq_div_pow, Nat.shiftRight_eq_div_pow]

theorem ipv6InCidr_iff {address network : ℕ} (haddress : address < 2 ^ 128)
    (hnetwork : network < 2 ^ 128) (prefixLength : ℕ) :
    ipv6InCidr address network prefixLength = true ↔ InBlock 128 (network, prefixLength) address := by
  unfold ipv6InCidr InBlock
  split
  · next h =>
    have haddress : address / 2 ^ 128 = 0 := Nat.div_eq_of_lt haddress
    have hnetwork : network / 2 ^ 128 = 0 := Nat.div_eq_of_lt hnetwork
    simp only [h, Nat.sub_zero, haddress, hnetwork]
  · rw [beq_iff_eq, Nat.shiftRight_eq_div_pow, Nat.shiftRight_eq_div_pow]

/-- The networks of `isPublicIpv4`, as numbers. -/
theorem map_blockedIpv4 :
    blockedIpv4.map (fun block => ((ipv4ToNumber (asciiText block.1)).toNat, block.2)) =
      ipv4Blocks := by
  decide +kernel

/-- The networks of `isPublicIpv6`, as numbers. -/
theorem map_blockedIpv6 :
    blockedIpv6.map (fun block =>
        (ipv6ToBigInt (asciiText block.1)).toOption.map fun network => (network, block.2)) =
      ipv6Blocks.map some := by
  decide +kernel

/-! ### Public addresses -/

/-- **IPv4.**  The addresses outside of the blocks are public. -/
theorem isPublicIpAddress_ipv4 (q : DottedQuad) :
    isPublicIpAddress q.text = .ok (!decide (Blocked 32 ipv4Blocks q.value)) := by
  have hblocked : (blockedIpv4.any fun block =>
        ipv4InCidr (ipv4ToNumber q.text) (ipv4ToNumber (asciiText block.1)) block.2) =
      decide (Blocked 32 ipv4Blocks q.value) := by
    rw [Bool.eq_iff_iff, List.any_eq_true, decide_eq_true_eq, Blocked, ← map_blockedIpv4]
    constructor
    · rintro ⟨block, hmem, hin⟩
      rw [ipv4InCidr_iff, toNat_ipv4ToNumber] at hin
      exact ⟨_, List.mem_map_of_mem hmem, hin⟩
    · rintro ⟨block, hmem, hin⟩
      rcases List.mem_map.mp hmem with ⟨named, hnamed, rfl⟩
      refine ⟨named, hnamed, ?_⟩
      rw [ipv4InCidr_iff, toNat_ipv4ToNumber]
      exact hin
  unfold isPublicIpAddress
  rw [isIP_quad]
  show Except.ok (!_) = _
  rw [hblocked]

/-- The networks are read one after the other. -/
theorem inBlockedIpv6_eq {value : ℕ} (hvalue : value < 2 ^ 128) {named : List (String × ℕ)}
    {blocks : List (ℕ × ℕ)} (hblocks : ∀ block ∈ blocks, block.1 < 2 ^ 128)
    (h : named.map (fun block =>
        (ipv6ToBigInt (asciiText block.1)).toOption.map fun network => (network, block.2)) =
      blocks.map some) :
    inBlockedIpv6 value named = .ok (decide (Blocked 128 blocks value)) := by
  induction named generalizing blocks with
  | nil =>
    rcases blocks with _ | ⟨block, blocks⟩
    · rfl
    · cases h
  | cons head named ih =>
    rcases head with ⟨network, prefixLength⟩
    rcases blocks with _ | ⟨block, blocks⟩
    · cases h
    · rw [List.map_cons, List.map_cons, List.cons_eq_cons] at h
      have htail := ih (fun b hb => hblocks b (by simp [hb])) h.2
      rcases hread : ipv6ToBigInt (asciiText network) with e | n
      · rw [hread] at h
        cases h.1
      · rw [hread] at h
        have hblock : (n, prefixLength) = block := Option.some.inj h.1
        subst hblock
        have hin := ipv6InCidr_iff hvalue (hblocks (n, prefixLength) (by simp)) prefixLength
        rw [inBlockedIpv6, hread]
        show (if ipv6InCidr value n prefixLength then Except.ok true else _) = _
        split
        · next hyes =>
          have hall : Blocked 128 ((n, prefixLength) :: blocks) value :=
            ⟨_, by simp, hin.mp hyes⟩
          rw [decide_eq_true hall]
        · next hno =>
          rw [htail]
          have hout : ¬ InBlock 128 (n, prefixLength) value := fun hyes => hno (hin.mpr hyes)
          have hsame : Blocked 128 blocks value ↔ Blocked 128 ((n, prefixLength) :: blocks) value := by
            simp [Blocked, hout]
          rw [decide_eq_decide.mpr hsame]

/-- **IPv6.**  The addresses outside of the blocks are public. -/
theorem isPublicIpAddress_ipv6 (a : Ipv6Text) :
    isPublicIpAddress a.text = .ok (!decide (Blocked 128 ipv6Blocks a.value)) := by
  have hlt : ∀ block ∈ ipv6Blocks, block.1 < 2 ^ 128 := by decide
  unfold isPublicIpAddress
  rw [isIP_ipv6]
  show isPublicIpv6 a.text = _
  unfold isPublicIpv6
  rw [ipv6ToBigInt_text]
  show (do let blocked ← inBlockedIpv6 a.value blockedIpv6; return !blocked) = _
  rw [inBlockedIpv6_eq a.value_lt hlt map_blockedIpv6]
  rfl

/-- Addresses with a zone are neither public nor not. -/
theorem isPublicIpAddress_of_zone (hip : isIP t = 6) (h : 37 ∈ t) :
    isPublicIpAddress t =
      .error (safeFetchError .disallowedAddress "IPv6 zone identifiers are not allowed") := by
  unfold isPublicIpAddress
  rw [hip]
  show isPublicIpv6 t = _
  unfold isPublicIpv6
  rw [ipv6ToBigInt_of_zone h]
  rfl

/-! ### IPv4 addresses in IPv6 addresses -/

/-- The forms in which an IPv6 address carries an IPv4 address: mapped, compatible, `64:ff9b::/96`
and `2002::/16`. -/
def Carries (value ipv4 : ℕ) : Prop :=
  value = 0xffff * 2 ^ 32 + ipv4 ∨ value = ipv4 ∨ value = 0x0064ff9b * 2 ^ 96 + ipv4 ∨
    value / 2 ^ 80 = 0x2002 * 2 ^ 32 + ipv4

/-- An address that carries another is in a block. -/
theorem blocked_of_carries {value ipv4 : ℕ} (hipv4 : ipv4 < 2 ^ 32) (h : Carries value ipv4) :
    Blocked 128 ipv6Blocks value := by
  rcases h with h | h | h | h
  · refine ⟨(0xffff * 2 ^ 32, 96), by decide, ?_⟩
    show value / 2 ^ 32 = _ / 2 ^ 32
    omega
  · refine ⟨(0, 96), by decide, ?_⟩
    show value / 2 ^ 32 = 0 / 2 ^ 32
    omega
  · refine ⟨(0x0064ff9b * 2 ^ 96, 96), by decide, ?_⟩
    show value / 2 ^ 32 = _ / 2 ^ 32
    omega
  · refine ⟨(0x2002 * 2 ^ 112, 16), by decide, ?_⟩
    show value / 2 ^ 112 = _ / 2 ^ 112
    omega

/-- **Classification is by value.**  A text that is an address without a zone is written like one,
has the value of what is written, and is public if the value is outside of the blocks; so addresses
of one value are public or not, however they are written, and an address that carries a blocked IPv4
address is not public.  A zone is an error. -/
theorem isPublicIpAddress_by_value :
    (∀ t, isIP t = 4 → ∃ q : DottedQuad, q.text = t ∧ (ipv4ToNumber t).toNat = q.value ∧
        isPublicIpAddress t = .ok (!decide (Blocked 32 ipv4Blocks q.value))) ∧
      (∀ t, isIP t = 6 → 37 ∉ t → ∃ a : Ipv6Text, a.text = t ∧ ipv6ToBigInt t = .ok a.value ∧
        isPublicIpAddress t = .ok (!decide (Blocked 128 ipv6Blocks a.value))) ∧
      (∀ q r : DottedQuad, isIP q.text = 4 ∧
        (q.value = r.value → isPublicIpAddress q.text = isPublicIpAddress r.text)) ∧
      (∀ a b : Ipv6Text, isIP a.text = 6 ∧
        (a.value = b.value → isPublicIpAddress a.text = isPublicIpAddress b.text)) ∧
      (∀ (a : Ipv6Text) (q : DottedQuad), Blocked 32 ipv4Blocks q.value →
        Carries a.value q.value → isPublicIpAddress a.text = .ok false) ∧
      (∀ t, isIP t = 6 → 37 ∈ t →
        ipv6ToBigInt t =
            .error (safeFetchError .disallowedAddress "IPv6 zone identifiers are not allowed") ∧
          isPublicIpAddress t =
            .error (safeFetchError .disallowedAddress "IPv6 zone identifiers are not allowed")) := by
  refine ⟨?_, ?_, ?_, ?_, ?_, ?_⟩
  · intro t h
    rcases isIP_eq_four_iff.mp h with ⟨q, rfl⟩
    exact ⟨q, rfl, toNat_ipv4ToNumber q, isPublicIpAddress_ipv4 q⟩
  · intro t h hzone
    rcases exists_ipv6Text h hzone with ⟨a, rfl⟩
    exact ⟨a, rfl, ipv6ToBigInt_text a, isPublicIpAddress_ipv6 a⟩
  · intro q r
    refine ⟨isIP_quad q, ?_⟩
    intro h
    rw [isPublicIpAddress_ipv4, isPublicIpAddress_ipv4, h]
  · intro a b
    refine ⟨isIP_ipv6 a, ?_⟩
    intro h
    rw [isPublicIpAddress_ipv6, isPublicIpAddress_ipv6, h]
  · intro a q _ hcarries
    rw [isPublicIpAddress_ipv6, decide_eq_true (blocked_of_carries q.value_lt hcarries)]
    rfl
  · intro t h hzone
    exact ⟨ipv6ToBigInt_of_zone hzone, isPublicIpAddress_of_zone h hzone⟩

/-- `fe80::1%eth0` is an address for `isIP`, but has no value, and no answer. -/
theorem zone_has_no_value :
    isIP (asciiText "fe80::1%eth0") = 6 ∧
      (ipv6ToBigInt (asciiText "fe80::1%eth0")).toOption = none ∧
      (isPublicIpAddress (asciiText "fe80::1%eth0")).toOption ≠ some false := by
  decide +kernel

end ResearchWorkbench.SafeFetch
