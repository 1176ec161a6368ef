import Mathlib.Data.Nat.Digits.Lemmas
import ResearchWorkbench.Library.Regex

namespace ResearchWorkbench

/-!
# Numerals and separators

Texts of digits and what they stand for, and texts that separators cut, as lists of code units.

* `isDecimalDigit`, `isHexDigit`, `digitValue`, `numeral` — the value of a text of digits;
* `numeralText` — the shortest text of a value: `numeral_numeralText`;
* `splitPair` — `text.split("::")` for a separator of two equal code units;
* `Singly` — no separator next to another, and none at the end: what `splitPair` leaves alone.
-/

/-- `[0-9]`. -/
def isDecimalDigit (c : ℕ) : Bool := 48 ≤ c && c ≤ 57

/-- `[0-9a-fA-F]`. -/
def isHexDigit (c : ℕ) : Bool :=
  isDecimalDigit c || (65 ≤ c && c ≤ 70) || (97 ≤ c && c ≤ 102)

/-- What a digit stands for. -/
def digitValue (c : ℕ) : ℕ := if c ≤ 57 then c - 48 else if c ≤ 70 then c - 55 else c - 87

/-- The digit, in lower case, for a value less than 16. -/
def digitUnit (d : ℕ) : ℕ := if d < 10 then 48 + d else 87 + d

/-- What a text of digits stands for. -/
def numeral (base : ℕ) (t : List ℕ) : ℕ := t.foldl (fun v c => v * base + digitValue c) 0

/-- The shortest text for a value, in lower case. -/
def numeralText (base n : ℕ) : List ℕ :=
  if n = 0 then [48] else (base.digits n).reverse.map digitUnit

/-! ### Digits -/

variable {base c d n : ℕ} {s t u : List ℕ}

theorem isHexDigit_of_isDecimalDigit (h : isDecimalDigit c = true) : isHexDigit c = true := by
  simp [isHexDigit, h]

@[simp] theorem isHexDigit_lowerUnit : isHexDigit (lowerUnit c) = isHexDigit c := by
  unfold lowerUnit
  split
  · rw [Bool.eq_iff_iff]
    simp only [isHexDigit, isDecimalDigit, Bool.or_eq_true, Bool.and_eq_true, decide_eq_true_eq]
    omega
  · rfl

theorem digitValue_lowerUnit (h : isHexDigit c = true) : digitValue (lowerUnit c) = digitValue c := by
  simp only [isHexDigit, isDecimalDigit, Bool.or_eq_true, Bool.and_eq_true, decide_eq_true_eq] at h
  unfold lowerUnit digitValue
  grind

theorem lowerUnit_of_isDecimalDigit (h : isDecimalDigit c = true) : lowerUnit c = c := by
  simp only [isDecimalDigit, Bool.and_eq_true, decide_eq_true_eq] at h
  unfold lowerUnit
  rw [if_neg]
  omega

theorem digitValue_lt (h : isHexDigit c = true) : digitValue c < 16 := by
  simp only [isHexDigit, isDecimalDigit, Bool.or_eq_true, Bool.and_eq_true, decide_eq_true_eq] at h
  unfold digitValue
  grind

@[simp] theorem digitValue_digitUnit : digitValue (digitUnit d) = d := by
  unfold digitValue digitUnit
  grind

@[simp] theorem lowerUnit_digitUnit : lowerUnit (digitUnit d) = digitUnit d := by
  unfold lowerUnit digitUnit
  grind

theorem isHexDigit_digitUnit (h : d < 16) : isHexDigit (digitUnit d) = true := by
  simp only [isHexDigit, isDecimalDigit, Bool.or_eq_true, Bool.and_eq_true, decide_eq_true_eq]
  unfold digitUnit
  split <;> omega

/-! ### Texts of digits -/

/-- Letters of either case stand for the same. -/
theorem numeral_map_lowerUnit (h : ∀ c ∈ t, isHexDigit c = true) :
    numeral base (t.map lowerUnit) = numeral base t := by
  unfold numeral
  generalize 0 = v
  induction t generalizing v with
  | nil => rfl
  | cons c t ih =>
    simp only [List.map_cons, List.foldl_cons]
    rw [digitValue_lowerUnit (h c (by simp)), ih (fun d hd => h d (by simp [hd]))]

theorem numeral_append_singleton : numeral base (t ++ [c]) = numeral base t * base + digitValue c := by
  simp [numeral]

theorem numeral_append :
    numeral base (s ++ t) = numeral base s * base ^ t.length + numeral base t := by
  induction t using List.reverseRecOn with
  | nil => simp [numeral]
  | append_singleton t c ih =>
    rw [← List.append_assoc, numeral_append_singleton, ih, numeral_append_singleton,
      List.length_append, List.length_singleton, pow_succ]
    ring

/-- A text of zeros. -/
@[simp] theorem numeral_replicate_zero (k : ℕ) : numeral base (List.replicate k 48) = 0 := by
  induction k with
  | zero => rfl
  | succ k ih => rw [List.replicate_succ', numeral_append_singleton, ih]; simp [digitValue]

theorem numeral_lt (h : ∀ c ∈ t, isHexDigit c = true) : numeral 16 t < 16 ^ t.length := by
  induction t using List.reverseRecOn with
  | nil => simp [numeral]
  | append_singleton t c ih =>
    have hlt := ih (fun d hd => h d (by simp [hd]))
    have hc := digitValue_lt (h c (by simp))
    rw [numeral_append_singleton, List.length_append, List.length_singleton, pow_succ]
    omega

/-- The shortest text for a value stands for the value. -/
theorem numeral_numeralText (base n : ℕ) : numeral base (numeralText base n) = n := by
  unfold numeralText
  split
  · next h => subst h; simp [numeral, digitValue]
  · unfold numeral
    rw [List.foldl_map, List.foldl_reverse]
    conv_rhs => rw [← Nat.ofDigits_digits base n, Nat.ofDigits_eq_foldr]
    refine List.foldr_ext _ _ _ ?_
    intro d _ v
    rw [digitValue_digitUnit, Nat.cast_id, Nat.mul_comm, Nat.add_comm]

theorem isHexDigit_of_mem_numeralText (hbase : 1 < base) (hle : base ≤ 16)
    (hc : c ∈ numeralText base n) : isHexDigit c = true := by
  unfold numeralText at hc
  split at hc
  · rw [List.mem_singleton.mp hc]
    rfl
  · rcases List.mem_map.mp hc with ⟨d, hd, rfl⟩
    exact isHexDigit_digitUnit
      (lt_of_lt_of_le (Nat.digits_lt_base hbase (List.mem_reverse.mp hd)) hle)

theorem isDecimalDigit_of_mem_numeralText (hc : c ∈ numeralText 10 n) :
    isDecimalDigit c = true := by
  unfold numeralText at hc
  split at hc
  · rw [List.mem_singleton.mp hc]
    rfl
  · rcases List.mem_map.mp hc with ⟨d, hd, rfl⟩
    have hlt : d < 10 := Nat.digits_lt_base (by omega) (List.mem_reverse.mp hd)
    simp only [isDecimalDigit, Bool.and_eq_true, decide_eq_true_eq]
    unfold digitUnit
    split <;> omega

/-- The shortest text for a value is in lower case. -/
@[simp] theorem map_lowerUnit_numeralText :
    (numeralText base n).map lowerUnit = numeralText base n := by
  unfold numeralText
  split
  · rfl
  · simp [Function.comp_def]

theorem numeralText_ne_nil : numeralText base n ≠ [] := by
  unfold numeralText
  split
  · simp
  · next h => simp [Nat.digits_ne_nil_iff_ne_zero.mpr h]

theorem length_numeralText_le (hbase : 1 < base) {k : ℕ} (hk : 0 < k) (hn : n < base ^ k) :
    (numeralText base n).length ≤ k := by
  unfold numeralText
  split
  · rw [List.length_singleton]
    omega
  · simpa using (Nat.digits_length_le_iff hbase n).mpr hn

/-! ### Pairs of separators -/

/-- The text cut at each pair of separators, from the left. -/
def splitPair (sep : ℕ) : List ℕ → List (List ℕ)
  | [] => [[]]
  | [c] => [[c]]
  | c :: d :: rest =>
    if c = sep ∧ d = sep then [] :: splitPair sep rest
    else (splitPair sep (d :: rest)).modifyHead (c :: ·)

/-- Every separator is followed by something else. -/
def Singly (sep : ℕ) : List ℕ → Prop
  | [] => True
  | c :: rest => (c = sep → ∃ d ∈ rest.head?, d ≠ sep) ∧ Singly sep rest

variable {sep : ℕ}

theorem splitPair_ne_nil : splitPair sep t ≠ [] := by
  fun_induction splitPair sep t with
  | case1 => simp
  | case2 c => simp
  | case3 d rest ih => simp
  | case4 c d rest h ih => simp [List.modifyHead_eq_nil_iff, ih]

/-- A character of joined pieces is the separator, or of a piece. -/
theorem mem_intercalate {sep c : ℕ} {pieces : List (List ℕ)}
    (h : c ∈ [sep].intercalate pieces) : c = sep ∨ ∃ p ∈ pieces, c ∈ p := by
  induction pieces with
  | nil => cases h
  | cons p ps ih =>
    rcases ps with _ | ⟨q, qs⟩
    · exact .inr ⟨p, by simp, by simpa using h⟩
    · rw [List.intercalate_cons_of_ne_nil (by simp), List.mem_append, List.mem_append] at h
      rcases h with (h | h) | h
      · exact .inr ⟨p, by simp, h⟩
      · exact .inl (by simpa using h)
      · rcases ih h with h | ⟨r, hr, hc⟩
        · exact .inl h
        · exact .inr ⟨r, by simp [hr], hc⟩

/-- The pieces, with the pairs between them again. -/
theorem intercalate_splitPair : [sep, sep].intercalate (splitPair sep t) = t := by
  fun_induction splitPair sep t with
  | case1 => rfl
  | case2 c => rfl
  | case3 c d rest h ih =>
    rw [List.intercalate_cons_of_ne_nil splitPair_ne_nil, ih, h.1, h.2]
    rfl
  | case4 c d rest h ih =>
    rcases hcut : splitPair sep (d :: rest) with _ | ⟨p, ps⟩
    · exact absurd hcut splitPair_ne_nil
    · rw [hcut] at ih
      rw [List.modifyHead_cons]
      rcases ps with _ | ⟨q, qs⟩
      · simpa using ih
      · rw [List.intercalate_cons_of_ne_nil (by simp)] at ih ⊢
        simp [← ih]

theorem Singly.splitPair_eq (h : Singly sep t) : splitPair sep t = [t] := by
  fun_induction splitPair sep t with
  | case1 => rfl
  | case2 c => rfl
  | case3 c d rest hpair ih =>
    rcases h.1 hpair.1 with ⟨e, he, hne⟩
    rw [List.head?_cons, Option.mem_some_iff] at he
    exact absurd hpair.2 (he ▸ hne)
  | case4 c d rest hpair ih =>
    rw [ih h.2, List.modifyHead_cons]

theorem Singly.splitPair_append (h : Singly sep s) :
    splitPair sep (s ++ sep :: sep :: t) = s :: splitPair sep t := by
  induction s with
  | nil => simp [splitPair]
  | cons c s ih =>
    have htail := ih h.2
    rcases s with _ | ⟨d, s⟩
    · have hc : c ≠ sep := by
        intro hc
        rcases h.1 hc with ⟨e, he, -⟩
        cases he
      simp only [List.nil_append] at htail
      simp [splitPair, hc]
    · have hpair : ¬ (c = sep ∧ d = sep) := by
        rintro ⟨hc, hd⟩
        rcases h.1 hc with ⟨e, he, hne⟩
        rw [List.head?_cons, Option.mem_some_iff] at he
        exact hne (he ▸ hd)
      rw [List.cons_append, List.cons_append] at *
      rw [splitPair, if_neg hpair, htail, List.modifyHead_cons]

theorem singly_of_notMem (h : sep ∉ t) : Singly sep t := by
  induction t with
  | nil => trivial
  | cons c t ih =>
    rw [List.mem_cons, not_or] at h
    exact ⟨fun hc => absurd hc.symm h.1, ih h.2⟩

/-- Pieces without separators that are not empty, joined. -/
theorem singly_intercalate {pieces : List (List ℕ)} (hne : ∀ p ∈ pieces, p ≠ [])
    (hsep : ∀ p ∈ pieces, sep ∉ p) : Singly sep ([sep].intercalate pieces) := by
  induction pieces with
  | nil => trivial
  | cons p ps ih =>
    have htail := ih (fun q hq => hne q (by simp [hq])) (fun q hq => hsep q (by simp [hq]))
    rcases ps with _ | ⟨q, qs⟩
    · simpa using singly_of_notMem (hsep p (by simp))
    · rw [List.intercalate_cons_of_ne_nil (by simp), List.append_assoc]
      have hq : ∃ d ∈ ([sep].intercalate (q :: qs)).head?, d ≠ sep := by
        rcases q with _ | ⟨d, q⟩
        · exact absurd rfl (hne [] (by simp))
        · refine ⟨d, ?_, ?_⟩
          · rcases qs with _ | ⟨r, rs⟩
            · simp
            · rw [List.intercalate_cons_of_ne_nil (by simp)]
              simp
          · rintro rfl
            exact hsep (d :: q) (by simp) (by simp)
      have hp := hsep p (by simp)
      clear ih hne hsep
      induction p with
      | nil => exact ⟨fun _ => hq, htail⟩
      | cons c p ihp =>
        rw [List.mem_cons, not_or] at hp
        exact ⟨fun hc => absurd hc.symm hp.1, ihp hp.2⟩

end ResearchWorkbench
