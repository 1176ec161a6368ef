import Mathlib.Data.List.TakeWhile
import Mathlib.Tactic.WLOG
import ResearchWorkbench.Library.Numerals

namespace ResearchWorkbench

/-!
# Decimal numbers

Numbers as a program writes them: the shortest digits, and where the point stands.

* `Decimal` — a number by its sign, its digits without trailing zeros and its point;
* `Decimal.text` — `Number.prototype.toString`;
* `Decimal.reading` — what a text of a number stands for: digits and a power of ten;
* `Decimal.text_injective` — two numbers with one text are the same number.
-/

/-- A finite number.  A number other than zero is `0.significand × 10 ^ point` up to its sign, and
its significand has no trailing zero. -/
inductive Decimal
  | zero
  | nonzero (negative : Bool) (significand : ℕ) (point : ℤ) (normal : significand % 10 ≠ 0)
  deriving DecidableEq

/-- The digits of a text with their point after the first one. -/
def pointAfterFirst : List ℕ → List ℕ
  | c :: d :: rest => c :: 46 :: d :: rest
  | digits => digits

/-- The text of a positive number `0.s × 10 ^ n`, by the steps of `Number::toString`. -/
def positiveText (s : ℕ) (n : ℤ) : List ℕ :=
  let digits := numeralText 10 s
  if digits.length ≤ n ∧ n ≤ 21 then digits ++ List.replicate (n - digits.length).toNat 48
  else if 0 < n ∧ n ≤ 21 then digits.take n.toNat ++ 46 :: digits.drop n.toNat
  else if -6 < n ∧ n ≤ 0 then 48 :: 46 :: (List.replicate (-n).toNat 48 ++ digits)
  else pointAfterFirst digits ++ 101 :: (if n < 0 then 45 else 43) :: numeralText 10 (n - 1).natAbs

namespace Decimal

/-- `String(n)`. -/
def text : Decimal → List ℕ
  | zero => [48]
  | nonzero negative s n _ => (if negative then [45] else []) ++ positiveText s n

/-! ### Reading a number -/

/-- What the part of a text from its `e` on says of the power of ten. -/
def exponentOf : List ℕ → ℤ
  | [] => 0
  | [_] => 0
  | _ :: sign :: digits => if sign = 45 then -(numeral 10 digits : ℤ) else numeral 10 digits

/-- What a text without an exponent stands for: its digits, and the power of ten of the last. -/
def readMantissa (t : List ℕ) : ℕ × ℤ :=
  let whole := t.takeWhile (· ≠ 46)
  let fraction := (t.dropWhile (· ≠ 46)).drop 1
  (numeral 10 (whole ++ fraction), -(fraction.length : ℤ))

/-- What the text of a positive number stands for. -/
def reading (t : List ℕ) : ℕ × ℤ :=
  let mantissa := readMantissa (t.takeWhile (· ≠ 101))
  (mantissa.1, mantissa.2 + exponentOf (t.dropWhile (· ≠ 101)))

variable {s s' j j' c : ℕ} {n : ℤ} {t whole fraction : List ℕ} {d e : Decimal}

theorem readMantissa_whole (h : ∀ c ∈ t, c ≠ 46) : readMantissa t = (numeral 10 t, 0) := by
  have htake : t.takeWhile (· ≠ 46) = t := List.takeWhile_eq_self_iff.mpr (by simpa using h)
  have hdrop : t.dropWhile (· ≠ 46) = [] := List.dropWhile_eq_nil_iff.mpr (by simpa using h)
  unfold readMantissa
  rw [htake, hdrop]
  simp

theorem readMantissa_point (h : ∀ c ∈ whole, c ≠ 46) :
    readMantissa (whole ++ 46 :: fraction) =
      (numeral 10 (whole ++ fraction), -(fraction.length : ℤ)) := by
  have htake : (whole ++ 46 :: fraction).takeWhile (· ≠ 46) = whole := by
    rw [List.takeWhile_append_of_pos (by simpa using h)]
    simp
  have hdrop : (whole ++ 46 :: fraction).dropWhile (· ≠ 46) = 46 :: fraction := by
    rw [List.dropWhile_append_of_pos (by simpa using h)]
    simp
  unfold readMantissa
  rw [htake, hdrop]
  rfl

theorem reading_mantissa (h : ∀ c ∈ t, c ≠ 101) : reading t = readMantissa t := by
  have htake : t.takeWhile (· ≠ 101) = t := List.takeWhile_eq_self_iff.mpr (by simpa using h)
  have hdrop : t.dropWhile (· ≠ 101) = [] := List.dropWhile_eq_nil_iff.mpr (by simpa using h)
  unfold reading
  rw [htake, hdrop]
  simp [exponentOf]

theorem reading_exponent (h : ∀ c ∈ t, c ≠ 101) (exponent : List ℕ) :
    reading (t ++ 101 :: exponent) =
      ((readMantissa t).1, (readMantissa t).2 + exponentOf (101 :: exponent)) := by
  have htake : (t ++ 101 :: exponent).takeWhile (· ≠ 101) = t := by
    rw [List.takeWhile_append_of_pos (by simpa using h)]
    simp
  have hdrop : (t ++ 101 :: exponent).dropWhile (· ≠ 101) = 101 :: exponent := by
    rw [List.dropWhile_append_of_pos (by simpa using h)]
    simp
  unfold reading
  rw [htake, hdrop]

/-! ### The text of a positive number -/

theorem digit_ne (h : c ∈ numeralText 10 s) : c ≠ 46 ∧ c ≠ 101 := by
  have hdigit := isDecimalDigit_of_mem_numeralText h
  simp only [isDecimalDigit, Bool.and_eq_true, decide_eq_true_eq] at hdigit
  omega

/-- A point after the first digit changes the power of ten only. -/
theorem readMantissa_pointAfterFirst (h : ∀ c ∈ t, c ≠ 46) (hne : t ≠ []) :
    readMantissa (pointAfterFirst t) = (numeral 10 t, 1 - (t.length : ℤ)) := by
  rcases t with _ | ⟨c, _ | ⟨d, rest⟩⟩
  · exact absurd rfl hne
  · show readMantissa [c] = _
    rw [readMantissa_whole h]
    simp
  · show readMantissa ([c] ++ 46 :: d :: rest) = _
    rw [readMantissa_point (by simpa using h c)]
    simp only [List.singleton_append, List.length_cons, Nat.cast_add, Nat.cast_one, Prod.mk.injEq,
      true_and]
    omega

theorem mem_pointAfterFirst (h : c ∈ pointAfterFirst t) : c ∈ t ∨ c = 46 := by
  rcases t with _ | ⟨d, _ | ⟨e, rest⟩⟩
  · exact .inl h
  · exact .inl h
  · simp only [pointAfterFirst, List.mem_cons] at h ⊢
    rcases h with h | h | h | h
    · exact .inl (.inl h)
    · exact .inr h
    · exact .inl (.inr (.inl h))
    · exact .inl (.inr (.inr h))

/-- **The text of a positive number.**  It stands for the digits, with zeros after them perhaps, and
for the power of ten of the last digit. -/
theorem reading_positiveText (s : ℕ) (n : ℤ) :
    ∃ j : ℕ, reading (positiveText s n) = (s * 10 ^ j, n - (numeralText 10 s).length - j) := by
  have hpoint : ∀ c ∈ numeralText 10 s, c ≠ 46 := fun _ h => (digit_ne h).1
  have hexp : ∀ c ∈ numeralText 10 s, c ≠ 101 := fun _ h => (digit_ne h).2
  have hvalue := numeral_numeralText 10 s
  unfold positiveText
  simp only
  split
  · -- an integer whose digits end at the point or before it
    rename_i h
    refine ⟨(n - (numeralText 10 s).length).toNat, ?_⟩
    have hzero : ∀ c ∈ numeralText 10 s ++
        List.replicate (n - (numeralText 10 s).length).toNat 48, c ≠ 46 ∧ c ≠ 101 := by
      intro c hc
      rcases List.mem_append.mp hc with hc | hc
      · exact digit_ne hc
      · rw [List.eq_of_mem_replicate hc]
        omega
    rw [reading_mantissa fun c hc => (hzero c hc).2, readMantissa_whole fun c hc => (hzero c hc).1,
      numeral_append, numeral_replicate_zero, hvalue, List.length_replicate]
    simp only [Nat.add_zero, Prod.mk.injEq, true_and]
    omega
  split
  · -- the point is among the digits
    rename_i _ h
    refine ⟨0, ?_⟩
    rw [reading_mantissa, readMantissa_point fun c hc => hpoint c (List.mem_of_mem_take hc),
      List.take_append_drop, hvalue, List.length_drop]
    · simp only [Nat.pow_zero, Nat.mul_one, Prod.mk.injEq, true_and]
      omega
    · intro c hc
      rcases List.mem_append.mp hc with hc | hc
      · exact hexp c (List.mem_of_mem_take hc)
      · rcases List.mem_cons.mp hc with rfl | hc
        · omega
        · exact hexp c (List.mem_of_mem_drop hc)
  split
  · -- the point is before the digits, with few zeros between
    rename_i _ _ h
    refine ⟨0, ?_⟩
    show reading ([48] ++ 46 :: (List.replicate (-n).toNat 48 ++ numeralText 10 s)) = _
    have hzeros : numeral 10 ([48] ++ (List.replicate (-n).toNat 48 ++ numeralText 10 s)) = s := by
      rw [← List.append_assoc, numeral_append, List.singleton_append, ← List.replicate_succ,
        numeral_replicate_zero, hvalue]
      omega
    rw [reading_mantissa, readMantissa_point (by simp), hzeros, List.length_append,
      List.length_replicate]
    · simp only [Nat.pow_zero, Nat.mul_one, Prod.mk.injEq, true_and]
      omega
    · intro c hc
      simp only [List.singleton_append, List.mem_cons, List.mem_append, List.mem_replicate] at hc
      rcases hc with rfl | rfl | ⟨-, rfl⟩ | hc
      · omega
      · omega
      · omega
      · exact hexp c hc
  · -- the text has an exponent, whose sign is that of `n`
    rename_i h₁ h₂ h₃
    refine ⟨0, ?_⟩
    have hlen : 0 < (numeralText 10 s).length := List.length_pos_of_ne_nil numeralText_ne_nil
    have hexponent : exponentOf
        (101 :: (if n < 0 then 45 else 43) :: numeralText 10 (n - 1).natAbs) = n - 1 := by
      unfold exponentOf
      simp only [numeral_numeralText]
      split
      · rw [if_pos rfl]
        omega
      · rw [if_neg (by omega)]
        omega
    rw [reading_exponent, readMantissa_pointAfterFirst hpoint numeralText_ne_nil, hvalue, hexponent]
    · simp only [Nat.pow_zero, Nat.mul_one, Prod.mk.injEq, true_and]
      omega
    · intro c hc
      rcases mem_pointAfterFirst hc with hc | rfl
      · exact hexp c hc
      · omega

theorem positiveText_units (h : c ∈ positiveText s n) :
    isDecimalDigit c = true ∨ c = 43 ∨ c = 45 ∨ c = 46 ∨ c = 101 := by
  unfold positiveText at h
  simp only at h
  split at h
  · rcases List.mem_append.mp h with h | h
    · exact .inl (isDecimalDigit_of_mem_numeralText h)
    · rw [List.eq_of_mem_replicate h]
      exact .inl rfl
  split at h
  · rcases List.mem_append.mp h with h | h
    · exact .inl (isDecimalDigit_of_mem_numeralText (List.mem_of_mem_take h))
    · rcases List.mem_cons.mp h with rfl | h
      · omega
      · exact .inl (isDecimalDigit_of_mem_numeralText (List.mem_of_mem_drop h))
  split at h
  · simp only [List.mem_cons, List.mem_append, List.mem_replicate] at h
    rcases h with rfl | rfl | ⟨-, rfl⟩ | h
    · exact .inl rfl
    · omega
    · exact .inl rfl
    · exact .inl (isDecimalDigit_of_mem_numeralText h)
  · simp only [List.mem_append, List.mem_cons] at h
    rcases h with h | rfl | h | h
    · rcases mem_pointAfterFirst h with h | rfl
      · exact .inl (isDecimalDigit_of_mem_numeralText h)
      · omega
    · omega
    · split at h <;> omega
    · exact .inl (isDecimalDigit_of_mem_numeralText h)

/-- The text of a positive number begins with a digit. -/
theorem positiveText_head (s : ℕ) (n : ℤ) :
    ∃ c rest, positiveText s n = c :: rest ∧ isDecimalDigit c = true := by
  rcases hdigits : numeralText 10 s with _ | ⟨c, digits⟩
  · exact absurd hdigits numeralText_ne_nil
  have hc : isDecimalDigit c = true :=
    isDecimalDigit_of_mem_numeralText (n := s) (by rw [hdigits]; exact List.mem_cons_self)
  unfold positiveText
  simp only [hdigits]
  split
  · exact ⟨c, _, rfl, hc⟩
  split
  · rename_i h
    rw [show n.toNat = n.toNat - 1 + 1 by omega]
    exact ⟨c, _, rfl, hc⟩
  split
  · exact ⟨48, _, rfl, rfl⟩
  · rcases digits with _ | ⟨d, digits⟩
    · exact ⟨c, _, rfl, hc⟩
    · exact ⟨c, _, rfl, hc⟩

/-! ### Numbers with one text -/

/-- Zeros after digits that end with another digit can be told from it. -/
theorem eq_of_mul_pow_eq (hs : s % 10 ≠ 0) (hs' : s' % 10 ≠ 0) (h : s * 10 ^ j = s' * 10 ^ j') :
    s = s' ∧ j = j' := by
  wlog hle : j ≤ j' with H
  · rcases H hs' hs h.symm (by omega) with ⟨rfl, rfl⟩
    exact ⟨rfl, rfl⟩
  rcases Nat.exists_eq_add_of_le hle with ⟨k, rfl⟩
  have hmul : s = s' * 10 ^ k := by
    refine Nat.eq_of_mul_eq_mul_right (Nat.pow_pos (n := j) (by omega : 0 < 10)) ?_
    rw [h, Nat.pow_add]
    ring
  rcases k with _ | k
  · exact ⟨by simpa using hmul, rfl⟩
  · refine absurd ?_ hs
    rw [hmul, Nat.pow_succ, ← Nat.mul_assoc, Nat.mul_mod_left]

theorem positiveText_injective {n' : ℤ} (hs : s % 10 ≠ 0) (hs' : s' % 10 ≠ 0)
    (h : positiveText s n = positiveText s' n') : s = s' ∧ n = n' := by
  rcases reading_positiveText s n with ⟨j, hj⟩
  rcases reading_positiveText s' n' with ⟨j', hj'⟩
  rw [h, hj', Prod.mk.injEq] at hj
  rcases eq_of_mul_pow_eq hs hs' hj.1.symm with ⟨rfl, rfl⟩
  exact ⟨rfl, by omega⟩

/-- **Two numbers with one text are the same number.** -/
theorem text_injective (h : d.text = e.text) : d = e := by
  -- a minus sign is no digit
  have hminus : ∀ (s : ℕ) (n : ℤ) (t : List ℕ), positiveText s n ≠ 45 :: t := by
    intro s n t heq
    rcases positiveText_head s n with ⟨c, rest, hhead, hc⟩
    rw [hhead] at heq
    rw [(List.cons.inj heq).1] at hc
    exact absurd hc (by decide)
  -- the text of zero stands for no digits
  have hzero : ∀ (s : ℕ) (n : ℤ), s % 10 ≠ 0 → positiveText s n ≠ [48] := by
    intro s n hs heq
    rcases reading_positiveText s n with ⟨j, hj⟩
    rw [heq] at hj
    have hprod : s * 10 ^ j = 0 := (congrArg Prod.fst hj).symm
    rcases Nat.mul_eq_zero.mp hprod with rfl | hpow
    · exact hs rfl
    · exact absurd hpow (Nat.pow_pos (by omega)).ne'
  rcases d with _ | ⟨negative, s, n, hs⟩ <;> rcases e with _ | ⟨negative', s', n', hs'⟩
  · rfl
  · rcases negative'
    · exact absurd h.symm (hzero s' n' hs')
    · exact absurd (List.cons.inj h).1 (by omega)
  · rcases negative
    · exact absurd h (hzero s n hs)
    · exact absurd (List.cons.inj h).1 (by omega)
  · simp only [text] at h
    rcases negative <;> rcases negative'
    · rcases positiveText_injective hs hs' h with ⟨rfl, rfl⟩
      rfl
    · exact absurd h (hminus s n _)
    · exact absurd h.symm (hminus s' n' _)
    · rcases positiveText_injective hs hs' (List.cons.inj h).2 with ⟨rfl, rfl⟩
      rfl

end Decimal

end ResearchWorkbench
