import Mathlib.Data.List.TakeWhile
import ResearchWorkbench.Quality.BracketGroups
import ResearchWorkbench.Quality.Texts

namespace ResearchWorkbench.Qa

/-!
# Numbers

A number is a run of digits with an optional decimal fraction.  The quality check looks for numbers
that no letter stands before, in texts without their brackets.

* `numbersOf`, `IsRun` — the numbers of a text, and the runs of digits and points that they stand in;
* `hasJoinedDigit`, `numberTokens_eq` — where no digit follows a letter, all numbers are looked for;
* `mem_numberTokens_of_run` — a number in a run that no letter stands before is looked for;
* `exists_sentence` — a text without white space stands in a sentence.
-/

variable {text p q run n : Text} {b : Option ℕ} {s t : Text}

/-! ### Numbers and runs -/

/-- The runs of digits, with an optional decimal fraction, from left to right. -/
def numbersOf (text : Text) : List Text := decimalPattern.matchAll text

/-- `[0-9.]`. -/
def isNumeralUnit (c : ℕ) : Bool := isDigitUnit c || c = 46

/-- A run of digits and points between two texts, as long as it can be. -/
structure IsRun (p run q : Text) : Prop where
  units : ∀ c ∈ run, isNumeralUnit c = true
  left : ∀ c ∈ p.getLast?, isNumeralUnit c = false
  right : ∀ c ∈ q.head?, isNumeralUnit c = false

theorem isNumeralUnit_eq_false {c : ℕ} :
    isNumeralUnit c = false ↔ isDigitUnit c = false ∧ c ≠ 46 := by
  rw [isNumeralUnit, Bool.or_eq_false_iff, decide_eq_false_iff_not]

theorem mem_decimalPattern {r : Text × Place} (h : r ∈ decimalPattern ⟨b, t⟩) :
    t = r.1 ++ r.2.rest ∧ r.2.before = Pattern.lastBefore b r.1 := by
  unfold decimalPattern at h
  rcases Pattern.mem_bind.mp h with ⟨whole, hwhole, h⟩
  rcases Pattern.mem_bind.mp h with ⟨fraction, hfraction, h⟩
  rw [Pattern.mem_pure] at h
  subst h
  have ht : t = whole.1 ++ whole.2.rest := (Pattern.mem_many hwhole).1
  have hbefore : whole.2.before = Pattern.lastBefore b whole.1 :=
    Pattern.mem_manyFrom_before hwhole
  rcases Pattern.mem_optional hfraction with ⟨digits, hdigits, hmem⟩ | hnone
  · rcases Pattern.mem_bind.mp hmem with ⟨point, hpoint, hmany⟩
    rcases Pattern.mem_unit hpoint with ⟨hrest, h46⟩
    have hrest' := (Pattern.mem_many hmany).1
    have hbefore' := Pattern.mem_manyFrom_before hmany
    have hpoint' : point.2.before = some 46 := by
      rw [Pattern.mem_unit_before hpoint, of_decide_eq_true h46]
    rw [hdigits, ht, hrest, hrest', of_decide_eq_true h46]
    refine ⟨by simp only [Option.elim_some, List.append_assoc, List.cons_append], ?_⟩
    rw [Option.elim_some, Pattern.lastBefore_append]
    show _ = Pattern.lastBefore (some 46) digits
    rw [← hpoint']
    exact hbefore'
  · rw [hnone]
    exact ⟨by rw [ht, Option.elim_none, List.append_nil], by
      rw [Option.elim_none, List.append_nil, ← hbefore]⟩

/-! ### Digits behind letters -/

/-- A digit directly follows a letter. -/
def hasJoinedDigit : Option ℕ → Text → Bool
  | _, [] => false
  | b, c :: rest => (b.any isLetterUnit && isDigitUnit c) || hasJoinedDigit (some c) rest

theorem hasJoinedDigit_append (h : hasJoinedDigit b (s ++ t) = false) :
    hasJoinedDigit (Pattern.lastBefore b s) t = false := by
  induction s generalizing b with
  | nil => exact h
  | cons c s ih =>
    rw [List.cons_append, hasJoinedDigit, Bool.or_eq_false_iff] at h
    exact ih h.2

/-- No number begins with anything but a digit. -/
theorem decimalPattern_of_not_digit {c : ℕ} (h : isDigitUnit c = false) :
    decimalPattern ⟨b, c :: t⟩ = [] := by
  rw [List.eq_nil_iff_forall_not_mem]
  intro r hr
  unfold decimalPattern at hr
  rcases Pattern.mem_bind.mp hr with ⟨whole, hwhole, _⟩
  rcases Pattern.mem_many hwhole with ⟨hrest, hunits, hlength⟩
  rcases List.exists_cons_of_length_pos hlength with ⟨d, whole', heq⟩
  rw [heq, List.cons_append] at hrest
  obtain ⟨rfl, _⟩ := List.cons.inj hrest
  rw [hunits c (heq ▸ List.mem_cons_self)] at h
  cases h

/-- Where no digit follows a letter, numbers are searched as they are. -/
theorem scan_numberPattern (h : hasJoinedDigit b t = false) :
    numberPattern.scan ⟨b, t⟩ = decimalPattern.scan ⟨b, t⟩ := by
  generalize hn : t.length = k
  induction k using Nat.strongRecOn generalizing b t with
  | _ k ih =>
    cases t with
    | nil =>
      rw [Pattern.scan_nil numberPattern_consumes, Pattern.scan_nil decimalPattern_consumes]
    | cons c t =>
      rw [List.length_cons] at hn
      rw [hasJoinedDigit, Bool.or_eq_false_iff, Bool.and_eq_false_iff] at h
      have hsame : numberPattern ⟨b, c :: t⟩ = decimalPattern ⟨b, c :: t⟩ := by
        rcases h.1 with hletter | hdigit
        · exact numberPattern_of_not_letter hletter
        · rw [decimalPattern_of_not_digit hdigit, List.eq_nil_iff_forall_not_mem]
          intro r hr
          unfold numberPattern at hr
          rcases Pattern.mem_bind.mp hr with ⟨place, hplace, hr⟩
          rw [(Pattern.mem_notBehind hplace).1, decimalPattern_of_not_digit hdigit] at hr
          cases hr
      rcases hfound : decimalPattern ⟨b, c :: t⟩ with _ | ⟨⟨n, found⟩, others⟩
      · rw [Pattern.scan_skip hfound, Pattern.scan_skip (hsame.trans hfound),
          ih t.length (by omega) h.2 rfl]
      · have hhead : (decimalPattern ⟨b, c :: t⟩).head? = some (n, found) := by rw [hfound]; rfl
        have hmem : (n, found) ∈ decimalPattern ⟨b, c :: t⟩ := by
          rw [hfound]
          exact List.mem_cons_self
        rcases mem_decimalPattern hmem with ⟨ht, hbefore⟩
        have hlt := decimalPattern_consumes _ _ hmem
        have hrest : hasJoinedDigit found.before found.rest = false := by
          rw [show found.before = Pattern.lastBefore b n from hbefore]
          refine hasJoinedDigit_append ?_
          rw [← show c :: t = n ++ found.rest from ht, hasJoinedDigit, Bool.or_eq_false_iff,
            Bool.and_eq_false_iff]
          exact h
        rw [Pattern.scan_found decimalPattern_consumes hhead,
          Pattern.scan_found numberPattern_consumes (hsame ▸ hhead),
          ih found.rest.length (by rw [← hn]; exact hlt) hrest rfl]

/-- **Where no digit follows a letter, all numbers are looked for.** -/
theorem numberTokens_eq (h : hasJoinedDigit none text = false) :
    numberTokens text = numbersOf text := by
  rw [numberTokens, numbersOf, Pattern.matchAll, Pattern.matchAll, scan_numberPattern h]

/-! ### Numbers in runs -/

/-- In a run no digit follows a letter. -/
theorem hasJoinedDigit_run (hunits : ∀ c ∈ run, isNumeralUnit c = true)
    (hb : b.any isLetterUnit = false) : hasJoinedDigit b run = false := by
  induction run generalizing b with
  | nil => rfl
  | cons c run ih =>
    rw [List.forall_mem_cons] at hunits
    rw [hasJoinedDigit, hb, Bool.false_and, Bool.false_or]
    refine ih hunits.2 ?_
    have hc := hunits.1
    simp only [isNumeralUnit, isDigitUnit, Bool.or_eq_true, Bool.and_eq_true,
      decide_eq_true_eq] at hc
    simp only [Option.any_some, isLetterUnit, Bool.or_eq_false_iff, Bool.and_eq_false_iff,
      decide_eq_false_iff_not]
    omega

/-- **A number in a run that no letter stands before is looked for.** -/
theorem mem_numberTokens_of_run (hrun : IsRun p run q) (hn : n ∈ numbersOf run)
    (hletter : ∀ c ∈ p.getLast?, isLetterUnit c = false) : n ∈ numberTokens (p ++ (run ++ q)) := by
  have hstops {c : ℕ} (hc : isNumeralUnit c = false) : numberPattern.StopsAt c :=
    numberPattern_stopsAt (isNumeralUnit_eq_false.mp hc).1 (isNumeralUnit_eq_false.mp hc).2
  have hfound {b : Option ℕ} (hb : b.any isLetterUnit = false) :
      n ∈ numberPattern.capturesFrom ⟨b, run ++ q⟩ := by
    have hrunOnly : n ∈ numberPattern.capturesFrom ⟨b, run⟩ := by
      rw [Pattern.capturesFrom, scan_numberPattern (hasJoinedDigit_run hrun.units hb),
        Pattern.scan_congr_before (decimalPattern_before b none)]
      exact hn
    cases q with
    | nil =>
      rw [List.append_nil]
      exact hrunOnly
    | cons c q =>
      rw [Pattern.capturesFrom_append_cons numberPattern_consumes (hstops (hrun.right c rfl))]
      exact List.mem_append_left _ hrunOnly
  rw [numberTokens, Pattern.matchAll_eq_capturesFrom]
  rcases List.eq_nil_or_concat p with rfl | ⟨p, c, rfl⟩
  · exact hfound rfl
  · have hlast : c ∈ (p.concat c).getLast? := by
      rw [List.concat_eq_append, List.getLast?_concat]
      rfl
    rw [List.concat_eq_append, List.append_assoc, List.singleton_append,
      Pattern.capturesFrom_append_cons numberPattern_consumes (hstops (hrun.left c hlast))]
    exact List.mem_append_right _ (hfound (hletter c hlast))

/-! ### Sentences -/

/-- What parts two sentences is white space. -/
theorem mem_sentenceBreak {place : Place} {r : Text × Place} (h : r ∈ sentenceBreak place) :
    place.rest = r.1 ++ r.2.rest ∧ (∀ c ∈ r.1, isSpaceUnit c = true) ∧ 1 ≤ r.1.length := by
  rcases List.mem_append.mp h with h | h
  · rcases Pattern.mem_many h with ⟨hrest, hunits, hlength⟩
    refine ⟨hrest, fun c hc => ?_, hlength⟩
    rw [of_decide_eq_true (hunits c hc)]
    rfl
  · rcases Pattern.mem_bind.mp h with ⟨place', hplace, h⟩
    have hsame : place'.2 = place := by
      unfold Pattern.behind at hplace
      split at hplace
      · rw [List.mem_singleton.mp hplace]
      · cases hplace
    rw [hsame] at h
    exact Pattern.mem_many h

theorem sentenceBreak_consumes : sentenceBreak.Consumes := by
  intro place r hr
  rcases mem_sentenceBreak hr with ⟨hrest, _, hlength⟩
  rw [hrest, List.length_append]
  omega

theorem sentenceBreak_takes : sentenceBreak.Takes isSpaceUnit := by
  intro place r hr
  rcases mem_sentenceBreak hr with ⟨hrest, hunits, _⟩
  exact ⟨r.1, hrest, hunits⟩

/-- Nothing is dropped behind the first code unit that stays. -/
theorem dropWhile_append_of_mem {x y : Text} {sep : ℕ → Bool} (hne : s ≠ [])
    (hs : ∀ c ∈ s, sep c = false) : (x ++ (s ++ y)).dropWhile sep = x.dropWhile sep ++ (s ++ y) := by
  induction x with
  | nil =>
    rcases List.exists_cons_of_ne_nil hne with ⟨c, s, rfl⟩
    rw [List.nil_append, List.cons_append, List.dropWhile_cons_of_neg]
    · rfl
    · rw [hs c List.mem_cons_self]
      exact Bool.false_ne_true
  | cons c x ih =>
    rw [List.cons_append, List.dropWhile_cons, List.dropWhile_cons, ih]
    split
    · rfl
    · rfl

/-- A text without white space stays when a text around it is trimmed. -/
theorem trimText_append {x y : Text} (hne : s ≠ []) (hs : ∀ c ∈ s, isSpaceUnit c = false) :
    trimText (x ++ s ++ y) =
      x.dropWhile isSpaceUnit ++ s ++ (y.reverse.dropWhile isSpaceUnit).reverse := by
  have hs' : ∀ c ∈ s.reverse, isSpaceUnit c = false := fun c hc => hs c (List.mem_reverse.mp hc)
  have hne' : s.reverse ≠ [] := fun h => hne (List.reverse_eq_nil_iff.mp h)
  rw [trimText, List.append_assoc, dropWhile_append_of_mem hne hs, List.reverse_append,
    List.reverse_append, List.append_assoc, dropWhile_append_of_mem hne' hs']
  simp only [List.reverse_append, List.reverse_reverse, List.append_assoc]

/-- **A text without white space stands in a sentence**, cut off around it at white space. -/
theorem exists_sentence (hne : s ≠ []) (hs : ∀ c ∈ s, isSpaceUnit c = false) :
    ∃ p₀ p₁ q₁ q₀, p = p₀ ++ p₁ ∧ q = q₁ ++ q₀ ∧ p₁ ++ s ++ q₁ ∈ sentences (p ++ (s ++ q)) ∧
      (∀ c ∈ p₀.getLast?, isSpaceUnit c = true) ∧ ∀ c ∈ q₀.head?, isSpaceUnit c = true := by
  rcases @Pattern.exists_between _ sentenceBreak none s q sentenceBreak_consumes isSpaceUnit
    sentenceBreak_takes p hne hs with ⟨p₀, p₁, t₁, t₂, rfl, rfl, hright, hpiece⟩
  have hmem : p₁ ++ s ++ t₁ ∈ sentenceBreak.splitAll (p₀ ++ p₁ ++ (s ++ (t₁ ++ t₂))) := by
    rcases hpiece with ⟨_, hhead⟩ | ⟨_, htail⟩
    · exact List.mem_of_head? hhead
    · exact List.mem_of_mem_tail htail
  have hleft : ∀ c ∈ p₀.getLast?, isSpaceUnit c = true := by
    rcases hpiece with ⟨rfl, _⟩ | ⟨⟨d, hd, hspace⟩, _⟩
    · exact fun c hc => (by cases hc)
    · intro c hc
      rw [Option.mem_unique hc hd]
      exact hspace
  have hall {x : Text} : ∀ c ∈ x.takeWhile isSpaceUnit, isSpaceUnit c = true :=
    fun c hc => List.mem_takeWhile_imp hc
  refine ⟨p₀ ++ p₁.takeWhile isSpaceUnit, p₁.dropWhile isSpaceUnit,
    (t₁.reverse.dropWhile isSpaceUnit).reverse, (t₁.reverse.takeWhile isSpaceUnit).reverse ++ t₂,
    ?_, ?_, ?_, ?_, ?_⟩
  · rw [List.append_assoc, List.takeWhile_append_dropWhile]
  · rw [← List.append_assoc, ← List.reverse_append, List.takeWhile_append_dropWhile,
      List.reverse_reverse]
  · rw [← trimText_append hne hs]
    exact List.mem_map_of_mem hmem
  · intro c hc
    rw [List.getLast?_append] at hc
    cases hlast : (p₁.takeWhile isSpaceUnit).getLast? with
    | none =>
      rw [hlast] at hc
      exact hleft c hc
    | some d =>
      rw [hlast] at hc
      obtain rfl := Option.some.inj hc
      exact hall d (List.mem_of_getLast? hlast)
  · intro c hc
    rw [List.head?_append] at hc
    cases hfirst : (t₁.reverse.takeWhile isSpaceUnit).reverse.head? with
    | none =>
      rw [hfirst] at hc
      exact hright c hc
    | some d =>
      rw [hfirst] at hc
      obtain rfl := Option.some.inj hc
      exact hall d (List.mem_reverse.mp (List.mem_of_head? hfirst))

end ResearchWorkbench.Qa
