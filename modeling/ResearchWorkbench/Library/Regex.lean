import Mathlib.Data.List.Forall2

namespace ResearchWorkbench

/-!
# Regular expressions

The regular expressions of ECMAScript without captures, on texts as lists of code units.  Matching
follows the order of the backtracking search, so that the first match is the one that a program
sees.

* `Regex`, `Regex.ends` — the expressions, and where a match from a given place may end;
* `Regex.test`, `Regex.replaceAll` — `pattern.test(text)` and `text.replace(pattern, …)` with the
  flag `g`;
* `Regex.Respects`, `Regex.test_congr` — texts that an expression cannot tell apart;
* `Regex.Within`, `Regex.filter_replaceAll` — expressions that take code units of one class only, and
  what they leave alone.
-/

/-- A word character: `[A-Za-z0-9_]`. -/
def isWordUnit (c : ℕ) : Bool :=
  (48 ≤ c && c ≤ 57) || (65 ≤ c && c ≤ 90) || c = 95 || (97 ≤ c && c ≤ 122)

/-- The lower case of an ASCII letter. -/
def lowerUnit (c : ℕ) : ℕ := if 65 ≤ c ∧ c ≤ 90 then c + 32 else c

/-- The first half of a surrogate pair. -/
def isHighSurrogate (c : ℕ) : Bool := 0xD800 ≤ c && c ≤ 0xDBFF

/-- The second half. -/
def isLowSurrogate (c : ℕ) : Bool := 0xDC00 ≤ c && c ≤ 0xDFFF

/-- Regular expressions; `many` repeats a character class, and takes as much as it can. -/
inductive Regex
  | empty
  | unit (p : ℕ → Bool)
  | boundary
  | seq (r s : Regex)
  | alt (r s : Regex)
  | many (p : ℕ → Bool) (min : ℕ) (max : Option ℕ)

/-- A place in a text: the code unit before it, and the text after it. -/
structure Place where
  before : Option ℕ
  rest : List ℕ
  deriving DecidableEq, Repr

namespace Regex

/-- Where a repetition may end, longest first. -/
def manyFrom (p : ℕ → Bool) (min : ℕ) (max : Option ℕ) (before : Option ℕ) :
    List ℕ → List Place
  | [] => if min = 0 then [⟨before, []⟩] else []
  | c :: rest =>
    (if p c ∧ max ≠ some 0 then manyFrom p (min - 1) (max.map (· - 1)) (some c) rest else []) ++
      if min = 0 then [⟨before, c :: rest⟩] else []

/-- Where a match may end, in the order of the search. -/
def ends : Regex → Place → List Place
  | empty, place => [place]
  | unit p, place =>
    match place.rest with
    | [] => []
    | c :: rest => if p c then [⟨some c, rest⟩] else []
  | boundary, place =>
    if place.before.any isWordUnit ≠ place.rest.head?.any isWordUnit then [place] else []
  | seq r s, place => (r.ends place).flatMap s.ends
  | alt r s, place => r.ends place ++ s.ends place
  | many p min max, place => manyFrom p min max place.before place.rest

/-- Whether there is a match at the place or after it. -/
def testFrom (r : Regex) (before : Option ℕ) : List ℕ → Bool
  | [] => r.ends ⟨before, []⟩ ≠ []
  | c :: rest => r.ends ⟨before, c :: rest⟩ ≠ [] || testFrom r (some c) rest

/-- `pattern.test(text)`. -/
def test (r : Regex) (text : List ℕ) : Bool := r.testFrom none text

/-- The text with its matches replaced; `fuel` bounds the places that are looked at. -/
def replaceFrom (r : Regex) (replacement : List ℕ) : ℕ → Place → List ℕ
  | 0, place => place.rest
  | fuel + 1, place =>
    match r.ends place, place.rest with
    | found :: _, c :: rest =>
      if found.rest.length < (c :: rest).length then
        replacement ++ replaceFrom r replacement fuel found
      else
        replacement ++ c :: replaceFrom r replacement fuel ⟨some c, rest⟩
    | _ :: _, [] => replacement
    | [], c :: rest => c :: replaceFrom r replacement fuel ⟨some c, rest⟩
    | [], [] => []

/-- `text.replace(pattern, replacement)` with the flag `g`. -/
def replaceAll (r : Regex) (replacement text : List ℕ) : List ℕ :=
  r.replaceFrom replacement (text.length + 1) ⟨none, text⟩

/-- The words one after the other, with the flag `i`. -/
def literal (word : String) : Regex :=
  word.toList.foldr (fun k r => seq (unit fun c => lowerUnit c = lowerUnit k.toNat) r) empty

/-- `(r₁|r₂|…)`. -/
def anyOf : List Regex → Regex
  | [] => unit fun _ => false
  | [r] => r
  | r :: rs => alt r (anyOf rs)

/-- The expressions one after the other. -/
def sequence (rs : List Regex) : Regex := rs.foldr seq empty

/-! ### Texts that are told apart -/

/-- The expression does not tell related code units apart. -/
def Respects (R : ℕ → ℕ → Prop) : Regex → Prop
  | empty => True
  | unit p => ∀ c d, R c d → p c = p d
  | boundary => ∀ c d, R c d → isWordUnit c = isWordUnit d
  | seq r s => r.Respects R ∧ s.Respects R
  | alt r s => r.Respects R ∧ s.Respects R
  | many p _ _ => ∀ c d, R c d → p c = p d

end Regex

/-- Places in texts of related code units. -/
def Place.Rel (R : ℕ → ℕ → Prop) (p q : Place) : Prop :=
  Option.Rel R p.before q.before ∧ List.Forall₂ R p.rest q.rest

namespace Regex

variable {R : ℕ → ℕ → Prop} {r : Regex} {p q : Place} {s t : List ℕ}

theorem manyFrom_congr {f : ℕ → Bool} (hf : ∀ c d, R c d → f c = f d)
    (h : List.Forall₂ R s t) (min : ℕ) (max : Option ℕ) {b b' : Option ℕ} (hb : Option.Rel R b b') :
    List.Forall₂ (Place.Rel R) (manyFrom f min max b s) (manyFrom f min max b' t) := by
  induction h generalizing min max b b' with
  | nil =>
    unfold manyFrom
    split
    · exact .cons ⟨hb, .nil⟩ .nil
    · exact .nil
  | cons hcd hrest ih =>
    unfold manyFrom
    rw [hf _ _ hcd]
    refine List.rel_append ?_ ?_
    · split
      · exact ih _ _ (.some hcd)
      · exact .nil
    · split
      · exact .cons ⟨hb, .cons hcd hrest⟩ .nil
      · exact .nil

theorem any_isWordUnit_congr (h : ∀ c d, R c d → isWordUnit c = isWordUnit d) {b b' : Option ℕ}
    (hb : Option.Rel R b b') : b.any isWordUnit = b'.any isWordUnit := by
  cases hb with
  | some hcd => exact h _ _ hcd
  | none => rfl

/-- Matches in related texts end at related places. -/
theorem ends_congr (hr : r.Respects R) (h : p.Rel R q) :
    List.Forall₂ (Place.Rel R) (r.ends p) (r.ends q) := by
  induction r generalizing p q with
  | empty => exact .cons h .nil
  | unit f =>
    rcases p with ⟨b, s⟩
    rcases q with ⟨b', t⟩
    rcases h with ⟨_, hrest⟩
    cases hrest with
    | nil => exact .nil
    | cons hcd hrest =>
      simp only [ends, hr _ _ hcd]
      split
      · exact .cons ⟨.some hcd, hrest⟩ .nil
      · exact .nil
  | boundary =>
    have hhead : Option.Rel R p.rest.head? q.rest.head? := by
      rcases p with ⟨b, s⟩
      rcases q with ⟨b', t⟩
      rcases h with ⟨_, hrest⟩
      cases hrest with
      | nil => exact .none
      | cons hcd _ => exact .some hcd
    simp only [ends, any_isWordUnit_congr hr h.1, any_isWordUnit_congr hr hhead]
    split
    · exact .cons h .nil
    · exact .nil
  | seq r₁ r₂ ih₁ ih₂ => exact List.rel_flatMap (ih₁ hr.1 h) fun _ _ hplace => ih₂ hr.2 hplace
  | alt r₁ r₂ ih₁ ih₂ => exact List.rel_append (ih₁ hr.1 h) (ih₂ hr.2 h)
  | many f min max => exact manyFrom_congr hr h.2 min max h.1

/-- **Texts that are told apart.**  An expression accepts a text exactly if it accepts one of
    related code units. -/
theorem test_congr (hr : r.Respects R) (h : List.Forall₂ R s t) : r.test s = r.test t := by
  have hempty {p q : Place} (hplace : p.Rel R q) :
      decide (r.ends p ≠ []) = decide (r.ends q ≠ []) := by
    have hlength := (ends_congr hr hplace).length_eq
    rw [decide_eq_decide, ← List.length_pos_iff, ← List.length_pos_iff, hlength]
  have hfrom : ∀ {b b' : Option ℕ}, Option.Rel R b b' → r.testFrom b s = r.testFrom b' t := by
    induction h with
    | nil => exact fun hb => hempty ⟨hb, .nil⟩
    | @cons c d s t hcd hrest ih =>
      intro b b' hb
      have hplace : Place.Rel R ⟨b, c :: s⟩ ⟨b', d :: t⟩ := ⟨hb, .cons hcd hrest⟩
      rw [testFrom, testFrom, hempty hplace, ih (.some hcd)]
  exact hfrom .none

/-! ### What is built from classes -/

theorem literal_respects {word : String}
    (h : ∀ k ∈ word.toList, ∀ c d, R c d → (lowerUnit c = lowerUnit k.toNat ↔
      lowerUnit d = lowerUnit k.toNat)) : (literal word).Respects R := by
  unfold literal
  generalize word.toList = ks at h
  induction ks with
  | nil => trivial
  | cons k ks ih =>
    refine ⟨fun c d hcd => ?_, ih fun k' hk' => h k' (List.mem_cons_of_mem k hk')⟩
    rw [decide_eq_decide]
    exact h k List.mem_cons_self c d hcd

theorem anyOf_respects {rs : List Regex} (h : ∀ r ∈ rs, r.Respects R) : (anyOf rs).Respects R := by
  induction rs with
  | nil => exact fun _ _ _ => rfl
  | cons r rs ih =>
    cases rs with
    | nil => exact h r List.mem_cons_self
    | cons r' rs => exact ⟨h r List.mem_cons_self, ih fun r hr => h r (List.mem_cons_of_mem _ hr)⟩

/-! ### What is left alone -/

/-- The expression takes code units of the class `p` only. -/
def Within (p : ℕ → Bool) : Regex → Prop
  | empty => True
  | unit q => ∀ c, q c = true → p c = true
  | boundary => True
  | seq r s => r.Within p ∧ s.Within p
  | alt r s => r.Within p ∧ s.Within p
  | many q _ _ => ∀ c, q c = true → p c = true

variable {f : ℕ → Bool} {place found : Place}

theorem taken_of_manyFrom {q : ℕ → Bool} (hq : ∀ c, q c = true → f c = true) {min : ℕ}
    {max before : Option ℕ} (h : found ∈ manyFrom q min max before s) :
    ∃ u, s = u ++ found.rest ∧ ∀ c ∈ u, f c = true := by
  induction s generalizing min max before with
  | nil =>
    unfold manyFrom at h
    split at h
    · rw [List.mem_singleton.mp h]
      exact ⟨[], rfl, by simp⟩
    · cases h
  | cons c s ih =>
    unfold manyFrom at h
    rcases List.mem_append.mp h with h | h
    · split at h
      · rename_i hc
        rcases ih h with ⟨u, hs, hu⟩
        exact ⟨c :: u, congrArg (c :: ·) hs, List.forall_mem_cons.mpr ⟨hq c hc.1, hu⟩⟩
      · cases h
    · split at h
      · rw [List.mem_singleton.mp h]
        exact ⟨[], rfl, by simp⟩
      · cases h

/-- What a match takes is of the class. -/
theorem taken_of_ends (hr : r.Within f) (h : found ∈ r.ends place) :
    ∃ u, place.rest = u ++ found.rest ∧ ∀ c ∈ u, f c = true := by
  induction r generalizing place found with
  | empty =>
    rw [List.mem_singleton.mp h]
    exact ⟨[], rfl, by simp⟩
  | unit q =>
    unfold ends at h
    split at h
    · cases h
    · rename_i c rest hrest
      split at h
      · rename_i hc
        rw [List.mem_singleton.mp h]
        exact ⟨[c], hrest, by simpa using hr c hc⟩
      · cases h
  | boundary =>
    unfold ends at h
    split at h
    · rw [List.mem_singleton.mp h]
      exact ⟨[], rfl, by simp⟩
    · cases h
  | seq r₁ r₂ ih₁ ih₂ =>
    rcases List.mem_flatMap.mp h with ⟨middle, hmiddle, hfound⟩
    rcases ih₁ hr.1 hmiddle with ⟨u, hplace, hu⟩
    rcases ih₂ hr.2 hfound with ⟨v, hrest, hv⟩
    refine ⟨u ++ v, ?_, ?_⟩
    · rw [hplace, hrest, List.append_assoc]
    · intro c hc
      rcases List.mem_append.mp hc with hc | hc
      · exact hu c hc
      · exact hv c hc
  | alt r₁ r₂ ih₁ ih₂ =>
    rcases List.mem_append.mp h with h | h
    · exact ih₁ hr.1 h
    · exact ih₂ hr.2 h
  | many q min max => exact taken_of_manyFrom hr h

/-- **What a replacement leaves alone.**  Where the matches and the replacement are of one class, all
that is not stays as it is. -/
theorem filter_replaceAll (hr : r.Within f) {replacement : List ℕ}
    (hreplacement : ∀ c ∈ replacement, f c = true) (t : List ℕ) :
    (r.replaceAll replacement t).filter (fun c => !f c) = t.filter fun c => !f c := by
  have hnone : ∀ u : List ℕ, (∀ c ∈ u, f c = true) → u.filter (fun c => !f c) = [] := by
    intro u hu
    refine List.filter_eq_nil_iff.mpr fun c hc => ?_
    rw [hu c hc]
    exact Bool.false_ne_true
  have hfrom : ∀ (fuel : ℕ) (place : Place),
      (r.replaceFrom replacement fuel place).filter (fun c => !f c) =
        place.rest.filter fun c => !f c := by
    intro fuel
    induction fuel with
    | zero => exact fun _ => rfl
    | succ fuel ih =>
      intro place
      unfold replaceFrom
      split
      · rename_i found more c rest hends hrest
        rcases taken_of_ends hr (by rw [hends]; exact List.mem_cons_self) with ⟨u, hplace, hu⟩
        split
        · rw [List.filter_append, hnone _ hreplacement, List.nil_append, ih, hplace,
            List.filter_append, hnone u hu, List.nil_append]
        · rw [List.filter_append, hnone _ hreplacement, List.nil_append, List.filter_cons, ih, hrest,
            List.filter_cons]
      · rename_i hrest
        rw [hrest, hnone _ hreplacement]
        rfl
      · rename_i c rest _ hrest
        rw [List.filter_cons, ih, hrest, List.filter_cons]
      · rename_i _ hrest
        rw [hrest]
  exact hfrom (t.length + 1) ⟨none, t⟩

end Regex

end ResearchWorkbench
