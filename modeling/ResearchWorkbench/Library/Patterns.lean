import Mathlib.Data.Nat.Basic
import Mathlib.Order.Basic
import ResearchWorkbench.Library.Regex

namespace ResearchWorkbench

/-!
# Patterns that capture

Regular expressions of ECMAScript that capture a part of what they match or look around, as
matchers.  A matcher gives all matches at a place in the order of the backtracking search, so that
the first one is what a program sees; a search over a whole text goes on where a match ends.

* `Pattern`, `unit`, `many`, `alt`, `optional`, `notBehind`, `notAhead`, `boundary` — the matchers;
* `Pattern.scan` — a text as the code units that are not matched and the matches between them;
* `matchAll`, `removeAll`, `splitAll` — `text.matchAll(pattern)`, `text.replace(pattern, "")` and
  `text.split(pattern)`, for patterns with the flag `g`;
* `scan_skip`, `scan_found`, `scan_append_of_skips` — one step of a search;
* `many_unit`, `many_unit_nil` — a repetition up to a code unit that it does not take;
* `Shrinks`, `Consumes` — matches that end where they begin or later, and those that take something;
* `StopsAt`, `scan_append_cons` — patterns that do not look past a code unit find what stands on its
  two sides;
* `Takes`, `exists_between` — a text without separators stands in one piece of a split text.
-/

/-- What a pattern captures at a place, and where the match ends, in the order of the search. -/
def Pattern (α : Type) := Place → List (α × Place)

namespace Pattern

variable {α β : Type}

instance : Monad Pattern where
  pure a := fun place => [(a, place)]
  bind m f := fun place => (m place).flatMap fun r => f r.1 r.2

theorem pure_apply (a : α) (place : Place) : (pure a : Pattern α) place = [(a, place)] := rfl

theorem bind_apply (m : Pattern α) (f : α → Pattern β) (place : Place) :
    (m >>= f) place = (m place).flatMap fun r => f r.1 r.2 := rfl

/-! ### Matchers -/

/-- A code unit of a class. -/
def unit (p : ℕ → Bool) : Pattern ℕ := fun place =>
  match place.rest with
  | [] => []
  | c :: rest => if p c then [(c, ⟨some c, rest⟩)] else []

/-- Where a repetition may end, longest first. -/
def manyFrom (p : ℕ → Bool) (min : ℕ) (max : Option ℕ) (before : Option ℕ) :
    List ℕ → List (List ℕ × Place)
  | [] => if min = 0 then [([], ⟨before, []⟩)] else []
  | c :: rest =>
    (if p c ∧ max ≠ some 0 then
      (manyFrom p (min - 1) (max.map (· - 1)) (some c) rest).map fun r => (c :: r.1, r.2)
    else []) ++ if min = 0 then [([], ⟨before, c :: rest⟩)] else []

/-- Code units of a class, at least `min` and at most `max`, as many as there are. -/
def many (p : ℕ → Bool) (min : ℕ) (max : Option ℕ) : Pattern (List ℕ) := fun place =>
  manyFrom p min max place.before place.rest

/-- The words one after the other; with `ignoreCase`, the flag `i`. -/
def word (ignoreCase : Bool) : List ℕ → Pattern Unit
  | [] => pure ()
  | k :: ks => do
    let _ ← unit fun c => if ignoreCase then lowerUnit c = lowerUnit k else c = k
    word ignoreCase ks

/-- `(?:m|n)`. -/
def alt (m n : Pattern α) : Pattern α := fun place => m place ++ n place

/-- `(?:m)?`. -/
def optional (m : Pattern α) : Pattern (Option α) := alt (some <$> m) (pure none)

/-- `(?<!p)`. -/
def notBehind (p : ℕ → Bool) : Pattern Unit := fun place =>
  if place.before.any p then [] else [((), place)]

/-- `(?<=p)`. -/
def behind (p : ℕ → Bool) : Pattern Unit := fun place =>
  if place.before.any p then [((), place)] else []

/-- `(?!p)`. -/
def notAhead (p : ℕ → Bool) : Pattern Unit := fun place =>
  if place.rest.head?.any p then [] else [((), place)]

/-- `\b`. -/
def boundary : Pattern Unit := fun place =>
  if place.before.any isWordUnit ≠ place.rest.head?.any isWordUnit then [((), place)] else []

/-! ### Searches -/

/-- The code units and the matches from a place on; `fuel` bounds the places that are looked at. -/
def scanFrom (m : Pattern α) : ℕ → Place → List (ℕ ⊕ α)
  | 0, _ => []
  | fuel + 1, place =>
    match m place, place.rest with
    | (a, found) :: _, c :: rest =>
      if found.rest.length < rest.length + 1 then .inr a :: scanFrom m fuel found
      else .inr a :: .inl c :: scanFrom m fuel ⟨some c, rest⟩
    | (a, _) :: _, [] => [.inr a]
    | [], c :: rest => .inl c :: scanFrom m fuel ⟨some c, rest⟩
    | [], [] => []

/-- The code units that are not matched, and the matches between them. -/
def scan (m : Pattern α) (place : Place) : List (ℕ ⊕ α) :=
  scanFrom m (place.rest.length + 1) place

/-- `text.matchAll(pattern)`: the captures. -/
def matchAll (m : Pattern α) (text : List ℕ) : List α :=
  (m.scan ⟨none, text⟩).filterMap Sum.getRight?

/-- `text.replace(pattern, "")`. -/
def removeAll (m : Pattern α) (text : List ℕ) : List ℕ :=
  (m.scan ⟨none, text⟩).filterMap Sum.getLeft?

/-- `text.replace(pattern, replacement)`, with a replacement without `$`. -/
def replaceAll (m : Pattern α) (replacement text : List ℕ) : List ℕ :=
  (m.scan ⟨none, text⟩).flatMap fun
    | .inl c => [c]
    | .inr _ => replacement

/-- What stands between the matches. -/
def between : List (ℕ ⊕ α) → List (List ℕ)
  | [] => [[]]
  | .inl c :: parts => (between parts).modifyHead (c :: ·)
  | .inr _ :: parts => [] :: between parts

/-- `text.split(pattern)`, for a pattern that matches no empty text. -/
def splitAll (m : Pattern α) (text : List ℕ) : List (List ℕ) := between (m.scan ⟨none, text⟩)

/-- Every match takes something. -/
def Consumes (m : Pattern α) : Prop :=
  ∀ place, ∀ r ∈ m place, r.2.rest.length < place.rest.length

section

variable {m : Pattern α} {place found : Place} {a : α} {b : Option ℕ} {c : ℕ} {rest s t : List ℕ}

/-- The fuel is not used up. -/
theorem scanFrom_eq_scan (hm : m.Consumes) {fuel : ℕ} (hfuel : place.rest.length < fuel) :
    scanFrom m fuel place = m.scan place := by
  unfold scan
  generalize hn : place.rest.length + 1 = fuel'
  have hfuel' : place.rest.length < fuel' := by omega
  clear hn
  induction fuel generalizing place fuel' with
  | zero => omega
  | succ fuel ih =>
    cases fuel' with
    | zero => omega
    | succ fuel' =>
      unfold scanFrom
      rcases hmatch : m place with _ | ⟨⟨a, found⟩, others⟩
      · rcases hrest : place.rest with _ | ⟨c, rest⟩
        · rfl
        · rw [hrest, List.length_cons] at hfuel hfuel'
          simp only [List.cons.injEq, true_and]
          exact @ih ⟨some c, rest⟩ (Nat.lt_of_succ_lt_succ hfuel) fuel'
            (Nat.lt_of_succ_lt_succ hfuel')
      · have hlt := hm place (a, found) (by rw [hmatch]; exact List.mem_cons_self)
        rcases hrest : place.rest with _ | ⟨c, rest⟩
        · rfl
        · rw [hrest, List.length_cons] at hfuel hfuel' hlt
          simp only [if_pos hlt, List.cons.injEq, true_and]
          exact @ih found (Nat.lt_of_lt_of_le hlt (Nat.le_of_lt_succ hfuel)) fuel'
            (Nat.lt_of_lt_of_le hlt (Nat.le_of_lt_succ hfuel'))

theorem scan_nil (hm : m.Consumes) : m.scan ⟨b, []⟩ = [] := by
  have hnone : m ⟨b, []⟩ = [] := by
    rw [List.eq_nil_iff_forall_not_mem]
    intro r hr
    exact absurd (hm _ r hr) (Nat.not_lt_zero _)
  simp only [scan, scanFrom, hnone]

/-- Where nothing matches, the search goes one code unit on. -/
theorem scan_skip (h : m ⟨b, c :: rest⟩ = []) :
    m.scan ⟨b, c :: rest⟩ = .inl c :: m.scan ⟨some c, rest⟩ := by
  show scanFrom m (rest.length + 1 + 1) ⟨b, c :: rest⟩ = _
  rw [scanFrom, h]
  rfl

/-- After a match the search goes on where it ends. -/
theorem scan_found (hm : m.Consumes) (h : (m place).head? = some (a, found)) :
    m.scan place = .inr a :: m.scan found := by
  rcases hmatch : m place with _ | ⟨r, others⟩
  · rw [hmatch] at h
    cases h
  · rw [hmatch] at h
    cases h
    have hlt := hm place (a, found) (by rw [hmatch]; exact List.mem_cons_self)
    simp only [] at hlt
    unfold scan scanFrom
    rw [hmatch]
    rcases hrest : place.rest with _ | ⟨c, rest⟩
    · rw [hrest] at hlt
      exact absurd hlt (Nat.not_lt_zero _)
    · rw [hrest, List.length_cons] at hlt
      simp only [if_pos hlt, List.cons.injEq, true_and]
      exact scanFrom_eq_scan hm hlt

/-- The code unit before a place, after some text. -/
def lastBefore (b : Option ℕ) : List ℕ → Option ℕ
  | [] => b
  | c :: s => lastBefore (some c) s

/-- Text in which no match begins is skipped. -/
theorem scan_append_of_skips (h : ∀ b u v, s = u ++ v → v ≠ [] → m ⟨b, v ++ t⟩ = []) :
    m.scan ⟨b, s ++ t⟩ = s.map .inl ++ m.scan ⟨lastBefore b s, t⟩ := by
  induction s generalizing b with
  | nil => rfl
  | cons c s ih =>
    have hskip : m ⟨b, c :: (s ++ t)⟩ = [] := h b [] (c :: s) rfl (List.cons_ne_nil c s)
    rw [List.cons_append, scan_skip hskip, List.map_cons, List.cons_append,
      ih fun b u v huv hv => h b (c :: u) v (by rw [huv, List.cons_append]) hv]
    rfl

/-- The captures from a place on. -/
def capturesFrom (m : Pattern α) (place : Place) : List α :=
  (m.scan place).filterMap Sum.getRight?

theorem matchAll_eq_capturesFrom {text : List ℕ} : m.matchAll text = m.capturesFrom ⟨none, text⟩ :=
  rfl

theorem capturesFrom_nil (hm : m.Consumes) : m.capturesFrom ⟨b, []⟩ = [] := by
  rw [capturesFrom, scan_nil hm]
  rfl

theorem capturesFrom_skip (h : m ⟨b, c :: rest⟩ = []) :
    m.capturesFrom ⟨b, c :: rest⟩ = m.capturesFrom ⟨some c, rest⟩ := by
  rw [capturesFrom, scan_skip h]
  rfl

theorem capturesFrom_found (hm : m.Consumes) (h : (m place).head? = some (a, found)) :
    m.capturesFrom place = a :: m.capturesFrom found := by
  rw [capturesFrom, scan_found hm h]
  rfl

/-- Text in which no match begins has no captures. -/
theorem capturesFrom_append_of_skips (h : ∀ b u v, s = u ++ v → v ≠ [] → m ⟨b, v ++ t⟩ = []) :
    m.capturesFrom ⟨b, s ++ t⟩ = m.capturesFrom ⟨lastBefore b s, t⟩ := by
  have hnone (s : List ℕ) : (s.map (Sum.inl (β := α))).filterMap Sum.getRight? = [] := by
    induction s with
    | nil => rfl
    | cons c s ih => exact ih
  rw [capturesFrom, scan_append_of_skips h, List.filterMap_append, hnone]
  rfl

end

/-! ### Units and repetitions -/

section

variable {p q : ℕ → Bool} {b : Option ℕ} {c : ℕ} {rest s : List ℕ} {f : ℕ → Pattern α}

theorem unit_bind_of_pos (h : p c = true) :
    (unit p >>= f) ⟨b, c :: rest⟩ = f c ⟨some c, rest⟩ := by
  simp only [bind_apply, unit, if_pos h, List.flatMap_cons, List.flatMap_nil, List.append_nil]

theorem unit_bind_of_neg (h : p c = false) : (unit p >>= f) ⟨b, c :: rest⟩ = [] := by
  simp only [bind_apply, unit, h, Bool.false_eq_true, if_false, List.flatMap_nil]

theorem unit_bind_nil : (unit p >>= f) ⟨b, []⟩ = [] := rfl

/-- A word, whatever its case. -/
theorem word_ignoreCase (ks : List ℕ) :
    word true ks ⟨b, s⟩ = if (s.take ks.length).map lowerUnit = ks.map lowerUnit then
      [((), ⟨lastBefore b (s.take ks.length), s.drop ks.length⟩)] else [] := by
  induction ks generalizing b s with
  | nil => rfl
  | cons k ks ih =>
    show (unit _ >>= fun _ => word true ks) _ = _
    cases s with
    | nil => rfl
    | cons c s =>
      by_cases hc : lowerUnit c = lowerUnit k
      · rw [unit_bind_of_pos (by simpa using hc), ih]
        simp only [List.length_cons, List.take_succ_cons, List.drop_succ_cons, List.map_cons, hc,
          List.cons.injEq, true_and, lastBefore]
      · rw [unit_bind_of_neg (by simpa using hc), if_neg]
        intro heq
        rw [List.length_cons, List.take_succ_cons, List.map_cons, List.map_cons] at heq
        exact hc (List.cons.inj heq).1

/-- A repetition up to a code unit that it does not take, whatever follows. -/
theorem many_unit {min : ℕ} {max : Option ℕ} {k : List ℕ → Pattern α}
    (hpq : ∀ c, p c = true → q c = false) (hs : ∀ c ∈ s, p c = true) (hc : q c = true) :
    (do let t ← many p min max
        let _ ← unit q
        k t : Pattern α) ⟨b, s ++ c :: rest⟩ =
      if min ≤ s.length ∧ max.all (s.length ≤ ·) then k s ⟨some c, rest⟩ else [] := by
  have hnp : p c = false := by
    by_contra h
    rw [hpq c (by simpa using h)] at hc
    cases hc
  show (manyFrom p min max b (s ++ c :: rest)).flatMap (fun r => (unit q >>= fun _ => k r.1) r.2) = _
  induction s generalizing b min max k with
  | nil =>
    rw [List.nil_append, manyFrom, if_neg (by simp [hnp]), List.nil_append]
    by_cases hmin : min = 0
    · rw [if_pos hmin, if_pos ⟨by omega, by cases max <;> simp⟩, List.flatMap_cons,
        unit_bind_of_pos hc, List.flatMap_nil, List.append_nil]
    · rw [if_neg hmin, if_neg (by rintro ⟨hle, -⟩; exact hmin (Nat.le_zero.mp hle)),
        List.flatMap_nil]
  | cons d s ih =>
    rw [List.forall_mem_cons] at hs
    have hlast : (if min = 0 then [(([] : List ℕ), (⟨b, d :: (s ++ c :: rest)⟩ : Place))]
        else []).flatMap (fun r => (unit q >>= fun _ => k r.1) r.2) = [] := by
      split
      · rw [List.flatMap_cons, unit_bind_of_neg (hpq d hs.1), List.flatMap_nil, List.nil_append]
      · rfl
    rw [List.cons_append, manyFrom, List.flatMap_append, hlast, List.append_nil]
    by_cases hmax : max = some 0
    · rw [if_neg (by rw [not_and_not_right]; exact fun _ => hmax), if_neg, List.flatMap_nil]
      rintro ⟨-, hle⟩
      rw [hmax] at hle
      simp at hle
    · rw [if_pos ⟨hs.1, hmax⟩, List.flatMap_map,
        @ih (some d) (min - 1) (max.map (· - 1)) (fun t => k (d :: t)) hs.2]
      refine if_congr ?_ rfl rfl
      cases max with
      | none => simp
      | some n =>
        have hn : n ≠ 0 := fun h => hmax (congrArg some h)
        simp only [Option.map_some, Option.all_some, decide_eq_true_eq, List.length_cons]
        omega

/-- A repetition that does not come to a code unit of the class. -/
theorem many_unit_nil {min : ℕ} {max : Option ℕ} {k : List ℕ → Pattern α}
    (hs : ∀ c ∈ s, q c = false) (hrest : rest = [] ∨ ∃ d r, rest = d :: r ∧ p d = false ∧ q d = false) :
    (do let t ← many p min max
        let _ ← unit q
        k t : Pattern α) ⟨b, s ++ rest⟩ = [] := by
  show (manyFrom p min max b (s ++ rest)).flatMap (fun r => (unit q >>= fun _ => k r.1) r.2) = _
  induction s generalizing b min max k with
  | nil =>
    rcases hrest with rfl | ⟨d, r, rfl, hp, hq⟩
    · rw [List.nil_append, manyFrom]
      split <;> rfl
    · rw [List.nil_append, manyFrom, if_neg (by simp [hp]), List.nil_append]
      split
      · rw [List.flatMap_cons, unit_bind_of_neg hq, List.flatMap_nil, List.nil_append]
      · rfl
  | cons d s ih =>
    rw [List.forall_mem_cons] at hs
    rw [List.cons_append, manyFrom, List.flatMap_append, List.append_eq_nil_iff]
    refine ⟨?_, ?_⟩
    · split
      · rw [List.flatMap_map]
        exact ih (k := fun t => k (d :: t)) hs.2
      · rfl
    · split
      · rw [List.flatMap_cons, unit_bind_of_neg hs.1, List.flatMap_nil, List.nil_append]
      · rfl

/-- A repetition up to the first code unit of a class. -/
theorem many_unit_first {min : ℕ} {max : Option ℕ} {k : List ℕ → Pattern α}
    (hpq : ∀ c, p c = true → q c = false) (hs : ∀ c ∈ s, q c = false) (hc : q c = true) :
    (do let t ← many p min max
        let _ ← unit q
        k t : Pattern α) ⟨b, s ++ c :: rest⟩ =
      if s.all p = true ∧ min ≤ s.length ∧ max.all (s.length ≤ ·) then k s ⟨some c, rest⟩
      else [] := by
  by_cases hall : s.all p = true
  · rw [many_unit hpq (List.all_eq_true.mp hall) hc]
    simp only [hall, true_and]
  · rw [if_neg fun h => hall h.1]
    rw [Bool.not_eq_true, List.all_eq_false] at hall
    rcases hall with ⟨a, ha, hpa⟩
    cases hfirst : s.find? fun c => !p c with
    | none =>
      have hnone := List.find?_eq_none.mp hfirst a ha
      simp only [Bool.not_eq_true] at hpa
      rw [hpa] at hnone
      exact absurd rfl hnone
    | some d =>
      rcases List.find?_eq_some_iff_append.mp hfirst with ⟨hd, u, v, rfl, hu⟩
      rw [List.append_assoc, List.cons_append]
      refine many_unit_nil (fun c hcu => hs c (List.mem_append_left _ hcu)) (Or.inr ?_)
      exact ⟨d, v ++ c :: rest, rfl, by simpa using hd,
        hs d (List.mem_append_right u List.mem_cons_self)⟩

end

/-! ### What is matched -/

section

variable {m m' : Pattern α} {f : α → Pattern β} {place : Place} {p : ℕ → Bool} {b : Option ℕ}
  {c : ℕ} {s t : List ℕ}

theorem mem_bind {r : β × Place} :
    r ∈ (m >>= f) place ↔ ∃ r' ∈ m place, r ∈ f r'.1 r'.2 := List.mem_flatMap

theorem mem_pure {a : α} {r : α × Place} : r ∈ (pure a : Pattern α) place ↔ r = (a, place) :=
  List.mem_singleton

theorem mem_unit {r : ℕ × Place} (h : r ∈ unit p place) :
    place.rest = r.1 :: r.2.rest ∧ p r.1 = true := by
  unfold unit at h
  split at h
  · cases h
  · rename_i c rest hrest
    split at h
    · rw [List.mem_singleton] at h
      subst h
      exact ⟨hrest, ‹_›⟩
    · cases h

theorem mem_manyFrom {min : ℕ} {max : Option ℕ} {r : List ℕ × Place}
    (h : r ∈ manyFrom p min max b s) :
    s = r.1 ++ r.2.rest ∧ (∀ c ∈ r.1, p c = true) ∧ min ≤ r.1.length := by
  induction s generalizing b min max r with
  | nil =>
    unfold manyFrom at h
    split at h
    · rw [List.mem_singleton] at h
      subst h
      exact ⟨rfl, fun c hc => (by cases hc), by simp only [List.length_nil]; omega⟩
    · cases h
  | cons c s ih =>
    unfold manyFrom at h
    rcases List.mem_append.mp h with h | h
    · split at h
      · rename_i hc
        rcases List.mem_map.mp h with ⟨r', hr', rfl⟩
        rcases ih hr' with ⟨hs, hall, hmin⟩
        refine ⟨by simp only [List.cons_append, ← hs], List.forall_mem_cons.mpr ⟨hc.1, hall⟩, ?_⟩
        simp only [List.length_cons]
        omega
      · cases h
    · split at h
      · rw [List.mem_singleton] at h
        subst h
        exact ⟨rfl, fun c hc => (by cases hc), by simp only [List.length_nil]; omega⟩
      · cases h

theorem mem_many {min : ℕ} {max : Option ℕ} {r : List ℕ × Place} (h : r ∈ many p min max place) :
    place.rest = r.1 ++ r.2.rest ∧ (∀ c ∈ r.1, p c = true) ∧ min ≤ r.1.length :=
  mem_manyFrom h

/-- Every number of code units of the class is taken by some match. -/
theorem many_append_mem {min : ℕ} (hs : ∀ c ∈ s, p c = true) (hmin : min ≤ s.length) :
    (s, ⟨lastBefore b s, t⟩) ∈ many p min none ⟨b, s ++ t⟩ := by
  show (s, _) ∈ manyFrom p min none b (s ++ t)
  induction s generalizing b min with
  | nil =>
    have hzero : min = 0 := Nat.le_zero.mp hmin
    subst hzero
    cases t with
    | nil => exact List.mem_singleton.mpr rfl
    | cons d t => exact List.mem_append_right _ (List.mem_singleton.mpr rfl)
  | cons c s ih =>
    rw [List.forall_mem_cons] at hs
    rw [List.cons_append, manyFrom, if_pos ⟨hs.1, by simp⟩]
    refine List.mem_append_left _ (List.mem_map.mpr ⟨(s, ⟨lastBefore (some c) s, t⟩), ?_, rfl⟩)
    exact ih hs.2 (by rw [List.length_cons] at hmin; omega)

theorem mem_word {ks : List ℕ} {r : Unit × Place} (h : r ∈ word true ks place) :
    ∃ u, place.rest = u ++ r.2.rest ∧ u.map lowerUnit = ks.map lowerUnit := by
  rcases place with ⟨b, s⟩
  rw [word_ignoreCase] at h
  split at h
  · rename_i heq
    rw [List.mem_singleton] at h
    subst h
    exact ⟨s.take ks.length, (List.take_append_drop _ _).symm, heq⟩
  · cases h

theorem word_append_mem {ks : List ℕ} (h : s.map lowerUnit = ks.map lowerUnit) :
    ((), ⟨lastBefore b s, t⟩) ∈ word true ks ⟨b, s ++ t⟩ := by
  have hlength : ks.length = s.length := by
    have := congrArg List.length h
    rw [List.length_map, List.length_map] at this
    exact this.symm
  rw [word_ignoreCase, hlength, List.take_left, List.drop_left, if_pos h]
  exact List.mem_singleton.mpr rfl

theorem mem_optional {r : Option α × Place} (h : r ∈ optional m place) :
    (∃ a, r.1 = some a ∧ (a, r.2) ∈ m place) ∨ r = (none, place) := by
  rcases List.mem_append.mp h with h | h
  · rcases mem_bind.mp (show r ∈ (m >>= fun a => pure (some a)) place from h) with ⟨r', hr', heq⟩
    rw [mem_pure] at heq
    subst heq
    exact Or.inl ⟨r'.1, rfl, hr'⟩
  · exact Or.inr (List.mem_singleton.mp h)

theorem mem_notBehind {r : Unit × Place} (h : r ∈ notBehind p place) :
    r.2 = place ∧ place.before.any p = false := by
  unfold notBehind at h
  split at h
  · cases h
  · rw [List.mem_singleton] at h
    subst h
    rename_i hbehind
    exact ⟨rfl, (Bool.not_eq_true _).mp hbehind⟩

/-- What stands before a repetition that takes something does not matter. -/
theorem many_before {min : ℕ} {max : Option ℕ} (hmin : 0 < min) (b b' : Option ℕ) :
    many p min max ⟨b, s⟩ = many p min max ⟨b', s⟩ := by
  show manyFrom p min max b s = manyFrom p min max b' s
  cases s with
  | nil => rw [manyFrom, manyFrom, if_neg (Nat.ne_of_gt hmin), if_neg (Nat.ne_of_gt hmin)]
  | cons c s => rw [manyFrom, manyFrom, if_neg (Nat.ne_of_gt hmin), if_neg (Nat.ne_of_gt hmin)]

/-- No match ends before its place. -/
def Shrinks (m : Pattern α) : Prop :=
  ∀ place, ∀ r ∈ m place, r.2.rest.length ≤ place.rest.length

theorem Consumes.shrinks (h : m.Consumes) : m.Shrinks := fun place r hr => (h place r hr).le

theorem Shrinks.pure (a : α) : (Pure.pure a : Pattern α).Shrinks := by
  intro place r hr
  rw [mem_pure.mp hr]

theorem Shrinks.bind (hm : m.Shrinks) (hf : ∀ a, (f a).Shrinks) : (m >>= f).Shrinks := by
  intro place r hr
  rcases mem_bind.mp hr with ⟨r', hr', hr⟩
  exact (hf _ _ _ hr).trans (hm _ _ hr')

theorem Shrinks.many {min : ℕ} {max : Option ℕ} : (Pattern.many p min max).Shrinks := by
  intro place r hr
  rw [(mem_many hr).1, List.length_append]
  exact Nat.le_add_left _ _

theorem Shrinks.optional (hm : m.Shrinks) : m.optional.Shrinks := by
  intro place r hr
  rcases mem_optional hr with ⟨a, _, ha⟩ | rfl
  · exact hm _ _ ha
  · exact le_rfl

theorem Shrinks.notBehind : (Pattern.notBehind p).Shrinks := by
  intro place r hr
  rw [(mem_notBehind hr).1]

theorem Consumes.unit : (Pattern.unit p).Consumes := by
  intro place r hr
  rw [(mem_unit hr).1, List.length_cons]
  exact Nat.lt_succ_self _

theorem Consumes.many {min : ℕ} {max : Option ℕ} (hmin : 0 < min) :
    (Pattern.many p min max).Consumes := by
  intro place r hr
  rcases mem_many hr with ⟨hrest, _, hle⟩
  rw [hrest, List.length_append]
  omega

theorem Consumes.bind (hm : m.Consumes) (hf : ∀ a, (f a).Shrinks) : (m >>= f).Consumes := by
  intro place r hr
  rcases mem_bind.mp hr with ⟨r', hr', hr⟩
  exact (hf _ _ _ hr).trans_lt (hm _ _ hr')

theorem Shrinks.bind_consumes (hm : m.Shrinks) (hf : ∀ a, (f a).Consumes) :
    (m >>= f).Consumes := by
  intro place r hr
  rcases mem_bind.mp hr with ⟨r', hr', hr⟩
  exact (hf _ _ _ hr).trans_le (hm _ _ hr')

/-! ### Separators -/

/-- The match with more text behind it. -/
def extend (t : List ℕ) (r : α × Place) : α × Place := (r.1, ⟨r.2.before, r.2.rest ++ t⟩)

/-- The pattern does not look at the code unit or past it. -/
def StopsAt (m : Pattern α) (c : ℕ) : Prop :=
  ∀ b s t, m ⟨b, s ++ c :: t⟩ = (m ⟨b, s⟩).map (extend (c :: t))

theorem StopsAt.pure (a : α) : (Pure.pure a : Pattern α).StopsAt c := fun _ _ _ => rfl

theorem StopsAt.bind (hm : m.StopsAt c) (hf : ∀ a, (f a).StopsAt c) : (m >>= f).StopsAt c := by
  intro b s t
  rw [bind_apply, bind_apply, hm, List.flatMap_map, List.map_flatMap]
  exact List.flatMap_congr fun r _ => hf r.1 r.2.before r.2.rest t

theorem StopsAt.alt (hm : m.StopsAt c) (hm' : m'.StopsAt c) : (Pattern.alt m m').StopsAt c := by
  intro b s t
  show m _ ++ m' _ = (m _ ++ m' _).map _
  rw [hm, hm', List.map_append]

theorem StopsAt.optional (hm : m.StopsAt c) : m.optional.StopsAt c :=
  (hm.bind fun _ => .pure _).alt (.pure _)

theorem StopsAt.unit (hp : p c = false) : (Pattern.unit p).StopsAt c := by
  intro b s t
  cases s with
  | nil => simp only [Pattern.unit, List.nil_append, hp, Bool.false_eq_true, if_false, List.map_nil]
  | cons d s =>
    simp only [Pattern.unit, List.cons_append]
    split
    · rfl
    · rfl

theorem StopsAt.many {min : ℕ} {max : Option ℕ} (hp : p c = false) :
    (Pattern.many p min max).StopsAt c := by
  intro b s t
  show manyFrom p min max b (s ++ c :: t) = (manyFrom p min max b s).map (extend (c :: t))
  induction s generalizing b min max with
  | nil =>
    rw [List.nil_append, manyFrom, manyFrom, if_neg (by simp [hp]), List.nil_append]
    split
    · rfl
    · rfl
  | cons d s ih =>
    rw [List.cons_append, manyFrom, manyFrom, List.map_append]
    congr 1
    · split
      · rw [ih, List.map_map, List.map_map]
        rfl
      · rfl
    · split
      · rfl
      · rfl

theorem StopsAt.notBehind : (Pattern.notBehind p).StopsAt c := by
  intro b s t
  simp only [Pattern.notBehind]
  split
  · rfl
  · rfl

/-- What stands on the two sides of a code unit that a pattern does not look at is searched on its
    own. -/
theorem scan_append_cons (hm : m.Consumes) (hc : m.StopsAt c) :
    m.scan ⟨b, s ++ c :: t⟩ = m.scan ⟨b, s⟩ ++ .inl c :: m.scan ⟨some c, t⟩ := by
  generalize hn : s.length = n
  induction n using Nat.strongRecOn generalizing b s with
  | _ n ih =>
    cases s with
    | nil =>
      have hnone : m ⟨b, []⟩ = [] := by
        rw [List.eq_nil_iff_forall_not_mem]
        intro r hr
        exact absurd (hm _ r hr) (Nat.not_lt_zero _)
      have hskip : m ⟨b, [] ++ c :: t⟩ = [] := by rw [hc, hnone, List.map_nil]
      rw [scan_nil hm, List.nil_append, List.nil_append]
      exact scan_skip hskip
    | cons d s =>
      have hmatch := hc b (d :: s) t
      cases hfound : m ⟨b, d :: s⟩ with
      | nil =>
        rw [hfound, List.map_nil, List.cons_append] at hmatch
        rw [scan_skip hfound, List.cons_append, scan_skip hmatch, List.cons_append,
          ih s.length (by rw [← hn, List.length_cons]; omega) rfl]
      | cons r others =>
        rcases r with ⟨a, ⟨b', s'⟩⟩
        have hlt := hm _ (a, (⟨b', s'⟩ : Place)) (by rw [hfound]; exact List.mem_cons_self)
        have hhead : (m ⟨b, d :: s⟩).head? = some (a, ⟨b', s'⟩) := by rw [hfound]; rfl
        have hhead' : (m ⟨b, d :: s ++ c :: t⟩).head? = some (a, ⟨b', s' ++ c :: t⟩) := by
          rw [hmatch, hfound]
          rfl
        rw [scan_found hm hhead, scan_found hm hhead', List.cons_append,
          ih s'.length (by rw [← hn]; exact hlt) rfl]

/-- The code unit before a place does not matter where the pattern does not look at it. -/
theorem scan_congr_before {b' : Option ℕ} (h : m ⟨b, s⟩ = m ⟨b', s⟩) :
    m.scan ⟨b, s⟩ = m.scan ⟨b', s⟩ := by
  unfold scan scanFrom
  rw [h]

theorem capturesFrom_append_cons (hm : m.Consumes) (hc : m.StopsAt c) :
    m.capturesFrom ⟨b, s ++ c :: t⟩ = m.capturesFrom ⟨b, s⟩ ++ m.capturesFrom ⟨some c, t⟩ := by
  rw [capturesFrom, scan_append_cons hm hc, List.filterMap_append]
  rfl

/-- The matches on the two sides of such a code unit. -/
theorem matchAll_append_cons (hm : m.Consumes) (hc : m.StopsAt c)
    (hbefore : m ⟨some c, t⟩ = m ⟨none, t⟩) :
    m.matchAll (s ++ c :: t) = m.matchAll s ++ m.matchAll t := by
  rw [matchAll, scan_append_cons hm hc, scan_congr_before hbefore, List.filterMap_append]
  rfl

/-- Every match is found at some place of the text. -/
theorem mem_matchAll {a : α} (h : a ∈ m.matchAll s) : ∃ place found, (a, found) ∈ m place := by
  have hsearch : ∀ (fuel : ℕ) (place : Place), .inr a ∈ scanFrom m fuel place →
      ∃ place found, (a, found) ∈ m place := by
    intro fuel
    induction fuel with
    | zero => intro place hmem; cases hmem
    | succ fuel ih =>
      intro place hmem
      unfold scanFrom at hmem
      rcases hmatch : m place with _ | ⟨⟨a', found⟩, others⟩
      · rcases hrest : place.rest with _ | ⟨c, rest⟩
        · simp only [hmatch, hrest] at hmem
          cases hmem
        · simp only [hmatch, hrest, List.mem_cons, reduceCtorEq, false_or] at hmem
          exact ih _ hmem
      · have hfirst : a = a' → ∃ place found, (a, found) ∈ m place := by
          rintro rfl
          exact ⟨place, found, by rw [hmatch]; exact List.mem_cons_self⟩
        rcases hrest : place.rest with _ | ⟨c, rest⟩
        · simp only [hmatch, hrest, List.mem_singleton, Sum.inr.injEq] at hmem
          exact hfirst hmem
        · simp only [hmatch, hrest] at hmem
          split at hmem
          · simp only [List.mem_cons, Sum.inr.injEq] at hmem
            exact hmem.elim hfirst (ih _)
          · simp only [List.mem_cons, Sum.inr.injEq, reduceCtorEq, false_or] at hmem
            exact hmem.elim hfirst (ih _)
  rw [matchAll, List.mem_filterMap] at h
  rcases h with ⟨x, hx, hright⟩
  cases x with
  | inl c => cases hright
  | inr a' =>
    cases hright
    exact hsearch _ _ hx

theorem mem_unit_before {r : ℕ × Place} (h : r ∈ unit p place) : r.2.before = some r.1 := by
  unfold unit at h
  split at h
  · cases h
  · split at h
    · rw [List.mem_singleton.mp h]
    · cases h

/-- What a repetition takes stands before the place where it ends. -/
theorem mem_manyFrom_before {min : ℕ} {max : Option ℕ} {r : List ℕ × Place}
    (h : r ∈ manyFrom p min max b s) : r.2.before = lastBefore b r.1 := by
  induction s generalizing b min max r with
  | nil =>
    unfold manyFrom at h
    split at h
    · rw [List.mem_singleton.mp h]
      rfl
    · cases h
  | cons c s ih =>
    unfold manyFrom at h
    rcases List.mem_append.mp h with h | h
    · split at h
      · rcases List.mem_map.mp h with ⟨r', hr', rfl⟩
        show r'.2.before = lastBefore (some c) r'.1
        exact ih hr'
      · cases h
    · split at h
      · rw [List.mem_singleton.mp h]
        rfl
      · cases h

theorem lastBefore_append : lastBefore b (s ++ t) = lastBefore (lastBefore b s) t := by
  induction s generalizing b with
  | nil => rfl
  | cons c s ih => exact ih

/-! ### Pieces -/

/-- The pattern takes units of a class only. -/
def Takes (m : Pattern α) (sep : ℕ → Bool) : Prop :=
  ∀ place, ∀ r ∈ m place, ∃ u, place.rest = u ++ r.2.rest ∧ ∀ c ∈ u, sep c = true

/-- The first piece goes to the first separator. -/
theorem between_first (hm : m.Consumes) {sep : ℕ → Bool} (htakes : m.Takes sep)
    (hs : ∀ c ∈ s, sep c = false) : ∃ t₁ t₂, t = t₁ ++ t₂ ∧
      (between (m.scan ⟨b, s ++ t⟩)).head? = some (s ++ t₁) ∧
        ∀ c ∈ t₂.head?, sep c = true := by
  generalize hn : (s ++ t).length = n
  induction n using Nat.strongRecOn generalizing b s t with
  | _ n ih =>
    rcases hst : s ++ t with _ | ⟨c, rest⟩
    · rcases List.append_eq_nil_iff.mp hst with ⟨rfl, rfl⟩
      refine ⟨[], [], rfl, ?_, fun c hc => (by cases hc)⟩
      rw [scan_nil hm]
      rfl
    · rw [hst, List.length_cons] at hn
      cases hfound : m ⟨b, c :: rest⟩ with
      | nil =>
        rw [scan_skip hfound, between]
        cases s with
        | nil =>
          rw [List.nil_append] at hst
          rcases ih rest.length (by omega) (b := some c) (s := []) (t := rest) (by simp) rfl with
            ⟨t₁, t₂, hrest, hhead, hsep⟩
          refine ⟨c :: t₁, t₂, ?_, ?_, hsep⟩
          · rw [hst, hrest, List.cons_append]
          · rw [List.head?_modifyHead, ← List.nil_append rest, hhead]
            rfl
        | cons d s =>
          rw [List.cons_append] at hst
          obtain ⟨rfl, rfl⟩ := List.cons.inj hst
          rw [List.forall_mem_cons] at hs
          rcases ih (s ++ t).length (by omega) (b := some d) hs.2 rfl with
            ⟨t₁, t₂, ht, hhead, hsep⟩
          refine ⟨t₁, t₂, ht, ?_, hsep⟩
          rw [List.head?_modifyHead, hhead]
          rfl
      | cons r others =>
        rcases r with ⟨a, found⟩
        rcases htakes ⟨b, c :: rest⟩ (a, found) (by rw [hfound]; exact List.mem_cons_self) with
          ⟨u, hu, hsep⟩
        have hlt := hm ⟨b, c :: rest⟩ (a, found) (by rw [hfound]; exact List.mem_cons_self)
        have hc : sep c = true := by
          cases u with
          | nil =>
            rw [List.nil_append] at hu
            rw [← hu] at hlt
            exact absurd hlt (Nat.lt_irrefl _)
          | cons d u =>
            obtain ⟨rfl, _⟩ := List.cons.inj hu
            exact hsep c List.mem_cons_self
        -- a separator stands here, so nothing is left of the text before it
        have hnil : s = [] := by
          cases s with
          | nil => rfl
          | cons d s =>
            obtain ⟨rfl, _⟩ := List.cons.inj hst
            rw [hs d List.mem_cons_self] at hc
            cases hc
        subst hnil
        rw [List.nil_append] at hst
        refine ⟨[], t, rfl, ?_, ?_⟩
        · rw [scan_found hm (by rw [hfound]; rfl)]
          rfl
        · rw [hst]
          intro d hd
          obtain rfl := Option.some.inj hd
          exact hc

/-- A text without separators stands in one piece.  What is cut off around it ends and begins with
    separators. -/
theorem exists_between (hm : m.Consumes) {sep : ℕ → Bool} (htakes : m.Takes sep) {p : List ℕ}
    (hne : s ≠ []) (hs : ∀ c ∈ s, sep c = false) : ∃ p₀ p₁ t₁ t₂, p = p₀ ++ p₁ ∧ t = t₁ ++ t₂ ∧
      (∀ c ∈ t₂.head?, sep c = true) ∧
        (p₀ = [] ∧ (between (m.scan ⟨b, p ++ (s ++ t)⟩)).head? = some (p₁ ++ s ++ t₁) ∨
          (∃ c ∈ p₀.getLast?, sep c = true) ∧
            p₁ ++ s ++ t₁ ∈ (between (m.scan ⟨b, p ++ (s ++ t)⟩)).tail) := by
  generalize hn : p.length = n
  induction n using Nat.strongRecOn generalizing b p with
  | _ n ih =>
    cases p with
    | nil =>
      rcases @between_first _ m b s t hm sep htakes hs with ⟨t₁, t₂, ht, hhead, hsep⟩
      exact ⟨[], [], t₁, t₂, rfl, ht, hsep, Or.inl ⟨rfl, hhead⟩⟩
    | cons c p =>
      rw [List.length_cons] at hn
      cases hfound : m ⟨b, c :: p ++ (s ++ t)⟩ with
      | nil =>
        rw [List.cons_append] at hfound ⊢
        rcases ih p.length (by omega) (b := some c) rfl with
          ⟨p₀, p₁, t₁, t₂, rfl, ht, hright, hpiece⟩
        rw [scan_skip hfound, between]
        rcases hpiece with ⟨rfl, hhead⟩ | ⟨⟨d, hd, hsep⟩, htail⟩
        · refine ⟨[], c :: p₁, t₁, t₂, rfl, ht, hright, Or.inl ⟨rfl, ?_⟩⟩
          rw [List.head?_modifyHead, hhead]
          rfl
        · refine ⟨c :: p₀, p₁, t₁, t₂, rfl, ht, hright, Or.inr ⟨⟨d, ?_, hsep⟩, ?_⟩⟩
          · rw [List.getLast?_cons, show p₀.getLast? = some d from hd]
            rfl
          · rw [List.tail_modifyHead]
            exact htail
      | cons r others =>
        rcases r with ⟨a, found⟩
        have hfirst := @scan_found _ m _ found a hm (by rw [hfound]; rfl)
        rcases htakes _ (a, found) (by rw [hfound]; exact List.mem_cons_self) with ⟨u, hu, hsep⟩
        have hlt := hm _ (a, found) (by rw [hfound]; exact List.mem_cons_self)
        -- the match ends before the text
        have hrest : ∃ p', c :: p = u ++ p' ∧ found.rest = p' ++ (s ++ t) := by
          rcases List.append_eq_append_iff.mp hu with ⟨u', hu', hrest⟩ | ⟨p', hp', hrest⟩
          · cases u' with
            | nil => exact ⟨[], by rw [hu', List.append_nil, List.append_nil], hrest.symm⟩
            | cons d u' =>
              rcases List.exists_cons_of_ne_nil hne with ⟨e, s', rfl⟩
              obtain ⟨rfl, _⟩ := List.cons.inj hrest
              have hd := hsep e (hu' ▸ List.mem_append_right _ List.mem_cons_self)
              rw [hs e List.mem_cons_self] at hd
              cases hd
          · exact ⟨p', hp', hrest⟩
        rcases hrest with ⟨p', hp', hrest⟩
        have hu' : u ≠ [] := by
          rintro rfl
          rw [hu, List.nil_append] at hlt
          exact absurd hlt (Nat.lt_irrefl _)
        have hlast : ∃ d ∈ u.getLast?, sep d = true :=
          ⟨u.getLast hu', List.getLast?_eq_some_getLast hu', hsep _ (List.getLast_mem hu')⟩
        have hlength : p'.length < n := by
          have := congrArg List.length hp'
          rw [List.length_cons, List.length_append] at this
          have := List.length_pos_iff.mpr hu'
          omega
        rcases ih p'.length hlength (b := found.before) rfl with
          ⟨p₀, p₁, t₁, t₂, hp₁, ht, hright, hpiece⟩
        have hplace : (⟨found.before, p' ++ (s ++ t)⟩ : Place) = found := by rw [← hrest]
        rw [hplace] at hpiece
        rw [hfirst, between, List.tail_cons]
        refine ⟨u ++ p₀, p₁, t₁, t₂, by rw [hp', hp₁, List.append_assoc], ht, hright,
          Or.inr ⟨?_, ?_⟩⟩
        · rcases hpiece with ⟨rfl, _⟩ | ⟨⟨d, hd, hsepd⟩, _⟩
          · rw [List.append_nil]
            exact hlast
          · exact ⟨d, by rw [List.getLast?_append, show p₀.getLast? = some d from hd]; rfl, hsepd⟩
        · rcases hpiece with ⟨_, hhead⟩ | ⟨_, htail⟩
          · exact List.mem_of_head? hhead
          · exact List.mem_of_mem_tail htail

end

end Pattern

end ResearchWorkbench
