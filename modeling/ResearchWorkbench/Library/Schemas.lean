import Mathlib.Control.Basic
import Mathlib.Data.List.Forall2
import ResearchWorkbench.Library.Result

namespace ResearchWorkbench

/-!
# Schemas

A schema parses a value: it normalises the value, or says what is wrong with it.  Schemas are
composed with `>=>` and with `do`.

* `Schema`, `SchemaIssue`, `Schema.Accepts` — parsers, their complaints and what they accept;
* `Schema.atLeast`, `Schema.atMost`, `Schema.refine`, `Schema.array`, `Schema.optional` — the
  combinators;
* `Schema.Checks` — on this value the schema changes nothing and checks one condition.  Where two
  schemas meet, what the first has normalised the second only checks, so that comparing them is
  comparing their conditions (`Checks.array`, `Checks.andThen`, …).
-/

/-- What is wrong with a value. -/
inductive SchemaIssue
  | tooSmall (minimum : ℕ)
  | tooBig (maximum : ℕ)
  | invalidFormat
  | invalidType
  | custom (message : String)
  deriving DecidableEq, Repr

/-- A parser of values of `α`. -/
abbrev Schema (α β : Type) := α → Except SchemaIssue β

namespace Schema

variable {α β γ : Type} {s : Schema α α} {t : Schema α β} {a : α} {b : β} {l : List α} {P Q : Prop}

/-! ### Combinators -/

/-- The schema parses the value. -/
def Accepts (t : Schema α β) (a : α) : Prop := ∃ b, t a = .ok b

/-- `.min(n)` of a text or an array. -/
def atLeast (n : ℕ) : Schema (List α) (List α) := fun l => do
  ensure (n ≤ l.length) (.tooSmall n)
  return l

/-- `.max(n)` of a text or an array. -/
def atMost (n : ℕ) : Schema (List α) (List α) := fun l => do
  ensure (l.length ≤ n) (.tooBig n)
  return l

/-- `.refine(p, message)`. -/
def refine (p : α → Prop) [DecidablePred p] (issue : SchemaIssue) : Schema α α := fun a => do
  ensure (p a) issue
  return a

/-- `z.array(t)`. -/
def array (t : Schema α β) : Schema (List α) (List β) := fun l => l.mapM t

/-- `t.optional()`. -/
def optional (t : Schema α β) : Schema (Option α) (Option β)
  | none => return none
  | some a => do return some (← t a)

/-! ### What they accept -/

theorem atLeast_eq_ok {n : ℕ} {l' : List α} : atLeast n l = .ok l' ↔ n ≤ l.length ∧ l' = l := by
  simp only [atLeast, bind_eq_ok, ensure_eq_ok, pure_eq_ok, exists_and_left, exists_const]
  exact and_congr_right' eq_comm

theorem atMost_eq_ok {n : ℕ} {l' : List α} : atMost n l = .ok l' ↔ l.length ≤ n ∧ l' = l := by
  simp only [atMost, bind_eq_ok, ensure_eq_ok, pure_eq_ok, exists_and_left, exists_const]
  exact and_congr_right' eq_comm

theorem refine_eq_ok {p : α → Prop} [DecidablePred p] {issue : SchemaIssue} {a' : α} :
    refine p issue a = .ok a' ↔ p a ∧ a' = a := by
  simp only [refine, bind_eq_ok, ensure_eq_ok, pure_eq_ok, exists_and_left, exists_const]
  exact and_congr_right' eq_comm

theorem andThen_eq_ok {u : Schema β γ} {c : γ} :
    (t >=> u) a = .ok c ↔ ∃ b, t a = .ok b ∧ u b = .ok c :=
  bind_eq_ok

/-- The results of an array's elements, one for one. -/
theorem array_eq_ok {l' : List β} : array t l = .ok l' ↔ List.Forall₂ (fun a b => t a = .ok b) l l' := by
  induction l generalizing l' with
  | nil => rw [array, List.mapM_nil, pure_eq_ok, List.forall₂_nil_left_iff, eq_comm]
  | cons a l ih =>
    have ih' {bs : List β} : l.mapM t = .ok bs ↔ List.Forall₂ (fun a b => t a = .ok b) l bs := ih
    simp only [array, List.mapM_cons, bind_eq_ok, pure_eq_ok, List.forall₂_cons_left_iff, ih']
    constructor
    · rintro ⟨b, hb, bs, hbs, rfl⟩
      exact ⟨b, bs, hb, hbs, rfl⟩
    · rintro ⟨b, bs, hb, hbs, rfl⟩
      exact ⟨b, hb, bs, hbs, rfl⟩

/-- Every element of a parsed array is parsed from one. -/
theorem exists_of_array_eq_ok {l' : List β} (h : array t l = .ok l') (hb : b ∈ l') :
    ∃ a ∈ l, t a = .ok b :=
  (mapM_eq_ok h).2 b hb

/-! ### Values that are only checked -/

/-- On the value `a`, the schema changes nothing and checks that `P`. -/
def Checks (s : Schema α α) (a : α) (P : Prop) : Prop := ∀ a', s a = .ok a' ↔ P ∧ a' = a

theorem Checks.eq_ok (h : s.Checks a P) (hP : P) : s a = .ok a := (h a).mpr ⟨hP, rfl⟩

theorem Checks.congr (h : s.Checks a P) (hPQ : P ↔ Q) : s.Checks a Q := by
  intro a'
  rw [h a', hPQ]

/-- What the schema accepts is what satisfies the condition. -/
theorem Checks.accepts_iff (h : s.Checks a P) : s.Accepts a ↔ P := by
  constructor
  · rintro ⟨a', ha'⟩
    exact ((h a').mp ha').1
  · intro hP
    exact ⟨a, h.eq_ok hP⟩

/-- A value that is parsed to itself is parsed to nothing else. -/
theorem Checks.of_eq_ok (h : s a = .ok a) : s.Checks a True := by
  intro a'
  rw [h, true_and, Except.ok.injEq, eq_comm]

theorem checks_atLeast (n : ℕ) (l : List α) : (atLeast n).Checks l (n ≤ l.length) :=
  fun _ => atLeast_eq_ok

theorem checks_atMost (n : ℕ) (l : List α) : (atMost n).Checks l (l.length ≤ n) :=
  fun _ => atMost_eq_ok

theorem checks_refine {p : α → Prop} [DecidablePred p] {issue : SchemaIssue} (a : α) :
    (refine p issue).Checks a (p a) :=
  fun _ => refine_eq_ok

/-- One schema after the other checks both conditions. -/
theorem Checks.andThen {u : Schema α α} (hs : s.Checks a P) (hu : u.Checks a Q) :
    Checks (s >=> u) a (P ∧ Q) := by
  intro a'
  rw [andThen_eq_ok]
  constructor
  · rintro ⟨b, hb, ha'⟩
    obtain ⟨hP, rfl⟩ := (hs b).mp hb
    obtain ⟨hQ, rfl⟩ := (hu a').mp ha'
    exact ⟨⟨hP, hQ⟩, rfl⟩
  · rintro ⟨⟨hP, hQ⟩, rfl⟩
    exact ⟨_, hs.eq_ok hP, hu.eq_ok hQ⟩

/-- An array checks its elements. -/
theorem Checks.array {P : α → Prop} (h : ∀ a ∈ l, s.Checks a (P a)) :
    (Schema.array s).Checks l (∀ a ∈ l, P a) := by
  induction l with
  | nil =>
    intro l'
    rw [array_eq_ok, List.forall₂_nil_left_iff]
    simp
  | cons a l ih =>
    intro l'
    have ih' := ih fun b hb => h b (List.mem_cons_of_mem _ hb)
    have ha := h a List.mem_cons_self
    rw [array_eq_ok, List.forall₂_cons_left_iff, List.forall_mem_cons]
    constructor
    · rintro ⟨b, bs, hb, hbs, rfl⟩
      obtain ⟨hP, rfl⟩ := (ha b).mp hb
      obtain ⟨hl, rfl⟩ := (ih' bs).mp (array_eq_ok.mpr hbs)
      exact ⟨⟨hP, hl⟩, rfl⟩
    · rintro ⟨⟨hP, hl⟩, rfl⟩
      exact ⟨a, l, ha.eq_ok hP, array_eq_ok.mp (ih'.eq_ok hl), rfl⟩

/-- An optional value is checked where it is there. -/
theorem Checks.optional {o : Option α} {P : α → Prop} (h : ∀ a ∈ o, s.Checks a (P a)) :
    (Schema.optional s).Checks o (∀ a ∈ o, P a) := by
  intro o'
  cases o with
  | none =>
    rw [Schema.optional, pure_eq_ok, eq_comm]
    simp
  | some a =>
    have ha := h a rfl
    simp only [Schema.optional, bind_eq_ok, pure_eq_ok, ha _, Option.mem_def, Option.some.injEq,
      forall_eq']
    constructor
    · rintro ⟨b, ⟨hP, rfl⟩, rfl⟩
      exact ⟨hP, rfl⟩
    · rintro ⟨hP, rfl⟩
      exact ⟨a, ⟨hP, rfl⟩, rfl⟩

/-! ### Objects -/

/-- An object checks its fields one after the other: a field, and the rest of the object. -/
theorem Checks.bind {f : α → Except SchemaIssue β} {x : β} (hs : s.Checks a P)
    (hf : ∀ x', f a = .ok x' ↔ Q ∧ x' = x) (x' : β) :
    (s a >>= f) = .ok x' ↔ (P ∧ Q) ∧ x' = x := by
  rw [bind_eq_ok]
  constructor
  · rintro ⟨a', ha', hx'⟩
    obtain ⟨hP, rfl⟩ := (hs a').mp ha'
    obtain ⟨hQ, rfl⟩ := (hf x').mp hx'
    exact ⟨⟨hP, hQ⟩, rfl⟩
  · rintro ⟨⟨hP, hQ⟩, rfl⟩
    exact ⟨a, hs.eq_ok hP, (hf _).mpr ⟨hQ, rfl⟩⟩

/-- The object itself. -/
theorem pure_eq_ok_iff (x x' : β) : (pure x : Except SchemaIssue β) = .ok x' ↔ True ∧ x' = x := by
  rw [pure_eq_ok, true_and, eq_comm]

/-- A checked value under a constructor. -/
theorem Checks.map {f : α → β} (hs : s.Checks a P) (x' : β) :
    (f <$> s a) = .ok x' ↔ P ∧ x' = f a := by
  rw [map_eq_ok]
  constructor
  · rintro ⟨a', ha', rfl⟩
    obtain ⟨hP, rfl⟩ := (hs a').mp ha'
    exact ⟨hP, rfl⟩
  · rintro ⟨hP, rfl⟩
    exact ⟨a, hs.eq_ok hP, rfl⟩

end Schema

end ResearchWorkbench
