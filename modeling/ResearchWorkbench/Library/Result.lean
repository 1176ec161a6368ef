import Mathlib.Data.List.Basic
import Mathlib.Data.Option.Basic

namespace ResearchWorkbench

/-!
# Fallible computations

The vocabulary in which guarded transactions are written, over arbitrary error types:

* `ensure c e` — throw `e` unless the decidable condition `c` holds;
* `require o e` — read an optional value, throwing `e` when there is none.

Each has an inversion lemma (`bind_eq_ok`, `ensure_eq_ok`, `require_eq_ok`), so that
`simp only [f, bind_eq_ok, ensure_eq_ok, require_eq_ok]` turns "the transaction succeeded" into
the conjunction of its guards and the equation of its result; `bind_eq_error` and its companions
say where it failed.
-/

variable {ε α β : Type}

/-- Throw `e` unless `c` holds. -/
def ensure (c : Prop) [Decidable c] (e : ε) : Except ε Unit :=
  if c then .ok () else .error e

/-- The value of `o`, or the error `e` when there is none. -/
def require (o : Option α) (e : ε) : Except ε α :=
  match o with
  | some a => .ok a
  | none => .error e

theorem bind_eq_ok {x : Except ε α} {f : α → Except ε β} {b : β} :
    x >>= f = .ok b ↔ ∃ a, x = .ok a ∧ f a = .ok b := by
  cases x <;> simp [bind, Except.bind]

theorem map_eq_ok {x : Except ε α} {f : α → β} {b : β} :
    f <$> x = .ok b ↔ ∃ a, x = .ok a ∧ f a = b := by
  cases x <;> simp [Functor.map, Except.map]

theorem pure_eq_ok {a b : α} : (pure a : Except ε α) = .ok b ↔ a = b := by
  simp [pure, Except.pure]

theorem ensure_eq_ok {c : Prop} [Decidable c] {e : ε} {u : Unit} :
    ensure c e = .ok u ↔ c := by
  unfold ensure; split <;> simp_all

theorem require_eq_ok {o : Option α} {e : ε} {a : α} : require o e = .ok a ↔ o = some a := by
  cases o <;> simp [require]

theorem bind_eq_error {x : Except ε α} {f : α → Except ε β} {e : ε} :
    x >>= f = .error e ↔ x = .error e ∨ ∃ a, x = .ok a ∧ f a = .error e := by
  cases x <;> simp [bind, Except.bind]

theorem ensure_eq_error {c : Prop} [Decidable c] {e e' : ε} :
    ensure c e = .error e' ↔ ¬ c ∧ e = e' := by
  unfold ensure; split <;> simp_all

theorem require_eq_error {o : Option α} {e e' : ε} :
    require o e = .error e' ↔ o = none ∧ e = e' := by
  cases o <;> simp [require]

theorem pure_ne_error {a : α} {e : ε} : (pure a : Except ε α) ≠ .error e := by
  simp [pure, Except.pure]

theorem toOption_eq_some {x : Except ε α} {a : α} : x.toOption = some a ↔ x = .ok a := by
  cases x <;> simp [Except.toOption]

/-- **Loops.**  What every step of a fallible loop keeps holds after the loop. -/
theorem foldlM_eq_ok {f : β → α → Except ε β} {P : β → Prop} {l : List α} {b b' : β}
    (h : l.foldlM f b = .ok b') (h₀ : P b)
    (hstep : ∀ a ∈ l, ∀ b b', P b → f b a = .ok b' → P b') : P b' := by
  induction l generalizing b with
  | nil => exact pure_eq_ok.mp h ▸ h₀
  | cons a l ih =>
    rw [List.foldlM_cons] at h
    obtain ⟨c, hc, h⟩ := bind_eq_ok.mp h
    exact ih h (hstep a List.mem_cons_self b c h₀ hc) fun a ha =>
      hstep a (List.mem_cons_of_mem _ ha)

/-- A fallible map that succeeds has mapped every element to one of the results. -/
theorem mapM_eq_ok {f : α → Except ε β} {l : List α} {l' : List β} (h : l.mapM f = .ok l') :
    (∀ a ∈ l, ∃ b ∈ l', f a = .ok b) ∧ ∀ b ∈ l', ∃ a ∈ l, f a = .ok b := by
  induction l generalizing l' with
  | nil =>
    rw [List.mapM_nil] at h
    obtain rfl := pure_eq_ok.mp h
    exact ⟨nofun, nofun⟩
  | cons a l ih =>
    simp only [List.mapM_cons, bind_eq_ok, pure_eq_ok] at h
    obtain ⟨b, hb, bs, hbs, rfl⟩ := h
    obtain ⟨hleft, hright⟩ := ih hbs
    refine ⟨List.forall_mem_cons.mpr ⟨⟨b, List.mem_cons_self, hb⟩, fun a' ha' => ?_⟩,
      List.forall_mem_cons.mpr ⟨⟨a, List.mem_cons_self, hb⟩, fun b' hb' => ?_⟩⟩
    · obtain ⟨b', hb', heq⟩ := hleft a' ha'
      exact ⟨b', List.mem_cons_of_mem _ hb', heq⟩
    · obtain ⟨a', ha', heq⟩ := hright b' hb'
      exact ⟨a', List.mem_cons_of_mem _ ha', heq⟩

/-- A fallible map succeeds if it does on every element. -/
theorem exists_mapM_eq_ok {f : α → Except ε β} {l : List α} (h : ∀ a ∈ l, ∃ b, f a = .ok b) :
    ∃ l', l.mapM f = .ok l' := by
  induction l with
  | nil => exact ⟨[], List.mapM_nil⟩
  | cons a l ih =>
    obtain ⟨⟨b, hb⟩, h⟩ := List.forall_mem_cons.mp h
    obtain ⟨bs, hbs⟩ := ih h
    refine ⟨b :: bs, ?_⟩
    simp only [List.mapM_cons, bind_eq_ok, pure_eq_ok]
    exact ⟨b, hb, bs, hbs, rfl⟩

end ResearchWorkbench
