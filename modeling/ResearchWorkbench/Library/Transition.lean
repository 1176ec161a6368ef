import Mathlib.Data.Nat.Notation
import Mathlib.Logic.Relation

namespace ResearchWorkbench

/-!
# Guarded runs of a deterministic machine

A machine is a total function `next : σ → α → σ` (what one action does, a refused action
changing nothing) together with a guard `ok : σ → α → Prop` that says in which states an action
may be taken.  A run is a chain of guarded actions:

* `Reach next ok s t` — `t` is reached from `s` by actions that each met the guard;
* `Reach.invariant` — what every guarded action preserves holds along the whole run;
* `Reach.mono` — a run under a stronger guard is a run under a weaker one;
* `Reach.ofTrace` — a list of actions whose guards hold one after the other is a run;
* `forall_take_and_iff_traceOk`, `forall_take_iff_traceOk` — guards that hold exactly where the next state is good.
-/

variable {σ α : Type*} {next : σ → α → σ} {ok ok' : σ → α → Prop} {s t u : σ}

/-- One action taken where the guard allows it. -/
def GuardedStep (next : σ → α → σ) (ok : σ → α → Prop) (s t : σ) : Prop :=
  ∃ a, ok s a ∧ next s a = t

/-- The states reached by guarded actions. -/
abbrev Reach (next : σ → α → σ) (ok : σ → α → Prop) : σ → σ → Prop :=
  Relation.ReflTransGen (GuardedStep next ok)

/-- The guard that allows every action. -/
def Always (_ : σ) (_ : α) : Prop := True

theorem Reach.tail' (h : Reach next ok s t) (a : α) (ha : ok t a) :
    Reach next ok s (next t a) :=
  h.tail ⟨a, ha, rfl⟩

/-- **The run rule.**  An invariant of the first state that every guarded action preserves is
    an invariant of every state of the run. -/
theorem Reach.invariant {I : σ → Prop} (h : Reach next ok s t) (h₀ : I s)
    (hstep : ∀ u a, I u → ok u a → I (next u a)) : I t := by
  induction h with
  | refl => exact h₀
  | tail _ h ih =>
    obtain ⟨a, ha, rfl⟩ := h
    exact hstep _ a ih ha

theorem Reach.mono (h : Reach next ok s t) (hok : ∀ u a, ok u a → ok' u a) :
    Reach next ok' s t := by
  induction h with
  | refl => exact .refl
  | tail _ h ih =>
    obtain ⟨a, ha, rfl⟩ := h
    exact ih.tail' a (hok _ a ha)

/-- **Simulation.**  A machine each of whose guarded actions is one of another machine has runs of
    that one only. -/
theorem Reach.simulate {β : Type*} {next' : σ → β → σ} {ok' : σ → β → Prop}
    (h : Reach next' ok' s t) (hsim : ∀ u b, ok' u b → GuardedStep next ok u (next' u b)) :
    Reach next ok s t := by
  induction h with
  | refl => exact .refl
  | tail _ h ih =>
    obtain ⟨b, hb, rfl⟩ := h
    exact ih.tail (hsim _ b hb)

/-- The guards of a list of actions hold one after the other. -/
def TraceOk (next : σ → α → σ) (ok : σ → α → Prop) : σ → List α → Prop
  | _, [] => True
  | s, a :: l => ok s a ∧ TraceOk next ok (next s a) l

instance decidableTraceOk [∀ s a, Decidable (ok s a)] :
    ∀ (s : σ) (l : List α), Decidable (TraceOk next ok s l)
  | _, [] => isTrue trivial
  | s, a :: l =>
    have := decidableTraceOk (next s a) l
    inferInstanceAs (Decidable (ok s a ∧ TraceOk next ok (next s a) l))

/-- The guards hold along a part of a list of actions. -/
theorem TraceOk.take {s : σ} {l : List α} (h : TraceOk next ok s l) (n : ℕ) :
    TraceOk next ok s (l.take n) := by
  induction l generalizing s n with
  | nil =>
    rw [List.take_nil]
    trivial
  | cons a l ih =>
    cases n with
    | zero => trivial
    | succ n => exact ⟨h.1, ih h.2 n⟩

/-- The guard of an action holds where the actions before it lead. -/
theorem TraceOk.getElem {s : σ} {l : List α} {n : ℕ} {a : α} (h : TraceOk next ok s l)
    (ha : l[n]? = some a) : ok ((l.take n).foldl next s) a := by
  induction l generalizing s n with
  | nil => cases ha
  | cons b l ih =>
    cases n with
    | zero =>
      obtain rfl : b = a := Option.some.inj ha
      exact h.1
    | succ n => exact ih h.2 ha

/-- **Exact guards.**  If a step from a good state, under an invariant, is a good step to a good
    state exactly when its guard holds, all states and all steps along a list of actions are good
    exactly when all guards hold. -/
theorem forall_take_and_iff_traceOk {I P : σ → Prop} {Q : σ → α → Prop}
    (hI : ∀ s a, I s → I (next s a))
    (hP : ∀ s a, I s → P s → (P (next s a) ∧ Q s a ↔ ok s a)) {s : σ} (hs : I s) (h : P s)
    (l : List α) :
    ((∀ n, P ((l.take n).foldl next s)) ∧
      ∀ (n : ℕ) (a : α), l[n]? = some a → Q ((l.take n).foldl next s) a) ↔
      TraceOk next ok s l := by
  induction l generalizing s with
  | nil => exact ⟨fun _ => trivial, fun _ => ⟨fun n => by rw [List.take_nil]; exact h, nofun⟩⟩
  | cons a l ih =>
    constructor
    · rintro ⟨hall, hsteps⟩
      have hnext : P (next s a) := hall 1
      exact ⟨(hP s a hs h).mp ⟨hnext, hsteps 0 a rfl⟩, (ih (hI s a hs) hnext).mp
        ⟨fun n => hall (n + 1), fun n b hb => hsteps (n + 1) b hb⟩⟩
    · rintro ⟨ha, hl⟩
      obtain ⟨hnext, hstep⟩ := (hP s a hs h).mpr ha
      obtain ⟨hall, hsteps⟩ := (ih (hI s a hs) hnext).mpr hl
      refine ⟨fun n => ?_, fun n b hb => ?_⟩
      · cases n with
        | zero => exact h
        | succ n => exact hall n
      · cases n with
        | zero =>
          obtain rfl : a = b := Option.some.inj hb
          exact hstep
        | succ n => exact hsteps n b hb

/-- Exact guards of states only. -/
theorem forall_take_iff_traceOk {I P : σ → Prop} (hI : ∀ s a, I s → I (next s a))
    (hP : ∀ s a, I s → P s → (P (next s a) ↔ ok s a)) {s : σ} (hs : I s) (h : P s)
    (l : List α) : (∀ n, P ((l.take n).foldl next s)) ↔ TraceOk next ok s l := by
  rw [← forall_take_and_iff_traceOk (Q := fun _ _ => True) hI
    (fun s a hs h => by rw [and_iff_left trivial]; exact hP s a hs h) hs h l]
  exact ⟨fun hall => ⟨hall, fun _ _ _ => trivial⟩, fun hall => hall.1⟩

/-- The state after a list of actions is reached from the first one. -/
theorem Reach.ofTrace {s : σ} {l : List α} (h : TraceOk next ok s l) :
    Reach next ok s (l.foldl next s) := by
  induction l generalizing s with
  | nil => exact .refl
  | cons a l ih => exact .head ⟨a, h.1, rfl⟩ (ih h.2)

/-- Every list of actions is a run under no guard at all. -/
theorem Reach.ofActions (s : σ) (l : List α) : Reach next Always s (l.foldl next s) := by
  induction l generalizing s with
  | nil => exact .refl
  | cons a l ih => exact .head ⟨a, trivial, rfl⟩ (ih _)

/-- A list of actions cut at two points is a run from the first to the second. -/
theorem Reach.ofActions_take (s : σ) (l : List α) {m n : ℕ} (h : m ≤ n) :
    Reach next Always ((l.take m).foldl next s) ((l.take n).foldl next s) := by
  have hsplit := List.take_append_drop m (l.take n)
  rw [List.take_take, Nat.min_eq_left h] at hsplit
  rw [← hsplit, List.foldl_append]
  exact .ofActions _ _

end ResearchWorkbench
