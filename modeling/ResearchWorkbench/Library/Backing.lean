import Mathlib.Data.Set.Basic

namespace ResearchWorkbench

/-!
# Items and the rows behind them

Items lead to rows by links that stay when an item or a row is superseded.  Some of the ways are
current: nothing on them is superseded.

* `Backing` — the current items, the rows behind an item, and those behind it by a current way;
* `Backing.Backed` — every label of a row behind a current item is one of a row behind it by a
  current way;
* `Backing.Backed.grow` — new items, rows and links;
* `Backing.backed_iff_spares` — what a supersession must spare.
-/

variable {α ε σ : Type*}

/-- The current items, what is behind an item, and the labels of the rows. -/
structure Backing (α ε σ : Type*) where
  current : Set α
  behind : α → Set ε
  behindNow : α → Set ε
  labels : ε → Set σ

namespace Backing

variable {b b' : Backing α ε σ}

/-- The item has a row with the label behind it, by a current way. -/
def Shows (b : Backing α ε σ) (a : α) (s : σ) : Prop := ∃ e ∈ b.behindNow a, s ∈ b.labels e

/-- Every label behind a current item is behind it by a current way. -/
def Backed (b : Backing α ε σ) : Prop :=
  ∀ a ∈ b.current, ∀ e ∈ b.behind a, ∀ s ∈ b.labels e, b.Shows a s

/-- **New rows.**  The current ways stay, and what is new behind an item is shown. -/
theorem Backed.grow (h : b.Backed) (hways : ∀ a, b.behindNow a ⊆ b'.behindNow a)
    (hlabels : ∀ e, b.labels e ⊆ b'.labels e)
    (hnew : ∀ a ∈ b'.current, ∀ e ∈ b'.behind a, ∀ s ∈ b'.labels e,
      (a ∈ b.current ∧ e ∈ b.behind a ∧ s ∈ b.labels e) ∨ b'.Shows a s) : b'.Backed := by
  intro a ha e he s hs
  rcases hnew a ha e he s hs with ⟨hold, hbehind, hlabel⟩ | hshown
  · rcases h a hold e hbehind s hlabel with ⟨e', he', hs'⟩
    exact ⟨e', hways a he', hlabels e' hs'⟩
  · exact hshown

/-- `b'` is `b` after a supersession: the links and the labels stay, and nothing becomes current. -/
structure Supersedes (b b' : Backing α ε σ) : Prop where
  current : b'.current ⊆ b.current
  behind : b'.behind = b.behind
  labels : b'.labels = b.labels
  ways : ∀ a, b.behindNow a ⊆ b.behind a

/-- **Supersession.**  What was backed stays so exactly when every item that stays current still
    shows the labels that it showed. -/
theorem backed_iff_spares (h : b.Backed) (hs : Supersedes b b') :
    b'.Backed ↔ ∀ a ∈ b'.current, ∀ s, b.Shows a s → b'.Shows a s := by
  constructor
  · rintro hbacked a ha s ⟨e, he, hlabel⟩
    refine hbacked a ha e ?_ s ?_
    · rw [hs.behind]
      exact hs.ways a he
    · rw [hs.labels]
      exact hlabel
  · intro hspares a ha e he s hlabel
    rw [hs.behind] at he
    rw [hs.labels] at hlabel
    exact hspares a ha s (h a (hs.current ha) e he s hlabel)

end Backing

end ResearchWorkbench
