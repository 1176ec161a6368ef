import Mathlib.Data.List.Chain

namespace ResearchWorkbench

/-!
# Spans of a list

A list is cut into spans, the ends of which are not blank, with blanks between them.  The spans are
put together again with a separator.

* `slice`, `Span`, `Span.IsPiece` — a span and what it cuts out;
* `Span.Follows`, `covered_of_isChain` — spans one after the other cover what is not blank;
* `joined`, `joined_eq_slice_iff` — putting pieces together gives the list back exactly if the list
  has the separator between any two of them: a piece that is put too far to the front or to the
  back never gets right again (`lt_of_joined_prefix`);
* `getElem?_joined` — a piece stands where it was if the distances are right.
-/

variable {α : Type*}

/-! ### Slices -/

/-- The elements from `start` to `stop`, the latter excluded. -/
def slice (l : List α) (start stop : ℕ) : List α := (l.take stop).drop start

section

variable {l m : List α} {i j k : ℕ}

theorem slice_eq (l : List α) (i j : ℕ) : slice l i j = (l.drop i).take (j - i) := List.drop_take

theorem length_slice (h : j ≤ l.length) : (slice l i j).length = j - i := by
  rw [slice, List.length_drop, List.length_take, Nat.min_eq_left h]

theorem getElem?_slice (h : i + k < j) : (slice l i j)[k]? = l[i + k]? := by
  rw [slice, List.getElem?_drop, List.getElem?_take_of_lt h]

/-- A list that stands at `i` is the slice from there. -/
theorem eq_slice_iff (hi : i ≤ j) (hj : j ≤ l.length) :
    m = slice l i j ↔ m <+: l.drop i ∧ i + m.length = j := by
  rw [slice_eq]
  constructor
  · rintro rfl
    refine ⟨List.take_prefix _ _, ?_⟩
    rw [List.length_take, List.length_drop]
    omega
  · rintro ⟨hstart, rfl⟩
    rw [Nat.add_sub_cancel_left]
    exact List.prefix_iff_eq_take.mp hstart

theorem slice_append (hij : i ≤ j) (hjk : j ≤ k) : slice l i j ++ slice l j k = slice l i k := by
  rw [slice_eq, slice_eq, slice_eq, show k - i = (j - i) + (k - j) by omega, List.take_add,
    List.drop_drop, Nat.add_sub_cancel' hij]

theorem slice_prefix_drop (l : List α) (i j : ℕ) : slice l i j <+: l.drop i := by
  rw [slice_eq]
  exact List.take_prefix _ _

/-- What stands at `i` are the elements from `i` on. -/
theorem getElem?_of_prefix_drop (h : m <+: l.drop i) (hk : k < m.length) : l[i + k]? = m[k]? := by
  rcases h with ⟨rest, hrest⟩
  rw [← List.getElem?_drop, ← hrest, List.getElem?_append_left hk]

/-- Elements of a list that stands at `n`. -/
theorem slice_of_prefix_drop {n : ℕ} (h : m <+: l.drop n) (hj : j ≤ m.length) :
    slice m i j = slice l (n + i) (n + j) := by
  rcases h with ⟨rest, hrest⟩
  rw [slice_eq, slice_eq, ← List.drop_drop, ← hrest, Nat.add_sub_add_left]
  by_cases hi : i ≤ j
  · rw [List.drop_append_of_le_length (by omega), List.take_append_of_le_length]
    rw [List.length_drop]
    omega
  · rw [Nat.sub_eq_zero_of_le (not_le.mp hi).le, List.take_zero, List.take_zero]

theorem prefix_drop_of_append {m' : List α} (h : m ++ m' <+: l.drop i) :
    m' <+: l.drop (i + m.length) := by
  rcases h with ⟨rest, hrest⟩
  refine ⟨rest, ?_⟩
  rw [← List.drop_drop, ← hrest, List.append_assoc, List.drop_left]

end

/-- One more list is put to the end. -/
theorem intercalate_concat {sep x : List α} {xs : List (List α)} (h : xs ≠ []) :
    List.intercalate sep (xs ++ [x]) = List.intercalate sep xs ++ sep ++ x := by
  induction xs with
  | nil => exact absurd rfl h
  | cons y xs ih =>
    cases xs with
    | nil =>
      rw [List.singleton_append, List.intercalate_cons_cons, List.intercalate_singleton,
        List.intercalate_singleton]
    | cons z xs =>
      rw [List.cons_append, List.cons_append, List.intercalate_cons_cons, ← List.cons_append,
        ih (List.cons_ne_nil z xs), List.intercalate_cons_cons]
      simp only [List.append_assoc]

/-! ### Spans -/

/-- From `start` to `stop`, the latter excluded. -/
structure Span where
  start : ℕ
  stop : ℕ
  deriving DecidableEq, Repr

section

variable {blank : α → Bool} {l : List α} {i j : ℕ} {p q : Span} {ps : List Span}

/-- All elements from `i` to `j` are blank. -/
def BlankOn (blank : α → Bool) (l : List α) (i j : ℕ) : Prop :=
  ∀ k, i ≤ k → k < j → ∀ c, l[k]? = some c → blank c = true

theorem BlankOn.mono {i' j' : ℕ} (h : BlankOn blank l i j) (hi : i ≤ i') (hj : j' ≤ j) :
    BlankOn blank l i' j' :=
  fun k hik hkj => h k (hi.trans hik) (hkj.trans_le hj)

theorem BlankOn.trans (h : BlankOn blank l i j) {k : ℕ} (h' : BlankOn blank l j k) :
    BlankOn blank l i k := by
  intro n hin hnk
  by_cases hn : n < j
  · exact h n hin hn
  · exact h' n (not_lt.mp hn) hnk

namespace Span

/-- A span of the list that neither begins nor ends with a blank. -/
structure IsPiece (blank : α → Bool) (l : List α) (p : Span) : Prop where
  lt : p.start < p.stop
  le : p.stop ≤ l.length
  first : ∀ c, l[p.start]? = some c → blank c = false
  last : ∀ c, l[p.stop - 1]? = some c → blank c = false

/-- `q` does not begin or end before `p` does, and there are only blanks between them. -/
structure Follows (blank : α → Bool) (l : List α) (p q : Span) : Prop where
  start_le : p.start ≤ q.start
  stop_le : p.stop ≤ q.stop
  blankOn : BlankOn blank l p.stop q.start

/-- The span in a list that has this one at `n`. -/
def shift (n : ℕ) (p : Span) : Span := ⟨n + p.start, n + p.stop⟩

theorem IsPiece.shift {m : List α} {n : ℕ} (hm : m <+: l.drop n) (h : IsPiece blank m p) :
    IsPiece blank l (p.shift n) := by
  have hlt := h.lt
  have hle := h.le
  have hlength := hm.length_le
  rw [List.length_drop] at hlength
  refine ⟨Nat.add_lt_add_left hlt n, ?_, fun c hc => h.first c ?_, fun c hc => h.last c ?_⟩
  · show n + p.stop ≤ l.length
    omega
  · rw [← hc, ← getElem?_of_prefix_drop hm (by omega)]
    rfl
  · rw [← hc, ← getElem?_of_prefix_drop hm (by omega)]
    congr 1
    show n + (p.stop - 1) = n + p.stop - 1
    omega

theorem Follows.shift {m : List α} {n : ℕ} (hm : m <+: l.drop n) (h : Follows blank m p q)
    (hq : q.start ≤ m.length) : Follows blank l (p.shift n) (q.shift n) where
  start_le := Nat.add_le_add_left h.start_le n
  stop_le := Nat.add_le_add_left h.stop_le n
  blankOn i hi hi' c hc := by
    have hn : n + p.stop ≤ i := hi
    have hn' : i < n + q.start := hi'
    refine h.blankOn (i - n) (by omega) (by omega) c ?_
    rw [← getElem?_of_prefix_drop hm (by omega), Nat.add_sub_cancel' (by omega), hc]

/-- **Spans one after the other cover what is not blank.** -/
theorem covered_of_isChain (h : List.IsChain (Follows blank l) (p :: ps)) {c : α}
    (hc : l[i]? = some c) (hblank : blank c = false) (hp : p.stop ≤ i)
    (hi : i < ((p :: ps).getLast (List.cons_ne_nil p ps)).stop) :
    ∃ q ∈ ps, q.start ≤ i ∧ i < q.stop := by
  induction ps generalizing p with
  | nil => exact absurd hi (not_lt.mpr hp)
  | cons q ps ih =>
    rw [List.isChain_cons_cons] at h
    rw [List.getLast_cons_cons] at hi
    by_cases hq : q.stop ≤ i
    · rcases ih h.2 hq hi with ⟨r, hr, hri⟩
      exact ⟨r, List.mem_cons_of_mem q hr, hri⟩
    · refine ⟨q, List.mem_cons_self, ?_, not_le.mp hq⟩
      by_contra hstart
      have hb := h.1.blankOn i hp (not_le.mp hstart) c hc
      rw [hblank] at hb
      cases hb

/-- The starts of such spans do not decrease, and neither do their stops. -/
theorem pairwise_of_isChain (h : List.IsChain (Follows blank l) ps) :
    ps.Pairwise fun p q => p.start ≤ q.start ∧ p.stop ≤ q.stop := by
  have htrans : IsTrans Span fun p q => p.start ≤ q.start ∧ p.stop ≤ q.stop :=
    ⟨fun p q r hpq hqr => ⟨hpq.1.trans hqr.1, hpq.2.trans hqr.2⟩⟩
  exact (List.IsChain.imp (fun p q hpq => ⟨hpq.start_le, hpq.stop_le⟩) h).pairwise

theorem start_le_of_mem (h : List.IsChain (Follows blank l) (p :: ps)) (hq : q ∈ p :: ps) :
    p.start ≤ q.start := by
  rcases List.mem_cons.mp hq with rfl | hq
  · exact le_rfl
  · exact ((List.pairwise_cons.mp (pairwise_of_isChain h)).1 q hq).1

theorem stop_le_getLast (h : List.IsChain (Follows blank l) (p :: ps)) (hq : q ∈ p :: ps) :
    q.stop ≤ ((p :: ps).getLast (List.cons_ne_nil p ps)).stop := by
  have hpairwise := pairwise_of_isChain h
  rw [← List.dropLast_append_getLast (List.cons_ne_nil p ps), List.pairwise_append] at hpairwise
  rw [← List.dropLast_append_getLast (List.cons_ne_nil p ps), List.mem_append,
    List.mem_singleton] at hq
  rcases hq with hq | rfl
  · exact (hpairwise.2.2 q hq _ (List.mem_singleton_self _)).2
  · exact le_rfl

/-! ### Putting spans together -/

/-- What the spans cut out, with a separator between them. -/
def joined (sep l : List α) (ps : List Span) : List α :=
  List.intercalate sep (ps.map fun p => slice l p.start p.stop)

/-- The list has the separator between the two, and nothing else. -/
def Touches (sep l : List α) (p q : Span) : Prop :=
  q.start = p.stop + sep.length ∧ slice l p.stop q.start = sep

variable {sep : List α}

/-- What touches has only the separator between it. -/
theorem Touches.follows (h : Touches sep l p q) (hp : p.start ≤ p.stop) (hq : q.start ≤ q.stop)
    (hsep : ∀ c ∈ sep, blank c = true) : Follows blank l p q where
  start_le := hp.trans (h.1 ▸ Nat.le_add_right _ _)
  stop_le := (h.1 ▸ Nat.le_add_right _ _ : p.stop ≤ q.start).trans hq
  blankOn i hi hi' c hc := by
    refine hsep c (h.2 ▸ List.mem_of_getElem? (i := i - p.stop) ?_)
    rw [getElem?_slice (by omega), Nat.add_sub_cancel' hi, hc]

/-- Two spans of a list touch in a longer one as well. -/
theorem Touches.append (h : Touches sep l p q) (hsep : sep ≠ []) (m : List α) :
    Touches sep (l ++ m) p q := by
  refine ⟨h.1, ?_⟩
  have hlength := congrArg List.length h.2
  have hpos := List.length_pos_iff.mpr hsep
  have hstart := h.1
  rw [slice, List.length_drop, List.length_take] at hlength
  rw [slice, List.take_append_of_le_length (by omega)]
  exact h.2

theorem joined_singleton : joined sep l [p] = slice l p.start p.stop := List.intercalate_singleton

theorem joined_cons_cons :
    joined sep l (p :: q :: ps) = slice l p.start p.stop ++ sep ++ joined sep l (q :: ps) :=
  List.intercalate_cons_cons

theorem IsPiece.length_slice (h : IsPiece blank l p) :
    (slice l p.start p.stop).length = p.stop - p.start :=
  ResearchWorkbench.length_slice h.le

/-- It begins as its first piece does. -/
theorem IsPiece.getElem?_joined_zero (h : IsPiece blank l p) (ps : List Span) :
    (joined sep l (p :: ps))[0]? = l[p.start]? := by
  have hlt := h.lt
  have hzero : (slice l p.start p.stop)[0]? = l[p.start]? :=
    getElem?_slice (k := 0) (by omega)
  cases ps with
  | nil => rw [joined_singleton, hzero]
  | cons q ps =>
    rw [joined_cons_cons, List.append_assoc,
      List.getElem?_append_left (by rw [h.length_slice]; omega), hzero]

/-- A piece that is put behind its place leaves the list too short: its last element is not blank,
    so the next piece cannot stand in the blanks behind it, and is behind its place as well. -/
theorem lt_of_joined_prefix {d : ℕ} (hd : 0 < d) (hchain : List.IsChain (Follows blank l) (p :: ps))
    (hpieces : ∀ q ∈ p :: ps, IsPiece blank l q)
    (h : joined sep l (p :: ps) <+: l.drop (p.start + d)) :
    ((p :: ps).getLast (List.cons_ne_nil p ps)).stop <
      p.start + d + (joined sep l (p :: ps)).length := by
  induction ps generalizing p d with
  | nil =>
    have hp := hpieces p List.mem_cons_self
    have hlt := hp.lt
    rw [joined_singleton, hp.length_slice, List.getLast_singleton]
    omega
  | cons q ps ih =>
    have hp := hpieces p List.mem_cons_self
    have hlt := hp.lt
    rw [List.isChain_cons_cons] at hchain
    rw [joined_cons_cons] at h ⊢
    have hq := prefix_drop_of_append h
    rw [List.length_append, hp.length_slice] at hq
    rw [List.getLast_cons_cons, List.length_append, List.length_append, hp.length_slice]
    have hlater : q.start < p.stop + d + sep.length := by
      by_contra hle
      -- the last element of `p` would be a blank
      have hindex : p.start + d + (p.stop - p.start - 1) = p.stop - 1 + d := by omega
      have hlast := getElem?_of_prefix_drop h (k := p.stop - p.start - 1) (by
        rw [List.length_append, List.length_append, hp.length_slice]
        omega)
      rw [List.append_assoc, List.getElem?_append_left (by rw [hp.length_slice]; omega),
        getElem?_slice (by omega), hindex,
        show p.start + (p.stop - p.start - 1) = p.stop - 1 by omega] at hlast
      have hlength := hp.le
      have hsome : l[p.stop - 1]? = some l[p.stop - 1] := List.getElem?_eq_getElem (by omega)
      have hblank := hchain.1.blankOn (p.stop - 1 + d) (by omega) (by omega) _
        (hlast.trans hsome)
      rw [hp.last _ hsome] at hblank
      cases hblank
    have hq' : joined sep l (q :: ps) <+:
        l.drop (q.start + (p.stop + d + sep.length - q.start)) := by
      rw [show q.start + (p.stop + d + sep.length - q.start) =
        p.start + d + (p.stop - p.start + sep.length) by omega]
      exact hq
    have hih := ih (by omega) hchain.2 (fun r hr => hpieces r (List.mem_cons_of_mem p hr)) hq'
    omega

/-- **Pieces put together are the list exactly if they touch.** -/
theorem joined_eq_slice_iff (hchain : List.IsChain (Follows blank l) (p :: ps))
    (hpieces : ∀ q ∈ p :: ps, IsPiece blank l q) :
    joined sep l (p :: ps) =
        slice l p.start ((p :: ps).getLast (List.cons_ne_nil p ps)).stop ↔
      List.IsChain (Touches sep l) (p :: ps) := by
  induction ps generalizing p with
  | nil => exact iff_of_true joined_singleton (List.isChain_singleton p)
  | cons q ps ih =>
    have hp := hpieces p List.mem_cons_self
    have hq := hpieces q (List.mem_cons_of_mem p List.mem_cons_self)
    have hrest : ∀ r ∈ q :: ps, IsPiece blank l r :=
      fun r hr => hpieces r (List.mem_cons_of_mem p hr)
    rw [List.isChain_cons_cons] at hchain
    rw [List.isChain_cons_cons, ← ih hchain.2 hrest, List.getLast_cons_cons]
    have hlast := hrest _ (List.getLast_mem (List.cons_ne_nil q ps))
    have hle := stop_le_getLast hchain.2 List.mem_cons_self
    have hplt := hp.lt
    have hqlt := hq.lt
    have hstop := hchain.1.stop_le
    rw [joined_cons_cons, eq_slice_iff (by omega) hlast.le, eq_slice_iff (by omega) hlast.le,
      List.length_append, List.length_append, hp.length_slice]
    constructor
    · rintro ⟨hstart, hlength⟩
      have hsep : sep ++ joined sep l (q :: ps) <+: l.drop p.stop := by
        rw [List.append_assoc] at hstart
        have hdrop := prefix_drop_of_append hstart
        rwa [hp.length_slice, Nat.add_sub_cancel' hp.lt.le] at hdrop
      have hjoined := prefix_drop_of_append hsep
      have hstart : q.start = p.stop + sep.length := by
        rcases lt_trichotomy q.start (p.stop + sep.length) with hbefore | heq | hbehind
        · -- the rest is put behind its place
          have hlt := lt_of_joined_prefix (d := p.stop + sep.length - q.start) (by omega)
            hchain.2 hrest (by rwa [Nat.add_sub_cancel' hbefore.le])
          omega
        · exact heq
        · -- `q` would begin with one of the blanks before it
          have hpos : 0 < (joined sep l (q :: ps)).length := by omega
          have hfirst := getElem?_of_prefix_drop hjoined hpos
          rw [hq.getElem?_joined_zero, Nat.add_zero] at hfirst
          have hqle := hq.le
          have hsome : l[q.start]? = some l[q.start] := List.getElem?_eq_getElem (by omega)
          have hblank := hchain.1.blankOn _ (by omega) hbehind _ (hfirst.trans hsome)
          rw [hq.first _ hsome] at hblank
          cases hblank
      refine ⟨⟨hstart, ?_⟩, ?_, by omega⟩
      · refine ((eq_slice_iff (by omega) (hqlt.le.trans hq.le)).mpr ⟨?_, hstart.symm⟩).symm
        exact (List.prefix_append sep _).trans hsep
      · rw [hstart]
        exact hjoined
    · rintro ⟨⟨hstart, hsep⟩, hjoined⟩
      have hrest := (eq_slice_iff (by omega) hlast.le).mpr hjoined
      have hall : slice l p.start p.stop ++ sep ++ joined sep l (q :: ps) =
          slice l p.start ((q :: ps).getLast (List.cons_ne_nil q ps)).stop := by
        rw [hrest, ← hsep, slice_append hplt.le (by omega), slice_append (by omega) (by omega)]
      rw [hall]
      exact ⟨slice_prefix_drop l _ _, by omega⟩

/-- **A piece stands where it was if the distances before it are right.** -/
theorem getElem?_joined (hchain : List.IsChain (Follows blank l) (p :: ps))
    (hpieces : ∀ q ∈ p :: ps, IsPiece blank l q)
    (hdistance : List.IsChain (fun q r => r.start = q.stop + sep.length) (p :: ps))
    (hq : q ∈ p :: ps) (hstart : q.start ≤ i) (hstop : i < q.stop) :
    (joined sep l (p :: ps))[i - p.start]? = l[i]? := by
  induction ps generalizing p with
  | nil =>
    obtain rfl := List.mem_singleton.mp hq
    rw [joined_singleton, getElem?_slice (by omega), Nat.add_sub_cancel' hstart]
  | cons r ps ih =>
    have hp := hpieces p List.mem_cons_self
    have hplt := hp.lt
    rw [joined_cons_cons, List.append_assoc]
    rcases List.mem_cons.mp hq with rfl | hq
    · rw [List.getElem?_append_left (by rw [hp.length_slice]; omega), getElem?_slice (by omega),
        Nat.add_sub_cancel' hstart]
    · rw [List.isChain_cons_cons] at hchain hdistance
      have hrstart : r.start ≤ q.start := start_le_of_mem hchain.2 hq
      have hih := ih hchain.2 (fun x hx => hpieces x (List.mem_cons_of_mem p hx)) hdistance.2 hq
      have hd := hdistance.1
      rw [List.getElem?_append_right (by rw [hp.length_slice]; omega), hp.length_slice,
        List.getElem?_append_right (by omega),
        show i - p.start - (p.stop - p.start) - sep.length = i - r.start by omega]
      exact hih

end Span

end

end ResearchWorkbench
