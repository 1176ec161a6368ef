import ResearchWorkbench.Library.Transition
import Mathlib.Data.List.Basic

namespace ResearchWorkbench

/-!
# Row locks held to the end of the transaction

Transactions that take exclusive locks on rows one after the other and give them back together
when they end.  A transaction is given by its plan, the locks it is going to ask for.

* `LockRequest` — a lock that is waited for, or one that is passed over while another has it;
* `LockSession`, `lockStep` — what a transaction holds and still wants, and the lock manager;
* `WaitsFor`, `Deadlocked` — the wait-for graph of the sessions and its cycles;
* `RootFirst` — the locking discipline: a plan takes one row alone, or never waits, or takes the
  root of all its rows first;
* `Reach.not_deadlocked` — the run rule: under that discipline no reachable state has a cycle.
-/

/-- A request for a lock on one row. -/
inductive LockRequest (Row : Type*) where
  /-- `FOR UPDATE`, `UPDATE` and `DELETE` wait until the row is free. -/
  | wait (row : Row)
  /-- `FOR UPDATE SKIP LOCKED` passes over a row that another transaction has. -/
  | skip (row : Row)
  deriving DecidableEq

/-- A running transaction: the rows it has locked and the requests it has still to make. -/
structure LockSession (Row : Type*) where
  held : List Row := []
  plan : List (LockRequest Row) := []
  deriving DecidableEq

/-- What can happen at the lock manager. -/
inductive LockAction (Row : Type*) where
  /-- A transaction begins. -/
  | start (plan : List (LockRequest Row))
  /-- LockSession `i` makes its next request. -/
  | advance (i : ℕ)
  /-- LockSession `i` commits or rolls back. -/
  | finish (i : ℕ)

namespace LockRequest

variable {Row : Type*}

/-- The row asked for. -/
def row : LockRequest Row → Row
  | wait row => row
  | skip row => row

/-- The request makes its transaction wait while another one has the row. -/
def waits : LockRequest Row → Bool
  | wait _ => true
  | skip _ => false

@[simp] theorem row_wait (r : Row) : (wait r).row = r := rfl
@[simp] theorem row_skip (r : Row) : (skip r).row = r := rfl
@[simp] theorem waits_wait (r : Row) : (wait r).waits = true := rfl
@[simp] theorem waits_skip (r : Row) : (skip r).waits = false := rfl

end LockRequest

section
variable {Row : Type*}

/-- Another session than `i` has locked the row. -/
def HeldByOther (t : List (LockSession Row)) (i : ℕ) (r : Row) : Prop :=
  ∃ j s, t[j]? = some s ∧ j ≠ i ∧ r ∈ s.held

/-- LockSession `i` waits for a row that session `j` has locked. -/
def WaitsFor (t : List (LockSession Row)) (i j : ℕ) : Prop :=
  ∃ s s' r, t[i]? = some s ∧ t[j]? = some s' ∧ i ≠ j ∧
    s.plan.head? = some (.wait r) ∧ r ∈ s'.held

/-- Some session waits, along a chain of waiting sessions, for itself. -/
def Deadlocked (t : List (LockSession Row)) : Prop := ∃ i, Relation.TransGen (WaitsFor t) i i

end

section
variable {Row : Type*} [DecidableEq Row] {t t' : List (LockSession Row)} {i j : ℕ} {r : Row}

instance decidableHeldByOther (t : List (LockSession Row)) (i : ℕ) (r : Row) :
    Decidable (HeldByOther t i r) :=
  decidable_of_iff (∃ p ∈ t.zipIdx, p.2 ≠ i ∧ r ∈ p.1.held) <| by
    simp only [HeldByOther, Prod.exists, List.mem_zipIdx_iff_getElem?]
    exact ⟨fun ⟨s, j, h⟩ => ⟨j, s, h⟩, fun ⟨j, s, h⟩ => ⟨s, j, h⟩⟩

/-- **The lock manager.**  A request for a free row is granted, one for a row that another
    session has makes the session wait (nothing happens) or is passed over.  All locks are kept
    until the session ends. -/
def lockStep (t : List (LockSession Row)) : LockAction Row → List (LockSession Row)
  | .start plan => t ++ [{ held := [], plan }]
  | .advance i =>
    match t[i]? with
    | none => t
    | some s =>
      match s.plan with
      | [] => t
      | request :: plan =>
        if HeldByOther t i request.row then
          if request.waits then t else t.set i { s with plan }
        else t.set i { held := request.row :: s.held, plan }
  | .finish i => t.set i { held := [], plan := [] }

/-- Transactions begin with a plan from `plans` only. -/
def StartsWith (plans : Set (List (LockRequest Row))) (_ : List (LockSession Row)) :
    LockAction Row → Prop
  | .start plan => plan ∈ plans
  | _ => True

/-! ### Exclusive locks -/

/-- No row is locked by two sessions. -/
def Exclusive (t : List (LockSession Row)) : Prop :=
  ∀ (i j : ℕ) (s s' : LockSession Row) (r : Row), t[i]? = some s → t[j]? = some s' →
    r ∈ s.held → r ∈ s'.held → i = j

omit [DecidableEq Row] in
/-- One session changed so that every row it now has was its own or nobody else's. -/
theorem Exclusive.set {s s' : LockSession Row} (h : Exclusive t) (hs : t[i]? = some s)
    (hheld : ∀ r ∈ s'.held, r ∈ s.held ∨ ¬HeldByOther t i r) : Exclusive (t.set i s') := by
  -- a row of the changed session is in no other session
  have hfree : ∀ (j : ℕ) (u : LockSession Row) (r : Row), t[j]? = some u → r ∈ u.held →
      r ∈ s'.held → i = j := by
    intro j u r hu hr hr'
    by_contra hne
    rcases hheld r hr' with hold | hfree
    · exact hne (h i j s u r hs hu hold hr)
    · exact hfree ⟨j, u, hu, fun hji => hne hji.symm, hr⟩
  intro a b u v r hu hv hru hrv
  rw [List.getElem?_set] at hu hv
  split at hu
  · rename_i hia
    subst hia
    split at hv
    · rename_i hib
      exact hib
    · split at hu
      · cases hu
        exact hfree b v r hv hrv hru
      · cases hu
  · split at hv
    · rename_i hib
      subst hib
      split at hv
      · cases hv
        exact (hfree a u r hu hru hrv).symm
      · cases hv
    · exact h a b u v r hu hv hru hrv

theorem exclusive_lockStep (h : Exclusive t) (a : LockAction Row) : Exclusive (lockStep t a) := by
  cases a with
  | start plan =>
    intro i j s s' r hs hs' hr hr'
    simp only [lockStep, List.getElem?_append] at hs hs'
    -- the new session has no row
    have hold : ∀ (k : ℕ) (u : LockSession Row), r ∈ u.held →
        (if k < t.length then t[k]? else [{ held := [], plan := plan }][k - t.length]?) = some u →
        t[k]? = some u := by
      intro k u hru hu
      split at hu
      · exact hu
      · rw [List.getElem?_singleton] at hu
        split at hu
        · cases hu
          cases hru
        · cases hu
    exact h i j s s' r (hold i s hr hs) (hold j s' hr' hs') hr hr'
  | advance i =>
    simp only [lockStep]
    split
    · exact h
    · rename_i s hs
      split
      · exact h
      · rename_i request plan hplan
        split
        · split
          · exact h
          · exact h.set hs fun r hr => Or.inl hr
        · rename_i hfree
          refine h.set hs fun r hr => ?_
          rcases List.mem_cons.mp hr with rfl | hr
          · exact Or.inr hfree
          · exact Or.inl hr
  | finish i =>
    simp only [lockStep]
    rcases hi : t[i]? with _ | s
    · rw [List.set_eq_of_length_le (List.getElem?_eq_none_iff.mp hi)]
      exact h
    · exact h.set hi fun r hr => absurd hr List.not_mem_nil

end

/-! ### The discipline -/

section
variable {Row : Type*} {root : Row → Row} {t : List (LockSession Row)} {i j k : ℕ}
  {plan : List (LockRequest Row)} {s : LockSession Row}

/-- **The discipline of a plan.**  It never waits, or it is about one row only, or it first waits
    for the row that is the root of all its rows. -/
def RootFirst (root : Row → Row) (plan : List (LockRequest Row)) : Prop :=
  (∀ q ∈ plan, q.waits = false) ∨
  (∃ r, ∀ q ∈ plan, q = .wait r) ∨
  ∃ r rest, plan = .wait r :: rest ∧ ∀ q ∈ plan, root q.row = r

/-- What the discipline says of a session that has made some of its requests. -/
inductive Orderly (root : Row → Row) (s : LockSession Row) : Prop where
  /-- It waits for nothing any more. -/
  | free (h : ∀ q ∈ s.plan, q.waits = false)
  /-- It is about one row. -/
  | single (r : Row) (hplan : ∀ q ∈ s.plan, q = .wait r) (hheld : ∀ h ∈ s.held, h = r)
  /-- It has nothing yet. -/
  | fresh (hheld : s.held = []) (r : Row) (rest : List (LockRequest Row))
      (hplan : s.plan = .wait r :: rest) (hroot : ∀ q ∈ s.plan, root q.row = r)
  /-- It has the root of all its rows. -/
  | rooted (r : Row) (hr : r ∈ s.held) (hplan : ∀ q ∈ s.plan, root q.row = r)
      (hheld : ∀ h ∈ s.held, root h = r)

theorem RootFirst.orderly (h : RootFirst root plan) :
    Orderly root { held := [], plan := plan } := by
  rcases h with h | ⟨r, h⟩ | ⟨r, rest, hplan, h⟩
  · exact .free h
  · exact .single r h fun _ hh => absurd hh List.not_mem_nil
  · exact .fresh rfl r rest hplan h

/-- The next request is passed over. -/
theorem Orderly.pass {q : LockRequest Row} {rest : List (LockRequest Row)} (h : Orderly root s)
    (hplan : s.plan = q :: rest) (hq : q.waits = false) : Orderly root { s with plan := rest } := by
  have hmem : ∀ q' ∈ rest, q' ∈ s.plan := fun q' hq' => hplan ▸ List.mem_cons_of_mem q hq'
  cases h with
  | free h => exact .free fun q' hq' => h q' (hmem q' hq')
  | single r h hheld => exact .single r (fun q' hq' => h q' (hmem q' hq')) hheld
  | fresh hheld r rest' hplan' h =>
    -- the first request of a fresh session is one that waits
    obtain ⟨rfl, -⟩ := List.cons.inj (hplan.symm.trans hplan')
    cases hq
  | rooted r hr h hheld => exact .rooted r hr (fun q' hq' => h q' (hmem q' hq')) hheld

/-- The next request is granted. -/
theorem Orderly.grant {q : LockRequest Row} {rest : List (LockRequest Row)} (h : Orderly root s)
    (hplan : s.plan = q :: rest) :
    Orderly root { held := q.row :: s.held, plan := rest } := by
  have hmem : ∀ q' ∈ rest, q' ∈ s.plan := fun q' hq' => hplan ▸ List.mem_cons_of_mem q hq'
  have hq : q ∈ s.plan := hplan ▸ List.mem_cons_self
  cases h with
  | free h => exact .free fun q' hq' => h q' (hmem q' hq')
  | single r h hheld =>
    refine .single r (fun q' hq' => h q' (hmem q' hq')) fun h' hh' => ?_
    rcases List.mem_cons.mp hh' with rfl | hh'
    · rw [h q hq]
      rfl
    · exact hheld h' hh'
  | fresh hheld r rest' hplan' h =>
    obtain ⟨rfl, rfl⟩ := List.cons.inj (hplan.symm.trans hplan')
    refine .rooted r List.mem_cons_self (fun q' hq' => h q' (hmem q' hq')) fun h' hh' => ?_
    rw [hheld] at hh'
    obtain rfl := List.mem_singleton.mp hh'
    exact h _ hq
  | rooted r hr h hheld =>
    refine .rooted r (List.mem_cons_of_mem _ hr) (fun q' hq' => h q' (hmem q' hq')) fun h' hh' => ?_
    rcases List.mem_cons.mp hh' with rfl | hh'
    · exact h q hq
    · exact hheld h' hh'

end

/-! ### No cycles -/

section
variable {Row : Type*} [DecidableEq Row] {root : Row → Row} {t : List (LockSession Row)}
  {i j k : ℕ}

/-- Every session is orderly. -/
def AllOrderly (root : Row → Row) (t : List (LockSession Row)) : Prop :=
  ∀ (i : ℕ) (s : LockSession Row), t[i]? = some s → Orderly root s

omit [DecidableEq Row] in
theorem AllOrderly.set {s : LockSession Row} (h : AllOrderly root t) (hs : Orderly root s) :
    AllOrderly root (t.set i s) := by
  intro j u hu
  rw [List.getElem?_set] at hu
  split at hu
  · split at hu
    · cases hu
      exact hs
    · cases hu
  · exact h j u hu

/-- The step lemma: transactions that follow the discipline stay orderly. -/
theorem allOrderly_lockStep {plans : Set (List (LockRequest Row))}
    (hplans : ∀ plan ∈ plans, RootFirst root plan) (h : AllOrderly root t) (a : LockAction Row)
    (ha : StartsWith plans t a) : AllOrderly root (lockStep t a) := by
  cases a with
  | start plan =>
    intro j u hu
    simp only [lockStep, List.getElem?_append] at hu
    split at hu
    · exact h j u hu
    · rw [List.getElem?_singleton] at hu
      split at hu
      · cases hu
        exact (hplans plan ha).orderly
      · cases hu
  | advance i =>
    simp only [lockStep]
    split
    · exact h
    · rename_i s hs
      split
      · exact h
      · rename_i request plan hplan
        split
        · split
          · exact h
          · rename_i hwaits
            exact h.set ((h i s hs).pass hplan (by simpa using hwaits))
        · exact h.set ((h i s hs).grant hplan)
  | finish i => exact h.set (.free fun _ hq => absurd hq List.not_mem_nil)

omit [DecidableEq Row] in
/-- **The cycle lemma.**  A session that has a row does not wait for one that waits too. -/
theorem AllOrderly.not_chain (h : AllOrderly root t) (hx : Exclusive t) {l : ℕ}
    (hij : WaitsFor t i j) (hjk : WaitsFor t j k) (hkl : WaitsFor t k l) : False := by
  obtain ⟨-, sj, r₁, -, hj, -, -, hr₁⟩ := hij
  obtain ⟨sj', sk, r₂, hj', hk, hne, hhead, hr₂⟩ := hjk
  obtain ⟨sk', sl, r₃, hk', hl, hne', hhead', hr₃⟩ := hkl
  obtain rfl := Option.some.inj (hj.symm.trans hj')
  obtain rfl := Option.some.inj (hk.symm.trans hk')
  have hmem : .wait r₂ ∈ sj.plan := List.mem_of_mem_head? hhead
  have hmem' : .wait r₃ ∈ sk.plan := List.mem_of_mem_head? hhead'
  -- `j` has a row and waits, so it has the root of the row it waits for
  cases h j sj hj with
  | free hfree => cases hfree _ hmem
  | single r hplan hheld =>
    -- about one row only: it would wait for the row it has
    obtain rfl := LockRequest.wait.inj (hplan _ hmem)
    obtain rfl := hheld _ hr₁
    exact hne (hx j k sj sk _ hj hk hr₁ hr₂)
  | fresh hheld _ _ _ _ =>
    rw [hheld] at hr₁
    cases hr₁
  | rooted r hr hplan hheld =>
    -- and so has `k`
    cases h k sk hk with
    | free hfree => cases hfree _ hmem'
    | single r' hplan' hheld' =>
      obtain rfl := LockRequest.wait.inj (hplan' _ hmem')
      obtain rfl := hheld' _ hr₂
      exact hne' (hx k l sk sl _ hk hl hr₂ hr₃)
    | fresh hheld' _ _ _ _ =>
      rw [hheld'] at hr₂
      cases hr₂
    | rooted r' hr' hplan' hheld' =>
      have hroot : r = r' := (hplan _ hmem).symm.trans (hheld' _ hr₂)
      exact hne (hx j k sj sk r hj hk hr (hroot ▸ hr'))

omit [DecidableEq Row] in
theorem AllOrderly.not_deadlocked (h : AllOrderly root t) (hx : Exclusive t) : ¬Deadlocked t := by
  rintro ⟨i, hcycle⟩
  -- three edges of the cycle, one after the other
  obtain ⟨j, hij, hji⟩ := Relation.TransGen.head'_iff.mp hcycle
  obtain ⟨k, hjk, hkj⟩ := Relation.TransGen.head'_iff.mp (Relation.TransGen.tail' hji hij)
  obtain ⟨l, hkl, -⟩ := Relation.TransGen.head'_iff.mp (Relation.TransGen.tail' hkj hjk)
  exact h.not_chain hx hij hjk hkl

/-- **The run rule.**  If every plan follows the discipline, no reachable state has a cycle of
    sessions that wait for each other. -/
theorem Reach.not_deadlocked {plans : Set (List (LockRequest Row))}
    (hplans : ∀ plan ∈ plans, RootFirst root plan)
    (h : Reach lockStep (StartsWith plans) [] t) : ¬Deadlocked t := by
  have hnil : AllOrderly root ([] : List (LockSession Row)) ∧
      Exclusive ([] : List (LockSession Row)) := by
    constructor
    · intro i s hi
      cases hi
    · intro i j s s' r hi
      cases hi
  obtain ⟨horderly, hx⟩ := h.invariant (I := fun t => AllOrderly root t ∧ Exclusive t) hnil
    fun u a hu ha => ⟨allOrderly_lockStep hplans hu.1 a ha, exclusive_lockStep hu.2 a⟩
  exact horderly.not_deadlocked hx

end

end ResearchWorkbench
