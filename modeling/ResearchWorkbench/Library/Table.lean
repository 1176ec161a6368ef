import Mathlib.Data.List.Nodup

namespace ResearchWorkbench

/-!
# Tables as lists of rows

A table is the list of its rows in the order they were inserted, and a row's id is its
position, so a fresh id is the length of the list.

* `updateWhere`, `idsWhere`, `findRow` — `UPDATE … WHERE`, `SELECT id … WHERE` and
  `SELECT … LIMIT 1`;
* `countP_le_of_rows` — `SELECT COUNT(*) … WHERE` before and after a change;
* `TableStep R N t t'` — what a transaction may do to a table: every old row is still there and
  changed as `R` allows, and every row added satisfies `N`;
* `TableStep.cases` — a row of the new table is a changed old row or an added one.
-/

variable {α : Type*} {p : ℕ → α → Bool} {f : α → α} {t t' t'' : List α} {i : ℕ} {a : α}

/-! ### Queries and updates -/

/-- `UPDATE … WHERE p`: apply `f` to the rows that satisfy `p`. -/
def updateWhere (p : ℕ → α → Bool) (f : α → α) (t : List α) : List α :=
  t.mapIdx fun i a => if p i a then f a else a

@[simp] theorem length_updateWhere : (updateWhere p f t).length = t.length := by
  simp [updateWhere]

@[simp] theorem getElem?_updateWhere :
    (updateWhere p f t)[i]? = t[i]?.map fun a => if p i a then f a else a := by
  simp [updateWhere]

/-- A row after an update. -/
theorem mem_updateWhere {b : α} (h : b ∈ updateWhere p f t) :
    ∃ i a, t[i]? = some a ∧ b = if p i a then f a else a := by
  obtain ⟨i, hi⟩ := List.mem_iff_getElem?.mp h
  rw [getElem?_updateWhere, Option.map_eq_some_iff] at hi
  obtain ⟨a, ha, rfl⟩ := hi
  exact ⟨i, a, ha, rfl⟩

/-- A row that an update leaves alone, wherever it is. -/
theorem mem_updateWhere_of_not (ha : a ∈ t) (hp : ∀ i, p i a = false) : a ∈ updateWhere p f t := by
  obtain ⟨i, hi⟩ := List.mem_iff_getElem?.mp ha
  refine List.mem_of_getElem? (i := i) ?_
  rw [getElem?_updateWhere, hi, Option.map_some, hp i]
  rfl

/-- An update that does not matter to a selection whose rows it does not touch. -/
theorem filter_updateWhere_same {q : α → Bool}
    (h : ∀ (i : ℕ) (a : α), t[i]? = some a → p i a → q (f a) = false ∧ q a = false) :
    (updateWhere p f t).filter q = t.filter q := by
  induction t generalizing p with
  | nil => rfl
  | cons a t ih =>
    have htail : (updateWhere (fun i => p (i + 1)) f t).filter q = t.filter q :=
      ih fun i b hb => h (i + 1) b hb
    have hhead := h 0 a rfl
    simp only [updateWhere, List.mapIdx_cons, List.filter_cons] at htail ⊢
    rw [htail]
    by_cases hp : p 0 a
    · simp [hp, hhead hp]
    · simp [hp]

/-- `SELECT id … WHERE p`, in the order of the table. -/
def idsWhere (p : ℕ → α → Bool) (t : List α) : List ℕ :=
  (t.zipIdx.filter fun (a, i) => p i a).map (·.2)

theorem mem_idsWhere : i ∈ idsWhere p t ↔ ∃ a, t[i]? = some a ∧ p i a := by
  simp only [idsWhere, List.mem_map, List.mem_filter, List.mem_zipIdx_iff_getElem?, Prod.exists]
  constructor
  · rintro ⟨a, j, ⟨ha, hp⟩, rfl⟩
    exact ⟨a, ha, hp⟩
  · rintro ⟨a, ha, hp⟩
    exact ⟨a, i, ⟨ha, hp⟩, rfl⟩

theorem nodup_idsWhere : (idsWhere p t).Nodup := by
  have h : (t.zipIdx.map (·.2)).Nodup := by
    rw [List.zipIdx_map_snd]
    exact List.nodup_range'
  exact h.sublist (List.filter_sublist.map _)

/-- Updating the rows with the selected ids is updating the selected rows. -/
theorem updateWhere_idsWhere :
    updateWhere (fun i _ => i ∈ idsWhere p t) f t = updateWhere p f t := by
  refine List.ext_getElem? fun i => ?_
  simp only [getElem?_updateWhere, mem_idsWhere]
  cases h : t[i]? with
  | none => rfl
  | some a => simp

/-- The first row that satisfies `p`, with its id. -/
def findRow (p : α → Bool) (t : List α) : Option (ℕ × α) :=
  (t.zipIdx.find? fun (a, _) => p a).map fun (a, i) => (i, a)

theorem findRow_eq_some {p : α → Bool} (h : findRow p t = some (i, a)) :
    t[i]? = some a ∧ p a := by
  simp only [findRow, Option.map_eq_some_iff, Prod.mk.injEq, Prod.exists] at h
  obtain ⟨b, j, hf, rfl, rfl⟩ := h
  have hp := List.find?_some hf
  exact ⟨List.mem_zipIdx_iff_getElem?.mp (List.mem_of_find?_eq_some hf), hp⟩

theorem findRow_eq_none {p : α → Bool} : findRow p t = none ↔ ∀ a ∈ t, ¬ p a := by
  simp only [findRow, Option.map_eq_none_iff, List.find?_eq_none, Prod.forall]
  constructor
  · intro h a ha
    obtain ⟨i, hi⟩ := List.mem_iff_getElem?.mp ha
    exact h a i (List.mem_zipIdx_iff_getElem?.mpr hi)
  · intro h a i ha
    exact h a (List.mem_iff_getElem?.mpr ⟨i, List.mem_zipIdx_iff_getElem?.mp ha⟩)

theorem findRow_eq_some_iff {p : α → Bool} : findRow p t = some (i, a) ↔
    t[i]? = some a ∧ p a ∧ ∀ j b, j < i → t[j]? = some b → p b = false := by
  rw [findRow, Option.map_eq_some_iff]
  constructor
  · rintro ⟨⟨b, j⟩, hfind, heq⟩
    rw [Prod.mk.injEq] at heq
    rcases heq with ⟨rfl, rfl⟩
    rcases List.find?_eq_some_iff_getElem.mp hfind with ⟨hp, k, hk, hget, hbefore⟩
    rw [List.getElem_zipIdx, Prod.mk.injEq, Nat.zero_add] at hget
    rcases hget with ⟨hget, rfl⟩
    rw [List.length_zipIdx] at hk
    refine ⟨List.getElem?_eq_some_iff.mpr ⟨hk, hget⟩, hp, ?_⟩
    intro j c hj hc
    rcases List.getElem?_eq_some_iff.mp hc with ⟨_, rfl⟩
    simpa using hbefore j hj
  · rintro ⟨hget, hp, hbefore⟩
    rcases List.getElem?_eq_some_iff.mp hget with ⟨hi, hget⟩
    refine ⟨(a, i), List.find?_eq_some_iff_getElem.mpr ⟨hp, i, ?_, ?_, ?_⟩, rfl⟩
    · rwa [List.length_zipIdx]
    · rw [List.getElem_zipIdx, hget, Nat.zero_add]
    · intro j hj
      have hlt : j < t.length := Nat.lt_trans hj hi
      simp [hbefore j t[j] hj (List.getElem?_eq_getElem hlt)]

/-- A row that is added is found where no row was. -/
theorem findRow_concat {p : α → Bool} (h : findRow p t = none) (ha : p a) :
    findRow p (t ++ [a]) = some (t.length, a) := by
  simp only [findRow, Option.map_eq_none_iff] at h
  simp [findRow, List.zipIdx_append, List.find?_append, h, ha]

theorem getElem?_modify_eq (h : t[i]? = some a) : (t.modify i f)[i]? = some (f a) := by
  simp [h]

theorem getElem?_modify_ne {j : ℕ} (h : i ≠ j) : (t.modify i f)[j]? = t[j]? := by
  simp [h]

/-- A row that is updated is found where it was. -/
theorem findRow_modify {p : α → Bool} (h : findRow p t = some (i, a)) (hp : p (f a) = true) :
    findRow p (t.modify i f) = some (i, f a) := by
  rw [findRow_eq_some_iff] at h ⊢
  rcases h with ⟨hget, _, hbefore⟩
  refine ⟨by simp [hget], hp, ?_⟩
  intro j b hj hb
  rw [getElem?_modify_ne (Nat.ne_of_gt hj)] at hb
  exact hbefore j b hj hb

/-- The rows of a table after one of them was changed. -/
theorem getElem?_modify_cases {j : ℕ} {b : α} (h : (t.modify i f)[j]? = some b) :
    ∃ a, t[j]? = some a ∧ (i = j ∧ b = f a ∨ i ≠ j ∧ b = a) := by
  by_cases hij : i = j
  · subst hij
    cases ha : t[i]? with
    | none => simp [ha] at h
    | some a =>
      rw [getElem?_modify_eq ha] at h
      exact ⟨a, rfl, .inl ⟨rfl, (Option.some.inj h).symm⟩⟩
  · rw [getElem?_modify_ne hij] at h
    exact ⟨b, h, .inr ⟨hij, rfl⟩⟩

/-- An update of rows that keeps their keys keeps all keys. -/
theorem map_updateWhere_same {β : Type*} {key : α → β} (h : ∀ a, key (f a) = key a) :
    (updateWhere p f t).map key = t.map key := by
  refine List.ext_getElem? fun j => ?_
  rw [List.getElem?_map, List.getElem?_map, getElem?_updateWhere]
  cases t[j]? with
  | none => rfl
  | some a => by_cases hp : p j a <;> simp [hp, h]

/-- An update of a row that keeps its key keeps all keys. -/
theorem map_modify_same {β : Type*} {key : α → β} (h : ∀ a, key (f a) = key a) :
    (t.modify i f).map key = t.map key := by
  refine List.ext_getElem? fun j => ?_
  rw [List.getElem?_map, List.getElem?_map, List.getElem?_modify]
  cases t[j]? with
  | none => rfl
  | some a => by_cases hij : i = j <;> simp [hij, h]

/-- The rows of a table after one of them was replaced. -/
theorem getElem?_set_cases {j : ℕ} {b : α} (h : (t.set i a)[j]? = some b) :
    i = j ∧ b = a ∨ i ≠ j ∧ t[j]? = some b := by
  rw [List.getElem?_set] at h
  split at h
  · split at h
    · exact .inl ⟨‹_›, (Option.some.inj h).symm⟩
    · cases h
  · exact .inr ⟨‹_›, h⟩

/-- The rows of a table after one was added. -/
theorem getElem?_concat_cases {b : α} (h : (t ++ [a])[i]? = some b) :
    t[i]? = some b ∨ i = t.length ∧ b = a := by
  rw [List.getElem?_append] at h
  split at h
  · exact .inl h
  · rw [List.getElem?_singleton] at h
    split at h
    · exact .inr ⟨by omega, (Option.some.inj h).symm⟩
    · cases h

theorem getElem?_concat_length (t : List α) (a : α) : (t ++ [a])[t.length]? = some a := by
  simp

theorem getElem?_append_of_some {s : List α} (h : t[i]? = some a) : (t ++ s)[i]? = some a := by
  rw [List.getElem?_append_left (List.getElem?_eq_some_iff.mp h).1]
  exact h

theorem nodup_concat (h : t.Nodup) (ha : ∀ b ∈ t, b ≠ a) : (t ++ [a]).Nodup := by
  refine List.nodup_append.mpr ⟨h, List.pairwise_singleton _ _, ?_⟩
  rintro b hb c hc rfl
  exact ha b hb (List.mem_singleton.mp hc)

/-- The rows with the key of a row, where keys are unique. -/
theorem filter_key_eq_singleton {β : Type*} [DecidableEq β] {key : α → β}
    (h : (t.map key).Nodup) (ha : a ∈ t) : t.filter (key · = key a) = [a] := by
  induction t with
  | nil => cases ha
  | cons b t ih =>
    rw [List.map_cons, List.nodup_cons] at h
    obtain ⟨hb, h⟩ := h
    obtain rfl | ha := List.mem_cons.mp ha
    · rw [List.filter_cons_of_pos (by simp), List.filter_eq_nil_iff.mpr fun c hc => ?_]
      simp only [decide_eq_true_eq]
      exact fun hkey => hb (hkey ▸ List.mem_map_of_mem hc)
    · have hne : key b ≠ key a := fun hkey => hb (hkey ▸ List.mem_map_of_mem ha)
      rw [List.filter_cons_of_neg (by simpa using hne)]
      exact ih h ha

/-! ### Counting rows -/

theorem countP_eq_countP_range (q : α → Bool) {n : ℕ} (hn : t.length ≤ n) :
    t.countP q = (List.range n).countP fun i => t[i]?.any q := by
  induction t generalizing n with
  | nil => simp
  | cons a t ih =>
    obtain ⟨m, rfl⟩ := Nat.exists_eq_add_of_le' (Nat.lt_of_lt_of_le (Nat.succ_pos _) hn)
    simp [List.range_succ_eq_map, List.countP_cons, List.countP_map, Function.comp_def,
      ih (Nat.le_of_succ_le_succ hn)]

/-- Fewer rows are counted if each of them was counted before, under its id. -/
theorem countP_le_of_rows {q q' : α → Bool}
    (h : ∀ (i : ℕ) (b : α), t'[i]? = some b → q' b → ∃ a, t[i]? = some a ∧ q a) :
    t'.countP q' ≤ t.countP q := by
  rw [countP_eq_countP_range q' (Nat.le_add_left _ t.length),
    countP_eq_countP_range q (Nat.le_add_right _ t'.length)]
  refine List.countP_mono_left fun i _ hi => ?_
  obtain ⟨b, hb, hq⟩ := (Option.any_eq_true _ _).mp hi
  obtain ⟨a, ha, hq⟩ := h i b hb hq
  exact (Option.any_eq_true _ _).mpr ⟨a, ha, hq⟩

/-- An update that does not matter to the count. -/
theorem countP_updateWhere_same {q : α → Bool}
    (h : ∀ (i : ℕ) (a : α), t[i]? = some a → p i a → q (f a) = q a) :
    (updateWhere p f t).countP q = t.countP q := by
  have hrow {i : ℕ} {a : α} (ha : t[i]? = some a) : q (if p i a then f a else a) = q a := by
    split
    · exact h i a ha ‹_›
    · rfl
  refine Nat.le_antisymm (countP_le_of_rows fun i b hb hq => ?_)
    (countP_le_of_rows fun i a ha hq => ?_)
  · rw [getElem?_updateWhere, Option.map_eq_some_iff] at hb
    obtain ⟨a, ha, rfl⟩ := hb
    exact ⟨a, ha, (hrow ha).symm.trans hq⟩
  · exact ⟨_, by rw [getElem?_updateWhere, ha]; rfl, (hrow ha).trans hq⟩

/-- The rows that an update changes were counted, and no longer are. -/
theorem countP_updateWhere_cleared {q : α → Bool}
    (h : ∀ (i : ℕ) (a : α), t[i]? = some a → p i a → q a ∧ q (f a) = false) :
    (updateWhere p f t).countP q + (idsWhere p t).length = t.countP q := by
  induction t generalizing p with
  | nil => rfl
  | cons a t ih =>
    have htail := @ih (fun i => p (i + 1)) fun i b hb => h (i + 1) b hb
    have hids : (idsWhere p (a :: t)).length =
        (idsWhere (fun i => p (i + 1)) t).length + if p 0 a then 1 else 0 := by
      simp only [idsWhere, List.zipIdx_cons', List.length_map, ← List.countP_eq_length_filter,
        List.countP_cons, List.countP_map]
      rfl
    have hhead := h 0 a rfl
    rw [hids, List.countP_cons]
    simp only [updateWhere, List.mapIdx_cons, List.countP_cons] at htail ⊢
    by_cases hp : p 0 a
    · simp only [hp, if_true, (hhead hp).1, (hhead hp).2]
      simp only [Bool.false_eq_true, if_false]
      omega
    · simp only [hp, Bool.false_eq_true, if_false]
      omega

/-- One row comes to be counted. -/
theorem countP_modify_of_not {q : α → Bool} (ha : t[i]? = some a) (hq : q a = false)
    (hf : q (f a)) : (t.modify i f).countP q = t.countP q + 1 := by
  induction t generalizing i with
  | nil => cases ha
  | cons b t ih =>
    cases i with
    | zero =>
      obtain rfl := Option.some.inj ha
      simp [hq, hf]
    | succ i =>
      rw [List.modify_succ_cons, List.countP_cons, List.countP_cons, ih ha]
      omega

/-- One row is changed, and counted as before. -/
theorem countP_modify_same {q : α → Bool} (h : ∀ a, t[i]? = some a → q (f a) = q a) :
    (t.modify i f).countP q = t.countP q := by
  induction t generalizing i with
  | nil => rw [List.modify_nil]
  | cons b t ih =>
    cases i with
    | zero => simp [List.countP_cons, h b rfl]
    | succ i => rw [List.modify_succ_cons, List.countP_cons, List.countP_cons, ih h]

/-! ### What a transaction may do to a table -/

/-- Old rows stay and change as `R` allows; added rows satisfy `N`. -/
structure TableStep (R : ℕ → α → α → Prop) (N : ℕ → α → Prop) (t t' : List α) : Prop where
  old : ∀ (i : ℕ) (a : α), t[i]? = some a → ∃ a', t'[i]? = some a' ∧ R i a a'
  new : ∀ (i : ℕ) (a' : α), t'[i]? = some a' → t.length ≤ i → N i a'

variable {R : ℕ → α → α → Prop} {N : ℕ → α → Prop}

theorem TableStep.length_le (h : TableStep R N t t') : t.length ≤ t'.length := by
  by_contra hlt
  obtain ⟨a', ha', _⟩ := h.old t'.length t[t'.length] (by simp)
  simp at ha'

/-- **Rows of the new table.**  Each is a changed old row or an added one. -/
theorem TableStep.cases (h : TableStep R N t t') {a' : α} (ha' : t'[i]? = some a') :
    (∃ a, t[i]? = some a ∧ R i a a') ∨ t.length ≤ i ∧ N i a' := by
  rcases Nat.lt_or_ge i t.length with hi | hi
  · obtain ⟨b, hb, hR⟩ := h.old i t[i] (List.getElem?_eq_getElem hi)
    obtain rfl : b = a' := by simpa [hb] using ha'
    exact .inl ⟨t[i], List.getElem?_eq_getElem hi, hR⟩
  · exact .inr ⟨hi, h.new i a' ha' hi⟩

theorem TableStep.refl (hR : ∀ i a, R i a a) (t : List α) : TableStep R N t t where
  old i a ha := ⟨a, ha, hR i a⟩
  new i a' ha' hi := by simp [List.getElem?_eq_none hi] at ha'

theorem TableStep.trans (hR : ∀ i a b c, R i a b → R i b c → R i a c)
    (hN : ∀ i a b, N i a → R i a b → N i b) (h₁ : TableStep R N t t') (h₂ : TableStep R N t' t'') :
    TableStep R N t t'' where
  old i a ha := by
    obtain ⟨b, hb, hab⟩ := h₁.old i a ha
    obtain ⟨c, hc, hbc⟩ := h₂.old i b hb
    exact ⟨c, hc, hR i a b c hab hbc⟩
  new i c hc hi := by
    obtain ⟨b, hb, hbc⟩ | ⟨_, hn⟩ := h₂.cases hc
    · exact hN i b c (h₁.new i b hb hi) hbc
    · exact hn

/-- The first row that satisfies `p` stays the first, when no change of a row decides otherwise. -/
theorem TableStep.findRow (h : TableStep R N t t') {p : α → Bool} (hp : ∀ i a b, R i a b → p b = p a)
    (hfind : ResearchWorkbench.findRow p t = some (i, a)) :
    ∃ a', ResearchWorkbench.findRow p t' = some (i, a') ∧ R i a a' := by
  rcases findRow_eq_some_iff.mp hfind with ⟨hrow, hholds, hbefore⟩
  obtain ⟨a', ha', hstep⟩ := h.old i a hrow
  refine ⟨a', findRow_eq_some_iff.mpr ⟨ha', (hp i a a' hstep).trans hholds, ?_⟩, hstep⟩
  intro j b' hj hb'
  rcases h.cases hb' with ⟨b, hb, hstep'⟩ | ⟨hnew, _⟩
  · rw [hp j b b' hstep', hbefore j b hj hb]
  · have hlt : i < t.length := (List.getElem?_eq_some_iff.mp hrow).1
    omega

theorem TableStep.mono {R' : ℕ → α → α → Prop} {N' : ℕ → α → Prop} (h : TableStep R N t t')
    (hR : ∀ i a b, t[i]? = some a → R i a b → R' i a b)
    (hN : ∀ i a, t.length ≤ i → N i a → N' i a) : TableStep R' N' t t' where
  old i a ha := by
    obtain ⟨b, hb, hab⟩ := h.old i a ha
    exact ⟨b, hb, hR i a b ha hab⟩
  new i a' ha' hi := hN i a' hi (h.new i a' ha' hi)

theorem TableStep.modify (hR : ∀ i a, R i a a) (ha : t[i]? = some a) (hf : R i a (f a)) :
    TableStep R N t (t.modify i f) where
  old j b hb := by
    by_cases hij : i = j
    · subst hij
      obtain rfl : a = b := by simpa [ha] using hb
      exact ⟨f a, getElem?_modify_eq ha, hf⟩
    · exact ⟨b, by rw [getElem?_modify_ne hij, hb], hR j b⟩
  new j a' ha' hj := by
    rw [List.getElem?_eq_none (by simpa using hj)] at ha'
    cases ha'

theorem TableStep.updateWhere (hR : ∀ i a, R i a a)
    (hf : ∀ i a, t[i]? = some a → p i a → R i a (f a)) :
    TableStep R N t (updateWhere p f t) where
  old i a ha := by
    refine ⟨if p i a then f a else a, by rw [getElem?_updateWhere, ha]; rfl, ?_⟩
    split
    · exact hf i a ha ‹_›
    · exact hR i a
  new i a' ha' hi := by simp [List.getElem?_eq_none hi] at ha'

/-- Rows are changed and then one is added. -/
theorem TableStep.append (h : TableStep R (fun _ _ => False) t t') {s : List α}
    (hs : ∀ i a, s[i]? = some a → N (t.length + i) a) : TableStep R N t (t' ++ s) where
  old i a ha := by
    obtain ⟨b, hb, hab⟩ := h.old i a ha
    exact ⟨b, getElem?_append_of_some hb, hab⟩
  new i a' ha' hi := by
    have hlen : t'.length = t.length := by
      have hle := h.length_le
      by_contra hne
      exact h.new t.length (t'.get ⟨t.length, by omega⟩) (by simp) (Nat.le_refl _)
    rw [List.getElem?_append_right (by omega), hlen] at ha'
    have := hs _ a' ha'
    rwa [Nat.add_sub_cancel' hi] at this

theorem TableStep.append_singleton (h : TableStep R (fun _ _ => False) t t')
    (ha : N t.length a) : TableStep R N t (t' ++ [a]) := by
  refine h.append fun i b hb => ?_
  obtain ⟨rfl, rfl⟩ : i = 0 ∧ a = b := by
    cases i with
    | zero => simpa using hb
    | succ i => simp at hb
  exact ha

end ResearchWorkbench
