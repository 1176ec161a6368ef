import ResearchWorkbench.Storage.CatalogSteps

namespace ResearchWorkbench

/-!
# Tracked cleanup never deletes a live object

* `CleanupSafe s a` — what the step `a` in the state `s` may do to rows and objects, as far as
  cleaners go;
* `CleanupOk` — what a cleaner knows of its candidates, and of the row it has locked;
* `stepCleanup_kept`, `stepCleanup_files`, `stepCleanup_deleted`, `stepCleanup_erased` — the steps
  of a cleaner;
* `TrackedInv` — the invariant, with one owner of every row lock;
* `tracked_cleanup_safe` — every step from every reachable state is safe.

A lease alone protects nothing: it may expire, or be taken over, at any time.  What protects a live
object is the row lock, which a cleaner holds from its check of the lease until the object is
deleted and the row says so.
-/

variable {hashing : Hashing} {free : ℕ → Bool} {objects objects' : List StorageObjectRow}
  {stores : Stores} {o o' : StorageObjectRow} {i owner : ℕ} {options : CleanupOptions}
  {phase : CleanupPhase} {a : CleanupAct} {s : StorageSys hashing} {a' : StorageAct}

/-! ### The property -/

/-- **Safe steps.** -/
structure CleanupSafe (s : StorageSys hashing) (a : StorageAct) : Prop where
  /-- A cleaner leaves alone every row that is `ACTIVE` or under `LEGAL_HOLD`, and its object. -/
  live : ∀ (i : ℕ) (b : CleanupAct), a = .cleanup i b → ∀ o ∈ s.objects,
    o.retentionStatus ∈ [.active, .legalHold] →
      o ∈ (s.step a).objects ∧ (s.step a).files o.target = s.files o.target
  /-- A row becomes `DELETED` by the process that has deleted its object: a cleaner that still has
      the row locked, or a discard. -/
  deleted : ∀ o' ∈ (s.step a).objects, o'.retentionStatus = .deleted →
    (∃ o ∈ s.objects, o.id = o'.id ∧ o.retentionStatus = .deleted) ∨
    (∃ (i : ℕ) (acknowledged : Bool) (options : CleanupOptions) (c : CleanupCandidate)
      (rest : List CleanupCandidate), a = .cleanup i (.finish acknowledged) ∧
        s.processes[i]? = some (.cleanup options (.deleted c rest)) ∧ o'.id = c.id ∧
        o'.target = c.target) ∨
    ∃ (i : ℕ) (reference : GeneratedArtifactReference), a = .discard i ∧
      s.processes[i]? = some (.discard reference .deleted) ∧ o'.id = reference.objectId ∧
      .object o'.location = reference.target
  /-- The step that brings a cleaner there has removed the object. -/
  erased : ∀ (i : ℕ) (options : CleanupOptions) (c : CleanupCandidate)
    (rest : List CleanupCandidate),
    (s.step a).processes[i]? = some (.cleanup options (.deleted c rest)) →
      s.processes[i]? = some (.cleanup options (.deleted c rest)) ∨
        (s.step a).files c.target = none
  /-- The step that brings a discard there has removed the object. -/
  discarded : ∀ (i : ℕ) (reference : GeneratedArtifactReference),
    (s.step a).processes[i]? = some (.discard reference .deleted) →
      s.processes[i]? = some (.discard reference .deleted) ∨
        (s.step a).files reference.target = none
  /-- A cleaner leaves alone what another one has claimed.  Only a claim may take over a row, and
      only when its lease is over and no other cleaner has it locked. -/
  foreign : ∀ (i : ℕ) (b : CleanupAct), a = .cleanup i b → ∀ o ∈ s.objects,
    ∀ owner, o.cleanupLeaseOwner = some owner → owner ≠ i →
      (s.step a).files o.target = s.files o.target ∧
      (o ∈ (s.step a).objects ∨ (∃ started chosen, b = .claim started chosen) ∧
        (∀ t ∈ o.cleanupLeaseExpiresAt, t ≤ s.now) ∧ s.isFree i o.id)

/-! ### A cleaner -/

/-- The candidates that a cleaner still knows. -/
def CleanupPhase.candidates : CleanupPhase → List CleanupCandidate
  | .ready => []
  | .working candidates | .interrupted candidates => candidates
  | .fenced c rest | .deleted c rest | .failing c rest => c :: rest

/-- The candidate whose row a cleaner has locked. -/
def CleanupPhase.locked : CleanupPhase → Option CleanupCandidate
  | .fenced c _ | .deleted c _ => some c
  | _ => none

/-- What the cleaner `i` knows: each candidate is a row with this object, and the row it has locked
    is its own, and waits for its deletion. -/
structure CleanupOk (objects : List StorageObjectRow) (i : ℕ) (phase : CleanupPhase) : Prop where
  candidates : ∀ c ∈ phase.candidates, ∃ o ∈ objects, o.id = c.id ∧ o.target = c.target
  locked : ∀ c, phase.locked = some c → ∃ o ∈ objects, o.isClaimed c.id i

theorem isClaimed_iff {id owner : ℕ} :
    o.isClaimed id owner ↔ o.id = id ∧ o.cleanupLeaseOwner = some owner ∧
      o.retentionStatus = .pendingDelete := by
  simp [StorageObjectRow.isClaimed, and_assoc]

theorem markDeleted_eq_some {id : ℕ} (h : markDeleted id owner objects = some objects') :
    objects' = updateObjects (·.isClaimed id owner) (fun o => { o with
      retentionStatus := .deleted, uploadStatus := .deleted, cleanupLeaseOwner := none,
      cleanupLeaseExpiresAt := none }) objects := by
  unfold markDeleted at h
  split at h
  · exact (Option.some.inj h).symm
  · cases h

/-- **The catalog after a step of a cleaner.** -/
theorem stepCleanup_catalog (hlocked : ∀ c, phase.locked = some c → free c.id) :
    CatalogStep free stores.objects (stepCleanup free stores owner options phase a).1.objects := by
  unfold stepCleanup
  split
  case h_1 =>
    split
    · rename_i hclaim
      refine .updated _ _ (fun o => ⟨rfl, rfl, rfl⟩) fun o _ h => ?_
      simp only [Bool.and_eq_true, decide_eq_true_eq] at h
      exact List.all_eq_true.mp hclaim.2.2 o.id h.1
    · exact .refl
  case h_6 =>
    split
    · rename_i hmark
      rw [markDeleted_eq_some hmark]
      refine .updated _ _ (fun o => ⟨rfl, rfl, rfl⟩) fun o _ h => ?_
      rw [(isClaimed_iff.mp h).1]
      exact hlocked _ rfl
    · exact .refl
  case h_7 | h_9 =>
    split
    · refine .updated _ _ (fun o => ⟨rfl, rfl, rfl⟩) fun o _ h => ?_
      rw [(isClaimed_iff.mp h).1]
      assumption
    · exact .refl
  all_goals
    repeat' split
    all_goals exact .refl

theorem mem_updateObjects_of_not {p : StorageObjectRow → Bool}
    {f : StorageObjectRow → StorageObjectRow} (ho : o ∈ objects) (hp : ¬ p o) :
    o ∈ updateObjects p f objects :=
  mem_updateObjects.mpr ⟨o, ho, if_neg hp⟩

/-- The row before an update that does not change the retention of a row. -/
theorem mem_updateObjects_retention {p : StorageObjectRow → Bool}
    {f : StorageObjectRow → StorageObjectRow} (h : o' ∈ updateObjects p f objects)
    (hid : ∀ o, (f o).id = o.id) (hretention : ∀ o, (f o).retentionStatus = o.retentionStatus) :
    ∃ o ∈ objects, o.id = o'.id ∧ o.retentionStatus = o'.retentionStatus := by
  obtain ⟨o, ho, rfl⟩ := mem_updateObjects.mp h
  refine ⟨o, ho, ?_⟩
  split
  · exact ⟨(hid o).symm, (hretention o).symm⟩
  · exact ⟨rfl, rfl⟩

/-- What a cleaner may change: its own claims, and, when it claims, rows without a lease. -/
theorem stepCleanup_kept (ho : o ∈ stores.objects) :
    o ∈ (stepCleanup free stores owner options phase a).1.objects ∨
      o.retentionStatus = .pendingDelete ∧ (o.cleanupLeaseOwner = some owner ∨
        (∃ started chosen, a = .claim started chosen) ∧
          (∀ t ∈ o.cleanupLeaseExpiresAt, t ≤ stores.now) ∧ free o.id) := by
  have hmark {id : ℕ} {f : StorageObjectRow → StorageObjectRow} :
      o ∈ updateObjects (·.isClaimed id owner) f stores.objects ∨
        o.retentionStatus = .pendingDelete ∧ o.cleanupLeaseOwner = some owner := by
    by_cases hclaimed : o.isClaimed id owner
    · obtain ⟨_, howner, hpending⟩ := isClaimed_iff.mp hclaimed
      exact .inr ⟨hpending, howner⟩
    · exact .inl (mem_updateObjects_of_not ho hclaimed)
  unfold stepCleanup
  split
  case h_1 started chosen =>
    split
    · rename_i hclaim
      obtain ⟨hstarted, _, hfree⟩ := hclaim
      simp only [claimDeletionCandidates]
      by_cases hp : decide (o.id ∈ chosen) && o.isDeletionCandidate options started
      · simp only [StorageObjectRow.isDeletionCandidate, Bool.and_eq_true,
          decide_eq_true_eq] at hp
        obtain ⟨hchosen, ⟨hpending, _⟩, hlease⟩ := hp
        refine .inr ⟨hpending, .inr ⟨⟨started, chosen, rfl⟩, fun t ht => ?_,
          List.all_eq_true.mp hfree o.id hchosen⟩⟩
        rw [Option.mem_def] at ht
        rw [ht] at hlease
        exact Nat.le_trans (of_decide_eq_true hlease) hstarted
      · exact .inl (mem_updateObjects_of_not ho hp)
    · exact .inl ho
  case h_6 =>
    split
    · rename_i h
      rw [markDeleted_eq_some h]
      exact hmark.imp_right fun ⟨hpending, howner⟩ => ⟨hpending, .inl howner⟩
    · exact .inl ho
  case h_7 | h_9 =>
    split
    · exact hmark.imp_right fun ⟨hpending, howner⟩ => ⟨hpending, .inl howner⟩
    · exact .inl ho
  all_goals
    repeat' split
    all_goals exact .inl ho

/-- A cleaner deletes only the object of the row it has locked. -/
theorem stepCleanup_files (target : StorageTarget) :
    (stepCleanup free stores owner options phase a).1.files target = stores.files target ∨
      ∃ c, phase.locked = some c ∧ c.target = target := by
  have hdelete (c : CleanupCandidate) : (stores.delete c.target).files target =
      stores.files target ∨ c.target = target := by
    by_cases h : c.target = target
    · exact .inr h
    · exact .inl (Function.update_of_ne (Ne.symm h) _ _)
  unfold stepCleanup
  split
  case h_3 c rest =>
    split
    · exact (hdelete c).imp_right fun h => ⟨c, rfl, h⟩
    · exact .inl rfl
  case h_4 c rest removed =>
    split
    · exact (hdelete c).imp_right fun h => ⟨c, rfl, h⟩
    · exact .inl rfl
  all_goals
    repeat' split
    all_goals exact .inl rfl

/-- A row becomes `DELETED` in the last step of `deleteClaimed`. -/
theorem stepCleanup_deleted
    (ho' : o' ∈ (stepCleanup free stores owner options phase a).1.objects)
    (hdeleted : o'.retentionStatus = .deleted) :
    (∃ o ∈ stores.objects, o.id = o'.id ∧ o.retentionStatus = .deleted) ∨
      ∃ c rest acknowledged, phase = .deleted c rest ∧ a = .finish acknowledged ∧ o'.id = c.id := by
  have hmark {id : ℕ} (h : o' ∈ markDeleteFailed id owner stores.objects) :
      ∃ o ∈ stores.objects, o.id = o'.id ∧ o.retentionStatus = .deleted := by
    rw [← hdeleted]
    exact mem_updateObjects_retention h (fun _ => rfl) fun _ => rfl
  unfold stepCleanup at ho'
  split at ho'
  case h_1 started chosen =>
    split at ho'
    · rw [← hdeleted]
      exact .inl (mem_updateObjects_retention ho' (fun _ => rfl) fun _ => rfl)
    · exact .inl ⟨o', ho', rfl, hdeleted⟩
  case h_6 c rest acknowledged =>
    split at ho'
    · rename_i h
      rw [markDeleted_eq_some h] at ho'
      obtain ⟨o, ho, rfl⟩ := mem_updateObjects.mp ho'
      by_cases hclaimed : o.isClaimed c.id owner
      · rw [if_pos hclaimed]
        exact .inr ⟨c, rest, acknowledged, rfl, rfl, (isClaimed_iff.mp hclaimed).1⟩
      · rw [if_neg hclaimed] at hdeleted ⊢
        exact .inl ⟨o, ho, rfl, hdeleted⟩
    · exact .inl ⟨o', ho', rfl, hdeleted⟩
  case h_7 | h_9 =>
    split at ho'
    · exact .inl (hmark ho')
    · exact .inl ⟨o', ho', rfl, hdeleted⟩
  all_goals
    repeat' split at ho'
    all_goals exact .inl ⟨o', ho', rfl, hdeleted⟩

/-- A cleaner that waits for the end of `deleteClaimed` has removed the object. -/
theorem stepCleanup_erased {c : CleanupCandidate} {rest : List CleanupCandidate}
    (h : (stepCleanup free stores owner options phase a).2 = .deleted c rest) :
    phase = .deleted c rest ∨
      (stepCleanup free stores owner options phase a).1.files c.target = none := by
  unfold stepCleanup at h ⊢
  split at h
  case h_3 =>
    split at h
    · cases h
      rw [if_pos ‹_›]
      exact .inr (Function.update_self _ _ _)
    · cases h
  case h_11 => exact .inl h
  all_goals
    repeat' split at h
    all_goals cases h

/-- Candidates are old ones, or rows that a claim has returned. -/
theorem stepCleanup_candidates {c : CleanupCandidate}
    (h : c ∈ (stepCleanup free stores owner options phase a).2.candidates) :
    c ∈ phase.candidates ∨ ∃ o ∈ stores.objects, o.candidate = c := by
  unfold stepCleanup at h
  split at h
  case h_1 =>
    split at h
    · obtain ⟨o, ho, hc⟩ := List.mem_map.mp h
      exact .inr ⟨o, (List.mem_filter.mp ho).1, hc⟩
    · exact .inl h
  case h_6 c' rest acknowledged =>
    split at h
    · cases acknowledged
      · exact .inl h
      · exact .inl (List.mem_cons_of_mem _ h)
    · exact .inl h
  case h_10 => exact absurd h List.not_mem_nil
  all_goals
    repeat' split at h
    all_goals first
      | exact .inl h
      | exact .inl (List.mem_cons_of_mem _ h)

/-- A cleaner that has a row locked had it locked before, or has just checked its claim; the catalog
    is as before. -/
theorem stepCleanup_locked {c : CleanupCandidate}
    (h : (stepCleanup free stores owner options phase a).2.locked = some c) :
    (stepCleanup free stores owner options phase a).1.objects = stores.objects ∧
      (phase.locked = some c ∨ free c.id ∧ ∃ o ∈ stores.objects, o.isClaimed c.id owner) := by
  unfold stepCleanup at h ⊢
  split at h
  case h_2 c' rest =>
    split at h
    · rename_i hfree
      split at h
      · rename_i hany
        obtain rfl := Option.some.inj h
        obtain ⟨o, ho, hfenced⟩ := List.any_eq_true.mp hany
        rw [StorageObjectRow.isFenced, Bool.and_eq_true] at hfenced
        rw [if_pos hfree, if_pos hany]
        exact ⟨rfl, .inr ⟨hfree, o, ho, hfenced.1⟩⟩
      · cases h
    · cases h
  case h_3 =>
    split at h
    · rw [if_pos ‹_›]
      exact ⟨rfl, .inl h⟩
    · cases h
  case h_6 acknowledged =>
    split at h
    · cases acknowledged <;> cases h
    · cases h
  case h_11 => exact ⟨rfl, .inl h⟩
  all_goals
    repeat' split at h
    all_goals cases h

theorem CatalogStep.exists_row {c : CleanupCandidate} (h : CatalogStep free objects objects')
    (hc : ∃ o ∈ objects, o.id = c.id ∧ o.target = c.target) :
    ∃ o ∈ objects', o.id = c.id ∧ o.target = c.target := by
  obtain ⟨o, ho, hid, htarget⟩ := hc
  obtain ⟨o', ho', hsame, _⟩ := h.row ho
  exact ⟨o', ho', hsame.id.trans hid, hsame.target.trans htarget⟩

theorem stepCleanup_ok (hlocked : ∀ c, phase.locked = some c → free c.id)
    (hok : CleanupOk stores.objects owner phase) :
    CleanupOk (stepCleanup free stores owner options phase a).1.objects owner
      (stepCleanup free stores owner options phase a).2 where
  candidates c hc := by
    refine (stepCleanup_catalog hlocked).exists_row ?_
    obtain hc | ⟨o, ho, rfl⟩ := stepCleanup_candidates hc
    · exact hok.candidates c hc
    · exact ⟨o, ho, rfl, rfl⟩
  locked c hc := by
    obtain ⟨hobjects, h | ⟨_, h⟩⟩ := stepCleanup_locked hc
    · rw [hobjects]
      exact hok.locked c h
    · rw [hobjects]
      exact h

/-! ### The invariant -/

/-- What a process knows of the catalog. -/
def StorageProcess.Ok (objects : List StorageObjectRow) (i : ℕ) :
    StorageProcess hashing → Prop
  | .cleanup _ phase => CleanupOk objects i phase
  | .discard reference phase => phase ≠ .started →
    ∃ o ∈ objects, o.id = reference.objectId ∧ .object o.location = reference.target
  | _ => True

/-- **The invariant.**  Rows are unique, a row is locked by one process at most, and the processes
    know what they should. -/
structure TrackedInv (s : StorageSys hashing) : Prop where
  catalog : CatalogOk s.objects
  locks : ∀ (i j : ℕ) (p q : StorageProcess hashing) (id : ℕ), s.processes[i]? = some p →
    s.processes[j]? = some q → p.rowLock = some id → q.rowLock = some id → i = j
  processes : ∀ (i : ℕ) (p : StorageProcess hashing), s.processes[i]? = some p → p.Ok s.objects i

theorem isFree_iff {id : ℕ} :
    s.isFree i id ↔ ∀ (j : ℕ) (q : StorageProcess hashing), s.processes[j]? = some q →
      q.rowLock = some id → j = i := by
  simp only [StorageSys.isFree, List.all_eq_true, List.mem_range, Bool.or_eq_true,
    decide_eq_true_eq]
  constructor
  · intro h j q hq hlock
    obtain h | h := h j (List.getElem?_eq_some_iff.mp hq).1
    · exact h
    · rw [hq, Option.bind_some] at h
      exact absurd hlock h
  · intro h j hj
    rw [List.getElem?_eq_getElem hj, Option.bind_some]
    by_cases hlock : (s.processes[j]).rowLock = some id
    · exact .inl (h j _ (List.getElem?_eq_getElem hj) hlock)
    · exact .inr hlock

theorem rowLock_cleanup :
    (StorageProcess.cleanup options phase : StorageProcess hashing).rowLock =
      phase.locked.map (·.id) := by
  cases phase <;> rfl

/-- What another process knows stays true. -/
theorem StorageProcess.Ok.other {j : ℕ} {q : StorageProcess hashing}
    (hq : s.processes[j]? = some q) (hok : q.Ok s.objects j) (hij : j ≠ i)
    (hstep : CatalogStep (s.isFree i) s.objects objects') : q.Ok objects' j := by
  cases q with
  | cleanup options phase =>
    refine ⟨fun c hc => hstep.exists_row (hok.candidates c hc), fun c hc => ?_⟩
    obtain ⟨o, ho, hclaimed⟩ := hok.locked c hc
    obtain ⟨o', ho', _, hsame⟩ := hstep.row ho
    have hbusy : s.isFree i o.id = false := by
      refine Bool.eq_false_iff.mpr fun hfree => hij ?_
      refine isFree_iff.mp hfree j _ hq ?_
      rw [(isClaimed_iff.mp hclaimed).1, rowLock_cleanup, hc]
      rfl
    rw [hsame hbusy] at ho'
    exact ⟨o, ho', hclaimed⟩
  | discard reference phase =>
    intro hphase
    obtain ⟨o, ho, hid, hlocation⟩ := hok hphase
    obtain ⟨o', ho', hsame, _⟩ := hstep.row ho
    exact ⟨o', ho', hsame.id.trans hid, by rw [hsame.location]; exact hlocation⟩
  | write | sweep | ended => trivial

/-- A process takes a step. -/
theorem TrackedInv.update (hI : TrackedInv s) {p p' : StorageProcess hashing}
    (hp : s.processes[i]? = some p) (hstep : CatalogStep (s.isFree i) s.objects stores.objects)
    (hlock : ∀ id, p'.rowLock = some id → p.rowLock = some id ∨ s.isFree i id)
    (hok : p'.Ok stores.objects i) : TrackedInv (s.update i stores p') where
  catalog := hstep.catalogOk hI.catalog
  locks j k q r id hq hr hqid hrid := by
    -- a lock of `p'` is one of `p`, or nobody has it
    have hother {l : ℕ} {t : StorageProcess hashing} (ht : s.processes[l]? = some t)
        (hlt : t.rowLock = some id) (h : p'.rowLock = some id) : l = i := by
      obtain h | h := hlock id h
      · exact hI.locks l i t p id ht hp hlt h
      · exact isFree_iff.mp h l t ht hlt
    obtain ⟨rfl, rfl⟩ | ⟨_, hq'⟩ := getElem?_set_cases hq
    · obtain ⟨rfl, rfl⟩ | ⟨_, hr'⟩ := getElem?_set_cases hr
      · rfl
      · exact (hother hr' hrid hqid).symm
    · obtain ⟨rfl, rfl⟩ | ⟨_, hr'⟩ := getElem?_set_cases hr
      · exact hother hq' hqid hrid
      · exact hI.locks j k q r id hq' hr' hqid hrid
  processes j q hq := by
    obtain ⟨rfl, rfl⟩ | ⟨hij, hq'⟩ := getElem?_set_cases hq
    · exact hok
    · exact (hI.processes j q hq').other hq' (Ne.symm hij) hstep

theorem TrackedInv.start (hI : TrackedInv s) {p : StorageProcess hashing}
    (hfirst : p.IsFirst s.now) : TrackedInv { s with processes := s.processes ++ [p] } := by
  have hlock : p.rowLock = none := by
    cases p with
    | write w phase =>
      obtain rfl : phase = StorageSys.firstPhase w.service := hfirst
      unfold StorageSys.firstPhase
      split <;> rfl
    | cleanup options phase =>
      obtain rfl : phase = .ready := hfirst
      rfl
    | discard | sweep | ended => rfl
  refine ⟨hI.catalog, fun j k q r id hq hr hqid hrid => ?_, fun j q hq => ?_⟩
  · obtain hq | ⟨rfl, rfl⟩ := getElem?_concat_cases hq
    · obtain hr | ⟨rfl, rfl⟩ := getElem?_concat_cases hr
      · exact hI.locks j k q r id hq hr hqid hrid
      · rw [hlock] at hrid
        cases hrid
    · rw [hlock] at hqid
      cases hqid
  · obtain hq | ⟨rfl, rfl⟩ := getElem?_concat_cases hq
    · exact hI.processes j q hq
    · cases q with
      | cleanup options phase =>
        obtain rfl : phase = .ready := hfirst
        exact ⟨fun c hc => absurd hc List.not_mem_nil, nofun⟩
      | discard reference phase => exact fun h => absurd hfirst h
      | write | sweep | ended => trivial

theorem TrackedInv.transact (hI : TrackedInv s)
    (hstep : CatalogStep (s.isFree s.processes.length) s.objects stores.objects) :
    @TrackedInv hashing { stores with processes := s.processes } where
  catalog := hstep.catalogOk hI.catalog
  locks := hI.locks
  processes j q hq := by
    have hq' : s.processes[j]? = some q := hq
    exact (hI.processes j q hq').other hq' (Nat.ne_of_lt (List.getElem?_eq_some_iff.mp hq').1) hstep

theorem stepSweep_objects {options : SweepOptions} {phase : SweepPhase} {a : SweepAct} :
    (stepSweep stores options phase a).1.objects = stores.objects := by
  unfold stepSweep
  repeat' split
  all_goals rfl

theorem stepWrite_checking {w : ObjectWrite hashing} {phase : WritePhase} {a : WriteAct}
    (h : (stepWrite i free stores w phase a).2 = some .checking) :
    phase = .checking ∨ free w.row.id := by
  have hafter {created : Bool} {bytes : Bytes} : w.afterRead created bytes ≠ .checking := by
    unfold ObjectWrite.afterRead
    split <;> simp
  unfold stepWrite at h
  split at h
  case h_1 =>
    split at h
    · exact .inr ‹_›
    · cases h
  case h_3 =>
    unfold ObjectWrite.put at h
    repeat' split at h
    all_goals cases h
  case h_5 | h_8 =>
    split at h
    · exact absurd (Option.some.inj h) hafter
    · cases h
  case h_9 =>
    split at h
    · unfold ObjectWrite.commit at h
      repeat' split at h
      all_goals cases h
    · cases h
  case h_10 =>
    split at h
    · simp only [ObjectWrite.failCommit] at h
      repeat' split at h
      all_goals cases h
    · cases h
  case h_14 => exact .inl (Option.some.inj h)
  all_goals
    repeat' split at h
    all_goals cases h

theorem stepDiscard_ok {reference : GeneratedArtifactReference} {phase phase' : DiscardPhase}
    (hok : @StorageProcess.Ok hashing stores.objects i (.discard reference phase))
    (h : (stepDiscard free stores reference phase).2 = some phase') :
    @StorageProcess.Ok hashing (stepDiscard free stores reference phase).1.objects i
      (.discard reference phase') := by
  intro hphase
  cases phase with
  | started =>
    simp only [stepDiscard] at h ⊢
    split at h
    · rename_i hfree
      rw [if_pos hfree]
      split at h
      · rename_i hreserve
        obtain ⟨⟨row, hrow, hlocation, _⟩, rfl⟩ := reserveDiscard_eq_ok hreserve
        obtain ⟨hmem, hid⟩ := findObject_eq_some hrow
        refine ⟨_, mem_updateObjects.mpr ⟨row, hmem, rfl⟩, ?_⟩
        rw [if_pos (by simpa using hid)]
        exact ⟨hid, congrArg StorageTarget.object hlocation⟩
      · cases h
    · cases h
      exact absurd rfl hphase
  | reserved => exact hok (by intro h; cases h)
  | deleted =>
    simp only [stepDiscard] at h ⊢
    split at h
    · cases h
    · rename_i hfree
      rw [if_neg hfree]
      exact hok (by intro h; cases h)

/-- The row that a cleaner has locked is free for it. -/
theorem TrackedInv.isFree_locked (hI : TrackedInv s)
    (hp : s.processes[i]? = some (.cleanup options phase)) :
    ∀ c, phase.locked = some c → s.isFree i c.id := fun c hc =>
  isFree_iff.mpr fun j q hq hlock =>
    hI.locks j i q _ c.id hq hp hlock (by rw [rowLock_cleanup, hc]; rfl)

/-- **The invariant is kept.** -/
theorem step_trackedInv (hI : TrackedInv s) (a : StorageAct) : TrackedInv (s.step a) := by
  cases storageStep s a with
  | same h =>
    rw [h]
    exact hI
  | ticked ms h =>
    rw [h]
    exact ⟨hI.catalog, hI.locks, hI.processes⟩
  | started p hfirst h =>
    rw [h]
    exact hI.start hfirst
  | write i b w phase ha hp h =>
    rw [h]
    refine hI.update hp (stepWrite_catalog phase b) (fun id hid => ?_) ?_
    · cases hphase : (stepWrite i (s.isFree i) s.toStores w phase b).2 with
      | none =>
        rw [hphase] at hid
        cases hid
      | some phase' =>
        rw [hphase] at hid
        cases phase' with
        | checking =>
          refine (stepWrite_checking hphase).imp ?_ fun hfree => ?_
          · rintro rfl
            exact hid
          · rw [← Option.some.inj hid]
            exact hfree
        | _ => cases hid
    · cases (stepWrite i (s.isFree i) s.toStores w phase b).2 <;> trivial
  | discard i reference phase ha hp h =>
    rw [h]
    cases hphase : (stepDiscard (s.isFree i) s.toStores reference phase).2 with
    | none => exact hI.update hp (stepDiscard_catalog phase) nofun trivial
    | some phase' =>
      exact hI.update hp (stepDiscard_catalog phase) nofun
        (stepDiscard_ok (hI.processes i _ hp) hphase)
  | cleanup i b options phase ha hp h =>
    rw [h]
    have hlocked := hI.isFree_locked hp
    refine hI.update hp (stepCleanup_catalog hlocked) (fun id hid => ?_)
      (stepCleanup_ok hlocked (hI.processes i _ hp))
    rw [rowLock_cleanup, Option.map_eq_some_iff] at hid ⊢
    obtain ⟨c, hc, rfl⟩ := hid
    exact (stepCleanup_locked hc).2.imp (fun h => ⟨c, h, rfl⟩) And.left
  | sweep i b options phase ha hp h =>
    rw [h]
    refine hI.update hp ?_ nofun trivial
    rw [stepSweep_objects]
    exact .refl
  | catalog b ha h =>
    rw [h]
    exact hI.transact (stepCatalog_catalog b)
  | crashed i p ha hp h =>
    rw [h]
    exact hI.update hp .refl nofun trivial

theorem TrackedInv.initial (catalog : LegacyCatalog) :
    TrackedInv (.initial catalog : StorageSys hashing) where
  catalog := by
    refine ⟨catalog.ids_nodup, catalog.locations_nodup, List.pairwise_map.mpr ?_⟩
    refine (List.pairwise_map.mp catalog.paths_nodup).imp_of_mem fun {a b} ha hb hne heq => hne ?_
    obtain ⟨path, hpath⟩ := Option.isSome_iff_exists.mp (catalog.migrated a ha).1
    obtain ⟨path', hpath'⟩ := Option.isSome_iff_exists.mp (catalog.migrated b hb).1
    simp only [StorageObjectRow.target, hpath, hpath', storageTarget] at heq ⊢
    rw [StorageTarget.legacyFile.inj heq]
  locks i j p q id hp := by simp [StorageSys.initial] at hp
  processes i p hp := by simp [StorageSys.initial] at hp

theorem trackedInv_of_reach {catalog : LegacyCatalog}
    (hs : Reach StorageSys.step Always (.initial catalog) s) : TrackedInv s :=
  hs.invariant (.initial catalog) fun _ a hI _ => step_trackedInv hI a

/-! ### Safe steps -/

/-- The object of a row that is not the locked one of a cleaner is left alone. -/
theorem TrackedInv.files_kept (hI : TrackedInv s) {b : CleanupAct}
    (hp : s.processes[i]? = some (.cleanup options phase)) (ho : o ∈ s.objects)
    (hother : o.retentionStatus ≠ .pendingDelete ∨ o.cleanupLeaseOwner ≠ some i) :
    (stepCleanup (s.isFree i) s.toStores i options phase b).1.files o.target =
      s.files o.target := by
  obtain h | ⟨c, hc, htarget⟩ := @stepCleanup_files (s.isFree i) s.toStores i options phase b
    o.target
  · exact h
  · have hok : CleanupOk s.objects i phase := hI.processes i _ hp
    obtain ⟨o₁, ho₁, hclaimed⟩ := hok.locked c hc
    obtain ⟨hid, howner, hpending⟩ := isClaimed_iff.mp hclaimed
    have hmem : c ∈ phase.candidates := by
      cases phase with
      | fenced c' rest | deleted c' rest =>
        rw [← Option.some.inj hc]
        exact List.mem_cons_self
      | ready | working | failing | interrupted => cases hc
    obtain ⟨o₂, ho₂, hid₂, htarget₂⟩ := hok.candidates c hmem
    obtain rfl : o₁ = o₂ := hI.catalog.eq_of_id ho₁ ho₂ (hid.trans hid₂.symm)
    obtain rfl : o = o₁ := hI.catalog.eq_of_target ho ho₁ (htarget.symm.trans htarget₂.symm)
    obtain h | h := hother
    · exact absurd hpending h
    · exact absurd howner h

theorem mem_updateObjects_deleted {p : StorageObjectRow → Bool}
    {f : StorageObjectRow → StorageObjectRow} (h : o' ∈ updateObjects p f objects)
    (hdeleted : o'.retentionStatus = .deleted) (hid : ∀ o, (f o).id = o.id)
    (hf : ∀ o, (f o).retentionStatus = .deleted → o.retentionStatus = .deleted) :
    ∃ o ∈ objects, o.id = o'.id ∧ o.retentionStatus = .deleted := by
  obtain ⟨o, ho, rfl⟩ := mem_updateObjects.mp h
  refine ⟨o, ho, ?_⟩
  split at hdeleted
  · rw [if_pos ‹_›]
    exact ⟨(hid o).symm, hf o hdeleted⟩
  · rw [if_neg ‹_›]
    exact ⟨rfl, hdeleted⟩

theorem stepWrite_deleted {w : ObjectWrite hashing} {phase : WritePhase} {a : WriteAct}
    (ho' : o' ∈ (stepWrite i free stores w phase a).1.objects)
    (hdeleted : o'.retentionStatus = .deleted) : o' ∈ stores.objects := by
  obtain h | h := @stepWrite_objects _ free i stores w phase a
  · rw [h] at ho'
    exact ho'
  · obtain h | ⟨_, _, h⟩ := WriteService.catalog_eq_ok h
    · rw [h] at ho'
      exact ho'
    · rw [h] at ho'
      obtain ho' | ho' := List.mem_append.mp ho'
      · exact ho'
      · rw [List.mem_singleton.mp ho', WriteService.row_retentionStatus] at hdeleted
        cases hdeleted

theorem stepDiscard_deleted {reference : GeneratedArtifactReference} {phase : DiscardPhase}
    (ho' : o' ∈ (stepDiscard free stores reference phase).1.objects)
    (hdeleted : o'.retentionStatus = .deleted) :
    (∃ o ∈ stores.objects, o.id = o'.id ∧ o.retentionStatus = .deleted) ∨
      phase = .deleted ∧ o'.id = reference.objectId := by
  cases phase with
  | started =>
    simp only [stepDiscard] at ho'
    split at ho'
    · split at ho'
      · rename_i h
        obtain ⟨_, rfl⟩ := reserveDiscard_eq_ok h
        exact .inl (mem_updateObjects_deleted ho' hdeleted (fun _ => rfl) fun _ h => by cases h)
      · exact .inl ⟨o', ho', rfl, hdeleted⟩
    · exact .inl ⟨o', ho', rfl, hdeleted⟩
  | reserved => exact .inl ⟨o', ho', rfl, hdeleted⟩
  | deleted =>
    simp only [stepDiscard] at ho'
    split at ho'
    · obtain ⟨o, ho, rfl⟩ := mem_updateObjects.mp ho'
      split at hdeleted
      · rename_i hid
        simp only [Bool.and_eq_true, decide_eq_true_eq] at hid
        rw [if_pos (by simpa using hid)]
        exact .inr ⟨rfl, hid.1⟩
      · rw [if_neg ‹_›]
        exact .inl ⟨o, ho, rfl, hdeleted⟩
    · exact .inl ⟨o', ho', rfl, hdeleted⟩

theorem orElse_deleted {t : Except ServiceError (List StorageObjectRow)}
    (ho' : o' ∈ orElse objects t) (hdeleted : o'.retentionStatus = .deleted)
    (h : ∀ objects', t = .ok objects' → o' ∈ objects' →
      ∃ o ∈ objects, o.id = o'.id ∧ o.retentionStatus = .deleted) :
    ∃ o ∈ objects, o.id = o'.id ∧ o.retentionStatus = .deleted := by
  cases t with
  | ok objects' => exact h objects' rfl ho'
  | error e => exact ⟨o', ho', rfl, hdeleted⟩

theorem CatalogAct.deleted {now : ℕ} {a : CatalogAct} (ho' : o' ∈ a.objects now objects)
    (hdeleted : o'.retentionStatus = .deleted) :
    ∃ o ∈ objects, o.id = o'.id ∧ o.retentionStatus = .deleted := by
  cases a with
  | requestDeletion | setLegalHold | releaseLegalHold | finalizeExport | failExport =>
    exact mem_updateObjects_deleted ho' hdeleted (fun _ => rfl) fun _ h => by cases h
  | annotate | markMissing =>
    exact mem_updateObjects_deleted ho' hdeleted (fun _ => rfl) fun _ h => h
  | reactivateExport id started =>
    simp only [CatalogAct.objects] at ho'
    split at ho'
    · refine orElse_deleted ho' hdeleted fun objects' h ho' => ?_
      simp only [reactivateExportObject, bind_eq_ok, pure_eq_ok] at h
      obtain ⟨_, _, rfl⟩ := h
      exact mem_updateObjects_deleted ho' hdeleted (fun _ => rfl) fun _ h => by cases h
    · exact ⟨o', ho', rfl, hdeleted⟩
  | reserveExport id started =>
    simp only [CatalogAct.objects] at ho'
    split at ho'
    · refine orElse_deleted ho' hdeleted fun objects' h ho' => ?_
      unfold reserveExportObject at h
      split at h
      · cases h
        exact ⟨o', ho', rfl, hdeleted⟩
      · simp only [bind_eq_ok, ensure_eq_ok] at h
        obtain ⟨_, _, h⟩ := h
        split at h
        · cases pure_eq_ok.mp h
          exact ⟨o', ho', rfl, hdeleted⟩
        · rw [← pure_eq_ok.mp h] at ho'
          exact mem_updateObjects_deleted ho' hdeleted (fun _ => rfl) fun _ h => by cases h
    · exact ⟨o', ho', rfl, hdeleted⟩
  | insertExport id projectId inputHash provider bucket contentType byteSize sha256 =>
    refine orElse_deleted ho' hdeleted fun objects' h ho' => ?_
    obtain ⟨_, _, rfl⟩ := insertObject_eq_ok h
    obtain ho' | ho' := List.mem_append.mp ho'
    · exact ⟨o', ho', rfl, hdeleted⟩
    · rw [List.mem_singleton.mp ho'] at hdeleted
      cases hdeleted
  | putExport location bytes => exact ⟨o', ho', rfl, hdeleted⟩

theorem stepCatalog_deleted {a : CatalogAct} (ho' : o' ∈ (stepCatalog i free stores a).objects)
    (hdeleted : o'.retentionStatus = .deleted) :
    ∃ o ∈ stores.objects, o.id = o'.id ∧ o.retentionStatus = .deleted := by
  unfold stepCatalog at ho'
  split at ho'
  · split at ho' <;> exact ⟨o', ho', rfl, hdeleted⟩
  · split at ho'
    · exact CatalogAct.deleted ho' hdeleted
    · exact ⟨o', ho', rfl, hdeleted⟩

/-- A row becomes `DELETED` by the process that has deleted its object. -/
theorem TrackedInv.deleted (hI : TrackedInv s) (a : StorageAct) (ho' : o' ∈ (s.step a).objects)
    (hdeleted : o'.retentionStatus = .deleted) :
    (∃ o ∈ s.objects, o.id = o'.id ∧ o.retentionStatus = .deleted) ∨
    (∃ (i : ℕ) (acknowledged : Bool) (options : CleanupOptions) (c : CleanupCandidate)
      (rest : List CleanupCandidate), a = .cleanup i (.finish acknowledged) ∧
        s.processes[i]? = some (.cleanup options (.deleted c rest)) ∧ o'.id = c.id ∧
        o'.target = c.target) ∨
    ∃ (i : ℕ) (reference : GeneratedArtifactReference), a = .discard i ∧
      s.processes[i]? = some (.discard reference .deleted) ∧ o'.id = reference.objectId ∧
      .object o'.location = reference.target := by
  have hnext := (step_trackedInv hI a).catalog
  cases storageStep s a with
  | same h | ticked ms h | started p hfirst h | crashed i p ha hp h =>
    rw [h] at ho'
    exact .inl ⟨o', ho', rfl, hdeleted⟩
  | write i b w phase ha hp h =>
    rw [h] at ho'
    exact .inl ⟨o', stepWrite_deleted ho' hdeleted, rfl, hdeleted⟩
  | discard i reference phase ha hp h =>
    rw [h] at ho' hnext
    obtain hold | ⟨rfl, hid⟩ := stepDiscard_deleted ho' hdeleted
    · exact .inl hold
    · refine .inr (.inr ⟨i, reference, ha, hp, hid, ?_⟩)
      have hok : StorageProcess.Ok s.objects i (.discard reference .deleted) :=
        hI.processes i _ hp
      obtain ⟨o, ho, hido, hlocation⟩ := hok nofun
      obtain ⟨o₁, ho₁, hsame, _⟩ := (stepDiscard_catalog .deleted).row ho
      obtain rfl := hnext.eq_of_id ho₁ ho' (hsame.id.trans (hido.trans hid.symm))
      rw [hsame.location]
      exact hlocation
  | cleanup i b options phase ha hp h =>
    rw [h] at ho' hnext
    obtain hold | ⟨c, rest, acknowledged, rfl, rfl, hid⟩ := stepCleanup_deleted ho' hdeleted
    · exact .inl hold
    · refine .inr (.inl ⟨i, acknowledged, options, c, rest, ha, hp, hid, ?_⟩)
      have hok : CleanupOk s.objects i (.deleted c rest) := hI.processes i _ hp
      obtain ⟨o, ho, hido, htarget⟩ := hok.candidates c List.mem_cons_self
      obtain ⟨o₁, ho₁, hsame, _⟩ := (stepCleanup_catalog (hI.isFree_locked hp)).row ho
      obtain rfl := hnext.eq_of_id ho₁ ho' (hsame.id.trans (hido.trans hid.symm))
      rw [hsame.target]
      exact htarget
  | sweep i b options phase ha hp h =>
    rw [h, StorageSys.update, stepSweep_objects] at ho'
    exact .inl ⟨o', ho', rfl, hdeleted⟩
  | catalog b ha h =>
    rw [h] at ho'
    exact .inl (stepCatalog_deleted ho' hdeleted)

/-- What a step of a cleaner is. -/
theorem step_cleanup (s : StorageSys hashing) (i : ℕ) (b : CleanupAct) :
    s.step (.cleanup i b) = s ∨ ∃ (options : CleanupOptions) (phase : CleanupPhase),
      s.processes[i]? = some (.cleanup options phase) ∧
        s.step (.cleanup i b) = s.update i (stepCleanup (s.isFree i) s.toStores i options phase b).1
          (.cleanup options (stepCleanup (s.isFree i) s.toStores i options phase b).2) := by
  simp only [StorageSys.step]
  split
  · exact .inr ⟨_, _, ‹_›, rfl⟩
  · exact .inl rfl

theorem TrackedInv.live (hI : TrackedInv s) {b : CleanupAct} (ho : o ∈ s.objects)
    (hlive : o.retentionStatus ∈ [.active, .legalHold]) :
    o ∈ (s.step (.cleanup i b)).objects ∧
      (s.step (.cleanup i b)).files o.target = s.files o.target := by
  have hpending : o.retentionStatus ≠ .pendingDelete := by
    intro h
    rw [h] at hlive
    simp at hlive
  obtain h | ⟨options, phase, hp, h⟩ := step_cleanup s i b
  · rw [h]
    exact ⟨ho, rfl⟩
  · rw [h]
    refine ⟨?_, hI.files_kept hp ho (.inl hpending)⟩
    obtain hkept | ⟨hpending', _⟩ := @stepCleanup_kept (s.isFree i) _ _ i options phase b ho
    · exact hkept
    · exact absurd hpending' hpending

theorem TrackedInv.foreign (hI : TrackedInv s) {b : CleanupAct} (ho : o ∈ s.objects)
    (howner : o.cleanupLeaseOwner = some owner) (hother : owner ≠ i) :
    (s.step (.cleanup i b)).files o.target = s.files o.target ∧
      (o ∈ (s.step (.cleanup i b)).objects ∨ (∃ started chosen, b = .claim started chosen) ∧
        (∀ t ∈ o.cleanupLeaseExpiresAt, t ≤ s.now) ∧ s.isFree i o.id) := by
  have hnot : o.cleanupLeaseOwner ≠ some i := by
    rw [howner]
    exact fun h => hother (Option.some.inj h)
  obtain h | ⟨options, phase, hp, h⟩ := step_cleanup s i b
  · rw [h]
    exact ⟨rfl, .inl ho⟩
  · rw [h]
    refine ⟨hI.files_kept hp ho (.inr hnot), ?_⟩
    obtain hkept | ⟨_, hmine | htaken⟩ := @stepCleanup_kept (s.isFree i) _ _ i options phase b ho
    · exact .inl hkept
    · exact absurd hmine hnot
    · exact .inr htaken

/-- The object is gone when a cleaner gets to the end of `deleteClaimed`. -/
theorem step_erased {c : CleanupCandidate} {rest : List CleanupCandidate}
    (h : (s.step a').processes[i]? = some (.cleanup options (.deleted c rest))) :
    s.processes[i]? = some (.cleanup options (.deleted c rest)) ∨
      (s.step a').files c.target = none := by
  cases storageStep s a' with
  | same ht | ticked ms ht | catalog b ha ht =>
    rw [ht] at h
    exact .inl h
  | started p hfirst ht =>
    rw [ht] at h
    obtain h | ⟨_, rfl⟩ := getElem?_concat_cases h
    · exact .inl h
    · cases hfirst
  | write j b w phase ha hp ht =>
    rw [ht] at h
    obtain ⟨_, hset⟩ | ⟨_, hset⟩ := getElem?_set_cases h
    · revert hset
      cases (stepWrite j (s.isFree j) s.toStores w phase b).2 <;> intro hset <;> cases hset
    · exact .inl hset
  | discard j reference phase ha hp ht =>
    rw [ht] at h
    obtain ⟨_, hset⟩ | ⟨_, hset⟩ := getElem?_set_cases h
    · revert hset
      cases (stepDiscard (s.isFree j) s.toStores reference phase).2 <;> intro hset <;> cases hset
    · exact .inl hset
  | cleanup j b options' phase ha hp ht =>
    rw [ht] at h ⊢
    obtain ⟨rfl, hset⟩ | ⟨_, hset⟩ := getElem?_set_cases h
    · obtain ⟨rfl, hphase⟩ := StorageProcess.cleanup.inj hset
      obtain rfl | hgone := stepCleanup_erased hphase.symm
      · exact .inl hp
      · exact .inr hgone
    · exact .inl hset
  | sweep j b options' phase ha hp ht | crashed j p ha hp ht =>
    rw [ht] at h
    obtain ⟨_, hset⟩ | ⟨_, hset⟩ := getElem?_set_cases h
    · cases hset
    · exact .inl hset

/-- The object is gone when a discard gets to its last statement. -/
theorem step_discarded {reference : GeneratedArtifactReference}
    (h : (s.step a').processes[i]? = some (.discard reference .deleted)) :
    s.processes[i]? = some (.discard reference .deleted) ∨
      (s.step a').files reference.target = none := by
  cases storageStep s a' with
  | same ht | ticked ms ht | catalog b ha ht =>
    rw [ht] at h
    exact .inl h
  | started p hfirst ht =>
    rw [ht] at h
    obtain h | ⟨_, rfl⟩ := getElem?_concat_cases h
    · exact .inl h
    · cases hfirst
  | write j b w phase ha hp ht =>
    rw [ht] at h
    obtain ⟨_, hset⟩ | ⟨_, hset⟩ := getElem?_set_cases h
    · revert hset
      cases (stepWrite j (s.isFree j) s.toStores w phase b).2 <;> intro hset <;> cases hset
    · exact .inl hset
  | discard j reference' phase ha hp ht =>
    rw [ht] at h ⊢
    obtain ⟨rfl, hset⟩ | ⟨_, hset⟩ := getElem?_set_cases h
    · cases phase with
      | started =>
        simp only [stepDiscard] at hset
        repeat' split at hset
        all_goals cases hset
      | reserved =>
        cases hset
        exact .inr (Function.update_self _ _ _)
      | deleted =>
        simp only [stepDiscard] at hset
        split at hset
        · cases hset
        · cases hset
          exact .inl hp
    · exact .inl hset
  | cleanup j b options' phase ha hp ht | sweep j b options' phase ha hp ht
  | crashed j p ha hp ht =>
    rw [ht] at h
    obtain ⟨_, hset⟩ | ⟨_, hset⟩ := getElem?_set_cases h
    · cases hset
    · exact .inl hset

/-- **Tracked cleanup never deletes a live object**, whatever the processes do. -/
theorem tracked_cleanup_safe (hashing : Hashing) (catalog : LegacyCatalog) (s : StorageSys hashing)
    (hs : Reach StorageSys.step Always (.initial catalog) s) (a : StorageAct) :
    CleanupSafe s a := by
  have hI := trackedInv_of_reach hs
  refine ⟨?_, fun o' ho' => hI.deleted a ho', fun i options c rest => step_erased,
    fun i reference => step_discarded, ?_⟩
  · rintro i b rfl o ho hlive
    exact hI.live ho hlive
  · rintro i b rfl o ho owner howner hother
    exact hI.foreign ho howner hother

/-- Hashes that tell the bytes of the following runs apart. -/
def lengthHashing : Hashing where
  sha256Hex bytes := bytes.length
  deterministicUploadUuid _ key _ := key

/-- Nothing was migrated from v0.1. -/
def LegacyCatalog.empty : LegacyCatalog where
  rows := []
  files _ := none
  now := 0
  ids_nodup := .nil
  locations_nodup := .nil
  paths_nodup := .nil
  migrated _ h := absurd h List.not_mem_nil

/-- A cleaner of local files whose leases last a second. -/
def localCleaner : CleanupOptions := ⟨.localFiles, false, none, 1000, 10⟩

/-- A generated artifact is stored and handed over to cleanup; the lease of the first cleaner runs
    out before its `deleteClaimed`, and the second one takes over. -/
def takenOverCleanup : List StorageAct :=
  [.startWrite (.generatedArtifact ⟨.localFiles, 0, .exports, 7, .plain, [1, 2], some 0, none, 9⟩),
    .write 0 .select, .write 0 .put, .write 0 (.writeFile 2), .write 0 .verify,
    .write 0 (.commit false), .catalog (.requestDeletion [7]),
    .startCleanup localCleaner, .startCleanup localCleaner, .cleanup 1 (.claim 0 [7]), .tick 2000,
    .cleanup 2 (.claim 2000 [7]), .cleanup 1 .fence, .cleanup 2 .fence, .cleanup 2 .delete]

/-- The second cleaner deletes the object, and then marks the row. -/
theorem tracked_cleanup_safe_takenOver :
    let s := takenOverCleanup.foldl StorageSys.step
      (StorageSys.initial .empty : StorageSys lengthHashing)
    s.objects.map (fun o => (o.retentionStatus, o.deleteAttempts, s.files o.target)) =
        [(.pendingDelete, 2, none)] ∧
      (s.step (.cleanup 2 (.finish true))).objects.map (·.retentionStatus) = [.deleted] ∧
      CleanupSafe s (.cleanup 2 (.finish true)) :=
  ⟨by decide +kernel, by decide +kernel,
    tracked_cleanup_safe lengthHashing .empty _ (.ofActions _ _) _⟩

end ResearchWorkbench
