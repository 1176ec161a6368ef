import ResearchWorkbench.Library.Transition
import ResearchWorkbench.Storage.System

namespace ResearchWorkbench

/-!
# What a step does to the catalog

* `SameObject` — two versions of a row: the columns that no statement changes;
* `CatalogStep free` — rows that no other transaction has locked are updated, or one row is added;
* `CatalogStep.row`, `CatalogStep.cases` — the rows after a step, and before it;
* `stepWrite_catalog`, `stepDiscard_catalog`, `stepCatalog_catalog` — the steps of all processes but
  the cleaners, whose steps are in the module on tracked cleanup.
-/

variable {hashing : Hashing} {free : ℕ → Bool} {objects objects' : List StorageObjectRow}
  {o o' : StorageObjectRow}

/-- No statement changes the id of a row, or where its bytes are. -/
structure SameObject (o o' : StorageObjectRow) : Prop where
  id : o'.id = o.id
  location : o'.location = o.location
  legacyStoragePath : o'.legacyStoragePath = o.legacyStoragePath

theorem SameObject.refl (o : StorageObjectRow) : SameObject o o := ⟨rfl, rfl, rfl⟩

theorem SameObject.target (h : SameObject o o') : o'.target = o.target := by
  rw [StorageObjectRow.target, StorageObjectRow.target, h.location, h.legacyStoragePath]

/-- The rows of the catalog: unique ids and unique places. -/
structure CatalogOk (objects : List StorageObjectRow) : Prop where
  ids : (objects.map (·.id)).Nodup
  locations : (objects.map (·.location)).Nodup
  targets : (objects.map (·.target)).Nodup

theorem CatalogOk.eq_of_id (h : CatalogOk objects) (ho : o ∈ objects) (ho' : o' ∈ objects)
    (hid : o.id = o'.id) : o = o' :=
  List.inj_on_of_nodup_map h.ids ho ho' hid

theorem CatalogOk.eq_of_target (h : CatalogOk objects) (ho : o ∈ objects) (ho' : o' ∈ objects)
    (htarget : o.target = o'.target) : o = o' :=
  List.inj_on_of_nodup_map h.targets ho ho' htarget

/-- What a step does to the catalog: it updates rows that are free, or adds a row. -/
inductive CatalogStep (free : ℕ → Bool) (objects : List StorageObjectRow) :
    List StorageObjectRow → Prop
  | updated (p : StorageObjectRow → Bool) (f : StorageObjectRow → StorageObjectRow)
      (hf : ∀ o, SameObject o (f o)) (hfree : ∀ o ∈ objects, p o → free o.id) :
      CatalogStep free objects (updateObjects p f objects)
  | inserted (row : StorageObjectRow) (hid : ∀ o ∈ objects, o.id ≠ row.id)
      (hlocation : ∀ o ∈ objects, o.location ≠ row.location)
      (hlegacy : row.legacyStoragePath = none) :
      CatalogStep free objects (objects ++ [row])

theorem CatalogStep.refl : CatalogStep free objects objects := by
  have h := @CatalogStep.updated free objects (fun _ => false) id
    SameObject.refl (fun _ _ h => by cases h)
  simpa [updateObjects] using h

theorem mem_updateObjects {p : StorageObjectRow → Bool} {f : StorageObjectRow → StorageObjectRow} :
    o' ∈ updateObjects p f objects ↔ ∃ o ∈ objects, (if p o then f o else o) = o' := by
  simp [updateObjects]

/-- **The row after a step.** -/
theorem CatalogStep.row (h : CatalogStep free objects objects') (ho : o ∈ objects) :
    ∃ o' ∈ objects', SameObject o o' ∧ (free o.id = false → o' = o) := by
  cases h with
  | updated p f hf hfree =>
    refine ⟨_, mem_updateObjects.mpr ⟨o, ho, rfl⟩, ?_⟩
    split
    · refine ⟨hf o, fun hlocked => ?_⟩
      rw [hfree o ho ‹_›] at hlocked
      cases hlocked
    · exact ⟨.refl o, fun _ => rfl⟩
  | inserted row => exact ⟨o, List.mem_append_left _ ho, .refl o, fun _ => rfl⟩

theorem map_updateObjects {β : Type} {p : StorageObjectRow → Bool}
    {f : StorageObjectRow → StorageObjectRow} {g : StorageObjectRow → β}
    (hg : ∀ o, g (f o) = g o) : (updateObjects p f objects).map g = objects.map g := by
  simp only [updateObjects, List.map_map]
  refine List.map_congr_left fun o _ => ?_
  simp only [Function.comp_apply]
  split
  · exact hg o
  · rfl

theorem CatalogStep.catalogOk (h : CatalogStep free objects objects') (hc : CatalogOk objects) :
    CatalogOk objects' := by
  cases h with
  | updated p f hf hfree =>
    refine ⟨?_, ?_, ?_⟩
    · rw [map_updateObjects fun o => (hf o).id]
      exact hc.ids
    · rw [map_updateObjects fun o => (hf o).location]
      exact hc.locations
    · rw [map_updateObjects fun o => (hf o).target]
      exact hc.targets
  | inserted row hid hlocation hlegacy =>
    refine ⟨?_, ?_, ?_⟩
    · rw [List.map_append]
      exact nodup_concat hc.ids (by simpa using hid)
    · rw [List.map_append]
      exact nodup_concat hc.locations (by simpa using hlocation)
    · rw [List.map_append]
      refine nodup_concat hc.targets fun target htarget heq => ?_
      obtain ⟨o, ho, rfl⟩ := List.mem_map.mp htarget
      simp only [StorageObjectRow.target, hlegacy] at heq
      cases hpath : o.legacyStoragePath with
      | some path =>
        rw [hpath] at heq
        cases heq
      | none =>
        rw [hpath] at heq
        exact hlocation o ho (StorageTarget.object.inj heq)

/-! ### Writes -/

theorem WriteService.row_legacyStoragePath (service : WriteService) :
    (service.row hashing).legacyStoragePath = none := by
  cases service <;> rfl

theorem WriteService.row_retentionStatus (service : WriteService) :
    (service.row hashing).retentionStatus = .active := by
  cases service <;> rfl

/-- The statements of a write leave the catalog as it is, or add its row. -/
theorem WriteService.catalog_eq_ok {service : WriteService}
    (h : service.catalog hashing objects = .ok objects') :
    objects' = objects ∨ (∀ o ∈ objects, o.id ≠ (service.row hashing).id) ∧
      (∀ o ∈ objects, o.location ≠ (service.row hashing).location) ∧
      objects' = objects ++ [service.row hashing] := by
  cases service with
  | upload input sourceId => exact .inr (insertObject_eq_ok h)
  | generatedArtifact input => exact .inr (insertObject_eq_ok h)
  | cleanSource clean locked =>
    simp only [WriteService.catalog, Documents.catalogCleanSourceObject, bind_eq_ok,
      pure_eq_ok] at h
    obtain ⟨objects₁, hinsert, _, _, _, _, rfl⟩ := h
    exact insertObjectIfNew_eq_ok hinsert
  | extractionArtifact artifact locked =>
    simp only [WriteService.catalog, Documents.catalogExtractionArtifact, bind_eq_ok,
      pure_eq_ok] at h
    obtain ⟨objects₁, hinsert, _, _, _, _, rfl⟩ := h
    exact insertObjectIfNew_eq_ok hinsert

theorem WriteService.catalog_step {service : WriteService}
    (h : service.catalog hashing objects = .ok objects') : CatalogStep free objects objects' := by
  obtain rfl | ⟨hid, hlocation, rfl⟩ := WriteService.catalog_eq_ok h
  · exact .refl
  · exact .inserted _ hid hlocation (WriteService.row_legacyStoragePath service)

theorem ObjectWrite.remove_objects {w : ObjectWrite hashing} {stores : Stores} {done : Bool} :
    (w.remove stores done).objects = stores.objects := by
  unfold ObjectWrite.remove
  split <;> rfl

theorem ObjectWrite.commit_objects {w : ObjectWrite hashing} {stores : Stores}
    {created replay : Bool} :
    (w.commit created replay stores).1.objects = stores.objects ∨
      w.service.catalog hashing stores.objects =
        .ok (w.commit created replay stores).1.objects := by
  unfold ObjectWrite.commit
  split
  · exact .inl rfl
  · split
    · exact .inr ‹_›
    · exact .inl rfl

theorem ObjectWrite.failCommit_objects {w : ObjectWrite hashing} {stores : Stores}
    {created committed : Bool} :
    (w.failCommit created committed stores).1.objects = stores.objects ∨
      w.service.catalog hashing stores.objects =
        .ok (w.failCommit created committed stores).1.objects := by
  simp only [ObjectWrite.failCommit]
  split
  · split
    · exact .inr ‹_›
    · exact .inl rfl
  · exact .inl rfl

/-- **The catalog after a step of a write.** -/
theorem stepWrite_objects {i : ℕ} {stores : Stores} {w : ObjectWrite hashing} (phase : WritePhase)
    (a : WriteAct) :
    (stepWrite i free stores w phase a).1.objects = stores.objects ∨
      w.service.catalog hashing stores.objects =
        .ok (stepWrite i free stores w phase a).1.objects := by
  unfold stepWrite
  split
  case h_3 =>
    unfold ObjectWrite.put
    split <;> exact .inl rfl
  case h_4 =>
    unfold ObjectWrite.writeFile
    split
    · split <;> exact .inl rfl
    · exact .inl rfl
  case h_7 => exact .inl ObjectWrite.remove_objects
  case h_9 =>
    split
    · exact ObjectWrite.commit_objects
    · exact .inl rfl
  case h_10 =>
    split
    · exact ObjectWrite.failCommit_objects
    · exact .inl rfl
  case h_11 => exact .inl ObjectWrite.remove_objects
  case h_13 => exact .inl ObjectWrite.remove_objects
  all_goals
    repeat' split
    all_goals exact .inl rfl

theorem stepWrite_catalog {i : ℕ} {stores : Stores} {w : ObjectWrite hashing} (phase : WritePhase)
    (a : WriteAct) :
    CatalogStep free stores.objects (stepWrite i free stores w phase a).1.objects := by
  obtain h | h := @stepWrite_objects _ free i stores w phase a
  · rw [h]
    exact .refl
  · exact WriteService.catalog_step h

/-! ### Discards -/

theorem stepDiscard_catalog {stores : Stores} {reference : GeneratedArtifactReference}
    (phase : DiscardPhase) :
    CatalogStep free stores.objects (stepDiscard free stores reference phase).1.objects := by
  cases phase with
  | started =>
    simp only [stepDiscard]
    split
    · rename_i hfree
      split
      · rename_i objects' h
        obtain ⟨_, rfl⟩ := reserveDiscard_eq_ok h
        refine .updated _ _ (fun o => ⟨rfl, rfl, rfl⟩) fun o _ hid => ?_
        rw [of_decide_eq_true hid]
        exact hfree
      · exact .refl
    · exact .refl
  | reserved => exact .refl
  | deleted =>
    simp only [stepDiscard]
    split
    · rename_i hfree
      refine .updated _ _ (fun o => ⟨rfl, rfl, rfl⟩) fun o _ hid => ?_
      simp only [Bool.and_eq_true, decide_eq_true_eq] at hid
      rw [hid.1]
      exact hfree
    · exact .refl

/-! ### Other transactions -/

theorem orElse_catalog {t : Except ServiceError (List StorageObjectRow)}
    (h : ∀ objects', t = .ok objects' → CatalogStep free objects objects') :
    CatalogStep free objects (orElse objects t) := by
  cases t with
  | ok objects' => exact h objects' rfl
  | error e => exact .refl

/-- An update of rows with free ids. -/
theorem CatalogStep.ofIds {ids : List ℕ} {p : StorageObjectRow → Bool}
    {f : StorageObjectRow → StorageObjectRow} (hids : ids.all free) (hp : ∀ o, p o → o.id ∈ ids)
    (hf : ∀ o, SameObject o (f o)) : CatalogStep free objects (updateObjects p f objects) :=
  .updated p f hf fun o _ h => List.all_eq_true.mp hids o.id (hp o h)

theorem CatalogAct.objects_catalog {a : CatalogAct} (now : ℕ) (hids : a.ids.all free) :
    CatalogStep free objects (a.objects now objects) := by
  cases a with
  | requestDeletion ids =>
    refine .ofIds hids (fun o h => ?_) fun o => ⟨rfl, rfl, rfl⟩
    simp only [Bool.and_eq_true, decide_eq_true_eq] at h
    exact h.1
  | annotate id | finalizeExport id | markMissing id =>
    exact .ofIds hids (fun o h => by simpa [CatalogAct.ids] using h) fun o => ⟨rfl, rfl, rfl⟩
  | setLegalHold id | releaseLegalHold id | failExport id =>
    refine .ofIds hids (fun o h => ?_) fun o => ⟨rfl, rfl, rfl⟩
    simp only [Bool.and_eq_true, decide_eq_true_eq] at h
    exact List.mem_singleton.mpr h.1
  | reactivateExport id started =>
    simp only [CatalogAct.objects]
    split
    · refine orElse_catalog fun objects' h => ?_
      simp only [reactivateExportObject, bind_eq_ok, pure_eq_ok] at h
      obtain ⟨_, _, rfl⟩ := h
      refine .ofIds hids (fun o h => ?_) fun o => ⟨rfl, rfl, rfl⟩
      simp only [StorageObjectRow.isReactivable, Bool.and_eq_true, decide_eq_true_eq] at h
      exact List.mem_singleton.mpr h.1.1.1
    · exact .refl
  | reserveExport id started =>
    simp only [CatalogAct.objects]
    split
    · refine orElse_catalog fun objects' h => ?_
      unfold reserveExportObject at h
      split at h
      · cases h
        exact .refl
      · simp only [bind_eq_ok, ensure_eq_ok] at h
        obtain ⟨_, _, h⟩ := h
        split at h
        · cases pure_eq_ok.mp h
          exact .refl
        · rw [← pure_eq_ok.mp h]
          exact .ofIds hids (fun o h => by simpa [CatalogAct.ids] using h) fun o => ⟨rfl, rfl, rfl⟩
    · exact .refl
  | insertExport id projectId inputHash provider bucket contentType byteSize sha256 =>
    refine orElse_catalog fun objects' h => ?_
    obtain ⟨hid, hlocation, rfl⟩ := insertObject_eq_ok h
    exact .inserted _ hid hlocation rfl
  | putExport location bytes => exact .refl

theorem stepCatalog_catalog {i : ℕ} {stores : Stores} (a : CatalogAct) :
    CatalogStep free stores.objects (stepCatalog i free stores a).objects := by
  unfold stepCatalog
  split
  · split <;> exact .refl
  · split
    · exact CatalogAct.objects_catalog stores.now ‹_›
    · exact .refl

/-! ### The machine -/

/-- A process that has just started. -/
def StorageProcess.IsFirst (now : ℕ) : StorageProcess hashing → Prop
  | .write w phase => phase = StorageSys.firstPhase w.service
  | .discard _ phase => phase = .started
  | .cleanup _ phase => phase = .ready
  | .sweep options phase => options.startedAt = now ∧ phase = .listing []
  | .ended => False

/-- What the step `a` from `s` to `t` is. -/
inductive StorageStep (s : StorageSys hashing) (a : StorageAct) (t : StorageSys hashing) : Prop
  | same (h : t = s)
  | ticked (ms : ℕ) (h : t = { s with now := s.now + ms })
  | started (p : StorageProcess hashing) (hfirst : p.IsFirst s.now)
      (h : t = { s with processes := s.processes ++ [p] })
  | write (i : ℕ) (b : WriteAct) (w : ObjectWrite hashing) (phase : WritePhase)
      (ha : a = .write i b) (hp : s.processes[i]? = some (.write w phase))
      (h : t = s.update i (stepWrite i (s.isFree i) s.toStores w phase b).1
        (orEnded (.write w) (stepWrite i (s.isFree i) s.toStores w phase b).2))
  | discard (i : ℕ) (reference : GeneratedArtifactReference) (phase : DiscardPhase)
      (ha : a = .discard i) (hp : s.processes[i]? = some (.discard reference phase))
      (h : t = s.update i (stepDiscard (s.isFree i) s.toStores reference phase).1
        (orEnded (.discard reference) (stepDiscard (s.isFree i) s.toStores reference phase).2))
  | cleanup (i : ℕ) (b : CleanupAct) (options : CleanupOptions) (phase : CleanupPhase)
      (ha : a = .cleanup i b) (hp : s.processes[i]? = some (.cleanup options phase))
      (h : t = s.update i (stepCleanup (s.isFree i) s.toStores i options phase b).1
        (.cleanup options (stepCleanup (s.isFree i) s.toStores i options phase b).2))
  | sweep (i : ℕ) (b : SweepAct) (options : SweepOptions) (phase : SweepPhase)
      (ha : a = .sweep i b) (hp : s.processes[i]? = some (.sweep options phase))
      (h : t = s.update i (stepSweep s.toStores options phase b).1
        (.sweep options (stepSweep s.toStores options phase b).2))
  | catalog (b : CatalogAct) (ha : a = .catalog b)
      (h : t = { stepCatalog s.processes.length (s.isFree s.processes.length) s.toStores b with
        processes := s.processes })
  | crashed (i : ℕ) (p : StorageProcess hashing) (ha : a = .crash i)
      (hp : s.processes[i]? = some p) (h : t = s.update i s.toStores .ended)

theorem start_step (s : StorageSys hashing) {a : StorageAct} {p : StorageProcess hashing}
    (hfirst : p.IsFirst s.now) : StorageStep s a (s.start p) := by
  unfold StorageSys.start
  split
  · exact .started p hfirst rfl
  · exact .same rfl

/-- **Steps.** -/
theorem storageStep (s : StorageSys hashing) (a : StorageAct) : StorageStep s a (s.step a) := by
  cases a with
  | tick ms => exact .ticked ms rfl
  | startWrite request =>
    simp only [StorageSys.step]
    split
    · exact start_step s rfl
    · exact .same rfl
  | startDiscard reference => exact start_step s rfl
  | startCleanup options =>
    simp only [StorageSys.step]
    split
    · exact start_step s rfl
    · exact .same rfl
  | startSweep provider bucket graceMs limit =>
    simp only [StorageSys.step]
    split
    · exact start_step s ⟨rfl, rfl⟩
    · exact .same rfl
  | write i b =>
    simp only [StorageSys.step]
    split
    · exact .write i b _ _ rfl ‹_› rfl
    · exact .same rfl
  | discard i =>
    simp only [StorageSys.step]
    split
    · exact .discard i _ _ rfl ‹_› rfl
    · exact .same rfl
  | cleanup i b =>
    simp only [StorageSys.step]
    split
    · exact .cleanup i b _ _ rfl ‹_› rfl
    · exact .same rfl
  | sweep i b =>
    simp only [StorageSys.step]
    split
    · exact .sweep i b _ _ rfl ‹_› rfl
    · exact .same rfl
  | catalog b => exact .catalog b rfl rfl
  | crash i =>
    simp only [StorageSys.step]
    cases hp : s.processes[i]? with
    | some p => exact .crashed i p rfl hp rfl
    | none =>
      refine .same ?_
      rw [StorageSys.update, List.set_eq_of_length_le (List.getElem?_eq_none_iff.mp hp)]

end ResearchWorkbench
