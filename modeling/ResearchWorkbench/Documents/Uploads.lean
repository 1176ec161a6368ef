import Mathlib.Logic.Equiv.List
import ResearchWorkbench.Library.Transition
import ResearchWorkbench.Services.Uploads

namespace ResearchWorkbench.Uploads

/-!
# Uploads under one key make one document

The three layers of `quarantineDocument` agree as long as nobody changes the object under
another's feet: a call that has verified the stored bytes relies on them until its transaction.

* `Unused` — the key, its object and its location are free;
* `Idempotent`, `DifferentUploadFails` — what the key promises of a state, and of a step;
* `changesObject`, `KeepsObject` — the steps that change the stored file, and the guard on them;
* `Consistent`, `Consistent.step` — the invariant: what the tables, the file and every call agree on;
* `uploads_idempotent` — the promise, along all runs that meet the guard.

`storage.put` writes a file others can read meanwhile, and the compensation looks into the catalog
before it deletes the object.  Between that look and the deletion another call may adopt the
object and commit: `compensation_deletes_adopted_object` is such a run.
-/

variable (site : UploadSite)

/-! ### The promise -/

/-- No upload has used the key. -/
structure Unused (db : Documents.Tables) (files : Files) : Prop where
  documents : ∀ d ∈ db.documents, ¬ (d.projectId = site.projectId ∧
    d.uploadIdempotencyKey = some site.idempotencyKey)
  objects : ∀ o ∈ db.objects, o.id ≠ site.objectId ∧ o.location ≠ site.location
  file : files site.target = none

/-- At most one document, one source and one object have come into being, and every call that has
    returned has returned these, with its own bytes stored. -/
structure Idempotent (db₀ : Documents.Tables) (files₀ : Files) (s : UploadSys) : Prop where
  tables : ∃ objects sources documents, s.stores.db = { db₀ with
      objects := db₀.objects ++ objects, sources := db₀.sources ++ sources,
      documents := db₀.documents ++ documents } ∧
    objects.length ≤ 1 ∧ sources.length ≤ 1 ∧ documents.length ≤ 1
  files : ∀ target, target ≠ site.target → s.stores.files target = files₀ target
  returned : ∀ c ∈ s.calls, ∀ document, c.phase = .returned document →
    ∃ existing, existingUpload site s.stores.db = some existing ∧ existing.result = document ∧
      existing.document.uploadInputHash = some (site.uploadInputHash c.input) ∧
      (s.stores.files (.object document.location)).map (·.bytes) = some c.input.bytes

/-- A call with other bytes or other metadata than the committed upload changes nothing, and does
    not return a document. -/
def DifferentUploadFails (s : UploadSys) (a : UploadAction) : Prop :=
  ∀ (i : ℕ) (act : UploadAct) (c : UploadCall) (existing : ExistingDocumentUpload)
    (input : UploadInput), a = .step i act → s.calls[i]? = some c →
    existingUpload site s.stores.db = some existing →
    existing.document.uploadInputHash = some (site.uploadInputHash input) →
    site.identity input ≠ site.identity c.input →
    (s.step site a).stores = s.stores ∧ ∀ c', (s.step site a).calls[i]? = some c' →
      ∀ document, c'.phase ≠ .returned document

/-! ### The guard -/

/-- The call has verified the stored bytes, and has not yet begun its transaction. -/
def UploadPhase.reliesOnObject : UploadPhase → Bool
  | .stored _ => true
  | _ => false

/-- The step of the call `i` writes to the file of the key, or removes it. -/
def changesObject (i : ℕ) (stores : UploadStores) (input : UploadInput) :
    UploadPhase → UploadAct → Bool
  | .creating, .writeFile n => (stores.files site.target).any fun f =>
    f.creator = i && f.bytes.length < n && n ≤ input.bytes.length
  | .unlinking, .unlink done | .unverified, .unlink done | .compensating, .unlink done =>
    done && (stores.files site.target).isSome
  | _, _ => false

/-- A call changes the object only while no upload of the key is committed and no other call
    relies on the stored bytes. -/
def KeepsObject (s : UploadSys) : UploadAction → Prop
  | .call _ => True
  | .step i act => ∀ c ∈ s.calls[i]?, changesObject site i s.stores c.input c.phase act = true →
    existingUpload site s.stores.db = none ∧
      ∀ j < s.calls.length, j ≠ i → ∀ d ∈ s.calls[j]?, d.phase.reliesOnObject = false

instance (s : UploadSys) : ∀ a, Decidable (KeepsObject site s a)
  | .call _ => isTrue trivial
  | .step i act => inferInstanceAs (Decidable (∀ c ∈ s.calls[i]?,
      changesObject site i s.stores c.input c.phase act = true →
      existingUpload site s.stores.db = none ∧
        ∀ j < s.calls.length, j ≠ i → ∀ d ∈ s.calls[j]?, d.phase.reliesOnObject = false))

/-! ### The transaction -/

variable {site} {db₀ db db' : Documents.Tables} {files₀ : Files} {input u : UploadInput}

/-- The row of the upload's document. -/
def documentRow (site : UploadSite) (db : Documents.Tables) (input : UploadInput) :
    Documents.DocumentRow where
  projectId := site.projectId
  sourceId := some db.sources.length
  rawObjectId := site.objectId
  status := .quarantined
  scanBypassed := false
  currentExtractionId := none
  uploadIdempotencyKey := some site.idempotencyKey
  uploadInputHash := some (site.uploadInputHash input)

/-- The upload an input makes. -/
def newUpload (site : UploadSite) (db : Documents.Tables) (input : UploadInput) :
    ExistingDocumentUpload where
  id := db.documents.length
  document := documentRow site db input
  object := (site.row input).objectRow site.hashing.toHashing db.sources.length

/-- The tables with the upload an input makes. -/
def addUpload (site : UploadSite) (db : Documents.Tables) (input : UploadInput) :
    Documents.Tables :=
  { db with
    objects := db.objects ++ [(newUpload site db input).object]
    sources := db.sources ++
      [{ projectId := site.projectId, sanitizedContent := none,
         storageObjectId := some site.objectId, reusedFromSourceId := none }]
    documents := db.documents ++ [(newUpload site db input).document] }

theorem Unused.findRow_key (h : Unused site db₀ files₀) :
    findRow (fun d => d.projectId = site.projectId ∧
      d.uploadIdempotencyKey = some site.idempotencyKey) db₀.documents = none := by
  rw [findRow_eq_none]
  intro d hd
  simpa using h.documents d hd

theorem Unused.existingUpload_eq_none (h : Unused site db₀ files₀) :
    existingUpload site db₀ = none := by
  unfold existingUpload
  rw [h.findRow_key]
  rfl

/-- The upload is found once it is committed. -/
theorem Unused.existingUpload_addUpload (h : Unused site db₀ files₀) (u : UploadInput) :
    existingUpload site (addUpload site db₀ u) = some (newUpload site db₀ u) := by
  have hrow := findRow_concat h.findRow_key (a := documentRow site db₀ u)
    (by simp [documentRow])
  have hobject : findObject site.objectId (addUpload site db₀ u).objects =
      some (newUpload site db₀ u).object := by
    simp only [findObject, addUpload, List.find?_append]
    rw [List.find?_eq_none.mpr fun o ho => by simpa using (h.objects o ho).1]
    simp [newUpload, Documents.QuarantineDocumentInput.objectRow,
      Documents.QuarantineDocumentInput.objectId, UploadSite.row, UploadSite.objectId]
  unfold existingUpload
  simp only [addUpload, newUpload] at hrow hobject ⊢
  rw [hrow]
  simp only [Option.bind_eq_bind, Option.bind_some, documentRow, hobject]
  rfl

/-- On unused tables, the transaction adds the upload and returns it. -/
theorem Unused.transact_eq_ok (h : Unused site db₀ files₀) {document : QuarantinedDocument}
    (ht : transact site db₀ input = .ok (db', document)) :
    db' = addUpload site db₀ input ∧ document = (newUpload site db₀ input).result := by
  have hexisting : Documents.existingDocumentUpload db₀ (site.row input) = none :=
    h.findRow_key
  simp only [transact, bind_eq_ok, h.existingUpload_eq_none, pure_eq_ok, Prod.mk.injEq,
    Prod.exists] at ht
  obtain ⟨documentId, db₁, hquarantine, rfl, rfl⟩ := ht
  simp only [Documents.quarantineDocument, hexisting, bind_eq_ok, pure_eq_ok,
    Prod.mk.injEq] at hquarantine
  obtain ⟨_, _, objects, hinsert, rfl, rfl⟩ := hquarantine
  obtain ⟨_, _, rfl⟩ := insertObject_eq_ok hinsert
  exact ⟨rfl, rfl⟩

/-- Afterwards it returns the same upload to the same input, and adds nothing. -/
theorem Unused.transact_addUpload_eq_ok (h : Unused site db₀ files₀)
    {document : QuarantinedDocument}
    (ht : transact site (addUpload site db₀ u) input = .ok (db', document)) :
    db' = addUpload site db₀ u ∧ document = (newUpload site db₀ u).result ∧
      site.uploadInputHash u = site.uploadInputHash input := by
  have hexisting : Documents.existingDocumentUpload (addUpload site db₀ u) (site.row input) =
      some (db₀.documents.length, documentRow site db₀ u) :=
    findRow_concat h.findRow_key (by simp [newUpload, documentRow])
  simp only [transact, bind_eq_ok, h.existingUpload_addUpload, pure_eq_ok, Prod.mk.injEq,
    Prod.exists] at ht
  obtain ⟨documentId, db₁, hquarantine, rfl, rfl⟩ := ht
  simp only [Documents.quarantineDocument, hexisting, bind_eq_ok, ensure_eq_ok, pure_eq_ok,
    Prod.mk.injEq] at hquarantine
  obtain ⟨_, _, _, hhash, rfl, rfl⟩ := hquarantine
  exact ⟨rfl, rfl, Option.some.inj hhash⟩

/-! ### Steps of a call -/

variable {stores stores' : UploadStores} {i : ℕ} {phase phase' : UploadPhase} {act : UploadAct}

/-- A phase in which a call holds nothing that the tables or the file could contradict. -/
def UploadPhase.isNeutral : UploadPhase → Bool
  | .replaying _ | .stored _ | .returned _ => false
  | _ => true

/-- What a step of the call `i` can do. -/
inductive UploadEffect (site : UploadSite) (i : ℕ) (stores : UploadStores) (input : UploadInput)
    (phase : UploadPhase) (act : UploadAct) : UploadStores → UploadPhase → Prop
  | stay : UploadEffect site i stores input phase act stores phase
  /-- The call goes on, or throws. -/
  | goOn {phase' : UploadPhase} (h : phase'.isNeutral = true) : UploadEffect site i stores input phase act stores phase'
  | find {existing : ExistingDocumentUpload} (h : existingUpload site stores.db = some existing)
      (hreusable : assertReusable site input existing = .ok ()) :
      UploadEffect site i stores input phase act stores (.replaying existing)
  | replay {existing : ExistingDocumentUpload} (h : phase = .replaying existing) :
      UploadEffect site i stores input phase act stores (.returned existing.result)
  | create {file : StoredFile} (h : stores.files site.target = none) :
      UploadEffect site i stores input phase act (stores.setFile site (some file)) .creating
  | verify {created : Bool} (h : stores.stored site = some input.bytes) :
      UploadEffect site i stores input phase act stores (.stored created)
  | change {file : Option StoredFile} {phase' : UploadPhase}
      (h : changesObject site i stores input phase act = true)
      (h' : phase'.isNeutral = true) :
      UploadEffect site i stores input phase act (stores.setFile site file) phase'
  | commit {created : Bool} {db : Documents.Tables} {document : QuarantinedDocument}
      {phase' : UploadPhase} (h : phase = .stored created)
      (ht : transact site stores.db input = .ok (db, document))
      (h' : phase' = .returned document ∨ phase'.isNeutral = true) :
      UploadEffect site i stores input phase act { stores with db } phase'

/-- What is read with the hash of the input is the input. -/
theorem stored_of_readObject {maxBytes : ℕ} {bytes : Bytes}
    (h : stores.readObject site site.location maxBytes
      (some (site.hashing.sha256Hex input.bytes)) = .ok bytes) :
    stores.stored site = some input.bytes := by
  have hsha := Documents.storageRead_sha256 h _ rfl
  have hbytes : bytes = input.bytes := site.hashing.sha256Hex_injective hsha
  simp only [UploadStores.readObject, Documents.storageRead, bind_eq_ok, require_eq_ok,
    pure_eq_ok] at h
  obtain ⟨stored, hstored, _, _, _, _, rfl⟩ := h
  rw [← hbytes]
  exact hstored

/-- Every step has one of the effects. -/
theorem stepUpload_effect (site : UploadSite) (i : ℕ) (stores : UploadStores)
    (input : UploadInput) (phase : UploadPhase) (act : UploadAct) :
    UploadEffect site i stores input phase act
      (stepUpload site i stores input phase act).1 (stepUpload site i stores input phase act).2 := by
  have hremove (done : Bool) (h : done = true → (stores.files site.target).isSome →
      changesObject site i stores input phase act = true) :
      UploadEffect site i stores input phase act (stores.remove site done) .threw := by
    unfold UploadStores.remove
    cases done with
    | false => exact .goOn rfl
    | true =>
      cases hfile : stores.files site.target with
      | none =>
        have hsame : stores.setFile site none = stores := by
          rw [UploadStores.setFile, ← hfile, Function.update_eq_self]
        rw [if_pos rfl, hsame]
        exact .goOn rfl
      | some f => exact .change (h rfl (by rw [hfile]; rfl)) rfl
  unfold stepUpload
  split
  · -- the lookup
    unfold lookupUpload
    split
    · exact .goOn rfl
    · rename_i existing hexisting
      split
      · rename_i hreusable
        exact .find hexisting hreusable
      · exact .goOn rfl
  · split
    · exact .replay rfl
    · exact .goOn rfl
  · split
    · exact .goOn rfl
    · exact .goOn rfl
  · unfold putObject
    split
    · exact .goOn rfl
    · split
      · exact .goOn rfl
      · rename_i hnone
        exact .create hnone
  · rename_i n
    unfold UploadStores.writeFile
    split
    · rename_i f hf
      split
      · rename_i hwrites
        refine .change ?_ rfl
        simpa only [changesObject, hf, Option.any_some, Bool.and_eq_true, decide_eq_true_eq,
          and_assoc] using hwrites
      · exact .stay
    · exact .stay
  · split
    · rename_i hread
      exact .verify (stored_of_readObject hread)
    · exact .goOn rfl
  · exact .goOn rfl
  · exact hremove _ fun h hsome => by rw [changesObject, h, hsome]; rfl
  · unfold readAttempt
    split
    · rename_i hread
      split
      · exact .goOn rfl
      · exact .verify (stored_of_readObject hread)
    · exact .goOn rfl
    · split
      · exact .goOn rfl
      · exact .goOn rfl
  · exact hremove _ fun h hsome => by rw [changesObject, h, hsome]; rfl
  · rename_i created acknowledged
    split
    · rename_i ht
      refine .commit rfl ht ?_
      cases acknowledged with
      | true => exact .inl rfl
      | false => exact .inr rfl
    · exact .goOn rfl
  · exact .goOn rfl
  · split
    · exact .goOn rfl
    · exact .goOn rfl
  · exact hremove _ fun h hsome => by rw [changesObject, h, hsome]; rfl
  all_goals first | exact .goOn rfl | exact .stay

/-! ### The invariant -/

/-- What a call has seen is so: the bytes it relies on are stored, and the upload it has found or
    returned is the committed one, of its own input. -/
def UploadCall.Agrees (site : UploadSite) (db₀ db : Documents.Tables) (stored : Option Bytes)
    (c : UploadCall) : Prop :=
  match c.phase with
  | .stored _ => stored = some c.input.bytes
  | .replaying existing => ∃ u, db = addUpload site db₀ u ∧ existing = newUpload site db₀ u ∧
      site.uploadInputHash u = site.uploadInputHash c.input
  | .returned document => ∃ u, db = addUpload site db₀ u ∧
      document = (newUpload site db₀ u).result ∧
      site.uploadInputHash u = site.uploadInputHash c.input
  | _ => True

/-- The tables are the unused ones, or have one upload with its bytes stored, and all calls
    agree. -/
structure Consistent (site : UploadSite) (db₀ : Documents.Tables) (files₀ : Files)
    (s : UploadSys) : Prop where
  tables : s.stores.db = db₀ ∨ ∃ u, s.stores.db = addUpload site db₀ u ∧
    s.stores.stored site = some u.bytes
  calls : ∀ c ∈ s.calls, c.Agrees site db₀ s.stores.db (s.stores.stored site)
  files : ∀ target, target ≠ site.target → s.stores.files target = files₀ target

section

variable {c : UploadCall} {stored stored' : Option Bytes} {s : UploadSys}

theorem UploadCall.agrees_of_isNeutral (h : phase.isNeutral = true) :
    UploadCall.Agrees site db₀ db stored ⟨input, phase⟩ := by
  cases phase with
  | replaying _ => cases h
  | stored _ => cases h
  | returned _ => cases h
  | _ => trivial

/-- A call agrees with another file unless it relies on the object. -/
theorem UploadCall.Agrees.of_not_relies (h : c.Agrees site db₀ db stored)
    (hrelies : c.phase.reliesOnObject = false) : c.Agrees site db₀ db stored' := by
  unfold UploadCall.Agrees at h ⊢
  split
  · rename_i hphase
    rw [hphase] at hrelies
    cases hrelies
  · rename_i hphase
    rw [hphase] at h
    exact h
  · rename_i hphase
    rw [hphase] at h
    exact h
  · trivial

/-- Where nothing is stored, no call relies on the object. -/
theorem UploadCall.Agrees.reliesOnObject_of_none (h : c.Agrees site db₀ db none) :
    c.phase.reliesOnObject = false := by
  cases hphase : c.phase with
  | stored created =>
    simp only [UploadCall.Agrees, hphase] at h
    cases h
  | _ => rfl

theorem Unused.ne_addUpload (h : Unused site db₀ files₀) : db₀ ≠ addUpload site db₀ u := by
  intro heq
  have hnone := h.existingUpload_eq_none
  rw [heq, h.existingUpload_addUpload] at hnone
  cases hnone

/-- Before the first commit no call has found an upload, so every call agrees with the commit. -/
theorem UploadCall.Agrees.of_unused (h : Unused site db₀ files₀)
    (hc : c.Agrees site db₀ db₀ stored) : c.Agrees site db₀ db' stored := by
  unfold UploadCall.Agrees at hc ⊢
  split
  · rename_i hphase
    rw [hphase] at hc
    exact hc
  · rename_i hphase
    rw [hphase] at hc
    rcases hc with ⟨u, hu, _⟩
    exact absurd hu h.ne_addUpload
  · rename_i hphase
    rw [hphase] at hc
    rcases hc with ⟨u, hu, _⟩
    exact absurd hu h.ne_addUpload
  · trivial

/-- A found upload is the committed one. -/
theorem Consistent.of_existingUpload (h : Unused site db₀ files₀)
    (hs : Consistent site db₀ files₀ s) {existing : ExistingDocumentUpload}
    (he : existingUpload site s.stores.db = some existing) :
    ∃ u, s.stores.db = addUpload site db₀ u ∧ existing = newUpload site db₀ u ∧
      s.stores.stored site = some u.bytes := by
  rcases hs.tables with hdb | ⟨u, hdb, hstored⟩
  · rw [hdb, h.existingUpload_eq_none] at he
    cases he
  · rw [hdb, h.existingUpload_addUpload] at he
    exact ⟨u, hdb, (Option.some.inj he).symm, hstored⟩

/-- A step whose effect is one of `UploadEffect` keeps the invariant, under the guard. -/
theorem Consistent.effect (h : Unused site db₀ files₀) (hs : Consistent site db₀ files₀ s)
    (hc : s.calls[i]? = some c) (hok : KeepsObject site s (.step i act))
    (heffect : UploadEffect site i s.stores c.input c.phase act stores' phase') :
    Consistent site db₀ files₀ ⟨stores', s.calls.set i { c with phase := phase' }⟩ := by
  have hagrees := hs.calls c (List.mem_of_getElem? hc)
  -- what is left to say is that the call `c` agrees, and that the others still do
  have hcalls {db : Documents.Tables} {stored : Option Bytes}
      (hown : UploadCall.Agrees site db₀ db stored { c with phase := phase' })
      (hothers : ∀ (j : ℕ) (d : UploadCall), s.calls[j]? = some d → j ≠ i →
        d.Agrees site db₀ db stored) :
      ∀ d ∈ s.calls.set i { c with phase := phase' }, d.Agrees site db₀ db stored := by
    intro d hd
    rcases List.mem_iff_getElem?.mp hd with ⟨j, hj⟩
    rcases getElem?_set_cases hj with ⟨rfl, rfl⟩ | ⟨hne, hj⟩
    · exact hown
    · exact hothers j d hj hne.symm
  have hsame (j : ℕ) (d : UploadCall) (hd : s.calls[j]? = some d) (_ : j ≠ i) :
      d.Agrees site db₀ s.stores.db (s.stores.stored site) :=
    hs.calls d (List.mem_of_getElem? hd)
  cases heffect with
  | stay => exact ⟨hs.tables, hcalls hagrees hsame, hs.files⟩
  | goOn hneutral =>
    exact ⟨hs.tables, hcalls (UploadCall.agrees_of_isNeutral hneutral) hsame, hs.files⟩
  | find he hreusable =>
    rcases hs.of_existingUpload h he with ⟨u, hdb, rfl, _⟩
    simp only [assertReusable, bind_eq_ok, ensure_eq_ok] at hreusable
    rcases hreusable with ⟨_, hhash, _⟩
    exact ⟨hs.tables, hcalls ⟨u, hdb, rfl, Option.some.inj hhash⟩ hsame, hs.files⟩
  | replay hphase =>
    simp only [UploadCall.Agrees, hphase] at hagrees
    rcases hagrees with ⟨u, hdb, rfl, hhash⟩
    exact ⟨hs.tables, hcalls ⟨u, hdb, rfl, hhash⟩ hsame, hs.files⟩
  | verify hstored => exact ⟨hs.tables, hcalls hstored hsame, hs.files⟩
  | create hnone =>
    have hstored : s.stores.stored site = none := by rw [UploadStores.stored, hnone]; rfl
    refine ⟨?_, hcalls trivial fun j d hd hne => ?_, fun target ht => ?_⟩
    · rcases hs.tables with hdb | ⟨u, _, hu⟩
      · exact .inl hdb
      · rw [hstored] at hu
        cases hu
    · have hd' := hsame j d hd hne
      rw [hstored] at hd'
      exact hd'.of_not_relies hd'.reliesOnObject_of_none
    · rw [s.stores.files_setFile site _ ht]
      exact hs.files target ht
  | change hchanges hneutral =>
    obtain ⟨hnone, hrelies⟩ := hok c hc hchanges
    refine ⟨?_, hcalls (UploadCall.agrees_of_isNeutral hneutral) fun j d hd hne => ?_,
      fun target ht => ?_⟩
    · rcases hs.tables with hdb | ⟨u, hdb, _⟩
      · exact .inl hdb
      · rw [hdb, h.existingUpload_addUpload] at hnone
        cases hnone
    · have hlt : j < s.calls.length := (List.getElem?_eq_some_iff.mp hd).1
      exact (hsame j d hd hne).of_not_relies (hrelies j hlt hne d hd)
    · rw [s.stores.files_setFile site _ ht]
      exact hs.files target ht
  | commit hphase ht hphase' =>
    simp only [UploadCall.Agrees, hphase] at hagrees
    rcases hs.tables with hdb | ⟨u, hdb, hstored⟩
    · rw [hdb] at ht
      obtain ⟨rfl, rfl⟩ := h.transact_eq_ok ht
      refine ⟨.inr ⟨c.input, rfl, hagrees⟩, hcalls ?_ fun j d hd hne => ?_, hs.files⟩
      · rcases hphase' with rfl | hneutral
        · exact ⟨c.input, rfl, rfl, rfl⟩
        · exact UploadCall.agrees_of_isNeutral hneutral
      · have hd' := hsame j d hd hne
        rw [hdb] at hd'
        exact hd'.of_unused h
    · rw [hdb] at ht
      obtain ⟨rfl, rfl, hhash⟩ := h.transact_addUpload_eq_ok ht
      rw [hdb] at hsame
      refine ⟨.inr ⟨u, rfl, hstored⟩, hcalls ?_ hsame, hs.files⟩
      rcases hphase' with rfl | hneutral
      · exact ⟨u, rfl, rfl, hhash⟩
      · exact UploadCall.agrees_of_isNeutral hneutral

/-- **The step lemma.**  Every action under the guard keeps the invariant. -/
theorem Consistent.step (h : Unused site db₀ files₀) (hs : Consistent site db₀ files₀ s)
    {a : UploadAction} (hok : KeepsObject site s a) :
    Consistent site db₀ files₀ (s.step site a) := by
  cases a with
  | call input =>
    refine ⟨hs.tables, fun c hc => ?_, hs.files⟩
    rcases List.mem_append.mp hc with hc | hc
    · exact hs.calls c hc
    · rw [List.mem_singleton.mp hc]
      trivial
  | step i act =>
    simp only [UploadSys.step]
    split
    · exact hs
    · rename_i c hc
      exact hs.effect h hc hok (stepUpload_effect site i s.stores c.input c.phase act)

/-! ### What the invariant says -/

theorem Consistent.idempotent (h : Unused site db₀ files₀) (hs : Consistent site db₀ files₀ s) :
    Idempotent site db₀ files₀ s := by
  refine ⟨?_, hs.files, fun c hc document hphase => ?_⟩
  · rcases hs.tables with hdb | ⟨u, hdb, _⟩
    · refine ⟨[], [], [], ?_, by decide, by decide, by decide⟩
      rw [hdb, List.append_nil, List.append_nil, List.append_nil]
    · exact ⟨_, _, _, hdb, Nat.le_refl 1, Nat.le_refl 1, Nat.le_refl 1⟩
  · have hagrees := hs.calls c hc
    simp only [UploadCall.Agrees, hphase] at hagrees
    rcases hagrees with ⟨u, hdb, rfl, hhash⟩
    have he : existingUpload site s.stores.db = some (newUpload site db₀ u) := by
      rw [hdb, h.existingUpload_addUpload]
    rcases hs.of_existingUpload h he with ⟨v, hv, hnew, hstored⟩
    have hvu : site.uploadInputHash v = site.uploadInputHash u :=
      (Option.some.inj (congrArg (·.document.uploadInputHash) hnew)).symm
    refine ⟨_, he, rfl, congrArg some hhash, ?_⟩
    rw [← (UploadSite.uploadInputHash_inj (hvu.trans hhash)).2]
    exact hstored

/-- A document that a call has returned is that of its own input. -/
theorem Consistent.uploadInputHash_of_returned (h : Unused site db₀ files₀)
    (hs : Consistent site db₀ files₀ s) (hdb : s.stores.db = addUpload site db₀ u) (hc : c ∈ s.calls)
    {document : QuarantinedDocument} (hphase : c.phase = .returned document) :
    site.uploadInputHash u = site.uploadInputHash c.input := by
  rcases (hs.idempotent h).returned c hc document hphase with ⟨existing, he, _, hhash, _⟩
  rw [hdb, h.existingUpload_addUpload] at he
  obtain rfl := Option.some.inj he
  exact Option.some.inj hhash

theorem Consistent.differentUploadFails (h : Unused site db₀ files₀)
    (hs : Consistent site db₀ files₀ s) {a : UploadAction} (hok : KeepsObject site s a) :
    DifferentUploadFails site s a := by
  rintro i act c existing input rfl hc he hhash hne
  rcases hs.of_existingUpload h he with ⟨u, hdb, rfl, hstored⟩
  have hdiffer : site.uploadInputHash u ≠ site.uploadInputHash c.input := by
    intro heq
    exact hne (UploadSite.uploadInputHash_inj ((Option.some.inj hhash).symm.trans heq)).1
  have hstep : s.step site (.step i act) =
      ⟨(stepUpload site i s.stores c.input c.phase act).1, s.calls.set i
        { c with phase := (stepUpload site i s.stores c.input c.phase act).2 }⟩ := by
    simp only [UploadSys.step, hc]
  have hstores : (s.step site (.step i act)).stores = s.stores := by
    rw [hstep]
    have heffect := stepUpload_effect site i s.stores c.input c.phase act
    generalize stepUpload site i s.stores c.input c.phase act = result at heffect
    rcases result with ⟨stores', phase'⟩
    cases heffect with
    | stay | goOn | find | replay | verify => rfl
    | create hnone =>
      rw [UploadStores.stored, hnone] at hstored
      cases hstored
    | change hchanges =>
      have hnone := (hok c hc hchanges).1
      rw [he] at hnone
      cases hnone
    | commit _ ht =>
      rw [hdb] at ht
      exact absurd (h.transact_addUpload_eq_ok ht).2.2 hdiffer
  refine ⟨hstores, fun c' hc' document hphase => ?_⟩
  have hs' := hs.step h hok
  have hinput : c'.input = c.input := by
    rw [hstep, List.getElem?_set_self (List.getElem?_eq_some_iff.mp hc).1] at hc'
    rw [← Option.some.inj hc']
  refine hdiffer ((hs'.uploadInputHash_of_returned h ?_ (List.mem_of_getElem? hc') hphase).trans ?_)
  · rw [hstores, hdb]
  · rw [hinput]

end

/-- **One upload for each key.**  Along every run in which a call changes the object only while no
    upload of the key is committed and no other call relies on the stored bytes, the key makes one
    document at most, every call that has returned has returned that document with its own bytes
    stored, and a call with another input changes nothing. -/
theorem uploads_idempotent (site : UploadSite) (db₀ : Documents.Tables) (files₀ : Files)
    (h : Unused site db₀ files₀) (l : List UploadAction)
    (hl : TraceOk (UploadSys.step site) (KeepsObject site) ⟨⟨db₀, files₀⟩, []⟩ l) :
    (∀ n, Idempotent site db₀ files₀
      ((l.take n).foldl (UploadSys.step site) ⟨⟨db₀, files₀⟩, []⟩)) ∧
      ∀ (n : ℕ) (a : UploadAction), l[n]? = some a →
        DifferentUploadFails site
          ((l.take n).foldl (UploadSys.step site) ⟨⟨db₀, files₀⟩, []⟩) a := by
  have hconsistent (n : ℕ) : Consistent site db₀ files₀
      ((l.take n).foldl (UploadSys.step site) ⟨⟨db₀, files₀⟩, []⟩) := by
    refine (Reach.ofTrace (hl.take n)).invariant ⟨.inl rfl, fun c hc => ?_, fun _ _ => rfl⟩
      fun s a hs hok => hs.step h hok
    cases hc
  refine ⟨fun n => (hconsistent n).idempotent h, fun n a ha => ?_⟩
  exact (hconsistent n).differentUploadFails h (hl.getElem ha)

/-! ### The race -/

/-- The code of a content type. -/
def contentTypeCode : ContentType → ℕ × ℕ
  | .pdf => (0, 0)
  | .docx => (1, 0)
  | .json => (2, 0)
  | .csv => (3, 0)
  | .markdown => (4, 0)
  | .plain => (5, 0)
  | .html => (6, 0)
  | .other name => (7, name)

theorem contentTypeCode_injective : Function.Injective contentTypeCode := by
  intro t t' h
  cases t <;> cases t' <;> simp_all [contentTypeCode]

/-- Hash functions that tell everything apart. -/
def exampleHashing : UploadHashing where
  sha256Hex bytes := Encodable.encode (bytes.map UInt8.toNat)
  deterministicUploadUuid _ _ _ := 0
  uploadInputHash x := Encodable.encode (x.projectId, x.sha256, x.originalFilename, x.safeFilename,
    contentTypeCode x.mimeType, x.source)
  sha256Hex_injective := Encodable.encode_injective.comp
    (List.map_injective_iff.mpr fun _ _ h => UInt8.toNat_inj.mp h)
  uploadInputHash_injective := by
    rintro ⟨p, s, o, f, m, x⟩ ⟨p', s', o', f', m', x'⟩ h
    have h' := Encodable.encode_injective h
    simp only [Prod.mk.injEq] at h'
    obtain ⟨rfl, rfl, rfl, rfl, hm, rfl⟩ := h'
    rw [contentTypeCode_injective hm]

/-- A project with an empty catalog and a local storage. -/
def exampleSite : UploadSite where
  hashing := exampleHashing
  projectId := 0
  idempotencyKey := 0
  provider := .localFiles
  bucket := 0
  maxReadBytes := 100

/-- The tables with the project. -/
def exampleTables : Documents.Tables := { Documents.Tables.initial with projectCount := 1 }

/-- A text of two bytes. -/
def exampleInput : UploadInput where
  bytes := [104, 105]
  originalFilename := 0
  safeFilename := 0
  mimeType := .plain
  source := 0
  bucket := some 0
  maxBytes := 100

/-- The first call stores the object and its transaction fails; the second one adopts the object
    and commits between the look into the catalog and the deletion. -/
def compensationRace : List UploadAction :=
  [.call exampleInput, .step 0 .lookup, .step 0 .preflight, .step 0 .put, .step 0 (.writeFile 2),
    .step 0 .verify, .call exampleInput, .step 1 .lookup, .step 1 .preflight, .step 1 .put,
    .step 1 .read, .step 0 .abort, .step 0 (.reconcile true), .step 1 (.commit true),
    .step 0 (.unlink true)]

theorem exampleTables_unused : Unused exampleSite exampleTables fun _ => none :=
  ⟨fun _ h => (by cases h), fun _ h => (by cases h), rfl⟩

/-- The second call adopts the object and commits first; the first one is told that its transaction
    found the document. -/
def adoptionRun : List UploadAction :=
  [.call exampleInput, .step 0 .lookup, .step 0 .preflight, .step 0 .put, .step 0 (.writeFile 2),
    .step 0 .verify, .call exampleInput, .step 1 .lookup, .step 1 .preflight, .step 1 .put,
    .step 1 .read, .step 1 (.commit true), .step 0 (.commit true)]

theorem uploads_idempotent_adopted :
    TraceOk (UploadSys.step exampleSite) (KeepsObject exampleSite)
        ⟨⟨exampleTables, fun _ => none⟩, []⟩ adoptionRun ∧
      Idempotent exampleSite exampleTables (fun _ => none)
        ((adoptionRun.take 13).foldl (UploadSys.step exampleSite)
          ⟨⟨exampleTables, fun _ => none⟩, []⟩) :=
  ⟨by decide +kernel, (uploads_idempotent exampleSite exampleTables (fun _ => none)
    exampleTables_unused adoptionRun (by decide +kernel)).1 13⟩

/-- What the second call returns. -/
def raceDocument : QuarantinedDocument :=
  (newUpload exampleSite exampleTables exampleInput).result

/-- **The race.**  Two calls with the same input; the second one returns a document whose object the
    first one then deletes. -/
theorem compensation_deletes_adopted_object :
    ¬ ∀ (site : UploadSite) (db₀ : Documents.Tables) (files₀ : Files), Unused site db₀ files₀ →
      ∀ (l : List UploadAction) (n : ℕ), Idempotent site db₀ files₀
        ((l.take n).foldl (UploadSys.step site) ⟨⟨db₀, files₀⟩, []⟩) := by
  intro hall
  have h := (hall exampleSite exampleTables (fun _ => none) exampleTables_unused compensationRace
    15).returned
  have hreturned : ⟨exampleInput, .returned raceDocument⟩ ∈
      ((compensationRace.take 15).foldl (UploadSys.step exampleSite)
        ⟨⟨exampleTables, fun _ => none⟩, []⟩).calls := by decide +kernel
  rcases h _ hreturned raceDocument rfl with ⟨_, _, _, _, hbytes⟩
  revert hbytes
  decide +kernel

end ResearchWorkbench.Uploads
