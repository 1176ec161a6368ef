import ResearchWorkbench.Library.Transition
import ResearchWorkbench.Documents.Gate

namespace ResearchWorkbench.Documents

/-!
# The malware gate

Whatever calls interleave, a document is extracted only after its raw object was scanned clean, or
after a bypass that a process outside production recorded; and no production call extracts a
document on the strength of a bypass.

* `MalwareGate` — the property;
* `Touches db db' i` — what a transaction about document `i` may do to the tables;
* `GateOk` — the invariant: cleared documents have passed, and what a call has read is still so;
* `GateSys.step_gateOk` — the step lemma;
* `malware_gate` — the property of every reachable state.
-/

variable {hashing : Hashing} {s s' : GateSys} {db db' : Tables} {log log' : List GateEvent}
  {i j : ℕ} {d d' : DocumentRow} {o o' : StorageObjectRow} {rows : List StorageObjectRow}

/-! ### The property -/

/-- A scan of the document's raw object, of that hash, found nothing. -/
def ScannedClean (db : Tables) (documentId objectId sha256 : ℕ) : Prop :=
  ∃ r ∈ db.scanResults, r.documentId = documentId ∧ r.objectId = objectId ∧
    r.objectSha256 = sha256 ∧ r.result = .clean

/-- The bytes were extracted from the document after its raw object, of their hash, was scanned
    clean. -/
def BytesScanned (hashing : Hashing) (db : Tables) (documentId : ℕ) (bytes : Bytes) : Prop :=
  ∃ d, db.documents[documentId]? = some d ∧
    ScannedClean db documentId d.rawObjectId (hashing.sha256Hex bytes)

/-- The document's raw object was scanned clean, under the hash its row has. -/
def ObjectScanned (db : Tables) (documentId : ℕ) : Prop :=
  ∃ d o sha256, db.documents[documentId]? = some d ∧
    findObject d.rawObjectId db.objects = some o ∧ o.sha256 = some sha256 ∧
      ScannedClean db documentId d.rawObjectId sha256

/-- **The malware gate.** -/
structure MalwareGate (hashing : Hashing) (s : GateSys) : Prop where
  /-- Documents being extracted, and extracted ones. -/
  processing : ∀ (i : ℕ) (d : DocumentRow), s.db.documents[i]? = some d →
    d.status ∈ [.extracting, .ready] →
      ObjectScanned s.db i ∨ d.scanBypassed = true ∧ .bypassed i false ∈ s.log
  /-- A document that is `READY` has been extracted from some bytes. -/
  ready : ∀ (i : ℕ) (d : DocumentRow), s.db.documents[i]? = some d → d.status = .ready →
    ∃ production bytes, .extracted i production bytes ∈ s.log
  /-- Every extraction, by the very bytes that were extracted. -/
  extracted : ∀ (i : ℕ) (production : Option Bool) (bytes : Bytes),
    .extracted i production bytes ∈ s.log → BytesScanned hashing s.db i bytes ∨
      production = some false ∧ .bypassed i false ∈ s.log
  /-- Every text that reached a source, be it copied from another source. -/
  content : ∀ source ∈ s.db.sources, ∀ text ∈ source.sanitizedContent,
    ∀ p ∈ text.extractedFrom, BytesScanned hashing s.db p.1 p.2 ∨ .bypassed p.1 false ∈ s.log
  /-- Every extraction that was begun. -/
  begun : ∀ (i : ℕ) (production : Option Bool), .extractionBegun i production ∈ s.log →
    ObjectScanned s.db i ∨ production = some false ∧ .bypassed i false ∈ s.log
  /-- Bypasses are recorded outside production only. -/
  bypassed : ∀ (i : ℕ) (production : Bool), .bypassed i production ∈ s.log → production = false

/-! ### What a transaction does to the tables -/

/-- Objects that were found are found, with the same hash and the same verdict. -/
def ObjectsKept (objects objects' : List StorageObjectRow) : Prop :=
  ∀ id o, findObject id objects = some o → ∃ o', findObject id objects' = some o' ∧
    o'.sha256 = o.sha256 ∧ o'.scanStatus = o.scanStatus

/-- A transaction about document `i`: the other documents stay as they are, and so do the hashes of
    all objects and the verdicts on all but the document's. -/
structure Touches (db db' : Tables) (i : ℕ) : Prop where
  others : ∀ (j : ℕ) (d : DocumentRow), j ≠ i → db'.documents[j]? = some d →
    db.documents[j]? = some d
  kept : ∀ (j : ℕ) (d : DocumentRow), db.documents[j]? = some d →
    ∃ d', db'.documents[j]? = some d' ∧ d'.rawObjectId = d.rawObjectId
  raw : ∀ d' : DocumentRow, db'.documents[i]? = some d' →
    (∃ d, db.documents[i]? = some d ∧ d'.rawObjectId = d.rawObjectId) ∨
      findObject d'.rawObjectId db.objects = none
  objects : ∀ id o, findObject id db.objects = some o →
    ∃ o', findObject id db'.objects = some o' ∧ o'.sha256 = o.sha256 ∧
      (o'.scanStatus = o.scanStatus ∨ ∃ d, db.documents[i]? = some d ∧ d.rawObjectId = id)
  scanResults : ∀ r ∈ db.scanResults, r ∈ db'.scanResults

theorem ObjectsKept.refl (rows : List StorageObjectRow) : ObjectsKept rows rows :=
  fun _ o h => ⟨o, h, rfl, rfl⟩

theorem ObjectsKept.trans {rows' rows'' : List StorageObjectRow}
    (h : ObjectsKept rows rows') (h' : ObjectsKept rows' rows'') :
    ObjectsKept rows rows'' := by
  intro id o ho
  obtain ⟨o', ho', hsha, hscan⟩ := h id o ho
  obtain ⟨o'', ho'', hsha', hscan'⟩ := h' id o' ho'
  exact ⟨o'', ho'', hsha'.trans hsha, hscan'.trans hscan⟩

/-- An update of other columns. -/
theorem ObjectsKept.update {p : StorageObjectRow → Bool}
    {f : StorageObjectRow → StorageObjectRow} (hid : ∀ o, (f o).id = o.id)
    (hsha : ∀ o, (f o).sha256 = o.sha256) (hscan : ∀ o, (f o).scanStatus = o.scanStatus)
    (rows : List StorageObjectRow) : ObjectsKept rows (updateObjects p f rows) := by
  intro id o ho
  refine ⟨if p o then f o else o, by rw [findObject_updateObjects hid, ho]; rfl, ?_, ?_⟩
  · split
    · exact hsha o
    · rfl
  · split
    · exact hscan o
    · rfl

/-- The verdict on one object changes. -/
theorem ObjectsKept.setVerdict {rows' : List StorageObjectRow} (h : ObjectsKept rows rows')
    (raw : ℕ) (status : MalwareScanStatus) {id : ℕ} (ho : findObject id rows = some o) :
    ∃ o', findObject id
        (updateObjects (·.id = raw) (fun o => { o with scanStatus := status }) rows') = some o' ∧
      o'.sha256 = o.sha256 ∧
      (id = raw ∧ o'.scanStatus = status ∨ id ≠ raw ∧ o'.scanStatus = o.scanStatus) := by
  obtain ⟨o', ho', hsha, hscan⟩ := h id o ho
  obtain ⟨_, hid⟩ := findObject_eq_some ho'
  rw [findObject_updateObjects (f := fun o => { o with scanStatus := status }) (fun _ => rfl), ho',
    Option.map_some]
  refine ⟨_, rfl, ?_⟩
  by_cases hraw : id = raw
  · rw [if_pos (by simpa [hid] using hraw)]
    exact ⟨hsha, .inl ⟨hraw, rfl⟩⟩
  · rw [if_neg (by simpa [hid] using hraw)]
    exact ⟨hsha, .inr ⟨hraw, hscan⟩⟩

theorem ObjectsKept.insertIfNew {row : StorageObjectRow} {rows' : List StorageObjectRow}
    (h : insertObjectIfNew row rows = .ok rows') : ObjectsKept rows rows' := by
  obtain rfl | ⟨_, _, rfl⟩ := insertObjectIfNew_eq_ok h
  · exact .refl _
  · exact fun id o ho => ⟨o, findObject_append ho _, rfl, rfl⟩

theorem ObjectsKept.catalogClean {clean : PreparedCleanSourceObject} {locked : LockedDocument}
    {rows' : List StorageObjectRow}
    (h : catalogCleanSourceObject rows clean locked = .ok rows') :
    ObjectsKept rows rows' := by
  simp only [catalogCleanSourceObject, bind_eq_ok, pure_eq_ok] at h
  obtain ⟨_, hinsert, _, _, _, _, rfl⟩ := h
  exact .insertIfNew hinsert

theorem ObjectsKept.catalogIfClean {clean : Option PreparedCleanSourceObject}
    {locked : LockedDocument} {rows' : List StorageObjectRow}
    (h : catalogIfClean rows clean locked = .ok rows') : ObjectsKept rows rows' := by
  cases clean with
  | none => exact Except.ok.inj h ▸ .refl rows
  | some clean => exact .catalogClean h

theorem ObjectsKept.catalogArtifact {artifact : PreparedExtractionArtifact}
    {locked : LockedDocument} {rows' : List StorageObjectRow}
    (h : catalogExtractionArtifact rows artifact locked = .ok rows') :
    ObjectsKept rows rows' := by
  simp only [catalogExtractionArtifact, bind_eq_ok, pure_eq_ok] at h
  obtain ⟨_, hinsert, _, _, _, _, rfl⟩ := h
  exact .insertIfNew hinsert

/-- Documents and verdicts stay as they are. -/
theorem Touches.ofKept (hdocuments : db'.documents = db.documents)
    (hobjects : ObjectsKept db.objects db'.objects) (hscans : db'.scanResults = db.scanResults)
    (i : ℕ) : Touches db db' i where
  others j d _ h := hdocuments ▸ h
  kept j d h := ⟨d, hdocuments ▸ h, rfl⟩
  raw d' h := .inl ⟨d', hdocuments ▸ h, rfl⟩
  objects id o h := by
    obtain ⟨o', ho', hsha, hscan⟩ := hobjects id o h
    exact ⟨o', ho', hsha, .inl hscan⟩
  scanResults r h := hscans ▸ h

/-- One document changes, and not its raw object. -/
theorem Touches.modify {f : DocumentRow → DocumentRow}
    (hf : ∀ d, (f d).rawObjectId = d.rawObjectId)
    (hdocuments : db'.documents = db.documents.modify i f)
    (hobjects : ∀ id o, findObject id db.objects = some o →
      ∃ o', findObject id db'.objects = some o' ∧ o'.sha256 = o.sha256 ∧
        (o'.scanStatus = o.scanStatus ∨ ∃ d, db.documents[i]? = some d ∧ d.rawObjectId = id))
    (hscans : ∀ r ∈ db.scanResults, r ∈ db'.scanResults) : Touches db db' i where
  others j d hj h := by rwa [hdocuments, getElem?_modify_ne (Ne.symm hj)] at h
  kept j d h := by
    by_cases hj : i = j
    · subst hj
      exact ⟨f d, by rw [hdocuments, getElem?_modify_eq h], hf d⟩
    · exact ⟨d, by rw [hdocuments, getElem?_modify_ne hj, h], rfl⟩
  raw d' h := by
    rw [hdocuments, List.getElem?_modify_eq, Option.map_eq_map, Option.map_eq_some_iff] at h
    obtain ⟨d, hd, rfl⟩ := h
    exact .inl ⟨d, hd, hf d⟩
  objects := hobjects
  scanResults := hscans

/-- One document changes, and no verdict. -/
theorem Touches.mark {f : DocumentRow → DocumentRow}
    (hf : ∀ d, (f d).rawObjectId = d.rawObjectId)
    (hdocuments : db'.documents = db.documents.modify i f)
    (hobjects : ObjectsKept db.objects db'.objects) (hscans : db'.scanResults = db.scanResults) :
    Touches db db' i := by
  refine .modify hf hdocuments (fun id o ho => ?_) fun r hr => hscans ▸ hr
  obtain ⟨o', ho', hsha, hscan⟩ := hobjects id o ho
  exact ⟨o', ho', hsha, .inl hscan⟩

/-! ### The invariant -/

/-- A document that a scan let through: it was clean, or the scan was bypassed outside
    production. -/
def Passed (db : Tables) (log : List GateEvent) (i : ℕ) (d : DocumentRow) (o : StorageObjectRow) :
    Prop :=
  o.scanStatus = .clean ∧ (∃ sha256, o.sha256 = some sha256 ∧
      ScannedClean db i d.rawObjectId sha256) ∨
    o.scanStatus ≠ .clean ∧ d.scanBypassed = true ∧ .bypassed i false ∈ log

/-- What is kept of document `i`. -/
def DocumentOk (db : Tables) (log : List GateEvent) (i : ℕ) (d : DocumentRow) : Prop :=
  ∃ o, findObject d.rawObjectId db.objects = some o ∧
    (d.status.isCleared → Passed db log i d o) ∧
    (d.status = .ready → ∃ production bytes, .extracted i production bytes ∈ log)

/-- What a call has read of its document is still so. -/
def SnapshotOk (db : Tables) (i : ℕ) (locked : LockedDocument) : Prop :=
  ∃ d o, db.documents[i]? = some d ∧ d.rawObjectId = locked.document.rawObjectId ∧
    findObject d.rawObjectId db.objects = some o ∧ o.sha256 = locked.object.sha256

/-- What is kept of a call. -/
def CallOk (hashing : Hashing) (db : Tables) : DocumentCall → Prop
  | .scan request (.begun snapshot) => SnapshotOk db request.documentId snapshot
  | .scan request (.scanned snapshot scan _) => SnapshotOk db request.documentId snapshot ∧
      (scan.status = .clean → snapshot.object.sha256 = some scan.objectSha256)
  | .extract request (.begun started) => SnapshotOk db request.documentId started.locked ∧
      (request.production ≠ some false → ObjectScanned db request.documentId)
  | .extract request (.extracted started bytes _) =>
      SnapshotOk db request.documentId started.locked ∧
      (request.production ≠ some false → ObjectScanned db request.documentId) ∧
      ∀ sha256 ∈ started.locked.object.sha256, hashing.sha256Hex bytes = sha256
  | _ => True

/-- What is kept of an event. -/
def EventOk (hashing : Hashing) (db : Tables) (log : List GateEvent) : GateEvent → Prop
  | .bypassed _ production => production = false
  | .extractionBegun i production =>
      ObjectScanned db i ∨ production = some false ∧ .bypassed i false ∈ log
  | .extracted i production bytes =>
      BytesScanned hashing db i bytes ∨ production = some false ∧ .bypassed i false ∈ log

/-- What is kept of a source. -/
def SourceOk (hashing : Hashing) (db : Tables) (log : List GateEvent) (source : SourceRow) : Prop :=
  ∀ text ∈ source.sanitizedContent, ∀ p ∈ text.extractedFrom,
    BytesScanned hashing db p.1 p.2 ∨ .bypassed p.1 false ∈ log

/-- The invariant. -/
structure GateOk (hashing : Hashing) (s : GateSys) : Prop where
  documents : ∀ (i : ℕ) (d : DocumentRow), s.db.documents[i]? = some d → DocumentOk s.db s.log i d
  rawUnique : ∀ (i j : ℕ) (d d' : DocumentRow), s.db.documents[i]? = some d →
    s.db.documents[j]? = some d' → d.rawObjectId = d'.rawObjectId → i = j
  calls : ∀ call ∈ s.calls, CallOk hashing s.db call
  sources : ∀ source ∈ s.db.sources, SourceOk hashing s.db s.log source
  log : ∀ e ∈ s.log, EventOk hashing s.db s.log e

/-! ### What stays true -/

theorem ScannedClean.grow {objectId sha256 : ℕ} (h : ScannedClean db j objectId sha256)
    (ht : Touches db db' i) : ScannedClean db' j objectId sha256 := by
  obtain ⟨r, hr, hclean⟩ := h
  exact ⟨r, ht.scanResults r hr, hclean⟩

theorem BytesScanned.grow {bytes : Bytes} (h : BytesScanned hashing db j bytes)
    (ht : Touches db db' i) : BytesScanned hashing db' j bytes := by
  obtain ⟨d, hd, hclean⟩ := h
  obtain ⟨d', hd', hraw⟩ := ht.kept j d hd
  exact ⟨d', hd', hraw ▸ hclean.grow ht⟩

theorem ObjectScanned.grow (h : ObjectScanned db j) (ht : Touches db db' i) :
    ObjectScanned db' j := by
  obtain ⟨d, o, sha256, hd, ho, hsha, hclean⟩ := h
  obtain ⟨d', hd', hraw⟩ := ht.kept j d hd
  obtain ⟨o', ho', hsha', _⟩ := ht.objects _ _ ho
  exact ⟨d', o', sha256, hd', hraw ▸ ho', hsha'.trans hsha, hraw ▸ hclean.grow ht⟩

theorem SnapshotOk.grow {locked : LockedDocument} (h : SnapshotOk db j locked)
    (ht : Touches db db' i) : SnapshotOk db' j locked := by
  obtain ⟨d, o, hd, hraw, ho, hsha⟩ := h
  obtain ⟨d', hd', hraw'⟩ := ht.kept j d hd
  obtain ⟨o', ho', hsha', _⟩ := ht.objects _ _ ho
  exact ⟨d', o', hd', hraw'.trans hraw, hraw' ▸ ho', hsha'.trans hsha⟩

theorem CallOk.grow {call : DocumentCall} (h : CallOk hashing db call) (ht : Touches db db' i) :
    CallOk hashing db' call := by
  match call with
  | .scan _ (.begun _) => exact SnapshotOk.grow h ht
  | .scan _ (.scanned ..) => exact ⟨h.1.grow ht, h.2⟩
  | .scan _ .ended => trivial
  | .extract _ (.begun _) => exact ⟨h.1.grow ht, fun hp => (h.2 hp).grow ht⟩
  | .extract _ (.extracted ..) => exact ⟨h.1.grow ht, fun hp => (h.2.1 hp).grow ht, h.2.2⟩
  | .extract _ (.failing _) => trivial
  | .extract _ .ended => trivial

theorem EventOk.grow {e : GateEvent} (h : EventOk hashing db log e) (ht : Touches db db' i)
    (hlog : ∀ e ∈ log, e ∈ log') : EventOk hashing db' log' e := by
  match e with
  | .bypassed .. => exact h
  | .extractionBegun .. =>
    exact Or.imp (fun h => h.grow ht) (fun h => ⟨h.1, hlog _ h.2⟩) h
  | .extracted .. =>
    exact Or.imp (fun h => h.grow ht) (fun h => ⟨h.1, hlog _ h.2⟩) h

/-- No text of the source was extracted, but what some source had before. -/
def OldTexts (sources : List SourceRow) (source : SourceRow) : Prop :=
  ∀ text ∈ source.sanitizedContent, ∀ p ∈ text.extractedFrom,
    ∃ old ∈ sources, ∃ t ∈ old.sanitizedContent, p ∈ t.extractedFrom

theorem SourceOk.ofOldTexts {source : SourceRow} (h : OldTexts db.sources source)
    (hsources : ∀ source ∈ db.sources, SourceOk hashing db log source) (ht : Touches db db' i)
    (hlog : ∀ e ∈ log, e ∈ log') : SourceOk hashing db' log' source := by
  intro text htext p hp
  obtain ⟨old, hold, t, ht', hp'⟩ := h text htext p hp
  exact (hsources old hold t ht' p hp').imp (fun h => h.grow ht) fun h => hlog _ h

theorem oldTexts_of_mem {sources : List SourceRow} {source : SourceRow} (h : source ∈ sources) :
    OldTexts sources source :=
  fun text htext _ hp => ⟨source, h, text, htext, hp⟩

/-- An update of sources that adds no text. -/
theorem oldTexts_of_mem_modify {k : ℕ} {f : SourceRow → SourceRow}
    (hf : ∀ source, ∀ text ∈ (f source).sanitizedContent, text ∈ source.sanitizedContent)
    {sources : List SourceRow} {source : SourceRow} (h : source ∈ sources.modify k f) :
    OldTexts sources source := by
  obtain ⟨n, hn⟩ := List.mem_iff_getElem?.mp h
  rw [List.getElem?_modify] at hn
  obtain ⟨old, hold, rfl⟩ := Option.map_eq_some_iff.mp hn
  have hmem := List.mem_of_getElem? hold
  intro text htext p hp
  refine ⟨old, hmem, text, ?_, hp⟩
  split at htext
  · exact hf old text htext
  · exact htext

/-- A source without extracted text is added. -/
theorem oldTexts_of_mem_append {sources : List SourceRow} {added source : SourceRow}
    (h : source ∈ sources ++ [added]) (hadded : OldTexts sources added) :
    OldTexts sources source := by
  obtain h | h := List.mem_append.mp h
  · exact oldTexts_of_mem h
  · exact List.mem_singleton.mp h ▸ hadded

/-- A document whose raw object keeps its verdict. -/
theorem DocumentOk.grow (h : DocumentOk db log j d) (ht : Touches db db' i)
    (hscan : ∀ o o', findObject d.rawObjectId db.objects = some o →
      findObject d.rawObjectId db'.objects = some o' → o'.scanStatus = o.scanStatus)
    (hlog : ∀ e ∈ log, e ∈ log') : DocumentOk db' log' j d := by
  obtain ⟨o, ho, hpassed, hready⟩ := h
  obtain ⟨o', ho', hsha, _⟩ := ht.objects _ _ ho
  refine ⟨o', ho', fun hc => ?_, fun hr => ?_⟩
  · unfold Passed
    rw [hscan o o' ho ho', hsha]
    refine (hpassed hc).imp (fun h => ⟨h.1, ?_⟩) fun h => ⟨h.1, h.2.1, hlog _ h.2.2⟩
    obtain ⟨sha256, heq, hclean⟩ := h.2
    exact ⟨sha256, heq, hclean.grow ht⟩
  · obtain ⟨production, bytes, h⟩ := hready hr
    exact ⟨production, bytes, hlog _ h⟩

/-- A document that the transaction is not about. -/
theorem DocumentOk.growOther (h : DocumentOk db log j d) (ht : Touches db db' i)
    (hraw : ∀ d', db.documents[i]? = some d' → d.rawObjectId ≠ d'.rawObjectId)
    (hlog : ∀ e ∈ log, e ∈ log') : DocumentOk db' log' j d := by
  refine h.grow ht (fun o o' ho ho' => ?_) hlog
  obtain ⟨o'', ho'', _, hscan⟩ := ht.objects _ _ ho
  obtain rfl : o'' = o' := Option.some.inj (ho''.symm.trans ho')
  exact hscan.resolve_right fun ⟨d', hd', hr⟩ => hraw d' hd' hr.symm

/-- The document is as before, and so are all verdicts. -/
theorem DocumentOk.ofKept (h : DocumentOk db log j d) (ht : Touches db db' i)
    (hobjects : ObjectsKept db.objects db'.objects) (hlog : ∀ e ∈ log, e ∈ log') :
    DocumentOk db' log' j d := by
  refine h.grow ht (fun o o' ho ho' => ?_) hlog
  obtain ⟨o'', ho'', _, hscan⟩ := hobjects _ _ ho
  obtain rfl : o'' = o' := Option.some.inj (ho''.symm.trans ho')
  exact hscan

/-- **Transactions.**  A transaction about document `i` keeps the invariant if the document, the
    changed sources and the recorded events are in order after it. -/
theorem GateOk.transact (h : GateOk hashing s) {calls : List DocumentCall}
    (ht : Touches s.db db' i) (hlog : ∀ e ∈ s.log, e ∈ log')
    (hdocument : ∀ d, db'.documents[i]? = some d → DocumentOk db' log' i d)
    (hcalls : ∀ call ∈ calls, call ∈ s.calls ∨ CallOk hashing db' call)
    (hsources : ∀ source ∈ db'.sources, OldTexts s.db.sources source ∨ SourceOk hashing db' log' source)
    (hevents : ∀ e ∈ log', e ∈ s.log ∨ EventOk hashing db' log' e) :
    GateOk hashing ⟨db', calls, log'⟩ where
  documents j d hd := by
    by_cases hj : j = i
    · subst hj
      exact hdocument d hd
    · have hold := ht.others j d hj hd
      refine (h.documents j d hold).growOther ht (fun d' hd' heq => hj ?_) hlog
      exact h.rawUnique j i d d' hold hd' heq
  rawUnique j k d d' hd hd' heq := by
    have hnew {j k : ℕ} {d d' : DocumentRow} (hj : j ≠ i) (hk : k = i)
        (hd : db'.documents[j]? = some d) (hd' : db'.documents[k]? = some d')
        (heq : d.rawObjectId = d'.rawObjectId) : False := by
      subst hk
      have hold := ht.others j d hj hd
      obtain ⟨e, he, hraw⟩ | hnone := ht.raw d' hd'
      · exact hj (h.rawUnique j _ d e hold he (heq.trans hraw))
      · obtain ⟨o, ho, _⟩ := h.documents j d hold
        rw [heq, hnone] at ho
        cases ho
    by_cases hj : j = i <;> by_cases hk : k = i
    · rw [hj, hk]
    · exact (hnew hk hj hd' hd heq.symm).elim
    · exact (hnew hj hk hd hd' heq).elim
    · exact h.rawUnique j k d d' (ht.others j d hj hd) (ht.others k d' hk hd') heq
  calls call hcall := (hcalls call hcall).elim (fun hc => (h.calls call hc).grow ht) id
  sources source hsource :=
    (hsources source hsource).elim (fun hold => .ofOldTexts hold h.sources ht hlog) id
  log e he := (hevents e he).elim (fun ho => (h.log e ho).grow ht hlog) id

/-- A transaction that keeps all documents and all verdicts. -/
theorem GateOk.keep (h : GateOk hashing s) (hdocuments : db'.documents = s.db.documents)
    (hobjects : ObjectsKept s.db.objects db'.objects) (hscans : db'.scanResults = s.db.scanResults)
    (hsources : ∀ source ∈ db'.sources, OldTexts s.db.sources source) :
    GateOk hashing { s with db := db' } := by
  have ht := Touches.ofKept hdocuments hobjects hscans 0
  refine h.transact ht (fun _ => id) (fun d hd => ?_) (fun _ => .inl)
    (fun source hs => .inl (hsources source hs)) fun _ => .inl
  exact (h.documents 0 d (hdocuments ▸ hd)).ofKept ht hobjects fun _ => id

/-- A document moves to a status that it may have: past the scan only if it was there before. -/
theorem DocumentOk.mark (h : DocumentOk db log i d) (ht : Touches db db' i)
    (hobjects : ObjectsKept db.objects db'.objects) (hlog : ∀ e ∈ log, e ∈ log')
    (hraw : d'.rawObjectId = d.rawObjectId) (hcleared : d'.status.isCleared → d.status.isCleared)
    (hbypassed : d'.scanBypassed = d.scanBypassed)
    (hready : d'.status = .ready → ∃ production bytes, .extracted i production bytes ∈ log') :
    DocumentOk db' log' i d' := by
  obtain ⟨o, ho, hpassed, _⟩ := h.ofKept ht hobjects hlog
  refine ⟨o, hraw ▸ ho, fun hc => ?_, hready⟩
  unfold Passed
  rw [hraw, hbypassed]
  exact hpassed (hcleared hc)

/-- A transaction that moves document `i` to such a status, and keeps all verdicts. -/
theorem GateOk.mark (h : GateOk hashing s) {f : DocumentRow → DocumentRow}
    {calls : List DocumentCall} (hd : s.db.documents[i]? = some d)
    (hraw : ∀ d, (f d).rawObjectId = d.rawObjectId)
    (hcleared : (f d).status.isCleared → d.status.isCleared)
    (hbypassed : (f d).scanBypassed = d.scanBypassed)
    (hready : (f d).status = .ready → ∃ production bytes, .extracted i production bytes ∈ log')
    (hdocuments : db'.documents = s.db.documents.modify i f)
    (hobjects : ObjectsKept s.db.objects db'.objects) (hscans : db'.scanResults = s.db.scanResults)
    (hlog : ∀ e ∈ s.log, e ∈ log')
    (hcalls : ∀ call ∈ calls, call ∈ s.calls ∨ CallOk hashing db' call)
    (hsources : ∀ source ∈ db'.sources, OldTexts s.db.sources source ∨ SourceOk hashing db' log' source)
    (hevents : ∀ e ∈ log', e ∈ s.log ∨ EventOk hashing db' log' e) :
    GateOk hashing ⟨db', calls, log'⟩ := by
  have ht : Touches s.db db' i := .mark hraw hdocuments hobjects hscans
  refine h.transact ht hlog (fun d' hd' => ?_) hcalls hsources hevents
  rw [hdocuments, getElem?_modify_eq hd] at hd'
  obtain rfl := Option.some.inj hd'
  exact (h.documents i d hd).mark ht hobjects hlog (hraw d) hcleared hbypassed hready

/-- Time passes. -/
theorem GateOk.elapse (h : GateOk hashing s) (ms : ℕ) :
    GateOk hashing { s with db := s.db.elapse ms } :=
  h.keep rfl (.refl _) rfl fun _ => oldTexts_of_mem

/-- The phase of a call changes. -/
theorem GateOk.setCall (h : GateOk hashing s) (k : ℕ) {call : DocumentCall}
    (hcall : CallOk hashing s.db call) : GateOk hashing (s.setCall k call) where
  documents := h.documents
  rawUnique := h.rawUnique
  calls c hc := by
    obtain hc | rfl := List.mem_or_eq_of_mem_set hc
    · exact h.calls c hc
    · exact hcall
  sources := h.sources
  log := h.log

/-- A call begins. -/
theorem GateOk.addCall (h : GateOk hashing s) {call : DocumentCall}
    (hcall : CallOk hashing s.db call) :
    GateOk hashing { s with calls := s.calls ++ [call] } where
  documents := h.documents
  rawUnique := h.rawUnique
  calls c hc := by
    obtain hc | hc := List.mem_append.mp hc
    · exact h.calls c hc
    · exact List.mem_singleton.mp hc ▸ hcall
  sources := h.sources
  log := h.log

/-- A call ends. -/
theorem GateOk.endCall (h : GateOk hashing s) (k : ℕ) {call : DocumentCall}
    (hcall : ∀ db, CallOk hashing db call) : GateOk hashing (s.setCall k call) :=
  h.setCall k (hcall _)

/-! ### Uploads, deletions and sources -/

theorem lockDocument_eq_ok {projectId : ℕ} {locked : LockedDocument}
    (h : lockDocument db projectId i = .ok locked) :
    db.documents[i]? = some locked.document ∧
      findObject locked.document.rawObjectId db.objects = some locked.object := by
  simp only [lockDocument, bind_eq_ok, require_eq_ok, pure_eq_ok] at h
  obtain ⟨_, _, d, hd, _, _, o, ho, rfl⟩ := h
  exact ⟨hd, ho⟩

/-- What a transaction has locked is still so after it. -/
theorem SnapshotOk.ofLock {projectId : ℕ} {locked : LockedDocument}
    (h : lockDocument db projectId i = .ok locked) : SnapshotOk db i locked := by
  obtain ⟨hd, ho⟩ := lockDocument_eq_ok h
  exact ⟨locked.document, locked.object, hd, rfl, ho, rfl⟩

theorem GateOk.quarantineDocument (h : GateOk hashing s) {input : QuarantineDocumentInput}
    {documentId : ℕ} (hdb : quarantineDocument hashing s.db input = .ok (documentId, db')) :
    GateOk hashing { s with db := db' } := by
  simp only [Documents.quarantineDocument, bind_eq_ok] at hdb
  obtain ⟨_, _, hdb⟩ := hdb
  split at hdb
  · simp only [bind_eq_ok, pure_eq_ok, Prod.mk.injEq] at hdb
    obtain ⟨_, _, _, rfl⟩ := hdb
    exact h
  · simp only [bind_eq_ok, pure_eq_ok, Prod.mk.injEq] at hdb
    obtain ⟨objects, hinsert, _, rfl⟩ := hdb
    obtain ⟨hid, _, rfl⟩ := insertObject_eq_ok hinsert
    have hnone : findObject (input.objectId hashing) s.db.objects = none := by
      simp only [findObject, List.find?_eq_none, decide_eq_true_eq]
      exact hid
    have hnew {d d' : DocumentRow}
        (hd : (s.db.documents ++ [d])[s.db.documents.length]? = some d') : d' = d := by
      rw [getElem?_concat_length] at hd
      exact (Option.some.inj hd).symm
    refine h.transact (i := s.db.documents.length)
      ⟨fun j d hj hd => ?_, fun j d hd => ⟨d, getElem?_append_of_some hd, rfl⟩, fun d' hd => .inr ?_,
        fun id o ho => ⟨o, findObject_append ho _, rfl, .inl rfl⟩, fun r hr => hr⟩
      (fun _ => id) (fun d hd => ?_) (fun _ => .inl)
      (fun source hs => .inl (oldTexts_of_mem_append hs (by intro _ h; cases h))) fun _ => .inl
    · rw [List.getElem?_append] at hd
      split at hd
      · exact hd
      · rw [List.getElem?_singleton, if_neg (by omega)] at hd
        cases hd
    · rw [hnew hd]
      exact hnone
    · obtain rfl := hnew hd
      refine ⟨input.objectRow hashing s.db.sources.length, ?_, (by intro h; cases h),
        (by intro h; cases h)⟩
      simp only [findObject] at hnone ⊢
      rw [List.find?_append, hnone]
      simp [QuarantineDocumentInput.objectRow]

/-- The columns a deletion request changes say nothing about scans. -/
theorem ObjectsKept.requestDeletion (p : StorageObjectRow → Bool) (rows : List StorageObjectRow) :
    ObjectsKept rows (Documents.requestDeletion p rows) := by
  unfold Documents.requestDeletion
  refine .update ?_ ?_ ?_ rows
  all_goals exact fun _ => rfl

theorem GateOk.deleteDocument (h : GateOk hashing s) {projectId documentId : ℕ}
    (hdb : deleteDocument s.db projectId documentId = .ok db') :
    GateOk hashing { s with db := db' } := by
  simp only [Documents.deleteDocument, bind_eq_ok] at hdb
  obtain ⟨locked, hlock, _, _, _, _, hdb⟩ := hdb
  split at hdb
  · obtain rfl := pure_eq_ok.mp hdb
    exact h.keep rfl (.requestDeletion _ _) rfl fun _ => oldTexts_of_mem
  · simp only [bind_eq_ok, pure_eq_ok] at hdb
    obtain ⟨_, _, rfl⟩ := hdb
    obtain ⟨hd, ho⟩ := lockDocument_eq_ok hlock
    cases locked.document.sourceId with
    | none =>
      exact h.mark (f := fun d => { d with status := .deleted }) hd (fun _ => rfl)
        (by intro h; cases h) rfl (by intro h; cases h) rfl (.requestDeletion _ _) rfl (fun _ => id) (fun _ => .inl)
        (fun _ hs => .inl (oldTexts_of_mem hs)) fun _ => .inl
    | some sourceId =>
      exact h.mark (f := fun d => { d with status := .deleted }) hd (fun _ => rfl)
        (by intro h; cases h) rfl (by intro h; cases h) rfl (.requestDeletion _ _) rfl (fun _ => id) (fun _ => .inl)
        (fun _ hs => .inl (oldTexts_of_mem_modify (fun _ _ ht => (Option.not_mem_none _ ht).elim) hs)) fun _ => .inl

theorem GateOk.addSource (h : GateOk hashing s) {projectId : ℕ} {content : Option SourceText}
    {reused : Option ℕ} (hcontent : ∀ text ∈ content, ∀ p ∈ text.extractedFrom,
      ∃ old ∈ s.db.sources, ∃ t ∈ old.sanitizedContent, p ∈ t.extractedFrom)
    (hdb : addSource s.db projectId content reused = .ok db') :
    GateOk hashing { s with db := db' } := by
  simp only [Documents.addSource, bind_eq_ok, pure_eq_ok] at hdb
  obtain ⟨_, _, _, _, rfl⟩ := hdb
  exact h.keep rfl (.refl _) rfl fun _ hs => oldTexts_of_mem_append hs hcontent

theorem GateOk.reuseSource (h : GateOk hashing s) {projectId sourceId : ℕ}
    {sanitize : String → String} (hdb : reuseSource s.db projectId sourceId sanitize = .ok db') :
    GateOk hashing { s with db := db' } := by
  simp only [Documents.reuseSource, bind_eq_ok, require_eq_ok] at hdb
  obtain ⟨row, hrow, hdb⟩ := hdb
  refine h.addSource (fun text htext p hp => ?_) hdb
  obtain ⟨t, ht, rfl⟩ := Option.map_eq_some_iff.mp htext
  exact ⟨row, List.mem_of_getElem? hrow, t, ht, hp⟩

/-! ### Scans -/

theorem beginScan_eq_ok {moment : Moment} {request : ScanRequest} {snapshot : LockedDocument}
    (h : beginScan db moment request = .ok (snapshot, db')) :
    lockDocument db request.projectId request.documentId = .ok snapshot ∧
      (db' = db ∨
        db' = db.updateDocument request.documentId fun d => { d with status := .scanning }) := by
  simp only [beginScan, bind_eq_ok] at h
  obtain ⟨locked, hlock, _, _, _, _, h⟩ := h
  split at h
  all_goals
    simp only [bind_eq_ok, pure_eq_ok, Prod.mk.injEq] at h
  · obtain ⟨_, _, _, _, _, _, rfl, rfl⟩ := h
    refine ⟨hlock, ?_⟩
    split
    · exact .inl rfl
    · exact .inr rfl
  · obtain ⟨_, _, _, _, rfl, rfl⟩ := h
    refine ⟨hlock, ?_⟩
    split
    · exact .inl rfl
    · exact .inr rfl

theorem GateOk.beginScan (h : GateOk hashing s) {moment : Moment} {request : ScanRequest}
    {snapshot : LockedDocument}
    (hdb : beginScan s.db moment request = .ok (snapshot, db')) :
    GateOk hashing ⟨db', s.calls ++ [.scan request (.begun snapshot)], s.log⟩ := by
  obtain ⟨hlock, hdb⟩ := beginScan_eq_ok hdb
  have hsnapshot : SnapshotOk s.db request.documentId snapshot := .ofLock hlock
  obtain rfl | rfl := hdb
  · exact @GateOk.addCall _ _ h (.scan request (.begun snapshot)) hsnapshot
  · have hmarked : GateOk hashing { s with
        db := s.db.updateDocument request.documentId fun d => { d with status := .scanning } } :=
      h.mark (f := fun d => { d with status := .scanning }) (lockDocument_eq_ok hlock).1
        (fun _ => rfl) nofun rfl nofun rfl (.refl _) rfl (fun _ => id) (fun _ => .inl)
        (fun _ hs => .inl (oldTexts_of_mem hs)) fun _ => .inl
    refine @GateOk.addCall _ _ hmarked (.scan request (.begun snapshot))
      (hsnapshot.grow (i := request.documentId) ?_)
    exact .mark (f := fun d => { d with status := .scanning }) (fun _ => rfl) rfl (.refl _) rfl

/-- What a call of `scanDocument` has read and scanned. -/
theorem GateOk.scanObject (h : GateOk hashing s) {k : ℕ} {request : ScanRequest}
    {snapshot : LockedDocument} (hcall : s.calls[k]? = some (.scan request (.begun snapshot)))
    (stored : Option Bytes) (answer : Option MalwareScanResult) :
    GateOk hashing (s.scanObject hashing k request snapshot stored answer) := by
  have hsnapshot : SnapshotOk s.db request.documentId snapshot :=
    h.calls _ (List.mem_of_getElem? hcall)
  rcases hscan : Documents.scanObject hashing snapshot request.maxBytes stored answer with
    ⟨scan, bytes⟩
  have hclean : scan.status = .clean → snapshot.object.sha256 = some scan.objectSha256 := by
    have hclean := @scanObject_clean hashing snapshot request.maxBytes stored answer
    rw [hscan] at hclean
    exact hclean
  have hended : CallOk hashing s.db (.scan request .ended) := trivial
  have hscanned (clean : Option PreparedCleanSourceObject) :
      CallOk hashing s.db (.scan request (.scanned snapshot scan clean)) := ⟨hsnapshot, hclean⟩
  simp only [GateSys.scanObject, hscan]
  split
  · exact h.setCall k hended
  · cases bytes with
    | none => exact h.setCall k (hscanned none)
    | some bytes =>
      simp only
      split
      · split
        · exact h.setCall k (hscanned _)
        · exact h.setCall k hended
      · exact h.setCall k (hscanned none)

/-- What the second transaction of `scanDocument` does. -/
theorem commitScan_eq_ok {moment : Moment} {request : ScanRequest} {snapshot : LockedDocument}
    {scan : MalwareScanResult} {clean : Option PreparedCleanSourceObject}
    (h : commitScan db moment request snapshot scan clean = .ok db') :
    ∃ current rows, lockDocument db request.projectId request.documentId = .ok current ∧
      current.document.rawObjectId = snapshot.document.rawObjectId ∧
      ObjectsKept db.objects rows ∧
      db'.objects = updateObjects (·.id = current.document.rawObjectId)
        (fun o => { o with scanStatus := scan.status }) rows ∧
      db'.documents = db.documents.modify request.documentId (fun d =>
        { d with
          status := (resolveScanDisposition scan request.disposition).documentStatus
          scanBypassed := (resolveScanDisposition scan request.disposition).bypassed }) ∧
      db'.scanResults = db.scanResults ++
        [⟨request.documentId, current.document.rawObjectId, scan.objectSha256, scan.status,
          scan.byteSize⟩] ∧
      ∀ source ∈ db'.sources, OldTexts db.sources source := by
  simp only [commitScan, bind_eq_ok, ensure_eq_ok, pure_eq_ok] at h
  obtain ⟨current, hlock, _, _, _, ⟨_, hraw⟩, rows, hrows, _, _, _, _, _, _, rfl⟩ := h
  refine ⟨current, rows, hlock, hraw, .catalogIfClean hrows, ?_⟩
  split
  · refine ⟨rfl, rfl, rfl, fun _ hs => oldTexts_of_mem_modify ?_ hs⟩
    exact fun _ _ ht => ht
  · exact ⟨rfl, rfl, rfl, fun _ hs => oldTexts_of_mem hs⟩

/-- **Scans.**  The document is cleared by a clean result of its raw object, which is recorded, or
    by a bypass outside production, which is recorded too. -/
theorem GateOk.commitScan (h : GateOk hashing s) {k : ℕ} {request : ScanRequest}
    {snapshot : LockedDocument} {scan : MalwareScanResult}
    {clean : Option PreparedCleanSourceObject}
    (hcall : s.calls[k]? = some (.scan request (.scanned snapshot scan clean))) (later : ℕ)
    (aborted : Bool) :
    GateOk hashing (s.commitScan k request snapshot scan clean later aborted) := by
  obtain ⟨⟨d₀, o₀, hd₀, hraw₀, ho₀, hsha₀⟩, hclean⟩ := h.calls _ (List.mem_of_getElem? hcall)
  unfold GateSys.commitScan
  split
  · exact (h.elapse later).endCall k fun _ => trivial
  · rename_i db hdb
    obtain ⟨current, rows, hlock, hraw, hkept, hobjects, hdocuments, hscans, hsources⟩ :=
      commitScan_eq_ok hdb
    obtain ⟨hd, ho⟩ := lockDocument_eq_ok hlock
    have hverdict {id : ℕ} {o : StorageObjectRow} (ho : findObject id s.db.objects = some o) :
        ∃ o', findObject id db.objects = some o' ∧ o'.sha256 = o.sha256 ∧
          (id = current.document.rawObjectId ∧ o'.scanStatus = scan.status ∨
            id ≠ current.document.rawObjectId ∧ o'.scanStatus = o.scanStatus) := by
      rw [hobjects]
      exact hkept.setVerdict _ _ ho
    have ht : Touches s.db db request.documentId := by
      refine .modify ?_ hdocuments (fun id o ho => ?_) fun r hr => ?_
      · exact fun _ => rfl
      · obtain ⟨o', ho', hsha, ⟨rfl, _⟩ | ⟨_, hscan⟩⟩ := hverdict ho
        · exact ⟨o', ho', hsha, .inr ⟨current.document, hd, rfl⟩⟩
        · exact ⟨o', ho', hsha, .inl hscan⟩
      · rw [hscans]
        exact List.mem_append_left _ hr
    have hlog : ∀ e ∈ s.log, e ∈ scanLog s.log request scan := by
      intro e he
      unfold scanLog
      split
      · exact List.mem_append_left _ he
      · exact he
    have hok : GateOk hashing ⟨db, s.calls, scanLog s.log request scan⟩ := by
      refine h.transact ht hlog (fun d' hd' => ?_) (fun _ => .inl)
        (fun _ hs => .inl (hsources _ hs)) fun e he => ?_
      · rw [hdocuments, getElem?_modify_eq hd] at hd'
        obtain rfl := Option.some.inj hd'
        obtain ⟨o', ho', hsha, hscan⟩ := hverdict ho
        obtain ⟨_, hscan⟩ := hscan.resolve_right fun hne => hne.1 rfl
        refine ⟨o', ho', fun hcleared => ?_, fun hready => ?_⟩
        · obtain ⟨hstatus, _⟩ | ⟨hstatus, hbypassed, hproduction⟩ :=
            resolveScanDisposition_clean hcleared
          · -- The call's snapshot has the hash that the object still has.
            obtain rfl : d₀ = current.document := Option.some.inj (hd₀.symm.trans hd)
            obtain rfl : o₀ = current.object := Option.some.inj (ho₀.symm.trans ho)
            refine .inl ⟨hscan.trans hstatus, scan.objectSha256, ?_, ?_⟩
            · rw [hsha, hsha₀, hclean hstatus]
            · refine ⟨⟨request.documentId, _, scan.objectSha256, scan.status, scan.byteSize⟩, ?_,
                rfl, rfl, rfl, hstatus⟩
              rw [hscans]
              exact List.mem_append_right _ (List.mem_singleton_self _)
          · refine .inr ⟨hscan ▸ hstatus, hbypassed, ?_⟩
            rw [scanLog, if_pos hbypassed, ← hproduction]
            exact List.mem_append_right _ (List.mem_singleton_self _)
        · have := resolveScanDisposition_transition scan request.disposition
          rw [show (resolveScanDisposition scan request.disposition).documentStatus = .ready from
            hready] at this
          cases this
      · unfold scanLog at he
        split at he
        · rename_i hbypassed
          obtain he | he := List.mem_append.mp he
          · exact .inl he
          · obtain rfl := List.mem_singleton.mp he
            exact .inr (resolveScanDisposition_bypassed hbypassed)
        · exact .inl he
    exact (hok.elapse later).endCall k fun _ => trivial

/-! ### Extractions -/

/-- A document past the scan was scanned clean, or the scan was bypassed. -/
theorem DocumentOk.passed (h : DocumentOk db log i d) (hd : db.documents[i]? = some d)
    (hcleared : d.status.isCleared) :
    ObjectScanned db i ∨ d.scanBypassed = true ∧ .bypassed i false ∈ log := by
  obtain ⟨o, ho, hpassed, _⟩ := h
  obtain ⟨_, sha256, hsha, hclean⟩ | ⟨_, hbypass⟩ := hpassed hcleared
  · exact .inl ⟨d, o, sha256, hd, ho, hsha, hclean⟩
  · exact .inr hbypass

/-- Bytes of the hash that a call has read are bytes of the object that was scanned. -/
theorem ObjectScanned.bytes (h : ObjectScanned db i) {locked : LockedDocument} {bytes : Bytes}
    (hlocked : SnapshotOk db i locked)
    (hbytes : ∀ sha256 ∈ locked.object.sha256, hashing.sha256Hex bytes = sha256) :
    BytesScanned hashing db i bytes := by
  obtain ⟨d, o, sha256, hd, ho, hsha, hclean⟩ := h
  obtain ⟨d₁, o₁, hd₁, _, ho₁, hsha₁⟩ := hlocked
  obtain rfl : d = d₁ := Option.some.inj (hd.symm.trans hd₁)
  obtain rfl : o = o₁ := Option.some.inj (ho.symm.trans ho₁)
  exact ⟨d, hd, by rw [hbytes sha256 (hsha₁ ▸ hsha)]; exact hclean⟩

/-- What the first transaction of `extractDocument` checks and does. -/
theorem beginExtraction_eq_ok {moment : Moment} {request : ExtractRequest}
    {started : StartedExtraction}
    (h : beginExtraction db moment request = .ok (started, db')) :
    lockDocument db request.projectId request.documentId = .ok started.locked ∧
      (started.locked.object.scanStatus = .clean ∨ request.production = some false) ∧
      started.locked.document.status.isCleared ∧
      ObjectsKept db.objects db'.objects ∧ db'.scanResults = db.scanResults ∧
      db'.documents = db.documents.modify request.documentId
        (fun d => { d with status := .extracting }) ∧ db'.sources = db.sources := by
  have hkept (raw : ℕ) : ObjectsKept db.objects
      (updateObjects (·.id = raw) (fun o => { o with extractionStatus := .pending }) db.objects) := by
    refine .update ?_ ?_ ?_ _
    all_goals exact fun _ => rfl
  simp only [beginExtraction, bind_eq_ok, ensure_eq_ok] at h
  obtain ⟨locked, hlock, _, _, _, hscan, _, hstatus, h⟩ := h
  have hcleared : locked.document.status.isCleared := by
    obtain hresume | hstatus := hstatus
    · simp only [Bool.and_eq_true, decide_eq_true_eq] at hresume
      rw [hresume.1]
      rfl
    · revert hstatus
      cases locked.document.status <;> decide
  split at h
  all_goals simp only [bind_eq_ok, pure_eq_ok, Prod.mk.injEq] at h
  · obtain ⟨_, _, _, _, _, _, _, _, rfl, rfl⟩ := h
    exact ⟨hlock, hscan.imp id And.left, hcleared, hkept _, rfl, rfl, rfl⟩
  · obtain ⟨_, _, _, _, _, _, rfl, rfl⟩ := h
    exact ⟨hlock, hscan.imp id And.left, hcleared, hkept _, rfl, rfl, rfl⟩

theorem GateOk.beginExtraction (h : GateOk hashing s) {moment : Moment} {request : ExtractRequest}
    {started : StartedExtraction}
    (hdb : beginExtraction s.db moment request = .ok (started, db')) :
    GateOk hashing ⟨db', s.calls ++ [.extract request (.begun started)],
      s.log ++ [.extractionBegun request.documentId request.production]⟩ := by
  obtain ⟨hlock, hscan, hcleared, hobjects, hscans, hdocuments, hsources⟩ :=
    beginExtraction_eq_ok hdb
  obtain ⟨hd, ho⟩ := lockDocument_eq_ok hlock
  have ht : Touches s.db db' request.documentId :=
    .mark (f := fun d => { d with status := .extracting }) (fun _ => rfl) hdocuments hobjects hscans
  have hpassed : ObjectScanned s.db request.documentId ∨
      request.production = some false ∧ .bypassed request.documentId false ∈ s.log := by
    obtain ⟨o, ho', hpassed, _⟩ := h.documents _ _ hd
    obtain rfl : o = started.locked.object := Option.some.inj (ho'.symm.trans ho)
    obtain ⟨_, sha256, hsha, hclean⟩ | ⟨hdirty, _, hbypass⟩ := hpassed hcleared
    · exact .inl ⟨_, _, sha256, hd, ho, hsha, hclean⟩
    · exact .inr ⟨hscan.resolve_left hdirty, hbypass⟩
  have hlog : ∀ e ∈ s.log, e ∈ s.log ++ [.extractionBegun request.documentId request.production] :=
    fun e he => List.mem_append_left _ he
  have hmarked : GateOk hashing
      ⟨db', s.calls, s.log ++ [.extractionBegun request.documentId request.production]⟩ := by
    refine h.mark (f := fun d => { d with status := .extracting }) hd (fun _ => rfl)
      (fun _ => hcleared) rfl nofun hdocuments hobjects hscans hlog (fun _ => .inl)
      (fun _ hs => .inl (oldTexts_of_mem (hsources ▸ hs))) fun e he => ?_
    obtain he | he := List.mem_append.mp he
    · exact .inl he
    · obtain rfl := List.mem_singleton.mp he
      exact .inr (hpassed.imp (fun h => h.grow ht) fun h => ⟨h.1, hlog _ h.2⟩)
  refine @GateOk.addCall _ _ hmarked (.extract request (.begun started))
    ⟨(SnapshotOk.ofLock hlock).grow ht, fun hproduction => ?_⟩
  exact (hpassed.resolve_right fun h => hproduction h.1).grow ht

/-- What a call of `extractDocument` has read and extracted. -/
theorem GateOk.extractObject (h : GateOk hashing s) {k : ℕ} {request : ExtractRequest}
    {started : StartedExtraction} (hcall : s.calls[k]? = some (.extract request (.begun started)))
    (stored : Option Bytes) (answer : Option DocumentExtractionResult) :
    GateOk hashing (s.extractObject hashing k request started stored answer) := by
  obtain ⟨hsnapshot, hproduction⟩ :
      CallOk hashing s.db (.extract request (.begun started)) :=
    h.calls _ (List.mem_of_getElem? hcall)
  unfold GateSys.extractObject
  split
  · exact h.endCall k fun _ => trivial
  · split
    · rename_i hextract
      exact h.setCall k ⟨hsnapshot, hproduction, extractObject_sha256 hextract⟩
    · exact h.endCall k fun _ => trivial

/-- What the last transaction of `extractDocument` checks and does. -/
theorem commitExtraction_eq_ok {moment : Moment} {request : ExtractRequest}
    {started : StartedExtraction} {bytes : Bytes} {result : DocumentExtractionResult}
    {artifact : PreparedExtractionArtifact}
    (h : commitExtraction db moment request started bytes result artifact = .ok db') :
    ∃ current status extractionId,
      lockDocument db request.projectId request.documentId = .ok current ∧
      current.document.status = .extracting ∧ ObjectsKept db.objects db'.objects ∧
      db'.scanResults = db.scanResults ∧
      db'.documents = db.documents.modify request.documentId
        (fun d => { d with status := status, currentExtractionId := some extractionId }) ∧
      (result.ocrRequired = true ∧ status = .ocrRequiredUnsupported ∧ db'.sources = db.sources ∨
        result.ocrRequired = false ∧ status = .ready ∧ ∃ sourceId,
          db'.sources = db.sources.modify sourceId fun s =>
            { s with sanitizedContent := some ⟨result.text, some (request.documentId, bytes)⟩ }) := by
  have hkept (raw : ℕ) (status : ExtractionStatus) (rows : List StorageObjectRow) : ObjectsKept rows
      (updateObjects (·.id = raw) (fun o => { o with extractionStatus := status }) rows) := by
    refine .update ?_ ?_ ?_ _
    all_goals exact fun _ => rfl
  simp only [commitExtraction, bind_eq_ok, ensure_eq_ok] at h
  obtain ⟨current, hlock, _, _, _, ⟨hstatus, _⟩, h⟩ := h
  split at h
  · rename_i hocr
    simp only [insertExtraction, bind_eq_ok, pure_eq_ok] at h
    obtain ⟨rows, hrows, _, ⟨_, _, rfl⟩, _, _, _, _, _, _, rfl⟩ := h
    exact ⟨current, _, _, hlock, hstatus, (ObjectsKept.catalogArtifact hrows).trans (hkept _ _ _),
      rfl, rfl, .inl ⟨hocr, rfl, rfl⟩⟩
  · rename_i hocr
    simp only [insertExtraction, bind_eq_ok, pure_eq_ok] at h
    obtain ⟨_, _, sourceId, _, rows, hrows, _, ⟨_, _, rfl⟩, _, _, _, _, _, _, rfl⟩ := h
    exact ⟨current, _, _, hlock, hstatus, (ObjectsKept.catalogArtifact hrows).trans (hkept _ _ _),
      rfl, rfl, .inr ⟨by simpa using hocr, rfl, sourceId, rfl⟩⟩

/-- The text of a source is replaced by one that was extracted from scanned bytes. -/
theorem sourceOk_of_mem_modify {k : ℕ} {text : SourceText} {sources : List SourceRow}
    {source : SourceRow}
    (h : source ∈ sources.modify k fun s => { s with sanitizedContent := some text })
    (htext : ∀ p ∈ text.extractedFrom,
      BytesScanned hashing db p.1 p.2 ∨ .bypassed p.1 false ∈ log) :
    OldTexts sources source ∨ SourceOk hashing db log source := by
  obtain ⟨n, hn⟩ := List.mem_iff_getElem?.mp h
  rw [List.getElem?_modify] at hn
  obtain ⟨old, hold, rfl⟩ := Option.map_eq_some_iff.mp hn
  split
  · refine .inr fun t ht p hp => htext p ?_
    obtain rfl : text = t := Option.some.inj ht
    exact hp
  · exact .inl (oldTexts_of_mem (List.mem_of_getElem? hold))

/-- **Extractions.**  What becomes the content of a source was extracted from bytes of the hash that
    was scanned, or the scan was bypassed; in production, the former. -/
theorem GateOk.commitExtraction (h : GateOk hashing s) {k : ℕ} {request : ExtractRequest}
    {started : StartedExtraction} {bytes : Bytes} {result : DocumentExtractionResult}
    (hcall : s.calls[k]? = some (.extract request (.extracted started bytes result)))
    (payload : Bytes) (later : ℕ) (aborted : Bool) :
    GateOk hashing
      (s.commitExtraction hashing k request started bytes result payload later aborted) := by
  obtain ⟨hsnapshot, hproduction, hbytes⟩ :
      CallOk hashing s.db (.extract request (.extracted started bytes result)) :=
    h.calls _ (List.mem_of_getElem? hcall)
  unfold GateSys.commitExtraction
  split
  · exact h.endCall k fun _ => trivial
  · split
    · refine (h.elapse later).endCall k fun _ => ?_
      split <;> trivial
    · rename_i db hdb
      obtain ⟨current, status, extractionId, hlock, hextracting, hobjects, hscans, hdocuments,
        hresult⟩ := commitExtraction_eq_ok hdb
      obtain ⟨hd, _⟩ := lockDocument_eq_ok hlock
      have hcleared : current.document.status.isCleared := by
        rw [hextracting]
        rfl
      have ht : Touches s.db db request.documentId :=
        .mark (f := fun d => { d with status := status, currentExtractionId := some extractionId })
          (fun _ => rfl) hdocuments hobjects hscans
      have hscanned : BytesScanned hashing s.db request.documentId bytes ∨
          request.production = some false ∧ .bypassed request.documentId false ∈ s.log := by
        by_cases hp : request.production = some false
        · refine ((h.documents _ _ hd).passed hd hcleared).imp (fun h => ?_) fun h => ⟨hp, h.2⟩
          exact h.bytes hsnapshot hbytes
        · exact .inl ((hproduction hp).bytes hsnapshot hbytes)
      have hlog : ∀ e ∈ s.log, e ∈ extractLog s.log request bytes result := by
        intro e he
        unfold extractLog
        split
        · exact he
        · exact List.mem_append_left _ he
      have hok : GateOk hashing ⟨db, s.calls, extractLog s.log request bytes result⟩ := by
        refine h.mark
          (f := fun d => { d with status := status, currentExtractionId := some extractionId }) hd
          (fun _ => rfl) (fun _ => hcleared) rfl (fun hready => ?_) hdocuments hobjects hscans hlog
          (fun _ => .inl) (fun source hs => ?_) fun e he => ?_
        · obtain ⟨_, rfl, _⟩ | ⟨hocr, _⟩ := hresult
          · cases hready
          · refine ⟨request.production, bytes, ?_⟩
            rw [extractLog, if_neg (by simp [hocr])]
            exact List.mem_append_right _ (List.mem_singleton_self _)
        · obtain ⟨_, _, hsources⟩ | ⟨_, _, sourceId, hsources⟩ := hresult
          · exact .inl (oldTexts_of_mem (hsources ▸ hs))
          · rw [hsources] at hs
            refine sourceOk_of_mem_modify hs fun p hp => ?_
            obtain rfl : (request.documentId, bytes) = p := Option.some.inj hp
            exact hscanned.imp (fun h => h.grow ht) fun h => hlog _ h.2
        · unfold extractLog at he
          split at he
          · exact .inl he
          · obtain he | he := List.mem_append.mp he
            · exact .inl he
            · obtain rfl := List.mem_singleton.mp he
              exact .inr (hscanned.imp (fun h => h.grow ht) fun h => ⟨h.1, hlog _ h.2⟩)
      exact (hok.elapse later).endCall k fun _ => trivial

theorem GateOk.recordExtractionFailure (h : GateOk hashing s) (k : ℕ) (request : ExtractRequest)
    (started : StartedExtraction) (later : ℕ) :
    GateOk hashing (s.recordExtractionFailure k request started later) := by
  unfold GateSys.recordExtractionFailure
  split
  · exact (h.elapse later).endCall k fun _ => trivial
  · rename_i db hdb
    suffices hok : GateOk hashing { s with db := db } from
      (hok.elapse later).endCall k fun _ => trivial
    simp only [Documents.recordExtractionFailure, bind_eq_ok] at hdb
    obtain ⟨current, hlock, _, _, hdb⟩ := hdb
    obtain ⟨hd, _⟩ := lockDocument_eq_ok hlock
    split at hdb
    · obtain rfl := pure_eq_ok.mp hdb
      exact h
    · rename_i hextracting
      simp only [ne_eq, not_not] at hextracting
      simp only [bind_eq_ok, pure_eq_ok] at hdb
      obtain ⟨_, _, _, _, rfl⟩ := hdb
      obtain ⟨extractions, hextractions⟩ := insertExtractionIfNew_eq s.db
        ⟨request.documentId, current.document.rawObjectId, started.version, .failed⟩
      rw [hextractions]
      refine h.mark (f := fun d => { d with status := .extractionFailed }) hd (fun _ => rfl)
        (fun _ => ?_) rfl nofun rfl (.update ?_ ?_ ?_ _) rfl (fun _ => id) (fun _ => .inl)
        (fun _ hs => .inl (oldTexts_of_mem hs)) fun _ => .inl
      · rw [hextracting]
        rfl
      all_goals exact fun _ => rfl

/-! ### Runs -/

/-- **Steps.**  Every step keeps the invariant. -/
theorem GateSys.step_gateOk (h : GateOk hashing s) (a : GateAct) :
    GateOk hashing (s.step hashing a) := by
  have htransact {t : Except ServiceError Tables}
      (ht : ∀ db, t = .ok db → GateOk hashing { s with db := db }) :
      GateOk hashing (s.transact t) := by
    unfold GateSys.transact
    split
    · exact ht _ rfl
    · exact h
  cases a with
  | tick ms => exact h.elapse ms
  | setJobs jobs => exact h.keep rfl (.refl _) rfl fun _ => oldTexts_of_mem
  | createProject => exact h.keep rfl (.refl _) rfl fun _ => oldTexts_of_mem
  | quarantineDocument input =>
    refine htransact fun db hdb => ?_
    obtain ⟨_, hquarantine, rfl⟩ := map_eq_ok.mp hdb
    exact h.quarantineDocument hquarantine
  | deleteDocument projectId documentId => exact htransact fun _ => h.deleteDocument
  | addSource projectId content =>
    refine htransact fun db => h.addSource fun text htext p hp => ?_
    obtain ⟨_, _, rfl⟩ := Option.map_eq_some_iff.mp htext
    cases hp
  | reuseSource projectId sourceId sanitize => exact htransact fun _ => h.reuseSource
  | beginScan request later aborted =>
    simp only [GateSys.step]
    split
    · exact h.elapse later
    · exact (h.beginScan ‹_›).elapse later
  | scanObject call stored answer =>
    simp only [GateSys.step]
    split
    · exact h.scanObject ‹_› stored answer
    · exact h
  | commitScan call later aborted =>
    simp only [GateSys.step]
    split
    · exact h.commitScan ‹_› later aborted
    · exact h
  | beginExtraction request later aborted =>
    simp only [GateSys.step]
    split
    · exact h.elapse later
    · exact (h.beginExtraction ‹_›).elapse later
  | extractObject call stored answer =>
    simp only [GateSys.step]
    split
    · exact h.extractObject ‹_› stored answer
    · exact h
  | commitExtraction call payload later aborted =>
    simp only [GateSys.step]
    split
    · exact h.commitExtraction ‹_› payload later aborted
    · exact h
  | failChunking call =>
    simp only [GateSys.step]
    split
    · exact h.endCall call fun _ => trivial
    · exact h
  | recordExtractionFailure call later =>
    simp only [GateSys.step]
    split
    · exact h.recordExtractionFailure call _ _ later
    · exact h
  | abandon call =>
    simp only [GateSys.step]
    split
    · unfold GateSys.abandon
      split
      · exact h.endCall call fun _ => trivial
      · exact h.endCall call fun _ => trivial
    · exact h

/-- The states of the machine. -/
def GateSys.Reachable (hashing : Hashing) (s : GateSys) : Prop :=
  Reach (GateSys.step hashing) Always .initial s

/-- **The malware gate.**  In every reachable state, every document that is being extracted or has
    been, and every text that reached a source, passed a clean scan of the raw object and of the
    very bytes, unless the scan was bypassed outside production; and every extraction of a
    production call did. -/
theorem malware_gate (h : s.Reachable hashing) : MalwareGate hashing s := by
  have hok : GateOk hashing s := by
    refine Reach.invariant h ⟨?_, ?_, ?_, ?_, ?_⟩ fun s a hI _ => s.step_gateOk hI a
    all_goals simp [GateSys.initial, Tables.initial]
  refine ⟨fun i d hd hstatus => ?_, fun i d hd hready => ?_, fun i production bytes he => ?_,
    hok.sources, fun i production he => ?_, fun i production he => hok.log _ he⟩
  · refine (hok.documents i d hd).passed hd ?_
    revert hstatus
    cases d.status <;> decide
  · obtain ⟨_, _, _, h⟩ := hok.documents i d hd
    exact h hready
  · exact hok.log _ he
  · exact hok.log _ he

/-- Hashes that tell the bytes and identifiers of the following run apart. -/
def exampleHashing : Hashing where
  sha256Hex bytes := bytes.length
  deterministicUploadUuid _ key
    | .cleanSourceObject => 10 + key
    | .extractionArtifact => 20 + key
    | _ => 30 + key

/-- A text is uploaded. -/
def exampleUpload (objectId : ℕ) (bytes : Bytes) : GateAct :=
  .quarantineDocument ⟨0, .localFiles, 0, .plain, bytes, none, 0, objectId⟩

/-- A scan of the document, outside or in production. -/
def exampleScan (documentId : ℕ) (production : Bool) : ScanRequest :=
  ⟨0, documentId, .localFiles, 100, ⟨production, !production⟩, false, none⟩

/-- An extraction of the document in production. -/
def exampleExtract (documentId : ℕ) : ExtractRequest :=
  ⟨0, documentId, .localFiles, 100, none, some true, true, false, none⟩

/-- A document is scanned clean and extracted in production, and its source is reused; the scan of
    another one is bypassed outside production, and production tries to extract it. -/
def cleanAndBypassed : List GateAct :=
  [.createProject, exampleUpload 1 [1, 2, 3], .beginScan (exampleScan 0 true) 1 false,
    .scanObject 0 (some [1, 2, 3]) (some ⟨.clean, 3, 3⟩), .commitScan 0 1 false,
    .beginExtraction (exampleExtract 0) 1 false,
    .extractObject 1 (some [1, 2, 3]) (some ⟨false, .txt, 3, some 2, "ab", [⟨"ab", 0, 2, 2, 0⟩]⟩),
    .commitExtraction 1 [7] 1 false, .reuseSource 0 0 id,
    exampleUpload 2 [1, 2], .beginScan (exampleScan 1 false) 1 false,
    .scanObject 2 (some [1, 2]) none, .commitScan 2 1 false,
    .beginExtraction (exampleExtract 1) 1 false]

/-- The first document is `READY` and its text has reached two sources; the second one is past the
    scan, but production has not begun to extract it. -/
theorem malware_gate_cleanAndBypassed :
    let s := cleanAndBypassed.foldl (GateSys.step exampleHashing) .initial
    s.db.documents.map (fun d => (d.status, d.scanBypassed)) = [(.ready, false), (.clean, true)] ∧
      s.db.sources.map (fun source => source.sanitizedContent.bind (·.extractedFrom)) =
        [some (0, [1, 2, 3]), some (0, [1, 2, 3]), none] ∧
      s.log = [.extractionBegun 0 (some true), .extracted 0 (some true) [1, 2, 3],
        .bypassed 1 false] ∧
      MalwareGate exampleHashing s :=
  ⟨by decide +kernel, by decide +kernel, by decide +kernel, malware_gate (.ofActions _ _)⟩

end ResearchWorkbench.Documents
