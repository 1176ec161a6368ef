import ResearchWorkbench.Documents.MalwareGate
import ResearchWorkbench.Services.Citations

namespace ResearchWorkbench.Documents

/-!
# Citations follow the current extraction

* `CitationSys`, `CitationAct`, `CitationSys.step` — the document services, with what cites documents;
* `CitationsCurrent`, `WithdrawsReview` — the property, of states and of steps;
* `MovesCitations` — the condition: an extraction that needs OCR replaces one that nothing cites, and
  evidence is committed while the anchors it was given are current;
* `CitationInv` — the invariant: new extractions and new anchors have new ids;
* `citations_current_iff` — a run keeps the property exactly as long as the condition holds.

The branch of `extractDocument` for a document that needs OCR replaces the current extraction, and
leaves anchors, evidence and review alone.  The anchors that evidence is given are read before the
provider is asked.
-/

variable {hashing : Hashing}

/-! ### The machine -/

/-- The document services, the tables of citations, and the eligible sources that were loaded for
    the runs of projects. -/
structure CitationSys where
  gate : GateSys
  cited : CitationTables
  bundles : List (ℕ × List EligibleSource)

/-- What may happen next. -/
inductive CitationAct
  /-- A step of the document services; the ones below are not taken here. -/
  | gate (a : GateAct)
  | createProject (project : Workflow.ResearchProject)
  /-- Another service changes the row of a project. -/
  | setProject (projectId : ℕ) (project : Workflow.ResearchProject)
  | commitExtraction (call : ℕ) (payload : Bytes) (chunks : List DocumentChunk) (later : ℕ)
      (aborted : Bool)
  | deleteDocument (projectId documentId : ℕ)
  | addEvidence (sourceId : ℕ)
  | loadEligibleSources (projectId : ℕ)
  | commitEvidence (bundle : ℕ) (output : List ℕ)

/-- The steps that are not taken as `CitationAct.gate`. -/
def GateAct.isCited : GateAct → Bool
  | .createProject | .commitExtraction .. | .deleteDocument .. => true
  | _ => false

/-- The extraction that a step `commitExtraction` commits. -/
def GateSys.committedExtraction (hashing : Hashing) (s : GateSys) (call : ℕ) (payload : Bytes)
    (later : ℕ) (aborted : Bool) : Option (ExtractRequest × DocumentExtractionResult) :=
  match s.calls[call]? with
  | some (.extract request (.extracted started bytes result)) =>
    match prepareExtractionArtifact hashing request.projectId
        (hashing.deterministicUploadUuid request.projectId
          (Nat.pair request.documentId started.version) .extraction)
        request.maxBytes started.locked payload with
    | none => none
    | some artifact =>
      match Documents.commitExtraction s.db (s.db.moment later aborted) request started bytes result
          artifact with
      | .ok _ => some (request, result)
      | .error _ => none
  | _ => none

namespace CitationSys

/-- The citations change. -/
def transact (s : CitationSys) (t : Except ServiceError CitationTables) : CitationSys :=
  match t with
  | .ok cited => { s with cited }
  | .error _ => s

/-- The citations after a commit. -/
def citedAfter (s : CitationSys) (chunks : List DocumentChunk) :
    Option (ExtractRequest × DocumentExtractionResult) → CitationTables
  | some (request, result) =>
    match s.gate.db.documents[request.documentId]? with
    | some document =>
      persistExtraction s.cited document request.documentId s.gate.db.extractions.length result
        chunks
    | none => s.cited
  | none => s.cited

/-- `deleteDocument`. -/
def deleteDocument (s : CitationSys) (projectId documentId : ℕ) : CitationSys :=
  match Documents.deleteDocument s.gate.db projectId documentId with
  | .ok db =>
    { s with
      gate := { s.gate with db }
      cited := if s.gate.db.documents[documentId]?.any (·.status = .deleted) then s.cited
        else withdrawCitations s.cited projectId documentId }
  | .error _ => s

/-- One step. -/
def step (hashing : Hashing) (s : CitationSys) : CitationAct → CitationSys
  | .gate a => if a.isCited then s else { s with gate := s.gate.step hashing a }
  | .createProject project =>
    { s with
      gate := s.gate.step hashing .createProject
      cited := { s.cited with projects := s.cited.projects ++ [project] } }
  | .setProject projectId project =>
    { s with cited := { s.cited with projects := s.cited.projects.set projectId project } }
  | .commitExtraction call payload chunks later aborted =>
    { s with
      gate := s.gate.step hashing (.commitExtraction call payload later aborted)
      cited := s.citedAfter chunks
        (s.gate.committedExtraction hashing call payload later aborted) }
  | .deleteDocument projectId documentId => s.deleteDocument projectId documentId
  | .addEvidence sourceId => s.transact (Documents.addEvidence s.gate.db s.cited sourceId)
  | .loadEligibleSources projectId =>
    { s with bundles :=
        s.bundles ++ [(projectId, Documents.loadEligibleSources s.gate.db s.cited projectId)] }
  | .commitEvidence bundle output =>
    match s.bundles[bundle]? with
    | some (projectId, sources) =>
      s.transact (Documents.commitEvidence s.gate.db s.cited projectId sources output)
    | none => s

/-- Nothing has been uploaded yet. -/
def initial : CitationSys := ⟨.initial, ⟨[], [], [], [], []⟩, []⟩

end CitationSys

/-! ### The property -/

/-- The anchor belongs to the current extraction of its document. -/
def IsCurrent (db : Tables) (anchor : CitationAnchorRow) : Prop :=
  ∃ document ∈ db.documents[anchor.documentId]?,
    document.currentExtractionId = some anchor.extractionId

/-- **Citations are current.** -/
structure CitationsCurrent (s : CitationSys) : Prop where
  anchors : ∀ anchor ∈ s.cited.anchors, anchor.status = .current →
    ∃ document ∈ s.gate.db.documents[anchor.documentId]?,
      document.currentExtractionId = some anchor.extractionId ∧ document.status ≠ .deleted
  evidence : ∀ evidence ∈ s.cited.evidence, ∀ anchor ∈ evidence.anchor s.cited.anchors,
    ¬ IsCurrent s.gate.db anchor → evidence.citationStatus = .needsReview

/-- The marks of the review and of the approval are withdrawn. -/
def IsWithdrawn (project : Workflow.ResearchProject) : Prop :=
  project.qaPassedAt = none ∧ project.approvalStatus = .notRequested ∧ project.approvedAt = none ∧
    project.deliveredAt = none

/-- A step that changes the current extraction of a document leaves its project's marks
    withdrawn. -/
def WithdrawsReview (s s' : CitationSys) : Prop :=
  ∀ (i : ℕ) (document document' : DocumentRow), s.gate.db.documents[i]? = some document →
    s'.gate.db.documents[i]? = some document' →
    document'.currentExtractionId ≠ document.currentExtractionId →
      ∃ project ∈ s'.cited.projects[document.projectId]?, IsWithdrawn project

/-! ### The condition -/

/-- Nothing cites the document, as far as no review is needed. -/
structure NothingCites (t : CitationTables) (documentId : ℕ) : Prop where
  anchors : ∀ anchor ∈ t.anchors, anchor.documentId = documentId → anchor.status ≠ .current
  evidence : ∀ evidence ∈ t.evidence, ∀ anchor ∈ evidence.anchor t.anchors,
    anchor.documentId = documentId → evidence.citationStatus = .needsReview

/-- The sources are the ones that `commitEvidence` accepts. -/
def AreAccepted (db : Tables) (projectId : ℕ) (sources : List EligibleSource)
    (output : List ℕ) : Prop :=
  output.all (isStillEligible db projectId) ∧
    ∀ sourceId ∈ output, (sources.find? (·.id = sourceId)).isSome

/-- **The condition.** -/
def MovesCitations (hashing : Hashing) (s : CitationSys) : CitationAct → Prop
  | .commitExtraction call payload _ later aborted =>
    ∀ request result,
      s.gate.committedExtraction hashing call payload later aborted = some (request, result) →
      result.ocrRequired → NothingCites s.cited request.documentId ∧
        ∃ project ∈ s.cited.projects[request.projectId]?, IsWithdrawn project
  | .commitEvidence bundle output =>
    ∀ projectId sources, s.bundles[bundle]? = some (projectId, sources) →
      AreAccepted s.gate.db projectId sources output →
        ∀ sourceId ∈ output, ∀ source ∈ sources.find? (·.id = sourceId),
          ∀ anchor ∈ source.evidence.anchor s.cited.anchors, IsCurrent s.gate.db anchor
  | _ => True

/-! ### The document services -/

variable {db db' : Tables} {s : CitationSys}

/-- A document keeps its extraction and its project, and stays away from deletion. -/
structure SameExtraction (_ : ℕ) (document document' : DocumentRow) : Prop where
  currentExtractionId : document'.currentExtractionId = document.currentExtractionId
  projectId : document'.projectId = document.projectId
  deleted : document'.status = .deleted → document.status = .deleted

/-- A new document has no extraction. -/
def Unextracted (_ : ℕ) (document : DocumentRow) : Prop := document.currentExtractionId = none

theorem SameExtraction.refl (i : ℕ) (document : DocumentRow) :
    SameExtraction i document document := ⟨rfl, rfl, id⟩

/-- What every step but a commit and a deletion does. -/
structure KeepsExtractions (db db' : Tables) : Prop where
  documents : TableStep SameExtraction Unextracted db.documents db'.documents
  extractions : db.extractions.length ≤ db'.extractions.length
  projectCount : db'.projectCount = db.projectCount
  now : db.now ≤ db'.now

theorem KeepsExtractions.of_documents (hdocuments : db'.documents = db.documents)
    (hextractions : db'.extractions = db.extractions)
    (hprojects : db'.projectCount = db.projectCount) (hnow : db.now ≤ db'.now) :
    KeepsExtractions db db' :=
  ⟨by rw [hdocuments]; exact .refl SameExtraction.refl _, by rw [hextractions], hprojects, hnow⟩

theorem KeepsExtractions.refl (db : Tables) : KeepsExtractions db db :=
  .of_documents rfl rfl rfl le_rfl

/-- The status of one document changes. -/
theorem KeepsExtractions.modify {i : ℕ} {document : DocumentRow} {f : DocumentRow → DocumentRow}
    (hi : db.documents[i]? = some document) (hf : SameExtraction i document (f document))
    (hdocuments : db'.documents = db.documents.modify i f)
    (hextractions : db.extractions.length ≤ db'.extractions.length)
    (hprojects : db'.projectCount = db.projectCount) (hnow : db.now ≤ db'.now) :
    KeepsExtractions db db' :=
  ⟨by rw [hdocuments]; exact .modify SameExtraction.refl hi hf, hextractions, hprojects, hnow⟩

theorem quarantineDocument_keeps {input : QuarantineDocumentInput} {documentId : ℕ}
    (h : quarantineDocument hashing db input = .ok (documentId, db')) : KeepsExtractions db db' := by
  simp only [quarantineDocument, bind_eq_ok] at h
  obtain ⟨_, _, h⟩ := h
  split at h
  · simp only [bind_eq_ok, pure_eq_ok, Prod.mk.injEq] at h
    obtain ⟨_, _, _, rfl⟩ := h
    exact .refl db
  · simp only [bind_eq_ok, pure_eq_ok, Prod.mk.injEq] at h
    obtain ⟨_, _, _, rfl⟩ := h
    exact ⟨.append_singleton (.refl SameExtraction.refl _) rfl, le_rfl, rfl, le_rfl⟩

theorem addSource_keeps {projectId : ℕ} {content : Option SourceText} {reused : Option ℕ}
    (h : addSource db projectId content reused = .ok db') : KeepsExtractions db db' := by
  simp only [addSource, bind_eq_ok, pure_eq_ok] at h
  obtain ⟨_, _, _, _, rfl⟩ := h
  exact .of_documents rfl rfl rfl le_rfl

theorem beginScan_keeps {moment : Moment} {request : ScanRequest} {snapshot : LockedDocument}
    (h : beginScan db moment request = .ok (snapshot, db')) : KeepsExtractions db db' := by
  obtain ⟨hlock, rfl | rfl⟩ := beginScan_eq_ok h
  · exact .refl _
  · exact .modify (f := fun d => { d with status := .scanning }) (lockDocument_eq_ok hlock).1
      ⟨rfl, rfl, by intro h; cases h⟩ rfl le_rfl rfl le_rfl

/-- No scan deletes a document. -/
theorem documentStatus_ne_deleted (scan : MalwareScanResult) (options : ScanDispositionOptions) :
    (resolveScanDisposition scan options).documentStatus ≠ .deleted := by
  unfold resolveScanDisposition
  repeat' split
  all_goals exact nofun

theorem commitScan_keeps {moment : Moment} {request : ScanRequest} {snapshot : LockedDocument}
    {scan : MalwareScanResult} {clean : Option PreparedCleanSourceObject}
    (h : commitScan db moment request snapshot scan clean = .ok db') : KeepsExtractions db db' := by
  simp only [commitScan, bind_eq_ok, pure_eq_ok] at h
  obtain ⟨current, hlock, _, _, _, _, rows, _, _, _, _, _, _, _, rfl⟩ := h
  have hdeleted := documentStatus_ne_deleted scan request.disposition
  split <;> exact .modify (lockDocument_eq_ok hlock).1
    ⟨rfl, rfl, fun h => absurd h hdeleted⟩ rfl le_rfl rfl le_rfl

theorem beginExtraction_keeps {moment : Moment} {request : ExtractRequest}
    {started : StartedExtraction} (h : beginExtraction db moment request = .ok (started, db')) :
    KeepsExtractions db db' := by
  simp only [beginExtraction, bind_eq_ok] at h
  obtain ⟨locked, hlock, _, _, _, _, _, _, h⟩ := h
  split at h
  all_goals simp only [bind_eq_ok, pure_eq_ok, Prod.mk.injEq] at h
  · obtain ⟨_, _, _, _, _, _, _, _, _, rfl⟩ := h
    exact .modify (f := fun d => { d with status := .extracting }) (lockDocument_eq_ok hlock).1
      ⟨rfl, rfl, by intro h; cases h⟩ rfl le_rfl rfl le_rfl
  · obtain ⟨_, _, _, _, _, _, _, rfl⟩ := h
    exact .modify (f := fun d => { d with status := .extracting }) (lockDocument_eq_ok hlock).1
      ⟨rfl, rfl, by intro h; cases h⟩ rfl le_rfl rfl le_rfl

theorem recordExtractionFailure_keeps {moment : Moment} {request : ExtractRequest} {version : ℕ}
    (h : recordExtractionFailure db moment request version = .ok db') : KeepsExtractions db db' := by
  simp only [recordExtractionFailure, bind_eq_ok] at h
  obtain ⟨current, hlock, _, _, h⟩ := h
  split at h
  · obtain rfl := pure_eq_ok.mp h
    exact .refl db
  · simp only [bind_eq_ok, pure_eq_ok] at h
    obtain ⟨_, _, _, _, rfl⟩ := h
    have hlength : db.extractions.length ≤ (insertExtractionIfNew db
        ⟨request.documentId, current.document.rawObjectId, version, .failed⟩).extractions.length := by
      unfold insertExtractionIfNew
      split
      · rename_i hinsert
        simp only [insertExtraction, bind_eq_ok, pure_eq_ok] at hinsert
        obtain ⟨_, _, rfl⟩ := hinsert
        simp
      · exact le_rfl
    obtain ⟨extractions, hextractions⟩ := insertExtractionIfNew_eq db
      ⟨request.documentId, current.document.rawObjectId, version, .failed⟩
    rw [hextractions] at hlength ⊢
    exact .modify (f := fun d => { d with status := .extractionFailed }) (lockDocument_eq_ok hlock).1
      ⟨rfl, rfl, by intro h; cases h⟩ rfl hlength rfl le_rfl

/-- **The document services.**  Only commits and deletions change what documents are cited by. -/
theorem GateSys.step_keeps (g : GateSys) {a : GateAct} (ha : a.isCited = false) :
    KeepsExtractions g.db (g.step hashing a).db := by
  have htransact {t : Except ServiceError Tables}
      (ht : ∀ db, t = .ok db → KeepsExtractions g.db db) :
      KeepsExtractions g.db (g.transact t).db := by
    unfold GateSys.transact
    split
    · exact ht _ rfl
    · exact .refl _
  have hsame {db : Tables} (hdocuments : db.documents = g.db.documents)
      (hextractions : db.extractions = g.db.extractions)
      (hprojects : db.projectCount = g.db.projectCount) (hnow : g.db.now ≤ db.now) :
      KeepsExtractions g.db db :=
    .of_documents hdocuments hextractions hprojects hnow
  have helapse {db : Tables} (h : KeepsExtractions g.db db) (ms : ℕ) :
      KeepsExtractions g.db (db.elapse ms) := ⟨h.documents, h.extractions, h.projectCount, h.now.trans (Nat.le_add_right _ _)⟩
  cases a with
  | tick => exact hsame rfl rfl rfl (Nat.le_add_right _ _)
  | setJobs => exact hsame rfl rfl rfl le_rfl
  | createProject | deleteDocument | commitExtraction => cases ha
  | quarantineDocument input =>
    refine htransact fun db hdb => ?_
    obtain ⟨_, hquarantine, rfl⟩ := map_eq_ok.mp hdb
    exact quarantineDocument_keeps hquarantine
  | addSource => exact htransact fun db => addSource_keeps
  | reuseSource =>
    refine htransact fun db hdb => ?_
    simp only [Documents.reuseSource, bind_eq_ok] at hdb
    obtain ⟨_, _, hdb⟩ := hdb
    exact addSource_keeps hdb
  | beginScan request later aborted =>
    simp only [GateSys.step]
    split
    · exact hsame rfl rfl rfl (Nat.le_add_right _ _)
    · exact helapse (beginScan_keeps ‹_›) later
  | scanObject =>
    simp only [GateSys.step]
    split
    · unfold GateSys.scanObject
      repeat' split
      all_goals exact hsame rfl rfl rfl le_rfl
    · exact .refl _
  | commitScan call later aborted =>
    simp only [GateSys.step]
    split
    · unfold GateSys.commitScan
      split
      · exact hsame rfl rfl rfl (Nat.le_add_right _ _)
      · exact helapse (commitScan_keeps ‹_›) later
    · exact .refl _
  | beginExtraction request later aborted =>
    simp only [GateSys.step]
    split
    · exact hsame rfl rfl rfl (Nat.le_add_right _ _)
    · exact helapse (beginExtraction_keeps ‹_›) later
  | extractObject =>
    simp only [GateSys.step]
    split
    · unfold GateSys.extractObject
      repeat' split
      all_goals exact hsame rfl rfl rfl le_rfl
    · exact .refl _
  | failChunking =>
    simp only [GateSys.step]
    split
    · exact hsame rfl rfl rfl le_rfl
    · exact .refl _
  | recordExtractionFailure call later =>
    simp only [GateSys.step]
    split
    · unfold GateSys.recordExtractionFailure
      split
      · exact hsame rfl rfl rfl (Nat.le_add_right _ _)
      · exact helapse (recordExtractionFailure_keeps ‹_›) later
    · exact .refl _
  | abandon =>
    simp only [GateSys.step]
    split
    · unfold GateSys.abandon
      split <;> exact hsame rfl rfl rfl le_rfl
    · exact .refl _

/-! ### Commits and deletions -/

/-- A commit makes its extraction the current one of its document. -/
structure CommitsExtraction (db db' : Tables) (request : ExtractRequest)
    (result : DocumentExtractionResult) : Prop where
  documents : ∃ document, db.documents[request.documentId]? = some document ∧
    document.projectId = request.projectId ∧ request.projectId < db.projectCount ∧
    db'.documents = db.documents.modify request.documentId fun d => { d with
      status := if result.ocrRequired then .ocrRequiredUnsupported else .ready
      currentExtractionId := some db.extractions.length }
  extractions : db.extractions.length < db'.extractions.length
  projectCount : db'.projectCount = db.projectCount
  now : db.now ≤ db'.now

theorem commitExtraction_commits {moment : Moment} {request : ExtractRequest}
    {started : StartedExtraction} {bytes : Bytes} {result : DocumentExtractionResult}
    {artifact : PreparedExtractionArtifact}
    (h : commitExtraction db moment request started bytes result artifact = .ok db') :
    CommitsExtraction db db' request result := by
  simp only [commitExtraction, bind_eq_ok] at h
  obtain ⟨current, hlock, _, _, _, _, h⟩ := h
  have hdocument : ∃ document, db.documents[request.documentId]? = some document ∧
      document.projectId = request.projectId ∧ request.projectId < db.projectCount := by
    simp only [lockDocument, lockProject, bind_eq_ok, require_eq_ok, ensure_eq_ok] at hlock
    obtain ⟨_, hproject, document, hi, _, hid, _⟩ := hlock
    exact ⟨document, hi, hid, hproject⟩
  obtain ⟨document, hi, hid, hproject⟩ := hdocument
  split at h
  · rename_i hocr
    simp only [insertExtraction, bind_eq_ok, pure_eq_ok] at h
    obtain ⟨_, _, _, ⟨_, _, rfl⟩, _, _, _, _, _, _, rfl⟩ := h
    refine ⟨⟨document, hi, hid, hproject, ?_⟩, by simp, rfl, le_rfl⟩
    rw [hocr]
    rfl
  · rename_i hocr
    simp only [insertExtraction, bind_eq_ok, pure_eq_ok] at h
    obtain ⟨_, _, _, _, _, _, _, ⟨_, _, rfl⟩, _, _, _, _, _, _, rfl⟩ := h
    refine ⟨⟨document, hi, hid, hproject, ?_⟩, by simp, rfl, le_rfl⟩
    rw [Bool.not_eq_true] at hocr
    rw [hocr]
    rfl

/-- The step commits what `committedExtraction` says, or leaves documents and extractions alone. -/
theorem GateSys.commitExtraction_cases (g : GateSys) (call : ℕ) (payload : Bytes) (later : ℕ)
    (aborted : Bool) :
    let g' := g.step hashing (.commitExtraction call payload later aborted)
    match g.committedExtraction hashing call payload later aborted with
    | some (request, result) => CommitsExtraction g.db g'.db request result
    | none => KeepsExtractions g.db g'.db := by
  have hsame {db : Tables} (hdocuments : db.documents = g.db.documents)
      (hextractions : db.extractions = g.db.extractions)
      (hprojects : db.projectCount = g.db.projectCount) (hnow : g.db.now ≤ db.now) :
      KeepsExtractions g.db db :=
    .of_documents hdocuments hextractions hprojects hnow
  dsimp only [GateSys.step, GateSys.committedExtraction]
  cases hcall : g.calls[call]? with
  | none => exact .refl _
  | some c =>
    cases c with
    | scan => exact .refl _
    | extract request phase =>
      cases phase with
      | extracted started bytes result =>
        simp only [GateSys.commitExtraction]
        cases prepareExtractionArtifact hashing request.projectId
          (hashing.deterministicUploadUuid request.projectId
            (Nat.pair request.documentId started.version) .extraction)
          request.maxBytes started.locked payload with
        | none => exact hsame rfl rfl rfl le_rfl
        | some artifact =>
          cases hcommit : Documents.commitExtraction g.db (g.db.moment later aborted) request
              started bytes result artifact with
          | ok db =>
            have h := commitExtraction_commits hcommit
            simp only [hcommit]
            exact ⟨h.documents, h.extractions, h.projectCount, h.now.trans (Nat.le_add_right _ _)⟩
          | error e =>
            simp only [hcommit]
            exact hsame rfl rfl rfl (Nat.le_add_right _ _)
      | _ => exact .refl _

theorem deleteDocument_documents {projectId documentId : ℕ}
    (h : deleteDocument db projectId documentId = .ok db') :
    db'.extractions = db.extractions ∧ db'.projectCount = db.projectCount ∧
      ∃ document, db.documents[documentId]? = some document ∧ db'.documents =
        if document.status = .deleted then db.documents
        else db.documents.modify documentId fun d => { d with status := .deleted } := by
  simp only [deleteDocument, bind_eq_ok] at h
  obtain ⟨locked, hlock, _, _, _, _, h⟩ := h
  have hi := (lockDocument_eq_ok hlock).1
  split at h
  · rename_i hdeleted
    obtain rfl := pure_eq_ok.mp h
    exact ⟨rfl, rfl, locked.document, hi, (if_pos hdeleted).symm⟩
  · rename_i hdeleted
    simp only [bind_eq_ok, pure_eq_ok] at h
    obtain ⟨_, _, rfl⟩ := h
    refine ⟨?_, ?_, locked.document, hi, ?_⟩
    · split <;> rfl
    · split <;> rfl
    · rw [if_neg hdeleted]
      split <;> rfl

/-! ### The invariant -/

/-- **The invariant.** -/
structure CitationInv (s : CitationSys) : Prop where
  current : ∀ document ∈ s.gate.db.documents, ∀ id ∈ document.currentExtractionId,
    id < s.gate.db.extractions.length
  anchors : ∀ anchor ∈ s.cited.anchors, anchor.extractionId < s.gate.db.extractions.length
  evidence : ∀ evidence ∈ s.cited.evidence, ∀ id ∈ evidence.citationAnchorId,
    id < s.cited.anchors.length
  bundles : ∀ bundle ∈ s.bundles, ∀ source ∈ bundle.2, ∀ id ∈ source.firstCitationAnchorId,
    id < s.cited.anchors.length
  projects : s.cited.projects.length = s.gate.db.projectCount

theorem KeepsExtractions.current (h : KeepsExtractions db db')
    (hcurrent : ∀ document ∈ db.documents, ∀ id ∈ document.currentExtractionId,
      id < db.extractions.length) :
    ∀ document ∈ db'.documents, ∀ id ∈ document.currentExtractionId, id < db'.extractions.length := by
  intro document' hdocument' id hid
  obtain ⟨i, hi⟩ := List.mem_iff_getElem?.mp hdocument'
  obtain ⟨document, hdocument, hsame⟩ | ⟨_, hnone⟩ := h.documents.cases hi
  · rw [hsame.currentExtractionId] at hid
    exact lt_of_lt_of_le (hcurrent document (List.mem_of_getElem? hdocument) id hid) h.extractions
  · rw [show document'.currentExtractionId = none from hnone] at hid
    cases hid

/-- The document services alone. -/
theorem CitationInv.gate (hI : CitationInv s) {gate : GateSys}
    (h : KeepsExtractions s.gate.db gate.db) : CitationInv { s with gate } where
  current := h.current hI.current
  anchors anchor hanchor := lt_of_lt_of_le (hI.anchors anchor hanchor) h.extractions
  evidence := hI.evidence
  bundles := hI.bundles
  projects := hI.projects.trans h.projectCount.symm

/-- Anchors and evidence of any status. -/
theorem CitationInv.cited (hI : CitationInv s) {t : CitationTables}
    (hanchors : ∀ anchor' ∈ t.anchors, ∃ anchor ∈ s.cited.anchors,
      anchor'.extractionId = anchor.extractionId)
    (hlength : t.anchors.length = s.cited.anchors.length)
    (hevidence : ∀ evidence' ∈ t.evidence, ∀ id ∈ evidence'.citationAnchorId,
      id < s.cited.anchors.length)
    (hprojects : t.projects.length = s.cited.projects.length) : CitationInv { s with cited := t } where
  current := hI.current
  anchors anchor' hanchor' := by
    obtain ⟨anchor, hanchor, heq⟩ := hanchors anchor' hanchor'
    rw [heq]
    exact hI.anchors anchor hanchor
  evidence evidence' he id hid := by
    rw [hlength]
    exact hevidence evidence' he id hid
  bundles bundle hbundle source hsource id hid := by
    rw [hlength]
    exact hI.bundles bundle hbundle source hsource id hid
  projects := hprojects.trans hI.projects

/-! ### What changes citations -/

variable {t : CitationTables} {documentId extractionId : ℕ}

/-- An update that leaves the references of anchors alone. -/
theorem sameAnchor_updateWhere {p : ℕ → CitationAnchorRow → Bool}
    {anchors : List CitationAnchorRow} {anchor' : CitationAnchorRow}
    (h : anchor' ∈ updateWhere p (·.review) anchors) : ∃ anchor ∈ anchors,
      anchor'.documentId = anchor.documentId ∧ anchor'.extractionId = anchor.extractionId ∧
        (anchor'.status = .current → anchor' = anchor) := by
  obtain ⟨i, anchor, hi, rfl⟩ := mem_updateWhere h
  refine ⟨anchor, List.mem_of_getElem? hi, ?_⟩
  split
  · exact ⟨rfl, rfl, nofun⟩
  · exact ⟨rfl, rfl, fun _ => rfl⟩

/-- The anchor of an evidence row after an update of anchors: it was there with the same
    references. -/
theorem anchor_updateWhere {p : ℕ → CitationAnchorRow → Bool} {anchors : List CitationAnchorRow}
    {evidence : EvidenceRow} {anchor' : CitationAnchorRow}
    (h : anchor' ∈ evidence.anchor (updateWhere p (·.review) anchors)) :
    ∃ anchor ∈ evidence.anchor anchors, anchor'.documentId = anchor.documentId ∧
      anchor'.extractionId = anchor.extractionId := by
  simp only [EvidenceRow.anchor, Option.mem_def, Option.bind_eq_some_iff] at h ⊢
  obtain ⟨id, hid, hrow⟩ := h
  rw [getElem?_updateWhere, Option.map_eq_some_iff] at hrow
  obtain ⟨anchor, hanchor, rfl⟩ := hrow
  refine ⟨anchor, ⟨id, hid, hanchor⟩, ?_⟩
  split <;> exact ⟨rfl, rfl⟩

/-- The anchor of an evidence row is the same one after anchors are added. -/
theorem anchor_append {anchors added : List CitationAnchorRow} {evidence : EvidenceRow}
    (h : ∀ id ∈ evidence.citationAnchorId, id < anchors.length) :
    evidence.anchor (anchors ++ added) = evidence.anchor anchors := by
  unfold EvidenceRow.anchor
  cases hid : evidence.citationAnchorId with
  | none => rfl
  | some id => exact List.getElem?_append_left (h id hid)

/-- The anchors that a commit inserts. -/
theorem mem_insertExtracted {sourceId : ℕ} {blocks : List DocumentBlock}
    {chunks : List DocumentChunk} {anchor : CitationAnchorRow}
    (h : anchor ∈ (insertExtracted t sourceId documentId extractionId blocks chunks).anchors) :
    anchor ∈ t.anchors ∨ anchor.documentId = documentId ∧ anchor.extractionId = extractionId := by
  obtain h | h := List.mem_append.mp h
  · exact .inl h
  · obtain ⟨⟨chunk, ordinal⟩, _, rfl⟩ := List.mem_map.mp h
    exact .inr ⟨rfl, rfl⟩

/-- **The success branch.**  The document is cited by `CURRENT` anchors of the extraction only, and
    by evidence of older anchors only where it needs a review. -/
structure MovedTo (t t' : CitationTables) (documentId extractionId : ℕ) : Prop where
  anchors : ∀ anchor' ∈ t'.anchors,
    anchor'.documentId = documentId ∧ anchor'.extractionId = extractionId ∨
      ∃ anchor ∈ t.anchors, anchor'.documentId = anchor.documentId ∧
        anchor'.extractionId = anchor.extractionId ∧ (anchor'.status = .current →
          anchor' = anchor ∧ anchor.documentId ≠ documentId)
  length : t.anchors.length ≤ t'.anchors.length
  evidence : ∀ evidence' ∈ t'.evidence, ∃ evidence ∈ t.evidence,
    evidence'.citationAnchorId = evidence.citationAnchorId ∧
      ∀ anchor' ∈ evidence'.anchor t'.anchors, ∃ anchor ∈ evidence.anchor t.anchors,
        anchor'.documentId = anchor.documentId ∧ anchor'.extractionId = anchor.extractionId ∧
          (anchor.documentId = documentId ∧ evidence'.citationStatus = .needsReview ∨
            anchor.documentId ≠ documentId ∧ evidence'.citationStatus = evidence.citationStatus ∨
            evidence'.citationStatus = .needsReview)

theorem persistExtraction_moved {document : DocumentRow} {result : DocumentExtractionResult}
    {chunks : List DocumentChunk} (hocr : result.ocrRequired = false)
    (hanchors : ∀ anchor ∈ t.anchors, anchor.extractionId < extractionId)
    (hevidence : ∀ evidence ∈ t.evidence, ∀ id ∈ evidence.citationAnchorId,
      id < t.anchors.length) :
    MovedTo t (persistExtraction t document documentId extractionId result chunks) documentId
      extractionId := by
  simp only [persistExtraction, hocr, Bool.false_eq_true, if_false]
  generalize hinsert : insertExtracted t (document.sourceId.getD 0) documentId extractionId
    result.blocks chunks = inserted
  have hkept : inserted.evidence = t.evidence := by rw [← hinsert]; rfl
  have happend : ∃ added, inserted.anchors = t.anchors ++ added := by
    rw [← hinsert]
    exact ⟨_, rfl⟩
  obtain ⟨added, hadded⟩ := happend
  refine ⟨fun anchor' hanchor' => ?_, ?_, fun evidence' he => ?_⟩
  · obtain ⟨i, anchor, hi, rfl⟩ := mem_updateWhere hanchor'
    have hmem := List.mem_of_getElem? hi
    rw [← hinsert] at hmem
    obtain hold | ⟨hdocument, hextraction⟩ := mem_insertExtracted hmem
    · refine .inr ⟨anchor, hold, ?_⟩
      split
      · exact ⟨rfl, rfl, nofun⟩
      · rename_i hnot
        refine ⟨rfl, rfl, fun hcurrent => ⟨rfl, fun hdocument => hnot ?_⟩⟩
        simp [hdocument, hcurrent, (hanchors anchor hold).ne]
    · left
      split <;> exact ⟨hdocument, hextraction⟩
  · show t.anchors.length ≤ (updateWhere _ _ inserted.anchors).length
    rw [length_updateWhere, hadded, List.length_append]
    exact Nat.le_add_right _ _
  · obtain ⟨i, evidence, hi, rfl⟩ := mem_updateWhere he
    have hmem : evidence ∈ t.evidence := by
      rw [← hkept]
      exact List.mem_of_getElem? hi
    have hanchor : evidence.anchor inserted.anchors = evidence.anchor t.anchors := by
      rw [hadded]
      exact anchor_append (hevidence evidence hmem)
    refine ⟨evidence, hmem, by split <;> rfl, fun anchor' hanchor' => ?_⟩
    have hsame : anchor' ∈ evidence.anchor
        (moveCitations inserted documentId extractionId).anchors := by
      revert hanchor'
      split <;> exact id
    obtain ⟨anchor, hold, hdocument, hextraction⟩ := anchor_updateWhere hsame
    rw [hanchor] at hold
    refine ⟨anchor, hold, hdocument, hextraction, ?_⟩
    split
    · exact .inr (.inr rfl)
    · rename_i hnot
      refine .inr (.inl ⟨fun heq => hnot ?_, rfl⟩)
      have hrow : anchor ∈ t.anchors := by
        simp only [EvidenceRow.anchor, Option.mem_def, Option.bind_eq_some_iff] at hold
        obtain ⟨id, _, hid⟩ := hold
        exact List.mem_of_getElem? hid
      rw [hanchor, Option.any_eq_true]
      exact ⟨anchor, hold, by simp [heq, (hanchors anchor hrow).ne]⟩

/-! ### The invariant is kept -/

theorem persistExtraction_projects (t : CitationTables) (document : DocumentRow)
    (result : DocumentExtractionResult) (chunks : List DocumentChunk) :
    (persistExtraction t document documentId extractionId result chunks).projects.length =
      t.projects.length := by
  unfold persistExtraction
  split
  · rfl
  · exact List.length_modify _ _ _

theorem CitationInv.commitExtraction (hI : CitationInv s) (call : ℕ) (payload : Bytes)
    (chunks : List DocumentChunk) (later : ℕ) (aborted : Bool) :
    CitationInv (s.step hashing (.commitExtraction call payload chunks later aborted)) := by
  have hcases := @GateSys.commitExtraction_cases hashing s.gate call payload later aborted
  dsimp only [CitationSys.step] at hcases ⊢
  generalize s.gate.step hashing (.commitExtraction call payload later aborted) = gate at hcases ⊢
  cases hcommit : s.gate.committedExtraction hashing call payload later aborted with
  | none =>
    rw [hcommit] at hcases
    exact hI.gate hcases
  | some committed =>
    obtain ⟨request, result⟩ := committed
    rw [hcommit] at hcases
    obtain ⟨⟨document, hi, _, _, hdocuments⟩, hextractions, hprojects, _⟩ := hcases
    have hcurrent : ∀ document ∈ gate.db.documents, ∀ id ∈ document.currentExtractionId,
        id < gate.db.extractions.length := by
      rw [hdocuments]
      intro d hd id hid
      obtain ⟨i, hrow⟩ := List.mem_iff_getElem?.mp hd
      obtain ⟨d', hold, ⟨_, rfl⟩ | ⟨_, rfl⟩⟩ := getElem?_modify_cases hrow
      · obtain rfl := Option.some.inj (Option.mem_def.mp hid)
        exact hextractions
      · exact (hI.current d (List.mem_of_getElem? hold) id hid).trans hextractions
    simp only [CitationSys.citedAfter, hi]
    cases hocr : result.ocrRequired with
    | true =>
      simp only [persistExtraction, hocr, if_true]
      exact ⟨hcurrent, fun a ha => (hI.anchors a ha).trans hextractions, hI.evidence, hI.bundles,
        hI.projects.trans hprojects.symm⟩
    | false =>
      have hmoved := @persistExtraction_moved _ request.documentId _ document _ chunks hocr
        hI.anchors hI.evidence
      refine ⟨hcurrent, fun anchor' hanchor' => ?_, fun evidence' he id hid => ?_,
        fun bundle hb source hsource id hid =>
          lt_of_lt_of_le (hI.bundles bundle hb source hsource id hid) hmoved.length,
        (persistExtraction_projects _ _ _ _).trans (hI.projects.trans hprojects.symm)⟩
      · obtain ⟨_, heq⟩ | ⟨anchor, hanchor, _, heq, _⟩ := hmoved.anchors anchor' hanchor'
        · rw [heq]
          exact hextractions
        · rw [heq]
          exact (hI.anchors anchor hanchor).trans hextractions
      · obtain ⟨evidence, hold, heq, _⟩ := hmoved.evidence evidence' he
        rw [heq] at hid
        exact lt_of_lt_of_le (hI.evidence evidence hold id hid) hmoved.length

/-- Rows of evidence that cite anchors there are, or none. -/
theorem CitationInv.append_evidence (hI : CitationInv s) {rows : List EvidenceRow}
    {projects : List Workflow.ResearchProject}
    (hrows : ∀ evidence ∈ rows, ∀ id ∈ evidence.citationAnchorId, id < s.cited.anchors.length)
    (hprojects : projects.length = s.cited.projects.length) :
    CitationInv { s with cited := { s.cited with
      evidence := s.cited.evidence ++ rows, projects } } := by
  refine hI.cited (fun anchor h => ⟨anchor, h, rfl⟩) rfl (fun evidence he => ?_) hprojects
  obtain he | he := List.mem_append.mp he
  · exact hI.evidence evidence he
  · exact hrows evidence he

theorem CitationInv.withdraw (hI : CitationInv s) (projectId documentId : ℕ) :
    CitationInv { s with cited := withdrawCitations s.cited projectId documentId } := by
  refine hI.cited (fun anchor' h => ?_) (length_updateWhere ..) (fun evidence' he id hid => ?_)
    (List.length_modify _ _ _)
  · obtain ⟨anchor, hanchor, _, heq, _⟩ := sameAnchor_updateWhere h
    exact ⟨anchor, hanchor, heq⟩
  · obtain ⟨i, evidence, hi, rfl⟩ := mem_updateWhere he
    refine hI.evidence evidence (List.mem_of_getElem? hi) id ?_
    revert hid
    split <;> exact fun hid => hid

/-- The anchor of an eligible source is one of the table. -/
theorem eligibleSource_anchor {projectId sourceId : ℕ} {source : EligibleSource}
    (h : eligibleSource db t projectId sourceId = some source) :
    ∀ id ∈ source.firstCitationAnchorId, id < t.anchors.length := by
  intro id hid
  simp only [eligibleSource] at h
  split at h
  · obtain rfl := Option.some.inj h
    cases hid
  · split at h
    · cases h
    · obtain rfl := Option.some.inj h
      simp only [Option.mem_def, Option.map_eq_some_iff, Option.bind_eq_some_iff] at hid
      obtain ⟨⟨_, anchor⟩, ⟨_, _, hanchor⟩, rfl⟩ := hid
      exact (List.getElem?_eq_some_iff.mp (findRow_eq_some hanchor).1).1

/-- What `commitEvidence` inserts, where it does not fail. -/
theorem commitEvidence_eq_ok {t' : CitationTables} {projectId : ℕ} {sources : List EligibleSource}
    {output : List ℕ} (h : commitEvidence db t projectId sources output = .ok t') :
    AreAccepted db projectId sources output ∧ ∃ rows : List EligibleSource,
      (∀ id ∈ output, ∃ source ∈ rows, sources.find? (·.id = id) = some source) ∧
        (∀ source ∈ rows, ∃ id ∈ output, sources.find? (·.id = id) = some source) ∧
          t' = { t with evidence := t.evidence ++ rows.map (·.evidence) } := by
  simp only [commitEvidence, bind_eq_ok, ensure_eq_ok, pure_eq_ok] at h
  obtain ⟨_, haccepted, rows, hrows, rfl⟩ := h
  obtain ⟨hleft, hright⟩ := mapM_eq_ok hrows
  simp only [require_eq_ok] at hleft hright
  refine ⟨⟨haccepted, fun id hid => ?_⟩, rows, hleft, hright, rfl⟩
  obtain ⟨source, _, hsource⟩ := hleft id hid
  rw [hsource]
  rfl

/-- What is accepted is inserted. -/
theorem AreAccepted.commitEvidence {projectId : ℕ} {sources : List EligibleSource}
    {output : List ℕ} (h : AreAccepted db projectId sources output) :
    ∃ t', Documents.commitEvidence db t projectId sources output = .ok t' := by
  obtain ⟨rows, hrows⟩ := exists_mapM_eq_ok (l := output) (f := fun sourceId =>
    require (sources.find? (·.id = sourceId)) (conflict .UNKNOWN_SOURCE_ID
      "Evidence output references a source outside the eligible project allowlist."))
    fun id hid => by
      obtain ⟨source, hsource⟩ := Option.isSome_iff_exists.mp (h.2 id hid)
      exact ⟨source, require_eq_ok.mpr hsource⟩
  refine ⟨{ t with evidence := t.evidence ++ rows.map (·.evidence) }, ?_⟩
  simp only [Documents.commitEvidence, bind_eq_ok, ensure_eq_ok, pure_eq_ok]
  exact ⟨(), h.1, rows, hrows, rfl⟩

/-- **Step lemma.**  Every step keeps the invariant. -/
theorem CitationInv.step (hI : CitationInv s) (a : CitationAct) :
    CitationInv (s.step hashing a) := by
  cases a with
  | gate a =>
    simp only [CitationSys.step]
    split
    · exact hI
    · rename_i hgate
      exact hI.gate (s.gate.step_keeps (Bool.eq_false_iff.mpr hgate))
  | createProject project =>
    exact ⟨hI.current, hI.anchors, hI.evidence, hI.bundles, by
      simp only [CitationSys.step, GateSys.step, List.length_append, List.length_singleton,
        hI.projects]⟩
  | setProject projectId project =>
    exact ⟨hI.current, hI.anchors, hI.evidence, hI.bundles, by
      simp only [CitationSys.step, List.length_set, hI.projects]⟩
  | commitExtraction call payload chunks later aborted =>
    exact hI.commitExtraction call payload chunks later aborted
  | deleteDocument projectId documentId =>
    simp only [CitationSys.step, CitationSys.deleteDocument]
    cases hdelete : Documents.deleteDocument s.gate.db projectId documentId with
    | error e => exact hI
    | ok db =>
      obtain ⟨hextractions, hprojects, document, hi, hdocuments⟩ := deleteDocument_documents hdelete
      have hkept : CitationInv { s with gate := { s.gate with db } } := by
        refine ⟨fun d hd id hid => ?_, ?_, hI.evidence, hI.bundles,
          hI.projects.trans hprojects.symm⟩
        · dsimp only at hd ⊢
          rw [hextractions]
          rw [hdocuments] at hd
          split at hd
          · exact hI.current d hd id hid
          · obtain ⟨i, hrow⟩ := List.mem_iff_getElem?.mp hd
            obtain ⟨d', hold, ⟨_, rfl⟩ | ⟨_, rfl⟩⟩ := getElem?_modify_cases hrow
            · exact hI.current d' (List.mem_of_getElem? hold) id hid
            · exact hI.current d (List.mem_of_getElem? hold) id hid
        · dsimp only
          rw [hextractions]
          exact hI.anchors
      dsimp only
      split
      · exact hkept
      · exact hkept.withdraw projectId documentId
  | addEvidence sourceId =>
    simp only [CitationSys.step, CitationSys.transact]
    split
    · rename_i hadd
      simp only [Documents.addEvidence, bind_eq_ok, pure_eq_ok] at hadd
      obtain ⟨source, _, rfl⟩ := hadd
      refine @CitationInv.append_evidence _ hI [EvidenceRow.ofSource sourceId] _ (fun evidence he => ?_)
        (List.length_modify _ _ _)
      obtain rfl := List.mem_singleton.mp he
      intro _ h
      cases h
    · exact hI
  | loadEligibleSources projectId =>
    refine ⟨hI.current, hI.anchors, hI.evidence, fun bundle hbundle source hsource => ?_,
      hI.projects⟩
    obtain hbundle | hbundle := List.mem_append.mp hbundle
    · exact hI.bundles bundle hbundle source hsource
    · obtain rfl := List.mem_singleton.mp hbundle
      obtain ⟨id, _, heligible⟩ := List.mem_filterMap.mp hsource
      exact eligibleSource_anchor heligible
  | commitEvidence bundle output =>
    simp only [CitationSys.step]
    cases hbundle : s.bundles[bundle]? with
    | none => exact hI
    | some loaded =>
      obtain ⟨projectId, sources⟩ := loaded
      simp only [CitationSys.transact]
      split
      · rename_i hcommit
        obtain ⟨_, rows, _, hrows, rfl⟩ := commitEvidence_eq_ok hcommit
        refine hI.append_evidence (fun evidence he => ?_) rfl
        obtain ⟨source, hsource, rfl⟩ := List.mem_map.mp he
        obtain ⟨id, _, hfind⟩ := hrows source hsource
        exact hI.bundles _ (List.mem_of_getElem? hbundle) source (List.mem_of_find?_eq_some hfind)
      · exact hI

/-! ### The property is kept -/

theorem KeepsExtractions.isCurrent (h : KeepsExtractions db db') {anchor : CitationAnchorRow}
    (hcurrent : IsCurrent db anchor) : IsCurrent db' anchor := by
  obtain ⟨document, hdocument, heq⟩ := hcurrent
  obtain ⟨document', hdocument', hsame⟩ := h.documents.old _ _ hdocument
  exact ⟨document', hdocument', hsame.currentExtractionId.trans heq⟩

theorem CitationsCurrent.gate (hC : CitationsCurrent s) {gate : GateSys}
    (h : KeepsExtractions s.gate.db gate.db) : CitationsCurrent { s with gate } where
  anchors anchor hanchor hstatus := by
    obtain ⟨document, hdocument, heq, hdeleted⟩ := hC.anchors anchor hanchor hstatus
    obtain ⟨document', hdocument', hsame⟩ := h.documents.old _ _ hdocument
    exact ⟨document', hdocument', hsame.currentExtractionId.trans heq,
      fun hstatus => hdeleted (hsame.deleted hstatus)⟩
  evidence evidence he anchor ha hnot :=
    hC.evidence evidence he anchor ha fun hcurrent => hnot (h.isCurrent hcurrent)

/-- No current extraction changes. -/
theorem KeepsExtractions.withdraws {s' : CitationSys}
    (h : KeepsExtractions s.gate.db s'.gate.db) : WithdrawsReview s s' := by
  intro i document document' hi hi' hne
  obtain ⟨row, hrow, hsame⟩ := h.documents.old i document hi
  obtain rfl := Option.some.inj (hrow.symm.trans hi')
  exact absurd hsame.currentExtractionId hne

theorem invalidate_isWithdrawn (project : Workflow.ResearchProject)
    (fallbackStatus : Workflow.ProjectStatus) : IsWithdrawn (project.invalidate fallbackStatus) :=
  ⟨rfl, rfl, rfl, rfl⟩

section Commit

variable {request : ExtractRequest} {result : DocumentExtractionResult}

/-- The document has the new extraction. -/
theorem CommitsExtraction.row (h : CommitsExtraction db db' request result) :
    ∃ document ∈ db'.documents[request.documentId]?,
      document.currentExtractionId = some db.extractions.length ∧ document.status ≠ .deleted := by
  obtain ⟨document, hi, _, _, hdocuments⟩ := h.documents
  rw [hdocuments, getElem?_modify_eq hi]
  refine ⟨_, rfl, rfl, ?_⟩
  cases result.ocrRequired <;> exact nofun

/-- Other documents are the same. -/
theorem CommitsExtraction.other (h : CommitsExtraction db db' request result) {i : ℕ}
    (hi : i ≠ request.documentId) : db'.documents[i]? = db.documents[i]? := by
  obtain ⟨_, _, _, _, hdocuments⟩ := h.documents
  rw [hdocuments, getElem?_modify_ne hi.symm]

theorem CommitsExtraction.isCurrent_other (h : CommitsExtraction db db' request result)
    {anchor : CitationAnchorRow} (hne : anchor.documentId ≠ request.documentId) :
    IsCurrent db' anchor ↔ IsCurrent db anchor := by
  unfold IsCurrent
  rw [h.other hne]

/-- Anchors from before the commit are not current. -/
theorem CommitsExtraction.not_isCurrent (h : CommitsExtraction db db' request result)
    {anchor : CitationAnchorRow} (hdocument : anchor.documentId = request.documentId)
    (hanchor : anchor.extractionId < db.extractions.length) : ¬ IsCurrent db' anchor := by
  rintro ⟨document', hdocument', heq⟩
  obtain ⟨document, hrow, hcurrent, _⟩ := h.row
  rw [hdocument] at hdocument'
  obtain rfl := Option.some.inj (hrow.symm.trans hdocument')
  exact hanchor.ne (Option.some.inj (heq.symm.trans hcurrent))

/-- Only the project of the document needs to be withdrawn. -/
theorem CommitsExtraction.withdraws {s' : CitationSys}
    (h : CommitsExtraction s.gate.db s'.gate.db request result)
    (hproject : ∃ project ∈ s'.cited.projects[request.projectId]?, IsWithdrawn project) :
    WithdrawsReview s s' := by
  intro i document document' hi hi' hne
  by_cases heq : i = request.documentId
  · subst heq
    obtain ⟨row, hrow, hid, _⟩ := h.documents
    obtain rfl := Option.some.inj (hrow.symm.trans hi)
    rw [hid]
    exact hproject
  · rw [h.other heq] at hi'
    obtain rfl := Option.some.inj (hi.symm.trans hi')
    exact absurd rfl hne

/-- **A commit of an extraction that needs no OCR** keeps the property. -/
theorem CitationsCurrent.commit (hI : CitationInv s) (hC : CitationsCurrent s) {gate : GateSys}
    (h : CommitsExtraction s.gate.db gate.db request result) (hocr : result.ocrRequired = false)
    {document : DocumentRow} (hi : s.gate.db.documents[request.documentId]? = some document)
    (chunks : List DocumentChunk) :
    let cited := persistExtraction s.cited document request.documentId s.gate.db.extractions.length
      result chunks
    let s' := { s with gate, cited }
    CitationsCurrent s' ∧ WithdrawsReview s s' := by
  have hmoved := @persistExtraction_moved _ request.documentId _ document _ chunks hocr
    hI.anchors hI.evidence
  refine ⟨⟨fun anchor' hanchor' hstatus => ?_, fun evidence' he anchor' ha' hnot => ?_⟩,
    h.withdraws ?_⟩
  · obtain ⟨hdocument, hextraction⟩ | ⟨anchor, hanchor, _, _, hcurrent⟩ :=
      hmoved.anchors anchor' hanchor'
    · rw [hdocument, hextraction]
      exact h.row
    · obtain ⟨rfl, hne⟩ := hcurrent hstatus
      rw [h.other hne]
      exact hC.anchors _ hanchor hstatus
  · obtain ⟨evidence, hold, _, hanchors⟩ := hmoved.evidence evidence' he
    obtain ⟨anchor, ha, hdocument, hextraction, hcase⟩ := hanchors anchor' ha'
    obtain ⟨_, hreview⟩ | ⟨hne, hsame⟩ | hreview := hcase
    · exact hreview
    · rw [hsame]
      refine hC.evidence evidence hold anchor ha fun hcurrent => hnot ?_
      rw [h.isCurrent_other (hdocument.trans_ne hne)]
      unfold IsCurrent at hcurrent ⊢
      rw [hdocument, hextraction]
      exact hcurrent
    · exact hreview
  · obtain ⟨row, hrow, hid, hlt, _⟩ := h.documents
    obtain rfl := Option.some.inj (hrow.symm.trans hi)
    rw [← hI.projects, ← hid] at hlt
    simp only [persistExtraction, hocr, Bool.false_eq_true, if_false]
    rw [← hid]
    exact ⟨_, getElem?_modify_eq (List.getElem?_eq_getElem hlt), invalidate_isWithdrawn _ _⟩

/-- **A commit of an extraction that needs OCR** keeps the property exactly if nothing cites the
    document. -/
theorem CitationsCurrent.commit_ocr_iff (hI : CitationInv s) (hC : CitationsCurrent s)
    {gate : GateSys} (h : CommitsExtraction s.gate.db gate.db request result) :
    CitationsCurrent { s with gate } ∧ WithdrawsReview s { s with gate } ↔
      NothingCites s.cited request.documentId ∧
        ∃ project ∈ s.cited.projects[request.projectId]?, IsWithdrawn project := by
  constructor
  · rintro ⟨hgood, hwithdraws⟩
    refine ⟨⟨fun anchor hanchor hdocument hstatus => ?_,
      fun evidence he anchor ha hdocument => hgood.evidence evidence he anchor ha ?_⟩, ?_⟩
    · obtain ⟨document, hrow, heq, _⟩ := hgood.anchors anchor hanchor hstatus
      exact h.not_isCurrent hdocument (hI.anchors anchor hanchor) ⟨document, hrow, heq⟩
    · refine h.not_isCurrent hdocument (hI.anchors anchor ?_)
      simp only [EvidenceRow.anchor, Option.mem_def, Option.bind_eq_some_iff] at ha
      obtain ⟨id, _, hid⟩ := ha
      exact List.mem_of_getElem? hid
    · obtain ⟨document, hi, hid, _⟩ := h.documents
      obtain ⟨document', hi', hcurrent, _⟩ := h.row
      rw [← hid]
      refine hwithdraws _ document document' hi hi' fun heq => ?_
      rw [hcurrent] at heq
      exact absurd (hI.current document (List.mem_of_getElem? hi) _ heq.symm) (lt_irrefl _)
  · rintro ⟨⟨hanchors, hevidence⟩, hproject⟩
    refine ⟨⟨fun anchor hanchor hstatus => ?_, fun evidence he anchor ha hnot => ?_⟩,
      h.withdraws hproject⟩
    · have hne : anchor.documentId ≠ request.documentId :=
        fun heq => hanchors anchor hanchor heq hstatus
      rw [h.other hne]
      exact hC.anchors anchor hanchor hstatus
    · by_cases heq : anchor.documentId = request.documentId
      · exact hevidence evidence he anchor ha heq
      · exact hC.evidence evidence he anchor ha ((h.isCurrent_other heq).not.mp hnot)

end Commit

/-- A deletion marks a document and leaves the extractions of all documents alone. -/
structure DeletesDocument (db db' : Tables) (documentId : ℕ) : Prop where
  currentExtractionId : ∀ i : ℕ, db'.documents[i]?.map DocumentRow.currentExtractionId =
    db.documents[i]?.map DocumentRow.currentExtractionId
  other : ∀ i : ℕ, i ≠ documentId → db'.documents[i]? = db.documents[i]?

theorem deleteDocument_deletes {projectId documentId : ℕ}
    (h : deleteDocument db projectId documentId = .ok db') :
    DeletesDocument db db' documentId ∧ ((db.documents[documentId]?.any (·.status = .deleted)) →
      db'.documents = db.documents) := by
  obtain ⟨_, _, document, hi, hdocuments⟩ := deleteDocument_documents h
  rw [hi, Option.any_some, decide_eq_true_eq]
  refine ⟨⟨fun i => ?_, fun i hne => ?_⟩, fun hdeleted => ?_⟩
  · rw [hdocuments]
    split
    · rfl
    · rw [List.getElem?_modify]
      cases db.documents[i]? with
      | none => rfl
      | some d =>
        simp only [Option.map_eq_map, Option.map_some, Option.some.injEq]
        split <;> rfl
  · rw [hdocuments]
    split
    · rfl
    · exact getElem?_modify_ne hne.symm
  · rw [hdocuments, if_pos hdeleted]

theorem DeletesDocument.isCurrent {documentId : ℕ} (h : DeletesDocument db db' documentId)
    {anchor : CitationAnchorRow} (hcurrent : IsCurrent db anchor) : IsCurrent db' anchor := by
  obtain ⟨document, hdocument, heq⟩ := hcurrent
  have hmap := h.currentExtractionId anchor.documentId
  rw [Option.mem_def.mp hdocument, Option.map_some, Option.map_eq_some_iff] at hmap
  obtain ⟨document', hdocument', hsame⟩ := hmap
  exact ⟨document', hdocument', hsame.trans heq⟩

theorem DeletesDocument.withdraws {documentId : ℕ} {s' : CitationSys}
    (h : DeletesDocument s.gate.db s'.gate.db documentId) : WithdrawsReview s s' := by
  intro i document document' hi hi' hne
  have hmap := h.currentExtractionId i
  rw [hi, hi'] at hmap
  exact absurd (Option.some.inj hmap) hne

/-- **Deletions** keep the property. -/
theorem CitationsCurrent.deleteDocument (hC : CitationsCurrent s) (projectId documentId : ℕ) :
    CitationsCurrent (s.deleteDocument projectId documentId) ∧
      WithdrawsReview s (s.deleteDocument projectId documentId) := by
  unfold CitationSys.deleteDocument
  cases hdelete : Documents.deleteDocument s.gate.db projectId documentId with
  | error e => exact ⟨hC, KeepsExtractions.withdraws (.refl _)⟩
  | ok db =>
    obtain ⟨hdeletes, hdeleted⟩ := deleteDocument_deletes hdelete
    refine ⟨?_, hdeletes.withdraws⟩
    dsimp only
    split
    · rename_i hwas
      refine ⟨fun anchor hanchor hstatus => ?_, fun evidence he anchor ha hnot =>
        hC.evidence evidence he anchor ha fun hcurrent => hnot (hdeletes.isCurrent hcurrent)⟩
      dsimp only
      rw [hdeleted hwas]
      exact hC.anchors anchor hanchor hstatus
    · refine ⟨fun anchor' hanchor' hstatus => ?_, fun evidence' he anchor' ha hnot => ?_⟩
      · obtain ⟨i, anchor, hi, rfl⟩ := mem_updateWhere hanchor'
        revert hstatus
        split
        · exact nofun
        · rename_i hnot
          intro hstatus
          have hne : anchor.documentId ≠ documentId := fun heq => hnot (by simp [heq, hstatus])
          dsimp only
          rw [hdeletes.other _ hne]
          exact hC.anchors anchor (List.mem_of_getElem? hi) hstatus
      · obtain ⟨anchor, hold, hdocument, hextraction⟩ := anchor_updateWhere ha
        obtain ⟨i, evidence, hi, rfl⟩ := mem_updateWhere he
        have hreview : ¬ IsCurrent s.gate.db anchor := by
          intro hcurrent
          refine hnot (hdeletes.isCurrent ?_)
          unfold IsCurrent at hcurrent ⊢
          rw [hdocument, hextraction]
          exact hcurrent
        split
        · rfl
        · rename_i hp
          rw [if_neg hp] at hold
          exact hC.evidence evidence (List.mem_of_getElem? hi) anchor hold hreview

/-- **Committed evidence** keeps the property exactly if its anchors are current. -/
theorem CitationsCurrent.commitEvidence_iff (hC : CitationsCurrent s) {projectId : ℕ}
    {sources : List EligibleSource} {output : List ℕ} :
    CitationsCurrent
        (s.transact (commitEvidence s.gate.db s.cited projectId sources output)) ↔
      (AreAccepted s.gate.db projectId sources output →
        ∀ sourceId ∈ output, ∀ source ∈ sources.find? (·.id = sourceId),
          ∀ anchor ∈ source.evidence.anchor s.cited.anchors, IsCurrent s.gate.db anchor) := by
  constructor
  · intro hgood haccepted id hid source hsource anchor hanchor
    obtain ⟨t', hcommit⟩ := haccepted.commitEvidence (t := s.cited)
    rw [hcommit] at hgood
    obtain ⟨_, rows, hrows, _, rfl⟩ := commitEvidence_eq_ok hcommit
    obtain ⟨row, hrow, hfind⟩ := hrows id hid
    obtain rfl := Option.some.inj (hfind.symm.trans hsource)
    by_contra hnot
    have hmem : row.evidence ∈ s.cited.evidence ++ rows.map (·.evidence) :=
      List.mem_append_right _ (List.mem_map_of_mem hrow)
    have hreview : row.evidence.citationStatus = .needsReview :=
      hgood.evidence row.evidence hmem anchor hanchor hnot
    simp only [EligibleSource.evidence] at hreview
    split at hreview <;> cases hreview
  · intro hguard
    cases hcommit : commitEvidence s.gate.db s.cited projectId sources output with
    | error e => exact hC
    | ok t' =>
      obtain ⟨haccepted, rows, _, hrows, rfl⟩ := commitEvidence_eq_ok hcommit
      refine ⟨hC.anchors, fun evidence he anchor ha hnot => ?_⟩
      obtain he | he := List.mem_append.mp he
      · exact hC.evidence evidence he anchor ha hnot
      · obtain ⟨source, hsource, rfl⟩ := List.mem_map.mp he
        obtain ⟨id, hid, hfind⟩ := hrows source hsource
        exact absurd (hguard haccepted id hid source hfind anchor ha) hnot

/-- **Exact guard of a step.** -/
theorem CitationsCurrent.step_iff (hI : CitationInv s) (hC : CitationsCurrent s)
    (a : CitationAct) :
    CitationsCurrent (s.step hashing a) ∧ WithdrawsReview s (s.step hashing a) ↔
      MovesCitations hashing s a := by
  cases a with
  | gate a =>
    refine iff_of_true ?_ trivial
    simp only [CitationSys.step]
    split
    · exact ⟨hC, KeepsExtractions.withdraws (.refl _)⟩
    · rename_i hgate
      have hkeeps := @GateSys.step_keeps hashing s.gate _ (Bool.eq_false_iff.mpr hgate)
      exact ⟨hC.gate hkeeps, hkeeps.withdraws⟩
  | createProject project =>
    exact iff_of_true ⟨⟨hC.anchors, hC.evidence⟩, fun i document document' hi hi' hne =>
      absurd (congrArg (·.currentExtractionId) (Option.some.inj (hi'.symm.trans hi))) hne⟩ trivial
  | setProject projectId project =>
    exact iff_of_true ⟨⟨hC.anchors, hC.evidence⟩, KeepsExtractions.withdraws (.refl _)⟩ trivial
  | commitExtraction call payload chunks later aborted =>
    have hcases := @GateSys.commitExtraction_cases hashing s.gate call payload later aborted
    simp only [CitationSys.step, MovesCitations] at hcases ⊢
    generalize s.gate.step hashing (.commitExtraction call payload later aborted) = gate
      at hcases ⊢
    cases hcommit : s.gate.committedExtraction hashing call payload later aborted with
    | none =>
      rw [hcommit] at hcases
      exact iff_of_true ⟨hC.gate hcases, hcases.withdraws⟩ fun _ _ h => nomatch h
    | some committed =>
      obtain ⟨request, result⟩ := committed
      rw [hcommit] at hcases
      obtain ⟨document, hi, _⟩ := hcases.documents
      simp only [CitationSys.citedAfter, hi]
      cases hocr : result.ocrRequired with
      | true =>
        simp only [persistExtraction, hocr, if_true]
        rw [hC.commit_ocr_iff hI hcases]
        refine ⟨fun h r res heq _ => ?_, fun h => h request result rfl hocr⟩
        obtain ⟨rfl, rfl⟩ := Prod.mk.inj (Option.some.inj heq)
        exact h
      | false =>
        refine iff_of_true (hC.commit hI hcases hocr hi chunks) fun r res heq hneeds => ?_
        obtain ⟨rfl, rfl⟩ := Prod.mk.inj (Option.some.inj heq)
        rw [hocr] at hneeds
        cases hneeds
  | deleteDocument projectId documentId =>
    exact iff_of_true (hC.deleteDocument projectId documentId) trivial
  | addEvidence sourceId =>
    refine iff_of_true ?_ trivial
    simp only [CitationSys.step, CitationSys.transact]
    split
    · rename_i hadd
      simp only [Documents.addEvidence, bind_eq_ok, pure_eq_ok] at hadd
      obtain ⟨source, _, rfl⟩ := hadd
      refine ⟨⟨hC.anchors, fun evidence he anchor ha hnot => ?_⟩,
        KeepsExtractions.withdraws (.refl _)⟩
      obtain he | he := List.mem_append.mp he
      · exact hC.evidence evidence he anchor ha hnot
      · obtain rfl := List.mem_singleton.mp he
        cases ha
    · exact ⟨hC, KeepsExtractions.withdraws (.refl _)⟩
  | loadEligibleSources projectId =>
    exact iff_of_true ⟨⟨hC.anchors, hC.evidence⟩, KeepsExtractions.withdraws (.refl _)⟩ trivial
  | commitEvidence bundle output =>
    simp only [CitationSys.step, MovesCitations]
    cases hbundle : s.bundles[bundle]? with
    | none => exact iff_of_true ⟨hC, KeepsExtractions.withdraws (.refl _)⟩ fun _ _ h => nomatch h
    | some loaded =>
      obtain ⟨projectId, sources⟩ := loaded
      have hwithdraws : WithdrawsReview s
          (s.transact (commitEvidence s.gate.db s.cited projectId sources output)) := by
        refine KeepsExtractions.withdraws ?_
        unfold CitationSys.transact
        split <;> exact .refl _
      dsimp only
      rw [and_iff_left hwithdraws, hC.commitEvidence_iff]
      refine ⟨fun h p l heq => ?_, fun h => h projectId sources rfl⟩
      obtain ⟨rfl, rfl⟩ := Prod.mk.inj (Option.some.inj heq)
      exact h

theorem initial_citationInv : CitationInv .initial :=
  ⟨List.forall_mem_nil _, List.forall_mem_nil _, List.forall_mem_nil _, List.forall_mem_nil _, rfl⟩

theorem initial_citationsCurrent : CitationsCurrent .initial :=
  ⟨List.forall_mem_nil _, List.forall_mem_nil _⟩

/-- **Citations are current as long as the condition holds**, and only so. -/
theorem citations_current_iff (hashing : Hashing) (acts : List CitationAct) :
    ((∀ n, CitationsCurrent ((acts.take n).foldl (CitationSys.step hashing) .initial)) ∧
      ∀ (n : ℕ) (a : CitationAct), acts[n]? = some a →
        let s := (acts.take n).foldl (CitationSys.step hashing) .initial
        WithdrawsReview s (s.step hashing a)) ↔
      TraceOk (CitationSys.step hashing) (MovesCitations hashing) .initial acts :=
  forall_take_and_iff_traceOk (I := CitationInv) (P := CitationsCurrent)
    (Q := fun s a => WithdrawsReview s (s.step hashing a)) (fun _ a hI => hI.step a)
    (fun _ a hI hC => hC.step_iff hI a)
    initial_citationInv initial_citationsCurrent acts

instance (db : Tables) (anchor : CitationAnchorRow) : Decidable (IsCurrent db anchor) :=
  decidable_of_iff
    ((db.documents[anchor.documentId]?.bind (·.currentExtractionId)) = some anchor.extractionId)
    Option.bind_eq_some_iff

/-- A project whose review has passed. -/
def exampleProject : Workflow.ResearchProject where
  scope := ⟨"", none, "", "", "", none, none, "", 0, none, [], none⟩
  qaPassedAt := some 0

/-- What the extractor returns for the document. -/
def exampleResult : Bool → DocumentExtractionResult
  | true => ⟨true, .pdf, 3, none, "", []⟩
  | false => ⟨false, .pdf, 3, some 2, "ab", [⟨"ab", 0, 2, 2, 0⟩]⟩

/-- The document is extracted, after the given number of calls. -/
def exampleExtraction (call : ℕ) (ocrRequired : Bool) : List CitationAct :=
  [.gate (.beginExtraction (exampleExtract 0) 1 false),
    .gate (.extractObject call (some [1, 2, 3]) (some (exampleResult ocrRequired))),
    .commitExtraction call [7] [⟨"ab", 0, 2, 2⟩] 1 false]

/-- A document of a reviewed project is uploaded, scanned clean and extracted; its source is loaded
    for a run. -/
def citedOnce : List CitationAct :=
  [.createProject exampleProject,
    .gate (.quarantineDocument ⟨0, .localFiles, 0, .pdf, [1, 2, 3], none, 0, 1⟩),
    .gate (.beginScan (exampleScan 0 true) 1 false),
    .gate (.scanObject 0 (some [1, 2, 3]) (some ⟨.clean, 3, 3⟩)), .gate (.commitScan 0 1 false)] ++
  exampleExtraction 1 false ++ [.loadEligibleSources 0, .setProject 0 exampleProject]

theorem CitationsCurrent.isCurrent (hC : CitationsCurrent s) {anchor : CitationAnchorRow}
    (hanchor : anchor ∈ s.cited.anchors) (hstatus : anchor.status = .current) :
    IsCurrent s.gate.db anchor := by
  obtain ⟨document, hdocument, heq, _⟩ := hC.anchors anchor hanchor hstatus
  exact ⟨document, hdocument, heq⟩

/-- **Citations that are not current.**  An extraction that needs OCR replaces the one that an
    anchor belongs to, and the project keeps its review; and evidence that was being made for a run
    cites the anchor of an extraction that was replaced in the meantime. -/
theorem citations_not_current :
    let replaced := (citedOnce ++ exampleExtraction 2 true).foldl
      (CitationSys.step exampleHashing) .initial
    let committed := (citedOnce ++ exampleExtraction 2 false ++
      [CitationAct.commitEvidence 0 [0]]).foldl (CitationSys.step exampleHashing) .initial
    ¬ CitationsCurrent replaced ∧ replaced.cited.projects = [exampleProject] ∧
      ¬ CitationsCurrent committed := by
  refine ⟨fun hC => ?_, by decide +kernel, fun hC => ?_⟩
  · exact absurd (@CitationsCurrent.isCurrent _ hC ⟨0, 0, 0, 0, 0, 2, 2, .current⟩ (by decide +kernel) rfl)
      (by decide +kernel)
  · exact absurd (hC.evidence ⟨0, some 0, some 0, some 0, .current⟩ (by decide +kernel)
      ⟨0, 0, 0, 0, 0, 2, 2, .needsReview⟩ (by decide +kernel) (by decide +kernel)) (by decide)

end ResearchWorkbench.Documents
