import ResearchWorkbench.Documents.Citations
import ResearchWorkbench.Services.DocumentJobs
import ResearchWorkbench.System.JobSteps

namespace ResearchWorkbench

open Documents (CitationAct CitationSys DocumentJobFence GateAct GateSys Tables)

/-!
# The document services and their workers

The queue and the document services over one database: every job is executed by calls of the
document services, which interleave with the workers' job operations and with everything else.

* `WorkerSys`, `WorkerAct`, `WorkerSys.step` — the machine;
* `WorkerAct.fence` — the fence of the execution that a step belongs to;
* `WorkerSys.step_db` — every step is a run of the queue's own operations;
* `CitationSys.step_documents` — no step moves a document to another project.

A handler's call carries the fence of its job; what it does besides its transactions, and when, is
not restricted.
-/

variable {δ : Type}

/-! ### The machine -/

/-- The queue, and the document services with their calls. -/
structure WorkerSys (δ : Type) where
  db : Db δ
  docs : CitationSys

/-- What may happen next. -/
inductive WorkerAct (δ : Type)
  /-- An operation of the job and run services, or the clock. -/
  | op (op : Op δ)
  | createProject (row : ProjectRow) (project : Workflow.ResearchProject)
  /-- A step of the document services. -/
  | documents (a : CitationAct)
  | deleteDocument (projectId documentId : ℕ) (requestedBy : String)
  | enqueueDocumentScan (input : DocumentScanJobInput)
  | enqueueDocumentExtraction (input : DocumentExtractionJobInput) (later : ℕ)

/-- The operations that are not taken as `WorkerAct.op`: nothing calls `submitJob`, and new projects
    are created for all services. -/
def Op.isOutside (db : Db δ) : Op δ → Bool
  | .submitJob _ => true
  | .setProject projectId _ => db.projects.length ≤ projectId
  | _ => false

/-- The steps that are not taken as `WorkerAct.documents`. -/
def Documents.CitationAct.isOutside : CitationAct → Bool
  | .gate (.tick _) | .gate (.setJobs _) | .createProject _ | .deleteDocument _ _ => true
  | _ => false

namespace WorkerSys

/-- The document services see the queue's clock, projects and jobs. -/
def seen (s : WorkerSys δ) : CitationSys :=
  { s.docs with gate := { s.docs.gate with db := s.docs.gate.db.withQueue s.db } }

/-- A job is submitted, by a transaction of the given duration. -/
def submit (s : WorkerSys δ) (later : ℕ) (t : Except ServiceError (SubmittedJob δ)) :
    WorkerSys δ :=
  match t with
  | .ok submitted => { s with db := { submitted.db with now := submitted.db.now + later } }
  | .error _ => { s with db := { s.db with now := s.db.now + later } }

/-- `deleteDocument`. -/
def deleteDocument (hashing : Hashing) (s : WorkerSys δ) (projectId documentId : ℕ)
    (requestedBy : String) : WorkerSys δ :=
  match Documents.deleteDocument s.seen.gate.db projectId documentId,
      deleteDocumentJobs s.db s.seen.gate.db projectId documentId requestedBy with
  | .ok _, .ok db => ⟨db, s.seen.step hashing (.deleteDocument projectId documentId)⟩
  | _, _ => s

variable [DomainStore δ]

/-- One step. -/
def step (hashing : Hashing) (s : WorkerSys δ) : WorkerAct δ → WorkerSys δ
  | .op op => if op.isOutside s.db then s else { s with db := transact s.db op }
  | .createProject row project =>
    ⟨{ s.db with projects := s.db.projects ++ [row] },
      s.seen.step hashing (.createProject project)⟩
  | .documents a =>
    if a.isOutside then s
    else
      let docs := s.seen.step hashing a
      ⟨{ s.db with now := docs.gate.db.now }, docs⟩
  | .deleteDocument projectId documentId requestedBy =>
    s.deleteDocument hashing projectId documentId requestedBy
  | .enqueueDocumentScan input =>
    s.submit 0 (ResearchWorkbench.enqueueDocumentScan s.db s.seen.gate.db input)
  | .enqueueDocumentExtraction input later =>
    s.submit later (ResearchWorkbench.enqueueDocumentExtraction s.db s.seen.gate.db
      ⟨s.db.now, s.db.now + later, false⟩ input)

/-- No project, no job and no document yet. -/
def initial (domain : δ) : WorkerSys δ := ⟨.initial [] domain, .initial⟩

end WorkerSys

/-- The fence of a call. -/
def Documents.DocumentCall.fence : Documents.DocumentCall → Option DocumentJobFence
  | .scan request _ => request.jobFence
  | .extract request _ => request.jobFence

/-- The fence of the execution that a step of the document services belongs to. -/
def Documents.GateSys.fence (s : GateSys) : GateAct → Option DocumentJobFence
  | .beginScan request _ _ => request.jobFence
  | .beginExtraction request _ _ => request.jobFence
  | .scanObject call _ _ | .commitScan call _ _ | .extractObject call _ _
  | .commitExtraction call _ _ _ | .failChunking call | .recordExtractionFailure call _
  | .abandon call => s.calls[call]?.bind (·.fence)
  | _ => none

/-- The fence of the execution that a step belongs to. -/
def WorkerAct.fence (s : WorkerSys δ) : WorkerAct δ → Option DocumentJobFence
  | .documents (.gate a) => s.docs.gate.fence a
  | .documents (.commitExtraction call payload _ later aborted) =>
    s.docs.gate.fence (.commitExtraction call payload later aborted)
  | .enqueueDocumentExtraction input _ => input.parentJobFence
  | _ => none

/-! ### The queue -/

/-- An operation that neither retries a job by hand nor submits a job of a document. -/
def KeepsDocumentJobs (db : Db δ) (op : Op δ) : Prop :=
  (∀ i, op ≠ .manualRetryJob i) ∧
    ∀ input, NewJob db op input → input.jobType ∉ [.documentScan, .documentExtract]

section
variable [DomainStore δ] {db db' : Db δ}

theorem Reach.single_transact {ok : Db δ → Op δ → Prop} {op : Op δ} (h : ok db op) :
    Reach transact ok db (transact db op) :=
  Reach.tail' .refl op h

/-- Time passes. -/
theorem reach_elapse {ok : Db δ → Op δ → Prop} {now : ℕ} (hnow : db.now ≤ now)
    (hok : ∀ ms, ok db (.tick ms)) : Reach transact ok db { db with now } := by
  have htick : transact db (.tick (now - db.now)) = { db with now } := by
    rw [@transact_of_ok _ _ _ { db with now := db.now + (now - db.now) } _ rfl,
      Nat.add_sub_cancel' hnow]
  exact htick ▸ Reach.single_transact (hok _)

/-- A submission within another transaction is an operation of the queue. -/
theorem reach_submitJob {ok : Db δ → Op δ → Prop} {input : SubmitJobInput} {r : SubmittedJob δ}
    (h : submitJobInTransaction db input = .ok r) (hok : ok db (.submitJob input)) :
    Reach transact ok db r.db := by
  have hsubmits := submitJobInTransaction_ok h
  cases hsubmits with
  | existing => exact .refl
  | inserted _ references _ =>
    have hperform : perform db (.submitJob input) =
        .ok (db.insertJob (input.row db.now)) := by
      refine map_eq_ok.mpr ⟨⟨db.jobs.length, true, _⟩, ?_, rfl⟩
      simp only [submitJob, bind_eq_ok, ensure_eq_ok]
      exact ⟨(), references.1, h⟩
    rw [← transact_of_ok hperform]
    exact Reach.single_transact hok

/-- A deletion cancels jobs and submits one that is no document's. -/
theorem deleteDocumentJobs_reach {docs : Tables} {projectId documentId : ℕ} {requestedBy : String}
    (h : deleteDocumentJobs db docs projectId documentId requestedBy = .ok db') :
    Reach transact KeepsDocumentJobs db db' := by
  simp only [deleteDocumentJobs, bind_eq_ok, pure_eq_ok] at h
  obtain ⟨_, _, cancelled, hcancelled, r, hr, rfl⟩ := h
  have hcancel : Reach transact KeepsDocumentJobs db cancelled := by
    refine foldlM_eq_ok (P := Reach transact KeepsDocumentJobs db) hcancelled .refl ?_
    intro jobId _ u u' hu hrequest
    have hok : KeepsDocumentJobs u (.requestJobCancellation jobId requestedBy) :=
      ⟨fun i h => (by cases h), fun input hnew => (by cases hnew)⟩
    rw [← @transact_of_ok _ _ u _ (.requestJobCancellation jobId requestedBy) hrequest]
    exact hu.tail' _ hok
  refine hcancel.trans (reach_submitJob hr ⟨fun i h => (by cases h), fun input hnew => ?_⟩)
  cases hnew
  simp

end

/-! ### The document services -/

variable {hashing : Hashing}

/-- Time passes for the services only as the transactions take it. -/
theorem Documents.CitationSys.step_now (s : CitationSys) {a : CitationAct}
    (ha : a.isOutside = false) : s.gate.db.now ≤ (s.step hashing a).gate.db.now := by
  cases a with
  | gate a =>
    simp only [CitationSys.step]
    split
    · exact le_rfl
    · rename_i hcited
      exact (s.gate.step_keeps (Bool.eq_false_iff.mpr hcited)).now
  | createProject | deleteDocument => cases ha
  | setProject => exact le_rfl
  | commitExtraction call payload chunks later aborted =>
    have hcases := @GateSys.commitExtraction_cases hashing s.gate call payload later aborted
    simp only [CitationSys.step] at hcases ⊢
    cases hcommit : s.gate.committedExtraction hashing call payload later aborted with
    | none =>
      rw [hcommit] at hcases
      exact hcases.now
    | some committed =>
      rw [hcommit] at hcases
      exact hcases.now
  | addEvidence =>
    simp only [CitationSys.step, CitationSys.transact]
    split <;> exact le_rfl
  | loadEligibleSources => exact le_rfl
  | commitEvidence =>
    simp only [CitationSys.step, CitationSys.transact]
    repeat' split
    all_goals exact le_rfl

/-- A document stays in its project. -/
def StaysInProject (_ : ℕ) (document document' : Documents.DocumentRow) : Prop :=
  document'.projectId = document.projectId

theorem StaysInProject.refl (i : ℕ) (document : Documents.DocumentRow) :
    StaysInProject i document document := rfl

/-- **Documents** stay in their projects. -/
theorem Documents.CitationSys.step_documents (s : CitationSys) (a : CitationAct) :
    TableStep StaysInProject (fun _ _ => True) s.gate.db.documents
      (s.step hashing a).gate.db.documents := by
  have hrefl {t : List Documents.DocumentRow} : TableStep StaysInProject (fun _ _ => True) t t :=
    .refl StaysInProject.refl t
  have hkeeps {db db' : Tables} (h : Documents.KeepsExtractions db db') :
      TableStep StaysInProject (fun _ _ => True) db.documents db'.documents :=
    h.documents.mono (fun _ _ _ _ h => h.projectId) fun _ _ _ _ => trivial
  cases a with
  | gate a =>
    simp only [CitationSys.step]
    split
    · exact hrefl
    · rename_i hcited
      exact hkeeps (s.gate.step_keeps (Bool.eq_false_iff.mpr hcited))
  | createProject | setProject | loadEligibleSources => exact hrefl
  | commitExtraction call payload chunks later aborted =>
    have hcases := @GateSys.commitExtraction_cases hashing s.gate call payload later aborted
    simp only [CitationSys.step] at hcases ⊢
    cases hcommit : s.gate.committedExtraction hashing call payload later aborted with
    | none =>
      rw [hcommit] at hcases
      exact hkeeps hcases
    | some committed =>
      rw [hcommit] at hcases
      obtain ⟨document, hi, _, _, hdocuments⟩ := hcases.documents
      rw [hdocuments]
      exact .modify StaysInProject.refl hi rfl
  | deleteDocument projectId documentId =>
    simp only [CitationSys.step, CitationSys.deleteDocument]
    cases hdelete : Documents.deleteDocument s.gate.db projectId documentId with
    | error e => exact hrefl
    | ok db =>
      obtain ⟨_, _, document, hi, hdocuments⟩ := Documents.deleteDocument_documents hdelete
      dsimp only
      rw [hdocuments]
      split
      · exact hrefl
      · exact .modify StaysInProject.refl hi rfl
  | addEvidence =>
    simp only [CitationSys.step, CitationSys.transact]
    split <;> exact hrefl
  | commitEvidence =>
    simp only [CitationSys.step, CitationSys.transact]
    repeat' split
    all_goals exact hrefl

/-! ### Steps -/

section
variable [DomainStore δ]

theorem submit_db (s : WorkerSys δ) (later : ℕ) {t : Except ServiceError (SubmittedJob δ)}
    (ht : ∀ r, t = .ok r → r.db = s.db ∨
      ∃ input, submitJobInTransaction s.db input = .ok r) :
    Reach transact Always s.db (s.submit later t).db := by
  have htime (db : Db δ) : Reach transact Always db { db with now := db.now + later } :=
    reach_elapse (Nat.le_add_right _ _) fun _ => trivial
  unfold WorkerSys.submit
  split
  · rename_i r
    obtain heq | ⟨input, hinput⟩ := ht r rfl
    · dsimp only
      rw [heq]
      exact htime s.db
    · exact (reach_submitJob hinput trivial).trans (htime r.db)
  · exact htime s.db

/-- **The queue.**  To the queue every step is a run of its own operations. -/
theorem WorkerSys.step_db (s : WorkerSys δ) (a : WorkerAct δ) :
    Reach transact Always s.db (s.step hashing a).db := by
  cases a with
  | op op =>
    simp only [WorkerSys.step]
    split
    · exact .refl
    · exact Reach.single_transact trivial
  | createProject row project =>
    have hset : transact s.db (.setProject s.db.projects.length row) =
        { s.db with projects := s.db.projects ++ [row] } := by
      refine transact_of_ok ?_
      simp only [perform, setProject, lt_irrefl, if_false, pure_eq_ok]
    simp only [WorkerSys.step]
    rw [← hset]
    exact Reach.single_transact trivial
  | documents a =>
    simp only [WorkerSys.step]
    split
    · exact .refl
    · rename_i houtside
      exact reach_elapse (s.seen.step_now (Bool.eq_false_iff.mpr houtside)) fun _ => trivial
  | deleteDocument projectId documentId requestedBy =>
    simp only [WorkerSys.step, WorkerSys.deleteDocument]
    split
    · rename_i hjobs
      exact (deleteDocumentJobs_reach hjobs).mono fun _ _ _ => trivial
    · exact .refl
  | enqueueDocumentScan input =>
    refine submit_db s 0 fun r hr => ?_
    obtain heq | hsubmits := enqueueDocumentScan_ok hr
    · exact .inl heq
    · obtain ⟨input, _, _, _, hinput⟩ := hsubmits.submitted
      exact .inr ⟨input, hinput⟩
  | enqueueDocumentExtraction input later =>
    refine submit_db s later fun r hr => ?_
    obtain heq | hsubmits := enqueueDocumentExtraction_ok hr
    · exact .inl heq
    · obtain ⟨input, _, _, _, hinput⟩ := hsubmits.submitted
      exact .inr ⟨input, hinput⟩

/-- Along a run of the machine the queue runs by its own operations. -/
theorem Reach.workers_db {ok : WorkerSys δ → WorkerAct δ → Prop} {s t : WorkerSys δ}
    (h : Reach (WorkerSys.step hashing) ok s t) : Reach transact Always s.db t.db :=
  h.invariant (I := fun u => Reach transact Always s.db u.db) .refl
    fun u a hu _ => hu.trans (u.step_db a)

end

/-! ### An example -/

/-- A worker takes the next job. -/
def takeJob (jobId workerId : ℕ) : List (WorkerAct Unit) :=
  [.op (.claimJobs { workerId, leaseDurationMs := 1000 } []), .op (.startJob jobId workerId none)]

/-- An extraction of the first document under a fence. -/
def fencedExtract (fence : DocumentJobFence) (resumeInProgress : Bool) :
    Documents.ExtractRequest :=
  ⟨0, 0, .localFiles, 100, none, some true, false, resumeInProgress, some fence⟩

/-- A document is uploaded, scanned clean by a job, and the job of its extraction is started. -/
def extractionJobStarted : List (WorkerAct Unit) :=
  [.createProject approvedProject Documents.exampleProject,
    .documents (.gate (Documents.exampleUpload 1 [1, 2, 3])),
    .enqueueDocumentScan ⟨0, 0, 0, true, none⟩] ++ takeJob 0 0 ++
  [.documents (.gate (.beginScan
      ⟨0, 0, .localFiles, 100, ⟨true, false⟩, false, some ⟨0, 0, 1, 2⟩⟩ 1 false)),
    .documents (.gate (.scanObject 0 (some [1, 2, 3]) (some ⟨.clean, 3, 3⟩))),
    .documents (.gate (.commitScan 0 1 false)),
    .enqueueDocumentExtraction ⟨0, 0, 0, some 0, some ⟨0, 0, 1, 2⟩⟩ 1,
    .op (.completeJob 0 0 0)] ++ takeJob 1 0

end ResearchWorkbench
