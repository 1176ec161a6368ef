import ResearchWorkbench.Documents.Workers

namespace ResearchWorkbench

open Documents (CitationSys DocumentJobFence Moment Tables)

/-!
# One active job of a document and a type

* `JobRow.documentWork` — the type and the document of a job of a document;
* `OneActiveJob`, `OneActiveDocumentJob` — the property, of the queue and of the system;
* `RetriesInactive` — the condition: a job is retried by hand only while no other job of its type
  works on its document;
* `one_active_document_job_iff` — a run keeps the property exactly as long as the condition holds.

The submissions look for an active job of the document; `manualRetryJob` does not.
-/

variable {δ : Type}

/-! ### The property -/

/-- The type and the document of a job that scans or extracts one. -/
def JobRow.documentWork (job : JobRow) : Option (JobType × ℕ) :=
  if job.jobType ∈ [.documentScan, .documentExtract] then
    job.inputReference.documentId.map fun documentId => (job.jobType, documentId)
  else none

/-- **One active job.**  No two jobs of a document and a type are live. -/
def OneActiveJob (db : Db δ) : Prop :=
  ∀ (i j : ℕ) (job job' : JobRow) (work : JobType × ℕ), db.jobs[i]? = some job →
    db.jobs[j]? = some job' → job.documentWork = some work → job'.documentWork = some work →
    job.status.isLive → job'.status.isLive → i = j

/-- The property: one active job, and no extraction marks a document as failed that the job of
    another one works on. -/
structure OneActiveDocumentJob (s : WorkerSys δ) : Prop where
  single : OneActiveJob s.db
  failure : ∀ (request : Documents.ExtractRequest) (fence : DocumentJobFence) (moment : Moment)
    (version : ℕ) (docs : Tables), request.jobFence = some fence →
      Documents.recordExtractionFailure s.seen.gate.db moment request version = .ok docs →
        ∀ (j : ℕ) (job : JobRow), s.db.jobs[j]? = some job →
          job.documentWork = some (.documentExtract, request.documentId) → job.status.isLive →
            j = fence.jobId

/-- **The condition.**  A retry by hand that is accepted finds no other live job of the document
    and the type. -/
def RetriesInactive (s : WorkerSys δ) : WorkerAct δ → Prop
  | .op (.manualRetryJob i) => ∀ db', manualRetryJob s.db i = .ok db' →
      ∀ job ∈ s.db.jobs[i]?, ∀ work ∈ job.documentWork, ∀ other ∈ s.db.jobs,
        other.documentWork = some work → ¬ other.status.isLive
  | _ => True

/-! ### Jobs of documents -/

section
variable {job job' : JobRow}

theorem JobRow.documentWork_eq_some {work : JobType × ℕ} :
    job.documentWork = some work ↔ job.jobType ∈ [.documentScan, .documentExtract] ∧
      job.jobType = work.1 ∧ job.inputReference.documentId = some work.2 := by
  unfold JobRow.documentWork
  split
  · rename_i htype
    simp only [Option.map_eq_some_iff, htype, true_and]
    constructor
    · rintro ⟨documentId, hdocument, rfl⟩
      exact ⟨rfl, hdocument⟩
    · rintro ⟨htype, hdocument⟩
      exact ⟨work.2, hdocument, Prod.ext htype rfl⟩
  · rename_i htype
    simp only [reduceCtorEq, htype, false_and]

theorem SameLinks.documentWork (h : SameLinks job job') :
    job'.documentWork = job.documentWork := by
  unfold JobRow.documentWork
  rw [h.jobType, h.inputReference]

/-- A live job of a document is one that a submission looks for. -/
theorem JobRow.isActiveDocumentJob_of_live {projectId : ℕ} {work : JobType × ℕ}
    (hproject : job.projectId = some projectId) (hwork : job.documentWork = some work)
    (hlive : job.status.isLive) : job.isActiveDocumentJob projectId work.2 work.1 := by
  obtain ⟨_, htype, hdocument⟩ := JobRow.documentWork_eq_some.mp hwork
  simp only [JobRow.isActiveDocumentJob, hproject, htype, hdocument, decide_true, Bool.true_and,
    decide_eq_true_eq]
  revert hlive
  cases job.status <;> decide

/-- A fence that holds is that of a live job of the document. -/
theorem live_of_holds {fence : DocumentJobFence} {now projectId documentId : ℕ}
    (h : fence.holds now projectId documentId .documentExtract job.toDocuments) :
    job.documentWork = some (.documentExtract, documentId) ∧ job.status.isLive := by
  obtain ⟨_, htype, hdocument, hstatus, _⟩ := h
  have hextract : job.jobType = .documentExtract := by
    revert htype
    simp only [JobRow.toDocuments]
    cases job.jobType <;> simp [JobType.toDocuments]
  refine ⟨JobRow.documentWork_eq_some.mpr ⟨by simp [hextract], hextract, hdocument⟩, ?_⟩
  rw [show job.status = .running from hstatus]
  rfl

end

/-- One active job is enough. -/
theorem OneActiveJob.failure {s : WorkerSys δ} (h : OneActiveJob s.db) :
    OneActiveDocumentJob s := by
  refine ⟨h, fun request fence moment version docs hfence hrun j job hj hwork hlive => ?_⟩
  simp only [Documents.recordExtractionFailure, bind_eq_ok] at hrun
  obtain ⟨_, _, _, hassert, _⟩ := hrun
  rw [hfence] at hassert
  simp only [Documents.assertDocumentJobFence, ensure_eq_ok] at hassert
  obtain ⟨row, hrow, hholds⟩ := hassert
  have hjobs : s.seen.gate.db.jobs[fence.jobId]? =
      s.db.jobs[fence.jobId]?.map (·.toDocuments) := List.getElem?_map ..
  rw [hjobs, Option.mem_def, Option.map_eq_some_iff] at hrow
  obtain ⟨fenced, hfenced, rfl⟩ := hrow
  obtain ⟨hwork', hlive'⟩ := live_of_holds hholds
  exact h j fence.jobId job fenced _ hj hfenced hwork hwork' hlive hlive'

/-! ### The queue -/

/-- A job of a document belongs to the document's project. -/
def JobsInProjects (db : Db δ) (documents : List Documents.DocumentRow) : Prop :=
  ∀ job ∈ db.jobs, ∀ work ∈ job.documentWork,
    ∃ document ∈ documents[work.2]?, job.projectId = some document.projectId

/-- No job of a document is new or comes back to life. -/
def KeepsWork (db db' : Db δ) : Prop :=
  ∀ (i : ℕ) (job' : JobRow) (work : JobType × ℕ), db'.jobs[i]? = some job' →
    job'.documentWork = some work → ∃ job, db.jobs[i]? = some job ∧
      job.documentWork = some work ∧ job'.projectId = job.projectId ∧
        (job'.status.isLive → job.status.isLive)

section
variable {db db' db'' : Db δ} {documents documents' : List Documents.DocumentRow}

theorem KeepsWork.of_jobs (h : db'.jobs = db.jobs) : KeepsWork db db' := by
  intro i job' work hjob hwork
  rw [h] at hjob
  exact ⟨job', hjob, hwork, rfl, id⟩

theorem KeepsWork.trans (h₁ : KeepsWork db db') (h₂ : KeepsWork db' db'') :
    KeepsWork db db'' := by
  intro i job'' work hjob hwork
  obtain ⟨job', hjob', hwork', hproject', hlive'⟩ := h₂ i job'' work hjob hwork
  obtain ⟨job, hjob, hwork, hproject, hlive⟩ := h₁ i job' work hjob' hwork'
  exact ⟨job, hjob, hwork, hproject'.trans hproject, hlive ∘ hlive'⟩

theorem OneActiveJob.keeps (h : OneActiveJob db) (hkeeps : KeepsWork db db') :
    OneActiveJob db' := by
  intro i j job₁ job₂ work hi hj hwork₁ hwork₂ hlive₁ hlive₂
  obtain ⟨job₁', hi', hwork₁', _, hold₁⟩ := hkeeps i job₁ work hi hwork₁
  obtain ⟨job₂', hj', hwork₂', _, hold₂⟩ := hkeeps j job₂ work hj hwork₂
  exact h i j job₁' job₂' work hi' hj' hwork₁' hwork₂' (hold₁ hlive₁) (hold₂ hlive₂)

theorem JobsInProjects.keeps (h : JobsInProjects db documents) (hkeeps : KeepsWork db db') :
    JobsInProjects db' documents := by
  intro job' hjob' work hwork
  obtain ⟨i, hi⟩ := List.mem_iff_getElem?.mp hjob'
  obtain ⟨job, hjob, hwork, hproject, _⟩ := hkeeps i job' work hi hwork
  rw [hproject]
  exact h job (List.mem_of_getElem? hjob) work hwork

theorem JobsInProjects.staysInProject (h : JobsInProjects db documents)
    (hdocuments : TableStep StaysInProject (fun _ _ => True) documents documents') :
    JobsInProjects db documents' := by
  intro job hjob work hwork
  obtain ⟨document, hdocument, hproject⟩ := h job hjob work hwork
  obtain ⟨document', hdocument', hsame⟩ := hdocuments.old _ _ hdocument
  exact ⟨document', hdocument', hproject.trans (congrArg some hsame.symm)⟩

variable [DomainStore δ]

/-- The queue's operations keep the jobs of documents, but for a retry by hand. -/
theorem KeepsDocumentJobs.keepsWork {op : Op δ} (h : KeepsDocumentJobs db op) :
    KeepsWork db (transact db op) := by
  cases hrun : perform db op with
  | error e =>
    rw [transact_of_error hrun]
    exact .of_jobs rfl
  | ok db' =>
    rw [transact_of_ok hrun]
    intro i job' work hjob hwork
    obtain ⟨job, hold, hstep⟩ | ⟨_, _, input, hnew, _, _, _, rfl⟩ :=
      (perform_jobs hrun).cases hjob
    · have hlinks := hstep.sameLinks
      refine ⟨job, hold, hlinks.documentWork.symm.trans hwork, hlinks.projectId, fun hlive => ?_⟩
      obtain hlive | ⟨hretry, _⟩ := hstep.isLive hlive
      · exact hlive
      · exact absurd hretry (h.1 i)
    · exact absurd (JobRow.documentWork_eq_some.mp hwork).1 (h.2 input hnew)

theorem Reach.keepsWork (h : Reach transact KeepsDocumentJobs db db') : KeepsWork db db' :=
  h.invariant (I := KeepsWork db) (.of_jobs rfl) fun _ _ hu hop => hu.trans hop.keepsWork

end

/-! ### Submissions -/

section
variable {db : Db δ} {docs : Tables} {projectId documentId : ℕ} {jobType : JobType} {r : SubmittedJob δ}

/-- The rows after a submission. -/
theorem SubmitsDocumentJob.rows (h : SubmitsDocumentJob db docs projectId documentId jobType r) :
    r.db.jobs = db.jobs ∨ ∃ job, r.db.jobs = db.jobs ++ [job] ∧
      job.projectId = some projectId ∧ job.jobType = jobType ∧
        job.inputReference.documentId = some documentId := by
  obtain ⟨input, hproject, htype, hdocument, hsubmit⟩ := h.submitted
  have hsubmits := submitJobInTransaction_ok hsubmit
  cases hsubmits with
  | existing => exact .inl rfl
  | inserted => exact .inr ⟨input.row db.now, rfl, hproject, htype, hdocument⟩

theorem SubmitsDocumentJob.jobsInProjects
    (h : SubmitsDocumentJob db docs projectId documentId jobType r)
    (hjobs : JobsInProjects db docs.documents) : JobsInProjects r.db docs.documents := by
  intro job hjob work hwork
  obtain heq | ⟨new, heq, hproject, _, hdocument⟩ := h.rows
  · rw [heq] at hjob
    exact hjobs job hjob work hwork
  · rw [heq] at hjob
    obtain hjob | hjob := List.mem_append.mp hjob
    · exact hjobs job hjob work hwork
    · obtain rfl := List.mem_singleton.mp hjob
      obtain ⟨document, hrow, hsame⟩ := h.document
      obtain ⟨_, _, hwork⟩ := JobRow.documentWork_eq_some.mp hwork
      obtain rfl := Option.some.inj (hdocument.symm.trans hwork)
      exact ⟨document, hrow, hproject.trans (congrArg some hsame.symm)⟩

/-- No live job of the document was there. -/
theorem SubmitsDocumentJob.oneActiveJob
    (h : SubmitsDocumentJob db docs projectId documentId jobType r)
    (hjobs : JobsInProjects db docs.documents) (hone : OneActiveJob db) : OneActiveJob r.db := by
  obtain heq | ⟨new, heq, hproject, htype, hdocument⟩ := h.rows
  · exact hone.keeps (.of_jobs heq)
  have hnone {job : JobRow} {work : JobType × ℕ} (hjob : job ∈ db.jobs)
      (hwork : job.documentWork = some work) (hnew : new.documentWork = some work)
      (hlive : job.status.isLive) : False := by
    obtain ⟨_, htype', hdocument'⟩ := JobRow.documentWork_eq_some.mp hnew
    obtain ⟨document, hrow, hsame⟩ := h.document
    obtain ⟨document', hrow', hproject'⟩ := hjobs job hjob work hwork
    obtain rfl := Option.some.inj (hdocument.symm.trans hdocument')
    obtain rfl := Option.some.inj (hrow.symm.trans hrow')
    rw [hsame] at hproject'
    have hactive := JobRow.isActiveDocumentJob_of_live hproject' hwork hlive
    rw [← htype', htype] at hactive
    exact h.noActive job hjob hactive
  intro i j job₁ job₂ work hi hj hwork₁ hwork₂ hlive₁ hlive₂
  rw [heq] at hi hj
  obtain hold₁ | ⟨rfl, rfl⟩ := getElem?_concat_cases hi
  · obtain hold₂ | ⟨rfl, rfl⟩ := getElem?_concat_cases hj
    · exact hone i j job₁ job₂ work hold₁ hold₂ hwork₁ hwork₂ hlive₁ hlive₂
    · exact (hnone (List.mem_of_getElem? hold₁) hwork₁ hwork₂ hlive₁).elim
  · obtain hold₂ | ⟨rfl, rfl⟩ := getElem?_concat_cases hj
    · exact (hnone (List.mem_of_getElem? hold₂) hwork₂ hwork₁ hlive₂).elim
    · rfl

/-- What the application does with an operation of the queue that is not a retry by hand. -/
theorem keepsDocumentJobs_of_inside {op : Op δ} (h : op.isOutside db = false)
    (hretry : ∀ i, op ≠ .manualRetryJob i) : KeepsDocumentJobs db op := by
  refine ⟨hretry, fun input hnew => ?_⟩
  cases hnew with
  | submit => cases h
  | search | create | resume | requeue | queueNext | restart =>
    simp [sourceSearchJob, pipelineStageJob]

end

/-! ### The first state -/

theorem initial_jobsInProjects (domain : δ) :
    JobsInProjects (WorkerSys.initial domain).db
      (WorkerSys.initial domain).docs.gate.db.documents :=
  List.forall_mem_nil _

theorem initial_oneActiveDocumentJob (domain : δ) :
    OneActiveDocumentJob (WorkerSys.initial domain) := by
  refine OneActiveJob.failure fun i j job job' work hi => ?_
  cases hi

/-! ### Retries by hand -/

section
variable [DomainStore δ] {db : Db δ}

/-- **Exact guard of a retry.** -/
theorem OneActiveJob.manualRetry_iff (hone : OneActiveJob db) (i : ℕ) :
    OneActiveJob (transact db (.manualRetryJob i)) ↔
      ∀ db', manualRetryJob db i = .ok db' → ∀ job ∈ db.jobs[i]?, ∀ work ∈ job.documentWork,
        ∀ other ∈ db.jobs, other.documentWork = some work → ¬ other.status.isLive := by
  cases hrun : manualRetryJob db i with
  | error e =>
    rw [@transact_of_error _ _ _ (.manualRetryJob i) _ hrun]
    exact iff_of_true hone fun _ h => nomatch h
  | ok db' =>
    obtain ⟨job, hjob, _, hstatus, rfl⟩ := manualRetryJob_ok hrun
    rw [@transact_of_ok _ _ _ _ (.manualRetryJob i) hrun]
    have hdead : ¬ job.status.isLive := by
      obtain h | h := by simpa using hstatus
      all_goals rw [h]; decide
    have hretried : (db.updateJob i (·.manualRetry db.now)).jobs[i]? =
        some (job.manualRetry db.now) := getElem?_modify_eq hjob
    constructor
    · rintro hafter _ _ row hrow work hwork other hother hworkOther hlive
      obtain rfl := Option.some.inj (hjob.symm.trans hrow)
      obtain ⟨j, hj⟩ := List.mem_iff_getElem?.mp hother
      have hne : i ≠ j := by
        rintro rfl
        obtain rfl := Option.some.inj (hjob.symm.trans hj)
        exact hdead hlive
      have hj' : (db.updateJob i (·.manualRetry db.now)).jobs[j]? = some other :=
        (getElem?_modify_ne hne).trans hj
      exact hne (hafter i j _ other work hretried hj' hwork hworkOther rfl hlive)
    · intro hguard a b job₁ job₂ work ha hb hwork₁ hwork₂ hlive₁ hlive₂
      obtain ⟨old₁, hold₁, ⟨rfl, rfl⟩ | ⟨_, rfl⟩⟩ := getElem?_modify_cases ha
      · obtain ⟨old₂, hold₂, ⟨rfl, rfl⟩ | ⟨_, rfl⟩⟩ := getElem?_modify_cases hb
        · rfl
        · exact absurd hlive₂ (hguard _ rfl old₁ hold₁ work hwork₁ job₂
            (List.mem_of_getElem? hold₂) hwork₂)
      · obtain ⟨old₂, hold₂, ⟨rfl, rfl⟩ | ⟨_, rfl⟩⟩ := getElem?_modify_cases hb
        · exact absurd hlive₁ (hguard _ rfl old₂ hold₂ work hwork₂ job₁
            (List.mem_of_getElem? hold₁) hwork₁)
        · exact hone a b job₁ job₂ work hold₁ hold₂ hwork₁ hwork₂ hlive₁ hlive₂

/-- The jobs keep their projects. -/
theorem JobsInProjects.manualRetry {documents : List Documents.DocumentRow}
    (h : JobsInProjects db documents) (i : ℕ) :
    JobsInProjects (transact db (.manualRetryJob i)) documents := by
  cases hrun : manualRetryJob db i with
  | error e => rwa [@transact_of_error _ _ _ (.manualRetryJob i) _ hrun]
  | ok db' =>
    obtain ⟨_, _, _, _, rfl⟩ := manualRetryJob_ok hrun
    rw [@transact_of_ok _ _ _ _ (.manualRetryJob i) hrun]
    intro job hjob work hwork
    obtain ⟨j, hj⟩ := List.mem_iff_getElem?.mp hjob
    obtain ⟨old, hold, ⟨_, rfl⟩ | ⟨_, rfl⟩⟩ := getElem?_modify_cases hj
    · exact h old (List.mem_of_getElem? hold) work hwork
    · exact h _ (List.mem_of_getElem? hold) work hwork

/-! ### Steps -/

variable {hashing : Hashing} {s : WorkerSys δ}

/-- **Step lemma.** -/
theorem JobsInProjects.step (h : JobsInProjects s.db s.docs.gate.db.documents)
    (a : WorkerAct δ) :
    JobsInProjects (s.step hashing a).db (s.step hashing a).docs.gate.db.documents := by
  have hsubmit {later : ℕ} {t : Except ServiceError (SubmittedJob δ)} {projectId documentId : ℕ}
      {jobType : JobType} (ht : ∀ r, t = .ok r → r.db = s.db ∨
        SubmitsDocumentJob s.db s.seen.gate.db projectId documentId jobType r) :
      JobsInProjects (s.submit later t).db (s.submit later t).docs.gate.db.documents := by
    unfold WorkerSys.submit
    split
    · rename_i r
      obtain heq | hsubmits := ht r rfl
      · exact h.keeps (.of_jobs (show r.db.jobs = s.db.jobs by rw [heq]))
      · exact hsubmits.jobsInProjects h
    · exact h
  cases a with
  | op op =>
    simp only [WorkerSys.step]
    split
    · exact h
    · rename_i houtside
      cases op
      case manualRetryJob i => exact h.manualRetry i
      all_goals exact h.keeps (keepsDocumentJobs_of_inside (Bool.eq_false_iff.mpr houtside)
        (by intro _ h; cases h)).keepsWork
  | createProject row project => exact h
  | documents a =>
    simp only [WorkerSys.step]
    split
    · exact h
    · exact @JobsInProjects.staysInProject _ s.db _ _ h (s.seen.step_documents a)
  | deleteDocument projectId documentId requestedBy =>
    simp only [WorkerSys.step, WorkerSys.deleteDocument]
    split
    · rename_i hjobs
      exact (h.keeps (deleteDocumentJobs_reach hjobs).keepsWork).staysInProject
        (s.seen.step_documents _)
    · exact h
  | enqueueDocumentScan input => exact hsubmit fun _ => enqueueDocumentScan_ok
  | enqueueDocumentExtraction input later => exact hsubmit fun _ => enqueueDocumentExtraction_ok

/-- **Exact guard of a step.** -/
theorem OneActiveJob.step_iff (h : JobsInProjects s.db s.docs.gate.db.documents)
    (hone : OneActiveJob s.db) (a : WorkerAct δ) :
    OneActiveJob (s.step hashing a).db ↔ RetriesInactive s a := by
  have hsubmit {later : ℕ} {t : Except ServiceError (SubmittedJob δ)} {projectId documentId : ℕ}
      {jobType : JobType} (ht : ∀ r, t = .ok r → r.db = s.db ∨
        SubmitsDocumentJob s.db s.seen.gate.db projectId documentId jobType r) :
      OneActiveJob (s.submit later t).db := by
    unfold WorkerSys.submit
    split
    · rename_i r
      obtain heq | hsubmits := ht r rfl
      · exact hone.keeps (.of_jobs (show r.db.jobs = s.db.jobs by rw [heq]))
      · exact hsubmits.oneActiveJob h hone
    · exact hone
  cases a with
  | op op =>
    simp only [WorkerSys.step]
    cases op
    case manualRetryJob i => exact hone.manualRetry_iff i
    all_goals
      refine iff_of_true ?_ trivial
      split
      · exact hone
      · rename_i houtside
        exact hone.keeps (keepsDocumentJobs_of_inside (Bool.eq_false_iff.mpr houtside)
          (by intro _ h; cases h)).keepsWork
  | createProject row project => exact iff_of_true hone trivial
  | documents a =>
    refine iff_of_true ?_ trivial
    simp only [WorkerSys.step]
    split <;> exact hone
  | deleteDocument projectId documentId requestedBy =>
    refine iff_of_true ?_ trivial
    simp only [WorkerSys.step, WorkerSys.deleteDocument]
    split
    · rename_i hjobs
      exact hone.keeps (deleteDocumentJobs_reach hjobs).keepsWork
    · exact hone
  | enqueueDocumentScan input =>
    exact iff_of_true (hsubmit fun _ => enqueueDocumentScan_ok) trivial
  | enqueueDocumentExtraction input later =>
    exact iff_of_true (hsubmit fun _ => enqueueDocumentExtraction_ok) trivial

/-- **One active job of a document and a type as long as the condition holds**, and only so. -/
theorem one_active_document_job_iff (hashing : Hashing) (domain : δ) (acts : List (WorkerAct δ)) :
    (∀ n, OneActiveDocumentJob ((acts.take n).foldl (WorkerSys.step hashing) (.initial domain))) ↔
      TraceOk (WorkerSys.step hashing) RetriesInactive (.initial domain) acts :=
  forall_take_iff_traceOk
    (I := fun s : WorkerSys δ => JobsInProjects s.db s.docs.gate.db.documents)
    (fun _ a h => h.step a)
    (fun _ a h hone => ⟨fun hafter => (hone.single.step_iff h a).mp hafter.single,
      fun hok => ((hone.single.step_iff h a).mpr hok).failure⟩)
    (initial_jobsInProjects domain) (initial_oneActiveDocumentJob domain) acts

end

/-! ### Two extractions of one document -/

/-- The extraction fails with its job, the operator requests another one and then retries the job
    that has failed. -/
def retriedExtraction : List (WorkerAct Unit) :=
  extractionJobStarted ++
  [.documents (.gate (.beginExtraction (fencedExtract ⟨1, 0, 1, 2⟩ false) 1 false)),
    .documents (.gate (.extractObject 1 (some [1, 2, 3]) none)),
    .documents (.gate (.recordExtractionFailure 1 1)),
    .op (.failJob ⟨1, 0, .nonRetryableValidation, "", none, 0⟩),
    .enqueueDocumentExtraction ⟨0, 0, 1, none, none⟩ 1, .op (.manualRetryJob 1)]

/-- The new extraction is running when the retried one begins, and fails. -/
def overlappingExtractions : List (WorkerAct Unit) :=
  takeJob 2 0 ++ takeJob 1 1 ++
  [.documents (.gate (.beginExtraction (fencedExtract ⟨2, 0, 1, 2⟩ false) 1 false)),
    .documents (.gate (.beginExtraction (fencedExtract ⟨1, 1, 2, 6⟩ true) 1 false)),
    .documents (.gate (.extractObject 3 (some [1, 2, 3]) none)),
    .documents (.gate (.recordExtractionFailure 3 1))]

/-- **Two active jobs.**  The retried job is live beside the new one, and when it fails the document
    that the new one is extracting becomes `EXTRACTION_FAILED`. -/
theorem two_active_document_jobs :
    let retried := retriedExtraction.foldl (WorkerSys.step Documents.exampleHashing) (.initial ())
    let failed := overlappingExtractions.foldl (WorkerSys.step Documents.exampleHashing) retried
    ¬ OneActiveDocumentJob retried ∧
      failed.docs.gate.db.documents.map (fun d => d.status) = [.extractionFailed] ∧
      (failed.db.jobs[2]?.map fun job => (job.jobType, job.status)) =
        some (.documentExtract, .running) := by
  have hlive (i : ℕ) (hi : i ∈ [1, 2]) : ∃ job ∈ (retriedExtraction.foldl
      (WorkerSys.step Documents.exampleHashing) (.initial ())).db.jobs[i]?,
        job.documentWork = some (.documentExtract, 0) ∧ job.status.isLive := by
    revert i
    decide +kernel
  refine ⟨fun h => ?_, by decide +kernel, by decide +kernel⟩
  obtain ⟨job₁, hjob₁, hwork₁, hlive₁⟩ := hlive 1 (by decide)
  obtain ⟨job₂, hjob₂, hwork₂, hlive₂⟩ := hlive 2 (by decide)
  cases h.single 1 2 job₁ job₂ _ hjob₁ hjob₂ hwork₁ hwork₂ hlive₁ hlive₂

end ResearchWorkbench
