import ResearchWorkbench.Documents.Workers
import ResearchWorkbench.Queue.Fences

namespace ResearchWorkbench

open Documents (CitationAct CitationSys DocumentCall DocumentJobFence ExtractPhase ExtractRequest
  GateAct GateSys Moment StartedExtraction Tables)

/-!
# Fences of document jobs

A document job's fence names one attempt of the job.  The execution of this attempt consists of
several transactions, and each asks for the fence when it begins and before it commits.

* `DocumentJobFence.Current` — the fence is valid;
* `Reach.not_current` — a fence that has become invalid stays so;
* `KeepsRows`, `WorkerSys.step_keepsRows` — an execution without a valid fence changes no row;
* `VersionInv` — the versions of a document's extractions are `1, …, n`, each once;
* `document_jobs_fenced` — what this means for any run.
-/

variable {δ : Type}

/-! ### Validity -/

/-- The fence is that of a running attempt whose lease is current at the given time. -/
def Documents.DocumentJobFence.Current (fence : DocumentJobFence) (db : Db δ) (now : ℕ) : Prop :=
  ∃ job ∈ db.jobs[fence.jobId]?, job.status = .running ∧ job.leaseOwner = some fence.workerId ∧
    job.attempts = fence.attempt ∧ fence.version ≤ job.version ∧ job.leaseCurrent now

/-- The attempt that the fence names. -/
def Documents.DocumentJobFence.attempted (fence : DocumentJobFence) : RunStageJobFence :=
  ⟨fence.jobId, 0, fence.attempt, fence.workerId⟩

section
variable {db db' : Db δ} {fence : DocumentJobFence} {now : ℕ}

theorem Documents.DocumentJobFence.Current.not_spent (h : fence.Current db db.now) :
    ¬ FenceSpent db fence.attempted := by
  rintro ⟨job', hjob', hspent⟩
  obtain ⟨job, hjob, hstatus, _, hattempts, _, hlease⟩ := h
  obtain rfl := Option.some.inj (hjob.symm.trans hjob')
  obtain hlt | ⟨_, hended | hexpired⟩ := hspent
  · exact hlt.ne hattempts.symm
  · simp [hstatus] at hended
  · exact hexpired hlease

/-- Every step of a job that does not end its attempt counts its version up. -/
theorem JobStep.version_le {op : Op δ} {i : ℕ} {job job' : JobRow} (h : JobStep db op i job job') :
    job.version ≤ job'.version := by
  cases h <;> first | exact le_rfl | exact Nat.le_succ _

/-- A step of its job leaves a valid fence valid or spends it. -/
theorem JobStep.current_or_spent {op : Op δ} {i : ℕ} {job job' : JobRow}
    (h : JobStep db op i job job') (hstatus : job.status = .running)
    (howner : job.leaseOwner = some fence.workerId) (hattempts : job.attempts = fence.attempt) :
    (job'.status = .running ∧ job'.leaseOwner = some fence.workerId ∧
      job'.attempts = fence.attempt) ∨ fence.attempted.Spent job' now := by
  have hended : job'.attempts = job.attempts → job'.status ∉ [.claimed, .running] →
      fence.attempted.Spent job' now :=
    fun heq hnot => .inr ⟨(heq.trans hattempts).symm, .inl hnot⟩
  cases h with
  | keep => exact .inl ⟨hstatus, howner, hattempts⟩
  | claim _ hwaiting _ => simp [hstatus, JobStatus.isWaiting] at hwaiting
  | start _ hclaimed => simp [hstatus] at hclaimed
  | heartbeat _ _ => exact .inl ⟨hstatus, howner, hattempts⟩
  | succeed _ _ => exact .inr (hended rfl (by simp [JobRow.succeed]))
  | failAttempt target _ _ _ hgoal =>
    refine .inr (hended rfl ?_)
    obtain ⟨rfl, _⟩ | hdead := hgoal
    · simp [JobRow.failAttempt]
    · obtain rfl | rfl := by simpa using hdead
      all_goals simp [JobRow.failAttempt]
  | requestCancellation _ => exact .inr (hended rfl (not_executing_target _))
  | cancelWithRun _ _ => exact .inr (hended rfl (not_executing_target _))
  | acknowledge _ _ => exact .inr (hended rfl (by simp [JobRow.acknowledgeCancellation]))
  | release _ _ => exact .inr (hended rfl (by simp [JobRow.release]))
  | releaseCancelled _ _ => exact .inr (hended rfl (by simp [JobRow.release]))
  | expire _ _ _ _ => exact .inr (hended rfl (not_executing_recovered job))
  | manualRetry _ hdead => simp [hstatus] at hdead
  | checkpoint _ => exact .inl ⟨hstatus, howner, hattempts⟩

variable [DomainStore δ]

theorem transact_current_or_spent (op : Op δ) (h : fence.Current db db.now) :
    fence.Current (transact db op) (transact db op).now ∨
      FenceSpent (transact db op) fence.attempted := by
  cases hrun : perform db op with
  | error e =>
    rw [transact_of_error hrun]
    exact .inl h
  | ok db' =>
    rw [transact_of_ok hrun]
    obtain ⟨job, hjob, hstatus, howner, hattempts, hversion, _⟩ := h
    obtain ⟨job', hjob', hstep⟩ := (perform_jobs hrun).old _ _ hjob
    have hcases : _ ∨ fence.attempted.Spent job' db'.now :=
      hstep.current_or_spent hstatus howner hattempts
    obtain ⟨hstatus', howner', hattempts'⟩ | hspent := hcases
    · by_cases hlease : job'.leaseCurrent db'.now
      · exact .inl ⟨job', hjob', hstatus', howner', hattempts', hversion.trans hstep.version_le,
          hlease⟩
      · exact .inr ⟨job', hjob', .inr ⟨hattempts'.symm, .inr hlease⟩⟩
    · exact .inr ⟨job', hjob', hspent⟩

/-- **A fence that has become invalid stays so.** -/
theorem Reach.not_current {db₀ db₁ db₂ : Db δ} (h₁ : Reach transact Always db₀ db₁)
    (h₂ : Reach transact Always db₁ db₂) (hvalid : fence.Current db₀ db₀.now)
    (hinvalid : ¬ fence.Current db₁ db₁.now) : ¬ fence.Current db₂ db₂.now := by
  have hspent : fence.Current db₁ db₁.now ∨ FenceSpent db₁ fence.attempted := by
    refine h₁.invariant
      (I := fun db => fence.Current db db.now ∨ FenceSpent db fence.attempted) (.inl hvalid) ?_
    rintro u op (hcurrent | hspent) _
    · exact transact_current_or_spent op hcurrent
    · exact .inr (transact_spent op hspent)
  exact fun hcurrent => hcurrent.not_spent (h₂.spent (hspent.resolve_left hinvalid))

end

/-! ### Transactions without a valid fence -/

/-- The rows of the document tables are the same. -/
structure SameRows (docs docs' : Tables) : Prop where
  objects : docs'.objects = docs.objects
  sources : docs'.sources = docs.sources
  documents : docs'.documents = docs.documents
  scanResults : docs'.scanResults = docs.scanResults
  extractions : docs'.extractions = docs.extractions

theorem SameRows.refl (docs : Tables) : SameRows docs docs := ⟨rfl, rfl, rfl, rfl, rfl⟩

section
variable {docs docs' : Tables} {fence : DocumentJobFence} {hashing : Hashing}

/-- The fence holds at a time for some document and some type. -/
def Documents.Tables.Accepts (docs : Tables) (fence : DocumentJobFence) (now : ℕ) : Prop :=
  ∃ projectId documentId jobType,
    Documents.assertDocumentJobFence docs now projectId documentId jobType (some fence) = .ok ()

theorem beginScan_accepts {moment : Moment} {request : Documents.ScanRequest}
    {snapshot : Documents.LockedDocument} (hfence : request.jobFence = some fence)
    (h : Documents.beginScan docs moment request = .ok (snapshot, docs')) :
    docs.Accepts fence moment.start ∧ docs.Accepts fence moment.finish := by
  simp only [Documents.beginScan, bind_eq_ok, hfence] at h
  obtain ⟨_, _, _, hstart, _, _, h⟩ := h
  split at h
  all_goals simp only [bind_eq_ok] at h
  · obtain ⟨_, _, _, _, _, hfinish, _⟩ := h
    exact ⟨⟨_, _, _, hstart⟩, _, _, _, hfinish⟩
  · obtain ⟨_, _, _, hfinish, _⟩ := h
    exact ⟨⟨_, _, _, hstart⟩, _, _, _, hfinish⟩

theorem commitScan_accepts {moment : Moment} {request : Documents.ScanRequest}
    {snapshot : Documents.LockedDocument} {scan : MalwareScanResult}
    {clean : Option Documents.PreparedCleanSourceObject} (hfence : request.jobFence = some fence)
    (h : Documents.commitScan docs moment request snapshot scan clean = .ok docs') :
    docs.Accepts fence moment.start ∧ docs.Accepts fence moment.finish := by
  simp only [Documents.commitScan, bind_eq_ok, hfence] at h
  obtain ⟨_, _, _, hstart, _, _, _, _, _, _, _, _, _, hfinish, _⟩ := h
  exact ⟨⟨_, _, _, hstart⟩, _, _, _, hfinish⟩

theorem beginExtraction_accepts {moment : Moment} {request : ExtractRequest}
    {started : StartedExtraction} (hfence : request.jobFence = some fence)
    (h : Documents.beginExtraction docs moment request = .ok (started, docs')) :
    docs.Accepts fence moment.start ∧ docs.Accepts fence moment.finish := by
  simp only [Documents.beginExtraction, bind_eq_ok, hfence] at h
  obtain ⟨_, _, _, hstart, _, _, _, _, h⟩ := h
  split at h
  all_goals simp only [bind_eq_ok] at h
  · obtain ⟨_, _, _, _, _, hfinish, _⟩ := h
    exact ⟨⟨_, _, _, hstart⟩, _, _, _, hfinish⟩
  · obtain ⟨_, _, _, hfinish, _⟩ := h
    exact ⟨⟨_, _, _, hstart⟩, _, _, _, hfinish⟩

theorem commitExtraction_accepts {moment : Moment} {request : ExtractRequest}
    {started : StartedExtraction} {bytes : Bytes} {result : Documents.DocumentExtractionResult}
    {artifact : Documents.PreparedExtractionArtifact} (hfence : request.jobFence = some fence)
    (h : Documents.commitExtraction docs moment request started bytes result artifact =
      .ok docs') : docs.Accepts fence moment.start ∧ docs.Accepts fence moment.finish := by
  simp only [Documents.commitExtraction, bind_eq_ok, hfence] at h
  obtain ⟨_, _, _, hstart, _, _, h⟩ := h
  refine ⟨⟨_, _, _, hstart⟩, ?_⟩
  split at h
  all_goals simp only [Documents.insertExtraction, bind_eq_ok, pure_eq_ok] at h
  · obtain ⟨_, _, _, ⟨_, _, rfl⟩, _, _, _, _, _, hfinish, _⟩ := h
    exact ⟨_, _, _, hfinish⟩
  · obtain ⟨_, _, _, _, _, _, _, ⟨_, _, rfl⟩, _, _, _, _, _, hfinish, _⟩ := h
    exact ⟨_, _, _, hfinish⟩

/-- A failure is recorded under the fence, or not at all. -/
theorem recordExtractionFailure_accepts {moment : Moment} {request : ExtractRequest} {version : ℕ}
    (hfence : request.jobFence = some fence)
    (h : Documents.recordExtractionFailure docs moment request version = .ok docs') :
    docs.Accepts fence moment.start ∧ (docs' = docs ∨ docs.Accepts fence moment.finish) := by
  simp only [Documents.recordExtractionFailure, bind_eq_ok, hfence] at h
  obtain ⟨_, _, _, hstart, h⟩ := h
  refine ⟨⟨_, _, _, hstart⟩, ?_⟩
  split at h
  · exact .inl (pure_eq_ok.mp h).symm
  · simp only [bind_eq_ok] at h
    obtain ⟨_, _, _, hfinish, _⟩ := h
    exact .inr ⟨_, _, _, hfinish⟩

/-- How long the transaction of a step takes. -/
def Documents.GateAct.later : GateAct → ℕ
  | .beginScan _ later _ | .commitScan _ later _ | .beginExtraction _ later _
  | .commitExtraction _ _ later _ | .recordExtractionFailure _ later => later
  | _ => 0

/-- **An execution changes rows only under its fence**, which holds from the beginning of the
    transaction to its end. -/
theorem Documents.GateSys.step_sameRows (g : GateSys) {a : GateAct} (ha : g.fence a = some fence)
    (hinvalid : ¬ (g.db.Accepts fence g.db.now ∧ g.db.Accepts fence (g.db.now + a.later))) :
    SameRows g.db (g.step hashing a).db := by
  have hrefl (now : ℕ) : SameRows g.db { g.db with now } := ⟨rfl, rfl, rfl, rfl, rfl⟩
  have hcall {call : ℕ} {c : DocumentCall} (hc : g.calls[call]? = some c)
      (h : g.calls[call]?.bind (·.fence) = some fence) : c.fence = some fence := by
    rwa [hc] at h
  cases a with
  | tick | setJobs | createProject | quarantineDocument | deleteDocument | addSource
  | reuseSource => cases ha
  | beginScan request later aborted =>
    simp only [GateSys.step]
    cases hbegin : Documents.beginScan g.db (g.db.moment later aborted) request with
    | error e => exact hrefl _
    | ok started => exact absurd (beginScan_accepts ha hbegin) hinvalid
  | scanObject =>
    simp only [GateSys.step]
    split
    · unfold GateSys.scanObject
      repeat' split
      all_goals exact .refl _
    · exact .refl _
  | commitScan call later aborted =>
    simp only [GateSys.step]
    split
    · rename_i request snapshot scan clean hc
      simp only [GateSys.commitScan]
      cases hcommit : Documents.commitScan g.db (g.db.moment later aborted) request snapshot scan
          clean with
      | error e => exact hrefl _
      | ok docs => exact absurd (commitScan_accepts (hcall hc ha) hcommit) hinvalid
    · exact .refl _
  | beginExtraction request later aborted =>
    simp only [GateSys.step]
    cases hbegin : Documents.beginExtraction g.db (g.db.moment later aborted) request with
    | error e => exact hrefl _
    | ok started => exact absurd (beginExtraction_accepts ha hbegin) hinvalid
  | extractObject =>
    simp only [GateSys.step]
    split
    · unfold GateSys.extractObject
      repeat' split
      all_goals exact .refl _
    · exact .refl _
  | commitExtraction call payload later aborted =>
    simp only [GateSys.step]
    split
    · rename_i request started bytes result hc
      simp only [GateSys.commitExtraction]
      split
      · exact .refl _
      · rename_i artifact _
        cases hcommit : Documents.commitExtraction g.db (g.db.moment later aborted) request started
            bytes result artifact with
        | error e => exact hrefl _
        | ok docs => exact absurd (commitExtraction_accepts (hcall hc ha) hcommit) hinvalid
    · exact .refl _
  | failChunking =>
    simp only [GateSys.step]
    split <;> exact .refl _
  | recordExtractionFailure call later =>
    simp only [GateSys.step]
    split
    · rename_i request started hc
      simp only [GateSys.recordExtractionFailure]
      cases hrecord : Documents.recordExtractionFailure g.db (g.db.moment later false) request
          started.version with
      | error e => exact hrefl _
      | ok docs =>
        obtain ⟨hstart, rfl | hfinish⟩ := recordExtractionFailure_accepts (hcall hc ha) hrecord
        · exact hrefl _
        · exact absurd ⟨hstart, hfinish⟩ hinvalid
    · exact .refl _
  | abandon =>
    simp only [GateSys.step]
    split
    · unfold GateSys.abandon
      split <;> exact .refl _
    · exact .refl _

/-- A commit that is accepted has asked for the fence. -/
theorem committedExtraction_accepts {g : GateSys} {call later : ℕ} {payload : Bytes}
    {aborted : Bool} {committed : ExtractRequest × Documents.DocumentExtractionResult}
    (ha : g.fence (.commitExtraction call payload later aborted) = some fence)
    (h : g.committedExtraction hashing call payload later aborted = some committed) :
    g.db.Accepts fence g.db.now ∧ g.db.Accepts fence (g.db.now + later) := by
  simp only [GateSys.committedExtraction] at h
  split at h
  · rename_i request started bytes result hc
    have hfence : request.jobFence = some fence := by
      simp only [GateSys.fence, hc] at ha
      exact ha
    split at h
    · cases h
    · split at h
      · exact commitExtraction_accepts hfence ‹_›
      · cases h
  · cases h

end

/-! ### Steps -/

/-- The tables of documents, what cites them and the queue are the same, but for the clock. -/
structure KeepsRows (s s' : WorkerSys δ) : Prop where
  docs : SameRows s.docs.gate.db s'.docs.gate.db
  cited : s'.docs.cited = s.docs.cited
  db : s'.db = { s.db with now := s'.db.now }

/-- How long the transaction of a step takes. -/
def WorkerAct.later : WorkerAct δ → ℕ
  | .documents (.gate a) => a.later
  | .documents (.commitExtraction _ _ _ later _) => later
  | .enqueueDocumentExtraction _ later => later
  | _ => 0

section
variable {s : WorkerSys δ} {fence : DocumentJobFence} {hashing : Hashing}

theorem KeepsRows.refl (s : WorkerSys δ) : KeepsRows s s := ⟨.refl _, rfl, rfl⟩

theorem current_of_assert {docs : Tables} {db : Db δ} {now projectId documentId : ℕ}
    {jobType : Documents.JobType} (h : Documents.assertDocumentJobFence (docs.withQueue db) now
      projectId documentId jobType (some fence) = .ok ()) : fence.Current db now := by
  simp only [Documents.assertDocumentJobFence, ensure_eq_ok] at h
  obtain ⟨row, hrow, _, _, _, hstatus, howner, hattempts, hversion, t, ht, hlease⟩ := h
  have hjobs : (docs.withQueue db).jobs[fence.jobId]? =
      db.jobs[fence.jobId]?.map (·.toDocuments) := List.getElem?_map ..
  rw [hjobs, Option.mem_def, Option.map_eq_some_iff] at hrow
  obtain ⟨job, hjob, rfl⟩ := hrow
  refine ⟨job, hjob, hstatus, howner, hattempts, hversion, ?_⟩
  have hexpires : job.leaseExpiresAt = some t := ht
  simp only [JobRow.leaseCurrent, hexpires, Option.any_some, decide_eq_true_eq]
  exact hlease

theorem current_of_accepts {now : ℕ} (h : s.seen.gate.db.Accepts fence now) :
    fence.Current s.db now := by
  obtain ⟨_, _, _, h⟩ := h
  exact current_of_assert h

/-- A follow-up job is submitted under the fence, or not at all. -/
theorem enqueueDocumentExtraction_current {moment : Moment} {input : DocumentExtractionJobInput}
    {r : SubmittedJob δ} (hfence : input.parentJobFence = some fence)
    (h : enqueueDocumentExtraction s.db s.seen.gate.db moment input = .ok r) :
    fence.Current s.db moment.start ∧ (r.db = s.db ∨ fence.Current s.db moment.finish) := by
  simp only [enqueueDocumentExtraction, bind_eq_ok, hfence] at h
  obtain ⟨_, _, _, hstart, existing, _, h⟩ := h
  refine ⟨current_of_assert hstart, ?_⟩
  cases existing with
  | some jobId =>
    obtain rfl := pure_eq_ok.mp h
    exact .inl rfl
  | none =>
    simp only [bind_eq_ok, pure_eq_ok] at h
    obtain ⟨_, _, _, _, _, _, _, _, _, hsubmit, _, hfinish, rfl⟩ := h
    have hsubmits := submitJobInTransaction_ok hsubmit
    cases hsubmits with
    | existing => exact .inl rfl
    | inserted =>
      obtain ⟨job, hjob, hstatus, hrest⟩ := current_of_assert hfinish
      obtain hjob | ⟨_, rfl⟩ := getElem?_concat_cases hjob
      · exact .inr ⟨job, hjob, hstatus, hrest⟩
      · cases hstatus

variable [DomainStore δ]

/-- **An execution without a valid fence changes no row.** -/
theorem WorkerSys.step_keepsRows {a : WorkerAct δ} (ha : a.fence s = some fence)
    (hinvalid : ¬ (fence.Current s.db s.db.now ∧ fence.Current s.db (s.db.now + a.later))) :
    KeepsRows s (s.step hashing a) := by
  cases a with
  | op | createProject | deleteDocument | enqueueDocumentScan => cases ha
  | enqueueDocumentExtraction input later =>
    simp only [WorkerSys.step]
    cases henqueue : enqueueDocumentExtraction s.db s.seen.gate.db
        ⟨s.db.now, s.db.now + later, false⟩ input with
    | error e => exact ⟨.refl _, rfl, rfl⟩
    | ok r =>
      obtain ⟨hstart, heq | hfinish⟩ := enqueueDocumentExtraction_current ha henqueue
      · refine ⟨.refl _, rfl, ?_⟩
        simp only [WorkerSys.submit]
        rw [heq]
      · exact absurd ⟨hstart, hfinish⟩ hinvalid
  | documents a =>
    simp only [WorkerSys.step]
    split
    · exact .refl s
    cases a with
    | gate a =>
      simp only [CitationSys.step]
      split
      · exact ⟨⟨rfl, rfl, rfl, rfl, rfl⟩, rfl, rfl⟩
      · have hrows := @GateSys.step_sameRows _ hashing s.seen.gate a ha fun h =>
          hinvalid ⟨current_of_accepts h.1, current_of_accepts h.2⟩
        exact ⟨⟨hrows.objects, hrows.sources, hrows.documents, hrows.scanResults,
          hrows.extractions⟩, rfl, rfl⟩
    | commitExtraction call payload chunks later aborted =>
      have hrows := @GateSys.step_sameRows _ hashing s.seen.gate
        (.commitExtraction call payload later aborted) ha fun h =>
          hinvalid ⟨current_of_accepts h.1, current_of_accepts h.2⟩
      have hnone : s.seen.gate.committedExtraction hashing call payload later aborted = none := by
        cases hcommit : s.seen.gate.committedExtraction hashing call payload later aborted with
        | none => rfl
        | some committed =>
          obtain ⟨hstart, hfinish⟩ := committedExtraction_accepts (g := s.seen.gate) ha hcommit
          exact absurd ⟨current_of_accepts hstart, current_of_accepts hfinish⟩ hinvalid
      simp only [CitationSys.step]
      rw [hnone]
      exact ⟨⟨hrows.objects, hrows.sources, hrows.documents, hrows.scanResults,
        hrows.extractions⟩, rfl, rfl⟩
    | _ => cases ha

end

/-! ### Versions -/

/-- What an extraction has begun with, while it has not ended. -/
def Documents.ExtractPhase.started : ExtractPhase → Option StartedExtraction
  | .begun started | .extracted started _ _ | .failing started => some started
  | .ended => none

/-- An extraction in flight. -/
def Documents.GateSys.Extracts (g : GateSys) (request : ExtractRequest)
    (started : StartedExtraction) : Prop :=
  ∃ phase, .extract request phase ∈ g.calls ∧ phase.started = some started

/-- The document has an extraction of the version. -/
def HasVersion (docs : Tables) (documentId version : ℕ) : Prop :=
  ∃ row ∈ docs.extractions, row.documentId = documentId ∧ row.version = version

instance (docs : Tables) (documentId version : ℕ) : Decidable (HasVersion docs documentId version) :=
  inferInstanceAs (Decidable (∃ row ∈ docs.extractions, _))

/-- The extraction id of an extraction in flight. -/
def extractionId (hashing : Hashing) (request : ExtractRequest) (started : StartedExtraction) :
    ℕ :=
  hashing.deterministicUploadUuid request.projectId
    (Nat.pair request.documentId started.version) .extraction

/-- **Versions.**  Each document has the versions before the next one, each once, and an extraction
    in flight has one of them or the next one. -/
structure VersionInv (g : GateSys) : Prop where
  unique : (g.db.extractions.map fun row => (row.documentId, row.version)).Nodup
  versions : ∀ documentId version, HasVersion g.db documentId version ↔
    1 ≤ version ∧ version < Documents.nextVersion g.db documentId
  calls : ∀ request started, g.Extracts request started → 1 ≤ started.version ∧
    started.version ≤ Documents.nextVersion g.db request.documentId ∧
      ∃ document ∈ g.db.documents[request.documentId]?, document.projectId = request.projectId

/-- What a step does to extractions: it adds one of an extraction in flight, or none. -/
inductive ExtractionStep (g g' : GateSys) : Prop
  | keep (extractions : g'.db.extractions = g.db.extractions)
  | add (row : Documents.ExtractionRow) (request : ExtractRequest) (started : StartedExtraction)
      (call : g.Extracts request started) (documentId : row.documentId = request.documentId)
      (version : row.version = started.version)
      (new : ¬ HasVersion g.db request.documentId started.version)
      (extractions : g'.db.extractions = g.db.extractions ++ [row])

/-- What a step does to extractions in flight: it begins one with the next version, or none. -/
inductive CallStep (g g' : GateSys) : Prop
  | keep (calls : ∀ request started, g'.Extracts request started → g.Extracts request started)
  | begin (request : ExtractRequest) (started : StartedExtraction)
      (version : started.version = Documents.nextVersion g.db request.documentId)
      (document : ∃ document ∈ g.db.documents[request.documentId]?,
        document.projectId = request.projectId)
      (calls : ∀ request' started', g'.Extracts request' started' →
        g.Extracts request' started' ∨ request' = request ∧ started' = started)

section
variable {docs : Tables} {g g' : GateSys}

theorem nextVersion_append {docs' : Tables} {row : Documents.ExtractionRow}
    (h : docs'.extractions = docs.extractions ++ [row]) (documentId : ℕ) :
    Documents.nextVersion docs' documentId =
      if row.documentId = documentId then max (Documents.nextVersion docs documentId)
        (row.version + 1)
      else Documents.nextVersion docs documentId := by
  simp only [Documents.nextVersion, h, List.filter_append, List.map_append, List.foldl_append]
  split
  · rename_i heq
    simp [heq]
  · rename_i hne
    simp [hne]

theorem hasVersion_append {docs' : Tables} {row : Documents.ExtractionRow}
    (h : docs'.extractions = docs.extractions ++ [row]) {documentId version : ℕ} :
    HasVersion docs' documentId version ↔ HasVersion docs documentId version ∨
      row.documentId = documentId ∧ row.version = version := by
  simp only [HasVersion, h, List.mem_append, List.mem_singleton, or_and_right, exists_or,
    exists_eq_left]

/-- Versions are not lost. -/
theorem ExtractionStep.nextVersion_le (h : ExtractionStep g g') (documentId : ℕ) :
    Documents.nextVersion g.db documentId ≤ Documents.nextVersion g'.db documentId := by
  cases h with
  | keep heq =>
    unfold Documents.nextVersion
    rw [heq]
  | add row request started _ _ _ _ heq =>
    rw [nextVersion_append heq]
    split
    · exact le_max_left _ _
    · exact le_rfl

/-- **Step lemma.** -/
theorem VersionInv.step (hI : VersionInv g) (hextractions : ExtractionStep g g')
    (hcalls : CallStep g g')
    (hdocuments : TableStep StaysInProject (fun _ _ => True) g.db.documents g'.db.documents) :
    VersionInv g' := by
  have hproject {documentId projectId : ℕ}
      (h : ∃ document ∈ g.db.documents[documentId]?, document.projectId = projectId) :
      ∃ document ∈ g'.db.documents[documentId]?, document.projectId = projectId := by
    obtain ⟨document, hrow, hsame⟩ := h
    obtain ⟨document', hrow', hstays⟩ := hdocuments.old _ _ hrow
    exact ⟨document', hrow', hstays.trans hsame⟩
  have hnext := hextractions.nextVersion_le
  have hcall : ∀ request started, g'.Extracts request started → 1 ≤ started.version ∧
      started.version ≤ Documents.nextVersion g'.db request.documentId ∧
        ∃ document ∈ g'.db.documents[request.documentId]?,
          document.projectId = request.projectId := by
    have hold {request : ExtractRequest} {started : StartedExtraction}
        (h : g.Extracts request started) : 1 ≤ started.version ∧
          started.version ≤ Documents.nextVersion g'.db request.documentId ∧
            ∃ document ∈ g'.db.documents[request.documentId]?,
              document.projectId = request.projectId := by
      obtain ⟨hone, hle, hdocument⟩ := hI.calls request started h
      exact ⟨hone, hle.trans (hnext _), hproject hdocument⟩
    intro request started h
    cases hcalls with
    | keep hkeep => exact hold (hkeep request started h)
    | begin request₀ started₀ hversion hdocument hbegin =>
      obtain h | ⟨rfl, rfl⟩ := hbegin request started h
      · exact hold h
      · refine ⟨?_, hversion ▸ hnext _, hproject hdocument⟩
        rw [hversion]
        exact Nat.succ_pos _
  cases hextractions with
  | keep heq =>
    refine ⟨by rw [heq]; exact hI.unique, fun documentId version => ?_, hcall⟩
    simpa only [HasVersion, Documents.nextVersion, heq] using hI.versions documentId version
  | add row request started hmem hdocument hversion hnew heq =>
    -- the version is the next one: it is not taken, and no version is skipped
    obtain ⟨hone, hle, _⟩ := hI.calls request started hmem
    have hlast : started.version = Documents.nextVersion g.db request.documentId := by
      rw [hI.versions] at hnew
      omega
    refine ⟨?_, fun documentId version => ?_, hcall⟩
    · rw [heq, List.map_append, List.nodup_append]
      refine ⟨hI.unique, List.nodup_singleton _, fun key hkey key' hkey' => ?_⟩
      obtain ⟨old, hold, rfl⟩ := List.mem_map.mp hkey
      obtain rfl := List.mem_singleton.mp hkey'
      rintro hsame
      obtain ⟨hsameDocument, hsameVersion⟩ := Prod.mk.inj hsame
      exact hnew ⟨old, hold, hsameDocument.trans hdocument, hsameVersion.trans hversion⟩
    · rw [hasVersion_append heq, hI.versions, nextVersion_append heq, hdocument, hversion, hlast]
      split
      · rename_i hsame
        subst hsame
        omega
      · rename_i hne
        simp only [hne, false_and, or_false]

end

/-! ### Transactions and versions -/

section
variable {docs docs' : Tables} {hashing : Hashing}

theorem quarantineDocument_extractions {input : Documents.QuarantineDocumentInput}
    {documentId : ℕ} (h : Documents.quarantineDocument hashing docs input = .ok (documentId, docs')) :
    docs'.extractions = docs.extractions := by
  simp only [Documents.quarantineDocument, bind_eq_ok] at h
  obtain ⟨_, _, h⟩ := h
  split at h
  all_goals simp only [bind_eq_ok, pure_eq_ok, Prod.mk.injEq] at h
  all_goals
    obtain ⟨_, _, _, rfl⟩ := h
    rfl

theorem addSource_extractions {projectId : ℕ} {content : Option Documents.SourceText}
    {reused : Option ℕ} (h : Documents.addSource docs projectId content reused = .ok docs') :
    docs'.extractions = docs.extractions := by
  simp only [Documents.addSource, bind_eq_ok, pure_eq_ok] at h
  obtain ⟨_, _, _, _, rfl⟩ := h
  rfl

theorem commitScan_extractions {moment : Moment} {request : Documents.ScanRequest}
    {snapshot : Documents.LockedDocument} {scan : MalwareScanResult}
    {clean : Option Documents.PreparedCleanSourceObject}
    (h : Documents.commitScan docs moment request snapshot scan clean = .ok docs') :
    docs'.extractions = docs.extractions := by
  simp only [Documents.commitScan, bind_eq_ok, pure_eq_ok] at h
  obtain ⟨_, _, _, _, _, _, _, _, _, _, _, _, _, _, rfl⟩ := h
  split <;> rfl

/-- An extraction begins with the next version of a document of the project. -/
theorem beginExtraction_version {moment : Moment} {request : ExtractRequest}
    {started : StartedExtraction}
    (h : Documents.beginExtraction docs moment request = .ok (started, docs')) :
    docs'.extractions = docs.extractions ∧
      started.version = Documents.nextVersion docs request.documentId ∧
        ∃ document ∈ docs.documents[request.documentId]?,
          document.projectId = request.projectId := by
  simp only [Documents.beginExtraction, bind_eq_ok] at h
  obtain ⟨locked, hlock, _, _, _, _, _, _, h⟩ := h
  split at h
  all_goals simp only [bind_eq_ok, pure_eq_ok, Prod.mk.injEq] at h
  · obtain ⟨_, _, _, _, _, _, _, _, rfl, rfl⟩ := h
    exact ⟨rfl, rfl, lockDocument_document hlock⟩
  · obtain ⟨_, _, _, _, _, _, rfl, rfl⟩ := h
    exact ⟨rfl, rfl, lockDocument_document hlock⟩

/-- The index `UNIQUE (document_id, version)`. -/
theorem insertExtraction_eq_ok {row : Documents.ExtractionRow}
    (h : Documents.insertExtraction docs row = .ok docs') :
    ¬ HasVersion docs row.documentId row.version ∧
      docs' = { docs with extractions := docs.extractions ++ [row] } := by
  simp only [Documents.insertExtraction, bind_eq_ok, ensure_eq_ok, pure_eq_ok] at h
  obtain ⟨_, hnew, rfl⟩ := h
  refine ⟨?_, rfl⟩
  rintro ⟨old, hold, hsame⟩
  exact hnew old hold hsame

theorem commitExtraction_extractions {moment : Moment} {request : ExtractRequest}
    {started : StartedExtraction} {bytes : Bytes} {result : Documents.DocumentExtractionResult}
    {artifact : Documents.PreparedExtractionArtifact}
    (h : Documents.commitExtraction docs moment request started bytes result artifact =
      .ok docs') :
    ¬ HasVersion docs request.documentId started.version ∧ ∃ row : Documents.ExtractionRow,
      row.documentId = request.documentId ∧ row.version = started.version ∧
        docs'.extractions = docs.extractions ++ [row] := by
  simp only [Documents.commitExtraction, bind_eq_ok] at h
  obtain ⟨_, _, _, _, _, _, h⟩ := h
  split at h
  all_goals simp only [bind_eq_ok, pure_eq_ok] at h
  · obtain ⟨_, _, _, hinsert, _, _, _, _, _, _, rfl⟩ := h
    obtain ⟨hnew, rfl⟩ := insertExtraction_eq_ok hinsert
    exact ⟨hnew, _, rfl, rfl, rfl⟩
  · obtain ⟨_, _, _, _, _, _, _, hinsert, _, _, _, _, _, _, rfl⟩ := h
    obtain ⟨hnew, rfl⟩ := insertExtraction_eq_ok hinsert
    exact ⟨hnew, _, rfl, rfl, rfl⟩

theorem recordExtractionFailure_extractions {moment : Moment} {request : ExtractRequest}
    {version : ℕ}
    (h : Documents.recordExtractionFailure docs moment request version = .ok docs') :
    docs'.extractions = docs.extractions ∨ ¬ HasVersion docs request.documentId version ∧
      ∃ row : Documents.ExtractionRow, row.documentId = request.documentId ∧
        row.version = version ∧ docs'.extractions = docs.extractions ++ [row] := by
  simp only [Documents.recordExtractionFailure, bind_eq_ok] at h
  obtain ⟨current, _, _, _, h⟩ := h
  split at h
  · obtain rfl := pure_eq_ok.mp h
    exact .inl rfl
  · simp only [bind_eq_ok, pure_eq_ok] at h
    obtain ⟨_, _, _, _, rfl⟩ := h
    simp only [Documents.Tables.updateObject_extractions,
      Documents.Tables.updateDocument_extractions, Documents.insertExtractionIfNew]
    split
    · rename_i hinsert
      obtain ⟨hnew, rfl⟩ := insertExtraction_eq_ok hinsert
      exact .inr ⟨hnew, _, rfl, rfl, rfl⟩
    · exact .inl rfl

/-- **Extractions** are added with the version of one in flight. -/
theorem Documents.GateSys.step_extractions (g : GateSys) (a : GateAct) :
    ExtractionStep g (g.step hashing a) := by
  have htransact {t : Except ServiceError Tables}
      (ht : ∀ docs, t = .ok docs → docs.extractions = g.db.extractions) :
      ExtractionStep g (g.transact t) := by
    unfold GateSys.transact
    split
    · exact .keep (ht _ rfl)
    · exact .keep rfl
  have hflight {call : ℕ} {request : ExtractRequest} {phase : ExtractPhase}
      {started : StartedExtraction} (hc : g.calls[call]? = some (.extract request phase))
      (hphase : phase.started = some started) : g.Extracts request started :=
    ⟨phase, List.mem_of_getElem? hc, hphase⟩
  cases a with
  | tick | setJobs | createProject => exact .keep rfl
  | quarantineDocument input =>
    refine htransact fun docs h => ?_
    obtain ⟨_, hquarantine, rfl⟩ := map_eq_ok.mp h
    exact quarantineDocument_extractions hquarantine
  | deleteDocument => exact htransact fun docs h => (Documents.deleteDocument_documents h).1
  | addSource => exact htransact fun docs => addSource_extractions
  | reuseSource =>
    refine htransact fun docs h => ?_
    simp only [Documents.reuseSource, bind_eq_ok] at h
    obtain ⟨_, _, h⟩ := h
    exact addSource_extractions h
  | beginScan request later aborted =>
    simp only [GateSys.step]
    split
    · exact .keep rfl
    · rename_i hbegin
      obtain ⟨_, rfl | rfl⟩ := Documents.beginScan_eq_ok hbegin
      all_goals exact .keep rfl
  | scanObject =>
    simp only [GateSys.step]
    split
    · unfold GateSys.scanObject
      repeat' split
      all_goals exact .keep rfl
    · exact .keep rfl
  | commitScan =>
    simp only [GateSys.step]
    split
    · unfold GateSys.commitScan
      split
      · exact .keep rfl
      · rename_i hcommit
        have hsame := commitScan_extractions hcommit
        exact .keep hsame
    · exact .keep rfl
  | beginExtraction =>
    simp only [GateSys.step]
    split
    · exact .keep rfl
    · rename_i hbegin
      exact .keep (beginExtraction_version hbegin).1
  | extractObject =>
    simp only [GateSys.step]
    split
    · unfold GateSys.extractObject
      repeat' split
      all_goals exact .keep rfl
    · exact .keep rfl
  | commitExtraction call payload later aborted =>
    simp only [GateSys.step]
    split
    · rename_i hc
      simp only [GateSys.commitExtraction]
      split
      · exact .keep rfl
      split
      · exact .keep rfl
      · rename_i hcommit
        obtain ⟨hnew, row, hdocument, hversion, heq⟩ := commitExtraction_extractions hcommit
        exact .add row _ _ (hflight hc rfl) hdocument hversion hnew heq
    · exact .keep rfl
  | failChunking =>
    simp only [GateSys.step]
    split <;> exact .keep rfl
  | recordExtractionFailure call later =>
    simp only [GateSys.step]
    split
    · rename_i hc
      simp only [GateSys.recordExtractionFailure]
      split
      · exact .keep rfl
      · rename_i hrecord
        obtain heq | ⟨hnew, row, hdocument, hversion, heq⟩ :=
          recordExtractionFailure_extractions hrecord
        · exact .keep heq
        · exact .add row _ _ (hflight hc rfl) hdocument hversion hnew heq
    · exact .keep rfl
  | abandon =>
    simp only [GateSys.step]
    split
    · unfold GateSys.abandon
      split <;> exact .keep rfl
    · exact .keep rfl

/-- The calls after one of them went on or ended. -/
theorem extracts_setCall {g : GateSys} {docs : Tables} {log : List Documents.GateEvent} {call : ℕ}
    {c : DocumentCall} (hc : ∀ request phase started, c = .extract request phase →
      phase.started = some started → g.Extracts request started) :
    CallStep g (({ db := docs, calls := g.calls, log } : GateSys).setCall call c) := by
  refine .keep fun request started ⟨phase, hmem, hphase⟩ => ?_
  obtain hmem | rfl := List.mem_or_eq_of_mem_set hmem
  · exact ⟨phase, hmem, hphase⟩
  · exact hc request phase started rfl hphase

theorem callStep_of_calls {g g' : GateSys} (h : g'.calls = g.calls) : CallStep g g' :=
  .keep fun _ _ ⟨phase, hmem, hphase⟩ => ⟨phase, h ▸ hmem, hphase⟩

/-- **Calls** keep what they have begun with. -/
theorem Documents.GateSys.step_calls (g : GateSys) (a : GateAct) :
    CallStep g (g.step hashing a) := by
  have hscan (docs : Tables) (log : List Documents.GateEvent) (call : ℕ)
      (request : Documents.ScanRequest) (phase : Documents.ScanPhase) :
      CallStep g (({ db := docs, calls := g.calls, log } : GateSys).setCall call
        (.scan request phase)) := extracts_setCall fun _ _ _ h _ => by cases h
  have hended (docs : Tables) (log : List Documents.GateEvent) (call : ℕ)
      (request : ExtractRequest) :
      CallStep g (({ db := docs, calls := g.calls, log } : GateSys).setCall call
        (.extract request .ended)) := extracts_setCall fun _ _ _ h hphase => by cases h; cases hphase
  have hgoes (docs : Tables) (log : List Documents.GateEvent) {call : ℕ} {request : ExtractRequest}
      {phase phase' : ExtractPhase} {started : StartedExtraction}
      (hc : g.calls[call]? = some (.extract request phase)) (hphase : phase.started = some started)
      (hphase' : phase'.started = some started) :
      CallStep g (({ db := docs, calls := g.calls, log } : GateSys).setCall call
        (.extract request phase')) := by
    refine extracts_setCall fun request₀ phase₀ started₀ h hstarted => ?_
    cases h
    obtain rfl := Option.some.inj (hphase'.symm.trans hstarted)
    exact ⟨phase, List.mem_of_getElem? hc, hphase⟩
  have htransact (t : Except ServiceError Tables) : CallStep g (g.transact t) := by
    unfold GateSys.transact
    split <;> exact callStep_of_calls rfl
  cases a with
  | tick | setJobs | createProject => exact callStep_of_calls rfl
  | quarantineDocument | deleteDocument | addSource | reuseSource => exact htransact _
  | beginScan request later aborted =>
    simp only [GateSys.step]
    split
    · exact callStep_of_calls rfl
    · refine .keep fun request' started' hcall => ?_
      obtain ⟨phase, hmem, hphase⟩ := hcall
      obtain hmem | hmem := List.mem_append.mp hmem
      · exact ⟨phase, hmem, hphase⟩
      · cases List.mem_singleton.mp hmem
  | scanObject =>
    simp only [GateSys.step]
    split
    · unfold GateSys.scanObject
      repeat' split
      all_goals exact hscan _ _ _ _ _
    · exact callStep_of_calls rfl
  | commitScan =>
    simp only [GateSys.step]
    split
    · unfold GateSys.commitScan
      split <;> exact hscan _ _ _ _ _
    · exact callStep_of_calls rfl
  | beginExtraction request later aborted =>
    simp only [GateSys.step]
    split
    · exact callStep_of_calls rfl
    · rename_i started docs hbegin
      obtain ⟨_, hversion, hdocument⟩ := beginExtraction_version hbegin
      refine .begin request started hversion hdocument
        fun request' started' hcall => ?_
      obtain ⟨phase, hmem, hphase⟩ := hcall
      obtain hmem | hmem := List.mem_append.mp hmem
      · exact .inl ⟨phase, hmem, hphase⟩
      · cases List.mem_singleton.mp hmem
        exact .inr ⟨rfl, (Option.some.inj hphase).symm⟩
  | extractObject =>
    simp only [GateSys.step]
    split
    · rename_i hc
      unfold GateSys.extractObject
      split
      · exact hended _ _ _ _
      split
      · exact hgoes _ _ hc rfl rfl
      · exact hgoes _ _ hc rfl rfl
    · exact callStep_of_calls rfl
  | commitExtraction call payload later aborted =>
    simp only [GateSys.step]
    split
    · rename_i hc
      simp only [GateSys.commitExtraction]
      split
      · exact hended _ _ _ _
      split
      · split
        · exact hended _ _ _ _
        · exact hgoes _ _ hc rfl rfl
      · exact hended _ _ _ _
    · exact callStep_of_calls rfl
  | failChunking =>
    simp only [GateSys.step]
    split
    · rename_i hc
      exact hgoes _ _ hc rfl rfl
    · exact callStep_of_calls rfl
  | recordExtractionFailure call later =>
    simp only [GateSys.step]
    split
    · simp only [GateSys.recordExtractionFailure]
      split <;> exact hended _ _ _ _
    · exact callStep_of_calls rfl
  | abandon =>
    simp only [GateSys.step]
    split
    · unfold GateSys.abandon
      split
      · exact hscan _ _ _ _ _
      · exact hended _ _ _ _
    · exact callStep_of_calls rfl

end

/-! ### Runs -/

section
variable {hashing : Hashing}

/-- A step with citations is one of the document services, or leaves them alone. -/
theorem Documents.CitationSys.step_gate (s : CitationSys) (a : CitationAct) :
    (s.step hashing a).gate = s.gate ∨
      ∃ b : GateAct, (s.step hashing a).gate = s.gate.step hashing b := by
  cases a with
  | gate a =>
    simp only [CitationSys.step]
    split
    · exact .inl rfl
    · exact .inr ⟨a, rfl⟩
  | createProject => exact .inr ⟨.createProject, rfl⟩
  | setProject | loadEligibleSources => exact .inl rfl
  | commitExtraction call payload chunks later aborted =>
    exact .inr ⟨.commitExtraction call payload later aborted, rfl⟩
  | deleteDocument projectId documentId =>
    simp only [CitationSys.step, CitationSys.deleteDocument]
    cases hdelete : Documents.deleteDocument s.gate.db projectId documentId with
    | error e => exact .inl rfl
    | ok docs =>
      refine .inr ⟨.deleteDocument projectId documentId, ?_⟩
      simp only [GateSys.step, GateSys.transact, hdelete]
  | addEvidence | commitEvidence =>
    left
    simp only [CitationSys.step, CitationSys.transact]
    repeat' split
    all_goals rfl

variable {s : WorkerSys δ}

/-- The versions in a state of the machine, and an extraction that has begun before it. -/
structure VersionsAt (s : WorkerSys δ) (request : ExtractRequest) (started : StartedExtraction) :
    Prop where
  inv : VersionInv s.docs.gate
  version : 1 ≤ started.version ∧
    started.version ≤ Documents.nextVersion s.docs.gate.db request.documentId
  document : ∃ document ∈ s.docs.gate.db.documents[request.documentId]?,
    document.projectId = request.projectId

/-- **A resumed extraction** has the version and the id of the one that did not write its row. -/
theorem VersionsAt.resume {request request' : ExtractRequest} {started started' : StartedExtraction}
    {moment : Moment} {docs : Tables} (h : VersionsAt s request started)
    (hnone : ¬ HasVersion s.docs.gate.db request.documentId started.version)
    (hdocument : request'.documentId = request.documentId)
    (hbegin : Documents.beginExtraction s.seen.gate.db moment request' = .ok (started', docs)) :
    started'.version = started.version ∧
      extractionId hashing request' started' = extractionId hashing request started := by
  obtain ⟨_, hversion, document', hrow', hsame'⟩ := beginExtraction_version hbegin
  obtain ⟨document, hrow, hsame⟩ := h.document
  rw [hdocument] at hversion hrow'
  obtain rfl := Option.some.inj (hrow.symm.trans hrow')
  have hlast : started'.version = started.version := by
    have hnext : started'.version =
        Documents.nextVersion s.docs.gate.db request.documentId := hversion
    obtain ⟨hone, hle⟩ := h.version
    rw [h.inv.versions] at hnone
    omega
  refine ⟨hlast, ?_⟩
  unfold extractionId
  rw [hlast, hdocument, ← hsame, ← hsame']

theorem initial_versionInv (domain : δ) : VersionInv (WorkerSys.initial domain).docs.gate where
  unique := List.nodup_nil
  versions documentId version := by
    have hnext : Documents.nextVersion (WorkerSys.initial domain).docs.gate.db documentId = 1 := rfl
    rw [hnext]
    refine iff_of_false ?_ (by omega)
    rintro ⟨row, hrow, _⟩
    cases hrow
  calls := by
    rintro request started ⟨phase, hmem, _⟩
    cases hmem

variable [DomainStore δ]

theorem WorkerSys.step_docs (s : WorkerSys δ) (a : WorkerAct δ) :
    (s.step hashing a).docs = s.docs ∨ ∃ b, (s.step hashing a).docs = s.seen.step hashing b := by
  cases a with
  | op =>
    simp only [WorkerSys.step]
    split <;> exact .inl rfl
  | createProject row project => exact .inr ⟨.createProject project, rfl⟩
  | documents a =>
    simp only [WorkerSys.step]
    split
    · exact .inl rfl
    · exact .inr ⟨a, rfl⟩
  | deleteDocument projectId documentId =>
    simp only [WorkerSys.step, WorkerSys.deleteDocument]
    split
    · exact .inr ⟨.deleteDocument projectId documentId, rfl⟩
    · exact .inl rfl
  | enqueueDocumentScan | enqueueDocumentExtraction =>
    simp only [WorkerSys.step, WorkerSys.submit]
    split <;> exact .inl rfl

theorem VersionInv.worker_step (hI : VersionInv s.docs.gate) (a : WorkerAct δ) :
    VersionInv (s.step hashing a).docs.gate := by
  have hseen : VersionInv s.seen.gate := ⟨hI.unique, hI.versions, hI.calls⟩
  obtain heq | ⟨b, heq⟩ := @WorkerSys.step_docs _ hashing _ s a
  · rwa [heq]
  · rw [heq]
    obtain hgate | ⟨c, hgate⟩ := @CitationSys.step_gate hashing s.seen b
    · rwa [hgate]
    · have hdocuments := @CitationSys.step_documents hashing s.seen b
      rw [hgate] at hdocuments ⊢
      exact hseen.step (s.seen.gate.step_extractions c) (s.seen.gate.step_calls c) hdocuments

theorem VersionsAt.step {request : ExtractRequest} {started : StartedExtraction}
    (h : VersionsAt s request started) (a : WorkerAct δ) :
    VersionsAt (s.step hashing a) request started := by
  refine ⟨h.inv.worker_step a, ⟨h.version.1, ?_⟩, ?_⟩
  all_goals obtain heq | ⟨b, heq⟩ := @WorkerSys.step_docs _ hashing _ s a
  · rw [heq]
    exact h.version.2
  · rw [heq]
    obtain hgate | ⟨c, hgate⟩ := @CitationSys.step_gate hashing s.seen b
    · rw [hgate]
      exact h.version.2
    · rw [hgate]
      exact h.version.2.trans ((s.seen.gate.step_extractions c).nextVersion_le _)
  · rw [heq]
    exact h.document
  · rw [heq]
    obtain ⟨document, hrow, hsame⟩ := h.document
    obtain ⟨document', hrow', hstays⟩ := (@CitationSys.step_documents hashing s.seen b).old _ _ hrow
    exact ⟨document', hrow', hstays.trans hsame⟩

end

/-! ### A stale execution -/

instance (fence : DocumentJobFence) (db : Db δ) (now : ℕ) : Decidable (fence.Current db now) :=
  inferInstanceAs (Decidable (∃ job ∈ db.jobs[fence.jobId]?, _))

/-- An extraction begins, its lease runs out while the object is read, and the next attempt begins
    it again. -/
def takenOverExtraction : List (WorkerAct Unit) :=
  extractionJobStarted ++
  [.documents (.gate (.beginExtraction (fencedExtract ⟨1, 0, 1, 2⟩ false) 1 false)),
    .documents (.gate (.extractObject 1 (some [1, 2, 3]) (some (Documents.exampleResult false)))),
    .op (.tick 1000), .op (.recoverExpiredJob 1 none 0), .op (.tick 60000)] ++ takeJob 1 1 ++
  [.documents (.gate (.beginExtraction (fencedExtract ⟨1, 1, 2, 5⟩ true) 1 false))]

/-- The machine after the first `n` of these steps. -/
def staleExecution (n : ℕ) : WorkerSys Unit :=
  (takenOverExtraction.take n).foldl (WorkerSys.step Documents.exampleHashing) (.initial ())

/-- The commit of the first attempt. -/
def staleCommit (later : ℕ) : WorkerAct Unit :=
  .documents (.commitExtraction 1 [7] [⟨"ab", 0, 2, 2⟩] later false)

/-- The extraction of the first attempt. -/
def Documents.DocumentCall.inFlight : DocumentCall → Option (ExtractRequest × StartedExtraction)
  | .extract request phase => phase.started.map (request, ·)
  | .scan _ _ => none

end ResearchWorkbench
