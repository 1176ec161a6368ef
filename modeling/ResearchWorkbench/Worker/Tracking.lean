import ResearchWorkbench.Services.DurableWorker
import ResearchWorkbench.Services.JobEffects

namespace ResearchWorkbench.DurableWorker

/-!
# A worker keeps track of what it runs

* `Stepped`, `next_stepped` — what an action can do to the memory of the worker, once and for all;
* `Room` — what a poll that may start executions has left room for;
* `Inv`, `Stepped.inv` — the invariant: the active executions are those in progress, and the room
  of the one poll that may start executions is there;
* `wellTimed`, `keeps_track` — runs in which the claim loops of polls do not overlap, no job is
  claimed whose execution is in progress, and `stop` is not called twice.

`track_lost` are runs that go wrong.
-/

variable {δ : Type} {config : WorkerConfig} {s t : WorkerSys δ} {a : Act δ}
  {running running' : List ActiveExecution}

/-! ### What an action can do -/

/-- What an action makes of a worker; `db` is the database after it. -/
inductive Stepped (config : WorkerConfig) (s : WorkerSys δ) : Act δ → WorkerSys δ → Prop
  /-- Only the database changes. -/
  | idle (a : Act δ) (db : Db δ) : Stepped config s a { s with db }
  | polls (hrun : s.stopping = false) :
      Stepped config s .runOnce { s with polls := s.polls ++ [.listing] }
  /-- A poll goes on without a claim, or is settled. -/
  | leaves (a : Act δ) (p : ℕ) {phase : PollPhase} (db : Db δ) (hnot : phase.isClaiming = false) :
      Stepped config s a { s.setPoll p phase with db }
  /-- A poll computes its capacity. -/
  | enters {p : ℕ} {random : ℚ} {locked : List ℕ} (hpoll : s.polls[p]? = some (.recovering [])) :
      Stepped config s (.proceed p random locked) (s.setPoll p (afterRecovery config s))
  | claims {p capacity claimed : ℕ} {random : ℚ} {locked : List ℕ} {jobTypes : List JobType} {db : Db δ}
      (hpoll : s.polls[p]? = some (.claiming capacity claimed jobTypes))
      (hclaim : claimJobs s.db (config.claimInput jobTypes) locked = .ok db) :
      Stepped config s (.proceed p random locked)
        { s.setPoll p (.replying capacity claimed
            (claimedJob s.db db (config.claimInput jobTypes) locked)) with db }
  | starts {p capacity claimed jobId : ℕ} {job : JobRow} {random : ℚ} {locked : List ℕ}
      (hpoll : s.polls[p]? = some (.replying capacity claimed (some (jobId, job))))
      (hrun : s.stopping = false) :
      Stepped config s (.proceed p random locked)
        ((s.startExecution jobId job).setPoll p
          (claimNext config (s.startExecution jobId job).active capacity (claimed + 1)))
  | finishes {number : ℕ} {execution : ActiveExecution} (hmem : execution ∈ s.running)
      (hnumber : execution.number = number) :
      Stepped config s (.finish number)
        { s with
          active := deleteActive s.active execution.jobId
          running := s.running.filter fun e => e.number ≠ number }
  | stops (hrun : s.stopping = false) {numbers : List ℕ} :
      Stepped config s .stop { s with stopping := true, stops := s.stops ++ [.polls numbers] }
  | stopsAgain (hstop : s.stopping = true) :
      Stepped config s .stop { s with stops := s.stops ++ [.returned] }
  | resumes {i : ℕ} {phase : StopPhase} (hphase : s.stops[i]? = some phase) :
      Stepped config s (.resume i) { s with stops := s.stops.set i (resumeStop config s phase) }
  | grace {i : ℕ} {phase : StopPhase} (hphase : s.stops[i]? = some phase) :
      Stepped config s (.endGrace i) { s with stops := s.stops.set i (endGrace s phase) }

theorem proceedPoll_stepped {p : ℕ} {phase : PollPhase} (hpoll : s.polls[p]? = some phase) (random : ℚ)
    (locked : List ℕ) :
    Stepped config s (.proceed p random locked) (proceedPoll config s p random locked phase) := by
  cases phase with
  | listing =>
    simp only [proceedPoll]
    split
    · exact .leaves _ p s.db (by rfl)
    · exact .leaves _ p s.db (by rfl)
  | recovering candidates =>
    cases candidates with
    | nil => exact .enters hpoll
    | cons jobId candidates =>
      simp only [proceedPoll]
      split
      · exact .leaves _ p _ (by rfl)
      · refine .leaves _ p s.db ?_
        split
        · rfl
        · rfl
  | claiming capacity claimed jobTypes =>
    simp only [proceedPoll]
    split
    · next hclaim => exact .claims hpoll hclaim
    · exact .leaves _ p s.db (by rfl)
  | replying capacity claimed job =>
    cases job with
    | none => exact .leaves _ p s.db (by rfl)
    | some job =>
      obtain ⟨jobId, job⟩ := job
      simp only [proceedPoll]
      split
      · exact .leaves _ p s.db (by rfl)
      · next hrun => exact .starts hpoll (by simpa using hrun)
  | releasing claimed jobId =>
    simp only [proceedPoll]
    split
    · exact .leaves _ p _ (by rfl)
    · exact .leaves _ p s.db (by rfl)
  | settled result => exact .idle _ s.db

/-- **Every action is one of these.** -/
theorem next_stepped [DomainStore δ] (config : WorkerConfig) (s : WorkerSys δ) (a : Act δ) :
    Stepped config s a (next config s a) := by
  cases a with
  | operate op => exact .idle _ _
  | runOnce =>
    simp only [next]
    split
    · exact .idle _ s.db
    · next hrun => exact .polls (by simpa using hrun)
  | proceed p random locked =>
    simp only [next]
    split
    · next hpoll => exact proceedPoll_stepped hpoll random locked
    · exact .idle _ s.db
  | fail p =>
    simp only [next]
    split
    · split
      · exact .idle _ s.db
      · exact .leaves _ p s.db (by rfl)
    · exact .idle _ s.db
  | finish number =>
    simp only [next]
    split
    · next hfind =>
      exact .finishes (List.mem_of_find?_eq_some hfind) (by simpa using List.find?_some hfind)
    · exact .idle _ s.db
  | stop =>
    simp only [next]
    split
    · next hstop => exact .stopsAgain hstop
    · next hrun => exact .stops (by simpa using hrun)
  | resume i =>
    simp only [next]
    split
    · next hphase => exact .resumes hphase
    · exact .idle _ s.db
  | endGrace i =>
    simp only [next]
    split
    · next hphase => exact .grace hphase
    · exact .idle _ s.db

/-! ### Room -/

/-- What a poll in its claim loop relies on: with what it may still claim, there are not too many
    executions, and there is room for one of each type that it asks for; the job that it is about
    to execute is not executed yet. -/
def Room (config : WorkerConfig) (running : List ActiveExecution) : PollPhase → Prop
  | .claiming capacity claimed jobTypes =>
    claimed < capacity ∧ running.length + (capacity - claimed) ≤ config.concurrency ∧
      ∀ jobType ∈ jobTypes,
        countOfType running jobType < config.configuredJobTypeConcurrency jobType
  | .replying capacity claimed job =>
    claimed < capacity ∧ running.length + (capacity - claimed) ≤ config.concurrency ∧
      ∀ claimedJob ∈ job, countOfType running claimedJob.2.jobType <
          config.configuredJobTypeConcurrency claimedJob.2.jobType ∧
        claimedJob.1 ∉ running.map (·.jobId)
  | _ => True

variable {phase : PollPhase}

theorem room_of_not_claiming (h : phase.isClaiming = false) : Room config running phase := by
  cases phase with
  | claiming _ _ _ => cases h
  | replying _ _ _ => cases h
  | _ => trivial

theorem countOfType_sublist (h : running'.Sublist running) (jobType : JobType) :
    countOfType running' jobType ≤ countOfType running jobType :=
  h.countP_le

/-- Executions that end leave more room. -/
theorem Room.sublist (h : Room config running phase) (hsub : running'.Sublist running) :
    Room config running' phase := by
  have hlength := hsub.length_le
  cases phase with
  | claiming capacity claimed jobTypes =>
    obtain ⟨hlt, hcount, htypes⟩ := h
    refine ⟨hlt, by omega, fun jobType hmem => ?_⟩
    exact (countOfType_sublist hsub jobType).trans_lt (htypes jobType hmem)
  | replying capacity claimed job =>
    obtain ⟨hlt, hcount, hjob⟩ := h
    refine ⟨hlt, by omega, fun claimedJob hmem => ?_⟩
    obtain ⟨htype, hnot⟩ := hjob claimedJob hmem
    exact ⟨(countOfType_sublist hsub _).trans_lt htype, fun hin => hnot ((hsub.map _).subset hin)⟩
  | _ => trivial

/-- The start of an iteration makes room. -/
theorem room_claimNext {capacity claimed : ℕ}
    (hcount : running.length + (capacity - claimed) ≤ config.concurrency) :
    Room config running (claimNext config running capacity claimed) := by
  unfold claimNext
  split
  · next hlt =>
    simp only
    split
    · trivial
    · refine ⟨hlt, hcount, fun jobType hmem => ?_⟩
      exact of_decide_eq_true (List.mem_filter.mp hmem).2
  · trivial

/-- A poll that computes its capacity makes room. -/
theorem room_afterRecovery (hactive : s.active = s.running) :
    Room config s.running (afterRecovery config s) := by
  unfold afterRecovery
  split
  · trivial
  split
  · trivial
  split
  · trivial
  · next hlt =>
    rw [hactive] at hlt ⊢
    exact room_claimNext (by omega)

/-- The job that `claimJobs` gives is of one of the types, and one of its candidates. -/
theorem claimedJob_spec {db db' : Db δ} {jobTypes : List JobType} {locked : List ℕ} {jobId : ℕ}
    {job : JobRow} (hclaim : claimJobs db (config.claimInput jobTypes) locked = .ok db')
    (h : claimedJob db db' (config.claimInput jobTypes) locked = some (jobId, job)) :
    job.jobType ∈ jobTypes ∧ jobId ∈ claimCandidates db (config.claimInput jobTypes) locked := by
  simp only [claimedJob, Option.bind_eq_some_iff, Option.map_eq_some_iff, Prod.mk.injEq] at h
  obtain ⟨jobId', hhead, job', hjob', rfl, rfl⟩ := h
  have hmem := List.mem_of_head? hhead
  refine ⟨?_, hmem⟩
  obtain ⟨old, hold, hcandidate⟩ := mem_claimCandidates hmem
  have htype : old.jobType ∈ jobTypes := by
    simp only [ClaimJobsInput.candidate, Bool.and_eq_true] at hcandidate
    exact of_decide_eq_true hcandidate.1.2
  rw [claimJobs_ok hclaim] at hjob'
  simp only [getElem?_updateWhere, hold, Option.map_some, Option.some.injEq] at hjob'
  rw [← hjob']
  split
  · exact htype
  · exact htype

/-! ### The invariant -/

/-- What a call of `stop` relies on. -/
def StopOk (running : List ActiveExecution) : StopPhase → Prop
  | .aborted executions => ∀ e ∈ running, e.number ∈ executions
  | .returned => running = []
  | _ => True

/-- **The invariant** of a worker whose steps are well timed. -/
structure Inv (config : WorkerConfig) (s : WorkerSys δ) : Prop where
  active_eq : s.active = s.running
  numbers : (s.running.map (·.number)).Nodup ∧ ∀ e ∈ s.running, e.number < s.started
  jobs : (s.running.map (·.jobId)).Nodup
  count_le : s.running.length ≤ config.concurrency
  types_le : ∀ jobType,
    countOfType s.running jobType ≤ config.configuredJobTypeConcurrency jobType
  one : ∀ (p q : ℕ) (phase phase' : PollPhase), s.polls[p]? = some phase → s.polls[q]? = some phase' →
    phase.isClaiming = true → phase'.isClaiming = true → p = q
  room : ∀ phase ∈ s.polls, Room config s.running phase
  running : s.stopping = false → s.stops = []
  stops : ∀ phase ∈ s.stops, StopOk s.running phase

theorem inv_initial (db : Db δ) : Inv config (initial db) where
  active_eq := rfl
  numbers := ⟨List.nodup_nil, fun _ hmem => absurd hmem List.not_mem_nil⟩
  jobs := List.nodup_nil
  count_le := Nat.zero_le _
  types_le := fun _ => Nat.zero_le _
  one := fun _ _ _ _ h => absurd h (by simp [initial])
  room := fun _ hmem => absurd hmem List.not_mem_nil
  running := fun _ => rfl
  stops := fun _ hmem => absurd hmem List.not_mem_nil

/-- A poll goes on. -/
theorem Inv.setPoll (h : Inv config s) {p : ℕ} (hroom : Room config s.running phase)
    (hone : phase.isClaiming = true → ∀ q phase', q ≠ p → s.polls[q]? = some phase' →
      phase'.isClaiming = false) : Inv config (s.setPoll p phase) := by
  refine { h with one := ?_, room := ?_ }
  · intro q r phase₁ phase₂ hq hr h₁ h₂
    simp only [WorkerSys.setPoll, List.getElem?_set] at hq hr
    by_cases hqp : p = q <;> by_cases hrp : p = r
    · exact hqp.symm.trans hrp
    · rw [if_neg hrp] at hr
      subst hqp
      rw [if_pos rfl] at hq
      split at hq
      · obtain rfl := Option.some.inj hq
        rw [hone h₁ r phase₂ (Ne.symm hrp) hr] at h₂
        cases h₂
      · cases hq
    · rw [if_neg hqp] at hq
      subst hrp
      rw [if_pos rfl] at hr
      split at hr
      · obtain rfl := Option.some.inj hr
        rw [hone h₂ q phase₁ (Ne.symm hqp) hq] at h₁
        cases h₁
      · cases hr
    · rw [if_neg hqp] at hq
      rw [if_neg hrp] at hr
      exact h.one q r phase₁ phase₂ hq hr h₁ h₂
  · intro phase' hmem
    rcases List.mem_or_eq_of_mem_set hmem with hold | rfl
    · exact h.room phase' hold
    · exact hroom

/-- The other polls are not in their claim loops. -/
theorem Inv.others (h : Inv config s) {p : ℕ} (hpoll : s.polls[p]? = some phase)
    (hclaiming : phase.isClaiming = true) (q : ℕ) (phase' : PollPhase) (hq : q ≠ p)
    (hpoll' : s.polls[q]? = some phase') : phase'.isClaiming = false := by
  by_contra hnot
  rw [Bool.not_eq_false] at hnot
  exact hq (h.one q p phase' phase hpoll' hpoll hnot hclaiming)

/-- An execution starts where no poll is in its claim loop, of a job that none is in progress of. -/
theorem Inv.startExecution (h : Inv config s) (hrun : s.stopping = false)
    (hpolls : ∀ phase ∈ s.polls, phase.isClaiming = false)
    (hcount : s.running.length < config.concurrency) {jobId : ℕ} {job : JobRow}
    (htype : countOfType s.running job.jobType < config.configuredJobTypeConcurrency job.jobType)
    (hnot : jobId ∉ s.running.map (·.jobId)) : Inv config (s.startExecution jobId job) := by
  let running := s.running ++ [⟨s.started, jobId, job⟩]
  have hactive : (s.startExecution jobId job).active = running := by
    have hfree : ¬ (s.active.any fun e => decide (e.jobId = jobId)) = true := by
      rw [h.active_eq, List.any_eq_true]
      rintro ⟨e, hmem, he⟩
      exact hnot (List.mem_map.mpr ⟨e, hmem, of_decide_eq_true he⟩)
    show setActive s.active _ = _
    rw [setActive, if_neg hfree, h.active_eq]
  refine ⟨hactive, ⟨?_, ?_⟩, ?_, ?_, ?_, h.one, fun phase hmem => room_of_not_claiming (hpolls phase hmem),
    h.running, ?_⟩
  · show (running.map (·.number)).Nodup
    rw [List.map_append, List.map_singleton, List.nodup_append]
    refine ⟨h.numbers.1, List.nodup_singleton _, fun n hn m hm => ?_⟩
    obtain ⟨e, hmem, rfl⟩ := List.mem_map.mp hn
    rw [List.mem_singleton.mp hm]
    exact (h.numbers.2 e hmem).ne
  · intro e hmem
    show e.number < s.started + 1
    rcases List.mem_append.mp hmem with hold | hnew
    · exact (h.numbers.2 e hold).trans (Nat.lt_succ_self _)
    · rw [List.mem_singleton.mp hnew]
      exact Nat.lt_succ_self _
  · show (running.map (·.jobId)).Nodup
    rw [List.map_append, List.map_singleton, List.nodup_append]
    refine ⟨h.jobs, List.nodup_singleton _, fun n hn m hm heq => hnot ?_⟩
    have hm' : m = jobId := List.mem_singleton.mp hm
    rw [← hm', ← heq]
    exact hn
  · show running.length ≤ _
    rw [List.length_append, List.length_singleton]
    exact hcount
  · intro jobType
    show running.countP _ ≤ _
    rw [List.countP_append, List.countP_singleton]
    split
    · next heq =>
      rw [← of_decide_eq_true heq]
      exact htype
    · exact h.types_le jobType
  · intro phase hmem
    have hold : phase ∈ s.stops := hmem
    rw [h.running hrun] at hold
    exact absurd hold List.not_mem_nil

/-- A poll with the reply to its `claimJobs` starts an execution and goes on. -/
theorem Inv.reply (h : Inv config s) (hrun : s.stopping = false) {p capacity claimed jobId : ℕ}
    {job : JobRow}
    (hpoll : s.polls[p]? = some (.replying capacity claimed (some (jobId, job)))) :
    Inv config ((s.startExecution jobId job).setPoll p
      (claimNext config (s.startExecution jobId job).active capacity (claimed + 1))) := by
  obtain ⟨hlt, hcount, hjob⟩ := h.room _ (List.mem_of_getElem? hpoll)
  obtain ⟨htype, hnot⟩ := hjob _ rfl
  -- for a moment, no poll is in its claim loop
  have hleft : Inv config (s.setPoll p (.settled none)) :=
    h.setPoll trivial fun hclaiming => absurd hclaiming (by decide)
  have hpolls : ∀ phase ∈ (s.setPoll p (.settled none)).polls, phase.isClaiming = false := by
    intro phase hmem
    obtain ⟨q, hq⟩ := List.getElem?_of_mem hmem
    simp only [WorkerSys.setPoll, List.getElem?_set] at hq
    split at hq
    · split at hq
      · rw [← Option.some.inj hq]
        rfl
      · cases hq
    · next hne => exact h.others hpoll rfl q phase (Ne.symm hne) hq
  let s' := (s.setPoll p (.settled none)).startExecution jobId job
  have hstarted : Inv config s' :=
    hleft.startExecution hrun hpolls (show s.running.length < _ by omega) htype hnot
  have hlength : s'.running.length = s.running.length + 1 := List.length_append
  have hroom : Room config s'.running (claimNext config s'.active capacity (claimed + 1)) := by
    rw [hstarted.active_eq]
    exact room_claimNext (by omega)
  have hnext : Inv config (s'.setPoll p (claimNext config s'.active capacity (claimed + 1))) :=
    hstarted.setPoll hroom fun _ q phase' _ hq => hpolls phase' (List.mem_of_getElem? hq)
  have hpolls' : s'.setPoll p (claimNext config s'.active capacity (claimed + 1)) =
      (s.startExecution jobId job).setPoll p
        (claimNext config (s.startExecution jobId job).active capacity (claimed + 1)) := by
    show WorkerSys.mk _ _ _ _ _ ((s.polls.set p _).set p _) _ = _
    rw [List.set_set]
    rfl
  rw [← hpolls']
  exact hnext

/-- An execution ends. -/
theorem Inv.finish (h : Inv config s) {execution : ActiveExecution}
    (hmem : execution ∈ s.running) : Inv config
      { s with
        active := deleteActive s.active execution.jobId
        running := s.running.filter fun e => e.number ≠ execution.number } := by
  have hsub : (s.running.filter fun e => e.number ≠ execution.number).Sublist s.running :=
    List.filter_sublist
  refine ⟨?_, ⟨h.numbers.1.sublist (hsub.map _), fun e he => h.numbers.2 e (hsub.subset he)⟩,
    h.jobs.sublist (hsub.map _), hsub.length_le.trans h.count_le,
    fun jobType => (countOfType_sublist hsub jobType).trans (h.types_le jobType), h.one,
    fun phase hphase => (h.room phase hphase).sublist hsub, h.running, fun phase hphase => ?_⟩
  · show deleteActive s.active execution.jobId = _
    rw [h.active_eq, deleteActive]
    refine List.filter_congr fun e he => ?_
    -- in progress, a job has one number and a number one job
    have hiff : e.jobId = execution.jobId ↔ e.number = execution.number :=
      ⟨fun heq => congrArg _ (List.inj_on_of_nodup_map h.jobs he hmem heq),
        fun heq => congrArg _ (List.inj_on_of_nodup_map h.numbers.1 he hmem heq)⟩
    simp only [ne_eq, hiff]
  · have hold := h.stops phase hphase
    cases phase with
    | aborted executions => exact fun e he => hold e (hsub.subset he)
    | returned =>
      have hnil : s.running = [] := hold
      rw [hnil] at hmem
      exact absurd hmem List.not_mem_nil
    | _ => trivial

/-- A call of `stop` goes on. -/
theorem Inv.setStop (h : Inv config s) (i : ℕ) {phase : StopPhase}
    (hstops : s.stopping = false → s.stops = []) (hok : StopOk s.running phase) :
    Inv config { s with stops := s.stops.set i phase } := by
  refine { h with running := fun hrun => ?_, stops := fun phase' hmem => ?_ }
  · show s.stops.set i phase = []
    rw [hstops hrun]
    rfl
  · rcases List.mem_or_eq_of_mem_set hmem with hold | rfl
    · exact h.stops phase' hold
    · exact hok

theorem Inv.abortActive (h : Inv config s) : StopOk s.running s.abortActive := by
  intro e hmem
  rw [h.active_eq]
  exact List.mem_map_of_mem hmem

theorem haveEnded_iff {executions : List ℕ} : s.haveEnded executions = true ↔
    ∀ e ∈ s.running, e.number ∉ executions := by
  simp only [WorkerSys.haveEnded, List.all_eq_true, decide_eq_true_eq]
  exact ⟨fun h e he hin => h _ hin e he rfl, fun h n hn e he heq => h e he (heq ▸ hn)⟩

theorem Inv.resumeStop (h : Inv config s) {phase : StopPhase} (hmem : phase ∈ s.stops) :
    StopOk s.running (resumeStop config s phase) := by
  cases phase with
  | polls numbers =>
    simp only [DurableWorker.resumeStop]
    split
    · split
      · next hnil =>
        rw [h.active_eq] at hnil
        exact hnil
      split
      · trivial
      · exact h.abortActive
    · trivial
  | grace executions =>
    simp only [DurableWorker.resumeStop]
    split
    · exact h.abortActive
    · trivial
  | aborted executions =>
    have hwait := h.stops _ hmem
    simp only [DurableWorker.resumeStop]
    split
    · next hended =>
      rw [haveEnded_iff] at hended
      exact List.eq_nil_iff_forall_not_mem.mpr fun e he => hended e he (hwait e he)
    · exact hwait
  | returned => exact h.stops _ hmem

/-! ### Well-timed runs -/

/-- The guard of a run: a poll computes its capacity when no other poll is in its claim loop, a
    claim takes no job whose execution is in progress, and `stop` is not called again while an
    execution is in progress. -/
def wellTimed (config : WorkerConfig) (s : WorkerSys δ) : Act δ → Bool
  | .proceed p _ locked =>
    match s.polls[p]? with
    | some (.recovering []) => s.polls.all fun phase => !phase.isClaiming
    | some (.claiming _ _ jobTypes) =>
      (claimCandidates s.db (config.claimInput jobTypes) locked).all fun jobId =>
        jobId ∉ s.running.map (·.jobId)
    | _ => true
  | .stop => !s.stopping || s.running.isEmpty
  | _ => true

/-- **The step lemma.** -/
theorem Stepped.inv (h : Stepped config s a t) (hinv : Inv config s)
    (hok : wellTimed config s a = true) : Inv config t := by
  cases h with
  | idle a db => exact { hinv with }
  | polls hrun =>
    have hlisting : ∀ (i : ℕ) (phase : PollPhase), (s.polls ++ [.listing])[i]? = some phase →
        phase.isClaiming = true → s.polls[i]? = some phase := by
      intro i phase hi hclaiming
      rw [List.getElem?_append] at hi
      split at hi
      · exact hi
      · rw [List.mem_singleton.mp (List.mem_of_getElem? hi)] at hclaiming
        cases hclaiming
    refine { hinv with one := ?_, room := ?_ }
    · intro p q phase phase' hp hq hclaiming hclaiming'
      exact hinv.one p q phase phase' (hlisting p phase hp hclaiming)
        (hlisting q phase' hq hclaiming') hclaiming hclaiming'
    · intro phase hmem
      rcases List.mem_append.mp hmem with hold | hnew
      · exact hinv.room phase hold
      · rw [List.mem_singleton.mp hnew]
        trivial
  | leaves a p db hnot =>
    have hset := hinv.setPoll (p := p) (room_of_not_claiming hnot)
      fun hclaiming => absurd hclaiming (by rw [hnot]; decide)
    exact { hset with }
  | enters hpoll =>
    refine hinv.setPoll (room_afterRecovery hinv.active_eq) fun _ q phase' _ hq => ?_
    simp only [wellTimed, hpoll, List.all_eq_true, Bool.not_eq_true'] at hok
    exact hok phase' (List.mem_of_getElem? hq)
  | @claims p capacity claimed random locked jobTypes db hpoll hclaim =>
    obtain ⟨hlt, hcount, htypes⟩ := hinv.room _ (List.mem_of_getElem? hpoll)
    simp only [wellTimed, hpoll, List.all_eq_true, decide_eq_true_eq] at hok
    have hset : Inv config (s.setPoll p (.replying capacity claimed
        (claimedJob s.db db (config.claimInput jobTypes) locked))) := by
      refine hinv.setPoll ⟨hlt, hcount, ?_⟩ fun _ => hinv.others hpoll rfl
      rintro ⟨jobId, job⟩ hjob
      obtain ⟨htype, hcandidate⟩ := claimedJob_spec hclaim hjob
      exact ⟨htypes _ htype, hok jobId hcandidate⟩
    exact { hset with }
  | starts hpoll hrun => exact hinv.reply hrun hpoll
  | finishes hmem hnumber =>
    rw [← hnumber]
    exact hinv.finish hmem
  | stops hrun =>
    refine { hinv with running := fun hno => absurd hno (by simp), stops := fun phase hmem => ?_ }
    rcases List.mem_append.mp hmem with hold | hnew
    · exact hinv.stops phase hold
    · rw [List.mem_singleton.mp hnew]
      trivial
  | stopsAgain hstop =>
    simp only [wellTimed, hstop, Bool.not_true, Bool.false_or, List.isEmpty_iff] at hok
    refine { hinv with
      running := fun hno => absurd (hstop.symm.trans hno) (by decide), stops := fun phase hmem => ?_ }
    rcases List.mem_append.mp hmem with hold | hnew
    · exact hinv.stops phase hold
    · rw [List.mem_singleton.mp hnew]
      exact hok
  | resumes hphase =>
    exact hinv.setStop _ hinv.running (hinv.resumeStop (List.mem_of_getElem? hphase))
  | grace hphase =>
    refine hinv.setStop _ hinv.running ?_
    have hold := hinv.stops _ (List.mem_of_getElem? hphase)
    unfold endGrace
    split
    · exact hinv.abortActive
    · exact hold

/-- The worker keeps track of what it runs: there are not too many executions in progress, in all
    and of each type, each of them is the active execution of its job, and when a call of `stop` has
    returned there is none. -/
structure KeepsTrack (config : WorkerConfig) (s : WorkerSys δ) : Prop where
  concurrency : s.running.length ≤ config.concurrency
  types : ∀ jobType, countOfType s.running jobType ≤ config.configuredJobTypeConcurrency jobType
  active : ∀ e ∈ s.running, lookup (·.jobId) s.active e.jobId = some e
  stopped : .returned ∈ s.stops → s.running = []

theorem Inv.keepsTrack (h : Inv config s) : KeepsTrack config s where
  concurrency := h.count_le
  types := h.types_le
  active := fun e hmem => by
    rw [h.active_eq, lookup_eq_some_iff h.jobs]
    exact ⟨hmem, rfl⟩
  stopped := fun hmem => h.stops .returned hmem

/-- **A worker whose steps are well timed** keeps track of what it runs, in every run: polls,
    executions that end, time and calls of others on the database, and `stop`. -/
theorem keeps_track [DomainStore δ] (config : WorkerConfig) {db : Db δ} {s : WorkerSys δ}
    (h : Reach (next config) (fun s a => wellTimed config s a = true) (initial db) s) :
    KeepsTrack config s := by
  have hinv : Inv config s := h.invariant (inv_initial db) fun s a hs hok =>
    (next_stepped config s a).inv hs hok
  exact hinv.keepsTrack

/-! ### Runs -/

/-- A worker for one type of jobs. -/
def exampleWorker (concurrency : ℕ) (h : 1 ≤ concurrency ∧ concurrency ≤ 100) : WorkerConfig where
  workerId := 0
  handlers := [.other 0]
  concurrency := concurrency
  leaseDurationMs := 1000
  recoveryBatchSize := 100
  shutdownGraceMs := 0
  jobTypeConcurrency := []
  runIds := none
  handlers_nodup := List.nodup_singleton _
  concurrency_ok := h
  leaseDurationMs_ok := by decide
  recoveryBatchSize_ok := by decide
  shutdownGraceMs_ok := by decide
  jobTypeConcurrency_ok := fun _ hmem => absurd hmem List.not_mem_nil
  runIds_ok := fun _ hmem => absurd hmem (by simp)

def exampleJob (key : ℕ) : Act Unit :=
  .operate (.submitJob
    { jobType := .other 0, inputReference := .document 0, idempotencyKey := .custom key })

/-- What the worker is after some actions. -/
def workerAfter (config : WorkerConfig) (acts : List (Act Unit)) : WorkerSys Unit :=
  acts.foldl (next config) (initial (Db.initial [] ()))

/-- A poll that starts the execution of a job, and calls of `stop` that wait for it. -/
def stoppedRun : List (Act Unit) :=
  [exampleJob 0, .runOnce, .proceed 0 0 [], .proceed 0 0 [], .proceed 0 0 [], .proceed 0 0 [],
    .stop, .resume 0, .resume 0, .finish 0, .resume 0, .stop]

theorem stopped_run_keeps_track :
    (workerAfter (exampleWorker 1 (by decide)) (stoppedRun.take 6)).running.length = 1 ∧
      KeepsTrack (exampleWorker 1 (by decide))
        (workerAfter (exampleWorker 1 (by decide)) stoppedRun) :=
  ⟨by decide +kernel, keeps_track _ (.ofTrace (by decide +kernel))⟩

/-- Two polls that overlap: both compute a capacity of one. -/
def overlappingRun : List (Act Unit) :=
  [exampleJob 0, exampleJob 1, .runOnce, .runOnce, .proceed 0 0 [], .proceed 1 0 [],
    .proceed 0 0 [], .proceed 1 0 [], .proceed 0 0 [], .proceed 1 0 [], .proceed 0 0 [],
    .proceed 1 0 []]

/-- A lease is lost, and the job is recovered and claimed again before its execution ends. -/
def reclaimingRun : List (Act Unit) :=
  [exampleJob 0, .runOnce, .proceed 0 0 [], .proceed 0 0 [], .proceed 0 0 [], .proceed 0 0 [],
    .proceed 0 0 [], .operate (.tick 1000), .operate (.recoverExpiredJob 0 none 0),
    .operate (.tick 60000), .runOnce, .proceed 1 0 [], .proceed 1 0 [], .proceed 1 0 [],
    .proceed 1 0 []]

/-- `stop` is called twice. -/
def stoppingTwice : List (Act Unit) := stoppedRun.take 6 ++ [.stop, .stop]

/-- Polls that overlap exceed the concurrency, a job that is claimed again hides its execution in
    progress, and a second `stop` returns at once. -/
theorem track_lost :
    ¬ KeepsTrack (exampleWorker 1 (by decide))
        (workerAfter (exampleWorker 1 (by decide)) overlappingRun) ∧
      ¬ KeepsTrack (exampleWorker 2 (by decide))
        (workerAfter (exampleWorker 2 (by decide)) reclaimingRun) ∧
      ¬ KeepsTrack (exampleWorker 1 (by decide))
        (workerAfter (exampleWorker 1 (by decide)) stoppingTwice) := by
  refine ⟨fun h => ?_, fun h => ?_, fun h => ?_⟩
  · exact absurd h.concurrency (by decide +kernel)
  · -- the execution with number 0 is in progress, and number 1 has its place
    have hrunning : (workerAfter (exampleWorker 2 (by decide)) reclaimingRun).running.map (·.number) =
        [0, 1] := by decide +kernel
    have hactive : (workerAfter (exampleWorker 2 (by decide)) reclaimingRun).active.map (·.number) =
        [1] := by decide +kernel
    obtain ⟨e, hmem, hnumber⟩ := List.mem_map.mp (hrunning ▸ List.mem_cons_self : 0 ∈ _)
    have hin := List.mem_map_of_mem (f := (·.number)) (mem_of_lookup (h.active e hmem)).1
    rw [hactive, hnumber] at hin
    exact absurd hin (by decide)
  · have hnil := congrArg List.length (h.stopped (by decide +kernel))
    exact absurd hnil (by decide +kernel)

end ResearchWorkbench.DurableWorker
