import ResearchWorkbench.Library.Keyed
import ResearchWorkbench.System.Operations

namespace ResearchWorkbench.DurableWorker

/-!
# A worker and what it runs

`worker/durable-worker.ts`: the process memory of one `DurableWorker`, with every `await` of
`pollOnce` and `stop` as a place where anything else may happen.

* `WorkerConfig` — what the constructor keeps of the options;
* `PollPhase`, `proceedPoll` — `runOnce`, `pollOnce` and the loop of `recoverExpiredJobs`;
* `StopPhase`, `resumeStop` — `stop`;
* `Act`, `next` — polls, stops, executions that end, and all other calls on the database.

An execution makes its calls (`startJob`, `heartbeatJob`, `completeJob`, …) whenever it likes, as
one of the others, and may end at any time: no order of them is left out.
-/

/-! ### Options -/

/-- The options of a worker, as the constructor takes them. -/
structure WorkerConfig where
  workerId : ℕ
  /-- The keys of `handlers`. -/
  handlers : List JobType
  concurrency : ℕ
  leaseDurationMs : ℕ
  recoveryBatchSize : ℕ
  shutdownGraceMs : ℕ
  /-- The entries of `jobTypeConcurrency`. -/
  jobTypeConcurrency : List (JobType × ℕ)
  runIds : Option (List ℕ)
  handlers_nodup : handlers.Nodup
  concurrency_ok : 1 ≤ concurrency ∧ concurrency ≤ 100
  leaseDurationMs_ok : 1000 ≤ leaseDurationMs ∧ leaseDurationMs ≤ 3600000
  recoveryBatchSize_ok : 1 ≤ recoveryBatchSize ∧ recoveryBatchSize ≤ 1000
  shutdownGraceMs_ok : shutdownGraceMs ≤ 3600000
  jobTypeConcurrency_ok : ∀ entry ∈ jobTypeConcurrency,
    entry.1 ∈ handlers ∧ 1 ≤ entry.2 ∧ entry.2 ≤ 100
  runIds_ok : ∀ ids ∈ runIds, ids.length ≤ 1000 ∧ ids.Nodup

namespace WorkerConfig

variable (config : WorkerConfig)

/-- `configuredJobTypeConcurrency(jobType)`. -/
def configuredJobTypeConcurrency (jobType : JobType) : ℕ :=
  ((lookup Prod.fst config.jobTypeConcurrency jobType).map fun entry =>
    min entry.2 config.concurrency).getD config.concurrency

/-- The arguments of `claimJobs` in `pollOnce`. -/
def claimInput (jobTypes : List JobType) : ClaimJobsInput :=
  { workerId := config.workerId
    limit := 1
    leaseDurationMs := config.leaseDurationMs
    jobTypes := some jobTypes
    runIds := config.runIds }

end WorkerConfig

/-! ### State -/

/-- `ActiveExecution`: a call of `execute`, the `number`-th of the worker, for a claimed job. -/
structure ActiveExecution where
  number : ℕ
  jobId : ℕ
  job : JobRow

/-- Where a call of `pollOnce` waits. -/
inductive PollPhase
  /-- For the candidates of `recoverExpiredJobs`. -/
  | listing
  /-- For the transactions of the candidates that are left. -/
  | recovering (candidates : List ℕ)
  /-- For the transaction of `claimJobs`. -/
  | claiming (capacity claimed : ℕ) (jobTypes : List JobType)
  /-- For its reply, with the job if there is one. -/
  | replying (capacity claimed : ℕ) (job : Option (ℕ × JobRow))
  /-- For `releaseJobLease`. -/
  | releasing (claimed jobId : ℕ)
  /-- The promise is settled, with what it returned if it was not rejected. -/
  | settled (result : Option ℕ)

/-- The call is in its loop: it has computed its capacity and may start executions. -/
def PollPhase.isClaiming : PollPhase → Bool
  | .claiming _ _ _ => true
  | .replying _ _ _ => true
  | _ => false

def PollPhase.isSettled : PollPhase → Bool
  | .settled _ => true
  | _ => false

/-- Where a call of `stop` waits. -/
inductive StopPhase
  /-- For the polls that were in `polls`. -/
  | polls (numbers : List ℕ)
  /-- For the executions that were active, or the grace period. -/
  | grace (executions : List ℕ)
  /-- For the executions that were active when all were aborted. -/
  | aborted (executions : List ℕ)
  /-- It has returned. -/
  | returned
  deriving DecidableEq

/-- A worker on a database. -/
structure WorkerSys (δ : Type) where
  db : Db δ
  stopping : Bool
  /-- The map `active`, in the order of its insertions. -/
  active : List ActiveExecution
  /-- The executions in progress, oldest first. -/
  running : List ActiveExecution
  /-- The number of the next execution. -/
  started : ℕ
  polls : List PollPhase
  stops : List StopPhase

variable {δ : Type}

/-- `active.set(job.id, execution)`. -/
def setActive (active : List ActiveExecution) (execution : ActiveExecution) :
    List ActiveExecution :=
  if active.any fun e => e.jobId = execution.jobId then
    active.map fun e => if e.jobId = execution.jobId then execution else e
  else active ++ [execution]

/-- `active.delete(jobId)`. -/
def deleteActive (active : List ActiveExecution) (jobId : ℕ) : List ActiveExecution :=
  active.filter fun e => e.jobId ≠ jobId

/-- How many of the executions are of a type. -/
def countOfType (executions : List ActiveExecution) (jobType : JobType) : ℕ :=
  executions.countP fun e => e.job.jobType = jobType

/-! ### Polls -/

/-- The loop of `pollOnce`, from the start of an iteration to its `claimJobs`. -/
def claimNext (config : WorkerConfig) (active : List ActiveExecution) (capacity claimed : ℕ) :
    PollPhase :=
  if claimed < capacity then
    let eligibleJobTypes := config.handlers.filter fun jobType =>
      countOfType active jobType < config.configuredJobTypeConcurrency jobType
    if eligibleJobTypes = [] then .settled (some claimed)
    else .claiming capacity claimed eligibleJobTypes
  else .settled (some claimed)

/-- `pollOnce` after `recoverExpiredJobs`. -/
def afterRecovery (config : WorkerConfig) (s : WorkerSys δ) : PollPhase :=
  if s.stopping then .settled (some 0)
  else if config.handlers = [] then .settled (some 0)
  else if config.concurrency ≤ s.active.length then .settled (some 0)
  else claimNext config s.active (config.concurrency - s.active.length) 0

/-- The row that `claimJobs` returns, of the database after it. -/
def claimedJob (db db' : Db δ) (input : ClaimJobsInput) (locked : List ℕ) : Option (ℕ × JobRow) :=
  (claimCandidates db input locked).head?.bind fun jobId =>
    db'.jobs[jobId]?.map fun job => (jobId, job)

def WorkerSys.setPoll (s : WorkerSys δ) (p : ℕ) (phase : PollPhase) : WorkerSys δ :=
  { s with polls := s.polls.set p phase }

/-- `pollOnce` after a reply with a job: it is executed, and active. -/
def WorkerSys.startExecution (s : WorkerSys δ) (jobId : ℕ) (job : JobRow) : WorkerSys δ :=
  { s with
    active := setActive s.active ⟨s.started, jobId, job⟩
    running := s.running ++ [⟨s.started, jobId, job⟩]
    started := s.started + 1 }

section
variable [DomainStore δ]

/-- Poll `p` goes on: what it waits for has happened.  `random` is the next number of the generator
    that `recoverExpiredJobs` uses, `locked` are the rows that other transactions hold. -/
def proceedPoll (config : WorkerConfig) (s : WorkerSys δ) (p : ℕ) (random : ℚ) (locked : List ℕ) :
    PollPhase → WorkerSys δ
  | .listing =>
    match (do boundedInteger config.recoveryBatchSize "limit" 1 1000; boundedRunIds config.runIds) with
    | .ok _ =>
      s.setPoll p (.recovering (expiredCandidates s.db config.recoveryBatchSize config.runIds))
    | .error _ => s.setPoll p (.settled none)
  | .recovering (jobId :: candidates) =>
    match recoverExpiredJob s.db jobId config.runIds random with
    | .ok db => { s.setPoll p (.recovering candidates) with db }
    | .error e => s.setPoll p (if e.isNotFound then .recovering candidates else .settled none)
  | .recovering [] => s.setPoll p (afterRecovery config s)
  | .claiming capacity claimed jobTypes =>
    match claimJobs s.db (config.claimInput jobTypes) locked with
    | .ok db =>
      { s.setPoll p (.replying capacity claimed
          (claimedJob s.db db (config.claimInput jobTypes) locked)) with db }
    | .error _ => s.setPoll p (.settled none)
  | .replying _ claimed none => s.setPoll p (.settled (some claimed))
  | .replying capacity claimed (some (jobId, job)) =>
    if s.stopping then s.setPoll p (.releasing claimed jobId)
    else
      let s := s.startExecution jobId job
      s.setPoll p (claimNext config s.active capacity (claimed + 1))
  | .releasing claimed jobId =>
    match releaseJobLease s.db jobId config.workerId with
    | .ok db => { s.setPoll p (.settled (some claimed)) with db }
    | .error _ => s.setPoll p (.settled none)
  | .settled _ => s

/-! ### Stopping -/

/-- All of the polls are settled. -/
def WorkerSys.arePollsSettled (s : WorkerSys δ) (numbers : List ℕ) : Bool :=
  numbers.all fun p => s.polls[p]?.all (·.isSettled)

/-- All of the executions have ended. -/
def WorkerSys.haveEnded (s : WorkerSys δ) (executions : List ℕ) : Bool :=
  executions.all fun number => s.running.all fun e => e.number ≠ number

/-- All active executions are aborted, and `stop` waits for them. -/
def WorkerSys.abortActive (s : WorkerSys δ) : StopPhase := .aborted (s.active.map (·.number))

/-- `stop` goes on, if what it waits for has happened. -/
def resumeStop (config : WorkerConfig) (s : WorkerSys δ) : StopPhase → StopPhase
  | .polls numbers =>
    if s.arePollsSettled numbers then
      if s.active = [] then .returned
      else if 0 < config.shutdownGraceMs then .grace (s.active.map (·.number))
      else s.abortActive
    else .polls numbers
  | .grace executions => if s.haveEnded executions then s.abortActive else .grace executions
  | .aborted executions => if s.haveEnded executions then .returned else .aborted executions
  | .returned => .returned

/-- The grace period is over. -/
def endGrace (s : WorkerSys δ) : StopPhase → StopPhase
  | .grace _ => s.abortActive
  | phase => phase

/-! ### Steps -/

/-- What can happen. -/
inductive Act (δ : Type)
  /-- A call on the database, by an execution or anyone else, or time. -/
  | operate (op : Op δ)
  /-- `runOnce()` is called. -/
  | runOnce
  /-- What poll `p` waits for has happened. -/
  | proceed (p : ℕ) (random : ℚ) (locked : List ℕ)
  /-- A call of poll `p` on the database fails. -/
  | fail (p : ℕ)
  /-- An execution ends. -/
  | finish (number : ℕ)
  /-- `stop()` is called. -/
  | stop
  /-- The `i`-th call of `stop` goes on, if what it waits for has happened. -/
  | resume (i : ℕ)
  /-- The grace period of the `i`-th call of `stop` is over. -/
  | endGrace (i : ℕ)

/-- What an action does. -/
def next (config : WorkerConfig) (s : WorkerSys δ) : Act δ → WorkerSys δ
  | .operate op => { s with db := transact s.db op }
  | .runOnce => if s.stopping then s else { s with polls := s.polls ++ [.listing] }
  | .proceed p random locked =>
    match s.polls[p]? with
    | some phase => proceedPoll config s p random locked phase
    | none => s
  | .fail p =>
    match s.polls[p]? with
    | some phase => if phase.isSettled then s else s.setPoll p (.settled none)
    | none => s
  | .finish number =>
    match s.running.find? fun e => e.number = number with
    | some execution =>
      { s with
        active := deleteActive s.active execution.jobId
        running := s.running.filter fun e => e.number ≠ number }
    | none => s
  | .stop =>
    if s.stopping then { s with stops := s.stops ++ [.returned] }
    else
      { s with
        stopping := true
        stops := s.stops ++ [.polls (idsWhere (fun _ phase => !phase.isSettled) s.polls)] }
  | .resume i =>
    match s.stops[i]? with
    | some phase => { s with stops := s.stops.set i (resumeStop config s phase) }
    | none => s
  | .endGrace i =>
    match s.stops[i]? with
    | some phase => { s with stops := s.stops.set i (endGrace s phase) }
    | none => s

end

/-- A new worker. -/
def initial (db : Db δ) : WorkerSys δ :=
  { db, stopping := false, active := [], running := [], started := 0, polls := [], stops := [] }

end ResearchWorkbench.DurableWorker
