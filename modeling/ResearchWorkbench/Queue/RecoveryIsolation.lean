import Mathlib.Data.Prod.Lex
import ResearchWorkbench.Library.Batches
import ResearchWorkbench.Queue.Recoveries

namespace ResearchWorkbench

/-!
# Recovery isolation

The expired jobs are a queue that `recoverExpiredJobs` serves in batches.

* `pending` — the queue, in the order of `lease_expires_at` and id;
* `recoverExpiredJobs_spec` — what one call does to a job;
* `Calls` — the calls one after another, and other work meanwhile;
* `RecoveryIsolated` — no job whose recovery fails keeps another one from being recovered;
* `recovery_isolated_iff` — when that is so.
-/

variable {δ : Type} {db db' : Db δ} {runIds : Option (List ℕ)} {i limit : ℕ} {job : JobRow}
  {random : ℚ}

/-! ### The queue -/

/-- The place of a job in `ORDER BY lease_expires_at, id`. -/
def expiryKey (job : JobRow) (i : ℕ) : ℕ ×ₗ ℕ := toLex (job.leaseExpiresAt.getD 0, i)

/-- The ids of the expired jobs in the scope of a call, in its order. -/
def expiredIds (db : Db δ) (runIds : Option (List ℕ)) : List ℕ :=
  ((db.jobs.zipIdx.filter fun (job, _) => job.status.isActive && job.leaseExpired db.now &&
      runIds.all (fun ids => job.runId.any fun runId => runId ∈ ids))
    |>.insertionSort expiryOrder).map (·.2)

/-- The place of the job with an id. -/
def keyOf (db : Db δ) (i : ℕ) : ℕ ×ₗ ℕ :=
  toLex (((db.jobs[i]?).bind (·.leaseExpiresAt)).getD 0, i)

/-- The expired jobs in the scope of a call, by their places. -/
def pending (db : Db δ) (runIds : Option (List ℕ)) : Finset (ℕ ×ₗ ℕ) :=
  ((expiredIds db runIds).map (keyOf db)).toFinset

theorem keyOf_eq (h : db.jobs[i]? = some job) : keyOf db i = expiryKey job i := by
  simp [keyOf, expiryKey, h]

theorem expiryKey_id {j : ℕ} {job' : JobRow} (h : expiryKey job i = expiryKey job' j) : i = j :=
  congrArg (fun key => (ofLex key).2) h

theorem expiredCandidates_eq :
    expiredCandidates db limit runIds = (expiredIds db runIds).take limit := by
  simp only [expiredCandidates, expiredIds, List.map_take]

theorem mem_expiredIds : i ∈ expiredIds db runIds ↔ ∃ job, ExpiredJob db runIds i job := by
  simp only [expiredIds, List.mem_map, List.mem_insertionSort, List.mem_filter,
    List.mem_zipIdx_iff_getElem?, Prod.exists, exists_eq_right, Bool.and_eq_true]
  refine exists_congr fun job => and_congr_right fun _ => ?_
  unfold JobRow.Recoverable
  rw [and_assoc]
  refine and_congr_right fun _ => and_congr_right fun _ => ?_
  cases runIds with
  | none => simp
  | some ids => cases job.runId <;> simp

theorem mem_pending {key : ℕ ×ₗ ℕ} :
    key ∈ pending db runIds ↔ ∃ i job, ExpiredJob db runIds i job ∧ expiryKey job i = key := by
  simp only [pending, List.mem_toFinset, List.mem_map, mem_expiredIds]
  constructor
  · rintro ⟨i, ⟨job, hjob⟩, rfl⟩
    exact ⟨i, job, hjob, (keyOf_eq hjob.1).symm⟩
  · rintro ⟨i, job, hjob, rfl⟩
    exact ⟨i, ⟨job, hjob⟩, keyOf_eq hjob.1⟩

instance : Std.Total expiryOrder where
  total x y := by
    unfold expiryOrder
    omega

instance : IsTrans (JobRow × ℕ) expiryOrder where
  trans x y z := by
    unfold expiryOrder
    omega

/-- The ids come in the order of their keys, each once. -/
theorem expiredIds_sorted (db : Db δ) (runIds : Option (List ℕ)) :
    (expiredIds db runIds).Pairwise fun i j => keyOf db i < keyOf db j := by
  obtain ⟨p, hp⟩ : ∃ p, expiredIds db runIds =
    ((db.jobs.zipIdx.filter p).insertionSort expiryOrder).map (·.2) := ⟨_, rfl⟩
  rw [hp, List.pairwise_map]
  have hsorted := List.pairwise_insertionSort expiryOrder (db.jobs.zipIdx.filter p)
  have hids : ((db.jobs.zipIdx.filter p).insertionSort expiryOrder).Pairwise
      fun x y => x.2 ≠ y.2 := by
    rw [← List.pairwise_map (f := fun x : JobRow × ℕ => x.2) (R := (· ≠ ·))]
    refine ((List.perm_insertionSort _ _).map _).nodup_iff.mpr ?_
    refine List.Nodup.sublist (List.filter_sublist.map _) ?_
    rw [List.zipIdx_map_snd]
    exact List.nodup_range'
  refine (hsorted.and hids).imp_of_mem ?_
  intro x y hx hy hxy
  simp only [List.mem_insertionSort, List.mem_filter, List.mem_zipIdx_iff_getElem?] at hx hy
  rw [keyOf_eq hx.1, keyOf_eq hy.1, expiryKey, expiryKey, Prod.Lex.toLex_lt_toLex]
  rcases hxy with ⟨hlt | ⟨heq, hle⟩, hne⟩
  · exact .inl hlt
  · exact .inr ⟨heq, lt_of_le_of_ne hle hne⟩

/-- The places of the candidates are the batch of the queue. -/
theorem mem_batch_pending {key : ℕ ×ₗ ℕ} :
    key ∈ batch limit (pending db runIds) ↔
      ∃ i ∈ expiredCandidates db limit runIds, keyOf db i = key := by
  have hsorted := List.pairwise_map.mpr (expiredIds_sorted db runIds)
  rw [pending, ← mem_take_iff_mem_batch hsorted, ← List.map_take, ← expiredCandidates_eq,
    List.mem_map]

theorem expired_of_candidate (h : i ∈ expiredCandidates db limit runIds) :
    ∃ job, ExpiredJob db runIds i job := by
  rw [expiredCandidates_eq] at h
  exact mem_expiredIds.mp (List.mem_of_mem_take h)

/-! ### One call -/

/-- The candidates of a call with the numbers the generator returns for them. -/
def draws (db : Db δ) (limit : ℕ) (runIds : Option (List ℕ)) (random : ℕ → ℚ) : List (ℕ × ℚ) :=
  (expiredCandidates db limit runIds).zipIdx.map fun p => (p.1, random p.2)

theorem map_draws (random : ℕ → ℚ) :
    (draws db limit runIds random).map (·.1) = expiredCandidates db limit runIds := by
  rw [draws, List.map_map]
  exact List.zipIdx_map_fst 0 _

theorem number_of_draw {random : ℕ → ℚ} {p : ℕ × ℚ} (h : p ∈ draws db limit runIds random) :
    p.1 ∈ expiredCandidates db limit runIds ∧ ∃ n, p.2 = random n := by
  refine ⟨map_draws random ▸ List.mem_map_of_mem h, ?_⟩
  rcases List.mem_map.mp h with ⟨q, _, rfl⟩
  exact ⟨q.2, rfl⟩

theorem exists_draw (random : ℕ → ℚ) (h : i ∈ expiredCandidates db limit runIds) :
    ∃ n, (i, random n) ∈ draws db limit runIds random := by
  rw [← map_draws random] at h
  rcases List.mem_map.mp h with ⟨p, hp, rfl⟩
  rcases number_of_draw hp with ⟨_, n, hn⟩
  exact ⟨n, hn ▸ hp⟩

theorem draws_sorted (db : Db δ) (limit : ℕ) (runIds : Option (List ℕ)) (random : ℕ → ℚ) :
    (draws db limit runIds random).Pairwise fun p q => keyOf db p.1 < keyOf db q.1 := by
  rw [← List.pairwise_map (f := fun p : ℕ × ℚ => p.1) (R := fun i j => keyOf db i < keyOf db j),
    map_draws random, expiredCandidates_eq]
  exact (expiredIds_sorted db runIds).sublist (List.take_sublist _ _)

theorem nodup_draws (random : ℕ → ℚ) : ((draws db limit runIds random).map (·.1)).Nodup := by
  rw [List.Nodup, List.pairwise_map]
  refine (draws_sorted db limit runIds random).imp ?_
  intro p q hlt heq
  rw [heq] at hlt
  exact lt_irrefl _ hlt

/-- What one call does to a job. -/
theorem recoverExpiredJobs_spec (db : Db δ) {random : ℕ → ℚ} (hlimit : 1 ≤ limit ∧ limit ≤ 1000)
    (hruns : boundedRunIds runIds = .ok ()) (hrandom : ∀ n, 0 ≤ random n ∧ random n ≤ 1) :
    SameLinkage db (recoverExpiredJobs db limit runIds random).1 ∧
      (recoverExpiredJobs db limit runIds random).1.jobs.length = db.jobs.length ∧
      ∀ i job, db.jobs[i]? = some job →
        ∃ job', (recoverExpiredJobs db limit runIds random).1.jobs[i]? = some job' ∧
          Recovered (recoveredCandidates db (draws db limit runIds random)) db.now i job job' := by
  have hvalid : (do boundedInteger limit "limit" 1 1000; boundedRunIds runIds) = .ok () := by
    simp only [bind_eq_ok, boundedInteger, ensure_eq_ok]
    exact ⟨(), by omega, hruns⟩
  have hcall : recoverExpiredJobs db limit runIds random =
      recoverCandidates runIds db (draws db limit runIds random) := by
    rw [recoverExpiredJobs, hvalid]
    rfl
  rw [hcall]
  refine recoverCandidates_spec (.refl db) (fun _ _ => rfl) (nodup_draws random) ?_ ?_
  · intro p hp
    exact expired_of_candidate (number_of_draw hp).1
  · intro p hp
    rcases number_of_draw hp with ⟨_, n, hn⟩
    rw [hn]
    exact hrandom n

/-- A job is recovered unless its recovery fails or one before it ends the call. -/
theorem mem_recoveredCandidates {random : ℕ → ℚ} {r : ℚ} :
    (i, r) ∈ recoveredCandidates db (draws db limit runIds random) ↔
      (i, r) ∈ draws db limit runIds random ∧
      (¬ ∃ job ∈ db.jobs[i]?, RecoveryFails db job r) ∧
      ∀ p ∈ draws db limit runIds random, keyOf db p.1 < keyOf db i →
        ¬ ∃ job ∈ db.jobs[p.1]?, RecoveryThrows db job p.2 := by
  have hasymm : ∀ p q : ℕ × ℚ, keyOf db p.1 < keyOf db q.1 → ¬ keyOf db q.1 < keyOf db p.1 :=
    fun _ _ => lt_asymm
  simp only [recoveredCandidates, List.mem_filter, decide_eq_true_eq]
  rw [mem_takeWhile_iff hasymm (draws_sorted db limit runIds random)]
  simp only [decide_eq_true_eq]
  constructor
  · rintro ⟨⟨hmem, _, hbefore⟩, hfails⟩
    exact ⟨hmem, hfails, hbefore⟩
  · rintro ⟨hmem, hfails, hbefore⟩
    refine ⟨⟨hmem, ?_, hbefore⟩, hfails⟩
    rintro ⟨job, hjob, hthrows⟩
    exact hfails ⟨job, hjob, hthrows.1⟩

/-- The recoveries that fail, by the places of the jobs, when the generator returns the largest
    number. -/
def recoveryService (db : Db δ) : Service (ℕ ×ₗ ℕ) where
  Fails key := ∃ job ∈ db.jobs[(ofLex key).2]?, RecoveryFails db job 1
  Ends key := ∃ job ∈ db.jobs[(ofLex key).2]?, RecoveryThrows db job 1
  fails_of_ends := fun h => h.imp fun _ h => ⟨h.1, h.2.1⟩

/-- What the queue serves is recovered. -/
theorem recovered_of_served {random : ℕ → ℚ} (hrandom : ∀ n, 0 ≤ random n ∧ random n ≤ 1)
    (h : keyOf db i ∈ (recoveryService db).served limit (pending db runIds)) :
    ∃ n, (i, random n) ∈ recoveredCandidates db (draws db limit runIds random) := by
  rcases Service.mem_served.mp h with ⟨hbatch, hfails, hends⟩
  rcases mem_batch_pending.mp hbatch with ⟨j, hj, hkey⟩
  obtain rfl : j = i := congrArg (fun key => (ofLex key).2) hkey
  rcases exists_draw random hj with ⟨n, hn⟩
  refine ⟨n, mem_recoveredCandidates.mpr ⟨hn, ?_, ?_⟩⟩
  · rintro ⟨job, hjob, hfail⟩
    exact hfails ⟨job, hjob, hfail.worst (hrandom n).1 (hrandom n).2⟩
  · rintro p hp hlt ⟨job, hjob, hfail, hdeleted⟩
    rcases number_of_draw hp with ⟨hcandidate, m, hm⟩
    refine hends (keyOf db p.1) (mem_batch_pending.mpr ⟨p.1, hcandidate, rfl⟩) hlt
      ⟨job, hjob, ?_, hdeleted⟩
    rw [hm] at hfail
    exact hfail.worst (hrandom m).1 (hrandom m).2

/-- With the largest numbers, nothing else is. -/
theorem served_of_recovered {r : ℚ}
    (h : (i, r) ∈ recoveredCandidates db (draws db limit runIds fun _ => 1)) :
    keyOf db i ∈ (recoveryService db).served limit (pending db runIds) := by
  rcases mem_recoveredCandidates.mp h with ⟨hdraw, hfails, hbefore⟩
  rcases number_of_draw hdraw with ⟨hcandidate, _, hone⟩
  obtain rfl : r = 1 := hone
  refine Service.mem_served.mpr ⟨mem_batch_pending.mpr ⟨i, hcandidate, rfl⟩, hfails, ?_⟩
  intro key hkey hlt
  rcases mem_batch_pending.mp hkey with ⟨j, hj, rfl⟩
  rcases exists_draw (fun _ => 1) hj with ⟨_, hn⟩
  exact hbefore _ hn hlt

/-! ### Calls one after another -/

/-- Other work between two calls: time passes, the expired jobs and what they are linked to are left
    alone, and no lease is granted that has expired already. -/
structure Meanwhile (runIds : Option (List ℕ)) (db db' : Db δ) : Prop where
  later : db.now ≤ db'.now
  kept : ∀ i job, ExpiredJob db runIds i job → db'.jobs[i]? = some job
  linked : ∀ i job, ExpiredJob db runIds i job →
    (ProjectDeleted db' job ↔ ProjectDeleted db job) ∧
    (LinkageBroken db' job ↔ LinkageBroken db job)
  fresh : ∀ i job, ExpiredJob db' runIds i job →
    ExpiredJob db runIds i job ∨ ∃ expiry ∈ job.leaseExpiresAt, db.now < expiry

theorem Meanwhile.refl (runIds : Option (List ℕ)) (db : Db δ) : Meanwhile runIds db db :=
  ⟨le_rfl, fun _ _ h => h.1, fun _ _ _ => ⟨Iff.rfl, Iff.rfl⟩, fun _ _ h => .inl h⟩

/-- The states before the calls, with the numbers the generator returns in each. -/
structure Calls (db : Db δ) (limit : ℕ) (runIds : Option (List ℕ)) (calls : ℕ → Db δ)
    (random : ℕ → ℕ → ℚ) : Prop where
  start : calls 0 = db
  number : ∀ k n, 0 ≤ random k n ∧ random k n ≤ 1
  next : ∀ k, Meanwhile runIds (recoverExpiredJobs (calls k) limit runIds (random k)).1
    (calls (k + 1))

/-- The call moves the job to `RETRY_WAIT`, `DEAD_LETTER` or `CANCELLED`, once. -/
def RecoversIn (db : Db δ) (limit : ℕ) (runIds : Option (List ℕ)) (random : ℕ → ℚ) (i : ℕ)
    (job : JobRow) : Prop :=
  ∃ n job', (recoverExpiredJobs db limit runIds random).1.jobs[i]? = some job' ∧
    RecoveredTo db.now job (random n) job'

/-- **Recovery isolation.**  An expired job whose recovery does not fail is recovered by the call if
    it is a candidate, and in any case by one of the calls to come. -/
def RecoveryIsolated (db : Db δ) (limit : ℕ) (runIds : Option (List ℕ)) : Prop :=
  ∀ (calls : ℕ → Db δ) (random : ℕ → ℕ → ℚ), Calls db limit runIds calls random →
    ∀ i job, ExpiredJob db runIds i job → ¬ RecoveryFails db job 1 →
      (i ∈ expiredCandidates db limit runIds → RecoversIn db limit runIds (random 0) i job) ∧
      ∃ k, (∀ m ≤ k, (calls m).jobs[i]? = some job) ∧
        RecoversIn (calls k) limit runIds (random k) i job

section
variable {calls : ℕ → Db δ} {numbers : ℕ → ℕ → ℚ} (hlimit : 1 ≤ limit ∧ limit ≤ 1000)
  (hruns : boundedRunIds runIds = .ok ()) (hcalls : Calls db limit runIds calls numbers)
include hlimit hruns hcalls

/-- A job that is expired with an old lease was so before the call, which did not touch it. -/
theorem Calls.expired_before {k : ℕ} (h : ExpiredJob (calls (k + 1)) runIds i job)
    (hold : job.leaseExpiresAt.getD 0 ≤ (calls k).now) :
    ExpiredJob (calls k) runIds i job ∧
      (recoverExpiredJobs (calls k) limit runIds (numbers k)).1.jobs[i]? = some job ∧
      (ProjectDeleted (calls (k + 1)) job ↔ ProjectDeleted (calls k) job) ∧
      (LinkageBroken (calls (k + 1)) job ↔ LinkageBroken (calls k) job) := by
  rcases recoverExpiredJobs_spec (calls k) hlimit hruns (hcalls.number k) with
    ⟨hlinks, hlength, hall⟩
  rcases (hcalls.next k).fresh i job h with hexpired | ⟨expiry, hlease, hnew⟩
  · have hlinked := (hcalls.next k).linked i job hexpired
    rw [hlinks.projectDeleted, hlinks.linkageBroken] at hlinked
    refine ⟨?_, hexpired.1, hlinked⟩
    -- a job that the call recovered is not expired
    have hin : i < (calls k).jobs.length := by
      rw [← hlength]
      exact (List.getElem?_eq_some_iff.mp hexpired.1).1
    rcases hall i _ (List.getElem?_eq_getElem hin) with ⟨job', hjob', hcase⟩
    obtain rfl : job' = job := Option.some.inj (hjob'.symm.trans hexpired.1)
    rcases hcase with ⟨_, _, hto⟩ | ⟨_, hsame⟩
    · have hactive := hexpired.2.1
      rw [hto.not_active] at hactive
      cases hactive
    · refine ⟨?_, hlinks.now ▸ hexpired.2⟩
      rw [List.getElem?_eq_getElem hin, ← hsame]
  · rw [Option.mem_def.mp hlease] at hold
    rw [hlinks.now] at hnew
    exact absurd hnew (not_lt.mpr hold)

/-- No call goes back in time. -/
theorem Calls.now_le (k : ℕ) : db.now ≤ (calls k).now := by
  induction k with
  | zero => rw [hcalls.start]
  | succ k ih =>
    have hlinks := (recoverExpiredJobs_spec (calls k) hlimit hruns (hcalls.number k)).1
    exact ih.trans (hlinks.now ▸ (hcalls.next k).later)

/-- What is expired with an old lease was so from the start, and its recovery fails as it did. -/
theorem Calls.from_start {k : ℕ} (h : ExpiredJob (calls k) runIds i job)
    (hold : job.leaseExpiresAt.getD 0 ≤ db.now) :
    ExpiredJob db runIds i job ∧ (ProjectDeleted (calls k) job ↔ ProjectDeleted db job) ∧
      (LinkageBroken (calls k) job ↔ LinkageBroken db job) := by
  induction k with
  | zero =>
    rw [hcalls.start] at h ⊢
    exact ⟨h, Iff.rfl, Iff.rfl⟩
  | succ k ih =>
    rcases hcalls.expired_before hlimit hruns h (hold.trans (hcalls.now_le hlimit hruns k)) with
      ⟨hbefore, _, hdeleted, hbroken⟩
    rcases ih hbefore with ⟨hstart, hdeleted', hbroken'⟩
    exact ⟨hstart, hdeleted.trans hdeleted', hbroken.trans hbroken'⟩

end

/-- The lease of an expired job is over. -/
theorem ExpiredJob.lease_le (h : ExpiredJob db runIds i job) :
    job.leaseExpiresAt.getD 0 ≤ db.now := by
  rcases h with ⟨_, _, hexpired, _⟩
  unfold JobRow.leaseExpired at hexpired
  cases hlease : job.leaseExpiresAt with
  | none => exact Nat.zero_le _
  | some expiry => simpa [hlease] using hexpired

theorem lease_le_of_key_le {j : ℕ} {job' : JobRow} (h : expiryKey job' j ≤ expiryKey job i) :
    job'.leaseExpiresAt.getD 0 ≤ job.leaseExpiresAt.getD 0 := by
  rcases Prod.Lex.toLex_le_toLex.mp h with hlt | ⟨heq, _⟩
  · exact hlt.le
  · exact heq.le

theorem ExpiredJob.unique {job' : JobRow} (h : ExpiredJob db runIds i job)
    (h' : ExpiredJob db' runIds i job') (hrow : db'.jobs[i]? = db.jobs[i]?) : job' = job :=
  Option.some.inj (h'.1.symm.trans (hrow.trans h.1))

section
variable {calls : ℕ → Db δ} {numbers : ℕ → ℕ → ℚ} (hlimit : 1 ≤ limit ∧ limit ≤ 1000)
  (hruns : boundedRunIds runIds = .ok ()) (hcalls : Calls db limit runIds calls numbers)
  (hexpired : ExpiredJob db runIds i job)
include hlimit hruns hcalls hexpired

/-- Up to the job, the recoveries that fail are those of the start. -/
theorem Calls.served_iff {k : ℕ} {key : ℕ ×ₗ ℕ} (hkey : key ≤ expiryKey job i) :
    key ∈ (recoveryService (calls k)).served limit (pending (calls k) runIds) ↔
      key ∈ (recoveryService db).served limit (pending (calls k) runIds) := by
  have hrow : ∀ key ∈ pending (calls k) runIds, key ≤ expiryKey job i →
      ∃ job', (calls k).jobs[(ofLex key).2]? = some job' ∧ db.jobs[(ofLex key).2]? = some job' ∧
        (ProjectDeleted (calls k) job' ↔ ProjectDeleted db job') ∧
        (LinkageBroken (calls k) job' ↔ LinkageBroken db job') := by
    intro key hmem hle
    rcases mem_pending.mp hmem with ⟨j, job', hjob', rfl⟩
    have hold := (lease_le_of_key_le hle).trans hexpired.lease_le
    rcases hcalls.from_start hlimit hruns hjob' hold with ⟨hstart, hlinked⟩
    exact ⟨job', hjob'.1, hstart.1, hlinked⟩
  refine Service.served_congr ?_ ?_ hkey
  · intro key hmem hle
    rcases hrow key hmem hle with ⟨job', hnow, hstart, hdeleted, hbroken⟩
    simp only [recoveryService, hnow, hstart, Option.mem_def, Option.some.injEq, exists_eq_left',
      RecoveryFails, hdeleted, hbroken]
  · intro key hmem hle
    rcases hrow key hmem hle with ⟨job', hnow, hstart, hdeleted, hbroken⟩
    simp only [recoveryService, hnow, hstart, Option.mem_def, Option.some.injEq, exists_eq_left',
      RecoveryThrows, RecoveryFails, hdeleted, hbroken]

/-- **The step lemma.**  A call advances the queue. -/
theorem Calls.advances (k : ℕ) : (recoveryService db).Advances limit (expiryKey job i)
    (pending (calls k) runIds) (pending (calls (k + 1)) runIds) := by
  refine ⟨?_, ?_⟩
  · intro key hserved hle hmem
    rw [← hcalls.served_iff hlimit hruns hexpired hle] at hserved
    rcases mem_pending.mp hmem with ⟨j, job', hjob', rfl⟩
    have hold := ((lease_le_of_key_le hle).trans hexpired.lease_le).trans
      (hcalls.now_le hlimit hruns k)
    rcases hcalls.expired_before hlimit hruns hjob' hold with ⟨hbefore, hafter, _⟩
    rw [← keyOf_eq hbefore.1] at hserved
    -- it was recovered, and is not active any more
    rcases recovered_of_served (hcalls.number k) hserved with ⟨n, hn⟩
    rcases (recoverExpiredJobs_spec _ hlimit hruns (hcalls.number k)).2.2 j job' hbefore.1 with
      ⟨job'', hjob'', ⟨_, _, hto⟩ | ⟨hnone, _⟩⟩
    · obtain rfl : job'' = job' := Option.some.inj (hjob''.symm.trans hafter)
      have hactive := hjob'.2.1
      rw [hto.not_active] at hactive
      cases hactive
    · exact hnone _ hn
  · intro key hmem hle
    rcases mem_pending.mp hmem with ⟨j, job', hjob', rfl⟩
    have hold := ((lease_le_of_key_le hle).trans hexpired.lease_le).trans
      (hcalls.now_le hlimit hruns k)
    exact mem_pending.mpr ⟨j, job', (hcalls.expired_before hlimit hruns hjob' hold).1, rfl⟩

/-- While the job is in the queue, its row is what it was. -/
theorem Calls.row {k : ℕ} (h : expiryKey job i ∈ pending (calls k) runIds) :
    ExpiredJob (calls k) runIds i job := by
  rcases mem_pending.mp h with ⟨j, job', hjob', hkey⟩
  obtain rfl : j = i := expiryKey_id hkey
  have hold := (lease_le_of_key_le hkey.le).trans hexpired.lease_le
  obtain rfl : job' = job :=
    hexpired.unique (hcalls.from_start hlimit hruns hjob' hold).1 rfl
  exact hjob'

/-- A job that leaves the queue was recovered. -/
theorem Calls.recovers {k : ℕ} (h : expiryKey job i ∈ pending (calls k) runIds)
    (hleft : expiryKey job i ∉ pending (calls (k + 1)) runIds) :
    RecoversIn (calls k) limit runIds (numbers k) i job := by
  have hbefore := hcalls.row hlimit hruns hexpired h
  rcases recoverExpiredJobs_spec _ hlimit hruns (hcalls.number k) with ⟨hlinks, _, hall⟩
  rcases hall i job hbefore.1 with ⟨job', hjob', ⟨r, hr, hto⟩ | ⟨_, rfl⟩⟩
  · have hdraw := (mem_recoveredCandidates.mp hr).1
    rcases number_of_draw hdraw with ⟨_, n, rfl⟩
    exact ⟨n, job', hjob', hto⟩
  · -- untouched, it would still be there
    refine absurd (mem_pending.mpr ⟨i, job', ⟨?_, ?_⟩, rfl⟩) hleft
    · exact (hcalls.next k).kept i job' ⟨hjob', hlinks.now ▸ hbefore.2⟩
    · have hlater : (calls k).now ≤ (calls (k + 1)).now := hlinks.now ▸ (hcalls.next k).later
      rcases hbefore.2 with ⟨hactive, hlease, hscope⟩
      refine ⟨hactive, ?_, hscope⟩
      unfold JobRow.leaseExpired at hlease ⊢
      cases hexpiry : job'.leaseExpiresAt with
      | none => simp [hexpiry] at hlease
      | some expiry =>
        simp only [hexpiry, Option.any_some, decide_eq_true_eq] at hlease ⊢
        exact hlease.trans hlater

end

/-- The calls right after one another, when the generator always returns the largest number. -/
def worstCalls (db : Db δ) (limit : ℕ) (runIds : Option (List ℕ)) : ℕ → Db δ
  | 0 => db
  | k + 1 => (recoverExpiredJobs (worstCalls db limit runIds k) limit runIds fun _ => 1).1

theorem worstCalls_calls (db : Db δ) (limit : ℕ) (runIds : Option (List ℕ)) :
    Calls db limit runIds (worstCalls db limit runIds) fun _ _ => 1 :=
  ⟨rfl, fun _ _ => ⟨zero_le_one, le_rfl⟩, fun _ => .refl runIds _⟩

/-- What the queue does not serve stays in it. -/
theorem worstCalls_keeps (hlimit : 1 ≤ limit ∧ limit ≤ 1000) (hruns : boundedRunIds runIds = .ok ())
    (hexpired : ExpiredJob db runIds i job) (k : ℕ) :
    (recoveryService db).Keeps limit (expiryKey job i)
      (pending (worstCalls db limit runIds k) runIds)
      (pending (worstCalls db limit runIds (k + 1)) runIds) := by
  intro key hmem hle hserved
  have hcalls := worstCalls_calls db limit runIds
  rw [← hcalls.served_iff hlimit hruns hexpired hle] at hserved
  rcases mem_pending.mp hmem with ⟨j, job', hjob', rfl⟩
  rw [← keyOf_eq hjob'.1] at hserved
  rcases recoverExpiredJobs_spec _ hlimit hruns (hcalls.number k) with ⟨hlinks, _, hall⟩
  rcases hall j job' hjob'.1 with ⟨job'', hjob'', ⟨r, hr, _⟩ | ⟨_, rfl⟩⟩
  · exact absurd (served_of_recovered hr) hserved
  · exact mem_pending.mpr ⟨j, job'', ⟨hjob'', hlinks.now ▸ hjob'.2⟩, rfl⟩

/-- A job that is blocked is never recovered if the generator returns the largest number. -/
theorem not_isolated_of_blocked (hlimit : 1 ≤ limit ∧ limit ≤ 1000)
    (hruns : boundedRunIds runIds = .ok ()) (hexpired : ExpiredJob db runIds i job)
    (hok : ¬ RecoveryFails db job 1)
    (hblocked : ¬ (recoveryService db).Unblocked limit (pending db runIds) (expiryKey job i)) :
    ¬ RecoveryIsolated db limit runIds := by
  intro h
  have hcalls := worstCalls_calls db limit runIds
  rcases (h _ _ hcalls i job hexpired hok).2 with ⟨k, _, n, job', hjob', hto⟩
  have hstays := Service.never_served (q := fun k => pending (worstCalls db limit runIds k) runIds)
    (worstCalls_keeps hlimit hruns hexpired) hblocked (mem_pending.mpr ⟨i, job, hexpired, rfl⟩)
    (k + 1)
  have hthere := hcalls.row hlimit hruns hexpired hstays.1
  obtain rfl : job' = job := Option.some.inj (hjob'.symm.trans hthere.1)
  have hactive := hthere.2.1
  rw [hto.not_active] at hactive
  cases hactive

/-- **Recovery is isolated** exactly if, for each job whose recovery does not fail, the jobs before
    it whose recovery fails have their projects deleted, and there are fewer of them than the
    limit. -/
theorem recovery_isolated_iff (hlimit : 1 ≤ limit ∧ limit ≤ 1000)
    (hruns : boundedRunIds runIds = .ok ()) :
    RecoveryIsolated db limit runIds ↔
      ∀ i job, ExpiredJob db runIds i job → ¬ RecoveryFails db job 1 →
        (recoveryService db).Unblocked limit (pending db runIds) (expiryKey job i) := by
  constructor
  · intro h i job hexpired hok
    by_contra hblocked
    exact not_isolated_of_blocked hlimit hruns hexpired hok hblocked h
  · intro h calls random hcalls i job hexpired hok
    have hunblocked := h i job hexpired hok
    have hthere : expiryKey job i ∈ pending db runIds := mem_pending.mpr ⟨i, job, hexpired, rfl⟩
    have hfails : ¬ (recoveryService db).Fails (expiryKey job i) := by
      rintro ⟨job', hjob', hfail⟩
      obtain rfl : job' = job := Option.some.inj (hjob'.symm.trans hexpired.1)
      exact hok hfail
    refine ⟨?_, ?_⟩
    · intro hcandidate
      have hserved : keyOf db i ∈ (recoveryService db).served limit (pending db runIds) := by
        refine Service.mem_served.mpr ⟨mem_batch_pending.mpr ⟨i, hcandidate, rfl⟩, ?_, ?_⟩
        · rwa [keyOf_eq hexpired.1]
        · intro key hkey hlt
          rw [keyOf_eq hexpired.1] at hlt
          exact hunblocked.1 key (mem_batch.mp hkey).1 hlt
      rcases recovered_of_served (hcalls.number 0) hserved with ⟨n, hn⟩
      rcases (recoverExpiredJobs_spec _ hlimit hruns (hcalls.number 0)).2.2 i job hexpired.1 with
        ⟨job', hjob', ⟨r, hr, hto⟩ | ⟨hnone, _⟩⟩
      · rcases number_of_draw (mem_recoveredCandidates.mp hr).1 with ⟨_, m, rfl⟩
        exact ⟨m, job', hjob', hto⟩
      · exact absurd hn (hnone _)
    · have hstart : expiryKey job i ∈ pending (calls 0) runIds := by rwa [hcalls.start]
      have hunblocked₀ : (recoveryService db).Unblocked limit (pending (calls 0) runIds)
          (expiryKey job i) := by rwa [hcalls.start]
      rcases hunblocked₀.eventually_leaves (q := fun k => pending (calls k) runIds)
        (hcalls.advances hlimit hruns hexpired) hstart hfails with ⟨m, _, hin, hout⟩
      refine ⟨m, ?_, hcalls.recovers hlimit hruns hexpired (hin m (Nat.zero_le m) le_rfl) hout⟩
      intro j hj
      exact (hcalls.row hlimit hruns hexpired (hin j (Nat.zero_le j) hj)).1

/-! ### A policy whose delay is no `INTEGER` -/

/-- Two jobs, the first with the policy, are claimed, and their leases run out. -/
def expiredPair (policy : JobRetryPolicy) : List (Op Unit) :=
  [.submitJob { jobType := .other 0, inputReference := .document 0, idempotencyKey := .custom 0
                retryPolicy := policy },
    .submitJob { jobType := .other 0, inputReference := .document 0, idempotencyKey := .custom 1 },
    .claimJobs { workerId := 0, limit := 2, leaseDurationMs := 1000 } [],
    .tick 1000]

/-- The database after that. -/
def expiredPairDb (policy : JobRetryPolicy) : Db Unit :=
  (expiredPair policy).foldl transact (Db.initial [] ())

/-- A retry after some 35 years. -/
def hugeDelay : JobRetryPolicy := ⟨2 ^ 40, 2 ^ 40, 0⟩

/-- The recovery of a job of no project, with a policy that is usable, does not fail. -/
theorem not_recoveryFails (hproject : job.projectId = none) (hrun : job.runId = none)
    (hpolicy : job.retryPolicy = defaultJobRetryPolicy) (hattempts : job.attempts = 1) :
    ¬ RecoveryFails db job 1 := by
  rintro (⟨_, hp, _⟩ | ⟨_, _, hr, _⟩ | ⟨_, hunusable⟩)
  · rw [hproject] at hp
    cases hp
  · rw [hrun] at hr
    cases hr
  · refine hunusable ?_
    rw [hpolicy, hattempts]
    exact ⟨parseJobRetryPolicy_default, by decide, by decide +kernel⟩

/-- With usable policies both jobs are recovered, one by one. -/
theorem recovery_isolated_pair : RecoveryIsolated (expiredPairDb defaultJobRetryPolicy) 1 none := by
  refine (recovery_isolated_iff (by decide) rfl).mpr ?_
  have hjobs : ∀ job ∈ (expiredPairDb defaultJobRetryPolicy).jobs, job.projectId = none ∧
      job.runId = none ∧ job.retryPolicy = defaultJobRetryPolicy ∧ job.attempts = 1 := by
    decide +kernel
  intro i job _ _
  refine Service.unblocked_of_no_failure Nat.one_pos ?_
  rintro key _ ⟨job', hjob', hfails⟩
  rcases hjobs job' (List.mem_of_getElem? hjob') with ⟨hproject, hrun, hpolicy, hattempts⟩
  exact not_recoveryFails hproject hrun hpolicy hattempts hfails

/-- **The second job is never recovered.**  The delay of the first does not fit the column, so each
    call ends with it. -/
theorem expired_job_starved :
    ¬ ∀ db : Db Unit, db.Reachable → ∀ (limit : ℕ) (runIds : Option (List ℕ)), 1 ≤ limit →
      limit ≤ 1000 → boundedRunIds runIds = .ok () → RecoveryIsolated db limit runIds := by
  intro hall
  have hreach : (expiredPairDb hugeDelay).Reachable :=
    Db.reachable_ofActions (Db.initial_initial [] ()) _
  have hfirst : ∃ job ∈ (expiredPairDb hugeDelay).jobs[0]?, job.status.isActive ∧
      job.leaseExpired (expiredPairDb hugeDelay).now ∧ job.projectId = none ∧
      recoveredStatus job = .retryWait ∧ job.attempts = 1 ∧ job.retryPolicy = hugeDelay ∧
      job.leaseExpiresAt = some 1000 := by decide +kernel
  have hsecond : ∃ job ∈ (expiredPairDb hugeDelay).jobs[1]?, job.status.isActive ∧
      job.leaseExpired (expiredPairDb hugeDelay).now ∧ job.projectId = none ∧ job.runId = none ∧
      job.attempts = 1 ∧ job.retryPolicy = defaultJobRetryPolicy ∧
      job.leaseExpiresAt = some 1000 := by decide +kernel
  rcases hfirst with ⟨first, hrow, hactive, hexpired, hproject, htarget, hattempts, hpolicy, hlease⟩
  rcases hsecond with ⟨job, hrow', hactive', hexpired', hproject', hrun', hattempts', hpolicy',
    hlease'⟩
  have hscope : ∀ ids ∈ (none : Option (List ℕ)), ∀ job : JobRow,
      ∃ runId ∈ job.runId, runId ∈ ids := by
    intro ids h
    cases h
  have hthrows : RecoveryThrows (expiredPairDb hugeDelay) first 1 := by
    refine ⟨.inr (.inr ⟨htarget, ?_⟩), ?_⟩
    · rw [hattempts, hpolicy]
      rintro ⟨_, _, hdelay⟩
      exact absurd hdelay (by decide +kernel)
    · rintro ⟨_, hp, _⟩
      rw [hproject] at hp
      cases hp
  have hstuck : ExpiredJob (expiredPairDb hugeDelay) none 1 job :=
    ⟨hrow', hactive', hexpired', fun ids h => hscope ids h job⟩
  have hblocked : ¬ (recoveryService (expiredPairDb hugeDelay)).Unblocked 100
      (pending (expiredPairDb hugeDelay) none) (expiryKey job 1) := by
    intro hunblocked
    refine hunblocked.1 (expiryKey first 0) ?_ ?_ ⟨first, hrow, hthrows⟩
    · exact mem_pending.mpr
        ⟨0, first, ⟨hrow, hactive, hexpired, fun ids h => hscope ids h first⟩, rfl⟩
    · rw [expiryKey, expiryKey, hlease, hlease', Prod.Lex.toLex_lt_toLex]
      exact .inr ⟨rfl, Nat.one_pos⟩
  exact not_isolated_of_blocked (by decide) rfl hstuck
    (not_recoveryFails hproject' hrun' hpolicy' hattempts') hblocked
    (hall _ hreach 100 none (by decide) (by decide) rfl)

end ResearchWorkbench
