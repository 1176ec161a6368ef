import ResearchWorkbench.Library.Transition
import ResearchWorkbench.Services.Auth

namespace ResearchWorkbench

/-!
# Concurrent logins

Login transactions with one username, statement by statement under `READ COMMITTED`.

* `LoginPhase`, `LoginSys`, `LoginAct`, `LoginSys.step` — the machine;
* `LoginsCorrect` — no login ends with an internal error, and the logins that have ended are
  equivalent to a sequence of logins;
* `KeepsRow` — the row that a login has found is still there when its `SELECT` needs it;
* `LoginInv` — the invariant: one holder of the row, and what each phase knows;
* `logins_correct_iff` — a run is correct exactly as long as `KeepsRow` holds.

The row of the username is created by `INSERT … ON CONFLICT DO NOTHING`, and deleted by a login with
the right password.  A row that another transaction has locked, but not deleted yet, makes the
`INSERT` do nothing; the `SELECT … FOR UPDATE` then waits for the lock, and returns no row if the
other transaction deletes it.
-/

/-! ### The machine -/

/-- Where a login transaction is. -/
inductive LoginPhase
  /-- Before its `INSERT`. -/
  | started
  /-- After its `INSERT`; whether that has written a row. -/
  | inserted (own : Bool)
  /-- The `SELECT … FOR UPDATE` waits for the row that its snapshot shows. -/
  | selecting (rowId : ℕ)
  /-- The row is locked, and the clock read. -/
  | locked (rowId : ℕ) (state : LoginRateLimitState) (lockedAt : ℕ)
  /-- The password was right, and the row is deleted. -/
  | deleted (rowId : ℕ) (state : LoginRateLimitState) (lockedAt operatorId : ℕ)
      (operator : OperatorRow)
  | ended (outcome : AuthenticateOperatorOutcome) (times : LoginTimes)
  /-- `result.rows[0]` is `undefined`, or a constraint is violated: an internal error. -/
  | failed
  deriving DecidableEq, Repr

/-- A login transaction. -/
structure Login where
  input : AuthenticateOperatorInput
  startedAt : ℕ
  phase : LoginPhase
  deriving DecidableEq, Repr

/-- The clock, the committed tables, and the logins.  The row of the username carries an id of its
    version: a row that is written anew is another one. -/
structure LoginSys where
  now : ℕ
  tables : AuthTables
  rateLimit : Option (ℕ × LoginRateLimitState)
  logins : List Login
  deriving DecidableEq, Repr

/-- What may happen next. -/
inductive LoginAct
  | tick (ms : ℕ)
  /-- A login begins, with tokens that `createOpaqueToken` or `deriveOpaqueToken` has just made. -/
  | start (input : AuthenticateOperatorInput)
  | insert (i : ℕ)
  | select (i : ℕ)
  | lock (i : ℕ)
  /-- The decision, with the `UPDATE` and the `COMMIT` of a refusal, or the `DELETE`. -/
  | decide (i : ℕ)
  | commit (i : ℕ)
  deriving DecidableEq, Repr

/-- The id of the row that the login `i` writes. -/
def ownRow (i : ℕ) : ℕ := i + 1

/-- The row that the login `i` has locked, its own uncommitted one included. -/
def LoginPhase.rowLock (i : ℕ) : LoginPhase → Option ℕ
  | .inserted true => some (ownRow i)
  | .locked rowId _ _ | .deleted rowId _ _ _ _ => some rowId
  | _ => none

/-- The login `i` has written or deleted the row, and is not committed yet. -/
def LoginPhase.isWriting (i : ℕ) : LoginPhase → Bool
  | .inserted true => true
  | .locked rowId _ _ => rowId = ownRow i
  | .deleted .. => true
  | _ => false

namespace LoginSys

section

variable (hashing : PasswordHashing) (config : LoginRateLimitConfig) (username : ℕ)

/-- Some other login satisfies `p`. -/
def anyOther (s : LoginSys) (i : ℕ) (p : ℕ → LoginPhase → Bool) : Bool :=
  (List.range s.logins.length).any fun j => j ≠ i && s.logins[j]?.any fun login => p j login.phase

/-- The login `i` goes on. -/
def setPhase (s : LoginSys) (i : ℕ) (phase : LoginPhase) : LoginSys :=
  { s with logins := s.logins.modify i fun login => { login with phase } }

/-- `INSERT INTO operator_login_rate_limits … ON CONFLICT DO NOTHING`, which waits for a transaction
    that has written or deleted the row. -/
def stepInsert (s : LoginSys) (i : ℕ) : LoginSys :=
  if s.anyOther i LoginPhase.isWriting then s else s.setPhase i (.inserted s.rateLimit.isNone)

/-- The `SELECT … FOR UPDATE` begins; its own row a login has locked already. -/
def stepSelect (s : LoginSys) (i : ℕ) (startedAt : ℕ) (own : Bool) : LoginSys :=
  if own then s.setPhase i (.locked (ownRow i) (newRateLimit startedAt) s.now)
  else
    match s.rateLimit with
    | some (rowId, _) => s.setPhase i (.selecting rowId)
    | none => s.setPhase i .failed

/-- The `SELECT … FOR UPDATE` waits for the lock, and returns the row if it is still there. -/
def stepLock (s : LoginSys) (i rowId : ℕ) : LoginSys :=
  if s.anyOther i fun j phase => phase.rowLock j = some rowId then s
  else
    match s.rateLimit with
    | some (id, state) =>
      if id = rowId then s.setPhase i (.locked rowId state s.now) else s.setPhase i .failed
    | none => s.setPhase i .failed

/-- The decision of a login that has locked its row. -/
def stepDecide (s : LoginSys) (i : ℕ) (login : Login) (rowId : ℕ) (state : LoginRateLimitState)
    (lockedAt : ℕ) : LoginSys :=
  match decideLogin hashing config (s.tables.findOperator login.input.normalizedUsername)
      login.input.password state lockedAt with
  | .refused state outcome =>
    { s.setPhase i (.ended outcome ⟨login.startedAt, lockedAt, s.now⟩) with
      rateLimit := some (rowId, state) }
  | .verified operatorId operator => s.setPhase i (.deleted rowId state lockedAt operatorId operator)

/-- The last statements of a login with the right password, and its `COMMIT`. -/
def stepCommit (s : LoginSys) (i : ℕ) (login : Login) (lockedAt operatorId : ℕ)
    (operator : OperatorRow) : LoginSys :=
  match completeLogin hashing login.input operatorId operator s.now s.tables with
  | .ok (session, tables) =>
    { s.setPhase i (.ended (.authenticated session) ⟨login.startedAt, lockedAt, s.now⟩) with
      tables, rateLimit := none }
  | .error _ => s.setPhase i .failed

/-- No session and no login has the token. -/
def isNewToken (s : LoginSys) (sessionToken : ℕ) : Bool :=
  s.tables.sessions.all (·.tokenHash ≠ sessionToken) &&
    s.logins.all (·.input.tokens.sessionToken ≠ sessionToken)

/-- One step. -/
def step (s : LoginSys) : LoginAct → LoginSys
  | .tick ms => { s with now := s.now + ms }
  | .start input =>
    if input.normalizedUsername = username && s.isNewToken input.tokens.sessionToken then
      { s with logins := s.logins ++ [⟨input, s.now, .started⟩] }
    else s
  | .insert i =>
    match s.logins[i]? with
    | some ⟨_, _, .started⟩ => s.stepInsert i
    | _ => s
  | .select i =>
    match s.logins[i]? with
    | some ⟨_, startedAt, .inserted own⟩ => s.stepSelect i startedAt own
    | _ => s
  | .lock i =>
    match s.logins[i]? with
    | some ⟨_, _, .selecting rowId⟩ => s.stepLock i rowId
    | _ => s
  | .decide i =>
    match s.logins[i]? with
    | some ⟨input, startedAt, .locked rowId state lockedAt⟩ =>
      s.stepDecide hashing config i ⟨input, startedAt, .locked rowId state lockedAt⟩ rowId state
        lockedAt
    | _ => s
  | .commit i =>
    match s.logins[i]? with
    | some ⟨input, startedAt, .deleted rowId state lockedAt operatorId operator⟩ =>
      s.stepCommit hashing i
        ⟨input, startedAt, .deleted rowId state lockedAt operatorId operator⟩ lockedAt operatorId
        operator
    | _ => s

end

/-- The first state: any tables, and no login yet. -/
def initial (now : ℕ) (db : LoginTables) : LoginSys :=
  ⟨now, db.toAuthTables, db.rateLimit.map (0, ·), []⟩

/-- The committed tables. -/
def db (s : LoginSys) : LoginTables := { s.tables with rateLimit := s.rateLimit.map (·.2) }

end LoginSys

/-! ### The property -/

/-- A login that has ended. -/
structure EndedLogin where
  input : AuthenticateOperatorInput
  times : LoginTimes
  outcome : AuthenticateOperatorOutcome
  deriving DecidableEq, Repr

/-- What a login that has ended leaves to be known. -/
def Login.ended (login : Login) : Option EndedLogin :=
  match login.phase with
  | .ended outcome times => some ⟨login.input, times, outcome⟩
  | _ => none

/-- Logins one after the other, each with its outcome. -/
def runLogins (hashing : PasswordHashing) (config : LoginRateLimitConfig) :
    List EndedLogin → LoginTables → Except ServiceError LoginTables
  | [], db => .ok db
  | login :: rest, db =>
    match authenticateOperatorOutcome hashing config login.input login.times db with
    | .ok (outcome, db) =>
      if outcome = login.outcome then runLogins hashing config rest db
      else .error (.error "Another outcome.")
    | .error e => .error e

/-- **Correct logins.**  The logins that have ended can be put in an order, without overlaps in
    time, in which they would have had the same outcomes one after the other, and left the same
    tables; and no login has failed. -/
def LoginsCorrect (hashing : PasswordHashing) (config : LoginRateLimitConfig) (db : LoginTables)
    (s : LoginSys) : Prop :=
  (∀ login ∈ s.logins, login.phase ≠ .failed) ∧
  ∃ order : List ℕ, order.Nodup ∧
    (∀ i, i ∈ order ↔ (s.logins[i]?.bind (·.ended)).isSome) ∧
    (order.filterMap fun i => s.logins[i]?.bind (·.ended)).Pairwise
      (fun earlier later => earlier.times.finishedAt ≤ later.times.lockedAt) ∧
    runLogins hashing config (order.filterMap fun i => s.logins[i]?.bind (·.ended)) db = .ok s.db

/-- The row that the `SELECT … FOR UPDATE` of a login needs in the step is there: when the statement
    begins, and, if it waits for the lock, when the lock is free. -/
def KeepsRow (s : LoginSys) : LoginAct → Prop
  | .select i => ∀ login ∈ s.logins[i]?, login.phase = .inserted false → s.rateLimit.isSome
  | .lock i => ∀ login ∈ s.logins[i]?, ∀ rowId, login.phase = .selecting rowId →
      s.anyOther i (fun j phase => phase.rowLock j = some rowId) = false →
        s.rateLimit.map (·.1) = some rowId
  | _ => True

/-! ### The invariant -/

variable {hashing : PasswordHashing} {config : LoginRateLimitConfig} {username : ℕ}
  {db db' db₂ : LoginTables} {s : LoginSys} {i j : ℕ} {login : Login} {phase : LoginPhase}
  {order : List ℕ}

/-- The login that has ended at a position. -/
def LoginSys.endedAt (s : LoginSys) (i : ℕ) : Option EndedLogin := s.logins[i]?.bind (·.ended)

/-- A login has locked the row with this state: it is the committed one, or one of its own. -/
def RowOk (s : LoginSys) (i startedAt rowId : ℕ) (state : LoginRateLimitState) : Prop :=
  s.rateLimit = some (rowId, state) ∨
    rowId = ownRow i ∧ s.rateLimit = none ∧ state = newRateLimit startedAt

/-- All that have ended did so before this time, which has passed. -/
def EndedBefore (s : LoginSys) (time : ℕ) : Prop :=
  time ≤ s.now ∧ ∀ j, ∀ e ∈ s.endedAt j, e.times.finishedAt ≤ time

/-- What the login `i` knows. -/
def Login.Knows (hashing : PasswordHashing) (config : LoginRateLimitConfig) (s : LoginSys) (i : ℕ)
    (login : Login) : Prop :=
  match login.phase with
  | .inserted true => s.rateLimit = none
  | .locked rowId state lockedAt =>
    RowOk s i login.startedAt rowId state ∧ EndedBefore s lockedAt
  | .deleted rowId state lockedAt operatorId operator =>
    RowOk s i login.startedAt rowId state ∧ EndedBefore s lockedAt ∧
      decideLogin hashing config (s.tables.findOperator login.input.normalizedUsername)
        login.input.password state lockedAt = .verified operatorId operator
  | _ => True

/-- The logins that have ended, in an order in which they might have been alone. -/
structure SerialOrder (hashing : PasswordHashing) (config : LoginRateLimitConfig)
    (db : LoginTables) (s : LoginSys) (order : List ℕ) : Prop where
  nodup : order.Nodup
  mem_iff : ∀ i, i ∈ order ↔ (s.endedAt i).isSome
  pairwise : (order.filterMap s.endedAt).Pairwise
    (fun earlier later => earlier.times.finishedAt ≤ later.times.lockedAt)
  run : runLogins hashing config (order.filterMap s.endedAt) db = .ok s.db

/-- **The invariant.** -/
structure LoginInv (hashing : PasswordHashing) (config : LoginRateLimitConfig) (s : LoginSys) :
    Prop where
  notFailed : ∀ login ∈ s.logins, login.phase ≠ .failed
  /-- One login at most has the row. -/
  holder : ∀ (i j : ℕ) (a b : Login), s.logins[i]? = some a → s.logins[j]? = some b →
    (a.phase.rowLock i).isSome → (b.phase.rowLock j).isSome → i = j
  knows : ∀ (i : ℕ) (login : Login), s.logins[i]? = some login → login.Knows hashing config s i
  tokens : ∀ (i j : ℕ) (a b : Login), s.logins[i]? = some a → s.logins[j]? = some b →
    a.input.tokens.sessionToken = b.input.tokens.sessionToken → i = j
  fresh : ∀ (i : ℕ) (login : Login), s.logins[i]? = some login → login.ended = none →
    ∀ session ∈ s.tables.sessions, session.tokenHash ≠ login.input.tokens.sessionToken
  past : ∀ j, ∀ e ∈ s.endedAt j, e.times.finishedAt ≤ s.now

theorem Login.knows_of_not_holds (h : login.phase.rowLock i = none) :
    login.Knows hashing config s i := by
  obtain ⟨input, startedAt, phase⟩ := login
  cases phase with
  | inserted own =>
    cases own
    · trivial
    · cases h
  | locked | deleted => cases h
  | started | selecting | ended | failed => trivial

theorem anyOther_eq_false {p : ℕ → LoginPhase → Bool} (h : s.anyOther i p = false)
    (hj : s.logins[j]? = some login) (hij : j ≠ i) : p j login.phase = false := by
  simp only [LoginSys.anyOther, List.any_eq_false, List.mem_range] at h
  have hj' := h j (List.getElem?_eq_some_iff.mp hj).1
  rw [hj] at hj'
  simpa [hij] using hj'

/-- The login at a position after the login `i` has gone on. -/
theorem LoginSys.getElem?_setPhase {b : Login} (hi : s.logins[i]? = some login)
    (hj : (s.setPhase i phase).logins[j]? = some b) :
    i = j ∧ b = { login with phase } ∨ i ≠ j ∧ s.logins[j]? = some b := by
  by_cases hij : i = j
  · obtain rfl := hij
    rw [LoginSys.setPhase, getElem?_modify_eq hi] at hj
    exact .inl ⟨rfl, (Option.some.inj hj).symm⟩
  · rw [LoginSys.setPhase, getElem?_modify_ne hij] at hj
    exact .inr ⟨hij, hj⟩

theorem endedAt_setPhase_ne (hij : i ≠ j) : (s.setPhase i phase).endedAt j = s.endedAt j := by
  rw [LoginSys.endedAt, LoginSys.setPhase, getElem?_modify_ne hij]
  rfl

theorem endedAt_setPhase_self (hi : s.logins[i]? = some login) :
    (s.setPhase i phase).endedAt i = ({ login with phase } : Login).ended := by
  rw [LoginSys.endedAt, LoginSys.setPhase, getElem?_modify_eq hi]
  rfl

/-- A login that goes on, without an end, ends no other one. -/
theorem endedAt_setPhase (hi : s.logins[i]? = some login) (hold : login.ended = none)
    (hnew : ({ login with phase } : Login).ended = none) :
    (s.setPhase i phase).endedAt = s.endedAt := by
  funext j
  by_cases hij : i = j
  · obtain rfl := hij
    rw [endedAt_setPhase_self hi, hnew, LoginSys.endedAt, hi]
    exact hold.symm
  · exact endedAt_setPhase_ne hij

/-- **A login goes on.** -/
theorem LoginInv.setPhase (hI : LoginInv hashing config s) (hi : s.logins[i]? = some login)
    (hold : login.ended = none) (hnew : ({ login with phase } : Login).ended = none)
    (hphase : phase ≠ .failed)
    (hholder : (phase.rowLock i).isSome → (login.phase.rowLock i).isSome ∨
      ∀ (j : ℕ) (b : Login), s.logins[j]? = some b → j ≠ i → b.phase.rowLock j = none)
    (hknows : ({ login with phase } : Login).Knows hashing config s i) :
    LoginInv hashing config (s.setPhase i phase) := by
  have hended := endedAt_setPhase hi hold hnew
  have hknows' {j : ℕ} {b : Login} (h : b.Knows hashing config s j) :
      b.Knows hashing config (s.setPhase i phase) j := by
    unfold Login.Knows EndedBefore at h ⊢
    rw [hended]
    exact h
  refine ⟨fun b hb => ?_, fun j k a b ha hb hja hkb => ?_, fun j b hb => ?_,
    fun j k a b ha hb heq => ?_, fun j b hb hnone => ?_, fun j e he => ?_⟩
  · obtain ⟨j, hj⟩ := List.mem_iff_getElem?.mp hb
    obtain ⟨_, rfl⟩ | ⟨_, hj⟩ := LoginSys.getElem?_setPhase hi hj
    · exact hphase
    · exact hI.notFailed b (List.mem_of_getElem? hj)
  · -- the login that has gone on had the row before, or nobody else has it
    have hother {l : ℕ} {c : Login} (hc : s.logins[l]? = some c) (hl : (c.phase.rowLock l).isSome)
        (h : (phase.rowLock i).isSome) : l = i := by
      by_contra hli
      obtain hheld | hfree := hholder h
      · exact hli (hI.holder l i c login hc hi hl hheld)
      · rw [hfree l c hc hli] at hl
        cases hl
    obtain ⟨rfl, rfl⟩ | ⟨_, ha⟩ := LoginSys.getElem?_setPhase hi ha
    · obtain ⟨rfl, rfl⟩ | ⟨_, hb⟩ := LoginSys.getElem?_setPhase hi hb
      · rfl
      · exact (hother hb hkb hja).symm
    · obtain ⟨rfl, rfl⟩ | ⟨_, hb⟩ := LoginSys.getElem?_setPhase hi hb
      · exact hother ha hja hkb
      · exact hI.holder j k a b ha hb hja hkb
  · obtain ⟨rfl, rfl⟩ | ⟨_, hb⟩ := LoginSys.getElem?_setPhase hi hb
    · exact hknows' hknows
    · exact hknows' (hI.knows j b hb)
  · obtain ⟨rfl, rfl⟩ | ⟨_, ha⟩ := LoginSys.getElem?_setPhase hi ha
    · obtain ⟨rfl, rfl⟩ | ⟨_, hb⟩ := LoginSys.getElem?_setPhase hi hb
      · rfl
      · exact hI.tokens _ _ _ _ hi hb heq
    · obtain ⟨rfl, rfl⟩ | ⟨_, hb⟩ := LoginSys.getElem?_setPhase hi hb
      · exact hI.tokens _ _ _ _ ha hi heq
      · exact hI.tokens _ _ _ _ ha hb heq
  · obtain ⟨rfl, rfl⟩ | ⟨_, hb⟩ := LoginSys.getElem?_setPhase hi hb
    · exact hI.fresh i login hi hold
    · exact hI.fresh j b hb hnone
  · rw [hended] at he
    exact hI.past j e he

/-- The logins that have ended stay in order when one goes on. -/
theorem SerialOrder.setPhase (h : SerialOrder hashing config db s order)
    (hi : s.logins[i]? = some login) (hold : login.ended = none)
    (hnew : ({ login with phase } : Login).ended = none) :
    SerialOrder hashing config db (s.setPhase i phase) order := by
  have hended := endedAt_setPhase hi hold hnew
  refine ⟨h.nodup, ?_, ?_, ?_⟩ <;> rw [hended]
  · exact h.mem_iff
  · exact h.pairwise
  · exact h.run

theorem runLogins_concat {e : EndedLogin} {l : List EndedLogin}
    (h : runLogins hashing config l db = .ok db')
    (he : authenticateOperatorOutcome hashing config e.input e.times db' = .ok (e.outcome, db₂)) :
    runLogins hashing config (l ++ [e]) db = .ok db₂ := by
  induction l generalizing db with
  | nil =>
    cases h
    simp [runLogins, he]
  | cons e' l ih =>
    simp only [List.cons_append, runLogins] at h ⊢
    split at h
    · split at h
      · rename_i houtcome
        rw [if_pos houtcome]
        exact ih h
      · cases h
    · cases h

section Finish

variable {tables : AuthTables} {rateLimit : Option (ℕ × LoginRateLimitState)}
  {outcome : AuthenticateOperatorOutcome} {lockedAt : ℕ}

/-- The state after the login `i` has ended. -/
def LoginSys.finish (s : LoginSys) (i : ℕ) (outcome : AuthenticateOperatorOutcome)
    (startedAt lockedAt : ℕ) (tables : AuthTables)
    (rateLimit : Option (ℕ × LoginRateLimitState)) : LoginSys :=
  { s.setPhase i (.ended outcome ⟨startedAt, lockedAt, s.now⟩) with tables, rateLimit }

theorem endedAt_finish_ne {startedAt : ℕ} (hij : i ≠ j) :
    (s.finish i outcome startedAt lockedAt tables rateLimit).endedAt j = s.endedAt j :=
  endedAt_setPhase_ne hij

theorem endedAt_finish_self (hi : s.logins[i]? = some login) :
    (s.finish i outcome login.startedAt lockedAt tables rateLimit).endedAt i =
      some ⟨login.input, ⟨login.startedAt, lockedAt, s.now⟩, outcome⟩ :=
  endedAt_setPhase_self hi

/-- **A login ends.** -/
theorem LoginInv.finish (hI : LoginInv hashing config s) (hi : s.logins[i]? = some login)
    (hholds : (login.phase.rowLock i).isSome)
    (hsessions : ∀ session ∈ tables.sessions, session ∈ s.tables.sessions ∨
      session.tokenHash = login.input.tokens.sessionToken) :
    LoginInv hashing config (s.finish i outcome login.startedAt lockedAt tables rateLimit) := by
  have hold : login.ended = none := by
    unfold Login.ended
    split
    · rename_i hphase
      rw [hphase] at hholds
      cases hholds
    · rfl
  -- nobody else has the row
  have hother {j : ℕ} {b : Login} (hb : s.logins[j]? = some b) (hij : i ≠ j) :
      b.phase.rowLock j = none := by
    cases hlock : b.phase.rowLock j with
    | none => rfl
    | some rowId =>
      exact absurd (hI.holder i j login b hi hb hholds (by rw [hlock]; rfl)) hij
  refine ⟨fun b hb => ?_, fun j k a b ha hb hja hkb => ?_, fun j b hb => ?_,
    fun j k a b ha hb heq => ?_, fun j b hb hnone session hsession => ?_, fun j e he => ?_⟩
  · obtain ⟨j, hj⟩ := List.mem_iff_getElem?.mp hb
    obtain ⟨_, rfl⟩ | ⟨_, hj⟩ := LoginSys.getElem?_setPhase hi hj
    · exact nofun
    · exact hI.notFailed b (List.mem_of_getElem? hj)
  · obtain ⟨rfl, rfl⟩ | ⟨hij, ha⟩ := LoginSys.getElem?_setPhase hi ha
    · cases hja
    · rw [hother ha hij] at hja
      cases hja
  · obtain ⟨rfl, rfl⟩ | ⟨hij, hb⟩ := LoginSys.getElem?_setPhase hi hb
    · trivial
    · exact Login.knows_of_not_holds (hother hb hij)
  · obtain ⟨rfl, rfl⟩ | ⟨_, ha⟩ := LoginSys.getElem?_setPhase hi ha
    · obtain ⟨rfl, rfl⟩ | ⟨_, hb⟩ := LoginSys.getElem?_setPhase hi hb
      · rfl
      · exact hI.tokens _ _ _ _ hi hb heq
    · obtain ⟨rfl, rfl⟩ | ⟨_, hb⟩ := LoginSys.getElem?_setPhase hi hb
      · exact hI.tokens _ _ _ _ ha hi heq
      · exact hI.tokens _ _ _ _ ha hb heq
  · obtain ⟨rfl, rfl⟩ | ⟨hij, hb⟩ := LoginSys.getElem?_setPhase hi hb
    · cases hnone
    · obtain hmem | htoken := hsessions session hsession
      · exact hI.fresh j b hb hnone session hmem
      · rw [htoken]
        exact fun heq => hij (hI.tokens i j login b hi hb heq)
  · by_cases hij : i = j
    · obtain rfl := hij
      rw [endedAt_finish_self hi] at he
      rw [← Option.some.inj he]
      exact Nat.le_refl _
    · rw [endedAt_finish_ne hij] at he
      exact hI.past j e he

theorem SerialOrder.finish (h : SerialOrder hashing config db s order)
    (hi : s.logins[i]? = some login) (hold : login.ended = none)
    (hbefore : EndedBefore s lockedAt)
    (hrun : authenticateOperatorOutcome hashing config login.input
      ⟨login.startedAt, lockedAt, s.now⟩ s.db =
        .ok (outcome, { tables with rateLimit := rateLimit.map (·.2) })) :
    SerialOrder hashing config db
      (s.finish i outcome login.startedAt lockedAt tables rateLimit) (order ++ [i]) := by
  have hnot : i ∉ order := by
    rw [h.mem_iff, LoginSys.endedAt, hi]
    simp [hold]
  have hfilter : (order ++ [i]).filterMap
      (s.finish i outcome login.startedAt lockedAt tables rateLimit).endedAt =
      order.filterMap s.endedAt ++ [⟨login.input, ⟨login.startedAt, lockedAt, s.now⟩, outcome⟩] := by
    have hself : [i].filterMap
        (s.finish i outcome login.startedAt lockedAt tables rateLimit).endedAt =
        [⟨login.input, ⟨login.startedAt, lockedAt, s.now⟩, outcome⟩] := by
      simp [endedAt_finish_self hi]
    rw [List.filterMap_append, hself]
    congr 1
    refine List.filterMap_congr fun j hj => endedAt_finish_ne ?_
    rintro rfl
    exact hnot hj
  refine ⟨?_, fun j => ?_, ?_, ?_⟩
  · refine List.nodup_append.mpr ⟨h.nodup, List.pairwise_singleton _ _, ?_⟩
    rintro j hj k hk rfl
    rw [List.mem_singleton.mp hk] at hj
    exact hnot hj
  · rw [List.mem_append, List.mem_singleton]
    by_cases hij : i = j
    · obtain rfl := hij
      rw [endedAt_finish_self hi]
      simp
    · rw [endedAt_finish_ne hij, ← h.mem_iff]
      exact or_iff_left (Ne.symm hij)
  · rw [hfilter]
    refine List.pairwise_append.mpr ⟨h.pairwise, List.pairwise_singleton _ _, ?_⟩
    intro e he e' he'
    rw [List.mem_singleton.mp he']
    obtain ⟨j, _, hj⟩ := List.mem_filterMap.mp he
    exact hbefore.2 j e hj
  · rw [hfilter]
    exact runLogins_concat h.run hrun

end Finish

/-! ### Steps -/

/-- A statement that needs the row to be another's does not lead two logins to it. -/
theorem LoginInv.insert (hI : LoginInv hashing config s)
    (hi : s.logins[i]? = some login) (hphase : login.phase = .started) :
    LoginInv hashing config (s.stepInsert i) := by
  have hold : login.ended = none := by simp [Login.ended, hphase]
  unfold LoginSys.stepInsert
  split
  · exact hI
  · rename_i hwriting
    rw [Bool.not_eq_true] at hwriting
    refine hI.setPhase hi hold rfl nofun (fun hnone => .inr fun j b hb hij => ?_) ?_
    · -- whoever has locked the row without writing it has locked a committed one
      cases hrow : s.rateLimit with
      | some row =>
        rw [hrow] at hnone
        cases hnone
      | none =>
        have hnot := anyOther_eq_false hwriting hb hij
        have hknows := hI.knows j b hb
        obtain ⟨input, startedAt, phase⟩ := b
        cases phase with
        | inserted own =>
          cases own
          · rfl
          · cases hnot
        | locked rowId state lockedAt =>
          obtain ⟨hsome | ⟨rfl, _⟩, _⟩ := hknows
          · rw [hrow] at hsome
            cases hsome
          · simp [LoginPhase.isWriting] at hnot
        | deleted => cases hnot
        | started | selecting | ended | failed => rfl
    · cases hrow : s.rateLimit with
      | some row => trivial
      | none => exact hrow

theorem LoginInv.select {own : Bool} (hI : LoginInv hashing config s)
    (hi : s.logins[i]? = some login) (hphase : login.phase = .inserted own)
    (hrow : own = false → s.rateLimit.isSome) :
    LoginInv hashing config (s.stepSelect i login.startedAt own) := by
  have hold : login.ended = none := by simp [Login.ended, hphase]
  unfold LoginSys.stepSelect
  cases own with
  | true =>
    rw [if_pos rfl]
    refine hI.setPhase hi hold rfl nofun (fun _ => .inl (by rw [hphase]; rfl)) ?_
    have hnone : login.Knows hashing config s i := hI.knows i login hi
    rw [Login.Knows, hphase] at hnone
    exact ⟨.inr ⟨rfl, hnone, rfl⟩, Nat.le_refl _, hI.past⟩
  | false =>
    rw [if_neg (by simp)]
    obtain ⟨⟨rowId, state⟩, h⟩ := Option.isSome_iff_exists.mp (hrow rfl)
    rw [h]
    exact hI.setPhase hi hold rfl nofun nofun trivial

theorem LoginInv.lock {rowId : ℕ} (hI : LoginInv hashing config s)
    (hi : s.logins[i]? = some login) (hphase : login.phase = .selecting rowId)
    (hrow : s.anyOther i (fun j phase => phase.rowLock j = some rowId) = false →
      s.rateLimit.map (·.1) = some rowId) :
    LoginInv hashing config (s.stepLock i rowId) := by
  have hold : login.ended = none := by simp [Login.ended, hphase]
  unfold LoginSys.stepLock
  split
  · exact hI
  · rename_i hlocked
    rw [Bool.not_eq_true] at hlocked
    obtain ⟨⟨id, state⟩, hrate, hid⟩ := Option.map_eq_some_iff.mp (hrow hlocked)
    obtain rfl : id = rowId := hid
    rw [hrate]
    dsimp only
    rw [if_pos rfl]
    refine hI.setPhase hi hold rfl nofun (fun _ => .inr fun j b hb hij => ?_)
      ⟨.inl hrate, Nat.le_refl _, hI.past⟩
    -- the row of another login is the committed one, which is not locked
    have hnot := anyOther_eq_false hlocked hb hij
    rw [decide_eq_false_iff_not] at hnot
    have hknows := hI.knows j b hb
    obtain ⟨input, startedAt, phase⟩ := b
    cases phase with
    | inserted own =>
      cases own
      · rfl
      · rw [Login.Knows, hrate] at hknows
        cases hknows
    | locked rowId' | deleted rowId' =>
      obtain ⟨hsome | ⟨_, hnone, _⟩, _⟩ := hknows
      · rw [hrate] at hsome
        cases hsome
        exact absurd rfl hnot
      · rw [hrate] at hnone
        cases hnone
    | started | selecting | ended | failed => rfl

/-- The state that a login has locked is the one it would find alone. -/
theorem RowOk.getD {startedAt rowId : ℕ} {state : LoginRateLimitState}
    (h : RowOk s i startedAt rowId state) :
    s.db.rateLimit.getD (newRateLimit startedAt) = state := by
  obtain h | ⟨_, h, rfl⟩ := h <;> simp [LoginSys.db, h]

theorem step_decide {rowId lockedAt : ℕ} {state : LoginRateLimitState}
    (hI : LoginInv hashing config s) (horder : SerialOrder hashing config db s order)
    (hi : s.logins[i]? = some login) (hphase : login.phase = .locked rowId state lockedAt) :
    LoginInv hashing config (s.stepDecide hashing config i login rowId state lockedAt) ∧
      ∃ order, SerialOrder hashing config db
        (s.stepDecide hashing config i login rowId state lockedAt) order := by
  have hold : login.ended = none := by simp [Login.ended, hphase]
  have hholds : (login.phase.rowLock i).isSome := by simp [LoginPhase.rowLock, hphase]
  have hknows := hI.knows i login hi
  rw [Login.Knows, hphase] at hknows
  obtain ⟨hrow, hbefore⟩ := hknows
  unfold LoginSys.stepDecide
  split
  · rename_i state' outcome hdecision
    refine ⟨hI.finish hi hholds fun session h => .inl h, order ++ [i],
      horder.finish hi hold hbefore ?_⟩
    rw [authenticateOperatorOutcome, hrow.getD]
    simp only [LoginSys.db, hdecision]
    rfl
  · rename_i operatorId operator hdecision
    exact ⟨hI.setPhase hi hold rfl nofun (fun _ => .inl hholds) ⟨hrow, hbefore, hdecision⟩, order,
      horder.setPhase hi hold rfl⟩

/-- A login with a new token completes. -/
theorem completeLogin_eq_ok {input : AuthenticateOperatorInput} {operatorId now : ℕ}
    {operator : OperatorRow} {tables : AuthTables}
    (hfresh : ∀ session ∈ tables.sessions, session.tokenHash ≠ input.tokens.sessionToken) :
    ∃ session tables', completeLogin hashing input operatorId operator now tables =
      .ok (session, tables') ∧
      tables'.sessions = tables.sessions ++ [input.tokens.sessionRow operatorId now
        ⟨true, input.password, operator.passwordVersion⟩] := by
  unfold completeLogin insertSession ensure
  rw [if_pos hfresh]
  exact ⟨_, _, rfl, rfl⟩

theorem step_commit {rowId lockedAt operatorId : ℕ} {state : LoginRateLimitState}
    {operator : OperatorRow} (hI : LoginInv hashing config s)
    (horder : SerialOrder hashing config db s order) (hi : s.logins[i]? = some login)
    (hphase : login.phase = .deleted rowId state lockedAt operatorId operator) :
    LoginInv hashing config (s.stepCommit hashing i login lockedAt operatorId operator) ∧
      ∃ order, SerialOrder hashing config db
        (s.stepCommit hashing i login lockedAt operatorId operator) order := by
  have hold : login.ended = none := by simp [Login.ended, hphase]
  have hholds : (login.phase.rowLock i).isSome := by simp [LoginPhase.rowLock, hphase]
  have hknows := hI.knows i login hi
  rw [Login.Knows, hphase] at hknows
  obtain ⟨hrow, hbefore, hdecision⟩ := hknows
  obtain ⟨session, tables, hcomplete, hsessions⟩ := @completeLogin_eq_ok hashing _ operatorId
    s.now operator _ (hI.fresh i login hi hold)
  unfold LoginSys.stepCommit
  rw [hcomplete]
  refine ⟨hI.finish hi hholds fun session h => ?_, order ++ [i],
    horder.finish hi hold hbefore ?_⟩
  · rw [hsessions, List.mem_append, List.mem_singleton] at h
    refine h.imp_right ?_
    rintro rfl
    rfl
  · rw [authenticateOperatorOutcome, hrow.getD]
    simp only [LoginSys.db, hdecision, hcomplete]
    rfl

/-- A login begins. -/
theorem LoginInv.start {input : AuthenticateOperatorInput} (hI : LoginInv hashing config s)
    (hnew : s.isNewToken input.tokens.sessionToken) :
    LoginInv hashing config { s with logins := s.logins ++ [⟨input, s.now, .started⟩] } ∧
      ({ s with logins := s.logins ++ [⟨input, s.now, .started⟩] } : LoginSys).endedAt =
        s.endedAt := by
  obtain ⟨hsessions, hlogins⟩ := Bool.and_eq_true_iff.mp hnew
  simp only [List.all_eq_true, decide_eq_true_eq] at hsessions hlogins
  have hended : ({ s with logins := s.logins ++ [⟨input, s.now, .started⟩] } : LoginSys).endedAt =
      s.endedAt := by
    funext j
    simp only [LoginSys.endedAt]
    cases hj : (s.logins ++ [⟨input, s.now, .started⟩])[j]? with
    | none =>
      rw [List.getElem?_eq_none_iff, List.length_append] at hj
      rw [List.getElem?_eq_none_iff.mpr (Nat.le_trans (Nat.le_add_right _ _) hj)]
    | some b =>
      obtain hj | ⟨rfl, rfl⟩ := getElem?_concat_cases hj
      · rw [hj]
      · rw [List.getElem?_eq_none_iff.mpr (Nat.le_refl _)]
        rfl
  refine ⟨⟨fun b hb => ?_, fun j k a b ha hb hja hkb => ?_, fun j b hb => ?_,
    fun j k a b ha hb heq => ?_, fun j b hb hnone => ?_, fun j e he => ?_⟩, hended⟩
  · obtain hb | hb := List.mem_append.mp hb
    · exact hI.notFailed b hb
    · rw [List.mem_singleton.mp hb]
      exact nofun
  · obtain ha | ⟨rfl, rfl⟩ := getElem?_concat_cases ha
    · obtain hb | ⟨rfl, rfl⟩ := getElem?_concat_cases hb
      · exact hI.holder j k a b ha hb hja hkb
      · cases hkb
    · cases hja
  · obtain hb | ⟨rfl, rfl⟩ := getElem?_concat_cases hb
    · have h := hI.knows j b hb
      unfold Login.Knows EndedBefore at h ⊢
      rw [hended]
      exact h
    · trivial
  · obtain ha | ⟨rfl, rfl⟩ := getElem?_concat_cases ha
    · obtain hb | ⟨rfl, rfl⟩ := getElem?_concat_cases hb
      · exact hI.tokens j k a b ha hb heq
      · exact absurd heq (hlogins a (List.mem_of_getElem? ha))
    · obtain hb | ⟨rfl, rfl⟩ := getElem?_concat_cases hb
      · exact absurd heq.symm (hlogins b (List.mem_of_getElem? hb))
      · rfl
  · obtain hb | ⟨rfl, rfl⟩ := getElem?_concat_cases hb
    · exact hI.fresh j b hb hnone
    · exact hsessions
  · rw [hended] at he
    exact hI.past j e he

/-- **Steps.**  A step that keeps the row keeps the invariant and the order. -/
theorem step_loginInv (a : LoginAct) (hkeeps : KeepsRow s a)
    (h : LoginInv hashing config s ∧ ∃ order, SerialOrder hashing config db s order) :
    LoginInv hashing config (s.step hashing config username a) ∧
      ∃ order, SerialOrder hashing config db (s.step hashing config username a) order := by
  obtain ⟨hI, order, horder⟩ := h
  cases a with
  | tick ms =>
    refine ⟨⟨hI.notFailed, hI.holder, fun i login hi => ?_, hI.tokens, hI.fresh, fun j e he => ?_⟩,
      order, horder.nodup, horder.mem_iff, horder.pairwise, horder.run⟩
    · have h := hI.knows i login hi
      obtain ⟨input, startedAt, phase⟩ := login
      cases phase with
      | inserted own =>
        cases own
        · trivial
        · exact h
      | locked rowId state lockedAt =>
        exact ⟨h.1, Nat.le_trans h.2.1 (Nat.le_add_right _ _), h.2.2⟩
      | deleted rowId state lockedAt operatorId operator =>
        exact ⟨h.1, ⟨Nat.le_trans h.2.1.1 (Nat.le_add_right _ _), h.2.1.2⟩, h.2.2⟩
      | started | selecting | ended | failed => trivial
    · exact Nat.le_trans (hI.past j e he) (Nat.le_add_right _ _)
  | start input =>
    simp only [LoginSys.step]
    split
    · obtain ⟨hI', hended⟩ := hI.start (Bool.and_eq_true_iff.mp ‹_›).2
      refine ⟨hI', order, horder.nodup, ?_, ?_, ?_⟩ <;> rw [hended]
      · exact horder.mem_iff
      · exact horder.pairwise
      · exact horder.run
    · exact ⟨hI, order, horder⟩
  | insert i =>
    simp only [LoginSys.step]
    split
    · rename_i input startedAt hi
      refine ⟨hI.insert hi rfl, order, ?_⟩
      unfold LoginSys.stepInsert
      split
      · exact horder
      · exact horder.setPhase hi rfl rfl
    · exact ⟨hI, order, horder⟩
  | select i =>
    simp only [LoginSys.step]
    split
    · rename_i input startedAt own hi
      have hrow (h : own = false) : s.rateLimit.isSome := hkeeps _ hi (by rw [h])
      refine ⟨hI.select hi rfl hrow, order, ?_⟩
      unfold LoginSys.stepSelect
      split
      · exact horder.setPhase hi rfl rfl
      · split <;> exact horder.setPhase hi rfl rfl
    · exact ⟨hI, order, horder⟩
  | lock i =>
    simp only [LoginSys.step]
    split
    · rename_i input startedAt rowId hi
      refine ⟨hI.lock hi rfl (hkeeps _ hi rowId rfl), order, ?_⟩
      unfold LoginSys.stepLock
      split
      · exact horder
      · split
        · split <;> exact horder.setPhase hi rfl rfl
        · exact horder.setPhase hi rfl rfl
    · exact ⟨hI, order, horder⟩
  | decide i =>
    simp only [LoginSys.step]
    split
    · exact step_decide hI horder ‹_› rfl
    · exact ⟨hI, order, horder⟩
  | commit i =>
    simp only [LoginSys.step]
    split
    · exact step_commit hI horder ‹_› rfl
    · exact ⟨hI, order, horder⟩

theorem LoginInv.initial (now : ℕ) (db : LoginTables) :
    LoginInv hashing config (.initial now db) ∧
      ∃ order, SerialOrder hashing config db (.initial now db) order := by
  refine ⟨⟨?_, ?_, ?_, ?_, ?_, ?_⟩, [], .nil, fun i => ?_, .nil, ?_⟩
  · exact fun login h => absurd h List.not_mem_nil
  · exact fun i j a b ha => by simp [LoginSys.initial] at ha
  · exact fun i login hi => by simp [LoginSys.initial] at hi
  · exact fun i j a b ha => by simp [LoginSys.initial] at ha
  · exact fun i login hi => by simp [LoginSys.initial] at hi
  · exact fun j e he => by simp [LoginSys.endedAt, LoginSys.initial] at he
  · simp [LoginSys.endedAt, LoginSys.initial]
  · obtain ⟨tables, rateLimit⟩ := db
    cases rateLimit <;> rfl

/-- A step that does not keep the row is one of a login that fails. -/
theorem failed_of_not_keepsRow {a : LoginAct} (h : ¬ KeepsRow s a) :
    ∃ login ∈ (s.step hashing config username a).logins, login.phase = .failed := by
  have hfail {i : ℕ} {login : Login} (hi : s.logins[i]? = some login) :
      ∃ login ∈ (s.setPhase i .failed).logins, login.phase = .failed :=
    ⟨{ login with phase := .failed }, List.mem_of_getElem? (getElem?_modify_eq hi), rfl⟩
  cases a with
  | select i =>
    simp only [KeepsRow, Option.mem_def, not_forall] at h
    obtain ⟨login, hi, hphase, hrow⟩ := h
    obtain ⟨input, startedAt, phase⟩ := login
    obtain rfl : phase = .inserted false := hphase
    rw [Option.not_isSome_iff_eq_none] at hrow
    simp only [LoginSys.step, hi, LoginSys.stepSelect, hrow]
    exact hfail hi
  | lock i =>
    simp only [KeepsRow, Option.mem_def, not_forall] at h
    obtain ⟨login, hi, rowId, hphase, hfree, hrow⟩ := h
    obtain ⟨input, startedAt, phase⟩ := login
    obtain rfl : phase = .selecting rowId := hphase
    simp only [LoginSys.step, hi, LoginSys.stepLock, hfree]
    cases hrate : s.rateLimit with
    | none => exact hfail hi
    | some row =>
      rw [hrate] at hrow
      have hne : row.1 ≠ rowId := fun heq => hrow (congrArg some heq)
      simp only [Bool.false_eq_true, if_false, if_neg hne]
      exact hfail hi
  | tick | start | insert | decide | commit => exact absurd trivial h

/-- **Logins are correct exactly as long as they keep the row they have found.** -/
theorem logins_correct_iff (hashing : PasswordHashing) (config : LoginRateLimitConfig)
    (username now : ℕ) (db : LoginTables) (trace : List LoginAct) :
    (∀ n, LoginsCorrect hashing config db
      ((trace.take n).foldl (LoginSys.step hashing config username) (.initial now db))) ↔
    TraceOk (LoginSys.step hashing config username) KeepsRow (.initial now db) trace := by
  constructor
  · generalize LoginSys.initial now db = s
    intro h
    induction trace generalizing s with
    | nil => trivial
    | cons a trace ih =>
      refine ⟨?_, ih _ fun n => h (n + 1)⟩
      by_contra hnot
      obtain ⟨login, hmem, hphase⟩ := @failed_of_not_keepsRow hashing config username
        _ _ hnot
      exact (h 1).1 login hmem hphase
  · intro h n
    obtain ⟨hI, order, horder⟩ := Reach.invariant (Reach.ofTrace (h.take n))
      (@LoginInv.initial hashing config now db)
      fun s a hs hkeeps => step_loginInv a hkeeps hs
    exact ⟨hI.notFailed, order, horder.nodup, horder.mem_iff, horder.pairwise, horder.run⟩

/-- A login of the operator 0, with a token of its own. -/
def exampleLogin (sessionToken : ℕ) (password : String) : AuthenticateOperatorInput :=
  ⟨0, password, 0, ⟨sessionToken, 0, 3600⟩⟩

/-- One operator, whose password is `right`, and nothing else. -/
def oneOperator : LoginTables := ⟨⟨[⟨0, "right", 1, true, none, 0⟩], []⟩, none⟩

/-- After a wrong attempt, a login with the right password and one with a wrong one overlap: the
    latter waits for the row that the former deletes. -/
def overlappingLogins : List LoginAct :=
  [.start (exampleLogin 1 "wrong"), .insert 0, .select 0, .decide 0,
    .start (exampleLogin 2 "right"), .insert 1, .select 1, .lock 1,
    .start (exampleLogin 3 "wrong"), .insert 2, .select 2, .decide 1, .commit 1, .lock 2]

/-- The waiting login fails, and its wrong attempt is not counted. -/
theorem overlapping_logins_incorrect :
    let s := overlappingLogins.foldl (LoginSys.step plainHashing .default 0) (.initial 0 oneOperator)
    s.logins[2]?.map (·.phase) = some .failed ∧ s.rateLimit = none ∧
      ¬ LoginsCorrect plainHashing .default oneOperator s := by
  intro s
  have hfailed : s.logins[2]?.map (·.phase) = some .failed := by decide +kernel
  refine ⟨hfailed, by decide +kernel, fun h => ?_⟩
  obtain ⟨login, hlogin, hphase⟩ := Option.map_eq_some_iff.mp hfailed
  exact h.1 login (List.mem_of_getElem? hlogin) hphase

end ResearchWorkbench
