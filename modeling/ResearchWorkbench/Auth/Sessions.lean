import ResearchWorkbench.Library.Transition
import ResearchWorkbench.Services.Auth

namespace ResearchWorkbench

/-!
# Sessions under password changes

Logins, password changes, logouts and revocations of any number of operators, statement by
statement, with the row locks that they hold.

* `AuthProcess`, `AuthSys`, `AuthAct`, `AuthSys.step` — the machine;
* `CurrentSessions` — who authenticates a request, `NoOldSession` — who never does again after a
  password change, `AuthorisedChange` — on whose behalf rows change;
* `SessionInv` — the invariant: exclusive locks, and every session that is not revoked has the
  current version of the password;
* `sessions_revoked` — the three properties of every run.

The rate limit may refuse a login at any time, so it is left to `abort`.  A request may also be
answered from the receipt of an earlier one with its key, for which `requireAuthMutationContext`
accepts a session that is revoked.
-/

/-! ### The machine -/

/-- What the request of a password change is called with. -/
structure PasswordRequest where
  tokens : RequestTokens
  input : ChangeOperatorPasswordInput
  idempotencyKey : ℕ
  requestHash : ℕ
  deriving DecidableEq, Repr

/-- A completed row of `mutation_receipts` for `PATCH /api/auth/password`. -/
structure PasswordReceipt where
  operatorId : ℕ
  idempotencyKey : ℕ
  requestHash : ℕ
  responseStatus : ℕ
  deriving DecidableEq, Repr

/-- Where a password change is. -/
inductive PasswordPhase
  /-- Before `requireAuthMutationContext`. -/
  | started
  | inContext (operatorId : ℕ)
  /-- The receipt is inserted. -/
  | claimed (operatorId : ℕ)
  /-- `requireMutationSession` has locked the session. -/
  | authenticated (operatorId sessionId : ℕ) (session : SessionRow)
  /-- The operator is locked, and both passwords were right. -/
  | verified (operatorId sessionId : ℕ) (session : SessionRow) (operator : OperatorRow)
  deriving DecidableEq, Repr

/-- Where a revocation is. -/
inductive RevocationPhase
  | started
  | authenticated (sessionId : ℕ) (session : SessionRow)
  /-- The target is locked too. -/
  | found (sessionId : ℕ) (session : SessionRow)
  deriving DecidableEq, Repr

/-- A request; `verified` is the operator that a login has locked, `session` the session that a
    logout has locked. -/
inductive AuthProcess
  | login (input : AuthenticateOperatorInput) (verified : Option (ℕ × OperatorRow))
  | changePassword (request : PasswordRequest) (phase : PasswordPhase)
  | logout (tokens : RequestTokens) (session : Option (ℕ × SessionRow))
  | revoke (tokens : RequestTokens) (targetSessionId : ℕ) (phase : RevocationPhase)
  /-- Answered, or an error; whether a stored answer was replayed. -/
  | ended (responseStatus : ℕ) (replayed : Bool)
  deriving DecidableEq, Repr

/-- A row that a transaction has locked. -/
inductive AuthLock
  | operator (id : ℕ)
  | session (id : ℕ)
  | receipt (operatorId idempotencyKey : ℕ)
  deriving DecidableEq, Repr

/-- The locks of a process. -/
def AuthProcess.locks : AuthProcess → List AuthLock
  | .login _ (some (operatorId, _)) => [.operator operatorId]
  | .changePassword request (.claimed operatorId) =>
    [.receipt operatorId request.idempotencyKey]
  | .changePassword request (.authenticated operatorId sessionId _) =>
    [.receipt operatorId request.idempotencyKey, .session sessionId]
  | .changePassword request (.verified operatorId sessionId session _) =>
    [.receipt operatorId request.idempotencyKey, .session sessionId, .operator session.operatorId]
  | .logout _ (some (sessionId, _)) => [.session sessionId]
  | .revoke _ _ (.authenticated sessionId _) => [.session sessionId]
  | .revoke _ targetSessionId (.found sessionId _) => [.session sessionId, .session targetSessionId]
  | _ => []

/-- The clock, the committed rows, and the requests. -/
structure AuthSys where
  now : ℕ
  db : AuthTables
  receipts : List PasswordReceipt
  processes : List AuthProcess
  deriving DecidableEq, Repr

/-- What may happen next. -/
inductive AuthAct
  | tick (ms : ℕ)
  | createOperator (normalizedUsername : ℕ) (password : String) (salt : ℕ)
  | start (p : AuthProcess)
  /-- The next statement of a request. -/
  | advance (i : ℕ)
  /-- The request fails, or is refused, and is rolled back. -/
  | abort (i : ℕ)
  deriving DecidableEq, Repr

/-- A request that has just begun. -/
def AuthProcess.isFirst : AuthProcess → Bool
  | .login _ none | .changePassword _ .started | .logout _ none | .revoke _ _ .started => true
  | _ => false

/-- The status of an answer to an error. -/
def ServiceError.status : ServiceError → ℕ
  | .app status _ _ => status
  | _ => 500

namespace AuthSys

/-- No process but `i` has the lock. -/
def isFree (s : AuthSys) (i : ℕ) (lock : AuthLock) : Bool :=
  (List.range s.processes.length).all fun j =>
    j = i || s.processes[j]?.all fun p => lock ∉ p.locks

/-- The process `i` goes on. -/
def set (s : AuthSys) (i : ℕ) (p : AuthProcess) : AuthSys :=
  { s with processes := s.processes.set i p }

section

variable (hashing : PasswordHashing)

/-- `authenticateOperatorOutcome` after the rate limit: `SELECT … FOR UPDATE` of the operator. -/
def stepLogin (s : AuthSys) (i : ℕ) (input : AuthenticateOperatorInput) : AuthSys :=
  match s.db.findOperator input.normalizedUsername with
  | none => s.set i (.ended 401 false)
  | some (operatorId, operator) =>
    if s.isFree i (.operator operatorId) then
      match verifiedOperator hashing (some (operatorId, operator)) input.password with
      | some verified => s.set i (.login input (some verified))
      | none => s.set i (.ended 401 false)
    else s

/-- The last statements of a login, and its `COMMIT`. -/
def commitLogin (s : AuthSys) (i : ℕ) (input : AuthenticateOperatorInput) (operatorId : ℕ)
    (operator : OperatorRow) : AuthSys :=
  match completeLogin hashing input operatorId operator s.now s.db with
  | .ok (_, db) => { s.set i (.ended 200 false) with db }
  | .error e => s.set i (.ended e.status false)

/-- `requireMutationSession` waits for the session, and locks it. -/
def lockSession (s : AuthSys) (i : ℕ) (tokens : RequestTokens)
    (next : ℕ × SessionRow → AuthProcess) : AuthSys :=
  match requireMutationSession s.db s.now tokens with
  | .ok session =>
    if s.isFree i (.session session.1) then s.set i (next session) else s
  | .error e => s.set i (.ended e.status false)

/-- A password change commits its receipt. -/
def answer (s : AuthSys) (i operatorId : ℕ) (request : PasswordRequest) (responseStatus : ℕ)
    (db : AuthTables) : AuthSys :=
  { s.set i (.ended responseStatus false) with
    db, receipts := s.receipts ++
      [⟨operatorId, request.idempotencyKey, request.requestHash, responseStatus⟩] }

/-- The `INSERT` of `executeIdempotentResponse` waits for a request with the same key, and finds
    its receipt. -/
def claimReceipt (s : AuthSys) (i : ℕ) (request : PasswordRequest) (operatorId : ℕ) : AuthSys :=
  if s.isFree i (.receipt operatorId request.idempotencyKey) then
    match s.receipts.find? fun r =>
        r.operatorId = operatorId && r.idempotencyKey = request.idempotencyKey with
    | some receipt =>
      if receipt.requestHash = request.requestHash then
        s.set i (.ended receipt.responseStatus true)
      else s.set i (.ended 409 false)
    | none => s.set i (.changePassword request (.claimed operatorId))
  else s

/-- The `SELECT … FOR UPDATE` of the operator, and the passwords. -/
def stepPassword (s : AuthSys) (i : ℕ) (request : PasswordRequest) (operatorId sessionId : ℕ)
    (session : SessionRow) : AuthSys :=
  if s.isFree i (.operator session.operatorId) then
    match decidePasswordChange hashing s.db.operators[session.operatorId]? request.input with
    | .invalidCurrent => s.answer i operatorId request 401 s.db
    | .reused => s.answer i operatorId request 409 s.db
    | .changed operator =>
      s.set i (.changePassword request (.verified operatorId sessionId session operator))
  else s

/-- The `UPDATE`s and the `INSERT` of a password change, which wait for the sessions that they
    revoke, and its `COMMIT`. -/
def commitPassword (s : AuthSys) (i : ℕ) (request : PasswordRequest) (operatorId : ℕ)
    (session : SessionRow) (operator : OperatorRow) : AuthSys :=
  if (idsWhere (fun _ row => row.isActiveOf session.operatorId) s.db.sessions).all
      fun id => s.isFree i (.session id) then
    match completePasswordChange hashing request.input session.operatorId operator s.now s.db with
    | .ok (_, db) => s.answer i operatorId request 200 db
    | .error e => s.set i (.ended e.status false)
  else s

/-- The next statement of a password change. -/
def stepChange (s : AuthSys) (i : ℕ) (request : PasswordRequest) : PasswordPhase → AuthSys
  | .started =>
    match requireAuthMutationContext s.db s.now request.tokens with
    | .ok (_, session) => s.set i (.changePassword request (.inContext session.operatorId))
    | .error e => s.set i (.ended e.status false)
  | .inContext operatorId => s.claimReceipt i request operatorId
  | .claimed operatorId =>
    s.lockSession i request.tokens fun (sessionId, session) =>
      .changePassword request (.authenticated operatorId sessionId session)
  | .authenticated operatorId sessionId session =>
    s.stepPassword hashing i request operatorId sessionId session
  | .verified operatorId _ session operator =>
    s.commitPassword hashing i request operatorId session operator

/-- The next statement of a revocation. -/
def stepRevoke (s : AuthSys) (i : ℕ) (tokens : RequestTokens) (targetSessionId : ℕ) :
    RevocationPhase → AuthSys
  | .started =>
    s.lockSession i tokens fun (sessionId, session) =>
      .revoke tokens targetSessionId (.authenticated sessionId session)
  | .authenticated sessionId session =>
    if s.isFree i (.session targetSessionId) then
      if s.db.isRevocable targetSessionId session.operatorId s.now then
        s.set i (.revoke tokens targetSessionId (.found sessionId session))
      else s.set i (.ended 404 false)
    else s
  | .found _ _ =>
    { s.set i (.ended 200 false) with db := completeRevocation targetSessionId s.now s.db }

/-- The next statement of a request. -/
def advance (s : AuthSys) (i : ℕ) : AuthProcess → AuthSys
  | .login input none => s.stepLogin hashing i input
  | .login input (some (operatorId, operator)) => s.commitLogin hashing i input operatorId operator
  | .changePassword request phase => s.stepChange hashing i request phase
  | .logout tokens none => s.lockSession i tokens fun session => .logout tokens (some session)
  | .logout _ (some (sessionId, _)) =>
    { s.set i (.ended 200 false) with db := completeLogout sessionId s.now s.db }
  | .revoke tokens targetSessionId phase => s.stepRevoke i tokens targetSessionId phase
  | .ended .. => s

/-- One step. -/
def step (s : AuthSys) : AuthAct → AuthSys
  | .tick ms => { s with now := s.now + ms }
  | .createOperator normalizedUsername password salt =>
    match createOperator hashing normalizedUsername password salt s.now s.db with
    | .ok db => { s with db }
    | .error _ => s
  | .start p => if p.isFirst then { s with processes := s.processes ++ [p] } else s
  | .advance i =>
    match s.processes[i]? with
    | some p => s.advance hashing i p
    | none => s
  | .abort i => s.set i (.ended 500 false)

end

/-- The first state: no operator yet. -/
def initial : AuthSys := ⟨0, ⟨[], []⟩, [], []⟩

end AuthSys

/-! ### The property -/

/-- A session that authenticates requests of an operator was created under the current version of
    its password: by a login that has verified the password, or by the change that set it. -/
def CurrentSessions (hashing : PasswordHashing) (s : AuthSys) : Prop :=
  ∀ (sessionToken id : ℕ) (session : SessionRow),
    s.db.loadSession s.now sessionToken = some (id, session) →
      ∃ operator, s.db.operators[session.operatorId]? = some operator ∧ operator.isActive ∧
        session.provenance.passwordVersion = operator.passwordVersion ∧
        hashing.verify operator.passwordHash session.provenance.password

/-- After a password of the operator was changed between `s` and `t`, no session of `s`, and no
    login that has verified a password of that time, authenticates a request. -/
def NoOldSession (s t : AuthSys) : Prop :=
  ∀ (operatorId : ℕ) (operator operator' : OperatorRow),
    s.db.operators[operatorId]? = some operator → t.db.operators[operatorId]? = some operator' →
    operator.passwordVersion < operator'.passwordVersion →
    ∀ (sessionToken id : ℕ) (session : SessionRow),
      t.db.loadSession t.now sessionToken = some (id, session) → session.operatorId = operatorId →
        s.db.sessions[id]? = none ∧ operator.passwordVersion < session.provenance.passwordVersion

/-- A step changes rows for the creation of an operator, for a login, or for a request whose session
    is not revoked. -/
def AuthorisedChange (s t : AuthSys) (a : AuthAct) : Prop :=
  t.db = s.db ∨ (∃ normalizedUsername password salt,
      a = .createOperator normalizedUsername password salt) ∨
    ∃ (i : ℕ) (p : AuthProcess), a = .advance i ∧ s.processes[i]? = some p ∧
      ((∃ input verified, p = .login input verified) ∨
        ∃ (id : ℕ) (session : SessionRow), .session id ∈ p.locks ∧
          s.db.sessions[id]? = some session ∧ session.revokedAt = none)

/-! ### What a transaction does to the tables -/

variable {hashing : PasswordHashing} {free : AuthLock → Bool} {db db' : AuthTables} {s t : AuthSys}
  {i : ℕ} {p p' : AuthProcess} {now operatorId : ℕ} {operator : OperatorRow}

/-- Passwords are stored as their hashes, and a session that is not revoked has the current version
    of the password. -/
structure AuthTablesOk (hashing : PasswordHashing) (db : AuthTables) : Prop where
  hashes : ∀ operator ∈ db.operators, ∃ salt password,
    operator.passwordHash = hashing.hash salt password
  versions : ∀ session ∈ db.sessions, ∃ operator, db.operators[session.operatorId]? = some operator ∧
    session.provenance.passwordVersion ≤ operator.passwordVersion ∧
    (session.revokedAt = none → session.provenance.passwordVersion = operator.passwordVersion ∧
      hashing.verify operator.passwordHash session.provenance.password)

/-- A row of `operators` before and after a step. -/
def OperatorKept (free : AuthLock → Bool) (id : ℕ) (a b : OperatorRow) : Prop :=
  a.passwordVersion ≤ b.passwordVersion ∧ (free (.operator id) = false → b = a)

/-- A row of `operator_sessions` before and after a step. -/
def SessionKept (free : AuthLock → Bool) (id : ℕ) (a b : SessionRow) : Prop :=
  b.operatorId = a.operatorId ∧ b.provenance = a.provenance ∧ (free (.session id) = false → b = a)

/-- What a step does: rows stay, and the locked ones unchanged. -/
structure AuthDbStep (free : AuthLock → Bool) (db db' : AuthTables) : Prop where
  operators : TableStep (OperatorKept free) (fun _ _ => True) db.operators db'.operators
  sessions : TableStep (SessionKept free) (fun _ _ => True) db.sessions db'.sessions

theorem OperatorKept.refl (id : ℕ) (a : OperatorRow) : OperatorKept free id a a :=
  ⟨Nat.le_refl _, fun _ => rfl⟩

theorem SessionKept.refl (id : ℕ) (a : SessionRow) : SessionKept free id a a :=
  ⟨rfl, rfl, fun _ => rfl⟩

theorem AuthDbStep.refl : AuthDbStep free db db :=
  ⟨.refl OperatorKept.refl _, .refl SessionKept.refl _⟩

/-- The row of an operator that is locked may change. -/
theorem OperatorKept.ofFree {a b : OperatorRow} (hfree : free (.operator operatorId))
    (hversion : a.passwordVersion ≤ b.passwordVersion) : OperatorKept free operatorId a b := by
  refine ⟨hversion, fun h => ?_⟩
  rw [hfree] at h
  cases h

theorem SessionKept.revoke {id : ℕ} {session : SessionRow} {reason : RevokeReason}
    (hfree : free (.session id)) : SessionKept free id session (session.revoke reason now) := by
  refine ⟨rfl, rfl, fun h => ?_⟩
  rw [hfree] at h
  cases h

/-- Sessions are revoked. -/
theorem revoke_step {q : ℕ → SessionRow → Bool} {reason : RevokeReason}
    (hfree : ∀ id session, db.sessions[id]? = some session → q id session → free (.session id)) :
    TableStep (SessionKept free) (fun _ _ => True) db.sessions
      (updateWhere q (·.revoke reason now) db.sessions) :=
  .updateWhere SessionKept.refl fun id session h hq => .revoke (hfree id session h hq)

theorem AuthTablesOk.revoke (h : AuthTablesOk hashing db) {q : ℕ → SessionRow → Bool}
    {reason : RevokeReason} :
    AuthTablesOk hashing
      { db with sessions := updateWhere q (·.revoke reason now) db.sessions } where
  hashes := h.hashes
  versions session hsession := by
    obtain ⟨id, row, hrow, rfl⟩ := mem_updateWhere hsession
    obtain ⟨operator, hoperator, hle, hcurrent⟩ := h.versions row (List.mem_of_getElem? hrow)
    split
    · exact ⟨operator, hoperator, hle, nofun⟩
    · exact ⟨operator, hoperator, hle, hcurrent⟩

theorem createOperator_step {normalizedUsername salt : ℕ} {password : String}
    (h : createOperator hashing normalizedUsername password salt now db = .ok db') :
    AuthDbStep free db db' ∧ (AuthTablesOk hashing db → AuthTablesOk hashing db') := by
  simp only [createOperator, bind_eq_ok, ensure_eq_ok, pure_eq_ok] at h
  obtain ⟨_, _, rfl⟩ := h
  refine ⟨⟨.append_singleton (.refl OperatorKept.refl _) trivial, .refl SessionKept.refl _⟩,
    fun hok => ⟨fun row hrow => ?_, fun session hsession => ?_⟩⟩
  · obtain hrow | hrow := List.mem_append.mp hrow
    · exact hok.hashes row hrow
    · rw [List.mem_singleton.mp hrow]
      exact ⟨salt, password, rfl⟩
  · obtain ⟨row, hrow, hversion⟩ := hok.versions session hsession
    exact ⟨row, getElem?_append_of_some hrow, hversion⟩

theorem insertSession_eq_ok {tokens : SessionTokens} {provenance : SessionProvenance}
    {session : NewOperatorSession}
    (h : insertSession operatorId operator tokens now provenance db = .ok (session, db')) :
    db' = { db with sessions := db.sessions ++ [tokens.sessionRow operatorId now provenance] } := by
  simp only [insertSession, bind_eq_ok, ensure_eq_ok, pure_eq_ok] at h
  obtain ⟨_, _, h⟩ := h
  exact (Prod.ext_iff.mp h).2.symm

theorem AuthTablesOk.insert (h : AuthTablesOk hashing db) {tokens : SessionTokens}
    {provenance : SessionProvenance} (hoperator : db.operators[operatorId]? = some operator)
    (hversion : provenance.passwordVersion = operator.passwordVersion)
    (hverify : hashing.verify operator.passwordHash provenance.password) :
    AuthTablesOk hashing { db with
      sessions := db.sessions ++ [tokens.sessionRow operatorId now provenance] } where
  hashes := h.hashes
  versions session hsession := by
    obtain hsession | hsession := List.mem_append.mp hsession
    · exact h.versions session hsession
    · rw [List.mem_singleton.mp hsession]
      exact ⟨operator, hoperator, Nat.le_of_eq hversion, fun _ => ⟨hversion, hverify⟩⟩

/-- The password of an operator is the one that its hash verifies. -/
theorem AuthTablesOk.password_eq (h : AuthTablesOk hashing db)
    (hoperator : db.operators[operatorId]? = some operator) {password other : String}
    (hpassword : hashing.verify operator.passwordHash password)
    (hother : hashing.verify operator.passwordHash other) : password = other := by
  obtain ⟨salt, password', hhash⟩ := h.hashes operator (List.mem_of_getElem? hoperator)
  rw [hhash, hashing.verify_hash, decide_eq_true_eq] at hpassword hother
  rw [hpassword, hother]

theorem verify_loggedIn {password : String} {salt : ℕ}
    (hverify : hashing.verify operator.passwordHash password) :
    hashing.verify (operator.loggedIn hashing password salt now).passwordHash password := by
  simp only [OperatorRow.loggedIn]
  split
  · rw [hashing.verify_hash, decide_eq_true_eq]
  · exact hverify

theorem completeLogin_step {input : AuthenticateOperatorInput} {session : NewOperatorSession}
    (h : completeLogin hashing input operatorId operator now db = .ok (session, db'))
    (hoperator : db.operators[operatorId]? = some operator) (hfree : free (.operator operatorId))
    (hverify : hashing.verify operator.passwordHash input.password) :
    AuthDbStep free db db' ∧ (AuthTablesOk hashing db → AuthTablesOk hashing db') := by
  simp only [completeLogin, bind_eq_ok, pure_eq_ok] at h
  obtain ⟨⟨session', db₁⟩, hinsert, heq⟩ := h
  obtain rfl := insertSession_eq_ok hinsert
  obtain rfl := (Prod.ext_iff.mp heq).2
  refine ⟨⟨.modify OperatorKept.refl hoperator (.ofFree hfree (Nat.le_refl _)),
    .append_singleton (.refl SessionKept.refl _) trivial⟩, fun hok => ?_⟩
  have hok' := @AuthTablesOk.insert _ _ now _ _ hok input.tokens
    ⟨true, input.password, operator.passwordVersion⟩ hoperator rfl hverify
  refine ⟨fun row hrow => ?_, fun session hsession => ?_⟩
  · obtain ⟨id, hid⟩ := List.mem_iff_getElem?.mp hrow
    by_cases hoperatorId : operatorId = id
    · obtain rfl := hoperatorId
      rw [getElem?_modify_eq hoperator] at hid
      obtain rfl := Option.some.inj hid
      simp only [OperatorRow.loggedIn]
      split
      · exact ⟨_, _, rfl⟩
      · exact hok.hashes operator (List.mem_of_getElem? hoperator)
    · rw [getElem?_modify_ne hoperatorId] at hid
      exact hok.hashes row (List.mem_of_getElem? hid)
  · obtain ⟨row, hrow, hle, hcurrent⟩ := hok'.versions session hsession
    by_cases hoperatorId : operatorId = session.operatorId
    · obtain rfl := hoperatorId
      obtain rfl : operator = row := Option.some.inj (hoperator.symm.trans hrow)
      refine ⟨_, getElem?_modify_eq hoperator, hle, fun hnone => ?_⟩
      obtain ⟨hversion, hpassword⟩ := hcurrent hnone
      -- the login has the password of all other current sessions
      rw [hok.password_eq hoperator hpassword hverify]
      exact ⟨hversion, verify_loggedIn hverify⟩
    · exact ⟨row, by rw [getElem?_modify_ne hoperatorId, hrow], hle, hcurrent⟩

theorem completePasswordChange_step {input : ChangeOperatorPasswordInput}
    {session : NewOperatorSession}
    (h : completePasswordChange hashing input operatorId operator now db = .ok (session, db'))
    (hoperator : db.operators[operatorId]? = some operator) (hfree : free (.operator operatorId))
    (hsessions : ∀ id session, db.sessions[id]? = some session → session.isActiveOf operatorId →
      free (.session id)) :
    AuthDbStep free db db' ∧ (AuthTablesOk hashing db → AuthTablesOk hashing db') := by
  rw [completePasswordChange] at h
  obtain rfl := insertSession_eq_ok h
  refine ⟨⟨.modify OperatorKept.refl hoperator (.ofFree hfree (Nat.le_succ _)),
    .append_singleton (.updateWhere SessionKept.refl fun id row hrow hactive =>
      .revoke (hsessions id row hrow hactive)) trivial⟩, fun hok => ?_⟩
  refine @AuthTablesOk.insert _ _ _ _ (operator.withPassword hashing input now)
    ⟨fun row hrow => ?_, fun session hsession => ?_⟩ _ _ (getElem?_modify_eq hoperator) rfl ?_
  · obtain ⟨id, hid⟩ := List.mem_iff_getElem?.mp hrow
    by_cases hoperatorId : operatorId = id
    · obtain rfl := hoperatorId
      rw [getElem?_modify_eq hoperator] at hid
      obtain rfl := Option.some.inj hid
      exact ⟨_, _, rfl⟩
    · rw [getElem?_modify_ne hoperatorId] at hid
      exact hok.hashes row (List.mem_of_getElem? hid)
  · obtain ⟨id, row, hrow, rfl⟩ := mem_updateWhere hsession
    obtain ⟨operator', hoperator', hle, hcurrent⟩ := hok.versions row (List.mem_of_getElem? hrow)
    by_cases hoperatorId : operatorId = row.operatorId
    · obtain rfl := hoperatorId
      obtain rfl : operator = operator' := Option.some.inj (hoperator.symm.trans hoperator')
      split
      · exact ⟨_, getElem?_modify_eq hoperator, Nat.le_succ_of_le hle, nofun⟩
      · rename_i hactive
        refine ⟨_, getElem?_modify_eq hoperator, Nat.le_succ_of_le hle, fun hnone => ?_⟩
        exact absurd (by simp [SessionRow.isActiveOf, hnone]) hactive
    · have hkept : (if row.isActiveOf operatorId then row.revoke .PASSWORD_CHANGED now else row) =
          row := if_neg (by simp [SessionRow.isActiveOf, Ne.symm hoperatorId])
      rw [hkept]
      exact ⟨operator', by rw [getElem?_modify_ne hoperatorId, hoperator'], hle, hcurrent⟩
  · simp only [OperatorRow.withPassword]
    rw [hashing.verify_hash, decide_eq_true_eq]

/-! ### The invariant -/

/-- What a request knows: the operator and the session that it has locked. -/
def AuthProcess.Knows (hashing : PasswordHashing) (db : AuthTables) : AuthProcess → Prop
  | .login input (some (operatorId, operator)) =>
    db.operators[operatorId]? = some operator ∧
      hashing.verify operator.passwordHash input.password
  | .changePassword _ (.authenticated _ sessionId session) | .logout _ (some (sessionId, session))
  | .revoke _ _ (.authenticated sessionId session) | .revoke _ _ (.found sessionId session) =>
    db.sessions[sessionId]? = some session ∧ session.revokedAt = none
  | .changePassword _ (.verified _ sessionId session operator) =>
    (db.sessions[sessionId]? = some session ∧ session.revokedAt = none) ∧
      db.operators[session.operatorId]? = some operator
  | _ => True

/-- **The invariant.** -/
structure SessionInv (hashing : PasswordHashing) (s : AuthSys) : Prop where
  ok : AuthTablesOk hashing s.db
  locks : ∀ (i j : ℕ) (p q : AuthProcess) (lock : AuthLock), s.processes[i]? = some p →
    s.processes[j]? = some q → lock ∈ p.locks → lock ∈ q.locks → i = j
  knows : ∀ (i : ℕ) (p : AuthProcess), s.processes[i]? = some p → p.Knows hashing s.db

/-- A process has locked a session that is not revoked. -/
def AuthProcess.HasSession (db : AuthTables) (p : AuthProcess) : Prop :=
  ∃ (id : ℕ) (session : SessionRow), .session id ∈ p.locks ∧ db.sessions[id]? = some session ∧
    session.revokedAt = none

/-- What the next statement of the request `p` at `i` leads to. -/
structure Advanced (hashing : PasswordHashing) (s : AuthSys) (i : ℕ) (p : AuthProcess)
    (t : AuthSys) : Prop where
  step : AuthDbStep (s.isFree i) s.db t.db
  ok : AuthTablesOk hashing s.db → AuthTablesOk hashing t.db
  processes : t = s ∨ ∃ p', t.processes = s.processes.set i p' ∧
    (∀ lock ∈ p'.locks, lock ∈ p.locks ∨ s.isFree i lock) ∧ p'.Knows hashing t.db
  authorised : t.db = s.db ∨ (∃ input verified, p = .login input verified) ∨ p.HasSession s.db

theorem Advanced.wait : Advanced hashing s i p s := ⟨.refl, id, .inl rfl, .inl rfl⟩

/-- A request goes on, without a change of rows. -/
theorem Advanced.goTo (hlocks : ∀ lock ∈ p'.locks, lock ∈ p.locks ∨ s.isFree i lock)
    (hknows : p'.Knows hashing s.db) : Advanced hashing s i p (s.set i p') :=
  ⟨.refl, id, .inr ⟨p', rfl, hlocks, hknows⟩, .inl rfl⟩

theorem Advanced.end {responseStatus : ℕ} {replayed : Bool} :
    Advanced hashing s i p (s.set i (.ended responseStatus replayed)) :=
  .goTo nofun trivial

/-- A request ends with a commit. -/
theorem Advanced.commit {receipts : List PasswordReceipt} {responseStatus : ℕ} {replayed : Bool}
    (h : AuthDbStep (s.isFree i) s.db db ∧ (AuthTablesOk hashing s.db → AuthTablesOk hashing db))
    (hauthorised : db = s.db ∨ (∃ input verified, p = .login input verified) ∨
      p.HasSession s.db) :
    Advanced hashing s i p
      { s.set i (.ended responseStatus replayed) with db, receipts } :=
  ⟨h.1, h.2, .inr ⟨_, rfl, nofun, trivial⟩, hauthorised⟩

theorem AuthSys.isFree_iff {lock : AuthLock} :
    s.isFree i lock ↔ ∀ (j : ℕ) (q : AuthProcess), s.processes[j]? = some q →
      lock ∈ q.locks → j = i := by
  simp only [AuthSys.isFree, List.all_eq_true, List.mem_range, Bool.or_eq_true,
    decide_eq_true_eq]
  constructor
  · intro h j q hq hlock
    obtain h | h := h j (List.getElem?_eq_some_iff.mp hq).1
    · exact h
    · rw [hq, Option.all_some, decide_eq_true_eq] at h
      exact absurd hlock h
  · intro h j hj
    rw [List.getElem?_eq_getElem hj, Option.all_some, decide_eq_true_eq]
    by_cases hlock : lock ∈ (s.processes[j]).locks
    · exact .inl (h j _ (List.getElem?_eq_getElem hj) hlock)
    · exact .inr hlock

/-- A lock that the process itself has is free for it. -/
theorem SessionInv.isFree_of_mem (hI : SessionInv hashing s) (hp : s.processes[i]? = some p)
    {lock : AuthLock} (hlock : lock ∈ p.locks) : s.isFree i lock :=
  AuthSys.isFree_iff.mpr fun j q hq hmem => hI.locks j i q p lock hq hp hmem hlock

theorem not_isFree {j : ℕ} {q : AuthProcess} (hq : s.processes[j]? = some q) (hij : j ≠ i)
    {lock : AuthLock} (hlock : lock ∈ q.locks) : s.isFree i lock = false :=
  Bool.eq_false_iff.mpr fun hfree => hij (AuthSys.isFree_iff.mp hfree j q hq hlock)

/-- A session that another process has locked stays as it is. -/
theorem AuthDbStep.lockedSession (h : AuthDbStep free db db') {id : ℕ} {session : SessionRow}
    (hbusy : free (.session id) = false)
    (hsession : db.sessions[id]? = some session ∧ session.revokedAt = none) :
    db'.sessions[id]? = some session ∧ session.revokedAt = none := by
  obtain ⟨row, hrow, _, _, hkept⟩ := h.sessions.old id session hsession.1
  rw [hkept hbusy] at hrow
  exact ⟨hrow, hsession.2⟩

theorem AuthDbStep.lockedOperator (h : AuthDbStep free db db') (hbusy : free (.operator operatorId) = false)
    (hoperator : db.operators[operatorId]? = some operator) :
    db'.operators[operatorId]? = some operator := by
  obtain ⟨row, hrow, _, hkept⟩ := h.operators.old operatorId operator hoperator
  rw [hkept hbusy] at hrow
  exact hrow

/-- What another process knows stays true. -/
theorem AuthProcess.Knows.other {j : ℕ} {q : AuthProcess} (hknows : q.Knows hashing s.db)
    (hq : s.processes[j]? = some q) (hij : j ≠ i) (h : AuthDbStep (s.isFree i) s.db db') :
    q.Knows hashing db' := by
  have hbusy {lock : AuthLock} (hlock : lock ∈ q.locks) : s.isFree i lock = false :=
    not_isFree hq hij hlock
  cases q with
  | login input verified =>
    cases verified with
    | none => trivial
    | some verified => exact ⟨h.lockedOperator (hbusy List.mem_cons_self) hknows.1, hknows.2⟩
  | changePassword request phase =>
    cases phase with
    | authenticated operatorId sessionId session =>
      exact h.lockedSession (hbusy (by simp [AuthProcess.locks])) hknows
    | verified operatorId sessionId session operator =>
      exact ⟨h.lockedSession (hbusy (by simp [AuthProcess.locks])) hknows.1,
        h.lockedOperator (hbusy (by simp [AuthProcess.locks])) hknows.2⟩
    | started | inContext | claimed => trivial
  | logout tokens session =>
    cases session with
    | none => trivial
    | some session => exact h.lockedSession (hbusy List.mem_cons_self) hknows
  | revoke tokens targetSessionId phase =>
    cases phase with
    | authenticated sessionId session | found sessionId session =>
      exact h.lockedSession (hbusy List.mem_cons_self) hknows
    | started => trivial
  | ended => trivial

/-- **A request goes on.** -/
theorem SessionInv.advanced (hI : SessionInv hashing s) (hp : s.processes[i]? = some p)
    (h : Advanced hashing s i p t) : SessionInv hashing t := by
  obtain rfl | ⟨p', hprocesses, hlocks, hknows⟩ := h.processes
  · exact hI
  · refine ⟨h.ok hI.ok, fun j k q r lock hq hr hlq hlr => ?_, fun j q hq => ?_⟩
    · rw [hprocesses] at hq hr
      have hother {l : ℕ} {o : AuthProcess} (ho : s.processes[l]? = some o) (hlo : lock ∈ o.locks)
          (hnew : lock ∈ p'.locks) : l = i := by
        obtain hold | hfree := hlocks lock hnew
        · exact hI.locks l i o p lock ho hp hlo hold
        · exact AuthSys.isFree_iff.mp hfree l o ho hlo
      obtain ⟨rfl, rfl⟩ | ⟨_, hq'⟩ := getElem?_set_cases hq
      · obtain ⟨rfl, rfl⟩ | ⟨_, hr'⟩ := getElem?_set_cases hr
        · rfl
        · exact (hother hr' hlr hlq).symm
      · obtain ⟨rfl, rfl⟩ | ⟨_, hr'⟩ := getElem?_set_cases hr
        · exact hother hq' hlq hlr
        · exact hI.locks j k q r lock hq' hr' hlq hlr
    · rw [hprocesses] at hq
      obtain ⟨rfl, rfl⟩ | ⟨hij, hq⟩ := getElem?_set_cases hq
      · exact hknows
      · exact (hI.knows j q hq).other hq (Ne.symm hij) h.step

/-! ### Steps -/

theorem requireMutationSession_eq_ok {tokens : RequestTokens} {session : ℕ × SessionRow}
    (h : requireMutationSession db now tokens = .ok session) :
    db.sessions[session.1]? = some session.2 ∧ session.2.revokedAt = none := by
  simp only [requireMutationSession, bind_eq_ok, require_eq_ok, pure_eq_ok] at h
  obtain ⟨sessionToken, _, found, hload, _, _, rfl⟩ := h
  obtain ⟨hrow, hq⟩ := findRow_eq_some hload
  simp only [AuthTables.authenticates, Bool.and_eq_true, Option.isNone_iff_eq_none] at hq
  exact ⟨hrow, hq.2.1.1⟩

theorem findOperator_eq_some {normalizedUsername : ℕ}
    (h : db.findOperator normalizedUsername = some (operatorId, operator)) :
    db.operators[operatorId]? = some operator := (findRow_eq_some h).1

theorem stepLogin_advanced {input : AuthenticateOperatorInput} {verified : Option (ℕ × OperatorRow)} :
    Advanced hashing s i (.login input verified) (s.stepLogin hashing i input) := by
  unfold AuthSys.stepLogin
  split
  · exact .end
  · rename_i operatorId operator hfind
    split
    · rename_i hfree
      split
      · rename_i row hverified
        simp only [verifiedOperator, Option.filter_eq_some_iff, Bool.and_eq_true] at hverified
        obtain ⟨hrow, _, hverify⟩ := hverified
        obtain rfl := Option.some.inj hrow
        refine .goTo (fun lock hlock => .inr ?_) ⟨findOperator_eq_some hfind, hverify⟩
        rw [List.mem_singleton.mp hlock]
        exact hfree
      · exact .end
    · exact .wait

theorem commitLogin_advanced (hI : SessionInv hashing s) {input : AuthenticateOperatorInput}
    (hp : s.processes[i]? = some (.login input (some (operatorId, operator)))) :
    Advanced hashing s i (.login input (some (operatorId, operator)))
      (s.commitLogin hashing i input operatorId operator) := by
  obtain ⟨hoperator, hverify⟩ := hI.knows i _ hp
  unfold AuthSys.commitLogin
  split
  · rename_i session db hcomplete
    exact .commit (completeLogin_step hcomplete hoperator
      (hI.isFree_of_mem hp List.mem_cons_self) hverify) (.inr (.inl ⟨_, _, rfl⟩))
  · exact .end

theorem lockSession_advanced {tokens : RequestTokens} {next : ℕ × SessionRow → AuthProcess}
    (hlocks : ∀ session, ∀ lock ∈ (next session).locks,
      lock ∈ p.locks ∨ lock = .session session.1)
    (hknows : ∀ session, s.db.sessions[session.1]? = some session.2 ∧
      session.2.revokedAt = none → (next session).Knows hashing s.db) :
    Advanced hashing s i p (s.lockSession i tokens next) := by
  unfold AuthSys.lockSession
  split
  · rename_i session hsession
    split
    · rename_i hfree
      refine .goTo (fun lock hlock => (hlocks session lock hlock).imp_right ?_)
        (hknows session (requireMutationSession_eq_ok hsession))
      rintro rfl
      exact hfree
    · exact .wait
  · exact .end

theorem answer_advanced {request : PasswordRequest} {receiptOf responseStatus : ℕ} :
    Advanced hashing s i p (s.answer i receiptOf request responseStatus s.db) :=
  .commit ⟨.refl, id⟩ (.inl rfl)

theorem decidePasswordChange_eq_changed {row : Option OperatorRow}
    {input : ChangeOperatorPasswordInput}
    (h : decidePasswordChange hashing row input = .changed operator) : row = some operator := by
  unfold decidePasswordChange at h
  split at h
  · cases h
  · rename_i row' hrow
    split at h
    · cases h
    · obtain rfl := PasswordChangeDecision.changed.inj h
      exact (Option.filter_eq_some_iff.mp hrow).1

theorem stepChange_advanced (hI : SessionInv hashing s) {request : PasswordRequest}
    {phase : PasswordPhase} (hp : s.processes[i]? = some (.changePassword request phase)) :
    Advanced hashing s i (.changePassword request phase) (s.stepChange hashing i request phase) := by
  cases phase with
  | started =>
    simp only [AuthSys.stepChange]
    split
    · exact .goTo nofun trivial
    · exact .end
  | inContext operatorId =>
    simp only [AuthSys.stepChange, AuthSys.claimReceipt]
    split
    · rename_i hfree
      split
      · split <;> exact .end
      · refine .goTo (fun lock hlock => .inr ?_) trivial
        rw [List.mem_singleton.mp hlock]
        exact hfree
    · exact .wait
  | claimed operatorId =>
    refine lockSession_advanced (fun session lock hlock => ?_) fun session h => h
    simp only [AuthProcess.locks, List.mem_cons, List.not_mem_nil, or_false] at hlock ⊢
    exact hlock
  | authenticated operatorId sessionId session =>
    simp only [AuthSys.stepChange, AuthSys.stepPassword]
    split
    · rename_i hfree
      split
      · exact answer_advanced
      · exact answer_advanced
      · rename_i operator hdecision
        refine .goTo (fun lock hlock => ?_)
          ⟨hI.knows i _ hp, decidePasswordChange_eq_changed hdecision⟩
        simp only [AuthProcess.locks, List.mem_cons, List.not_mem_nil, or_false] at hlock ⊢
        rw [← or_assoc] at hlock
        refine hlock.imp_right ?_
        rintro rfl
        exact hfree
    · exact .wait
  | verified operatorId sessionId session operator =>
    obtain ⟨hsession, hoperator⟩ := hI.knows i _ hp
    simp only [AuthSys.stepChange, AuthSys.commitPassword]
    split
    · rename_i hfree
      split
      · rename_i replacement db hcomplete
        refine .commit (completePasswordChange_step hcomplete hoperator
          (hI.isFree_of_mem hp (by simp [AuthProcess.locks])) fun id row hrow hactive => ?_)
          (.inr (.inr ⟨sessionId, session, by simp [AuthProcess.locks], hsession⟩))
        exact List.all_eq_true.mp hfree id (mem_idsWhere.mpr ⟨row, hrow, hactive⟩)
      · exact .end
    · exact .wait

theorem stepRevoke_advanced (hI : SessionInv hashing s) {tokens : RequestTokens}
    {targetSessionId : ℕ} {phase : RevocationPhase}
    (hp : s.processes[i]? = some (.revoke tokens targetSessionId phase)) :
    Advanced hashing s i (.revoke tokens targetSessionId phase)
      (s.stepRevoke i tokens targetSessionId phase) := by
  cases phase with
  | started =>
    refine lockSession_advanced (fun session lock hlock => .inr ?_) fun session h => h
    exact List.mem_singleton.mp hlock
  | authenticated sessionId session =>
    have hsession := hI.knows i _ hp
    simp only [AuthSys.stepRevoke]
    split
    · rename_i hfree
      split
      · refine .goTo (fun lock hlock => ?_) hsession
        simp only [AuthProcess.locks, List.mem_cons, List.not_mem_nil, or_false] at hlock ⊢
        refine hlock.imp_right ?_
        rintro rfl
        exact hfree
      · exact .end
    · exact .wait
  | found sessionId session =>
    have hsession := hI.knows i _ hp
    refine .commit ⟨⟨.refl OperatorKept.refl _, revoke_step fun id row _ hid => ?_⟩,
      fun hok => hok.revoke⟩ (.inr (.inr ⟨sessionId, session, List.mem_cons_self, hsession⟩))
    rw [of_decide_eq_true hid]
    exact hI.isFree_of_mem hp (by simp [AuthProcess.locks])

/-- **The next statement of a request.** -/
theorem advance_advanced (hI : SessionInv hashing s) (hp : s.processes[i]? = some p) :
    Advanced hashing s i p (s.advance hashing i p) := by
  cases p with
  | login input verified =>
    cases verified with
    | none => exact stepLogin_advanced
    | some verified => exact commitLogin_advanced hI hp
  | changePassword request phase => exact stepChange_advanced hI hp
  | logout tokens session =>
    cases session with
    | none =>
      refine lockSession_advanced (fun session lock hlock => .inr ?_) fun session h => h
      exact List.mem_singleton.mp hlock
    | some session =>
      obtain ⟨sessionId, session⟩ := session
      have hsession := hI.knows i _ hp
      refine .commit ⟨⟨.refl OperatorKept.refl _, revoke_step fun id row _ hid => ?_⟩,
        fun hok => hok.revoke⟩ (.inr (.inr ⟨sessionId, session, List.mem_cons_self, hsession⟩))
      simp only [Bool.and_eq_true, decide_eq_true_eq] at hid
      rw [hid.1]
      exact hI.isFree_of_mem hp List.mem_cons_self
  | revoke tokens targetSessionId phase => exact stepRevoke_advanced hI hp
  | ended => exact .wait

/-- A request that begins has locked nothing, and knows nothing. -/
theorem isFirst_locks (h : p.isFirst) : p.locks = [] ∧ p.Knows hashing db := by
  unfold AuthProcess.isFirst at h
  split at h
  · exact ⟨rfl, trivial⟩
  · exact ⟨rfl, trivial⟩
  · exact ⟨rfl, trivial⟩
  · exact ⟨rfl, trivial⟩
  · cases h

theorem SessionInv.start (hI : SessionInv hashing s) (h : p.isFirst) :
    SessionInv hashing { s with processes := s.processes ++ [p] } := by
  have hnone {lock : AuthLock} : lock ∉ p.locks := by
    rw [(@isFirst_locks hashing s.db _ h).1]
    exact List.not_mem_nil
  refine ⟨hI.ok, fun j k q r lock hq hr hlq hlr => ?_, fun j q hq => ?_⟩
  · obtain hq | ⟨_, rfl⟩ := getElem?_concat_cases hq
    · obtain hr | ⟨_, rfl⟩ := getElem?_concat_cases hr
      · exact hI.locks j k q r lock hq hr hlq hlr
      · exact absurd hlr hnone
    · exact absurd hlq hnone
  · obtain hq | ⟨_, rfl⟩ := getElem?_concat_cases hq
    · exact hI.knows j q hq
    · exact (isFirst_locks h).2

/-- **Steps.** -/
theorem step_sessionInv (hI : SessionInv hashing s) (a : AuthAct) :
    SessionInv hashing (s.step hashing a) ∧
      (∃ free, AuthDbStep free s.db (s.step hashing a).db) ∧
      AuthorisedChange s (s.step hashing a) a := by
  cases a with
  | tick ms => exact ⟨⟨hI.ok, hI.locks, hI.knows⟩, ⟨fun _ => true, .refl⟩, .inl rfl⟩
  | createOperator normalizedUsername password salt =>
    simp only [AuthSys.step]
    split
    · rename_i db hcreate
      obtain ⟨hstep, hok⟩ := @createOperator_step _ (s.isFree s.processes.length) _ _ _ _ _ _ hcreate
      refine ⟨⟨hok hI.ok, hI.locks, fun j q hq => ?_⟩, ⟨_, hstep⟩, .inr (.inl ⟨_, _, _, rfl⟩)⟩
      have hj : j < s.processes.length := (List.getElem?_eq_some_iff.mp hq).1
      exact (hI.knows j q hq).other hq (Nat.ne_of_lt hj) hstep
    · exact ⟨hI, ⟨fun _ => true, .refl⟩, .inl rfl⟩
  | start p =>
    simp only [AuthSys.step]
    split
    · exact ⟨hI.start ‹_›, ⟨fun _ => true, .refl⟩, .inl rfl⟩
    · exact ⟨hI, ⟨fun _ => true, .refl⟩, .inl rfl⟩
  | advance i =>
    simp only [AuthSys.step]
    split
    · rename_i p hp
      have h := advance_advanced hI hp
      exact ⟨hI.advanced hp h, ⟨_, h.step⟩,
        h.authorised.imp_right fun hauthorised => .inr ⟨i, p, rfl, hp, hauthorised⟩⟩
    · exact ⟨hI, ⟨fun _ => true, .refl⟩, .inl rfl⟩
  | abort i =>
    simp only [AuthSys.step]
    refine ⟨?_, ⟨fun _ => true, .refl⟩, .inl rfl⟩
    cases hp : s.processes[i]? with
    | some p => exact hI.advanced hp .end
    | none =>
      rw [AuthSys.set, List.set_eq_of_length_le (List.getElem?_eq_none_iff.mp hp)]
      exact hI

theorem sessionInv_of_reach (hs : Reach (AuthSys.step hashing) Always .initial s) :
    SessionInv hashing s :=
  hs.invariant ⟨⟨fun _ h => absurd h List.not_mem_nil, fun _ h => absurd h List.not_mem_nil⟩,
    fun i j p q lock hp => by simp [AuthSys.initial] at hp,
    fun i p hp => by simp [AuthSys.initial] at hp⟩ fun _ a hI _ => (step_sessionInv hI a).1

/-- The rows along a run: sessions stay what they were created as, and versions only grow. -/
structure AuthRun (s t : AuthSys) : Prop where
  operators : ∀ (id : ℕ) (row : OperatorRow), s.db.operators[id]? = some row →
    ∃ row', t.db.operators[id]? = some row' ∧ row.passwordVersion ≤ row'.passwordVersion
  sessions : ∀ (id : ℕ) (row : SessionRow), s.db.sessions[id]? = some row →
    ∃ row', t.db.sessions[id]? = some row' ∧ row'.operatorId = row.operatorId ∧
      row'.provenance = row.provenance

theorem authRun_of_reach (hI : SessionInv hashing s)
    (h : Reach (AuthSys.step hashing) Always s t) : AuthRun s t ∧ SessionInv hashing t := by
  refine Reach.invariant (I := fun t => AuthRun s t ∧ SessionInv hashing t) h
    ⟨⟨fun id row hrow => ⟨row, hrow, Nat.le_refl _⟩, fun id row hrow => ⟨row, hrow, rfl, rfl⟩⟩, hI⟩
    fun u a ⟨hrun, hI⟩ _ => ?_
  obtain ⟨hI', ⟨free, hstep⟩, _⟩ := step_sessionInv hI a
  refine ⟨⟨fun id row hrow => ?_, fun id row hrow => ?_⟩, hI'⟩
  · obtain ⟨row₁, hrow₁, hle⟩ := hrun.operators id row hrow
    obtain ⟨row₂, hrow₂, hle', _⟩ := hstep.operators.old id row₁ hrow₁
    exact ⟨row₂, hrow₂, Nat.le_trans hle hle'⟩
  · obtain ⟨row₁, hrow₁, hoperator, hprovenance⟩ := hrun.sessions id row hrow
    obtain ⟨row₂, hrow₂, hoperator', hprovenance', _⟩ := hstep.sessions.old id row₁ hrow₁
    exact ⟨row₂, hrow₂, hoperator'.trans hoperator, hprovenance'.trans hprovenance⟩

theorem loadSession_eq_some {sessionToken id : ℕ} {session : SessionRow}
    (h : db.loadSession now sessionToken = some (id, session)) :
    db.sessions[id]? = some session ∧ session.revokedAt = none ∧
      ∃ operator, db.operators[session.operatorId]? = some operator ∧ operator.isActive := by
  obtain ⟨hrow, hq⟩ := findRow_eq_some h
  simp only [AuthTables.authenticates, Bool.and_eq_true, Option.isNone_iff_eq_none] at hq
  exact ⟨hrow, hq.2.1.1, (Option.any_eq_true _ _).mp hq.2.2⟩

theorem SessionInv.currentSessions (hI : SessionInv hashing s) : CurrentSessions hashing s := by
  intro sessionToken id session h
  obtain ⟨hrow, hnone, operator, hoperator, hactive⟩ := loadSession_eq_some h
  obtain ⟨operator', hoperator', _, hcurrent⟩ := hI.ok.versions session (List.mem_of_getElem? hrow)
  obtain rfl : operator = operator' := Option.some.inj (hoperator.symm.trans hoperator')
  obtain ⟨hversion, hverify⟩ := hcurrent hnone
  exact ⟨operator, hoperator, hactive, hversion, hverify⟩

theorem SessionInv.noOldSession (hI : SessionInv hashing s)
    (h : Reach (AuthSys.step hashing) Always s t) : NoOldSession s t := by
  obtain ⟨hrun, hI'⟩ := authRun_of_reach hI h
  rintro operatorId operator operator' hoperator hoperator' hlt sessionToken id session hload rfl
  obtain ⟨row, hrow, _, hversion, _⟩ := hI'.currentSessions sessionToken id session hload
  obtain rfl : operator' = row := Option.some.inj (hoperator'.symm.trans hrow)
  refine ⟨?_, hversion ▸ hlt⟩
  cases hold : s.db.sessions[id]? with
  | none => rfl
  | some old =>
    -- a session of `s` has no later version than its operator had then
    obtain ⟨session', hsession', hid, hprovenance⟩ := hrun.sessions id old hold
    obtain rfl : session = session' :=
      Option.some.inj ((loadSession_eq_some hload).1.symm.trans hsession')
    obtain ⟨owner, howner, hle, _⟩ := hI.ok.versions old (List.mem_of_getElem? hold)
    rw [← hid, hoperator] at howner
    obtain rfl := Option.some.inj howner
    rw [← hprovenance, hversion] at hle
    exact absurd hlt (Nat.not_lt.mpr hle)

/-- **Sessions are revoked by password changes.**  In every reachable state, who authenticates a
    request has the current password; what a password change ends never comes back; and rows change
    for logins and for sessions that are not revoked only, never for a replay. -/
theorem sessions_revoked (hashing : PasswordHashing) (s : AuthSys)
    (hs : Reach (AuthSys.step hashing) Always .initial s) :
    CurrentSessions hashing s ∧
      (∀ t, Reach (AuthSys.step hashing) Always s t → NoOldSession s t) ∧
      ∀ a, AuthorisedChange s (s.step hashing a) a := by
  have hI := sessionInv_of_reach hs
  exact ⟨hI.currentSessions, fun t ht => hI.noOldSession ht, fun a => (step_sessionInv hI a).2.2⟩

/-- A password change from the session with token 1, from `old` to `new`. -/
def examplePasswordRequest : PasswordRequest :=
  ⟨⟨some 1, some 2, some 2⟩, ⟨"old password", "new password", 0, ⟨3, 4, 3600⟩⟩, 7, 8⟩

/-- An operator logs in and changes the password; the client, which has not seen the answer, repeats
    its request. -/
def replayedPasswordChange : List AuthAct :=
  [.createOperator 0 "old password" 0, .start (.login ⟨0, "old password", 0, ⟨1, 2, 3600⟩⟩ none),
    .advance 0, .advance 0, .start (.changePassword examplePasswordRequest .started),
    .advance 1, .advance 1, .advance 1, .advance 1, .advance 1,
    .start (.changePassword examplePasswordRequest .started)]

/-- The run of the properties: after the change the session of the login is revoked, and the one of
    the change authenticates. -/
theorem sessions_revoked_replayed :
    let s := replayedPasswordChange.foldl (AuthSys.step plainHashing) .initial
    s.db.loadSession s.now 1 = none ∧ (s.db.loadSession s.now 3).isSome ∧
      CurrentSessions plainHashing s ∧
      (∀ t, Reach (AuthSys.step plainHashing) Always s t → NoOldSession s t) ∧
      ∀ a, AuthorisedChange s (s.step plainHashing a) a := by
  refine ⟨by decide +kernel, by decide +kernel, ?_⟩
  exact sessions_revoked plainHashing _ (.ofActions _ _)

/-- A session that was revoked by a password change, which has committed, still authenticates the
    repetition of its request, which is answered with the stored response. -/
theorem revoked_session_authenticates_replay :
    let s := replayedPasswordChange.foldl (AuthSys.step plainHashing) .initial
    s.db.sessions.map (fun session => (session.provenance.byLogin, session.revokeReason)) =
        [(true, some .PASSWORD_CHANGED), (false, none)] ∧
      (requireAuthMutationContext s.db s.now examplePasswordRequest.tokens).toOption.map (·.1) =
        some 0 ∧
      ([AuthAct.advance 2, .advance 2].foldl (AuthSys.step plainHashing) s).processes[2]? =
        some (.ended 200 true) := by
  decide +kernel

end ResearchWorkbench
