import ResearchWorkbench.Domain.Jobs
import ResearchWorkbench.Library.Table

namespace ResearchWorkbench

/-!
# Operators, their sessions, and the throttling of logins

* `LoginRateLimitState`, `normalizeLoginRateLimitState`, `loginRetryAfterSeconds`,
  `registerLoginFailure` — `lib/auth/rate-limit.ts`;
* `PasswordHashing` — what `lib/auth/password.ts` relies on `argon2` for;
* `OperatorRow`, `SessionRow`, `AuthTables` — the tables of `007_operator_auth.sql`;
* `decideLogin`, `completeLogin`, `authenticateOperatorOutcome` — a login;
* `loadSession`, `assertCsrfToken`, `decidePasswordChange`, `completePasswordChange`, … — what an
  operator does with a session.

Times are milliseconds.  A token stands for its hash, which is as unique as the token.
-/

/-! ### Throttling -/

/-- `LoginRateLimitConfig`, with the bounds that `getLoginRateLimitConfig` checks. -/
structure LoginRateLimitConfig where
  maximumAttempts : ℕ
  windowSeconds : ℕ
  blockSeconds : ℕ
  maximumAttempts_bounds : 2 ≤ maximumAttempts ∧ maximumAttempts ≤ 100
  windowSeconds_bounds : 60 ≤ windowSeconds ∧ windowSeconds ≤ 86400
  blockSeconds_bounds : 60 ≤ blockSeconds ∧ blockSeconds ≤ 86400

/-- `getLoginRateLimitConfig({})`. -/
def LoginRateLimitConfig.default : LoginRateLimitConfig :=
  ⟨5, 900, 900, by decide, by decide, by decide⟩

/-- `LoginRateLimitState`. -/
structure LoginRateLimitState where
  attemptCount : ℕ
  windowStartedAt : ℕ
  blockedUntil : Option ℕ
  deriving DecidableEq, Repr

/-- `normalizeLoginRateLimitState(state, now, config)`. -/
def normalizeLoginRateLimitState (state : LoginRateLimitState) (now : ℕ)
    (config : LoginRateLimitConfig) : LoginRateLimitState :=
  if state.windowStartedAt + config.windowSeconds * 1000 ≤ now then ⟨0, now, none⟩ else state

/-- `loginRetryAfterSeconds(state, now)`. -/
def loginRetryAfterSeconds (state : LoginRateLimitState) (now : ℕ) : Option ℕ :=
  match state.blockedUntil with
  | none => none
  | some t => if t ≤ now then none else some (max 1 ((t - now + 999) / 1000))

/-- `registerLoginFailure(state, now, config)`. -/
def registerLoginFailure (state : LoginRateLimitState) (now : ℕ) (config : LoginRateLimitConfig) :
    LoginRateLimitState :=
  let normalized := normalizeLoginRateLimitState state now config
  let attemptCount := normalized.attemptCount + 1
  ⟨attemptCount, normalized.windowStartedAt,
    if config.maximumAttempts ≤ attemptCount then some (now + config.blockSeconds * 1000) else none⟩

/-- The row that the `INSERT` of `lockRateLimit` writes, in a transaction begun at this time. -/
def newRateLimit (startedAt : ℕ) : LoginRateLimitState := ⟨0, startedAt, none⟩

/-! ### Passwords -/

/-- What `argon2` does: salted hashes, which verify their password only. -/
structure PasswordHashing where
  hash : ℕ → String → String
  verify : String → String → Bool
  needsRehash : String → Bool
  verify_hash : ∀ (salt : ℕ) (password other : String),
    verify (hash salt password) other = decide (other = password)

/-- Hashes that are the passwords. -/
def plainHashing : PasswordHashing where
  hash _ password := password
  verify passwordHash password := password = passwordHash
  needsRehash _ := false
  verify_hash _ _ _ := rfl

/-! ### Tables -/

/-- A row of `operators`; its id is its position. -/
structure OperatorRow where
  normalizedUsername : ℕ
  passwordHash : String
  passwordVersion : ℕ := 1
  isActive : Bool := true
  lastLoginAt : Option ℕ := none
  passwordChangedAt : ℕ
  deriving DecidableEq, Repr

/-- How a session came about: by a login or by a password change, with the password that it has
    verified or set, and the version of the password then. -/
structure SessionProvenance where
  byLogin : Bool
  password : String
  passwordVersion : ℕ
  deriving DecidableEq, Repr

/-- `operator_sessions.revoke_reason`. -/
inductive RevokeReason
  | LOGOUT | PASSWORD_CHANGED | OPERATOR_REQUEST
  deriving DecidableEq, Repr

/-- A row of `operator_sessions`; its id is its position. -/
structure SessionRow where
  operatorId : ℕ
  tokenHash : ℕ
  csrfTokenHash : ℕ
  expiresAt : ℕ
  revokedAt : Option ℕ := none
  revokeReason : Option RevokeReason := none
  provenance : SessionProvenance
  deriving DecidableEq, Repr

/-- The tables of operators and sessions. -/
structure AuthTables where
  operators : List OperatorRow
  sessions : List SessionRow
  deriving DecidableEq, Repr

/-- `SELECT * FROM operators WHERE normalized_username = $1`. -/
def AuthTables.findOperator (db : AuthTables) (normalizedUsername : ℕ) : Option (ℕ × OperatorRow) :=
  findRow (·.normalizedUsername = normalizedUsername) db.operators

/-- `createOperator`, whose username is `UNIQUE`. -/
def createOperator (hashing : PasswordHashing) (normalizedUsername : ℕ) (password : String)
    (salt now : ℕ) (db : AuthTables) : Except ServiceError AuthTables := do
  ensure (∀ operator ∈ db.operators, operator.normalizedUsername ≠ normalizedUsername)
    (conflict .OPERATOR_EXISTS "An operator with that username already exists.")
  return { db with
    operators := db.operators ++
      [{ normalizedUsername, passwordHash := hashing.hash salt password, passwordChangedAt := now }] }

/-- The tokens of a new session, and how long it lasts. -/
structure SessionTokens where
  sessionToken : ℕ
  csrfToken : ℕ
  sessionTtlSeconds : ℕ
  deriving DecidableEq, Repr

/-- `NewOperatorSession`. -/
structure NewOperatorSession where
  sessionId : ℕ
  sessionToken : ℕ
  csrfToken : ℕ
  expiresAt : ℕ
  operatorId : ℕ
  passwordChangedAt : ℕ
  lastLoginAt : Option ℕ
  deriving DecidableEq, Repr

/-- The row that `insertSession` writes. -/
def SessionTokens.sessionRow (tokens : SessionTokens) (operatorId now : ℕ)
    (provenance : SessionProvenance) : SessionRow where
  operatorId := operatorId
  tokenHash := tokens.sessionToken
  csrfTokenHash := tokens.csrfToken
  expiresAt := now + tokens.sessionTtlSeconds * 1000
  provenance := provenance

/-- `insertSession`, whose `token_hash` is `UNIQUE`. -/
def insertSession (operatorId : ℕ) (operator : OperatorRow) (tokens : SessionTokens) (now : ℕ)
    (provenance : SessionProvenance) (db : AuthTables) :
    Except ServiceError (NewOperatorSession × AuthTables) := do
  ensure (∀ session ∈ db.sessions, session.tokenHash ≠ tokens.sessionToken)
    (.constraint "operator_sessions_token_hash_key")
  return ({
      sessionId := db.sessions.length, sessionToken := tokens.sessionToken,
      csrfToken := tokens.csrfToken, expiresAt := now + tokens.sessionTtlSeconds * 1000, operatorId,
      passwordChangedAt := operator.passwordChangedAt, lastLoginAt := operator.lastLoginAt },
    { db with sessions := db.sessions ++ [tokens.sessionRow operatorId now provenance] })

/-! ### Logins -/

/-- `AuthenticateOperatorOutcome`. -/
inductive AuthenticateOperatorOutcome
  | invalid
  | rateLimited (retryAfterSeconds : ℕ)
  | authenticated (session : NewOperatorSession)
  deriving DecidableEq, Repr

/-- What a login decides once it has locked its row: it is refused, with the state to be saved, or
    the password of an operator is right. -/
inductive LoginDecision
  | refused (state : LoginRateLimitState) (outcome : AuthenticateOperatorOutcome)
  | verified (operatorId : ℕ) (operator : OperatorRow)
  deriving DecidableEq, Repr

/-- The operator with the username, if it is active and the password is right. -/
def verifiedOperator (hashing : PasswordHashing) (operator : Option (ℕ × OperatorRow))
    (password : String) : Option (ℕ × OperatorRow) :=
  operator.filter fun (_, row) => row.isActive && hashing.verify row.passwordHash password

/-- The decision of `authenticateOperatorOutcome`. -/
def decideLogin (hashing : PasswordHashing) (config : LoginRateLimitConfig)
    (operator : Option (ℕ × OperatorRow)) (password : String) (state : LoginRateLimitState)
    (now : ℕ) : LoginDecision :=
  let normalized := normalizeLoginRateLimitState state now config
  match loginRetryAfterSeconds normalized now with
  | some retryAfterSeconds => .refused normalized (.rateLimited retryAfterSeconds)
  | none =>
    match verifiedOperator hashing operator password with
    | some (operatorId, row) => .verified operatorId row
    | none =>
      let failed := registerLoginFailure normalized now config
      .refused failed
        (match loginRetryAfterSeconds failed now with
          | some retryAfterSeconds => .rateLimited retryAfterSeconds
          | none => .invalid)

/-- A login: the username, the password, the salt of a new hash of it, and the tokens. -/
structure AuthenticateOperatorInput where
  normalizedUsername : ℕ
  password : String
  salt : ℕ
  tokens : SessionTokens
  deriving DecidableEq, Repr

/-- The row of an operator after its login: a hash with old options is replaced. -/
def OperatorRow.loggedIn (hashing : PasswordHashing) (row : OperatorRow) (password : String)
    (salt now : ℕ) : OperatorRow :=
  { row with
    passwordHash :=
      if hashing.needsRehash row.passwordHash then hashing.hash salt password else row.passwordHash
    lastLoginAt := some now }

/-- The statements of a login after the password was right, on operators and sessions. -/
def completeLogin (hashing : PasswordHashing) (input : AuthenticateOperatorInput) (operatorId : ℕ)
    (operator : OperatorRow) (now : ℕ) (db : AuthTables) :
    Except ServiceError (NewOperatorSession × AuthTables) := do
  let (session, db) ← insertSession operatorId operator input.tokens now
    ⟨true, input.password, operator.passwordVersion⟩ db
  return ({ session with lastLoginAt := some now },
    { db with
      operators := db.operators.modify operatorId
        (·.loggedIn hashing input.password input.salt now) })

/-- The tables that a login with one username uses: the row of its key among them. -/
structure LoginTables extends AuthTables where
  rateLimit : Option LoginRateLimitState
  deriving DecidableEq, Repr

/-- When a login has begun, has locked its row, and has ended. -/
structure LoginTimes where
  startedAt : ℕ
  lockedAt : ℕ
  finishedAt : ℕ
  deriving DecidableEq, Repr

/-- `authenticateOperatorOutcome(input)`, when nobody interferes. -/
def authenticateOperatorOutcome (hashing : PasswordHashing) (config : LoginRateLimitConfig)
    (input : AuthenticateOperatorInput) (times : LoginTimes) (db : LoginTables) :
    Except ServiceError (AuthenticateOperatorOutcome × LoginTables) :=
  match decideLogin hashing config (db.findOperator input.normalizedUsername) input.password
      (db.rateLimit.getD (newRateLimit times.startedAt)) times.lockedAt with
  | .refused state outcome => return (outcome, { db with rateLimit := some state })
  | .verified operatorId operator => do
    let (session, tables) ←
      completeLogin hashing input operatorId operator times.finishedAt db.toAuthTables
    return (.authenticated session, { tables with rateLimit := none })

/-! ### Sessions -/

/-- `s.revoked_at IS NULL AND s.expires_at > clock_timestamp() AND o.is_active`. -/
def AuthTables.authenticates (db : AuthTables) (now : ℕ) (session : SessionRow) : Bool :=
  session.revokedAt.isNone && decide (now < session.expiresAt) &&
    db.operators[session.operatorId]?.any (·.isActive)

/-- `loadSession`, and the query of `getAuthenticatedOperatorSession`. -/
def AuthTables.loadSession (db : AuthTables) (now sessionToken : ℕ) : Option (ℕ × SessionRow) :=
  findRow (fun session => session.tokenHash = sessionToken && db.authenticates now session)
    db.sessions

/-- The query of `requireAuthMutationContext`, which also finds a revoked session. -/
def AuthTables.findContext (db : AuthTables) (now sessionToken : ℕ) : Option (ℕ × SessionRow) :=
  findRow (fun session => session.tokenHash = sessionToken && decide (now < session.expiresAt) &&
    db.operators[session.operatorId]?.any (·.isActive)) db.sessions

/-- `requestAuthTokens(request)`. -/
structure RequestTokens where
  sessionToken : Option ℕ
  csrfCookie : Option ℕ
  csrfHeader : Option ℕ
  deriving DecidableEq, Repr

/-- The error of a request without a session. -/
def authenticationRequired : ServiceError :=
  .app 401 .AUTHENTICATION_REQUIRED "Authentication is required."

/-- `assertCsrfToken(expectedHash, cookie, header)`. -/
def assertCsrfToken (expectedHash : ℕ) (tokens : RequestTokens) : Except ServiceError Unit :=
  ensure (tokens.csrfCookie = tokens.csrfHeader ∧ tokens.csrfHeader = some expectedHash)
    (.app 403 .CSRF_INVALID "The request could not be verified.")

/-- `requireMutationSession(client, input)`. -/
def requireMutationSession (db : AuthTables) (now : ℕ) (tokens : RequestTokens) :
    Except ServiceError (ℕ × SessionRow) := do
  let sessionToken ← require tokens.sessionToken authenticationRequired
  let session ← require (db.loadSession now sessionToken) authenticationRequired
  assertCsrfToken session.2.csrfTokenHash tokens
  return session

/-- `requireAuthMutationContext(input)`. -/
def requireAuthMutationContext (db : AuthTables) (now : ℕ) (tokens : RequestTokens) :
    Except ServiceError (ℕ × SessionRow) := do
  let sessionToken ← require tokens.sessionToken authenticationRequired
  let session ← require (db.findContext now sessionToken) authenticationRequired
  assertCsrfToken session.2.csrfTokenHash tokens
  return session

/-- A session is revoked. -/
def SessionRow.revoke (session : SessionRow) (reason : RevokeReason) (now : ℕ) : SessionRow :=
  { session with revokedAt := some now, revokeReason := some reason }

/-- The `UPDATE` of `logoutOperator`. -/
def completeLogout (sessionId now : ℕ) (db : AuthTables) : AuthTables :=
  { db with
    sessions := updateWhere (fun id session => id = sessionId && session.revokedAt.isNone)
      (·.revoke .LOGOUT now) db.sessions }

/-- The `SELECT … FOR UPDATE` of `revokeOperatorSession`. -/
def AuthTables.isRevocable (db : AuthTables) (targetSessionId operatorId now : ℕ) : Bool :=
  db.sessions[targetSessionId]?.any fun session =>
    session.operatorId = operatorId && session.revokedAt.isNone && decide (now < session.expiresAt)

/-- The `UPDATE` of `revokeOperatorSession`. -/
def completeRevocation (targetSessionId now : ℕ) (db : AuthTables) : AuthTables :=
  { db with
    sessions := updateWhere (fun id _ => id = targetSessionId) (·.revoke .OPERATOR_REQUEST now)
      db.sessions }

/-! ### Password changes -/

/-- A password change: the passwords, the salt of the new hash, and the replacement tokens. -/
structure ChangeOperatorPasswordInput where
  currentPassword : String
  newPassword : String
  salt : ℕ
  tokens : SessionTokens
  deriving DecidableEq, Repr

/-- What `changeOperatorPasswordOutcome` decides once it has locked the operator. -/
inductive PasswordChangeDecision
  | invalidCurrent
  | reused
  | changed (operator : OperatorRow)
  deriving DecidableEq, Repr

/-- The decision of `changeOperatorPasswordOutcome`. -/
def decidePasswordChange (hashing : PasswordHashing) (operator : Option OperatorRow)
    (input : ChangeOperatorPasswordInput) : PasswordChangeDecision :=
  match operator.filter fun row =>
      row.isActive && hashing.verify row.passwordHash input.currentPassword with
  | none => .invalidCurrent
  | some row => if hashing.verify row.passwordHash input.newPassword then .reused else .changed row

/-- The row of an operator after a password change. -/
def OperatorRow.withPassword (hashing : PasswordHashing) (row : OperatorRow)
    (input : ChangeOperatorPasswordInput) (now : ℕ) : OperatorRow :=
  { row with
    passwordHash := hashing.hash input.salt input.newPassword
    passwordVersion := row.passwordVersion + 1
    passwordChangedAt := now }

/-- The sessions that a password change revokes. -/
def SessionRow.isActiveOf (operatorId : ℕ) (session : SessionRow) : Bool :=
  session.operatorId = operatorId && session.revokedAt.isNone

/-- The statements of `changeOperatorPasswordOutcome` after the passwords were right. -/
def completePasswordChange (hashing : PasswordHashing) (input : ChangeOperatorPasswordInput)
    (operatorId : ℕ) (operator : OperatorRow) (now : ℕ) (db : AuthTables) :
    Except ServiceError (NewOperatorSession × AuthTables) := do
  let changed := operator.withPassword hashing input now
  insertSession operatorId changed input.tokens now
    ⟨false, input.newPassword, changed.passwordVersion⟩
    { operators := db.operators.modify operatorId (·.withPassword hashing input now),
      sessions := updateWhere (fun _ session => session.isActiveOf operatorId)
        (·.revoke .PASSWORD_CHANGED now) db.sessions }

end ResearchWorkbench
