import Mathlib.Data.List.Induction
import ResearchWorkbench.Services.Auth

namespace ResearchWorkbench

/-!
# How long a login is blocked

Logins with one username, one after the other, at times that do not decrease.

* `LoginAttempt`, `LoginTables.attempt` — a login and what it leaves; one that fails leaves nothing;
* `verifiesPassword`, `bringsToMaximum` — the logins that come to the password, and those that block
  the username;
* `attempt_cases` — what a login does to the row of the username;
* `BlocksHold` — no password is verified during a block, and who waits as told is not refused by it;
* `OutlivesWindow` — the row is blocked longer than its window lasts;
* `blocks_hold_iff` — all blocks hold exactly if no login meets a row that is blocked although its
  window is over.

`normalizeLoginRateLimitState` forgets the block with the window.
-/

/-- A login, and when it is made. -/
structure LoginAttempt where
  input : AuthenticateOperatorInput
  times : LoginTimes
  deriving DecidableEq, Repr

section

variable (hashing : PasswordHashing) (config : LoginRateLimitConfig)

namespace LoginTables

/-- The row that a login locks. -/
def lockedRow (db : LoginTables) (a : LoginAttempt) : LoginRateLimitState :=
  db.rateLimit.getD (newRateLimit a.times.startedAt)

/-- The same, normalized. -/
def normalizedRow (db : LoginTables) (a : LoginAttempt) : LoginRateLimitState :=
  normalizeLoginRateLimitState (db.lockedRow a) a.times.lockedAt config

/-- The row after a failure. -/
def failedRow (db : LoginTables) (a : LoginAttempt) : LoginRateLimitState :=
  registerLoginFailure (db.normalizedRow config a) a.times.lockedAt config

/-- The reply to a failure. -/
def failedOutcome (db : LoginTables) (a : LoginAttempt) : AuthenticateOperatorOutcome :=
  match loginRetryAfterSeconds (db.failedRow config a) a.times.lockedAt with
  | some seconds => .rateLimited seconds
  | none => .invalid

/-- What a login leaves. -/
def attempt (db : LoginTables) (a : LoginAttempt) : LoginTables :=
  match authenticateOperatorOutcome hashing config a.input a.times db with
  | .ok (_, after) => after
  | .error _ => db

/-- What a login replies. -/
def outcome (db : LoginTables) (a : LoginAttempt) : Option AuthenticateOperatorOutcome :=
  (authenticateOperatorOutcome hashing config a.input a.times db).toOption.map Prod.fst

/-- The login is not refused for a block, and comes to the password. -/
def verifiesPassword (db : LoginTables) (a : LoginAttempt) : Prop :=
  loginRetryAfterSeconds (db.normalizedRow config a) a.times.lockedAt = none

/-- The operator, if its password is right. -/
def verified (db : LoginTables) (a : LoginAttempt) : Option (ℕ × OperatorRow) :=
  verifiedOperator hashing (db.findOperator a.input.normalizedUsername) a.input.password

/-- The login fails, and brings the count to the maximum. -/
def bringsToMaximum (db : LoginTables) (a : LoginAttempt) : Prop :=
  db.verifiesPassword config a ∧ db.verified hashing a = none ∧
    config.maximumAttempts ≤ (db.normalizedRow config a).attemptCount + 1

end LoginTables

/-- The row is blocked, and its window is over. -/
def OutlivesWindow (state : LoginRateLimitState) (now : ℕ) : Prop :=
  (∃ expiry ∈ state.blockedUntil, now < expiry) ∧
    state.windowStartedAt + config.windowSeconds * 1000 ≤ now

instance (state : LoginRateLimitState) (now : ℕ) : Decidable (OutlivesWindow config state now) :=
  inferInstanceAs (Decidable ((∃ expiry ∈ state.blockedUntil, now < expiry) ∧ _ ≤ now))

/-- All blocks of a sequence of logins hold. -/
structure BlocksHold (db : LoginTables) (attempts : List LoginAttempt) : Prop where
  /-- From the login that brings the count to the maximum on, no password is verified, and no session
  is created, until the block is over. -/
  blocked : ∀ before a between b after, attempts = before ++ a :: (between ++ b :: after) →
    (before.foldl (·.attempt hashing config) db).bringsToMaximum hashing config a →
    b.times.lockedAt < a.times.lockedAt + config.blockSeconds * 1000 →
    ¬((before ++ a :: between).foldl (·.attempt hashing config) db).verifiesPassword config b ∧
      ∀ session, ((before ++ a :: between).foldl (·.attempt hashing config) db).outcome hashing
        config b ≠ some (.authenticated session)
  /-- A login that comes as many seconds later as a refusal says is not refused by its block. -/
  retryAfter : ∀ before a after seconds, attempts = before ++ a :: after →
    (before.foldl (·.attempt hashing config) db).outcome hashing config a =
      some (.rateLimited seconds) →
    1 ≤ seconds ∧ ∀ now, a.times.lockedAt + seconds * 1000 ≤ now →
      ∀ state ∈ ((before ++ [a]).foldl (·.attempt hashing config) db).rateLimit,
        loginRetryAfterSeconds (normalizeLoginRateLimitState state now config) now = none

end

variable {hashing : PasswordHashing} {config : LoginRateLimitConfig} {db : LoginTables}
  {a b : LoginAttempt} {attempts between : List LoginAttempt} {state : LoginRateLimitState}
  {now expiry : ℕ}

/-! ### One login -/

theorem loginRetryAfterSeconds_eq_none_iff :
    loginRetryAfterSeconds state now = none ↔ ∀ expiry ∈ state.blockedUntil, expiry ≤ now := by
  unfold loginRetryAfterSeconds
  cases state.blockedUntil with
  | none => simp
  | some t => by_cases h : t ≤ now <;> simp [h]

/-- The seconds until the end of a block, rounded up. -/
theorem loginRetryAfterSeconds_eq_some {seconds : ℕ}
    (h : loginRetryAfterSeconds state now = some seconds) :
    1 ≤ seconds ∧ ∀ expiry ∈ state.blockedUntil, expiry ≤ now + seconds * 1000 := by
  unfold loginRetryAfterSeconds at h
  cases hblocked : state.blockedUntil with
  | none =>
    rw [hblocked] at h
    cases h
  | some t =>
    simp only [hblocked] at h
    split at h
    · cases h
    · cases h
      refine ⟨by omega, fun expiry hexpiry => ?_⟩
      cases hexpiry
      omega

theorem normalize_of_lt (h : now < state.windowStartedAt + config.windowSeconds * 1000) :
    normalizeLoginRateLimitState state now config = state := by
  rw [normalizeLoginRateLimitState, if_neg (by omega)]

theorem normalize_of_le (h : state.windowStartedAt + config.windowSeconds * 1000 ≤ now) :
    normalizeLoginRateLimitState state now config = ⟨0, now, none⟩ := by
  rw [normalizeLoginRateLimitState, if_pos h]

/-- A row is the same or new once it is normalized. -/
theorem blockedUntil_normalize
    (h : expiry ∈ (normalizeLoginRateLimitState state now config).blockedUntil) :
    normalizeLoginRateLimitState state now config = state := by
  unfold normalizeLoginRateLimitState at h ⊢
  split
  · rename_i hover
    rw [if_pos hover] at h
    cases h
  · rfl

/-- A login that meets a block is refused. -/
theorem decideLogin_of_blocked (hashing : PasswordHashing) {config : LoginRateLimitConfig}
    {db : LoginTables} {a : LoginAttempt} {seconds : ℕ}
    (h : loginRetryAfterSeconds (db.normalizedRow config a) a.times.lockedAt = some seconds) :
    decideLogin hashing config (db.findOperator a.input.normalizedUsername) a.input.password
      (db.lockedRow a) a.times.lockedAt =
        .refused (db.normalizedRow config a) (.rateLimited seconds) := by
  unfold LoginTables.normalizedRow at h ⊢
  simp only [decideLogin, h]

/-- A login without a block whose password is wrong fails. -/
theorem decideLogin_of_unverified {hashing : PasswordHashing} {config : LoginRateLimitConfig}
    {db : LoginTables} {a : LoginAttempt}
    (h : loginRetryAfterSeconds (db.normalizedRow config a) a.times.lockedAt = none)
    (hverified : db.verified hashing a = none) :
    decideLogin hashing config (db.findOperator a.input.normalizedUsername) a.input.password
      (db.lockedRow a) a.times.lockedAt =
        .refused (db.failedRow config a) (db.failedOutcome config a) := by
  unfold LoginTables.normalizedRow at h
  unfold LoginTables.verified at hverified
  simp only [decideLogin, h, hverified]
  rfl

/-- A login without a block whose password is right is let in. -/
theorem decideLogin_of_verified {hashing : PasswordHashing} {config : LoginRateLimitConfig}
    {db : LoginTables} {a : LoginAttempt} {operatorId : ℕ} {row : OperatorRow}
    (h : loginRetryAfterSeconds (db.normalizedRow config a) a.times.lockedAt = none)
    (hverified : db.verified hashing a = some (operatorId, row)) :
    decideLogin hashing config (db.findOperator a.input.normalizedUsername) a.input.password
      (db.lockedRow a) a.times.lockedAt = .verified operatorId row := by
  unfold LoginTables.normalizedRow at h
  unfold LoginTables.verified at hverified
  simp only [decideLogin, h, hverified]

/-- **A login.**  It is refused for a block and leaves the row; it fails and counts; or the password
is right and the row is deleted, or nothing is changed. -/
theorem attempt_cases (hashing : PasswordHashing) (config : LoginRateLimitConfig) (db : LoginTables)
    (a : LoginAttempt) :
    (∃ seconds, loginRetryAfterSeconds (db.normalizedRow config a) a.times.lockedAt = some seconds ∧
      db.outcome hashing config a = some (.rateLimited seconds) ∧
      (db.attempt hashing config a).rateLimit = some (db.normalizedRow config a)) ∨
    (db.verifiesPassword config a ∧ db.verified hashing a = none ∧
      (db.attempt hashing config a).rateLimit = some (db.failedRow config a) ∧
      db.outcome hashing config a = some (db.failedOutcome config a)) ∨
    (db.verifiesPassword config a ∧ (∃ found, db.verified hashing a = some found) ∧
      ((db.attempt hashing config a).rateLimit = none ∨ db.attempt hashing config a = db) ∧
      ∀ seconds, db.outcome hashing config a ≠ some (.rateLimited seconds)) := by
  cases hretry : loginRetryAfterSeconds (db.normalizedRow config a) a.times.lockedAt with
  | some seconds =>
    have hdecide := decideLogin_of_blocked hashing hretry
    have hrun : authenticateOperatorOutcome hashing config a.input a.times db =
        .ok (.rateLimited seconds, { db with rateLimit := some (db.normalizedRow config a) }) := by
      unfold authenticateOperatorOutcome
      rw [show db.rateLimit.getD _ = db.lockedRow a from rfl, hdecide]
      rfl
    refine .inl ⟨seconds, rfl, ?_, ?_⟩
    · rw [LoginTables.outcome, hrun]
      rfl
    · rw [LoginTables.attempt, hrun]
  | none =>
    right
    cases hverified : db.verified hashing a with
    | none =>
      have hdecide := decideLogin_of_unverified hretry hverified
      have hrun : authenticateOperatorOutcome hashing config a.input a.times db =
          .ok (db.failedOutcome config a, { db with rateLimit := some (db.failedRow config a) }) := by
        unfold authenticateOperatorOutcome
        rw [show db.rateLimit.getD _ = db.lockedRow a from rfl, hdecide]
        rfl
      refine .inl ⟨hretry, rfl, ?_, ?_⟩
      · rw [LoginTables.attempt, hrun]
      · rw [LoginTables.outcome, hrun]
        rfl
    | some found =>
      obtain ⟨operatorId, row⟩ := found
      have hdecide := decideLogin_of_verified hretry hverified
      have hrun : authenticateOperatorOutcome hashing config a.input a.times db = (do
          let completed ←
            completeLogin hashing a.input operatorId row a.times.finishedAt db.toAuthTables
          return (.authenticated completed.1, { completed.2 with rateLimit := none })) := by
        unfold authenticateOperatorOutcome
        rw [show db.rateLimit.getD _ = db.lockedRow a from rfl, hdecide]
      refine .inr ⟨hretry, ⟨_, rfl⟩, ?_, ?_⟩
      · rw [LoginTables.attempt, hrun]
        cases completeLogin hashing a.input operatorId row a.times.finishedAt db.toAuthTables with
        | ok result => exact .inl rfl
        | error e => exact .inr rfl
      · intro seconds
        rw [LoginTables.outcome, hrun]
        cases completeLogin hashing a.input operatorId row a.times.finishedAt db.toAuthTables with
        | ok result =>
          intro h
          cases h
        | error e =>
          intro h
          cases h

/-! ### During a block -/

/-- The failure that brings the count to the maximum blocks the row. -/
theorem rateLimit_of_bringsToMaximum (h : db.bringsToMaximum hashing config a) :
    ∃ state, (db.attempt hashing config a).rateLimit = some state ∧
      state.blockedUntil = some (a.times.lockedAt + config.blockSeconds * 1000) := by
  obtain ⟨hverifies, hnone, hmaximum⟩ := h
  have hnormalized : normalizeLoginRateLimitState (db.normalizedRow config a) a.times.lockedAt config =
      db.normalizedRow config a := by
    unfold LoginTables.normalizedRow
    rcases Nat.lt_or_ge a.times.lockedAt
      ((db.lockedRow a).windowStartedAt + config.windowSeconds * 1000) with hlt | hle
    · rw [normalize_of_lt hlt, normalize_of_lt hlt]
    · rw [normalize_of_le hle, normalize_of_lt]
      have := config.windowSeconds_bounds
      show a.times.lockedAt < a.times.lockedAt + _
      omega
  rcases attempt_cases hashing config db a with
    ⟨seconds, hretry, -⟩ | ⟨-, -, hrow, -⟩ | ⟨-, ⟨found, hfound⟩, -⟩
  · rw [LoginTables.verifiesPassword, hretry] at hverifies
    cases hverifies
  · refine ⟨_, hrow, ?_⟩
    simp only [LoginTables.failedRow, registerLoginFailure, hnormalized]
    rw [if_pos hmaximum]
  · rw [hnone] at hfound
    cases hfound

/-- A login during a block, in its window, is refused and leaves the row as it is. -/
theorem attempt_of_blocked (hrow : db.rateLimit = some state) {expiry : ℕ}
    (hblocked : state.blockedUntil = some expiry) (hlt : a.times.lockedAt < expiry)
    (hwindow : ¬OutlivesWindow config state a.times.lockedAt) :
    ¬db.verifiesPassword config a ∧
      (∀ session, db.outcome hashing config a ≠ some (.authenticated session)) ∧
      (db.attempt hashing config a).rateLimit = some state := by
  have hlocked : db.lockedRow a = state := by rw [LoginTables.lockedRow, hrow, Option.getD_some]
  have hstate : db.normalizedRow config a = state := by
    rw [LoginTables.normalizedRow, hlocked]
    refine normalize_of_lt ?_
    by_contra hle
    exact hwindow ⟨⟨expiry, hblocked, hlt⟩, Nat.not_lt.mp hle⟩
  have hnot : ¬db.verifiesPassword config a := by
    rw [LoginTables.verifiesPassword, hstate, loginRetryAfterSeconds_eq_none_iff]
    intro hall
    have := hall expiry hblocked
    omega
  rcases attempt_cases hashing config db a with
    ⟨seconds, -, houtcome, hafter⟩ | ⟨hverifies, -⟩ | ⟨hverifies, -⟩
  · refine ⟨hnot, fun session => ?_, by rw [hafter, hstate]⟩
    rw [houtcome]
    intro h
    cases h
  · exact absurd hverifies hnot
  · exact absurd hverifies hnot

/-- The logins of a sequence meet no row that is blocked longer than its window. -/
def NoneOutlives (hashing : PasswordHashing) (config : LoginRateLimitConfig) (db : LoginTables)
    (attempts : List LoginAttempt) : Prop :=
  ∀ before b after, attempts = before ++ b :: after →
    ∀ state ∈ (before.foldl (·.attempt hashing config) db).rateLimit,
      ¬OutlivesWindow config state b.times.lockedAt

theorem noneOutlives_nil : NoneOutlives hashing config db [] := by
  intro before b after heq
  exact absurd heq.symm (by simp)

theorem noneOutlives_cons_iff : NoneOutlives hashing config db (a :: attempts) ↔
    (∀ state ∈ db.rateLimit, ¬OutlivesWindow config state a.times.lockedAt) ∧
      NoneOutlives hashing config (db.attempt hashing config a) attempts := by
  constructor
  · intro h
    refine ⟨h [] a attempts rfl, fun before b after heq => ?_⟩
    exact h (a :: before) b after (by rw [heq]; rfl)
  · rintro ⟨hfirst, hrest⟩ before b after heq
    rcases before with _ | ⟨c, before⟩
    · cases heq
      exact hfirst
    · cases heq
      exact hrest before b after rfl

/-- A blocked row stays as it is up to the end of the block, by induction on the logins. -/
theorem rateLimit_of_blocked (hrow : db.rateLimit = some state) {expiry : ℕ}
    (hblocked : state.blockedUntil = some expiry)
    (hlt : ∀ b ∈ between, b.times.lockedAt < expiry)
    (hnone : NoneOutlives hashing config db between) :
    (between.foldl (·.attempt hashing config) db).rateLimit = some state := by
  induction between generalizing db with
  | nil => exact hrow
  | cons b between ih =>
    rw [List.forall_mem_cons] at hlt
    obtain ⟨hfirst, hrest⟩ := noneOutlives_cons_iff.mp hnone
    exact ih (attempt_of_blocked hrow hblocked hlt.1 (hfirst state hrow)).2.2 hlt.2 hrest

/-! ### Where a block comes from -/

/-- A row that is blocked was blocked by a login that brought the count to the maximum, by induction
on the logins from the last one on. -/
theorem exists_bringsToMaximum (hdb : ∀ state ∈ db.rateLimit, state.blockedUntil = none)
    {before : List LoginAttempt}
    (hrow : (before.foldl (·.attempt hashing config) db).rateLimit = some state) {expiry : ℕ}
    (hblocked : state.blockedUntil = some expiry) :
    ∃ first a between, before = first ++ a :: between ∧
      (first.foldl (·.attempt hashing config) db).bringsToMaximum hashing config a ∧
      expiry = a.times.lockedAt + config.blockSeconds * 1000 := by
  induction before using List.reverseRecOn generalizing state with
  | nil =>
    rw [hdb state hrow] at hblocked
    cases hblocked
  | append_singleton before a ih =>
    rw [List.foldl_concat] at hrow
    -- the block is older than the last login
    have holder (h : (before.foldl (·.attempt hashing config) db).rateLimit = some state) :
        ∃ first a' between, before ++ [a] = first ++ a' :: between ∧
          (first.foldl (·.attempt hashing config) db).bringsToMaximum hashing config a' ∧
          expiry = a'.times.lockedAt + config.blockSeconds * 1000 := by
      obtain ⟨first, a', between, hbefore, hmaximum, hexpiry⟩ := ih h hblocked
      exact ⟨first, a', between ++ [a], by rw [hbefore]; simp, hmaximum, hexpiry⟩
    rcases attempt_cases hashing config (before.foldl (·.attempt hashing config) db) a with
      ⟨seconds, -, -, hafter⟩ | ⟨hverifies, hnone, hafter, -⟩ | ⟨-, -, hafter | hafter, -⟩
    · have hstate := Option.some.inj (hrow.symm.trans hafter)
      have hsame := blockedUntil_normalize (show expiry ∈
          (LoginTables.normalizedRow config _ a).blockedUntil by
        rw [hstate] at hblocked
        exact hblocked)
      have hlocked : (before.foldl (·.attempt hashing config) db).lockedRow a = state :=
        hsame.symm.trans hstate.symm
      cases hbefore : (before.foldl (·.attempt hashing config) db).rateLimit with
      | none =>
        rw [LoginTables.lockedRow, hbefore] at hlocked
        rw [← hlocked] at hblocked
        cases hblocked
      | some row =>
        rw [LoginTables.lockedRow, hbefore, Option.getD_some] at hlocked
        exact holder (hbefore.trans (congrArg some hlocked))
    · have hstate := Option.some.inj (hrow.symm.trans hafter)
      rw [hstate] at hblocked
      unfold LoginTables.failedRow registerLoginFailure at hblocked
      simp only at hblocked
      split at hblocked
      · rename_i hmaximum
        refine ⟨before, a, [], rfl, ⟨hverifies, hnone, ?_⟩, (Option.some.inj hblocked).symm⟩
        refine hmaximum.trans (Nat.succ_le_succ ?_)
        unfold normalizeLoginRateLimitState
        split
        · exact Nat.zero_le _
        · exact le_rfl
      · cases hblocked
    · rw [hafter] at hrow
      cases hrow
    · rw [hafter] at hrow
      exact holder hrow

/-- **Blocks.**  At times that do not decrease, all blocks hold exactly if no login meets a row that is
blocked although its window is over. -/
theorem blocks_hold_iff (hashing : PasswordHashing) (config : LoginRateLimitConfig) (db : LoginTables)
    (attempts : List LoginAttempt) (hdb : ∀ state ∈ db.rateLimit, state.blockedUntil = none)
    (htimes : attempts.Pairwise fun a b => a.times.lockedAt ≤ b.times.lockedAt) :
    BlocksHold hashing config db attempts ↔ NoneOutlives hashing config db attempts := by
  constructor
  · rintro h before b after rfl state hstate ⟨⟨expiry, hblocked, hlt⟩, hover⟩
    obtain ⟨first, a, between, rfl, hmaximum, rfl⟩ := exists_bringsToMaximum hdb hstate hblocked
    have hattempts : (first ++ a :: between) ++ b :: after =
        first ++ a :: (between ++ b :: after) := by simp
    refine (h.blocked first a between b after hattempts hmaximum hlt).1 ?_
    -- the row is normalized, and the block forgotten
    rw [LoginTables.verifiesPassword, LoginTables.normalizedRow, LoginTables.lockedRow, hstate,
      Option.getD_some, normalize_of_le hover]
    rfl
  · intro hnone
    constructor
    · rintro before a between b after rfl hmaximum hlt
      obtain ⟨state, hrow, hblocked⟩ := rateLimit_of_bringsToMaximum hmaximum
      have hsplit : before ++ a :: (between ++ b :: after) =
          (before ++ a :: between) ++ b :: after := by simp
      have hfold : (before ++ a :: between).foldl (·.attempt hashing config) db =
          between.foldl (·.attempt hashing config)
            ((before.foldl (·.attempt hashing config) db).attempt hashing config a) := by
        rw [List.foldl_append, List.foldl_cons]
      have hearlier : ∀ c ∈ between, c.times.lockedAt <
          a.times.lockedAt + config.blockSeconds * 1000 := by
        intro c hc
        have hle : c.times.lockedAt ≤ b.times.lockedAt := by
          have := (List.pairwise_append.mp (List.pairwise_append.mp htimes).2.1.of_cons).2.2
          exact this c hc b List.mem_cons_self
        omega
      have hkept := rateLimit_of_blocked hrow hblocked hearlier (by
        intro before' c after' heq state' hstate'
        refine hnone (before ++ a :: before') c (after' ++ b :: after) ?_ state' ?_
        · rw [heq]
          simp
        · rwa [List.foldl_append, List.foldl_cons])
      rw [← hfold] at hkept
      have hresult := @attempt_of_blocked hashing config _ b state hkept _ hblocked hlt
        (hnone _ b after hsplit state hkept)
      exact ⟨hresult.1, hresult.2.1⟩
    · rintro before a after seconds rfl houtcome
      rw [List.foldl_concat]
      set db' := before.foldl (·.attempt hashing config) db
      -- the row that the refusal leaves is blocked no longer than it says
      have hleft : ∃ state, (db'.attempt hashing config a).rateLimit = some state ∧
          loginRetryAfterSeconds state a.times.lockedAt = some seconds := by
        rcases attempt_cases hashing config db' a with
          ⟨seconds', hretry, houtcome', hafter⟩ | ⟨-, -, hafter, houtcome'⟩ | ⟨-, -, -, hnever⟩
        · rw [houtcome] at houtcome'
          cases houtcome'
          exact ⟨_, hafter, hretry⟩
        · rw [houtcome] at houtcome'
          refine ⟨_, hafter, ?_⟩
          unfold LoginTables.failedOutcome at houtcome'
          cases hretry : loginRetryAfterSeconds (db'.failedRow config a) a.times.lockedAt with
          | none =>
            rw [hretry] at houtcome'
            cases houtcome'
          | some seconds' =>
            rw [hretry] at houtcome'
            cases houtcome'
            rfl
        · exact absurd houtcome (hnever seconds)
      obtain ⟨state, hafter, hretry⟩ := hleft
      obtain ⟨hpos, hexpiry⟩ := loginRetryAfterSeconds_eq_some hretry
      refine ⟨hpos, fun now hnow row hrow => ?_⟩
      rw [hafter] at hrow
      cases hrow
      rw [loginRetryAfterSeconds_eq_none_iff]
      intro expiry hmem
      have hsame := blockedUntil_normalize hmem
      rw [hsame] at hmem
      exact (hexpiry expiry hmem).trans hnow

/-! ### Examples -/

/-- Two attempts in a minute, and a block of a minute. -/
def minuteConfig : LoginRateLimitConfig := ⟨2, 60, 60, by decide, by decide, by decide⟩

/-- One operator, and no row of its username. -/
def loneOperator : LoginTables where
  operators := [{ normalizedUsername := 0, passwordHash := "right", passwordChangedAt := 0 }]
  sessions := []
  rateLimit := none

/-- A login with this password, at this time. -/
def loginAt (password : String) (now : ℕ) : LoginAttempt where
  input := { normalizedUsername := 0, password, salt := 0, tokens := ⟨1, 2, 60⟩ }
  times := ⟨now, now, now⟩

/-- After two failures in two seconds a right password is refused. -/
theorem early_failures_block :
    BlocksHold plainHashing minuteConfig loneOperator
      [loginAt "wrong" 0, loginAt "wrong" 2000, loginAt "right" 3000] := by
  refine (blocks_hold_iff plainHashing minuteConfig loneOperator _ ?_ (by decide)).mpr ?_
  · intro state h
    cases h
  · rw [noneOutlives_cons_iff, noneOutlives_cons_iff, noneOutlives_cons_iff]
    exact ⟨by decide +kernel, by decide +kernel, by decide +kernel, noneOutlives_nil⟩

/-- After a failure at the end of the window the right password is let in a second later. -/
theorem late_failure_blocks_briefly :
    ¬BlocksHold plainHashing minuteConfig loneOperator
      [loginAt "wrong" 0, loginAt "wrong" 59000, loginAt "right" 60000] := by
  intro h
  have hblocked := h.blocked [loginAt "wrong" 0] (loginAt "wrong" 59000) []
    (loginAt "right" 60000) [] rfl ⟨rfl, by decide +kernel, by decide +kernel⟩ (by decide)
  exact hblocked.1 (by
    show loginRetryAfterSeconds _ _ = none
    decide +kernel)

end ResearchWorkbench
