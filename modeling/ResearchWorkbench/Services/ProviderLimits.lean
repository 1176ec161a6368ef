import ResearchWorkbench.Domain.Jobs
import ResearchWorkbench.Library.Table
import ResearchWorkbench.Library.Transition

namespace ResearchWorkbench

/-!
# Provider permits

`lib/services/provider-limits.ts`, statement by statement.  `acquireProviderPermit` holds the row of
its rate window from `FOR UPDATE` to its commit; `extendProviderPermit` does not take that row, so an
extension may be committed between two statements of an acquisition, and each statement sees what
was committed before it.  `NOW()` is the time at which a transaction began.

* `ProviderLimitPolicy`, `validatePolicy` — the limits;
* `RateWindow`, `Permit`, `PermitSys` — the tables, the clock and the calls in progress;
* `sweep`, `decidePermit`, `PermitSys.commit` — the statements of `acquireProviderPermit`;
* `PermitSys.update` — the transactions of `extendProviderPermit` and `releaseProviderPermit`;
* `PermitSys.step` — any call going on, or time passing.
-/

/-! ### The policy -/

/-- `ProviderLimitPolicy`. -/
structure ProviderLimitPolicy where
  requestLimit : ℕ
  windowSeconds : ℕ
  concurrencyLimit : ℕ
  permitTtlMs : ℕ

/-- One row of the loop of `validatePolicy`. -/
def validateLimit (label : String) (value maximum : ℕ) : Except ServiceError Unit :=
  ensure (1 ≤ value ∧ value ≤ maximum)
    (.error (label ++ " must be an integer between 1 and " ++ toString maximum))

/-- `validatePolicy(policy)`. -/
def validatePolicy (policy : ProviderLimitPolicy) : Except ServiceError Unit := do
  validateLimit "requestLimit" policy.requestLimit 1000000
  validateLimit "windowSeconds" policy.windowSeconds 86400
  validateLimit "concurrencyLimit" policy.concurrencyLimit 10000
  validateLimit "permitTtlMs" policy.permitTtlMs 3600000

/-! ### Tables -/

/-- The key of `provider_rate_windows`. -/
structure PermitScope where
  provider : ℕ
  operation : ℕ
  deriving DecidableEq

/-- A row of `provider_rate_windows`.  Its copies of the policy and `in_flight` are never read. -/
structure RateWindow where
  windowStartedAt : ℕ
  requestCount : ℕ
  deriving DecidableEq

/-- A row of `provider_permits`; its id is its position. -/
structure Permit where
  scope : PermitScope
  ownerId : ℕ
  acquiredAt : ℕ
  expiresAt : ℕ
  releasedAt : Option ℕ
  deriving DecidableEq

/-- The permits of a provider's operation that are unreleased and unexpired at a time. -/
def activePermits (permits : List Permit) (scope : PermitScope) (time : ℕ) : ℕ :=
  permits.countP fun p => p.scope = scope ∧ p.releasedAt = none ∧ time < p.expiresAt

/-- The permits of a provider's operation granted since a time. -/
def grantedSince (permits : List Permit) (scope : PermitScope) (time : ℕ) : ℕ :=
  permits.countP fun p => p.scope = scope ∧ time ≤ p.acquiredAt

/-- The permit is released. -/
def Permit.release (p : Permit) (now : ℕ) : Permit := { p with releasedAt := some now }

/-! ### The statements of an acquisition -/

/-- What an acquisition knows after it released the expired permits: the window, rolled over if it
    had expired, and the permits. -/
structure Sweep where
  window : RateWindow
  windowExpired : Bool
  retryAfterMs : ℕ
  released : List ℕ

/-- The statements up to the `UPDATE` that releases expired permits. -/
def sweep (policy : ProviderLimitPolicy) (windows : PermitScope → Option RateWindow)
    (permits : List Permit) (now : ℕ) (scope : PermitScope) : Sweep :=
  let window := (windows scope).getD { windowStartedAt := now, requestCount := 0 }
  let windowEnd := window.windowStartedAt + policy.windowSeconds * 1000
  let windowExpired := decide (windowEnd ≤ now)
  { window := if windowExpired then { windowStartedAt := now, requestCount := 0 } else window
    windowExpired := windowExpired
    retryAfterMs := windowEnd - now
    released := idsWhere (fun _ p => p.scope = scope ∧ p.releasedAt = none ∧ p.expiresAt ≤ now)
      permits }

/-- The permits as the transaction of the acquisition sees them. -/
def Sweep.permits (swept : Sweep) (now : ℕ) (permits : List Permit) : List Permit :=
  updateWhere (fun i _ => i ∈ swept.released) (·.release now) permits

/-- `ProviderPermitDecision`; the id of a granted permit is that of the row. -/
inductive PermitDecision
  | allowed
  | concurrency (retryAfterMs : ℕ)
  | requestWindow (retryAfterMs : ℕ)
  deriving DecidableEq

/-- The count of the active permits, and the decision. -/
def decidePermit (policy : ProviderLimitPolicy) (swept : Sweep) (permits : List Permit) (now : ℕ)
    (scope : PermitScope) : PermitDecision :=
  let inFlight := activePermits (swept.permits now permits) scope now
  if policy.concurrencyLimit ≤ inFlight then .concurrency 250
  else if policy.requestLimit ≤ swept.window.requestCount then
    .requestWindow (if swept.windowExpired then policy.windowSeconds * 1000
      else swept.retryAfterMs)
  else .allowed

/-! ### The system -/

/-- A call and its arguments. -/
inductive PermitCall
  | acquire (scope : PermitScope) (ownerId : ℕ)
  | extend (permitId ownerId ttlMs : ℕ)
  | release (permitId ownerId : ℕ)

/-- How far a call is. -/
inductive PermitPhase
  /-- `BEGIN`. -/
  | begun
  /-- An acquisition that holds its window and has released expired permits. -/
  | swept (swept : Sweep)
  /-- An acquisition that has decided. -/
  | decided (swept : Sweep) (decision : PermitDecision)
  /-- The call has returned. -/
  | returned (allowed : Bool)
  /-- The transaction was rolled back. -/
  | aborted

/-- A call in progress, with its `NOW()`. -/
structure PermitTransaction where
  call : PermitCall
  now : ℕ
  phase : PermitPhase

/-- The clock, the committed tables and the calls, oldest first. -/
structure PermitSys where
  clock : ℕ
  windows : PermitScope → Option RateWindow
  permits : List Permit
  calls : List PermitTransaction

/-- The window that a call holds, and what it has done under it. -/
def PermitTransaction.held (c : PermitTransaction) : Option (PermitScope × Sweep) :=
  match c.call, c.phase with
  | .acquire scope _, .swept swept => some (scope, swept)
  | .acquire scope _, .decided swept _ => some (scope, swept)
  | _, _ => none

/-- A call holds the row of the window. -/
def PermitSys.windowLocked (s : PermitSys) (scope : PermitScope) : Bool :=
  s.calls.any fun c => c.held.any fun (held, _) => held = scope

/-- A call has updated the row of the permit and not committed. -/
def PermitSys.permitLocked (s : PermitSys) (i : ℕ) : Bool :=
  s.calls.any fun c => c.held.any fun (_, swept) => i ∈ swept.released

/-- The checks before the transaction. -/
def PermitCall.validate (policy : ProviderLimitPolicy) : PermitCall → Except ServiceError Unit
  | .acquire .. => validatePolicy policy
  | .extend _ _ ttlMs =>
    ensure (1 ≤ ttlMs ∧ ttlMs ≤ 3600000)
      (.error "ttlMs must be an integer between 1 and 3600000")
  | .release .. => return ()

/-- The call goes on to a phase. -/
def PermitSys.setPhase (s : PermitSys) (t : ℕ) (c : PermitTransaction) (phase : PermitPhase) :
    PermitSys :=
  { s with calls := s.calls.set t { c with phase := phase } }

/-- The row of a granted permit. -/
def newPermit (policy : ProviderLimitPolicy) (scope : PermitScope) (ownerId now : ℕ) : Permit where
  scope := scope
  ownerId := ownerId
  acquiredAt := now
  expiresAt := now + policy.permitTtlMs
  releasedAt := none

/-- The commit of an acquisition that has decided. -/
def PermitSys.commit (policy : ProviderLimitPolicy) (s : PermitSys) (scope : PermitScope)
    (ownerId now : ℕ) (swept : Sweep) (decision : PermitDecision) : PermitSys :=
  let permits := swept.permits now s.permits
  match decision with
  | .allowed =>
    { s with
      windows := Function.update s.windows scope
        (some { swept.window with requestCount := swept.window.requestCount + 1 })
      permits := permits ++ [newPermit policy scope ownerId now] }
  | _ =>
    { s with
      windows := Function.update s.windows scope (some swept.window)
      permits := permits }

/-- The one `UPDATE` of an extension or a release: the new row, none if the `WHERE` clause excludes
    the row, or the error of a `CHECK` of the table. -/
def PermitCall.update (now : ℕ) (p : Permit) : PermitCall → Except ServiceError (Option Permit)
  | .extend _ ownerId ttlMs =>
    if p.ownerId = ownerId ∧ p.releasedAt = none ∧ now < p.expiresAt then do
      ensure (p.acquiredAt < now + ttlMs) (.constraint "provider_permits_check")
      return some { p with expiresAt := now + ttlMs }
    else
      return none
  | .release _ ownerId =>
    if p.ownerId = ownerId ∧ p.releasedAt = none then do
      ensure (p.acquiredAt ≤ now) (.constraint "provider_permits_check1")
      return some (p.release now)
    else
      return none
  | .acquire .. => return none

/-- The permit an extension or a release names. -/
def PermitCall.permitId : PermitCall → Option ℕ
  | .extend permitId _ _ => some permitId
  | .release permitId _ => some permitId
  | .acquire .. => none

/-- A release also updates the row of the window. -/
def PermitCall.updatesWindow : PermitCall → Bool
  | .release .. => true
  | _ => false

/-- The transaction of an extension or a release.  It waits for a row that an acquisition has
    updated, and a release also for the row of the window. -/
def PermitSys.update (s : PermitSys) (t : ℕ) (c : PermitTransaction) (i : ℕ) : PermitSys :=
  if s.permitLocked i then s
  else
    match s.permits[i]? with
    | none => s.setPhase t c (.returned false)
    | some p =>
      match c.call.update c.now p with
      | .error _ => s.setPhase t c .aborted
      | .ok none => s.setPhase t c (.returned false)
      | .ok (some p') =>
        if c.call.updatesWindow ∧ s.windowLocked p.scope then s
        else { s with permits := s.permits.set i p' }.setPhase t c (.returned true)

/-- What can happen. -/
inductive PermitAct
  | tick (ms : ℕ)
  | begin (call : PermitCall)
  /-- The next statements of a call. -/
  | next (t : ℕ)
  /-- A call fails, or its process dies: the transaction is rolled back. -/
  | abort (t : ℕ)

/-- The next statements of a call. -/
def PermitSys.next (policy : ProviderLimitPolicy) (s : PermitSys) (t : ℕ) (c : PermitTransaction) :
    PermitSys :=
  match c.call, c.phase with
  | .acquire scope _, .begun =>
    if s.windowLocked scope then s
    else s.setPhase t c (.swept (sweep policy s.windows s.permits c.now scope))
  | .acquire scope _, .swept swept =>
    s.setPhase t c (.decided swept (decidePermit policy swept s.permits c.now scope))
  | .acquire scope ownerId, .decided swept decision =>
    (s.commit policy scope ownerId c.now swept decision).setPhase t c
      (.returned (decision = .allowed))
  | call, .begun =>
    match call.permitId with
    | some i => s.update t c i
    | none => s
  | _, _ => s

/-- What an action does. -/
def PermitSys.step (policy : ProviderLimitPolicy) (s : PermitSys) : PermitAct → PermitSys
  | .tick ms => { s with clock := s.clock + ms }
  | .begin call =>
    match call.validate policy with
    | .ok _ => { s with calls := s.calls ++ [⟨call, s.clock, .begun⟩] }
    | .error _ => s
  | .next t =>
    match s.calls[t]? with
    | some c => s.next policy t c
    | none => s
  | .abort t =>
    match s.calls[t]? with
    | some c =>
      match c.phase with
      | .returned _ => s
      | _ => s.setPhase t c .aborted
    | none => s

/-- The tables before any call. -/
def PermitSys.initial : PermitSys where
  clock := 0
  windows _ := none
  permits := []
  calls := []

end ResearchWorkbench
