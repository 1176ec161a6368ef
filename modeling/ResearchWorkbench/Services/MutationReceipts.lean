import ResearchWorkbench.Domain.Jobs
import ResearchWorkbench.Library.Table

namespace ResearchWorkbench

/-!
# Mutation receipts

`executeIdempotentResponse`, which the HTTP mutations run in, statement by statement, for any
number of requests at once.

* `Session` — a connection with its open transaction; `Session.enter` and `Session.leave` are
  `withTransaction` under the async-local client;
* `validateResponse`, `selectReceipt` — the checks of `executeIdempotentResponse`;
* `ReceiptSys`, `ReceiptAct`, `ReceiptSys.step` — the machine.

The operation of a request is arbitrary: it writes what it likes, enters and leaves
`withTransaction`, catches errors of its own statements, throws, or returns any response.  Its
writes have an arbitrary type `ε`.
-/

/-! ### Receipts -/

/-- The method of a mutation. -/
inductive MutationMethod
  | post | put | patch | delete
  deriving DecidableEq, Repr

/-- The primary key of `mutation_receipts`. -/
structure ReceiptKey where
  principalScope : String
  method : MutationMethod
  requestPath : String
  idempotencyKey : String
  deriving DecidableEq, Repr

/-- `MutationReceiptScope`. -/
structure MutationReceiptScope where
  key : ReceiptKey
  requestHash : String
  deriving DecidableEq, Repr

/-- A JavaScript number, as far as a response status is looked at. -/
inductive ResponseStatus
  | integer (n : ℤ)
  | nonInteger
  deriving DecidableEq, Repr

/-- `MutationResponse`. -/
structure MutationResponse where
  responseStatus : ResponseStatus
  responseBody : String
  deriving DecidableEq, Repr

/-- `MutationReceiptResult`. -/
structure MutationReceiptResult extends MutationResponse where
  replayed : Bool
  deriving DecidableEq, Repr

/-- A row of `mutation_receipts`. -/
structure MutationReceiptRow where
  key : ReceiptKey
  requestHash : String
  responseStatus : Option ResponseStatus
  responseBody : Option String
  deriving DecidableEq, Repr

/-- The row that the `INSERT` writes. -/
def MutationReceiptScope.newReceipt (scope : MutationReceiptScope) : MutationReceiptRow :=
  ⟨scope.key, scope.requestHash, none, none⟩

/-- The row after the `UPDATE`. -/
def MutationReceiptRow.complete (row : MutationReceiptRow) (response : MutationResponse) :
    MutationReceiptRow :=
  { row with
    responseStatus := some response.responseStatus, responseBody := some response.responseBody }

/-- `MAX_RECEIPT_RESPONSE_BYTES`. -/
def MAX_RECEIPT_RESPONSE_BYTES : ℕ := 4 * 1024 * 1024

/-- `reusedKey()`. -/
def reusedKey : ServiceError :=
  conflict .IDEMPOTENCY_KEY_REUSED
    "The idempotency key was already used for different request input."

/-- The error of a receipt without a response. -/
def requestIncomplete : ServiceError :=
  conflict .IDEMPOTENCY_REQUEST_INCOMPLETE
    "The original mutation has not completed. Retry after a short delay."

/-- The error of a response that cannot be stored. -/
def responseInvalid : ServiceError :=
  .app 500 .IDEMPOTENCY_RESPONSE_INVALID
    "The mutation returned a response that cannot be stored safely."

/-- `validateResponse(response)`; `parses` says whether `JSON.parse` takes the body. -/
def validateResponse (parses : String → Bool) (response : MutationResponse) :
    Except ServiceError Unit := do
  match response.responseStatus with
  | .integer n => ensure (200 ≤ n ∧ n ≤ 499) responseInvalid
  | .nonInteger => throw responseInvalid
  ensure (response.responseBody.utf8ByteSize ≤ MAX_RECEIPT_RESPONSE_BYTES)
    (.app 500 .IDEMPOTENCY_RESPONSE_TOO_LARGE
      "The mutation response exceeds the idempotency receipt limit.")
  ensure (parses response.responseBody) responseInvalid

/-- What `executeIdempotentResponse` answers when its `INSERT` met another receipt: the `SELECT`
    and the checks after it. -/
def selectReceipt (receipts : List MutationReceiptRow) (scope : MutationReceiptScope) :
    Except ServiceError MutationReceiptResult :=
  match receipts.find? (·.key = scope.key) with
  | none => .error reusedKey
  | some receipt =>
    if receipt.requestHash ≠ scope.requestHash then .error reusedKey
    else
      match receipt.responseStatus, receipt.responseBody with
      | some status, some body => .ok ⟨⟨status, body⟩, true⟩
      | _, _ => .error requestIncomplete

/-! ### Transactions -/

/-- A connection: the calls of `withTransaction` that are open on it, innermost first (whether each
    began the transaction), and what the transaction has written. -/
structure Session (ε : Type) where
  frames : List Bool
  receipt : Option MutationReceiptRow
  effects : List ε
  /-- A statement failed: PostgreSQL refuses the others until the transaction ends. -/
  aborted : Bool
  deriving DecidableEq, Repr

namespace Session

variable {ε : Type}

/-- A connection from the pool. -/
def idle : Session ε := ⟨[], none, [], false⟩

/-- `withTransaction` is called: it begins a transaction, or joins that of the client it finds. -/
def enter (c : Session ε) : Session ε := { c with frames := c.frames.isEmpty :: c.frames }

/-- The innermost call of `withTransaction` is left; says whether it ends the transaction. -/
def leave (c : Session ε) : Session ε × Bool :=
  match c.frames with
  | [] => (c, false)
  | owner :: frames => ({ c with frames := frames }, owner)

/-- The `UPDATE` of the receipt. -/
def complete (c : Session ε) (response : MutationResponse) : Session ε :=
  { c with receipt := c.receipt.map (·.complete response) }

/-- The connection after its transaction has ended. -/
def ended (c : Session ε) : Session ε := { c with receipt := none, effects := [], aborted := false }

end Session

/-! ### Requests -/

/-- Why a request ends without a response of its operation. -/
inductive RequestError
  | service (e : ServiceError)
  /-- The operation threw. -/
  | operation
  /-- The database refused a statement. -/
  | database
  deriving Repr

/-- Where a request is in `executeIdempotentResponse`. -/
inductive RequestPhase (ε : Type)
  | received
  | begun (session : Session ε)
  /-- The `INSERT` returned no row. -/
  | conflicted (session : Session ε)
  /-- The `SELECT` found a response to replay. -/
  | replaying (result : MutationReceiptResult) (session : Session ε)
  /-- The `INSERT` returned its row: the operation runs. -/
  | operating (session : Session ε)
  /-- The response of the operation is valid. -/
  | validated (response : MutationResponse) (session : Session ε)
  /-- The receipt is complete. -/
  | updated (response : MutationResponse) (session : Session ε)
  | responded (result : MutationReceiptResult)
  /-- The transaction was committed, but the server does not learn of it. -/
  | unacknowledged (response : MutationResponse)
  /-- The error left `withTransaction`, after its `ROLLBACK`. -/
  | failed (e : RequestError)
  /-- The process died, or its connection was lost. -/
  | lost
  deriving Repr

/-- A request; `written` collects, for the statements only, what its operation has written. -/
structure Request (ε : Type) where
  scope : MutationReceiptScope
  phase : RequestPhase ε
  written : List ε
  deriving Repr

/-- The open transaction of a request. -/
def RequestPhase.session? {ε : Type} : RequestPhase ε → Option (Session ε)
  | .begun c | .conflicted c | .replaying _ c | .operating c | .validated _ c | .updated _ c => some c
  | _ => none

/-- Whether an open transaction has inserted a receipt with this key. -/
def Request.holds {ε : Type} (r : Request ε) (key : ReceiptKey) : Bool :=
  (r.phase.session?.bind (·.receipt)).any (·.key = key)

/-! ### The machine -/

/-- The committed receipts and writes (each with the position of its request), and the requests. -/
structure ReceiptSys (ε : Type) where
  receipts : List MutationReceiptRow
  effects : List (ℕ × ε)
  requests : List (Request ε)
  deriving Repr

/-- What may happen next, to the request at a position. -/
inductive ReceiptAct (ε : Type)
  | receive (scope : MutationReceiptScope)
  /-- `BEGIN`. -/
  | begin (i : ℕ)
  | insertReceipt (i : ℕ)
  | selectReceipt (i : ℕ)
  | write (i : ℕ) (e : ε)
  /-- The operation calls `withTransaction`. -/
  | enterTransaction (i : ℕ)
  /-- A call of `withTransaction` by the operation returns. -/
  | leaveTransaction (i : ℕ)
  /-- A call of `withTransaction` by the operation throws, and the operation goes on. -/
  | catchTransaction (i : ℕ)
  /-- The operation throws. -/
  | throws (i : ℕ)
  | respond (i : ℕ) (response : MutationResponse)
  | updateReceipt (i : ℕ)
  /-- `COMMIT`; whether the server is told. -/
  | commit (i : ℕ) (acknowledged : Bool)
  /-- The next statement fails. -/
  | statementFails (i : ℕ)
  | lose (i : ℕ)

namespace ReceiptSys

variable {ε : Type}

/-- A request goes on. -/
def setPhase (s : ReceiptSys ε) (i : ℕ) (phase : RequestPhase ε) : ReceiptSys ε :=
  { s with requests := s.requests.modify i fun r => { r with phase := phase } }

/-- `COMMIT` of a transaction (of an aborted one: `ROLLBACK`). -/
def commitSession (s : ReceiptSys ε) (i : ℕ) (c : Session ε) : ReceiptSys ε :=
  if c.aborted then s
  else
    { s with
      receipts := s.receipts ++ c.receipt.toList,
      effects := s.effects ++ c.effects.map (i, ·) }

/-- The `INSERT … ON CONFLICT DO NOTHING`: it waits while another open transaction has inserted the
    key. -/
def insertReceipt (s : ReceiptSys ε) (i : ℕ) (scope : MutationReceiptScope) (c : Session ε) :
    ReceiptSys ε :=
  if s.requests.any (·.holds scope.key) then s
  else if s.receipts.any (·.key = scope.key) then s.setPhase i (.conflicted c)
  else s.setPhase i (.operating { c with receipt := some scope.newReceipt })

/-- A write of the operation; in an aborted transaction it fails, and the operation may go on. -/
def write (s : ReceiptSys ε) (i : ℕ) (c : Session ε) (e : ε) : ReceiptSys ε :=
  if c.aborted then s
  else
    { s with
      requests := s.requests.modify i fun r =>
        { r with
          phase := .operating { c with effects := c.effects ++ [e] }, written := r.written ++ [e] } }

/-- A call of `withTransaction` by the operation returns. -/
def leaveTransaction (s : ReceiptSys ε) (i : ℕ) (c : Session ε) : ReceiptSys ε :=
  match c.leave with
  | (c', true) => (s.commitSession i c).setPhase i (.operating c'.ended)
  | (c', false) => s.setPhase i (.operating c')

/-- A call of `withTransaction` by the operation throws. -/
def catchTransaction (s : ReceiptSys ε) (i : ℕ) (c : Session ε) : ReceiptSys ε :=
  match c.leave with
  | (c', true) => s.setPhase i (.operating c'.ended)
  | (c', false) => s.setPhase i (.operating c')

/-- The `COMMIT` of the call of `withTransaction` by `executeIdempotentResponse`, which then has the
    phase `phase`. -/
def commit (s : ReceiptSys ε) (i : ℕ) (c : Session ε) (phase : RequestPhase ε) : ReceiptSys ε :=
  match c.leave with
  | (_, true) => (s.commitSession i c).setPhase i phase
  | (_, false) => s.setPhase i phase

/-- One step. -/
def step (parses : String → Bool) (s : ReceiptSys ε) : ReceiptAct ε → ReceiptSys ε
  | .receive scope => { s with requests := s.requests ++ [⟨scope, .received, []⟩] }
  | .begin i =>
    match s.requests[i]? with
    | some ⟨_, .received, _⟩ => s.setPhase i (.begun Session.idle.enter)
    | _ => s
  | .insertReceipt i =>
    match s.requests[i]? with
    | some ⟨scope, .begun c, _⟩ => s.insertReceipt i scope c
    | _ => s
  | .selectReceipt i =>
    match s.requests[i]? with
    | some ⟨scope, .conflicted c, _⟩ =>
      match ResearchWorkbench.selectReceipt s.receipts scope with
      | .ok result => s.setPhase i (.replaying result c)
      | .error e => s.setPhase i (.failed (.service e))
    | _ => s
  | .write i e =>
    match s.requests[i]? with
    | some ⟨_, .operating c, _⟩ => s.write i c e
    | _ => s
  | .enterTransaction i =>
    match s.requests[i]? with
    | some ⟨_, .operating c, _⟩ => s.setPhase i (.operating c.enter)
    | _ => s
  | .leaveTransaction i =>
    match s.requests[i]? with
    | some ⟨_, .operating c, _⟩ => if 1 < c.frames.length then s.leaveTransaction i c else s
    | _ => s
  | .catchTransaction i =>
    match s.requests[i]? with
    | some ⟨_, .operating c, _⟩ => if 1 < c.frames.length then s.catchTransaction i c else s
    | _ => s
  | .throws i =>
    match s.requests[i]? with
    | some ⟨_, .operating _, _⟩ => s.setPhase i (.failed .operation)
    | _ => s
  | .respond i response =>
    match s.requests[i]? with
    | some ⟨_, .operating c, _⟩ =>
      if c.frames.length = 1 then
        match validateResponse parses response with
        | .ok () => s.setPhase i (.validated response c)
        | .error e => s.setPhase i (.failed (.service e))
      else s
    | _ => s
  | .updateReceipt i =>
    match s.requests[i]? with
    | some ⟨_, .validated response c, _⟩ =>
      if c.aborted then s.setPhase i (.failed .database)
      else s.setPhase i (.updated response (c.complete response))
    | _ => s
  | .commit i acknowledged =>
    match s.requests[i]? with
    | some ⟨_, .replaying result c, _⟩ =>
      s.commit i c (if acknowledged then .responded result else .failed .database)
    | some ⟨_, .updated response c, _⟩ =>
      s.commit i c (if acknowledged then .responded ⟨response, false⟩ else .unacknowledged response)
    | _ => s
  | .statementFails i =>
    match s.requests[i]? with
    | some ⟨_, .operating c, _⟩ => s.setPhase i (.operating { c with aborted := true })
    | some ⟨_, .received, _⟩ | some ⟨_, .begun _, _⟩ | some ⟨_, .conflicted _, _⟩
    | some ⟨_, .replaying _ _, _⟩ | some ⟨_, .validated _ _, _⟩ | some ⟨_, .updated _ _, _⟩ =>
      s.setPhase i (.failed .database)
    | _ => s
  | .lose i =>
    match s.requests[i]? with
    | some ⟨_, .received, _⟩ | some ⟨_, .begun _, _⟩ | some ⟨_, .conflicted _, _⟩
    | some ⟨_, .replaying _ _, _⟩ | some ⟨_, .operating _, _⟩ | some ⟨_, .validated _ _, _⟩
    | some ⟨_, .updated _ _, _⟩ => s.setPhase i .lost
    | _ => s

/-- Nothing has been received. -/
def initial : ReceiptSys ε := ⟨[], [], []⟩

end ReceiptSys

end ResearchWorkbench
