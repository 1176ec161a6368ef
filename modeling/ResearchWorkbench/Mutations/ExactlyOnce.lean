import ResearchWorkbench.Library.Transition
import ResearchWorkbench.Services.MutationReceipts

namespace ResearchWorkbench

/-!
# HTTP mutations are exactly-once

* `ExactlyOnce` — what holds of the receipts, the effects and the requests of one state;
* `Retries` — what a request that begins in this state gets;
* `ReceiptInv` — the invariant: who owns a key, and what each phase knows;
* `StepCase` — what a step does to the machine, `step_cases`;
* `mutations_exactly_once` — both properties in every reachable state, and what a commit settles
  for the rest of the run.

A key is owned by the request whose open transaction has inserted it, and from its commit on by the
request that committed it.  There is one owner at most, which the blocking `INSERT` keeps.
-/

variable {ε : Type}

/-! ### The property -/

/-- The response that a request has committed. -/
def Request.committed (r : Request ε) : Option MutationResponse :=
  match r.phase with
  | .responded ⟨response, false⟩ => some response
  | .unacknowledged response => some response
  | _ => none

/-- The operation of a request is under way, its transaction open. -/
def Request.isRunning (r : Request ε) : Bool :=
  match r.phase with
  | .operating _ | .validated _ _ | .updated _ _ => true
  | _ => false

/-- The receipt of a request with its response. -/
def Request.receipt (r : Request ε) (response : MutationResponse) : MutationReceiptRow :=
  r.scope.newReceipt.complete response

/-- The committed receipts of a key. -/
def ReceiptSys.receiptsOf (s : ReceiptSys ε) (key : ReceiptKey) : List MutationReceiptRow :=
  s.receipts.filter (·.key = key)

/-- The committed effects of the requests with a key. -/
def ReceiptSys.effectsOf (s : ReceiptSys ε) (key : ReceiptKey) : List (ℕ × ε) :=
  s.effects.filter fun (i, _) => s.requests[i]?.any (·.scope.key = key)

/-- **Exactly once.**  Receipts, effects and answers of one state. -/
structure ExactlyOnce (parses : String → Bool) (s : ReceiptSys ε) : Prop where
  /-- A key has neither a receipt nor an effect, or the one complete receipt of the one request that
      committed it, with all that the operation of this request wrote and nothing else. -/
  together : ∀ key, s.receiptsOf key = [] ∧ s.effectsOf key = [] ∨
    ∃ (i : ℕ) (r : Request ε) (response : MutationResponse), s.requests[i]? = some r ∧
      r.scope.key = key ∧ r.committed = some response ∧
      s.receiptsOf key = [r.receipt response] ∧ s.effectsOf key = r.written.map (i, ·) ∧
      ∀ (j : ℕ) (q : Request ε), s.requests[j]? = some q → q.scope.key = key →
        q.committed.isSome → j = i
  /-- An answer is that of the receipt, whose hash is that of the request; a replay has not run the
      operation. -/
  answered : ∀ (i : ℕ) (r : Request ε) (result : MutationReceiptResult),
    s.requests[i]? = some r → r.phase = .responded result →
      s.receiptsOf r.scope.key = [r.receipt result.toMutationResponse] ∧
        (result.replayed → r.written = [])
  /-- The refusals: of a key that is committed with another hash, without running the operation,
      and of a response that is not valid. -/
  refused : ∀ (i : ℕ) (r : Request ε) (e : ServiceError),
    s.requests[i]? = some r → r.phase = .failed (.service e) →
      (e = reusedKey ∧ r.written = [] ∧
        ∃ row, s.receiptsOf r.scope.key = [row] ∧ row.requestHash ≠ r.scope.requestHash) ∨
      ∃ response, validateResponse parses response = .error e
  /-- Without its commit a request has no effect, whatever its operation wrote. -/
  noEffect : ∀ (i : ℕ) (r : Request ε), s.requests[i]? = some r → r.committed = none →
    ∀ e, (i, e) ∉ s.effects
  /-- An operation runs while its key has no receipt, and no other operation of the key does. -/
  exclusive : ∀ (i : ℕ) (r : Request ε), s.requests[i]? = some r → r.isRunning →
    s.receiptsOf r.scope.key = [] ∧
      ∀ (j : ℕ) (q : Request ε), s.requests[j]? = some q → q.isRunning →
        q.scope.key = r.scope.key → j = i

/-- **Retries.**  What a request that has begun its transaction gets. -/
structure Retries (parses : String → Bool) (s : ReceiptSys ε) : Prop where
  /-- Without a receipt, and with no open transaction that holds the key, it runs its operation. -/
  afresh : ∀ (i : ℕ) (r : Request ε) (c : Session ε), s.requests[i]? = some r →
    r.phase = .begun c → s.receiptsOf r.scope.key = [] →
    (∀ (j : ℕ) (q : Request ε), s.requests[j]? = some q → ¬ q.holds r.scope.key) →
      s.step parses (.insertReceipt i) =
        s.setPhase i (.operating ⟨[true], some r.scope.newReceipt, [], false⟩) ∧ r.written = []
  /-- With a receipt of its hash, it replays the response. -/
  replay : ∀ (i : ℕ) (r : Request ε) (c : Session ε) (row : MutationReceiptRow),
    s.requests[i]? = some r → r.phase = .begun c → s.receiptsOf r.scope.key = [row] →
    row.requestHash = r.scope.requestHash →
      ∃ response, row = r.receipt response ∧
        [.insertReceipt i, .selectReceipt i, .commit i true].foldl (ReceiptSys.step parses) s =
          s.setPhase i (.responded ⟨response, true⟩)
  /-- With a receipt of another hash, it is refused. -/
  refuse : ∀ (i : ℕ) (r : Request ε) (c : Session ε) (row : MutationReceiptRow),
    s.requests[i]? = some r → r.phase = .begun c → s.receiptsOf r.scope.key = [row] →
    row.requestHash ≠ r.scope.requestHash →
      [.insertReceipt i, .selectReceipt i].foldl (ReceiptSys.step parses) s =
        s.setPhase i (.failed (.service reusedKey))

/-! ### The invariant -/

/-- The session of a running operation: its nested calls of `withTransaction` did not begin the
    transaction, and the transaction holds what the operation wrote. -/
structure SessionOk (scope : MutationReceiptScope) (written : List ε) (c : Session ε) : Prop where
  frames : ∃ n, c.frames = List.replicate n false ++ [true]
  receipt : c.receipt = some scope.newReceipt
  effects : c.effects = written

/-- What a request knows in its phase. -/
def PhaseOk (parses : String → Bool) (receipts : List MutationReceiptRow) (r : Request ε) : Prop :=
  match r.phase with
  | .received => r.written = []
  | .begun c => c = Session.idle.enter ∧ r.written = []
  | .conflicted c =>
    c = Session.idle.enter ∧ r.written = [] ∧ ∃ row ∈ receipts, row.key = r.scope.key
  | .replaying result c =>
    c = Session.idle.enter ∧ r.written = [] ∧ result.replayed = true ∧
      r.receipt result.toMutationResponse ∈ receipts
  | .operating c => SessionOk r.scope r.written c
  | .validated _ c => SessionOk r.scope r.written c ∧ c.frames = [true]
  | .updated response c =>
    c.frames = [true] ∧ c.receipt = some (r.receipt response) ∧ c.effects = r.written ∧
      c.aborted = false
  | .responded result =>
    r.receipt result.toMutationResponse ∈ receipts ∧ (result.replayed → r.written = [])
  | .unacknowledged response => r.receipt response ∈ receipts
  | .failed (.service e) =>
    (e = reusedKey ∧ r.written = [] ∧
      ∃ row ∈ receipts, row.key = r.scope.key ∧ row.requestHash ≠ r.scope.requestHash) ∨
    ∃ response, validateResponse parses response = .error e
  | .failed _ => True
  | .lost => True

/-- The request holds the key, or has committed it. -/
def Request.owns (r : Request ε) (key : ReceiptKey) : Prop :=
  r.holds key ∨ r.scope.key = key ∧ r.committed.isSome

/-- **The invariant.** -/
structure ReceiptInv (parses : String → Bool) (s : ReceiptSys ε) : Prop where
  nodup : (s.receipts.map (·.key)).Nodup
  receipts : ∀ row ∈ s.receipts, ∃ (i : ℕ) (r : Request ε) (response : MutationResponse),
    s.requests[i]? = some r ∧ r.committed = some response ∧ row = r.receipt response
  owner : ∀ (i j : ℕ) (r q : Request ε) (key : ReceiptKey), s.requests[i]? = some r →
    s.requests[j]? = some q → r.owns key → q.owns key → i = j
  effects : ∀ (i : ℕ) (r : Request ε), s.requests[i]? = some r →
    s.effects.filter (·.1 = i) = if r.committed.isSome then r.written.map (i, ·) else []
  known : ∀ p ∈ s.effects, p.1 < s.requests.length
  phases : ∀ (i : ℕ) (r : Request ε), s.requests[i]? = some r → PhaseOk parses s.receipts r

/-- What a step does. -/
inductive StepCase (parses : String → Bool) (s t : ReceiptSys ε) : Prop
  | same (ht : t = s)
  | received (scope : MutationReceiptScope)
      (ht : t = { s with requests := s.requests ++ [⟨scope, .received, []⟩] })
  /-- A request without a committed response goes on; it takes a key only if nobody owns it. -/
  | changed (i : ℕ) (r q : Request ε) (hr : s.requests[i]? = some r)
      (ht : t = { s with requests := s.requests.set i q }) (hscope : q.scope = r.scope)
      (hc : r.committed = none) (hc' : q.committed = none)
      (hown : ∀ key, q.holds key → r.holds key ∨
        ∀ (j : ℕ) (o : Request ε), s.requests[j]? = some o → ¬ o.owns key)
      (hphase : PhaseOk parses s.receipts q)
  /-- A request commits its receipt with what its operation wrote. -/
  | committed (i : ℕ) (r q : Request ε) (response : MutationResponse)
      (hr : s.requests[i]? = some r)
      (ht : t = ⟨s.receipts ++ [r.receipt response], s.effects ++ r.written.map (i, ·),
        s.requests.set i q⟩)
      (hscope : q.scope = r.scope) (hwritten : q.written = r.written) (hc : r.committed = none)
      (hheld : r.holds r.scope.key) (hc' : q.committed = some response)
      (hphase : PhaseOk parses (s.receipts ++ [r.receipt response]) q)

variable {parses : String → Bool} {s t : ReceiptSys ε} {i : ℕ} {r : Request ε} {key : ReceiptKey}

/-! ### What a step does -/

theorem setPhase_eq {phase : RequestPhase ε} (hr : s.requests[i]? = some r) :
    s.setPhase i phase =
      { s with requests := s.requests.set i { r with phase := phase } } := by
  simp [ReceiptSys.setPhase, List.modify_eq_set_getElem?, hr]

/-- A request goes on without taking a key. -/
theorem StepCase.setPhase {phase : RequestPhase ε} (hr : s.requests[i]? = some r)
    (hc : r.committed = none) (hc' : Request.committed { r with phase := phase } = none)
    (hown : ∀ key, Request.holds { r with phase := phase } key → r.holds key)
    (hphase : PhaseOk parses s.receipts { r with phase := phase }) :
    StepCase parses s (s.setPhase i phase) :=
  .changed i r _ hr (setPhase_eq hr) rfl hc hc' (fun key h => .inl (hown key h)) hphase

/-- A request ends without a commit. -/
theorem StepCase.ended {phase : RequestPhase ε} (hr : s.requests[i]? = some r)
    (hc : r.committed = none) (hc' : Request.committed { r with phase := phase } = none)
    (hsession : phase.session? = none)
    (hphase : PhaseOk parses s.receipts { r with phase := phase }) :
    StepCase parses s (s.setPhase i phase) := by
  refine .setPhase hr hc hc' (fun key h => ?_) hphase
  simp [Request.holds, hsession] at h

/-- The receipts of an answered `SELECT`. -/
theorem selectReceipt_ok {receipts : List MutationReceiptRow} {scope : MutationReceiptScope}
    {result : MutationReceiptResult} (h : selectReceipt receipts scope = .ok result) :
    result.replayed = true ∧
      scope.newReceipt.complete result.toMutationResponse ∈ receipts := by
  unfold selectReceipt at h
  split at h
  · cases h
  · rename_i receipt hfind
    have hmem := List.mem_of_find?_eq_some hfind
    have hkey : receipt.key = scope.key := by simpa using List.find?_some hfind
    split at h
    · cases h
    · rename_i hhash
      split at h
      · rename_i status body hstatus hbody
        cases h
        refine ⟨rfl, ?_⟩
        obtain ⟨key, hash, status', body'⟩ := receipt
        simp only at hkey hstatus hbody
        simp only [ne_eq, Decidable.not_not] at hhash
        subst hkey hstatus hbody hhash
        exact hmem
      · cases h

/-- The refusal of a `SELECT` that found a complete receipt. -/
theorem selectReceipt_error {receipts : List MutationReceiptRow} {scope : MutationReceiptScope}
    {e : ServiceError} (h : selectReceipt receipts scope = .error e)
    (hcomplete : ∀ row ∈ receipts, ∃ (r : Request ε) (response : MutationResponse),
      row = r.receipt response)
    (hkey : ∃ row ∈ receipts, row.key = scope.key) :
    e = reusedKey ∧
      ∃ row ∈ receipts, row.key = scope.key ∧ row.requestHash ≠ scope.requestHash := by
  unfold selectReceipt at h
  split at h
  · rename_i hfind
    obtain ⟨row, hrow, hkey⟩ := hkey
    simpa [hkey] using List.find?_eq_none.mp hfind row hrow
  · rename_i receipt hfind
    have hmem := List.mem_of_find?_eq_some hfind
    have hkey : receipt.key = scope.key := by simpa using List.find?_some hfind
    split at h
    · rename_i hhash
      cases h
      exact ⟨rfl, receipt, hmem, hkey, hhash⟩
    · obtain ⟨q, response, rfl⟩ := hcomplete receipt hmem
      simp [Request.receipt, MutationReceiptRow.complete] at h

/-- A committed response is in its receipt. -/
theorem ReceiptInv.receipt_mem (hI : ReceiptInv parses s) {response : MutationResponse}
    (hr : s.requests[i]? = some r) (hc : r.committed = some response) :
    r.receipt response ∈ s.receipts := by
  have hphase := hI.phases i r hr
  obtain ⟨scope, phase, written⟩ := r
  simp only [Request.committed] at hc
  split at hc
  · cases hc
    exact hphase.1
  · cases hc
    exact hphase
  · cases hc

theorem not_owns_of_unclaimed (hI : ReceiptInv parses s)
    (hheld : ¬ s.requests.any (·.holds key)) (hkey : ¬ s.receipts.any (·.key = key)) :
    ∀ (j : ℕ) (o : Request ε), s.requests[j]? = some o → ¬ o.owns key := by
  simp only [List.any_eq_true, decide_eq_true_eq, not_exists, not_and] at hheld hkey
  rintro j o ho (h | ⟨rfl, h⟩)
  · exact hheld o (List.mem_of_getElem? ho) h
  · obtain ⟨response, hc⟩ := Option.isSome_iff_exists.mp h
    exact hkey _ (hI.receipt_mem ho hc) rfl

theorem SessionOk.leave {scope : MutationReceiptScope} {written : List ε} {c : Session ε}
    (h : SessionOk scope written c) (hlen : 1 < c.frames.length) :
    ∃ c', c.leave = (c', false) ∧ SessionOk scope written c' := by
  obtain ⟨⟨n, hn⟩, hreceipt, heffects⟩ := h
  cases n with
  | zero => simp [hn] at hlen
  | succ n =>
    refine ⟨{ c with frames := List.replicate n false ++ [true] }, ?_,
      ⟨n, rfl⟩, hreceipt, heffects⟩
    simp [Session.leave, hn, List.replicate_succ]

/-- A transaction that has written nothing commits nothing. -/
theorem commit_idle (phase : RequestPhase ε) :
    s.commit i Session.idle.enter phase = s.setPhase i phase := by
  simp [ReceiptSys.commit, Session.idle, Session.enter, Session.leave, ReceiptSys.commitSession]

/-- The `INSERT`: the request waits, meets a receipt, or takes the key. -/
theorem insertReceipt_case (hI : ReceiptInv parses s) {scope : MutationReceiptScope}
    {c : Session ε} {written : List ε} (hr : s.requests[i]? = some ⟨scope, .begun c, written⟩) :
    StepCase parses s (s.insertReceipt i scope c) := by
  obtain ⟨rfl, rfl⟩ := hI.phases i _ hr
  unfold ReceiptSys.insertReceipt
  split
  · exact .same rfl
  · rename_i hheld
    split
    · rename_i hkey
      simp only [List.any_eq_true, decide_eq_true_eq] at hkey
      exact .setPhase hr rfl rfl (fun _ h => h) ⟨rfl, rfl, hkey⟩
    · rename_i hkey
      refine .changed i _ _ hr (setPhase_eq hr) rfl rfl rfl (fun key h => .inr ?_)
        ⟨⟨0, rfl⟩, rfl, rfl⟩
      obtain rfl : scope.key = key := by
        simpa [Request.holds, RequestPhase.session?, MutationReceiptScope.newReceipt] using h
      exact not_owns_of_unclaimed hI hheld hkey

/-- The commit of a response. -/
theorem commit_case (hI : ReceiptInv parses s) {scope : MutationReceiptScope} {c : Session ε}
    {written : List ε} {response : MutationResponse}
    (hr : s.requests[i]? = some ⟨scope, .updated response c, written⟩) (acknowledged : Bool) :
    StepCase parses s (s.commit i c
      (if acknowledged then .responded ⟨response, false⟩ else .unacknowledged response)) := by
  obtain ⟨hframes, hreceipt, heffects, haborted⟩ := hI.phases i _ hr
  have hleave : c.leave = ({ c with frames := [] }, true) := by simp [Session.leave, hframes]
  have hcommit : s.commitSession i c =
      { s with
        receipts := s.receipts ++ [Request.receipt ⟨scope, .updated response c, written⟩ response],
        effects := s.effects ++ written.map (i, ·) } := by
    simp only at heffects
    simp [ReceiptSys.commitSession, haborted, hreceipt, heffects]
  have hr' : (s.commitSession i c).requests[i]? = some ⟨scope, .updated response c, written⟩ := by
    rw [hcommit]
    exact hr
  simp only [ReceiptSys.commit, hleave]
  rw [setPhase_eq hr', hcommit]
  refine .committed i _ _ response hr rfl rfl rfl rfl ?_ ?_ ?_
  · simp [Request.holds, RequestPhase.session?, hreceipt, Request.receipt,
      MutationReceiptRow.complete, MutationReceiptScope.newReceipt]
  · cases acknowledged <;> rfl
  · cases acknowledged
    · exact List.mem_append_right _ List.mem_cons_self
    · exact ⟨List.mem_append_right _ List.mem_cons_self, nofun⟩

/-- **Steps.** -/
theorem step_cases (hI : ReceiptInv parses s) (a : ReceiptAct ε) :
    StepCase parses s (s.step parses a) := by
  cases a with
  | receive scope => exact .received scope rfl
  | begin i =>
    simp only [ReceiptSys.step]
    split
    · rename_i hr
      exact .setPhase hr rfl rfl (fun _ h => h) ⟨rfl, hI.phases i _ hr⟩
    · exact .same rfl
  | insertReceipt i =>
    simp only [ReceiptSys.step]
    split
    · rename_i hr
      exact insertReceipt_case hI hr
    · exact .same rfl
  | selectReceipt i =>
    simp only [ReceiptSys.step]
    split
    · rename_i hr
      obtain ⟨hidle, hwritten, hkey⟩ := hI.phases i _ hr
      split
      · rename_i hselect
        obtain ⟨hreplayed, hmem⟩ := selectReceipt_ok hselect
        exact .setPhase hr rfl rfl (fun _ h => h) ⟨hidle, hwritten, hreplayed, hmem⟩
      · rename_i hselect
        obtain ⟨he, hother⟩ := selectReceipt_error (ε := ε) hselect (fun row hrow => by
          obtain ⟨_, q, response, _, _, h⟩ := hI.receipts row hrow
          exact ⟨q, response, h⟩) hkey
        exact .ended hr rfl rfl rfl (.inl ⟨he, hwritten, hother⟩)
    · exact .same rfl
  | write i e =>
    simp only [ReceiptSys.step]
    split
    · rename_i scope c written hr
      obtain ⟨hframes, hreceipt, heffects⟩ := hI.phases i _ hr
      unfold ReceiptSys.write
      split
      · exact .same rfl
      · refine .changed i _ ⟨scope, .operating { c with effects := c.effects ++ [e] },
          written ++ [e]⟩ hr ?_ rfl rfl rfl (fun _ h => .inl h)
          ⟨hframes, hreceipt, congrArg (· ++ [e]) heffects⟩
        simp [List.modify_eq_set_getElem?, hr]
    · exact .same rfl
  | enterTransaction i =>
    simp only [ReceiptSys.step]
    split
    · rename_i c _ hr
      obtain ⟨⟨n, hn⟩, hreceipt, heffects⟩ := hI.phases i _ hr
      refine .setPhase hr rfl rfl (fun _ h => h) ⟨⟨n + 1, ?_⟩, hreceipt, heffects⟩
      simp [Session.enter, hn, List.replicate_succ]
    · exact .same rfl
  | leaveTransaction i =>
    simp only [ReceiptSys.step]
    split
    · rename_i hr
      split
      · rename_i hlen
        obtain ⟨c', hleave, hsession⟩ := SessionOk.leave (hI.phases i _ hr) hlen
        simp only [ReceiptSys.leaveTransaction, hleave]
        refine .setPhase hr rfl rfl (fun key h => ?_) hsession
        simpa [Request.holds, RequestPhase.session?, hsession.receipt,
          SessionOk.receipt (hI.phases i _ hr)] using h
      · exact .same rfl
    · exact .same rfl
  | catchTransaction i =>
    simp only [ReceiptSys.step]
    split
    · rename_i hr
      split
      · rename_i hlen
        obtain ⟨c', hleave, hsession⟩ := SessionOk.leave (hI.phases i _ hr) hlen
        simp only [ReceiptSys.catchTransaction, hleave]
        refine .setPhase hr rfl rfl (fun key h => ?_) hsession
        simpa [Request.holds, RequestPhase.session?, hsession.receipt,
          SessionOk.receipt (hI.phases i _ hr)] using h
      · exact .same rfl
    · exact .same rfl
  | throws i =>
    simp only [ReceiptSys.step]
    split
    · rename_i hr
      exact .ended hr rfl rfl rfl trivial
    · exact .same rfl
  | respond i response =>
    simp only [ReceiptSys.step]
    split
    · rename_i c _ hr
      have hsession := hI.phases i _ hr
      split
      · rename_i hlen
        split
        · obtain ⟨n, hn⟩ := hsession.frames
          obtain rfl : n = 0 := by simpa [hn] using hlen
          exact .setPhase hr rfl rfl (fun _ h => h)
            ⟨⟨hsession.frames, hsession.receipt, hsession.effects⟩, by simpa using hn⟩
        · rename_i e hvalid
          exact .ended hr rfl rfl rfl (.inr ⟨response, hvalid⟩)
      · exact .same rfl
    · exact .same rfl
  | updateReceipt i =>
    simp only [ReceiptSys.step]
    split
    · rename_i scope response c written hr
      obtain ⟨⟨_, hreceipt, heffects⟩, hframes⟩ := hI.phases i _ hr
      split
      · exact .ended hr rfl rfl rfl trivial
      · rename_i haborted
        refine .setPhase hr rfl rfl (fun key h => ?_)
          ⟨hframes, by simp [Session.complete, hreceipt, Request.receipt], heffects,
            by simpa [Session.complete] using haborted⟩
        simpa [Request.holds, RequestPhase.session?, Session.complete, hreceipt,
          MutationReceiptRow.complete] using h
    · exact .same rfl
  | commit i acknowledged =>
    simp only [ReceiptSys.step]
    split
    · rename_i scope result c written hr
      obtain ⟨rfl, rfl, hreplayed, hmem⟩ := hI.phases i _ hr
      rw [commit_idle]
      obtain ⟨response, replayed⟩ := result
      obtain rfl : replayed = true := hreplayed
      cases acknowledged
      · exact .ended hr rfl rfl rfl trivial
      · exact .ended hr rfl rfl rfl ⟨hmem, fun _ => rfl⟩
    · rename_i hr
      exact commit_case hI hr acknowledged
    · exact .same rfl
  | statementFails i =>
    simp only [ReceiptSys.step]
    split
    · rename_i hr
      obtain ⟨hframes, hreceipt, heffects⟩ := hI.phases i _ hr
      exact .setPhase hr rfl rfl (fun _ h => h) ⟨hframes, hreceipt, heffects⟩
    all_goals first
      | exact .same rfl
      | rename_i hr
        exact .ended hr rfl rfl rfl trivial
  | lose i =>
    simp only [ReceiptSys.step]
    split
    all_goals first
      | exact .same rfl
      | rename_i hr
        exact .ended hr rfl rfl rfl trivial

/-! ### The invariant is kept -/

theorem PhaseOk.mono {receipts receipts' : List MutationReceiptRow} (h : receipts ⊆ receipts')
    (hp : PhaseOk parses receipts r) : PhaseOk parses receipts' r := by
  obtain ⟨scope, phase, written⟩ := r
  cases phase with
  | received | begun | operating | validated | updated | lost => exact hp
  | conflicted c =>
    obtain ⟨hc, hw, row, hrow, hkey⟩ := hp
    exact ⟨hc, hw, row, h hrow, hkey⟩
  | replaying result c =>
    obtain ⟨hc, hw, hreplayed, hmem⟩ := hp
    exact ⟨hc, hw, hreplayed, h hmem⟩
  | responded result =>
    obtain ⟨hmem, hw⟩ := hp
    exact ⟨h hmem, hw⟩
  | unacknowledged response => exact h hp
  | failed e =>
    cases e with
    | service e =>
      obtain ⟨he, hw, row, hrow, hother⟩ | hp := hp
      · exact .inl ⟨he, hw, row, h hrow, hother⟩
      · exact .inr hp
    | operation | database => trivial

/-- A request without a committed response does not own its key through a commit. -/
theorem Request.holds_of_owns (h : r.owns key) (hc : r.committed = none) : r.holds key := by
  obtain h | ⟨_, h⟩ := h
  · exact h
  · simp [hc] at h

theorem Request.not_holds_of_committed {response : MutationResponse}
    (hc : r.committed = some response) : ¬ r.holds key := by
  unfold Request.committed at hc
  split at hc
  · simp [Request.holds, RequestPhase.session?, *]
  · simp [Request.holds, RequestPhase.session?, *]
  · cases hc

theorem ReceiptInv.initial : ReceiptInv parses (ReceiptSys.initial : ReceiptSys ε) where
  nodup := .nil
  receipts row hrow := absurd hrow List.not_mem_nil
  owner i j r q key hr := by simp [ReceiptSys.initial] at hr
  effects i r hr := by simp [ReceiptSys.initial] at hr
  known p hp := absurd hp List.not_mem_nil
  phases i r hr := by simp [ReceiptSys.initial] at hr

theorem ReceiptInv.received (hI : ReceiptInv parses s) (scope : MutationReceiptScope) :
    ReceiptInv parses { s with requests := s.requests ++ [⟨scope, .received, []⟩] } where
  nodup := hI.nodup
  receipts row hrow := by
    obtain ⟨i, r, response, hr, h⟩ := hI.receipts row hrow
    exact ⟨i, r, response, getElem?_append_of_some hr, h⟩
  owner i j r q key hr hq hrk hqk := by
    have hfresh (key) : ¬ Request.owns (⟨scope, .received, []⟩ : Request ε) key := by
      simp [Request.owns, Request.holds, RequestPhase.session?, Request.committed]
    obtain hr | ⟨-, rfl⟩ := getElem?_concat_cases hr
    · obtain hq | ⟨-, rfl⟩ := getElem?_concat_cases hq
      · exact hI.owner i j r q key hr hq hrk hqk
      · exact absurd hqk (hfresh key)
    · exact absurd hrk (hfresh key)
  effects i r hr := by
    obtain hr | ⟨rfl, rfl⟩ := getElem?_concat_cases hr
    · exact hI.effects i r hr
    · refine List.filter_eq_nil_iff.mpr fun p hp => ?_
      have := hI.known p hp
      simp only [decide_eq_true_eq]
      omega
  known p hp := by
    have := hI.known p hp
    simp only [List.length_append]
    omega
  phases i r hr := by
    obtain hr | ⟨rfl, rfl⟩ := getElem?_concat_cases hr
    · exact hI.phases i r hr
    · rfl

theorem ReceiptInv.changed (hI : ReceiptInv parses s) {q : Request ε}
    (hr : s.requests[i]? = some r) (hc : r.committed = none) (hc' : q.committed = none)
    (hown : ∀ key, q.holds key → r.holds key ∨
      ∀ (j : ℕ) (o : Request ε), s.requests[j]? = some o → ¬ o.owns key)
    (hphase : PhaseOk parses s.receipts q) :
    ReceiptInv parses { s with requests := s.requests.set i q } where
  nodup := hI.nodup
  receipts row hrow := by
    obtain ⟨j, o, response, ho, hco, h⟩ := hI.receipts row hrow
    have hij : i ≠ j := by
      rintro rfl
      rw [hr] at ho
      obtain rfl := Option.some.inj ho
      simp [hc] at hco
    exact ⟨j, o, response, by rw [List.getElem?_set_ne hij]; exact ho, hco, h⟩
  owner j k o p key ho hp hok hpk := by
    -- what `q` owns, `r` owned, or nobody did
    have hq (h : q.owns key) : r.owns key ∨
        ∀ (j : ℕ) (o : Request ε), s.requests[j]? = some o → ¬ o.owns key :=
      (hown key (Request.holds_of_owns h hc')).imp_left .inl
    obtain ⟨rfl, rfl⟩ | ⟨hj, ho'⟩ := getElem?_set_cases ho
    · obtain ⟨rfl, rfl⟩ | ⟨hk, hp⟩ := getElem?_set_cases hp
      · rfl
      · obtain h | h := hq hok
        · exact hI.owner i k r p key hr hp h hpk
        · exact absurd hpk (h k p hp)
    · obtain ⟨rfl, rfl⟩ | ⟨hk, hp'⟩ := getElem?_set_cases hp
      · obtain h | h := hq hpk
        · exact hI.owner j i o r key ho' hr hok h
        · exact absurd hok (h j o ho')
      · exact hI.owner j k o p key ho' hp' hok hpk
  effects j o ho := by
    obtain ⟨rfl, rfl⟩ | ⟨hj, ho⟩ := getElem?_set_cases ho
    · have := hI.effects i r hr
      rw [hc] at this
      rw [hc']
      exact this
    · exact hI.effects j o ho
  known p hp := by
    rw [List.length_set]
    exact hI.known p hp
  phases j o ho := by
    obtain ⟨rfl, rfl⟩ | ⟨hj, ho⟩ := getElem?_set_cases ho
    · exact hphase
    · exact hI.phases j o ho

/-- A request that holds a key finds no receipt of it. -/
theorem ReceiptInv.no_receipt (hI : ReceiptInv parses s) (hr : s.requests[i]? = some r)
    (hheld : r.holds key) : ∀ row ∈ s.receipts, row.key ≠ key := by
  rintro row hrow rfl
  obtain ⟨j, o, response, ho, hco, rfl⟩ := hI.receipts row hrow
  obtain rfl : i = j :=
    hI.owner i j r o _ hr ho (.inl hheld) (.inr ⟨rfl, by rw [hco]; rfl⟩)
  rw [hr] at ho
  obtain rfl := Option.some.inj ho
  exact Request.not_holds_of_committed hco hheld

theorem ReceiptInv.committed (hI : ReceiptInv parses s) {q : Request ε}
    {response : MutationResponse} (hr : s.requests[i]? = some r) (hscope : q.scope = r.scope)
    (hwritten : q.written = r.written) (hc : r.committed = none) (hheld : r.holds r.scope.key)
    (hc' : q.committed = some response)
    (hphase : PhaseOk parses (s.receipts ++ [r.receipt response]) q) :
    ReceiptInv parses ⟨s.receipts ++ [r.receipt response], s.effects ++ r.written.map (i, ·),
      s.requests.set i q⟩ where
  nodup := by
    rw [List.map_append, List.nodup_append]
    refine ⟨hI.nodup, List.pairwise_singleton _ _, ?_⟩
    rintro key hkey key' hkey' rfl
    obtain ⟨row, hrow, rfl⟩ := List.mem_map.mp hkey
    exact hI.no_receipt hr hheld row hrow (List.mem_singleton.mp hkey')
  receipts row hrow := by
    have hi : i < s.requests.length := (List.getElem?_eq_some_iff.mp hr).1
    obtain hrow | hrow := List.mem_append.mp hrow
    · obtain ⟨j, o, response, ho, hco, h⟩ := hI.receipts row hrow
      have hij : i ≠ j := by
        rintro rfl
        rw [hr] at ho
        obtain rfl := Option.some.inj ho
        simp [hc] at hco
      exact ⟨j, o, response, by simp only [List.getElem?_set_ne hij]; exact ho, hco, h⟩
    · refine ⟨i, q, response, List.getElem?_set_self hi, hc', ?_⟩
      rw [List.mem_singleton.mp hrow, Request.receipt, Request.receipt, hscope]
  owner j k o p key ho hp hok hpk := by
    have hq (h : q.owns key) : r.owns key := by
      obtain h | ⟨rfl, _⟩ := h
      · exact absurd h (Request.not_holds_of_committed hc')
      · rw [hscope]
        exact .inl hheld
    obtain ⟨rfl, rfl⟩ | ⟨hj, ho'⟩ := getElem?_set_cases ho
    · obtain ⟨rfl, rfl⟩ | ⟨hk, hp⟩ := getElem?_set_cases hp
      · rfl
      · exact hI.owner i k r p key hr hp (hq hok) hpk
    · obtain ⟨rfl, rfl⟩ | ⟨hk, hp'⟩ := getElem?_set_cases hp
      · exact hI.owner j i o r key ho' hr hok (hq hpk)
      · exact hI.owner j k o p key ho' hp' hok hpk
  effects j o ho := by
    obtain ⟨rfl, rfl⟩ | ⟨hj, ho⟩ := getElem?_set_cases ho
    · have := hI.effects i r hr
      rw [hc] at this
      simp only [List.filter_append, hc', hwritten]
      rw [show s.effects.filter (·.1 = i) = [] from this]
      simp [List.filter_map, Function.comp_def]
    · simp only [List.filter_append]
      rw [hI.effects j o ho]
      simp [List.filter_map, Function.comp_def, hj]
  known p hp := by
    simp only [List.length_set]
    obtain hp | hp := List.mem_append.mp hp
    · exact hI.known p hp
    · obtain ⟨e, _, rfl⟩ := List.mem_map.mp hp
      exact (List.getElem?_eq_some_iff.mp hr).1
  phases j o ho := by
    obtain ⟨rfl, rfl⟩ | ⟨hj, ho⟩ := getElem?_set_cases ho
    · exact hphase
    · exact (hI.phases j o ho).mono (List.subset_append_left _ _)

theorem step_receiptInv (hI : ReceiptInv parses s) (a : ReceiptAct ε) :
    ReceiptInv parses (s.step parses a) := by
  obtain ht | ⟨scope, ht⟩ | ⟨i, r, q, hr, ht, _, hc, hc', hown, hphase⟩ |
    ⟨i, r, q, response, hr, ht, hscope, hwritten, hc, hheld, hc', hphase⟩ := step_cases hI a
  · rw [ht]
    exact hI
  · rw [ht]
    exact hI.received scope
  · rw [ht]
    exact hI.changed hr hc hc' hown hphase
  · rw [ht]
    exact hI.committed hr hscope hwritten hc hheld hc' hphase

theorem receiptInv_of_reach (hs : Reach (ReceiptSys.step parses) Always .initial s) :
    ReceiptInv parses s :=
  hs.invariant .initial fun _ a hI _ => step_receiptInv hI a

/-! ### From the invariant to the property -/

theorem ReceiptInv.receiptsOf_eq (hI : ReceiptInv parses s) {row : MutationReceiptRow}
    (hrow : row ∈ s.receipts) : s.receiptsOf row.key = [row] :=
  filter_key_eq_singleton hI.nodup hrow

theorem ReceiptInv.effect_committed (hI : ReceiptInv parses s) {p : ℕ × ε} (hp : p ∈ s.effects) :
    ∃ (q : Request ε) (response : MutationResponse),
      s.requests[p.1]? = some q ∧ q.committed = some response := by
  have hq := List.getElem?_eq_getElem (hI.known p hp)
  have hmem : p ∈ s.effects.filter (·.1 = p.1) := List.mem_filter.mpr ⟨hp, by simp⟩
  rw [hI.effects p.1 _ hq] at hmem
  split at hmem
  · obtain ⟨response, hc⟩ := Option.isSome_iff_exists.mp ‹_›
    exact ⟨_, response, hq, hc⟩
  · cases hmem

/-- **A committed key.**  It has the receipt and the effects of the request that committed it. -/
theorem ReceiptInv.committed_key (hI : ReceiptInv parses s) {response : MutationResponse}
    (hr : s.requests[i]? = some r) (hc : r.committed = some response) :
    s.receiptsOf r.scope.key = [r.receipt response] ∧
      s.effectsOf r.scope.key = r.written.map (i, ·) := by
  refine ⟨hI.receiptsOf_eq (hI.receipt_mem hr hc), ?_⟩
  have heffects := hI.effects i r hr
  rw [hc] at heffects
  refine Eq.trans (List.filter_congr fun ⟨j, e⟩ hp => ?_) heffects
  obtain ⟨q, response', hq, hcq⟩ := hI.effect_committed hp
  have howner : q.scope.key = r.scope.key → j = i := fun hkey =>
    hI.owner j i q r r.scope.key hq hr (.inr ⟨hkey, by rw [hcq]; rfl⟩)
      (.inr ⟨rfl, by rw [hc]; rfl⟩)
  simp only at hq ⊢
  rw [hq, Option.any_some, decide_eq_decide]
  refine ⟨howner, ?_⟩
  rintro rfl
  rw [hr] at hq
  rw [Option.some.inj hq]

theorem ReceiptInv.no_effect (hI : ReceiptInv parses s) (hkey : s.receiptsOf key = []) :
    s.effectsOf key = [] := by
  refine List.filter_eq_nil_iff.mpr fun p hp h => ?_
  obtain ⟨q, response, hq, hc⟩ := hI.effect_committed hp
  obtain rfl : q.scope.key = key := by simpa [hq] using h
  rw [(hI.committed_key hq hc).1] at hkey
  cases hkey

/-- The request of a committed receipt. -/
theorem ReceiptInv.committer (hI : ReceiptInv parses s) (hkey : s.receiptsOf key ≠ []) :
    ∃ (i : ℕ) (r : Request ε) (response : MutationResponse),
      s.requests[i]? = some r ∧ r.scope.key = key ∧ r.committed = some response := by
  obtain ⟨row, hrow⟩ := List.exists_mem_of_ne_nil _ hkey
  obtain ⟨hrow, hkey⟩ := List.mem_filter.mp hrow
  obtain ⟨i, r, response, hr, hc, rfl⟩ := hI.receipts row hrow
  exact ⟨i, r, response, hr, of_decide_eq_true hkey, hc⟩

theorem Request.holds_of_isRunning {receipts : List MutationReceiptRow}
    (hp : PhaseOk parses receipts r) (h : r.isRunning) : r.holds r.scope.key := by
  obtain ⟨scope, phase, written⟩ := r
  cases phase with
  | operating c =>
    simp [Request.holds, RequestPhase.session?, SessionOk.receipt hp,
      MutationReceiptScope.newReceipt]
  | validated response c =>
    simp [Request.holds, RequestPhase.session?, SessionOk.receipt hp.1,
      MutationReceiptScope.newReceipt]
  | updated response c =>
    obtain ⟨_, hreceipt, _⟩ := hp
    simp [Request.holds, RequestPhase.session?, hreceipt, Request.receipt,
      MutationReceiptScope.newReceipt, MutationReceiptRow.complete]
  | received | begun | conflicted | replaying | responded | unacknowledged | failed | lost =>
    cases h

theorem ReceiptInv.exactlyOnce (hI : ReceiptInv parses s) : ExactlyOnce parses s where
  together key := by
    by_cases hkey : s.receiptsOf key = []
    · exact .inl ⟨hkey, hI.no_effect hkey⟩
    · obtain ⟨i, r, response, hr, rfl, hc⟩ := hI.committer hkey
      obtain ⟨hreceipts, heffects⟩ := hI.committed_key hr hc
      refine .inr ⟨i, r, response, hr, rfl, hc, hreceipts, heffects, fun j q hq hkey hcq => ?_⟩
      exact hI.owner j i q r _ hq hr (.inr ⟨hkey, hcq⟩) (.inr ⟨rfl, by rw [hc]; rfl⟩)
  answered i r result hr hphase := by
    have hp := hI.phases i r hr
    simp only [PhaseOk, hphase] at hp
    exact ⟨hI.receiptsOf_eq hp.1, hp.2⟩
  refused i r e hr hphase := by
    have hp := hI.phases i r hr
    simp only [PhaseOk, hphase] at hp
    refine hp.imp_left ?_
    rintro ⟨he, hw, row, hrow, hkey, hhash⟩
    exact ⟨he, hw, row, hkey ▸ hI.receiptsOf_eq hrow, hhash⟩
  noEffect i r hr hc e he := by
    obtain ⟨q, response, hq, hcq⟩ := hI.effect_committed he
    rw [hr] at hq
    obtain rfl := Option.some.inj hq
    simp [hc] at hcq
  exclusive i r hr hrun := by
    have hheld := Request.holds_of_isRunning (hI.phases i r hr) hrun
    refine ⟨List.filter_eq_nil_iff.mpr fun row hrow => ?_, fun j q hq hrunq hkey => ?_⟩
    · simpa using hI.no_receipt hr hheld row hrow
    · have hheldq := Request.holds_of_isRunning (hI.phases j q hq) hrunq
      exact hI.owner j i q r _ hq hr (.inl (hkey ▸ hheldq)) (.inl hheld)

/-! ### Retries -/

/-- A transaction that inserts a committed key does not wait, and meets the receipt. -/
theorem ReceiptInv.insert_conflict (hI : ReceiptInv parses s) {c : Session ε}
    {row : MutationReceiptRow} (hr : s.requests[i]? = some r) (hphase : r.phase = .begun c)
    (hrow : s.receiptsOf r.scope.key = [row]) :
    s.step parses (.insertReceipt i) = s.setPhase i (.conflicted c) := by
  obtain ⟨scope, phase, written⟩ := r
  obtain rfl : phase = .begun c := hphase
  have hmem : row ∈ s.receiptsOf scope.key := by rw [hrow]; exact List.mem_cons_self
  obtain ⟨hmem, hkey⟩ := List.mem_filter.mp hmem
  have hheld : ¬ s.requests.any (·.holds scope.key) := by
    rw [List.any_eq_true]
    rintro ⟨q, hq, hheld⟩
    obtain ⟨j, hq⟩ := List.mem_iff_getElem?.mp hq
    exact hI.no_receipt hq hheld row hmem (of_decide_eq_true hkey)
  have hany : s.receipts.any (·.key = scope.key) := List.any_eq_true.mpr ⟨row, hmem, hkey⟩
  simp only [ReceiptSys.step, hr, ReceiptSys.insertReceipt]
  rw [if_neg hheld, if_pos hany]

theorem selectReceipt_of_receiptsOf {scope : MutationReceiptScope} {row : MutationReceiptRow}
    (hrow : s.receiptsOf scope.key = [row]) :
    selectReceipt s.receipts scope =
      if row.requestHash ≠ scope.requestHash then .error reusedKey
      else
        match row.responseStatus, row.responseBody with
        | some status, some body => .ok ⟨⟨status, body⟩, true⟩
        | _, _ => .error requestIncomplete := by
  have hfind : s.receipts.find? (·.key = scope.key) = some row := by
    rw [← List.head?_filter]
    exact congrArg List.head? hrow
  rewrite [selectReceipt, hfind]
  rfl

theorem getElem?_setPhase {phase : RequestPhase ε} (hr : s.requests[i]? = some r) :
    (s.setPhase i phase).requests[i]? = some { r with phase := phase } :=
  getElem?_modify_eq hr

theorem setPhase_setPhase (phase phase' : RequestPhase ε) :
    (s.setPhase i phase).setPhase i phase' = s.setPhase i phase' := by
  simp [ReceiptSys.setPhase, List.modify_modify_eq, Function.comp_def]

theorem ReceiptInv.retries (hI : ReceiptInv parses s) : Retries parses s where
  afresh i r c hr hphase hkey hheld := by
    have hp := hI.phases i r hr
    simp only [PhaseOk, hphase] at hp
    obtain ⟨rfl, hwritten⟩ := hp
    obtain ⟨scope, phase, written⟩ := r
    obtain rfl : phase = .begun Session.idle.enter := hphase
    refine ⟨?_, hwritten⟩
    have hheld' : ¬ s.requests.any (·.holds scope.key) := by
      rw [List.any_eq_true]
      rintro ⟨q, hq, h⟩
      obtain ⟨j, hq⟩ := List.mem_iff_getElem?.mp hq
      exact hheld j q hq h
    have hany : ¬ s.receipts.any (·.key = scope.key) := by
      rw [List.any_eq_true]
      rintro ⟨row, hrow, h⟩
      exact List.filter_eq_nil_iff.mp hkey row hrow h
    simp only [ReceiptSys.step, hr, ReceiptSys.insertReceipt]
    rw [if_neg hheld', if_neg hany]
    rfl
  replay i r c row hr hphase hrow hhash := by
    have hmem : row ∈ s.receiptsOf r.scope.key := by rw [hrow]; exact List.mem_cons_self
    obtain ⟨hmem, hkey⟩ := List.mem_filter.mp hmem
    obtain ⟨_, o, response, _, _, rfl⟩ := hI.receipts row hmem
    have hscope : o.scope = r.scope := by
      rw [show o.scope = ⟨o.scope.key, o.scope.requestHash⟩ from rfl]
      exact congrArg₂ MutationReceiptScope.mk (of_decide_eq_true hkey) hhash
    have hp := hI.phases i r hr
    simp only [PhaseOk, hphase] at hp
    obtain ⟨rfl, -⟩ := hp
    refine ⟨response, by rw [Request.receipt, Request.receipt, hscope], ?_⟩
    have hselect : selectReceipt s.receipts r.scope = .ok ⟨response, true⟩ := by
      rw [selectReceipt_of_receiptsOf hrow, if_neg (not_not_intro hhash)]
      rfl
    simp only [List.foldl_cons, List.foldl_nil]
    rw [hI.insert_conflict hr hphase hrow]
    have hr₁ := @getElem?_setPhase _ _ _ _ (.conflicted Session.idle.enter) hr
    have hstep₁ : (s.setPhase i (.conflicted Session.idle.enter)).step parses (.selectReceipt i) =
        s.setPhase i (.replaying ⟨response, true⟩ Session.idle.enter) := by
      simp only [ReceiptSys.step, hr₁]
      rw [show (s.setPhase i (.conflicted Session.idle.enter)).receipts = s.receipts from rfl,
        hselect]
      exact setPhase_setPhase _ _
    have hr₂ := @getElem?_setPhase _ _ _ _ (.replaying ⟨response, true⟩ Session.idle.enter) hr
    rw [hstep₁]
    simp only [ReceiptSys.step, hr₂, commit_idle, if_true]
    exact setPhase_setPhase _ _
  refuse i r c row hr hphase hrow hhash := by
    have hselect : selectReceipt s.receipts r.scope = .error reusedKey := by
      rw [selectReceipt_of_receiptsOf hrow, if_pos hhash]
    simp only [List.foldl_cons, List.foldl_nil]
    rw [hI.insert_conflict hr hphase hrow]
    have hr₁ := @getElem?_setPhase _ _ _ _ (.conflicted c) hr
    simp only [ReceiptSys.step, hr₁]
    rw [show (s.setPhase i (.conflicted c)).receipts = s.receipts from rfl, hselect]
    exact setPhase_setPhase _ _

/-! ### What a commit settles -/

/-- What stays along a run. -/
structure ReceiptsKept (s t : ReceiptSys ε) : Prop where
  receipts : s.receipts ⊆ t.receipts
  committed : ∀ (i : ℕ) (r : Request ε), s.requests[i]? = some r → r.committed.isSome →
    t.requests[i]? = some r

theorem step_receiptsKept (hI : ReceiptInv parses s) (a : ReceiptAct ε) :
    ReceiptsKept s (s.step parses a) := by
  have hother {i j : ℕ} {r o q : Request ε} (hr : s.requests[i]? = some r)
      (hc : r.committed = none) (ho : s.requests[j]? = some o) (hco : o.committed.isSome) :
      (s.requests.set i q)[j]? = some o := by
    have hij : i ≠ j := by
      rintro rfl
      rw [hr] at ho
      obtain rfl := Option.some.inj ho
      simp [hc] at hco
    rw [List.getElem?_set_ne hij]
    exact ho
  obtain ht | ⟨scope, ht⟩ | ⟨i, r, q, hr, ht, _, hc, _, _, _⟩ |
    ⟨i, r, q, response, hr, ht, _, _, hc, _, _, _⟩ := step_cases hI a
  · rw [ht]
    exact ⟨List.Subset.refl _, fun _ _ hr _ => hr⟩
  · rw [ht]
    exact ⟨List.Subset.refl _, fun _ _ hr _ => getElem?_append_of_some hr⟩
  · rw [ht]
    exact ⟨List.Subset.refl _, fun _ _ ho hco => hother hr hc ho hco⟩
  · rw [ht]
    exact ⟨List.subset_append_left _ _, fun _ _ ho hco => hother hr hc ho hco⟩

theorem receiptsKept_of_reach (hI : ReceiptInv parses s)
    (ht : Reach (ReceiptSys.step parses) Always s t) : ReceiptInv parses t ∧ ReceiptsKept s t := by
  refine ht.invariant (I := fun t => ReceiptInv parses t ∧ ReceiptsKept s t)
    ⟨hI, List.Subset.refl _, fun _ _ hr _ => hr⟩ ?_
  rintro u a ⟨hu, hsu⟩ -
  have hstep := step_receiptsKept hu a
  exact ⟨step_receiptInv hu a, List.Subset.trans hsu.receipts hstep.receipts,
    fun i r hr hc => hstep.committed i r (hsu.committed i r hr hc) hc⟩

/-- **HTTP mutations are exactly-once.**  In every reachable state the receipts, the effects and the
    answers fit together, a request that begins retries, replays or is refused as it should, and a
    key that has a receipt keeps it, and its effects, for the rest of the run. -/
theorem mutations_exactly_once (parses : String → Bool) (s : ReceiptSys ε)
    (hs : Reach (ReceiptSys.step parses) Always .initial s) :
    ExactlyOnce parses s ∧ Retries parses s ∧
      ∀ t, Reach (ReceiptSys.step parses) Always s t →
        ∀ key, s.receiptsOf key ≠ [] →
          t.receiptsOf key = s.receiptsOf key ∧ t.effectsOf key = s.effectsOf key := by
  have hI := receiptInv_of_reach hs
  refine ⟨hI.exactlyOnce, hI.retries, fun t ht key hkey => ?_⟩
  obtain ⟨hIt, hkept⟩ := receiptsKept_of_reach hI ht
  obtain ⟨i, r, response, hr, rfl, hc⟩ := hI.committer hkey
  have hrt := hkept.committed i r hr (by rw [hc]; rfl)
  obtain ⟨hs₁, hs₂⟩ := hI.committed_key hr hc
  obtain ⟨ht₁, ht₂⟩ := hIt.committed_key hrt hc
  exact ⟨ht₁.trans hs₁.symm, ht₂.trans hs₂.symm⟩

/-- A mutation with a nested transaction, whose commit is not acknowledged, and two other requests
    with its key: a retry, which waits for the first one, and a request with another hash. -/
def exampleMutations : List (ReceiptAct ℕ) :=
  let key : ReceiptKey := ⟨"operator:1", .post, "/api/projects", "project-key-1"⟩
  [.receive ⟨key, "a"⟩, .receive ⟨key, "a"⟩, .receive ⟨key, "b"⟩,
    .begin 0, .insertReceipt 0, .enterTransaction 0, .write 0 7, .leaveTransaction 0,
    .begin 1, .insertReceipt 1,
    .respond 0 ⟨.integer 201, "{}"⟩, .updateReceipt 0, .commit 0 false,
    .insertReceipt 1, .selectReceipt 1, .commit 1 true,
    .begin 2, .insertReceipt 2, .selectReceipt 2]

/-- Their runs end with one receipt and one effect. -/
theorem mutations_exactly_once_unacknowledged :
    let s := exampleMutations.foldl (ReceiptSys.step fun _ => true) ReceiptSys.initial
    s.receipts.map (·.responseBody) = [some "{}"] ∧ s.effects = [(0, 7)] ∧
      ExactlyOnce (fun _ => true) s ∧ Retries (fun _ => true) s :=
  have h := mutations_exactly_once (fun _ => true) _ (.ofActions ReceiptSys.initial exampleMutations)
  ⟨by decide +kernel, by decide +kernel, h.1, h.2.1⟩

end ResearchWorkbench
