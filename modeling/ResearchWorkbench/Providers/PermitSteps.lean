import ResearchWorkbench.Services.ProviderLimits

namespace ResearchWorkbench

/-!
# What a permit call does

* `PermitStep policy s a s'` — everything an action can do, said once;
* `PermitSys.step_cases` — every action does what `PermitStep` allows;
* `PermitSys.ReachableBy` — the states of the system, and its invariant rule.
-/

variable {policy : ProviderLimitPolicy} {s s' : PermitSys} {a : PermitAct}

/-- What an action may do. -/
inductive PermitStep (policy : ProviderLimitPolicy) (s : PermitSys) : PermitAct → PermitSys → Prop
  | idle (a : PermitAct) : PermitStep policy s a s
  | tick (ms : ℕ) : PermitStep policy s (.tick ms) { s with clock := s.clock + ms }
  | begin {call : PermitCall} (valid : call.validate policy = .ok ()) :
      PermitStep policy s (.begin call) { s with calls := s.calls ++ [⟨call, s.clock, .begun⟩] }
  | sweep {t : ℕ} {c : PermitTransaction} {scope : PermitScope} {ownerId : ℕ}
      (row : s.calls[t]? = some c) (call : c.call = .acquire scope ownerId) (phase : c.phase = .begun)
      (free : s.windowLocked scope = false) :
      PermitStep policy s (.next t)
        (s.setPhase t c (.swept (sweep policy s.windows s.permits c.now scope)))
  | decide {t : ℕ} {c : PermitTransaction} {scope : PermitScope} {ownerId : ℕ} {swept : Sweep}
      (row : s.calls[t]? = some c) (call : c.call = .acquire scope ownerId)
      (phase : c.phase = .swept swept) :
      PermitStep policy s (.next t)
        (s.setPhase t c (.decided swept (decidePermit policy swept s.permits c.now scope)))
  | commit {t : ℕ} {c : PermitTransaction} {scope : PermitScope} {ownerId : ℕ} {swept : Sweep}
      {decision : PermitDecision} (row : s.calls[t]? = some c)
      (call : c.call = .acquire scope ownerId) (phase : c.phase = .decided swept decision) :
      PermitStep policy s (.next t)
        ((s.commit policy scope ownerId c.now swept decision).setPhase t c
          (.returned (decision = .allowed)))
  /-- An extension or a release that changes nothing. -/
  | refuse {t : ℕ} {c : PermitTransaction} {phase : PermitPhase} (row : s.calls[t]? = some c)
      (begun : c.phase = .begun) (ends : phase = .returned false ∨ phase = .aborted) :
      PermitStep policy s (.next t) (s.setPhase t c phase)
  | update {t i : ℕ} {c : PermitTransaction} {p p' : Permit} (row : s.calls[t]? = some c)
      (phase : c.phase = .begun) (names : c.call.permitId = some i)
      (unlocked : s.permitLocked i = false) (permit : s.permits[i]? = some p)
      (update : c.call.update c.now p = .ok (some p')) :
      PermitStep policy s (.next t)
        ({ s with permits := s.permits.set i p' }.setPhase t c (.returned true))
  | abort {t : ℕ} {c : PermitTransaction} (row : s.calls[t]? = some c) :
      PermitStep policy s (.abort t) (s.setPhase t c .aborted)

theorem PermitSys.update_cases {t i : ℕ} {c : PermitTransaction} (hrow : s.calls[t]? = some c)
    (hphase : c.phase = .begun) (hnames : c.call.permitId = some i) :
    PermitStep policy s (.next t) (s.update t c i) := by
  unfold PermitSys.update
  split
  · exact .idle _
  · rename_i hlocked
    split
    · exact .refuse hrow hphase (.inl rfl)
    · split
      · exact .refuse hrow hphase (.inr rfl)
      · exact .refuse hrow hphase (.inl rfl)
      · split
        · exact .idle _
        · exact .update hrow hphase hnames (by simpa using hlocked) ‹_› ‹_›

/-- **Steps.**  Every action does what `PermitStep` allows. -/
theorem PermitSys.step_cases (policy : ProviderLimitPolicy) (s : PermitSys) (a : PermitAct) :
    PermitStep policy s a (s.step policy a) := by
  cases a with
  | tick ms => exact .tick ms
  | begin call =>
    simp only [PermitSys.step]
    split
    · exact .begin ‹_›
    · exact .idle _
  | next t =>
    simp only [PermitSys.step]
    split
    · rename_i c hrow
      unfold PermitSys.next
      split
      · split
        · exact .idle _
        · rename_i hfree
          exact .sweep hrow ‹_› ‹_› (by simpa using hfree)
      · exact .decide hrow ‹_› ‹_›
      · exact .commit hrow ‹_› ‹_›
      · split
        · exact PermitSys.update_cases hrow ‹_› ‹_›
        · exact .idle _
      · exact .idle _
    · exact .idle _
  | abort t =>
    simp only [PermitSys.step]
    split
    · rename_i c hrow
      split
      · exact .idle _
      · exact .abort hrow
    · exact .idle _

/-- The states reached by actions that each met `ok`. -/
def PermitSys.ReachableBy (policy : ProviderLimitPolicy) (ok : PermitSys → PermitAct → Prop)
    (s : PermitSys) : Prop :=
  Reach (PermitSys.step policy) ok .initial s

/-- **The invariant rule.** -/
theorem PermitSys.ReachableBy.invariant {ok : PermitSys → PermitAct → Prop} {I : PermitSys → Prop}
    (h : s.ReachableBy policy ok) (h₀ : I .initial)
    (hstep : ∀ s a s', I s → ok s a → PermitStep policy s a s' → I s') : I s :=
  Reach.invariant h h₀ fun s a hI hok => hstep s a _ hI hok (s.step_cases policy a)

/-- An extension or a release keeps the permit's scope and when it was acquired, and brings no
    permit back. -/
theorem PermitCall.update_ok {call : PermitCall} {now : ℕ} {p p' : Permit}
    (h : call.update now p = .ok (some p')) :
    p'.scope = p.scope ∧ p'.acquiredAt = p.acquiredAt ∧ p.releasedAt = none ∧
      (p'.releasedAt = none → ∃ i ownerId ttlMs, call = .extend i ownerId ttlMs ∧
        p'.expiresAt = now + ttlMs) := by
  cases call with
  | acquire => cases h
  | extend i ownerId ttlMs =>
    simp only [PermitCall.update] at h
    split at h
    · rename_i hwhere
      simp only [bind_eq_ok, pure_eq_ok, Option.some.injEq] at h
      obtain ⟨_, _, rfl⟩ := h
      exact ⟨rfl, rfl, hwhere.2.1, fun _ => ⟨i, ownerId, ttlMs, rfl, rfl⟩⟩
    · cases h
  | release i ownerId =>
    simp only [PermitCall.update] at h
    split at h
    · rename_i hwhere
      simp only [bind_eq_ok, pure_eq_ok, Option.some.injEq] at h
      obtain ⟨_, _, rfl⟩ := h
      exact ⟨rfl, rfl, hwhere.2, by intro h; cases h⟩
    · cases h

end ResearchWorkbench
