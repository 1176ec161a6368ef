import ResearchWorkbench.Providers.PermitSteps

namespace ResearchWorkbench

/-!
# Provider permits stay within their limits

An acquisition releases the expired permits before it counts, so the permits that are not released
never exceed the limit, unless an extension makes one of them expire in between: it takes `NOW()`
when it begins, and may only be carried out after the expiry that it sets.

* `Prompt` — an extension is carried out before the expiry that it sets;
* `WindowOk`, `SweepOk`, `PermitsOk` — the invariant;
* `PermitStep.permitsOk` — the step lemma;
* `provider_permits_within_limits` — both limits, and what a refused call changes.
-/

/-- The permits of a provider's operation that are not released. -/
def unreleasedPermits (permits : List Permit) (scope : PermitScope) : ℕ :=
  permits.countP fun p => p.scope = scope ∧ p.releasedAt = none

/-- The extension a call carries out, and the expiry it sets. -/
def PermitTransaction.newExpiry (c : PermitTransaction) : Option ℕ :=
  match c.call with
  | .extend _ _ ttlMs => some (c.now + ttlMs)
  | _ => none

/-- An extension is carried out before the expiry that it sets. -/
def Prompt (s : PermitSys) : PermitAct → Prop
  | .next t => ∀ c ∈ s.calls[t]?, ∀ expiry ∈ c.newExpiry, s.clock < expiry
  | _ => True

instance (s : PermitSys) : (a : PermitAct) → Decidable (Prompt s a)
  | .next t => inferInstanceAs (Decidable (∀ c ∈ s.calls[t]?, ∀ expiry ∈ c.newExpiry, _))
  | .tick _ | .begin _ | .abort _ => isTrue trivial

/-! ### The invariant -/

/-- The permits granted since the start of the window are within its count, which is within the
    limit, and the window covers all permits. -/
structure WindowOk (policy : ProviderLimitPolicy) (permits : List Permit) (scope : PermitScope)
    (window : RateWindow) : Prop where
  granted : grantedSince permits scope window.windowStartedAt ≤ window.requestCount
  count : window.requestCount ≤ policy.requestLimit
  within : ∀ p ∈ permits, p.scope = scope →
    p.acquiredAt < window.windowStartedAt + policy.windowSeconds * 1000

/-- What an acquisition holds: permits that have expired, and the window, which is that of the table
    unless it had expired. -/
structure SweepOk (policy : ProviderLimitPolicy) (windows : PermitScope → Option RateWindow)
    (permits : List Permit) (now : ℕ) (scope : PermitScope) (swept : Sweep) : Prop where
  released : ∀ i ∈ swept.released, ∃ p, permits[i]? = some p ∧ p.scope = scope ∧
    p.releasedAt = none ∧ p.expiresAt ≤ now
  window : WindowOk policy permits scope swept.window
  current : now < swept.window.windowStartedAt + policy.windowSeconds * 1000
  same : ∀ window, windows scope = some window →
    swept.window = window ∨ window.windowStartedAt + policy.windowSeconds * 1000 ≤ now

/-- The invariant of the system. -/
structure PermitsOk (policy : ProviderLimitPolicy) (s : PermitSys) : Prop where
  begun : ∀ c ∈ s.calls, c.now ≤ s.clock
  alone : ∀ (t u : ℕ) (c d : PermitTransaction) (scope : PermitScope) (x y : Sweep),
    s.calls[t]? = some c → s.calls[u]? = some d → c.held = some (scope, x) →
    d.held = some (scope, y) → t = u
  unreleased : ∀ scope, unreleasedPermits s.permits scope ≤ policy.concurrencyLimit
  windows : ∀ scope window, s.windows scope = some window → WindowOk policy s.permits scope window
  fresh : ∀ scope, s.windows scope = none → ∀ p ∈ s.permits, p.scope ≠ scope
  held : ∀ c ∈ s.calls, ∀ scope swept, c.held = some (scope, swept) →
    SweepOk policy s.windows s.permits c.now scope swept
  swept : ∀ c ∈ s.calls, ∀ scope ownerId swept, c.call = .acquire scope ownerId →
    c.phase = .swept swept → ∀ (i : ℕ) (p : Permit), s.permits[i]? = some p → p.scope = scope →
    p.releasedAt = none → i ∉ swept.released → c.now < p.expiresAt
  allowed : ∀ c ∈ s.calls, ∀ scope ownerId swept, c.call = .acquire scope ownerId →
    c.phase = .decided swept .allowed →
    unreleasedPermits (swept.permits c.now s.permits) scope < policy.concurrencyLimit ∧
      swept.window.requestCount < policy.requestLimit

/-! ### Permits of a scope that only go away -/

/-- Every permit of the scope was there before, and was not brought back. -/
def Shrinks (scope : PermitScope) (permits permits' : List Permit) : Prop :=
  ∀ (k : ℕ) (b : Permit), permits'[k]? = some b → b.scope = scope → ∃ a, permits[k]? = some a ∧
    a.scope = scope ∧ a.acquiredAt = b.acquiredAt ∧ (b.releasedAt = none → a.releasedAt = none)

section
variable {policy : ProviderLimitPolicy} {permits permits' : List Permit} {scope : PermitScope}
  {window : RateWindow} {swept : Sweep} {now i : ℕ} {p p' : Permit}

theorem Shrinks.unreleased (h : Shrinks scope permits permits') :
    unreleasedPermits permits' scope ≤ unreleasedPermits permits scope := by
  refine countP_le_of_rows fun k b hb hq => ?_
  simp only [Bool.decide_and, Bool.and_eq_true, decide_eq_true_eq] at hq ⊢
  obtain ⟨a, ha, hscope, _, hreleased⟩ := h k b hb hq.1
  exact ⟨a, ha, hscope, hreleased hq.2⟩

theorem Shrinks.granted (h : Shrinks scope permits permits') (time : ℕ) :
    grantedSince permits' scope time ≤ grantedSince permits scope time := by
  refine countP_le_of_rows fun k b hb hq => ?_
  simp only [Bool.decide_and, Bool.and_eq_true, decide_eq_true_eq] at hq ⊢
  obtain ⟨a, ha, hscope, hacquired, _⟩ := h k b hb hq.1
  exact ⟨a, ha, hscope, hacquired ▸ hq.2⟩

theorem WindowOk.shrink (hw : WindowOk policy permits scope window)
    (h : Shrinks scope permits permits') : WindowOk policy permits' scope window := by
  refine ⟨(h.granted _).trans hw.granted, hw.count, fun b hmem hscope => ?_⟩
  obtain ⟨k, hk⟩ := List.mem_iff_getElem?.mp hmem
  obtain ⟨a, ha, hscope', hacquired, _⟩ := h k b hk hscope
  rw [← hacquired]
  exact hw.within a (List.mem_of_getElem? ha) hscope'

/-- Releasing permits. -/
theorem Sweep.shrinks (swept : Sweep) (now : ℕ) (scope : PermitScope) (permits : List Permit) :
    Shrinks scope permits (swept.permits now permits) := by
  intro k b hb hscope
  simp only [Sweep.permits, getElem?_updateWhere, Option.map_eq_some_iff] at hb
  obtain ⟨a, ha, rfl⟩ := hb
  refine ⟨a, ha, ?_⟩
  revert hscope
  split
  · exact fun hscope => ⟨hscope, rfl, nofun⟩
  · exact fun hscope => ⟨hscope, rfl, id⟩

/-- Updating one permit. -/
theorem shrinks_set (scope : PermitScope) (hp : permits[i]? = some p) (hscope : p'.scope = p.scope)
    (hacquired : p'.acquiredAt = p.acquiredAt) (hreleased : p.releasedAt = none) :
    Shrinks scope permits (permits.set i p') := by
  intro k b hb hbscope
  by_cases hik : i = k
  · subst hik
    obtain rfl : p' = b := by
      rw [List.getElem?_set_self (List.getElem?_eq_some_iff.mp hp).1] at hb
      exact Option.some.inj hb
    exact ⟨p, hp, hscope ▸ hbscope, hacquired.symm, fun _ => hreleased⟩
  · rw [List.getElem?_set_ne hik] at hb
    exact ⟨b, hb, hbscope, rfl, id⟩

theorem Shrinks.sweep (h : Shrinks scope permits permits') (swept : Sweep) (now : ℕ) :
    Shrinks scope (swept.permits now permits) (swept.permits now permits') := by
  intro k b hb hscope
  simp only [Sweep.permits, getElem?_updateWhere, Option.map_eq_some_iff] at hb ⊢
  obtain ⟨b, hb, rfl⟩ := hb
  by_cases hk : k ∈ swept.released
  · simp only [hk, decide_true, if_true] at hscope ⊢
    obtain ⟨a, ha, hscope, hacquired, _⟩ := h k b hb hscope
    exact ⟨a.release now, ⟨a, ha, rfl⟩, hscope, hacquired, nofun⟩
  · simp only [hk, decide_false, Bool.false_eq_true, if_false] at hscope ⊢
    obtain ⟨a, ha, hshrinks⟩ := h k b hb hscope
    exact ⟨a, ⟨a, ha, rfl⟩, hshrinks⟩

/-- The permits of the scope are the same. -/
def SamePermits (scope : PermitScope) (permits permits' : List Permit) : Prop :=
  ∀ (k : ℕ) (b : Permit), b.scope = scope → (permits'[k]? = some b ↔ permits[k]? = some b)

theorem SamePermits.shrinks (h : SamePermits scope permits permits') :
    Shrinks scope permits permits' := fun k b hb hscope =>
  ⟨b, (h k b hscope).mp hb, hscope, rfl, id⟩

/-- A commit leaves the permits of other scopes alone. -/
theorem Sweep.same {scope' : PermitScope} (hne : scope' ≠ scope)
    (hreleased : ∀ i ∈ swept.released, ∃ p, permits[i]? = some p ∧ p.scope = scope) :
    SamePermits scope' permits (swept.permits now permits) := by
  intro k b hscope
  simp only [Sweep.permits, getElem?_updateWhere, Option.map_eq_some_iff]
  by_cases hk : k ∈ swept.released
  · obtain ⟨p, hp, hpscope⟩ := hreleased k hk
    simp only [hp, hk, decide_true, if_true, Option.some.injEq]
    constructor
    · rintro ⟨_, rfl, rfl⟩
      exact absurd (hscope.symm.trans hpscope) hne
    · rintro rfl
      exact absurd (hscope.symm.trans hpscope) hne
  · simp [hk]

theorem SamePermits.append (h : SamePermits scope permits permits') (hne : p.scope ≠ scope) :
    SamePermits scope permits (permits' ++ [p]) := by
  intro k b hscope
  rw [← h k b hscope, List.getElem?_append]
  split
  · rfl
  · rename_i hk
    rw [List.getElem?_eq_none (Nat.not_lt.mp hk)]
    refine iff_of_false (fun hb => ?_) nofun
    obtain rfl : b = p := by simpa using List.mem_of_getElem? hb
    exact hne hscope

end

/-! ### The step lemma -/

section
variable {policy : ProviderLimitPolicy} {s s' : PermitSys} {a : PermitAct} {t : ℕ}
  {c c' : PermitTransaction} {scope : PermitScope} {swept : Sweep}

/-- The calls after one of them went on. -/
theorem getElem?_set_call {calls : List PermitTransaction} {u : ℕ} {d : PermitTransaction}
    (h : (calls.set t c')[u]? = some d) : u = t ∧ d = c' ∨ u ≠ t ∧ calls[u]? = some d := by
  by_cases htu : t = u
  · subst htu
    rw [List.getElem?_set] at h
    simp only [if_true] at h
    split at h
    · exact .inl ⟨rfl, (Option.some.inj h).symm⟩
    · cases h
  · rw [List.getElem?_set_ne htu] at h
    exact .inr ⟨fun h => htu h.symm, h⟩

theorem held_swept {ownerId : ℕ} (hcall : c.call = .acquire scope ownerId)
    (hphase : c.phase = .swept swept) : c.held = some (scope, swept) := by
  simp [PermitTransaction.held, hcall, hphase]

theorem held_decided {ownerId : ℕ} {decision : PermitDecision}
    (hcall : c.call = .acquire scope ownerId) (hphase : c.phase = .decided swept decision) :
    c.held = some (scope, swept) := by
  simp [PermitTransaction.held, hcall, hphase]

/-- A call that holds nothing is added or takes the place of another one. -/
theorem PermitsOk.setIdle (h : PermitsOk policy s) {calls : List PermitTransaction}
    (hcalls : ∀ (u : ℕ) (d : PermitTransaction), calls[u]? = some d →
      s.calls[u]? = some d ∨ d.held = none ∧ d.now ≤ s.clock) :
    PermitsOk policy { s with calls := calls } := by
  have hmem {d : PermitTransaction} (hd : d ∈ calls) :
      d ∈ s.calls ∨ d.held = none ∧ d.now ≤ s.clock := by
    obtain ⟨u, hu⟩ := List.mem_iff_getElem?.mp hd
    exact (hcalls u d hu).imp List.mem_of_getElem? id
  have hholds {d : PermitTransaction} {x : PermitScope × Sweep} (hd : d ∈ calls)
      (hx : d.held = some x) : d ∈ s.calls := by
    refine (hmem hd).resolve_right fun hnone => ?_
    rw [hnone.1] at hx
    cases hx
  refine ⟨fun d hd => ?_, fun u v d e scope x y hu hv hx hy => ?_, h.unreleased, h.windows, h.fresh,
    fun d hd scope swept hx => h.held d (hholds hd hx) scope swept hx,
    fun d hd scope ownerId swept hcall hphase => ?_,
    fun d hd scope ownerId swept hcall hphase => ?_⟩
  · exact (hmem hd).elim (h.begun d) And.right
  · have hu := (hcalls u d hu).resolve_right fun hnone => by rw [hnone.1] at hx; cases hx
    have hv := (hcalls v e hv).resolve_right fun hnone => by rw [hnone.1] at hy; cases hy
    exact h.alone u v d e scope x y hu hv hx hy
  · exact h.swept d (hholds hd (held_swept hcall hphase)) scope ownerId swept hcall hphase
  · exact h.allowed d (hholds hd (held_decided hcall hphase)) scope ownerId swept hcall hphase

theorem PermitsOk.setPhase_idle (h : PermitsOk policy s) {phase : PermitPhase}
    (hrow : s.calls[t]? = some c) (hphase : PermitTransaction.held { c with phase } = none) :
    PermitsOk policy (s.setPhase t c phase) := by
  refine h.setIdle fun u d hd => ?_
  obtain ⟨rfl, rfl⟩ | ⟨_, hd⟩ := getElem?_set_call hd
  · exact .inr ⟨hphase, h.begun c (List.mem_of_getElem? hrow)⟩
  · exact .inl hd

theorem held_returned (c : PermitTransaction) (allowed : Bool) :
    PermitTransaction.held { c with phase := .returned allowed } = none := by
  unfold PermitTransaction.held
  split <;> simp_all

theorem held_aborted (c : PermitTransaction) :
    PermitTransaction.held { c with phase := .aborted } = none := by
  unfold PermitTransaction.held
  split <;> simp_all

theorem mem_sweep_released {windows : PermitScope → Option RateWindow} {permits : List Permit}
    {now i : ℕ} :
    i ∈ (sweep policy windows permits now scope).released ↔
      ∃ p, permits[i]? = some p ∧ p.scope = scope ∧ p.releasedAt = none ∧ p.expiresAt ≤ now := by
  unfold sweep
  simp [mem_idsWhere]

/-- What the first statements of an acquisition find. -/
theorem sweep_ok (h : PermitsOk policy s) (hpolicy : 1 ≤ policy.windowSeconds) (now : ℕ)
    (scope : PermitScope) :
    SweepOk policy s.windows s.permits now scope (sweep policy s.windows s.permits now scope) := by
  have hreleased : ∀ i ∈ (sweep policy s.windows s.permits now scope).released,
      ∃ p, s.permits[i]? = some p ∧ p.scope = scope ∧ p.releasedAt = none ∧ p.expiresAt ≤ now :=
    fun i hi => mem_sweep_released.mp hi
  -- a new window counts no permit
  have hnew (hnone : ∀ p ∈ s.permits, p.scope = scope → p.acquiredAt < now) :
      WindowOk policy s.permits scope ⟨now, 0⟩ := by
    refine ⟨?_, Nat.zero_le _, fun p hmem hscope => ?_⟩
    · refine Nat.le_zero.mpr (List.countP_eq_zero.mpr fun p hmem hq => ?_)
      simp only [Bool.decide_and, Bool.and_eq_true, decide_eq_true_eq] at hq
      exact absurd (hnone p hmem hq.1) (Nat.not_lt.mpr hq.2)
    · exact (hnone p hmem hscope).trans_le (Nat.le_add_right _ _)
  have hpos : now < now + policy.windowSeconds * 1000 := by omega
  refine ⟨hreleased, ?_, ?_, ?_⟩ <;> unfold sweep <;> cases hw : s.windows scope with
  | none =>
    have hfresh := h.fresh scope hw
    simp only [Option.getD_none, Nat.not_le.mpr hpos, decide_false, Bool.false_eq_true, if_false]
    first
      | exact hnew fun p hmem hscope => absurd hscope (hfresh p hmem)
      | exact hpos
      | nofun
  | some w =>
    have hok := h.windows scope w hw
    simp only [Option.getD_some, decide_eq_true_eq]
    by_cases hexpired : w.windowStartedAt + policy.windowSeconds * 1000 ≤ now
    · simp only [hexpired, if_true]
      first
        | exact hnew fun p hmem hscope => (hok.within p hmem hscope).trans_le hexpired
        | exact hpos
        | exact fun _ hsame => .inr (Option.some.inj hsame ▸ hexpired)
    · simp only [hexpired, if_false]
      first
        | exact hok
        | exact Nat.not_le.mp hexpired
        | exact fun _ hsame => .inl (Option.some.inj hsame)

theorem PermitsOk.sweep (h : PermitsOk policy s) (hpolicy : 1 ≤ policy.windowSeconds)
    {ownerId : ℕ} (hrow : s.calls[t]? = some c) (hcall : c.call = .acquire scope ownerId)
    (hfree : s.windowLocked scope = false) :
    PermitsOk policy
      (s.setPhase t c (.swept (sweep policy s.windows s.permits c.now scope))) := by
  have hc := List.mem_of_getElem? hrow
  set swept := ResearchWorkbench.sweep policy s.windows s.permits c.now scope with hswept
  have hheld : PermitTransaction.held { c with phase := .swept swept } = some (scope, swept) :=
    held_swept hcall rfl
  -- no call holds the window
  have hnone {d : PermitTransaction} (hd : d ∈ s.calls) {y : Sweep} :
      d.held ≠ some (scope, y) := by
    intro hy
    have := List.any_eq_false.mp hfree d hd
    simp [hy] at this
  have hmem {d : PermitTransaction} (hd : d ∈ s.calls.set t { c with phase := .swept swept }) :
      d ∈ s.calls ∨ d = { c with phase := .swept swept } := List.mem_or_eq_of_mem_set hd
  refine ⟨fun d hd => ?_, fun u v d e scope' x y hu hv hx hy => ?_, h.unreleased, h.windows,
    h.fresh, fun d hd scope' swept' hx => ?_, fun d hd scope' ownerId' swept' hcall' hphase' => ?_,
    fun d hd scope' ownerId' swept' hcall' hphase' => ?_⟩
  · obtain hd | rfl := hmem hd
    · exact h.begun d hd
    · exact h.begun c hc
  · obtain ⟨rfl, rfl⟩ | ⟨_, hu'⟩ := getElem?_set_call hu
    · obtain ⟨rfl, rfl⟩ | ⟨_, hv'⟩ := getElem?_set_call hv
      · rfl
      · rw [hheld] at hx
        cases hx
        exact absurd hy (hnone (List.mem_of_getElem? hv'))
    · obtain ⟨rfl, rfl⟩ | ⟨_, hv'⟩ := getElem?_set_call hv
      · rw [hheld] at hy
        cases hy
        exact absurd hx (hnone (List.mem_of_getElem? hu'))
      · exact h.alone u v d e scope' x y hu' hv' hx hy
  · obtain hd | rfl := hmem hd
    · exact h.held d hd scope' swept' hx
    · rw [hheld] at hx
      cases hx
      exact sweep_ok h hpolicy c.now scope
  · obtain hd | rfl := hmem hd
    · exact h.swept d hd scope' ownerId' swept' hcall' hphase'
    · obtain rfl : swept = swept' := by simpa using hphase'
      obtain ⟨rfl, rfl⟩ : scope = scope' ∧ ownerId = ownerId' := by simpa [hcall] using hcall'
      intro i p hp hscope hreleased hnot
      by_contra hexpired
      exact hnot (mem_sweep_released.mpr ⟨p, hp, hscope, hreleased, Nat.not_lt.mp hexpired⟩)
  · obtain hd | rfl := hmem hd
    · exact h.allowed d hd scope' ownerId' swept' hcall' hphase'
    · cases hphase'

theorem PermitsOk.decide (h : PermitsOk policy s) {ownerId : ℕ} (hrow : s.calls[t]? = some c)
    (hcall : c.call = .acquire scope ownerId) (hphase : c.phase = .swept swept) :
    PermitsOk policy
      (s.setPhase t c (.decided swept (decidePermit policy swept s.permits c.now scope))) := by
  have hc := List.mem_of_getElem? hrow
  set decision := decidePermit policy swept s.permits c.now scope with hdecision
  have hheld : PermitTransaction.held { c with phase := .decided swept decision } =
      some (scope, swept) := held_decided hcall rfl
  have hheld₀ : c.held = some (scope, swept) := held_swept hcall hphase
  have hmem {d : PermitTransaction}
      (hd : d ∈ s.calls.set t { c with phase := .decided swept decision }) :
      d ∈ s.calls ∨ d = { c with phase := .decided swept decision } :=
    List.mem_or_eq_of_mem_set hd
  have hback {u : ℕ} {d : PermitTransaction} {x : PermitScope × Sweep}
      (hu : (s.calls.set t { c with phase := .decided swept decision })[u]? = some d)
      (hx : d.held = some x) : ∃ d', s.calls[u]? = some d' ∧ d'.held = some x := by
    obtain ⟨rfl, rfl⟩ | ⟨_, hu⟩ := getElem?_set_call hu
    · exact ⟨c, hrow, by rw [← hx, hheld, hheld₀]⟩
    · exact ⟨d, hu, hx⟩
  refine ⟨fun d hd => ?_, fun u v d e scope' x y hu hv hx hy => ?_, h.unreleased, h.windows,
    h.fresh, fun d hd scope' swept' hx => ?_, fun d hd scope' ownerId' swept' hcall' hphase' => ?_,
    fun d hd scope' ownerId' swept' hcall' hphase' => ?_⟩
  · obtain hd | rfl := hmem hd
    · exact h.begun d hd
    · exact h.begun c hc
  · obtain ⟨d', hu, hx⟩ := hback hu hx
    obtain ⟨e', hv, hy⟩ := hback hv hy
    exact h.alone u v d' e' scope' x y hu hv hx hy
  · obtain hd | rfl := hmem hd
    · exact h.held d hd scope' swept' hx
    · rw [hheld] at hx
      cases hx
      exact h.held c hc scope swept hheld₀
  · obtain hd | rfl := hmem hd
    · exact h.swept d hd scope' ownerId' swept' hcall' hphase'
    · cases hphase'
  · obtain hd | rfl := hmem hd
    · exact h.allowed d hd scope' ownerId' swept' hcall' hphase'
    · obtain ⟨rfl, rfl⟩ : scope = scope' ∧ ownerId = ownerId' := by simpa [hcall] using hcall'
      obtain ⟨rfl, hallowed⟩ : swept = swept' ∧ decision = .allowed := by simpa using hphase'
      rw [hdecision] at hallowed
      simp only [decidePermit] at hallowed
      split at hallowed
      · cases hallowed
      split at hallowed
      · cases hallowed
      rename_i hcount hrequests
      refine ⟨lt_of_le_of_lt ?_ (Nat.not_le.mp hcount), Nat.not_le.mp hrequests⟩
      -- what is not released has not expired
      refine List.countP_mono_left fun p hmem hp => ?_
      simp only [Bool.decide_and, Bool.and_eq_true, decide_eq_true_eq] at hp ⊢
      refine ⟨hp.1, hp.2, ?_⟩
      obtain ⟨i, hi⟩ := List.mem_iff_getElem?.mp hmem
      simp only [Sweep.permits, getElem?_updateWhere, Option.map_eq_some_iff] at hi
      obtain ⟨q, hq, rfl⟩ := hi
      by_cases hrel : i ∈ swept.released
      · simp [hrel, Permit.release] at hp
      · simp only [hrel, decide_false, Bool.false_eq_true, if_false] at hp ⊢
        exact h.swept c hc scope ownerId swept hcall hphase i q hq hp.1 hp.2 hrel

/-- The commit of the call that holds a window: it changes permits of its own scope only. -/
theorem PermitsOk.commitWith (h : PermitsOk policy s) (hrow : s.calls[t]? = some c)
    (hheld : c.held = some (scope, swept)) {permits : List Permit} {window : RateWindow}
    (hsame : ∀ scope' ≠ scope, SamePermits scope' s.permits permits)
    (hunreleased : unreleasedPermits permits scope ≤ policy.concurrencyLimit)
    (hwindow : WindowOk policy permits scope window) (allowed : Bool) :
    PermitsOk policy ({ s with
      windows := Function.update s.windows scope (some window)
      permits := permits }.setPhase t c (.returned allowed)) := by
  have hend := held_returned c allowed
  have hself : Function.update s.windows scope (some window) scope = some window :=
    Function.update_self ..
  have hwindows {scope' : PermitScope} (hne : scope' ≠ scope) :
      Function.update s.windows scope (some window) scope' = s.windows scope' :=
    Function.update_of_ne hne ..
  -- another call holds another window
  have hother {u : ℕ} {d : PermitTransaction} {scope' : PermitScope} {x : Sweep}
      (hu : (s.calls.set t { c with phase := .returned allowed })[u]? = some d)
      (hx : d.held = some (scope', x)) : s.calls[u]? = some d ∧ scope' ≠ scope := by
    obtain ⟨rfl, rfl⟩ | ⟨hne, hu'⟩ := getElem?_set_call hu
    · rw [hend] at hx
      cases hx
    · refine ⟨hu', ?_⟩
      rintro rfl
      exact hne (h.alone u t d c scope' x swept hu' hrow hx hheld)
  have hmem {d : PermitTransaction} {scope' : PermitScope} {x : Sweep}
      (hd : d ∈ s.calls.set t { c with phase := .returned allowed })
      (hx : d.held = some (scope', x)) : d ∈ s.calls ∧ scope' ≠ scope := by
    obtain ⟨u, hu⟩ := List.mem_iff_getElem?.mp hd
    exact (hother hu hx).imp List.mem_of_getElem? id
  refine ⟨fun d hd => ?_, fun u v d e scope' x y hu hv hx hy => ?_, fun scope' => ?_,
    fun scope' w hw => ?_, fun scope' hw p hp hscope => ?_, fun d hd scope' swept' hx => ?_,
    fun d hd scope' ownerId' swept' hcall' hphase' => ?_,
    fun d hd scope' ownerId' swept' hcall' hphase' => ?_⟩
  · obtain hd | rfl := List.mem_or_eq_of_mem_set hd
    · exact h.begun d hd
    · exact h.begun c (List.mem_of_getElem? hrow)
  · exact h.alone u v d e scope' x y (hother hu hx).1 (hother hv hy).1 hx hy
  · by_cases hscope : scope' = scope
    · exact hscope ▸ hunreleased
    · exact (hsame scope' hscope).shrinks.unreleased.trans (h.unreleased scope')
  · by_cases hscope : scope' = scope
    · subst hscope
      exact Option.some.inj (hself.symm.trans hw) ▸ hwindow
    · exact WindowOk.shrink (h.windows scope' w ((hwindows hscope).symm.trans hw))
        (hsame scope' hscope).shrinks
  · by_cases hne : scope' = scope
    · subst hne
      cases hself.symm.trans hw
    · obtain ⟨k, hk⟩ := List.mem_iff_getElem?.mp hp
      exact h.fresh scope' ((hwindows hne).symm.trans hw) p
        (List.mem_of_getElem? ((hsame scope' hne k p hscope).mp hk)) hscope
  · obtain ⟨hd, hne⟩ := hmem hd hx
    have hok := h.held d hd scope' swept' hx
    refine ⟨fun i hi => ?_, hok.window.shrink (hsame scope' hne).shrinks, hok.current,
      fun w hw => hok.same w ((hwindows hne).symm.trans hw)⟩
    obtain ⟨p, hp, hscope, hrest⟩ := hok.released i hi
    exact ⟨p, (hsame scope' hne i p hscope).mpr hp, hscope, hrest⟩
  · obtain ⟨hd, hne⟩ := hmem hd (held_swept hcall' hphase')
    intro i p hp hscope
    exact h.swept d hd scope' ownerId' swept' hcall' hphase' i p
      ((hsame scope' hne i p hscope).mp hp) hscope
  · obtain ⟨hd, hne⟩ := hmem hd (held_decided hcall' hphase')
    obtain ⟨hcount, hrequests⟩ := h.allowed d hd scope' ownerId' swept' hcall' hphase'
    exact ⟨((hsame scope' hne).shrinks.sweep _ _).unreleased.trans_lt hcount, hrequests⟩

/-- The commit of an acquisition. -/
theorem PermitsOk.commit (h : PermitsOk policy s) {ownerId : ℕ} {decision : PermitDecision}
    (hrow : s.calls[t]? = some c) (hcall : c.call = .acquire scope ownerId)
    (hphase : c.phase = .decided swept decision) :
    PermitsOk policy ((s.commit policy scope ownerId c.now swept decision).setPhase t c
      (.returned (decision = .allowed))) := by
  have hc := List.mem_of_getElem? hrow
  have hheld := held_decided hcall hphase
  have hok := h.held c hc scope swept hheld
  have hsame : ∀ scope' ≠ scope, SamePermits scope' s.permits (swept.permits c.now s.permits) :=
    fun scope' hne => Sweep.same hne fun i hi => by
      obtain ⟨p, hp, hscope, _⟩ := hok.released i hi
      exact ⟨p, hp, hscope⟩
  have hshrinks := swept.shrinks c.now scope s.permits
  have hwindow := hok.window.shrink hshrinks
  have hrefused := h.commitWith hrow hheld hsame (hshrinks.unreleased.trans (h.unreleased scope))
    hwindow
  cases decision with
  | concurrency retryAfterMs => exact hrefused _
  | requestWindow retryAfterMs => exact hrefused _
  | allowed =>
    obtain ⟨hcount, hrequests⟩ := h.allowed c hc scope ownerId swept hcall hphase
    refine h.commitWith hrow hheld
      (fun scope' hne => (hsame scope' hne).append fun hscope => hne hscope.symm) ?_
      ⟨?_, Nat.succ_le_of_lt hrequests, ?_⟩ _
    · simpa [unreleasedPermits, List.countP_append, newPermit, Nat.succ_le_iff] using hcount
    · refine le_trans ?_ (Nat.add_le_add_right hwindow.granted 1)
      simp only [grantedSince, List.countP_append]
      exact Nat.add_le_add_left (List.countP_le_length ..) _
    · intro p hp hscope
      obtain hp | hp := List.mem_append.mp hp
      · exact hwindow.within p hp hscope
      · obtain rfl := List.mem_singleton.mp hp
        exact hok.current

/-- An extension carried out before the expiry that it sets, or a release. -/
theorem PermitsOk.update (h : PermitsOk policy s) {i : ℕ} {p p' : Permit}
    (hrow : s.calls[t]? = some c) (hunlocked : s.permitLocked i = false)
    (hp : s.permits[i]? = some p) (hupdate : c.call.update c.now p = .ok (some p'))
    (hprompt : ∀ expiry ∈ c.newExpiry, s.clock < expiry) :
    PermitsOk policy ({ s with permits := s.permits.set i p' }.setPhase t c (.returned true)) := by
  obtain ⟨hscope, hacquired, hreleased, hexpires⟩ := PermitCall.update_ok hupdate
  have hshrinks (scope : PermitScope) := shrinks_set scope hp hscope hacquired hreleased
  -- no call that holds a window has updated this permit
  have hfree {d : PermitTransaction} (hd : d ∈ s.calls) {scope : PermitScope} {swept : Sweep}
      (hx : d.held = some (scope, swept)) : i ∉ swept.released := by
    have := List.any_eq_false.mp hunlocked d hd
    simpa [hx] using this
  refine PermitsOk.setPhase_idle (s := { s with permits := s.permits.set i p' }) ?_ hrow
    (held_returned c true)
  refine ⟨h.begun, h.alone, fun scope => (hshrinks scope).unreleased.trans (h.unreleased scope),
    fun scope w hw => (h.windows scope w hw).shrink (hshrinks scope),
    fun scope hw q hq hqscope => ?_, fun d hd scope swept hx => ?_,
    fun d hd scope ownerId swept hcall hphase k q hq hqscope hqreleased hnot => ?_,
    fun d hd scope ownerId swept hcall hphase => ?_⟩
  · obtain ⟨k, hk⟩ := List.mem_iff_getElem?.mp hq
    obtain ⟨a, ha, hascope, _⟩ := hshrinks scope k q hk hqscope
    exact h.fresh scope hw a (List.mem_of_getElem? ha) hascope
  · have hok := h.held d hd scope swept hx
    refine ⟨fun k hk => ?_, hok.window.shrink (hshrinks scope), hok.current, hok.same⟩
    obtain ⟨q, hq, hrest⟩ := hok.released k hk
    refine ⟨q, ?_, hrest⟩
    rwa [List.getElem?_set_ne]
    rintro rfl
    exact hfree hd hx hk
  · by_cases hik : i = k
    · subst hik
      obtain rfl : p' = q := by
        rw [List.getElem?_set_self (List.getElem?_eq_some_iff.mp hp).1] at hq
        exact Option.some.inj hq
      obtain ⟨_, _, ttlMs, hextend, hexpiry⟩ := hexpires hqreleased
      rw [hexpiry]
      exact (h.begun d hd).trans_lt (hprompt _ (by simp [PermitTransaction.newExpiry, hextend]))
    · rw [List.getElem?_set_ne hik] at hq
      exact h.swept d hd scope ownerId swept hcall hphase k q hq hqscope hqreleased hnot
  · obtain ⟨hcount, hrequests⟩ := h.allowed d hd scope ownerId swept hcall hphase
    exact ⟨((hshrinks scope).sweep _ _).unreleased.trans_lt hcount, hrequests⟩

/-- **Step lemma.** -/
theorem PermitStep.permitsOk (hpolicy : 1 ≤ policy.windowSeconds) (h : PermitsOk policy s)
    (hok : Prompt s a) (hs : PermitStep policy s a s') : PermitsOk policy s' := by
  cases hs with
  | idle => exact h
  | tick ms =>
    exact ⟨fun c hc => (h.begun c hc).trans (Nat.le_add_right _ _), h.alone, h.unreleased,
      h.windows, h.fresh, h.held, h.swept, h.allowed⟩
  | @begin call =>
    refine h.setIdle fun u d hd => ?_
    rw [List.getElem?_append] at hd
    split at hd
    · exact .inl hd
    · obtain rfl : d = ⟨call, s.clock, .begun⟩ := by simpa using List.mem_of_getElem? hd
      refine .inr ⟨?_, le_rfl⟩
      unfold PermitTransaction.held
      split <;> simp_all
  | sweep row call _ free => exact h.sweep hpolicy row call free
  | decide row call phase => exact h.decide row call phase
  | commit row call phase => exact h.commit row call phase
  | @refuse t c phase row _ ends =>
    refine h.setPhase_idle row ?_
    obtain rfl | rfl := ends
    · exact held_returned c false
    · exact held_aborted c
  | @update t i c p p' row _ _ unlocked permit update =>
    exact h.update row unlocked permit update (hok c row)
  | @abort t c row => exact h.setPhase_idle row (held_aborted c)

theorem PermitSys.ReachableBy.permitsOk (hvalid : validatePolicy policy = .ok ())
    (h : s.ReachableBy policy Prompt) : PermitsOk policy s := by
  have hpolicy : 1 ≤ policy.windowSeconds := by
    simp only [validatePolicy, validateLimit, bind_eq_ok, ensure_eq_ok] at hvalid
    obtain ⟨_, _, _, hwindow, _⟩ := hvalid
    exact hwindow.1
  refine PermitSys.ReachableBy.invariant h ?_ fun s a s' hI hok hs => hs.permitsOk hpolicy hI hok
  constructor <;> simp [PermitSys.initial, unreleasedPermits]

/-- No permit of the operation is active that the invariant does not count. -/
theorem PermitsOk.active (h : PermitsOk policy s) (scope : PermitScope) :
    activePermits s.permits scope s.clock ≤ policy.concurrencyLimit := by
  refine le_trans (List.countP_mono_left fun p _ hp => ?_) (h.unreleased scope)
  simp only [Bool.decide_and, Bool.and_eq_true, decide_eq_true_eq] at hp ⊢
  exact ⟨hp.1, hp.2.1⟩

/-! ### Refused calls -/

/-- The expired permits that an acquisition releases were not active, and stay granted. -/
theorem SweepOk.counts {now time : ℕ}
    (hok : SweepOk policy s.windows s.permits now scope swept) (hnow : now ≤ time)
    (scope' : PermitScope) :
    activePermits (swept.permits now s.permits) scope' time =
        activePermits s.permits scope' time ∧
      ∀ since, grantedSince (swept.permits now s.permits) scope' since =
        grantedSince s.permits scope' since := by
  refine ⟨countP_updateWhere_same fun i p hp hi => ?_,
    fun since => countP_updateWhere_same fun _ _ _ _ => rfl⟩
  obtain ⟨p', hp', _, _, hexpired⟩ := hok.released i (by simpa using hi)
  obtain rfl : p' = p := Option.some.inj (hp'.symm.trans hp)
  simp [Permit.release, Nat.not_lt.mpr (hexpired.trans hnow)]

/-- What a statement of a call changes that is not granted: no count, and no window but an expired
    one that it rolls over. -/
structure PermitsKept (policy : ProviderLimitPolicy) (s s' : PermitSys) (c : PermitTransaction) :
    Prop where
  active : ∀ scope, activePermits s'.permits scope s'.clock = activePermits s.permits scope s.clock
  granted : ∀ scope since, grantedSince s'.permits scope since = grantedSince s.permits scope since
  windows : ∀ scope window, s.windows scope = some window → s'.windows scope = some window ∨
    window.windowStartedAt + policy.windowSeconds * 1000 ≤ c.now ∧
      ∃ ownerId, c.call = .acquire scope ownerId

theorem PermitsKept.of_eq (hpermits : s'.permits = s.permits) (hclock : s'.clock = s.clock)
    (hwindows : s'.windows = s.windows) : PermitsKept policy s s' c := by
  refine ⟨fun scope => by rw [hpermits, hclock], fun scope since => by rw [hpermits],
    fun scope window hw => .inl ?_⟩
  rwa [hwindows]

/-- A statement of a call that has not been granted thereby. -/
theorem PermitsOk.kept (h : PermitsOk policy s) (hs : PermitStep policy s (.next t) s')
    (hrow : s.calls[t]? = some c)
    (hrefused : ∀ d ∈ s'.calls[t]?, ∀ allowed, d.phase = .returned allowed → allowed = false) :
    PermitsKept policy s s' c := by
  have hset {phase : PermitPhase} :
      (s.calls.set t { c with phase := phase })[t]? = some { c with phase := phase } :=
    List.getElem?_set_self (List.getElem?_eq_some_iff.mp hrow).1
  cases hs with
  | idle => exact .of_eq rfl rfl rfl
  | sweep => exact .of_eq rfl rfl rfl
  | decide => exact .of_eq rfl rfl rfl
  | refuse => exact .of_eq rfl rfl rfl
  | @update _ i d p p' row phase names unlocked permit update =>
    obtain rfl : c = d := Option.some.inj (hrow.symm.trans row)
    cases hrefused _ hset true rfl
  | @commit _ d scope ownerId swept decision row call phase =>
    obtain rfl : c = d := Option.some.inj (hrow.symm.trans row)
    have hc := List.mem_of_getElem? hrow
    have hok := h.held c hc scope swept (held_decided call phase)
    have hcounts := hok.counts (h.begun c hc)
    have hend : PermitsKept policy s { s with
        windows := Function.update s.windows scope (some swept.window)
        permits := swept.permits c.now s.permits } c := by
      refine ⟨fun scope' => (hcounts scope').1, fun scope' => (hcounts scope').2,
        fun scope' window hw => ?_⟩
      by_cases hscope : scope' = scope
      · subst hscope
        refine (hok.same window hw).imp (fun hsame => ?_) fun hexpired => ⟨hexpired, ownerId, call⟩
        exact (Function.update_self ..).trans (congrArg some hsame)
      · exact .inl ((Function.update_of_ne hscope ..).trans hw)
    cases decision with
    | concurrency => exact ⟨hend.active, hend.granted, hend.windows⟩
    | requestWindow => exact ⟨hend.active, hend.granted, hend.windows⟩
    | allowed =>
      have := hrefused _ hset _ rfl
      simp at this

/-- The owner on whose behalf a call is made. -/
def PermitCall.ownerId : PermitCall → ℕ
  | .acquire _ ownerId => ownerId
  | .extend _ ownerId _ => ownerId
  | .release _ ownerId => ownerId

/-- The `WHERE` clauses exclude the permits of other owners. -/
theorem PermitCall.update_owner {call : PermitCall} {now : ℕ} {p p' : Permit}
    (h : call.update now p = .ok (some p')) : call.ownerId = p.ownerId := by
  cases call with
  | acquire => cases h
  | extend i ownerId ttlMs =>
    simp only [PermitCall.update] at h
    split at h
    · rename_i hwhere
      exact hwhere.1.symm
    · cases h
  | release i ownerId =>
    simp only [PermitCall.update] at h
    split at h
    · rename_i hwhere
      exact hwhere.1.symm
    · cases h

/-- A statement on a permit of another owner. -/
theorem PermitStep.foreign {i : ℕ} {p : Permit} (hs : PermitStep policy s (.next t) s')
    (hrow : s.calls[t]? = some c) (hnames : c.call.permitId = some i)
    (hp : s.permits[i]? = some p) (howner : c.call.ownerId ≠ p.ownerId) :
    s'.permits = s.permits ∧ s'.windows = s.windows := by
  cases hs with
  | idle => exact ⟨rfl, rfl⟩
  | sweep => exact ⟨rfl, rfl⟩
  | decide => exact ⟨rfl, rfl⟩
  | refuse => exact ⟨rfl, rfl⟩
  | @commit _ d scope ownerId swept decision row call phase =>
    obtain rfl : c = d := Option.some.inj (hrow.symm.trans row)
    rw [call] at hnames
    cases hnames
  | @update _ j d q p' row phase names unlocked permit update =>
    obtain rfl : c = d := Option.some.inj (hrow.symm.trans row)
    obtain rfl : i = j := Option.some.inj (hnames.symm.trans names)
    obtain rfl : p = q := Option.some.inj (hp.symm.trans permit)
    exact absurd (PermitCall.update_owner update) howner

/-- Time, and a call that begins or is rolled back. -/
theorem PermitStep.tables (hs : PermitStep policy s a s') (ha : ∀ t, a ≠ .next t) :
    s'.permits = s.permits ∧ s'.windows = s.windows := by
  cases hs with
  | idle => exact ⟨rfl, rfl⟩
  | tick => exact ⟨rfl, rfl⟩
  | begin => exact ⟨rfl, rfl⟩
  | abort => exact ⟨rfl, rfl⟩
  | sweep => exact absurd rfl (ha _)
  | decide => exact absurd rfl (ha _)
  | commit => exact absurd rfl (ha _)
  | refuse => exact absurd rfl (ha _)
  | update => exact absurd rfl (ha _)

end

/-! ### The limits -/

/-- One permit at a time, for a second; ten in a window of a thousand seconds. -/
def singlePermit : ProviderLimitPolicy := ⟨10, 1000, 1, 1000⟩

/-- One permit at a time, for an hour; ten in a window of a second. -/
def shortWindow : ProviderLimitPolicy := ⟨10, 1, 1, 3600000⟩

/-- A call that acquires a permit, its statements one after the other. -/
def acquireAct (t ownerId : ℕ) : List PermitAct :=
  [.begin (.acquire ⟨0, 0⟩ ownerId), .next t, .next t, .next t]

/-- Two extensions of one permit begin; the one that shortens it is carried out after the expiry
    that it sets, the other one once a second permit has been decided. -/
def slowExtensions : List PermitAct :=
  acquireAct 0 0 ++
    [.begin (.extend 0 0 1), .begin (.extend 0 0 3600000), .tick 10,
      .begin (.acquire ⟨0, 0⟩ 1), .next 3, .next 1, .next 3, .next 3, .next 2]

/-- A permit outlives its window. -/
def expiredWindow : List PermitAct := acquireAct 0 0 ++ .tick 1000 :: (acquireAct 1 1).take 3

/-- **The limits can be exceeded, and a refused call can change a count.**  With the extensions
    above two permits are active where one is allowed; and an acquisition that is refused rolls its
    expired window over, so that the permit granted in the old window no longer counts. -/
theorem permits_exceed_limit_and_refusal_rolls_over :
    (∃ s : PermitSys, validatePolicy singlePermit = .ok () ∧ s.ReachableBy singlePermit Always ∧
      singlePermit.concurrencyLimit < activePermits s.permits ⟨0, 0⟩ s.clock) ∧
    ∃ s : PermitSys, validatePolicy shortWindow = .ok () ∧ s.ReachableBy shortWindow Always ∧
      ∃ c ∈ (s.step shortWindow (.next 1)).calls[1]?, c.phase = .returned false ∧
        ∃ window ∈ s.windows ⟨0, 0⟩, ∃ window' ∈ (s.step shortWindow (.next 1)).windows ⟨0, 0⟩,
          grantedSince s.permits ⟨0, 0⟩ window.windowStartedAt = 1 ∧
            grantedSince (s.step shortWindow (.next 1)).permits ⟨0, 0⟩ window'.windowStartedAt = 0 := by
  refine ⟨⟨_, rfl, Reach.ofActions _ slowExtensions, by decide +kernel⟩,
    _, rfl, Reach.ofActions _ expiredWindow, _, rfl, rfl, _, rfl, _, rfl, ?_, ?_⟩ <;>
    decide +kernel

/-- **Provider permits stay within their limits.**  For a valid policy and any order of the
    statements of all calls, as long as each extension is carried out before the expiry that it sets:
    the active permits stay within `concurrencyLimit`, those granted since the start of the window
    within `requestLimit`, and a call that is refused, rolled back or made for another owner's permit
    changes no count, but that a refused acquisition rolls over a window that has expired. -/
theorem provider_permits_within_limits (policy : ProviderLimitPolicy) (s : PermitSys)
    (hvalid : validatePolicy policy = .ok ()) (h : s.ReachableBy policy Prompt) :
    (∀ scope, activePermits s.permits scope s.clock ≤ policy.concurrencyLimit) ∧
    (∀ scope window, s.windows scope = some window →
      grantedSince s.permits scope window.windowStartedAt ≤ policy.requestLimit) ∧
    (∀ (t : ℕ) (c : PermitTransaction), s.calls[t]? = some c →
      (∀ d ∈ (s.step policy (.next t)).calls[t]?, ∀ allowed,
        d.phase = .returned allowed → allowed = false) →
      PermitsKept policy s (s.step policy (.next t)) c) ∧
    (∀ (t i : ℕ) (c : PermitTransaction) (p : Permit), s.calls[t]? = some c →
      c.call.permitId = some i → s.permits[i]? = some p → c.call.ownerId ≠ p.ownerId →
      (s.step policy (.next t)).permits = s.permits ∧
        (s.step policy (.next t)).windows = s.windows) ∧
    ∀ a, (∀ t, a ≠ .next t) → (s.step policy a).permits = s.permits ∧
      (s.step policy a).windows = s.windows := by
  have hok := h.permitsOk hvalid
  refine ⟨hok.active, fun scope window hw => ?_,
    fun t c hrow hrefused => hok.kept (s.step_cases policy _) hrow hrefused,
    fun t i c p hrow hnames hp howner => (s.step_cases policy _).foreign hrow hnames hp howner,
    fun a ha => (s.step_cases policy a).tables ha⟩
  have hwindow := hok.windows scope window hw
  exact hwindow.granted.trans hwindow.count

/-- A permit is extended, and a second acquisition is refused. -/
def extendedPermit : List PermitAct :=
  acquireAct 0 0 ++ [.begin (.extend 0 0 500), .next 1, .tick 10] ++ acquireAct 2 1

theorem provider_permits_within_limits_extended :
    let s := extendedPermit.foldl (PermitSys.step singlePermit) .initial
    activePermits s.permits ⟨0, 0⟩ s.clock = 1 ∧
      ∀ scope, activePermits s.permits scope s.clock ≤ 1 := by
  have h : PermitSys.ReachableBy singlePermit Prompt
      (extendedPermit.foldl (PermitSys.step singlePermit) .initial) :=
    Reach.ofTrace (by decide +kernel)
  exact ⟨by decide +kernel, (provider_permits_within_limits singlePermit _ rfl h).1⟩

end ResearchWorkbench
