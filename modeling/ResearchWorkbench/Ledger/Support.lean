import ResearchWorkbench.Services.Ledger

namespace ResearchWorkbench

/-!
# The cached support of claims

The stored status of a current claim is the one its linked evidence gives it, unless a generated
claim is linked to verified evidence that does not fully support it, or another transaction comes
between the read and the commit of a `linkClaimEvidence`.

* `SupportRight` — the property; `Undisturbed` — the condition on the steps;
* `TablesOk`, `LedgerOk` — the invariant;
* `LedgerSys.step_ledgerOk` — the step lemma;
* `cached_support_right` — the status is right along every run of such steps;
* `cached_support_wrong` — and goes wrong in two runs that are not.
-/

/-- Every current claim has the status that its linked evidence gives it. -/
def SupportRight (t : ResearchTables) : Prop :=
  ∀ (i : ℕ) (c : ClaimRow), t.claims[i]? = some c → c.isCurrent →
    c.supportStatus = calculateClaimSupportStatus (claimAssessments t i) c.verificationPossible

/-- The evidence of the id, if it supports a claim, is verified and full, and not too old. -/
def usableEvidence (t : ResearchTables) (i : ℕ) : Bool :=
  (ClaimEvidenceRow.assess t ⟨0, i, .supports⟩).any fun item =>
    item.verificationStatus = .verified ∧ item.isFullUsable

/-- If the sources of a generated claim have verified evidence, some of it is full and not too
    old. -/
def ClaimUsable (t : ResearchTables) (projectId : ℕ) (claim : GeneratedClaim) : Prop :=
  anyVerified t (evidenceOfSources projectId claim.sourceIds t) →
    (evidenceOfSources projectId claim.sourceIds t).any (usableEvidence t)

instance (t : ResearchTables) (projectId : ℕ) (claim : GeneratedClaim) :
    Decidable (ClaimUsable t projectId claim) :=
  inferInstanceAs (Decidable (_ → _))

/-- What the transaction has read. -/
def LinkPhase.evidence : LinkPhase → Option (List ClaimEvidenceAssessment)
  | .assessed evidence => some evidence
  | _ => none

/-- Generated claims have usable evidence if any is verified, and what a `linkClaimEvidence` has
    read is still so when it commits. -/
def Undisturbed (s : LedgerSys) : LedgerAct → Prop
  | .commitStage _ bundle output => bundle.stage = .claimGeneration →
      ∀ claim ∈ output.claims, ClaimUsable s.tables bundle.projectId claim
  | .next k => ∀ link ∈ s.links[k]?, ∀ evidence ∈ link.phase.evidence,
      evidence = claimAssessments (link.input.view s.tables) link.input.claimId
  | _ => True

instance (s : LedgerSys) : (a : LedgerAct) → Decidable (Undisturbed s a)
  | .commitStage .. => inferInstanceAs (Decidable (_ → _))
  | .next k => inferInstanceAs (Decidable (∀ link ∈ s.links[k]?, ∀ evidence ∈ link.phase.evidence,
      evidence = claimAssessments (link.input.view s.tables) link.input.claimId))
  | .addSource _ | .addEvidence .. | .addClaim .. | .updateProjectScope .. | .setDocuments _
  | .restart _ | .link _ | .abort _ => isTrue trivial

/-! ### The invariant -/

/-- The claim, the evidence and its source are there, and of one project. -/
def SameProject (t : ResearchTables) (claimId evidenceId : ℕ) : Prop :=
  ∃ c e s, t.claims[claimId]? = some c ∧ t.evidence[evidenceId]? = some e ∧
    t.sources[e.sourceId]? = some s ∧ s.projectId = c.projectId

/-- The statuses are right, links stay within a project, and generated evidence is not verified. -/
structure TablesOk (t : ResearchTables) : Prop where
  support : SupportRight t
  linked : ∀ ce ∈ t.claimEvidence, SameProject t ce.claimId ce.evidenceId
  generated : ∀ e ∈ t.evidence, e.generatedByRunStageId ≠ none → e.verificationStatus = .pending

/-- The invariant of the system. -/
structure LedgerOk (s : LedgerSys) : Prop where
  tables : TablesOk s.tables
  requests : ∀ link ∈ s.links, SameProject s.tables link.input.claimId link.input.evidenceId

/-- Rows keep what the invariant relies on. -/
structure Grows (t t' : ResearchTables) : Prop where
  claims : ∀ (i : ℕ) (c : ClaimRow), t.claims[i]? = some c →
    ∃ c', t'.claims[i]? = some c' ∧ c'.projectId = c.projectId
  evidence : ∀ (i : ℕ) (e : EvidenceRow), t.evidence[i]? = some e →
    ∃ e', t'.evidence[i]? = some e' ∧ e'.sourceId = e.sourceId
  sources : ∀ (i : ℕ) (s : SourceRow), t.sources[i]? = some s →
    ∃ s', t'.sources[i]? = some s' ∧ s'.projectId = s.projectId

/-- The rows stay, and the invariant holds of the new tables. -/
structure TablesStep (t t' : ResearchTables) : Prop where
  grows : Grows t t'
  ok : TablesOk t'

section
variable {t t' t'' : ResearchTables} {i claimId evidenceId : ℕ} {ce : ClaimEvidenceRow}

theorem Grows.refl (t : ResearchTables) : Grows t t :=
  ⟨fun _ c hc => ⟨c, hc, rfl⟩, fun _ e he => ⟨e, he, rfl⟩, fun _ s hs => ⟨s, hs, rfl⟩⟩

theorem Grows.trans (h : Grows t t') (h' : Grows t' t'') : Grows t t'' := by
  refine ⟨fun i c hc => ?_, fun i e he => ?_, fun i s hs => ?_⟩
  · obtain ⟨c', hc', hp⟩ := h.claims i c hc
    obtain ⟨c'', hc'', hp'⟩ := h'.claims i c' hc'
    exact ⟨c'', hc'', hp'.trans hp⟩
  · obtain ⟨e', he', hp⟩ := h.evidence i e he
    obtain ⟨e'', he'', hp'⟩ := h'.evidence i e' he'
    exact ⟨e'', he'', hp'.trans hp⟩
  · obtain ⟨s', hs', hp⟩ := h.sources i s hs
    obtain ⟨s'', hs'', hp'⟩ := h'.sources i s' hs'
    exact ⟨s'', hs'', hp'.trans hp⟩

theorem TablesStep.refl (h : TablesOk t) : TablesStep t t := ⟨.refl t, h⟩

theorem TablesStep.trans (h : TablesStep t t') (h' : TablesStep t' t'') : TablesStep t t'' :=
  ⟨h.grows.trans h'.grows, h'.ok⟩

theorem SameProject.grow (h : SameProject t claimId evidenceId) (hg : Grows t t') :
    SameProject t' claimId evidenceId := by
  obtain ⟨c, e, s, hc, he, hs, hproject⟩ := h
  obtain ⟨c', hc', hcp⟩ := hg.claims _ _ hc
  obtain ⟨e', he', hsource⟩ := hg.evidence _ _ he
  obtain ⟨s', hs', hsp⟩ := hg.sources _ _ hs
  exact ⟨c', e', s', hc', he', hsource ▸ hs', by rw [hsp, hcp, hproject]⟩

/-- The tables grow by rows at their ends. -/
theorem Grows.append {sources : List SourceRow} {evidence : List EvidenceRow}
    {claims : List ClaimRow} (hsources : t'.sources = t.sources ++ sources)
    (hevidence : t'.evidence = t.evidence ++ evidence) (hclaims : t'.claims = t.claims ++ claims) :
    Grows t t' := by
  refine ⟨fun i c hc => ⟨c, ?_, rfl⟩, fun i e he => ⟨e, ?_, rfl⟩, fun i s hs => ⟨s, ?_, rfl⟩⟩
  · rw [hclaims]
    exact getElem?_append_of_some hc
  · rw [hevidence]
    exact getElem?_append_of_some he
  · rw [hsources]
    exact getElem?_append_of_some hs

/-! ### Support by the same evidence -/

/-- Only verified evidence counts. -/
theorem calculateClaimSupportStatus_filter (evidence : List ClaimEvidenceAssessment)
    (verificationPossible : Bool) :
    calculateClaimSupportStatus (evidence.filter (·.verificationStatus = .verified))
        verificationPossible =
      calculateClaimSupportStatus evidence verificationPossible := by
  have hfilter : (evidence.filter (·.verificationStatus = .verified)).filter (fun item =>
      decide (item.verificationStatus = .verified ∧ item.relationship ≠ .context)) =
      evidence.filter fun item =>
        decide (item.verificationStatus = .verified ∧ item.relationship ≠ .context) := by
    rw [List.filter_filter]
    refine List.filter_congr fun item _ => ?_
    by_cases h : item.verificationStatus = .verified <;> simp [h]
  simp only [calculateClaimSupportStatus, hfilter]

/-- The claim has the same links, to evidence that counts the same. -/
theorem support_congr
    (hlinks : t'.claimEvidence.filter (·.claimId = claimId) =
      t.claimEvidence.filter (·.claimId = claimId))
    (hassess : ∀ ce ∈ t.claimEvidence, ce.claimId = claimId →
      (ce.assess t').filter (·.verificationStatus = .verified) =
        (ce.assess t).filter (·.verificationStatus = .verified))
    (verificationPossible : Bool) :
    calculateClaimSupportStatus (claimAssessments t' claimId) verificationPossible =
      calculateClaimSupportStatus (claimAssessments t claimId) verificationPossible := by
  rw [← calculateClaimSupportStatus_filter, ← calculateClaimSupportStatus_filter (claimAssessments t _)]
  congr 1
  simp only [claimAssessments, hlinks, List.filter_filterMap]
  refine List.filterMap_congr fun ce hce => ?_
  obtain ⟨hmem, hclaim⟩ := List.mem_filter.mp hce
  exact hassess ce hmem (of_decide_eq_true hclaim)

/-- The assessment of evidence whose source is there. -/
theorem assess_of_row {e : EvidenceRow} {s : SourceRow} (he : t.evidence[ce.evidenceId]? = some e)
    (hs : t.sources[e.sourceId]? = some s) :
    ce.assess t = if e.isCurrent then
      some ⟨ce.relationship, e.verificationStatus, s.freshnessStatus, e.supportExtent⟩
      else none := by
  simp [ClaimEvidenceRow.assess, he, hs]

/-- A change of the tables that keeps the claims, their links and what their evidence counts. -/
theorem TablesOk.ofSameEvidence (h : TablesOk t) (hg : Grows t t')
    (hlinks : t'.claimEvidence = t.claimEvidence)
    (hclaims : ∀ (i : ℕ) (c' : ClaimRow), t'.claims[i]? = some c' → c'.isCurrent →
      ∃ c, t.claims[i]? = some c ∧ c.isCurrent ∧ c'.supportStatus = c.supportStatus ∧
        c'.verificationPossible = c.verificationPossible)
    (hassess : ∀ ce ∈ t.claimEvidence, (ce.assess t').filter (·.verificationStatus = .verified) =
      (ce.assess t).filter (·.verificationStatus = .verified))
    (hgenerated : ∀ e ∈ t'.evidence, e.generatedByRunStageId ≠ none →
      e.verificationStatus = .pending) : TablesStep t t' := by
  refine ⟨hg, fun i c' hc' hcurrent => ?_, fun ce hce => ?_, hgenerated⟩
  · obtain ⟨c, hc, hcur, hstatus, hpossible⟩ := hclaims i c' hc' hcurrent
    rw [hstatus, hpossible, h.support i c hc hcur]
    exact (support_congr (by rw [hlinks]) (fun ce hce _ => hassess ce hce) _).symm
  · exact (h.linked ce (hlinks ▸ hce)).grow hg

/-! ### Services that run alone -/

/-- A linked row is assessed as before when rows are added. -/
theorem assess_append (h : SameProject t ce.claimId ce.evidenceId) {sources : List SourceRow}
    {evidence : List EvidenceRow} (hsources : t'.sources = t.sources ++ sources)
    (hevidence : t'.evidence = t.evidence ++ evidence) : ce.assess t' = ce.assess t := by
  obtain ⟨c, e, s, _, he, hs, _⟩ := h
  rw [assess_of_row he hs, assess_of_row (hevidence ▸ getElem?_append_of_some he)
    (hsources ▸ getElem?_append_of_some hs)]

/-- Sources and evidence are added, the evidence by humans or not verified. -/
theorem TablesOk.append (h : TablesOk t) {sources : List SourceRow} {evidence : List EvidenceRow}
    (hsources : t'.sources = t.sources ++ sources) (hevidence : t'.evidence = t.evidence ++ evidence)
    (hclaims : t'.claims = t.claims) (hlinks : t'.claimEvidence = t.claimEvidence)
    (hnew : ∀ e ∈ evidence, e.generatedByRunStageId ≠ none → e.verificationStatus = .pending) :
    TablesStep t t' := by
  refine h.ofSameEvidence (.append hsources hevidence (hclaims.trans (List.append_nil _).symm)) hlinks
    (fun i c' hc' hcur => ⟨c', hclaims ▸ hc', hcur, rfl, rfl⟩) (fun ce hce => ?_) fun e he => ?_
  · rw [assess_append (h.linked ce hce) hsources hevidence]
  · rw [hevidence] at he
    exact (List.mem_append.mp he).elim (h.generated e) (hnew e)

/-- A claim is added, with links to evidence of its project and the status they give it. -/
theorem TablesOk.insertClaim (h : TablesOk t) {c : ClaimRow} {ids : List ℕ}
    {relationship : EvidenceRelationship}
    (hids : ∀ i ∈ ids, ∃ e s, t.evidence[i]? = some e ∧ t.sources[e.sourceId]? = some s ∧
      s.projectId = c.projectId)
    (hstatus : c.supportStatus = calculateClaimSupportStatus
      (ids.filterMap fun i => ClaimEvidenceRow.assess t ⟨t.claims.length, i, relationship⟩)
      c.verificationPossible) :
    TablesStep t { t with
      claims := t.claims ++ [c]
      claimEvidence := t.claimEvidence ++ ids.map (⟨t.claims.length, ·, relationship⟩) } := by
  set t' : ResearchTables := { t with
    claims := t.claims ++ [c]
    claimEvidence := t.claimEvidence ++ ids.map (⟨t.claims.length, ·, relationship⟩) } with ht'
  have hg : Grows t t' :=
    .append (List.append_nil _).symm (List.append_nil _).symm (rfl : t'.claims = t.claims ++ [c])
  have hold {i : ℕ} (hi : i < t.claims.length) :
      t'.claimEvidence.filter (·.claimId = i) = t.claimEvidence.filter (·.claimId = i) := by
    have hnone : (ids.map fun k => (⟨t.claims.length, k, relationship⟩ : ClaimEvidenceRow)).filter
        (·.claimId = i) = [] := by
      refine List.filter_eq_nil_iff.mpr fun ce hce => ?_
      obtain ⟨k, _, rfl⟩ := List.mem_map.mp hce
      simp [hi.ne']
    rw [ht', List.filter_append, hnone, List.append_nil]
  -- no old link is one of the new claim
  have hnew : t'.claimEvidence.filter (·.claimId = t.claims.length) =
      ids.map (⟨t.claims.length, ·, relationship⟩) := by
    have hnone : t.claimEvidence.filter (·.claimId = t.claims.length) = [] := by
      refine List.filter_eq_nil_iff.mpr fun ce hce => ?_
      obtain ⟨c, _, _, hc, _⟩ := h.linked ce hce
      have := (List.getElem?_eq_some_iff.mp hc).1
      simp [this.ne]
    rw [ht', List.filter_append, hnone, List.nil_append, List.filter_eq_self]
    intro ce hce
    obtain ⟨k, _, rfl⟩ := List.mem_map.mp hce
    simp
  refine ⟨hg, fun i c' hc' hcurrent => ?_, fun ce hce => ?_, h.generated⟩
  · rw [ht', List.getElem?_append] at hc'
    split at hc'
    · rename_i hi
      rw [h.support i c' hc' hcurrent]
      exact (support_congr (hold hi) (fun _ _ _ => rfl) _).symm
    · rename_i hi
      obtain rfl : c' = c := by simpa using List.mem_of_getElem? hc'
      obtain rfl : i = t.claims.length := by
        have := (List.getElem?_eq_some_iff.mp hc').1
        simp only [List.length_cons, List.length_nil] at this
        omega
      rw [hstatus, claimAssessments, hnew, List.filterMap_map]
      rfl
  · obtain hce | hce := List.mem_append.mp hce
    · exact (h.linked ce hce).grow hg
    · obtain ⟨k, hk, rfl⟩ := List.mem_map.mp hce
      obtain ⟨e, s, he, hs, hproject⟩ := hids k hk
      exact ⟨c, e, s, getElem?_concat_length _ _, he, hs, hproject⟩

theorem TablesOk.addClaim (h : TablesOk t) (projectId : ℕ) (verificationPossible : Bool) :
    TablesStep t (addClaim t projectId verificationPossible) := by
  have hclaim := @TablesOk.insertClaim _ h {
      projectId := projectId
      supportStatus := if verificationPossible then .unsupported else .notVerifiable
      verificationPossible := verificationPossible } [] .supports nofun
    (by cases verificationPossible <;> rfl)
  simpa [ResearchWorkbench.addClaim] using hclaim

/-- Superseded evidence did not count. -/
theorem TablesOk.mark (h : TablesOk t) (ids : List ℕ) :
    TablesStep t (markGeneratedDomainEffectsNonCurrent ids t) := by
  have hgenerated : ∀ e ∈ (markGeneratedDomainEffectsNonCurrent ids t).evidence,
      e.generatedByRunStageId ≠ none → e.verificationStatus = .pending := by
    intro e he
    obtain ⟨k, hk⟩ := List.mem_iff_getElem?.mp he
    simp only [markGeneratedDomainEffectsNonCurrent, getElem?_updateWhere,
      Option.map_eq_some_iff] at hk
    obtain ⟨e₀, hk, rfl⟩ := hk
    split <;> exact h.generated e₀ (List.mem_of_getElem? hk)
  refine h.ofSameEvidence ⟨fun i c hc => ?_, fun i e he => ?_, fun i s hs => ⟨s, hs, rfl⟩⟩ rfl
    (fun i c' hc' hcur => ?_) (fun ce hce => ?_) hgenerated
  · simp only [markGeneratedDomainEffectsNonCurrent, getElem?_updateWhere, hc, Option.map_some]
    exact ⟨_, rfl, by split <;> rfl⟩
  · simp only [markGeneratedDomainEffectsNonCurrent, getElem?_updateWhere, he, Option.map_some]
    exact ⟨_, rfl, by split <;> rfl⟩
  · simp only [markGeneratedDomainEffectsNonCurrent, getElem?_updateWhere,
      Option.map_eq_some_iff] at hc'
    obtain ⟨c, hc, rfl⟩ := hc'
    revert hcur
    split
    · nofun
    · exact fun hcur => ⟨c, hc, hcur, rfl, rfl⟩
  · obtain ⟨c, e, s, _, he, hs, _⟩ := h.linked ce hce
    rw [assess_of_row he hs]
    by_cases hids : generatedByAny ids e.generatedByRunStageId ∧ e.isCurrent
    · -- generated evidence is not verified
      have hpending : e.verificationStatus = .pending := by
        refine h.generated e (List.mem_of_getElem? he) fun hnone => ?_
        simp [generatedByAny, hnone] at hids
      have he' : (markGeneratedDomainEffectsNonCurrent ids t).evidence[ce.evidenceId]? =
          some { e with isCurrent := false } := by
        simp [markGeneratedDomainEffectsNonCurrent, he, hids]
      rw [assess_of_row he' hs]
      simp [hids.2, hpending, Option.filter]
    · have he' : (markGeneratedDomainEffectsNonCurrent ids t).evidence[ce.evidenceId]? =
          some e := by
        simp [markGeneratedDomainEffectsNonCurrent, he, hids]
      rw [assess_of_row he' hs]

/-! ### The scope update -/

/-- A claim is refreshed. -/
def ClaimRow.refresh (t : ResearchTables) (i : ℕ) (c : ClaimRow) : ClaimRow :=
  c.setSupport (calculateClaimSupportStatus (claimAssessments t i) c.verificationPossible)

theorem refreshClaimSupport_claims (t : ResearchTables) (a i : ℕ) :
    (refreshClaimSupport t a).claims[i]? =
      t.claims[i]?.map fun c => if i = a then c.refresh t i else c := by
  simp only [refreshClaimSupport, List.getElem?_modify]
  cases hc : t.claims[i]? with
  | none => rfl
  | some c =>
    by_cases hia : i = a
    · subst hia
      simp [verificationPossible, hc, ClaimRow.refresh]
    · simp [hia, Ne.symm hia]

/-- The refresh of several claims. -/
theorem foldl_refreshClaimSupport (ids : List ℕ) (t : ResearchTables) :
    ∃ claims, ids.foldl refreshClaimSupport t = { t with claims := claims } ∧
      ∀ i, claims[i]? = t.claims[i]?.map fun c => if i ∈ ids then c.refresh t i else c := by
  induction ids generalizing t with
  | nil => exact ⟨t.claims, rfl, fun i => by simp⟩
  | cons a ids ih =>
    obtain ⟨claims, heq, hclaims⟩ := ih (refreshClaimSupport t a)
    refine ⟨claims, heq, fun i => ?_⟩
    rw [hclaims, refreshClaimSupport_claims, Option.map_map]
    congr 1
    funext c
    -- a claim that is refreshed twice has the status of the first refresh
    by_cases hia : i = a <;> by_cases hi : i ∈ ids <;>
      simp [hia, hi, ClaimRow.refresh, ClaimRow.setSupport, refreshClaimSupport, claimAssessments,
        ClaimEvidenceRow.assess]

theorem TablesOk.updateProjectScope (h : TablesOk t) (projectId : ℕ)
    (freshness : ℕ → SourceFreshnessStatus) :
    TablesStep t (updateProjectScope t projectId freshness) := by
  set t₁ : ResearchTables := { t with
    sources := t.sources.mapIdx fun id source =>
      if source.projectId = projectId then { source with freshnessStatus := freshness id }
      else source } with ht₁
  obtain ⟨claims, heq, hclaims⟩ := foldl_refreshClaimSupport
    (idsWhere (fun _ c => c.projectId = projectId ∧ c.isCurrent) t.claims) t₁
  have hresult : ResearchWorkbench.updateProjectScope t projectId freshness =
      { t₁ with claims := claims } := heq
  have hsources (i : ℕ) (s : SourceRow) (hs : t.sources[i]? = some s) :
      ∃ s', t₁.sources[i]? = some s' ∧ s'.projectId = s.projectId ∧
        (s.projectId ≠ projectId → s' = s) := by
    simp only [ht₁, List.getElem?_mapIdx, hs, Option.map_some]
    refine ⟨_, rfl, ?_⟩
    split
    · exact ⟨rfl, fun hne => absurd ‹_› hne⟩
    · exact ⟨rfl, fun _ => rfl⟩
  have hg : Grows t { t₁ with claims := claims } := by
    refine ⟨fun i c hc => ?_, fun i e he => ⟨e, he, rfl⟩, fun i s hs => ?_⟩
    · refine ⟨_, by rw [hclaims i, show t₁.claims[i]? = some c from hc]; rfl, ?_⟩
      split <;> rfl
    · obtain ⟨s', hs', hproject, _⟩ := hsources i s hs
      exact ⟨s', hs', hproject⟩
  rw [hresult]
  refine ⟨hg, fun i c' hc' hcurrent => ?_, fun ce hce => (h.linked ce hce).grow hg, h.generated⟩
  rw [show ({ t₁ with claims := claims } : ResearchTables).claims[i]? = claims[i]? from rfl,
    hclaims, Option.map_eq_some_iff] at hc'
  obtain ⟨c, hc, rfl⟩ := hc'
  by_cases hi : i ∈ idsWhere (fun _ c => decide (c.projectId = projectId ∧ c.isCurrent)) t.claims
  · simp only [hi, if_true] at hcurrent ⊢
    rfl
  · simp only [hi, if_false] at hcurrent ⊢
    rw [h.support i c hc hcurrent]
    -- the claim is of another project, and so are the sources of its evidence
    have hproject : c.projectId ≠ projectId := by
      rintro rfl
      exact hi (mem_idsWhere.mpr ⟨c, hc, by simp [hcurrent]⟩)
    refine (@support_congr t { t₁ with claims := claims } _ rfl
      (fun ce hce hclaim => ?_) _).symm
    obtain ⟨c₀, e, s, hc₀, he, hs, hsame⟩ := h.linked ce hce
    obtain rfl : c₀ = c := Option.some.inj ((hclaim ▸ hc₀).symm.trans hc)
    obtain ⟨s', hs', _, hkeep⟩ := hsources _ s hs
    obtain rfl := hkeep (hsame ▸ hproject)
    rw [assess_of_row he hs, assess_of_row (t := { t₁ with claims := claims }) he hs']

/-! ### Stage commits -/

theorem mem_evidenceOfSources {projectId : ℕ} {sourceIds : List ℕ} :
    i ∈ evidenceOfSources projectId sourceIds t ↔ ∃ e s, t.evidence[i]? = some e ∧
      t.sources[e.sourceId]? = some s ∧ s.projectId = projectId ∧ e.isCurrent ∧
      e.sourceId ∈ sourceIds := by
  simp only [evidenceOfSources, mem_idsWhere, decide_eq_true_eq, Option.any_eq_true]
  constructor
  · rintro ⟨e, he, ⟨s, hs, hproject⟩, hrest⟩
    exact ⟨e, s, he, hs, hproject, hrest⟩
  · rintro ⟨e, s, he, hs, hproject, hrest⟩
    exact ⟨e, he, ⟨s, hs, hproject⟩, hrest⟩

/-- The claim is inserted with the status its links give it. -/
theorem TablesOk.commitClaim (h : TablesOk t) {bundle : StageBundle} {claim : GeneratedClaim}
    (husable : ClaimUsable t bundle.projectId claim) :
    TablesStep t (commitClaim bundle t claim) := by
  set ids := evidenceOfSources bundle.projectId claim.sourceIds t with hids
  refine h.insertClaim (fun i hi => ?_) ?_
  · obtain ⟨e, s, he, hs, hproject, _⟩ := mem_evidenceOfSources.mp hi
    exact ⟨e, s, he, hs, hproject⟩
  set items := ids.filterMap fun i =>
    ClaimEvidenceRow.assess t ⟨t.claims.length, i, .supports⟩ with hitems
  have hmem (item : ClaimEvidenceAssessment) : item ∈ items ↔ ∃ i ∈ ids, ∃ e s,
      t.evidence[i]? = some e ∧ t.sources[e.sourceId]? = some s ∧
        item = ⟨.supports, e.verificationStatus, s.freshnessStatus, e.supportExtent⟩ := by
    rw [hitems, List.mem_filterMap]
    refine exists_congr fun i => and_congr_right fun hi => ?_
    obtain ⟨e, s, he, hs, _, hcurrent, _⟩ := mem_evidenceOfSources.mp hi
    rw [assess_of_row he hs, if_pos hcurrent]
    constructor
    · intro hitem
      exact ⟨e, s, he, hs, (Option.some.inj hitem).symm⟩
    · rintro ⟨e', s', he', hs', rfl⟩
      obtain rfl := Option.some.inj (he.symm.trans he')
      obtain rfl := Option.some.inj (hs.symm.trans hs')
      rfl
  have hsupports : ∀ item ∈ items, item.relationship = .supports := by
    intro item hitem
    obtain ⟨_, _, _, _, _, _, rfl⟩ := (hmem item).mp hitem
    rfl
  show (if anyVerified t ids then _ else _) = calculateClaimSupportStatus items true
  split
  · rename_i hverified
    refine ((calculateClaimSupportStatus_supports hsupports).mpr ?_).symm
    obtain ⟨i, hi, hused⟩ := List.any_eq_true.mp (husable hverified)
    obtain ⟨e, s, he, hs, _, hcurrent, _⟩ := mem_evidenceOfSources.mp hi
    rw [usableEvidence, assess_of_row he hs, if_pos hcurrent] at hused
    simp only [Option.any_some, decide_eq_true_eq] at hused
    exact ⟨_, (hmem _).mpr ⟨i, hi, e, s, he, hs, rfl⟩, hused⟩
  · rename_i hverified
    refine (calculateClaimSupportStatus_unverified fun item hitem hitemVerified => ?_).symm
    obtain ⟨i, hi, e, s, he, hs, rfl⟩ := (hmem item).mp hitem
    exact hverified (List.any_eq_true.mpr ⟨i, hi, by simpa [he] using hitemVerified⟩)

/-- Superseding rows leaves the verified evidence of a claim as it was. -/
theorem ClaimUsable.mark (h : TablesOk t) {projectId : ℕ} {claim : GeneratedClaim}
    (husable : ClaimUsable t projectId claim) (prior : List ℕ) :
    ClaimUsable (markGeneratedDomainEffectsNonCurrent prior t) projectId claim := by
  set t' := markGeneratedDomainEffectsNonCurrent prior t with ht'
  -- verified evidence was generated by no row
  have hkeep {i : ℕ} {e : EvidenceRow} (he : t.evidence[i]? = some e)
      (hverified : e.verificationStatus = .verified) : t'.evidence[i]? = some e := by
    have hnone : e.generatedByRunStageId = none := by
      by_contra hsome
      rw [h.generated e (List.mem_of_getElem? he) hsome] at hverified
      cases hverified
    simp [ht', markGeneratedDomainEffectsNonCurrent, he, generatedByAny, hnone]
  have hback {i : ℕ} {e' : EvidenceRow} (he' : t'.evidence[i]? = some e')
      (hverified : e'.verificationStatus = .verified) : t.evidence[i]? = some e' := by
    simp only [ht', markGeneratedDomainEffectsNonCurrent, getElem?_updateWhere,
      Option.map_eq_some_iff] at he'
    obtain ⟨e, he, rfl⟩ := he'
    have hsame := hkeep he (by split at hverified <;> exact hverified)
    simp only [ht', markGeneratedDomainEffectsNonCurrent, getElem?_updateWhere, he,
      Option.map_some] at hsame
    rw [he]
    exact hsame.symm
  intro hany
  obtain ⟨i, hi, hverified⟩ := List.any_eq_true.mp hany
  obtain ⟨e, s, he, hs, hrest⟩ := mem_evidenceOfSources.mp hi
  rw [he] at hverified
  simp only [Option.any_some, decide_eq_true_eq] at hverified
  have he₀ := hback he hverified
  obtain ⟨j, hj, hused⟩ := List.any_eq_true.mp (husable (List.any_eq_true.mpr
    ⟨i, mem_evidenceOfSources.mpr ⟨e, s, he₀, hs, hrest⟩, by simp [he₀, hverified]⟩))
  obtain ⟨e', s', he', hs', hproject, hcurrent, hsource⟩ := mem_evidenceOfSources.mp hj
  rw [usableEvidence, assess_of_row he' hs', if_pos hcurrent] at hused
  have husedItem := hused
  simp only [Option.any_some, decide_eq_true_eq] at husedItem
  have he'' := hkeep he' husedItem.1
  refine List.any_eq_true.mpr
    ⟨j, mem_evidenceOfSources.mpr ⟨e', s', he'', hs', hproject, hcurrent, hsource⟩, ?_⟩
  rwa [usableEvidence, assess_of_row (t := t') he'' hs', if_pos hcurrent]

theorem TablesOk.commitClaims (h : TablesOk t) {bundle : StageBundle} {output : StageDocument}
    (husable : ∀ claim ∈ output.claims, ClaimUsable t bundle.projectId claim) :
    TablesStep t (commitClaims bundle output t) := by
  have hboth := List.foldlRecOn (motive := fun t₁ : ResearchTables =>
      TablesStep t t₁ ∧ t₁.evidence = t.evidence ∧ t₁.sources = t.sources)
    output.claims (ResearchWorkbench.commitClaim bundle) ⟨.refl h, rfl, rfl⟩ ?_
  · exact hboth.1
  rintro t₁ ⟨h₁, hevidence, hsources⟩ claim hclaim
  refine ⟨h₁.trans (h₁.ok.commitClaim ?_), hevidence, hsources⟩
  have := husable claim hclaim
  simpa [ClaimUsable, anyVerified, evidenceOfSources, usableEvidence, ClaimEvidenceRow.assess,
    hevidence, hsources] using this

/-- Tables that the status does not depend on change. -/
theorem TablesOk.ofSame (h : TablesOk t) (hsources : t'.sources = t.sources)
    (hevidence : t'.evidence = t.evidence) (hclaims : t'.claims = t.claims)
    (hlinks : t'.claimEvidence = t.claimEvidence) : TablesStep t t' :=
  h.append (hsources.trans (List.append_nil _).symm) (hevidence.trans (List.append_nil _).symm)
    hclaims hlinks nofun

/-- The commit of a stage. -/
theorem TablesOk.commitDomainEffects (h : TablesOk t) {prior : List ℕ} {bundle : StageBundle}
    {output : StageDocument} (hcommit : commitDomainEffects prior bundle output t = .ok t')
    (husable : bundle.stage = .claimGeneration →
      ∀ claim ∈ output.claims, ClaimUsable t bundle.projectId claim) : TablesStep t t' := by
  simp only [ResearchWorkbench.commitDomainEffects, bind_eq_ok] at hcommit
  obtain ⟨_, _, hcommit⟩ := hcommit
  have hmark := h.mark prior
  cases hstage : bundle.stage with
  | evidenceExtraction =>
    simp only [commitStageOutput, hstage] at hcommit
    refine foldlM_eq_ok (P := TablesStep t) hcommit hmark ?_
    intro evidence _ t₁ t₂ h₁ h₂
    simp only [bind_eq_ok, pure_eq_ok] at h₂
    obtain ⟨_, _, rfl⟩ := h₂
    exact h₁.trans (h₁.ok.append (List.append_nil _).symm rfl rfl rfl fun e he _ => by
      rw [List.mem_singleton.mp he])
  | claimGeneration =>
    simp only [commitStageOutput, hstage] at hcommit
    obtain rfl := pure_eq_ok.mp hcommit
    exact hmark.trans (hmark.ok.commitClaims fun claim hclaim =>
      (husable hstage claim hclaim).mark h prior)
  | gapDetection =>
    simp only [commitStageOutput, hstage] at hcommit
    obtain rfl := pure_eq_ok.mp hcommit
    refine List.foldlRecOn _ _ (motive := TablesStep t) hmark ?_
    intro t₁ h₁ questionId _
    exact h₁.trans (h₁.ok.ofSame rfl rfl rfl rfl)
  | conflictDetection =>
    simp only [commitStageOutput, hstage] at hcommit
    obtain rfl := pure_eq_ok.mp hcommit
    exact hmark.trans (hmark.ok.ofSame rfl rfl rfl rfl)
  | qaRevision =>
    simp only [commitStageOutput, hstage] at hcommit
    obtain rfl := pure_eq_ok.mp hcommit
    exact hmark.trans (hmark.ok.ofSame rfl rfl rfl rfl)
  | _ =>
    simp only [commitStageOutput, hstage] at hcommit
    obtain rfl := pure_eq_ok.mp hcommit
    exact .refl h

/-! ### Links -/

theorem upsert_filter {input : LinkInput} {links : List ClaimEvidenceRow}
    (hne : claimId ≠ input.claimId) :
    (input.upsert links).filter (·.claimId = claimId) = links.filter (·.claimId = claimId) := by
  unfold LinkInput.upsert
  dsimp only
  split
  · refine filter_updateWhere_same fun _ ce _ hpair => ?_
    have hclaim : ce.claimId = input.claimId := (of_decide_eq_true hpair).1
    simp [hclaim, hne.symm]
  · simp [hne.symm]

theorem mem_upsert {input : LinkInput} {links : List ClaimEvidenceRow}
    (h : ce ∈ input.upsert links) :
    (∃ ce₀ ∈ links, ce₀.claimId = ce.claimId ∧ ce₀.evidenceId = ce.evidenceId) ∨
      ce.claimId = input.claimId ∧ ce.evidenceId = input.evidenceId := by
  unfold LinkInput.upsert at h
  dsimp only at h
  split at h
  · obtain ⟨k, hk⟩ := List.mem_iff_getElem?.mp h
    rw [getElem?_updateWhere, Option.map_eq_some_iff] at hk
    obtain ⟨ce₀, hk, rfl⟩ := hk
    refine .inl ⟨ce₀, List.mem_of_getElem? hk, ?_⟩
    split <;> exact ⟨rfl, rfl⟩
  · obtain h | h := List.mem_append.mp h
    · exact .inl ⟨ce, h, rfl, rfl⟩
    · rw [List.mem_singleton.mp h]
      exact .inr ⟨rfl, rfl⟩

/-- A link commits what the evidence of its claim, as it has read it, makes of the claim. -/
theorem TablesOk.link (h : TablesOk t) {input : LinkInput}
    (hrequest : SameProject t input.claimId input.evidenceId) :
    TablesStep t (input.commit (claimAssessments (input.view t) input.claimId) t) := by
  set t' := input.commit (claimAssessments (input.view t) input.claimId) t with ht'
  have hclaim {i : ℕ} {c : ClaimRow} (hc : t.claims[i]? = some c) : t'.claims[i]? =
      some (if i = input.claimId then c.refresh (input.view t) i else c) := by
    simp only [ht', LinkInput.commit, List.getElem?_modify, hc]
    by_cases hi : i = input.claimId
    · subst hi
      simp [verificationPossible, hc, ClaimRow.refresh]
    · simp [hi, Ne.symm hi]
  have hg : Grows t t' := by
    refine ⟨fun i c hc => ⟨_, hclaim hc, ?_⟩, fun i e he => ⟨e, he, rfl⟩, fun i s hs => ⟨s, hs, rfl⟩⟩
    split <;> rfl
  refine ⟨hg, fun i c' hc' hcurrent => ?_, fun ce hce => ?_, h.generated⟩
  · have hi : i < t.claims.length := by
      simpa [ht', LinkInput.commit] using (List.getElem?_eq_some_iff.mp hc').1
    have hc := List.getElem?_eq_getElem hi
    obtain rfl := Option.some.inj ((hclaim hc).symm.trans hc')
    by_cases hic : i = input.claimId
    · simp only [hic, if_true]
      rfl
    · simp only [hic, if_false] at hcurrent ⊢
      rw [h.support i _ hc hcurrent]
      exact (@support_congr t t' _ (upsert_filter hic) (fun _ _ _ => rfl) _).symm
  · obtain ⟨ce₀, hce₀, hclaimId, hevidenceId⟩ | ⟨hclaimId, hevidenceId⟩ := mem_upsert hce
    · exact hclaimId ▸ hevidenceId ▸ (h.linked ce₀ hce₀).grow hg
    · exact hclaimId ▸ hevidenceId ▸ hrequest.grow hg

/-! ### The step lemma -/

theorem LinkInput.check_sameProject {input : LinkInput} (h : input.check t) :
    SameProject t input.claimId input.evidenceId := by
  simp only [LinkInput.check, Bool.decide_and, Bool.and_eq_true, decide_eq_true_eq,
    Option.any_eq_true] at h
  obtain ⟨⟨c, hc, hcp, _⟩, e, he, _, s, hs, hsp⟩ := h
  exact ⟨c, e, s, hc, he, hs, hsp.trans hcp.symm⟩

end

section
variable {s : LedgerSys} {k : ℕ} {link : LinkTransaction}

/-- The tables change as the invariant allows. -/
theorem LedgerOk.setTables (h : LedgerOk s) {t' : ResearchTables} (ht : TablesStep s.tables t') :
    LedgerOk { s with tables := t' } :=
  ⟨ht.ok, fun link hlink => (h.requests link hlink).grow ht.grows⟩

theorem LedgerOk.transact (h : LedgerOk s) {result : Except ServiceError ResearchTables}
    (hresult : ∀ t', result = .ok t' → TablesStep s.tables t') : LedgerOk (s.transact result) := by
  unfold LedgerSys.transact
  split
  · exact h.setTables (hresult _ rfl)
  · exact h

theorem LedgerOk.setPhase (h : LedgerOk s) (hrow : s.links[k]? = some link) (phase : LinkPhase) :
    LedgerOk (s.setPhase k link phase) := by
  refine ⟨h.tables, fun d hd => ?_⟩
  obtain hd | rfl := List.mem_or_eq_of_mem_set hd
  · exact h.requests d hd
  · exact h.requests link (List.mem_of_getElem? hrow)

/-- **Step lemma.**  Every step that nothing disturbs keeps the statuses right. -/
theorem LedgerSys.step_ledgerOk (h : LedgerOk s) (a : LedgerAct) (ha : Undisturbed s a) :
    LedgerOk (s.step a) := by
  cases a with
  | addSource source =>
    exact h.setTables (h.tables.append rfl (List.append_nil _).symm rfl rfl nofun)
  | addEvidence sourceId verificationStatus supportExtent =>
    refine h.transact fun t' ht => ?_
    simp only [addEvidence, bind_eq_ok, pure_eq_ok] at ht
    obtain ⟨_, _, rfl⟩ := ht
    refine h.tables.append (List.append_nil _).symm rfl rfl rfl fun e he hgenerated => ?_
    rw [List.mem_singleton.mp he] at hgenerated
    exact absurd rfl hgenerated
  | addClaim projectId verificationPossible => exact h.setTables (h.tables.addClaim projectId verificationPossible)
  | updateProjectScope projectId freshness => exact h.setTables (h.tables.updateProjectScope projectId freshness)
  | setDocuments documents => exact h.setTables (h.tables.ofSame rfl rfl rfl rfl)
  | commitStage prior bundle output =>
    exact h.transact fun t' ht => h.tables.commitDomainEffects ht ha
  | restart runStageIds => exact h.setTables (h.tables.mark runStageIds)
  | link input =>
    simp only [LedgerSys.step]
    split
    · refine ⟨h.tables, fun link hlink => ?_⟩
      obtain hlink | hlink := List.mem_append.mp hlink
      · exact h.requests link hlink
      · obtain rfl := List.mem_singleton.mp hlink
        exact LinkInput.check_sameProject ‹_›
    · exact h
  | next k =>
    simp only [LedgerSys.step]
    split
    · rename_i link hrow
      unfold LedgerSys.next
      split
      · split
        · exact h
        · exact h.setPhase hrow _
      · exact h.setPhase hrow _
      · rename_i evidence hphase
        obtain rfl := ha link hrow evidence (by rw [hphase]; rfl)
        exact (h.setTables (h.tables.link
          (h.requests link (List.mem_of_getElem? hrow)))).setPhase hrow _
      · exact h
    · exact h
  | abort k =>
    simp only [LedgerSys.step]
    split
    · split
      · exact h
      · exact h.setPhase ‹_› _
    · exact h

/-- The states reached by steps that each met `ok`. -/
def LedgerSys.ReachableBy (ok : LedgerSys → LedgerAct → Prop) (s : LedgerSys) : Prop :=
  Reach LedgerSys.step ok .initial s

/-- **Cached support.**  Along every run in which generated claims have usable evidence if any is
    verified, and in which what a `linkClaimEvidence` has read is still so when it commits, every
    current claim has the status that its linked evidence gives it. -/
theorem cached_support_right (h : s.ReachableBy Undisturbed) : SupportRight s.tables := by
  have hok : LedgerOk s := by
    refine Reach.invariant h ⟨⟨?_, ?_, ?_⟩, ?_⟩ fun s a hI ha => s.step_ledgerOk hI a ha
    · intro i c hc
      simp [LedgerSys.initial] at hc
    · simp [LedgerSys.initial]
    · simp [LedgerSys.initial]
    · simp [LedgerSys.initial]
  exact hok.tables.support

end

/-- A claim is generated, a human links evidence that refutes it, and the scope is updated. -/
def contestedClaim : List LedgerAct :=
  [.addSource ⟨0, .current⟩, .addEvidence 0 .verified .full,
    .commitStage [] ⟨0, 0, .claimGeneration, [0], []⟩ { claims := [⟨[0]⟩] },
    .addEvidence 0 .verified .full, .link ⟨0, 0, 1, .refutes⟩, .next 0, .next 0, .next 0,
    .updateProjectScope 0 fun _ => .outdated]

/-- The claim is contested, before and after its source has become outdated. -/
theorem cached_support_right_contested :
    let s := contestedClaim.foldl LedgerSys.step .initial
    s.tables.claims.map (·.supportStatus) = [.contested] ∧ SupportRight s.tables :=
  ⟨by decide +kernel, cached_support_right (Reach.ofTrace (by decide +kernel))⟩

/-! ### Runs that are disturbed -/

/-- The commit of `claim_generation` with one claim from the given source. -/
def commitGeneratedClaim (sourceId : ℕ) : LedgerAct :=
  .commitStage [] ⟨0, 0, .claimGeneration, [sourceId], []⟩ { claims := [⟨[sourceId]⟩] }

/-- A claim is generated from a source that has become outdated. -/
def outdatedSource : List LedgerAct :=
  [.addSource ⟨0, .outdated⟩, .addEvidence 0 .verified .full, commitGeneratedClaim 0]

/-- One human links evidence that supports a claim while another one links evidence that refutes
    it. -/
def concurrentLinks : List LedgerAct :=
  [.addSource ⟨0, .current⟩, .addEvidence 0 .verified .full, .addEvidence 0 .verified .full,
    .addClaim 0 true, .link ⟨0, 0, 0, .supports⟩, .link ⟨0, 0, 1, .refutes⟩,
    .next 0, .next 0, .next 1, .next 1, .next 0, .next 1]

/-- **Wrong statuses.**  The generated claim is `SUPPORTED` though its only source is outdated, and
    the linked one is not `CONTESTED`. -/
theorem cached_support_wrong :
    (∃ s : LedgerSys, s.ReachableBy Always ∧ ¬ SupportRight s.tables ∧
      s.tables.claims.map (·.supportStatus) = [.supported] ∧
      calculateClaimSupportStatus (claimAssessments s.tables 0) true = .outdated) ∧
    ∃ s : LedgerSys, s.ReachableBy Always ∧ ¬ SupportRight s.tables ∧
      s.tables.claims.map (·.supportStatus) = [.unsupported] ∧
      calculateClaimSupportStatus (claimAssessments s.tables 0) true = .contested := by
  refine ⟨⟨_, .ofActions _ outdatedSource, fun h => ?_, by decide +kernel, by decide +kernel⟩,
    _, .ofActions _ concurrentLinks, fun h => ?_, by decide +kernel, by decide +kernel⟩
  all_goals
    have := h 0 _ rfl rfl
    revert this
    decide +kernel

end ResearchWorkbench
