import Mathlib.Data.List.ReduceOption
import ResearchWorkbench.Quality.Texts

namespace ResearchWorkbench.Qa

/-!
# The order of the rows

The queries of `buildQaContext` name no order.  Apart from the duplicates, which rules report and
where does not depend on the order in which the rows come.

* `reported` — the rules and the places of some findings;
* `QaContext.Reordered` — contexts with the same content; `claimAssessments_reordered` — the claims;
* `runQaRules_reordered` — all rules but the one about duplicates;
* `QaRows.Reordered`, `QaRows.Identified` — rows in another order, with ids that occur once;
* `assertionFindings_of_support` — what is reported about a number depends on which evidence there
  is;
* `context_reordered` — reordered rows make reordered contexts.
-/

/-! ### Reports -/

/-- The rules and the places of some findings. -/
def reported (findings : List QaFinding) : List (QaRuleCode × Text) :=
  findings.map fun f => (f.ruleCode, f.location)

theorem reported_append (fs gs : List QaFinding) :
    reported (fs ++ gs) = reported fs ++ reported gs := List.map_append

theorem mem_reported {fs : List QaFinding} {x : QaRuleCode × Text} :
    x ∈ reported fs ↔ ∃ f ∈ fs, (f.ruleCode, f.location) = x := List.mem_map

theorem mem_reported_flatMap {α : Type} {l : List α} {g : α → List QaFinding}
    {x : QaRuleCode × Text} : x ∈ reported (l.flatMap g) ↔ ∃ a ∈ l, x ∈ reported (g a) := by
  rw [reported, List.map_flatMap, List.mem_flatMap]
  rfl

/-- What is reported about items that satisfy a condition. -/
theorem mem_reported_filter_map {α : Type} {l : List α} {q : α → Bool} {g : α → QaFinding}
    {x : QaRuleCode × Text} : x ∈ reported ((l.filter q).map g) ↔
      ∃ a ∈ l, q a = true ∧ ((g a).ruleCode, (g a).location) = x := by
  rw [reported, List.map_map, List.mem_map]
  simp only [List.mem_filter, and_assoc]
  rfl

/-! ### Contexts -/

variable {c c' : QaContext} {claim : QaClaim} {fs : List QaFinding}

/-- The support status depends on which assessments there are. -/
theorem calculateClaimSupportStatus_congr {l l' : List ClaimEvidenceAssessment}
    (h : ∀ x, x ∈ l ↔ x ∈ l') (verificationPossible : Bool) :
    calculateClaimSupportStatus l verificationPossible =
      calculateClaimSupportStatus l' verificationPossible := by
  have hkind (relationship : EvidenceRelationship) (x : ClaimEvidenceAssessment) :
      x ∈ (l.filter fun item => decide (item.verificationStatus = .verified ∧
          item.relationship ≠ .context)).filter (·.relationship = relationship) ↔
        x ∈ (l'.filter fun item => decide (item.verificationStatus = .verified ∧
          item.relationship ≠ .context)).filter (·.relationship = relationship) := by
    simp only [List.mem_filter, h]
  have hsupports := hkind .supports
  have hrefutes := hkind .refutes
  simp only [calculateClaimSupportStatus]
  generalize (l.filter _).filter (·.relationship = .supports) = supporting at *
  generalize (l'.filter _).filter (·.relationship = .supports) = supporting' at *
  generalize (l.filter _).filter (·.relationship = .refutes) = refuting at *
  generalize (l'.filter _).filter (·.relationship = .refutes) = refuting' at *
  have hnil {m m' : List ClaimEvidenceAssessment} (hm : ∀ x, x ∈ m ↔ x ∈ m') :
      m = [] ↔ m' = [] := by simp only [List.eq_nil_iff_forall_not_mem, hm]
  have hall (q : ClaimEvidenceAssessment → Bool) : supporting.all q = supporting'.all q := by
    rw [Bool.eq_iff_iff, List.all_eq_true, List.all_eq_true]
    simp only [hsupports]
  have hany (q : ClaimEvidenceAssessment → Bool) : supporting.any q = supporting'.any q := by
    rw [Bool.eq_iff_iff, List.any_eq_true, List.any_eq_true]
    simp only [hsupports]
  simp only [ne_eq, hnil hsupports, hnil hrefutes, hall, hany]

/-- The same content in another order. -/
structure QaContext.Reordered (c c' : QaContext) : Prop where
  researchDate : c'.researchDate = c.researchDate
  sourceMaxAgeDays : c'.sourceMaxAgeDays = c.sourceMaxAgeDays
  sources : c.sources.Perm c'.sources
  evidence : c.evidence.Perm c'.evidence
  claims : c.claims.Perm c'.claims
  claimEvidence : c.claimEvidence.Perm c'.claimEvidence
  conflicts : c.conflicts.Perm c'.conflicts
  researchGaps : c'.researchGaps = c.researchGaps
  citationIds : c'.report.citationIds = c.report.citationIds
  sections : c'.report.sections = c.report.sections
  statements : c.report.statements.Perm c'.report.statements
  assertions : ∀ x, x ∈ reported (c.report.quantitativeAssertions.flatMap (assertionFindings c)) ↔
    x ∈ reported (c'.report.quantitativeAssertions.flatMap (assertionFindings c'))

/-- Sources, evidence and claims have ids of their own. -/
structure QaContext.Identified (c : QaContext) : Prop where
  sources : (c.sources.map (·.id)).Nodup
  evidence : (c.evidence.map (·.id)).Nodup
  claims : (c.claims.map (·.id)).Nodup

/-- The claims of a context with their assessments. -/
def Assesses (c : QaContext) (claims : List AssessedClaim) : Prop :=
  (∀ claim ∈ c.claims, ∃ a ∈ claims, a.claim = claim ∧
      claimAssessments c claim = .ok a.assessments) ∧
    ∀ a ∈ claims, a.claim ∈ c.claims ∧ claimAssessments c a.claim = .ok a.assessments

/-- Claims that are the same, with the same assessments in any order. -/
def AssessedClaim.Agrees (a a' : AssessedClaim) : Prop :=
  a'.claim = a.claim ∧ ∀ x, x ∈ a'.assessments ↔ x ∈ a.assessments

theorem AssessedClaim.Agrees.supportStatus {a a' : AssessedClaim} (hagrees : a.Agrees a') :
    a'.supportStatus = a.supportStatus := by
  rw [AssessedClaim.supportStatus, AssessedClaim.supportStatus, hagrees.1]
  exact calculateClaimSupportStatus_congr hagrees.2 _

theorem AssessedClaim.Agrees.any {a a' : AssessedClaim} (hagrees : a.Agrees a')
    (q : ClaimEvidenceAssessment → Bool) : a'.assessments.any q = a.assessments.any q := by
  rw [Bool.eq_iff_iff, List.any_eq_true, List.any_eq_true]
  simp only [hagrees.2]

section

variable (h : c.Reordered c') (hids : c.Identified)
include h hids

theorem sourceById_reordered (id : Text) : c'.sourceById id = c.sourceById id :=
  lookup_perm hids.sources h.sources id

theorem evidenceById_reordered (id : Text) : c'.evidenceById id = c.evidenceById id :=
  lookup_perm hids.evidence h.evidence id

omit hids in
theorem sourceFreshness_reordered (source : QaSource) :
    sourceFreshness c' source = sourceFreshness c source := by
  rw [sourceFreshness, sourceFreshness, h.researchDate, h.sourceMaxAgeDays]

theorem linkAssessment_reordered (link : QaClaimEvidenceLink) :
    linkAssessment c' link = linkAssessment c link := by
  simp only [linkAssessment, evidenceById_reordered h hids, sourceById_reordered h hids,
    sourceFreshness_reordered h]

theorem citedSources_reordered : citedSources c' = citedSources c := by
  rw [citedSources, citedSources, h.citationIds]
  exact List.filterMap_congr fun id _ => sourceById_reordered h hids id

/-- A claim has the same assessments. -/
theorem claimAssessments_reordered {assessments : List ClaimEvidenceAssessment}
    (hok : claimAssessments c claim = .ok assessments) :
    ∃ assessments', claimAssessments c' claim = .ok assessments' ∧
      ∀ x, x ∈ assessments' ↔ x ∈ assessments := by
  simp only [claimAssessments, bind_eq_ok, pure_eq_ok] at hok ⊢
  rcases hok with ⟨found, hfound, rfl⟩
  rcases mapM_eq_ok hfound with ⟨hall, hsome⟩
  have hmem (link : QaClaimEvidenceLink) :
      link ∈ c'.claimEvidence.filter (·.claimId = claim.id) ↔
        link ∈ c.claimEvidence.filter (·.claimId = claim.id) :=
    (h.claimEvidence.symm.filter _).mem_iff
  have hok' : ∀ link ∈ c'.claimEvidence.filter (·.claimId = claim.id),
      ∃ a, linkAssessment c' link = .ok a := by
    intro link hlink
    rcases hall link ((hmem link).mp hlink) with ⟨a, _, ha⟩
    exact ⟨a, by rw [linkAssessment_reordered h hids, ha]⟩
  rcases exists_mapM_eq_ok hok' with ⟨found', hfound'⟩
  rcases mapM_eq_ok hfound' with ⟨hall', hsome'⟩
  refine ⟨_, ⟨found', hfound', rfl⟩, fun x => ?_⟩
  rw [List.reduceOption_mem_iff, List.reduceOption_mem_iff]
  constructor
  · intro hx
    rcases hsome' _ hx with ⟨link, hlink, heq⟩
    rw [linkAssessment_reordered h hids] at heq
    rcases hall link ((hmem link).mp hlink) with ⟨a, ha, heq'⟩
    rw [heq] at heq'
    cases heq'
    exact ha
  · intro hx
    rcases hsome _ hx with ⟨link, hlink, heq⟩
    rcases hall' link ((hmem link).mpr hlink) with ⟨a, ha, heq'⟩
    rw [linkAssessment_reordered h hids, heq] at heq'
    cases heq'
    exact ha

/-- The claims of a reordered context agree with those of the context. -/
theorem assesses_reordered {claims claims' : List AssessedClaim} (hclaims : Assesses c claims)
    (hclaims' : Assesses c' claims') :
    (∀ a ∈ claims, ∃ a' ∈ claims', a.Agrees a') ∧ ∀ a' ∈ claims', ∃ a ∈ claims, a.Agrees a' := by
  refine ⟨fun a ha => ?_, fun a' ha' => ?_⟩
  · rcases hclaims.2 a ha with ⟨hmem, hok⟩
    rcases claimAssessments_reordered h hids hok with ⟨as', hok', hsame⟩
    rcases hclaims'.1 a.claim (h.claims.mem_iff.mp hmem) with ⟨a', ha', hclaim, heq⟩
    rw [hok'] at heq
    cases heq
    exact ⟨a', ha', hclaim, hsame⟩
  · rcases hclaims'.2 a' ha' with ⟨hmem, hok'⟩
    rcases hclaims.1 a'.claim (h.claims.mem_iff.mpr hmem) with ⟨a, ha, hclaim, hok⟩
    rcases claimAssessments_reordered h hids hok with ⟨as', hok'', hsame⟩
    rw [hok'] at hok''
    cases hok''
    exact ⟨a, ha, hclaim.symm, hsame⟩

omit h in
/-- With ids of their own, a claim is found by its id. -/
theorem lookup_assessed {claims : List AssessedClaim} (hclaims : Assesses c claims)
    {a : AssessedClaim} (ha : a ∈ claims) : lookup (·.claim.id) claims a.claim.id = some a := by
  cases hlast : lookup (·.claim.id) claims a.claim.id with
  | none => exact absurd rfl (lookup_eq_none_iff.mp hlast a ha)
  | some last =>
    rcases mem_of_lookup hlast with ⟨hmem, hid⟩
    rcases hclaims.2 a ha with ⟨hclaim, hok⟩
    rcases hclaims.2 last hmem with ⟨hclaim', hok'⟩
    have heq : last.claim = a.claim := List.inj_on_of_nodup_map hids.claims hclaim' hclaim hid
    rw [heq, hok] at hok'
    cases last
    cases a
    simp only [Except.ok.injEq] at heq hok'
    rw [heq, hok']

/-- A rule about claims that agreeing claims satisfy alike. -/
theorem reported_claims {claims claims' : List AssessedClaim} {q q' : AssessedClaim → Bool}
    {g : AssessedClaim → QaFinding} (hclaims : Assesses c claims) (hclaims' : Assesses c' claims')
    (hq : ∀ a ∈ claims, ∀ a' ∈ claims', a.Agrees a' → q a = q' a' ∧
      (g a).ruleCode = (g a').ruleCode ∧ (g a).location = (g a').location)
    (x : QaRuleCode × Text) :
    x ∈ reported ((claims.filter q).map g) ↔ x ∈ reported ((claims'.filter q').map g) := by
  rcases assesses_reordered h hids hclaims hclaims' with ⟨hleft, hright⟩
  rw [mem_reported_filter_map, mem_reported_filter_map]
  constructor
  · rintro ⟨a, ha, hqa, rfl⟩
    rcases hleft a ha with ⟨a', ha', hagrees⟩
    rcases hq a ha a' ha' hagrees with ⟨hqq, hcode, hlocation⟩
    exact ⟨a', ha', hqq ▸ hqa, by rw [hcode, hlocation]⟩
  · rintro ⟨a', ha', hqa, rfl⟩
    rcases hright a' ha' with ⟨a, ha, hagrees⟩
    rcases hq a ha a' ha' hagrees with ⟨hqq, hcode, hlocation⟩
    exact ⟨a, ha, hqq ▸ hqa, by rw [hcode, hlocation]⟩

theorem unsourcedKeyClaims_reordered {claims claims' : List AssessedClaim}
    (hclaims : Assesses c claims) (hclaims' : Assesses c' claims') (x : QaRuleCode × Text) :
    x ∈ reported (unsourcedKeyClaims claims) ↔ x ∈ reported (unsourcedKeyClaims claims') := by
  refine reported_claims h hids hclaims hclaims' (fun a _ a' _ hagrees => ⟨?_, rfl, ?_⟩) x
  · rw [hagrees.1, hagrees.any]
  · show asciiText "claim:" ++ a.claim.id = asciiText "claim:" ++ a'.claim.id
    rw [hagrees.1]

theorem contestedClaims_reordered {claims claims' : List AssessedClaim}
    (hclaims : Assesses c claims) (hclaims' : Assesses c' claims')
    (hids' : c'.Identified) (x : QaRuleCode × Text) :
    x ∈ reported (contestedClaims c.conflicts claims) ↔
      x ∈ reported (contestedClaims c'.conflicts claims') := by
  refine reported_claims h hids hclaims hclaims' (fun a ha a' ha' hagrees => ⟨?_, rfl, ?_⟩) x
  · rw [lookup_assessed hids hclaims ha, lookup_assessed hids' hclaims' ha', Option.any_some,
      Option.any_some, hagrees.supportStatus, hagrees.1, h.conflicts.any_eq]
  · show asciiText "claim:" ++ a.claim.id = asciiText "claim:" ++ a'.claim.id
    rw [hagrees.1]

/-! ### The other rules -/

omit hids in
theorem invalidCitations_reordered : invalidCitations c' = invalidCitations c := by
  have hknown (value : Text) :
      value ∈ c'.sources.map (·.id) ↔ value ∈ c.sources.map (·.id) :=
    (h.sources.symm.map _).mem_iff
  have hissues (seen : List Text) (index : ℕ) (values : List Text) :
      citationIdIssuesFrom (c'.sources.map (·.id)) seen index values =
        citationIdIssuesFrom (c.sources.map (·.id)) seen index values := by
    induction values generalizing seen index with
    | nil => rfl
    | cons value values ih => simp only [citationIdIssuesFrom, ih, hknown]
  rw [invalidCitations, invalidCitations, findCitationIdIssues, findCitationIdIssues, h.citationIds,
    hissues]

theorem unreferencedSources_reordered (x : QaRuleCode × Text) :
    x ∈ reported (unreferencedSources c) ↔ x ∈ reported (unreferencedSources c') := by
  rw [unreferencedSources, unreferencedSources, mem_reported_filter_map, mem_reported_filter_map,
    citedSources_reordered h hids]
  simp only [h.sources.mem_iff]

omit hids in
theorem unresolvedConflicts_reordered (x : QaRuleCode × Text) :
    x ∈ reported (unresolvedConflicts c.conflicts) ↔
      x ∈ reported (unresolvedConflicts c'.conflicts) := by
  rw [unresolvedConflicts, unresolvedConflicts, mem_reported_filter_map, mem_reported_filter_map]
  simp only [h.conflicts.mem_iff]

omit hids in
theorem statements_reordered (x : QaRuleCode × Text) :
    x ∈ reported (c.report.statements.flatMap statementFindings) ↔
      x ∈ reported (c'.report.statements.flatMap statementFindings) := by
  rw [mem_reported_flatMap, mem_reported_flatMap]
  simp only [h.statements.mem_iff]

end

/-! ### All rules but one -/

/-- What `runQaRules` reports apart from duplicates. -/
def otherFindings (c : QaContext) (claims : List AssessedClaim)
    (freshness : List (QaSource × SourceFreshnessStatus)) : List QaFinding :=
  unsourcedKeyClaims claims ++ invalidCitations c ++ outdatedSources freshness ++
    sourceConcentration (citedSources c) ++ unresolvedConflicts c.conflicts ++
    contestedClaims c.conflicts claims ++ c.report.statements.flatMap statementFindings ++
    c.report.quantitativeAssertions.flatMap (assertionFindings c) ++ unreferencedSources c ++
    openGaps c.researchGaps ++ emptySections c.report.sections

/-- The freshness of the cited sources. -/
def freshnessOf (c : QaContext) : Except String (List (QaSource × SourceFreshnessStatus)) :=
  (citedSources c).mapM fun source => do
    let status ← sourceFreshness c source
    return (source, status)

/-- What `runQaRules` reports. -/
theorem runQaRules_ok (hok : runQaRules c = .ok fs) : ∃ claims freshness, Assesses c claims ∧
    freshnessOf c = .ok freshness ∧ ∀ x, x ∈ reported fs ↔
      x ∈ reported (otherFindings c claims freshness) ∨ x ∈ reported (duplicateSources c.sources) := by
  simp only [runQaRules, bind_eq_ok, pure_eq_ok] at hok
  rcases hok with ⟨claims, hclaims, freshness, hfreshness, rfl⟩
  rcases mapM_eq_ok hclaims with ⟨hall, hsome⟩
  refine ⟨claims, freshness, ⟨fun claim hclaim => ?_, fun a ha => ?_⟩, hfreshness, fun x => ?_⟩
  · rcases hall claim hclaim with ⟨a, ha, hassess⟩
    simp only [bind_eq_ok, pure_eq_ok] at hassess
    rcases hassess with ⟨assessments, hassess, rfl⟩
    exact ⟨_, ha, rfl, hassess⟩
  · rcases hsome a ha with ⟨claim, hclaim, hassess⟩
    simp only [bind_eq_ok, pure_eq_ok] at hassess
    rcases hassess with ⟨assessments, hassess, rfl⟩
    exact ⟨hclaim, hassess⟩
  · simp only [otherFindings, reported_append, List.mem_append, or_comm, or_left_comm]

/-- `runQaRules` succeeds where the claims and the cited sources can be assessed. -/
theorem exists_runQaRules_ok (hclaims : ∀ claim ∈ c.claims, ∃ as, claimAssessments c claim = .ok as)
    {freshness : List (QaSource × SourceFreshnessStatus)} (hfreshness : freshnessOf c = .ok freshness) :
    ∃ fs, runQaRules c = .ok fs := by
  have hassess : ∀ claim ∈ c.claims, ∃ a, (do
      let assessments ← claimAssessments c claim
      return { claim, assessments : AssessedClaim }) = Except.ok a := by
    intro claim hclaim
    rcases hclaims claim hclaim with ⟨as, has⟩
    exact ⟨⟨claim, as⟩, by rw [has]; rfl⟩
  rcases exists_mapM_eq_ok hassess with ⟨claims, hmap⟩
  simp only [runQaRules, bind_eq_ok, pure_eq_ok]
  exact ⟨_, claims, hmap, freshness, hfreshness, rfl⟩

/-- All findings of a list are of other rules than the one about duplicates. -/
def NoDuplicates (fs : List QaFinding) : Prop := ∀ f ∈ fs, f.ruleCode ≠ .duplicateSource

theorem NoDuplicates.append {gs : List QaFinding} (hfs : NoDuplicates fs) (hgs : NoDuplicates gs) :
    NoDuplicates (fs ++ gs) := List.forall_mem_append.mpr ⟨hfs, hgs⟩

theorem NoDuplicates.map {α : Type} {l : List α} {g : α → QaFinding} {code : QaRuleCode}
    (hcode : ∀ a, (g a).ruleCode = code) (hne : code ≠ .duplicateSource) :
    NoDuplicates (l.map g) := by
  intro f hf
  rcases List.mem_map.mp hf with ⟨a, _, rfl⟩
  rw [hcode]
  exact hne

theorem NoDuplicates.ite {p : Prop} [Decidable p] (hfs : NoDuplicates fs) :
    NoDuplicates (if p then fs else []) := by
  split
  · exact hfs
  · exact fun f hf => absurd hf List.not_mem_nil

theorem NoDuplicates.singleton {f : QaFinding} (hf : f.ruleCode ≠ .duplicateSource) :
    NoDuplicates [f] := List.forall_mem_singleton.mpr hf

theorem NoDuplicates.flatMap {α : Type} {l : List α} {g : α → List QaFinding}
    (hg : ∀ a, NoDuplicates (g a)) : NoDuplicates (l.flatMap g) := by
  intro f hf
  rcases List.mem_flatMap.mp hf with ⟨a, _, hmem⟩
  exact hg a f hmem

/-- None of the other rules reports duplicates. -/
theorem noDuplicates_otherFindings (claims : List AssessedClaim)
    (freshness : List (QaSource × SourceFreshnessStatus)) :
    NoDuplicates (otherFindings c claims freshness) := by
  have hstatements (statement : QaReportStatement) : NoDuplicates (statementFindings statement) :=
    (NoDuplicates.singleton QaRuleCode.noConfusion).ite.append
      (NoDuplicates.singleton QaRuleCode.noConfusion).ite
  have hassertions (assertion : QaQuantitativeAssertion) :
      NoDuplicates (assertionFindings c assertion) :=
    ((NoDuplicates.singleton QaRuleCode.noConfusion).ite.append
      (NoDuplicates.singleton QaRuleCode.noConfusion).ite).append
      (NoDuplicates.singleton QaRuleCode.noConfusion).ite
  have hmap {α : Type} {l : List α} {g : α → QaFinding} (code : QaRuleCode)
      (hcode : ∀ a, (g a).ruleCode = code) (hne : code ≠ .duplicateSource) :
      NoDuplicates (l.map g) := NoDuplicates.map hcode hne
  refine ((((((((((NoDuplicates.append ?_ ?_).append ?_).append ?_).append ?_).append ?_).append
    (.flatMap hstatements)).append (.flatMap hassertions)).append ?_).append ?_).append ?_)
  · exact hmap .unsourcedKeyClaim (fun _ => rfl) QaRuleCode.noConfusion
  · exact hmap .invalidCitationId (fun _ => rfl) QaRuleCode.noConfusion
  · exact hmap .outdatedSource (fun _ => rfl) QaRuleCode.noConfusion
  · exact (hmap .sourceConcentration (fun _ => rfl) QaRuleCode.noConfusion).ite
  · exact hmap .unresolvedSourceConflict (fun _ => rfl) QaRuleCode.noConfusion
  · exact hmap .unresolvedSourceConflict (fun _ => rfl) QaRuleCode.noConfusion
  · exact hmap .unreferencedSource (fun _ => rfl) QaRuleCode.noConfusion
  · exact hmap .openResearchGap (fun _ => rfl) QaRuleCode.noConfusion
  · exact hmap .emptyRequiredSection (fun _ => rfl) QaRuleCode.noConfusion

/-- **All rules but one.**  What the rules report apart from duplicates is the same for a reordered
    context. -/
theorem runQaRules_reordered (h : c.Reordered c') (hids : c.Identified) (hids' : c'.Identified)
    (hok : runQaRules c = .ok fs) : ∃ fs', runQaRules c' = .ok fs' ∧
      ∃ others : List (QaRuleCode × Text), (∀ x ∈ others, x.1 ≠ .duplicateSource) ∧
        (∀ x, x ∈ reported fs ↔ x ∈ others ∨ x ∈ reported (duplicateSources c.sources)) ∧
        ∀ x, x ∈ reported fs' ↔ x ∈ others ∨ x ∈ reported (duplicateSources c'.sources) := by
  rcases runQaRules_ok hok with ⟨claims, freshness, hclaims, hfreshness, hreported⟩
  have hfreshness' : freshnessOf c' = .ok freshness := by
    rw [freshnessOf, citedSources_reordered h hids]
    simp only [sourceFreshness_reordered h]
    exact hfreshness
  have hassess : ∀ claim ∈ c'.claims, ∃ as, claimAssessments c' claim = .ok as := by
    intro claim hclaim
    rcases hclaims.1 claim (h.claims.mem_iff.mpr hclaim) with ⟨a, _, _, ha⟩
    rcases claimAssessments_reordered h hids ha with ⟨as', has', _⟩
    exact ⟨as', has'⟩
  rcases exists_runQaRules_ok hassess hfreshness' with ⟨fs', hok'⟩
  rcases runQaRules_ok hok' with ⟨claims', freshness'', hclaims', hfreshness'', hreported'⟩
  rw [hfreshness'] at hfreshness''
  cases hfreshness''
  have hothers (x : QaRuleCode × Text) : x ∈ reported (otherFindings c' claims' freshness) ↔
      x ∈ reported (otherFindings c claims freshness) := by
    simp only [otherFindings, reported_append, List.mem_append,
      unsourcedKeyClaims_reordered h hids hclaims hclaims', invalidCitations_reordered h,
      citedSources_reordered h hids, unresolvedConflicts_reordered h,
      contestedClaims_reordered h hids hclaims hclaims' hids', statements_reordered h,
      h.assertions, unreferencedSources_reordered h hids, h.researchGaps, h.sections]
  refine ⟨fs', hok', reported (otherFindings c claims freshness), fun x hx => ?_, hreported,
    fun x => by rw [hreported', hothers]⟩
  rcases mem_reported.mp hx with ⟨f, hf, rfl⟩
  exact noDuplicates_otherFindings claims freshness f hf

/-! ### Rows -/

variable {rows rows' : QaRows}

/-- The same rows in another order. -/
structure QaRows.Reordered (rows rows' : QaRows) : Prop where
  project : rows'.project = rows.project
  sources : rows.sources.Perm rows'.sources
  evidence : rows.evidence.Perm rows'.evidence
  claims : rows.claims.Perm rows'.claims
  links : rows.links.Perm rows'.links
  questions : rows'.questions = rows.questions
  sections : rows'.sections = rows.sections

/-- Sources, evidence and claims have ids of their own, and no evidence an empty one. -/
structure QaRows.Identified (rows : QaRows) : Prop where
  sources : (rows.sources.map (·.id)).Nodup
  evidence : (rows.evidence.map (·.id)).Nodup
  claims : (rows.claims.map (·.id)).Nodup
  named : ∀ e ∈ rows.evidence, e.id ≠ []

theorem QaRows.Reordered.refl (rows : QaRows) : rows.Reordered rows :=
  ⟨rfl, .refl _, .refl _, .refl _, .refl _, rfl, rfl⟩

theorem QaRows.Identified.reordered (hids : rows.Identified) (h : rows.Reordered rows') :
    rows'.Identified where
  sources := (h.sources.map _).nodup_iff.mp hids.sources
  evidence := (h.evidence.map _).nodup_iff.mp hids.evidence
  claims := (h.claims.map _).nodup_iff.mp hids.claims
  named e he := hids.named e (h.evidence.mem_iff.mpr he)

/-- What the rules read has the ids of the rows. -/
theorem QaRows.Identified.context (hids : rows.Identified) : rows.context.Identified where
  sources := by
    rw [QaRows.context, List.map_map]
    exact hids.sources
  evidence := by
    rw [QaRows.context, List.map_map]
    exact hids.evidence
  claims := by
    rw [QaRows.context, List.map_map]
    exact hids.claims

/-- Verified evidence of a project. -/
def QaRows.Verified (rows : QaRows) (supporting : List EvidenceRow) : Prop :=
  ∀ e ∈ supporting, e ∈ rows.evidence ∧ e.verificationStatus = .verified

/-- An assertion has verified evidence exactly if some supports it. -/
theorem hasVerifiedEvidence_assertion (hids : rows.Identified) {supporting : List EvidenceRow}
    (hverified : rows.Verified supporting) (id location text checked : Text) :
    hasVerifiedEvidence rows.context (rows.assertion id location text checked supporting) =
      decide (supporting ≠ []) := by
  cases supporting with
  | nil => rfl
  | cons e supporting =>
    rcases hverified e List.mem_cons_self with ⟨hmem, hstatus⟩
    have hfound : rows.context.evidenceById e.id =
        some ⟨e.id, e.sourceId, e.verificationStatus⟩ := by
      refine (lookup_eq_some_iff hids.context.evidence).mpr ⟨?_, rfl⟩
      exact List.mem_map_of_mem (f := fun e : EvidenceRow =>
        (⟨e.id, e.sourceId, e.verificationStatus⟩ : QaEvidence)) hmem
    show (((some e.id).filter (· ≠ [])).bind rows.context.evidenceById).any _ = _
    rw [Option.filter_some, if_pos (by simpa using hids.named e hmem), Option.bind_some, hfound,
      Option.any_some, hstatus]
    rfl

section

variable (h : rows.Reordered rows') (hids : rows.Identified)
include h hids

theorem evidenceTexts_reordered (e : EvidenceRow) : rows'.evidenceTexts e = rows.evidenceTexts e := by
  have hsource : rows'.sourceById e.sourceId = rows.sourceById e.sourceId :=
    lookup_perm hids.sources h.sources e.sourceId
  rw [QaRows.evidenceTexts, QaRows.evidenceTexts, hsource]

theorem evidenceById_rows (id : Text) : rows'.evidenceById id = rows.evidenceById id :=
  lookup_perm hids.evidence h.evidence id

omit hids in
theorem mem_supportLinks_reordered (claimId : Text) (link : LinkRow) :
    link ∈ rows'.supportLinks claimId ↔ link ∈ rows.supportLinks claimId :=
  (h.links.symm.filter _).mem_iff

/-- What is reported about an assertion depends on which evidence supports it. -/
theorem assertionFindings_of_support {supporting supporting' : List EvidenceRow}
    (hverified : rows.Verified supporting) (hsame : ∀ e, e ∈ supporting' ↔ e ∈ supporting)
    (id location text checked : Text) :
    reported (assertionFindings rows'.context
        (rows'.assertion id location text checked supporting')) =
      reported (assertionFindings rows.context
        (rows.assertion id location text checked supporting)) := by
  have hids' : rows'.Identified := hids.reordered h
  have hverified' : rows'.Verified supporting' := fun e he =>
    have hmem := hverified e ((hsame e).mp he)
    ⟨h.evidence.mem_iff.mp hmem.1, hmem.2⟩
  have hnil : supporting' = [] ↔ supporting = [] := by
    simp only [List.eq_nil_iff_forall_not_mem, hsame]
  have htexts (P : Text → Prop) : (∃ e ∈ supporting', ∃ t ∈ rows'.evidenceTexts e, P t) ↔
      ∃ e ∈ supporting, ∃ t ∈ rows.evidenceTexts e, P t := by
    simp only [hsame, evidenceTexts_reordered h hids]
  have hvalue : (rows'.assertion id location text checked supporting').valueMatchesSource =
      (rows.assertion id location text checked supporting).valueMatchesSource := by
    simp only [QaRows.assertion, hnil, mem_numberTokens_sourceText, htexts]
  have hunits : (unitTokens checked).all
        (fun unit => decide (unit ∈ unitTokens (rows'.sourceText supporting'))) =
      (unitTokens checked).all
        fun unit => decide (unit ∈ unitTokens (rows.sourceText supporting)) := by
    rw [Bool.eq_iff_iff, List.all_eq_true, List.all_eq_true]
    refine forall₂_congr fun unit hunit => ?_
    have hname := (mem_unitTokens.mp hunit).1
    rw [decide_eq_true_eq, decide_eq_true_eq, mem_unitTokens_sourceText hname,
      mem_unitTokens_sourceText hname, htexts]
  have hdates : (dateTokens checked).all (fun date => includes (rows'.sourceText supporting') date) =
      (dateTokens checked).all fun date => includes (rows.sourceText supporting) date := by
    rw [Bool.eq_iff_iff, List.all_eq_true, List.all_eq_true]
    refine forall₂_congr fun date hdate => ?_
    rw [includes_sourceText (mem_dateTokens hdate), includes_sourceText (mem_dateTokens hdate),
      htexts]
  have hunit : (rows'.assertion id location text checked supporting').unitMatchesSource =
      (rows.assertion id location text checked supporting).unitMatchesSource := by
    simp only [QaRows.assertion, hnil, hunits]
  have hdate : (rows'.assertion id location text checked supporting').dateMatchesSource =
      (rows.assertion id location text checked supporting).dateMatchesSource := by
    simp only [QaRows.assertion, hnil, hdates]
  have hmismatches : mismatches (rows'.assertion id location text checked supporting') =
      mismatches (rows.assertion id location text checked supporting) := by
    rw [mismatches, mismatches, hunit, hdate]
  rw [assertionFindings, assertionFindings, hasVerifiedEvidence_assertion hids hverified,
    hasVerifiedEvidence_assertion hids' hverified', hmismatches, hvalue]
  simp only [reported_append, ne_eq, hnil]
  congr 1
  · split
    · rfl
    · rfl
  · split
    · rfl
    · rfl

omit h hids in
/-- The evidence that supports a claim is verified. -/
theorem verified_claimSupport (claim : ClaimRow) : rows.Verified (rows.claimSupport claim) := by
  intro e he
  rw [QaRows.claimSupport, List.mem_filter, decide_eq_true_eq] at he
  rcases List.mem_filterMap.mp he.1 with ⟨link, _, hfound⟩
  exact ⟨(mem_of_lookup hfound).1, he.2⟩

omit h hids in
theorem mem_sentenceSupport {text : Text} {e : EvidenceRow} : e ∈ rows.sentenceSupport text ↔
    e ∈ rows.evidence ∧ e.verificationStatus = .verified ∧ (e.sourceId ∈ citationIdsIn text ∨
      ∃ claim ∈ rows.matchingClaims text, ∃ link ∈ rows.links, link.claimId = claim.id ∧
        link.relationship = .supports ∧ link.evidenceId = e.id) := by
  simp only [QaRows.sentenceSupport, List.mem_filter, Bool.and_eq_true, Bool.or_eq_true,
    decide_eq_true_eq, List.mem_map]
  refine and_congr_right fun _ => and_congr_right fun _ => or_congr_right ?_
  constructor
  · rintro ⟨link, ⟨hlink, ⟨claim, hclaim, hid⟩, hsupports⟩, he⟩
    exact ⟨claim, hclaim, link, hlink, hid.symm, hsupports, he⟩
  · rintro ⟨claim, hclaim, link, hlink, hid, hsupports, he⟩
    exact ⟨link, ⟨hlink, ⟨claim, hclaim, hid.symm⟩, hsupports⟩, he⟩

omit h hids in
/-- The evidence that supports a sentence is verified. -/
theorem verified_sentenceSupport (text : Text) : rows.Verified (rows.sentenceSupport text) := by
  intro e he
  rcases mem_sentenceSupport.mp he with ⟨hmem, hstatus, _⟩
  exact ⟨hmem, hstatus⟩

theorem claimSupport_reordered (claim : ClaimRow) (e : EvidenceRow) :
    e ∈ rows'.claimSupport claim ↔ e ∈ rows.claimSupport claim := by
  simp only [QaRows.claimSupport, List.mem_filter, List.mem_filterMap,
    mem_supportLinks_reordered h, evidenceById_rows h hids]

omit hids in
theorem sentenceSupport_reordered (text : Text) (e : EvidenceRow) :
    e ∈ rows'.sentenceSupport text ↔ e ∈ rows.sentenceSupport text := by
  have hclaim (claim : ClaimRow) :
      claim ∈ rows'.matchingClaims text ↔ claim ∈ rows.matchingClaims text :=
    (h.claims.symm.filter _).mem_iff
  rw [mem_sentenceSupport, mem_sentenceSupport]
  simp only [h.evidence.mem_iff, h.links.mem_iff, hclaim]

theorem claimAssertions_reordered (x : QaRuleCode × Text) :
    x ∈ reported (rows'.claimAssertions.flatMap (assertionFindings rows'.context)) ↔
      x ∈ reported (rows.claimAssertions.flatMap (assertionFindings rows.context)) := by
  rw [QaRows.claimAssertions, QaRows.claimAssertions, List.flatMap_map, List.flatMap_map,
    mem_reported_flatMap, mem_reported_flatMap]
  refine exists_congr fun claim => and_congr (h.claims.symm.filter _).mem_iff ?_
  rw [assertionFindings_of_support h hids (verified_claimSupport claim)
    (claimSupport_reordered h hids claim)]

theorem reportAssertions_reordered (x : QaRuleCode × Text) :
    x ∈ reported (rows'.reportAssertions.flatMap (assertionFindings rows'.context)) ↔
      x ∈ reported (rows.reportAssertions.flatMap (assertionFindings rows.context)) := by
  have hnumeric (key : Reports.ReportSectionKey) :
      rows'.numericSentences key = rows.numericSentences key := by
    rw [QaRows.numericSentences, QaRows.numericSentences, h.sections]
  rw [QaRows.reportAssertions, QaRows.reportAssertions, List.flatMap_assoc, List.flatMap_assoc,
    mem_reported_flatMap, mem_reported_flatMap]
  refine exists_congr fun key => and_congr_right fun _ => ?_
  rw [mem_reported_flatMap, mem_reported_flatMap, hnumeric]
  simp only [List.mem_mapIdx]
  constructor
  · rintro ⟨_, ⟨index, hindex, rfl⟩, hx⟩
    refine ⟨_, ⟨index, hindex, rfl⟩, ?_⟩
    rw [assertionFindings_of_support h hids (verified_sentenceSupport _)
      (sentenceSupport_reordered h _)] at hx
    exact hx
  · rintro ⟨_, ⟨index, hindex, rfl⟩, hx⟩
    refine ⟨_, ⟨index, hindex, rfl⟩, ?_⟩
    rw [assertionFindings_of_support h hids (verified_sentenceSupport _)
      (sentenceSupport_reordered h _)]
    exact hx

theorem hasVerifiedLink_reordered (claim : ClaimRow)
    (relationship : EvidenceRelationship) :
    rows'.hasVerifiedLink claim relationship = rows.hasVerifiedLink claim relationship := by
  simp only [QaRows.hasVerifiedLink, evidenceById_rows h hids]
  exact (h.links.symm.filter _).any_eq

/-- **Reordered rows make reordered contexts.** -/
theorem context_reordered : rows.context.Reordered rows'.context where
  researchDate := by rw [QaRows.context, QaRows.context, h.project]
  sourceMaxAgeDays := by rw [QaRows.context, QaRows.context, h.project]
  sources := h.sources.map _
  evidence := h.evidence.map _
  claims := h.claims.map _
  claimEvidence := by
    simp only [QaRows.context, evidenceById_rows h hids]
    exact h.links.map _
  conflicts := by
    simp only [QaRows.context, QaRows.conflicts, hasVerifiedLink_reordered h hids]
    exact (h.claims.filter _).map _
  researchGaps := by rw [QaRows.context, QaRows.context, h.questions]
  citationIds := by rw [QaRows.context, QaRows.context, h.sections]
  sections := by rw [QaRows.context, QaRows.context, h.sections]
  statements := by
    have hstatement : rows'.statement = rows.statement := by
      funext claim
      rw [QaRows.statement, QaRows.statement, h.questions]
    simp only [QaRows.context, hstatement]
    exact (h.claims.filter _).map _
  assertions x := by
    show x ∈ reported ((rows.claimAssertions ++ rows.reportAssertions).flatMap _) ↔
      x ∈ reported ((rows'.claimAssertions ++ rows'.reportAssertions).flatMap _)
    rw [List.flatMap_append, List.flatMap_append, reported_append, reported_append,
      List.mem_append, List.mem_append, claimAssertions_reordered h hids,
      reportAssertions_reordered h hids]

end

end ResearchWorkbench.Qa
