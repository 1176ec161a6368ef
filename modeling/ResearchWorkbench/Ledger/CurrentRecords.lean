import ResearchWorkbench.Ledger.Support
import ResearchWorkbench.Library.Backing
import ResearchWorkbench.Pipeline.StageContracts
import ResearchWorkbench.Services.StageRecords

namespace ResearchWorkbench.Records

/-!
# Current records

A bundle joins claims and findings with all evidence that was ever linked, so that a source comes
from current evidence only as long as no supersession takes the last current evidence of a source
from a claim that stays, and no `linkClaimEvidence` commits after what it links was superseded.

* `StagesReadCurrent` — the property; `KeepsCurrent` — the condition on the steps;
* `LinkedRows`, `RecordDb.rows` — what is current and how it is linked;
* `LinkedRows.Extended`, `LinkedRows.Ok` — rows that are added, and the invariant;
* `RecordDb.step_ok` — the step lemma;
* `stages_read_current` — the property along every run of such steps.
-/

open Contracts Reports

/-! ### The property -/

/-- A row that a stage input or a report cites sources for. -/
inductive CitedRow
  | claim (claimId : ℕ)
  | finding (findingId : ℕ)
  deriving DecidableEq, Repr

/-- The claim is current, and linked to current evidence of the source. -/
def ClaimRests (texts : RowTexts) (t : ResearchTables) (claimId : ℕ) (sourceId : Text) : Prop :=
  (∃ c ∈ t.claims[claimId]?, c.isCurrent) ∧ ∃ ce ∈ t.claimEvidence, ce.claimId = claimId ∧
    ∃ e ∈ t.evidence[ce.evidenceId]?, e.isCurrent ∧ (texts.sourceId e.sourceId).text = sourceId

/-- The row rests on the source: a finding by one of its claims. -/
def CitedRow.RestsOn (texts : RowTexts) (db : RecordDb) (sourceId : Text) : CitedRow → Prop
  | .claim claimId => ClaimRests texts db.ledger.tables claimId sourceId
  | .finding findingId => ∃ fc ∈ db.findingClaims, fc.findingId = findingId ∧
      ClaimRests texts db.ledger.tables fc.claimId sourceId

/-- The rows that the input of a stage cites sources for, in its order. -/
def citedRows (texts : RowTexts) (db : RecordDb) (projectId : ℕ) : AIStage → List CitedRow
  | .conflictDetection | .draftGeneration => (currentClaims texts db projectId).map .claim
  | .reportOutline =>
    if 0 < (currentFindings texts db projectId).length then
      (currentFindings texts db projectId).map .finding
    else (currentClaims texts db projectId).map .claim
  | _ => []

/-- The sources of each claim or finding of an input. -/
def citedSources : StageInput → List (List Text)
  | .conflictDetection claims _ => claims.map (·.sourceIds)
  | .reportOutline findings _ => findings.map (·.sourceIds)
  | .draftGeneration _ _ claims => claims.map (·.sourceIds)
  | _ => []

/-- The citations of a claim in the sections of a draft. -/
def claimCitations (output : Draft) (claim : DomainClaim) : List Text :=
  (claim.sourceIds.getD []).filter (· ∈ output.citationSourceIds)

/-- **Current records.**  In the bundles of all projects, every source that an input gives a claim or
    a finding, and every source that the sections of a draft cite for a claim, is eligible and one
    that the row rests on. -/
def StagesReadCurrent (db : RecordDb) : Prop :=
  ∀ (texts : RowTexts) (projectId : ℕ) (rows : List EligibleRow)
    (run : Contracts.ResearchOrchestrationBundle),
    (∀ built,
      buildResearchStageInput (loadResearchOrchestrationBundle texts db projectId rows run) =
        .ok built →
      ∀ (k : ℕ) (sourceIds : List Text), (citedSources built.input)[k]? = some sourceIds →
        ∃ row ∈ (citedRows texts db projectId built.stage)[k]?, ∀ sourceId ∈ sourceIds,
          sourceId ∈ allowedSourceIds (loadResearchOrchestrationBundle texts db projectId rows run) ∧
            row.RestsOn texts db sourceId) ∧
    ∀ output,
      Qa.validateDraftReferences (loadResearchOrchestrationBundle texts db projectId rows run)
        output = .ok () →
      ∀ claimId ∈ currentClaims texts db projectId,
        ∀ sourceId ∈ claimCitations output (domainClaim texts db projectId claimId),
          sourceId ∈ allowedSourceIds (loadResearchOrchestrationBundle texts db projectId rows run) ∧
            CitedRow.RestsOn texts db sourceId (.claim claimId)

/-! ### What is linked -/

/-- Which claims and findings are current, the source of each evidence and whether it is current,
    and the links of claims with evidence and of findings with claims. -/
structure LinkedRows where
  claims : List Bool
  evidence : List (ℕ × Bool)
  findings : List Bool
  links : List (ℕ × ℕ)
  rests : List (ℕ × ℕ)
  deriving DecidableEq, Repr

/-- The rows of the tables. -/
def linkedRows (t : ResearchTables) (findingClaims : List FindingClaimRow) : LinkedRows where
  claims := t.claims.map (·.isCurrent)
  evidence := t.evidence.map fun e => (e.sourceId, e.isCurrent)
  findings := t.findings.map (·.isCurrent)
  links := t.claimEvidence.map fun ce => (ce.claimId, ce.evidenceId)
  rests := findingClaims.map fun fc => (fc.findingId, fc.claimId)

/-- The rows of the database. -/
def RecordDb.rows (db : RecordDb) : LinkedRows := linkedRows db.ledger.tables db.findingClaims

namespace LinkedRows

/-- The claim is linked to current evidence of the source. -/
def ClaimShows (v : LinkedRows) (claimId sourceId : ℕ) : Prop :=
  ∃ l ∈ v.links, l.1 = claimId ∧ v.evidence[l.2]? = some (sourceId, true)

/-- A current claim of the finding is. -/
def FindingShows (v : LinkedRows) (findingId sourceId : ℕ) : Prop :=
  ∃ r ∈ v.rests, r.1 = findingId ∧ v.claims[r.2]? = some true ∧ v.ClaimShows r.2 sourceId

instance (v : LinkedRows) (claimId sourceId : ℕ) : Decidable (v.ClaimShows claimId sourceId) :=
  inferInstanceAs (Decidable (∃ l ∈ v.links, _))

instance (v : LinkedRows) (findingId sourceId : ℕ) : Decidable (v.FindingShows findingId sourceId) :=
  inferInstanceAs (Decidable (∃ r ∈ v.rests, _))

/-- Claims that are current in `v'` keep the sources of their current evidence. -/
def SparesClaims (v v' : LinkedRows) : Prop :=
  ∀ l ∈ v.links, v'.claims[l.1]? = some true →
    ∀ e ∈ v.evidence[l.2]?, e.2 = true → v'.ClaimShows l.1 e.1

/-- Findings that are current in `v'` keep the sources of the current evidence of their current
    claims. -/
def SparesFindings (v v' : LinkedRows) : Prop :=
  ∀ r ∈ v.rests, v'.findings[r.1]? = some true → v.claims[r.2]? = some true →
    ∀ l ∈ v.links, l.1 = r.2 → ∀ e ∈ v.evidence[l.2]?, e.2 = true → v'.FindingShows r.1 e.1

instance (v v' : LinkedRows) : Decidable (v.SparesClaims v') :=
  inferInstanceAs (Decidable (∀ l ∈ v.links, _))

instance (v v' : LinkedRows) : Decidable (v.SparesFindings v') :=
  inferInstanceAs (Decidable (∀ r ∈ v.rests, _))

end LinkedRows

/-! ### The condition -/

/-- The supersession of what the stage rows generated takes no source from a claim or a finding that
    stays current. -/
def Spares (db : RecordDb) (runStageIds : List ℕ) : Prop :=
  let superseded := linkedRows
    (markGeneratedDomainEffectsNonCurrent runStageIds db.ledger.tables) db.findingClaims
  db.rows.SparesClaims superseded ∧ db.rows.SparesFindings superseded

instance (db : RecordDb) (runStageIds : List ℕ) : Decidable (Spares db runStageIds) :=
  inferInstanceAs (Decidable (_ ∧ _))

/-- Supersessions spare the sources of what stays current, and when a `linkClaimEvidence` commits,
    its claim and its evidence are still current. -/
def KeepsCurrent (db : RecordDb) : RecordAct → Prop
  | .ledger (.commitStage prior bundle _) => bundle.stage.supersedes = true → Spares db prior
  | .ledger (.restart runStageIds) => Spares db runStageIds
  | .ledger (.next k) => ∀ link ∈ db.ledger.links[k]?, link.phase.evidence.isSome = true →
      link.input.check db.ledger.tables = true
  | _ => True

instance (db : RecordDb) : (a : RecordAct) → Decidable (KeepsCurrent db a)
  | .ledger (.commitStage ..) => inferInstanceAs (Decidable (_ → _))
  | .ledger (.restart _) => inferInstanceAs (Decidable (Spares _ _))
  | .ledger (.next k) => inferInstanceAs (Decidable (∀ link ∈ db.ledger.links[k]?, _ → _))
  | .ledger (.addSource _) | .ledger (.addEvidence ..) | .ledger (.addClaim ..)
  | .ledger (.updateProjectScope ..) | .ledger (.setDocuments _) | .ledger (.link _)
  | .ledger (.abort _) | .addFinding .. => isTrue trivial

/-! ### Rows that are added -/

section

variable {α : Type*} {l l' : List α} {i : ℕ} {a : α}

theorem getElem?_mono (h : l <+: l') (ha : l[i]? = some a) : l'[i]? = some a := by
  obtain ⟨s, rfl⟩ := h
  exact getElem?_append_of_some ha

theorem getElem?_prefix_eq (h : l <+: l') (hi : i < l.length) : l'[i]? = l[i]? := by
  obtain ⟨s, rfl⟩ := h
  exact List.getElem?_append_left hi

end

namespace LinkedRows

variable {v v' v'' : LinkedRows}

/-- Rows and links are added: links of current claims with current evidence, and links of findings
    with current claims. -/
structure Extended (v v' : LinkedRows) : Prop where
  claims : v.claims <+: v'.claims
  evidence : v.evidence <+: v'.evidence
  findings : v.findings <+: v'.findings
  links : v.links ⊆ v'.links
  rests : v.rests ⊆ v'.rests
  newLinks : ∀ l ∈ v'.links, l ∈ v.links ∨
    v'.claims[l.1]? = some true ∧ ∃ sourceId, v'.evidence[l.2]? = some (sourceId, true)
  newRests : ∀ r ∈ v'.rests, r ∈ v.rests ∨
    r.1 < v'.findings.length ∧ v'.claims[r.2]? = some true

theorem Extended.refl (v : LinkedRows) : Extended v v where
  claims := List.prefix_refl _
  evidence := List.prefix_refl _
  findings := List.prefix_refl _
  links := List.Subset.refl _
  rests := List.Subset.refl _
  newLinks := fun _ => .inl
  newRests := fun _ => .inl

theorem Extended.trans (h : Extended v v') (h' : Extended v' v'') : Extended v v'' where
  claims := h.claims.trans h'.claims
  evidence := h.evidence.trans h'.evidence
  findings := h.findings.trans h'.findings
  links := List.Subset.trans h.links h'.links
  rests := List.Subset.trans h.rests h'.rests
  newLinks := by
    intro l hl
    rcases h'.newLinks l hl with hl | hnew
    · rcases h.newLinks l hl with hl | ⟨hclaim, sourceId, hevidence⟩
      · exact .inl hl
      · exact .inr ⟨getElem?_mono h'.claims hclaim, sourceId,
          getElem?_mono h'.evidence hevidence⟩
    · exact .inr hnew
  newRests := by
    intro r hr
    rcases h'.newRests r hr with hr | hnew
    · rcases h.newRests r hr with hr | ⟨hfinding, hclaim⟩
      · exact .inl hr
      · exact .inr ⟨hfinding.trans_le h'.findings.length_le, getElem?_mono h'.claims hclaim⟩
    · exact .inr hnew

/-! ### The invariant -/

/-- The evidence behind the claims. -/
def claimBacking (v : LinkedRows) : Backing ℕ ℕ ℕ where
  current := {i | v.claims[i]? = some true}
  behind i := {e | (i, e) ∈ v.links}
  behindNow i := {e | (i, e) ∈ v.links ∧ ∃ sourceId, v.evidence[e]? = some (sourceId, true)}
  labels e := {sourceId | ∃ now, v.evidence[e]? = some (sourceId, now)}

/-- The evidence behind the findings. -/
def findingBacking (v : LinkedRows) : Backing ℕ ℕ ℕ where
  current := {f | v.findings[f]? = some true}
  behind f := {e | ∃ i, (f, i) ∈ v.rests ∧ e ∈ v.claimBacking.behind i}
  behindNow f := {e | ∃ i, (f, i) ∈ v.rests ∧ i ∈ v.claimBacking.current ∧
    e ∈ v.claimBacking.behindNow i}
  labels := v.claimBacking.labels

/-- Current claims and findings show the sources of all evidence behind them, and links are of rows
    that are there. -/
structure Ok (v : LinkedRows) : Prop where
  claims : v.claimBacking.Backed
  findings : v.findingBacking.Backed
  links : ∀ l ∈ v.links, l.1 < v.claims.length ∧ l.2 < v.evidence.length
  rests : ∀ r ∈ v.rests, r.1 < v.findings.length ∧ r.2 < v.claims.length

theorem claimBacking_shows {i s : ℕ} : v.claimBacking.Shows i s ↔ v.ClaimShows i s := by
  constructor
  · rintro ⟨e, ⟨hlink, s', he⟩, now, hs⟩
    rw [he, Option.some.injEq, Prod.mk.injEq] at hs
    exact ⟨(i, e), hlink, rfl, hs.1 ▸ he⟩
  · rintro ⟨⟨_, e⟩, hlink, rfl, he⟩
    exact ⟨e, ⟨hlink, s, he⟩, true, he⟩

theorem findingBacking_shows {f s : ℕ} : v.findingBacking.Shows f s ↔ v.FindingShows f s := by
  constructor
  · rintro ⟨e, ⟨i, hrest, hclaim, hnow⟩, hlabel⟩
    exact ⟨(f, i), hrest, rfl, hclaim, claimBacking_shows.mp ⟨e, hnow, hlabel⟩⟩
  · rintro ⟨⟨_, i⟩, hrest, rfl, hclaim, hshows⟩
    rcases claimBacking_shows.mpr hshows with ⟨e, hnow, hlabel⟩
    exact ⟨e, ⟨i, hrest, hclaim, hnow⟩, hlabel⟩

theorem Extended.behindNow (hg : Extended v v') (i : ℕ) :
    v.claimBacking.behindNow i ⊆ v'.claimBacking.behindNow i := by
  rintro e ⟨hlink, s, he⟩
  exact ⟨hg.links hlink, s, getElem?_mono hg.evidence he⟩

theorem Extended.labels (hg : Extended v v') (e : ℕ) :
    v.claimBacking.labels e ⊆ v'.claimBacking.labels e := by
  rintro s ⟨now, he⟩
  exact ⟨now, getElem?_mono hg.evidence he⟩

/-- A link of the new rows is an old one, of evidence with its old source, or shows its source. -/
theorem Extended.link_cases (hg : Extended v v') (h : v.Ok) {i e s : ℕ} (hlink : (i, e) ∈ v'.links)
    (hlabel : s ∈ v'.claimBacking.labels e) :
    (i, e) ∈ v.links ∧ s ∈ v.claimBacking.labels e ∨
      v'.claims[i]? = some true ∧ e ∈ v'.claimBacking.behindNow i := by
  rcases hg.newLinks _ hlink with hold | ⟨hclaim, hevidence⟩
  · refine .inl ⟨hold, ?_⟩
    rcases hlabel with ⟨now, he⟩
    rw [getElem?_prefix_eq hg.evidence (h.links _ hold).2] at he
    exact ⟨now, he⟩
  · exact .inr ⟨hclaim, hlink, hevidence⟩

/-- **Rows that are added** keep the invariant. -/
theorem Ok.extend (h : v.Ok) (hg : Extended v v') : v'.Ok := by
  have hclaims : v'.claimBacking.Backed := by
    refine h.claims.grow hg.behindNow hg.labels fun i hi e he s hs => ?_
    rcases hg.link_cases h he hs with ⟨hold, hlabel⟩ | ⟨_, hnow⟩
    · refine .inl ⟨?_, hold, hlabel⟩
      show v.claims[i]? = some true
      rw [← getElem?_prefix_eq hg.claims (h.links _ hold).1]
      exact hi
    · exact .inr ⟨e, hnow, hs⟩
  refine ⟨hclaims, ?_, fun l hl => ?_, fun r hr => ?_⟩
  · refine h.findings.grow (fun f e he => ?_) hg.labels fun f hf e he s hs => ?_
    · rcases he with ⟨i, hrest, hclaim, hnow⟩
      exact ⟨i, hg.rests hrest, getElem?_mono hg.claims hclaim, hg.behindNow i hnow⟩
    · rcases he with ⟨i, hrest, hlink⟩
      -- a new link of a finding is with a current claim, whose sources are shown
      rcases hg.newRests _ hrest with hold | ⟨_, hclaim⟩
      · rcases hg.link_cases h hlink hs with ⟨hlink, hlabel⟩ | ⟨hclaim, hnow⟩
        · refine .inl ⟨?_, ⟨i, hold, hlink⟩, hlabel⟩
          show v.findings[f]? = some true
          rw [← getElem?_prefix_eq hg.findings (h.rests _ hold).1]
          exact hf
        · exact .inr ⟨e, ⟨i, hrest, hclaim, hnow⟩, hs⟩
      · rcases hclaims i hclaim e hlink s hs with ⟨e', hnow, hlabel⟩
        exact .inr ⟨e', ⟨i, hrest, hclaim, hnow⟩, hlabel⟩
  · rcases hg.newLinks l hl with hold | ⟨hclaim, s, he⟩
    · exact ⟨(h.links l hold).1.trans_le hg.claims.length_le,
        (h.links l hold).2.trans_le hg.evidence.length_le⟩
    · exact ⟨(List.getElem?_eq_some_iff.mp hclaim).1, (List.getElem?_eq_some_iff.mp he).1⟩
  · rcases hg.newRests r hr with hold | ⟨hfinding, hclaim⟩
    · exact ⟨(h.rests r hold).1.trans_le hg.findings.length_le,
        (h.rests r hold).2.trans_le hg.claims.length_le⟩
    · exact ⟨hfinding, (List.getElem?_eq_some_iff.mp hclaim).1⟩

/-! ### Supersession -/

/-- `v'` is `v` after some rows were superseded. -/
structure Superseded (v v' : LinkedRows) : Prop where
  claims : ∀ i : ℕ, v'.claims[i]? = some true → v.claims[i]? = some true
  findings : ∀ f : ℕ, v'.findings[f]? = some true → v.findings[f]? = some true
  sources : v'.evidence.map (·.1) = v.evidence.map (·.1)
  claimCount : v'.claims.length = v.claims.length
  findingCount : v'.findings.length = v.findings.length
  links : v'.links = v.links
  rests : v'.rests = v.rests

theorem mem_labels {e s : ℕ} : s ∈ v.claimBacking.labels e ↔ (v.evidence.map (·.1))[e]? = some s := by
  rw [List.getElem?_map, Option.map_eq_some_iff]
  constructor
  · rintro ⟨now, he⟩
    exact ⟨(s, now), he, rfl⟩
  · rintro ⟨⟨_, now⟩, he, rfl⟩
    exact ⟨now, he⟩

theorem Superseded.labels (hs : Superseded v v') : v'.claimBacking.labels = v.claimBacking.labels := by
  funext e
  ext s
  rw [mem_labels, mem_labels, hs.sources]

/-- **A supersession** that spares the sources of what stays current keeps the invariant. -/
theorem Ok.supersede (h : v.Ok) (hs : Superseded v v') (hclaims : v.SparesClaims v')
    (hfindings : v.SparesFindings v') : v'.Ok := by
  have hlabels := hs.labels
  have hofClaims : Backing.Supersedes v.claimBacking v'.claimBacking := by
    refine ⟨fun i hi => hs.claims i hi, ?_, hlabels, fun _ _ => And.left⟩
    funext i
    show {e | (i, e) ∈ v'.links} = {e | (i, e) ∈ v.links}
    rw [hs.links]
  have hofFindings : Backing.Supersedes v.findingBacking v'.findingBacking := by
    refine ⟨fun f hf => hs.findings f hf, ?_, hlabels, ?_⟩
    · funext f
      show {e | ∃ i, (f, i) ∈ v'.rests ∧ (i, e) ∈ v'.links} =
        {e | ∃ i, (f, i) ∈ v.rests ∧ (i, e) ∈ v.links}
      rw [hs.links, hs.rests]
    · rintro f e ⟨i, hrest, _, hnow⟩
      exact ⟨i, hrest, hnow.1⟩
  refine ⟨?_, ?_, ?_, ?_⟩
  · refine (Backing.backed_iff_spares h.claims hofClaims).mpr fun i hi s hshows => ?_
    rcases claimBacking_shows.mp hshows with ⟨⟨_, e⟩, hlink, rfl, he⟩
    exact claimBacking_shows.mpr (hclaims _ hlink hi (s, true) he rfl)
  · refine (Backing.backed_iff_spares h.findings hofFindings).mpr fun f hf s hshows => ?_
    rcases findingBacking_shows.mp hshows with ⟨⟨_, i⟩, hrest, rfl, hclaim, ⟨_, e⟩, hlink, rfl, he⟩
    exact findingBacking_shows.mpr (hfindings _ hrest hf hclaim _ hlink rfl (s, true) he rfl)
  · have hcount := congrArg List.length hs.sources
    rw [List.length_map, List.length_map] at hcount
    rw [hs.links, hs.claimCount, hcount]
    exact h.links
  · rw [hs.rests, hs.claimCount, hs.findingCount]
    exact h.rests

end LinkedRows

/-! ### What the services do -/

section

variable {t t' : ResearchTables} {rests : List FindingClaimRow} {db : RecordDb}

open LinkedRows

/-- A row that is current after an update that takes currentness away was so before. -/
theorem current_of_updateWhere {α : Type*} {isCurrent : α → Bool} {p : ℕ → α → Bool} {f : α → α}
    {rows : List α} {i : ℕ} (hf : ∀ a, isCurrent (f a) = false)
    (h : ((updateWhere p f rows).map isCurrent)[i]? = some true) :
    (rows.map isCurrent)[i]? = some true := by
  rw [List.getElem?_map, getElem?_updateWhere] at h
  rw [List.getElem?_map]
  cases hrow : rows[i]? with
  | none =>
    rw [hrow] at h
    cases h
  | some a =>
    rw [hrow, Option.map_some, Option.map_some, Option.some.injEq] at h
    split at h
    · rw [hf] at h
      cases h
    · rw [Option.map_some, h]

theorem superseded_mark (runStageIds : List ℕ) (t : ResearchTables) (rests : List FindingClaimRow) :
    Superseded (linkedRows t rests)
      (linkedRows (markGeneratedDomainEffectsNonCurrent runStageIds t) rests) where
  claims := fun _ h => current_of_updateWhere (fun _ => rfl) h
  findings := fun _ h => current_of_updateWhere (fun _ => rfl) h
  sources := by
    show List.map _ (List.map _ (updateWhere _ _ _)) = List.map _ (List.map _ _)
    rw [List.map_map, List.map_map]
    exact map_updateWhere_same fun _ => rfl
  claimCount := by
    show (List.map _ (updateWhere _ _ _)).length = (List.map _ _).length
    rw [List.length_map, List.length_map, length_updateWhere]
  findingCount := by
    show (List.map _ (updateWhere _ _ _)).length = (List.map _ _).length
    rw [List.length_map, List.length_map, length_updateWhere]
  links := rfl
  rests := rfl

/-- Rows are added, and no links. -/
theorem extended_rows (hclaims : t.claims.map (·.isCurrent) <+: t'.claims.map (·.isCurrent))
    (hevidence : t.evidence.map (fun e => (e.sourceId, e.isCurrent)) <+:
      t'.evidence.map fun e => (e.sourceId, e.isCurrent))
    (hfindings : t'.findings = t.findings) (hlinks : t'.claimEvidence = t.claimEvidence) :
    Extended (linkedRows t rests) (linkedRows t' rests) where
  claims := hclaims
  evidence := hevidence
  findings := by
    show t.findings.map _ <+: t'.findings.map _
    rw [hfindings]
  links := by
    show t.claimEvidence.map _ ⊆ t'.claimEvidence.map _
    rw [hlinks]
    exact List.Subset.refl _
  rests := List.Subset.refl _
  newLinks := by
    intro l hl
    refine .inl ?_
    show l ∈ t.claimEvidence.map _
    rw [← hlinks]
    exact hl
  newRests := fun _ => .inl

theorem extended_evidence (t : ResearchTables) (evidence : List EvidenceRow) :
    Extended (linkedRows t rests) (linkedRows { t with evidence := t.evidence ++ evidence } rests) := by
  refine extended_rows (List.prefix_refl _) ?_ rfl rfl
  rw [List.map_append]
  exact List.prefix_append _ _

theorem extended_addClaim (t : ResearchTables) (projectId : ℕ) (verificationPossible : Bool) :
    Extended (linkedRows t rests) (linkedRows (addClaim t projectId verificationPossible) rests) := by
  refine extended_rows ?_ (List.prefix_refl _) rfl rfl
  show t.claims.map _ <+: (t.claims ++ _).map _
  rw [List.map_append]
  exact List.prefix_append _ _

theorem linkedRows_refreshClaimSupport (t : ResearchTables) (claimId : ℕ) :
    linkedRows (refreshClaimSupport t claimId) rests = linkedRows t rests := by
  have hclaims : (t.claims.modify claimId (·.setSupport (calculateClaimSupportStatus
      (claimAssessments t claimId) (verificationPossible t claimId)))).map (·.isCurrent) =
      t.claims.map (·.isCurrent) := map_modify_same fun _ => rfl
  unfold linkedRows refreshClaimSupport
  rw [hclaims]

theorem linkedRows_updateProjectScope (t : ResearchTables) (projectId : ℕ)
    (freshness : ℕ → SourceFreshnessStatus) :
    linkedRows (updateProjectScope t projectId freshness) rests = linkedRows t rests :=
  List.foldlRecOn (motive := fun t₁ => linkedRows t₁ rests = linkedRows t rests) _ _ rfl
    fun t₁ h claimId _ => (linkedRows_refreshClaimSupport t₁ claimId).trans h

/-- A generated claim is linked with current evidence only. -/
theorem extended_commitClaim (bundle : StageBundle) (t : ResearchTables) (claim : GeneratedClaim) :
    Extended (linkedRows t rests) (linkedRows (commitClaim bundle t claim) rests) where
  claims := by
    show t.claims.map _ <+: (t.claims ++ _).map _
    rw [List.map_append]
    exact List.prefix_append _ _
  evidence := List.prefix_refl _
  findings := List.prefix_refl _
  links := by
    show t.claimEvidence.map _ ⊆ (t.claimEvidence ++ _).map _
    rw [List.map_append]
    exact List.subset_append_left _ _
  rests := List.Subset.refl _
  newLinks := by
    intro l hl
    replace hl : l ∈ (t.claimEvidence ++ (evidenceOfSources bundle.projectId claim.sourceIds t).map
      fun i => (⟨t.claims.length, i, .supports⟩ : ClaimEvidenceRow)).map
      fun ce => (ce.claimId, ce.evidenceId) := hl
    rw [List.map_append, List.mem_append] at hl
    rcases hl with hold | hnew
    · exact .inl hold
    · rw [List.map_map, List.mem_map] at hnew
      rcases hnew with ⟨i, hi, rfl⟩
      rcases mem_evidenceOfSources.mp hi with ⟨e, _, he, _, _, hcurrent, _⟩
      refine .inr ⟨?_, e.sourceId, ?_⟩
      · show ((t.claims ++ [_]).map _)[t.claims.length]? = some true
        rw [List.getElem?_map, getElem?_concat_length]
        rfl
      · show (t.evidence.map _)[i]? = some (e.sourceId, true)
        rw [List.getElem?_map, he, Option.map_some, hcurrent]
  newRests := fun _ => .inl

/-- What a stage inserts. -/
theorem extended_commitStageOutput {bundle : StageBundle} {output : StageDocument}
    (h : commitStageOutput bundle output t = .ok t') :
    Extended (linkedRows t rests) (linkedRows t' rests) := by
  unfold commitStageOutput at h
  split at h
  · refine foldlM_eq_ok (P := fun t₁ => Extended (linkedRows t rests) (linkedRows t₁ rests)) h
      (.refl _) fun evidence _ t₁ t₂ h₁ h₂ => ?_
    simp only [bind_eq_ok, pure_eq_ok] at h₂
    rcases h₂ with ⟨_, _, rfl⟩
    exact h₁.trans (extended_evidence t₁ _)
  · obtain rfl := pure_eq_ok.mp h
    exact List.foldlRecOn
      (motive := fun t₁ => Extended (linkedRows t rests) (linkedRows t₁ rests)) _ _ (.refl _)
      fun _ h₁ _ _ => h₁
  · obtain rfl := pure_eq_ok.mp h
    exact .refl _
  · obtain rfl := pure_eq_ok.mp h
    exact List.foldlRecOn
      (motive := fun t₁ => Extended (linkedRows t rests) (linkedRows t₁ rests)) _ _ (.refl _)
      fun t₁ h₁ claim _ => h₁.trans (extended_commitClaim bundle t₁ claim)
  · obtain rfl := pure_eq_ok.mp h
    exact .refl _
  · obtain rfl := pure_eq_ok.mp h
    exact .refl _

/-- The pairs that are linked after an upsert. -/
theorem upsert_pairs (input : LinkInput) (links : List ClaimEvidenceRow) :
    (input.upsert links).map (fun ce => (ce.claimId, ce.evidenceId)) =
        links.map (fun ce => (ce.claimId, ce.evidenceId)) ∨
      (input.upsert links).map (fun ce => (ce.claimId, ce.evidenceId)) =
        links.map (fun ce => (ce.claimId, ce.evidenceId)) ++ [(input.claimId, input.evidenceId)] := by
  unfold LinkInput.upsert
  dsimp only
  split
  · exact .inl (map_updateWhere_same fun _ => rfl)
  · exact .inr List.map_append

/-- A link whose claim and evidence are still current. -/
theorem extended_link {input : LinkInput} (evidence : List ClaimEvidenceAssessment)
    (hcheck : input.check t = true) :
    Extended (linkedRows t rests) (linkedRows (input.commit evidence t) rests) := by
  have hclaims : (input.commit evidence t).claims.map (·.isCurrent) =
      t.claims.map (·.isCurrent) := map_modify_same fun _ => rfl
  simp only [LinkInput.check, Bool.decide_and, Bool.and_eq_true, decide_eq_true_eq,
    Option.any_eq_true] at hcheck
  rcases hcheck with ⟨⟨c, hc, _, hclaim⟩, e, he, hcurrent, _⟩
  refine ⟨?_, List.prefix_refl _, List.prefix_refl _, ?_, List.Subset.refl _, ?_, fun _ => .inl⟩
  · show t.claims.map _ <+: (input.commit evidence t).claims.map _
    rw [hclaims]
  · show t.claimEvidence.map _ ⊆ (input.upsert t.claimEvidence).map _
    rcases upsert_pairs input t.claimEvidence with heq | heq
    · rw [heq]
      exact List.Subset.refl _
    · rw [heq]
      exact List.subset_append_left _ _
  · intro l hl
    replace hl : l ∈ (input.upsert t.claimEvidence).map fun ce => (ce.claimId, ce.evidenceId) := hl
    rcases upsert_pairs input t.claimEvidence with heq | heq
    · rw [heq] at hl
      exact .inl hl
    · rw [heq, List.mem_append, List.mem_singleton] at hl
      rcases hl with hold | rfl
      · exact .inl hold
      · refine .inr ⟨?_, e.sourceId, ?_⟩
        · show ((input.commit evidence t).claims.map _)[input.claimId]? = some true
          rw [hclaims, List.getElem?_map, hc, Option.map_some, hclaim]
        · show (t.evidence.map _)[input.evidenceId]? = some (e.sourceId, true)
          rw [List.getElem?_map, he, Option.map_some, hcurrent]

/-- A finding is linked with current claims only. -/
theorem extended_addFinding {db' : RecordDb} {projectId : ℕ} {questionId : Option ℕ}
    {claimIds : List ℕ} (h : addFinding db projectId questionId claimIds = .ok db') :
    Extended db.rows db'.rows := by
  simp only [addFinding, bind_eq_ok, pure_eq_ok] at h
  rcases h with ⟨_, _, links, hlinks, rfl⟩
  have hall : db.findingClaims ⊆ links ∧ ∀ fc ∈ links, fc ∈ db.findingClaims ∨
      fc.findingId = db.ledger.tables.findings.length ∧
        ∃ c, db.ledger.tables.claims[fc.claimId]? = some c ∧ c.isCurrent = true := by
    refine foldlM_eq_ok (P := fun links : List FindingClaimRow => db.findingClaims ⊆ links ∧
      ∀ fc ∈ links, fc ∈ db.findingClaims ∨ fc.findingId = db.ledger.tables.findings.length ∧
        ∃ c, db.ledger.tables.claims[fc.claimId]? = some c ∧ c.isCurrent = true) hlinks
      ⟨List.Subset.refl _, fun _ => .inl⟩ fun claimId _ links₁ links₂ h₁ h₂ => ?_
    simp only [linkFinding, bind_eq_ok, ensure_eq_ok, pure_eq_ok, Option.any_eq_true,
      decide_eq_true_eq] at h₂
    rcases h₂ with ⟨_, ⟨⟨c, hc, _, hcurrent⟩, _⟩, rfl⟩
    refine ⟨List.subset_append_of_subset_left _ h₁.1, fun fc hfc => ?_⟩
    rcases List.mem_append.mp hfc with hold | hnew
    · exact h₁.2 fc hold
    · rw [List.mem_singleton.mp hnew]
      exact .inr ⟨rfl, c, hc, hcurrent⟩
  refine ⟨List.prefix_refl _, List.prefix_refl _, ?_, List.Subset.refl _, List.map_subset _ hall.1,
    fun _ => .inl, fun r hr => ?_⟩
  · show db.ledger.tables.findings.map _ <+: (db.ledger.tables.findings ++ _).map _
    rw [List.map_append]
    exact List.prefix_append _ _
  · rcases List.mem_map.mp hr with ⟨fc, hfc, rfl⟩
    rcases hall.2 fc hfc with hold | ⟨hfinding, c, hc, hcurrent⟩
    · exact .inl (List.mem_map.mpr ⟨fc, hold, rfl⟩)
    · refine .inr ⟨?_, ?_⟩
      · show fc.findingId < ((db.ledger.tables.findings ++ [_]).map _).length
        rw [hfinding, List.length_map, List.length_append, List.length_singleton]
        omega
      · show (db.ledger.tables.claims.map _)[fc.claimId]? = some true
        rw [List.getElem?_map, hc, Option.map_some, hcurrent]

end

/-! ### The step lemma -/

section

variable {db : RecordDb} {t : ResearchTables} {rests : List FindingClaimRow}

open LinkedRows

/-- A supersession that spares sources. -/
theorem Spares.ok {runStageIds : List ℕ} (h : Spares db runStageIds) (hok : db.rows.Ok) :
    (linkedRows (markGeneratedDomainEffectsNonCurrent runStageIds db.ledger.tables)
      db.findingClaims).Ok :=
  hok.supersede (superseded_mark _ _ _) h.1 h.2

/-- A service that runs alone. -/
theorem transact_ok {result : Except ServiceError ResearchTables} (hok : db.rows.Ok)
    (hresult : ∀ t', result = .ok t' → (linkedRows t' db.findingClaims).Ok) :
    ({ db with ledger := db.ledger.transact result } : RecordDb).rows.Ok := by
  unfold LedgerSys.transact
  split
  · exact hresult _ rfl
  · exact hok

/-- The commit of a stage. -/
theorem commitDomainEffects_ok {prior : List ℕ} {bundle : StageBundle} {output : StageDocument}
    {t' : ResearchTables} (hok : db.rows.Ok) (hspares : bundle.stage.supersedes = true → Spares db prior)
    (h : commitDomainEffects prior bundle output db.ledger.tables = .ok t') :
    (linkedRows t' db.findingClaims).Ok := by
  simp only [commitDomainEffects, bind_eq_ok] at h
  rcases h with ⟨_, _, hcommit⟩
  split at hcommit
  · rename_i hstage
    exact ((hspares hstage).ok hok).extend (extended_commitStageOutput hcommit)
  · exact hok.extend (extended_commitStageOutput hcommit)

/-- **Step lemma.**  Every step that meets the condition keeps the invariant. -/
theorem RecordDb.step_ok (hok : db.rows.Ok) (a : RecordAct) (ha : KeepsCurrent db a) :
    (db.step a).rows.Ok := by
  cases a with
  | addFinding projectId questionId claimIds =>
    simp only [RecordDb.step]
    split
    · exact hok.extend (extended_addFinding ‹_›)
    · exact hok
  | ledger a =>
    cases a with
    | addSource source => exact hok
    | setDocuments documents => exact hok
    | addEvidence sourceId verificationStatus supportExtent =>
      refine transact_ok hok fun t' ht => ?_
      simp only [addEvidence, bind_eq_ok, pure_eq_ok] at ht
      rcases ht with ⟨_, _, rfl⟩
      exact hok.extend (extended_evidence _ _)
    | addClaim projectId verificationPossible => exact hok.extend (extended_addClaim _ _ _)
    | updateProjectScope projectId freshness =>
      show (linkedRows (updateProjectScope _ _ _) _).Ok
      rw [linkedRows_updateProjectScope]
      exact hok
    | commitStage prior bundle output =>
      exact transact_ok hok fun t' ht => commitDomainEffects_ok hok ha ht
    | restart runStageIds => exact ha.ok hok
    | link input =>
      simp only [RecordDb.step, LedgerSys.step]
      split <;> exact hok
    | next k =>
      simp only [RecordDb.step, LedgerSys.step]
      split
      · rename_i link hrow
        unfold LedgerSys.next
        split
        · split <;> exact hok
        · exact hok
        · rename_i evidence hphase
          have hcheck := ha link hrow (by rw [hphase]; rfl)
          exact hok.extend (extended_link evidence hcheck)
        · exact hok
      · exact hok
    | abort k =>
      simp only [RecordDb.step, LedgerSys.step]
      split
      · split <;> exact hok
      · exact hok

end

/-! ### Sources of the rows -/

section

variable {texts : RowTexts} {db : RecordDb} {projectId : ℕ} {sourceId : Text}

/-- The ids of sources have no white space. -/
theorem trimText_sourceId (id : SourceId) : trimText id.text = id.text := by
  have hnot : ∀ c ∈ id.text, isSpaceUnit c = false := by
    intro c hc
    have hunit := id.units c hc
    simp only [isIdUnit, Bool.or_eq_true, Bool.and_eq_true, decide_eq_true_eq] at hunit
    simp only [isSpaceUnit, Bool.or_eq_false_iff, Bool.and_eq_false_iff, decide_eq_false_iff_not]
    omega
  have hdrop : ∀ l : Text, (∀ c ∈ l, isSpaceUnit c = false) → l.dropWhile isSpaceUnit = l := by
    intro l hl
    cases l with
    | nil => rfl
    | cons c l => exact List.dropWhile_cons_of_neg (by rw [hl c List.mem_cons_self]; decide)
  rw [trimText, hdrop _ hnot, hdrop _ fun c hc => hnot c (List.mem_reverse.mp hc),
    List.reverse_reverse]

theorem mem_arrayAgg {ids : List ℕ} (h : sourceId ∈ (arrayAgg texts ids).getD []) :
    ∃ id ∈ ids, (texts.sourceId id).text = sourceId := by
  unfold arrayAgg at h
  split at h
  · cases h
  · rw [Option.getD_some, List.mem_mergeSort, mem_firsts, List.mem_map] at h
    exact h

/-- A source that a claim is joined with is behind it. -/
theorem exists_of_mem_sourcesOfClaim {claimId s : ℕ}
    (h : s ∈ sourcesOfClaim projectId db.ledger.tables claimId) :
    ∃ e ∈ db.rows.claimBacking.behind claimId, s ∈ db.rows.claimBacking.labels e := by
  rcases List.mem_filterMap.mp h with ⟨ce, hce, hsource⟩
  rcases List.mem_filter.mp hce with ⟨hmem, hclaim⟩
  simp only [sourceOfLink, bind, Option.bind_eq_some_iff] at hsource
  rcases hsource with ⟨e, he, row, _, hrow⟩
  split at hrow
  · refine ⟨ce.evidenceId, List.mem_map.mpr ⟨ce, hmem, ?_⟩, e.isCurrent, ?_⟩
    · rw [of_decide_eq_true hclaim]
    · show (db.ledger.tables.evidence.map _)[ce.evidenceId]? = some (s, e.isCurrent)
      rw [List.getElem?_map, he, Option.map_some, Option.some.inj hrow]
  · cases hrow

theorem mem_currentClaims {claimId : ℕ} (h : claimId ∈ currentClaims texts db projectId) :
    claimId ∈ db.rows.claimBacking.current := by
  rw [currentClaims, List.mem_mergeSort, mem_idsWhere] at h
  rcases h with ⟨c, hc, hcurrent⟩
  show (db.ledger.tables.claims.map _)[claimId]? = some true
  rw [List.getElem?_map, hc, Option.map_some, (of_decide_eq_true hcurrent).2]

theorem mem_currentFindings {findingId : ℕ} (h : findingId ∈ currentFindings texts db projectId) :
    findingId ∈ db.rows.findingBacking.current := by
  rw [currentFindings, List.mem_mergeSort, mem_idsWhere] at h
  rcases h with ⟨f, hf, hcurrent⟩
  show (db.ledger.tables.findings.map _)[findingId]? = some true
  rw [List.getElem?_map, hf, Option.map_some, (of_decide_eq_true hcurrent).2]

/-- What a current claim shows, it rests on. -/
theorem claimRests_of_shows {claimId s : ℕ} (hclaim : db.rows.claims[claimId]? = some true)
    (h : db.rows.ClaimShows claimId s) :
    ClaimRests texts db.ledger.tables claimId (texts.sourceId s).text := by
  rcases h with ⟨l, hl, rfl, he⟩
  rcases List.mem_map.mp hl with ⟨ce, hce, rfl⟩
  have hclaims : (db.ledger.tables.claims.map (·.isCurrent))[ce.claimId]? = some true := hclaim
  have hevidence : (db.ledger.tables.evidence.map fun e => (e.sourceId, e.isCurrent))[ce.evidenceId]? =
      some (s, true) := he
  rw [List.getElem?_map, Option.map_eq_some_iff] at hclaims hevidence
  rcases hclaims with ⟨c, hc, hcurrent⟩
  rcases hevidence with ⟨e, he, heq⟩
  rw [Prod.mk.injEq] at heq
  exact ⟨⟨c, hc, hcurrent⟩, ce, hce, rfl, e, he, heq.2, by rw [heq.1]⟩

/-- The sources of a row, before the allowlist. -/
def CitedRow.sourceIds (texts : RowTexts) (db : RecordDb) (projectId : ℕ) :
    CitedRow → Option (List Text)
  | .claim claimId => (domainClaim texts db projectId claimId).sourceIds
  | .finding findingId => (domainFinding texts db projectId findingId).sourceIds

/-- The row is of the project, and current. -/
def CitedRow.IsCurrent (texts : RowTexts) (db : RecordDb) (projectId : ℕ) : CitedRow → Prop
  | .claim claimId => claimId ∈ currentClaims texts db projectId
  | .finding findingId => findingId ∈ currentFindings texts db projectId

/-- **A current row** rests on all sources that it is joined with. -/
theorem restsOn_of_mem (hok : db.rows.Ok) {row : CitedRow} (hrow : row.IsCurrent texts db projectId)
    (h : sourceId ∈ (row.sourceIds texts db projectId).getD []) :
    row.RestsOn texts db sourceId ∧ trimText sourceId = sourceId := by
  cases row with
  | claim claimId =>
    rcases mem_arrayAgg h with ⟨s, hs, rfl⟩
    rcases exists_of_mem_sourcesOfClaim hs with ⟨e, he, hlabel⟩
    have hclaim := mem_currentClaims hrow
    have hshows := LinkedRows.claimBacking_shows.mp (hok.claims claimId hclaim e he s hlabel)
    exact ⟨claimRests_of_shows hclaim hshows, trimText_sourceId _⟩
  | finding findingId =>
    rcases mem_arrayAgg h with ⟨s, hs, rfl⟩
    rcases List.mem_flatMap.mp hs with ⟨fc, hfc, hs⟩
    rcases List.mem_filter.mp hfc with ⟨hmem, hfinding⟩
    rcases exists_of_mem_sourcesOfClaim hs with ⟨e, he, hlabel⟩
    have hbehind : e ∈ db.rows.findingBacking.behind findingId :=
      ⟨fc.claimId, List.mem_map.mpr ⟨fc, hmem, by rw [of_decide_eq_true hfinding]⟩, he⟩
    rcases LinkedRows.findingBacking_shows.mp
      (hok.findings findingId (mem_currentFindings hrow) e hbehind s hlabel) with
      ⟨r, hr, rfl, hclaim, hshows⟩
    rcases List.mem_map.mp hr with ⟨fc', hfc', rfl⟩
    exact ⟨⟨fc', hfc', rfl, claimRests_of_shows hclaim hshows⟩, trimText_sourceId _⟩

theorem isCurrent_of_mem {stage : AIStage} {row : CitedRow}
    (h : row ∈ citedRows texts db projectId stage) : row.IsCurrent texts db projectId := by
  have hclaims : row ∈ (currentClaims texts db projectId).map .claim →
      row.IsCurrent texts db projectId := by
    intro hmem
    rcases List.mem_map.mp hmem with ⟨_, hclaim, rfl⟩
    exact hclaim
  have hfindings : row ∈ (currentFindings texts db projectId).map .finding →
      row.IsCurrent texts db projectId := by
    intro hmem
    rcases List.mem_map.mp hmem with ⟨_, hfinding, rfl⟩
    exact hfinding
  cases stage with
  | conflictDetection => exact hclaims h
  | draftGeneration => exact hclaims h
  | reportOutline =>
    simp only [citedRows] at h
    split at h
    · exact hfindings h
    · exact hclaims h
  | _ => cases h

end

/-! ### Stage inputs -/

section

variable {texts : RowTexts} {db : RecordDb} {projectId : ℕ} {rows : List EligibleRow}
  {run : Contracts.ResearchOrchestrationBundle} {stage : AIStage} {input : StageInput}

/-- What the elements of a parsed array have of the elements that they are parsed from. -/
theorem map_of_array_eq_ok {α β γ : Type} {schema : Schema α β} {f : α → γ} {g : β → γ} {l : List α}
    {l' : List β} (hf : ∀ a b, schema a = .ok b → g b = f a) (h : Schema.array schema l = .ok l') :
    l'.map g = l.map f := by
  have hall := Schema.array_eq_ok.mp h
  clear h
  induction hall with
  | nil => rfl
  | cons hab _ ih => rw [List.map_cons, List.map_cons, hf _ _ hab, ih]

theorem citedTextSchema_sourceIds {x y : CitedText} (h : citedTextSchema x = .ok y) :
    y.sourceIds = x.sourceIds.map trimText := by
  simp only [citedTextSchema, bind_eq_ok, pure_eq_ok] at h
  rcases h with ⟨_, _, _, hids, rfl⟩
  exact (sourceIds_eq_ok hids).1

theorem citedStatementSchema_sourceIds {x y : CitedStatement} (h : citedStatementSchema x = .ok y) :
    y.sourceIds = x.sourceIds.map trimText := by
  simp only [citedStatementSchema, bind_eq_ok, pure_eq_ok] at h
  rcases h with ⟨_, _, _, _, _, hids, rfl⟩
  exact (sourceIds_eq_ok hids).1

/-- The schemas only trim the ids of the sources. -/
theorem citedSources_of_parse {parsed : StageInput} (h : aiStageInputSchemas stage input = .ok parsed) :
    citedSources parsed = (citedSources input).map (·.map trimText) := by
  unfold aiStageInputSchemas at h
  split at h
  case h_8 =>
    simp only [bind_eq_ok, pure_eq_ok, Schema.andThen_eq_ok, Schema.atMost_eq_ok] at h
    rcases h with ⟨claims, ⟨_, hclaims, _, rfl⟩, _, _, rfl⟩
    show _ = List.map _ (List.map _ _)
    rw [List.map_map]
    exact map_of_array_eq_ok (fun _ _ => citedTextSchema_sourceIds) hclaims
  case h_9 =>
    simp only [bind_eq_ok, pure_eq_ok, Schema.andThen_eq_ok, Schema.atMost_eq_ok] at h
    rcases h with ⟨findings, ⟨_, hfindings, _, rfl⟩, _, _, rfl⟩
    show _ = List.map _ (List.map _ _)
    rw [List.map_map]
    exact map_of_array_eq_ok (fun _ _ => citedStatementSchema_sourceIds) hfindings
  case h_10 =>
    simp only [bind_eq_ok, pure_eq_ok, Schema.andThen_eq_ok, Schema.atMost_eq_ok] at h
    rcases h with ⟨_, _, _, _, claims, ⟨_, hclaims, _, rfl⟩, rfl⟩
    show _ = List.map _ (List.map _ _)
    rw [List.map_map]
    exact map_of_array_eq_ok (fun _ _ => citedStatementSchema_sourceIds) hclaims
  case h_12 => cases h
  -- the other inputs cite no sources for claims or findings
  all_goals
    simp only [map_eq_ok, bind_eq_ok, pure_eq_ok] at h
  case h_1 | h_2 =>
    rcases h with ⟨_, _, rfl⟩
    rfl
  case h_4 =>
    rcases h with ⟨_, _, rfl⟩
    rfl
  all_goals
    rcases h with ⟨_, _, _, _, rfl⟩
    rfl

/-- The input of a stage gives each row the allowed ones of its sources. -/
theorem citedSources_stageInput
    (h : stageInput (loadResearchOrchestrationBundle texts db projectId rows run) stage = .ok input) :
    citedSources input = ((citedRows texts db projectId stage).take 500).map fun row =>
      allowedOf (loadResearchOrchestrationBundle texts db projectId rows run)
        (row.sourceIds texts db projectId) := by
  have hclaims : ((loadResearchOrchestrationBundle texts db projectId rows run).domainClaims.take
        500).map (fun claim => allowedOf (loadResearchOrchestrationBundle texts db projectId rows run)
          claim.sourceIds) =
      (((currentClaims texts db projectId).map CitedRow.claim).take 500).map fun row =>
        allowedOf (loadResearchOrchestrationBundle texts db projectId rows run)
          (row.sourceIds texts db projectId) := by
    show List.map _ (List.take 500 (List.map _ _)) = _
    rw [← List.map_take, ← List.map_take, List.map_map, List.map_map]
    rfl
  cases stage with
  | conflictDetection =>
    simp only [stageInput, bind_eq_ok, pure_eq_ok] at h
    rcases h with ⟨_, _, rfl⟩
    show List.map _ (List.map _ _) = _
    rw [List.map_map]
    exact hclaims
  | reportOutline =>
    simp only [stageInput, bind_eq_ok, pure_eq_ok] at h
    rcases h with ⟨_, _, rfl⟩
    show List.map _ (List.take 500 _) = _
    have hlength : (loadResearchOrchestrationBundle texts db projectId rows run).domainFindings.length =
        (currentFindings texts db projectId).length := List.length_map _
    simp only [citedRows, hlength]
    split
    · show List.map _ (List.take 500 (List.map _ (List.map _ _))) = _
      rw [← List.map_take, ← List.map_take, ← List.map_take, List.map_map, List.map_map, List.map_map]
      rfl
    · show List.map _ (List.take 500 (List.map _ _)) = _
      rw [← List.map_take, List.map_map]
      exact hclaims
  | draftGeneration =>
    simp only [stageInput, bind_eq_ok] at h
    rcases h with ⟨output, _, houtline⟩
    split at houtline
    · obtain rfl := Except.ok.inj houtline
      show List.map _ (List.take 500 (List.map _ _)) = _
      rw [← List.map_take, List.map_map]
      exact hclaims
    · cases houtline
  | intakeAnalysis =>
    obtain rfl := Except.ok.inj h
    rfl
  | sourceSummary =>
    simp only [stageInput, bind_eq_ok, sourceSummaryInput] at h
    rcases h with ⟨_, _, hinput⟩
    split at hinput
    · cases hinput
    · obtain rfl := Except.ok.inj hinput
      rfl
  | evidenceExtraction =>
    simp only [stageInput, bind_eq_ok, evidenceExtractionInput] at h
    rcases h with ⟨_, _, hinput⟩
    split at hinput
    · cases hinput
    · obtain rfl := Except.ok.inj hinput
      rfl
  | claimGeneration =>
    simp only [stageInput, bind_eq_ok, pure_eq_ok] at h
    rcases h with ⟨_, _, rfl⟩
    rfl
  | _ =>
    simp only [stageInput, bind_eq_ok] at h
    rcases h with ⟨_, _, hinput⟩
    split at hinput
    · obtain rfl := Except.ok.inj hinput
      rfl
    · cases hinput

/-- What an input cites for a row. -/
theorem exists_row_of_built {built : BuiltResearchStageInput} {k : ℕ} {sourceIds : List Text}
    (h : buildResearchStageInput (loadResearchOrchestrationBundle texts db projectId rows run) =
      .ok built) (hk : (citedSources built.input)[k]? = some sourceIds) :
    ∃ row, (citedRows texts db projectId built.stage)[k]? = some row ∧
      sourceIds = (allowedOf (loadResearchOrchestrationBundle texts db projectId rows run)
        (row.sourceIds texts db projectId)).map trimText := by
  simp only [buildResearchStageInput, bind_eq_ok, pure_eq_ok, parse_eq_ok] at h
  rcases h with ⟨stage, _, input, hinput, parsed, hparsed, rfl⟩
  rw [citedSources_of_parse hparsed, citedSources_stageInput hinput, List.getElem?_map,
    List.getElem?_map, Option.map_map, Option.map_eq_some_iff] at hk
  rcases hk with ⟨row, hrow, rfl⟩
  refine ⟨row, ?_, rfl⟩
  rw [List.getElem?_take] at hrow
  split at hrow
  · exact hrow
  · cases hrow

/-- The validator accepts citations of eligible sources only. -/
theorem mem_allowed_of_validated {bundle : Contracts.ResearchOrchestrationBundle} {output : Draft}
    (h : Qa.validateDraftReferences bundle output = .ok ()) {id : Text}
    (hid : id ∈ output.citationSourceIds) : id ∈ allowedSourceIds bundle := by
  simp only [Qa.validateDraftReferences, ensure_eq_ok, List.filter_eq_nil_iff, mem_firsts,
    decide_eq_true_eq, not_not] at h
  exact h id (List.mem_append_right _ hid)

end

/-! ### Runs -/

theorem LinkedRows.ok_initial : RecordDb.initial.rows.Ok where
  claims := by
    rintro i hi
    cases hi
  findings := by
    rintro f hf
    cases hf
  links := by
    rintro l hl
    cases hl
  rests := by
    rintro r hr
    cases hr

/-- **Stages read current records**, along every run whose supersessions leave what stays current
    with current evidence of its sources, and whose `linkClaimEvidence`s commit while their claim
    and evidence are current. -/
theorem stages_read_current {db : RecordDb}
    (h : Reach RecordDb.step KeepsCurrent RecordDb.initial db) : StagesReadCurrent db := by
  have hok : db.rows.Ok := Reach.invariant (I := fun db : RecordDb => db.rows.Ok) h
    LinkedRows.ok_initial fun db a hok ha => RecordDb.step_ok hok a ha
  intro texts projectId rows run
  constructor
  · intro built hbuilt k sourceIds hk
    rcases exists_row_of_built hbuilt hk with ⟨row, hrow, rfl⟩
    refine ⟨row, hrow, fun sourceId hsource => ?_⟩
    rcases List.mem_map.mp hsource with ⟨id, hid, rfl⟩
    have hcurrent := isCurrent_of_mem (List.mem_of_getElem? hrow)
    rcases restsOn_of_mem hok hcurrent (List.mem_filter.mp hid).1 with ⟨hrests, htrim⟩
    rw [htrim]
    exact ⟨mem_of_mem_allowedOf hid, hrests⟩
  · intro output houtput claimId hclaim sourceId hsource
    rcases List.mem_filter.mp hsource with ⟨hjoined, hcited⟩
    have hcurrent : CitedRow.IsCurrent texts db projectId (.claim claimId) := hclaim
    exact ⟨mem_allowed_of_validated houtput (of_decide_eq_true hcited),
      (restsOn_of_mem hok hcurrent hjoined).1⟩

/-- Evidence, a claim, and again both after a restart, with a finding. -/
def restartedRun : List RecordAct :=
  [.ledger (.addSource ⟨0, .current⟩),
    .ledger (.commitStage [] ⟨0, 4, .evidenceExtraction, [0], []⟩ { evidence := [⟨0⟩] }),
    .ledger (.commitStage [] ⟨0, 5, .claimGeneration, [0], []⟩ { claims := [⟨[0]⟩] }),
    .ledger (.restart [4, 5]),
    .ledger (.commitStage [4] ⟨0, 14, .evidenceExtraction, [0], []⟩ { evidence := [⟨0⟩] }),
    .ledger (.commitStage [5] ⟨0, 15, .claimGeneration, [0], []⟩ { claims := [⟨[0]⟩] }),
    .addFinding 0 none [1]]

/-- After the restart, the second claim and the finding are read with the second evidence. -/
theorem stages_read_current_restarted :
    let db := restartedRun.foldl RecordDb.step .initial
    db.rows = ⟨[false, true], [(0, false), (0, true)], [true], [(0, 0), (1, 1)], [(0, 1)]⟩ ∧
      StagesReadCurrent db :=
  ⟨by decide +kernel, stages_read_current (Reach.ofTrace (by decide +kernel))⟩

/-! ### Superseded evidence -/

/-- A human links a claim with generated evidence, and a second run extracts the evidence anew. -/
def extractedAnew : List RecordAct :=
  [.ledger (.addSource ⟨0, .current⟩),
    .ledger (.commitStage [] ⟨0, 4, .evidenceExtraction, [0], []⟩ { evidence := [⟨0⟩] }),
    .ledger (.addClaim 0 true), .ledger (.link ⟨0, 0, 0, .supports⟩), .ledger (.next 0),
    .ledger (.next 0), .ledger (.next 0),
    .ledger (.commitStage [4] ⟨0, 14, .evidenceExtraction, [0], []⟩ { evidence := [⟨0⟩] })]

/-- The id of a source. -/
def exampleId : SourceId := ⟨[115], by decide, by decide⟩

/-- Columns of the rows. -/
def exampleTexts : RowTexts where
  sourceId _ := exampleId
  claimId _ := [99]
  claimContent _ := [99]
  findingId _ := [102]
  finding _ := [102]
  evidenceSummary _ := [101]
  evidenceBefore _ _ := true
  claimBefore _ _ := true
  findingBefore _ _ := true
  collation _ _ := true

/-- The source, without a document. -/
def exampleRow : EligibleRow where
  id := exampleId
  title := [116]
  publisher := none
  author := none
  publishedAt := none
  sourceType := asciiText "WEB"
  language := asciiText "en"
  ingestionMethod := asciiText "MANUAL"
  contentHash := none
  contentSummary := some [116]
  sanitizedContent := none
  sourceInjection := false
  documentId := none
  documentStatus := none
  extractionId := none
  chunkId := none
  chunkOrdinal := none
  chunkText := none
  chunkInjection := none
  securitySignals := .array []
  citationAnchorId := none

/-- A run at `draft_generation`. -/
def exampleBundle : Contracts.ResearchOrchestrationBundle where
  stageId := "draft_generation"
  scopeSnapshot := ⟨none, none, none, none, none, none, none, none, none⟩
  planQuestions := []
  latestStages _ := none
  eligibleSources := []
  excludedDocumentSourceIds := []
  domainEvidence := []
  domainClaims := []
  domainFindings := []
  qaFindings := []
  deliverableTitle := none

/-- **A draft cites superseded evidence.**  The claim of the human stays current, and its only
    evidence does not, but its section cites the source. -/
theorem draft_cites_superseded :
    ¬∀ db, Reach RecordDb.step Always RecordDb.initial db → StagesReadCurrent db := by
  intro hall
  have hdb := hall _ (Reach.ofActions _ extractedAnew)
  have hclaim : 0 ∈ currentClaims exampleTexts (extractedAnew.foldl RecordDb.step .initial) 0 := by
    rw [currentClaims, List.mem_mergeSort]
    decide +kernel
  have hsources : sourcesOfClaim 0
      (extractedAnew.foldl RecordDb.step .initial).ledger.tables 0 = [0] := by
    decide +kernel
  have hcites : [115] ∈ claimCitations ⟨[116], [], [[115]], []⟩
      (domainClaim exampleTexts (extractedAnew.foldl RecordDb.step .initial) 0 0) := by
    refine List.mem_filter.mpr ⟨?_, by decide⟩
    rw [domainClaim, hsources, arrayAgg, if_neg (by decide), Option.getD_some, List.mem_mergeSort]
    decide
  have hstale : ∀ e ∈ (extractedAnew.foldl RecordDb.step .initial).ledger.tables.evidence[0]?,
      e.isCurrent = false := by
    decide +kernel
  have hlinks : ∀ ce ∈ (extractedAnew.foldl RecordDb.step .initial).ledger.tables.claimEvidence,
      ce.evidenceId = 0 := by
    decide +kernel
  have hrests := ((hdb exampleTexts 0 [exampleRow] exampleBundle).2 _ (by rfl) 0 hclaim _ hcites).2
  rcases hrests with ⟨_, ce, hce, _, e, he, hcurrent, _⟩
  rw [hlinks ce hce] at he
  rw [hstale e he] at hcurrent
  cases hcurrent

end ResearchWorkbench.Records
