import ResearchWorkbench.Hashes.Snapshots

namespace ResearchWorkbench.Evaluation

/-!
# The reproducibility hash as a canonical form

* `Renaming`, `Rearranged` — the ids of an observation renamed, and its lists in another order;
* `NoTies`, `snapshot_rearranged` — where no two different entries tie, the snapshot is the same;
* `KeepsMissing`, `snapshot_renamed` — where a renaming keeps what is missing, too;
* `noTies_of_orderFree`, `noExternal_of_invariant` — otherwise it is not;
* `IsCanonical`, `reproducibility_hash_iff` — when the hash is a canonical form.

Two spellings of a letter tie: `spellings_tie`.
-/

variable {localeCompare : Text → Text → ℤ} {sha256 : Text → Text}
  {observation observation' : EvalRunObservation}

/-! ### Other names and orders -/

/-- Other names for the ids of an observation. -/
structure Renaming where
  project : Text → Text
  run : Text → Text
  evidence : Text → Text
  claim : Text → Text
  project_injective : Function.Injective project
  run_injective : Function.Injective run
  evidence_injective : Function.Injective evidence
  claim_injective : Function.Injective claim

/-- The names that there are. -/
def Renaming.same : Renaming where
  project := id
  run := id
  evidence := id
  claim := id
  project_injective := Function.injective_id
  run_injective := Function.injective_id
  evidence_injective := Function.injective_id
  claim_injective := Function.injective_id

def EvalObservedEvidenceLink.renamed (ρ : Renaming) (link : EvalObservedEvidenceLink) :
    EvalObservedEvidenceLink :=
  { link with
    evidenceId := ρ.evidence link.evidenceId
    sourceProjectId := link.sourceProjectId.map ρ.project }

def EvalObservedClaim.renamed (ρ : Renaming) (claim : EvalObservedClaim) : EvalObservedClaim :=
  { claim with
    id := ρ.claim claim.id
    evidenceLinks := claim.evidenceLinks.map (·.renamed ρ) }

/-- The observation with its project, run, evidence and claim ids renamed. -/
def EvalRunObservation.renamed (ρ : Renaming) (observation : EvalRunObservation) :
    EvalRunObservation :=
  { observation with
    projectId := ρ.project observation.projectId
    runId := ρ.run observation.runId
    sources := observation.sources.map fun source =>
      { source with projectId := ρ.project source.projectId }
    evidence := observation.evidence.map fun evidence =>
      { evidence with
        id := ρ.evidence evidence.id
        sourceProjectId := evidence.sourceProjectId.map ρ.project }
    claims := observation.claims.map (·.renamed ρ)
    conflicts := observation.conflicts.map fun conflict =>
      { conflict with sourceProjectIds := conflict.sourceProjectIds.map (Option.map ρ.project) }
    citations := observation.citations.map fun citation =>
      { citation with sourceProjectId := citation.sourceProjectId.map ρ.project } }

theorem renamed_same (observation : EvalRunObservation) :
    observation.renamed .same = observation := by
  have hlink : ∀ link : EvalObservedEvidenceLink, link.renamed .same = link := by
    intro link
    unfold EvalObservedEvidenceLink.renamed Renaming.same
    rw [Option.map_id]
    rfl
  have hclaim : ∀ claim : EvalObservedClaim, claim.renamed .same = claim := by
    intro claim
    simp only [EvalObservedClaim.renamed, hlink, List.map_id']
    rfl
  simp only [EvalRunObservation.renamed, hclaim, List.map_id']
  simp only [Renaming.same, Option.map_id, id_eq, List.map_id', List.map_id]

/-- A claim with its evidence links in another order. -/
def ClaimRearranged (claim claim' : EvalObservedClaim) : Prop :=
  ∃ links, claim.evidenceLinks.Perm links ∧ claim' = { claim with evidenceLinks := links }

theorem ClaimRearranged.refl (claim : EvalObservedClaim) : ClaimRearranged claim claim :=
  ⟨_, .refl _, rfl⟩

/-- The observation with its lists in another order, and the evidence links of its claims, too. -/
structure Rearranged (observation observation' : EvalRunObservation) : Prop where
  rest : observation' =
    { observation with
      succeededStageIds := observation'.succeededStageIds
      sources := observation'.sources
      evidence := observation'.evidence
      claims := observation'.claims
      findings := observation'.findings
      gaps := observation'.gaps
      conflicts := observation'.conflicts
      qaFindings := observation'.qaFindings
      citations := observation'.citations } := by rfl
  succeededStageIds : observation.succeededStageIds.Perm observation'.succeededStageIds := by
    exact List.Perm.refl _
  sources : observation.sources.Perm observation'.sources := by exact List.Perm.refl _
  evidence : observation.evidence.Perm observation'.evidence := by exact List.Perm.refl _
  claims : ∃ claims, observation.claims.Perm claims ∧
    List.Forall₂ ClaimRearranged claims observation'.claims := by
      exact ⟨_, .refl _, List.forall₂_same.mpr fun claim _ => ClaimRearranged.refl claim⟩
  findings : observation.findings.Perm observation'.findings := by exact List.Perm.refl _
  gaps : observation.gaps.Perm observation'.gaps := by exact List.Perm.refl _
  conflicts : observation.conflicts.Perm observation'.conflicts := by exact List.Perm.refl _
  qaFindings : observation.qaFindings.Perm observation'.qaFindings := by exact List.Perm.refl _
  citations : observation.citations.Perm observation'.citations := by exact List.Perm.refl _

theorem Rearranged.refl (observation : EvalRunObservation) : Rearranged observation observation := {}

/-! ### Orders that do not matter -/

theorem valueLe_trans (hlocale : IsLocaleOrder localeCompare) (x y z : Json)
    (hxy : valueLe localeCompare x y = true) (hyz : valueLe localeCompare y z = true) :
    valueLe localeCompare x z = true :=
  hlocale.le_trans _ _ _ hxy hyz

theorem valueLe_total (hlocale : IsLocaleOrder localeCompare) (x y : Json) :
    (valueLe localeCompare x y || valueLe localeCompare y x) = true :=
  hlocale.le_total _ _

/-- No two different entries of a list, or links of a claim, tie. -/
structure NoTies (localeCompare : Text → Text → ℤ) (observation : EvalRunObservation) : Prop where
  lists : ∀ list, Separated (valueLe localeCompare) (entries localeCompare observation list)
  links : ∀ claim ∈ observation.claims, Separated (valueLe localeCompare)
    (claim.evidenceLinks.map (linkEntry observation.projectId))

theorem defaultSort_perm {l l' : List Text} (h : l.Perm l') : defaultSort l = defaultSort l' := by
  refine Separated.mergeSort_eq (fun a b c hab hbc => ?_) (fun a b => ?_) ?_ h
  · exact decide_eq_true ((of_decide_eq_true hab).trans (of_decide_eq_true hbc))
  · simpa using le_total a b
  · exact fun a _ b _ hab hba => le_antisymm (of_decide_eq_true hab) (of_decide_eq_true hba)

theorem firsts_perm {l l' : List Text} (h : l.Perm l') : (firsts l).Perm (firsts l') := by
  refine (List.perm_ext_iff_of_nodup (nodup_firsts _) (nodup_firsts _)).mpr fun a => ?_
  rw [mem_firsts, mem_firsts, h.mem_iff]

/-- A claim with its links in another order has the same entry, where no two of them tie. -/
theorem ClaimRearranged.entry_eq (hlocale : IsLocaleOrder localeCompare) {p : Text}
    {claim claim' : EvalObservedClaim} (h : ClaimRearranged claim claim')
    (hlinks : Separated (valueLe localeCompare) (claim.evidenceLinks.map (linkEntry p))) :
    claimEntry localeCompare p claim = claimEntry localeCompare p claim' := by
  obtain ⟨links, hperm, rfl⟩ := h
  have hsorted := hlinks.mergeSort_eq (valueLe_trans hlocale) (valueLe_total hlocale)
    (hperm.map (linkEntry p))
  unfold claimEntry sorted
  rw [hsorted]

theorem claimEntries_eq (hlocale : IsLocaleOrder localeCompare) {p : Text}
    {claims claims' : List EvalObservedClaim} (h : List.Forall₂ ClaimRearranged claims claims')
    (hlinks : ∀ claim ∈ claims,
      Separated (valueLe localeCompare) (claim.evidenceLinks.map (linkEntry p))) :
    claims.map (claimEntry localeCompare p) = claims'.map (claimEntry localeCompare p) := by
  induction h with
  | nil => rfl
  | cons hclaim _ ih =>
    rw [List.forall_mem_cons] at hlinks
    rw [List.map_cons, List.map_cons, hclaim.entry_eq hlocale hlinks.1, ih hlinks.2]

/-- In another order, the lists have the same entries. -/
theorem Rearranged.entries_perm (hlocale : IsLocaleOrder localeCompare)
    (h : Rearranged observation observation') (hlinks : ∀ claim ∈ observation.claims,
      Separated (valueLe localeCompare) (claim.evidenceLinks.map (linkEntry observation.projectId)))
    (list : SnapshotList) :
    (entries localeCompare observation list).Perm (entries localeCompare observation' list) := by
  have hproject : observation'.projectId = observation.projectId := by rw [h.rest]
  cases list with
  | sources =>
    simp only [entries, hproject]
    exact h.sources.map _
  | evidence =>
    simp only [entries, hproject]
    exact h.evidence.map _
  | claims =>
    obtain ⟨claims, hperm, hclaims⟩ := h.claims
    have hsame := claimEntries_eq hlocale hclaims
      fun claim hmem => hlinks claim (hperm.mem_iff.mpr hmem)
    simp only [entries, hproject]
    rw [← hsame]
    exact hperm.map _
  | findings => exact h.findings.map _
  | gaps => exact h.gaps.map _
  | conflicts =>
    simp only [entries, hproject]
    exact h.conflicts.map _
  | qaFindings => exact h.qaFindings.map _
  | citations =>
    simp only [entries, hproject]
    exact h.citations.map _

/-- **In another order**, the snapshot is the same where no two different entries tie. -/
theorem snapshot_rearranged (hlocale : IsLocaleOrder localeCompare)
    (hties : NoTies localeCompare observation) (h : Rearranged observation observation') :
    evalObservationSnapshot localeCompare observation' =
      evalObservationSnapshot localeCompare observation := by
  have hlists : ∀ list, sortedEntries localeCompare observation' list =
      sortedEntries localeCompare observation list := by
    intro list
    have hsorted := (hties.lists list).mergeSort_eq (valueLe_trans hlocale) (valueLe_total hlocale)
      (h.entries_perm hlocale hties.links list)
    unfold sortedEntries sorted
    rw [hsorted]
  have hstages : succeededStages observation' = succeededStages observation :=
    (defaultSort_perm (firsts_perm h.succeededStageIds)).symm
  unfold evalObservationSnapshot
  simp only [hlists, hstages]
  rw [h.rest]

/-! ### Names that do not matter -/

/-- The project ids of conflicts and citations that are not the observation's own. -/
def externalIds (observation : EvalRunObservation) : List Text :=
  ((observation.conflicts.flatMap (·.sourceProjectIds)) ++
    observation.citations.map (·.sourceProjectId)).filterMap id |>.filter
      fun id => id ≠ observation.projectId

theorem mem_externalIds {id : Text} : id ∈ externalIds observation ↔
    ((∃ conflict ∈ observation.conflicts, some id ∈ conflict.sourceProjectIds) ∨
      ∃ citation ∈ observation.citations, citation.sourceProjectId = some id) ∧
        id ≠ observation.projectId := by
  simp only [externalIds, List.mem_filter, List.mem_filterMap, List.mem_append, List.mem_flatMap,
    List.mem_map, id_eq, exists_eq_right, decide_eq_true_eq]

/-- The renaming makes no id of another project empty, nor an empty one an id. -/
def KeepsMissing (ρ : Renaming) (observation : EvalRunObservation) : Prop :=
  ∀ id ∈ externalIds observation, ρ.project id = [] ↔ id = []

variable {ρ : Renaming}

theorem map_project_eq_iff {p : Text} {sourceProjectId : Option Text} :
    sourceProjectId.map ρ.project = some (ρ.project p) ↔ sourceProjectId = some p := by
  constructor
  · intro h
    exact Option.map_injective ρ.project_injective h
  · rintro rfl
    rfl

theorem scopeOf_renamed (ρ : Renaming) (p : Text) (sourceProjectId : Option Text) :
    scopeOf (ρ.project p) (sourceProjectId.map ρ.project) = scopeOf p sourceProjectId := by
  simp only [scopeOf, map_project_eq_iff]

theorem scopeOrMissing_renamed {p : Text} {sourceProjectId : Option Text}
    (h : ∀ id, sourceProjectId = some id → id ≠ p → (ρ.project id = [] ↔ id = [])) :
    scopeOrMissing (ρ.project p) (sourceProjectId.map ρ.project) =
      scopeOrMissing p sourceProjectId := by
  simp only [scopeOrMissing, map_project_eq_iff]
  by_cases hown : sourceProjectId = some p
  · rw [if_pos hown, if_pos hown]
  · rw [if_neg hown, if_neg hown]
    cases sourceProjectId with
    | none => rfl
    | some id =>
      have hid := h id rfl fun heq => hown (heq ▸ rfl)
      simp only [Option.map_some, Option.getD_some, ne_eq, hid]

/-- With other names, the lists have the same links. -/
theorem linkEntries_renamed (ρ : Renaming) (p : Text) (claim : EvalObservedClaim) :
    (claim.renamed ρ).evidenceLinks.map (linkEntry (ρ.project p)) =
      claim.evidenceLinks.map (linkEntry p) := by
  unfold EvalObservedClaim.renamed
  rw [List.map_map]
  refine List.map_congr_left fun link _ => ?_
  simp only [Function.comp_apply, linkEntry, EvalObservedEvidenceLink.renamed, scopeOf_renamed]

/-- With other names, the lists have the same entries. -/
theorem entries_renamed (hkeep : KeepsMissing ρ observation) (list : SnapshotList) :
    entries localeCompare (observation.renamed ρ) list = entries localeCompare observation list := by
  cases list with
  | sources =>
    simp only [entries, EvalRunObservation.renamed, List.map_map]
    refine List.map_congr_left fun source _ => ?_
    have hscope := scopeOf_renamed ρ observation.projectId (some source.projectId)
    simp only [Option.map_some] at hscope
    simp only [Function.comp_apply, sourceEntry, hscope]
  | evidence =>
    simp only [entries, EvalRunObservation.renamed, List.map_map]
    refine List.map_congr_left fun evidence _ => ?_
    simp only [Function.comp_apply, evidenceEntry, scopeOf_renamed]
  | claims =>
    simp only [entries, EvalRunObservation.renamed, List.map_map]
    refine List.map_congr_left fun claim _ => ?_
    simp only [Function.comp_apply, claimEntry, linkEntries_renamed]
    rfl
  | conflicts =>
    simp only [entries, EvalRunObservation.renamed, List.map_map]
    refine List.map_congr_left fun conflict hmem => ?_
    simp only [Function.comp_apply, conflictEntry, List.map_map]
    have hscopes : conflict.sourceProjectIds.map
        (scopeOrMissing (ρ.project observation.projectId) ∘ Option.map ρ.project) =
          conflict.sourceProjectIds.map (scopeOrMissing observation.projectId) := by
      refine List.map_congr_left fun sourceProjectId hin => ?_
      refine scopeOrMissing_renamed fun id hid hne => ?_
      exact hkeep id (mem_externalIds.mpr ⟨.inl ⟨conflict, hmem, hid ▸ hin⟩, hne⟩)
    rw [hscopes]
  | citations =>
    simp only [entries, EvalRunObservation.renamed, List.map_map]
    refine List.map_congr_left fun citation hmem => ?_
    simp only [Function.comp_apply, citationEntry]
    rw [scopeOrMissing_renamed fun id hid hne =>
      hkeep id (mem_externalIds.mpr ⟨.inr ⟨citation, hmem, hid⟩, hne⟩)]
  | _ => rfl

/-- **With other names**, the snapshot is the same where they keep what is missing. -/
theorem snapshot_renamed (hkeep : KeepsMissing ρ observation) :
    evalObservationSnapshot localeCompare (observation.renamed ρ) =
      evalObservationSnapshot localeCompare observation := by
  have hlists : ∀ list, sortedEntries localeCompare (observation.renamed ρ) list =
      sortedEntries localeCompare observation list := fun list => by
    unfold sortedEntries
    rw [entries_renamed hkeep]
  unfold evalObservationSnapshot
  simp only [hlists]
  rfl

theorem NoTies.renamed (hties : NoTies localeCompare observation)
    (hkeep : KeepsMissing ρ observation) : NoTies localeCompare (observation.renamed ρ) := by
  refine ⟨fun list => ?_, fun claim hmem => ?_⟩
  · rw [entries_renamed hkeep]
    exact hties.lists list
  · obtain ⟨old, hold, rfl⟩ := List.mem_map.mp hmem
    have hlinks := linkEntries_renamed ρ observation.projectId old
    show Separated _ ((old.renamed ρ).evidenceLinks.map (linkEntry (ρ.project _)))
    rw [hlinks]
    exact hties.links old hold

/-! ### Orders that matter -/

/-- The hash of the observation does not depend on the order of its lists. -/
def IsOrderFree (localeCompare : Text → Text → ℤ) (sha256 : Text → Text)
    (observation : EvalRunObservation) : Prop :=
  ∀ observation', Rearranged observation observation' →
    hashEvalObservation localeCompare sha256 observation' =
      hashEvalObservation localeCompare sha256 observation

theorem IsOrderFree.sorted_eq (hlocale : IsLocaleOrder localeCompare)
    (hhash : Function.Injective sha256) (h : IsOrderFree localeCompare sha256 observation)
    {observation₁ observation₂ : EvalRunObservation} (h₁ : Rearranged observation observation₁)
    (h₂ : Rearranged observation observation₂) (list : SnapshotList) :
    sorted localeCompare (entries localeCompare observation₁ list) =
      sorted localeCompare (entries localeCompare observation₂ list) :=
  (entries_of_hash_eq hlocale hhash ((h _ h₁).trans (h _ h₂).symm)).2 list

/-- An item between others that is replaced. -/
theorem eq_of_perm_middle {α : Type} {s t : List α} {a b : α} (h : (s ++ a :: t).Perm (s ++ b :: t)) :
    a = b := by
  have hcons : (a :: t).Perm (b :: t) := (List.perm_append_left_iff s).mp h
  have hmultiset : a ::ₘ (t : Multiset α) = b ::ₘ (t : Multiset α) := by
    rw [Multiset.cons_coe, Multiset.cons_coe]
    exact Multiset.coe_eq_coe.mpr hcons
  exact (Multiset.cons_inj_left _).mp hmultiset

/-- A list whose items can be put in any order has no two different entries that tie. -/
theorem IsOrderFree.separated (hlocale : IsLocaleOrder localeCompare)
    (hhash : Function.Injective sha256) (h : IsOrderFree localeCompare sha256 observation)
    {β : Type} {f : β → Json} {l : List β} (list : SnapshotList)
    (replaced : List β → EvalRunObservation)
    (hreplaced : ∀ l', l.Perm l' → Rearranged observation (replaced l'))
    (hentries : ∀ l', entries localeCompare (replaced l') list = l'.map f) :
    Separated (valueLe localeCompare) (l.map f) := by
  by_contra hnot
  obtain ⟨l₁, l₂, h₁, h₂, hne⟩ :=
    exists_perm_mergeSort_ne (valueLe_trans hlocale) (valueLe_total hlocale) hnot
  have hsorted := h.sorted_eq hlocale hhash (hreplaced l₁ h₁) (hreplaced l₂ h₂) list
  rw [hentries, hentries] at hsorted
  exact hne hsorted

/-- The links of a claim can be put in any order. -/
theorem IsOrderFree.links (hlocale : IsLocaleOrder localeCompare)
    (hhash : Function.Injective sha256) (h : IsOrderFree localeCompare sha256 observation)
    {claim : EvalObservedClaim} (hmem : claim ∈ observation.claims) :
    Separated (valueLe localeCompare)
      (claim.evidenceLinks.map (linkEntry observation.projectId)) := by
  by_contra hnot
  obtain ⟨l₁, l₂, h₁, h₂, hne⟩ :=
    exists_perm_mergeSort_ne (valueLe_trans hlocale) (valueLe_total hlocale) hnot
  obtain ⟨s, t, hsplit⟩ := List.append_of_mem hmem
  have hreplaced : ∀ links, claim.evidenceLinks.Perm links → Rearranged observation
      { observation with claims := s ++ { claim with evidenceLinks := links } :: t } := by
    intro links hlinks
    refine { claims := ⟨_, .refl _, ?_⟩ }
    rw [hsplit]
    refine List.rel_append (List.forall₂_same.mpr fun c _ => .refl c) (.cons ⟨links, hlinks, rfl⟩ ?_)
    exact List.forall₂_same.mpr fun c _ => .refl c
  have hsorted := h.sorted_eq hlocale hhash (hreplaced l₁ h₁) (hreplaced l₂ h₂) .claims
  have hperm₁ := List.mergeSort_perm (entries localeCompare
    { observation with claims := s ++ { claim with evidenceLinks := l₁ } :: t } .claims)
      (valueLe localeCompare)
  have hperm₂ := List.mergeSort_perm (entries localeCompare
    { observation with claims := s ++ { claim with evidenceLinks := l₂ } :: t } .claims)
      (valueLe localeCompare)
  unfold sorted at hsorted
  rw [hsorted] at hperm₁
  have hperm := hperm₁.symm.trans hperm₂
  simp only [entries, List.map_append, List.map_cons] at hperm
  have hentry := eq_of_perm_middle hperm
  simp only [claimEntry, JsonTree.object.injEq, List.cons.injEq, Prod.mk.injEq,
    JsonTree.array.injEq, true_and, and_true] at hentry
  exact hne hentry

/-- **The order matters** where two different entries tie. -/
theorem noTies_of_orderFree (hlocale : IsLocaleOrder localeCompare)
    (hhash : Function.Injective sha256) (h : IsOrderFree localeCompare sha256 observation) :
    NoTies localeCompare observation := by
  refine ⟨fun list => ?_, fun claim hmem => h.links hlocale hhash hmem⟩
  cases list with
  | sources =>
    exact h.separated hlocale hhash .sources (fun l => { observation with sources := l })
      (fun _ hl => { sources := hl }) fun _ => rfl
  | evidence =>
    exact h.separated hlocale hhash .evidence (fun l => { observation with evidence := l })
      (fun _ hl => { evidence := hl }) fun _ => rfl
  | claims =>
    refine h.separated hlocale hhash .claims (fun l => { observation with claims := l })
      (fun l hl => { claims := ⟨l, hl, ?_⟩ }) fun _ => rfl
    exact List.forall₂_same.mpr fun claim _ => .refl claim
  | findings =>
    exact h.separated hlocale hhash .findings (fun l => { observation with findings := l })
      (fun _ hl => { findings := hl }) fun _ => rfl
  | gaps =>
    exact h.separated hlocale hhash .gaps (fun l => { observation with gaps := l })
      (fun _ hl => { gaps := hl }) fun _ => rfl
  | conflicts =>
    exact h.separated hlocale hhash .conflicts (fun l => { observation with conflicts := l })
      (fun _ hl => { conflicts := hl }) fun _ => rfl
  | qaFindings =>
    exact h.separated hlocale hhash .qaFindings (fun l => { observation with qaFindings := l })
      (fun _ hl => { qaFindings := hl }) fun _ => rfl
  | citations =>
    exact h.separated hlocale hhash .citations (fun l => { observation with citations := l })
      (fun _ hl => { citations := hl }) fun _ => rfl

/-! ### Names that matter -/

/-- The scope `"missing"`, as a value. -/
def isMissing : Json → Bool
  | .leaf (.string s) => decide (s = asciiText "missing")
  | _ => false

/-- How many scopes of an entry, which is of a conflict or a citation, are `"missing"`. -/
def missingScopes : Json → ℕ
  | .object (_ :: (_, .array scopes) :: _) => scopes.countP isMissing
  | .object (_ :: (_, scope) :: _) => [scope].countP isMissing
  | _ => 0

/-- The scope of the project id is `"missing"`. -/
def missesScope (projectId : Text) (sourceProjectId : Option Text) : Bool :=
  isMissing (textValue (scopeOrMissing projectId sourceProjectId))

theorem missesScope_iff {p : Text} {sourceProjectId : Option Text} :
    missesScope p sourceProjectId = true ↔
      sourceProjectId ≠ some p ∧ sourceProjectId.getD [] = [] := by
  have hfixture : asciiText "fixture" ≠ asciiText "missing" := by simp [asciiText]
  have hexternal : asciiText "external" ≠ asciiText "missing" := by simp [asciiText]
  unfold missesScope textValue isMissing scopeOrMissing
  rw [decide_eq_true_eq]
  by_cases hown : sourceProjectId = some p
  · rw [if_pos hown]
    exact iff_of_false hfixture fun h => h.1 hown
  · rw [if_neg hown]
    by_cases hempty : sourceProjectId.getD [] = []
    · rw [if_neg (not_not.mpr hempty)]
      exact iff_of_true rfl ⟨hown, hempty⟩
    · rw [if_pos hempty]
      exact iff_of_false hexternal fun h => hempty h.2

theorem missingScopes_conflictEntry (p : Text) (conflict : EvalObservedConflict) :
    missingScopes (conflictEntry p conflict) = conflict.sourceProjectIds.countP (missesScope p) := by
  show ((defaultSort (conflict.sourceProjectIds.map (scopeOrMissing p))).map textValue).countP
    isMissing = _
  rw [List.countP_map, defaultSort, (List.mergeSort_perm _ _).countP_eq, List.countP_map]
  rfl

/-- Items that are counted by two predicates, of which the one implies the other. -/
theorem of_countP_eq {α : Type} {p q : α → Bool} {l : List α}
    (hle : ∀ x ∈ l, p x = true → q x = true) (h : l.countP p = l.countP q) :
    ∀ x ∈ l, q x = true → p x = true := by
  induction l with
  | nil => exact fun _ hmem => absurd hmem List.not_mem_nil
  | cons y l ih =>
    rw [List.forall_mem_cons] at hle
    have hmono := List.countP_mono_left hle.2
    rw [List.countP_cons, List.countP_cons] at h
    rw [List.forall_mem_cons]
    by_cases hp : p y = true
    · rw [if_pos hp, if_pos (hle.1 hp)] at h
      exact ⟨fun _ => hp, ih hle.2 (by omega)⟩
    · rw [if_neg hp] at h
      by_cases hq : q y = true
      · rw [if_pos hq] at h
        omega
      · rw [if_neg hq] at h
        exact ⟨fun hq' => absurd hq' hq, ih hle.2 (by omega)⟩

/-- Entries with the same scopes that are missing in the whole. -/
theorem countP_eq_of_perm {β : Type} {l : List β} {f g : β → Json} {ids : β → List (Option Text)}
    {p q : Option Text → Bool} (hf : ∀ b, missingScopes (f b) = (ids b).countP p)
    (hg : ∀ b, missingScopes (g b) = (ids b).countP q) (h : (l.map f).Perm (l.map g)) :
    (l.flatMap ids).countP p = (l.flatMap ids).countP q := by
  have hsum := (h.map missingScopes).sum_nat
  simp only [List.map_map] at hsum
  rw [List.countP_flatMap, List.countP_flatMap]
  have hp : (List.countP p ∘ ids) = missingScopes ∘ f := funext fun b => (hf b).symm
  have hq : (List.countP q ∘ ids) = missingScopes ∘ g := funext fun b => (hg b).symm
  rw [hp, hq]
  exact hsum

/-- Every project id with a letter before it. -/
def Renaming.lettered : Renaming :=
  { Renaming.same with
    project := fun id => 97 :: id
    project_injective := fun _ _ h => (List.cons.inj h).2 }

/-- Every project id with a letter before it, but one, which becomes empty. -/
def Renaming.emptied (gone : Text) : Renaming :=
  { Renaming.same with
    project := fun id => if id = gone then [] else 97 :: id
    project_injective := by
      intro id id' h
      dsimp only at h
      by_cases hid : id = gone
      · by_cases hid' : id' = gone
        · rw [hid, hid']
        · rw [if_pos hid, if_neg hid'] at h
          exact absurd h (List.cons_ne_nil _ _).symm
      · by_cases hid' : id' = gone
        · rw [if_neg hid, if_pos hid'] at h
          exact absurd h (List.cons_ne_nil _ _)
        · rw [if_neg hid, if_neg hid'] at h
          exact (List.cons.inj h).2 }

/-- No conflict or citation has the id of another project. -/
def NoExternal (observation : EvalRunObservation) : Prop := externalIds observation = []

/-- The scope of a project id with other names. -/
def missesRenamed (ρ : Renaming) (projectId : Text) (sourceProjectId : Option Text) : Bool :=
  missesScope (ρ.project projectId) (sourceProjectId.map ρ.project)

theorem missesRenamed_iff {p : Text} {sourceProjectId : Option Text} :
    missesRenamed ρ p sourceProjectId = true ↔
      sourceProjectId ≠ some p ∧ (sourceProjectId.map ρ.project).getD [] = [] := by
  unfold missesRenamed
  rw [missesScope_iff, ne_eq, map_project_eq_iff]

theorem missesRenamed_mono {gone p : Text} {sourceProjectId : Option Text}
    (h : missesRenamed .lettered p sourceProjectId = true) :
    missesRenamed (.emptied gone) p sourceProjectId = true := by
  rw [missesRenamed_iff] at h ⊢
  refine ⟨h.1, ?_⟩
  cases sourceProjectId with
  | none => rfl
  | some id => exact absurd h.2 (List.cons_ne_nil _ _)

theorem not_both_counted {gone p : Text} {ids : List (Option Text)} (hmem : some gone ∈ ids)
    (hne : gone ≠ p) : ids.countP (missesRenamed .lettered p) ≠
      ids.countP (missesRenamed (.emptied gone) p) := by
  intro heq
  have hgone : missesRenamed (.emptied gone) p (some gone) = true := by
    rw [missesRenamed_iff]
    exact ⟨fun h => hne (Option.some.inj h), if_pos rfl⟩
  have h := of_countP_eq (fun _ _ => missesRenamed_mono) heq (some gone) hmem hgone
  exact absurd (missesRenamed_iff.mp h).2 (List.cons_ne_nil _ _)

theorem entries_conflicts_renamed (ρ : Renaming) :
    entries localeCompare (observation.renamed ρ) .conflicts =
      observation.conflicts.map fun conflict => conflictEntry (ρ.project observation.projectId)
        { conflict with
          sourceProjectIds := conflict.sourceProjectIds.map (Option.map ρ.project) } := by
  simp only [entries, EvalRunObservation.renamed, List.map_map]
  rfl

theorem entries_citations_renamed (ρ : Renaming) :
    entries localeCompare (observation.renamed ρ) .citations =
      observation.citations.map fun citation => citationEntry (ρ.project observation.projectId)
        { citation with sourceProjectId := citation.sourceProjectId.map ρ.project } := by
  simp only [entries, EvalRunObservation.renamed, List.map_map]
  rfl

/-- **The names matter** where a conflict or a citation has the id of another project, which can
    become empty. -/
theorem noExternal_of_invariant (hlocale : IsLocaleOrder localeCompare)
    (hhash : Function.Injective sha256)
    (h : ∀ ρ, hashEvalObservation localeCompare sha256 (observation.renamed ρ) =
      hashEvalObservation localeCompare sha256 observation) : NoExternal observation := by
  by_contra hnot
  obtain ⟨gone, hgone⟩ := List.exists_mem_of_ne_nil _ hnot
  obtain ⟨hin, hne⟩ := mem_externalIds.mp hgone
  have hsorted := (entries_of_hash_eq hlocale hhash
    ((h .lettered).trans (h (.emptied gone)).symm)).2
  have hperm : ∀ list, (entries localeCompare (observation.renamed .lettered) list).Perm
      (entries localeCompare (observation.renamed (.emptied gone)) list) := by
    intro list
    have hl := List.mergeSort_perm (entries localeCompare (observation.renamed .lettered) list)
      (valueLe localeCompare)
    have he := List.mergeSort_perm
      (entries localeCompare (observation.renamed (.emptied gone)) list) (valueLe localeCompare)
    have heq := hsorted list
    unfold sorted at heq
    rw [heq] at hl
    exact hl.symm.trans he
  rcases hin with ⟨conflict, hmem, hid⟩ | ⟨citation, hmem, hid⟩
  · have hconflicts := hperm .conflicts
    rw [entries_conflicts_renamed, entries_conflicts_renamed] at hconflicts
    have hcount : ∀ (ρ : Renaming) (conflict : EvalObservedConflict),
        missingScopes (conflictEntry (ρ.project observation.projectId)
          { conflict with
            sourceProjectIds := conflict.sourceProjectIds.map (Option.map ρ.project) }) =
          conflict.sourceProjectIds.countP (missesRenamed ρ observation.projectId) := by
      intro ρ conflict
      rw [missingScopes_conflictEntry, List.countP_map]
      rfl
    exact not_both_counted (List.mem_flatMap.mpr ⟨conflict, hmem, hid⟩) hne
      (countP_eq_of_perm (hcount .lettered) (hcount (.emptied gone)) hconflicts)
  · have hcitations := hperm .citations
    rw [entries_citations_renamed, entries_citations_renamed] at hcitations
    have hin : some gone ∈ observation.citations.flatMap fun c => [c.sourceProjectId] :=
      List.mem_flatMap.mpr ⟨citation, hmem, by rw [hid]; exact List.mem_singleton.mpr rfl⟩
    exact not_both_counted hin hne
      (countP_eq_of_perm (fun _ => rfl) (fun _ => rfl) hcitations)

/-! ### The canonical form -/

/-- The two observations differ in a list of the snapshot, as multisets. -/
def DifferInList (localeCompare : Text → Text → ℤ) (observation observation' : EvalRunObservation) :
    Prop :=
  (∃ list, ¬(entries localeCompare observation list).Perm (entries localeCompare observation' list)) ∨
    ¬(firsts observation.succeededStageIds).Perm (firsts observation'.succeededStageIds)

/-- The hash of the observation does not depend on the names of such a kind or on the order of its
    lists, and differs from that of every other with another list. -/
def IsCanonical (localeCompare : Text → Text → ℤ) (sha256 : Text → Text) (ok : Renaming → Prop)
    (observation : EvalRunObservation) : Prop :=
  (∀ ρ observation', ok ρ → Rearranged (observation.renamed ρ) observation' →
    hashEvalObservation localeCompare sha256 observation' =
      hashEvalObservation localeCompare sha256 observation) ∧
    ∀ observation', DifferInList localeCompare observation observation' →
      hashEvalObservation localeCompare sha256 observation ≠
        hashEvalObservation localeCompare sha256 observation'

theorem hash_ne_of_differInList (hlocale : IsLocaleOrder localeCompare)
    (hhash : Function.Injective sha256) (h : DifferInList localeCompare observation observation') :
    hashEvalObservation localeCompare sha256 observation ≠
      hashEvalObservation localeCompare sha256 observation' := by
  intro heq
  obtain ⟨hstages, hlists⟩ := entries_of_hash_eq hlocale hhash heq
  rcases h with ⟨list, hnot⟩ | hnot
  · refine hnot ?_
    have hsorted := hlists list
    have hperm := List.mergeSort_perm (entries localeCompare observation list)
      (valueLe localeCompare)
    unfold sorted at hsorted
    rw [hsorted] at hperm
    exact hperm.symm.trans (List.mergeSort_perm _ _)
  · refine hnot ?_
    have hperm := List.mergeSort_perm (firsts observation.succeededStageIds)
      fun x y => decide (x ≤ y)
    unfold succeededStages defaultSort at hstages
    rw [hstages] at hperm
    exact hperm.symm.trans (List.mergeSort_perm _ _)

theorem isCanonical_of (hlocale : IsLocaleOrder localeCompare) (hhash : Function.Injective sha256)
    {ok : Renaming → Prop} (hties : NoTies localeCompare observation)
    (hkeep : ∀ ρ, ok ρ → KeepsMissing ρ observation) :
    IsCanonical localeCompare sha256 ok observation := by
  refine ⟨fun ρ observation' hρ h => ?_, fun _ => hash_ne_of_differInList hlocale hhash⟩
  unfold hashEvalObservation
  rw [snapshot_rearranged hlocale (hties.renamed (hkeep ρ hρ)) h, snapshot_renamed (hkeep ρ hρ)]

theorem noTies_of_isCanonical (hlocale : IsLocaleOrder localeCompare)
    (hhash : Function.Injective sha256) {ok : Renaming → Prop} (hok : ok .same)
    (h : IsCanonical localeCompare sha256 ok observation) : NoTies localeCompare observation := by
  refine noTies_of_orderFree hlocale hhash fun observation' hrearranged => ?_
  refine h.1 .same observation' hok ?_
  rw [renamed_same]
  exact hrearranged

/-- **The reproducibility hash** is a canonical form if and only if no two different entries of a
    list, or links of a claim, tie, and no conflict or citation has the id of another project; where
    the names of the projects keep the empty one, if and only if there are no ties. -/
theorem reproducibility_hash_iff (hlocale : IsLocaleOrder localeCompare)
    (hhash : Function.Injective sha256) (observation : EvalRunObservation) :
    (IsCanonical localeCompare sha256 (fun _ => True) observation ↔
        NoTies localeCompare observation ∧ NoExternal observation) ∧
      (IsCanonical localeCompare sha256 (fun ρ => ρ.project [] = []) observation ↔
        NoTies localeCompare observation) := by
  refine ⟨⟨fun h => ⟨noTies_of_isCanonical hlocale hhash trivial h, ?_⟩, ?_⟩,
    ⟨noTies_of_isCanonical hlocale hhash rfl, fun hties => ?_⟩⟩
  · exact noExternal_of_invariant hlocale hhash fun ρ => h.1 ρ _ trivial (.refl _)
  · rintro ⟨hties, hexternal⟩
    refine isCanonical_of hlocale hhash hties fun ρ _ id hmem => ?_
    unfold NoExternal at hexternal
    rw [hexternal] at hmem
    exact absurd hmem List.not_mem_nil
  · refine isCanonical_of hlocale hhash hties fun ρ hρ id _ => ?_
    constructor
    · intro hid
      exact ρ.project_injective (hid.trans hρ.symm)
    · rintro rfl
      exact hρ

/-- An observation with these citations, and nothing else. -/
def exampleObservation (citations : List EvalObservedCitation) : EvalRunObservation where
  fixtureId := .supported
  projectId := asciiText "p"
  runId := asciiText "r"
  runStatus := asciiText "APPROVAL_REQUIRED"
  provider := asciiText "mock"
  model := asciiText "m"
  pipelineVersion := asciiText "1"
  promptVersion := asciiText "1"
  succeededStageIds := []
  normalizedStageOutputs := []
  sources := []
  evidence := []
  claims := []
  findings := []
  gaps := []
  conflicts := []
  qaFindings := []
  reportSections := []
  citations := citations
  providerRequestCount := .nonzero false 11 2 (by decide)
  inputTokens := .zero
  outputTokens := .zero
  estimatedCostUsd := none

theorem canonical_of_no_lists :
    IsCanonical exampleLocaleCompare id (fun _ => True) (exampleObservation []) := by
  refine ((reproducibility_hash_iff exampleLocaleOrder Function.injective_id _).1).mpr
    ⟨⟨fun list => ?_, fun claim hmem => absurd hmem List.not_mem_nil⟩, rfl⟩
  cases list <;> exact fun _ hmem => absurd hmem List.not_mem_nil

/-- A citation of the own project with this key. -/
def exampleCitation (key : Text) : EvalObservedCitation where
  sourceId := asciiText "s"
  sourceKey := some key
  sourceProjectId := some (asciiText "p")

theorem citationEntry_sorted (p : Text) (citation : EvalObservedCitation) :
    (citationEntry p citation).sorted (localeLe exampleLocaleCompare) =
      citationEntry p citation := by
  have hle : localeLe exampleLocaleCompare (asciiText "sourceKey") (asciiText "sourceScope") =
      true := by decide +kernel
  have hkey : isArrayIndex (asciiText "sourceKey") = false := by decide +kernel
  have hscope : isArrayIndex (asciiText "sourceScope") = false := by decide +kernel
  unfold citationEntry
  rw [JsonTree.sorted_object, List.map_cons, List.map_cons, List.map_nil,
    (isFlat_nullable _).sorted_eq, textValue, sorted_leaf, sortedObject,
    List.mergeSort_of_pairwise (by simpa using hle), fromEntries]
  simp only [List.filter_cons, List.filter_nil, hkey, hscope, Bool.false_eq_true, if_false,
    List.mergeSort_nil, List.nil_append, Bool.not_false, if_true]

theorem valueLe_exampleCitation (key key' : Text) :
    valueLe exampleLocaleCompare (citationEntry (asciiText "p") (exampleCitation key))
        (citationEntry (asciiText "p") (exampleCitation key')) =
      localeLe exampleLocaleCompare
        (stringify (citationEntry (asciiText "p") (exampleCitation key)))
        (stringify (citationEntry (asciiText "p") (exampleCitation key'))) := by
  unfold valueLe stableJson
  rw [stableValue_ofJson, stableValue_ofJson, citationEntry_sorted, citationEntry_sorted]

/-- Two citations whose keys are two spellings of one letter tie. -/
theorem spellings_tie :
    IsLocaleOrder exampleLocaleCompare ∧ Function.Injective (id : Text → Text) ∧
      ¬IsCanonical exampleLocaleCompare id (fun _ => True)
        (exampleObservation [exampleCitation [0xE9], exampleCitation [0x65, 0x301]]) := by
  refine ⟨exampleLocaleOrder, Function.injective_id, fun h => ?_⟩
  have hties := noTies_of_isCanonical exampleLocaleOrder Function.injective_id trivial h
  have hmem₁ : citationEntry (asciiText "p") (exampleCitation [0xE9]) ∈
      entries exampleLocaleCompare (exampleObservation
        [exampleCitation [0xE9], exampleCitation [0x65, 0x301]]) .citations := List.mem_cons_self
  have hmem₂ : citationEntry (asciiText "p") (exampleCitation [0x65, 0x301]) ∈
      entries exampleLocaleCompare (exampleObservation
        [exampleCitation [0xE9], exampleCitation [0x65, 0x301]]) .citations :=
    List.mem_cons_of_mem _ List.mem_cons_self
  have heq := hties.lists .citations _ hmem₁ _ hmem₂
    (by rw [valueLe_exampleCitation]; decide +kernel)
    (by rw [valueLe_exampleCitation]; decide +kernel)
  have hfields := JsonTree.object.inj heq
  have hkey := textValue_injective (Prod.mk.inj (List.cons.inj hfields).1).2
  exact absurd hkey (by decide)

end ResearchWorkbench.Evaluation
