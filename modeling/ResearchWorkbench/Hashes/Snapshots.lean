import Mathlib.Algebra.Order.BigOperators.Group.List
import ResearchWorkbench.Hashes.SameContent
import ResearchWorkbench.Library.Ties
import ResearchWorkbench.Services.Evaluation

namespace ResearchWorkbench.Evaluation

/-!
# What the reproducibility hash tells apart

* `sorted_object_eq_iff` — objects with the same keys in the same order, with their keys sorted;
* `IsFlat`, `HasKeys`, `sorted_entry_inj` — entries of one list are the same if they are with their
  keys sorted;
* `entries_of_hash_eq` — observations with one hash have the same sorted lists.
-/

open JsonTree

variable {localeCompare : Text → Text → ℤ} {sha256 : Text → Text} {v w : Json}
  {fields fields' : List (Text × Json)} {keys : List Text}
  {observation observation' : EvalRunObservation}

/-! ### Objects with the same keys -/

/-- Entries with the same keys in the same order, each once, are the same in every order. -/
theorem eq_of_perm_of_keys {β : Type} {l l' : List (Text × β)}
    (hkeys : l.map Prod.fst = l'.map Prod.fst) (hnodup : (l.map Prod.fst).Nodup)
    (hperm : l.Perm l') : l = l' := by
  induction l generalizing l' with
  | nil => exact (List.perm_nil.mp hperm.symm).symm
  | cons e l ih =>
    cases l' with
    | nil => exact absurd hkeys (by simp)
    | cons e' l' =>
      obtain ⟨hkey, hrest⟩ := List.cons.inj hkeys
      have hmem : e' ∈ e :: l := hperm.mem_iff.mpr List.mem_cons_self
      obtain rfl : e = e' := eq_of_key_eq hnodup List.mem_cons_self hmem hkey
      rw [ih hrest (List.nodup_cons.mp hnodup).2 hperm.cons_inv]

/-- **Objects with the same keys in the same order** are the same with their keys sorted if their
    values are. -/
theorem sorted_object_eq_iff (hlocale : IsLocaleOrder localeCompare)
    (hfields : fields.map Prod.fst = keys) (hfields' : fields'.map Prod.fst = keys)
    (hnodup : keys.Nodup) :
    JsonTree.sorted (localeLe localeCompare) (.object fields) =
        JsonTree.sorted (localeLe localeCompare) (.object fields') ↔
      fields.map (fun f => (f.1, f.2.sorted (localeLe localeCompare))) =
        fields'.map fun f => (f.1, f.2.sorted (localeLe localeCompare)) := by
  have hsame : (fields.map fun f => (f.1, f.2.sorted (localeLe localeCompare))).map Prod.fst =
      (fields'.map fun f => (f.1, f.2.sorted (localeLe localeCompare))).map Prod.fst := by
    rw [keys_sorted, keys_sorted, hfields, hfields']
  have hnodup₁ : ((fields.map fun f => (f.1, f.2.sorted (localeLe localeCompare))).map
      Prod.fst).Nodup := by
    rw [keys_sorted, hfields]
    exact hnodup
  rw [sorted_object, sorted_object, object.injEq,
    sortedObject_eq_iff hlocale.le_trans hlocale.le_total hnodup₁ (hsame ▸ hnodup₁)]
  constructor
  · rintro ⟨hperm, -⟩
    exact eq_of_perm_of_keys hsame hnodup₁ hperm
  · intro heq
    rw [heq]
    exact ⟨.refl _, fun _ _ _ _ _ _ => id⟩

/-! ### Entries -/

/-- A leaf or an array of leaves. -/
def IsFlat : Json → Prop
  | .leaf _ => True
  | .array items => ∀ x ∈ items, ∃ a, x = .leaf a
  | .object _ => False

theorem sorted_leaf (le : Text → Text → Bool) (a : JsonScalar) :
    JsonTree.sorted le (.leaf a) = .leaf a := by
  rw [JsonTree.sorted, withSortedKeys]

theorem IsFlat.sorted_eq (h : IsFlat v) (le : Text → Text → Bool) : v.sorted le = v := by
  cases v with
  | leaf a => exact sorted_leaf le a
  | array items =>
    rw [sorted_array]
    refine congrArg JsonTree.array ((List.map_congr_left fun x hmem => ?_).trans (List.map_id' _))
    obtain ⟨a, rfl⟩ := h x hmem
    exact sorted_leaf le a
  | object fields => exact absurd h id

theorem isFlat_nullable (t : Option Text) : IsFlat (nullable t) := by
  cases t with
  | none => trivial
  | some t => trivial

theorem isFlat_texts (ts : List Text) : IsFlat (.array (ts.map textValue)) := by
  intro x hmem
  obtain ⟨t, -, rfl⟩ := List.mem_map.mp hmem
  exact ⟨_, rfl⟩

theorem isFlat_nullables (ts : List (Option Text)) : IsFlat (.array (ts.map nullable)) := by
  intro x hmem
  obtain ⟨t, -, rfl⟩ := List.mem_map.mp hmem
  cases t with
  | none => exact ⟨_, rfl⟩
  | some t => exact ⟨_, rfl⟩

/-- An object with these keys in this order, and flat values. -/
def HasKeys (keys : List Text) (v : Json) : Prop :=
  ∃ fields, v = .object fields ∧ fields.map Prod.fst = keys ∧ ∀ f ∈ fields, IsFlat f.2

/-- Such objects are the same if they are with their keys sorted. -/
theorem HasKeys.sorted_inj (hlocale : IsLocaleOrder localeCompare) (hnodup : keys.Nodup)
    (hv : HasKeys keys v) (hw : HasKeys keys w)
    (h : v.sorted (localeLe localeCompare) = w.sorted (localeLe localeCompare)) : v = w := by
  obtain ⟨fields, rfl, hkeys, hflat⟩ := hv
  obtain ⟨fields', rfl, hkeys', hflat'⟩ := hw
  have hself : ∀ fields : List (Text × Json), (∀ f ∈ fields, IsFlat f.2) →
      (fields.map fun f => (f.1, f.2.sorted (localeLe localeCompare))) = fields := by
    intro fields hflat
    refine (List.map_congr_left fun f hmem => ?_).trans (List.map_id' _)
    rw [(hflat f hmem).sorted_eq]
  rw [sorted_object_eq_iff hlocale hkeys hkeys' hnodup, hself fields hflat,
    hself fields' hflat'] at h
  rw [h]

/-- Lists whose items a function tells apart. -/
theorem eq_of_map_eq {α β : Type} {f : α → β} {l l' : List α}
    (hinj : ∀ a ∈ l, ∀ b ∈ l', f a = f b → a = b) (h : l.map f = l'.map f) : l = l' := by
  induction l generalizing l' with
  | nil => exact (List.map_eq_nil_iff.mp h.symm).symm
  | cons a l ih =>
    cases l' with
    | nil => exact absurd h (by simp)
    | cons b l' =>
      obtain ⟨hab, hrest⟩ := List.cons.inj h
      rw [hinj a List.mem_cons_self b List.mem_cons_self hab,
        ih (fun x hx y hy => hinj x (List.mem_cons_of_mem _ hx) y (List.mem_cons_of_mem _ hy)) hrest]

/-- The keys of the entries of a list, that of claims apart. -/
def entryKeys : SnapshotList → List Text
  | .sources => ["key", "projectScope", "freshnessStatus", "promptInjectionFlag",
      "duplicateOfSourceKey"].map asciiText
  | .evidence => ["sourceKey", "sourceScope", "summary", "verificationStatus"].map asciiText
  | .claims => ["evidenceExists", "relationship", "sourceKey", "sourceScope"].map asciiText
  | .findings => ["withinScope"].map asciiText
  | .gaps => ["questionKey", "severity", "description"].map asciiText
  | .conflicts =>
    ["sourceKeys", "sourceScopes", "description", "resolutionNeeded"].map asciiText
  | .qaFindings => ["ruleCode", "severity", "location", "problem", "resolutionStatus", "evalKey",
      "sourceKeys"].map asciiText
  | .citations => ["sourceKey", "sourceScope"].map asciiText

theorem nodup_entryKeys (list : SnapshotList) : (entryKeys list).Nodup := by
  cases list <;> decide +kernel

theorem hasKeys_linkEntry (projectId : Text) (link : EvalObservedEvidenceLink) :
    HasKeys (entryKeys .claims) (linkEntry projectId link) := by
  refine ⟨_, rfl, rfl, ?_⟩
  simp only [List.forall_mem_cons]
  exact ⟨trivial, trivial, isFlat_nullable _, trivial, fun _ hmem => absurd hmem List.not_mem_nil⟩

theorem hasKeys_entries {list : SnapshotList} (hnot : list ≠ .claims) :
    ∀ v ∈ entries localeCompare observation list, HasKeys (entryKeys list) v := by
  have hnil : ∀ f ∈ ([] : List (Text × Json)), IsFlat f.2 := fun _ hmem => absurd hmem List.not_mem_nil
  intro v hmem
  cases list with
  | claims => exact absurd rfl hnot
  | _ =>
    obtain ⟨x, -, rfl⟩ := List.mem_map.mp hmem
    refine ⟨_, rfl, rfl, ?_⟩
    simp only [List.forall_mem_cons]
    first
      | exact ⟨isFlat_nullable _, trivial, trivial, trivial, isFlat_nullable _, hnil⟩
      | exact ⟨isFlat_nullable _, trivial, trivial, trivial, hnil⟩
      | exact ⟨trivial, hnil⟩
      | exact ⟨isFlat_nullable _, trivial, trivial, hnil⟩
      | exact ⟨isFlat_nullables _, isFlat_texts _, trivial, trivial, hnil⟩
      | exact ⟨trivial, trivial, trivial, trivial, trivial, isFlat_nullable _, isFlat_nullables _, hnil⟩
      | exact ⟨isFlat_nullable _, trivial, hnil⟩

/-- Entries of claims are the same if they are with their keys sorted. -/
theorem claimEntry_inj (hlocale : IsLocaleOrder localeCompare) {p p' : Text}
    {claim claim' : EvalObservedClaim}
    (h : (claimEntry localeCompare p claim).sorted (localeLe localeCompare) =
      (claimEntry localeCompare p' claim').sorted (localeLe localeCompare)) :
    claimEntry localeCompare p claim = claimEntry localeCompare p' claim' := by
  let keys := ["questionKey", "content", "importance", "withinScope", "evidenceLinks"].map asciiText
  have hnodup : keys.Nodup := by decide +kernel
  unfold claimEntry at h ⊢
  have h := (sorted_object_eq_iff hlocale (show _ = keys from rfl) rfl hnodup).mp h
  simp only [List.map_cons, List.map_nil, List.cons.injEq, Prod.mk.injEq, true_and, and_true,
    (isFlat_nullable _).sorted_eq, sorted_array, array.injEq] at h
  obtain ⟨hquestion, hcontent, himportance, hscope, hlinks⟩ := h
  have hlinks' : sorted localeCompare (claim.evidenceLinks.map (linkEntry p)) =
      sorted localeCompare (claim'.evidenceLinks.map (linkEntry p')) := by
    refine eq_of_map_eq (fun x hx y hy hxy => ?_) hlinks
    obtain ⟨link, -, rfl⟩ := List.mem_map.mp (List.mem_mergeSort.mp hx)
    obtain ⟨link', -, rfl⟩ := List.mem_map.mp (List.mem_mergeSort.mp hy)
    exact (hasKeys_linkEntry p link).sorted_inj hlocale (nodup_entryKeys .claims)
      (hasKeys_linkEntry p' link') hxy
  have hleaf : ∀ {a b : JsonScalar}, (JsonTree.leaf a).sorted (localeLe localeCompare) =
      (JsonTree.leaf b).sorted (localeLe localeCompare) → JsonTree.leaf a = .leaf b := by
    intro a b hab
    rwa [sorted_leaf, sorted_leaf] at hab
  have hcontent' : textValue claim.content = textValue claim'.content := hleaf hcontent
  have himportance' : textValue claim.importance.text = textValue claim'.importance.text :=
    hleaf himportance
  have hscope' : boolValue claim.withinScope = boolValue claim'.withinScope := hleaf hscope
  rw [hquestion, hcontent', himportance', hscope', hlinks']

/-- **Entries of one list** are the same if they are with their keys sorted. -/
theorem sorted_entry_inj (hlocale : IsLocaleOrder localeCompare) {list : SnapshotList} :
    ∀ v ∈ entries localeCompare observation list,
      ∀ w ∈ entries localeCompare observation' list,
        v.sorted (localeLe localeCompare) = w.sorted (localeLe localeCompare) → v = w := by
  intro v hv w hw h
  by_cases hclaims : list = .claims
  · subst hclaims
    obtain ⟨claim, -, rfl⟩ := List.mem_map.mp hv
    obtain ⟨claim', -, rfl⟩ := List.mem_map.mp hw
    exact claimEntry_inj hlocale h
  · exact (hasKeys_entries hclaims v hv).sorted_inj hlocale (nodup_entryKeys list)
      (hasKeys_entries hclaims w hw) h

theorem sorted_entries_eq (hlocale : IsLocaleOrder localeCompare) {list : SnapshotList}
    (h : (sortedEntries localeCompare observation list).sorted (localeLe localeCompare) =
      (sortedEntries localeCompare observation' list).sorted (localeLe localeCompare)) :
    sorted localeCompare (entries localeCompare observation list) =
      sorted localeCompare (entries localeCompare observation' list) := by
  rw [sortedEntries, sortedEntries, sorted_array, sorted_array, array.injEq] at h
  refine eq_of_map_eq (fun x hx y hy hxy => ?_) h
  exact sorted_entry_inj hlocale x (List.mem_mergeSort.mp hx) y (List.mem_mergeSort.mp hy) hxy

/-! ### The hash -/

theorem textValue_injective : Function.Injective textValue := by
  intro s t h
  exact JsonScalar.string.inj (leaf.inj h)

/-- The keys of the snapshot. -/
def snapshotKeys : List Text :=
  ["fixtureId", "runStatus", "provider", "model", "pipelineVersion", "promptVersion",
    "succeededStageIds", "stageOutputs", "sources", "evidence", "claims", "findings", "gaps",
    "conflicts", "qaFindings", "reportSections", "citations", "providerRequestCount",
    "inputTokens", "outputTokens", "estimatedCostUsd"].map asciiText

theorem nodup_snapshotKeys : snapshotKeys.Nodup := by decide +kernel

/-- **Observations with one hash** have the same sorted lists. -/
theorem entries_of_hash_eq (hlocale : IsLocaleOrder localeCompare)
    (hhash : Function.Injective sha256)
    (h : hashEvalObservation localeCompare sha256 observation =
      hashEvalObservation localeCompare sha256 observation') :
    succeededStages observation = succeededStages observation' ∧
      ∀ list, sorted localeCompare (entries localeCompare observation list) =
        sorted localeCompare (entries localeCompare observation' list) := by
  unfold hashEvalObservation at h
  have htext : (evalObservationSnapshot localeCompare observation).sorted (localeLe localeCompare) =
      (evalObservationSnapshot localeCompare observation').sorted (localeLe localeCompare) := by
    rw [← stableValue_ofJson, ← stableValue_ofJson]
    exact stringify_injective (hhash h)
  unfold evalObservationSnapshot at htext
  have htext := (sorted_object_eq_iff hlocale (show _ = snapshotKeys from rfl) rfl
    nodup_snapshotKeys).mp htext
  simp only [List.map_cons, List.map_nil, List.cons.injEq, Prod.mk.injEq, true_and, and_true]
    at htext
  obtain ⟨-, -, -, -, -, -, hstages, -, hsources, hevidence, hclaims, hfindings, hgaps, hconflicts,
    hqaFindings, -, hcitations, -⟩ := htext
  refine ⟨?_, fun list => ?_⟩
  · rw [(isFlat_texts _).sorted_eq, (isFlat_texts _).sorted_eq, array.injEq] at hstages
    exact List.map_injective_iff.mpr textValue_injective hstages
  · cases list with
    | sources => exact sorted_entries_eq hlocale hsources
    | evidence => exact sorted_entries_eq hlocale hevidence
    | claims => exact sorted_entries_eq hlocale hclaims
    | findings => exact sorted_entries_eq hlocale hfindings
    | gaps => exact sorted_entries_eq hlocale hgaps
    | conflicts => exact sorted_entries_eq hlocale hconflicts
    | qaFindings => exact sorted_entries_eq hlocale hqaFindings
    | citations => exact sorted_entries_eq hlocale hcitations

end ResearchWorkbench.Evaluation
