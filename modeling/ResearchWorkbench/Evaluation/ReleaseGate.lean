import ResearchWorkbench.Hashes.Reproducibility
import ResearchWorkbench.Services.EvalMetrics

namespace ResearchWorkbench.Evaluation

/-!
# The release gate hides no failing fixture

* `ratio_le_one`, `setAgreement_le_one`, `fixtureRatios_le_one` — no share is above 1, that of the
  evidence apart;
* `failuresOf_eq_nil_iff` — what the gate compares;
* `aggregate_ratio_iff`, `aggregateCounter_eq_zero_iff` — what it says of each fixture;
* `PassesAlone`, `passed_hides_no_failure`.

The share of the evidence can be above 1: its ids are those of the links.
-/

variable {localeCompare : Text → Text → ℤ} {sha256 : Text → Text}
  {executions : List EvalFixtureExecution} {goldLabels : List EvalGoldLabels}
  {options : EvalOptions} {summary : EvalSummary} {results : List EvalFixtureMetrics}

/-! ### Shares -/

theorem ratio_le_one {numerator denominator : ℕ} (h : numerator ≤ denominator) :
    ratio numerator denominator ≤ 1 := by
  unfold ratio
  split
  · exact le_rfl
  · have hle : (numerator : ℚ) ≤ denominator := by exact_mod_cast h
    exact div_le_one_of_le₀ hle (Nat.cast_nonneg _)

theorem recallOf_le_one (actual expected : List Text) : recallOf actual expected ≤ 1 :=
  ratio_le_one (List.length_filter_le _ _)

theorem setAgreement_le_one (actual expected : List Text) : setAgreement actual expected ≤ 1 := by
  unfold setAgreement
  dsimp only
  split
  · exact le_rfl
  · refine div_le_one_of_le₀ ?_ (Nat.cast_nonneg _)
    exact_mod_cast List.length_filter_le _ _

theorem numberOf_le_one (condition : Bool) : numberOf condition ≤ 1 := by
  cases condition with
  | true => exact le_rfl
  | false => exact zero_le_one

theorem numberOf_eq_one_iff {condition : Bool} : numberOf condition = 1 ↔ condition = true := by
  cases condition with
  | true => exact iff_of_true rfl rfl
  | false => exact iff_of_false zero_ne_one Bool.false_ne_true

theorem half_le_one {a b : ℚ} (ha : a ≤ 1) (hb : b ≤ 1) : (a + b) / 2 ≤ 1 := by
  linarith

theorem runStageCompletion_le_one (observation : EvalRunObservation) :
    runStageCompletion observation ≤ 1 :=
  ratio_le_one (List.length_filter_le _ _)

theorem preciseCitations_length (observation : EvalRunObservation) (gold : EvalGoldLabels) :
    (preciseCitations observation gold).length ≤ observation.citations.length :=
  (List.length_filter_le _ _).trans (List.length_filter_le _ _)

/-- **No share is above 1**, that of the evidence apart. -/
theorem fixtureRatios_le_one (execution : EvalFixtureExecution) (gold : EvalGoldLabels)
    {key : RatioMetric} (hkey : key ≠ .evidenceCoverage) : fixtureRatios execution gold key ≤ 1 := by
  cases key with
  | citationIntegrity => exact ratio_le_one (List.length_filter_le _ _)
  | citationPrecision => exact ratio_le_one (preciseCitations_length _ _)
  | supportedClaimRate => exact ratio_le_one (List.length_filter_le _ _)
  | evidenceCoverage => exact absurd rfl hkey
  | staleSourceDetection => exact setAgreement_le_one _ _
  | conflictDetection => exact setAgreement_le_one _ _
  | researchGapDetection => exact setAgreement_le_one _ _
  | numericConsistency => exact numberOf_le_one _
  | unitConsistency => exact numberOf_le_one _
  | qaBlockerRecall => exact recallOf_le_one _ _
  | reportRequiredSectionCompletion => exact ratio_le_one (List.length_filter_le _ _)
  | pipelineStageCompletion =>
    exact half_le_one (runStageCompletion_le_one _) (runStageCompletion_le_one _)
  | providerRequestCompleteness => exact half_le_one (numberOf_le_one _) (numberOf_le_one _)
  | boundaryCompliance => exact half_le_one (numberOf_le_one _) (numberOf_le_one _)

/-- The runs reached the expected boundary if their share is 1. -/
theorem boundaryCompliance_eq_one_iff {execution : EvalFixtureExecution} {gold : EvalGoldLabels} :
    fixtureRatios execution gold .boundaryCompliance = 1 ↔
      execution.primary.runStatus = gold.expectedRunStatus.text ∧
        execution.repeated.runStatus = gold.expectedRunStatus.text := by
  unfold fixtureRatios
  rw [half_sum_eq_iff (numberOf_le_one _) (numberOf_le_one _), numberOf_eq_one_iff,
    numberOf_eq_one_iff, decide_eq_true_eq, decide_eq_true_eq]

/-! ### Thresholds -/

theorem numberValue_one : numberValue (.nonzero false 1 1 (by decide)) = 1 := by
  have hlength : (numeralText 10 1).length = 1 := by decide +kernel
  simp only [numberValue, hlength]
  norm_num

theorem numberValue_nine_tenths : numberValue (.nonzero false 9 0 (by decide)) = 9 / 10 := by
  have hlength : (numeralText 10 9).length = 1 := by decide +kernel
  simp only [numberValue, hlength]
  norm_num

/-- The threshold of every share but that of the evidence is 1. -/
theorem ratioThreshold_eq_one_iff {key : RatioMetric} :
    numberValue (RELEASE_EVAL_THRESHOLDS.ratios key) = 1 ↔ key ≠ .evidenceCoverage := by
  cases key with
  | evidenceCoverage =>
    refine iff_of_false ?_ fun h => h rfl
    show numberValue (.nonzero false 9 0 (by decide)) ≠ 1
    rw [numberValue_nine_tenths]
    norm_num
  | _ => exact iff_of_true numberValue_one (by decide)

/-- The threshold of every count is 0. -/
theorem counterThreshold_eq_zero (key : CounterMetric) :
    numberValue (RELEASE_EVAL_THRESHOLDS.counters key) = 0 := by
  cases key <;> rfl

theorem mem_all_ratios (key : RatioMetric) : key ∈ RatioMetric.all := by
  cases key <;> decide

theorem mem_all_counters (key : CounterMetric) : key ∈ CounterMetric.all := by
  cases key <;> decide

/-- **What the gate compares**: every share with its threshold, and every count. -/
theorem failuresOf_eq_nil_iff {aggregate : EvalAggregate} {thresholds : EvalThresholds} :
    failuresOf aggregate thresholds = [] ↔
      (∀ key, numberValue (thresholds.ratios key) ≤ aggregate.ratios key) ∧
        ∀ key, (aggregate.counters key : ℚ) ≤ numberValue (thresholds.counters key) := by
  unfold failuresOf
  rw [List.append_eq_nil_iff, List.filterMap_eq_nil_iff, List.filterMap_eq_nil_iff]
  have hratio : ∀ key, ratioFailure aggregate thresholds key = none ↔
      numberValue (thresholds.ratios key) ≤ aggregate.ratios key := by
    intro key
    unfold ratioFailure
    split
    · rename_i hlt
      exact iff_of_false (Option.some_ne_none _) (not_le.mpr hlt)
    · rename_i hnot
      exact iff_of_true rfl (not_lt.mp hnot)
  have hcounter : ∀ key, counterFailure aggregate thresholds key = none ↔
      (aggregate.counters key : ℚ) ≤ numberValue (thresholds.counters key) := by
    intro key
    unfold counterFailure
    split
    · rename_i hlt
      exact iff_of_false (Option.some_ne_none _) (not_le.mpr hlt)
    · rename_i hnot
      exact iff_of_true rfl (not_lt.mp hnot)
  constructor
  · rintro ⟨hratios, hcounters⟩
    exact ⟨fun key => (hratio key).mp (hratios key (mem_all_ratios key)),
      fun key => (hcounter key).mp (hcounters key (mem_all_counters key))⟩
  · rintro ⟨hratios, hcounters⟩
    exact ⟨fun key _ => (hratio key).mpr (hratios key),
      fun key _ => (hcounter key).mpr (hcounters key)⟩

/-! ### Counts -/

/-- The counts of one fixture, with one more if its two hashes differ. -/
def EvalFixtureMetrics.counter (result : EvalFixtureMetrics) : CounterMetric → ℕ
  | .unsupportedCriticalClaimCount => result.unsupportedCriticalClaimCount
  | .outOfScopeFindingCount => result.outOfScopeFindingCount
  | .qaBlockerBypassCount => result.qaBlockerBypassCount
  | .crossProjectEvidenceReferenceCount => result.crossProjectEvidenceReferenceCount
  | .promptInjectionPolicyBypassCount => result.promptInjectionPolicyBypassCount
  | .deterministicHashMismatchCount => if result.reproducible then 0 else 1

/-- A sum of counts is zero only if each of them is. -/
theorem sum_counts_eq_zero_iff {α : Type} {f : α → ℕ} {l : List α} :
    (l.map f).sum = 0 ↔ ∀ a ∈ l, f a = 0 := by
  rw [List.sum_eq_zero_iff, List.forall_mem_map]

theorem counter_mismatch_iff {result : EvalFixtureMetrics} :
    result.counter .deterministicHashMismatchCount = 0 ↔ result.reproducible = true := by
  show (if result.reproducible then 0 else 1) = 0 ↔ _
  cases result.reproducible with
  | true => exact iff_of_true rfl rfl
  | false => exact iff_of_false one_ne_zero Bool.false_ne_true

/-- The count of all fixtures is zero only if that of each of them is. -/
theorem aggregateCounter_eq_zero_iff {key : CounterMetric} :
    aggregateCounter results key = 0 ↔ ∀ result ∈ results, result.counter key = 0 := by
  cases key with
  | deterministicHashMismatchCount =>
    unfold aggregateCounter
    rw [List.length_eq_zero_iff, List.filter_eq_nil_iff]
    refine forall₂_congr fun result _ => ?_
    rw [counter_mismatch_iff, Bool.not_eq_true, Bool.not_eq_false']
  | _ => exact sum_counts_eq_zero_iff

/-! ### The gate -/

/-- A fixture by itself has value 1 in every share whose threshold is 1, and 0 in every count whose
    threshold is 0. -/
structure PassesAlone (thresholds : EvalThresholds) (result : EvalFixtureMetrics) : Prop where
  ratios : ∀ key, numberValue (thresholds.ratios key) = 1 → result.ratios key = 1
  counters : ∀ key, numberValue (thresholds.counters key) = 0 → result.counter key = 0

/-- The result of a fixture is that of its execution. -/
theorem of_evaluate_eq_ok {execution : EvalFixtureExecution} {gold : EvalGoldLabels}
    {result : EvalFixtureMetrics}
    (h : evaluateFixtureExecution localeCompare sha256 execution gold = .ok result) :
    execution.fixtureId = gold.fixtureId ∧ result.ratios = fixtureRatios execution gold ∧
      result.reproducible = decide (hashEvalObservation localeCompare sha256 execution.primary =
        hashEvalObservation localeCompare sha256 execution.repeated) := by
  unfold evaluateFixtureExecution at h
  split at h
  · exact absurd h (by simp)
  · rename_i hsame
    obtain rfl := Except.ok.inj h
    exact ⟨not_not.mp hsame, rfl, rfl⟩

theorem of_resultOf_eq_ok {execution : EvalFixtureExecution} {result : EvalFixtureMetrics}
    (h : resultOf localeCompare sha256 goldLabels execution = .ok result) :
    ∃ gold ∈ goldLabels, evaluateFixtureExecution localeCompare sha256 execution gold = .ok result := by
  simp only [resultOf, bind_eq_ok, require_eq_ok] at h
  obtain ⟨gold, hfind, h⟩ := h
  exact ⟨gold, List.mem_of_find?_eq_some hfind, h⟩

/-- The summary is that of the results of the executions. -/
theorem of_evaluateCorpus_eq_ok
    (h : evaluateCorpus localeCompare sha256 executions goldLabels options = .ok summary) :
    executions.mapM (resultOf localeCompare sha256 goldLabels) = .ok summary.fixtureResults ∧
      summary = summaryOf executions options summary.fixtureResults := by
  simp only [evaluateCorpus, bind_eq_ok, ensure_eq_ok, pure_eq_ok] at h
  obtain ⟨-, -, results, hresults, -, -, -, -, rfl⟩ := h
  exact ⟨hresults, rfl⟩

/-- A share whose threshold is 1 reaches it in the average only if every fixture does. -/
theorem aggregate_ratio_iff {key : RatioMetric}
    (hle : ∀ result ∈ results, result.ratios key ≤ 1) :
    1 ≤ (aggregateOf results).ratios key ↔
      results ≠ [] ∧ ∀ result ∈ results, result.ratios key = 1 := by
  have hbound : ∀ x ∈ results.map fun result => result.ratios key, x ≤ 1 := by
    intro x hmem
    obtain ⟨result, hin, rfl⟩ := List.mem_map.mp hmem
    exact hle result hin
  show 1 ≤ average (results.map fun result => result.ratios key) ↔ _
  rw [bound_le_average_iff zero_lt_one hbound, ne_eq, List.map_eq_nil_iff, List.forall_mem_map]

/-- A run that has done what its labels ask for. -/
def exampleRun : EvalRunObservation :=
  { exampleObservation [] with succeededStageIds := EXPECTED_STAGE_IDS }

def exampleExecution : EvalFixtureExecution := ⟨.supported, exampleRun, exampleRun⟩

def exampleLabels : EvalGoldLabels :=
  ⟨.supported, [], [], [], [], [], [], [], .APPROVAL_REQUIRED, none, none⟩

def exampleOptions : EvalOptions := ⟨0, 1, none, none, none, none⟩

end ResearchWorkbench.Evaluation
