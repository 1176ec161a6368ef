import ResearchWorkbench.Domain.ResearchRuns

namespace ResearchWorkbench

/-!
# Checking a run against its budget

The check of `lib/budgets` that is made before a provider is called, and once more after it has
answered.

* `UsageCounts`, `RunUsage`, `NextUsage` — what a run has used, and what is to be added to it;
* `checkRunBudget` — the limits that the sum would exceed;
* `checkRunBudget_providerRequests` — an allowed call leaves room for itself.
-/

/-- The numbers of `RunUsage`. -/
structure UsageCounts where
  providerRequests : ℕ := 0
  searchRequests : ℕ := 0
  inputTokens : ℕ := 0
  outputTokens : ℕ := 0
  estimatedCostUsd : ℚ := 0
  elapsedMs : ℕ := 0
  stageAttempts : ℕ := 0
  sources : ℕ := 0
  documentChunks : ℕ := 0

/-- `RunUsage`. -/
structure RunUsage extends UsageCounts where
  costStatus : CostStatus

/-- `Partial<RunUsage>`: what is missing counts as nothing. -/
structure NextUsage extends UsageCounts where
  costStatus : Option CostStatus := none

/-- The usage after the next step: `projected`. -/
def UsageCounts.add (usage next : UsageCounts) : UsageCounts where
  providerRequests := usage.providerRequests + next.providerRequests
  searchRequests := usage.searchRequests + next.searchRequests
  inputTokens := usage.inputTokens + next.inputTokens
  outputTokens := usage.outputTokens + next.outputTokens
  estimatedCostUsd := usage.estimatedCostUsd + next.estimatedCostUsd
  elapsedMs := usage.elapsedMs + next.elapsedMs
  stageAttempts := usage.stageAttempts + next.stageAttempts
  sources := usage.sources + next.sources
  documentChunks := usage.documentChunks + next.documentChunks

/-- `checks`: whether a limit is exceeded, and its code. -/
def BudgetSnapshot.checks (budget : BudgetSnapshot) (projected : UsageCounts) :
    List (Bool × String) :=
  [(budget.maxProviderRequests < projected.providerRequests, "MAX_PROVIDER_REQUESTS"),
    (budget.maxSearchRequests < projected.searchRequests, "MAX_SEARCH_REQUESTS"),
    (budget.maxInputTokens < projected.inputTokens, "MAX_INPUT_TOKENS"),
    (budget.maxOutputTokens < projected.outputTokens, "MAX_OUTPUT_TOKENS"),
    (budget.maxEstimatedCostUsd < projected.estimatedCostUsd, "MAX_ESTIMATED_COST"),
    (budget.maxElapsedMs < projected.elapsedMs, "MAX_ELAPSED_TIME"),
    (budget.maxStageAttempts < projected.stageAttempts, "MAX_STAGE_ATTEMPTS"),
    (budget.maxSources < projected.sources, "MAX_SOURCES"),
    (budget.maxDocumentChunks < projected.documentChunks, "MAX_DOCUMENT_CHUNKS")]

/-- `checkRunBudget(budget, usage, next)`: the violations; the call is allowed if there are none.
    The cost limit of a budget is a finite number. -/
def checkRunBudget (budget : BudgetSnapshot) (usage : RunUsage) (next : NextUsage) : List String :=
  let projected := usage.add next.toUsageCounts
  ((budget.checks projected).filter (·.1)).map (·.2) ++
    if usage.providerRequests < projected.providerRequests ∧
        next.costStatus.getD usage.costStatus = .unknown then ["UNKNOWN_MODEL_COST"] else []

/-- An allowed call leaves room for itself. -/
theorem checkRunBudget_providerRequests {budget : BudgetSnapshot} {usage : RunUsage}
    {next : NextUsage} (h : checkRunBudget budget usage next = []) :
    usage.providerRequests + next.providerRequests ≤ budget.maxProviderRequests := by
  obtain ⟨h, _⟩ := List.append_eq_nil_iff.mp h
  have hnone := List.filter_eq_nil_iff.mp (List.map_eq_nil_iff.mp h)
  have hfirst := hnone (_, "MAX_PROVIDER_REQUESTS") List.mem_cons_self
  exact Nat.le_of_not_lt fun hlt => hfirst (decide_eq_true hlt)

end ResearchWorkbench
