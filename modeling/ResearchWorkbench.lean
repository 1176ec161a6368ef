import ResearchWorkbench.Storage.BoundedReads
import ResearchWorkbench.Storage.Listings
import ResearchWorkbench.Worker.Tracking
import ResearchWorkbench.Evaluation.ReleaseGate
import ResearchWorkbench.Sources.Envelopes
import ResearchWorkbench.Exports.Csv
import ResearchWorkbench.Documents.ScanVerdicts
import ResearchWorkbench.Extraction.SectionPaths
import ResearchWorkbench.Extraction.BlockKinds
import ResearchWorkbench.Extraction.DocxText
import ResearchWorkbench.Queue.RecoveryIsolation
import ResearchWorkbench.Queue.Attempts
import ResearchWorkbench.Queue.Bookkeeping
import ResearchWorkbench.Pipeline.Cancellation
import ResearchWorkbench.Pipeline.Effects
import ResearchWorkbench.Pipeline.CurrentGeneration
import ResearchWorkbench.Providers.Limits
import ResearchWorkbench.Budgets.Usage
import ResearchWorkbench.Documents.ActiveJobs
import ResearchWorkbench.Documents.Fences
import ResearchWorkbench.Documents.Extractions
import ResearchWorkbench.Migrations.System
import ResearchWorkbench.Mutations.ExactlyOnce
import ResearchWorkbench.Storage.TrackedCleanup
import ResearchWorkbench.Documents.Uploads
import ResearchWorkbench.Auth.Logins
import ResearchWorkbench.Auth.Sessions
import ResearchWorkbench.Auth.Blocks
import ResearchWorkbench.Sources.InjectionFlags
import ResearchWorkbench.Workflow.DraftSuggestions
import ResearchWorkbench.Workflow.Status
import ResearchWorkbench.Pipeline.Progress
import ResearchWorkbench.Quality.Verdicts
import ResearchWorkbench.Quality.Duplicates
import ResearchWorkbench.Quality.NumericGate
import ResearchWorkbench.Pipeline.Advancing
import ResearchWorkbench.Locks.ProjectFirst
import ResearchWorkbench.Ledger.CurrentRecords
import ResearchWorkbench.Sources.CheckpointReuse
import ResearchWorkbench.Pipeline.Histories
