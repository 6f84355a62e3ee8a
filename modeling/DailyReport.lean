import DailyReport.Archive.Diff
import DailyReport.Archive.RoundTrip
import DailyReport.Cache.Exact
import DailyReport.Contract.Artifact
import DailyReport.Contract.AuditValid
import DailyReport.Contract.Provenance
import DailyReport.Contract.Request
import DailyReport.Contract.SamplePages
import DailyReport.Discovery.Agree
import DailyReport.Excerpts.Complete
import DailyReport.Excerpts.Order
import DailyReport.Excerpts.Provenance
import DailyReport.Excerpts.Validity
import DailyReport.Lib.Calendar
import DailyReport.Lib.Chunk
import DailyReport.Lib.Exec
import DailyReport.Lib.Keyed
import DailyReport.Lib.Like
import DailyReport.Lib.Lineage
import DailyReport.Lib.Path
import DailyReport.Lib.RoundRobin
import DailyReport.Lib.Rows
import DailyReport.Lib.Separated
import DailyReport.Lib.Stamps
import DailyReport.Lib.Transitions
import DailyReport.Lib.Worklist
import DailyReport.OfficeParser.SharedStrings
import DailyReport.OfficeParser.Landing
import DailyReport.OfficeParser.PreviewValid
import DailyReport.OfficeParser.Truthful
import DailyReport.ParseCache.Outcome
import DailyReport.Personal.Finish
import DailyReport.Reports.Accounts
import DailyReport.Reports.Alerts
import DailyReport.Reports.Fingerprints
import DailyReport.Reports.Paragraphs
import DailyReport.Reports.Restarted
import DailyReport.Reports.Replay
import DailyReport.Reports.Search
import DailyReport.Scanner.Admission
import DailyReport.Scanner.Discovered
import DailyReport.Scanner.HeadTail
import DailyReport.Scanner.LedgerOrder
import DailyReport.Scanner.NominalOrder
import DailyReport.Scanner.PoolRuns
import DailyReport.Scanner.RenderBudget
import DailyReport.Scanner.RenderIssues
import DailyReport.Scanner.Rendering
import DailyReport.Scanner.SlotOrder
import DailyReport.Scheduler.Classify
import DailyReport.Scheduler.ClassifyFates
import DailyReport.Scheduler.Coherence
import DailyReport.Scheduler.Deadline
import DailyReport.Scheduler.Execute
import DailyReport.Scheduler.Finished
import DailyReport.Scheduler.Projections
import DailyReport.Scheduler.RenderedReserved
import DailyReport.Scheduler.Stopped
import DailyReport.Scheduler.Suppressed
import DailyReport.Store.Artifacts
import DailyReport.Store.Effects
import DailyReport.Store.Exactness
import DailyReport.Store.Exclusion
import DailyReport.Store.LeaseMachine
import DailyReport.Store.Requests
import DailyReport.Store.Survival
import DailyReport.TextParser.CsvAgree
import DailyReport.TextParser.Flag
import DailyReport.TextParser.LogTail
import DailyReport.TextParser.Quotes
import DailyReport.TextParser.Validity
import DailyReport.TextParser.Windows
