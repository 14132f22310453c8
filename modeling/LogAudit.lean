import LogAudit.CommandLine
import LogAudit.Main
import LogAudit.Resource.Gate
import LogAudit.Resource.Pool
import LogAudit.Sql.Collection
import LogAudit.Proofs.Access.FirstMatch
import LogAudit.Proofs.Audit.Collected
import LogAudit.Proofs.Line.TimeStyle
import LogAudit.Proofs.Audit.SessionOrder
import LogAudit.Proofs.Line.Composition
import LogAudit.Proofs.Line.RoundTrip
import LogAudit.Ingest.Board
import LogAudit.Ingest.Task
import LogAudit.Proofs.Ingest.LogicalLines
import LogAudit.Proofs.Ingest.Posts
import LogAudit.Proofs.Ingest.Threads
import LogAudit.Proofs.Ingest.Runs
import LogAudit.Audit.Collector
import LogAudit.Proofs.Sql.Pairs
import LogAudit.Proofs.Sql.Nodes
import LogAudit.Proofs.Sql.Extraction
import LogAudit.Proofs.Audit.AllOrNothing
import LogAudit.Ingest.Incident
import LogAudit.Proofs.Resource.Gates
import LogAudit.Proofs.Ingest.Permits
import LogAudit.Json.Read
import LogAudit.Proofs.Json.RoundTrip
import LogAudit.Proofs.Text.Encoding
import LogAudit.Proofs.Ingest.Failures
import LogAudit.Proofs.Ingest.Ledger
import LogAudit.Proofs.Disk
import LogAudit.Proofs.Ingest.ErrorFile
import LogAudit.Proofs.Ingest.Histories
import LogAudit.Proofs.Ingest.Accounts
import LogAudit.Proofs.Text.Order
import LogAudit.Proofs.Ingest.Totals
import LogAudit.Proofs.Ingest.Agreement
import LogAudit.Proofs.Ingest.Faults
import LogAudit.Proofs.Ingest.Completion
import LogAudit.Proofs.Audit.Setup
import LogAudit.Proofs.Audit.FailFast
import LogAudit.Proofs.Ingest.FileLines
import LogAudit.Proofs.Audit.SampleGate
import LogAudit.Proofs.Ingest.TaskRuns
import LogAudit.Proofs.Ingest.Continuations
import LogAudit.Proofs.Ingest.Batches
import LogAudit.Proofs.Ingest.ChunkAccounts
import LogAudit.Proofs.Ingest.SampleRatio
import LogAudit.Proofs.Ingest.Dispatch
import LogAudit.Proofs.Ingest.CutSamples
import LogAudit.Proofs.Ingest.SingleBatch
import LogAudit.Proofs.Ingest.Containment
import LogAudit.Proofs.Ingest.Cancellation
import LogAudit.Proofs.Text.Search
import LogAudit.Proofs.Line.Layout
import LogAudit.Proofs.Line.Acceptance
import LogAudit.Audit.Sharing
import LogAudit.Line.SharedReader
import LogAudit.Proofs.Line.Accessors
import LogAudit.Proofs.Audit.Sharing
import LogAudit.Line.Compilation
import LogAudit.Proofs.Line.Compilation
import LogAudit.Proofs.Time.Calendar
import LogAudit.Proofs.Time.Written
import LogAudit.Proofs.Time.Timestamps
import LogAudit.Proofs.Sql.Contexts
import LogAudit.Proofs.Sql.Subqueries
import LogAudit.Proofs.Sql.Rewriting
import LogAudit.Proofs.Network.Prefixes
import LogAudit.Proofs.Network.Reading
import LogAudit.Proofs.Access.Networks
import LogAudit.Proofs.Access.Coverage
import LogAudit.Proofs.Text.Occurrences
import LogAudit.Proofs.Audit.Passwords
import LogAudit.Proofs.Audit.Users
import LogAudit.Proofs.Ingest.Chunks
import LogAudit.Proofs.Resource.Pools
