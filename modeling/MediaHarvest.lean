import MediaHarvest.Accounting
import MediaHarvest.Backlog
import MediaHarvest.ByteSize
import MediaHarvest.Channel
import MediaHarvest.CommandLine
import MediaHarvest.Harvest.FreshName
import MediaHarvest.Harvest.JobsFile
import MediaHarvest.Harvest.Run
import MediaHarvest.Hub.Basic
import MediaHarvest.Hub.Completion
import MediaHarvest.Hub.Dispatch
import MediaHarvest.Hub.Reception
import MediaHarvest.Job.Basic
import MediaHarvest.Job.Kinds
import MediaHarvest.Job.SubTask
import MediaHarvest.Json.Codec
import MediaHarvest.Json.Decoder
import MediaHarvest.Json.Document
import MediaHarvest.Json.Indented
import MediaHarvest.Json.Reader
import MediaHarvest.Json.Value
import MediaHarvest.Ledger.Basic
import MediaHarvest.Ledger.Keys
import MediaHarvest.Ledger.Recording
import MediaHarvest.Ledger.Retention
import MediaHarvest.Main
import MediaHarvest.Metrics
import MediaHarvest.Net.Address
import MediaHarvest.Net.Codec
import MediaHarvest.Net.Domain
import MediaHarvest.Net.Exchange
import MediaHarvest.Net.Host
import MediaHarvest.Net.Percent
import MediaHarvest.Net.Punycode
import MediaHarvest.Net.Url
import MediaHarvest.Number.Binary64
import MediaHarvest.Number.Decimal
import MediaHarvest.Number.Real64
import MediaHarvest.Retrieval.Limits
import MediaHarvest.Retrieval.Outcome
import MediaHarvest.Retrieval.Run
import MediaHarvest.Retrieval.Session
import MediaHarvest.Retrieval.State
import MediaHarvest.Retrieval.Storage
import MediaHarvest.Retrieval.TaskRun
import MediaHarvest.Retrieval.Transfer
import MediaHarvest.Settings.Basic
import MediaHarvest.Settings.Given
import MediaHarvest.Settings.Loading
import MediaHarvest.Settings.Reading
import MediaHarvest.Settings.Sources
import MediaHarvest.Settings.VariablesFile
import MediaHarvest.Sink.Basic
import MediaHarvest.Sink.FileTree
import MediaHarvest.Sink.StoragePath
import MediaHarvest.SortedMap
import MediaHarvest.Statistics.Record
import MediaHarvest.Store.Partition
import MediaHarvest.Text.Blank
import MediaHarvest.Text.Bytes
import MediaHarvest.Text.Hex
import MediaHarvest.Text.Lossy
import MediaHarvest.Text.Printable
import MediaHarvest.Text.Quoted
import MediaHarvest.Time.Codec
import MediaHarvest.Time.Instant
import MediaHarvest.Time.Rfc3339
import MediaHarvest.Time.Span
import MediaHarvest.Toml.Quoted
import MediaHarvest.Toml.Reader
import MediaHarvest.Toml.Scalar
import MediaHarvest.Toml.Value
import MediaHarvest.Wire.Field
import MediaHarvest.Wire.Message
import MediaHarvest.Wire.Records
import MediaHarvest.Wire.Varint
import MediaHarvest.Proofs.SortedMap
import MediaHarvest.Proofs.Wire.Fields
import MediaHarvest.Proofs.Accounting
import MediaHarvest.Proofs.Backlog
import MediaHarvest.Proofs.Except
import MediaHarvest.Proofs.Hub.Basic
import MediaHarvest.Proofs.Hub.Completeness
import MediaHarvest.Proofs.Hub.Completion
import MediaHarvest.Proofs.Hub.FinishedOnce
import MediaHarvest.Proofs.Hub.SentOnce
import MediaHarvest.Proofs.Wire.Keeping
import MediaHarvest.Proofs.Wire.Records
import MediaHarvest.Proofs.Hub.Executions
import MediaHarvest.Proofs.Accounting.Runs
import MediaHarvest.Proofs.Ledger.Pointers
import MediaHarvest.Proofs.Hub.Reconciling
import MediaHarvest.Proofs.Backlog.Runs
import MediaHarvest.Proofs.Hub.FailedDispatch
import MediaHarvest.Proofs.Hub.Picking
import MediaHarvest.Proofs.Hub.Attempts
import MediaHarvest.Proofs.Hub.Lifecycle
import MediaHarvest.Proofs.Hub.Schedules
import MediaHarvest.Proofs.Ledger.Stability
import MediaHarvest.Proofs.Retrieval.Triples
import MediaHarvest.Proofs.Retrieval.Consistency
import MediaHarvest.Proofs.Hub.Loads
import MediaHarvest.Proofs.Hub.Spreading
import MediaHarvest.Proofs.Hub.Recovery
import MediaHarvest.Proofs.Retrieval.Counts
import MediaHarvest.Proofs.Hub.Serving
import MediaHarvest.Proofs.Harvest.Fleet
import MediaHarvest.Proofs.Harvest.Parts
import MediaHarvest.Proofs.Harvest.RetentionReach
import MediaHarvest.Proofs.Harvest.Underway
import MediaHarvest.Proofs.Harvest.Accomplished
import MediaHarvest.Proofs.Harvest.Assignments
import MediaHarvest.Proofs.Harvest.InTurn
import MediaHarvest.Proofs.Harvest.EndToEnd
import MediaHarvest.Proofs.Ledger.History
import MediaHarvest.Proofs.Ledger.Contents
import MediaHarvest.Proofs.Retrieval.Redirects
import MediaHarvest.Proofs.Retrieval.SizeLimit
import MediaHarvest.Proofs.Retrieval.Conditional
import MediaHarvest.Proofs.Retrieval.Interruption
import MediaHarvest.Proofs.Hub.FailedFinish
import MediaHarvest.Proofs.Sink.StoragePath
import MediaHarvest.Proofs.Sink.Calls
import MediaHarvest.Proofs.Wire.Faults
import MediaHarvest.Proofs.ByteSize.Reading
import MediaHarvest.Proofs.ByteSize.Showing
import MediaHarvest.Proofs.Backlog.DeadLetters
import MediaHarvest.Proofs.Retrieval.Throughput
import MediaHarvest.Proofs.Ledger.ExecutionNames
import MediaHarvest.Proofs.Settings.Places
import MediaHarvest.Proofs.Settings.VariablesFile
import MediaHarvest.Proofs.Settings.Sections
import MediaHarvest.Proofs.Settings.Layers
