import Polymorph.Concurrency.Interleaving
import Polymorph.Concurrency.Transaction
import Polymorph.Text.Json
import Polymorph.Time.Utc
import Polymorph.Text.JsonDict
import Polymorph.Text.Base64
import Polymorph.Errors
import Polymorph.Transport.Context
import Polymorph.Transport.Record
import Polymorph.Delivery.Ledger
import Polymorph.Delivery.LedgerSpec
import Polymorph.Delivery.LedgerCalls
import Polymorph.Delivery.LedgerProvenance
import Polymorph.Model.Schema
import Polymorph.Delivery.Capabilities
import Polymorph.Delivery.Spool
import Polymorph.Delivery.Chunks
import Polymorph.Delivery.Runtime
import Polymorph.Delivery.RuntimeRules
import Polymorph.Delivery.AtMostOnce
import Polymorph.Text.JsonRoundTrip
import Polymorph.Delivery.SpoolSpec
import Polymorph.Delivery.Recoverability
import Polymorph.Transport.RoundTrip
import Polymorph.Delivery.FalseAlarm
import Polymorph.Delivery.ReplayContract
import Polymorph.Delivery.Sequential
import Polymorph.Delivery.StoreProgress
import Polymorph.Delivery.ScalarRuns
import Polymorph.Text.Sha256
import Polymorph.Time.Isoformat
import Polymorph.StandardHost
import Polymorph.Delivery.FreshDelivery
import Polymorph.Delivery.ReplayRuns
import Polymorph.Transport.Binding
import Polymorph.Source.Outbox
import Polymorph.Source.OutboxSpec
import Polymorph.Source.OutboxDurability
import Polymorph.Trust.SourceAuthority
import Polymorph.Relay.Policy
import Polymorph.Relay.Queue
import Polymorph.Relay.QueueSpec
import Polymorph.Relay.Conservation
import Polymorph.Matching.Score
import Polymorph.Matching.SequenceMatcher
import Polymorph.Matching.Deterministic
import Polymorph.Matching.Glossary
import Polymorph.Matching.Hybrid
import Polymorph.Matching.Ranking
import Polymorph.Matching.HybridSpec
import Polymorph.Planning.Plan
import Polymorph.Model.Transforms
import Polymorph.Planning.Validation
import Polymorph.Planning.Executable
import Polymorph.Matching.ModelAuthority
import Polymorph.Planning.Preflight
import Polymorph.Embed.MoveSession
import Polymorph.Embed.ReviewedRules
import Polymorph.Planning.Repair
import Polymorph.Planning.RepairSpec
import Polymorph.Planning.RepairGuarantees
import Polymorph.Relay.PoisonRows
import Polymorph.Text.JsonLayout
import Polymorph.Review.Artifact
import Polymorph.Review.ArtifactStorage
import Polymorph.Review.Apply
import Polymorph.Sync.State
import Polymorph.Sync.Accounting
import Polymorph.Text.SortedKeys
import Polymorph.Delivery.ChunkPartition
import Polymorph.Planning.PreflightAccounting
import Polymorph.Inspection.LimitScan
import Polymorph.Inspection.LimitExactness
import Polymorph.Relay.StoredLease
import Polymorph.Relay.LeaseBatch
import Polymorph.Relay.WireLimit
import Polymorph.Delivery.LedgerMigration
import Polymorph.Transport.PayloadCodec
import Polymorph.Transport.PayloadRoundTrip
import Polymorph.Model.Structure
import Polymorph.Planning.Recipes
import Polymorph.Control.Loop
import Polymorph.Text.XmlGrammar
import Polymorph.Inspection.AttributeScan
import Polymorph.Inspection.AttributeExactness
import Polymorph.Inspection.AttributeExactness
import Polymorph.Binary.Fields
import Polymorph.Inspection.ZipDirectory
import Polymorph.Inspection.ZipPreflight
import Polymorph.Inspection.Content
import Polymorph.Inspection.Gzip
import Polymorph.Inspection.GzipAdmission
import Polymorph.Control.Outcome
import Polymorph.Text.Utf8
import Polymorph.Inspection.Identify
import Polymorph.Inspection.TextProbe
import Polymorph.Binary.ChunkedSearch
import Polymorph.Connectors.FormulaScan
import Polymorph.Connectors.HttpPagination
import Polymorph.Connectors.CursorPagination
import Polymorph.Connectors.DatabaseWrite
import Polymorph.Binary.Lines
import Polymorph.Observability.Events
import Polymorph.Observability.EventStream
import Polymorph.Observability.EventRoundTrip
import Polymorph.Observability.StreamRuns
import Polymorph.Text.JsonDocument
import Polymorph.Connectors.JsonValue
import Polymorph.Connectors.JsonFile
import Polymorph.Connectors.JsonAppend
import Polymorph.Model.Whitespace
import Polymorph.Quality.Cleaning
import Polymorph.Connectors.ColumnNames
import Polymorph.Quality.CleaningPasses
import Polymorph.Relay.Fifo
import Polymorph.Delivery.StoredTimes
import Polymorph.Trust.KeyFile
import Polymorph.Trust.KeyFileErrors
import Polymorph.Text.JsonSize
import Polymorph.Trust.RecipientCertificate
import Polymorph.Trust.RecipientTrust
import Polymorph.Trust.RecipientTrustState
import Polymorph.Trust.RecipientTrustRuns
import Polymorph.Trust.SharedTrust
import Polymorph.Trust.TrustChain
import Polymorph.Crypto.HybridSealing
import Polymorph.Transport.Envelope
import Polymorph.Concurrency.Versions
import Polymorph.Trust.BatchAuthorization
import Polymorph.Agents.SourceAgent
import Polymorph.Agents.PreparedRecords
import Polymorph.Agents.DestinationAgent
import Polymorph.Agents.OpenedRecords
import Polymorph.Agents.Authenticity
import Polymorph.Audit.Log
import Polymorph.Audit.History
import Polymorph.Audit.Runs
import Polymorph.Audit.Verification
