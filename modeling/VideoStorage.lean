import VideoStorage.Foundation.Transaction
import VideoStorage.Foundation.AppendLog
import VideoStorage.Foundation.Json
import VideoStorage.MediaIndex.Types
import VideoStorage.MediaIndex.Repo
import VideoStorage.MediaIndex.Feed
import VideoStorage.Foundation.Outbox
import VideoStorage.Jobs.MediaPhash
import VideoStorage.Jobs.MediaImports
import VideoStorage.Jobs.Ingest
import VideoStorage.Jobs.Writers
import VideoStorage.Jobs.HashOutbox
import VideoStorage.Jobs.VisibilityOutbox
import VideoStorage.Foundation.Loop
import VideoStorage.MediaIndex.JobFailures
import VideoStorage.Jobs.MediaPhashRun
import VideoStorage.Jobs.MediaPhashCoverage
import VideoStorage.Jobs.MediaPhashFailures
import VideoStorage.Db.Queries
import VideoStorage.Jobs.Batch
import VideoStorage.Jobs.Mirror
import VideoStorage.Db.JobStates
import VideoStorage.Db.Overlap
import VideoStorage.Jobs.Worker
import VideoStorage.Videogen.Fingerprint
import VideoStorage.Foundation.Text
import VideoStorage.Videogen.Generate
import VideoStorage.Videogen.Effects
import VideoStorage.Videogen.Workflow
import VideoStorage.Videogen.Payload
import VideoStorage.Videogen.Publish
import VideoStorage.Foundation.Int64
import VideoStorage.Foundation.Retry
import VideoStorage.Videogen.Hmac
import VideoStorage.Videogen.Moderation
import VideoStorage.Videogen.Callback
import VideoStorage.Foundation.Trace
import VideoStorage.Videogen.Authentication
import VideoStorage.Videogen.RequestStore
import VideoStorage.Videogen.RequestHistory
import VideoStorage.Videogen.Draft
import VideoStorage.Videogen.CompletionRuns
import VideoStorage.Videogen.DraftBeforeClose
import VideoStorage.Foundation.Pool
import VideoStorage.Videogen.CompletionFinality
import VideoStorage.Storage.Objects
import VideoStorage.Storage.Finalize
import VideoStorage.Storage.FinalizeIntegrity
import VideoStorage.Storage.MoveToNsfw
import VideoStorage.Storage.MoveCompleteness
import VideoStorage.Foundation.Rows
import VideoStorage.Foundation.Interleaving
import VideoStorage.Foundation.Conditions
import VideoStorage.Chain.Posts
import VideoStorage.Chain.Statements
import VideoStorage.Chain.Snapshot
import VideoStorage.Chain.EarlyEnd
import VideoStorage.Chain.Completeness
import VideoStorage.Chain.Concurrent
import VideoStorage.Chain.Audit
import VideoStorage.Chain.Agreement
import VideoStorage.Jobs.Scans
import VideoStorage.Jobs.ImportRun
import VideoStorage.Jobs.ObjectRows
import VideoStorage.Jobs.Flags
import VideoStorage.Jobs.Cadence
import VideoStorage.Foundation.JsonText
import VideoStorage.Backfill.Manifest
import VideoStorage.Backfill.Plan
import VideoStorage.Backfill.Agreement
import VideoStorage.Foundation.Percent
import VideoStorage.Mirror.Duplicates
import VideoStorage.Foundation.JsonPath
import VideoStorage.Sentry.Scrub
import VideoStorage.Jobs.ImportAgreement
import VideoStorage.Jobs.ImportCompleteness
import VideoStorage.Jobs.BatchLedger
import VideoStorage.Jobs.PhashBackfill
import VideoStorage.Jobs.Settings
import VideoStorage.MediaIndex.LeaseExclusion
import VideoStorage.MediaIndex.UpsertLaws
import VideoStorage.Videogen.StagedImages
import VideoStorage.Foundation.AsyncFile
import VideoStorage.Storage.Download
import VideoStorage.Foundation.ObjectStore
import VideoStorage.Storage.ProfileImages
import VideoStorage.Storage.ProfileDeletion
import VideoStorage.Storage.ProfileErrors
import VideoStorage.Videogen.Durations
import VideoStorage.Mirror.Freshness
import VideoStorage.Chain.Exhaustion
import VideoStorage.MediaIndex.JobRuns
import VideoStorage.Chain.RunRow
import VideoStorage.Db.Audit
import VideoStorage.Db.DuplicateViews
import VideoStorage.MediaIndex.Shards
import VideoStorage.Foundation.Like
import VideoStorage.Db.ResumeKeys
import VideoStorage.Mirror.ShardArgs
import VideoStorage.Jobs.ResolveSource
import VideoStorage.Foundation.JsonPrint
import VideoStorage.Videogen.FingerprintInjective
import VideoStorage.Videogen.KeyRegistry
import VideoStorage.Foundation.BigEndian
import VideoStorage.Foundation.Usize
import VideoStorage.Media.Mp4
import VideoStorage.Media.MoovPosition
import VideoStorage.Media.Faststart
import VideoStorage.Foundation.Pieces
import VideoStorage.Media.FrameRows
import VideoStorage.Media.FrameHashes
import VideoStorage.Deploy.BackupLoop
import VideoStorage.Deploy.BackupVerification
import VideoStorage.Jobs.RetrySpacing
import VideoStorage.Jobs.SweepPasses
import VideoStorage.Foundation.Listing
import VideoStorage.Jobs.ScanCompleteness
import VideoStorage.Jobs.Pipeline
import VideoStorage.Jobs.SweepReach
import VideoStorage.Jobs.ImportKeeps
import VideoStorage.Chain.AuditRoute
import VideoStorage.Chain.CategoryChanges
import VideoStorage.Chain.Remediation
import VideoStorage.Foundation.Replica
import VideoStorage.Jobs.Replica
import VideoStorage.Foundation.Tokens
import VideoStorage.Jobs.Cancellation
import VideoStorage.Server.Signatures
import VideoStorage.Foundation.Script
import VideoStorage.Foundation.FirstMatch
import VideoStorage.Deploy.Firewall
import VideoStorage.Deploy.FirewallRuns
import VideoStorage.Deploy.Exposure
import VideoStorage.Foundation.Ledger
import VideoStorage.Jobs.JobRuns
import VideoStorage.Jobs.PhashLedger
import VideoStorage.Jobs.ImportLedger
