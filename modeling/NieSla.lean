import NieSla.Agent.Acknowledged
import NieSla.Agent.PendingResult
import NieSla.Agent.QueueFile
import NieSla.Agent.ResultKept
import NieSla.Agent.SelfUpdate
import NieSla.Agent.UpdateKept
import NieSla.Agent.Upload
import NieSla.Alerts.Batched
import NieSla.Alerts.Delivery
import NieSla.Alerts.HeadersKept
import NieSla.Alerts.Pending
import NieSla.Alerts.Queued
import NieSla.Alerts.WebhookHeaders
import NieSla.Auth.Credentials
import NieSla.Auth.Pending
import NieSla.Auth.Promised
import NieSla.Auth.Revocation
import NieSla.Auth.Rotated
import NieSla.Auth.Rotation
import NieSla.Auth.Sessions
import NieSla.Auth.SingleUse
import NieSla.Availability.Merge
import NieSla.Availability.Record
import NieSla.Availability.Segments
import NieSla.Backup.Archive
import NieSla.Backup.Protected
import NieSla.Backup.Restored
import NieSla.Backup.Secrets
import NieSla.Backup.Tables
import NieSla.CheckBuckets.Agreement
import NieSla.CheckBuckets.Cached
import NieSla.CheckBuckets.Gaps
import NieSla.CheckBuckets.Rows
import NieSla.CheckBuckets.Saved
import NieSla.CheckBuckets.Summaries
import NieSla.Hosts.Address
import NieSla.Hosts.Private
import NieSla.Hosts.Restricted
import NieSla.Ids.Canonical
import NieSla.Ids.Normalize
import NieSla.Latency.NoLostPoint
import NieSla.Latency.PendingBytes
import NieSla.Latency.Store
import NieSla.Latency.Submit
import NieSla.Lib.Base64
import NieSla.Lib.Blanks
import NieSla.Lib.Calendar
import NieSla.Lib.Compact
import NieSla.Lib.Counter
import NieSla.Lib.Doubles
import NieSla.Lib.Downsample
import NieSla.Lib.Fallible
import NieSla.Lib.Fifo
import NieSla.Lib.History
import NieSla.Lib.Interval
import NieSla.Lib.JsonText
import NieSla.Lib.Latest
import NieSla.Lib.Lookup
import NieSla.Lib.Newest
import NieSla.Lib.OrderedMap
import NieSla.Lib.Paging
import NieSla.Lib.Percent
import NieSla.Lib.Processes
import NieSla.Lib.Progressions
import NieSla.Lib.Replace
import NieSla.Lib.Runs
import NieSla.Lib.Scan
import NieSla.Lib.Search
import NieSla.Lib.Semver
import NieSla.Lib.Sums
import NieSla.Lib.Table
import NieSla.Lib.Trim
import NieSla.Lib.Words
import NieSla.Lib.WriteBehind
import NieSla.Lib.Xml
import NieSla.Metrics.ColumnCodecs
import NieSla.Metrics.Columns
import NieSla.Metrics.Compact
import NieSla.Metrics.Flushed
import NieSla.Metrics.History
import NieSla.Metrics.LossRuns
import NieSla.Metrics.Pings
import NieSla.Metrics.StateChecks
import NieSla.Metrics.StatePings
import NieSla.Metrics.Window
import NieSla.NodeQuality.Belongs
import NieSla.NodeQuality.Document
import NieSla.NodeQuality.Drawn
import NieSla.NodeQuality.Images
import NieSla.NodeQuality.Masking
import NieSla.NodeQuality.Report
import NieSla.NodeQuality.Screen
import NieSla.NodeQuality.Terminal
import NieSla.NodeQuality.Tokens
import NieSla.Probe.Incidents
import NieSla.Probe.Status
import NieSla.ProbeHistory.Attempts
import NieSla.ProbeHistory.Buffer
import NieSla.ProbeHistory.CompletedDays
import NieSla.ProbeHistory.Day
import NieSla.ProbeHistory.Flush
import NieSla.ProbeHistory.Kept
import NieSla.ProbeHistory.Migrated
import NieSla.ProbeHistory.Migration
import NieSla.ProbeHistory.NoLostAppend
import NieSla.ProbeHistory.Point
import NieSla.ProbeHistory.Replays
import NieSla.ProbeHistory.Retention
import NieSla.Protobuf.Agreement
import NieSla.Protobuf.Compatible
import NieSla.Protobuf.Cursor
import NieSla.Protobuf.Decoder
import NieSla.Protobuf.Json
import NieSla.Protobuf.Messages
import NieSla.Protobuf.Metrics
import NieSla.Protobuf.Received
import NieSla.Protobuf.Wire
import NieSla.R2State.Lock
import NieSla.R2State.Merged
import NieSla.R2State.Store
import NieSla.RateLimit.Calls
import NieSla.RateLimit.Window
import NieSla.Secrets.Envelope
import NieSla.Secrets.Readable
import NieSla.Secrets.Rotation
import NieSla.Status.Fallback
import NieSla.Status.Independent
import NieSla.Status.SnapshotReuse
import NieSla.Status.Summaries
import NieSla.Targets.Order
import NieSla.Targets.Ranks
import NieSla.Tasks.OneActive
import NieSla.Tasks.Operations
import NieSla.Tasks.StateMachine
import NieSla.Tasks.Store
import NieSla.Telemetry.Accounting
import NieSla.Telemetry.AvailabilityReplay
import NieSla.Telemetry.BufferMap
import NieSla.Telemetry.BufferReads
import NieSla.Telemetry.Chunks
import NieSla.Telemetry.Columns
import NieSla.Telemetry.CreditedOnce
import NieSla.Telemetry.Drain
import NieSla.Telemetry.ExportedAgain
import NieSla.Telemetry.Exports
import NieSla.Telemetry.Fencing
import NieSla.Telemetry.HourFlush
import NieSla.Telemetry.Intervals
import NieSla.Telemetry.Item
import NieSla.Telemetry.LastWriter
import NieSla.Telemetry.Lifecycle
import NieSla.Telemetry.NoLostUpdate
import NieSla.Telemetry.Reports
import NieSla.Telemetry.Series
import NieSla.Telemetry.StorageListing
import NieSla.Telemetry.TrafficReplay
import NieSla.Themes.Active
import NieSla.Themes.Declared
import NieSla.Themes.LoadsAgain
import NieSla.Themes.OneActive
import NieSla.Themes.Packages
import NieSla.Themes.Registry
import NieSla.Themes.Reread
import NieSla.Themes.Settings
import NieSla.Themes.SettingsKept
import NieSla.Traffic.Agreement
import NieSla.Traffic.Booking
import NieSla.Traffic.Conservation
import NieSla.Traffic.Displayed
import NieSla.Traffic.Ledger
import NieSla.Traffic.PeriodText
import NieSla.Traffic.Race
import NieSla.Traffic.RaceCredit
import NieSla.Traffic.Rebuild
import NieSla.Traffic.ResetDay
import NieSla.Traffic.Upgrade
import NieSla.Traffic.UpgradeKept
import NieSla.Unlock.Attributed
import NieSla.Unlock.Measured
import NieSla.Update.Precedence
import NieSla.Update.Versions
import NieSla.Usage.Capacity
import NieSla.Usage.Model
import NieSla.Util.Day
import NieSla.Util.Ids
import NieSla.Util.Number
import NieSla.Util.Text
