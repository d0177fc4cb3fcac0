import IvrmDashboard.Foundations.Sql.Logic
import IvrmDashboard.Foundations.Sql.Text
import IvrmDashboard.Foundations.Sql.Timestamp
import IvrmDashboard.Foundations.Sql.Jsonb
import IvrmDashboard.Foundations.Sql.ToJsonb
import IvrmDashboard.Foundations.HashChain
import IvrmDashboard.Foundations.Sql.Result
import IvrmDashboard.Operations.Audit
import IvrmDashboard.Operations.AuditChain
import IvrmDashboard.Operations.Jobs
import IvrmDashboard.Foundations.Sql.Table
import IvrmDashboard.Foundations.Sql.ByKey
import IvrmDashboard.Foundations.Sql.Unique
import IvrmDashboard.Operations.Enqueue
import IvrmDashboard.Operations.McMain
import IvrmDashboard.Foundations.Runs
import IvrmDashboard.Operations.Steps
import IvrmDashboard.Operations.Invariants
import IvrmDashboard.Operations.EventLog
import IvrmDashboard.Operations.Ownership
import IvrmDashboard.Operations.Failures
import IvrmDashboard.Operations.Exclusivity
import IvrmDashboard.Operations.LapsedLease
import IvrmDashboard.Foundations.ReplayWindow
import IvrmDashboard.Operations.AgentAuth
import IvrmDashboard.Operations.AgentReplay
import IvrmDashboard.Foundations.Spool
import IvrmDashboard.Lifecycle.Helper
import IvrmDashboard.Lifecycle.Worker
import IvrmDashboard.Lifecycle.System
import IvrmDashboard.Lifecycle.AtMostOnce
import IvrmDashboard.Notifications.Settings
import IvrmDashboard.Notifications.Board
import IvrmDashboard.Notifications.Signals
import IvrmDashboard.Notifications.Outbox
import IvrmDashboard.Notifications.StatusQueue
import IvrmDashboard.Notifications.World
import IvrmDashboard.Foundations.Lines
import IvrmDashboard.Notifications.Steps
import IvrmDashboard.Notifications.Calls
import IvrmDashboard.Notifications.Order
import IvrmDashboard.Notifications.Episodes
import IvrmDashboard.Notifications.Announced
import IvrmDashboard.Notifications.Loss
import IvrmDashboard.Notifications.Dedupe
import IvrmDashboard.Notifications.StatusOrder
import IvrmDashboard.Notifications.ChannelOff
import IvrmDashboard.Notifications.Poison
import IvrmDashboard.Foundations.Newest
import IvrmDashboard.Cloud.Monitor
import IvrmDashboard.Cloud.Merge
import IvrmDashboard.Backups.Runs
import IvrmDashboard.Foundations.Switch
import IvrmDashboard.Notifications.Scheduled
import IvrmDashboard.Notifications.LevelTriggered
import IvrmDashboard.Backups.Growth
import IvrmDashboard.Backups.Reported
import IvrmDashboard.Foundations.Js.Text
import IvrmDashboard.StatusCenter.Tables
import IvrmDashboard.StatusCenter.Incidents
import IvrmDashboard.StatusCenter.Notices
import IvrmDashboard.StatusCenter.Calls
import IvrmDashboard.StatusCenter.Invariants
import IvrmDashboard.StatusCenter.Replay
import IvrmDashboard.StatusCenter.Timeline
import IvrmDashboard.StatusCenter.Feed
import IvrmDashboard.StatusCenter.PublicLife
import IvrmDashboard.StatusCenter.FeedReader
import IvrmDashboard.StatusCenter.FeedParses
import IvrmDashboard.Discord.OAuthSound
import IvrmDashboard.Discord.OneLive
import IvrmDashboard.Foundations.FirstPerKey
import IvrmDashboard.Monitoring.Complete
import IvrmDashboard.Reliability.PastFixed
import IvrmDashboard.Foundations.Js.Json
import IvrmDashboard.Foundations.DateTime
import IvrmDashboard.Monitoring.InventoryMonotone
import IvrmDashboard.Monitoring.InventoryAgrees
import IvrmDashboard.BackupHost.World
import IvrmDashboard.BackupHost.Producer
import IvrmDashboard.BackupHost.Commands
import IvrmDashboard.BackupHost.SavesRestored
import IvrmDashboard.BackupHost.FrozenArchives
import IvrmDashboard.Operations.AllowList
import IvrmDashboard.Operations.Reaper
import IvrmDashboard.Foundations.Intervals
import IvrmDashboard.Reliability.Downtime
import IvrmDashboard.Foundations.Doubles
import IvrmDashboard.Reliability.Budgets
import IvrmDashboard.Reliability.UncoveredTime
import IvrmDashboard.Reliability.BurnRates
import IvrmDashboard.Reliability.MissingStarts
import IvrmDashboard.Foundations.Js.Number
import IvrmDashboard.Monitoring.Incidents
import IvrmDashboard.Foundations.OpenSpans
import IvrmDashboard.Monitoring.Episodes
import IvrmDashboard.Monitoring.IncidentsAgree
import IvrmDashboard.Backups.Health
import IvrmDashboard.Foundations.DeltaEncoding
import IvrmDashboard.Monitoring.ContainerEvents
import IvrmDashboard.Monitoring.DeltaEncoded
import IvrmDashboard.StatusCenter.Announced
import IvrmDashboard.StatusCenter.Constraints
import IvrmDashboard.StatusCenter.Fits
import IvrmDashboard.Foundations.Feeds
import IvrmDashboard.HostAgent.MinecraftStatus
import IvrmDashboard.Operations.SensitiveKeys
import IvrmDashboard.Foundations.Peaks
import IvrmDashboard.Reliability.BurnHistory
import IvrmDashboard.Reliability.WorstBuckets
import IvrmDashboard.Foundations.Keyset
import IvrmDashboard.Monitoring.EventPages
import IvrmDashboard.Monitoring.EventsRead
import IvrmDashboard.Backups.HistoryPages
import IvrmDashboard.Backups.HistoryRead
import IvrmDashboard.Monitoring.CompleteReads
import IvrmDashboard.Monitoring.Capacity
import IvrmDashboard.Monitoring.CapacityAlerts
import IvrmDashboard.Foundations.Bands
import IvrmDashboard.Foundations.Sweeps
import IvrmDashboard.Monitoring.Overlays
import IvrmDashboard.Monitoring.OverlayBands
import IvrmDashboard.Monitoring.OverlayMerge
import IvrmDashboard.Foundations.Tailing
import IvrmDashboard.ConsoleLogs.Accepted
import IvrmDashboard.ConsoleLogs.Following
import IvrmDashboard.ConsoleLogs.Polling
