import IvrmDashboard.Backups.Runs
import IvrmDashboard.Foundations.Runs
import IvrmDashboard.Notifications.Origins

/-!
# The scheduled reconciliation

Once a minute the latest heartbeat of every enabled host and the latest successful backup of every
enabled policy are compared with their limits, and what is found is reported to the signals. A
report carries the time of its evidence: the moment at which a limit was passed, or the heartbeat or
backup that is in order.
-/

namespace IvrmDashboard.Notifications

open Sql Operations Backups

/-! ## Heartbeats -/

/-- A row of `agent_heartbeats`. -/
structure Heartbeat where
  id : ℕ
  hostId : Uuid
  receivedAt : ℤ
  deriving DecidableEq

/-- The time of the latest heartbeat of a host. -/
def latestHeartbeat (heartbeats : List Heartbeat) (hostId : Uuid) : Option ℤ :=
  (firstBy (newerFirst (·.receivedAt) (·.id))
    (heartbeats.filter (·.hostId = hostId))).map (·.receivedAt)

/-- `v_age_seconds > 45` -/
def heartbeatOverdue (now receivedAt : ℤ) : Bool := 45 * second < now - receivedAt

/-- `v_age_seconds > 180` -/
def heartbeatLost (now receivedAt : ℤ) : Bool := 180 * second < now - receivedAt

/-- A report about the heartbeat of a host. -/
def heartbeatSignal (h : MonitoredHost) (active : Bool) (severity : Level) (occurredAt : ℤ)
    (reason : String) : SignalParams where
  signalKey := some (Origin.heartbeat h.id).signalKey
  sourceType := some "host"
  hostId := some h.id
  serverId := some h.serverId
  entityType := some "host"
  entityKey := some h.id.text
  entityName := some h.displayName
  signalType := some "heartbeat"
  active := some active
  severity := some severity.text
  occurredAt := some (.ofInstant occurredAt)
  reason := some reason
  title := some (h.displayName ++ " / Heartbeat")
  detailHref := some ("/hosts/" ++ h.serverId ++ "?range=24h")

/-- What is reported of a host whose latest heartbeat came at `receivedAt`. -/
def heartbeatSignals (now : ℤ) (h : MonitoredHost) (receivedAt : ℤ) : List SignalParams :=
  if heartbeatOverdue now receivedAt then
    heartbeatSignal h true .warning (receivedAt + 45 * second)
        "Heartbeatが45秒以上更新されていません" ::
      if heartbeatLost now receivedAt then
        [heartbeatSignal h true .critical (receivedAt + 180 * second)
          "Heartbeatが180秒以上更新されていません"]
      else []
  else [heartbeatSignal h false .warning receivedAt "Heartbeat受信を確認しました"]

/-! ## Backups -/

/-- What a policy promises about its backups. -/
inductive Sla
  | backupAge
  | remoteSync
  | retention
  | restoreTest
  deriving DecidableEq

/-- The signal of a promise. -/
def Sla.kind : Sla → BackupSignal
  | .backupAge => .backupAge
  | .remoteSync => .remoteSync
  | .retention => .retention
  | .restoreTest => .restoreTest

/-- The last part of the title. -/
def Sla.title : Sla → String
  | .backupAge => " / Backup Age"
  | .remoteSync => " / Remote Sync"
  | .retention => " / Retention"
  | .restoreTest => " / Restore Test"

/-- `v_base_signal_key || ':' || …` -/
def slaSignalKey (p : BackupPolicy) (x : Sla) : String :=
  (Origin.backup p.hostId p.backupTarget p.gameMode p.backupType x.kind).signalKey

/-- A report about the backups of a scope. -/
def backupSignal (serverId : String) (x : BackupScope) (kind : BackupSignal) (label : String)
    (active : Bool) (severity : Level) (occurredAt : ℤ) (reason : String) : SignalParams where
  signalKey :=
    some (Origin.backup x.hostId x.backupTarget x.gameMode x.backupType kind).signalKey
  sourceType := some "backup"
  hostId := some x.hostId
  serverId := some serverId
  entityType := some "backup"
  entityKey := some (backupEntityKey x.hostId x.backupTarget x.gameMode x.backupType)
  entityName := some x.backupTarget
  signalType := some kind.text
  active := some active
  severity := some severity.text
  occurredAt := some (.ofInstant occurredAt)
  reason := some reason
  title := some (x.backupTarget ++ label)
  detailHref := some ("/backups?range=24h#backup-target-" ++ x.hostId.text ++ "-" ++
    x.backupTarget ++ "-" ++ x.gameMode ++ "-" ++ x.backupType)

/-- A report about a promise of a policy. -/
def slaSignal (h : MonitoredHost) (p : BackupPolicy) (x : Sla) (active : Bool) (severity : Level)
    (occurredAt : ℤ) (reason : String) : SignalParams :=
  backupSignal h.serverId (policyScope p) x.kind x.title active severity occurredAt reason

/-- `v_age_seconds > v_backup.warning_after_seconds` -/
def backupLate (now : ℤ) (p : BackupPolicy) (s : Success) : Bool :=
  p.warningAfterSeconds * second < now - s.completedAt

/-- `v_age_seconds > v_backup.critical_after_seconds` -/
def backupLost (now : ℤ) (p : BackupPolicy) (s : Success) : Bool :=
  p.criticalAfterSeconds * second < now - s.completedAt

/-- The remote copy is required and late. -/
def remoteSyncLate (now : ℤ) (p : BackupPolicy) (s : Success) : Bool :=
  p.remoteSyncRequired && s.remoteSyncedAt.isNone &&
    s.completedAt + p.remoteSyncWarningSeconds * second < now

/-- `v_backup.retention_expires_at <= v_now` -/
def retentionOver (now : ℤ) (s : Success) : Bool := s.retentionExpiresAt.any (· ≤ now)

/-- The restore test is late: counted from the test of the run, or from its completion. -/
def restoreTestLate (now : ℤ) (p : BackupPolicy) (s : Success) : Bool :=
  s.restoreTestedAt.getD s.completedAt + p.restoreTestWarningSeconds * second < now

/-- The promise is broken at the moment. -/
def Sla.broken (now : ℤ) (p : BackupPolicy) (s : Success) : Sla → Bool
  | .backupAge => backupLate now p s
  | .remoteSync => remoteSyncLate now p s
  | .retention => retentionOver now s
  | .restoreTest => restoreTestLate now p s

/-- What is reported of a promise of a policy whose latest successful run is `s`. -/
def slaSignals (now : ℤ) (h : MonitoredHost) (p : BackupPolicy) (s : Success) :
    Sla → List SignalParams
  | .backupAge =>
    if backupLate now p s then
      slaSignal h p .backupAge true .warning (s.completedAt + p.warningAfterSeconds * second)
          "最新成功BackupがWarning SLAを超過しました" ::
        if backupLost now p s then
          [slaSignal h p .backupAge true .critical (s.completedAt + p.criticalAfterSeconds * second)
            "最新成功BackupがCritical SLAを超過しました"]
        else []
    else [slaSignal h p .backupAge false .warning s.completedAt "最新成功BackupはSLA内です"]
  | .remoteSync =>
    if remoteSyncLate now p s then
      [slaSignal h p .remoteSync true .warning
        (s.completedAt + p.remoteSyncWarningSeconds * second) "Remote SyncがSLA内に完了していません"]
    else
      [slaSignal h p .remoteSync false .warning (s.remoteSyncedAt.getD s.completedAt)
        (if p.remoteSyncRequired then "Remote Sync完了を確認しました"
          else "Remote Syncは必須ではありません")]
  | .retention =>
    match s.retentionExpiresAt with
    | some t =>
      if t ≤ now then
        [slaSignal h p .retention true .critical t "最新成功BackupのRetention期限を超過しました"]
      else [slaSignal h p .retention false .warning s.completedAt "Retention期限は有効です"]
    | none => [slaSignal h p .retention false .warning s.completedAt "Retention期限は有効です"]
  | .restoreTest =>
    match s.restoreTestedAt with
    | none =>
      if s.completedAt + p.restoreTestWarningSeconds * second < now then
        [slaSignal h p .restoreTest true .warning
          (s.completedAt + p.restoreTestWarningSeconds * second)
          "Restore Testが長期間実施されていません"]
      else
        [slaSignal h p .restoreTest false .warning s.completedAt "Restore Test警告SLA内です"]
    | some t =>
      if t + p.restoreTestWarningSeconds * second < now then
        [slaSignal h p .restoreTest true .warning (t + p.restoreTestWarningSeconds * second)
          "Restore Testの鮮度がWarning SLAを超過しました"]
      else
        [slaSignal h p .restoreTest false .warning t "Restore Testの鮮度を確認しました"]

/-! ## The tables -/

/-- The tables the reconciliation reads and writes, with the next values of the identity columns. -/
structure MonitorWorld where
  settings : Settings
  board : Board
  heartbeats : List Heartbeat
  runs : List BackupRun
  nextHeartbeatId : ℕ
  nextRunId : ℕ
  nextPolicyId : ℕ

namespace MonitorWorld

/-- Nothing is registered yet. -/
def initial : MonitorWorld :=
  ⟨⟨[], [], [], [], [⟨1, .discord, false, false⟩]⟩, .empty, [], [], 1, 1, 1⟩

def env (w : MonitorWorld) (now : ℤ) : Env := ⟨now, w.settings⟩

/-- The host of a policy, if it is enabled. -/
def hostOf (w : MonitorWorld) (p : BackupPolicy) : Option MonitoredHost :=
  w.settings.hosts.find? fun h => h.id = p.hostId && h.enabled

/-- What the first loop reports. -/
def hostSignals (w : MonitorWorld) (now : ℤ) (h : MonitoredHost) : List SignalParams :=
  match latestHeartbeat w.heartbeats h.id with
  | none => []
  | some receivedAt => heartbeatSignals now h receivedAt

/-- What the second loop reports. -/
def policySignals (w : MonitorWorld) (now : ℤ) (p : BackupPolicy) : List SignalParams :=
  match w.hostOf p, latestSuccess w.runs p with
  | some h, some s =>
    slaSignals now h p s .backupAge ++ slaSignals now h p s .remoteSync ++
      slaSignals now h p s .retention ++ slaSignals now h p s .restoreTest
  | _, _ => []

/-- All reports of a pass. -/
def scheduledSignals (w : MonitorWorld) (now : ℤ) : List SignalParams :=
  (w.settings.hosts.filter (·.enabled)).flatMap (w.hostSignals now) ++
    (w.settings.policies.filter (·.enabled)).flatMap (w.policySignals now)

/-- The hosts whose heartbeat is overdue. -/
def overdueHosts (w : MonitorWorld) (now : ℤ) : List MonitoredHost :=
  w.settings.hosts.filter fun h =>
    h.enabled && (latestHeartbeat w.heartbeats h.id).any (heartbeatOverdue now)

end MonitorWorld

/-- One report of the pass. -/
def applyScheduled (e : Env) (b : Board) (p : SignalParams) : Except DbError Board :=
  (applyNotificationSignal e p b).map (·.2)

/-- `reconcile_notification_scheduled_signals_v1` -/
def reconcileNotificationScheduledSignals (now : ℤ) (w : MonitorWorld) :
    Except DbError (ℕ × MonitorWorld) := do
  let board ← (w.scheduledSignals now).foldlM (applyScheduled (w.env now)) w.board
  return ((w.overdueHosts now).length, { w with board })

/-! ## Reports of runs -/

/-- What `notification_backup_run_trigger_v1` reports of a run. -/
def runSignals (serverId : String) (r : BackupRun) : List SignalParams :=
  let occurredAt := r.completedAt.getD r.startedAt
  let failure active severity reason :=
    backupSignal serverId r.scope .runFailure " / Backup Run" active severity occurredAt reason
  let checksum active severity reason :=
    backupSignal serverId r.scope .checksum " / Checksum" active severity occurredAt reason
  (if r.outcome = .failed && r.failureCode ≠ some "checksum_failed" then
      [failure true .critical ("Backup失敗: " ++ r.failureCode.getD "unknown")]
    else if r.outcome = .success then [failure false .warning "Backup Runが成功しました"]
    else []) ++
  if r.failureCode = some "checksum_failed" ||
      (r.outcome = .success && r.sha256Verified = some false) then
    [checksum true .critical "SHA-256検証失敗を確認しました"]
  else if r.outcome = .success && r.sha256Verified = some true then
    [checksum false .warning "SHA-256検証が成功しました"]
  else []

/-- The columns of a policy that operators edit. -/
structure PolicyConfig where
  remoteSyncRequired : Bool
  enabled : Bool
  warningAfterSeconds : ℤ
  criticalAfterSeconds : ℤ
  remoteSyncWarningSeconds : ℤ
  restoreTestWarningSeconds : ℤ
  agePausedUntil : Option Timestamptz

/-- `backup_policies_sla_check` -/
def PolicyConfig.slaOk (c : PolicyConfig) : Bool :=
  60 ≤ c.warningAfterSeconds && c.warningAfterSeconds ≤ 2592000 &&
    120 ≤ c.criticalAfterSeconds && c.criticalAfterSeconds ≤ 7776000 &&
    c.warningAfterSeconds < c.criticalAfterSeconds &&
    60 ≤ c.remoteSyncWarningSeconds && c.remoteSyncWarningSeconds ≤ 2592000 &&
    3600 ≤ c.restoreTestWarningSeconds && c.restoreTestWarningSeconds ≤ 31536000

/-- The columns a policy has that a report creates. -/
def PolicyConfig.default (remoteSyncRequired : Bool) : PolicyConfig :=
  ⟨remoteSyncRequired, true, 86400, 172800, 21600, 2592000, none⟩

/-- A row of `backup_policies`. -/
def PolicyConfig.policy (c : PolicyConfig) (id : ℕ) (x : BackupScope) : BackupPolicy where
  id := id
  hostId := x.hostId
  backupTarget := x.backupTarget
  gameMode := x.gameMode
  backupType := x.backupType
  remoteSyncRequired := c.remoteSyncRequired
  enabled := c.enabled
  warningAfterSeconds := c.warningAfterSeconds
  criticalAfterSeconds := c.criticalAfterSeconds
  remoteSyncWarningSeconds := c.remoteSyncWarningSeconds
  restoreTestWarningSeconds := c.restoreTestWarningSeconds
  agePausedUntil := c.agePausedUntil

namespace MonitorWorld

/-- The tables with other policies. -/
def withPolicies (w : MonitorWorld) (policies : List BackupPolicy) : MonitorWorld :=
  { w with settings := { w.settings with policies } }

/-- The policy of a scope. -/
def policyOf (w : MonitorWorld) (x : BackupScope) : Option BackupPolicy :=
  w.settings.policies.find? (policyScope · = x)

/-- `insert into backup_policies …` -/
def insertPolicy (w : MonitorWorld) (x : BackupScope) (c : PolicyConfig) :
    Except DbError MonitorWorld := do
  checkAll [("backup_policies_scope_check", x.ok), ("backup_policies_sla_check", c.slaOk)]
  raiseIf (!w.settings.isHost x.hostId) (.foreignKeyViolation "backup_policies_host_id_fkey")
  raiseIf (w.policyOf x).isSome (.uniqueViolation "backup_policies_scope_key")
  return { w.withPolicies (w.settings.policies ++ [c.policy w.nextPolicyId x]) with
    nextPolicyId := w.nextPolicyId + 1 }

/-- The policy of a run that is reported is created, or learns that a remote copy is required. -/
def upsertPolicy (w : MonitorWorld) (r : BackupRun) : Except DbError MonitorWorld :=
  let remote := r.destinationType = "s3"
  match w.policyOf r.scope with
  | none => w.insertPolicy r.scope (.default remote)
  | some _ =>
    .ok (w.withPolicies (updateWhere (policyScope · = r.scope)
      (fun p => { p with remoteSyncRequired := p.remoteSyncRequired || remote })
      w.settings.policies))

/-- The row after a report, if the run was reported before. -/
def upsertRun (w : MonitorWorld) (r : BackupRun) : Except DbError (BackupRun × MonitorWorld) := do
  checkAll r.checks
  match w.runs.find? fun old => old.scope.hostId = r.scope.hostId && old.runId = r.runId with
  | none =>
    let row := { r with id := w.nextRunId }
    return (row, { w with runs := w.runs ++ [row], nextRunId := w.nextRunId + 1 })
  | some old =>
    checkAll (old.merge r).checks
    return (old.merge r, { w with runs := updateWhere (·.id = old.id) (·.merge r) w.runs })

/-- One run of `ingest_backup_report_v1`, with the trigger it fires. -/
def reportRun (w : MonitorWorld) (now : ℤ) (r : BackupRun) : Except DbError MonitorWorld := do
  let w ← w.upsertPolicy r
  let (row, w) ← w.upsertRun r
  match w.settings.hosts.find? (·.id = row.scope.hostId) with
  | none => return w
  | some h =>
    let board ← (runSignals h.serverId row).foldlM (applyScheduled (w.env now)) w.board
    return { w with board }

/-- What a trigger does when its condition is met. -/
def retireWhen (q : Bool) (retire : Board → Except DbError Board) (b : Board) :
    Except DbError Board :=
  if q then retire b else .ok b

/-- `update backup_policies set … where id = …`, with the trigger it fires. -/
def updatePolicy (w : MonitorWorld) (id : ℕ) (c : PolicyConfig) : Except DbError MonitorWorld := do
  checkAll [("backup_policies_sla_check", c.slaOk)]
  match w.settings.policies.find? (·.id = id) with
  | none => return w
  | some p =>
    let board ← retireWhen (p.enabled && !c.enabled) (retireBackupPolicy p) w.board
    return { w.withPolicies (updateWhere (·.id = id)
        (fun p => c.policy p.id (policyScope p)) w.settings.policies) with board }

/-- `delete from backup_policies where id = …`, with the trigger it fires. -/
def deletePolicy (w : MonitorWorld) (id : ℕ) : Except DbError MonitorWorld :=
  match w.settings.policies.find? (·.id = id) with
  | none => .ok w
  | some p => do
    let board ← retireBackupPolicy p w.board
    return { w.withPolicies (w.settings.policies.filter (·.id ≠ id)) with board }

/-- The tables with other hosts. -/
def withHosts (w : MonitorWorld) (hosts : List MonitoredHost) : MonitorWorld :=
  { w with settings := { w.settings with hosts } }

/-- `insert into hosts …` -/
def insertHost (w : MonitorWorld) (h : MonitoredHost) : Except DbError MonitorWorld := do
  raiseIf (w.settings.hosts.any (·.id = h.id)) (.uniqueViolation "hosts_pkey")
  raiseIf (w.settings.hosts.any (·.serverId = h.serverId)) (.uniqueViolation "hosts_server_id_key")
  return w.withHosts (w.settings.hosts ++ [h])

/-- `update hosts set enabled = …, display_name = … where id = …`, with the trigger it fires. -/
def updateHost (w : MonitorWorld) (id : Uuid) (enabled : Bool) (displayName : String) :
    Except DbError MonitorWorld := do
  let wasEnabled := w.settings.hosts.any fun h => h.id = id && h.enabled
  let board ← retireWhen (wasEnabled && !enabled) (retireHost id) w.board
  return { w.withHosts (updateWhere (·.id = id) (fun h => { h with enabled, displayName })
      w.settings.hosts) with board }

/-- A heartbeat. -/
def heartbeat (w : MonitorWorld) (now : ℤ) (hostId : Uuid) : Except DbError MonitorWorld := do
  raiseIf (!w.settings.isHost hostId) (.foreignKeyViolation "agent_heartbeats_host_id_fkey")
  return { w with
    heartbeats := w.heartbeats ++ [⟨w.nextHeartbeatId, hostId, now⟩]
    nextHeartbeatId := w.nextHeartbeatId + 1 }

end MonitorWorld

/-! ## Runs -/

/-- What may happen. The other users of the signals and the outbox may leave them in any state, and
operators may change what suppresses notifications. -/
inductive MonitorEvent
  | insertHost (h : MonitoredHost)
  | updateHost (id : Uuid) (enabled : Bool) (displayName : String)
  | heartbeat (hostId : Uuid)
  | reportRun (r : BackupRun)
  | insertPolicy (x : BackupScope) (c : PolicyConfig)
  | updatePolicy (id : ℕ) (c : PolicyConfig)
  | deletePolicy (id : ℕ)
  | reconcile
  | outside (board : Board) (expectations : List ContainerExpectation)
      (suppressions : List Suppression) (channels : List Channel)

/-- Something that happens, and the time the database has then. -/
structure MonitorCall where
  now : ℤ
  event : MonitorEvent

namespace MonitorWorld

/-- The tables after a call, if it commits. -/
def apply (w : MonitorWorld) (c : MonitorCall) : Except DbError MonitorWorld :=
  match c.event with
  | .insertHost h => w.insertHost h
  | .updateHost id enabled displayName => w.updateHost id enabled displayName
  | .heartbeat hostId => w.heartbeat c.now hostId
  | .reportRun r => w.reportRun c.now r
  | .insertPolicy x k => w.insertPolicy x k
  | .updatePolicy id k => w.updatePolicy id k
  | .deletePolicy id => w.deletePolicy id
  | .reconcile => (reconcileNotificationScheduledSignals c.now w).map (·.2)
  | .outside board expectations suppressions channels =>
    .ok { w with board, settings := { w.settings with expectations, suppressions, channels } }

/-- One call; one that aborts leaves the tables as they are. -/
def step (w : MonitorWorld) (c : MonitorCall) : MonitorWorld :=
  match w.apply c with
  | .ok w' => w'
  | .error _ => w

/-- The tables after a sequence of calls. -/
def run (w : MonitorWorld) (calls : List MonitorCall) : MonitorWorld := Runs.run step w calls

end MonitorWorld

/-! ## Sample runs -/

/-- `interval '1 hour'` -/
def hour : ℤ := 3600 * second

/-- A successful run of the sample host. -/
def sampleRun (runId : Uuid) (completedAt : ℤ) : BackupRun where
  id := 0
  runId := runId
  scope := ⟨sampleHost.id, "world", "survival", "world"⟩
  destinationType := "local"
  startedAt := completedAt
  completedAt := some completedAt
  outcome := .success
  durationSeconds := some 0
  sizeBytes := none
  sha256Verified := none
  remoteSyncedAt := none
  restoreTestedAt := none
  retentionExpiresAt := none
  failureCode := none

end IvrmDashboard.Notifications
