import IvrmDashboard.Foundations.Js.Throws
import IvrmDashboard.Foundations.Keyset
import IvrmDashboard.Backups.Reported

/-!
# The pages of the backup history

The console reads the runs of a range in pages of 500, the last started first, and at most a
thousand pages. A run is in the range by its completion, or by its start while it has none; the
cursor is the start and the id of the last run it has got.
-/

namespace IvrmDashboard.Backups

open Sql Notifications Keyset

/-! ## The query -/

/-- A run with its host. -/
structure ListedRun where
  run : BackupRun
  serverId : String
  displayName : String

/-- `backup_runs join hosts on hosts.id = runs.host_id` -/
def listedRuns (w : MonitorWorld) : List ListedRun :=
  w.runs.filterMap fun r =>
    (w.settings.hosts.find? (·.id = r.scope.hostId)).map fun h => ⟨r, h.serverId, h.displayName⟩

/-- The arguments of `get_backup_runs_v2`. -/
structure HistoryArguments where
  range : String
  limit : ℤ
  beforeStartedAt : Option ℤ
  beforeId : Option ℤ

/-- `case p_range when '24h' then interval '24 hours' … else interval '30 days' end` -/
def historyInterval : String → ℤ
  | "24h" => day
  | "7d" => 7 * day
  | _ => 30 * day

/-- `(runs.started_at, runs.id) < (p_before_started_at, p_before_id)` -/
def HistoryArguments.isAfter (p : HistoryArguments) (r : ListedRun) : Bool :=
  p.beforeStartedAt.all fun t =>
    r.run.startedAt < t || (r.run.startedAt = t && p.beforeId.any ((r.run.id : ℤ) < ·))

/-- `order by runs.started_at desc, runs.id desc` -/
def lastStartedFirst (a b : ListedRun) : Bool :=
  b.run.startedAt < a.run.startedAt ||
    (b.run.startedAt = a.run.startedAt && b.run.id ≤ a.run.id)

/-- `get_backup_runs_v2` -/
def getBackupRunsV2 (w : MonitorWorld) (now : ℤ) (p : HistoryArguments) :
    Except DbError (List ListedRun) := do
  raiseIf (p.range ∉ ["24h", "7d", "30d"] || p.limit < 1 || 500 < p.limit ||
    (p.beforeStartedAt.isNone != p.beforeId.isNone)) (.raised "backup_history_query_invalid" "22023")
  let since := now - historyInterval p.range
  return (orderBy lastStartedFirst ((listedRuns w).filter fun r =>
    since ≤ r.run.completedAt.getD r.run.startedAt && p.isAfter r)).take p.limit.toNat

/-! ## The reader -/

/-- A row as JSON. -/
structure HistoryPayload where
  rowId : ℤ
  runId : String
  hostId : String
  serverId : String
  hostDisplayName : String
  backupTarget : String
  gameMode : String
  backupType : String
  destinationType : String
  startedAt : String
  completedAt : Option String
  outcome : String
  durationSeconds : Option ℤ
  sizeBytes : Option ℤ
  sha256Verified : Option Bool
  remoteSyncedAt : Option String
  restoreTestedAt : Option String
  retentionExpiresAt : Option String
  failureCode : Option String

/-- What PostgREST makes of a row. -/
def ListedRun.payload (r : ListedRun) : HistoryPayload where
  rowId := r.run.id
  runId := r.run.runId.text
  hostId := r.run.scope.hostId.text
  serverId := r.serverId
  hostDisplayName := r.displayName
  backupTarget := r.run.scope.backupTarget
  gameMode := r.run.scope.gameMode
  backupType := r.run.scope.backupType
  destinationType := r.run.destinationType
  startedAt := jsonTimestamptz r.run.startedAt
  completedAt := r.run.completedAt.map jsonTimestamptz
  outcome := r.run.outcome.text
  durationSeconds := r.run.durationSeconds
  sizeBytes := r.run.sizeBytes
  sha256Verified := r.run.sha256Verified
  remoteSyncedAt := r.run.remoteSyncedAt.map jsonTimestamptz
  restoreTestedAt := r.run.restoreTestedAt.map jsonTimestamptz
  retentionExpiresAt := r.run.retentionExpiresAt.map jsonTimestamptz
  failureCode := r.run.failureCode

/-- `text`: a text of the length, and not empty -/
def textOk (maximum : ℕ) (value : String) : Bool := 0 < Js.length value && Js.length value ≤ maximum

/-- The run that an accepted row is read as. -/
def HistoryPayload.run (row : HistoryPayload) : HistoryPayload :=
  { row with failureCode := row.failureCode.filter (textOk 256) }

/-- `integer`: a number that is exact -/
def integerOk (value : ℤ) : Bool := -9007199254740991 ≤ value && value ≤ 9007199254740991

/-- `BackupRange` -/
inductive BackupRange
  | day
  | week
  | month
  deriving DecidableEq

def BackupRange.text : BackupRange → String
  | day => "24h"
  | week => "7d"
  | month => "30d"

/-- What one page read finds: the tables, and the time of the statement. -/
structure HistoryRead where
  world : IngestWorld
  now : ℤ

/-- A refused call is answered with this status. -/
def badRequest : String := "get_backup_runs_v2が400を返しました"

section

variable [Readings]

open Readings (dateParse timestamptz)

/-- `timestamp`, and `nullableTimestamp` -/
def timestampOk (value : String) : Bool := value ≠ "" && (dateParse value).isSome

/-- A row passes `parseHistoryRows`. -/
def HistoryPayload.accepted (row : HistoryPayload) : Bool :=
  integerOk row.rowId && 1 ≤ row.rowId && textOk 36 row.runId && uuidPattern row.runId &&
    textOk 36 row.hostId && uuidPattern row.hostId && textOk 64 row.serverId &&
    textOk 256 row.hostDisplayName && textOk 64 row.backupTarget && textOk 64 row.gameMode &&
    textOk 256 row.backupType && row.backupType ∈ backupTypes &&
    textOk 256 row.destinationType && row.destinationType ∈ destinationTypes &&
    timestampOk row.startedAt && row.completedAt.all timestampOk &&
    textOk 256 row.outcome && (Outcome.ofText? row.outcome).isSome &&
    row.durationSeconds.all integerOk && row.sizeBytes.all integerOk &&
    row.remoteSyncedAt.all timestampOk && row.restoreTestedAt.all timestampOk &&
    row.retentionExpiresAt.all timestampOk &&
    row.failureCode.all fun code => !textOk 256 code || code ∈ failureCodes

/-- `parseHistoryRows` -/
def parseHistoryRows (rows : List HistoryPayload) : Except String (List HistoryPayload) := do
  Js.throwIf (rows.any fun row => !row.accepted) "Backup履歴レスポンス形式が不正です"
  return rows.map (·.run)

/-- The arguments of a call; the cursor is cast from its text. -/
def historyArguments (range : BackupRange) (before : Option (String × ℤ)) :
    Option HistoryArguments := do
  let beforeStartedAt ←
    match before with
    | none => some none
    | some c => (timestamptz c.1).map some
  return {
    range := range.text
    limit := 500
    beforeStartedAt
    beforeId := before.map (·.2) }

/-- A page: the call, and the reader of its answer. -/
def fetchHistoryPage (read : HistoryRead) (range : BackupRange) (before : Option (String × ℤ)) :
    Except String (List HistoryPayload) := do
  let p ← Js.orThrow (historyArguments range before) badRequest
  match getBackupRunsV2 read.world.monitor read.now p with
  | .error _ => .error badRequest
  | .ok rows => parseHistoryRows (rows.map (·.payload))

/-- `getAllBackupHistory` -/
def getAllBackupHistory (reads : ℕ → HistoryRead) (range : BackupRange) :
    Except String (List HistoryPayload) := do
  let history ← Keyset.collect (fun n => fetchHistoryPage (reads n) range)
    (fun row => (row.startedAt, row.rowId)) 500 1000 0 none
  Js.orThrow history "Backup履歴がページ上限を超えました"

end

end IvrmDashboard.Backups
