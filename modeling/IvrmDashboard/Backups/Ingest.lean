import IvrmDashboard.Notifications.Scheduled

/-!
# Backup reports

An agent reports its backup runs under a signature, up to twenty in one request. The route reads the
request and refuses what it cannot read (`BackupReportPayload.accepted`); the database tests the
runs once more (`RunValues.isValid`), records the request under its nonce, and merges every run into
the row it already has. All of it is one transaction: a constraint that a merged row breaks takes
the whole request back.

Texts are read on both sides: by `Date.parse` in the route, and by the casts of the database.
-/

namespace IvrmDashboard.Backups

open Sql Operations Notifications

/-- How texts are read: a time in milliseconds by `Date.parse`, a time in microseconds and an id by
the casts of the database. -/
class Readings where
  dateParse : String → Option ℤ
  timestamptz : String → Option ℤ
  uuid : String → Option Uuid

def Outcome.text : Outcome → String
  | .success => "success"
  | .failed => "failed"
  | .running => "running"
  | .unknown => "unknown"

/-- The outcome a text names. -/
def Outcome.ofText? (s : String) : Option Outcome :=
  [Outcome.success, .failed, .running, .unknown].find? fun t => t.text == s

/-! ## The request -/

/-- `BackupRunReport` -/
structure BackupRunReport where
  runId : String
  backupTarget : String
  gameMode : String
  backupType : String
  destinationType : String
  startedAt : String
  completedAt : Option String
  outcome : String
  durationSeconds : Option ℤ
  sizeBytes : Option ℤ
  sha256Verified : Option Bool
  remoteSyncedAt : Option String
  restoreTestedAt : Option String
  retentionExpiresAt : Option String
  failureCode : Option String
  deriving DecidableEq

/-- `BackupReportPayload` -/
structure BackupReportPayload where
  serverId : String
  reportedAt : String
  runs : List BackupRunReport
  deriving DecidableEq

/-- `/^[A-Za-z0-9._-]{1,64}$/` -/
def serverIdOk (s : String) : Bool :=
  Text.lengthBetween 1 64 s && s.toList.all fun c =>
    Text.upperAlpha c || Text.lowerAlpha c || Text.digit c || c ∈ "._-".toList

/-- `UUID_PATTERN` -/
def uuidPattern (s : String) : Bool :=
  let hex c := Text.hexDigit c || ('A' ≤ c && c ≤ 'F')
  s.length = 36 && s.toList.zipIdx.all fun (c, i) =>
    if i ∈ [8, 13, 18, 23] then c == '-'
    else if i = 14 then '1' ≤ c && c ≤ '5'
    else if i = 19 then c ∈ "89abAB".toList
    else hex c

/-- `/^[a-f0-9]{32}$/` -/
def nonceOk (s : String) : Bool := Text.matchesExactly Text.hexDigit 32 s

/-- `/^[a-f0-9]{64}$/` -/
def sha256Ok (s : String) : Bool := Text.matchesExactly Text.hexDigit 64 s

/-- `MAX_CLOCK_SKEW_SECONDS * 1_000` -/
def clockSkewMs : ℤ := 300000

section

variable [Readings]

open Readings

/-- A time that may be left out. -/
def readable (s : Option String) : Bool := s.all fun s => (dateParse s).isSome

/-- Evidence in the eyes of the route: after the completion, and not in the future. -/
def evidenceOk (reportTime : ℤ) (completedAt t : Option String) : Bool :=
  (t.bind dateParse).all fun t =>
    (completedAt.bind dateParse).any (· ≤ t) && t ≤ reportTime + clockSkewMs

/-- `normalizeRun` returns the run; `reportTime` is the time of the report. -/
def BackupRunReport.accepted (reportTime : ℤ) (r : BackupRunReport) : Bool :=
  let completedTime := r.completedAt.bind dateParse
  uuidPattern r.runId && nameOk r.backupTarget && nameOk r.gameMode &&
    r.backupType ∈ backupTypes && r.destinationType ∈ destinationTypes &&
    (dateParse r.startedAt).isSome && readable r.completedAt && readable r.remoteSyncedAt &&
    readable r.restoreTestedAt && readable r.retentionExpiresAt &&
    r.durationSeconds.all (fun d => 0 ≤ d && d ≤ 604800) &&
    r.sizeBytes.all (fun b => 0 ≤ b && b ≤ 9007199254740991) &&
    r.failureCode.all (· ∈ failureCodes) &&
    (Outcome.ofText? r.outcome).any (fun outcome =>
      (if outcome.ended then completedTime.isSome && r.durationSeconds.isSome
        else completedTime.isNone && r.durationSeconds.isNone) &&
      r.failureCode.isSome = (outcome = .failed)) &&
    (dateParse r.startedAt).any (fun startedTime =>
      startedTime ≤ reportTime + clockSkewMs && reportTime - 90 * 86400000 ≤ startedTime &&
      completedTime.all fun t => startedTime ≤ t && t ≤ reportTime + clockSkewMs) &&
    evidenceOk reportTime r.completedAt r.remoteSyncedAt &&
    evidenceOk reportTime r.completedAt r.restoreTestedAt &&
    (r.retentionExpiresAt.bind dateParse).all fun t => completedTime.any (· < t)

/-- `parseBackupReport` returns the request at the time `now`. -/
def BackupReportPayload.accepted (now : ℤ) (p : BackupReportPayload) : Bool :=
  serverIdOk p.serverId && 1 ≤ p.runs.length && p.runs.length ≤ 20 &&
    (dateParse p.reportedAt).any (fun reportTime =>
      (now - reportTime).natAbs ≤ clockSkewMs && p.runs.all (·.accepted reportTime)) &&
    decide (p.runs.map (·.runId)).Nodup

/-! ## The variables of the database functions -/

/-- The values of a run after their casts. -/
structure RunValues where
  runId : Uuid
  backupTarget : String
  gameMode : String
  backupType : String
  destinationType : String
  startedAt : ℤ
  completedAt : Option ℤ
  outcome : Outcome
  durationSeconds : Option ℤ
  sizeBytes : Option ℤ
  sha256Verified : Option Bool
  remoteSyncedAt : Option ℤ
  restoreTestedAt : Option ℤ
  retentionExpiresAt : Option ℤ
  failureCode : Option String

/-- `case when … then (…)::timestamptz else null end`; the cast may fail. -/
def castOptional : Option String → Option (Option ℤ)
  | none => some none
  | some s => (timestamptz s).map some

/-- The casts of a run. -/
def BackupRunReport.values? (r : BackupRunReport) : Option RunValues := do
  let runId ← uuid r.runId
  let startedAt ← timestamptz r.startedAt
  let outcome ← Outcome.ofText? r.outcome
  let completedAt ← castOptional r.completedAt
  let remoteSyncedAt ← castOptional r.remoteSyncedAt
  let restoreTestedAt ← castOptional r.restoreTestedAt
  let retentionExpiresAt ← castOptional r.retentionExpiresAt
  return {
    runId, startedAt, outcome, completedAt, remoteSyncedAt, restoreTestedAt, retentionExpiresAt
    backupTarget := r.backupTarget
    gameMode := r.gameMode
    backupType := r.backupType
    destinationType := r.destinationType
    durationSeconds := r.durationSeconds
    sizeBytes := r.sizeBytes
    sha256Verified := r.sha256Verified
    failureCode := r.failureCode }

/-- `p_reported_at + interval '5 minutes'` -/
def latestTime (reportedAt : ℤ) : ℤ := reportedAt + 300 * second

/-- Evidence in the eyes of the database: after the completion, and not in the future. -/
def RunValues.evidenceOk (reportedAt : ℤ) (v : RunValues) (t : Option ℤ) : Bool :=
  t.all fun t => v.completedAt.any (· ≤ t) && t ≤ latestTime reportedAt

/-- What `backup_run_is_valid_v1` returns of the values. -/
def RunValues.isValid (reportedAt : ℤ) (v : RunValues) : Bool :=
  nameOk v.backupTarget && nameOk v.gameMode && v.backupType ∈ backupTypes &&
    v.destinationType ∈ destinationTypes && v.startedAt ≤ latestTime reportedAt &&
    reportedAt - 90 * day ≤ v.startedAt &&
    v.durationSeconds.all (fun d => 0 ≤ d && d ≤ 604800) &&
    v.sizeBytes.all (fun b => 0 ≤ b && b ≤ 9007199254740991) &&
    (if v.outcome.ended then v.completedAt.isSome && v.durationSeconds.isSome
      else v.completedAt.isNone && v.durationSeconds.isNone) &&
    v.completedAt.all (fun t => v.startedAt ≤ t && t ≤ latestTime reportedAt) &&
    v.failureCode.isSome = (v.outcome = .failed) && v.failureCode.all (· ∈ failureCodes) &&
    v.evidenceOk reportedAt v.remoteSyncedAt && v.evidenceOk reportedAt v.restoreTestedAt &&
    v.retentionExpiresAt.all fun t => v.completedAt.any (· < t)

/-- `backup_run_is_valid_v1` -/
def backupRunIsValid (reportedAt : ℤ) (r : BackupRunReport) : Bool :=
  r.values?.any (·.isValid reportedAt)

/-- The row of a run of the host; its id is given by the table. -/
def RunValues.row (v : RunValues) (hostId : Uuid) : BackupRun where
  id := 0
  runId := v.runId
  scope := ⟨hostId, v.backupTarget, v.gameMode, v.backupType⟩
  destinationType := v.destinationType
  startedAt := v.startedAt
  completedAt := v.completedAt
  outcome := v.outcome
  durationSeconds := v.durationSeconds
  sizeBytes := v.sizeBytes
  sha256Verified := v.sha256Verified
  remoteSyncedAt := v.remoteSyncedAt
  restoreTestedAt := v.restoreTestedAt
  retentionExpiresAt := v.retentionExpiresAt
  failureCode := v.failureCode

/-! ## The call -/

/-- A row of `backup_ingest_requests`. -/
structure IngestRequest where
  hostId : Uuid
  receivedAt : ℤ
  reportedAt : ℤ
  requestNonce : String
  bodySha256 : String
  runCount : ℕ

/-- The tables the call reads and writes. -/
structure IngestWorld where
  monitor : MonitorWorld
  requests : List IngestRequest

/-- What the call answers. -/
inductive IngestResult
  | accepted
  | unknownAgent
  | rateLimited
  | replayedRequest
  | invalidPayload
  deriving DecidableEq

/-- A call of `ingest_backup_report_v1`, at a time that a timestamp can hold. -/
structure IngestCall where
  now : ℤ
  payload : BackupReportPayload
  nonce : String
  bodySha256 : String
  representable : now.natAbs < 2 ^ 63

/-- The arguments and the runs pass all tests. -/
def IngestCall.wellFormed (c : IngestCall) (reportedAt : ℤ) : Bool :=
  serverIdOk c.payload.serverId && (c.now - reportedAt).natAbs ≤ 300 * second && nonceOk c.nonce &&
    sha256Ok c.bodySha256 && 1 ≤ c.payload.runs.length && c.payload.runs.length ≤ 20 &&
    c.payload.runs.all (backupRunIsValid reportedAt) &&
    decide (c.payload.runs.map (·.runId)).Nodup

/-- The rows of the runs. -/
def IngestCall.rows (c : IngestCall) (hostId : Uuid) : List BackupRun :=
  (c.payload.runs.filterMap BackupRunReport.values?).map (·.row hostId)

namespace IngestWorld

/-- The latest request of a host. -/
def latestReceivedAt (w : IngestWorld) (hostId : Uuid) : Option ℤ :=
  ((w.requests.filter (·.hostId = hostId)).map (·.receivedAt)).max?

/-- The host whose runs are taken, unless the call is refused. -/
def admits (w : IngestWorld) (c : IngestCall) (reportedAt : ℤ) :
    Except IngestResult MonitoredHost :=
  if !c.wellFormed reportedAt then .error .invalidPayload
  else
    match w.monitor.settings.hosts.find? (·.serverId = c.payload.serverId) with
    | none => .error .unknownAgent
    | some h =>
      if !h.enabled then .error .unknownAgent
      else if (w.latestReceivedAt h.id).any (c.now - · < second) then .error .rateLimited
      else if w.requests.any (·.requestNonce = c.nonce) then .error .replayedRequest
      else .ok h

/-- `ingest_backup_report_v1`; the time of the report is cast before the function is entered. -/
def ingestBackupReport (w : IngestWorld) (c : IngestCall) :
    Except DbError (IngestResult × IngestWorld) := do
  let reportedAt ← orRaise (timestamptz c.payload.reportedAt)
    (.raised "invalid input syntax for type timestamp with time zone" "22007")
  match w.admits c reportedAt with
  | .error result => return (result, w)
  | .ok h =>
    let monitor ← (c.rows h.id).foldlM (fun monitor r => monitor.reportRun c.now r) w.monitor
    return (.accepted, {
      monitor
      requests := w.requests ++
        [⟨h.id, c.now, reportedAt, c.nonce, c.bodySha256, c.payload.runs.length⟩] })

/-- The tables after a call; an error takes everything back. -/
def step (w : IngestWorld) (c : IngestCall) : IngestWorld :=
  match w.ingestBackupReport c with
  | .ok (_, w') => w'
  | .error _ => w

/-- The tables after a run. -/
def run (w : IngestWorld) (calls : List IngestCall) : IngestWorld := Runs.run step w calls

/-- The rows of the runs a call takes, if it is accepted. -/
def taken (w : IngestWorld) (c : IngestCall) : List BackupRun :=
  match w.ingestBackupReport c, (timestamptz c.payload.reportedAt).map (w.admits c) with
  | .ok (.accepted, _), some (.ok h) => c.rows h.id
  | _, _ => []

/-- The reports a run has accepted, in order. -/
def reports (w : IngestWorld) (calls : List IngestCall) : List BackupRun :=
  Runs.trace step taken w calls

end IngestWorld

end

/-- What is there before the first report: hosts of different ids, and whatever operators have
registered. -/
structure Site where
  settings : Settings
  nextPolicyId : ℕ
  hosts : (settings.hosts.map (·.id)).Nodup
  reasons : ∀ p ∈ settings.suppressions, Text.lengthBetween 1 256 p.reason = true

/-- The tables of a site before the first report. -/
def Site.start (s : Site) : IngestWorld :=
  ⟨⟨s.settings, .empty, [], [], 1, 1, s.nextPolicyId⟩, []⟩

end IvrmDashboard.Backups
