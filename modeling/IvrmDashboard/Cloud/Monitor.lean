import IvrmDashboard.Foundations.Runs
import IvrmDashboard.Notifications.Signals

/-!
# Cloud monitoring

A collector reports the states of its targets in batches. `ingestCloudMonitor` tests the whole batch
before it writes anything: the collector, the nonce, the time, the rate, and every entry. Then each
entry changes its target, if the target is enabled and the entry is newer than what the target
shows, and leaves a sample. At the end the signals of all targets are reconciled; an error there
takes the whole call back.
-/

namespace IvrmDashboard.Cloud

open Sql Operations Notifications

/-! ## Enumerated columns -/

/-- `status` -/
inductive CloudStatus
  | operational
  | degraded
  | outage
  | unknown
  | error
  deriving DecidableEq

/-- `reason_code` -/
inductive ReasonCode
  | ok
  | notReceived
  | notConfigured
  | authError
  | forbidden
  | timeout
  | providerError
  | notFound
  | unexpectedState
  | dnsMismatch
  deriving DecidableEq

def CloudStatus.text : CloudStatus → String
  | .operational => "operational"
  | .degraded => "degraded"
  | .outage => "outage"
  | .unknown => "unknown"
  | .error => "error"

def CloudStatus.all : List CloudStatus := [.operational, .degraded, .outage, .unknown, .error]

/-- The status a text names. -/
def CloudStatus.ofText? (s : String) : Option CloudStatus := CloudStatus.all.find? fun t => t.text == s

def ReasonCode.text : ReasonCode → String
  | .ok => "ok"
  | .notReceived => "not_received"
  | .notConfigured => "not_configured"
  | .authError => "auth_error"
  | .forbidden => "forbidden"
  | .timeout => "timeout"
  | .providerError => "provider_error"
  | .notFound => "not_found"
  | .unexpectedState => "unexpected_state"
  | .dnsMismatch => "dns_mismatch"

/-- The codes a collector may report; a target that was never reported shows `notReceived`. -/
def ReasonCode.reportable : List ReasonCode :=
  [.ok, .notConfigured, .authError, .forbidden, .timeout, .providerError, .notFound,
    .unexpectedState, .dnsMismatch]

/-- The reportable code a text names. -/
def ReasonCode.ofText? (s : String) : Option ReasonCode :=
  ReasonCode.reportable.find? fun t => t.text == s

/-! ## Rows -/

/-- A row of `cloud_monitor_targets`. -/
structure CloudTarget where
  id : String
  displayName : String
  collectorServerId : String
  enabled : Bool
  staleAfterSeconds : ℤ
  status : CloudStatus
  reasonCode : ReasonCode
  observedAt : Option ℤ
  receivedAt : Option ℤ
  createdAt : ℤ
  deriving DecidableEq

/-- A row of `cloud_monitor_requests`. -/
structure CloudRequest where
  collectorServerId : String
  nonce : String
  bodySha256 : String
  receivedAt : ℤ
  deriving DecidableEq

/-- A row of `cloud_monitor_samples`. -/
structure CloudSample where
  id : ℕ
  targetId : String
  status : CloudStatus
  reasonCode : ReasonCode
  observedAt : ℤ
  receivedAt : ℤ
  deriving DecidableEq

/-- The tables, with the next value of the identity column of the samples. -/
structure CloudWorld where
  settings : Settings
  board : Board
  targets : List CloudTarget
  requests : List CloudRequest
  samples : List CloudSample
  nextSampleId : ℕ

/-- The tables before the first target is registered. -/
def CloudWorld.fresh (settings : Settings) (board : Board) : CloudWorld :=
  ⟨settings, board, [], [], [], 1⟩

/-- What a call of the time `now` finds. -/
def CloudWorld.env (w : CloudWorld) (now : ℤ) : Env := ⟨now, w.settings⟩

/-! ## Reconciliation -/

/-- No report for longer than the target allows. -/
def CloudTarget.stale (now : ℤ) (t : CloudTarget) : Bool :=
  t.staleAfterSeconds * second < now - t.receivedAt.getD t.createdAt

/-- The key of the signal of a target. -/
def cloudSignalKey (id : String) : String := "cloud:state:" ++ id

/-- What the reconciliation reports of an enabled target. -/
def CloudTarget.signal (now : ℤ) (t : CloudTarget) : SignalParams where
  signalKey := some (cloudSignalKey t.id)
  sourceType := some "cloud"
  hostId := none
  serverId := some "ivrm"
  entityType := some "cloud"
  entityKey := some t.id
  entityName := some t.displayName
  signalType := some "cloud_state"
  active := some (t.stale now || t.status ≠ .operational)
  severity := some (if t.stale now || t.status = .outage then "critical" else "warning")
  occurredAt := some (.ofInstant now)
  reason :=
    some (if t.stale now then "collector_stale" else t.status.text ++ ":" ++ t.reasonCode.text)
  title := some (t.displayName ++ " / Cloud Monitor")
  detailHref := some "/cloud"

/-- The body of the loop: the number of the targets reported so far, and the signals. -/
def reconcileTarget (e : Env) (s : ℕ × Board) (t : CloudTarget) : Except DbError (ℕ × Board) := do
  if !t.enabled then
    let b ← retireCloudSignal e (cloudSignalKey t.id) s.2
    return (s.1, b)
  else if t.receivedAt.isNone && !t.stale e.now then return s
  else
    let r ← applyCloudMonitorSignal e (t.signal e.now) s.2
    return (s.1 + 1, r.2)

/-- `reconcile_cloud_monitor_signals_v1` -/
def reconcileCloudMonitorSignals (now : ℤ) (w : CloudWorld) : Except DbError (ℕ × CloudWorld) := do
  let s ← (orderBy (fun a b => decide (a.id ≤ b.id)) w.targets).foldlM (reconcileTarget (w.env now))
    (0, w.board)
  return (s.1, { w with board := s.2 })

/-! ## Ingestion -/

/-- The arguments of `ingest_cloud_monitor_v1`. -/
structure IngestParams where
  serverId : Option String
  nonce : Option String
  bodySha256 : Option String
  observedAt : Option Timestamptz
  results : Option Jsonb

/-- What `ingest_cloud_monitor_v1` returns. -/
inductive IngestResult
  | accepted
  | unknownAgent
  | invalidPayload
  | replayedRequest
  | rateLimited
  | targetNotAllowed
  deriving DecidableEq

/-- What a batch says of one target. -/
structure CloudReport where
  targetId : String
  status : CloudStatus
  reasonCode : ReasonCode
  observedAt : ℤ
  deriving DecidableEq

/-- The fields of an entry. -/
def entryFields : List String := ["id", "status", "reasonCode"]

/-- The object has the fields of an entry and no other. -/
def hasEntryFields : Jsonb → Bool
  | .obj fields => entryFields.all (fun k => (fields.lookup k).isSome) &&
      fields.all fun f => f.1 ∈ entryFields
  | _ => false

/-- What a valid entry says. -/
def report? (observedAt : ℤ) (r : Jsonb) : Option CloudReport :=
  if hasEntryFields r then do
    let targetId ← r.getText "id"
    let status ← (r.getText "status").bind CloudStatus.ofText?
    let reasonCode ← (r.getText "reasonCode").bind ReasonCode.ofText?
    if status = .operational && reasonCode ≠ .ok then none
    else some ⟨targetId, status, reasonCode, observedAt⟩
  else none

/-- The header of a call, after the tests that come before the tables are read. -/
structure IngestHeader where
  nonce : String
  bodySha256 : String
  observedAt : ℤ
  entries : List Jsonb

/-- The tests of the header. A time that is not finite is never near enough to the clock. -/
def IngestParams.header? (p : IngestParams) (now : ℤ) : Option IngestHeader := do
  let nonce ← p.nonce.filter (Text.matchesExactly Text.hexDigit 32)
  let bodySha256 ← p.bodySha256.filter (Text.matchesExactly Text.hexDigit 64)
  let observedAt ← p.observedAt.bind Timestamptz.instant?
  if 300 * second < ((now - observedAt).natAbs : ℤ) || now + 30 * second < observedAt then none
  else
    match p.results with
    | some (.arr entries) =>
      if 1 ≤ entries.length && entries.length ≤ 50 then some ⟨nonce, bodySha256, observedAt, entries⟩
      else none
    | _ => none

namespace CloudWorld

/-- The target belongs to the collector. -/
def owns (w : CloudWorld) (serverId id : String) : Bool :=
  w.targets.any fun t => t.id = id && t.collectorServerId = serverId

/-- The loop that tests the entries, up to the first that fails. -/
def checkEntries (w : CloudWorld) (serverId : String) (observedAt : ℤ) :
    List Jsonb → Except IngestResult (List CloudReport)
  | [] => .ok []
  | r :: rs =>
    match report? observedAt r with
    | none => .error .invalidPayload
    | some report =>
      if w.owns serverId report.targetId then
        (w.checkEntries serverId observedAt rs).map (report :: ·)
      else .error .targetNotAllowed

/-- All the tests: what stands in the way, or the request and the reports of the batch. -/
def checkBatch (w : CloudWorld) (now : ℤ) (p : IngestParams) :
    Except IngestResult (CloudRequest × List CloudReport) :=
  match p.serverId with
  | none => .error .unknownAgent
  | some serverId =>
    if (enabledHostOf (w.settings.hosts.map (·.toHost)) serverId).isNone then .error .unknownAgent
    else
      match p.header? now with
      | none => .error .invalidPayload
      | some h =>
        if w.requests.any fun q => q.collectorServerId = serverId && q.nonce = h.nonce then
          .error .replayedRequest
        else if w.requests.any fun q =>
            q.collectorServerId = serverId && now - 15 * second < q.receivedAt then
          .error .rateLimited
        else if (h.entries.filterMap (·.getText "id")).dedup.length ≠ h.entries.length then
          .error .invalidPayload
        else (w.checkEntries serverId h.observedAt h.entries).map fun reports =>
          (⟨serverId, h.nonce, h.bodySha256, now⟩, reports)

end CloudWorld

/-- The report is for the target and newer than what it shows. -/
def CloudTarget.takes (t : CloudTarget) (r : CloudReport) : Bool :=
  t.id = r.targetId && t.enabled && t.observedAt.all (· < r.observedAt)

/-- The target after a report. -/
def CloudTarget.show (now : ℤ) (r : CloudReport) (t : CloudTarget) : CloudTarget :=
  { t with
    status := r.status
    reasonCode := r.reasonCode
    observedAt := some r.observedAt
    receivedAt := some now }

/-- The sample of a report. -/
def CloudReport.sample (r : CloudReport) (id : ℕ) (now : ℤ) : CloudSample :=
  ⟨id, r.targetId, r.status, r.reasonCode, r.observedAt, now⟩

/-- The body of the loop that writes: the target is updated, and if it was, a sample is kept. -/
def applyReport (now : ℤ) (w : CloudWorld) (r : CloudReport) : CloudWorld :=
  if w.targets.any (·.takes r) then
    { w with
      targets := updateWhere (·.takes r) (·.show now r) w.targets
      samples := w.samples ++ [r.sample w.nextSampleId now]
      nextSampleId := w.nextSampleId + 1 }
  else w

/-- `ingest_cloud_monitor_v1` -/
def ingestCloudMonitor (now : ℤ) (p : IngestParams) (w : CloudWorld) :
    Except DbError (IngestResult × CloudWorld) :=
  match w.checkBatch now p with
  | .error result => .ok (result, w)
  | .ok (request, reports) => do
    let w' := reports.foldl (applyReport now) { w with requests := w.requests ++ [request] }
    let r ← reconcileCloudMonitorSignals now w'
    return (.accepted, r.2)

/-! ## Retention and targets -/

/-- `prune_cloud_monitor_history_v1` -/
def pruneCloudMonitorHistory (now : ℤ) (w : CloudWorld) : CloudWorld :=
  { w with
    samples := w.samples.filter fun s => now - 7 * day ≤ s.receivedAt
    requests := w.requests.filter fun q => now - day ≤ q.receivedAt }

/-- The columns of a target that operators write. -/
structure TargetConfig where
  displayName : String
  collectorServerId : String
  enabled : Bool
  staleAfterSeconds : ℤ

/-- `id ~ '^[a-z0-9][a-z0-9-]{0,79}$'` -/
def targetIdOk (id : String) : Bool :=
  Text.lengthBetween 1 80 id && id.toList.head?.all (fun c => Text.lowerAlpha c || Text.digit c) &&
    id.toList.all fun c => Text.lowerAlpha c || Text.digit c || c = '-'

/-- The constraints of these columns. -/
def TargetConfig.check (c : TargetConfig) (w : CloudWorld) : Except DbError Unit := do
  checkAll [("cloud_monitor_targets_display_name_check", Text.lengthBetween 1 120 c.displayName),
    ("cloud_monitor_targets_stale_after_seconds_check",
      120 ≤ c.staleAfterSeconds && c.staleAfterSeconds ≤ 86400)]
  raiseIf (!w.settings.hosts.any (·.serverId = c.collectorServerId))
    (.foreignKeyViolation "cloud_monitor_targets_collector_server_id_fkey")

/-- `insert into cloud_monitor_targets … on conflict (id) do nothing` -/
def registerTarget (now : ℤ) (id : String) (c : TargetConfig) (w : CloudWorld) :
    Except DbError CloudWorld := do
  checkAll [("cloud_monitor_targets_id_check", targetIdOk id)]
  c.check w
  if w.targets.any (·.id = id) then return w
  else
    return { w with
      targets := w.targets ++ [⟨id, c.displayName, c.collectorServerId, c.enabled,
        c.staleAfterSeconds, .unknown, .notReceived, none, none, now⟩] }

/-- A target with other columns. -/
def CloudTarget.configure (c : TargetConfig) (t : CloudTarget) : CloudTarget :=
  { t with
    displayName := c.displayName
    collectorServerId := c.collectorServerId
    enabled := c.enabled
    staleAfterSeconds := c.staleAfterSeconds }

/-- `update cloud_monitor_targets set … where id = …` -/
def configureTarget (id : String) (c : TargetConfig) (w : CloudWorld) :
    Except DbError CloudWorld := do
  c.check w
  return { w with targets := updateWhere (·.id = id) (·.configure c) w.targets }

/-! ## Runs -/

/-- What is called. The rest of the dashboard may change the settings and the signals in any
way. -/
inductive CloudRequestKind
  | ingest (p : IngestParams)
  | reconcile
  | prune
  | register (id : String) (c : TargetConfig)
  | configure (id : String) (c : TargetConfig)
  | outside (settings : Settings) (board : Board)

/-- A call, and the time the database has then. -/
structure CloudCall where
  now : ℤ
  request : CloudRequestKind

namespace CloudWorld

/-- The tables after a call, if it commits. -/
def apply (w : CloudWorld) (c : CloudCall) : Except DbError CloudWorld :=
  match c.request with
  | .ingest p => (ingestCloudMonitor c.now p w).map (·.2)
  | .reconcile => (reconcileCloudMonitorSignals c.now w).map (·.2)
  | .prune => .ok (pruneCloudMonitorHistory c.now w)
  | .register id t => registerTarget c.now id t w
  | .configure id t => configureTarget id t w
  | .outside settings board => .ok { w with settings, board }

/-- One call; one that aborts leaves the tables as they are. -/
def step (w : CloudWorld) (c : CloudCall) : CloudWorld :=
  match w.apply c with
  | .ok w' => w'
  | .error _ => w

/-- The tables after a sequence of calls. -/
def run (w : CloudWorld) (calls : List CloudCall) : CloudWorld := Runs.run step w calls

/-- The answer of an ingestion, if it commits. -/
def answer (w : CloudWorld) (now : ℤ) (p : IngestParams) : Option IngestResult :=
  match ingestCloudMonitor now p w with
  | .ok r => some r.1
  | .error _ => none

end CloudWorld

end IvrmDashboard.Cloud
