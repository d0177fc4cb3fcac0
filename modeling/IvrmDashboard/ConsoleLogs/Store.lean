import IvrmDashboard.Backups.Ingest
import IvrmDashboard.Foundations.DateTime
import IvrmDashboard.Foundations.Sql.ByKey
import IvrmDashboard.Foundations.Sql.Objects

/-!
# The short-term log of the console

A reporter on a host sends the lines of the last seconds. The database tests the whole report, locks
the row of the host, looks at the rate and the nonce, and then inserts the lines one after the
other; a line that is there already is left out. Rows older than a day are deleted in the same
transaction, and once an hour by a job.

A call is not one step here: other calls, the job and the readers come in between. The transaction
that holds the row of a host is an `Ingest`, and what it has inserted is not seen by others before
it commits. Numbers that it draws from the counters are gone when it is taken back.
-/

namespace IvrmDashboard.ConsoleLogs

open Sql
open Notifications (MonitoredHost)
open Backups (serverIdOk nonceOk sha256Ok IngestResult)

/-! ## Rows -/

/-- A row of `console_log_entries`. -/
structure LogRow where
  id : ℕ
  hostId : Uuid
  eventId : String
  sourceType : String
  sourceName : String
  observedAt : ℤ
  level : String
  message : String
  receivedAt : ℤ
  deriving DecidableEq

/-- A row of `console_log_ingest_requests`. -/
structure RequestRow where
  id : ℕ
  hostId : Uuid
  reportedAt : ℤ
  receivedAt : ℤ
  requestNonce : String
  bodySha256 : String
  entryCount : ℕ
  deriving DecidableEq

/-- `CONSOLE_LOG_SOURCES` of the type `container` -/
def containerSources : List String :=
  ["mc-main", "mc-block", "ivrm-velocity", "mc-resource", "mc-resource-router"]

/-- `CONSOLE_LOG_LEVELS` -/
def logLevels : List String := ["debug", "info", "warning", "error", "critical"]

/-- `char_length(message) between 1 and 2048 and octet_length(message) <= 8192` -/
def messageLengthOk (message : String) : Bool :=
  Text.lengthBetween 1 2048 message && message.utf8ByteSize ≤ 8192

/-- `position(chr(10) in message) = 0 and position(chr(13) in message) = 0` -/
def singleLine (message : String) : Bool := '\n' ∉ message.toList && '\r' ∉ message.toList

/-- The constraints of `console_log_entries`, by name. -/
def LogRow.checks (r : LogRow) : List (String × Bool) :=
  [("console_log_entries_event_id_format_check", sha256Ok r.eventId),
    ("console_log_entries_source_check",
      (r.sourceType = "container" && r.sourceName ∈ containerSources) ||
        (r.sourceType = "systemd" && r.sourceName = "ivrm-agent")),
    ("console_log_entries_level_check", r.level ∈ logLevels),
    ("console_log_entries_message_length_check", messageLengthOk r.message),
    ("console_log_entries_single_line_check", singleLine r.message)]

/-! ## What a report has to be -/

/-- `interval '5 minutes'` -/
def clockSkew : ℤ := 300 * second

def entryKeys : List String :=
  ["eventId", "sourceType", "sourceName", "observedAt", "level", "message"]

/-- `(a)::timestamptz`; the inner `none` is `NULL`, the outer one a text that is no timestamp. -/
def castTime [FractionReading] : Option String → Option (Option ℤ)
  | none => some none
  | some s => (castTimestamptz s).map some

/-- The conditions that `console_log_entry_is_valid_v1` puts on the values of an entry. -/
def entryConditions (entry : Jsonb) (observedAt : Option ℤ) (reportedAt : ℤ) : List Tri :=
  let sourceType := entry.getText "sourceType"
  let sourceName := entry.getText "sourceName"
  let message := entry.getText "message"
  [(entry.getText "eventId").map sha256Ok,
    ((eq sourceType (some "container")).and (isIn sourceName containerSources)).or
      ((eq sourceType (some "systemd")).and (eq sourceName (some "ivrm-agent"))),
    observedAt.map fun t => decide (reportedAt - clockSkew ≤ t),
    observedAt.map fun t => decide (t ≤ reportedAt + clockSkew),
    isIn (entry.getText "level") logLevels,
    message.map (Text.lengthBetween 1 2048),
    message.map fun m => decide (m.utf8ByteSize ≤ 8192),
    message.map fun m => decide ('\n' ∉ m.toList),
    message.map fun m => decide ('\r' ∉ m.toList)]

/-- `console_log_entry_is_valid_v1` -/
def entryIsValid [FractionReading] (entry : Jsonb) (reportedAt : ℤ) : Tri :=
  if entry.typeof ≠ "object" || !entry.hasKeys entryKeys || entry.keys.any (· ∉ entryKeys) then
    some false
  else
    match castTime (entry.getText "observedAt") with
    | none => some false
    | some observedAt => Tri.all (entryConditions entry observedAt reportedAt)

/-- The arguments of `ingest_console_log_report_v1`. -/
structure LogReport where
  serverId : Option String
  reportedAt : Option ℤ
  requestNonce : Option String
  bodySha256 : Option String
  entries : Option Jsonb

/-- A report that has passed the tests made before the lock. An entry passes unless it is found
invalid: the validity of one with a `null` in it is not known. -/
structure TestedReport [FractionReading] where
  serverId : String
  reportedAt : ℤ
  requestNonce : String
  bodySha256 : String
  entries : List Jsonb
  nonce_ok : nonceOk requestNonce = true
  sha256_ok : sha256Ok bodySha256 = true
  count : 1 ≤ entries.length ∧ entries.length ≤ 120
  valid : ∀ e ∈ entries, (entryIsValid e reportedAt).checks = true
  distinct : entries.length = (entries.filterMap (·.getText "eventId")).dedup.length

/-- The tests that are made before the lock; without a report the call returns `invalid_payload`. -/
def LogReport.tested [FractionReading] (now : ℤ) (r : LogReport) : Option TestedReport := do
  let serverId ← r.serverId
  let reportedAt ← r.reportedAt
  let requestNonce ← r.requestNonce
  let bodySha256 ← r.bodySha256
  let entries ← r.entries
  if !serverIdOk serverId || clockSkew < (now - reportedAt).natAbs then none
  else if entries.typeof ≠ "array" then none
  else if h : nonceOk requestNonce = true ∧ sha256Ok bodySha256 = true ∧
      (1 ≤ entries.elements.length ∧ entries.elements.length ≤ 120) ∧
      (∀ e ∈ entries.elements, (entryIsValid e reportedAt).checks = true) ∧
      entries.elements.length = (entries.elements.filterMap (·.getText "eventId")).dedup.length then
    some ⟨serverId, reportedAt, requestNonce, bodySha256, entries.elements, h.1, h.2.1, h.2.2.1,
      h.2.2.2.1, h.2.2.2.2⟩
  else none

/-- The row of an entry as it is inserted: the cast, the columns that may not be null, and the
constraints of the table. -/
def newRow [FractionReading] (id : ℕ) (hostId : Uuid) (receivedAt : ℤ) (entry : Jsonb) :
    Except DbError LogRow := do
  let observed ← orRaise (castTime (entry.getText "observedAt"))
    (.raised "invalid input syntax for type timestamp with time zone" "22007")
  let eventId ← orRaise (entry.getText "eventId") (.notNullViolation "event_id")
  let sourceType ← orRaise (entry.getText "sourceType") (.notNullViolation "source_type")
  let sourceName ← orRaise (entry.getText "sourceName") (.notNullViolation "source_name")
  let observedAt ← orRaise observed (.notNullViolation "observed_at")
  let level ← orRaise (entry.getText "level") (.notNullViolation "level")
  let message ← orRaise (entry.getText "message") (.notNullViolation "message")
  let row : LogRow :=
    { id, hostId, eventId, sourceType, sourceName, observedAt, level, message, receivedAt }
  checkAll row.checks
  return row

/-! ## Transactions -/

/-- How far a transaction has come. -/
inductive Stage where
  /-- The host is enabled, and its last request is long enough ago. -/
  | admitted
  /-- The request is inserted, and so are the entries before `rest`. -/
  | inserting (request : RequestRow) (rest : List Jsonb)
  /-- The rows found to be older than a day are deleted. -/
  | pruned (request : RequestRow) (oldEntries oldRequests : List ℕ)

/-- The transaction of a call that holds the row of its host. -/
structure Ingest [FractionReading] where
  hostId : Uuid
  report : TestedReport
  stage : Stage
  added : List LogRow

/-- The tables as committed, the counters, and the calls under way: those that have been tested and
wait for the row of the host, and those that hold it. -/
structure LogStore [FractionReading] where
  now : ℤ
  hosts : List MonitoredHost
  requests : List RequestRow
  entries : List LogRow
  nextRequestId : ℕ
  nextEntryId : ℕ
  waiting : List TestedReport
  ingests : List Ingest

/-- What can happen. A transaction is named by the host whose row it holds. -/
inductive StoreStep where
  | wait (duration : ℕ)
  | register (host : MonitoredHost)
  | setEnabled (hostId : Uuid) (enabled : Bool)
  | call (report : LogReport)
  | giveUp (n : ℕ)
  | lock (n : ℕ)
  | record (hostId : Uuid)
  | insertNext (hostId : Uuid)
  | prune (hostId : Uuid)
  | commit (hostId : Uuid)
  | abort (hostId : Uuid)
  | scheduledPrune

/-- The first `p_batch_size` rows received more than a day ago, in the order of `received_at, id`. -/
def oldRows {α : Type} (receivedAt : α → ℤ) (id : α → ℕ) (now : ℤ) (rows : List α) : List ℕ :=
  ((orderBy (fun a b => receivedAt a < receivedAt b || (receivedAt a = receivedAt b && id a ≤ id b))
    (rows.filter fun a => receivedAt a < now - day)).take 5000).map id

namespace LogStore

variable [FractionReading] (w : LogStore)

/-- The transaction that holds the row of a host. -/
def ingest? (hostId : Uuid) : Option Ingest := w.ingests.find? (·.hostId = hostId)

/-- The transaction that holds the row goes on. -/
def setIngest (i : Ingest) : LogStore :=
  { w with ingests := updateWhere (·.hostId = i.hostId) (fun _ => i) w.ingests }

/-- The transaction ends, and the row is free. -/
def endIngest (hostId : Uuid) : LogStore :=
  { w with ingests := w.ingests.filter (·.hostId ≠ hostId) }

/-- `order by requests.received_at desc, requests.id desc limit 1` -/
def latestReceivedAt (hostId : Uuid) : Option ℤ :=
  ((w.requests.filter (·.hostId = hostId)).map (·.receivedAt)).max?

/-- What a call that has got to the row of its host returns at once. -/
def refusal (h : MonitoredHost) : Option IngestResult :=
  if !h.enabled then some .unknownAgent
  else if (w.latestReceivedAt h.id).any (w.now - · < 2 * second) then some .rateLimited
  else none

/-- A call that waits gets the row of its host, unless another holds it. -/
def lock (n : ℕ) : LogStore :=
  match w.waiting[n]? with
  | none => w
  | some r =>
    let rest := { w with waiting := w.waiting.eraseIdx n }
    match w.hosts.find? (·.serverId = r.serverId) with
    | none => rest
    | some h =>
      if (w.ingest? h.id).isSome then w
      else if (w.refusal h).isSome then rest
      else { rest with ingests := w.ingests ++ [⟨h.id, r, .admitted, []⟩] }

/-- The request is inserted; when its nonce is there, the call returns `replayed_request`. -/
def record (i : Ingest) : LogStore :=
  let drawn := { w with nextRequestId := w.nextRequestId + 1 }
  if w.requests.any fun q => q.hostId = i.hostId && q.requestNonce = i.report.requestNonce then
    drawn.endIngest i.hostId
  else
    drawn.setIngest { i with
      stage := .inserting
        { id := w.nextRequestId
          hostId := i.hostId
          reportedAt := i.report.reportedAt
          receivedAt := w.now
          requestNonce := i.report.requestNonce
          bodySha256 := i.report.bodySha256
          entryCount := i.report.entries.length }
        i.report.entries }

/-- The next entry is inserted, or left out on a conflict; an error takes the transaction back. -/
def insertNext (i : Ingest) (request : RequestRow) (entry : Jsonb) (rest : List Jsonb) : LogStore :=
  let drawn := { w with nextEntryId := w.nextEntryId + 1 }
  match newRow w.nextEntryId i.hostId w.now entry with
  | .error _ => drawn.endIngest i.hostId
  | .ok row =>
    if (w.entries ++ i.added).any fun a => a.hostId = row.hostId && a.eventId = row.eventId then
      drawn.setIngest { i with stage := .inserting request rest }
    else
      drawn.setIngest { i with stage := .inserting request rest, added := i.added ++ [row] }

/-- `perform public.prune_console_log_rows_v1(5000)`, in the transaction of a call. -/
def prune (i : Ingest) (request : RequestRow) : LogStore :=
  w.setIngest { i with
    stage := .pruned request (oldRows (·.receivedAt) (·.id) w.now (w.entries ++ i.added))
      (oldRows (·.receivedAt) (·.id) w.now (w.requests ++ [request])) }

/-- What the transaction has done is seen by others. -/
def commit (i : Ingest) (request : RequestRow) (oldEntries oldRequests : List ℕ) : LogStore :=
  { w.endIngest i.hostId with
    entries := (w.entries ++ i.added).filter (·.id ∉ oldEntries)
    requests := (w.requests ++ [request]).filter (·.id ∉ oldRequests) }

/-- One thing happens. What has to wait for the row of a host, or does not come next in its
transaction, does not happen. -/
def step : StoreStep → LogStore
  | .wait duration => { w with now := w.now + duration }
  | .register host =>
    if w.hosts.any fun h => h.id = host.id || h.serverId = host.serverId then w
    else { w with hosts := w.hosts ++ [host] }
  | .setEnabled hostId enabled =>
    if (w.ingest? hostId).isSome then w
    else { w with hosts := updateWhere (·.id = hostId) ({ · with enabled }) w.hosts }
  | .call report =>
    match report.tested w.now with
    | none => w
    | some r => { w with waiting := w.waiting ++ [r] }
  | .giveUp n => { w with waiting := w.waiting.eraseIdx n }
  | .lock n => w.lock n
  | .record hostId =>
    match w.ingest? hostId with
    | some i => match i.stage with
      | .admitted => w.record i
      | _ => w
    | none => w
  | .insertNext hostId =>
    match w.ingest? hostId with
    | some i => match i.stage with
      | .inserting request (entry :: rest) => w.insertNext i request entry rest
      | _ => w
    | none => w
  | .prune hostId =>
    match w.ingest? hostId with
    | some i => match i.stage with
      | .inserting request [] => w.prune i request
      | _ => w
    | none => w
  | .commit hostId =>
    match w.ingest? hostId with
    | some i => match i.stage with
      | .pruned request oldEntries oldRequests => w.commit i request oldEntries oldRequests
      | _ => w
    | none => w
  | .abort hostId => w.endIngest hostId
  | .scheduledPrune =>
    { w with
      entries := w.entries.filter (·.id ∉ oldRows (·.receivedAt) (·.id) w.now w.entries)
      requests := w.requests.filter (·.id ∉ oldRows (·.receivedAt) (·.id) w.now w.requests) }

/-- The store after a run. -/
def run (steps : List StoreStep) : LogStore := Runs.run step w steps

/-- The tables before the first call. -/
def empty (now : ℤ) : LogStore := ⟨now, [], [], [], 1, 1, [], []⟩

end LogStore

end IvrmDashboard.ConsoleLogs
