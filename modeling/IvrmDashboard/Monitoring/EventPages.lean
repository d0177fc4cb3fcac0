import Mathlib.Data.Prod.Lex
import IvrmDashboard.Foundations.Js.Throws
import IvrmDashboard.Foundations.Keyset
import IvrmDashboard.Foundations.Sql.Unique
import IvrmDashboard.Backups.Ingest
import IvrmDashboard.Monitoring.ContainerEvents

/-!
# The pages of the timeline

The console reads the events of a range in pages of 500, newest first. The cursor of the next page
is the time and the id of the last event it has got. The database reads its clock anew for every row
it looks at. What it returns goes through JSON, and every row of a page has to pass the reader.
-/

namespace IvrmDashboard.Monitoring.EventPages

open Sql Notifications Backups

/-! ## The query -/

/-- The columns of `monitoring_events` that the query reads. -/
structure EventRow where
  id : ℕ
  hostId : Uuid
  containerName : String
  occurredAt : ℤ
  eventType : String
  severity : String
  fromValue : Option String
  toValue : Option String
  numericValue : Option ℤ
  expectedState : Option String

/-- The tables the query joins. The ids are those of an identity column. -/
structure EventTables where
  hosts : List MonitoredHost
  events : List EventRow
  ids : Sql.Unique EventRow.id events
  positive : ∀ e ∈ events, 0 < e.id

/-- An event with its host. -/
structure ListedEvent where
  event : EventRow
  serverId : String
  displayName : String

/-- `monitoring_events join hosts on hosts.id = events.host_id` -/
def EventTables.listed (t : EventTables) : List ListedEvent :=
  t.events.filterMap fun e =>
    (t.hosts.find? (·.id = e.hostId)).map fun h => ⟨e, h.serverId, h.displayName⟩

/-- `'^([0-9]{1,3}\.){3}[0-9]{1,3}$'` -/
def ipv4Literal (s : String) : Bool :=
  let parts := s.toList.splitOn '.'
  parts.length = 4 && parts.all fun p => p ≠ [] && p.length ≤ 3 && p.all Text.digit

/-- The arguments of `get_monitoring_events_v2`. -/
structure EventArguments where
  range : String
  serverId : Option String
  containerName : Option String
  severity : Option String
  beforeAt : Option ℤ
  beforeId : Option ℤ
  limit : ℤ

/-- `case p_range when '1h' then interval '1 hour' … end` -/
def intervalOf : String → Option ℤ
  | "1h" => some (3600 * second)
  | "6h" => some (6 * 3600 * second)
  | "24h" => some day
  | "7d" => some (7 * day)
  | "30d" => some (30 * day)
  | _ => none

def severities : List String := ["info", "warning", "critical", "recovery"]

namespace EventArguments

variable (p : EventArguments)

/-- The conditions on the host, the container and the severity. -/
def selects (e : ListedEvent) : Bool :=
  p.serverId.all (e.serverId = ·) && p.containerName.all (e.event.containerName = ·) &&
    p.severity.all (e.event.severity = ·)

/-- The condition on the cursor. -/
def isAfter (e : ListedEvent) : Bool :=
  p.beforeAt.all fun t =>
    e.event.occurredAt < t || (e.event.occurredAt = t && p.beforeId.any ((e.event.id : ℤ) < ·))

end EventArguments

/-- `order by events.occurred_at desc, events.id desc` -/
def newestFirst (a b : ListedEvent) : Bool :=
  b.event.occurredAt < a.event.occurredAt ||
    (b.event.occurredAt = a.event.occurredAt && b.event.id ≤ a.event.id)

/-- `get_monitoring_events_v2`; `clock e` is what `clock_timestamp()` yields at the row `e`. -/
def getMonitoringEventsV2 (t : EventTables) (clock : ListedEvent → ℤ) (p : EventArguments) :
    Except DbError (List ListedEvent) := do
  let interval ← orRaise (intervalOf p.range) (.raised "invalid range" "P0001")
  raiseIf (p.serverId.any fun s => !serverIdOk s || ipv4Literal s)
    (.raised "invalid server id" "P0001")
  raiseIf (p.containerName.any fun s => !ContainerEvents.containerNameOk s)
    (.raised "invalid container name" "P0001")
  raiseIf (p.serverId.isNone != p.containerName.isNone)
    (.raised "server id and container name must be specified together" "P0001")
  raiseIf (p.severity.any (· ∉ severities)) (.raised "invalid severity" "P0001")
  raiseIf (p.beforeAt.isNone != p.beforeId.isNone) (.raised "invalid cursor" "P0001")
  raiseIf (p.beforeId.any (· ≤ 0)) (.raised "invalid cursor id" "P0001")
  raiseIf (p.limit < 1 || 500 < p.limit) (.raised "invalid limit" "P0001")
  return (orderBy newestFirst (t.listed.filter fun e =>
    clock e - interval ≤ e.event.occurredAt && p.selects e && p.isAfter e)).take p.limit.toNat

/-! ## The reader -/

/-- A row as JSON. -/
structure EventPayload where
  eventId : ℤ
  hostId : String
  serverId : String
  hostDisplayName : String
  containerName : String
  occurredAt : String
  eventType : String
  severity : String
  fromValue : Option String
  toValue : Option String
  numericValue : Option ℤ
  expectedState : Option String

/-- What PostgREST makes of a row. -/
def ListedEvent.payload (e : ListedEvent) : EventPayload where
  eventId := e.event.id
  hostId := e.event.hostId.text
  serverId := e.serverId
  hostDisplayName := e.displayName
  containerName := e.event.containerName
  occurredAt := jsonTimestamptz e.event.occurredAt
  eventType := e.event.eventType
  severity := e.event.severity
  fromValue := e.event.fromValue
  toValue := e.event.toValue
  numericValue := e.event.numericValue
  expectedState := e.event.expectedState

/-- `MonitoringEvent` -/
structure MonitoringEvent where
  id : ℤ
  hostId : String
  serverId : String
  hostDisplayName : String
  containerName : String
  occurredAt : String
  eventType : String
  severity : String
  fromValue : Option String
  toValue : Option String
  numericValue : Option ℤ
  expectedState : Option String

/-- `Number.MAX_SAFE_INTEGER` -/
def maxSafeInteger : ℤ := 9007199254740991

/-- `stringValue` -/
def stringValue (maximumLength : ℕ) (value : String) : Option String :=
  if Js.length value ≤ maximumLength then some value else none

/-- `integerValue` -/
def integerValue (value : ℤ) : Option ℤ :=
  if -maxSafeInteger ≤ value && value ≤ maxSafeInteger then some value else none

def eventTypes : List String :=
  ["state_changed", "health_changed", "restart_count_increased", "oom_killed", "exit_code_changed",
    "maintenance_started", "maintenance_ended"]

def expectedStates : List String := ["running", "stopped", "absent"]

/-- `isValidHostServerId` -/
def isValidHostServerId (value : String) : Bool := serverIdOk value && !ipv4Literal value

/-- The event that a row is read as, if it passes. -/
def EventPayload.event (row : EventPayload) : MonitoringEvent where
  id := row.eventId
  hostId := row.hostId
  serverId := row.serverId
  hostDisplayName := row.hostDisplayName
  containerName := row.containerName
  occurredAt := row.occurredAt
  eventType := row.eventType
  severity := row.severity
  fromValue := row.fromValue.bind (stringValue 128)
  toValue := row.toValue.bind (stringValue 128)
  numericValue := row.numericValue.bind integerValue
  expectedState := (row.expectedState.bind (stringValue 128)).filter (· ∈ expectedStates)

section

variable [Readings]

open Readings (dateParse timestamptz)

/-- `parseEventRow` -/
def parseEventRow (row : EventPayload) : Option MonitoringEvent := do
  let id ← integerValue row.eventId
  let hostId ← stringValue 64 row.hostId
  let serverId ← stringValue 64 row.serverId
  let hostDisplayName ← stringValue 256 row.hostDisplayName
  let containerName ← stringValue 128 row.containerName
  let _ ← dateParse row.occurredAt
  let eventType ← stringValue 128 row.eventType
  let severity ← stringValue 128 row.severity
  guard (0 ≤ id ∧ hostId ≠ "" ∧ isValidHostServerId serverId ∧ hostDisplayName ≠ "" ∧
    ContainerEvents.containerNameOk containerName ∧ row.occurredAt ≠ "" ∧
    eventType ∈ eventTypes ∧ severity ∈ severities)
  return row.event

/-- `parseEventPayload` -/
def parseEventPayload (source : String) (rows : List EventPayload) :
    Except String (List MonitoringEvent) :=
  Js.orThrow (rows.mapM parseEventRow) (source ++ "のレスポンス形式が不正です")

/-- `HistoryRange` -/
inductive HistoryRange
  | oneHour
  | sixHours
  | day
  | week
  | month
  deriving DecidableEq

def HistoryRange.text : HistoryRange → String
  | oneHour => "1h"
  | sixHours => "6h"
  | day => "24h"
  | week => "7d"
  | month => "30d"

/-- `MonitoringEventSeverity` -/
inductive Severity
  | info
  | warning
  | critical
  | recovery
  deriving DecidableEq

def Severity.text : Severity → String
  | info => "info"
  | warning => "warning"
  | critical => "critical"
  | recovery => "recovery"

/-- `MonitoringEventQuery` -/
structure MonitoringEventQuery where
  range : HistoryRange
  serverId : Option String
  containerName : Option String
  severity : Option Severity

/-- A text that is there and not empty. -/
def given (value : Option String) : Option String := value.filter (· ≠ "")

/-- `hostIdentifier` -/
def hostIdentifier (value : Option String) : Except String (Option String) := do
  Js.throwIf ((given value).any fun s => !isValidHostServerId s) "監視イベントのHost識別子が不正です"
  return given value

/-- `containerIdentifier` -/
def containerIdentifier (value : Option String) : Except String (Option String) := do
  Js.throwIf ((given value).any fun s => !ContainerEvents.containerNameOk s)
    "監視イベントのContainer識別子が不正です"
  return given value

/-- What one page read finds: the tables, and the clock at each of their rows. -/
structure EventRead where
  tables : EventTables
  clock : ListedEvent → ℤ

/-- A refused call is answered with this status. -/
def badRequest : String := "get_monitoring_events_v2が400を返しました"

/-- The arguments of a call; the cursor is cast from its text. -/
def eventArguments (q : MonitoringEventQuery) (serverId containerName : Option String)
    (before : Option (String × ℤ)) : Option EventArguments := do
  let beforeAt ←
    match before with
    | none => some none
    | some c => (timestamptz c.1).map some
  return {
    range := q.range.text
    serverId
    containerName
    severity := q.severity.map Severity.text
    beforeAt
    beforeId := before.map (·.2)
    limit := 500 }

/-- `fetchEventPage` -/
def fetchEventPage (read : EventRead) (q : MonitoringEventQuery)
    (serverId containerName : Option String) (before : Option (String × ℤ)) :
    Except String (List MonitoringEvent) := do
  let p ← Js.orThrow (eventArguments q serverId containerName before) badRequest
  match getMonitoringEventsV2 read.tables read.clock p with
  | .error _ => .error badRequest
  | .ok rows => parseEventPayload "get_monitoring_events_v2" (rows.map (·.payload))

/-- `getMonitoringEvents`, as far as it has got after so many pages. -/
def getMonitoringEvents (reads : ℕ → EventRead) (q : MonitoringEventQuery) (pages : ℕ) :
    Except String (Option (List MonitoringEvent)) := do
  let safeServerId ← hostIdentifier q.serverId
  let safeContainerName ← containerIdentifier q.containerName
  Js.throwIf (safeServerId.isNone != safeContainerName.isNone)
    "HostとContainerは同時に指定してください"
  Keyset.collect (fun n => fetchEventPage (reads n) q safeServerId safeContainerName)
    (fun e => (e.occurredAt, e.id)) 500 pages 0 none

end

end IvrmDashboard.Monitoring.EventPages
