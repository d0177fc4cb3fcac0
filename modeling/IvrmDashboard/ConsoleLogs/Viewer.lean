import Mathlib.Data.List.Infix
import IvrmDashboard.ConsoleLogs.Store
import IvrmDashboard.Foundations.Js.Date
import IvrmDashboard.Foundations.Js.Throws
import IvrmDashboard.Foundations.Tailing

/-!
# The log viewer

The page loads the newest lines that match a filter. While it follows the log it polls every five
seconds for the lines after the last id it knows, merges them into what it shows, drops what has
left the range, and keeps the 800 newest. A poll is sent, read by the database, and delivered; it
may be lost on the way, and a new one may be sent before an old one has come back.

Ids are numbers of JavaScript, timestamps are microseconds that `Date.parse` reads in milliseconds.
-/

namespace IvrmDashboard.ConsoleLogs

open Sql
open Notifications (MonitoredHost)
open Backups (serverIdOk)

/-! ## The query -/

/-- `CONSOLE_LOG_SOURCES`, by name -/
def logSourceNames : List String := containerSources ++ ["ivrm-agent"]

/-- The minutes of `CONSOLE_LOG_RANGES`. -/
def logWindows : List ℤ := [5, 15, 60, 360, 1440]

/-- What the filter of the page selects. -/
structure LogQuery where
  serverId : String
  sourceName : Option String
  level : Option String
  query : Option String
  windowMinutes : ℤ

/-- `make_interval(mins => p_window_minutes)` -/
def LogQuery.window (q : LogQuery) : ℤ := q.windowMinutes * 60 * second

/-- `nullif(btrim(p_query), '')` -/
def LogQuery.text (q : LogQuery) : Option String := (q.query.map Text.btrim).filter (· ≠ "")

/-- The conditions on the columns of a line, at the time of the statement. -/
def LogQuery.selects [Server] (q : LogQuery) (now : ℤ) (r : LogRow) : Bool :=
  now - day ≤ r.receivedAt && now - q.window ≤ r.observedAt &&
    q.sourceName.all (r.sourceName = ·) && q.level.all (r.level = ·) &&
    q.text.all fun t => (Text.lower t).toList <:+: (Text.lower r.message).toList

variable [FractionReading]

/-- The lines that match, with their hosts. -/
def matchingLines [Server] (w : LogStore) (q : LogQuery) : List (MonitoredHost × LogRow) :=
  w.entries.filterMap fun r =>
    (w.hosts.find? (·.id = r.hostId)).bind fun h =>
      if h.serverId = q.serverId && h.enabled && q.selects w.now r then some (h, r) else none

/-- The id of a line, as a number. -/
def lineId (l : MonitoredHost × LogRow) : ℤ := l.2.id

/-- `get_console_logs_v2` -/
def getConsoleLogsV2 [Server] (w : LogStore) (q : LogQuery) (afterId : Option ℤ) (limit : ℤ) :
    Except DbError (List (MonitoredHost × LogRow)) := do
  raiseIf (!serverIdOk q.serverId || q.windowMinutes ∉ logWindows || limit < 1 || 500 < limit ||
    q.sourceName.any (· ∉ logSourceNames) || q.level.any (· ∉ logLevels) ||
    q.text.any (80 < ·.length) || afterId.any (· < 0)) (.raised "console_log_query_invalid" "22023")
  match afterId with
  | none =>
    let latest := (orderBy (fun a b => decide (lineId b ≤ lineId a)) (matchingLines w q)).take
      limit.toNat
    return orderBy (byKey lineId) latest
  | some after => return Tailing.nextOf lineId limit.toNat (matchingLines w q) after

/-! ## The reader -/

/-- `ConsoleLogEntry` -/
structure ConsoleLogEntry where
  id : ℤ
  serverId : String
  hostDisplayName : String
  sourceType : String
  sourceName : String
  observedAt : ℤ
  level : String
  message : String
  receivedAt : ℤ
  deriving DecidableEq

/-- A row as it is read. -/
def entryOf (l : MonitoredHost × LogRow) : ConsoleLogEntry where
  id := l.2.id
  serverId := l.1.serverId
  hostDisplayName := l.1.displayName
  sourceType := l.2.sourceType
  sourceName := l.2.sourceName
  observedAt := l.2.observedAt
  level := l.2.level
  message := l.2.message
  receivedAt := l.2.receivedAt

/-- `parseRow` returns the entry. -/
def ConsoleLogEntry.accepted (e : ConsoleLogEntry) : Bool :=
  1 ≤ e.id && e.id ≤ 9007199254740991 && e.sourceType ∈ ["container", "systemd"] &&
    e.sourceName ∈ logSourceNames && e.level ∈ logLevels && 1 ≤ Js.length e.message &&
    Js.length e.message ≤ 2048 && Js.dateTime (jsonTimestamptz e.observedAt) &&
    Js.dateTime (jsonTimestamptz e.receivedAt)

/-- `input.query?.trim() || null` -/
def LogQuery.trimmed (q : LogQuery) : LogQuery :=
  { q with query := (q.query.map fun t => String.ofList
      ((t.toList.dropWhile Js.isSpace).rdropWhile Js.isSpace)).filter (· ≠ "") }

/-- The tests of `normalizeQuery`. -/
def queryAccepted (q : LogQuery) (afterId : Option ℤ) (limit : ℤ) : Bool :=
  serverIdOk q.serverId && q.sourceName.all (· ∈ logSourceNames) && q.level.all (· ∈ logLevels) &&
    q.query.all (Js.length · ≤ 80) && q.windowMinutes ∈ logWindows &&
    afterId.all (fun id => 0 ≤ id && id ≤ 9007199254740991) && 1 ≤ limit && limit ≤ 500

/-- `getConsoleLogs` -/
def getConsoleLogs [Server] (w : LogStore) (q : LogQuery) (afterId : Option ℤ) (limit : ℤ) :
    Except String (List ConsoleLogEntry) := do
  Js.throwIf (!queryAccepted q.trimmed afterId limit) "invalid_query"
  match getConsoleLogsV2 w q.trimmed afterId limit with
  | .error _ => .error "storage_unavailable"
  | .ok rows =>
    Js.throwIf (rows.any fun l => !(entryOf l).accepted) "invalid_storage_response"
    return rows.map entryOf

/-! ## What the viewer shows -/

/-- `PollResponse`, the time in milliseconds -/
structure PollResponse where
  entries : List ConsoleLogEntry
  lastId : ℤ
  polledAt : ℤ

/-- A poll under way: the cursor it was sent with, and the answer once the log has been read. -/
structure Poll where
  after : ℤ
  answer : Option PollResponse

/-- The state of `LogViewer`. -/
structure LogViewer where
  query : LogQuery
  entries : List ConsoleLogEntry
  lastId : ℤ
  polls : List Poll

/-- `MAX_RENDERED_ENTRIES` -/
def maxRenderedEntries : ℕ := 800

/-- `slice(-MAX_RENDERED_ENTRIES)` -/
def newest (entries : List ConsoleLogEntry) : List ConsoleLogEntry :=
  entries.drop (entries.length - maxRenderedEntries)

/-- `byId.set(entry.id, entry)` -/
def setById (byId : List ConsoleLogEntry) (e : ConsoleLogEntry) : List ConsoleLogEntry :=
  if byId.any (·.id = e.id) then updateWhere (·.id = e.id) (fun _ => e) byId else byId ++ [e]

/-- The entry is in the range that ends at the time of the poll. -/
def LogQuery.inRange (q : LogQuery) (polledAt observedAt : ℤ) : Bool :=
  polledAt - q.windowMinutes * 60000 ≤ Js.dateParse observedAt

/-- `mergeEntries` -/
def mergeEntries (q : LogQuery) (current incoming : List ConsoleLogEntry) (polledAt : ℤ) :
    List ConsoleLogEntry :=
  let kept := (current ++ incoming).filter fun e => q.inRange polledAt e.observedAt
  newest (orderBy (byKey (·.id)) (kept.foldl setById []))

/-! ## The system -/

/-- The store and a page that is open. -/
structure Session where
  store : LogStore
  viewer : LogViewer

/-- The page is loaded with the newest `limit` lines. -/
def openViewer [Server] (w : LogStore) (q : LogQuery) (limit : ℤ) : Except String Session := do
  let entries ← getConsoleLogs w q none limit
  return ⟨w, q, newest entries, (entries.getLast?.map (·.id)).getD 0, []⟩

/-- What can happen while the page is open; a poll is named by its place among those under way. -/
inductive SessionStep where
  | store (s : StoreStep)
  | send
  | read (n : ℕ) (polledAt : ℤ)
  | deliver (n : ℕ)
  | lose (n : ℕ)

namespace Session

variable [Server] (s : Session)

/-- `GET /api/logs`, at the cursor the poll was sent with. -/
def read (n : ℕ) (polledAt : ℤ) : Session :=
  match s.viewer.polls[n]? with
  | some ⟨after, none⟩ =>
    match getConsoleLogs s.store s.viewer.query (some after) 200 with
    | .ok entries =>
      let answer := ⟨entries, (entries.getLast?.map (·.id)).getD after, polledAt⟩
      { s with viewer.polls := s.viewer.polls.set n ⟨after, some answer⟩ }
    | .error _ => { s with viewer.polls := s.viewer.polls.eraseIdx n }
  | _ => s

/-- The answer of a poll is merged into what is shown. -/
def deliver (n : ℕ) : Session :=
  match s.viewer.polls[n]? with
  | some ⟨_, some r⟩ =>
    { s with viewer :=
      { s.viewer with
        entries := mergeEntries s.viewer.query s.viewer.entries r.entries r.polledAt
        lastId := max s.viewer.lastId r.lastId
        polls := s.viewer.polls.eraseIdx n } }
  | _ => s

/-- One thing happens. -/
def step : SessionStep → Session
  | .store step => { s with store := s.store.step step }
  | .send => { s with viewer.polls := s.viewer.polls ++ [⟨s.viewer.lastId, none⟩] }
  | .read n polledAt => s.read n polledAt
  | .deliver n => s.deliver n
  | .lose n => { s with viewer.polls := s.viewer.polls.eraseIdx n }

/-- The session after a run. -/
def run (steps : List SessionStep) : Session := Runs.run step s steps

end Session

end IvrmDashboard.ConsoleLogs
