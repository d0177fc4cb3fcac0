import IvrmDashboard.Foundations.Js.Date
import IvrmDashboard.Foundations.Js.Throws
import IvrmDashboard.StatusCenter.Feed

/-!
# The reader of the public feed

The console asks the database for the feed and checks every field of the answer before it is shown.
The first field that does not pass throws, and the whole feed is lost with it. A JSON value that is
read is a `Jsonb` value, and a field that is not there is `none`, JavaScript's `undefined`.
-/

namespace IvrmDashboard.StatusCenter

open Sql Notifications

/-! ## What is read -/

/-- `PublicStatusIncidentUpdate` -/
structure PublicStatusIncidentUpdate where
  status : Lifecycle
  message : String
  publishedAt : String

/-- `PublicStatusIncident` -/
structure PublicStatusIncident where
  publicId : String
  title : String
  status : Lifecycle
  impact : Impact
  affectedServiceIds : List String
  startedAt : String
  resolvedAt : Option String
  updatedAt : String
  summary : String
  source : SourceType
  updates : List PublicStatusIncidentUpdate

/-- `state` of `PublicStatusMaintenance` -/
inductive MaintenanceState
  | scheduled
  | inProgress
  | completed
  | cancelled
  deriving DecidableEq

namespace MaintenanceState

def all : List MaintenanceState := [scheduled, inProgress, completed, cancelled]

def text : MaintenanceState → String
  | scheduled => "scheduled"
  | inProgress => "in_progress"
  | completed => "completed"
  | cancelled => "cancelled"

end MaintenanceState

/-- `PublicStatusMaintenance` -/
structure PublicStatusMaintenance where
  publicId : String
  title : String
  summary : String
  affectedServiceIds : List String
  startsAt : String
  endsAt : String
  state : MaintenanceState
  updatedAt : String

/-- `PublicStatusAnnouncement` -/
structure PublicStatusAnnouncement where
  publicId : String
  kind : AnnouncementKind
  title : String
  body : String
  affectedServiceIds : List String
  publishedAt : String
  expiresAt : Option String
  active : Bool

/-- `PublicStatusFeed`; `schemaVersion` is always `"1.0"`. -/
structure PublicStatusFeed where
  generatedAt : String
  incidents : List PublicStatusIncident
  maintenance : List PublicStatusMaintenance
  announcements : List PublicStatusAnnouncement

/-! ## Fields -/

namespace PublicFeed

open Js

/-- `row` -/
def row (value : Option Jsonb) (label : String) : Except String Jsonb :=
  orThrow (value.filter Jsonb.isObject) (label ++ "形式が不正です")

/-- The items of an array. -/
def items? : Option Jsonb → Option (List Jsonb)
  | some (.arr items) => some items
  | _ => none

/-- The characters of a string. -/
def string? : Option Jsonb → Option String
  | some (.str s) => some s
  | _ => none

/-- The value of a boolean. -/
def bool? : Option Jsonb → Option Bool
  | some (.bool b) => some b
  | _ => none

/-- `text` -/
def text (value : Option Jsonb) (label : String) (max : ℕ) : Except String String :=
  orThrow ((string? value).filter fun s => 1 ≤ Js.length s && Js.length s ≤ max)
    (label ++ "が不正です")

/-- `instant` -/
def instant (value : Option Jsonb) (label : String) : Except String String := do
  let result ← text value label 64
  throwIf (!dateTime result) (label ++ "日時が不正です")
  return result

/-- `optionalInstant` -/
def optionalInstant (value : Option Jsonb) (label : String) : Except String (Option String) :=
  match value with
  | some .null => .ok none
  | value => (instant value label).map some

/-- `enumValue`; `values` are the members of the enumeration with their texts. -/
def enumValue {α : Type} (value : Option Jsonb) (values : List α) (name : α → String)
    (label : String) : Except String α :=
  orThrow ((string? value).bind fun s => values.find? (name · == s)) (label ++ "が不正です")

/-- `PUBLIC_ID.test(s)` -/
def publicIdTest (s : String) : Bool :=
  [StatusSource.incident, .maintenance, .announcement].any (·.publicIdOk s)

/-- `publicId`; the prefix is given with its hyphen, as `source.idPrefix`. -/
def publicId (value : Option Jsonb) (source : StatusSource) : Except String String := do
  let label := String.ofList (source.idPrefix.toList.dropLast) ++ " publicId"
  let result ← text value label 32
  throwIf (!publicIdTest result || !source.idPrefix.toList.isPrefixOf result.toList)
    (label ++ "が不正です")
  return result

/-- One item of `services`. -/
def serviceId (item : Jsonb) : Except String String :=
  orThrow ((string? (some item)).filter serviceIdMatches) "serviceIdが不正です"

/-- `services` -/
def services (value : Option Jsonb) : Except String (List String) := do
  let items ← orThrow ((items? value).filter fun items => items.length ≤ 32)
    "affectedServiceIds形式が不正です"
  let result ← items.mapM serviceId
  throwIf (result.dedup.length ≠ result.length) "serviceIdが重複しています"
  return result

/-! ## Records -/

/-- One item of `updates`. -/
def parseUpdate (update : Jsonb) : Except String PublicStatusIncidentUpdate := do
  let detail ← row (some update) "Incident update"
  return {
    status := ← enumValue (detail.get? "status") Lifecycle.all Lifecycle.text
      "Incident update status"
    message := ← text (detail.get? "message") "Incident update message" 2000
    publishedAt := ← instant (detail.get? "publishedAt") "Incident update publishedAt" }

/-- `parseIncident` -/
def parseIncident (value : Jsonb) : Except String PublicStatusIncident := do
  let item ← row (some value) "Incident"
  let updates ← orThrow ((items? (item.get? "updates")).filter fun updates => updates.length ≤ 500)
    "Incident updates形式が不正です"
  return {
    publicId := ← publicId (item.get? "publicId") .incident
    title := ← text (item.get? "title") "Incident title" 160
    status := ← enumValue (item.get? "status") Lifecycle.all Lifecycle.text "Incident status"
    impact := ← enumValue (item.get? "impact") Impact.all Impact.text "Incident impact"
    affectedServiceIds := ← services (item.get? "affectedServiceIds")
    startedAt := ← instant (item.get? "startedAt") "Incident startedAt"
    resolvedAt := ← optionalInstant (item.get? "resolvedAt") "Incident resolvedAt"
    updatedAt := ← instant (item.get? "updatedAt") "Incident updatedAt"
    summary := ← text (item.get? "summary") "Incident summary" 2000
    source := ← enumValue (item.get? "source") [SourceType.automatic, .manual] SourceType.text
      "Incident source"
    updates := ← updates.mapM parseUpdate }

/-- `parseMaintenance` -/
def parseMaintenance (value : Jsonb) : Except String PublicStatusMaintenance := do
  let item ← row (some value) "Maintenance"
  return {
    publicId := ← publicId (item.get? "publicId") .maintenance
    title := ← text (item.get? "title") "Maintenance title" 160
    summary := ← text (item.get? "summary") "Maintenance summary" 4000
    affectedServiceIds := ← services (item.get? "affectedServiceIds")
    startsAt := ← instant (item.get? "startsAt") "Maintenance startsAt"
    endsAt := ← instant (item.get? "endsAt") "Maintenance endsAt"
    state := ← enumValue (item.get? "state") MaintenanceState.all MaintenanceState.text
      "Maintenance state"
    updatedAt := ← instant (item.get? "updatedAt") "Maintenance updatedAt" }

/-- `parseAnnouncement` -/
def parseAnnouncement (value : Jsonb) : Except String PublicStatusAnnouncement := do
  let item ← row (some value) "Announcement"
  let active ← orThrow (bool? (item.get? "active")) "Announcement activeが不正です"
  return {
    publicId := ← publicId (item.get? "publicId") .announcement
    kind := ← enumValue (item.get? "kind") [AnnouncementKind.info, .warning] AnnouncementKind.text
      "Announcement kind"
    title := ← text (item.get? "title") "Announcement title" 160
    body := ← text (item.get? "body") "Announcement body" 4000
    affectedServiceIds := ← services (item.get? "affectedServiceIds")
    publishedAt := ← instant (item.get? "publishedAt") "Announcement publishedAt"
    expiresAt := ← optionalInstant (item.get? "expiresAt") "Announcement expiresAt"
    active := active }

/-- The three lists of an answer whose schema version is right. -/
def lists? (payload : Jsonb) : Option (List Jsonb × List Jsonb × List Jsonb) :=
  if string? (payload.get? "schemaVersion") = some "1.0" then
    match items? (payload.get? "incidents"), items? (payload.get? "maintenance"),
      items? (payload.get? "announcements") with
    | some incidents, some maintenance, some announcements =>
      some (incidents, maintenance, announcements)
    | _, _, _ => none
  else none

/-- `getPublicStatusFeed`, from the answer of the database on -/
def getPublicStatusFeed (answer : Jsonb) : Except String PublicStatusFeed := do
  let payload ← row (some answer) "Public Status Feed"
  let (incidents, maintenance, announcements) ←
    orThrow (lists? payload) "Public Status Feed契約が不正です"
  return {
    generatedAt := ← instant (payload.get? "generatedAt") "Public Status Feed generatedAt"
    incidents := ← incidents.mapM parseIncident
    maintenance := ← maintenance.mapM parseMaintenance
    announcements := ← announcements.mapM parseAnnouncement }

end PublicFeed

/-! ## As JSON -/

/-- The object of an update. -/
def PublicStatusIncidentUpdate.json (u : PublicStatusIncidentUpdate) : Jsonb :=
  Jsonb.buildObject
    [("status", .str u.status.text), ("message", .str u.message), ("publishedAt", .str u.publishedAt)]

/-- The object of an incident. -/
def PublicStatusIncident.json (i : PublicStatusIncident) : Jsonb :=
  Jsonb.buildObject
    [("publicId", .str i.publicId), ("title", .str i.title), ("status", .str i.status.text),
      ("impact", .str i.impact.text), ("affectedServiceIds", .arr (i.affectedServiceIds.map .str)),
      ("startedAt", .str i.startedAt), ("resolvedAt", .ofOption .str i.resolvedAt),
      ("updatedAt", .str i.updatedAt), ("summary", .str i.summary), ("source", .str i.source.text),
      ("updates", .arr (i.updates.map PublicStatusIncidentUpdate.json))]

/-- The object of a maintenance notice. -/
def PublicStatusMaintenance.json (m : PublicStatusMaintenance) : Jsonb :=
  Jsonb.buildObject
    [("publicId", .str m.publicId), ("title", .str m.title), ("summary", .str m.summary),
      ("affectedServiceIds", .arr (m.affectedServiceIds.map .str)), ("startsAt", .str m.startsAt),
      ("endsAt", .str m.endsAt), ("state", .str m.state.text), ("updatedAt", .str m.updatedAt)]

/-- The object of an announcement. -/
def PublicStatusAnnouncement.json (a : PublicStatusAnnouncement) : Jsonb :=
  Jsonb.buildObject
    [("publicId", .str a.publicId), ("kind", .str a.kind.text), ("title", .str a.title),
      ("body", .str a.body), ("affectedServiceIds", .arr (a.affectedServiceIds.map .str)),
      ("publishedAt", .str a.publishedAt), ("expiresAt", .ofOption .str a.expiresAt),
      ("active", .bool a.active)]

/-- The object of the feed. -/
def PublicStatusFeed.json (f : PublicStatusFeed) : Jsonb :=
  Jsonb.buildObject
    [("schemaVersion", .str "1.0"), ("generatedAt", .str f.generatedAt),
      ("incidents", .arr (f.incidents.map PublicStatusIncident.json)),
      ("maintenance", .arr (f.maintenance.map PublicStatusMaintenance.json)),
      ("announcements", .arr (f.announcements.map PublicStatusAnnouncement.json))]

end IvrmDashboard.StatusCenter
