import Mathlib.Data.List.Dedup
import IvrmDashboard.Foundations.Sql.ToJsonb
import IvrmDashboard.Notifications.StatusQueue
import IvrmDashboard.Operations.Audit

/-!
# The tables of the Status Center

Incidents with their public updates, maintenance notices and announcements, each with the request
that created it, and the ledgers of the requests that published, cancelled or archived one. A call
reads the clock when it begins (`sampledAt`) and may wait for a row lock before the rest of it runs
as one step; the audit log and the queue of notifications read the clock again then.
-/

namespace IvrmDashboard.StatusCenter

open Sql Notifications

/-! ## Arguments -/

/-- Who makes a call, as the arguments report it. -/
structure Actor where
  email : Option String
  role : Option String
  discordUserId : Option String
  deriving DecidableEq

/-- `status_actor_valid_v1`; a role that is `NULL` leaves the answer open. -/
def statusActorValid [Server] (a : Actor) : Tri :=
  (isIn a.role ["administrator", "owner"]).and
    (some ((a.email.all fun e => Text.lengthBetween 3 320 e && e == Text.lower (Text.btrim e)) &&
      (a.discordUserId.all fun d => Text.lengthBetween 17 20 d && Text.matchesPlus Text.digit d) &&
      (a.email.isSome || a.discordUserId.isSome)))

/-- `service_id ~ '^[a-z0-9][a-z0-9-]{2,63}$'` -/
def serviceIdMatches (s : String) : Bool :=
  match s.toList with
  | [] => false
  | c :: rest =>
    (Text.lowerAlpha c || Text.digit c) && 2 ≤ rest.length && rest.length ≤ 63 &&
      rest.all fun c => Text.lowerAlpha c || Text.digit c || c == '-'

/-- `status_service_ids_valid_v1` -/
def statusServiceIdsValid : Option TextArray → Bool
  | none => false
  | some a =>
    1 ≤ a.cardinality && a.cardinality ≤ 32 &&
      (a.elements.all fun x => x.any fun s => Text.lengthBetween 3 64 s && serviceIdMatches s) &&
      a.cardinality = (a.elements.filterMap id).dedup.length

/-- `btrim(p)`, if its length is within the limits. -/
def trimmedWithin (lo hi : ℕ) (p : Option String) : Option String :=
  (p.map Text.btrim).filter (Text.lengthBetween lo hi)

/-! ## Enumerated columns -/

/-- `lifecycle_status` -/
inductive Lifecycle
  | investigating
  | identified
  | monitoring
  | resolved
  deriving DecidableEq

namespace Lifecycle

def all : List Lifecycle := [investigating, identified, monitoring, resolved]

def text : Lifecycle → String
  | investigating => "investigating"
  | identified => "identified"
  | monitoring => "monitoring"
  | resolved => "resolved"

/-- The status a text names. -/
def ofText? (s : String) : Option Lifecycle := all.find? fun l => l.text == s

end Lifecycle

/-- `impact` -/
inductive Impact
  | none
  | minor
  | major
  | critical
  deriving DecidableEq

namespace Impact

def all : List Impact := [none, minor, major, critical]

def text : Impact → String
  | none => "none"
  | minor => "minor"
  | major => "major"
  | critical => "critical"

/-- The impact a text names. -/
def ofText? (s : String) : Option Impact := all.find? fun i => i.text == s

end Impact

/-- `source_type` of an incident -/
inductive SourceType
  | automatic
  | manual
  deriving DecidableEq

def SourceType.text : SourceType → String
  | automatic => "automatic"
  | manual => "manual"

/-- `kind` of an announcement -/
inductive AnnouncementKind
  | info
  | warning
  deriving DecidableEq

namespace AnnouncementKind

def text : AnnouncementKind → String
  | info => "info"
  | warning => "warning"

/-- The kind a text names. -/
def ofText? (s : String) : Option AnnouncementKind := [info, warning].find? fun k => k.text == s

end AnnouncementKind

/-- `publication_state`; each table allows three of them. -/
inductive PublicationState
  | draft
  | published
  | cancelled
  | archived
  deriving DecidableEq

/-- `p not in (…)` for a set of names: what is `NULL` passes. -/
def named {α : Type} (ofText? : String → Option α) (e : DbError) :
    Option String → Except DbError (Option α)
  | none => .ok none
  | some s => (orRaise (ofText? s) e).map some

/-! ## Rows -/

/-- A row of `status_incidents`. -/
structure Incident where
  id : Uuid
  publicId : String
  title : String
  lifecycleStatus : Lifecycle
  impact : Impact
  affectedServiceIds : TextArray
  sourceType : SourceType
  startedAt : Timestamptz
  resolvedAt : Option ℤ
  summary : String
  publicationState : PublicationState
  publishedAt : Option ℤ
  createRequestId : Uuid
  createdAt : ℤ
  updatedAt : ℤ
  deriving DecidableEq

/-- The test on the titles of all three tables. -/
def titleOk (s : String) : Bool := Text.lengthBetween 1 160 s && s == Text.btrim s

/-- The test on longer texts. -/
def bodyOk (hi : ℕ) (s : String) : Bool := Text.lengthBetween 1 hi s && s == Text.btrim s

/-- The constraints of an incident. -/
def Incident.checks (i : Incident) : List (String × Bool) :=
  [("status_incidents_public_id_check", StatusSource.incident.publicIdOk i.publicId),
    ("status_incidents_publication_check",
      i.publicationState ∈ [.draft, .published, .archived]),
    ("status_incidents_publish_time_check",
      if i.publicationState = .draft then i.publishedAt.isNone else i.publishedAt.isSome),
    ("status_incidents_resolution_check",
      if i.lifecycleStatus = .resolved then i.resolvedAt.any fun t => i.startedAt ≤ .ofInstant t
      else i.resolvedAt.isNone),
    ("status_incidents_services_check", statusServiceIdsValid (some i.affectedServiceIds)),
    ("status_incidents_summary_check", bodyOk 2000 i.summary),
    ("status_incidents_time_check", i.createdAt ≤ i.updatedAt),
    ("status_incidents_title_check", titleOk i.title)]

/-- A row of `status_incident_updates`. -/
structure IncidentUpdate where
  id : ℕ
  incidentId : Uuid
  lifecycleStatus : Lifecycle
  message : String
  publishedAt : ℤ
  requestId : Uuid
  createdAt : ℤ
  deriving DecidableEq

/-- Five minutes. -/
def fiveMinutes : ℤ := 300 * second

/-- The constraints of an update. -/
def IncidentUpdate.checks (u : IncidentUpdate) : List (String × Bool) :=
  [("status_incident_updates_message_check", bodyOk 2000 u.message),
    ("status_incident_updates_publish_time_check", u.publishedAt ≤ u.createdAt + fiveMinutes)]

/-- A row of `status_maintenance_notices`. -/
structure MaintenanceNotice where
  id : Uuid
  publicId : String
  title : String
  body : String
  affectedServiceIds : TextArray
  startsAt : Timestamptz
  endsAt : Timestamptz
  publicationState : PublicationState
  publishedAt : Option ℤ
  cancelledAt : Option ℤ
  reliabilityWindowId : Option Uuid
  createRequestId : Uuid
  createdAt : ℤ
  updatedAt : ℤ
  deriving DecidableEq

/-- Longest maintenance. -/
def fourteenDays : ℤ := 14 * day

/-- The constraints of a maintenance notice. -/
def MaintenanceNotice.checks (m : MaintenanceNotice) : List (String × Bool) :=
  [("status_maintenance_notices_body_check", bodyOk 4000 m.body),
    ("status_maintenance_notices_cancel_time_check", m.cancelledAt.all (m.createdAt ≤ ·)),
    ("status_maintenance_notices_public_id_check", StatusSource.maintenance.publicIdOk m.publicId),
    ("status_maintenance_notices_publication_check",
      m.publicationState ∈ [.draft, .published, .cancelled]),
    ("status_maintenance_notices_publish_time_check",
      match m.publicationState with
      | .draft => m.publishedAt.isNone && m.cancelledAt.isNone
      | .published => m.publishedAt.isSome && m.cancelledAt.isNone
      | .cancelled => m.publishedAt.isSome && m.cancelledAt.isSome
      | .archived => false),
    ("status_maintenance_notices_services_check",
      statusServiceIdsValid (some m.affectedServiceIds)),
    ("status_maintenance_notices_time_check",
      m.startsAt < m.endsAt && m.endsAt ≤ m.startsAt.add fourteenDays &&
        m.createdAt ≤ m.updatedAt),
    ("status_maintenance_notices_title_check", titleOk m.title)]

/-- A row of `status_announcements`. -/
structure Announcement where
  id : Uuid
  publicId : String
  kind : AnnouncementKind
  title : String
  body : String
  affectedServiceIds : Option TextArray
  publishAt : Timestamptz
  expiresAt : Option Timestamptz
  publicationState : PublicationState
  publishedAt : Option ℤ
  archivedAt : Option ℤ
  createRequestId : Uuid
  createdAt : ℤ
  updatedAt : ℤ
  deriving DecidableEq

/-- The constraints of an announcement. -/
def Announcement.checks (a : Announcement) : List (String × Bool) :=
  [("status_announcements_body_check", bodyOk 4000 a.body),
    ("status_announcements_expiry_check", a.expiresAt.all (a.publishAt < ·)),
    ("status_announcements_public_id_check", StatusSource.announcement.publicIdOk a.publicId),
    ("status_announcements_publication_check",
      a.publicationState ∈ [.draft, .published, .archived]),
    ("status_announcements_publish_time_check",
      match a.publicationState with
      | .draft => a.publishedAt.isNone && a.archivedAt.isNone
      | .published => a.publishedAt.isSome && a.archivedAt.isNone
      | .archived => a.publishedAt.isSome && a.archivedAt.isSome
      | .cancelled => false),
    ("status_announcements_services_check",
      a.affectedServiceIds.all fun s => statusServiceIdsValid (some s)),
    ("status_announcements_title_check", titleOk a.title),
    ("status_announcements_update_time_check", a.createdAt ≤ a.updatedAt)]

/-- `action` of a ledger -/
inductive MutationAction
  | publish
  | cancel
  | archive
  deriving DecidableEq

/-- A row of either ledger; `objectId` is `maintenance_id` or `announcement_id`. -/
structure MutationRequest where
  requestId : Uuid
  objectId : Uuid
  action : MutationAction
  deriving DecidableEq

/-! ## The state -/

/-- The tables of the Status Center itself. -/
structure Store where
  incidents : List Incident
  updates : List IncidentUpdate
  nextUpdateId : ℕ
  notices : List MaintenanceNotice
  noticeRequests : List MutationRequest
  announcements : List Announcement
  announcementRequests : List MutationRequest

/-- Nothing has been created. -/
def Store.empty : Store := ⟨[], [], 1, [], [], [], []⟩

/-- All tables the calls write. -/
structure Center extends Store where
  queue : StatusQueue
  audit : Audit.Tables

/-- The tables after the migrations, which ran at `t`. -/
def Center.initial (t : ℤ) : Center where
  toStore := .empty
  queue := .empty
  audit := .initial t

/-- What a call finds: its transaction begins, the function reads the clock, and the rest of it runs
when the locks are there. `newId` and `newSeed` are what `gen_random_uuid()` yields, and
`windowOpen` tells the reliability windows that exist and are not cancelled. -/
structure Invocation where
  begunAt : ℤ
  sampledAt : ℤ
  clock : ℤ
  begun_le : begunAt ≤ sampledAt
  sampled_le : sampledAt ≤ clock
  newId : Uuid
  newSeed : Uuid
  windowOpen : Uuid → Bool
  settings : Settings

namespace Invocation

/-- `v_now` -/
def now (v : Invocation) : Timestamptz := .ofInstant v.sampledAt

/-- `'INC-' || upper(substr(replace(gen_random_uuid()::text, '-', ''), 1, 12))` and its like -/
def newPublicId (v : Invocation) (source : StatusSource) : String :=
  String.ofList (source.idPrefix.toList ++ (v.newSeed.digits.take 12).map Char.toUpper)

end Invocation

/-! ## What every call does on its way -/

/-- The request and the actor, or why the call is refused. -/
def authorize [Server] (name : String) (requestId : Option Uuid) (missing : String) (a : Actor) :
    Except DbError Uuid := do
  let requestId ← orRaise requestId (.raised (name ++ missing) "22023")
  raiseIf (statusActorValid a).not.holds (.raised (name ++ "_actor_forbidden") "42501")
  return requestId

/-- An object of the audit log: the actor's Discord id and the public id come first. -/
def auditMetadata (a : Actor) (publicId : String) (fields : List (String × Jsonb)) : Jsonb :=
  (Jsonb.buildObject (("discordUserId", .ofOption .str a.discordUserId) ::
    ("publicId", .str publicId) :: fields)).stripNulls

namespace Center

variable (v : Invocation) (c : Center)

/-- `perform append_audit_log(…)` -/
def appendAudit [Server] (requestId : Uuid) (a : Actor) (action targetType publicId : String)
    (fields : List (String × Jsonb)) : Except DbError Center := do
  let (_, audit) ← Audit.appendAuditLog (fun _ => false) v.clock
    { requestId := some requestId
      actorUserId := none
      actorEmail := a.email
      actorRole := a.role
      actorIp := none
      action := some action
      targetType := some targetType
      targetId := some publicId
      result := some "success"
      metadata := some (auditMetadata a publicId fields) } c.audit
  return { c with audit }

/-- `perform create_status_notification_event_v1(…)` -/
def notify (p : StatusEventParams) : Except DbError Center := do
  let (_, queue) ← createStatusNotificationEvent ⟨v.clock, v.settings⟩ p c.queue
  return { c with queue }

end Center

end IvrmDashboard.StatusCenter
