import IvrmDashboard.StatusCenter.Incidents

/-!
# Maintenance notices and announcements

Both are created as drafts under an idempotency key, published, and taken back. Four functions
publish, cancel and archive; they differ in what they check and in what they set, and `Mutation.run`
is what they share: the request is looked up in a ledger, and an answer without an entry there
leaves one.
-/

namespace IvrmDashboard.StatusCenter

open Sql Notifications

/-! ## Tables with a ledger -/

/-- A table of objects, its ledger, and how the functions of the table name themselves. -/
structure Table (ρ : Type) where
  name : String
  source : StatusSource
  rows : Store → List ρ
  setRows : List ρ → Store → Store
  requests : Store → List MutationRequest
  setRequests : List MutationRequest → Store → Store
  id : ρ → Uuid
  publicId : ρ → String
  createRequestId : ρ → Uuid
  checks : ρ → List (String × Bool)
  indexes : String
  event : ρ → ρ → Except DbError (Option StatusEventParams)

namespace Table

variable {ρ : Type} (t : Table ρ)

/-- The object stored under the key has to agree with the arguments; without one the call goes
on. -/
def createOnce (key : Uuid) (agrees : ρ → Bool) (create : Except DbError (ρ × Center))
    (c : Center) : Except DbError (ρ × Center) :=
  match (t.rows c.toStore).find? (t.createRequestId · = key) with
  | some r => do
    raiseIf (!agrees r) (.raised (t.name ++ "_idempotency_conflict") "23505")
    return (r, c)
  | none => create

/-- `insert into …` -/
def insert (r : ρ) (c : Center) : Except DbError Center := do
  checkAll (t.checks r)
  raiseIf ((t.rows c.toStore).any (t.id · = t.id r)) (.uniqueViolation (t.indexes ++ "_pkey"))
  raiseIf ((t.rows c.toStore).any (t.publicId · = t.publicId r))
    (.uniqueViolation (t.indexes ++ "_public_id_key"))
  return { c with toStore := t.setRows (t.rows c.toStore ++ [r]) c.toStore }

/-- The object with this id is replaced. -/
def replace (old new : ρ) (s : Store) : Store :=
  t.setRows (updateWhere (t.id · = t.id old) (fun _ => new) (t.rows s)) s

/-- `update … set … where id = …`, and the trigger on `publication_state`. -/
def update (v : Invocation) (old new : ρ) (c : Center) : Except DbError Center := do
  checkAll (t.checks new)
  let c := { c with toStore := t.replace old new c.toStore }
  let event ← t.event old new
  match event with
  | none => return c
  | some p => c.notify v p

end Table

/-- One of the functions that publish, cancel or archive: what it refuses, when it has nothing left
to do, the row it writes otherwise, and what it logs. -/
structure Mutation (ρ : Type) where
  table : Table ρ
  action : MutationAction
  auditAction : String
  refuse : Invocation → ρ → Except DbError Unit
  settled : ρ → Bool
  write : Invocation → ρ → Except DbError ρ
  auditFields : Invocation → ρ → Bool → List (String × Jsonb)

namespace Mutation

variable {ρ : Type} (m : Mutation ρ)

/-- The object after the call: it may be settled already. -/
def settle (v : Invocation) (r : ρ) (c : Center) : Except DbError (ρ × Center) :=
  if m.settled r then .ok (r, c)
  else do
    let new ← m.write v r
    let c ← m.table.update v r new c
    return (new, c)

/-- The entry of the ledger. -/
def record (requestId : Uuid) (r : ρ) (s : Store) : Store :=
  m.table.setRequests (m.table.requests s ++ [⟨requestId, m.table.id r, m.action⟩]) s

/-- The call is new to the ledger. -/
def perform [Server] (v : Invocation) (requestId : Uuid) (a : Actor) (r : ρ) (c : Center) :
    Except DbError (ρ × Center) := do
  m.refuse v r
  let (new, c) ← m.settle v r c
  let c := { c with toStore := m.record requestId new c.toStore }
  let c ← c.appendAudit v requestId a m.auditAction m.table.name (m.table.publicId new)
    (m.auditFields v new (m.settled r))
  return (new, c)

/-- What the four functions share. -/
def run [Server] (v : Invocation) (p : MutationParams) (c : Center) :
    Except DbError (ρ × Center) := do
  let (requestId, publicId) ← p.validate m.table.name m.table.source
  let r ← orRaise ((m.table.rows c.toStore).find? (m.table.publicId · = publicId))
    (.raised (m.table.name ++ "_not_found") "P0002")
  match (m.table.requests c.toStore).find? (·.requestId = requestId) with
  | some q =>
    raiseIf (q.objectId ≠ m.table.id r || q.action ≠ m.action)
      (.raised (m.table.name ++ "_request_conflict") "23505")
    return (r, c)
  | none => m.perform v requestId p.actor r c

end Mutation

/-! ## Maintenance notices -/

/-- `status_maintenance_notification_event_trigger_v1` -/
def MaintenanceNotice.event (old new : MaintenanceNotice) :
    Except DbError (Option StatusEventParams) :=
  let content (eventType : StatusEventType) (suffix severity : String) (t : ℤ) :
      StatusEventParams :=
    { eventKey := some ("status:maintenance:" ++ new.publicId ++ suffix)
      eventType := some eventType.text
      sourceType := some StatusSource.maintenance.text
      sourcePublicId := some new.publicId
      title := some new.title
      message := some new.body
      detailHref := some "/status-center"
      severity := some severity
      occurredAt := some (.ofInstant t) }
  let missing : DbError := .raised "status_maintenance_notification_timestamp_missing" "40001"
  match old.publicationState, new.publicationState with
  | .draft, .published => do
    let t ← orRaise new.publishedAt missing
    return some (content .maintenancePublished ":published" "info" t)
  | .published, .cancelled => do
    let t ← orRaise new.cancelledAt missing
    return some (content .maintenanceCancelled ":cancelled" "warning" t)
  | _, _ => return none

/-- `status_maintenance_notices` and its ledger. -/
def maintenanceTable : Table MaintenanceNotice where
  name := "status_maintenance"
  source := .maintenance
  rows := Store.notices
  setRows rows s := { s with notices := rows }
  requests := Store.noticeRequests
  setRequests requests s := { s with noticeRequests := requests }
  id := MaintenanceNotice.id
  publicId := MaintenanceNotice.publicId
  createRequestId := MaintenanceNotice.createRequestId
  checks := MaintenanceNotice.checks
  indexes := "status_maintenance_notices"
  event := MaintenanceNotice.event

/-- The arguments of `create_status_maintenance_v1`. -/
structure MaintenanceParams where
  title : Option String
  body : Option String
  affectedServiceIds : Option TextArray
  startsAt : Option Timestamptz
  endsAt : Option Timestamptz
  reliabilityWindowId : Option Uuid
  idempotencyKey : Option Uuid
  actor : Actor

namespace MaintenanceParams

variable (p : MaintenanceParams)

/-- The notice stored under the key agrees with the arguments. -/
def agrees (m : MaintenanceNotice) : Bool :=
  !(isDistinct (some m.title) (p.title.map Text.btrim) ||
    isDistinct (some m.body) (p.body.map Text.btrim) ||
    isDistinct (some m.affectedServiceIds) p.affectedServiceIds ||
    isDistinct (some m.startsAt) p.startsAt || isDistinct (some m.endsAt) p.endsAt ||
    isDistinct m.reliabilityWindowId p.reliabilityWindowId)

/-- The beginning and the end of the maintenance, if they are allowed. -/
def schedule? (now : Timestamptz) : Option (Timestamptz × Timestamptz) :=
  match p.startsAt, p.endsAt with
  | some s, some e => if s < e && e ≤ s.add fourteenDays && now < e then some (s, e) else none
  | _, _ => none

/-- The new row, if the arguments pass their checks. -/
def row (v : Invocation) (key : Uuid) : Except DbError MaintenanceNotice := do
  let title ←
    orRaise (trimmedWithin 1 160 p.title) (.raised "status_maintenance_title_invalid" "22023")
  let body ←
    orRaise (trimmedWithin 1 4000 p.body) (.raised "status_maintenance_body_invalid" "22023")
  let affectedServiceIds ←
    orRaise (p.affectedServiceIds.filter fun a => statusServiceIdsValid (some a))
      (.raised "status_maintenance_services_invalid" "22023")
  let (startsAt, endsAt) ←
    orRaise (p.schedule? v.now) (.raised "status_maintenance_schedule_invalid" "22023")
  raiseIf (!p.reliabilityWindowId.all v.windowOpen)
    (.raised "status_maintenance_reliability_window_invalid" "22023")
  return {
    id := v.newId
    publicId := v.newPublicId .maintenance
    title, body, affectedServiceIds, startsAt, endsAt
    publicationState := .draft
    publishedAt := none
    cancelledAt := none
    reliabilityWindowId := p.reliabilityWindowId
    createRequestId := key
    createdAt := v.begunAt
    updatedAt := v.begunAt }

/-- A new notice is stored and logged. -/
def create [Server] (v : Invocation) (key : Uuid) (c : Center) :
    Except DbError (MaintenanceNotice × Center) := do
  let m ← p.row v key
  let c ← maintenanceTable.insert m c
  let c ← c.appendAudit v key p.actor "STATUS_MAINTENANCE_CREATE" "status_maintenance" m.publicId
    [("affectedServiceIds", m.affectedServiceIds.toJsonb), ("startsAt", m.startsAt.toJsonb),
      ("endsAt", m.endsAt.toJsonb),
      ("reliabilityWindowId", .ofOption (fun u => .str u.text) m.reliabilityWindowId)]
  return (m, c)

end MaintenanceParams

/-- `create_status_maintenance_v1` -/
def createStatusMaintenance [Server] (v : Invocation) (p : MaintenanceParams) (c : Center) :
    Except DbError (MaintenanceNotice × Center) := do
  let key ← authorize "status_maintenance" p.idempotencyKey "_idempotency_required" p.actor
  maintenanceTable.createOnce key p.agrees (p.create v key c) c

/-- What the log keeps of a notice. -/
def MaintenanceNotice.auditFields (m : MaintenanceNotice) (flag : String) (already : Bool) :
    List (String × Jsonb) :=
  [("startsAt", m.startsAt.toJsonb), ("endsAt", m.endsAt.toJsonb), (flag, .bool already)]

/-- Publishing a notice. -/
def publishMaintenance : Mutation MaintenanceNotice where
  table := maintenanceTable
  action := .publish
  auditAction := "STATUS_MAINTENANCE_PUBLISH"
  refuse v m := do
    raiseIf (m.publicationState = .cancelled) (.raised "status_maintenance_cancelled" "22023")
    raiseIf (m.endsAt ≤ v.now) (.raised "status_maintenance_already_completed" "22023")
  settled m := m.publicationState = .published
  write v m := .ok
    { m with
      publicationState := .published
      publishedAt := some v.sampledAt
      updatedAt := v.sampledAt }
  auditFields _ m := m.auditFields "alreadyPublished"

/-- Cancelling a notice before it starts. -/
def cancelMaintenance : Mutation MaintenanceNotice where
  table := maintenanceTable
  action := .cancel
  auditAction := "STATUS_MAINTENANCE_CANCEL"
  refuse _ m :=
    raiseIf (m.publicationState = .draft) (.raised "status_maintenance_not_published" "22023")
  settled m := m.publicationState = .cancelled
  write v m := do
    raiseIf (m.startsAt ≤ v.now) (.raised "status_maintenance_already_started" "22023")
    return { m with
      publicationState := .cancelled
      cancelledAt := some v.sampledAt
      updatedAt := v.sampledAt }
  auditFields _ m := m.auditFields "alreadyCancelled"

/-- `publish_status_maintenance_v1` -/
def publishStatusMaintenance [Server] (v : Invocation) (p : MutationParams) (c : Center) :
    Except DbError (MaintenanceNotice × Center) :=
  publishMaintenance.run v p c

/-- `cancel_status_maintenance_v1` -/
def cancelStatusMaintenance [Server] (v : Invocation) (p : MutationParams) (c : Center) :
    Except DbError (MaintenanceNotice × Center) :=
  cancelMaintenance.run v p c

/-! ## Announcements -/

/-- `status_announcement_notification_event_trigger_v1`; the event is due when the announcement is. -/
def Announcement.event (old new : Announcement) : Except DbError (Option StatusEventParams) :=
  if old.publicationState ≠ .draft || new.publicationState ≠ .published then .ok none
  else
    .ok <| some
      { eventKey := some ("status:announcement:" ++ new.publicId ++ ":published")
        eventType := some StatusEventType.announcementPublished.text
        sourceType := some StatusSource.announcement.text
        sourcePublicId := some new.publicId
        title := some new.title
        message := some new.body
        detailHref := some "/status-center"
        severity := some (if new.kind = .warning then "warning" else "info")
        occurredAt := some new.publishAt }

/-- `status_announcements` and its ledger. -/
def announcementTable : Table Announcement where
  name := "status_announcement"
  source := .announcement
  rows := Store.announcements
  setRows rows s := { s with announcements := rows }
  requests := Store.announcementRequests
  setRequests requests s := { s with announcementRequests := requests }
  id := Announcement.id
  publicId := Announcement.publicId
  createRequestId := Announcement.createRequestId
  checks := Announcement.checks
  indexes := "status_announcements"
  event := Announcement.event

/-- The arguments of `create_status_announcement_v1`. -/
structure AnnouncementParams where
  kind : Option String
  title : Option String
  body : Option String
  affectedServiceIds : Option TextArray
  publishAt : Option Timestamptz
  expiresAt : Option Timestamptz
  idempotencyKey : Option Uuid
  actor : Actor

namespace AnnouncementParams

variable (p : AnnouncementParams)

/-- The announcement stored under the key agrees with the arguments. -/
def agrees (a : Announcement) : Bool :=
  !(isDistinct (some a.kind.text) p.kind || isDistinct (some a.title) (p.title.map Text.btrim) ||
    isDistinct (some a.body) (p.body.map Text.btrim) ||
    isDistinct a.affectedServiceIds p.affectedServiceIds ||
    isDistinct (some a.publishAt) p.publishAt || isDistinct a.expiresAt p.expiresAt)

/-- The new row, if the arguments pass their checks. -/
def row (v : Invocation) (key : Uuid) : Except DbError Announcement := do
  let kind ←
    named AnnouncementKind.ofText? (.raised "status_announcement_kind_invalid" "22023") p.kind
  let title ←
    orRaise (trimmedWithin 1 160 p.title) (.raised "status_announcement_title_invalid" "22023")
  let body ←
    orRaise (trimmedWithin 1 4000 p.body) (.raised "status_announcement_body_invalid" "22023")
  raiseIf (!p.affectedServiceIds.all fun a => statusServiceIdsValid (some a))
    (.raised "status_announcement_services_invalid" "22023")
  let publishAt ←
    orRaise p.publishAt (.raised "status_announcement_publish_at_required" "22023")
  raiseIf (p.expiresAt.any fun e => e ≤ publishAt || e ≤ v.now)
    (.raised "status_announcement_expiry_invalid" "22023")
  let kind ← orRaise kind (.notNullViolation "kind")
  return {
    id := v.newId
    publicId := v.newPublicId .announcement
    kind, title, body, publishAt
    affectedServiceIds := p.affectedServiceIds
    expiresAt := p.expiresAt
    publicationState := .draft
    publishedAt := none
    archivedAt := none
    createRequestId := key
    createdAt := v.begunAt
    updatedAt := v.begunAt }

/-- A new announcement is stored and logged. -/
def create [Server] (v : Invocation) (key : Uuid) (c : Center) :
    Except DbError (Announcement × Center) := do
  let a ← p.row v key
  let c ← announcementTable.insert a c
  let c ← c.appendAudit v key p.actor "STATUS_ANNOUNCEMENT_CREATE" "status_announcement" a.publicId
    [("kind", .str a.kind.text),
      ("affectedServiceIds", .ofOption TextArray.toJsonb a.affectedServiceIds),
      ("publishAt", a.publishAt.toJsonb),
      ("expiresAt", .ofOption Timestamptz.toJsonb a.expiresAt)]
  return (a, c)

end AnnouncementParams

/-- `create_status_announcement_v1` -/
def createStatusAnnouncement [Server] (v : Invocation) (p : AnnouncementParams) (c : Center) :
    Except DbError (Announcement × Center) := do
  let key ← authorize "status_announcement" p.idempotencyKey "_idempotency_required" p.actor
  announcementTable.createOnce key p.agrees (p.create v key c) c

/-- What the log keeps of an announcement. -/
def Announcement.auditFields (a : Announcement) : List (String × Jsonb) :=
  [("kind", .str a.kind.text), ("publishAt", a.publishAt.toJsonb),
    ("expiresAt", .ofOption Timestamptz.toJsonb a.expiresAt)]

/-- Publishing an announcement. -/
def publishAnnouncement : Mutation Announcement where
  table := announcementTable
  action := .publish
  auditAction := "STATUS_ANNOUNCEMENT_PUBLISH"
  refuse _ a :=
    raiseIf (a.publicationState = .archived) (.raised "status_announcement_archived" "22023")
  settled a := a.publicationState = .published
  write v a := do
    raiseIf (a.expiresAt.any (· ≤ v.now)) (.raised "status_announcement_already_expired" "22023")
    return { a with
      publicationState := .published
      publishedAt := some v.sampledAt
      updatedAt := v.sampledAt }
  auditFields _ a already := a.auditFields ++ [("alreadyPublished", .bool already)]

/-- Archiving an announcement. -/
def archiveAnnouncement : Mutation Announcement where
  table := announcementTable
  action := .archive
  auditAction := "STATUS_ANNOUNCEMENT_ARCHIVE"
  refuse _ a :=
    raiseIf (a.publicationState = .draft) (.raised "status_announcement_not_published" "22023")
  settled a := a.publicationState = .archived
  write v a := .ok
    { a with
      publicationState := .archived
      archivedAt := some v.sampledAt
      updatedAt := v.sampledAt }
  auditFields v a already :=
    a.auditFields ++
      [("archivedBeforePublish", .bool (v.now < a.publishAt)), ("alreadyArchived", .bool already)]

/-- `publish_status_announcement_v1` -/
def publishStatusAnnouncement [Server] (v : Invocation) (p : MutationParams) (c : Center) :
    Except DbError (Announcement × Center) :=
  publishAnnouncement.run v p c

/-- `archive_status_announcement_v1` -/
def archiveStatusAnnouncement [Server] (v : Invocation) (p : MutationParams) (c : Center) :
    Except DbError (Announcement × Center) :=
  archiveAnnouncement.run v p c

end IvrmDashboard.StatusCenter
