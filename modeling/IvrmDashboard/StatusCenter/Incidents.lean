import IvrmDashboard.Foundations.Sql.Table
import IvrmDashboard.StatusCenter.Tables

/-!
# Incidents and their public timeline

An incident is created as a draft under an idempotency key, published with its first update, and
moved forward by further updates until it is resolved. Every update is stored under the request that
brought it and announced by a trigger. The functions recognise a repeated call by its key or by its
request, but they compare it with the incident as it is by then.
-/

namespace IvrmDashboard.StatusCenter

open Sql Notifications

/-! ## Creating an incident -/

/-- The arguments of `create_status_incident_v1`. -/
structure IncidentParams where
  title : Option String
  impact : Option String
  affectedServiceIds : Option TextArray
  startedAt : Option Timestamptz
  summary : Option String
  idempotencyKey : Option Uuid
  actor : Actor

/-- The arguments after their checks; an impact that is `NULL` has passed. -/
structure IncidentDraft where
  key : Uuid
  title : String
  impact : Option Impact
  affectedServiceIds : TextArray
  startedAt : Timestamptz
  summary : String

/-- How long ago an incident may have started. -/
def thirtyDays : ℤ := 30 * day

/-- The test on `p_started_at`. -/
def startedAtOk (now : ℤ) (t : Timestamptz) : Bool :=
  .ofInstant (now - thirtyDays) ≤ t && t ≤ .ofInstant (now + fiveMinutes)

/-- The checks that come first. -/
def IncidentParams.validate [Server] (p : IncidentParams) (now : ℤ) :
    Except DbError IncidentDraft := do
  let key ← authorize "status_incident" p.idempotencyKey "_idempotency_required" p.actor
  let title ← orRaise (trimmedWithin 1 160 p.title) (.raised "status_incident_title_invalid" "22023")
  let impact ← named Impact.ofText? (.raised "status_incident_impact_invalid" "22023") p.impact
  let affectedServiceIds ←
    orRaise (p.affectedServiceIds.filter fun a => statusServiceIdsValid (some a))
      (.raised "status_incident_services_invalid" "22023")
  let startedAt ← orRaise (p.startedAt.filter (startedAtOk now))
    (.raised "status_incident_started_at_invalid" "22023")
  let summary ← orRaise (trimmedWithin 1 2000 p.summary)
    (.raised "status_incident_summary_invalid" "22023")
  return { key, title, impact, affectedServiceIds, startedAt, summary }

namespace IncidentDraft

/-- The incident stored under the key does not conflict with the arguments. -/
def agrees (d : IncidentDraft) (i : Incident) : Bool :=
  i.title = d.title && !(ne (some i.impact) d.impact).holds &&
    i.affectedServiceIds = d.affectedServiceIds && i.startedAt = d.startedAt &&
    i.summary = d.summary && i.sourceType = .manual

/-- The new row. -/
def row (d : IncidentDraft) (v : Invocation) (impact : Impact) : Incident where
  id := v.newId
  publicId := v.newPublicId .incident
  title := d.title
  lifecycleStatus := .investigating
  impact := impact
  affectedServiceIds := d.affectedServiceIds
  sourceType := .manual
  startedAt := d.startedAt
  resolvedAt := none
  summary := d.summary
  publicationState := .draft
  publishedAt := none
  createRequestId := d.key
  createdAt := v.begunAt
  updatedAt := v.begunAt

end IncidentDraft

namespace Center

/-- `insert into status_incidents …` -/
def insertIncident (i : Incident) (c : Center) : Except DbError Center := do
  checkAll i.checks
  raiseIf (c.incidents.any (·.id = i.id)) (.uniqueViolation "status_incidents_pkey")
  raiseIf (c.incidents.any (·.publicId = i.publicId))
    (.uniqueViolation "status_incidents_public_id_key")
  return { c with incidents := c.incidents ++ [i] }

/-- `update status_incidents set … where id = v_incident.id` -/
def updateIncident (i : Incident) (c : Center) : Except DbError Center := do
  checkAll i.checks
  return { c with incidents := updateWhere (·.id = i.id) (fun _ => i) c.incidents }

end Center

namespace Store

variable (s : Store)

/-- `select * from status_incidents where public_id = p_public_id` -/
def incident? (publicId : String) : Option Incident := s.incidents.find? (·.publicId = publicId)

/-- `select * from status_incidents where id = …` -/
def incidentById? (id : Uuid) : Option Incident := s.incidents.find? (·.id = id)

/-- `select * from status_incident_updates where request_id = p_request_id` -/
def update? (requestId : Uuid) : Option IncidentUpdate :=
  s.updates.find? (·.requestId = requestId)

/-- The row of an update. -/
def newUpdate (v : Invocation) (i : Incident) (status : Lifecycle) (message : String)
    (requestId : Uuid) : IncidentUpdate :=
  ⟨s.nextUpdateId, i.id, status, message, v.sampledAt, requestId, v.begunAt⟩

end Store

/-- A new incident is stored and logged. -/
def IncidentDraft.create [Server] (d : IncidentDraft) (v : Invocation) (a : Actor) (c : Center) :
    Except DbError (Incident × Center) := do
  let impact ← orRaise d.impact (.notNullViolation "impact")
  let i := d.row v impact
  let c ← c.insertIncident i
  let c ← c.appendAudit v d.key a "STATUS_INCIDENT_CREATE" "status_incident" i.publicId
    [("impact", .str i.impact.text), ("affectedServiceIds", i.affectedServiceIds.toJsonb),
      ("startedAt", i.startedAt.toJsonb)]
  return (i, c)

/-- `create_status_incident_v1` -/
def createStatusIncident [Server] (v : Invocation) (p : IncidentParams) (c : Center) :
    Except DbError (Incident × Center) := do
  let d ← p.validate v.sampledAt
  match c.incidents.find? (·.createRequestId = d.key) with
  | some i =>
    raiseIf (!d.agrees i) (.raised "status_incident_idempotency_conflict" "23505")
    return (i, c)
  | none => d.create v p.actor c

/-! ## Updates -/

/-- `severity` of the events of an incident. -/
def Impact.severity : Impact → String
  | .critical => "critical"
  | .major | .minor => "warning"
  | .none => "info"

/-- The event of an update; the first of an incident announces the incident. -/
def Incident.event (i : Incident) (u : IncidentUpdate) (initial : Bool) : StatusEventParams :=
  let (eventType, suffix) : StatusEventType × String :=
    if initial then (.incidentPublished, ":published")
    else if u.lifecycleStatus = .resolved then (.incidentResolved, ":resolved")
    else (.incidentUpdatePublished, ":update:" ++ u.requestId.text)
  { eventKey := some ("status:incident:" ++ i.publicId ++ suffix)
    eventType := some eventType.text
    sourceType := some StatusSource.incident.text
    sourcePublicId := some i.publicId
    title := some i.title
    message := some u.message
    detailHref := some "/status-center"
    severity := some i.impact.severity
    occurredAt := some (.ofInstant u.publishedAt) }

namespace Center

/-- `status_incident_notification_event_trigger_v1` -/
def incidentNotificationEventTrigger (v : Invocation) (u : IncidentUpdate) (c : Center) :
    Except DbError Center := do
  let i ← orRaise ((c.incidentById? u.incidentId).filter (·.publicationState = .published))
    (.raised "status_incident_notification_state_inconsistent" "40001")
  let initial := !c.updates.any fun w => w.incidentId = u.incidentId && w.id ≠ u.id
  c.notify v (i.event u initial)

/-- `insert into status_incident_updates …` -/
def insertUpdate (v : Invocation) (u : IncidentUpdate) (c : Center) : Except DbError Center := do
  checkAll u.checks
  raiseIf (c.updates.any (·.requestId = u.requestId))
    (.uniqueViolation "status_incident_updates_request_key")
  incidentNotificationEventTrigger v u
    { c with updates := c.updates ++ [u], nextUpdateId := c.nextUpdateId + 1 }

end Center

/-- What the log keeps of an incident that is published or updated. -/
def Incident.auditFields (i : Incident) : List (String × Jsonb) :=
  [("lifecycleStatus", .str i.lifecycleStatus.text), ("impact", .str i.impact.text)]

/-! ## Publishing an incident -/

/-- The arguments of the calls that publish, cancel or archive. -/
structure MutationParams where
  publicId : Option String
  requestId : Option Uuid
  actor : Actor

/-- The request and the object, or why the call is refused. -/
def MutationParams.validate [Server] (name : String) (source : StatusSource) (p : MutationParams) :
    Except DbError (Uuid × String) := do
  let requestId ← authorize name p.requestId "_request_id_required" p.actor
  let publicId ← orRaise (p.publicId.filter source.publicIdOk)
    (.raised (name ++ "_public_id_invalid") "22023")
  return (requestId, publicId)

/-- The incident as it is published. -/
def Incident.publish (i : Incident) (v : Invocation) : Incident :=
  { i with
    publicationState := .published
    publishedAt := some v.sampledAt
    updatedAt := v.sampledAt }

/-- The request was seen before: it has to be what published the incident as it stands. -/
def replayIncidentPublish (i : Incident) (u : IncidentUpdate) : Except DbError Unit := do
  raiseIf (u.incidentId ≠ i.id || u.lifecycleStatus ≠ i.lifecycleStatus || u.message ≠ i.summary)
    (.raised "status_incident_publish_idempotency_conflict" "23505")
  raiseIf (i.publicationState ≠ .published)
    (.raised "status_incident_publish_state_inconsistent" "40001")

/-- A draft is published with its first update. -/
def Incident.publishDraft [Server] (i : Incident) (v : Invocation) (requestId : Uuid) (a : Actor)
    (c : Center) : Except DbError (Incident × Center) := do
  let i := i.publish v
  let c ← c.updateIncident i
  let c ← c.insertUpdate v (c.newUpdate v i i.lifecycleStatus i.summary requestId)
  let c ← c.appendAudit v requestId a "STATUS_INCIDENT_PUBLISH" "status_incident" i.publicId
    i.auditFields
  return (i, c)

/-- `publish_status_incident_v1` -/
def publishStatusIncident [Server] (v : Invocation) (p : MutationParams) (c : Center) :
    Except DbError (Incident × Center) := do
  let (requestId, publicId) ← p.validate "status_incident" .incident
  let i ← orRaise (c.incident? publicId) (.raised "status_incident_not_found" "P0002")
  match c.update? requestId with
  | some u =>
    replayIncidentPublish i u
    return (i, c)
  | none =>
    raiseIf (i.publicationState = .archived) (.raised "status_incident_archived" "22023")
    if i.publicationState = .published then
      return (i, c)
    else
      i.publishDraft v requestId p.actor c

/-! ## Appending an update -/

/-- The arguments of `append_status_incident_update_v1`. -/
structure UpdateParams where
  publicId : Option String
  lifecycleStatus : Option String
  message : Option String
  requestId : Option Uuid
  actor : Actor

/-- The arguments after their checks; a status that is `NULL` has passed. -/
structure UpdateDraft where
  requestId : Uuid
  publicId : String
  lifecycleStatus : Option Lifecycle
  message : String

/-- The checks that come first. -/
def UpdateParams.validate [Server] (p : UpdateParams) : Except DbError UpdateDraft := do
  let requestId ← authorize "status_incident" p.requestId "_request_id_required" p.actor
  let publicId ← orRaise (p.publicId.filter StatusSource.incident.publicIdOk)
    (.raised "status_incident_public_id_invalid" "22023")
  let lifecycleStatus ←
    named Lifecycle.ofText? (.raised "status_incident_lifecycle_invalid" "22023") p.lifecycleStatus
  let message ← orRaise (trimmedWithin 1 2000 p.message)
    (.raised "status_incident_update_message_invalid" "22023")
  return { requestId, publicId, lifecycleStatus, message }

/-- The statuses an update may move an incident to. -/
def Lifecycle.successors : Lifecycle → List Lifecycle
  | .investigating => [.investigating, .identified, .monitoring, .resolved]
  | .identified => [.identified, .monitoring, .resolved]
  | .monitoring => [.monitoring, .resolved]
  | .resolved => []

/-- The incident after an update. -/
def Incident.advance (i : Incident) (v : Invocation) (status : Lifecycle) (message : String) :
    Incident :=
  { i with
    lifecycleStatus := status
    summary := message
    resolvedAt := if status = .resolved then some v.sampledAt else none
    updatedAt := v.sampledAt }

/-- The update stored under the request belongs to the incident and does not conflict with the
arguments. -/
def UpdateDraft.agrees (d : UpdateDraft) (u : IncidentUpdate) (i : Incident) : Bool :=
  i.publicId = d.publicId && !(ne (some u.lifecycleStatus) d.lifecycleStatus).holds &&
    u.message = d.message

/-- A new update of a published incident is stored and logged. -/
def UpdateDraft.append [Server] (d : UpdateDraft) (v : Invocation) (a : Actor) (i : Incident)
    (c : Center) : Except DbError (Incident × Center) := do
  raiseIf (i.publicationState ≠ .published) (.raised "status_incident_not_published" "22023")
  raiseIf (i.lifecycleStatus = .resolved) (.raised "status_incident_already_resolved" "22023")
  raiseIf (isIn d.lifecycleStatus i.lifecycleStatus.successors).not.holds
    (.raised "status_incident_transition_invalid" "22023")
  let status ← orRaise d.lifecycleStatus (.notNullViolation "lifecycle_status")
  let c ← c.insertUpdate v (c.newUpdate v i status d.message d.requestId)
  let i := i.advance v status d.message
  let c ← c.updateIncident i
  let c ← c.appendAudit v d.requestId a
    (if status = .resolved then "STATUS_INCIDENT_RESOLVE" else "STATUS_INCIDENT_UPDATE")
    "status_incident" i.publicId i.auditFields
  return (i, c)

/-- `append_status_incident_update_v1` -/
def appendStatusIncidentUpdate [Server] (v : Invocation) (p : UpdateParams) (c : Center) :
    Except DbError (Incident × Center) := do
  let d ← p.validate
  match c.update? d.requestId with
  | some u =>
    let i ← orRaise ((c.incidentById? u.incidentId).filter (d.agrees u))
      (.raised "status_incident_update_idempotency_conflict" "23505")
    return (i, c)
  | none =>
    let i ← orRaise (c.incident? d.publicId) (.raised "status_incident_not_found" "P0002")
    d.append v p.actor i c

end IvrmDashboard.StatusCenter
